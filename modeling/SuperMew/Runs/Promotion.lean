import SuperMew.Runs.Queue

/-! The order in which queued runs are promoted. Questions are numbered under the lock of
their thread, but the next run is chosen by `created_at`, a clock that each reservation has
read before it waits for the lock. -/

namespace SuperMew.Runs

open Relational Runs.System Store Machine

/-! ## The order on the board -/

section Board

variable {b b' : Board} {action : Action} {r : RunId} {deed : Deed} {x y : RunState} {t : Id}

/-- The run has kept its place, and it waits only if it did so before. -/
abbrev RunState.Follows (x' x : RunState) : Prop :=
  (x'.thread = x.thread ∧ x'.number = x.number ∧ x'.created = x.created) ∧
    (x'.status = .queued → x.status = .queued)

/-- What is on the board after a run was moved was there before. -/
theorem Step.old (hs : Step (.does r deed) b b') {r' : RunId} {x' : RunState} (hr' : b' r' = some x') :
    ∃ x, b r' = some x ∧ x'.Follows x := by
  have hmove : ∀ {x y}, b r = some x → Move r deed x y → ∀ {r' x'},
      Function.update b r (some y) r' = some x' → ∃ x, b r' = some x ∧ x'.Follows x := by
    intro x y hr hm r' x' hr'
    obtain ⟨rfl, rfl⟩ | ⟨-, hr'⟩ := update_eq_some.mp hr'
    · exact ⟨x, hr, hm.fixed, fun hq => absurd hq hm.not_queued⟩
    · exact ⟨x', hr', ⟨rfl, rfl, rfl⟩, id⟩
  cases hs with
  | move hr hm => exact hmove hr hm hr'
  | finish hr hm _ hp =>
    cases hp with
    | idle => exact hmove hr hm hr'
    | next hq =>
      obtain ⟨rfl, rfl⟩ | ⟨-, hr'⟩ := update_eq_some.mp hr'
      · obtain ⟨old, hold, hfixed, -⟩ := hmove hr hm hq.1
        exact ⟨old, hold, hfixed, fun hpending => by simp at hpending⟩
      · exact hmove hr hm hr'

/-- Questions of a thread have different numbers, and of two waiting runs the one with the
smaller number was created earlier. -/
structure Board.Ordered (b : Board) : Prop where
  number : ∀ r r' x x', b r = some x → b r' = some x' → x.thread = x'.thread →
    x.number = x'.number → r = r'
  created : ∀ t r r' x x', b.Queued t r x → b.Queued t r' x' → x.number < x'.number →
    x.created < x'.created

theorem ordered_empty : Board.Ordered fun _ => none := by
  constructor <;> simp [Board.Queued]

theorem Board.Ordered.of_old (h : b.Ordered)
    (hold : ∀ {r' x'}, b' r' = some x' → ∃ x, b r' = some x ∧ x'.Follows x) : b'.Ordered := by
  constructor
  · intro r₁ r₂ x₁ x₂ h₁ h₂ ht hn
    obtain ⟨y₁, hb₁, ⟨ht₁, hn₁, -⟩, -⟩ := hold h₁
    obtain ⟨y₂, hb₂, ⟨ht₂, hn₂, -⟩, -⟩ := hold h₂
    rw [ht₁, ht₂] at ht
    rw [hn₁, hn₂] at hn
    exact h.number r₁ r₂ y₁ y₂ hb₁ hb₂ ht hn
  · rintro t r₁ r₂ x₁ x₂ ⟨h₁, hx₁, hq₁⟩ ⟨h₂, hx₂, hq₂⟩ hlt
    obtain ⟨y₁, hb₁, ⟨ht₁, hn₁, hc₁⟩, hw₁⟩ := hold h₁
    obtain ⟨y₂, hb₂, ⟨ht₂, hn₂, hc₂⟩, hw₂⟩ := hold h₂
    rw [ht₁] at hx₁
    rw [ht₂] at hx₂
    rw [hn₁, hn₂] at hlt
    rw [hc₁, hc₂]
    exact h.created t r₁ r₂ y₁ y₂ ⟨hb₁, hx₁, hw₁ hq₁⟩ ⟨hb₂, hx₂, hw₂ hq₂⟩ hlt

/-- The new run is created later than the runs that wait in its thread. -/
def Action.Later (action : Action) (b : Board) : Prop :=
  ∀ r t created, action = .create r t created → ∀ r' x', b.Queued t r' x' → x'.created < created

theorem Step.ordered (hs : Step action b b') (hlater : action.Later b) (h : b.Ordered) :
    b'.Ordered := by
  cases hs with
  | @create b r x hr _ _ hnumber =>
    constructor
    · intro r₁ r₂ x₁ x₂ h₁ h₂ ht hn
      obtain ⟨rfl, rfl⟩ | ⟨-, hb₁⟩ := update_eq_some.mp h₁ <;>
        obtain ⟨rfl, rfl⟩ | ⟨-, hb₂⟩ := update_eq_some.mp h₂
      · rfl
      · exact absurd hn.symm (hnumber r₂ x₂ hb₂ ht.symm).ne
      · exact absurd hn (hnumber r₁ x₁ hb₁ ht).ne
      · exact h.number r₁ r₂ x₁ x₂ hb₁ hb₂ ht hn
    · rintro t r₁ r₂ x₁ x₂ ⟨h₁, rfl, hq₁⟩ ⟨h₂, ht, hq₂⟩ hlt
      obtain ⟨rfl, rfl⟩ | ⟨-, hb₁⟩ := update_eq_some.mp h₁ <;>
        obtain ⟨rfl, rfl⟩ | ⟨-, hb₂⟩ := update_eq_some.mp h₂
      · exact absurd hlt (Nat.lt_irrefl _)
      · exact absurd hlt (hnumber r₂ x₂ hb₂ ht).asymm
      · exact hlater _ _ _ rfl r₁ x₁ ⟨hb₁, ht.symm, hq₁⟩
      · exact h.created _ r₁ r₂ x₁ x₂ ⟨hb₁, rfl, hq₁⟩ ⟨hb₂, ht, hq₂⟩ hlt
  | move hr hm hy => exact h.of_old (Step.old (.move hr hm hy))
  | finish hr hm hy hp => exact h.of_old (Step.old (.finish hr hm hy hp))

/-- All runs that wait in thread `t` are behind the question with number `n`. -/
def Board.Past (b : Board) (t : Id) (n : ℕ) : Prop :=
  (∃ r x, b r = some x ∧ x.thread = t ∧ x.number = n) ∧ ∀ r x, b.Queued t r x → n < x.number

variable (hs : Step action b b')

include hs

theorem Step.kept : Evolves (fun _ x x' => x'.thread = x.thread ∧ x'.number = x.number) b b' := by
  intro r x hr
  rcases hs.one hr with h | ⟨_, y, -, hm, h⟩ | ⟨-, h⟩
  · exact ⟨x, h, rfl, rfl⟩
  · exact ⟨y, h, hm.fixed.1, hm.fixed.2.1⟩
  · exact ⟨_, h, rfl, rfl⟩

theorem Step.past {n : ℕ} (h : b.Past t n) : b'.Past t n := by
  obtain ⟨⟨a, z, ha, hz, rfl⟩, hbehind⟩ := h
  obtain ⟨z', ha', hz', hn'⟩ := hs.kept a z ha
  refine ⟨⟨a, z', ha', hz'.trans hz, hn'⟩, fun r' x' hx' => ?_⟩
  obtain ⟨hr', ht, hq⟩ := hx'
  have hmoved : ∀ {r deed}, Step (.does r deed) b b' → z.number < x'.number := by
    intro r deed hs
    obtain ⟨x, hr, ⟨ht', hnumber, -⟩, hw⟩ := hs.old hr'
    rw [hnumber]
    exact hbehind r' x ⟨hr, ht'.symm.trans ht, hw hq⟩
  cases hs with
  | create hr _ _ hnumber =>
    obtain ⟨rfl, rfl⟩ | ⟨-, hr'⟩ := update_eq_some.mp hr'
    · exact hnumber a z ha (hz.trans ht.symm)
    · exact hbehind r' x' ⟨hr', ht, hq⟩
  | move hr hm hy => exact hmoved (.move hr hm hy)
  | finish hr hm hy hp => exact hmoved (.finish hr hm hy hp)

/-- A run that is promoted leaves only later questions of its thread behind. -/
theorem Step.past_of_promoted (ho : b.Ordered) (hx : b.Queued t r x)
    (hy : b' r = some y) (hpending : y.status = .pending) : b'.Past t x.number := by
  obtain ⟨hr, rfl, hqueued⟩ := hx
  have hstays : ∀ {r' y'}, (r' = r → y'.status ≠ .pending) →
      Function.update b r' (some y') r = some y → False := by
    intro r' y' hne hy
    obtain ⟨heq, rfl⟩ | ⟨-, hy⟩ := update_eq_some.mp hy
    · exact hne heq.symm hpending
    · rw [hr] at hy
      rw [← Option.some.inj hy, hqueued] at hpending
      cases hpending
  cases hs with
  | create hr' =>
    refine absurd hy (hstays ?_)
    rintro rfl
    rw [hr] at hr'
    cases hr'
  | move hr' hm hterm =>
    refine absurd hy (hstays ?_)
    rintro rfl
    rw [hr] at hr'
    have hactive := (hm.active hterm).1
    simp [← Option.some.inj hr', hqueued, RunStatus.active] at hactive
  | @finish _ _ r' _ x' y' hr' hm hterm hp =>
    have hended : y'.status ≠ .pending := by
      intro heq
      simp [heq, RunStatus.terminal] at hterm
    cases hp with
    | idle => exact absurd hy (hstays fun _ => hended)
    | @next q z hq holdest _ =>
      by_cases hqr : q = r
      · subst hqr
        obtain ⟨-, hbq, hzt, -⟩ := (Board.queued_ended hterm).mp hq
        obtain rfl := Option.mem_unique hr hbq
        refine ⟨⟨q, _, Function.update_self .., rfl, rfl⟩, ?_⟩
        rintro a w ⟨ha, hw, hwq⟩
        obtain ⟨rfl, rfl⟩ | ⟨hne, ha⟩ := update_eq_some.mp ha
        · simp at hwq
        · have hcreated := holdest a w ⟨ha, hw.trans hzt, hwq⟩
          obtain ⟨-, hab, -, -⟩ := (Board.queued_ended hterm).mp ⟨ha, hw, hwq⟩
          rcases Nat.lt_trichotomy x.number w.number with hlt | heq | hgt
          · exact hlt
          · exact absurd (ho.number q a x w hr hab hw.symm heq).symm hne
          · have hearlier := ho.created _ a q w x ⟨hab, hw, hwq⟩ ⟨hr, rfl, hqueued⟩ hgt
            exact absurd hcreated (Nat.not_le_of_lt hearlier)
      · rw [Function.update_of_ne (Ne.symm hqr)] at hy
        exact absurd hy (hstays fun _ => hended)

end Board

/-! ## The order of promotions -/

section System

variable {s : System} {call : Call}

/-- A reservation has read a later clock than those of the runs that wait in its thread. -/
def ReadsLaterClock (s : System) (call : Call) : Prop :=
  ∀ request t, call.op = .reserve request → s.store.Home request.username request.threadId t →
    ∀ r run, s.store.runs.get r = some run → run.threadRefId = t → run.status = .queued →
      run.createdAt < call.env.now

variable [ErrorCodec]

theorem later_of_readsLaterClock (h : ReadsLaterClock s call) {action : Action}
    (hacts : call.Acts s action) : action.Later s.store.board := by
  rintro r t created rfl r' x' hx'
  obtain ⟨run, hr, rfl, ht, hq⟩ := board_queued.mp hx'
  cases hacts with
  | reserve hop hhome =>
    rcases hhome with hhome | hunused
    · exact h _ t hop hhome r' run hr ht hq
    · exact absurd ht (hunused r' _ (board_of_run hr))

variable [Platform]

/-- The call makes a queued run pending. -/
def Promotes (s : System) (call : Call) (r : RunId) : Prop :=
  (s.store.runs.get r).map Run.status = some .queued ∧
    ((exec s call).store.runs.get r).map Run.status = some .pending

section

variable (hw : s.store.Wf)

include hw

theorem exec_ordered (hok : ReadsLaterClock s call) (h : s.store.board.Ordered) :
    (exec s call).store.board.Ordered :=
  exec_keeps hw h fun _ _ hacts hs => hs.ordered (later_of_readsLaterClock hok hacts) h

theorem run_ordered (h : s.store.board.Ordered) {calls : List Call}
    (hok : Machine.Along exec ReadsLaterClock s calls) :
    (run exec s calls).store.Wf ∧ (run exec s calls).store.board.Ordered :=
  run_preserves_along (I := fun s : System => s.store.Wf ∧ s.store.board.Ordered)
    (fun _ _ hI hok => ⟨exec_wf hI.1, exec_ordered hI.1 hok hI.2⟩) ⟨hw, h⟩ hok

theorem run_past {t : Id} {n : ℕ} (h : s.store.board.Past t n)
    (calls : List Call) : (run exec s calls).store.board.Past t n :=
  run_keeps hw h (fun hs h => hs.past h) calls

/-- Once a run was promoted, all runs that wait in its thread have later questions. -/
theorem past_of_promotes (ho : s.store.board.Ordered) {r : RunId} {run : Run}
    (h : Promotes s call r) (hr : s.store.runs.get r = some run) :
    (exec s call).store.board.Past run.threadRefId (s.store.numberOf run) := by
  obtain ⟨hqueued, hpending⟩ := h
  rw [hr, Option.map_some, Option.some.injEq] at hqueued
  obtain ⟨run', hr', hpending⟩ := Option.map_eq_some_iff.mp hpending
  have hx : s.store.board.Queued run.threadRefId r (s.store.view r run) :=
    board_queued.mpr ⟨run, hr, rfl, rfl, hqueued⟩
  have hy := board_of_run hr'
  obtain ⟨-, hsame | ⟨action, -, hs⟩⟩ : call.Steps s (exec s call).store := exec_steps hw
  · rw [hsame, hx.1] at hy
    have hstatus : run.status = run'.status := congrArg RunState.status (Option.some.inj hy)
    rw [hqueued, hpending] at hstatus
    cases hstatus
  · exact hs.past_of_promoted ho hx hy hpending

theorem run_kept (calls : List Call) :
    Evolves (fun _ x x' => x'.thread = x.thread ∧ x'.number = x.number) s.store.board
      (run exec s calls).store.board := by
  refine run_keeps hw (Evolves.refl (fun _ _ => ⟨rfl, rfl⟩) _) (fun hs h => ?_) calls
  exact h.trans (fun _ _ _ _ h h' => ⟨h'.1.trans h.1, h'.2.trans h.2⟩) hs.kept

end

/-- If every reservation has read a later clock than the runs that wait, then the runs of a
thread are promoted in the order of their questions. -/
theorem promoted_in_conversation_order (users : Table Id User) {first between : List Call}
    {c₁ c₂ : Call} {r₁ r₂ : RunId} {run₁ run₂ : Run}
    (hok : Machine.Along exec ReadsLaterClock ⟨initial users, []⟩ (first ++ c₁ :: between))
    (h₁ : Promotes (after users first) c₁ r₁)
    (h₂ : Promotes (after users (first ++ c₁ :: between)) c₂ r₂)
    (hr₁ : (after users (first ++ c₁ :: between)).store.runs.get r₁ = some run₁)
    (hr₂ : (after users (first ++ c₁ :: between)).store.runs.get r₂ = some run₂)
    (ht : run₁.threadRefId = run₂.threadRefId) :
    (after users (first ++ c₁ :: between)).store.numberOf run₁ <
      (after users (first ++ c₁ :: between)).store.numberOf run₂ := by
  rw [along_append] at hok
  have hinit : (⟨initial users, []⟩ : System).store.board.Ordered := ordered_empty
  obtain ⟨hw, ho⟩ : (after users first).store.Wf ∧ (after users first).store.board.Ordered :=
    run_ordered (wf_initial users) hinit hok.1
  obtain ⟨run, hrun, -⟩ := Option.map_eq_some_iff.mp h₁.1
  have hpast := run_past (exec_wf hw) (past_of_promotes hw ho h₁ hrun) between
  obtain ⟨x, hx, hthread, hnumber⟩ := run_kept hw (c₁ :: between) r₁ _ (board_of_run hrun)
  rw [← run_cons] at hpast
  rw [after_append] at h₂ hr₁ hr₂ ⊢
  rw [board_of_run hr₁] at hx
  cases hx
  obtain ⟨hqueued, -⟩ := h₂
  rw [hr₂, Option.map_some, Option.some.injEq] at hqueued
  have hbehind := hpast.2 r₂ _ (board_queued.mpr ⟨run₂, hr₂, rfl, ht.symm.trans hthread, hqueued⟩)
  exact hnumber.trans_lt hbehind

end System

namespace Sample

/-- The clock of the third question was read before that of the second one, whose reservation
got the lock of the thread first. -/
def overtaken : List Call := [ask 1 "a", ask 6 "b", ask 5 "c"]

def inOrder : List Call := [ask 1 "a", ask 5 "b", ask 6 "c"]

def finishFirst : Call := finish 7 "a" none .cancelled

end Sample

open PlainPlatform Sample in
/-- The run of the later question is promoted first. -/
theorem promoted_out_of_order :
    Promotes (after users overtaken) finishFirst "c" ∧
    Promotes (after users (overtaken ++ [finishFirst])) (finish 8 "c" none .cancelled) "b" ∧
    (((after users overtaken).store.runs.get "c").map
      (after users overtaken).store.numberOf = some 5 ∧
    ((after users overtaken).store.runs.get "b").map
      (after users overtaken).store.numberOf = some 3) := by
  refine ⟨⟨?_, ?_⟩, ⟨?_, ?_⟩, ?_, ?_⟩ <;> decide +kernel

/-- It is enough that the clock is later than those of all runs. -/
theorem readsLaterClock_of_all {s : System} {call : Call}
    (h : (s.store.runs.rows.all fun e => decide (e.2.createdAt < call.env.now)) = true) :
    ReadsLaterClock s call := by
  intro _ _ _ _ r run hr _ _
  exact of_decide_eq_true (List.all_eq_true.mp h (r, run) (Table.mem_rows.mpr hr))

open PlainPlatform Sample in
theorem second_promoted_before_third :
    ∃ run₁ run₂, (after users (inOrder ++ [finishFirst])).store.runs.get "b" = some run₁ ∧
      (after users (inOrder ++ [finishFirst])).store.runs.get "c" = some run₂ ∧
      (after users (inOrder ++ [finishFirst])).store.numberOf run₁ <
        (after users (inOrder ++ [finishFirst])).store.numberOf run₂ := by
  have hruns : ((after users (inOrder ++ [finishFirst])).store.runs.get "b").map
      Run.threadRefId = some 1 ∧ ((after users (inOrder ++ [finishFirst])).store.runs.get
        "c").map Run.threadRefId = some 1 := by decide +kernel
  obtain ⟨run₁, hr₁, ht₁⟩ := Option.map_eq_some_iff.mp hruns.1
  obtain ⟨run₂, hr₂, ht₂⟩ := Option.map_eq_some_iff.mp hruns.2
  refine ⟨run₁, run₂, hr₁, hr₂, ?_⟩
  have h₁ : Promotes (after users inOrder) finishFirst "b" :=
    ⟨by decide +kernel, by decide +kernel⟩
  have h₂ : Promotes (after users (inOrder ++ [finishFirst]))
      (finish 8 "b" none .cancelled) "c" := ⟨by decide +kernel, by decide +kernel⟩
  refine promoted_in_conversation_order users ?_ h₁ h₂ hr₁ hr₂ (ht₁.trans ht₂.symm)
  refine ⟨?_, ?_, ?_, ?_, trivial⟩ <;> exact readsLaterClock_of_all (by decide +kernel)

end SuperMew.Runs
