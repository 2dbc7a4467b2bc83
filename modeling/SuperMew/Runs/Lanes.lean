import SuperMew.Runs.Board
import Mathlib.Tactic.Common

/-! Invariants of the board: each thread is a lane in which at most one run is active and
the others wait behind it. -/

namespace SuperMew.Runs

open Relational RunStatus Function

variable {b b' : Board} {action : Action} {r : RunId} {deed : Deed} {x y : RunState}

/-! ## What a move can do -/

theorem endStatus_terminal {status target : RunStatus} (h : target.terminal = true) :
    (endStatus status target).terminal = true := by
  unfold endStatus
  split
  · rfl
  · exact h

section

variable {status target other : RunStatus} {reply : Reply} {e : Closing}
  (h : target.terminal = true)

include h

theorem closed_terminal : (x.closed r (endStatus status target) reply e).status.terminal = true := by
  rw [RunState.closed_status]
  exact endStatus_terminal h

theorem closed_ne (hother : other.terminal = false) :
    (x.closed r (endStatus status target) reply e).status ≠ other := by
  rintro rfl
  rw [closed_terminal h] at hother
  cases hother

end

section

variable (h : Move r deed x y)

include h

theorem Move.active (hy : y.status.terminal = false) :
    x.status.active = true ∧ y.status.active = true := by
  cases h with
  | start hx | renew _ _ hx | note _ _ hx => rcases hx with hx | hx <;> simp [hx, active]
  | suspend _ _ hx =>
    cases hs : x.status <;>
      simp [hs, canTransition, allowedTransitions, active] at hx ⊢
  | pause _ _ hx | accept hx | acceptStart hx | resume hx => simp [hx, active]
  | mark hx => rcases hx with hx | hx | hx <;> simp [hx, active]
  | finish _ htarget => simp [endStatus_terminal htarget] at hy

theorem Move.not_queued : y.status ≠ .queued := by
  intro hq
  have hactive := (h.active (by rw [hq]; rfl)).2
  rw [hq] at hactive
  cases hactive

/-- Only a run that has not ended can move. -/
theorem Move.not_terminal : x.status.terminal = false := by
  by_cases hy : y.status.terminal = false
  · exact not_terminal_of_active (h.active hy).1
  · cases h with
    | finish hx => exact hx
    | renew _ _ hx | note _ _ hx => rcases hx with hx | hx <;> simp [hx, terminal]
    | _ => simp [terminal] at hy

theorem Move.fixed : y.thread = x.thread ∧ y.number = x.number ∧ y.created = x.created := by
  cases h with
  | @finish _ token target code reply e _ _ _ _ _ =>
    cases husage : e.usage <;> simp [RunState.closed, RunState.used, husage]
  | _ => simp

end

/-! ## Ended runs -/

theorem Board.queued_ended (hy : y.status.terminal = true) {t : Id} {r' : RunId} {x' : RunState} :
    Board.Queued (update b r (some y)) t r' x' ↔ r' ≠ r ∧ b.Queued t r' x' := by
  constructor
  · rintro ⟨hr', ht, hq⟩
    obtain ⟨rfl, rfl⟩ | ⟨hne, hr'⟩ := update_eq_some.mp hr'
    · exact absurd hq (terminal_ne_queued hy)
    · exact ⟨hne, hr', ht, hq⟩
  · rintro ⟨hne, hr', ht, hq⟩
    exact ⟨by simp [hne, hr'], ht, hq⟩

theorem Board.active_ended (hy : y.status.terminal = true) {t : Id} :
    Board.Active (update b r (some y)) t ↔
      ∃ r' x', r' ≠ r ∧ b r' = some x' ∧ x'.thread = t ∧ x'.status.active = true := by
  constructor
  · rintro ⟨r', x', hr', ht, hactive⟩
    obtain ⟨rfl, rfl⟩ | ⟨hne, hr'⟩ := update_eq_some.mp hr'
    · simp [terminal_not_active hy] at hactive
    · exact ⟨r', x', hne, hr', ht, hactive⟩
  · rintro ⟨r', x', hne, hr', ht, hactive⟩
    exact ⟨r', x', by simp [hne, hr'], ht, hactive⟩

/-! ## Lanes -/

structure Board.Lanes (b : Board) : Prop where
  one : ∀ r r' x x', b r = some x → b r' = some x' → x.thread = x'.thread →
    x.status.active = true → x'.status.active = true → r = r'
  queued : ∀ t r x, b.Queued t r x → b.Active t

theorem lanes_empty : Board.Lanes fun _ => none := by
  constructor <;> simp [Board.Queued]

/-- An active run that stays active keeps its lane. -/
theorem Board.Lanes.move (h : b.Lanes) (hr : b r = some x) (hthread : y.thread = x.thread)
    (hx : x.status.active = true) (hy : y.status.active = true) :
    Board.Lanes (update b r (some y)) := by
  have hone := h.one
  constructor
  · grind
  · rintro t r' x' ⟨hr', rfl, hqueued⟩
    obtain ⟨-, rfl⟩ | ⟨hne, hr'⟩ := update_eq_some.mp hr'
    · rw [hqueued] at hy
      simp [active] at hy
    · obtain ⟨a, z, ha, hz, hactive⟩ := h.queued _ r' x' ⟨hr', rfl, hqueued⟩
      by_cases har : a = r
      · subst har
        obtain rfl := Option.mem_unique hr ha
        exact ⟨a, y, by simp, by rw [hthread, hz], hy⟩
      · exact ⟨a, z, by simp [har, ha], hz, hactive⟩

theorem Board.Lanes.create (h : b.Lanes)
    (hx : x.status = .pending ∧ ¬ b.Active x.thread ∨ x.status = .queued ∧ b.Active x.thread)
    (hr : b r = none) : Board.Lanes (update b r (some x)) := by
  have hone := h.one
  have hkept : ∀ t, b.Active t → Board.Active (update b r (some x)) t := by
    rintro t ⟨a, z, ha, hz, hbusy⟩
    have har : a ≠ r := by
      rintro rfl
      simp [hr] at ha
    exact ⟨a, z, by simp [har, ha], hz, hbusy⟩
  rcases hx with ⟨hpending, hidle⟩ | ⟨hqueued, hactive⟩
  · have hfree : ∀ r' x', b r' = some x' → x'.thread = x.thread → x'.status.active = false := by
      intro r' x' hr' hthread
      by_contra hbusy
      exact hidle ⟨r', x', hr', hthread, by simpa using hbusy⟩
    constructor
    · grind
    · rintro t r' x' ⟨hr', rfl, hq⟩
      obtain ⟨-, rfl⟩ | ⟨hne, hr'⟩ := update_eq_some.mp hr'
      · simp [hpending] at hq
      · exact hkept _ (h.queued _ r' x' ⟨hr', rfl, hq⟩)
  · have hself : x.status.active = false := by rw [hqueued, queued_not_active]
    constructor
    · grind
    · rintro t r' x' ⟨hr', rfl, hq⟩
      obtain ⟨-, rfl⟩ | ⟨hne, hr'⟩ := update_eq_some.mp hr'
      · exact hkept _ hactive
      · exact hkept _ (h.queued _ r' x' ⟨hr', rfl, hq⟩)

/-- A run that ends leaves its lane to the next queued one. A queued run that ends stands
behind an active one, so nothing can be promoted over that. -/
theorem Board.Lanes.finish (h : b.Lanes) (hr : b r = some x) (hthread : y.thread = x.thread)
    (hy : y.status.terminal = true) (hp : Promote x.thread (update b r (some y)) b') :
    b'.Lanes := by
  have hone := h.one
  have hended : y.status.active = false := terminal_not_active hy
  cases hp with
  | idle hidle =>
    constructor
    · grind
    · intro t r' x' hq
      obtain ⟨a, z, ha, hz, hbusy⟩ := h.queued _ r' x' ((Board.queued_ended hy).mp hq).2
      by_cases har : a = r
      · subst har
        obtain rfl := Option.mem_unique hr ha
        exact absurd (hz ▸ hq) (hidle r' x')
      · exact ⟨a, z, by simp [har, ha], hz, hbusy⟩
  | @next q z hq holdest hidle =>
    obtain ⟨hqr, hqb, hzt, hzq⟩ := (Board.queued_ended hy).mp hq
    have hfree : ∀ r' x', r' ≠ r → b r' = some x' → x'.thread = x.thread →
        x'.status.active = false := by
      intro r' x' hne hr' hthread'
      by_contra hbusy
      exact hidle ⟨r', x', by simp [hne, hr'], hthread', by simpa using hbusy⟩
    have hactive : ({ z with status := .pending }.replying .streaming).status.active = true := rfl
    constructor
    · grind [RunState.replying]
    · rintro t r' x' ⟨hr', rfl, hq'⟩
      obtain ⟨-, rfl⟩ | ⟨hne, hr'⟩ := update_eq_some.mp hr'
      · simp at hq'
      · by_cases hsame : x'.thread = x.thread
        · exact ⟨q, _, by simp, by simp [hzt, hsame], hactive⟩
        · obtain ⟨-, rfl⟩ | ⟨hne', hr'⟩ := update_eq_some.mp hr'
          · exact absurd hthread hsame
          · obtain ⟨a, w, ha, hw, hbusy⟩ := h.queued _ r' x' ⟨hr', rfl, hq'⟩
            have har : a ≠ r := by
              rintro rfl
              obtain rfl := Option.mem_unique hr ha
              exact hsame hw.symm
            have haq : a ≠ q := by
              rintro rfl
              obtain rfl := Option.mem_unique hqb ha
              exact hsame (hw.symm.trans hzt)
            exact ⟨a, w, by simp [haq, har, ha], hw, hbusy⟩

theorem Step.lanes (hs : Step action b b') (h : b.Lanes) : b'.Lanes := by
  cases hs with
  | create hr _ hx => exact h.create hx hr
  | move hr hm hy => exact h.move hr hm.fixed.1 (hm.active hy).1 (hm.active hy).2
  | finish hr hm hy hp => exact h.finish hr hm.fixed.1 hy hp

/-! ## One run in a step -/

theorem Promote.other {t : Id} (h : Promote t b b') (hr : b r = some x) (hx : x.status ≠ .queued) :
    b' r = some x := by
  cases h with
  | idle => exact hr
  | @next q z hq _ _ =>
    have hne : r ≠ q := by
      rintro rfl
      rw [hq.1] at hr
      exact hx (Option.some.inj hr ▸ hq.2.2)
    rw [update_of_ne hne, hr]

/-- A step leaves a run as it is, moves it, or promotes it. -/
theorem Step.one (hs : Step action b b') (hr : b r = some x) :
    b' r = some x ∨ (∃ deed y, action = .does r deed ∧ Move r deed x y ∧ b' r = some y) ∨
      x.status = .queued ∧ b' r = some ({ x with status := .pending }.replying .streaming) := by
  have hput : ∀ {r' deed x' y'}, b r' = some x' → Move r' deed x' y' →
      update b r' (some y') r = some x ∨
        ∃ y, r' = r ∧ Move r deed x y ∧ update b r' (some y') r = some y := by
    intro r' deed x' y' hr' hm
    by_cases heq : r' = r
    · subst heq
      obtain rfl := Option.mem_unique hr hr'
      exact .inr ⟨y', rfl, hm, update_self ..⟩
    · exact .inl (by rw [update_of_ne (Ne.symm heq), hr])
  cases hs with
  | @create _ r' _ hr' _ _ _ =>
    have hne : r ≠ r' := by
      rintro rfl
      rw [hr] at hr'
      cases hr'
    exact .inl (by rw [update_of_ne hne, hr])
  | move hr' hm =>
    rcases hput hr' hm with h | ⟨y, rfl, hm, h⟩
    · exact .inl h
    · exact .inr (.inl ⟨_, y, rfl, hm, h⟩)
  | @finish _ _ r' _ x' y' hr' hm hterm hp =>
    rcases hput hr' hm with h | ⟨y, rfl, hm, h⟩
    · cases hp with
      | idle => exact .inl h
      | @next q z hq _ _ =>
        by_cases hqr : r = q
        · subst hqr
          cases h.symm.trans hq.1
          exact .inr (.inr ⟨hq.2.2, update_self ..⟩)
        · exact .inl (by rw [update_of_ne hqr, h])
    · have hy : y = y' := by
        rw [update_self] at h
        exact (Option.some.inj h).symm
      have hne : y.status ≠ .queued := hy ▸ terminal_ne_queued hterm
      exact .inr (.inl ⟨_, y, rfl, hm, hp.other h hne⟩)

theorem Step.ended (hs : Step action b b') (hr : b r = some x) (hx : x.status.terminal = true) :
    b' r = some x := by
  rcases hs.one hr with h | ⟨deed, y, -, hm, -⟩ | ⟨hq, -⟩
  · exact h
  · rw [hm.not_terminal] at hx
    cases hx
  · rw [hq] at hx
    cases hx

/-! ## Invariants of single runs -/

/-- What holds of fresh runs, is kept by every allowed move and survives promotion holds
of every run on the board after a step. -/
theorem Step.forall {P : RunId → RunState → Prop} {ok : RunId → Deed → RunState → Prop}
    (fresh : ∀ r x, x.Fresh r → x.status = .pending ∨ x.status = .queued → P r x)
    (move : ∀ r deed x y, Move r deed x y → ok r deed x → P r x → P r y)
    (promote : ∀ r x, x.status = .queued → P r x →
      P r ({ x with status := .pending }.replying .streaming))
    (hs : Step action b b') (hok : ∀ r deed x, action = .does r deed → b r = some x → ok r deed x)
    (h : ∀ r x, b r = some x → P r x) : ∀ r x, b' r = some x → P r x := by
  have hput : ∀ {b : Board} {r y}, (∀ r x, b r = some x → P r x) → P r y →
      ∀ r' x, update b r (some y) r' = some x → P r' x := by
    intro b r y hb hy r' x hr'
    obtain ⟨rfl, rfl⟩ | ⟨-, hr'⟩ := update_eq_some.mp hr'
    · exact hy
    · exact hb r' x hr'
  cases hs with
  | create hr hx hstatus =>
    exact hput h (fresh _ _ hx (hstatus.imp (·.1) (·.1)))
  | move hr hm => exact hput h (move _ _ _ _ hm (hok _ _ _ rfl hr) (h _ _ hr))
  | finish hr hm _ hp =>
    have hmid := hput h (move _ _ _ _ hm (hok _ _ _ rfl hr) (h _ _ hr))
    cases hp with
    | idle => exact hmid
    | next hq => exact hput hmid (promote _ _ hq.2.2 (hmid _ _ hq.1))

end SuperMew.Runs
