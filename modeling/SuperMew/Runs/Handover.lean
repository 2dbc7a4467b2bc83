import SuperMew.Runs.Cancellation

/-! Executions that gave up their run. A pause clears the owner of a run and keeps its token,
a claim and a resumption raise the token: an execution that lost its run in one of these ways
keeps a ticket that no longer opens anything, but for one call. -/

namespace SuperMew.Runs

open Relational Runs.System

/-! ## Tickets -/

/-- The execution of worker `w` under token `f` has had the run and does not hold it any more. -/
structure RunState.GivenUp (x : RunState) (w : String) (f : ℕ) : Prop where
  issued : f ≤ x.token
  lost : ¬ (x.token = f ∧ x.owner = some w)
  /-- The run has been started, so it never waits in the queue again. -/
  started : x.status ≠ .queued

variable {w : String} {r : RunId}

section Board

variable {deed : Deed} {x y : RunState} {f : ℕ}

theorem closed_ticket {target : RunStatus} {reply : Reply} {e : Closing} :
    (x.closed r target reply e).token = x.token ∧ (x.closed r target reply e).owner = x.owner := by
  rw [RunState.closed, RunState.used_eq]
  exact ⟨rfl, rfl⟩

/-- A move keeps the ticket of a run, clears the owner, or issues the next token. -/
theorem Move.ticket (h : Move r deed x y) :
    y.token = x.token ∧ (y.owner = x.owner ∨ y.owner = none) ∨ y.token = x.token + 1 := by
  cases h with
  | start | acceptStart | resume => exact .inr rfl
  | finish => exact .inl ⟨closed_ticket.1, .inl closed_ticket.2⟩
  | renew | mark | note => exact .inl ⟨rfl, .inl rfl⟩
  | _ => exact .inl ⟨rfl, .inr rfl⟩

theorem Move.givenUp (h : Move r deed x y) (hx : x.GivenUp w f) : y.GivenUp w f := by
  rcases h.ticket with ⟨htoken, howner⟩ | htoken
  · refine ⟨htoken ▸ hx.issued, fun ⟨hf, hw⟩ => ?_, h.not_queued⟩
    rcases howner with howner | howner
    · exact hx.lost ⟨htoken ▸ hf, howner ▸ hw⟩
    · rw [howner] at hw
      cases hw
  · refine ⟨?_, fun ⟨hf, _⟩ => ?_, h.not_queued⟩
    · rw [htoken]
      exact Nat.le_succ_of_le hx.issued
    · rw [htoken] at hf
      exact absurd hx.issued (by omega)

theorem Step.givenUp {action : Action} {b b' : Board} (hs : Step action b b') (hr : b r = some x)
    (hx : x.GivenUp w f) : ∃ y, b' r = some y ∧ y.GivenUp w f := by
  rcases hs.one hr with h | ⟨_, y, -, hm, h⟩ | ⟨hq, -⟩
  · exact ⟨x, h, hx⟩
  · exact ⟨y, h, hm.givenUp hx⟩
  · exact absurd hq hx.started

/-- The pause of an execution takes its ticket. -/
theorem Move.givenUp_of_pause (h : Move r deed x y)
    (hdeed : deed = .pause w f ∨ deed = .suspend w f) : y.GivenUp w f := by
  have hnone : y.token = f ∧ y.owner = none := by
    rcases hdeed with rfl | rfl
    · cases h with
      | pause _ htoken => exact ⟨htoken, rfl⟩
    · cases h with
      | suspend _ htoken => exact ⟨htoken, rfl⟩
  refine ⟨hnone.1.ge, fun ⟨_, howner⟩ => ?_, h.not_queued⟩
  rw [hnone.2] at howner
  cases howner

/-- So does the next token. -/
theorem Move.givenUp_of_token (h : Move r deed x y) (hx : x.token = f) (hy : y.token ≠ f) :
    y.GivenUp w f := by
  rcases h.ticket with ⟨htoken, -⟩ | htoken
  · exact absurd (htoken.trans hx) hy
  · exact ⟨by omega, fun ⟨hf, _⟩ => hy hf, h.not_queued⟩

end Board

/-! ## Calls of an execution -/

/-- The calls by which an execution shows its ticket. -/
inductive Op.Carries (r : RunId) (w : String) (f : ℕ) : Op → Prop where
  | heartbeat (lease) : Carries r w f (.heartbeat r w f lease)
  | pinSkillActivation (requested) : Carries r w f (.pinSkillActivation r w f requested)
  | recordToolAudit {q} : q.runId = r → q.workerId = w → q.fencingToken = f →
      Carries r w f (.recordToolAudit q)
  | append (type data) : Carries r w f (.append r type data w f)
  | recordPause {q} : q.runId = r → q.workerId = w → q.fencingToken = f →
      Carries r w f (.recordPause q)
  | setWaitingInput : Carries r w f (.setWaitingInput r w f)
  | finalize {q} : q.runId = r → q.fencingToken = some f → Carries r w f (.finalize q)

section Held

variable {s s' : Store} {env : Env} {f : ℕ} {record : RunRecord}

/-- The execution of `w` under `f` holds the run. -/
def Store.Held (s : Store) (r : RunId) (w : String) (f : ℕ) : Prop :=
  ∃ run, s.runs.get r = some run ∧ run.fencingToken = f ∧ run.ownerWorkerId = some w

theorem recordToolAudit_held {q : AuditRequest} (h : recordToolAudit q s = .ok s') :
    s.Held q.runId q.workerId q.fencingToken := by
  simp only [recordToolAudit, ok_rules] at h
  obtain ⟨_, _, ⟨run, thread⟩, howned, -⟩ := h
  obtain ⟨hr, htoken, -, howner⟩ := ownedBy_ok howned
  exact ⟨run, hr, htoken, howner⟩

theorem append_held {type : RunEventType} {data : Dict}
    (h : append env ⟨r, type, data, some w, some f⟩ s = .ok s') : s.Held r w f := by
  simp only [append, ok_rules] at h
  obtain ⟨run, hr, _, hheld, -⟩ := h
  simp only [ne_eq, reduceCtorEq, not_false_eq_true, or_self, false_or, true_and, not_or, not_not,
    Option.some.injEq] at hheld
  exact ⟨run, hr, hheld.2.1, hheld.1⟩

/-- A pause that was recorded before is answered again, whoever holds the run. -/
theorem recordPause_held {q : PauseRequest} {answer : CheckpointPause}
    (h : recordPause env q s = .ok (answer, s')) :
    s' = s ∨ s.Held q.runId q.workerId q.fencingToken := by
  simp only [recordPause, ok_rules] at h
  obtain ⟨run, hr, h⟩ := h
  split at h
  · simp only [ok_rules] at h
    obtain ⟨_, _, _, _, _, _, -, rfl⟩ := h
    exact .inl rfl
  · simp only [pausable, ok_rules] at h
    obtain ⟨_, ⟨_, hheld, -⟩, -⟩ := h
    rw [not_or, not_not, not_not] at hheld
    exact .inr ⟨run, hr, hheld.2, hheld.1⟩

variable [ErrorCodec]

theorem heartbeat_held {lease : Option ℕ} (h : heartbeat env r w f lease s = .ok (record, s')) :
    s.Held r w f := by
  simp only [heartbeat, assertFencing, ok_rules] at h
  obtain ⟨run, hr, _, htoken, _, howner, -⟩ := h
  rw [not_or, not_not] at howner
  exact ⟨run, hr, by simpa using htoken, howner.1⟩

theorem setWaitingInput_held (h : setWaitingInput env r w f s = .ok (record, s')) :
    s.Held r w f := by
  simp only [setWaitingInput, assertFencing, ok_rules] at h
  obtain ⟨run, hr, _, htoken, _, howner, -⟩ := h
  exact ⟨run, hr, by simpa using htoken, by simpa using howner⟩

theorem pinSkillActivation_held {requested : SkillActivation}
    (h : pinSkillActivation r w f requested s = .ok (record, s')) : s.Held r w f := by
  simp only [pinSkillActivation, ok_rules] at h
  obtain ⟨⟨run, thread⟩, howned, -⟩ := h
  obtain ⟨hr, htoken, -, howner⟩ := ownedBy_ok howned
  exact ⟨run, hr, htoken, howner⟩

end Held

/-! ## Runs of the system -/

section Reachable

variable {s : System} {call : Call} {f : ℕ}

/-- The call asks for the end of a run that still carries the token of the execution. -/
def Call.EndsUnclaimed (call : Call) (s : System) (f : ℕ) : Prop :=
  ∃ request run, call.op = .finalize request ∧ s.store.runs.get request.runId = some run ∧
    run.fencingToken = f ∧ request.Ends run

variable [ErrorCodec] [Platform]

/-- The call takes the run from the execution of `w` under `f`: the execution pauses the run, or
a claim or a resumption moves the run on to another token. -/
def GivesUp (s : System) (call : Call) (r : RunId) (w : String) (f : ℕ) : Prop :=
  ∃ run run', s.store.runs.get r = some run ∧ (exec s call).store.runs.get r = some run' ∧
    ((call.op = .setWaitingInput r w f ∨ (∃ q, call.op = .recordPause q ∧ q.runId = r ∧
        q.workerId = w ∧ q.fencingToken = f)) ∧
      run.status ≠ .waitingInput ∧ run'.status = .waitingInput ∨
    ((∃ w' lease, call.op = .claim r w' lease) ∨ (∃ q, call.op = .consumeResume q ∧ q.runId = r)) ∧
      run.fencingToken = f ∧ run'.fencingToken ≠ f)

theorem givenUp_of_givesUp (hw : s.store.Wf) (h : GivesUp s call r w f) :
    ∃ x, (exec s call).store.board r = some x ∧ x.GivenUp w f := by
  obtain ⟨run, run', hr, hr', hcase⟩ := h
  have hb := Store.board_of_run hr
  have hb' := Store.board_of_run hr'
  refine ⟨_, hb', ?_⟩
  -- what one step does to the run; a step that does not move it cannot give it up
  have hsame : ∀ {x}, (exec s call).store.board r = some x → x.token = run.fencingToken →
      x.status = run.status ∨ x.status = .pending → ((exec s call).store.view r run').GivenUp w f := by
    intro x hx htoken hstatus
    cases hb'.symm.trans hx
    rcases hcase with ⟨-, hidle, hwait⟩ | ⟨-, hf, hf'⟩
    · rcases hstatus with heq | heq
      · exact absurd (heq.symm.trans hwait) hidle
      · exact absurd (hwait.symm.trans heq) (by decide)
    · exact absurd (htoken.trans hf) hf'
  rcases (exec_steps hw : call.Steps s _).2 with heq | ⟨action, hacts, hs⟩
  · exact hsame (heq ▸ hb) rfl (.inl rfl)
  · rcases hs.one hb with heq | ⟨deed, y, rfl, hm, hy⟩ | ⟨-, heq⟩
    · exact hsame heq rfl (.inl rfl)
    · cases hb'.symm.trans hy
      rcases hcase with ⟨hop, -, -⟩ | ⟨-, hf, hf'⟩
      · refine hm.givenUp_of_pause ?_
        cases hacts with
        | does hdoes =>
          rcases hop with hop | ⟨q, hop, -, rfl, rfl⟩ <;> rw [hop] at hdoes <;> cases hdoes
          · exact .inr rfl
          · exact .inl rfl
      · exact hm.givenUp_of_token hf hf'
    · exact hsame heq rfl (.inr rfl)

theorem run_givenUp (hw : s.store.Wf) {x : RunState} (hr : s.store.board r = some x)
    (hx : x.GivenUp w f) (calls : List Call) :
    ∃ y, (Machine.run exec s calls).store.board r = some y ∧ y.GivenUp w f := by
  refine run_keeps (P := fun b => ∃ y, b r = some y ∧ y.GivenUp w f) hw ⟨x, hr, hx⟩ ?_ calls
  rintro action b b' hs ⟨y, hy, hgiven⟩
  exact hs.givenUp hy hgiven

/-- A call that shows a ticket does something only to a run that is held under it, or ends a
run with this token. -/
theorem carries_ok (hw : s.store.Wf) {store : Store} (hc : call.op.Carries r w f)
    (h : call.transaction s = .ok store) :
    store = s.store ∨ s.store.Held r w f ∨ call.EndsUnclaimed s f := by
  obtain ⟨env, op⟩ := call
  cases hc with
  | heartbeat lease => exact of_map_snd h fun hop => .inr (.inl (heartbeat_held hop))
  | pinSkillActivation requested =>
    exact of_map_snd h fun hop => .inr (.inl (pinSkillActivation_held hop))
  | recordToolAudit hr hworker hf =>
    subst hr hworker hf
    exact .inr (.inl (recordToolAudit_held h))
  | append type data => exact .inr (.inl (append_held h))
  | recordPause hr hworker hf =>
    subst hr hworker hf
    exact of_map_snd h fun hop => (recordPause_held hop).imp_right .inl
  | setWaitingInput => exact of_map_snd h fun hop => .inr (.inl (setWaitingInput_held hop))
  | finalize hr hf =>
    obtain ⟨⟨_, _⟩, hop, rfl⟩ := map_eq_ok.mp h
    rcases finalize_cases hw env _ with ⟨run, _, hrun, -, htoken, hends⟩ | ⟨_, hsame⟩ | ⟨_, hfault, -⟩
    · exact .inr (.inr ⟨_, run, rfl, hrun, htoken f hf, hends⟩)
    · exact .inl (Prod.mk.inj (Except.ok.inj (hop.symm.trans hsame))).2
    · cases hop.symm.trans hfault

/-- An execution that gave up its run leaves it alone from then on, if and only if it does not
ask for the end of a run that is still open under its old token. -/
theorem given_up_run_is_left_alone (users : Table Id User) (calls between : List Call)
    {call later : Call} (h : GivesUp (after users calls) call r w f)
    (hlater : later.op.Carries r w f) :
    (exec (after users (calls ++ call :: between)) later).store =
        (after users (calls ++ call :: between)).store ↔
      ¬ later.EndsUnclaimed (after users (calls ++ call :: between)) f := by
  obtain ⟨x₀, hr₀, hx₀⟩ := givenUp_of_givesUp (after_wf users calls) h
  obtain ⟨x, hr, hx⟩ := run_givenUp (exec_wf (after_wf users calls)) hr₀ hx₀ between
  rw [← Machine.run_cons, ← after_append] at hr
  have hw := after_wf users (calls ++ call :: between)
  have hl := after_lanes users (calls ++ call :: between)
  generalize after users (calls ++ call :: between) = s at hr hw hl ⊢
  obtain ⟨run, hrun, rfl⟩ := Store.run_of_board hr
  constructor
  · rintro hsame ⟨request, run', hop, hrun', hf, hends⟩
    have hown : request.runId = r ∧ request.fencingToken = some f := by
      rw [hop] at hlater
      cases hlater with
      | finalize hr hf => exact ⟨hr, hf⟩
    obtain ⟨rfl, htoken⟩ := hown
    cases hrun.symm.trans hrun'
    have hopen := hends.1
    have hactive : run.status.active = true := by
      have hstarted : run.status ≠ .queued := hx.started
      cases hs : run.status <;> simp [hs, RunStatus.active, RunStatus.terminal] at hopen hstarted ⊢
    have hfence : ∀ f' ∈ request.fencingToken, run.fencingToken = f' := by
      intro f' hf'
      rw [htoken] at hf'
      exact hf.trans (Option.some.inj hf')
    obtain ⟨record, store, hok, hended⟩ : ∃ record store,
        finalize later.env request s.store = .ok (record, store) ∧ _ :=
      finalize_active hw hl hrun hactive hfence hends
    have hstore : (exec s later).store = store := by
      simp [exec, Call.transaction, hop, hok, Except.map]
    rw [← hstore, hsame, hrun, Option.map_some, Option.some.injEq] at hended
    rw [hended, endStatus_terminal hends.2.1] at hopen
    cases hopen
  · intro hends
    unfold exec
    dsimp only
    split
    · rename_i store hok
      rcases carries_ok hw hlater hok with heq | ⟨run', hrun', htoken, howner⟩ | hcall
      · exact heq
      · cases hrun.symm.trans hrun'
        exact absurd ⟨htoken, howner⟩ hx.lost
      · exact absurd hcall hends
    · rfl

end Reachable

namespace Sample

def started : List Call := [ask 1 "a", take 2 "a" "w"]

end Sample

open PlainPlatform Sample in
theorem started_gives_up : GivesUp (after users started) (pause 3 "a" "w" 3) "a" "w" 3 := by
  have hstatus : ((after users started).store.runs.get "a").map Run.status = some .running ∧
      ((exec (after users started) (pause 3 "a" "w" 3)).store.runs.get "a").map Run.status =
        some .waitingInput := by decide +kernel
  obtain ⟨run, hr, hrunning⟩ := Option.map_eq_some_iff.mp hstatus.1
  obtain ⟨run', hr', hwaiting⟩ := Option.map_eq_some_iff.mp hstatus.2
  exact ⟨run, run', hr, hr', .inl ⟨.inr ⟨_, rfl, rfl, rfl, rfl⟩, by simp [hrunning], hwaiting⟩⟩

open PlainPlatform Sample in
/-- The execution has paused the run for an answer, and then ends it with its old token, as it
does when the process shuts down. -/
theorem paused_run_is_ended :
    GivesUp (after users started) (pause 3 "a" "w" 3) "a" "w" 3 ∧
    (finish 4 "a" (some 3) .failed).op.Carries "a" "w" 3 ∧
    ((after users (started ++ [pause 3 "a" "w" 3])).store.runs.get "a").map Run.status =
      some .waitingInput ∧
    ((exec (after users (started ++ [pause 3 "a" "w" 3]))
      (finish 4 "a" (some 3) .failed)).store.runs.get "a").map Run.status = some .failed :=
  ⟨started_gives_up, .finalize rfl rfl, by decide +kernel, by decide +kernel⟩

open PlainPlatform Sample in
theorem paused_run_takes_no_heartbeat :
    (exec (after users (started ++ [pause 3 "a" "w" 3]))
      ⟨env 4 "a", .heartbeat "a" "w" 3 none⟩).store =
        (after users (started ++ [pause 3 "a" "w" 3])).store := by
  refine (given_up_run_is_left_alone users started [] started_gives_up (.heartbeat none)).mpr ?_
  rintro ⟨request, run, ⟨⟩, -⟩

end SuperMew.Runs
