import SuperMew.Runs.Journal
import SuperMew.Runs.Refinement.Shared

/-! The calls of the worker that holds a run, and the mark of a cancellation, as moves. -/

namespace SuperMew.Runs

open Relational

variable {s s' : Store} {env : Env} {r : RunId} {run : Run} {record : RunRecord}
  {workerId username : String} {fencingToken : ℕ}

theorem claimable_false (h : claimable env run workerId = .ok false) :
    run.status = .pending ∨ run.status = .running := by
  unfold claimable at h
  split at h <;> simp_all

variable {thread : Thread}

theorem ownedRun_some (h : s.ownedRun username r = some (run, thread)) :
    s.runs.get r = some run ∧ s.threads.get run.threadRefId = some thread := by
  simp only [Store.ownedRun, Option.bind_eq_bind, Option.bind_eq_some_iff] at h
  obtain ⟨run', hr, thread', ht, user, -, h⟩ := h
  split at h
  · cases h
    exact ⟨hr, ht⟩
  · cases h

theorem hidden_putRun (hw : s.Wf) (hr : s.runs.get r = some run) {new : Run}
    (hlink : new.link = run.link) (hview : s.view r new = s.view r run) :
    (s.putRun r new).Wf ∧ (s.putRun r new).board = s.board := by
  have h := (Shows.start hw hr).putRun id hr hlink hview
  exact ⟨h.wf, h.board.trans (Shows.start hw hr).board.symm⟩

theorem ownedBy_ok (h : ownedBy s r workerId fencingToken = .ok (run, thread)) :
    s.runs.get r = some run ∧ run.fencingToken = fencingToken ∧ run.status = .running ∧
      run.ownerWorkerId = some workerId := by
  simp only [ownedBy, assertFencing, ok_rules] at h
  obtain ⟨run', hr, thread', -, _, htoken, _, hheld, rfl, rfl⟩ := h
  rw [not_or, not_not, not_not] at hheld
  exact ⟨hr, by simpa using htoken, hheld.1, hheld.2⟩

theorem recordToolAudit_hidden (hw : s.Wf) {request : AuditRequest}
    (h : recordToolAudit request s = .ok s') : s'.Wf ∧ s'.board = s.board := by
  simp only [recordToolAudit, ok_rules] at h
  obtain ⟨_, _, _, _, _, _, h⟩ := h
  split at h
  · simp only [ok_rules] at h
    obtain ⟨_, _, rfl⟩ := h
    exact ⟨hw, rfl⟩
  · rw [pure_eq_ok] at h
    subst h
    exact ⟨⟨hw.thread, hw.user, hw.question, hw.reply, hw.own, hw.messages, hw.threads,
      hw.checkpoints, hw.events⟩, rfl⟩

theorem append_moved (hw : s.Wf) {type : RunEventType} {data : Dict}
    (h : append env ⟨r, type, data, some workerId, some fencingToken⟩ s = .ok s') :
    Moved s s' r (.note workerId fencingToken type) := by
  simp only [append, ok_rules, orAttributeError_eq_ok] at h
  obtain ⟨run, hr, _, hheld, thread, -, rfl⟩ := h
  simp only [ne_eq, reduceCtorEq, not_false_eq_true, or_self, false_or, true_and, not_or, not_not,
    Option.some.injEq] at hheld
  obtain ⟨howner, htoken, hstatus⟩ := hheld
  have hstatus : run.status = .running ∨ run.status = .cancelling := by simpa using hstatus
  refine ((Shows.start hw hr).appendEvent type data env.utcnow).moved hr
    (.note howner htoken hstatus) ?_
  rcases hstatus with hstatus | hstatus <;> simp [Store.view, hstatus, RunStatus.terminal]

variable [ErrorCodec]

/-! ## Ownership -/

variable {leaseSeconds : Option ℕ}

section

variable (hw : s.Wf)

include hw

theorem claim_moved (h : claim env r workerId leaseSeconds s = .ok (record, s')) :
    Moved s s' r (.start workerId) := by
  simp only [claim, ok_rules, orAttributeError_eq_ok] at h
  obtain ⟨run, hr, thread, -, held, hclaim, h⟩ := h
  split at h
  · rw [pure_eq_ok, Prod.mk.injEq] at h
    exact h.2 ▸ .same hw
  · rename_i hfree
    rw [Bool.not_eq_true] at hfree
    subst hfree
    simp only [ok_rules, transition_eq_ok, writeRun_eq_ok] at h
    obtain ⟨run', ⟨-, rfl⟩, s₁, ⟨-, rfl⟩, -, rfl⟩ := h
    exact (((Shows.start hw hr).putRun (·.taken workerId _) hr (by rfl) (by rfl)).appendEvent
      .runStarted _ _).moved hr (.start (claimable_false hclaim) (by rfl)) (by rfl)

theorem heartbeat_moved
    (h : heartbeat env r workerId fencingToken leaseSeconds s = .ok (record, s')) :
    Moved s s' r (.renew workerId fencingToken) := by
  simp only [heartbeat, assertFencing, ok_rules, orAttributeError_eq_ok] at h
  obtain ⟨run, hr, _, htoken, _, howner, thread, -, -, rfl⟩ := h
  have htoken : run.fencingToken = fencingToken := by simpa using htoken
  rw [not_or, not_not, not_not] at howner
  have hstatus : run.status = .running ∨ run.status = .cancelling := by simpa using howner.2
  refine ((Shows.start hw hr).putRun (fun x => { x with lease := some _ }) hr (by rfl)
    (by rfl)).moved hr (.renew howner.1 htoken hstatus) ?_
  rcases hstatus with hstatus | hstatus <;> simp [Store.view, hstatus, RunStatus.terminal]

theorem setWaitingInput_moved
    (h : setWaitingInput env r workerId fencingToken s = .ok (record, s')) :
    Moved s s' r (.suspend workerId fencingToken) := by
  simp only [setWaitingInput, assertFencing, ok_rules, orAttributeError_eq_ok, transition_eq_ok,
    writeRun_eq_ok] at h
  obtain ⟨run, hr, _, htoken, _, howner, run', ⟨hcan, rfl⟩, thread, -, s₁, ⟨-, rfl⟩, -, rfl⟩ := h
  have htoken : run.fencingToken = fencingToken := by simpa using htoken
  rw [not_not] at howner
  exact ((((Shows.start hw hr).putRun (·.released .waitingInput) hr (by rfl)
    (by rfl)).setMessageStatus _ _).appendEvent _ _ _).moved hr (.suspend howner htoken hcan) (by rfl)

variable (h : markCancelling env username r s = .ok (record, s'))

include h

/-- What `mark_cancelling` shows: nothing, or a run that is being cancelled and says so. -/
theorem markCancelling_shows : s' = s ∨ ∃ run,
      s.runs.get r = some run ∧
      (run.status = .pending ∨ run.status = .running ∨ run.status = .waitingInput) ∧
      Shows s' r s.board ({ s.view r run with status := .cancelling }.record r .warningCreated
        [("code", .str "CANCEL_REQUESTED"), ("message", .str "用户已请求停止运行")] env.utcnow)
          run.link := by
  simp only [markCancelling, ok_rules] at h
  obtain ⟨⟨run, thread⟩, hrow, h⟩ := h
  obtain ⟨hr, -⟩ := ownedRun_some hrow
  split at h
  · rw [pure_eq_ok, Prod.mk.injEq] at h
    exact .inl h.2.symm
  · rename_i hopen
    simp only [ok_rules, transition_eq_ok, writeRun_eq_ok] at h
    obtain ⟨run', ⟨hcan, rfl⟩, s₁, ⟨-, rfl⟩, -, rfl⟩ := h
    have hsource : run.status = .pending ∨ run.status = .running ∨ run.status = .waitingInput := by
      cases hs : run.status <;>
        simp [hs, RunStatus.canTransition, RunStatus.allowedTransitions, RunStatus.terminal]
          at hcan hopen ⊢
    exact .inr ⟨run, hr, hsource, ((Shows.start hw hr).putRun
      (fun x => { x with status := .cancelling }) hr (by rfl) (by rfl)).appendEvent _ _ _⟩

theorem markCancelling_moved : Moved s s' r .mark := by
  rcases markCancelling_shows hw h with rfl | ⟨run, hr, hsource, hshows⟩
  · exact .same hw
  · exact hshows.moved hr (.mark hsource) (by rfl)

end

/-! ## Owner calls -/

theorem pinSkillActivation_hidden (hw : s.Wf) {requested : SkillActivation}
    (h : pinSkillActivation r workerId fencingToken requested s = .ok (record, s')) :
    s'.Wf ∧ s'.board = s.board := by
  simp only [pinSkillActivation, ok_rules] at h
  obtain ⟨⟨run, thread⟩, howned, h⟩ := h
  obtain ⟨hr, -⟩ := ownedBy_ok howned
  split at h
  · simp only [ok_rules] at h
    obtain ⟨_, _, -, rfl⟩ := h
    exact ⟨hw, rfl⟩
  · rw [pure_eq_ok, Prod.mk.injEq] at h
    exact h.2 ▸ hidden_putRun hw hr (by rfl) (by rfl)

end SuperMew.Runs
