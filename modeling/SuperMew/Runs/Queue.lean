import SuperMew.Runs.Refinement.Calls

/-! The queue of a thread. At most one run of a thread is active and the others wait behind
it; which calls make the database refuse a second active run. -/

namespace SuperMew.Runs

open Relational Store RunStatus Runs.System

/-! ## Waiting runs -/

section Waiting

variable [ErrorCodec] [Platform]

/-- A queued run waits behind an active one of its thread. -/
theorem queued_waits_behind_active (users : Table Id User) (calls : List Call) {r : RunId} {run : Run}
    (hr : (after users calls).store.runs.get r = some run) (hq : run.status = .queued) :
    ∃ r' run', (after users calls).store.runs.get r' = some run' ∧
      run'.threadRefId = run.threadRefId ∧ run'.status.active = true :=
  board_active.mp ((after_lanes users calls).queued run.threadRefId r _
    (board_queued.mpr ⟨run, hr, rfl, rfl, hq⟩))

end Waiting

namespace Sample

def threeRuns : List Call :=
  [ask 1 "a", ask 2 "b", ask 3 "c", take 4 "a" "w", cancel 5 "a", finish 6 "a" (some 3) .succeeded]

end Sample

open PlainPlatform Sample in
theorem third_waits_behind_second :
    ∃ r' run', (after users threeRuns).store.runs.get r' = some run' ∧
      run'.threadRefId = 1 ∧ run'.status.active = true := by
  have hr : ((after users threeRuns).store.runs.get "c").map
      (fun run => (run.status, run.threadRefId)) = some (.queued, 1) := by decide +kernel
  obtain ⟨run, hget, hrun⟩ := Option.map_eq_some_iff.mp hr
  obtain ⟨hq, ht⟩ := Prod.mk.inj hrun
  exact ht ▸ queued_waits_behind_active users threeRuns hget hq

/-! ## The index of active runs -/

variable {worker username : String} {thread : Thread} {token : ℕ} {leaseSeconds : Option ℕ}

section Index

variable {s : Store} {env : Env} {r : RunId} {run : Run} {t : Id} {fault : Fault}
  {violated : String}

abbrev Refused {α : Type} (x : Except Fault α) : Prop :=
  x = .error (.integrity "uq_runs_one_active_per_thread")

/-- The checks of the code do not violate a constraint of the database. -/
theorem refusal_rules :
    (∀ {α β : Type} {x : Except Fault α} {f : α → Except Fault β} {fault : Fault},
      (x >>= f) = .error fault ↔ x = .error fault ∨ ∃ a, x = .ok a ∧ f a = .error fault) ∧
    (∀ {α : Type} {row : Option α} {error : AppError} {violated : String},
      orRaise row error ≠ .error (.integrity violated)) ∧
    (∀ {α : Type} {row : Option α} {violated : String},
      orAttributeError row ≠ .error (.integrity violated)) ∧
    (∀ {p : Prop} [Decidable p] {error : AppError} {violated : String},
      raiseIf p error ≠ .error (.integrity violated)) ∧
    (∀ {env : Env} {run : Run} {target : RunStatus} {violated : String},
      transition env run target ≠ .error (.integrity violated)) ∧
    (∀ {α : Type} {a : α} {fault : Fault}, (pure a : Except Fault α) ≠ .error fault) ∧
    (∀ {p : Prop}, ((False ∨ p) ↔ p) ∧ ((p ∨ False) ↔ p) ∧ ((p ∧ False) ↔ False)) ∧
    ∀ {α : Type}, (∃ _ : α, False) ↔ False := by
  simp [transition]

theorem refused_map {α β : Type} {x : Except Fault α} {f : α → β} : Refused (x.map f) ↔ Refused x :=
  map_eq_error

theorem writeRun_eq_error : s.writeRun r run = .error fault ↔
    (run.status.active = true ∧ s.otherActive run.threadRefId r = true) ∧
      fault = .integrity "uq_runs_one_active_per_thread" := by
  simp [writeRun]

/-- A run that is active is the only one of its thread. -/
theorem otherActive_of_active (hl : s.board.Lanes) (hr : s.runs.get r = some run)
    (hactive : run.status.active = true) : ¬ s.otherActive run.threadRefId r = true := by
  intro hother
  obtain ⟨r', run', hne, hr', ht, hactive'⟩ := otherActive_iff.mp hother
  exact hne (hl.one r' r _ _ (board_of_run hr') (board_of_run hr) ht hactive' hactive)

theorem claimable_ne_integrity : claimable env run worker ≠ .error (.integrity violated) := by
  intro h
  cases hs : run.status with
  | running =>
    simp only [claimable, hs] at h
    split at h <;> simp at h
  | _ => simp [claimable, hs] at h

theorem recordPause_not_refused (hl : s.board.Lanes) {request : PauseRequest} :
    ¬ Refused (recordPause env request s) := by
  intro h
  simp only [recordPause, refusal_rules, ok_rules] at h
  obtain ⟨run, hr, h⟩ := h
  split at h
  · simp at h
  · simp only [pausable, addCheckpoint, refusal_rules, ok_rules, orAttributeError_eq_ok,
      violatedIf_eq_error, writeRun_eq_error, Fault.integrity.injEq, String.reduceEq, not_not] at h
    obtain ⟨_, ⟨_, -, hstatus⟩, _, -, _, ⟨_, -, rfl⟩, ⟨-, hother⟩, -⟩ := h
    exact otherActive_of_active hl hr (by rw [hstatus]; rfl) hother

section Resume

variable {request : ResumeRequest} {answer : String} {c : Id} {checkpoint : RunCheckpoint}
  (hl : s.board.Lanes)

include hl

section

variable (hr : s.runs.get request.runId = some run)

include hr

theorem resumeAgain_not_refused :
    ¬ Refused (resumeAgain env request answer c checkpoint run thread s) := by
  intro h
  simp only [resumeAgain, refusal_rules] at h
  obtain ⟨_, -, h⟩ := h
  split at h
  · rename_i hstatus
    simp only [refusal_rules, writeRun_eq_error] at h
    exact otherActive_of_active hl hr (by rw [hstatus]; rfl) h.1.2
  · simp at h
  · simp at h

theorem acceptAnswer_not_refused :
    ¬ Refused (acceptAnswer env request answer c checkpoint run thread s) := by
  intro h
  simp only [acceptAnswer, refusal_rules, ok_rules, writeRun_eq_error, not_not] at h
  obtain ⟨_, hstatus, ⟨-, hother⟩, -⟩ := h
  refine otherActive_of_active hl hr (by rw [hstatus]; rfl) ?_
  cases hworker : request.worker <;> rwa [hworker] at hother

end

theorem consumeTransaction_not_refused : ¬ Refused (consumeTransaction env request answer s) := by
  intro h
  simp only [consumeTransaction, refusal_rules, ok_rules] at h
  obtain ⟨⟨c, checkpoint, run, thread, user⟩, hrow, hpre | ⟨_, -, _, -, h⟩⟩ := h
  · dsimp only at hpre
    cases hp : request.preflight ⟨run.userId, user.username, user.role, run.skill⟩ <;>
      simp [hp, Except.mapError] at hpre
  · obtain ⟨-, -, -, hr⟩ := resumeRow_some hrow
    split at h
    · exact resumeAgain_not_refused hl hr h
    · exact acceptAnswer_not_refused hl hr h

end Resume

/-- A promotion is refused when there is a run to promote and another one is active. -/
theorem promoteNextQueued_eq_error {now : Time} : promoteNextQueued now t s = .error fault ↔
    ((∃ r x, s.board.Queued t r x) ∧ s.board.Active t) ∧
      fault = .integrity "uq_runs_one_active_per_thread" := by
  unfold promoteNextQueued
  split
  · rename_i hnone
    have hidle : ¬ ∃ r x, s.board.Queued t r x := by
      rintro ⟨r, x, hx⟩
      obtain ⟨run, hr, -, ht, hq⟩ := board_queued.mp hx
      exact nextQueued_eq_none.mp hnone r run hr ht hq
    simp [hidle]
  · rename_i r queued hnext
    obtain ⟨hr, rfl, hq⟩ := nextQueued_some hnext
    have hexists : ∃ r x, s.board.Queued queued.threadRefId r x :=
      ⟨r, _, board_queued.mpr ⟨queued, hr, rfl, rfl, hq⟩⟩
    simp only [refusal_rules, writeRun_eq_error, otherActive_of_queued hr hq, hexists, true_and]
    exact and_congr_left' (and_iff_right rfl)

theorem promoteNextQueued_idle {now : Time} (h : ¬ ∃ r x, s.board.Queued t r x) :
    promoteNextQueued now t s = .ok s := by
  have hnone : s.nextQueued t = none := nextQueued_eq_none.mpr fun r run hr ht hq =>
    h ⟨r, _, board_queued.mpr ⟨run, hr, rfl, ht, hq⟩⟩
  rw [promoteNextQueued, hnone]

/-- A request that cancels a queued run while another run of the thread is queued, too. -/
def FinalizeRequest.CancelsAmongQueued (request : FinalizeRequest) (s : Store) : Prop :=
  request.targetStatus = .cancelled ∧ request.leaseExpiredBefore = none ∧
    ∃ run, s.runs.get request.runId = some run ∧ run.status = .queued ∧
      (∀ f ∈ request.fencingToken, run.fencingToken = f) ∧
      ∃ r' run', r' ≠ request.runId ∧ s.runs.get r' = some run' ∧
        run'.threadRefId = run.threadRefId ∧ run'.status = .queued

/-- Beside another active run, a run that has not ended is queued. -/
theorem queued_of_otherActive (hl : s.board.Lanes) (hr : s.runs.get r = some run)
    (hopen : run.status.terminal = false) (hother : s.otherActive run.threadRefId r = true) :
    run.status = .queued := by
  by_contra hq
  have hactive : run.status.active = true := by
    cases hs : run.status <;> simp [hs, terminal, active] at hopen hq ⊢
  simp [otherActive_of_active hl hr hactive] at hother

/-- A queued run can only be cancelled, and it has no lease that could expire. -/
theorem cancelled_of_queued {request : FinalizeRequest} (hends : request.Ends run)
    (hstatus : run.status = .queued) :
    request.targetStatus = .cancelled ∧ request.leaseExpiredBefore = none := by
  obtain ⟨-, htarget, hcan, hlease⟩ := hends
  constructor
  · cases ht : request.targetStatus <;> simp [ht, hstatus, endStatus, canTransition,
      allowedTransitions, terminal] at htarget hcan ⊢
  · cases hbefore : request.leaseExpiredBefore with
    | none => rfl
    | some before => exact absurd ⟨before, hbefore, .inl (by simp [hstatus])⟩ hlease

theorem normalize_ne_integrity [Platform] {request : ReserveRequest} :
    request.normalize env ≠ .error (.integrity violated) := by
  intro h
  have hthread : validateThreadId request.threadId ≠ .error (.integrity violated) := by
    unfold validateThreadId
    dsimp only
    split <;> simp
  simp [ReserveRequest.normalize, validateIdempotencyKey, securityIdentifier, checkApprovedTools, hthread] at h

theorem ownedBy_ne_integrity : ownedBy s r worker token ≠ .error (.integrity violated) := by
  simp [ownedBy, assertFencing]

theorem recordToolAudit_not_refused {request : AuditRequest} :
    recordToolAudit request s ≠ .error (.integrity violated) := by
  have hdigest : ∀ digest, checkDigest digest ≠ .error (.integrity violated) := by
    intro digest
    unfold checkDigest
    split <;> simp
  intro h
  simp only [recordToolAudit, refusal_rules, ownedBy_ne_integrity, hdigest] at h
  obtain ⟨_, -, ⟨run, thread⟩, -, h | ⟨_, -, h⟩⟩ := h
  · split at h
    · exact hdigest _ h
    · cases h
  · split at h
    · simp at h
    · simp at h

theorem append_not_refused {request : AppendRequest} :
    append env request s ≠ .error (.integrity violated) := by
  simp [append]

variable [ErrorCodec]

theorem claim_not_refused (hl : s.board.Lanes) : ¬ Refused (claim env r worker leaseSeconds s) := by
  intro h
  simp only [claim, refusal_rules, ok_rules, orAttributeError_eq_ok, claimable_ne_integrity] at h
  obtain ⟨run, hr, thread, -, held, hclaim, h⟩ := h
  split at h
  · simp at h
  · rename_i hfree
    rw [Bool.not_eq_true] at hfree
    subst hfree
    simp only [refusal_rules, transition_eq_ok, writeRun_eq_error] at h
    obtain ⟨_, ⟨-, rfl⟩, ⟨-, hother⟩, -⟩ := h
    refine otherActive_of_active hl hr ?_ hother
    rcases claimable_false hclaim with hs | hs <;> simp [hs, active]

theorem heartbeat_not_refused :
    heartbeat env r worker token leaseSeconds s ≠ .error (.integrity violated) := by
  simp [heartbeat, assertFencing]

theorem setWaitingInput_not_refused (hl : s.board.Lanes) :
    ¬ Refused (setWaitingInput env r worker token s) := by
  intro h
  simp only [setWaitingInput, assertFencing, refusal_rules, ok_rules, transition_eq_ok,
    orAttributeError_eq_ok, writeRun_eq_error] at h
  obtain ⟨run, hr, _, -, _, -, _, ⟨hcan, rfl⟩, _, -, ⟨-, hother⟩, -⟩ := h
  refine otherActive_of_active hl hr ?_ hother
  cases hs : run.status <;>
    simp [hs, canTransition, allowedTransitions, active] at hcan ⊢

theorem markCancelling_not_refused (hl : s.board.Lanes) :
    ¬ Refused (markCancelling env username r s) := by
  intro h
  simp only [markCancelling, refusal_rules, ok_rules] at h
  obtain ⟨⟨run, thread⟩, hrow, h⟩ := h
  split at h
  · simp at h
  · rename_i hopen
    simp only [refusal_rules, transition_eq_ok, writeRun_eq_error] at h
    obtain ⟨_, ⟨hcan, rfl⟩, ⟨-, hother⟩, -⟩ := h
    refine otherActive_of_active hl (ownedRun_some hrow).1 ?_ hother
    cases hs : run.status <;> simp [hs, canTransition, allowedTransitions,
      terminal, active] at hcan hopen ⊢

section Reserve

variable {request : ReserveRequest} {input : ReserveInput}

theorem insertRun_not_refused {user : Id} {active : Option RunId}
    (hactive : active = none → ¬ s.board.Active t) :
    ¬ Refused (insertRun env request input user t thread active s) := by
  intro h
  simp only [insertRun, refusal_rules, violatedIf_eq_error, writeRun_eq_error,
    Fault.integrity.injEq, String.reduceEq] at h
  obtain ⟨_, -, ⟨hpending, hother⟩, -⟩ := h
  cases active with
  | some a => simp [addMessages, newRun, active] at hpending
  | none =>
    obtain ⟨r', run', -, hr', ht, hactive'⟩ := otherActive_iff.mp hother
    exact hactive rfl (board_active.mpr ⟨r', run', hr', ht, hactive'⟩)

theorem reserveTransaction_not_refused : ¬ Refused (reserveTransaction env request input s) := by
  intro h
  simp only [reserveTransaction, refusal_rules, ok_rules] at h
  obtain ⟨⟨user, row⟩, huser, hthread | ⟨⟨t, thread, s₁⟩, hthread, h⟩⟩ := h
  · unfold getOrCreateThread at hthread
    split at hthread
    · cases hthread
    · simp at hthread
  · dsimp only at h
    split at h
    · simp at h
    · simp only [refusal_rules] at h
      obtain ⟨_, -, _, -, h⟩ := h
      refine insertRun_not_refused (fun hnone => ?_) h
      rw [Option.map_eq_none_iff] at hnone
      exact activeRun_eq_none.mp hnone

end Reserve

/-- The board on which a run has ended, as the promotion sees it. -/
theorem finishRun_queued (hw : s.Wf) {request : FinalizeRequest}
    (hr : s.runs.get request.runId = some run) (ht : s.threads.get run.threadRefId = some thread)
    {e : Ending} (hended : e.target.terminal = true) (now clock : Time) :
    ((∃ r x, (s.finishRun request run thread e now clock).board.Queued run.threadRefId r x) ↔
      ∃ r' run', r' ≠ request.runId ∧ s.runs.get r' = some run' ∧
        run'.threadRefId = run.threadRefId ∧ run'.status = .queued) ∧
    ((s.finishRun request run thread e now clock).board.Active run.threadRefId ↔
      s.otherActive run.threadRefId request.runId = true) := by
  have hclosed : ((s.view request.runId run).closed request.runId e.target
      ⟨e.content, e.messageStatus⟩ (request.closing (run.ended request e now clock) e
        clock)).status.terminal = true := by
    rw [RunState.closed_status]
    exact hended
  rw [(shows_finishRun hw hr ht e now clock).board, Board.active_ended hclosed, otherActive_iff]
  simp only [Board.queued_ended hclosed, board_queued]
  constructor
  · constructor
    · rintro ⟨r', _, hne, run', hr', -, ht', hq'⟩
      exact ⟨r', run', hne, hr', ht', hq'⟩
    · rintro ⟨r', run', hne, hr', ht', hq'⟩
      exact ⟨r', _, hne, run', hr', rfl, ht', hq'⟩
  · constructor
    · rintro ⟨r', x', hne, hr', ht', hactive⟩
      obtain ⟨run', hget, rfl⟩ := run_of_board hr'
      exact ⟨r', run', hne, hget, ht', hactive⟩
    · rintro ⟨r', run', hne, hget, ht', hactive⟩
      exact ⟨r', _, hne, board_of_run hget, ht', hactive⟩

theorem finalize_refused_iff (hw : s.Wf) (hl : s.board.Lanes) {request : FinalizeRequest} :
    Refused (finalize env request s) ↔ request.CancelsAmongQueued s := by
  constructor
  · intro h
    rcases finalize_cases hw env request with
      ⟨run, thread, hr, ht, hfence, hends⟩ | ⟨_, hsame⟩ | ⟨_, hfault, hother, -⟩
    · rw [finalize_eq hr ht hfence hends, refused_map, Refused, promoteNextQueued_eq_error] at h
      have hended : (request.ending run.status).target.terminal = true := by
        rw [ending_target]
        exact endStatus_terminal hends.2.1
      obtain ⟨hqueued, hactive⟩ := finishRun_queued hw hr ht hended env.now env.utcnow
      have hstatus := queued_of_otherActive hl hr hends.1 (hactive.mp h.1.2)
      obtain ⟨hcancelled, hnone⟩ := cancelled_of_queued hends hstatus
      exact ⟨hcancelled, hnone, run, hr, hstatus, hfence, hqueued.mp h.1.1⟩
    · cases h.symm.trans hsame
    · exact absurd (Except.error.inj (hfault.symm.trans h)) (hother _)
  · rintro ⟨htarget, hlease, run, hr, hq, htoken, hother⟩
    obtain ⟨thread, ht, -⟩ := hw.thread _ run hr
    have hended : endStatus run.status request.targetStatus = .cancelled := by
      simp [endStatus, hq, htarget]
    rw [finalize_eq hr ht htoken ⟨by rw [hq]; rfl, by rw [htarget]; rfl, by rw [hended, hq]; rfl,
      by simp [hlease]⟩, refused_map, Refused, promoteNextQueued_eq_error]
    have hqueued := finishRun_queued hw hr ht (e := request.ending run.status)
      (by rw [ending_target, hended]; rfl) env.now env.utcnow
    have hactive := hl.queued run.threadRefId _ _ (board_queued.mpr ⟨run, hr, rfl, rfl, hq⟩)
    exact ⟨⟨hqueued.1.mpr hother, hqueued.2.mpr ((otherActive_of_queued hr hq).mpr hactive)⟩, rfl⟩

theorem pinSkillActivation_not_refused {requested : SkillActivation} :
    pinSkillActivation r worker token requested s ≠ .error (.integrity violated) := by
  intro h
  simp only [pinSkillActivation, refusal_rules, ownedBy_ne_integrity] at h
  obtain ⟨⟨run, thread⟩, -, h⟩ := h
  split at h
  · simp at h
  · simp at h

theorem readCancel_ne_integrity : readCancel username r s ≠ .error (.integrity violated) := by
  simp [readCancel, getRun, map_eq_error]

/-- The requests to end a run that a call issues. -/
inductive Call.Issues (s : System) : Op → FinalizeRequest → Prop where
  | finalize (request) : Issues s (.finalize request) request
  | requestCancel {username r p} : readCancel username r s.store = .ok p →
      cancelPlan p.current.status = .finalize → Issues s (.requestCancel username r) (cancelRequest r)
  | writeCancel {position p} : s.cancels[position]? = some p →
      cancelPlan p.current.status = .finalize →
      Issues s (.writeCancel position) (cancelRequest p.runId)

theorem writeCancel_refused_iff (hw : s.Wf) (hl : s.board.Lanes) {p : PendingCancel} :
    Refused (writeCancel env p s) ↔
      cancelPlan p.current.status = .finalize ∧ (cancelRequest p.runId).CancelsAmongQueued s := by
  unfold writeCancel
  split
  · rename_i hplan
    simp [hplan]
  · rename_i hplan
    simp only [hplan, true_and]
    exact finalize_refused_iff hw hl
  · rename_i hplan
    simp [hplan, markCancelling_not_refused hl]

/-- The database refuses a call exactly if it cancels a queued run among others. -/
theorem refused_iff [Platform] {s : System} (hw : s.store.Wf) (hl : s.store.board.Lanes) (call : Call) :
    Refused (call.transaction s) ↔
      ∃ request, Call.Issues s call.op request ∧ request.CancelsAmongQueued s.store := by
  obtain ⟨env, op⟩ := call
  cases op with
  | finalize q =>
    rw [Call.transaction, refused_map, finalize_refused_iff hw hl]
    refine ⟨fun h => ⟨q, .finalize q, h⟩, ?_⟩
    rintro ⟨_, hissues, h⟩
    cases hissues
    exact h
  | requestCancel username r =>
    simp only [Call.transaction, refused_map, requestCancel, bind_eq_error,
      readCancel_ne_integrity, false_or, writeCancel_refused_iff hw hl]
    constructor
    · rintro ⟨p, hread, hplan, h⟩
      obtain rfl := readCancel_run hread
      exact ⟨_, .requestCancel hread hplan, h⟩
    · rintro ⟨_, hissues, h⟩
      cases hissues with
      | @requestCancel _ _ p hread hplan =>
        obtain rfl := readCancel_run hread
        exact ⟨p, hread, hplan, h⟩
  | writeCancel position =>
    simp only [Call.transaction]
    constructor
    · intro h
      split at h
      · rename_i p hp
        rw [refused_map, writeCancel_refused_iff hw hl] at h
        exact ⟨_, .writeCancel hp h.1, h.2⟩
      · cases h
    · rintro ⟨_, hissues, h⟩
      cases hissues with
      | writeCancel hp hplan =>
        rw [hp]
        dsimp only
        rw [refused_map, writeCancel_refused_iff hw hl]
        exact ⟨hplan, h⟩
  | reserve | claim | heartbeat | setWaitingInput | markCancelling | recordPause | consumeResume
  | pinSkillActivation | recordToolAudit | append | readCancel =>
    -- no other call ends a run
    refine iff_of_false ?_ (by rintro ⟨_, ⟨⟩, -⟩)
    simp [Call.transaction, refused_map, normalize_ne_integrity, reserveTransaction_not_refused,
      claim_not_refused hl, heartbeat_not_refused, setWaitingInput_not_refused hl,
      markCancelling_not_refused hl, recordPause_not_refused hl, consumeTransaction_not_refused hl,
      pinSkillActivation_not_refused, recordToolAudit_not_refused, append_not_refused,
      readCancel_ne_integrity]

end Index

/-! ## Cancelling a queued run -/

section Cancel

theorem Store.board_status (s : Store) (r : RunId) :
    (s.board r).map RunState.status = (s.runs.get r).map Run.status := by
  simp [board, Option.map_map, Function.comp_def, view]

variable [ErrorCodec] {s : Store} {env : Env} {r : RunId} {run : Run}

theorem requestCancel_queued (howned : s.ownedRun username r = some (run, thread))
    (hq : run.status = .queued) :
    requestCancel env username r s = finalize env (cancelRequest r) s := by
  have hread : readCancel username r s = .ok ⟨username, r, run.record r thread.threadId⟩ := by
    simp [readCancel, getRun, howned, orRaise, Except.map, bind, Except.bind, pure, Except.pure]
  rw [requestCancel, hread, ok_bind, writeCancel,
    show cancelPlan (run.record r thread.threadId).status = .finalize by
      simp [Run.record, hq, cancelPlan]]

def Store.AloneInQueue (s : Store) (r : RunId) (run : Run) : Prop :=
  ∀ r' run', r' ≠ r → s.runs.get r' = some run' → run'.threadRefId = run.threadRefId →
    run'.status ≠ .queued

/-- The request to cancel a queued run is answered, cancels it and touches no other run. -/
def CancelsOnly (env : Env) (username : String) (r : RunId) (s : Store) : Prop :=
  ∃ record store, requestCancel env username r s = .ok (record, store) ∧
    (store.runs.get r).map Run.status = some .cancelled ∧
    ∀ r', r' ≠ r → (store.runs.get r').map Run.status = (s.runs.get r').map Run.status

theorem cancelsOnly_iff (hw : s.Wf) (hl : s.board.Lanes)
    (howned : s.ownedRun username r = some (run, thread)) (hq : run.status = .queued) :
    CancelsOnly env username r s ↔ s.AloneInQueue r run := by
  obtain ⟨hr, ht⟩ := ownedRun_some howned
  constructor
  · rintro ⟨record, store, hcancel, -, -⟩ r' run' hne hr' ht' hq'
    rw [requestCancel_queued howned hq] at hcancel
    have hamong : (cancelRequest r).CancelsAmongQueued s :=
      ⟨rfl, rfl, run, hr, hq, by simp [cancelRequest], r', run', hne, hr', ht', hq'⟩
    rw [(finalize_refused_iff hw hl).mpr hamong] at hcancel
    cases hcancel
  · intro halone
    have hr' : s.runs.get (cancelRequest r).runId = some run := hr
    have hended : endStatus run.status (cancelRequest r).targetStatus = .cancelled := by
      simp [endStatus, hq, cancelRequest]
    have htarget : ((cancelRequest r).ending run.status).target = .cancelled := by
      rw [ending_target, hended]
    obtain ⟨hqueued, -⟩ := finishRun_queued hw hr' ht (by rw [htarget]; rfl) env.now env.utcnow
    have hidle : promoteNextQueued env.now run.threadRefId _ = .ok _ :=
      promoteNextQueued_idle (mt hqueued.mp fun ⟨r', run', hne, h'⟩ =>
        halone r' run' hne h'.1 h'.2.1 h'.2.2)
    have hshows := shows_finishRun hw hr' ht ((cancelRequest r).ending run.status) env.now env.utcnow
    have hfinal : finalize env (cancelRequest r) s = _ := finalize_eq hr' ht
      (by simp [cancelRequest]) ⟨by rw [hq]; rfl, rfl, by rw [hended, hq]; rfl, by simp [cancelRequest]⟩
    rw [hidle] at hfinal
    refine ⟨_, _, (requestCancel_queued howned hq).trans hfinal, ?_, fun r' hne => ?_⟩
    · rw [← board_status, hshows.board]
      exact (congrArg _ (Function.update_self ..)).trans (by simp [htarget])
    · rw [← board_status, ← board_status, hshows.board, Function.update_of_ne (by exact hne)]

end Cancel

/-- Along every run of the system at most one run of a thread is active. The database has to
refuse a second one exactly where a queued run is cancelled among others, and then the request
to cancel fails; it succeeds and touches no other run exactly where no other one is queued. -/
theorem one_active_run_per_thread [ErrorCodec] [Platform] (users : Table Id User) (calls : List Call)
    (call : Call) :
    (∀ r r' run run', (after users calls).store.runs.get r = some run →
      (after users calls).store.runs.get r' = some run' →
      run.threadRefId = run'.threadRefId → run.status.active = true → run'.status.active = true →
      r = r') ∧
    (call.transaction (after users calls) ≠
        .error (.integrity "uq_runs_one_active_per_thread") ↔
      ∀ request, Call.Issues (after users calls) call.op request →
        ¬ request.CancelsAmongQueued (after users calls).store) ∧
    (∀ username r run thread,
      (after users calls).store.ownedRun username r = some (run, thread) →
      run.status = .queued →
      (CancelsOnly call.env username r (after users calls).store ↔
        (after users calls).store.AloneInQueue r run)) := by
  have hw := after_wf users calls
  have hl := after_lanes users calls
  refine ⟨fun r r' run run' hr hr' ht hactive hactive' => ?_, ?_, fun username r run thread => ?_⟩
  · exact hl.one r r' _ _ (board_of_run hr) (board_of_run hr') ht hactive hactive'
  · refine (refused_iff hw hl call).not.trans ?_
    simp [not_exists, not_and]
  · exact cancelsOnly_iff hw hl

namespace Sample

/-- One run is active and two wait behind it. -/
def twoQueued : List Call := [ask 1 "a", ask 2 "b", ask 3 "c"]

end Sample

open PlainPlatform Sample in
/-- The user cancels the first of two queued runs: the promotion of the other one is refused,
and the run stays queued. -/
theorem cancel_of_queued_refused :
    ((cancel 4 "b").transaction (after users twoQueued)).map (fun _ => ()) =
      .error (.integrity "uq_runs_one_active_per_thread") ∧
    ((after users (twoQueued ++ [cancel 4 "b"])).store.runs.get "b").map Run.status =
      some .queued := by
  decide +kernel

end SuperMew.Runs
