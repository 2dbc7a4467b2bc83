import SuperMew.Runs.Refinement.Shared

/-! Pauses for an answer and the answers as moves. -/

namespace SuperMew.Runs

open Relational

variable {s s' : Store} {env : Env} {r : RunId} {run : Run}
  {pause : CheckpointPause} {request : PauseRequest}

/-- What `record_pause` shows: nothing, or a run that comes to wait under a new checkpoint and
says so in its last event. -/
theorem recordPause_shows (hw : s.Wf)
    (h : recordPause env request s = .ok (pause, s')) : s' = s ∨ ∃ run waiting,
      s.runs.get request.runId = some run ∧
      (run.ownerWorkerId = some request.workerId ∧ run.fencingToken = request.fencingToken) ∧
      run.status = .running ∧ (∀ k state, (s.view request.runId run).checkpoints k = some state →
        k < s.nextCheckpoint ∧ state.name ≠ request.checkpointId) ∧
      Shows s' request.runId s.board
        ((((((s.view request.runId run).setCheckpoint s.nextCheckpoint ⟨request.checkpointId,
          env.hitlToken, false, none, none⟩).released .waitingInput).replying .waitingInput).record
            request.runId .runWaitingInput waiting env.utcnow).record request.runId .hitlRequired
              ([("hitl_token", .str env.hitlToken), ("checkpoint_id", .str request.checkpointId)] ++
                request.interruptValue.data) env.utcnow) run.link := by
  simp only [recordPause, ok_rules] at h
  obtain ⟨run, hr, h⟩ := h
  split at h
  · simp only [ok_rules] at h
    obtain ⟨_, _, _, _, _, _, -, rfl⟩ := h
    exact .inl rfl
  · rename_i hnew
    simp only [pausable, Store.addCheckpoint, ok_rules, orAttributeError_eq_ok, writeRun_eq_ok] at h
    obtain ⟨_, ⟨_, hheld, hstatus⟩, thread, -, s₁, ⟨_, -, rfl⟩, s₂, ⟨-, rfl⟩, -, rfl⟩ := h
    rw [not_or, not_not, not_not] at hheld
    rw [not_not] at hstatus
    have hadded := (Shows.start hw hr).addCheckpoint (by rfl : RunCheckpoint.runId ⟨request.runId,
      run.threadRefId, run.userId, request.checkpointId, env.hitlToken, request.interruptId, none,
      none, request.state, request.nextNodes, none, env.utcnow, env.utcnow⟩ = request.runId)
    have hold : ∀ k state, (s.view request.runId run).checkpoints k = some state →
        k < s.nextCheckpoint ∧ state.name ≠ request.checkpointId := by
      intro k state hk
      obtain ⟨row, hget, hrun, rfl⟩ := checkpointsOf_eq_some.mp hk
      refine ⟨(hw.checkpoints k row hget).1, ?_⟩
      intro hname
      have hfresh := Table.find_eq_none.mp hnew k row hget
      rw [show row.checkpointId = request.checkpointId from hname] at hfresh
      simp [hrun] at hfresh
    exact .inr ⟨run, _, hr, hheld, hstatus, hold,
      (((hadded.putRun (·.released .waitingInput) hr (by rfl) (by rfl)).setMessageStatus
        _ _).appendEvent _ _ _).appendEvent _ _ _⟩

theorem recordPause_moved (hw : s.Wf) (h : recordPause env request s = .ok (pause, s')) :
    Moved s s' request.runId (.pause request.workerId request.fencingToken) := by
  rcases recordPause_shows hw h with rfl | ⟨run, waiting, hr, hheld, hstatus, hold, hshows⟩
  · exact .same hw
  · exact hshows.moved hr (.pause hheld.1 hheld.2 hstatus hold) (by rfl)

/-! ## Answers -/

variable {checkpoint : RunCheckpoint} {thread : Thread}

theorem resumeRow_some {request : ResumeRequest} {c : Id} {user : User}
    (h : s.resumeRow request = some (c, checkpoint, run, thread, user)) :
    s.checkpoints.get c = some checkpoint ∧ checkpoint.runId = request.runId ∧
      checkpoint.hitlToken = request.hitlToken ∧ s.runs.get request.runId = some run := by
  simp only [Store.resumeRow, Option.bind_eq_bind, Option.bind_eq_some_iff] at h
  obtain ⟨⟨c', checkpoint'⟩, hfind, run', hr, thread', -, user', -, h⟩ := h
  split at h
  · simp only [Option.some.injEq, Prod.mk.injEq] at h
    obtain ⟨rfl, rfl, rfl, -, -⟩ := h
    obtain ⟨hget, hp⟩ := Table.find_eq_some hfind
    rw [Bool.and_eq_true, beq_iff_eq, beq_iff_eq] at hp
    exact ⟨hget, hp.1, hp.2, hr⟩
  · cases h

theorem latest_of_latestCheckpoint {c : Id} (h : s.latestCheckpoint r = some c) (run : Run) :
    (s.view r run).Latest c := by
  intro k state hk
  obtain ⟨row, hget, hrun, -⟩ := checkpointsOf_eq_some.mp hk
  have hmem : k ∈ (s.checkpoints.select fun _ c => c.runId == r).map Prod.fst :=
    List.mem_map.mpr ⟨(k, row), Table.mem_select.mpr ⟨hget, by simp [hrun]⟩, rfl⟩
  exact (List.max?_eq_some_iff.mp h).2 k hmem

section Answers

variable {request : ResumeRequest} {answer : String} {c : Id} {result : ConsumedResume}

/-- A repeated answer takes up a pending run or changes nothing. -/
theorem resumeAgain_ok (hw : s.Wf) (hr : s.runs.get request.runId = some run)
    (hc : s.checkpoints.get c = some checkpoint) (hrun : checkpoint.runId = request.runId)
    (hconsumed : checkpoint.consumedAt ≠ none)
    (h : resumeAgain env request answer c checkpoint run thread s = .ok (result, s')) :
    s' = s ∨ ∃ worker, request.worker = some worker ∧
      Moved s s' request.runId (.resume c worker) := by
  simp only [resumeAgain, ok_rules] at h
  obtain ⟨_, _, h⟩ := h
  split at h
  · rename_i worker hworker hlatest hstatus
    simp only [ok_rules, writeRun_eq_ok] at h
    obtain ⟨s₁, ⟨-, rfl⟩, -, rfl⟩ := h
    refine .inr ⟨worker, hworker, ?_⟩
    have hentry : (s.view request.runId run).checkpoints c = some checkpoint.entry :=
      checkpointsOf_eq_some.mpr ⟨checkpoint, hc, hrun, rfl⟩
    have hlatest := latest_of_latestCheckpoint (beq_iff_eq.mp hlatest) run
    exact (((Shows.start hw hr).putRun (·.taken worker _) hr (by rfl) (by rfl)).appendEvent
      _ _ _).moved hr (.resume hstatus hentry (Option.isSome_iff_ne_none.mpr hconsumed) hlatest
        (by rfl)) (by rfl)
  · simp only [ok_rules] at h
    obtain ⟨_, _, -, rfl⟩ := h
    exact .inl rfl
  · rw [pure_eq_ok, Prod.mk.injEq] at h
    exact .inl h.2.symm

theorem acceptAnswer_moved (hw : s.Wf) (hr : s.runs.get request.runId = some run)
    (hc : s.checkpoints.get c = some checkpoint) (hrun : checkpoint.runId = request.runId)
    (hopen : checkpoint.consumedAt = none)
    (h : acceptAnswer env request answer c checkpoint run thread s = .ok (result, s')) :
    Moved s s' request.runId (.accept c request.worker) := by
  have hentry : (s.view request.runId run).checkpoints c = some checkpoint.entry :=
    checkpointsOf_eq_some.mpr ⟨checkpoint, hc, hrun, rfl⟩
  have hunconsumed : checkpoint.entry.consumed = false := by simp [RunCheckpoint.entry, hopen]
  have hput : Shows _ _ _ ((s.view request.runId run).setCheckpoint c { checkpoint.entry with
      consumed := true
      key := some request.idempotencyKey
      answer := some answer }) _ :=
    (Shows.start hw hr).putCheckpoint hc hrun (by exact hrun : RunCheckpoint.runId { checkpoint with
      consumedAt := some env.utcnow
      resumeIdempotencyKey := some request.idempotencyKey
      resumeAnswer := some answer
      updatedAt := env.utcnow } = request.runId)
  cases hworker : request.worker with
  | none =>
    simp only [acceptAnswer, hworker, ok_rules, not_not, writeRun_eq_ok] at h
    obtain ⟨_, hstatus, s₁, ⟨-, rfl⟩, -, rfl⟩ := h
    exact (((hput.putRun (·.released .pending) hr (by rfl) (by rfl)).setMessageStatus
      _ _).appendEvent _ _ _).moved hr (.accept hstatus hentry hunconsumed (by rfl)) (by rfl)
  | some worker =>
    simp only [acceptAnswer, Store.appendResumed, hworker, ok_rules, not_not, writeRun_eq_ok] at h
    obtain ⟨_, hstatus, s₁, ⟨-, rfl⟩, -, rfl⟩ := h
    have htaken := (hput.putRun (·.taken worker (env.utcnow + secondsSpan env.settings.leaseSeconds))
      hr (by rfl : (run.resumedBy env worker).link = run.link) (by rfl)).setMessageStatus
        .streaming env.utcnow
    exact ((htaken.appendEvent .hitlResumed _ _).appendEvent .runStarted _ _).moved hr
      (.acceptStart hstatus hentry hunconsumed (by rfl) (by rfl)) (by rfl)

/-- What an answer can do to its run. -/
inductive ResumeRequest.Does (request : ResumeRequest) : Deed → Prop where
  | accept (c : Id) : request.Does (.accept c request.worker)
  | resume (c : Id) {worker : String} : request.worker = some worker →
      request.Does (.resume c worker)

theorem consumeTransaction_moved (hw : s.Wf)
    (h : consumeTransaction env request answer s = .ok (result, s')) :
    ∃ deed, request.Does deed ∧ Moved s s' request.runId deed := by
  simp only [consumeTransaction, ok_rules] at h
  obtain ⟨⟨c, checkpoint, run, thread, user⟩, hrow, _, -, _, -, h⟩ := h
  obtain ⟨hc, hrun, -, hr⟩ := resumeRow_some hrow
  split at h
  · rename_i hconsumed
    rcases resumeAgain_ok hw hr hc hrun hconsumed h with rfl | ⟨worker, hworker, hmoved⟩
    · exact ⟨_, .accept c, .same hw⟩
    · exact ⟨_, .resume c hworker, hmoved⟩
  · rename_i hopen
    rw [not_not] at hopen
    exact ⟨_, .accept c, acceptAnswer_moved hw hr hc hrun hopen h⟩

end Answers

end SuperMew.Runs
