import SuperMew.Runs.Refinement.Shared

/-! The end of a run and the promotion of the next one on the board. -/

namespace SuperMew.Runs

open Relational Store

variable {s s' : Store} {env : Env} {r : RunId} {run : Run} {t : Id}

theorem Store.otherActive_iff : s.otherActive t r = true ↔ ∃ r' run', r' ≠ r ∧
    s.runs.get r' = some run' ∧ run'.threadRefId = t ∧ run'.status.active = true := by
  simp only [otherActive, List.any_eq_true, Prod.exists, Table.mem_rows, Bool.and_eq_true,
    bne_iff_ne, beq_iff_eq, and_assoc, and_left_comm (b := _ ≠ r)]

theorem Store.board_active : s.board.Active t ↔ ∃ r run, s.runs.get r = some run ∧
    run.threadRefId = t ∧ run.status.active = true := by
  constructor
  · rintro ⟨r, x, hr, rfl, hactive⟩
    obtain ⟨run, hget, rfl⟩ := run_of_board hr
    exact ⟨r, run, hget, rfl, hactive⟩
  · rintro ⟨r, run, hget, rfl, hactive⟩
    exact ⟨r, _, board_of_run hget, rfl, hactive⟩

/-- Beside a queued run, whatever is active is another one. -/
theorem Store.otherActive_of_queued (hr : s.runs.get r = some run) (hq : run.status = .queued) :
    s.otherActive run.threadRefId r = true ↔ s.board.Active run.threadRefId := by
  rw [otherActive_iff, board_active]
  refine ⟨fun ⟨r', run', _, h⟩ => ⟨r', run', h⟩, fun ⟨r', run', hr', h⟩ => ⟨r', run', ?_, hr', h⟩⟩
  rintro rfl
  obtain rfl := Option.mem_unique hr hr'
  simp [hq, RunStatus.active] at h

theorem Store.board_queued {x : RunState} : s.board.Queued t r x ↔ ∃ run,
    s.runs.get r = some run ∧ x = s.view r run ∧ run.threadRefId = t ∧ run.status = .queued := by
  constructor
  · rintro ⟨hr, rfl, hqueued⟩
    obtain ⟨run, hget, rfl⟩ := run_of_board hr
    exact ⟨run, hget, rfl, rfl, hqueued⟩
  · rintro ⟨run, hget, rfl, rfl, hqueued⟩
    exact ⟨board_of_run hget, rfl, hqueued⟩

theorem bind_eq_iff {α β ε : Type} {x : Except ε α} {f : α → Except ε β} {y : Except ε β} :
    (x >>= f) = y ↔ (∃ e, x = .error e ∧ y = .error e) ∨ ∃ a, x = .ok a ∧ f a = y := by
  cases x <;> simp [bind, Except.bind, eq_comm]

/-! ## Promotion -/

theorem nextQueued_some (h : s.nextQueued t = some (r, run)) :
    s.runs.get r = some run ∧ run.threadRefId = t ∧ run.status = .queued := by
  have hmem := firstBy_mem h
  rw [Table.mem_select, Bool.and_eq_true, beq_iff_eq, beq_iff_eq] at hmem
  exact hmem

theorem nextQueued_eq_none : s.nextQueued t = none ↔
    ∀ r run, s.runs.get r = some run → run.threadRefId = t → run.status ≠ .queued := by
  rw [nextQueued, firstBy_eq_none, List.eq_nil_iff_forall_not_mem]
  simp [Prod.forall, Table.mem_select, not_and]

theorem nextQueued_le (h : s.nextQueued t = some (r, run)) {r' : RunId} {run' : Run}
    (hr : s.runs.get r' = some run') (ht : run'.threadRefId = t) (hq : run'.status = .queued) :
    run.createdAt ≤ run'.createdAt := by
  have hmem : (r', run') ∈ s.runs.select fun _ r => r.threadRefId == t && r.status == .queued :=
    Table.mem_select.mpr ⟨hr, by simp [ht, hq]⟩
  have hle := firstBy_le h hmem
  exact hle

theorem promoteNextQueued_ok (hw : s.Wf) {now : Time} (h : promoteNextQueued now t s = .ok s') :
    s'.Wf ∧ Promote t s.board s'.board := by
  unfold promoteNextQueued at h
  split at h
  · rename_i hnone
    cases h
    refine ⟨hw, .idle ?_⟩
    rintro r x hx
    obtain ⟨run, hget, -, ht, hq⟩ := board_queued.mp hx
    exact nextQueued_eq_none.mp hnone r run hget ht hq
  · rename_i r queued hnext
    obtain ⟨hget, rfl, hq⟩ := nextQueued_some hnext
    simp only [ok_rules, writeRun_eq_ok] at h
    obtain ⟨s₁, ⟨hfree, rfl⟩, rfl⟩ := h
    have hshows := ((Shows.start hw hget).putRun (fun x => { x with status := .pending }) hget
      (by rfl : Run.link { queued with status := .pending, updatedAt := now } = queued.link)
      (by rfl)).setMessageStatus .streaming now
    have hboard : (setMessageStatus _ queued.assistantMessageId .streaming now).board = _ :=
      hshows.board
    refine ⟨hshows.wf, ?_⟩
    rw [hboard]
    refine .next (board_queued.mpr ⟨queued, hget, rfl, rfl, hq⟩) ?_ ?_
    · rintro r' x' hx'
      obtain ⟨run', hget', rfl, ht', hq'⟩ := board_queued.mp hx'
      exact nextQueued_le hnext hget' ht' hq'
    · exact fun hactive => hfree ⟨rfl, (otherActive_of_queued hget hq).mpr hactive⟩

/-! ## The end of a run -/

variable {request : FinalizeRequest}

theorem transition_error_app {target : RunStatus} {fault : Fault}
    (h : transition env run target = .error fault) : ∃ e, fault = .app e := by
  simp only [transition, bind_eq_error, raiseIf_eq_error, pure_ne_error, and_false, exists_false,
    or_false] at h
  exact ⟨_, h.2⟩

theorem threads_completeMessage (s : Store) (run : Run) (request : FinalizeRequest) (e : Ending)
    (now : Time) : (s.completeMessage run request e now).threads = s.threads := by
  unfold completeMessage
  split <;> rfl

variable [ErrorCodec]

/-- What the last events of a run say, from the row and the ending that `finalize` writes. -/
def FinalizeRequest.closing (request : FinalizeRequest) (run : Run) (e : Ending) (clock : Time) :
    Closing where
  message := [("message_id", (run.assistantMessageId.map fun m => Json.int m).getD .null),
    ("content", .str e.content), ("status", .str e.messageStatus.value),
    ("rag_trace", request.ragTrace.getD .null)]
  final := [("status", .str run.status.value), ("error_code", (run.errorCode.map Json.str).getD .null),
    ("error", (e.errorDetailRedacted.bind ErrorCodec.contract).getD .null),
    ("assistant_message_id", (run.assistantMessageId.map fun m => Json.int m).getD .null)]
  usage := if request.inputTokens ≠ 0 ∨ request.outputTokens ≠ 0 ∨ request.cost.isZero = false then
      some [("input_tokens", .int run.inputTokens), ("output_tokens", .int run.outputTokens),
        ("cost", .str run.cost.text)]
    else none
  clock := clock

theorem closing_shows (request : FinalizeRequest) (e : Ending) (clock : Time)
    (hcode : run.errorCode = e.errorCode) :
    (request.closing run e clock).Shows ⟨e.content, e.messageStatus⟩ e.errorCode where
  content := rfl
  status := rfl
  code := by rw [← hcode]; rfl

theorem Shows.appendEnd {b : Board} {x : RunState} {link : Id × Id × Option Id × Option Id}
    (h : Shows s request.runId b x link) (run : Run) (e : Ending) (clock : Time) :
    Shows (s.appendEnd run request e clock) request.runId b
      (((x.used request.runId (request.closing run e clock).usage clock).record request.runId
        .messageCompleted (request.closing run e clock).message clock).record request.runId
          (terminalType e.target) (request.closing run e clock).final clock) link := by
  simp only [Store.appendEnd, FinalizeRequest.closing]
  split
  · exact ((h.appendEvent .usageUpdated _ _).appendEvent .messageCompleted _ _).appendEvent _ _ _
  · exact (h.appendEvent .messageCompleted _ _).appendEvent _ _ _

theorem ending_target (request : FinalizeRequest) (status : RunStatus) :
    (request.ending status).target = endStatus status request.targetStatus := by
  unfold FinalizeRequest.ending endStatus
  split <;> split <;> simp_all

theorem ending_code (request : FinalizeRequest) (status : RunStatus) :
    (request.ending status).errorCode = endCode status request.targetStatus request.errorCode := by
  unfold FinalizeRequest.ending endCode
  split <;> rfl

def Run.ended (run : Run) (request : FinalizeRequest) (e : Ending) (now clock : Time) : Run :=
  Run.finished { run with status := e.target, updatedAt := clock } request e now

/-- The writes of `finalize` before the promotion. -/
def Store.finishRun (s : Store) (request : FinalizeRequest) (run : Run) (thread : Thread) (e : Ending)
    (now clock : Time) : Store :=
  (((s.putRun request.runId (run.ended request e now clock)).completeMessage
    (run.ended request e now clock) request e now).putThread run.threadRefId
      { thread with updatedAt := now }).appendEnd (run.ended request e now clock) request e clock

theorem shows_finishRun (hw : s.Wf) (hr : s.runs.get request.runId = some run) {thread : Thread}
    (ht : s.threads.get run.threadRefId = some thread) (e : Ending) (now clock : Time) :
    Shows (s.finishRun request run thread e now clock) request.runId s.board
      ((s.view request.runId run).closed request.runId e.target ⟨e.content, e.messageStatus⟩
        (request.closing (run.ended request e now clock) e clock)) run.link := by
  have hput := ((Shows.start hw hr).putRun (fun x => { x with status := e.target, lease := none })
    hr (by rfl : (run.ended request e now clock).link = run.link) (by rfl)).completeMessage
      (by rfl : (run.ended request e now clock).link = run.link) request e now
  have hthread := ht
  rw [← show (s.putRun request.runId (run.ended request e now clock)).threads = s.threads from rfl,
    ← threads_completeMessage _ (run.ended request e now clock) request e now] at hthread
  exact (hput.putThread hthread (by rfl)).appendEnd _ e clock

/-- The request may end the run as it is stored. -/
def FinalizeRequest.Ends (request : FinalizeRequest) (run : Run) : Prop :=
  run.status.terminal = false ∧ request.targetStatus.terminal = true ∧
    run.status.canTransition (endStatus run.status request.targetStatus) = true ∧
    ¬ ∃ before ∈ request.leaseExpiredBefore, run.status ∉ [.running, .cancelling] ∨
      run.leaseExpiresAt = none ∨ run.leased before = true

/-- A request that may end the run is answered by the promotion after the end. -/
theorem finalize_eq (hr : s.runs.get request.runId = some run) {thread : Thread}
    (ht : s.threads.get run.threadRefId = some thread)
    (htoken : ∀ f ∈ request.fencingToken, run.fencingToken = f) (hends : request.Ends run) :
    finalize env request s = (promoteNextQueued env.now run.threadRefId (s.finishRun request run
      thread (request.ending run.status) env.now env.utcnow)).map fun s' =>
        ((run.ended request (request.ending run.status) env.now env.utcnow).record request.runId
          thread.threadId, s') := by
  obtain ⟨hopen, htarget, hcan, hlease⟩ := hends
  have hfence : ¬ ∃ f ∈ request.fencingToken, run.fencingToken ≠ f :=
    fun ⟨f, hf, hne⟩ => hne (htoken f hf)
  have hended : (run.ended request (request.ending run.status) env.now env.utcnow).status.active =
      false := by
    refine RunStatus.terminal_not_active ?_
    show (request.ending run.status).target.terminal = true
    rw [ending_target]
    exact endStatus_terminal htarget
  have hwrite : s.writeRun request.runId (run.ended request (request.ending run.status) env.now
      env.utcnow) = .ok (s.putRun request.runId
        (run.ended request (request.ending run.status) env.now env.utcnow)) :=
    writeRun_eq_ok.mpr ⟨by simp [hended], rfl⟩
  have hturn : transition env run (request.ending run.status).target =
      .ok { run with status := (request.ending run.status).target, updatedAt := env.utcnow } :=
    transition_eq_ok.mpr ⟨by rw [ending_target]; exact hcan, rfl⟩
  unfold finalize
  rw [if_neg (by simp [htarget])]
  simp only [hr, orRaise, ok_bind, ht, orAttributeError, assertFencing, raiseIf, if_neg hfence,
    if_neg hlease, hopen, Bool.false_eq_true, if_false, hturn]
  rw [← Run.ended, hwrite, ok_bind]
  show (promoteNextQueued env.now run.threadRefId (s.finishRun request run thread
    (request.ending run.status) env.now env.utcnow) >>= _) = _
  cases promoteNextQueued env.now run.threadRefId (s.finishRun request run thread
    (request.ending run.status) env.now env.utcnow) <;> rfl

/-- A request may end the run, is answered without a write, or is refused by the code. -/
theorem finalize_cases (hw : s.Wf) (env : Env) (request : FinalizeRequest) :
    (∃ run thread, s.runs.get request.runId = some run ∧
      s.threads.get run.threadRefId = some thread ∧
      (∀ f ∈ request.fencingToken, run.fencingToken = f) ∧ request.Ends run) ∨
    (∃ record, finalize env request s = .ok (record, s)) ∨
    ∃ fault, finalize env request s = .error fault ∧ (∀ violated, fault ≠ .integrity violated) ∧
      (request.targetStatus.terminal = true → ∃ e, fault = .app e) := by
  generalize hx : finalize env request s = x
  unfold finalize at hx
  split at hx
  · rename_i hopen
    exact .inr (.inr ⟨_, hx.symm, by simp, by simp [hopen]⟩)
  rename_i htarget
  simp only [assertFencing, bind_eq_iff, orRaise_eq_error, orAttributeError_eq_error,
    raiseIf_eq_error, ok_rules, orAttributeError_eq_ok] at hx
  rcases hx with ⟨_, ⟨-, rfl⟩, rfl⟩ | ⟨run, hr, ⟨_, ⟨hnone, -⟩, -⟩ | ⟨thread, ht,
    ⟨_, ⟨-, rfl⟩, rfl⟩ | ⟨_, htoken, ⟨_, ⟨-, rfl⟩, rfl⟩ | ⟨_, hlease, hx⟩⟩⟩⟩
  · exact .inr (.inr ⟨_, rfl, by simp, fun _ => ⟨_, rfl⟩⟩)
  · obtain ⟨thread, ht, -⟩ := hw.thread _ run hr
    cases ht.symm.trans hnone
  · exact .inr (.inr ⟨_, rfl, by simp, fun _ => ⟨_, rfl⟩⟩)
  · exact .inr (.inr ⟨_, rfl, by simp, fun _ => ⟨_, rfl⟩⟩)
  · split at hx
    · simp only [bind_eq_iff, raiseIf_eq_error, ok_rules] at hx
      rcases hx with ⟨_, ⟨-, rfl⟩, rfl⟩ | ⟨_, -, rfl⟩
      · exact .inr (.inr ⟨_, rfl, by simp, fun _ => ⟨_, rfl⟩⟩)
      · exact .inr (.inl ⟨_, rfl⟩)
    · rename_i hopen
      simp only [bind_eq_iff, transition_eq_ok] at hx
      rcases hx with ⟨fault, hfault, rfl⟩ | ⟨_, ⟨hcan, -⟩, -⟩
      · obtain ⟨e, rfl⟩ := transition_error_app hfault
        exact .inr (.inr ⟨_, rfl, by simp, fun _ => ⟨_, rfl⟩⟩)
      · rw [ending_target] at hcan
        exact .inl ⟨run, thread, hr, ht, fun f hf => by_contra fun hne => htoken ⟨f, hf, hne⟩,
          by simpa using hopen, by simpa using htarget, hcan, hlease⟩

theorem finalize_moved (hw : s.Wf) {record : RunRecord}
    (h : finalize env request s = .ok (record, s')) : Moved s s' request.runId
      (.finish request.fencingToken request.targetStatus request.errorCode) := by
  rcases finalize_cases hw env request with
    ⟨run, thread, hr, ht, hfence, hends⟩ | ⟨_, hsame⟩ | ⟨_, hfault, -⟩
  · rw [finalize_eq hr ht hfence hends] at h
    obtain ⟨hopen, htarget, hcan, -⟩ := hends
    obtain ⟨s₂, hpromote, heq⟩ := map_eq_ok.mp h
    cases heq
    have hshows := shows_finishRun hw hr ht (request.ending run.status) env.now env.utcnow
    obtain ⟨hw', hp⟩ := promoteNextQueued_ok hshows.wf hpromote
    have hclosing := closing_shows request (request.ending run.status) env.utcnow (by rfl :
      (run.ended request (request.ending run.status) env.now env.utcnow).errorCode = _)
    rw [ending_code] at hclosing
    rw [hshows.board, ending_target] at hp
    exact ⟨hw', .inr (.finish (board_of_run hr) (.finish hopen htarget hfence hcan hclosing)
      (closed_terminal htarget) hp)⟩
  · obtain ⟨-, rfl⟩ := Prod.mk.inj (Except.ok.inj (hsame.symm.trans h))
    exact .same hw
  · cases hfault.symm.trans h

end SuperMew.Runs
