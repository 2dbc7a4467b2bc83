import SuperMew.Runs.Queue

/-! Cancellation. A run that is being cancelled can only become cancelled; and it can become
cancelled as long as its worker or a lease that runs out can end it. -/

namespace SuperMew.Runs

open Relational Runs.System Store Run

/-! ## Cancellation wins -/

variable {r : RunId} {x : RunState}

section Wins

variable {b b' : Board} {action : Action}

/-- The events of a run end with its cancellation, under this error code. -/
def EndsCancelled (journal : List RunEvent) (code : Json) : Prop :=
  ∃ before e, journal = before ++ [e] ∧ e.type = .runCancelled ∧
    e.data.get? "error_code" = some code

/-- A step leaves a run that is being cancelled as it is in status, or ends it as cancelled. -/
theorem Step.cancelling (hs : Step action b b') (hr : b r = some x) (hx : x.status = .cancelling) :
    ∃ y, b' r = some y ∧ (y.status = .cancelling ∨ y.status = .cancelled ∧
      ∃ token target code, action = .does r (.finish token target code) ∧
        EndsCancelled y.journal (((endCode .cancelling target code).map Json.str).getD .null)) := by
  rcases hs.one hr with h | ⟨deed, y, rfl, hm, h⟩ | ⟨hq, -⟩
  · exact ⟨x, h, .inl hx⟩
  · refine ⟨y, h, ?_⟩
    cases hm with
    | @finish _ token target code reply e _ _ _ _ hshows =>
      rw [endStatus, if_pos hx] at *
      refine .inr ⟨RunState.closed_status .., token, target, code, rfl, ?_⟩
      have hcode := hshows.code
      rw [hx] at hcode
      exact ⟨_, _, rfl, rfl, hcode⟩
    | start hstatus | pause _ _ hstatus | accept hstatus | acceptStart hstatus | resume hstatus
    | mark hstatus =>
      simp [hx] at hstatus
    | renew | note => exact .inl hx
    | suspend _ _ hcan =>
      simp [hx, RunStatus.canTransition, RunStatus.allowedTransitions] at hcan
  · rw [hx] at hq
    cases hq

end Wins

section Later

variable [ErrorCodec] {s : System}

/-- A run is ended by `finalize`, or by a request to cancel. -/
theorem does_finish {env : Env} {op : Op} {token : Option ℕ} {target : RunStatus}
    {code : Option String} (h : Call.Does env s op r (.finish token target code)) :
    (∃ request, op = .finalize request ∧ request.runId = r ∧ request.fencingToken = token ∧
      request.targetStatus = target ∧ request.errorCode = code) ∨
    token = none ∧ target = .cancelled ∧ code = some cancelledPublicError.code := by
  have hcancel : ∀ {p : PendingCancel}, p.deed = some (.finish token target code) →
      token = none ∧ target = .cancelled ∧ code = some cancelledPublicError.code := by
    intro p hp
    unfold PendingCancel.deed at hp
    split at hp
    · cases hp
    · simp only [Option.some.injEq, Deed.finish.injEq] at hp
      exact ⟨hp.1.symm, hp.2.1.symm, hp.2.2.symm⟩
    · cases hp
  cases h with
  | finalize q => exact .inl ⟨q, rfl, rfl, rfl, rfl, rfl⟩
  | consumeResume q hq => cases hq
  | requestCancel username r _ hdeed | writeCancel position _ hdeed => exact .inr (hcancel hdeed)

variable [Platform]

/-- A run that has ended is as it is in every later system. -/
theorem run_ended (hw : s.store.Wf) (hr : s.store.board r = some x) (hx : x.status.terminal = true)
    (calls : List Call) : (Machine.run exec s calls).store.board r = some x :=
  run_keeps (P := fun b => b r = some x) hw hr (fun hs h => hs.ended h hx) calls

/-- The request that ends run `r`, which is being cancelled, asks for `cancelled` and gives this
error code. -/
def EndedWith (s : System) (calls : List Call) (r : RunId) (code : Option String) : Prop :=
  ∃ pre call post request, calls = pre ++ call :: post ∧ call.op = .finalize request ∧
    request.runId = r ∧ request.targetStatus = .cancelled ∧ request.errorCode = code ∧
    ((Machine.run exec s pre).store.runs.get r).map status = some .cancelling ∧
    ((Machine.run exec s (pre ++ [call])).store.runs.get r).map status = some .cancelled

/-- What a run that was being cancelled has come to. -/
def Cancelled (s : System) (calls : List Call) (r : RunId) (y : RunState) : Prop :=
  y.status = .cancelling ∨ y.status = .cancelled ∧
    (EndsCancelled y.journal (.str "RUN_CANCELLED") ∨
      ∃ code, EndedWith s calls r code ∧ EndsCancelled y.journal ((code.map Json.str).getD .null))

theorem Cancelled.cons {call : Call} {calls : List Call} {y : RunState}
    (h : Cancelled (exec s call) calls r y) : Cancelled s (call :: calls) r y := by
  refine h.imp_right (And.imp_right (Or.imp_right ?_))
  rintro ⟨code, ⟨pre, call', post, request, rfl, hop⟩, hends⟩
  exact ⟨code, ⟨call :: pre, call', post, request, rfl, hop⟩, hends⟩

theorem run_cancelling (hw : s.store.Wf) (hr : s.store.board r = some x)
    (hx : x.status = .cancelling) (calls : List Call) :
    ∃ y, (Machine.run exec s calls).store.board r = some y ∧ Cancelled s calls r y := by
  induction calls generalizing s x with
  | nil => exact ⟨x, hr, .inl hx⟩
  | cons call calls ih =>
    rw [Machine.run_cons]
    obtain ⟨-, hsame | ⟨action, hacts, hs⟩⟩ : call.Steps s (exec s call).store := exec_steps hw
    · obtain ⟨y, hy, h⟩ := ih (exec_wf hw) (hsame ▸ hr) hx
      exact ⟨y, hy, h.cons⟩
    · obtain ⟨y, hy, hstatus | ⟨hstatus, token, target, code, rfl, hends⟩⟩ := hs.cancelling hr hx
      · obtain ⟨z, hz, h⟩ := ih (exec_wf hw) hy hstatus
        exact ⟨z, hz, h.cons⟩
      · refine ⟨y, run_ended (exec_wf hw) hy (by rw [hstatus]; rfl) calls, .inr ⟨hstatus, ?_⟩⟩
        by_cases htarget : target = .cancelled
        · subst htarget
          have hcode : endCode .cancelling .cancelled code = code := by simp [endCode]
          rw [hcode] at hends
          cases hacts with
          | does hdoes =>
            rcases does_finish hdoes with ⟨request, hop, hrun, -, htarget, hcode⟩ | ⟨-, -, rfl⟩
            · refine .inr ⟨code, ⟨[], call, calls, request, rfl, hop, hrun, htarget, hcode, ?_, ?_⟩,
                hends⟩
              · rw [Machine.run_nil, ← board_status, hr, Option.map_some, hx]
              · rw [← board_status]
                exact (congrArg _ hy).trans (congrArg some hstatus)
            · exact .inl hends
        · rw [endCode, if_pos ⟨rfl, htarget⟩] at hends
          exact .inl hends

/-- Once a run is being cancelled, it can only become cancelled: its last event is then
`run.cancelled` with the error of a cancellation, or with the error that the request which
ends it gives if that request asks for `cancelled` itself. -/
theorem cancellation_wins (users : Table Id User) (calls later : List Call) {run : Run}
    (hr : (after users calls).store.runs.get r = some run) (hc : run.status = .cancelling) :
    ∃ run', (after users (calls ++ later)).store.runs.get r = some run' ∧
      (run'.status = .cancelling ∨ run'.status = .cancelled ∧
        (EndsCancelled ((after users (calls ++ later)).store.eventsOf r)
            (.str "RUN_CANCELLED") ∨
          ∃ code, EndedWith (after users calls) later r code ∧
            EndsCancelled ((after users (calls ++ later)).store.eventsOf r)
              ((code.map Json.str).getD .null))) := by
  obtain ⟨y, hy, h⟩ := run_cancelling (after_wf users calls) (board_of_run hr) hc later
  rw [after_append]
  obtain ⟨run', hr', rfl⟩ := run_of_board hy
  exact ⟨run', hr', h⟩

end Later

namespace Sample

/-- The user has cancelled the run, and its worker has not noticed yet. -/
def cancelling : List Call := [ask 1 "a", take 2 "a" "w", cancel 3 "a"]

end Sample

open PlainPlatform Sample in
/-- The worker ends the cancelled run as cancelled, without an error code. -/
theorem cancelled_without_error :
    ((after users cancelling).store.runs.get "a").map status = some .cancelling ∧
    ((after users (cancelling ++ [finish 4 "a" (some 3) .cancelled])).store.eventsOf
      "a").getLast?.map (fun e => (e.type, e.data.get? "error_code")) =
        some (.runCancelled, some .null) := by
  decide +kernel

open PlainPlatform Sample in
theorem success_after_cancel :
    ∃ run', (after users (cancelling ++ [finish 4 "a" (some 3) .succeeded])).store.runs.get
        "a" = some run' ∧ (run'.status = .cancelling ∨ run'.status = .cancelled) := by
  have hstatus : ((after users cancelling).store.runs.get "a").map status =
      some .cancelling := by decide +kernel
  obtain ⟨run, hr, hc⟩ := Option.map_eq_some_iff.mp hstatus
  obtain ⟨run', hr', h⟩ :=
    cancellation_wins users cancelling [finish 4 "a" (some 3) .succeeded] hr hc
  exact ⟨run', hr', h.imp_right And.left⟩

/-! ## Ending an active run -/

section Ending

variable {s : Store} {env : Env} {run : Run} {request : FinalizeRequest} [ErrorCodec]

/-- A request that may end an active run does end it. -/
theorem finalize_active (hw : s.Wf) (hl : s.board.Lanes)
    (hr : s.runs.get request.runId = some run) (hactive : run.status.active = true)
    (htoken : ∀ f ∈ request.fencingToken, run.fencingToken = f) (hends : request.Ends run) :
    ∃ record s', finalize env request s = .ok (record, s') ∧
      (s'.runs.get request.runId).map status =
        some (endStatus run.status request.targetStatus) := by
  obtain ⟨thread, ht, -⟩ := hw.thread _ run hr
  have hended : (request.ending run.status).target.terminal = true := by
    rw [ending_target]
    exact endStatus_terminal hends.2.1
  have hshows := shows_finishRun hw hr ht (request.ending run.status) env.now env.utcnow
  rw [finalize_eq hr ht htoken hends]
  cases hp : promoteNextQueued env.now run.threadRefId (s.finishRun request run thread
      (request.ending run.status) env.now env.utcnow) with
  | error fault =>
    have hother := (finishRun_queued hw hr ht hended env.now env.utcnow).2.mp
      (promoteNextQueued_eq_error.mp hp).1.2
    exact absurd hother (otherActive_of_active hl hr hactive)
  | ok s' =>
    refine ⟨_, s', rfl, ?_⟩
    have hfirst := congrFun hshows.board request.runId
    rw [Function.update_self] at hfirst
    have hstays := (promoteNextQueued_ok hshows.wf hp).2.other hfirst (by
      rw [RunState.closed_status]
      exact RunStatus.terminal_ne_queued hended)
    rw [← board_status, hstays, Option.map_some, RunState.closed_status, ending_target]

/-- A request that only ends a run with an expired lease raises application errors only. -/
theorem finalize_expired_error (hw : s.Wf) (hl : s.board.Lanes) {before : Time} {fault : Fault}
    (htarget : request.targetStatus.terminal = true)
    (hbefore : request.leaseExpiredBefore = some before)
    (h : finalize env request s = .error fault) : ∃ e, fault = .app e := by
  rcases finalize_cases hw env request with
    ⟨run, _, hr, -, hfence, hends⟩ | ⟨_, hsame⟩ | ⟨_, hfault, -, happ⟩
  · have hactive : run.status.active = true := by
      have hstatus := not_or.mp (fun hor => hends.2.2.2 ⟨before, hbefore, hor⟩)
      rw [not_not] at hstatus
      rcases (by simpa using hstatus.1 : run.status = .running ∨ run.status = .cancelling)
        with hs | hs <;> simp [hs, RunStatus.active]
    obtain ⟨_, _, hok, -⟩ : ∃ record s', finalize env request s = .ok (record, s') ∧ _ :=
      finalize_active hw hl hr hactive hfence hends
    cases h.symm.trans hok
  · cases h.symm.trans hsame
  · obtain rfl := Except.error.inj (hfault.symm.trans h)
    exact happ htarget

end Ending

/-! ## Recovery -/

variable {deed : Deed} {lease : Time}

section Recovery

variable {s s' : Store} {env : Env} {r' : RunId} {now : Time}

theorem Moved.lanes (h : Moved s s' r deed) (hl : s.board.Lanes) : s'.board.Lanes := by
  rcases h.2 with hsame | hs
  · exact hsame ▸ hl
  · exact hs.lanes hl

/-- A transaction leaves a run as it is that is not queued, or moves it. -/
theorem Moved.one (h : Moved s s' r' deed) (hr : s.board r = some x)
    (hx : x.status ≠ .queued) : s'.board r = some x ∨ r' = r ∧ ∃ y, Move r deed x y := by
  rcases h.2 with hsame | hs
  · exact .inl (hsame ▸ hr)
  · rcases hs.one hr with hr | ⟨_, y, heq, hm, -⟩ | ⟨hq, -⟩
    · exact .inl hr
    · obtain ⟨rfl, rfl⟩ := Action.does.inj heq
      exact .inr ⟨rfl, y, hm⟩
    · exact absurd hq hx

theorem Moved.ended (h : Moved s s' r' deed) (hr : s.board r = some x)
    (hx : x.status.terminal = true) : s'.board r = some x := by
  rcases h.2 with hsame | hs
  · exact hsame ▸ hr
  · exact hs.ended hr hx

variable [ErrorCodec] (hw : s.Wf)

include hw

theorem reconcileLoop_ended (hr : s.board r = some x) (hx : x.status.terminal = true)
    (candidates : List (RunId × ℕ)) : (reconcileLoop env now candidates s).2.board r = some x := by
  induction candidates generalizing s with
  | nil => exact hr
  | cons c candidates ih =>
    obtain ⟨r', token⟩ := c
    unfold reconcileLoop
    split
    · rename_i s' hok
      have hmoved := finalize_moved hw hok
      exact ih hmoved.1 (hmoved.ended hr hx)
    · exact ih hw hr
    · exact hr

variable (hl : s.board.Lanes)

include hl

theorem finalize_orphan (hr : s.board r = some x)
    (hx : x.status = .cancelling) (hlease : x.lease = some lease) (hexpired : lease < now) :
    ∃ record s', finalize env (orphanRequest now r x.token) s = .ok (record, s') ∧
      (s'.runs.get r).map status = some .cancelled := by
  obtain ⟨run, hrun, rfl⟩ := run_of_board hr
  have hstatus : run.status = .cancelling := hx
  have hlease : run.leaseExpiresAt = some lease := hlease
  have hended : endStatus run.status (orphanRequest now r (s.view r run).token).targetStatus =
      .cancelled := by rw [endStatus, if_pos hstatus]
  rw [← hended]
  refine finalize_active hw hl hrun (by rw [hstatus]; rfl) ?_
    ⟨by rw [hstatus]; rfl, rfl, by rw [hended, hstatus]; rfl, ?_⟩
  · rintro f ⟨⟩
    rfl
  · rintro ⟨before, ⟨⟩, hguard⟩
    simp [hstatus, hlease, leased, Nat.not_le_of_lt hexpired] at hguard

/-- The loop ends a run that is being cancelled and whose lease has run out. -/
theorem reconcileLoop_cancels (hr : s.board r = some x)
    (hx : x.status = .cancelling) (hlease : x.lease = some lease) (hexpired : lease < now)
    {candidates : List (RunId × ℕ)} (hmem : (r, x.token) ∈ candidates) :
    ((reconcileLoop env now candidates s).2.runs.get r).map status = some .cancelled := by
  induction candidates generalizing s with
  | nil => cases hmem
  | cons c candidates ih =>
    obtain ⟨r', token⟩ := c
    rw [reconcileLoop]
    by_cases heq : r' = r ∧ token = x.token
    · obtain ⟨rfl, rfl⟩ := heq
      obtain ⟨_, s', hok, hstatus⟩ := finalize_orphan hw hl hr hx hlease hexpired
      rw [hok]
      obtain ⟨run', hrun, hcancelled⟩ := Option.map_eq_some_iff.mp hstatus
      have hstays : (reconcileLoop env now candidates s').2.board r' = _ :=
        reconcileLoop_ended (finalize_moved hw hok).1 (board_of_run hrun)
          (by rw [show (s'.view r' run').status = .cancelled from hcancelled]; rfl) candidates
      rw [← board_status]
      exact (congrArg _ hstays).trans (congrArg some hcancelled)
    · have hmem' : (r, x.token) ∈ candidates := by
        rcases List.mem_cons.mp hmem with hhead | htail
        · obtain ⟨hrun, htoken⟩ := Prod.mk.inj hhead
          exact absurd ⟨hrun.symm, htoken.symm⟩ heq
        · exact htail
      split
      · rename_i s' hok
        have hmoved := finalize_moved hw hok
        refine ih hmoved.1 (hmoved.lanes hl) ?_ hmem'
        rcases hmoved.one hr (by rw [hx]; decide) with hr | ⟨hrun, _, hm⟩
        · exact hr
        · -- the run is not ended under another token
          cases hm with
          | finish _ _ hfence => exact absurd ⟨hrun, (hfence token rfl).symm⟩ heq
      · exact ih hw hl hr hmem'
      · rename_i fault happ herror
        obtain ⟨e, rfl⟩ := finalize_expired_error hw hl rfl rfl herror
        exact absurd rfl (happ e)

theorem reconcileOrphans_cancels {run : Run}
    (hr : s.runs.get r = some run) (hc : run.status = .cancelling)
    (hlease : run.leaseExpiresAt = some lease) (hexpired : lease < now) :
    ((reconcileOrphans env now s).2.runs.get r).map status = some .cancelled := by
  refine reconcileLoop_cancels hw hl (board_of_run hr) hc hlease hexpired ?_
  refine List.mem_map.mpr ⟨(r, run), Table.mem_select.mpr ⟨hr, ?_⟩, rfl⟩
  simp [hc, hlease, hexpired]

end Recovery

/-! ## Runs that can be ended -/

section Held

variable [ErrorCodec]

/-- A run is marked as cancelling only while a worker holds it, not while it waits for an
answer or for a worker. -/
def MarksHeldRun (s : System) (call : Call) : Prop :=
  ∀ r run, Call.Does call.env s call.op r .mark → s.store.runs.get r = some run →
    run.status ≠ .pending ∧ run.status ≠ .waitingInput

variable [Platform]

/-- A run that is running or being cancelled has a worker and a lease. -/
def RunState.Held (x : RunState) : Prop :=
  x.status = .running ∨ x.status = .cancelling → x.owner ≠ none ∧ x.lease ≠ none

omit [ErrorCodec] [Platform] in
theorem Move.held {y : RunState} (h : Move r deed x y)
    (hok : deed = .mark → x.status ≠ .pending ∧ x.status ≠ .waitingInput) (hx : x.Held) :
    y.Held := by
  cases h with
  | start | acceptStart | resume => exact fun _ => ⟨by simp, by simp⟩
  | renew howner => exact fun _ => ⟨by simp [howner], by simp⟩
  | suspend | pause | accept => exact fun hs => by simp at hs
  | mark hstatus =>
    have hrunning : x.status = .running := by
      obtain ⟨hp, hw⟩ := hok rfl
      simpa [hp, hw] using hstatus
    exact fun _ => hx (.inl hrunning)
  | note => exact hx
  | finish _ htarget =>
    exact fun hs => absurd hs (not_or.mpr ⟨closed_ne htarget rfl, closed_ne htarget rfl⟩)

theorem after_held {users : Table Id User} {calls : List Call}
    (hok : Machine.Along exec MarksHeldRun ⟨initial users, []⟩ calls) :
    ∀ r x, (after users calls).store.board r = some x → x.Held := by
  have hallowed : Machine.Along exec (Allowed fun _ deed x => deed = .mark → x.status ≠ .pending ∧
      x.status ≠ .waitingInput) ⟨initial users, []⟩ calls := by
    refine hok.imp fun s call h r deed x hdoes hr heq => ?_
    obtain ⟨run, hget, rfl⟩ := run_of_board hr
    exact h r run (heq ▸ hdoes) hget
  refine after_forall (P := fun _ x => x.Held) (fun r x _ hstatus hs => ?_)
    (fun r deed x y hm hok hx => hm.held hok hx) (fun r x _ _ hs => by simp at hs) hallowed
  rcases hstatus with hstatus | hstatus <;> simp [hstatus] at hs

/-- If runs are marked as cancelling only while a worker holds them, then every run that is
being cancelled has a worker and a lease. Its worker ends it as cancelled under its token, and
the recovery does so once the lease has run out. -/
theorem cancelling_run_can_be_finished (users : Table Id User) (calls : List Call)
    (hok : Machine.Along exec MarksHeldRun ⟨initial users, []⟩ calls) {r : RunId} {run : Run}
    (hr : (after users calls).store.runs.get r = some run) (hc : run.status = .cancelling) :
    ∃ worker lease, run.ownerWorkerId = some worker ∧ run.leaseExpiresAt = some lease ∧
      (∀ env request, request.runId = r → request.targetStatus.terminal = true →
        request.fencingToken = some run.fencingToken → request.leaseExpiredBefore = none →
        ∃ record store, finalize env request (after users calls).store = .ok (record, store) ∧
          (store.runs.get r).map status = some .cancelled) ∧ (∀ env now, lease < now →
        ((reconcileOrphans env now (after users calls).store).2.runs.get r).map status =
          some .cancelled) := by
  have hw := after_wf users calls
  have hl := after_lanes users calls
  obtain ⟨howner, hlease⟩ := after_held hok r _ (board_of_run hr) (.inr hc)
  obtain ⟨worker, hworker⟩ := Option.ne_none_iff_exists'.mp howner
  obtain ⟨lease, hlease⟩ := Option.ne_none_iff_exists'.mp hlease
  refine ⟨worker, lease, hworker, hlease, fun env request hrun htarget htoken hbefore => ?_,
    fun env now hexpired => reconcileOrphans_cancels hw hl hr hc hlease hexpired⟩
  subst hrun
  have hended : endStatus run.status request.targetStatus = .cancelled := by
    rw [endStatus, if_pos hc]
  rw [← hended]
  refine finalize_active hw hl hr (by rw [hc]; rfl) ?_
    ⟨by rw [hc]; rfl, htarget, by rw [hended, hc]; rfl, by simp [hbefore]⟩
  intro f hf
  rw [htoken] at hf
  exact Option.some.inj hf

end Held

namespace Sample

def readCancel (now : Time) (r : RunId) : Call := ⟨env now r, .readCancel "user" r⟩

def writeCancel (now : Time) (r : RunId) : Call := ⟨env now r, .writeCancel 0⟩

/-- The request to cancel has read that the run is running; before it writes, the worker
pauses the run for an answer. -/
def cancelAcrossPause : List Call :=
  [ask 1 "a", take 2 "a" "w", readCancel 3 "a", pause 4 "a" "w" 3, writeCancel 5 "a"]

end Sample

open PlainPlatform Sample in
/-- The run is being cancelled without worker and lease: it cannot be claimed, and the
recovery leaves it for ever as it is. -/
theorem cancelling_run_without_worker :
    ((after users cancelAcrossPause).store.runs.get "a").map
      (fun run => (run.status, run.ownerWorkerId, run.leaseExpiresAt)) =
        some (.cancelling, none, none) ∧
    ((exec (after users cancelAcrossPause) (take 6 "a" "w")).store.runs.get "a").map
      status = some .cancelling ∧
    ∀ now, (after users cancelAcrossPause).store.orphans now = [] := by
  refine ⟨by decide +kernel, by decide +kernel, fun now => ?_⟩
  have hnone : ((after users cancelAcrossPause).store.runs.rows.all fun e =>
      e.2.leaseExpiresAt.isNone) = true := by decide +kernel
  rw [orphans, List.map_eq_nil_iff, Table.select, List.filter_eq_nil_iff]
  intro e he
  simp [Option.isNone_iff_eq_none.mp (List.all_eq_true.mp hnone e he)]

theorem marksHeldRun_of_all [ErrorCodec] {s : System} {call : Call}
    (h : (s.store.runs.rows.all fun e => e.2.status != .pending && e.2.status != .waitingInput) =
      true) : MarksHeldRun s call := by
  intro r run _ hr
  simpa using List.all_eq_true.mp h (r, run) (Table.mem_rows.mpr hr)

open PlainPlatform Sample in
theorem cancelling_run_with_worker :
    ∃ run worker lease, (after users cancelling).store.runs.get "a" = some run ∧
      run.ownerWorkerId = some worker ∧ run.leaseExpiresAt = some lease := by
  have hstatus : ((after users cancelling).store.runs.get "a").map status =
      some .cancelling := by decide +kernel
  obtain ⟨run, hr, hc⟩ := Option.map_eq_some_iff.mp hstatus
  have hok : Machine.Along exec MarksHeldRun ⟨initial users, []⟩ cancelling := by
    refine ⟨?_, ?_, marksHeldRun_of_all (by decide +kernel), trivial⟩
    · rintro r run ⟨⟩
    · rintro r run ⟨⟩
  obtain ⟨worker, lease, howner, hlease, -⟩ :=
    cancelling_run_can_be_finished users cancelling hok hr hc
  exact ⟨run, worker, lease, hr, howner, hlease⟩

end SuperMew.Runs
