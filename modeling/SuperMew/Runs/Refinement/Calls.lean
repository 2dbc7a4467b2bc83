import SuperMew.Runs.Calls
import SuperMew.Runs.Refinement.Owner
import SuperMew.Runs.Refinement.Answers
import SuperMew.Runs.Refinement.Reservation

/-! Every committed call shows on the board as nothing or as one step, so what the steps of
the board keep holds in every reachable system. -/

namespace SuperMew.Runs

open Relational

/-- What a request to cancel goes on to do, once it has read the run. -/
def PendingCancel.deed (p : PendingCancel) : Option Deed :=
  match cancelPlan p.current.status with
  | .leave => none
  | .finalize => some (.finish none .cancelled (some cancelledPublicError.code))
  | .mark => some .mark

variable {p : PendingCancel}

/-- A request to cancel ends a run or marks it. -/
theorem PendingCancel.deed_eq {deed : Deed} (h : p.deed = some deed) :
    deed = .finish none .cancelled (some cancelledPublicError.code) ∨ deed = .mark := by
  unfold PendingCancel.deed at h
  split at h
  · cases h
  · exact .inl (Option.some.inj h).symm
  · exact .inr (Option.some.inj h).symm

variable [ErrorCodec]

/-- What a call can do to a run. -/
inductive Call.Does (env : Env) (s : System) : Op → RunId → Deed → Prop where
  | claim (r worker lease) : Does env s (.claim r worker lease) r (.start worker)
  | heartbeat (r worker token lease) :
      Does env s (.heartbeat r worker token lease) r (.renew worker token)
  | setWaitingInput (r worker token) :
      Does env s (.setWaitingInput r worker token) r (.suspend worker token)
  | markCancelling (username r) : Does env s (.markCancelling username r) r .mark
  | finalize (q : FinalizeRequest) :
      Does env s (.finalize q) q.runId (.finish q.fencingToken q.targetStatus q.errorCode)
  | recordPause (q : PauseRequest) :
      Does env s (.recordPause q) q.runId (.pause q.workerId q.fencingToken)
  | consumeResume (q : ResumeRequest) {deed} : q.Does deed →
      Does env s (.consumeResume q) q.runId deed
  | append (r type data worker token) :
      Does env s (.append r type data worker token) r (.note worker token type)
  | requestCancel (username r) {p deed} : Runs.readCancel username r s.store = .ok p →
      p.deed = some deed → Does env s (.requestCancel username r) r deed
  | writeCancel (position) {p deed} : s.cancels[position]? = some p → p.deed = some deed →
      Does env s (.writeCancel position) p.runId deed

/-- What a call can show as on the board. -/
inductive Call.Acts (call : Call) (s : System) : Action → Prop where
  | reserve {request t} : call.op = .reserve request →
      s.store.Home request.username request.threadId t ∨ s.store.board.Unused t →
      call.Acts s (.create call.env.runId t call.env.now)
  | does {r deed} : Call.Does call.env s call.op r deed → call.Acts s (.does r deed)

variable {s : System} {call : Call} {store : Store}

/-- A transaction keeps the tables well-formed, and shows as nothing or as one step. -/
def Call.Steps (call : Call) (s : System) (store : Store) : Prop :=
  store.Wf ∧ (store.board = s.store.board ∨
    ∃ action, call.Acts s action ∧ Step action s.store.board store.board)

theorem Moved.steps {r : RunId} {deed : Deed} (h : Moved s.store store r deed)
    (hd : Call.Does call.env s call.op r deed) : call.Steps s store :=
  ⟨h.1, h.2.imp_right fun hstep => ⟨_, .does hd, hstep⟩⟩

theorem Created.steps {request : ReserveRequest}
    (h : Created call.env request.username request.threadId s.store store)
    (hop : call.op = .reserve request) : call.Steps s store :=
  ⟨h.1, h.2.imp_right fun ⟨_, hhome, hstep⟩ => ⟨_, .reserve hop hhome, hstep⟩⟩

theorem writeCancel_moved (hw : s.store.Wf) {env : Env} {record : RunRecord}
    (h : writeCancel env p s.store = .ok (record, store)) :
    store = s.store ∨ ∃ deed, p.deed = some deed ∧ Moved s.store store p.runId deed := by
  unfold writeCancel at h
  split at h
  · exact .inl (Prod.mk.inj (Except.ok.inj h)).2.symm
  · rename_i hplan
    exact .inr ⟨_, by rw [PendingCancel.deed, hplan]; rfl, finalize_moved hw h⟩
  · rename_i hplan
    exact .inr ⟨_, by rw [PendingCancel.deed, hplan], markCancelling_moved hw h⟩

theorem readCancel_run {username : String} {r : RunId} {s : Store}
    (h : readCancel username r s = .ok p) : p.runId = r := by
  obtain ⟨_, _, rfl⟩ := map_eq_ok.mp h
  rfl

variable [Platform]

theorem Call.steps_of_transaction (hw : s.store.Wf) (h : call.transaction s = .ok store) :
    call.Steps s store := by
  have hsame : s.store = store → call.Steps s store := fun heq => heq ▸ ⟨hw, .inl rfl⟩
  obtain ⟨env, op⟩ := call
  cases op with
  | reserve q =>
    simp only [Call.transaction, ok_rules, map_eq_ok, Prod.exists] at h
    obtain ⟨input, hinput, _, _, h, rfl⟩ := h
    exact (normalize_threadId hinput ▸ reserveTransaction_created hw h).steps rfl
  | claim r worker lease =>
    exact of_map_snd h fun hop => (claim_moved hw hop).steps (.claim r worker lease)
  | heartbeat r worker token lease =>
    exact of_map_snd h fun hop => (heartbeat_moved hw hop).steps (.heartbeat r worker token lease)
  | setWaitingInput r worker token =>
    exact of_map_snd h fun hop =>
      (setWaitingInput_moved hw hop).steps (.setWaitingInput r worker token)
  | markCancelling username r =>
    exact of_map_snd h fun hop => (markCancelling_moved hw hop).steps (.markCancelling username r)
  | finalize q => exact of_map_snd h fun hop => (finalize_moved hw hop).steps (.finalize q)
  | recordPause q => exact of_map_snd h fun hop => (recordPause_moved hw hop).steps (.recordPause q)
  | consumeResume q =>
    simp only [Call.transaction, ok_rules, map_eq_ok, Prod.exists] at h
    obtain ⟨_, _, _, _, h, rfl⟩ := h
    obtain ⟨deed, hdoes, hmoved⟩ := consumeTransaction_moved hw h
    exact hmoved.steps (.consumeResume q hdoes)
  | pinSkillActivation r worker token requested =>
    exact of_map_snd h fun hop => (pinSkillActivation_hidden hw hop).imp_right .inl
  | recordToolAudit q => exact (recordToolAudit_hidden hw h).imp_right .inl
  | append r type data worker token => exact (append_moved hw h).steps (.append r type data worker token)
  | requestCancel username r =>
    obtain ⟨⟨_, _⟩, hop, rfl⟩ := map_eq_ok.mp h
    simp only [requestCancel, ok_rules] at hop
    obtain ⟨p, hread, hop⟩ := hop
    obtain rfl := readCancel_run hread
    rcases writeCancel_moved hw hop with heq | ⟨deed, hdeed, hmoved⟩
    · exact hsame heq.symm
    · exact hmoved.steps (.requestCancel username p.runId hread hdeed)
  | readCancel username r =>
    obtain ⟨_, _, heq⟩ := map_eq_ok.mp h
    exact hsame heq
  | writeCancel position =>
    simp only [Call.transaction] at h
    split at h
    · rename_i p hp
      obtain ⟨⟨_, _⟩, hop, rfl⟩ := map_eq_ok.mp h
      rcases writeCancel_moved hw hop with heq | ⟨deed, hdeed, hmoved⟩
      · exact hsame heq.symm
      · exact hmoved.steps (.writeCancel position hp hdeed)
    · exact hsame (Except.ok.inj h)

theorem exec_steps (hw : s.store.Wf) : call.Steps s (exec s call).store := by
  unfold exec
  dsimp only
  split
  · rename_i store h
    exact Call.steps_of_transaction hw h
  · exact ⟨hw, .inl rfl⟩

/-! ## Reachable systems -/

theorem exec_wf (hw : s.store.Wf) : (exec s call).store.Wf := (exec_steps hw).1

theorem after_wf (users : Table Id User) (calls : List Call) :
    (System.after users calls).store.Wf :=
  Machine.run_preserves (I := fun s : System => s.store.Wf) (fun _ _ hw => exec_wf hw)
    (Store.wf_initial users) calls

/-- What every step of the board that a call can take keeps, the call keeps. -/
theorem exec_keeps {P : Board → Prop} (hw : s.store.Wf) (h : P s.store.board)
    (hstep : ∀ action b, call.Acts s action → Step action s.store.board b → P b) :
    P (exec s call).store.board := by
  rcases (exec_steps hw).2 with hsame | ⟨action, hacts, hs⟩
  · exact hsame ▸ h
  · exact hstep action _ hacts hs

/-- What every step of the board keeps, every run keeps. -/
theorem run_keeps {P : Board → Prop} (hw : s.store.Wf) (h : P s.store.board)
    (hstep : ∀ {action b b'}, Step action b b' → P b → P b') (calls : List Call) :
    P (Machine.run exec s calls).store.board := by
  have hexec : ∀ s call, s.store.Wf ∧ P s.store.board →
      (exec s call).store.Wf ∧ P (exec s call).store.board :=
    fun _ _ hI => ⟨exec_wf hI.1, exec_keeps hI.1 hI.2 fun _ _ _ hs => hstep hs hI.2⟩
  exact (Machine.run_preserves hexec ⟨hw, h⟩ calls).2

omit [ErrorCodec] [Platform] in
theorem board_initial (users : Table Id User) : (Store.initial users).board = fun _ => none := rfl

theorem after_lanes (users : Table Id User) (calls : List Call) :
    (System.after users calls).store.board.Lanes :=
  run_keeps (Store.wf_initial users) (board_initial users ▸ lanes_empty) (fun hs h => hs.lanes h) calls

section Single

variable {P : RunId → RunState → Prop} {ok : RunId → Deed → RunState → Prop}

omit [Platform] in
/-- A call may do to each run only what `ok` allows. -/
def Allowed (ok : RunId → Deed → RunState → Prop) (s : System) (call : Call) : Prop :=
  ∀ r deed x, Call.Does call.env s call.op r deed → s.store.board r = some x → ok r deed x

variable (fresh : ∀ r x, x.Fresh r → x.status = .pending ∨ x.status = .queued → P r x)
  (move : ∀ r deed x y, Move r deed x y → ok r deed x → P r x → P r y)
  (promote : ∀ r x, x.status = .queued → P r x →
    P r ({ x with status := .pending }.replying .streaming))

include fresh move promote

theorem exec_forall (hw : s.store.Wf) (hok : Allowed ok s call)
    (h : ∀ r x, s.store.board r = some x → P r x) :
    ∀ r x, (exec s call).store.board r = some x → P r x := by
  refine exec_keeps (P := fun b => ∀ r x, b r = some x → P r x) hw h fun action b hacts hs => ?_
  refine hs.forall fresh move promote (fun r deed x heq hr => ?_) h
  subst heq
  cases hacts with
  | does hdoes => exact hok r deed x hdoes hr

/-- What holds of fresh runs, is kept by every allowed move and survives promotion holds of
every run in every system that allowed calls reach. -/
theorem run_forall (hw : s.store.Wf) (h : ∀ r x, s.store.board r = some x → P r x)
    {calls : List Call} (hok : Machine.Along exec (Allowed ok) s calls) :
    ∀ r x, (Machine.run exec s calls).store.board r = some x → P r x := by
  have hrun := Machine.run_preserves_along
    (I := fun s : System => s.store.Wf ∧ ∀ r x, s.store.board r = some x → P r x)
    (fun s call hI hallowed => ⟨exec_wf hI.1, exec_forall fresh move promote hI.1 hallowed hI.2⟩)
    ⟨hw, h⟩ hok
  exact hrun.2

theorem after_forall {users : Table Id User} {calls : List Call}
    (hok : Machine.Along exec (Allowed ok) ⟨Store.initial users, []⟩ calls) :
    ∀ r x, (System.after users calls).store.board r = some x → P r x :=
  run_forall fresh move promote (Store.wf_initial users) (fun _ _ hr => by simp [board_initial] at hr)
    hok

end Single

end SuperMew.Runs
