import SuperMew.Runs.Finalize
import Mathlib.Tactic.Simps.Basic

/-! The life of a run without the tables behind it: who holds it, what its journal says
and which of its checkpoints are answered. A board shows every run, and the transactions
of the repositories are shown elsewhere to be steps on the board. -/

namespace SuperMew.Runs

/-- The assistant message of a run. -/
structure Reply where
  content : String
  status : MessageStatus

structure CheckpointState where
  name : String
  hitlToken : String
  consumed : Bool
  key : Option String
  answer : Option String

structure RunState where
  thread : Id
  /-- The place of the question of the run in its thread. -/
  number : ℕ
  created : Time
  status : RunStatus
  owner : Option String
  lease : Option Time
  token : ℕ
  reply : Reply
  last : ℕ
  journal : List RunEvent
  checkpoints : Id → Option CheckpointState

namespace RunState

variable (x : RunState)

/-- Append an event to the journal of run `r`. -/
@[simps]
def record (r : RunId) (type : RunEventType) (data : Dict) (clock : Time) : RunState :=
  { x with
    last := x.last + 1
    journal := x.journal ++ [⟨r, x.last + 1, type, data, clock⟩] }

/-- The run goes to a worker, under a new token. -/
@[simps]
def taken (worker : String) (lease : Time) : RunState :=
  { x with
    status := .running
    owner := some worker
    lease := some lease
    token := x.token + 1 }

@[simps]
def released (status : RunStatus) : RunState :=
  { x with status := status, owner := none, lease := none }

@[simps]
def replying (status : MessageStatus) : RunState :=
  { x with reply := { x.reply with status := status } }

@[simps]
def setCheckpoint (c : Id) (state : CheckpointState) : RunState :=
  { x with checkpoints := Function.update x.checkpoints c (some state) }

def Latest (c : Id) : Prop := ∀ k state, x.checkpoints k = some state → k ≤ c

end RunState

/-! ## Moves of one run -/

/-- What is done to a run, and under which ticket. -/
inductive Deed where
  | start (worker : String)
  | renew (worker : String) (token : ℕ)
  | suspend (worker : String) (token : ℕ)
  | pause (worker : String) (token : ℕ)
  | accept (c : Id) (worker : Option String)
  | resume (c : Id) (worker : String)
  | mark
  | note (worker : String) (token : ℕ) (type : RunEventType)
  | finish (token : Option ℕ) (target : RunStatus) (code : Option String)

/-- The status that a run ends in when `target` is asked for. -/
def endStatus (status target : RunStatus) : RunStatus :=
  if status = .cancelling then .cancelled else target

/-- The error with which a run ends when `code` is given. -/
def endCode (status target : RunStatus) (code : Option String) : Option String :=
  if status = .cancelling ∧ target ≠ .cancelled then some cancelledPublicError.code else code

/-- What the last two events of a run say. -/
structure Closing where
  message : Dict
  final : Dict
  usage : Option Dict
  clock : Time

/-- The closing events show the stored reply and the error of the run. -/
structure Closing.Shows (e : Closing) (reply : Reply) (code : Option String) : Prop where
  content : e.message.get? "content" = some (.str reply.content)
  status : e.message.get? "status" = some (.str reply.status.value)
  code : e.final.get? "error_code" = some ((code.map Json.str).getD .null)

variable (x : RunState) (r : RunId) (target : RunStatus)

/-- The usage of a run is recorded before its last message, if there is any. -/
def RunState.used (usage : Option Dict) (clock : Time) : RunState :=
  match usage with
  | some data => x.record r .usageUpdated data clock
  | none => x

def RunState.closed (reply : Reply) (e : Closing) : RunState :=
  ((({ x with status := target, lease := none, reply := reply }.used r e.usage e.clock).record r
    .messageCompleted e.message e.clock).record r (terminalType target) e.final e.clock)

/-- The usage shows in the journal only. -/
theorem RunState.used_eq (usage : Option Dict) (clock : Time) :
    x.used r usage clock = { x with
      last := (x.used r usage clock).last
      journal := (x.used r usage clock).journal } := by
  cases usage <;> rfl

@[simp] theorem RunState.closed_status (reply : Reply)
    (e : Closing) : (x.closed r target reply e).status = target := by
  simp only [RunState.closed, RunState.record_status]
  rw [RunState.used_eq]

@[simp] theorem RunState.closed_reply (reply : Reply)
    (e : Closing) : (x.closed r target reply e).reply = reply := by
  simp only [RunState.closed, RunState.record_reply]
  rw [RunState.used_eq]

@[simp] theorem RunState.closed_checkpoints
    (reply : Reply) (e : Closing) : (x.closed r target reply e).checkpoints = x.checkpoints := by
  rw [RunState.closed, RunState.used_eq]
  rfl

inductive Move (r : RunId) : Deed → RunState → RunState → Prop where
  | start {x worker lease data clock} : x.status = .pending ∨ x.status = .running →
      data.get? "resume_checkpoint_id" = none →
      Move r (.start worker) x ((x.taken worker lease).record r .runStarted data clock)
  | renew {x worker token lease} : x.owner = some worker → x.token = token →
      x.status = .running ∨ x.status = .cancelling →
      Move r (.renew worker token) x { x with lease := some lease }
  | suspend {x worker token data clock} : x.owner = some worker → x.token = token →
      x.status.canTransition .waitingInput = true →
      Move r (.suspend worker token) x
        (((x.released .waitingInput).replying .waitingInput).record r .runWaitingInput data clock)
  | pause {x worker token c name hitlToken waiting required clock} : x.owner = some worker →
      x.token = token → x.status = .running →
      (∀ k state, x.checkpoints k = some state → k < c ∧ state.name ≠ name) →
      Move r (.pause worker token) x
        (((((x.setCheckpoint c ⟨name, hitlToken, false, none, none⟩).released
          .waitingInput).replying .waitingInput).record r .runWaitingInput waiting clock).record r
          .hitlRequired required clock)
  | accept {x c state key answer data clock} : x.status = .waitingInput →
      x.checkpoints c = some state → state.consumed = false →
      data.get? "checkpoint_id" = some (.str state.name) →
      Move r (.accept c none) x ((((x.setCheckpoint c
        { state with consumed := true, key := some key, answer := some answer }).released
          .pending).replying .streaming).record r .hitlResumed data clock)
  | acceptStart {x c state key answer worker lease data started clock} :
      x.status = .waitingInput → x.checkpoints c = some state → state.consumed = false →
      data.get? "checkpoint_id" = some (.str state.name) →
      started.get? "resume_checkpoint_id" = some (.str state.name) →
      Move r (.accept c (some worker)) x (((((x.setCheckpoint c
        { state with consumed := true, key := some key, answer := some answer }).taken worker
          lease).replying .streaming).record r .hitlResumed data clock).record r .runStarted
            started clock)
  | resume {x c state worker lease data clock} : x.status = .pending →
      x.checkpoints c = some state → state.consumed = true → x.Latest c →
      data.get? "resume_checkpoint_id" = some (.str state.name) →
      Move r (.resume c worker) x ((x.taken worker lease).record r .runStarted data clock)
  | mark {x data clock} : x.status = .pending ∨ x.status = .running ∨ x.status = .waitingInput →
      Move r .mark x ({ x with status := .cancelling }.record r .warningCreated data clock)
  | note {x worker token type data clock} : x.owner = some worker → x.token = token →
      x.status = .running ∨ x.status = .cancelling →
      Move r (.note worker token type) x (x.record r type data clock)
  | finish {x token target code reply e} : x.status.terminal = false → target.terminal = true →
      (∀ f ∈ token, x.token = f) → x.status.canTransition (endStatus x.status target) = true →
      e.Shows reply (endCode x.status target code) →
      Move r (.finish token target code) x (x.closed r (endStatus x.status target) reply e)

/-! ## Steps of the board -/

abbrev Board := RunId → Option RunState

namespace Board

variable (b : Board)

def Active (t : Id) : Prop := ∃ r x, b r = some x ∧ x.thread = t ∧ x.status.active = true

def Queued (t : Id) (r : RunId) (x : RunState) : Prop :=
  b r = some x ∧ x.thread = t ∧ x.status = .queued

end Board

/-- A run as its reservation leaves it. -/
structure RunState.Fresh (x : RunState) (r : RunId) : Prop where
  owner : x.owner = none
  lease : x.lease = none
  checkpoints : x.checkpoints = fun _ => none
  journal : ∃ data clock, x.journal = [⟨r, 1, .runCreated, data, clock⟩]
  last : x.last = 1

/-- The run that follows a finished one in its thread, if there is a queued one: an oldest
one of them becomes pending. -/
inductive Promote (t : Id) : Board → Board → Prop where
  | idle {b} : (∀ r x, ¬ b.Queued t r x) → Promote t b b
  | next {b r x} : b.Queued t r x → (∀ r' x', b.Queued t r' x' → x.created ≤ x'.created) →
      ¬ b.Active t →
      Promote t b (Function.update b r (some ({ x with status := .pending }.replying .streaming)))

inductive Action where
  | create (r : RunId) (thread : Id) (created : Time)
  | does (r : RunId) (deed : Deed)

inductive Step : Action → Board → Board → Prop where
  | create {b r x} : b r = none → x.Fresh r →
      (x.status = .pending ∧ ¬ b.Active x.thread ∨ x.status = .queued ∧ b.Active x.thread) →
      (∀ r' x', b r' = some x' → x'.thread = x.thread → x'.number < x.number) →
      Step (.create r x.thread x.created) b (Function.update b r (some x))
  | move {b r deed x y} : b r = some x → Move r deed x y → y.status.terminal = false →
      Step (.does r deed) b (Function.update b r (some y))
  | finish {b b' r deed x y} : b r = some x → Move r deed x y → y.status.terminal = true →
      Promote x.thread (Function.update b r (some y)) b' → Step (.does r deed) b b'

end SuperMew.Runs
