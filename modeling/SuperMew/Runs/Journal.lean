import SuperMew.Runs.Repository

/-! The journal of a run: events that its owner appends, and reading them back. -/

namespace SuperMew.Runs

structure AppendRequest where
  runId : RunId
  eventType : RunEventType
  data : Dict
  workerId : Option String
  fencingToken : Option ℕ

/-- `RunEventJournal.append`. A caller that names a worker or a token must own the run. -/
def append (env : Env) (r : AppendRequest) (s : Store) : Except Fault Store := do
  let run ← orRaise (s.runs.get r.runId) runNotFound
  raiseIf ((r.workerId ≠ none ∨ r.fencingToken ≠ none) ∧
      (r.workerId = none ∨ r.fencingToken = none ∨ run.ownerWorkerId ≠ r.workerId ∨
        some run.fencingToken ≠ r.fencingToken ∨ run.status ∉ [.running, .cancelling]))
    (stateConflict "当前 worker 不再拥有该 Run 的事件写权限")
  let _ ← orAttributeError (s.threads.get run.threadRefId)
  pure (s.appendEvent r.runId r.eventType r.data env.utcnow)

def assertAccess (username : String) (r : RunId) (s : Store) : Except Fault String := do
  let (_, thread) ← orRaise (s.ownedRun username r) runNotFound
  pure thread.threadId

/-- `RunEventV1`, the public form of an event. -/
structure RunEventV1 extends RunEvent where
  threadId : String
  deriving DecidableEq, Repr

/-- The events of a run after a sequence number, the oldest first. -/
def Store.eventsAfter (s : Store) (r : RunId) (after limit : ℤ) : List RunEvent :=
  ((s.events.filter fun e => e.runId == r && decide (max after 0 < (e.sequence : ℤ))).insertionSort
    fun a b => a.sequence ≤ b.sequence).take (max 1 (min limit 1000)).toNat

def readAfter (r : RunId) (after limit : ℤ) (username : Option String) (s : Store) :
    Except Fault (List RunEventV1) := do
  let joined := do
    let run ← s.runs.get r
    let thread ← s.threads.get run.threadRefId
    if ∀ name ∈ username, (s.users.get run.userId).map User.username = some name then some thread
    else none
  let rows := match joined with
    | some thread => (s.eventsAfter r after limit).map fun e => ⟨e, thread.threadId⟩
    | none => []
  match username with
  | some name => do
      if rows = [] then
        let _ ← assertAccess name r s
      pure rows
  | none => pure rows

end SuperMew.Runs
