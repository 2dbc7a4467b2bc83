import Mathlib.Order.Notation

/-! The statuses of a run and the transitions between them. -/

namespace SuperMew.Runs

inductive RunStatus where
  | queued
  | pending
  | running
  | waitingInput
  | cancelling
  | succeeded
  | failed
  | cancelled
  deriving DecidableEq, Repr

variable {status : RunStatus}

namespace RunStatus

def value : RunStatus → String
  | queued => "queued"
  | pending => "pending"
  | running => "running"
  | waitingInput => "waiting_input"
  | cancelling => "cancelling"
  | succeeded => "succeeded"
  | failed => "failed"
  | cancelled => "cancelled"

def active : RunStatus → Bool
  | pending | running | waitingInput | cancelling => true
  | _ => false

def terminal : RunStatus → Bool
  | succeeded | failed | cancelled => true
  | _ => false

def allowedTransitions : RunStatus → List RunStatus
  | queued => [pending, cancelled]
  | pending => [running, cancelling, cancelled, failed]
  | running => [waitingInput, cancelling, succeeded, failed, cancelled]
  | waitingInput => [pending, running, cancelling, cancelled, failed]
  | cancelling => [cancelled, failed]
  | _ => []

def canTransition (current target : RunStatus) : Bool :=
  current == target || current.allowedTransitions.contains target

theorem terminal_not_active (h : status.terminal = true) : status.active = false := by
  cases status <;> simp_all [terminal, active]

theorem not_terminal_of_active (h : status.active = true) : status.terminal = false := by
  cases status <;> simp_all [terminal, active]

theorem queued_not_active : queued.active = false := rfl

theorem terminal_ne_queued (h : status.terminal = true) : status ≠ .queued := by
  rintro rfl
  cases h

end RunStatus

inductive MultitaskStrategy where
  | reject
  | enqueue
  | cancelPrevious
  deriving DecidableEq, Repr

def MultitaskStrategy.value : MultitaskStrategy → String
  | reject => "reject"
  | enqueue => "enqueue"
  | cancelPrevious => "cancel_previous"

end SuperMew.Runs
