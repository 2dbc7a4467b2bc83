import SuperMew.Runs.Calls

/-! Subscriptions to the events of a run. A subscription is a loop that reads the journal in
batches, and the calls that append to the journal run between its rounds. -/

namespace SuperMew.Events

open Runs

/-- A subscription between two rounds of its loop. It has yielded events, and heartbeats as
`none`. -/
structure Subscription where
  runId : RunId
  heartbeat : Time
  cursor : ℕ
  heartbeatDeadline : Time
  yielded : List (Option RunEventV1)
  returned : Bool

/-- The head of `subscribe`, up to the loop. -/
def subscribe (username : String) (r : RunId) (after : ℤ) (heartbeat now : Time) (s : Store) :
    Except Fault Subscription := do
  let _ ← assertAccess username r s
  pure ⟨r, heartbeat, (max after 0).toNat, now + heartbeat, [], false⟩

namespace Subscription

variable (sub : Subscription)

/-- Yield one event; a terminal one ends the subscription. -/
def yieldEvent (e : RunEventV1) : Subscription :=
  { sub with
    cursor := e.sequence
    yielded := sub.yielded ++ [some e]
    returned := e.type.terminal }

def deliver (sub : Subscription) : List RunEventV1 → Subscription
  | [] => sub
  | e :: events =>
    if e.sequence ≤ sub.cursor then sub.deliver events
    else if e.type.terminal = true then sub.yieldEvent e
    else (sub.yieldEvent e).deliver events

def events : List RunEventV1 := sub.yielded.reduceOption

end Subscription

/-- What a round of the loop takes from outside: the size of its batch, and the clock of the
event loop, which it reads twice at most. -/
structure Round where
  limit : ℤ
  now : Time
  later : Time

/-- One round of the loop of `subscribe`. A round that finds no event and no heartbeat due
waits for the transport or for the poll interval, and neither changes the subscription. -/
def Subscription.round (sub : Subscription) (p : Round) (s : Store) : Subscription :=
  if sub.returned then sub
  else match readAfter sub.runId sub.cursor p.limit none s with
    | .ok (e :: events) =>
      let sub := sub.deliver (e :: events)
      if sub.returned then sub
      else { sub with heartbeatDeadline := p.later + sub.heartbeat }
    | .ok [] =>
      if sub.heartbeatDeadline ≤ p.now then
        { sub with
          yielded := sub.yielded ++ [none]
          heartbeatDeadline := p.later + sub.heartbeat }
      else sub
    -- without a user to check, `read_after` raises nothing
    | .error _ => sub

/-! ## A subscription beside the calls -/

structure Stream where
  system : System
  subscription : Subscription

inductive Input where
  | call (call : Call)
  | round (p : Round)

def Input.isRound : Input → Bool
  | .call _ => false
  | .round _ => true

variable [ErrorCodec] [Platform]

def step (w : Stream) : Input → Stream
  | .call call => { w with system := exec w.system call }
  | .round p => { w with subscription := w.subscription.round p w.system.store }

end SuperMew.Events
