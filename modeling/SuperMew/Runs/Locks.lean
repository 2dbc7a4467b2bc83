import SuperMew.Library.Locks
import SuperMew.Runs.Calls
import Mathlib.Logic.Function.Basic

/-! Row locks of the transactions on one thread. Each `SELECT ... FOR UPDATE` takes the lock of
the row that it returns, in the order of the program, and all locks are held to the end of the
transaction. What a transaction writes is left open: its commit may leave any rows. -/

namespace SuperMew.Runs

open Relational Machine Function Locking

inductive Row where
  | thread
  | run (r : RunId)
  | message (m : Id)
  deriving DecidableEq

/-- The operations that lock rows of the thread. -/
inductive Kind where
  | reserve
  | finalize (runId : RunId)
  | claim (runId : RunId)
  | deleteThread
  | appendMessage
  deriving DecidableEq

/-- What the next locking query of a transaction comes to. -/
inductive Answer where
  | locks (row : Row)
  | empty
  /-- The row is required, and its absence ends the transaction. -/
  | missing
  /-- There is no locking query left. -/
  | done

namespace Kind

variable (t : Id) (s : Store)

def lockRun (r : RunId) : Answer := if (s.runs.get r).isSome then .locks (.run r) else .missing

def lockThread : Answer := if (s.threads.get t).isSome then .locks .thread else .missing

def lockFound (row : Option Row) : Answer := (row.map .locks).getD .empty

/-- `_promote_next_queued` in the transaction that has ended run `r`. -/
def lockQueued (r : RunId) : Answer :=
  let ended := match s.runs.get r with
    | some run => s.putRun r { run with status := .cancelled }
    | none => s
  lockFound ((ended.nextQueued t).map fun e => .run e.1)

/-- The locking queries of the operations, in the order of the program. `reserve` and
`append_message` insert the thread if it is not there, and an inserted row is locked as well. -/
def query : Kind → ℕ → Answer
  | .reserve, 0 => .locks .thread
  | .reserve, 1 => lockFound ((s.activeRun t).map fun e => .run e.1)
  | .finalize r, 0 => lockRun s r
  | .finalize _, 1 => lockThread t s
  | .finalize r, 2 =>
    lockFound ((s.runs.get r).bind fun run => run.assistantMessageId.bind fun m =>
      (s.messages.get m).map fun _ => .message m)
  | .finalize r, 3 => lockQueued t s r
  | .claim r, 0 => lockRun s r
  | .deleteThread, 0 => lockThread t s
  | .appendMessage, 0 => .locks .thread
  | _, _ => .done

end Kind

/-- An open transaction, with the number of locking queries that it has passed. -/
structure Transaction where
  kind : Kind
  passed : ℕ
  deriving DecidableEq

structure Locks where
  store : Store
  transactions : ℕ → Option Transaction
  owner : Row → Option ℕ

def Locks.idle (s : Store) : Locks := ⟨s, fun _ => none, fun _ => none⟩

namespace Locks

variable (t : Id)

def answer (l : Locks) (i : ℕ) : Answer :=
  match l.transactions i with
  | some x => x.kind.query t l.store x.passed
  | none => .done

/-- The row that a transaction is about to lock. -/
def request (l : Locks) (i : ℕ) : Option Row :=
  match l.answer t i with
  | .locks row => some row
  | _ => none

def pass (l : Locks) (i : ℕ) : Locks :=
  { l with
    transactions := update l.transactions i
      ((l.transactions i).map fun x => { x with passed := x.passed + 1 }) }

def close (l : Locks) (i : ℕ) (store : Store) : Locks :=
  ⟨store, update l.transactions i none, release l.owner i⟩

end Locks

inductive LockStep where
  | start (i : ℕ) (kind : Kind)
  /-- Transaction `i` runs its next locking query, or goes on waiting for it. -/
  | lock (i : ℕ)
  /-- Transaction `i` commits and leaves these rows, or rolls back. -/
  | finish (i : ℕ) (store : Store)

def LockStep.transaction : LockStep → ℕ
  | .start i _ => i
  | .lock i => i
  | .finish i _ => i

def lockStep (t : Id) (l : Locks) : LockStep → Locks
  | .start i kind =>
    if (l.transactions i).isSome then l
    else { l with transactions := update l.transactions i (some ⟨kind, 0⟩) }
  | .lock i =>
    match l.answer t i with
    | .locks row =>
      if l.owner row = none ∨ l.owner row = some i then
        { l.pass i with owner := update l.owner row (some i) }
      else l
    | .empty => l.pass i
    | .missing => l.close i l.store
    | .done => l
  | .finish i store => l.close i store

/-! ## What is held -/

section Invariant

variable {t : Id} {l : Locks} {i j : ℕ} {x : Transaction}

/-- An operation that locks the thread and then a run. -/
def Kind.Locking : Kind → Prop
  | .reserve => True
  | .finalize _ => True
  | _ => False

def Transaction.HasThread (x : Transaction) : Prop :=
  match x.kind with
  | .finalize _ => 2 ≤ x.passed
  | .claim _ => False
  | _ => 1 ≤ x.passed

/-- A finalization that has locked its run and not yet the thread. -/
def Transaction.Between (x : Transaction) : Prop := (∃ r, x.kind = .finalize r) ∧ x.passed = 1

structure Locks.Sound (l : Locks) : Prop where
  held : ∀ row i, l.owner row = some i → ∃ x, l.transactions i = some x ∧ 1 ≤ x.passed
  thread : ∀ i x, l.transactions i = some x → (x.HasThread ↔ l.owner .thread = some i)

theorem sound_idle (s : Store) : (Locks.idle s).Sound where
  held _ _ h := by cases h
  thread _ _ h := by cases h

variable {s : Store} {row : Row}

theorem lockRun_locks {r : RunId} (h : Kind.lockRun s r = .locks row) : row = .run r := by
  unfold Kind.lockRun at h
  split at h <;> cases h
  rfl

theorem lockThread_locks (h : Kind.lockThread t s = .locks row) : row = .thread := by
  unfold Kind.lockThread at h
  split at h <;> cases h
  rfl

theorem lockRun_ne_empty {r : RunId} : Kind.lockRun s r ≠ .empty := by
  unfold Kind.lockRun
  split <;> simp

theorem lockThread_ne_empty : Kind.lockThread t s ≠ .empty := by
  unfold Kind.lockThread
  split <;> simp

/-- A query that returns a row gets the thread to the transaction exactly if the row is the
thread. -/
theorem query_locks (h : x.kind.query t s x.passed = .locks row) :
    Transaction.HasThread { x with passed := x.passed + 1 } ↔ row = .thread ∨ x.HasThread := by
  obtain ⟨kind, passed⟩ := x
  match kind, passed with
  | .reserve, 0 => cases h; simp [Transaction.HasThread]
  | .reserve, 1 => simp [Transaction.HasThread]
  | .finalize r, 0 => simp [Transaction.HasThread, lockRun_locks h]
  | .finalize r, 1 => simp [Transaction.HasThread, lockThread_locks h]
  | .finalize r, 2 => simp [Transaction.HasThread]
  | .finalize r, 3 => simp [Transaction.HasThread]
  | .claim r, 0 => simp [Transaction.HasThread, lockRun_locks h]
  | .deleteThread, 0 => simp [Transaction.HasThread, lockThread_locks h]
  | .appendMessage, 0 => cases h; simp [Transaction.HasThread]

/-- The thread is never skipped. -/
theorem query_empty (h : x.kind.query t s x.passed = .empty) :
    Transaction.HasThread { x with passed := x.passed + 1 } ↔ x.HasThread := by
  obtain ⟨kind, passed⟩ := x
  match kind, passed with
  | .reserve, 1 => simp [Transaction.HasThread]
  | .finalize r, 0 => exact absurd h lockRun_ne_empty
  | .finalize r, 1 => exact absurd h lockThread_ne_empty
  | .finalize r, 2 => simp [Transaction.HasThread]
  | .finalize r, 3 => simp [Transaction.HasThread]
  | .claim r, 0 => exact absurd h lockRun_ne_empty
  | .deleteThread, 0 => exact absurd h lockThread_ne_empty
  | .appendMessage, 0 => cases h

/-- A transaction that holds a lock and asks for another one has the thread, or asks for it
between the two first locks of a finalization. -/
theorem query_again (h : x.kind.query t s x.passed = .locks row)
    (hpassed : 1 ≤ x.passed) : x.kind.Locking ∧ (x.HasThread ∨ x.Between ∧ row = .thread) := by
  obtain ⟨kind, passed⟩ := x
  match kind, passed with
  | .reserve, 1 => exact ⟨trivial, .inl hpassed⟩
  | .finalize r, 1 => exact ⟨trivial, .inr ⟨⟨⟨r, rfl⟩, rfl⟩, lockThread_locks h⟩⟩
  | .finalize r, 2 => exact ⟨trivial, .inl (Nat.le_refl 2)⟩
  | .finalize r, 3 => exact ⟨trivial, .inl (Nat.le_succ 2)⟩
  | .claim r, n + 1 => cases h
  | .deleteThread, n + 1 => cases h
  | .appendMessage, n + 1 => cases h

/-! ## Steps -/

/-- Transaction `i` gets past its query with these locks: the query returns nothing, or a row that
no other transaction has locked. -/
inductive Passes (t : Id) (l : Locks) (i : ℕ) (x : Transaction) : (Row → Option ℕ) → Prop where
  | empty : x.kind.query t l.store x.passed = .empty → Passes t l i x l.owner
  | locks (row : Row) : x.kind.query t l.store x.passed = .locks row →
      l.owner row = none ∨ l.owner row = some i →
      Passes t l i x (update l.owner row (some i))

/-- What a step does: nothing, or it opens its transaction, takes it past a query, or closes it. -/
theorem lockStep_cases (t : Id) (l : Locks) (step : LockStep) :
    lockStep t l step = l ∨ (∃ kind, l.transactions step.transaction = none ∧ lockStep t l step =
      { l with transactions := update l.transactions step.transaction (some ⟨kind, 0⟩) }) ∨
    (∃ x owner, step = .lock step.transaction ∧ l.transactions step.transaction = some x ∧
      Passes t l step.transaction x owner ∧ lockStep t l step = ⟨l.store,
        update l.transactions step.transaction (some ⟨x.kind, x.passed + 1⟩), owner⟩) ∨
    ∃ store, lockStep t l step = l.close step.transaction store := by
  cases step with
  | start i kind =>
    by_cases h : (l.transactions i).isSome
    · exact .inl (by simp [lockStep, h])
    · exact .inr (.inl ⟨kind, by simpa [LockStep.transaction] using h, by simp [lockStep, h, LockStep.transaction]⟩)
  | lock i =>
    cases hx : l.transactions i with
    | none => exact .inl (by simp [lockStep, Locks.answer, hx])
    | some x =>
      have hanswer : l.answer t i = x.kind.query t l.store x.passed := by simp [Locks.answer, hx]
      cases hq : x.kind.query t l.store x.passed with
      | locks row =>
        by_cases hfree : l.owner row = none ∨ l.owner row = some i
        · refine .inr (.inr (.inl ⟨x, _, rfl, hx, .locks row hq hfree, ?_⟩))
          simp [lockStep, hanswer, hq, hfree, Locks.pass, hx, LockStep.transaction]
        · exact .inl (by simp [lockStep, hanswer, hq, hfree])
      | empty =>
        refine .inr (.inr (.inl ⟨x, _, rfl, hx, .empty hq, ?_⟩))
        simp [lockStep, hanswer, hq, Locks.pass, hx, LockStep.transaction]
      | missing => exact .inr (.inr (.inr ⟨l.store, by simp [lockStep, hanswer, hq]; rfl⟩))
      | done => exact .inl (by simp [lockStep, hanswer, hq])
  | finish i store => exact .inr (.inr (.inr ⟨store, rfl⟩))

theorem run_other {steps : List LockStep} (h : ∀ step ∈ steps, step.transaction ≠ j) :
    (run (lockStep t) l steps).transactions j = l.transactions j := by
  induction steps generalizing l with
  | nil => rfl
  | cons step steps ih =>
    obtain ⟨hne, hsteps⟩ := List.forall_mem_cons.mp h
    rw [run_cons, ih hsteps]
    rcases lockStep_cases t l step with heq | ⟨_, -, heq⟩ | ⟨_, _, -, -, -, heq⟩ | ⟨_, heq⟩ <;> rw [heq]
    all_goals exact update_of_ne (Ne.symm hne) ..

theorem close_eq_some {store : Store} :
    (l.close i store).transactions j = some x ↔ l.transactions j = some x ∧ j ≠ i := by
  by_cases h : j = i <;> simp [Locks.close, h]

section Passes

variable {owner : Row → Option ℕ} (h : Passes t l i x owner)

include h

theorem Passes.other (hj : j ≠ i) : owner row = some j ↔ l.owner row = some j := by
  cases h with
  | empty => rfl
  | locks row' _ hfree =>
    rw [update_eq_some]
    by_cases hrow : row = row'
    · subst hrow
      rcases hfree with hfree | hfree <;> simp [hfree, hj, Ne.symm hj]
    · simp [hrow]

theorem Passes.thread (hx : x.HasThread ↔ l.owner .thread = some i) :
    Transaction.HasThread ⟨x.kind, x.passed + 1⟩ ↔ owner .thread = some i := by
  cases h with
  | empty hq => exact (query_empty hq).trans hx
  | locks row hq =>
    rw [query_locks hq, hx, update_eq_some]
    by_cases hrow : row = .thread
    · simp [hrow]
    · simp [hrow, Ne.symm hrow]

end Passes

theorem not_hasThread_start {kind : Kind} : ¬ Transaction.HasThread ⟨kind, 0⟩ := by
  cases kind <;> simp [Transaction.HasThread]

theorem Locks.Sound.step (h : l.Sound) (step : LockStep) : (lockStep t l step).Sound := by
  rcases lockStep_cases t l step with heq | ⟨kind, hi, heq⟩ | ⟨x, owner, -, hi, hp, heq⟩ |
    ⟨store, heq⟩ <;> rw [heq]
  · exact h
  · have hfree : ∀ row j, l.owner row = some j → j ≠ step.transaction := by
      rintro row _ hj rfl
      obtain ⟨y, hy, -⟩ := h.held row _ hj
      rw [hi] at hy
      cases hy
    refine ⟨fun row j hj => ?_, fun j y hj => ?_⟩
    · obtain ⟨y, hy, hpassed⟩ := h.held row j hj
      exact ⟨y, by simp [hfree row j hj, hy], hpassed⟩
    · rcases update_eq_some.mp hj with ⟨rfl, rfl⟩ | ⟨-, hj⟩
      · exact iff_of_false not_hasThread_start fun howner => hfree _ _ howner rfl
      · exact h.thread j y hj
  · refine ⟨fun row j hj => ?_, fun j y hj => ?_⟩
    · by_cases hji : j = step.transaction
      · exact ⟨⟨x.kind, x.passed + 1⟩, by simp [hji], Nat.le_add_left 1 _⟩
      · obtain ⟨y, hy, hpassed⟩ := h.held row j ((hp.other hji).mp hj)
        exact ⟨y, by simp [hji, hy], hpassed⟩
    · rcases update_eq_some.mp hj with ⟨rfl, rfl⟩ | ⟨hji, hj⟩
      · exact hp.thread (h.thread _ x hi)
      · exact (h.thread j y hj).trans (hp.other hji).symm
  · refine ⟨fun row j hj => ?_, fun j y hj => ?_⟩
    · obtain ⟨howner, hne⟩ := release_eq_some.mp hj
      obtain ⟨y, hy, hpassed⟩ := h.held row j howner
      exact ⟨y, close_eq_some.mpr ⟨hy, hne⟩, hpassed⟩
    · obtain ⟨hj, hne⟩ := close_eq_some.mp hj
      rw [h.thread j y hj]
      exact (release_eq_some.trans (and_iff_left hne)).symm

/-! ## Order -/

/-- The run and the thread of a finalization are locked as one: it locks its run only while no
other reservation or finalization has the thread, and these lock the thread only while no other
finalization is between its two locks. -/
def Orderly (t : Id) (l : Locks) : LockStep → Prop
  | .lock i => ∀ x, l.transactions i = some x →
      ((∃ r, x.kind = .finalize r) → x.passed = 0 → ∀ j y, l.owner .thread = some j →
        l.transactions j = some y → ¬ y.kind.Locking) ∧
      (x.kind.Locking → l.request t i = some .thread → ∀ j y, j ≠ i → l.transactions j = some y →
        ¬ y.Between)
  | _ => True

/-- While a finalization is between its two locks, no other one and no reservation has the
thread. -/
def Locks.Ordered (l : Locks) : Prop :=
  ∀ i j x y, l.transactions i = some x → x.Between → l.owner .thread = some j →
    l.transactions j = some y → ¬ y.kind.Locking

theorem Locks.Ordered.step (hs : l.Sound) (h : l.Ordered) {step : LockStep} (hok : Orderly t l step) :
    (lockStep t l step).Ordered := by
  intro a b y z ha hbetween howner hb hlocking
  rcases lockStep_cases t l step with heq | ⟨kind, hi, heq⟩ | ⟨x, owner, hstep, hi, hp, heq⟩ |
    ⟨store, heq⟩ <;> rw [heq] at ha howner hb
  · exact h a b y z ha hbetween howner hb hlocking
  · rcases update_eq_some.mp ha with ⟨rfl, rfl⟩ | ⟨-, ha⟩
    · cases hbetween.2
    · rcases update_eq_some.mp hb with ⟨rfl, rfl⟩ | ⟨-, hb⟩
      · obtain ⟨z, hz, -⟩ := hs.held _ _ howner
        rw [hi] at hz
        cases hz
      · exact h a b y z ha hbetween howner hb hlocking
  · rw [hstep] at hok
    obtain ⟨hfirst, hthread⟩ := hok x hi
    rcases update_eq_some.mp ha with ⟨rfl, rfl⟩ | ⟨hai, hold⟩
    · -- the finalization has just locked its run
      obtain ⟨⟨r, hkind⟩, hpassed⟩ := hbetween
      have hzero : x.passed = 0 := Nat.succ_injective hpassed
      have hne : b ≠ step.transaction := by
        rintro rfl
        have hthread := (hp.thread (hs.thread _ x hi)).mpr howner
        simp [Transaction.HasThread, show x.kind = .finalize r from hkind, hzero] at hthread
      have hb : l.transactions b = some z := by simpa [hne] using hb
      exact hfirst ⟨r, hkind⟩ hzero b z ((hp.other hne).mp howner) hb hlocking
    · have hkept : l.owner .thread = some b := by
        cases hp with
        | empty => exact howner
        | locks row hq =>
          rcases update_eq_some.mp howner with ⟨rfl, rfl⟩ | ⟨-, hkept⟩
          · -- another transaction has just locked the thread
            obtain rfl : z = ⟨x.kind, x.passed + 1⟩ := by simpa using hb.symm
            refine absurd hbetween (hthread hlocking ?_ a y hai hold)
            simp [Locks.request, Locks.answer, hi, hq]
          · exact hkept
      rcases update_eq_some.mp hb with ⟨rfl, rfl⟩ | ⟨-, hb⟩
      · exact h a _ y x hold hbetween hkept hi hlocking
      · exact h a b y z hold hbetween hkept hb hlocking
  · exact h a b y z (close_eq_some.mp ha).1 hbetween (release_eq_some.mp howner).1
      (close_eq_some.mp hb).1 hlocking

theorem request_eq_some (h : l.request t i = some row) :
    ∃ x, l.transactions i = some x ∧ x.kind.query t l.store x.passed = .locks row := by
  unfold Locks.request Locks.answer at h
  cases hi : l.transactions i with
  | none => simp [hi] at h
  | some x =>
    rw [hi] at h
    dsimp only at h
    split at h
    · rename_i row' hq
      exact ⟨x, rfl, by rw [hq, Option.some.inj h]⟩
    · cases h

/-- Whoever holds a lock in a cycle and waits for another one has the thread. -/
theorem thread_of_cycle (hs : l.Sound) (ho : l.Ordered)
    (hi : Relation.TransGen (Locking.Waits l.owner (l.request t)) i i) : l.owner .thread = some i := by
  -- a member of a cycle asks for a row, and holds one
  have hmember : ∀ {i}, Relation.TransGen (Locking.Waits l.owner (l.request t)) i i →
      ∃ x row j, l.transactions i = some x ∧ x.kind.query t l.store x.passed = .locks row ∧
        1 ≤ x.passed ∧ l.owner row = some j ∧
        Relation.TransGen (Locking.Waits l.owner (l.request t)) j j := by
    intro i hi
    obtain ⟨j, ⟨row, hrequest, howner, -⟩, hj⟩ := cycle_next hi
    obtain ⟨_, _, -, hheld, -⟩ := cycle_prev hi
    obtain ⟨x, hx, hq⟩ := request_eq_some hrequest
    obtain ⟨y, hy, hpassed⟩ := hs.held _ _ hheld
    cases hx.symm.trans hy
    exact ⟨x, row, j, hx, hq, hpassed, howner, hj⟩
  obtain ⟨x, row, j, hx, hq, hpassed, howner, hj⟩ := hmember hi
  obtain ⟨-, hthread | ⟨hbetween, rfl⟩⟩ := query_again hq hpassed
  · exact (hs.thread i x hx).mp hthread
  · obtain ⟨y, _, _, hy, hq', hpassed', -⟩ := hmember hj
    exact absurd (query_again hq' hpassed').1 (ho i j x y hx hbetween howner hy)

/-- If finalizations lock their run and the thread as one, then no transactions on the thread
ever wait for each other in a cycle. -/
theorem no_lock_cycle (t : Id) (s : Store) (steps : List LockStep)
    (hok : Machine.Along (lockStep t) (Orderly t) (Locks.idle s) steps) (i : ℕ) :
    ¬ Relation.TransGen (Locking.Waits (run (lockStep t) (Locks.idle s) steps).owner
      ((run (lockStep t) (Locks.idle s) steps).request t)) i i := by
  have hrun := run_preserves_along (I := fun l : Locks => l.Sound ∧ l.Ordered)
    (fun _ step h hok => ⟨h.1.step step, h.2.step h.1 hok⟩)
    ⟨sound_idle s, fun _ _ _ _ h => by cases h⟩ hok
  exact acyclic_of_root .thread (fun _ hi => thread_of_cycle hrun.1 hrun.2 hi) i

end Invariant

namespace Sample

def busy [ErrorCodec] [Platform] : Store := (System.after users [ask 1 "a", take 2 "a" "w"]).store

/-- A reservation has locked the thread, and the finalization of the running run its run. -/
def crossed : List LockStep := [.start 0 .reserve, .start 1 (.finalize "a"), .lock 0, .lock 1]

/-- The finalization comes first, and the reservation waits for the thread. -/
def inTurn : List LockStep :=
  [.start 0 .reserve, .start 1 (.finalize "a"), .lock 1, .lock 1, .lock 0]

end Sample

open PlainPlatform Sample in
/-- The reservation waits for the active run, and the finalization for the thread. -/
theorem reserve_and_finalize_deadlock :
    Relation.TransGen (Locking.Waits (run (lockStep 1) (Locks.idle busy) crossed).owner
      ((run (lockStep 1) (Locks.idle busy) crossed).request 1)) 0 0 := by
  have hwaits : ((run (lockStep 1) (Locks.idle busy) crossed).request 1 0 = some (.run "a") ∧
      (run (lockStep 1) (Locks.idle busy) crossed).owner (.run "a") = some 1) ∧
      (run (lockStep 1) (Locks.idle busy) crossed).request 1 1 = some .thread ∧
      (run (lockStep 1) (Locks.idle busy) crossed).owner .thread = some 0 := by
    decide +kernel
  obtain ⟨⟨hrequest, howner⟩, hrequest', howner'⟩ := hwaits
  exact .tail (.single ⟨_, hrequest, howner, by decide⟩) ⟨_, hrequest', howner', by decide⟩

/-- With two transactions it is enough to look at these. -/
theorem orderly_of_two {t : Id} {s : Store} {steps : List LockStep} {i k : ℕ} {x y : Transaction}
    (hsteps : ∀ step ∈ steps, step.transaction = i ∨ step.transaction = k)
    (hx : (run (lockStep t) (Locks.idle s) steps).transactions i = some x)
    (hy : (run (lockStep t) (Locks.idle s) steps).transactions k = some y)
    (hfree : (run (lockStep t) (Locks.idle s) steps).owner .thread = none ∨ x.passed ≠ 0 ∨
      x.kind = .reserve)
    (hbetween : y.passed ≠ 1) :
    Orderly t (run (lockStep t) (Locks.idle s) steps) (.lock i) := by
  intro x' hx'
  cases hx.symm.trans hx'
  refine ⟨fun ⟨r, hkind⟩ hzero j _ howner => ?_, fun _ _ j z hji hz hb => ?_⟩
  · rcases hfree with hfree | hpassed | hreserve
    · simp [hfree] at howner
    · exact absurd hzero hpassed
    · rw [hkind] at hreserve
      cases hreserve
  · by_cases hjk : j = k
    · cases hy.symm.trans (hjk ▸ hz)
      exact hbetween hb.2
    · have hnone : (run (lockStep t) (Locks.idle s) steps).transactions j = none := by
        refine run_other fun step hstep => ?_
        rcases hsteps step hstep with h | h <;> rw [h]
        · exact Ne.symm hji
        · exact Ne.symm hjk
      rw [hnone] at hz
      cases hz

open PlainPlatform Sample in
theorem no_cycle_in_turn : ¬ Relation.TransGen
    (Locking.Waits (run (lockStep 1) (Locks.idle busy) inTurn).owner
      ((run (lockStep 1) (Locks.idle busy) inTurn).request 1)) 0 0 := by
  have hok : ∀ n i k x y, (∀ step ∈ inTurn.take n, step.transaction = i ∨ step.transaction = k) →
      (run (lockStep 1) (Locks.idle busy) (inTurn.take n)).transactions i = some x ∧
      (run (lockStep 1) (Locks.idle busy) (inTurn.take n)).transactions k = some y ∧
      ((run (lockStep 1) (Locks.idle busy) (inTurn.take n)).owner .thread = none ∨
        x.passed ≠ 0 ∨ x.kind = .reserve) ∧ y.passed ≠ 1 →
      Orderly 1 (run (lockStep 1) (Locks.idle busy) (inTurn.take n)) (.lock i) :=
    fun n i k x y hsteps h => orderly_of_two hsteps h.1 h.2.1 h.2.2.1 h.2.2.2
  refine no_lock_cycle 1 busy inTurn ⟨trivial, trivial, ?_, ?_, ?_, trivial⟩ 0
  · exact hok 2 1 0 ⟨.finalize "a", 0⟩ ⟨.reserve, 0⟩ (by decide) (by decide +kernel)
  · exact hok 3 1 0 ⟨.finalize "a", 1⟩ ⟨.reserve, 0⟩ (by decide) (by decide +kernel)
  · exact hok 4 0 1 ⟨.reserve, 0⟩ ⟨.finalize "a", 2⟩ (by decide) (by decide +kernel)

end SuperMew.Runs
