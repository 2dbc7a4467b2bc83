import Mathlib.Order.Nat

/-! A fenced lease: an owner, a counter raised at every acquisition and an expiry
time. A ticket names an owner and a counter value. -/

namespace Lease

/-- The register that a lease is kept in. -/
structure Register (ω : Type) where
  owner : Option ω
  fence : ℕ
  expiresAt : Option ℕ

/-- What an execution presents to prove that it still owns the work. -/
structure Ticket (ω : Type) where
  worker : ω
  fence : ℕ
  deriving DecidableEq, Repr

variable {ω : Type}

/-- The ticket is the one last issued and has not run out at `clock`. -/
def Register.Holds (r : Register ω) (clock : ℕ) (k : Ticket ω) : Prop :=
  r.owner = some k.worker ∧ r.fence = k.fence ∧ ∃ e, r.expiresAt = some e ∧ clock < e

/-- Nobody holds the lease at `clock`. -/
def Register.Free (r : Register ω) (clock : ℕ) : Prop :=
  r.owner = none ∨ r.expiresAt = none ∨ ∃ e, r.expiresAt = some e ∧ e ≤ clock

/-- The moves of a register: nothing, a new acquisition of a free lease, a renewal
by the live holder, and giving the lease up. -/
inductive Register.Step (clock : ℕ) : Register ω → Register ω → Prop where
  | keep (r) : Step clock r r
  | acquire (r w e) : r.Free clock → Step clock r ⟨some w, r.fence + 1, some e⟩
  | renew (r k e) : r.Holds clock k → Step clock r { r with expiresAt := some e }
  | release (r) : Step clock r { r with owner := none, expiresAt := none }

variable {r r' : Register ω} {clock : ℕ} {k : Ticket ω}

theorem Register.Holds.unique {k' : Ticket ω}
    (h : r.Holds clock k) (h' : r.Holds clock k') : k = k' := by
  obtain ⟨ho, hf, _⟩ := h
  obtain ⟨ho', hf', _⟩ := h'
  cases k
  cases k'
  simp_all


/-- The ticket was issued at the latest by now, and it is not the live one. -/
def Register.Lost (r : Register ω) (clock : ℕ) (k : Ticket ω) : Prop :=
  k.fence ≤ r.fence ∧ ¬ r.Holds clock k

theorem Register.Step.fence_le (h : Step clock r r') : r.fence ≤ r'.fence := by
  cases h with
  | keep | renew | release => exact le_rfl
  | acquire => exact Nat.le_succ _

theorem Register.Lost.later {t : ℕ} (h : r.Lost t k) (ht : t ≤ clock) : r.Lost clock k := by
  refine ⟨h.1, ?_⟩
  rintro ⟨ho, hf, e, he, hlt⟩
  exact h.2 ⟨ho, hf, e, he, lt_of_le_of_lt ht hlt⟩

/-- A lost ticket stays lost: only an acquisition makes a ticket live, and it
issues a larger fence. -/
theorem Register.Lost.step (h : r.Lost clock k) (hs : Step clock r r') : r'.Lost clock k := by
  refine ⟨h.1.trans hs.fence_le, ?_⟩
  cases hs with
  | keep => exact h.2
  | acquire w e hf =>
    rintro ⟨_, hfence, _⟩
    exact absurd hfence (Nat.ne_of_gt (Nat.lt_succ_of_le h.1))
  | renew k' e hk' =>
    rintro ⟨ho, hf, _⟩
    exact h.2 ⟨ho, hf, hk'.2.2⟩
  | release =>
    rintro ⟨ho, _⟩
    simp at ho

/-! ## Ownership regardless of time -/

/-- The register names the ticket, whether or not its time has run out. -/
def Register.Carries (r : Register ω) (k : Ticket ω) : Prop :=
  r.owner = some k.worker ∧ r.fence = k.fence

theorem Register.Holds.carries (h : r.Holds clock k) : r.Carries k := ⟨h.1, h.2.1⟩

/-- A ticket that has been issued is never named again once it is not. -/
theorem Register.Step.carries_before
    (hs : Step clock r r') (hissued : k.fence ≤ r.fence) (h : r'.Carries k) : r.Carries k := by
  cases hs with
  | keep | renew k' e hk' => exact h
  | acquire w e hf => exact absurd h.2 (Nat.ne_of_gt (Nat.lt_succ_of_le hissued))
  | release => simp [Register.Carries] at h

end Lease
