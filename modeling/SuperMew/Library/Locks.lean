import Mathlib.Logic.Relation

/-! Exclusive locks and the transactions that wait for them. -/

namespace Locking

variable {ρ τ : Type}

/-- Transaction `i` asks for a lock that transaction `j` holds. -/
def Waits (owner : ρ → Option τ) (request : τ → Option ρ) (i j : τ) : Prop :=
  ∃ x, request i = some x ∧ owner x = some j ∧ j ≠ i

/-- All locks of a transaction are given back. -/
def release [DecidableEq τ] (owner : ρ → Option τ) (i : τ) : ρ → Option τ :=
  fun x => if owner x = some i then none else owner x

theorem release_eq_some [DecidableEq τ] {owner : ρ → Option τ} {i j : τ} {x : ρ} :
    release owner i x = some j ↔ owner x = some j ∧ j ≠ i := by
  unfold release
  split
  · rename_i h
    rw [h]
    constructor
    · rintro ⟨⟩
    · rintro ⟨heq, hne⟩
      exact absurd (Option.some.inj heq).symm hne
  · rename_i h
    refine ⟨fun heq => ⟨heq, ?_⟩, fun heq => heq.1⟩
    rintro rfl
    exact h heq

/-! ## Cycles -/

variable {R : τ → τ → Prop} {i : τ}

theorem cycle_next (h : Relation.TransGen R i i) : ∃ j, R i j ∧ Relation.TransGen R j j := by
  obtain ⟨j, hij, hji⟩ := Relation.TransGen.head'_iff.mp h
  exact ⟨j, hij, Relation.TransGen.tail' hji hij⟩

theorem cycle_prev (h : Relation.TransGen R i i) : ∃ j, R j i := by
  obtain ⟨j, -, hji⟩ := Relation.TransGen.tail'_iff.mp h
  exact ⟨j, hji⟩

/-- If whoever is in a cycle holds one and the same lock, there is no cycle. -/
theorem acyclic_of_root {owner : ρ → Option τ} {request : τ → Option ρ} (root : ρ)
    (h : ∀ i, Relation.TransGen (Waits owner request) i i → owner root = some i) (i : τ) :
    ¬ Relation.TransGen (Waits owner request) i i := by
  intro hi
  obtain ⟨j, ⟨_, -, -, hne⟩, hj⟩ := cycle_next hi
  exact hne (Option.some.inj ((h j hj).symm.trans (h i hi)))

end Locking
