import Mathlib.Order.Nat
import Mathlib.Data.List.Basic

/-! Runs of a deterministic machine whose inputs carry everything it reads from
outside: every interleaving of callers is a list of inputs. -/

namespace Machine

variable {σ ι : Type} (exec : σ → ι → σ)

def run (s : σ) (inputs : List ι) : σ := inputs.foldl exec s

@[simp] theorem run_nil (s : σ) : run exec s [] = s := rfl

@[simp] theorem run_cons (s : σ) (i : ι) (inputs : List ι) :
    run exec s (i :: inputs) = run exec (exec s i) inputs := rfl

@[simp] theorem run_append (s : σ) (xs ys : List ι) :
    run exec s (xs ++ ys) = run exec (run exec s xs) ys :=
  List.foldl_append

/-- `Along ok s inputs` says that every input of the run meets `ok` in the state
in which it is taken. -/
def Along (ok : σ → ι → Prop) : σ → List ι → Prop
  | _, [] => True
  | s, i :: inputs => ok s i ∧ Along ok (exec s i) inputs

variable {exec} {ok : σ → ι → Prop}

instance decidableAlong [∀ s i, Decidable (ok s i)] :
    (s : σ) → (inputs : List ι) → Decidable (Along exec ok s inputs)
  | _, [] => .isTrue trivial
  | s, i :: inputs => @instDecidableAnd _ _ _ (decidableAlong (exec s i) inputs)

variable {s : σ} {inputs : List ι} {I : σ → Prop}

theorem along_append {xs ys : List ι} :
    Along exec ok s (xs ++ ys) ↔ Along exec ok s xs ∧ Along exec ok (run exec s xs) ys := by
  induction xs generalizing s with
  | nil => simp [Along]
  | cons i xs ih => simp [Along, ih, and_assoc]

/-- Every input meets `ok` in the state that the inputs before it lead to. -/
theorem along_iff_forall_split :
    Along exec ok s inputs ↔ ∀ xs i ys, inputs = xs ++ i :: ys → ok (run exec s xs) i := by
  constructor
  · rintro h xs i ys rfl
    exact (along_append.mp h).2.1
  · intro h
    induction inputs generalizing s with
    | nil => trivial
    | cons i inputs ih =>
      refine ⟨h [] i inputs rfl, ih fun xs j ys hsplit => ?_⟩
      exact h (i :: xs) j ys (by rw [hsplit, List.cons_append])

theorem along_of_forall (h : ∀ s i, ok s i) : Along exec ok s inputs := by
  induction inputs generalizing s with
  | nil => trivial
  | cons i inputs ih => exact ⟨h s i, ih⟩

theorem along_of_mem (h : ∀ i ∈ inputs, ∀ s, ok s i) : Along exec ok s inputs := by
  induction inputs generalizing s with
  | nil => trivial
  | cons i inputs ih =>
    exact ⟨h i List.mem_cons_self s, ih fun j hj => h j (List.mem_cons_of_mem i hj)⟩

variable {ok' : σ → ι → Prop}

theorem Along.imp (h : ∀ s i, ok s i → ok' s i)
    (ha : Along exec ok s inputs) : Along exec ok' s inputs := by
  induction inputs generalizing s with
  | nil => trivial
  | cons i inputs ih => exact ⟨h s i ha.1, ih ha.2⟩

theorem Along.and (ha : Along exec ok s inputs)
    (hb : Along exec ok' s inputs) : Along exec (fun s i => ok s i ∧ ok' s i) s inputs := by
  induction inputs generalizing s with
  | nil => trivial
  | cons i inputs ih => exact ⟨⟨ha.1, hb.1⟩, ih ha.2 hb.2⟩

/-- What every admitted input preserves holds at the end of every admitted run. -/
theorem run_preserves_along (step : ∀ s i, I s → ok s i → I (exec s i)) (hs : I s)
    (ha : Along exec ok s inputs) : I (run exec s inputs) := by
  induction inputs generalizing s with
  | nil => exact hs
  | cons i inputs ih => exact ih (step s i hs ha.1) ha.2

theorem run_preserves (step : ∀ s i, I s → I (exec s i))
    (hs : I s) (inputs : List ι) : I (run exec s inputs) := by
  have ha : Along exec (fun _ _ => True) s inputs := along_of_forall fun _ _ => trivial
  exact run_preserves_along (fun s i h _ => step s i h) hs ha

/-- A reflexive and transitive relation that holds across one step, from states
with the invariant `I`, holds across every run. -/
theorem run_rel {R : σ → σ → Prop} (refl : ∀ s, R s s) (trans : ∀ {a b c}, R a b → R b c → R a c)
    (inv : ∀ s i, I s → I (exec s i)) (step : ∀ s i, I s → R s (exec s i)) (hs : I s)
    (inputs : List ι) : R s (run exec s inputs) := by
  induction inputs generalizing s with
  | nil => exact refl s
  | cons i inputs ih => exact trans (step s i hs) (ih (inv s i hs))

/-! ## Clocks -/

/-- The clock readings of a run never decrease and start no earlier than `t`. -/
def ClockFrom (clock : ι → ℕ) : ℕ → List ι → Prop
  | _, [] => True
  | t, i :: inputs => t ≤ clock i ∧ ClockFrom clock (clock i) inputs

variable {I : ℕ → σ → Prop}

/-- A timed invariant: `I t s` is kept by every input whose clock is not before `t`, so
it holds at the end of a run, at a time from which the run can go on. -/
theorem run_preserves_timed {clock : ι → ℕ}
    (step : ∀ t s i, I t s → t ≤ clock i → ok s i → I (clock i) (exec s i)) {t : ℕ}
    {rest : List ι} (hs : I t s) (hc : ClockFrom clock t (inputs ++ rest))
    (ha : Along exec ok s inputs) : ∃ t', ClockFrom clock t' rest ∧ I t' (run exec s inputs) := by
  induction inputs generalizing t s with
  | nil => exact ⟨t, hc, hs⟩
  | cons i inputs ih => exact ih (step t s i hs hc.1 ha.1) hc.2 ha.2

/-- A timed invariant that lets every input through lets the whole run through. -/
theorem along_of_timed {clock : ι → ℕ}
    (step : ∀ t s i, I t s → t ≤ clock i → I (clock i) (exec s i))
    (lets : ∀ t s i, I t s → t ≤ clock i → ok s i) {t : ℕ}
    (hs : I t s) (hc : ClockFrom clock t inputs) : Along exec ok s inputs := by
  induction inputs generalizing t s with
  | nil => trivial
  | cons i inputs ih => exact ⟨lets t s i hs hc.1, ih (step t s i hs hc.1) hc.2⟩

end Machine
