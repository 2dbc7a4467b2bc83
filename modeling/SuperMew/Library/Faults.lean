import Mathlib.Data.List.Basic

/-! Computations that call outside services. Every call is written to a log with its
answer, and the log outlives an exception. -/

namespace Faults

/-- A computation that raises exceptions `ε`, with the log `κ` of the calls it made. -/
structure Traced (κ ε α : Type) where
  calls : List κ
  result : Except ε α

namespace Traced

variable {κ κ' ε α β : Type}

instance : Monad (Traced κ ε) where
  pure a := ⟨[], .ok a⟩
  bind x f :=
    match x.result with
    | .error e => ⟨x.calls, .error e⟩
    | .ok a => ⟨x.calls ++ (f a).calls, (f a).result⟩

/-- A call that is logged with its answer. -/
def call (entry : Except ε α → κ) (answer : Except ε α) : Traced κ ε α := ⟨[entry answer], answer⟩

def raise (e : ε) : Traced κ ε α := ⟨[], .error e⟩

/-- `try: ... except`: the exceptions that `handler` knows become results. -/
def rescue (x : Traced κ ε α) (handler : ε → Option α) : Traced κ ε α :=
  match x.result with
  | .ok _ => x
  | .error e =>
    match handler e with
    | some a => ⟨x.calls, .ok a⟩
    | none => x

/-- The same computation, with its calls logged under other names. -/
def relabel (f : κ → κ') (x : Traced κ ε α) : Traced κ' ε α := ⟨x.calls.map f, x.result⟩

theorem pure_result (a : α) : (pure a : Traced κ ε α).result = .ok a := rfl

@[simp] theorem raise_result (e : ε) : (raise e : Traced κ ε α).result = .error e := rfl

theorem pure_calls (a : α) : (pure a : Traced κ ε α).calls = [] := rfl

theorem bind_of_ok {x : Traced κ ε α} {a : α} (h : x.result = .ok a) (f : α → Traced κ ε β) :
    x >>= f = ⟨x.calls ++ (f a).calls, (f a).result⟩ := by
  simp [bind, h]

theorem bind_of_error {x : Traced κ ε α} {e : ε} (h : x.result = .error e)
    (f : α → Traced κ ε β) : x >>= f = ⟨x.calls, .error e⟩ := by
  simp [bind, h]

theorem bind_eq_self {x : Traced κ ε α} {f : α → Traced κ ε α}
    (h : ∀ a, x.result = .ok a → f a = pure a) : x >>= f = x := by
  obtain ⟨calls, result⟩ := x
  cases result <;> simp_all [bind, pure]

theorem bind_result_eq_ok {x : Traced κ ε α} {f : α → Traced κ ε β} {b : β} :
    (x >>= f).result = .ok b ↔ ∃ a, x.result = .ok a ∧ (f a).result = .ok b := by
  cases h : x.result with
  | error e => simp [bind_of_error h]
  | ok a => simp [bind_of_ok h]

@[simp] theorem bind_pure_calls (x : Traced κ ε α) (f : α → β) :
    (x >>= fun a => pure (f a)).calls = x.calls := by
  cases h : x.result with
  | error e => rw [bind_of_error h]
  | ok a => simp [bind_of_ok h, pure_calls]

@[simp] theorem bind_pure_result (x : Traced κ ε α) (f : α → β) :
    (x >>= fun a => pure (f a)).result = x.result.map f := by
  cases h : x.result with
  | error e => simp [bind_of_error h, Except.map]
  | ok a => simp [bind_of_ok h, pure_result, Except.map]

theorem rescue_result (x : Traced κ ε α) (handler : ε → Option α) :
    (x.rescue handler).result = match x.result with
      | .ok a => .ok a
      | .error e => match handler e with
        | some a => .ok a
        | none => .error e := by
  unfold rescue
  cases h : x.result with
  | ok a => exact h
  | error e =>
    dsimp only
    split
    · rfl
    · exact h

/-! ## What every call of a computation is like -/

section All

variable {P : κ → Prop}

theorem all_pure (a : α) : ∀ c ∈ (pure a : Traced κ ε α).calls, P c := by
  simp [pure_calls]

theorem all_bind {x : Traced κ ε α} {f : α → Traced κ ε β} (hx : ∀ c ∈ x.calls, P c)
    (hf : ∀ a, x.result = .ok a → ∀ c ∈ (f a).calls, P c) : ∀ c ∈ (x >>= f).calls, P c := by
  cases h : x.result with
  | error e =>
    rw [bind_of_error h]
    exact hx
  | ok a =>
    rw [bind_of_ok h]
    intro c hc
    rcases List.mem_append.mp hc with hc | hc
    · exact hx c hc
    · exact hf a h c hc

@[simp] theorem rescue_calls (x : Traced κ ε α) (handler : ε → Option α) :
    (x.rescue handler).calls = x.calls := by
  unfold rescue
  split
  · rfl
  · split <;> rfl

end All

/-! ## Failed calls and raised exceptions -/

section Exact

variable (fatal : κ → Prop) (fault : ε → Prop) {x : Traced κ ε α} {f : α → Traced κ ε β}
  {handler : ε → Option α}

def Raises (x : Traced κ ε α) : Prop := ∃ e, x.result = .error e ∧ fault e

/-- The computation raises a fault exactly when one of its calls failed fatally. -/
def Exact (x : Traced κ ε α) : Prop := x.Raises fault ↔ ∃ c ∈ x.calls, fatal c

variable {fatal fault}

@[simp] theorem not_raises_pure (a : α) : ¬ (pure a : Traced κ ε α).Raises fault := by
  simp [Raises, pure_result]

theorem raises_raise {e : ε} : (raise e : Traced κ ε α).Raises fault ↔ fault e := by
  simp [Raises]

/-- Something goes wrong here, or later, once `x` has returned. -/
def GoesWrong (here : Prop) (x : Traced κ ε α) (later : α → Prop) : Prop :=
  here ∨ ∃ a, x.result = .ok a ∧ later a

theorem raises_bind {here : Prop} {later : α → Prop}
    (hx : x.Raises fault ↔ here) (hf : ∀ a, x.result = .ok a → ((f a).Raises fault ↔ later a)) :
    (x >>= f).Raises fault ↔ GoesWrong here x later := by
  rw [GoesWrong, ← hx]
  cases h : x.result with
  | error e => simp [Raises, bind_of_error h, h]
  | ok a => simpa [Raises, bind_of_ok h, h] using hf a h

theorem raises_bind_quiet (hf : ∀ a, ¬ (f a).Raises fault) :
    (x >>= f).Raises fault ↔ x.Raises fault :=
  (raises_bind Iff.rfl fun a _ => iff_false_intro (hf a)).trans (by simp [GoesWrong])

theorem raises_bind_pure_bind {γ : Type} {g : α → β} {f : β → Traced κ ε γ} :
    ((x >>= fun a => pure (g a)) >>= f).Raises fault ↔ (x >>= fun a => f (g a)).Raises fault := by
  cases h : x.result <;> simp [Raises, bind, h, pure]

theorem exact_pure (a : α) : Exact fatal fault (pure a : Traced κ ε α) := by
  simp [Exact, pure_calls]

theorem exact_raise {e : ε} (h : ¬ fault e) : Exact fatal fault (raise e : Traced κ ε α) := by
  simp [Exact, Raises, raise, h]

theorem exact_call {entry : Except ε α → κ} {answer : Except ε α}
    (h : fatal (entry answer) ↔ ∃ e, answer = .error e ∧ fault e) :
    Exact fatal fault (call entry answer) := by
  simp [Exact, Raises, call, h]

theorem Exact.not_fatal (h : Exact fatal fault x) {a : α}
    (hok : x.result = .ok a) : ∀ c ∈ x.calls, ¬ fatal c := by
  intro c hc hfatal
  obtain ⟨e, he, -⟩ := h.mpr ⟨c, hc, hfatal⟩
  rw [hok] at he
  cases he

theorem Exact.bind (hx : Exact fatal fault x)
    (hf : ∀ a, x.result = .ok a → Exact fatal fault (f a)) : Exact fatal fault (x >>= f) := by
  cases h : x.result with
  | error e =>
    rw [Exact, Raises, bind_of_error h]
    simpa [Exact, Raises, h] using hx
  | ok a =>
    have hquiet := hx.not_fatal h
    rw [Exact, Raises, bind_of_ok h]
    refine Iff.trans (hf a h) ⟨?_, ?_⟩
    · rintro ⟨c, hc, hfatal⟩
      exact ⟨c, List.mem_append_right _ hc, hfatal⟩
    · rintro ⟨c, hc, hfatal⟩
      rcases List.mem_append.mp hc with hc | hc
      · exact absurd hfatal (hquiet c hc)
      · exact ⟨c, hc, hfatal⟩

theorem not_raises_rescue (h : ∀ e, fault e → handler e ≠ none) :
    ¬ (x.rescue handler).Raises fault := by
  rintro ⟨e, he, hfault⟩
  rw [rescue_result] at he
  split at he
  · cases he
  · split at he
    · cases he
    · rename_i hnone
      cases he
      exact h e hfault hnone

/-- A call whose failure is handled on the spot is not a fatal one. -/
theorem exact_rescue_of_quiet (hcalls : ∀ c ∈ x.calls, ¬ fatal c)
    (hhandler : ∀ e, fault e → handler e ≠ none) :
    Exact fatal fault (x.rescue handler) := by
  refine iff_of_false (not_raises_rescue hhandler) ?_
  rintro ⟨c, hc, hfatal⟩
  rw [rescue_calls] at hc
  exact hcalls c hc hfatal

end Exact

end Traced

end Faults
