import Mathlib.Data.Nat.Notation
import Mathlib.Data.Int.Notation

/-! Errors that cross a transaction boundary. Every operation is one transaction:
an error rolls it back, so a failed call has no state to return. -/

namespace SuperMew

/-- Time in microseconds, the resolution of the stored timestamps. -/
abbrev Time := ℕ

def secondsSpan (n : ℤ) : Time := n.toNat * 1000000

inductive ErrorCode where
  | invalidRequest
  | authenticationRequired
  | permissionDenied
  | notFound
  | conflict
  | runActive
  | runNotFound
  | runStateConflict
  | idempotencyConflict
  | threadVersionConflict
  deriving DecidableEq, Repr

/-- The JSON values stored by the operations; `other` is the text of a nested value. -/
inductive Json where
  | null
  | bool (b : Bool)
  | int (n : ℤ)
  | str (s : String)
  | other (text : String)
  deriving DecidableEq, Repr

namespace Json

/-- `str(value)`. -/
def text : Json → String
  | null => "None"
  | bool true => "True"
  | bool false => "False"
  | int n => toString n
  | str s => s
  | other t => t

end Json

abbrev Dict := List (String × Json)

namespace Dict

def get? (d : Dict) (key : String) : Option Json := List.lookup key d

def set (d : Dict) (key : String) (value : Json) : Dict :=
  (d.filter fun e => e.1 ≠ key) ++ [(key, value)]

/-- `{**d, **patch}`. -/
def merge (d patch : Dict) : Dict := patch.foldl (fun acc e => acc.set e.1 e.2) d

/-- The object left by `patch.pop(key, default)`. -/
def erase (d : Dict) (key : String) : Dict := d.filter fun e => e.1 ≠ key

end Dict

structure AppError where
  code : ErrorCode
  message : String
  statusCode : ℕ
  retryable : Bool := false
  safeDetails : Dict := []
  deriving DecidableEq, Repr

/-- How a transaction can fail: an application error, a violated constraint of the
database, an exception of the language runtime, or a loop that does not end. -/
inductive Fault where
  | app (error : AppError)
  | integrity (violated : String)
  | runtime (exception : String)
  | diverges
  deriving DecidableEq, Repr

/-- `if p: raise error`, for errors of any kind. -/
def failIf {ε : Type} (p : Prop) [Decidable p] (error : ε) : Except ε Unit :=
  if p then .error error else .ok ()

/-- `if p: raise error`. -/
def raiseIf (p : Prop) [Decidable p] (error : AppError) : Except Fault Unit :=
  if p then .error (.app error) else .ok ()

/-- A constraint of the database is checked when rows are written. -/
def violatedIf (p : Prop) [Decidable p] (constraint : String) : Except Fault Unit :=
  if p then .error (.integrity constraint) else .ok ()

/-- `row = query.first(); if row is None: raise error`. -/
def orRaise {α : Type} (row : Option α) (error : AppError) : Except Fault α :=
  match row with
  | some a => .ok a
  | none => .error (.app error)

variable {α ε β : Type} {p : Prop} {error : AppError} {u : Unit} {fault : Fault}

@[simp] theorem failIf_eq_ok [Decidable p] {error : ε} : failIf p error = .ok u ↔ ¬ p := by
  unfold failIf
  split <;> simp_all

@[simp] theorem raiseIf_eq_ok [Decidable p] : raiseIf p error = .ok u ↔ ¬ p := by
  unfold raiseIf
  split <;> simp_all

variable {constraint : String}

@[simp] theorem violatedIf_eq_ok [Decidable p] : violatedIf p constraint = .ok u ↔ ¬ p := by
  unfold violatedIf
  split <;> simp_all

@[simp] theorem orRaise_eq_ok {row : Option α} {a : α} :
    orRaise row error = .ok a ↔ row = some a := by
  cases row <;> simp [orRaise]

variable {x : Except ε α} {f : α → Except ε β}

@[simp] theorem bind_eq_ok {b : β} : (x >>= f) = .ok b ↔ ∃ a, x = .ok a ∧ f a = .ok b := by
  cases x with
  | error e | ok a => simp [bind, Except.bind]

theorem ok_bind (a : α) (f : α → Except ε β) : (Except.ok a >>= f) = f a := rfl

@[simp] theorem pure_eq_ok {a b : α} : (pure a : Except ε α) = .ok b ↔ a = b := by
  simp [pure, Except.pure]

variable {e : ε}

@[simp] theorem throw_ne_ok {a : α} : (throw e : Except ε α) = .ok a ↔ False := by
  simp [throw, throwThe, MonadExceptOf.throw]

theorem map_eq_ok {f : α → β} {b : β} : x.map f = .ok b ↔ ∃ a, x = .ok a ∧ f a = b := by
  cases x with
  | error e | ok a => simp [Except.map]

@[simp] theorem fmap_eq_ok {f : α → β} {b : β} :
    f <$> x = .ok b ↔ ∃ a, x = .ok a ∧ f a = b := map_eq_ok

/-- The rules by which a transaction that has succeeded is taken apart. -/
theorem ok_rules :
    (∀ {α β ε : Type} {x : Except ε α} {f : α → Except ε β} {b : β},
      (x >>= f) = .ok b ↔ ∃ a, x = .ok a ∧ f a = .ok b) ∧
    (∀ {α ε : Type} {a b : α}, (pure a : Except ε α) = .ok b ↔ a = b) ∧
    (∀ {α β : Type} {a a' : α} {b b' : β}, (a, b) = (a', b') ↔ a = a' ∧ b = b') ∧
    (∀ {α : Type} {row : Option α} {error : AppError} {a : α},
      orRaise row error = .ok a ↔ row = some a) ∧
    (∀ {p : Prop} [Decidable p] {error : AppError} {u : Unit}, raiseIf p error = .ok u ↔ ¬ p) ∧
    (∀ {p : Prop} [Decidable p] {ε : Type} {error : ε} {u : Unit}, failIf p error = .ok u ↔ ¬ p) ∧
    ∀ {p : Prop} [Decidable p] {constraint : String} {u : Unit},
      violatedIf p constraint = .ok u ↔ ¬ p :=
  ⟨bind_eq_ok, pure_eq_ok, Iff.of_eq (Prod.mk.injEq ..), orRaise_eq_ok, raiseIf_eq_ok, failIf_eq_ok,
    violatedIf_eq_ok⟩

/-- What holds of the state of every answer holds of the state that is kept. -/
theorem of_map_snd {σ : Type} {x : Except ε (α × σ)} {P : Prop} {s : σ}
    (h : x.map (·.2) = .ok s) (hx : ∀ {a}, x = .ok (a, s) → P) : P := by
  obtain ⟨⟨a, s⟩, hok, rfl⟩ := map_eq_ok.mp h
  exact hx hok

/-! ## Errors of a transaction -/

@[simp] theorem raiseIf_eq_error [Decidable p] :
    raiseIf p error = .error fault ↔ p ∧ fault = .app error := by
  unfold raiseIf
  split <;> simp_all [eq_comm]

@[simp] theorem violatedIf_eq_error [Decidable p] :
    violatedIf p constraint = .error fault ↔ p ∧ fault = .integrity constraint := by
  unfold violatedIf
  split <;> simp_all [eq_comm]

@[simp] theorem orRaise_eq_error {row : Option α} :
    orRaise row error = .error fault ↔ row = none ∧ fault = .app error := by
  cases row <;> simp [orRaise, eq_comm]

@[simp] theorem bind_eq_error :
    (x >>= f) = .error e ↔ x = .error e ∨ ∃ a, x = .ok a ∧ f a = .error e := by
  cases x with
  | error e | ok a => simp [bind, Except.bind]

@[simp] theorem pure_ne_error {a : α} : (pure a : Except ε α) = .error e ↔ False := by
  simp [pure, Except.pure]

@[simp] theorem throw_eq_error {e' : ε} : (throw e : Except ε α) = .error e' ↔ e = e' := by
  simp [throw, throwThe, MonadExceptOf.throw]

theorem map_eq_error {f : α → β} : x.map f = .error e ↔ x = .error e := by
  cases x <;> simp [Except.map]

@[simp] theorem fmap_eq_error {f : α → β} : f <$> x = .error e ↔ x = .error e := map_eq_error

/-- Every result of a loop that does not raise comes from one of its rows. -/
theorem mem_of_mapM_eq_ok {xs : List α} {ys : List β}
    (h : xs.mapM f = .ok ys) {y : β} (hy : y ∈ ys) : ∃ x ∈ xs, f x = .ok y := by
  induction xs generalizing ys with
  | nil =>
    rw [List.mapM_nil, pure_eq_ok] at h
    simp [← h] at hy
  | cons x xs ih =>
    rw [List.mapM_cons, bind_eq_ok] at h
    obtain ⟨y₀, hx, h⟩ := h
    rw [bind_eq_ok] at h
    obtain ⟨ys₀, hxs, h⟩ := h
    rw [pure_eq_ok] at h
    subst h
    rcases List.mem_cons.mp hy with rfl | hy
    · exact ⟨x, List.mem_cons_self .., hx⟩
    · obtain ⟨x', hx', hf⟩ := ih hxs hy
      exact ⟨x', List.mem_cons_of_mem _ hx', hf⟩

/-- A loop over rows that can all be read reads them all, in their order. -/
theorem mapM_eq_ok_of_inverse {g : β → α} {xs : List α}
    (h : ∀ x ∈ xs, ∃ y, f x = .ok y ∧ g y = x) : ∃ ys, xs.mapM f = .ok ys ∧ ys.map g = xs := by
  induction xs with
  | nil => exact ⟨[], rfl, rfl⟩
  | cons x xs ih =>
    obtain ⟨y, hy, hgy⟩ := h x List.mem_cons_self
    obtain ⟨ys, hys, hgys⟩ := ih fun x' hx' => h x' (List.mem_cons_of_mem _ hx')
    refine ⟨y :: ys, ?_, by rw [List.map_cons, hgy, hgys]⟩
    rw [List.mapM_cons, hy, hys]
    rfl

end SuperMew
