import SuperMew.Library.Run

/-! Programs that call operations on a shared state, and the interleavings of any number of
them. A call of an operation is atomic; between two calls the others go on. What an operation
does may also depend on a choice of the environment. -/

namespace Concurrent

/-- A program is over, or it calls an operation and goes on with the answer. -/
inductive Program (Op : Type) (R : Op → Type) (ε α : Type) where
  | done (result : Except ε α)
  | call (op : Op) (next : Except ε (R op) → Program Op R ε α)

namespace Program

variable {Op : Type} {R : Op → Type} {ε α β : Type}

/-- One operation; what it raises is raised. -/
def perform (op : Op) : Program Op R ε (R op) := .call op .done

protected def bind : Program Op R ε α → (α → Program Op R ε β) → Program Op R ε β
  | .done (.ok a), f => f a
  | .done (.error e), _ => .done (.error e)
  | .call op next, f => .call op fun answer => (next answer).bind f

instance : Monad (Program Op R ε) where
  pure a := .done (.ok a)
  bind := Program.bind

/-- A computation that calls no operation. -/
def lift (x : Except ε α) : Program Op R ε α := .done x

/-! ## What a program knows when it calls an operation -/

section Meets

variable {Γ : Type} (learn : Γ → (op : Op) → Except ε (R op) → Γ) (ok : Γ → Op → Prop)

/-- Whatever the answers are, every call meets `ok` with what the program has learned from
the answers before it, and what it returns has `Q`. -/
def Meets : Γ → Program Op R ε α → (Γ → α → Prop) → Prop
  | g, .done (.ok a), Q => Q g a
  | _, .done (.error _), _ => True
  | g, .call op next, Q => ok g op ∧ ∀ answer, Meets (learn g op answer) (next answer) Q

variable {learn} {ok} {g : Γ}

theorem Meets.bind {p : Program Op R ε α} {f : α → Program Op R ε β} {Q : Γ → β → Prop}
    (h : p.Meets learn ok g fun g' a => (f a).Meets learn ok g' Q) :
    (p >>= f).Meets learn ok g Q := by
  induction p generalizing g with
  | done result =>
    cases result with
    | ok a | error e => exact h
  | call op next ih => exact ⟨h.1, fun answer => ih answer (h.2 answer)⟩

theorem Meets.perform {op : Op} {Q : Γ → R op → Prop} (hok : ok g op)
    (hQ : ∀ a, Q (learn g op (.ok a)) a) :
    (Program.perform op : Program Op R ε (R op)).Meets learn ok g Q := by
  refine ⟨hok, fun answer => ?_⟩
  cases answer with
  | ok a => exact hQ a
  | error e => trivial

theorem Meets.lift {x : Except ε α} {Q : Γ → α → Prop} (hQ : ∀ a, x = .ok a → Q g a) :
    (Program.lift x : Program Op R ε α).Meets learn ok g Q := by
  cases x with
  | ok a => exact hQ a rfl
  | error e => trivial

end Meets

end Program

/-! ## Interleavings -/

section Pool

variable {Op : Type} {R : Op → Type} {ε α σ Γ ι κ : Type}

/-- A program under way for a request, and what it has learned. -/
structure Thread (Op : Type) (R : Op → Type) (ε α Γ ι : Type) where
  request : ι
  known : Γ
  program : Program Op R ε α

/-- The shared state and the programs started so far. -/
structure Pool (Op : Type) (R : Op → Type) (ε α σ Γ ι : Type) where
  state : σ
  threads : List (Thread Op R ε α Γ ι)

/-- A new request, or the turn of one of the programs. -/
inductive Move (ι κ : Type) where
  | start (request : ι)
  | turn (i : ℕ) (choice : κ)
  deriving DecidableEq, Repr

/-- How requests are served on a shared state. -/
structure Server (Op : Type) (R : Op → Type) (ε α σ Γ ι κ : Type) where
  program : ι → Program Op R ε α
  perform : (op : Op) → κ → σ → Except ε (R op) × σ
  fresh : Γ
  learn : Γ → (op : Op) → Except ε (R op) → Γ

variable (server : Server Op R ε α σ Γ ι κ)

def Server.step (p : Pool Op R ε α σ Γ ι) : Move ι κ → Pool Op R ε α σ Γ ι
  | .start request =>
    { p with threads := p.threads ++ [⟨request, server.fresh, server.program request⟩] }
  | .turn i choice =>
    match p.threads[i]? with
    | some ⟨request, known, .call op next⟩ =>
      let (answer, state) := server.perform op choice p.state
      { state := state
        threads := p.threads.set i ⟨request, server.learn known op answer, next answer⟩ }
    | _ => p

def Pool.initial (s : σ) : Pool Op R ε α σ Γ ι := ⟨s, []⟩

/-- The operation that a move calls, and what its program has learned before. -/
def Pool.calls (p : Pool Op R ε α σ Γ ι) : Move ι κ → Option (Γ × Op)
  | .start _ => none
  | .turn i _ =>
    match p.threads[i]? with
    | some ⟨_, known, .call op _⟩ => some (known, op)
    | _ => none

/-- `free` holds of the operation that the move calls, if it calls one. -/
def Free (free : σ → Γ → Op → Prop) (p : Pool Op R ε α σ Γ ι) (move : Move ι κ) : Prop :=
  ∀ call ∈ p.calls move, free p.state call.1 call.2

instance (free : σ → Γ → Op → Prop) [∀ s known op, Decidable (free s known op)]
    (p : Pool Op R ε α σ Γ ι) (move : Move ι κ) : Decidable (Free free p move) :=
  inferInstanceAs (Decidable (∀ call ∈ p.calls move, free p.state call.1 call.2))

variable {server} {p : Pool Op R ε α σ Γ ι}

/-- What one step does to the shared state: nothing, or the operation that the move calls. -/
theorem Server.step_state (p : Pool Op R ε α σ Γ ι) (move : Move ι κ) :
    (server.step p move).state = p.state ∨ ∃ known op choice, p.calls move = some (known, op) ∧
        (server.step p move).state = (server.perform op choice p.state).2 := by
  cases move with
  | start request => exact .inl rfl
  | turn i choice =>
    match hi : p.threads[i]? with
    | none => exact .inl (by simp [Server.step, hi])
    | some ⟨request, known, .done result⟩ => exact .inl (by simp [Server.step, hi])
    | some ⟨request, known, .call op next⟩ =>
      exact .inr ⟨known, op, choice, by simp [Pool.calls, hi], by simp [Server.step, hi]⟩

section Calls

variable {ok : Γ → Op → Prop}
  (hserver : ∀ request, (server.program request).Meets server.learn ok server.fresh fun _ _ => True)

include hserver

/-- The rest of each program will call its operations knowing enough. -/
theorem Server.step_meets (h : ∀ t ∈ p.threads, t.program.Meets server.learn ok t.known fun _ _ => True)
    (move : Move ι κ) : ∀ t ∈ (server.step p move).threads,
      t.program.Meets server.learn ok t.known fun _ _ => True := by
  intro t ht
  cases move with
  | start request =>
    rcases List.mem_append.mp ht with hold | hnew
    · exact h t hold
    · rw [List.mem_singleton.mp hnew]
      exact hserver request
  | turn i choice =>
    match hi : p.threads[i]? with
    | none | some ⟨request, known, .done result⟩ =>
      rw [Server.step, hi] at ht
      exact h t ht
    | some ⟨request, known, .call op next⟩ =>
      rw [Server.step, hi] at ht
      rcases List.mem_or_eq_of_mem_set ht with hold | rfl
      · exact h t hold
      · exact (h _ (List.mem_of_getElem? hi)).2 _

/-- In every run a program calls an operation only when it knows enough. -/
theorem Server.run_calls (s : σ) (moves : List (Move ι κ)) :
    Machine.Along server.step (Free fun _ => ok) (.initial s) moves := by
  have hrun : ∀ p, (∀ t ∈ p.threads, t.program.Meets server.learn ok t.known fun _ _ => True) →
      Machine.Along server.step (Free fun _ => ok) p moves := by
    induction moves with
    | nil => exact fun _ _ => trivial
    | cons move moves ih =>
      refine fun p h => ⟨?_, ih _ (server.step_meets hserver h move)⟩
      rintro ⟨known, op⟩ hcall
      simp only [Pool.calls, Option.mem_def] at hcall
      split at hcall
      · cases hcall
      · split at hcall
        · rename_i hi
          cases hcall
          exact (h _ (List.mem_of_getElem? hi)).1
        · cases hcall
  exact hrun _ (by simp [Pool.initial])

end Calls

end Pool

end Concurrent
