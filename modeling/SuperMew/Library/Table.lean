import Mathlib.Data.List.AList
import Mathlib.Data.List.MinMax
import Mathlib.Data.Prod.Lex

/-! Tables with a primary key, over association lists without repeated keys.
A lookup sees a table as a partial function, so a write is `Function.update`. -/

namespace Relational

open Function

@[grind =] theorem update_eq_some {κ ρ : Type} [DecidableEq κ] {f : κ → Option ρ} {k k' : κ}
    {r r' : ρ} : update f k (some r) k' = some r' ↔ k' = k ∧ r' = r ∨ k' ≠ k ∧ f k' = some r' := by
  by_cases h : k' = k
  · subst h
    simp [eq_comm]
  · simp [h]

/-- A table holds at most one row for each key. -/
abbrev Table (κ ρ : Type) := AList (fun _ : κ => ρ)

namespace Table

variable {κ ρ : Type}

def rows (t : Table κ ρ) : List (κ × ρ) := t.entries.map fun e => (e.1, e.2)

theorem nodup_rows (t : Table κ ρ) : (t.rows.map Prod.fst).Nodup := by
  have hkeys : t.rows.map Prod.fst = t.keys := by
    simp [rows, AList.keys, List.keys, comp_def]
  rw [hkeys]
  exact t.keys_nodup

def select (t : Table κ ρ) (p : κ → ρ → Bool) : List (κ × ρ) := t.rows.filter fun e => p e.1 e.2

theorem nodup_select (t : Table κ ρ) (p : κ → ρ → Bool) : ((t.select p).map Prod.fst).Nodup :=
  (t.nodup_rows).sublist (List.Sublist.map _ List.filter_sublist)

variable [DecidableEq κ]

def get (t : Table κ ρ) (k : κ) : Option ρ := t.lookup k

/-- Insert a row, or replace the row with the same key. -/
def put (t : Table κ ρ) (k : κ) (row : ρ) : Table κ ρ := AList.insert k row t

@[simp] theorem get_empty : (∅ : Table κ ρ).get = fun _ => none := rfl

theorem get_put (t : Table κ ρ) (k : κ) (row : ρ) :
    (t.put k row).get = update t.get k (some row) := by
  funext k'
  by_cases h : k' = k
  · subst h
    simp only [get, put, update_self]
    exact AList.lookup_insert t
  · simp only [get, put, update_of_ne h]
    exact AList.lookup_insert_ne h

variable {t : Table κ ρ} {k : κ} {row : ρ} {p : κ → ρ → Bool}

@[simp] theorem mem_rows : (k, row) ∈ t.rows ↔ t.get k = some row := by
  have h : t.get k = some row ↔ (⟨k, row⟩ : Sigma fun _ : κ => ρ) ∈ t.entries :=
    AList.mem_lookup_iff
  rw [h]
  constructor
  · intro hm
    obtain ⟨⟨k', row'⟩, he, heq⟩ := List.mem_map.mp hm
    cases heq
    exact he
  · intro he
    exact List.mem_map.mpr ⟨_, he, rfl⟩

/-- Delete the row with a key, if there is one. -/
def remove (t : Table κ ρ) (k : κ) : Table κ ρ := AList.erase k t

theorem get_remove (t : Table κ ρ) (k k' : κ) :
    (t.remove k).get k' = if k' = k then none else t.get k' := by
  by_cases h : k' = k
  · subst h
    simp [get, remove]
  · simp [get, remove, h]

/-! ## Queries -/

@[simp] theorem mem_select : (k, row) ∈ t.select p ↔ t.get k = some row ∧ p k row = true := by
  simp [select, List.mem_filter]

/-- `SELECT ... LIMIT 1` without an order. -/
def find (t : Table κ ρ) (p : κ → ρ → Bool) : Option (κ × ρ) := (t.select p).head?

theorem find_eq_some (h : t.find p = some (k, row)) : t.get k = some row ∧ p k row = true :=
  mem_select.mp (List.mem_of_mem_head? h)

theorem find_eq_none : t.find p = none ↔ ∀ k row, t.get k = some row → p k row = false := by
  rw [find, List.head?_eq_none_iff, List.eq_nil_iff_forall_not_mem]
  constructor
  · intro h k row hk
    have hn := h (k, row)
    rw [mem_select] at hn
    simpa [hk] using hn
  · rintro h ⟨k, row⟩ hm
    rw [mem_select] at hm
    simpa [h k row hm.1] using hm.2

/-- A query that holds of a row finds one. -/
theorem find_of_get (hk : t.get k = some row) (hp : p k row = true) :
    ∃ k' row', t.find p = some (k', row') ∧ t.get k' = some row' ∧ p k' row' = true := by
  cases h : t.find p with
  | none => simp [find_eq_none.mp h k row hk] at hp
  | some e => exact ⟨e.1, e.2, rfl, find_eq_some h⟩

/-- A query that holds of one row only finds that row. -/
theorem find_unique (hk : t.get k = some row) (hp : p k row = true)
    (hu : ∀ k' row', t.get k' = some row' → p k' row' = true → k' = k) :
    t.find p = some (k, row) := by
  obtain ⟨k', row', h, hk', hp'⟩ := find_of_get hk hp
  obtain rfl := hu k' row' hk' hp'
  rw [h, Option.mem_unique hk hk']

/-- A property of every row survives the write of one that has it. -/
theorem forall_put {P : κ → ρ → Prop} {new : ρ} (h : ∀ k row, t.get k = some row → P k row)
    (hnew : P k new) : ∀ k' row, (t.put k new).get k' = some row → P k' row := by
  intro k' row hrow
  rw [get_put] at hrow
  obtain ⟨rfl, rfl⟩ | ⟨-, hrow⟩ := update_eq_some.mp hrow
  · exact hnew
  · exact h k' row hrow

/-- A row at the next key of a sequence leaves the keys beyond it free. -/
theorem get_put_next {t : Table ℕ ρ} {next : ℕ} (h : ∀ k, next ≤ k → t.get k = none) (row : ρ) :
    ∀ k, next + 1 ≤ k → (t.put next row).get k = none := by
  intro k hk
  rw [get_put, update_of_ne (Nat.ne_of_gt hk)]
  exact h k (Nat.le_of_succ_le hk)

/-- A write keeps the columns that it does not change. -/
theorem map_get_put {τ : Type} {f : ρ → τ} {new : ρ} (hk : t.get k = some row)
    (hf : f new = f row) (k' : κ) : ((t.put k new).get k').map f = (t.get k').map f := by
  rw [get_put]
  by_cases h : k' = k
  · rw [h, update_self, hk, Option.map_some, Option.map_some, hf]
  · rw [update_of_ne h]

/-! ## Rows as a list -/

theorem rows_put_of_none (h : t.get k = none) (row : ρ) :
    (t.put k row).rows = (k, row) :: t.rows := by
  simp only [rows, put, AList.entries_insert_of_notMem (AList.lookup_eq_none.mp h), List.map_cons]

/-- A column of the rows depends on the lookups only, up to the order of the rows. -/
theorem perm_column {τ : Type} {t' : Table κ ρ} {f : ρ → τ}
    (h : ∀ k, (t'.get k).map f = (t.get k).map f) :
    (t'.rows.map fun e => (e.1, f e.2)).Perm (t.rows.map fun e => (e.1, f e.2)) := by
  have hnodup : ∀ t : Table κ ρ, (t.rows.map fun e => (e.1, f e.2)).Nodup := fun t =>
    List.Nodup.of_map Prod.fst (by simpa [comp_def] using t.nodup_rows)
  have hmem : ∀ (t : Table κ ρ) k x, (k, x) ∈ t.rows.map (fun e => (e.1, f e.2)) ↔
      (t.get k).map f = some x := by
    intro t k x
    rw [Option.map_eq_some_iff, List.mem_map]
    constructor
    · rintro ⟨⟨k', row⟩, hrow, heq⟩
      cases heq
      exact ⟨row, mem_rows.mp hrow, rfl⟩
    · rintro ⟨row, hrow, rfl⟩
      exact ⟨(k, row), mem_rows.mpr hrow, rfl⟩
  refine (List.perm_ext_iff_of_nodup (hnodup t') (hnodup t)).mpr ?_
  rintro ⟨k, x⟩
  rw [hmem, hmem, h]

/-! ## Primary keys -/

/-- Insert a row under a key that must be unused. -/
def insertNew {ε : Type} (t : Table κ ρ) (k : κ) (row : ρ) (violation : ε) :
    Except ε (Table κ ρ) :=
  if (t.get k).isSome then .error violation else .ok (t.put k row)

theorem insertNew_eq_ok {ε : Type} {t' : Table κ ρ} {violation : ε} :
    t.insertNew k row violation = .ok t' ↔ t.get k = none ∧ t' = t.put k row := by
  unfold insertNew
  cases h : t.get k <;> simp [eq_comm]

end Table

/-! ## Child tables -/

/-- The rows of a child table stand one to one for the keys in `P`. -/
structure Attached {ι κ ρ : Type} (key : ρ → κ) (rows : ι → Option ρ) (P : κ → Prop) : Prop where
  total : ∀ k, P k → ∃ i row, rows i = some row ∧ key row = k
  sound : ∀ i row, rows i = some row → P (key row)
  unique : ∀ i i' row row', rows i = some row → rows i' = some row' → key row = key row' → i = i'

namespace Attached

variable {ι κ ρ : Type} {key : ρ → κ} {rows : ι → Option ρ} {P Q : κ → Prop}
  (h : Attached key rows P)

include h

theorem congr (hPQ : ∀ k, P k ↔ Q k) : Attached key rows Q where
  total k hk := h.total k ((hPQ k).mpr hk)
  sound i row hi := (hPQ _).mp (h.sound i row hi)
  unique := h.unique

variable [DecidableEq ι]

theorem replace {i : ι} {old : ρ} (new : ρ) (hi : rows i = some old)
    (hk : key new = key old) : Attached key (update rows i (some new)) P := by
  have hs := h.sound
  have hu := h.unique
  refine ⟨?_, by grind, by grind⟩
  intro k hP
  obtain ⟨i', row, hi', rfl⟩ := h.total k hP
  by_cases hii : i' = i
  · subst hii
    obtain rfl := Option.mem_unique hi hi'
    exact ⟨i', new, by simp, hk⟩
  · exact ⟨i', row, by simp [hii, hi'], rfl⟩

theorem insert {i : ι} {new : ρ} (hi : rows i = none) (hk : ¬ P (key new)) :
    Attached key (update rows i (some new)) fun k => k = key new ∨ P k := by
  have hs := h.sound
  have hu := h.unique
  refine ⟨?_, by grind, by grind⟩
  rintro k (rfl | hP)
  · exact ⟨i, new, by simp, rfl⟩
  · obtain ⟨i', row, hi', rfl⟩ := h.total k hP
    have hii : i' ≠ i := by
      rintro rfl
      simp [hi] at hi'
    exact ⟨i', row, by simp [hii, hi'], rfl⟩

end Attached

/-! ## Histories -/

/-- Every row stays in the table and changes at most as `R` allows. -/
def Evolves {κ ρ : Type} (R : κ → ρ → ρ → Prop) (f g : κ → Option ρ) : Prop :=
  ∀ k x, f k = some x → ∃ y, g k = some y ∧ R k x y

namespace Evolves

variable {κ ρ : Type} {R : κ → ρ → ρ → Prop} {f g h : κ → Option ρ}

theorem refl (hR : ∀ k x, R k x x) (f : κ → Option ρ) : Evolves R f f :=
  fun k x hx => ⟨x, hx, hR k x⟩

theorem trans (hR : ∀ k x y z, R k x y → R k y z → R k x z) (hfg : Evolves R f g)
    (hgh : Evolves R g h) : Evolves R f h := by
  intro k x hx
  obtain ⟨y, hy, hxy⟩ := hfg k x hx
  obtain ⟨z, hz, hyz⟩ := hgh k y hy
  exact ⟨z, hz, hR k x y z hxy hyz⟩

variable (hR : ∀ k x, R k x x)

include hR

theorem update [DecidableEq κ] {k : κ} {new : ρ}
    (hnew : ∀ x, f k = some x → R k x new) : Evolves R f (update f k (some new)) := by
  intro k' x hx
  by_cases hk : k' = k
  · subst hk
    exact ⟨new, by simp, hnew x hx⟩
  · exact ⟨x, by simp [hk, hx], hR k' x⟩

theorem write [DecidableEq κ] {k : κ} {x new : ρ} (hold : f k = some x)
    (hnew : R k x new) : Evolves R f (Function.update f k (some new)) := by
  refine update hR fun y hy => ?_
  obtain rfl := Option.mem_unique hold hy
  exact hnew

end Evolves

/-! ## Ordered queries -/

/-- `SELECT ... ORDER BY key LIMIT 1`. -/
def firstBy {α β : Type} [LinearOrder β] (key : α → β) (xs : List α) : Option α := xs.argmin key

theorem firstBy_mem {α β : Type} [LinearOrder β] {key : α → β} {xs : List α} {x : α}
    (h : firstBy key xs = some x) : x ∈ xs :=
  List.argmin_mem h

theorem firstBy_le {α β : Type} [LinearOrder β] {key : α → β} {xs : List α} {x y : α}
    (h : firstBy key xs = some x) (hy : y ∈ xs) : key x ≤ key y :=
  List.le_of_mem_argmin hy h

theorem firstBy_eq_none {α β : Type} [LinearOrder β] {key : α → β} {xs : List α} :
    firstBy key xs = none ↔ xs = [] :=
  List.argmin_eq_none

end Relational
