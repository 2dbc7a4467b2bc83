import Mathlib.Data.List.Basic

/-! Safety of a history that only grows: what must hold each time an event is appended, and
what has been true since an earlier event. -/

namespace Trace

open List

variable {ε : Type} {P : List ε → ε → Prop} {q : ε → Prop} {log : List ε} {e : ε}

/-- Each event of the history meets `P` after the events before it. -/
def Always (P : List ε → ε → Prop) (log : List ε) : Prop :=
  ∀ before e after, log = before ++ e :: after → P before e

/-- An event met `P`, and every event after it meets `q`. -/
def Since (P : List ε → ε → Prop) (q : ε → Prop) (log : List ε) : Prop :=
  ∃ before e after, log = before ++ e :: after ∧ P before e ∧ ∀ x ∈ after, q x

/-- An event met `P` at some time. -/
def Once (P : List ε → ε → Prop) (log : List ε) : Prop :=
  ∃ before e after, log = before ++ e :: after ∧ P before e

theorem once_iff_since : Once P log ↔ Since P (fun _ => True) log := by
  simp [Once, Since]

theorem always_iff_not_once : Always P log ↔ ¬ Once (fun before e => ¬ P before e) log := by
  simp [Always, Once]

theorem always_nil : Always P [] := by
  intro before e after h
  simp at h

/-- The splits of a history with one more event. -/
theorem concat_eq_split {before after : List ε} {x : ε} (h : log ++ [e] = before ++ x :: after) :
    (before = log ∧ x = e ∧ after = []) ∨ ∃ rest, after = rest ++ [e] ∧ log = before ++ x :: rest := by
  rcases eq_nil_or_concat after with rfl | ⟨rest, y, rfl⟩
  · obtain ⟨rfl, hx⟩ := append_inj' h rfl
    exact .inl ⟨rfl, (singleton_inj.mp hx).symm, rfl⟩
  · rw [concat_eq_append, ← cons_append, ← append_assoc] at h
    obtain ⟨rfl, hy⟩ := append_inj' h rfl
    exact .inr ⟨rest, by rw [concat_eq_append, singleton_inj.mp hy], rfl⟩

theorem since_concat : Since P q (log ++ [e]) ↔ P log e ∨ Since P q log ∧ q e := by
  constructor
  · rintro ⟨before, x, after, heq, hx, hafter⟩
    rcases concat_eq_split heq with ⟨rfl, rfl, -⟩ | ⟨rest, rfl, hrest⟩
    · exact .inl hx
    · refine .inr ⟨⟨before, x, rest, hrest, hx, fun y hy => hafter y ?_⟩, hafter e (by simp)⟩
      exact mem_append_left _ hy
  · rintro (he | ⟨⟨before, x, after, rfl, hx, hafter⟩, he⟩)
    · exact ⟨log, e, [], rfl, he, nofun⟩
    · refine ⟨before, x, after ++ [e], by rw [append_assoc, cons_append], hx, ?_⟩
      intro y hy
      rcases mem_append.mp hy with hy | hy
      · exact hafter y hy
      · exact mem_singleton.mp hy ▸ he

theorem once_concat : Once P (log ++ [e]) ↔ P log e ∨ Once P log := by
  rw [once_iff_since, once_iff_since, since_concat, and_true]

theorem always_concat : Always P (log ++ [e]) ↔ Always P log ∧ P log e := by
  rw [always_iff_not_once, always_iff_not_once, once_concat, not_or, not_not, and_comm]

end Trace
