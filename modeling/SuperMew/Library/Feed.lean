import Mathlib.Data.List.Basic
import Mathlib.Data.List.TakeDrop
import Mathlib.Order.Nat

/-! Readers of an append-only log. A reader starts behind some entries, takes the next entry at
its own pace while the log grows, and stops at the first entry that asks it to. -/

namespace Feed

open List

variable {α : Type} {stop : α → Bool} {log log' out : List α} {k cursor : ℕ} {done : Bool}

/-- A reader that started behind `k` entries of the log has taken the entries up to `cursor`. -/
structure Follows (stop : α → Bool) (log : List α) (k cursor : ℕ) (out : List α) (done : Bool) :
    Prop where
  start_le : k ≤ cursor
  /-- A reader may start behind the end of the log, but does not go there. -/
  le_length : cursor ≤ max k log.length
  taken : out = (log.take cursor).drop k
  going : done = false → ∀ a ∈ out, stop a = false
  stopped : done = true → ∃ before a, out = before ++ [a] ∧ stop a = true ∧
    ∀ b ∈ before, stop b = false

theorem follows_start (stop : α → Bool) (log : List α) (k : ℕ) : Follows stop log k k [] false where
  start_le := Nat.le_refl k
  le_length := Nat.le_max_left ..
  taken := by simp
  going := by simp
  stopped := by simp

namespace Follows

theorem extend (h : Follows stop log k cursor out done) (hlog : log <+: log') :
    Follows stop log' k cursor out done := by
  have hlength : cursor ≤ max k log'.length := by
    have := h.le_length
    have := hlog.length_le
    omega
  refine ⟨h.start_le, hlength, ?_, h.going, h.stopped⟩
  obtain ⟨rest, rfl⟩ := hlog
  by_cases hc : cursor ≤ log.length
  · rw [take_append_of_le_length hc]
    exact h.taken
  · -- the reader waits behind the end and has taken nothing
    have hk : cursor = k := by
      have := h.start_le
      have := h.le_length
      omega
    have hnone : ∀ l : List α, (l.take k).drop k = [] := fun l =>
      drop_eq_nil_of_le (length_take_le ..)
    rw [h.taken, hk, hnone, hnone]

theorem next (h : Follows stop log k cursor out false) {a : α} (ha : log[cursor]? = some a) :
    Follows stop log k (cursor + 1) (out ++ [a]) (stop a) := by
  obtain ⟨hlt, rfl⟩ := List.getElem?_eq_some_iff.mp ha
  have hopen := h.going rfl
  refine ⟨Nat.le_succ_of_le h.start_le, (Nat.le_max_right ..).trans' hlt, ?_, fun hgo b hb => ?_, fun hstop => ?_⟩
  · rw [h.taken, take_succ_eq_append_getElem hlt, drop_append_of_le_length]
    rw [length_take, Nat.min_eq_left hlt.le]
    exact h.start_le
  · rcases mem_append.mp hb with hb | hb
    · exact hopen b hb
    · exact mem_singleton.mp hb ▸ hgo
  · exact ⟨out, _, rfl, hstop, hopen⟩

/-- A reader that has stopped, or has reached the end of a log whose last entry stops it, has
stopped with all that it wanted exactly if just the last entry is one to stop at. -/
theorem exact_iff {before : List α} {a : α} (h : Follows stop log k cursor out done)
    (hlog : log = before ++ [a]) (ha : stop a = true) (hend : done = true ∨ log.length ≤ cursor) :
    done = true ∧ out = log.drop k ↔ k < log.length ∧ ∀ b ∈ before.drop k, stop b = false := by
  have hdrop : k < log.length → log.drop k = before.drop k ++ [a] := by
    intro hk
    rw [hlog, length_append, length_singleton] at hk
    rw [hlog, drop_append_of_le_length (by omega)]
  constructor
  · rintro ⟨hdone, hout⟩
    obtain ⟨front, b, hb, -, hfront⟩ := h.stopped hdone
    have hk : k < log.length := by
      by_contra hge
      rw [hout, drop_eq_nil_of_le (by omega)] at hb
      simp at hb
    rw [hout, hdrop hk] at hb
    obtain ⟨rfl, -⟩ := append_inj' hb rfl
    exact ⟨hk, hfront⟩
  · rintro ⟨hk, hopen⟩
    have hout : out = log.drop k → done = true := by
      intro hout
      by_contra hgo
      have hstop := h.going (by simpa using hgo) a (by rw [hout, hdrop hk]; simp)
      rw [ha] at hstop
      cases hstop
    suffices heq : out = log.drop k from ⟨hout heq, heq⟩
    rcases hend with hdone | hlength
    · -- the entry at which the reader stopped is not before the last one
      obtain ⟨front, b, hb, hstop, -⟩ := h.stopped hdone
      by_cases hc : log.length ≤ cursor
      · rw [h.taken, take_of_length_le hc]
      · have hmem : b ∈ before.drop k := by
          have hcut : (log.take cursor) = before.take cursor := by
            rw [hlog, length_append, length_singleton] at hc
            rw [hlog, take_append_of_le_length (by omega)]
          have hb' : b ∈ (before.take cursor).drop k := by
            rw [← hcut, ← h.taken, hb]
            simp
          exact ((take_sublist cursor before).drop k).subset hb'
        rw [hopen b hmem] at hstop
        cases hstop
    · rw [h.taken, take_of_length_le hlength]

end Follows

/-! ## Numbered logs -/

variable {number : α → ℕ}

/-- In a log that is numbered without gaps from `m`, the entries beyond a number are a suffix. -/
theorem filter_numbered {m : ℕ} (h : log.map number = List.range' m log.length) (c : ℕ) :
    log.filter (fun a => c < number a) = log.drop (c + 1 - m) := by
  induction log generalizing m with
  | nil => simp
  | cons a log ih =>
    rw [map_cons, length_cons, List.range'_succ] at h
    obtain ⟨rfl, htail⟩ := cons_eq_cons.mp h
    have hrest := ih htail
    by_cases hc : c < number a
    · rw [filter_cons_of_pos (by simpa using hc), hrest,
        show c + 1 - (number a + 1) = 0 by omega, show c + 1 - number a = 0 by omega]
      simp
    · rw [filter_cons_of_neg (by simpa using hc), hrest,
        show c + 1 - number a = (c + 1 - (number a + 1)) + 1 by omega]
      simp

theorem pairwise_numbered {m : ℕ} (h : log.map number = List.range' m log.length) :
    log.Pairwise fun a b => number a < number b := by
  rw [← pairwise_map (f := number) (R := (· < ·)), h]
  exact pairwise_lt_range'

theorem number_getElem (h : log.map number = List.range' 1 log.length) {i : ℕ}
    (hi : i < log.length) : number log[i] = i + 1 := by
  have hget : (log.map number)[i]? = (List.range' 1 log.length)[i]? := by rw [h]
  rw [List.getElem?_map, List.getElem?_eq_getElem hi, List.getElem?_range' hi] at hget
  simpa [Nat.add_comm] using hget

theorem numbered_concat {before : List α} {a : α}
    (h : (before ++ [a]).map number = List.range' 1 (before ++ [a]).length) :
    before.map number = List.range' 1 before.length ∧ number a = before.length + 1 := by
  rw [map_append, length_append, length_singleton, List.range'_1_concat] at h
  obtain ⟨hbefore, hlast⟩ := append_inj' h rfl
  exact ⟨hbefore, by simpa [Nat.add_comm] using hlast⟩

end Feed
