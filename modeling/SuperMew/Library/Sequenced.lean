import Mathlib.Data.List.Basic
import Mathlib.Data.List.TakeDrop
import Mathlib.Order.Nat

/-! Readers of a numbered log over an unreliable channel. A reader takes an entry only if it is
the next one, notes a gap otherwise, and stops at the first entry that closes it. -/

namespace Sequenced

/-- What a reader keeps, and what it does with the next entry. `forget` drops the note of a
gap. -/
structure Reader (σ ε : Type) where
  last : σ → ℕ
  closed : σ → Bool
  mine : σ → ε → Bool
  seq : ε → ℕ
  ends : ε → Bool
  step : σ → ε → σ
  gap : σ → σ
  forget : σ → σ

namespace Reader

variable {σ ε : Type} (R : Reader σ ε)

def receive (s : σ) (e : ε) : σ :=
  if R.mine s e = false ∨ R.seq e ≤ R.last s ∨ R.closed s = true then s
  else if R.seq e ≠ R.last s + 1 then R.gap s
  else R.step s e

def through : List ε → List ε
  | [] => []
  | e :: es => if R.ends e then [e] else e :: through es

/-- A reader whose note of a gap influences nothing else. -/
structure Lawful : Prop where
  last_step : ∀ s e, R.last (R.step s e) = R.seq e
  last_gap : ∀ s, R.last (R.gap s) = R.last s
  last_forget : ∀ s, R.last (R.forget s) = R.last s
  closed_step : ∀ s e, R.closed s = false → R.closed (R.step s e) = R.ends e
  closed_forget : ∀ s, R.closed (R.forget s) = R.closed s
  mine_step : ∀ s e, R.mine (R.step s e) = R.mine s
  mine_gap : ∀ s, R.mine (R.gap s) = R.mine s
  mine_forget : ∀ s, R.mine (R.forget s) = R.mine s
  forget_gap : ∀ s, R.forget (R.gap s) = R.forget s
  forget_step : ∀ s e, R.forget (R.step s e) = R.step (R.forget s) e

/-- The log of entries for the reader that starts at `s`, numbered from one. -/
structure Log (s : σ) (log : List ε) : Prop where
  numbered : ∀ i (h : i < log.length), R.seq log[i] = i + 1
  mine : ∀ e ∈ log, R.mine s e = true

/-- A fresh reader. -/
structure Fresh (s : σ) : Prop where
  last : R.last s = 0
  closed : R.closed s = false
  forget : R.forget s = s

variable {R} {start s : σ} {log deliveries : List ε}

theorem receive_of_closed (h : R.closed s = true) (e : ε) : R.receive s e = s :=
  if_pos (.inr (.inr h))

theorem receive_next {e : ε} (hmine : R.mine s e = true) (hseq : R.seq e = R.last s + 1)
    (hopen : R.closed s = false) : R.receive s e = R.step s e := by
  have hguard : ¬ (R.mine s e = false ∨ R.seq e ≤ R.last s ∨ R.closed s = true) := by
    rw [hmine, hseq, hopen]
    simp
  rw [receive, if_neg hguard, if_neg (not_not.mpr hseq)]

theorem foldl_of_closed (h : R.closed s = true) (es : List ε) : es.foldl R.receive s = s := by
  induction es with
  | nil => rfl
  | cons e es ih => rw [List.foldl_cons, receive_of_closed h, ih]

/-! ### Any deliveries -/

/-- The reader has folded a prefix of the log and nothing else. -/
structure Reads (R : Reader σ ε) (start : σ) (log : List ε) (s : σ) : Prop where
  le_length : R.last s ≤ log.length
  folded : R.forget s = (log.take (R.last s)).foldl R.step start
  received : (log.take (R.last s)).foldl R.receive start = R.forget s
  mine : R.mine s = R.mine start

theorem Fresh.reads (h : R.Fresh start) (log : List ε) : R.Reads start log start where
  le_length := by simp [h.last]
  folded := by simp [h.last, h.forget]
  received := by simp [h.last, h.forget]
  mine := rfl

/-- One delivery, of an entry of the log or of another one. -/
theorem Reads.receive (hR : R.Lawful) (hlog : R.Log start log) (h : R.Reads start log s) {e : ε}
    (he : e ∈ log ∨ R.mine start e = false) : R.Reads start log (R.receive s e) := by
  unfold Reader.receive
  split
  · exact h
  next hguard =>
    have hmine : R.mine s e = true := by
      rcases hm : R.mine s e with _ | _
      · exact absurd (.inl hm) hguard
      · rfl
    have hopen : R.closed s = false := by
      rcases hc : R.closed s with _ | _
      · rfl
      · exact absurd (.inr (.inr hc)) hguard
    split
    · -- a gap is only noted
      refine ⟨?_, ?_, ?_, ?_⟩
      · rw [hR.last_gap]
        exact h.le_length
      · rw [hR.last_gap, hR.forget_gap]
        exact h.folded
      · rw [hR.last_gap, hR.forget_gap]
        exact h.received
      · rw [hR.mine_gap]
        exact h.mine
    next hnext =>
      have hseq : R.seq e = R.last s + 1 := not_not.mp hnext
      have hmem : e ∈ log := he.resolve_right (by rw [← h.mine, hmine]; simp)
      obtain ⟨i, hi, rfl⟩ := List.mem_iff_getElem.mp hmem
      have hlast : R.last s = i := by
        have hnumber := hlog.numbered i hi
        omega
      have htake : log.take (i + 1) = log.take i ++ [log[i]] :=
        List.take_succ_eq_append_getElem hi
      have hfolded := h.folded
      have hreceived := h.received
      rw [hlast] at hfolded hreceived
      have hseq' : R.seq log[i] = i + 1 := by rw [hseq, hlast]
      refine ⟨?_, ?_, ?_, ?_⟩
      · rw [hR.last_step, hseq']
        exact hi
      · rw [hR.last_step, hseq', htake, List.foldl_append, ← hfolded, hR.forget_step]
        rfl
      · rw [hR.last_step, hseq', htake, List.foldl_append, hreceived, hR.forget_step]
        refine receive_next ?_ ?_ ?_
        · rw [hR.mine_forget, hmine]
        · rw [hR.last_forget, hseq]
        · rw [hR.closed_forget, hopen]
      · rw [hR.mine_step]
        exact h.mine

theorem Reads.foldl (hR : R.Lawful) (hlog : R.Log start log) (h : R.Reads start log s)
    (hdeliveries : ∀ e ∈ deliveries, e ∈ log ∨ R.mine start e = false) :
    R.Reads start log (deliveries.foldl R.receive s) := by
  induction deliveries generalizing s with
  | nil => exact h
  | cons e es ih =>
    refine ih (h.receive hR hlog (hdeliveries e (by simp))) ?_
    intro e' he'
    exact hdeliveries e' (by simp [he'])

/-! ### The whole log in order -/

/-- A numbered continuation of what the reader has: every entry is taken up to the first that
ends the log. -/
theorem foldl_through (hR : R.Lawful) (hopen : R.closed s = false)
    (hnumbered : ∀ i (h : i < log.length), R.seq log[i] = R.last s + i + 1)
    (hmine : ∀ e ∈ log, R.mine s e = true) :
    log.foldl R.receive s = (R.through log).foldl R.step s := by
  induction log generalizing s with
  | nil => rfl
  | cons e es ih =>
    have hseq : R.seq e = R.last s + 1 := hnumbered 0 (by simp)
    rw [List.foldl_cons, receive_next (hmine e (by simp)) hseq hopen, through]
    have hclosed := hR.closed_step s e hopen
    split
    next hends =>
      rw [hends] at hclosed
      rw [foldl_of_closed hclosed]
      rfl
    next hends =>
      rw [Bool.not_eq_true] at hends
      refine ih (hclosed.trans hends) ?_ ?_
      · intro i hi
        have hnext := hnumbered (i + 1) (by simpa using hi)
        rw [hR.last_step, hseq]
        simp only [List.getElem_cons_succ] at hnext
        omega
      · intro e' he'
        rw [hR.mine_step]
        exact hmine e' (by simp [he'])

/-- After the first `k` entries in order the reader is closed or has them. -/
theorem Reads.caught_up (hR : R.Lawful) (hlog : R.Log start log) (h : R.Reads start log s) {k : ℕ}
    (hk : k ≤ log.length) :
    R.closed ((log.take k).foldl R.receive s) = true ∨
      k ≤ R.last ((log.take k).foldl R.receive s) := by
  induction k with
  | zero => exact .inr (Nat.zero_le _)
  | succ k ih =>
    have hlt : k < log.length := hk
    rw [List.take_succ_eq_append_getElem hlt, List.foldl_append, List.foldl_cons, List.foldl_nil]
    have hreads : R.Reads start log ((log.take k).foldl R.receive s) :=
      h.foldl hR hlog fun e he => .inl (List.mem_of_mem_take he)
    generalize (log.take k).foldl R.receive s = t at hreads ih
    by_cases hclosed : R.closed t = true
    · rw [receive_of_closed hclosed]
      exact .inl hclosed
    · have hhas : k ≤ R.last t := (ih hlt.le).resolve_left hclosed
      have hseq := hlog.numbered k hlt
      by_cases hbehind : R.last t = k
      · have hmine : R.mine t log[k] = true := by
          rw [hreads.mine]
          exact hlog.mine _ (List.getElem_mem hlt)
        rw [receive_next hmine (by omega) (by simpa using hclosed), hR.last_step, hseq]
        exact .inr le_rfl
      · have hold : R.receive t log[k] = t := if_pos (.inr (.inl (by omega)))
        rw [hold]
        exact .inr (by omega)

/-- Whatever was delivered before, the log in order leads to its fold up to its end. -/
theorem Reads.complete (hR : R.Lawful) (hlog : R.Log start log) (hstart : R.Fresh start)
    (h : R.Reads start log s) :
    R.forget (log.foldl R.receive s) = (R.through log).foldl R.step start := by
  have hinorder : log.foldl R.receive start = (R.through log).foldl R.step start := by
    refine foldl_through hR hstart.closed ?_ hlog.mine
    intro i hi
    rw [hlog.numbered i hi, hstart.last, Nat.zero_add]
  rw [← hinorder]
  have hreads : R.Reads start log (log.foldl R.receive s) :=
    h.foldl hR hlog fun e he => .inl he
  have hcaught := h.caught_up hR hlog (le_refl log.length)
  rw [List.take_length] at hcaught
  generalize log.foldl R.receive s = t at hreads hcaught
  have hsplit : log.foldl R.receive start =
      (log.drop (R.last t)).foldl R.receive ((log.take (R.last t)).foldl R.receive start) := by
    rw [← List.foldl_append, List.take_append_drop]
  rw [hsplit, hreads.received]
  rcases hcaught with hclosed | hall
  · rw [foldl_of_closed]
    rw [hR.closed_forget, hclosed]
  · rw [List.drop_eq_nil_of_le hall]
    rfl

end Reader

end Sequenced
