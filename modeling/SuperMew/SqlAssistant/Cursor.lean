import SuperMew.Library.Sql.Erasure
import SuperMew.SqlAssistant.Policy

/-! `_execute_cursor`: the rows of a compiled query, masked and within their limits. -/

namespace SuperMew.SqlAssistant

open Sql

inductive SqlAssistantErrorCode where
  | queryCancelled
  | queryTimeout
  | resultLimitExceeded
  | executionFailed
  | database (error : SqlError)
  deriving DecidableEq, Repr

structure SqlAssistantSettings where
  fetchSize : ℕ
  maxCellBytes : ℕ
  maxResultBytes : ℕ
  fetch : 1 ≤ fetchSize ∧ fetchSize ≤ 10000

/-- `_json_value` and the length of `_json_bytes`, for cells, rows and whole results. -/
class ResultCodec (V C : Type) where
  maskedValue : C
  jsonValue : V → Except SqlAssistantErrorCode C
  cellBytes : C → Except SqlAssistantErrorCode ℕ
  rowBytes : List C → Except SqlAssistantErrorCode ℕ
  payloadBytes : List String → List (List C) → ℕ → Bool → Except SqlAssistantErrorCode ℕ

structure SqlQueryResult (C : Type) where
  columns : List String
  rows : List (List C)
  rowCount : ℕ
  truncated : Bool
  resultBytes : ℕ
  maskedColumnCount : ℕ
  limitApplied : ℕ

/-- The rows so far and their bytes. -/
structure Progress (C : Type) where
  rows : List (List C)
  bytes : ℕ
  truncated : Bool

variable {V C Text : Type}

section Rows

variable [ResultCodec V C] (settings : SqlAssistantSettings) (maskedOrdinals : List ℕ)
  (maxRows width : ℕ)

def normalizeCell (ordinal : ℕ) (value : V) : Except SqlAssistantErrorCode C := do
  let cell ← if maskedOrdinals.contains ordinal then .ok (ResultCodec.maskedValue V)
    else ResultCodec.jsonValue value
  let bytes ← ResultCodec.cellBytes V cell
  failIf (settings.maxCellBytes < bytes) .resultLimitExceeded
  pure cell

def normalizeCells : ℕ → List V → Except SqlAssistantErrorCode (List C)
  | _, [] => .ok []
  | ordinal, value :: rest => do
      let cell ← normalizeCell settings maskedOrdinals ordinal value
      let cells ← normalizeCells (ordinal + 1) rest
      pure (cell :: cells)

def addRow (progress : Progress C) (row : List V) : Except SqlAssistantErrorCode (Progress C) := do
  failIf (row.length ≠ width) .executionFailed
  if maxRows ≤ progress.rows.length then pure { progress with truncated := true }
  else
    let cells ← normalizeCells settings maskedOrdinals 0 row
    let bytes ← ResultCodec.rowBytes V cells
    failIf (settings.maxResultBytes < progress.bytes + bytes + 1) .resultLimitExceeded
    pure ⟨progress.rows ++ [cells], progress.bytes + bytes + 1, false⟩

def addBatch : Progress C → List (List V) → Except SqlAssistantErrorCode (Progress C)
  | progress, [] => .ok progress
  | progress, row :: rest => do
      let progress ← addRow settings maskedOrdinals maxRows width progress row
      if progress.truncated then pure progress else addBatch progress rest

/-- The loop over `fetchmany`. Before each batch it may be cancelled or time out. -/
def fetchAll (interrupted : ℕ → Option SqlAssistantErrorCode) (round : ℕ) (progress : Progress C)
    (cursor : List (List V)) : Except SqlAssistantErrorCode (Progress C) :=
  if maxRows < progress.rows.length then .ok progress
  else
    match interrupted round with
    | some code => .error code
    | none =>
      let batch := cursor.take (min settings.fetchSize (maxRows + 1 - progress.rows.length))
      if _h : batch.length = 0 then .ok progress
      else
        match addBatch settings maskedOrdinals maxRows width progress batch with
        | .error code => .error code
        | .ok progress =>
          if progress.truncated then .ok progress
          else fetchAll interrupted (round + 1) progress (cursor.drop batch.length)
termination_by cursor.length
decreasing_by
  rw [List.length_drop]
  have hcursor : batch.length ≤ cursor.length := List.length_take_le' _ _
  have hbatch : 0 < batch.length := Nat.pos_of_ne_zero _h
  exact Nat.sub_lt (Nat.lt_of_lt_of_le hbatch hcursor) hbatch

end Rows

/-- `_execute_cursor`, for the text that the database reads. -/
def executeCursor (V C : Type) [Engine V] [Sqlglot V Text] [ResultCodec V C]
    (settings : SqlAssistantSettings) (interrupted : ℕ → Option SqlAssistantErrorCode)
    (compiled : CompiledSqlQuery Text) (db : Database V) :
    Except SqlAssistantErrorCode (SqlQueryResult C) :=
  match Sqlglot.parse compiled.executableSql with
  | some [.query (query : Query V)] =>
    match query.rows db [] [] with
    | .error e => .error (.database e)
    | .ok cursor => do
        let columns := query.labels
        failIf (compiled.maskedOrdinals.any (columns.length ≤ ·) = true) .executionFailed
        let bytes ← ResultCodec.payloadBytes (C := C) V columns [] compiled.maxRows true
        let progress ← fetchAll settings compiled.maskedOrdinals compiled.maxRows columns.length
          interrupted 0 (⟨[], bytes, false⟩ : Progress C) cursor
        let resultBytes ← ResultCodec.payloadBytes V columns progress.rows progress.rows.length
          progress.truncated
        failIf (settings.maxResultBytes < resultBytes) .resultLimitExceeded
        pure ⟨columns, progress.rows, progress.rows.length, progress.truncated, resultBytes,
          compiled.maskedOrdinals.length, compiled.limitApplied⟩
  | _ => .error .executionFailed

/-! ## Masked cells -/

variable {settings : SqlAssistantSettings} {maskedOrdinals : List ℕ}

section Masked

variable [ResultCodec V C] {maxRows width : ℕ} {mask : List Bool}

theorem normalizeCell_masked {ordinal : ℕ} (h : ordinal ∈ maskedOrdinals) (v w : V) :
    (normalizeCell settings maskedOrdinals ordinal v : Except _ C) =
      normalizeCell settings maskedOrdinals ordinal w := by
  simp [normalizeCell, List.contains_eq_mem, h, decide_true]

variable [Engine V]

theorem normalizeCells_erase {start : ℕ}
    (h : ∀ i, mask[i]?.getD false = true → start + i ∈ maskedOrdinals) (row : List V) :
    (normalizeCells settings maskedOrdinals start (eraseRow mask row) : Except _ (List C)) =
      normalizeCells settings maskedOrdinals start row := by
  induction mask generalizing start row with
  | nil => simp
  | cons flag mask ih =>
    cases row with
    | nil => rfl
    | cons v row =>
      have hcell : (normalizeCell settings maskedOrdinals start
          (if flag then Engine.null else v) : Except _ C) =
          normalizeCell settings maskedOrdinals start v := by
        cases flag with
        | false => rfl
        | true => exact normalizeCell_masked (h 0 rfl) _ _
      have hrest : (normalizeCells settings maskedOrdinals (start + 1) (eraseRow mask row) :
          Except _ (List C)) = normalizeCells settings maskedOrdinals (start + 1) row := by
        refine ih (fun i hi => ?_) row
        rw [Nat.add_assoc, Nat.add_comm 1]
        exact h (i + 1) hi
      simp [eraseRow, normalizeCells, hcell, hrest]

theorem eraseRow_length (mask : List Bool) (row : List V) :
    (eraseRow mask row).length = row.length := by
  induction mask generalizing row with
  | nil => simp
  | cons flag mask ih => cases row <;> simp [eraseRow, ih]

variable (h : ∀ i, mask[i]?.getD false = true → i ∈ maskedOrdinals)

include h

theorem addRow_erase (progress : Progress C) (row : List V) :
    addRow settings maskedOrdinals maxRows width progress (eraseRow mask row) =
      addRow settings maskedOrdinals maxRows width progress row := by
  have hmasked : ∀ i, mask[i]?.getD false = true → 0 + i ∈ maskedOrdinals := by
    simpa only [Nat.zero_add] using h
  simp [addRow, eraseRow_length, normalizeCells_erase hmasked]

theorem addBatch_erase (progress : Progress C) (rows : List (List V)) :
    addBatch settings maskedOrdinals maxRows width progress (rows.map (eraseRow mask)) =
      addBatch settings maskedOrdinals maxRows width progress rows := by
  induction rows generalizing progress with
  | nil => rfl
  | cons row rows ih => simp [addBatch, addRow_erase h, ih]

/-- What the loop returns does not depend on the cells that are masked. -/
theorem fetchAll_erase (interrupted : ℕ → Option SqlAssistantErrorCode) (round : ℕ)
    (progress : Progress C) (cursor : List (List V)) :
    fetchAll settings maskedOrdinals maxRows width interrupted round progress
        (cursor.map (eraseRow mask)) =
      fetchAll settings maskedOrdinals maxRows width interrupted round progress cursor := by
  induction hlength : cursor.length using Nat.strong_induction_on
    generalizing cursor progress round with
  | _ n ih =>
    conv_lhs => rw [fetchAll]
    conv_rhs => rw [fetchAll]
    simp only [← List.map_take, List.length_map, addBatch_erase h]
    split
    · rfl
    · cases interrupted round with
      | some code => rfl
      | none =>
        dsimp only
        split
        · rfl
        · rename_i hbatch
          split
          · rfl
          · split
            · rfl
            · rw [← List.map_drop]
              refine ih _ ?_ _ _ _ rfl
              rw [List.length_drop]
              have hcursor := List.length_take_le'
                (min settings.fetchSize (maxRows + 1 - progress.rows.length)) cursor
              omega

end Masked

/-! ## Limits -/

section Limits

variable [ResultCodec V C] {maxRows width : ℕ} {progress progress' : Progress C}

theorem addRow_rows {row : List V}
    (h : addRow settings maskedOrdinals maxRows width progress row = .ok progress') :
    maxRows ≤ progress.rows.length ∧ progress'.rows = progress.rows ∧ progress'.truncated = true ∨
      progress.rows.length < maxRows ∧ progress'.rows.length = progress.rows.length + 1 ∧
        progress'.truncated = false := by
  simp only [addRow, bind_eq_ok] at h
  obtain ⟨_, -, h⟩ := h
  split at h
  · rename_i hfull
    obtain rfl := pure_eq_ok.mp h
    exact .inl ⟨hfull, rfl, rfl⟩
  · rename_i hroom
    simp only [bind_eq_ok] at h
    obtain ⟨cells, -, bytes, -, _, -, h⟩ := h
    obtain rfl := pure_eq_ok.mp h
    exact .inr ⟨Nat.lt_of_not_le hroom, by simp, rfl⟩

variable (hroom : progress.rows.length ≤ maxRows)

include hroom

variable (htruncated : progress.truncated = false)

include htruncated

theorem addBatch_rows {rows : List (List V)}
    (h : addBatch settings maskedOrdinals maxRows width progress rows = .ok progress') :
    progress'.rows.length ≤ maxRows ∧
      (progress'.truncated = true → maxRows < progress.rows.length + rows.length) ∧
      (progress'.truncated = false →
        progress'.rows.length = progress.rows.length + rows.length) := by
  induction rows generalizing progress with
  | nil =>
    cases h
    simp [hroom, htruncated]
  | cons row rows ih =>
    simp only [addBatch, ok_rules] at h
    obtain ⟨middle, hrow, h⟩ := h
    rcases addRow_rows hrow with ⟨hfull, hsame, hstopped⟩ | ⟨hspace, hlength, hgoing⟩
    · rw [hstopped, if_pos rfl] at h
      cases h
      refine ⟨by rw [hsame]; exact hroom, fun _ => ?_, by simp [hstopped]⟩
      rw [List.length_cons]
      omega
    · rw [hgoing] at h
      obtain ⟨hmax, hcut, hall⟩ := ih (by omega) hgoing h
      rw [List.length_cons]
      refine ⟨hmax, fun hc => ?_, fun hc => ?_⟩
      · have := hcut hc
        omega
      · have := hall hc
        omega

/-- The loop keeps at most `max_rows` rows, and says whether there were more. -/
theorem fetchAll_rows {interrupted : ℕ → Option SqlAssistantErrorCode} {round : ℕ}
    {cursor : List (List V)}
    (h : fetchAll settings maskedOrdinals maxRows width interrupted round progress cursor =
      .ok progress') :
    progress'.rows.length ≤ maxRows ∧
      (progress'.truncated = true ↔ maxRows < progress.rows.length + cursor.length) := by
  induction hlength : cursor.length using Nat.strong_induction_on
    generalizing cursor progress round with
  | _ n ih =>
    rw [fetchAll] at h
    split at h
    · omega
    · split at h
      · cases h
      · dsimp only at h
        split at h
        · rename_i hempty
          cases h
          have hcursor : cursor.length = 0 := by
            have hfetch := settings.fetch.1
            rw [List.length_take] at hempty
            omega
          refine ⟨hroom, ?_⟩
          simp only [htruncated, Bool.false_eq_true, false_iff, not_lt]
          omega
        · rename_i hbatch
          split at h
          · cases h
          · rename_i middle hadd
            obtain ⟨hmax, hcut, hall⟩ := addBatch_rows hroom htruncated hadd
            have hsize := List.length_take_le'
              (min settings.fetchSize (maxRows + 1 - progress.rows.length)) cursor
            split at h
            · rename_i hstopped
              cases h
              refine ⟨hmax, ?_⟩
              have hmore := hcut hstopped
              simp only [hstopped, true_iff]
              omega
            · rename_i hgoing
              have hmiddle := hall (by simpa using hgoing)
              obtain ⟨hkept, hiff⟩ := ih _ (by rw [List.length_drop]; omega) hmax
                (by simpa using hgoing) h rfl
              refine ⟨hkept, hiff.trans ?_⟩
              rw [List.length_drop, hmiddle]
              omega

end Limits

end SuperMew.SqlAssistant
