import Mathlib.Order.Lattice.Nat
import Mathlib.Data.Nat.Cast.Order.Ring
import SuperMew.Core.Text

/-! The rows of a document version in the vector store: how they are read page by page, and the
check of a version against its manifest. -/

namespace SuperMew.Indexing

def queryMaxLimit : ℕ := 16384

/-- The server rejects a query that reaches beyond this row. -/
def queryWindow : ℕ := 16384

def rejected : Fault := .runtime "MilvusException"

variable (rows : List Dict)

/-- `MilvusClient.query` over the matching rows in their order. -/
def query (offset limit : ℕ) : Except Fault (List Dict) :=
  if queryWindow < offset + limit then .error rejected else .ok ((rows.drop offset).take limit)

def queryFrom (rows : List Dict) : ℕ → ℕ → List Dict → Except Fault (List Dict)
  | 0, _, _ => .error .diverges
  | fuel + 1, offset, out => do
    let batch ← query rows offset queryMaxLimit
    if batch = [] then pure out
    else if batch.length < queryMaxLimit then pure (out ++ batch)
    else queryFrom rows fuel (offset + batch.length) (out ++ batch)

/-- `query_all`: a page that is not the last one has a row, so the rows bound the pages. -/
def queryAll : Except Fault (List Dict) := queryFrom rows (rows.length + 1) 0 []

def chunkId (row : Dict) : Except Fault String :=
  match row.get? "chunk_id" with
  | some (.str id) =>
    if strip id = "" then .error (.runtime "Milvus version row is missing chunk_id") else .ok id
  | _ => .error (.runtime "Milvus version row is missing chunk_id")

def queryVersionChunkIds : Except Fault (List String) := do
  let found ← queryAll rows
  found.mapM chunkId

structure IndexVersionVerification where
  expectedIds : List String
  actualIds : List String
  missingIds : List String
  unexpectedIds : List String
  duplicateIds : List String
  expectedCount : ℕ
  actualCount : ℕ
  exact : Bool

def sorted (ids : List String) : List String := ids.insertionSort (· ≤ ·)

/-- The result of `verify_version` for the ids that were read. -/
def compareIds (expected actual : List String) : IndexVersionVerification :=
  let missing := sorted (expected.dedup.filter (· ∉ actual))
  let unexpected := sorted (actual.dedup.filter (· ∉ expected))
  let duplicate := sorted (actual.dedup.filter (1 < actual.count ·))
  { expectedIds := expected
    actualIds := actual
    missingIds := missing
    unexpectedIds := unexpected
    duplicateIds := duplicate
    expectedCount := expected.length
    actualCount := actual.length
    exact := missing = [] ∧ unexpected = [] ∧ duplicate = [] ∧ expected.length = actual.length }

def verifyVersion (expected : List String) :
    Except Fault IndexVersionVerification := do
  failIf (∃ id ∈ expected, strip id = "")
    (.runtime "expected_chunk_ids must contain non-empty strings")
  failIf (expected.dedup.length ≠ expected.length) (.runtime "expected_chunk_ids must be unique")
  let actual ← queryVersionChunkIds rows
  pure (compareIds expected actual)

/-! ## Pages -/

/-- A full first page is followed by a query that the server rejects. -/
theorem queryAll_eq :
    queryAll rows = if rows.length < queryMaxLimit then .ok rows else .error rejected := by
  have hfirst : query rows 0 queryMaxLimit = .ok (rows.take queryMaxLimit) := by
    simp [query, queryWindow, queryMaxLimit]
  rw [queryAll, queryFrom, hfirst, ok_bind]
  by_cases hsmall : rows.length < queryMaxLimit
  · rw [List.take_of_length_le hsmall.le, if_pos hsmall, if_pos hsmall]
    split
    · rename_i hnil
      rw [hnil]
      rfl
    · rfl
  · have hpage : (rows.take queryMaxLimit).length = queryMaxLimit := by simp; omega
    have hne : rows.take queryMaxLimit ≠ [] := by
      intro hnil
      rw [hnil] at hpage
      cases hpage
    rw [if_neg hne, if_neg (by omega), if_neg hsmall, hpage]
    cases hlength : rows.length with
    | zero => simp [hlength, queryMaxLimit] at hsmall
    | succ n => simp [queryFrom, query, queryWindow, queryMaxLimit, bind, Except.bind]

/-! ## Ids -/

def Stored (ids : List String) : Prop :=
  rows.map (·.get? "chunk_id") = ids.map fun id => some (.str id)

def HasChunkId (row : Dict) : Prop := ∃ id, row.get? "chunk_id" = some (.str id) ∧ strip id ≠ ""

theorem chunkId_eq_ok {row : Dict} {id : String} :
    chunkId row = .ok id ↔ row.get? "chunk_id" = some (.str id) ∧ strip id ≠ "" := by
  unfold chunkId
  grind

variable {rows : List Dict} {ids : List String}

theorem Stored.unique {ids' : List String} (h : Stored rows ids)
    (h' : Stored rows ids') : ids = ids' := by
  refine List.map_injective_iff.mpr ?_ (h.symm.trans h')
  intro a b hab
  cases hab
  rfl

theorem mapM_chunkId_eq_ok :
    rows.mapM chunkId = .ok ids ↔ Stored rows ids ∧ ∀ id ∈ ids, strip id ≠ "" := by
  induction rows generalizing ids with
  | nil => cases ids <;> simp [Stored, pure, Except.pure]
  | cons row rows ih =>
    cases ids with
    | nil => simp [Stored, List.mapM_cons]
    | cons id ids =>
      have htail := @ih ids
      simp only [List.mapM_cons, ok_rules, chunkId_eq_ok, List.cons.injEq]
      simp only [Stored, List.map_cons, List.cons.injEq, List.forall_mem_cons] at htail ⊢
      grind

theorem exists_stored :
    (∃ ids, Stored rows ids ∧ ∀ id ∈ ids, strip id ≠ "") ↔ ∀ row ∈ rows, HasChunkId row := by
  induction rows with
  | nil => simp [Stored]
  | cons row rows ih =>
    rw [List.forall_mem_cons, ← ih]
    constructor
    · rintro ⟨ids, hstored, hids⟩
      cases ids with
      | nil => cases hstored
      | cons id ids =>
        obtain ⟨hrow, hrows⟩ := List.cons.inj hstored
        exact ⟨⟨id, hrow, hids id (by simp)⟩, ids, hrows, fun id hid => hids id (by simp [hid])⟩
    · rintro ⟨⟨id, hrow, hid⟩, ids, hrows, hids⟩
      exact ⟨id :: ids, congrArg₂ List.cons hrow hrows, List.forall_mem_cons.mpr ⟨hid, hids⟩⟩

theorem queryVersionChunkIds_eq_ok :
    queryVersionChunkIds rows = .ok ids ↔
      rows.length < queryMaxLimit ∧ Stored rows ids ∧ ∀ id ∈ ids, strip id ≠ "" := by
  rw [queryVersionChunkIds, queryAll_eq, ← mapM_chunkId_eq_ok]
  split <;> simp_all [bind, Except.bind]

theorem sorted_eq_nil : sorted ids = [] ↔ ids = [] := by
  rw [← List.length_eq_zero_iff, sorted, List.length_insertionSort, List.length_eq_zero_iff]

theorem compareIds_exact {expected actual : List String} (hnodup : expected.Nodup) :
    (compareIds expected actual).exact = true ↔ actual.Perm expected := by
  simp only [compareIds, sorted_eq_nil, decide_eq_true_eq, List.filter_eq_nil_iff, List.mem_dedup,
    not_not, not_lt]
  constructor
  · rintro ⟨hmissing, hunexpected, honce, -⟩
    have hactual : actual.Nodup := by
      rw [List.nodup_iff_count_le_one]
      intro id
      by_cases hid : id ∈ actual
      · exact honce id hid
      · simp [List.count_eq_zero_of_not_mem hid]
    exact (List.perm_ext_iff_of_nodup hactual hnodup).mpr fun id =>
      ⟨hunexpected id, hmissing id⟩
  · intro hperm
    refine ⟨fun id => hperm.mem_iff.mpr, fun id => hperm.mem_iff.mp, fun id _ => ?_,
      hperm.length_eq.symm⟩
    exact List.nodup_iff_count_le_one.mp (hperm.nodup_iff.mpr hnodup) id

/-! ## Complete listings -/

/-- The rows are listed as they are stored, and the check of the version is exact for the manifests
that have the stored ids, each once. -/
structure Complete (rows : List Dict) : Prop where
  listed : ∃ ids, queryVersionChunkIds rows = .ok ids ∧ Stored rows ids
  verified : ∀ expected, (∃ result, verifyVersion rows expected = .ok result ∧ result.exact) ↔
    ∃ ids, Stored rows ids ∧ ids.Perm expected ∧ ids.Nodup

theorem verifyVersion_exact {expected : List String} (hids : queryVersionChunkIds rows = .ok ids) :
    (∃ result, verifyVersion rows expected = .ok result ∧ result.exact) ↔
      ids.Perm expected ∧ ids.Nodup := by
  obtain ⟨-, -, hfull⟩ := queryVersionChunkIds_eq_ok.mp hids
  constructor
  · rintro ⟨result, hresult, hexact⟩
    simp only [verifyVersion, hids, ok_rules, Except.ok.injEq] at hresult
    obtain ⟨_, -, _, hlength, _, rfl, rfl⟩ := hresult
    have hnodup : expected.Nodup := by
      rw [← List.dedup_eq_self]
      exact expected.dedup_sublist.eq_of_length (not_not.mp hlength)
    have hperm := (compareIds_exact hnodup).mp hexact
    exact ⟨hperm, hperm.nodup_iff.mpr hnodup⟩
  · rintro ⟨hperm, hnodup⟩
    have hexpected := hperm.nodup_iff.mp hnodup
    refine ⟨compareIds expected ids, ?_, (compareIds_exact hexpected).mpr hperm⟩
    simp only [verifyVersion, hids, ok_rules]
    refine ⟨(), ?_, (), by simp [hexpected.dedup], ids, rfl, rfl⟩
    rintro ⟨id, hid, hblank⟩
    exact hfull id (hperm.mem_iff.mpr hid) hblank

/-- A version is listed completely iff its rows fit in less than one page and have chunk ids. -/
theorem complete_iff (rows : List Dict) :
    Complete rows ↔ rows.length < queryMaxLimit ∧ ∀ row ∈ rows, HasChunkId row := by
  constructor
  · rintro ⟨⟨ids, hids, -⟩, -⟩
    obtain ⟨hlength, hstored⟩ := queryVersionChunkIds_eq_ok.mp hids
    exact ⟨hlength, exists_stored.mp ⟨ids, hstored⟩⟩
  · rintro ⟨hlength, hrows⟩
    obtain ⟨ids, hstored, hfull⟩ := exists_stored.mpr hrows
    have hids := queryVersionChunkIds_eq_ok.mpr ⟨hlength, hstored, hfull⟩
    refine ⟨⟨ids, hids, hstored⟩, fun expected => ?_⟩
    rw [verifyVersion_exact hids]
    constructor
    · exact fun h => ⟨ids, hstored, h⟩
    · rintro ⟨ids', hstored', h⟩
      rwa [hstored.unique hstored']

def fullPage : List Dict :=
  (List.range queryMaxLimit).map fun n => [("chunk_id", .str s!"chunk-{n}")]

/-- The next page is asked for beyond the window, so nothing is listed. -/
theorem full_page_not_listed :
    queryVersionChunkIds fullPage = .error rejected ∧ ¬ Complete fullPage := by
  have hlength : ¬ fullPage.length < queryMaxLimit := by simp [fullPage]
  have hlisted : queryVersionChunkIds fullPage = .error rejected := by
    rw [queryVersionChunkIds, queryAll_eq, if_neg hlength]
    rfl
  refine ⟨hlisted, ?_⟩
  rintro ⟨⟨ids, hids, -⟩, -⟩
  rw [hlisted] at hids
  cases hids

end SuperMew.Indexing
