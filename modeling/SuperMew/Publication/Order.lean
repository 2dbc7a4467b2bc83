import SuperMew.Publication.Ownership
import SuperMew.Publication.Script

/-! The order of the statements in the script of an execution: every write is verified, and
what is verified is what the manifest lists. -/

namespace SuperMew.Publication

open List Documents

variable [Platform] {j : Id} {k : IndexJobExecution}

/-! ## Scripts -/

/-- All statements but the guards and `publish` belong to the build. -/
def Statement.builds : Statement → Bool
  | .call (.assertIndexLease ..) => false
  | .call (.publish _) => false
  | _ => true

/-- A manifest that the statement records lists `ids` for the store. -/
def Statement.Lists (kind : StoreKind) (ids : List String) : Statement → Prop
  | .call (.recordManifest r) => r.Lists kind ids
  | _ => True

/-- What has to follow a statement: a write is verified, what is verified is what the
manifest lists, and the build ends with its manifest. -/
def Statement.Precedes (j : Id) (k : IndexJobExecution) (rest : List Statement) : Statement → Prop
  | .call (.recordManifest r) =>
    r.jobId = j ∧ r.execution = some k ∧ ∀ st ∈ rest, st.builds = false
  | .deleteParents | .upsertParents _ => ∃ ids, .verifyParents ids ∈ rest
  | .verifyParents ids => ∀ st ∈ rest, st.Lists .parent ids
  | .deleteVectors | .insertVectors _ => ∃ ids, .verifyVectors ids ∈ rest
  | .verifyVectors ids => ∀ st ∈ rest, st.Lists .vector ids
  | _ => True

def Ordered (j : Id) (k : IndexJobExecution) : List Statement → Prop
  | [] => True
  | st :: rest => st.Precedes j k rest ∧ Ordered j k rest

/-! ## The manifest that a script records -/

theorem requiredText_ok {value field text : String} {maximum : ℕ}
    (h : requiredText value field maximum = .ok text) : text = normalized value := by
  simp only [requiredText] at h
  split at h
  · cases h
  · exact (Except.ok.inj h).symm

theorem strip_chunkId (c : Chunk) : strip c.chunkId = c.chunkId := by
  have hnormal := c.normal
  rw [strip]
  nth_rewrite 1 [← hnormal]
  rw [normalized, String.toList_ofList, stripChars_stripChars]
  exact hnormal

theorem normalizeManifest_ok {entries : List ManifestEntry} {acc rows : List ManifestRow}
    (h : normalizeManifest entries acc = .ok rows) :
    ∃ added, rows = acc ++ added ∧ List.Forall₂ (fun e row => manifestEntry e = .ok row) entries added := by
  induction entries generalizing acc with
  | nil =>
    cases h
    exact ⟨[], by simp, .nil⟩
  | cons e entries ih =>
    simp only [normalizeManifest, ok_rules] at h
    obtain ⟨row, hrow, _, _, h⟩ := h
    obtain ⟨added, rfl, hadded⟩ := ih h
    exact ⟨row :: added, by simp, .cons hrow hadded⟩

theorem normalizeManifest_append (xs ys : List ManifestEntry) (acc : List ManifestRow) :
    normalizeManifest (xs ++ ys) acc = normalizeManifest xs acc >>= normalizeManifest ys := by
  induction xs generalizing acc with
  | nil => rfl
  | cons e xs ih => simp [cons_append, normalizeManifest, ih, bind_assoc]

variable {storeKind : String} (ctx : Context)

section Manifest

variable [AsciiNormal]

theorem normalized_kind (h : storeKind = "vector" ∨ storeKind = "parent") :
    normalized storeKind = storeKind := by
  obtain rfl | rfl := h
  · rw [normalized, AsciiNormal.nfc_ascii _ (by decide +kernel)]
    decide +kernel
  · rw [normalized, AsciiNormal.nfc_ascii _ (by decide +kernel)]
    decide +kernel

theorem manifestRows_ok {documents : List Chunk} {kind : StoreKind}
    (hkind : storeKind = "vector" ∧ kind = .vector ∨ storeKind = "parent" ∧ kind = .parent)
    {rows : List ManifestRow} (h : List.Forall₂ (fun e row => manifestEntry e = .ok row)
      (manifestEntries documents storeKind) rows) :
    rows.map ManifestRow.chunkId = chunkIds documents ∧ ∀ row ∈ rows, row.storeKind = kind := by
  induction documents generalizing rows with
  | nil =>
    cases h
    simp [chunkIds]
  | cons c documents ih =>
    obtain _ | ⟨hrow, hrest⟩ := h
    rename_i row rows
    obtain ⟨hids, hkinds⟩ := ih hrest
    simp only [manifestEntry, ok_rules] at hrow
    obtain ⟨id, hid, _, _, text, htext, kind', hkind', _, _, rfl⟩ := hrow
    have hchunk : id = c.chunkId := (requiredText_ok hid).trans c.normal
    have hstore : text = storeKind :=
      (requiredText_ok htext).trans (normalized_kind (hkind.imp And.left And.left))
    have hstored : kind' = kind := by
      obtain ⟨rfl, rfl⟩ | ⟨rfl, rfl⟩ := hkind <;> simpa [hstore] using hkind'.symm
    refine ⟨?_, forall_mem_cons.mpr ⟨hstored, hkinds⟩⟩
    simp [hids, hchunk, chunkIds]

theorem Context.lists (parents leaves : List Chunk) :
    (ctx.recordManifest parents leaves).Lists .parent (chunkIds parents) ∧
      (ctx.recordManifest parents leaves).Lists .vector (chunkIds leaves) := by
  have hrows : ∀ rows, normalizeManifest (manifestEntries parents "parent" ++
      manifestEntries leaves "vector") [] = .ok rows →
      (rows.filter fun row => row.storeKind == .parent).map ManifestRow.chunkId =
        chunkIds parents ∧
      (rows.filter fun row => row.storeKind == .vector).map ManifestRow.chunkId =
        chunkIds leaves := by
    intro rows h
    rw [normalizeManifest_append, bind_eq_ok] at h
    obtain ⟨mid, hparents, hleaves⟩ := h
    obtain ⟨ps, rfl, hps⟩ := normalizeManifest_ok hparents
    obtain ⟨ls, rfl, hls⟩ := normalizeManifest_ok hleaves
    obtain ⟨hpids, hpkinds⟩ := manifestRows_ok (.inr ⟨rfl, rfl⟩) hps
    obtain ⟨hlids, hlkinds⟩ := manifestRows_ok (.inl ⟨rfl, rfl⟩) hls
    rw [filter_append, filter_append]
    constructor
    · rw [filter_eq_self.mpr (by simpa using hpkinds),
        filter_eq_nil_iff.mpr (by simp +contextual [hlkinds]), append_nil, hpids]
    · rw [filter_eq_nil_iff.mpr (by simp +contextual [hpkinds]),
        filter_eq_self.mpr (by simpa using hlkinds), nil_append, hlids]
  exact ⟨fun rows h => (hrows rows h).1, fun rows h => (hrows rows h).2⟩

end Manifest

/-! ## The order of the scripts -/

theorem ordered_buildScript : Ordered j k (buildScript ctx) :=
  ⟨trivial, trivial, trivial, trivial, trivial⟩

theorem ordered_stagedScript : Ordered j k (stagedScript ctx) :=
  ⟨trivial, trivial, trivial⟩

theorem lists_writeBatches (size total : ℕ) (kind : StoreKind) (ids : List String)
    (index : ℕ) (rest : List (List Chunk)) :
    ∀ st ∈ writeBatches ctx size total index rest, st.Lists kind ids := by
  induction rest generalizing index with
  | nil => simp [writeBatches]
  | cons batch rest ih =>
    intro st hst
    simp only [writeBatches, cons_append, nil_append, mem_cons] at hst
    obtain rfl | rfl | rfl | rfl | hst := hst
    · trivial
    · trivial
    · trivial
    · trivial
    · exact ih _ st hst

variable {tail : List Statement}

theorem ordered_writeBatches (size total index : ℕ) (rest : List (List Chunk))
    (htail : Ordered j k tail) (hverify : ∃ ids, .verifyVectors ids ∈ tail) :
    Ordered j k (writeBatches ctx size total index rest ++ tail) := by
  induction rest generalizing index with
  | nil => exact htail
  | cons batch rest ih =>
    obtain ⟨ids, hids⟩ := hverify
    refine ⟨trivial, ⟨ids, ?_⟩, trivial, trivial, ih _⟩
    simp [hids]

/-- The statements after the last vector has been written. -/
theorem ordered_closing [AsciiNormal] {ctx : Context} (hjob : ctx.jobId = j)
    (hexec : ctx.execution = k) (r : Report) (parents leaves : List Chunk) :
    Ordered j k [ctx.guard, ctx.report r, ctx.guard,
      .verifyVectors (leaves.map fun c => strip c.chunkId), ctx.guard,
      ctx.recordManifest parents leaves, ctx.publish] := by
  have hids : (leaves.map fun c => strip c.chunkId) = chunkIds leaves :=
    map_congr_left fun c _ => strip_chunkId c
  refine ⟨trivial, trivial, trivial, ?_, trivial, ⟨hjob, congrArg some hexec, ?_⟩, trivial, trivial⟩
  · rw [hids]
    simp only [Statement.Precedes, forall_mem_cons]
    exact ⟨trivial, (ctx.lists parents leaves).2, trivial, by simp⟩
  · simp [Context.publish, Statement.builds]

theorem ordered_writeVectors (leaves : List Chunk)
    (htail : Ordered j k tail) (hverify : ∃ ids, .verifyVectors ids ∈ tail) :
    Ordered j k (writeVectors ctx leaves ++ tail) := by
  obtain ⟨ids, hids⟩ := hverify
  refine ⟨trivial, trivial, ⟨ids, ?_⟩, trivial, ordered_writeBatches _ _ _ _ _ htail ⟨ids, hids⟩⟩
  simp [hids]

theorem ordered_parentScript (parents : List Chunk)
    (htail : Ordered j k tail) (hlists : ∀ st ∈ tail, st.Lists .parent (chunkIds parents)) :
    Ordered j k (parentScript ctx parents ++ tail) := by
  refine ⟨trivial, trivial, ⟨chunkIds parents, ?_⟩, trivial, ⟨chunkIds parents, ?_⟩, trivial,
    trivial, ?_, trivial, trivial, htail⟩
  · simp
  · simp
  · exact forall_mem_cons.mpr ⟨trivial, forall_mem_cons.mpr ⟨trivial, hlists⟩⟩

theorem ordered_indexScript [AsciiNormal] {ctx : Context} (hjob : ctx.jobId = j)
    (hexec : ctx.execution = k) (documents : List Chunk) :
    Ordered j k (indexScript ctx documents) := by
  simp only [indexScript, append_assoc]
  refine ⟨trivial, trivial, trivial, ordered_parentScript _ _ ⟨trivial, trivial, ?_⟩ ?_⟩
  · refine ordered_writeVectors _ _ (ordered_closing hjob hexec _ _ _) ?_
    exact ⟨(documents.filter Chunk.isLeaf).map fun c => strip c.chunkId, by simp⟩
  · simp only [writeVectors, cons_append, nil_append, forall_mem_cons, forall_mem_append]
    refine ⟨trivial, trivial, trivial, trivial, trivial, trivial, lists_writeBatches _ _ _ _ _ _ _,
      trivial, trivial, trivial, trivial, trivial, (ctx.lists _ _).1, trivial, by simp⟩

end SuperMew.Publication
