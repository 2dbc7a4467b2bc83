import SuperMew.Documents.Calls

/-! `DocumentPublication._run_once` as a script: the calls on the catalog, the two chunk
stores and the checks in between, in the order in which one execution makes them. -/

namespace SuperMew.Publication

open Documents

/-! ## Chunks -/

/-- The text that `_required_text` of the catalog keeps. -/
def normalized [Platform] (value : String) : String :=
  String.ofList (stripChars (Platform.nfc value).toList)

/-- A chunk that `load_document` returns. Its id is made of the version id, the canonical
name of the document and numbers; the catalog has normalised that name already, so
normalising the id changes nothing. -/
structure Chunk [Platform] where
  chunkId : String
  contentHash : String
  sectionId : String
  chunkLevel : ℤ
  normal : normalized chunkId = chunkId

variable [Platform]

def Chunk.isParent (c : Chunk) : Bool := c.chunkLevel == 1 || c.chunkLevel == 2

def Chunk.isLeaf (c : Chunk) : Bool := c.chunkLevel == 3

variable (ctx : Context) (documents : List Chunk)

def chunkIds : List String := documents.map Chunk.chunkId

def manifestEntries (storeKind : String) : List ManifestEntry :=
  documents.map fun c => ⟨c.chunkId, c.contentHash, storeKind, c.sectionId, c.chunkLevel⟩

/-! ## Statements -/

inductive Statement where
  /-- A call on the catalog. -/
  | call (op : Op)
  /-- `loader.load_document` and what follows from its answer. -/
  | load
  /-- A check on values that the execution holds; it raises if `ok` is false. -/
  | require (ok : Bool)
  | deleteParents
  | upsertParents (documents : List Chunk)
  | verifyParents (expected : List String)
  | deleteVectors
  | insertVectors (batch : List Chunk)
  | verifyVectors (expected : List String)

/-- What an execution knows of its job: the identifiers, and the fields of the build that it
loaded first. -/
structure Context where
  jobId : Id
  execution : IndexJobExecution
  publicationFence : ℕ
  expectedCurrentVersionId : Option Id
  versionNumber : ℕ
  progressFloor : ℤ

structure Report where
  step : String
  progress : ℤ
  percent : ℤ
  message : String
  totalChunks : Option ℕ
  processedChunks : Option ℕ

namespace Context

variable (ctx : Context)

def guard : Statement := .call (.assertIndexLease ctx.jobId ctx.execution none)

/-- `_step`, through `_update_job`; the progress callback has no effect on the stores. -/
def report (r : Report) : Statement :=
  let count (key : String) (n : Option ℕ) : Dict := n.toList.map fun n => (key, .int n)
  .call (.updateJob {
    jobId := ctx.jobId
    publicationFence := ctx.publicationFence
    status := some .running
    currentStep := some r.step
    progress := some (max 0 (min 100 (max ctx.progressFloor r.progress)))
    stepStatePatch := [
      ("message", .str r.message),
      ("active_step", .str r.step),
      ("active_step_percent", .int (max 0 (min 100 r.percent)))] ++
      count "total_chunks" r.totalChunks ++ count "processed_chunks" r.processedChunks
    incrementAttempts := false
    execution := some ctx.execution })

def recordManifest (parents leaves : List Chunk) : Statement :=
  .call (.recordManifest {
    jobId := ctx.jobId
    publicationFence := ctx.publicationFence
    entries := manifestEntries parents "parent" ++ manifestEntries leaves "vector"
    vectorChunkCount := some leaves.length
    parentChunkCount := some parents.length
    execution := some ctx.execution })

def publish : Statement :=
  .call (.publish {
    jobId := ctx.jobId
    publicationFence := ctx.publicationFence
    expectedCurrentVersionId := ctx.expectedCurrentVersionId
    execution := some ctx.execution })

end Context

/-! ## Writing vectors -/

def Chunk.writable (c : Chunk) : Bool :=
  strip c.chunkId != "" && strip c.sectionId != "" &&
    (let hash := stripChars c.contentHash.toList
    hash.length == 64 && hash.all fun h => isHexDigit h.toLower)

def batches (size : ℕ) : ℕ → List Chunk → List (List Chunk)
  | 0, _ => []
  | _, [] => []
  | fuel + 1, documents => documents.take size :: batches size fuel (documents.drop size)

/-- `round(n / d)`: half goes to the even neighbour. -/
def roundDiv (n d : ℕ) : ℕ :=
  let q := n / d
  if 2 * (n % d) < d ∨ 2 * (n % d) = d ∧ q % 2 = 0 then q else q + 1

/-- `on_vector_progress`. -/
def vectorReport (processed total : ℕ) : Report :=
  let percent := if total = 0 then 100 else roundDiv (processed * 100) total
  { step := "vector_store"
    progress := min (46 + roundDiv (percent * 34) 100) 80
    percent := percent
    message := s!"正在写入候选向量：{processed} / {total}"
    totalChunks := some total
    processedChunks := some processed }

/-- The loop of `write_versioned_documents` over the batches that are left. -/
def writeBatches (ctx : Context) (size total : ℕ) : ℕ → List (List Chunk) → List Statement
  | _, [] => []
  | index, batch :: rest =>
    [ctx.guard, .insertVectors batch, ctx.guard,
      ctx.report (vectorReport (min (index + size) total) total)] ++
      writeBatches ctx size total (index + size) rest

/-- `write_versioned_documents` with its default batch size. -/
def writeVectors (leaves : List Chunk) : List Statement :=
  [.require (leaves.all Chunk.writable &&
      decide (leaves.map fun c => strip c.chunkId).Nodup),
    ctx.guard, .deleteVectors, ctx.guard] ++
    writeBatches ctx 50 leaves.length 0 (batches 50 leaves.length leaves)

/-! ## The run -/

/-- The statements up to the answer of the loader. -/
def buildScript : List Statement := [
  ctx.report ⟨"reserve", 10, 100, s!"候选版本 v{ctx.versionNumber} 已获得发布 fencing", none, none⟩,
  ctx.report ⟨"parse", 12, 5, "正在解析并生成版本隔离的三级分块", none, none⟩,
  ctx.guard,
  .load]

/-- The parent chunks: an earlier attempt may have left some behind, so the scope of the
version is emptied first. -/
def parentScript (parents : List Chunk) : List Statement := [
  ctx.report ⟨"parent_store", 32, 10, "正在写入隔离的候选父级分块", none, none⟩,
  ctx.guard,
  .deleteParents,
  ctx.guard,
  .upsertParents parents,
  ctx.guard,
  .require ((parents.filter fun c => strip c.chunkId != "").length == parents.length),
  .verifyParents (chunkIds parents),
  ctx.guard,
  ctx.report ⟨"parent_store", 45, 100, s!"候选父级分块精确核验通过：{parents.length} 条", none, none⟩]

def indexScript : List Statement :=
  let parents := documents.filter Chunk.isParent
  let leaves := documents.filter Chunk.isLeaf
  let total := leaves.length
  [ctx.guard,
    .require (!leaves.isEmpty),
    ctx.report ⟨"parse", 30, 100, s!"版本化分块完成：父级 {parents.length}，叶子 {total}",
      some total, some 0⟩] ++
  parentScript ctx parents ++
  [ctx.report ⟨"vector_store", 46, 1, s!"正在写入候选向量：0 / {total}", some total, some 0⟩,
    ctx.guard] ++
  writeVectors ctx leaves ++
  [ctx.guard,
    ctx.report ⟨"verify", 85, 25, "正在核验 Parent、Milvus 与 manifest 的精确身份", some total,
      some total⟩,
    ctx.guard,
    .verifyVectors (leaves.map fun c => strip c.chunkId),
    ctx.guard,
    ctx.recordManifest parents leaves,
    ctx.publish]

/-- `_publish_staged`. -/
def stagedScript : List Statement := [ctx.guard, ctx.publish]

end SuperMew.Publication
