import Mathlib.Data.Rat.Defs
import Mathlib.Algebra.Order.Ring.Rat
import SuperMew.Core.Text
import SuperMew.Library.Faults

/-! Retrieval of evidence: catalog snapshot, embedding, vector targets, auto-merging into
parent chunks and reranking, with the answer of every provider call given from outside. -/

namespace SuperMew.Rag

open Faults Traced

/-! ## Provider calls -/

inductive ProviderCode where
  | embeddingUnavailable
  | vectorStoreUnavailable
  | rerankTimeout
  | rerankRateLimited
  | rerankUnavailable
  | rerankInvalidResponse
  | rerankCircuitOpen
  | modelTimeout
  | modelRateLimited
  | modelUnavailable
  | toolTimeout
  | toolUnavailable
  | providerAuthenticationFailed
  | providerRequestInvalid
  | providerTimeout
  | policyDenied
  deriving DecidableEq, Repr

def ProviderCode.value : ProviderCode → String
  | embeddingUnavailable => "EMBEDDING_UNAVAILABLE"
  | vectorStoreUnavailable => "VECTOR_STORE_UNAVAILABLE"
  | rerankTimeout => "RERANK_TIMEOUT"
  | rerankRateLimited => "RERANK_RATE_LIMITED"
  | rerankUnavailable => "RERANK_UNAVAILABLE"
  | rerankInvalidResponse => "RERANK_INVALID_RESPONSE"
  | rerankCircuitOpen => "RERANK_CIRCUIT_OPEN"
  | modelTimeout => "MODEL_TIMEOUT"
  | modelRateLimited => "MODEL_RATE_LIMITED"
  | modelUnavailable => "MODEL_UNAVAILABLE"
  | toolTimeout => "TOOL_TIMEOUT"
  | toolUnavailable => "TOOL_UNAVAILABLE"
  | providerAuthenticationFailed => "PROVIDER_AUTHENTICATION_FAILED"
  | providerRequestInvalid => "PROVIDER_REQUEST_INVALID"
  | providerTimeout => "PROVIDER_TIMEOUT"
  | policyDenied => "POLICY_DENIED"

inductive ProviderOperation where
  | embedding
  | vectorSearch
  | rerank
  | model
  | tool
  deriving DecidableEq, Repr

/-- A provider error; its snapshot carries the same fields. -/
structure ProviderError where
  code : ProviderCode
  provider : String
  operation : ProviderOperation
  retryAfterSeconds : Option ℚ := none
  attempts : ℕ := 1
  maxAttempts : ℕ := 1
  deriving DecidableEq, Repr

/-- What a RAG execution raises: a provider error, or another exception of the code. -/
inductive Raised where
  | provider (error : ProviderError)
  | other (exception : String)
  deriving DecidableEq, Repr

def Raised.IsProvider : Raised → Prop
  | provider _ => True
  | other _ => False

inductive Relevance where
  | none
  | weak
  | strong
  deriving DecidableEq, Repr

inductive Answerability where
  | none
  | partly
  | sufficient
  deriving DecidableEq, Repr

inductive Ambiguity where
  | none
  | missingSlot
  | multipleCandidates
  deriving DecidableEq, Repr

/-- The routes a grader may choose and `_resolve_route` returns. -/
inductive Route where
  | answer
  | rewrite
  | clarify
  | scopeSelect
  | noKnowledge
  deriving DecidableEq, Repr

structure EvidenceGrade where
  relevance : Relevance
  answerability : Answerability
  ambiguity : Ambiguity := .none
  route : Route
  confidence : ℚ := 0
  missingSlots : List String := []
  hitlPrompt : String := ""
  hitlOptions : List String := []
  reason : String := ""
  confidence_mem : 0 ≤ confidence ∧ confidence ≤ 1 := by decide
  deriving DecidableEq

inductive Service where
  | planner
  | catalog
  | embedding
  | vector
  | parentStore
  | rerank
  | grader
  | rewrite
  deriving DecidableEq, Repr

/-- The path a call belongs to: the main one, or the `i`-th sub-question. -/
inductive Site where
  | main
  | sub (i : ℕ)
  deriving DecidableEq, Repr

inductive Reply where
  | failed
  | graded (grade : EvidenceGrade)
  | done
  deriving DecidableEq

structure Call where
  site : Site := .main
  service : Service
  reply : Reply
  deriving DecidableEq

abbrev Execution (α : Type) := Traced Call Raised α

/-- A call failed that no fallback replaces. -/
def Call.Fatal (call : Call) : Prop := call.reply = .failed ∧ call.service ≠ .rerank

/-- The answer of a provider call once the executor has spent its attempts. -/
abbrev Answer (α : Type) := Except ProviderError α

/-- `_provider_executor.call`: the answer is logged, and an error is raised. -/
def callProvider {α : Type} (service : Service) (answer : Answer α) : Execution α :=
  call
    (fun result => { service, reply := if result.isOk then .done else .failed })
    (answer.mapError Raised.provider)

/-! ## Retrieved documents -/

structure Doc where
  chunkId : Option String := none
  parentChunkId : Option String := none
  filename : Json := .null
  pageNumber : Json := .null
  text : Json := .null
  tenantId : Json := .null
  knowledgeBaseId : Json := .null
  documentId : Json := .null
  documentVersionId : Json := .null
  indexVersion : Json := .null
  score : Option ℚ := none
  rerankScore : Option ℚ := none
  rrfRank : Option ℕ := none
  mergedFromChildren : Bool := false
  mergedChildCount : Option ℕ := none
  deriving DecidableEq

/-- `str(value or "").strip()`. -/
def scopeText (value : Json) : String :=
  match value with
  | .null | .bool false | .int 0 => ""
  | value => strip value.text

def effectiveScore (doc : Doc) : Option ℚ := doc.rerankScore <|> doc.score

def mergeRankScoreInto (target source : Doc) : Doc :=
  match effectiveScore source with
  | none => target
  | some incoming =>
    if source.rerankScore.isSome || target.rerankScore.isSome then
      { target with rerankScore := some ((target.rerankScore.map (max · incoming)).getD incoming) }
    else
      { target with score := some ((target.score.map (max · incoming)).getD incoming) }

/-- The key under which duplicates are merged: the chunk, or what the document shows. -/
def dedupeKey (doc : Doc) : String :=
  let chunkId := strip (doc.chunkId.getD "")
  if chunkId.isEmpty then
    doc.filename.text ++ "|" ++ doc.pageNumber.text ++ "|" ++ doc.text.text
  else chunkId

def dedupeStep (seen : List (String × Doc)) (item : Doc) : List (String × Doc) :=
  let key := dedupeKey item
  if seen.any (·.1 == key) then
    seen.map fun entry =>
      if entry.1 == key then (key, mergeRankScoreInto entry.2 item) else entry
  else seen ++ [(key, item)]

variable (settings : Settings) (docs : List Doc)

def dedupeDocuments : List Doc := (docs.foldl dedupeStep []).map (·.2)

theorem dedupeStep_ne_nil (seen : List (String × Doc)) (item : Doc) : dedupeStep seen item ≠ [] := by
  unfold dedupeStep
  by_cases h : seen.any (·.1 == dedupeKey item)
  · rw [if_pos h]
    intro hnil
    rw [List.map_eq_nil_iff.mp hnil] at h
    simp at h
  · rw [if_neg h]
    simp

@[simp] theorem dedupeDocuments_eq_nil {docs : List Doc} : dedupeDocuments docs = [] ↔ docs = [] := by
  constructor
  · intro h
    by_contra hne
    obtain ⟨front, item, rfl⟩ := (List.eq_nil_or_concat' docs).resolve_left hne
    rw [dedupeDocuments, List.foldl_append] at h
    exact dedupeStep_ne_nil _ _ (List.map_eq_nil_iff.mp h)
  · rintro rfl
    rfl

/-! ## Auto-merging -/

def parentMatchesChildScope (parent child : Doc) : Bool :=
  (match parent.text with
    | .str text => !(strip text).isEmpty
    | _ => false) &&
  parent.filename == child.filename &&
  [ (parent.tenantId, child.tenantId), (parent.knowledgeBaseId, child.knowledgeBaseId),
    (parent.documentId, child.documentId),
    (parent.documentVersionId, child.documentVersionId),
    (parent.indexVersion, child.indexVersion) ].all fun pair =>
      !(scopeText pair.2).isEmpty && !(scopeText pair.1).isEmpty &&
        scopeText pair.1 == scopeText pair.2

def parentId (doc : Doc) : String := strip (doc.parentChunkId.getD "")

def childrenOf (parent : String) : List Doc :=
  docs.filter fun doc => parentId doc == parent

structure MergeState where
  merged : List Doc := []
  slots : List (String × ℕ) := []
  count : ℕ := 0

/-- One candidate of the merge loop; `parents` finds the stored parents by chunk. -/
def mergeStep (parents : String → Option Doc) (state : MergeState) (doc : Doc) : MergeState :=
  match if (parentId doc).isEmpty then none else parents (parentId doc) with
  | none => { state with merged := state.merged ++ [doc] }
  | some parent =>
    match state.slots.lookup (parentId doc) with
    | some slot =>
      { state with
        merged := state.merged.modify slot fun existing => mergeRankScoreInto existing doc
        count := state.count + 1 }
    | none =>
      { merged := state.merged ++ [{ mergeRankScoreInto parent doc with
          mergedFromChildren := true
          mergedChildCount := some (childrenOf docs (parentId doc)).length }]
        slots := (parentId doc, state.merged.length) :: state.slots
        count := state.count + 1 }

/-- The stored parent of a chunk, when it matches the scope of every child; a later
document of the store with the same chunk replaces an earlier one. -/
def parentMap (stored : List Doc) (parent : String) : Option Doc :=
  (stored.filter fun item =>
    item.chunkId.getD "" != "" && item.chunkId.getD "" == parent &&
      (childrenOf docs parent).all (parentMatchesChildScope item)).getLast?

def mergeParentIds (threshold : ℤ) : List String :=
  ((docs.map parentId).eraseDups.filter fun parent => !parent.isEmpty).filter fun parent =>
    threshold ≤ (childrenOf docs parent).length

def mergeToParentLevel (threshold : ℤ) (answer : Answer (List Doc)) :
    Execution (List Doc × ℕ) :=
  if (mergeParentIds docs threshold).isEmpty then pure (docs, 0)
  else do
    let stored ← callProvider .parentStore answer
    let state := docs.foldl (mergeStep docs (parentMap docs stored)) {}
    pure (state.merged, state.count)

structure Settings where
  topK : ℕ
  autoMergeEnabled : Bool
  autoMergeThreshold : ℤ
  rerankEnabled : Bool
  candidateLimit : ℕ
  maxDocumentCharacters : ℕ
  maxTotalCharacters : ℕ
  minScore : ℚ
  graderConfigured : Bool
  fastConfigured : Bool
  positive : 0 < topK ∧ 0 < candidateLimit ∧ 0 < maxDocumentCharacters ∧ 0 < maxTotalCharacters

/-- L3 → L2 → L1; the two passes ask the parent store once each, if at all. -/
def autoMergeCandidates (parents : Answer (List Doc) × Answer (List Doc)) : Execution (List Doc) :=
  if !settings.autoMergeEnabled || docs.isEmpty then pure docs
  else do
    let (merged, _) ← mergeToParentLevel docs settings.autoMergeThreshold parents.1
    let (merged, _) ← mergeToParentLevel merged settings.autoMergeThreshold parents.2
    pure merged

/-! ## Reranking -/

structure RerankItem where
  index : ℤ
  score : ℚ
  deriving DecidableEq

def withRecallRank : List Doc :=
  docs.zipIdx.map fun entry => { entry.1 with rrfRank := some (entry.2 + 1) }

/-- The candidates that fit the payload; the texts sent are cut to the remaining budget. -/
def boundedCandidates : List Doc :=
  let taken := (docs.take settings.candidateLimit).foldl
    (fun (acc : List Doc × ℕ × Bool) doc =>
      if acc.2.2 || settings.maxTotalCharacters ≤ acc.2.1 then (acc.1, acc.2.1, true)
      else
        let text := match doc.text with
          | .null => ""
          | value => value.text
        let bounded := min (min text.length settings.maxDocumentCharacters)
          (settings.maxTotalCharacters - acc.2.1)
        (acc.1 ++ [doc], acc.2.1 + bounded, false))
    ([], 0, false)
  taken.1

def rerankInvalidResponse : ProviderError :=
  { code := .rerankInvalidResponse, provider := "reranker", operation := .rerank }

/-- The candidates in the order of the reply, or nothing for a malformed reply. -/
def materialize (candidates : List Doc) : List ℤ → List RerankItem → Option (List Doc)
  | _, [] => some []
  | seen, item :: items =>
    if item.index < 0 || seen.contains item.index then none
    else do
      let doc ← candidates[item.index.toNat]?
      let rest ← materialize candidates (item.index :: seen) items
      pure ({ doc with rerankScore := some item.score } :: rest)

def materializeResult (candidates : List Doc) (items : List RerankItem) : Answer (List Doc) :=
  match if items.isEmpty then none else materialize candidates [] items with
  | some docs => .ok docs
  | none => .error rerankInvalidResponse

/-- `RerankStage.run_async`: a failed or malformed rerank keeps the recall order. -/
def rerankDocuments (answer : Answer (List RerankItem)) : Execution (List Doc) :=
  let ranked := withRecallRank docs
  if ranked.isEmpty then pure []
  else if !settings.rerankEnabled then pure (ranked.take settings.topK)
  else
    let reply := answer.bind (materializeResult (boundedCandidates settings ranked))
    rescue
      (do
        let reranked ← callProvider .rerank reply
        pure (reranked.filter fun doc => settings.minScore ≤ doc.rerankScore.getD 0))
      fun
        | .provider _ => some (ranked.take settings.topK)
        | .other _ => none

/-! ## `retrieve_documents` -/

structure RetrievalTarget where
  collectionName : String
  required : Bool
  deriving DecidableEq, Repr

structure RetrievalSnapshot where
  tenantId : String
  indexId : String
  targets : List RetrievalTarget
  deriving DecidableEq, Repr

/-- The snapshot of the request: kept from an earlier retrieval, or resolved now. -/
inductive SnapshotSource where
  | cached (snapshot : RetrievalSnapshot)
  | resolved (answer : Answer RetrievalSnapshot)

/-- What a vector store says about one target. -/
inductive TargetReply where
  | missing
  | hybrid (docs : List Doc)
  | denseFallback (docs : List Doc)

/-- The answers of the providers to one retrieval. -/
structure RetrievalScript where
  snapshot : SnapshotSource
  embedding : Answer (List ℚ)
  targets : ℕ → Answer TargetReply
  parents : Answer (List Doc) × Answer (List Doc)
  rerank : Answer (List RerankItem)

def vectorStoreUnavailable : ProviderError :=
  { code := .vectorStoreUnavailable, provider := "milvus", operation := .vectorSearch
    attempts := 2, maxAttempts := 2 }

def embeddingUnavailable : ProviderError :=
  { code := .embeddingUnavailable, provider := "bge-m3", operation := .embedding }

/-- A required collection that is missing is a failure of the store. -/
def targetDocuments (target : RetrievalTarget) : TargetReply → Answer (Option (List Doc))
  | .missing => if target.required then .error vectorStoreUnavailable else .ok none
  | .hybrid docs => .ok (some docs)
  | .denseFallback docs => .ok (some docs)

def retrieveTarget (target : RetrievalTarget) (answer : Answer TargetReply) :
    Execution (Option (List Doc)) :=
  callProvider .vector (answer.bind (targetDocuments target))

def retrieveTargets (script : RetrievalScript) :
    ℕ → List RetrievalTarget → Execution (List (List Doc))
  | _, [] => pure []
  | i, target :: targets => do
      let group ← retrieveTarget target (script.targets i)
      let groups ← retrieveTargets script (i + 1) targets
      pure (group.toList ++ groups)

def interleaveTargetDocuments (groups : List (List Doc)) : List Doc :=
  (List.range ((groups.map List.length).foldl max 0)).flatMap fun rank =>
    groups.filterMap fun group => group[rank]?

def finalizeRetrieval (script : RetrievalScript) (retrieved : List Doc) :
    Execution (List Doc) := do
  let candidates ← autoMergeCandidates settings (dedupeDocuments retrieved) script.parents
  rerankDocuments settings candidates script.rerank

def resolveSnapshot : SnapshotSource → Execution RetrievalSnapshot
  | .cached snapshot => pure snapshot
  | .resolved answer => callProvider .catalog answer

/-- An empty vector is a failed embedding. -/
def embedQuery (answer : Answer (List ℚ)) : Execution (List ℚ) :=
  callProvider .embedding (answer.bind fun vector =>
    if vector.isEmpty then .error embeddingUnavailable else .ok vector)

def retrieveDocuments (tenantId : String) (script : RetrievalScript) :
    Execution (List Doc) := do
  let snapshot ← resolveSnapshot script.snapshot
  if snapshot.tenantId ≠ tenantId then
    raise (.other "ValueError")
  else if snapshot.targets.isEmpty then finalizeRetrieval settings script []
  else do
    let _ ← embedQuery script.embedding
    let groups ← retrieveTargets script 0 snapshot.targets
    finalizeRetrieval settings script (interleaveTargetDocuments groups)

/-! ## A retrieval raises a provider error exactly when a call without fallback failed -/

/-- A provider error is raised. -/
abbrev Raises {α : Type} (x : Execution α) : Prop := Traced.Raises Raised.IsProvider x

/-- Provider errors and failed calls come together. -/
abbrev Exact {α : Type} (x : Execution α) : Prop := Traced.Exact Call.Fatal Raised.IsProvider x

/-- A call of the main path that is not one to the grader. -/
def Call.IsPlain (call : Call) : Prop := call.site = .main ∧ ∀ grade, call.reply ≠ .graded grade

/-- An execution that is exact and asks no grader. -/
structure Plain {α : Type} (x : Execution α) : Prop where
  exact : Exact x
  calls : ∀ c ∈ x.calls, c.IsPlain

variable {α : Type}

namespace Plain

theorem pure (a : α) : Plain (pure a : Execution α) :=
  ⟨exact_pure a, all_pure a⟩

theorem bind {β : Type} {x : Execution α} {f : α → Execution β} (hx : Plain x)
    (hf : ∀ a, x.result = .ok a → Plain (f a)) : Plain (x >>= f) :=
  ⟨hx.exact.bind fun a ha => (hf a ha).exact,
    all_bind hx.calls fun a ha => (hf a ha).calls⟩

theorem raise (exception : String) : Plain (raise (.other exception) : Execution α) :=
  ⟨Traced.exact_raise (by simp [Raised.IsProvider]), by simp [Traced.raise]⟩

end Plain

theorem callProvider_reply {service : Service} {answer : Answer α} {c : Call}
    (hc : c ∈ (callProvider service answer).calls) : c.service = service ∧ c.IsPlain := by
  obtain rfl := List.mem_singleton.mp hc
  refine ⟨rfl, rfl, fun grade => ?_⟩
  cases answer <;> simp [Except.mapError, Except.isOk, Except.toBool]

theorem callProvider_plain {service : Service} (hservice : service ≠ .rerank)
    (answer : Answer α) : Plain (callProvider service answer) := by
  refine ⟨exact_call ?_, fun c hc => (callProvider_reply hc).2⟩
  cases answer <;> simp [Call.Fatal, Except.mapError, Except.isOk, Except.toBool, hservice,
    Raised.IsProvider]

theorem mergeToParentLevel_plain (threshold : ℤ) (answer : Answer (List Doc)) :
    Plain (mergeToParentLevel docs threshold answer) := by
  unfold mergeToParentLevel
  split
  · exact Plain.pure _
  · exact (callProvider_plain (by decide) answer).bind fun _ _ => Plain.pure _

theorem autoMergeCandidates_plain (parents : Answer (List Doc) × Answer (List Doc)) :
    Plain (autoMergeCandidates settings docs parents) := by
  unfold autoMergeCandidates
  split
  · exact Plain.pure _
  · refine (mergeToParentLevel_plain docs _ _).bind fun merged _ => ?_
    exact (mergeToParentLevel_plain merged.1 _ _).bind fun _ _ => Plain.pure _

/-- A rerank never raises a provider error: what it logs is a call with a fallback. -/
theorem rerankDocuments_plain
    (answer : Answer (List RerankItem)) : Plain (rerankDocuments settings docs answer) := by
  unfold rerankDocuments
  simp only
  split
  · exact Plain.pure _
  · split
    · exact Plain.pure _
    · generalize answer.bind _ = reply
      have hcalls : ∀ c ∈ (callProvider .rerank reply >>= fun reranked => (Pure.pure
          (reranked.filter fun doc => settings.minScore ≤ doc.rerankScore.getD 0) :
            Execution (List Doc))).calls,
          c.service = .rerank ∧ c.IsPlain :=
        all_bind (fun c hc => callProvider_reply hc) fun _ _ => all_pure _
      refine ⟨exact_rescue_of_quiet ?_ ?_, ?_⟩
      · exact fun c hc hfatal => hfatal.2 (hcalls c hc).1
      · intro e hprovider
        cases e with
        | provider error => simp
        | other exception => exact absurd hprovider id
      · rw [rescue_calls]
        exact fun c hc => (hcalls c hc).2

theorem retrieveTargets_plain (script : RetrievalScript) (i : ℕ) (targets : List RetrievalTarget) :
    Plain (retrieveTargets script i targets) := by
  induction targets generalizing i with
  | nil => exact Plain.pure _
  | cons target targets ih =>
    refine (callProvider_plain (by decide) _).bind fun group _ => ?_
    exact (ih (i + 1)).bind fun _ _ => Plain.pure _

theorem finalizeRetrieval_plain (script : RetrievalScript)
    (retrieved : List Doc) : Plain (finalizeRetrieval settings script retrieved) :=
  (autoMergeCandidates_plain settings _ _).bind fun _ _ => rerankDocuments_plain settings _ _

theorem resolveSnapshot_plain (source : SnapshotSource) : Plain (resolveSnapshot source) := by
  cases source with
  | cached snapshot => exact Plain.pure _
  | resolved answer => exact callProvider_plain (by decide) answer

theorem retrieveDocuments_plain (tenantId : String)
    (script : RetrievalScript) : Plain (retrieveDocuments settings tenantId script) := by
  refine (resolveSnapshot_plain script.snapshot).bind fun snapshot _ => ?_
  split
  · exact Plain.raise _
  · split
    · exact finalizeRetrieval_plain settings script _
    · refine (callProvider_plain (by decide) _).bind fun _ _ => ?_
      refine (retrieveTargets_plain script 0 _).bind fun groups _ => ?_
      exact finalizeRetrieval_plain settings script _

end SuperMew.Rag
