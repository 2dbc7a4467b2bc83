import SuperMew.Rag.Pipeline

/-! Where the providers have to fail so that an execution raises a provider error. The
conditions are on their answers to the calls that the execution makes. -/

namespace SuperMew.Rag

open Faults Traced

def Fails {α : Type} (answer : Answer α) : Prop := ∃ error, answer = .error error

section

variable {α β : Type} {service : Service} {answer : Answer α}

@[simp] theorem raises_callProvider : Raises (callProvider service answer) ↔ Fails answer := by
  cases answer <;>
    simp [Traced.Raises, callProvider, call, Except.mapError, Raised.IsProvider, Fails]

/-- What follows a call may raise whatever the call returns. -/
theorem raises_callProvider_bind {f : α → Execution β} {later : Prop}
    (h : ∀ a, Raises (f a) ↔ later) :
    Raises (callProvider service answer >>= f) ↔ Fails answer ∨ later := by
  rw [Raises, raises_bind raises_callProvider fun a _ => h a]
  cases answer <;> simp [Traced.GoesWrong, Fails, callProvider, call, Except.mapError]

@[simp] theorem not_raises_other (exception : String) :
    ¬ Raises (raise (.other exception) : Execution α) :=
  fun h => raises_raise.mp h

end

/-! ## Retrieval -/

section

variable (settings : Settings) (script : RetrievalScript)

def MergeFails (docs : List Doc) (answer : Answer (List Doc)) : Prop :=
  mergeParentIds docs settings.autoMergeThreshold ≠ [] ∧ Fails answer

def ParentsFail (docs : List Doc) (parents : Answer (List Doc) × Answer (List Doc)) : Prop :=
  settings.autoMergeEnabled = true ∧ docs ≠ [] ∧
    Traced.GoesWrong (MergeFails settings docs parents.1)
      (mergeToParentLevel docs settings.autoMergeThreshold parents.1)
      fun merged => MergeFails settings merged.1 parents.2

def TargetsFail (targets : List RetrievalTarget) : Prop :=
  ∃ entry ∈ targets.zipIdx, Fails ((script.targets entry.2).bind (targetDocuments entry.1))

/-- An empty vector is a failed embedding. -/
def EmbeddingFails (answer : Answer (List ℚ)) : Prop := Fails answer ∨ answer = .ok []

/-- An answer that a retrieval needs is an error. -/
def RetrievalFails (tenantId : String) : Prop :=
  match script.snapshot with
  | .resolved (.error _) => True
  | .cached snapshot | .resolved (.ok snapshot) =>
    snapshot.tenantId = tenantId ∧ snapshot.targets ≠ [] ∧ (EmbeddingFails script.embedding ∨
      Traced.GoesWrong (TargetsFail script snapshot.targets)
        (retrieveTargets script 0 snapshot.targets) fun groups =>
          ParentsFail settings (dedupeDocuments (interleaveTargetDocuments groups)) script.parents)

variable {settings script} {docs : List Doc}

theorem raises_mergeToParentLevel {answer : Answer (List Doc)} :
    Raises (mergeToParentLevel docs settings.autoMergeThreshold answer) ↔
      MergeFails settings docs answer := by
  unfold mergeToParentLevel MergeFails
  split
  · simp_all
  · refine (raises_bind_quiet fun _ => not_raises_pure _).trans ?_
    simp_all

theorem raises_finalizeRetrieval : Raises (finalizeRetrieval settings script docs) ↔
    ParentsFail settings (dedupeDocuments docs) script.parents := by
  have hrerank : ∀ candidates, ¬ Raises (rerankDocuments settings candidates script.rerank) := by
    intro candidates
    unfold rerankDocuments
    simp only
    split
    · simp
    · split
      · simp
      · refine not_raises_rescue fun e hprovider => ?_
        cases e <;> simp_all [Raised.IsProvider]
  have hmerge : Raises (autoMergeCandidates settings (dedupeDocuments docs) script.parents) ↔
      ParentsFail settings (dedupeDocuments docs) script.parents := by
    unfold autoMergeCandidates ParentsFail
    split
    · rename_i h
      have hnone : settings.autoMergeEnabled = false ∨ docs = [] := by simpa using h
      rcases hnone with h | h <;> simp [h]
    · refine (raises_bind raises_mergeToParentLevel fun merged _ =>
        (raises_bind_quiet fun _ => not_raises_pure _).trans
          raises_mergeToParentLevel).trans ?_
      simp_all
  exact (raises_bind_quiet hrerank).trans hmerge

theorem raises_retrieveTargets (i : ℕ) (targets : List RetrievalTarget) :
    Raises (retrieveTargets script i targets) ↔ ∃ entry ∈ targets.zipIdx i,
      Fails ((script.targets entry.2).bind (targetDocuments entry.1)) := by
  induction targets generalizing i with
  | nil => simp [retrieveTargets]
  | cons target targets ih =>
    rw [List.zipIdx_cons, List.exists_mem_cons_iff]
    exact raises_callProvider_bind fun _ =>
      (raises_bind_quiet fun _ => not_raises_pure _).trans (ih (i + 1))

theorem raises_embedQuery_bind {answer : Answer (List ℚ)} {x : Execution (List Doc)} {later : Prop}
    (h : Raises x ↔ later) :
    Raises (embedQuery answer >>= fun _ => x) ↔ EmbeddingFails answer ∨ later := by
  refine (raises_callProvider_bind fun _ => h).trans (or_congr ?_ Iff.rfl)
  cases answer with
  | error error => simp [Fails, EmbeddingFails, Except.bind]
  | ok vector => cases vector <;> simp [Fails, EmbeddingFails, Except.bind]

theorem raises_retrieveDocuments {tenantId : String} :
    Raises (retrieveDocuments settings tenantId script) ↔
      RetrievalFails settings script tenantId := by
  have hsnapshot (snapshot : RetrievalSnapshot) : Raises
      (if snapshot.tenantId ≠ tenantId then raise (.other "ValueError")
        else if snapshot.targets.isEmpty then finalizeRetrieval settings script []
        else do
          let _ ← embedQuery script.embedding
          let groups ← retrieveTargets script 0 snapshot.targets
          finalizeRetrieval settings script (interleaveTargetDocuments groups)) ↔
      snapshot.tenantId = tenantId ∧ snapshot.targets ≠ [] ∧ (EmbeddingFails script.embedding ∨
        Traced.GoesWrong (TargetsFail script snapshot.targets)
          (retrieveTargets script 0 snapshot.targets) fun groups => ParentsFail settings
            (dedupeDocuments (interleaveTargetDocuments groups)) script.parents) := by
    split
    · simp_all
    · split
      · simp_all [raises_finalizeRetrieval, ParentsFail]
      · rw [raises_embedQuery_bind (raises_bind (raises_retrieveTargets 0 _) fun _ _ =>
          raises_finalizeRetrieval)]
        simp_all [TargetsFail]
  unfold retrieveDocuments RetrievalFails
  cases script.snapshot with
  | cached snapshot => exact hsnapshot snapshot
  | resolved answer =>
    cases answer with
    | error error => exact iff_of_true ⟨_, rfl, trivial⟩ trivial
    | ok snapshot => exact hsnapshot snapshot

end

/-! ## The main path -/

section

variable [TextCase] (settings : Settings)

/-- An answer that a retrieval or its grading needs is an error. -/
def RoundFails (tenantId : String) (script : RoundScript) : Prop :=
  Traced.GoesWrong (RetrievalFails settings script.retrieval tenantId)
    (retrieveDocuments settings tenantId script.retrieval) fun docs =>
      docs ≠ [] ∧ settings.graderConfigured = true ∧ Fails script.grader

def RewriteFails (script : RewriteScript) (state : RagState) : Prop :=
  Traced.GoesWrong (state.rewriteCount < 1 ∧ settings.fastConfigured = true ∧ Fails script.rewrite)
    (rewriteQuestionNode settings script.rewrite state) fun state =>
      state.rewriteMethod ≠ none ∧ strip state.rewrittenQuery ≠ "" ∧
        RoundFails settings state.tenantId script.toRoundScript

def CycleFails : ℕ → (ℕ → RewriteScript) → RagState → Prop
  | 0, _, _ => False
  | limit + 1, scripts, state => state.route = some (.graded .rewrite) ∧
      Traced.GoesWrong (RewriteFails settings (scripts 0) state)
        (rewriteRound settings (scripts 0) state) (CycleFails limit fun i => scripts (i + 1))

def DirectFails (script : Script) (state : RagState) : Prop :=
  Traced.GoesWrong (RoundFails settings state.tenantId script.first)
    (retrieveAndGrade settings script.first state) (CycleFails settings cycleLimit script.rewrites)

def ResumeFails (script : ResumeScript) (state : RagState) : Prop :=
  Traced.GoesWrong (RoundFails settings state.tenantId script.first)
    (retrieveResumeQuery settings script.first state) fun state =>
      state.route = some (.graded .rewrite) ∧ RewriteFails settings script.rewrite state

def ResumptionsFail : List (String × Bool × ResumeScript) → RagState → Prop
  | [], _ => False
  | (answer, durable, script) :: answers, state =>
    let state' := if durable then compactHitlState state else state
    isHitlResult state = true ∧
      Traced.GoesWrong (ResumeFails settings script (refine state' answer))
        (resumeRagState settings script answer state') (ResumptionsFail answers)

variable (tenantId question : String) (script : Script)

/-- An answer that the main path of the first leg needs is an error. -/
def LegFails : Prop :=
  (strip tenantId).isEmpty = false ∧
    Traced.GoesWrong
      (simpleQuestionFastPathReason question = none ∧ settings.fastConfigured = true ∧
        Fails script.planner)
      (classifyComplexity settings script.planner question) fun planned =>
        planned = none ∧ DirectFails settings script (initialState (strip tenantId) question false)

/-- An answer that the main path of a run needs is an error. -/
def MainFails (answers : List (String × Bool × ResumeScript)) : Prop :=
  Traced.GoesWrong (LegFails settings tenantId question script)
    (runRagGraph settings tenantId question script) (ResumptionsFail settings answers)

variable {settings tenantId question script} {state : RagState}

theorem raises_gradeDocumentsNode {answer : Answer EvidenceGrade} :
    Raises (gradeDocumentsNode settings answer state) ↔
      state.docs ≠ [] ∧ settings.graderConfigured = true ∧ Fails answer := by
  unfold gradeDocumentsNode
  split
  · simp_all
  · split
    · simp_all
    · have hgrader : Raises (callGrader answer) ↔ Fails answer := by
        cases answer <;>
          simp [Traced.Raises, callGrader, call, Except.mapError, Raised.IsProvider, Fails]
      refine (raises_bind_quiet fun _ => not_raises_pure _).trans ?_
      simp_all

/-- A retrieval whose documents are graded in some state. -/
theorem raises_round {script : RoundScript} {tenantId : String} {f : List Doc → RagState}
    (hf : ∀ docs, (f docs).docs = docs) :
    Raises (retrieveDocuments settings tenantId script.retrieval >>= fun docs =>
      gradeDocumentsNode settings script.grader (f docs)) ↔ RoundFails settings tenantId script :=
  raises_bind raises_retrieveDocuments fun docs _ =>
    raises_gradeDocumentsNode.trans (by rw [hf])

theorem raises_retrieveAndGrade {script : RoundScript} :
    Raises (retrieveAndGrade settings script state) ↔ RoundFails settings state.tenantId script :=
  raises_bind_pure_bind.trans (raises_round fun _ => rfl)

theorem raises_rewriteRound {script : RewriteScript} :
    Raises (rewriteRound settings script state) ↔ RewriteFails settings script state := by
  refine raises_bind ?_ fun state _ => ?_
  · unfold rewriteQuestionNode
    split
    · rename_i hcount
      simp [Nat.not_lt.mpr hcount]
    · split
      · simp_all
      · refine (raises_callProvider_bind fun plan => (?_ : _ ↔ False)).trans ?_
        · split <;> simp
        · simp_all
  · unfold retrieveRewritten
    split
    · rename_i h
      have hnone : state.rewriteMethod = none ∨ strip state.rewrittenQuery = "" := by simpa using h
      rcases hnone with h | h <;> simp [Traced.Raises, bind, raise, Raised.IsProvider, h]
    · refine raises_bind_pure_bind.trans ((raises_round fun _ => rfl).trans ?_)
      simp_all

theorem raises_gradeCycle (limit : ℕ) (scripts : ℕ → RewriteScript) (state : RagState) :
    Raises (gradeCycle settings limit scripts state) ↔ CycleFails settings limit scripts state := by
  induction limit generalizing scripts state with
  | zero => simp [gradeCycle, CycleFails]
  | succ limit ih =>
    unfold gradeCycle CycleFails
    split
    · exact (raises_bind raises_rewriteRound fun _ _ => ih _ _).trans (by simp_all)
    · simp_all

theorem raises_answerDirectly {script : Script} :
    Raises (answerDirectly settings script state) ↔ DirectFails settings script state :=
  raises_bind raises_retrieveAndGrade fun _ _ => raises_gradeCycle _ _ _

theorem raises_resumeRagState {script : ResumeScript} {answer : String} :
    Raises (resumeRagState settings script answer state) ↔
      ResumeFails settings script (refine state answer) := by
  refine raises_bind (raises_round fun _ => rfl) fun state _ => ?_
  split <;> simp_all [raises_rewriteRound]

theorem raises_resumeRun (answers : List (String × Bool × ResumeScript)) (state : RagState) :
    Raises (resumeRun settings answers state) ↔ ResumptionsFail settings answers state := by
  induction answers generalizing state with
  | nil => simp [resumeRun, ResumptionsFail]
  | cons entry answers ih =>
    unfold resumeRun ResumptionsFail
    split
    · exact (raises_bind raises_resumeRagState fun _ _ => ih _).trans (by simp_all)
    · simp_all

theorem raises_classifyComplexity {answer : Answer ComplexityResult} :
    Raises (classifyComplexity settings answer question) ↔
      simpleQuestionFastPathReason question = none ∧ settings.fastConfigured = true ∧
        Fails answer := by
  unfold classifyComplexity
  split
  · rename_i hfast
    simp [Option.isSome_iff_ne_none.mp hfast]
  · split
    · simp_all
    · refine (raises_callProvider_bind fun result => (?_ : _ ↔ False)).trans ?_
      · split
        · simp
        · split <;> simp
      · simp_all

/-- Without sub-questions the first leg raises what its main path does. -/
theorem raises_runRagGraph (h : (strip tenantId).isEmpty = false → ∀ subQuestions,
    (classifyComplexity settings script.planner question).result ≠ .ok (some subQuestions)) :
    Raises (runRagGraph settings tenantId question script) ↔
      LegFails settings tenantId question script := by
  unfold runRagGraph LegFails
  split
  · simp_all
  · rename_i htenant
    rw [Bool.not_eq_true] at htenant
    rw [and_iff_right htenant]
    refine raises_bind raises_classifyComplexity fun planned hplanned => ?_
    cases planned with
    | none => exact raises_answerDirectly.trans (by simp)
    | some subQuestions => exact absurd hplanned (h htenant subQuestions)

end

end SuperMew.Rag
