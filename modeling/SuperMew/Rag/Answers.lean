import SuperMew.Rag.SubQuestions

/-! When a knowledge answer is claimed. -/

namespace SuperMew.Rag

open Faults Traced

variable {planner : Answer ComplexityResult} {subQuestions : List String} {grade : EvidenceGrade}

section

variable (settings : Settings) (tenantId question : String) (script : Script)

/-- An answer is claimed on documents, with grades behind it that all call the documents
relevant and sufficient. -/
def AnswerSupported (x : Execution RagState) : Prop :=
  ∀ state, x.result = .ok state → outcomeForResult state = .answerable →
    state.docs ≠ [] ∧ contributing x.calls ≠ [] ∧
      ∀ grade ∈ contributing x.calls,
        grade.relevance = .strong ∧ grade.answerability = .sufficient

/-- On the main path the last grade stands behind every answer. -/
theorem answerSupported_of_graded {x : Execution RagState} (hmain : OnMain x)
    (hgraded : GradedAfter [] x) : AnswerSupported x := by
  intro state hok houtcome
  have hstate := hgraded state hok
  rw [List.nil_append] at hstate
  obtain ⟨outcome, hexplicit⟩ := hstate.outcome
  have hanswerable : state.retrievalOutcome = some .answerable := by
    unfold outcomeForResult at houtcome
    rw [hexplicit] at houtcome ⊢
    cases outcome <;> simp_all
  obtain ⟨hdocs, grade, hlast, hsupported⟩ := hstate.answered hanswerable
  have hsub : ∀ i, gradesAt (.sub i) x.calls = [] := fun i =>
    gradesAt_eq_nil fun c hc => .inr (by simp [hmain.sites c hc])
  refine ⟨hdocs, ?_, ?_⟩
  · exact List.ne_nil_of_mem (mem_contributing.mpr (.inl hlast))
  · intro grade' hgrade'
    rcases mem_contributing.mp hgrade' with hlast' | ⟨i, hi⟩
    · cases hlast.symm.trans hlast'
      simpa [answerIsSupported] using hsupported
    · simp [hsub i] at hi

theorem synthesisStatus_of_answerable {results : List SubResult} (hne : results ≠ [])
    (h : ∀ result ∈ results, result.retrievalStatus = some .answerable ∧ result.docs ≠ [] ∧
      result.providerError = none) : synthesisStatus results = .answerable := by
  refine synthesisStatus_eq_answerable.mpr ⟨?_, ?_, ?_⟩
  · obtain ⟨result, hresult⟩ := List.exists_mem_of_ne_nil results hne
    obtain ⟨hstatus, hdocs, -⟩ := h result hresult
    obtain ⟨doc, hdoc⟩ := List.exists_mem_of_ne_nil result.docs hdocs
    have hmem : doc ∈ (results.filter fun result =>
        result.retrievalStatus = some .answerable || result.retrievalStatus = some .partly).flatMap
          SubResult.docs :=
      List.mem_flatMap.mpr ⟨result, by simp [hresult, hstatus], hdoc⟩
    exact fun hnil => List.ne_nil_of_mem hmem (dedupeDocuments_eq_nil.mp hnil)
  · exact List.filterMap_eq_nil_iff.mpr fun result hresult => (h result hresult).2.2
  · refine List.filter_eq_nil_iff.mpr fun result hresult => ?_
    simp [(h result hresult).1]

variable [TextCase]

/-- The planner makes these sub-questions of the question. -/
def PlannedAs (planner : Answer ComplexityResult) (subQuestions : List String) : Prop :=
  simpleQuestionFastPathReason question = none ∧ settings.fastConfigured = true ∧
    subQuestions ≠ [] ∧ ∃ result, planner = .ok result ∧ result.complex = true ∧
      plannedSubQuestions result = subQuestions

/-- Every sub-question is covered, and the documents of one of them are only weakly
relevant to it. -/
def Overclaimed : Prop :=
  (strip tenantId).isEmpty = false ∧ ∃ subQuestions,
    PlannedAs settings question script.planner subQuestions ∧
    (∀ i subQuestion, subQuestions[i]? = some subQuestion →
      Covered settings (strip tenantId) (script.subs i) subQuestion) ∧
    ∃ i grade, i < subQuestions.length ∧
      gradeOfSub settings (strip tenantId) (script.subs i) = some grade ∧ grade.relevance = .weak

variable {settings tenantId question script}

theorem classifyComplexity_eq_some :
    (classifyComplexity settings planner question).result = .ok (some subQuestions) ↔
      PlannedAs settings question planner subQuestions := by
  unfold classifyComplexity PlannedAs
  cases hfast : simpleQuestionFastPathReason question with
  | some reason => simp [pure]
  | none =>
    cases hconfigured : settings.fastConfigured with
    | false => simp [raise]
    | true =>
      cases planner with
      | error error => simp [bind, callProvider, call, Except.mapError]
      | ok result =>
        have hcall : (callProvider .planner (.ok result) :
            Execution ComplexityResult).result = .ok result := rfl
        cases hcomplex : result.complex with
        | false => simp [bind_of_ok hcall, hcomplex, pure_result]
        | true =>
          by_cases hnone : plannedSubQuestions result = []
          · simp [bind_of_ok hcall, hcomplex, hnone, raise]
          · simp [bind_of_ok hcall, hcomplex, hnone, pure_result]
            rintro rfl
            exact hnone

/-! ## Complex questions -/

variable {state state' : RagState}

section

variable (h : (answerSubQuestions settings script subQuestions state).result = .ok state')

include h

/-- What a synthesis that returns was given. -/
theorem answerSubQuestions_result :
    ∃ results, (fanoutSubQuestions settings state.tenantId script.subs 0 subQuestions).result =
        .ok results ∧ state' = synthesisState
        { state with complex := true, subQuestions, subResults := results } ∧
      (answerSubQuestions settings script subQuestions state).calls =
        (fanoutSubQuestions settings state.tenantId script.subs 0 subQuestions).calls := by
  unfold answerSubQuestions at h ⊢
  obtain ⟨results, hresults, hstate⟩ := bind_result_eq_ok.mp h
  refine ⟨results, hresults, synthesis_result hstate, ?_⟩
  rw [bind_of_ok hresults]
  simp [synthesis_calls]

/-- A synthesis that answers has every sub-question covered. -/
theorem covered_of_answerable (houtcome : outcomeForResult state' = .answerable) :
    state'.docs ≠ [] ∧ ∀ i subQuestion, subQuestions[i]? = some subQuestion →
      Covered settings state.tenantId (script.subs i) subQuestion := by
  obtain ⟨results, hresults, rfl, -⟩ := answerSubQuestions_result h
  rw [synthesisState_outcome] at houtcome
  have hstatus : synthesisStatus results = .answerable := by
    cases hs : synthesisStatus results <;> simp [hs, outcomeForStatus] at houtcome ⊢
  obtain ⟨hdocs, -, hcovered⟩ := synthesisStatus_eq_answerable.mp hstatus
  refine ⟨by simpa [synthesisState] using hdocs, fun i subQuestion hi => ?_⟩
  obtain ⟨result, hget, hrun⟩ := (fanoutSubQuestions_runs hresults).2 i subQuestion hi
  have hanswerable : result.retrievalStatus = some .answerable := by
    by_contra hne
    have hmem : result ∈ uncoveredResults results := by
      simpa [uncoveredResults, hne] using List.mem_of_getElem? hget
    rw [hcovered] at hmem
    cases hmem
  simpa using (ragSubAgent_run hrun).answerable.mp hanswerable

theorem mem_contributing_sub :
    grade ∈ contributing (answerSubQuestions settings script subQuestions state).calls ↔
      ∃ i < subQuestions.length,
        gradeOfSub settings state.tenantId (script.subs i) = some grade := by
  obtain ⟨results, hresults, -, hcalls⟩ := answerSubQuestions_result h
  have hsites := fanoutSubQuestions_sites settings state.tenantId script.subs 0 subQuestions
  have hgrades : ∀ i < subQuestions.length, gradesAt (.sub i)
      (fanoutSubQuestions settings state.tenantId script.subs 0 subQuestions).calls =
        (gradeOfSub settings state.tenantId (script.subs i)).toList := by
    intro i hi
    obtain ⟨result, -, hrun⟩ :=
      (fanoutSubQuestions_runs hresults).2 i _ (List.getElem?_eq_getElem hi)
    simpa [gradesAt_callsOfSub] using (ragSubAgent_run hrun).grades
  rw [hcalls, mem_contributing, gradesAt_eq_nil fun c hc => ?_]
  · simp only [List.getLast?_nil, reduceCtorEq, false_or]
    constructor
    · rintro ⟨i, hi⟩
      have hlt : i < subQuestions.length := by
        by_contra hge
        rw [gradesAt_eq_nil fun c hc => .inr ?_] at hi
        · cases hi
        · obtain ⟨j, -, hj, hsite⟩ := hsites c hc
          rw [hsite]
          intro heq
          cases heq
          omega
      rw [hgrades i hlt, Option.mem_toList] at hi
      exact ⟨i, hlt, hi⟩
    · rintro ⟨i, hlt, hi⟩
      refine ⟨i, ?_⟩
      rw [hgrades i hlt, Option.mem_toList]
      exact hi
  · obtain ⟨j, -, -, hsite⟩ := hsites c hc
    exact .inr (by simp [hsite])

end

/-! ## Covered sub-questions are answered -/

theorem ragSubAgent_of_grade {t : String} (subQuestion : String) {round : RoundScript}
    (h : gradeOfSub settings t round = some grade) :
    ∃ result, (ragSubAgent settings t round subQuestion).result = .ok result := by
  cases hdocs : (retrieveDocuments settings t round.retrieval).result with
  | error e => simp [gradeOfSub_of_error hdocs] at h
  | ok docs =>
    have houtcome := gradeDocumentsNode_outcome settings round.grader (subState t subQuestion docs)
    have hgraded : ∃ state, (retrieveAndGrade settings round
        (initialState t subQuestion true)).result = .ok state := by
      rw [retrieveAndGrade_of_ok hdocs]
      generalize gradeDocumentsNode settings round.grader (subState t subQuestion docs) = x
        at houtcome ⊢
      cases houtcome with
      | nothing hnil | graded grade hne hconfigured hanswer => exact ⟨_, rfl⟩
      | unconfigured exception hconfigured =>
        unfold gradeOfSub at h
        split at h
        · simp [hconfigured] at h
        · cases h
      | failed error hne hanswer => simp [gradeOfSub_of_grader_error hanswer] at h
    obtain ⟨state, hstate⟩ := hgraded
    refine ⟨subResultOf state, ?_⟩
    unfold ragSubAgent
    rw [rescue_result, bind_pure_result, hstate]
    rfl

theorem fanoutSubQuestions_of_grades {t : String} {scripts : ℕ → RoundScript} (i : ℕ)
    (h : ∀ k < subQuestions.length, ∃ grade, gradeOfSub settings t (scripts (i + k)) = some grade) :
    ∃ results, (fanoutSubQuestions settings t scripts i subQuestions).result = .ok results := by
  induction subQuestions generalizing i with
  | nil => exact ⟨[], rfl⟩
  | cons subQuestion subQuestions ih =>
    obtain ⟨grade, hgrade⟩ := h 0 (by simp)
    obtain ⟨result, hresult⟩ :=
      ragSubAgent_of_grade subQuestion hgrade
    obtain ⟨rest, hrest⟩ := ih (i + 1) fun k hk => by
      have hnext := h (k + 1) (by simpa using hk)
      rwa [show i + (k + 1) = i + 1 + k by omega] at hnext
    refine ⟨result :: rest, ?_⟩
    unfold fanoutSubQuestions
    refine bind_result_eq_ok.mpr ⟨result, hresult, ?_⟩
    exact bind_result_eq_ok.mpr ⟨rest, hrest, rfl⟩

/-- Sub-questions that are all covered are answered together. -/
theorem answerSubQuestions_of_covered (hne : subQuestions ≠ [])
    (h : ∀ i subQuestion, subQuestions[i]? = some subQuestion →
      Covered settings state.tenantId (script.subs i) subQuestion) :
    ∃ state', (answerSubQuestions settings script subQuestions state).result = .ok state' ∧
      outcomeForResult state' = .answerable ∧ isHitlResult state' = false := by
  obtain ⟨results, hresults⟩ : ∃ results,
      (fanoutSubQuestions settings state.tenantId script.subs 0 subQuestions).result = .ok results :=
    fanoutSubQuestions_of_grades 0 fun k hk => by
      obtain ⟨grade, hgrade, -⟩ := h k _ (List.getElem?_eq_getElem hk)
      exact ⟨grade, by rwa [Nat.zero_add]⟩
  obtain ⟨hlength, hruns⟩ := fanoutSubQuestions_runs hresults
  have hall : ∀ result ∈ results, result.retrievalStatus = some .answerable ∧ result.docs ≠ [] ∧
      result.providerError = none := by
    intro result hresult
    obtain ⟨k, hk, rfl⟩ := List.getElem_of_mem hresult
    obtain ⟨result, hget, hrun⟩ := hruns k _ (List.getElem?_eq_getElem (hlength ▸ hk))
    rw [List.getElem?_eq_getElem hk, Option.some_inj] at hget
    rw [hget]
    replace hrun := ragSubAgent_run hrun
    have hstatus := hrun.answerable.mpr
      (by simpa using h k _ (List.getElem?_eq_getElem (hlength ▸ hk)))
    refine ⟨hstatus, hrun.docs hstatus, ?_⟩
    by_contra hfailed
    rw [hrun.status hfailed] at hstatus
    cases hstatus
  have hresultsNe : results ≠ [] := by
    rintro rfl
    exact hne (List.eq_nil_of_length_eq_zero hlength.symm)
  have hstatus := synthesisStatus_of_answerable hresultsNe hall
  obtain ⟨hdocs, hfailures, -⟩ := synthesisStatus_eq_answerable.mp hstatus
  refine ⟨synthesisState { state with complex := true, subQuestions, subResults := results },
    ?_, ?_, ?_⟩
  · unfold answerSubQuestions
    refine bind_result_eq_ok.mpr ⟨results, hresults, ?_⟩
    simp [synthesis, hfailures, pure_result]
  · rw [synthesisState_outcome, hstatus]
    rfl
  · simp [isHitlResult, synthesisState, synthesisRoute, hstatus, hdocs]

/-! ## Whole runs -/

theorem converse_supported {leg : Execution RagState} (hleg : AnswerSupported leg)
    (hmain : ∀ state, leg.result = .ok state → state.isSubAgent = false)
    (answers : List (String × Bool × ResumeScript)) :
    AnswerSupported (converse settings leg answers) := by
  induction answers generalizing leg with
  | nil => exact hleg
  | cons entry answers ih =>
    obtain ⟨answer, durable, resumed⟩ := entry
    unfold converse
    split
    · exact hleg
    · rename_i state hstate
      split
      · have hkept : (if durable then compactHitlState state else state).isSubAgent = false := by
          cases durable <;> exact hmain state hstate
        have hgraded := resumeRagState_graded settings resumed answer hkept
        exact ih (answerSupported_of_graded (resumeRagState_onMain settings resumed answer _) hgraded)
          fun state' hstate' => (hgraded state' hstate').main
      · exact hleg

theorem runRagGraph_of_classified (htenant : (strip tenantId).isEmpty = false)
    {planned : Option (List String)}
    (h : (classifyComplexity settings script.planner question).result = .ok planned) :
    (runRagGraph settings tenantId question script).result = (match planned with
          | some subQuestions => answerSubQuestions settings script subQuestions
              (initialState (strip tenantId) question false)
          | none => answerDirectly settings script
              (initialState (strip tenantId) question false)).result ∧
      (runRagGraph settings tenantId question script).calls =
        (classifyComplexity settings script.planner question).calls ++ (match planned with
            | some subQuestions => answerSubQuestions settings script subQuestions
                (initialState (strip tenantId) question false)
            | none => answerDirectly settings script
                (initialState (strip tenantId) question false)).calls := by
  unfold runRagGraph
  rw [htenant, if_neg (by decide), bind_of_ok h]
  cases planned <;> exact ⟨rfl, rfl⟩

theorem contributing_classified (calls : List Call) :
    contributing ((classifyComplexity settings planner question).calls ++ calls) =
      contributing calls := by
  have hplain := (classifyComplexity_plain settings planner question).calls
  unfold contributing
  rw [gradesAt_append, gradesAt_eq_nil fun c hc => .inl (hplain c hc), List.nil_append,
    List.filterMap_append, List.filterMap_eq_nil_iff.mpr, List.nil_append]
  intro c hc
  simp [(hplain c hc).1]

/-- A first leg supports its answers unless it overclaims. -/
theorem runRagGraph_supported (h : ¬ Overclaimed settings tenantId question script) :
    AnswerSupported (runRagGraph settings tenantId question script) := by
  intro state' hok houtcome
  cases htenant : (strip tenantId).isEmpty with
  | true => simp [runRagGraph, htenant, raise] at hok
  | false =>
    cases hplanned : (classifyComplexity settings script.planner question).result with
    | error e =>
      simp only [runRagGraph, htenant, Bool.false_eq_true, if_false, bind_of_error hplanned] at hok
      cases hok
    | ok planned =>
      obtain ⟨hresult, hcalls⟩ := runRagGraph_of_classified htenant hplanned
      rw [hresult] at hok
      rw [hcalls, contributing_classified]
      cases planned with
      | none =>
        exact answerSupported_of_graded (answerDirectly_onMain settings script _)
          (answerDirectly_graded settings script rfl) state' hok houtcome
      | some subQuestions =>
        have hplan := classifyComplexity_eq_some.mp hplanned
        obtain ⟨hdocs, hcovered⟩ := covered_of_answerable hok houtcome
        refine ⟨hdocs, ?_, fun grade hgrade => ?_⟩
        · obtain ⟨subQuestion, hsub⟩ := List.exists_mem_of_ne_nil _ hplan.2.2.1
          obtain ⟨i, hi, -⟩ := List.getElem_of_mem hsub
          obtain ⟨grade, hgrade, -⟩ := hcovered i _ (List.getElem?_eq_getElem hi)
          exact List.ne_nil_of_mem ((mem_contributing_sub hok).mpr ⟨i, hi, hgrade⟩)
        · obtain ⟨i, hi, hgrade⟩ := (mem_contributing_sub hok).mp hgrade
          obtain ⟨grade', hgrade', hcovers⟩ := hcovered i _ (List.getElem?_eq_getElem hi)
          cases hgrade.symm.trans hgrade'
          refine ⟨?_, hcovers.2.2.2.2.2⟩
          cases hrelevance : grade.relevance with
          | none => exact absurd hrelevance hcovers.1
          | weak =>
            exact absurd ⟨htenant, subQuestions, hplan, hcovered, i, grade, hi, hgrade,
              hrelevance⟩ h
          | strong => rfl

theorem runRagGraph_main {state' : RagState}
    (hok : (runRagGraph settings tenantId question script).result = .ok state') :
    state'.isSubAgent = false := by
  cases htenant : (strip tenantId).isEmpty with
  | true => simp [runRagGraph, htenant, raise] at hok
  | false =>
    cases hplanned : (classifyComplexity settings script.planner question).result with
    | error e =>
      simp only [runRagGraph, htenant, Bool.false_eq_true, if_false, bind_of_error hplanned] at hok
      cases hok
    | ok planned =>
      rw [(runRagGraph_of_classified htenant hplanned).1] at hok
      cases planned with
      | none => exact (answerDirectly_graded settings script rfl state' hok).main
      | some subQuestions =>
        obtain ⟨results, -, rfl, -⟩ := answerSubQuestions_result hok
        rfl

variable (settings tenantId question script) in
/-- An answer is claimed on full evidence exactly when the planner's sub-questions are not all
covered with one of them covered by weakly relevant documents. -/
theorem answers_supported_iff (answers : List (String × Bool × ResumeScript)) :
    AnswerSupported (converse settings (runRagGraph settings tenantId question script) answers) ↔
      ¬ Overclaimed settings tenantId question script := by
  constructor
  · rintro hsupported ⟨htenant, subQuestions, hplan, hcovered, i, grade, hi, hgrade, hweak⟩
    obtain ⟨state', hok, houtcome, hhitl⟩ : ∃ state', (answerSubQuestions settings script
        subQuestions (initialState (strip tenantId) question false)).result = .ok state' ∧
          outcomeForResult state' = .answerable ∧ isHitlResult state' = false :=
      answerSubQuestions_of_covered hplan.2.2.1 hcovered
    obtain ⟨hresult, hcalls⟩ :=
      runRagGraph_of_classified htenant (classifyComplexity_eq_some.mpr hplan)
    have hleg : converse settings (runRagGraph settings tenantId question script) answers =
        runRagGraph settings tenantId question script := by
      cases answers with
      | nil => rfl
      | cons entry answers => simp [converse, hresult, hok, hhitl]
    rw [hleg] at hsupported
    obtain ⟨-, -, hgrades⟩ := hsupported state' (hresult.trans hok) houtcome
    rw [hcalls, contributing_classified] at hgrades
    have hstrong := (hgrades grade ((mem_contributing_sub hok).mpr ⟨i, hi, hgrade⟩)).1
    rw [hweak] at hstrong
    cases hstrong
  · exact fun h => converse_supported (runRagGraph_supported h) (fun _ hok => runRagGraph_main hok) _

end

/-! ## A weakly relevant document answers a sub-question -/

namespace Sample

/-- Case folding on texts in lower case. -/
scoped instance lowerCase : TextCase := ⟨id, id⟩

def settings : Settings where
  topK := 8
  autoMergeEnabled := true
  autoMergeThreshold := 2
  rerankEnabled := false
  candidateLimit := 30
  maxDocumentCharacters := 8000
  maxTotalCharacters := 60000
  minScore := 0
  graderConfigured := true
  fastConfigured := true
  positive := by decide

def weakGrade : EvidenceGrade :=
  { relevance := .weak, answerability := .sufficient, route := .answer }

def found (chunk : String) : RetrievalScript where
  snapshot := .cached ⟨"tenant", "index", [⟨"chunks", true⟩]⟩
  embedding := .ok [1]
  targets _ := .ok (.hybrid [{ chunkId := some chunk, text := .str "text", score := some 1 }])
  parents := (.ok [], .ok [])
  rerank := .ok []

/-- Two sub-questions with a document each, graded weakly relevant and sufficient. -/
def script : Script where
  planner := .ok { complex := true, subQuestions := ["price of a", "price of b"] }
  first := ⟨found "main", .ok weakGrade⟩
  rewrites _ := { retrieval := found "main", grader := .ok weakGrade, rewrite := .ok ⟨.hyde, "", "d"⟩ }
  subs i := ⟨found (if i = 0 then "a" else "b"), .ok weakGrade⟩

end Sample

open scoped Sample in
/-- The comparison is answerable although no document is more than weakly relevant. -/
theorem weak_evidence_answered :
    let x := runRagGraph Sample.settings "tenant" "compare a with b" Sample.script
    x.result.map outcomeForResult = .ok .answerable ∧
      Sample.weakGrade ∈ contributing x.calls ∧ Sample.weakGrade.relevance = .weak := by
  decide +kernel

end SuperMew.Rag
