import SuperMew.Rag.Evidence

/-! What the sub-questions of a complex question bring back. -/

namespace SuperMew.Rag

open Faults Traced

variable {calls : List Call} {results : List SubResult} {scripts : ℕ → RoundScript}
  {docs : List Doc} {questions : List String} {i : ℕ} {error : ProviderError}
  {grade : EvidenceGrade}

section

variable (settings : Settings) (tenantId : String)

/-- The grade of a sub-question whose retrieval found documents and whose grader replied. -/
def gradeOfSub (script : RoundScript) : Option EvidenceGrade :=
  match (retrieveDocuments settings tenantId script.retrieval).result, script.grader with
  | .ok (_ :: _), .ok grade => if settings.graderConfigured then some grade else none
  | _, _ => none

variable {settings tenantId} {script : RoundScript}

theorem gradeOfSub_of_error {e : Raised}
    (h : (retrieveDocuments settings tenantId script.retrieval).result = .error e) :
    gradeOfSub settings tenantId script = none := by
  simp [gradeOfSub, h]

theorem gradeOfSub_of_nil (h : (retrieveDocuments settings tenantId script.retrieval).result = .ok []) :
    gradeOfSub settings tenantId script = none := by
  simp [gradeOfSub, h]

theorem gradeOfSub_of_grader_error (h : script.grader = .error error) :
    gradeOfSub settings tenantId script = none := by
  simp [gradeOfSub, h]

theorem gradeOfSub_of_ok (hne : docs ≠ [])
    (h : (retrieveDocuments settings tenantId script.retrieval).result = .ok docs)
    (hgrade : script.grader = .ok grade) (hconfigured : settings.graderConfigured = true) :
    gradeOfSub settings tenantId script = some grade := by
  cases docs with
  | nil => exact absurd rfl hne
  | cons doc docs => simp [gradeOfSub, h, hgrade, hconfigured]

variable (settings tenantId)

theorem subResultOf_status (grade : EvidenceGrade) [TextCase] (state : RagState) :
    (subResultOf (gradeUpdate grade state)).retrievalStatus =
      some (retrievalStatusForRoute (resolveRoute grade state) grade) := rfl

def callsOfSub (i : ℕ) (calls : List Call) : List Call :=
  (calls.filter fun c => c.site = .sub i).map fun c => { c with site := .main }

theorem callsOfSub_append (i : ℕ) (calls calls' : List Call) :
    callsOfSub i (calls ++ calls') = callsOfSub i calls ++ callsOfSub i calls' := by
  simp [callsOfSub]

theorem callsOfSub_eq_nil (h : ∀ c ∈ calls, c.site ≠ .sub i) : callsOfSub i calls = [] := by
  simpa [callsOfSub] using h

theorem callsOfSub_map_atSub (h : ∀ c ∈ calls, c.site = .main) :
    callsOfSub i (calls.map (atSub i)) = calls := by
  induction calls with
  | nil => rfl
  | cons c calls ih =>
    obtain ⟨hc, hcalls⟩ := List.forall_mem_cons.mp h
    rw [List.map_cons, ← List.singleton_append, callsOfSub_append, ih hcalls]
    cases c
    cases hc
    simp [callsOfSub, atSub]

theorem gradesAt_callsOfSub (i : ℕ) (calls : List Call) :
    gradesAt .main (callsOfSub i calls) = gradesAt (.sub i) calls := by
  induction calls with
  | nil => rfl
  | cons c calls ih =>
    rw [← List.singleton_append, callsOfSub_append, gradesAt_append, gradesAt_append, ih]
    congr 1
    by_cases hsite : c.site = .sub i
    · cases hreply : c.reply <;> simp [callsOfSub, gradesAt, Call.gradeAt, hsite, hreply]
    · cases hreply : c.reply <;> simp [callsOfSub, gradesAt, Call.gradeAt, hsite, hreply]

variable [TextCase]

/-- The sub-question has documents whose grade calls them sufficient for it. -/
def Covered (script : RoundScript) (question : String) : Prop :=
  ∃ grade, gradeOfSub settings tenantId script = some grade ∧
    Covers grade (initialState tenantId question true)

/-- The result of a sub-question against the answers of its providers and its calls. -/
structure SubRun (script : RoundScript) (question : String) (calls : List Call)
    (result : SubResult) : Prop where
  asked : result.question = question
  answerable : result.retrievalStatus = some .answerable ↔ Covered settings tenantId script question
  docs : result.retrievalStatus = some .answerable → result.docs ≠ []
  grades : gradesAt .main calls = (gradeOfSub settings tenantId script).toList
  status : result.providerError ≠ none → result.retrievalStatus = some .providerFailed

variable {settings tenantId} {question : String}

/-- The state in which a sub-question is graded. -/
def subState (tenantId question : String) (docs : List Doc) : RagState :=
  { initialState tenantId question true with docs := docs }

theorem retrieveAndGrade_of_ok
    (h : (retrieveDocuments settings tenantId script.retrieval).result = .ok docs) :
    retrieveAndGrade settings script (initialState tenantId question true) =
      ⟨(retrieveDocuments settings tenantId script.retrieval).calls ++
          (gradeDocumentsNode settings script.grader (subState tenantId question docs)).calls,
        (gradeDocumentsNode settings script.grader (subState tenantId question docs)).result⟩ := by
  unfold retrieveAndGrade retrieveInitial
  simp [bind, h, pure, subState, initialState]

theorem retrieveAndGrade_of_error {e : Raised}
    (h : (retrieveDocuments settings tenantId script.retrieval).result = .error e) :
    retrieveAndGrade settings script (initialState tenantId question true) =
      ⟨(retrieveDocuments settings tenantId script.retrieval).calls, .error e⟩ := by
  have htenant : (initialState tenantId question true).tenantId = tenantId := rfl
  unfold retrieveAndGrade retrieveInitial
  simp [bind, htenant, h]

theorem subRun_failed
    (hgrade : gradeOfSub settings tenantId script = none) (hgrades : gradesAt .main calls = []) :
    SubRun settings tenantId script question calls (failedSubResult question error) where
  asked := rfl
  answerable := by simp [failedSubResult, Covered, hgrade]
  docs h := by simp [failedSubResult] at h
  grades := by rw [hgrades, hgrade, Option.toList_none]
  status _ := rfl

theorem subRun_graded (hanswer : docs ≠ [] → gradeOfSub settings tenantId script = some grade)
    (hnothing : docs = [] → gradeOfSub settings tenantId script = none)
    (hgrades : gradesAt .main calls = (gradeOfSub settings tenantId script).toList) :
    SubRun settings tenantId script question calls
      (subResultOf (gradeUpdate grade (subState tenantId question docs))) := by
  have hroute : retrievalStatusForRoute
      (resolveRoute grade (subState tenantId question docs)) grade = .answerable ↔
        docs ≠ [] ∧ Covers grade (initialState tenantId question true) :=
    resolveRoute_sub_answerable rfl
  refine ⟨rfl, ?_, fun h => ?_, hgrades, fun h => absurd rfl h⟩
  · rw [subResultOf_status, Option.some_inj, hroute]
    constructor
    · rintro ⟨hdocs, hcovers⟩
      exact ⟨grade, hanswer hdocs, hcovers⟩
    · rintro ⟨grade', hgrade', hcovers⟩
      have hdocs : docs ≠ [] := fun hnil => by simp [hnothing hnil] at hgrade'
      cases (hanswer hdocs).symm.trans hgrade'
      exact ⟨hdocs, hcovers⟩
  · rw [subResultOf_status, Option.some_inj] at h
    have hanswered : resolveRoute grade (subState tenantId question docs) = .answer := by
      cases hr : resolveRoute grade (subState tenantId question docs) <;>
        simp [hr, retrievalStatusForRoute] at h ⊢
    have hkept : (subResultOf (gradeUpdate grade (subState tenantId question docs))).docs = docs := by
      simp only [subResultOf, gradeUpdate, hanswered]
      rfl
    rw [hkept]
    exact (hroute.mp h).1

theorem ragSubAgent_calls :
    (ragSubAgent settings tenantId script question).calls =
      (retrieveAndGrade settings script (initialState tenantId question true)).calls := by
  unfold ragSubAgent
  rw [rescue_calls, bind_pure_calls]

/-- A sub-question returns what it graded, or its provider error. -/
theorem ragSubAgent_cases {result : SubResult}
    (h : (ragSubAgent settings tenantId script question).result = .ok result) :
    (∃ state, (retrieveAndGrade settings script (initialState tenantId question true)).result =
        .ok state ∧ result = subResultOf state) ∨
      ∃ error, (retrieveAndGrade settings script (initialState tenantId question true)).result =
        .error (.provider error) ∧ result = failedSubResult question error := by
  unfold ragSubAgent at h
  rw [rescue_result, bind_pure_result] at h
  cases hinner : (retrieveAndGrade settings script (initialState tenantId question true)).result with
  | ok state =>
    rw [hinner] at h
    cases h
    exact .inl ⟨state, rfl, rfl⟩
  | error e =>
    rw [hinner] at h
    cases e with
    | provider error =>
      cases h
      exact .inr ⟨error, rfl, rfl⟩
    | other exception => cases h

/-- A sub-question that returns has a run of its own; the log is read before the calls
get the place of the sub-question. -/
theorem ragSubAgent_run {result : SubResult}
    (h : ragSubAgent settings tenantId script question = ⟨calls, .ok result⟩) :
    SubRun settings tenantId script question calls result := by
  have hplain := retrieveDocuments_plain settings tenantId script.retrieval
  have hungraded : gradesAt .main (retrieveDocuments settings tenantId script.retrieval).calls = [] :=
    gradesAt_eq_nil fun c hc => .inl (hplain.calls c hc)
  have hcases := ragSubAgent_cases (congrArg Traced.result h)
  obtain rfl : _ = calls := ragSubAgent_calls.symm.trans (congrArg Traced.calls h)
  cases hdocs : (retrieveDocuments settings tenantId script.retrieval).result with
  | error e =>
    rw [retrieveAndGrade_of_error hdocs] at hcases ⊢
    obtain ⟨state, hok, -⟩ | ⟨error, herror, rfl⟩ := hcases
    · cases hok
    · exact subRun_failed (gradeOfSub_of_error hdocs) hungraded
  | ok docs =>
    have houtcome := gradeDocumentsNode_outcome settings script.grader (subState tenantId question docs)
    rw [retrieveAndGrade_of_ok hdocs] at hcases ⊢
    generalize gradeDocumentsNode settings script.grader (subState tenantId question docs) = x
      at houtcome hcases ⊢
    cases houtcome with
    | nothing hnil =>
      obtain ⟨state, hok, rfl⟩ | ⟨error, herror, -⟩ := hcases
      · cases hok
        cases hnil
        have hnone := gradeOfSub_of_nil hdocs
        refine subRun_graded (fun hne => absurd rfl hne) (fun _ => hnone) ?_
        rw [hnone, List.append_nil, hungraded, Option.toList_none]
      · cases herror
    | unconfigured exception h =>
      obtain ⟨state, hok, -⟩ | ⟨error, herror, -⟩ := hcases
      · cases hok
      · cases herror
    | failed error hne hanswer =>
      obtain ⟨state, hok, -⟩ | ⟨error, herror, rfl⟩ := hcases
      · cases hok
      · refine subRun_failed (gradeOfSub_of_grader_error hanswer) ?_
        rw [gradesAt_append, hungraded]
        rfl
    | graded grade hne hconfigured hanswer =>
      obtain ⟨state, hok, rfl⟩ | ⟨error, herror, -⟩ := hcases
      · cases hok
        have hsome := gradeOfSub_of_ok hne hdocs hanswer hconfigured
        refine subRun_graded (fun _ => hsome) (fun hnil => absurd hnil hne) ?_
        rw [gradesAt_append, hungraded, hsome]
        rfl
      · cases herror

/-! ## The fan-out -/

variable (settings tenantId) in
theorem fanoutSubQuestions_sites (scripts : ℕ → RoundScript) (i : ℕ) (questions : List String) :
    ∀ c ∈ (fanoutSubQuestions settings tenantId scripts i questions).calls,
      ∃ j, i ≤ j ∧ j < i + questions.length ∧ c.site = .sub j := by
  induction questions generalizing i with
  | nil => simp [fanoutSubQuestions, pure_calls]
  | cons question questions ih =>
    refine all_bind ?_ fun result _ => all_bind ?_ fun _ _ => all_pure _
    · intro c hc
      obtain ⟨c, -, rfl⟩ := List.mem_map.mp hc
      exact ⟨i, le_rfl, by simp, rfl⟩
    · intro c hc
      obtain ⟨j, hj, hlt, hsite⟩ := ih (i + 1) c hc
      exact ⟨j, by omega, by simp only [List.length_cons]; omega, hsite⟩

theorem fanoutSubQuestions_cons
    (h : (fanoutSubQuestions settings tenantId scripts i (question :: questions)).result =
      .ok results) :
    ∃ result rest, results = result :: rest ∧
      (ragSubAgent settings tenantId (scripts i) question).result = .ok result ∧
      (fanoutSubQuestions settings tenantId scripts (i + 1) questions).result = .ok rest ∧
      (fanoutSubQuestions settings tenantId scripts i (question :: questions)).calls =
        (ragSubAgent settings tenantId (scripts i) question).calls.map (atSub i) ++
          (fanoutSubQuestions settings tenantId scripts (i + 1) questions).calls := by
  unfold fanoutSubQuestions at h
  obtain ⟨result, hresult, h⟩ := bind_result_eq_ok.mp h
  obtain ⟨rest, hrest, h⟩ := bind_result_eq_ok.mp h
  cases h
  refine ⟨result, rest, rfl, hresult, hrest, ?_⟩
  rw [fanoutSubQuestions, bind_of_ok hresult]
  simp only [bind_pure_calls]
  rfl

/-- Every sub-question of a fan-out that returns has its result and its run. -/
theorem fanoutSubQuestions_runs
    (h : (fanoutSubQuestions settings tenantId scripts i questions).result = .ok results) :
    results.length = questions.length ∧
      ∀ k question, questions[k]? = some question → ∃ result, results[k]? = some result ∧
        ragSubAgent settings tenantId (scripts (i + k)) question = ⟨callsOfSub (i + k)
          (fanoutSubQuestions settings tenantId scripts i questions).calls, .ok result⟩ := by
  induction questions generalizing i results with
  | nil =>
    cases h
    simp
  | cons question questions ih =>
    obtain ⟨result, rest, rfl, hresult, hrest, hcalls⟩ := fanoutSubQuestions_cons h
    obtain ⟨hlength, hruns⟩ := ih hrest
    have hlater := fanoutSubQuestions_sites settings tenantId scripts (i + 1) questions
    refine ⟨by simp [hlength], fun k question' hk => ?_⟩
    rw [hcalls, callsOfSub_append]
    cases k with
    | zero =>
      cases hk
      have hmain := (retrieveAndGrade_onMain settings (scripts i)
        (initialState tenantId question true)).sites
      rw [← ragSubAgent_calls] at hmain
      have hnone : callsOfSub i
          (fanoutSubQuestions settings tenantId scripts (i + 1) questions).calls = [] := by
        refine callsOfSub_eq_nil fun c hc hsite => ?_
        obtain ⟨j, hj, -, hsite'⟩ := hlater c hc
        rw [hsite] at hsite'
        cases hsite'
        omega
      refine ⟨result, rfl, ?_⟩
      rw [Nat.add_zero, callsOfSub_map_atSub hmain, hnone, List.append_nil, ← hresult]
    | succ k =>
      obtain ⟨result', hget, hrun⟩ := hruns k question' hk
      have hnone : callsOfSub (i + (k + 1))
          ((ragSubAgent settings tenantId (scripts i) question).calls.map (atSub i)) = [] := by
        refine callsOfSub_eq_nil fun c hc hsite => ?_
        obtain ⟨c, -, rfl⟩ := List.mem_map.mp hc
        simp [atSub] at hsite
      refine ⟨result', hget, ?_⟩
      rw [hnone, List.nil_append]
      have hindex : i + (k + 1) = i + 1 + k := by omega
      rw [hindex]
      exact hrun

end

/-! ## Synthesis -/

theorem synthesisStatus_eq_answerable :
    synthesisStatus results = .answerable ↔
      mergedDocs results ≠ [] ∧ providerFailures results = [] ∧ uncoveredResults results = [] := by
  unfold synthesisStatus
  by_cases hdocs : mergedDocs results = []
  · simp only [hdocs, ne_eq, not_true_eq_false, if_false, false_and, iff_false]
    repeat' split
    all_goals simp
  · by_cases hfailed : providerFailures results = [] <;>
      by_cases hcovered : uncoveredResults results = [] <;> simp [hdocs, hfailed, hcovered]

theorem synthesis_result {state state' : RagState} (h : (synthesis state).result = .ok state') :
    state' = synthesisState state := by
  unfold synthesis at h
  split at h
  · split at h
    · cases h
    · cases h
      rfl
  · cases h
    rfl

theorem synthesis_calls (state : RagState) : (synthesis state).calls = [] := by
  unfold synthesis
  split
  · split <;> rfl
  · rfl

theorem synthesisState_outcome (state : RagState) :
    outcomeForResult (synthesisState state) =
      outcomeForStatus (synthesisStatus state.subResults) := by
  have hexplicit : (synthesisState state).retrievalOutcome =
      some (outcomeForStatus (synthesisStatus state.subResults)) := rfl
  unfold outcomeForResult
  rw [hexplicit]
  cases hstatus : synthesisStatus state.subResults with
  | answerable =>
    have hdocs := (synthesisStatus_eq_answerable.mp hstatus).1
    have hne : (synthesisState state).docs ≠ [] := by simpa [synthesisState] using hdocs
    simp [outcomeForStatus, hne]
  | _ => rfl

end SuperMew.Rag
