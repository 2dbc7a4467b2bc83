import SuperMew.Rag.Answers
import SuperMew.Rag.Placement

/-! Provider faults are reported as faults: they never look like missing knowledge, and what
they leave uncovered is listed. -/

namespace SuperMew.Rag

open List Faults Traced

/-! ## Listed questions -/

theorem length_eraseDups_le {α : Type} [DecidableEq α] (xs : List α) :
    xs.eraseDups.length ≤ xs.length := by
  induction hn : xs.length using Nat.strong_induction_on generalizing xs with
  | _ n ih =>
    cases xs with
    | nil => simp
    | cons x xs =>
      have hfilter := length_filter_le (fun y => !y == x) xs
      rw [eraseDups_cons, length_cons]
      rw [length_cons] at hn
      have hrest := ih _ (by omega) (xs.filter fun y => !y == x) rfl
      omega

theorem words_ne_nil {cs : List Char} (h : ∃ c ∈ cs, isSpace c = false) : words cs ≠ [] := by
  induction cs with
  | nil => simp at h
  | cons c cs ih =>
    unfold words
    by_cases hc : isSpace c = true
    · rw [if_pos hc]
      refine ih ?_
      obtain ⟨d, hd, hspace⟩ := h
      rcases mem_cons.mp hd with rfl | hd
      · rw [hc] at hspace
        cases hspace
      · exact ⟨d, hd, hspace⟩
    · rw [if_neg hc]
      split
      · simp
      · split
        · simp
        · split <;> simp

theorem nil_notMem_words (cs : List Char) : [] ∉ words cs := by
  fun_induction words cs with
  | case1 => simp
  | case2 c cs hc ih => exact ih
  | case3 c hc => simp
  | case4 c d rest hc hd ih => simpa using ih
  | case5 c hc d rest hd hnil ih => simp [hnil]
  | case6 c hc d rest hd word words' hwords ih =>
    rw [hwords] at ih ⊢
    dsimp only
    rw [mem_cons] at ih ⊢
    rintro (h | h)
    · cases h
    · exact ih (.inr h)

theorem exists_not_space_of_strip {text : String} (h : (strip text).isEmpty = false) :
    ∃ c ∈ text.toList, isSpace c = false := by
  by_contra hnone
  have hall : ∀ c ∈ text.toList, isSpace c = true := by
    intro c hc
    by_contra hspace
    exact hnone ⟨c, hc, by simpa using hspace⟩
  have hdrop : text.toList.dropWhile isSpace = [] := dropWhile_eq_nil_iff.mpr hall
  simp [strip, stripChars, hdrop] at h

/-- A question that is not blank stays one when its spaces are collapsed. -/
theorem compactQuestion_ne_empty {text : String} (h : (strip text).isEmpty = false) :
    (compactQuestion text).isEmpty = false := by
  have hwords := words_ne_nil (exists_not_space_of_strip h)
  have hnil := nil_notMem_words text.toList
  obtain ⟨word, rest, hcons⟩ := exists_cons_of_ne_nil hwords
  rw [hcons, mem_cons, not_or] at hnil
  obtain ⟨c, cs, rfl⟩ := exists_cons_of_ne_nil (Ne.symm hnil.1)
  have htext : ∃ tail, [' '].intercalate (words text.toList) = c :: tail := by
    rw [hcons]
    cases rest with
    | nil => exact ⟨cs, by simp [List.intercalate]⟩
    | cons word' rest => exact ⟨_, by simp [List.intercalate]; rfl⟩
  obtain ⟨tail, htail⟩ := htext
  simp [compactQuestion, htail]

/-! ## Synthesised results -/

variable {state : RagState}

theorem mem_gapQuestions {question : String}
    (h : question ∈ state.ragTrace.coverageGapQuestions) (hblank : (strip question).isEmpty = false)
    (hfew : state.ragTrace.coverageGapQuestions.length ≤ 8) :
    compactQuestion question ∈ gapQuestions state := by
  unfold gapQuestions
  rw [take_of_length_le, mem_eraseDups, mem_filter]
  · exact ⟨mem_map_of_mem h, by rw [compactQuestion_ne_empty hblank]; rfl⟩
  · refine (length_eraseDups_le _).trans ((length_filter_le _ _).trans ?_)
    rwa [length_map]

/-- With documents and an uncovered result, the status is partial and the question listed. -/
theorem gap_listed {result : SubResult} (hdocs : (synthesisState state).docs ≠ [])
    (hresult : result ∈ state.subResults) (hstatus : result.retrievalStatus ≠ some .answerable)
    (hstrip : strip result.question = result.question) (hquestion : result.question.isEmpty = false)
    (hfew : state.subResults.length ≤ 8) :
    outcomeForResult (synthesisState state) = .insufficientEvidence ∧
      result.question ∈ (synthesisState state).ragTrace.coverageGapQuestions ∧
      compactQuestion result.question ∈ gapQuestions (synthesisState state) := by
  have hmerged : mergedDocs state.subResults ≠ [] := by simpa [synthesisState] using hdocs
  have huncovered : result ∈ uncoveredResults state.subResults := by
    simp [uncoveredResults, hresult, hstatus]
  have hlisted : result.question ∈ gapQuestionsOf state.subResults := by
    rw [gapQuestionsOf, if_pos (.inl hmerged), mem_eraseDups, mem_filter]
    exact ⟨mem_map.mpr ⟨result, huncovered, hstrip⟩, by simp [hquestion]⟩
  have hlength : (gapQuestionsOf state.subResults).length ≤ 8 := by
    rw [gapQuestionsOf, if_pos (.inl hmerged)]
    refine (length_eraseDups_le _).trans ((length_filter_le _ _).trans ?_)
    rw [length_map]
    exact (length_filter_le _ _).trans hfew
  refine ⟨?_, hlisted, mem_gapQuestions hlisted (by rwa [hstrip]) hlength⟩
  have hpartly : synthesisStatus state.subResults = .partly := by
    rw [synthesisStatus, if_pos hmerged, if_pos (.inr (ne_nil_of_mem huncovered))]
  rw [synthesisState_outcome, hpartly]
  rfl

variable {results : List SubResult}

theorem synthesisStatus_eq_noKnowledge
    (h : synthesisStatus results = .noKnowledge) : providerFailures results = [] := by
  unfold synthesisStatus at h
  by_contra hfailures
  simp only [hfailures, ne_eq, not_false_eq_true, true_or, if_true] at h
  repeat' split at h
  all_goals simp at h

/-- The synthesis raises exactly when every one of its sub-questions failed. -/
theorem synthesis_raises : Raises (synthesis state) ↔
    state.subResults ≠ [] ∧ ∀ result ∈ state.subResults, result.providerError ≠ none := by
  have hlength : (providerFailures state.subResults).length = state.subResults.length ↔
      ∀ result ∈ state.subResults, result.providerError ≠ none := by
    simp [providerFailures, filterMap_length_eq_length, Option.isSome_iff_ne_none]
  unfold synthesis
  rw [← hlength]
  cases hfailures : providerFailures state.subResults with
  | nil =>
    refine iff_of_false (not_raises_pure _) ?_
    rintro ⟨hne, hzero⟩
    exact hne (eq_nil_of_length_eq_zero hzero.symm)
  | cons error errors =>
    have hne : state.subResults ≠ [] := by
      intro hnil
      simp [providerFailures, hnil] at hfailures
    simp only [hne, ne_eq, not_false_eq_true, true_and]
    split
    · rename_i hall
      exact iff_of_true (raises_raise.mpr trivial) (by simpa using hall)
    · rename_i hall
      exact iff_of_false (not_raises_pure _) (by simpa using hall)

/-! ## The report -/

/-- How a run reports its faults. `mainFails` and `subFails i` say that an answer which the
main path or the `i`-th sub-question needs is an error, `gap i subQuestion` that the
sub-question is not answered. -/
structure FaultsReported (x : Execution RagState) (subQuestions : List String) (mainFails : Prop)
    (subFails : ℕ → Prop) (gap : ℕ → String → Prop) : Prop where
  knowledge : ∀ state, x.result = .ok state → outcomeForResult state = .noKnowledge →
    ∀ c ∈ x.calls, c.reply = .failed → c.service = .rerank
  gaps : ∀ state, x.result = .ok state → state.docs ≠ [] →
    ∀ i subQuestion, subQuestions[i]? = some subQuestion → subFails i ∨ gap i subQuestion →
      outcomeForResult state = .insufficientEvidence ∧
        subQuestion ∈ state.ragTrace.coverageGapQuestions ∧
        compactQuestion subQuestion ∈ gapQuestions state
  raised : Raises x ↔
    mainFails ∨ subQuestions ≠ [] ∧ ∀ i < subQuestions.length, subFails i
  main : (∃ c ∈ x.calls, c.site = .main ∧ c.Fatal) ↔ mainFails
  -- another exception of a sub-question ends the run before the later ones are asked
  subs : (∀ exception, x.result ≠ .error (.other exception)) → ∀ i < subQuestions.length,
    ((∃ c ∈ x.calls, c.site = .sub i ∧ c.Fatal) ↔ subFails i)

variable {x : Execution RagState}

/-- The main path reports its faults by raising them. -/
theorem OnMain.reported {mainFails : Prop} (h : OnMain x)
    (hmain : Raises x ↔ mainFails) (subFails : ℕ → Prop) (gap : ℕ → String → Prop) :
    FaultsReported x [] mainFails subFails gap where
  knowledge state hok _ c hc hfailed := by
    by_contra hservice
    exact h.exact.not_fatal hok c hc ⟨hfailed, hservice⟩
  gaps state _ _ i subQuestion hget := by simp at hget
  raised := by simpa using hmain
  main := by
    refine Iff.trans ⟨?_, ?_⟩ (h.exact.symm.trans hmain)
    · rintro ⟨c, hc, -, hfatal⟩
      exact ⟨c, hc, hfatal⟩
    · rintro ⟨c, hc, hfatal⟩
      exact ⟨c, hc, h.sites c hc, hfatal⟩
  subs _ i hi := by simp at hi

theorem fatal_callsOfSub {i : ℕ} {calls : List Call} :
    (∃ c ∈ callsOfSub i calls, c.Fatal) ↔ ∃ c ∈ calls, c.site = .sub i ∧ c.Fatal := by
  constructor
  · rintro ⟨c, hc, hfatal⟩
    obtain ⟨call, hcall, rfl⟩ := mem_map.mp hc
    obtain ⟨hmem, hsite⟩ := mem_filter.mp hcall
    exact ⟨call, hmem, by simpa using hsite, hfatal⟩
  · rintro ⟨c, hc, hsite, hfatal⟩
    exact ⟨{ c with site := .main },
      mem_map_of_mem (mem_filter.mpr ⟨hc, by simpa using hsite⟩), hfatal⟩

variable {round : RoundScript}

section

variable [TextCase]

/-- The `i`-th sub-question found nothing or was not answerable. -/
def Uncovered (settings : Settings) (tenantId : String) (script : Script) (i : ℕ)
    (subQuestion : String) : Prop :=
  (retrieveDocuments settings tenantId (script.subs i).retrieval).result = .ok [] ∨
    ∃ grade, gradeOfSub settings tenantId (script.subs i) = some grade ∧
      ¬ Covers grade (initialState tenantId subQuestion true)

variable {settings : Settings} {t question subQuestion : String} {script : Script}
  {subQuestions : List String} {i : ℕ}

/-! ## Sub-questions -/

theorem raises_subQuestion :
    Raises (retrieveAndGrade settings round (initialState t subQuestion true)) ↔
      RoundFails settings t round :=
  raises_retrieveAndGrade

theorem ragSubAgent_fatal :
    (∃ c ∈ (ragSubAgent settings t round subQuestion).calls, c.Fatal) ↔
      RoundFails settings t round := by
  rw [ragSubAgent_calls]
  exact (retrieveAndGrade_onMain settings round _).exact.symm.trans raises_subQuestion

/-- A sub-question that returns reports a provider error exactly when it met one. -/
theorem ragSubAgent_failed {result : SubResult}
    (h : (ragSubAgent settings t round subQuestion).result = .ok result) :
    result.providerError ≠ none ↔ RoundFails settings t round := by
  rw [← raises_subQuestion]
  obtain ⟨state, hok, rfl⟩ | ⟨error, herror, rfl⟩ := ragSubAgent_cases h
  · refine iff_of_false (fun hfailed => hfailed rfl) ?_
    rintro ⟨e, he, -⟩
    rw [hok] at he
    cases he
  · exact iff_of_true (by simp [failedSubResult]) ⟨_, herror, trivial⟩

/-- A sub-question raises no provider error, and what it raises follows no failed call. -/
theorem ragSubAgent_error {e : Raised}
    (h : (ragSubAgent settings t round subQuestion).result = .error e) :
    (∃ exception, e = .other exception) ∧ ¬ RoundFails settings t round := by
  rw [← raises_subQuestion]
  unfold ragSubAgent at h
  rw [rescue_result, bind_pure_result] at h
  cases hinner : (retrieveAndGrade settings round (initialState t subQuestion true)).result with
  | ok state =>
    rw [hinner] at h
    cases h
  | error e' =>
    rw [hinner] at h
    cases e' with
    | provider error => cases h
    | other exception =>
      cases h
      refine ⟨⟨exception, rfl⟩, ?_⟩
      rintro ⟨e, he, hprovider⟩
      rw [hinner] at he
      cases he
      exact hprovider

/-- A fan-out that raises has a sub-question that met no provider error. -/
theorem fanoutSubQuestions_error {scripts : ℕ → RoundScript} {e : Raised} (i : ℕ)
    (h : (fanoutSubQuestions settings t scripts i subQuestions).result = .error e) :
    (∃ exception, e = .other exception) ∧ ∃ k < subQuestions.length,
      ¬ RoundFails settings t (scripts (i + k)) := by
  induction subQuestions generalizing i with
  | nil => cases h
  | cons subQuestion subQuestions ih =>
    unfold fanoutSubQuestions at h
    cases hsub : (ragSubAgent settings t (scripts i) subQuestion).result with
    | error e' =>
      have hrelabel : ((ragSubAgent settings t (scripts i) subQuestion).relabel
        (atSub i)).result = .error e' := hsub
      rw [bind_of_error hrelabel] at h
      cases h
      obtain ⟨hother, hround⟩ := ragSubAgent_error hsub
      exact ⟨hother, 0, by simp, hround⟩
    | ok result =>
      have hrelabel : ((ragSubAgent settings t (scripts i) subQuestion).relabel
        (atSub i)).result = .ok result := hsub
      rw [bind_of_ok hrelabel, bind_pure_result] at h
      cases hrest : (fanoutSubQuestions settings t scripts (i + 1) subQuestions).result with
      | ok rest =>
        rw [hrest] at h
        cases h
      | error e' =>
        rw [hrest] at h
        cases h
        obtain ⟨hother, k, hk, hround⟩ := ih (i + 1) hrest
        refine ⟨hother, k + 1, by simpa using hk, ?_⟩
        rwa [show i + (k + 1) = i + 1 + k by omega]

section

variable (h : (fanoutSubQuestions settings t script.subs 0 subQuestions).result = .ok results)

include h

theorem fanoutSubQuestions_fatal (hi : i < subQuestions.length) :
    (∃ c ∈ (fanoutSubQuestions settings t script.subs 0 subQuestions).calls,
      c.site = .sub i ∧ c.Fatal) ↔ RoundFails settings t (script.subs i) := by
  obtain ⟨result, -, hrun⟩ := (fanoutSubQuestions_runs h).2 i _ (getElem?_eq_getElem hi)
  rw [Nat.zero_add] at hrun
  rw [← fatal_callsOfSub, ← ragSubAgent_fatal, hrun]

theorem fanoutSubQuestions_failed {result : SubResult} (hget : results[i]? = some result) :
    result.providerError ≠ none ↔ RoundFails settings t (script.subs i) := by
  obtain ⟨hlength, hruns⟩ := fanoutSubQuestions_runs h
  obtain ⟨hi, rfl⟩ := List.getElem?_eq_some_iff.mp hget
  obtain ⟨result', hget', hrun⟩ := hruns i _ (getElem?_eq_getElem (hlength ▸ hi))
  rw [hget, Option.some_inj] at hget'
  rw [hget', Nat.zero_add] at *
  exact ragSubAgent_failed (congrArg result hrun)

/-- All results failed exactly when all sub-questions met a provider error. -/
theorem fanoutSubQuestions_all_failed :
    (results ≠ [] ∧ ∀ result ∈ results, result.providerError ≠ none) ↔
      subQuestions ≠ [] ∧ ∀ i < subQuestions.length, RoundFails settings t (script.subs i) := by
  have hlength := (fanoutSubQuestions_runs h).1
  refine and_congr (by simp only [ne_eq, ← length_eq_zero_iff, hlength]) ⟨?_, ?_⟩
  · intro hall i hi
    have hi' : i < results.length := hlength ▸ hi
    exact (fanoutSubQuestions_failed h (getElem?_eq_getElem hi')).mp (hall _ (getElem_mem hi'))
  · intro hall result hresult
    obtain ⟨i, hi, rfl⟩ := getElem_of_mem hresult
    exact (fanoutSubQuestions_failed h (getElem?_eq_getElem hi)).mpr (hall i (hlength ▸ hi))

end

theorem plannedSubQuestions_clean {planner : Answer ComplexityResult}
    (h : PlannedAs settings question planner subQuestions) :
    subQuestions.length ≤ 4 ∧ ∀ subQuestion ∈ subQuestions,
      strip subQuestion = subQuestion ∧ subQuestion.isEmpty = false := by
  obtain ⟨-, -, -, result, -, -, rfl⟩ := h
  refine ⟨length_take_le _ _, fun subQuestion hsub => ?_⟩
  obtain ⟨item, hitem, rfl⟩ := mem_map.mp (mem_of_mem_take hsub)
  refine ⟨by simp [strip, stripChars_stripChars], ?_⟩
  simpa using (mem_filter.mp hitem).2

/-- A sub-question that is not answered has a result that is not answerable. -/
theorem status_of_uncovered
    (h : (fanoutSubQuestions settings t script.subs 0 subQuestions).result = .ok results)
    (hi : subQuestions[i]? = some subQuestion)
    (hgap : RoundFails settings t (script.subs i) ∨ Uncovered settings t script i subQuestion) :
    ∃ result ∈ results, result.question = subQuestion ∧
      result.retrievalStatus ≠ some .answerable := by
  obtain ⟨result, hget, hagent⟩ := (fanoutSubQuestions_runs h).2 i subQuestion hi
  rw [Nat.zero_add] at hagent
  have hrun := ragSubAgent_run hagent
  refine ⟨result, mem_of_getElem? hget, hrun.asked, fun hanswerable => ?_⟩
  obtain ⟨grade, hgrade, hcovers⟩ := hrun.answerable.mp hanswerable
  rcases hgap with hfails | hnothing | ⟨grade', hgrade', huncovered⟩
  · have hstatus := hrun.status ((fanoutSubQuestions_failed h hget).mpr hfails)
    rw [hanswerable] at hstatus
    cases hstatus
  · rw [gradeOfSub_of_nil hnothing] at hgrade
    cases hgrade
  · cases hgrade.symm.trans hgrade'
    exact huncovered hcovers

theorem answerSubQuestions_calls (state : RagState) :
    (answerSubQuestions settings script subQuestions state).calls =
      (fanoutSubQuestions settings state.tenantId script.subs 0 subQuestions).calls := by
  unfold answerSubQuestions
  cases h : (fanoutSubQuestions settings state.tenantId script.subs 0 subQuestions).result with
  | error e => rw [bind_of_error h]
  | ok results => rw [bind_of_ok h, synthesis_calls, append_nil]

theorem raises_answerSubQuestions (state : RagState) :
    Raises (answerSubQuestions settings script subQuestions state) ↔ subQuestions ≠ [] ∧
      ∀ i < subQuestions.length, RoundFails settings state.tenantId (script.subs i) := by
  rw [Raises, Traced.Raises, answerSubQuestions]
  cases h : (fanoutSubQuestions settings state.tenantId script.subs 0 subQuestions).result with
  | error e =>
    obtain ⟨⟨exception, rfl⟩, k, hk, hround⟩ := fanoutSubQuestions_error 0 h
    rw [bind_of_error h]
    refine iff_of_false ?_ fun hall => hround ?_
    · simp [Raised.IsProvider]
    · simpa using hall.2 k hk
  | ok results =>
    rw [bind_of_ok h]
    exact synthesis_raises.trans (fanoutSubQuestions_all_failed h)

/-- The branch of complex questions reports its faults, also after quiet calls. -/
theorem answerSubQuestions_reported
    (hplan : PlannedAs settings question script.planner subQuestions)
    {mainFails : Prop} (hmain : ¬ mainFails) {calls : List Call}
    (hquiet : ∀ c ∈ calls, c.site = .main ∧ ¬ c.Fatal) (hcalls : x.calls = calls ++
      (answerSubQuestions settings script subQuestions (initialState t question false)).calls)
    (hresult : x.result =
      (answerSubQuestions settings script subQuestions (initialState t question false)).result) :
    FaultsReported x subQuestions mainFails (fun i => RoundFails settings t (script.subs i))
      (Uncovered settings t script) := by
  have hsites := fanoutSubQuestions_sites settings t script.subs 0 subQuestions
  have hfatal : ∀ c, c.Fatal → (c ∈ x.calls ↔
      c ∈ (fanoutSubQuestions settings t script.subs 0 subQuestions).calls) := by
    intro c hc
    rw [hcalls, answerSubQuestions_calls, mem_append]
    exact or_iff_right fun hmem => (hquiet c hmem).2 hc
  obtain ⟨hfew, hclean⟩ := plannedSubQuestions_clean hplan
  constructor
  · intro state hok houtcome c hc hfailed
    by_contra hservice
    rw [hresult] at hok
    obtain ⟨results, hfanout, rfl, -⟩ := answerSubQuestions_result hok
    rw [synthesisState_outcome] at houtcome
    have hnone : providerFailures results = [] := by
      refine synthesisStatus_eq_noKnowledge ?_
      cases hs : synthesisStatus results <;> simp [hs, outcomeForStatus] at houtcome ⊢
    have hmem := (hfatal c ⟨hfailed, hservice⟩).mp hc
    obtain ⟨j, -, hj, hsite⟩ := hsites c hmem
    rw [Nat.zero_add] at hj
    have hround := (fanoutSubQuestions_fatal hfanout hj).mp ⟨c, hmem, hsite, hfailed, hservice⟩
    have hj' : j < results.length := (fanoutSubQuestions_runs hfanout).1 ▸ hj
    exact (fanoutSubQuestions_failed hfanout (getElem?_eq_getElem hj')).mpr hround
      (filterMap_eq_nil_iff.mp hnone _ (getElem_mem _))
  · intro state hok hdocs i subQuestion hi hgap
    rw [hresult] at hok
    obtain ⟨results, hfanout, rfl, -⟩ := answerSubQuestions_result hok
    obtain ⟨result, hmem, rfl, hstatus⟩ := status_of_uncovered hfanout hi hgap
    obtain ⟨hstrip, hempty⟩ := hclean result.question (mem_of_getElem? hi)
    exact gap_listed hdocs hmem hstatus hstrip hempty
      (by simp only [(fanoutSubQuestions_runs hfanout).1]; omega)
  · rw [or_iff_right hmain, Raises, Traced.Raises, hresult]
    exact raises_answerSubQuestions _
  · refine iff_of_false ?_ hmain
    rintro ⟨c, hc, hsite, hfails⟩
    obtain ⟨j, -, -, hsub⟩ := hsites c ((hfatal c hfails).mp hc)
    rw [hsub] at hsite
    cases hsite
  · intro hother i hi
    rw [hresult] at hother
    cases hfanout : (fanoutSubQuestions settings t script.subs 0 subQuestions).result with
    | error e =>
      obtain ⟨⟨exception, rfl⟩, -⟩ := fanoutSubQuestions_error 0 hfanout
      exact absurd (congrArg result (bind_of_error hfanout _)) (hother exception)
    | ok results =>
      rw [← fanoutSubQuestions_fatal hfanout hi]
      exact exists_congr fun c => and_congr_left fun hc => hfatal c hc.2

/-! ## Whole runs -/

variable (settings : Settings) (tenantId question : String) (script : Script)
  (answers : List (String × Bool × ResumeScript))

def subQuestionsOf : List String :=
  if (strip tenantId).isEmpty then []
  else match (classifyComplexity settings script.planner question).result with
    | .ok (some subQuestions) => subQuestions
    | _ => []

/-- The user answers a question that the synthesis of the sub-questions asked. -/
def AnswersSynthesis : Prop :=
  answers ≠ [] ∧ ∃ state, (runRagGraph settings tenantId question script).result = .ok state ∧
    isHitlResult state = true ∧ state.subQuestions ≠ []

variable {settings tenantId question script answers}

theorem resumeRun_of_not_asked (h : answers = [] ∨ isHitlResult state = false) :
    resumeRun settings answers state = pure state ∧ ¬ ResumptionsFail settings answers state := by
  cases answers with
  | nil => exact ⟨rfl, id⟩
  | cons entry answers =>
    have hasked := h.resolve_left (cons_ne_nil _ _)
    simp [resumeRun, ResumptionsFail, hasked]

/-- Without sub-questions a run stays on the main path. -/
theorem runWithAnswers_reported (h : (strip tenantId).isEmpty = false → ∀ subQuestions,
    (classifyComplexity settings script.planner question).result ≠ .ok (some subQuestions))
    (subFails : ℕ → Prop) (gap : ℕ → String → Prop) :
    FaultsReported (runWithAnswers settings tenantId question script answers) []
      (MainFails settings tenantId question script answers) subFails gap := by
  have hmain : OnMain (runRagGraph settings tenantId question script) := by
    unfold runRagGraph
    split
    · exact (Plain.raise _).onMain
    · rename_i htenant
      refine (classifyComplexity_plain settings _ question).onMain.bind fun planned hplanned => ?_
      cases planned with
      | none => exact answerDirectly_onMain settings script _
      | some subQuestions => exact absurd hplanned (h (by simpa using htenant) _)
  refine (hmain.bind fun state _ => resumeRun_onMain settings answers state).reported ?_ _ _
  exact raises_bind (raises_runRagGraph h) fun _ _ => raises_resumeRun answers _

variable (settings tenantId question script answers)

/-- A run reports the faults of all its legs, unless the user answers a question of the
synthesis. -/
theorem faults_reported (h : ¬ AnswersSynthesis settings tenantId question script answers) :
    FaultsReported (runWithAnswers settings tenantId question script answers)
      (subQuestionsOf settings tenantId question script)
      (MainFails settings tenantId question script answers)
      (fun i => RoundFails settings (strip tenantId) (script.subs i))
      (Uncovered settings (strip tenantId) script) := by
  by_cases hsubs : (strip tenantId).isEmpty = false ∧ ∃ subQuestions,
    (classifyComplexity settings script.planner question).result = .ok (some subQuestions)
  · obtain ⟨htenant, subQuestions, hplanned⟩ := hsubs
    have hplan := classifyComplexity_eq_some.mp hplanned
    have hplain := classifyComplexity_plain settings script.planner question
    obtain ⟨hresult, hcalls⟩ := runRagGraph_of_classified htenant hplanned
    have hdone : ∀ state, (runRagGraph settings tenantId question script).result = .ok state →
        resumeRun settings answers state = pure state ∧
          ¬ ResumptionsFail settings answers state := by
      intro state hok
      refine resumeRun_of_not_asked (or_iff_not_imp_left.mpr fun hne => ?_)
      by_contra hasked
      refine h ⟨hne, state, hok, by simpa using hasked, ?_⟩
      obtain ⟨results, -, rfl, -⟩ := answerSubQuestions_result (hresult ▸ hok)
      exact hplan.2.2.1
    have hrun : runWithAnswers settings tenantId question script answers =
        runRagGraph settings tenantId question script :=
      bind_eq_self fun state hok => (hdone state hok).1
    have hmain : ¬ MainFails settings tenantId question script answers := by
      rintro (⟨-, hplanner | ⟨planned, hok, hnone, -⟩⟩ | ⟨state, hok, hfails⟩)
      · obtain ⟨e, he, -⟩ := raises_classifyComplexity.mpr hplanner
        rw [hplanned] at he
        cases he
      · rw [hplanned, hnone] at hok
        cases hok
      · exact (hdone state hok).2 hfails
    have hquestions : subQuestionsOf settings tenantId question script = subQuestions := by
      simp [subQuestionsOf, htenant, hplanned]
    rw [hquestions, hrun]
    exact answerSubQuestions_reported hplan hmain
      (fun c hc => ⟨(hplain.calls c hc).1, hplain.exact.not_fatal hplanned c hc⟩) hcalls hresult
  · have hnone : (strip tenantId).isEmpty = false → ∀ subQuestions,
        (classifyComplexity settings script.planner question).result ≠ .ok (some subQuestions) :=
      fun htenant subQuestions hplanned => hsubs ⟨htenant, subQuestions, hplanned⟩
    have hquestions : subQuestionsOf settings tenantId question script = [] := by
      unfold subQuestionsOf
      split
      · rfl
      · rename_i htenant
        split
        · exact absurd ‹_› (hnone (by simpa using htenant) _)
        · rfl
    rw [hquestions]
    exact runWithAnswers_reported hnone _ _

end

namespace Sample

/-- The grade of the first sub-question asks for a missing detail, and Milvus fails for the
second. -/
def failing : Script where
  planner := script.planner
  first := script.first
  rewrites := script.rewrites
  subs i := if i = 0 then
      ⟨found "a", .ok { weakGrade with ambiguity := .missingSlot, route := .clarify }⟩
    else ⟨{ found "b" with targets := fun _ => .error vectorStoreUnavailable }, .ok weakGrade⟩

/-- The legs that follow the user's answer, with the documents they find. -/
def resumed (docs : List Doc) : List (String × Bool × ResumeScript) :=
  [("the year", true,
    ⟨⟨{ found "a" with targets := fun _ => .ok (.hybrid docs) },
      .ok { weakGrade with relevance := .strong }⟩, script.rewrites 0⟩)]

end Sample

section

open scoped Sample

/-- Without an answer the failed sub-question leaves a question to the user, and is logged. -/
theorem faults_reported_unanswered :
    ¬ AnswersSynthesis Sample.settings "tenant" "compare a with b" Sample.failing [] ∧
      FaultsReported (runWithAnswers Sample.settings "tenant" "compare a with b" Sample.failing [])
        (subQuestionsOf Sample.settings "tenant" "compare a with b" Sample.failing)
        (MainFails Sample.settings "tenant" "compare a with b" Sample.failing [])
        (fun i => RoundFails Sample.settings (strip "tenant") (Sample.failing.subs i))
        (Uncovered Sample.settings (strip "tenant") Sample.failing) :=
  ⟨fun h => h.1 rfl, faults_reported _ _ _ _ _ fun h => h.1 rfl⟩

/-- After the user's answer the run has no knowledge, or an answer, although Milvus failed for
a sub-question. -/
theorem resumed_fault_lost :
    let document : Doc := { chunkId := some "a", text := .str "text", score := some 1 }
    let run docs := runWithAnswers Sample.settings "tenant" "compare a with b" Sample.failing
      (Sample.resumed docs)
    (run []).result.map outcomeForResult = .ok .noKnowledge ∧
      (run [document]).result.map outcomeForResult = .ok .answerable ∧
      ∀ docs ∈ [[], [document]], ∃ c ∈ (run docs).calls,
        c.site = .sub 1 ∧ c.reply = .failed ∧ c.service = .vector := by
  decide +kernel

end

end SuperMew.Rag
