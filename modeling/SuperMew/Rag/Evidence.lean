import Mathlib.Data.List.Indexes
import SuperMew.Rag.Pipeline

/-! An answer is claimed on the evidence that its grades found. -/

namespace SuperMew.Rag

open Faults

/-! ## Grades in a log -/

def Call.gradeAt (site : Site) (call : Call) : Option EvidenceGrade :=
  match call.reply with
  | .graded grade => if call.site = site then some grade else none
  | _ => none

def gradesAt (site : Site) (calls : List Call) : List EvidenceGrade :=
  calls.filterMap (Call.gradeAt site)

theorem gradesAt_append (site : Site) (calls calls' : List Call) :
    gradesAt site (calls ++ calls') = gradesAt site calls ++ gradesAt site calls' :=
  List.filterMap_append ..

theorem gradesAt_eq_nil {site : Site} {calls : List Call}
    (h : ∀ c ∈ calls, c.IsPlain ∨ c.site ≠ site) : gradesAt site calls = [] := by
  refine List.filterMap_eq_nil_iff.mpr fun c hc => ?_
  unfold Call.gradeAt
  rcases h c hc with hplain | hsite
  · split
    · rename_i grade hreply
      exact absurd hreply (hplain.2 grade)
    · rfl
  · split
    · rw [if_neg hsite]
    · rfl

/-- The grades behind an outcome: the last one of the main path, and those of all
sub-questions. -/
def contributing (calls : List Call) : List EvidenceGrade :=
  (gradesAt .main calls).getLast?.toList ++ calls.filterMap fun call =>
    match call.site with
    | .main => none
    | site => call.gradeAt site

variable {grade : EvidenceGrade}

theorem mem_contributing {calls : List Call} :
    grade ∈ contributing calls ↔ (gradesAt .main calls).getLast? = some grade ∨
      ∃ i, grade ∈ gradesAt (.sub i) calls := by
  unfold contributing gradesAt
  simp only [List.mem_append, Option.mem_toList, List.mem_filterMap]
  refine or_congr Iff.rfl ⟨?_, ?_⟩
  · rintro ⟨c, hc, hgrade⟩
    split at hgrade
    · cases hgrade
    · cases hsite : c.site with
      | main => contradiction
      | sub i => exact ⟨i, c, hc, by rwa [hsite] at hgrade⟩
  · rintro ⟨i, c, hc, hgrade⟩
    have hsite : c.site = .sub i := by
      unfold Call.gradeAt at hgrade
      split at hgrade
      · by_contra hne
        rw [if_neg hne] at hgrade
        cases hgrade
      · cases hgrade
    exact ⟨c, hc, by simpa [hsite] using hgrade⟩

variable {state : RagState} {grades : List EvidenceGrade}

section

variable (settings : Settings)

/-- A state of the main path and the grades given so far: an answer stands on documents
and on the last of them. -/
structure MainGraded (state : RagState) (grades : List EvidenceGrade) : Prop where
  main : state.isSubAgent = false
  outcome : ∃ outcome, state.retrievalOutcome = some outcome
  answered : state.retrievalOutcome = some .answerable →
    state.docs ≠ [] ∧ ∃ grade, grades.getLast? = some grade ∧ answerIsSupported grade = true

/-- Every state that the execution ends in is graded, after the grades given before it. -/
def GradedAfter (grades : List EvidenceGrade) (x : Execution RagState) : Prop :=
  ∀ state, x.result = .ok state → MainGraded state (grades ++ gradesAt .main x.calls)

theorem gradedAfter_bind {α : Type} {x : Execution α} {f : α → Execution RagState}
    (h : ∀ a, x.result = .ok a → GradedAfter (grades ++ gradesAt .main x.calls) (f a)) :
    GradedAfter grades (x >>= f) := by
  intro state hok
  obtain ⟨a, hx, hf⟩ := Traced.bind_result_eq_ok.mp hok
  rw [Traced.bind_of_ok hx]
  have hgraded := h a hx state hf
  rwa [List.append_assoc, ← gradesAt_append] at hgraded

variable [TextCase]

/-! ## What grading does -/

inductive GradeOutcome (settings : Settings) (answer : Answer EvidenceGrade) (state : RagState) :
    Execution RagState → Prop where
  | nothing (h : state.docs = []) :
      GradeOutcome settings answer state ⟨[], .ok (gradeUpdate gradeForNoDocs state)⟩
  | unconfigured (exception : String) (h : settings.graderConfigured = false) :
      GradeOutcome settings answer state ⟨[], .error (.other exception)⟩
  | failed (error : ProviderError) (hdocs : state.docs ≠ []) (h : answer = .error error) :
      GradeOutcome settings answer state
        ⟨[{ service := .grader, reply := .failed }], .error (.provider error)⟩
  | graded (grade : EvidenceGrade) (hdocs : state.docs ≠ [])
      (hconfigured : settings.graderConfigured = true) (h : answer = .ok grade) :
      GradeOutcome settings answer state
        ⟨[{ service := .grader, reply := .graded grade }], .ok (gradeUpdate grade state)⟩

theorem gradeDocumentsNode_outcome (answer : Answer EvidenceGrade) (state : RagState) :
    GradeOutcome settings answer state (gradeDocumentsNode settings answer state) := by
  unfold gradeDocumentsNode
  by_cases hdocs : state.docs = []
  · simp only [hdocs, List.isEmpty_nil, if_true]
    exact .nothing hdocs
  · rw [if_neg (by simpa using hdocs)]
    cases hconfigured : settings.graderConfigured with
    | false => exact .unconfigured _ hconfigured
    | true =>
      cases h : answer with
      | error error => exact .failed error hdocs rfl
      | ok grade => exact .graded grade hdocs hconfigured rfl

/-! ## The main path -/

theorem mainGraded_gradeUpdate (hmain : state.isSubAgent = false)
    (hlast : state.docs ≠ [] → grades.getLast? = some grade) :
    MainGraded (gradeUpdate grade state) grades := by
  refine ⟨hmain, ⟨_, rfl⟩, fun houtcome => ?_⟩
  have hroute : resolveRoute grade state = .answer := by
    cases h : resolveRoute grade state <;>
      simp [gradeUpdate, h, retrievalStatusForRoute, outcomeForStatus] at houtcome ⊢
  obtain ⟨hdocs, hsupported⟩ := resolveRoute_main_answer hmain hroute
  refine ⟨?_, grade, hlast hdocs, hsupported⟩
  simpa [gradeUpdate, hroute] using hdocs

theorem gradeDocumentsNode_graded (answer : Answer EvidenceGrade) (state : RagState)
    (hmain : state.isSubAgent = false) (grades : List EvidenceGrade) :
    GradedAfter grades (gradeDocumentsNode settings answer state) := by
  have houtcome := gradeDocumentsNode_outcome settings answer state
  intro state' hok
  generalize gradeDocumentsNode settings answer state = x at houtcome hok
  cases houtcome with
  | nothing h =>
    cases hok
    exact mainGraded_gradeUpdate hmain fun hdocs => absurd h hdocs
  | unconfigured exception h | failed error hdocs h => cases hok
  | graded grade hdocs hconfigured h =>
    cases hok
    exact mainGraded_gradeUpdate hmain fun _ => by simp [gradesAt, Call.gradeAt]

omit [TextCase] in
variable {settings} in
theorem rewriteQuestionNode_main {answer : Answer RewritePlan} {state' : RagState}
    (hmain : state.isSubAgent = false)
    (h : (rewriteQuestionNode settings answer state).result = .ok state') :
    state'.isSubAgent = false := by
  unfold rewriteQuestionNode at h
  split at h
  · cases h
    exact hmain
  · split at h
    · cases h
    · obtain ⟨plan, -, h⟩ := Traced.bind_result_eq_ok.mp h
      split at h
      · cases h
      · cases h
        exact hmain

omit [TextCase] in
variable {settings} in
theorem retrieveRewritten_main {script : RetrievalScript} {state' : RagState}
    (hmain : state.isSubAgent = false)
    (h : (retrieveRewritten settings script state).result = .ok state') :
    state'.isSubAgent = false := by
  unfold retrieveRewritten at h
  split at h
  · cases h
  · obtain ⟨docs, -, h⟩ := Traced.bind_result_eq_ok.mp h
    cases h
    exact hmain

theorem rewriteRound_graded (script : RewriteScript) (hmain : state.isSubAgent = false)
    (grades : List EvidenceGrade) : GradedAfter grades (rewriteRound settings script state) := by
  refine gradedAfter_bind fun state₁ h₁ => gradedAfter_bind fun state₂ h₂ => ?_
  exact gradeDocumentsNode_graded settings _ _
    (retrieveRewritten_main (rewriteQuestionNode_main hmain h₁) h₂) _

theorem gradeCycle_graded (limit : ℕ) (scripts : ℕ → RewriteScript) (h : MainGraded state grades) :
    GradedAfter grades (gradeCycle settings limit scripts state) := by
  induction limit generalizing scripts state grades with
  | zero =>
    intro state' hok
    cases hok
  | succ limit ih =>
    unfold gradeCycle
    split
    · refine gradedAfter_bind fun state₁ h₁ => ?_
      exact ih _ (rewriteRound_graded settings (scripts 0) h.main grades state₁ h₁)
    · intro state' hok
      cases hok
      simpa [Traced.pure_calls, gradesAt] using h

theorem retrieveAndGrade_graded (script : RoundScript)
    (hmain : state.isSubAgent = false) (grades : List EvidenceGrade) :
    GradedAfter grades (retrieveAndGrade settings script state) := by
  refine gradedAfter_bind fun state₁ h₁ => ?_
  obtain ⟨docs, -, h₁⟩ := Traced.bind_result_eq_ok.mp h₁
  cases h₁
  refine gradeDocumentsNode_graded settings _ _ ?_ _
  exact hmain

theorem answerDirectly_graded (script : Script)
    (hmain : state.isSubAgent = false) : GradedAfter [] (answerDirectly settings script state) :=
  gradedAfter_bind fun state₁ h₁ =>
    gradeCycle_graded settings _ _ (retrieveAndGrade_graded settings _ hmain [] state₁ h₁)

theorem retrieveResumeQuery_graded (script : RoundScript)
    (hmain : state.isSubAgent = false) (grades : List EvidenceGrade) :
    GradedAfter grades (retrieveResumeQuery settings script state) := by
  refine gradedAfter_bind fun _ _ => gradeDocumentsNode_graded settings _ _ ?_ _
  exact hmain

theorem resumeRagState_graded (script : ResumeScript) (answer : String)
    (hmain : state.isSubAgent = false) :
    GradedAfter [] (resumeRagState settings script answer state) := by
  have hrefined : (refine state answer).isSubAgent = false := by simpa only [refine] using hmain
  refine gradedAfter_bind fun state₁ h₁ => ?_
  have hgraded := retrieveResumeQuery_graded settings script.first hrefined [] state₁ h₁
  split
  · exact rewriteRound_graded settings _ hgraded.main _
  · intro state' hok
    cases hok
    simpa [Traced.pure_calls, gradesAt] using hgraded

end

end SuperMew.Rag
