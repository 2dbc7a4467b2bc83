import SuperMew.Evaluation.Jobs

/-! What every row of the job table satisfies, and that each operation on a row keeps it. -/

namespace SuperMew.Evaluation

open List Relational CaseRow

/-! ### Case rows -/

/-- The update changes neither the identity of a case nor whether it is completed. -/
def Steady (f : CaseRow → CaseRow) (case : CaseRow) : Prop :=
  (f case).caseId = case.caseId ∧ (f case).observation = case.observation ∧
    ((f case).status = .completed ↔ case.status = .completed)

variable {case : CaseRow} {f : CaseRow → CaseRow}

theorem Steady.comp {g : CaseRow → CaseRow} (hf : Steady f case)
    (hg : Steady g (f case)) : Steady (g ∘ f) case := by
  refine ⟨hg.1.trans hf.1, hg.2.1.trans hf.2.1, hg.2.2.trans hf.2.2⟩

variable (report : Option RagEvalReport) (now : Time)

namespace CaseRow

theorem closeIf_status (statuses : List RagEvaluationCaseStatus)
    (status : RagEvaluationCaseStatus) (errorCode : Option String) (now : Time) (case : CaseRow) :
    (closeIf statuses status errorCode now case).status =
      if case.status ∈ statuses then status else case.status := by
  unfold closeIf
  split <;> rfl

theorem steady_closeIf {statuses : List RagEvaluationCaseStatus}
    {status : RagEvaluationCaseStatus} (errorCode : Option String) (now : Time) (case : CaseRow)
    (hstatuses : .completed ∉ statuses) (hstatus : status ≠ .completed) :
    Steady (closeIf statuses status errorCode now) case := by
  refine ⟨?_, ?_, ?_⟩
  · unfold closeIf
    split <;> rfl
  · unfold closeIf
    split <;> rfl
  · rw [closeIf_status]
    split
    next hmem =>
      have hopen : case.status ≠ .completed := fun h => hstatuses (h ▸ hmem)
      simp [hstatus, hopen]
    next => rfl

@[simp] theorem score_status (report : RagEvalReport) (now : Time) (case : CaseRow) :
    (score report now case).status = case.status := by
  unfold score
  split <;> rfl

@[simp] theorem score_caseId (report : RagEvalReport) (now : Time) (case : CaseRow) :
    (score report now case).caseId = case.caseId := by
  unfold score
  split <;> rfl

theorem steady_score (report : RagEvalReport) (now : Time) (case : CaseRow) :
    Steady (score report now) case := by
  refine ⟨score_caseId report now case, ?_, by rw [score_status]⟩
  unfold score
  split <;> rfl

@[simp] theorem scoreIf_status (case : CaseRow) :
    (scoreIf report now case).status = case.status := by
  cases report with
  | none => rfl
  | some r => exact score_status r now case

@[simp] theorem scoreIf_caseId (case : CaseRow) :
    (scoreIf report now case).caseId = case.caseId := by
  cases report with
  | none => rfl
  | some r => exact score_caseId r now case

theorem steady_scoreIf (case : CaseRow) : Steady (scoreIf report now) case := by
  cases report with
  | none => exact ⟨rfl, rfl, Iff.rfl⟩
  | some r => exact steady_score r now case

theorem requeue_status (case : CaseRow) :
    (requeue now case).status = if case.status = .running then .queued else case.status := by
  unfold requeue
  split <;> rfl

theorem steady_requeue (case : CaseRow) : Steady (requeue now) case := by
  unfold Steady requeue
  split <;> simp_all

theorem steady_start (case : CaseRow) (h : case.status = .queued) : Steady (start now) case := by
  simp [Steady, start, h]

theorem steady_fail (errorCode errorDetail : String) (now : Time) (case : CaseRow)
    (h : case.status = .running) : Steady (fail errorCode errorDetail now) case := by
  simp [Steady, fail, h]

end CaseRow

variable {cases : List CaseRow}

/-- Ids are unique, so rewriting the first row with an id rewrites every row with it. -/
theorem updateCase_eq_map (hids : (cases.map caseId).Nodup)
    (caseId : String) (f : CaseRow → CaseRow) :
    updateCase caseId f cases = cases.map fun c => if c.caseId = caseId then f c else c := by
  induction cases with
  | nil => rfl
  | cons case rest ih =>
    obtain ⟨hfresh, hrest⟩ := nodup_cons.mp hids
    by_cases h : case.caseId = caseId
    · have hothers : rest.map (fun c => if c.caseId = caseId then f c else c) = rest := by
        have hskip : ∀ c ∈ rest, (if c.caseId = caseId then f c else c) = c := by
          intro c hc
          exact if_neg fun heq => hfresh (mem_map.mpr ⟨c, hc, heq.trans h.symm⟩)
        exact (map_congr_left hskip).trans (map_id' rest)
      simp [updateCase, h, hothers]
    · simp [updateCase, h, ih hrest]

theorem eq_of_caseId (hids : (cases.map caseId).Nodup)
    {c c' : CaseRow} (hc : c ∈ cases) (hc' : c' ∈ cases) (h : c.caseId = c'.caseId) : c = c' :=
  inj_on_of_nodup_map hids hc hc' h

variable {caseId : String}

theorem findCase_mem
    (h : findCase caseId cases = some case) : case ∈ cases ∧ case.caseId = caseId := by
  refine ⟨mem_of_find?_eq_some h, ?_⟩
  simpa using find?_some h

/-- Completing an open case adds one to the completed cases. -/
theorem countP_updateCase (hfind : findCase caseId cases = some case)
    (hopen : case.status ≠ .completed) (hf : ∀ c, (f c).status = .completed) :
    (updateCase caseId f cases).countP (fun c => c.status = .completed) =
      cases.countP (fun c => c.status = .completed) + 1 := by
  induction cases with
  | nil => simp [findCase] at hfind
  | cons head rest ih =>
    by_cases h : head.caseId = caseId
    · have hhead : head = case := by simpa [findCase, h] using hfind
      simp [updateCase, h, hf, hhead ▸ hopen]
    · have hrest : findCase caseId rest = some case := by simpa [findCase, h] using hfind
      simp only [updateCase, h, if_false, countP_cons, ih hrest]
      omega

/-! ### Job rows -/

variable {dataset : RagEvalDataset} {active : Option String}

namespace JobRow

/-- The counters of a job agree with its case rows. -/
structure Ledger (job : JobRow) : Prop where
  total : job.totalCases = job.cases.length
  ids : (job.cases.map CaseRow.caseId).Nodup
  completed : job.completedCases = job.cases.countP fun c => c.status = .completed
  observed : ∀ c ∈ job.cases, c.observation.isSome ↔ c.status = .completed

/-- The running cases of the job are those with the id in `active`: at most one. -/
def Tracks (job : JobRow) (active : Option String) : Prop :=
  ∀ c ∈ job.cases, c.status = .running ↔ active = some c.caseId

/-- No case waits and none is running. -/
def Settled (job : JobRow) : Prop :=
  ∀ c ∈ job.cases, c.status ≠ .queued ∧ c.status ≠ .running

structure Sound (job : JobRow) : Prop extends Ledger job where
  serial : ∃ active, job.Tracks active
  waiting : job.status = .queued → job.Tracks none
  ended : job.status.Terminal →
    job.ownerWorkerId = none ∧ job.leaseExpiresAt = none ∧ job.Settled
  succeeded : job.status = .succeeded →
    (∀ c ∈ job.cases, c.status = .completed) ∧ ∃ report ∈ job.report, job.CoveredBy report

variable {job next : JobRow}

theorem Ledger.map (h : job.Ledger) (hf : ∀ c ∈ job.cases, Steady f c)
    (htotal : next.totalCases = job.totalCases)
    (hcompleted : next.completedCases = job.completedCases)
    (hcases : next.cases = job.cases.map f) : next.Ledger where
  total := by rw [htotal, hcases, length_map, h.total]
  ids := by
    have hids : (job.cases.map f).map caseId = job.cases.map caseId := by
      rw [map_map]
      exact map_congr_left fun c hc => (hf c hc).1
    rw [hcases, hids]
    exact h.ids
  completed := by
    rw [hcompleted, hcases, countP_map, h.completed]
    refine countP_congr fun c hc => ?_
    simp [(hf c hc).2.2]
  observed := by
    intro c' hc'
    rw [hcases] at hc'
    obtain ⟨c, hc, rfl⟩ := mem_map.mp hc'
    rw [(hf c hc).2.1, (hf c hc).2.2]
    exact h.observed c hc

theorem Settled.tracks (h : job.Settled) : job.Tracks none := by
  intro c hc
  simp [(h c hc).2]

/-- A job that ended without success owes nothing but its ledger. -/
theorem Sound.of_closed (hledger : next.Ledger)
    (hstatus : next.status = .cancelled ∨ next.status = .failed)
    (howner : next.ownerWorkerId = none) (hlease : next.leaseExpiresAt = none)
    (hsettled : next.Settled) : next.Sound where
  toLedger := hledger
  serial := ⟨none, hsettled.tracks⟩
  waiting := fun h => by simp [h] at hstatus
  ended := fun _ => ⟨howner, hlease, hsettled⟩
  succeeded := fun h => by simp [h] at hstatus

theorem Sound.cancelLocked (h : job.Sound) (now : Time) : (job.cancelLocked now).Sound := by
  have hledger : (job.cancelLocked now).Ledger :=
    h.map (fun c _ => steady_closeIf none now c (by decide) (by decide)) rfl rfl rfl
  refine .of_closed hledger (.inl rfl) rfl rfl ?_
  intro c hc
  obtain ⟨c, -, rfl⟩ := mem_map.mp hc
  rw [closeIf_status]
  split <;> simp_all

theorem Sound.orphan (h : job.Sound) (report : Option RagEvalReport) (now : Time) :
    (job.orphan report now).Sound := by
  have hledger : (job.orphan report now).Ledger :=
    h.map (fun c _ => (steady_scoreIf report now c).comp
      (steady_closeIf _ now _ (by decide) (by decide))) rfl rfl (map_map ..)
  refine .of_closed hledger (.inr rfl) rfl rfl ?_
  intro c hc
  obtain ⟨c, -, rfl⟩ := mem_map.mp hc
  rw [closeIf_status]
  split <;> simp_all

theorem Sound.requeue (h : job.Sound) (now : Time) : (job.requeue now).Sound := by
  have hledger : (job.requeue now).Ledger :=
    h.map (fun c _ => steady_requeue now c) rfl rfl rfl
  have hidle : (job.requeue now).Tracks none := by
    intro c hc
    obtain ⟨c, -, rfl⟩ := mem_map.mp hc
    rw [requeue_status]
    split <;> simp_all
  exact ⟨hledger, ⟨none, hidle⟩, fun _ => hidle, fun ht => by
    simp [JobRow.requeue, RagEvaluationJobStatus.Terminal] at ht, fun hs => by
    simp [JobRow.requeue] at hs⟩

theorem Sound.recover (h : job.Sound) (report : Option RagEvalReport) (now : Time) :
    (job.recover report now).Sound := by
  unfold JobRow.recover
  split
  · exact h.cancelLocked now
  · split
    · exact h.orphan report now
    · exact h.requeue now

/-- A job in the hands of a worker owes its ledger and its one running case. -/
theorem Sound.of_owned (hledger : next.Ledger)
    (hserial : next.Tracks active) (hstatus : next.status.Owned) : next.Sound where
  toLedger := hledger
  serial := ⟨active, hserial⟩
  waiting := fun hq => by simp [RagEvaluationJobStatus.Owned, hq] at hstatus
  ended := fun ht => by
    rcases hstatus with hs | hs <;> simp [RagEvaluationJobStatus.Terminal, hs] at ht
  succeeded := fun hs => by simp [RagEvaluationJobStatus.Owned, hs] at hstatus

theorem Ledger.congr (h : job.Ledger) (htotal : next.totalCases = job.totalCases)
    (hcompleted : next.completedCases = job.completedCases) (hcases : next.cases = job.cases) :
    next.Ledger := by
  have hmap : next.cases = job.cases.map id := by rw [hcases, map_id]
  exact h.map (fun c _ => ⟨rfl, rfl, Iff.rfl⟩) htotal hcompleted hmap

theorem Tracks.congr (h : job.Tracks active)
    (hcases : next.cases = job.cases) : next.Tracks active :=
  fun c hc => h c (hcases ▸ hc)

theorem newCases_queued {now : Time} {c : CaseRow}
    (h : c ∈ newCases dataset now) : c.status = .queued ∧ c.observation = none := by
  obtain ⟨i, hi, rfl⟩ := mem_mapIdx.mp h
  exact ⟨rfl, rfl⟩

/-- A job over the new cases of a dataset. -/
theorem Sound.of_new {now : Time}
    (hcases : next.cases = newCases dataset now) (htotal : next.totalCases = dataset.cases.length)
    (hcompleted : next.completedCases = 0) (hstatus : next.status = .queued) : next.Sound := by
  have hqueued : ∀ c ∈ next.cases, c.status = .queued ∧ c.observation = none := by
    intro c hc
    exact newCases_queued (hcases ▸ hc)
  have hidle : next.Tracks none := by
    intro c hc
    simp [(hqueued c hc).1]
  refine ⟨⟨?_, ?_, ?_, ?_⟩, ⟨none, hidle⟩, fun _ => hidle, ?_, ?_⟩
  · rw [htotal, hcases, newCases, length_mapIdx]
  · have hids : next.cases.map caseId = dataset.cases.map RagEvalCase.id := by
      rw [hcases, newCases]
      apply ext_getElem <;> simp
    rw [hids]
    exact dataset.unique
  · rw [hcompleted, eq_comm, countP_eq_zero]
    intro c hc
    simp [(hqueued c hc).1]
  · intro c hc
    simp [hqueued c hc]
  · intro ht
    simp [RagEvaluationJobStatus.Terminal, hstatus] at ht
  · intro hs
    simp [hstatus] at hs

/-! ### The writes of an owner -/

theorem nextCase_mem (h : job.nextCase = some case) : case ∈ job.cases ∧ case.status = .queued := by
  simpa using mem_filter.mp (firstBy_mem h)

theorem startCase_cases (h : job.Ledger) (caseId : String) (now : Time) :
    (job.startCase caseId now).cases =
      job.cases.map fun c => if c.caseId = caseId then c.start now else c :=
  updateCase_eq_map h.ids caseId _

/-- The case that is claimed while none is running is the one that runs. -/
theorem tracks_startCase (h : job.Ledger) (hidle : job.Tracks none) (caseId : String)
    (now : Time) : (job.startCase caseId now).Tracks (some caseId) := by
  intro c' hc'
  rw [startCase_cases h] at hc'
  obtain ⟨c, hc, rfl⟩ := mem_map.mp hc'
  by_cases hid : c.caseId = caseId
  · simp [hid, start]
  · have hstill : c.status ≠ .running := by simpa using hidle c hc
    simp [hid, hstill, Ne.symm hid]

theorem Sound.startCase (h : job.Sound) (howned : job.status.Owned) (hidle : job.Tracks none)
    (hnext : job.nextCase = some case) (now : Time) : (job.startCase case.caseId now).Sound := by
  obtain ⟨hmem, hqueued⟩ := nextCase_mem hnext
  have hsteady : ∀ c ∈ job.cases,
      Steady (fun c => if c.caseId = case.caseId then c.start now else c) c := by
    intro c hc
    by_cases hid : c.caseId = case.caseId
    · obtain rfl := eq_of_caseId h.ids hc hmem hid
      simpa [Steady] using steady_start now c hqueued
    · simp [Steady, hid]
  have hledger : (job.startCase case.caseId now).Ledger :=
    h.map hsteady rfl rfl (startCase_cases h.toLedger case.caseId now)
  exact .of_owned hledger (tracks_startCase h.toLedger hidle case.caseId now) howned

theorem completeCase_cases (h : job.Ledger) (caseId : String) (execution : CaseRow.Execution)
    (now : Time) :
    (job.completeCase caseId execution now).cases =
      job.cases.map fun c => if c.caseId = caseId then c.complete execution now else c :=
  updateCase_eq_map h.ids caseId _

theorem tracks_completeCase (h : job.Ledger)
    (hactive : job.Tracks (some caseId)) (execution : CaseRow.Execution) (now : Time) :
    (job.completeCase caseId execution now).Tracks none := by
  intro c' hc'
  rw [completeCase_cases h] at hc'
  obtain ⟨c, hc, rfl⟩ := mem_map.mp hc'
  by_cases hid : c.caseId = caseId
  · simp [hid, complete]
  · have hstill : c.status ≠ .running := fun hr => hid (Option.some.inj ((hactive c hc).mp hr)).symm
    simp [hid, hstill]

theorem Ledger.completeCase (h : job.Ledger) (hfind : findCase caseId job.cases = some case)
    (hopen : case.status ≠ .completed) (execution : CaseRow.Execution) (now : Time) :
    (job.completeCase caseId execution now).Ledger where
  total := by
    rw [completeCase_cases h, length_map]
    exact h.total
  ids := by
    have hids : (job.completeCase caseId execution now).cases.map CaseRow.caseId =
        job.cases.map CaseRow.caseId := by
      rw [completeCase_cases h, map_map]
      refine map_congr_left fun c _ => ?_
      by_cases hid : c.caseId = caseId <;> simp [hid, complete]
    rw [hids]
    exact h.ids
  completed := by
    refine (congrArg (· + 1) h.completed).trans ?_
    exact (countP_updateCase hfind hopen fun _ => rfl).symm
  observed := by
    intro c' hc'
    rw [completeCase_cases h] at hc'
    obtain ⟨c, hc, rfl⟩ := mem_map.mp hc'
    by_cases hid : c.caseId = caseId
    · simp [hid, complete]
    · simpa [hid] using h.observed c hc

theorem fail_cases (h : job.Ledger) (failure : Failure) (now : Time) :
    (job.fail failure now).cases = job.cases.map (closeIf [.queued] .cancelled none now ∘
        (fun c => if failure.caseId = some c.caseId then
          c.fail failure.errorCode failure.errorDetailRedacted now else c) ∘
        scoreIf failure.report now) := by
  have hids : ((job.cases.map (scoreIf failure.report now)).map caseId).Nodup := by
    have hsame : (job.cases.map (scoreIf failure.report now)).map caseId =
        job.cases.map caseId := by
      rw [map_map]
      exact map_congr_left fun c _ => scoreIf_caseId failure.report now c
    rw [hsame]
    exact h.ids
  cases hcase : failure.caseId with
  | none => simp [JobRow.fail, hcase, Function.comp_def]
  | some caseId =>
    simp only [JobRow.fail, hcase, updateCase_eq_map hids, map_map]
    refine map_congr_left fun c _ => ?_
    simp [Function.comp_def, eq_comm]

/-- A worker that fails the job names its running case, so no case is left open. -/
theorem Sound.fail (h : job.Sound) {failure : Failure} (hactive : job.Tracks failure.caseId)
    (now : Time) : (job.fail failure now).Sound := by
  have hledger : (job.fail failure now).Ledger := by
    refine h.map ?_ rfl rfl (fail_cases h.toLedger failure now)
    intro c hc
    refine ((steady_scoreIf failure.report now c).comp ?_).comp
      (steady_closeIf none now _ (by decide) (by decide))
    by_cases hid : failure.caseId = some c.caseId
    · have hrunning : (scoreIf failure.report now c).status = .running := by
        rw [scoreIf_status]
        exact (hactive c hc).mpr hid
      simpa [Steady, hid] using steady_fail failure.errorCode
        failure.errorDetailRedacted now _ hrunning
    · simp [Steady, hid]
  refine .of_closed hledger (.inr rfl) rfl rfl ?_
  intro c' hc'
  rw [fail_cases h.toLedger] at hc'
  obtain ⟨c, hc, rfl⟩ := mem_map.mp hc'
  have hrunning := hactive c hc
  simp only [Function.comp_apply, closeIf_status, scoreIf_caseId]
  by_cases hid : failure.caseId = some c.caseId
  · simp [hid, CaseRow.fail]
  · have hstill : c.status ≠ .running := fun hr => hid (hrunning.mp hr)
    by_cases hqueued : c.status = .queued <;> simp [hid, hstill, hqueued]

/-- A job whose every case is counted has every case completed. -/
theorem Ledger.all_completed (h : job.Ledger) (hall : job.completedCases = job.totalCases) :
    ∀ c ∈ job.cases, c.status = .completed := by
  have hcount : job.cases.countP (fun c => c.status = .completed) = job.cases.length := by
    rw [← h.completed, hall, h.total]
  simpa using countP_eq_length.mp hcount

theorem Sound.succeed (h : job.Sound) (hall : job.completedCases = job.totalCases)
    {report : RagEvalReport} (hcovered : job.CoveredBy report) (now : Time) :
    (job.succeed report now).Sound := by
  have hledger : (job.succeed report now).Ledger :=
    h.map (fun c _ => steady_score report now c) rfl rfl rfl
  have hcompleted : ∀ c ∈ (job.succeed report now).cases, c.status = .completed :=
    hledger.all_completed hall
  have hsettled : (job.succeed report now).Settled := by
    intro c hc
    simp [hcompleted c hc]
  have hsame : (job.succeed report now).cases.map caseId = job.cases.map caseId := by
    simp [JobRow.succeed, Function.comp_def]
  refine ⟨hledger, ⟨none, hsettled.tracks⟩, (nomatch ·), fun _ => ⟨rfl, rfl, hsettled⟩,
    fun _ => ⟨hcompleted, report, rfl, ?_⟩⟩
  rw [CoveredBy, hsame]
  exact hcovered

end JobRow

end SuperMew.Evaluation
