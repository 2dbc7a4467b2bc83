import SuperMew.Documents.Invariant
import SuperMew.Documents.Rows.Calls

/-! Work that is not finished becomes ready again: every open job is accepted by the
query of its claim from some time on. -/

namespace SuperMew.Documents

open Relational Catalog IndexJob

/-! ## Rows that wake up -/

/-- A job in RETRY_WAIT knows when to be tried again. -/
def IndexJob.Wakes (job : IndexJob) : Prop := job.status = .retryWait → job.nextRetryAt ≠ none

theorem IndexJob.closed_wakes : IndexJob.Closed IndexJob.Wakes where
  busy hs hwait := (hs hwait).elim
  delayed hdue _ := hdue
  kept hold hstatus hdue hwait := hdue ▸ hold (hstatus ▸ hwait)

/-- A cleanup that waits has no owner, and in RETRY_WAIT it knows when to be tried again. -/
structure DocumentCleanupJob.Wakes (row : DocumentCleanupJob) : Prop where
  free : row.status = .pending ∨ row.status = .retryWait → row.ownerWorkerId = none
  delayed : row.status = .retryWait → row.nextRetryAt ≠ none

/-- Index jobs keep `J`, cleanup jobs wake up, and no document loses the knowledge base that
it had in `s`. -/
def wakeRule (J : IndexJob → Prop) (s : Catalog) : Rule where
  base id := s.knowledgeBases.get id ≠ none
  document row := s.knowledgeBases.get row.knowledgeBaseId ≠ none
  version _ _ := True
  job := J
  cleanup := DocumentCleanupJob.Wakes
  manifest _ := True

variable {J : IndexJob → Prop}

theorem wakeRule_steady (hJ : IndexJob.Closed J) (s : Catalog) : (wakeRule J s).Steady where
  closed _ :=
    { document := fun hold hsame => by
        simp only [wakeRule] at hold ⊢
        rwa [hsame]
      building := fun _ _ => trivial
      due := fun _ _ => trivial
      job := hJ
      fresh := fun h => ⟨fun _ => h.owner, fun _ => by simp [h.due]⟩
      moved := fun h => ⟨h.free, fun _ => by simp⟩ }
  tended :=
    { version := fun _ _ _ => trivial
      taken := fun h => ⟨fun hs => (hs.elim h.1 h.2).elim, fun hs => (h.2 hs).elim⟩
      waiting := fun howner hdue => ⟨fun _ => howner, fun _ => hdue⟩
      kept := fun h hstatus howner hdue =>
        ⟨fun hs => howner ▸ h.free (hstatus ▸ hs), fun hs => hdue ▸ h.delayed (hstatus ▸ hs)⟩ }

/-- Every document has its knowledge base, every cleanup job wakes up, and every index job
has `J`. -/
def Catalog.Stands (J : IndexJob → Prop) (s : Catalog) : Prop := (wakeRule J s).Holds s

variable {s : Catalog}

theorem stands_of_holds {s' : Catalog} (h : (wakeRule J s).Holds s') : s'.Stands J :=
  { h with
    base := fun _ hid => hid
    document := fun d row hd => h.base _ (h.document d row hd) }

theorem stands_empty (J : IndexJob → Prop) : empty.Stands J := by
  constructor <;> simp [empty, wakeRule]

/-! ## Runs -/

variable {job : IndexJob}

section Runs

variable {s' : Catalog}

/-- The call puts a job into RETRY_WAIT that has no time for its next try. -/
def Call.Strands (call : Call) (s : Catalog) : Prop :=
  ∃ r job, call.op = .updateJob r ∧ r.status = some .retryWait ∧
    s.jobs.get r.jobId = some job ∧ job.nextRetryAt = none

/-- A job that `update_job` does not strand wakes up afterwards. -/
theorem updated_wakes {env : Env} {r : UpdateRequest} {step : Option String}
    (hstrand : ¬ Call.Strands ⟨env, .updateJob r⟩ s) (hj : s.jobs.get r.jobId = some job)
    (h : job.Wakes) : (job.updated r (r.status.getD job.status) step env.databaseNow).Wakes := by
  intro hwait
  change job.nextRetryAt ≠ none
  cases hr : r.status with
  | none =>
    refine h ?_
    simpa [updated, hr] using hwait
  | some next =>
    intro hnone
    have hnext : next = .retryWait := by simpa [updated, hr] using hwait
    exact hstrand ⟨r, job, rfl, hnext ▸ hr, hj, hnone⟩

variable [Platform]

theorem exec_stands (hJ : IndexJob.Closed J) (h : s.Stands J) {call : Call}
    (hupdate : ∀ r job step, call.op = .updateJob r → s.jobs.get r.jobId = some job →
      J (job.updated r (r.status.getD job.status) step call.env.databaseNow)) :
    (exec s call).Stands J :=
  stands_of_holds (exec_rows (wakeRule_steady hJ s)
    ⟨fun _ hbase => hbase, hupdate, fun _ _ _ _ _ _ _ => trivial, fun _ _ _ _ _ _ _ => trivial,
      fun _ _ _ _ _ _ _ _ => trivial⟩ h)

/-- Whatever the calls are, no document loses its knowledge base and no cleanup job is stuck. -/
theorem after_stands (calls : List Call) : (after calls).Stands fun _ => True :=
  Machine.run_preserves (I := Catalog.Stands fun _ => True)
    (fun _ _ h => exec_stands ⟨fun _ => trivial, fun _ => trivial, fun _ _ _ => trivial⟩ h
      fun _ _ _ _ _ => trivial) (stands_empty _) calls

theorem after_wakes {calls : List Call}
    (hcalls : Machine.Along exec (fun s call => ¬ call.Strands s) empty calls) :
    (after calls).Stands IndexJob.Wakes := by
  refine Machine.run_preserves_along (I := Catalog.Stands IndexJob.Wakes) ?_ (stands_empty _) hcalls
  rintro s ⟨env, op⟩ h hstrand
  refine exec_stands closed_wakes h ?_
  rintro r job step rfl hj
  exact updated_wakes hstrand hj (h.job _ job hj)

end Runs

/-! ## Readiness -/

variable {row : DocumentVersion}

section Ready

/-- The query of `claim_index_job` accepts job `j` at `clock`, for a worker that builds the
fingerprint of its version. -/
def Catalog.IndexReady (s : Catalog) (j : Id) (clock : Time) : Prop :=
  ∃ g ∈ s.jobGraphs, g.jobId = j ∧ g.capable (some g.version.buildFingerprint) = true ∧
    g.job.ready clock = true

/-- The query of `claim_cleanup_job` accepts job `c` at `clock`. -/
def Catalog.CleanupReady (s : Catalog) (c : Id) (clock : Time) : Prop :=
  ∃ g ∈ s.cleanupGraphs, g.jobId = c ∧ g.due clock = true

variable {clock : Time}

theorem leaseFree_of_le {owner : Option String} {lease : Option Time}
    (h : lease.getD 0 ≤ clock) : leaseFree owner lease clock = true := by
  cases lease with
  | none => simp [leaseFree]
  | some e =>
    have he : e ≤ clock := h
    simp [leaseFree, he]

theorem IndexJob.ready_of_le (hopen : job.status.terminal = false)
    (h : job.Wakes) (hlease : job.leaseExpiresAt.getD 0 ≤ clock)
    (hretry : job.nextRetryAt.getD 0 ≤ clock) : job.ready clock = true := by
  have hfree : leaseFree job.ownerWorkerId job.leaseExpiresAt clock = true := leaseFree_of_le hlease
  cases hstatus : job.status with
  | pending | running => simp [ready, hstatus, hfree]
  | retryWait =>
    obtain ⟨due, hdue⟩ := Option.ne_none_iff_exists'.mp (h hstatus)
    simpa [ready, hstatus, hfree, hdue] using hretry
  | staged =>
    cases hdue : job.nextRetryAt with
    | none => simp [ready, hstatus, hfree, hdue]
    | some due => simpa [ready, hstatus, hfree, hdue] using hretry
  | completed | failed | cancelled | deadLetter => simp [hstatus, IndexJobStatus.terminal] at hopen

theorem DocumentCleanupJob.ready_of_le {row : DocumentCleanupJob} (hdone : row.status ≠ .completed)
    (hdead : row.status ≠ .deadLetter) (h : row.Wakes)
    (hlease : row.leaseExpiresAt.getD 0 ≤ clock) (hretry : row.nextRetryAt.getD 0 ≤ clock) :
    row.ready clock = true := by
  cases hstatus : row.status with
  | pending =>
    have hfree := h.free (.inl hstatus)
    cases hdue : row.nextRetryAt with
    | none => simp [ready, hstatus, hfree, hdue]
    | some due => simpa [ready, hstatus, hfree, hdue] using hretry
  | retryWait =>
    have hfree := h.free (.inr hstatus)
    obtain ⟨due, hdue⟩ := Option.ne_none_iff_exists'.mp (h.delayed hstatus)
    simpa [ready, hstatus, hfree, hdue] using hretry
  | running => simp [ready, hstatus, leaseFree_of_le hlease]
  | completed => exact absurd hstatus hdone
  | deadLetter => exact absurd hstatus hdead

theorem Catalog.Stands.home (h : s.Stands J) (hw : s.ledger.Wf) {v : Id}
    (hv : s.versions.get v = some row) : ∃ doc kb, s.documents.get row.documentId = some doc ∧
      s.knowledgeBases.get doc.knowledgeBaseId = some kb := by
  obtain ⟨doc, hdoc⟩ := home_of_version hw hv
  obtain ⟨kb, hkb⟩ := Option.ne_none_iff_exists'.mp (h.document _ doc hdoc)
  exact ⟨doc, kb, hdoc, hkb⟩

theorem indexReady_eventually (h : s.Stands IndexJob.Wakes) (hw : s.ledger.Wf) {j : Id}
    (hj : s.jobs.get j = some job) (hopen : job.status.terminal = false) :
    ∃ t, ∀ clock, t ≤ clock → s.IndexReady j clock := by
  obtain ⟨row, -, hrow, -⟩ := invariant_jobs hw hj
  obtain ⟨doc, kb, hdoc, hkb⟩ := h.home hw hrow
  have hjoin : s.joinJob j = some ⟨j, job, row, doc, kb⟩ := by
    simp [joinJob, hj, hrow, hdoc, hkb]
  have hmem : ⟨j, job, row, doc, kb⟩ ∈ s.jobGraphs :=
    List.mem_filterMap.mpr ⟨(j, job), Table.mem_rows.mpr hj, hjoin⟩
  refine ⟨max (job.leaseExpiresAt.getD 0) (job.nextRetryAt.getD 0), fun clock hclock => ?_⟩
  obtain ⟨hlease, hretry⟩ := max_le_iff.mp hclock
  exact ⟨_, hmem, rfl, by simp [JobGraph.capable],
    job.ready_of_le hopen (h.job j job hj) hlease hretry⟩

theorem Catalog.Stands.cleanupGraph (h : s.Stands J) (hw : s.ledger.Wf)
    {c : Id} {job : DocumentCleanupJob} (hc : s.cleanups.get c = some job)
    (hv : s.versions.get job.documentVersionId = some row) :
    ∃ g ∈ s.cleanupGraphs, g.jobId = c ∧ g.job = job ∧ g.version = row := by
  obtain ⟨doc, kb, hdoc, hkb⟩ := h.home hw hv
  have hjoin : s.joinCleanup c = some ⟨c, job, row, doc, kb⟩ := by
    simp [joinCleanup, hc, hv, hdoc, hkb]
  exact ⟨_, List.mem_filterMap.mpr ⟨(c, job), Table.mem_rows.mpr hc, hjoin⟩, rfl, rfl, rfl⟩

theorem cleanupReady_eventually (h : s.Stands J) (hw : s.ledger.Wf) {c : Id}
    {job : DocumentCleanupJob} (hc : s.cleanups.get c = some job)
    (hdone : job.status ≠ .completed) (hdead : job.status ≠ .deadLetter) :
    ∃ t, ∀ clock, t ≤ clock → s.CleanupReady c clock := by
  obtain ⟨ver, hver, hphase⟩ := hw.cleanups.sound c _ (ledger_cleanup hc)
  obtain ⟨row, hrow, rfl⟩ := version_of_ledger hver
  obtain ⟨due, hdue⟩ := Option.ne_none_iff_exists'.mp ((hw.shape _ _ hver).due hphase)
  have hafter : row.cleanupAfter = some due := hdue
  obtain ⟨g, hg, rfl, rfl, rfl⟩ := h.cleanupGraph hw hc hrow
  have huncleaned := (mem_cleanupGraphs hg).uncleaned hw hdone
  refine ⟨max due (max (g.job.leaseExpiresAt.getD 0) (g.job.nextRetryAt.getD 0)),
    fun clock hclock => ⟨g, hg, rfl, ?_⟩⟩
  obtain ⟨hdueClock, hrest⟩ := max_le_iff.mp hclock
  obtain ⟨hlease, hretry⟩ := max_le_iff.mp hrest
  have hready := g.job.ready_of_le hdone hdead (h.cleanup _ _ hc) hlease hretry
  simp [CleanupGraph.due, hready, hafter, hdueClock, huncleaned]

end Ready

/-- In a run that strands no job, every job that is not finished is accepted by the query of
its claim from some time on. -/
theorem open_work_becomes_ready [Platform] (calls : List Call)
    (hcalls : Machine.Along exec (fun s call => ¬ call.Strands s) empty calls) :
    (∀ j job, (after calls).jobs.get j = some job → job.status.terminal = false →
      ∃ t, ∀ clock, t ≤ clock → (after calls).IndexReady j clock) ∧
    ∀ c job, (after calls).cleanups.get c = some job → job.status ≠ .completed →
      job.status ≠ .deadLetter → ∃ t, ∀ clock, t ≤ clock → (after calls).CleanupReady c clock := by
  have h := after_wakes hcalls
  have hw := after_wf calls
  constructor
  · intro j job hj hopen
    exact indexReady_eventually h hw hj hopen
  · intro c job hc hdone hdead
    exact cleanupReady_eventually h hw hc hdone hdead

/-- A job in RETRY_WAIT without a time for its next try is never accepted. -/
theorem not_indexReady_of_stranded {j : Id}
    (h : (s.jobs.get j).map (fun job => (job.status, job.nextRetryAt)) = some (.retryWait, none))
    (clock : Time) : ¬ s.IndexReady j clock := by
  rintro ⟨g, hg, rfl, -, hready⟩
  rw [(mem_jobGraphs hg).job] at h
  obtain ⟨hstatus, hdue⟩ := Prod.mk.inj (Option.some.inj h)
  simp [ready, hstatus, hdue] at hready

namespace Sample

/-- The owner of job `j` asks for another try through `update_job`. -/
def waitForRetry (now : Time) (j : Id) (worker : String) (fence : ℕ) : Call :=
  ⟨env now 0, .updateJob {
    jobId := j
    publicationFence := 1
    status := some .retryWait
    currentStep := none
    progress := none
    stepStatePatch := []
    incrementAttempts := false
    execution := some ⟨worker, fence⟩ }⟩

def building : List Call := [createBase, upload 1 1 'a', claim 2 "w"]

end Sample

open PlainPlatform in
theorem claimed_job_becomes_ready :
    ∃ t, ∀ clock, t ≤ clock → (after Sample.building).IndexReady 1 clock := by
  have hopen : ∃ job, (after Sample.building).jobs.get 1 = some job ∧
      job.status.terminal = false := ⟨_, rfl, by decide +kernel⟩
  obtain ⟨job, hj, hjob⟩ := hopen
  refine (open_work_becomes_ready Sample.building ?_).1 1 job hj hjob
  refine Machine.along_of_mem fun call hcall s => ?_
  rintro ⟨r, job, hop, -⟩
  simp only [Sample.building, List.mem_cons, List.not_mem_nil, or_false] at hcall
  obtain rfl | rfl | rfl := hcall <;> cases hop

open PlainPlatform in
/-- `update_job` moves a running job to RETRY_WAIT but sets no time for the retry. -/
theorem update_job_strands_job :
    let s := after (Sample.building ++ [Sample.waitForRetry 3 1 "w" 1])
    (∃ job, s.jobs.get 1 = some job ∧ job.status.terminal = false) ∧
      ∀ clock, ¬ s.IndexReady 1 clock := by
  refine ⟨⟨_, rfl, by decide +kernel⟩, not_indexReady_of_stranded ?_⟩
  decide +kernel

end SuperMew.Documents
