import SuperMew.Documents.Abstraction
import SuperMew.Documents.Publish

/-! The updates that several operations share, as steps of the protocol. -/

namespace SuperMew.Documents

open Relational Catalog

variable {s s' : Catalog} {env : Env} {draws : Draws} {d v : Id} {doc : Document}
  {row : DocumentVersion} {clock : Time}

/-! ## Rows found through a version

These use one part of the invariant each, because a transaction looks rows up after
it has written some of them. -/

/-- Each dead version has its cleanup job, and no other version has one. -/
abbrev Ledger.CleanupsAttached (s : Ledger) : Prop :=
  Attached CleanupState.version s.cleanups fun v =>
    ∃ ver, s.versions v = some ver ∧ ver.status.phase = .dead

/-- Each version has its index job. -/
abbrev Ledger.JobsAttached (s : Ledger) : Prop :=
  Attached JobState.version s.jobs fun v => s.versions v ≠ none

theorem cleanupForVersion_none (hw : s.ledger.CleanupsAttached) (hv : s.versions.get v = some row)
    (hp : row.status.phase ≠ .dead) : s.cleanupForVersion v = none := by
  rw [cleanupForVersion, Table.find_eq_none]
  intro c job hc
  by_contra heq
  have hver : job.documentVersionId = v := by simpa using heq
  obtain ⟨ver, hver', hdead⟩ := hw.sound c job.state (ledger_cleanup hc)
  rw [show job.state.version = v from hver, ledger_version hv] at hver'
  cases hver'
  exact hp hdead

theorem cleanupForVersion_some (hw : s.ledger.CleanupsAttached) (hv : s.versions.get v = some row)
    (hp : row.status.phase = .dead) : ∃ c job, s.cleanupForVersion v = some (c, job) ∧
      s.cleanups.get c = some job ∧ job.documentVersionId = v := by
  obtain ⟨c, state, hc, hkey⟩ := hw.total v ⟨_, ledger_version hv, hp⟩
  obtain ⟨job, hjob, rfl⟩ := Option.map_eq_some_iff.mp hc
  simpa [cleanupForVersion] using Table.find_of_get
    (p := fun _ row => row.documentVersionId == v) hjob (beq_iff_eq.mpr hkey)

theorem jobForVersion_some (hw : s.ledger.JobsAttached) (hv : s.versions.get v = some row) :
    ∃ j job, s.jobForVersion v = some (j, job) ∧ s.jobs.get j = some job ∧
      job.documentVersionId = v := by
  obtain ⟨j, state, hj, hkey⟩ := hw.total v (by simp [ledger_version hv])
  obtain ⟨job, hjob, rfl⟩ := Option.map_eq_some_iff.mp hj
  simpa [jobForVersion] using Table.find_of_get
    (p := fun _ row => row.documentVersionId == v) hjob (beq_iff_eq.mpr hkey)

/-! ## Superseding a version -/

variable {now due : Time} {g : JobGraph} {code : String} {detail : Option String}

theorem ensureCleanupJob_new {n : ℕ} (hn : s.cleanupForVersion v = none)
    (h : ensureCleanupJob env draws s v due n = .ok s') :
    s.cleanups.get (draws.cleanup v) = none ∧
      s'.ledger = s.ledger.setCleanup (draws.cleanup v) ⟨v, .pending⟩ := by
  simp only [ensureCleanupJob, hn, ok_rules, Table.insertNew_eq_ok] at h
  obtain ⟨cleanups, ⟨hfree, rfl⟩, rfl⟩ := h
  exact ⟨hfree, ledger_putCleanup s _ _⟩

theorem ensureCleanupJob_versions {n : ℕ}
    (h : ensureCleanupJob env draws s v due n = .ok s') : s'.versions = s.versions := by
  unfold ensureCleanupJob at h
  split at h
  · split at h <;> exact Except.ok.inj h ▸ rfl
  · simp only [ok_rules] at h
    obtain ⟨_, _, rfl⟩ := h
    rfl

theorem supersedeVersion_other {cancelJob : Bool} {w : Id}
    (h : supersedeVersion env draws s v row now due cancelJob = .ok s') (hne : w ≠ v) :
    s'.versions.get w = s.versions.get w := by
  have hput : ∀ row', (s.putVersion v row').versions.get w = s.versions.get w := by
    intro row'
    rw [putVersion, Table.get_put, Function.update_of_ne hne]
  simp only [supersedeVersion] at h
  split at h
  · rw [ensureCleanupJob_versions h]
    split <;> exact hput _
  · rw [ensureCleanupJob_versions h]
    exact hput _

theorem supersedeVersion_keep (hn : s.cleanupForVersion v = none)
    (h : supersedeVersion env draws s v row now due false = .ok s') :
    s.cleanups.get (draws.cleanup v) = none ∧ s'.ledger = (s.ledger.setVersion v { row.state with
        status := .superseded, due := some due }).setCleanup (draws.cleanup v) ⟨v, .pending⟩ := by
  obtain ⟨hfree, hs'⟩ := ensureCleanupJob_new (by simpa using hn) h
  exact ⟨hfree, by rw [hs', ledger_putVersion]; rfl⟩

/-- The candidate and its job are superseded together. The document row `x` may not
be written yet. -/
theorem supersedeVersion_cancel {x : DocumentState} (hw : (s.ledger.setDocument d x).Wf)
    (hp : x.pending = some v) (hv : s.versions.get v = some row)
    (h : supersedeVersion env draws s v row now due true = .ok s') :
    Step clock (.discard d v) (s.ledger.setDocument d x)
      (s'.ledger.setDocument d { x with pending := none }) := by
  have hd : (s.ledger.setDocument d x).documents d = some x := by simp
  have hv' : (s.ledger.setDocument d x).versions v = some row.state := ledger_version hv
  obtain ⟨-, hcand, -⟩ := hw.pending_version hd hp hv'
  have halive : row.status.phase ≠ .dead := by
    rw [show row.status.phase = .candidate from hcand]
    decide
  have hn : s.cleanupForVersion v = none := cleanupForVersion_none hw.cleanups hv halive
  obtain ⟨j, job, hfind, hj, hjv⟩ := jobForVersion_some hw.jobs hv
  have hjob : (s.ledger.setDocument d x).jobs j = some job.state := ledger_job hj
  have hopen : job.status.terminal = false :=
    (hw.agrees j _ row.state hjob (by rw [show job.state.version = v from hjv, hv'])).building.mp
      hcand
  simp only [supersedeVersion, if_true, jobForVersion_putVersion, hfind, hopen,
    Bool.false_eq_true, if_false] at h
  obtain ⟨hfree, hs'⟩ := ensureCleanupJob_new (by simpa using hn) h
  rw [hs', ledger_putJob, ledger_putVersion]
  have hstep : Step clock (.discard d v) (s.ledger.setDocument d x)
      (((((s.ledger.setDocument d x).setDocument d { x with pending := none }).setVersion v
        { row.state with status := .superseded, due := some due }).setJob j
        (job.state.release .cancelled)).setCleanup (draws.cleanup v) ⟨v, .pending⟩) :=
    .discard_uncleaned hd hp hv' ((hw.shape v _ hv').uncleaned halive) hjob hjv
      (ledger_cleanup_none.mpr hfree) rfl rfl
  rw [Ledger.setDocument_setDocument] at hstep
  exact hstep

/-! ## Ending a job -/

@[simp] theorem Document.state_withoutPending (doc : Document) (now : Time) :
    (doc.withoutPending now).state = { doc.state with pending := none } := rfl

@[simp] theorem DocumentVersion.state_failedWith (row : DocumentVersion) (code : String)
    (detail : Option String) (now : Time) : (row.failedWith code detail now).state =
      { row.state with status := .failed, due := some now, cleaned := false } := rfl

/-- A job that has not ended belongs to the candidate of its document. -/
theorem Catalog.Joined.candidate (hw : s.ledger.Wf) (hg : s.Joined g)
    (hopen : g.job.status.terminal = false) :
    g.document.pendingVersionId = some g.versionId ∧
      g.job.publicationFence = g.document.publicationFence ∧
      Building g.job.status g.version.status := by
  have hj := ledger_job hg.job
  have hv := ledger_version hg.version
  have hd := ledger_document hg.document
  have hagrees := hw.agrees _ _ _ hj hv
  have hcand : g.version.status.phase = .candidate := hagrees.building.mpr hopen
  exact ⟨(hw.filed _ _ _ hv hd).pending hcand, hw.fence _ _ _ _ hj hv hcand hd,
    hopen, hcand, hagrees.staged⟩

theorem Catalog.Joined.not_held (hw : s.ledger.Wf) (hg : s.Joined g)
    (hend : g.job.status.terminal = true) {k : Lease.Ticket String} : ¬ g.job.lease.Holds clock k := by
  rintro ⟨howner, -⟩
  have hagrees := hw.agrees _ _ _ (ledger_job hg.job) (ledger_version hg.version)
  have hnone : g.job.lease.owner = none := (hagrees.released hend).1
  simp [hnone] at howner

theorem Catalog.Joined.discard (hg : s.Joined g)
    (hp : g.document.pendingVersionId = some g.versionId) (status : DocumentVersionStatus)
    (hs : status.phase = .dead) (outcome : IndexJobStatus) (ho : outcome.terminal = true) {c : Id}
    (hfree : s.cleanups.get c = none) (now : Time) :
    Step clock (.discard g.documentId g.versionId) s.ledger
      ((((s.ledger.setDocument g.documentId { g.document.state with pending := none }).setVersion
        g.versionId { g.version.state with status, due := some now, cleaned := false }).setJob
        g.jobId (g.job.state.release outcome)).setCleanup c ⟨g.versionId, .pending⟩) :=
  .discard (ledger_document hg.document) hp (ledger_version hg.version)
    (ledger_job hg.job) rfl (ledger_cleanup_none.mpr hfree) hs ho

variable (hw : s.ledger.Wf)

include hw

variable (hg : s.Joined g)

include hg

/-- The tail of the failing paths discards the candidate. -/
theorem failCandidate_discard {job : IndexJob} (hopen : g.job.status.terminal = false)
    (hend : job.status.terminal = true) (hjob : job.state = g.job.state.release job.status)
    (h : failCandidate env g job g.job.publicationFence code detail now s = .ok s') :
    Step clock (.discard g.documentId g.versionId) s.ledger s'.ledger := by
  obtain ⟨hp, hf, hb⟩ := hg.candidate hw hopen
  have hn : s.cleanupForVersion g.versionId = none := cleanupForVersion_none hw.cleanups hg.version (by
    rw [hb.candidate]
    decide)
  simp only [failCandidate, hp, hf, and_self, if_true, ok_rules] at h
  obtain ⟨s₁, hs₁, rfl⟩ := h
  obtain ⟨hfree, hledger⟩ := ensureCleanupJob_new (by simpa using hn) hs₁
  rw [ledger_bumpRevision, hledger, ledger_putDocument, ledger_putVersion, ledger_putJob, hjob]
  exact hg.discard hp _ rfl _ hend hfree now

variable {publicationFence : ℕ}

theorem deadLetterLocked_steps
    (h : deadLetterLocked env g publicationFence code detail now s = .ok s') :
    Steps clock [.discard] s.ledger s'.ledger := by
  simp only [deadLetterLocked, ok_rules, ne_eq, not_not] at h
  obtain ⟨-, rfl, h⟩ := h
  split at h
  · exact .none (by rw [pure_eq_ok.mp h])
  · rename_i hdead
    simp only [ok_rules] at h
    obtain ⟨-, hother, h⟩ := h
    have hopen : g.job.status.terminal = false := by
      cases hs : g.job.status <;> simp_all [IndexJobStatus.terminal]
    exact .single (failCandidate_discard hw hg hopen rfl rfl h) (by simp)

theorem failLocked_steps {patch : Dict} {execution : Option IndexJobExecution}
    (h : failLocked env g publicationFence code detail patch execution now s = .ok s') :
    Steps clock [.discard] s.ledger s'.ledger := by
  simp only [failLocked, ok_rules, ne_eq, not_not] at h
  obtain ⟨-, rfl, h⟩ := h
  split at h
  · exact .none (by rw [pure_eq_ok.mp h])
  · rename_i hfailed
    simp only [ok_rules] at h
    obtain ⟨_, hexec, -, hother, h⟩ := h
    have hopen : g.job.status.terminal = false := by
      by_contra hterm
      -- only FAILED is left, and a failed job has no owner to present an execution
      have hstatus : g.job.status = .failed := by
        cases hs : g.job.status <;> simp_all [IndexJobStatus.terminal]
      obtain ⟨e, rfl⟩ := Option.ne_none_iff_exists'.mp fun hnone => hfailed ⟨hstatus, hnone⟩
      have hheld := assertIndexExecution_some.mp hexec
      exact hg.not_held hw (by simpa using hterm) hheld
    exact .single (failCandidate_discard hw hg hopen rfl rfl h) (by simp)

end SuperMew.Documents
