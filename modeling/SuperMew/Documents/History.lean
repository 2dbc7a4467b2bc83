import SuperMew.Documents.Invariant

/-! What holds over whole runs of the catalog: dead versions stay dead, and the versions
that are published one after the other have increasing numbers. -/

namespace SuperMew.Documents

open Relational Catalog DocumentVersion

variable {s s' : Catalog} {d v : Id}

/-! ## The cleanup ledger -/

/-- FAILED and SUPERSEDED, the statuses in which a version is left to its cleanup. -/
def DocumentVersion.Dead (row : DocumentVersion) : Prop :=
  row.status = .failed ∨ row.status = .superseded

variable {row : DocumentVersion}

theorem DocumentVersion.dead_iff : row.Dead ↔ row.status.phase = .dead :=
  DocumentVersionStatus.phase_dead.symm

def Catalog.Unlinked (s : Catalog) (v : Id) : Prop :=
  ∀ d doc, s.documents.get d = some doc → doc.currentVersionId ≠ some v ∧ doc.pendingVersionId ≠ some v

structure Catalog.CleanupLedger (s : Catalog) : Prop where
  dead : ∀ v row, s.versions.get v = some row → row.Dead →
    (∃! c, ∃ job, s.cleanups.get c = some job ∧ job.documentVersionId = v) ∧
      row.cleanupAfter ≠ none
  others : ∀ c job, s.cleanups.get c = some job →
    ∃ row, s.versions.get job.documentVersionId = some row ∧ row.Dead
  completed : ∀ c job row, s.cleanups.get c = some job →
    s.versions.get job.documentVersionId = some row →
      (job.status = .completed ↔ row.indexCleanedAt ≠ none)
  cleaned : ∀ v row, s.versions.get v = some row → row.indexCleanedAt ≠ none → s.Unlinked v

/-- What `s'`, reached from `s`, cannot take back. -/
structure Catalog.Irrevocable (s s' : Catalog) : Prop where
  dead : ∀ v row, s.versions.get v = some row → row.Dead →
    (∃ row', s'.versions.get v = some row' ∧ row'.status = row.status) ∧ s'.Unlinked v
  cleaned : ∀ v row, s.versions.get v = some row → row.indexCleanedAt ≠ none →
    ∃ row', s'.versions.get v = some row' ∧ row'.indexCleanedAt ≠ none

theorem unlinked_of_dead (hw : s.ledger.Wf)
    (hv : s.versions.get v = some row) (hdead : row.Dead) : s.Unlinked v := by
  rw [dead_iff] at hdead
  intro d doc hd
  constructor
  · intro hc
    obtain ⟨-, hready⟩ := hw.current_version (ledger_document hd) hc (ledger_version hv)
    rw [show row.status = .ready from hready] at hdead
    simp [DocumentVersionStatus.phase] at hdead
  · intro hp
    obtain ⟨-, hcand, -⟩ := hw.pending_version (ledger_document hd) hp (ledger_version hv)
    rw [show row.status.phase = .candidate from hcand] at hdead
    cases hdead

theorem dead_of_cleaned (hw : s.ledger.Wf)
    (hv : s.versions.get v = some row) (hclean : row.indexCleanedAt ≠ none) : row.Dead := by
  rw [dead_iff]
  by_contra halive
  have hopen := (hw.shape v _ (ledger_version hv)).uncleaned halive
  exact hclean (by simpa [state] using hopen)

theorem cleanupLedger_of_wf (hw : s.ledger.Wf) : s.CleanupLedger := by
  constructor
  case dead =>
    intro v row hv hdead
    have hphase := dead_iff.mp hdead
    refine ⟨?_, (hw.shape v _ (ledger_version hv)).due hphase⟩
    obtain ⟨c, job, -, hc, hjv⟩ := cleanupForVersion_some hw.cleanups hv hphase
    refine ⟨c, ⟨job, hc, hjv⟩, ?_⟩
    rintro c' ⟨job', hc', hjv'⟩
    exact hw.cleanups.unique c' c _ _ (ledger_cleanup hc') (ledger_cleanup hc) (hjv'.trans hjv.symm)
  case others =>
    intro c job hc
    obtain ⟨state, hstate, hdead⟩ := hw.cleanups.sound c _ (ledger_cleanup hc)
    obtain ⟨row, hrow, rfl⟩ := version_of_ledger hstate
    exact ⟨row, hrow, dead_iff.mpr hdead⟩
  case completed =>
    intro c job row hc hv
    have hswept := hw.swept c _ _ (ledger_cleanup hc) (ledger_version hv)
    exact hswept.trans Option.isSome_iff_ne_none
  case cleaned =>
    intro v row hv hclean
    exact unlinked_of_dead hw hv (dead_of_cleaned hw hv hclean)

theorem irrevocable_of_later (hw : s'.ledger.Wf) (h : s.ledger.Later s'.ledger) :
    s.Irrevocable s' := by
  constructor
  case dead =>
    intro v row hv hdead
    obtain ⟨state, hstate, hlater⟩ := h.versions v _ (ledger_version hv)
    obtain ⟨row', hv', rfl⟩ := version_of_ledger hstate
    have hstatus : row'.status = row.status := hlater.dead (dead_iff.mp hdead)
    refine ⟨⟨row', hv', hstatus⟩, unlinked_of_dead hw hv' ?_⟩
    rw [DocumentVersion.Dead, hstatus]
    exact hdead
  case cleaned =>
    intro v row hv hclean
    obtain ⟨state, hstate, hlater⟩ := h.versions v _ (ledger_version hv)
    obtain ⟨row', hv', rfl⟩ := version_of_ledger hstate
    have hstill := hlater.cleaned (Option.isSome_iff_ne_none.mpr hclean)
    exact ⟨row', hv', Option.isSome_iff_ne_none.mp hstill⟩

def Catalog.currentVersion (s : Catalog) (d : Id) : Option Id :=
  (s.documents.get d).bind Document.currentVersionId

/-- A version made current, with its row and the row of its document at that moment. -/
structure Publication where
  version : Id
  row : DocumentVersion
  document : Document

/-- The version of document `d` that is current in `s'` and was not in `s`. -/
def madeCurrent (d : Id) (s s' : Catalog) : Option Publication := do
  let document ← s'.documents.get d
  let version ← document.currentVersionId
  let row ← s'.versions.get version
  if s.currentVersion d = some version then none else some ⟨version, row, document⟩

theorem madeCurrent_eq_some {p : Publication} : madeCurrent d s s' = some p ↔
    s'.documents.get d = some p.document ∧ p.document.currentVersionId = some p.version ∧
      s'.versions.get p.version = some p.row ∧ s.currentVersion d ≠ some p.version := by
  obtain ⟨version, row, document⟩ := p
  simp only [madeCurrent, bind, Option.bind_eq_some_iff]
  constructor
  · rintro ⟨document, hd, version, hc, row, hv, h⟩
    split at h
    · cases h
    · rename_i hne
      cases h
      exact ⟨hd, hc, hv, hne⟩
  · rintro ⟨hd, hc, hv, hne⟩
    exact ⟨document, hd, version, hc, row, hv, by simp [hne]⟩

theorem current_ledger : s.ledger.current d = s.currentVersion d := by
  simp only [Ledger.current, ledger, currentVersion]
  cases s.documents.get d <;> rfl

theorem Op.reserve_mem_kinds {op : Op} (h : .reserve ∈ op.kinds) : .promote ∉ op.kinds := by
  cases op <;> simp [Op.kinds] at h ⊢

variable {r : PublishRequest} {env : Env}

/-- Only the job of the current version or of a candidate can be published. -/
theorem publish_unlinked {job : IndexJob} (hj : s.jobs.get r.jobId = some job)
    (hv : s.Unlinked job.documentVersionId) : ∃ e, publish env r s = .error e := by
  cases h : publish env r s with
  | error e => exact ⟨e, rfl⟩
  | ok result =>
    exfalso
    simp only [publish, ok_rules] at h
    obtain ⟨g, hgraph, h⟩ := h
    obtain ⟨hg, hid⟩ := jobGraph_ok hgraph
    obtain rfl : g.job = job := by
      have hsame := hg.job
      rw [hid, hj] at hsame
      exact (Option.some.inj hsame).symm
    have hout := hv g.documentId g.document hg.document
    split at h
    · rename_i hcur
      exact hout.1 hcur.1
    · simp only [ok_rules] at h
      obtain ⟨_, _, _, hcand, _⟩ := h
      exact hout.2 (assertCandidate_ok hcand).1.pending

variable [Platform]

theorem after_append (calls later : List Call) :
    after (calls ++ later) = Machine.run exec (after calls) later :=
  Machine.run_append exec _ _ _

/-- The cleanup ledger is right in every reachable catalog, and no continuation of the
run revives a dead version or uncleans a cleaned one. -/
theorem cleanup_ledger_invariant (calls later : List Call) :
    (after calls).CleanupLedger ∧ (after calls).Irrevocable (after (calls ++ later)) := by
  refine ⟨cleanupLedger_of_wf (after_wf calls), irrevocable_of_later (after_wf _) ?_⟩
  rw [after_append]
  exact run_later (after_wf calls) later

/-! ## Publications -/

/-- The versions of document `d` that a run makes current, in order. -/
def publications (d : Id) : Catalog → List Call → List Publication
  | _, [] => []
  | s, call :: calls =>
    (madeCurrent d s (exec s call)).toList ++ publications d (exec s call) calls

/-- A call that makes a version current settles its number, which is larger than the
numbers settled before and the last one given out. -/
theorem madeCurrent_passed (hw : s.ledger.Wf) {call : Call} {p : Publication}
    (h : madeCurrent d s (exec s call) = some p) :
    p.row.versionNumber = p.document.versionCounter ∧
      (exec s call).ledger.Passed d p.row.versionNumber ∧
      ∀ n, s.ledger.Passed d n → n < p.row.versionNumber := by
  obtain ⟨hd, hc, hv, hne⟩ := madeCurrent_eq_some.mp h
  have hsteps := exec_refines hw call
  have hnow : (exec s call).ledger.current d = some p.version := by
    rw [current_ledger, currentVersion, hd]
    exact hc
  rw [← current_ledger] at hne
  have hkinds : .reserve ∉ call.op.kinds := fun hr =>
    Op.reserve_mem_kinds hr (hsteps.promotion hnow hne).1
  obtain ⟨doc, ver, hdoc, hver, -, hnumber, hpassed, hlater⟩ :=
    hsteps.published hw hkinds hnow hne
  rw [ledger_document hd] at hdoc
  rw [ledger_version hv] at hver
  cases hdoc
  cases hver
  exact ⟨hnumber, hpassed, hlater⟩

/-- The induction over a run: the numbers published from `s` on are the last ones given
out, increase, and exceed every number settled in `s`. -/
theorem publications_spec (hw : s.ledger.Wf) (calls : List Call) :
    (∀ p ∈ publications d s calls, p.row.versionNumber = p.document.versionCounter ∧
      ∀ n, s.ledger.Passed d n → n < p.row.versionNumber) ∧
    (publications d s calls).Pairwise fun p q => p.row.versionNumber < q.row.versionNumber := by
  induction calls generalizing s with
  | nil => simp [publications]
  | cons call calls ih =>
    obtain ⟨hall, hpairs⟩ := ih (exec_wf hw call)
    have hkept {n : ℕ} (hn : s.ledger.Passed d n) : (exec s call).ledger.Passed d n :=
      (exec_refines hw call).passed hn
    rw [publications]
    cases hmade : madeCurrent d s (exec s call) with
    | none =>
      refine ⟨fun p hp => ⟨(hall p hp).1, fun n hn => (hall p hp).2 n (hkept hn)⟩, hpairs⟩
    | some p =>
      obtain ⟨hnumber, hpassed, hlater⟩ := madeCurrent_passed hw hmade
      simp only [Option.toList_some, List.singleton_append, List.mem_cons, List.pairwise_cons]
      refine ⟨?_, fun q hq => (hall q hq).2 _ hpassed, hpairs⟩
      rintro q (rfl | hq)
      · exact ⟨hnumber, hlater⟩
      · exact ⟨(hall q hq).1, fun n hn => (hall q hq).2 n (hkept hn)⟩

/-! ## Late candidates -/

/-- The call takes the version of job `j` away from its document: it was current or
pending before the call and is neither after it. -/
def Call.Supersedes (call : Call) (s : Catalog) (j : Id) : Prop :=
  ∃ job, s.jobs.get j = some job ∧ ¬ s.Unlinked job.documentVersionId ∧
    (exec s call).Unlinked job.documentVersionId

theorem exec_publish_error {e : Fault}
    (h : publish env r s = .error e) : exec s ⟨env, .publish r⟩ = s := by
  simp [exec, Call.commit, h, Except.map]

/-- A version that no document points to is dead, so it is never linked again. -/
theorem run_unlinked (hw : s.ledger.Wf) (hv : s.versions.get v = some row)
    (h : s.Unlinked v) (calls : List Call) : (Machine.run exec s calls).Unlinked v := by
  obtain ⟨doc, hd⟩ := home_of_version hw hv
  obtain ⟨hc, hp⟩ := h _ doc hd
  have hdead : row.Dead := invariant_others hw hv hd hc hp
  have hkept := irrevocable_of_later (run_wf hw calls) (run_later hw calls)
  exact (hkept.dead v row hv hdead).2

/-- A job whose version was taken away cannot be published any more. -/
theorem publish_superseded (hw : s.ledger.Wf) {call : Call} {j : Id} (h : call.Supersedes s j)
    (later : List Call) (hr : r.jobId = j) :
    ∃ e, publish env r (Machine.run exec s (call :: later)) = .error e := by
  obtain ⟨job, hj, -, hout⟩ := h
  have hw' := exec_wf hw call
  obtain ⟨state, hstate, hsame⟩ :=
    ((exec_refines hw call).later hw).jobs j _ (ledger_job hj)
  obtain ⟨job', hj', rfl⟩ := job_of_ledger hstate
  obtain ⟨row, -, hrow, -⟩ := invariant_jobs hw' hj'
  have hversion : job'.documentVersionId = job.documentVersionId := hsame.version
  rw [hversion] at hrow
  obtain ⟨state, hstate, hsame⟩ := (run_later hw' later).jobs j _ (ledger_job hj')
  obtain ⟨last, hlast, rfl⟩ := job_of_ledger hstate
  have hversion' : last.documentVersionId = job.documentVersionId := hsame.version.trans hversion
  refine publish_unlinked (hr ▸ hlast) ?_
  rw [hversion']
  exact run_unlinked hw' hrow hout later

/-- Over every run the versions of a document are published with increasing numbers, each
as the last one reserved; fences and counters never decrease; and once the version of a
job is taken away, by a newer reservation, a retirement or a failure, publishing the job
raises and changes nothing. -/
theorem late_candidates_never_win (calls : List Call) (d : Id) :
    ((publications d empty calls).Pairwise fun p q => p.row.versionNumber < q.row.versionNumber) ∧
    (∀ p ∈ publications d empty calls, p.row.versionNumber = p.document.versionCounter) ∧
    (∀ later doc, (after calls).documents.get d = some doc →
      ∃ doc', (after (calls ++ later)).documents.get d = some doc' ∧
        doc.publicationFence ≤ doc'.publicationFence ∧ doc.versionCounter ≤ doc'.versionCounter) ∧
    (∀ call later j env r, call.Supersedes (after calls) j → r.jobId = j →
      (∃ e, publish env r (after (calls ++ call :: later)) = .error e) ∧
        exec (after (calls ++ call :: later)) ⟨env, .publish r⟩ =
          after (calls ++ call :: later)) := by
  have hw := after_wf calls
  have hspec := publications_spec (s := empty) (d := d) (ledger_empty ▸ Ledger.wf_empty) calls
  refine ⟨hspec.2, fun p hp => (hspec.1 p hp).1, ?_, ?_⟩
  · intro later doc hd
    rw [after_append]
    obtain ⟨state, hstate, hlater⟩ := (run_later hw later).documents d _ (ledger_document hd)
    obtain ⟨doc', hd', rfl⟩ := document_of_ledger hstate
    exact ⟨doc', hd', hlater.fence, hlater.counter⟩
  · intro call later j env r hsup hr
    rw [after_append]
    obtain ⟨e, he⟩ := publish_superseded hw hsup later hr
    exact ⟨⟨e, he⟩, exec_publish_error he⟩

end SuperMew.Documents
