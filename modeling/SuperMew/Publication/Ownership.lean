import SuperMew.Documents.Fencing
import SuperMew.Documents.Invariant
import SuperMew.Documents.Rows.Calls

/-! What a call on the catalog does to one index job: who may hold it afterwards, and when
its version gets a manifest. -/

namespace SuperMew.Documents

open Relational Catalog

/-! ## Holders -/

namespace Catalog

/-- The row of job `j` names the execution: nobody has claimed, released or ended the job
since the execution claimed it. -/
def Carries (s : Catalog) (j : Id) (k : IndexJobExecution) : Prop :=
  ∃ job, s.jobs.get j = some job ∧ job.ownerWorkerId = some k.workerId ∧
    job.executionFence = k.executionFence

instance (s : Catalog) (j : Id) (k : IndexJobExecution) : Decidable (s.Carries j k) :=
  decidable_of_iff ((s.jobs.get j).any fun job =>
    decide (job.ownerWorkerId = some k.workerId ∧ job.executionFence = k.executionFence))
    (by simp [Carries, Option.any_eq_true])

variable {s : Catalog} {j : Id} {k : IndexJobExecution}

theorem carries_iff : s.Carries j k ↔ s.ledger.Carries j k.ticket := by
  constructor
  · rintro ⟨job, hj, hcarries⟩
    exact ⟨job.state, ledger_job hj, hcarries⟩
  · rintro ⟨state, hj, hcarries⟩
    obtain ⟨job, hjob, rfl⟩ := job_of_ledger hj
    exact ⟨job, hjob, hcarries⟩

theorem Carries.unique {k' : IndexJobExecution} (h : s.Carries j k)
    (h' : s.Carries j k') : k = k' := by
  obtain ⟨job, hj, howner, hfence⟩ := h
  obtain ⟨job', hj', howner', hfence'⟩ := h'
  obtain rfl := Option.mem_unique hj hj'
  cases k
  cases k'
  simp_all

theorem Held.carries {clock : Time} (h : s.Held clock j k) : s.Carries j k := by
  obtain ⟨job, hj, hholds⟩ := h
  exact ⟨job, hj, hholds.carries⟩

theorem Carries.issued (h : s.Carries j k) : s.ledger.Issued j k.ticket := by
  obtain ⟨job, hj, -, hfence⟩ := h
  exact ⟨job.state, ledger_job hj, hfence.ge⟩

/-- A version that has been staged: it has its manifest, and may be published. -/
def Settled (s : Catalog) (v : Id) : Prop :=
  ∃ row, s.versions.get v = some row ∧ (row.status = .staged ∨ row.status = .ready)

def Staged (s : Catalog) (j : Id) : Prop :=
  ∃ job, s.jobs.get j = some job ∧ s.Settled job.documentVersionId

end Catalog

/-! ## The manifest of a version -/

def Catalog.manifestIds (s : Catalog) (v : Id) (kind : StoreKind) : List String :=
  ((s.manifestOf v).filter fun m => m.storeKind == kind).map IndexManifest.chunkId

/-- Version `v` is settled only if it was in `s`, and has the manifest that it had there. -/
def stageRule (s : Catalog) (v : Id) : Rule where
  base _ := False
  document _ := True
  version w row := w = v → row.status = .staged ∨ row.status = .ready → s.Settled v
  job _ := True
  cleanup _ := True
  manifest rows := (rows.filter fun m => m.documentVersionId == v) = s.manifestOf v

theorem stageRule_steady (s : Catalog) (v : Id) : (stageRule s v).Steady where
  closed _ :=
    { document := fun _ _ => trivial
      building := fun hcand hstaged _ hsettled =>
        absurd (hsettled.resolve_left hstaged) (DocumentVersionStatus.ne_of_phase_candidate hcand)
      due := fun hdead _ _ hsettled => by
        obtain ⟨hstaged, hready⟩ := DocumentVersionStatus.ne_of_phase_dead hdead
        exact (hsettled.elim hstaged hready).elim
      job := ⟨fun _ => trivial, fun _ => trivial, fun _ _ _ => trivial⟩
      fresh := fun _ => trivial
      moved := fun _ => trivial }
  tended :=
    { version := fun h hstatus _ hv hsettled => h hv (hstatus ▸ hsettled)
      taken := fun _ => trivial
      waiting := fun _ _ => trivial
      kept := fun _ _ _ _ => trivial }

theorem stageRule_holds (s : Catalog) (v : Id) : (stageRule s v).Holds s where
  base _ := False.elim
  document _ _ _ := trivial
  version _ row hw hv hsettled := ⟨row, hv ▸ hw, hsettled⟩
  job _ _ _ := trivial
  cleanup _ _ _ := trivial
  manifest := rfl

/-- The call does not record a manifest of job `j`. -/
def Call.Leaves (call : Call) (j : Id) : Prop :=
  ∀ r, call.op = .recordManifest r → r.jobId ≠ j

section Calls

variable {s s' : Catalog} {call : Call} {j v : Id} {k : IndexJobExecution} {job : IndexJob}

theorem Catalog.manifestOf_bumpRevision (s : Catalog) (kb : String) (now : Time) :
    (s.bumpRevision kb now).manifestOf v = s.manifestOf v := by
  unfold bumpRevision
  split <;> rfl

variable [Platform]

section

variable (hw : s.ledger.Wf)

include hw

theorem exec_issued (h : s.ledger.Issued j k.ticket) : (exec s call).ledger.Issued j k.ticket :=
  (exec_refines hw call).issued h

theorem exec_carries (hissued : s.ledger.Issued j k.ticket)
    (h : (exec s call).Carries j k) : s.Carries j k := by
  rw [carries_iff] at h ⊢
  exact (exec_refines hw call).carries_before hissued h

/-- A job keeps its version. -/
theorem exec_job (call : Call) (hj : s.jobs.get j = some job) :
    ∃ job', (exec s call).jobs.get j = some job' ∧
      job'.documentVersionId = job.documentVersionId := by
  obtain ⟨state, hstate, hlater⟩ := ((exec_refines hw call).later hw).jobs j _ (ledger_job hj)
  obtain ⟨job', hj', rfl⟩ := job_of_ledger hstate
  exact ⟨job', hj', hlater.version⟩

/-- A call that records no manifest of the job leaves the manifest of its version alone and
does not settle the version. -/
theorem exec_stage (hleaves : call.Leaves j) (hj : (exec s call).jobs.get j = some job) :
    (stageRule s job.documentVersionId).Holds (exec s call) := by
  -- a manifest of the version would be one of its job, and the version has only one
  have hother : ∀ r g, call.op = .recordManifest r → s.Joined g → g.jobId = r.jobId →
      g.versionId ≠ job.documentVersionId := by
    intro r g hop hg hid hv
    obtain ⟨job', hj', hversion⟩ := exec_job hw call hg.job
    have hsame : job'.documentVersionId = job.documentVersionId := hversion.trans hv
    have hunique := (exec_wf hw call).jobs.unique _ _ _ _ (ledger_job hj') (ledger_job hj) hsame
    exact hleaves r hop (hid ▸ hunique)
  refine exec_rows (stageRule_steady s _) ?_ (stageRule_holds s _)
  constructor
  · exact fun _ _ => trivial
  · exact fun _ _ _ _ _ => trivial
  · exact fun r g row hop hg hid _ hv => absurd hv (hother r g hop hg hid)
  · intro r g rows hop hg hid hrows
    have hkept := manifestOf_replace (s := s) (w := job.documentVersionId) hrows
    rw [if_neg (hother r g hop hg hid).symm] at hkept
    exact hkept
  · exact fun r g row _ hg _ hstaged _ hv _ => ⟨g.version, hv ▸ hg.version, .inl hstaged⟩

theorem exec_settled (hleaves : call.Leaves j) (hj : (exec s call).jobs.get j = some job)
    (h : (exec s call).Settled job.documentVersionId) : s.Settled job.documentVersionId := by
  obtain ⟨row, hrow, hstatus⟩ := h
  exact (exec_stage hw hleaves hj).version _ row hrow rfl hstatus

theorem job_before (hj : (exec s call).jobs.get j = some job)
    (h : s.Settled job.documentVersionId) :
    ∃ old, s.jobs.get j = some old ∧ old.documentVersionId = job.documentVersionId := by
  obtain ⟨row, hrow, -⟩ := h
  obtain ⟨i, old, -, hi, hversion⟩ := jobForVersion_some hw.jobs hrow
  obtain ⟨job', hj', hkept⟩ := exec_job hw call hi
  have hunique := (exec_wf hw call).jobs.unique _ _ _ _ (ledger_job hj')
    (ledger_job hj) (hkept.trans hversion)
  exact ⟨old, hunique ▸ hi, hversion⟩

theorem exec_manifestIds (hleaves : call.Leaves j)
    (hj : (exec s call).jobs.get j = some job) (kind : StoreKind) :
    (exec s call).manifestIds job.documentVersionId kind =
      s.manifestIds job.documentVersionId kind := by
  have hmanifest : (exec s call).manifestOf job.documentVersionId =
      s.manifestOf job.documentVersionId := (exec_stage hw hleaves hj).manifest
  rw [manifestIds, manifestIds, hmanifest]

theorem exec_staged (hleaves : call.Leaves j) (h : (exec s call).Staged j) : s.Staged j := by
  obtain ⟨job, hj, hsettled⟩ := h
  have hbefore := exec_settled hw hleaves hj hsettled
  obtain ⟨old, hold, hversion⟩ := job_before hw hj hbefore
  exact ⟨old, hold, hversion ▸ hbefore⟩

end

/-! ## Recording a manifest -/

def ManifestRequest.Lists (r : ManifestRequest) (kind : StoreKind) (ids : List String) : Prop :=
  ∀ rows, normalizeManifest r.entries [] = .ok rows →
    (rows.filter fun row => row.storeKind == kind).map ManifestRow.chunkId = ids

/-- After `record_manifest` the version of the job has the ids that the request lists. -/
theorem recordManifest_ids {r : ManifestRequest} {env : Env} {build : VersionBuild}
    (h : recordManifest env r s = .ok (build, s'))
    (hj : s.jobs.get r.jobId = some job) {kind : StoreKind} {ids : List String}
    (hids : r.Lists kind ids) : s'.manifestIds job.documentVersionId kind = ids := by
  simp only [recordManifest, ok_rules] at h
  obtain ⟨rows, hrows, _, _, _, _, g, hgraph, _, _, _, _, _, _, _, rfl⟩ := h
  obtain ⟨hg, hid⟩ := jobGraph_ok hgraph
  obtain rfl : g.job = job := Option.some.inj (hg.job.symm.trans (hid ▸ hj))
  have hversions : ∀ m ∈ rows.map fun row => row.stored g.versionId env.databaseNow,
      m.documentVersionId = g.versionId := by simp [ManifestRow.stored]
  have hmanifest := manifestOf_replace (s := s) (w := g.versionId) hversions
  rw [if_pos rfl] at hmanifest
  rw [manifestIds, manifestOf_bumpRevision]
  change (((s.replaceManifest g.versionId _).manifestOf g.versionId).filter _).map _ = ids
  rw [hmanifest, List.filter_map, List.map_map, ← hids rows hrows]
  rfl

end Calls

end SuperMew.Documents
