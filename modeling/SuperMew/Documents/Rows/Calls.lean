import SuperMew.Documents.Calls
import SuperMew.Documents.Rows.Cleanup
import SuperMew.Documents.Rows.Jobs

/-! Every call of the catalog keeps a property of rows that allows what all operations
write. -/

namespace SuperMew.Documents

open Relational

/-- The property allows what the operations write at any time. -/
structure Rule.Steady (P : Rule) : Prop where
  closed : ∀ t, P.Closed t
  tended : P.Tended

/-- What a property has to know of the call: the documents that it may create, the job that
`update_job` leaves behind, and what `record_manifest` and `publish` write. -/
structure Call.Respects (P : Rule) (call : Call) (s : Catalog) : Prop where
  base : ∀ row : Document, s.knowledgeBases.get row.knowledgeBaseId ≠ none → P.document row
  update : ∀ r job step, call.op = .updateJob r → s.jobs.get r.jobId = some job →
    P.job (job.updated r (r.status.getD job.status) step call.env.databaseNow)
  stage : ∀ r g row, call.op = .recordManifest r → s.Joined g → g.jobId = r.jobId →
    row.status = .staged → P.version g.versionId row
  manifest : ∀ r g rows, call.op = .recordManifest r → s.Joined g → g.jobId = r.jobId →
    (∀ m ∈ rows, m.documentVersionId = g.versionId) → P.manifest (s.replaceManifest g.versionId rows).manifests
  ready : ∀ r g row, call.op = .publish r → s.Joined g → g.jobId = r.jobId →
    g.version.status = .staged → row.status = .ready → P.version g.versionId row

variable [Platform] {P : Rule} {s s' : Catalog} {call : Call}

theorem ensureKnowledgeBase_rows (h : P.Holds s) {env : Env} {tenantId name newId : String}
    {ownerId : ℤ} {result : String × KnowledgeBase}
    (hs : ensureKnowledgeBase env tenantId ownerId name newId s = .ok (result, s')) :
    P.Holds s' := by
  simp only [ensureKnowledgeBase, ok_rules] at hs
  obtain ⟨_, _, _, _, hs⟩ := hs
  split at hs
  · simp only [ok_rules] at hs
    obtain ⟨_, _, _, rfl⟩ := hs
    exact h
  · simp only [ok_rules, Table.insertNew_eq_ok] at hs
    obtain ⟨_, ⟨hnew, rfl⟩, _, rfl⟩ := hs
    refine { h with base := fun id hid => ?_ }
    have hne : id ≠ newId := fun heq => h.base id hid (heq ▸ hnew)
    rw [Table.get_put, Function.update_of_ne hne]
    exact h.base id hid

theorem commit_rows (hP : P.Steady) (hcall : call.Respects P s) (h : P.Holds s)
    (hs : call.commit s = .ok s') : P.Holds s' := by
  have hc := hP.closed
  have ht := hP.tended
  obtain ⟨env, op⟩ := call
  cases op with
  | assertIndexLease jobId execution now =>
    obtain ⟨_, _, rfl⟩ := map_eq_ok.mp hs
    exact h
  | ensureKnowledgeBase => exact of_map_snd hs (ensureKnowledgeBase_rows h)
  | reserveUpload => exact of_map_snd hs (reserveUpload_rows (hc _) h hcall.base)
  | claimIndexJob => exact of_map_snd hs (claimIndexJob_rows (hc _) h)
  | heartbeatIndexJob => exact of_map_snd hs (heartbeatIndexJob_rows (hc 0) h)
  | updateJob r =>
    exact of_map_snd hs (updateJob_rows (hc _) h fun job step hj => hcall.update r job step rfl hj)
  | recordManifest r =>
    exact of_map_snd hs (recordManifest_rows (hc 0) h (fun g row => hcall.stage r g row rfl)
      fun g rows => hcall.manifest r g rows rfl)
  | publish r =>
    exact of_map_snd hs (publish_rows (hc _) h fun g row => hcall.ready r g row rfl)
  | scheduleIndexRetry => exact of_map_snd hs (scheduleIndexRetry_rows (hc _) h)
  | fail => exact of_map_snd hs (fail_rows (hc _) h)
  | deadLetterIndexJob => exact of_map_snd hs (deadLetterIndexJob_rows (hc _) h)
  | retire => exact of_map_snd hs (retire_rows (hc _) h)
  | recordRetirementError => exact of_map_snd hs (recordRetirementError_rows h)
  | claimCleanupJob => exact of_map_snd hs (claimCleanupJob_rows ht h)
  | heartbeatCleanupJob => exact of_map_snd hs (heartbeatCleanupJob_rows ht h)
  | updateCleanupJob => exact of_map_snd hs (updateCleanupJob_rows ht h)
  | scheduleCleanupRetry => exact of_map_snd hs (scheduleCleanupRetry_rows ht h)
  | deadLetterCleanupJob => exact of_map_snd hs (deadLetterCleanupJob_rows ht h)
  | completeCleanupJob => exact of_map_snd hs (completeCleanupJob_rows ht h)
  | requeueCleanupJob => exact of_map_snd hs (requeueCleanupJob_rows ht h)
  | recordCleanup => exact of_map_snd hs (recordCleanup_rows ht h)

theorem exec_rows (hP : P.Steady) (hcall : call.Respects P s) (h : P.Holds s) :
    P.Holds (exec s call) := by
  unfold exec
  split
  · rename_i hs
    exact commit_rows hP hcall h hs
  · exact h

end SuperMew.Documents
