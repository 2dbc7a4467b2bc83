import SuperMew.Documents.Refinement.Shared

/-! Properties of single rows that the operations of the catalog keep. The ledger does
not see retry times, due times and chunk ids, so these are followed on the rows. -/

namespace SuperMew.Documents

open Relational

/-- A property for the rows of each table, and the knowledge bases that must stay. -/
structure Rule where
  base : String → Prop
  document : Document → Prop
  version : Id → DocumentVersion → Prop
  job : IndexJob → Prop
  cleanup : DocumentCleanupJob → Prop
  manifest : List IndexManifest → Prop

/-- A cleanup job as it is created, to be tried from `t` on. -/
structure DocumentCleanupJob.Fresh (row : DocumentCleanupJob) (t : Time) : Prop where
  status : row.status = .pending
  owner : row.ownerWorkerId = none
  due : row.nextRetryAt = some t
  untried : row.attempts < row.maxAttempts

/-- The job rows that the operations write beside `update_job`. -/
structure IndexJob.Closed (J : IndexJob → Prop) : Prop where
  busy : ∀ {row : IndexJob}, row.status ≠ .retryWait → J row
  delayed : ∀ {row : IndexJob}, row.nextRetryAt ≠ none → J row
  kept : ∀ {old new : IndexJob}, J old → new.status = old.status →
    new.nextRetryAt = old.nextRetryAt → J new

namespace Rule

structure Holds (P : Rule) (s : Catalog) : Prop where
  base : ∀ id, P.base id → s.knowledgeBases.get id ≠ none
  document : ∀ d row, s.documents.get d = some row → P.document row
  version : ∀ v row, s.versions.get v = some row → P.version v row
  job : ∀ j row, s.jobs.get j = some row → P.job row
  cleanup : ∀ c row, s.cleanups.get c = some row → P.cleanup row
  manifest : P.manifest s.manifests

/-- The rows that an operation may write when it makes versions due at `t`. -/
structure Closed (P : Rule) (t : Time) : Prop where
  document : ∀ {old new : Document}, P.document old → new.knowledgeBaseId = old.knowledgeBaseId →
    P.document new
  building : ∀ {v : Id} {row : DocumentVersion}, row.status.phase = .candidate →
    row.status ≠ .staged → P.version v row
  due : ∀ {v : Id} {row : DocumentVersion}, row.status.phase = .dead →
    row.cleanupAfter = some t → P.version v row
  job : IndexJob.Closed P.job
  fresh : ∀ {row : DocumentCleanupJob}, row.Fresh t → P.cleanup row
  moved : ∀ {row : DocumentCleanupJob} {now : Time}, P.cleanup row →
    P.cleanup { row with nextRetryAt := some t, updatedAt := now }

end Rule

variable {P : Rule} {s s' : Catalog} {env : Env} {draws : Draws} {t : Time}
  {v : Id} {row : DocumentVersion}

namespace Rule.Holds

variable (h : P.Holds s)

include h

theorem putDocument {d : Id} {row : Document} (hrow : P.document row) :
    P.Holds (s.putDocument d row) :=
  { h with document := Table.forall_put (P := fun _ => P.document) h.document hrow }

theorem putVersion (hrow : P.version v row) : P.Holds (s.putVersion v row) :=
  { h with version := Table.forall_put h.version hrow }

theorem putJob {j : Id} {row : IndexJob} (hrow : P.job row) : P.Holds (s.putJob j row) :=
  { h with job := Table.forall_put (P := fun _ => P.job) h.job hrow }

theorem putCleanup {c : Id} {row : DocumentCleanupJob} (hrow : P.cleanup row) :
    P.Holds (s.putCleanup c row) :=
  { h with cleanup := Table.forall_put (P := fun _ => P.cleanup) h.cleanup hrow }

theorem putRetirement {r : String} {row : DocumentRetirementJob} :
    P.Holds (s.putRetirement r row) :=
  { h with }

theorem replaceManifest {rows : List IndexManifest}
    (hrows : P.manifest (s.replaceManifest v rows).manifests) : P.Holds (s.replaceManifest v rows) :=
  { h with manifest := hrows }

theorem bumpRevision {kb : String} {now : Time} : P.Holds (s.bumpRevision kb now) := by
  unfold Catalog.bumpRevision
  split
  · refine { h with base := fun id hid => ?_ }
    change (Table.put _ _ _).get id ≠ none
    rw [Table.get_put]
    by_cases heq : id = kb
    · simp [heq]
    · rw [Function.update_of_ne heq]
      exact h.base id hid
  · exact h

end Rule.Holds

/-! ## Shared updates -/

variable (hc : P.Closed t)

include hc

variable (h : P.Holds s)

include h

theorem ensureCleanupJob_rows {n : ℕ}
    (hs : ensureCleanupJob env draws s v t n = .ok s') : P.Holds s' := by
  unfold ensureCleanupJob at hs
  split at hs
  · rename_i c job hfind
    split at hs
    · cases hs
      exact h.putCleanup (hc.moved (h.cleanup c job (Table.find_eq_some hfind).1))
    · exact Except.ok.inj hs ▸ h
  · simp only [ok_rules, Table.insertNew_eq_ok] at hs
    obtain ⟨_, ⟨-, rfl⟩, rfl⟩ := hs
    exact h.putCleanup (hc.fresh ⟨rfl, rfl, rfl, by simp⟩)

theorem supersedeVersion_rows {now : Time} {cancelJob : Bool}
    (hs : supersedeVersion env draws s v row now t cancelJob = .ok s') : P.Holds s' := by
  have hput : P.Holds (s.putVersion v { row with
      status := .superseded
      supersededAt := some now
      cleanupAfter := some t
      updatedAt := now }) := h.putVersion (hc.due rfl rfl)
  simp only [supersedeVersion] at hs
  split at hs
  · refine ensureCleanupJob_rows hc ?_ hs
    split
    · exact hput
    · exact hput.putJob (hc.job.busy (by simp [IndexJob.cancelled]))
  · exact ensureCleanupJob_rows hc hput hs

variable {g : JobGraph} {publicationFence : ℕ} {code : String} {detail : Option String}
  (hg : s.Joined g)

include hg

theorem failCandidate_rows {job : IndexJob} (hjob : job.status ≠ .retryWait)
    (hs : failCandidate env g job publicationFence code detail t s = .ok s') : P.Holds s' := by
  simp only [failCandidate, ok_rules] at hs
  obtain ⟨s₁, hs₁, rfl⟩ := hs
  refine (ensureCleanupJob_rows hc ?_ hs₁).bumpRevision
  have hput : P.Holds (s.putJob g.jobId job) := h.putJob (hc.job.busy hjob)
  have hfail : P.Holds ((s.putJob g.jobId job).putVersion g.versionId
      (g.version.failedWith code detail t)) := hput.putVersion (hc.due rfl rfl)
  split
  · exact hfail.putDocument (hc.document (h.document _ _ hg.document) rfl)
  · split
    · exact hfail
    · exact hput

theorem deadLetterLocked_rows
    (hs : deadLetterLocked env g publicationFence code detail t s = .ok s') : P.Holds s' := by
  simp only [deadLetterLocked, ok_rules] at hs
  obtain ⟨-, -, hs⟩ := hs
  split at hs
  · exact pure_eq_ok.mp hs ▸ h
  · simp only [ok_rules] at hs
    obtain ⟨-, -, hs⟩ := hs
    exact failCandidate_rows hc h hg (by simp) hs

theorem failLocked_rows {patch : Dict} {execution : Option IndexJobExecution}
    (hs : failLocked env g publicationFence code detail patch execution t s = .ok s') :
    P.Holds s' := by
  simp only [failLocked, ok_rules] at hs
  obtain ⟨-, -, hs⟩ := hs
  split at hs
  · exact pure_eq_ok.mp hs ▸ h
  · simp only [ok_rules] at hs
    obtain ⟨-, -, -, -, hs⟩ := hs
    exact failCandidate_rows hc h hg (by simp) hs

end SuperMew.Documents
