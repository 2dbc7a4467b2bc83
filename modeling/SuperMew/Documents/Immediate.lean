import SuperMew.Documents.Grace
import SuperMew.Documents.Readiness

/-! Cleanup of the versions that no publication replaced: they are due in the
transaction that ends them, as far as its two clocks agree. -/

namespace SuperMew.Documents

open Relational Catalog CleanupGraph

/-! ## Due times -/

def Catalog.Dead (s : Catalog) (v : Id) : Prop :=
  ∃ row, s.versions.get v = some row ∧ row.status.phase = .dead

/-- The versions that were not dead in `s` become due at `t`, with new cleanup jobs. -/
def dueRule (s : Catalog) (t : Time) : Rule where
  base _ := False
  document _ := True
  version v row := row.status.phase = .dead → s.Dead v ∨ row.cleanupAfter = some t
  job _ := True
  cleanup row := s.Dead row.documentVersionId ∨ row.Fresh t
  manifest _ := True

theorem dueRule_closed (s : Catalog) (t : Time) : (dueRule s t).Closed t where
  document _ _ := trivial
  building hcand _ hdead := by
    rw [hcand] at hdead
    cases hdead
  due _ hdue _ := .inr hdue
  job := ⟨fun _ => trivial, fun _ => trivial, fun _ _ _ => trivial⟩
  fresh h := .inr h
  moved h := h.imp_right fun hfresh => ⟨hfresh.status, hfresh.owner, rfl, hfresh.untried⟩

theorem dueRule_holds {s : Catalog} (hw : s.ledger.Wf) (t : Time) : (dueRule s t).Holds s where
  base _ := False.elim
  document _ _ _ := trivial
  version v row hv hdead := .inl ⟨row, hv, hdead⟩
  job _ _ _ := trivial
  cleanup c row hc := by
    obtain ⟨ver, hver, hdead⟩ := hw.cleanups.sound c _ (ledger_cleanup hc)
    obtain ⟨version, hversion, rfl⟩ := version_of_ledger hver
    exact .inl ⟨version, hversion, hdead⟩
  manifest := trivial

/-- The time at which a call makes the versions due that it ends: `reserve_upload` reads the
clock of the process, every other operation the clock of the database. -/
def Call.due (call : Call) : Time :=
  match call.op with
  | .reserveUpload _ => call.env.utcnow
  | _ => call.clock

section Runs

variable [Platform] {s s' : Catalog} (hw : s.ledger.Wf)

include hw

theorem commit_due {call : Call} (hk : .discard ∈ call.op.kinds)
    (hs : call.commit s = .ok s') : (dueRule s call.due).Holds s' := by
  have hc := dueRule_closed s call.due
  have h := dueRule_holds hw call.due
  obtain ⟨env, op⟩ := call
  cases op with
  | reserveUpload => exact of_map_snd hs (reserveUpload_rows hc h fun _ _ => trivial)
  | claimIndexJob => exact of_map_snd hs (claimIndexJob_rows hc h)
  | updateJob => exact of_map_snd hs (updateJob_rows hc h fun _ _ _ => trivial)
  | scheduleIndexRetry => exact of_map_snd hs (scheduleIndexRetry_rows hc h)
  | fail => exact of_map_snd hs (fail_rows hc h)
  | deadLetterIndexJob => exact of_map_snd hs (deadLetterIndexJob_rows hc h)
  | retire => exact of_map_snd hs (retire_rows hc h)
  | _ => simp [Op.kinds] at hk

theorem exec_due {call : Call} (hk : .discard ∈ call.op.kinds) :
    (dueRule s call.due).Holds (exec s call) := by
  unfold exec
  split
  · rename_i hs
    exact commit_due hw hk hs
  · exact dueRule_holds hw _

/-- Only the operations that discard candidates end a version, publications apart. -/
theorem discards_of_ends {call : Call} {v : Id} (hnew : (exec s call).Dead v)
    (hold : ¬ s.Dead v) (hop : ∀ r, call.op ≠ .publish r) : .discard ∈ call.op.kinds := by
  by_contra hk
  have hdrop : .drop ∉ call.op.kinds := by
    intro hmem
    cases hcase : call.op <;> simp_all [Op.kinds]
  obtain ⟨row, hv, hdead⟩ := hnew
  obtain ⟨old, hver, hdead⟩ := (exec_refines hw call).dead_before hdrop hk (ledger_version hv) hdead
  obtain ⟨row, hrow, rfl⟩ := version_of_ledger hver
  exact hold ⟨row, hrow, hdead⟩

end Runs

/-! ## Claimable cleanups -/

/-- A claim at `clock` hands this job to a worker instead of passing over it or sending it to
the dead letters. -/
def CleanupGraph.claimable (g : CleanupGraph) (clock : Time) : Bool :=
  g.due clock && g.safeScope && decide (g.job.attempts < g.job.maxAttempts)

/-- The cleanup of version `v` can be claimed at `clock`. -/
def Catalog.Claimable (s : Catalog) (v : Id) (clock : Time) : Prop :=
  ∃ g ∈ s.cleanupGraphs, g.versionId = v ∧ g.claimable clock = true

instance (s : Catalog) (v : Id) (clock : Time) : Decidable (s.Claimable v clock) :=
  inferInstanceAs (Decidable (∃ g ∈ s.cleanupGraphs, g.versionId = v ∧ g.claimable clock = true))

section Claim

variable {s : Catalog} {v : Id}

theorem safeScope_of_dead (hw : s.ledger.Wf) {g : CleanupGraph} (hg : s.CleanupJoined g)
    (hdead : g.version.status.phase = .dead) : g.safeScope = true := by
  have hd := ledger_document hg.document
  have hv := ledger_version hg.version
  have hcurrent : g.document.currentVersionId ≠ some g.versionId := by
    intro hc
    have hready : g.version.status = .ready := (hw.current_version hd hc hv).2
    simp [hready, DocumentVersionStatus.phase] at hdead
  have hpending : g.document.pendingVersionId ≠ some g.versionId := by
    intro hp
    have hcand : g.version.status.phase = .candidate := (hw.pending_version hd hp hv).2.1
    simp [hcand] at hdead
  have hstatus := DocumentVersionStatus.phase_dead.mp hdead
  simp [safeScope, hstatus, hcurrent, hpending]

/-- A version that ended with a new cleanup job can be claimed from its due time on. -/
theorem claimable_iff {J : IndexJob → Prop} (h : s.Stands J) (hw : s.ledger.Wf)
    {row : DocumentVersion} {t : Time} (hv : s.versions.get v = some row)
    (hdead : row.status.phase = .dead) (hdue : row.cleanupAfter = some t)
    (hfresh : ∀ c job, s.cleanups.get c = some job → job.documentVersionId = v → job.Fresh t)
    (clock : Time) : s.Claimable v clock ↔ t ≤ clock := by
  constructor
  · rintro ⟨g, hg, rfl, hclaim⟩
    have hversion := (mem_cleanupGraphs hg).version
    obtain rfl := Option.mem_unique hv hversion
    simp only [claimable, due, hdue, Bool.and_eq_true, Option.any_some, decide_eq_true_eq] at hclaim
    exact hclaim.1.1.1.2
  · intro hle
    obtain ⟨c, job, -, hc, rfl⟩ := cleanupForVersion_some hw.cleanups hv hdead
    obtain ⟨hstatus, howner, hretry, huntried⟩ := hfresh c job hc rfl
    obtain ⟨g, hg, hid, rfl, rfl⟩ := h.cleanupGraph hw hc hv
    have huncleaned := (mem_cleanupGraphs hg).uncleaned hw (by simp [hstatus])
    refine ⟨g, hg, rfl, ?_⟩
    simp [claimable, due, DocumentCleanupJob.ready, hstatus, howner,
      hretry, hle, hdue, huncleaned, safeScope_of_dead hw (mem_cleanupGraphs hg) hdead, huntried]

end Claim

section Runs

variable [Platform]

/-- A version becomes FAILED or SUPERSEDED, and no publication replaces it: its cleanup can be
claimed at the clock of that transaction, unless an upload took the place of the version
while the clock of the process was ahead of the database. -/
theorem ended_version_claimable_iff (calls : List Call) (call : Call) (v : Id)
    (status : DocumentVersionStatus) (hnew : (exec (after calls) call).statusOf v = some status)
    (hdead : status = .failed ∨ status = .superseded)
    (hold : (after calls).statusOf v ≠ some status) (hop : ∀ r, call.op ≠ .publish r) :
    (exec (after calls) call).Claimable v call.clock ↔
      ((∃ r, call.op = .reserveUpload r) → call.env.utcnow ≤ call.env.databaseNow) := by
  have hw := after_wf calls
  have hw' := exec_wf hw call
  have hstands := after_stands (calls ++ [call])
  rw [show after (calls ++ [call]) = exec (after calls) call by
    simp [after]] at hstands
  obtain ⟨row, hv, rfl⟩ := Option.map_eq_some_iff.mp hnew
  have hphase := DocumentVersionStatus.phase_dead.mpr hdead
  have halive : ¬ (after calls).Dead v := by
    rintro ⟨old, hv₀, hphase₀⟩
    obtain ⟨ver, hver, hlater⟩ :=
      ((exec_refines hw call).later hw).versions v _ (ledger_version hv₀)
    rw [ledger_version hv] at hver
    cases hver
    have hsame : row.status = old.status := hlater.dead hphase₀
    exact hold (by simp [statusOf, hv₀, hsame])
  have hrule := exec_due hw (discards_of_ends hw ⟨row, hv, hphase⟩ halive hop)
  rw [claimable_iff hstands hw' hv hphase ((hrule.version v row hv hphase).resolve_left halive)]
  · obtain ⟨env, op⟩ := call
    cases op <;> simp [Call.due, Call.clock]
  · rintro c job hc rfl
    exact (hrule.cleanup c job hc).resolve_left halive

end Runs

namespace Sample

/-- A newer upload at database time 2, from a process whose clock shows `utcnow`. -/
def uploadFrom (utcnow : Time) : Call :=
  { upload 2 2 'b' with env := { env 2 2 with utcnow := utcnow } }

end Sample

open PlainPlatform in
theorem overtaken_version_claimable :
    (exec (after Sample.uploaded) (Sample.uploadFrom 2)).Claimable 1 2 :=
  (ended_version_claimable_iff Sample.uploaded (Sample.uploadFrom 2) 1 .superseded
    (by decide +kernel) (.inr rfl) (by decide +kernel) (fun _ h => nomatch h)).mpr fun _ => le_rfl

open PlainPlatform in
/-- Both clocks of the run only go forward, and the version that a newer upload supersedes at
database time 2 cannot be claimed then, because it is due at the 5 of the process clock. -/
theorem overtaken_version_not_claimable : let call := Sample.uploadFrom 5
    Machine.ClockFrom (fun call : Call => call.env.utcnow) 0 (Sample.uploaded ++ [call]) ∧
      Machine.ClockFrom Call.clock 0 (Sample.uploaded ++ [call]) ∧
      (after Sample.uploaded).statusOf 1 = some .uploaded ∧
      (exec (after Sample.uploaded) call).statusOf 1 = some .superseded ∧
      ¬ (exec (after Sample.uploaded) call).Claimable 1 call.clock := by
  refine ⟨⟨?_, ?_, ?_, trivial⟩, ⟨?_, ?_, ?_, trivial⟩, ?_, ?_, ?_⟩ <;> decide +kernel

end SuperMew.Documents
