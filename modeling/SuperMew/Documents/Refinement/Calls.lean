import SuperMew.Documents.Calls
import SuperMew.Documents.LedgerHistory
import SuperMew.Documents.Refinement.Jobs
import SuperMew.Documents.Refinement.Retire

/-! Every committed call of the catalog is a sequence of protocol steps, so the
invariant of the protocol holds in every reachable catalog. -/

namespace SuperMew.Documents

variable [Platform] {s s' : Catalog} {call : Call}

/-- The kinds of steps that an operation can take. -/
def Op.kinds : Op → List Kind
  | .ensureKnowledgeBase .. | .assertIndexLease .. => []
  | .reserveUpload _ => [.enlist, .discard, .reserve]
  | .claimIndexJob _ => [.hold, .acquire, .discard]
  | .heartbeatIndexJob _ | .recordManifest _ => [.hold]
  | .updateJob _ | .scheduleIndexRetry _ => [.hold, .discard]
  | .publish _ => [.drop, .promote]
  | .fail _ | .deadLetterIndexJob _ => [.discard]
  | .retire _ => [.drop, .discard, .tombstone, .expedite, .record]
  | .recordRetirementError .. => [.record]
  | _ => [.clean]

theorem ensureKnowledgeBase_ledger {env : Env} {tenantId name newId : String} {ownerId : ℤ}
    {result : String × KnowledgeBase}
    (h : ensureKnowledgeBase env tenantId ownerId name newId s = .ok (result, s')) :
    s'.ledger = s.ledger := by
  simp only [ensureKnowledgeBase, ok_rules] at h
  obtain ⟨_, _, _, _, h⟩ := h
  split at h
  · simp only [ok_rules] at h
    obtain ⟨_, _, _, rfl⟩ := h
    rfl
  · simp only [ok_rules] at h
    obtain ⟨_, _, _, rfl⟩ := h
    rfl

section

variable (hw : s.ledger.Wf)

include hw

/-- A committed call takes steps of the kinds of its operation. -/
theorem Call.refines (h : call.commit s = .ok s') :
    Steps call.clock call.op.kinds s.ledger s'.ledger := by
  obtain ⟨env, op⟩ := call
  cases op with
  | assertIndexLease jobId execution now =>
    obtain ⟨_, _, rfl⟩ := map_eq_ok.mp h
    exact .none rfl
  | ensureKnowledgeBase => exact of_map_snd h fun hop => .none (ensureKnowledgeBase_ledger hop)
  | reserveUpload => exact of_map_snd h (reserveUpload_steps hw)
  | claimIndexJob r =>
    refine of_map_snd h fun hop => ?_
    obtain ⟨worker, -, hclaimed⟩ := claimIndexJob_claimed hw hop
    exact hclaimed.steps
  | heartbeatIndexJob => exact of_map_snd h (heartbeatIndexJob_steps hw)
  | updateJob => exact of_map_snd h (updateJob_steps hw)
  | recordManifest => exact of_map_snd h (recordManifest_steps hw)
  | publish => exact of_map_snd h (publish_steps hw)
  | scheduleIndexRetry => exact of_map_snd h (scheduleIndexRetry_steps hw)
  | fail => exact of_map_snd h (fail_steps hw)
  | deadLetterIndexJob => exact of_map_snd h (deadLetterIndexJob_steps hw)
  | retire => exact of_map_snd h (retire_steps hw)
  | recordRetirementError => exact of_map_snd h recordRetirementError_steps
  | claimCleanupJob => exact of_map_snd h fun hop => (claimCleanupJob_steps hw hop).1
  | heartbeatCleanupJob => exact of_map_snd h heartbeatCleanupJob_steps
  | updateCleanupJob => exact of_map_snd h updateCleanupJob_steps
  | scheduleCleanupRetry => exact of_map_snd h (scheduleCleanupRetry_steps hw)
  | deadLetterCleanupJob => exact of_map_snd h (deadLetterCleanupJob_steps hw)
  | completeCleanupJob => exact of_map_snd h completeCleanupJob_steps
  | requeueCleanupJob => exact of_map_snd h requeueCleanupJob_steps
  | recordCleanup => exact of_map_snd h (recordCleanup_steps hw)

theorem exec_refines (call : Call) :
    Steps call.clock call.op.kinds s.ledger (exec s call).ledger := by
  unfold exec
  split
  · rename_i s' h
    exact call.refines hw h
  · exact .none rfl

theorem exec_wf (call : Call) : (exec s call).ledger.Wf :=
  (exec_refines hw call).wf hw

theorem run_wf (calls : List Call) : (Machine.run exec s calls).ledger.Wf :=
  Machine.run_preserves (I := fun s : Catalog => s.ledger.Wf) (fun _ call h => exec_wf h call)
    hw calls

end

theorem after_wf (calls : List Call) : (Catalog.after calls).ledger.Wf :=
  run_wf (Catalog.ledger_empty ▸ Ledger.wf_empty) calls

theorem run_later (hw : s.ledger.Wf) (calls : List Call) :
    s.ledger.Later (Machine.run exec s calls).ledger := by
  refine Machine.run_rel (I := fun s : Catalog => s.ledger.Wf)
    (R := fun s s' : Catalog => s.ledger.Later s'.ledger) (fun _ => .refl _) (fun h h' => h.trans h') ?_ ?_ hw calls
  · exact fun s call h => exec_wf h call
  · exact fun s call h => (exec_refines h call).later h

end SuperMew.Documents
