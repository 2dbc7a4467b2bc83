import SuperMew.Documents.History

/-! The hour of grace for a version that a publication replaces. -/

namespace SuperMew.Documents

open Relational Catalog

variable {s s' : Catalog} {v : Id}

/-- Version `v` waits for its cleanup, which no worker may start before `limit`. -/
structure Catalog.Waiting (s : Catalog) (v : Id) (limit : Time) : Prop where
  due : s.ledger.DueFrom v limit
  idle : ¬ s.ledger.Cleaning v

theorem not_cleaning_of_alive (hw : s.ledger.Wf) {ver : VersionState}
    (hv : s.ledger.versions v = some ver) (halive : ver.status.phase ≠ .dead) :
    ¬ s.ledger.Cleaning v := by
  rintro ⟨c, state, hc, rfl, -⟩
  obtain ⟨ver', hver, hdead⟩ := hw.cleanups.sound c state hc
  obtain rfl := Option.mem_unique hv hver
  exact halive hdead

/-! ## Replacement -/

variable {env : Env}

/-- The version that a publication supersedes is not due before the end of its grace. -/
theorem publish_waiting (hw : s.ledger.Wf) {r : PublishRequest}
    {result : PublicationResult} (h : publish env r s = .ok (result, s')) {row row' : DocumentVersion}
    (hv : s.versions.get v = some row) (hold : row.status ≠ .superseded)
    (hv' : s'.versions.get v = some row') (hnew : row'.status = .superseded) :
    s'.Waiting v (env.databaseNow + replacementCleanupGrace) := by
  have hrow := ledger_version hv
  obtain rfl | ⟨g, hg, -, hp, h⟩ := publish_ok h
  · obtain rfl := Option.mem_unique hv hv'
    exact absurd hnew hold
  -- a promotion supersedes nothing, so it is the drop that superseded the version
  have hpromote {mid : Ledger} {ver : VersionState} (hver : mid.versions v = some ver)
      (hstep : Step env.databaseNow (.promote g.documentId g.versionId) mid s'.ledger) :
      ver.status = .superseded := by
    obtain ⟨after, hafter, hfalls⟩ := hstep.falls v ver hver
    rw [ledger_version hv'] at hafter
    cases hafter
    simpa using hfalls.superseded hnew
  obtain ⟨-, hstep⟩ | ⟨p, mid, hcur, hdrop, hstep⟩ :=
    @publishCandidate_steps s s' env env.databaseNow g result hw hg r hp h
  · exact absurd (hpromote hrow hstep) hold
  · obtain ⟨ver, hver, hfalls⟩ := hdrop.falls v _ hrow
    have hstatus := hpromote hver hstep
    obtain hsup | ⟨d, due, heq, hdue⟩ | ⟨d, heq⟩ := hfalls.superseded hstatus
    · exact absurd hsup hold
    · obtain ⟨rfl, rfl, rfl⟩ := Action.drop.inj heq
      have hready := (hw.current_version (ledger_document hg.document) hcur hrow).2
      have hidle : ¬ s.ledger.Cleaning p := not_cleaning_of_alive hw hrow (by
        rw [hready]
        decide)
      have hsteps : Steps env.databaseNow [.drop, .promote] s.ledger s'.ledger :=
        .trans (.single hdrop (by simp)) (.single hstep (by simp))
      have hdueFrom : mid.DueFrom p (env.databaseNow + replacementCleanupGrace) := by
        refine ⟨ver, hver, by rw [hstatus, DocumentVersionStatus.phase], fun t ht => ?_⟩
        rw [hdue] at ht
        exact (Option.some.inj ht).le
      exact ⟨hstep.dueFrom (hdrop.wf hw) (by simp) hdueFrom,
        fun hclean => hidle (hsteps.cleaning (by simp) hclean)⟩
    · cases heq

/-! ## The hour that follows -/

variable {limit : Time}

theorem waiting_of_steps {kinds : List Kind} {now : Time} (hw : s.ledger.Wf)
    (hs : Steps now kinds s.ledger s'.ledger) (hk : .expedite ∉ kinds) (hnow : now < limit)
    (h : s.Waiting v limit) : s'.Waiting v limit :=
  ⟨hs.dueFrom hw hk h.due, hs.not_cleaning hw hk hnow h.due h.idle⟩

theorem Op.expedite_mem_kinds {op : Op} (h : .expedite ∈ op.kinds) : ∃ r, op = .retire r := by
  cases op <;> simp [Op.kinds] at h ⊢

section Runs

variable [Platform]

/-- The call retires the document of version `v`, which is deleted already. -/
def Call.RetiresAgain (call : Call) (s : Catalog) (v : Id) : Prop :=
  ∃ r row doc, call.op = .retire r ∧ s.versions.get v = some row ∧
    r.Finds s row.documentId doc ∧ doc.deletedAt.isSome = true

/-- A retirement makes only the versions of its own document due. -/
theorem retire_waiting (hw : s.ledger.Wf) {r : RetireRequest}
    {result : RetirementResult} (h : retire env r s = .ok (result, s'))
    (hnow : env.databaseNow < limit) (hwait : s.Waiting v limit)
    (hagain : ¬ Call.RetiresAgain ⟨env, .retire r⟩ s v) : s'.Waiting v limit := by
  obtain rfl | ⟨d, doc, hd, ⟨hdel, h⟩ | ⟨current, pending, hlive, hcur, hpend, h⟩⟩ := retire_ok h
  · exact hwait
  · obtain ⟨⟨mid, _, hsteps, hrecord⟩, hframe⟩ := retireAgain_ok hw hd.get hdel h
    obtain ⟨ver, hver, hdead, hdue⟩ := hwait.due
    obtain ⟨row, hrow, rfl⟩ := version_of_ledger hver
    have hother : row.documentId ≠ d := by
      rintro rfl
      exact hagain ⟨r, row, doc, rfl, hrow, hd, hdel⟩
    have hkept := ledger_version (hframe v row hrow hother)
    have hrecorded : Steps env.databaseNow [.record] mid.ledger s'.ledger :=
      upsertRetirementJob_steps hrecord
    refine ⟨⟨_, hkept, hdead, hdue⟩, fun hclean => hwait.idle ?_⟩
    exact hsteps.cleaning (by simp) (hrecorded.cleaning (by simp) hclean)
  · obtain ⟨mid, _, hsteps, hrecord⟩ := retireFirst_ok hw hd.get hcur hpend h
    have hmid := waiting_of_steps hw (hsteps env.databaseNow) (by simp) hnow hwait
    exact waiting_of_steps ((hsteps env.databaseNow).wf hw) (upsertRetirementJob_steps hrecord)
      (by simp) hnow hmid

theorem exec_waiting (hw : s.ledger.Wf) {call : Call} (hnow : call.clock < limit)
    (hwait : s.Waiting v limit) (hagain : ¬ call.RetiresAgain s v) :
    (exec s call).Waiting v limit := by
  by_cases hk : .expedite ∈ call.op.kinds
  · obtain ⟨env, op⟩ := call
    obtain ⟨r, rfl⟩ := Op.expedite_mem_kinds hk
    unfold exec
    split
    · rename_i s' hcommit
      exact of_map_snd hcommit fun hok => retire_waiting hw hok hnow hwait hagain
    · exact hwait
  · exact waiting_of_steps hw (exec_refines hw call) hk hnow hwait

def Catalog.statusOf (s : Catalog) (v : Id) : Option DocumentVersionStatus :=
  (s.versions.get v).map DocumentVersion.status

/-- The call is a publication that supersedes version `v`. -/
def Call.Replaces (call : Call) (s : Catalog) (v : Id) : Prop :=
  (∃ r, call.op = .publish r) ∧ (∃ status, s.statusOf v = some status ∧ status ≠ .superseded) ∧
    (exec s call).statusOf v = some .superseded

theorem Call.Replaces.waiting (hw : s.ledger.Wf) {call : Call} (h : call.Replaces s v) :
    (exec s call).Waiting v (call.clock + replacementCleanupGrace) := by
  obtain ⟨env, op⟩ := call
  obtain ⟨⟨r, rfl⟩, ⟨status, hbefore, hold⟩, hafter⟩ := h
  obtain ⟨row, hv, rfl⟩ := Option.map_eq_some_iff.mp hbefore
  obtain ⟨row', hv', hnew⟩ := Option.map_eq_some_iff.mp hafter
  cases hres : publish env r s with
  | error e =>
    rw [exec_publish_error hres, hv] at hv'
    cases hv'
    exact absurd hnew hold
  | ok result =>
    obtain ⟨result, s'⟩ := result
    have hexec : exec s ⟨env, .publish r⟩ = s' := by
      simp [exec, Call.commit, hres, Except.map]
    rw [hexec] at hv' ⊢
    exact publish_waiting hw hres hv hold hv' hnew

def cleanupClaimed (env : Env) (r : CleanupClaimRequest) (s : Catalog) : Option Id :=
  match claimCleanupJob env r s with
  | .ok (some build, _) => some build.version.1
  | _ => none

/-- No claim returns a version that waits. -/
theorem cleanupClaimed_waiting (hw : s.ledger.Wf) {r : CleanupClaimRequest}
    (hnow : env.leaseClock r.now < limit) (hwait : s.Waiting v limit) :
    cleanupClaimed env r s ≠ some v := by
  unfold cleanupClaimed
  split
  · rename_i build s' hclaim
    intro heq
    cases heq
    obtain ⟨hsteps, hbuild⟩ := claimCleanupJob_steps hw hclaim
    obtain ⟨row, hc, hversion, hrun⟩ := hbuild build rfl
    exact hsteps.not_cleaning hw (by simp) hnow hwait.due hwait.idle ⟨_, row, hc, hversion, hrun⟩
  · simp

/-- The cleanup of a version that a publication supersedes at clock `t` is not claimed before
`t` plus one hour, unless the document is retired again after it was deleted. -/
theorem replacement_grace (before : List Call) (swap : Call) (between : List Call) (env : Env)
    (r : CleanupClaimRequest) (v : Id) (hswap : swap.Replaces (after before) v)
    (hclock : Machine.ClockFrom Call.clock swap.clock (between ++ [⟨env, .claimCleanupJob r⟩]))
    (hretire : Machine.Along exec (fun s call => ¬ call.RetiresAgain s v)
      (after (before ++ [swap])) between)
    (hclaim : cleanupClaimed env r (after (before ++ swap :: between)) = some v) :
    swap.clock + replacementCleanupGrace ≤ env.leaseClock r.now := by
  by_contra hearly
  rw [Nat.not_le] at hearly
  have hw := after_wf before
  rw [after_append] at hretire hclaim
  -- the invariant is dropped once the clock has passed the hour
  obtain ⟨t, ht, hwf, hwait⟩ := Machine.run_preserves_timed
    (I := fun t (s : Catalog) => s.ledger.Wf ∧
      (swap.clock + replacementCleanupGrace ≤ t ∨
        s.Waiting v (swap.clock + replacementCleanupGrace))) (by
      rintro t s call ⟨hwf, hwait⟩ hle hagain
      refine ⟨exec_wf hwf call, ?_⟩
      by_cases hnow : call.clock < swap.clock + replacementCleanupGrace
      · have hwait := hwait.resolve_left (Nat.not_le.mpr (lt_of_le_of_lt hle hnow))
        exact .inr (exec_waiting hwf hnow hwait hagain)
      · exact .inl (Nat.not_lt.mp hnow))
    ⟨exec_wf hw swap, .inr (hswap.waiting hw)⟩ hclock hretire
  have hwait := hwait.resolve_left (Nat.not_le.mpr (lt_of_le_of_lt ht.1 hearly))
  exact cleanupClaimed_waiting hwf hearly hwait hclaim

end Runs

open PlainPlatform in
theorem replacement_grace_ends :
    let r : CleanupClaimRequest := ⟨"w", 60, none⟩
    let now := 6 + replacementCleanupGrace
    cleanupClaimed (Sample.env now 0) r (after (Sample.uploadedAgain ++
      Sample.publish 6 2 2 (some 1) ::
        [Sample.upload 7 3 'c', Sample.claimCleanup 8 "w"])) = some 1 ∧
      (Sample.publish 6 2 2 (some 1)).clock + replacementCleanupGrace ≤
        (Sample.env now 0).leaseClock r.now :=
  ⟨by decide +kernel, replacement_grace Sample.uploadedAgain (Sample.publish 6 2 2 (some 1))
    [Sample.upload 7 3 'c', Sample.claimCleanup 8 "w"] _ _ 1
    ⟨⟨_, rfl⟩, ⟨.ready, by decide +kernel, by decide⟩, by decide +kernel⟩
    ⟨by decide +kernel, by decide +kernel, by decide +kernel, trivial⟩
    ⟨fun ⟨_, _, _, hop, _⟩ => (by cases hop), fun ⟨_, _, _, hop, _⟩ => (by cases hop), trivial⟩
    (by decide +kernel)⟩

open PlainPlatform in
/-- Retiring a deleted document again ends the grace of a version that was replaced before:
the version superseded at time 6 is claimed at time 10. -/
theorem repeated_retirement_ends_grace : let swap := Sample.publish 6 2 2 (some 1)
    let between := [Sample.retire 7 none, Sample.retire 8 none, Sample.claimCleanup 9 "w"]
    let r : CleanupClaimRequest := ⟨"w2", 60, none⟩
    swap.Replaces (after Sample.uploadedAgain) 1 ∧
      Machine.ClockFrom Call.clock swap.clock
        (between ++ [⟨Sample.env 10 0, .claimCleanupJob r⟩]) ∧
      cleanupClaimed (Sample.env 10 0) r
        (after (Sample.uploadedAgain ++ swap :: between)) = some 1 ∧
      (Sample.env 10 0).leaseClock r.now < swap.clock + replacementCleanupGrace := by
  refine ⟨⟨⟨_, rfl⟩, ⟨.ready, ?_, ?_⟩, ?_⟩, ⟨?_, ?_, ?_, ?_, trivial⟩, ?_, ?_⟩ <;> decide +kernel

end SuperMew.Documents
