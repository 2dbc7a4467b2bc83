import SuperMew.Documents.Refinement.Cleanup
import SuperMew.Documents.Refinement.Upload
import SuperMew.Documents.Retire

/-! Logical deletion as steps of the protocol. -/

namespace SuperMew.Documents

open Relational Catalog

variable {s s' : Catalog} {env : Env} {clock : Time} {d : Id} {doc : Document}

/-! ## The ledger of retirements -/

variable {r : RetireRequest} {result : RetirementResult} {versions : List Id} {fence : ℕ}
  {now : Time} {operation : Option String} {current : Option (Id × DocumentVersion)}
  {retirementJobId : Option String}

/-- The row that a retirement with an identifier leaves behind. -/
theorem upsertRetirementJob_ok [Platform]
    (h : upsertRetirementJob s retirementJobId d doc versions fence now = .ok (operation, s')) :
    s' = s ∨ ∃ r row, s' = s.putRetirement r row ∧
      row.documentId = d ∧ (∀ v ∈ versions, v ∈ row.cleanupVersionIds) ∧
      ∀ old, s.retirements.get r = some old →
        old.documentId = d ∧ ∀ v ∈ old.cleanupVersionIds, v ∈ row.cleanupVersionIds := by
  cases retirementJobId with
  | none =>
    simp only [upsertRetirementJob, Except.ok.injEq, Prod.mk.injEq] at h
    exact .inl h.2.symm
  | some text =>
    simp only [upsertRetirementJob, ok_rules] at h
    obtain ⟨r, -, h⟩ := h
    split at h
    · rename_i hnone
      simp only [ok_rules] at h
      exact .inr ⟨r, _, h.2.symm, rfl, by simp, by simp [hnone]⟩
    · rename_i row hsome
      simp only [ok_rules, not_or, not_not, ne_eq] at h
      obtain ⟨_, ⟨hdoc, _⟩, -, rfl⟩ := h
      refine .inr ⟨r, _, rfl, hdoc, fun v hv => by simp [hv], fun old hold => ?_⟩
      obtain rfl := Option.mem_unique hsome hold
      exact ⟨hdoc, fun v hv => by simp [hv]⟩

theorem upsertRetirementJob_versions [Platform]
    (h : upsertRetirementJob s retirementJobId d doc versions fence now = .ok (operation, s')) :
    s'.versions = s.versions := by
  obtain rfl | ⟨r, row, rfl, -⟩ := upsertRetirementJob_ok h <;> rfl

theorem upsertRetirementJob_steps [Platform]
    (h : upsertRetirementJob s retirementJobId d doc versions fence now = .ok (operation, s')) :
    Steps clock [.record] s.ledger s'.ledger := by
  obtain rfl | ⟨r, row, rfl, hdoc, -, hold⟩ := upsertRetirementJob_ok h
  · exact .none rfl
  · rw [ledger_putRetirement]
    refine .single (.record ?_) (by simp)
    intro state hstate
    obtain ⟨old, hget, rfl⟩ := Option.map_eq_some_iff.mp hstate
    obtain ⟨hsame, hsub⟩ := hold old hget
    exact ⟨hdoc.trans hsame.symm, hsub⟩

/-! ## First retirement -/

theorem retireCurrent_steps (hw : s.ledger.Wf) (hd : s.documents.get d = some doc)
    (hcur : versionByPointer s d doc.currentVersionId = .ok current)
    (h : retireCurrent env current s = .ok s') :
    Steps clock [.drop] s.ledger (s'.ledger.setDocument d { doc.state with current := none }) := by
  obtain ⟨rfl, hnone⟩ | ⟨v, row, rfl, hsome, hrow, -⟩ := versionByPointer_ok hcur
  · cases h
    have hsame : { doc.state with current := none } = doc.state := by
      simp [Document.state, hnone]
    exact .none (by rw [hsame, Ledger.setDocument_self (ledger_document hd)])
  · obtain ⟨-, hready⟩ := hw.current_version (ledger_document hd) hsome (ledger_version hrow)
    have hn : s.cleanupForVersion v = none := cleanupForVersion_none hw.cleanups hrow (by
      rw [show row.status = .ready from hready]
      decide)
    obtain ⟨hfree, hs'⟩ := supersedeVersion_keep hn h
    rw [hs']
    exact .single (.drop (ledger_document hd) hsome (ledger_version hrow)
      (ledger_cleanup_none.mpr hfree)) (by simp)

variable {pending : Option (Id × DocumentVersion)}

/-- The pending version is discarded after the current pointer is gone. -/
theorem retirePending_steps {x : DocumentState} (hw : (s.ledger.setDocument d x).Wf)
    (hpend : ∀ v row, pending = some (v, row) → x.pending = some v ∧ s.versions.get v = some row ∧
    current.all (fun e => e.1 != v) = true) (hnone : pending = none → x.pending = none)
    (h : retirePending env current pending s = .ok s') :
    Steps clock [.discard] (s.ledger.setDocument d x)
      (s'.ledger.setDocument d { x with pending := none }) := by
  cases pending with
  | none =>
    cases h
    have hsame : { x with pending := none } = x := by
      rw [← hnone rfl]
    exact .none (by rw [hsame])
  | some e =>
    obtain ⟨v, row⟩ := e
    obtain ⟨hp, hrow, hall⟩ := hpend v row rfl
    simp only [retirePending, hall, if_true] at h
    exact .single (supersedeVersion_cancel hw hp hrow h) (by simp)

/-- The document is emptied and marked, and the two versions that it held are recorded. -/
theorem retireFirst_ok [Platform] (hw : s.ledger.Wf) (hd : s.documents.get d = some doc)
    (hcur : versionByPointer s d doc.currentVersionId = .ok current)
    (hpend : versionByPointer s d doc.pendingVersionId = .ok pending)
    (h : retireFirst env r d doc current pending s = .ok (result, s')) :
    ∃ mid operation, (∀ clock, Steps clock [.drop, .discard, .tombstone] s.ledger mid.ledger) ∧
      upsertRetirementJob mid r.retirementJobId d doc
        (current.toList.map (·.1) ++ pending.toList.map (·.1)).dedup (doc.publicationFence + 1)
        env.databaseNow = .ok (operation, s') := by
  simp only [retireFirst, ok_rules] at h
  obtain ⟨_, _, s₁, hs₁, s₂, hs₂, ⟨operation, s₃⟩, hs₃, _, rfl⟩ := h
  have hdrop (clock : Time) : Steps clock [.drop] s.ledger
      (s₁.ledger.setDocument d { doc.state with current := none }) :=
    retireCurrent_steps hw hd hcur hs₁
  have hdiscard (clock : Time) : Steps clock [.discard]
      (s₁.ledger.setDocument d { doc.state with current := none })
      (s₂.ledger.setDocument d { doc.state with current := none, pending := none }) := by
    refine retirePending_steps ((hdrop clock).wf hw) ?_ ?_ hs₂
    · rintro v row rfl
      obtain ⟨hx, -⟩ | ⟨v', row', hx, hp, hrow, -⟩ := versionByPointer_ok hpend
      · cases hx
      cases hx
      obtain ⟨rfl, -⟩ | ⟨w, old, rfl, hc, -⟩ := versionByPointer_ok hcur
      · cases hs₁
        exact ⟨hp, hrow, rfl⟩
      · have hne := hw.current_ne_pending (ledger_document hd) hc hp
        simp only [retireCurrent] at hs₁
        exact ⟨hp, (supersedeVersion_other hs₁ hne.symm).trans hrow, by simpa using hne⟩
    · rintro rfl
      obtain ⟨-, hnone⟩ | ⟨_, _, hx, _⟩ := versionByPointer_ok hpend
      · exact hnone
      · cases hx
  have htomb (clock : Time) : Step clock (.tombstone d)
      (s₂.ledger.setDocument d { doc.state with current := none, pending := none })
      (s₂.ledger.setDocument d (doc.retired env.databaseNow).state) := by
    have hx : (s₂.ledger.setDocument d
        { doc.state with current := none, pending := none }).documents d =
        some { doc.state with current := none, pending := none } := by simp
    have hstep : Step clock (.tombstone d) _ _ := .tombstone hx rfl rfl
    rw [Ledger.setDocument_setDocument] at hstep
    exact hstep
  refine ⟨_, operation, fun clock => ?_, hs₃⟩
  rw [ledger_bumpRevision, ledger_putDocument]
  exact .trans ((hdrop clock).mono (by simp)) (.trans ((hdiscard clock).mono (by simp))
    (.single (htomb clock) (by simp)))

/-! ## Repeated retirement -/

/-- One iteration over a dead version of a deleted document. -/
theorem expediteCleanup_steps (hw : s.ledger.Wf) {v : Id} {row : DocumentVersion}
    (hv : s.versions.get v = some row) (hdead : row.status.phase = .dead)
    (hd : s.documents.get row.documentId = some doc) (hdel : doc.deletedAt.isSome = true)
    (h : expediteCleanup env clock s (v, row) = .ok s') :
    Steps clock [.expedite] s.ledger s'.ledger ∧ s'.documents = s.documents ∧
      ∀ w ≠ v, s'.versions.get w = s.versions.get w := by
  obtain ⟨c, job, hfind, hc, -⟩ := cleanupForVersion_some hw.cleanups hv hdead
  simp only [expediteCleanup, hfind, ok_rules] at h
  obtain ⟨s₁, hs₁, rfl⟩ := h
  have hs₁' : s₁.ledger = s.ledger ∧ s₁.documents = s.documents ∧ s₁.versions = s.versions := by
    unfold expediteJob at hs₁
    simp only at hs₁
    split at hs₁
    · cases hs₁
      exact ⟨ledger_putCleanup_self hc rfl, rfl, rfl⟩
    · cases hs₁
      exact ⟨rfl, rfl, rfl⟩
  obtain ⟨hledger, hdocs, hvers⟩ := hs₁'
  split
  · refine ⟨?_, hdocs, ?_⟩
    · rw [ledger_putVersion, hledger]
      exact .single (.expedite (ledger_version hv) (ledger_document hd) hdel hdead) (by simp)
    · intro w hne
      rw [putVersion, Table.get_put, Function.update_of_ne hne, hvers]
  · exact ⟨.none hledger, hdocs, fun w _ => by rw [hvers]⟩

/-- The loop over the versions that are not cleaned yet. -/
theorem expediteAll_steps {rows : List (Id × DocumentVersion)} (hw : s.ledger.Wf)
    (hd : s.documents.get d = some doc) (hdel : doc.deletedAt.isSome = true)
    (hnodup : (rows.map Prod.fst).Nodup)
    (hrows : ∀ e ∈ rows, s.versions.get e.1 = some e.2 ∧ e.2.status.phase = .dead ∧
      e.2.documentId = d)
    (h : rows.foldlM (expediteCleanup env clock) s = .ok s') :
    Steps clock [.expedite] s.ledger s'.ledger ∧
      ∀ w ∉ rows.map Prod.fst, s'.versions.get w = s.versions.get w := by
  induction rows generalizing s with
  | nil =>
    obtain rfl := pure_eq_ok.mp h
    exact ⟨.none rfl, fun _ _ => rfl⟩
  | cons e rows ih =>
    obtain ⟨v, row⟩ := e
    rw [List.foldlM_cons, bind_eq_ok] at h
    obtain ⟨s₁, hs₁, h⟩ := h
    rw [List.map_cons, List.nodup_cons] at hnodup
    obtain ⟨hv, hdead, hrowd⟩ := hrows (v, row) (List.mem_cons_self ..)
    obtain ⟨hstep, hdocs, hother⟩ :=
      expediteCleanup_steps hw hv hdead (hrowd ▸ hd) hdel hs₁
    have hrest : ∀ e ∈ rows, s₁.versions.get e.1 = some e.2 ∧ e.2.status.phase = .dead ∧
        e.2.documentId = d := by
      intro e he
      have hne : e.1 ≠ v := by
        rintro rfl
        exact hnodup.1 (List.mem_map.mpr ⟨e, he, rfl⟩)
      rw [hother e.1 hne]
      exact hrows e (List.mem_cons_of_mem _ he)
    obtain ⟨hsteps, hframe⟩ := ih (hstep.wf hw) (hdocs ▸ hd) hnodup.2 hrest h
    refine ⟨hstep.trans hsteps, fun w hw => ?_⟩
    rw [List.map_cons, List.mem_cons, not_or] at hw
    rw [hframe w hw.2, hother w hw.1]

theorem mem_uncleanedVersions {e : Id × DocumentVersion} : e ∈ uncleanedVersions s d ↔
    s.versions.get e.1 = some e.2 ∧ e.2.documentId = d ∧ e.2.status.phase = .dead ∧
      e.2.indexCleanedAt = none := by
  obtain ⟨v, row⟩ := e
  rw [uncleanedVersions, List.mem_insertionSort, Table.mem_select]
  simp [DocumentVersionStatus.phase_dead, and_assoc]

theorem nodup_uncleanedVersions : ((uncleanedVersions s d).map Prod.fst).Nodup := by
  rw [uncleanedVersions, ((List.perm_insertionSort _ _).map _).nodup_iff]
  exact Table.nodup_select s.versions _

/-- The dead versions of the document become due and are recorded; the versions of other
documents are left alone. -/
theorem retireAgain_ok [Platform] (hw : s.ledger.Wf) (hd : s.documents.get d = some doc)
    (hdel : doc.deletedAt.isSome = true) (h : retireAgain env r d doc s = .ok (result, s')) :
    (∃ mid operation, Steps env.databaseNow [.expedite] s.ledger mid.ledger ∧
      upsertRetirementJob mid r.retirementJobId d doc ((uncleanedVersions s d).map (·.1))
        doc.publicationFence env.databaseNow = .ok (operation, s')) ∧
      ∀ w row, s.versions.get w = some row → row.documentId ≠ d → s'.versions.get w = some row := by
  simp only [retireAgain, ok_rules] at h
  obtain ⟨s₁, hs₁, ⟨operation, s₂⟩, hs₂, _, rfl⟩ := h
  obtain ⟨hexpedite, hframe⟩ := expediteAll_steps hw hd hdel nodup_uncleanedVersions (fun e he => by
    obtain ⟨hv, hdoc, hdead, -⟩ := mem_uncleanedVersions.mp he
    exact ⟨hv, hdead, hdoc⟩) hs₁
  refine ⟨⟨s₁, operation, hexpedite, hs₂⟩, ?_⟩
  intro w row hrow hne
  rw [upsertRetirementJob_versions hs₂, hframe w ?_, hrow]
  intro hmem
  obtain ⟨e, he, rfl⟩ := List.mem_map.mp hmem
  obtain ⟨hv, hdoc, -⟩ := mem_uncleanedVersions.mp he
  cases hrow.symm.trans hv
  exact hne hdoc

/-! ## Both cases -/

def RetireRequest.Finds [Platform] (r : RetireRequest) (s : Catalog) (d : Id) (doc : Document) :
    Prop :=
  ∃ name, requiredText r.canonicalName "canonical_name" 255 = .ok name ∧
    documentByName s r.tenantId name r.knowledgeBaseId = .ok (some (d, doc))

theorem RetireRequest.Finds.get [Platform] (h : r.Finds s d doc) :
    s.documents.get d = some doc := by
  obtain ⟨_, _, hfound⟩ := h
  exact documentByName_some hfound

/-- A retirement that finds its document takes one of two courses. -/
theorem retire_ok [Platform] (h : retire env r s = .ok (result, s')) :
    s' = s ∨ ∃ d doc, r.Finds s d doc ∧
      (doc.deletedAt.isSome = true ∧ retireAgain env r d doc s = .ok (result, s') ∨
        ∃ current pending, doc.deletedAt = none ∧
          versionByPointer s d doc.currentVersionId = .ok current ∧
          versionByPointer s d doc.pendingVersionId = .ok pending ∧
          retireFirst env r d doc current pending s = .ok (result, s')) := by
  simp only [retire, ok_rules] at h
  obtain ⟨name, hname, found, hfound, h⟩ := h
  cases found with
  | none =>
    simp only [ok_rules] at h
    exact .inl h.2.symm
  | some e =>
    obtain ⟨d, doc⟩ := e
    simp only [ok_rules] at h
    obtain ⟨current, hcur, pending, hpend, h⟩ := h
    refine .inr ⟨d, doc, ⟨name, hname, hfound⟩, ?_⟩
    split at h
    · rename_i hdel
      exact .inl ⟨hdel, h⟩
    · rename_i hdel
      exact .inr ⟨current, pending, by simpa using hdel, hcur, hpend, h⟩

theorem retire_steps [Platform] (hw : s.ledger.Wf) (h : retire env r s = .ok (result, s')) :
    Steps env.databaseNow [.drop, .discard, .tombstone, .expedite, .record] s.ledger s'.ledger := by
  obtain rfl | ⟨d, doc, hd, ⟨hdel, h⟩ | ⟨current, pending, -, hcur, hpend, h⟩⟩ := retire_ok h
  · exact .none rfl
  · obtain ⟨⟨mid, _, hsteps, hrecord⟩, -⟩ := retireAgain_ok hw hd.get hdel h
    exact .trans (hsteps.mono (by simp)) ((upsertRetirementJob_steps hrecord).mono (by simp))
  · obtain ⟨mid, _, hsteps, hrecord⟩ := retireFirst_ok hw hd.get hcur hpend h
    exact .trans ((hsteps _).mono (by simp)) ((upsertRetirementJob_steps hrecord).mono (by simp))

theorem recordRetirementError_steps [Platform] {jobId tenantId errorCode : String}
    {row : DocumentRetirementJob}
    (h : recordRetirementError env jobId tenantId errorCode s = .ok (row, s')) :
    Steps clock [.record] s.ledger s'.ledger := by
  simp only [recordRetirementError, getRetirementJob, ok_rules] at h
  obtain ⟨_, _, old, hold, _, rfl⟩ := h
  rw [Option.filter_eq_some_iff] at hold
  rw [ledger_putRetirement]
  refine .single (.record ?_) (by simp)
  intro state hstate
  obtain ⟨old', hget, rfl⟩ := Option.map_eq_some_iff.mp hstate
  cases hold.1.symm.trans hget
  exact ⟨rfl, fun v hv => hv⟩

end SuperMew.Documents
