import SuperMew.Documents.Refinement.Shared
import SuperMew.Documents.Upload

/-! The reservation of a candidate as steps of the protocol. -/

namespace SuperMew.Documents

open Relational Catalog

variable {s s' : Catalog} {env : Env} {draws : Draws} {clock : Time} {u : Upload} {d : Id}
  {doc : Document}

/-! ## Inserts -/

variable {result : UploadReservation} {v : Id} {row : DocumentVersion}

theorem insertVersion_ok (h : insertVersion s v row = .ok s') :
    s.versions.get v = none ∧ s' = s.putVersion v row := by
  simp only [insertVersion, ok_rules, Table.insertNew_eq_ok] at h
  obtain ⟨_, _, _, _, versions, ⟨hfree, rfl⟩, rfl⟩ := h
  exact ⟨hfree, rfl⟩

theorem insertJob_ok {j : Id} {row : IndexJob} (h : insertJob s j row = .ok s') :
    s.jobs.get j = none ∧ s' = s.putJob j row := by
  simp only [insertJob, ok_rules, Table.insertNew_eq_ok] at h
  obtain ⟨_, _, jobs, ⟨hfree, rfl⟩, rfl⟩ := h
  exact ⟨hfree, rfl⟩

theorem insertDocument_ok {row : Document} (h : insertDocument s d row = .ok s') :
    s.documents.get d = none ∧ s' = s.putDocument d row := by
  simp only [insertDocument, ok_rules, Table.insertNew_eq_ok] at h
  obtain ⟨_, _, documents, ⟨hfree, rfl⟩, rfl⟩ := h
  exact ⟨hfree, rfl⟩

/-! ## The new candidate -/

/-- The old candidate, if there is one, is discarded before the new one is inserted. -/
theorem supersedePending_steps (hw : s.ledger.Wf) (hd : s.documents.get d = some doc)
    {oldPending : Option (Id × DocumentVersion)}
    (hold : versionByPointer s d doc.pendingVersionId = .ok oldPending)
    (h : supersedePending env draws oldPending s = .ok s') :
    Steps clock [.discard] s.ledger (s'.ledger.setDocument d { doc.state with pending := none }) := by
  obtain ⟨rfl, hnone⟩ | ⟨p, row, rfl, hsome, hrow, -⟩ := versionByPointer_ok hold
  · cases h
    have hsame : { doc.state with pending := none } = doc.state := by
      simp [Document.state, hnone]
    exact .none (by rw [hsame, Ledger.setDocument_self (ledger_document hd)])
  · have hself := Ledger.setDocument_self (ledger_document hd)
    have hstep : Step clock (.discard d p) (s.ledger.setDocument d doc.state) _ :=
      supersedeVersion_cancel (hself.symm ▸ hw) hsome hrow h
    rw [hself] at hstep
    exact .single hstep (by simp)

variable {matching : List (Id × DocumentVersion)}

theorem createCandidate_steps [Platform] (hw : s.ledger.Wf) (hd : s.documents.get d = some doc)
    (h : createCandidate env draws u d doc matching s = .ok (result, s')) :
    Steps clock [.discard, .reserve] s.ledger s'.ledger := by
  simp only [createCandidate, ok_rules] at h
  obtain ⟨_, _, oldPending, hold, s₁, hs₁, s₂, hs₂, s₃, hs₃, _, _, _, rfl⟩ := h
  obtain ⟨hv, rfl⟩ := insertVersion_ok hs₂
  obtain ⟨hj, rfl⟩ := insertJob_ok hs₃
  have hdiscard : Steps clock [.discard] s.ledger
      (s₁.ledger.setDocument d { doc.state with pending := none }) :=
    supersedePending_steps hw hd hold hs₁
  let mid := s₁.ledger.setDocument d { doc.state with pending := none }
  have hdoc : mid.documents d = some { doc.state with pending := none } := by simp [mid]
  have hfree : mid.versions draws.version = none := by simpa [mid, ledger] using hv
  have hnew : mid.jobs draws.job = none := by
    simpa [mid, ledger, putVersion, putDocument] using hj
  have hreserve : Step clock (.reserve d draws.version) mid _ := .reserve hdoc rfl hfree hnew
  simp only [mid, Ledger.setDocument_setDocument] at hreserve
  rw [ledger_bumpRevision, ledger_putJob, ledger_putDocument, ledger_putVersion]
  exact .trans (hdiscard.mono (by simp)) (.single hreserve (by simp))

/-! ## Requests that find their version -/

theorem mem_of_findVersion {pointer : Option Id}
    (h : findVersion matching pointer = some (v, row)) :
    (v, row) ∈ matching ∧ pointer = some v := by
  refine ⟨List.mem_of_find?_eq_some h, ?_⟩
  have hp := List.find?_some h
  exact (beq_iff_eq.mp hp).symm

theorem reuseCurrent_same (hw : s.ledger.Wf) [Platform] {version : DocumentVersion}
    (hv : s.versions.get v = some version)
    (h : reuseCurrent env draws u d doc v version s = .ok (result, s')) : s' = s := by
  obtain ⟨j, job, hfind, -⟩ := jobForVersion_some hw.jobs hv
  simp only [reuseCurrent, completedJob, hfind, ok_rules] at h
  obtain ⟨_, _, ⟨⟨_, _⟩, s₁⟩, ⟨_, _, _, rfl⟩, _, _, _, rfl⟩ := h
  rfl

theorem reserveFor_steps [Platform] (hw : s.ledger.Wf) (hd : s.documents.get d = some doc)
    (h : reserveFor env draws u d doc s = .ok (result, s')) :
    Steps clock [.discard, .reserve] s.ledger s'.ledger := by
  simp only [reserveFor] at h
  split at h
  · rename_i v version hfind
    obtain ⟨hmem, -⟩ := mem_of_findVersion hfind
    exact .none (by rw [reuseCurrent_same hw (Table.mem_select.mp hmem).1 h])
  · split at h
    · split at h
      · simp only [ok_rules] at h
        obtain ⟨_, _, _, rfl⟩ := h
        exact .none rfl
      · exact createCandidate_steps hw hd h
    · exact createCandidate_steps hw hd h

theorem documentByName_some {tenantId name : String} {kb : Option String}
    (h : documentByName s tenantId name kb = .ok (some (d, doc))) :
    s.documents.get d = some doc := by
  simp only [documentByName] at h
  split at h
  · simp at h
  · rename_i row hrows
    simp only [Except.ok.injEq, Option.some.injEq] at h
    subst h
    exact (Table.mem_select.mp (hrows ▸ List.mem_singleton_self _)).1
  · simp at h

theorem reserveAttempt_steps [Platform] (hw : s.ledger.Wf)
    (h : reserveAttempt env draws u s = .ok (result, s')) :
    Steps clock [.enlist, .discard, .reserve] s.ledger s'.ledger := by
  simp only [reserveAttempt, ok_rules] at h
  obtain ⟨_, _, found, hfound, h⟩ := h
  cases found with
  | some e =>
    obtain ⟨d, doc⟩ := e
    simp only [ok_rules] at h
    obtain ⟨_, _, h⟩ := h
    exact (reserveFor_steps hw (documentByName_some hfound) h).mono (by simp)
  | none =>
    simp only [ok_rules] at h
    obtain ⟨s₁, hs₁, h⟩ := h
    obtain ⟨hfree, rfl⟩ := insertDocument_ok hs₁
    have henlist : Steps clock [.enlist] s.ledger
        (s.putDocument draws.document (u.document env.utcnow)).ledger := by
      rw [ledger_putDocument]
      exact .single (.enlist (by simp [ledger, hfree])) (by simp)
    have hd : (s.putDocument draws.document (u.document env.utcnow)).documents.get draws.document =
        some (u.document env.utcnow) := by
      simp [putDocument, Table.get_put]
    exact .trans (henlist.mono (by simp)) ((reserveFor_steps (henlist.wf hw) hd h).mono (by simp))

theorem reserveUpload_steps [Platform] (hw : s.ledger.Wf) {r : UploadRequest}
    (h : reserveUpload env r s = .ok (result, s')) :
    Steps clock [.enlist, .discard, .reserve] s.ledger s'.ledger := by
  simp only [reserveUpload, ok_rules] at h
  obtain ⟨u, _, h⟩ := h
  split at h
  · split at h
    · simp at h
    · exact reserveAttempt_steps hw h
  · exact reserveAttempt_steps hw h

end SuperMew.Documents
