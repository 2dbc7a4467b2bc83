import SuperMew.Documents.Ledger

/-! The representation invariant of the publication protocol, and its preservation
by every step. -/

namespace SuperMew.Documents

open Relational Function DocumentVersionStatus

/-- What a version tells about the pointers of its document. -/
@[grind cases]
structure Filed (v : Id) (ver : VersionState) (doc : DocumentState) : Prop where
  number : ver.number ≤ doc.counter
  current : ver.status.phase = .ready → doc.current = some v
  pending : ver.status.phase = .candidate → doc.pending = some v

/-- What holds of a version by itself. -/
@[grind cases]
structure VersionState.Shape (ver : VersionState) (manifest : StoreKind → ℕ) : Prop where
  counts : ver.status = .staged ∨ ver.status = .ready →
    0 < ver.chunks ∧ manifest .vector = ver.chunks ∧ manifest .parent = ver.parents
  uncleaned : ver.status.phase ≠ .dead → ver.cleaned = false
  due : ver.status.phase = .dead → ver.due ≠ none

/-- What a job and its version agree on. -/
@[grind cases]
structure Agrees (job : JobState) (ver : VersionState) : Prop where
  building : ver.status.phase = .candidate ↔ job.status.terminal = false
  staged : ver.status = .staged ↔ job.status = .staged
  ready : ver.status = .ready → job.status = .completed
  released : job.status.terminal = true → job.lease.owner = none ∧ job.lease.expiresAt = none

variable {ver : VersionState}

theorem VersionState.Shape.dead {manifest : StoreKind → ℕ}
    (hdead : ver.status.phase = .dead) (hdue : ver.due ≠ none) : ver.Shape manifest where
  counts h := by grind -linarith
  uncleaned h := absurd hdead h
  due _ := hdue

theorem Agrees.dead {job : JobState} (hdead : ver.status.phase = .dead)
    (hterminal : job.status.terminal = true)
    (hreleased : job.lease.owner = none ∧ job.lease.expiresAt = none) : Agrees job ver where
  building := by simp [hdead, hterminal]
  staged := iff_of_false (ne_of_phase_dead hdead).1
    (IndexJobStatus.ne_staged_of_terminal hterminal)
  ready h := absurd h (ne_of_phase_dead hdead).2
  released _ := hreleased

structure Ledger.Wf (s : Ledger) : Prop where
  home : ∀ v ver, s.versions v = some ver → ∃ doc, s.documents ver.document = some doc
  current : ∀ d doc v, s.documents d = some doc → doc.current = some v →
    ∃ ver, s.versions v = some ver ∧ ver.document = d ∧ ver.status = .ready
  pending : ∀ d doc v, s.documents d = some doc → doc.pending = some v →
    ∃ ver, s.versions v = some ver ∧ ver.document = d ∧ ver.status.phase = .candidate ∧
      ver.number = doc.counter
  deleted : ∀ d doc, s.documents d = some doc → doc.deleted = true →
    doc.current = none ∧ doc.pending = none
  filed : ∀ v ver doc, s.versions v = some ver → s.documents ver.document = some doc →
    Filed v ver doc
  shape : ∀ v ver, s.versions v = some ver → ver.Shape (s.manifest v)
  jobs : Attached JobState.version s.jobs fun v => s.versions v ≠ none
  agrees : ∀ j job ver, s.jobs j = some job → s.versions job.version = some ver → Agrees job ver
  fence : ∀ j job ver doc, s.jobs j = some job → s.versions job.version = some ver →
    ver.status.phase = .candidate → s.documents ver.document = some doc → job.fence = doc.fence
  cleanups : Attached CleanupState.version s.cleanups fun v =>
    ∃ ver, s.versions v = some ver ∧ ver.status.phase = .dead
  swept : ∀ c row ver, s.cleanups c = some row → s.versions row.version = some ver →
    (row.status = .completed ↔ ver.cleaned = true)

variable {job' : JobState} {count : StoreKind → ℕ} {doc' : DocumentState} {ver' : VersionState}

namespace Ledger.Wf

variable {s s' : Ledger} {d v j c : Id} {doc : DocumentState} {job : JobState} {now due : Time}

/-! ## Rows that belong together -/

theorem current_version (h : s.Wf) (hd : s.documents d = some doc) (hc : doc.current = some v)
    (hv : s.versions v = some ver) : ver.document = d ∧ ver.status = .ready := by
  obtain ⟨ver', hv', hdoc, hr⟩ := h.current d doc v hd hc
  obtain rfl := Option.mem_unique hv hv'
  exact ⟨hdoc, hr⟩

theorem pending_version (h : s.Wf) (hd : s.documents d = some doc) (hp : doc.pending = some v)
    (hv : s.versions v = some ver) :
    ver.document = d ∧ ver.status.phase = .candidate ∧ ver.number = doc.counter := by
  obtain ⟨ver', hv', hdoc, hr, hn⟩ := h.pending d doc v hd hp
  obtain rfl := Option.mem_unique hv hv'
  exact ⟨hdoc, hr, hn⟩

theorem current_ne_pending (h : s.Wf) {p : Id} (hd : s.documents d = some doc)
    (hc : doc.current = some p) (hp : doc.pending = some v) : p ≠ v := by
  rintro rfl
  obtain ⟨ver, hv, -, hready⟩ := h.current d doc p hd hc
  obtain ⟨-, hcand, -⟩ := h.pending_version hd hp hv
  simp [hready, phase] at hcand

/-! ## Steps of a document -/

theorem setEmpty (h : s.Wf) (hc : doc.current = none) (hp : doc.pending = none)
    (hd : ∀ old, s.documents d = some old →
      old.current = none ∧ old.pending = none ∧ old.counter ≤ doc.counter) :
    (s.setDocument d doc).Wf := by
  constructor <;> simp only [setDocument]
  case home =>
    intro v ver hv
    obtain ⟨doc', hdoc⟩ := h.home v ver hv
    by_cases hvd : ver.document = d
    · exact ⟨_, by rw [hvd, update_self]⟩
    · exact ⟨doc', by simp [hvd, hdoc]⟩
  case current =>
    intro d' doc' v hdoc hcur
    have := h.current d' doc' v
    grind -linarith
  case pending =>
    intro d' doc' v hdoc hpen
    have := h.pending d' doc' v
    grind -linarith
  case deleted =>
    intro d' doc' hdoc hx
    have := h.deleted d' doc'
    grind -linarith
  case filed =>
    intro v ver doc' hv hdoc
    obtain ⟨old, hold⟩ := h.home v ver hv
    have := h.filed v ver old hv hold
    constructor <;> grind -linarith
  case fence =>
    intro j job ver doc' hj hv hcand hdoc
    obtain ⟨old, hold⟩ := h.home _ ver hv
    have := h.fence j job ver old hj hv hcand
    have := h.filed _ ver old hv hold
    grind -linarith
  all_goals first | exact h.shape | exact h.jobs | exact h.agrees | exact h.cleanups | exact h.swept

/-! ## Steps of a version -/

/-- What the rows of version `v` say after they are written over a document `doc`. -/
@[grind cases]
structure Fits (v : Id) (doc doc' : DocumentState) (ver : VersionState) (job : JobState)
    (count : StoreKind → ℕ) : Prop where
  filed : Filed v ver doc'
  current : ∀ w, doc'.current = some w → w = v ∧ ver.status = .ready ∨ w ≠ v ∧ doc.current = some w
  pending : ∀ w, doc'.pending = some w →
    w = v ∧ ver.status.phase = .candidate ∧ ver.number = doc'.counter ∨
      w ≠ v ∧ doc.pending = some w ∧ doc'.counter = doc.counter
  kept : ∀ w ≠ v, (doc.current = some w → doc'.current = some w) ∧
    (doc.pending = some w → doc'.pending = some w ∧ doc'.fence = doc.fence)
  counter : doc.counter ≤ doc'.counter
  deleted : doc'.deleted = true → doc'.current = none ∧ doc'.pending = none
  shape : ver.Shape count
  version : job.version = v
  agrees : Agrees job ver
  fence : ver.status.phase = .candidate → job.fence = doc'.fence

section Fits

variable {count' : StoreKind → ℕ} (hold : Fits v doc doc ver job count)

include hold

/-- The version stays in its phase, and its document as it is. -/
theorem Fits.keep (hphase : ver'.status.phase = ver.status.phase)
    (hnumber : ver'.number = ver.number)
    (hjob : job'.version = job.version ∧ job'.fence = job.fence) (hshape : ver'.Shape count')
    (hagrees : Agrees job' ver') : Fits v doc doc ver' job' count' where
  filed := ⟨hnumber ▸ hold.filed.number, hphase ▸ hold.filed.current, hphase ▸ hold.filed.pending⟩
  current w hw := by
    simpa only [← phase_ready, hphase] using hold.current w hw
  pending w hw := by simpa only [hphase, hnumber] using hold.pending w hw
  kept := hold.kept
  counter := le_rfl
  deleted := hold.deleted
  shape := hshape
  version := hjob.1.trans hold.version
  agrees := hagrees
  fence hcand := hjob.2.trans (hold.fence (hphase ▸ hcand))

/-- The version dies, and its document only loses the pointers to it. -/
theorem Fits.bury (hcurrent : ∀ w, doc'.current = some w ↔ w ≠ v ∧ doc.current = some w)
    (hpending : ∀ w, doc'.pending = some w ↔ w ≠ v ∧ doc.pending = some w)
    (hdoc : doc'.fence = doc.fence ∧ doc'.counter = doc.counter ∧ doc'.deleted = doc.deleted)
    (hdead : ver'.status.phase = .dead) (hdue : ver'.due ≠ none)
    (hnumber : ver'.number = ver.number)
    (hversion : job'.version = job.version) (hagrees : Agrees job' ver') :
    Fits v doc doc' ver' job' count' where
  filed := ⟨by simpa [hnumber, hdoc.2.1] using hold.filed.number, by simp [hdead], by simp [hdead]⟩
  current w hw := .inr ((hcurrent w).mp hw)
  pending w hw := .inr ⟨((hpending w).mp hw).1, ((hpending w).mp hw).2, hdoc.2.1⟩
  kept w hw := ⟨fun h => (hcurrent w).mpr ⟨hw, h⟩, fun h => ⟨(hpending w).mpr ⟨hw, h⟩, hdoc.1⟩⟩
  counter := hdoc.2.1.ge
  deleted h := by
    obtain ⟨hc, hp⟩ := hold.deleted (hdoc.2.2 ▸ h)
    exact ⟨Option.eq_none_iff_forall_ne_some.mpr (by simp [hcurrent, hc]),
      Option.eq_none_iff_forall_ne_some.mpr (by simp [hpending, hp])⟩
  shape := .dead hdead hdue
  version := hversion.trans hold.version
  agrees := hagrees
  fence hcand := by simp [hdead] at hcand

end Fits

/-- The dead versions have their cleanups, which are complete for the cleaned ones. -/
def Cleaned (versions : Id → Option VersionState) (cleanups : Id → Option CleanupState) : Prop :=
  Attached CleanupState.version cleanups
      (fun v => ∃ ver, versions v = some ver ∧ ver.status.phase = .dead) ∧
    ∀ c row ver, cleanups c = some row → versions row.version = some ver →
      (row.status = .completed ↔ ver.cleaned = true)

section Write

variable (h : s.Wf)

include h

/-- The rows of a version fit as they are. -/
theorem fits (hd : s.documents ver.document = some doc) (hv : s.versions v = some ver)
    (hj : s.jobs j = some job) (hversion : job.version = v) :
    Fits v doc doc ver job (s.manifest v) := by
  have hagrees := h.agrees j job ver hj (hversion ▸ hv)
  refine ⟨h.filed v ver doc hv hd, fun w hw => ?_, fun w hw => ?_, fun w _ => ⟨id, by simp⟩, le_rfl,
    h.deleted _ doc hd, h.shape v ver hv, hversion, hagrees, fun hcand => ?_⟩
  · have hcurrent : s.versions w = some ver → _ := h.current_version hd hw
    grind -linarith
  · have hpending : s.versions w = some ver → _ := h.pending_version hd hw
    grind -linarith
  · exact h.fence j job ver doc hj (hversion ▸ hv) hcand hd

theorem jobs_replace (hj : s.jobs j = some job) (hv : s.versions v = some ver)
    (hversion : job'.version = job.version) :
    Attached JobState.version (update s.jobs j (some job'))
      fun k => update s.versions v (some ver') k ≠ none := by
  refine (h.jobs.replace job' hj hversion).congr fun k => ?_
  by_cases hk : k = v <;> simp [hk, hv]

theorem cleanups_alive (hv : ∀ ver, s.versions v = some ver → ver.status.phase ≠ .dead)
    (hv' : ver'.status.phase ≠ .dead) : Cleaned (update s.versions v (some ver')) s.cleanups := by
  refine ⟨h.cleanups.congr fun k => by grind -linarith, fun c row ver hc hver => ?_⟩
  have := h.swept c row ver hc
  have := h.cleanups.sound c row hc
  grind -linarith

theorem cleanups_buried (hv : s.versions v = some ver) (halive : ver.status.phase ≠ .dead)
    (hdead : ver'.status.phase = .dead) (hclean : ver'.cleaned = false) (hc : s.cleanups c = none) :
    Cleaned (update s.versions v (some ver')) (update s.cleanups c (some ⟨v, .pending⟩)) := by
  refine ⟨(h.cleanups.insert hc (by grind -linarith)).congr fun k => by grind -linarith,
    fun i row ver hi hver => ?_⟩
  have := h.swept i row ver
  have := h.cleanups.sound
  grind -linarith

/-- A document and one of its versions may change together, with the job of the version. -/
theorem write (hd : s.documents d = some doc)
    (hdocuments : s'.documents = update s.documents d (some doc'))
    (hversions : s'.versions = update s.versions v (some ver'))
    (hjobs : s'.jobs = update s.jobs j (some job'))
    (hmanifest : s'.manifest = update s.manifest v count)
    (hv : ∀ ver, s.versions v = some ver → ver.document = d) (hver' : ver'.document = d)
    (hfits : Fits v doc doc' ver' job' count)
    (hattached : Attached JobState.version s'.jobs fun v => s'.versions v ≠ none)
    (hcleanups : Cleaned s'.versions s'.cleanups) : s'.Wf := by
  have hothers : ∀ i job, s'.jobs i = some job → i ≠ j → job.version ≠ v := by
    intro i job hi hij hversion
    refine hij (hattached.unique i j job job' hi (by simp [hjobs]) ?_)
    rw [hversion, hfits.version]
  constructor
  case jobs => exact hattached
  case cleanups => exact hcleanups.1
  case swept => exact hcleanups.2
  all_goals try simp only [hversions, hdocuments]
  case home =>
    intro w ver hw
    have := h.home w ver
    by_cases hwd : ver.document = d
    · exact ⟨doc', by rw [hwd, update_self]⟩
    · simp only [update_of_ne hwd]
      grind -linarith
  case current =>
    intro d' doc'' w hdoc hcurrent
    have := h.current d' doc'' w
    have := h.current d doc w
    by_cases hwv : w = v
    · exact ⟨ver', by rw [hwv, update_self], by grind -linarith⟩
    · simp only [update_of_ne hwv]
      grind -linarith
  case pending =>
    intro d' doc'' w hdoc hpending
    have := h.pending d' doc'' w
    have := h.pending d doc w
    by_cases hwv : w = v
    · exact ⟨ver', by rw [hwv, update_self], by grind -linarith⟩
    · simp only [update_of_ne hwv]
      grind -linarith
  case deleted =>
    intro d' doc'' hdoc hdeleted
    have := h.deleted d' doc''
    grind -linarith
  case filed =>
    intro w ver doc'' hw hdoc
    have := h.filed w ver doc''
    have := h.filed w ver doc
    constructor <;> grind -linarith
  case shape =>
    intro w ver hw
    rw [hmanifest]
    by_cases hwv : w = v
    · subst hwv
      rw [update_self] at hw ⊢
      cases hw
      exact hfits.shape
    · rw [update_of_ne hwv] at hw ⊢
      exact h.shape w ver hw
  case agrees =>
    intro i job ver hi hw
    have := hothers i job hi
    have := h.agrees i job ver
    rw [hjobs] at hi
    grind -linarith
  case fence =>
    intro i job ver doc'' hi hw hphase hdoc
    have := hothers i job hi
    have := h.fence i job ver
    have := h.filed job.version ver doc
    rw [hjobs] at hi
    grind -linarith

end Write

theorem unwritten {α : Type} {f : Id → Option α} {k : Id} {x : α} (h : f k = some x) :
    f = update f k (some x) := by
  rw [← h, update_eq_self]

theorem reserve (h : s.Wf) (hs : Step now (.reserve d v) s s') : s'.Wf := by
  cases hs with
  | @reserve _ _ _ j doc hd hp hv hj =>
    have hcand : uploaded.phase = .candidate := rfl
    have hcurrent : doc.current ≠ some v := by
      have := h.current d doc v hd
      grind -linarith
    refine h.write hd rfl rfl rfl (update_eq_self ..).symm (by simp [hv]) rfl ?_ ?_
      (h.cleanups_alive (by simp [hv]) (by simp [hcand]))
    · exact
        { filed := ⟨le_rfl, by simp [hcand], fun _ => rfl⟩
          current := fun w hw => .inr ⟨by rintro rfl; exact hcurrent hw, hw⟩
          pending := fun w hw => .inl ⟨(Option.some.inj hw).symm, hcand, rfl⟩
          kept := fun w _ => ⟨id, by simp [hp]⟩
          counter := Nat.le_succ _
          deleted := by simp
          shape := ⟨by simp, by simp, by simp [hcand]⟩
          version := rfl
          agrees := ⟨by simp [hcand, IndexJobStatus.terminal], by simp, by simp,
            by simp [IndexJobStatus.terminal]⟩
          fence := fun _ => rfl }
    · refine (h.jobs.insert hj (by simpa using hv)).congr fun k => ?_
      by_cases hk : k = v <;> simp [hk]

/-- The job and the version of a candidate may change together. -/
theorem rework (h : s.Wf) {stage : VersionState}
    (hj : s.jobs j = some job) (hv : s.versions job.version = some ver)
    (hb : Building job.status ver.status) (hb' : Building job'.status stage.status)
    (hver : stage.document = ver.document ∧ stage.number = ver.number ∧
      stage.cleaned = ver.cleaned) (hjob : job'.version = job.version ∧ job'.fence = job.fence)
    (hcount : stage.status = .staged →
      0 < stage.chunks ∧ count .vector = stage.chunks ∧ count .parent = stage.parents) :
    (((s.setManifest job.version count).setVersion job.version stage).setJob j job').Wf := by
  obtain ⟨hopen, hcand, -⟩ := hb
  obtain ⟨hopen', hcand', hstaged'⟩ := hb'
  obtain ⟨doc, hd⟩ := h.home _ _ hv
  have hold := h.fits hd hv hj rfl
  refine h.write hd (unwritten hd) rfl rfl rfl (by simp [hv])
    hver.1 ?_ (h.jobs_replace hj hv hjob.1)
    (h.cleanups_alive (by simp [hv, hcand]) (by simp [hcand']))
  refine hold.keep (hcand'.trans hcand.symm) hver.2.1 hjob ⟨fun hcounts => ?_, fun _ => ?_, ?_⟩
    ⟨by simp [hcand', hopen'], hstaged', fun hready => ?_, by simp [hopen']⟩
  · exact hcount (hcounts.resolve_right (ne_of_phase_candidate hcand'))
  · rw [hver.2.2]
    exact hold.shape.uncleaned (by simp [hcand])
  · simp [hcand']
  · exact absurd hready (ne_of_phase_candidate hcand')

/-- The case of `rework` in which the manifest is kept. -/
theorem advance (h : s.Wf) {status : IndexJobStatus} {stage : DocumentVersionStatus}
    {lease : Lease.Register String} (hj : s.jobs j = some job)
    (hv : s.versions job.version = some ver) (hb : Building job.status ver.status)
    (hb' : Building status stage) (hstaged : stage = .staged → ver.status = .staged) :
    ((s.setVersion job.version { ver with status := stage }).setJob j
      { job with status := status, lease := lease }).Wf := by
  have hself : s.setManifest job.version (s.manifest job.version) = s := by simp [setManifest]
  have hw : (((s.setManifest job.version (s.manifest job.version)).setVersion job.version
      { ver with status := stage }).setJob j { job with status := status, lease := lease }).Wf :=
    h.rework hj hv hb hb' ⟨rfl, rfl, rfl⟩ ⟨rfl, rfl⟩ fun hst =>
      (h.shape _ _ hv).counts (.inl (hstaged hst))
  rwa [hself] at hw

theorem discard (h : s.Wf) (hs : Step now (.discard d v) s s') : s'.Wf := by
  cases hs with
  | discard hd hp hv hj hjv hc hs ho =>
    obtain ⟨hvd, hcand, hnum⟩ := h.pending_version hd hp hv
    subst hjv
    refine h.write hd rfl rfl rfl (update_eq_self ..).symm (by simp [hv, hvd]) hvd ?_
      (h.jobs_replace hj hv rfl) (h.cleanups_buried hv (by simp [hcand]) hs rfl hc)
    refine (h.fits (hvd.symm ▸ hd) hv hj rfl).bury (fun w => ?_) (by simp [hp, eq_comm])
      ⟨rfl, rfl, rfl⟩ hs (by simp) rfl rfl (.dead hs ho ⟨rfl, rfl⟩)
    refine ⟨fun hw => ⟨h.current_ne_pending hd hw hp, hw⟩, And.right⟩

theorem promote (h : s.Wf) (hs : Step now (.promote d v) s s') : s'.Wf := by
  cases hs with
  | promote hd hc hp hv hs hj hjv =>
    obtain ⟨hvd, hcand, hnum⟩ := h.pending_version hd hp hv
    have hready : ready.phase = .ready := rfl
    have hdone : IndexJobStatus.completed.terminal = true := rfl
    subst hjv
    refine h.write hd rfl rfl rfl (update_eq_self ..).symm (by simp [hv, hvd]) hvd ?_
      (h.jobs_replace hj hv rfl) (h.cleanups_alive (by simp [hv, hcand]) (by simp [hready]))
    have hold := h.fits (hvd.symm ▸ hd) hv hj rfl
    exact
      { filed := ⟨hold.filed.number, fun _ => rfl, by simp [hready]⟩
        current := fun w hw => .inl ⟨(Option.some.inj hw).symm, rfl⟩
        pending := by simp
        kept := fun w hw =>
          ⟨by simp [hc], fun hw' => absurd (hp.symm.trans hw') (by simp [hw.symm])⟩
        counter := le_rfl
        deleted := fun hdeleted => absurd (hold.deleted hdeleted).2 (by simp [hp])
        shape := ⟨fun _ => hold.shape.counts (.inl hs), fun _ => rfl, by simp [hready]⟩
        version := rfl
        agrees := ⟨by simp [hready, JobState.release, hdone], by simp [JobState.release],
          fun _ => rfl, fun _ => ⟨rfl, rfl⟩⟩
        fence := by simp [hready] }

/-! ## Steps of a dead version -/

theorem drop (h : s.Wf) (hs : Step now (.drop d v due) s s') : s'.Wf := by
  cases hs with
  | @drop _ _ _ c doc ver _ hd hcur hv hc =>
    obtain ⟨hvd, hready⟩ := h.current_version hd hcur hv
    have hdead : superseded.phase = .dead := rfl
    obtain ⟨j, job, hj, rfl⟩ := h.jobs.total v (by simp [hv])
    have hphase : ver.status.phase = .ready := by simp [hready]
    have hold := h.fits (hvd.symm ▸ hd) hv hj rfl
    refine h.write hd rfl rfl (unwritten hj) (update_eq_self ..).symm (by simp [hv, hvd])
      hvd ?_ ((unwritten hj : s.jobs = _) ▸ h.jobs_replace hj hv rfl)
      (h.cleanups_buried hv (by simp [hphase]) hdead (hold.shape.uncleaned (by simp [hphase])) hc)
    have hterminal : job.status.terminal = true := by
      rw [hold.agrees.ready hready]
      rfl
    refine hold.bury (by simp [hcur, eq_comm]) (fun w => ?_) ⟨rfl, rfl, rfl⟩ hdead (by simp) rfl rfl
      (.dead hdead hterminal (hold.agrees.released hterminal))
    exact ⟨fun hw => ⟨(h.current_ne_pending hd hcur hw).symm, hw⟩, And.right⟩

theorem tend (h : s.Wf) {row : CleanupState} {status : CleanupJobStatus} {due : Option Time}
    {cleaned : Bool} (hs : status = .completed ↔ cleaned = true) (hdue : due ≠ none)
    (hc : s.cleanups c = some row) (hv : s.versions row.version = some ver) :
    ((s.setVersion row.version { ver with due := due, cleaned := cleaned }).setCleanup c
      { row with status := status }).Wf := by
  obtain ⟨ver', hv', hdead⟩ := h.cleanups.sound c row hc
  obtain rfl := Option.mem_unique hv hv'
  obtain ⟨doc, hd⟩ := h.home _ _ hv
  obtain ⟨j, job, hj, hjv⟩ := h.jobs.total row.version (by simp [hv])
  refine h.write hd (unwritten hd) rfl (unwritten hj) (update_eq_self ..).symm
    (by simp [hv]) rfl ?_ ((unwritten hj : s.jobs = _) ▸ h.jobs_replace hj hv rfl) ?_
  · have hold := h.fits hd hv hj hjv
    have hterminal : job.status.terminal = true := by simpa [hdead] using hold.agrees.building
    exact hold.keep rfl rfl ⟨rfl, rfl⟩ (.dead hdead hdue)
      (.dead hdead hterminal (hold.agrees.released hterminal))
  · simp only [setVersion, setCleanup]
    refine ⟨(h.cleanups.replace { row with status := status } hc rfl).congr fun k => by
      grind -linarith, fun i row' ver' hi hw => ?_⟩
    have := h.swept i row' ver'
    have := h.cleanups.unique i c row' row
    grind -linarith

theorem clean (h : s.Wf) (hs : Step now (.clean v) s s') : s'.Wf := by
  cases hs with
  | @clean _ c row _ _ _ hc hv hs =>
    obtain ⟨ver', hv', hdead⟩ := h.cleanups.sound c row hc
    obtain rfl := Option.mem_unique hv hv'
    exact h.tend hs ((h.shape _ _ hv).due hdead) hc hv

theorem expedite (h : s.Wf) {due : Time} (hv : s.versions v = some ver)
    (hdead : ver.status.phase = .dead) : (s.setVersion v { ver with due := some due }).Wf := by
  obtain ⟨c, row, hc, rfl⟩ := h.cleanups.total v ⟨ver, hv, hdead⟩
  have hw := h.tend (h.swept c row ver hc hv) (by simp : some due ≠ none) hc hv
  have hsame : update s.cleanups c (some row) = s.cleanups := by
    rw [← hc, update_eq_self]
  simpa only [setVersion, setCleanup, hsame] using hw

theorem record (h : s.Wf) {r : String} {row : RetirementState} : (s.setRetirement r row).Wf :=
  ⟨h.home, h.current, h.pending, h.deleted, h.filed, h.shape, h.jobs, h.agrees, h.fence,
    h.cleanups, h.swept⟩

end Ledger.Wf

/-! ## Every step -/

def Ledger.empty : Ledger :=
  ⟨fun _ => none, fun _ => none, fun _ => none, fun _ => none, fun _ => none, fun _ _ => 0⟩

theorem Ledger.wf_empty : Ledger.empty.Wf := by
  constructor
  case jobs => constructor <;> simp [empty]
  case cleanups => constructor <;> simp [empty]
  all_goals simp [empty]

theorem Step.wf {now : Time} {a : Action} {s s' : Ledger} (hs : Step now a s s') (h : s.Wf) :
    s'.Wf := by
  cases a with
  | reserve d v => exact h.reserve hs
  | discard d v => exact h.discard hs
  | drop d v due => exact h.drop hs
  | promote d v => exact h.promote hs
  | clean v => exact h.clean hs
  | enlist d =>
    obtain ⟨hd⟩ := hs
    exact h.setEmpty rfl rfl (by simp [hd])
  | hold j =>
    cases hs with
    | hold hj hv hb hb' hstaged => exact h.advance hj hv hb hb' hstaged
    | stage hj hv hb hc =>
      exact h.rework hj hv hb ⟨rfl, rfl, by simp⟩ ⟨rfl, rfl, rfl⟩ ⟨rfl, rfl⟩ fun _ => ⟨hc, rfl, rfl⟩
  | acquire j worker =>
    cases hs with
    | acquire hj hv hb hb' hstaged => exact h.advance hj hv hb hb' hstaged
  | tombstone d =>
    cases hs with
    | tombstone hd hc hp =>
      refine h.setEmpty hc hp fun old hold => ?_
      obtain rfl := Option.mem_unique hd hold
      exact ⟨hc, hp, le_rfl⟩
  | expedite v =>
    cases hs with
    | expedite hv _ _ hdead => exact h.expedite hv hdead
  | record r =>
    cases hs with
    | record => exact h.record

theorem Steps.wf {now : Time} {kinds : List Kind} {s s' : Ledger}
    (hs : Steps now kinds s s') (h : s.Wf) : s'.Wf :=
  hs.preserves h fun _ _ ha => ha.wf

end SuperMew.Documents
