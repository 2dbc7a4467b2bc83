import SuperMew.Documents.Model
import SuperMew.Library.Lease
import Mathlib.Logic.Relation
import Mathlib.Tactic.Simps.Basic

/-! The publication protocol without its tables: documents with a published version
and a candidate, the job that builds each version, and the cleanup of dead versions.
The catalog operations are shown elsewhere to be sequences of these steps. -/

namespace SuperMew.Documents

open Function

/-- A version is being built, published, or dead and waiting for its cleanup. -/
inductive Phase where
  | candidate
  | ready
  | dead
  deriving DecidableEq, Repr

def DocumentVersionStatus.phase : DocumentVersionStatus → Phase
  | uploaded | parsing | indexing | staged => .candidate
  | ready => .ready
  | failed | superseded => .dead

variable {status : DocumentVersionStatus}

@[simp, grind =] theorem DocumentVersionStatus.phase_ready :
    status.phase = .ready ↔ status = .ready := by
  cases status <;> simp [phase]

theorem DocumentVersionStatus.phase_candidate :
    status.phase = .candidate ↔ status ∈ [.uploaded, .parsing, .indexing, .staged] := by
  cases status <;> simp [phase]

theorem DocumentVersionStatus.phase_dead :
    status.phase = .dead ↔ status = .failed ∨ status = .superseded := by
  cases status <;> simp [phase]

@[grind →] theorem DocumentVersionStatus.ne_of_phase_dead
    (h : status.phase = .dead) : status ≠ .staged ∧ status ≠ .ready := by
  cases status <;> simp_all [phase]

@[grind →] theorem DocumentVersionStatus.ne_of_phase_candidate
    (h : status.phase = .candidate) : status ≠ .ready := by
  rintro rfl
  simp [phase] at h

variable {status : IndexJobStatus}

@[grind →] theorem IndexJobStatus.ne_staged_of_terminal
    (h : status.terminal = true) : status ≠ .staged := by
  rintro rfl
  simp [terminal] at h

structure DocumentState where
  current : Option Id
  pending : Option Id
  fence : ℕ
  counter : ℕ
  deleted : Bool

structure VersionState where
  document : Id
  number : ℕ
  status : DocumentVersionStatus
  chunks : ℕ
  parents : ℕ
  due : Option Time
  cleaned : Bool

structure JobState where
  version : Id
  status : IndexJobStatus
  fence : ℕ
  lease : Lease.Register String

structure CleanupState where
  version : Id
  status : CleanupJobStatus

structure RetirementState where
  document : Id
  versions : List Id

structure Ledger where
  documents : Id → Option DocumentState
  versions : Id → Option VersionState
  jobs : Id → Option JobState
  cleanups : Id → Option CleanupState
  retirements : String → Option RetirementState
  /-- How many chunks of a store the manifest of a version lists. -/
  manifest : Id → StoreKind → ℕ

variable {doc : DocumentState}

namespace Ledger

variable (s : Ledger)

@[simps]
def setDocument (d : Id) (doc : DocumentState) : Ledger :=
  { s with documents := update s.documents d (some doc) }

@[simps]
def setVersion (v : Id) (ver : VersionState) : Ledger :=
  { s with versions := update s.versions v (some ver) }

@[simps]
def setJob (j : Id) (job : JobState) : Ledger :=
  { s with jobs := update s.jobs j (some job) }

@[simps]
def setCleanup (c : Id) (row : CleanupState) : Ledger :=
  { s with cleanups := update s.cleanups c (some row) }

@[simps]
def setRetirement (r : String) (row : RetirementState) : Ledger :=
  { s with retirements := update s.retirements r (some row) }

@[simps]
def setManifest (v : Id) (count : StoreKind → ℕ) : Ledger :=
  { s with manifest := update s.manifest v count }

@[simp] theorem setDocument_setDocument (d : Id) (x y : DocumentState) :
    (s.setDocument d x).setDocument d y = s.setDocument d y := by
  simp [setDocument]

variable {s}

theorem setDocument_self {d : Id} (h : s.documents d = some doc) : s.setDocument d doc = s := by
  simp [setDocument, ← h, update_eq_self]

theorem setVersion_self {v : Id} {ver : VersionState} (h : s.versions v = some ver) :
    s.setVersion v ver = s := by
  simp [setVersion, ← h, update_eq_self]

end Ledger

/-! ## Steps -/

inductive Action where
  | enlist (d : Id)
  | reserve (d v : Id)
  | hold (j : Id)
  | acquire (j : Id) (worker : String)
  | discard (d v : Id)
  | drop (d v : Id) (due : Time)
  | promote (d v : Id)
  | tombstone (d : Id)
  | clean (v : Id)
  | expedite (v : Id)
  | record (r : String)

inductive Kind where
  | enlist
  | reserve
  | hold
  | acquire
  | discard
  | drop
  | promote
  | tombstone
  | clean
  | expedite
  | record
  deriving DecidableEq, Repr

@[simp] def Action.kind : Action → Kind
  | enlist _ => .enlist
  | reserve _ _ => .reserve
  | hold _ => .hold
  | acquire _ _ => .acquire
  | discard _ _ => .discard
  | drop _ _ _ => .drop
  | promote _ _ => .promote
  | tombstone _ => .tombstone
  | clean _ => .clean
  | expedite _ => .expedite
  | record _ => .record

namespace JobState

/-- The lease given up. -/
def release (job : JobState) (status : IndexJobStatus) : JobState :=
  { job with status := status, lease := { job.lease with owner := none, expiresAt := none } }

end JobState

/-- A job and its version may be in these statuses while the version is built. -/
structure Building (status : IndexJobStatus) (stage : DocumentVersionStatus) : Prop where
  open_job : status.terminal = false
  candidate : stage.phase = .candidate
  staged : stage = .staged ↔ status = .staged

/-- One step of the protocol at clock `now`. -/
inductive Step (now : Time) : Action → Ledger → Ledger → Prop where
  | enlist {s : Ledger} {d : Id} : s.documents d = none →
      Step now (.enlist d) s (s.setDocument d ⟨none, none, 0, 0, false⟩)
  | reserve {s : Ledger} {d v j : Id} {doc : DocumentState} : s.documents d = some doc →
      doc.pending = none → s.versions v = none → s.jobs j = none →
      Step now (.reserve d v) s (((s.setDocument d
        { doc with
          pending := some v
          fence := doc.fence + 1
          counter := doc.counter + 1
          deleted := false }).setVersion v
        ⟨d, doc.counter + 1, .uploaded, 0, 0, none, false⟩).setJob j
        ⟨v, .pending, doc.fence + 1, ⟨none, 0, none⟩⟩)
  | hold {s : Ledger} {j : Id} {job : JobState} {ver : VersionState} {status : IndexJobStatus}
      {stage : DocumentVersionStatus} {lease : Lease.Register String} : s.jobs j = some job →
      s.versions job.version = some ver → Building job.status ver.status →
      Building status stage → (stage = .staged → ver.status = .staged) →
      job.lease.Step now lease → lease.fence = job.lease.fence →
      Step now (.hold j) s ((s.setVersion job.version { ver with status := stage }).setJob j
        { job with status := status, lease := lease })
  | stage {s : Ledger} {j : Id} {job : JobState} {ver : VersionState} {count : StoreKind → ℕ} :
      s.jobs j = some job → s.versions job.version = some ver →
      Building job.status ver.status → 0 < count .vector →
      Step now (.hold j) s (((s.setManifest job.version count).setVersion job.version
        { ver with status := .staged, chunks := count .vector, parents := count .parent }).setJob j
        { job with status := .staged })
  | acquire {s : Ledger} {j : Id} {job : JobState} {ver : VersionState} {status : IndexJobStatus}
      {stage : DocumentVersionStatus} {worker : String} {expiry : Time} : s.jobs j = some job →
      s.versions job.version = some ver → Building job.status ver.status →
      Building status stage → (stage = .staged → ver.status = .staged) → job.lease.Free now →
      Step now (.acquire j worker) s
        ((s.setVersion job.version { ver with status := stage }).setJob j
          { job with
            status := status
            lease := ⟨some worker, job.lease.fence + 1, some expiry⟩ })
  | discard {s : Ledger} {d v j c : Id} {doc : DocumentState} {ver : VersionState} {job : JobState}
      {status : DocumentVersionStatus} {outcome : IndexJobStatus} {due : Time} :
      s.documents d = some doc → doc.pending = some v → s.versions v = some ver →
      s.jobs j = some job → job.version = v → s.cleanups c = none →
      status.phase = .dead → outcome.terminal = true →
      Step now (.discard d v) s ((((s.setDocument d { doc with pending := none }).setVersion v
        { ver with status := status, due := some due, cleaned := false }).setJob j
        (job.release outcome)).setCleanup c ⟨v, .pending⟩)
  | drop {s : Ledger} {d v c : Id} {doc : DocumentState} {ver : VersionState} {due : Time} :
      s.documents d = some doc → doc.current = some v → s.versions v = some ver →
      s.cleanups c = none →
      Step now (.drop d v due) s (((s.setDocument d { doc with current := none }).setVersion v
        { ver with status := .superseded, due := some due }).setCleanup c ⟨v, .pending⟩)
  | promote {s : Ledger} {d v j : Id} {doc : DocumentState} {ver : VersionState} {job : JobState} :
      s.documents d = some doc → doc.current = none → doc.pending = some v →
      s.versions v = some ver → ver.status = .staged → s.jobs j = some job → job.version = v →
      Step now (.promote d v) s (((s.setDocument d
        { doc with current := some v, pending := none }).setVersion v
        { ver with status := .ready, due := none, cleaned := false }).setJob j
        (job.release .completed))
  | tombstone {s : Ledger} {d : Id} {doc : DocumentState} : s.documents d = some doc →
      doc.current = none → doc.pending = none →
      Step now (.tombstone d) s
        (s.setDocument d { doc with fence := doc.fence + 1, deleted := true })
  | clean {s : Ledger} {c : Id} {row : CleanupState} {ver : VersionState}
      {status : CleanupJobStatus} {cleaned : Bool} : s.cleanups c = some row →
      s.versions row.version = some ver → (status = .completed ↔ cleaned = true) →
      (ver.cleaned = true → cleaned = true) →
      (status = .running → row.status = .running ∨ ∃ t, ver.due = some t ∧ t ≤ now) →
      Step now (.clean row.version) s ((s.setVersion row.version
        { ver with cleaned := cleaned }).setCleanup c { row with status := status })
  | expedite {s : Ledger} {v : Id} {doc : DocumentState} {ver : VersionState} :
      s.versions v = some ver → s.documents ver.document = some doc → doc.deleted = true →
      ver.status.phase = .dead →
      Step now (.expedite v) s (s.setVersion v { ver with due := some now })
  | record {s : Ledger} {r : String} {row : RetirementState} :
      (∀ old, s.retirements r = some old →
        row.document = old.document ∧ ∀ v ∈ old.versions, v ∈ row.versions) →
      Step now (.record r) s (s.setRetirement r row)

variable {now : Time} {s : Ledger} {j : Id} {job : JobState} {ver : VersionState}

theorem Step.hold_job {lease : Lease.Register String} (hj : s.jobs j = some job)
    (hv : s.versions job.version = some ver) (hb : Building job.status ver.status)
    (hb' : Building status ver.status) (hl : job.lease.Step now lease)
    (hf : lease.fence = job.lease.fence) :
    Step now (.hold j) s (s.setJob j { job with status := status, lease := lease }) := by
  have hstep : Step now (.hold j) s _ := .hold hj hv hb hb' id hl hf
  rwa [Ledger.setVersion_self hv] at hstep

theorem Step.acquire_job {worker : String} {expiry : Time} (hj : s.jobs j = some job)
    (hv : s.versions job.version = some ver) (hb : Building job.status ver.status)
    (hb' : Building status ver.status) (hfree : job.lease.Free now) :
    Step now (.acquire j worker) s (s.setJob j
      { job with status := status, lease := ⟨some worker, job.lease.fence + 1, some expiry⟩ }) := by
  have hstep : Step now (.acquire j worker) s ((s.setVersion job.version ver).setJob j
      { job with status := status, lease := ⟨some worker, job.lease.fence + 1, some expiry⟩ }) :=
    .acquire hj hv hb hb' id hfree
  rwa [Ledger.setVersion_self hv] at hstep

/-- Discarding a candidate that has not been cleaned. -/
theorem Step.discard_uncleaned {d v c : Id} {status : DocumentVersionStatus}
    {outcome : IndexJobStatus} {due : Time} (hd : s.documents d = some doc)
    (hp : doc.pending = some v) (hv : s.versions v = some ver) (hclean : ver.cleaned = false)
    (hj : s.jobs j = some job) (hjv : job.version = v) (hc : s.cleanups c = none)
    (hs : status.phase = .dead) (ho : outcome.terminal = true) :
    Step now (.discard d v) s ((((s.setDocument d { doc with pending := none }).setVersion v
      { ver with status := status, due := some due }).setJob j
      (job.release outcome)).setCleanup c ⟨v, .pending⟩) := by
  rw [show ({ ver with status := status, due := some due } : VersionState) =
    { ver with status := status, due := some due, cleaned := false } by rw [← hclean]]
  exact .discard hd hp hv hj hjv hc hs ho

/-- Publishing over a current version: it is dropped, and the candidate promoted. -/
theorem Step.replace {d p v c : Id}
    {old : VersionState} {due : Time} (hd : s.documents d = some doc)
    (hc : doc.current = some p) (hp : doc.pending = some v) (hne : v ≠ p)
    (hold : s.versions p = some old) (hv : s.versions v = some ver) (hs : ver.status = .staged)
    (hj : s.jobs j = some job) (hjv : job.version = v) (hfree : s.cleanups c = none) :
    ∃ mid, Step now (.drop d p due) s mid ∧ Step now (.promote d v) mid
      (((((s.setDocument d { doc with current := some v, pending := none }).setVersion p
        { old with status := .superseded, due := some due }).setCleanup c ⟨p, .pending⟩).setVersion v
        { ver with status := .ready, due := none, cleaned := false }).setJob j
        (job.release .completed)) := by
  let mid := ((s.setDocument d { doc with current := none }).setVersion p
    { old with status := .superseded, due := some due }).setCleanup c ⟨p, .pending⟩
  have hdoc : mid.documents d = some { doc with current := none } := by simp [mid]
  have hver : mid.versions v = some ver := by simpa [mid, hne] using hv
  have hstep : Step now (.promote d v) mid _ := .promote hdoc rfl hp hver hs hj hjv
  refine ⟨mid, .drop hd hc hold hfree, ?_⟩
  simpa [mid, Ledger.setDocument, Ledger.setVersion, Ledger.setCleanup, Ledger.setJob] using hstep

/-- Some steps, each of one of the kinds listed. -/
def Steps (now : Time) (kinds : List Kind) : Ledger → Ledger → Prop :=
  Relation.ReflTransGen fun s s' => ∃ a : Action, a.kind ∈ kinds ∧ Step now a s s'

namespace Steps

variable {now : Time} {kinds : List Kind} {a b c : Ledger}

theorem none (h : b = a) : Steps now kinds a b := h ▸ Relation.ReflTransGen.refl

theorem single {action : Action} (h : Step now action a b) (hk : action.kind ∈ kinds) :
    Steps now kinds a b :=
  Relation.ReflTransGen.single ⟨action, hk, h⟩

theorem trans (h : Steps now kinds a b) (h' : Steps now kinds b c) : Steps now kinds a c :=
  Relation.ReflTransGen.trans h h'

theorem mono {kinds' : List Kind} (h : Steps now kinds a b) (hk : kinds ⊆ kinds') :
    Steps now kinds' a b := by
  refine Relation.ReflTransGen.mono ?_ _ _ h
  rintro x y ⟨action, hmem, hstep⟩
  exact ⟨action, hk hmem, hstep⟩

@[elab_as_elim]
theorem preserves {P : Ledger → Prop} (hs : Steps now kinds a b) (h : P a)
    (hstep : ∀ {x y action}, Steps now kinds a x → action.kind ∈ kinds → Step now action x y →
      P x → P y) : P b := by
  induction hs with
  | refl => exact h
  | tail hprev hlast ih =>
    obtain ⟨action, hmem, ha⟩ := hlast
    exact hstep hprev hmem ha ih

end Steps

end SuperMew.Documents
