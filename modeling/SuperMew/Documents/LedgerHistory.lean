import SuperMew.Documents.LedgerWf

/-! What the steps of the protocol never undo: identities, counters and the end of a
version. -/

namespace SuperMew.Documents

open Relational DocumentVersionStatus

/-! ## Rows -/

structure DocumentState.Later (old new : DocumentState) : Prop where
  fence : old.fence ≤ new.fence
  counter : old.counter ≤ new.counter

/-- A dead version keeps its status, and a cleaned one stays cleaned. -/
structure VersionState.Later (old new : VersionState) : Prop where
  document : new.document = old.document
  number : new.number = old.number
  dead : old.status.phase = .dead → new.status = old.status
  cleaned : old.cleaned = true → new.cleaned = true

structure JobState.Later (old new : JobState) : Prop where
  version : new.version = old.version
  fence : new.fence = old.fence

structure CleanupState.Later (old new : CleanupState) : Prop where
  version : new.version = old.version

structure RetirementState.Later (old new : RetirementState) : Prop where
  document : new.document = old.document
  versions : ∀ v ∈ old.versions, v ∈ new.versions

structure Ledger.Later (s s' : Ledger) : Prop where
  documents : Evolves (fun _ => DocumentState.Later) s.documents s'.documents
  versions : Evolves (fun _ => VersionState.Later) s.versions s'.versions
  jobs : Evolves (fun _ => JobState.Later) s.jobs s'.jobs
  cleanups : Evolves (fun _ => CleanupState.Later) s.cleanups s'.cleanups
  retirements : Evolves (fun _ => RetirementState.Later) s.retirements s'.retirements

theorem DocumentState.Later.refl (doc : DocumentState) : doc.Later doc := ⟨le_rfl, le_rfl⟩

theorem VersionState.Later.refl (ver : VersionState) : ver.Later ver := ⟨rfl, rfl, fun _ => rfl, id⟩

theorem JobState.Later.refl (job : JobState) : job.Later job := ⟨rfl, rfl⟩

theorem CleanupState.Later.refl (row : CleanupState) : row.Later row := ⟨rfl⟩

theorem RetirementState.Later.refl (row : RetirementState) : row.Later row := ⟨rfl, fun _ => id⟩

theorem VersionState.Later.trans {a b c : VersionState} (h : a.Later b) (h' : b.Later c) :
    a.Later c where
  document := h'.document.trans h.document
  number := h'.number.trans h.number
  dead hdead := by
    have hb := h.dead hdead
    rw [h'.dead (hb ▸ hdead), hb]
  cleaned hclean := h'.cleaned (h.cleaned hclean)

variable {v : Id} {ver : VersionState} {row : CleanupState}

namespace Ledger.Later

variable {a b c s : Ledger}

theorem refl (s : Ledger) : s.Later s where
  documents := .refl (fun _ => .refl) _
  versions := .refl (fun _ => .refl) _
  jobs := .refl (fun _ => .refl) _
  cleanups := .refl (fun _ => .refl) _
  retirements := .refl (fun _ => .refl) _

theorem trans (h : a.Later b) (h' : b.Later c) : a.Later c where
  documents := h.documents.trans (fun _ _ _ _ x y =>
    ⟨x.fence.trans y.fence, x.counter.trans y.counter⟩) h'.documents
  versions := h.versions.trans (fun _ _ _ _ => VersionState.Later.trans) h'.versions
  jobs := h.jobs.trans (fun _ _ _ _ x y =>
    ⟨y.version.trans x.version, y.fence.trans x.fence⟩) h'.jobs
  cleanups := h.cleanups.trans (fun _ _ _ _ x y => ⟨y.version.trans x.version⟩) h'.cleanups
  retirements := h.retirements.trans (fun _ _ _ _ x y =>
    ⟨y.document.trans x.document, fun v hv => y.versions v (x.versions v hv)⟩) h'.retirements

/-! ## One write -/

theorem setDocument {d : Id} {doc : DocumentState}
    (h : ∀ old, s.documents d = some old → old.Later doc) : s.Later (s.setDocument d doc) :=
  { refl s with documents := .update (fun _ => .refl) h }

theorem setVersion
    (h : ∀ old, s.versions v = some old → old.Later ver) : s.Later (s.setVersion v ver) :=
  { refl s with versions := .update (fun _ => .refl) h }

theorem setJob {j : Id} {job : JobState} (h : ∀ old, s.jobs j = some old → old.Later job) :
    s.Later (s.setJob j job) :=
  { refl s with jobs := .update (fun _ => .refl) h }

theorem setCleanup {c : Id} (h : ∀ old, s.cleanups c = some old → old.Later row) :
    s.Later (s.setCleanup c row) :=
  { refl s with cleanups := .update (fun _ => .refl) h }

theorem setRetirement {r : String} {row : RetirementState}
    (h : ∀ old, s.retirements r = some old → old.Later row) : s.Later (s.setRetirement r row) :=
  { refl s with retirements := .update (fun _ => .refl) h }

theorem setManifest (s : Ledger) (v : Id) (count : StoreKind → ℕ) : s.Later (s.setManifest v count) :=
  { refl s with }

end Ledger.Later

theorem later_of_some {ρ : Type} {R : ρ → ρ → Prop} {f : Id → Option ρ} {k : Id} {row new : ρ}
    (h : f k = some row) (hR : R row new) : ∀ old, f k = some old → R old new := by
  intro old hold
  obtain rfl := Option.mem_unique h hold
  exact hR

/-! ## Steps -/

variable {now : Time} {a : Action}

theorem Step.later {s s' : Ledger} (hs : Step now a s s') (hw : s.Wf) : s.Later s' := by
  cases hs with
  | enlist hd => exact .setDocument (by simp [hd])
  | reserve hd hp hv hj =>
    refine .trans (.trans (.setDocument ?_) (.setVersion ?_)) (.setJob ?_)
    · exact later_of_some hd ⟨Nat.le_succ _, Nat.le_succ _⟩
    · simp [hv]
    · simp [hj]
  | hold hj hv hb | acquire hj hv hb =>
    refine .trans (.setVersion (later_of_some hv ?_)) (.setJob (later_of_some hj ⟨rfl, rfl⟩))
    exact ⟨rfl, rfl, fun hdead => by simp [hb.candidate] at hdead, id⟩
  | stage hj hv hb =>
    refine .trans (.trans (.setManifest _ _ _) (.setVersion (later_of_some hv ?_)))
      (.setJob (later_of_some hj ⟨rfl, rfl⟩))
    exact ⟨rfl, rfl, fun hdead => by simp [hb.candidate] at hdead, id⟩
  | discard hd hp hv hj _ hc =>
    obtain ⟨-, hcand, -⟩ := hw.pending_version hd hp hv
    have hopen := (hw.shape _ _ hv).uncleaned (by simp [hcand])
    refine .trans (.trans (.trans (.setDocument ?_) (.setVersion ?_)) (.setJob ?_)) (.setCleanup ?_)
    · exact later_of_some hd ⟨le_rfl, le_rfl⟩
    · exact later_of_some hv ⟨rfl, rfl, by simp [hcand], by simp [hopen]⟩
    · exact later_of_some hj ⟨rfl, rfl⟩
    · simp [hc]
  | drop hd hc hv hn =>
    obtain ⟨-, hready⟩ := hw.current_version hd hc hv
    refine .trans (.trans (.setDocument ?_) (.setVersion ?_)) (.setCleanup ?_)
    · exact later_of_some hd ⟨le_rfl, le_rfl⟩
    · exact later_of_some hv ⟨rfl, rfl, by simp [hready, phase], id⟩
    · simp [hn]
  | promote hd _ hp hv hs hj =>
    obtain ⟨-, hcand, -⟩ := hw.pending_version hd hp hv
    have hopen := (hw.shape _ _ hv).uncleaned (by simp [hcand])
    refine .trans (.trans (.setDocument ?_) (.setVersion ?_)) (.setJob ?_)
    · exact later_of_some hd ⟨le_rfl, le_rfl⟩
    · exact later_of_some hv ⟨rfl, rfl, by simp [hcand], by simp [hopen]⟩
    · exact later_of_some hj ⟨rfl, rfl⟩
  | tombstone hd => exact .setDocument (later_of_some hd ⟨Nat.le_succ _, le_rfl⟩)
  | clean hc hv _ hclean =>
    refine .trans (.setVersion ?_) (.setCleanup ?_)
    · exact later_of_some hv ⟨rfl, rfl, fun _ => rfl, hclean⟩
    · exact later_of_some hc ⟨rfl⟩
  | expedite hv => exact .setVersion (later_of_some hv ⟨rfl, rfl, fun _ => rfl, id⟩)
  | record h => exact .setRetirement fun old hold => ⟨(h old hold).1, (h old hold).2⟩

theorem Steps.later {kinds : List Kind} {s s' : Ledger}
    (hs : Steps now kinds s s') (hw : s.Wf) : s.Later s' :=
  hs.preserves (.refl s) fun hprev _ ha h => h.trans (ha.later (hprev.wf hw))

/-! ## Leases -/

/-- What one step does to the lease of a job: a move of the register, and a new fence
only where the job is acquired. -/
structure JobState.Moves (now : Time) (a : Action) (j : Id) (old new : JobState) : Prop where
  lease : old.lease.Step now new.lease
  fence : new.lease.fence = old.lease.fence ∨
    ∃ worker, a = .acquire j worker ∧ old.lease.Free now ∧ new.lease.owner = some worker ∧
      new.lease.fence = old.lease.fence + 1

theorem JobState.Moves.refl (now : Time) (a : Action) (j : Id) (job : JobState) :
    Moves now a j job job := ⟨.keep _, .inl rfl⟩

theorem JobState.Moves.release (now : Time) (a : Action) (j : Id) (job : JobState)
    (status : IndexJobStatus) : Moves now a j job (job.release status) :=
  ⟨.release _, .inl rfl⟩

theorem Step.lease {s s' : Ledger} (hs : Step now a s s') :
    Evolves (JobState.Moves now a) s.jobs s'.jobs := by
  cases hs with
  | reserve _ _ _ hj => exact .update (.refl now _) (by simp [hj])
  | hold hj _ _ _ _ hl hf => exact .write (.refl now _) hj ⟨hl, .inl hf⟩
  | stage hj => exact .write (.refl now _) hj ⟨.keep _, .inl rfl⟩
  | acquire hj _ _ _ _ hfree =>
    refine .write (.refl now _) hj ⟨.acquire _ _ _ hfree, .inr ?_⟩
    exact ⟨_, rfl, hfree, rfl, rfl⟩
  | discard _ _ _ hj | promote _ _ _ _ _ hj =>
    exact .write (.refl now _) hj (.release now _ _ _ _)
  | _ => exact .refl (.refl now _) _

/-- The ticket has been issued for job `j` and is no longer the live one. -/
def Ledger.Lost (s : Ledger) (now : Time) (j : Id) (k : Lease.Ticket String) : Prop :=
  ∃ job, s.jobs j = some job ∧ job.lease.Lost now k

section Runs

variable {kinds : List Kind} {s s' : Ledger} {d : Id}
  {j : Id} {k : Lease.Ticket String} {old new : VersionState} {limit : Time}

theorem Steps.lost (hs : Steps now kinds s s') (h : s.Lost now j k) : s'.Lost now j k := by
  refine hs.preserves h fun _ _ ha h => ?_
  obtain ⟨job, hj, hlost⟩ := h
  obtain ⟨job', hj', hmove⟩ := ha.lease j job hj
  exact ⟨job', hj', hlost.step hmove.lease⟩

/-- The register of job `j` has reached the fence of the ticket. -/
def Ledger.Issued (s : Ledger) (j : Id) (k : Lease.Ticket String) : Prop :=
  ∃ job, s.jobs j = some job ∧ k.fence ≤ job.lease.fence

def Ledger.Carries (s : Ledger) (j : Id) (k : Lease.Ticket String) : Prop :=
  ∃ job, s.jobs j = some job ∧ job.lease.Carries k

section

variable (hs : Steps now kinds s s')

include hs

theorem Steps.issued (h : s.Issued j k) : s'.Issued j k := by
  refine hs.preserves h fun _ _ ha h => ?_
  obtain ⟨job, hj, hfence⟩ := h
  obtain ⟨job', hj', hmove⟩ := ha.lease j job hj
  exact ⟨job', hj', hfence.trans hmove.lease.fence_le⟩

theorem Steps.carries_before (hissued : s.Issued j k) (h : s'.Carries j k) : s.Carries j k := by
  induction hs with
  | refl => exact h
  | tail hprev hstep ih =>
    obtain ⟨a, -, ha⟩ := hstep
    obtain ⟨job, hj, hfence⟩ := Steps.issued hprev hissued
    obtain ⟨job', hj', hmove⟩ := ha.lease j job hj
    obtain ⟨job'', hj'', hcarries⟩ := h
    obtain rfl := Option.mem_unique hj' hj''
    exact ih ⟨job, hj, hmove.lease.carries_before hfence hcarries⟩

theorem Steps.fence_eq (hk : .acquire ∉ kinds) :
    Evolves (fun _ old new => new.lease.fence = old.lease.fence) s.jobs s'.jobs := by
  refine hs.preserves (.refl (fun _ _ => by rfl) _) fun _ hmem ha ih => ?_
  refine ih.trans (fun _ _ _ _ x y => y.trans x) fun j job hj => ?_
  obtain ⟨job', hj', hmove⟩ := ha.lease j job hj
  refine ⟨job', hj', hmove.fence.resolve_right ?_⟩
  rintro ⟨w, rfl, -⟩
  exact hk hmem

theorem Steps.retirements_eq (hk : .record ∉ kinds) : s'.retirements = s.retirements := by
  refine hs.preserves rfl fun _ hmem ha ih => ?_
  rw [← ih]
  cases ha with
  | record => exact absurd hmem hk
  | _ => rfl

end

/-! ## Publications -/

/-- What one step does to a document: only a reservation counts up and sets the
candidate, and only a promotion sets the current version. -/
structure DocumentState.Turns (a : Action) (d : Id) (old new : DocumentState) : Prop where
  candidate : new.counter = old.counter ∧ (new.pending = old.pending ∨ new.pending = none) ∨
    ∃ v, a = .reserve d v ∧ new.counter = old.counter + 1
  current : new.current = old.current ∨ new.current = none ∨
    ∃ v, a = .promote d v ∧ new.current = some v

theorem DocumentState.Turns.refl (a : Action) (d : Id) (doc : DocumentState) :
    Turns a d doc doc := ⟨.inl ⟨rfl, .inl rfl⟩, .inl rfl⟩

theorem Step.turns (hs : Step now a s s') :
    Evolves (DocumentState.Turns a) s.documents s'.documents := by
  cases hs with
  | enlist hd => exact .update (.refl _) (by simp [hd])
  | reserve hd =>
    exact .write (.refl _) hd ⟨.inr ⟨_, rfl, rfl⟩, .inl rfl⟩
  | discard hd =>
    exact .write (.refl _) hd ⟨.inl ⟨rfl, .inr rfl⟩, .inl rfl⟩
  | drop hd =>
    exact .write (.refl _) hd ⟨.inl ⟨rfl, .inl rfl⟩, .inr (.inl rfl)⟩
  | promote hd =>
    exact .write (.refl _) hd ⟨.inl ⟨rfl, .inr rfl⟩, .inr (.inr ⟨_, rfl, rfl⟩)⟩
  | tombstone hd =>
    exact .write (.refl _) hd ⟨.inl ⟨rfl, .inl rfl⟩, .inl rfl⟩
  | _ => exact .refl (.refl _) _

def Ledger.current (s : Ledger) (d : Id) : Option Id := (s.documents d).bind DocumentState.current

/-- Number `n` of document `d` is settled: a candidate that is published from here on
has a larger number. -/
def Ledger.Passed (s : Ledger) (d : Id) (n : ℕ) : Prop :=
  ∃ doc, s.documents d = some doc ∧ (n < doc.counter ∨ n = doc.counter ∧ doc.pending = none)

theorem Step.passed {n : ℕ} (hs : Step now a s s') (h : s.Passed d n) : s'.Passed d n := by
  obtain ⟨doc, hd, hn⟩ := h
  obtain ⟨doc', hd', hturn⟩ := hs.turns d doc hd
  refine ⟨doc', hd', ?_⟩
  rcases hturn.candidate with ⟨hcount, hpend⟩ | ⟨v, -, hcount⟩
  · rw [hcount]
    refine hn.imp id fun hn => ⟨hn.1, ?_⟩
    rcases hpend with hpend | hpend
    · rw [hpend, hn.2]
    · exact hpend
  · left
    omega

theorem Steps.passed {n : ℕ} (hs : Steps now kinds s s') (h : s.Passed d n) : s'.Passed d n :=
  hs.preserves h fun _ _ ha => ha.passed

theorem Steps.counter_eq (hs : Steps now kinds s s') (hk : .reserve ∉ kinds) :
    Evolves (fun _ old new => new.counter = old.counter) s.documents s'.documents := by
  refine hs.preserves (.refl (fun _ _ => by rfl) _) fun _ hmem ha ih => ?_
  refine ih.trans (fun _ _ _ _ x y => y.trans x) fun d doc hd => ?_
  obtain ⟨doc', hd', hturn⟩ := ha.turns d doc hd
  refine ⟨doc', hd', ?_⟩
  rcases hturn.candidate with hcount | ⟨v, rfl, -⟩
  · exact hcount.1
  · exact absurd hmem hk

theorem Step.current (hs : Step now a s s') (h : s'.current d = some v) :
    s.current d = some v ∨ a = .promote d v := by
  obtain ⟨doc', hd', hcur⟩ := Option.bind_eq_some_iff.mp h
  cases hd : s.documents d with
  | none =>
    -- only `enlist` creates a document, and it has no current version
    cases hs with
    | enlist hnone =>
      simp only [Ledger.setDocument_documents] at hd'
      grind
    | _ => simp_all [Function.update_apply]
  | some doc =>
    obtain ⟨doc'', hd'', hturn⟩ := hs.turns d doc hd
    obtain rfl := Option.mem_unique hd' hd''
    rcases hturn.current with heq | hnone | ⟨w, rfl, hw⟩
    · left
      simp [Ledger.current, hd, ← heq, hcur]
    · simp [hnone] at hcur
    · obtain rfl := Option.mem_unique hcur hw
      exact .inr rfl

/-- A version that becomes current is promoted on the way. -/
theorem Steps.promotion (hs : Steps now kinds s s') (h : s'.current d = some v)
    (hn : s.current d ≠ some v) :
    .promote ∈ kinds ∧ ∃ m m', Steps now kinds s m ∧ Step now (.promote d v) m m' ∧
      Steps now kinds m' s' := by
  induction hs with
  | refl => exact absurd h hn
  | @tail m s' hprev hstep ih =>
    obtain ⟨a, hmem, ha⟩ := hstep
    rcases ha.current h with hm | rfl
    · obtain ⟨hk, m₁, m₂, h₁, hp, h₂⟩ := ih hm
      exact ⟨hk, m₁, m₂, h₁, hp, .trans h₂ (.single ha hmem)⟩
    · exact ⟨hmem, m, s', hprev, ha, .none rfl⟩

/-- A version that becomes current is the latest of its document, and later than
every settled number. -/
theorem Steps.published (hs : Steps now kinds s s') (hw : s.Wf) (hk : .reserve ∉ kinds)
    (h : s'.current d = some v) (hn : s.current d ≠ some v) :
    ∃ doc ver, s'.documents d = some doc ∧ s'.versions v = some ver ∧ ver.document = d ∧
      ver.number = doc.counter ∧ s'.Passed d ver.number ∧ ∀ n, s.Passed d n → n < ver.number := by
  obtain ⟨-, m, m', h₁, hp, h₂⟩ := hs.promotion h hn
  have hwm := h₁.wf hw
  have hp' := hp
  cases hp' with
  | @promote _ _ _ _ doc ver _ hd _ hpend hv _ _ _ =>
    obtain ⟨hdoc, -, hnum⟩ := hwm.pending_version hd hpend hv
    obtain ⟨ver', hv', hlater⟩ := ((hp.later hwm).trans (h₂.later (hp.wf hwm))).versions v ver hv
    let after : DocumentState := { doc with current := some v, pending := Option.none }
    obtain ⟨doc', hd', hcount⟩ := h₂.counter_eq hk d after (by simp [after])
    have hnumber : ver'.number = doc.counter := hlater.number.trans hnum
    refine ⟨doc', ver', hd', hv', hlater.document.trans hdoc, hnumber.trans hcount.symm, ?_, ?_⟩
    · exact h₂.passed ⟨after, by simp [after], .inr ⟨hnumber, rfl⟩⟩
    · intro n hpass
      obtain ⟨doc₀, hd₀, hlt⟩ := h₁.passed hpass
      obtain rfl := Option.mem_unique hd hd₀
      rw [hnumber]
      exact hlt.resolve_right (by simp [hpend])

/-! ## Due times -/

/-- A dead version keeps its due time, unless it is expedited. -/
structure VersionState.KeepsDue (a : Action) (v : Id) (old new : VersionState) : Prop where
  due : old.status.phase = .dead → new.due = old.due ∨ a = .expedite v

theorem VersionState.KeepsDue.refl (a : Action) (v : Id) (ver : VersionState) :
    KeepsDue a v ver ver := ⟨fun _ => .inl rfl⟩

theorem VersionState.KeepsDue.alive
    (h : old.status.phase ≠ .dead) : KeepsDue a v old new := ⟨fun hdead => absurd hdead h⟩

theorem Step.due (hs : Step now a s s') (hw : s.Wf) :
    Evolves (VersionState.KeepsDue a) s.versions s'.versions := by
  cases hs with
  | reserve _ _ hv => exact .update (.refl _) (by simp [hv])
  | hold _ hv hb | stage _ hv hb | acquire _ hv hb =>
    exact .write (.refl _) hv (.alive (by simp [hb.candidate]))
  | discard hd hp hv | promote hd _ hp hv =>
    obtain ⟨-, hcand, -⟩ := hw.pending_version hd hp hv
    exact .write (.refl _) hv (.alive (by simp [hcand]))
  | drop hd hc hv =>
    obtain ⟨-, hready⟩ := hw.current_version hd hc hv
    exact .write (.refl _) hv (.alive (by simp [hready, phase]))
  | clean _ hv => exact .write (.refl _) hv ⟨fun _ => .inl rfl⟩
  | expedite hv => exact .write (.refl _) hv ⟨fun _ => .inr rfl⟩
  | _ => exact .refl (.refl _) _

/-- A version becomes SUPERSEDED where it is dropped or discarded, and a dropped one is
due when the step says. -/
structure VersionState.Falls (a : Action) (v : Id) (old new : VersionState) : Prop where
  superseded : new.status = .superseded → old.status = .superseded ∨
    (∃ d due, a = .drop d v due ∧ new.due = some due) ∨ ∃ d, a = .discard d v

theorem VersionState.Falls.same
    (h : new.status = old.status) : Falls a v old new := ⟨fun hs => .inl (h ▸ hs)⟩

theorem VersionState.Falls.alive (h : new.status.phase ≠ .dead) : Falls a v old new := by
  refine ⟨fun hs => absurd ?_ h⟩
  rw [hs, phase]

theorem Step.falls (hs : Step now a s s') :
    Evolves (VersionState.Falls a) s.versions s'.versions := by
  have hrefl (v : Id) (ver : VersionState) : VersionState.Falls a v ver ver := .same rfl
  cases hs with
  | reserve _ _ hv => exact .update hrefl (by simp [hv])
  | hold _ hv _ hb | acquire _ hv _ hb =>
    exact .write hrefl hv (.alive (by simp [hb.candidate]))
  | stage _ hv | promote _ _ _ hv =>
    exact .write hrefl hv (.alive (by simp [phase]))
  | discard _ _ hv =>
    exact .write hrefl hv ⟨fun _ => .inr (.inr ⟨_, rfl⟩)⟩
  | drop _ _ hv =>
    exact .write hrefl hv ⟨fun _ => .inr (.inl ⟨_, _, rfl, rfl⟩)⟩
  | clean _ hv | expedite hv => exact .write hrefl hv (.same rfl)
  | _ => exact .refl hrefl _

/-- A version that a step leaves dead was dead before, unless the step drops or discards. -/
theorem Step.dead_before (hs : Step now a s s') (hdrop : a.kind ≠ .drop)
    (hdiscard : a.kind ≠ .discard) (hv : s'.versions v = some ver)
    (hdead : ver.status.phase = .dead) :
    ∃ old, s.versions v = some old ∧ old.status.phase = .dead := by
  -- the written version is alive, or it keeps its status
  have hupdate {w : Id} {new : VersionState}
      (hnew : new.status.phase = .dead → ∃ old, s.versions w = some old ∧ old.status.phase = .dead)
      (hv : Function.update s.versions w (some new) v = some ver) :
      ∃ old, s.versions v = some old ∧ old.status.phase = .dead := by
    obtain ⟨rfl, rfl⟩ | ⟨-, hold⟩ := update_eq_some.mp hv
    · exact hnew hdead
    · exact ⟨ver, hold, hdead⟩
  cases hs with
  | reserve | stage | promote =>
    exact hupdate (fun h => absurd h (by simp [phase])) hv
  | hold _ _ _ hb | acquire _ _ _ hb => exact hupdate (fun h => by simp [hb.candidate] at h) hv
  | discard => exact absurd rfl hdiscard
  | drop => exact absurd rfl hdrop
  | clean _ hver =>
    refine hupdate ?_ hv
    exact fun h => ⟨_, hver, h⟩
  | expedite hver _ _ h => exact hupdate (fun _ => ⟨_, hver, h⟩) hv
  | _ => exact ⟨ver, hv, hdead⟩

theorem Steps.dead_before (hs : Steps now kinds s s') (hdrop : .drop ∉ kinds)
    (hdiscard : .discard ∉ kinds) (hv : s'.versions v = some ver)
    (hdead : ver.status.phase = .dead) :
    ∃ old, s.versions v = some old ∧ old.status.phase = .dead := by
  induction hs generalizing ver with
  | refl => exact ⟨ver, hv, hdead⟩
  | tail _ hstep ih =>
    obtain ⟨a, hmem, ha⟩ := hstep
    obtain ⟨old, hold, hdead⟩ := ha.dead_before (fun h => hdrop (h ▸ hmem))
      (fun h => hdiscard (h ▸ hmem)) hv hdead
    exact ih hold hdead

/-- The cleanup of version `v` is in the hands of a worker. -/
def Ledger.Cleaning (s : Ledger) (v : Id) : Prop :=
  ∃ c row, s.cleanups c = some row ∧ row.version = v ∧ row.status = .running

theorem cleaning_setCleanup {c : Id}
    (h : (s.setCleanup c row).Cleaning v) : s.Cleaning v ∨ row.version = v ∧ row.status = .running := by
  obtain ⟨c', row', hc, hv, hrun⟩ := h
  simp only [Ledger.setCleanup_cleanups, update_eq_some] at hc
  grind [Ledger.Cleaning]

/-- A worker starts on a version only when it is due. -/
theorem Step.cleaning (hs : Step now a s s') (h : s'.Cleaning v) :
    s.Cleaning v ∨ a = .clean v ∧ ∃ ver t, s.versions v = some ver ∧ ver.due = some t ∧ t ≤ now := by
  cases hs with
  | discard | drop => exact .inl ((cleaning_setCleanup h).resolve_right (by simp))
  | @clean _ c row ver _ _ hc hv _ _ hrun =>
    rcases cleaning_setCleanup h with h | ⟨rfl, hstatus⟩
    · exact .inl h
    · rcases hrun hstatus with hrow | ⟨t, ht, hle⟩
      · exact .inl ⟨c, row, hc, rfl, hrow⟩
      · exact .inr ⟨rfl, ver, t, hv, ht, hle⟩
  | _ => exact .inl h

theorem Steps.cleaning (hs : Steps now kinds s s') (hk : .clean ∉ kinds) (h : s'.Cleaning v) :
    s.Cleaning v := by
  refine hs.preserves id (fun _ hmem ha ih h => ?_) h
  rcases ha.cleaning h with h | ⟨rfl, -⟩
  · exact ih h
  · exact absurd hmem hk

/-- The dead version `v` is not due before `limit`. -/
def Ledger.DueFrom (s : Ledger) (v : Id) (limit : Time) : Prop :=
  ∃ ver, s.versions v = some ver ∧ ver.status.phase = .dead ∧ ∀ t, ver.due = some t → limit ≤ t

theorem Step.dueFrom (hs : Step now a s s') (hw : s.Wf)
    (ha : a ≠ .expedite v) (h : s.DueFrom v limit) : s'.DueFrom v limit := by
  obtain ⟨ver, hv, hdead, hdue⟩ := h
  obtain ⟨ver', hv', hdue'⟩ := hs.due hw v ver hv
  obtain ⟨ver'', hv'', hlater⟩ := (hs.later hw).versions v ver hv
  obtain rfl := Option.mem_unique hv' hv''
  refine ⟨ver', hv', by rw [hlater.dead hdead, hdead], ?_⟩
  rw [(hdue'.due hdead).resolve_right ha]
  exact hdue

variable (hs : Steps now kinds s s')

include hs

theorem Steps.dueFrom (hw : s.Wf)
    (hk : .expedite ∉ kinds) (h : s.DueFrom v limit) : s'.DueFrom v limit := by
  refine hs.preserves h fun hprev hmem ha ih => ha.dueFrom (hprev.wf hw) ?_ ih
  rintro rfl
  exact hk hmem

/-- While a version is not due, no worker starts on it. -/
theorem Steps.not_cleaning (hw : s.Wf) (hk : .expedite ∉ kinds) (hnow : now < limit)
    (h : s.DueFrom v limit) (hidle : ¬ s.Cleaning v) : ¬ s'.Cleaning v := by
  refine hs.preserves hidle fun hprev _ ha ih hclean => ?_
  rcases ha.cleaning hclean with hclean | ⟨-, ver, t, hv, ht, hle⟩
  · exact ih hclean
  · obtain ⟨ver', hv', -, hdue⟩ := hprev.dueFrom hw hk h
    obtain rfl := Option.mem_unique hv hv'
    exact absurd ((hdue t ht).trans hle) (Nat.not_le.mpr hnow)

end Runs

end SuperMew.Documents
