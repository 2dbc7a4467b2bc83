import Mathlib.Order.ConditionallyCompleteLattice.Basic
import Mathlib.Data.Int.ConditionallyCompleteOrder
import SuperMew.Publication.Order
import SuperMew.Publication.System

/-! The rows of the two chunk stores against the manifest of the version, over every
interleaving of the executions of one index job. -/

namespace SuperMew.Publication

open Documents Publication.System Statement Machine

section Runs

variable {j : Id} {k : IndexJobExecution}

/-- The rows are the given ids, each once. -/
def Exactly (rows ids : List String) : Prop := rows.Perm ids ∧ rows.Nodup

theorem exactly_of_exactIds {expected actual : List String}
    (h : exactIds expected actual = true) : Exactly actual expected := by
  simp only [exactIds, Bool.and_eq_true, decide_eq_true_eq, List.isEmpty_iff,
    List.filter_eq_nil_iff, not_not] at h
  obtain ⟨⟨⟨⟨⟨-, hexpected⟩, hmissing⟩, hunexpected⟩, hactual⟩, -⟩ := h
  refine ⟨(List.perm_ext_iff_of_nodup hactual hexpected).mpr fun id => ?_, hactual⟩
  exact ⟨hunexpected id, hmissing id⟩

variable [Platform]

/-! ## Exact rows -/

/-- The stores hold what the manifest of the version lists. -/
structure Stores.Exact (s : Stores) (v : Id) : Prop where
  vectors : Exactly s.vectors (s.catalog.manifestIds v .vector)
  parents : Exactly s.parents (s.catalog.manifestIds v .parent)

/-! ## Verified stores -/

def verifying : StoreKind → List String → Statement
  | .parent => .verifyParents
  | .vector => .verifyVectors

/-- Once no verification is left before the manifest, the rows are those that it lists. -/
def Checked (kind : StoreKind) (script : List Statement) (rows : List String) : Prop :=
  ∀ r, .call (.recordManifest r) ∈ script → (∀ ids, verifying kind ids ∉ script) →
    ∃ ids, r.Lists kind ids ∧ Exactly rows ids

section Checked

variable {kind : StoreKind} {st : Statement} {rest : List Statement} {rows : List String}

theorem Checked.of_verifying (h : ∃ ids, verifying kind ids ∈ rest) : Checked kind rest rows := by
  obtain ⟨ids, hids⟩ := h
  exact fun _ _ hnone => absurd hids (hnone ids)

theorem Checked.tail (h : Checked kind (st :: rest) rows) (hst : ∀ ids, st ≠ verifying kind ids) :
    Checked kind rest rows := by
  intro r hr hnone
  refine h r (List.mem_cons_of_mem _ hr) fun ids hids => ?_
  rcases List.mem_cons.mp hids with heq | hrest
  · exact hst ids heq.symm
  · exact hnone ids hrest

theorem Checked.of_exactly {ids : List String} (h : Exactly rows ids)
    (hlists : ∀ st ∈ rest, st.Lists kind ids) : Checked kind rest rows :=
  fun _ hr _ => ⟨ids, hlists _ hr, h⟩

end Checked

/-! ## The invariant -/

def Building (script : List Statement) : Prop := ∃ st ∈ script, st.builds = true

/-- What is known of the program of execution `k`. While the job row names the execution and
its build is not over, the version is not staged and the rows are as far as the script is. -/
structure Program.Fits (j : Id) (k : IndexJobExecution) (p : Program) (s : Stores) : Prop where
  job : p.context.jobId = j
  execution : p.context.execution = k
  ordered : Ordered j k p.script
  issued : s.catalog.ledger.Issued j k.ticket
  building : Building p.script → s.catalog.Carries j k → ¬ s.catalog.Staged j ∧
    Checked .parent p.script s.parents ∧ Checked .vector p.script s.vectors

structure System.Sound (j : Id) (s : System) : Prop where
  wf : s.stores.catalog.ledger.Wf
  programs : ∀ k p, s.programs k = some p → p.Fits j k s.stores
  exact : ∀ job, s.stores.catalog.jobs.get j = some job →
    s.stores.catalog.Settled job.documentVersionId → s.stores.Exact job.documentVersionId

section Steps

variable {s : System} {p : Program}

/-! ## Changes of the programs -/

theorem System.Sound.drop (h : s.Sound j) : (s.set k none).Sound j where
  wf := h.wf
  programs k' p' hp' := by
    simp only [set, Function.update_apply] at hp'
    split at hp'
    · cases hp'
    · exact h.programs k' p' hp'
  exact := h.exact

theorem System.Sound.put (h : s.Sound j) (hp : p.Fits j k s.stores) :
    (s.set k (some p)).Sound j where
  wf := h.wf
  programs k' p' hp' := by
    simp only [set, Function.update_apply] at hp'
    split at hp'
    · rename_i heq
      cases hp'
      exact heq ▸ hp
    · exact h.programs k' p' hp'
  exact := h.exact

/-- A store is written by the execution that the job row names: no other execution relies
on the rows, and the version is not staged. -/
theorem System.Sound.write (h : s.Sound j) (hp : s.programs k = some p)
    (hbuilding : Building p.script) (hcarries : s.stores.catalog.Carries j k) (stores : Stores)
    (hcatalog : stores.catalog = s.stores.catalog) {script : List Statement}
    (hordered : Ordered j k script) (hparents : Checked .parent script stores.parents)
    (hvectors : Checked .vector script stores.vectors) :
    ({ s with stores }.set k (some { p with script })).Sound j := by
  have hfits := h.programs k p hp
  obtain ⟨hstaged, -⟩ := hfits.building hbuilding hcarries
  refine ⟨hcatalog ▸ h.wf, fun k' p' hp' => ?_, fun job hj hsettled => ?_⟩
  · simp only [set, Function.update_apply] at hp'
    split at hp'
    · rename_i heq
      cases hp'
      subst heq
      refine ⟨hfits.job, hfits.execution, hordered, ?_, fun _ _ => ⟨?_, hparents, hvectors⟩⟩
      · exact hcatalog ▸ hfits.issued
      · exact hcatalog ▸ hstaged
    · rename_i hne
      have hother := h.programs k' p' hp'
      refine ⟨hother.job, hother.execution, hother.ordered, hcatalog ▸ hother.issued, ?_⟩
      intro _ hcarries'
      exact absurd ((hcatalog ▸ hcarries' : s.stores.catalog.Carries j k').unique hcarries) hne
  · refine absurd ⟨job, ?_, ?_⟩ hstaged
    · exact hcatalog ▸ hj
    · exact hcatalog ▸ hsettled

/-! ## Calls on the catalog -/

variable {rest : List Statement} {st : Statement} {stores : Stores} {call : Call} {env : Env}

theorem exec_of_commit {c c' : Catalog} (h : call.commit c = .ok c') : exec c call = c' := by
  simp [exec, h]

theorem Program.Fits.exec (h : p.Fits j k stores) (hw : stores.catalog.ledger.Wf)
    (hleaves : call.Leaves j) : p.Fits j k { stores with catalog := exec stores.catalog call } where
  job := h.job
  execution := h.execution
  ordered := h.ordered
  issued := exec_issued hw h.issued
  building hbuilding hcarries := by
    obtain ⟨hstaged, hchecked⟩ := h.building hbuilding (exec_carries hw h.issued hcarries)
    exact ⟨fun hafter => hstaged (exec_staged hw hleaves hafter), hchecked⟩

theorem System.Sound.exec (h : s.Sound j) (hleaves : call.Leaves j) :
    { s with stores := { s.stores with catalog := exec s.stores.catalog call } }.Sound j where
  wf := exec_wf h.wf call
  programs k p hp := (h.programs k p hp).exec h.wf hleaves
  exact job hj hsettled := by
    have hbefore := exec_settled h.wf hleaves hj hsettled
    obtain ⟨old, hold, hversion⟩ := job_before h.wf hj hbefore
    have hexact := h.exact old hold (hversion ▸ hbefore)
    rw [hversion] at hexact
    constructor
    · exact (exec_manifestIds h.wf hleaves hj .vector).symm ▸ hexact.vectors
    · exact (exec_manifestIds h.wf hleaves hj .parent).symm ▸ hexact.parents

/-- The owner of the job records the manifest when both stores have been verified. -/
theorem System.Sound.stage (h : s.Sound j) (hp : s.programs k = some p) {r : ManifestRequest}
    (hscript : p.script = .call (.recordManifest r) :: rest)
    {catalog : Catalog} (hcommit : Call.commit ⟨env, .recordManifest r⟩ s.stores.catalog = .ok catalog) :
    ({ s with stores := { s.stores with catalog } }.set k (some { p with script := rest })).Sound j := by
  have hfits := h.programs k p hp
  obtain ⟨⟨rfl, hk, hlast⟩, hrest⟩ : Ordered j k (.call (.recordManifest r) :: rest) :=
    hscript ▸ hfits.ordered
  have hexec := exec_of_commit hcommit
  obtain ⟨⟨build, _⟩, hrecord, rfl⟩ := map_eq_ok.mp hcommit
  have hcarries := (recordManifest_held hrecord hk).carries
  have hmem : .call (.recordManifest r) ∈ p.script := hscript ▸ List.mem_cons_self
  obtain ⟨-, hparents, hvectors⟩ := hfits.building ⟨_, hmem, rfl⟩ hcarries
  have hnone : ∀ kind ids, verifying kind ids ∉ p.script := by
    intro kind ids hids
    rw [hscript] at hids
    cases kind with
    | parent | vector =>
      have hbuilds := hlast _ (List.mem_of_ne_of_mem (by simp [verifying]) hids)
      cases hbuilds
  refine ⟨hexec ▸ exec_wf h.wf _, fun k' p' hp' => ?_, fun job hj _ => ?_⟩
  · simp only [set, Function.update_apply] at hp'
    split at hp'
    · rename_i heq
      cases hp'
      subst heq
      refine ⟨hfits.job, hfits.execution, hrest, hexec ▸ exec_issued h.wf hfits.issued, ?_⟩
      rintro ⟨st, hst, hbuilds⟩
      exact absurd (hlast st hst) (by simp [hbuilds])
    · rename_i hne
      have hother := h.programs k' p' hp'
      refine ⟨hother.job, hother.execution, hother.ordered, hexec ▸ exec_issued h.wf hother.issued, ?_⟩
      intro _ hafter
      have hbefore := exec_carries h.wf hother.issued (hexec.symm ▸ hafter)
      exact absurd (hbefore.unique hcarries) hne
  · obtain ⟨old, hold, -⟩ := hcarries
    obtain ⟨new, hnew, hversion⟩ := exec_job h.wf ⟨env, .recordManifest r⟩ hold
    rw [hexec] at hnew
    obtain rfl : new = job := Option.some.inj (hnew.symm.trans hj)
    rw [hversion]
    obtain ⟨parentIds, hplists, hpexact⟩ := hparents r hmem (hnone .parent)
    obtain ⟨vectorIds, hvlists, hvexact⟩ := hvectors r hmem (hnone .vector)
    constructor
    · exact (recordManifest_ids hrecord hold hvlists).symm ▸ hvexact
    · exact (recordManifest_ids hrecord hold hplists).symm ▸ hpexact

/-! ## Statements -/

/-- A statement that leaves the stores alone and verifies nothing. -/
theorem Program.Fits.next (h : p.Fits j k stores) (hscript : p.script = st :: rest)
    (hst : ∀ kind ids, st ≠ verifying kind ids) : { p with script := rest }.Fits j k stores where
  job := h.job
  execution := h.execution
  ordered := (hscript ▸ h.ordered : Ordered j k (st :: rest)).2
  issued := h.issued
  building := by
    rintro ⟨st', hmem, hbuilds⟩ hcarries
    have hbuilding : Building p.script := ⟨st', hscript ▸ List.mem_cons_of_mem _ hmem, hbuilds⟩
    obtain ⟨hstaged, hparents, hvectors⟩ := h.building hbuilding hcarries
    rw [hscript] at hparents hvectors
    exact ⟨hstaged, hparents.tail (hst .parent), hvectors.tail (hst .vector)⟩

/-- What a verification has found is what the manifest will list. -/
theorem Program.Fits.verify (h : p.Fits j k stores)
    {ids : List String} (hscript : p.script = .verifyParents ids :: rest ∧
    exactIds ids stores.parents = true ∨
    p.script = .verifyVectors ids :: rest ∧ exactIds ids stores.vectors = true) :
    { p with script := rest }.Fits j k stores := by
  obtain ⟨hscript, hexact⟩ | ⟨hscript, hexact⟩ := hscript
  all_goals
    have hordered := h.ordered
    rw [hscript] at hordered
    refine ⟨h.job, h.execution, hordered.2, h.issued, ?_⟩
    rintro ⟨st, hmem, hbuilds⟩ hcarries
    have hbuilding : Building p.script := ⟨st, hscript ▸ List.mem_cons_of_mem _ hmem, hbuilds⟩
    obtain ⟨hstaged, hparents, hvectors⟩ := h.building hbuilding hcarries
    rw [hscript] at hparents hvectors
  · exact ⟨hstaged, .of_exactly (exactly_of_exactIds hexact) hordered.1,
      hvectors.tail (by simp [verifying])⟩
  · exact ⟨hstaged, hparents.tail (by simp [verifying]),
      .of_exactly (exactly_of_exactIds hexact) hordered.1⟩

def Statement.writes : Statement → Bool
  | .deleteParents | .upsertParents _ | .deleteVectors | .insertVectors _ => true
  | _ => false

theorem Statement.ne_verifying_of_writes (h : st.writes = true) :
    ∀ kind ids, st ≠ verifying kind ids := by
  rintro (_ | _) ids rfl <;> simp [verifying, writes] at h

theorem Statement.builds_of_writes (h : st.writes = true) : st.builds = true := by
  cases st <;> simp_all [writes, builds]

theorem System.Sound.writeParents (h : s.Sound j) (hp : s.programs k = some p)
    (hscript : p.script = st :: rest) (hst : st.writes = true)
    (hverify : ∃ ids, .verifyParents ids ∈ rest) (hcarries : s.stores.catalog.Carries j k)
    (parents : List String) :
    ({ s with stores := { s.stores with parents } }.set k (some { p with script := rest })).Sound j := by
  have hfits := h.programs k p hp
  have hbuilding : Building p.script := ⟨st, hscript ▸ List.mem_cons_self, builds_of_writes hst⟩
  obtain ⟨-, -, hvectors⟩ := hfits.building hbuilding hcarries
  have hordered := hfits.ordered
  rw [hscript] at hvectors hordered
  exact h.write hp hbuilding hcarries { s.stores with parents } rfl hordered.2
    (.of_verifying hverify) (hvectors.tail (ne_verifying_of_writes hst .vector))

theorem System.Sound.writeVectors (h : s.Sound j) (hp : s.programs k = some p)
    (hscript : p.script = st :: rest) (hst : st.writes = true)
    (hverify : ∃ ids, .verifyVectors ids ∈ rest) (hcarries : s.stores.catalog.Carries j k)
    (vectors : List String) :
    ({ s with stores := { s.stores with vectors } }.set k (some { p with script := rest })).Sound j := by
  have hfits := h.programs k p hp
  have hbuilding : Building p.script := ⟨st, hscript ▸ List.mem_cons_self, builds_of_writes hst⟩
  obtain ⟨-, hparents, -⟩ := hfits.building hbuilding hcarries
  have hordered := hfits.ordered
  rw [hscript] at hparents hordered
  exact h.write hp hbuilding hcarries { s.stores with vectors } rfl hordered.2
    (hparents.tail (ne_verifying_of_writes hst .parent)) (.of_verifying hverify)

/-- The answer of the loader starts the writes: both verifications are still to come. -/
theorem Program.Fits.load [AsciiNormal] (h : p.Fits j k stores)
    (hscript : p.script = .load :: rest) (loaded : List Chunk) :
    { p with script := indexScript p.context loaded }.Fits j k stores where
  job := h.job
  execution := h.execution
  ordered := ordered_indexScript h.job h.execution loaded
  issued := h.issued
  building _ hcarries := by
    obtain ⟨hstaged, -⟩ := h.building ⟨.load, hscript ▸ List.mem_cons_self, rfl⟩ hcarries
    refine ⟨hstaged, .of_verifying ⟨chunkIds (loaded.filter Chunk.isParent), ?_⟩,
      .of_verifying ⟨(loaded.filter Chunk.isLeaf).map fun c => strip c.chunkId, ?_⟩⟩
    · simp [verifying, indexScript, parentScript]
    · simp [verifying, indexScript]

theorem System.Sound.perform [AsciiNormal] (h : s.Sound j) (hp : s.programs k = some p)
    {script : List Statement} (hscript : p.script = st :: rest)
    (howned : st.writes = true → s.stores.catalog.Carries j k) {loaded : List Chunk}
    (hst : st.perform env p.context loaded rest s.stores = .ok (stores, script)) :
    ({ s with stores }.set k (some { p with script })).Sound j := by
  have hfits := h.programs k p hp
  have hordered : Ordered j k (st :: rest) := hscript ▸ hfits.ordered
  cases st with
  | call op =>
    obtain ⟨catalog, hcommit, heq⟩ := map_eq_ok.mp hst
    cases heq
    by_cases hmanifest : ∃ r, op = .recordManifest r
    · obtain ⟨r, rfl⟩ := hmanifest
      exact h.stage hp hscript hcommit
    · have hleaves : Call.Leaves ⟨env, op⟩ j := fun r hr => absurd ⟨r, hr⟩ hmanifest
      have hsound := h.exec hleaves
      rw [exec_of_commit hcommit] at hsound
      refine hsound.put ((hsound.programs k p hp).next hscript ?_)
      rintro (_ | _) ids <;> simp [verifying]
  | load =>
    cases hst
    exact h.put (hfits.load hscript loaded)
  | require ok =>
    simp only [perform] at hst
    split at hst
    · cases hst
      exact h.put (hfits.next hscript (by rintro (_ | _) ids <;> simp [verifying]))
    · cases hst
  | deleteParents | upsertParents documents =>
    cases hst
    exact h.writeParents hp hscript rfl hordered.1 (howned rfl) _
  | verifyParents expected =>
    simp only [perform] at hst
    split at hst
    · rename_i hexact
      cases hst
      exact h.put (hfits.verify (.inl ⟨hscript, hexact⟩))
    · cases hst
  | deleteVectors | insertVectors batch =>
    cases hst
    exact h.writeVectors hp hscript rfl hordered.1 (howned rfl) _
  | verifyVectors expected =>
    simp only [perform] at hst
    split at hst
    · rename_i hexact
      cases hst
      exact h.put (hfits.verify (.inr ⟨hscript, hexact⟩))
    · cases hst

theorem System.Sound.act [AsciiNormal] (h : s.Sound j) (hp : s.programs k = some p)
    (howned : ∀ st rest, p.script = st :: rest → st.writes = true → s.stores.catalog.Carries j k)
    (env : Env) (loaded : List Chunk) : (s.act k p env loaded).Sound j := by
  unfold System.act
  cases hscript : p.script with
  | nil => exact h.drop
  | cons st rest =>
    dsimp only
    split
    · rename_i stores script hst
      exact h.perform hp hscript (howned st rest hscript) hst
    · exact h.drop

/-! ## Starting -/

omit [Platform] in
theorem not_staged {c : Catalog} (hw : c.ledger.Wf) {g : JobGraph} (hg : c.Joined g)
    (hid : g.jobId = j) (hopen : g.job.status.terminal = false) (hstatus : g.job.status ≠ .staged) :
    ¬ c.Staged j := by
  rintro ⟨job, hj, row, hrow, hsettled⟩
  obtain rfl : g.job = job := Option.some.inj (hg.job.symm.trans (hid ▸ hj))
  have hagrees := hw.agrees j _ _ (Catalog.ledger_job hj) (Catalog.ledger_version hrow)
  obtain hs | hs := hsettled
  · exact hstatus (hagrees.staged.mp hs)
  · have hdone : g.job.status = .completed := hagrees.ready hs
    simp [hdone, IndexJobStatus.terminal] at hopen

/-- A program starts under the lease, and builds only a version that is not staged. -/
theorem startRun_fits (hw : s.stores.catalog.ledger.Wf) {configured : BuildProfile}
    (h : startRun env j k configured s.stores = .ok p) : p.Fits j k s.stores := by
  simp only [startRun, assertIndexLease, versionBuild, ok_rules] at h
  obtain ⟨build, ⟨g, hgraph, _, hguard, _, hcand, g', hgraph', _, _, rfl⟩, h⟩ := h
  obtain rfl : g' = g := Except.ok.inj (hgraph'.symm.trans hgraph)
  have hcarries := (held_of_guard hgraph hguard).carries
  obtain ⟨hg, hid⟩ := jobGraph_ok hgraph
  split at h
  · cases h
    refine ⟨rfl, rfl, trivial, hcarries.issued, ?_⟩
    rintro ⟨_, hmem, _⟩
    cases hmem
  · simp only [ok_rules] at h
    obtain ⟨_, _, _, _, h⟩ := h
    split at h
    · cases h
      refine ⟨rfl, rfl, ordered_stagedScript _, hcarries.issued, ?_⟩
      rintro ⟨st, hmem, hbuilds⟩
      simp only [stagedScript, List.mem_cons, List.not_mem_nil, or_false] at hmem
      obtain rfl | rfl := hmem <;> simp [Context.guard, Context.publish, builds] at hbuilds
    · rename_i hstatus
      simp only [ok_rules] at h
      obtain ⟨_, _, rfl⟩ := h
      refine ⟨rfl, rfl, ordered_buildScript _, hcarries.issued, fun _ _ => ⟨?_, ?_, ?_⟩⟩
      · exact not_staged hw hg hid (assertCandidate_ok hcand).1.open_job hstatus
      · intro r hr
        simp [buildScript, Context.report, Context.guard] at hr
      · intro r hr
        simp [buildScript, Context.report, Context.guard] at hr

/-! ## Runs -/

/-- The next statement of the execution writes one of the chunk stores. -/
def System.writing (s : System) (k : IndexJobExecution) : Bool :=
  match s.programs k with
  | some ⟨_, st :: _⟩ => st.writes
  | _ => false

/-- Every write to a store takes effect while the job row still names the execution that
makes it. -/
def Event.Owned (s : System) : Event j → Prop
  | .act k _ _ => s.writing k = true → s.stores.catalog.Carries j k
  | _ => True

instance (s : System) : (e : Event j) → Decidable (e.Owned s)
  | .act k _ _ => inferInstanceAs (Decidable (s.writing k = true → s.stores.catalog.Carries j k))
  | .other _ | .start .. | .crash _ => .isTrue trivial

theorem System.sound_initial : initial.Sound j where
  wf := Catalog.ledger_empty ▸ Ledger.wf_empty
  programs k p hp := by cases hp
  exact job hj := by cases hj

theorem System.Sound.step [AsciiNormal] (h : s.Sound j) (e : Event j) (howned : e.Owned s) :
    (s.step e).Sound j := by
  cases e with
  | other c =>
    refine h.exec fun r hr hj => c.outside ?_
    rw [hr, settles, hj]
  | start k configured env =>
    simp only [System.step]
    split
    · exact h
    · split
      · rename_i p hp
        exact h.put (startRun_fits h.wf hp)
      · exact h
  | act k env loaded =>
    simp only [System.step]
    split
    · rename_i p hp
      refine h.act hp (fun st rest hscript hwrites => howned ?_) env loaded
      obtain ⟨ctx, script⟩ := p
      obtain rfl : script = st :: rest := hscript
      simpa only [writing, hp] using hwrites
    · exact h
  | crash k => exact h.drop

theorem System.run_sound [AsciiNormal] {events : List (Event j)}
    (howned : Machine.Along step (fun s e => Event.Owned s e) initial events) :
    (run step initial events).Sound j :=
  run_preserves_along (I := fun s => System.Sound j s) (fun _ e h => h.step e)
    sound_initial howned

end Steps

/-- In every run whose writes to the stores are all made by the execution that the job row
names, the rows of the published version are those of its manifest, each once. -/
theorem published_rows_exact [AsciiNormal] (j : Id) (events : List (Event j))
    (howned : Machine.Along step (fun s e => Event.Owned s e) initial events) {job : IndexJob}
    {row : DocumentVersion} (hj : (run step initial events).stores.catalog.jobs.get j = some job)
    (hrow : (run step initial events).stores.catalog.versions.get job.documentVersionId = some row)
    (hready : row.status = .ready) : (run step initial events).stores.Exact job.documentVersionId :=
  (run_sound howned).exact job hj ⟨row, hrow, .inr hready⟩

end Runs

/-! ## Sample runs

One document with one parent and one leaf chunk; a build takes 34 statements. -/

namespace Sample

open PlainPlatform Documents.Sample

def first : IndexJobExecution := ⟨"first", 1⟩

def second : IndexJobExecution := ⟨"second", 2⟩

def chunks : List Chunk := [
  ⟨"parent", digest 'c', "section", 1, by decide +kernel⟩,
  ⟨"leaf", digest 'd', "section", 3, by decide +kernel⟩]

def claimed (now : Time) (k : IndexJobExecution) : List (Event 1) := [
  .other ⟨claim now k.workerId, by simp [claim, settles]⟩,
  .start k ⟨"parser", "chunker", "embedding", "index"⟩ (env now 0)]

def acts (k : IndexJobExecution) (now : Time) (n : ℕ) : List (Event 1) :=
  List.replicate n (.act k (env now 0) chunks)

def uploaded : List (Event 1) := [
  .other ⟨createBase, by decide⟩,
  .other ⟨upload 1 1 'a', by decide⟩]

def late : Time := 3 + secondsSpan 60

/-- The first execution stops after the guard before its vectors are deleted, and its lease
runs out. The second one builds and publishes the version. -/
def built : List (Event 1) :=
  uploaded ++ claimed 2 first ++ acts first 2 21 ++ claimed late second ++ acts second late 34

/-- The deletion of the first execution arrives after the second one has published. -/
def overtaken : List (Event 1) := built ++ acts first late 1

def isReady (s : Stores) (j : Id) : Bool :=
  (s.catalog.jobs.get j).any fun job =>
    (s.catalog.versions.get job.documentVersionId).any fun row => row.status == .ready

end Sample

open PlainPlatform in
theorem built_rows_exact : ∃ job row,
    (run step initial Sample.built).stores.catalog.jobs.get 1 = some job ∧
    (run step initial Sample.built).stores.catalog.versions.get
      job.documentVersionId = some row ∧ row.status = .ready ∧
    (run step initial Sample.built).stores.Exact job.documentVersionId := by
  have hready : Sample.isReady (run step initial Sample.built).stores 1 := by
    decide +kernel
  simp only [Sample.isReady, Option.any_eq_true, beq_iff_eq] at hready
  obtain ⟨job, hj, row, hrow, hready⟩ := hready
  have : AsciiNormal := plain_asciiNormal
  exact ⟨job, row, hj, hrow, hready,
    published_rows_exact 1 Sample.built (by decide +kernel) hj hrow hready⟩

open PlainPlatform in
/-- The late deletion empties the published version: its manifest lists a vector that
Milvus no longer has. -/
theorem overtaken_rows_lost : let s := (run step initial Sample.overtaken).stores
    Sample.isReady s 1 = true ∧ s.catalog.manifestIds 1 .vector = ["leaf"] ∧ s.vectors = [] ∧
      ¬ s.Exact 1 := by
  have h : let s := (run step initial Sample.overtaken).stores
      Sample.isReady s 1 = true ∧ s.catalog.manifestIds 1 .vector = ["leaf"] ∧ s.vectors = [] := by
    decide +kernel
  obtain ⟨hready, hids, hrows⟩ := h
  refine ⟨hready, hids, hrows, fun hexact => ?_⟩
  have hperm := hexact.vectors.1
  rw [hids, hrows] at hperm
  simp at hperm

end SuperMew.Publication
