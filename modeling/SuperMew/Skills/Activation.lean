import SuperMew.Library.Run
import SuperMew.Skills.Registry

/-! Runs of the sessions: what activations, searches and calls do to the tools of a Run. -/

namespace SuperMew.Skills

open Tools Machine ToolSession

/-! ## Operations -/

/-- What happens within a Run: a router or a replay activates a skill, a user names one, the
model calls `describe_skill` or `tool_search`, or any other tool. -/
inductive Op where
  | activate (name source : String) (persist : Except String Unit)
  | prepare (text : String) (persist : Except String Unit)
  | describe (name : String) (persist : Except String Unit)
  | search (query : String) (limit : ℤ)
  | call (name : String)

/-- The result of `describe_skill`. -/
inductive Description where
  | activated (name version contentHash : String) (allowedTools : List String)
  | unavailable
  deriving DecidableEq, Repr

/-- `describe_skill`: errors of the skill registry become a failed result. -/
def describeSkill (binding : Binding) (s : Sessions) (name : String)
    (persist : Except String Unit) : Except ActivationError Description × Sessions :=
  match activate binding s name "describe_skill" persist with
  | (.ok skill, after) =>
    (.ok (.activated skill.name skill.version skill.pin.contentHash
      ((skill.allowedTools.filter (· ∈ after.tools.authorizedNames)).insertionSort (· ≤ ·))),
      after)
  | (.error (.skill _ _), after) => (.ok .unavailable, after)
  | (.error e, after) => (.error e, after)

section Runs

variable [CaseFold] (binding : Binding)

def toolSearch (s : Sessions) (query : String) (limit : ℤ) : Sessions :=
  match s.tools.search query (max 1 (min limit 8)) with
  | .error _ => s
  | .ok (_, tools) => { s with tools := tools }

/-- A call of a tool changes neither session. -/
def exec (s : Sessions) : Op → Sessions
  | .activate name source persist => (activate binding s name source persist).2
  | .prepare text persist => (prepareUserText binding s text persist).2
  | .describe name persist => (describeSkill binding s name persist).2
  | .search query limit => toolSearch s query limit
  | .call _ => s

abbrev after (ops : List Op) : Sessions := run (exec binding) binding.start ops

end Runs

/-- The activation that an operation asks for. -/
def Op.request : Op → Option (String × String × Except String Unit)
  | .activate name source persist => some (name, source, persist)
  | .prepare text persist =>
    match explicitSkill text with
    | none => none
    | some (name, separated, body) =>
      if separated = false ∧ body ≠ "" then none else some (name, "explicit_slash", persist)
  | .describe name persist => some (name, "describe_skill", persist)
  | .search _ _ => none
  | .call _ => none

variable {name : String} {persist : Except String Unit} {source : String}

section Laws

variable {binding : Binding} {s : Sessions}

theorem normalizeStringSet_names {field : String} {names : List String}
    (h : ∀ name ∈ names, isToolName name = true) :
    normalizeStringSet field names = .ok names.toFinset := by
  induction names with
  | nil => rfl
  | cons name rest ih =>
    obtain ⟨hstrip, hne⟩ := strip_of_isToolName (h name List.mem_cons_self)
    rw [normalizeStringSet, hstrip, if_neg hne,
      ih fun other hother => h other (List.mem_cons_of_mem _ hother), List.toFinset_cons]
    rfl

theorem registry_activate_ok {registry : SkillRegistry}
    {access : SkillAccess} {expectedPin : Option SkillPin} {skill : ActivatedSkill}
    (h : registry.activate name access source expectedPin = .ok skill) :
    skill.name = name ∧ ∀ tool ∈ skill.allowedTools, isToolName tool = true := by
  unfold SkillRegistry.activate at h
  split at h
  · cases h
  · rename_i record hrecord
    split at h
    · simp only [ok_rules] at h
      obtain ⟨normalized, -, h⟩ := h
      split at h
      · cases h
      · cases h
        have hname := List.find?_some hrecord
        exact ⟨by simpa using hname, record.manifest.toolNames⟩
    · cases h

variable [CaseFold]

theorem exec_request {op : Op} (h : op.request = some (name, source, persist)) :
    exec binding s op = (activate binding s name source persist).2 := by
  cases op with
  | activate =>
    cases h
    rfl
  | prepare text outcome =>
    simp only [Op.request] at h
    simp only [exec, prepareUserText]
    rcases hfound : explicitSkill text with _ | ⟨found, separated, body⟩
    · rw [hfound] at h
      cases h
    · rw [hfound] at h
      dsimp only at h ⊢
      split at h
      · cases h
      · rename_i hactivates
        cases h
        rw [if_neg hactivates]
        split <;> simp_all
  | describe found outcome =>
    cases h
    simp only [exec, describeSkill]
    split <;> simp_all
  | search | call => cases h

/-- An operation that asks for no activation searches, or changes nothing. -/
theorem exec_quiet {op : Op} (h : op.request = none) :
    exec binding s op = s ∨ ∃ query limit, exec binding s op = toolSearch s query limit := by
  cases op with
  | activate | describe => cases h
  | prepare text outcome =>
    refine .inl ?_
    simp only [Op.request] at h
    simp only [exec, prepareUserText]
    rcases hfound : explicitSkill text with _ | ⟨found, separated, body⟩
    · rfl
    · rw [hfound] at h
      dsimp only at h ⊢
      split at h
      · rename_i hplain
        rw [if_pos hplain]
      · cases h
  | search query limit => exact .inr ⟨query, limit, rfl⟩
  | call => exact .inl rfl

/-! ## Scopes -/

def scopeOf (tools : ToolSession) (skill : ActivatedSkill) : Finset String :=
  tools.authorizedNames ∩ skill.allowedTools.toFinset

def narrowed (tools : ToolSession) (skill : ActivatedSkill) : ToolSession :=
  { tools with
    skillScope := scopeOf tools skill
    visibleNames := scopeOf tools skill
    executableNames := scopeOf tools skill }

/-- What an activation can do. -/
inductive ActivateOutcome (binding : Binding) (s : Sessions) (name source : String)
    (persist : Except String Unit) :
    Except ActivationError ActivatedSkill × Sessions → Prop where
  | refused (error : ActivationError) (h : ∀ skill, s.active = none →
      binding.skills.activate name binding.skillAccess source binding.expectedPin ≠ .ok skill) :
      ActivateOutcome binding s name source persist (.error error, s)
  | again {skill : ActivatedSkill} (h : s.active = some skill) :
      ActivateOutcome binding s name source persist (.ok skill, s)
  | failed {skill : ActivatedSkill} {message : String} (h : s.active = none)
      (hskill : binding.skills.activate name binding.skillAccess source binding.expectedPin =
        .ok skill) (hpersist : persist = .error message) :
      ActivateOutcome binding s name source persist
        (.error (.callback message), ⟨none, narrowed s.tools skill⟩)
  | activated {skill : ActivatedSkill} (h : s.active = none)
      (hskill : binding.skills.activate name binding.skillAccess source binding.expectedPin =
        .ok skill) (hpersist : persist = .ok ()) :
      ActivateOutcome binding s name source persist (.ok skill, ⟨some skill, narrowed s.tools skill⟩)

variable (binding s) in
omit [CaseFold] in
theorem activate_outcome (name source : String) (persist : Except String Unit) :
    ActivateOutcome binding s name source persist (activate binding s name source persist) := by
  unfold activate
  cases hactive : s.active with
  | some active =>
    dsimp only
    split
    · exact .refused _ fun _ hnone => by rw [hactive] at hnone; cases hnone
    · exact .again hactive
  | none =>
    dsimp only
    cases hskill : binding.skills.activate name binding.skillAccess source binding.expectedPin with
    | error e => exact .refused _ fun _ _ hok => by rw [hskill] at hok; cases hok
    | ok skill =>
      have happly : s.tools.applySkill skill.allowedTools = .ok (narrowed s.tools skill) := by
        rw [applySkill, normalizeStringSet_names (registry_activate_ok hskill).2]
        rfl
      simp only [happly]
      cases hpersist : persist with
      | error message => exact .failed hactive hskill rfl
      | ok done => exact .activated hactive hskill rfl

/-! ## Invariants -/

/-- The tools stay inside the scope, the scope inside the authorized tools, and inside those
of the active skill. -/
structure Narrow (authorized : Finset String) (s : Sessions) : Prop where
  names : s.tools.authorizedNames = authorized
  executable : s.tools.executableNames ⊆ s.tools.skillScope
  visible : s.tools.visibleNames ⊆ s.tools.skillScope
  scope : s.tools.skillScope ⊆ authorized
  skill : ∀ skill, s.active = some skill → s.tools.skillScope ⊆ skill.allowedTools.toFinset

omit [CaseFold] in
theorem namesOf_filter_subset (registrations : List RegisteredTool)
    (keep : RegisteredTool → Bool) : namesOf (registrations.filter keep) ⊆ namesOf registrations := by
  intro name hname
  simp only [namesOf, List.mem_toFinset, List.mem_map, List.mem_filter] at hname ⊢
  obtain ⟨tool, ⟨hmem, -⟩, rfl⟩ := hname
  exact ⟨tool, hmem, rfl⟩

omit [CaseFold] in
theorem start_narrow (binding : Binding) :
    Narrow binding.start.tools.authorizedNames binding.start := by
  refine ⟨rfl, namesOf_filter_subset _ _, namesOf_filter_subset _ _, Finset.Subset.refl _, ?_⟩
  intro skill hskill
  cases hskill

theorem searchRegistrations_scope {registrations found : List RegisteredTool} {query : String}
    {names : Finset String} {limit : ℤ} {exposure : Option ToolExposure}
    (h : searchRegistrations registrations query names limit exposure = .ok found) :
    namesOf found ⊆ names := by
  unfold searchRegistrations at h
  split at h
  · cases h
  · split at h
    · cases h
      simp [namesOf]
    · cases h
      intro name hname
      simp only [namesOf, List.mem_toFinset, List.mem_map] at hname
      obtain ⟨tool, ⟨entry, hentry, rfl⟩, rfl⟩ := hname
      have hsorted := List.mem_of_mem_take hentry
      rw [List.mem_insertionSort, List.mem_filter, List.mem_map] at hsorted
      obtain ⟨⟨candidate, hcandidate, rfl⟩, -⟩ := hsorted
      have hkept := (List.mem_filter.mp hcandidate).2
      simp only [Bool.and_eq_true, decide_eq_true_eq] at hkept
      exact hkept.1

variable {authorized : Finset String}

theorem toolSearch_narrow (h : Narrow authorized s) (query : String)
    (limit : ℤ) : Narrow authorized (toolSearch s query limit) ∧
      (toolSearch s query limit).active = s.active := by
  unfold toolSearch
  split
  · exact ⟨h, rfl⟩
  · rename_i found tools hsearch
    rw [search] at hsearch
    cases hfound : searchRegistrations s.tools.registrations query s.tools.skillScope
        (max 1 (min limit 8)) (some .deferred) with
    | error e => rw [hfound] at hsearch; cases hsearch
    | ok matched =>
      rw [hfound] at hsearch
      cases hsearch
      have hscope := searchRegistrations_scope hfound
      exact ⟨⟨h.names, Finset.union_subset h.executable hscope,
        Finset.union_subset h.visible hscope, h.scope, h.skill⟩, rfl⟩

omit [CaseFold] in
theorem narrowed_narrow (h : Narrow authorized s) (skill : ActivatedSkill)
    (active : Option ActivatedSkill) (hactive : ∀ other, active = some other → other = skill) :
    Narrow authorized ⟨active, narrowed s.tools skill⟩ := by
  refine ⟨h.names, Finset.Subset.refl _, Finset.Subset.refl _, ?_, fun other hother => ?_⟩
  · exact h.names ▸ Finset.inter_subset_left
  · rw [hactive other hother]
    exact Finset.inter_subset_right

/-- Every operation keeps the invariant and the active skill. -/
theorem exec_narrow (h : Narrow authorized s) (op : Op) :
    Narrow authorized (exec binding s op) ∧
      ∀ skill, s.active = some skill → (exec binding s op).active = some skill := by
  cases hrequest : op.request with
  | none =>
    rcases exec_quiet hrequest with hsame | ⟨query, limit, hsearch⟩
    · rw [hsame]
      exact ⟨h, fun _ hskill => hskill⟩
    · obtain ⟨hnarrow, hactive⟩ := toolSearch_narrow h query limit
      rw [hsearch]
      exact ⟨hnarrow, fun skill hskill => hactive.trans hskill⟩
  | some request =>
    obtain ⟨name, source, persist⟩ := request
    have houtcome := activate_outcome binding s name source persist
    rw [exec_request hrequest]
    generalize activate binding s name source persist = result at houtcome
    cases houtcome with
    | refused error | again => exact ⟨h, fun _ hskill => hskill⟩
    | failed hnone hskill =>
      refine ⟨narrowed_narrow h _ none (fun _ hother => by cases hother), fun skill hactive => ?_⟩
      rw [hnone] at hactive
      cases hactive
    | activated hnone hskill =>
      refine ⟨narrowed_narrow h _ (some _) fun _ hother => (Option.some.inj hother).symm,
        fun skill hactive => ?_⟩
      rw [hnone] at hactive
      cases hactive

/-! ## Activations -/

/-- An activation that raises leaves the active skill and the tools as they were. -/
def AllOrNothing (binding : Binding) (s : Sessions) (op : Op) : Prop :=
  ∀ name source persist error, op.request = some (name, source, persist) →
    (activate binding s name source persist).1 = .error error →
      (exec binding s op).active = s.active ∧
        (exec binding s op).tools.visibleNames = s.tools.visibleNames ∧
        (exec binding s op).tools.executableNames = s.tools.executableNames

/-- If the callback raises in the activation of a skill, the Run has the tools of that skill
already. -/
def PinHolds (binding : Binding) (s : Sessions) (op : Op) : Prop :=
  ∀ name source message skill, op.request = some (name, source, .error message) →
    s.active = none →
      binding.skills.activate name binding.skillAccess source binding.expectedPin = .ok skill →
        s.tools.visibleNames = scopeOf s.tools skill ∧
          s.tools.executableNames = scopeOf s.tools skill

theorem allOrNothing_iff (op : Op) : AllOrNothing binding s op ↔ PinHolds binding s op := by
  constructor
  · intro h name source message skill hrequest hnone hskill
    have houtcome := activate_outcome binding s name source (.error message)
    have hlaw := h name source (.error message)
    rw [exec_request hrequest] at hlaw
    generalize activate binding s name source (.error message) = result at houtcome hlaw
    cases houtcome with
    | refused error hrefused => exact absurd hskill (hrefused skill hnone)
    | again hactive => rw [hnone] at hactive; cases hactive
    | failed _ hfound =>
      cases hfound.symm.trans hskill
      obtain ⟨-, hvisible, hexecutable⟩ := hlaw _ hrequest rfl
      exact ⟨hvisible.symm, hexecutable.symm⟩
    | activated _ _ hpersist => cases hpersist
  · intro h name source persist error hrequest herror
    have houtcome := activate_outcome binding s name source persist
    rw [exec_request hrequest]
    generalize activate binding s name source persist = result at houtcome herror
    cases houtcome with
    | refused | again => exact ⟨rfl, rfl, rfl⟩
    | failed hnone hskill hpersist =>
      subst hpersist
      obtain ⟨hvisible, hexecutable⟩ := h name source _ _ hrequest hnone hskill
      exact ⟨hnone.symm, hvisible.symm, hexecutable.symm⟩
    | activated => cases herror

omit [CaseFold] in
theorem activate_active
    {skill : ActivatedSkill} (h : (activate binding s name source persist).1 = .ok skill) :
    (activate binding s name source persist).2.active = some skill := by
  have houtcome := activate_outcome binding s name source persist
  generalize activate binding s name source persist = result at houtcome h
  cases houtcome with
  | refused | failed => cases h
  | again hactive =>
    cases h
    exact hactive
  | activated =>
    cases h
    rfl

omit [CaseFold] in
theorem start_authorized (h : name ∈ binding.start.tools.authorizedNames) :
    binding.tools.authorize name binding.toolAccess = true := by
  simp only [Binding.start, ToolRegistry.bind, start, namesOf, List.mem_toFinset,
    List.mem_map, List.mem_filter] at h
  obtain ⟨tool, ⟨-, hauthorized⟩, rfl⟩ := h
  exact hauthorized

theorem after_narrow (binding : Binding) (ops : List Op) :
    Narrow binding.start.tools.authorizedNames (after binding ops) :=
  run_preserves (I := Narrow binding.start.tools.authorizedNames)
    (fun _ op h => (exec_narrow h op).1) (start_narrow binding) ops

theorem active_stays (hs : Narrow authorized s)
    {skill : ActivatedSkill} (hactive : s.active = some skill) (ops : List Op) :
    (run (exec binding) s ops).active = some skill := by
  have hinv : Narrow authorized (run (exec binding) s ops) ∧
      (run (exec binding) s ops).active = some skill := by
    refine run_preserves (I := fun t => Narrow authorized t ∧ t.active = some skill)
      (fun t op h => ?_) ⟨hs, hactive⟩ ops
    obtain ⟨hnarrow, hkept⟩ := exec_narrow h.1 op
    exact ⟨hnarrow, hkept skill h.2⟩
  exact hinv.2

/-- Along every run the tools stay authorized and, after an activation, inside those of its
skill, which stays active. Its activations are all or nothing exactly if the callback raises
in none that changes the tools. -/
theorem activations_narrow (binding : Binding) (ops : List Op) :
    (∀ name ∈ (after binding ops).tools.executableNames,
        binding.tools.authorize name binding.toolAccess = true) ∧
      (∀ op name source persist skill, op.request = some (name, source, persist) →
        (activate binding (after binding ops) name source persist).1 = .ok skill →
          ∀ later, (after binding (ops ++ op :: later)).active = some skill ∧
            (after binding (ops ++ op :: later)).tools.executableNames ⊆
              skill.allowedTools.toFinset) ∧
      (Machine.Along (exec binding) (AllOrNothing binding) binding.start ops ↔
        Machine.Along (exec binding) (PinHolds binding) binding.start ops) := by
  refine ⟨fun name hname => ?_, fun op name source persist skill hrequest hok later => ?_, ?_⟩
  · have hnarrow := after_narrow binding ops
    exact start_authorized (hnarrow.scope (hnarrow.executable hname))
  · have hnarrow := after_narrow binding (ops ++ op :: later)
    have hactive : (after binding (ops ++ op :: later)).active = some skill := by
      rw [after, run_append, run_cons]
      refine active_stays (exec_narrow (after_narrow binding ops) op).1 ?_ later
      rw [exec_request hrequest]
      exact activate_active hok
    exact ⟨hactive, fun tool htool => hnarrow.skill skill hactive (hnarrow.executable htool)⟩
  · constructor
    · exact Machine.Along.imp fun _ op h => (allOrNothing_iff op).mp h
    · exact Machine.Along.imp fun _ op h => (allOrNothing_iff op).mpr h

end Laws

/-! ## Samples -/

namespace Sample

instance : CaseFold := ⟨id⟩

def tool (name : String) (exposure : ToolExposure) : RegisteredTool :=
  ⟨⟨name, name, "data", ∅, ∅, false, "none"⟩, exposure⟩

def skill (name : String) (allowedTools : List String)
    (h : ∀ tool ∈ allowedTools, isToolName tool = true) : SkillRecord :=
  ⟨⟨name, "1.0.0", name, allowedTools, ∅, ∅, h⟩, name, ⟨name, "1.0.0", "f"⟩, rfl, rfl⟩

/-- A resident tool, a deferred one, and a skill that allows the deferred one. -/
def binding : Binding where
  skills := ⟨[skill "analysis" ["sql_query"] (by decide)], by decide⟩
  skillAccess := ⟨∅, ∅⟩
  expectedPin := none
  tools := ⟨[tool "web_search" .resident, tool "sql_query" .deferred], by decide⟩
  toolAccess := ⟨∅, ∅, {"web_search", "sql_query"}, ∅, {"none"}⟩

end Sample

open Sample in
/-- A skill that is made durable leaves its own tools. -/
theorem durable_activation_narrows :
    (after binding [.describe "analysis" (.ok ())]).tools.executableNames = {"sql_query"} ∧
      ∀ name ∈ (after binding [.describe "analysis" (.ok ())]).tools.executableNames,
        binding.tools.authorize name binding.toolAccess = true :=
  ⟨by decide +kernel, (activations_narrow binding [.describe "analysis" (.ok ())]).1⟩

open Sample in
/-- The callback raises, no skill is active, and the tools of the Run are others than before. -/
theorem failed_pin_changes_tools :
    (after binding [.describe "analysis" (.error "persistence failed")]).active = none ∧
      binding.start.tools.executableNames = {"web_search"} ∧
      (after binding [.describe "analysis" (.error "persistence failed")]).tools.executableNames =
        {"sql_query"} ∧
      ¬ AllOrNothing binding binding.start (.describe "analysis" (.error "persistence failed")) := by
  refine ⟨by decide +kernel, by decide +kernel, by decide +kernel, fun h => ?_⟩
  have hsame := (h "analysis" "describe_skill" (.error "persistence failed")
    (.callback "persistence failed") rfl rfl).2.2
  exact absurd hsame (by decide +kernel)

end SuperMew.Skills
