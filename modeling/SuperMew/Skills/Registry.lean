import SuperMew.Tools.Registry

/-! `SkillRegistry`, and the sessions of a Run that a skill is activated in. -/

namespace SuperMew.Skills

open Tools

/-! ## Skills -/

def isLowerAlnum (c : Char) : Bool := c.isLower || c.isDigit

/-- The name matches `[a-z][a-z0-9_.-]*`. -/
def isToolName (name : String) : Bool :=
  match name.toList with
  | [] => false
  | c :: rest => c.isLower && rest.all fun d => isLowerAlnum d || d == '_' || d == '.' || d == '-'

theorem graphic_of_isLowerAlnum {c : Char} (h : isLowerAlnum c = true) :
    33 ≤ c.toNat ∧ c.toNat ≤ 126 := by
  rw [isLowerAlnum, Bool.or_eq_true, isLower_iff, isDigit_iff] at h
  omega

/-- The name of a tool is not blank, and has no space around it. -/
theorem strip_of_isToolName {name : String} (h : isToolName name = true) :
    strip name = name ∧ name ≠ "" := by
  refine ⟨strip_of_graphic fun c hc => ?_, by rintro rfl; cases h⟩
  unfold isToolName at h
  cases hname : name.toList with
  | nil => simp [hname] at hc
  | cons first rest =>
    rw [hname] at h hc
    simp only [Bool.and_eq_true, List.all_eq_true, Bool.or_eq_true, beq_iff_eq] at h
    rcases List.mem_cons.mp hc with rfl | hc
    · exact graphic_of_isLowerAlnum (by simp [isLowerAlnum, h.1])
    · rcases h.2 c hc with ((hc | rfl) | rfl) | rfl
      · exact graphic_of_isLowerAlnum hc
      all_goals decide

structure SkillManifest where
  name : String
  version : String
  description : String
  allowedTools : List String
  requiredRoles : Finset String
  requiredSecrets : Finset String
  toolNames : ∀ tool ∈ allowedTools, isToolName tool = true

structure SkillPin where
  name : String
  version : String
  contentHash : String
  deriving DecidableEq, Repr

structure SkillRecord where
  manifest : SkillManifest
  content : String
  pin : SkillPin
  pinned : pin.name = manifest.name ∧ pin.version = manifest.version

structure SkillRegistry where
  records : List SkillRecord
  unique : (records.map fun record => record.manifest.name).Nodup

structure SkillAccess where
  roles : Finset String
  availableSecrets : Finset String

structure ActivatedSkill where
  name : String
  version : String
  description : String
  allowedTools : List String
  content : String
  pin : SkillPin
  source : String
  deriving DecidableEq, Repr

inductive SkillErrorKind where
  | notFound
  | accessDenied
  | pinMismatch
  | alreadyActive
  | invalid
  deriving DecidableEq, Repr

/-- What an activation can raise: an error of the skill registry, of the tool session, or of
the callback that makes the activation durable. -/
inductive ActivationError where
  | skill (kind : SkillErrorKind) (message : String)
  | tool (error : ToolError)
  | callback (message : String)
  deriving DecidableEq, Repr

def isAccessible (manifest : SkillManifest) (access : SkillAccess) : Bool :=
  decide (manifest.requiredRoles ⊆ access.roles) &&
    decide (manifest.requiredSecrets ⊆ access.availableSecrets)

def normalizeSource (source : String) : Except ActivationError String :=
  let normalized := strip source
  if normalized = "" ∨ 32 < normalized.length ∨ normalized.toList.any (fun c => c.toNat < 32) then
    .error (.skill .invalid "invalid skill activation source")
  else .ok normalized

def SkillRegistry.activate (registry : SkillRegistry) (name : String) (access : SkillAccess)
    (source : String) (expectedPin : Option SkillPin) : Except ActivationError ActivatedSkill :=
  match registry.records.find? fun record => record.manifest.name == name with
  | none => .error (.skill .notFound ("skill not found: " ++ name))
  | some record =>
    if isAccessible record.manifest access then do
      let normalized ← normalizeSource source
      if expectedPin.any (· ≠ record.pin) then
        .error (.skill .pinMismatch ("skill pin mismatch: " ++ name))
      else
        pure
          { name := record.manifest.name
            version := record.manifest.version
            description := record.manifest.description
            allowedTools := record.manifest.allowedTools
            content := record.content
            pin := record.pin
            source := normalized }
    else .error (.skill .accessDenied ("skill is unavailable: " ++ name))

/-! ## Sessions -/

/-- What a Run is bound to. -/
structure Binding where
  skills : SkillRegistry
  skillAccess : SkillAccess
  expectedPin : Option SkillPin
  tools : ToolRegistry
  toolAccess : ToolAccess

/-- The active skill and the tool session of a Run. -/
structure Sessions where
  active : Option ActivatedSkill
  tools : ToolSession

/-- The sessions of a new Run. -/
def Binding.start (binding : Binding) : Sessions :=
  ⟨none, binding.tools.bind binding.toolAccess⟩

/-- `SkillActivationSession.activate`, with `apply_skill` as `on_tools_changed`. `persist` is
what `on_activate` does. The tools change before it is called. -/
def activate (binding : Binding) (s : Sessions) (name source : String)
    (persist : Except String Unit) : Except ActivationError ActivatedSkill × Sessions :=
  match s.active with
  | some active =>
    if active.name ≠ name then
      (.error (.skill .alreadyActive
        ("cannot switch active skill from " ++ active.name ++ " to " ++ name)), s)
    else (.ok active, s)
  | none =>
    match binding.skills.activate name binding.skillAccess source binding.expectedPin with
    | .error e => (.error e, s)
    | .ok activated =>
      match s.tools.applySkill activated.allowedTools with
      | .error e => (.error (.tool e), s)
      | .ok tools =>
        match persist with
        | .error message => (.error (.callback message), { s with tools := tools })
        | .ok _ => (.ok activated, ⟨some activated, tools⟩)

/-! ## Explicit activation -/

/-- The rest of a name `[a-z][a-z0-9]*(?:-[a-z0-9]+)*` and what follows it. `dash` says that a
dash has been read, which belongs to the name only if a letter or digit follows. -/
def scanName (dash : Bool) : List Char → List Char × List Char
  | [] => ([], if dash then ['-'] else [])
  | c :: rest =>
    if isLowerAlnum c then
      let (name, others) := scanName false rest
      ((if dash then '-' :: c :: name else c :: name), others)
    else if c = '-' ∧ dash = false then scanName true rest
    else ([], if dash then '-' :: c :: rest else c :: rest)

def isSeparator (c : Char) : Bool := c == ' ' || c == '\t' || c == '\r' || c == '\n'

/-- The name of a skill at the start of a text, whether a separator follows, and the body. -/
def explicitSkill (text : String) : Option (String × Bool × String) :=
  match text.toList with
  | '/' :: c :: rest =>
    if c.isLower then
      let (name, others) := scanName false rest
      let body := others.dropWhile isSeparator
      some (String.ofList (c :: name), others.head?.any isSeparator, String.ofList body)
    else none
  | _ => none

def prepareUserText (binding : Binding) (s : Sessions) (text : String)
    (persist : Except String Unit) : Except ActivationError String × Sessions :=
  match explicitSkill text with
  | none => (.ok text, s)
  | some (name, separated, body) =>
    if separated = false ∧ body ≠ "" then (.ok text, s)
    else
      match activate binding s name "explicit_slash" persist with
      | (.ok _, after) => (.ok (if separated then body else ""), after)
      | (.error (.skill _ _), after) =>
        (.error (.skill .accessDenied "skill is unavailable"), after)
      | (.error e, after) => (.error e, after)

end SuperMew.Skills
