import SuperMew.Capabilities.Integrity

/-! The changes of administrators, interleaved: each checks in some transactions and writes in
a later one. -/

namespace SuperMew.Capabilities

open Tools Skills Relational Concurrent Database Machine

variable {username version : String} {request : HttpToolRequest} {settings : SkillSettings}
  {definitions : List SkillDefinition} {record : ManagedSkillRecord} {onlyEnabled : Bool}

section Laws

variable {db : Database}

theorem skillRecord_named {request : SkillRequest} {source : SkillSource}
    (h : skillRecord request version source = .ok record) :
    record.profile.name = request.name ∧ record.profile.version = version := by
  unfold skillRecord managedSkillRecord at h
  split at h
  · cases h
    exact ⟨rfl, rfl⟩
  · cases h

theorem nextVersion_eq_ok {next : String} (h : nextVersion version = .ok next) :
    nextPatch version = some next := by
  unfold nextVersion at h
  split at h
  · rename_i hnext
    rwa [← Except.ok.inj h]
  · cases h

variable [Libraries] [CaseFold]

/-! ## What a change knows and when it may write -/

/-- The lists that a change has read last. -/
structure Known where
  skills : Option (List ManagedSkillRecord) := none
  tools : Option (List ManagedHttpToolRecord) := none

def learn (known : Known) : (op : Op) → Except Fault op.Result → Known
  | .listSkills, .ok skills => { known with skills := some skills }
  | .listHttpTools, .ok tools => { known with tools := some tools }
  | _, _ => known

/-- A skill or a custom tool. -/
inductive Entity where
  | skill (name : String)
  | tool (name : String)
  deriving DecidableEq

/-- The entity that an operation edits, and the version that it gives to it. -/
def Op.edits : Op → Option (Entity × String)
  | .updateSkill record _ => some (.skill record.profile.name, record.profile.version)
  | .updateHttpTool record _ => some (.tool record.profile.name, record.profile.version)
  | _ => none

/-- The version of an entity in the lists that a change has read. -/
def Known.read (known : Known) : Entity → Option String
  | .skill name => ((known.skills.getD []).find? (·.profile.name == name)).map (·.profile.version)
  | .tool name => ((known.tools.getD []).find? (·.profile.name == name)).map (·.profile.version)

/-- An edit gives the version that follows the one it has read. -/
def Numbered (known : Known) (op : Op) : Prop :=
  ∀ edit ∈ op.edits, ∃ version ∈ known.read edit.1, nextPatch version = some edit.2

/-- What the service has checked, on the lists it has read, when it calls an operation. -/
def Checked (known : Known) : Op → Prop
  | .createSkill record _ | .updateSkill record _ =>
    ∃ custom, known.tools = some custom ∧ checkSkillTools record.profile custom = .ok ()
  | .createHttpTool record _ => record.profile.name ∉ toolNames defaultToolRegistry
  | .updateHttpTool record _ =>
    ∃ tools, known.tools = some tools ∧ ∃ current ∈ tools,
      current.profile.name = record.profile.name ∧
        (current.profile.enabled = true → record.profile.enabled = false →
          ∃ skills, known.skills = some skills ∧
            skillsReferencing skills record.profile.name true = [])
  | .deleteHttpTool name _ =>
    ∃ skills, known.skills = some skills ∧ skillsReferencing skills name false = []
  | _ => True

/-- The write of a change finds what its checks have read: a skill its custom tools as they
were, a tool to be disabled its switch and the enabled skills that name it, a tool to be
deleted the skills that name it. A record is still one with its texts as they are stored, and an
enabled skill has instructions that can be loaded. -/
def Undisturbed (settings : SkillSettings) (db : Database) (known : Known) : Op → Prop
  | .createSkill record _ | .updateSkill record _ =>
    (∀ item ∈ known.tools.getD [], item.profile.name ∈ record.profile.allowedTools →
      (db.tools.get item.profile.name).map (·.enabled) = some item.profile.enabled) ∧
    (validateSkill record.profile.stored).isOk = true ∧
    (record.profile.enabled = true →
      Loadable settings.maxContentBytes record.profile.stored.instructions)
  | .createHttpTool record _ =>
    validateHttpTool record.profile.stored = .ok record.profile.stored
  | .updateHttpTool record _ =>
    validateHttpTool record.profile.stored = .ok record.profile.stored ∧
    (record.profile.enabled = false →
      (∀ item ∈ known.tools.getD [], item.profile.name = record.profile.name →
        (db.tools.get item.profile.name).all (·.enabled = item.profile.enabled)) ∧
      (∀ skills ∈ known.skills, ∀ row ∈ db.skills.rows, row.2.enabled = true →
        record.profile.name ∈ row.2.allowedTools → ∃ item ∈ skills, item.profile = row.2))
  | .deleteHttpTool name _ => ∀ row ∈ db.skills.rows, name ∈ row.2.allowedTools →
      ∃ item ∈ known.skills.getD [], item.profile.allowedTools = row.2.allowedTools
  | _ => True

instance (settings : SkillSettings) (db : Database) (known : Known) :
    (op : Op) → Decidable (Undisturbed settings db known op)
  | .createSkill .. | .updateSkill .. => inferInstanceAs (Decidable (_ ∧ _ ∧ _))
  | .createHttpTool .. => inferInstanceAs (Decidable (_ = _))
  | .updateHttpTool .. => inferInstanceAs (Decidable (_ ∧ (_ → _ ∧ _)))
  | .deleteHttpTool .. => inferInstanceAs (Decidable (∀ row ∈ db.skills.rows, _))
  | .deleteSkill .. | .listSkills | .listHttpTools => .isTrue trivial

/-- The control plane as a server of changes. -/
def controlPlane : Server Op Op.Result Fault Unit Database Known Request Unit where
  program := serve
  perform op _ := op.perform
  fresh := {}
  learn := learn

/-! ## Checks that still stand -/

theorem httpRecord_named
    {record : ManagedHttpToolRecord} (h : httpRecord request version = .ok record) :
    record.profile.name = request.name ∧ record.profile.version = version := by
  unfold httpRecord at h
  cases hendpoint : Libraries.validateEndpoint request.endpoint with
  | error message =>
    rw [hendpoint] at h
    cases h
  | ok endpoint =>
    rw [hendpoint, ok_bind] at h
    unfold managedHttpToolRecord at h
    split at h
    · rename_i q hq
      cases h
      simp only [validateHttpTool, ok_rules] at hq
      obtain ⟨-, -, -, -, -, -, -, -, -, -, rfl⟩ := hq
      exact ⟨rfl, rfl⟩
    · cases h

/-- What the service has checked and computed when it calls an operation. -/
structure Prepared (known : Known) (op : Op) : Prop where
  checked : Checked known op
  numbered : Numbered known op

theorem Prepared.of_checked {known : Known} {op : Op} (h : Checked known op)
    (hedits : op.edits = none) : Prepared known op :=
  ⟨h, by simp [Numbered, hedits]⟩

section Meets

variable {known : Known} {Q : Known → Unit → Prop}

theorem validateSkillTools_meets (h : ∀ custom, checkSkillTools record.profile custom = .ok () →
      Q { known with tools := some custom } ()) :
    (validateSkillTools record).Meets learn Prepared known Q :=
  .bind (.perform (.of_checked trivial rfl) fun custom => .lift fun _ => h custom)

theorem refuseReferenced_meets {tool message : String}
    (h : ∀ skills, skillsReferencing skills tool onlyEnabled = [] →
      Q { known with skills := some skills } ()) :
    (refuseReferenced tool onlyEnabled message).Meets learn Prepared known Q := by
  refine .bind (.perform (.of_checked trivial rfl) fun skills => .lift fun _ hok => ?_)
  exact h skills (not_not.mp (raiseIf_eq_ok.mp hok))

theorem findHttpTool_meets {name : String} {Q : Known → ManagedHttpToolRecord → Prop}
    (h : ∀ (tools : List ManagedHttpToolRecord) current,
      tools.find? (·.profile.name == name) = some current →
        Q { known with tools := some tools } current) :
    (findHttpTool name).Meets learn Prepared known Q :=
  .bind (.perform (.of_checked trivial rfl) fun tools => .lift fun current hok =>
    h tools current (orRaise_eq_ok.mp hok))

theorem createSkill_meets {request : SkillRequest} :
    (createSkill username request).Meets learn Prepared known fun _ _ => True := by
  refine .bind (.lift fun record _ => .bind (validateSkillTools_meets fun custom hcustom => ?_))
  exact .perform (.of_checked ⟨custom, rfl, hcustom⟩ rfl) fun _ => trivial

theorem updateSkill_meets {request : SkillRequest} :
    (updateSkill username request).Meets learn Prepared known fun _ _ => True := by
  refine .bind (.bind (.perform (.of_checked trivial rfl) fun (skills : List ManagedSkillRecord) =>
    .lift fun current hfound => ?_))
  refine .bind (.lift fun version hversion => .bind (.lift fun record hrecord => ?_))
  refine .bind (validateSkillTools_meets fun custom hcustom => ?_)
  obtain ⟨hname, hnumber⟩ := skillRecord_named hrecord
  refine .perform ⟨⟨custom, rfl, hcustom⟩, ?_⟩ fun _ => trivial
  simp [Numbered, Op.edits, Known.read, learn, hname, hnumber, orRaise_eq_ok.mp hfound,
    nextVersion_eq_ok hversion]

theorem createHttpTool_meets :
    (createHttpTool username request).Meets learn Prepared known fun _ _ => True := by
  refine .bind (.lift fun _ hname => .bind (.lift fun record hrecord => ?_))
  have hcustom : record.profile.name ∉ toolNames defaultToolRegistry := by
    rw [(httpRecord_named hrecord).1]
    exact raiseIf_eq_ok.mp hname
  exact .perform (.of_checked hcustom rfl) fun _ => trivial

theorem updateHttpTool_meets :
    (updateHttpTool username request).Meets learn Prepared known fun _ _ => True := by
  refine .bind (findHttpTool_meets fun tools current hfound => ?_)
  refine .bind (.lift fun version hversion => .bind (.lift fun record hrecord => ?_))
  obtain ⟨hname, hnumber⟩ := httpRecord_named hrecord
  rw [← hname] at hfound
  have hcurrent := List.mem_of_find?_eq_some hfound
  have hsame : current.profile.name = record.profile.name := by simpa using List.find?_some hfound
  have hnumbered (known : Known) (hknown : known.tools = some tools) :
      Numbered known (.updateHttpTool record username) := by
    simp [Numbered, Op.edits, Known.read, hknown, hnumber, hfound, nextVersion_eq_ok hversion]
  split
  · refine .bind (refuseReferenced_meets fun skills hnone => ?_)
    rw [← hname] at hnone
    exact .perform ⟨⟨tools, rfl, current, hcurrent, hsame, fun _ _ => ⟨skills, rfl, hnone⟩⟩,
      hnumbered _ rfl⟩ fun _ => trivial
  · rename_i hswitch
    refine .perform ⟨⟨tools, rfl, current, hcurrent, hsame, fun hon hoff => ?_⟩,
      hnumbered _ rfl⟩ fun _ => trivial
    simp [hon, hoff] at hswitch

theorem deleteHttpTool_meets {name : String} :
    (deleteHttpTool username name).Meets learn Prepared known fun _ _ => True := by
  refine .bind (refuseReferenced_meets fun skills hnone => ?_)
  exact .perform (.of_checked ⟨skills, rfl, hnone⟩ rfl) fun _ => trivial

/-- Every change is checked, and has its version, before it is written. -/
theorem serve_meets (request : Request) :
    (serve request).Meets learn Prepared known fun _ _ => True := by
  cases request with
  | createSkill username request => exact .bind createSkill_meets
  | updateSkill username request => exact .bind updateSkill_meets
  | deleteSkill username name => exact .perform (.of_checked trivial rfl) fun _ => trivial
  | createHttpTool username request => exact .bind createHttpTool_meets
  | updateHttpTool username request => exact .bind updateHttpTool_meets
  | deleteHttpTool username name => exact deleteHttpTool_meets

end Meets

/-! ## From the default configuration -/

/-- The skills that come with the program: records on built-in tools that can be loaded, also
with their texts as they are stored. -/
structure Shipped (settings : SkillSettings) (definitions : List SkillDefinition) : Prop where
  records : ∀ d ∈ definitions, (validateSkill (defaultSkill d).stored).isOk = true
  tools : ∀ d ∈ definitions, ∀ tool ∈ d.manifest.allowedTools, tool ∈ toolNames defaultToolRegistry
  loadable : ∀ d ∈ definitions, Loadable settings.maxContentBytes (cleanText d.instructions)

omit [CaseFold] in
theorem forall_defaults {users : List String} {P : String → SkillProfile → Prop}
    (h : ∀ d ∈ definitions, P d.manifest.name (defaultSkill d).stored) :
    ∀ key row, (defaults definitions users).skills.get key = some row → P key row := by
  have hfold : ∀ (definitions : List SkillDefinition) (t : Table String SkillProfile),
      (∀ d ∈ definitions, P d.manifest.name (defaultSkill d).stored) →
      (∀ key row, t.get key = some row → P key row) →
      ∀ key row, (definitions.foldl (fun skills d =>
        skills.put d.manifest.name (defaultSkill d).stored) t).get key = some row → P key row := by
    intro definitions
    induction definitions with
    | nil => exact fun t _ ht => ht
    | cons d rest ih =>
      intro t hall ht
      exact ih _ (fun other hother => hall other (List.mem_cons_of_mem _ hother))
        (Table.forall_put ht (hall d List.mem_cons_self))
  exact hfold definitions ∅ h (by simp)

/-- The default configuration is consistent. -/
theorem Shipped.consistent (h : Shipped settings definitions) (users : List String) :
    Consistent settings.maxContentBytes (defaults definitions users) where
  skills := forall_defaults fun d hd =>
    ⟨rfl, h.records d hd, fun _ => h.loadable d hd⟩
  tools key row hrow := by simp [defaults] at hrow
  supported := forall_defaults fun d hd tool htool => .inl (h.tools d hd tool htool)

end Laws

/-! ## Samples -/

namespace Sample

/-- Libraries that take every schema and endpoint. -/
instance : Libraries where
  toPlatform := PlainPlatform.plain
  checkSchema _ := true
  dumpedBytes _ := some 17
  validateEndpoint := .ok
  toolResultSchema := objectSchema
  checkSchema_toolResult := rfl
  dumpedBytes_toolResult := rfl

instance : CaseFold := ⟨id⟩

instance : SkillDigest := ⟨fun _ instructions => instructions⟩

def knowledgeBase : SkillDefinition where
  manifest :=
    { name := "knowledge-base"
      version := "1.0.0"
      description := "Search the knowledge base."
      allowedTools := ["search_knowledge_base"]
      requiredRoles := ∅
      requiredSecrets := ∅
      toolNames := by decide }
  instructions := "# Knowledge Base"
  nonblank := by decide
  noNul := by decide

def started : Pool Op Op.Result Fault Unit Database Known Request :=
  .initial (defaults [knowledgeBase] ["admin"])

def newsTool : HttpToolRequest where
  name := "news"
  description := "News."
  group := "media"
  endpoint := "https://news.org"
  inputSchema := objectSchema

def newsSkill (instructions : String) : SkillRequest where
  name := "news-desk"
  description := "News."
  instructions := instructions
  allowedTools := ["news"]

/-- A tool, and a skill that has been checked. -/
def checked (skill : SkillRequest) : List (Move Request Unit) := [
  .start (.createHttpTool "admin" newsTool), .turn 0 (),
  .start (.createSkill "admin" skill), .turn 1 ()]

def overtaken : List (Move Request Unit) := checked (newsSkill "Use news.") ++
  [.start (.deleteHttpTool "admin" "news"), .turn 2 (), .turn 2 (), .turn 1 ()]

def created (skill : SkillRequest) : List (Move Request Unit) := checked skill ++ [.turn 1 ()]

end Sample

end SuperMew.Capabilities
