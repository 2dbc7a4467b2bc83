import SuperMew.Capabilities.Runtime
import SuperMew.Library.Program
import SuperMew.Library.Table

/-! `CapabilityControlRepository`, whose methods are one transaction each, and the changes of
`CapabilityControlService`, which check in some transactions and write in a later one. -/

namespace SuperMew.Capabilities

open Tools Skills Relational Concurrent Program

variable [Libraries] [CaseFold]

/-! ## Tables -/

structure Database where
  skills : Table String SkillProfile
  tools : Table String HttpToolProfile
  users : List String

/-- What a value becomes in a column `Numeric(10, 3)`. -/
def toNumeric (value : ℚ) : ℚ := (value * 1000 + 1 / 2).floor / 1000

def invalidRequest (message : String) : AppError :=
  { code := .invalidRequest, message := message, statusCode := 400 }

def conflict (message : String) : AppError :=
  { code := .conflict, message := message, statusCode := 409 }

def notFound (message : String) : AppError :=
  { code := .notFound, message := message, statusCode := 404 }

/-- The row with its texts as the engine stores them. It leaves names and versions alone, which
are ASCII texts, and lists and headers, which are JSON columns. -/
def SkillProfile.stored (p : SkillProfile) : SkillProfile :=
  { p with description := cleanText p.description, instructions := cleanText p.instructions }

def HttpToolProfile.stored (p : HttpToolProfile) : HttpToolProfile :=
  { p with description := cleanText p.description, endpoint := cleanText p.endpoint }

variable (db : Database) (record : ManagedHttpToolRecord)

namespace Database

def userId (username : String) : Except Fault Unit :=
  raiseIf (username ≠ "" ∧ username ∉ db.users)
    { code := .authenticationRequired, message := "用户不存在或已失效", statusCode := 401 }

/-- `_skill_record`. A row that is no record raises. -/
def skillRecord (row : SkillProfile) : Except Fault ManagedSkillRecord :=
  (managedSkillRecord row).mapError .runtime

def toolRecord (row : HttpToolProfile) : Except Fault ManagedHttpToolRecord :=
  (managedHttpToolRecord row).mapError .runtime

def listSkills : Except Fault (List ManagedSkillRecord) :=
  ((db.skills.rows.map Prod.snd).insertionSort (·.name ≤ ·.name)).mapM skillRecord

def listHttpTools : Except Fault (List ManagedHttpToolRecord) :=
  ((db.tools.rows.map Prod.snd).insertionSort (·.name ≤ ·.name)).mapM toolRecord

def createSkill (record : ManagedSkillRecord) (username : String) :
    Except Fault (ManagedSkillRecord × Database) := do
  db.userId username
  let row := { record.profile with source := .custom }
  let skills ← db.skills.insertNew row.name row.stored (.app (conflict "Skill 名称已存在"))
  let saved ← skillRecord row
  pure (saved, { db with skills := skills })

/-- `update_skill`. The row keeps its name and its source. -/
def updateSkill (record : ManagedSkillRecord) (username : String) :
    Except Fault (ManagedSkillRecord × Database) := do
  db.userId username
  let row ← orRaise (db.skills.get record.profile.name) (notFound "Skill 不存在")
  let row := { record.profile with name := row.name, source := row.source }
  let saved ← skillRecord row
  pure (saved, { db with skills := db.skills.put record.profile.name row.stored })

def deleteSkill (name username : String) : Except Fault (Unit × Database) := do
  db.userId username
  let row ← orRaise (db.skills.get name) (notFound "Skill 不存在")
  raiseIf (row.source ≠ .custom) (conflict "内建 Skill 只能停用，不能删除")
  pure ((), { db with skills := db.skills.remove name })

/-- The row that a tool is stored as. The checks of the table see the rounded timeout. -/
def storedTool : Except Fault HttpToolProfile := do
  let row := { record.profile.stored with
    timeoutSeconds := toNumeric record.profile.timeoutSeconds }
  violatedIf (row.timeoutSeconds ≤ 0 ∨ 120 < row.timeoutSeconds) "ck_capability_http_tool_timeout"
  pure row

/-- `create_http_tool`. Every violated constraint is reported as a name in use. -/
def createHttpTool (username : String) :
    Except Fault (ManagedHttpToolRecord × Database) := do
  db.userId username
  let row ← (storedTool record).mapError fun _ => .app (conflict "Tool 名称已存在")
  let tools ← db.tools.insertNew row.name row (.app (conflict "Tool 名称已存在"))
  pure (record, { db with tools := tools })

def updateHttpTool (username : String) :
    Except Fault (ManagedHttpToolRecord × Database) := do
  db.userId username
  let _ ← orRaise (db.tools.get record.profile.name) (notFound "Tool 不存在")
  let row ← storedTool record
  pure (record, { db with tools := db.tools.put row.name row })

def deleteHttpTool (name username : String) : Except Fault (Unit × Database) := do
  db.userId username
  let _ ← orRaise (db.tools.get name) (notFound "Tool 不存在")
  pure ((), { db with tools := db.tools.remove name })

def defaultSkill (d : SkillDefinition) : SkillProfile :=
  let fields := dump d.manifest
  { name := fields.name
    version := fields.version
    description := fields.description
    instructions := d.instructions
    allowedTools := fields.allowedTools
    requiredRoles := fields.requiredRoles
    requiredSecrets := fields.requiredSecrets
    enabled := true
    source := .builtin }

/-- `ensure_defaults` on empty tables. -/
def defaults (definitions : List SkillDefinition) (users : List String) : Database where
  skills := definitions.foldl (fun skills d => skills.put d.manifest.name (defaultSkill d).stored) ∅
  tools := ∅
  users := users

end Database

/-! ## Operations -/

/-- A call of a method of the repository. -/
inductive Op where
  | listSkills
  | listHttpTools
  | createSkill (record : ManagedSkillRecord) (username : String)
  | updateSkill (record : ManagedSkillRecord) (username : String)
  | deleteSkill (name username : String)
  | createHttpTool (record : ManagedHttpToolRecord) (username : String)
  | updateHttpTool (record : ManagedHttpToolRecord) (username : String)
  | deleteHttpTool (name username : String)

def Op.Result : Op → Type
  | .listSkills => List ManagedSkillRecord
  | .listHttpTools => List ManagedHttpToolRecord
  | .createSkill .. | .updateSkill .. => ManagedSkillRecord
  | .createHttpTool .. | .updateHttpTool .. => ManagedHttpToolRecord
  | .deleteSkill .. | .deleteHttpTool .. => Unit

/-- A transaction that raises changes nothing. -/
def transact {α : Type} (x : Except Fault (α × Database)) :
    Except Fault α × Database :=
  match x with
  | .ok (a, db') => (.ok a, db')
  | .error fault => (.error fault, db)

def Op.perform : (op : Op) → Database → Except Fault op.Result × Database
  | .listSkills, db => (db.listSkills, db)
  | .listHttpTools, db => (db.listHttpTools, db)
  | .createSkill record username, db => transact db (db.createSkill record username)
  | .updateSkill record username, db => transact db (db.updateSkill record username)
  | .deleteSkill name username, db => transact db (db.deleteSkill name username)
  | .createHttpTool record username, db => transact db (db.createHttpTool record username)
  | .updateHttpTool record username, db => transact db (db.updateHttpTool record username)
  | .deleteHttpTool name username, db => transact db (db.deleteHttpTool name username)

/-! ## The service -/

abbrev Service (α : Type) := Program Op Op.Result Fault α

/-- `self.repository.list_skills()`. -/
def readSkills : Service (List ManagedSkillRecord) := perform Op.listSkills

/-- `self.repository.list_http_tools()`. -/
def readHttpTools : Service (List ManagedHttpToolRecord) := perform Op.listHttpTools

/-- A list of names in the details of an error. -/
def namesJson (names : List String) : Json := .other (toString (names.insertionSort (· ≤ ·)))

variable (skill : SkillProfile) (custom : List ManagedHttpToolRecord)

def unknownTools : List String :=
  skill.allowedTools.filter fun tool =>
    !(toolNames defaultToolRegistry).contains tool && !custom.any (·.profile.name == tool)

def disabledTools : List String :=
  skill.allowedTools.filter fun tool =>
    custom.any fun item => item.profile.name == tool && !item.profile.enabled

/-- The checks of `_validate_skill_tools` on the custom tools it has read. -/
def checkSkillTools :
    Except Fault Unit := do
  raiseIf (unknownTools skill custom ≠ [])
    { invalidRequest "Skill 引用了不存在的 Tool" with
      safeDetails := [("tools", namesJson (unknownTools skill custom))] }
  raiseIf (skill.enabled = true ∧ disabledTools skill custom ≠ [])
    { conflict "已启用 Skill 不能引用停用的自定义 Tool" with
      safeDetails := [("tools", namesJson (disabledTools skill custom))] }

def validateSkillTools (record : ManagedSkillRecord) : Service Unit := do
  let custom ← readHttpTools
  lift (checkSkillTools record.profile custom)

/-- What a request says about a skill. -/
structure SkillRequest where
  name : String
  description : String
  instructions : String
  allowedTools : List String
  requiredRoles : List String := []
  requiredSecrets : List String := []
  enabled : Bool := true
  deriving DecidableEq, Repr

def skillRecord (request : SkillRequest) (version : String) (source : SkillSource) :
    Except Fault ManagedSkillRecord :=
  (managedSkillRecord
    { name := request.name
      version := version
      description := request.description
      instructions := request.instructions
      allowedTools := unique request.allowedTools
      requiredRoles := unique request.requiredRoles
      requiredSecrets := unique request.requiredSecrets
      enabled := request.enabled
      source := source }).mapError fun _ =>
    .app (invalidRequest "Skill 配置无效，请检查名称、Role、Secret 与 Tool 标识符")

def createSkill (username : String) (request : SkillRequest) : Service ManagedSkillRecord := do
  let record ← lift (skillRecord request "1.0.0" .custom)
  validateSkillTools record
  perform (Op.createSkill record username)

/-- `_skill`. -/
def findSkill (name : String) : Service ManagedSkillRecord := do
  let skills ← readSkills
  lift (orRaise (skills.find? (·.profile.name == name)) (notFound "Skill 不存在"))

/-- `_next_patch`. -/
def nextVersion (version : String) : Except Fault String :=
  match nextPatch version with
  | some next => .ok next
  | none => .error (.runtime "version must be semantic version text")

def updateSkill (username : String) (request : SkillRequest) : Service ManagedSkillRecord := do
  let current ← findSkill request.name
  let version ← lift (nextVersion current.profile.version)
  let record ← lift (skillRecord request version current.profile.source)
  validateSkillTools record
  perform (Op.updateSkill record username)

def deleteSkill (username name : String) : Service Unit :=
  perform (Op.deleteSkill name username)

/-- What a request says about a custom tool. -/
structure HttpToolRequest where
  name : String
  description : String
  group : String
  endpoint : String
  method : HttpMethod := .post
  inputSchema : JsonFields
  staticHeaders : List (String × String) := []
  secretHeaders : List (String × String) := []
  requiredRoles : List String := []
  requiresApproval : Bool := false
  idempotent : Bool := true
  timeoutSeconds : ℚ := 20
  maxResponseBytes : ℤ := 262144
  enabled : Bool := true

def httpRecord (request : HttpToolRequest) (version : String) :
    Except Fault ManagedHttpToolRecord :=
  (do
    let endpoint ← Libraries.validateEndpoint request.endpoint
    managedHttpToolRecord
      { name := request.name
        version := version
        description := request.description
        group := request.group
        endpoint := endpoint
        method := request.method
        inputSchema := request.inputSchema
        staticHeaders := request.staticHeaders
        secretHeaders := request.secretHeaders
        requiredRoles := request.requiredRoles
        requiresApproval := request.requiresApproval
        idempotent := request.idempotent
        timeoutSeconds := request.timeoutSeconds
        maxResponseBytes := request.maxResponseBytes
        enabled := request.enabled }).mapError fun _ => .app (invalidRequest
      "自定义 Tool 配置无效，请检查 Endpoint、JSON Schema、Header 与预算限制")

def createHttpTool (username : String) (request : HttpToolRequest) :
    Service ManagedHttpToolRecord := do
  lift (raiseIf (request.name ∈ toolNames defaultToolRegistry)
    (conflict "自定义 Tool 名称不能覆盖内建 Tool"))
  let record ← lift (httpRecord request "1.0.0")
  perform (Op.createHttpTool record username)

def skillsReferencing (skills : List ManagedSkillRecord) (tool : String) (onlyEnabled : Bool) :
    List String :=
  (skills.filter fun item => item.profile.allowedTools.contains tool &&
    (item.profile.enabled || !onlyEnabled)).map (·.profile.name)

def refuseReferenced (tool : String) (onlyEnabled : Bool) (message : String) : Service Unit := do
  let skills ← readSkills
  lift (raiseIf (skillsReferencing skills tool onlyEnabled ≠ [])
    { conflict message with
      safeDetails := [("skills", namesJson (skillsReferencing skills tool onlyEnabled))] })

/-- `_http_tool`. -/
def findHttpTool (name : String) : Service ManagedHttpToolRecord := do
  let tools ← readHttpTools
  lift (orRaise (tools.find? (·.profile.name == name)) (notFound "Tool 不存在"))

/-- `update_http_tool`. Only a tool that was enabled is checked. -/
def updateHttpTool (username : String) (request : HttpToolRequest) :
    Service ManagedHttpToolRecord := do
  let current ← findHttpTool request.name
  let version ← lift (nextVersion current.profile.version)
  let record ← lift (httpRecord request version)
  if current.profile.enabled && !record.profile.enabled then
    refuseReferenced request.name true "仍有已启用 Skill 引用该 Tool，不能停用"
  perform (Op.updateHttpTool record username)

def deleteHttpTool (username name : String) : Service Unit := do
  refuseReferenced name false "仍有 Skill 引用该 Tool，不能删除"
  perform (Op.deleteHttpTool name username)

/-- A change asked for by an administrator. -/
inductive Request where
  | createSkill (username : String) (request : SkillRequest)
  | updateSkill (username : String) (request : SkillRequest)
  | deleteSkill (username name : String)
  | createHttpTool (username : String) (request : HttpToolRequest)
  | updateHttpTool (username : String) (request : HttpToolRequest)
  | deleteHttpTool (username name : String)

def serve : Request → Service Unit
  | .createSkill username request => do let _ ← createSkill username request
  | .updateSkill username request => do let _ ← updateSkill username request
  | .deleteSkill username name => deleteSkill username name
  | .createHttpTool username request => do let _ ← createHttpTool username request
  | .updateHttpTool username request => do let _ ← updateHttpTool username request
  | .deleteHttpTool username name => deleteHttpTool username name

/-! ## The runtime -/

structure SkillSettings where
  maxContentBytes : ℕ
  atLeast : 1024 ≤ maxContentBytes
  atMost : maxContentBytes ≤ 4194304

/-- `build_runtime`, as far as the tables decide. -/
def Database.build [SkillDigest] (settings : SkillSettings)
    (previous : Option CapabilityRuntime) (sameSettings : Bool) :
    Except Fault CapabilityRuntime := do
  let customTools ← db.listHttpTools
  let skills ← db.listSkills
  (buildRuntime previous sameSettings customTools skills settings.maxContentBytes).mapError .runtime

end SuperMew.Capabilities
