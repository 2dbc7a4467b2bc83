import SuperMew.Capabilities.Records

/-! The two registries of a capability runtime, built from the records of the control plane. -/

namespace SuperMew.Capabilities

open Tools Skills

/-! ## Tools -/

def toolNames (registry : ToolRegistry) : List String :=
  registry.registrations.map fun tool => tool.descriptor.name

/-- `ToolRegistry.register`, before the registry is frozen. -/
def register (registry : ToolRegistry) (tool : RegisteredTool) : Except String ToolRegistry :=
  if h : tool.descriptor.name ∈ toolNames registry then
    .error ("tool already registered: " ++ tool.descriptor.name)
  else
    .ok
      { registrations := registry.registrations ++ [tool]
        unique := by
          rw [List.map_append, List.nodup_append]
          refine ⟨registry.unique, List.nodup_singleton _, fun a ha b hb hab => h ?_⟩
          rw [List.map_singleton, List.mem_singleton] at hb
          rw [← hb, ← hab]
          exact ha }

/-- `build_default_tool_registry`. The settings give its tools their schemas and bounds. -/
def defaultToolRegistry : ToolRegistry where
  registrations := [
    ⟨{ name := "search_knowledge_base"
       description := "Search uploaded and organizational knowledge with cited evidence."
       group := "knowledge", requiredRoles := ∅, requiredSecrets := ∅
       requiresApproval := false, networkPolicy := "restricted" }, .resident⟩,
    ⟨{ name := "get_current_weather"
       description := "Get current weather or forecasts for a city in China."
       group := "weather", requiredRoles := ∅
       requiredSecrets := {"AMAP_WEATHER_API", "AMAP_API_KEY"}
       requiresApproval := false, networkPolicy := "restricted" }, .resident⟩,
    ⟨{ name := "describe_skill"
       description := "Load the full instructions for one authorized Skill."
       group := "registry-control", requiredRoles := ∅, requiredSecrets := ∅
       requiresApproval := false, networkPolicy := "none" }, .control⟩,
    ⟨{ name := "tool_search"
       description := "Reveal full schemas for authorized deferred tools matching a query."
       group := "registry-control", requiredRoles := ∅, requiredSecrets := ∅
       requiresApproval := false, networkPolicy := "none" }, .control⟩,
    ⟨{ name := "sql_schema"
       description :=
         "Describe only the authorized PostgreSQL tables and columns for read-only analysis."
       group := "sql", requiredRoles := {"admin"}, requiredSecrets := {"SQL_ASSISTANT_DSN"}
       requiresApproval := false, networkPolicy := "private-data" }, .deferred⟩,
    ⟨{ name := "sql_query"
       description := "Execute one policy-checked, bounded, read-only PostgreSQL query " ++
         "against authorized business data."
       group := "sql", requiredRoles := {"admin"}, requiredSecrets := {"SQL_ASSISTANT_DSN"}
       requiresApproval := false, networkPolicy := "private-data" }, .deferred⟩,
    ⟨{ name := "web_search"
       description := "Search the public web and return Run-local Source IDs with titles, " ++
         "source hostnames, and short snippets."
       group := "web-research", requiredRoles := ∅, requiredSecrets := {"WEB_RESEARCH_RUNTIME"}
       requiresApproval := false, networkPolicy := "restricted" }, .deferred⟩,
    ⟨{ name := "web_fetch"
       description := "Use Tavily Extract to return up to three query-ranked chunks from " ++
         "one Source ID returned by web_search in this Run."
       group := "web-research", requiredRoles := ∅, requiredSecrets := {"WEB_RESEARCH_RUNTIME"}
       requiresApproval := false, networkPolicy := "restricted" }, .deferred⟩,
    ⟨{ name := "sandbox_execute"
       description := "Execute bounded Python or shell source in a Run-owned, " ++
         "network-disabled isolated Sandbox."
       group := "sandbox-execution", requiredRoles := {"admin"}
       requiredSecrets := {"SANDBOX_RUNTIME"}
       requiresApproval := true, networkPolicy := "none" }, .deferred⟩]
  unique := by decide

section CustomTools

variable [Libraries] [CaseFold]

/-- One round of the loop of `register_custom_http_tools`. -/
def registerCustomHttpTool (registry : ToolRegistry) (record : ManagedHttpToolRecord) :
    Except String ToolRegistry :=
  if record.profile.enabled then do
    let descriptor ← toolDescriptor (record.profile.descriptorFields Libraries.toolResultSchema
      ["response_bytes", "status_code"])
    register registry ⟨descriptor, .deferred⟩
  else pure registry

def registerCustomHttpTools (registry : ToolRegistry) (profiles : List ManagedHttpToolRecord) :
    Except String ToolRegistry :=
  profiles.foldlM registerCustomHttpTool registry

end CustomTools

/-! ## Skills -/

def nul : Char := Char.ofNat 0

/-- A `SkillDefinition` with the checks of its `__post_init__`. -/
structure SkillDefinition where
  manifest : SkillManifest
  instructions : String
  nonblank : strip instructions ≠ ""
  noNul : nul ∉ instructions.toList

def skillDefinition (manifest : SkillManifest) (instructions : String) :
    Except String SkillDefinition :=
  if hblank : strip instructions = "" then .error "instructions must be non-empty UTF-8 text"
  else if hnul : nul ∈ instructions.toList then .error "instructions cannot contain NUL bytes"
  else .ok ⟨manifest, instructions, hblank, hnul⟩

/-- The digest of a canonical manifest and the instructions. -/
class SkillDigest where
  digest : SkillManifest → String → String

variable [SkillDigest]

/-- One round of the loop of `SkillRegistry.from_definitions`. -/
def addDefinition (knownTools : List String) (maxContentBytes : ℕ) (registry : SkillRegistry)
    (d : SkillDefinition) : Except String SkillRegistry := do
  let manifest ← validateManifest (dump d.manifest)
  if hname : manifest.name ∈ registry.records.map fun record => record.manifest.name then
    throw ("duplicate skill name: " ++ manifest.name)
  else
    failIf (manifest.allowedTools.all (knownTools.contains ·) = false)
      ("skill '" ++ manifest.name ++ "' references unknown tools: " ++
        ", ".intercalate (manifest.allowedTools.filter (!knownTools.contains ·)))
    failIf (d.instructions.utf8ByteSize = 0 ∨ maxContentBytes < d.instructions.utf8ByteSize)
      ("skill entrypoint exceeds " ++ toString maxContentBytes ++ " bytes: " ++ manifest.name)
    failIf (nul ∈ d.instructions.toList)
      ("NUL bytes are not allowed in skill entrypoint: " ++ manifest.name)
    pure
      { records := registry.records ++ [
          { manifest := manifest
            content := d.instructions
            pin := ⟨manifest.name, manifest.version, SkillDigest.digest manifest d.instructions⟩
            pinned := ⟨rfl, rfl⟩ }]
        unique := by
          rw [List.map_append, List.nodup_append]
          refine ⟨registry.unique, List.nodup_singleton _, fun a ha b hb hab => hname ?_⟩
          rw [List.map_singleton, List.mem_singleton] at hb
          rw [← hb, ← hab]
          exact ha }

def fromDefinitions (definitions : List SkillDefinition) (knownTools : List String)
    (maxContentBytes : ℕ) : Except String SkillRegistry := do
  failIf (maxContentBytes = 0) "max_content_bytes must be positive"
  let known ← normalizeUniqueValues "known_tools" isToolName knownTools
  definitions.foldlM (addDefinition known.1 maxContentBytes) ⟨[], List.nodup_nil⟩

def buildSkillRegistry (tools : ToolRegistry) (records : List ManagedSkillRecord)
    (maxContentBytes : ℕ) : Except String SkillRegistry := do
  let definitions ← (records.filter fun record => record.profile.enabled).mapM fun record => do
    let manifest ← validateManifest record.profile.manifestFields
    skillDefinition manifest record.profile.instructions
  fromDefinitions definitions (toolNames tools) maxContentBytes

/-! ## Runtimes -/

section Runtimes

variable [Libraries] [CaseFold]

/-- A `CapabilityRuntime`; its tools are those of the custom tools it was built from. -/
structure CapabilityRuntime where
  customTools : List ManagedHttpToolRecord
  tools : ToolRegistry
  skills : SkillRegistry
  registered : registerCustomHttpTools defaultToolRegistry customTools = .ok tools

/-- `_build_runtime_projection`. -/
def buildProjection (previous : CapabilityRuntime) (skills : List ManagedSkillRecord)
    (maxContentBytes : ℕ) : Except String CapabilityRuntime := do
  let registry ← buildSkillRegistry previous.tools skills maxContentBytes
  pure { previous with skills := registry }

/-- `build_runtime` on what it reads from the tables; `sameSettings` says that the settings
are those of the previous runtime. -/
def buildRuntime (previous : Option CapabilityRuntime) (sameSettings : Bool)
    (customTools : List ManagedHttpToolRecord) (skills : List ManagedSkillRecord)
    (maxContentBytes : ℕ) : Except String CapabilityRuntime :=
  match previous.filter fun runtime => sameSettings &&
      decide (runtime.customTools.map (·.profile) = customTools.map (·.profile)) with
  | some runtime => buildProjection runtime skills maxContentBytes
  | none =>
    match h : registerCustomHttpTools defaultToolRegistry customTools with
    | .error message => .error message
    | .ok tools => do
        let registry ← buildSkillRegistry tools skills maxContentBytes
        pure ⟨customTools, tools, registry, h⟩

end Runtimes

end SuperMew.Capabilities
