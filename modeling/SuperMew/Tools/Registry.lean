import Mathlib.Algebra.GroupWithZero.Nat
import Mathlib.Data.Finset.Dedup
import Mathlib.Data.Finset.Insert
import Mathlib.Data.Finset.Lattice.Basic
import Mathlib.Data.List.Sort
import Mathlib.Data.String.Basic
import SuperMew.Core.Text

/-! `ToolRegistry` and the `ToolSession` of a Run: which tools the model sees and may call. -/

namespace SuperMew.Tools

inductive ToolExposure where
  | resident
  | deferred
  | control
  deriving DecidableEq, Repr

/-- The parts of a descriptor that authorization and search read. -/
structure ToolDescriptor where
  name : String
  description : String
  group : String
  requiredRoles : Finset String
  requiredSecrets : Finset String
  requiresApproval : Bool
  networkPolicy : String

structure RegisteredTool where
  descriptor : ToolDescriptor
  exposure : ToolExposure

structure ToolRegistry where
  registrations : List RegisteredTool
  unique : (registrations.map fun tool => tool.descriptor.name).Nodup

/-- The capabilities of the caller. -/
structure ToolAccess where
  roles : Finset String
  availableSecrets : Finset String
  callerAllowedTools : Finset String
  approvedTools : Finset String
  allowedNetworkPolicies : Finset String

inductive ToolError where
  | value (message : String)
  | permission (message : String)
  deriving DecidableEq, Repr

/-! ## Authorization -/

def ToolDescriptor.authorizedFor (descriptor : ToolDescriptor) (access : ToolAccess) : Bool :=
  descriptor.name ∈ access.callerAllowedTools &&
    decide (descriptor.requiredRoles ⊆ access.roles) &&
    decide (descriptor.requiredSecrets ⊆ access.availableSecrets) &&
    (!descriptor.requiresApproval || descriptor.name ∈ access.approvedTools) &&
    descriptor.networkPolicy ∈ access.allowedNetworkPolicies

variable (registrations : List RegisteredTool)

def findTool (name : String) : Option RegisteredTool :=
  registrations.find? fun tool => tool.descriptor.name == name

def ToolRegistry.authorize (registry : ToolRegistry) (name : String) (access : ToolAccess) : Bool :=
  (findTool registry.registrations name).any fun tool => tool.descriptor.authorizedFor access

/-- `ToolSession`: what a Run may see and call. -/
structure ToolSession where
  registrations : List RegisteredTool
  authorizedNames : Finset String
  skillScope : Finset String
  visibleNames : Finset String
  executableNames : Finset String

def namesOf : Finset String :=
  (registrations.map fun tool => tool.descriptor.name).toFinset

/-- The constructor of `ToolSession`. Deferred tools are hidden at first. -/
def ToolSession.start : ToolSession :=
  let exposed := namesOf (registrations.filter fun tool =>
    tool.exposure = .resident || tool.exposure = .control)
  { registrations := registrations
    authorizedNames := namesOf registrations
    skillScope := namesOf registrations
    visibleNames := exposed
    executableNames := exposed }

def ToolRegistry.bind (registry : ToolRegistry) (access : ToolAccess) : ToolSession :=
  .start (registry.registrations.filter fun tool =>
    registry.authorize tool.descriptor.name access)

/-! ## Search -/

/-- `str.casefold()`. -/
class CaseFold where
  casefold : String → String

section Search

variable [CaseFold]

def isTokenChar (c : Char) : Bool := c.isAlphanum || c == '_' || c == '-' || c == '.'

/-- The longest runs of token characters, as the pattern `[A-Za-z0-9_\-.]+` finds them. -/
def tokensOf (open_ : List Char) : List Char → List String
  | [] => if open_.isEmpty then [] else [String.ofList open_]
  | c :: rest =>
    if isTokenChar c then tokensOf (open_ ++ [c]) rest
    else if open_.isEmpty then tokensOf [] rest
    else String.ofList open_ :: tokensOf [] rest

/-- `part in text`. -/
def occursIn (part text : String) : Bool := decide (part.toList <:+: text.toList)

def tokenScore (name group haystack token : String) : ℕ :=
  (if token = name then 200 else if occursIn token name then 80 else 0) +
    (if token = group then 50 else if occursIn token group then 20 else 0) +
    (if occursIn token haystack then 10 else 0)

def searchScore (descriptor : ToolDescriptor) (query : String) : ℕ :=
  let normalized := strip (CaseFold.casefold query)
  if normalized = "" then 0
  else
    let name := CaseFold.casefold descriptor.name
    let group := CaseFold.casefold descriptor.group
    let description := CaseFold.casefold descriptor.description
    let haystack := name ++ " " ++ group ++ " " ++ description
    let tokens := (tokensOf [] query.toList).map CaseFold.casefold
    (if normalized = name then 1000 else if occursIn normalized name then 300 else 0) +
      (if occursIn normalized group then 120 else 0) +
      (if occursIn normalized description then 80 else 0) +
      (tokens.map (tokenScore name group haystack)).sum

/-- Better matches first, and then by name. -/
def matchBefore (a b : ℕ × RegisteredTool) : Bool :=
  decide (b.1 < a.1) || a.1 == b.1 && decide (a.2.descriptor.name ≤ b.2.descriptor.name)

def searchRegistrations (query : String)
    (allowedNames : Finset String) (limit : ℤ) (exposure : Option ToolExposure) :
    Except ToolError (List RegisteredTool) :=
  if limit ≤ 0 then .error (.value "limit must be a positive integer")
  else if strip query = "" then .ok []
  else
    let candidates := registrations.filter fun tool =>
      decide (tool.descriptor.name ∈ allowedNames) && exposure.all (· == tool.exposure)
    let scored := candidates.map fun tool => (searchScore tool.descriptor query, tool)
    let found := (scored.filter fun entry => entry.1 != 0).insertionSort fun a b =>
      matchBefore a b = true
    .ok ((found.take limit.toNat).map Prod.snd)

end Search

/-! ## The session -/

namespace ToolSession

variable (session : ToolSession)

def normalizeStringSet (field : String) : List String → Except ToolError (Finset String)
  | [] => .ok ∅
  | value :: rest =>
    if strip value = "" then .error (.value (field ++ " must contain only non-empty strings"))
    else (normalizeStringSet field rest).map (insert (strip value))

def applySkill (allowedTools : List String) : Except ToolError ToolSession :=
  (normalizeStringSet "skill allowed_tools" allowedTools).map fun requested =>
    { session with
      skillScope := session.authorizedNames ∩ requested
      visibleNames := session.authorizedNames ∩ requested
      executableNames := session.authorizedNames ∩ requested }

def search [CaseFold] (query : String) (limit : ℤ) :
    Except ToolError (List RegisteredTool × ToolSession) :=
  (searchRegistrations session.registrations query session.skillScope limit
      (some .deferred)).map fun found =>
    (found, { session with
      visibleNames := session.visibleNames ∪ namesOf found
      executableNames := session.executableNames ∪ namesOf found })

end ToolSession

end SuperMew.Tools
