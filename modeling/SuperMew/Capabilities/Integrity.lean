import Mathlib.Tactic.NormNum
import SuperMew.Capabilities.Construction
import SuperMew.Capabilities.Control

/-! What the tables of the control plane must hold so that a runtime can be built from them. -/

namespace SuperMew.Capabilities

open Tools Skills Relational Concurrent Database Table

/-! ## Reading a table -/

section Reading

variable {ρ β : Type} {t : Table String ρ} {r : ρ → ρ → Prop} [DecidableRel r]

theorem mem_query {row : ρ} :
    row ∈ (t.rows.map Prod.snd).insertionSort r ↔ ∃ key, t.get key = some row := by
  simp [List.mem_insertionSort]

/-- A table of rows that can all be read, and whose names are their keys, is read as records
with different names. -/
theorem read_rows {read : ρ → Except Fault β} {profile : β → ρ} {name : ρ → String}
    (hread : ∀ key row, t.get key = some row → ∃ record, read row = .ok record ∧ profile record = row)
    (hname : ∀ key row, t.get key = some row → name row = key) :
    ∃ records, ((t.rows.map Prod.snd).insertionSort r).mapM read = .ok records ∧
      (records.map fun record => name (profile record)).Nodup ∧
      ∀ row, (∃ record ∈ records, profile record = row) ↔ ∃ key, t.get key = some row := by
  have hrows : ∀ row ∈ (t.rows.map Prod.snd).insertionSort r,
      ∃ record, read row = .ok record ∧ profile record = row := by
    intro row hrow
    obtain ⟨key, hkey⟩ := mem_query.mp hrow
    exact hread key row hkey
  obtain ⟨records, hrecords, hprofiles⟩ := mapM_eq_ok_of_inverse hrows
  refine ⟨records, hrecords, ?_, fun row => ?_⟩
  · have hperm : (records.map fun record => name (profile record)).Perm (t.rows.map Prod.fst) := by
      have hkeys : (t.rows.map Prod.snd).map name = t.rows.map Prod.fst := by
        rw [List.map_map]
        refine List.map_congr_left ?_
        rintro ⟨key, row⟩ hrow
        exact hname key row (mem_rows.mp hrow)
      rw [← hkeys, ← Function.comp_def name profile, ← List.map_map, hprofiles]
      exact (List.perm_insertionSort r _).map name
    exact hperm.nodup_iff.mpr t.nodup_rows
  · rw [← List.mem_map, hprofiles]
    exact mem_query

end Reading

theorem skillRecord_ok {row : SkillProfile} (h : (validateSkill row).isOk = true) :
    ∃ record, Database.skillRecord row = .ok record ∧ record.profile = row := by
  refine ⟨⟨row, h⟩, ?_, rfl⟩
  unfold Database.skillRecord managedSkillRecord
  split
  · rfl
  · rename_i message hmessage
    rw [hmessage] at h
    cases h

variable [Libraries] [CaseFold] {row : HttpToolProfile}

theorem toolRecord_ok (h : validateHttpTool row = .ok row) :
    ∃ record, toolRecord row = .ok record ∧ record.profile = row := by
  refine ⟨⟨row, h⟩, ?_, rfl⟩
  unfold toolRecord managedHttpToolRecord
  split
  · rename_i q hq
    obtain rfl : q = row := Except.ok.inj (hq.symm.trans h)
    rfl
  · rename_i message hmessage
    rw [hmessage] at h
    cases h

/-! ## Tables that a runtime can be built from -/

/-- Every tool of the skill is built in or stored, and enabled if the skill is. -/
def Supported (tools : Table String HttpToolProfile) (skill : SkillProfile) : Prop :=
  ∀ tool ∈ skill.allowedTools, tool ∈ toolNames defaultToolRegistry ∨
    ∃ row, tools.get tool = some row ∧ (skill.enabled = true → row.enabled = true)

structure SkillRow (maxContentBytes : ℕ) (key : String) (row : SkillProfile) : Prop where
  named : row.name = key
  valid : (validateSkill row).isOk = true
  loadable : row.enabled = true → Loadable maxContentBytes row.instructions

structure ToolRow (key : String) (row : HttpToolProfile) : Prop where
  named : row.name = key
  valid : validateHttpTool row = .ok row
  custom : key ∉ toolNames defaultToolRegistry

structure Consistent (maxContentBytes : ℕ) (db : Database) : Prop where
  skills : ∀ key row, db.skills.get key = some row → SkillRow maxContentBytes key row
  tools : ∀ key row, db.tools.get key = some row → ToolRow key row
  supported : ∀ key row, db.skills.get key = some row → Supported db.tools row

variable {maxContentBytes : ℕ} {db : Database}

theorem Consistent.listSkills (h : Consistent maxContentBytes db) :
    ∃ records, db.listSkills = .ok records ∧ (records.map (·.profile.name)).Nodup ∧
      ∀ row, (∃ record ∈ records, record.profile = row) ↔ ∃ key, db.skills.get key = some row :=
  read_rows (fun key row hrow => skillRecord_ok (h.skills key row hrow).valid)
    fun key row hrow => (h.skills key row hrow).named

theorem Consistent.listHttpTools (h : Consistent maxContentBytes db) :
    ∃ records, db.listHttpTools = .ok records ∧ (records.map (·.profile.name)).Nodup ∧
      ∀ row, (∃ record ∈ records, record.profile = row) ↔ ∃ key, db.tools.get key = some row :=
  read_rows (fun key row hrow => toolRecord_ok (h.tools key row hrow).valid)
    fun key row hrow => (h.tools key row hrow).named

theorem Consistent.builds [SkillDigest] {settings : SkillSettings}
    (h : Consistent settings.maxContentBytes db) (previous : Option CapabilityRuntime)
    (sameSettings : Bool) : ∃ runtime, db.build settings previous sameSettings = .ok runtime := by
  obtain ⟨customTools, hcustom, htools, hcustomRows⟩ := h.listHttpTools
  obtain ⟨skills, hskills, hnames, hskillRows⟩ := h.listSkills
  have hnew : ∀ tool ∈ customTools, tool.profile.name ∉ toolNames defaultToolRegistry := by
    intro tool htool
    obtain ⟨key, hkey⟩ := (hcustomRows tool.profile).mp ⟨tool, htool, rfl⟩
    rw [(h.tools key _ hkey).named]
    exact (h.tools key _ hkey).custom
  have hoffered : ∀ record ∈ skills, record.profile.enabled = true →
      (∀ tool ∈ record.profile.allowedTools, Offered customTools tool) ∧
        Loadable settings.maxContentBytes record.profile.instructions := by
    intro record hrecord henabled
    obtain ⟨key, hkey⟩ := (hskillRows record.profile).mp ⟨record, hrecord, rfl⟩
    refine ⟨fun tool htool => ?_, (h.skills key _ hkey).loadable henabled⟩
    refine (h.supported key _ hkey tool htool).imp id ?_
    rintro ⟨row, hrow, hrowEnabled⟩
    obtain ⟨item, hitem, rfl⟩ := (hcustomRows row).mpr ⟨tool, hrow⟩
    exact ⟨item, hitem, hrowEnabled henabled, (h.tools tool _ hrow).named⟩
  have hmax : settings.maxContentBytes ≠ 0 := by
    have := settings.atLeast
    omega
  obtain ⟨runtime, hruntime⟩ :=
    buildRuntime_ok hmax hnew htools hnames hoffered previous sameSettings
  exact ⟨runtime, by rw [build, hcustom, ok_bind, hskills, ok_bind, hruntime]; rfl⟩

/-! ## What each write keeps -/

variable {key : String}

section

variable (h : Consistent maxContentBytes db)

include h

theorem Consistent.putSkill {row : SkillProfile}
    (hrow : SkillRow maxContentBytes key row) (hsupported : Supported db.tools row) :
    Consistent maxContentBytes { db with skills := db.skills.put key row } where
  skills := forall_put h.skills hrow
  tools := h.tools
  supported := forall_put h.supported hsupported

theorem Consistent.removeSkill (key : String) :
    Consistent maxContentBytes { db with skills := db.skills.remove key } := by
  have hget : ∀ key' row, (db.skills.remove key).get key' = some row →
      db.skills.get key' = some row := by
    intro key' row hrow
    rw [get_remove] at hrow
    split at hrow
    · cases hrow
    · exact hrow
  exact ⟨fun key' row hrow => h.skills key' row (hget key' row hrow), h.tools,
    fun key' row hrow => h.supported key' row (hget key' row hrow)⟩

/-- A tool may be stored if the enabled skills that name it find it enabled. -/
theorem Consistent.putTool (hrow : ToolRow key row)
    (hskills : row.enabled = false → ∀ name skill, db.skills.get name = some skill →
      skill.enabled = true → key ∉ skill.allowedTools) :
    Consistent maxContentBytes { db with tools := db.tools.put key row } where
  skills := h.skills
  tools := forall_put h.tools hrow
  supported name skill hskill tool htool := by
    refine (h.supported name skill hskill tool htool).imp id ?_
    rintro ⟨old, hold, henabled⟩
    simp only [get_put]
    by_cases hkey : tool = key
    · subst hkey
      refine ⟨row, Function.update_self .., fun hon => ?_⟩
      by_contra hoff
      exact hskills (Bool.eq_false_iff.mpr hoff) name skill hskill hon htool
    · exact ⟨old, by rw [Function.update_of_ne hkey, hold], henabled⟩

theorem Consistent.removeTool
    (hskills : ∀ name skill, db.skills.get name = some skill → key ∉ skill.allowedTools) :
    Consistent maxContentBytes { db with tools := db.tools.remove key } where
  skills := h.skills
  tools name row hrow := by
    rw [get_remove] at hrow
    split at hrow
    · cases hrow
    · exact h.tools name row hrow
  supported name skill hskill tool htool := by
    refine (h.supported name skill hskill tool htool).imp id ?_
    rintro ⟨row, hrow, henabled⟩
    refine ⟨row, ?_, henabled⟩
    rw [get_remove, if_neg, hrow]
    rintro rfl
    exact hskills name skill hskill htool

end

variable {record : ManagedHttpToolRecord}

/-- Rounding the timeout leaves a record a record, unless the table refuses it. -/
theorem storedTool_valid (h : storedTool record = .ok row) :
    row.name = record.profile.name ∧ row.version = record.profile.version ∧
      row.enabled = record.profile.enabled ∧
      (validateHttpTool record.profile.stored = .ok record.profile.stored →
        validateHttpTool row = .ok row) := by
  simp only [storedTool, ok_rules, not_or, not_le, not_lt] at h
  obtain ⟨_, ⟨hpos, hmax⟩, rfl⟩ := h
  refine ⟨rfl, rfl, rfl, fun hvalid => ?_⟩
  obtain ⟨hstatic, hsecret, hbounds, hfields, d, hd⟩ := validateHttpTool_self.mp hvalid
  refine validateHttpTool_self.mpr ⟨hstatic, hsecret, ?_, hfields, d, ?_⟩
  · simp only [checkHttpToolBounds, ok_rules, not_or, not_le, not_lt] at hbounds ⊢
    exact ⟨(), ⟨hpos, hmax⟩, hbounds.choose_spec.2⟩
  · simp only [toolDescriptor, ok_rules] at hd ⊢
    obtain ⟨_, htexts, _, hdbounds, hrest⟩ := hd
    refine ⟨(), htexts, (), ?_, hrest⟩
    simp only [checkDescriptorBounds, ok_rules, not_le, not_lt] at hdbounds ⊢
    obtain ⟨_, -, _, -, hdbounds⟩ := hdbounds
    exact ⟨(), hpos, (), hmax.trans (by norm_num), hdbounds⟩

/-! ## What each transaction keeps -/

variable {saved : ManagedHttpToolRecord}

section Transactions

variable {username : String} {db' : Database}

omit [Libraries] [CaseFold] in
theorem transact_keeps {α : Type} {P : Database → Prop} {x : Except Fault (α × Database)} (h : P db)
    (hx : ∀ a db', x = .ok (a, db') → P db') : P (transact db x).2 := by
  match x, hx with
  | .ok (a, db'), hx => exact hx a db' rfl
  | .error fault, _ => exact h

variable (h : Consistent maxContentBytes db)

include h

theorem Consistent.createSkill
    {record saved : ManagedSkillRecord} (hsupported : Supported db.tools record.profile)
    (hrow : SkillRow maxContentBytes record.profile.name record.profile.stored)
    (hok : db.createSkill record username = .ok (saved, db')) : Consistent maxContentBytes db' := by
  simp only [Database.createSkill, ok_rules, insertNew_eq_ok] at hok
  obtain ⟨-, -, skills, ⟨-, rfl⟩, -, -, -, rfl⟩ := hok
  exact h.putSkill ⟨rfl, hrow.valid, hrow.loadable⟩ hsupported

theorem Consistent.updateSkill
    {record saved : ManagedSkillRecord} (hsupported : Supported db.tools record.profile)
    (hrow : SkillRow maxContentBytes record.profile.name record.profile.stored)
    (hok : db.updateSkill record username = .ok (saved, db')) : Consistent maxContentBytes db' := by
  simp only [Database.updateSkill, ok_rules] at hok
  obtain ⟨-, -, old, hold, -, -, -, rfl⟩ := hok
  have hname : old.name = record.profile.name := (h.skills _ old hold).named
  rw [hname]
  exact h.putSkill ⟨rfl, hrow.valid, hrow.loadable⟩ hsupported

theorem Consistent.deleteSkill {name : String} {u : Unit}
    (hok : db.deleteSkill name username = .ok (u, db')) : Consistent maxContentBytes db' := by
  simp only [Database.deleteSkill, ok_rules] at hok
  obtain ⟨-, -, -, -, -, -, -, rfl⟩ := hok
  exact h.removeSkill name

theorem Consistent.createHttpTool (hcustom : record.profile.name ∉ toolNames defaultToolRegistry)
    (hvalid : validateHttpTool record.profile.stored = .ok record.profile.stored)
    (hok : db.createHttpTool record username = .ok (saved, db')) :
    Consistent maxContentBytes db' := by
  simp only [Database.createHttpTool, ok_rules, insertNew_eq_ok] at hok
  obtain ⟨-, -, row, hrow, tools, ⟨hfree, rfl⟩, -, rfl⟩ := hok
  have hstored : storedTool record = .ok row := by
    cases hcase : storedTool record with
    | ok stored => rw [hcase] at hrow; exact hrow
    | error fault => rw [hcase] at hrow; cases hrow
  obtain ⟨hname, -, -, hrow⟩ := storedTool_valid hstored
  refine h.putTool ⟨rfl, hrow hvalid, hname ▸ hcustom⟩ fun _ name skill hskill _ htool => ?_
  -- A skill that names the new tool would name one that is not stored.
  rcases h.supported name skill hskill _ htool with hbuiltin | ⟨old, hold, -⟩
  · exact hcustom (hname ▸ hbuiltin)
  · rw [hfree] at hold
    cases hold

theorem Consistent.updateHttpTool (hskills : record.profile.enabled = false → ∀ row,
      db.tools.get record.profile.name = some row → ∀ name skill, db.skills.get name = some skill →
      skill.enabled = true → record.profile.name ∉ skill.allowedTools)
    (hvalid : validateHttpTool record.profile.stored = .ok record.profile.stored)
    (hok : db.updateHttpTool record username = .ok (saved, db')) :
    Consistent maxContentBytes db' := by
  simp only [Database.updateHttpTool, ok_rules] at hok
  obtain ⟨-, -, old, hold, row, hstored, -, rfl⟩ := hok
  obtain ⟨hname, -, henabled, hrow⟩ := storedTool_valid hstored
  refine h.putTool ⟨rfl, hrow hvalid, hname ▸ (h.tools _ old hold).custom⟩ fun hoff => ?_
  rw [hname]
  exact hskills (henabled ▸ hoff) old hold

theorem Consistent.deleteHttpTool {name : String} {u : Unit}
    (hskills : ∀ key skill, db.skills.get key = some skill → name ∉ skill.allowedTools)
    (hok : db.deleteHttpTool name username = .ok (u, db')) : Consistent maxContentBytes db' := by
  simp only [Database.deleteHttpTool, ok_rules] at hok
  obtain ⟨-, -, -, -, -, rfl⟩ := hok
  exact h.removeTool hskills

end Transactions

end SuperMew.Capabilities
