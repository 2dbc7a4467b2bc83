import SuperMew.Capabilities.Runtime

/-! When the two registries can be built: names that do not clash, tools that are known, and
instructions that a skill registry takes. -/

namespace SuperMew.Capabilities

open List Tools Skills

/-! ## Names -/

variable {name : String}

theorem isEntry_of_isShort (h : isShort isToolName name = true) :
    strip name = name ∧ IsEntry isToolName name := by
  simp only [isShort, Bool.and_eq_true, decide_eq_true_eq] at h
  obtain ⟨hstrip, hne⟩ := strip_of_isToolName h.1
  exact ⟨hstrip, hne, h.2, h.1⟩

theorem mem_part_of_mem {mark c : Char} {parts : List (List Char)}
    (h : c ∈ [mark].intercalate parts) : c = mark ∨ ∃ part ∈ parts, c ∈ part := by
  induction parts with
  | nil => simp [List.intercalate] at h
  | cons part rest ih =>
    cases rest with
    | nil => exact .inr ⟨part, by simp, by simpa [List.intercalate] using h⟩
    | cons next others =>
      simp only [intercalate_cons_cons, mem_append, mem_singleton] at h
      rcases h with (hpart | hmark) | hrest
      · exact .inr ⟨part, by simp, hpart⟩
      · exact .inl hmark
      · refine (ih hrest).imp id ?_
        rintro ⟨other, hother, hc⟩
        exact ⟨other, mem_cons_of_mem _ hother, hc⟩

theorem strip_of_isDashedName (h : isDashedName name = true) : strip name = name := by
  apply strip_of_graphic
  intro c hc
  simp only [isDashedName, all_eq_true, Bool.and_eq_true] at h
  have hjoin : ['-'].intercalate (name.toList.splitOn '-') = name.toList :=
    intercalate_splitOn '-'
  rw [← hjoin] at hc
  rcases mem_part_of_mem hc with rfl | ⟨part, hpart, hc⟩
  · decide
  · exact graphic_of_isLowerAlnum ((h part hpart).2 c hc)

/-! ## Lists of names -/

section Names

variable {label : String} {pattern : String → Bool} {values : List String}

theorem normalizeEntry_eq_ok {value : String} {item : { item : String // pattern item = true }} :
    normalizeEntry label pattern value = .ok item ↔
      IsEntry pattern (strip value) ∧ item.1 = strip value := by
  unfold normalizeEntry
  by_cases h : IsEntry pattern (strip value)
  · rw [dif_pos h]
    simp [h, Subtype.ext_iff, eq_comm]
  · simp [h]

theorem mapM_normalizeEntry_eq_ok {items : List { item : String // pattern item = true }} :
    values.mapM (normalizeEntry label pattern) = .ok items ↔
      (∀ value ∈ values, IsEntry pattern (strip value)) ∧
        items.map Subtype.val = values.map strip := by
  induction values generalizing items with
  | nil =>
    rw [mapM_nil, pure_eq_ok]
    cases items <;> simp
  | cons value rest ih =>
    simp only [mapM_cons, ok_rules, ih, normalizeEntry_eq_ok, forall_mem_cons, map_cons]
    constructor
    · rintro ⟨first, ⟨hvalue, hfirst⟩, others, ⟨hrest, hothers⟩, rfl⟩
      exact ⟨⟨hvalue, hrest⟩, by simp [hfirst, hothers]⟩
    · rintro ⟨⟨hvalue, hrest⟩, hitems⟩
      obtain ⟨first, others, rfl, hfirst, hothers⟩ := map_eq_cons_iff.mp hitems
      exact ⟨first, ⟨hvalue, hfirst⟩, others, ⟨hrest, hothers⟩, rfl⟩

theorem normalizeUniqueValues_eq_ok
    {items : { items : List String // ∀ item ∈ items, pattern item = true }} :
    normalizeUniqueValues label pattern values = .ok items ↔
      (∀ value ∈ values, IsEntry pattern (strip value)) ∧ (values.map strip).Nodup ∧
        items.1 = (values.map strip).insertionSort (· ≤ ·) := by
  simp only [normalizeUniqueValues, ok_rules, not_not, mapM_normalizeEntry_eq_ok]
  constructor
  · rintro ⟨found, ⟨hentries, hval⟩, _, hnodup, rfl⟩
    rw [hval] at hnodup
    exact ⟨hentries, hnodup, by simp only [hval]⟩
  · rintro ⟨hentries, hnodup, hitems⟩
    have hpattern : ∀ item ∈ values.map strip, pattern item = true := by
      simpa using fun value hvalue => (hentries value hvalue).2.2
    have hval : ((values.map strip).attachWith _ hpattern).map Subtype.val = values.map strip :=
      attachWith_map_subtype_val ..
    refine ⟨_, ⟨hentries, hval⟩, (), by rwa [hval], Subtype.ext ?_⟩
    simp only [hval, hitems]

theorem normalizeUniqueValues_again
    {items : { items : List String // ∀ item ∈ items, pattern item = true }}
    (h : normalizeUniqueValues label pattern values = .ok items) :
    normalizeUniqueValues label pattern items.1 = .ok items ∧
      items.1.toFinset.sort (· ≤ ·) = items.1 := by
  obtain ⟨hentries, hnodup, hitems⟩ := normalizeUniqueValues_eq_ok.mp h
  have hperm : items.1.Perm (values.map strip) := hitems ▸ perm_insertionSort ..
  have hsorted : items.1.Pairwise (· ≤ ·) := hitems ▸ pairwise_insertionSort ..
  have hunique : items.1.Nodup := hperm.nodup_iff.mpr hnodup
  have hentry : ∀ item ∈ items.1, strip item = item ∧ IsEntry pattern item := by
    intro item hitem
    obtain ⟨value, hvalue, rfl⟩ := mem_map.mp (hperm.mem_iff.mp hitem)
    exact ⟨strip_strip value, hentries value hvalue⟩
  have hstrip : items.1.map strip = items.1 := by
    rw [map_congr_left fun item hitem => (hentry item hitem).1, map_id']
  refine ⟨normalizeUniqueValues_eq_ok.mpr ⟨?_, by rwa [hstrip], ?_⟩,
    (toFinset_sort _ hunique).mpr hsorted⟩
  · intro item hitem
    rw [(hentry item hitem).1]
    exact (hentry item hitem).2
  · rw [hstrip, hsorted.insertionSort_eq]

end Names

/-! ## Manifests -/

theorem length_strip_le (text : String) : (strip text).length ≤ text.length := by
  rw [strip, stripChars, String.length_ofList, length_reverse]
  calc ((text.toList.dropWhile isSpace).reverse.dropWhile isSpace).length
      ≤ (text.toList.dropWhile isSpace).reverse.length := (dropWhile_sublist _).length_le
    _ ≤ text.toList.length := by
        rw [length_reverse]
        exact (dropWhile_sublist _).length_le
    _ = text.length := String.length_toList ..

theorem sized_eq_ok {field : String} {low high : ℕ} {u : Unit} :
    sized field low high text = .ok u ↔ low ≤ text.length ∧ text.length ≤ high := by
  simp [sized]

/-- A text that is not blank keeps to its bounds when it is stripped. -/
theorem sized_strip {field : String} {high : ℕ} (h : sized field 1 high text = .ok ())
    (hblank : strip text ≠ "") : sized field 1 high (strip text) = .ok () := by
  rw [sized_eq_ok] at h ⊢
  refine ⟨Nat.one_le_iff_ne_zero.mpr fun hlength => hblank ?_, (length_strip_le text).trans h.2⟩
  exact String.length_eq_zero_iff.mp hlength

/-- The manifest that the validators return passes them again and is not changed. -/
theorem validateManifest_again {f : ManifestFields} {m : SkillManifest}
    (h : validateManifest f = .ok m) :
    m.name = strip f.name ∧ m.allowedTools.Perm (f.allowedTools.map strip) ∧
      validateManifest (dump m) = .ok m := by
  simp only [validateManifest, ok_rules, Bool.not_eq_false] at h
  obtain ⟨_, hname, _, hversion, _, hdescription, _, hkebab, _, hsemver, _, hblank, tools, htools,
    roles, hroles, secrets, hsecrets, rfl⟩ := h
  have hkebab' : strip f.name ≠ "" := fun hempty => absurd (hempty ▸ hkebab) (by decide)
  have hsemver' : strip f.version ≠ "" := fun hempty => absurd (hempty ▸ hsemver) (by decide)
  refine ⟨rfl, ?_, ?_⟩
  · simp only [(normalizeUniqueValues_eq_ok.mp htools).2.2]
    exact perm_insertionSort ..
  · simp only [validateManifest, dump, strip_strip, ok_rules, Bool.not_eq_false,
      (normalizeUniqueValues_again hroles).2, (normalizeUniqueValues_again hsecrets).2]
    exact ⟨(), sized_strip hname hkebab', (), sized_strip hversion hsemver', (),
      sized_strip hdescription hblank, (), hkebab, (), hsemver, (), hblank,
      tools, (normalizeUniqueValues_again htools).1, roles, (normalizeUniqueValues_again hroles).1,
      secrets, (normalizeUniqueValues_again hsecrets).1, rfl⟩

/-! ## Tools -/

theorem isShort_of_builtin (h : name ∈ toolNames defaultToolRegistry) :
    isShort isToolName name = true := by
  have hall : ∀ name ∈ toolNames defaultToolRegistry, isShort isToolName name = true := by decide
  exact hall name h

variable {p : HttpToolProfile}

section CustomTools

variable [Libraries]

theorem toolDescriptor_name {f : DescriptorFields} {d : ToolDescriptor}
    (h : toolDescriptor f = .ok d) : d.name = f.name ∧ isShort isToolName f.name = true := by
  simp only [toolDescriptor, ok_rules] at h
  obtain ⟨_, htexts, -, -, -, -, -, -, -, -, -, -, -, -, rfl⟩ := h
  simp only [checkDescriptorTexts, ok_rules, Bool.not_eq_false] at htexts
  exact ⟨rfl, htexts.choose_spec.1⟩

/-- The descriptor that a record was checked with differs from the one that is registered in
constants only. -/
theorem toolDescriptor_registered {d : ToolDescriptor}
    (h : toolDescriptor (p.descriptorFields objectSchema []) = .ok d) :
    toolDescriptor (p.descriptorFields Libraries.toolResultSchema
      ["response_bytes", "status_code"]) = .ok d := by
  simp only [toolDescriptor, ok_rules] at h ⊢
  obtain ⟨_, htexts, _, hbounds, _, hinput, _, -, roles, hroles, secrets, hsecrets, -, -, rfl⟩ := h
  have houtput : jsonSchemaCopy "output_schema" Libraries.toolResultSchema = .ok () := by
    have hdumped := Libraries.dumpedBytes_toolResult
    simp only [jsonSchemaCopy, ok_rules, Libraries.checkSchema_toolResult]
    exact ⟨(), by simp, fun hnone => by simp [hnone] at hdumped⟩
  exact ⟨(), htexts, (), hbounds, (), hinput, (), houtput, roles, hroles, secrets, hsecrets, _,
    rfl, rfl⟩

variable [CaseFold]

theorem validateHttpTool_self :
    validateHttpTool p = .ok p ↔ validateHeaders false [] p.staticHeaders = .ok p.staticHeaders ∧
        validateHeaders true [] p.secretHeaders = .ok p.secretHeaders ∧
        checkHttpToolBounds p = .ok () ∧ checkHttpToolFields p = .ok () ∧
        ∃ d, toolDescriptor (p.descriptorFields objectSchema []) = .ok d := by
  simp only [validateHttpTool, ok_rules]
  constructor
  · rintro ⟨staticHeaders, hstatic, secretHeaders, hsecret, _, hbounds, _, hfields, d, hd, hp⟩
    obtain rfl : staticHeaders = p.staticHeaders := by rw [← hp]
    obtain rfl : secretHeaders = p.secretHeaders := by rw [← hp]
    exact ⟨hstatic, hsecret, hbounds, hfields, d, hd⟩
  · rintro ⟨hstatic, hsecret, hbounds, hfields, d, hd⟩
    exact ⟨_, hstatic, _, hsecret, (), hbounds, (), hfields, d, hd, rfl⟩

theorem ManagedHttpToolRecord.isShort_name (record : ManagedHttpToolRecord) :
    isShort isToolName record.profile.name = true := by
  obtain ⟨-, -, -, -, d, hd⟩ := validateHttpTool_self.mp record.valid
  exact (toolDescriptor_name hd).2

theorem registerCustomHttpTool_ok {registry : ToolRegistry} {record : ManagedHttpToolRecord}
    (hnew : record.profile.name ∉ toolNames registry) :
    ∃ registry', registerCustomHttpTool registry record = .ok registry' ∧
      toolNames registry' = toolNames registry ++
        if record.profile.enabled then [record.profile.name] else [] := by
  obtain ⟨-, -, -, -, d, hd⟩ := validateHttpTool_self.mp record.valid
  have hname : d.name = record.profile.name := (toolDescriptor_name hd).1
  unfold registerCustomHttpTool
  cases record.profile.enabled with
  | false => exact ⟨registry, rfl, by simp⟩
  | true =>
    rw [← hname] at hnew
    simp only [if_true, toolDescriptor_registered hd, ok_bind, register, dif_neg hnew]
    exact ⟨_, rfl, by simp [toolNames, hname]⟩

/-- Custom tools with names of their own can be registered. -/
theorem registerCustomHttpTools_ok {registry : ToolRegistry} {tools : List ManagedHttpToolRecord}
    (hnew : ∀ tool ∈ tools, tool.profile.name ∉ toolNames registry)
    (hnodup : (tools.map (·.profile.name)).Nodup) :
    ∃ registry', registerCustomHttpTools registry tools = .ok registry' ∧
      ∀ name, name ∈ toolNames registry' ↔ name ∈ toolNames registry ∨
        ∃ tool ∈ tools, tool.profile.enabled = true ∧ tool.profile.name = name := by
  induction tools generalizing registry with
  | nil => exact ⟨registry, rfl, by simp⟩
  | cons tool rest ih =>
    obtain ⟨next, hnext, hnames⟩ := registerCustomHttpTool_ok (hnew tool mem_cons_self)
    rw [map_cons, nodup_cons] at hnodup
    have hother : ∀ other ∈ rest, other.profile.name ∉ toolNames next := by
      intro other hmem
      rw [hnames, mem_append, not_or]
      refine ⟨hnew other (mem_cons_of_mem _ hmem), ?_⟩
      split
      · rw [mem_singleton]
        exact fun hsame => hnodup.1 (hsame ▸ mem_map_of_mem hmem)
      · exact not_mem_nil
    obtain ⟨last, hlast, hall⟩ := ih hother hnodup.2
    refine ⟨last, ?_, fun name => ?_⟩
    · simp only [registerCustomHttpTools, foldlM_cons, hnext, ok_bind]
      exact hlast
    · rw [hall, hnames]
      cases henabled : tool.profile.enabled <;> simp [henabled, or_assoc, @eq_comm _ name tool.profile.name]

end CustomTools

/-! ## Skills -/

/-- Instructions that a skill registry takes. -/
def Loadable (maxContentBytes : ℕ) (instructions : String) : Prop :=
  strip instructions ≠ "" ∧ nul ∉ instructions.toList ∧ instructions.utf8ByteSize ≤ maxContentBytes

instance (maxContentBytes : ℕ) (instructions : String) :
    Decidable (Loadable maxContentBytes instructions) :=
  inferInstanceAs (Decidable (_ ∧ _ ∧ _))

variable {knownTools : List String} {records : List ManagedSkillRecord}
  {definitions : List SkillDefinition} {registry : SkillRegistry}

section Registry

variable {maxContentBytes : ℕ}

/-- A definition that can be added to a registry that knows these tools. -/
structure Addable (knownTools : List String) (maxContentBytes : ℕ) (d : SkillDefinition) : Prop where
  manifest : validateManifest (dump d.manifest) = .ok d.manifest
  tools : ∀ tool ∈ d.manifest.allowedTools, tool ∈ knownTools
  bytes : d.instructions.utf8ByteSize ≤ maxContentBytes

theorem SkillDefinition.bytes_ne_zero (d : SkillDefinition) : d.instructions.utf8ByteSize ≠ 0 := by
  intro hzero
  apply d.nonblank
  rw [String.utf8ByteSize_eq_zero_iff.mp hzero]
  rfl

/-- A record whose skill can be part of a registry that knows these tools. -/
structure Buildable (knownTools : List String) (maxContentBytes : ℕ) (p : SkillProfile) : Prop where
  tools : ∀ tool ∈ p.allowedTools, tool ∈ knownTools
  loadable : Loadable maxContentBytes p.instructions

theorem ManagedSkillRecord.validated (record : ManagedSkillRecord) :
    isDashedName record.profile.name = true ∧
      ∃ m, validateManifest record.profile.manifestFields = .ok m := by
  have hvalid := record.valid
  cases h : validateSkill record.profile with
  | error message =>
    rw [h] at hvalid
    cases hvalid
  | ok m =>
    simp only [validateSkill, ok_rules, Bool.not_eq_false] at h
    obtain ⟨-, -, -, hname, -, -, -, -, -, -, -, -, -, -, -, -, hm⟩ := h
    exact ⟨hname, m, hm⟩

theorem skillDefinition_ok {record : ManagedSkillRecord}
    (hshort : ∀ name ∈ knownTools, isShort isToolName name = true)
    (h : Buildable knownTools maxContentBytes record.profile) :
    ∃ d, (do let manifest ← validateManifest record.profile.manifestFields
             skillDefinition manifest record.profile.instructions) = .ok d ∧
      Addable knownTools maxContentBytes d ∧ d.manifest.name = record.profile.name := by
  obtain ⟨hname, m, hm⟩ := record.validated
  obtain ⟨hstrip, hperm, hagain⟩ := validateManifest_again hm
  obtain ⟨hblank, hnul, hbytes⟩ := h.loadable
  refine ⟨⟨m, record.profile.instructions, hblank, hnul⟩, ?_, ⟨hagain, ?_, hbytes⟩, ?_⟩
  · rw [hm, ok_bind, skillDefinition, dif_neg hblank, dif_neg hnul]
  · intro tool htool
    obtain ⟨named, hnamed, rfl⟩ := mem_map.mp (hperm.mem_iff.mp htool)
    rw [(isEntry_of_isShort (hshort named (h.tools named hnamed))).1]
    exact h.tools named hnamed
  · rw [hstrip]
    exact strip_of_isDashedName hname

theorem skillDefinitions_ok (hshort : ∀ name ∈ knownTools, isShort isToolName name = true)
    (h : ∀ record ∈ records, Buildable knownTools maxContentBytes record.profile) :
    ∃ definitions, (records.mapM fun record => do
        let manifest ← validateManifest record.profile.manifestFields
        skillDefinition manifest record.profile.instructions) = .ok definitions ∧
      (∀ d ∈ definitions, Addable knownTools maxContentBytes d) ∧
      definitions.map (·.manifest.name) = records.map (·.profile.name) := by
  induction records with
  | nil => exact ⟨[], rfl, by simp, rfl⟩
  | cons record rest ih =>
    obtain ⟨d, hd, hadd, hname⟩ := skillDefinition_ok hshort (h record mem_cons_self)
    obtain ⟨others, hothers, hall, hnames⟩ :=
      ih fun other hother => h other (mem_cons_of_mem _ hother)
    refine ⟨d :: others, ?_, ?_, by simp [hname, hnames]⟩
    · rw [mapM_cons, hd, hothers]
      rfl
    · rintro other (_ | ⟨_, hother⟩)
      · exact hadd
      · exact hall other hother

variable [SkillDigest]

theorem addDefinition_ok {d : SkillDefinition} (hd : Addable knownTools maxContentBytes d)
    (hnew : d.manifest.name ∉ registry.records.map fun record => record.manifest.name) :
    ∃ registry', addDefinition knownTools maxContentBytes registry d = .ok registry' ∧
      (registry'.records.map fun record => record.manifest.name) =
        (registry.records.map fun record => record.manifest.name) ++ [d.manifest.name] := by
  have htools : (d.manifest.allowedTools.all (knownTools.contains ·)) = true := by
    simpa using hd.tools
  have hbytes : ¬ (d.instructions.utf8ByteSize = 0 ∨
      maxContentBytes < d.instructions.utf8ByteSize) := by
    rintro (hzero | hlarge)
    · exact d.bytes_ne_zero hzero
    · exact Nat.not_lt.mpr hd.bytes hlarge
  simp only [addDefinition, hd.manifest, ok_bind, dif_neg hnew, failIf, htools, hbytes, d.noNul]
  exact ⟨_, rfl, by simp⟩

theorem addDefinitions_ok (hadd : ∀ d ∈ definitions, Addable knownTools maxContentBytes d)
    (hnew : ∀ d ∈ definitions,
      d.manifest.name ∉ registry.records.map fun record => record.manifest.name)
    (hnodup : (definitions.map (·.manifest.name)).Nodup) :
    ∃ registry', definitions.foldlM (addDefinition knownTools maxContentBytes) registry =
      .ok registry' := by
  induction definitions generalizing registry with
  | nil => exact ⟨registry, rfl⟩
  | cons d rest ih =>
    obtain ⟨next, hnext, hnames⟩ :=
      addDefinition_ok (hadd d mem_cons_self) (hnew d mem_cons_self)
    rw [map_cons, nodup_cons] at hnodup
    rw [foldlM_cons, hnext, ok_bind]
    refine ih (fun other hmem => hadd other (mem_cons_of_mem _ hmem)) ?_ hnodup.2
    intro other hmem
    rw [hnames, mem_append, not_or, mem_singleton]
    exact ⟨hnew other (mem_cons_of_mem _ hmem), fun hsame => hnodup.1 (hsame ▸ mem_map_of_mem hmem)⟩

/-- Definitions with names of their own make a registry, if the names of the tools are good. -/
theorem fromDefinitions_ok
    (hmax : maxContentBytes ≠ 0) (hshort : ∀ name ∈ knownTools, isShort isToolName name = true)
    (hknown : knownTools.Nodup) (hadd : ∀ d ∈ definitions, Addable knownTools maxContentBytes d)
    (hnodup : (definitions.map (·.manifest.name)).Nodup) :
    ∃ registry, fromDefinitions definitions knownTools maxContentBytes = .ok registry := by
  have hstrip : knownTools.map strip = knownTools := by
    rw [map_congr_left fun name hname => (isEntry_of_isShort (hshort name hname)).1, map_id']
  have hentries : ∀ name ∈ knownTools, IsEntry isToolName (strip name) := by
    intro name hname
    rw [(isEntry_of_isShort (hshort name hname)).1]
    exact (isEntry_of_isShort (hshort name hname)).2
  let sorted := knownTools.insertionSort (· ≤ ·)
  have hmem : ∀ name, name ∈ sorted ↔ name ∈ knownTools := fun name => mem_insertionSort _
  have hsorted : normalizeUniqueValues "known_tools" isToolName knownTools =
      .ok ⟨sorted, fun name hname =>
        (isEntry_of_isShort (hshort name ((hmem name).mp hname))).2.2.2⟩ :=
    normalizeUniqueValues_eq_ok.mpr ⟨hentries, by rwa [hstrip], by rw [hstrip]⟩
  simp only [fromDefinitions, failIf, if_neg hmax, ok_bind, hsorted]
  refine addDefinitions_ok (fun d hd => ?_) (by simp) hnodup
  exact ⟨(hadd d hd).manifest, fun tool htool => (hmem tool).mpr ((hadd d hd).tools tool htool),
    (hadd d hd).bytes⟩

/-- The skill registry can be built if every enabled skill has known tools and good
instructions. -/
theorem buildSkillRegistry_ok {tools : ToolRegistry} (hmax : maxContentBytes ≠ 0)
    (hshort : ∀ name ∈ toolNames tools, isShort isToolName name = true)
    (hnodup : (records.map (·.profile.name)).Nodup)
    (h : ∀ record ∈ records, record.profile.enabled = true →
      Buildable (toolNames tools) maxContentBytes record.profile) :
    ∃ registry, buildSkillRegistry tools records maxContentBytes = .ok registry := by
  have henabled : ∀ record ∈ records.filter fun record => record.profile.enabled,
      Buildable (toolNames tools) maxContentBytes record.profile := by
    intro record hrecord
    obtain ⟨hmem, htrue⟩ := mem_filter.mp hrecord
    exact h record hmem htrue
  obtain ⟨definitions, hdefinitions, hadd, hnames⟩ := skillDefinitions_ok hshort henabled
  rw [buildSkillRegistry, hdefinitions, ok_bind]
  refine fromDefinitions_ok hmax hshort tools.unique hadd ?_
  rw [hnames]
  exact hnodup.sublist ((filter_sublist).map _)

/-! ## Runtimes -/

variable [Libraries] [CaseFold]

def Offered (customTools : List ManagedHttpToolRecord) (name : String) : Prop :=
  name ∈ toolNames defaultToolRegistry ∨
    ∃ tool ∈ customTools, tool.profile.enabled = true ∧ tool.profile.name = name

/-- A runtime can be built, from scratch or as a projection of the one before it. -/
theorem buildRuntime_ok {customTools : List ManagedHttpToolRecord}
    {skills : List ManagedSkillRecord} (hmax : maxContentBytes ≠ 0)
    (hnew : ∀ tool ∈ customTools, tool.profile.name ∉ toolNames defaultToolRegistry)
    (htools : (customTools.map (·.profile.name)).Nodup)
    (hskills : (skills.map (·.profile.name)).Nodup)
    (hoffered : ∀ record ∈ skills, record.profile.enabled = true →
      (∀ tool ∈ record.profile.allowedTools, Offered customTools tool) ∧
        Loadable maxContentBytes record.profile.instructions)
    (previous : Option CapabilityRuntime) (sameSettings : Bool) :
    ∃ runtime, buildRuntime previous sameSettings customTools skills maxContentBytes =
      .ok runtime := by
  obtain ⟨tools, hregistered, hnames⟩ := registerCustomHttpTools_ok hnew htools
  have hshort : ∀ name ∈ toolNames tools, isShort isToolName name = true := by
    intro name hname
    rcases (hnames name).mp hname with hbuiltin | ⟨tool, -, -, rfl⟩
    · exact isShort_of_builtin hbuiltin
    · exact tool.isShort_name
  obtain ⟨registry, hregistry⟩ := buildSkillRegistry_ok hmax hshort hskills
    fun record hrecord henabled =>
      ⟨fun tool htool => (hnames tool).mpr ((hoffered record hrecord henabled).1 tool htool),
        (hoffered record hrecord henabled).2⟩
  unfold buildRuntime
  split
  · rename_i runtime hprevious
    -- The previous runtime has the tools that would be registered now.
    obtain ⟨-, hsame⟩ := Option.filter_eq_some_iff.mp hprevious
    simp only [Bool.and_eq_true, decide_eq_true_eq] at hsame
    have hcustom : runtime.customTools = customTools := by
      refine map_injective_iff.mpr ?_ hsame.2
      rintro ⟨p, _⟩ ⟨q, _⟩ rfl
      rfl
    have hsameTools : runtime.tools = tools := by
      have hboth := runtime.registered
      rw [hcustom, hregistered] at hboth
      exact (Except.ok.inj hboth).symm
    rw [← hsameTools] at hregistry
    rw [buildProjection, hregistry]
    exact ⟨_, rfl⟩
  · split
    · rename_i message hfailed
      rw [hregistered] at hfailed
      cases hfailed
    · rename_i tools' hregistered'
      rw [hregistered] at hregistered'
      cases hregistered'
      rw [hregistry]
      exact ⟨_, rfl⟩

end Registry

end SuperMew.Capabilities
