import Mathlib.Tactic.IntervalCases
import SuperMew.Capabilities.Changes

/-! The versions that edits give to skills and custom tools. An edit reads the version in one
transaction and writes the next one in another. -/

namespace SuperMew.Capabilities

open Tools Skills Relational Concurrent Machine Database

/-! ## The order of versions -/

/-- The three numbers of a version, the major one first. -/
def release (version : String) : ℕ ×ₗ ℕ ×ₗ ℕ :=
  match coreNumbers (version.toList.takeWhile fun c => !(c == '-' || c == '+')) with
  | some (major, minor, patch) =>
    toLex (digitsValue major, toLex (digitsValue minor, digitsValue patch))
  | none => toLex (0, toLex (0, 0))

theorem toDigits_head {n : ℕ} (hn : 0 < n) : (Nat.toDigits 10 n).head? ≠ some '0' := by
  induction n using Nat.strong_induction_on with
  | _ n ih =>
    rw [Nat.toDigits_eq_if (by decide)]
    split
    · rename_i hlt
      interval_cases n <;> decide
    · have hne : Nat.toDigits 10 (n / 10) ≠ [] := Nat.toDigits_ne_nil
      rw [List.head?_append_of_ne_nil _ hne]
      exact ih (n / 10) (by omega) (by omega)

theorem isNumber_toDigits (n : ℕ) : isNumber (Nat.toDigits 10 (n + 1)) = true := by
  have hhead := toDigits_head (Nat.succ_pos n)
  have hdigits : ∀ c ∈ Nat.toDigits 10 (n + 1), c.isDigit = true := fun c hc =>
    Nat.isDigit_of_mem_toDigits (b := 10) (by decide) (by decide) hc
  cases hlist : Nat.toDigits 10 (n + 1) with
  | nil => exact absurd hlist Nat.toDigits_ne_nil
  | cons c cs =>
    rw [hlist] at hhead hdigits
    have hc : c ≠ '0' := by simpa using hhead
    simp_all [isNumber]

theorem digitsValue_toDigits (n : ℕ) : digitsValue (Nat.toDigits 10 n) = n := by
  rw [digitsValue, ← Nat.ofDigitChars_eq_foldl, Nat.ofDigitChars_ten_toDigits]

theorem isDigit_of_isNumber {text : List Char} (h : isNumber text = true) :
    ∀ c ∈ text, c.isDigit = true := by
  unfold isNumber at h
  split at h <;> simp_all

theorem release_dotted {major minor patch : List Char} (hmajor : isNumber major = true)
    (hminor : isNumber minor = true) (hpatch : isNumber patch = true) :
    release (String.ofList major ++ "." ++ String.ofList minor ++ "." ++ String.ofList patch) =
      toLex (digitsValue major, toLex (digitsValue minor, digitsValue patch)) := by
  have hdigits : ∀ part ∈ [major, minor, patch], ∀ c ∈ part, c.isDigit = true := by
    simpa using ⟨isDigit_of_isNumber hmajor, isDigit_of_isNumber hminor, isDigit_of_isNumber hpatch⟩
  have htext : (String.ofList major ++ "." ++ String.ofList minor ++ "." ++
      String.ofList patch).toList = ['.'].intercalate [major, minor, patch] := by
    simp [List.intercalate]
  have hcore : (['.'].intercalate [major, minor, patch]).takeWhile
      (fun c => !(c == '-' || c == '+')) = ['.'].intercalate [major, minor, patch] := by
    refine List.takeWhile_eq_self_iff.mpr fun c hc => ?_
    have hchar : c = '.' ∨ c.isDigit = true := by
      simp only [List.intercalate, List.intersperse, List.flatten_cons, List.flatten_nil,
        List.mem_append, List.mem_singleton, List.not_mem_nil, or_false] at hc
      rcases hc with hc | rfl | hc | rfl | hc
      · exact .inr (hdigits major (by simp) c hc)
      · exact .inl rfl
      · exact .inr (hdigits minor (by simp) c hc)
      · exact .inl rfl
      · exact .inr (hdigits patch (by simp) c hc)
    have hplain : c ≠ '-' ∧ c ≠ '+' := by
      constructor <;> rintro rfl <;> revert hchar <;> decide
    simp [hplain]
  have hplain : ∀ part ∈ [major, minor, patch], '.' ∉ part :=
    fun part hpart hdot => absurd (hdigits part hpart '.' hdot) (by decide)
  have hsplit := List.splitOn_intercalate '.' hplain (by simp)
  rw [release, htext, hcore, coreNumbers, hsplit]
  simp [hmajor, hminor, hpatch]

theorem coreNumbers_eq_some {text major minor patch : List Char}
    (h : coreNumbers text = some (major, minor, patch)) :
    isNumber major = true ∧ isNumber minor = true := by
  unfold coreNumbers at h
  split at h
  · split at h
    · rename_i hnumbers
      cases h
      simp only [Bool.and_eq_true] at hnumbers
      exact hnumbers.1
    · cases h
  · cases h

/-- There is no version between one and the next. -/
theorem lt_release_nextPatch {version next : String} (h : nextPatch version = some next)
    (x : ℕ ×ₗ ℕ ×ₗ ℕ) : x < release next ↔ x ≤ release version := by
  unfold nextPatch at h
  dsimp only at h
  split at h
  · cases h
  · obtain ⟨⟨major, minor, patch⟩, hcore, rfl⟩ := Option.map_eq_some_iff.mp h
    obtain ⟨hmajor, hminor⟩ := coreNumbers_eq_some hcore
    rw [Nat.toString_eq_ofList_toDigits, release_dotted hmajor hminor (isNumber_toDigits _),
      digitsValue_toDigits, release, hcore]
    obtain ⟨a, b, c, rfl⟩ : ∃ a b c, x = toLex (a, toLex (b, c)) := ⟨_, _, _, rfl⟩
    simp only [Prod.Lex.toLex_lt_toLex, Prod.Lex.toLex_le_toLex]
    omega

/-! ## Edits -/

def Database.content (db : Database) : Entity → Option (SkillProfile ⊕ HttpToolProfile)
  | .skill name => (db.skills.get name).map .inl
  | .tool name => (db.tools.get name).map .inr

def versionOf : SkillProfile ⊕ HttpToolProfile → String := Sum.elim (·.version) (·.version)

/-- The second database has of an entity what the first one has, or nothing. -/
def Database.Keeps (db : Database) (e : Entity) (db' : Database) : Prop :=
  ∀ row ∈ db'.content e, row ∈ db.content e

variable {db : Database} {e : Entity}

namespace Database.Keeps

variable {key : String}

theorem refl : db.Keeps e db := fun _ hrow => hrow

theorem putSkill {row : SkillProfile} (h : e ≠ .skill key) :
    db.Keeps e { db with skills := db.skills.put key row } := by
  intro row hrow
  cases e <;> simp_all [content, Table.get_put]

theorem putTool {row : HttpToolProfile} (h : e ≠ .tool key) :
    db.Keeps e { db with tools := db.tools.put key row } := by
  intro row hrow
  cases e <;> simp_all [content, Table.get_put]

theorem removeSkill : db.Keeps e { db with skills := db.skills.remove key } := by
  intro row hrow
  cases e <;> grind [content, Table.get_remove]

theorem removeTool : db.Keeps e { db with tools := db.tools.remove key } := by
  intro row hrow
  cases e <;> grind [content, Table.get_remove]

end Database.Keeps

section Laws

variable [Libraries] [CaseFold]

/-- An edit that commits gives its entity a larger version. -/
def Raises (db : Database) (_ : Known) (op : Op) : Prop :=
  ∀ edit ∈ op.edits, (op.perform db).1.isOk = true → ∃ row ∈ db.content edit.1,
    ∃ row' ∈ (op.perform db).2.content edit.1, release (versionOf row) < release (versionOf row')

/-- An edit that commits finds a version that is no larger than the one it has read. -/
def NotOvertaken (db : Database) (known : Known) (op : Op) : Prop :=
  ∀ edit ∈ op.edits, (op.perform db).1.isOk = true → ∀ row ∈ db.content edit.1,
    ∀ version ∈ known.read edit.1, release (versionOf row) ≤ release version

section Operations

variable {op : Op} {version : String}

/-- What an edit that commits does to its entity. -/
theorem perform_edit (hop : op.edits = some (e, version)) (hok : (op.perform db).1.isOk = true) :
    ∃ row row', db.content e = some row ∧ (op.perform db).2.content e = some row' ∧
      versionOf row' = version := by
  cases op with
  | updateSkill record username =>
    cases hop
    simp only [Op.perform] at hok ⊢
    cases hresult : db.updateSkill record username with
    | error fault => simp [hresult, transact, Except.isOk, Except.toBool] at hok
    | ok result =>
      obtain ⟨saved, db'⟩ := result
      simp only [Database.updateSkill, ok_rules] at hresult
      obtain ⟨-, -, row, hrow, -, -, -, rfl⟩ := hresult
      exact ⟨.inl row, .inl { record.profile with name := row.name, source := row.source }.stored,
        by simp [content, hrow],
        by simp [transact, content, Table.get_put], rfl⟩
  | updateHttpTool record username =>
    cases hop
    simp only [Op.perform] at hok ⊢
    cases hresult : db.updateHttpTool record username with
    | error fault => simp [hresult, transact, Except.isOk, Except.toBool] at hok
    | ok result =>
      obtain ⟨saved, db'⟩ := result
      simp only [Database.updateHttpTool, ok_rules] at hresult
      obtain ⟨-, -, row, hrow, stored, hstored, -, rfl⟩ := hresult
      obtain ⟨hname, hversion, -⟩ := storedTool_valid hstored
      exact ⟨.inr row, .inr stored, by simp [content, hrow],
        by simp [transact, content, Table.get_put, hname], hversion⟩
  | _ => cases hop

theorem raises_iff {known : Known} (h : Numbered known op) :
    Raises db known op ↔ NotOvertaken db known op := by
  refine forall₂_congr fun edit hedit => forall_congr' fun hok => ?_
  obtain ⟨e, version⟩ := edit
  obtain ⟨row, row', hrow, hrow', hversion⟩ := perform_edit hedit hok
  obtain ⟨before, hread, hnext⟩ := h (e, version) hedit
  simp only [Option.mem_def] at hread ⊢
  simp [hrow, hrow', hread, hversion, lt_release_nextPatch hnext]

/-- An operation that edits another entity, or none, leaves what is stored of an entity as it is,
or removes it. -/
theorem perform_kept (h : db.content e ≠ none) (hedit : ∀ version, op.edits ≠ some (e, version)) :
    db.Keeps e (op.perform db).2 := by
  cases op with
  | listSkills | listHttpTools => exact .refl
  | createSkill record username =>
    refine transact_keeps (α := ManagedSkillRecord) .refl fun saved db' hok => ?_
    simp only [Database.createSkill, ok_rules, Table.insertNew_eq_ok] at hok
    obtain ⟨-, -, skills, ⟨hfree, rfl⟩, -, -, -, rfl⟩ := hok
    refine .putSkill ?_
    rintro rfl
    exact h (by simp [content, hfree])
  | createHttpTool record username =>
    refine transact_keeps (α := ManagedHttpToolRecord) .refl fun saved db' hok => ?_
    simp only [Database.createHttpTool, ok_rules, Table.insertNew_eq_ok] at hok
    obtain ⟨-, -, stored, -, tools, ⟨hfree, rfl⟩, -, rfl⟩ := hok
    refine .putTool ?_
    rintro rfl
    exact h (by simp [content, hfree])
  | updateSkill record username =>
    refine transact_keeps (α := ManagedSkillRecord) .refl fun saved db' hok => ?_
    simp only [Database.updateSkill, ok_rules] at hok
    obtain ⟨-, -, old, -, -, -, -, rfl⟩ := hok
    refine .putSkill ?_
    rintro rfl
    exact hedit _ rfl
  | updateHttpTool record username =>
    refine transact_keeps (α := ManagedHttpToolRecord) .refl fun saved db' hok => ?_
    simp only [Database.updateHttpTool, ok_rules] at hok
    obtain ⟨-, -, old, -, stored, hstored, -, rfl⟩ := hok
    refine .putTool ?_
    rintro rfl
    rw [(storedTool_valid hstored).1] at hedit
    exact hedit _ rfl
  | deleteSkill name username =>
    refine transact_keeps (α := Unit) .refl fun _ db' hok => ?_
    simp only [Database.deleteSkill, ok_rules] at hok
    obtain ⟨-, -, -, -, -, -, -, rfl⟩ := hok
    exact .removeSkill
  | deleteHttpTool name username =>
    refine transact_keeps (α := Unit) .refl fun _ db' hok => ?_
    simp only [Database.deleteHttpTool, ok_rules] at hok
    obtain ⟨-, -, -, -, -, rfl⟩ := hok
    exact .removeTool

theorem perform_error (hop : op.edits ≠ none) (hok : (op.perform db).1.isOk = false) :
    (op.perform db).2 = db := by
  cases op with
  | updateSkill record username | updateHttpTool record username =>
    simp only [Op.perform, transact] at hok ⊢
    split at hok <;> simp_all [Except.isOk, Except.toBool]
  | _ => exact absurd rfl hop

/-- An operation that gives its edits larger versions keeps an entity, gives it a larger version,
or removes it. -/
theorem Raises.content {known : Known} (hraises : Raises db known op)
    {row row' : SkillProfile ⊕ HttpToolProfile} (h : db.content e = some row)
    (h' : (op.perform db).2.content e = some row') :
    row' = row ∨ release (versionOf row) < release (versionOf row') := by
  by_cases hedit : ∃ version, op.edits = some (e, version)
  · obtain ⟨version, hop⟩ := hedit
    cases hok : (op.perform db).1.isOk with
    | true =>
      obtain ⟨old, hold, new, hnew, hlt⟩ := hraises (e, version) hop hok
      obtain rfl := Option.mem_unique h hold
      obtain rfl := Option.mem_unique h' hnew
      exact .inr hlt
    | false =>
      rw [perform_error (by simp [hop]) hok] at h'
      exact .inl (Option.mem_unique h' h)
  · have hkept := perform_kept (by simp [h]) (not_exists.mp hedit) row' h'
    exact .inl (Option.mem_unique hkept h)

end Operations

/-! ## Runs -/

section Runs

variable {p : Pool Op Op.Result Fault Unit Database Known Request}
  {moves : List (Move Request Unit)} {row row' : SkillProfile ⊕ HttpToolProfile}

theorem step_content {move : Move Request Unit} (hraises : Free Raises p move)
    (h : p.state.content e = some row)
    (h' : (controlPlane.step p move).state.content e = some row') :
    row' = row ∨ release (versionOf row) < release (versionOf row') := by
  rcases controlPlane.step_state p move with hsame | ⟨known, op, choice, hcall, hstate⟩
  · rw [hsame] at h'
    exact .inl (Option.mem_unique h' h)
  · rw [hstate] at h'
    exact (hraises (known, op) hcall).content h h'

/-- The entity is there after every move. -/
abbrev Stays (e : Entity) :
    Pool Op Op.Result Fault Unit Database Known Request → List (Move Request Unit) → Prop :=
  Machine.Along controlPlane.step fun p move => ((controlPlane.step p move).state.content e).isSome

theorem run_content (hraises : Machine.Along controlPlane.step (Free Raises) p moves)
    (hstays : Stays e p moves) (h : p.state.content e = some row)
    (h' : (run controlPlane.step p moves).state.content e = some row') :
    row' = row ∨ release (versionOf row) < release (versionOf row') := by
  induction moves generalizing p row with
  | nil => exact .inl (Option.mem_unique h' h)
  | cons move moves ih =>
    obtain ⟨between, hbetween⟩ := Option.isSome_iff_exists.mp hstays.1
    have hfirst := step_content hraises.1 h hbetween
    have hrest := ih hraises.2 hstays.2 hbetween h'
    grind

/-- Every edit is given the version after one that it has read. -/
theorem run_numbered (db : Database) (moves : List (Move Request Unit)) :
    Machine.Along controlPlane.step (Free fun _ => Numbered) (.initial db) moves :=
  (controlPlane.run_calls serve_meets db moves).imp fun _ _ h call hcall => (h call hcall).numbered

/-- Every edit that commits gives its entity a larger version, so two contents that an entity has
between its creation and its deletion have the same version only if they are the same. -/
structure VersionsIncrease (db : Database) (moves : List (Move Request Unit)) : Prop where
  raised : Machine.Along controlPlane.step (Free Raises) (.initial db) moves
  identify : ∀ before between after, moves = before ++ between ++ after → ∀ e,
    Stays e (run controlPlane.step (.initial db) before) between →
    ∀ row ∈ (run controlPlane.step (.initial db) before).state.content e,
    ∀ row' ∈ (run controlPlane.step (.initial db) (before ++ between)).state.content e,
      versionOf row' = versionOf row → row' = row

/-- Versions increase iff no edit is overtaken by another one between its read and its write. -/
theorem versions_increase_iff (db : Database) (moves : List (Move Request Unit)) :
    VersionsIncrease db moves ↔
      Machine.Along controlPlane.step (Free NotOvertaken) (.initial db) moves := by
  have hnumbered := run_numbered db moves
  constructor
  · rintro ⟨hraised, -⟩
    refine (hnumbered.and hraised).imp fun p move h call hcall => ?_
    exact (raises_iff (h.1 call hcall)).mp (h.2 call hcall)
  · intro hfree
    have hraised : Machine.Along controlPlane.step (Free Raises) (.initial db) moves := by
      refine (hnumbered.and hfree).imp fun p move h call hcall => ?_
      exact (raises_iff (h.1 call hcall)).mpr (h.2 call hcall)
    refine ⟨hraised, ?_⟩
    rintro before between after rfl e hstays row hrow row' hrow' hversion
    rw [run_append] at hrow'
    rw [List.append_assoc, along_append, along_append] at hraised
    rcases run_content hraised.2.1 hstays hrow hrow' with hsame | hlt
    · exact hsame
    · rw [hversion] at hlt
      exact absurd hlt (lt_irrefl _)

/-- The content that an entity has at the end of a run is the one it had before, if its version
is. -/
theorem VersionsIncrease.content_eq (h : VersionsIncrease db moves) (n : ℕ)
    (hstays : Stays e (run controlPlane.step (.initial db) (moves.take n)) (moves.drop n))
    (hversion : ((run controlPlane.step (.initial db) (moves.take n)).state.content e).map
        versionOf =
      ((run controlPlane.step (.initial db) moves).state.content e).map versionOf) :
    (run controlPlane.step (.initial db) (moves.take n)).state.content e =
      (run controlPlane.step (.initial db) moves).state.content e := by
  have hidentify := h.identify (moves.take n) (moves.drop n) [] (by simp) e hstays
  rw [List.take_append_drop] at hidentify
  generalize (run controlPlane.step _ (moves.take n)).state.content e = row at *
  generalize (run controlPlane.step _ moves).state.content e = row' at *
  cases row <;> cases row' <;> grind

end Runs

end Laws

namespace Sample

/-- Two edits of a skill that have both read its first version. -/
def rewritten : List (Move Request Unit) := created (newsSkill "Use news.") ++ [
  .start (.updateSkill "admin" (newsSkill "Ask.")),
  .start (.updateSkill "admin" (newsSkill "Answer.")),
  .turn 2 (), .turn 3 (), .turn 2 (), .turn 3 (), .turn 2 (), .turn 3 ()]

/-- Two edits of a tool that have both read its first version. -/
def redirected : List (Move Request Unit) := [
  .start (.createHttpTool "admin" newsTool), .turn 0 (),
  .start (.updateHttpTool "admin" { newsTool with endpoint := "https://a.org" }),
  .start (.updateHttpTool "admin" { newsTool with endpoint := "https://b.org" }),
  .turn 1 (), .turn 2 (), .turn 1 (), .turn 2 ()]

def text : SkillProfile ⊕ HttpToolProfile → String := Sum.elim (·.instructions) (·.endpoint)

/-- The second edit that commits replaces the content of the first one under its version. -/
theorem edits_share_version :
    ¬ VersionsIncrease started.state rewritten ∧ ¬ VersionsIncrease started.state redirected := by
  constructor
  · intro h
    have hsame := h.content_eq (e := .skill "news-desk") 12 (by decide +kernel) (by decide +kernel)
    exact absurd (congrArg (Option.map text) hsame) (by decide +kernel)
  · intro h
    have hsame := h.content_eq (e := .tool "news") 7 (by decide +kernel) (by decide +kernel)
    exact absurd (congrArg (Option.map text) hsame) (by decide +kernel)

end Sample

end SuperMew.Capabilities
