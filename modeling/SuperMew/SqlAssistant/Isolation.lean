import SuperMew.SqlAssistant.Acceptance
import SuperMew.SqlAssistant.Cursor

/-! The results of compiled queries do not depend on sensitive columns. -/

namespace SuperMew.SqlAssistant

open Sql Sqlglot

section Isolation

variable {V C Text : Type} {policy : SqlPolicy} {catalog : SqlCatalog}

/-! ## Compiled queries -/

/-- The query as the library parses and qualifies it. -/
def qualifiedQuery (V : Type) [Sqlglot V Text] (policy : SqlPolicy) (catalog : SqlCatalog)
    (text : Text) : Option (Query V) :=
  match parse text with
  | some [.query query] => (qualifyTables Text policy.defaultSchema query).bind
      (qualify Text policy.defaultSchema catalog)
  | _ => none

theorem prepare_ok [Sqlglot V Text] {query : Query V} {prepared : PreparedQuery V}
    (h : prepare Text policy catalog query = .ok prepared) :
    (qualifyTables Text policy.defaultSchema query).bind
        (qualify Text policy.defaultSchema catalog) = some prepared.expression ∧
      (∃ references, validateRelations policy catalog prepared.expression = .ok references) ∧
      Validated policy catalog prepared.expression ∧
      prepared.maskedOrdinals = maskedOrdinalsOf policy catalog prepared.expression := by
  simp only [prepare, ok_rules] at h
  obtain ⟨_, -, h⟩ := h
  split at h
  · cases h
  · rename_i normalized hnormalized
    simp only [ok_rules] at h
    obtain ⟨_, -, h⟩ := h
    split at h
    · cases h
    · rename_i qualified hqualified
      simp only [ok_rules] at h
      obtain ⟨_, -, references, hreferences, _, -, _, -, ⟨projections, masked⟩, hsensitive, rfl⟩ := h
      obtain ⟨hvalid, -, hmasked⟩ := validateSensitiveColumns_ok hsensitive
      exact ⟨by rw [hnormalized, Option.bind_some, hqualified], ⟨references, hreferences⟩, hvalid,
        hmasked⟩

theorem parseUserQuery_ok [Sqlglot V Text] {text : Text} {query : Query V}
    (h : parseUserQuery policy text = .ok query) : parse text = some [Statement.query query] := by
  unfold parseUserQuery at h
  split at h
  · cases h
  · split at h
    · cases h
    · cases h
    · rename_i expression hparse
      simp only [ok_rules] at h
      obtain ⟨_, -, rfl⟩ := h
      exact hparse
    · cases h
    · cases h

/-- What a compiled query is: the qualified query within the limit. -/
structure Compiled [Sqlglot V Text] (policy : SqlPolicy) (catalog : SqlCatalog)
    (compiled : CompiledSqlQuery Text) (query : Query V) : Prop where
  executable : compiled.executableSql =
    sql (.everything query resultLabel (policy.maxRows + 1))
  masked : compiled.maskedOrdinals = maskedOrdinalsOf policy catalog query
  limit : compiled.maxRows = policy.maxRows
  relations : ∃ references, validateRelations policy catalog query = .ok references
  valid : Validated policy catalog query

theorem compile_ok [Sqlglot V Text] [DecidableEq Text] {text : Text}
    {compiled : CompiledSqlQuery Text} (h : compile V policy text catalog = .ok compiled) :
    ∃ query : Query V, qualifiedQuery V policy catalog text = some query ∧
      Compiled policy catalog compiled query := by
  simp only [compile, ok_rules] at h
  obtain ⟨parsed, hparsed, first, hfirst, reparsed, -, second, hsecond, h⟩ := h
  split at h
  · rename_i hsame
    simp only [ok_rules] at h
    obtain ⟨_, -, rfl⟩ := h
    obtain ⟨hqualified, -⟩ := prepare_ok hfirst
    obtain ⟨-, hrelations, hvalid, hmasked⟩ := prepare_ok hsecond
    have hexpression : second.expression = first.expression := by
      have hparse := congrArg (parse (V := V)) hsame.1
      simpa only [parse_sql, Option.some.injEq, List.cons.injEq, and_true,
        Statement.query.injEq] using hparse
    refine ⟨second.expression, ?_, rfl, hmasked, rfl, hrelations, hvalid⟩
    rw [qualifiedQuery, parseUserQuery_ok hparsed, hexpression]
    exact hqualified
  · cases h

/-! ## Databases -/

/-- The rows have the same cells, except where they are hidden. -/
def SameRow (hidden : List Bool) (row row' : List V) : Prop :=
  row.length = row'.length ∧ ∀ i : ℕ, hidden[i]?.getD false = false → row[i]? = row'[i]?

/-- The databases have the tables that the policy allows, as the catalog describes them, and
agree on all of their columns that are not sensitive. -/
def Agree (policy : SqlPolicy) (catalog : SqlCatalog) (db db' : Database V) : Prop :=
  ∀ schema name relation, policy.allowsRelation schema name = true →
    catalog.relation schema name = some relation →
      ∃ rows rows', db schema name = some ⟨relation.columns.map SqlCatalogColumn.name, rows⟩ ∧
        db' schema name = some ⟨relation.columns.map SqlCatalogColumn.name, rows'⟩ ∧
        List.Forall₂ (SameRow (relation.columns.map (policy.hidden relation))) rows rows'

theorem viewOf_some {schema name : String} {columns : List (String × Bool)}
    (h : viewOf policy catalog schema name = some columns) :
    ∃ relation, policy.allowsRelation schema name = true ∧
      catalog.relation schema name = some relation ∧
      columns = relation.columns.map fun column => (column.name, policy.hidden relation column) := by
  unfold viewOf at h
  split at h
  · rename_i hallowed
    obtain ⟨relation, hrelation, rfl⟩ := Option.map_eq_some_iff.mp h
    exact ⟨relation, hallowed, hrelation, rfl⟩
  · cases h

theorem eraseRow_eq_of_sameRow [Engine V] {hidden : List Bool} {row row' : List V}
    (h : SameRow hidden row row') : eraseRow hidden row = eraseRow hidden row' := by
  obtain ⟨hlength, hsame⟩ := h
  refine List.ext_getElem? fun i => ?_
  rw [eraseRow_getElem?, eraseRow_getElem?]
  cases hflag : hidden[i]?.getD false with
  | false => simp [hsame i hflag]
  | true =>
    have hnone : row[i]? = none ↔ row'[i]? = none := by
      rw [List.getElem?_eq_none_iff, List.getElem?_eq_none_iff, hlength]
    cases hrow : row[i]? with
    | none => rw [hnone.mp hrow]
    | some v =>
      cases hrow' : row'[i]? with
      | none => rw [hnone.mpr hrow'] at hrow; cases hrow
      | some w => simp

theorem agree_conforms {db db' : Database V} (h : Agree policy catalog db db') :
    Conforms (viewOf policy catalog) db ∧ Conforms (viewOf policy catalog) db' := by
  constructor
  all_goals
    intro schema name columns hview
    obtain ⟨relation, hallowed, hrelation, rfl⟩ := viewOf_some hview
    obtain ⟨rows, rows', hrows, hrows', -⟩ := h schema name relation hallowed hrelation
    rw [List.map_map]
  · exact ⟨rows, hrows⟩
  · exact ⟨rows', hrows'⟩

theorem agree_erase [Engine V] {db db' : Database V} (h : Agree policy catalog db db') :
    eraseDatabase (viewOf policy catalog) db = eraseDatabase (viewOf policy catalog) db' := by
  funext schema name
  unfold eraseDatabase
  cases hview : viewOf policy catalog schema name with
  | none => rfl
  | some columns =>
    obtain ⟨relation, hallowed, hrelation, rfl⟩ := viewOf_some hview
    obtain ⟨rows, rows', hrows, hrows', hsame⟩ := h schema name relation hallowed hrelation
    have herased : rows.map (eraseRow (relation.columns.map (policy.hidden relation))) =
        rows'.map (eraseRow (relation.columns.map (policy.hidden relation))) := by
      clear hrows hrows'
      induction hsame with
      | nil => rfl
      | cons hrow _ ih => rw [List.map_cons, List.map_cons, eraseRow_eq_of_sameRow hrow, ih]
    simpa [hrows, hrows', Function.comp_def] using herased

/-! ## Execution -/

section Execution

variable [Engine V] [Sqlglot V Text] [ResultCodec V C] {settings : SqlAssistantSettings}
  {interrupted : ℕ → Option SqlAssistantErrorCode} {compiled : CompiledSqlQuery Text}
  {query : Query V} (hcompiled : Compiled policy catalog compiled query)

include hcompiled

/-- Two runs return the same if their rows differ in masked cells only. -/
theorem executeCursor_congr {mask : List Bool} {db db' : Database V}
    (hmask : ∀ i : ℕ, mask[i]?.getD false = true → i ∈ compiled.maskedOrdinals)
    (hrows : (query.rows db [] []).map (List.map (eraseRow mask)) =
      (query.rows db' [] []).map (List.map (eraseRow mask))) :
    executeCursor V C settings interrupted compiled db =
      executeCursor V C settings interrupted compiled db' := by
  simp only [executeCursor, hcompiled.executable, parse_sql, Query.rows, Query.labels]
  cases hdb : query.rows db [] [] with
  | error e =>
    cases hdb' : query.rows db' [] [] with
    | error e' =>
      rw [hdb, hdb'] at hrows
      obtain rfl := Except.error.inj hrows
      rfl
    | ok rows' => rw [hdb, hdb'] at hrows; cases hrows
  | ok rows =>
    cases hdb' : query.rows db' [] [] with
    | error e' => rw [hdb, hdb'] at hrows; cases hrows
    | ok rows' =>
      rw [hdb, hdb'] at hrows
      have hsame := congrArg (List.take (policy.maxRows + 1)) (Except.ok.inj hrows)
      rw [← List.map_take, ← List.map_take] at hsame
      have hfetch : ∀ progress : Progress C,
          fetchAll settings compiled.maskedOrdinals compiled.maxRows query.labels.length
              interrupted 0 progress (rows.take (policy.maxRows + 1)) =
            fetchAll settings compiled.maskedOrdinals compiled.maxRows query.labels.length
              interrupted 0 progress (rows'.take (policy.maxRows + 1)) := by
        intro progress
        rw [← fetchAll_erase hmask, hsame, fetchAll_erase hmask]
      simp [bind, Except.bind, pure, Except.pure, hfetch]

/-- The result has at most `max_rows` rows, and says whether the query has more. -/
theorem executeCursor_rows {db : Database V} {result : SqlQueryResult C}
    (h : executeCursor V C settings interrupted compiled db = .ok result) :
    ∃ rows, query.rows db [] [] = .ok rows ∧ result.rowCount = result.rows.length ∧
      result.rowCount ≤ policy.maxRows ∧
      (result.truncated = true ↔ policy.maxRows < rows.length) := by
  simp only [executeCursor, hcompiled.executable, parse_sql, Query.rows] at h
  cases hrows : query.rows db [] [] with
  | error e =>
    rw [hrows] at h
    cases h
  | ok rows =>
    rw [hrows] at h
    replace h : (do
        failIf (compiled.maskedOrdinals.any (query.labels.length ≤ ·) = true) .executionFailed
        let bytes ← ResultCodec.payloadBytes (C := C) V query.labels [] compiled.maxRows true
        let progress ← fetchAll settings compiled.maskedOrdinals compiled.maxRows
          query.labels.length interrupted 0 (⟨[], bytes, false⟩ : Progress C)
          (rows.take (policy.maxRows + 1))
        let resultBytes ← ResultCodec.payloadBytes V query.labels progress.rows
          progress.rows.length progress.truncated
        failIf (settings.maxResultBytes < resultBytes) .resultLimitExceeded
        pure ⟨query.labels, progress.rows, progress.rows.length, progress.truncated,
          resultBytes, compiled.maskedOrdinals.length, compiled.limitApplied⟩) =
        (Except.ok result : Except SqlAssistantErrorCode (SqlQueryResult C)) := h
    simp only [ok_rules] at h
    obtain ⟨_, -, bytes, -, progress, hfetch, _, -, _, -, rfl⟩ := h
    obtain ⟨hmax, htruncated⟩ := fetchAll_rows (Nat.zero_le _) rfl hfetch
    rw [hcompiled.limit] at hmax htruncated
    refine ⟨rows, rfl, rfl, hmax, htruncated.trans ?_⟩
    rw [List.length_take, List.length_nil]
    omega

end Execution

/-! ## Isolation -/

/-- Results show nothing of the sensitive columns beside their masks: they are the same over
databases that agree on all others. The query reads tables that the policy allows, and
returns at most `max_rows` rows. -/
structure Isolated (C : Type) [Engine V] [Sqlglot V Text] [ResultCodec V C]
    (settings : SqlAssistantSettings) (interrupted : ℕ → Option SqlAssistantErrorCode)
    (policy : SqlPolicy) (catalog : SqlCatalog) (compiled : CompiledSqlQuery Text)
    (query : Query V) : Prop where
  executes : parse compiled.executableSql =
    some [.query (.everything query resultLabel (policy.maxRows + 1))]
  same : ∀ db db' : Database V, Agree policy catalog db db' →
    executeCursor V C settings interrupted compiled db =
      executeCursor V C settings interrupted compiled db'
  reads : ∀ scope ∈ traverseScope [] [] query, ∀ entry ∈ scopeTables scope.sources,
    policy.allowsRelation entry.2.1 entry.2.2 = true ∧
      (catalog.relation entry.2.1 entry.2.2).isSome = true
  limits : ∀ (db : Database V) (result : SqlQueryResult C),
    executeCursor V C settings interrupted compiled db = .ok result →
      ∃ rows, query.rows db [] [] = .ok rows ∧ result.rowCount = result.rows.length ∧
        result.rowCount ≤ policy.maxRows ∧
        (result.truncated = true ↔ policy.maxRows < rows.length)

theorem allowed_of_visible {schema name : String}
    (h : (viewOf policy catalog schema name).isSome = true) :
    policy.allowsRelation schema name = true ∧ (catalog.relation schema name).isSome = true := by
  obtain ⟨columns, hview⟩ := Option.isSome_iff_exists.mp h
  obtain ⟨relation, hallowed, hrelation, -⟩ := viewOf_some hview
  exact ⟨hallowed, Option.isSome_iff_exists.mpr ⟨relation, hrelation⟩⟩

/-- A compiled query is isolated if its references to sensitive columns are recognised. -/
theorem compiled_isolated [Engine V] [Sqlglot V Text] [DecidableEq Text] [ResultCodec V C]
    (settings : SqlAssistantSettings) (interrupted : ℕ → Option SqlAssistantErrorCode)
    {text : Text} {compiled : CompiledSqlQuery Text}
    (h : compile V policy text catalog = .ok compiled) :
    ∃ query : Query V, qualifiedQuery V policy catalog text = some query ∧
      (recognisesQuery policy catalog [] [] [] query = true →
        Isolated C settings interrupted policy catalog compiled query) := by
  obtain ⟨query, hqualified, hcompiled⟩ := compile_ok h
  refine ⟨query, hqualified, fun hsees => ?_⟩
  obtain ⟨references, hreferences⟩ := hcompiled.relations
  have htables := validateRelations_tables hreferences
  obtain ⟨hclear, hmask⟩ := accepted_clearBut hsees htables hcompiled.valid
  refine ⟨by rw [hcompiled.executable, parse_sql], fun db db' hagree => ?_,
    fun scope hscope entry hentry => allowed_of_visible (htables scope hscope entry hentry),
    fun db result hresult => executeCursor_rows hcompiled hresult⟩
  obtain ⟨hdb, hdb'⟩ := agree_conforms hagree
  rw [← hcompiled.masked] at hmask
  refine executeCursor_congr hcompiled hmask ?_
  rw [← Query.rows_masked hdb hclear, ← Query.rows_masked hdb' hclear, agree_erase hagree]

end Isolation

/-! ## Samples -/

namespace Sample

/-- A number, or null. -/
abbrev Value := Option ℕ

inductive Cell where
  | mask
  | value (value : Value)
  deriving DecidableEq, Repr

instance : Engine Value where
  null := none
  isNull v := v.isNone
  holds v := v == some 1
  equal v w := v.isSome && v == w
  same row row' := row == row'
  before _ _ _ := true
  call _ _ := .error (.engine "undefined function")
  aggregate _ _ := .error (.engine "undefined function")
  nested _ _ _ := .error (.engine "undefined operator")

/-- A text is the query that it is the text of. All of its names are qualified. -/
instance : Sqlglot Value (Query Value) where
  blank _ := false
  parse query := some [.query query]
  nodeCount _ := 1
  isFunction _ := true
  qualifyTables _ := some
  qualify _ _ := some
  sql := id
  parse_sql _ := rfl

instance : ResultCodec Value Cell where
  maskedValue := .mask
  jsonValue v := .ok (.value v)
  cellBytes _ := .ok 5
  rowBytes cells := .ok (6 * cells.length + 1)
  payloadBytes _ rows _ _ := .ok (64 + 16 * rows.length)

noncomputable instance : DecidableEq (Query Value) := Classical.decEq _

def settings : SqlAssistantSettings := ⟨100, 4096, 65536, by decide⟩

def policy : SqlPolicy where
  defaultSchema := "public"
  allowedSchemas := ["public"]
  allowedTables := ["public.users"]
  allowedFunctions := []
  sensitiveColumns := ["public.users.email"]
  maxRows := 10
  maxTables := 5
  maxAstNodes := 100
  rows := by decide
  tables := by decide
  nodes := by decide

def catalog : SqlCatalog where
  relations := [⟨"public", "users", [⟨"id", false⟩, ⟨"email", false⟩], "table", by decide⟩]
  unique := by decide

/-- `SELECT u.<name> FROM public.users AS u (<aliases>)`. -/
def selectUsers (aliases : List String) (name : String) : Query Value :=
  .select [] false [.column (some "u") name] [name]
    [.mk .inner false [] (.table "public" "users" "u" aliases) []] [] [] [] [] .plain

def compiled (query : Query Value) (projection : SqlProjection) (masked : List ℕ) :
    CompiledSqlQuery (Query Value) :=
  ⟨query, .everything query resultLabel 11, [⟨"public", "users", "u", "table"⟩], [projection],
    masked, 10, 11⟩

/-- One user, with the address. -/
def users (email : Value) : Database Value := fun schema name =>
  if schema = "public" ∧ name = "users" then some ⟨["id", "email"], [[some 1, email]]⟩ else none

theorem users_agree (email email' : Value) : Agree policy catalog (users email) (users email') := by
  intro schema name relation _ hrelation
  have hfound := List.find?_some hrelation
  have hmem := List.mem_of_find?_eq_some hrelation
  simp only [catalog, List.mem_singleton] at hmem
  subst hmem
  simp only [Bool.and_eq_true, beq_iff_eq] at hfound
  obtain ⟨rfl, rfl⟩ := hfound
  refine ⟨[[some 1, email]], [[some 1, email']], rfl, rfl, .cons ⟨rfl, fun i hi => ?_⟩ .nil⟩
  match i, hi with
  | 0, _ => rfl
  | 1, hi => exact absurd hi (by decide)
  | i + 2, _ => rfl

theorem compile_eq {query : Query Value} {projection : SqlProjection} {masked : List ℕ}
    (hparsed : (parseUserQuery policy query : Except _ (Query Value)) = .ok query)
    (hprepared : prepare (Query Value) policy catalog query =
      .ok ⟨query, [⟨"public", "users", "u", "table"⟩], [projection], masked⟩) :
    compile Value policy query catalog = .ok (compiled query projection masked) := by
  have hreparsed : (parseGeneratedQuery query : Except _ (Query Value)) = .ok query := rfl
  simp only [compile, hparsed, hprepared, sql, id, hreparsed, ok_bind, and_self, if_true]
  rfl

theorem fetchAll_one (email : Value) :
    fetchAll settings [] 10 1 (fun _ => none) 0 (⟨[], 64, false⟩ : Progress Cell) [[email]] =
      .ok ⟨[[.value email]], 72, false⟩ := by
  have hbatch : addBatch settings [] 10 1 (⟨[], 64, false⟩ : Progress Cell) [[email]] =
      .ok ⟨[[.value email]], 72, false⟩ := rfl
  rw [fetchAll]
  simp only [settings, List.length_nil, Nat.not_lt_zero, if_false, Nat.sub_zero] at hbatch ⊢
  simp only [show min 100 (10 + 1) = 11 from rfl, List.take_succ_cons, List.take_nil, hbatch]
  rw [fetchAll]
  rfl

end Sample

open Sample in
/-- The address of a user is masked, and the result does not depend on it. -/
theorem masked_email_isolated :
    recognisesQuery policy catalog [] [] [] (selectUsers [] "email") = true ∧
      Isolated Cell settings (fun _ => none) policy catalog
        (compiled (selectUsers [] "email")
          ⟨0, "email", true, some ⟨"public", "users", "email"⟩⟩ [0])
        (selectUsers [] "email") := by
  have hrecognised : recognisesQuery policy catalog [] [] [] (selectUsers [] "email") = true := rfl
  obtain ⟨query, hquery, hisolated⟩ := compiled_isolated (C := Cell) settings (fun _ => none)
    (compile_eq rfl rfl : compile Value policy (selectUsers [] "email") catalog = .ok (compiled _
      ⟨0, "email", true, some ⟨"public", "users", "email"⟩⟩ [0]))
  cases hquery
  exact ⟨hrecognised, hisolated hrecognised⟩

open Sample in
/-- Under another name the address is not recognised, and the result shows it. -/
theorem renamed_email_shown :
    compile Value policy (selectUsers ["a", "b"] "b") catalog =
        .ok (compiled (selectUsers ["a", "b"] "b") ⟨0, "b", false, none⟩ []) ∧
      ¬ Isolated Cell settings (fun _ => none) policy catalog
        (compiled (selectUsers ["a", "b"] "b") ⟨0, "b", false, none⟩ [])
        (selectUsers ["a", "b"] "b") := by
  refine ⟨compile_eq rfl rfl, fun h => ?_⟩
  have hsame := h.same _ _ (users_agree (some 7) (some 8))
  have hresult : ∀ email : Value, (executeCursor Value Cell settings (fun _ => none)
      (compiled (selectUsers ["a", "b"] "b") ⟨0, "b", false, none⟩ []) (users email)).map
      SqlQueryResult.rows = .ok [[.value email]] := by
    intro email
    have hexecute : executeCursor Value Cell settings (fun _ => none)
        (compiled (selectUsers ["a", "b"] "b") ⟨0, "b", false, none⟩ []) (users email) =
        (fetchAll settings [] 10 1 (fun _ => none) 0 (⟨[], 64, false⟩ : Progress Cell) [[email]] >>=
          fun progress => do
            failIf (settings.maxResultBytes < 64 + 16 * progress.rows.length) .resultLimitExceeded
            .ok ⟨["b"], progress.rows, progress.rows.length, progress.truncated,
              64 + 16 * progress.rows.length, 0, 11⟩) := rfl
    rw [hexecute, fetchAll_one]
    rfl
  have hrows := congrArg (Except.map SqlQueryResult.rows) hsame
  rw [hresult, hresult] at hrows
  exact absurd hrows (by decide)

end SuperMew.SqlAssistant
