import Mathlib.Data.List.Sort
import SuperMew.Core.Errors
import SuperMew.SqlAssistant.Scopes

/-! `SqlPolicyCompiler`: which queries the SQL assistant may run, and which columns of
their results it masks. -/

namespace SuperMew.SqlAssistant

open Sql

variable {V Text : Type}

inductive Statement (V : Type) where
  | query (query : Query V)
  | other

/-- The parser, the qualifier and the generator of the SQL library. Generated text parses
as the query that it was generated from. -/
class Sqlglot (V Text : Type) where
  blank : Text → Bool
  parse : Text → Option (List (Statement V))
  nodeCount : Query V → ℕ
  isFunction : String → Bool
  qualifyTables : String → Query V → Option (Query V)
  qualify : String → SqlCatalog → Query V → Option (Query V)
  sql : Query V → Text
  parse_sql : ∀ query, parse (sql query) = some [.query query]

structure CompiledSqlQuery (Text : Type) where
  normalizedSql : Text
  executableSql : Text
  relations : List SqlRelationReference
  projections : List SqlProjection
  maskedOrdinals : List ℕ
  maxRows : ℕ
  limitApplied : ℕ

structure PreparedQuery (V : Type) where
  expression : Query V
  relations : List SqlRelationReference
  projections : List SqlProjection
  maskedOrdinals : List ℕ

def deny {α : Type} (code : SqlPolicyCode) (message : String) : Except SqlPolicyError α :=
  .error ⟨code, message⟩

def denyIf (found : Bool) (code : SqlPolicyCode) (message : String) : Except SqlPolicyError Unit :=
  failIf (found = true) ⟨code, message⟩

/-! ## Columns -/

/-- `_column_source`: the table that a name of a source stands for, in the scope or else in
the nearest one around it that has the name. -/
def columnSource : List Sources → Option String → Option (String × String)
  | [], _ => none
  | sources :: outer, table =>
    match table.bind fun name => sources.lookup name with
    | some source => source
    | none => columnSource outer table

variable (policy : SqlPolicy) (catalog : SqlCatalog)

def catalogColumn (table : Option (String × String)) (name : String) :
    Option (SqlCatalogRelation × SqlCatalogColumn) := do
  let table ← table
  let relation ← catalog.relation table.1 table.2
  let column ← relation.column name
  pure (relation, column)

def isSensitiveUse (chain : List Sources) (column : ColumnUse) : Bool :=
  (catalogColumn catalog (columnSource chain column.table) column.name).any fun found =>
    policy.hidden found.1 found.2

/-! ## Checks -/

def validateStructure (Text : Type) [Sqlglot V Text] (policy : SqlPolicy) (query : Query V) :
    Except SqlPolicyError Unit := do
  denyIf (policy.maxAstNodes < Sqlglot.nodeCount Text query) .astLimitExceeded
    "SQL query exceeds the AST node limit"
  denyIf ((traverseScope [] [] query).any QueryScope.star) .wildcardDenied
    "Wildcard projections are not allowed"

/-- The reference to a table, if the catalog has it and the policy allows it. -/
def relationReference
    (entry : String × (String × String)) : Except SqlPolicyError SqlRelationReference :=
  if entry.2.1 = "" ∨ entry.2.2 = "" then
    deny .relationDenied "SQL relation is outside the allowed catalog"
  else
    match catalog.relation entry.2.1 entry.2.2 with
    | none => deny .relationDenied "SQL relation is outside the allowlist"
    | some relation =>
      if policy.allowsRelation entry.2.1 entry.2.2 then
        .ok ⟨entry.2.1, entry.2.2, entry.1, relation.kind⟩
      else deny .relationDenied "SQL relation is outside the allowlist"

def scopeTables (sources : Sources) : List (String × (String × String)) :=
  sources.filterMap fun entry => entry.2.map fun table => (entry.1, table)

def SqlRelationReference.before (a b : SqlRelationReference) : Bool :=
  a.schema < b.schema || a.schema = b.schema && (a.table < b.table || a.table = b.table &&
    a.label ≤ b.label)

def validateRelations (query : Query V) :
    Except SqlPolicyError (List SqlRelationReference) := do
  let tables := (traverseScope [] [] query).flatMap fun scope => scopeTables scope.sources
  let references ← tables.mapM (relationReference policy catalog)
  denyIf (policy.maxTables < references.length) .tableLimitExceeded
    "SQL query exceeds the relation limit"
  pure (references.insertionSort fun a b => a.before b = true)

def validateFunctions (Text : Type) [Sqlglot V Text] (policy : SqlPolicy) (query : Query V) :
    Except SqlPolicyError Unit :=
  denyIf (((traverseScope [] [] query).flatMap QueryScope.functions).any fun name =>
      Sqlglot.isFunction V Text name && !policy.allowedFunctions.contains name) .functionDenied
    "SQL function is outside the allowlist"

/-- `_validate_whole_row_references`: a name without a source that is the name of one, unless
it orders the result by the column of that name. -/
def validateWholeRowReferences (query : Query V) : Except SqlPolicyError Unit :=
  denyIf ((traverseScope [] [] query).any fun scope => scope.isSelect &&
      scope.columns.any fun column => column.table.isNone &&
        scope.sources.any (fun source => source.1 == column.name) &&
        !(scope.labels.contains column.name && column.site == .order)) .wildcardDenied
    "Whole-row relation references are not allowed"

/-! ## Sensitive columns -/

def labelAt (labels : List String) (ordinal : ℕ) : String :=
  match labels[ordinal]? with
  | some label => if label = "" then "_col_" ++ toString ordinal else label
  | none => "_col_" ++ toString ordinal

/-- A projection of the outermost `SELECT`: a column is a reference to the catalog. -/
def projectionOf (sources : Sources) (labels : List String) (entry : Expr V × ℕ) : SqlProjection :=
  let found := match entry.1 with
    | .column table name => catalogColumn catalog (columnSource [sources] table) name
    | _ => none
  { ordinal := entry.2
    label := labelAt labels entry.2
    sensitive := found.any fun column => policy.hidden column.1 column.2
    source := found.map fun column => ⟨column.1.schema, column.1.name, column.2.name⟩ }

def projectionsOf : Query V → List SqlProjection
  | .select withs _ projections labels sources _ _ _ _ _ =>
    projections.zipIdx.map
      (projectionOf policy catalog (scopeSources (cteNames [] withs) sources) labels)
  | query => query.labels.zipIdx.map fun entry => ⟨entry.2, labelAt query.labels entry.2, false, none⟩

def isSelect : Query V → Bool
  | .select .. => true
  | _ => false

def isDistinct : Query V → Bool
  | .select _ distinct .. => distinct
  | _ => false

/-- `_validate_natural_joins`. -/
def naturalJoinConsumes (scope : QueryScope) : Bool :=
  let relations := (scopeTables scope.sources).filterMap fun entry =>
    catalog.relation entry.2.1 entry.2.2
  let names := relations.flatMap fun relation => relation.columns.map SqlCatalogColumn.name
  scope.natural && relations.any fun relation => relation.columns.any fun column =>
    policy.hidden relation column && 1 < names.count column.name

/-- The scope has a sensitive column, other than those that `allowed` lets pass. -/
def usesSensitive (allowed : ColumnUse → Bool) (scope : QueryScope) : Bool :=
  scope.columns.any fun column =>
    isSensitiveUse policy catalog (scope.sources :: scope.parents) column && !allowed column

/-- `_validate_sensitive_columns`: the projections, and which of them are masked. The
outermost scope comes last, and its projections alone may be sensitive columns. -/
def validateSensitiveColumns (query : Query V) :
    Except SqlPolicyError (List SqlProjection × List ℕ) := do
  let scopes := traverseScope [] [] query
  let projections := projectionsOf policy catalog query
  let direct := fun column : ColumnUse => isSelect query && column.site.isProjection
  denyIf (scopes.dropLast.any (usesSensitive policy catalog fun _ => false) ||
      scopes.getLast?.any (usesSensitive policy catalog direct)) .sensitiveUsageDenied
    "Sensitive columns may only be direct top-level projections"
  let sensitive := projections.filter SqlProjection.sensitive
  let labels := sensitive.map SqlProjection.label
  denyIf (isSelect query && scopes.getLast?.any fun scope => scope.columns.any fun column =>
      column.table.isNone && labels.contains column.name) .sensitiveUsageDenied
    "Sensitive output aliases cannot affect query semantics"
  denyIf (!sensitive.isEmpty && isDistinct query) .sensitiveUsageDenied
    "Sensitive projections cannot use DISTINCT"
  denyIf (scopes.any (naturalJoinConsumes policy catalog)) .sensitiveUsageDenied
    "NATURAL JOIN cannot implicitly consume sensitive columns"
  pure (projections, sensitive.map SqlProjection.ordinal)

/-! ## Compilation -/

section Compilation

variable [Sqlglot V Text]

def parseUserQuery (query : Text) : Except SqlPolicyError (Query V) :=
  if Sqlglot.blank V query then deny .invalidSql "SQL query is empty"
  else
    match Sqlglot.parse query with
    | none => deny .invalidSql "SQL query could not be parsed"
    | some [] => deny .invalidSql "Exactly one SQL query is required"
    | some [.query expression] => do
        validateStructure Text policy expression
        pure expression
    | some [.other] => deny .statementNotAllowed "Only PostgreSQL query statements are allowed"
    | some _ => deny .multipleStatements "Exactly one SQL query is required"

def parseGeneratedQuery (query : Text) : Except SqlPolicyError (Query V) :=
  match Sqlglot.parse query with
  | none => deny .normalizationFailed "Generated SQL could not be parsed"
  | some [.query expression] => .ok expression
  | some _ => deny .normalizationFailed "Generated SQL was not one query"

def prepare (Text : Type) [Sqlglot V Text] (policy : SqlPolicy) (catalog : SqlCatalog)
    (expression : Query V) : Except SqlPolicyError (PreparedQuery V) := do
  validateStructure Text policy expression
  match Sqlglot.qualifyTables Text policy.defaultSchema expression with
  | none => deny .invalidSql "SQL table references could not be normalized"
  | some normalized => do
      let _ ← validateRelations policy catalog normalized
      match Sqlglot.qualify Text policy.defaultSchema catalog normalized with
      | none => deny .columnDenied "SQL columns are unknown or ambiguous"
      | some qualified => do
          validateStructure Text policy qualified
          let relations ← validateRelations policy catalog qualified
          validateWholeRowReferences qualified
          validateFunctions Text policy qualified
          let (projections, masked) ← validateSensitiveColumns policy catalog qualified
          pure ⟨qualified, relations, projections, masked⟩

def resultLabel : String := "_supermew_sql_result"

/-- `compile`. The query is prepared twice, and has to come out the same. -/
def compile (V : Type) [Sqlglot V Text] [DecidableEq Text] (policy : SqlPolicy) (query : Text)
    (catalog : SqlCatalog) : Except SqlPolicyError (CompiledSqlQuery Text) := do
  let parsed : Query V ← parseUserQuery policy query
  let first ← prepare Text policy catalog parsed
  let normalizedSql : Text := Sqlglot.sql first.expression
  let reparsed : Query V ← parseGeneratedQuery normalizedSql
  let second ← prepare Text policy catalog reparsed
  let regeneratedSql : Text := Sqlglot.sql second.expression
  if regeneratedSql = normalizedSql ∧ (first.relations, first.projections, first.maskedOrdinals) =
      (second.relations, second.projections, second.maskedOrdinals) then
    let limitApplied := policy.maxRows + 1
    let executable : Query V := .everything second.expression resultLabel limitApplied
    let executableSql : Text := Sqlglot.sql executable
    let _ : Query V ← parseGeneratedQuery executableSql
    pure ⟨normalizedSql, executableSql, second.relations, second.projections,
      second.maskedOrdinals, policy.maxRows, limitApplied⟩
  else deny .normalizationFailed "SQL normalization was not idempotent"

end Compilation

end SuperMew.SqlAssistant
