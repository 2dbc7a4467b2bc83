import SuperMew.Library.Sql.Syntax

/-! The contracts of the SQL assistant, and the scopes of a query as its policy sees them. -/

namespace SuperMew.SqlAssistant

open Sql

/-! ## Contracts -/

structure SqlCatalogColumn where
  name : String
  sensitive : Bool
  deriving DecidableEq, Repr

structure SqlCatalogRelation where
  schema : String
  name : String
  columns : List SqlCatalogColumn
  kind : String
  unique : (columns.map SqlCatalogColumn.name).Nodup

structure SqlCatalog where
  relations : List SqlCatalogRelation
  unique : (relations.map fun r => (r.schema, r.name)).Nodup

def SqlCatalogRelation.column (relation : SqlCatalogRelation) (name : String) :
    Option SqlCatalogColumn :=
  relation.columns.find? fun column => column.name == name

def SqlCatalog.relation (catalog : SqlCatalog) (schema table : String) :
    Option SqlCatalogRelation :=
  catalog.relations.find? fun r => r.schema == schema && r.name == table

structure SqlPolicy where
  defaultSchema : String
  allowedSchemas : List String
  allowedTables : List String
  allowedFunctions : List String
  sensitiveColumns : List String
  maxRows : ℕ
  maxTables : ℕ
  maxAstNodes : ℕ
  rows : 1 ≤ maxRows ∧ maxRows ≤ 1000000
  tables : 1 ≤ maxTables ∧ maxTables ≤ 1000
  nodes : 1 ≤ maxAstNodes ∧ maxAstNodes ≤ 1000000

namespace SqlPolicy

variable (policy : SqlPolicy)

def allowsRelation (schema table : String) : Bool :=
  policy.allowedSchemas.contains schema &&
    (policy.allowedTables.contains (schema ++ "." ++ table) ||
      policy.allowedTables.contains (schema ++ ".*"))

def isSensitive (schema table column : String) : Bool :=
  policy.sensitiveColumns.contains (schema ++ "." ++ table ++ "." ++ column)

/-- Sensitive by the catalog or by the policy. -/
def hidden (relation : SqlCatalogRelation) (column : SqlCatalogColumn) : Bool :=
  column.sensitive || policy.isSensitive relation.schema relation.name column.name

end SqlPolicy

inductive SqlPolicyCode where
  | invalidSql
  | multipleStatements
  | statementNotAllowed
  | astLimitExceeded
  | tableLimitExceeded
  | relationDenied
  | functionDenied
  | wildcardDenied
  | columnDenied
  | sensitiveUsageDenied
  | normalizationFailed
  deriving DecidableEq, Repr

structure SqlPolicyError where
  code : SqlPolicyCode
  message : String
  deriving DecidableEq, Repr

structure SqlColumnReference where
  schema : String
  table : String
  column : String
  deriving DecidableEq, Repr

structure SqlRelationReference where
  schema : String
  table : String
  label : String
  kind : String
  deriving DecidableEq, Repr

structure SqlProjection where
  ordinal : ℕ
  label : String
  sensitive : Bool
  source : Option SqlColumnReference
  deriving DecidableEq, Repr

/-! ## Scopes -/

/-- The sources of a scope by their names: a table, or (`none`) the scope of a subquery or
of a common table expression. -/
abbrev Sources := List (String × Option (String × String))

/-- Where a column stands: a projection of its own, a key of `ORDER BY`, or elsewhere. -/
inductive Site where
  | projection (ordinal : ℕ)
  | order
  | inner
  deriving DecidableEq, Repr

def Site.isProjection : Site → Bool
  | .projection _ => true
  | _ => false

structure ColumnUse where
  table : Option String
  name : String
  site : Site
  deriving DecidableEq, Repr

/-- A scope of the query, with the sources of the scopes around it, from the inside out. -/
structure QueryScope where
  sources : Sources
  parents : List Sources
  isSelect : Bool
  star : Bool
  natural : Bool
  labels : List String
  columns : List ColumnUse
  functions : List String
  deriving DecidableEq, Repr

/-- What a part of a scope refers to, and the scopes inside it. -/
structure Survey where
  columns : List ColumnUse
  functions : List String
  scopes : List QueryScope

def Survey.empty : Survey := ⟨[], [], []⟩

def Survey.append (a b : Survey) : Survey :=
  ⟨a.columns ++ b.columns, a.functions ++ b.functions, a.scopes ++ b.scopes⟩

variable {V : Type}

/-- The source under its name. A name without a schema may be one of the expressions. -/
def sourceEntry (ctes : List String) : Source V → String × Option (String × String)
  | .table schema name label _ =>
    (label, if schema = "" ∧ name ∈ ctes then none else some (schema, name))
  | .derived _ label _ => (label, none)

def cteNames (ctes : List String) (withs : List (Cte V)) : List String :=
  withs.foldl (fun names cte => match cte with | .mk name _ _ => name :: names) ctes

def scopeSources (ctes : List String) (joins : List (Join V)) : Sources :=
  joins.map (fun join => sourceEntry ctes join.source) ++ ctes.map fun name => (name, none)

def isNatural : Join V → Bool
  | .mk _ natural _ _ _ => natural

/-- A projection that is a column is a use of that column at its own place. -/
def projectionSite (ordinal : ℕ) : Expr V → Site
  | .column .. => .projection ordinal
  | _ => .inner

mutual

/-- The columns and functions of an expression, and the scopes of its subqueries. -/
def surveyOne (ctes : List String) (chain : List Sources) (site : Site) : Expr V → Survey
  | .column table name => ⟨[⟨table, name, site⟩], [], []⟩
  | .literal _ => .empty
  | .call function args => Survey.append ⟨[], [function], []⟩ (surveyAll ctes chain site args)
  | .aggregate function args => Survey.append ⟨[], [function], []⟩ (surveyAll ctes chain site args)
  | .nested _ args query =>
    Survey.append (surveyAll ctes chain site args) ⟨[], [], traverseScope ctes chain query⟩

def surveyAll (ctes : List String) (chain : List Sources) (site : Site) : List (Expr V) → Survey
  | [] => .empty
  | e :: rest => Survey.append (surveyOne ctes chain site e) (surveyAll ctes chain site rest)

def surveyProjections (ctes : List String) (chain : List Sources) (ordinal : ℕ) :
    List (Expr V) → Survey
  | [] => .empty
  | e :: rest =>
    Survey.append (surveyOne ctes chain (projectionSite ordinal e) e)
      (surveyProjections ctes chain (ordinal + 1) rest)

def sourceScopes (ctes : List String) (chain : List Sources) : Source V → List QueryScope
  | .table .. => []
  | .derived query _ _ => traverseScope ctes chain query

def surveyJoins (ctes : List String) (chain : List Sources) : List (Join V) → Survey
  | [] => .empty
  | .mk _ _ _ source on :: rest =>
    Survey.append ⟨[], [], sourceScopes ctes chain source⟩
      (Survey.append (surveyAll ctes chain .inner on) (surveyJoins ctes chain rest))

def withScopes (ctes : List String) (chain : List Sources) : List (Cte V) → List QueryScope
  | [] => []
  | .mk name _ query :: rest =>
    traverseScope ctes chain query ++ withScopes (name :: ctes) chain rest

/-- `traverse_scope`: the scopes of a query, the inner ones first. -/
def traverseScope (ctes : List String) (parents : List Sources) : Query V → List QueryScope
  | .select withs _ projections labels sources filter groups having order _ =>
    let names := cteNames ctes withs
    let own := scopeSources names sources
    let inside := own :: parents
    let survey := Survey.append (surveyJoins names inside sources)
      (Survey.append (surveyProjections names inside 0 projections)
        (Survey.append (surveyAll names inside .inner filter)
          (Survey.append (surveyAll names inside .inner groups)
            (Survey.append (surveyAll names inside .inner having)
              (surveyAll names inside .order order)))))
    withScopes ctes inside withs ++ survey.scopes ++
      [⟨own, parents, true, false, sources.any isNatural, labels, survey.columns,
        survey.functions⟩]
  | .combine withs _ _ left right order _ =>
    let names := cteNames ctes withs
    let own : Sources := names.map fun name => (name, none)
    withScopes ctes (own :: parents) withs ++ traverseScope names (own :: parents) left ++
      traverseScope names (own :: parents) right ++
      [⟨own, parents, false, false, false, left.labels,
        order.map fun name => ⟨none, name, .order⟩, []⟩]
  | .everything query label _ =>
    traverseScope ctes ([(label, none)] :: parents) query ++
      [⟨[(label, none)], parents, true, true, false, query.labels, [], []⟩]

end

end SuperMew.SqlAssistant
