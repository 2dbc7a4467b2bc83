import Mathlib.Data.List.Basic

/-! The `SELECT` fragment of SQL: expressions, joins, subqueries, common table expressions
and set operations. -/

namespace Sql

inductive Side where
  | inner
  | left
  | right
  | full
  deriving DecidableEq, Repr

inductive SetKind where
  | union
  | intersect
  | except
  deriving DecidableEq, Repr

/-- How an expression uses a subquery: as a value, under `EXISTS`, or compared with it
(`IN`, `= ANY`, `< ALL`). -/
inductive Use where
  | value
  | nonempty
  | compare (operator : String)
  deriving DecidableEq, Repr

inductive Direction where
  | ascending
  | descending
  deriving DecidableEq, Repr

/-- The directions of the keys of `ORDER BY`, `OFFSET` and `LIMIT`. -/
structure Tail where
  directions : List Direction
  offset : ℕ
  limit : Option ℕ
  deriving DecidableEq, Repr

def Tail.plain : Tail := ⟨[], 0, none⟩

mutual

/-- Expressions. `count(*)` is the aggregate without arguments. -/
inductive Expr (V : Type) where
  | column (table : Option String) (name : String)
  | literal (value : V)
  | call (function : String) (args : List (Expr V))
  | aggregate (function : String) (args : List (Expr V))
  | nested (use : Use) (args : List (Expr V)) (query : Query V)

/-- Items of `FROM`, with the list of column aliases, as in `FROM t AS a (x, y)`. A table
without a schema (`""`) may be a common table expression. -/
inductive Source (V : Type) where
  | table (schema name label : String) (columns : List String)
  | derived (query : Query V) (label : String) (columns : List String)

/-- A source and how it is joined with those before it: `shared` is the list of `USING`,
and `on` is empty if there is no condition. The first item of `FROM` is joined with
nothing. -/
inductive Join (V : Type) where
  | mk (side : Side) (natural : Bool) (shared : List String) (source : Source V)
      (on : List (Expr V))

inductive Cte (V : Type) where
  | mk (name : String) (columns : List String) (query : Query V)

/-- Queries. A set operation is ordered by names of its columns. `everything` is `SELECT * FROM (query) AS label LIMIT limit`. -/
inductive Query (V : Type) where
  | select (ctes : List (Cte V)) (distinct : Bool) (projections : List (Expr V))
      (labels : List String) (sources : List (Join V)) (filter : List (Expr V))
      (groups : List (Expr V)) (having : List (Expr V)) (order : List (Expr V)) (tail : Tail)
  | combine (ctes : List (Cte V)) (kind : SetKind) (all : Bool) (left right : Query V)
      (order : List String) (tail : Tail)
  | everything (query : Query V) (label : String) (limit : ℕ)

end

variable {V : Type}

/-- The names of the columns that a query returns. -/
def Query.labels : Query V → List String
  | .select _ _ _ labels _ _ _ _ _ _ => labels
  | .combine _ _ _ left _ _ _ => left.labels
  | .everything query _ _ => query.labels

def Source.label : Source V → String
  | .table _ _ label _ => label
  | .derived _ label _ => label

def Join.source : Join V → Source V
  | .mk _ _ _ source _ => source

mutual

/-- The expression has an aggregate of the query that it stands in. -/
def Expr.aggregates : Expr V → Bool
  | .column .. => false
  | .literal _ => false
  | .call _ args => aggregatesAny args
  | .aggregate .. => true
  | .nested _ args _ => aggregatesAny args

def aggregatesAny : List (Expr V) → Bool
  | [] => false
  | e :: rest => e.aggregates || aggregatesAny rest

end

/-- A key of `ORDER BY` that may be the name of a column of the result. -/
def Expr.label? : Expr V → Option String
  | .column none name => if name = "" then none else some name
  | _ => none

end Sql
