import Mathlib.Data.List.Sort
import SuperMew.Library.Sql.Syntax

/-! What queries return, over the functions and the order of an engine. -/

namespace Sql

inductive SqlError where
  | undefinedTable
  | undefinedColumn
  | ambiguousColumn
  | duplicateLabel
  | columnCount
  | engine (message : String)
  deriving DecidableEq, Repr

/-- The values of an engine, and what its functions and comparisons do with them. -/
class Engine (V : Type) where
  null : V
  isNull : V → Bool
  holds : V → Bool
  equal : V → V → Bool
  same : List V → List V → Bool
  before : List Direction → List V → List V → Bool
  call : String → List V → Except SqlError V
  aggregate : String → List (List V) → Except SqlError V
  nested : Use → List V → List (List V) → Except SqlError V

structure Relation (V : Type) where
  columns : List String
  rows : List (List V)

abbrev Database (V : Type) := String → String → Option (Relation V)

/-- The sources that a query names, from the last one to the first, with their columns,
and the columns that its joins have merged. -/
structure Scope where
  sources : List (String × List String)
  merged : List String

/-- A joined row has one row of each source, from the last one to the first. A query is
evaluated at a group of them. -/
structure Frame (V : Type) where
  scope : Scope
  rows : List (List (List V))

/-- The frames of a query and of those around it, from the inside out. -/
abbrev Env (V : Type) := List (Frame V)

/-! ## Names -/

def Scope.empty : Scope := ⟨[], []⟩

/-- One row of no sources. -/
def Frame.start {V : Type} : Frame V := ⟨.empty, [[]]⟩

variable (scope : Scope)

/-- The places of a name, in the source with the label or in all of them. -/
def Scope.places (table : Option String) (name : String) : List (ℕ × ℕ) :=
  scope.sources.zipIdx.reverse.flatMap fun entry =>
    if table.all (· == entry.1.1) then
      (entry.1.2.zipIdx.filter fun column => column.1 == name).map fun column =>
        (entry.2, column.2)
    else []

/-- The reference is to a source of this query, not of one around it. -/
def Scope.answers (table : Option String) (name : String) : Bool :=
  match table with
  | some label => scope.sources.any fun source => source.1 == label
  | none => !(scope.places none name).isEmpty

/-- A reference has one place, or those of a column that the joins have merged. -/
def Scope.resolve (table : Option String) (name : String) :
    Except SqlError (List (ℕ × ℕ)) :=
  match scope.places table name with
  | [] => .error .undefinedColumn
  | [place] => .ok [place]
  | places => if table.isNone && scope.merged.contains name then .ok places
      else .error .ambiguousColumn

def Scope.add (label : String) (columns keys : List String) : Scope :=
  ⟨(label, columns) :: scope.sources, keys ++ scope.merged⟩

/-- The names that a join compares, in the order of the columns of the right side. -/
def Scope.keys (columns : List String) (natural : Bool) (shared : List String) :
    List String :=
  if natural then columns.filter fun name => !(scope.places none name).isEmpty else shared

/-- The columns of a source under its column aliases, which rename the first columns. -/
def rename (aliases columns : List String) : Option (List String) :=
  if aliases.length ≤ columns.length then some (aliases ++ columns.drop aliases.length) else none

variable {V : Type}

def Source.columns (tables : String → String → Option (List String))
    (ctes : List (String × List String)) : Source V → Option (List String)
  | .table schema name _ aliases =>
    ((if schema = "" then ctes.lookup name else tables schema name)).bind (rename aliases)
  | .derived query _ aliases => rename aliases query.labels

/-! ## Cells -/

section Cells

variable [Engine V]

def blankRow (columns : List String) : List V := List.replicate columns.length Engine.null

def cell (row : List (List V)) (place : ℕ × ℕ) : V :=
  ((row[place.1]?.getD [])[place.2]?).getD Engine.null

def coalesce : List V → V
  | [] => Engine.null
  | [v] => v
  | v :: rest => if Engine.isNull v then coalesce rest else v

def pick (row : List (List V)) (places : List (ℕ × ℕ)) : V := coalesce (places.map (cell row))

def Env.lookup : Env V → Option String → String → Except SqlError V
  | [], _, _ => .error .undefinedColumn
  | frame :: outer, table, name =>
    if frame.scope.answers table name then
      (frame.scope.resolve table name).map (pick (frame.rows.headD []))
    else Env.lookup outer table name

end Cells

/-! ## Rows -/

/-- The rows for which a test holds. -/
def keep {α ε : Type} (test : α → Except ε Bool) : List α → Except ε (List α)
  | [] => .ok []
  | a :: rest => do
      let taken ← test a
      let rest ← keep test rest
      pure (if taken then a :: rest else rest)

/-- The joined rows, from the pairs that match. An outer join fills the missing side with
nulls. -/
def joined (side : Side) (nulls : List (List V)) (blank : List V) (left : List (List (List V)))
    (right : List (List V)) (found : List (List Bool)) : List (List (List V)) :=
  let pairs := (left.zip found).flatMap fun l =>
    let matched := ((right.zip l.2).filter fun r => r.2).map fun r => r.1 :: l.1
    if (side = .left ∨ side = .full) ∧ matched.isEmpty = true then [blank :: l.1] else matched
  let missing := (right.zipIdx.filter fun r => found.all fun l => !(l[r.2]?.getD false)).map
    fun r => r.1 :: nulls
  pairs ++ if side = .right ∨ side = .full then missing else []

def insertGroup {α : Type} (same : List V → List V → Bool) (key : List V) (row : α) :
    List (List V × List α) → List (List V × List α)
  | [] => [(key, [row])]
  | (k, group) :: rest =>
    if same k key then (k, group ++ [row]) :: rest
    else (k, group) :: insertGroup same key row rest

/-- The groups, in the order in which their keys appear. -/
def groupRows {α : Type} (same : List V → List V → Bool) (keyed : List (List V × α)) :
    List (List α) :=
  (keyed.foldl (fun groups row => insertGroup same row.1 row.2 groups) []).map Prod.snd

/-- The first of the entries that are the same. -/
def firsts {α : Type} (same : α → α → Bool) (entries : List α) : List α :=
  entries.foldl (fun found entry => if found.any (same · entry) then found else found ++ [entry]) []

def Tail.cut {α : Type} (tail : Tail) (rows : List α) : List α :=
  match tail.limit with
  | none => rows.drop tail.offset
  | some n => (rows.drop tail.offset).take n

section Queries

variable [Engine V]

def sortRows (directions : List Direction) (entries : List (List V × List V)) :
    List (List V × List V) :=
  entries.insertionSort fun a b => Engine.before directions a.2 b.2 = true

/-- A `SELECT` after its `FROM`. -/
def runSelect (aggregated distinct : Bool) (tail : Tail)
    (filter : List (List V) → Except SqlError Bool) (key : List (List V) → Except SqlError (List V))
    (whole : Bool) (having : List (List (List V)) → Except SqlError Bool)
    (project : List (List (List V)) → Except SqlError (List V × List V))
    (rows : List (List (List V))) : Except SqlError (List (List V)) := do
  let rows ← keep filter rows
  let keys ← rows.mapM key
  let groups := if whole then [rows] else if aggregated then groupRows Engine.same (keys.zip rows)
    else rows.map fun row => [row]
  let groups ← keep having groups
  let entries ← groups.mapM project
  let entries := if distinct then firsts (fun a b => Engine.same a.1 b.1) entries else entries
  pure (tail.cut ((sortRows tail.directions entries).map Prod.fst))

/-- `INTERSECT ALL` and `EXCEPT ALL` count the rows of the right side. -/
def countOff (kind : SetKind) : List (List V) → List (List V) → List (List V)
  | [], _ => []
  | row :: rest, right =>
    match right.findIdx? (Engine.same row) with
    | some i =>
      let others := countOff kind rest (right.eraseIdx i)
      if kind = .intersect then row :: others else others
    | none =>
      let others := countOff kind rest right
      if kind = .except then row :: others else others

def combineRows (kind : SetKind) (all : Bool) (left right : List (List V)) : List (List V) :=
  match kind, all with
  | .union, true => left ++ right
  | .union, false => firsts Engine.same (left ++ right)
  | kind, true => countOff kind left right
  | .intersect, false => (firsts Engine.same left).filter fun row => right.any (Engine.same row)
  | .except, false => (firsts Engine.same left).filter fun row => !right.any (Engine.same row)

def namedKeys (labels order : List String) (row : List V) : Except SqlError (List V) :=
  order.mapM fun name =>
    match labels.findIdx? (· == name) with
    | some i => .ok (row[i]?.getD Engine.null)
    | none => .error .undefinedColumn

/-- A column that a join compares: where it is on the left, and on the right. -/
def joinKey (columns : List String) (name : String) :
    Except SqlError (List (ℕ × ℕ) × ℕ) := do
  let left ← scope.resolve none name
  match columns.zipIdx.filter fun column => column.1 == name with
  | [] => .error .undefinedColumn
  | [column] => pure (left, column.2)
  | _ => .error .ambiguousColumn

def matchKeys (keys : List (List (ℕ × ℕ) × ℕ)) (left : List (List V)) (right : List V) : Bool :=
  keys.all fun key => Engine.equal (pick left key.1) (right[key.2]?.getD Engine.null)

/-- Which rows of the two sides match: those with equal keys at which the condition holds. -/
def matchRows (keys : List (List (ℕ × ℕ) × ℕ))
    (condition : List (List V) → List V → Except SqlError (List V)) (left : List (List (List V)))
    (right : List (List V)) : Except SqlError (List (List Bool)) :=
  left.mapM fun l => right.mapM fun r =>
    if matchKeys keys l r then (condition l r).map (·.all Engine.holds) else .ok false

def orRaise {α : Type} (error : SqlError) : Option α → Except SqlError α
  | some a => .ok a
  | none => .error error

def tablesOf (db : Database V) (schema name : String) : Option (List String) :=
  (db schema name).map Relation.columns

def columnsOf (ctes : List (String × Relation V)) : List (String × List String) :=
  ctes.map fun cte => (cte.1, cte.2.columns)

/-- The value of a key of `ORDER BY`: a column of the result, or else an expression. -/
def orderKey (labels : List String) (row : List V) (e : Expr V) (value : Except SqlError V) :
    Except SqlError V :=
  match e.label?.bind fun name => labels.findIdx? (· == name) with
  | some i => .ok (row[i]?.getD Engine.null)
  | none => value

/-! ## Queries -/

mutual

def Expr.eval (db : Database V) (ctes : List (String × Relation V)) (env : Env V) :
    Expr V → Except SqlError V
  | .column table name => env.lookup table name
  | .literal value => .ok value
  | .call function args => do Engine.call function (← evalAll db ctes env args)
  | .aggregate function args =>
    match env with
    | [] => .error .undefinedColumn
    | frame :: outer => do
        -- one row of the group at a time
        let rows ← frame.rows.mapM fun row => evalAll db ctes (⟨frame.scope, [row]⟩ :: outer) args
        Engine.aggregate function rows
  | .nested use args query => do
      let values ← evalAll db ctes env args
      Engine.nested use values (← query.rows db ctes env)

def evalAll (db : Database V) (ctes : List (String × Relation V)) (env : Env V) :
    List (Expr V) → Except SqlError (List V)
  | [] => .ok []
  | e :: rest => do
      let value ← e.eval db ctes env
      let values ← evalAll db ctes env rest
      pure (value :: values)

def evalOrder (db : Database V) (ctes : List (String × Relation V)) (env : Env V)
    (labels : List String) (row : List V) : List (Expr V) → Except SqlError (List V)
  | [] => .ok []
  | e :: rest => do
      let value ← orderKey labels row e (e.eval db ctes env)
      let values ← evalOrder db ctes env labels row rest
      pure (value :: values)

def Source.rows (db : Database V) (ctes : List (String × Relation V)) (env : Env V) :
    Source V → Except SqlError (List (List V))
  | .table schema name _ _ =>
    orRaise .undefinedTable
      ((if schema = "" then ctes.lookup name else db schema name).map Relation.rows)
  | .derived query _ _ => query.rows db ctes env

/-- Join a source with the rows before it. A subquery in `FROM` does not see them. -/
def Join.rows (db : Database V) (ctes : List (String × Relation V)) (env : Env V)
    (before : Frame V) : Join V → Except SqlError (Frame V)
  | .mk side natural shared source on => do
      let columns ← orRaise .undefinedTable (source.columns (tablesOf db) (columnsOf ctes))
      if before.scope.sources.any (·.1 == source.label) then throw .duplicateLabel
      let right ← source.rows db ctes env
      let names := before.scope.keys columns natural shared
      let keys ← names.mapM (joinKey before.scope columns)
      let scope := before.scope.add source.label columns names
      let found ← matchRows keys (fun l r => evalAll db ctes (⟨scope, [r :: l]⟩ :: env) on)
        before.rows right
      let nulls := before.scope.sources.map fun source => blankRow source.2
      pure ⟨scope, joined side nulls (blankRow columns) before.rows right found⟩

def joinAll (db : Database V) (ctes : List (String × Relation V)) (env : Env V)
    (before : Frame V) : List (Join V) → Except SqlError (Frame V)
  | [] => .ok before
  | join :: rest => do joinAll db ctes env (← join.rows db ctes env before) rest

def withAll (db : Database V) (ctes : List (String × Relation V)) (env : Env V) :
    List (Cte V) → Except SqlError (List (String × Relation V))
  | [] => .ok ctes
  | .mk name aliases query :: rest => do
      let columns ← orRaise .columnCount (rename aliases query.labels)
      let rows ← query.rows db ctes env
      withAll db ((name, ⟨columns, rows⟩) :: ctes) env rest

def Query.rows (db : Database V) (ctes : List (String × Relation V)) (env : Env V) :
    Query V → Except SqlError (List (List V))
  | .select withs distinct projections labels sources filter groups having order tail => do
      let ctes ← withAll db ctes env withs
      let frame ← joinAll db ctes env .start sources
      let aggregated := aggregatesAny projections || aggregatesAny having || aggregatesAny order
      runSelect (!groups.isEmpty || !having.isEmpty || aggregated) distinct tail
        (fun row => (evalAll db ctes (⟨frame.scope, [row]⟩ :: env) filter).map
          (·.all Engine.holds))
        (fun row => evalAll db ctes (⟨frame.scope, [row]⟩ :: env) groups)
        (groups.isEmpty && (!having.isEmpty || aggregated))
        (fun group => (evalAll db ctes (⟨frame.scope, group⟩ :: env) having).map
          (·.all Engine.holds))
        (fun group => do
          let row ← evalAll db ctes (⟨frame.scope, group⟩ :: env) projections
          let keys ← evalOrder db ctes (⟨frame.scope, group⟩ :: env) labels row order
          pure (row, keys))
        frame.rows
  | .combine withs kind all left right order tail => do
      let ctes ← withAll db ctes env withs
      let leftRows ← left.rows db ctes env
      let rightRows ← right.rows db ctes env
      if left.labels.length ≠ right.labels.length then throw .columnCount
      let rows := combineRows kind all leftRows rightRows
      let keys ← rows.mapM (namedKeys left.labels order)
      pure (tail.cut ((sortRows tail.directions (rows.zip keys)).map Prod.fst))
  | .everything query _ limit => do
      let rows ← query.rows db ctes env
      pure (rows.take limit)

end

end Queries

end Sql
