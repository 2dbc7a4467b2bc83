import SuperMew.Library.Sql.Erasure

/-! Queries that refer to no hidden column, by the scoping rules of SQL. -/

namespace Sql

/-- The tables that may be read, with their columns and which of these are hidden. -/
abbrev View := String → String → Option (List (String × Bool))

def View.tables (view : View) (schema name : String) : Option (List String) :=
  (view schema name).map (List.map Prod.fst)

/-- The sources of a query, and which of their cells are hidden. -/
structure Level where
  scope : Scope
  hidden : List (List Bool)

def Level.empty : Level := ⟨.empty, []⟩

/-- The reference is to a hidden column. -/
def hides : List Level → Option String → String → Bool
  | [], _, _ => false
  | level :: outer, table, name =>
    if level.scope.answers table name then
      match level.scope.resolve table name with
      | .ok places => places.any (hiddenAt level.hidden)
      | .error _ => false
    else hides outer table name

variable {V : Type}

/-! ## Levels -/

def Source.flags (view : View) : Source V → List Bool
  | .table schema name _ _ =>
    if schema = "" then [] else ((view schema name).getD []).map Prod.snd
  | .derived .. => []

def Join.level (view : View) (ctes : List (String × List String)) (before : Level) :
    Join V → Option Level
  | .mk _ natural shared source _ =>
    (source.columns view.tables ctes).map fun columns =>
      ⟨before.scope.add source.label columns (before.scope.keys columns natural shared),
        source.flags view :: before.hidden⟩

def levelOf (view : View) (ctes : List (String × List String)) (before : Level) :
    List (Join V) → Option Level
  | [] => some before
  | join :: rest => (join.level view ctes before).bind fun level => levelOf view ctes level rest

def withColumns (ctes : List (String × List String)) : List (Cte V) → List (String × List String)
  | [] => ctes
  | .mk name aliases query :: rest =>
    withColumns ((name, (rename aliases query.labels).getD []) :: ctes) rest

/-- No column that the join compares by its name is hidden. -/
def clearKeys (before : Level) (flags : List Bool) (columns names : List String) : Bool :=
  names.all fun name =>
    (match before.scope.resolve none name with
      | .ok places => !places.any (hiddenAt before.hidden)
      | .error _ => true) &&
    (columns.zipIdx.filter fun column => column.1 == name).all fun column =>
      !(flags[column.2]?.getD false)

/-! ## Clear queries -/

mutual

def Expr.clear (view : View) (ctes : List (String × List String)) (levels : List Level) :
    Expr V → Bool
  | .column table name => !hides levels table name
  | .literal _ => true
  | .call _ args => clearAll view ctes levels args
  | .aggregate _ args => clearAll view ctes levels args
  | .nested _ args query => clearAll view ctes levels args && query.clear view ctes levels

def clearAll (view : View) (ctes : List (String × List String)) (levels : List Level) :
    List (Expr V) → Bool
  | [] => true
  | e :: rest => e.clear view ctes levels && clearAll view ctes levels rest

/-- Keys of `ORDER BY` that are no columns of the result. -/
def clearOrder (view : View) (ctes : List (String × List String)) (levels : List Level)
    (labels : List String) : List (Expr V) → Bool
  | [] => true
  | e :: rest =>
    (e.label?.any labels.contains || e.clear view ctes levels) &&
      clearOrder view ctes levels labels rest

def Source.clear (view : View) (ctes : List (String × List String)) (levels : List Level) :
    Source V → Bool
  | .table schema name _ _ => schema = "" || (view schema name).isSome
  | .derived query _ _ => query.clear view ctes levels

def Join.clear (view : View) (ctes : List (String × List String)) (levels : List Level)
    (before : Level) : Join V → Bool
  | .mk _ natural shared source on =>
    source.clear view ctes levels &&
      match source.columns view.tables ctes with
      | none => true
      | some columns =>
        let names := before.scope.keys columns natural shared
        let flags := source.flags view
        clearKeys before flags columns names &&
          clearAll view ctes
            (⟨before.scope.add source.label columns names, flags :: before.hidden⟩ :: levels) on

def clearJoins (view : View) (ctes : List (String × List String)) (levels : List Level)
    (before : Level) : List (Join V) → Bool
  | [] => true
  | join :: rest =>
    join.clear view ctes levels before &&
      match join.level view ctes before with
      | none => true
      | some level => clearJoins view ctes levels level rest

def clearWiths (view : View) (ctes : List (String × List String)) (levels : List Level) :
    List (Cte V) → Bool
  | [] => true
  | .mk name aliases query :: rest =>
    query.clear view ctes levels &&
      clearWiths view ((name, (rename aliases query.labels).getD []) :: ctes) levels rest

def Query.clear (view : View) (ctes : List (String × List String)) (levels : List Level) :
    Query V → Bool
  | .select withs _ projections labels sources filter groups having order _ =>
    clearWiths view ctes levels withs &&
      clearJoins view (withColumns ctes withs) levels .empty sources &&
      match levelOf view (withColumns ctes withs) .empty sources with
      | none => true
      | some level =>
        clearAll view (withColumns ctes withs) (level :: levels) projections &&
          clearAll view (withColumns ctes withs) (level :: levels) filter &&
          clearAll view (withColumns ctes withs) (level :: levels) groups &&
          clearAll view (withColumns ctes withs) (level :: levels) having &&
          clearOrder view (withColumns ctes withs) (level :: levels) labels order
  | .combine withs _ _ left right _ _ =>
    clearWiths view ctes levels withs && left.clear view (withColumns ctes withs) levels &&
      right.clear view (withColumns ctes withs) levels
  | .everything query _ _ => query.clear view ctes levels

end

/-! ## Erased databases -/

/-- The database has the tables of the view, with their columns. -/
def Conforms (view : View) (db : Database V) : Prop :=
  ∀ schema name columns, view schema name = some columns →
    ∃ rows, db schema name = some ⟨columns.map Prod.fst, rows⟩

/-- The environment has the sources of the levels. -/
def Fits (levels : List Level) (env : Env V) : Prop :=
  env.map Frame.scope = levels.map Level.scope

section Erased

variable [Engine V]

def eraseDatabase (view : View) (db : Database V) : Database V := fun schema name =>
  (view schema name).bind fun columns =>
    (db schema name).map fun table =>
      ⟨table.columns, table.rows.map (eraseRow (columns.map Prod.snd))⟩

def Frame.erase (hidden : List (List Bool)) (frame : Frame V) : Frame V :=
  ⟨frame.scope, frame.rows.map (eraseJoined hidden)⟩

def eraseEnv : List Level → Env V → Env V
  | level :: levels, frame :: env => frame.erase level.hidden :: eraseEnv levels env
  | [], env => env
  | _ :: _, [] => []

theorem headD_map_erase (hidden : List (List Bool)) (rows : List (List (List V))) :
    (rows.map (eraseJoined hidden)).headD [] = eraseJoined hidden (rows.headD []) := by
  cases rows <;> simp

theorem lookup_erase {levels : List Level} {env : Env V} (hfit : Fits levels env)
    {table : Option String} {name : String} (h : hides levels table name = false) :
    (eraseEnv levels env).lookup table name = env.lookup table name := by
  induction levels generalizing env with
  | nil => cases env <;> rfl
  | cons level levels ih =>
    cases env with
    | nil => rfl
    | cons frame env =>
      obtain ⟨hscope, hrest⟩ := List.cons.inj hfit
      simp only [hides] at h
      simp only [eraseEnv, Env.lookup, Frame.erase, hscope]
      split at h
      · rename_i hanswers
        simp only [hanswers, if_true, headD_map_erase]
        cases hresolve : level.scope.resolve table name with
        | error e => rfl
        | ok places =>
          rw [hresolve] at h
          simp [Except.map, pick_eraseJoined h]
      · rename_i hanswers
        simp only [hanswers, Bool.false_eq_true, if_false]
        exact ih hrest h

end Erased

end Sql
