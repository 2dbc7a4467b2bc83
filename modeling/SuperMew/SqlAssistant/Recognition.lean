import SuperMew.Library.Sql.Masking
import SuperMew.SqlAssistant.Policy

/-! Queries whose sensitive columns the policy recognises. -/

namespace SuperMew.SqlAssistant

open Sql

variable {V : Type}

/-- The tables that the policy allows, with the columns of the catalog. -/
def viewOf (policy : SqlPolicy) (catalog : SqlCatalog) : View := fun schema name =>
  if policy.allowsRelation schema name then
    (catalog.relation schema name).map fun relation =>
      relation.columns.map fun column => (column.name, policy.hidden relation column)
  else none

/-- A reference to a sensitive column is one that `_column_source` and `_catalog_column`
take for a sensitive column. -/
def seesReference (policy : SqlPolicy) (catalog : SqlCatalog) (levels : List Level)
    (chain : List Sources) (table : Option String) (name : String) : Bool :=
  !hides levels table name || isSensitiveUse policy catalog chain ⟨table, name, .inner⟩

section Recognised

variable (policy : SqlPolicy) (catalog : SqlCatalog)

mutual

def recognises (ctes : List (String × List String)) (levels : List Level) (chain : List Sources) :
    Expr V → Bool
  | .column table name => seesReference policy catalog levels chain table name
  | .literal _ => true
  | .call _ args => recognisesAll ctes levels chain args
  | .aggregate _ args => recognisesAll ctes levels chain args
  | .nested _ args query =>
    recognisesAll ctes levels chain args && recognisesQuery ctes levels chain query

def recognisesAll (ctes : List (String × List String)) (levels : List Level)
    (chain : List Sources) : List (Expr V) → Bool
  | [] => true
  | e :: rest => recognises ctes levels chain e && recognisesAll ctes levels chain rest

def recognisesOrder (ctes : List (String × List String)) (levels : List Level)
    (chain : List Sources) (labels : List String) : List (Expr V) → Bool
  | [] => true
  | e :: rest =>
    (e.label?.any labels.contains || recognises ctes levels chain e) &&
      recognisesOrder ctes levels chain labels rest

def recognisesSource (ctes : List (String × List String)) (levels : List Level)
    (chain : List Sources) : Source V → Bool
  | .table .. => true
  | .derived query _ _ => recognisesQuery ctes levels chain query

/-- The columns that a join compares by their names are not sensitive. -/
def recognisesJoins (ctes : List (String × List String)) (levels : List Level)
    (chain : List Sources) (before : Level) : List (Join V) → Bool
  | [] => true
  | .mk _ natural shared source on :: rest =>
    recognisesSource ctes levels chain source &&
      match source.columns (viewOf policy catalog).tables ctes with
      | none => true
      | some columns =>
        let names := before.scope.keys columns natural shared
        let flags := source.flags (viewOf policy catalog)
        let level : Level :=
          ⟨before.scope.add source.label columns names, flags :: before.hidden⟩
        clearKeys before flags columns names &&
          recognisesAll ctes (level :: levels) chain on &&
          recognisesJoins ctes levels chain level rest

def recognisesWiths (ctes : List (String × List String)) (levels : List Level)
    (chain : List Sources) : List (Cte V) → Bool
  | [] => true
  | .mk name aliases query :: rest =>
    recognisesQuery ctes levels chain query &&
      recognisesWiths ((name, (rename aliases query.labels).getD []) :: ctes) levels chain rest

/-- Wherever the query refers to a sensitive column, by the scoping rules of SQL, the
policy takes the reference for one. -/
def recognisesQuery (ctes : List (String × List String)) (levels : List Level)
    (parents : List Sources) : Query V → Bool
  | .select withs _ projections labels sources filter groups having order _ =>
    let inner := withColumns ctes withs
    let chain := scopeSources (inner.map Prod.fst) sources :: parents
    recognisesWiths ctes levels chain withs &&
      recognisesJoins inner levels chain .empty sources &&
      match levelOf (viewOf policy catalog) inner .empty sources with
      | none => true
      | some level =>
        recognisesAll inner (level :: levels) chain projections &&
          recognisesAll inner (level :: levels) chain filter &&
          recognisesAll inner (level :: levels) chain groups &&
          recognisesAll inner (level :: levels) chain having &&
          recognisesOrder inner (level :: levels) chain labels order
  | .combine withs _ _ left right _ _ =>
    let inner := withColumns ctes withs
    let chain := (inner.map fun cte => (cte.1, none)) :: parents
    recognisesWiths ctes levels chain withs && recognisesQuery inner levels chain left &&
      recognisesQuery inner levels chain right
  | .everything query label _ =>
    recognisesQuery ctes levels ([(label, none)] :: parents) query

end

end Recognised

/-! ## Scopes that pass the checks -/

/-- No column of the scope is sensitive, and its tables are in the view. -/
structure Passes (policy : SqlPolicy) (catalog : SqlCatalog) (scope : QueryScope) : Prop where
  columns : ∀ column ∈ scope.columns,
    isSensitiveUse policy catalog (scope.sources :: scope.parents) column = false
  tables : ∀ entry ∈ scopeTables scope.sources,
    (viewOf policy catalog entry.2.1 entry.2.2).isSome = true

variable {policy : SqlPolicy} {catalog : SqlCatalog}

theorem withColumns_names (ctes : List (String × List String)) (withs : List (Cte V)) :
    (withColumns ctes withs).map Prod.fst = cteNames (ctes.map Prod.fst) withs := by
  induction withs generalizing ctes with
  | nil => rfl
  | cons cte withs ih =>
    obtain ⟨name, aliases, query⟩ := cte
    exact ih _

variable {levels : List Level} {chain : List Sources} {name : String}
  {ctes : List (String × List String)}

theorem source_clear_of_table {names : List String} {joins : List (Join V)} {join : Join V}
    (hjoin : join ∈ joins)
    (h : ∀ entry ∈ scopeTables (scopeSources names joins),
    (viewOf policy catalog entry.2.1 entry.2.2).isSome = true)
    {schema label : String} {aliases : List String}
    (hsource : join.source = .table schema name label aliases) (hschema : schema ≠ "") :
    (viewOf policy catalog schema name).isSome = true := by
  refine h (label, (schema, name)) (List.mem_filterMap.mpr ⟨(label, some (schema, name)), ?_, rfl⟩)
  refine List.mem_append_left _ (List.mem_map.mpr ⟨join, hjoin, ?_⟩)
  simp [sourceEntry, hsource, hschema]

theorem seesReference_clear {table : Option String}
    {site : Site} (h : seesReference policy catalog levels chain table name = true)
    (hplain : isSensitiveUse policy catalog chain ⟨table, name, site⟩ = false) :
    hides levels table name = false := by
  have hsite : isSensitiveUse policy catalog chain ⟨table, name, .inner⟩ = false := hplain
  simpa [seesReference, hsite] using h

/-- The same for a part of a scope with the sources of `chain`. -/
def SurveyPasses (policy : SqlPolicy) (catalog : SqlCatalog) (chain : List Sources)
    (survey : Survey) : Prop :=
  (∀ column ∈ survey.columns, isSensitiveUse policy catalog chain column = false) ∧
    ∀ scope ∈ survey.scopes, Passes policy catalog scope

theorem surveyPasses_append {a b : Survey} :
    SurveyPasses policy catalog chain (a.append b) ↔
      SurveyPasses policy catalog chain a ∧ SurveyPasses policy catalog chain b := by
  simp only [SurveyPasses, Survey.append, List.forall_mem_append]
  tauto

/-- The tables of `FROM` are in the view. -/
def TablesVisible (policy : SqlPolicy) (catalog : SqlCatalog) (joins : List (Join V)) : Prop :=
  ∀ join ∈ joins, ∀ schema name label aliases,
    join.source = .table schema name label aliases → schema ≠ "" →
      (viewOf policy catalog schema name).isSome = true

theorem source_clear {source : Source V}
    (htable : ∀ schema name label aliases, source = .table schema name label aliases →
    schema ≠ "" → (viewOf policy catalog schema name).isSome = true)
    (hquery : ∀ query label aliases, source = .derived query label aliases →
    query.clear (viewOf policy catalog) ctes levels = true) :
    source.clear (viewOf policy catalog) ctes levels = true := by
  cases source with
  | table schema name label aliases =>
    by_cases hschema : schema = ""
    · simp [Source.clear, hschema]
    · simp [Source.clear, htable schema name label aliases rfl hschema]
  | derived query label aliases =>
    simp only [Source.clear]
    exact hquery query label aliases rfl

theorem column_clear {table : Option String}
    {site : Site} (h : seesReference policy catalog levels chain table name = true)
    (hpass : SurveyPasses policy catalog chain ⟨[⟨table, name, site⟩], [], []⟩) :
    hides levels table name = false :=
  seesReference_clear h (hpass.1 ⟨table, name, site⟩ List.mem_cons_self)

theorem clearJoins_cons
    {before : Level} {side : Side} {natural : Bool} {shared : List String}
    {source : Source V} {on : List (Expr V)} {rest : List (Join V)}
    (h : recognisesJoins policy catalog ctes levels chain before
    (.mk side natural shared source on :: rest) = true)
    (hsource : source.clear (viewOf policy catalog) ctes levels = true)
    (hon : ∀ level, recognisesAll policy catalog ctes (level :: levels) chain on = true →
    clearAll (viewOf policy catalog) ctes (level :: levels) on = true)
    (hrest : ∀ level, recognisesJoins policy catalog ctes levels chain level rest = true →
    clearJoins (viewOf policy catalog) ctes levels level rest = true) :
    clearJoins (viewOf policy catalog) ctes levels before
      (.mk side natural shared source on :: rest) = true := by
  simp only [recognisesJoins, Bool.and_eq_true] at h
  simp only [clearJoins, Join.clear, Join.level, hsource, Bool.true_and]
  cases hcolumns : source.columns (viewOf policy catalog).tables ctes with
  | none => rfl
  | some columns =>
    simp only [hcolumns, Bool.and_eq_true] at h
    obtain ⟨-, ⟨hkeys, hcondition⟩, hlater⟩ := h
    simp [hkeys, hon _ hcondition, hrest _ hlater]

theorem select_passes {parents : List Sources}
    {withs : List (Cte V)} {distinct : Bool} {projections : List (Expr V)} {labels : List String}
    {sources : List (Join V)} {filter groups having order : List (Expr V)} {tail : Tail}
    (h : ∀ scope ∈ traverseScope (ctes.map Prod.fst) parents
    (.select withs distinct projections labels sources filter groups having order tail),
    Passes policy catalog scope) :
    let names := (withColumns ctes withs).map Prod.fst
    let chain := scopeSources names sources :: parents
    (∀ scope ∈ withScopes (ctes.map Prod.fst) chain withs, Passes policy catalog scope) ∧
      TablesVisible policy catalog sources ∧
      SurveyPasses policy catalog chain (surveyJoins names chain sources) ∧
      SurveyPasses policy catalog chain (surveyProjections names chain 0 projections) ∧
      SurveyPasses policy catalog chain (surveyAll names chain .inner filter) ∧
      SurveyPasses policy catalog chain (surveyAll names chain .inner groups) ∧
      SurveyPasses policy catalog chain (surveyAll names chain .inner having) ∧
      SurveyPasses policy catalog chain (surveyAll names chain .order order) := by
  intro names chain
  simp only [traverseScope, List.forall_mem_append, ← withColumns_names] at h
  obtain ⟨⟨hwiths, hscopes⟩, hown⟩ := h
  have hself := hown _ (List.mem_singleton_self _)
  have hsurvey := surveyPasses_append.mp ⟨hself.columns, hscopes⟩
  simp only [surveyPasses_append] at hsurvey
  refine ⟨hwiths, fun join hjoin schema name label aliases hsource hschema => ?_, hsurvey⟩
  exact source_clear_of_table hjoin hself.tables hsource hschema

mutual

theorem clear_one (ctes : List (String × List String)) (chain : List Sources) (site : Site) :
    ∀ (e : Expr V) {levels : List Level}, recognises policy catalog ctes levels chain e = true →
      SurveyPasses policy catalog chain (surveyOne (ctes.map Prod.fst) chain site e) →
      e.clear (viewOf policy catalog) ctes levels = true
  | .column table name, levels, hsees, hpass => by
      simp only [recognises] at hsees
      simp only [surveyOne] at hpass
      simp [Expr.clear, column_clear hsees hpass]
  | .literal value, levels, hsees, hpass => by simp [Expr.clear]
  | .call function args, levels, hsees, hpass => by
      simp only [recognises] at hsees
      simp only [surveyOne, surveyPasses_append] at hpass
      simp [Expr.clear, clear_all ctes chain site args hsees hpass.2]
  | .aggregate function args, levels, hsees, hpass => by
      simp only [recognises] at hsees
      simp only [surveyOne, surveyPasses_append] at hpass
      simp [Expr.clear, clear_all ctes chain site args hsees hpass.2]
  | .nested use args query, levels, hsees, hpass => by
      simp only [recognises, Bool.and_eq_true] at hsees
      simp only [surveyOne, surveyPasses_append] at hpass
      simp only [Expr.clear, clear_all ctes chain site args hsees.1 hpass.1, Bool.true_and]
      exact clear_query ctes chain query hsees.2 hpass.2.2

theorem clear_all (ctes : List (String × List String)) (chain : List Sources) (site : Site) :
    ∀ (es : List (Expr V)) {levels : List Level},
      recognisesAll policy catalog ctes levels chain es = true →
      SurveyPasses policy catalog chain (surveyAll (ctes.map Prod.fst) chain site es) →
      clearAll (viewOf policy catalog) ctes levels es = true
  | [], levels, hsees, hpass => by simp [clearAll]
  | e :: es, levels, hsees, hpass => by
      simp only [recognisesAll, Bool.and_eq_true] at hsees
      simp only [surveyAll, surveyPasses_append] at hpass
      simp [clearAll, clear_one ctes chain site e hsees.1 hpass.1,
        clear_all ctes chain site es hsees.2 hpass.2]

theorem clear_projections (ctes : List (String × List String)) (chain : List Sources) :
    ∀ (es : List (Expr V)) (ordinal : ℕ) {levels : List Level},
      recognisesAll policy catalog ctes levels chain es = true → SurveyPasses policy catalog chain
        (surveyProjections (ctes.map Prod.fst) chain ordinal es) →
      clearAll (viewOf policy catalog) ctes levels es = true
  | [], ordinal, levels, hsees, hpass => by simp [clearAll]
  | e :: es, ordinal, levels, hsees, hpass => by
      simp only [recognisesAll, Bool.and_eq_true] at hsees
      simp only [surveyProjections, surveyPasses_append] at hpass
      simp [clearAll, clear_one ctes chain (projectionSite ordinal e) e hsees.1 hpass.1,
        clear_projections ctes chain es (ordinal + 1) hsees.2 hpass.2]

theorem clear_order (ctes : List (String × List String)) (chain : List Sources)
    (labels : List String) :
    ∀ (es : List (Expr V)) {levels : List Level},
      recognisesOrder policy catalog ctes levels chain labels es = true →
      SurveyPasses policy catalog chain (surveyAll (ctes.map Prod.fst) chain .order es) →
      clearOrder (viewOf policy catalog) ctes levels labels es = true
  | [], levels, hsees, hpass => by simp [clearOrder]
  | e :: es, levels, hsees, hpass => by
      simp only [recognisesOrder, Bool.and_eq_true, Bool.or_eq_true] at hsees
      simp only [surveyAll, surveyPasses_append] at hpass
      simp only [clearOrder, clear_order ctes chain labels es hsees.2 hpass.2, Bool.and_true,
        Bool.or_eq_true]
      exact hsees.1.imp_right fun hsee => clear_one ctes chain .order e hsee hpass.1

theorem clear_joins (ctes : List (String × List String)) (chain : List Sources) :
    ∀ (joins : List (Join V)) {levels : List Level} {before : Level},
      recognisesJoins policy catalog ctes levels chain before joins = true →
      SurveyPasses policy catalog chain (surveyJoins (ctes.map Prod.fst) chain joins) →
      TablesVisible policy catalog joins →
      clearJoins (viewOf policy catalog) ctes levels before joins = true
  | [], levels, before, hsees, hpass, htables => by simp [clearJoins]
  | .mk side natural shared (.table schema name label aliases) on :: rest, levels, before, hsees,
      hpass, htables => by
      simp only [surveyJoins, surveyPasses_append] at hpass
      refine clearJoins_cons hsees ?_ (fun level h => clear_all ctes chain .inner on h hpass.2.1)
        (fun level h => clear_joins ctes chain rest h hpass.2.2
          fun join hjoin => htables join (List.mem_cons_of_mem _ hjoin))
      refine source_clear (fun _ _ _ _ hsource => ?_) (fun _ _ _ hsource => by cases hsource)
      exact htables _ List.mem_cons_self _ _ _ _ hsource
  | .mk side natural shared (.derived query label aliases) on :: rest, levels, before, hsees,
      hpass, htables => by
      simp only [surveyJoins, surveyPasses_append] at hpass
      have hquery : recognisesQuery policy catalog ctes levels chain query = true := by
        have h := hsees
        simp only [recognisesJoins, recognisesSource, Bool.and_eq_true] at h
        exact h.1
      refine clearJoins_cons hsees ?_ (fun level h => clear_all ctes chain .inner on h hpass.2.1)
        (fun level h => clear_joins ctes chain rest h hpass.2.2
          fun join hjoin => htables join (List.mem_cons_of_mem _ hjoin))
      simp only [Source.clear]
      exact clear_query ctes chain query hquery hpass.1.2

theorem clear_withs (chain : List Sources) :
    ∀ (withs : List (Cte V)) (ctes : List (String × List String)) {levels : List Level},
      recognisesWiths policy catalog ctes levels chain withs = true →
      (∀ scope ∈ withScopes (ctes.map Prod.fst) chain withs, Passes policy catalog scope) →
      clearWiths (viewOf policy catalog) ctes levels withs = true
  | [], ctes, levels, hsees, hpass => by simp [clearWiths]
  | .mk name aliases query :: rest, ctes, levels, hsees, hpass => by
      simp only [recognisesWiths, Bool.and_eq_true] at hsees
      simp only [withScopes, List.forall_mem_append] at hpass
      simp only [clearWiths, clear_query ctes chain query hsees.1 hpass.1, Bool.true_and]
      exact clear_withs chain rest _ hsees.2 hpass.2

theorem clear_query (ctes : List (String × List String)) (parents : List Sources) :
    ∀ (query : Query V) {levels : List Level},
      recognisesQuery policy catalog ctes levels parents query = true →
      (∀ scope ∈ traverseScope (ctes.map Prod.fst) parents query, Passes policy catalog scope) →
      query.clear (viewOf policy catalog) ctes levels = true
  | .everything query label limit, levels, hsees, hpass => by
      simp only [recognisesQuery] at hsees
      simp only [traverseScope, List.forall_mem_append] at hpass
      simp only [Query.clear]
      exact clear_query ctes _ query hsees hpass.1
  | .combine withs kind all left right order tail, levels, hsees, hpass => by
      simp only [recognisesQuery, Bool.and_eq_true] at hsees
      simp only [traverseScope, List.forall_mem_append, ← withColumns_names, List.map_map] at hpass
      obtain ⟨⟨⟨hwiths, hleft⟩, hright⟩, -⟩ := hpass
      simp [Query.clear, clear_withs _ withs ctes hsees.1.1 hwiths,
        clear_query _ _ left hsees.1.2 hleft, clear_query _ _ right hsees.2 hright]
  | .select withs distinct projections labels sources filter groups having order tail, levels,
      hsees, hpass => by
      simp only [recognisesQuery, Bool.and_eq_true] at hsees
      obtain ⟨⟨hsees, hseesJoins⟩, hparts⟩ := hsees
      obtain ⟨hwiths, htables, hjoins, hprojections, hfilter, hgroups, hhaving, horder⟩ :=
        select_passes hpass
      simp only [Query.clear, clear_withs _ withs ctes hsees hwiths,
        clear_joins _ _ sources hseesJoins hjoins htables, Bool.true_and]
      cases hlevel : levelOf (viewOf policy catalog) (withColumns ctes withs) .empty sources with
      | none => rfl
      | some level =>
        simp only [hlevel, Bool.and_eq_true] at hparts
        obtain ⟨⟨⟨⟨hseesProjections, hseesFilter⟩, hseesGroups⟩, hseesHaving⟩, hseesOrder⟩ := hparts
        simp [clear_projections _ _ projections 0 hseesProjections hprojections,
          clear_all _ _ .inner filter hseesFilter hfilter, clear_all _ _ .inner groups hseesGroups hgroups, clear_all _ _ .inner having hseesHaving hhaving, clear_order _ _ labels order hseesOrder horder]

end

end SuperMew.SqlAssistant
