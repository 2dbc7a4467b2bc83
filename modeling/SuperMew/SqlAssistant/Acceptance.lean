import SuperMew.SqlAssistant.Recognition

/-! What a query that the policy accepts may read: hidden columns only to return them. -/

namespace SuperMew.SqlAssistant

open List Sql Survey

variable {V : Type} {policy : SqlPolicy} {catalog : SqlCatalog} {query : Query V}

/-! ## Relations -/

theorem exists_ok_of_mapM {α β ε : Type} {f : α → Except ε β} {l : List α} {out : List β}
    (h : l.mapM f = .ok out) : ∀ a ∈ l, ∃ b, f a = .ok b := by
  induction l generalizing out with
  | nil => simp
  | cons a l ih =>
    rw [mapM_cons] at h
    obtain ⟨b, hb, h⟩ := bind_eq_ok.mp h
    obtain ⟨rest, hrest, -⟩ := bind_eq_ok.mp h
    intro c hc
    rcases mem_cons.mp hc with rfl | hc
    · exact ⟨b, hb⟩
    · exact ih hrest c hc

theorem relationReference_visible {entry : String × (String × String)}
    {reference : SqlRelationReference}
    (h : relationReference policy catalog entry = .ok reference) :
    (viewOf policy catalog entry.2.1 entry.2.2).isSome = true := by
  unfold relationReference at h
  split at h
  · cases h
  · split at h
    · cases h
    · rename_i relation hrelation
      split at h
      · rename_i hallowed
        simp [viewOf, hallowed, hrelation]
      · cases h

theorem validateRelations_tables {references : List SqlRelationReference}
    (h : validateRelations policy catalog query = .ok references) :
    ∀ scope ∈ traverseScope [] [] query, ∀ entry ∈ scopeTables scope.sources,
      (viewOf policy catalog entry.2.1 entry.2.2).isSome = true := by
  simp only [validateRelations, ok_rules] at h
  obtain ⟨found, hfound, -⟩ := h
  intro scope hscope entry hentry
  obtain ⟨reference, hreference⟩ := exists_ok_of_mapM hfound entry
    (mem_flatMap.mpr ⟨scope, hscope, hentry⟩)
  exact relationReference_visible hreference

/-! ## Sensitive columns -/

/-- What `_validate_sensitive_columns` has checked. -/
structure Validated (policy : SqlPolicy) (catalog : SqlCatalog) (query : Query V) : Prop where
  inner : ∀ scope ∈ (traverseScope [] [] query).dropLast,
    usesSensitive policy catalog (fun _ => false) scope = false
  root : ∀ scope ∈ (traverseScope [] [] query).getLast?, usesSensitive policy catalog
    (fun column => isSelect query && column.site.isProjection) scope = false
  labels : isSelect query = true → ∀ scope ∈ (traverseScope [] [] query).getLast?,
    ∀ column ∈ scope.columns, column.table = none →
      ∀ projection ∈ projectionsOf policy catalog query, projection.sensitive = true →
        projection.label ≠ column.name
  distinct : isDistinct query = true →
    ∀ projection ∈ projectionsOf policy catalog query, projection.sensitive = false

theorem validateSensitiveColumns_ok {projections : List SqlProjection} {masked : List ℕ}
    (h : validateSensitiveColumns policy catalog query = .ok (projections, masked)) :
    Validated policy catalog query ∧ projections = projectionsOf policy catalog query ∧
      masked = ((projectionsOf policy catalog query).filter SqlProjection.sensitive).map
        SqlProjection.ordinal := by
  simp only [validateSensitiveColumns, denyIf, ok_rules, Bool.not_eq_true, Bool.or_eq_false_iff,
    Bool.and_eq_false_iff] at h
  obtain ⟨_, ⟨hinner, hroot⟩, _, hlabels, _, hdistinct, _, -, hprojections, hmasked⟩ := h
  refine ⟨⟨?_, ?_, ?_, ?_⟩, hprojections.symm, hmasked.symm⟩
  · simpa only [any_eq_false, Bool.not_eq_true] using hinner
  · intro scope hscope
    rw [Option.mem_def] at hscope
    simpa [hscope] using hroot
  · intro hselect scope hscope column hcolumn hnone projection hprojection hsensitive heq
    rw [Option.mem_def] at hscope
    simp only [hselect, Bool.true_eq_false, hscope, Option.any_some, false_or,
      any_eq_false] at hlabels
    refine hlabels column hcolumn ?_
    simp only [hnone, Option.isNone_none, Bool.true_and, contains_iff_mem, mem_map, mem_filter]
    exact ⟨projection, ⟨hprojection, hsensitive⟩, heq⟩
  · intro hd projection hprojection
    rw [hd] at hdistinct
    have hnone := hdistinct.resolve_right (by simp)
    simp only [Bool.not_eq_false', List.isEmpty_iff, List.filter_eq_nil_iff,
      Bool.not_eq_true] at hnone
    exact hnone projection hprojection

/-! ## The outermost `SELECT` -/

mutual

variable {chain : List Sources} {names : List String}

theorem surveyOne_site {site : Site} :
    ∀ (e : Expr V), ∀ column ∈ (surveyOne names chain site e).columns, column.site = site
  | .column table name => by simp [surveyOne]
  | .literal value => by simp [surveyOne, empty]
  | .call function args => by
      simpa [surveyOne, append] using surveyAll_site args
  | .aggregate function args => by
      simpa [surveyOne, append] using surveyAll_site args
  | .nested use args query => by
      simpa [surveyOne, append] using surveyAll_site args

theorem surveyAll_site {site : Site} :
    ∀ (es : List (Expr V)), ∀ column ∈ (surveyAll names chain site es).columns, column.site = site
  | [] => by simp [surveyAll, empty]
  | e :: es => by
      simp only [surveyAll, append, forall_mem_append]
      exact ⟨surveyOne_site e, surveyAll_site es⟩

end

variable {labels : List String} {name : String} {e : Expr V} {projections : List (Expr V)}

theorem surveyJoins_site (joins : List (Join V)) :
    ∀ column ∈ (surveyJoins names chain joins).columns, column.site = .inner := by
  induction joins with
  | nil => simp [surveyJoins, empty]
  | cons join joins ih =>
    obtain ⟨side, natural, shared, source, on⟩ := join
    simp only [surveyJoins, append, nil_append, forall_mem_append]
    exact ⟨surveyAll_site on, ih⟩

theorem columnSource_none (chain : List Sources) : columnSource chain none = none := by
  induction chain with
  | nil => rfl
  | cons sources chain ih => exact ih

theorem isSensitiveUse_unqualified (chain : List Sources) (name : String) (site : Site) :
    isSensitiveUse policy catalog chain ⟨none, name, site⟩ = false := by
  simp [isSensitiveUse, columnSource_none, catalogColumn]

/-- The columns of the part are sensitive only as projections of their own. -/
def RootPasses (policy : SqlPolicy) (catalog : SqlCatalog) (chain : List Sources)
    (survey : Survey) : Prop :=
  (∀ column ∈ survey.columns, isSensitiveUse policy catalog chain column = true →
    column.site.isProjection = true) ∧ ∀ scope ∈ survey.scopes, Passes policy catalog scope

theorem rootPasses_append {a b : Survey} :
    RootPasses policy catalog chain (a.append b) ↔
      RootPasses policy catalog chain a ∧ RootPasses policy catalog chain b := by
  simp only [RootPasses, append, forall_mem_append]
  tauto

theorem RootPasses.elsewhere {survey : Survey}
    (h : RootPasses policy catalog chain survey) {site : Site} (hsite : site.isProjection = false)
    (hcolumns : ∀ column ∈ survey.columns, column.site = site) :
    SurveyPasses policy catalog chain survey := by
  refine ⟨fun column hcolumn => ?_, h.2⟩
  cases hsensitive : isSensitiveUse policy catalog chain column with
  | false => rfl
  | true =>
    have hprojection := h.1 column hcolumn hsensitive
    rw [hcolumns column hcolumn, hsite] at hprojection
    cases hprojection

/-- A projection that is not a column with the name of its source passes. -/
theorem root_projection {ordinal : ℕ} (hdirect : e.direct = false)
    (h : RootPasses policy catalog chain (surveyOne names chain (projectionSite ordinal e) e)) :
    SurveyPasses policy catalog chain (surveyOne names chain (projectionSite ordinal e) e) := by
  have hinner : projectionSite ordinal e = .inner →
      SurveyPasses policy catalog chain (surveyOne names chain (projectionSite ordinal e) e) := by
    intro hsite
    exact h.elsewhere (by rw [hsite]; rfl) (surveyOne_site e)
  cases e with
  | column table name =>
    cases table with
    | none => exact ⟨by simp [surveyOne, isSensitiveUse_unqualified], h.2⟩
    | some table => cases hdirect
  | literal value | call function args | aggregate function args | nested use args query =>
    exact hinner rfl

/-- A projection is a column with the name of its source, or refers to no hidden column. -/
theorem root_projections {ctes : List (String × List String)}
    {levels : List Level} {es : List (Expr V)} {ordinal : ℕ}
    (hsees : recognisesAll policy catalog ctes levels chain es = true)
    (h : RootPasses policy catalog chain (surveyProjections (ctes.map Prod.fst) chain ordinal es)) :
    ∀ e ∈ es, e.direct = true ∨ e.clear (viewOf policy catalog) ctes levels = true := by
  induction es generalizing ordinal with
  | nil => simp
  | cons e es ih =>
    simp only [recognisesAll, Bool.and_eq_true] at hsees
    simp only [surveyProjections, rootPasses_append] at h
    intro e' he'
    rcases mem_cons.mp he' with rfl | he'
    · cases hdirect : e'.direct with
      | true => exact .inl rfl
      | false =>
        exact .inr (clear_one ctes chain (projectionSite ordinal e') e' hsees.1
          (root_projection hdirect h.1))
    · exact ih hsees.2 h.2 e' he'

/-- A hidden column among the projections is one that the policy has found sensitive. -/
theorem masked_sensitive {ctes : List (String × List String)} {sources : Sources}
    {levels : List Level}
    (hsees : recognisesAll policy catalog ctes levels [sources] projections = true) {i : ℕ}
    (h : (projections.map (Expr.masked levels))[i]?.getD false = true) :
    ∃ projection ∈ projections.zipIdx.map (projectionOf policy catalog sources labels),
      projection.ordinal = i ∧ projection.label = labelAt labels i ∧
        projection.sensitive = true := by
  cases hi : projections[i]? with
  | none => simp [hi] at h
  | some e =>
    have hmem : (e, i) ∈ projections.zipIdx := mem_zipIdx_iff_getElem?.mpr hi
    have hmasked : e.masked levels = true := by simpa [hi] using h
    have hall : ∀ {es : List (Expr V)},
        recognisesAll policy catalog ctes levels [sources] es = true → ∀ e ∈ es,
          recognises policy catalog ctes levels [sources] e = true := by
      intro es
      induction es with
      | nil => simp
      | cons e es ih =>
        intro hes
        simp only [recognisesAll, Bool.and_eq_true] at hes
        exact forall_mem_cons.mpr ⟨hes.1, ih hes.2⟩
    have hsee := hall hsees e (mem_of_getElem? hi)
    refine ⟨_, mem_map.mpr ⟨(e, i), hmem, rfl⟩, rfl, rfl, ?_⟩
    cases e with
    | column table name =>
      cases table with
      | none => cases hmasked
      | some table =>
        simp only [Expr.masked] at hmasked
        simp only [recognises, seesReference, hmasked, Bool.not_true, Bool.false_or] at hsee
        exact hsee
    | literal value | call function args | aggregate function args | nested use args query =>
      cases hmasked

def maskedOrdinalsOf (policy : SqlPolicy) (catalog : SqlCatalog) (query : Query V) : List ℕ :=
  ((projectionsOf policy catalog query).filter SqlProjection.sensitive).map SqlProjection.ordinal

theorem passes_of_unused {scope : QueryScope}
    (h : usesSensitive policy catalog (fun _ => false) scope = false)
    (htables : ∀ entry ∈ scopeTables scope.sources,
      (viewOf policy catalog entry.2.1 entry.2.2).isSome = true) : Passes policy catalog scope := by
  refine ⟨?_, htables⟩
  simpa [usesSensitive] using h

theorem accepted_plain (hselect : isSelect query = false)
    (hsees : recognisesQuery policy catalog [] [] [] query = true)
    (htables : ∀ scope ∈ traverseScope [] [] query, ∀ entry ∈ scopeTables scope.sources,
      (viewOf policy catalog entry.2.1 entry.2.2).isSome = true)
    (h : Validated policy catalog query) :
    query.clear (viewOf policy catalog) [] [] = true := by
  have hscopes : ∃ inner own, traverseScope [] [] query = inner ++ [own] := by
    cases query <;> exact ⟨_, _, rfl⟩
  obtain ⟨inner, own, hscopes⟩ := hscopes
  have hinner := h.inner
  have hroot := h.root
  rw [hscopes, dropLast_concat] at hinner
  rw [hscopes, List.getLast?_concat] at hroot
  refine clear_query [] [] query hsees fun scope hscope => ?_
  refine passes_of_unused ?_ (htables scope hscope)
  have hmem : scope ∈ inner ++ [own] := hscopes ▸ hscope
  rcases mem_append.mp hmem with hin | hlast
  · exact hinner scope hin
  · have hown := hroot own rfl
    simp only [hselect, Bool.false_and] at hown
    rw [mem_singleton.mp hlast]
    exact hown

/-- The parts of the outermost `SELECT` of an accepted query. -/
structure RootParts (policy : SqlPolicy) (catalog : SqlCatalog) (names : List String)
    (chain : List Sources) (withs : List (Cte V)) (sources : List (Join V))
    (projections filter groups having order : List (Expr V)) : Prop where
  withs : ∀ scope ∈ withScopes [] chain withs, Passes policy catalog scope
  tables : TablesVisible policy catalog sources
  joins : SurveyPasses policy catalog chain (surveyJoins names chain sources)
  projections : RootPasses policy catalog chain (surveyProjections names chain 0 projections)
  filter : SurveyPasses policy catalog chain (surveyAll names chain .inner filter)
  groups : SurveyPasses policy catalog chain (surveyAll names chain .inner groups)
  having : SurveyPasses policy catalog chain (surveyAll names chain .inner having)
  order : SurveyPasses policy catalog chain (surveyAll names chain .order order)

theorem root_parts {withs : List (Cte V)} {distinct : Bool}
    {sources : List (Join V)} {filter groups having order : List (Expr V)}
    {tail : Tail}
    (htables : ∀ scope ∈ traverseScope [] []
    (.select withs distinct projections labels sources filter groups having order tail),
    ∀ entry ∈ scopeTables scope.sources,
    (viewOf policy catalog entry.2.1 entry.2.2).isSome = true)
    (h : Validated policy catalog
    (.select withs distinct projections labels sources filter groups having order tail)) :
    RootParts policy catalog ((withColumns [] withs).map Prod.fst)
      [scopeSources ((withColumns [] withs).map Prod.fst) sources] withs sources projections filter
      groups having order := by
  have hnames : cteNames [] withs = (withColumns [] withs).map Prod.fst :=
    (withColumns_names [] withs).symm
  obtain ⟨hinner, hroot, -, -⟩ := h
  simp only [traverseScope, hnames, dropLast_concat, List.getLast?_concat, Option.mem_def,
    Option.some.injEq, forall_eq', forall_mem_append] at hinner hroot htables
  obtain ⟨⟨htablesWiths, htablesScopes⟩, htablesOwn⟩ := htables
  have hscopes := fun scope hscope =>
    passes_of_unused (hinner.2 scope hscope) (htablesScopes scope hscope)
  have hcolumns := hroot
  simp only [usesSensitive, isSelect, Bool.true_and, any_eq_false, Bool.and_eq_true,
    Bool.not_eq_true', not_and, Bool.not_eq_false] at hcolumns
  have hsurvey := rootPasses_append.mp ⟨hcolumns, hscopes⟩
  simp only [rootPasses_append] at hsurvey
  obtain ⟨hjoins, hprojections, hfilter, hgroups, hhaving, horder⟩ := hsurvey
  exact
    { withs := fun scope hscope =>
        passes_of_unused (hinner.1 scope hscope) (htablesWiths scope hscope)
      tables := fun join hjoin schema name label aliases hsource hschema =>
        source_clear_of_table hjoin (htablesOwn _ (mem_singleton_self _)) hsource hschema
      joins := hjoins.elsewhere rfl (surveyJoins_site sources)
      projections := hprojections
      filter := hfilter.elsewhere rfl (surveyAll_site filter)
      groups := hgroups.elsewhere rfl (surveyAll_site groups)
      having := hhaving.elsewhere rfl (surveyAll_site having)
      order := horder.elsewhere rfl (surveyAll_site order) }

theorem surveyAll_column {site : Site}
    {table : Option String} {es : List (Expr V)} (h : .column table name ∈ es) :
    ⟨table, name, site⟩ ∈ (surveyAll names chain site es).columns := by
  induction es with
  | nil => cases h
  | cons e es ih =>
    simp only [surveyAll, append]
    rcases mem_cons.mp h with rfl | h
    · exact mem_append_left _ (by simp [surveyOne])
    · exact mem_append_right _ (ih h)

/-- A key of `ORDER BY` is not the name of a sensitive column of the result. -/
theorem root_labels {withs : List (Cte V)} {distinct : Bool}
    {sources : List (Join V)} {filter groups having order : List (Expr V)}
    {tail : Tail}
    (h : Validated policy catalog
    (.select withs distinct projections labels sources filter groups having order tail))
    (hname : .column none name ∈ order) {projection : SqlProjection}
    (hprojection : projection ∈ projectionsOf policy catalog
    (.select withs distinct projections labels sources filter groups having order tail))
    (hsensitive : projection.sensitive = true) : projection.label ≠ name := by
  have hlabels := h.labels rfl
  simp only [traverseScope, List.getLast?_concat, Option.mem_def, Option.some.injEq,
    forall_eq'] at hlabels
  refine hlabels ⟨none, name, .order⟩ ?_ rfl projection hprojection hsensitive
  simp only [append, mem_append]
  exact .inr (.inr (.inr (.inr (.inr (surveyAll_column hname)))))

theorem label?_eq_some (h : e.label? = some name) :
    e = .column none name ∧ name ≠ "" := by
  cases e with
  | column table found =>
    cases table with
    | none =>
      simp only [Expr.label?] at h
      split at h
      · cases h
      · rename_i hne
        cases h
        exact ⟨rfl, hne⟩
    | some table => cases h
  | literal value | call function args | aggregate function args | nested use args query => cases h

theorem clearLabel_of_unmasked {mask : List Bool}
    (h : ∀ name i, e.label? = some name → labels.findIdx? (· == name) = some i →
    mask[i]?.getD false = false) : clearLabel labels mask e = true := by
  unfold clearLabel
  cases hlabel : e.label? with
  | none => rfl
  | some name =>
    simp only [Option.bind_some]
    cases hi : labels.findIdx? (· == name) with
    | none => rfl
    | some i => simp [h name i hlabel hi]

theorem labelAt_findIdx? {i : ℕ}
    (h : labels.findIdx? (· == name) = some i) (hne : name ≠ "") : labelAt labels i = name := by
  obtain ⟨hlength, hname, -⟩ := List.findIdx?_eq_some_iff_getElem.mp h
  have heq : labels[i] = name := by simpa using hname
  simp [labelAt, hlength, heq, hne]

/-- Where the policy recognises the sensitive columns, an accepted query refers to hidden
columns only to return them, and the policy masks these. -/
theorem accepted_clearBut (hsees : recognisesQuery policy catalog [] [] [] query = true)
    (htables : ∀ scope ∈ traverseScope [] [] query, ∀ entry ∈ scopeTables scope.sources,
      (viewOf policy catalog entry.2.1 entry.2.2).isSome = true)
    (h : Validated policy catalog query) :
    query.clearBut (viewOf policy catalog) = true ∧
      ∀ i, (query.mask (viewOf policy catalog))[i]?.getD false = true →
        i ∈ maskedOrdinalsOf policy catalog query := by
  cases query with
  | everything query label limit | combine withs kind all left right order tail =>
    exact ⟨accepted_plain rfl hsees htables h, by simp [Query.mask]⟩
  | select withs distinct projections labels sources filter groups having order tail =>
    have hroot := root_parts htables h
    simp only [recognisesQuery, Bool.and_eq_true] at hsees
    obtain ⟨⟨hseesWiths, hseesJoins⟩, hparts⟩ := hsees
    simp only [Query.clearBut, Query.mask, clear_withs _ withs [] hseesWiths hroot.withs,
      clear_joins _ _ sources hseesJoins hroot.joins hroot.tables, Bool.true_and]
    cases hlevel : levelOf (viewOf policy catalog) (withColumns [] withs) .empty sources with
    | none => simp
    | some level =>
      simp only [hlevel, Bool.and_eq_true] at hparts
      obtain ⟨⟨⟨⟨hseesProjections, hseesFilter⟩, hseesGroups⟩, hseesHaving⟩, hseesOrder⟩ := hparts
      have hnames : (withColumns [] withs).map Prod.fst = cteNames [] withs :=
        withColumns_names [] withs
      have hmasked : ∀ i, (projections.map (Expr.masked [level]))[i]?.getD false = true →
          ∃ projection ∈ projectionsOf policy catalog
            (.select withs distinct projections labels sources filter groups having order tail),
            projection.ordinal = i ∧ projection.label = labelAt labels i ∧
              projection.sensitive = true := by
        intro i hi
        rw [hnames] at hseesProjections
        exact masked_sensitive hseesProjections hi
      have hdirect : (projections.all fun e => e.direct ||
          e.clear (viewOf policy catalog) (withColumns [] withs) [level]) = true := by
        simpa only [all_eq_true, Bool.or_eq_true] using
          root_projections hseesProjections hroot.projections
      have hkeys : order.all
          (clearLabel labels (projections.map (Expr.masked [level]))) = true := by
        refine all_eq_true.mpr fun e he => clearLabel_of_unmasked fun name i hname hi => ?_
        obtain ⟨rfl, hne⟩ := label?_eq_some hname
        cases hflag : (projections.map (Expr.masked [level]))[i]?.getD false with
        | false => rfl
        | true =>
          obtain ⟨projection, hprojection, -, hlabel, hsensitive⟩ := hmasked i hflag
          rw [labelAt_findIdx? hi hne] at hlabel
          exact absurd hlabel (root_labels h he hprojection hsensitive)
      have hdistinct : (!distinct || !projections.any (Expr.masked [level])) = true := by
        cases hd : distinct with
        | false => rfl
        | true =>
          subst hd
          simp only [Bool.not_true, Bool.false_or, Bool.not_eq_true', any_eq_false]
          intro e he hflag
          obtain ⟨i, hi⟩ := List.getElem?_of_mem he
          obtain ⟨projection, hprojection, -, -, hsensitive⟩ :=
            hmasked i (by simp [hi, hflag])
          rw [h.distinct rfl projection hprojection] at hsensitive
          cases hsensitive
      refine ⟨?_, fun i hi => ?_⟩
      · simp [hdirect, clear_all _ _ .inner filter hseesFilter hroot.filter,
          clear_all _ _ .inner groups hseesGroups hroot.groups, clear_all _ _ .inner having hseesHaving hroot.having, clear_order _ _ labels order hseesOrder hroot.order, hkeys, hdistinct]
      · obtain ⟨projection, hprojection, rfl, -, hsensitive⟩ := hmasked i hi
        exact mem_map.mpr ⟨projection, mem_filter.mpr ⟨hprojection, hsensitive⟩, rfl⟩

end SuperMew.SqlAssistant
