import SuperMew.Library.Sql.Clear

/-! A query that is clear of hidden columns returns the same rows from the erased database. -/

namespace Sql

open Sql.Frame Join

variable {V : Type} {view : View} {db : Database V} {levels : List Level} {columns : List String}
  {env : Env V} {level : Level} {before frame : Frame V} {source : Source V}

theorem Source.columns_view (hdb : Conforms view db) {ctes : List (String × List String)}
    (h : source.clear view ctes levels = true) (names : List (String × List String)) :
    source.columns (tablesOf db) names = source.columns view.tables names := by
  cases source with
  | derived query label aliases => rfl
  | table schema name label aliases =>
    by_cases hschema : schema = ""
    · simp [Source.columns, hschema]
    · simp only [Source.clear, hschema, decide_false, Bool.false_or] at h
      obtain ⟨columns, hview⟩ := Option.isSome_iff_exists.mp h
      obtain ⟨rows, htable⟩ := hdb schema name columns hview
      simp [Source.columns, hschema, tablesOf, htable, View.tables, hview]

theorem exists_of_mapM_ok {α β ε : Type} {f : α → Except ε β} {l : List α} {out : List β}
    (h : l.mapM f = .ok out) : ∀ b ∈ out, ∃ a ∈ l, f a = .ok b := by
  induction l generalizing out with
  | nil =>
    obtain rfl : out = [] := by simpa [pure, Except.pure] using h.symm
    simp
  | cons a l ih =>
    rw [List.mapM_cons] at h
    cases ha : f a with
    | error e => simp [ha, bind, Except.bind] at h
    | ok b =>
      cases hl : l.mapM f with
      | error e => simp [ha, hl, bind, Except.bind] at h
      | ok rest =>
        obtain rfl : out = b :: rest := by
          simpa [ha, hl, bind, Except.bind, pure, Except.pure] using h.symm
        intro c hc
        rcases List.mem_cons.mp hc with rfl | hc
        · exact ⟨a, List.mem_cons_self, ha⟩
        · obtain ⟨a', ha', hfa'⟩ := ih hl c hc
          exact ⟨a', List.mem_cons_of_mem a ha', hfa'⟩

theorem joinKey_eq_ok {scope : Scope} {name : String}
    {key : List (ℕ × ℕ) × ℕ} (h : joinKey scope columns name = .ok key) :
    scope.resolve none name = .ok key.1 ∧
      ∃ column ∈ columns.zipIdx.filter (fun column => column.1 == name), column.2 = key.2 := by
  unfold joinKey at h
  cases hresolve : scope.resolve none name with
  | error e => simp [hresolve, bind, Except.bind] at h
  | ok places =>
    simp only [hresolve, bind, Except.bind] at h
    split at h
    · cases h
    · rename_i column hfound
      cases h
      exact ⟨rfl, column, by rw [hfound]; simp, rfl⟩
    · cases h

theorem Fits.cons (hfit : Fits levels env)
    (h : frame.scope = level.scope) : Fits (level :: levels) (frame :: env) := by
  simp only [Fits, List.map_cons, h]
  exact congrArg _ hfit

theorem Frame.start_scope : (start : Frame V).scope = Level.empty.scope := rfl

/-! ## Sources and joins -/

variable [Engine V] {ctes : List (String × Relation V)}

theorem conforms_erase (hdb : Conforms view db) : Conforms view (eraseDatabase view db) := by
  intro schema name columns hview
  obtain ⟨rows, htable⟩ := hdb schema name columns hview
  refine ⟨rows.map (eraseRow (columns.map Prod.snd)), ?_⟩
  simp [eraseDatabase, hview, htable]

theorem table_rows_erase (hdb : Conforms view db) {schema name : String}
    (h : (view schema name).isSome = true) :
    (eraseDatabase view db schema name).map Relation.rows = ((db schema name).map Relation.rows).map
        (List.map (eraseRow (((view schema name).getD []).map Prod.snd))) := by
  obtain ⟨columns, hview⟩ := Option.isSome_iff_exists.mp h
  obtain ⟨rows, htable⟩ := hdb schema name columns hview
  simp [eraseDatabase, hview, htable]

variable {keys : List (List (ℕ × ℕ) × ℕ)} {names : List String}

/-- A join does not see hidden columns if none of its keys is hidden. -/
theorem matchKeys_erase {before : Level} {flags : List Bool}
    (hkeys : names.mapM (joinKey before.scope columns) = .ok keys)
    (h : clearKeys before flags columns names = true) (l : List (List V)) (r : List V) :
    matchKeys keys (eraseJoined before.hidden l) (eraseRow flags r) = matchKeys keys l r := by
  unfold matchKeys
  rw [Bool.eq_iff_iff, List.all_eq_true, List.all_eq_true]
  refine forall₂_congr fun key hkey => ?_
  obtain ⟨name, hname, hok⟩ := exists_of_mapM_ok hkeys key hkey
  obtain ⟨hresolve, column, hcolumn, hat⟩ := joinKey_eq_ok hok
  have hclear := List.all_eq_true.mp h name hname
  simp only [hresolve, Bool.and_eq_true, Bool.not_eq_true', List.all_eq_true] at hclear
  have hflag := hclear.2 column hcolumn
  have hright : (eraseRow flags r)[key.2]?.getD Engine.null = r[key.2]?.getD Engine.null := by
    rw [eraseRow_getElem?, ← hat, hflag]
    simp
  rw [pick_eraseJoined hclear.1, hright]

theorem matchRows_erase {before : Level} {flags : List Bool}
    (hkeys : names.mapM (joinKey before.scope columns) = .ok keys)
    (h : clearKeys before flags columns names = true)
    {condition condition' : List (List V) → List V → Except SqlError (List V)}
    (hcondition : ∀ l r, condition' (eraseJoined before.hidden l) (eraseRow flags r) =
    condition l r) (left : List (List (List V))) (right : List (List V)) :
    matchRows keys condition' (left.map (eraseJoined before.hidden))
        (right.map (eraseRow flags)) = matchRows keys condition left right := by
  refine mapM_map_same (eraseJoined before.hidden) (fun l => ?_) left
  refine mapM_map_same (eraseRow flags) (fun r => ?_) right
  rw [matchKeys_erase hkeys h, hcondition]

theorem Join.rows_erase (hdb : Conforms view db)
    (hscope : before.scope = level.scope) {side : Side} {natural : Bool} {shared : List String}
    {on : List (Expr V)}
    (h : (mk side natural shared source on).clear view (columnsOf ctes) levels level = true)
    (hsource : source.rows (eraseDatabase view db) ctes (eraseEnv levels env) =
    (source.rows db ctes env).map (List.map (eraseRow (source.flags view))))
    (hon : ∀ (inner : Level) (frame : Frame V), frame.scope = inner.scope →
    clearAll view (columnsOf ctes) (inner :: levels) on = true →
    evalAll (eraseDatabase view db) ctes (frame.erase inner.hidden :: eraseEnv levels env) on =
    evalAll db ctes (frame :: env) on) :
    (mk side natural shared source on).rows (eraseDatabase view db) ctes (eraseEnv levels env)
        (before.erase level.hidden) =
      ((mk side natural shared source on).rows db ctes env before).map
        (erase (source.flags view :: level.hidden)) := by
  simp only [clear, Bool.and_eq_true] at h
  obtain ⟨hclear, h⟩ := h
  simp only [rows, source.columns_view hdb hclear,
    source.columns_view (conforms_erase hdb) hclear, hsource, erase, hscope]
  cases hcolumns : source.columns view.tables (columnsOf ctes) with
  | none => rfl
  | some columns =>
    simp only [hcolumns, Bool.and_eq_true] at h
    obtain ⟨hnames, hcondition⟩ := h
    simp only [orRaise, bind, Except.bind]
    split
    · rfl
    · cases source.rows db ctes env with
      | error e => rfl
      | ok right =>
        simp only [pure, Except.pure, Except.map]
        cases hkeys : (level.scope.keys columns natural shared).mapM
            (joinKey level.scope columns) with
        | error e => rfl
        | ok keys =>
          have hfound : matchRows keys (fun l r => evalAll (eraseDatabase view db) ctes
                (⟨level.scope.add source.label columns
                  (level.scope.keys columns natural shared), [r :: l]⟩ ::
                    eraseEnv levels env) on)
              (before.rows.map (eraseJoined level.hidden))
              (right.map (eraseRow (source.flags view))) =
              matchRows keys (fun l r => evalAll db ctes
                (⟨level.scope.add source.label columns
                  (level.scope.keys columns natural shared), [r :: l]⟩ :: env) on)
                before.rows right :=
            matchRows_erase hkeys hnames (fun l r =>
              hon ⟨_, source.flags view :: level.hidden⟩ ⟨_, [r :: l]⟩ rfl hcondition) _ _
          simp only [hfound]
          split
          · rfl
          · simp only [joined_erase side _ _ _ _ (eraseJoined_blank _ _) (eraseRow_blank _ _)]
            rfl

/-- A join that succeeds has the sources of its level. -/
theorem Join.rows_scope (hdb : Conforms view db) (hscope : before.scope = level.scope)
    {join : Join V} (h : join.clear view (columnsOf ctes) levels level = true)
    (hrows : join.rows db ctes env before = .ok frame) :
    ∃ next, join.level view (columnsOf ctes) level = some next ∧ frame.scope = next.scope ∧
      next.hidden = join.source.flags view :: level.hidden := by
  obtain ⟨side, natural, shared, source, on⟩ := join
  simp only [clear, Bool.and_eq_true] at h
  simp only [rows, source.columns_view hdb h.1, hscope] at hrows
  cases hcolumns : source.columns view.tables (columnsOf ctes) with
  | none => simp [hcolumns, orRaise, bind, Except.bind] at hrows
  | some columns =>
    refine ⟨_, by simp only [Join.level, hcolumns, Option.map_some]; rfl, ?_, rfl⟩
    simp only [hcolumns, orRaise, bind, Except.bind] at hrows
    split at hrows
    · cases hrows
    · split at hrows
      · cases hrows
      · simp only [pure, Except.pure] at hrows
        split at hrows
        · cases hrows
        · split at hrows
          · cases hrows
          · rw [← Except.ok.inj hrows]

/-! ## Queries -/

def hiddenAll (view : View) : List (Join V) → List (List Bool) → List (List Bool)
  | [], hidden => hidden
  | join :: rest, hidden => hiddenAll view rest (join.source.flags view :: hidden)

theorem joinAll_scope (hdb : Conforms view db) {joins : List (Join V)}
    (hscope : before.scope = level.scope)
    (h : clearJoins view (columnsOf ctes) levels level joins = true)
    (hrows : joinAll db ctes env before joins = .ok frame) :
    ∃ next, levelOf view (columnsOf ctes) level joins = some next ∧ frame.scope = next.scope ∧
      next.hidden = hiddenAll view joins level.hidden := by
  induction joins generalizing level before with
  | nil =>
    obtain rfl : before = frame := Except.ok.inj (by simpa only [joinAll] using hrows)
    exact ⟨level, rfl, hscope, rfl⟩
  | cons join joins ih =>
    simp only [clearJoins, Bool.and_eq_true] at h
    simp only [joinAll] at hrows
    cases hjoin : join.rows db ctes env before with
    | error e => simp [hjoin, bind, Except.bind] at hrows
    | ok middle =>
      obtain ⟨next, hnext, hmiddle, hflags⟩ := rows_scope hdb hscope h.1 hjoin
      simp only [hjoin, bind, Except.bind] at hrows
      simp only [hnext] at h
      obtain ⟨last, hlast, hframe, hhidden⟩ := ih hmiddle h.2 hrows
      exact ⟨last, by simp only [levelOf, hnext, Option.bind_some, hlast], hframe,
        by rw [hhidden, hflags, hiddenAll]⟩

theorem withAll_columns {ctes' : List (String × Relation V)}
    {withs : List (Cte V)} (h : withAll db ctes env withs = .ok ctes') :
    columnsOf ctes' = withColumns (columnsOf ctes) withs := by
  induction withs generalizing ctes with
  | nil =>
    obtain rfl : ctes = ctes' := Except.ok.inj (by simpa only [withAll] using h)
    rfl
  | cons cte withs ih =>
    obtain ⟨name, aliases, query⟩ := cte
    simp only [withAll] at h
    cases hcolumns : rename aliases query.labels with
    | none => simp [hcolumns, orRaise, bind, Except.bind] at h
    | some columns =>
      simp only [hcolumns, orRaise, bind, Except.bind] at h
      split at h
      · cases h
      · rw [ih h, withColumns, hcolumns]
        rfl

/-- A key that is no column of the result is an expression. -/
theorem orderKey_congr {labels : List String} {row : List V} {e : Expr V}
    {value value' : Except SqlError V} (h : e.label?.any labels.contains = true ∨ value' = value) :
    orderKey labels row e value' = orderKey labels row e value := by
  rcases h with h | rfl
  · cases hlabel : e.label? with
    | none => simp [hlabel] at h
    | some name =>
      have hmem : name ∈ labels := by simpa [hlabel] using h
      cases hindex : labels.findIdx? (· == name) with
      | none => simpa using List.findIdx?_eq_none_iff.mp hindex name hmem
      | some i => simp [orderKey, hlabel, hindex]
  · rfl

theorem Frame.start_erase : (start : Frame V).erase Level.empty.hidden = start := rfl

mutual

theorem Expr.eval_erase (hdb : Conforms view db) (ctes : List (String × Relation V)) :
    ∀ (e : Expr V) {levels : List Level} {env : Env V}, Fits levels env →
      e.clear view (columnsOf ctes) levels = true →
      e.eval (eraseDatabase view db) ctes (eraseEnv levels env) = e.eval db ctes env
  | .column table name, levels, env, hfit, h => by
      simp only [Expr.clear, Bool.not_eq_true'] at h
      simp [Expr.eval, lookup_erase hfit h]
  | .literal value, levels, env, hfit, h => by simp [Expr.eval]
  | .call function args, levels, env, hfit, h => by
      simp only [Expr.clear] at h
      simp [Expr.eval, evalAll_erase hdb ctes args hfit h]
  | .aggregate function args, [], [], hfit, h => by simp [Expr.eval, eraseEnv]
  | .aggregate function args, level :: levels, frame :: env, hfit, h => by
      simp only [Expr.clear] at h
      obtain ⟨hscope, hrest⟩ := List.cons.inj hfit
      have hrow : ∀ row, evalAll (eraseDatabase view db) ctes
          (⟨frame.scope, [eraseJoined level.hidden row]⟩ :: eraseEnv levels env) args =
          evalAll db ctes (⟨frame.scope, [row]⟩ :: env) args := by
        intro row
        have hat : Fits (level :: levels) (⟨frame.scope, [row]⟩ :: env) := Fits.cons hrest hscope
        exact evalAll_erase hdb ctes args hat h
      simp only [Expr.eval, eraseEnv, erase]
      rw [mapM_map_same (eraseJoined level.hidden) hrow]
  | .nested use args query, levels, env, hfit, h => by
      simp only [Expr.clear, Bool.and_eq_true] at h
      simp [Expr.eval, evalAll_erase hdb ctes args hfit h.1, query.rows_erase hdb ctes hfit h.2]

theorem evalAll_erase (hdb : Conforms view db) (ctes : List (String × Relation V)) :
    ∀ (es : List (Expr V)) {levels : List Level} {env : Env V}, Fits levels env →
      clearAll view (columnsOf ctes) levels es = true →
      evalAll (eraseDatabase view db) ctes (eraseEnv levels env) es = evalAll db ctes env es
  | [], levels, env, hfit, h => by simp [evalAll]
  | e :: es, levels, env, hfit, h => by
      simp only [clearAll, Bool.and_eq_true] at h
      simp [evalAll, e.eval_erase hdb ctes hfit h.1, evalAll_erase hdb ctes es hfit h.2]

theorem evalOrder_erase (hdb : Conforms view db) (ctes : List (String × Relation V))
    (labels : List String) (row : List V) :
    ∀ (es : List (Expr V)) {levels : List Level} {env : Env V}, Fits levels env →
      clearOrder view (columnsOf ctes) levels labels es = true →
      evalOrder (eraseDatabase view db) ctes (eraseEnv levels env) labels row es =
        evalOrder db ctes env labels row es
  | [], levels, env, hfit, h => by simp [evalOrder]
  | e :: es, levels, env, hfit, h => by
      simp only [clearOrder, Bool.and_eq_true, Bool.or_eq_true] at h
      have hkey : orderKey labels row e (e.eval (eraseDatabase view db) ctes (eraseEnv levels env)) =
          orderKey labels row e (e.eval db ctes env) :=
        orderKey_congr (h.1.imp_right fun h => e.eval_erase hdb ctes hfit h)
      simp [evalOrder, hkey, evalOrder_erase hdb ctes labels row es hfit h.2]

theorem Source.rows_erase (hdb : Conforms view db) (ctes : List (String × Relation V)) :
    ∀ (source : Source V) {levels : List Level} {env : Env V}, Fits levels env →
      source.clear view (columnsOf ctes) levels = true →
      source.rows (eraseDatabase view db) ctes (eraseEnv levels env) =
        (source.rows db ctes env).map (List.map (eraseRow (source.flags view)))
  | .table schema name label aliases, levels, env, hfit, h => by
      by_cases hschema : schema = ""
      · simp only [Source.rows, hschema, if_true, Source.flags]
        cases ctes.lookup name <;> simp [orRaise, Except.map]
      · simp only [Source.clear, hschema, decide_false, Bool.false_or] at h
        simp only [Source.rows, hschema, if_false, Source.flags, table_rows_erase hdb h]
        cases (db schema name).map Relation.rows <;> rfl
  | .derived query label aliases, levels, env, hfit, h => by
      simp only [Source.clear] at h
      simp only [Source.rows, query.rows_erase hdb ctes hfit h, Source.flags]
      cases query.rows db ctes env <;> simp [Except.map]

theorem joinAll_erase (hdb : Conforms view db) (ctes : List (String × Relation V)) :
    ∀ (joins : List (Join V)) {levels : List Level} {env : Env V} {level : Level}
      {before : Frame V}, Fits levels env → before.scope = level.scope →
      clearJoins view (columnsOf ctes) levels level joins = true →
      joinAll (eraseDatabase view db) ctes (eraseEnv levels env) (before.erase level.hidden) joins =
        (joinAll db ctes env before joins).map (erase (hiddenAll view joins level.hidden))
  | [], levels, env, level, before, hfit, hscope, h => by
      simp [joinAll, hiddenAll, Except.map]
  | .mk side natural shared source on :: joins, levels, env, level, before, hfit, hscope, h => by
      simp only [clearJoins, Bool.and_eq_true] at h
      have hclear : source.clear view (columnsOf ctes) levels = true := by
        have hjoin := h.1
        simp only [clear, Bool.and_eq_true] at hjoin
        exact hjoin.1
      have hrows := rows_erase hdb hscope h.1 (source.rows_erase hdb ctes hfit hclear)
        fun inner frame hframe hon => evalAll_erase hdb ctes on (hfit.cons hframe) hon
      simp only [joinAll, hrows, hiddenAll, Join.source]
      cases hjoin : (mk side natural shared source on).rows db ctes env before with
      | error e => rfl
      | ok frame =>
        obtain ⟨next, hnext, hframe, hflags⟩ := rows_scope hdb hscope h.1 hjoin
        simp only [hnext] at h
        have hrest := joinAll_erase hdb ctes joins hfit hframe h.2
        rw [hflags] at hrest
        exact hrest

theorem withAll_erase (hdb : Conforms view db) :
    ∀ (withs : List (Cte V)) (ctes : List (String × Relation V)) {levels : List Level} {env : Env V},
      Fits levels env → clearWiths view (columnsOf ctes) levels withs = true →
      withAll (eraseDatabase view db) ctes (eraseEnv levels env) withs = withAll db ctes env withs
  | [], ctes, levels, env, hfit, h => by simp [withAll]
  | .mk name aliases query :: withs, ctes, levels, env, hfit, h => by
      simp only [clearWiths, Bool.and_eq_true] at h
      simp only [withAll, query.rows_erase hdb ctes hfit h.1]
      cases hcolumns : rename aliases query.labels with
      | none => rfl
      | some columns =>
        simp only [orRaise, bind, Except.bind]
        cases query.rows db ctes env with
        | error e => rfl
        | ok rows =>
          rw [hcolumns] at h
          exact withAll_erase hdb withs _ hfit h.2

theorem Query.rows_erase (hdb : Conforms view db) (ctes : List (String × Relation V)) :
    ∀ (query : Query V) {levels : List Level} {env : Env V}, Fits levels env →
      query.clear view (columnsOf ctes) levels = true →
      query.rows (eraseDatabase view db) ctes (eraseEnv levels env) = query.rows db ctes env
  | .everything query label limit, levels, env, hfit, h => by
      simp only [Query.clear] at h
      simp [Query.rows, query.rows_erase hdb ctes hfit h]
  | .combine withs kind all left right order tail, levels, env, hfit, h => by
      simp only [Query.clear, Bool.and_eq_true] at h
      obtain ⟨⟨hwiths, hleft⟩, hright⟩ := h
      simp only [Query.rows, withAll_erase hdb withs ctes hfit hwiths]
      cases hctes : withAll db ctes env withs with
      | error e => rfl
      | ok inner =>
        rw [← withAll_columns hctes] at hleft hright
        simp [bind, Except.bind, left.rows_erase hdb inner hfit hleft,
          right.rows_erase hdb inner hfit hright]
  | .select withs distinct projections labels sources filter groups having order tail, levels, env,
      hfit, h => by
      simp only [Query.clear, Bool.and_eq_true] at h
      obtain ⟨⟨hwiths, hsources⟩, hparts⟩ := h
      simp only [Query.rows, withAll_erase hdb withs ctes hfit hwiths]
      cases hctes : withAll db ctes env withs with
      | error e => rfl
      | ok inner =>
        rw [← withAll_columns hctes] at hsources hparts
        have hjoins := joinAll_erase hdb inner sources hfit start_scope hsources
        rw [start_erase] at hjoins
        simp only [bind, Except.bind, hjoins]
        cases hframe : joinAll db inner env .start sources with
        | error e => rfl
        | ok frame =>
          obtain ⟨level, hlevel, hscope, hhidden⟩ :=
            joinAll_scope hdb start_scope hsources hframe
          simp only [hlevel, Bool.and_eq_true] at hparts
          obtain ⟨⟨⟨⟨hprojections, hfilter⟩, hgroups⟩, hhaving⟩, horder⟩ := hparts
          have hat : ∀ group, Fits (level :: levels) (⟨frame.scope, group⟩ :: env) :=
            fun group => hfit.cons hscope
          refine Eq.trans ?_ (except_map_map_id _)
          simp only [Except.map, erase, ← hhidden]
          refine runSelect_map (eraseJoined level.hidden) id (fun row => ?_) (fun row => ?_)
            (fun group => ?_) (fun group => ?_) (fun _ => rfl) frame.rows
          · exact congrArg (Except.map _) (evalAll_erase hdb inner filter (hat [row]) hfilter)
          · exact evalAll_erase hdb inner groups (hat [row]) hgroups
          · exact congrArg (Except.map _) (evalAll_erase hdb inner having (hat group) hhaving)
          · have hrow := evalAll_erase hdb inner projections (hat group) hprojections
            have hkeys := fun row =>
              evalOrder_erase hdb inner labels row order (hat group) horder
            simp only [eraseEnv, erase] at hrow hkeys
            simp only [hrow, hkeys]
            cases evalAll db inner (⟨frame.scope, group⟩ :: env) projections with
            | error e => rfl
            | ok row =>
              dsimp only
              cases evalOrder db inner (⟨frame.scope, group⟩ :: env) labels row order <;> rfl

end

end Sql
