import SuperMew.Library.Sql.Noninterference

/-! A query whose only hidden columns are columns of its result, as they are. -/

namespace Sql

variable {V : Type}

def Expr.direct : Expr V → Bool
  | .column (some _) _ => true
  | _ => false

/-- The expression is a hidden column itself. -/
def Expr.masked (levels : List Level) : Expr V → Bool
  | .column (some table) name => hides levels (some table) name
  | _ => false

def Query.mask (view : View) : Query V → List Bool
  | .select withs _ projections _ sources _ _ _ _ _ =>
    match levelOf view (withColumns [] withs) .empty sources with
    | some level => projections.map (Expr.masked [level])
    | none => []
  | _ => []

/-- The key is not a hidden column of the result. -/
def clearLabel (labels : List String) (mask : List Bool) (e : Expr V) : Bool :=
  (e.label?.bind fun name => labels.findIdx? (· == name)).all fun i => !(mask[i]?.getD false)

/-- The query refers to hidden columns only to return them. -/
def Query.clearBut (view : View) : Query V → Bool
  | .select withs distinct projections labels sources filter groups having order _ =>
    clearWiths view [] [] withs && clearJoins view (withColumns [] withs) [] .empty sources &&
      match levelOf view (withColumns [] withs) .empty sources with
      | none => true
      | some level =>
        projections.all (fun e => e.direct || e.clear view (withColumns [] withs) [level]) &&
          clearAll view (withColumns [] withs) [level] filter &&
          clearAll view (withColumns [] withs) [level] groups &&
          clearAll view (withColumns [] withs) [level] having &&
          clearOrder view (withColumns [] withs) [level] labels order &&
          order.all (clearLabel labels (projections.map (Expr.masked [level]))) &&
          (!distinct || !projections.any (Expr.masked [level]))
  | query => query.clear view [] []

variable {view : View} {db : Database V}

theorem resolve_qualified {scope : Scope} {table name : String} {places : List (ℕ × ℕ)}
    (h : scope.resolve (some table) name = .ok places) : ∃ place, places = [place] := by
  unfold Scope.resolve at h
  split at h
  · cases h
  · rename_i place _
    exact ⟨place, (Except.ok.inj h).symm⟩
  · simp at h

variable [Engine V]

/-! ## The parts of a `SELECT` -/

variable {level : Level} {frame : Frame V} {ctes : List (String × Relation V)} {mask : List Bool}

theorem lookup_masked (hscope : frame.scope = level.scope) (table name : String) :
    Env.lookup [frame.erase level.hidden] (some table) name =
      (Env.lookup [frame] (some table) name).map fun v =>
        if hides [level] (some table) name then Engine.null else v := by
  simp only [Env.lookup, hides, Frame.erase, hscope]
  split
  · cases hresolve : level.scope.resolve (some table) name with
    | error e => rfl
    | ok places =>
      obtain ⟨place, rfl⟩ := resolve_qualified hresolve
      simp only [Except.map, headD_map_erase, pick_eraseJoined_single, List.any_cons,
        List.any_nil, Bool.or_false]
  · rfl

theorem eval_masked (hdb : Conforms view db) (hscope : frame.scope = level.scope) {e : Expr V}
    (h : e.direct = true ∨ e.clear view (columnsOf ctes) [level] = true) :
    e.eval (eraseDatabase view db) ctes [frame.erase level.hidden] =
      (e.eval db ctes [frame]).map fun v => if e.masked [level] then Engine.null else v := by
  have hfit : Fits [level] [frame] := by simp [Fits, hscope]
  have hclear : e.clear view (columnsOf ctes) [level] = true → e.masked [level] = false →
      e.eval (eraseDatabase view db) ctes [frame.erase level.hidden] =
        (e.eval db ctes [frame]).map fun v => if e.masked [level] then Engine.null else v := by
    intro hclear hmasked
    simp only [hmasked, Bool.false_eq_true, if_false, except_map_id]
    exact e.eval_erase hdb ctes hfit hclear
  cases e with
  | column table name =>
    cases table with
    | none =>
      rcases h with h | h
      · cases h
      · exact hclear h rfl
    | some table =>
      simp only [Expr.eval, Expr.masked]
      exact lookup_masked hscope table name
  | literal value => exact hclear rfl rfl
  | call function args | aggregate function args | nested use args query =>
    exact hclear (h.resolve_left (by simp [Expr.direct])) rfl

variable {es : List (Expr V)}

theorem evalAll_masked (hdb : Conforms view db) (hscope : frame.scope = level.scope)
    (h : ∀ e ∈ es, e.direct = true ∨ e.clear view (columnsOf ctes) [level] = true) :
    evalAll (eraseDatabase view db) ctes [frame.erase level.hidden] es =
      (evalAll db ctes [frame] es).map (eraseRow (es.map (Expr.masked [level]))) := by
  induction es with
  | nil => simp [evalAll, Except.map]
  | cons e es ih =>
    have hfirst := eval_masked hdb hscope (h e List.mem_cons_self)
    have hrest := ih fun e he => h e (List.mem_cons_of_mem _ he)
    simp only [evalAll, hfirst, hrest]
    cases e.eval db ctes [frame] with
    | error e => rfl
    | ok v => cases evalAll db ctes [frame] es <;> rfl

variable {labels : List String}

theorem orderKey_mask {e : Expr V}
    (h : clearLabel labels mask e = true) (row : List V) (value : Except SqlError V) :
    orderKey labels (eraseRow mask row) e value = orderKey labels row e value := by
  unfold orderKey
  unfold clearLabel at h
  cases hindex : e.label?.bind fun name => labels.findIdx? (· == name) with
  | none => rfl
  | some i =>
    simp only [hindex, Option.all_some, Bool.not_eq_true'] at h
    simp [eraseRow_getElem?, h]

theorem evalOrder_masked (hdb : Conforms view db) (hscope : frame.scope = level.scope)
    (h : clearOrder view (columnsOf ctes) [level] labels es = true)
    (hlabels : es.all (clearLabel labels mask) = true) (row : List V) :
    evalOrder (eraseDatabase view db) ctes [frame.erase level.hidden] labels (eraseRow mask row) es =
      evalOrder db ctes [frame] labels row es := by
  have hfit : Fits [level] [frame] := by simp [Fits, hscope]
  induction es with
  | nil => simp only [evalOrder]
  | cons e es ih =>
    simp only [clearOrder, Bool.and_eq_true, Bool.or_eq_true] at h
    simp only [List.all_cons, Bool.and_eq_true] at hlabels
    have hkey : orderKey labels (eraseRow mask row) e
        (e.eval (eraseDatabase view db) ctes [frame.erase level.hidden]) =
        orderKey labels row e (e.eval db ctes [frame]) := by
      rw [orderKey_mask hlabels.1]
      exact orderKey_congr (h.1.imp_right fun h => e.eval_erase hdb ctes hfit h)
    simp only [evalOrder, hkey, ih h.2 hlabels.2]

theorem eraseRow_unmasked (h : mask.any id = false) (row : List V) : eraseRow mask row = row := by
  induction mask generalizing row with
  | nil => simp
  | cons flag mask ih =>
    simp only [List.any_cons, id_eq, Bool.or_eq_false_iff] at h
    cases row with
    | nil => rfl
    | cons v row => simp [eraseRow, h.1, ih h.2]

/-- Erasing the hidden columns of the database erases them in the result, and changes
nothing else. -/
theorem Query.rows_masked (hdb : Conforms view db) {query : Query V}
    (h : query.clearBut view = true) :
    query.rows (eraseDatabase view db) [] [] =
      (query.rows db [] []).map (List.map (eraseRow (query.mask view))) := by
  have hfit : Fits [] ([] : Env V) := rfl
  have hplain : query.clear view [] [] = true → query.mask view = [] →
      query.rows (eraseDatabase view db) [] [] =
        (query.rows db [] []).map (List.map (eraseRow (query.mask view))) := by
    intro hclear hmask
    have hsame : query.rows (eraseDatabase view db) [] [] = query.rows db [] [] :=
      query.rows_erase hdb [] hfit hclear
    rw [hsame, hmask]
    cases query.rows db [] [] <;> simp [Except.map]
  cases query with
  | everything query label limit | combine withs kind all left right order tail =>
    exact hplain h rfl
  | select withs distinct projections labels sources filter groups having order tail =>
    simp only [Query.clearBut, Bool.and_eq_true] at h
    obtain ⟨⟨hwiths, hsources⟩, hparts⟩ := h
    have hinner : withAll (eraseDatabase view db) [] [] withs = withAll db [] [] withs :=
      withAll_erase hdb withs [] hfit hwiths
    simp only [Query.rows, hinner, Query.mask]
    cases hctes : withAll db [] [] withs with
    | error e => rfl
    | ok inner =>
      have hcolumns : columnsOf inner = withColumns [] withs := withAll_columns hctes
      rw [← hcolumns] at hsources hparts ⊢
      have hjoins : joinAll (eraseDatabase view db) inner [] .start sources =
          (joinAll db inner [] .start sources).map
            (Frame.erase (hiddenAll view sources Level.empty.hidden)) :=
        joinAll_erase hdb inner sources hfit Frame.start_scope hsources
      simp only [bind, Except.bind, hjoins]
      cases hframe : joinAll db inner [] .start sources with
      | error e => rfl
      | ok frame =>
        obtain ⟨level, hlevel, hscope, hhidden⟩ :=
          joinAll_scope hdb Frame.start_scope hsources hframe
        simp only [hlevel, Bool.and_eq_true] at hparts ⊢
        obtain ⟨⟨⟨⟨⟨⟨hprojections, hfilter⟩, hgroups⟩, hhaving⟩, horder⟩, hlabels⟩,
          hdistinct⟩ := hparts
        have hat : ∀ group : List (List (List V)), Fits [level] [⟨frame.scope, group⟩] :=
          fun group => by simp [Fits, hscope]
        simp only [Except.map, Frame.erase, ← hhidden]
        refine runSelect_map (eraseJoined level.hidden)
          (eraseRow (projections.map (Expr.masked [level]))) (fun row => ?_) (fun row => ?_)
          (fun group => ?_) (fun group => ?_) (fun hd => ?_) frame.rows
        · exact congrArg (Except.map _) (evalAll_erase hdb inner filter (hat [row]) hfilter)
        · exact evalAll_erase hdb inner groups (hat [row]) hgroups
        · exact congrArg (Except.map _) (evalAll_erase hdb inner having (hat group) hhaving)
        · have hclears : ∀ e ∈ projections,
              e.direct = true ∨ e.clear view (columnsOf inner) [level] = true := by
            simpa only [List.all_eq_true, Bool.or_eq_true] using hprojections
          have hframe : (⟨frame.scope, group⟩ : Frame V).scope = level.scope := hscope
          have hrow := evalAll_masked hdb hframe hclears
          have hkeys := evalOrder_masked hdb hframe horder hlabels
          simp only [Frame.erase] at hrow hkeys
          simp only [hrow]
          cases evalAll db inner [⟨frame.scope, group⟩] projections with
          | error e => rfl
          | ok row =>
            simp only [Except.map, hkeys]
            cases evalOrder db inner [⟨frame.scope, group⟩] labels row order <;> rfl
        · have hunmasked : (projections.map (Expr.masked [level])).any id = false := by
            simpa [hd, List.any_map] using hdistinct
          exact funext (eraseRow_unmasked hunmasked)

end Sql
