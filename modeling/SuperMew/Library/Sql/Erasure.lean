import SuperMew.Library.Sql.Semantics

/-! Hidden columns. A query that refers to none of them returns the same rows when their
cells are erased. -/

namespace Sql

open List Engine

variable {V : Type} [Engine V]

/-! ## Cells and rows -/

def eraseRow : List Bool → List V → List V
  | hidden :: flags, v :: row => (if hidden then null else v) :: eraseRow flags row
  | [], row => row
  | _ :: _, [] => []

def eraseJoined : List (List Bool) → List (List V) → List (List V)
  | flags :: hidden, row :: rows => eraseRow flags row :: eraseJoined hidden rows
  | [], rows => rows
  | _ :: _, [] => []

variable (hidden : List (List Bool))

def hiddenAt (place : ℕ × ℕ) : Bool :=
  ((hidden[place.1]?.getD [])[place.2]?).getD false

@[simp] theorem eraseRow_nil_flags (row : List V) : eraseRow [] row = row := by
  cases row <;> rfl

@[simp] theorem map_eraseRow_nil_flags (rows : List (List V)) : rows.map (eraseRow []) = rows := by
  simp [map_congr_left fun row _ => eraseRow_nil_flags row]

@[simp] theorem eraseJoined_empty : eraseJoined hidden ([] : List (List V)) = [] := by
  cases hidden <;> rfl

theorem eraseRow_getElem? (flags : List Bool) (row : List V) (j : ℕ) :
    (eraseRow flags row)[j]? = row[j]?.map fun v => if flags[j]?.getD false then null else v := by
  induction flags generalizing row j with
  | nil => simp
  | cons flag flags ih =>
    cases row with
    | nil => simp [eraseRow]
    | cons v row =>
      cases j with
      | zero => simp [eraseRow]
      | succ j => simp [eraseRow, ih]

theorem eraseJoined_getElem? (rows : List (List V)) (i : ℕ) :
    (eraseJoined hidden rows)[i]? = rows[i]?.map (eraseRow (hidden[i]?.getD [])) := by
  induction hidden generalizing rows i with
  | nil => cases h : rows[i]? <;> simp [eraseJoined, h]
  | cons flags hidden ih =>
    cases rows with
    | nil => simp
    | cons row rows =>
      cases i with
      | zero => simp [eraseJoined]
      | succ i => simp [eraseJoined, ih]

theorem cell_eraseJoined (row : List (List V)) (place : ℕ × ℕ) :
    cell (eraseJoined hidden row) place =
      if hiddenAt hidden place then null else cell row place := by
  simp only [cell, eraseJoined_getElem?]
  cases row[place.1]? with
  | none => simp
  | some r =>
    simp only [Option.map_some, Option.getD_some, eraseRow_getElem?]
    by_cases h : hiddenAt hidden place = true
    · rw [if_pos h]
      rw [hiddenAt] at h
      cases r[place.2]? <;> simp [h]
    · rw [if_neg h]
      rw [hiddenAt] at h
      cases r[place.2]? <;> simp [h]

theorem pick_eraseJoined {hidden : List (List Bool)} {places : List (ℕ × ℕ)}
    (h : places.any (hiddenAt hidden) = false) (row : List (List V)) :
    pick (eraseJoined hidden row) places = pick row places := by
  have hcells : places.map (cell (eraseJoined hidden row)) = places.map (cell row) := by
    refine map_congr_left fun place hplace => ?_
    have hshown := any_eq_false.mp h place hplace
    rw [cell_eraseJoined, if_neg hshown]
  rw [pick, pick, hcells]

theorem pick_eraseJoined_single (place : ℕ × ℕ)
    (row : List (List V)) : pick (eraseJoined hidden row) [place] =
      if hiddenAt hidden place then null else pick row [place] := by
  simp [pick, coalesce, cell_eraseJoined]

theorem eraseRow_blank (flags : List Bool) (columns : List String) :
    eraseRow flags (blankRow columns : List V) = blankRow columns := by
  induction flags generalizing columns with
  | nil => simp
  | cons flag flags ih =>
    cases columns with
    | nil => rfl
    | cons column columns =>
      have hrest := ih columns
      simp only [blankRow, length_cons, replicate_succ, eraseRow, ite_self] at hrest ⊢
      rw [hrest]

theorem eraseJoined_blank (sources : List (String × List String)) :
    eraseJoined hidden (sources.map fun source => (blankRow source.2 : List V)) =
      sources.map fun source => blankRow source.2 := by
  induction hidden generalizing sources with
  | nil => simp [eraseJoined]
  | cons flags hidden ih => cases sources <;> simp [eraseJoined, ih, eraseRow_blank]

/-! ## What commutes with a map of the rows -/

section Maps

omit [Engine V]

variable {α β ε : Type}

theorem except_map_id (x : Except ε α) : x.map (fun a => a) = x := by
  cases x <;> rfl

theorem except_map_map_id (x : Except ε (List α)) : x.map (List.map id) = x := by
  cases x <;> simp [Except.map]

theorem keep_map {test : α → Except ε Bool} {test' : β → Except ε Bool} (f : α → β)
    (h : ∀ a, test' (f a) = test a) (l : List α) :
    keep test' (l.map f) = (keep test l).map (List.map f) := by
  induction l with
  | nil => rfl
  | cons a l ih =>
    simp only [map_cons, keep, h, ih]
    cases test a with
    | error e => rfl
    | ok taken =>
      cases keep test l with
      | error e => rfl
      | ok rest => cases taken <;> rfl

theorem mapM_map_eq {γ δ : Type} {f : α → Except ε γ} {f' : β → Except ε δ} (g : α → β)
    (out : γ → δ) (h : ∀ a, f' (g a) = (f a).map out) (l : List α) :
    (l.map g).mapM f' = (l.mapM f).map (List.map out) := by
  induction l with
  | nil => rfl
  | cons a l ih =>
    rw [map_cons, mapM_cons, mapM_cons, ih, h]
    cases f a with
    | error e => rfl
    | ok b => cases l.mapM f <;> rfl

theorem mapM_map_same {γ : Type} {f : α → Except ε γ} {f' : β → Except ε γ} (g : α → β)
    (h : ∀ a, f' (g a) = f a) (l : List α) : (l.map g).mapM f' = l.mapM f := by
  rw [mapM_map_eq g (fun c => c) (fun a => (h a).trans (except_map_id _).symm)]
  cases l.mapM f <;> simp [Except.map]

theorem insertGroup_map (same : List V → List V → Bool) (f : α → β) (key : List V) (row : α)
    (groups : List (List V × List α)) :
    insertGroup same key (f row) (groups.map fun g => (g.1, g.2.map f)) =
      (insertGroup same key row groups).map fun g => (g.1, g.2.map f) := by
  induction groups with
  | nil => rfl
  | cons group groups ih =>
    simp only [map_cons, insertGroup]
    split
    · simp
    · simp [ih]

theorem groupRows_map (same : List V → List V → Bool) (f : α → β) (keyed : List (List V × α)) :
    groupRows same (keyed.map fun row => (row.1, f row.2)) =
      (groupRows same keyed).map (List.map f) := by
  have hfold : ∀ groups : List (List V × List α), (keyed.map fun row => (row.1, f row.2)).foldl
        (fun groups row => insertGroup same row.1 row.2 groups)
        (groups.map fun g => (g.1, g.2.map f)) =
      (keyed.foldl (fun groups row => insertGroup same row.1 row.2 groups) groups).map
        fun g => (g.1, g.2.map f) := by
    induction keyed with
    | nil => simp
    | cons row keyed ih =>
      intro groups
      simp [foldl_cons, insertGroup_map, ih]
  have h := hfold []
  simp only [map_nil] at h
  rw [groupRows, h, groupRows, map_map, map_map]
  rfl

theorem Tail.cut_map (tail : Tail) (f : α → β) (rows : List α) :
    tail.cut (rows.map f) = (tail.cut rows).map f := by
  unfold Tail.cut
  split <;> simp

end Maps

theorem sortRows_map (directions : List Direction) (f : List V → List V)
    (entries : List (List V × List V)) :
    sortRows directions (entries.map fun e => (f e.1, e.2)) =
      (sortRows directions entries).map fun e => (f e.1, e.2) := by
  refine (map_insertionSort _ _ _ _ ?_).symm
  intro a _ b _
  rfl

theorem joined_erase (side : Side) (nulls : List (List V)) (blank : List V) (flags : List Bool)
    (hidden : List (List Bool)) (hnulls : eraseJoined hidden nulls = nulls)
    (hblank : eraseRow flags blank = blank) (left : List (List (List V))) (right : List (List V))
    (found : List (List Bool)) :
    joined side nulls blank (left.map (eraseJoined hidden)) (right.map (eraseRow flags)) found =
      (joined side nulls blank left right found).map (eraseJoined (flags :: hidden)) := by
  have hcons : ∀ r l, eraseJoined (flags :: hidden) (r :: l) =
      (eraseRow flags r :: eraseJoined hidden l : List (List V)) := fun _ _ => rfl
  have hpairs : ∀ (l : List (List V)) (row : List Bool),
      ((((right.map (eraseRow flags)).zip row).filter fun r => r.2).map fun r =>
        r.1 :: eraseJoined hidden l) =
      (((right.zip row).filter fun r => r.2).map fun r => r.1 :: l).map
        (eraseJoined (flags :: hidden)) := by
    intro l row
    rw [zip_map_left, filter_map, map_map, map_map]
    rfl
  have hmissing : ((right.map (eraseRow flags)).zipIdx.filter fun r =>
        found.all fun l => !(l[r.2]?.getD false)).map (fun r => r.1 :: nulls) =
      ((right.zipIdx.filter fun r => found.all fun l => !(l[r.2]?.getD false)).map
        fun r => r.1 :: nulls).map (eraseJoined (flags :: hidden)) := by
    rw [zipIdx_map, filter_map, map_map, map_map]
    refine map_congr_left fun r _ => ?_
    simp [Function.comp_apply, hcons, hnulls, Prod.map_fst]
  simp only [joined, map_append]
  congr 1
  · rw [zip_map_left, flatMap_map, map_flatMap]
    refine flatMap_congr fun l _ => ?_
    simp only [Prod.map_fst, Prod.map_snd, id_eq, hpairs, isEmpty_map]
    split
    · simp [hcons, hblank]
    · rfl
  · split
    · exact hmissing
    · rfl

/-- A map of the rows that the parts of a `SELECT` do not see, up to a map of the result. -/
theorem runSelect_map {aggregated distinct whole : Bool} {tail : Tail}
    {filter filter' : List (List V) → Except SqlError Bool}
    {key key' : List (List V) → Except SqlError (List V)}
    {having having' : List (List (List V)) → Except SqlError Bool}
    {project project' : List (List (List V)) → Except SqlError (List V × List V)}
    (f : List (List V) → List (List V)) (out : List V → List V)
    (hfilter : ∀ row, filter' (f row) = filter row) (hkey : ∀ row, key' (f row) = key row)
    (hhaving : ∀ group, having' (group.map f) = having group)
    (hproject : ∀ group, project' (group.map f) = (project group).map fun e => (out e.1, e.2))
    (hdistinct : distinct = true → out = id) (rows : List (List (List V))) :
    runSelect aggregated distinct tail filter' key' whole having' project' (rows.map f) =
      (runSelect aggregated distinct tail filter key whole having project rows).map
        (List.map out) := by
  have hgroups : ∀ (keys : List (List V)) (rows : List (List (List V))), (if whole then [rows.map f]
        else if aggregated then groupRows same (keys.zip (rows.map f))
        else (rows.map f).map fun row => [row]) =
      (if whole then [rows] else if aggregated then groupRows same (keys.zip rows)
        else rows.map fun row => [row]).map (List.map f) := by
    intro keys rows
    split
    · rfl
    · split
      · rw [zip_map_right, ← groupRows_map]
        rfl
      · simp
  have hentries : ∀ entries : List (List V × List V),
      (if distinct then firsts (fun a b => same a.1 b.1)
          (entries.map fun e => (out e.1, e.2))
        else entries.map fun e => (out e.1, e.2)) =
      (if distinct then firsts (fun a b => same a.1 b.1) entries else entries).map
        fun e => (out e.1, e.2) := by
    intro entries
    split
    · rename_i h
      simp [hdistinct h]
    · rfl
  simp only [runSelect, keep_map f hfilter]
  cases keep filter rows with
  | error e => rfl
  | ok kept =>
    simp only [Except.map, bind, Except.bind, mapM_map_same f hkey]
    cases kept.mapM key with
    | error e => rfl
    | ok keys =>
      simp only [hgroups, keep_map (List.map f) hhaving]
      cases keep having _ with
      | error e => rfl
      | ok groups =>
        simp only [Except.map, mapM_map_eq (List.map f) _ hproject]
        cases groups.mapM project with
        | error e => rfl
        | ok entries =>
          simp only [hentries, sortRows_map, pure, Except.pure]
          rw [map_map, ← Tail.cut_map, map_map]
          rfl

end Sql
