import SuperMew.WebResearch.Canonical

/-! The paths of canonical URLs: which of their segments are left. -/

namespace SuperMew.WebResearch

open List

/-! ## Segments -/

def fromRoot (segments : List Chars) : Chars := segments.flatMap ('/' :: ·)

def IsDot (segment : Chars) : Prop := segment = ['.'] ∨ segment = ['.', '.']

instance (segment : Chars) : Decidable (IsDot segment) :=
  inferInstanceAs (Decidable (segment = ['.'] ∨ segment = ['.', '.']))

def endSlash (last : Bool) : List Chars := if last then [[]] else []

def pushSegment (stack : List Chars) (segment : Chars) (last : Bool) : List Chars :=
  if segment = ['.'] then stack ++ endSlash last
  else if segment = ['.', '.'] then stack.dropLast ++ endSlash last
  else stack ++ [segment]

def keptSegments (stack : List Chars) : List Chars → List Chars
  | [] => stack
  | segment :: rest => keptSegments (pushSegment stack segment rest.isEmpty) rest

/-- What a path that begins at the root leads to. -/
def keptPath (path : Chars) : Chars :=
  fromRoot (keptSegments [] (splitAt '/' path.tail))

@[simp] theorem fromRoot_cons (segment : Chars) (rest : List Chars) :
    fromRoot (segment :: rest) = '/' :: (segment ++ fromRoot rest) := rfl

theorem fromRoot_append (front rest : List Chars) :
    fromRoot (front ++ rest) = fromRoot front ++ fromRoot rest :=
  flatMap_append

theorem fromRoot_splitAt (text : Chars) : fromRoot (splitAt '/' text) = '/' :: text := by
  induction text with
  | nil => rfl
  | cons c rest ih =>
    rw [splitAt]
    by_cases hc : c = '/'
    · rw [if_pos hc, fromRoot_cons, ih, hc]
      rfl
    · rw [if_neg hc]
      cases hsplit : splitAt '/' rest with
      | nil => exact absurd hsplit (splitAt_ne_nil '/' rest)
      | cons part parts =>
        rw [hsplit, fromRoot_cons] at ih
        rw [fromRoot_cons, cons_append, List.cons.inj ih |>.2]

theorem not_mem_of_mem_splitAt {c : Char} {text part : Chars} (h : part ∈ splitAt c text) :
    c ∉ part := by
  induction text generalizing part with
  | nil =>
    rw [mem_singleton.mp h]
    simp
  | cons d rest ih =>
    rw [splitAt] at h
    split at h
    · rcases mem_cons.mp h with rfl | hrest
      · simp
      · exact ih hrest
    · rename_i hd
      split at h
      · rw [mem_singleton.mp h]
        simpa using Ne.symm hd
      · rename_i first parts hsplit
        rw [hsplit] at ih
        rcases mem_cons.mp h with rfl | hrest
        · simpa [Ne.symm hd] using ih mem_cons_self
        · exact ih (mem_cons_of_mem _ hrest)

theorem splitAt_append {c : Char} {front rest : Chars} {parts : List Chars} (hfront : c ∉ front)
    (h : splitAt c rest = [] :: parts) : splitAt c (front ++ rest) = front :: parts := by
  induction front with
  | nil => exact h
  | cons d front ih =>
    simp only [mem_cons, not_or] at hfront
    rw [cons_append, splitAt, if_neg (Ne.symm hfront.1), ih hfront.2]

section Segments

variable {stack segments : List Chars}

theorem splitAt_fromRoot (h : ∀ segment ∈ segments, '/' ∉ segment) :
    splitAt '/' (fromRoot segments) = [] :: segments := by
  induction segments with
  | nil => rfl
  | cons segment rest ih =>
    obtain ⟨hsegment, hrest⟩ := forall_mem_cons.mp h
    rw [fromRoot_cons, splitAt, if_pos rfl, splitAt_append hsegment (ih hrest)]

theorem pushSegment_of_not_isDot {segment : Chars} (h : ¬ IsDot segment) (last : Bool) :
    pushSegment stack segment last = stack ++ [segment] := by
  rw [IsDot, not_or] at h
  rw [pushSegment, if_neg h.1, if_neg h.2]

theorem pushSegment_forall {P : Chars → Prop} (hnil : P []) (hstack : ∀ segment ∈ stack, P segment)
    {segment : Chars} (h : ¬ IsDot segment → P segment) (last : Bool) :
    ∀ other ∈ pushSegment stack segment last, P other := by
  have hslash : ∀ other ∈ endSlash last, P other := by
    cases last <;> simp [endSlash, hnil]
  have hdrop : ∀ other ∈ stack.dropLast, P other :=
    fun other hother => hstack other (mem_of_mem_dropLast hother)
  unfold pushSegment
  split_ifs with hdot hdots
  · exact forall_mem_append.mpr ⟨hstack, hslash⟩
  · exact forall_mem_append.mpr ⟨hdrop, hslash⟩
  · exact forall_mem_append.mpr ⟨hstack, by simpa using h (by simp [IsDot, hdot, hdots])⟩

theorem keptSegments_forall {P : Chars → Prop} (hnil : P [])
    (hstack : ∀ segment ∈ stack, P segment)
    (h : ∀ segment ∈ segments, ¬ IsDot segment → P segment) :
    ∀ segment ∈ keptSegments stack segments, P segment := by
  induction segments generalizing stack with
  | nil => exact hstack
  | cons segment rest ih =>
    obtain ⟨hsegment, hrest⟩ := forall_mem_cons.mp h
    exact ih (pushSegment_forall hnil hstack hsegment _) hrest

theorem keptSegments_of_not_isDot (h : ∀ segment ∈ segments, ¬ IsDot segment) :
    keptSegments stack segments = stack ++ segments := by
  induction segments generalizing stack with
  | nil => simp [keptSegments]
  | cons segment rest ih =>
    obtain ⟨hsegment, hrest⟩ := forall_mem_cons.mp h
    rw [keptSegments, pushSegment_of_not_isDot hsegment, ih hrest, append_assoc,
      singleton_append]

theorem keptSegments_ne_nil (h : segments ≠ []) : keptSegments stack segments ≠ [] := by
  induction segments generalizing stack with
  | nil => exact absurd rfl h
  | cons segment rest ih =>
    cases rest with
    | nil =>
      simp only [keptSegments, pushSegment]
      split_ifs <;> simp [endSlash]
    | cons next rest => exact ih (cons_ne_nil _ _)

/-! ## The loop -/

/-- What is before the last slash are the segments before the last one. -/
theorem beforeLast_fromRoot (h : ∀ segment ∈ stack, '/' ∉ segment) :
    beforeLast '/' (fromRoot stack) = fromRoot stack.dropLast := by
  rcases eq_nil_or_concat' stack with rfl | ⟨front, last, rfl⟩
  · rfl
  · have hlast : ∀ c ∈ last.reverse, (c != '/') = true := by
      intro c hc
      simp only [bne_iff_ne, ne_eq]
      rintro rfl
      exact h last (by simp) (mem_reverse.mp hc)
    have hstop : ('/' != '/') = false := by decide
    have hdrop : (last.reverse ++ '/' :: (fromRoot front).reverse).dropWhile (· != '/') =
        '/' :: (fromRoot front).reverse := (takeWhile_stop hlast hstop).2
    rw [fromRoot_append, fromRoot_cons, show fromRoot [] = [] from rfl, append_nil, beforeLast,
      reverse_append, reverse_cons, append_assoc, singleton_append, hdrop,
      tail_cons, reverse_reverse, dropLast_concat]

theorem takeWhile_segment {segment : Chars} (h : '/' ∉ segment) (rest : List Chars) :
    (segment ++ fromRoot rest).takeWhile (· != '/') = segment ∧
      (segment ++ fromRoot rest).dropWhile (· != '/') = fromRoot rest := by
  have hplain : ∀ c ∈ segment, (c != '/') = true := by
    intro c hc
    simp only [bne_iff_ne, ne_eq]
    rintro rfl
    exact h hc
  cases rest with
  | nil =>
    rw [show fromRoot [] = [] from rfl, append_nil]
    exact ⟨takeWhile_eq_self_iff.mpr hplain, dropWhile_eq_nil_iff.mpr hplain⟩
  | cons next rest => exact takeWhile_stop hplain (by decide)

theorem dropDotSegments_segment {output segment : Chars} {rest : List Chars}
    (hslash : '/' ∉ segment) (hdot : ¬ IsDot segment) :
    dropDotSegments output ('/' :: (segment ++ fromRoot rest)) =
      dropDotSegments (output ++ '/' :: segment) (fromRoot rest) := by
  obtain ⟨htake, hdrop⟩ := takeWhile_segment hslash rest
  rw [IsDot, not_or] at hdot
  rw [dropDotSegments.eq_10, htake, hdrop]
  all_goals
    intros
    simp_all

theorem dropDotSegments_slash (stack : List Chars) :
    dropDotSegments (fromRoot stack) ['/'] = dropDotSegments (fromRoot (stack ++ [[]])) [] := by
  rw [fromRoot_append]
  exact @dropDotSegments_segment (fromRoot stack) [] [] not_mem_nil (by simp [IsDot])

/-- One segment is one turn of the loop: the segments of the output are the stack. -/
theorem dropDotSegments_push (hstack : ∀ segment ∈ stack, '/' ∉ segment) {segment : Chars}
    (hsegment : '/' ∉ segment) (rest : List Chars) :
    dropDotSegments (fromRoot stack) (fromRoot (segment :: rest)) =
      dropDotSegments (fromRoot (pushSegment stack segment rest.isEmpty)) (fromRoot rest) := by
  by_cases hdot : IsDot segment
  · rcases hdot with rfl | rfl
    · cases rest with
      | nil => exact (dropDotSegments.eq_5 _).trans (dropDotSegments_slash stack)
      | cons next rest =>
        rw [show pushSegment stack ['.'] (next :: rest).isEmpty = stack from append_nil _]
        exact dropDotSegments.eq_4 _ _
    · have hpop := beforeLast_fromRoot hstack
      cases rest with
      | nil =>
        refine (dropDotSegments.eq_7 _).trans ?_
        rw [hpop]
        exact dropDotSegments_slash _
      | cons next rest =>
        refine (dropDotSegments.eq_6 _ _).trans ?_
        rw [hpop, show pushSegment stack ['.', '.'] (next :: rest).isEmpty = stack.dropLast from
          append_nil _]
        rfl
  · rw [fromRoot_cons, dropDotSegments_segment hsegment hdot, pushSegment_of_not_isDot hdot,
      fromRoot_append]
    simp [fromRoot]

theorem dropDotSegments_fromRoot (hstack : ∀ segment ∈ stack, '/' ∉ segment)
    (hsegments : ∀ segment ∈ segments, '/' ∉ segment) :
    dropDotSegments (fromRoot stack) (fromRoot segments) =
      fromRoot (keptSegments stack segments) := by
  induction segments generalizing stack with
  | nil => simp [fromRoot, dropDotSegments, keptSegments]
  | cons segment rest ih =>
    obtain ⟨hsegment, hrest⟩ := forall_mem_cons.mp hsegments
    have hnext := pushSegment_forall not_mem_nil hstack (fun _ => hsegment) rest.isEmpty
    rw [dropDotSegments_push hstack hsegment, ih hnext hrest, keptSegments]

/-- The path from the root that is left of one from the root. -/
theorem removeDotSegments_fromRoot (hne : segments ≠ []) (h : ∀ segment ∈ segments, '/' ∉ segment) :
    removeDotSegments (fromRoot segments) = fromRoot (keptSegments [] segments) := by
  have hloop : dropDotSegments (fromRoot []) (fromRoot segments) =
      fromRoot (keptSegments [] segments) := dropDotSegments_fromRoot (by simp) h
  have hleft : keptSegments [] segments ≠ [] := keptSegments_ne_nil hne
  obtain ⟨first, rest, hkept⟩ := exists_cons_of_ne_nil hleft
  rw [hkept] at hloop ⊢
  rw [removeDotSegments]
  exact (congrArg (fun output => if output = [] then ['/'] else output) hloop).trans
    (if_neg (cons_ne_nil _ _))

end Segments

/-! ## Paths from the root -/

section Paths

variable {path : Chars}

theorem fromRoot_splitAt_tail (h : path.head? = some '/') :
    fromRoot (splitAt '/' path.tail) = path := by
  obtain ⟨rest, rfl⟩ := head?_eq_some_iff.mp h
  exact fromRoot_splitAt rest

theorem removeDotSegments_eq (h : path.head? = some '/') :
    removeDotSegments path = keptPath path := by
  have hkept := removeDotSegments_fromRoot (splitAt_ne_nil '/' path.tail)
    fun _ => not_mem_of_mem_splitAt
  rwa [fromRoot_splitAt_tail h] at hkept

theorem removeDotSegments_head (h : path.head? = some '/') :
    (removeDotSegments path).head? = some '/' := by
  have hleft : keptSegments [] (splitAt '/' path.tail) ≠ [] :=
    keptSegments_ne_nil (splitAt_ne_nil '/' path.tail)
  obtain ⟨first, rest, hkept⟩ := exists_cons_of_ne_nil hleft
  rw [removeDotSegments_eq h, keptPath, hkept]
  rfl

theorem kept_not_mem (path : Chars) :
    ∀ segment ∈ keptSegments [] (splitAt '/' path.tail), '/' ∉ segment :=
  keptSegments_forall not_mem_nil (by simp) fun _ h _ => not_mem_of_mem_splitAt h

theorem kept_not_isDot (path : Chars) :
    ∀ segment ∈ keptSegments [] (splitAt '/' path.tail), ¬ IsDot segment :=
  keptSegments_forall (by simp [IsDot]) (by simp) fun _ _ hdot => hdot

def NoDots (path : Chars) : Prop := ∀ segment ∈ splitAt '/' path, ¬ IsDot segment

theorem removeDotSegments_noDots (h : path.head? = some '/') : NoDots (removeDotSegments path) := by
  rw [removeDotSegments_eq h, NoDots, keptPath, splitAt_fromRoot (kept_not_mem path)]
  exact forall_mem_cons.mpr ⟨by simp [IsDot], kept_not_isDot path⟩

theorem removeDotSegments_idem (h : path.head? = some '/') :
    removeDotSegments (removeDotSegments path) = removeDotSegments path := by
  rw [removeDotSegments_eq h, keptPath, removeDotSegments_fromRoot
    (keptSegments_ne_nil (splitAt_ne_nil '/' path.tail)) (kept_not_mem path),
    keptSegments_of_not_isDot (kept_not_isDot path), nil_append]

/-! ## Canonical paths -/

variable {safe : Char → Bool}

/-- A slash is in no escape. -/
theorem Canonical.split {front rest : Chars} (h : Canonical safe (front ++ '/' :: rest)) :
    Canonical safe front ∧ Canonical safe rest := by
  generalize hvalue : front ++ '/' :: rest = value at h
  induction h generalizing front with
  | nil => simp at hvalue
  | plain hc hpercent h ih =>
    cases front with
    | nil =>
      cases hvalue
      exact ⟨.nil, h⟩
    | cons c front =>
      cases hvalue
      exact ⟨.plain hc hpercent (ih rfl).1, (ih rfl).2⟩
  | escape hhex hself h ih =>
    match front, hvalue with
    | [], hvalue => cases hvalue
    | [_], hvalue => cases hvalue; cases hhex
    | [_, _], hvalue =>
      cases hvalue
      simp [show isHexDigit '/' = false from rfl] at hhex
    | _ :: _ :: _ :: front, hvalue =>
      cases hvalue
      exact ⟨.escape hhex hself (ih rfl).1, (ih rfl).2⟩

theorem Canonical.append {front rest : Chars} (h : Canonical safe front)
    (hrest : Canonical safe rest) : Canonical safe (front ++ rest) := by
  induction h with
  | nil => exact hrest
  | plain hc hpercent _ ih => exact .plain hc hpercent ih
  | escape hhex hself _ ih => exact .escape hhex hself ih

theorem canonical_fromRoot (hslash : safe '/' = true) {segments : List Chars} :
    Canonical safe (fromRoot segments) ↔ ∀ segment ∈ segments, Canonical safe segment := by
  induction segments with
  | nil => simp [fromRoot, Canonical.nil]
  | cons segment rest ih =>
    rw [forall_mem_cons, ← ih, fromRoot_cons]
    constructor
    · intro h
      have hboth := (@Canonical.split safe [] _ h).2
      cases rest with
      | nil => exact ⟨by simpa [fromRoot] using hboth, .nil⟩
      | cons next rest =>
        obtain ⟨hfirst, hrest⟩ := Canonical.split hboth
        exact ⟨hfirst, .plain hslash (by decide) hrest⟩
    · rintro ⟨hfirst, hrest⟩
      exact .plain hslash (by decide) (hfirst.append hrest)

theorem Canonical.removeDotSegments (hslash : safe '/' = true) (h : path.head? = some '/')
    (hpath : Canonical safe path) : Canonical safe (removeDotSegments path) := by
  rw [← fromRoot_splitAt_tail h, canonical_fromRoot hslash] at hpath
  rw [removeDotSegments_eq h, keptPath, canonical_fromRoot hslash]
  exact keptSegments_forall .nil (by simp) fun segment hsegment _ => hpath segment hsegment

end Paths

/-- Dot segments are removed as from a stack, percent encoding keeps the octets, and after both a
path has no dot segment and stays as it is. -/
theorem path_canonicalization :
    (∀ path, path.head? = some '/' → removeDotSegments path = keptPath path ∧
      (removeDotSegments path).head? = some '/' ∧ NoDots (removeDotSegments path) ∧
      removeDotSegments (removeDotSegments path) = removeDotSegments path) ∧
    (∀ safe ∈ [isPathSafe, isQuerySafe], ∀ value output,
      canonicalizeUrlComponent safe value = .ok output →
        canonicalizeUrlComponent safe output = .ok output ∧ octets output = octets value) ∧
    ∀ path output, path.head? = some '/' → canonicalizeUrlComponent isPathSafe path = .ok output →
      NoDots (removeDotSegments output) ∧
      canonicalizeUrlComponent isPathSafe (removeDotSegments output) =
        .ok (removeDotSegments output) := by
  refine ⟨fun path h => ?_, fun safe hsafe value output hok => ?_, fun path output h hok => ?_⟩
  · exact ⟨removeDotSegments_eq h, removeDotSegments_head h, removeDotSegments_noDots h,
      removeDotSegments_idem h⟩
  · have hunreserved : ∀ c, isUnreserved c = true → safe c = true := by
      simp only [List.mem_cons, List.not_mem_nil, or_false] at hsafe
      rcases hsafe with rfl | rfl
      · exact fun _ => isPathSafe_of_unreserved
      · exact fun _ => isQuerySafe_of_unreserved
    obtain ⟨hcanonical, hoctets⟩ := canonicalizeUrlComponent_canonical hunreserved hok
    exact ⟨hcanonical.fixed, hoctets⟩
  · obtain ⟨rest, rfl⟩ := List.head?_eq_some_iff.mp h
    have hhead := canonicalizeUrlComponent_head (by decide) (by decide) hok
    obtain ⟨hcanonical, -⟩ :=
      canonicalizeUrlComponent_canonical (fun _ => isPathSafe_of_unreserved) hok
    exact ⟨removeDotSegments_noDots hhead, (hcanonical.removeDotSegments (by decide) hhead).fixed⟩

/-- Escaped dots are dots, an escaped slash is no slash. -/
theorem path_canonicalization_escapes :
    NoDots (removeDotSegments "/a/../b%2F..".toList) :=
  (path_canonicalization.2.2 "/a/%2e%2E/b%2f..".toList "/a/../b%2F..".toList rfl
    (by decide +kernel)).1

end SuperMew.WebResearch
