import Mathlib.Tactic.IntervalCases
import SuperMew.WebResearch.UrlPolicy

/-! The parts of a canonical URL: which characters they have, and that making them canonical
again changes nothing. -/

namespace SuperMew.WebResearch

open List Char

/-! ## Texts -/

theorem takeWhile_stop {α : Type} {p : α → Bool} {front rest : List α} {a : α}
    (hfront : ∀ x ∈ front, p x = true) (ha : p a = false) :
    (front ++ a :: rest).takeWhile p = front ∧ (front ++ a :: rest).dropWhile p = a :: rest := by
  rw [takeWhile_append_of_pos hfront, dropWhile_append_of_pos hfront,
    takeWhile_cons_of_neg (by simp [ha]), dropWhile_cons_of_neg (by simp [ha])]
  simp

variable {c : Char} {text : Chars} {rest : Chars}

theorem partition_append {front : Chars} (h : c ∉ front) :
    partition c (front ++ c :: rest) = (front, true, rest) := by
  have hfront : ∀ x ∈ front, (x != c) = true := by
    intro x hx
    simp only [bne_iff_ne, ne_eq]
    rintro rfl
    exact h hx
  have hstop : (c != c) = false := by simp
  obtain ⟨htake, hdrop⟩ : (front ++ c :: rest).takeWhile (· != c) = front ∧
      (front ++ c :: rest).dropWhile (· != c) = c :: rest := takeWhile_stop hfront hstop
  simp [partition, htake, hdrop]

theorem partition_none (h : c ∉ text) : partition c text = (text, false, []) := by
  have hall : ∀ x ∈ text, (x != c) = true := by
    intro x hx
    simp only [bne_iff_ne, ne_eq]
    rintro rfl
    exact h hx
  have htake : text.takeWhile (· != c) = text := takeWhile_eq_self_iff.mpr hall
  have hdrop : text.dropWhile (· != c) = [] := dropWhile_eq_nil_iff.mpr hall
  simp [partition, htake, hdrop, h]

theorem afterLast_none (h : c ∉ text) : afterLast c text = text := by
  have htake : text.reverse.takeWhile (· != c) = text.reverse := by
    refine takeWhile_eq_self_iff.mpr fun x hx => ?_
    simp only [bne_iff_ne, ne_eq]
    rintro rfl
    exact h (mem_reverse.mp hx)
  rw [afterLast, htake, reverse_reverse]

theorem splitAt_ne_nil (c : Char) (text : Chars) : splitAt c text ≠ [] := by
  cases text with
  | nil => simp [splitAt]
  | cons d rest =>
    rw [splitAt]
    split
    · simp
    · split <;> simp

/-- Every character is in one of the parts, or separates two. -/
theorem mem_splitAt {d : Char} (h : d ∈ text) : d = c ∨ ∃ part ∈ splitAt c text, d ∈ part := by
  induction text with
  | nil => cases h
  | cons e rest ih =>
    rw [splitAt]
    by_cases he : e = c
    · rw [if_pos he]
      rcases mem_cons.mp h with rfl | hrest
      · exact .inl he
      · rcases ih hrest with hsep | ⟨part, hpart, hmem⟩
        · exact .inl hsep
        · exact .inr ⟨part, mem_cons_of_mem _ hpart, hmem⟩
    · rw [if_neg he]
      cases hsplit : splitAt c rest with
      | nil => exact absurd hsplit (splitAt_ne_nil c rest)
      | cons part parts =>
        rw [hsplit] at ih
        rcases mem_cons.mp h with rfl | hrest
        · exact .inr ⟨d :: part, by simp, by simp⟩
        · rcases ih hrest with hsep | ⟨found, hfound, hmem⟩
          · exact .inl hsep
          · rcases mem_cons.mp hfound with rfl | hother
            · exact .inr ⟨e :: found, by simp, by simp [hmem]⟩
            · exact .inr ⟨found, by simp [hother], hmem⟩

theorem splitAt_concat (c : Char) (front : Chars) :
    splitAt c (front ++ [c]) = splitAt c front ++ [[]] := by
  induction front with
  | nil => simp [splitAt]
  | cons d rest ih =>
    rw [cons_append, splitAt, splitAt, ih]
    by_cases hd : d = c
    · simp [hd]
    · rw [if_neg hd, if_neg hd]
      cases hsplit : splitAt c rest with
      | nil => exact absurd hsplit (splitAt_ne_nil c rest)
      | cons part parts => simp

theorem nil_mem_splitAt (h : text.getLast? = some c) : [] ∈ splitAt c text := by
  obtain ⟨front, rfl⟩ := List.getLast?_eq_some_iff.mp h
  rw [splitAt_concat]
  simp

/-! ## Components -/

/-- What holds of the first 128 characters holds of every ASCII character. -/
theorem ascii_cases {P : Char → Prop} (h : ∀ n < 128, P (ofNat n)) (hc : c.toNat < 128) : P c := by
  have hchar := h c.toNat hc
  rwa [ofNat_toNat] at hchar

theorem toNat_lt_of_isHexDigit (h : isHexDigit c = true) : c.toNat < 128 := by
  simp only [isHexDigit, isDigit, Bool.or_eq_true, Bool.and_eq_true, decide_eq_true_eq,
    ge_iff_le, le_def, UInt32.le_iff_toNat_le] at h
  change c.val.toNat < 128
  rcases h with (h | h) | h <;> exact Nat.lt_of_le_of_lt h.2 (by decide)

/-- A hexadecimal digit, its capital and its value. -/
theorem isHexDigit_cases (h : isHexDigit c = true) :
    isUnreserved c = true ∧ isHexDigit c.toUpper = true ∧ c.toUpper.toUpper = c.toUpper ∧
      hexValue c.toUpper = hexValue c ∧ hexValue c < 16 := by
  exact ascii_cases (P := fun c => isHexDigit c = true → isUnreserved c = true ∧
    isHexDigit c.toUpper = true ∧ c.toUpper.toUpper = c.toUpper ∧
      hexValue c.toUpper = hexValue c ∧ hexValue c < 16) (by decide +kernel)
    (toNat_lt_of_isHexDigit h) h

theorem hexDigit_cases {n : ℕ} (h : n < 16) : isHexDigit (hexDigit n) = true ∧
    (hexDigit n).toUpper = hexDigit n ∧ hexValue (hexDigit n) = n := by
  interval_cases n <;> decide

theorem toNat_ofNat_byte {n : ℕ} (h : n < 256) : (ofNat n).toNat = n := by
  rw [ofNat, dif_pos (.inl (by omega))]
  rfl

theorem toNat_lt_of_isUnreserved (h : isUnreserved c = true) : c.toNat < 128 ∧ c ≠ '%' := by
  have hne : c ≠ '%' := by
    rintro rfl
    revert h
    decide
  refine ⟨?_, hne⟩
  have halpha : c.isAlpha = (c.isUpper || c.isLower) := rfl
  simp only [isUnreserved, halpha, isUpper_iff, isLower_iff, isDigit_iff, Bool.or_eq_true,
    beq_iff_eq] at h
  rcases h with ((((((h | h) | h) | rfl) | rfl) | rfl) | rfl)
  any_goals decide
  all_goals omega

theorem utf8EncodeChar_ascii {n : ℕ} (h : n < 128) :
    String.utf8EncodeChar (ofNat n) = [UInt8.ofNat n] := by
  have hall : ∀ n < 128, String.utf8EncodeChar (ofNat n) = [UInt8.ofNat n] := by
    decide +kernel
  exact hall n h

theorem le_of_mem_utf8EncodeChar {byte : UInt8} (hc : 128 ≤ c.toNat)
    (h : byte ∈ String.utf8EncodeChar c) : 128 ≤ byte.toNat := by
  have hbig : ¬ c.val.toNat ≤ 127 := Nat.not_le.mpr hc
  simp only [String.utf8EncodeChar, if_neg hbig] at h
  split_ifs at h
  all_goals
    simp only [mem_cons, not_mem_nil, or_false] at h
    rcases h with rfl | h
    all_goals try rcases h with rfl | h
    all_goals try rcases h with rfl | rfl
    all_goals simp only [UInt8.toNat_ofNat']
    all_goals omega

theorem isPathSafe_of_unreserved (h : isUnreserved c = true) : isPathSafe c = true := by
  rw [isPathSafe, h, Bool.true_or]

theorem isQuerySafe_of_unreserved (h : isUnreserved c = true) : isQuerySafe c = true := by
  rw [isQuerySafe, isPathSafe_of_unreserved h, Bool.true_or]

/-- The octets that a component stands for. -/
def octets : Chars → List UInt8
  | [] => []
  | '%' :: a :: b :: rest =>
    if isHexDigit a && isHexDigit b then UInt8.ofNat (16 * hexValue a + hexValue b) :: octets rest
    else String.utf8EncodeChar '%' ++ octets (a :: b :: rest)
  | c :: rest => String.utf8EncodeChar c ++ octets rest

theorem octets_cons (hc : c ≠ '%') : octets (c :: rest) = String.utf8EncodeChar c ++ octets rest :=
  octets.eq_3 c rest fun _ _ _ he _ => hc he

/-- Safe characters, and escapes that stay as they are. -/
inductive Canonical (safe : Char → Bool) : Chars → Prop
  | nil : Canonical safe []
  | plain {c : Char} {rest : Chars} (hc : safe c = true) (hpercent : c ≠ '%')
      (h : Canonical safe rest) : Canonical safe (c :: rest)
  | escape {a b : Char} {rest : Chars} (hhex : (isHexDigit a && isHexDigit b) = true)
      (hself : canonicalEscape a b = ['%', a, b]) (h : Canonical safe rest) :
      Canonical safe ('%' :: a :: b :: rest)

variable {value : Chars}

section Components

variable {safe : Char → Bool}

theorem Canonical.fixed (h : Canonical safe value) :
    canonicalizeUrlComponent safe value = .ok value := by
  induction h with
  | nil => rfl
  | @plain c rest hc hpercent _ ih =>
    rw [canonicalizeUrlComponent.eq_3 safe c rest (fun _ _ _ he _ => hpercent he), if_neg hpercent,
      ih, ok_bind, if_pos hc]
    rfl
  | escape hhex hself _ ih =>
    rw [canonicalizeUrlComponent, if_pos hhex, ih, ok_bind, hself]
    rfl

theorem canonicalizeUrlComponent_head {output : Chars} (hc : safe c = true) (hpercent : c ≠ '%')
    (h : canonicalizeUrlComponent safe (c :: rest) = .ok output) : output.head? = some c := by
  rw [canonicalizeUrlComponent.eq_3 safe c rest (fun _ _ _ he _ => hpercent he),
    if_neg hpercent] at h
  simp only [ok_rules] at h
  obtain ⟨others, -, rfl⟩ := h
  simp [hc]

variable (hsafe : ∀ c, isUnreserved c = true → safe c = true)

include hsafe

theorem Canonical.chars (h : Canonical safe value) : ∀ c ∈ value, safe c = true ∨ c = '%' := by
  induction h with
  | nil => simp
  | plain hc _ _ ih => exact forall_mem_cons.mpr ⟨.inl hc, ih⟩
  | escape hhex _ _ ih =>
    obtain ⟨ha, hb⟩ := Bool.and_eq_true_iff.mp hhex
    simp only [forall_mem_cons]
    exact ⟨.inr trivial, .inl (hsafe _ (isHexDigit_cases ha).1),
      .inl (hsafe _ (isHexDigit_cases hb).1), ih⟩

/-- An escape is canonical after it is made canonical, and stands for its octet. -/
theorem canonicalEscape_canonical {a b : Char} (ha : isHexDigit a = true)
    (hb : isHexDigit b = true) (h : Canonical safe rest) :
    Canonical safe (canonicalEscape a b ++ rest) ∧ octets (canonicalEscape a b ++ rest) =
      UInt8.ofNat (16 * hexValue a + hexValue b) :: octets rest := by
  obtain ⟨-, hhex, hupper, hvalue, hlt⟩ := isHexDigit_cases ha
  obtain ⟨-, hhex', hupper', hvalue', hlt'⟩ := isHexDigit_cases hb
  by_cases hunreserved : isUnreserved (ofNat (16 * hexValue a + hexValue b)) = true
  · have hescape : canonicalEscape a b = [ofNat (16 * hexValue a + hexValue b)] :=
      if_pos hunreserved
    obtain ⟨hascii, hpercent⟩ := toNat_lt_of_isUnreserved hunreserved
    rw [toNat_ofNat_byte (by omega)] at hascii
    rw [hescape, singleton_append, octets_cons hpercent, utf8EncodeChar_ascii hascii]
    exact ⟨.plain (hsafe _ hunreserved) hpercent h, rfl⟩
  · have hescape : canonicalEscape a b = ['%', a.toUpper, b.toUpper] := if_neg hunreserved
    have hself : canonicalEscape a.toUpper b.toUpper = ['%', a.toUpper, b.toUpper] := by
      simp only [canonicalEscape, hvalue, hvalue', hupper, hupper']
      exact if_neg hunreserved
    rw [hescape]
    exact ⟨.escape (by simp [hhex, hhex']) hself h, by simp [octets, hhex, hhex', hvalue, hvalue']⟩

/-- A character that is not safe is canonical after it is encoded, and stands for its octets. -/
theorem percentEncode_canonical (hc : safe c = false)
    (h : Canonical safe rest) : Canonical safe (percentEncode c ++ rest) ∧
      octets (percentEncode c ++ rest) = String.utf8EncodeChar c ++ octets rest := by
  have hreserved : ∀ byte ∈ String.utf8EncodeChar c, isUnreserved (ofNat byte.toNat) = false := by
    intro byte hbyte
    by_contra hunreserved
    rw [Bool.not_eq_false] at hunreserved
    obtain ⟨hascii, -⟩ := toNat_lt_of_isUnreserved hunreserved
    have hlt := byte.toNat_lt
    rw [toNat_ofNat_byte (by omega)] at hascii
    have hsmall : c.toNat < 128 := by
      by_contra hbig
      have := le_of_mem_utf8EncodeChar (by omega) hbyte
      omega
    rw [← ofNat_toNat c, utf8EncodeChar_ascii hsmall, mem_singleton] at hbyte
    rw [hbyte, UInt8.toNat_ofNat_of_lt' (by simp [UInt8.size]; omega), ofNat_toNat] at hunreserved
    rw [hsafe c hunreserved] at hc
    cases hc
  rw [percentEncode]
  generalize String.utf8EncodeChar c = bytes at hreserved
  -- The octets are written one after the other.
  induction bytes with
  | nil => exact ⟨h, rfl⟩
  | cons byte bytes ih =>
    obtain ⟨hcanonical, hoctets⟩ := ih fun other hother => hreserved other (by simp [hother])
    have hlt : byte.toNat < 256 := byte.toNat_lt
    obtain ⟨hhex, hupper, hvalue⟩ := hexDigit_cases (n := byte.toNat / 16) (by omega)
    obtain ⟨hhex', hupper', hvalue'⟩ := hexDigit_cases (n := byte.toNat % 16) (by omega)
    have hsum : 16 * (byte.toNat / 16) + byte.toNat % 16 = byte.toNat := Nat.div_add_mod _ _
    rw [flatMap_cons, append_assoc, cons_append, ← hoctets]
    constructor
    · refine .escape (by simp [hhex, hhex']) ?_ hcanonical
      simp [canonicalEscape, hvalue, hvalue', hsum, hupper, hupper', hreserved byte (by simp)]
    · simp [percentByte, octets, hhex, hhex', hvalue, hvalue', hsum]

/-- A component is made canonical, and stands for the octets that it stood for. -/
theorem canonicalizeUrlComponent_canonical {output : Chars}
    (h : canonicalizeUrlComponent safe value = .ok output) :
    Canonical safe output ∧ octets output = octets value := by
  fun_induction canonicalizeUrlComponent safe value generalizing output with
  | case1 =>
    cases h
    exact ⟨.nil, rfl⟩
  | case2 a b rest hhex ih =>
    obtain ⟨ha, hb⟩ := Bool.and_eq_true_iff.mp hhex
    simp only [ok_rules] at h
    obtain ⟨others, hothers, rfl⟩ := h
    obtain ⟨hcanonical, hoctets⟩ := ih hothers
    rw [octets, if_pos hhex, ← hoctets]
    exact canonicalEscape_canonical hsafe ha hb hcanonical
  | case3 | case4 => cases h
  | case5 c rest _ hpercent ih =>
    simp only [ok_rules] at h
    obtain ⟨others, hothers, rfl⟩ := h
    obtain ⟨hcanonical, hoctets⟩ := ih hothers
    rw [octets_cons hpercent, ← hoctets]
    by_cases hc : safe c = true
    · rw [if_pos hc, singleton_append, octets_cons hpercent]
      exact ⟨.plain hc hpercent hcanonical, rfl⟩
    · rw [if_neg hc]
      exact percentEncode_canonical hsafe (Bool.not_eq_true _ ▸ hc) hcanonical

end Components

end SuperMew.WebResearch
