import Mathlib.Data.List.DropRight
import SuperMew.Core.Errors

/-! Normalisation of the texts that callers pass in. -/

namespace SuperMew

/-- Library functions that the development uses and never computes with: Unicode
NFC, the digest of a JSON payload, and `int(value)`, undefined where it raises. -/
class Platform where
  nfc : String → String
  payloadHash : Dict → String
  toInt : Json → Option ℤ

/-- Unicode normalisation leaves ASCII texts alone. -/
class AsciiNormal [Platform] : Prop where
  nfc_ascii : ∀ text : String, (text.toList.all fun c => decide (c.toNat < 128)) = true →
    Platform.nfc text = text

namespace PlainPlatform

/-- A platform to run the model on: texts are in NFC already, and there is one build. -/
scoped instance plain : Platform where
  nfc := id
  payloadHash _ := String.ofList (List.replicate 64 'f')
  toInt
    | .int n => some n
    | _ => none

theorem plain_asciiNormal : AsciiNormal := ⟨fun _ _ => rfl⟩

end PlainPlatform

/-- The characters removed by `str.strip()`. -/
def isSpace (c : Char) : Bool :=
  let n := c.toNat
  (9 ≤ n && n ≤ 13) || (28 ≤ n && n ≤ 32) || n == 0x85 || n == 0xa0 || n == 0x1680 ||
    (0x2000 ≤ n && n ≤ 0x200a) || n == 0x2028 || n == 0x2029 || n == 0x202f || n == 0x205f ||
    n == 0x3000

def stripChars (cs : List Char) : List Char :=
  ((cs.dropWhile isSpace).reverse.dropWhile isSpace).reverse

def strip (s : String) : String := String.ofList (stripChars s.toList)

theorem dropWhile_eq_of_le {α : Type} {p : α → Bool} {xs ys : List α}
    (h : ys <+: xs.dropWhile p) : ys.dropWhile p = ys := by
  rw [List.dropWhile_eq_self_iff]
  intro hpos
  have hfirst := List.dropWhile_get_zero_not p xs (Nat.lt_of_lt_of_le hpos h.length_le)
  simpa [h.getElem] using hfirst

theorem stripChars_stripChars (cs : List Char) : stripChars (stripChars cs) = stripChars cs := by
  change List.rdropWhile isSpace ((List.rdropWhile isSpace (cs.dropWhile isSpace)).dropWhile isSpace)
    = List.rdropWhile isSpace (cs.dropWhile isSpace)
  rw [dropWhile_eq_of_le ( List.rdropWhile_prefix ..), List.rdropWhile_idempotent]

theorem stripChars_of_no_space {text : List Char} (h : ∀ c ∈ text, isSpace c = false) :
    stripChars text = text := by
  have hdrop : ∀ xs : List Char, (∀ c ∈ xs, isSpace c = false) → xs.dropWhile isSpace = xs := by
    intro xs hxs
    cases xs with
    | nil => rfl
    | cons c rest => exact List.dropWhile_cons_of_neg (by simp [hxs c List.mem_cons_self])
  rw [stripChars, hdrop text h, hdrop text.reverse fun c hc => h c (List.mem_reverse.mp hc),
    List.reverse_reverse]

theorem isLower_iff {c : Char} : c.isLower = true ↔ 97 ≤ c.toNat ∧ c.toNat ≤ 122 :=
  Bool.and_eq_true_iff.trans (and_congr (decide_eq_true_iff.trans UInt32.le_iff_toNat_le)
    (decide_eq_true_iff.trans UInt32.le_iff_toNat_le))

theorem isDigit_iff {c : Char} : c.isDigit = true ↔ 48 ≤ c.toNat ∧ c.toNat ≤ 57 :=
  Bool.and_eq_true_iff.trans (and_congr (decide_eq_true_iff.trans UInt32.le_iff_toNat_le)
    (decide_eq_true_iff.trans UInt32.le_iff_toNat_le))

theorem isUpper_iff {c : Char} : c.isUpper = true ↔ 65 ≤ c.toNat ∧ c.toNat ≤ 90 :=
  decide_eq_true_iff.trans (and_congr UInt32.le_iff_toNat_le UInt32.le_iff_toNat_le)

/-- A text of visible ASCII characters has no blanks to strip. -/
theorem strip_of_graphic {text : String} (h : ∀ c ∈ text.toList, 33 ≤ c.toNat ∧ c.toNat ≤ 126) :
    strip text = text := by
  rw [strip, stripChars_of_no_space, String.ofList_toList]
  intro c hc
  have hgraphic := h c hc
  simp only [isSpace, Bool.or_eq_false_iff, Bool.and_eq_false_iff, decide_eq_false_iff_not,
    beq_eq_false_iff_ne]
  omega

/-- `text.strip()[:maximum]`. -/
def stripTo (s : String) (maximum : ℕ) : String := String.ofList ((stripChars s.toList).take maximum)

/-- `str(detail or "")[:2000] or None`. -/
def errorDetail (detail : Option String) : Option String :=
  let cs := (detail.getD "").toList.take 2000
  if cs.isEmpty then none else some (String.ofList cs)

/-- The characters that the engine drops from a text: controls, invisible ones and those of
private use. -/
def isDropped (c : Char) : Bool :=
  let n := c.toNat
  n ≤ 8 || n == 0x0b || n == 0x0c || (0x0e ≤ n && n ≤ 0x1f) || n == 0x7f ||
    (0x200b ≤ n && n ≤ 0x200d) || n == 0x200f || (0x202a ≤ n && n ≤ 0x202e) || n == 0xfeff ||
    (0xe000 ≤ n && n ≤ 0xf8ff)

/-- `_clean_nul_chars`, which the engine applies to every text on its way to the database. JSON
columns are sent as ASCII texts, which it leaves alone. -/
def cleanText [Platform] (text : String) : String :=
  String.ofList ((Platform.nfc text).toList.filter fun c => !isDropped c)

def requiredText [Platform] (value field : String) (maximum : ℕ) : Except Fault String :=
  let normalized := stripChars (Platform.nfc value).toList
  if normalized.isEmpty || maximum < normalized.length then
    .error (.app {
      code := .invalidRequest
      message := s!"{field} 必须为 1-{maximum} 个字符"
      statusCode := 400 })
  else .ok (String.ofList normalized)

def isHexDigit (c : Char) : Bool := ('0' ≤ c && c ≤ '9') || ('a' ≤ c && c ≤ 'f')

def contentHash (value : String) : Except Fault String :=
  let normalized := (stripChars value.toList).map Char.toLower
  if normalized.length = 64 && normalized.all isHexDigit then .ok (String.ofList normalized)
  else .error (.app {
    code := .invalidRequest
    message := "content_sha256 必须是 64 位十六进制摘要"
    statusCode := 400 })

end SuperMew
