import ClassAtlas.Proofs.FieldMarks

/-!
# Identifiers

The names that a source is written with in statements about it: ASCII letters, digits and
underscores, for a type with a capital letter in front. The readers accept more names than these.
-/

namespace ClassAtlas.Source

open ClassAtlas.Text

/-- An ASCII letter, a digit or an underscore. -/
def isPlain (c : Char) : Bool :=
  c.isAlphanum || c = '_'

/-- A name that starts with an ASCII letter or an underscore and goes on with plain characters. -/
structure Identifier where
  first : Char
  more : List Char
  starts : first.isAlpha = true ∨ first = '_'
  plain : ∀ c ∈ more, isPlain c = true

/-- The name of a type: it starts with a capital letter. -/
structure TypeIdentifier extends Identifier where
  capital : first.isUpper = true

namespace Identifier

/-- The characters of an identifier. -/
def text (identifier : Identifier) : List Char :=
  identifier.first :: identifier.more

/-- The identifier as a name. -/
def name (identifier : Identifier) : String :=
  String.ofList identifier.text

end Identifier

/-- The codes of plain characters lie between those of the digit zero and the letter z. -/
theorem toNat_of_isPlain {c : Char} (h : isPlain c = true) : 48 ≤ c.toNat ∧ c.toNat ≤ 122 := by
  delta isPlain Char.isAlphanum Char.isAlpha Char.isUpper Char.isLower Char.isDigit at h
  simp only [Bool.or_eq_true, Bool.and_eq_true, decide_eq_true_eq, UInt32.le_iff_toNat_le,
    ge_iff_le] at h
  have htoNat : c.toNat = c.val.toNat := rfl
  have hcodes : 'A'.val.toNat = 65 ∧ 'Z'.val.toNat = 90 ∧ 'a'.val.toNat = 97 ∧ 'z'.val.toNat = 122 ∧
      '0'.val.toNat = 48 ∧ '9'.val.toNat = 57 := by decide
  rcases h with h | rfl
  · omega
  · decide

/-- Plain characters are word characters. -/
theorem isWordChar_of_isPlain {c : Char} (h : isPlain c = true) : isWordChar c = true := by
  have hrange := toNat_of_isPlain h
  rw [isWordChar, if_pos (by omega)]
  exact h

/-- Plain characters may stand in a name. -/
theorem isNameChar_of_isPlain {c : Char} (h : isPlain c = true) : isNameChar c = true := by
  rw [isNameChar, isWordChar_of_isPlain h]
  rfl

/-- No plain character is blank. -/
theorem not_isBlank_of_isPlain {c : Char} (h : isPlain c = true) : isBlank c = false := by
  have hrange := toNat_of_isPlain h
  have hspace : c ≠ ' ' := by
    rintro rfl
    exact absurd h (by decide)
  simp only [isBlank, hspace, decide_false, Bool.false_or, Bool.or_eq_false_iff,
    Bool.and_eq_false_iff, decide_eq_false_iff_not]
  omega

/-- Before a plain character there is no blank to skip. -/
theorem afterBlanks_cons_of_isPlain {c : Char} (h : isPlain c = true) (rest : List Char) :
    afterBlanks (c :: rest) = c :: rest := by
  rw [afterBlanks, List.dropWhile_cons, not_isBlank_of_isPlain h]
  rfl

/-- No plain character ends a type. -/
theorem not_endsTypeText_of_isPlain {c : Char} (h : isPlain c = true) : endsTypeText c = false := by
  rw [Bool.eq_false_iff]
  intro hends
  rcases endsTypeText_iff.mp hends with rfl | rfl | rfl | rfl | rfl
    | rfl <;> exact absurd h (by decide)

namespace Identifier

/-- An identifier has plain characters only. -/
theorem isPlain_of_mem {identifier : Identifier} {c : Char} (hc : c ∈ identifier.text) :
    isPlain c = true := by
  rcases List.mem_cons.mp hc with rfl | hc
  · rcases identifier.starts with h | h
    · simp [isPlain, Char.isAlphanum, h]
    · simp [isPlain, h]
  · exact identifier.plain c hc

/-- No identifier is empty. -/
theorem text_ne_nil (identifier : Identifier) : identifier.text ≠ [] :=
  List.cons_ne_nil _ _

/-- The first character of an identifier is plain. -/
theorem isPlain_first (identifier : Identifier) : isPlain identifier.first = true :=
  isPlain_of_mem List.mem_cons_self

/-- A character that is not plain is in no identifier. -/
theorem not_mem_text (identifier : Identifier) {c : Char} (hc : isPlain c = false) :
    c ∉ identifier.text := by
  intro hmem
  rw [isPlain_of_mem hmem] at hc
  cases hc

/-- The first character of an identifier may start a name. -/
theorem isNameStart_first (identifier : Identifier) : isNameStart identifier.first = true := by
  rcases identifier.starts with h | h <;> simp [isNameStart, h]

/-- An identifier is read up to a character that is not part of a name. -/
theorem name?_text (identifier : Identifier) {start : Char → Bool}
    (hstart : start identifier.first = true) {rest : List Char}
    (hrest : ∀ c ∈ rest.head?, isNameChar c = false) :
    name? start (identifier.text ++ rest) = some (identifier.text, rest) := by
  have hmore : ∀ c ∈ identifier.more, isNameChar c = true :=
    fun c hc => isNameChar_of_isPlain (identifier.plain c hc)
  have hstop : rest.takeWhile isNameChar = [] ∧ rest.dropWhile isNameChar = rest := by
    cases rest with
    | nil => exact ⟨rfl, rfl⟩
    | cons c rest => simp [hrest c rfl]
  rw [text, List.cons_append, name?, if_pos hstart, List.takeWhile_append_of_pos hmore,
    List.dropWhile_append_of_pos hmore, hstop.1, hstop.2, List.append_nil]

end Identifier

end ClassAtlas.Source
