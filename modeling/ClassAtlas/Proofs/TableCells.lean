import ClassAtlas.Render.Table
import ClassAtlas.Proofs.Spellings
import Mathlib.Data.List.Forall2

/-!
# The cells of a table

A cell of a table listing is a number, or a text that is quoted if it could be taken for something
else. This file reads cells back: a quoted cell up to the quote that ends it, any other cell up to
the next comma. Every cell is read as the value that was written, unless the value is a text that is
not quoted although it starts with a quote. So the values of a row are known from its text.
-/

namespace ClassAtlas.Render

/-! ## Reading a cell -/

/-- The character that an escaped one stands for. -/
def unescaped (c : Char) : Char :=
  if c = 'n' then '\n' else if c = 'r' then '\r' else if c = 't' then '\t' else c

/-- The text up to the quote that ends it, and what follows the quote. -/
def readQuoted? : List Char → Option (List Char × List Char)
  | [] => none
  | '\\' :: c :: rest => (readQuoted? rest).map fun (text, after) => (unescaped c :: text, after)
  | c :: rest =>
    if c = '"' then some ([], rest)
    else (readQuoted? rest).map fun (text, after) => (c :: text, after)

/-- The value of the first cell of a row, and what follows the cell. -/
def readCell? (row : List Char) : Option (List Char × List Char) :=
  if row.head? = some '"' then readQuoted? row.tail
  else some (row.takeWhile (· ≠ ','), row.dropWhile (· ≠ ','))

/-- The cell stands on one line, and it is read as the value if a comma or nothing follows. -/
structure Shows (cell value : String) : Prop where
  one_line : '\n' ∉ cell.toList
  read : ∀ rest, (∀ c ∈ rest.head?, c = ',') →
      readCell? (cell.toList ++ rest) = some (value.toList, rest)

/-- A cell that is not quoted and has no comma is read as it stands. -/
theorem shows_of_bare {cell : String} (hquote : cell.toList.head? ≠ some '"')
    (hcomma : ',' ∉ cell.toList) (hline : '\n' ∉ cell.toList) : Shows cell cell := by
  refine ⟨hline, fun rest hrest => ?_⟩
  have hhead : (cell.toList ++ rest).head? ≠ some '"' := by
    rw [List.head?_append]
    intro h
    rcases Option.or_eq_some_iff.mp h with hcell | ⟨-, hstart⟩
    · exact hquote hcell
    · cases hrest _ hstart
  have hcell : ∀ c ∈ cell.toList, decide (c ≠ ',') = true := by
    intro c hc
    exact decide_eq_true fun heq => hcomma (heq ▸ hc)
  have hstop : ∀ c ∈ rest.head?, decide (c ≠ ',') = false := by
    intro c hc
    simp [hrest c hc]
  obtain ⟨htake, hdrop⟩ := Source.takeWhile_dropWhile_eq_iff.mpr ⟨hcell, rfl, hstop⟩
  rw [readCell?, if_neg hhead, htake, hdrop]

/-! ## Texts -/

/-- Every character is read back from what stands for it inside quotes. -/
theorem readQuoted?_cellChar_append (c : Char) (rest : List Char) :
    readQuoted? (cellChar c ++ rest) =
      (readQuoted? rest).map fun (text, after) => (c :: text, after) := by
  unfold cellChar
  split_ifs with hfeed hreturn htab hquote hbackslash
  · subst hfeed; rfl
  · subst hreturn; rfl
  · subst htab; rfl
  · subst hquote; rfl
  · subst hbackslash; rfl
  · rw [List.singleton_append, readQuoted?, if_neg hquote]
    exact fun d more heq _ => hbackslash heq

/-- A quoted text is read up to its own quote, whatever follows. -/
theorem readQuoted?_flatMap_cellChar (text rest : List Char) :
    readQuoted? (text.flatMap cellChar ++ '"' :: rest) = some (text, rest) := by
  induction text with
  | nil => rfl
  | cons c text ih =>
    rw [List.flatMap_cons, List.append_assoc, readQuoted?_cellChar_append, ih]; rfl

/-- What stands for a character inside quotes takes up one line. -/
theorem feed_not_mem_cellChar (c : Char) : '\n' ∉ cellChar c := by
  unfold cellChar
  split_ifs with hfeed hreturn htab hquote hbackslash
  all_goals simp
  exact Ne.symm hfeed

/-- A quoted text, character by character. -/
theorem toList_quoted (text : String) :
    ("\"" ++ String.ofList (text.toList.flatMap cellChar) ++ "\"").toList =
      '"' :: (text.toList.flatMap cellChar ++ ['"']) := by
  simp

/-- A text that needs no quotes has no character that does. -/
theorem not_isStructural_of_mem {text : List Char} (h : ¬ needsQuotes text = true) {c : Char}
    (hc : c ∈ text) : isStructural c = false := by
  simp only [needsQuotes, Bool.or_eq_true, not_or] at h
  have hnone := h.2
  rw [List.any_eq_true] at hnone
  by_contra hstructural
  exact hnone ⟨c, hc, by simpa using hstructural⟩

/-- The cell of a text stands on one line, whatever the text is. -/
theorem feed_not_mem_textCell (text : String) : '\n' ∉ (textCell text).toList := by
  unfold textCell
  split
  · rw [toList_quoted]
    intro hmem
    simp only [List.mem_cons, List.mem_append, List.mem_flatMap, List.not_mem_nil, or_false] at hmem
    rcases hmem with h | ⟨c, -, hc⟩ | h
    · cases h
    · exact feed_not_mem_cellChar c hc
    · cases h
  · rename_i hraw
    intro hmem
    exact absurd (not_isStructural_of_mem hraw hmem) (by decide)

/-- **The cell of a text shows the text**, unless it starts with a quote. -/
theorem shows_textCell {text : String} (hquote : text.toList.head? ≠ some '"') :
    Shows (textCell text) text := by
  by_cases hneeds : needsQuotes text.toList = true
  · refine ⟨feed_not_mem_textCell text, fun rest _ => ?_⟩
    rw [textCell, if_pos hneeds, toList_quoted, List.cons_append, readCell?, List.head?_cons,
      if_pos rfl, List.tail_cons, List.append_assoc, List.singleton_append,
      readQuoted?_flatMap_cellChar]
  · have hbare : textCell text = text := if_neg hneeds
    rw [hbare]
    refine shows_of_bare hquote (fun hmem => ?_) fun hmem => ?_
    · exact absurd (not_isStructural_of_mem hneeds hmem) (by decide)
    · exact absurd (not_isStructural_of_mem hneeds hmem) (by decide)

/-! ## Numbers -/

/-- A character of a number, or of the word that stands for a missing one. -/
def isNumberChar (c : Char) : Bool :=
  c.isDigit || c ∈ ['.', '-', 'n', 'u', 'l']

/-- What is written like a number is read as it stands. -/
theorem shows_of_isNumberChar {cell : String} (h : ∀ c ∈ cell.toList, isNumberChar c = true) :
    Shows cell cell := by
  refine shows_of_bare (fun hhead => ?_) (fun hmem => ?_) fun hmem => ?_
  · exact absurd (h _ (List.mem_of_mem_head? hhead)) (by decide)
  · exact absurd (h _ hmem) (by decide)
  · exact absurd (h _ hmem) (by decide)

/-- Digits are characters of numbers. -/
theorem isNumberChar_of_mem_toDigits {n : Nat} {c : Char} (h : c ∈ Nat.toDigits 10 n) :
    isNumberChar c = true := by
  have hdigit := Nat.isDigit_of_mem_toDigits (by decide) (by decide) h
  simp [isNumberChar, hdigit]

/-- A natural number is written with digits. -/
theorem isNumberChar_of_mem_repr {n : Nat} {c : Char} (h : c ∈ n.repr.toList) :
    isNumberChar c = true := by
  rw [Nat.toList_repr] at h
  exact isNumberChar_of_mem_toDigits h

/-- The cell of a natural number is read as it stands. -/
theorem shows_toString (n : Nat) : Shows (toString n) (toString n) :=
  shows_of_isNumberChar fun _ => isNumberChar_of_mem_repr

/-- A whole number is written with digits, a point and a sign. -/
theorem isNumberChar_of_mem_wholeCell {n : Int} {c : Char} (h : c ∈ (wholeCell n).toList) :
    isNumberChar c = true := by
  rw [wholeCell, Int.toString_eq_repr, Int.repr_eq_if, String.toList_append, List.mem_append] at h
  rcases h with h | h
  · split at h
    · exact isNumberChar_of_mem_repr h
    · rw [String.toList_append, List.mem_append] at h
      rcases h with h | h
      · rw [List.mem_singleton.mp h]
        decide
      · exact isNumberChar_of_mem_repr h
  · rcases List.mem_cons.mp h with rfl | h
    · decide
    · rw [List.mem_singleton.mp h]
      decide

/-- Without exponents a decimal has digits and a point. -/
theorem isNumberChar_of_mem_text {d : Decimal.Scaled} {c : Char} (h : c ∈ d.text .plain) :
    isNumberChar c = true := by
  have hzeros {count : Nat} (h : c ∈ List.replicate count '0') : isNumberChar c = true := by
    rw [List.eq_of_mem_replicate h]
    decide
  rw [Decimal.Scaled.text] at h
  simp only [Decimal.Layout.plain, if_true] at h
  split_ifs at h
  · simp only [List.mem_append, List.mem_cons, List.not_mem_nil, or_false] at h
    rcases h with (h | h) | rfl | rfl
    · exact isNumberChar_of_mem_toDigits h
    · exact hzeros h
    · decide
    · decide
  · simp only [List.mem_append, List.mem_cons] at h
    rcases h with h | rfl | h
    · exact isNumberChar_of_mem_toDigits (List.mem_of_mem_take h)
    · decide
    · exact isNumberChar_of_mem_toDigits (List.mem_of_mem_drop h)
  · simp only [List.mem_append, List.mem_cons, List.not_mem_nil, or_false] at h
    rcases h with ((rfl | rfl) | h) | h
    · decide
    · decide
    · exact hzeros h
    · exact isNumberChar_of_mem_toDigits h

/-- The shortest text of a finite number has characters of numbers only. -/
theorem isNumberChar_of_mem_shortest {negative : Bool} {m : Decimal.Magnitude} {c : Char}
    (h : c ∈ (Decimal.Decoded.finite negative m).shortest .plain) : isNumberChar c = true := by
  have hsign (h : c ∈ Decimal.sign negative) : isNumberChar c = true := by
    cases negative with
    | false => cases h
    | true =>
      rw [List.mem_singleton.mp h]
      decide
  rw [Decimal.Decoded.shortest] at h
  split_ifs at h
  · rcases List.mem_append.mp h with h | h
    · exact hsign h
    · simp only [List.mem_cons, List.not_mem_nil, or_false] at h
      rcases h with rfl | rfl | rfl <;> decide
  · rcases List.mem_append.mp h with h | h
    · exact hsign h
    · exact isNumberChar_of_mem_text h

/-- The cell of a number is read as it stands, whatever the number is. -/
theorem shows_realCell (x : Float) : Shows (realCell x) (realCell x) := by
  refine shows_of_isNumberChar fun c hc => ?_
  unfold realCell at hc
  split at hc
  · rename_i negative m hdecode
    split at hc
    · exact isNumberChar_of_mem_wholeCell hc
    · rw [Decimal.shortest, String.toList_ofList, hdecode] at hc
      exact isNumberChar_of_mem_shortest hc
  · have hnull : ∀ c ∈ ['n', 'u', 'l', 'l'], isNumberChar c = true := by simp [isNumberChar]
    exact hnull c hc

/-! ## Rows -/

/-- With a separator before it, a list of pieces has one before every piece. -/
theorem cons_intercalate {sep : Char} {pieces : List (List Char)} (hne : pieces ≠ []) :
    sep :: [sep].intercalate pieces = pieces.flatMap (sep :: ·) := by
  induction pieces with
  | nil => exact absurd rfl hne
  | cons piece pieces ih =>
    cases pieces with
    | nil => simp
    | cons next pieces =>
      rw [List.flatMap_cons, ← ih (List.cons_ne_nil next pieces), List.intercalate_cons_cons,
        List.append_assoc]
      rfl

/-- The values of so many cells with a comma before each, if nothing follows them. -/
def readRow? : Nat → List Char → Option (List String)
  | 0, row => if row = [] then some [] else none
  | count + 1, ',' :: row =>
    (readCell? row).bind fun read => (readRow? count read.2).map (String.ofList read.1 :: ·)
  | _ + 1, _ => none

/-- Cells with a comma before each are read one after the other. -/
theorem readRow?_flatMap {cells values : List String} (h : List.Forall₂ Shows cells values) :
    readRow? cells.length ((cells.map String.toList).flatMap (',' :: ·)) = some values := by
  have hcomma (cells : List String) :
      ∀ c ∈ ((cells.map String.toList).flatMap (',' :: ·)).head?, c = ',' := by
    cases cells <;> simp
  induction h with
  | nil => rfl
  | @cons cell value cells values hcell _ ih =>
    rw [List.map_cons, List.flatMap_cons, List.length_cons, List.cons_append, readRow?,
      hcell.read _ (hcomma cells), Option.bind_some, ih, Option.map_some, String.ofList_toList]

/-- **The values of a row are known from its text.** -/
theorem readRow?_intercalate {cells values : List String} (h : List.Forall₂ Shows cells values)
    (hne : cells ≠ []) :
    readRow? cells.length (',' :: (String.intercalate "," cells).toList) = some values := by
  have hsep : ",".toList = [','] := rfl
  rw [String.toList_intercalate, hsep, cons_intercalate (by simpa using hne)]
  exact readRow?_flatMap h

end ClassAtlas.Render
