import ClassAtlas.Proofs.ByteOrder
import ClassAtlas.Proofs.Precedence
import ClassAtlas.Render.Report
import Mathlib.Order.Bounds.Basic

/-!
# Texts in columns

A text that is too long for its column is cut by bytes, and a short one is padded by characters.
This file says where the cut is: at the last boundary between characters which leaves the bytes that
are allowed. Stepping back from there byte by byte finds the same boundary. Since a character takes
up at least one byte, what has been cut has no more characters than the column, and the padding
fills it exactly.
-/

namespace ClassAtlas

namespace Text

/-! ## Bytes -/

/-- The bytes of two texts add up. -/
theorem byteLength_append (front back : List Char) :
    byteLength (front ++ back) = byteLength front + byteLength back := by
  induction front with
  | nil => simp [byteLength]
  | cons c front ih =>
    rw [List.cons_append, byteLength, byteLength, ih]
    omega

/-- The size of a string is the number of bytes of its characters. -/
theorem utf8ByteSize_ofList (text : List Char) :
    (String.ofList text).utf8ByteSize = byteLength text := by
  induction text with
  | nil => rfl
  | cons c text ih =>
    have hcons : String.ofList (c :: text) = String.singleton c ++ String.ofList text := by
      rw [← String.toList_inj]
      simp
    rw [hcons, String.utf8ByteSize_append, String.utf8ByteSize_singleton, ih, byteLength]

/-- The size of a string, from its characters. -/
theorem utf8ByteSize_eq (text : String) : text.utf8ByteSize = byteLength text.toList := by
  rw [← utf8ByteSize_ofList, String.ofList_toList]

/-- Every character takes up at least one byte. -/
theorem length_le_byteLength (text : List Char) : text.length ≤ byteLength text := by
  induction text with
  | nil => exact Nat.le_refl 0
  | cons c text ih =>
    have hpos := c.utf8Size_pos
    rw [List.length_cons, byteLength]
    omega

/-! ## Cutting a text -/

/-- What is taken is a front of the text. -/
theorem takeWithin_isPrefix (limit : Nat) (text : List Char) : takeWithin limit text <+: text := by
  induction text generalizing limit with
  | nil => exact List.nil_prefix
  | cons c text ih =>
    rw [takeWithin]
    split
    · exact List.cons_prefix_cons.mpr ⟨rfl, ih _⟩
    · exact List.nil_prefix

/-- What is taken is within the limit. -/
theorem byteLength_takeWithin_le (limit : Nat) (text : List Char) :
    byteLength (takeWithin limit text) ≤ limit := by
  induction text generalizing limit with
  | nil => exact Nat.zero_le limit
  | cons c text ih =>
    rw [takeWithin]
    split
    · have hrest := ih (limit - c.utf8Size)
      rw [byteLength]
      omega
    · exact Nat.zero_le limit

/-- Whatever fits is part of what is taken. -/
theorem isPrefix_takeWithin {limit : Nat} {text other : List Char} (hother : other <+: text)
    (hfits : byteLength other ≤ limit) : other <+: takeWithin limit text := by
  induction text generalizing limit other with
  | nil => exact hother
  | cons c text ih =>
    cases other with
    | nil => exact List.nil_prefix
    | cons d other =>
      obtain ⟨rfl, hrest⟩ := List.cons_prefix_cons.mp hother
      rw [byteLength] at hfits
      rw [takeWithin, if_pos (by omega)]
      exact List.cons_prefix_cons.mpr ⟨rfl, ih hrest (by omega)⟩

/-- The longest front of a text, in whole characters, that takes up at most so many bytes. -/
structure IsLongestWithin (limit : Nat) (text front : String) : Prop where
  isPrefix : front.toList <+: text.toList
  fits : front.utf8ByteSize ≤ limit
  longest : ∀ other : String, other.toList <+: text.toList → other.utf8ByteSize ≤ limit →
    other.toList <+: front.toList

/-- A text is cut to the longest front within the limit. -/
theorem isLongestWithin_takeWithin (limit : Nat) (text : String) :
    IsLongestWithin limit text (String.ofList (takeWithin limit text.toList)) where
  isPrefix := by
    rw [String.toList_ofList]
    exact takeWithin_isPrefix limit text.toList
  fits := by
    rw [utf8ByteSize_ofList]
    exact byteLength_takeWithin_le limit text.toList
  longest other hother hfits := by
    rw [String.toList_ofList]
    rw [utf8ByteSize_eq] at hfits
    exact isPrefix_takeWithin hother hfits

/-- A front of a text takes up no more bytes than the text. -/
theorem utf8ByteSize_le_of_isPrefix {text front : String} (h : front.toList <+: text.toList) :
    front.utf8ByteSize ≤ text.utf8ByteSize := by
  obtain ⟨back, hsplit⟩ := h
  rw [utf8ByteSize_eq, utf8ByteSize_eq, ← hsplit, byteLength_append]
  omega

/-- The cut is at the last boundary between characters within the limit. A byte offset is on such a
boundary if the bytes before it are those of whole characters. -/
theorem IsLongestWithin.isGreatest {limit : Nat} {text front : String}
    (h : IsLongestWithin limit text front) :
    IsGreatest {offset | offset ≤ limit ∧ String.Pos.Raw.IsValid text ⟨offset⟩}
      front.utf8ByteSize := by
  constructor
  · refine ⟨h.fits, String.Pos.Raw.isValid_iff_exists_append.mpr ?_⟩
    obtain ⟨back, hsplit⟩ := h.isPrefix
    refine ⟨front, String.ofList back, ?_, rfl⟩
    rw [← String.toList_inj, String.toList_append, String.toList_ofList, hsplit]
  · rintro offset ⟨hle, hvalid⟩
    obtain ⟨other, back, rfl, hoffset⟩ := String.Pos.Raw.isValid_iff_exists_append.mp hvalid
    obtain rfl : offset = other.utf8ByteSize := congrArg String.Pos.Raw.byteIdx hoffset
    have hother : other.toList <+: (other ++ back).toList := by
      rw [String.toList_append]
      exact List.prefix_append _ _
    exact utf8ByteSize_le_of_isPrefix (h.longest other hother hle)

/-! ## Stepping back to a boundary -/

/-- The byte goes on with a character that has started before: its highest bits are one and zero. -/
def isContinuation (b : UInt8) : Bool :=
  b.toNat / 64 = 2

/-- The offset is at the end of the bytes, or before one that starts a character. -/
def isBoundary (bytes : List UInt8) (offset : Nat) : Bool :=
  match bytes[offset]? with
  | some b => !isContinuation b
  | none => offset = bytes.length

/-- The boundary that is found by stepping back from the offset one byte at a time. -/
def backOff (bytes : List UInt8) : Nat → Nat
  | 0 => 0
  | offset + 1 => if isBoundary bytes (offset + 1) then offset + 1 else backOff bytes offset

/-- The bytes if they are within the limit, and otherwise those before the boundary that is found by
stepping back from it. -/
def cutBytes (limit : Nat) (bytes : List UInt8) : List UInt8 :=
  if bytes.length ≤ limit then bytes else bytes.take (backOff bytes limit)

/-- A byte that is less than 128, or at least 192, starts a character. -/
theorem isContinuation_ofNat_first {n : Nat} (h : n < 128 ∨ 192 ≤ n ∧ n < 256) :
    isContinuation (UInt8.ofNat n) = false := by
  rw [isContinuation, UInt8.toNat_ofNat']
  exact decide_eq_false (by omega)

/-- A byte that holds six bits of a code point goes on with a character. -/
theorem isContinuation_ofNat_bits (n : Nat) :
    isContinuation (UInt8.ofNat (n % 64 + 128)) = true := by
  rw [isContinuation, UInt8.toNat_ofNat']
  exact decide_eq_true (by omega)

/-- Only the first byte of a character starts one. -/
theorem utf8EncodeChar_eq_cons (c : Char) :
    ∃ first more, String.utf8EncodeChar c = first :: more ∧ isContinuation first = false ∧
      ∀ b ∈ more, isContinuation b = true := by
  unfold String.utf8EncodeChar
  generalize c.val.toNat = code
  dsimp only
  have hbits := isContinuation_ofNat_bits
  split_ifs
  · exact ⟨_, [], rfl, isContinuation_ofNat_first (by omega), List.forall_mem_nil _⟩
  · exact ⟨_, [_], rfl, isContinuation_ofNat_first (by omega),
      List.forall_mem_singleton.mpr (hbits _)⟩
  · exact ⟨_, [_, _], rfl, isContinuation_ofNat_first (by omega),
      List.forall_mem_cons.mpr ⟨hbits _, List.forall_mem_singleton.mpr (hbits _)⟩⟩
  · exact ⟨_, [_, _, _], rfl, isContinuation_ofNat_first (by omega),
      List.forall_mem_cons.mpr ⟨hbits _, List.forall_mem_cons.mpr
        ⟨hbits _, List.forall_mem_singleton.mpr (hbits _)⟩⟩⟩

/-- Bytes before an offset make no difference to whether it is a boundary. -/
theorem isBoundary_append (front back : List UInt8) (offset : Nat) :
    isBoundary (front ++ back) (front.length + offset) = isBoundary back offset := by
  simp [isBoundary, List.getElem?_append_right]

/-- A text starts at a boundary. -/
theorem isBoundary_zero (text : List Char) :
    isBoundary (text.flatMap String.utf8EncodeChar) 0 = true := by
  cases text with
  | nil => rfl
  | cons c text =>
    obtain ⟨first, more, hbytes, hfirst, -⟩ := utf8EncodeChar_eq_cons c
    simp [isBoundary, hbytes, hfirst]

/-- There is no boundary inside a character. -/
theorem isBoundary_inside {c : Char} {offset : Nat} (rest : List UInt8) (hpos : 0 < offset)
    (hlt : offset < c.utf8Size) :
    isBoundary (String.utf8EncodeChar c ++ rest) offset = false := by
  obtain ⟨first, more, hbytes, -, hmore⟩ := utf8EncodeChar_eq_cons c
  obtain ⟨place, rfl⟩ : ∃ place, offset = place + 1 := ⟨offset - 1, by omega⟩
  have hplace : place < more.length := by
    rw [← String.length_utf8EncodeChar, hbytes, List.length_cons] at hlt
    omega
  have hbyte : (String.utf8EncodeChar c ++ rest)[place + 1]? = some more[place] := by
    rw [hbytes, List.cons_append, List.getElem?_cons_succ, List.getElem?_append_left hplace,
      List.getElem?_eq_getElem hplace]
  rw [isBoundary, hbyte]
  simp only [hmore _ (List.getElem_mem hplace), Bool.not_true]

/-- From inside a character the first step back to a boundary leads before it. -/
theorem backOff_inside {c : Char} {offset : Nat} (rest : List UInt8) (hlt : offset < c.utf8Size) :
    backOff (String.utf8EncodeChar c ++ rest) offset = 0 := by
  induction offset with
  | zero => rfl
  | succ offset ih =>
    rw [backOff, isBoundary_inside rest (by omega) hlt, if_neg (by decide), ih (by omega)]

/-- Stepping back does not go on before a boundary. -/
theorem backOff_append (front : List UInt8) {back : List UInt8} (hback : isBoundary back 0 = true)
    (offset : Nat) :
    backOff (front ++ back) (front.length + offset) = front.length + backOff back offset := by
  induction offset with
  | zero =>
    have hend : isBoundary (front ++ back) front.length = true :=
      (isBoundary_append front back 0).trans hback
    rw [Nat.add_zero, backOff, Nat.add_zero]
    generalize front.length = length at hend
    cases length with
    | zero => rfl
    | succ length => rw [backOff, if_pos hend]
  | succ offset ih =>
    rw [← Nat.add_assoc, backOff, backOff, Nat.add_assoc, isBoundary_append, ih]
    split <;> rfl

/-- Characters that are within the limit stay, and what follows them is cut. -/
theorem cutBytes_append {limit : Nat} {front back : List UInt8} (hback : isBoundary back 0 = true)
    (hfront : front.length ≤ limit) :
    cutBytes limit (front ++ back) = front ++ cutBytes (limit - front.length) back := by
  obtain ⟨left, rfl⟩ := Nat.exists_eq_add_of_le hfront
  rw [cutBytes, cutBytes, List.length_append, Nat.add_sub_cancel_left, backOff_append front hback,
    List.take_length_add_append]
  split_ifs
  · rfl
  · omega
  · omega
  · rfl

/-- **Stepping back cuts a text where whole characters no longer fit.** -/
theorem flatMap_takeWithin (limit : Nat) (text : List Char) :
    (takeWithin limit text).flatMap String.utf8EncodeChar =
      cutBytes limit (text.flatMap String.utf8EncodeChar) := by
  induction text generalizing limit with
  | nil => simp [takeWithin, cutBytes]
  | cons c text ih =>
    have hsize : (String.utf8EncodeChar c).length = c.utf8Size := String.length_utf8EncodeChar c
    rw [takeWithin, List.flatMap_cons]
    split
    · rename_i hfits
      rw [List.flatMap_cons, ih, cutBytes_append (isBoundary_zero text) (by omega), hsize]
    · rename_i hlong
      have hlength : ¬ (String.utf8EncodeChar c ++
          text.flatMap String.utf8EncodeChar).length ≤ limit := by
        rw [List.length_append]
        omega
      rw [cutBytes, if_neg hlength, backOff_inside _ (by omega), List.take_zero, List.flatMap_nil]

/-! ## Fitting and padding -/

/-- A text that is fitted into a column takes up no more bytes than are allowed. -/
theorem byteLength_fitColumn_le {width : Nat} (hwidth : 3 ≤ width) (text : List Char) :
    byteLength (fitColumn width text) ≤ width := by
  rw [fitColumn]
  split
  · assumption
  · have hcut := byteLength_takeWithin_le (width - 3) text
    have hdots : byteLength ['.', '.', '.'] = 3 := by decide
    rw [byteLength_append, hdots]
    omega

/-- A text stays as it is exactly if it is within its column. -/
theorem fitColumn_eq_self_iff {width : Nat} (hwidth : 3 ≤ width) {text : List Char} :
    fitColumn width text = text ↔ byteLength text ≤ width := by
  constructor
  · intro h
    rw [← h]
    exact byteLength_fitColumn_le hwidth text
  · intro h
    rw [fitColumn, if_pos h]

/-- The field shows the text in a column of so many bytes: the whole text if it fits, and otherwise
as much of it as leaves room for three dots. -/
structure FitsColumn (width : Nat) (text field : String) : Prop where
  fits : field.utf8ByteSize ≤ width
  whole_iff : field = text ↔ text.utf8ByteSize ≤ width
  shortened : width < text.utf8ByteSize → ∃ front, IsLongestWithin (width - 3) text front ∧
      field = front ++ "..."

/-- Fitting a text into a column of three bytes or more does what it should. -/
theorem fitsColumn_fitColumn {width : Nat} (hwidth : 3 ≤ width) (text : String) :
    FitsColumn width text (String.ofList (fitColumn width text.toList)) where
  fits := by
    rw [utf8ByteSize_ofList]
    exact byteLength_fitColumn_le hwidth text.toList
  whole_iff := by
    rw [utf8ByteSize_eq, ← fitColumn_eq_self_iff hwidth, ← String.toList_inj, String.toList_ofList]
  shortened hlong := by
    refine ⟨_, isLongestWithin_takeWithin (width - 3) text, ?_⟩
    rw [utf8ByteSize_eq] at hlong
    rw [fitColumn, if_neg (by omega), String.ofList_append]

/-- Padding fills the column exactly if the text is no longer. -/
theorem length_padRight {width : Nat} {text : List Char} (h : text.length ≤ width) :
    (padRight width text).length = width := by
  rw [padRight, List.length_append, List.length_replicate]
  omega

end Text

open ClassAtlas.Text

namespace Render

/-- A text takes up as many characters as its column is wide. -/
theorem length_textColumn {width : Nat} (hwidth : 3 ≤ width) (text : String) :
    (textColumn width text).length = width := by
  rw [textColumn, String.length_ofList]
  apply length_padRight
  have hchars := length_le_byteLength (fitColumn width text.toList)
  have hbytes := byteLength_fitColumn_le hwidth text.toList
  omega

/-- A column holds the fitted text and blanks after it. -/
theorem exists_textColumn_eq (width : Nat) (text : String) :
    ∃ blanks, textColumn width text =
      String.ofList (fitColumn width text.toList) ++ String.ofList (List.replicate blanks ' ') :=
  ⟨_, String.ofList_append⟩

/-- A piece of a text is still one when something is appended. -/
theorem toList_infix_append_left {piece front : String} (back : String)
    (h : piece.toList <:+: front.toList) :
    piece.toList <:+: (front ++ back).toList := by
  rw [String.toList_append]
  exact List.infix_append_of_infix_left h

/-- A piece of a text is still one when it is appended to something. -/
theorem toList_infix_append_right {piece back : String} (front : String)
    (h : piece.toList <:+: back.toList) :
    piece.toList <:+: (front ++ back).toList := by
  rw [String.toList_append]
  exact List.infix_append_of_infix_right h

/-- The rows of the entities stand in the report one after the other. -/
theorem rows_infix_report (assessment : Assessment) :
    (String.join (assessment.entities.map reportRow)).toList <:+: (report assessment).toList := by
  have htable : (String.join (assessment.entities.map reportRow)).toList <:+:
      (entityTable assessment).toList := by
    unfold entityTable
    apply toList_infix_append_left
    apply toList_infix_append_left
    apply toList_infix_append_left
    exact toList_infix_append_right _ List.infix_rfl
  unfold report
  apply toList_infix_append_left
  apply toList_infix_append_left
  exact toList_infix_append_right _ htable

/-- The columns of a row after the name. -/
def figures (m : Metrics) : String :=
  countColumn 6 m.lines ++ " " ++ countColumn 5 m.complexity ++ " " ++
    countColumn 3 m.efferent ++ " " ++ countColumn 3 m.afferent ++ " " ++
    realColumn 5 2 m.instability ++ " " ++ realColumn 5 2 m.abstractness ++ " " ++
    realColumn 5 2 m.distance ++ "  " ++ m.quality.name ++ "\n"

/-- A row of the report is the column of the name with the figures after it. -/
theorem reportRow_eq (m : Metrics) :
    reportRow m = "  " ++ textColumn 22 m.name ++ " " ++ figures m := by
  delta reportRow figures
  simp only [String.append_assoc]

/-- **Texts fit their columns.** A text is cut to the longest front that takes up at most the
allowed bytes, which is at the last boundary between characters there. Its bytes are those which are
left by stepping back from the limit until a byte starts a character. In a column of three bytes or
more a text is shown whole if it fits, and otherwise cut to three bytes less with three dots after
it. So in the report, where the rows of the entities follow each other, every name takes up a field
of exactly 22 characters. -/
theorem texts_fit_columns (text : String) (limit : Nat) {width : Nat} (hwidth : 3 ≤ width)
    (assessment : Assessment) :
    IsLongestWithin limit text (String.ofList (takeWithin limit text.toList)) ∧
    IsGreatest {offset | offset ≤ limit ∧ String.Pos.Raw.IsValid text ⟨offset⟩}
      (String.ofList (takeWithin limit text.toList)).utf8ByteSize ∧
    bytes (String.ofList (takeWithin limit text.toList)) = cutBytes limit (bytes text) ∧
    FitsColumn width text (String.ofList (fitColumn width text.toList)) ∧
    (String.join (assessment.entities.map reportRow)).toList <:+: (report assessment).toList ∧
    ∀ m ∈ assessment.entities, ∃ field blanks, reportRow m = "  " ++ field ++ " " ++ figures m ∧
      field.length = 22 ∧
      field = String.ofList (fitColumn 22 m.name.toList) ++
        String.ofList (List.replicate blanks ' ') := by
  have hcut := isLongestWithin_takeWithin limit text
  have hbytes :
      bytes (String.ofList (takeWithin limit text.toList)) = cutBytes limit (bytes text) := by
    rw [bytes_eq, bytes_eq, String.toList_ofList, flatMap_takeWithin]
  refine ⟨hcut, hcut.isGreatest, hbytes, fitsColumn_fitColumn hwidth text,
    rows_infix_report assessment, ?_⟩
  intro m _
  obtain ⟨blanks, hfield⟩ := exists_textColumn_eq 22 m.name
  exact ⟨textColumn 22 m.name, blanks, reportRow_eq m, length_textColumn (by decide) m.name, hfield⟩

/-- The second letter takes up the second and third byte, so where two bytes are allowed it is cut
off as a whole. In the row the nineteenth byte is the first of two, and eighteen are left. -/
theorem texts_fit_columns_accented :
    3 ≤ 5 ∧ IsLongestWithin 2 "héllo" "h" ∧
    IsGreatest {offset | offset ≤ 2 ∧ String.Pos.Raw.IsValid "héllo" ⟨offset⟩} 1 ∧
    cutBytes 2 (bytes "héllo") = bytes "h" ∧
    FitsColumn 5 "héllo" "h..." ∧
    ∃ field blanks, reportRow (Entity.named "Größenänderungsübersicht").metrics =
        "  " ++ field ++ " " ++ figures (Entity.named "Größenänderungsübersicht").metrics ∧
        field.length = 22 ∧
      field = "Größenänderungs..." ++ String.ofList (List.replicate blanks ' ') := by
  obtain ⟨hcut, hlast, hbytes, hfits, -, hrows⟩ := texts_fit_columns "héllo" 2 (by decide : 3 ≤ 5)
    (Assessment.ofEntities [Entity.named "Größenänderungsübersicht"])
  have hfront : String.ofList (takeWithin 2 "héllo".toList) = "h" := by decide
  have hfield : String.ofList (fitColumn 5 "héllo".toList) = "h..." := by decide
  have hname : String.ofList (fitColumn 22 "Größenänderungsübersicht".toList) =
      "Größenänderungs..." := by decide
  rw [hfront] at hcut hlast hbytes
  rw [hfield] at hfits
  refine ⟨by decide, hcut, hlast, hbytes.symm, hfits, ?_⟩
  rw [← hname]
  exact hrows _ List.mem_cons_self

end Render

end ClassAtlas
