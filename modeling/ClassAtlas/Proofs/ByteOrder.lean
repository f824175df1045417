import ClassAtlas.NameSet
import Mathlib.Data.List.Lex
import Mathlib.Tactic.SplitIfs

/-!
# Byte order

Names and paths are compared by their code points. This is the order of their bytes in UTF-8: a
character with a greater code point has greater bytes, whatever follows.
-/

namespace ClassAtlas.Text

/-- The bytes of a text in UTF-8. -/
def bytes (text : String) : List UInt8 :=
  text.toUTF8.data.toList

/-- The bytes of a text are those of its characters, one after the other. -/
theorem bytes_eq (text : String) : bytes text = text.toList.flatMap String.utf8EncodeChar := by
  conv => lhs; rw [← String.ofList_toList (s := text)]
  exact List.toList_data_toByteArray

/-- Bytes are compared as numbers, and those after them if they are equal. -/
theorem ofNat_cons_lt {m n : Nat} {front back : List UInt8} (hn : n < 256)
    (h : m < n ∨ m = n ∧ front < back) :
    UInt8.ofNat m :: front < UInt8.ofNat n :: back := by
  rw [List.cons_lt_cons_iff]
  rcases h with hlt | ⟨rfl, hrest⟩
  · left
    rw [UInt8.lt_iff_toNat_lt, UInt8.toNat_ofNat', UInt8.toNat_ofNat']
    omega
  · exact .inr ⟨rfl, hrest⟩

/-- Bytes that are followed by one with the last six bits of a number are compared as the numbers
are, if the bytes before are compared as the numbers without these bits. -/
theorem append_lastBits_lt (front back : List UInt8) {m n : Nat} (h : m < n)
    (hless : m / 64 < n / 64 → ∀ rest more, front ++ rest < back ++ more)
    (hsame : m / 64 = n / 64 → front = back) (rest more : List UInt8) :
    front ++ UInt8.ofNat (m % 64 + 128) :: rest < back ++ UInt8.ofNat (n % 64 + 128) :: more := by
  by_cases hlt : m / 64 < n / 64
  · exact hless hlt _ _
  · rw [hsame (by omega)]
    exact List.append_left_lt (ofNat_cons_lt (by omega) (.inl (by omega)))

/-- A character with a smaller code point has smaller bytes, whatever follows. -/
theorem utf8EncodeChar_append_lt {c d : Char} (h : c < d) (front back : List UInt8) :
    String.utf8EncodeChar c ++ front < String.utf8EncodeChar d ++ back := by
  have hcodes : c.val.toNat < d.val.toNat := h
  have hlast : d.val.toNat < 1114112 := by
    rcases d.valid with hvalid | hvalid <;> omega
  unfold String.utf8EncodeChar
  generalize c.val.toNat = m at hcodes
  generalize d.val.toNat = n at hcodes hlast
  have htwelve (k : Nat) : k / 4096 = k / 64 / 64 := (Nat.div_div_eq_div_mul k 64 64).symm
  have heighteen (k : Nat) : k / 262144 = k / 64 / 64 / 64 := by
    rw [← htwelve, Nat.div_div_eq_div_mul]
  simp only [htwelve, heighteen]
  -- Characters of different widths differ in the first byte. Those of one width are compared from
  -- the last byte on.
  split_ifs
  · exact ofNat_cons_lt (by omega) (.inl hcodes)
  · exact ofNat_cons_lt (by omega) (.inl (by omega))
  · exact ofNat_cons_lt (by omega) (.inl (by omega))
  · exact ofNat_cons_lt (by omega) (.inl (by omega))
  · omega
  · refine append_lastBits_lt [_] [_] hcodes (fun hless rest more => ?_)
      (fun hsame => by rw [hsame]) front back
    exact ofNat_cons_lt (by omega) (.inl (by omega))
  · exact ofNat_cons_lt (by omega) (.inl (by omega))
  · exact ofNat_cons_lt (by omega) (.inl (by omega))
  · omega
  · omega
  · refine append_lastBits_lt [_, _] [_, _] hcodes (fun hless => ?_)
      (fun hsame => by rw [hsame]) front back
    refine append_lastBits_lt [_] [_] hless (fun hless rest more => ?_) (fun hsame => by rw [hsame])
    exact ofNat_cons_lt (by omega) (.inl (by omega))
  · exact ofNat_cons_lt (by omega) (.inl (by omega))
  · omega
  · omega
  · omega
  · refine append_lastBits_lt [_, _, _] [_, _, _] hcodes (fun hless => ?_)
      (fun hsame => by rw [hsame]) front back
    refine append_lastBits_lt [_, _] [_, _] hless (fun hless => ?_) (fun hsame => by rw [hsame])
    refine append_lastBits_lt [_] [_] hless (fun hless rest more => ?_) (fun hsame => by rw [hsame])
    exact ofNat_cons_lt (by omega) (.inl (by omega))

/-- A smaller text has smaller bytes. -/
theorem flatMap_utf8EncodeChar_lt {text other : List Char} (h : text < other) :
    text.flatMap String.utf8EncodeChar < other.flatMap String.utf8EncodeChar := by
  induction h with
  | @nil d other =>
    rw [List.flatMap_nil, List.flatMap_cons]
    obtain ⟨b, more, hcons⟩ := List.exists_cons_of_ne_nil (String.utf8EncodeChar_ne_nil (c := d))
    rw [hcons]
    exact List.Lex.nil
  | rel h => exact utf8EncodeChar_append_lt h _ _
  | cons h ih => exact List.append_left_lt ih

/-- **The order of code points is the order of bytes.** -/
theorem bytes_lt_bytes_iff {text other : String} : bytes text < bytes other ↔ text < other := by
  have hmono {text other : String} (h : text < other) : bytes text < bytes other := by
    rw [bytes_eq, bytes_eq]
    exact flatMap_utf8EncodeChar_lt h
  refine ⟨fun h => ?_, hmono⟩
  by_contra hnot
  by_cases heq : text = other
  · subst heq
    exact List.lt_irrefl _ h
  · exact List.lt_asymm h (hmono (NameSet.lt_of_not_lt_of_ne hnot heq))

end ClassAtlas.Text
