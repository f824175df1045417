import ClassAtlas.Source.Fields
import ClassAtlas.Source.Outline
import Mathlib.Data.List.Infix

/-!
# Nesting

Braces and parentheses are counted in the same way: an opening bracket goes one deeper, a closing
bracket goes back, and a closing bracket that closes nothing is let pass. This file says how deep a
text leads and what that means for the two functions that count: the outline drops what stands too
deep, and the mask blanks what stands in parentheses. A text with balanced brackets leads back to
the depth where it starts, whatever stands around it. So what is written in the body of a method has
no influence on the outline.
-/

namespace ClassAtlas.Source

/-! ## Depth -/

/-- The depth after one more character. It does not fall below zero. -/
def nextDepth (opening closing : Char) (depth : Nat) (c : Char) : Nat :=
  if c = opening then depth + 1 else if c = closing then depth - 1 else depth

/-- The depth after a text that starts at the given depth. -/
def depthAfter (opening closing : Char) (depth : Nat) (text : List Char) : Nat :=
  text.foldl (nextDepth opening closing) depth

/-- The brackets of the text are balanced: no front of it closes more than it opens, and the whole
closes all. -/
structure Balanced (opening closing : Char) (text : List Char) : Prop where
  covered : ∀ front, front <+: text → front.count closing ≤ front.count opening
  settled : text.count opening = text.count closing

instance (opening closing : Char) (text : List Char) : Decidable (Balanced opening closing text) :=
  decidable_of_iff
    ((∀ front ∈ text.inits, front.count closing ≤ front.count opening) ∧
      text.count opening = text.count closing)
    ⟨fun h => ⟨fun front hfront => h.1 front ((List.mem_inits front text).mpr hfront), h.2⟩,
      fun h =>
        ⟨fun front hfront => h.covered front ((List.mem_inits front text).mp hfront), h.settled⟩⟩

/-- The text starts at the given depth and stays deeper than the floor. -/
def StaysAbove (opening closing : Char) (floor depth : Nat) (text : List Char) : Prop :=
  ∀ front, front <+: text → floor < depthAfter opening closing depth front

section Depth

variable {opening closing : Char} {floor depth : Nat} {text : List Char}

/-- The depth after a text is counted from its first character on. -/
@[simp] theorem depthAfter_cons (c : Char) : depthAfter opening closing depth (c :: text) =
    depthAfter opening closing (nextDepth opening closing depth c) text := rfl

/-- One character changes the depth by what it opens or closes. -/
theorem nextDepth_add_count {c : Char} (hne : opening ≠ closing)
    (h : [c].count closing ≤ depth + [c].count opening) :
    nextDepth opening closing depth c + [c].count closing = depth + [c].count opening := by
  rw [List.count_singleton, List.count_singleton] at *
  unfold nextDepth
  by_cases hopen : c = opening
  · subst hopen
    simp [hne]
  · by_cases hclose : c = closing
    · subst hclose
      simp only [beq_self_eq_true, if_true, beq_iff_eq, hopen, if_false] at h ⊢
      omega
    · simp [hopen, hclose]

/-- As long as nothing is closed that was not open, the depth changes by what is opened and
closed. -/
theorem depthAfter_add_count (hne : opening ≠ closing)
    (h : ∀ front, front <+: text → front.count closing ≤ depth + front.count opening) :
    depthAfter opening closing depth text + text.count closing = depth + text.count opening := by
  induction text generalizing depth with
  | nil => rfl
  | cons c rest ih =>
    have hcount (x : Char) (front : List Char) :
        (c :: front).count x = [c].count x + front.count x := by
      rw [← List.count_append, List.singleton_append]
    have hfirst := nextDepth_add_count hne (h [c] ⟨rest, rfl⟩)
    have hrest : ∀ front, front <+: rest →
        front.count closing ≤ nextDepth opening closing depth c + front.count opening := by
      intro front hfront
      have hcons := h (c :: front) (List.cons_prefix_cons.mpr ⟨rfl, hfront⟩)
      rw [hcount closing front, hcount opening front] at hcons
      omega
    have hdepth := ih hrest
    rw [depthAfter_cons, hcount closing rest, hcount opening rest]
    omega

namespace Balanced

/-- A balanced text never leads below the depth where it starts. -/
theorem le_depthAfter (h : Balanced opening closing text) (hne : opening ≠ closing)
    {front : List Char} (hfront : front <+: text) :
    depth ≤ depthAfter opening closing depth front := by
  have hcount :
      depthAfter opening closing depth front + front.count closing = depth + front.count opening :=
    depthAfter_add_count hne fun part hpart =>
      Nat.le_add_left_of_le (h.covered part (hpart.trans hfront))
  have hcovered := h.covered front hfront
  omega

/-- A balanced text leads back to the depth where it starts. -/
theorem depthAfter_eq (h : Balanced opening closing text) (hne : opening ≠ closing) :
    depthAfter opening closing depth text = depth := by
  have hcount :
      depthAfter opening closing depth text + text.count closing = depth + text.count opening :=
    depthAfter_add_count hne fun part hpart => Nat.le_add_left_of_le (h.covered part hpart)
  have hsettled := h.settled
  omega

/-- A balanced text never comes down to a floor that is below its start. -/
theorem staysAbove (h : Balanced opening closing text) (hne : opening ≠ closing)
    (hfloor : floor < depth) :
    StaysAbove opening closing floor depth text :=
  fun _ hfront => hfloor.trans_le (h.le_depthAfter hne hfront)

end Balanced

namespace StaysAbove

/-- A text that stays above the floor starts above it. -/
theorem floor_lt (h : StaysAbove opening closing floor depth text) : floor < depth :=
  h [] List.nil_prefix

/-- From its second character on the text stays above the floor as well. -/
theorem tail {c : Char} (h : StaysAbove opening closing floor depth (c :: text)) :
    StaysAbove opening closing floor (nextDepth opening closing depth c) text :=
  fun front hfront => h (c :: front) (List.cons_prefix_cons.mpr ⟨rfl, hfront⟩)

end StaysAbove

/-- Without an opening bracket a text leads nowhere deeper. -/
theorem depthAfter_le_of_not_mem (h : opening ∉ text) :
    depthAfter opening closing depth text ≤ depth := by
  induction text generalizing depth with
  | nil => exact le_rfl
  | cons c rest ih =>
    obtain ⟨hc, hrest⟩ := List.ne_and_not_mem_of_not_mem_cons h
    have hnext : nextDepth opening closing depth c ≤ depth := by
      rw [nextDepth, if_neg (Ne.symm hc)]
      split <;> omega
    exact (ih hrest).trans hnext

end Depth

/-! ## The outline -/

/-- What is outlined after a text depends on the depth to which the text leads. -/
theorem outlineFrom_append (limit depth : Nat) (front back : List Char) :
    outlineFrom limit depth (front ++ back) =
      outlineFrom limit depth front ++ outlineFrom limit (depthAfter '{' '}' depth front) back := by
  induction front generalizing depth with
  | nil => rfl
  | cons c front ih =>
    rw [List.cons_append, outlineFrom, outlineFrom, depthAfter_cons, nextDepth]
    split_ifs <;> simp [ih]

/-- A character that stands too deep is dropped. -/
theorem outlineFrom_cons_of_lt {limit depth : Nat} (h : limit < depth) (c : Char)
    (rest : List Char) :
    outlineFrom limit depth (c :: rest) = outlineFrom limit (nextDepth '{' '}' depth c) rest := by
  have hopen : ¬ depth + 1 ≤ limit := by omega
  have hwithin : ¬ depth ≤ limit := by omega
  rw [outlineFrom, nextDepth]
  simp only [hopen, hwithin, if_false]
  split_ifs <;> rfl

/-- A text that stays too deep is dropped. -/
theorem outlineFrom_eq_nil {limit depth : Nat} {text : List Char}
    (h : StaysAbove '{' '}' limit depth text) :
    outlineFrom limit depth text = [] := by
  induction text generalizing depth with
  | nil => rfl
  | cons c rest ih => rw [outlineFrom_cons_of_lt h.floor_lt, ih h.tail]

/-- A text that leads anywhere deeper has an opening brace. -/
theorem brace_mem_of_depthAfter_pos {text : List Char} (h : 0 < depthAfter '{' '}' 0 text) :
    '{' ∈ text := by
  by_contra hmem
  have hle : depthAfter '{' '}' 0 text ≤ 0 := depthAfter_le_of_not_mem hmem
  omega

/-- **The bodies of methods make no difference.** Whatever stands around it, a text with balanced
braces that starts deeper than the limit leaves no trace in the outline, and so none in the fields
that are read from it. -/
theorem outline_without_body (limit : Nat) (front body back : List Char)
    (hbody : Balanced '{' '}' body) (hdepth : limit < depthAfter '{' '}' 0 front) :
    outline limit (front ++ body ++ back) = outline limit (front ++ back) ∧
      ∀ (containers : NameSet) (own : String) (known : NameSet),
        fieldTargets containers own known (outline limit (front ++ body ++ back)) =
          fieldTargets containers own known (outline limit (front ++ back)) := by
  have hbrace : '{' ∈ front := brace_mem_of_depthAfter_pos (by omega)
  have houtline : outline limit (front ++ body ++ back) = outline limit (front ++ back) := by
    rw [outline, outline, if_pos (by simp [hbrace]), if_pos (by simp [hbrace])]
    rw [List.append_assoc, outlineFrom_append, outlineFrom_append, outlineFrom_append _ _ front,
      outlineFrom_eq_nil (hbody.staysAbove (by decide) hdepth), hbody.depthAfter_eq (by decide),
      List.nil_append]
  exact ⟨houtline, fun containers own known => by rw [houtline]⟩

/-- A body with a block of its own, in a class whose text has a stray closing brace before it and
lacks its last one. -/
theorem outline_without_body_nested :
    Balanced '{' '}' " B b; if (x) \x7b C c; \x7d ".toList ∧
      1 < depthAfter '{' '}' 0 "\x7d class A \x7b void f() \x7b".toList ∧
      outline 1
          ("\x7d class A \x7b void f() \x7b".toList ++ " B b; if (x) \x7b C c; \x7d ".toList ++
            "\x7d D d;".toList) =
        outline 1 ("\x7d class A \x7b void f() \x7b".toList ++ "\x7d D d;".toList) := by
  have hbody : Balanced '{' '}' " B b; if (x) \x7b C c; \x7d ".toList := by decide
  have hdepth : 1 < depthAfter '{' '}' 0 "\x7d class A \x7b void f() \x7b".toList := by decide
  exact ⟨hbody, hdepth, (outline_without_body 1 _ _ _ hbody hdepth).1⟩

/-! ## The mask -/

/-- What is masked after a text depends on the depth to which the text leads. -/
theorem maskParametersFrom_append (depth : Nat) (front back : List Char) :
    maskParametersFrom depth (front ++ back) =
      maskParametersFrom depth front ++
        maskParametersFrom (depthAfter '(' ')' depth front) back := by
  induction front generalizing depth with
  | nil => rfl
  | cons c front ih =>
    rw [List.cons_append, maskParametersFrom, maskParametersFrom, depthAfter_cons, nextDepth]
    split_ifs <;> simp [ih]

/-- A text without an opening parenthesis stays as it is. -/
theorem maskParameters_of_not_mem {text : List Char} (h : '(' ∉ text) :
    maskParameters text = text := by
  rw [maskParameters]
  induction text with
  | nil => rfl
  | cons c rest ih =>
    obtain ⟨hc, hrest⟩ := List.ne_and_not_mem_of_not_mem_cons h
    rw [maskParametersFrom, if_neg (Ne.symm hc), if_neg (Nat.lt_irrefl 0), ih hrest]
    split <;> rfl

/-- Inside parentheses only parentheses and spaces remain. -/
theorem mem_maskParametersFrom {depth : Nat} {text : List Char}
    (h : StaysAbove '(' ')' 0 depth text) {c : Char} (hc : c ∈ maskParametersFrom depth text) :
    c = '(' ∨ c = ')' ∨ c = ' ' := by
  induction text generalizing depth with
  | nil => cases hc
  | cons d rest ih =>
    have hdepth := h.floor_lt
    have hrest := ih h.tail
    unfold nextDepth at hrest
    rw [maskParametersFrom] at hc
    split_ifs at hrest hc with hopen hclose <;> rcases List.mem_cons.mp hc with rfl | hmem
    · exact .inl hopen
    · exact hrest hmem
    · exact .inr (.inl hclose)
    · exact hrest hmem
    · exact .inr (.inr rfl)
    · exact hrest hmem

end ClassAtlas.Source
