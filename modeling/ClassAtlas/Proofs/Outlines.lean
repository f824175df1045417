import ClassAtlas.Settings
import ClassAtlas.Proofs.Nesting

/-!
# Outlines of outlines

An outline is itself a text with braces, of which an outline can be taken. What is dropped stands
deeper than the limit, and dropping it leaves the depth of everything else as it was: the depth
within the outline is the depth within the text, cut off at the limit. Hence two outlines in a row
are the one with the smaller limit, and a second outline with the same limit changes nothing. No
brace of the text needs to have a partner for this.
-/

namespace ClassAtlas.Source

/-! ## One character -/

/-- One character opens at most one level. -/
theorem nextDepth_le_succ (opening closing : Char) (depth : Nat) (c : Char) :
    nextDepth opening closing depth c ≤ depth + 1 := by
  unfold nextDepth
  split_ifs <;> omega

/-- One character closes at most one level. -/
theorem le_nextDepth_succ (opening closing : Char) (depth : Nat) (c : Char) :
    depth ≤ nextDepth opening closing depth c + 1 := by
  unfold nextDepth
  split_ifs <;> omega

/-- The outline keeps a character if the depth is within the limit on both sides of it. -/
theorem outlineFrom_cons (limit depth : Nat) (c : Char) (rest : List Char) :
    outlineFrom limit depth (c :: rest) =
      if depth ≤ limit ∧ nextDepth '{' '}' depth c ≤ limit then
        c :: outlineFrom limit (nextDepth '{' '}' depth c) rest
      else outlineFrom limit (nextDepth '{' '}' depth c) rest := by
  rw [outlineFrom, nextDepth]
  by_cases hopen : c = '{'
  · have hiff : depth ≤ limit ∧ depth + 1 ≤ limit ↔ depth + 1 ≤ limit := by omega
    simp only [if_pos hopen, hiff]
  · by_cases hclose : c = '}'
    · have hiff : depth ≤ limit ∧ depth - 1 ≤ limit ↔ depth ≤ limit := by omega
      simp only [if_neg hopen, if_pos hclose, hiff]
    · simp only [if_neg hopen, if_neg hclose, and_self]

/-- A character that is dropped makes no difference to the depth within the outline. -/
theorem min_nextDepth_of_dropped {limit depth : Nat} {c : Char}
    (h : ¬ (depth ≤ limit ∧ nextDepth '{' '}' depth c ≤ limit)) :
    min (nextDepth '{' '}' depth c) limit = min depth limit := by
  have hup := nextDepth_le_succ '{' '}' depth c
  have hdown := le_nextDepth_succ '{' '}' depth c
  omega

/-! ## The whole text -/

/-- The depth within an outline is the depth within the text, cut off at the limit. -/
theorem depthAfter_outlineFrom (limit depth : Nat) (text : List Char) :
    depthAfter '{' '}' (min depth limit) (outlineFrom limit depth text) =
      min (depthAfter '{' '}' depth text) limit := by
  induction text generalizing depth with
  | nil => rfl
  | cons c rest ih =>
    rw [outlineFrom_cons, depthAfter_cons]
    split
    · rename_i hkept
      have hhere : min depth limit = depth := by omega
      have hnext := ih (nextDepth '{' '}' depth c)
      rw [Nat.min_eq_left hkept.2] at hnext
      rw [hhere, depthAfter_cons, hnext]
    · rename_i hdropped
      rw [← min_nextDepth_of_dropped hdropped]
      exact ih _

/-- The outline of an outline is the outline with the smaller limit. The second outline starts where
the first one does, at the depth that the first one shows. -/
theorem outlineFrom_outlineFrom (within limit depth : Nat) (text : List Char) :
    outlineFrom within (min depth limit) (outlineFrom limit depth text) =
      outlineFrom (min within limit) depth text := by
  induction text generalizing depth with
  | nil => rfl
  | cons c rest ih =>
    have hnext := ih (nextDepth '{' '}' depth c)
    rw [outlineFrom_cons limit, outlineFrom_cons (min within limit)]
    split
    · rename_i hkept
      have hhere : min depth limit = depth := by omega
      have hboth : depth ≤ min within limit ∧ nextDepth '{' '}' depth c ≤ min within limit ↔
          depth ≤ within ∧ nextDepth '{' '}' depth c ≤ within := by omega
      rw [Nat.min_eq_left hkept.2] at hnext
      simp only [hhere, outlineFrom_cons within, hnext, hboth]
    · rename_i hdropped
      have hneither :
          ¬ (depth ≤ min within limit ∧ nextDepth '{' '}' depth c ≤ min within limit) := by omega
      rw [if_neg hneither, ← hnext, min_nextDepth_of_dropped hdropped]

/-- An outline leaves characters out and keeps the others in their order. -/
theorem outlineFrom_sublist (limit depth : Nat) (text : List Char) :
    (outlineFrom limit depth text).Sublist text := by
  induction text generalizing depth with
  | nil => exact List.Sublist.slnil
  | cons c rest ih =>
    rw [outlineFrom_cons]
    split
    · exact (ih _).cons_cons c
    · exact (ih _).cons c

/-- The first opening brace of a text is one deep. -/
theorem brace_mem_outlineFrom {limit : Nat} (hlimit : 1 ≤ limit) {text : List Char}
    (h : '{' ∈ text) :
    '{' ∈ outlineFrom limit 0 text := by
  induction text with
  | nil => cases h
  | cons c rest ih =>
    by_cases hc : c = '{'
    · subst hc
      have hkept : 0 ≤ limit ∧ nextDepth '{' '}' 0 '{' ≤ limit := ⟨by omega, hlimit⟩
      rw [outlineFrom_cons, if_pos hkept]
      exact List.mem_cons_self
    · have hrest : '{' ∈ rest := (List.mem_cons.mp h).resolve_left (Ne.symm hc)
      have hnext : nextDepth '{' '}' 0 c = 0 := by
        rw [nextDepth, if_neg hc]
        split <;> rfl
      have hmem := ih hrest
      rw [outlineFrom_cons, hnext]
      split
      · exact List.mem_cons_of_mem c hmem
      · exact hmem

/-- What stands at the front of an outline is the outline of what stands at the front of the
text. -/
theorem exists_prefix_of_outlineFrom {limit depth : Nat} {text front : List Char}
    (h : front <+: outlineFrom limit depth text) :
    ∃ part, part <+: text ∧ outlineFrom limit depth part = front := by
  induction text generalizing depth front with
  | nil => exact ⟨[], List.nil_prefix, (List.prefix_nil.mp h).symm⟩
  | cons c rest ih =>
    rw [outlineFrom_cons] at h
    split at h
    · rename_i hkept
      rcases List.prefix_cons_iff.mp h with rfl | ⟨tail, rfl, htail⟩
      · exact ⟨[], List.nil_prefix, rfl⟩
      · obtain ⟨part, hpart, heq⟩ := ih htail
        refine ⟨c :: part, List.cons_prefix_cons.mpr ⟨rfl, hpart⟩, ?_⟩
        rw [outlineFrom_cons, if_pos hkept, heq]
    · rename_i hdropped
      obtain ⟨part, hpart, heq⟩ := ih h
      refine ⟨c :: part, List.cons_prefix_cons.mpr ⟨rfl, hpart⟩, ?_⟩
      rw [outlineFrom_cons, if_neg hdropped, heq]

/-! ## Outlines -/

/-- A text with an opening brace has the outline that is read from its start. -/
theorem outline_of_mem {text : List Char} (h : '{' ∈ text) (limit : Nat) :
    outline limit text = outlineFrom limit 0 text :=
  if_pos h

/-- A text without an opening brace has no outline. -/
theorem outline_of_not_mem {text : List Char} (h : '{' ∉ text) (limit : Nat) :
    outline limit text = [] :=
  if_neg h

/-- An outline of one level or more has an opening brace exactly if the text has one. -/
theorem brace_mem_outline_iff {limit : Nat} (hlimit : 1 ≤ limit) {text : List Char} :
    '{' ∈ outline limit text ↔ '{' ∈ text := by
  by_cases h : '{' ∈ text
  · rw [outline_of_mem h]
    exact iff_of_true (brace_mem_outlineFrom hlimit h) h
  · rw [outline_of_not_mem h]
    exact iff_of_false List.not_mem_nil h

/-- Two outlines in a row are one. A text with a brace keeps one at any limit but zero, so that the
second outline is not the empty one of a text without braces. -/
theorem outline_outline_eq {limit : Nat} (hlimit : 1 ≤ limit) (within : Nat) (text : List Char) :
    outline within (outline limit text) = outline (min within limit) text := by
  by_cases h : '{' ∈ text
  · have hstill : '{' ∈ outline limit text := (brace_mem_outline_iff hlimit).mpr h
    have hcompose := outlineFrom_outlineFrom within limit 0 text
    rw [Nat.zero_min] at hcompose
    rw [outline_of_mem hstill, outline_of_mem h, outline_of_mem h, hcompose]
  · rw [outline_of_not_mem h, outline_of_not_mem h]
    rfl

/-- The outline of a text is what remains when characters are left out of it. -/
theorem outline_sublist (limit : Nat) (text : List Char) : (outline limit text).Sublist text := by
  unfold outline
  split
  · exact outlineFrom_sublist limit 0 text
  · exact List.nil_sublist text

/-- Nothing in an outline is deeper than the limit. -/
theorem depthAfter_le_of_prefix_outline {limit : Nat} {text front : List Char}
    (h : front <+: outline limit text) :
    depthAfter '{' '}' 0 front ≤ limit := by
  by_cases hbrace : '{' ∈ text
  · rw [outline_of_mem hbrace] at h
    obtain ⟨part, -, rfl⟩ := exists_prefix_of_outlineFrom h
    have hdepth := depthAfter_outlineFrom limit 0 part
    rw [Nat.zero_min] at hdepth
    rw [hdepth]
    exact Nat.min_le_right _ _
  · rw [outline_of_not_mem hbrace] at h
    rw [List.prefix_nil.mp h]
    exact Nat.zero_le limit

/-- Settings that can be used have an outline that shows something. -/
theorem one_le_outlineDepth {settings : Settings} (h : settings.validate = .ok ()) :
    1 ≤ settings.outlineDepth := by
  by_contra hzero
  have hdepth : settings.outlineDepth = 0 := by omega
  have hfault : settings.fault? ≠ none := by
    unfold Settings.fault?
    split_ifs <;> simp
  unfold Settings.validate at h
  cases hread : settings.fault? with
  | none => exact hfault hread
  | some fault =>
    rw [hread] at h
    cases h

/-- **Outlines combine to the one with the smaller limit.** Besides, an outline is what is left of
the text after dropping characters, it has an opening brace if the text has one, and nothing in it
is deeper than its limit. So with settings that can be used a second outline changes nothing. -/
theorem outline_outline_min (limit : Nat) (hlimit : 1 ≤ limit) (text : List Char) :
    (∀ within, outline within (outline limit text) = outline (min within limit) text) ∧
      (outline limit text).Sublist text ∧ ('{' ∈ outline limit text ↔ '{' ∈ text) ∧
      (∀ front, front <+: outline limit text → depthAfter '{' '}' 0 front ≤ limit) ∧
      ∀ settings : Settings, settings.validate = .ok () →
        outline settings.outlineDepth (outline settings.outlineDepth text) =
          outline settings.outlineDepth text := by
  refine ⟨fun within => outline_outline_eq hlimit within text, outline_sublist limit text,
    brace_mem_outline_iff hlimit, fun front hfront => depthAfter_le_of_prefix_outline hfront, ?_⟩
  intro settings hvalid
  rw [outline_outline_eq (one_le_outlineDepth hvalid), Nat.min_self]

/-- A text with a stray closing brace in front, blocks three deep and no end for the last two. -/
theorem outline_outline_min_unbalanced :
    (1 ≤ 2 ∧ Settings.standard.validate = .ok ()) ∧
      outline 1 (outline 2 "\x7d a \x7b b \x7b c \x7b d \x7d e \x7d f \x7b g \x7b h".toList) =
        outline 1 "\x7d a \x7b b \x7b c \x7b d \x7d e \x7d f \x7b g \x7b h".toList ∧
      outline 1 (outline 1 "\x7d a \x7b b \x7b c \x7b d \x7d e \x7d f \x7b g \x7b h".toList) =
        outline 1 "\x7d a \x7b b \x7b c \x7b d \x7d e \x7d f \x7b g \x7b h".toList := by
  have hvalid : Settings.standard.validate = .ok () := by decide +kernel
  have hall :=
    outline_outline_min 2
      (by decide) "\x7d a \x7b b \x7b c \x7b d \x7d e \x7d f \x7b g \x7b h".toList
  exact ⟨⟨by decide, hvalid⟩, hall.1 1, hall.2.2.2.2 .standard hvalid⟩

end ClassAtlas.Source
