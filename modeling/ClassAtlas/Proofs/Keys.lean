import Mathlib.Algebra.BigOperators.Group.List.Basic
import Mathlib.Algebra.GroupWithZero.Nat
import Mathlib.Data.List.Nodup

/-!
# Finding, dividing and counting by keys

Entities are found by their names, files by their paths, and selections are made by folders. This
file states once what that does to a list when the keys tell its members apart, and how pairs of
members are counted.
-/

namespace ClassAtlas

/-- A member is found by its key if no other member has the same. -/
theorem find?_key_of_mem {α κ : Type} [DecidableEq κ] (key : α → κ) {list : List α}
    (hnodup : (list.map key).Nodup) {a : α} (ha : a ∈ list) :
    list.find? (fun b => key b = key a) = some a := by
  cases hfound : list.find? fun b => key b = key a with
  | none =>
    have hnone := List.find?_eq_none.mp hfound a ha
    simp at hnone
  | some b =>
    have hkey : key b = key a := by simpa using List.find?_some hfound
    rw [List.inj_on_of_nodup_map hnodup (List.mem_of_find?_eq_some hfound) ha hkey]

/-- A list is divided by keys that are all different and among which is the key of every member. -/
theorem perm_flatMap_filter_key {α κ : Type} [DecidableEq κ] (key : α → κ) {keys : List κ}
    (hnodup : keys.Nodup) {list : List α} (hkeys : ∀ a ∈ list, key a ∈ keys) :
    (keys.flatMap fun k => list.filter fun a => key a = k).Perm list := by
  induction keys generalizing list with
  | nil =>
    have hnil : list = [] :=
      List.eq_nil_iff_forall_not_mem.mpr fun a ha => List.not_mem_nil (hkeys a ha)
    simp [hnil]
  | cons first rest ih =>
    obtain ⟨hfirst, hrest⟩ := List.nodup_cons.mp hnodup
    -- The members with another key are divided by the other keys, and filtering them first changes
    -- nothing.
    have hothers : ∀ a ∈ list.filter (fun a => !decide (key a = first)), key a ∈ rest := by
      intro a ha
      obtain ⟨hmem, hother⟩ := List.mem_filter.mp ha
      exact (List.mem_cons.mp (hkeys a hmem)).resolve_left (by simpa using hother)
    have hsame :
        ∀ k ∈ rest, (list.filter fun a => !decide (key a = first)).filter (fun a => key a = k) =
          list.filter fun a => key a = k := by
      intro k hk
      rw [List.filter_filter]
      apply List.filter_congr
      intro a _
      have hne : k ≠ first := fun heq => hfirst (heq ▸ hk)
      by_cases ha : key a = k
      · simp [ha, hne]
      · simp [ha]
    have hdivided := ih hrest hothers
    rw [List.flatMap_congr hsame] at hdivided
    exact (hdivided.append_left _).trans (List.filter_append_perm _ list)

/-- Counting is adding up ones. -/
theorem countP_eq_sum {α : Type} (counts : α → Bool) (list : List α) :
    list.countP counts = (list.map fun a => if counts a then 1 else 0).sum := by
  induction list with
  | nil => rfl
  | cons a rest ih => rw [List.countP_cons, ih, List.map_cons, List.sum_cons, Nat.add_comm]

/-- The pairs in a relation can be counted from either end. -/
theorem sum_countP_comm {α β : Type} (related : α → β → Bool) (sources : List α)
    (targets : List β) :
    (sources.map fun source => targets.countP (related source)).sum =
      (targets.map fun target => sources.countP (related · target)).sum := by
  induction sources with
  | nil => simp
  | cons source rest ih =>
    have hcons : (targets.map fun target => (source :: rest).countP (related · target)).sum =
        (targets.map fun target => rest.countP (related · target)).sum +
          (targets.map fun target => if related source target then 1 else 0).sum := by
      rw [← List.sum_map_add]
      exact congrArg List.sum (List.map_congr_left fun target _ => List.countP_cons ..)
    rw [List.map_cons, List.sum_cons, ih, hcons, ← countP_eq_sum, Nat.add_comm]

end ClassAtlas
