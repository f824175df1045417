/-!
# Sets of names

A set of names is kept as a strictly ascending list, so that equal sets are equal values and every
listing of a set has one order, that of the code points.
-/

namespace ClassAtlas

/-- A finite set of names in ascending order. -/
structure NameSet where
  /-- The members, each once, in ascending order. -/
  toList : List String
  ascending : toList.Pairwise (· < ·)
  deriving DecidableEq, Repr

namespace NameSet

/-- The set without members. -/
def empty : NameSet :=
  ⟨[], .nil⟩

instance : Inhabited NameSet := ⟨empty⟩

instance : EmptyCollection NameSet := ⟨empty⟩

instance : Membership String NameSet := ⟨fun names name => name ∈ names.toList⟩

instance (name : String) (names : NameSet) : Decidable (name ∈ names) :=
  inferInstanceAs (Decidable (name ∈ names.toList))

/-- Insert into an ascending list, keeping it ascending. -/
def insertAscending (name : String) : List String → List String
  | [] => [name]
  | x :: rest =>
    if name < x then name :: x :: rest
    else if name = x then x :: rest
    else x :: insertAscending name rest

/-- Insertion adds the name and nothing else. -/
theorem mem_insertAscending {name x : String} {names : List String} :
    x ∈ insertAscending name names ↔ x = name ∨ x ∈ names := by
  induction names with
  | nil => simp [insertAscending]
  | cons y rest ih =>
    unfold insertAscending
    split
    · simp
    · split
      · rename_i heq
        subst heq
        simp
      · simp only [List.mem_cons, ih]
        constructor
        · rintro (h | h | h)
          · exact .inr (.inl h)
          · exact .inl h
          · exact .inr (.inr h)
        · rintro (h | h | h)
          · exact .inr (.inl h)
          · exact .inl h
          · exact .inr (.inr h)

/-- Of two different names one comes first. -/
theorem lt_of_not_lt_of_ne {a b : String} (hlt : ¬ a < b) (hne : a ≠ b) : b < a := by
  by_cases h : b < a
  · exact h
  · exact absurd (String.le_antisymm (String.not_lt.mp h) (String.not_lt.mp hlt)) hne

/-- Insertion keeps a list ascending. -/
theorem ascending_insertAscending {name : String} {names : List String}
    (h : names.Pairwise (· < ·)) : (insertAscending name names).Pairwise (· < ·) := by
  induction names with
  | nil => simp [insertAscending]
  | cons x rest ih =>
    obtain ⟨hx, hrest⟩ := List.pairwise_cons.mp h
    unfold insertAscending
    split
    · rename_i hlt
      refine List.pairwise_cons.mpr ⟨fun y hy => ?_, h⟩
      rcases List.mem_cons.mp hy with rfl | hy
      · exact hlt
      · exact String.lt_trans hlt (hx y hy)
    · split
      · exact h
      · rename_i hlt hne
        refine List.pairwise_cons.mpr ⟨fun y hy => ?_, ih hrest⟩
        rcases mem_insertAscending.mp hy with rfl | hy
        · exact lt_of_not_lt_of_ne hlt hne
        · exact hx y hy

/-- The set with one more name. -/
def insert (names : NameSet) (name : String) : NameSet :=
  ⟨insertAscending name names.toList, ascending_insertAscending names.ascending⟩

/-- The set of the names in a list. -/
def ofList : List String → NameSet
  | [] => empty
  | name :: rest => (ofList rest).insert name

/-- The members that satisfy a test. -/
def filter (names : NameSet) (keep : String → Bool) : NameSet :=
  ⟨names.toList.filter keep, names.ascending.filter keep⟩

/-- The members of either set. -/
def union (names others : NameSet) : NameSet :=
  others.toList.foldl insert names

/-- The number of members. -/
def size (names : NameSet) : Nat :=
  names.toList.length

/-- The list of a set has its members. -/
@[simp] theorem mem_toList {name : String} {names : NameSet} : name ∈ names.toList ↔ name ∈ names :=
  Iff.rfl

/-- The empty set has no member. -/
@[simp] theorem not_mem_empty (name : String) : ¬ name ∈ empty := by
  simp [← mem_toList, empty]

/-- A set with one more name has that name and those it had. -/
@[simp] theorem mem_insert {name x : String} {names : NameSet} :
    x ∈ names.insert name ↔ x = name ∨ x ∈ names :=
  mem_insertAscending

/-- The set of a list has the names on it. -/
@[simp] theorem mem_ofList {x : String} {list : List String} : x ∈ ofList list ↔ x ∈ list := by
  induction list with
  | nil => simp [ofList]
  | cons name rest ih => simp [ofList, ih]

/-- A filtered set has the members that pass. -/
@[simp] theorem mem_filter {x : String} {names : NameSet} {keep : String → Bool} :
    x ∈ names.filter keep ↔ x ∈ names ∧ keep x = true := by
  simp [← mem_toList, filter]

/-- A union has the members of both sets. -/
@[simp] theorem mem_union {x : String} {names others : NameSet} :
    x ∈ names.union others ↔ x ∈ names ∨ x ∈ others := by
  have hfold : ∀ (list : List String) (names : NameSet),
      x ∈ list.foldl insert names ↔ x ∈ names ∨ x ∈ list := by
    intro list
    induction list with
    | nil => simp
    | cons name rest ih =>
      intro names
      simp only [List.foldl_cons, ih, mem_insert, List.mem_cons, or_assoc, or_left_comm]
  exact hfold others.toList names

/-- In an ascending list nothing is listed twice. -/
theorem nodup_of_ascending {list : List String} (h : list.Pairwise (· < ·)) : list.Nodup := by
  refine List.Pairwise.imp ?_ h
  intro a b hlt heq
  exact String.lt_irrefl b (heq ▸ hlt)

/-- No member is listed twice. -/
theorem nodup (names : NameSet) : names.toList.Nodup :=
  nodup_of_ascending names.ascending

/-- Sets with the same members are equal. -/
theorem ext_mem {names others : NameSet} (h : ∀ x, x ∈ names ↔ x ∈ others) : names = others := by
  have hperm : names.toList.Perm others.toList :=
    (List.perm_ext_iff_of_nodup names.nodup others.nodup).mpr h
  have hlist : names.toList = others.toList :=
    hperm.eq_of_pairwise
      (fun _ _ _ _ hab hba => absurd (String.lt_trans hab hba) (String.lt_irrefl _))
      names.ascending others.ascending
  cases names
  cases others
  cases hlist
  rfl

end NameSet

end ClassAtlas
