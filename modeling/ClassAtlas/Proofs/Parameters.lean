import ClassAtlas.Proofs.FieldMarks
import ClassAtlas.Proofs.Nesting

/-!
# Parameters are no fields

What stands in parentheses is blanked out before the fields are read. Here it is proved that this is
enough: no field reaches across a parenthesis and none is read from the blanks, so a parameter list
can be replaced by any other one without a change in the fields. The text around it need not be
balanced.
-/

namespace ClassAtlas.Source

open ClassAtlas.Text

/-- The characters that are left of a parameter list. -/
def IsMasked (text : List Char) : Prop :=
  ∀ c ∈ text, c = '(' ∨ c = ')' ∨ c = ' '

/-- No word character is left of what has been masked. -/
theorem IsMasked.not_isWordChar {text : List Char} (h : IsMasked text) {c : Char} (hc : c ∈ text) :
    isWordChar c = false := by
  rcases h c hc with rfl | rfl | rfl <;> decide

/-- No field is declared in what is left of a parameter list. -/
theorem IsMasked.occurrences_fieldDeclaration {text : List Char} (h : IsMasked text) :
    occurrences fieldDeclaration text = [] := by
  refine occurrences_eq_nil fun front c back heq => ?_
  rcases h c (by simp [heq]) with rfl | rfl
    | rfl <;> exact fieldDeclaration_cons_eq_none (by decide) (by decide) _ _

/-- No container field is found in what is left of a parameter list, whatever the names of
containers: there is no boundary of a word in it. -/
theorem IsMasked.occurrences_containerField {text : List Char} (h : IsMasked text)
    (containers : NameSet) :
    occurrences (containerField containers) text = [] := by
  refine occurrences_eq_nil fun front c back heq => ?_
  have hafter : atWordStart (c :: back) = true :=
    atWordStart_cons_eq_true (h.not_isWordChar (by simp [heq]))
  have hbefore : atWordStart front.reverse = true := by
    cases hfront : front.reverse with
    | nil => rfl
    | cons d before =>
      have hmem : d ∈ front := by rw [← List.mem_reverse, hfront]; exact List.mem_cons_self
      exact atWordStart_cons_eq_true (h.not_isWordChar (by simp [heq, hmem]))
  simp [containerField, atWordBoundary, hbefore, hafter]

/-- What is found in a text with a parameter list is found before and after it. -/
theorem occurrences_around_parameters {α : Type} {pattern : Recogniser α} (hlocal : pattern.Local)
    (hopen : pattern.EndsAt '(') (hclose : pattern.EndsAt ')')
    (hmasked : ∀ text, IsMasked text → occurrences pattern text = []) (front back : List Char)
    {parameters : List Char} (hparameters : Balanced '(' ')' parameters) :
    occurrences pattern (maskParameters (front ++ '(' :: (parameters ++ ')' :: back))) =
      occurrences pattern (maskParameters front ++ ['(']) ++
        occurrences pattern (maskParametersFrom (depthAfter '(' ')' 0 front) back) := by
  have hne : ('(' : Char) ≠ ')' := by decide
  let depth := depthAfter '(' ')' 0 front
  let masked := maskParametersFrom (depth + 1) parameters
  have hmask : maskParameters (front ++ '(' :: (parameters ++ ')' :: back)) =
      maskParameters front ++ '(' :: (masked ++ ')' :: maskParametersFrom depth back) := by
    rw [maskParameters, maskParametersFrom_append]
    congr 1
    rw [maskParametersFrom, if_pos rfl, maskParametersFrom_append, hparameters.depthAfter_eq hne]
    rfl
  have hblank : IsMasked (masked ++ [')']) := by
    intro c hc
    rcases List.mem_append.mp hc with hc | hc
    · exact mem_maskParametersFrom (hparameters.staysAbove hne (Nat.succ_pos depth)) hc
    · exact .inr (.inl (List.mem_singleton.mp hc))
  rw [hmask, hopen.occurrences_append hlocal (by decide),
    hclose.occurrences_append hlocal (by decide), hmasked _ hblank, List.nil_append]

/-- The field targets depend on what is found in the masked outline only. -/
theorem fieldTargets_congr {containers : NameSet} {outline outline' : List Char}
    (hfields : occurrences fieldDeclaration (maskParameters outline) =
      occurrences fieldDeclaration (maskParameters outline'))
    (hcontained : occurrences (containerField containers) (maskParameters outline) =
      occurrences (containerField containers) (maskParameters outline')) (own : String)
        (known : NameSet) :
    fieldTargets containers own known outline = fieldTargets containers own known outline' := by
  have htypes : containedTypes containers own known (maskParameters outline) =
      containedTypes containers own known (maskParameters outline') := by
    rw [containedTypes, containedTypes, hcontained]
  dsimp only [fieldTargets]
  rw [hfields, htypes]

/-- **Parameter lists make no difference to the fields.** Unless a container has a parenthesis in
its name, whatever stands between two parentheses can be replaced. -/
theorem fieldTargets_replace_parameters (containers : NameSet)
    (hcontainers : ∀ container ∈ containers, '(' ∉ container.toList ∧ ')' ∉ container.toList)
    (own : String) (known : NameSet) (front back : List Char) {parameters others : List Char}
    (hparameters : Balanced '(' ')' parameters) (hothers : Balanced '(' ')' others) :
    fieldTargets containers own known (front ++ ['('] ++ parameters ++ [')'] ++ back) =
      fieldTargets containers own known (front ++ ['('] ++ others ++ [')'] ++ back) := by
  have hfields {list : List Char} (hlist : Balanced '(' ')' list) :=
    occurrences_around_parameters local_fieldDeclaration (endsAt_fieldDeclaration (by decide))
      (endsAt_fieldDeclaration (by decide))
        (fun _ h => h.occurrences_fieldDeclaration) front back hlist
  have hcontained {list : List Char} (hlist : Balanced '(' ')' list) :=
    occurrences_around_parameters (local_containerField containers)
      (endsAt_containerField (by decide) fun container h => (hcontainers container h).1)
      (endsAt_containerField (by decide) fun container h => (hcontainers container h).2)
      (fun _ h => h.occurrences_containerField containers) front back hlist
  have hshape (list : List Char) :
      front ++ ['('] ++ list ++ [')'] ++ back = front ++ '(' :: (list ++ ')' :: back) := by
    simp
  rw [hshape, hshape]
  exact fieldTargets_congr ((hfields hparameters).trans (hfields hothers).symm)
    ((hcontained hparameters).trans (hcontained hothers).symm) own known

/-- The parameters of a method with a nested pair of parentheses, in a class that has a stray
parenthesis before the method and an open one after it. -/
theorem fieldTargets_replace_parameters_nested :
    Balanced '(' ')' "List<B> bs, @Max(9) C c".toList ∧ Balanced '(' ')' [] ∧
      fieldTargets (NameSet.ofList ["List"]) "A" (NameSet.ofList ["B", "C", "D"])
          (") class A \x7b D d; void f".toList ++ ['('] ++
            "List<B> bs, @Max(9) C c".toList ++ [')'] ++
            "; List<C> cs; void g(".toList) =
        fieldTargets (NameSet.ofList ["List"]) "A" (NameSet.ofList ["B", "C", "D"])
          (") class A \x7b D d; void f".toList ++ ['('] ++ [] ++ [')'] ++
            "; List<C> cs; void g(".toList) := by
  have hcontainers : ∀ container ∈ NameSet.ofList ["List"], '(' ∉ container.toList ∧
      ')' ∉ container.toList := by
    intro container hmem
    obtain rfl : container = "List" := by simpa using hmem
    decide
  have hparameters : Balanced '(' ')' "List<B> bs, @Max(9) C c".toList := by decide
  have hnone : Balanced '(' ')' [] := by decide
  exact ⟨hparameters, hnone,
    fieldTargets_replace_parameters _ hcontainers _ _ _ _ hparameters hnone⟩

end ClassAtlas.Source
