import ClassAtlas.Proofs.FieldLines
import ClassAtlas.Proofs.Nesting
import ClassAtlas.Proofs.RelationTargets

/-!
# Fields that are written are read

In a class with one field on each line exactly the fields that were written are found, and in the
container fields exactly the arguments. No occurrence reaches beyond the mark that ends its line, so
the lines can be read one by one. From this it follows what such a class aggregates and what it is
composed of.
-/

namespace ClassAtlas.Source

open ClassAtlas.Text

/-! ## Container fields -/

/-- Without a closing bracket there are no type arguments. -/
theorem containerArguments?_eq_none {text : List Char} (h : '>' ∉ text) :
    containerArguments? text = none := by
  induction text with
  | nil => rfl
  | cons c rest ih =>
    obtain ⟨hc, hrest⟩ := List.ne_and_not_mem_of_not_mem_cons h
    rw [containerArguments?, ih hrest]
    simp [Ne.symm hc]

/-- The type arguments of a container reach up to the only closing bracket. -/
theorem containerArguments?_flat {inner after rest : List Char}
    (hinner : ∀ c ∈ inner, c ≠ '<' ∧ c ≠ '>' ∧ endsTypeText c = false) (hafter : '>' ∉ after)
    (hname : afterFieldName? after = some rest) :
    containerArguments? (inner ++ '>' :: after) = some (inner, rest) := by
  induction inner with
  | nil =>
    rw [List.nil_append, containerArguments?, containerArguments?_eq_none hafter, hname]
    rfl
  | cons c inner ih =>
    obtain ⟨_, _, hends⟩ := hinner c List.mem_cons_self
    rw [List.cons_append, containerArguments?, hends,
      ih fun d hd => hinner d (List.mem_cons_of_mem c hd)]
    rfl

/-- A mark that the text does not hold is not found. -/
theorem afterMark?_eq_none {marks text : List Char} (h : ∀ mark ∈ marks, mark ∉ text) :
    afterMark? marks text = none := by
  rw [afterMark?]
  split
  · rfl
  · rename_i c tail heq
    have hmem : c ∈ afterBlanks text := heq ▸ List.mem_cons_self
    rw [if_neg fun hc => h c hc ((List.dropWhile_sublist isBlank).subset hmem)]

/-- Without an opening bracket there is no container field. -/
theorem containerField_eq_none (containers : NameSet) {text : List Char} (h : '<' ∉ text)
    (before : List Char) :
    containerField containers before text = none := by
  rw [containerField]
  split
  · rw [List.findSome?_eq_none_iff]
    intro container _
    rw [containerFieldOf?]
    cases hread : container.toList.isPrefixOf? text with
    | none => rfl
    | some rest =>
      have hrest : '<' ∉ rest := fun hmem =>
        h (List.isPrefixOf?_eq_some_iff_append_eq.mp hread ▸ List.mem_append_right _ hmem)
      rw [Option.bind_some, afterMark?_eq_none (by simpa using hrest)]
  · rfl

/-- Without an opening bracket there is no field of a container type. -/
theorem occurrences_containerField_eq_nil (containers : NameSet) {text : List Char}
    (h : '<' ∉ text) :
    occurrences (containerField containers) text = [] := by
  refine occurrences_eq_nil fun front c back heq =>
    containerField_eq_none containers (fun hmem => h ?_) _
  rw [heq]
  exact List.mem_append_right front hmem

/-- Only one of the readers reads anything. -/
theorem findSome?_eq_ite {α : Type} {list : List String} {name : String} {read : String → Option α}
    {result : Option α} (h : ∀ x ∈ list, read x = if x = name then result else none) :
    list.findSome? read = if name ∈ list then result else none := by
  induction list with
  | nil => simp
  | cons x list ih =>
    rw [List.findSome?_cons, h x List.mem_cons_self, ih fun y hy => h y (List.mem_cons_of_mem x hy)]
    by_cases hx : x = name
    · subst hx
      cases result <;> simp
    · simp [hx, Ne.symm hx]

section Containers

variable {containers : NameSet}
    (hcontainers : ∀ container ∈ containers, ∃ type : TypeIdentifier, type.name = container)

include hcontainers

/-- At a word the name of a container is read only if it is the whole word. A shorter one would be
followed by another character of the word, and a longer one would hold the character that ends the
word. -/
theorem containerFieldOf?_word {container : String} (hcontainer : container ∈ containers)
    {word : List Char} (hword : ∀ c ∈ word, isPlain c = true) {c : Char} (hc : isPlain c = false)
    (rest : List Char) :
    containerFieldOf? container (word ++ c :: rest) =
      if container = String.ofList word then
        (afterMark? ['<'] (c :: rest)).bind containerArguments?
      else none := by
  obtain ⟨type, rfl⟩ := hcontainers container hcontainer
  rw [containerFieldOf?, Identifier.name, String.toList_ofList]
  by_cases heq : type.text = word
  · have hread : type.text.isPrefixOf? (word ++ c :: rest) = some (c :: rest) :=
      List.isPrefixOf?_eq_some_iff_append_eq.mpr (by rw [heq])
    rw [hread, if_pos (by rw [heq]), Option.bind_some]
    cases afterMark? ['<'] (c :: rest) <;> rfl
  · have hne : String.ofList type.text ≠ String.ofList word :=
      fun h => heq (String.ofList_injective h)
    rw [if_neg hne]
    cases hread : type.text.isPrefixOf? (word ++ c :: rest) with
    | none => rfl
    | some tail =>
      have hsplit := List.isPrefixOf?_eq_some_iff_append_eq.mp hread
      rcases List.append_eq_append_iff.mp hsplit with ⟨more, hmore, htail⟩ | ⟨more, hmore, htail⟩
      · cases more with
        | nil => exact absurd (by rw [hmore, List.append_nil]) heq
        | cons d more =>
          have hd : isPlain d = true := hword d (by simp [hmore])
          have hangle : d ≠ '<' := by
            rintro rfl
            exact absurd hd (by decide)
          rw [Option.bind_some, htail, List.cons_append, afterMark?, afterBlanks_cons_of_isPlain hd]
          simp [hangle]
      · cases more with
        | nil => exact absurd (by rw [hmore, List.append_nil]) heq
        | cons d more =>
          obtain ⟨rfl, _⟩ := List.cons.inj htail
          exact absurd (by simp [hmore]) (type.not_mem_text hc)

/-- At a whole word a container field is read if the word is a container and a bracket follows. -/
theorem containerField_word {word : List Char} (hne : word ≠ [])
    (hword : ∀ c ∈ word, isPlain c = true) {c : Char} (hc : isPlain c = false) (rest : List Char) :
    containerField containers [] (word ++ c :: rest) =
      if String.ofList word ∈ containers then
        (afterMark? ['<'] (c :: rest)).bind containerArguments?
      else none := by
  have hboundary : atWordBoundary [] (word ++ c :: rest) = true := by
    obtain ⟨d, tail, rfl⟩ := List.exists_cons_of_ne_nil hne
    simp [atWordBoundary, atWordStart, isWordChar_of_isPlain (hword d List.mem_cons_self)]
  rw [containerField, if_pos hboundary]
  exact findSome?_eq_ite fun container hmem => containerFieldOf?_word hcontainers hmem hword hc rest

/-- A field of a container type starts a word. -/
theorem startsWords_containerField : (containerField containers).StartsWords := by
  intro before text hbefore
  rw [containerField]
  split
  · rename_i hboundary
    have hafter : atWordStart text = true := by simpa [atWordBoundary, hbefore] using hboundary
    rw [List.findSome?_eq_none_iff]
    intro container hmem
    obtain ⟨type, rfl⟩ := hcontainers container hmem
    have hread : type.text.isPrefixOf? text = none := by
      cases text with
      | nil => rfl
      | cons c rest =>
        have hne : type.first ≠ c := by
          rintro rfl
          rw [atWordStart, isWordChar_of_isPlain type.isPlain_first] at hafter
          cases hafter
        simp [Identifier.text, List.isPrefixOf?, hne]
    rw [containerFieldOf?, Identifier.name, String.toList_ofList, hread]
    rfl
  · rfl

/-- A field of a container type does not reach beyond a mark. -/
theorem endsAt_containerField_of_identifiers {mark : Char} (hmark : endsTypeText mark = true) :
    (containerField containers).EndsAt mark := by
  refine endsAt_containerField hmark fun container hmem => ?_
  obtain ⟨type, rfl⟩ := hcontainers container hmem
  rw [Identifier.name, String.toList_ofList]
  intro hin
  have hends := not_endsTypeText_of_isPlain (Identifier.isPlain_of_mem hin)
  rw [hmark] at hends
  cases hends

/-- No container field is found in front of the type. -/
theorem occurrences_containerField_modified (list : List Modifier) (rest : List Char) :
    occurrences (containerField containers) (modified list rest) =
      occurrences (containerField containers) rest := by
  induction list with
  | nil => rfl
  | cons modifier list ih =>
    have hnot : String.ofList modifier.word ∉ containers := by
      intro hmem
      obtain ⟨type, htype⟩ := hcontainers _ hmem
      have htext : type.text = modifier.word := String.ofList_injective htype
      exact type.first_not_mem modifier.word_mem (htext ▸ List.mem_cons_self)
    have hnone :
        containerField containers [] (modifier.word ++ ' ' :: modified list rest) = none := by
      rw [containerField_word hcontainers modifier.word_ne_nil
        (fun _ hc => Modifier.isPlain_of_mem hc) (by decide),
        if_neg hnot]
    rw [modified_cons,
      (startsWords_containerField hcontainers).occurrences_word
        (local_containerField containers) modifier.word_ne_nil
          (fun _ hc => isWordChar_of_isPlain (Modifier.isPlain_of_mem hc)) (by decide) hnone, ih]

/-- **A line is found as a container field if its type is a container with arguments**, and its
arguments are read. -/
theorem occurrences_containerField_declaration (line : FieldLine) :
    occurrences (containerField containers) ('\n' :: line.declaration) =
      if line.type.name ∈ containers ∧
      line.arguments ≠ [] then [argumentList line.arguments] else [] := by
  have hopen : '<' ∉ ' ' :: line.named := by
    simpa using line.not_mem_named (by decide) (by decide)
  have hclose : '>' ∉ ' ' :: line.named := by
    simpa using line.not_mem_named (by decide) (by decide)
  have hplain : ∀ c ∈ line.type.text, isPlain c = true := fun _ hc => Identifier.isPlain_of_mem hc
  rw [(local_containerField containers).occurrences_cons (by decide) rfl, FieldLine.declaration,
    occurrences_containerField_modified hcontainers]
  by_cases hnone : line.arguments = []
  · rw [FieldLine.argumentsText_of_nil hnone, if_neg fun h => h.2 hnone, List.nil_append]
    refine occurrences_containerField_eq_nil containers fun hmem => ?_
    rcases List.mem_append.mp hmem with hmem | hmem
    · exact line.type.not_mem_text (by decide) hmem
    · exact hopen hmem
  · let after := argumentList line.arguments ++ '>' :: ' ' :: line.named
    have hshape : line.argumentsText ++ ' ' :: line.named = '<' :: after := by
      simp [FieldLine.argumentsText_of_ne_nil hnone, after]
    have hread : containerField containers [] (line.type.text ++ '<' :: after) =
        if line.type.name ∈ containers then containerArguments? after else none :=
      containerField_word hcontainers line.type.text_ne_nil hplain (by decide) after
    rw [hshape]
    by_cases hmem : line.type.name ∈ containers
    · have harguments : containerArguments? after = some (argumentList line.arguments, []) :=
        containerArguments?_flat
          (fun _ hc => flat_argumentList hc) hclose line.afterFieldName?_named
      rw [if_pos ⟨hmem, hnone⟩]
      exact occurrences_eq_singleton (by simp) (by rw [hread, if_pos hmem, harguments])
    · rw [if_neg fun h => hmem h.1,
        (startsWords_containerField hcontainers).occurrences_word (local_containerField containers)
          line.type.text_ne_nil (fun c hc => isWordChar_of_isPlain (hplain c hc)) (by decide)
          (by rw [hread, if_neg hmem])]
      refine occurrences_containerField_eq_nil containers fun hin => ?_
      rcases List.mem_append.mp hin with hin | hin
      · exact (flat_argumentList hin).1 rfl
      · exact hopen (by simpa using hin)

end Containers

/-! ## A whole class -/

/-- The text ends with a mark that ends a field. -/
def EndsWithMark (text : List Char) : Prop :=
  ∃ front mark, endsTypeText mark = true ∧ text = front ++ [mark]

/-- Whatever stands before it, a text that ends with a mark does. -/
theorem EndsWithMark.append {text : List Char} (h : EndsWithMark text) (front : List Char) :
    EndsWithMark (front ++ text) := by
  obtain ⟨middle, mark, hmark, rfl⟩ := h
  exact ⟨front ++ middle, mark, hmark, by rw [List.append_assoc]⟩

/-- The declaration of a field ends with a mark. -/
theorem endsWithMark_declaration (line : FieldLine) : EndsWithMark ('\n' :: line.declaration) := by
  have hending : EndsWithMark line.ending := by
    unfold FieldLine.ending
    split
    · exact ⟨[' '], '=', rfl, rfl⟩
    · exact ⟨[], ';', rfl, rfl⟩
  have hshape : '\n' :: line.declaration =
      ('\n' :: modified line.modifiers
        (line.type.text ++ line.argumentsText ++ ' ' :: line.name.text)) ++
        line.ending := by
    simp [FieldLine.declaration, FieldLine.named, modified]
  rw [hshape]
  exact hending.append _

/-- The head of a class, piece by piece. -/
theorem classHead_eq (name : TypeIdentifier) :
    classHead name = ['c', 'l', 'a', 's', 's'] ++ ' ' :: (name.text ++ ' ' :: ['{']) := by
  simp [classHead]

/-- The head of a class ends with its brace. -/
theorem endsWithMark_classHead (name : TypeIdentifier) : EndsWithMark (classHead name) :=
  ⟨['c', 'l', 'a', 's', 's', ' '] ++ name.text ++ [' '], '{', rfl, by simp [classHead]⟩

section Class

variable {α : Type} {pattern : Recogniser α} (hlocal : pattern.Local)
  (hend : ∀ mark, endsTypeText mark = true → pattern.EndsAt mark)

include hlocal hend

/-- After a mark the search starts anew. -/
theorem EndsWithMark.occurrences_append {text : List Char} (h : EndsWithMark text)
    (rest : List Char) :
    occurrences pattern (text ++ rest) = occurrences pattern text ++ occurrences pattern rest := by
  obtain ⟨front, mark, hmark, rfl⟩ := h
  rw [List.append_assoc, List.singleton_append,
    (hend mark hmark).occurrences_append hlocal (not_isWordChar_of_endsTypeText hmark)]

/-- What is found in a class is found on its lines, one after another: every line ends with a
mark. -/
theorem occurrences_classText {name : TypeIdentifier}
    (hhead : occurrences pattern (classHead name) = [])
    (hnull : occurrences pattern " null;".toList = [])
    (hfoot : occurrences pattern ['\n', '}'] = [])
    (lines : List FieldLine) :
    occurrences pattern (classText name lines) =
      lines.flatMap fun line => occurrences pattern ('\n' :: line.declaration) := by
  have hvalue (line : FieldLine) (rest : List Char) :
      occurrences pattern (line.value ++ rest) = occurrences pattern rest := by
    unfold FieldLine.value
    split
    · have hmark : EndsWithMark " null;".toList := ⟨" null".toList, ';', rfl, rfl⟩
      rw [hmark.occurrences_append hlocal hend, hnull, List.nil_append]
    · rfl
  have hlines : occurrences pattern (lines.flatMap (fun line => '\n' :: line.text) ++ ['\n', '}']) =
      lines.flatMap fun line => occurrences pattern ('\n' :: line.declaration) := by
    induction lines with
    | nil => exact hfoot
    | cons line lines ih =>
      rw [List.flatMap_cons, List.flatMap_cons, line.text_eq, ← List.cons_append, List.append_assoc,
        List.append_assoc, (endsWithMark_declaration line).occurrences_append hlocal hend, hvalue,
        ih]
  rw [classText, List.append_assoc, (endsWithMark_classHead name).occurrences_append hlocal hend,
    hhead, hlines, List.nil_append]

end Class

/-- No field is declared on the first line of a class. -/
theorem occurrences_fieldDeclaration_classHead (name : TypeIdentifier) :
    occurrences fieldDeclaration (classHead name) = [] := by
  have hclass :
      fieldDeclaration []
        (['c', 'l', 'a', 's', 's'] ++ ' ' :: (name.text ++ ' ' :: ['{'])) = none :=
    fieldDeclaration_cons_eq_none (by decide) (by decide) _ _
  have hname : fieldDeclaration [] (name.text ++ ' ' :: ['{']) = none := by
    have hmodifiers : modifiers (name.text ++ ' ' :: ['{']) = ([], name.text ++ ' ' :: ['{']) :=
      modifiers_modified [] name.isPlain_first name.head?_ne_first _
    have htype : typeName? (name.text ++ ' ' :: ['{']) = some (name.text, ' ' :: ['{']) :=
      name.name?_text name.capital (by simp; decide)
    simp only [fieldDeclaration, hmodifiers, htype]
    rfl
  rw [classHead_eq,
    startsWords_fieldDeclaration.occurrences_word local_fieldDeclaration (by decide)
      (List.all_eq_true.mp (by decide)) (by decide) hclass,
    startsWords_fieldDeclaration.occurrences_word local_fieldDeclaration name.text_ne_nil
      (fun _ hc => isWordChar_of_isPlain (Identifier.isPlain_of_mem hc)) (by decide) hname]
  rfl

/-- **Exactly the fields that are written are read.** -/
theorem occurrences_fieldDeclaration_classText (name : TypeIdentifier) (lines : List FieldLine) :
    occurrences fieldDeclaration (classText name lines) = lines.map FieldLine.field := by
  have hline (line : FieldLine) :
      occurrences fieldDeclaration ('\n' :: line.declaration) = [line.field] := by
    have hne : line.declaration ≠ [] := by simp [FieldLine.declaration, modified]
    rw [local_fieldDeclaration.occurrences_cons (by decide)
      (fieldDeclaration_cons_eq_none (by decide) (by decide) _ _)]
    exact occurrences_eq_singleton hne (fieldDeclaration_declaration line)
  rw [occurrences_classText local_fieldDeclaration (fun _ hmark => endsAt_fieldDeclaration hmark)
    (occurrences_fieldDeclaration_classHead name) rfl rfl]
  simp only [hline]
  exact List.map_eq_flatMap.symm

/-- Exactly the arguments of the container fields are read. -/
theorem occurrences_containerField_classText {containers : NameSet}
    (hcontainers : ∀ container ∈ containers, ∃ type : TypeIdentifier, type.name = container)
    (name : TypeIdentifier) (lines : List FieldLine) :
    occurrences (containerField containers) (classText name lines) =
      lines.flatMap fun line =>
        if line.type.name ∈ containers ∧
        line.arguments ≠ [] then [argumentList line.arguments] else [] := by
  have hhead : '<' ∉ classHead name := by
    simpa [classHead] using name.not_mem_text (by decide)
  rw [occurrences_classText (local_containerField containers)
    (fun _ hmark => endsAt_containerField_of_identifiers hcontainers hmark)
    (occurrences_containerField_eq_nil containers hhead)
    (occurrences_containerField_eq_nil containers (by decide))
    (occurrences_containerField_eq_nil containers (by decide))]
  simp only [occurrences_containerField_declaration hcontainers]

/-- A class with fields has no parameters. -/
theorem maskParameters_classText (name : TypeIdentifier) (lines : List FieldLine) :
    maskParameters (classText name lines) = classText name lines := by
  have hname (identifier : Identifier) : '(' ∉ identifier.text :=
    identifier.not_mem_text (by decide)
  have hword (modifier : Modifier) : '(' ∉ modifier.word := by cases modifier <;> decide
  have harguments (line : FieldLine) : '(' ∉ line.argumentsText := by
    by_cases hnone : line.arguments = []
    · simp [FieldLine.argumentsText_of_nil hnone]
    · have hlist : '(' ∉ argumentList line.arguments :=
        fun hmem => absurd (mem_argumentList hmem) (by decide)
      simp [FieldLine.argumentsText_of_ne_nil hnone, hlist]
  have hline (line : FieldLine) : '(' ∉ line.text := by
    cases h : line.initialised <;> simp [FieldLine.text, modified, h, hname, hword, harguments]
  refine maskParameters_of_not_mem ?_
  simp [classText, classHead, hname, hline]

/-- The word for static fields is that of one modifier alone. -/
theorem Modifier.static_mem_words {modifiers : List Modifier} :
    "static".toList ∈ modifiers.map Modifier.word ↔ .static ∈ modifiers := by
  have hword : ∀ modifier : Modifier, modifier.word = "static".toList ↔ modifier = .static := by
    intro modifier
    cases modifier <;> decide
  rw [List.mem_map]
  simp only [hword, exists_eq_right]

/-- What is read from the container fields of a class are their known arguments. -/
theorem mem_containedTypes_classText {containers : NameSet}
    (hcontainers : ∀ container ∈ containers, ∃ type : TypeIdentifier, type.name = container)
    {own name : String} {known : NameSet} {className : TypeIdentifier} {lines : List FieldLine} :
    name ∈ containedTypes containers own known (classText className lines) ↔
      ∃ line ∈ lines, line.type.name ∈ containers ∧
        ∃ argument ∈ line.arguments, argument.name = name ∧ name ∈ known ∧ name ≠ own := by
  rw [mem_containedTypes, occurrences_containerField_classText hcontainers]
  constructor
  · rintro ⟨⟨arguments, harguments, found, hfound, rfl⟩, hown, hknown⟩
    obtain ⟨line, hline, hmem⟩ := List.mem_flatMap.mp harguments
    split at hmem
    · rename_i hcontainer
      rw [List.mem_singleton.mp hmem, occurrences_typeMention_argumentList] at hfound
      obtain ⟨argument, hargument, rfl⟩ := List.mem_map.mp hfound
      exact ⟨line, hline, hcontainer.1, argument, hargument, rfl, hknown, hown⟩
    · cases hmem
  · rintro ⟨line, hline, hcontainer, argument, hargument, rfl, hknown, hown⟩
    have hsome : line.arguments ≠ [] := List.ne_nil_of_mem hargument
    refine ⟨⟨argumentList line.arguments, List.mem_flatMap.mpr ⟨line, hline, ?_⟩, argument.text, ?_,
      rfl⟩, hown, hknown⟩
    · rw [if_pos ⟨hcontainer, hsome⟩]
      exact List.mem_singleton_self _
    · rw [occurrences_typeMention_argumentList]
      exact List.mem_map.mpr ⟨argument, hargument, rfl⟩

/-- The class is a singleton if one of its fields is static and of its own type. -/
theorem mem_singleton_fields {own name : String} {lines : List FieldLine} :
    name ∈ singleton own (lines.map FieldLine.field) ↔
      name = own ∧ ∃ line ∈ lines, .static ∈ line.modifiers ∧ line.type.name = own := by
  rw [mem_singleton]
  refine and_congr_right fun _ => ?_
  constructor
  · rintro ⟨field, hfield, htype, hstatic⟩
    obtain ⟨line, hline, rfl⟩ := List.mem_map.mp hfield
    exact ⟨line, hline, Modifier.static_mem_words.mp hstatic, htype⟩
  · rintro ⟨line, hline, hstatic, htype⟩
    exact ⟨line.field, List.mem_map.mpr ⟨line, hline, rfl⟩, htype,
      Modifier.static_mem_words.mpr hstatic⟩

/-- The names of types. -/
def namesOf (types : List TypeIdentifier) : NameSet :=
  NameSet.ofList (types.map (·.name))

/-- **The fields of a class are recovered.** What a class aggregates are the known arguments of its
container fields, and itself if it has a static field of its own type; what it is composed of are
the known types of its fields that are neither containers, nor itself, nor aggregated. -/
theorem fieldTargets_classText (containers : List TypeIdentifier) (own : String) (known : NameSet)
    (className : TypeIdentifier) (lines : List FieldLine) (name : String) :
    let found := fieldTargets (namesOf containers) own known (classText className lines)
    (name ∈ found.aggregation ↔
      (∃ line ∈ lines, line.type.name ∈ namesOf containers ∧
        ∃ argument ∈ line.arguments, argument.name = name ∧ name ∈ known ∧ name ≠ own) ∨
      (name = own ∧ ∃ line ∈ lines, .static ∈ line.modifiers ∧ line.type.name = own)) ∧
    (name ∈ found.composition ↔
      (∃ line ∈ lines, line.type.name = name ∧ name ∈ known ∧ name ≠ own ∧
        name ∉ namesOf containers) ∧
        name ∉ found.aggregation) := by
  have hcontainers : ∀ container ∈ namesOf containers, ∃ type :
      TypeIdentifier, type.name = container := by
    intro container hmem
    obtain ⟨type, _, rfl⟩ := List.mem_map.mp (NameSet.mem_ofList.mp hmem)
    exact ⟨type, rfl⟩
  intro found
  constructor
  · rw [mem_aggregation_fieldTargets, maskParameters_classText,
      occurrences_fieldDeclaration_classText, mem_containedTypes_classText hcontainers,
      mem_singleton_fields]
  · rw [mem_composition_fieldTargets, maskParameters_classText,
      occurrences_fieldDeclaration_classText]
    constructor
    · rintro ⟨⟨field, hfield, htype⟩, hown, hcontainer, hknown, haggregation⟩
      obtain ⟨line, hline, rfl⟩ := List.mem_map.mp hfield
      exact ⟨⟨line, hline, htype, hknown, hown, hcontainer⟩, haggregation⟩
    · rintro ⟨⟨line, hline, htype, hknown, hown, hcontainer⟩, haggregation⟩
      exact ⟨⟨line.field, List.mem_map.mpr ⟨line, hline, rfl⟩, htype⟩, hown, hcontainer, hknown,
        haggregation⟩

end ClassAtlas.Source
