import ClassAtlas.Proofs.Dependants

/-!
# Targets of relations

Each reader of a source text filters what it finds by the known types and the name of the type
itself. This file states what every filter lets through and combines them: in the corpus of any
source files all relations lead to types of the corpus, and only aggregation may lead back to the
type it starts from.
-/

namespace ClassAtlas

open ClassAtlas.Source ClassAtlas.Text

/-! ## What the readers let through -/

namespace Source

/-- A text refers to the known types other than the own one that one of the patterns reads in it. -/
theorem mem_references {own name : String} {known : NameSet} {text : List Char} :
    name ∈ references own known text ↔
      (∃ pattern ∈ referencePatterns, ∃ found ∈ occurrences pattern text,
        String.ofList found = name) ∧ name ≠ own ∧ name ∈ known := by
  simp only [references, NameSet.mem_ofList, List.mem_filter, List.mem_map, List.mem_flatMap,
    decide_eq_true_eq]
  constructor
  · rintro ⟨⟨found, ⟨pattern, hpattern, hfound⟩, hname⟩, hkept⟩
    exact ⟨⟨pattern, hpattern, found, hfound, hname⟩, hkept⟩
  · rintro ⟨⟨pattern, hpattern, found, hfound, hname⟩, hkept⟩
    exact ⟨⟨found, ⟨pattern, hpattern, hfound⟩, hname⟩, hkept⟩

/-- The types in container fields that count are known and not the own type. -/
theorem mem_containedTypes {containers : NameSet} {own name : String} {known : NameSet}
    {members : List Char} :
    name ∈ containedTypes containers own known members ↔
      (∃ arguments ∈ occurrences (containerField containers) members,
        ∃ found ∈ occurrences typeMention arguments, String.ofList found = name) ∧
        name ≠ own ∧ name ∈ known := by
  simp only [containedTypes, List.mem_filter, List.mem_map, List.mem_flatMap, decide_eq_true_eq]
  constructor
  · rintro ⟨⟨found, ⟨arguments, harguments, hfound⟩, hname⟩, hkept⟩
    exact ⟨⟨arguments, harguments, found, hfound, hname⟩, hkept⟩
  · rintro ⟨⟨arguments, harguments, found, hfound, hname⟩, hkept⟩
    exact ⟨⟨found, ⟨arguments, harguments, hfound⟩, hname⟩, hkept⟩

/-- A singleton aggregates the own type and no other. -/
theorem mem_singleton {own name : String} {fields : List Field} :
    name ∈ singleton own fields ↔ name = own ∧
      ∃ field ∈ fields, String.ofList field.type = own ∧ "static".toList ∈ field.modifiers := by
  have hany : (fields.any fun field =>
      String.ofList field.type = own ∧ "static".toList ∈ field.modifiers) = true ↔
      ∃ field ∈ fields, String.ofList field.type = own ∧ "static".toList ∈ field.modifiers := by
    simp only [List.any_eq_true, decide_eq_true_eq]
  unfold singleton
  split
  · rename_i h
    rw [List.mem_singleton, and_iff_left (hany.mp h)]
  · rename_i h
    exact iff_of_false List.not_mem_nil fun hname => h (hany.mpr hname.2)

/-- A type aggregates the known types in its container fields, and itself if it is a singleton. -/
theorem mem_aggregation_fieldTargets {containers : NameSet} {own name : String} {known : NameSet}
    {outline : List Char} :
    name ∈ (fieldTargets containers own known outline).aggregation ↔
      name ∈ containedTypes containers own known (maskParameters outline) ∨
        name ∈ singleton own (occurrences fieldDeclaration (maskParameters outline)) := by
  simp [fieldTargets]

/-- A type is composed of the known types of its fields that are neither itself, nor containers, nor
aggregated. -/
theorem mem_composition_fieldTargets {containers : NameSet} {own name : String} {known : NameSet}
    {outline : List Char} :
    name ∈ (fieldTargets containers own known outline).composition ↔
      (∃ field ∈ occurrences fieldDeclaration (maskParameters outline),
        String.ofList field.type = name) ∧ name ≠ own ∧ name ∉ containers ∧ name ∈ known ∧
        name ∉ (fieldTargets containers own known outline).aggregation := by
  simp [fieldTargets, and_assoc]

end Source

/-! ## What a single file can say -/

namespace Entity

variable {settings : Settings} {known : NameSet} {path source name : String}

/-- The superclass of a type is the class it extends, if that is a known type other than itself. -/
theorem superclass_ofSource :
    (ofSource settings known path source).superclass = some name ↔
      superclass? (withoutNoise source.toList) = some name ∧ name ≠ Path.typeName path ∧
      name ∈ known := by
  simp only [ofSource, Declaration.ofText, Option.filter_eq_some_iff, decide_eq_true_eq]

/-- The interfaces of a type are the known types other than itself that it names in its header. -/
theorem mem_interfaces_ofSource :
    name ∈ (ofSource settings known path source).interfaces ↔
      name ∈ Source.interfaces (withoutNoise source.toList) ∧ name ≠ Path.typeName path ∧
      name ∈ known := by
  simp only [ofSource, Declaration.ofText, NameSet.mem_filter, decide_eq_true_eq]

/-- What a type is composed of are known types, and neither itself, nor containers, nor
aggregated. -/
theorem composition_ofSource (h : name ∈ (ofSource settings known path source).composition) :
    name ≠ Path.typeName path ∧ name ∉ settings.containerTypes ∧ name ∈ known ∧
      name ∉ (ofSource settings known path source).aggregation := by
  obtain ⟨-, hown, hcontainer, hknown, haggregation⟩ := mem_composition_fieldTargets.mp h
  exact ⟨hown, fun hmem => hcontainer (NameSet.mem_ofList.mpr hmem), hknown, haggregation⟩

/-- What a type aggregates are known types, and possibly itself. -/
theorem aggregation_ofSource (h : name ∈ (ofSource settings known path source).aggregation) :
    name = Path.typeName path ∨ name ∈ known := by
  rcases mem_aggregation_fieldTargets.mp h with h | h
  · exact .inr (mem_containedTypes.mp h).2.2
  · exact .inl (mem_singleton.mp h).1

/-- What a type refers to are known types other than itself. -/
theorem efferent_ofSource (h : name ∈ (ofSource settings known path source).efferent) :
    name ≠ Path.typeName path ∧ name ∈ known :=
  (mem_references.mp h).2

/-- The relations of an entity are in order: they lead to declared types, only aggregation leads
back to the type itself, and what the type is composed of is neither aggregated nor a container. -/
structure WellRelated (containers : List String) (Declared : String → Prop)
    (entity : Entity) : Prop where
  superclass_declared : ∀ target, entity.superclass = some target → Declared target
  interfaces_declared : ∀ target ∈ entity.interfaces, Declared target
  composition_declared : ∀ target ∈ entity.composition, Declared target
  aggregation_declared : ∀ target ∈ entity.aggregation, Declared target
  efferent_declared : ∀ target ∈ entity.efferent, Declared target
  afferent_declared : ∀ target ∈ entity.afferent, Declared target
  superclass_other : entity.superclass ≠ some entity.name
  interfaces_other : entity.name ∉ entity.interfaces
  composition_other : entity.name ∉ entity.composition
  efferent_other : entity.name ∉ entity.efferent
  afferent_other : entity.name ∉ entity.afferent
  composition_not_aggregated : ∀ target ∈ entity.composition, target ∉ entity.aggregation
  composition_not_container : ∀ target ∈ entity.composition, target ∉ containers

/-- A single file keeps the relations of its type in order when the type itself is known. -/
theorem ofSource_wellRelated (hown : Path.typeName path ∈ known) :
    (ofSource settings known path source).WellRelated settings.containerTypes (· ∈ known) where
  superclass_declared _ h := (superclass_ofSource.mp h).2.2
  interfaces_declared _ h := (mem_interfaces_ofSource.mp h).2.2
  composition_declared _ h := (composition_ofSource h).2.2.1
  aggregation_declared _ h := by
    rcases aggregation_ofSource h with rfl | hknown
    · exact hown
    · exact hknown
  efferent_declared _ h := (efferent_ofSource h).2
  afferent_declared target h := absurd h (NameSet.not_mem_empty target)
  superclass_other h := (superclass_ofSource.mp h).2.1 rfl
  interfaces_other h := (mem_interfaces_ofSource.mp h).2.1 rfl
  composition_other h := (composition_ofSource h).1 rfl
  efferent_other h := (efferent_ofSource h).1 rfl
  afferent_other := NameSet.not_mem_empty _
  composition_not_aggregated _ h := (composition_ofSource h).2.2.2
  composition_not_container _ h := (composition_ofSource h).2.1

/-- The relations stay in order when dependants are filled in that are declared and other types. -/
theorem WellRelated.withAfferent {containers : List String} {Declared : String → Prop}
    {entity : Entity} (h : entity.WellRelated containers Declared) {names : NameSet}
    (hdeclared : ∀ target ∈ names, Declared target) (hother : entity.name ∉ names) :
    { entity with afferent := names }.WellRelated containers Declared :=
  { h with afferent_declared := hdeclared, afferent_other := hother }

end Entity

/-! ## The corpus -/

namespace Corpus

/-- Analysis makes one entity of every file. -/
theorem mem_analyse {settings : Settings} {known : NameSet} {files : List SourceFile}
    {entity : Entity} :
    entity ∈ analyse settings known files ↔
      ∃ path source, (path, source) ∈ files ∧
        Entity.ofSource settings known path source = entity := by
  simp only [analyse, List.mem_map, Prod.exists]

/-- The name of every analysed file is a type name of the files. -/
theorem typeName_mem_typeNames {files : List SourceFile} {path source : String}
    (hfile : (path, source) ∈ files) : Path.typeName path ∈ typeNames (files.map (·.1)) :=
  NameSet.mem_ofList.mpr (List.mem_map_of_mem (List.mem_map_of_mem hfile))

/-- The types that a corpus declares are those it was analysed against. -/
theorem declares_ofSources {settings : Settings} {files : List SourceFile} {name : String} :
    (ofSources settings files).Declares name ↔ name ∈ typeNames (files.map (·.1)) := by
  rw [ofSources, declares_ofEntities]
  constructor
  · rintro ⟨_, hentity, rfl⟩
    obtain ⟨path, source, hfile, rfl⟩ := mem_analyse.mp hentity
    exact typeName_mem_typeNames hfile
  · intro h
    obtain ⟨path, hpath, rfl⟩ := List.mem_map.mp (NameSet.mem_ofList.mp h)
    obtain ⟨⟨_, source⟩, hfile, rfl⟩ := List.mem_map.mp hpath
    exact ⟨_, mem_analyse.mpr ⟨_, source, hfile, rfl⟩, rfl⟩

/-- **The relations of every entity are in order**, whatever the files of the corpus hold. -/
theorem ofSources_wellRelated (settings : Settings) (files : List SourceFile) :
    ∀ entity ∈ (ofSources settings files).entities,
      entity.WellRelated settings.containerTypes (ofSources settings files).Declares := by
  have hdeclares : (ofSources settings files).Declares = (· ∈ typeNames (files.map (·.1))) :=
    funext fun _ => propext declares_ofSources
  have hbefore : ∀ entity ∈ analyse settings (typeNames (files.map (·.1))) files,
      entity.WellRelated settings.containerTypes (ofSources settings files).Declares := by
    intro entity hentity
    obtain ⟨path, source, hfile, rfl⟩ := mem_analyse.mp hentity
    rw [hdeclares]
    exact Entity.ofSource_wellRelated (typeName_mem_typeNames hfile)
  intro entity hentity
  simp only [ofSources, ofEntities, link_eq] at hentity
  obtain ⟨before, hmem, rfl⟩ := List.mem_map.mp hentity
  apply (hbefore before hmem).withAfferent
  · intro target htarget
    obtain ⟨other, hother, rfl, _⟩ := mem_dependants.mp htarget
    rw [hdeclares]
    obtain ⟨path, source, hfile, rfl⟩ := mem_analyse.mp hother
    exact typeName_mem_typeNames hfile
  · -- Only an entity of the same name could be in the way, and it does not refer to its own
    -- name either.
    intro h
    obtain ⟨other, hother, hname, href⟩ := mem_dependants.mp h
    exact (hbefore other hother).efferent_other (hname ▸ href)

/-- A type that is held by another one, and collects itself and that one, keeps its relations in
order. -/
theorem ofSources_wellRelated_collection :
    ∃ entity ∈ (ofSources .standard
        [("A.java", "class A { B b; }"),
          ("B.java", "class B { static B b; List<A> l; }")]).entities,
      "A" ∈ entity.afferent ∧ "A" ∈ entity.aggregation ∧ entity.name ∈ entity.aggregation ∧
        entity.WellRelated Settings.standard.containerTypes (ofSources .standard
          [("A.java", "class A { B b; }"),
            ("B.java", "class B { static B b; List<A> l; }")]).Declares := by
  have hexists : ∃ entity ∈ (ofSources .standard
      [("A.java", "class A { B b; }"), ("B.java", "class B { static B b; List<A> l; }")]).entities,
      "A" ∈ entity.afferent ∧ "A" ∈ entity.aggregation ∧ entity.name ∈ entity.aggregation := by
    decide +kernel
  obtain ⟨entity, hentity, hafferent, hcollected, hself⟩ := hexists
  exact ⟨entity, hentity, hafferent, hcollected, hself, ofSources_wellRelated _ _ entity hentity⟩

end Corpus

end ClassAtlas
