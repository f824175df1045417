import ClassAtlas.Proofs.Edges
import ClassAtlas.Proofs.RelationTargets

/-!
# Extending a corpus

The files of a corpus are read against the names of all its types, so more files make more names
known. This file proves that nothing else changes. Every reader that knows fewer names finds the
same as one that knows more, less the names that it does not know. Hence a corpus to which files are
added says the same about its types as before, and the new relations all lead to new types or come
from them.
-/

namespace ClassAtlas

open ClassAtlas.Source ClassAtlas.Text

/-! ## Readers that know fewer names -/

namespace Source

variable {known more : NameSet} {own name : String}

/-- A filter by known names can be applied after a filter by more of them. -/
theorem and_mem_known_iff (hmore : ∀ name ∈ known, name ∈ more) {Found : Prop} :
    Found ∧ name ∈ known ↔ (Found ∧ name ∈ more) ∧ name ∈ known := by
  constructor
  · rintro ⟨hfound, hknown⟩
    exact ⟨⟨hfound, hmore name hknown⟩, hknown⟩
  · rintro ⟨⟨hfound, _⟩, hknown⟩
    exact ⟨hfound, hknown⟩

/-- With fewer names known, a text refers to those that remain. -/
theorem mem_references_restrict (hmore : ∀ name ∈ known, name ∈ more) {text : List Char} :
    name ∈ references own known text ↔ name ∈ references own more text ∧ name ∈ known := by
  simp only [mem_references, ← and_assoc]
  exact and_mem_known_iff hmore

/-- With fewer names known, a class collects the types that remain. -/
theorem mem_containedTypes_restrict (hmore : ∀ name ∈ known, name ∈ more) {containers : NameSet}
    {members : List Char} :
    name ∈ containedTypes containers own known members ↔
      name ∈ containedTypes containers own more members ∧ name ∈ known := by
  simp only [mem_containedTypes, ← and_assoc]
  exact and_mem_known_iff hmore

/-- A singleton aggregates itself whatever is known, so the own type has to be known. -/
theorem mem_aggregation_restrict (hmore : ∀ name ∈ known, name ∈ more) (hown : own ∈ known)
    {containers : NameSet} {outline : List Char} :
    name ∈ (fieldTargets containers own known outline).aggregation ↔
      name ∈ (fieldTargets containers own more outline).aggregation ∧ name ∈ known := by
  rw [mem_aggregation_fieldTargets, mem_aggregation_fieldTargets, mem_containedTypes_restrict hmore,
    or_and_right]
  have hself : name ∈ singleton own (occurrences fieldDeclaration (maskParameters outline)) →
      name ∈ known := by
    intro hsingleton
    rw [(mem_singleton.mp hsingleton).1]
    exact hown
  rw [and_iff_left_of_imp hself]

/-- What is composed is not aggregated. For a known name it makes no difference which of the two
sets of names aggregation was read with. -/
theorem mem_composition_restrict (hmore : ∀ name ∈ known, name ∈ more) (hown : own ∈ known)
    {containers : NameSet} {outline : List Char} :
    name ∈ (fieldTargets containers own known outline).composition ↔
      name ∈ (fieldTargets containers own more outline).composition ∧ name ∈ known := by
  rw [mem_composition_fieldTargets, mem_composition_fieldTargets,
    mem_aggregation_restrict hmore hown]
  constructor
  · rintro ⟨hfield, hother, hcontainer, hknown, haggregation⟩
    refine ⟨⟨hfield, hother, hcontainer, hmore name hknown, ?_⟩, hknown⟩
    exact fun hmem => haggregation ⟨hmem, hknown⟩
  · rintro ⟨⟨hfield, hother, hcontainer, _, haggregation⟩, hknown⟩
    exact ⟨hfield, hother, hcontainer, hknown, fun hmem => haggregation hmem.1⟩

end Source

/-! ## A single file -/

namespace Entity

/-- The entity says the same as the other one, but relates to known types only. Nothing is said
about its dependants, which no file tells. -/
structure Restricts (entity other : Entity) (Known : String → Prop) : Prop where
  path_eq : entity.path = other.path
  name_eq : entity.name = other.name
  folder_eq : entity.folder = other.folder
  lines_eq : entity.lines = other.lines
  complexity_eq : entity.complexity = other.complexity
  kind_eq : entity.kind = other.kind
  relates_iff : ∀ target kind, entity.Relates target kind ↔ other.Relates target kind ∧ Known target

/-- **A file that is read with fewer names known says the same**, less the relations to the other
names. -/
theorem ofSource_restricts {known more : NameSet} (hmore : ∀ name ∈ known, name ∈ more)
    {path : String} (hown : Path.typeName path ∈ known) (settings : Settings) (source : String) :
    (ofSource settings known path source).Restricts (ofSource settings more path source)
      (· ∈ known) where
  path_eq := rfl
  name_eq := rfl
  folder_eq := rfl
  lines_eq := rfl
  complexity_eq := rfl
  kind_eq := rfl
  relates_iff := by
    intro target kind
    cases kind with
    | inherits =>
      simp only [Relates, superclass_ofSource, ← and_assoc]
      exact and_mem_known_iff hmore
    | realizes =>
      simp only [Relates, mem_interfaces_ofSource, ← and_assoc]
      exact and_mem_known_iff hmore
    | composes => exact mem_composition_restrict hmore hown
    | aggregates => exact mem_aggregation_restrict hmore hown
    | depends => exact mem_references_restrict hmore

/-- An entity relates to the same types whatever its dependants are. -/
@[simp] theorem relates_withAfferent (entity : Entity) (names : NameSet) (target : String)
    (kind : RelationshipKind) : { entity with afferent := names }.Relates target kind ↔
      entity.Relates target kind := by
  cases kind <;> rfl

/-- Dependants make no difference to what an entity says by itself. -/
theorem Restricts.withAfferent {entity other : Entity} {Known : String → Prop}
    (h : entity.Restricts other Known) (names others : NameSet) :
    { entity with afferent := names }.Restricts { other with afferent := others } Known :=
  { h with relates_iff := by simpa only [relates_withAfferent] using h.relates_iff }

end Entity

/-! ## The corpus -/

namespace Corpus

/-- The entity that a corpus of the given files has for one of them. It is read with all names of
the corpus known and given its dependants. -/
def entityAmong (settings : Settings) (files : List SourceFile) (file : SourceFile) : Entity :=
  { Entity.ofSource settings (typeNames (files.map (·.1))) file.1 file.2 with
    afferent :=
      dependants (analyse settings (typeNames (files.map (·.1))) files) (Path.typeName file.1) }

/-- Every file of a corpus makes one entity, in the order of the files. -/
theorem entities_ofSources (settings : Settings) (files : List SourceFile) :
    (ofSources settings files).entities = files.map (entityAmong settings files) := by
  rw [ofSources, ofEntities, link_eq, analyse, List.map_map]
  rfl

/-- More files make more names known. -/
theorem typeNames_append {files others : List SourceFile} {name : String}
    (hname : name ∈ typeNames (files.map (·.1))) :
    name ∈ typeNames ((files ++ others).map (·.1)) := by
  rw [typeNames, NameSet.mem_ofList] at hname ⊢
  rw [List.map_append, List.map_append]
  exact List.mem_append_left _ hname

/-- The dependants of a known type are those that it had before and those among the new entities. -/
theorem mem_dependants_append {settings : Settings} {files others : List SourceFile}
    {known more : NameSet} (hknown : ∀ file ∈ files, Path.typeName file.1 ∈ known)
    (hmore : ∀ name ∈ known, name ∈ more)
    {target name : String} (htarget : target ∈ known) :
    name ∈ dependants (analyse settings more (files ++ others)) target ↔
      name ∈ dependants (analyse settings known files) target ∨
        name ∈ dependants (analyse settings more others) target := by
  -- A file that refers to a known type does so with fewer names known as well.
  have hrefers : ∀ file ∈ files, target ∈ (Entity.ofSource settings known file.1 file.2).efferent ↔
      target ∈ (Entity.ofSource settings more file.1 file.2).efferent := by
    intro file hfile
    have hrestricts := Entity.ofSource_restricts hmore (hknown file hfile) settings file.2
    exact (hrestricts.relates_iff target .depends).trans (and_iff_left htarget)
  simp only [mem_dependants, analyse, List.map_append, List.mem_append, or_and_right, exists_or,
    List.mem_map, exists_exists_and_eq_and]
  refine or_congr ?_ Iff.rfl
  constructor
  · rintro ⟨file, hfile, hname, hrefer⟩
    exact ⟨file, hfile, hname, (hrefers file hfile).mpr hrefer⟩
  · rintro ⟨file, hfile, hname, hrefer⟩
    exact ⟨file, hfile, hname, (hrefers file hfile).mp hrefer⟩

/-- **A corpus is extended conservatively.** A corpus has one entity for each of its files. When
files are added to it, each of its entities says the same as before, in its old place. All that
concerns the type alone is unchanged, and so are the relations to types of the old corpus; all other
relations lead to new types. The dependants of a type are those that it had and those among the
entities of the new files. -/
theorem ofSources_append_conservative (settings : Settings) (files others : List SourceFile) :
    (ofSources settings files).entities.length = files.length ∧
    List.Forall₂
      (fun small big => small.Restricts big (ofSources settings files).Declares ∧
        ∀ name, name ∈ big.afferent ↔ name ∈ small.afferent ∨
          ∃ other ∈ (ofSources settings (files ++ others)).entities.drop files.length,
            other.name = name ∧ big.name ∈ other.efferent)
      (ofSources settings files).entities
      ((ofSources settings (files ++ others)).entities.take files.length) := by
  refine ⟨by rw [entities_ofSources, List.length_map], ?_⟩
  have hdeclares : (ofSources settings files).Declares = (· ∈ typeNames (files.map (·.1))) :=
    funext fun _ => propext declares_ofSources
  have hknown : ∀ file ∈ files, Path.typeName file.1 ∈ typeNames (files.map (·.1)) :=
    fun _ hfile => typeName_mem_typeNames hfile
  have hmore :
      ∀ name ∈ typeNames (files.map (·.1)), name ∈ typeNames ((files ++ others).map (·.1)) :=
    fun name hname => typeNames_append hname
  rw [hdeclares, entities_ofSources, entities_ofSources, List.map_append, List.take_left' (by simp),
    List.drop_left' (by simp), List.forall₂_map_left_iff, List.forall₂_map_right_iff]
  refine List.forall₂_same.mpr ?_
  rintro ⟨path, source⟩ hfile
  have hown := hknown (path, source) hfile
  refine ⟨(Entity.ofSource_restricts hmore hown settings source).withAfferent _ _, ?_⟩
  intro name
  refine (mem_dependants_append hknown hmore hown).trans (or_congr Iff.rfl ?_)
  simp only [mem_dependants, analyse, List.mem_map, exists_exists_and_eq_and]
  exact Iff.rfl

end Corpus

end ClassAtlas
