import ClassAtlas.Proofs.Extension
import ClassAtlas.Proofs.Keys

/-!
# Coupling is conserved

Every reference is outgoing for one type and incoming for another. But entities hold sets of names,
so a reference counts once at either end only if names tell entities apart. This file counts the
references of a corpus whose types all have different names from both ends, and concludes that
outgoing and incoming coupling add up to the same number.
-/

namespace ClassAtlas

/-- The set of the names in a list without repetitions is as large as the list. -/
theorem NameSet.size_ofList {list : List String} (hnodup : list.Nodup) :
    (NameSet.ofList list).size = list.length := by
  have hperm : (NameSet.ofList list).toList.Perm list :=
    (List.perm_ext_iff_of_nodup (NameSet.nodup _) hnodup).mpr fun _ => NameSet.mem_ofList
  exact hperm.length_eq

namespace Corpus

variable {entities : List Entity}

/-- The names of some entities are as many as these entities. -/
theorem size_names_filter (hnames : (entities.map (·.name)).Nodup) (keep : Entity → Bool) :
    (NameSet.ofList ((entities.filter keep).map (·.name))).size = entities.countP keep := by
  have hkept : ((entities.filter keep).map (·.name)).Nodup :=
    hnames.sublist (List.filter_sublist.map _)
  rw [NameSet.size_ofList hkept, List.length_map, List.countP_eq_length_filter]

/-- A type has as many dependants as there are entities that refer to it. -/
theorem size_dependants (hnames : (entities.map (·.name)).Nodup) (name : String) :
    (dependants entities name).size = entities.countP fun entity => name ∈ entity.efferent :=
  size_names_filter hnames _

/-- A set of names of entities has as many members as there are entities with such a name. -/
theorem size_eq_countP (hnames : (entities.map (·.name)).Nodup) {names : NameSet}
    (hknown : ∀ name ∈ names, ∃ entity ∈ entities, entity.name = name) :
    names.size = entities.countP fun entity => entity.name ∈ names := by
  have hfound : names =
      NameSet.ofList ((entities.filter fun entity => entity.name ∈ names).map (·.name)) := by
    apply NameSet.ext_mem
    intro name
    simp only [NameSet.mem_ofList, List.mem_map, List.mem_filter, decide_eq_true_eq]
    constructor
    · intro hname
      obtain ⟨entity, hentity, rfl⟩ := hknown name hname
      exact ⟨entity, ⟨hentity, hname⟩, rfl⟩
    · rintro ⟨entity, ⟨_, hname⟩, rfl⟩
      exact hname
  rw [← size_names_filter hnames, ← hfound]

/-- References that lead from entities to entities are as many at their ends as at their starts, if
all entities have different names. -/
theorem sum_efferent_eq_sum_dependants (hnames : (entities.map (·.name)).Nodup)
    (hknown :
      ∀ entity ∈ entities, ∀ name ∈ entity.efferent, ∃ other ∈ entities, other.name = name) :
    (entities.map fun entity => entity.efferent.size).sum =
      (entities.map fun entity => (dependants entities entity.name).size).sum :=
  calc
    (entities.map fun entity => entity.efferent.size).sum
      = (entities.map fun entity =>
          entities.countP fun other => other.name ∈ entity.efferent).sum :=
        congrArg List.sum
          (List.map_congr_left fun entity hentity => size_eq_countP hnames (hknown entity hentity))
    _ = (entities.map fun other =>
          entities.countP fun entity => other.name ∈ entity.efferent).sum :=
        sum_countP_comm (fun entity other => other.name ∈ entity.efferent) entities entities
    _ = (entities.map fun other => (dependants entities other.name).size).sum :=
        congrArg List.sum
          (List.map_congr_left fun other _ => (size_dependants hnames other.name).symm)

/-- **Coupling is conserved.** If the files all declare different types, their outgoing references
add up to as many as their incoming ones. -/
theorem coupling_conserved (settings : Settings) (files : List SourceFile)
    (hnames : (files.map fun file => Path.typeName file.1).Nodup) :
    ((ofSources settings files).entities.map fun entity => entity.efferent.size).sum =
      ((ofSources settings files).entities.map fun entity => entity.afferent.size).sum := by
  have hanalysed : ((analyse settings (typeNames (files.map (·.1))) files).map (·.name)).Nodup := by
    rw [analyse, List.map_map]
    exact hnames
  have hknown :
      ∀ entity ∈ analyse settings (typeNames (files.map (·.1))) files, ∀ name ∈ entity.efferent,
      ∃ other ∈ analyse settings (typeNames (files.map (·.1))) files, other.name = name := by
    intro entity hentity name hname
    obtain ⟨path, source, _, rfl⟩ := mem_analyse.mp hentity
    have hdeclared : (ofSources settings files).Declares name :=
      declares_ofSources.mpr (Entity.efferent_ofSource hname).2
    exact declares_ofEntities.mp hdeclared
  simpa only [ofSources, ofEntities, link_eq, List.map_map, Function.comp_def] using
    sum_efferent_eq_sum_dependants hanalysed hknown

/-- Two types that refer to each other, and one of them twice to a third one. -/
def coupledFiles : List SourceFile :=
  [("a/A.java", "class A { B b; C c; C d; }"), ("a/B.java", "class B extends C { A a; }"),
    ("C.java", "class C {}")]

/-- A type that is referred to twice by another one counts once at either end. -/
theorem coupling_conserved_coupled :
    (coupledFiles.map fun file => Path.typeName file.1).Nodup ∧
    ((ofSources .standard coupledFiles).entities.map fun entity => entity.efferent.size).sum = 3 ∧
    ((ofSources .standard coupledFiles).entities.map fun entity => entity.afferent.size).sum =
      3 := by
  have hfacts : (coupledFiles.map fun file => Path.typeName file.1).Nodup ∧
      ((ofSources .standard coupledFiles).entities.map fun entity => entity.efferent.size).sum =
        3 := by
    decide +kernel
  obtain ⟨hnames, hsum⟩ := hfacts
  exact ⟨hnames, hsum, (coupling_conserved .standard coupledFiles hnames).symm.trans hsum⟩

end Corpus

end ClassAtlas
