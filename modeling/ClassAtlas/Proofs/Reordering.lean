import ClassAtlas.Metrics
import ClassAtlas.Proofs.Extension
import ClassAtlas.Proofs.Precedence
import ClassAtlas.Proofs.RelationTargets
import Mathlib.Data.List.FinRange
import Mathlib.Data.Sym.Sym2

/-!
# The order of the files

Edges are collected in the order of the entities, and an edge that repeats an earlier one is left
out. If all names are different, though, an edge is left out only for another candidate of its own
entity, whose order is fixed, or for the same edge backwards. This file proves that the edges of a
corpus, read without regard to the direction of compositions and aggregations, do not depend on the
order of the files. The entities themselves only change their places, whether or not some of them
have the same name.
-/

namespace ClassAtlas

/-! ## Reading an edge -/

namespace Edge

/-- The ends of an edge, in order if the kind of the edge has a direction. -/
def ends (edge : Edge) : (String × String) ⊕ Sym2 String :=
  if edge.kind.isUndirected then .inr s(edge.source, edge.target) else .inl
    (edge.source, edge.target)

/-- What an edge says: its kind and its ends. -/
def reading (edge : Edge) : RelationshipKind × ((String × String) ⊕ Sym2 String) :=
  (edge.kind, edge.ends)

/-- Two edges say the same if they are of one kind and one repeats the other. -/
theorem reading_eq_iff {edge other : Edge} :
    edge.reading = other.reading ↔ edge.kind = other.kind ∧ edge.repeats other = true := by
  obtain ⟨source, target, kind⟩ := edge
  obtain ⟨source', target', kind'⟩ := other
  rw [repeats_iff, reading, reading, Prod.mk.injEq]
  refine and_congr_right ?_
  rintro rfl
  cases hundirected : kind.isUndirected with
  | true => simp [ends, hundirected]
  | false => simp [ends, hundirected]

/-- An edge that has a direction is known from what it says. -/
theorem eq_of_reading_eq {edge other : Edge} (hreading : edge.reading = other.reading)
    (hdirected : edge.kind.isUndirected = false) : edge = other := by
  obtain ⟨hkind, hrepeats⟩ := reading_eq_iff.mp hreading
  obtain ⟨hsource, htarget⟩ := same_pair_of_repeats hrepeats hdirected
  cases edge
  cases other
  cases hkind
  cases hsource
  cases htarget
  rfl

/-- Distinct edges all say something else. -/
theorem Distinct.nodup_readings {edges : List Edge} (hedges : Distinct edges) :
    (edges.map reading).Nodup := by
  refine List.pairwise_map.mpr (List.Pairwise.imp ?_ hedges)
  intro earlier later hrepeats hreading
  rw [(reading_eq_iff.mp hreading.symm).2] at hrepeats
  cases hrepeats

end Edge

/-! ## The edges that an entity decides on -/

namespace Entity

/-- The edge is a candidate of the entity, which has no supertype relation that would come before
it. -/
def Decides (entity : Entity) (known : NameSet) (edge : Edge) : Prop :=
  edge ∈ entity.candidates known ∧ ¬ entity.Outranks edge

/-- A candidate for an aggregation is not outranked, since supertypes are no such candidates. -/
theorem not_outranks_of_aggregates {entity : Entity} {known : NameSet} {edge : Edge}
    (hcandidate : edge ∈ entity.candidates known) (hkind : edge.kind = .aggregates) :
    ¬ entity.Outranks edge := by
  rintro ⟨_, kind, hsuper, _, hrelates⟩
  obtain ⟨_, htarget⟩ := mem_candidates.mp hcandidate
  rw [hkind] at htarget
  have hnone : ¬ entity.isSupertype edge.target = true := by
    simpa using ((Bool.and_eq_true _ _).mp (List.mem_filter.mp htarget).2).2
  apply hnone
  rw [isSupertype_iff]
  rcases hsuper with rfl | rfl
  · exact .inl hrelates
  · exact .inr hrelates

variable {entity : Entity} {known : NameSet} {target : String}

/-- If what a type is composed of is not aggregated, no candidate comes before one that is not
outranked. -/
theorem not_rank_lt_of_decides (hdisjoint : ∀ part ∈ entity.composition, part ∉ entity.aggregation)
    {kind other : RelationshipKind} (htarget : target ∈ entity.targets known kind)
    (hdecides : entity.Decides known ⟨entity.name, target, other⟩) : ¬ kind.rank < other.rank := by
  intro hrank
  obtain ⟨hcandidate, hfree⟩ := hdecides
  have hrelates := (of_mem_targets htarget).1
  have hother := (mem_candidates.mp hcandidate).2
  have hsupertype : ¬ (kind = .inherits ∨ kind = .realizes) :=
    fun hkind => hfree ⟨rfl, kind, hkind, hrank, hrelates⟩
  -- The kinds that are left are those of the declaration, and the candidate is a mere dependency or
  -- aggregated.
  have hdepends : target ∈ entity.targets known .depends → target ∉ entity.structuralTargets := by
    intro hmem
    simpa using ((Bool.and_eq_true _ _).mp (List.mem_filter.mp hmem).2).2
  cases kind with
  | inherits => exact hsupertype (.inl rfl)
  | realizes => exact hsupertype (.inr rfl)
  | composes =>
    cases other with
    | aggregates => exact hdisjoint target hrelates (of_mem_targets hother).1
    | depends => exact hdepends hother (mem_structuralTargets.mpr (.inr (.inr (.inl hrelates))))
    | _ => simp [RelationshipKind.rank] at hrank
  | aggregates =>
    cases other with
    | depends => exact hdepends hother (mem_structuralTargets.mpr (.inr (.inr (.inr hrelates))))
    | _ => simp [RelationshipKind.rank] at hrank
  | depends => cases other <;> simp [RelationshipKind.rank] at hrank

/-- An entity decides on one kind of edge for each target. -/
theorem Decides.kind_eq (hdisjoint : ∀ part ∈ entity.composition, part ∉ entity.aggregation)
    {edge other : Edge} (hedge : entity.Decides known edge) (hother : entity.Decides known other)
    (htarget : edge.target = other.target) : edge.kind = other.kind := by
  obtain ⟨source, target, kind⟩ := edge
  obtain ⟨source', target', kind'⟩ := other
  obtain ⟨rfl, hmem⟩ := mem_candidates.mp hedge.1
  obtain ⟨rfl, hmem'⟩ := mem_candidates.mp hother.1
  cases htarget
  have hnot := not_rank_lt_of_decides hdisjoint hmem hother
  have hnot' := not_rank_lt_of_decides hdisjoint hmem' hedge
  cases kind <;> cases kind' <;> simp [RelationshipKind.rank] at hnot hnot' ⊢

end Entity

/-! ## Edges without their order -/

namespace Corpus

variable {entities others : List Entity}

/-- Every relationship is decided on by an entity. -/
theorem exists_decides_of_mem {edge : Edge} (hedge : edge ∈ (ofEntities entities).relationships) :
    ∃ entity ∈ entities, entity.Decides (ofEntities entities).names edge := by
  by_cases hself : edge.source = edge.target
  · obtain ⟨source, target, kind⟩ := edge
    obtain rfl : source = target := hself
    obtain ⟨entity, hentity, hcandidate⟩ := candidate_of_mem_relationships hedge
    have hkind := kind_of_self_relationship hedge
    exact ⟨entity, hentity, hcandidate, Entity.not_outranks_of_aggregates hcandidate hkind⟩
  · obtain ⟨front, entity, back, hsplit, hcandidate, hfree⟩ := exists_deciding_entity hedge hself
    exact ⟨entity, by simp [hsplit], hcandidate, hfree entity (by simp)⟩

/-- All names are different, and no entity is composed of what it aggregates. -/
structure Unambiguous (entities : List Entity) : Prop where
  names_nodup : (entities.map (·.name)).Nodup
  not_aggregated : ∀ entity ∈ entities, ∀ part ∈ entity.composition, part ∉ entity.aggregation

/-- The order of the entities makes no difference to that. -/
theorem Unambiguous.perm (h : Unambiguous entities) (hperm : entities.Perm others) :
    Unambiguous others where
  names_nodup := (hperm.map _).nodup_iff.mp h.names_nodup
  not_aggregated entity hentity := h.not_aggregated entity (hperm.mem_iff.mpr hentity)

/-- An edge that an entity decides on is kept, or says the same as one that is. -/
theorem Unambiguous.exists_kept_of_decides (h : Unambiguous entities) {entity : Entity}
    {edge : Edge} (hentity : entity ∈ entities)
    (hdecides : entity.Decides (ofEntities entities).names edge) :
    ∃ kept ∈ (ofEntities entities).relationships, kept.reading = edge.reading := by
  obtain ⟨source, target, kind⟩ := edge
  obtain ⟨rfl, htarget⟩ := Entity.mem_candidates.mp hdecides.1
  obtain ⟨kept, hkept, hrepeats⟩ := exists_relationship_of_candidate hentity htarget
  refine ⟨kept, hkept, (Edge.reading_eq_iff.mpr ⟨?_, hrepeats⟩).symm⟩
  rcases Edge.repeats_iff.mp hrepeats with ⟨hsource, hpair⟩ | ⟨_, hkind, _⟩
  · -- The edge that is kept instead comes of the same entity, which decides on one kind only.
    obtain ⟨decider, hdecider, hkeptDecides⟩ := exists_decides_of_mem hkept
    have hname : decider.name = entity.name :=
      (Entity.mem_candidates.mp hkeptDecides.1).1.symm.trans hsource.symm
    rw [List.inj_on_of_nodup_map h.names_nodup hdecider hentity hname] at hkeptDecides
    exact hdecides.kind_eq (h.not_aggregated entity hentity) hkeptDecides hpair
  · exact hkind

/-- The names of a corpus do not depend on the order of its entities. -/
theorem names_perm (hperm : entities.Perm others) :
    (ofEntities entities).names = (ofEntities others).names := by
  apply NameSet.ext_mem
  intro name
  simp only [mem_names, declares_ofEntities, hperm.mem_iff]

/-- What an edge says in one order of the entities, some edge says in any other order. -/
theorem Unambiguous.reading_mem_of_perm (h : Unambiguous entities) (hperm : entities.Perm others)
    {reading : RelationshipKind × ((String × String) ⊕ Sym2 String)}
    (hreading : reading ∈ (ofEntities others).relationships.map Edge.reading) :
    reading ∈ (ofEntities entities).relationships.map Edge.reading := by
  obtain ⟨edge, hedge, rfl⟩ := List.mem_map.mp hreading
  obtain ⟨entity, hentity, hdecides⟩ := exists_decides_of_mem hedge
  rw [← names_perm hperm] at hdecides
  exact List.mem_map.mpr (h.exists_kept_of_decides (hperm.mem_iff.mpr hentity) hdecides)

/-- **The edges of unambiguous entities say the same in any order.** -/
theorem Unambiguous.readings_perm (h : Unambiguous entities) (hperm : entities.Perm others) :
    ((ofEntities entities).relationships.map Edge.reading).Perm
      ((ofEntities others).relationships.map Edge.reading) := by
  have hnodup : ∀ list, ((ofEntities list).relationships.map Edge.reading).Nodup :=
    fun list => (Edge.Distinct.foldl_add .nil _).nodup_readings
  refine (List.perm_ext_iff_of_nodup (hnodup entities) (hnodup others)).mpr fun reading => ⟨?_, ?_⟩
  · exact (h.perm hperm).reading_mem_of_perm hperm.symm
  · exact h.reading_mem_of_perm hperm

/-! ## Files in any order -/

variable {settings : Settings} {files reordered : List SourceFile}

/-- The names of the types do not depend on the order of the files. -/
theorem typeNames_perm (hperm : files.Perm reordered) :
    typeNames (files.map (·.1)) = typeNames (reordered.map (·.1)) := by
  apply NameSet.ext_mem
  intro name
  simp only [typeNames, NameSet.mem_ofList, ((hperm.map (·.1)).map Path.typeName).mem_iff]

/-- The entities of source files are unambiguous if the files all have other names. -/
theorem unambiguous_analyse (hnames : (files.map fun file => Path.typeName file.1).Nodup)
    (known : NameSet) :
    Unambiguous (analyse settings known files) where
  names_nodup := by
    rw [analyse, List.map_map]
    exact hnames
  not_aggregated := by
    intro entity hentity part hpart
    obtain ⟨path, source, _, rfl⟩ := mem_analyse.mp hentity
    exact (Entity.composition_ofSource hpart).2.2.2

/-- **The edges do not depend on the order of the files**, if the files all declare other types.
Reordering the files makes the same number of edges, which say the same; only compositions and
aggregations may turn round. -/
theorem relationships_reordered (settings : Settings) {files reordered : List SourceFile}
    (hnames : (files.map fun file => Path.typeName file.1).Nodup) (hperm : files.Perm reordered) :
    (ofSources settings files).relationships.length =
      (ofSources settings reordered).relationships.length ∧
    ((ofSources settings files).relationships.map Edge.reading).Perm
      ((ofSources settings reordered).relationships.map Edge.reading) ∧
    ∀ edge, edge.kind.isUndirected = false →
      (edge ∈ (ofSources settings files).relationships ↔
        edge ∈ (ofSources settings reordered).relationships) := by
  have hreadings : ((ofSources settings files).relationships.map Edge.reading).Perm
      ((ofSources settings reordered).relationships.map Edge.reading) := by
    rw [ofSources, ofSources, ← typeNames_perm hperm]
    exact (unambiguous_analyse hnames _).readings_perm (hperm.map _)
  refine ⟨by simpa using hreadings.length_eq, hreadings, fun edge hdirected => ?_⟩
  have hmem : ∀ edges : List Edge, edge ∈ edges ↔ edge.reading ∈ edges.map Edge.reading := by
    intro edges
    refine ⟨fun hedge => List.mem_map_of_mem hedge, fun hreading => ?_⟩
    obtain ⟨other, hother, hsame⟩ := List.mem_map.mp hreading
    rwa [Edge.eq_of_reading_eq hsame.symm hdirected]
  rw [hmem, hmem, hreadings.mem_iff]

/-- Two types that hold each other, of which one extends a third one. -/
def mutualFiles : List SourceFile :=
  [("A.java", "class A { B b; }"), ("B.java", "class B extends C { A a; }"),
    ("C.java", "class C {}")]

/-- In the reverse order of the files the composition turns round and the superclass stays. -/
theorem relationships_reordered_reverse :
    (mutualFiles.map fun file => Path.typeName file.1).Nodup ∧
    mutualFiles.Perm mutualFiles.reverse ∧
      ⟨"A", "B", .composes⟩ ∈ (ofSources .standard mutualFiles).relationships ∧
      ⟨"A", "B", .composes⟩ ∉ (ofSources .standard mutualFiles.reverse).relationships ∧
      ⟨"B", "C", .inherits⟩ ∈ (ofSources .standard mutualFiles.reverse).relationships ∧
      ((ofSources .standard mutualFiles).relationships.map Edge.reading).Perm
        ((ofSources .standard mutualFiles.reverse).relationships.map Edge.reading) := by
  have hfacts : (mutualFiles.map fun file => Path.typeName file.1).Nodup ∧
      ⟨"A", "B", .composes⟩ ∈ (ofSources .standard mutualFiles).relationships ∧
      ⟨"B", "C", .inherits⟩ ∈ (ofSources .standard mutualFiles).relationships ∧
      ⟨"A", "B", .composes⟩ ∉ (ofSources .standard mutualFiles.reverse).relationships := by
    decide +kernel
  obtain ⟨hnames, hforth, hsuper, hback⟩ := hfacts
  have hperm : mutualFiles.Perm mutualFiles.reverse := (List.reverse_perm _).symm
  obtain ⟨_, hreadings, hdirected⟩ := relationships_reordered .standard hnames hperm
  exact ⟨hnames, hperm, hforth, hback, (hdirected _ rfl).mp hsuper, hreadings⟩

/-! ## Entities in any order -/

/-- The dependants of a type do not depend on the order of the entities. -/
theorem dependants_perm (hperm : entities.Perm others) :
    dependants entities = dependants others := by
  funext name
  apply NameSet.ext_mem
  intro dependant
  simp only [mem_dependants, hperm.mem_iff]

/-- An entity depends on which files there are, and not on their order. -/
theorem entityAmong_perm (hperm : files.Perm reordered) :
    entityAmong settings files = entityAmong settings reordered := by
  have hnames := typeNames_perm hperm
  have hafferent : dependants (analyse settings (typeNames (files.map (·.1))) files) =
      dependants (analyse settings (typeNames (files.map (·.1))) reordered) :=
    dependants_perm (hperm.map _)
  funext file
  rw [entityAmong, entityAmong, hafferent, hnames]

/-- **Reordering the files reorders the entities and changes nothing else.** For every list of
files, also with several files of one name, and every order of it, the corpus has the same entities
in that order, each with all that it holds, its dependants included. Hence it has the same metrics
in that order. -/
theorem entities_reordered (settings : Settings) (files : List SourceFile)
    (order : Equiv.Perm (Fin files.length)) :
    ∃ entities : Fin files.length → Entity,
      (ofSources settings files).entities = List.ofFn entities ∧
      (ofSources settings (List.ofFn (files.get ∘ order))).entities = List.ofFn (entities ∘ order) ∧
      ((ofSources settings files).assess none).entities = List.ofFn (Entity.metrics ∘ entities) ∧
      ((ofSources settings (List.ofFn (files.get ∘ order))).assess none).entities =
        List.ofFn (Entity.metrics ∘ entities ∘ order) := by
  have hperm : files.Perm (List.ofFn (files.get ∘ order)) := by
    have hsame := order.ofFn_comp_perm files.get
    rw [List.ofFn_get] at hsame
    exact hsame.symm
  have hfiles :
      (ofSources settings files).entities = List.ofFn (entityAmong settings files ∘ files.get) :=
    calc
      (ofSources settings files).entities = files.map (entityAmong settings files) :=
        entities_ofSources settings files
      _ = (List.ofFn files.get).map (entityAmong settings files) := by rw [List.ofFn_get]
      _ = List.ofFn (entityAmong settings files ∘ files.get) := List.map_ofFn
  have hreordered : (ofSources settings (List.ofFn (files.get ∘ order))).entities =
      List.ofFn (entityAmong settings files ∘ files.get ∘ order) := by
    rw [entities_ofSources, ← entityAmong_perm hperm, List.map_ofFn]
  refine ⟨entityAmong settings files ∘ files.get, hfiles, hreordered, ?_, ?_⟩
  · exact (congrArg (List.map Entity.metrics) hfiles).trans List.map_ofFn
  · exact (congrArg (List.map Entity.metrics) hreordered).trans List.map_ofFn

end Corpus

end ClassAtlas
