import ClassAtlas.Relationship
import ClassAtlas.Proofs.Dependants
import Mathlib.Data.List.Pairwise

/-!
# Edges between types

The relationships of a corpus are collected by trying one candidate after the other and leaving out
those that repeat an earlier one. This file proves the invariant of that loop, whatever the
candidates are, and derives what holds of the relationships of every corpus, also if its entities
share names or relate to unknown types.
-/

namespace ClassAtlas

/-! ## Adding edges one by one -/

namespace Edge

/-- What it means to repeat an earlier edge. -/
theorem repeats_iff {edge earlier : Edge} :
    edge.repeats earlier = true ↔
      edge.source = earlier.source ∧ edge.target = earlier.target ∨
        edge.kind.isUndirected = true ∧ edge.kind = earlier.kind ∧
          edge.source = earlier.target ∧ edge.target = earlier.source := by
  simp [repeats, and_assoc]

/-- If an edge repeats another one, the other one repeats it as well. -/
theorem repeats_comm (edge other : Edge) : edge.repeats other = other.repeats edge := by
  rw [Bool.eq_iff_iff, repeats_iff, repeats_iff]
  constructor
  · rintro (⟨hsource, htarget⟩ | ⟨hundirected, hkind, hsource, htarget⟩)
    · exact .inl ⟨hsource.symm, htarget.symm⟩
    · exact .inr ⟨hkind ▸ hundirected, hkind.symm, htarget.symm, hsource.symm⟩
  · rintro (⟨hsource, htarget⟩ | ⟨hundirected, hkind, hsource, htarget⟩)
    · exact .inl ⟨hsource.symm, htarget.symm⟩
    · exact .inr ⟨hkind ▸ hundirected, hkind.symm, htarget.symm, hsource.symm⟩

/-- Of two edges in the list the later one never repeats the earlier one. -/
def Distinct (edges : List Edge) : Prop :=
  edges.Pairwise fun earlier later => later.repeats earlier = false

/-- An edge is either left out because it repeats an earlier one, or comes last. -/
theorem add_cases (edges : List Edge) (edge : Edge) :
    (∃ earlier ∈ edges, edge.repeats earlier = true) ∧ add edges edge = edges ∨
      (∀ earlier ∈ edges, edge.repeats earlier = false) ∧ add edges edge = edges ++ [edge] := by
  by_cases h : edges.any edge.repeats = true
  · exact .inl ⟨List.any_eq_true.mp h, if_pos h⟩
  · refine .inr ⟨fun earlier hmem => ?_, if_neg h⟩
    by_contra hrepeats
    exact h (List.any_eq_true.mpr ⟨earlier, hmem, by simpa using hrepeats⟩)

/-- Adding an edge keeps the edges distinct. -/
theorem Distinct.add {edges : List Edge} (hedges : Distinct edges) (edge : Edge) :
    Distinct (add edges edge) := by
  rcases add_cases edges edge with ⟨_, heq⟩ | ⟨hnew, heq⟩
  · rwa [heq]
  · rw [heq]
    refine List.pairwise_append.mpr ⟨hedges, List.pairwise_singleton _ _, ?_⟩
    intro earlier hearlier later hlater
    rw [List.mem_singleton.mp hlater]
    exact hnew earlier hearlier

/-- Adding edges one by one keeps them distinct. -/
theorem Distinct.foldl_add {edges : List Edge} (hedges : Distinct edges) (candidates : List Edge) :
    Distinct (candidates.foldl Edge.add edges) := by
  induction candidates generalizing edges with
  | nil => exact hedges
  | cons candidate rest ih => exact ih (hedges.add candidate)

/-- Every collected edge was there before or is one of the candidates. -/
theorem mem_foldl_add {edges candidates : List Edge} {edge : Edge}
    (hedge : edge ∈ candidates.foldl Edge.add edges) : edge ∈ edges ∨ edge ∈ candidates := by
  induction candidates generalizing edges with
  | nil => exact .inl hedge
  | cons candidate rest ih =>
    rcases ih hedge with h | h
    · rcases add_cases edges candidate with ⟨_, heq⟩ | ⟨_, heq⟩
      · exact .inl (heq ▸ h)
      · rw [heq, List.mem_append, List.mem_singleton] at h
        rcases h with h | rfl
        · exact .inl h
        · exact .inr List.mem_cons_self
    · exact .inr (List.mem_cons_of_mem _ h)

/-- No edge among distinct ones repeats another. -/
theorem Distinct.not_repeats {edges : List Edge} (hedges : Distinct edges) {edge other : Edge}
    (hedge : edge ∈ edges) (hother : other ∈ edges) (hne : edge ≠ other) :
    edge.repeats other = false := by
  have hsymm : Std.Symm fun earlier later : Edge => later.repeats earlier = false :=
    ⟨fun earlier later h => (repeats_comm earlier later).trans h⟩
  rw [repeats_comm]
  exact List.Pairwise.forall hedges hedge hother hne

/-- Distinct edges never connect one ordered pair twice. -/
theorem Distinct.one_per_pair {edges : List Edge} (hedges : Distinct edges) :
    edges.Pairwise fun earlier later =>
      ¬ (earlier.source = later.source ∧ earlier.target = later.target) := by
  refine List.Pairwise.imp ?_ hedges
  intro earlier later hrepeats hpair
  rw [repeats_comm, repeats_iff.mpr (.inl hpair)] at hrepeats
  cases hrepeats

/-- Distinct edges of an undirected kind connect two types in one direction only. -/
theorem Distinct.one_direction {edges : List Edge} (hedges : Distinct edges) {a b : String}
    {kind : RelationshipKind} (hkind : kind.isUndirected = true) (hne : a ≠ b)
    (hforth : ⟨a, b, kind⟩ ∈ edges) : ⟨b, a, kind⟩ ∉ edges := by
  intro hback
  have hdiffer : (⟨a, b, kind⟩ : Edge) ≠ ⟨b, a, kind⟩ := fun h => hne (congrArg source h)
  have hrepeats : (⟨a, b, kind⟩ : Edge).repeats ⟨b, a, kind⟩ = true :=
    repeats_iff.mpr (.inr ⟨hkind, rfl, rfl, rfl⟩)
  rw [hedges.not_repeats hforth hback hdiffer] at hrepeats
  cases hrepeats

end Edge

/-! ## Candidates -/

namespace Entity

/-- The entity itself says that it relates to the target in the given way. -/
def Relates (entity : Entity) (target : String) : RelationshipKind → Prop
  | .inherits => entity.superclass = some target
  | .realizes => target ∈ entity.interfaces
  | .composes => target ∈ entity.composition
  | .aggregates => target ∈ entity.aggregation
  | .depends => target ∈ entity.efferent

/-- A known target other than the entity itself. -/
theorem knowsOther_iff {entity : Entity} {known : NameSet} {target : String} :
    entity.knowsOther known target = true ↔ target ≠ entity.name ∧ target ∈ known := by
  simp [knowsOther]

/-- A candidate of any kind is backed by the entity. Its target is another known type, or the entity
itself if it aggregates itself. -/
theorem of_mem_targets {entity : Entity} {known : NameSet} {target : String}
    {kind : RelationshipKind} (htarget : target ∈ entity.targets known kind) :
    entity.Relates target kind ∧
      (target ≠ entity.name ∧ target ∈ known ∨ target = entity.name ∧ kind = .aggregates) := by
  cases kind with
  | inherits =>
    simp only [targets, List.mem_filter, Option.mem_toList, knowsOther_iff] at htarget
    exact ⟨htarget.1, .inl htarget.2⟩
  | realizes =>
    simp only [targets, List.mem_filter, NameSet.mem_toList, knowsOther_iff] at htarget
    exact ⟨htarget.1, .inl htarget.2⟩
  | composes =>
    simp only [targets, List.mem_filter, NameSet.mem_toList, Bool.and_eq_true, knowsOther_iff]
      at htarget
    exact ⟨htarget.1, .inl htarget.2.1⟩
  | aggregates =>
    simp only [targets, List.mem_filter, NameSet.mem_toList, Bool.and_eq_true, Bool.or_eq_true,
      decide_eq_true_eq, knowsOther_iff] at htarget
    obtain ⟨hmem, hown | hother, _⟩ := htarget
    · exact ⟨hmem, .inr ⟨hown, rfl⟩⟩
    · exact ⟨hmem, .inl hother⟩
  | depends =>
    simp only [targets, List.mem_filter, NameSet.mem_toList, Bool.and_eq_true, knowsOther_iff]
      at htarget
    exact ⟨htarget.1, .inl htarget.2.1⟩

/-- The candidates of an entity start from its name and lead to its targets. -/
theorem mem_candidates {entity : Entity} {known : NameSet} {edge : Edge} :
    edge ∈ entity.candidates known ↔
      edge.source = entity.name ∧ edge.target ∈ entity.targets known edge.kind := by
  simp only [candidates, List.mem_flatMap, List.mem_map]
  constructor
  · rintro ⟨kind, _, target, htarget, rfl⟩
    exact ⟨rfl, htarget⟩
  · obtain ⟨source, target, kind⟩ := edge
    rintro ⟨rfl, htarget⟩
    exact ⟨kind, by cases kind <;> simp [RelationshipKind.all], target, htarget, rfl⟩

end Entity

/-! ## The relationships of a corpus -/

namespace Corpus

/-- The names of a corpus are those that it declares. -/
theorem mem_names {corpus : Corpus} {name : String} :
    name ∈ corpus.names ↔ corpus.Declares name := by
  simp [names, Declares]

/-- Edges are in order for the given entities: they connect every pair at most once and in one
direction if they have no direction of their own, their ends are named by entities, only aggregation
leads back to the type it starts from, and each is backed by an entity that it starts from. -/
structure EdgesInOrder (entities : List Entity) (edges : List Edge) : Prop where
  one_per_pair : edges.Pairwise fun earlier later =>
    ¬ (earlier.source = later.source ∧ earlier.target = later.target)
  one_direction : ∀ kind, kind = .composes ∨ kind = .aggregates → ∀ a b, a ≠ b →
    ⟨a, b, kind⟩ ∈ edges → ⟨b, a, kind⟩ ∉ edges
  source_named : ∀ edge ∈ edges, ∃ entity ∈ entities, entity.name = edge.source
  target_named : ∀ edge ∈ edges, ∃ entity ∈ entities, entity.name = edge.target
  self_aggregates : ∀ edge ∈ edges, edge.source = edge.target → edge.kind = .aggregates
  backed : ∀ edge ∈ edges, ∃ entity ∈ entities, entity.name = edge.source ∧
    entity.Relates edge.target edge.kind

/-- Every relationship is a candidate of one of the entities that the corpus was made of. -/
theorem candidate_of_mem_relationships {entities : List Entity} {edge : Edge}
    (hedge : edge ∈ (ofEntities entities).relationships) :
    ∃ entity ∈ entities, edge ∈ entity.candidates (ofEntities entities).names := by
  have hcandidate := (Edge.mem_foldl_add hedge).resolve_left List.not_mem_nil
  obtain ⟨linked, hlinked, hmem⟩ := List.mem_flatMap.mp hcandidate
  simp only [ofEntities, link_eq] at hlinked
  obtain ⟨entity, hentity, rfl⟩ := List.mem_map.mp hlinked
  exact ⟨entity, hentity, hmem⟩

/-- **The relationships of every corpus are in order**, whatever entities it was made of. -/
theorem relationships_inOrder (entities : List Entity) :
    EdgesInOrder entities (ofEntities entities).relationships := by
  have hdistinct : Edge.Distinct (ofEntities entities).relationships :=
    Edge.Distinct.foldl_add .nil _
  constructor
  case one_per_pair => exact hdistinct.one_per_pair
  case one_direction =>
    intro kind hkind a b hne hforth
    have hundirected : kind.isUndirected = true := by rcases hkind with rfl | rfl <;> rfl
    exact hdistinct.one_direction hundirected hne hforth
  case source_named =>
    intro edge hedge
    obtain ⟨entity, hentity, hcandidate⟩ := candidate_of_mem_relationships hedge
    exact ⟨entity, hentity, (Entity.mem_candidates.mp hcandidate).1.symm⟩
  case target_named =>
    intro edge hedge
    obtain ⟨entity, hentity, hcandidate⟩ := candidate_of_mem_relationships hedge
    obtain ⟨_, htarget⟩ := Entity.mem_candidates.mp hcandidate
    rcases (Entity.of_mem_targets htarget).2 with ⟨_, hknown⟩ | ⟨hown, _⟩
    · exact declares_ofEntities.mp (mem_names.mp hknown)
    · exact ⟨entity, hentity, hown.symm⟩
  case self_aggregates =>
    intro edge hedge hself
    obtain ⟨entity, _, hcandidate⟩ := candidate_of_mem_relationships hedge
    obtain ⟨hsource, htarget⟩ := Entity.mem_candidates.mp hcandidate
    rcases (Entity.of_mem_targets htarget).2 with ⟨hother, _⟩ | ⟨_, hkind⟩
    · exact absurd (hself.symm.trans hsource) hother
    · exact hkind
  case backed =>
    intro edge hedge
    obtain ⟨entity, hentity, hcandidate⟩ := candidate_of_mem_relationships hedge
    obtain ⟨hsource, htarget⟩ := Entity.mem_candidates.mp hcandidate
    exact ⟨entity, hentity, hsource.symm, (Entity.of_mem_targets htarget).1⟩

end Corpus

end ClassAtlas
