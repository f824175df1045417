import ClassAtlas.Proofs.ByteOrder
import ClassAtlas.Proofs.DiagramNodes
import ClassAtlas.Proofs.Precedence
import Mathlib.Data.Prod.Lex

/-!
# The order of relationships

The candidates of a corpus come by entity, by kind and by target, and those that are kept stay in
that order. So if no two entities share a name, the relationships ascend strictly: first by the
place of their source in the corpus, then by precedence, then by the bytes of the target.
-/

namespace ClassAtlas

/-- The relationships that are kept are candidates, in their order. -/
theorem Edge.foldl_add_sublist (edges candidates : List Edge) :
    (candidates.foldl Edge.add edges).Sublist (edges ++ candidates) := by
  induction candidates generalizing edges with
  | nil => simp
  | cons candidate rest ih =>
    refine (ih (add edges candidate)).trans ?_
    rcases add_cases edges candidate with ⟨_, heq⟩ | ⟨_, heq⟩
    · rw [heq]
      exact (List.sublist_cons_self candidate rest).append_left edges
    · rw [heq, List.append_assoc, List.singleton_append]

/-- The targets of a kind are in ascending order. -/
theorem Entity.targets_ascending (entity : Entity) (known : NameSet) (kind : RelationshipKind) :
    (entity.targets known kind).Pairwise (· < ·) := by
  cases kind with
  | inherits =>
    refine List.Pairwise.filter _ ?_
    cases entity.superclass with
    | none => exact .nil
    | some superclass => exact List.pairwise_singleton _ _
  | realizes => exact entity.interfaces.ascending.filter _
  | composes => exact entity.composition.ascending.filter _
  | aggregates => exact entity.aggregation.ascending.filter _
  | depends => exact entity.efferent.ascending.filter _

/-- The place of the entity with the given name among all entities of the corpus. -/
def Corpus.position (corpus : Corpus) (name : String) : Nat :=
  (corpus.entities.map (·.name)).idxOf name

/-- The place of an edge in a listing: the place of its source in the corpus, then that of its kind
in the order of precedence, then the bytes of its target. -/
def Edge.place (corpus : Corpus) (edge : Edge) : ℕ ×ₗ ℕ ×ₗ List UInt8 :=
  toLex
    (corpus.position edge.source,
      toLex (RelationshipKind.all.idxOf edge.kind, Text.bytes edge.target))

namespace Edge

variable {corpus : Corpus} {edge other : Edge}

/-- An edge comes first if its source does. -/
theorem place_lt_of_position_lt (h : corpus.position edge.source < corpus.position other.source) :
    edge.place corpus < other.place corpus :=
  Prod.Lex.toLex_lt_toLex.mpr (.inl h)

/-- Of two edges with one source the kind of higher precedence comes first. -/
theorem place_lt_of_kind_lt (hsource : edge.source = other.source)
    (h : RelationshipKind.all.idxOf edge.kind < RelationshipKind.all.idxOf other.kind) :
    edge.place corpus < other.place corpus := by
  refine Prod.Lex.toLex_lt_toLex.mpr (.inr ⟨congrArg corpus.position hsource, ?_⟩)
  exact Prod.Lex.toLex_lt_toLex.mpr (.inl h)

/-- Of two edges with one source and one kind the lesser target comes first. -/
theorem place_lt_of_target_lt (hsource : edge.source = other.source)
    (hkind : edge.kind = other.kind) (h : edge.target < other.target) :
    edge.place corpus < other.place corpus := by
  refine Prod.Lex.toLex_lt_toLex.mpr (.inr ⟨congrArg corpus.position hsource, ?_⟩)
  exact Prod.Lex.toLex_lt_toLex.mpr
    (.inr ⟨congrArg RelationshipKind.all.idxOf hkind, Text.bytes_lt_bytes_iff.mpr h⟩)

end Edge

namespace Corpus

/-- The candidates of one entity are in order. -/
theorem candidates_ascending (corpus : Corpus) (entity : Entity) (known : NameSet) :
    (entity.candidates known).Pairwise fun edge later =>
      edge.place corpus < later.place corpus := by
  have hkinds : RelationshipKind.all.Pairwise fun kind later =>
      RelationshipKind.all.idxOf kind < RelationshipKind.all.idxOf later := by
    decide
  refine List.pairwise_flatMap.mpr
    ⟨fun kind _ => ?_, hkinds.imp fun hlt edge hedge later hlater => ?_⟩
  · refine List.pairwise_map.mpr ((entity.targets_ascending known kind).imp fun hlt => ?_)
    exact Edge.place_lt_of_target_lt rfl rfl hlt
  · obtain ⟨target, _, rfl⟩ := List.mem_map.mp hedge
    obtain ⟨other, _, rfl⟩ := List.mem_map.mp hlater
    exact Edge.place_lt_of_kind_lt rfl hlt

/-- Entities with names of their own are found in the order of the corpus. -/
theorem positions_ascending {entities : List Entity} (hnames : (entities.map (·.name)).Nodup) :
    entities.Pairwise fun entity later =>
      (ofEntities entities).position entity.name < (ofEntities entities).position later.name := by
  have hplaces : (entities.map (·.name)).Pairwise fun name later =>
      (entities.map (·.name)).idxOf name < (entities.map (·.name)).idxOf later := by
    refine List.pairwise_iff_getElem.mpr fun i j hi hj hlt => ?_
    rwa [hnames.idxOf_getElem i hi, hnames.idxOf_getElem j hj]
  have hposition (name : String) :
      (ofEntities entities).position name = (entities.map (·.name)).idxOf name := by
    rw [position, map_name_ofEntities]
  refine (List.pairwise_map.mp hplaces).imp fun hlt => ?_
  rwa [hposition, hposition]

/-- **Relationships are listed by source, precedence and target.** If no two entities share a name,
the relationships of their corpus ascend strictly: by the place of the source in the corpus, then by
the place of the kind in the order of precedence, then by the bytes of the target. -/
theorem relationships_ascending (entities : List Entity) (hnames : (entities.map (·.name)).Nodup) :
    ((ofEntities entities).relationships.map (Edge.place (ofEntities entities))).Pairwise (· < ·) ∧
      ∀ edge ∈ (ofEntities entities).relationships,
        ∃ entity, (ofEntities entities).entities[(ofEntities entities).position edge.source]? =
          some entity ∧
          entity.name = edge.source := by
  refine ⟨List.pairwise_map.mpr ?_, fun edge hedge => ?_⟩
  · have hcandidates :
        (entities.flatMap fun entity => entity.candidates (ofEntities entities).names).Pairwise
        fun edge later => edge.place (ofEntities entities) < later.place (ofEntities entities) := by
      refine List.pairwise_flatMap.mpr ⟨fun entity _ => candidates_ascending _ entity _, ?_⟩
      refine (positions_ascending hnames).imp fun hlt edge hedge later hlater =>
        Edge.place_lt_of_position_lt ?_
      rwa [(Entity.mem_candidates.mp hedge).1, (Entity.mem_candidates.mp hlater).1]
    rw [relationships_ofEntities]
    exact hcandidates.sublist (Edge.foldl_add_sublist [] _)
  · have hsource : edge.source ∈ (ofEntities entities).entities.map (·.name) := by
      obtain ⟨entity, hentity, hname⟩ := (declares_of_mem_relationships hedge).1
      exact List.mem_map.mpr ⟨entity, hentity, hname⟩
    have hfound := List.getElem?_idxOf hsource
    rw [List.getElem?_map] at hfound
    exact Option.map_eq_some_iff.mp hfound

/-- Types that stand neither in the order of their names nor in that of their references. -/
def scatteredTypes : List Entity :=
  [{ Entity.named "Zoo" with
      superclass := some "Base", composition := .ofList ["Ark"]
      efferent := .ofList ["Ark", "Base", "Émeu"] },
    { Entity.named "Ark" with
      interfaces := .ofList ["Émeu", "Base"], composition := .ofList ["Zoo"] },
    Entity.named "Émeu", Entity.named "Base"]

/-- The relationships of scattered types ascend by source, precedence and target. -/
theorem relationships_ascending_scattered :
    (scatteredTypes.map (·.name)).Nodup ∧
      ((ofEntities scatteredTypes).relationships.map
        (Edge.place (ofEntities scatteredTypes))).Pairwise (· < ·) ∧
      (ofEntities scatteredTypes).relationships =
        [⟨"Zoo", "Base", .inherits⟩, ⟨"Zoo", "Ark", .composes⟩, ⟨"Zoo", "Émeu", .depends⟩,
          ⟨"Ark", "Base", .realizes⟩, ⟨"Ark", "Émeu", .realizes⟩] := by
  have hfacts : (scatteredTypes.map (·.name)).Nodup ∧ (ofEntities scatteredTypes).relationships =
      [⟨"Zoo", "Base", .inherits⟩, ⟨"Zoo", "Ark", .composes⟩, ⟨"Zoo", "Émeu", .depends⟩,
        ⟨"Ark", "Base", .realizes⟩, ⟨"Ark", "Émeu", .realizes⟩] := by
    decide +kernel
  exact ⟨hfacts.1, (relationships_ascending scatteredTypes hfacts.1).1, hfacts.2⟩

end Corpus

end ClassAtlas
