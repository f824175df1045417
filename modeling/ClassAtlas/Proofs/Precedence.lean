import ClassAtlas.Proofs.Edges

/-!
# What becomes of a candidate

A candidate is left out of the relationships only because it repeats an edge that was kept before.
This file follows candidates to the edges that stand for them. Every relation of an entity to
another type of the corpus shows up as an edge, forwards or, for compositions and aggregations,
backwards. Precedence reaches as far as the first entity that gives rise to an edge: later entities
of the same name come too late, whatever they relate to.
-/

namespace ClassAtlas

/-! ## Kept edges -/

namespace Edge

/-- An edge connects the pair that it connects. -/
theorem repeats_self (edge : Edge) : edge.repeats edge = true :=
  repeats_iff.mpr (.inl ⟨rfl, rfl⟩)

/-- An edge of a directed kind repeats only edges of the same pair. -/
theorem same_pair_of_repeats {edge earlier : Edge} (hrepeats : edge.repeats earlier = true)
    (hdirected : edge.kind.isUndirected = false) :
    edge.source = earlier.source ∧ edge.target = earlier.target := by
  rcases repeats_iff.mp hrepeats with hpair | ⟨hundirected, _⟩
  · exact hpair
  · rw [hdirected] at hundirected
    cases hundirected

/-- An edge that was kept stays. -/
theorem mem_foldl_add_of_mem {edges : List Edge} {edge : Edge} (hedge : edge ∈ edges)
    (candidates : List Edge) :
    edge ∈ candidates.foldl add edges := by
  induction candidates generalizing edges with
  | nil => exact hedge
  | cons candidate rest ih =>
    apply ih
    rcases add_cases edges candidate with ⟨_, heq⟩ | ⟨_, heq⟩
    · rwa [heq]
    · rw [heq]
      exact List.mem_append_left _ hedge

/-- Every candidate repeats an edge that is kept, be it itself. -/
theorem exists_kept {candidates : List Edge} {candidate : Edge}
    (hcandidate : candidate ∈ candidates) (edges : List Edge) :
    ∃ kept ∈ candidates.foldl add edges, candidate.repeats kept = true := by
  induction candidates generalizing edges with
  | nil => cases hcandidate
  | cons first rest ih =>
    rcases List.mem_cons.mp hcandidate with rfl | hrest
    · rcases add_cases edges candidate with ⟨⟨earlier, hearlier, hrepeats⟩, heq⟩ | ⟨_, heq⟩
      · have hstays : earlier ∈ add edges candidate := by rwa [heq]
        exact ⟨earlier, mem_foldl_add_of_mem hstays rest, hrepeats⟩
      · have hlast : candidate ∈ add edges candidate := by simp [heq]
        exact ⟨candidate, mem_foldl_add_of_mem hlast rest, candidate.repeats_self⟩
    · exact ih hrest (add edges first)

/-- **A directed candidate settles its pair.** Once one was tried, the edge of its pair is found
among the candidates so far. -/
theorem mem_of_directed_mem {front back : List Edge} {edge directed : Edge}
    (hedge : edge ∈ (front ++ back).foldl add []) (hmem : directed ∈ front)
    (hdirected : directed.kind.isUndirected = false) (hsource : directed.source = edge.source)
    (htarget : directed.target = edge.target) : edge ∈ front := by
  obtain ⟨kept, hkept, hrepeats⟩ := exists_kept hmem []
  obtain ⟨hsame, hsame'⟩ := same_pair_of_repeats hrepeats hdirected
  have hstays : kept ∈ (front ++ back).foldl add [] := by
    rw [List.foldl_append]
    exact mem_foldl_add_of_mem hkept back
  have heq : edge = kept := by
    by_contra hne
    have hdistinct : Distinct ((front ++ back).foldl add []) := Distinct.foldl_add .nil _
    have hpair : edge.repeats kept = true :=
      repeats_iff.mpr (.inl ⟨hsource.symm.trans hsame, htarget.symm.trans hsame'⟩)
    rw [hdistinct.not_repeats hedge hstays hne] at hpair
    cases hpair
  rw [heq]
  exact (mem_foldl_add hkept).resolve_left List.not_mem_nil

end Edge

/-! ## The kinds of a target -/

/-- The kinds before a given one are those of higher precedence. -/
theorem RelationshipKind.exists_all_eq (kind : RelationshipKind) :
    ∃ higher lower, all = higher ++ kind :: lower ∧ ∀ other, other ∈ higher ↔
      other.rank < kind.rank := by
  cases kind with
  | inherits => exact ⟨[], _, rfl, fun other => by cases other <;> decide⟩
  | realizes => exact ⟨[.inherits], _, rfl, fun other => by cases other <;> decide⟩
  | composes => exact ⟨[.inherits, .realizes], _, rfl, fun other => by cases other <;> decide⟩
  | aggregates =>
    exact ⟨[.inherits, .realizes, .composes], _, rfl, fun other => by cases other <;> decide⟩
  | depends =>
    exact ⟨[.inherits, .realizes, .composes, .aggregates], _, rfl,
      fun other => by cases other <;> decide⟩

namespace Entity

/-- A supertype is extended or realised. -/
theorem isSupertype_iff {entity : Entity} {target : String} :
    entity.isSupertype target = true ↔
      entity.Relates target .inherits ∨ entity.Relates target .realizes := by
  simp [isSupertype, Relates]

/-- The structural targets are those of all kinds of relationships but mere dependence. -/
theorem mem_structuralTargets {entity : Entity} {target : String} :
    target ∈ entity.structuralTargets ↔
      entity.Relates target .inherits ∨ entity.Relates target .realizes ∨
        entity.Relates target .composes ∨ entity.Relates target .aggregates := by
  simp [structuralTargets, Relates]

variable {entity : Entity} {known : NameSet} {target : String}

/-- Another known type that is a supertype is a target as such. -/
theorem mem_targets_of_supertype (hother : target ≠ entity.name) (hknown : target ∈ known)
    {kind : RelationshipKind} (hkind : kind = .inherits ∨ kind = .realizes)
    (hrelates : entity.Relates target kind) : target ∈ entity.targets known kind := by
  have hknows := knowsOther_iff.mpr ⟨hother, hknown⟩
  rcases hkind with rfl | rfl
  · exact List.mem_filter.mpr ⟨Option.mem_toList.mpr hrelates, hknows⟩
  · exact List.mem_filter.mpr ⟨hrelates, hknows⟩

/-- A relation of the declaration to another known type makes that type a target of some kind. -/
theorem exists_mem_targets_of_structural (hother : target ≠ entity.name) (hknown : target ∈ known)
    (hrelates : target ∈ entity.structuralTargets) :
    ∃ kind, target ∈ entity.targets known kind := by
  have hknows := knowsOther_iff.mpr ⟨hother, hknown⟩
  by_cases hsuper : entity.isSupertype target = true
  · rcases isSupertype_iff.mp hsuper with h | h
    · exact ⟨_, mem_targets_of_supertype hother hknown (.inl rfl) h⟩
    · exact ⟨_, mem_targets_of_supertype hother hknown (.inr rfl) h⟩
  · rcases mem_structuralTargets.mp hrelates with h | h | h | h
    · exact absurd (isSupertype_iff.mpr (.inl h)) hsuper
    · exact absurd (isSupertype_iff.mpr (.inr h)) hsuper
    · exact ⟨.composes, List.mem_filter.mpr ⟨h, by simp [hknows, hsuper]⟩⟩
    · exact ⟨.aggregates, List.mem_filter.mpr ⟨h, by simp [hknows, hsuper]⟩⟩

/-- Whatever relation an entity has to another known type, that type is a target of some kind. -/
theorem exists_mem_targets (hother : target ≠ entity.name) (hknown : target ∈ known)
    {kind : RelationshipKind} (hrelates : entity.Relates target kind) :
    ∃ kind, target ∈ entity.targets known kind := by
  by_cases hstructural : target ∈ entity.structuralTargets
  · exact exists_mem_targets_of_structural hother hknown hstructural
  · cases kind with
    | depends =>
      have hknows := knowsOther_iff.mpr ⟨hother, hknown⟩
      exact ⟨.depends, List.mem_filter.mpr ⟨hrelates, by simp [hknows, hstructural]⟩⟩
    | _ => exact absurd (mem_structuralTargets.mpr (by simp [hrelates])) hstructural

/-- A type that collects itself is a target of its own, unless it calls itself a supertype. -/
theorem self_mem_targets (hself : entity.Relates entity.name .aggregates)
    (hsuper : ¬ entity.Relates entity.name .inherits)
    (hinterface : ¬ entity.Relates entity.name .realizes) :
    entity.name ∈ entity.targets known .aggregates := by
  have hnone : ¬ entity.isSupertype entity.name = true := by
    rw [isSupertype_iff]
    exact fun h => h.elim hsuper hinterface
  exact List.mem_filter.mpr ⟨hself, by simp [hnone]⟩

end Entity

/-- An entity of which only the name is known. -/
def Entity.named (name : String) : Entity where
  path := name ++ ".java"
  name
  folder := ""
  lines := 0
  complexity := 0
  kind := .concrete
  superclass := none
  interfaces := ∅
  composition := ∅
  aggregation := ∅
  efferent := ∅
  afferent := ∅

/-! ## No relationship is lost -/

namespace Corpus

/-- Dependants play no part in relationships. -/
theorem relationships_ofEntities (entities : List Entity) :
    (ofEntities entities).relationships =
      (entities.flatMap fun entity => entity.candidates (ofEntities entities).names).foldl
        Edge.add [] := by
  have hcandidates :
      ∀ known, ((ofEntities entities).entities.flatMap fun entity => entity.candidates known) =
        entities.flatMap fun entity => entity.candidates known := by
    intro known
    rw [ofEntities, link_eq, List.flatMap_map]
    rfl
  rw [relationships, hcandidates]

/-- Every candidate of an entity repeats one of the relationships. -/
theorem exists_relationship_of_candidate {entities : List Entity} {entity : Entity}
    (hentity : entity ∈ entities) {target : String} {kind : RelationshipKind}
    (htarget : target ∈ entity.targets (ofEntities entities).names kind) :
    ∃ kept ∈ (ofEntities entities).relationships,
      Edge.repeats ⟨entity.name, target, kind⟩ kept = true := by
  rw [relationships_ofEntities]
  apply Edge.exists_kept
  exact List.mem_flatMap.mpr ⟨entity, hentity, Entity.mem_candidates.mpr ⟨rfl, htarget⟩⟩

/-- A relationship of a type with itself is an aggregation. -/
theorem kind_of_self_relationship {entities : List Entity} {name : String} {kind : RelationshipKind}
    (hedge : ⟨name, name, kind⟩ ∈ (ofEntities entities).relationships) : kind = .aggregates := by
  obtain ⟨entity, _, hcandidate⟩ := candidate_of_mem_relationships hedge
  obtain ⟨hsource, htarget⟩ := Entity.mem_candidates.mp hcandidate
  rcases (Entity.of_mem_targets htarget).2 with ⟨hother, _⟩ | ⟨_, hkind⟩
  · exact absurd hsource hother
  · exact hkind

/-- **No relationship is lost.** Whatever relation an entity of a corpus has to another type of it,
there is an edge from the entity to that type, or one of composition or aggregation that leads back.
A type that collects itself has an edge to itself, unless it calls itself a supertype. -/
theorem relationships_lose_nothing (entities : List Entity) :
    ∀ entity ∈ entities,
      (∀ target, (ofEntities entities).Declares target → target ≠ entity.name →
        (∃ kind, entity.Relates target kind) →
        (∃ kind, ⟨entity.name, target, kind⟩ ∈ (ofEntities entities).relationships) ∨
          ∃ kind, (kind = .composes ∨ kind = .aggregates) ∧
            ⟨target, entity.name, kind⟩ ∈ (ofEntities entities).relationships) ∧
      (entity.name ∈ entity.aggregation → entity.superclass ≠ some entity.name →
        entity.name ∉ entity.interfaces →
        ⟨entity.name, entity.name, .aggregates⟩ ∈ (ofEntities entities).relationships) := by
  intro entity hentity
  refine ⟨?_, ?_⟩
  · rintro target hdeclared hother ⟨kind, hrelates⟩
    obtain ⟨shown, htarget⟩ := Entity.exists_mem_targets hother (mem_names.mpr hdeclared) hrelates
    obtain ⟨⟨source, other, kept⟩, hkept, hrepeats⟩ :=
      exists_relationship_of_candidate hentity htarget
    rcases Edge.repeats_iff.mp hrepeats with ⟨rfl, rfl⟩ | ⟨hundirected, rfl, rfl, rfl⟩
    · exact .inl ⟨kept, hkept⟩
    · refine .inr ⟨shown, ?_, hkept⟩
      cases shown <;> simp [RelationshipKind.isUndirected] at hundirected ⊢
  · intro hself hsuper hinterface
    have htarget : entity.name ∈ entity.targets (ofEntities entities).names .aggregates :=
      Entity.self_mem_targets hself hsuper hinterface
    obtain ⟨⟨source, other, kind⟩, hkept, hrepeats⟩ :=
      exists_relationship_of_candidate hentity htarget
    -- Forwards or backwards, the edge that stands for this one leads from the type to itself.
    have hends : source = entity.name ∧ other = entity.name := by
      rcases Edge.repeats_iff.mp hrepeats with ⟨hsource, htarget⟩ | ⟨_, _, hsource, htarget⟩
      · exact ⟨hsource.symm, htarget.symm⟩
      · exact ⟨htarget.symm, hsource.symm⟩
    obtain ⟨rfl, rfl⟩ := hends
    rwa [kind_of_self_relationship hkept] at hkept

/-- Two types that hold each other, of which the second one collects itself. -/
def mutualHolders : List Entity :=
  [{ Entity.named "A" with composition := .ofList ["B"] },
    { Entity.named "B" with composition := .ofList ["A"], aggregation := .ofList ["B"] }]

/-- Two types that hold each other share an edge, and the one that collects itself has its own. -/
theorem relationships_lose_nothing_mutual :
    ∃ entity ∈ mutualHolders, entity.name = "B" ∧ "A" ∈ entity.composition ∧
      "B" ∈ entity.aggregation ∧
      ⟨"B", "B", .aggregates⟩ ∈ (ofEntities mutualHolders).relationships ∧
      ((∃ kind, ⟨"B", "A", kind⟩ ∈ (ofEntities mutualHolders).relationships) ∨
        ∃ kind, (kind = .composes ∨ kind = .aggregates) ∧
          ⟨"A", "B", kind⟩ ∈ (ofEntities mutualHolders).relationships) := by
  have hfacts : "A" ∈ (ofEntities mutualHolders).names ∧
      ∃ entity ∈ mutualHolders, entity.name = "B" ∧
      "A" ∈ entity.composition ∧ "B" ∈ entity.aggregation ∧ entity.superclass = none ∧
      "B" ∉ entity.interfaces := by
    decide +kernel
  obtain ⟨hknown, entity, hentity, hname, hheld, hself, hsuper, hinterface⟩ := hfacts
  obtain ⟨hothers, hown⟩ := relationships_lose_nothing mutualHolders entity hentity
  rw [hname] at hothers hown
  refine ⟨entity, hentity, hname, hheld, hself, hown hself (by simp [hsuper]) hinterface, ?_⟩
  exact hothers "A" (mem_names.mp hknown) (by decide) ⟨.composes, hheld⟩

end Corpus

/-! ## How far precedence reaches -/

namespace Entity

/-- The entity has a supertype relation to the target of the edge that comes before the kind of the
edge. -/
def Outranks (entity : Entity) (edge : Edge) : Prop :=
  entity.name = edge.source ∧ ∃ kind, (kind = .inherits ∨ kind = .realizes) ∧
    kind.rank < edge.kind.rank ∧ entity.Relates edge.target kind

/-- The candidates of higher precedence than a kind come before all others. -/
theorem exists_candidates_eq (entity : Entity) (known : NameSet) (kind : RelationshipKind) :
    ∃ higher lower, entity.candidates known = higher ++ lower ∧
      ∀ edge, edge ∈ higher ↔ edge ∈ entity.candidates known ∧ edge.kind.rank < kind.rank := by
  obtain ⟨kinds, others, hall, hrank⟩ := kind.exists_all_eq
  refine ⟨_, _, by rw [candidates, hall, List.flatMap_append], fun edge => ?_⟩
  simp only [List.mem_flatMap, List.mem_map, mem_candidates]
  constructor
  · rintro ⟨other, hother, target, htarget, rfl⟩
    exact ⟨⟨rfl, htarget⟩, (hrank other).mp hother⟩
  · obtain ⟨source, target, other⟩ := edge
    rintro ⟨⟨rfl, htarget⟩, hother⟩
    exact ⟨other, (hrank other).mpr hother, target, htarget, rfl⟩

/-- A candidate that leads to another type leads to a known one. -/
theorem target_mem_known {entity : Entity} {known : NameSet} {edge : Edge}
    (hcandidate : edge ∈ entity.candidates known) (hne : edge.source ≠ edge.target) :
    edge.target ∈ known := by
  obtain ⟨hname, htarget⟩ := mem_candidates.mp hcandidate
  rcases (of_mem_targets htarget).2 with ⟨_, hknown⟩ | ⟨hown, _⟩
  · exact hknown
  · exact absurd (hname.trans hown.symm) hne

/-- Among the entities with a given candidate there is a first one. -/
theorem exists_first_candidate {entities : List Entity} {known : NameSet} {edge : Edge}
    (h : ∃ entity ∈ entities, edge ∈ entity.candidates known) :
    ∃ front entity back, entities = front ++ entity :: back ∧ edge ∈ entity.candidates known ∧
      ∀ other ∈ front, edge ∉ other.candidates known := by
  obtain ⟨source, hsource, hcandidate⟩ := h
  have hsome :
      (entities.find? fun entity => decide (edge ∈ entity.candidates known)).isSome = true :=
    List.find?_isSome.mpr ⟨source, hsource, decide_eq_true hcandidate⟩
  obtain ⟨entity, hfind⟩ := Option.isSome_iff_exists.mp hsome
  obtain ⟨hmem, front, back, hsplit, hfirst⟩ := List.find?_eq_some_iff_append.mp hfind
  simp only [decide_eq_true_eq, Bool.not_eq_true', decide_eq_false_iff_not] at hmem hfirst
  exact ⟨front, entity, back, hsplit, hmem, hfirst⟩

end Entity

namespace Corpus

/-- **The first entity that gives rise to an edge decides its kind**: neither it nor an earlier
entity has a supertype relation to the target that would come before the edge. -/
theorem exists_deciding_entity {entities : List Entity} {edge : Edge}
    (hedge : edge ∈ (ofEntities entities).relationships) (hne : edge.source ≠ edge.target) :
    ∃ front entity back, entities = front ++ entity :: back ∧
      edge ∈ entity.candidates (ofEntities entities).names ∧
      ∀ other ∈ front ++ [entity], ¬ other.Outranks edge := by
  obtain ⟨known, hknown⟩ : ∃ known, known = (ofEntities entities).names := ⟨_, rfl⟩
  obtain ⟨source, hsource, hcandidate⟩ := candidate_of_mem_relationships hedge
  rw [relationships_ofEntities] at hedge
  rw [← hknown] at hedge hcandidate ⊢
  have htarget := Entity.target_mem_known hcandidate hne
  obtain ⟨front, entity, back, hsplit, hmem, hfirst⟩ :=
    Entity.exists_first_candidate ⟨source, hsource, hcandidate⟩
  refine ⟨front, entity, back, hsplit, hmem, ?_⟩
  rintro other hother ⟨hname, kind, hkind, hrank, hrelates⟩
  -- The supertype relation would be a candidate among the earlier ones, and so would the edge
  -- itself.
  obtain ⟨higher, lower, hcandidates, hhigher⟩ := entity.exists_candidates_eq known edge.kind
  have hsupertype : (⟨edge.source, edge.target, kind⟩ : Edge) ∈ other.candidates known := by
    refine Entity.mem_candidates.mpr ⟨hname.symm, ?_⟩
    exact Entity.mem_targets_of_supertype
      (fun h => hne (hname.symm.trans h.symm)) htarget hkind hrelates
  have hearly : (⟨edge.source, edge.target, kind⟩ : Edge) ∈
      (front.flatMap fun entity => entity.candidates known) ++ higher := by
    rcases List.mem_append.mp hother with hfront | hlast
    · exact List.mem_append_left _ (List.mem_flatMap.mpr ⟨other, hfront, hsupertype⟩)
    · rw [List.mem_singleton.mp hlast] at hsupertype
      exact List.mem_append_right _ ((hhigher _).mpr ⟨hsupertype, hrank⟩)
  have hdirected : kind.isUndirected = false := by rcases hkind with rfl | rfl <;> rfl
  have hedge' : edge ∈ (((front.flatMap fun entity => entity.candidates known) ++ higher) ++
      (lower ++ back.flatMap fun entity => entity.candidates known)).foldl Edge.add [] := by
    simpa [hsplit, hcandidates] using hedge
  rcases List.mem_append.mp (Edge.mem_of_directed_mem hedge' hearly hdirected rfl rfl)
    with hbefore | hown
  · obtain ⟨earlier, hearlier, hthere⟩ := List.mem_flatMap.mp hbefore
    exact hfirst earlier hearlier hthere
  · exact Nat.lt_irrefl _ ((hhigher edge).mp hown).2

/-- Entities of one name agree about their supertypes. -/
def NamesakesAgree (entities : List Entity) : Prop :=
  ∀ entity ∈ entities, ∀ twin ∈ entities, entity.name = twin.name →
    entity.superclass = twin.superclass ∧ entity.interfaces = twin.interfaces

/-- An edge that one entity outranks is outranked by all of its namesakes that agree with it. -/
theorem NamesakesAgree.outranks {entities : List Entity} (hagree : NamesakesAgree entities)
    {entity twin : Entity} (hentity : entity ∈ entities) (htwin : twin ∈ entities) {edge : Edge}
    (hname : twin.name = edge.source)
    (houtranks : entity.Outranks edge) : twin.Outranks edge := by
  obtain ⟨hsource, kind, hkind, hrank, hrelates⟩ := houtranks
  obtain ⟨hsuper, hinterfaces⟩ := hagree entity hentity twin htwin (hsource.trans hname.symm)
  refine ⟨hname, kind, hkind, hrank, ?_⟩
  rcases hkind with rfl | rfl
  · exact hsuper.symm.trans hrelates
  · change edge.target ∈ twin.interfaces
    rw [← hinterfaces]
    exact hrelates

/-- **Precedence reaches as far as the entity that decides.** Every edge between two types comes of
an entity such that neither it nor any entity before it has a supertype relation of higher
precedence to the target. So precedence holds throughout if entities of one name agree about their
supertypes: then no entity outranks an edge, and every superclass in the corpus is shown as such. -/
theorem relationships_precedence (entities : List Entity) :
    (∀ edge ∈ (ofEntities entities).relationships, edge.source ≠ edge.target →
      ∃ front entity back, entities = front ++ entity :: back ∧ entity.name = edge.source ∧
        entity.Relates edge.target edge.kind ∧ ∀ other ∈ front ++ [entity], ¬ other.Outranks edge) ∧
    (NamesakesAgree entities →
      (∀ edge ∈ (ofEntities entities).relationships, edge.source ≠ edge.target →
        ∀ entity ∈ entities, ¬ entity.Outranks edge) ∧
      ∀ entity ∈ entities, ∀ target, entity.superclass = some target → target ≠ entity.name →
        (ofEntities entities).Declares target →
        ⟨entity.name, target, .inherits⟩ ∈ (ofEntities entities).relationships) := by
  have hagreed : NamesakesAgree entities → ∀ edge ∈ (ofEntities entities).relationships,
      edge.source ≠ edge.target → ∀ entity ∈ entities, ¬ entity.Outranks edge := by
    intro hagree edge hedge hne entity hentity houtranks
    obtain ⟨front, decider, back, hsplit, hmem, hfree⟩ := exists_deciding_entity hedge hne
    have hdecider : decider ∈ entities := by simp [hsplit]
    have hname := (Entity.mem_candidates.mp hmem).1
    exact hfree decider (by simp) (hagree.outranks hentity hdecider hname.symm houtranks)
  refine ⟨?_, fun hagree => ⟨hagreed hagree, ?_⟩⟩
  · intro edge hedge hne
    obtain ⟨front, entity, back, hsplit, hmem, hfree⟩ := exists_deciding_entity hedge hne
    obtain ⟨hname, htarget⟩ := Entity.mem_candidates.mp hmem
    exact ⟨front, entity, back, hsplit, hname.symm, (Entity.of_mem_targets htarget).1, hfree⟩
  · intro entity hentity target hsuper hother hdeclared
    have htarget : target ∈ entity.targets (ofEntities entities).names .inherits :=
      Entity.mem_targets_of_supertype hother (mem_names.mpr hdeclared) (.inl rfl) hsuper
    obtain ⟨⟨source, shown, kind⟩, hkept, hrepeats⟩ :=
      exists_relationship_of_candidate hentity htarget
    obtain ⟨rfl, rfl⟩ := Edge.same_pair_of_repeats hrepeats rfl
    have hfree := hagreed hagree _ hkept hother.symm entity hentity
    cases kind with
    | inherits => exact hkept
    | _ => exact absurd ⟨rfl, .inherits, .inl rfl, Nat.zero_lt_succ _, hsuper⟩ hfree

/-- Two types of one name that share their superclass, which the first one holds as well. -/
def agreeingNamesakes : List Entity :=
  [{ Entity.named "S" with superclass := some "T", composition := .ofList ["T"] },
    { Entity.named "S" with superclass := some "T" }, Entity.named "T"]

/-- Namesakes that agree show their superclass as such. -/
theorem relationships_precedence_agreeing :
    NamesakesAgree agreeingNamesakes ∧
      ⟨"S", "T", .inherits⟩ ∈ (ofEntities agreeingNamesakes).relationships ∧
      ∃ front entity back, agreeingNamesakes = front ++ entity :: back ∧ entity.name = "S" ∧
        entity.Relates "T" .inherits ∧
        ∀ other ∈ front ++ [entity], ¬ other.Outranks ⟨"S", "T", .inherits⟩ := by
  have hfacts : NamesakesAgree agreeingNamesakes ∧ "T" ∈ (ofEntities agreeingNamesakes).names ∧
      ∃ entity ∈ agreeingNamesakes, entity.name = "S" ∧ entity.superclass = some "T" := by
    unfold NamesakesAgree
    decide +kernel
  obtain ⟨hagree, hknown, entity, hentity, hname, hsuper⟩ := hfacts
  obtain ⟨hdecided, hthroughout⟩ := relationships_precedence agreeingNamesakes
  have hshown := (hthroughout hagree).2 entity hentity "T" hsuper (by rw [hname]; decide)
    (mem_names.mp hknown)
  rw [hname] at hshown
  exact ⟨hagree, hshown, hdecided _ hshown (by decide)⟩

/-- Two types of one name of which only the second one has a superclass. The first one holds it. -/
def quarrellingNamesakes : List Entity :=
  analyse .standard (typeNames ["a/S.java", "b/S.java", "T.java"])
    [("a/S.java", "class S { T t; }"), ("b/S.java", "class S extends T {}"),
      ("T.java", "class T {}")]

/-- **Precedence does not reach from one namesake to another.** The first type of a name decides, so
the superclass of the second one is shown as a part. -/
theorem relationships_precedence_quarrel :
    (ofEntities quarrellingNamesakes).relationships = [⟨"S", "T", .composes⟩] ∧
      ∃ entity ∈ quarrellingNamesakes, entity.Outranks ⟨"S", "T", .composes⟩ := by
  have hfacts : (ofEntities quarrellingNamesakes).relationships = [⟨"S", "T", .composes⟩] ∧
      ∃ entity ∈ quarrellingNamesakes, entity.name = "S" ∧ entity.superclass = some "T" := by
    decide +kernel
  obtain ⟨hedges, entity, hentity, hname, hsuper⟩ := hfacts
  exact ⟨hedges, entity, hentity, hname, .inherits, .inl rfl, by decide, hsuper⟩

end Corpus

end ClassAtlas
