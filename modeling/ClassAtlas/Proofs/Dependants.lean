import ClassAtlas.Corpus
import Mathlib.Data.List.Forall2

/-!
# The dependants of a type

A corpus is linked in one pass over all references, which notes every referrer at the places of the
type it refers to. This file proves that afterwards each entity holds exactly the names of its
dependants, also where several entities have the same name, and that linking a second time changes
nothing.
-/

namespace ClassAtlas.Corpus

/-- A fold in which every step adds what one element of the list stands for adds what all of them
stand for. The steps may rely on a property that they keep. -/
theorem foldl_holds_iff {σ α : Type} (step : σ → α → σ) (Keeps Holds : σ → Prop) {Adds : α → Prop}
    (hkeeps : ∀ s a, Keeps s → Keeps (step s a))
    (hstep : ∀ s a, Keeps s → (Holds (step s a) ↔ Holds s ∨ Adds a))
    {s : σ} (hs : Keeps s) (list : List α) :
    Holds (list.foldl step s) ↔ Holds s ∨ ∃ a ∈ list, Adds a := by
  induction list generalizing s with
  | nil => simp
  | cons a rest ih =>
    rw [List.foldl_cons, ih (hkeeps s a hs), hstep s a hs]
    simp only [List.mem_cons, exists_eq_or_imp, or_assoc]

/-! ## Places -/

/-- One more place is found under its own name and under no other. -/
theorem Places.find_add (name other : String) (place : Nat) (places : Places) :
    (places.add name place).find other =
      if other = name then places.find other ++ [place] else places.find other := by
  induction places with
  | nil => by_cases h : name = other <;> simp [add, find, h, eq_comm]
  | cons entry rest ih =>
    obtain ⟨key, found⟩ := entry
    by_cases hkey : key = name
    · subst hkey
      by_cases h : other = key
      · simp [add, find, h]
      · simp [add, find, h, Ne.symm h]
    · by_cases h : key = other
      · subst h
        simp [add, find, hkey]
      · simp [add, find, hkey, h, ih]

/-- The places found under a name are those of the entities with this name. -/
theorem mem_find_places {entities : List Entity} {name : String} {place : Nat} :
    place ∈ (places entities).find name ↔
      ∃ entity, entities[place]? = some entity ∧ entity.name = name := by
  have hadd : ∀ (places : Places) (entry : Entity × Nat), True →
      (place ∈ (places.add entry.1.name entry.2).find name ↔
        place ∈ places.find name ∨ entry.1.name = name ∧ place = entry.2) := by
    intro places entry _
    rw [Places.find_add]
    by_cases h : name = entry.1.name
    · simp [h]
    · simp [h, Ne.symm h]
  have hfold := foldl_holds_iff _ (fun _ => True) (fun places : Places => place ∈ places.find name)
    (fun _ _ _ => trivial) hadd (s := []) trivial entities.zipIdx
  refine hfold.trans ?_
  simp only [Places.find, List.not_mem_nil, false_or, Prod.exists, List.mem_zipIdx_iff_getElem?]
  constructor
  · rintro ⟨entity, _, hget, hname, rfl⟩
    exact ⟨entity, hget, hname⟩
  · rintro ⟨entity, hget, hname⟩
    exact ⟨entity, place, hget, hname, rfl⟩

/-! ## Notes -/

/-- The name is noted at the place. -/
def Noted (name : String) (place : Nat) (noted : Array NameSet) : Prop :=
  ∃ names, noted[place]? = some names ∧ name ∈ names

/-- A new note is read at its own place and leaves all others as they were. -/
theorem noted_modify {name x : String} {place other : Nat} {noted : Array NameSet}
    (hplace : place < noted.size) :
    Noted x place (noted.modify other (·.insert name)) ↔
      Noted x place noted ∨ other = place ∧ x = name := by
  have hget : noted[place]? = some noted[place] := Array.getElem?_eq_getElem hplace
  by_cases h : other = place
  · simp [Noted, Array.getElem?_modify, h, hget, or_comm]
  · simp [Noted, Array.getElem?_modify, h]

/-- Noting a name adds no place. -/
@[simp] theorem size_noteAt (name : String) (noted : Array NameSet) (places : List Nat) :
    (noteAt name noted places).size = noted.size := by
  induction places generalizing noted with
  | nil => rfl
  | cons place rest ih =>
    exact (ih (noted.modify place (·.insert name))).trans (Array.size_modify ..)

/-- A name noted at several places is read at each of them. -/
theorem noted_noteAt {name x : String} {place : Nat} {noted : Array NameSet}
    (hplace : place < noted.size) (places : List Nat) :
    Noted x place (noteAt name noted places) ↔ Noted x place noted ∨ place ∈ places ∧ x = name := by
  have hfold := foldl_holds_iff (fun noted other => noted.modify other (·.insert name))
    (fun noted => place < noted.size) (Noted x place) (fun _ _ h => by simpa using h)
    (fun _ _ h => noted_modify h) hplace places
  refine hfold.trans ?_
  simp only [← and_assoc, exists_and_right, exists_eq_right]

/-- Noting the references of an entity adds no place. -/
@[simp] theorem size_noteReferences (places : Places) (noted : Array NameSet) (entity : Entity) :
    (noteReferences places noted entity).size = noted.size := by
  unfold noteReferences
  induction entity.efferent.toList generalizing noted with
  | nil => rfl
  | cons target rest ih => simpa using ih (noteAt entity.name noted (places.find target))

/-- An entity is noted at the places of the types that it refers to. -/
theorem noted_noteReferences {places : Places} {x : String} {place : Nat} {noted : Array NameSet}
    (hplace : place < noted.size) (entity : Entity) :
    Noted x place (noteReferences places noted entity) ↔ Noted x place noted ∨
      ∃ target ∈ entity.efferent, place ∈ places.find target ∧ x = entity.name :=
  foldl_holds_iff _ (fun noted => place < noted.size) (Noted x place)
    (fun _ _ h => by simpa using h)
    (fun _ target h => noted_noteAt h (places.find target)) hplace entity.efferent.toList

/-- There is one place for each entity. -/
@[simp] theorem size_referrers (entities : List Entity) :
    (referrers entities).size = entities.length := by
  have hsize : ∀ (rest : List Entity) (noted : Array NameSet),
      (rest.foldl (noteReferences (places entities)) noted).size = noted.size := by
    intro rest
    induction rest with
    | nil => exact fun _ => rfl
    | cons entity rest ih =>
      intro noted
      rw [List.foldl_cons, ih, size_noteReferences]
  rw [referrers, hsize, Array.size_replicate]

/-- After the pass a place holds the names of all entities that refer to the type there. -/
theorem noted_referrers {entities : List Entity} {x : String} {place : Nat}
    (hplace : place < entities.length) :
    Noted x place (referrers entities) ↔
      ∃ entity ∈ entities, ∃ target ∈ entity.efferent,
        place ∈ (places entities).find target ∧ x = entity.name := by
  have hsize : place < (Array.replicate entities.length (∅ : NameSet)).size := by simpa using hplace
  have hstart : ¬ Noted x place (Array.replicate entities.length ∅) := by
    rintro ⟨names, hget, hmem⟩
    rw [Array.getElem?_replicate, if_pos hplace] at hget
    cases hget
    exact NameSet.not_mem_empty x hmem
  have hfold := foldl_holds_iff (noteReferences (places entities)) (fun noted => place < noted.size)
    (Noted x place) (fun _ _ h => by simpa using h)
      (fun _ entity h => noted_noteReferences h entity)
    hsize entities
  exact hfold.trans (or_iff_right hstart)

/-! ## Linking -/

/-- The names of the entities that refer to the given name. -/
def dependants (entities : List Entity) (name : String) : NameSet :=
  NameSet.ofList ((entities.filter fun entity => name ∈ entity.efferent).map (·.name))

/-- The dependants of a type are the names of the entities that refer to it. -/
@[simp] theorem mem_dependants {entities : List Entity} {name x : String} :
    x ∈ dependants entities name ↔
      ∃ entity ∈ entities, entity.name = x ∧ name ∈ entity.efferent := by
  simp only [dependants, NameSet.mem_ofList, List.mem_map, List.mem_filter, decide_eq_true_eq]
  constructor
  · rintro ⟨entity, ⟨hmem, href⟩, hname⟩
    exact ⟨entity, hmem, hname, href⟩
  · rintro ⟨entity, hmem, hname, href⟩
    exact ⟨entity, ⟨hmem, href⟩, hname⟩

/-- The place of an entity holds its dependants. -/
theorem getElem?_referrers {entities : List Entity} {place : Nat} {entity : Entity}
    (hentity : entities[place]? = some entity) :
    (referrers entities)[place]? = some (dependants entities entity.name) := by
  obtain ⟨hplace, hget⟩ := List.getElem?_eq_some_iff.mp hentity
  have hsize : place < (referrers entities).size := by simpa using hplace
  rw [Array.getElem?_eq_getElem hsize, Option.some.injEq]
  apply NameSet.ext_mem
  intro x
  have hnoted : x ∈ (referrers entities)[place] ↔ Noted x place (referrers entities) := by
    simp [Noted, Array.getElem?_eq_getElem hsize]
  rw [hnoted, noted_referrers hplace, mem_dependants]
  constructor
  · rintro ⟨other, hother, target, htarget, hfound, rfl⟩
    obtain ⟨found, hfoundget, rfl⟩ := mem_find_places.mp hfound
    rw [hentity] at hfoundget
    cases hfoundget
    exact ⟨other, hother, rfl, htarget⟩
  · rintro ⟨other, hother, rfl, href⟩
    exact ⟨other, hother, entity.name, href, mem_find_places.mpr ⟨entity, hentity, rfl⟩, rfl⟩

/-- Linking gives every entity its dependants and changes nothing else. -/
theorem link_eq (entities : List Entity) :
    link entities = entities.map fun entity =>
      { entity with afferent := dependants entities entity.name } := by
  apply List.ext_getElem?
  intro place
  cases hentity : entities[place]? with
  | none => simp [link, List.getElem?_zipWith, hentity]
  | some entity => simp [link, List.getElem?_zipWith, hentity, getElem?_referrers hentity]

/-- The corpus has an entity of the given name. -/
def Declares (corpus : Corpus) (name : String) : Prop :=
  ∃ entity ∈ corpus.entities, entity.name = name

/-- Linking declares no other types. -/
theorem declares_ofEntities {entities : List Entity} {name : String} :
    (ofEntities entities).Declares name ↔ ∃ entity ∈ entities, entity.name = name := by
  simp [Declares, ofEntities, link_eq]

/-- What an entity depends on is not touched by linking, so its dependants stay the same. -/
theorem dependants_link (entities : List Entity) :
    dependants (link entities) = dependants entities := by
  funext name
  apply NameSet.ext_mem
  intro x
  simp [link_eq]

/-- Linking a second time changes nothing. -/
theorem link_link (entities : List Entity) : link (link entities) = link entities := by
  rw [link_eq (link entities), dependants_link, link_eq, List.map_map]
  rfl

/-- **The corpus inverts the references of its entities.** The entities keep their order and all
they hold but for the dependants. These are exactly the names of the entities that refer to them,
whatever was noted there before, and alike for all entities of one name. Hence building the corpus
anew from its own entities gives the same corpus. -/
theorem ofEntities_inverts_references (entities : List Entity) :
    (ofEntities entities).entities = link entities ∧
    List.Forall₂ (fun before after => after = { before with afferent := after.afferent }) entities
      (link entities) ∧
    (∀ entity ∈ link entities, ∀ name, name ∈ entity.afferent ↔
      ∃ other ∈ entities, other.name = name ∧ entity.name ∈ other.efferent) ∧
    (∀ entity ∈ link entities, ∀ twin ∈ link entities, entity.name = twin.name →
      entity.afferent = twin.afferent) ∧
    ofEntities (ofEntities entities).entities = ofEntities entities := by
  have hafferent : ∀ entity ∈ link entities, entity.afferent = dependants entities entity.name := by
    intro entity hentity
    rw [link_eq] at hentity
    obtain ⟨before, _, rfl⟩ := List.mem_map.mp hentity
    rfl
  refine ⟨rfl, ?_, ?_, ?_, ?_⟩
  · rw [link_eq, List.forall₂_map_right_iff]
    exact List.forall₂_same.mpr fun _ _ => rfl
  · intro entity hentity name
    rw [hafferent entity hentity, mem_dependants]
  · intro entity hentity twin htwin hname
    rw [hafferent entity hentity, hafferent twin htwin, hname]
  · exact congrArg Corpus.mk (link_link entities)

end ClassAtlas.Corpus
