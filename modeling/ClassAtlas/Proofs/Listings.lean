import ClassAtlas.Render.Artifact
import ClassAtlas.Proofs.DocumentListing
import ClassAtlas.Proofs.Edges
import ClassAtlas.Proofs.Folders

/-!
# The edges of a listing

A listing of a folder shows the edges that touch one of its entities, which it recognises by their
names, and the entities are selected by their paths. This file proves that the edges of such a
listing are those between entities of which one tells that folder, in the order of the whole corpus,
and that a listing without a folder shows every edge. Both are said about the text: the edges which
are read from it are these.
-/

namespace ClassAtlas.Corpus

/-! ## Entities by name -/

/-- The folder of the type with the given name. -/
def folderOf? (corpus : Corpus) (name : String) : Option String :=
  (corpus.get? name).map (·.folder)

/-- The edge starts or ends at a type of the folder. -/
def touches (corpus : Corpus) (folder : String) (edge : Edge) : Bool :=
  corpus.folderOf? edge.source = some folder || corpus.folderOf? edge.target = some folder

/-- The edges that touch the folder, or all edges if no folder is given. -/
def edgesAt (corpus : Corpus) : Option String → List Edge
  | some folder => corpus.relationships.filter (corpus.touches folder)
  | none => corpus.relationships

variable {corpus : Corpus}

/-- If names tell entities apart, an entity is found by its name. -/
theorem get?_eq_some_iff (hnames : (corpus.entities.map (·.name)).Nodup) {name : String}
    {entity : Entity} :
    corpus.get? name = some entity ↔ entity ∈ corpus.entities ∧ entity.name = name := by
  constructor
  · intro hfound
    exact ⟨List.mem_of_find?_eq_some hfound, by simpa using List.find?_some hfound⟩
  · rintro ⟨hentity, rfl⟩
    exact find?_key_of_mem Entity.name hnames hentity

/-- If names tell entities apart, the folder of a type is the one that its entity tells. -/
theorem folderOf?_eq_some_iff (hnames : (corpus.entities.map (·.name)).Nodup)
    {name folder : String} :
    corpus.folderOf? name = some folder ↔
      ∃ entity ∈ corpus.entities, entity.folder = folder ∧ entity.name = name := by
  rw [folderOf?, Option.map_eq_some_iff]
  constructor
  · rintro ⟨entity, hfound, hfolder⟩
    obtain ⟨hentity, hname⟩ := (get?_eq_some_iff hnames).mp hfound
    exact ⟨entity, hentity, hfolder, hname⟩
  · rintro ⟨entity, hentity, hfolder, hname⟩
    exact ⟨entity, (get?_eq_some_iff hnames).mpr ⟨hentity, hname⟩, hfolder⟩

/-- An edge between two entities touches the folders of both. -/
theorem touches_iff {edge : Edge} {source target : Entity}
    (hsource : corpus.get? edge.source = some source)
    (htarget : corpus.get? edge.target = some target) (folder : String) :
    corpus.touches folder edge = true ↔ source.folder = folder ∨ target.folder = folder := by
  simp [touches, folderOf?, hsource, htarget]

/-- Every edge leads from one entity of the corpus to another, or back to the same. -/
theorem declares_of_mem_relationships {entities : List Entity} {edge : Edge}
    (hedge : edge ∈ (ofEntities entities).relationships) :
    (ofEntities entities).Declares edge.source ∧ (ofEntities entities).Declares edge.target := by
  obtain ⟨entity, hentity, hcandidate⟩ := candidate_of_mem_relationships hedge
  obtain ⟨hsource, htarget⟩ := Entity.mem_candidates.mp hcandidate
  have hdeclared : (ofEntities entities).Declares edge.source :=
    declares_ofEntities.mpr ⟨entity, hentity, hsource.symm⟩
  refine ⟨hdeclared, ?_⟩
  rcases (Entity.of_mem_targets htarget).2 with ⟨_, hknown⟩ | ⟨hown, _⟩
  · exact mem_names.mp hknown
  · rwa [hown, ← hsource]

/-! ## Listed edges -/

variable {settings : Settings} {files : List SourceFile}

/-- Files that all declare different types make entities that all have different names. -/
theorem nodup_names_ofSources (hnames : (files.map fun file => Path.typeName file.1).Nodup) :
    ((ofSources settings files).entities.map (·.name)).Nodup := by
  rw [entities_ofSources, List.map_map]
  exact hnames

/-- The names that a listing of a folder goes by are those of the entities that tell the folder. -/
theorem mem_names_inFolder (hpaths : ∀ file ∈ files, Path.NoOuterSlash file.1)
    {name folder : String} :
    name ∈ NameSet.ofList (((ofSources settings files).inFolder folder).map (·.name)) ↔
      ∃ entity ∈ (ofSources settings files).entities, entity.folder = folder ∧
        entity.name = name := by
  simp only [inFolder_eq hpaths, NameSet.mem_ofList, List.mem_map, List.mem_filter,
    decide_eq_true_eq, and_assoc]

/-- The edges that are listed for a folder are those that touch it. -/
theorem listedEdges_inFolder (hnames : (files.map fun file => Path.typeName file.1).Nodup)
    (hpaths : ∀ file ∈ files, Path.NoOuterSlash file.1) (folder : String) (edges : List Edge) :
    Render.listedEdges ((ofSources settings files).inFolder folder) edges =
      edges.filter ((ofSources settings files).touches folder) := by
  have hname : ∀ name,
      name ∈ NameSet.ofList (((ofSources settings files).inFolder folder).map (·.name)) ↔
        (ofSources settings files).folderOf? name = some folder := fun name =>
    (mem_names_inFolder hpaths).trans (folderOf?_eq_some_iff (nodup_names_ofSources hnames)).symm
  simp only [Render.listedEdges, hname]
  rfl

/-- No edge is left out if all entities are listed. -/
theorem listedEdges_entities (entities : List Entity) :
    Render.listedEdges (ofEntities entities).entities (ofEntities entities).relationships =
      (ofEntities entities).relationships := by
  apply List.filter_eq_self.mpr
  intro edge hedge
  obtain ⟨hsource, _⟩ := declares_of_mem_relationships hedge
  have hlisted : edge.source ∈ NameSet.ofList ((ofEntities entities).entities.map (·.name)) :=
    mem_names.mpr hsource
  simp [hlisted]

/-- The edges that are listed with a selection are those that touch the folder, or all. -/
theorem listedEdges_selection (hnames : (files.map fun file => Path.typeName file.1).Nodup)
    (hpaths : ∀ file ∈ files, Path.NoOuterSlash file.1) (folder : Option String) :
    Render.listedEdges ((ofSources settings files).selection folder)
        (ofSources settings files).relationships =
      (ofSources settings files).edgesAt folder := by
  cases folder with
  | none => exact listedEdges_entities _
  | some folder => exact listedEdges_inFolder hnames hpaths folder _

/-- No end of an edge starts with a quote if no type that the files declare does. -/
theorem startsUnquoted_of_mem_relationships
    (hquotes : ∀ file ∈ files, Render.StartsUnquoted (Path.typeName file.1)) {edge : Edge}
    (hedge : edge ∈ (ofSources settings files).relationships) :
    Render.StartsUnquoted edge.source ∧ Render.StartsUnquoted edge.target := by
  have hname {name : String} (h : (ofSources settings files).Declares name) :
      Render.StartsUnquoted name := by
    obtain ⟨entity, hentity, rfl⟩ := h
    rw [entities_ofSources] at hentity
    obtain ⟨file, hfile, rfl⟩ := List.mem_map.mp hentity
    exact hquotes file hfile
  obtain ⟨hsource, htarget⟩ := declares_of_mem_relationships hedge
  exact ⟨hname hsource, hname htarget⟩

/-- The edges of a listing are edges of the corpus. -/
theorem mem_relationships_of_mem_edgesAt {folder : Option String} {edge : Edge}
    (h : edge ∈ corpus.edgesAt folder) : edge ∈ corpus.relationships := by
  cases folder with
  | none => exact h
  | some folder => exact List.mem_of_mem_filter h

/-- **Listings show the edges that touch their folder.** If the files all declare different types
and no path has a slash at either end, every edge has an entity at its start and one at its end, and
it touches the folders that these two tell. The relationships that are read from the text of a
document are the edges that touch its folder, in the order of the whole corpus, or all edges if no
folder is given. The same edges make the rows of a table listing, and they are read from these rows
unless the name of a type starts with a quote. -/
theorem listings_show_touching_edges (settings : Settings) (files : List SourceFile)
    (hnames : (files.map fun file => Path.typeName file.1).Nodup)
    (hpaths : ∀ file ∈ files, Path.NoOuterSlash file.1) :
    (∀ edge ∈ (ofSources settings files).relationships, ∃ source target,
      (ofSources settings files).get? edge.source = some source ∧
      (ofSources settings files).get? edge.target = some target ∧
      ∀ folder, edge ∈ (ofSources settings files).edgesAt (some folder) ↔
        source.folder = folder ∨ target.folder = folder) ∧
    ∀ folder,
      Render.documentEdges? (Render.artifact .document folder (ofSources settings files)) =
        some ((ofSources settings files).edgesAt folder) ∧
      Render.relationshipRows (Render.artifact .table folder (ofSources settings files)) =
        (((ofSources settings files).edgesAt folder).map Render.edgeRow).map Render.rowLine ∧
      ((∀ file ∈ files, Render.StartsUnquoted (Path.typeName file.1)) →
        Render.tableEdges? (Render.artifact .table folder (ofSources settings files)) =
          some ((ofSources settings files).edgesAt folder)) := by
  have hdistinct : ((ofSources settings files).entities.map (·.name)).Nodup :=
    nodup_names_ofSources hnames
  refine ⟨?_, fun folder => ?_⟩
  · intro edge hedge
    obtain ⟨⟨source, hsource, hstart⟩, target, htarget, hend⟩ := declares_of_mem_relationships hedge
    have hfrom := (get?_eq_some_iff hdistinct).mpr ⟨hsource, hstart⟩
    have hto := (get?_eq_some_iff hdistinct).mpr ⟨htarget, hend⟩
    refine ⟨source, target, hfrom, hto, fun folder => ?_⟩
    rw [edgesAt, List.mem_filter, and_iff_right hedge]
    exact touches_iff hfrom hto folder
  · have hedges : Render.listedEdges ((ofSources settings files).selection folder)
        (ofSources settings files).relationships = (ofSources settings files).edgesAt folder :=
      listedEdges_selection hnames hpaths folder
    refine ⟨?_, ?_, fun hquotes => ?_⟩
    · simp only [Render.artifact, hedges]
      exact Render.documentEdges?_document _ _ _
    · simp only [Render.artifact, hedges]
      exact (Render.rows_of_tableListing _ _ _).2
    · simp only [Render.artifact, hedges]
      apply Render.tableEdges?_tableListing
      intro edge hedge
      exact startsUnquoted_of_mem_relationships hquotes (mem_relationships_of_mem_edgesAt hedge)

/-- Two types of a folder, and two at the top of which one refers to the other and to the folder. -/
def twoFolderFiles : List SourceFile :=
  [("s/A.java", "class A {}"), ("s/B.java", "class B extends A {}"),
    ("C.java", "class C { B b; D d; }"), ("D.java", "class D {}")]

/-- The listing of the folder shows the edges inside it and into it, and not the one at the top. -/
theorem listings_show_touching_edges_two_folders :
    (twoFolderFiles.map fun file => Path.typeName file.1).Nodup ∧
    (∀ file ∈ twoFolderFiles, Path.NoOuterSlash file.1) ∧
    (ofSources .standard twoFolderFiles).edgesAt none =
      [⟨"B", "A", .inherits⟩, ⟨"C", "B", .composes⟩, ⟨"C", "D", .composes⟩] ∧
    Render.documentEdges?
        (Render.artifact .document (some "s") (ofSources .standard twoFolderFiles)) =
      some [⟨"B", "A", .inherits⟩, ⟨"C", "B", .composes⟩] ∧
    Render.tableEdges? (Render.artifact .table (some "s") (ofSources .standard twoFolderFiles)) =
      some [⟨"B", "A", .inherits⟩, ⟨"C", "B", .composes⟩] := by
  have hnames : (twoFolderFiles.map fun file => Path.typeName file.1).Nodup := by decide +kernel
  have hpaths : ∀ file ∈ twoFolderFiles, Path.NoOuterSlash file.1 := by decide +kernel
  have hquotes : ∀ file ∈ twoFolderFiles, Render.StartsUnquoted (Path.typeName file.1) := by
    unfold Render.StartsUnquoted
    decide +kernel
  have hall : (ofSources .standard twoFolderFiles).relationships =
      [⟨"B", "A", .inherits⟩, ⟨"C", "B", .composes⟩, ⟨"C", "D", .composes⟩] := by
    decide +kernel
  have hinside : (ofSources .standard twoFolderFiles).edgesAt (some "s") =
      [⟨"B", "A", .inherits⟩, ⟨"C", "B", .composes⟩] := by
    rw [edgesAt, hall]
    decide +kernel
  obtain ⟨hdocument, -, htable⟩ :=
    (listings_show_touching_edges .standard twoFolderFiles hnames hpaths).2 (some "s")
  rw [hinside] at hdocument htable
  exact ⟨hnames, hpaths, hall, hdocument, htable hquotes⟩

end ClassAtlas.Corpus
