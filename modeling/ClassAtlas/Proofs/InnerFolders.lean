import ClassAtlas.Proofs.Folders
import ClassAtlas.Proofs.PathTree

/-!
# Two ways to list the folders

The folders of a corpus are collected by going up from the folder of every entity, up to the first
folder that is known already. In the folder tree they are the nodes below the root that have
children. This file proves that for paths without empty components both are the folders that some
path goes through.
-/

namespace ClassAtlas

namespace Path

/-- The path is not empty, and neither is any of its components. -/
def IsProper (path : String) : Prop :=
  path ≠ "" ∧ [] ∉ path.toList.splitOn '/'

instance (path : String) : Decidable (IsProper path) :=
  inferInstanceAs (Decidable (_ ∧ _))

/-- The path goes through the folder. -/
def GoesThrough (path folder : String) : Prop :=
  folder ≠ "" ∧ ∃ rest, path = folder ++ "/" ++ rest

/-- A path goes through a folder if its characters go on with a slash after those of the folder. -/
theorem goesThrough_iff {path folder : String} :
    GoesThrough path folder ↔ folder ≠ "" ∧ ∃ rest, path.toList = folder.toList ++ '/' :: rest := by
  refine and_congr_right fun _ => ?_
  constructor
  · rintro ⟨rest, rfl⟩
    exact ⟨rest.toList, by simp⟩
  · rintro ⟨rest, hrest⟩
    refine ⟨String.ofList rest, ?_⟩
    rw [← String.toList_inj, hrest]
    simp

/-- What stands before a slash of a path stands before its last slash, or makes up all that stands
there. -/
theorem eq_or_exists_of_last_slash {front last outer rest : List Char} (hlast : '/' ∉ last)
    (h : front ++ '/' :: last = outer ++ '/' :: rest) :
    outer = front ∨ ∃ more, front = outer ++ '/' :: more := by
  rcases List.append_eq_append_iff.mp h with ⟨middle, houter, hrest⟩ | ⟨middle, hfront, hrest⟩
  · cases middle with
    | nil => exact .inl (by simpa using houter)
    | cons c middle =>
      obtain ⟨-, rfl⟩ := List.cons.inj hrest
      exact absurd (by simp) hlast
  · cases middle with
    | nil => exact .inl (by simpa using hfront.symm)
    | cons c middle =>
      obtain ⟨rfl, -⟩ := List.cons.inj hrest
      exact .inr ⟨middle, hfront⟩

/-- The folders around the folder of a file are those that its path goes through. -/
theorem mem_foldersAround_folder_iff {path outer : String} :
    outer ∈ foldersAround (folder path) ↔ GoesThrough path outer := by
  rw [mem_foldersAround_iff, goesThrough_iff]
  refine and_congr_right fun hne => ?_
  by_cases hslash : '/' ∈ path.toList
  · obtain ⟨front, last, hpath, hlast⟩ := exists_last_slash hslash
    have hfolder : (folder path).toList = front := by
      rw [folder, String.toList_ofList, hpath, beforeLastSlash_append hlast]
    rw [← String.toList_inj, hfolder, hpath]
    constructor
    · rintro (houter | ⟨more, hmore⟩)
      · exact ⟨last, by rw [houter]⟩
      · exact ⟨more ++ '/' :: last, by rw [hmore, List.append_assoc, List.cons_append]⟩
    · rintro ⟨rest, hrest⟩
      exact eq_or_exists_of_last_slash hlast hrest
  · have hfolder : folder path = "" := by
      rw [folder, beforeLastSlash_of_not_mem hslash, String.ofList_nil]
    rw [hfolder]
    refine iff_of_false ?_ ?_
    · rintro (houter | ⟨rest, hrest⟩)
      · exact hne houter
      · simp at hrest
    · rintro ⟨rest, hrest⟩
      exact hslash (by rw [hrest]; simp)

/-! ## Addresses of folders -/

/-- A slash divides the components of a path. -/
theorem splitOn_append_slash (front back : List Char) :
    (front ++ '/' :: back).splitOn '/' = front.splitOn '/' ++ back.splitOn '/' :=
  List.splitOnP_append_cons front back (by simp)

namespace IsProper

variable {path : String}

/-- The components of a proper path are all its pieces between slashes. -/
theorem components_eq (h : IsProper path) : components path.toList = path.toList.splitOn '/' := by
  rw [components_eq_filter]
  refine List.filter_eq_self.mpr fun piece hpiece => ?_
  have hne : piece ≠ [] := fun heq => h.2 (heq ▸ hpiece)
  simpa using hne

/-- No component of a proper path is empty, so its address has all of them. -/
theorem address_eq (h : IsProper path) :
    address path = (path.toList.splitOn '/').map String.ofList := by
  rw [address, h.components_eq]

/-- A proper path has a component. -/
theorem address_ne_nil (h : IsProper path) : address path ≠ [] := by
  simp [h.address_eq]

/-- A proper path is made of its components. -/
theorem ofAddress_address (h : IsProper path) : ofAddress (address path) = path := by
  rw [← String.toList_inj, toList_ofAddress fun name => isComponent_of_mem_address,
    map_toList_address, h.components_eq, List.intercalate_splitOn]

/-- A proper path goes through the folders whose addresses its components begin with, without the
last component. -/
theorem goesThrough_iff {folder : String} (h : IsProper path) :
    GoesThrough path folder ↔
      ∃ way name, way ≠ [] ∧ way ++ [name] <+: address path ∧ ofAddress way = folder := by
  rw [Path.goesThrough_iff]
  constructor
  · rintro ⟨hne, rest, hrest⟩
    have hsplit : path.toList.splitOn '/' = folder.toList.splitOn '/' ++ rest.splitOn '/' := by
      rw [hrest, splitOn_append_slash]
    -- No component of the folder is empty, since it is one of the path.
    have hfolder : IsProper folder :=
      ⟨hne, fun hempty => h.2 (hsplit ▸ List.mem_append_left _ hempty)⟩
    obtain ⟨name, more, hname⟩ := List.exists_cons_of_ne_nil (List.splitOn_ne_nil '/' rest)
    refine ⟨address folder, String.ofList name, hfolder.address_ne_nil,
      ⟨more.map String.ofList, ?_⟩, hfolder.ofAddress_address⟩
    rw [h.address_eq, hfolder.address_eq, hsplit, hname]
    simp
  · rintro ⟨way, name, hne, ⟨more, hmore⟩, rfl⟩
    rw [List.append_assoc, List.singleton_append] at hmore
    have hnames : ∀ part ∈ way ++ name :: more, IsComponent part := by
      rw [hmore]
      exact fun part => isComponent_of_mem_address
    have hway : ∀ part ∈ way, IsComponent part :=
      fun part hpart => hnames part (List.mem_append_left _ hpart)
    refine ⟨fun hempty => hne (eq_of_ofAddress_eq hway (by simp) hempty),
      (ofAddress (name :: more)).toList, ?_⟩
    rw [← h.ofAddress_address, ← hmore, toList_ofAddress_append hne hnames]

end IsProper

end Path

/-! ## Nodes with children -/

namespace FolderTree

variable {tree found : FolderTree} {way : List String}

/-- A node has children if some address goes on from it. -/
theorem Placed.children_ne_nil_iff (h : Placed [] tree) (hfound : tree.at? way = some found) :
    found.children ≠ [] ↔ ∃ name, tree.HasNode (way ++ [name]) := by
  have hplaced := (h.at? hfound).1
  have hnext (name : String) :
      tree.HasNode (way ++ [name]) ↔ ∃ child, found.child? name = some child := by
    rw [HasNode, at?_append, hfound]
    simp [FolderTree.at?]
  simp only [hnext, hplaced.child?_eq_some_iff]
  constructor
  · intro hne
    obtain ⟨child, rest, hchildren⟩ := List.exists_cons_of_ne_nil hne
    exact ⟨child.name, child, by rw [hchildren]; exact List.mem_cons_self, rfl⟩
  · rintro ⟨name, child, hchild, -⟩
    exact List.ne_nil_of_mem hchild

/-- The paths of the nodes below the root that have children are made of the addresses that go
on. -/
theorem Placed.exists_inner_iff (h : Placed [] tree) {folder : String} :
    (∃ found ∈ tree.nodes, found ≠ tree ∧ found.children ≠ [] ∧ found.path = folder) ↔
      ∃ way name, way ≠ [] ∧ tree.HasNode (way ++ [name]) ∧ Path.ofAddress way = folder := by
  constructor
  · rintro ⟨found, hfound, hne, hchildren, rfl⟩
    obtain ⟨way, hbelow, hway, -⟩ := h.exists_way hfound hne
    obtain ⟨name, hname⟩ := (h.children_ne_nil_iff hway).mp hchildren
    exact ⟨way, name, hbelow, hname, (h.at? hway).1.path_eq.symm⟩
  · rintro ⟨way, name, hbelow, hnode, rfl⟩
    obtain ⟨below, hnext⟩ := hnode
    obtain ⟨found, hway, -⟩ := Option.bind_eq_some_iff.mp (at?_append tree way [name] ▸ hnext)
    obtain ⟨hplaced, hnames⟩ := h.at? hway
    refine ⟨found, h.mem_nodes_iff.mpr ⟨way, hway⟩, ?_,
      (h.children_ne_nil_iff hway).mpr ⟨name, below, hnext⟩, hplaced.path_eq⟩
    rintro rfl
    exact hbelow (Path.eq_of_ofAddress_eq hnames (by simp) (hplaced.path_eq.symm.trans h.path_eq))

/-- If the paths are proper, the inner nodes of their tree are the folders that they go through. -/
theorem exists_inner_ofPaths_iff {paths : List String} (hpaths : ∀ path ∈ paths, Path.IsProper path)
    {folder : String} :
    (∃ found ∈ (ofPaths paths).nodes, found ≠ ofPaths paths ∧ found.children ≠ [] ∧
      found.path = folder) ↔
      ∃ path ∈ paths, Path.GoesThrough path folder := by
  rw [(placed_ofPaths paths).exists_inner_iff]
  constructor
  · rintro ⟨way, name, hbelow, hnode, hfolder⟩
    obtain ⟨path, hpath, hbegins⟩ := (hasNode_ofPaths (by simp)).mp hnode
    exact ⟨path, hpath,
      (hpaths path hpath).goesThrough_iff.mpr ⟨way, name, hbelow, hbegins, hfolder⟩⟩
  · rintro ⟨path, hpath, hthrough⟩
    obtain ⟨way, name, hbelow, hbegins, hfolder⟩ := (hpaths path hpath).goesThrough_iff.mp hthrough
    exact ⟨way, name, hbelow, (hasNode_ofPaths (by simp)).mpr ⟨path, hpath, hbegins⟩, hfolder⟩

end FolderTree

/-! ## Folders of source files -/

namespace Corpus

variable {settings : Settings} {files : List SourceFile}

/-- The entities of a corpus have the paths of its files, in their order. -/
theorem paths_ofSources : (ofSources settings files).entities.map (·.path) = files.map (·.1) := by
  rw [entities_ofSources, List.map_map]
  rfl

/-- The folders of source files are those that their paths go through. -/
theorem mem_folders_ofSources {folder : String} :
    folder ∈ (ofSources settings files).folders ↔
      ∃ file ∈ files, Path.GoesThrough file.1 folder := by
  rw [mem_folders, entities_ofSources]
  simp only [List.mem_map, exists_exists_and_eq_and]
  exact exists_congr fun file => and_congr_right fun _ => Path.mem_foldersAround_folder_iff

/-- **The two listings of the folders agree.** For files with proper paths the folders are listed in
ascending order, and they are the paths of the nodes of the folder tree that have children, without
the root. Both are all folders that the path of some file goes through. -/
theorem folders_are_inner_nodes (settings : Settings) (files : List SourceFile)
    (hpaths : ∀ file ∈ files, Path.IsProper file.1) :
    (ofSources settings files).folders.toList.Pairwise (· < ·) ∧
    (∀ folder, folder ∈ (ofSources settings files).folders ↔
      ∃ found ∈ (ofSources settings files).folderTree.nodes,
        found ≠ (ofSources settings files).folderTree ∧
        found.children ≠ [] ∧ found.path = folder) ∧
    ∀ folder, folder ∈ (ofSources settings files).folders ↔
      folder ≠ "" ∧ ∃ file ∈ files, ∃ rest, file.1 = folder ++ "/" ++ rest := by
  have hproper : ∀ path ∈ files.map (·.1), Path.IsProper path := List.forall_mem_map.mpr hpaths
  refine ⟨(ofSources settings files).folders.ascending, fun folder => ?_, fun folder => ?_⟩
  · rw [folderTree, paths_ofSources, FolderTree.exists_inner_ofPaths_iff hproper,
      mem_folders_ofSources]
    simp
  · rw [mem_folders_ofSources]
    simp only [Path.GoesThrough]
    constructor
    · rintro ⟨file, hfile, hne, hrest⟩
      exact ⟨hne, file, hfile, hrest⟩
    · rintro ⟨hne, file, hfile, hrest⟩
      exact ⟨file, hfile, hne, hrest⟩

/-- Files in nested folders. The way up from the second, the third and the fifth ends at a folder of
an earlier one, no file is directly inside the folder `c`, and the last file has the path of a
folder. -/
def sharedFolderFiles : List SourceFile :=
  [("a/b/C.java", "class C {}"), ("a/D.java", "class D {}"), ("a/b/E.java", "class E {}"),
    ("c/d/F.java", "class F {}"), ("c/d/e/G.java", "class G {}"), ("a", "")]

/-- The folders of files in nested folders, of which some are files as well or hold no file
themselves. -/
theorem folders_are_inner_nodes_shared :
    (∀ file ∈ sharedFolderFiles, Path.IsProper file.1) ∧
    (ofSources .standard sharedFolderFiles).folders.toList = ["a", "a/b", "c", "c/d", "c/d/e"] ∧
    ∀ folder, folder ∈ (ofSources .standard sharedFolderFiles).folders ↔
      ∃ found ∈ (ofSources .standard sharedFolderFiles).folderTree.nodes,
        found ≠ (ofSources .standard sharedFolderFiles).folderTree ∧ found.children ≠ [] ∧
        found.path = folder := by
  have hpaths : ∀ file ∈ sharedFolderFiles, Path.IsProper file.1 := by decide +kernel
  obtain ⟨-, hinner, -⟩ := folders_are_inner_nodes .standard sharedFolderFiles hpaths
  exact ⟨hpaths, by decide +kernel, hinner⟩

end Corpus

end ClassAtlas
