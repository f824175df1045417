import ClassAtlas.Corpus.FolderTree

/-!
# Paths and their components

The components of a path are what stands between its slashes, but for what is empty. The names on
the way down a folder tree make up a path again, one slash at a time. This file proves that the two
are inverse to each other, up to empty components, so that a node of the tree is known by its path.
-/

namespace ClassAtlas.Path

/-- The name can stand between two slashes. -/
structure IsComponent (name : String) : Prop where
  ne_empty : name ≠ ""
  no_slash : '/' ∉ name.toList

/-- The path without its empty components. -/
def withoutEmptyComponents (path : String) : String :=
  String.ofList (['/'].intercalate ((path.toList.splitOn '/').filter (· ≠ [])))

/-! ## Taking apart -/

section Pieces

variable {c : Char} {path : List Char}

/-- A slash in front makes an empty component in front. -/
theorem splitOn_slash_cons : ('/' :: path).splitOn '/' = [] :: path.splitOn '/' := by
  simp [List.splitOn, List.splitOnP_cons_eq_if_modifyHead]

/-- Any other character in front joins the first component. -/
theorem splitOn_cons_of_ne (hc : c ≠ '/') :
    (c :: path).splitOn '/' = (path.splitOn '/').modifyHead (c :: ·) := by
  simp [List.splitOn, List.splitOnP_cons_eq_if_modifyHead, hc]

/-- What does not start with a slash has a first piece that starts in the same way. -/
theorem exists_splitOn_cons (hc : c ≠ '/') (path : List Char) :
    ∃ first pieces, path.splitOn '/' = first :: pieces ∧
      (c :: path).splitOn '/' = (c :: first) :: pieces := by
  obtain ⟨first, pieces, hsplit⟩ := List.exists_cons_of_ne_nil (List.splitOn_ne_nil '/' path)
  exact ⟨first, pieces, hsplit, by rw [splitOn_cons_of_ne hc, hsplit, List.modifyHead_cons]⟩

/-- There is no slash between two slashes. -/
theorem slash_not_mem_of_mem_splitOn {piece : List Char} (h : piece ∈ path.splitOn '/') :
    '/' ∉ piece := by
  induction path generalizing piece with
  | nil =>
    rw [List.splitOn_nil, List.mem_singleton] at h
    simp [h]
  | cons c path ih =>
    by_cases hc : c = '/'
    · subst hc
      rw [splitOn_slash_cons, List.mem_cons] at h
      rcases h with rfl | h
      · simp
      · exact ih h
    · obtain ⟨first, pieces, hsplit, hcons⟩ := exists_splitOn_cons hc path
      rw [hsplit] at ih
      rw [hcons, List.mem_cons] at h
      rcases h with rfl | h
      · simp [Ne.symm hc, ih List.mem_cons_self]
      · exact ih (List.mem_cons_of_mem _ h)

/-- The components are the pieces between slashes that are not empty. -/
theorem components_eq_filter (path : List Char) :
    components path = (path.splitOn '/').filter (· ≠ []) := by
  fun_induction components path with
  | case1 => rfl
  | case2 rest ih => rw [splitOn_slash_cons, ih, List.filter_cons_of_neg (by simp)]
  | case3 c hc => rw [splitOn_cons_of_ne hc]; rfl
  | case4 c hc rest ih =>
    rw [splitOn_cons_of_ne hc, ih, splitOn_slash_cons, List.modifyHead_cons,
      List.filter_cons_of_neg (by simp), List.filter_cons_of_pos (by simp)]
  | case5 c hc d rest hd hnil ih =>
    obtain ⟨first, pieces, -, hcons⟩ := exists_splitOn_cons hd rest
    rw [hnil, hcons, List.filter_cons_of_pos (by simp)] at ih
    cases ih
  | case6 c hc d rest hd first others hsome ih =>
    obtain ⟨start, pieces, -, hcons⟩ := exists_splitOn_cons hd rest
    rw [hsome, hcons, List.filter_cons_of_pos (by simp)] at ih
    obtain ⟨rfl, rfl⟩ := List.cons.inj ih
    rw [hsome, splitOn_cons_of_ne hc, hcons, List.modifyHead_cons,
      List.filter_cons_of_pos (by simp)]

end Pieces

/-- The non-empty components of a path, from the first on. -/
def address (path : String) : List String :=
  (components path.toList).map String.ofList

/-- The names of an address can stand between slashes. -/
theorem isComponent_of_mem_address {path name : String} (h : name ∈ address path) :
    IsComponent name := by
  obtain ⟨chars, hmem, rfl⟩ := List.mem_map.mp h
  rw [components_eq_filter, List.mem_filter, decide_eq_true_eq] at hmem
  refine ⟨by simpa using hmem.2, ?_⟩
  rw [String.toList_ofList]
  exact slash_not_mem_of_mem_splitOn hmem.1

/-! ## Putting together -/

/-- The path that the names on the way down make up. -/
def ofAddress (names : List String) : String :=
  names.foldl FolderTree.childPath ""

/-- The path of an address is made by going down one name after the other. -/
theorem ofAddress_concat (names : List String) (name : String) :
    ofAddress (names ++ [name]) = FolderTree.childPath (ofAddress names) name := by
  rw [ofAddress, List.foldl_append]
  rfl

/-- Characters in front of the first piece stand in front of the whole text. -/
theorem intercalate_append_cons {α : Type} (sep front back : List α) (rest : List (List α)) :
    sep.intercalate ((front ++ back) :: rest) = front ++ sep.intercalate (back :: rest) := by
  cases rest with
  | nil => simp
  | cons next rest => simp [List.intercalate_cons_cons]

/-- Below a folder every name is added with a slash before it. -/
theorem toList_foldl_childPath {folder : String} (hfolder : folder ≠ "") (names : List String) :
    (names.foldl FolderTree.childPath folder).toList =
      ['/'].intercalate (folder.toList :: names.map String.toList) := by
  induction names generalizing folder with
  | nil => simp
  | cons name names ih =>
    have hpath : FolderTree.childPath folder name = folder ++ "/" ++ name := if_neg hfolder
    have hne : folder ++ "/" ++ name ≠ "" := by
      intro h
      have hlists := congrArg String.toList h
      simp at hlists
    rw [List.foldl_cons, hpath, ih hne, List.map_cons, List.intercalate_cons_cons,
      String.toList_append, intercalate_append_cons, String.toList_append]
    rfl

/-- The names of an address are separated by slashes. -/
theorem toList_ofAddress {names : List String} (hnames : ∀ name ∈ names, IsComponent name) :
    (ofAddress names).toList = ['/'].intercalate (names.map String.toList) := by
  cases names with
  | nil => rfl
  | cons name names =>
    have hfirst : FolderTree.childPath "" name = name := if_pos rfl
    rw [ofAddress, List.foldl_cons, hfirst,
      toList_foldl_childPath (hnames name List.mem_cons_self).ne_empty, List.map_cons]

/-- Two lists of pieces are joined by one more separator. -/
theorem intercalate_append {α : Type} {sep : List α} {front : List (List α)} (hfront : front ≠ [])
    (next : List α) (rest : List (List α)) :
    sep.intercalate (front ++ next :: rest) =
      sep.intercalate front ++ sep ++ sep.intercalate (next :: rest) := by
  induction front with
  | nil => exact absurd rfl hfront
  | cons first front ih =>
    cases front with
    | nil => simp [List.intercalate_cons_cons]
    | cons second front =>
      rw [List.cons_append, List.cons_append, List.intercalate_cons_cons, ← List.cons_append,
        ih (by simp), List.intercalate_cons_cons]
      simp only [List.append_assoc]

/-- Where an address goes on, its path goes on after a slash. -/
theorem toList_ofAddress_append {front rest : List String} {next : String} (hfront : front ≠ [])
    (hnames : ∀ name ∈ front ++ next :: rest, IsComponent name) :
    (ofAddress (front ++ next :: rest)).toList =
      (ofAddress front).toList ++ '/' :: (ofAddress (next :: rest)).toList := by
  have hbefore : ∀ name ∈ front, IsComponent name :=
    fun name hname => hnames name (List.mem_append_left _ hname)
  have hafter : ∀ name ∈ next :: rest, IsComponent name :=
    fun name hname => hnames name (List.mem_append_right _ hname)
  rw [toList_ofAddress hnames, toList_ofAddress hbefore, toList_ofAddress hafter, List.map_append,
    List.map_cons, intercalate_append (by simpa using hfront), List.append_assoc,
    List.singleton_append]

/-- The address of a path, as lists of characters. -/
theorem map_toList_address (path : String) :
    (address path).map String.toList = components path.toList := by
  simp [address, Function.comp_def]

/-- **The components of a path are the names that it was made of.** -/
theorem address_ofAddress {names : List String} (hnames : ∀ name ∈ names, IsComponent name) :
    address (ofAddress names) = names := by
  by_cases hne : names = []
  · subst hne
    rfl
  · have hsplit : (ofAddress names).toList.splitOn '/' = names.map String.toList := by
      rw [toList_ofAddress hnames]
      refine List.splitOn_intercalate '/' (fun piece hpiece => ?_) (by simpa using hne)
      obtain ⟨name, hname, rfl⟩ := List.mem_map.mp hpiece
      exact (hnames name hname).no_slash
    have hkept : (names.map String.toList).filter (· ≠ []) = names.map String.toList := by
      refine List.filter_eq_self.mpr fun piece hpiece => ?_
      obtain ⟨name, hname, rfl⟩ := List.mem_map.mp hpiece
      simpa using (hnames name hname).ne_empty
    rw [address, components_eq_filter, hsplit, hkept, List.map_map]
    simp [Function.comp_def]

/-- Different addresses make up different paths. -/
theorem eq_of_ofAddress_eq {names others : List String} (hnames : ∀ name ∈ names, IsComponent name)
    (hothers : ∀ name ∈ others, IsComponent name) (h : ofAddress names = ofAddress others) :
    names = others := by
  rw [← address_ofAddress hnames, h, address_ofAddress hothers]

/-- The path that is made of the components is the path without those that are empty. -/
theorem ofAddress_address (path : String) :
    ofAddress (address path) = withoutEmptyComponents path := by
  rw [← String.toList_inj, toList_ofAddress fun name => isComponent_of_mem_address,
    map_toList_address, components_eq_filter, withoutEmptyComponents, String.toList_ofList]

end ClassAtlas.Path
