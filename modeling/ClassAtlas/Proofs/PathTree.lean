import ClassAtlas.Proofs.Dependants
import ClassAtlas.Proofs.Keys
import ClassAtlas.Proofs.PathComponents
import Mathlib.Data.Finset.Card

/-!
# The folder tree represents the paths

A folder tree is grown path by path. This file says what one more path does to the tree in terms of
addresses: an address is a list of names that leads down from the root, and a path adds a node at
every address that its components begin with, and a file at the address of all of them. Since an
address is known by its path, the tree represents the set of paths that it was grown from exactly,
and searching it for a path finds the node of that path.
-/

namespace ClassAtlas

namespace FolderTree

/-! ## The nodes of a tree -/

/-- The nodes of several trees are those of each, one tree after the other. -/
theorem nodesOf_eq_flatMap (trees : List FolderTree) : nodesOf trees = trees.flatMap nodes := by
  induction trees with
  | nil => rfl
  | cons tree rest ih => rw [nodesOf, ih, List.flatMap_cons]

/-- The nodes of a tree are the tree itself and the nodes of its children. -/
theorem nodes_eq (tree : FolderTree) : tree.nodes = tree :: tree.children.flatMap nodes := by
  cases tree with
  | node name path isFile children => rw [nodes, nodesOf_eq_flatMap, FolderTree.children]

/-- A tree is a node of itself. -/
theorem self_mem_nodes (tree : FolderTree) : tree ∈ tree.nodes := by
  rw [nodes_eq]
  exact List.mem_cons_self

/-- The nodes of a child are nodes of the tree. -/
theorem mem_nodes_of_child {tree child found : FolderTree} (hchild : child ∈ tree.children)
    (hfound : found ∈ child.nodes) : found ∈ tree.nodes := by
  rw [nodes_eq]
  exact List.mem_cons_of_mem _ (List.mem_flatMap.mpr ⟨child, hchild, hfound⟩)

mutual

/-- The files of a tree are its nodes that are files. -/
theorem fileCount_eq : ∀ tree : FolderTree, tree.fileCount = tree.nodes.countP isFile
  | node name path isFile children => by
    rw [fileCount, nodes, List.countP_cons, fileCountOf_eq children, Nat.add_comm]
    rfl

/-- The files of several trees are counted by their nodes. -/
theorem fileCountOf_eq : ∀ trees : List FolderTree,
    fileCountOf trees = (nodesOf trees).countP isFile
  | [] => rfl
  | tree :: rest => by
    rw [fileCountOf, nodesOf, List.countP_append, fileCount_eq tree, fileCountOf_eq rest]

end

mutual

/-- The search for a path finds the first node that has it. -/
theorem find?_eq : ∀ (tree : FolderTree) (wanted : String),
    tree.find? wanted = tree.nodes.find? fun node => node.path = wanted
  | node name path isFile children, wanted => by
    rw [find?, nodes, List.find?_cons, findAmong?_eq children]
    by_cases h : path = wanted <;> simp [h, FolderTree.path]

/-- Among several trees the first node with the wanted path is found. -/
theorem findAmong?_eq : ∀ (trees : List FolderTree) (wanted : String),
    findAmong? trees wanted = (nodesOf trees).find? fun node => node.path = wanted
  | [], _ => rfl
  | tree :: rest, wanted => by
    rw [findAmong?, nodesOf, List.find?_append, find?_eq tree, findAmong?_eq rest]

end

/-! ## Addresses -/

/-- The child of the given name. -/
def child? (tree : FolderTree) (name : String) : Option FolderTree :=
  tree.children.find? (·.name = name)

/-- The node at an address, which is a list of names that leads down from the tree. -/
def at? : FolderTree → List String → Option FolderTree
  | tree, [] => some tree
  | tree, name :: names => (tree.child? name).bind fun child => child.at? names

/-- A tree that stands at an address has the path of the address, and so have all nodes below. The
children of each node are in ascending order of their names, which are components of paths. -/
inductive Placed : List String → FolderTree → Prop
  | node {address : List String} {name : String} {isFile : Bool} {children : List FolderTree} :
      (children.map FolderTree.name).Pairwise (· < ·) →
      (∀ child ∈ children, Path.IsComponent child.name) →
      (∀ child ∈ children, Placed (address ++ [child.name]) child) →
      Placed address (.node name (Path.ofAddress address) isFile children)

namespace Placed

variable {address : List String} {tree : FolderTree}

/-- The path of a node is that of its address. -/
theorem path_eq (h : Placed address tree) : tree.path = Path.ofAddress address := by
  cases h
  rfl

/-- The children of a node are in the order of their names, without repetition. -/
theorem ascending (h : Placed address tree) :
    (tree.children.map FolderTree.name).Pairwise (· < ·) := by
  cases h
  assumption

/-- The name of a child can stand between slashes. -/
theorem isComponent (h : Placed address tree) {child : FolderTree}
    (hchild : child ∈ tree.children) :
    Path.IsComponent child.name := by
  cases h with
  | node _ hcomponents _ => exact hcomponents child hchild

/-- The address of a child is that of its parent with its own name after it. -/
theorem child (h : Placed address tree) {child : FolderTree} (hchild : child ∈ tree.children) :
    Placed (address ++ [child.name]) child := by
  cases h with
  | node _ _ hplaced => exact hplaced child hchild

/-- A child is found by its name. -/
theorem child?_eq_some_iff (h : Placed address tree) {name : String} {child : FolderTree} :
    tree.child? name = some child ↔ child ∈ tree.children ∧ child.name = name := by
  have hnodup : (tree.children.map FolderTree.name).Nodup := NameSet.nodup_of_ascending h.ascending
  constructor
  · intro hfound
    exact ⟨List.mem_of_find?_eq_some hfound, by simpa using List.find?_some hfound⟩
  · rintro ⟨hchild, rfl⟩
    exact find?_key_of_mem FolderTree.name hnodup hchild

/-- What stands at an address below a tree that is placed is placed there. -/
theorem at? (h : Placed address tree) {way : List String} {found : FolderTree}
    (hfound : tree.at? way = some found) :
    Placed (address ++ way) found ∧ ∀ name ∈ way, Path.IsComponent name := by
  induction way generalizing address tree with
  | nil =>
    rw [FolderTree.at?, Option.some.injEq] at hfound
    subst hfound
    exact ⟨by rwa [List.append_nil], by simp⟩
  | cons name names ih =>
    obtain ⟨child, hchild, hrest⟩ := Option.bind_eq_some_iff.mp hfound
    obtain ⟨hmem, rfl⟩ := h.child?_eq_some_iff.mp hchild
    obtain ⟨hplaced, hnames⟩ := ih (h.child hmem) hrest
    refine ⟨by simpa using hplaced, fun name hname => ?_⟩
    rcases List.mem_cons.mp hname with rfl | hname
    · exact h.isComponent hmem
    · exact hnames name hname

/-- The nodes of a tree are what stands at its addresses. -/
theorem mem_nodes_iff (h : Placed address tree) {found : FolderTree} :
    found ∈ tree.nodes ↔ ∃ way, tree.at? way = some found := by
  constructor
  · intro hfound
    induction h with
    | @node address name isFile children hascending hcomponents hplaced ih =>
      have hself : Placed address (.node name (Path.ofAddress address) isFile children) :=
        .node hascending hcomponents hplaced
      rw [nodes_eq, List.mem_cons] at hfound
      rcases hfound with rfl | hfound
      · exact ⟨[], rfl⟩
      · obtain ⟨child, hchild, hfound⟩ := List.mem_flatMap.mp hfound
        obtain ⟨way, hway⟩ := ih child hchild hfound
        refine ⟨child.name :: way, ?_⟩
        rw [FolderTree.at?, hself.child?_eq_some_iff.mpr ⟨hchild, rfl⟩, Option.bind_some, hway]
  · rintro ⟨way, hway⟩
    induction way generalizing address tree with
    | nil =>
      rw [FolderTree.at?, Option.some.injEq] at hway
      rw [← hway]
      exact self_mem_nodes tree
    | cons name names ih =>
      obtain ⟨child, hchild, hrest⟩ := Option.bind_eq_some_iff.mp hway
      obtain ⟨hmem, rfl⟩ := h.child?_eq_some_iff.mp hchild
      exact mem_nodes_of_child hmem (ih (h.child hmem) hrest)

end Placed

/-- The way to a node can be gone in two parts. -/
theorem at?_append (tree : FolderTree) (front back : List String) :
    tree.at? (front ++ back) = (tree.at? front).bind fun found => found.at? back := by
  induction front generalizing tree with
  | nil => rfl
  | cons name names ih =>
    rw [List.cons_append, at?, at?]
    cases tree.child? name with
    | none => rfl
    | some child => exact ih child

/-! ## One more path -/

/-- A node without children that is no file yet. -/
def bud (parent child : String) : FolderTree :=
  node child (childPath parent child) false []

/-- What a change of a child does to an ascending list of children: the child is changed in its
place, or a new one is put there. -/
theorem exists_updateChild (parent child : String) (change : FolderTree → FolderTree)
    {children : List FolderTree} (h : (children.map name).Pairwise (· < ·)) :
    ∃ left old right, updateChild parent child change children = left ++ change old :: right ∧
      (∀ tree ∈ left, tree.name < child) ∧ (∀ tree ∈ right, child < tree.name) ∧ old.name = child ∧
      (children = left ++ old :: right ∨ children = left ++ right ∧ old = bud parent child) := by
  induction children with
  | nil => exact ⟨[], bud parent child, [], rfl, by simp, by simp, rfl, .inr ⟨rfl, rfl⟩⟩
  | cons tree rest ih =>
    obtain ⟨hfirst, hrest⟩ := List.pairwise_cons.mp h
    rw [List.forall_mem_map] at hfirst
    rw [updateChild]
    split
    · rename_i hlt
      refine ⟨[], bud parent child, tree :: rest, rfl, by simp, ?_, rfl, .inr ⟨rfl, rfl⟩⟩
      intro other hother
      rcases List.mem_cons.mp hother with rfl | hother
      · exact hlt
      · exact String.lt_trans hlt (hfirst other hother)
    · split
      · rename_i heq
        subst heq
        exact ⟨[], tree, rest, rfl, by simp, hfirst, rfl, .inl rfl⟩
      · rename_i hlt hne
        obtain ⟨left, old, right, hresult, hleft, hright, hold, hchildren⟩ := ih hrest
        refine ⟨tree :: left, old, right, by rw [hresult]; rfl, ?_, hright, hold, ?_⟩
        · intro other hother
          rcases List.mem_cons.mp hother with rfl | hother
          · exact NameSet.lt_of_not_lt_of_ne hlt hne
          · exact hleft other hother
        · rcases hchildren with rfl | ⟨rfl, rfl⟩
          · exact .inl rfl
          · exact .inr ⟨rfl, rfl⟩

section Children

variable {parent child : String} {change : FolderTree → FolderTree} {children : List FolderTree}

/-- Changing a child, or adding one, keeps the children in order. -/
theorem ascending_updateChild (hchange : ∀ tree, (change tree).name = tree.name)
    (h : (children.map name).Pairwise (· < ·)) :
    ((updateChild parent child change children).map name).Pairwise (· < ·) := by
  obtain ⟨left, old, right, hresult, hleft, hright, rfl, hchildren⟩ :=
    exists_updateChild parent child change h
  have hsublist : (left ++ right).Sublist children := by
    rcases hchildren with rfl | ⟨rfl, -⟩
    · exact (List.sublist_cons_self old right).append_left left
    · exact List.Sublist.refl _
  have hothers := h.sublist (hsublist.map name)
  rw [List.map_append, List.pairwise_append] at hothers
  obtain ⟨hallleft, hallright, hcross⟩ := hothers
  rw [hresult, List.map_append, List.map_cons, hchange, List.pairwise_append, List.pairwise_cons]
  refine ⟨hallleft, ⟨List.forall_mem_map.mpr hright, hallright⟩, ?_⟩
  intro a ha b hb
  obtain ⟨other, hother, rfl⟩ := List.mem_map.mp ha
  rcases List.mem_cons.mp hb with rfl | hb
  · exact hleft other hother
  · exact hcross _ ha b hb

/-- A child stays as it was, or is the one that is changed. -/
theorem of_mem_updateChild (h : (children.map name).Pairwise (· < ·)) {tree : FolderTree}
    (htree : tree ∈ updateChild parent child change children) :
    tree ∈ children ∨
      ∃ old, tree = change old ∧ old.name = child ∧
        (old ∈ children ∨ old = bud parent child) := by
  obtain ⟨left, old, right, hresult, -, -, hold, hchildren⟩ :=
    exists_updateChild parent child change h
  rw [hresult, List.mem_append, List.mem_cons] at htree
  rcases hchildren with rfl | ⟨rfl, hbud⟩
  · rcases htree with htree | rfl | htree
    · exact .inl (by simp [htree])
    · exact .inr ⟨old, rfl, hold, .inl (by simp)⟩
    · exact .inl (by simp [htree])
  · rcases htree with htree | rfl | htree
    · exact .inl (by simp [htree])
    · exact .inr ⟨old, rfl, hold, .inr hbud⟩
    · exact .inl (by simp [htree])

end Children

/-- A way is inserted by inserting the rest of it at the child of its first name. -/
theorem insert_cons (tree : FolderTree) (first : String) (names : List String) :
    tree.insert (first :: names) =
      node tree.name tree.path tree.isFile
        (updateChild tree.path first (insert names) tree.children) := by
  cases tree
  rfl

/-- Inserting a way does not change the name of the tree. -/
@[simp] theorem name_insert (tree : FolderTree) (names : List String) :
    (tree.insert names).name = tree.name := by
  cases tree
  cases names <;> rfl

/-- The child that a path enters first, whether it is there already or not. -/
def entered (tree : FolderTree) (first : String) : FolderTree :=
  (tree.child? first).getD (bud tree.path first)

namespace Placed

variable {address : List String} {tree : FolderTree}

/-- A new child has its place below its parent. -/
theorem bud (h : Placed address tree) (child : String) :
    Placed (address ++ [child]) (FolderTree.bud tree.path child) := by
  rw [FolderTree.bud, h.path_eq, ← Path.ofAddress_concat]
  exact .node .nil (by simp) (by simp)

/-- The child that a way leads through has its place, whether it is new or not. -/
theorem entered (h : Placed address tree) (first : String) :
    Placed (address ++ [first]) (tree.entered first) := by
  rw [FolderTree.entered]
  cases hchild : tree.child? first with
  | none => exact h.bud first
  | some child =>
    obtain ⟨hmem, rfl⟩ := h.child?_eq_some_iff.mp hchild
    exact h.child hmem

/-- One more path leaves a tree in its place. The induction is on the components of the path, which
lead down to the node that becomes a file. -/
theorem insert (h : Placed address tree) {names : List String}
    (hnames : ∀ name ∈ names, Path.IsComponent name) :
    Placed address (tree.insert names) := by
  induction names generalizing address tree with
  | nil =>
    cases h with
    | node hascending hcomponents hplaced => exact .node hascending hcomponents hplaced
  | cons first names ih =>
    obtain ⟨hfirst, hrest⟩ := List.forall_mem_cons.mp hnames
    rw [insert_cons, h.path_eq]
    refine .node (ascending_updateChild (name_insert · names) h.ascending) (fun child hchild => ?_)
      fun child hchild => ?_
    · rcases of_mem_updateChild h.ascending hchild with hchild | ⟨old, rfl, rfl, -⟩
      · exact h.isComponent hchild
      · rwa [name_insert]
    · rcases of_mem_updateChild h.ascending hchild with hchild | ⟨old, rfl, rfl, hold⟩
      · exact h.child hchild
      · -- The child that is entered was in its place before, or is new and put there.
        have hplaced : Placed (address ++ [old.name]) old := by
          rcases hold with hold | hold
          · exact h.child hold
          · rw [hold, ← h.path_eq]
            exact h.bud _
        rw [name_insert]
        exact ih hplaced hrest

/-- One more path goes on in the child that it enters, and all other children stay as they are. -/
theorem child?_insert (h : Placed address tree) (first : String) (names : List String)
    (name : String) :
    (tree.insert (first :: names)).child? name =
      if name = first then some ((tree.entered first).insert names) else tree.child? name := by
  obtain ⟨left, old, right, hresult, hleft, hright, hold, hchildren⟩ :=
    exists_updateChild tree.path first (FolderTree.insert names) h.ascending
  have hskipLeft : left.find? (fun child => child.name = first) = none :=
    List.find?_eq_none.mpr fun child hchild => by simpa using String.ne_of_lt (hleft child hchild)
  have hskipRight : right.find? (fun child => child.name = first) = none :=
    List.find?_eq_none.mpr fun child hchild => by
      simpa using (String.ne_of_lt (hright child hchild)).symm
  rw [child?, insert_cons, FolderTree.children, hresult, List.find?_append, List.find?_cons,
    name_insert, hold]
  by_cases hname : name = first
  · subst hname
    rcases hchildren with heq | ⟨heq, hbud⟩
    · simp [FolderTree.entered, child?, heq, hskipLeft, hold]
    · simp [FolderTree.entered, child?, heq, hskipLeft, hskipRight, hbud]
  · rcases hchildren with heq | ⟨heq, -⟩
    · simp [child?, heq, hold, hname, Ne.symm hname]
    · simp [child?, heq, hname, Ne.symm hname]

end Placed

/-- There is a node at the address. -/
def HasNode (tree : FolderTree) (way : List String) : Prop :=
  ∃ found, tree.at? way = some found

/-- There is a file at the address. -/
def HasFile (tree : FolderTree) (way : List String) : Prop :=
  ∃ found, tree.at? way = some found ∧ found.isFile = true

/-- The empty way leads to the tree itself. -/
theorem hasNode_nil (tree : FolderTree) : tree.HasNode [] :=
  ⟨tree, rfl⟩

/-- The empty way leads to a file if the tree is one. -/
theorem hasFile_nil {tree : FolderTree} : tree.HasFile [] ↔ tree.isFile = true := by
  simp [HasFile, at?]

/-- A new child has no children. -/
theorem at?_bud_cons (parent child name : String) (way : List String) :
    (bud parent child).at? (name :: way) = none :=
  rfl

section Insert

variable {address : List String} {tree : FolderTree}

/-- The child that a way leads through has the nodes that the tree had there, and itself. -/
theorem hasNode_entered {first : String} {way : List String} :
    (tree.entered first).HasNode way ↔ way = [] ∨ tree.HasNode (first :: way) := by
  cases way with
  | nil => exact iff_of_true (hasNode_nil _) (.inl rfl)
  | cons name way =>
    have hbelow : tree.at? (first :: name :: way) = (tree.child? first).bind fun child =>
        child.at? (name :: way) := rfl
    rw [entered, HasNode, HasNode, hbelow]
    cases tree.child? first with
    | none => simp [at?_bud_cons]
    | some child => simp

/-- The child that a way leads through has the files that the tree had there. -/
theorem hasFile_entered {first : String} {way : List String} :
    (tree.entered first).HasFile way ↔ tree.HasFile (first :: way) := by
  rw [entered, HasFile, HasFile, at?]
  cases tree.child? first with
  | some child => rfl
  | none =>
    cases way with
    | nil => simp [at?, bud, isFile]
    | cons name way => simp [at?_bud_cons]

/-- Below a node that becomes a file nothing changes. -/
theorem at?_insert_nil (tree : FolderTree) (name : String) (way : List String) :
    (tree.insert []).at? (name :: way) = tree.at? (name :: way) := by
  cases tree
  rfl

/-- Only the child of the first name is changed when a way is inserted. -/
theorem Placed.at?_insert_cons (h : Placed address tree) (first : String) (names : List String)
    (name : String) (way : List String) :
    (tree.insert (first :: names)).at? (name :: way) =
      if name = first then ((tree.entered first).insert names).at? way
      else tree.at? (name :: way) := by
  rw [FolderTree.at?, h.child?_insert]
  split <;> rfl

/-- **One more path adds a node at every address that its components begin with**, and no other. -/
theorem Placed.hasNode_insert (h : Placed address tree) (names way : List String) :
    (tree.insert names).HasNode way ↔ way <+: names ∨ tree.HasNode way := by
  induction names generalizing address tree way with
  | nil =>
    cases way with
    | nil => exact iff_of_true (hasNode_nil _) (.inl List.prefix_rfl)
    | cons name way => simp [HasNode, at?_insert_nil]
  | cons first names ih =>
    cases way with
    | nil => exact iff_of_true (hasNode_nil _) (.inl List.nil_prefix)
    | cons name way =>
      rw [HasNode, h.at?_insert_cons, List.cons_prefix_cons]
      split
      · rename_i heq
        subst heq
        -- The child that is entered is there in any case, and so is the empty way in the rest of
        -- the path.
        have hempty : way = [] → way <+: names := fun hway => hway ▸ List.nil_prefix
        rw [and_iff_right rfl, ← HasNode, ih (h.entered name) way, hasNode_entered, ← or_assoc,
          or_iff_left_of_imp hempty]
      · rename_i hne
        simp [hne, HasNode]

/-- **One more path adds a file at the address of its components**, and no other. -/
theorem Placed.hasFile_insert (h : Placed address tree) (names way : List String) :
    (tree.insert names).HasFile way ↔ way = names ∨ tree.HasFile way := by
  induction names generalizing address tree way with
  | nil =>
    cases way with
    | nil =>
      refine iff_of_true (hasFile_nil.mpr ?_) (.inl rfl)
      cases tree
      rfl
    | cons name way => simp [HasFile, at?_insert_nil]
  | cons first names ih =>
    cases way with
    | nil => simp [hasFile_nil, insert_cons, isFile]
    | cons name way =>
      rw [HasFile, h.at?_insert_cons, List.cons.injEq]
      split
      · rename_i heq
        subst heq
        rw [and_iff_right rfl, ← HasFile, ih (h.entered name) way, hasFile_entered]
      · rename_i hne
        simp [hne, HasFile]

end Insert

/-! ## The paths of nodes -/

section Paths

variable {address : List String} {tree : FolderTree}

/-- A node that stands below a tree has the path of its address. -/
theorem Placed.path_of_mem (h : Placed address tree) {found : FolderTree}
    (hfound : found ∈ tree.nodes) :
    ∃ way, found.path = Path.ofAddress (address ++ way) ∧ ∀ name ∈ way, Path.IsComponent name := by
  obtain ⟨way, hway⟩ := h.mem_nodes_iff.mp hfound
  obtain ⟨hplaced, hnames⟩ := h.at? hway
  exact ⟨way, hplaced.path_eq, hnames⟩

/-- The address of a node below a child goes on with the name of the child. -/
theorem Placed.path_of_mem_child (h : Placed address tree) {child found : FolderTree}
    (hchild : child ∈ tree.children) (hfound : found ∈ child.nodes) :
    ∃ way, found.path = Path.ofAddress (address ++ child.name :: way) ∧
      ∀ name ∈ child.name :: way, Path.IsComponent name := by
  obtain ⟨way, hpath, hnames⟩ := (h.child hchild).path_of_mem hfound
  exact ⟨way, by simpa using hpath, List.forall_mem_cons.mpr ⟨h.isComponent hchild, hnames⟩⟩

/-- **No two nodes have the same path.** A node does not have the path of one below it, and the
nodes below two children differ in the name of the child. -/
theorem Placed.nodup_paths (h : Placed address tree)
    (haddress : ∀ name ∈ address, Path.IsComponent name) :
    (tree.nodes.map path).Nodup := by
  induction h with
  | @node address name isFile children hascending hcomponents hplaced ih =>
    have hself : Placed address (.node name (Path.ofAddress address) isFile children) :=
      .node hascending hcomponents hplaced
    have hjoin : ∀ way : List String, (∀ name ∈ way, Path.IsComponent name) →
        ∀ name ∈ address ++ way, Path.IsComponent name :=
      fun way hway name hname => (List.mem_append.mp hname).elim (haddress name) (hway name)
    rw [nodes_eq, List.map_cons, List.nodup_cons, List.map_flatMap, List.nodup_flatMap]
    refine ⟨?_, fun child hchild => ?_, ?_⟩
    · intro hmem
      obtain ⟨child, hchild, hmem⟩ := List.mem_flatMap.mp hmem
      obtain ⟨found, hfound, hsame⟩ := List.mem_map.mp hmem
      obtain ⟨way, hpath, hway⟩ := hself.path_of_mem_child hchild hfound
      have heq := Path.eq_of_ofAddress_eq haddress (hjoin _ hway) (hsame.symm.trans hpath)
      simp at heq
    · refine ih child hchild (hjoin [child.name] ?_)
      simpa using hcomponents child hchild
    · refine (List.pairwise_map.mp hascending).imp_of_mem ?_
      intro child other hchild hother hlt path hmem hmem'
      obtain ⟨found, hfound, rfl⟩ := List.mem_map.mp hmem
      obtain ⟨found', hfound', hsame⟩ := List.mem_map.mp hmem'
      obtain ⟨way, hpath, hway⟩ := hself.path_of_mem_child hchild hfound
      obtain ⟨way', hpath', hway'⟩ := hself.path_of_mem_child hother hfound'
      have heq :=
        Path.eq_of_ofAddress_eq (hjoin _ hway) (hjoin _ hway') (by rw [← hpath, ← hpath', hsame])
      have hname : child.name = other.name := (List.cons.inj (List.append_cancel_left heq)).1
      exact String.lt_irrefl _ (hname ▸ hlt)

end Paths

/-! ## The tree of given paths -/

/-- The root has its place. -/
theorem placed_root : Placed [] root :=
  .node .nil (by simp) (by simp)

/-- The root alone holds no file. -/
theorem not_hasFile_root (way : List String) : ¬ root.HasFile way := by
  rintro ⟨found, hfound, hfile⟩
  cases way with
  | nil =>
    cases hfound
    cases hfile
  | cons name way => cases hfound

variable {paths : List String}

/-- Inserting a path keeps all nodes in their places. -/
theorem Placed.insert_address {tree : FolderTree} (h : Placed [] tree) (path : String) :
    Placed [] (tree.insert (Path.address path)) :=
  h.insert fun _ => Path.isComponent_of_mem_address

/-- In the tree of any paths all nodes are in their places. -/
theorem placed_ofPaths (paths : List String) : Placed [] (ofPaths paths) := by
  have hfold : ∀ (paths : List String) (tree : FolderTree), Placed [] tree →
      Placed [] (paths.foldl (fun tree path => tree.insert (Path.address path)) tree) := by
    intro paths
    induction paths with
    | nil => exact fun _ h => h
    | cons path rest ih => exact fun tree h => ih _ (h.insert_address path)
  exact hfold paths root placed_root

/-- The files of the tree are at the addresses of the given paths. -/
theorem hasFile_ofPaths {way : List String} :
    (ofPaths paths).HasFile way ↔ ∃ path ∈ paths, way = Path.address path := by
  have hfold :=
    Corpus.foldl_holds_iff
      (fun (tree : FolderTree) path => tree.insert (Path.address path)) (Placed [])
    (HasFile · way) (fun _ path h => h.insert_address path)
    (fun _ path h => (h.hasFile_insert (Path.address path) way).trans or_comm) placed_root paths
  exact hfold.trans (or_iff_right (not_hasFile_root way))

/-- The nodes of the tree, but for its root, are at the addresses that the given paths begin
with. -/
theorem hasNode_ofPaths {way : List String} (hway : way ≠ []) :
    (ofPaths paths).HasNode way ↔ ∃ path ∈ paths, way <+: Path.address path := by
  have hroot : ¬ root.HasNode way := by
    rintro ⟨found, hfound⟩
    cases way with
    | nil => exact hway rfl
    | cons name way => cases hfound
  have hfold :=
    Corpus.foldl_holds_iff
      (fun (tree : FolderTree) path => tree.insert (Path.address path)) (Placed [])
    (HasNode · way) (fun _ path h => h.insert_address path)
    (fun _ path h => (h.hasNode_insert (Path.address path) way).trans or_comm) placed_root paths
  exact hfold.trans (or_iff_right hroot)

/-- The tree represents the given paths. Its nodes are known by their paths, which are made up of
the names on the way to them, and siblings are in ascending order. Its files are the given paths
without empty components, each once, and the search for a path finds the node that has it, if there
is one. -/
structure Represents (tree : FolderTree) (paths : List String) : Prop where
  paths_differ : (tree.nodes.map path).Nodup
  ascending : ∀ parent ∈ tree.nodes, (parent.children.map name).Pairwise (· < ·)
  has_parent : ∀ found ∈ tree.nodes, found ≠ tree → ∃ parent ∈ tree.nodes, found ∈ parent.children
  path_at_top : ∀ child ∈ tree.children, child.path = child.name
  path_below : ∀ parent ∈ tree.nodes, parent ≠ tree → ∀ child ∈ parent.children,
    child.path = parent.path ++ "/" ++ child.name
  files : ∀ path, (∃ found ∈ tree.nodes, found.isFile = true ∧ found.path = path) ↔
    ∃ given ∈ paths, Path.withoutEmptyComponents given = path
  fileCount : tree.fileCount = (paths.map Path.withoutEmptyComponents).toFinset.card
  find : ∀ path found, tree.find? path = some found ↔ found ∈ tree.nodes ∧ found.path = path

section Placement

variable {tree found child : FolderTree}

/-- A node other than the tree itself stands below it, and has a path that is not empty. -/
theorem Placed.exists_way (h : Placed [] tree) (hfound : found ∈ tree.nodes) (hne : found ≠ tree) :
    ∃ way, way ≠ [] ∧ tree.at? way = some found ∧ found.path ≠ "" := by
  obtain ⟨way, hway⟩ := h.mem_nodes_iff.mp hfound
  have hbelow : way ≠ [] := by
    rintro rfl
    exact hne (Option.some.inj hway).symm
  obtain ⟨hplaced, hnames⟩ := h.at? hway
  refine ⟨way, hbelow, hway, fun hempty => hbelow ?_⟩
  exact Path.eq_of_ofAddress_eq hnames (by simp) (hplaced.path_eq.symm.trans hempty)

/-- Every node but the tree itself is a child of another node. -/
theorem Placed.exists_parent (h : Placed [] tree) (hfound : found ∈ tree.nodes)
    (hne : found ≠ tree) :
    ∃ parent ∈ tree.nodes, found ∈ parent.children := by
  obtain ⟨way, hbelow, hway, -⟩ := h.exists_way hfound hne
  obtain ⟨front, name, rfl⟩ := (List.eq_nil_or_concat way).resolve_left hbelow
  rw [List.concat_eq_append, at?_append] at hway
  obtain ⟨parent, hparent, hlast⟩ := Option.bind_eq_some_iff.mp hway
  obtain ⟨child, hchild, heq⟩ := Option.bind_eq_some_iff.mp hlast
  cases heq
  exact ⟨parent, h.mem_nodes_iff.mpr ⟨front, hparent⟩,
    ((h.at? hparent).1.child?_eq_some_iff.mp hchild).1⟩

/-- The path of a child is that of its parent with one more name. -/
theorem Placed.path_child {address : List String} (h : Placed address tree)
    (hchild : child ∈ tree.children) :
    child.path = childPath tree.path child.name := by
  rw [(h.child hchild).path_eq, Path.ofAddress_concat, h.path_eq]

/-- Below the top, the path of a child goes on with a slash after that of its parent. -/
theorem Placed.path_below (h : Placed [] tree) (hfound : found ∈ tree.nodes) (hne : found ≠ tree)
    (hchild : child ∈ found.children) : child.path = found.path ++ "/" ++ child.name := by
  obtain ⟨way, -, hway, hpath⟩ := h.exists_way hfound hne
  rw [(h.at? hway).1.path_child hchild, childPath, if_neg hpath]

/-- At the top, the path of a child is its name. -/
theorem Placed.path_at_top (h : Placed [] tree) (hchild : child ∈ tree.children) :
    child.path = child.name := by
  rw [h.path_child hchild, h.path_eq]
  rfl

/-- The search finds a node by its path. -/
theorem Placed.find?_eq_some_iff (h : Placed [] tree) {path : String} :
    tree.find? path = some found ↔ found ∈ tree.nodes ∧ found.path = path := by
  rw [find?_eq]
  constructor
  · intro hfind
    exact ⟨List.mem_of_find?_eq_some hfind, by simpa using List.find?_some hfind⟩
  · rintro ⟨hfound, rfl⟩
    exact find?_key_of_mem FolderTree.path (h.nodup_paths (by simp)) hfound

end Placement

/-- The files of the tree have the given paths, without empty components. -/
theorem exists_file_ofPaths {path : String} :
    (∃ found ∈ (ofPaths paths).nodes, found.isFile = true ∧ found.path = path) ↔
      ∃ given ∈ paths, Path.withoutEmptyComponents given = path := by
  have h := placed_ofPaths paths
  constructor
  · rintro ⟨found, hfound, hfile, rfl⟩
    obtain ⟨way, hway⟩ := h.mem_nodes_iff.mp hfound
    obtain ⟨given, hgiven, rfl⟩ := hasFile_ofPaths.mp ⟨found, hway, hfile⟩
    exact ⟨given, hgiven, by rw [(h.at? hway).1.path_eq, List.nil_append, Path.ofAddress_address]⟩
  · rintro ⟨given, hgiven, rfl⟩
    obtain ⟨found, hway, hfile⟩ := hasFile_ofPaths.mpr ⟨given, hgiven, rfl⟩
    refine ⟨found, h.mem_nodes_iff.mpr ⟨_, hway⟩, hfile, ?_⟩
    rw [(h.at? hway).1.path_eq, List.nil_append, Path.ofAddress_address]

/-- There are as many files as there are different paths. -/
theorem fileCount_ofPaths (paths : List String) :
    (ofPaths paths).fileCount = (paths.map Path.withoutEmptyComponents).toFinset.card := by
  have hnodup : (((ofPaths paths).nodes.filter isFile).map path).Nodup :=
    ((placed_ofPaths paths).nodup_paths (by simp)).sublist (List.filter_sublist.map path)
  have hsame : (((ofPaths paths).nodes.filter isFile).map path).toFinset =
      (paths.map Path.withoutEmptyComponents).toFinset := by
    ext path
    simp only [List.mem_toFinset, List.mem_map, List.mem_filter, and_assoc]
    exact exists_file_ofPaths
  rw [← hsame, List.toFinset_card_of_nodup hnodup, List.length_map, fileCount_eq,
    List.countP_eq_length_filter]

end FolderTree

/-- **The folder tree represents the paths of the corpus exactly**, also where some of them begin
with others, are repeated, have empty components or none at all. -/
theorem Corpus.folderTree_represents_paths (corpus : Corpus) :
    corpus.folderTree.Represents (corpus.entities.map (·.path)) := by
  have hplaced : FolderTree.Placed [] corpus.folderTree := FolderTree.placed_ofPaths _
  constructor
  case paths_differ => exact hplaced.nodup_paths (by simp)
  case ascending =>
    intro parent hparent
    obtain ⟨way, hway⟩ := hplaced.mem_nodes_iff.mp hparent
    exact (hplaced.at? hway).1.ascending
  case has_parent => exact fun found => hplaced.exists_parent
  case path_at_top => exact fun child => hplaced.path_at_top
  case path_below => exact fun parent hparent hne child => hplaced.path_below hparent hne
  case files => exact fun path => FolderTree.exists_file_ofPaths
  case fileCount => exact FolderTree.fileCount_ofPaths _
  case find => exact fun path found => hplaced.find?_eq_some_iff

-- The empty path makes a file of the root, and a path that others go through makes a file of a
-- folder.
example :
    ((FolderTree.ofPaths ["a/b", "/a//b", "", "a"]).nodes.map
        fun node => (node.path, node.isFile)) =
      [("", true), ("a", true), ("a/b", true)] := by
  decide +kernel

end ClassAtlas
