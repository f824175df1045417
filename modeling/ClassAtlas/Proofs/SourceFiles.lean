import ClassAtlas.Proofs.ByteOrder
import ClassAtlas.Proofs.PathComponents
import ClassAtlas.SourceTree.Walk
import Mathlib.Data.List.Nodup

/-!
# The source files of a tree

A walk goes down a tree one directory at a time and leaves out what is hidden, what is to be
skipped, and what lies too deep. Where no file with rules is found, this comes to a property of each
path by itself: its components lead to a file, there are few enough of them, none is hidden, those
of directories are not skipped, and the last one has the right extension. The list of the files has
each of these paths once, in the order of their bytes.
-/

namespace ClassAtlas.SourceTree

/-! ## Extensions -/

/-- The name ends in a dot and the extension. The dot is the last one and does not come first. -/
def EndsIn (extension name : String) : Prop :=
  '.' ∉ extension.toList ∧ ∃ stem, stem ≠ [] ∧ name.toList = stem ++ '.' :: extension.toList

/-- What follows the last dot is the extension, if something stands before the dot. -/
theorem extension?_append {stem extension : List Char} (hstem : stem ≠ [])
    (hextension : '.' ∉ extension) :
    Path.extension? (stem ++ '.' :: extension) = some extension := by
  have hrest : ∀ c ∈ extension.reverse, decide (c ≠ '.') = true := by
    intro c hc
    have hne : c ≠ '.' := fun h => hextension (List.mem_reverse.mp (h ▸ hc))
    exact decide_eq_true hne
  have hreverse :
      (stem ++ '.' :: extension).reverse = extension.reverse ++ '.' :: stem.reverse := by simp
  have hdrop : ((stem ++ '.' :: extension).reverse.dropWhile (· ≠ '.')).drop 1 = stem.reverse := by
    rw [hreverse, List.dropWhile_append_of_pos hrest, List.dropWhile_cons_of_neg (by simp),
      List.drop_one, List.tail_cons]
  have htake : (stem ++ '.' :: extension).reverse.takeWhile (· ≠ '.') = extension.reverse := by
    rw [hreverse, List.takeWhile_append_of_pos hrest, List.takeWhile_cons_of_neg (by simp),
      List.append_nil]
  rw [Path.extension?, hdrop, htake, List.reverse_reverse]
  split
  · next h => exact absurd (List.reverse_eq_nil_iff.mp h) hstem
  · rfl

/-- A name with an extension is a stem, a dot and the extension, which has no dot. -/
theorem exists_stem_of_extension? {name extension : List Char}
    (h : Path.extension? name = some extension) :
    '.' ∉ extension ∧ ∃ stem, stem ≠ [] ∧ name = stem ++ '.' :: extension := by
  have hname := List.takeWhile_append_dropWhile (p := fun c => decide (c ≠ '.')) (l := name.reverse)
  have hfirst := List.head?_dropWhile_not (fun c => decide (c ≠ '.')) name.reverse
  unfold Path.extension? at h
  cases hback : name.reverse.dropWhile (fun c => decide (c ≠ '.')) with
  | nil =>
    rw [hback] at h
    cases h
  | cons c stem =>
    rw [hback] at h hname hfirst
    have hdot : c = '.' := by simpa using hfirst
    subst hdot
    split at h
    · cases h
    · next hstem =>
      obtain rfl := Option.some.inj h
      refine ⟨fun hmem => ?_, stem.reverse, by simpa using hstem, ?_⟩
      · have hdot := List.all_eq_true.mp List.all_takeWhile _ (List.mem_reverse.mp hmem)
        simp at hdot
      · rw [← List.reverse_inj, List.reverse_append, List.reverse_cons, List.reverse_reverse,
          List.reverse_reverse, List.append_assoc, List.singleton_append, hname]

/-- The test for an extension says whether the name ends in it. -/
theorem hasExtension_iff {extension name : String} :
    hasExtension extension name = true ↔ EndsIn extension name := by
  rw [hasExtension, decide_eq_true_eq]
  constructor
  · exact exists_stem_of_extension?
  · rintro ⟨hextension, stem, hstem, hname⟩
    rw [hname, extension?_append hstem hextension]

/-! ## Directories without rules -/

/-- Where a directory may have files with rules on what to leave out. -/
def ruleFiles : List (List String) :=
  [[".ignore"], [".gitignore"], [".git", "info", "exclude"]]

/-- The directory has no file with rules, neither below it nor in the directory that a work tree
shares. -/
structure HasNoRules (tree : SourceTree) (entries : List (String × SourceTree)) : Prop where
  below : ∀ way ∈ ruleFiles, ∀ content, descend? way (directory entries) ≠ some (file content)
  shared : ∀ content folder rules, child? ".git" entries = some (file content) →
    sharedDirectory? tree content = some folder →
    tree.readBytes (join folder "info/exclude") ≠ .ok rules

/-- What is found from a directory stands below its entries. -/
theorem Folder.find?_eq_some {folder : Folder} {names : List String} {found : SourceTree}
    (h : folder.find? names = some found) :
    descend? names (directory folder.entries) = some found := by
  unfold find? at h
  split at h
  · cases h
  · exact h

/-- There are no rules where there is no file of them. -/
theorem Folder.rules_eq_nil {folder : Folder} {names : List String}
    (h : ∀ content, descend? names (directory folder.entries) ≠ some (file content)) :
    folder.rules names = [] := by
  unfold rules
  split
  · next content hfind => exact absurd (find?_eq_some hfind) (h content)
  · rfl

/-- A directory without rules excludes nothing. -/
theorem Folder.excluded_eq_nil {tree : SourceTree} {folder : Folder}
    (h : HasNoRules tree folder.entries) :
    folder.excluded tree = [] := by
  unfold excluded
  split
  · next content hfind =>
    have hchild : child? ".git" folder.entries = some (file content) := by
      simpa [descend?] using find?_eq_some hfind
    split
    · next shared hshared =>
      cases hread : tree.readBytes (join shared "info/exclude") with
      | error fault => rfl
      | ok rules => exact absurd hread (h.shared content shared rules hchild hshared)
    · rfl
  · exact rules_eq_nil (h.below _ (by simp [ruleFiles]))

/-- The level says nothing about any entry. -/
structure Level.IsSilent (level : Level) : Prop where
  own : level.own = []
  versioned : level.versioned = []
  excluded : level.excluded = []

/-- A directory without any file of rules makes a level that says nothing. -/
theorem Level.isSilent_ofEntries {tree : SourceTree} {entries : List (String × SourceTree)}
    (h : HasNoRules tree entries) (standpoint : Standpoint) :
    (ofEntries tree standpoint entries).IsSilent where
  own := Folder.rules_eq_nil (h.below _ (by simp [ruleFiles]))
  versioned := Folder.rules_eq_nil (h.below _ (by simp [ruleFiles]))
  excluded := Folder.excluded_eq_nil h

/-- A level that says nothing says nothing further down either. -/
theorem Level.IsSilent.below {level : Level} (h : level.IsSilent) (name : String) :
    (level.below name).IsSilent := by
  unfold Level.below
  split
  · exact ⟨h.own, h.versioned, h.excluded⟩
  · exact h

/-- If no directory around has rules, none of their levels says anything. -/
theorem isSilent_of_mem_levelsAround {tree : SourceTree} {way : List String}
    {around : List (String × List (String × SourceTree))}
    (haround : ∀ folder ∈ around, HasNoRules tree folder.2) :
    ∀ level ∈ levelsAround tree way around, level.IsSilent := by
  induction around generalizing way with
  | nil => simp [levelsAround]
  | cons folder around ih =>
    intro level hlevel
    rcases List.mem_cons.mp hlevel with rfl | hlevel
    · exact Level.isSilent_ofEntries (haround folder List.mem_cons_self) _
    · exact ih (fun folder hfolder => haround folder (List.mem_cons_of_mem _ hfolder)) level hlevel

/-- The levels inside a repository are some of the levels. -/
theorem mem_of_mem_insideRepository {levels : List Level} {level : Level}
    (h : level ∈ insideRepository levels) :
    level ∈ levels := by
  induction levels with
  | nil => exact h
  | cons first levels ih =>
    unfold insideRepository at h
    split at h
    · rw [List.mem_singleton.mp h]
      exact List.mem_cons_self
    · rcases List.mem_cons.mp h with rfl | h
      · exact List.mem_cons_self
      · exact List.mem_cons_of_mem _ (ih h)

/-- Where no level says anything, an entry is seen unless it is hidden. -/
theorem isVisible_eq {levels : List Level} (hlevels : ∀ level ∈ levels, level.IsSilent)
    (entry : Entry) (isDirectory : Bool) :
    isVisible levels entry isDirectory = !isHidden entry.name := by
  have hask (rules : Level → List Rule) (asked : List Level)
      (hrules : ∀ level ∈ asked, rules level = []) :
      (asked.findSome? fun level => verdict? (rules level) (level.pathOf entry) isDirectory) =
        none := by
    refine List.findSome?_eq_none_iff.mpr fun level hlevel => ?_
    rw [hrules level hlevel]
    rfl
  have hrepository : ∀ level ∈ if levels.any (·.isRepository) then insideRepository levels else [],
      level.IsSilent := by
    intro level hlevel
    split at hlevel
    · exact hlevels level (mem_of_mem_insideRepository hlevel)
    · cases hlevel
  have hjudge : judge? levels entry isDirectory = none := by
    simp only [judge?]
    rw [hask _ _ fun level h => (hlevels level h).own,
      hask _ _ fun level h => (hrepository level h).versioned,
      hask _ _ fun level h => (hrepository level h).excluded]
    rfl
  rw [isVisible, hjudge]

/-! ## Plain directories and source paths -/

/-- If names tell the entries apart, an entry is found by its name. -/
theorem child?_eq_some_iff {entries : List (String × SourceTree)}
    (hdistinct : (entries.map Prod.fst).Nodup) {name : String} {tree : SourceTree} :
    child? name entries = some tree ↔ (name, tree) ∈ entries := by
  induction entries with
  | nil => simp [child?]
  | cons entry entries ih =>
    obtain ⟨other, found⟩ := entry
    obtain ⟨hother, hdistinct⟩ := List.nodup_cons.mp hdistinct
    rw [child?, List.mem_cons, Prod.mk.injEq]
    split
    · next heq =>
      subst heq
      have hrest : (other, tree) ∉ entries := fun h => hother (List.mem_map.mpr ⟨_, h, rfl⟩)
      simp [hrest, eq_comm]
    · next hne => simp [ih hdistinct, Ne.symm hne]

/-- A directory as the system has it: its entries have different names without slashes, its path is
not too long to read it, and it has no file with rules. -/
structure IsPlain (tree : SourceTree) (path : String)
    (entries : List (String × SourceTree)) : Prop where
  distinct : (entries.map Prod.fst).Nodup
  isComponent : ∀ entry ∈ entries, Path.IsComponent entry.1
  readable : path.utf8ByteSize ≤ pathLimit
  noRules : HasNoRules tree entries

/-- The directory and all directories below it are plain. -/
def IsPlainBelow (tree : SourceTree) (path : String)
    (entries : List (String × SourceTree)) : Prop :=
  ∀ names inner, descend? names (directory entries) = some (directory inner) →
    IsPlain tree (names.foldl join path) inner

/-- What a path is like whose components lead from a directory to one of its source files, at most
`depth` levels down. -/
structure IsSourcePath (settings : Settings) (depth : Nat) (entries : List (String × SourceTree))
    (names : List String) : Prop where
  isFile : ∃ content, descend? names (directory entries) = some (file content)
  length_le : names.length ≤ depth
  notHidden : ∀ name ∈ names, name.toList.head? ≠ some '.'
  notSkipped : ∀ name ∈ names.dropLast, name ∉ settings.skippedDirectories
  endsIn : ∃ name ∈ names.getLast?, EndsIn settings.bareExtension name

/-! ## The walk -/

section Walk

variable {walk : Walk} {levels : List Level} {depth : Nat} {path : String}
    {entries : List (String × SourceTree)}

/-- A way down goes through the child of its first name. -/
theorem descend?_cons {name : String} {rest : List String} {child : SourceTree}
    (hchild : child? name entries = some child) :
    descend? (name :: rest) (directory entries) = descend? rest child := by
  rw [descend?, hchild, Option.bind_some]

/-- A directory that is plain all the way down is plain itself. -/
theorem IsPlainBelow.here {tree : SourceTree} (h : IsPlainBelow tree path entries) :
    IsPlain tree path entries :=
  h [] entries rfl

/-- A directory in one that is plain all the way down is so, too. -/
theorem IsPlainBelow.child {tree : SourceTree} (h : IsPlainBelow tree path entries) {name : String}
    {inner : List (String × SourceTree)} (hchild : child? name entries = some (directory inner)) :
    IsPlainBelow tree (join path name) inner := by
  intro names deeper hdeeper
  exact h (name :: names) deeper (by rwa [descend?_cons hchild])

/-- A plain directory is so all the way down if the directories in it are. -/
theorem IsPlain.isPlainBelow {tree : SourceTree} (h : IsPlain tree path entries)
    (hbelow : ∀ name inner, child? name entries = some (directory inner) →
      IsPlainBelow tree (join path name) inner) :
    IsPlainBelow tree path entries := by
  rintro (_ | ⟨name, names⟩) inner hinner
  · cases hinner
    exact h
  · rw [descend?, Option.bind_eq_some_iff] at hinner
    obtain ⟨child, hchild, hinner⟩ := hinner
    cases child with
    | directory middle => exact hbelow name middle hchild names inner hinner
    | file content => cases names <;> cases hinner

/-- The files in a directory are those at each of its entries, in their order. -/
theorem filesIn_eq_flatMap (walk : Walk) (levels : List Level) (depth : Nat) (path : String)
    (entries : List (String × SourceTree)) :
    filesIn walk levels depth path entries =
      entries.flatMap fun entry => filesAt walk levels depth ⟨path, entry.1⟩ entry.2 := by
  induction entries with
  | nil => simp [filesIn]
  | cons entry entries ih => rw [filesIn, List.flatMap_cons, ih]

/-- The levels that a walk knows below an entry. -/
def levelsBelow (walk : Walk) (levels : List Level) (entry : Entry)
    (inner : List (String × SourceTree)) :
    List Level :=
  Level.ofEntries walk.tree (.inside entry.path) inner :: levels.map (·.below entry.name)

/-- A directory without rules adds no level that says anything. -/
theorem isSilent_of_mem_levelsBelow {entry : Entry} {inner : List (String × SourceTree)}
    (hlevels : ∀ level ∈ levels, level.IsSilent) (hinner : HasNoRules walk.tree inner) :
    ∀ level ∈ levelsBelow walk levels entry inner, level.IsSilent := by
  intro level hlevel
  rcases List.mem_cons.mp hlevel with rfl | hlevel
  · exact Level.isSilent_ofEntries hinner _
  · obtain ⟨above, habove, rfl⟩ := List.mem_map.mp hlevel
    exact (hlevels above habove).below entry.name

/-- A name is hidden exactly if it starts with a dot. -/
theorem isHidden_eq_false_iff {name : String} :
    isHidden name = false ↔ name.toList.head? ≠ some '.' := by
  rw [isHidden, decide_eq_false_iff_not]

/-- What a walk finds at a file. -/
theorem cons_mem_filesAt_file_iff {name : String} {content : ByteArray} {rest : List String}
    (hlevels : ∀ level ∈ levels, level.IsSilent) :
    name :: rest ∈ filesAt walk levels (depth + 1) ⟨path, name⟩ (file content) ↔
      name.toList.head? ≠ some '.' ∧ EndsIn walk.settings.bareExtension name ∧ rest = [] := by
  rw [filesAt, isVisible_eq hlevels, List.mem_ite_nil_right, List.mem_singleton, List.cons.injEq]
  simp only [Bool.and_eq_true, decide_eq_true_eq, Bool.not_eq_true', isHidden_eq_false_iff,
    hasExtension_iff, Nat.succ_pos, true_and, and_assoc]

/-- What a walk finds at a directory. -/
theorem cons_mem_filesAt_directory_iff {name : String} {inner : List (String × SourceTree)}
    {rest : List String} (hlevels : ∀ level ∈ levels, level.IsSilent)
    (hreadable : (join path name).utf8ByteSize ≤ pathLimit) :
    name :: rest ∈ filesAt walk levels (depth + 1) ⟨path, name⟩ (directory inner) ↔
      name.toList.head? ≠ some '.' ∧ name ∉ walk.settings.skippedDirectories ∧
        rest ∈ filesIn walk (levelsBelow walk levels ⟨path, name⟩ inner) depth
          (join path name) inner := by
  rw [filesAt, isVisible_eq hlevels, List.mem_ite_nil_right,
    List.mem_map_of_injective List.cons_injective]
  simp only [Bool.and_eq_true, decide_eq_true_eq, Bool.not_eq_true', isSkippedName,
    Bool.or_eq_false_iff, isHidden_eq_false_iff, decide_eq_false_iff_not, Nat.succ_pos, Entry.path,
    hreadable, true_and, and_true, and_assoc, and_self_left]
  rfl

/-- At depth zero no file is found. -/
theorem filesIn_zero : filesIn walk levels 0 path entries = [] := by
  rw [filesIn_eq_flatMap, List.flatMap_eq_nil_iff]
  rintro ⟨name, tree⟩ -
  cases tree <;> simp [filesAt]

/-- The empty way leads to no source file. -/
theorem not_isSourcePath_nil {settings : Settings} : ¬ IsSourcePath settings depth entries [] := by
  rintro ⟨-, -, -, -, name, hname, -⟩
  cases hname

/-- A path that leads through a file ends there. -/
theorem isSourcePath_cons_file_iff {settings : Settings} {name : String} {rest : List String}
    {content : ByteArray} (hchild : child? name entries = some (file content)) :
    IsSourcePath settings (depth + 1) entries (name :: rest) ↔
      name.toList.head? ≠ some '.' ∧ EndsIn settings.bareExtension name ∧ rest = [] := by
  constructor
  · rintro ⟨⟨other, hfile⟩, -, hhidden, -, last, hlast, hends⟩
    rw [descend?_cons hchild] at hfile
    cases rest with
    | nil =>
      obtain rfl := Option.some.inj hlast
      exact ⟨hhidden name List.mem_cons_self, hends, rfl⟩
    | cons next rest => cases hfile
  · rintro ⟨hhidden, hends, rfl⟩
    exact ⟨⟨content, descend?_cons hchild⟩, by simp, by simpa using hhidden, by simp,
      name, rfl, hends⟩

/-- A path that leads through a directory is one of a source file if the rest of it is, seen from
there. -/
theorem isSourcePath_cons_directory_iff {settings : Settings} {name : String} {rest : List String}
    {inner : List (String × SourceTree)} (hchild : child? name entries = some (directory inner)) :
    IsSourcePath settings (depth + 1) entries (name :: rest) ↔
      name.toList.head? ≠ some '.' ∧ name ∉ settings.skippedDirectories ∧
      IsSourcePath settings depth inner rest := by
  cases rest with
  | nil =>
    -- The path ends at the directory, so it is not one of a file, and nothing remains of it.
    constructor
    · rintro ⟨⟨content, hfile⟩, -⟩
      rw [descend?_cons hchild] at hfile
      cases hfile
    · rintro ⟨-, -, hnil⟩
      exact absurd hnil not_isSourcePath_nil
  | cons next rest =>
    constructor
    · rintro ⟨⟨content, hfile⟩, hlength, hhidden, hskipped, hends⟩
      rw [descend?_cons hchild] at hfile
      rw [List.dropLast_cons_cons, List.forall_mem_cons] at hskipped
      rw [List.forall_mem_cons] at hhidden
      exact ⟨hhidden.1, hskipped.1, ⟨content, hfile⟩, Nat.le_of_succ_le_succ hlength, hhidden.2,
        hskipped.2, hends⟩
    · rintro ⟨hhidden, hskipped, ⟨content, hfile⟩, hlength, hhiddens, hskips, hends⟩
      refine ⟨⟨content, by rwa [descend?_cons hchild]⟩, Nat.succ_le_succ hlength, ?_, ?_, hends⟩
      · exact List.forall_mem_cons.mpr ⟨hhidden, hhiddens⟩
      · rw [List.dropLast_cons_cons]
        exact List.forall_mem_cons.mpr ⟨hskipped, hskips⟩

/-- What a walk finds at an entry has the name of the entry first. -/
theorem exists_rest_of_mem_filesAt {entry : Entry} {tree : SourceTree} {names : List String}
    (h : names ∈ filesAt walk levels depth entry tree) : ∃ rest, names = entry.name :: rest := by
  cases tree with
  | file content =>
    rw [filesAt, List.mem_ite_nil_right, List.mem_singleton] at h
    exact ⟨[], h.2⟩
  | directory inner =>
    rw [filesAt, List.mem_ite_nil_right, List.mem_map] at h
    obtain ⟨-, rest, -, rfl⟩ := h
    exact ⟨rest, rfl⟩

/-- A path is found at the entry that its first component names. -/
theorem cons_mem_filesIn_iff (hdistinct : (entries.map Prod.fst).Nodup) {name : String}
    {rest : List String} :
    name :: rest ∈ filesIn walk levels depth path entries ↔
      ∃ tree, child? name entries = some tree ∧
        name :: rest ∈ filesAt walk levels depth ⟨path, name⟩ tree := by
  rw [filesIn_eq_flatMap, List.mem_flatMap]
  constructor
  · rintro ⟨⟨other, tree⟩, hentry, hmem⟩
    obtain ⟨_, hcons⟩ := exists_rest_of_mem_filesAt hmem
    obtain ⟨rfl, rfl⟩ := List.cons.inj hcons
    exact ⟨tree, (child?_eq_some_iff hdistinct).mpr hentry, hmem⟩
  · rintro ⟨tree, hchild, hmem⟩
    exact ⟨(name, tree), (child?_eq_some_iff hdistinct).mp hchild, hmem⟩

/-- **A walk finds the source files.** One step of the walk goes with one component of a path, and
each takes one level off the depth, which the induction is on. -/
theorem mem_filesIn_iff (hlevels : ∀ level ∈ levels, level.IsSilent)
    (hplain : IsPlainBelow walk.tree path entries) {names : List String} :
    names ∈ filesIn walk levels depth path entries ↔
      IsSourcePath walk.settings depth entries names := by
  induction depth generalizing levels path entries names with
  | zero =>
    rw [filesIn_zero, List.mem_nil_iff, false_iff]
    intro h
    obtain rfl := List.length_eq_zero_iff.mp (Nat.le_zero.mp h.length_le)
    exact not_isSourcePath_nil h
  | succ depth ih =>
    cases names with
    | nil =>
      rw [filesIn_eq_flatMap, List.mem_flatMap, iff_false_intro not_isSourcePath_nil, iff_false]
      rintro ⟨entry, -, hmem⟩
      obtain ⟨_, hcons⟩ := exists_rest_of_mem_filesAt hmem
      cases hcons
    | cons name rest =>
      rw [cons_mem_filesIn_iff hplain.here.distinct]
      cases hchild : child? name entries with
      | none =>
        constructor
        · rintro ⟨_, hnone, -⟩
          cases hnone
        · rintro ⟨⟨content, hfile⟩, -⟩
          rw [descend?, hchild] at hfile
          cases hfile
      | some child =>
        simp only [Option.some.injEq, exists_eq_left']
        cases child with
        | file content => rw [cons_mem_filesAt_file_iff hlevels, isSourcePath_cons_file_iff hchild]
        | directory inner =>
          have hinner := hplain.child hchild
          rw [cons_mem_filesAt_directory_iff hlevels hinner.here.readable,
            isSourcePath_cons_directory_iff hchild,
            ih (isSilent_of_mem_levelsBelow hlevels hinner.here.noRules) hinner]

/-- No file is found twice: the first component tells the entry, and the rest of the path is found
once below it. -/
theorem nodup_filesIn (hplain : IsPlainBelow walk.tree path entries) :
    (filesIn walk levels depth path entries).Nodup := by
  induction depth generalizing levels path entries with
  | zero =>
    rw [filesIn_zero]
    exact List.nodup_nil
  | succ depth ih =>
    have hdistinct := hplain.here.distinct
    rw [filesIn_eq_flatMap, List.Nodup, List.pairwise_flatMap]
    constructor
    · rintro ⟨name, tree⟩ hentry
      rw [← child?_eq_some_iff hdistinct] at hentry
      cases tree with
      | file content =>
        rw [filesAt]
        split
        · exact List.nodup_singleton _
        · exact List.nodup_nil
      | directory inner =>
        rw [filesAt]
        split
        · exact (ih (hplain.child hentry)).map List.cons_injective
        · exact List.nodup_nil
    · -- What is found at two entries differs in the first component.
      refine (List.pairwise_map.mp hdistinct).imp fun hne names hnames others hothers heq => ?_
      obtain ⟨_, rfl⟩ := exists_rest_of_mem_filesAt hnames
      obtain ⟨_, rfl⟩ := exists_rest_of_mem_filesAt hothers
      exact hne (List.cons.inj heq).1

end Walk

/-! ## Paths -/

/-- A path is cut at its slashes in the same way by both functions. -/
theorem splitAt_slash (text : List Char) : Text.splitAt (· = '/') text = text.splitOn '/' := by
  induction text with
  | nil => rfl
  | cons c text ih =>
    obtain ⟨first, pieces, hsplit⟩ := List.exists_cons_of_ne_nil (List.splitOn_ne_nil '/' text)
    rw [Text.splitAt, ih, hsplit]
    by_cases hc : c = '/'
    · subst hc
      simp [Path.splitOn_slash_cons, hsplit]
    · simp [Path.splitOn_cons_of_ne hc, hsplit, hc]

/-- The components of a path, as lists of characters. -/
theorem map_toList_components (path : String) :
    (components path).map String.toList = path.toList.splitOn '/' := by
  simp [components, splitAt_slash, Function.comp_def]

/-- Names with slashes between them, character by character. -/
theorem toList_intercalate_slash (names : List String) :
    (String.intercalate "/" names).toList = ['/'].intercalate (names.map String.toList) := by
  rw [String.toList_intercalate]
  rfl

/-- A path is made up of its components. -/
theorem intercalate_components (path : String) :
    String.intercalate "/" (components path) = path := by
  rw [← String.toList_inj, toList_intercalate_slash, map_toList_components,
    List.intercalate_splitOn]

/-- The components of a path are the names that it is made up of. -/
theorem components_intercalate {names : List String} (hne : names ≠ [])
    (hnames : ∀ name ∈ names, Path.IsComponent name) :
    components (String.intercalate "/" names) = names := by
  refine List.map_injective_iff.mpr (fun _ _ => String.toList_inj.mp) ?_
  rw [map_toList_components, toList_intercalate_slash]
  refine List.splitOn_intercalate '/' (fun piece hpiece => ?_) (by simpa using hne)
  obtain ⟨name, hname, rfl⟩ := List.mem_map.mp hpiece
  exact (hnames name hname).no_slash

/-- Where directories are plain, the names on a way down can stand between slashes. -/
theorem isComponent_of_descend? {tree found : SourceTree} {path : String}
    {entries : List (String × SourceTree)} {names : List String}
    (hplain : IsPlainBelow tree path entries)
    (h : descend? names (directory entries) = some found) :
    ∀ name ∈ names, Path.IsComponent name := by
  induction names generalizing path entries with
  | nil => simp
  | cons name names ih =>
    rw [descend?, Option.bind_eq_some_iff] at h
    obtain ⟨child, hchild, hfound⟩ := h
    have hname : Path.IsComponent name :=
      hplain.here.isComponent _ ((child?_eq_some_iff hplain.here.distinct).mp hchild)
    refine List.forall_mem_cons.mpr ⟨hname, ?_⟩
    cases child with
    | directory inner => exact ih (hplain.child hchild) hfound
    | file content =>
      cases names with
      | nil => simp
      | cons next names => cases hfound

/-- Sorting different texts makes them ascending. -/
theorem ascending_mergeSort {texts : List String} (h : texts.Nodup) :
    (texts.mergeSort fun a b => a ≤ b).Pairwise (· < ·) := by
  have hsorted := @List.pairwise_mergeSort _ (fun a b : String => decide (a ≤ b))
    (fun a b c hab hbc => decide_eq_true
      (String.le_trans (of_decide_eq_true hab) (of_decide_eq_true hbc)))
    (fun a b => by simpa using String.le_total a b) texts
  have hdistinct := (List.mergeSort_perm texts fun a b => decide (a ≤ b)).nodup_iff.mpr h
  refine (hsorted.and hdistinct).imp fun {a b} hab => ?_
  exact NameSet.lt_of_not_lt_of_ne (String.not_lt.mpr (of_decide_eq_true hab.1)) hab.2.symm

/-- **The source files below a root.** Where no directory has rules, the list of the source files is
ascending in the order of bytes, and the files in it are those that can be told by their paths
alone. The name of the root itself plays no part, unless it is the dash that stands for what is
piped in. -/
theorem exists_collect_eq {tree : SourceTree} {settings : Settings} {root : String}
    {around : List (String × List (String × SourceTree))} {entries : List (String × SourceTree)}
    (hroot : tree.locate root = .ok ⟨around, directory entries⟩) (hpiped : isPiped root = false)
    (haround : ∀ folder ∈ around, HasNoRules tree folder.2)
    (hplain : IsPlainBelow tree root entries) :
    ∃ files, collect tree settings root = .ok files ∧ (files.map Text.bytes).Pairwise (· < ·) ∧
      ∀ path, path ∈ files ↔ IsSourcePath settings settings.maxDepth entries (components path) := by
  obtain ⟨levels, hlevels⟩ : ∃ levels,
      levels = Level.ofEntries tree (.inside root) entries :: levelsAround tree [] around :=
        ⟨_, rfl⟩
  obtain ⟨found, hfound⟩ :
      ∃ found, found = filesIn ⟨tree, settings⟩ levels settings.maxDepth root entries := ⟨_, rfl⟩
  have hsilent : ∀ level ∈ levels, level.IsSilent := by
    rw [hlevels, List.forall_mem_cons]
    exact ⟨Level.isSilent_ofEntries hplain.here.noRules _, isSilent_of_mem_levelsAround haround⟩
  have hmem (names : List String) :
      names ∈ found ↔ IsSourcePath settings settings.maxDepth entries names := by
    rw [hfound]
    exact mem_filesIn_iff hsilent hplain
  have hcomponents : ∀ names ∈ found, components (String.intercalate "/" names) = names := by
    intro names hnames
    have hsource := (hmem names).mp hnames
    obtain ⟨content, hfile⟩ := hsource.isFile
    refine components_intercalate ?_ (isComponent_of_descend? hplain hfile)
    rintro rfl
    exact not_isSourcePath_nil hsource
  have hcollect : collect tree settings root =
      .ok ((found.map (String.intercalate "/" ·)).mergeSort fun a b => a ≤ b) := by
    rw [collect, hroot, hfound, hlevels]
    exact if_neg (by simp [hpiped])
  refine ⟨_, hcollect, ?_, fun path => ?_⟩
  · have hdistinct : (found.map (String.intercalate "/" ·)).Nodup := by
      refine List.Nodup.map_on (fun names hnames others hothers heq => ?_)
        (hfound ▸ nodup_filesIn hplain)
      rw [← hcomponents names hnames, heq, hcomponents others hothers]
    exact List.pairwise_map.mpr ((ascending_mergeSort hdistinct).imp Text.bytes_lt_bytes_iff.mpr)
  · rw [List.mem_mergeSort, List.mem_map]
    constructor
    · rintro ⟨names, hnames, rfl⟩
      rw [hcomponents names hnames]
      exact (hmem names).mp hnames
    · intro hsource
      exact ⟨components path, (hmem _).mpr hsource, intercalate_components path⟩

/-- A directory with a source file of its own and one in a directory that is skipped. -/
def storeroom : List (String × SourceTree) :=
  [("A.java", file ⟨#[]⟩), ("target", directory [("B.java", file ⟨#[]⟩)])]

/-- The storeroom is plain all the way down, in whatever tree it stands. -/
theorem isPlainBelow_storeroom (tree : SourceTree) : IsPlainBelow tree ".git" storeroom := by
  have hinner : IsPlain tree ".git/target" [("B.java", file ⟨#[]⟩)] := by
    refine ⟨by decide, ?_, by decide, ?_, ?_⟩
    · simpa using ⟨by decide, by decide⟩
    · simp [ruleFiles, descend?, child?]
    · simp [child?]
  have houter : IsPlain tree ".git" storeroom := by
    refine ⟨by decide, ?_, by decide, ?_, ?_⟩
    · simpa [storeroom] using ⟨⟨by decide, by decide⟩, by decide, by decide⟩
    · simp [storeroom, ruleFiles, descend?, child?]
    · simp [storeroom, child?]
  refine houter.isPlainBelow fun name inner hchild => ?_
  obtain ⟨rfl, rfl⟩ : name = "target" ∧ inner = [("B.java", file ⟨#[]⟩)] := by
    simpa [storeroom] using (child?_eq_some_iff houter.distinct).mp hchild
  refine hinner.isPlainBelow fun name deeper hchild => ?_
  simpa using (child?_eq_some_iff hinner.distinct).mp hchild

/-- A root that is hidden and has the name of a skipped directory is walked through nevertheless. -/
theorem exists_collect_eq_hidden :
    ∃ files, collect (directory [(".git", directory storeroom)]) .standard ".git" = .ok files ∧
      "A.java" ∈ files ∧ "target/B.java" ∉ files := by
  have haround :
      HasNoRules (directory [(".git", directory storeroom)]) [(".git", directory storeroom)] :=
    ⟨by simp [storeroom, ruleFiles, descend?, child?], by simp [child?]⟩
  obtain ⟨files, hcollect, -, hfiles⟩ :=
    @exists_collect_eq (directory [(".git", directory storeroom)]) .standard ".git"
    [(".git", [(".git", directory storeroom)])] storeroom rfl rfl (by simpa using haround)
      (isPlainBelow_storeroom _)
  refine ⟨files, hcollect, (hfiles _).mpr ⟨⟨⟨#[]⟩, rfl⟩, by decide, by decide, by decide, ?_⟩,
    fun h => ?_⟩
  · exact ⟨"A.java", rfl, by decide, ['A'], by decide, rfl⟩
  · exact absurd ((hfiles _).mp h).notSkipped (by decide)

end ClassAtlas.SourceTree
