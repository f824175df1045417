import ClassAtlas.Metrics
import ClassAtlas.Proofs.Extension
import ClassAtlas.Proofs.Keys

/-!
# Folders divide a corpus

A folder is read off a path at its last slash, but whether a file is in a folder is decided by
taking the folder away from the front of the path. This file proves that the two agree for all paths
without a slash at either end. Hence the folders of a corpus, with the one at the top, divide its
entities, and what is counted folder by folder adds up to what is counted at once.

The folders are noted on the way up from each entity, and the way ends at the first folder that is
noted already. No folder is missed by that, since what is noted is closed upwards.
-/

namespace ClassAtlas

/-! ## The folder of a path -/

namespace Path

/-- The path has no slash at its start and none at its end. -/
def NoOuterSlash (path : String) : Prop :=
  path.toList.head? ≠ some '/' ∧ path.toList.getLast? ≠ some '/'

instance (path : String) : Decidable (NoOuterSlash path) :=
  inferInstanceAs (Decidable (_ ∧ _))

/-- A path with a slash can be cut at the last one. -/
theorem exists_last_slash {path : List Char} (hslash : '/' ∈ path) :
    ∃ front last, path = front ++ '/' :: last ∧ '/' ∉ last := by
  obtain ⟨last, front, hcut, hlast⟩ := List.eq_append_cons_of_mem (List.mem_reverse.mpr hslash)
  refine ⟨front.reverse, last.reverse, ?_, by simpa using hlast⟩
  rw [← List.reverse_reverse path, hcut]
  simp

/-- Looking for a slash from the end passes over a name that has none. -/
theorem dropWhile_reverse_append {last : List Char} (hlast : '/' ∉ last) (rest : List Char) :
    (last.reverse ++ rest).dropWhile (· ≠ '/') = rest.dropWhile (· ≠ '/') := by
  apply List.dropWhile_append_of_pos
  intro c hc
  have hne : c ≠ '/' := fun heq => hlast (heq ▸ List.mem_reverse.mp hc)
  simpa using hne

/-- Before the last slash stands all that precedes it. -/
theorem beforeLastSlash_append {front last : List Char} (hlast : '/' ∉ last) :
    beforeLastSlash (front ++ '/' :: last) = front := by
  have hreverse : (front ++ '/' :: last).reverse = last.reverse ++ '/' :: front.reverse := by simp
  rw [beforeLastSlash, hreverse, dropWhile_reverse_append hlast]
  simp

/-- Nothing stands before the last slash of a path that has none. -/
theorem beforeLastSlash_of_not_mem {path : List Char} (hslash : '/' ∉ path) :
    beforeLastSlash path = [] := by
  have hskip := dropWhile_reverse_append hslash []
  rw [List.append_nil] at hskip
  rw [beforeLastSlash, hskip]
  rfl

/-- What stands before the last slash, for a path that does not start with one. -/
theorem beforeLastSlash_eq_iff {path folder : List Char} (hhead : path.head? ≠ some '/') :
    beforeLastSlash path = folder ↔
      folder = [] ∧ '/' ∉ path ∨
        folder ≠ [] ∧ ∃ last, path = folder ++ '/' :: last ∧ '/' ∉ last := by
  by_cases hslash : '/' ∈ path
  · obtain ⟨front, last, rfl, hlast⟩ := exists_last_slash hslash
    have hfront : front ≠ [] := by
      rintro rfl
      exact hhead rfl
    rw [beforeLastSlash_append hlast]
    constructor
    · rintro rfl
      exact .inr ⟨hfront, last, rfl, hlast⟩
    · rintro (⟨_, hnone⟩ | ⟨_, other, heq, hother⟩)
      · exact absurd hslash hnone
      · have hbefore := congrArg beforeLastSlash heq
        rwa [beforeLastSlash_append hlast, beforeLastSlash_append hother] at hbefore
  · rw [beforeLastSlash_of_not_mem hslash]
    constructor
    · rintro rfl
      exact .inl ⟨rfl, hslash⟩
    · rintro (⟨rfl, _⟩ | ⟨_, last, rfl, _⟩)
      · rfl
      · simp at hslash

/-- A file is directly inside a folder if the folder, a slash and a name without a slash make up its
path, and at the top if its path has no slash. -/
theorem isDirectChild_iff {path folder : String} :
    isDirectChild path folder = true ↔
      folder.toList = [] ∧ '/' ∉ path.toList ∨
        folder.toList ≠ [] ∧
          ∃ last, path.toList = folder.toList ++ '/' :: last ∧ last ≠ [] ∧ '/' ∉ last := by
  have hempty : folder = "" ↔ folder.toList = [] := String.toList_eq_nil_iff.symm
  unfold isDirectChild
  by_cases hfolder : folder = ""
  · simp [hfolder]
  · rw [if_neg hfolder]
    have hne : folder.toList ≠ [] := fun h => hfolder (hempty.mpr h)
    simp only [hne, false_and, false_or, ne_eq, not_false_eq_true, true_and]
    constructor
    · intro h
      split at h
      · rename_i last hcut
        simp only [Bool.and_eq_true, Bool.not_eq_true', List.isEmpty_eq_false_iff,
          List.contains_eq_mem, decide_eq_false_iff_not] at h
        exact ⟨last, (List.isPrefixOf?_eq_some_iff_append_eq.mp hcut).symm, h⟩
      · cases h
    · rintro ⟨last, hpath, hlast⟩
      have hcut : folder.toList.isPrefixOf? path.toList = some ('/' :: last) :=
        List.isPrefixOf?_eq_some_iff_append_eq.mpr hpath.symm
      simpa [hcut] using hlast

/-- **A file is directly inside exactly one folder**, the one of its path, if the path has no slash
at either end. -/
theorem isDirectChild_iff_folder {path : String} (hpath : NoOuterSlash path) (folder : String) :
    isDirectChild path folder = true ↔ Path.folder path = folder := by
  obtain ⟨hhead, hend⟩ := hpath
  have hfolder : Path.folder path = folder ↔ beforeLastSlash path.toList = folder.toList := by
    rw [Path.folder, ← String.toList_inj, String.toList_ofList]
  rw [hfolder, isDirectChild_iff, beforeLastSlash_eq_iff hhead]
  refine or_congr Iff.rfl
    (and_congr_right fun _ => exists_congr fun last => and_congr_right fun hcut => ?_)
  -- A path that does not end with a slash has a name after the last one.
  refine and_iff_right ?_
  rintro rfl
  exact hend (by simp [hcut])

-- With a slash at one of its ends, a path is in no folder at all.
example : isDirectChild "/A.java" (folder "/A.java") = false ∧
    isDirectChild "a/" (folder "a/") = false := by
  decide +kernel

/-- The prefixes of a folder are what stands before one of its slashes, and the folder itself. -/
theorem mem_enclosing_iff {before folder outer : List Char} :
    outer ∈ enclosing before folder ↔ outer = before.reverse ++ folder ∨
      ∃ front rest, folder = front ++ '/' :: rest ∧ outer = before.reverse ++ front := by
  induction folder generalizing before with
  | nil => simp [enclosing]
  | cons c folder ih =>
    have hlater : outer ∈ enclosing (c :: before) folder ↔ outer = before.reverse ++ c :: folder ∨
        ∃ front rest, folder = front ++ '/' :: rest ∧ outer = before.reverse ++ c :: front := by
      simpa using @ih (c :: before)
    have hcut :
        (∃ front rest, c :: folder = front ++ '/' :: rest ∧ outer = before.reverse ++ front) ↔
          c = '/' ∧ outer = before.reverse ∨
            ∃ front rest, folder = front ++ '/' :: rest ∧ outer = before.reverse ++ c :: front := by
      constructor
      · rintro ⟨front, rest, heq, houter⟩
        cases front with
        | nil => exact .inl ⟨(List.cons.inj heq).1, by simpa using houter⟩
        | cons d front =>
          obtain ⟨rfl, rfl⟩ := List.cons.inj heq
          exact .inr ⟨front, rest, rfl, houter⟩
      · rintro (⟨rfl, rfl⟩ | ⟨front, rest, rfl, houter⟩)
        · exact ⟨[], folder, rfl, by simp⟩
        · exact ⟨c :: front, rest, rfl, houter⟩
    rw [hcut, enclosing]
    split
    · rename_i hc
      rw [List.mem_cons, hlater, and_iff_right hc, or_left_comm]
    · rename_i hc
      have hnone : ¬ (c = '/' ∧ outer = before.reverse) := fun h => hc h.1
      rw [hlater, or_iff_right hnone]

/-- Each of the prefixes of a folder stands before a slash in the next ones. -/
theorem pairwise_enclosing (before folder : List Char) :
    (enclosing before folder).Pairwise fun outer inner => ∃ rest, inner = outer ++ '/' :: rest := by
  induction folder generalizing before with
  | nil => simp [enclosing]
  | cons c folder ih =>
    rw [enclosing]
    split
    · rename_i hc
      subst hc
      refine List.pairwise_cons.mpr ⟨fun inner hinner => ?_, ih ('/' :: before)⟩
      rcases mem_enclosing_iff.mp hinner with rfl | ⟨front, _, _, rfl⟩
      · exact ⟨folder, by simp⟩
      · exact ⟨front, by simp⟩
    · exact ih (c :: before)

/-- The folders around a folder are itself and those that stand before one of its slashes, without
the top. -/
theorem mem_foldersAround_iff {folder outer : String} :
    outer ∈ foldersAround folder ↔
      outer ≠ "" ∧ (outer = folder ∨ ∃ rest, folder.toList = outer.toList ++ '/' :: rest) := by
  have hmem : outer ∈ foldersAround folder ↔ outer.toList ≠ [] ∧
      outer.toList ∈ enclosing [] folder.toList := by
    simp only [foldersAround, List.mem_map, List.mem_filter, Bool.not_eq_true',
      List.isEmpty_eq_false_iff]
    constructor
    · rintro ⟨chars, ⟨henclosing, hne⟩, rfl⟩
      rw [String.toList_ofList]
      exact ⟨hne, henclosing⟩
    · rintro ⟨hne, henclosing⟩
      exact ⟨outer.toList, ⟨henclosing, hne⟩, String.ofList_toList⟩
  rw [hmem, mem_enclosing_iff, ne_eq, String.toList_eq_nil_iff]
  simp only [List.reverse_nil, List.nil_append, String.toList_inj, ne_eq]
  refine and_congr_right fun _ => or_congr Iff.rfl ?_
  constructor
  · rintro ⟨front, rest, heq, rfl⟩
    exact ⟨rest, heq⟩
  · rintro ⟨rest, heq⟩
    exact ⟨outer.toList, rest, heq, rfl⟩

/-- A folder that is not the top is among the folders around it. -/
theorem self_mem_foldersAround {folder : String} (hfolder : folder ≠ "") :
    folder ∈ foldersAround folder :=
  mem_foldersAround_iff.mpr ⟨hfolder, .inl rfl⟩

/-- The top is not among the folders around any folder. -/
theorem top_not_mem_foldersAround (folder : String) : "" ∉ foldersAround folder :=
  fun h => (mem_foldersAround_iff.mp h).1 rfl

/-- What is around a folder is around all folders inside it. -/
theorem foldersAround_trans {outer folder inner : String} (houter : outer ∈ foldersAround folder)
    (hfolder : folder ∈ foldersAround inner) : outer ∈ foldersAround inner := by
  obtain ⟨hne, houter⟩ := mem_foldersAround_iff.mp houter
  obtain ⟨-, hfolder⟩ := mem_foldersAround_iff.mp hfolder
  refine mem_foldersAround_iff.mpr ⟨hne, ?_⟩
  rcases houter with rfl | ⟨rest, hrest⟩
  · exact hfolder
  · rcases hfolder with rfl | ⟨more, hmore⟩
    · exact .inr ⟨rest, hrest⟩
    · exact .inr ⟨rest ++ '/' :: more, by rw [hmore, hrest, List.append_assoc, List.cons_append]⟩

/-- On the way up from a folder each folder is around those before it, and none of them. -/
theorem pairwise_reverse_foldersAround (folder : String) :
    (foldersAround folder).reverse.Pairwise fun inner outer => outer ∈ foldersAround inner ∧
    outer ≠ inner := by
  rw [List.pairwise_reverse, foldersAround, List.pairwise_map]
  refine ((pairwise_enclosing [] folder.toList).filter _).imp_of_mem ?_
  rintro outer inner houter - ⟨rest, rfl⟩
  have hne : outer ≠ [] := by simpa using (List.mem_filter.mp houter).2
  constructor
  · refine mem_foldersAround_iff.mpr ⟨by simpa using hne, .inr ⟨rest, ?_⟩⟩
    rw [String.toList_ofList, String.toList_ofList]
  · intro heq
    have hlists : outer = outer ++ '/' :: rest := String.ofList_injective heq
    simp at hlists

end Path

/-! ## Adding up assessments -/

/-- The sum of counts as a word of 64 bits is what is left of their sum. -/
theorem total_eq (counts : List Nat) : total counts = counts.sum % UInt64.size := rfl

/-- The sums of several groups of counts add up to the sum of all of them. -/
theorem total_map_total (groups : List (List Nat)) :
    total (groups.map total) = total groups.flatten := by
  simp only [total_eq]
  induction groups with
  | nil => rfl
  | cons group rest ih =>
    rw [List.map_cons, List.sum_cons, List.flatten_cons, List.sum_append, Nat.add_mod, ih, total_eq,
      Nat.mod_mod, ← Nat.add_mod]

/-- The sums of several groups of counts are not more than all counts together. -/
theorem sum_map_total_le (groups : List (List Nat)) :
    (groups.map total).sum ≤ groups.flatten.sum := by
  induction groups with
  | nil => exact Nat.le_refl 0
  | cons group rest ih =>
    have hgroup : total group ≤ group.sum := Nat.mod_le _ _
    rw [List.map_cons, List.sum_cons, List.flatten_cons, List.sum_append]
    omega

namespace Assessment

/-- The parts add up to the whole. Lines are added up as words of 64 bits, which is their sum as
long as a word holds it. -/
structure AddUp (parts : List Assessment) (whole : Assessment) : Prop where
  totalEntities : (parts.map (·.totalEntities)).sum = whole.totalEntities
  totalLines : total (parts.map (·.totalLines)) = whole.totalLines
  totalLines_exact : (whole.entities.map (·.lines)).sum < UInt64.size →
    (parts.map (·.totalLines)).sum = whole.totalLines
  abstractCount : (parts.map (·.abstractCount)).sum = whole.abstractCount
  interfaceCount : (parts.map (·.interfaceCount)).sum = whole.interfaceCount
  countIn : ∀ band, (parts.map (·.countIn band)).sum = whole.countIn band

variable {groups : List (List Entity)} {entities : List Entity}

/-- What is counted group by group adds up to what is counted at once. -/
theorem sum_countP_metrics (hperm : groups.flatten.Perm entities) (counts : Metrics → Bool) :
    (groups.map fun group => (group.map Entity.metrics).countP counts).sum =
      (entities.map Entity.metrics).countP counts := by
  rw [← (hperm.map Entity.metrics).countP_eq, List.map_flatten, List.countP_flatten, List.map_map]
  rfl

/-- The lines of entities are those that their metrics tell. -/
theorem totalLines_ofEntities (entities : List Entity) :
    (ofEntities entities).totalLines = total (entities.map (·.lines)) :=
  congrArg total List.map_map

/-- **The assessments of groups of entities add up** to the assessment of all of them. -/
theorem addUp_of_perm (hperm : groups.flatten.Perm entities) :
    AddUp (groups.map ofEntities) (ofEntities entities) := by
  have hcounts : (groups.map ofEntities).map (·.totalLines) =
      (groups.map fun group => group.map (·.lines)).map total := by
    rw [List.map_map, List.map_map]
    exact List.map_congr_left fun group _ => totalLines_ofEntities group
  have hsum :
      (groups.map fun group => group.map (·.lines)).flatten.sum = (entities.map (·.lines)).sum := by
    rw [← List.map_flatten]
    exact (hperm.map (·.lines)).sum_nat
  have hlines :
      total ((groups.map ofEntities).map (·.totalLines)) = (ofEntities entities).totalLines := by
    rw [hcounts, total_map_total, totalLines_ofEntities, total_eq, total_eq, hsum]
  constructor
  case totalEntities =>
    have hlength : (groups.map List.length).sum = entities.length := by
      rw [← List.length_flatten, hperm.length_eq]
    simpa [ofEntities, Function.comp_def] using hlength
  case totalLines => exact hlines
  case totalLines_exact =>
    -- The sums of the groups are not more than the sum of all lines, so a word holds their sum as
    -- well.
    intro hfits
    have hwhole : (ofEntities entities).entities.map (·.lines) = entities.map (·.lines) :=
      List.map_map
    have hle := sum_map_total_le (groups.map fun group => group.map (·.lines))
    rw [hsum, ← hcounts] at hle
    rw [hwhole] at hfits
    rwa [total_eq, Nat.mod_eq_of_lt (by omega)] at hlines
  case abstractCount =>
    rw [List.map_map]
    exact sum_countP_metrics hperm _
  case interfaceCount =>
    rw [List.map_map]
    exact sum_countP_metrics hperm _
  case countIn =>
    intro band
    rw [List.map_map]
    exact sum_countP_metrics hperm _

end Assessment

/-! ## The folders of a corpus -/

namespace Corpus

/-- The folder at the top, and all other folders. -/
def allFolders (corpus : Corpus) : List String :=
  "" :: corpus.folders.toList

/-- With every folder the folders around it are noted as well. -/
def ClosedUpwards (noted : NameSet) : Prop :=
  ∀ folder ∈ noted, ∀ outer ∈ Path.foldersAround folder, outer ∈ noted

/-- All folders on the way up are noted, although the way ends at the first that is noted already.
While the way goes on, only folders that are not on the rest of it are added, so what is noted stays
closed for the folders to come. -/
theorem mem_noteUpwards {folder : String} {way : List String} {noted : NameSet}
    (hway : way.Pairwise fun inner outer => outer ∈ Path.foldersAround inner ∧ outer ≠ inner)
    (hclosed : ∀ inner ∈ way, inner ∈ noted → ∀ outer ∈ Path.foldersAround inner, outer ∈ noted) :
    folder ∈ noteUpwards noted way ↔ folder ∈ noted ∨ folder ∈ way := by
  induction way generalizing noted with
  | nil => simp [noteUpwards]
  | cons first above ih =>
    obtain ⟨hfirst, habove⟩ := List.pairwise_cons.mp hway
    rw [noteUpwards]
    split
    · -- The way ends here, and all that is above has been noted before.
      rename_i hnoted
      refine ⟨.inl, ?_⟩
      rintro (h | h)
      · exact h
      · rcases List.mem_cons.mp h with rfl | h
        · exact hnoted
        · exact hclosed first List.mem_cons_self hnoted folder (hfirst folder h).1
    · have hrest : ∀ inner ∈ above, inner ∈ noted.insert first → ∀ outer ∈ Path.foldersAround inner,
          outer ∈ noted.insert first := by
        intro inner hinner hmem outer houter
        rcases NameSet.mem_insert.mp hmem with rfl | hmem
        · exact absurd rfl (hfirst inner hinner).2
        · exact NameSet.mem_insert.mpr
            (.inr (hclosed inner (List.mem_cons_of_mem _ hinner) hmem outer houter))
      rw [ih habove hrest, NameSet.mem_insert, List.mem_cons, or_assoc, or_left_comm]

/-- The way up from a folder adds the folders around it. -/
theorem ClosedUpwards.mem_noteUpwards {noted : NameSet} (hclosed : ClosedUpwards noted)
    {folder inner : String} :
    folder ∈ noteUpwards noted (Path.foldersAround inner).reverse ↔
      folder ∈ noted ∨ folder ∈ Path.foldersAround inner := by
  rw [Corpus.mem_noteUpwards (Path.pairwise_reverse_foldersAround inner)
    fun inner _ => hclosed inner, List.mem_reverse]

/-- Noting a folder on the way up keeps the folders around every noted one noted. -/
theorem ClosedUpwards.noteUpwards {noted : NameSet} (hclosed : ClosedUpwards noted)
    (inner : String) :
    ClosedUpwards (noteUpwards noted (Path.foldersAround inner).reverse) := by
  intro folder hfolder outer houter
  rw [hclosed.mem_noteUpwards] at hfolder ⊢
  rcases hfolder with hfolder | hfolder
  · exact .inl (hclosed folder hfolder outer houter)
  · exact .inr (Path.foldersAround_trans houter hfolder)

/-- **No folder is missed.** The folders of a corpus are all those around the folders of its
entities. -/
theorem mem_folders {corpus : Corpus} {folder : String} :
    folder ∈ corpus.folders ↔
      ∃ entity ∈ corpus.entities, folder ∈ Path.foldersAround entity.folder := by
  have hfold := foldl_holds_iff
    (fun noted (entity : Entity) => noteUpwards noted (Path.foldersAround entity.folder).reverse)
    ClosedUpwards (folder ∈ ·) (fun _ entity h => h.noteUpwards entity.folder)
      (fun _ _ h => h.mem_noteUpwards)
    (s := ∅) (fun inner hinner => absurd hinner (NameSet.not_mem_empty inner)) corpus.entities
  exact hfold.trans (or_iff_right (NameSet.not_mem_empty folder))

/-- No folder is listed twice, nor is the top among the others. -/
theorem nodup_allFolders (corpus : Corpus) : corpus.allFolders.Nodup := by
  refine List.nodup_cons.mpr ⟨?_, corpus.folders.nodup⟩
  intro htop
  obtain ⟨entity, _, haround⟩ := mem_folders.mp htop
  exact Path.top_not_mem_foldersAround entity.folder haround

/-- The folder of every entity is listed. -/
theorem folder_mem_allFolders {corpus : Corpus} {entity : Entity}
    (hentity : entity ∈ corpus.entities) :
    entity.folder ∈ corpus.allFolders := by
  by_cases htop : entity.folder = ""
  · rw [htop]
    exact List.mem_cons_self
  · refine List.mem_cons_of_mem _ (mem_folders.mpr ⟨entity, hentity, ?_⟩)
    exact Path.self_mem_foldersAround htop

variable {settings : Settings} {files : List SourceFile}

/-- The path of an entity is that of its file, and its folder is the folder of that path. -/
theorem exists_file_of_mem {entity : Entity}
    (hentity : entity ∈ (ofSources settings files).entities) :
    ∃ file ∈ files, entity.path = file.1 ∧ entity.folder = Path.folder file.1 := by
  rw [entities_ofSources] at hentity
  obtain ⟨file, hfile, rfl⟩ := List.mem_map.mp hentity
  exact ⟨file, hfile, rfl, rfl⟩

/-- An entity is selected with the folder that it tells, and with no other. -/
theorem isDirectChild_iff_of_mem (hpaths : ∀ file ∈ files, Path.NoOuterSlash file.1)
    {entity : Entity} (hentity : entity ∈ (ofSources settings files).entities) (folder : String) :
    Path.isDirectChild entity.path folder = true ↔ entity.folder = folder := by
  obtain ⟨file, hfile, hpath, hfolder⟩ := exists_file_of_mem hentity
  rw [hpath, hfolder]
  exact Path.isDirectChild_iff_folder (hpaths file hfile) folder

/-- The entities that are selected with a folder are those that tell it. -/
theorem inFolder_eq (hpaths : ∀ file ∈ files, Path.NoOuterSlash file.1) (folder : String) :
    (ofSources settings files).inFolder folder =
      (ofSources settings files).entities.filter fun entity => entity.folder = folder := by
  apply List.filter_congr
  intro entity hentity
  rw [Bool.eq_iff_iff, isDirectChild_iff_of_mem hpaths hentity, decide_eq_true_eq]

/-- **The folders divide the corpus.** For paths without a slash at either end, a file is directly
inside a folder if and only if that is the folder of its path. Hence each entity of a corpus of such
files is selected with exactly one of its folders, the one that it tells, all selections together
are the entities of the corpus, and the assessments of the folders add up to the assessment of the
whole corpus. -/
theorem folders_divide (settings : Settings) (files : List SourceFile)
    (hpaths : ∀ file ∈ files, Path.NoOuterSlash file.1) :
    (∀ path, Path.NoOuterSlash path → ∀ folder,
      Path.isDirectChild path folder = true ↔ Path.folder path = folder) ∧
    (∀ entity ∈ (ofSources settings files).entities, ∀ folder,
      folder ∈ (ofSources settings files).allFolders ∧
      entity ∈ (ofSources settings files).inFolder folder ↔
        folder = entity.folder) ∧
    ((ofSources settings files).allFolders.flatMap (ofSources settings files).inFolder).Perm
      (ofSources settings files).entities ∧
    Assessment.AddUp ((ofSources settings files).allFolders.map fun folder =>
      (ofSources settings files).assess (some folder))
        ((ofSources settings files).assess none) := by
  have hperm :
      ((ofSources settings files).allFolders.flatMap (ofSources settings files).inFolder).Perm
      (ofSources settings files).entities := by
    rw [funext (inFolder_eq hpaths)]
    exact perm_flatMap_filter_key _ (nodup_allFolders _) fun entity => folder_mem_allFolders
  refine ⟨fun path => Path.isDirectChild_iff_folder, ?_, hperm, ?_⟩
  · intro entity hentity folder
    rw [inFolder_eq hpaths, List.mem_filter, decide_eq_true_eq]
    constructor
    · rintro ⟨_, _, hfolder⟩
      exact hfolder.symm
    · rintro rfl
      exact ⟨folder_mem_allFolders hentity, hentity, rfl⟩
  · have hadd := Assessment.addUp_of_perm hperm
    rwa [List.map_map] at hadd

/-- Files in folders that share their first letters, one of them at the top and one behind a doubled
slash. No file is directly inside the folder `ab`. -/
def nestedFiles : List SourceFile :=
  [("A.java", "class A {}"), ("a/B.java", "class B {}"), ("a/b/C.java", "interface C {}"),
    ("ab/c/D.java", "class D {}"), ("a//E.java", "abstract class E {}")]

/-- The folders of a corpus divide it, also those that hold no file themselves. -/
theorem folders_divide_nested :
    (∀ file ∈ nestedFiles, Path.NoOuterSlash file.1) ∧
    (ofSources .standard nestedFiles).allFolders = ["", "a", "a/", "a/b", "ab", "ab/c"] ∧
    ((ofSources .standard nestedFiles).allFolders.flatMap
      (ofSources .standard nestedFiles).inFolder).Perm
      (ofSources .standard nestedFiles).entities ∧
    Assessment.AddUp ((ofSources .standard nestedFiles).allFolders.map fun folder =>
      (ofSources .standard nestedFiles).assess (some folder))
        ((ofSources .standard nestedFiles).assess none) := by
  have hpaths : ∀ file ∈ nestedFiles, Path.NoOuterSlash file.1 := by decide +kernel
  obtain ⟨_, _, hperm, hadd⟩ := folders_divide .standard nestedFiles hpaths
  exact ⟨hpaths, by decide +kernel, hperm, hadd⟩

end Corpus

end ClassAtlas
