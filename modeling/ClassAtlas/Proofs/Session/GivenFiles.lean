import ClassAtlas.Proofs.Keys
import ClassAtlas.Proofs.Session.Abandonment

/-!
# Runs over given files

A provider of given files lists their paths, and a run asks it for one path after the other. It
answers with the first file that has the path, so the run gathers the files as they were given if no
two of them share a path. This file concludes that a session makes the same corpus of them as an
analysis of the files themselves, whatever else its client does and in whatever order the two move.
-/

namespace ClassAtlas

/-! ## Fetching what was listed -/

namespace Provider

variable {files : List Corpus.SourceFile}

/-- A file is found by its path if no other file has the same. -/
theorem fileText_of_mem (hpaths : (files.map (·.1)).Nodup) {file : Corpus.SourceFile}
    (hfile : file ∈ files) :
    fileText files file.1 = .ok file.2 := by
  have hfound : files.find? (fun other => other.1 = file.1) = some file :=
    find?_key_of_mem Prod.fst hpaths hfile
  rw [fileText, hfound]

/-- The provider of given files hands out each of them. -/
theorem text?_ofFiles (name : String) (hpaths : (files.map (·.1)).Nodup) {file : Corpus.SourceFile}
    (hfile : file ∈ files) : (ofFiles name files).text? file.1 = some file.2 := by
  simp only [text?, ofFiles, fileText_of_mem hpaths hfile]

/-- What a run gathers from the provider of given files are these files. -/
theorem readable_ofFiles (name : String) (hpaths : (files.map (·.1)).Nodup) :
    (ofFiles name files).readable (files.map (·.1)) = files := by
  have hgathered :
      ∀ file ∈ files, ((ofFiles name files).text? file.1).map (fun text => (file.1, text)) =
        some file := by
    intro file hfile
    rw [text?_ofFiles name hpaths hfile]
    rfl
  rw [readable, List.filterMap_map]
  exact (List.filterMap_congr hgathered).trans List.filterMap_some

-- Of files that share a path only the first one is ever read.
example :
    (ofFiles "given" [("A.java", "class A {}"), ("A.java", "")]).readable ["A.java", "A.java"] =
      [("A.java", "class A {}"), ("A.java", "class A {}")] := by
  decide +kernel

/-- A run skips none of the given files. -/
theorem unreadable_ofFiles (name : String) (hpaths : (files.map (·.1)).Nodup) :
    (ofFiles name files).unreadable (files.map (·.1)) = [] := by
  apply List.filter_eq_nil_iff.mpr
  intro path hpath
  obtain ⟨file, hfile, rfl⟩ := List.mem_map.mp hpath
  simp [text?_ofFiles name hpaths hfile]

end Provider

/-! ## What is due -/

namespace Answers

/-- What the provider of given files answers. -/
def ofFiles (name : String) (files : List Corpus.SourceFile) : Answers where
  name
  listing := .ok (files.map (·.1))
  fetch := Provider.fileText files

/-- The provider of given files answers every request. -/
theorem provider_ofFiles (name : String) (files : List Corpus.SourceFile) :
    (ofFiles name files).provider = Provider.ofFiles name files := rfl

variable {settings : Settings} {files : List Corpus.SourceFile}

/-- No given file ends the analysis. -/
theorem firstFatal?_ofFiles (name : String) (hpaths : (files.map (·.1)).Nodup) :
    (ofFiles name files).firstFatal? (files.map (·.1)) = none := by
  apply List.findSome?_eq_none_iff.mpr
  intro path hpath
  obtain ⟨file, hfile, rfl⟩ := List.mem_map.mp hpath
  simp only [fatal?, ofFiles, Provider.fileText_of_mem hpaths hfile]

/-- The corpus of the given files is due, and no file is skipped. -/
theorem analysis_ofFiles (name : String) (hvalid : settings.validate = .ok ())
    (hpaths : (files.map (·.1)).Nodup) :
    (ofFiles name files).analysis settings = .ok (Corpus.ofSources settings files, []) := by
  rw [analysis_of_listed hvalid rfl, rest, firstFatal?_ofFiles name hpaths, provider_ofFiles,
    Provider.readable_ofFiles name hpaths, Provider.unreadable_ofFiles name hpaths]
  rfl

/-- The outcome that is due has an entity for every given file. -/
theorem outcome_ofFiles (name : String) (hvalid : settings.validate = .ok ())
    (hpaths : (files.map (·.1)).Nodup) :
    (ofFiles name files).outcome settings = .completed ⟨name, files.length, []⟩ := by
  rw [outcome, analysis_ofFiles name hvalid hpaths]
  simp only [Corpus.size_ofSources]
  rfl

end Answers

/-! ## What the client finds -/

namespace System

variable {settings : Settings} {system : System} {place : Nat} {run : Run} {answers : Answers}

/-- A run that the client waits for is not asked to stop. -/
theorem Reachable.wanted_of_waiting (h : Reachable settings system)
    (hclient : system.client = .waiting place) (hrun : system.runs[place]? = some run) :
    run.cancelled = false := by
  have hattainable : Attainable settings system := Steps.loose h
  have hheld : system.held = some place := by simp [held, hclient, Client.waited?]
  obtain ⟨other, hother, hwanted⟩ := hattainable.kept.wanted hheld
  cases hrun.symm.trans hother
  exact hwanted

/-- The wait for the run at a place comes to a good end. As long as the run has not ended it can go
on, and if it is left alone the client goes on in the end. Whenever that is, the run tells the
summary, the session keeps it, and the corpus is published. -/
structure SucceedsWith (system : System) (place : Nat) (summary : Summary)
    (corpus : Corpus) : Prop where
  goes_on : system.outcome? place = none → ∃ after, system.step (.work place) = some after
  ends : ∃ later, Steps system later ∧ later.client = .waiting place ∧
      ∃ after, later.step .proceed = some after
  told : ∀ outcome, system.outcome? place = some outcome → Session.resultOf outcome = .ok summary
  collected : ∀ after, system.step .proceed = some after →
    after.client = .idle ∧ after.lastSummary = some summary ∧ after.session.corpus = .ok corpus

/-- **The wait for a run succeeds if a corpus is due**, and with that corpus. -/
theorem Reachable.succeedsWith (h : Reachable settings system)
    (hclient : system.client = .waiting place) (hrun : system.runs[place]? = some run)
    (hprovider : run.provider = answers.provider) {corpus : Corpus}
    {skipped : List String} (hcorpus : answers.analysis settings = .ok (corpus, skipped)) :
    SucceedsWith system place ⟨answers.name, corpus.size, skipped⟩ corpus := by
  have hdue := h.endsAsDue hrun hprovider (h.wanted_of_waiting hclient hrun)
  have houtcome : answers.outcome settings = .completed ⟨answers.name, corpus.size, skipped⟩ := by
    simp only [Answers.outcome, hcorpus]
  have hend : system.outcome? place = run.outcome? := by simp [System.outcome?, hrun]
  constructor
  case goes_on =>
    rw [hend]
    exact hdue.goes_on
  case ends =>
    obtain ⟨hplace, _⟩ := List.getElem?_eq_some_iff.mp hrun
    have hthere : (system.runs.set place (run.settle system.shared).1)[place]? =
        some (run.settle system.shared).1 := List.getElem?_set_self hplace
    refine ⟨_, steps_settle hrun, hclient, ?_⟩
    simp [System.step, System.proceed, System.outcome?, hclient, hthere, hdue.ends]
  case told =>
    intro outcome htold
    rw [hend] at htold
    rw [hdue.outcome_eq outcome htold, houtcome]
    rfl
  case collected =>
    intro after hstep
    simp only [System.step, System.proceed, hclient, hend] at hstep
    obtain ⟨outcome, htold, rfl⟩ := Option.map_eq_some_iff.mp hstep
    have hwatched : system.watched = some place := by simp [System.watched, hclient, Client.awaited]
    have hshown := hdue.shown (by simp [htold]) hwatched
    rw [hcorpus] at hshown
    refine ⟨rfl, ?_, Session.corpus_eq_ok_iff.mpr hshown⟩
    rw [hdue.outcome_eq outcome htold, houtcome]
    rfl

/-- **A session makes the same corpus of given files as their analysis.** If the settings can be
used and no two files share a path, a client that starts a run over the files and waits for it is
told that there is an entity for every file and that none was skipped, and finds the corpus of the
files. This holds for every session at any time, and whatever the client does and in whatever order
it and the runs move until it waits. -/
theorem sessions_analyse_given_files (settings : Settings) (name : String)
    (files : List Corpus.SourceFile) (hvalid : settings.validate = .ok ())
    (hpaths : (files.map (·.1)).Nodup) :
    (∀ session : Session, session.Reached settings →
      (session.start (Provider.ofFiles name files)).wait.2 = some (.ok ⟨name, files.length, []⟩) ∧
      (session.start (Provider.ofFiles name files)).wait.1.corpus =
        .ok (Corpus.ofSources settings files)) ∧
    ∀ (system : System) (place : Nat) (run : Run), Reachable settings system →
      system.client = .waiting place → system.runs[place]? = some run →
      run.provider = Provider.ofFiles name files →
      SucceedsWith system place ⟨name, files.length, []⟩ (Corpus.ofSources settings files) := by
  have hanalysis := Answers.analysis_ofFiles name hvalid hpaths
  constructor
  · intro session hreached
    obtain ⟨htold, hshown⟩ := (hreached.start (Provider.ofFiles name files)).wait_as_due rfl
      (Answers.provider_ofFiles name files).symm rfl
    rw [Answers.outcome_ofFiles name hvalid hpaths] at htold
    rw [hanalysis] at hshown
    exact ⟨htold, Session.corpus_eq_ok_iff.mpr hshown⟩
  · intro system place run hreach hclient hrun hprovider
    rw [← Answers.provider_ofFiles] at hprovider
    have hsucceeds := hreach.succeedsWith hclient hrun hprovider hanalysis
    rwa [Corpus.size_ofSources] at hsucceeds

/-- Files of which two declare types of the same name, in different folders. -/
def namesakeFiles : List Corpus.SourceFile :=
  [("a/S.java", "class S { T t; }"), ("b/S.java", "class S {}"), ("T.java", "class T {}")]

/-- The settings of a user who wants files to be analysed at the same time. -/
def sideBySide : Settings :=
  { Settings.standard with parallel := true }

/-- The moves of a client that starts a run over these files and waits for it at once. -/
def namesakeMoves : List Move :=
  .request (.start (Provider.ofFiles "given" namesakeFiles)) ::
    (List.replicate 5 .proceed ++ [.request .wait])

/-- Files with namesakes are all analysed, also in a session that has to stop a run which hangs. -/
theorem sessions_analyse_given_files_namesakes :
    sideBySide.validate = .ok () ∧ (namesakeFiles.map (·.1)).Nodup ∧
    (((Session.new sideBySide).start default).start
      (Provider.ofFiles "given" namesakeFiles)).wait.2 =
      some (.ok ⟨"given", 3, []⟩) ∧
    (((Session.new sideBySide).start default).start
      (Provider.ofFiles "given" namesakeFiles)).wait.1.corpus =
      .ok (Corpus.ofSources sideBySide namesakeFiles) ∧
    ∃ system, moves namesakeMoves (new sideBySide) = some system ∧
      SucceedsWith system 0 ⟨"given", 3, []⟩ (Corpus.ofSources sideBySide namesakeFiles) := by
  have hvalid : sideBySide.validate = .ok () := rfl
  have hpaths : (namesakeFiles.map (·.1)).Nodup := by decide
  have hmoves : ∃ system run, moves namesakeMoves (new sideBySide) = some system ∧
      system.client = .waiting 0 ∧ system.runs[0]? = some run ∧
      run.provider = Provider.ofFiles "given" namesakeFiles := ⟨_, _, rfl, rfl, rfl, rfl⟩
  obtain ⟨system, run, hsystem, hclient, hrun, hprovider⟩ := hmoves
  obtain ⟨hsessions, hsystems⟩ :=
    sessions_analyse_given_files sideBySide "given" namesakeFiles hvalid hpaths
  obtain ⟨htold, hcorpus⟩ := hsessions _ (.start default .new)
  refine ⟨hvalid, hpaths, htold, hcorpus, system, hsystem, ?_⟩
  exact hsystems system 0 run (steps_of_moves hsystem) hclient hrun hprovider

end System

end ClassAtlas
