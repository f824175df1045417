import ClassAtlas.Proofs.RelationTargets
import ClassAtlas.Proofs.Session.Coherence

/-!
# How an undisturbed run ends

What becomes of a run that nobody stops is settled by its settings and by what its provider answers.
This file says what is due without running anything: the first thing that goes wrong, or else the
corpus of the files that were fetched and the paths of those that were not. Every run that is not
asked to stop ends as due, whatever the client and other runs do in the meantime, and the session
shows the corpus that is due, or none.
-/

namespace ClassAtlas

/-- A corpus has an entity for every file. -/
theorem Corpus.size_ofSources (settings : Settings) (files : List Corpus.SourceFile) :
    (Corpus.ofSources settings files).size = files.length := by
  simp [Corpus.size, Corpus.ofSources, Corpus.ofEntities, Corpus.link_eq, Corpus.analyse]

namespace Provider

/-- Every listed file is either gathered or skipped. -/
theorem length_readable_add_length_unreadable (provider : Provider) (paths : List String) :
    (provider.readable paths).length + (provider.unreadable paths).length = paths.length := by
  induction paths with
  | nil => rfl
  | cons path rest ih =>
    cases htext : provider.text? path <;>
      simp [readable, unreadable, htext] at ih ⊢ <;> omega

end Provider

/-! ## What is due -/

/-- What a provider has to say that answers every request. -/
structure Answers where
  name : String
  listing : Except Failure (List String)
  fetch : String → Except Failure String

namespace Answers

variable (answers : Answers)

/-- The provider that gives these answers. -/
def provider : Provider where
  name := answers.name
  listing := .answer answers.listing
  fetch path := .answer (answers.fetch path)

/-- The provider that gives the answers has their name. -/
@[simp] theorem provider_name : answers.provider.name = answers.name := rfl

/-- The provider answers the listing at once. -/
@[simp] theorem provider_listing : answers.provider.listing = .answer answers.listing := rfl

/-- The provider answers every request for a file at once. -/
@[simp] theorem provider_fetch (path : String) :
    answers.provider.fetch path = .answer (answers.fetch path) := rfl

/-- The failure to fetch a file, unless it concerns that file alone. -/
def fatal? (path : String) : Option Failure :=
  match answers.fetch path with
  | .ok _ => none
  | .error (.sourceFile _ _) => none
  | .error failure => some failure

/-- The first failure that concerns more than a single file. -/
def firstFatal? (paths : List String) : Option Failure :=
  paths.findSome? answers.fatal?

/-- What an analysis comes to: the corpus of the files that were fetched and the paths of all
others, or the first thing that goes wrong. -/
def analysis (settings : Settings) : Except Failure (Corpus × List String) := do
  settings.validate
  let paths ← answers.listing
  match answers.firstFatal? paths with
  | some failure => .error failure
  | none =>
    .ok (Corpus.ofSources settings (answers.provider.readable paths),
      answers.provider.unreadable paths)

/-- The outcome that a run has to come to. -/
def outcome (settings : Settings) : Outcome :=
  match answers.analysis settings with
  | .ok (corpus, skipped) => .completed ⟨answers.name, corpus.size, skipped⟩
  | .error failure => .failed failure

/-- What is left to come of an analysis that has gathered some files already. -/
def rest (settings : Settings) (remaining : List String) (fetched : List Corpus.SourceFile)
    (skipped : List String) : Except Failure (Corpus × List String) :=
  match answers.firstFatal? remaining with
  | some failure => .error failure
  | none =>
    .ok (Corpus.ofSources settings (fetched ++ answers.provider.readable remaining),
      skipped ++ answers.provider.unreadable remaining)

variable {answers} {settings : Settings}

/-- A provider that gives these answers lists what they list. -/
theorem listing_eq {provider : Provider} (hprovider : provider = answers.provider)
    {reply : Except Failure (List String)} (h : provider.listing = .answer reply) :
    answers.listing = reply := by
  rwa [hprovider, provider_listing, Reply.answer.injEq] at h

/-- A provider that gives these answers hands out what they hand out. -/
theorem fetch_eq {provider : Provider} (hprovider : provider = answers.provider) {path : String}
    {reply : Except Failure String} (h : provider.fetch path = .answer reply) :
    answers.fetch path = reply := by
  rwa [hprovider, provider_fetch, Reply.answer.injEq] at h

/-- Settings that cannot be used end an analysis. -/
theorem analysis_of_invalid {failure : Failure} (h : settings.validate = .error failure) :
    answers.analysis settings = .error failure := by
  simp only [analysis, h, bind, Except.bind]

/-- Files that cannot be listed end an analysis. -/
theorem analysis_of_unlisted {failure : Failure} (hsettings : settings.validate = .ok ())
    (h : answers.listing = .error failure) : answers.analysis settings = .error failure := by
  simp only [analysis, hsettings, h, bind, Except.bind]

/-- An analysis that has its list of files has gathered nothing yet. -/
theorem analysis_of_listed {paths : List String} (hsettings : settings.validate = .ok ())
    (h : answers.listing = .ok paths) :
    answers.analysis settings = answers.rest settings paths [] [] := by
  simp only [analysis, hsettings, h, bind, Except.bind]
  rfl

/-- An analysis that comes to a corpus has listed its files and met no failure that concerns more
than one. -/
theorem of_analysis_eq_ok {corpus : Corpus} {skipped : List String}
    (h : answers.analysis settings = .ok (corpus, skipped)) :
    ∃ paths, answers.listing = .ok paths ∧
      corpus = Corpus.ofSources settings (answers.provider.readable paths) ∧
      skipped = answers.provider.unreadable paths := by
  cases hsettings : settings.validate with
  | error failure => cases (analysis_of_invalid hsettings).symm.trans h
  | ok =>
    cases hlisting : answers.listing with
    | error failure => cases (analysis_of_unlisted hsettings hlisting).symm.trans h
    | ok paths =>
      rw [analysis_of_listed hsettings hlisting, rest] at h
      split at h <;> cases h
      exact ⟨paths, rfl, rfl, rfl⟩

variable {path : String} {remaining skipped : List String} {fetched : List Corpus.SourceFile}

/-- The provider hands out the texts that are fetched. -/
theorem text?_provider {text : String} : answers.provider.text? path = some text ↔
    answers.fetch path = .ok text := by
  cases h : answers.fetch path <;> simp [Provider.text?, h]

/-- The files that are handed out are those that are listed and fetched. -/
theorem mem_readable_provider {paths : List String} {text : String} :
    (path, text) ∈ answers.provider.readable paths ↔
      path ∈ paths ∧ answers.fetch path = .ok text := by
  simp only [Provider.readable, List.mem_filterMap, Option.map_eq_some_iff, Prod.mk.injEq,
    text?_provider]
  constructor
  · rintro ⟨_, hpath, _, hfetch, rfl, rfl⟩
    exact ⟨hpath, hfetch⟩
  · rintro ⟨hpath, hfetch⟩
    exact ⟨path, hpath, text, hfetch, rfl, rfl⟩

/-- Only files that are fetched make their names known. -/
theorem mem_typeNames_readable {paths : List String} {name : String} :
    name ∈ Corpus.typeNames ((answers.provider.readable paths).map (·.1)) ↔
      ∃ path ∈ paths, (∃ text, answers.fetch path = .ok text) ∧ Path.typeName path = name := by
  rw [Corpus.typeNames, NameSet.mem_ofList, List.mem_map]
  constructor
  · rintro ⟨path, hpath, rfl⟩
    obtain ⟨⟨_, text⟩, hfile, rfl⟩ := List.mem_map.mp hpath
    obtain ⟨hlisted, hfetch⟩ := mem_readable_provider.mp hfile
    exact ⟨_, hlisted, ⟨text, hfetch⟩, rfl⟩
  · rintro ⟨path, hlisted, ⟨text, hfetch⟩, rfl⟩
    have hfile := mem_readable_provider.mpr ⟨hlisted, hfetch⟩
    exact ⟨path, List.mem_map.mpr ⟨(path, text), hfile, rfl⟩, rfl⟩

/-- Once all files are fetched nothing is left to come. -/
theorem rest_nil : answers.rest settings [] fetched skipped =
    .ok (Corpus.ofSources settings fetched, skipped) := by
  simp [rest, firstFatal?, Provider.readable, Provider.unreadable]

/-- A file that is fetched is gathered. -/
theorem rest_of_fetched {text : String} (h : answers.fetch path = .ok text) :
    answers.rest settings (path :: remaining) fetched skipped =
      answers.rest settings remaining (fetched ++ [(path, text)]) skipped := by
  have hfatal : answers.fatal? path = none := by simp [fatal?, h]
  have htext : answers.provider.text? path = some text := text?_provider.mpr h
  simp [rest, firstFatal?, hfatal, Provider.readable, Provider.unreadable, htext]

/-- A file that cannot be read is skipped. -/
theorem rest_of_skipped {failure : Failure} (h : answers.fetch path = .error failure)
    (hsingle : failure.isFatal = false) :
    answers.rest settings (path :: remaining) fetched skipped =
      answers.rest settings remaining fetched (skipped ++ [path]) := by
  have hfatal : answers.fatal? path = none := by
    cases failure <;> cases hsingle
    simp [fatal?, h]
  have htext : answers.provider.text? path = none := by simp [Provider.text?, h]
  simp [rest, firstFatal?, hfatal, Provider.readable, Provider.unreadable, htext]

/-- A failure that concerns more than a single file ends the analysis. -/
theorem rest_of_fatal {failure : Failure} (h : answers.fetch path = .error failure)
    (hall : failure.isFatal = true) :
    answers.rest settings (path :: remaining) fetched skipped = .error failure := by
  have hfatal : answers.fatal? path = some failure := by
    cases failure with
    | sourceFile path fault => cases hall
    | _ => simp [fatal?, h]
  simp [rest, firstFatal?, hfatal]

end Answers

/-! ## Staying on course -/

namespace Run

/-- The run heads for what is due: what it has gathered and what is left make up the analysis, and
whatever it tells is the outcome that is due. -/
def OnCourse (run : Run) (answers : Answers) : Prop :=
  match run.phase with
  | .fetching remaining fetched skipped =>
    answers.analysis run.settings = answers.rest run.settings remaining fetched skipped
  | .publishing corpus skipped => answers.analysis run.settings = .ok (corpus, skipped)
  | .reporting summary => answers.outcome run.settings = .completed summary
  | .announcingStatus summary => answers.outcome run.settings = .completed summary
  | .announcingReady summary => answers.outcome run.settings = .completed summary
  | .failing failure => answers.outcome run.settings = .failed failure
  | .reportingFailure failure => answers.outcome run.settings = .failed failure
  | .announcingFailure failure => answers.outcome run.settings = .failed failure
  | .finished outcome => answers.outcome run.settings = outcome
  | _ => True

variable {run : Run} {answers : Answers}

/-- A failure that is due keeps the run on course. -/
theorem onCourse_afterFailure {failure : Failure}
    (h : answers.analysis run.settings = .error failure) :
    { run with phase := afterFailure failure }.OnCourse answers := by
  have houtcome : answers.outcome run.settings = .failed failure := by
    simp only [Answers.outcome, h]
  unfold afterFailure
  split
  · rename_i hcancelled
    exact hcancelled ▸ houtcome
  · exact houtcome

/-- **A run that is not asked to stop stays on course** with every step. -/
theorem OnCourse.step {shared shared' : Shared} {phase : Phase} (hrun : run.OnCourse answers)
    (hprovider : run.provider = answers.provider) (hwanted : run.cancelled = false)
    (h : run.step shared = some (phase, shared')) : { run with phase }.OnCourse answers := by
  have hstop : run.cancelled ≠ true := by simp [hwanted]
  cases transition_of_step h with
  | begin => trivial
  | tellFetch => trivial
  | reject _ hsettings => exact onCourse_afterFailure (Answers.analysis_of_invalid hsettings)
  | stopListing _ _ hcancelled => exact absurd hcancelled hstop
  | crashListing _ _ _ hlisting => rw [hprovider] at hlisting; cases hlisting
  | failListing _ hsettings _ hlisting =>
    exact onCourse_afterFailure
      (Answers.analysis_of_unlisted hsettings (Answers.listing_eq hprovider hlisting))
  | list _ hsettings _ hlisting =>
    exact Answers.analysis_of_listed hsettings (Answers.listing_eq hprovider hlisting)
  | stopFetching _ hcancelled => exact absurd hcancelled hstop
  | crashFetching _ _ hfetch => rw [hprovider] at hfetch; cases hfetch
  | failFetching hphase _ hfetch hfatal =>
    simp only [OnCourse, hphase] at hrun
    exact onCourse_afterFailure
      (hrun.trans (Answers.rest_of_fatal (Answers.fetch_eq hprovider hfetch) hfatal))
  | gather hphase _ hfetch =>
    simp only [OnCourse, hphase] at hrun
    exact hrun.trans (Answers.rest_of_fetched (Answers.fetch_eq hprovider hfetch))
  | skip hphase _ hfetch hfatal =>
    simp only [OnCourse, hphase] at hrun
    exact hrun.trans (Answers.rest_of_skipped (Answers.fetch_eq hprovider hfetch) hfatal)
  | analyse hphase =>
    simp only [OnCourse, hphase] at hrun
    exact hrun.trans Answers.rest_nil
  | stopPublishing _ hcancelled => exact absurd hcancelled hstop
  | publish hphase =>
    simp only [OnCourse, hphase] at hrun
    simp only [OnCourse, Answers.outcome, hrun, hprovider, Answers.provider_name]
  | report hphase => simp only [OnCourse, hphase] at hrun; exact hrun
  | tellStatus hphase => simp only [OnCourse, hphase] at hrun; exact hrun
  | tellReady hphase => simp only [OnCourse, hphase] at hrun; exact hrun
  | endLoading hphase => simp only [OnCourse, hphase] at hrun; exact hrun
  | reportFailure hphase => simp only [OnCourse, hphase] at hrun; exact hrun
  | tellFailure hphase => simp only [OnCourse, hphase] at hrun; exact hrun

/-- The listing of a provider that answers does not hold a run up. -/
theorem afterListing_ne_none (hprovider : run.provider = answers.provider) :
    run.afterListing ≠ none := by
  unfold afterListing
  rw [hprovider, Answers.provider_listing]
  cases run.settings.validate <;> cases run.cancelled <;> cases answers.listing <;> simp

/-- The fetch of a file from a provider that answers does not hold a run up. -/
theorem afterFetching_ne_none (hprovider : run.provider = answers.provider) (path : String)
    (remaining : List String) (fetched : List Corpus.SourceFile) (skipped : List String) :
    run.afterFetching path remaining fetched skipped ≠ none := by
  unfold afterFetching
  rw [hprovider, Answers.provider_fetch]
  cases run.cancelled with
  | true => simp
  | false =>
    cases answers.fetch path with
    | ok text => simp
    | error failure => cases hfatal : failure.isFatal <;> simp [hfatal]

/-- A run whose provider answers every request is not held up. -/
theorem outcome?_ne_none_of_answered {shared : Shared} (hprovider : run.provider = answers.provider)
    (hrest : run.step shared = none) : run.outcome? ≠ none := by
  obtain ⟨provider, settings, cancelled, now⟩ := run
  cases now with
  | listing => exact absurd (Option.map_eq_none_iff.mp hrest) (afterListing_ne_none hprovider)
  | fetching remaining fetched skipped =>
    cases remaining with
    | nil => cases hrest
    | cons path remaining =>
      exact absurd (Option.map_eq_none_iff.mp hrest) (afterFetching_ne_none hprovider _ _ _ _)
  | publishing corpus skipped => cases cancelled <;> cases hrest
  | finished outcome => exact Option.some_ne_none outcome
  | _ => cases hrest

/-- A run keeps its provider when it is given time. -/
theorem provider_settle (run : Run) (shared : Shared) :
    (run.settle shared).1.provider = run.provider := by
  obtain ⟨phase, hphase⟩ := advance_kept (stepBound run.provider) run shared
  rw [settle, hphase]

/-- A run keeps its settings when it is given time. -/
theorem settings_settle (run : Run) (shared : Shared) :
    (run.settle shared).1.settings = run.settings := by
  obtain ⟨phase, hphase⟩ := advance_kept (stepBound run.provider) run shared
  rw [settle, hphase]

/-- Giving time to a run does not ask it to stop. -/
theorem cancelled_settle (run : Run) (shared : Shared) :
    (run.settle shared).1.cancelled = run.cancelled := by
  obtain ⟨phase, hphase⟩ := advance_kept (stepBound run.provider) run shared
  rw [settle, hphase]

/-- A run whose provider answers every request ends when it is given time. -/
theorem Faithful.settle_answered (h : run.Faithful) (hprovider : run.provider = answers.provider)
    (shared : Shared) : (run.settle shared).1.outcome? ≠ none :=
  outcome?_ne_none_of_answered ((run.provider_settle shared).trans hprovider)
    (h.settle_at_rest shared)

/-- A run on course ends as due. -/
theorem OnCourse.outcome_eq (h : run.OnCourse answers) {outcome : Outcome}
    (hend : run.outcome? = some outcome) :
    outcome = answers.outcome run.settings := by
  obtain ⟨provider, settings, cancelled, phase⟩ := run
  cases phase <;> cases hend
  exact h.symm

/-- A run on course publishes only what is due. -/
theorem OnCourse.outcome_of_published (h : run.OnCourse answers) {summary : Summary}
    (hpublished : run.published? = some summary) :
    answers.outcome run.settings = .completed summary := by
  obtain ⟨provider, settings, cancelled, phase⟩ := run
  cases phase with
  | reporting told => cases hpublished; exact h
  | announcingStatus told => cases hpublished; exact h
  | announcingReady told => cases hpublished; exact h
  | finished outcome =>
    cases outcome with
    | completed told => cases hpublished; exact h
    | _ => cases hpublished
  | _ => cases hpublished

end Run

/-! ## Runs of a session -/

/-- The snapshot shows what an analysis has come to: its corpus, or nothing. -/
def Snapshot.ShowsResult (snapshot : Snapshot) : Except Failure (Corpus × List String) → Prop
  | .ok (corpus, _) => snapshot.corpus = some corpus ∧ snapshot.ready = true
  | .error _ => snapshot.corpus = none ∧ snapshot.ready = false

namespace System

variable {settings : Settings} {system : System}

/-- What holds of all runs, and of one after it has changed, holds of all runs after the change. -/
theorem forall_mem_modify {Holds : Run → Prop} {runs : List Run} (h : ∀ run ∈ runs, Holds run)
    {place : Nat} {change : Run → Run}
    (hchange : ∀ run, runs[place]? = some run → Holds (change run)) :
    ∀ run ∈ runs.modify place change, Holds run := by
  intro run hrun
  obtain ⟨other, hother⟩ := List.mem_iff_getElem?.mp hrun
  obtain ⟨before, hbefore, rfl⟩ := getElem?_modify_runs hother
  split
  · rename_i hplace
    exact hchange before (hplace ▸ hbefore)
  · exact h before (List.mem_iff_getElem?.mpr ⟨other, hbefore⟩)

/-- What holds of all runs and of a new one, and what a run keeps with every step and when it is
asked to stop, holds of all runs after a move. -/
theorem forall_runs_of_step {before after : System} {move : Move}
    (hmove : before.step move = some after) {Holds : Run → Prop}
    (hstart : ∀ provider, Holds (Run.start before.settings provider))
    (hcancel : ∀ run, Holds run → Holds run.cancel)
    (hstep : ∀ run shared phase shared', Holds run → Run.step run shared = some (phase, shared') →
      Holds { run with phase })
    (hruns : ∀ run ∈ before.runs, Holds run) : ∀ run ∈ after.runs, Holds run := by
  cases move with
  | request request =>
    cases (accepts_of_request hmove).2 with
    | stopRun =>
      refine forall_mem_modify hruns fun run hrun => hcancel run (hruns run ?_)
      exact List.mem_iff_getElem?.mpr ⟨_, hrun⟩
    | _ => exact hruns
  | proceed =>
    cases proceeds_of_proceed hmove with
    | spawn =>
      intro run hrun
      rcases List.mem_append.mp hrun with hold | hnew
      · exact hruns run hold
      · rw [List.mem_singleton.mp hnew]
        exact hstart _
    | _ => exact hruns
  | work place =>
    obtain ⟨run, phase, shared, hrun, hwork, rfl⟩ := exists_of_work hmove
    refine forall_mem_modify hruns fun other hother => ?_
    cases hrun.symm.trans hother
    exact hstep run _ phase shared (hruns run (List.mem_iff_getElem?.mpr ⟨place, hrun⟩)) hwork

/-- **What a run has from its start and keeps** with every step, and when it is asked to stop, holds
of all runs at any time. -/
theorem Reachable.forall_runs (h : Reachable settings system) (Holds : Run → Prop)
    (hstart : ∀ provider, Holds (Run.start settings provider))
    (hcancel : ∀ run, Holds run → Holds run.cancel)
    (hstep : ∀ run shared phase shared', Holds run → Run.step run shared = some (phase, shared') →
      Holds { run with phase }) :
    ∀ run ∈ system.runs, Holds run := by
  refine h.keeps (fun hreach hruns hmove => forall_runs_of_step hmove ?_ hcancel hstep hruns) ?_
  · rw [hreach.supervised.settings_eq]
    exact hstart
  · exact fun run hrun => absurd hrun List.not_mem_nil

variable {answers : Answers} {place : Nat} {run : Run}

/-- A run that is not asked to stop is on course, with the settings of the session. -/
theorem Reachable.onCourse (h : Reachable settings system) (hrun : system.runs[place]? = some run)
    (hprovider : run.provider = answers.provider) (hwanted : run.cancelled = false) :
    run.settings = settings ∧ run.OnCourse answers := by
  have hmem : run ∈ system.runs := List.mem_iff_getElem?.mpr ⟨place, hrun⟩
  refine ⟨(h.supervised.faithful run hmem).2, ?_⟩
  refine h.forall_runs (fun run => run.provider = answers.provider → run.cancelled = false →
    run.OnCourse answers) ?_ ?_ ?_ run hmem hprovider hwanted
  · intro provider _ _
    trivial
  · intro run _ _ hcancelled
    cases hcancelled
  · intro run shared phase shared' hcourse hstep hprovider hwanted
    exact (hcourse hprovider hwanted).step hprovider hwanted hstep

/-- A run that is not asked to stop has the outcome that is due, once it has one. -/
theorem Reachable.outcome_due (h : Reachable settings system)
    (hrun : system.runs[place]? = some run) (hprovider : run.provider = answers.provider)
    (hwanted : run.cancelled = false) {outcome : Outcome}
    (hend : run.outcome? = some outcome) : outcome = answers.outcome settings := by
  obtain ⟨hsettings, hcourse⟩ := h.onCourse hrun hprovider hwanted
  rw [← hsettings]
  exact hcourse.outcome_eq hend

/-- The run at a place, whose provider gives the answers, ends as due. It is never held up, and it
comes to its end when it is left alone. However its client and other runs move, its outcome is the
one that is due. Once it has ended, the session shows what is due for as long as the client holds on
to the run. If a failure is due, the run never publishes anything. -/
structure EndsAsDue (settings : Settings) (system : System) (place : Nat) (run : Run)
    (answers : Answers) :
    Prop where
  goes_on : run.outcome? = none → ∃ after, system.step (.work place) = some after
  ends : (run.settle system.shared).1.outcome? = some (answers.outcome settings)
  outcome_eq : ∀ outcome, run.outcome? = some outcome → outcome = answers.outcome settings
  shown : run.outcome? ≠ none → system.watched = some place →
    system.shared.snapshot.ShowsResult (answers.analysis settings)
  unpublished : ∀ failure, answers.analysis settings = .error failure →
      place + 1 = system.runs.length →
    system.shared.snapshot.ShowsResult (.error failure)

/-- If a failure is due, the latest run publishes nothing. -/
theorem Reachable.showsFailure (h : Reachable settings system)
    (hrun : system.runs[place]? = some run) (hprovider : run.provider = answers.provider)
    (hwanted : run.cancelled = false)
    (hlatest : place + 1 = system.runs.length) {failure : Failure}
    (hfailure : answers.analysis settings = .error failure) :
    system.shared.snapshot.ShowsResult (.error failure) := by
  obtain ⟨hsettings, hcourse⟩ := h.onCourse hrun hprovider hwanted
  have hunpublished : run.published? = none := by
    cases hpublished : run.published? with
    | none => rfl
    | some summary =>
      have hdue := hcourse.outcome_of_published hpublished
      simp only [Answers.outcome, hsettings, hfailure] at hdue
      cases hdue
  have hnone := h.coherent.unpublished hlatest hrun hunpublished
  exact ⟨hnone, h.coherent.snapshot.ready_eq_false hnone⟩

/-- If a corpus is due, a run that has ended has published it, and it stays as long as the client
holds on to the run. -/
theorem Reachable.showsCorpus (h : Reachable settings system)
    (hrun : system.runs[place]? = some run) (hprovider : run.provider = answers.provider)
    (hwanted : run.cancelled = false)
    (hend : run.outcome? ≠ none) (hwatched : system.watched = some place)
    {corpus : Corpus} {skipped : List String}
    (hcorpus : answers.analysis settings = .ok (corpus, skipped)) :
    system.shared.snapshot.ShowsResult (.ok (corpus, skipped)) := by
  have hsupervised := h.supervised
  obtain ⟨hsettings, _⟩ := h.onCourse hrun hprovider hwanted
  obtain ⟨outcome, houtcome⟩ := Option.ne_none_iff_exists'.mp hend
  have hdue := h.outcome_due hrun hprovider hwanted houtcome
  simp only [Answers.outcome, hcorpus] at hdue
  have hpublished := Run.published?_of_completed (hdue ▸ houtcome)
  obtain ⟨shown, hshown, _⟩ := h.coherent.watched_shown hwatched hrun hpublished
  -- The corpus that is shown comes of the latest run, which is this one.
  obtain ⟨latest, _, hlast, paths, hpaths, heq, _⟩ := hsupervised.corpus_latest hshown
  have hsame : latest = run := by
    rw [List.getLast?_eq_getElem?, ← hsupervised.watched_latest hwatched] at hlast
    exact Option.some.inj (hlast.symm.trans hrun)
  obtain ⟨listed, hlisted, hcorpusDue, _⟩ := Answers.of_analysis_eq_ok hcorpus
  rw [hsame, hprovider, Answers.provider_listing, hlisted] at hpaths
  cases hpaths
  rw [hsame, hprovider, hsettings, ← hcorpusDue] at heq
  rw [heq] at hshown
  exact ⟨hshown, h.coherent.snapshot.ready_iff.mpr ⟨corpus, hshown⟩⟩

/-- What comes of a run that is left alone can be reached. -/
theorem Reachable.settle (h : Reachable settings system) (hrun : system.runs[place]? = some run) :
    ∃ later, Reachable settings later ∧ later.runs[place]? = some (run.settle system.shared).1 ∧
      later.shared = (run.settle system.shared).2 ∧ later.watched = system.watched := by
  obtain ⟨hplace, _⟩ := List.getElem?_eq_some_iff.mp hrun
  exact ⟨_, Relation.ReflTransGen.trans h (steps_settle hrun),
    List.getElem?_set_self hplace, rfl, rfl⟩

/-- **A run that is not asked to stop ends as due.** -/
theorem Reachable.endsAsDue (h : Reachable settings system) (hrun : system.runs[place]? = some run)
    (hprovider : run.provider = answers.provider) (hwanted : run.cancelled = false) :
    EndsAsDue settings system place run answers := by
  constructor
  case goes_on =>
    intro hgoing
    cases hstep : run.step system.shared with
    | none => exact absurd hgoing (Run.outcome?_ne_none_of_answered hprovider hstep)
    | some next => exact ⟨_, by rw [System.step, System.work, hrun, Option.bind_some, hstep]; rfl⟩
  case ends =>
    obtain ⟨hfaithful, _⟩ := h.supervised.faithful run (List.mem_iff_getElem?.mpr ⟨place, hrun⟩)
    obtain ⟨outcome, houtcome⟩ := Option.ne_none_iff_exists'.mp
      (hfaithful.settle_answered hprovider system.shared)
    obtain ⟨later, hlater, hthere, _⟩ := h.settle hrun
    rw [houtcome, hlater.outcome_due hthere ((run.provider_settle _).trans hprovider)
      ((run.cancelled_settle _).trans hwanted) houtcome]
  case outcome_eq => exact fun outcome => h.outcome_due hrun hprovider hwanted
  case shown =>
    intro hend hwatched
    cases hdue : answers.analysis settings with
    | error failure =>
      exact h.showsFailure hrun hprovider hwanted (h.supervised.watched_latest hwatched) hdue
    | ok result => exact h.showsCorpus hrun hprovider hwanted hend hwatched hdue
  case unpublished =>
    intro failure hfailure hlatest
    exact h.showsFailure hrun hprovider hwanted hlatest hfailure

end System

/-! ## What the client learns -/

/-- Waiting gives time to the run and leaves the observable state alone otherwise. -/
theorem Session.snapshot_wait {session : Session} {run : Run} (hrun : session.run = some run) :
    session.wait.1.snapshot = (run.settle session.shared).2.snapshot := by
  unfold Session.wait
  simp only [Session.settle, hrun]
  cases (run.settle session.shared).1.outcome? <;> rfl

/-- A client that waits for a run is told what is due, and the session shows it. -/
theorem Session.Reached.wait_as_due {settings : Settings} {session : Session}
    (h : session.Reached settings) {answers : Answers} {run : Run} (hrun : session.run = some run)
    (hprovider : run.provider = answers.provider) (hwanted : run.cancelled = false) :
    session.wait.2 = some (Session.resultOf (answers.outcome settings)) ∧
      session.wait.1.snapshot.ShowsResult (answers.analysis settings) := by
  obtain ⟨system, hreach, hclient, rfl⟩ := System.reachable_of_reached h
  obtain ⟨place, hhandle, hplace⟩ := Option.bind_eq_some_iff.mp hrun
  have hends := (hreach.endsAsDue hplace hprovider hwanted).ends
  have hwait : system.session.wait = (system.session.settle.collect (answers.outcome settings),
      some (Session.resultOf (answers.outcome settings))) := by
    have hshared : system.session.shared = system.shared := rfl
    simp [Session.wait, Session.settle, hrun, hshared, hends]
  have hsnapshot : system.session.wait.1.snapshot = (run.settle system.shared).2.snapshot :=
    Session.snapshot_wait hrun
  have hwatched : system.watched = some place := by
    simp [System.watched, hclient, Client.awaited, hhandle]
  obtain ⟨later, hlater, hsettled, hshared, hsame⟩ := hreach.settle hplace
  have hdue := hlater.endsAsDue hsettled ((run.provider_settle _).trans hprovider)
    ((run.cancelled_settle _).trans hwanted)
  refine ⟨by rw [hwait], ?_⟩
  rw [hsnapshot, ← hshared]
  exact hdue.shown (by simp [hends]) (hsame.trans hwatched)

namespace System

/-- **A run that is not asked to stop ends as due**, whatever its provider answers and however the
session goes on meanwhile. In every state that the session can come to, the run can go on, and its
outcome and what it publishes are determined by the settings and the answers alone. A client that
waits for it is told so. If a corpus is due, its entities and the skipped files together are as many
as were listed, and only files that were fetched make their names known. -/
theorem undisturbed_runs_end_as_due (answers : Answers) (settings : Settings) :
    (∀ (system : System) (place : Nat) (run : Run), Reachable settings system →
      system.runs[place]? = some run → run.provider = answers.provider → run.cancelled = false →
      EndsAsDue settings system place run answers) ∧
    (∀ (session : Session) (run : Run), session.Reached settings → session.run = some run →
      run.provider = answers.provider → run.cancelled = false →
      session.wait.2 = some (Session.resultOf (answers.outcome settings)) ∧
        session.wait.1.snapshot.ShowsResult (answers.analysis settings)) ∧
    (∀ corpus skipped, answers.analysis settings = .ok (corpus, skipped) →
      ∃ paths, answers.listing = .ok paths ∧ corpus.size + skipped.length = paths.length ∧
        ∀ name, corpus.Declares name ↔
          ∃ path ∈ paths, (∃ text, answers.fetch path = .ok text) ∧ Path.typeName path = name) := by
  refine ⟨?_, ?_, ?_⟩
  · intro system place run hreach hrun hprovider hwanted
    exact hreach.endsAsDue hrun hprovider hwanted
  · intro session run hreached hrun hprovider hwanted
    exact hreached.wait_as_due hrun hprovider hwanted
  · intro corpus skipped hdue
    obtain ⟨paths, hlisting, rfl, rfl⟩ := Answers.of_analysis_eq_ok hdue
    refine ⟨paths, hlisting, ?_, fun name => ?_⟩
    · rw [Corpus.size_ofSources]
      exact Provider.length_readable_add_length_unreadable _ paths
    · rw [Corpus.declares_ofSources]
      exact Answers.mem_typeNames_readable

/-- Answers that list two files, of which the second one cannot be read. The first one refers to its
type. -/
def patchy : Answers where
  name := "patchy"
  listing := .ok ["A.java", "B.java"]
  fetch path :=
    if path = "A.java" then .ok "class A { B b; }" else .error (.sourceFile path .missing)

/-- A run that skips a file ends as due, and the type of that file is not known. -/
theorem undisturbed_runs_end_as_due_patchy :
    (∃ system run,
      moves (.request (.start patchy.provider) :: List.replicate 5 .proceed) (new .standard) =
        some system ∧ system.runs[0]? = some run ∧ EndsAsDue .standard system 0 run patchy) ∧
    ((Session.new .standard).start patchy.provider).wait.2 =
      some (Session.resultOf (patchy.outcome .standard)) ∧
    ∃ corpus, patchy.analysis .standard = .ok (corpus, ["B.java"]) ∧ corpus.size = 1 ∧
      ¬ corpus.Declares "B" := by
  have hmoves : ∃ system run, moves (.request (.start patchy.provider) :: List.replicate 5 .proceed)
      (new .standard) = some system ∧ system.runs[0]? = some run ∧ run.provider = patchy.provider ∧
      run.cancelled = false := ⟨_, _, rfl, rfl, rfl, rfl⟩
  have hanalysis : ∃ corpus, patchy.analysis .standard = .ok (corpus, ["B.java"]) := ⟨_, rfl⟩
  obtain ⟨system, run, hsystem, hrun, hprovider, hwanted⟩ := hmoves
  obtain ⟨corpus, hcorpus⟩ := hanalysis
  obtain ⟨hsystems, hsessions, hresults⟩ := undisturbed_runs_end_as_due patchy .standard
  obtain ⟨paths, hlisting, hcount, hknown⟩ := hresults corpus ["B.java"] hcorpus
  cases hlisting
  refine ⟨⟨system, run, hsystem, hrun, ?_⟩, ?_, corpus, hcorpus, ?_, ?_⟩
  · exact hsystems system 0 run (steps_of_moves hsystem) hrun hprovider hwanted
  · exact (hsessions _ _ (.start _ .new) rfl rfl rfl).1
  · simpa using hcount
  · rw [hknown]
    simp only [List.mem_cons, List.not_mem_nil, or_false, not_exists, not_and]
    rintro path (rfl | rfl) ⟨text, htext⟩
    · decide +kernel
    · cases htext

end System

end ClassAtlas
