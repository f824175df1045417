import ClassAtlas.Session.Run

/-!
# What a single run can do

A run gathers files from its provider and finally makes a corpus of them. This file lists the
transitions of a run once, and the invariants of runs go by their cases. It says what the provider
offers independently of any run, proves that whatever a run has gathered agrees with it in every
phase, and bounds what a step can do to the state that the run shares with the client.
-/

namespace ClassAtlas

/-! ## What a provider offers -/

namespace Provider

/-- The provider hands out the text of the file. -/
def text? (provider : Provider) (path : String) : Option String :=
  match provider.fetch path with
  | .answer (.ok text) => some text
  | _ => none

/-- The files at the given paths that the provider hands out, with their texts. -/
def readable (provider : Provider) (paths : List String) : List Corpus.SourceFile :=
  paths.filterMap fun path => (provider.text? path).map fun text => (path, text)

/-- The paths of the files that the provider does not hand out. -/
def unreadable (provider : Provider) (paths : List String) : List String :=
  paths.filter fun path => (provider.text? path).isNone

end Provider

namespace Run

/-! ## Transitions -/

/-- One step of a run: the next phase, and what the step makes of the shared state. -/
inductive Transition (run : Run) (shared : Shared) : Phase → Shared → Prop
  | begin (hphase : run.phase = .created) :
      Transition run shared .announcingFetch (shared.setStatus fetchingStatus)
  | tellFetch (hphase : run.phase = .announcingFetch) :
      Transition run shared .listing (shared.emit (.status fetchingStatus))
  | reject {failure : Failure} (hphase : run.phase = .listing)
      (hsettings : run.settings.validate = .error failure) :
      Transition run shared (afterFailure failure) shared
  | stopListing (hphase : run.phase = .listing) (hsettings : run.settings.validate = .ok ())
      (hcancelled : run.cancelled = true) :
      Transition run shared (.finished (.failed .cancelled)) shared
  | crashListing (hphase : run.phase = .listing) (hsettings : run.settings.validate = .ok ())
      (hwanted : run.cancelled = false) (hlisting : run.provider.listing = .crash) :
      Transition run shared (.finished .crashed) shared
  | failListing {failure : Failure} (hphase : run.phase = .listing)
      (hsettings : run.settings.validate = .ok ()) (hwanted : run.cancelled = false)
      (hlisting : run.provider.listing = .answer (.error failure)) :
      Transition run shared (afterFailure failure) shared
  | list {paths : List String} (hphase : run.phase = .listing)
      (hsettings : run.settings.validate = .ok ()) (hwanted : run.cancelled = false)
      (hlisting : run.provider.listing = .answer (.ok paths)) :
      Transition run shared (.fetching paths [] []) shared
  | stopFetching {remaining skipped : List String} {fetched : List Corpus.SourceFile}
      (hphase : run.phase = .fetching remaining fetched skipped)
      (hcancelled : run.cancelled = true) :
      Transition run shared (.finished (.failed .cancelled)) shared
  | crashFetching {path : String} {remaining skipped : List String} {fetched :
    List Corpus.SourceFile}
      (hphase : run.phase = .fetching (path :: remaining) fetched skipped)
      (hwanted : run.cancelled = false) (hfetch : run.provider.fetch path = .crash) :
      Transition run shared (.finished .crashed) shared
  | failFetching {path : String} {remaining skipped : List String} {fetched :
    List Corpus.SourceFile}
      {failure : Failure} (hphase : run.phase = .fetching (path :: remaining) fetched skipped)
      (hwanted : run.cancelled = false)
      (hfetch : run.provider.fetch path = .answer (.error failure))
      (hfatal : failure.isFatal = true) :
      Transition run shared (afterFailure failure) shared
  | gather {path text : String} {remaining skipped : List String} {fetched : List Corpus.SourceFile}
      (hphase : run.phase = .fetching (path :: remaining) fetched skipped)
      (hwanted : run.cancelled = false) (hfetch : run.provider.fetch path = .answer (.ok text)) :
      Transition run shared (.fetching remaining (fetched ++ [(path, text)]) skipped) shared
  | skip {path : String} {remaining skipped : List String} {fetched : List Corpus.SourceFile}
      {failure : Failure} (hphase : run.phase = .fetching (path :: remaining) fetched skipped)
      (hwanted : run.cancelled = false)
      (hfetch : run.provider.fetch path = .answer (.error failure))
      (hfatal : failure.isFatal = false) :
      Transition run shared (.fetching remaining fetched (skipped ++ [path])) shared
  | analyse {skipped : List String} {fetched : List Corpus.SourceFile}
      (hphase : run.phase = .fetching [] fetched skipped) (hwanted : run.cancelled = false) :
      Transition run shared (.publishing (Corpus.ofSources run.settings fetched) skipped) shared
  | stopPublishing {corpus : Corpus} {skipped : List String}
      (hphase : run.phase = .publishing corpus skipped) (hcancelled : run.cancelled = true) :
      Transition run shared (.finished (.failed .cancelled)) shared
  | publish {corpus : Corpus} {skipped : List String}
    (hphase : run.phase = .publishing corpus skipped)
      (hwanted : run.cancelled = false) :
      Transition run shared (.reporting ⟨run.provider.name, corpus.size, skipped⟩)
        (shared.publish corpus)
  | report {summary : Summary} (hphase : run.phase = .reporting summary) :
      Transition run shared (.announcingStatus summary) (shared.setStatus summary.status)
  | tellStatus {summary : Summary} (hphase : run.phase = .announcingStatus summary) :
      Transition run shared (.announcingReady summary) (shared.emit (.status summary.status))
  | tellReady {summary : Summary} (hphase : run.phase = .announcingReady summary) :
      Transition run shared (.finished (.completed summary))
        (shared.emit (.ready summary.entities summary.skipped.length))
  | endLoading {failure : Failure} (hphase : run.phase = .failing failure) :
      Transition run shared (.reportingFailure failure) (shared.setLoading false)
  | reportFailure {failure : Failure} (hphase : run.phase = .reportingFailure failure) :
      Transition run shared (.announcingFailure failure) (shared.setStatus failure.status)
  | tellFailure {failure : Failure} (hphase : run.phase = .announcingFailure failure) :
      Transition run shared (.finished (.failed failure)) (shared.emit (.status failure.status))

/-- What can follow on the listing. -/
theorem transition_of_afterListing {run : Run} {shared : Shared} {phase : Phase}
    (hphase : run.phase = .listing) (h : run.afterListing = some phase) :
    run.Transition shared phase shared := by
  unfold afterListing at h
  split at h
  · rename_i hsettings
    cases h
    exact .reject hphase hsettings
  · rename_i hsettings
    split at h
    · rename_i hcancelled
      cases h
      exact .stopListing hphase hsettings hcancelled
    · rename_i hwanted
      rw [Bool.not_eq_true] at hwanted
      split at h
      · cases h
      · rename_i hlisting
        cases h
        exact .crashListing hphase hsettings hwanted hlisting
      · rename_i hlisting
        cases h
        exact .failListing hphase hsettings hwanted hlisting
      · rename_i hlisting
        cases h
        exact .list hphase hsettings hwanted hlisting

/-- What can follow on the fetch of a file. -/
theorem transition_of_afterFetching {run : Run} {shared : Shared} {path : String}
    {remaining skipped : List String} {fetched : List Corpus.SourceFile} {phase : Phase}
    (hphase : run.phase = .fetching (path :: remaining) fetched skipped)
    (h : run.afterFetching path remaining fetched skipped = some phase) :
    run.Transition shared phase shared := by
  unfold afterFetching at h
  split at h
  · rename_i hcancelled
    cases h
    exact .stopFetching hphase hcancelled
  · rename_i hwanted
    rw [Bool.not_eq_true] at hwanted
    split at h
    · cases h
    · rename_i hfetch
      cases h
      exact .crashFetching hphase hwanted hfetch
    · rename_i hfetch
      cases h
      exact .gather hphase hwanted hfetch
    · rename_i hfetch
      split at h
      · rename_i hfatal
        cases h
        exact .failFetching hphase hwanted hfetch hfatal
      · rename_i hfatal
        cases h
        exact .skip hphase hwanted hfetch (Bool.not_eq_true _ ▸ hfatal)

/-- Every step is one of the transitions. -/
theorem transition_of_step {run : Run} {shared shared' : Shared} {phase : Phase}
    (h : run.step shared = some (phase, shared')) : run.Transition shared phase shared' := by
  unfold step at h
  cases hphase : run.phase with
  | created => rw [hphase] at h; cases h; exact .begin hphase
  | announcingFetch => rw [hphase] at h; cases h; exact .tellFetch hphase
  | listing =>
    rw [hphase] at h
    obtain ⟨next, hnext, heq⟩ := Option.map_eq_some_iff.mp h
    cases heq
    exact transition_of_afterListing hphase hnext
  | fetching remaining fetched skipped =>
    cases remaining with
    | nil =>
      rw [hphase] at h
      cases h
      unfold afterAnalysis
      split
      · rename_i hcancelled
        exact .stopFetching hphase hcancelled
      · rename_i hwanted
        exact .analyse hphase (Bool.not_eq_true _ ▸ hwanted)
    | cons path remaining =>
      rw [hphase] at h
      obtain ⟨next, hnext, heq⟩ := Option.map_eq_some_iff.mp h
      cases heq
      exact transition_of_afterFetching hphase hnext
  | publishing corpus skipped =>
    simp only [hphase] at h
    split at h
    · rename_i hcancelled
      cases h
      exact .stopPublishing hphase hcancelled
    · rename_i hwanted
      cases h
      exact .publish hphase (Bool.not_eq_true _ ▸ hwanted)
  | reporting summary => rw [hphase] at h; cases h; exact .report hphase
  | announcingStatus summary => rw [hphase] at h; cases h; exact .tellStatus hphase
  | announcingReady summary => rw [hphase] at h; cases h; exact .tellReady hphase
  | failing failure => rw [hphase] at h; cases h; exact .endLoading hphase
  | reportingFailure failure => rw [hphase] at h; cases h; exact .reportFailure hphase
  | announcingFailure failure => rw [hphase] at h; cases h; exact .tellFailure hphase
  | finished outcome => rw [hphase] at h; cases h

/-- A run that makes a step has not ended. -/
theorem outcome?_eq_none_of_step {run : Run} {shared : Shared} {next : Phase × Shared}
    (h : run.step shared = some next) : run.outcome? = none := by
  obtain ⟨phase, shared'⟩ := next
  cases transition_of_step h <;> simp only [outcome?, *]

/-! ## What a run gathers -/

/-- The corpus and the skipped files that come of all files of the provider. -/
def Yields (run : Run) (corpus : Corpus) (skipped : List String) : Prop :=
  ∃ paths, run.provider.listing = .answer (.ok paths) ∧
    corpus = Corpus.ofSources run.settings (run.provider.readable paths) ∧
    skipped = run.provider.unreadable paths

/-- The summary is that of a corpus that comes of all files of the provider. -/
def Sums (run : Run) (summary : Summary) : Prop :=
  ∃ corpus skipped, run.Yields corpus skipped ∧ summary = ⟨run.provider.name, corpus.size, skipped⟩

/-- What the run has gathered agrees with what its provider offers. -/
def Faithful (run : Run) : Prop :=
  match run.phase with
  | .fetching remaining fetched skipped =>
    ∃ done, run.provider.listing = .answer (.ok (done ++ remaining)) ∧
      fetched = run.provider.readable done ∧ skipped = run.provider.unreadable done
  | .publishing corpus skipped => run.Yields corpus skipped
  | .reporting summary => run.Sums summary
  | .announcingStatus summary => run.Sums summary
  | .announcingReady summary => run.Sums summary
  | .finished (.completed summary) => run.Sums summary
  | _ => True

/-- A run that has done nothing yet has gathered nothing. -/
theorem faithful_start (settings : Settings) (provider : Provider) :
    (start settings provider).Faithful :=
  trivial

/-- Asking a run to stop does not change what it has gathered. -/
theorem Faithful.cancel {run : Run} (h : run.Faithful) : run.cancel.Faithful :=
  h

/-- A run that failed has nothing to show. -/
theorem faithful_afterFailure (run : Run) (failure : Failure) :
    { run with phase := afterFailure failure }.Faithful := by
  unfold afterFailure
  split <;> trivial

/-- The files that a run has asked for so far are the first ones that its provider lists. -/
theorem Faithful.asked {run : Run} {remaining skipped : List String}
    {fetched : List Corpus.SourceFile} (hrun : run.Faithful)
    (hphase : run.phase = .fetching remaining fetched skipped) :
    ∃ done, run.provider.listing = .answer (.ok (done ++ remaining)) ∧
      fetched = run.provider.readable done ∧ skipped = run.provider.unreadable done := by
  simpa only [Faithful, hphase] using hrun

/-- **What a run has gathered agrees with its provider** after every step. -/
theorem Faithful.step {run : Run} {shared shared' : Shared} {phase : Phase} (hrun : run.Faithful)
    (h : run.step shared = some (phase, shared')) : { run with phase }.Faithful := by
  have hfailure := faithful_afterFailure run
  cases transition_of_step h with
  | list _ _ _ hlisting => exact ⟨[], hlisting, rfl, rfl⟩
  | @gather path text _ _ _ hphase _ hfetch =>
    obtain ⟨done, hlisting, rfl, rfl⟩ := hrun.asked hphase
    have htext : run.provider.text? path = some text := by simp [Provider.text?, hfetch]
    refine ⟨done ++ [path], by simpa using hlisting, ?_, ?_⟩
    · simp [Provider.readable, htext]
    · simp [Provider.unreadable, htext]
  | @skip path _ _ _ _ hphase _ hfetch _ =>
    obtain ⟨done, hlisting, rfl, rfl⟩ := hrun.asked hphase
    have htext : run.provider.text? path = none := by simp [Provider.text?, hfetch]
    refine ⟨done ++ [path], by simpa using hlisting, ?_, ?_⟩
    · simp [Provider.readable, htext]
    · simp [Provider.unreadable, htext]
  | analyse hphase _ =>
    obtain ⟨done, hlisting, rfl, rfl⟩ := hrun.asked hphase
    exact ⟨done, by simpa using hlisting, rfl, rfl⟩
  | publish hphase _ =>
    simp only [Faithful, hphase] at hrun
    exact ⟨_, _, hrun, rfl⟩
  | report hphase => simp only [Faithful, hphase] at hrun; exact hrun
  | tellStatus hphase => simp only [Faithful, hphase] at hrun; exact hrun
  | tellReady hphase => simp only [Faithful, hphase] at hrun; exact hrun
  | reject => exact hfailure _
  | failListing => exact hfailure _
  | failFetching => exact hfailure _
  | _ => trivial

/-! ## The shared state -/

/-- A run never tells that all is forgotten. -/
theorem log_ne_cleared_of_step {run : Run} {shared shared' : Shared} {phase : Phase}
    (h : run.step shared = some (phase, shared')) : shared'.log ≠ .cleared :: shared.log := by
  cases transition_of_step h <;> simp [Shared.emit, Shared.setStatus, Shared.setLoading,
    Shared.publish]

/-- A faithful run leaves the published corpus alone or publishes the one that comes of its
files. -/
theorem Faithful.corpus_of_step {run : Run} {shared shared' : Shared} {phase : Phase}
    (hrun : run.Faithful) (h : run.step shared = some (phase, shared')) :
    shared'.snapshot.corpus = shared.snapshot.corpus ∨
      ∃ corpus skipped, run.Yields corpus skipped ∧ shared'.snapshot.corpus = some corpus := by
  cases transition_of_step h with
  | publish hphase _ =>
    simp only [Faithful, hphase] at hrun
    exact .inr ⟨_, _, hrun, rfl⟩
  | _ => exact .inl rfl

end Run

end ClassAtlas
