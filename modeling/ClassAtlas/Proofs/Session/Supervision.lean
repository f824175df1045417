import ClassAtlas.Proofs.Session.Interleaving
import ClassAtlas.Proofs.Session.RunSteps

/-!
# Supervision of runs

The client asks a run to stop and awaits its end before it forgets anything, so at any time at most
one run is under way, the client knows where it is, and it is the latest one. This file proves that
invariant for every order of moves and derives that a run is silent once the client has told that
all is forgotten, and that the published corpus is always the one that the latest run made of its
files.
-/

namespace ClassAtlas

namespace Client

/-- The run that the client awaits. -/
def awaited : Client → Option Nat
  | .stopping run _ => some run
  | .waiting run => some run
  | _ => none

/-- The session holds on to its run while the client does this. -/
def holdsOn : Client → Bool
  | .idle => true
  | .announcingFile _ => true
  | .announcingFolder _ => true
  | _ => false

/-- All is forgotten, and no new run is under way. -/
def isBlank : Client → Bool
  | .announcingCleared _ => true
  | .marking _ => true
  | .announcingStarted _ => true
  | .spawning _ => true
  | _ => false

end Client

namespace System

/-- The run that the client will still hear of: the one that it awaits, or else the one of the
session. -/
def watched (system : System) : Option Nat :=
  system.client.awaited.or system.handle

/-- The corpus comes of the files of the latest run. -/
def FromLatest (system : System) (corpus : Corpus) : Prop :=
  ∃ run skipped, system.runs.getLast? = some run ∧ run.Yields corpus skipped

/-- The invariant of a session with the given settings: a run that has not ended is watched, and a
watched run is the latest one; what is published comes of the latest run. -/
structure Supervised (settings : Settings) (system : System) : Prop where
  settings_eq : system.settings = settings
  unfinished_watched : ∀ {place : Nat} {run : Run}, system.runs[place]? = some run →
      run.outcome? = none →
    system.watched = some place
  watched_latest : ∀ {place : Nat}, system.watched = some place → place + 1 = system.runs.length
  let_go : system.client.holdsOn = false → system.handle = none
  faithful : ∀ run ∈ system.runs, run.Faithful ∧ run.settings = settings
  corpus_latest : ∀ {corpus : Corpus}, system.shared.snapshot.corpus = some corpus →
      system.FromLatest corpus
  blank : system.client.isBlank = true → system.shared.snapshot.corpus = none

variable {settings : Settings} {system : System}

/-- Nothing is to be supervised before the first start. -/
theorem supervised_new (settings : Settings) : Supervised settings (new settings) where
  settings_eq := rfl
  unfinished_watched h := by cases h
  watched_latest h := by cases h
  let_go h := by cases h
  faithful _ h := by cases h
  corpus_latest h := by cases h
  blank h := by cases h

/-- A run that has not ended is the latest one. -/
theorem Supervised.unfinished_latest (h : Supervised settings system) {place : Nat} {run : Run}
    (hrun : system.runs[place]? = some run) (hend : run.outcome? = none) :
    place + 1 = system.runs.length :=
  h.watched_latest (h.unfinished_watched hrun hend)

/-- When no run is watched, all have ended. -/
theorem Supervised.finished (h : Supervised settings system) (hwatched : system.watched = none)
    {place : Nat} {run : Run} (hrun : system.runs[place]? = some run) : run.outcome? ≠ none := by
  intro hend
  rw [h.unfinished_watched hrun hend] at hwatched
  cases hwatched

/-- When all is forgotten and no new run is under way, no run is watched. -/
theorem Supervised.watched_of_blank (h : Supervised settings system)
    (hblank : system.client.isBlank = true) :
    system.watched = none := by
  unfold watched
  cases hclient :
    system.client <;> simp_all [Client.isBlank, Client.awaited, h.let_go, Client.holdsOn]

/-- While a run is under way, not all is forgotten. -/
theorem Supervised.not_blank (h : Supervised settings system) {place : Nat} {run : Run}
    (hrun : system.runs[place]? = some run) (hend : run.outcome? = none) :
    system.client.isBlank = false := by
  cases hblank : system.client.isBlank with
  | false => rfl
  | true => exact absurd hend (h.finished (h.watched_of_blank hblank) hrun)

/-! ## A change of one run -/

/-- What a list of runs holds at a place after one of them has changed. -/
theorem getElem?_modify_runs {runs : List Run} {place other : Nat} {change : Run → Run} {run : Run}
    (h : (runs.modify place change)[other]? = some run) :
    ∃ before, runs[other]? = some before ∧
      run = if place = other then change before else before := by
  rw [List.getElem?_modify] at h
  obtain ⟨before, hbefore, heq⟩ := Option.map_eq_some_iff.mp h
  exact ⟨before, hbefore, heq.symm⟩

/-- A corpus still comes of the latest run when a run changes that keeps its provider and
settings. -/
theorem FromLatest.modify {corpus : Corpus} (h : system.FromLatest corpus) {place : Nat}
    {change : Run → Run} (hprovider : ∀ run, (change run).provider = run.provider)
    (hsettings : ∀ run, (change run).settings = run.settings) {shared : Shared} :
    { system with shared, runs := system.runs.modify place change }.FromLatest corpus := by
  obtain ⟨run, skipped, hlast, hyields⟩ := h
  refine ⟨if place = system.runs.length - 1 then change run else run, skipped, ?_, ?_⟩
  · rw [List.getLast?_eq_getElem?] at hlast ⊢
    simp [List.getElem?_modify, hlast]
  · unfold Run.Yields at hyields ⊢
    split
    · rwa [hprovider, hsettings]
    · exact hyields

/-- Supervision is kept when one run changes, publishes its corpus or writes anything else. -/
theorem Supervised.modify (h : Supervised settings system) {place : Nat} {change : Run → Run}
    {shared : Shared} (hprovider : ∀ run, (change run).provider = run.provider)
    (hsettings : ∀ run, (change run).settings = run.settings)
    (hchange : ∀ run, system.runs[place]? = some run →
      (change run).Faithful ∧ ((change run).outcome? = none → run.outcome? = none))
    (hshared : shared.snapshot.corpus = system.shared.snapshot.corpus ∨
      ∃ run corpus skipped, system.runs[place]? = some run ∧ run.outcome? = none ∧
        run.Yields corpus skipped ∧ shared.snapshot.corpus = some corpus) :
    Supervised settings { system with shared, runs := system.runs.modify place change } where
  settings_eq := h.settings_eq
  unfinished_watched := by
    intro other run hrun hend
    obtain ⟨before, hbefore, rfl⟩ := getElem?_modify_runs hrun
    refine h.unfinished_watched hbefore ?_
    split at hend
    · rename_i hplace
      exact (hchange before (hplace ▸ hbefore)).2 hend
    · exact hend
  watched_latest hwatched := by
    rw [List.length_modify]
    exact h.watched_latest hwatched
  let_go := h.let_go
  faithful := by
    intro run hmem
    obtain ⟨other, hother⟩ := List.mem_iff_getElem?.mp hmem
    obtain ⟨before, hbefore, rfl⟩ := getElem?_modify_runs hother
    obtain ⟨hfaithful, heq⟩ := h.faithful before (List.mem_iff_getElem?.mpr ⟨other, hbefore⟩)
    split
    · rename_i hplace
      exact ⟨(hchange before (hplace ▸ hbefore)).1, (hsettings before).trans heq⟩
    · exact ⟨hfaithful, heq⟩
  corpus_latest := by
    intro corpus hcorpus
    apply FromLatest.modify _ hprovider hsettings
    rcases hshared with hsame | ⟨run, published, skipped, hrun, hend, hyields, hpublished⟩
    · exact h.corpus_latest (hsame ▸ hcorpus)
    · have heq : published = corpus := Option.some.inj (hpublished.symm.trans hcorpus)
      have hlatest := h.unfinished_latest hrun hend
      refine ⟨run, skipped, ?_, heq ▸ hyields⟩
      rw [List.getLast?_eq_getElem?, ← hlatest]
      exact hrun
  blank := by
    intro hblank
    rcases hshared with hsame | ⟨run, _, _, hrun, hend, _⟩
    · exact hsame.trans (h.blank hblank)
    · exact absurd hend (h.finished (h.watched_of_blank hblank) hrun)

/-- Supervision is kept when a run makes a step. -/
theorem Supervised.work (h : Supervised settings system) {place : Nat} {after : System}
    (hwork : system.work place = some after) : Supervised settings after := by
  obtain ⟨run, phase, shared, hrun, hstep, rfl⟩ := exists_of_work hwork
  have hend := Run.outcome?_eq_none_of_step hstep
  obtain ⟨hfaithful, _⟩ := h.faithful run (List.mem_iff_getElem?.mpr ⟨place, hrun⟩)
  refine h.modify ?_ ?_ ?_ ?_
  · exact fun _ => rfl
  · exact fun _ => rfl
  · intro other hother
    cases hrun.symm.trans hother
    exact ⟨hfaithful.step hstep, fun _ => hend⟩
  · rcases hfaithful.corpus_of_step hstep with hsame | ⟨corpus, skipped, hyields, hcorpus⟩
    · exact .inl hsame
    · exact .inr ⟨run, corpus, skipped, hrun, hend, hyields, hcorpus⟩

/-! ## A move of the client -/

/-- Supervision is kept when the client goes on, as long as it does not lose sight of a run that has
not ended and touches the published corpus only to forget it. -/
theorem Supervised.turn (h : Supervised settings system) {shared : Shared} {handle : Option Nat}
    {lastSummary : Option Summary} {client : Client}
    (hwatched : client.awaited.or handle = system.watched ∨
      client.awaited.or handle = none ∧
        ∀ (place : Nat) (run : Run), system.runs[place]? = some run → run.outcome? ≠ none)
    (hletGo : client.holdsOn = false → handle = none)
    (hcorpus : shared.snapshot.corpus = none ∨
      shared.snapshot.corpus = system.shared.snapshot.corpus ∧
        (client.isBlank = true → system.shared.snapshot.corpus = none)) :
    Supervised settings { system with shared, handle, lastSummary, client } where
  settings_eq := h.settings_eq
  unfinished_watched := by
    intro place run hrun hend
    rcases hwatched with hsame | ⟨_, hfinished⟩
    · exact hsame.trans (h.unfinished_watched hrun hend)
    · exact absurd hend (hfinished place run hrun)
  watched_latest := by
    intro place hplace
    rcases hwatched with hsame | ⟨hnone, _⟩
    · exact h.watched_latest (hsame.symm.trans hplace)
    · cases hnone.symm.trans hplace
  let_go := hletGo
  faithful := h.faithful
  corpus_latest := by
    intro corpus hpublished
    rcases hcorpus with hnone | ⟨hsame, _⟩
    · cases hnone.symm.trans hpublished
    · exact h.corpus_latest (hsame.symm.trans hpublished)
  blank := by
    intro hblank
    rcases hcorpus with hnone | ⟨hsame, hforgotten⟩
    · exact hnone
    · exact hsame.trans (hforgotten hblank)

/-- Supervision is kept when a run is asked to stop. -/
theorem Supervised.cancel (h : Supervised settings system) (place : Nat) :
    Supervised settings { system with runs := system.runs.modify place Run.cancel } := by
  refine h.modify ?_ ?_ ?_ ?_
  · exact fun _ => rfl
  · exact fun _ => rfl
  · intro run hrun
    exact ⟨(h.faithful run (List.mem_iff_getElem?.mpr ⟨place, hrun⟩)).1.cancel, fun hend => hend⟩
  · exact .inl rfl

/-- Every request keeps supervision: the run that is let go of is awaited instead. -/
theorem Supervised.accept (h : Supervised settings system) (hclient : system.client = .idle)
    {after : System} (haccepts : system.Accepts after) : Supervised settings after := by
  have hwatched : system.watched = system.handle := by simp [watched, hclient, Client.awaited]
  cases haccepts with
  | stopNone hhandle =>
    exact h.turn (.inl hwatched.symm) (fun _ => hhandle) (.inr ⟨rfl, fun hblank => by cases hblank⟩)
  | stopRun hhandle =>
    exact (h.cancel _).turn (.inl (hwatched.trans hhandle).symm) (fun _ => rfl)
      (.inr ⟨rfl, fun hblank => by cases hblank⟩)
  | waitNone => exact h
  | waitRun hhandle =>
    exact h.turn (.inl (hwatched.trans hhandle).symm) (fun _ => rfl)
      (.inr ⟨rfl, fun hblank => by cases hblank⟩)
  | file name =>
    exact h.turn (.inl hwatched.symm) (fun hlet => by cases hlet)
      (.inr ⟨rfl, fun hblank => by cases hblank⟩)
  | folder path =>
    exact h.turn (.inl hwatched.symm) (fun hlet => by cases hlet)
      (.inr ⟨rfl, fun hblank => by cases hblank⟩)

/-- Once the watched run has ended, all have. -/
theorem Supervised.finished_of_outcome (h : Supervised settings system) {watched : Nat}
    {outcome : Outcome} (hwatched : system.watched = some watched)
    (houtcome : system.outcome? watched = some outcome) (place : Nat)
    (run : Run) (hrun : system.runs[place]? = some run) : run.outcome? ≠ none := by
  intro hend
  have hplace : watched = place :=
    Option.some.inj (hwatched.symm.trans (h.unfinished_watched hrun hend))
  rw [System.outcome?, hplace, hrun, Option.bind_some, hend] at houtcome
  cases houtcome

/-- A new run is watched from the start. -/
theorem Supervised.spawn (h : Supervised settings system) {provider : Provider}
    (hclient : system.client = .spawning provider) :
    Supervised settings { system with
      runs := system.runs ++ [Run.start system.settings provider]
      handle := some system.runs.length
      client := .idle } where
  settings_eq := h.settings_eq
  unfinished_watched := by
    intro place run hrun hend
    have hblank : system.client.isBlank = true := by rw [hclient]; rfl
    by_cases hplace : place < system.runs.length
    · rw [List.getElem?_append_left hplace] at hrun
      exact absurd hend (h.finished (h.watched_of_blank hblank) hrun)
    · have hbound := (List.getElem?_eq_some_iff.mp hrun).1
      rw [List.length_append, List.length_singleton] at hbound
      have heq : system.runs.length = place := by omega
      exact congrArg some heq
  watched_latest := by
    intro place hplace
    have heq : system.runs.length = place := Option.some.inj hplace
    rw [List.length_append, List.length_singleton, heq]
  let_go hlet := by cases hlet
  faithful := by
    intro run hmem
    rcases List.mem_append.mp hmem with hold | hnew
    · exact h.faithful run hold
    · rw [List.mem_singleton.mp hnew]
      exact ⟨Run.faithful_start _ _, h.settings_eq⟩
  corpus_latest := by
    intro corpus hcorpus
    have hblank := h.blank (by rw [hclient]; rfl)
    cases hblank.symm.trans hcorpus
  blank hblank := by cases hblank

/-- The client turns to something else once the run that it awaits has ended. -/
theorem Supervised.turn_of_outcome (h : Supervised settings system) {run : Nat} {outcome : Outcome}
    (hawaited : system.client.awaited = some run) (houtcome : system.outcome? run = some outcome)
    {lastSummary : Option Summary} {client : Client} (hnext : client.awaited = none)
    (hblank : client.isBlank = false) :
    Supervised settings { system with lastSummary, client } := by
  have hhandle : system.handle = none := by
    apply h.let_go
    cases hclient : system.client <;> simp_all [Client.awaited, Client.holdsOn]
  have hwatched : system.watched = some run := by simp [watched, hawaited]
  refine h.turn (.inr ⟨?_, ?_⟩) (fun _ => hhandle) (.inr ⟨rfl, fun hnow => ?_⟩)
  · rw [hnext, hhandle]
    rfl
  · exact h.finished_of_outcome hwatched houtcome
  · rw [hblank] at hnow
    cases hnow

/-- The client turns from one thing to another without awaiting a run. -/
theorem Supervised.turn_of_free (h : Supervised settings system)
    (hfree : system.client.awaited = none) {shared : Shared} {lastSummary : Option Summary}
    {client : Client} (hnext : client.awaited = none)
    (hletGo : client.holdsOn = false → system.client.holdsOn = false)
    (hcorpus : shared.snapshot.corpus = none ∨
      shared.snapshot.corpus = system.shared.snapshot.corpus ∧ client.isBlank = false) :
    Supervised settings { system with shared, lastSummary, client } := by
  refine h.turn (.inl ?_) (fun hlet => h.let_go (hletGo hlet)) ?_
  · simp [watched, hfree, hnext]
  · rcases hcorpus with hnone | ⟨hsame, hblank⟩
    · exact .inl hnone
    · exact .inr ⟨hsame, fun hnow => by rw [hblank] at hnow; cases hnow⟩

/-- Every step of the client keeps supervision. -/
theorem Supervised.proceed (h : Supervised settings system) {after : System}
    (hproceeds : system.Proceeds after) : Supervised settings after := by
  cases hproceeds with
  | stopped hclient houtcome => exact h.turn_of_outcome (by rw [hclient]; rfl) houtcome rfl rfl
  | forget hclient =>
    exact h.turn_of_free (by rw [hclient]; rfl) rfl (fun _ => by rw [hclient]; rfl) (.inl rfl)
  | cleared hclient =>
    have hblank := h.blank (by rw [hclient]; rfl)
    exact h.turn_of_free (by rw [hclient]; rfl) rfl (fun _ => by rw [hclient]; rfl) (.inl hblank)
  | clearedToStart hclient =>
    have hblank := h.blank (by rw [hclient]; rfl)
    exact h.turn_of_free (by rw [hclient]; rfl) rfl (fun _ => by rw [hclient]; rfl) (.inl hblank)
  | mark hclient =>
    have hblank := h.blank (by rw [hclient]; rfl)
    exact h.turn_of_free (by rw [hclient]; rfl) rfl (fun _ => by rw [hclient]; rfl) (.inl hblank)
  | started hclient =>
    have hblank := h.blank (by rw [hclient]; rfl)
    exact h.turn_of_free (by rw [hclient]; rfl) rfl (fun _ => by rw [hclient]; rfl) (.inl hblank)
  | spawn hclient => exact h.spawn hclient
  | collected hclient houtcome => exact h.turn_of_outcome (by rw [hclient]; rfl) houtcome rfl rfl
  | file hclient =>
    exact h.turn_of_free (by rw [hclient]; rfl) rfl (fun hlet => by cases hlet) (.inr ⟨rfl, rfl⟩)
  | folder hclient =>
    exact h.turn_of_free (by rw [hclient]; rfl) rfl (fun hlet => by cases hlet) (.inr ⟨rfl, rfl⟩)

/-- **Every move keeps supervision.** -/
theorem Supervised.step (h : Supervised settings system) {move : Move} {after : System}
    (hstep : system.step move = some after) : Supervised settings after := by
  cases move with
  | request request =>
    obtain ⟨hclient, haccepts⟩ := accepts_of_request hstep
    exact h.accept hclient haccepts
  | proceed => exact h.proceed (proceeds_of_proceed hstep)
  | work run => exact h.work hstep

/-- Every reachable system is supervised. -/
theorem Reachable.supervised (h : Reachable settings system) : Supervised settings system :=
  h.preserves (fun hbefore hstep => hbefore.step hstep) (supervised_new settings)

/-! ## Silence after forgetting -/

/-- The first runs, as many as given, have ended. -/
def Ended (count : Nat) (system : System) : Prop :=
  ∀ place < count, ∃ run, system.runs[place]? = some run ∧ run.outcome? ≠ none

/-- A run that has ended makes no step. -/
theorem Ended.work_eq_none {count : Nat} (h : Ended count system) {place : Nat}
    (hplace : place < count) :
    system.work place = none := by
  obtain ⟨run, hrun, hend⟩ := h place hplace
  cases hwork : system.work place with
  | none => rfl
  | some after =>
    obtain ⟨other, _, _, hother, hstep, _⟩ := exists_of_work hwork
    cases hrun.symm.trans hother
    exact absurd (Run.outcome?_eq_none_of_step hstep) hend

/-- Runs stay ended when one of the runs changes, unless it is one of them that has not ended
then. -/
theorem Ended.modify {count : Nat} (h : Ended count system) {place : Nat} {change : Run → Run}
    {after : System} (hruns : after.runs = system.runs.modify place change)
    (hchange : ∀ run, system.runs[place]? = some run → run.outcome? ≠ none →
      (change run).outcome? ≠ none) : Ended count after := by
  intro other hother
  obtain ⟨run, hrun, hend⟩ := h other hother
  refine ⟨if place = other then change run else run, ?_, ?_⟩
  · simp [hruns, List.getElem?_modify, hrun]
  · split
    · rename_i hplace
      exact hchange run (hplace ▸ hrun) hend
    · exact hend

/-- Runs that have ended stay ended, whatever moves come. -/
theorem Ended.step {count : Nat} (h : Ended count system) {move : Move} {after : System}
    (hstep : system.step move = some after) : Ended count after := by
  cases move with
  | request request =>
    cases (accepts_of_request hstep).2 with
    | stopRun => exact h.modify rfl fun _ _ hend => hend
    | _ => exact h
  | proceed =>
    cases proceeds_of_proceed hstep with
    | spawn =>
      intro place hplace
      obtain ⟨run, hrun, hend⟩ := h place hplace
      exact ⟨run, List.getElem?_append_left (List.getElem?_eq_some_iff.mp hrun).1 ▸ hrun, hend⟩
    | _ => exact h
  | work place =>
    obtain ⟨run, phase, shared, hrun, hwork, rfl⟩ := exists_of_work hstep
    refine h.modify rfl ?_
    intro other hother hend
    cases hrun.symm.trans hother
    exact absurd (Run.outcome?_eq_none_of_step hwork) hend

/-- The event that all is forgotten comes from a client whose runs have all ended. -/
theorem Supervised.ended_of_cleared (h : Supervised settings system) {move : Move}
    {cleared : System} (hstep : system.step move = some cleared)
    (hlog : cleared.shared.log = .cleared :: system.shared.log) :
    Ended cleared.runs.length cleared := by
  have hsame : ∀ log : List Event, log ≠ .cleared :: log :=
    fun log => (List.cons_ne_self .cleared log).symm
  have hended : system.client.isBlank = true → Ended system.runs.length system := by
    intro hblank place hplace
    have hrun : system.runs[place]? = some system.runs[place] := List.getElem?_eq_getElem hplace
    exact ⟨_, hrun, h.finished (h.watched_of_blank hblank) hrun⟩
  cases move with
  | request request =>
    cases (accepts_of_request hstep).2 <;> exact absurd hlog (hsame _)
  | proceed =>
    cases proceeds_of_proceed hstep with
    | cleared hclient => exact hended (by rw [hclient]; rfl)
    | clearedToStart hclient => exact hended (by rw [hclient]; rfl)
    | started hclient => cases hlog
    | file hclient => cases hlog
    | folder hclient => cases hlog
    | _ => exact absurd hlog (hsame _)
  | work place =>
    obtain ⟨run, phase, shared, _, hwork, rfl⟩ := exists_of_work hstep
    exact absurd hlog (Run.log_ne_cleared_of_step hwork)

/-- **Superseded runs are silent, and what is published comes of the latest run.** Let a session be
in any state that it can come to, whatever the order in which its client and its runs move. If the
next move tells that all is forgotten, then none of the runs started so far ever makes another step,
so none of them writes or tells anything any more. Only the latest run can make a step at all, and a
published corpus is the one made of the files that the latest run got from its provider. -/
theorem superseded_runs_silent {settings : Settings} {system : System}
    (hreach : Reachable settings system) :
    (∀ (move : Move) (cleared later : System), system.step move = some cleared →
      cleared.shared.log = .cleared :: system.shared.log → Steps cleared later →
      ∀ run < cleared.runs.length, later.step (.work run) = none) ∧
    (∀ (run : Nat) (after : System), system.step (.work run) = some after →
      run + 1 = system.runs.length) ∧
    (∀ corpus, system.shared.snapshot.corpus = some corpus →
      ∃ run paths, system.runs.getLast? = some run ∧ run.provider.listing = .answer (.ok paths) ∧
        corpus = Corpus.ofSources settings (run.provider.readable paths)) := by
  have h := hreach.supervised
  refine ⟨?_, ?_, ?_⟩
  · intro move cleared later hstep hlog hlater run hrun
    have hended := h.ended_of_cleared hstep hlog
    exact (hlater.preserves (fun hbefore hmove => hbefore.step hmove) hended).work_eq_none hrun
  · intro place after hstep
    obtain ⟨run, _, _, hrun, hwork, _⟩ := exists_of_work hstep
    exact h.unfinished_latest hrun (Run.outcome?_eq_none_of_step hwork)
  · intro corpus hcorpus
    obtain ⟨run, skipped, hlast, paths, hlisting, heq, _⟩ := h.corpus_latest hcorpus
    obtain ⟨_, hsettings⟩ := h.faithful run (List.mem_of_getLast? hlast)
    exact ⟨run, paths, hlast, hlisting, hsettings ▸ heq⟩

/-- A provider of one file. -/
def shop : Provider :=
  .ofFiles "shop" [("A.java", "class A {}")]

/-- The moves of a first start, with some steps of its run. -/
def startMoves (steps : Nat) : List Move :=
  .request (.start shop) :: (List.replicate 5 .proceed ++ List.replicate steps (.work 0))

/-- A run that is superseded after it has asked for its files is silent, and one that is left alone
publishes its corpus. -/
theorem superseded_runs_silent_shop :
    (∃ system cleared,
      moves (startMoves 3 ++ [.request (.start shop), .work 0, .proceed, .proceed])
        (new .standard) = some system ∧
      system.step .proceed = some cleared ∧ cleared.shared.log = .cleared :: system.shared.log ∧
      cleared.runs.length = 1 ∧ ∀ later, Steps cleared later → later.step (.work 0) = none) ∧
    (∃ system corpus, moves (startMoves 6) (new .standard) = some system ∧
      system.shared.snapshot.corpus = some corpus ∧
      ∃ run paths, system.runs.getLast? = some run ∧ run.provider.listing = .answer (.ok paths) ∧
        corpus = Corpus.ofSources .standard (run.provider.readable paths)) := by
  have hrestart : ∃ system cleared,
      moves (startMoves 3 ++ [.request (.start shop), .work 0, .proceed, .proceed])
        (new .standard) = some system ∧
      system.step .proceed = some cleared ∧ cleared.shared.log = .cleared :: system.shared.log ∧
      cleared.runs.length = 1 := ⟨_, _, rfl, rfl, rfl, rfl⟩
  have hpublish : ∃ system corpus, moves (startMoves 6) (new .standard) = some system ∧
      system.shared.snapshot.corpus = some corpus := ⟨_, _, rfl, rfl⟩
  obtain ⟨restarted, cleared, hmoves, hstep, hlog, hcount⟩ := hrestart
  obtain ⟨published, corpus, hmoves', hcorpus⟩ := hpublish
  refine ⟨⟨restarted, cleared, hmoves, hstep, hlog, hcount, ?_⟩, published, corpus, hmoves',
    hcorpus, ?_⟩
  · intro later hlater
    have hplace : 0 < cleared.runs.length := hcount ▸ Nat.one_pos
    exact (superseded_runs_silent (steps_of_moves hmoves)).1 .proceed cleared later hstep hlog
      hlater 0 hplace
  · exact (superseded_runs_silent (steps_of_moves hmoves')).2.2 corpus hcorpus

end System

end ClassAtlas
