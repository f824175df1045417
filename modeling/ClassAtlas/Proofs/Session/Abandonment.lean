import ClassAtlas.Proofs.Session.Outcomes

/-!
# Waits that are given up

A client may give up a wait, for instance because it takes too long. By then the wait has taken the
run from the session, and it does not put it back. So nobody holds on to the run any more, and a
later start or clear neither stops nor awaits it. This file adds waits that are given up to what can
happen to a system and proves what becomes of such a run. It is never asked to stop, and it goes on
to the end that is due, also where all has been forgotten meanwhile. It is silent only if it has
nothing left to say, which its phase and its provider decide.
-/

namespace ClassAtlas

/-! ## Runs with nothing left to say -/

/-- The provider stops a run without a word while it hands out these files: it never answers, it
crashes, or it gives up itself. -/
def Provider.Mute (provider : Provider) : List String → Prop
  | [] => False
  | path :: rest =>
    match provider.fetch path with
    | .answer (.ok _) => provider.Mute rest
    | .answer (.error failure) =>
      if failure.isFatal then failure = .cancelled else provider.Mute rest
    | _ => True

namespace Run

/-- The run has nothing left to say, although nobody asks it to stop. -/
def Silent (run : Run) : Prop :=
  match run.phase with
  | .listing => run.settings.validate = .ok () ∧
    match run.provider.listing with
    | .answer (.ok paths) => run.provider.Mute paths
    | .answer (.error failure) => failure = .cancelled
    | _ => True
  | .fetching remaining _ _ => run.provider.Mute remaining
  | .finished _ => True
  | _ => False

variable {run : Run} {shared shared' : Shared} {phase : Phase}

/-- Nothing is said after a failure if it is that of a run that was stopped. -/
theorem silent_afterFailure {failure : Failure} :
    { run with phase := afterFailure failure }.Silent ↔ failure = .cancelled := by
  unfold afterFailure
  split <;> simp_all [Silent]

/-- **A run has nothing left to say** if its next step says nothing and leaves nothing to say. -/
theorem silent_iff_of_step (hwanted : run.cancelled = false)
    (h : run.step shared = some (phase, shared')) :
    run.Silent ↔ { run with phase }.Silent ∧ shared' = shared := by
  have htold : ∀ event, shared.emit event ≠ shared := by
    intro event heq
    exact List.cons_ne_self event shared.log (congrArg Shared.log heq)
  cases transition_of_step h with
  | reject hphase hsettings =>
    -- A fault of the settings is always told, so a run that is about to find one is not silent.
    have hfault : ∀ failure, run.settings.validate = .error failure → failure ≠ .cancelled := by
      rintro failure hfailure rfl
      unfold Settings.validate at hfailure
      split at hfailure <;> cases hfailure
    rw [silent_afterFailure]
    simp [Silent, hphase, hsettings, hfault _ hsettings]
  | stopListing _ _ hcancelled => cases hwanted.symm.trans hcancelled
  | crashListing hphase hsettings _ hlisting => simp [Silent, hphase, hsettings, hlisting]
  | failListing hphase hsettings _ hlisting =>
    rw [silent_afterFailure]
    simp [Silent, hphase, hsettings, hlisting]
  | list hphase hsettings _ hlisting => simp [Silent, hphase, hsettings, hlisting]
  | stopFetching _ hcancelled => cases hwanted.symm.trans hcancelled
  | crashFetching hphase _ hfetch => simp [Silent, hphase, Provider.Mute, hfetch]
  | failFetching hphase _ hfetch hfatal =>
    rw [silent_afterFailure]
    simp [Silent, hphase, Provider.Mute, hfetch, hfatal]
  | gather hphase _ hfetch => simp [Silent, hphase, Provider.Mute, hfetch]
  | skip hphase _ hfetch hfatal => simp [Silent, hphase, Provider.Mute, hfetch, hfatal]
  | analyse hphase => simp [Silent, hphase, Provider.Mute]
  | stopPublishing _ hcancelled => cases hwanted.symm.trans hcancelled
  | _ => simp_all [Silent]

/-- A run that nobody asks to stop and that cannot go on has nothing left to say. -/
theorem silent_of_rest (hwanted : run.cancelled = false) (hrest : run.step shared = none) :
    run.Silent := by
  obtain ⟨provider, settings, cancelled, now⟩ := run
  cases hwanted
  cases now with
  | listing =>
    have hnext := Option.map_eq_none_iff.mp hrest
    simp only [afterListing] at hnext
    split at hnext
    · cases hnext
    · rename_i hsettings
      refine ⟨hsettings, ?_⟩
      cases hlisting : provider.listing with
      | answer reply => cases reply <;> simp [hlisting] at hnext
      | _ => trivial
  | fetching remaining fetched skipped =>
    cases remaining with
    | nil => cases hrest
    | cons path remaining =>
      have hnext := Option.map_eq_none_iff.mp hrest
      simp only [afterFetching] at hnext
      simp only [Silent, Provider.Mute]
      cases hfetch : provider.fetch path with
      | answer reply =>
        cases reply with
        | ok text => simp [hfetch] at hnext
        | error failure => cases hfatal : failure.isFatal <;> simp [hfetch, hfatal] at hnext
      | _ => trivial
  | finished outcome => trivial
  | _ => cases hrest

end Run

/-! ## Runs that are left alone -/

/-- Snapshots with the same corpus and the same flag show the same. -/
theorem Snapshot.ShowsResult.congr {snapshot other : Snapshot}
    {result : Except Failure (Corpus × List String)} (h : snapshot.ShowsResult result)
    (hcorpus : other.corpus = snapshot.corpus)
    (hready : other.ready = snapshot.ready) : other.ShowsResult result := by
  cases result <;> exact ⟨hcorpus.trans h.1, hready.trans h.2⟩

namespace Run

variable {answers : Answers}

/-- What the run has published is shown, and it is what is due. -/
def ShowsDue (run : Run) (shared : Shared) (answers : Answers) : Prop :=
  run.published? ≠ none → shared.snapshot.ShowsResult (answers.analysis run.settings)

/-- A run on course shows what is due as soon as it has published it. -/
theorem ShowsDue.step {run : Run} {shared shared' : Shared} {phase : Phase}
    (hshows : run.ShowsDue shared answers) (hcourse : run.OnCourse answers)
    (h : run.step shared = some (phase, shared')) :
    { run with phase }.ShowsDue shared' answers := by
  intro hpublished
  change shared'.snapshot.ShowsResult (answers.analysis run.settings)
  cases transition_of_step h with
  | publish hphase =>
    simp only [OnCourse, hphase] at hcourse
    rw [hcourse]
    exact ⟨rfl, rfl⟩
  | report hphase => exact (hshows (by simp [published?, hphase])).congr rfl rfl
  | tellStatus hphase => exact (hshows (by simp [published?, hphase])).congr rfl rfl
  | tellReady hphase => exact (hshows (by simp [published?, hphase])).congr rfl rfl
  | reject => exact absurd (published?_afterFailure run _) hpublished
  | failListing => exact absurd (published?_afterFailure run _) hpublished
  | failFetching => exact absurd (published?_afterFailure run _) hpublished
  | _ => exact (hpublished rfl).elim

/-- A run that is left alone stays on course. -/
theorem OnCourse.advance (bound : Nat) {run : Run} {shared : Shared}
    (hcourse : run.OnCourse answers) (hprovider : run.provider = answers.provider)
    (hwanted : run.cancelled = false) :
    (run.advance bound shared).1.OnCourse answers := by
  induction bound generalizing run shared with
  | zero => exact hcourse
  | succ bound ih =>
    unfold Run.advance
    cases hstep : run.step shared with
    | none => exact hcourse
    | some next => exact ih (hcourse.step hprovider hwanted hstep) hprovider hwanted

/-- A run that is left alone shows what is due as soon as it has published it. -/
theorem ShowsDue.advance (bound : Nat) {run : Run} {shared : Shared}
    (hshows : run.ShowsDue shared answers) (hcourse : run.OnCourse answers)
    (hprovider : run.provider = answers.provider)
    (hwanted : run.cancelled = false) :
    (run.advance bound shared).1.ShowsDue (run.advance bound shared).2 answers := by
  induction bound generalizing run shared with
  | zero => exact hshows
  | succ bound ih =>
    unfold Run.advance
    cases hstep : run.step shared with
    | none => exact hshows
    | some next =>
      exact ih (hshows.step hcourse hstep) (hcourse.step hprovider hwanted hstep) hprovider hwanted

/-- The run has the settings of its session, agrees with its provider and is on course unless it is
asked to stop. -/
structure Sound (settings : Settings) (run : Run) : Prop where
  settings_eq : run.settings = settings
  faithful : run.Faithful
  onCourse : ∀ answers : Answers, run.provider = answers.provider → run.cancelled = false →
      run.OnCourse answers

variable {settings : Settings} {run : Run}

/-- A new run is sound. -/
theorem sound_start (settings : Settings) (provider : Provider) :
    (start settings provider).Sound settings where
  settings_eq := rfl
  faithful := faithful_start settings provider
  onCourse _ _ _ := trivial

/-- A run that is asked to stop need not stay on course. -/
theorem Sound.cancel (h : run.Sound settings) : run.cancel.Sound settings where
  settings_eq := h.settings_eq
  faithful := h.faithful.cancel
  onCourse _ _ hwanted := by cases hwanted

/-- Every step keeps a run sound. -/
theorem Sound.step {shared shared' : Shared} {phase : Phase} (h : run.Sound settings)
    (hstep : run.step shared = some (phase, shared')) : { run with phase }.Sound settings where
  settings_eq := h.settings_eq
  faithful := h.faithful.step hstep
  onCourse answers hprovider hwanted :=
    (h.onCourse answers hprovider hwanted).step hprovider hwanted hstep

/-- A sound run that nobody asks to stop ends as due when it is left alone. -/
theorem Sound.settle_outcome (h : run.Sound settings) (hprovider : run.provider = answers.provider)
    (hwanted : run.cancelled = false) (shared : Shared) :
    (run.settle shared).1.outcome? = some (answers.outcome settings) := by
  have hcourse : (run.settle shared).1.OnCourse answers :=
    (h.onCourse answers hprovider hwanted).advance _ hprovider hwanted
  obtain ⟨outcome, houtcome⟩ :=
    Option.ne_none_iff_exists'.mp (h.faithful.settle_answered hprovider shared)
  rw [houtcome, hcourse.outcome_eq houtcome, settings_settle, h.settings_eq]

/-- A sound run that nobody asks to stop publishes the corpus that is due when it is left alone. -/
theorem Sound.settle_shows (h : run.Sound settings) (hprovider : run.provider = answers.provider)
    (hwanted : run.cancelled = false) (hunpublished : run.published? = none) {corpus : Corpus}
    {skipped : List String} (hdue : answers.analysis settings = .ok (corpus, skipped))
    (shared : Shared) :
    (run.settle shared).2.snapshot.ShowsResult (.ok (corpus, skipped)) := by
  have hshows : run.ShowsDue shared answers := fun hpublished => absurd hunpublished hpublished
  have hlater : (run.settle shared).1.ShowsDue (run.settle shared).2 answers :=
    hshows.advance _ (h.onCourse answers hprovider hwanted) hprovider hwanted
  have hend := h.settle_outcome hprovider hwanted shared
  simp only [Answers.outcome, hdue] at hend
  rw [← hdue, ← h.settings_eq, ← run.settings_settle shared]
  apply hlater
  simp [published?_of_completed hend]

end Run

/-! ## Giving up a wait -/

/-- The run that a client waits for. -/
def Client.waited? : Client → Option Nat
  | .waiting run => some run
  | _ => none

namespace System

/-- The client gives up its wait. The wait has taken the run from the session, and nobody puts it
back. -/
def giveUp (system : System) : Option System :=
  match system.client with
  | .waiting _ => some { system with client := .idle }
  | _ => none

/-- One system turns into the other by some moves, and waits may be given up in between. -/
def LooseSteps : System → System → Prop :=
  Relation.ReflTransGen fun before after =>
    (∃ move, before.step move = some after) ∨ before.giveUp = some after

/-- The system can come about in a session with the given settings whose client gives up waits as it
likes. -/
def Attainable (settings : Settings) (system : System) : Prop :=
  LooseSteps (new settings) system

variable {settings : Settings} {system after : System} {place : Nat} {move : Move}

/-- No wait needs to be given up. -/
theorem Steps.loose (h : Steps system after) : LooseSteps system after :=
  Relation.ReflTransGen.mono (fun _ _ hmove => Or.inl hmove) _ _ h

/-- A wait that is given up leaves all but the client as it is. -/
theorem eq_of_giveUp (h : system.giveUp = some after) :
    ∃ place, system.client = .waiting place ∧ after = { system with client := .idle } := by
  unfold giveUp at h
  split at h
  · rename_i place hclient
    exact ⟨place, hclient, (Option.some.inj h).symm⟩
  · cases h

/-- What every move and every wait that is given up keeps holds at any later time. -/
theorem LooseSteps.preserves {Keeps : System → Prop}
    (hstep : ∀ {before after : System} {move : Move}, Keeps before → before.step move = some after →
      Keeps after)
    (hgiveUp : ∀ {before after : System}, Keeps before → before.giveUp = some after → Keeps after)
    (hsteps : LooseSteps system after) (hbefore : Keeps system) : Keeps after := by
  induction hsteps with
  | refl => exact hbefore
  | tail _ hlast ih =>
    rcases hlast with ⟨move, hmove⟩ | hgiven
    · exact hstep ih hmove
    · exact hgiveUp ih hgiven

/-! ## Runs that are held -/

/-- The run that the session holds on to or the client waits for. -/
def held (system : System) : Option Nat :=
  system.client.waited?.or system.handle

/-- What holds with waits that are given up: all runs are sound, and a run that is held is not asked
to stop. -/
structure Kept (settings : Settings) (system : System) : Prop where
  settings_eq : system.settings = settings
  let_go : system.client.holdsOn = false → system.handle = none
  sound : ∀ run ∈ system.runs, run.Sound settings
  wanted : ∀ {place : Nat}, system.held = some place →
    ∃ run, system.runs[place]? = some run ∧ run.cancelled = false

/-- Nothing is held before the first start. -/
theorem kept_new (settings : Settings) : Kept settings (new settings) where
  settings_eq := rfl
  let_go h := by cases h
  sound _ h := by cases h
  wanted h := by cases h

/-- Every move keeps all runs sound. -/
theorem Kept.sound_step (h : Kept settings system) (hstep : system.step move = some after) :
    ∀ run ∈ after.runs, run.Sound settings := by
  refine forall_runs_of_step hstep ?_ ?_ ?_ h.sound
  · rw [h.settings_eq]
    exact Run.sound_start settings
  · exact fun _ hrun => hrun.cancel
  · exact fun _ _ _ _ hrun hwork => hrun.step hwork

/-- The client turns to something else and holds on to the same run, or to none. -/
theorem Kept.turn (h : Kept settings system) {shared : Shared} {handle : Option Nat}
    {lastSummary : Option Summary} {client : Client}
    (hheld : client.waited?.or handle = system.held ∨ client.waited?.or handle = none)
    (hletGo : client.holdsOn = false → handle = none) :
    Kept settings { system with shared, handle, lastSummary, client } where
  settings_eq := h.settings_eq
  let_go := hletGo
  sound := h.sound
  wanted := by
    intro place hplace
    rcases hheld with hsame | hnone
    · exact h.wanted (hsame.symm.trans hplace)
    · cases hnone.symm.trans hplace

/-- The client turns to something else after the session has let go of its run. -/
theorem Kept.turn_of_letGo (h : Kept settings system) (hlet : system.client.holdsOn = false)
    {shared : Shared} {lastSummary : Option Summary} {client : Client}
    (hnext : client.waited? = none) :
    Kept settings { system with shared, lastSummary, client } := by
  have hhandle := h.let_go hlet
  refine h.turn (.inr ?_) fun _ => hhandle
  rw [hnext, hhandle]
  rfl

/-- Every request keeps a run that is still held as it is. -/
theorem Kept.accept (h : Kept settings system) (hclient : system.client = .idle)
    (haccepts : system.Accepts after) (hsound : ∀ run ∈ after.runs, run.Sound settings) :
    Kept settings after := by
  have hheld : system.held = system.handle := by simp [held, hclient, Client.waited?]
  cases haccepts with
  | stopNone hhandle => exact h.turn (.inr hhandle) fun _ => hhandle
  | stopRun hhandle => exact ⟨h.settings_eq, fun _ => rfl, hsound, fun hnone => by cases hnone⟩
  | waitNone => exact h
  | waitRun hhandle => exact h.turn (.inl (hheld.trans hhandle).symm) fun _ => rfl
  | file name => exact h.turn (.inl hheld.symm) fun hlet => by cases hlet
  | folder path => exact h.turn (.inl hheld.symm) fun hlet => by cases hlet

/-- The client goes on, and a run that is still held stays as it is. -/
theorem Kept.proceed (h : Kept settings system) (hproceeds : system.Proceeds after)
    (hsound : ∀ run ∈ after.runs, run.Sound settings) : Kept settings after := by
  cases hproceeds with
  | spawn hclient =>
    refine ⟨h.settings_eq, fun hlet => ?_, hsound, fun hplace => ?_⟩
    · cases hlet
    · cases hplace
      exact ⟨_, List.getElem?_concat_length .., rfl⟩
  | file hclient =>
    exact h.turn (.inl (by simp [held, hclient, Client.waited?])) fun hlet => by cases hlet
  | folder hclient =>
    exact h.turn (.inl (by simp [held, hclient, Client.waited?])) fun hlet => by cases hlet
  | stopped hclient => exact h.turn_of_letGo (by rw [hclient]; rfl) rfl
  | forget hclient => exact h.turn_of_letGo (by rw [hclient]; rfl) rfl
  | cleared hclient => exact h.turn_of_letGo (by rw [hclient]; rfl) rfl
  | clearedToStart hclient => exact h.turn_of_letGo (by rw [hclient]; rfl) rfl
  | mark hclient => exact h.turn_of_letGo (by rw [hclient]; rfl) rfl
  | started hclient => exact h.turn_of_letGo (by rw [hclient]; rfl) rfl
  | collected hclient => exact h.turn_of_letGo (by rw [hclient]; rfl) rfl

/-- A run at work is not asked to stop by its own step. -/
theorem Kept.work (h : Kept settings system) (hwork : system.work place = some after)
    (hsound : ∀ run ∈ after.runs, run.Sound settings) : Kept settings after := by
  obtain ⟨_, phase, shared, _, _, rfl⟩ := exists_of_work hwork
  refine ⟨h.settings_eq, h.let_go, hsound, fun {other} hheld => ?_⟩
  obtain ⟨run, hrun, hwanted⟩ := h.wanted hheld
  refine ⟨if place = other then { run with phase } else run, ?_, ?_⟩
  · simp [List.getElem?_modify, hrun]
  · split <;> exact hwanted

/-- **Every move keeps a run that is held as it is**, so nobody asks it to stop. -/
theorem Kept.step (h : Kept settings system) (hstep : system.step move = some after) :
    Kept settings after := by
  have hsound := h.sound_step hstep
  cases move with
  | request request =>
    obtain ⟨hclient, haccepts⟩ := accepts_of_request hstep
    exact h.accept hclient haccepts hsound
  | proceed => exact h.proceed (proceeds_of_proceed hstep) hsound
  | work place => exact h.work hstep hsound

/-- After a wait that is given up no run is held. -/
theorem Kept.giveUp (h : Kept settings system) (hgiveUp : system.giveUp = some after) :
    Kept settings after := by
  obtain ⟨_, hclient, rfl⟩ := eq_of_giveUp hgiveUp
  exact h.turn_of_letGo (by rw [hclient]; rfl) rfl

/-- Whatever waits are given up, runs are sound and a run that is held is not asked to stop. -/
theorem Attainable.kept (h : Attainable settings system) : Kept settings system :=
  h.preserves (fun hbefore hstep => hbefore.step hstep)
    (fun hbefore hgiveUp => hbefore.giveUp hgiveUp)
    (kept_new settings)

/-! ## Runs that nobody holds on to -/

/-- The run at the place is out of the client's reach. -/
structure Detached (place : Nat) (system : System) : Prop where
  there : place < system.runs.length
  not_handle : system.handle ≠ some place
  not_awaited : system.client.awaited ≠ some place

/-- **A run that is out of reach stays so**, and only its own steps change it. -/
theorem Detached.step (h : Detached place system) (hstep : system.step move = some after) :
    Detached place after ∧ (move = .work place ∨ after.runs[place]? = system.runs[place]?) := by
  have hnone : none ≠ some place := (Option.some_ne_none place).symm
  cases move with
  | request request =>
    cases (accepts_of_request hstep).2 with
    | @stopRun run _ hhandle =>
      have hother : run ≠ place := fun heq => h.not_handle (heq ▸ hhandle)
      refine ⟨⟨?_, hnone, fun heq => hother (Option.some.inj heq)⟩, .inr ?_⟩
      · rw [List.length_modify]
        exact h.there
      · simp [hother]
    | @waitRun run hhandle =>
      have hother : run ≠ place := fun heq => h.not_handle (heq ▸ hhandle)
      exact ⟨⟨h.there, hnone, fun heq => hother (Option.some.inj heq)⟩, .inr rfl⟩
    | waitNone => exact ⟨h, .inr rfl⟩
    | _ => exact ⟨⟨h.there, h.not_handle, hnone⟩, .inr rfl⟩
  | proceed =>
    cases proceeds_of_proceed hstep with
    | spawn hclient =>
      refine ⟨⟨?_, fun heq => Nat.ne_of_lt h.there (Option.some.inj heq).symm, hnone⟩, .inr ?_⟩
      · rw [List.length_append]
        exact Nat.lt_add_right _ h.there
      · exact List.getElem?_append_left h.there
    | _ => exact ⟨⟨h.there, h.not_handle, hnone⟩, .inr rfl⟩
  | work other =>
    obtain ⟨run, phase, shared, _, _, rfl⟩ := exists_of_work hstep
    refine ⟨⟨by rw [List.length_modify]; exact h.there, h.not_handle, h.not_awaited⟩, ?_⟩
    by_cases hplace : other = place
    · exact .inl (congrArg Move.work hplace)
    · exact .inr (by simp [hplace])

/-- A run that is out of reach stays so when a wait is given up. -/
theorem Detached.giveUp (h : Detached place system) (hgiveUp : system.giveUp = some after) :
    Detached place after ∧ after.runs = system.runs := by
  obtain ⟨_, _, rfl⟩ := eq_of_giveUp hgiveUp
  exact ⟨⟨h.there, h.not_handle, (Option.some_ne_none place).symm⟩, rfl⟩

/-- The run at the place is out of reach, and something holds of it. -/
def DetachedRun (place : Nat) (Holds : Run → Prop) (system : System) : Prop :=
  Detached place system ∧ ∃ run, system.runs[place]? = some run ∧ Holds run

/-- What a run keeps with its own steps it keeps for ever once it is out of reach. -/
theorem LooseSteps.detachedRun {Holds : Run → Prop} (hsteps : LooseSteps system after)
    (hown : ∀ run shared phase shared', Holds run → Run.step run shared = some (phase, shared') →
      Holds { run with phase })
    (hbefore : DetachedRun place Holds system) : DetachedRun place Holds after := by
  refine hsteps.preserves ?_ ?_ hbefore
  · rintro before after move ⟨hdetached, run, hrun, hholds⟩ hmove
    obtain ⟨hdetached', hsame⟩ := hdetached.step hmove
    refine ⟨hdetached', ?_⟩
    rcases hsame with rfl | hsame
    · obtain ⟨worker, phase, shared, hworker, hwork, rfl⟩ := exists_of_work hmove
      cases hrun.symm.trans hworker
      exact ⟨{ run with phase }, by simp [hrun], hown run _ _ _ hholds hwork⟩
    · exact ⟨run, hsame.trans hrun, hholds⟩
  · rintro before after ⟨hdetached, run, hrun, hholds⟩ hgiven
    obtain ⟨hdetached', hruns⟩ := hdetached.giveUp hgiven
    exact ⟨hdetached', run, hruns ▸ hrun, hholds⟩

/-- A run on its own has nothing left to say if none of its steps says anything. -/
theorem silent_of_advance (bound : Nat) {system : System} {run : Run}
    (hrun : system.runs[place]? = some run) (hwanted : run.cancelled = false)
    (hquiet : ∀ later after, LooseSteps system later → later.step (.work place) = some after →
      after.shared = later.shared)
    (hend : (run.advance bound system.shared).1.Silent) : run.Silent := by
  -- Back from where the run comes to rest: each step in between says nothing by assumption.
  induction bound generalizing system run with
  | zero => exact hend
  | succ bound ih =>
    unfold Run.advance at hend
    cases hstep : run.step system.shared with
    | none =>
      rw [hstep] at hend
      exact hend
    | some next =>
      obtain ⟨phase, shared⟩ := next
      rw [hstep] at hend
      have hwork : system.step (.work place) = some { system with
          shared, runs := system.runs.modify place fun run => { run with phase } } := by
        simp [System.step, System.work, hrun, hstep]
      have hthere : ({ system with
          shared, runs := system.runs.modify place fun run => { run with phase } } :
            System).runs[place]? = some { run with phase } := by simp [hrun]
      have hrest : { run with phase }.Silent := by
        refine ih hthere hwanted (fun later after hlater => ?_) hend
        exact hquiet later after (.head (.inl ⟨_, hwork⟩) hlater)
      exact (Run.silent_iff_of_step hwanted hstep).mpr ⟨hrest, hquiet _ _ .refl hwork⟩

/-- What becomes of a run that nobody holds on to. Nobody ever asks it to stop. It is silent from
now on exactly if it has nothing left to say. If its provider answers every request, it ends as due,
and if a corpus is due that it has not published yet, the session can come to show that corpus. -/
structure GoesOn (settings : Settings) (system : System) (place : Nat) (run : Run) : Prop where
  wanted : ∀ later, LooseSteps system later →
    ∃ run, later.runs[place]? = some run ∧ run.cancelled = false
  silent_iff : (∀ later after, LooseSteps system later → later.step (.work place) = some after →
    after.shared = later.shared) ↔ run.Silent
  ends : ∀ answers : Answers, run.provider = answers.provider →
    (run.settle system.shared).1.outcome? = some (answers.outcome settings)
  publishes : ∀ (answers : Answers) (corpus : Corpus) (skipped : List String),
    run.provider = answers.provider → answers.analysis settings = .ok (corpus, skipped) →
    run.published? = none → ∃ later, Steps system later ∧
      later.shared.snapshot.corpus = some corpus ∧ later.shared.snapshot.ready = true

/-- A sound run that is out of reach goes on. -/
theorem Detached.goesOn {run : Run} (h : Detached place system)
    (hrun : system.runs[place]? = some run) (hsound : run.Sound settings)
    (hwanted : run.cancelled = false) : GoesOn settings system place run where
  wanted later hlater :=
    (hlater.detachedRun (fun _ _ _ _ hrun _ => hrun) ⟨h, run, hrun, hwanted⟩).2
  silent_iff := by
    constructor
    · intro hquiet
      apply silent_of_advance (Run.stepBound run.provider) hrun hwanted hquiet
      exact Run.silent_of_rest ((run.cancelled_settle _).trans hwanted)
        (hsound.faithful.settle_at_rest _)
    · intro hsilent later after hlater hmove
      have hkeeps : DetachedRun place (fun run => run.cancelled = false ∧ run.Silent) later := by
        refine hlater.detachedRun ?_ ⟨h, run, hrun, hwanted, hsilent⟩
        rintro run shared phase shared' ⟨hwanted, hsilent⟩ hstep
        exact ⟨hwanted, ((Run.silent_iff_of_step hwanted hstep).mp hsilent).1⟩
      obtain ⟨_, now, hnow, hstill, hnothing⟩ := hkeeps
      obtain ⟨worker, phase, shared, hworker, hwork, rfl⟩ := exists_of_work hmove
      cases hnow.symm.trans hworker
      exact ((Run.silent_iff_of_step hstill hwork).mp hnothing).2
  ends answers hprovider := hsound.settle_outcome hprovider hwanted system.shared
  publishes answers corpus skipped hprovider hdue hunpublished :=
    ⟨_, steps_settle hrun, hsound.settle_shows hprovider hwanted hunpublished hdue system.shared⟩

/-- **A run whose client gives up the wait goes on**, whatever the client does afterwards. Let the
client wait for a run in any state that a session can come to, whichever waits were given up before,
and let it give up the wait. At any later time, thus also after a start or a clear has told that all
is forgotten, the run is still there and nobody has asked it to stop or ever does. It is silent from
then on exactly if it has ended, or if its provider makes it end or hang without a word. Otherwise
it still writes its status and tells its events, and publishes the corpus that is due. -/
theorem abandoned_runs_go_on {settings : Settings} {system abandoned now : System} {place : Nat}
    (hreach : Attainable settings system) (hclient : system.client = .waiting place)
    (hgiveUp : system.giveUp = some abandoned) (hlater : LooseSteps abandoned now) :
    ∃ run, now.runs[place]? = some run ∧ GoesOn settings now place run := by
  have hkept := hreach.kept
  have hhandle : system.handle = none := hkept.let_go (by rw [hclient]; rfl)
  have hheld : system.held = some place := by rw [held, hclient]; rfl
  obtain ⟨run, hrun, hwanted⟩ := hkept.wanted hheld
  have hplace : place < system.runs.length := (List.getElem?_eq_some_iff.mp hrun).1
  have hsound : run.Sound settings := hkept.sound run (List.mem_iff_getElem?.mpr ⟨place, hrun⟩)
  obtain ⟨_, _, rfl⟩ := eq_of_giveUp hgiveUp
  have hdetached : Detached place { system with client := .idle } :=
    ⟨hplace, by simp [hhandle], (Option.some_ne_none place).symm⟩
  have hkeeps : DetachedRun place (fun run => run.cancelled = false ∧ run.Sound settings) now := by
    refine hlater.detachedRun ?_ ⟨hdetached, run, hrun, hwanted, hsound⟩
    rintro run shared phase shared' ⟨hwanted, hsound⟩ hstep
    exact ⟨hwanted, hsound.step hstep⟩
  obtain ⟨hstill, last, hlast, hlastWanted, hlastSound⟩ := hkeeps
  exact ⟨last, hlast, hstill.goesOn hlast hlastSound hlastWanted⟩

/-- A run that skips a file publishes its corpus although the client has given up the wait and told
that all is forgotten. -/
theorem abandoned_runs_go_on_patchy :
    ∃ system abandoned cleared corpus,
      moves
        (.request (.start patchy.provider) :: List.replicate 5 .proceed ++
          [.work 0, .request .wait])
        (new .standard) = some system ∧
      system.giveUp = some abandoned ∧
      moves [.request .clear, .proceed, .proceed] abandoned = some cleared ∧
      cleared.shared = ⟨.blank, .cleared :: system.shared.log⟩ ∧
      patchy.analysis .standard = .ok (corpus, ["B.java"]) ∧
      ∃ later, Steps cleared later ∧
        later.shared.snapshot.corpus = some corpus ∧ later.shared.snapshot.ready = true := by
  have hmoves : ∃ system abandoned cleared run,
      moves
        (.request (.start patchy.provider) :: List.replicate 5 .proceed ++
          [.work 0, .request .wait])
        (new .standard) = some system ∧
      system.client = .waiting 0 ∧ system.giveUp = some abandoned ∧
      moves [.request .clear, .proceed, .proceed] abandoned = some cleared ∧
      cleared.shared = ⟨.blank, .cleared :: system.shared.log⟩ ∧
      cleared.runs[0]? = some run ∧ run.provider = patchy.provider ∧ run.published? = none :=
    ⟨_, _, _, _, rfl, rfl, rfl, rfl, rfl, rfl, rfl, rfl⟩
  have hanalysis : ∃ corpus, patchy.analysis .standard = .ok (corpus, ["B.java"]) := ⟨_, rfl⟩
  obtain ⟨system, abandoned, cleared, run, hsystem, hclient, hgiveUp, hcleared, hblank,
    hrun, hprovider, hunpublished⟩ := hmoves
  obtain ⟨corpus, hdue⟩ := hanalysis
  refine ⟨system, abandoned, cleared, corpus, hsystem, hgiveUp, hcleared, hblank, hdue, ?_⟩
  obtain ⟨last, hlast, hgoesOn⟩ :=
    abandoned_runs_go_on (steps_of_moves hsystem).loose hclient hgiveUp
    (steps_of_moves hcleared).loose
  cases hrun.symm.trans hlast
  exact hgoesOn.publishes patchy corpus ["B.java"] hprovider hdue hunpublished

/-- A client starts an analysis, gives up its wait after the listing and clears the session. After
the session has told that all is forgotten, the run still publishes its corpus, writes its status
and tells that the corpus is ready. -/
theorem abandoned_run_publishes_after_cleared :
    ∃ system abandoned cleared later,
      moves (startMoves 3 ++ [.request .wait]) (new .standard) = some system ∧
      system.giveUp = some abandoned ∧
      moves [.request .clear, .proceed, .proceed] abandoned = some cleared ∧
      cleared.shared = ⟨.blank, .cleared :: system.shared.log⟩ ∧
      moves (List.replicate 6 (.work 0)) cleared = some later ∧
      later.shared.snapshot.corpus.map Corpus.size = some 1 ∧
      later.shared.snapshot.status = "1 files analyzed" ∧
      later.shared.log = .ready 1 0 :: .status "1 files analyzed" :: cleared.shared.log :=
  ⟨_, _, _, _, rfl, rfl, rfl, rfl, rfl, rfl, rfl, rfl⟩

end System

end ClassAtlas
