import ClassAtlas.Proofs.Session.Outcomes

/-!
# What is displayed of a run

A session displays whether it is loading, and a status line. Both are written by the client when it
starts a run and then by the run. This file gives what is displayed in every phase of a run, proves
that this is what the session shows for as long as the client will still hear of the run, and
concludes what a client sees that has waited for a run: nothing is loading any more, and the status
line tells the failure if there was one. The exception is a run that ends as cancelled without
having been asked to, because its provider says so. Such a run ends in silence, like one that was
stopped, and the session goes on to look as if files were being fetched.
-/

namespace ClassAtlas

/-! ## What each phase displays -/

/-- What is displayed: whether a run is under way, and the status line. -/
def Snapshot.display (snapshot : Snapshot) : Bool × String :=
  (snapshot.loading, snapshot.status)

/-- What is displayed after a run with this outcome. -/
def Outcome.display : Outcome → Bool × String
  | .completed summary => (false, summary.status)
  | .failed failure =>
    if failure = .cancelled then (true, fetchingStatus) else (false, failure.status)
  | .crashed => (true, fetchingStatus)

namespace Run

/-- What is displayed in a phase of a run. -/
def Phase.display : Phase → Bool × String
  | .created => (true, "")
  | .announcingFetch => (true, fetchingStatus)
  | .listing => (true, fetchingStatus)
  | .fetching _ _ _ => (true, fetchingStatus)
  | .publishing _ _ => (true, fetchingStatus)
  | .reporting _ => (false, fetchingStatus)
  | .announcingStatus summary => (false, summary.status)
  | .announcingReady summary => (false, summary.status)
  | .failing _ => (true, fetchingStatus)
  | .reportingFailure _ => (false, fetchingStatus)
  | .announcingFailure failure => (false, failure.status)
  | .finished outcome => outcome.display

/-- The failure that a run is about to tell. -/
def Phase.failure? : Phase → Option Failure
  | .failing failure => some failure
  | .reportingFailure failure => some failure
  | .announcingFailure failure => some failure
  | _ => none

/-- The snapshot displays what the run has to show, and the run does not tell that it was
cancelled. -/
structure DisplayedBy (run : Run) (snapshot : Snapshot) : Prop where
  display_eq : snapshot.display = run.phase.display
  not_cancelled : run.phase.failure? ≠ some .cancelled

/-- While files are fetched a failure leaves the display as it is. -/
theorem displayedBy_afterFailure (run : Run) {snapshot : Snapshot} (failure : Failure)
    (hdisplay : snapshot.display = (true, fetchingStatus)) :
    { run with phase := afterFailure failure }.DisplayedBy snapshot := by
  unfold afterFailure
  split
  · exact ⟨hdisplay, by simp [Phase.failure?]⟩
  · rename_i hfailure
    exact ⟨hdisplay, by simpa [Phase.failure?] using hfailure⟩

/-- **What a run has to show is displayed** after every step. -/
theorem DisplayedBy.step {run : Run} {shared shared' : Shared} {phase : Phase}
    (hrun : run.DisplayedBy shared.snapshot) (h : run.step shared = some (phase, shared')) :
    { run with phase }.DisplayedBy shared'.snapshot := by
  obtain ⟨hdisplay, hfailure⟩ := hrun
  cases transition_of_step h with
  | begin hphase =>
    rw [hphase] at hdisplay
    exact ⟨congrArg (·.1, fetchingStatus) hdisplay, by simp [Phase.failure?]⟩
  | reject hphase => exact displayedBy_afterFailure run _ (by rw [hdisplay, hphase]; rfl)
  | failListing hphase => exact displayedBy_afterFailure run _ (by rw [hdisplay, hphase]; rfl)
  | failFetching hphase => exact displayedBy_afterFailure run _ (by rw [hdisplay, hphase]; rfl)
  | publish hphase =>
    rw [hphase] at hdisplay
    exact ⟨congrArg (false, ·.2) hdisplay, by simp [Phase.failure?]⟩
  | @report summary hphase =>
    rw [hphase] at hdisplay
    exact ⟨congrArg (·.1, summary.status) hdisplay, by simp [Phase.failure?]⟩
  | endLoading hphase =>
    rw [hphase] at hdisplay hfailure
    exact ⟨congrArg (false, ·.2) hdisplay, hfailure⟩
  | @reportFailure failure hphase =>
    rw [hphase] at hdisplay hfailure
    exact ⟨congrArg (·.1, failure.status) hdisplay, hfailure⟩
  | @tellFailure failure hphase =>
    have hother : failure ≠ .cancelled := by simpa [hphase, Phase.failure?] using hfailure
    refine ⟨?_, by simp [Phase.failure?]⟩
    rw [hphase] at hdisplay
    exact hdisplay.trans (if_neg hother).symm
  | _ =>
    simp only [*] at hdisplay
    exact ⟨hdisplay, by simp [Phase.failure?]⟩

/-- After a run has ended its outcome is displayed. -/
theorem DisplayedBy.display_of_outcome {run : Run} {snapshot : Snapshot}
    (hrun : run.DisplayedBy snapshot) {outcome : Outcome} (hend : run.outcome? = some outcome) :
    snapshot.display = outcome.display := by
  obtain ⟨provider, settings, cancelled, phase⟩ := run
  cases phase <;> cases hend
  exact hrun.display_eq

end Run

/-! ## The display of a session -/

/-- What is displayed after all was forgotten and before a run is started. -/
def Client.display? : Client → Option (Bool × String)
  | .announcingCleared _ => some (false, "")
  | .marking _ => some (false, "")
  | .announcingStarted _ => some (true, "")
  | .spawning _ => some (true, "")
  | _ => none

namespace System

/-- The session displays what its client has made of it, and then what the watched run has to
show. -/
structure Displayed (system : System) : Prop where
  prepared : ∀ {display : Bool × String}, system.client.display? = some display →
    system.shared.snapshot.display = display
  watched : ∀ {place : Nat} {run : Run}, system.watched = some place →
      system.runs[place]? = some run →
    run.DisplayedBy system.shared.snapshot

variable {settings : Settings} {system : System}

/-- Nothing is watched before the first start. -/
theorem displayed_new (settings : Settings) : Displayed (new settings) where
  prepared h := by cases h
  watched h := by cases h

/-- The display is right when the client turns to something else and leaves it alone, or no run is
watched. -/
theorem Displayed.turn (h : Displayed system) {shared : Shared} {handle : Option Nat}
    {lastSummary : Option Summary} {client : Client}
    (hprepared : ∀ display, client.display? = some display → shared.snapshot.display = display)
    (hwatched : client.awaited.or handle = system.watched ∧
        shared.snapshot.display = system.shared.snapshot.display ∨
      client.awaited.or handle = none) :
    Displayed { system with shared, handle, lastSummary, client } where
  prepared hdisplay := hprepared _ hdisplay
  watched := by
    intro place run hplace hrun
    rcases hwatched with ⟨hsame, hkept⟩ | hnone
    · obtain ⟨hdisplay, hfailure⟩ := h.watched (hsame.symm.trans hplace) hrun
      exact ⟨hkept.trans hdisplay, hfailure⟩
    · cases hnone.symm.trans hplace

/-- Asking a run to stop does not change what it has to show. -/
theorem Displayed.cancel (h : Displayed system) (place : Nat) :
    Displayed { system with runs := system.runs.modify place Run.cancel } where
  prepared := h.prepared
  watched := by
    intro other run hother hrun
    obtain ⟨before, hbefore, rfl⟩ := getElem?_modify_runs hrun
    obtain ⟨hdisplay, hfailure⟩ := h.watched hother hbefore
    split
    · exact ⟨hdisplay, hfailure⟩
    · exact ⟨hdisplay, hfailure⟩

/-- Every request keeps the display right. -/
theorem Displayed.accept (h : Displayed system) (hclient : system.client = .idle) {after : System}
    (haccepts : system.Accepts after) : Displayed after := by
  have hwatched : system.watched = system.handle := by
    simp [System.watched, hclient, Client.awaited]
  cases haccepts with
  | stopNone hhandle => exact h.turn (fun _ hdisplay => by cases hdisplay) (.inr hhandle)
  | stopRun hhandle =>
    exact (h.cancel _).turn (fun _ hdisplay => by cases hdisplay)
      (.inl ⟨(hwatched.trans hhandle).symm, rfl⟩)
  | waitNone => exact h
  | waitRun hhandle =>
    exact h.turn (fun _ hdisplay => by cases hdisplay) (.inl ⟨(hwatched.trans hhandle).symm, rfl⟩)
  | file name => exact h.turn (fun _ hdisplay => by cases hdisplay) (.inl ⟨hwatched.symm, rfl⟩)
  | folder path => exact h.turn (fun _ hdisplay => by cases hdisplay) (.inl ⟨hwatched.symm, rfl⟩)

/-- A new run has nothing to show yet. -/
theorem Displayed.spawn (h : Displayed system) {provider : Provider}
    (hclient : system.client = .spawning provider) :
    Displayed { system with
      runs := system.runs ++ [Run.start system.settings provider]
      handle := some system.runs.length
      client := .idle } where
  prepared hdisplay := by cases hdisplay
  watched := by
    intro place run hplace hrun
    have heq : system.runs.length = place := Option.some.inj hplace
    rw [← heq, List.getElem?_concat_length] at hrun
    cases hrun
    exact ⟨h.prepared (by rw [hclient]; rfl), by simp [Run.start, Run.Phase.failure?]⟩

/-- Every step of the client keeps the display right. -/
theorem Displayed.proceed (h : Displayed system) (hsupervised : Supervised settings system)
    {after : System} (hproceeds : system.Proceeds after) : Displayed after := by
  -- Between the stop of a run and the start of the next one no run is watched.
  have hlet : system.client.holdsOn = false → system.handle = none := hsupervised.let_go
  cases hproceeds with
  | stopped hclient =>
    exact h.turn (fun _ hdisplay => by cases hdisplay) (.inr (hlet (by rw [hclient]; rfl)))
  | forget hclient =>
    exact h.turn (fun _ hdisplay => by cases hdisplay; rfl) (.inr (hlet (by rw [hclient]; rfl)))
  | cleared hclient =>
    exact h.turn (fun _ hdisplay => by cases hdisplay) (.inr (hlet (by rw [hclient]; rfl)))
  | clearedToStart hclient =>
    refine h.turn (fun _ hdisplay => ?_) (.inr (hlet (by rw [hclient]; rfl)))
    cases hdisplay
    exact h.prepared (by rw [hclient]; rfl)
  | mark hclient =>
    refine h.turn (fun _ hdisplay => ?_) (.inr (hlet (by rw [hclient]; rfl)))
    cases hdisplay
    exact congrArg (true, ·.2) (h.prepared (by rw [hclient]; rfl))
  | started hclient =>
    refine h.turn (fun _ hdisplay => ?_) (.inr (hlet (by rw [hclient]; rfl)))
    cases hdisplay
    exact h.prepared (by rw [hclient]; rfl)
  | spawn hclient => exact h.spawn hclient
  | collected hclient =>
    exact h.turn (fun _ hdisplay => by cases hdisplay) (.inr (hlet (by rw [hclient]; rfl)))
  | file hclient =>
    exact h.turn (fun _ hdisplay => by cases hdisplay)
      (.inl ⟨by rw [System.watched, hclient]; rfl, rfl⟩)
  | folder hclient =>
    exact h.turn (fun _ hdisplay => by cases hdisplay)
      (.inl ⟨by rw [System.watched, hclient]; rfl, rfl⟩)

/-- A step of a run keeps the display right: only the watched run can make one. -/
theorem Displayed.work (h : Displayed system) (hsupervised : Supervised settings system)
    {place : Nat} {after : System} (hwork : system.work place = some after) : Displayed after := by
  obtain ⟨run, phase, shared, hrun, hstep, rfl⟩ := exists_of_work hwork
  have hend := Run.outcome?_eq_none_of_step hstep
  have hwatched := hsupervised.unfinished_watched hrun hend
  constructor
  case prepared =>
    intro display hdisplay
    have hblank : system.client.isBlank = true := by
      cases hclient : system.client <;> simp_all [Client.display?, Client.isBlank]
    exact absurd hend (hsupervised.finished (hsupervised.watched_of_blank hblank) hrun)
  case watched =>
    intro other after hother hafter
    have hplace : place = other := Option.some.inj (hwatched.symm.trans hother)
    obtain ⟨before, hbefore, rfl⟩ := getElem?_modify_runs hafter
    rw [if_pos hplace]
    rw [← hplace, hrun] at hbefore
    cases hbefore
    exact (h.watched hwatched hrun).step hstep

/-- **Every move keeps the display right.** -/
theorem Displayed.step (h : Displayed system) (hsupervised : Supervised settings system)
    {move : Move} {after : System} (hstep : system.step move = some after) : Displayed after := by
  cases move with
  | request request =>
    obtain ⟨hclient, haccepts⟩ := accepts_of_request hstep
    exact h.accept hclient haccepts
  | proceed => exact h.proceed hsupervised (proceeds_of_proceed hstep)
  | work place => exact h.work hsupervised hstep

/-- The display is right in every reachable system. -/
theorem Reachable.displayed (h : Reachable settings system) : Displayed system :=
  h.keeps (fun hreach hbefore hstep => hbefore.step hreach.supervised hstep)
    (displayed_new settings)

/-- When a client goes on that has waited for a run, the outcome of the run is displayed. -/
theorem Reachable.display_of_waited (h : Reachable settings system) {place : Nat} {after : System}
    (hclient : system.client = .waiting place) (hstep : system.step .proceed = some after) :
    ∃ outcome, system.outcome? place = some outcome ∧
      after.shared.snapshot.display = outcome.display := by
  have hwatched : system.watched = some place := by simp [System.watched, hclient, Client.awaited]
  rw [System.step, System.proceed, hclient] at hstep
  obtain ⟨outcome, houtcome, rfl⟩ := Option.map_eq_some_iff.mp hstep
  obtain ⟨run, hrun, hend⟩ := Option.bind_eq_some_iff.mp houtcome
  exact ⟨outcome, houtcome, (h.displayed.watched hwatched hrun).display_of_outcome hend⟩

end System

/-! ## What a client sees that has waited -/

/-- A client that waits for a run sees the outcome that is due. -/
theorem Session.Reached.wait_displays {settings : Settings} {session : Session}
    (h : session.Reached settings) {answers : Answers} {run : Run} (hrun : session.run = some run)
    (hprovider : run.provider = answers.provider) (hwanted : run.cancelled = false) :
    session.wait.1.snapshot.display = (answers.outcome settings).display := by
  obtain ⟨system, hreach, hclient, rfl⟩ := System.reachable_of_reached h
  obtain ⟨place, hhandle, hplace⟩ := Option.bind_eq_some_iff.mp hrun
  have hwatched : system.watched = some place := by
    simp [System.watched, hclient, Client.awaited, hhandle]
  have hends := (hreach.endsAsDue hplace hprovider hwanted).ends
  obtain ⟨later, hlater, hsettled, hshared, hsame⟩ := hreach.settle hplace
  have hsnapshot : system.session.wait.1.snapshot = later.shared.snapshot := by
    rw [Session.snapshot_wait hrun, hshared]
    rfl
  rw [hsnapshot]
  exact (hlater.displayed.watched (hsame.trans hwatched) hsettled).display_of_outcome hends

namespace System

/-- **A run that a client has waited for is no longer displayed as loading, and its failure is
displayed**, unless the run ended as cancelled. Whatever the order of moves, the outcome of the run
is displayed when the client goes on. If the provider answers every request and the client has not
stopped the run, waiting gives a result. Unless that is a cancellation, nothing is loading then, and
the status line tells the failure if there was one. -/
theorem waited_runs_display_outcome (settings : Settings) :
    (∀ (system after : System) (place : Nat), Reachable settings system →
      system.client = .waiting place →
      system.step .proceed = some after →
      ∃ outcome, system.outcome? place = some outcome ∧
        after.shared.snapshot.display = outcome.display) ∧
    ∀ (answers : Answers) (session : Session) (run : Run), session.Reached settings →
      session.run = some run →
      run.provider = answers.provider → run.cancelled = false →
      ∃ result, session.wait.2 = some result ∧
        (result ≠ .error .cancelled → session.wait.1.snapshot.loading = false) ∧
        ∀ failure, result = .error failure → failure ≠ .cancelled →
          session.wait.1.snapshot.status = "Error: " ++ failure.message := by
  refine ⟨fun system after place hreach hclient hstep => hreach.display_of_waited hclient hstep, ?_⟩
  intro answers session run hreached hrun hprovider hwanted
  have hdisplay := hreached.wait_displays hrun hprovider hwanted
  refine ⟨_, (hreached.wait_as_due hrun hprovider hwanted).1, ?_⟩
  cases hdue : answers.analysis settings with
  | ok found =>
    simp only [Answers.outcome, hdue] at hdisplay ⊢
    exact ⟨fun _ => congrArg Prod.fst hdisplay, fun _ hfailure => by cases hfailure⟩
  | error failure =>
    simp only [Answers.outcome, hdue] at hdisplay ⊢
    have hother :
        failure ≠ .cancelled → session.wait.1.snapshot.display = (false, failure.status) :=
      fun hne => hdisplay.trans (if_neg hne)
    refine ⟨fun hresult => ?_, ?_⟩
    · have hne : failure ≠ .cancelled := fun heq => hresult (by rw [heq]; rfl)
      exact congrArg Prod.fst (hother hne)
    · rintro told htold hne
      cases htold
      exact congrArg Prod.snd (hother hne)

/-- Answers that refuse to list any files. -/
def refusing (failure : Failure) : Answers where
  name := "refusing"
  listing := .error failure
  fetch path := .error (.sourceFile path .missing)

/-- The moves of a first start whose run goes on to its end and is waited for. -/
def waitedMoves (failure : Failure) (steps : Nat) : List Move :=
  .request (.start (refusing failure).provider) ::
    (List.replicate 5 .proceed ++ List.replicate steps (.work 0) ++ [.request .wait])

/-- A provider that refuses to list its files for a reason of its own has its reason displayed. -/
theorem waited_runs_display_outcome_refused :
    (∃ system after, moves (waitedMoves .notReady 6) (new .standard) = some system ∧
      system.step .proceed = some after ∧
      ∃ outcome, system.outcome? 0 = some outcome ∧
        after.shared.snapshot.display = outcome.display) ∧
    ∃ result, ((Session.new .standard).start (refusing .notReady).provider).wait.2 = some result ∧
      result = .error .notReady ∧
      ((Session.new .standard).start (refusing .notReady).provider).wait.1.snapshot.loading =
        false ∧
      ((Session.new .standard).start (refusing .notReady).provider).wait.1.snapshot.status =
        "Error: " ++ Failure.notReady.message := by
  have hmoves : ∃ system after, moves (waitedMoves .notReady 6) (new .standard) = some system ∧
      system.client = .waiting 0 ∧ system.step .proceed = some after := ⟨_, _, rfl, rfl, rfl⟩
  obtain ⟨system, after, hsystem, hclient, hstep⟩ := hmoves
  obtain ⟨hsystems, hsessions⟩ := waited_runs_display_outcome .standard
  obtain ⟨result, hresult, hloading, hstatus⟩ :=
    hsessions (refusing .notReady) _ _ (.start _ .new) rfl rfl rfl
  have heq : result = .error .notReady := by
    cases hresult
    rfl
  refine ⟨⟨system, after, hsystem, hstep,
    hsystems system after 0 (steps_of_moves hsystem) hclient hstep⟩, result, hresult, heq, ?_, ?_⟩
  · exact hloading (by rw [heq]; decide)
  · exact hstatus .notReady heq (by decide)

/-- **A run whose provider calls itself cancelled seems to go on for ever.** The client has not
stopped it, and has waited for its end, but the session is still displayed as loading, and no
failure is told. -/
theorem waited_runs_display_outcome_cancelling :
    ∃ run, ((Session.new .standard).start (refusing .cancelled).provider).run = some run ∧
      run.cancelled = false ∧
      ((Session.new .standard).start (refusing .cancelled).provider).wait.2 =
        some (.error .cancelled) ∧
      ((Session.new .standard).start (refusing .cancelled).provider).wait.1.snapshot.loading =
        true ∧
      ((Session.new .standard).start (refusing .cancelled).provider).wait.1.snapshot.status =
        "Fetching..." :=
  ⟨_, rfl, rfl, rfl, rfl, rfl⟩

end System

end ClassAtlas
