import ClassAtlas.Proofs.Session.Chronicle

/-!
# The state of a session from its events

Everything that a session shows is written first and told afterwards, some of it by the client and
some by a run. This file keeps account of what has been written and is still to be told, and proves
that the events so far together with these make up the state, in whatever order the client and its
runs move. So whenever no run is under way, a subscriber who goes by the events alone knows the
status line, whether there is a corpus, and the selections.
-/

namespace ClassAtlas

/-! ## What a subscriber makes of the events -/

/-- What a subscriber keeps account of. -/
structure View where
  /-- The status line. -/
  status : String
  /-- A corpus has been published. -/
  ready : Bool
  /-- The selected file. -/
  file : Option String
  /-- The selected folder. -/
  folder : Option String
  deriving DecidableEq

/-- What a subscriber would like to know of a snapshot. -/
def Snapshot.view (snapshot : Snapshot) : View :=
  ⟨snapshot.status, snapshot.ready, snapshot.file, snapshot.folder⟩

namespace Event

/-- The status line that is told. -/
def statusText? : Event → Option String
  | .status text => some text
  | _ => none

/-- The file that is told to be selected. -/
def file? : Event → Option String
  | .fileSelected name => some name
  | _ => none

/-- The folder that is told to be selected. -/
def folder? : Event → Option String
  | .folderSelected path => some path
  | _ => none

/-- The events since all was forgotten last, the newest first. -/
def sinceCleared (events : List Event) : List Event :=
  events.reverse.takeWhile (· ≠ .cleared)

/-- What the events tell, the oldest of which comes first: the last status line and the last
selections since all was forgotten, and whether a corpus became ready since then. -/
def view (events : List Event) : View where
  status := ((sinceCleared events).findSome? statusText?).getD ""
  ready := (sinceCleared events).any isReady
  file := (sinceCleared events).findSome? file?
  folder := (sinceCleared events).findSome? folder?

end Event

namespace View

/-- The view of a subscriber who is told one more event. -/
def after (view : View) : Event → View
  | .cleared => ⟨"", false, none, none⟩
  | .started _ => view
  | .status text => { view with status := text }
  | .ready _ _ => { view with ready := true }
  | .fileSelected name => { view with file := some name }
  | .folderSelected path => { view with folder := some path }

/-- The view of a subscriber who is told some more events. -/
def afterAll (view : View) (events : List Event) : View :=
  events.foldl after view

/-- Without events a view stays as it is. -/
@[simp] theorem afterAll_nil (view : View) : view.afterAll [] = view := rfl

/-- A view takes up events one after the other. -/
@[simp] theorem afterAll_cons (view : View) (event : Event) (events : List Event) :
    view.afterAll (event :: events) = (view.after event).afterAll events := rfl

/-- It makes no difference whether a selection is told before or after something else. -/
theorem after_comm {selection event : Event} (hselection : selection.isSelection = true)
    (hevent : event.isSelection = false) (hcleared : event ≠ .cleared) (view : View) :
    (view.after selection).after event = (view.after event).after selection := by
  cases event with
  | cleared => exact absurd rfl hcleared
  | fileSelected name => cases hevent
  | folderSelected path => cases hevent
  | _ => cases selection <;> first | rfl | cases hselection

/-- An event that may be told before or after each of some others may be told before or after all of
them. -/
theorem afterAll_comm {event : Event} {events : List Event}
    (h : ∀ other ∈ events, ∀ view : View,
      (view.after event).after other = (view.after other).after event)
    (view : View) : (view.after event).afterAll events = (view.afterAll events).after event := by
  induction events generalizing view with
  | nil => rfl
  | cons other rest ih =>
    rw [afterAll_cons, afterAll_cons, h other List.mem_cons_self]
    exact ih (fun later hlater => h later (List.mem_cons_of_mem other hlater)) _

end View

namespace Event

/-- Nothing has happened since all was forgotten just now. -/
theorem sinceCleared_concat_cleared (events : List Event) :
    sinceCleared (events ++ [.cleared]) = [] := by
  simp [sinceCleared]

/-- Any other event is the newest one since all was forgotten. -/
theorem sinceCleared_concat (events : List Event) {event : Event} (hevent : event ≠ .cleared) :
    sinceCleared (events ++ [event]) = event :: sinceCleared events := by
  simp [sinceCleared, hevent]

/-- One more event changes the view accordingly. -/
theorem view_concat (events : List Event) (event : Event) :
    view (events ++ [event]) = (view events).after event := by
  by_cases hevent : event = .cleared
  · rw [hevent, view, sinceCleared_concat_cleared]
    rfl
  · rw [view, sinceCleared_concat events hevent]
    cases event with
    | cleared => exact absurd rfl hevent
    | _ => rfl

end Event

/-- What was told so far. -/
def Shared.toldView (shared : Shared) : View :=
  Event.view shared.log.reverse

/-- An event that is added to the log is told. -/
theorem Shared.toldView_emit (shared : Shared) (event : Event) :
    (shared.emit event).toldView = shared.toldView.after event := by
  rw [Shared.toldView, Shared.toldView, ← Event.view_concat, Shared.emit, List.reverse_cons]

/-! ## What is still to be told -/

/-- What the client has written and not told yet. -/
def Client.owed : Client → List Event
  | .announcingCleared _ => [.cleared]
  | .announcingFile name => [.fileSelected name]
  | .announcingFolder path => [.folderSelected path]
  | _ => []

/-- As long as nothing is forgotten, the client owes nothing but selections. -/
theorem Client.isSelection_of_owed {client : Client} (hblank : client.isBlank = false)
    {event : Event} (hevent : event ∈ client.owed) : event.isSelection = true := by
  cases client with
  | announcingCleared next => cases hblank
  | announcingFile name => rw [List.mem_singleton.mp hevent]; rfl
  | announcingFolder path => rw [List.mem_singleton.mp hevent]; rfl
  | _ => cases hevent

namespace Run

/-- What a run has written and not told yet when it comes to a phase. -/
def Phase.owed : Phase → List Event
  | .announcingFetch => [.status fetchingStatus]
  | .reporting summary => [.ready summary.entities summary.skipped.length]
  | .announcingStatus summary =>
    [.status summary.status, .ready summary.entities summary.skipped.length]
  | .announcingReady summary => [.ready summary.entities summary.skipped.length]
  | .announcingFailure failure => [.status failure.status]
  | _ => []

/-- A run selects nothing and forgets nothing. -/
theorem Phase.not_isSelection_of_owed {phase : Phase} {event : Event}
    (hevent : event ∈ phase.owed) :
    event.isSelection = false ∧ event ≠ .cleared := by
  cases phase with
  | announcingStatus summary =>
    simp only [owed, List.mem_cons, List.not_mem_nil, or_false] at hevent
    rcases hevent with rfl | rfl <;> exact ⟨rfl, by simp⟩
  | announcingFetch => rw [List.mem_singleton.mp hevent]; exact ⟨rfl, by simp⟩
  | reporting summary => rw [List.mem_singleton.mp hevent]; exact ⟨rfl, by simp⟩
  | announcingReady summary => rw [List.mem_singleton.mp hevent]; exact ⟨rfl, by simp⟩
  | announcingFailure failure => rw [List.mem_singleton.mp hevent]; exact ⟨rfl, by simp⟩
  | _ => cases hevent

/-- A run that has ended owes nothing. -/
theorem owed_of_outcome {run : Run} (hend : run.outcome? ≠ none) : run.phase.owed = [] := by
  obtain ⟨provider, settings, cancelled, phase⟩ := run
  cases phase with
  | finished outcome => rfl
  | _ => exact absurd rfl hend

/-- A failure is not written at once. -/
theorem owed_afterFailure (failure : Failure) : (afterFailure failure).owed = [] := by
  unfold afterFailure
  split <;> rfl

/-- The step tells the first thing that the run owes, or writes something that the run owes from
then on, or does neither. -/
inductive Accounts (run : Run) (shared : Shared) (phase : Phase) (shared' : Shared) : Prop
  | tells {event : Event} (hshared : shared' = shared.emit event)
    (howed : run.phase.owed = event :: phase.owed)
  | writes (event : Event) (hlog : shared'.log = shared.log)
      (hview : shared'.snapshot.view = shared.snapshot.view.after event)
      (hevent : event.isSelection = false ∧ event ≠ .cleared)
      (howed : ∀ view : View, view.afterAll phase.owed = (view.afterAll run.phase.owed).after event)
  | neither (hlog : shared'.log = shared.log) (hview : shared'.snapshot.view = shared.snapshot.view)
      (howed : phase.owed = run.phase.owed)

/-- **A run tells all that it writes.** -/
theorem accounts_of_step {run : Run} {shared shared' : Shared} {phase : Phase}
    (h : run.step shared = some (phase, shared')) : run.Accounts shared phase shared' := by
  cases transition_of_step h with
  | begin hphase =>
    exact .writes (.status fetchingStatus) rfl rfl ⟨rfl, by simp⟩ (by simp [hphase, Phase.owed])
  | tellFetch hphase => exact .tells rfl (by rw [hphase]; rfl)
  | reject hphase => exact .neither rfl rfl (by rw [owed_afterFailure, hphase]; rfl)
  | failListing hphase => exact .neither rfl rfl (by rw [owed_afterFailure, hphase]; rfl)
  | failFetching hphase => exact .neither rfl rfl (by rw [owed_afterFailure, hphase]; rfl)
  | @publish corpus skipped hphase =>
    exact .writes (.ready corpus.size skipped.length) rfl rfl ⟨rfl, by simp⟩
      (by simp [hphase, Phase.owed])
  | @report summary hphase =>
    refine .writes (.status summary.status) rfl rfl ⟨rfl, by simp⟩ fun view => ?_
    rw [hphase]
    rfl
  | tellStatus hphase => exact .tells rfl (by rw [hphase]; rfl)
  | tellReady hphase => exact .tells rfl (by rw [hphase]; rfl)
  | @reportFailure failure hphase =>
    exact .writes (.status failure.status) rfl rfl ⟨rfl, by simp⟩ (by simp [hphase, Phase.owed])
  | tellFailure hphase => exact .tells rfl (by rw [hphase]; rfl)
  | _ => exact .neither rfl rfl (by simp only [*, Phase.owed])

end Run

/-! ## Keeping account -/

namespace Shared

/-- The state is what was told, together with what a run and the client have still to tell. -/
def Accounts (shared : Shared) (byRun byClient : List Event) : Prop :=
  shared.snapshot.view = (shared.toldView.afterAll byRun).afterAll byClient

variable {shared shared' : Shared} {byRun byClient : List Event} {event : Event}

/-- The account stays right when neither the view nor what was told changes. -/
theorem Accounts.congr (h : shared.Accounts byRun byClient)
    (hview : shared'.snapshot.view = shared.snapshot.view)
    (htold : shared'.toldView = shared.toldView) : shared'.Accounts byRun byClient := by
  rw [Accounts, hview, htold]
  exact h

/-- A selection that is written is to be told by the client. -/
theorem Accounts.writeSelection (h : shared.Accounts byRun []) (hlog : shared'.log = shared.log)
    (hview : shared'.snapshot.view = shared.snapshot.view.after event) :
    shared'.Accounts byRun [event] := by
  rw [Accounts, toldView, hlog, hview, h]
  rfl

/-- A selection is told, and whatever the run owes it owes still. -/
theorem Accounts.tellSelection (h : shared.Accounts byRun [event])
    (hevent : event.isSelection = true)
    (hrun : ∀ other ∈ byRun, other.isSelection = false ∧ other ≠ .cleared) :
    (shared.emit event).Accounts byRun [] := by
  have hcomm : ∀ other ∈ byRun, ∀ view : View,
      (view.after event).after other = (view.after other).after event := by
    intro other hother view
    obtain ⟨hselection, hcleared⟩ := hrun other hother
    exact View.after_comm hevent hselection hcleared view
  rw [Accounts, toldView_emit, View.afterAll_comm hcomm]
  exact h

/-- Where all is forgotten, that is all there is to tell. -/
theorem accounts_forget (shared : Shared) (byRun : List Event) :
    shared.forget.Accounts byRun [.cleared] :=
  rfl

/-- All is forgotten, and then it is told while no run owes anything. -/
theorem Accounts.tellCleared (h : shared.Accounts byRun [.cleared]) (hrun : byRun = []) :
    (shared.emit .cleared).Accounts byRun [] := by
  rw [hrun, Accounts, toldView_emit]
  exact h

/-- A step of a run keeps the account right. The client may have a selection to tell meanwhile,
which makes no difference to what the run writes and tells. -/
theorem Accounts.step {run : Run} {phase : Run.Phase} (h : shared.Accounts run.phase.owed byClient)
    (hclient : ∀ other ∈ byClient, other.isSelection = true)
    (hstep : run.step shared = some (phase, shared')) :
    shared'.Accounts phase.owed byClient := by
  cases Run.accounts_of_step hstep with
  | tells hshared howed =>
    rw [howed] at h
    rw [hshared, Accounts, toldView_emit]
    exact h
  | writes event hlog hview hevent howed =>
    have hcomm : ∀ other ∈ byClient, ∀ view : View,
        (view.after event).after other = (view.after other).after event := by
      intro other hother view
      exact (View.after_comm (hclient other hother) hevent.1 hevent.2 view).symm
    rw [Accounts, toldView, hlog, howed, View.afterAll_comm hcomm, hview, h]
    rfl
  | neither hlog hview howed =>
    rw [howed]
    exact h.congr hview (by rw [toldView, hlog, toldView])

end Shared

/-! ## The account of a session -/

namespace System

/-- What a watched run has written and not told yet. -/
def owedBy (runs : List Run) (watched : Option Nat) : List Event :=
  match watched.bind (runs[·]?) with
  | some run => run.phase.owed
  | none => []

/-- Without a watched run nothing is owed. -/
@[simp] theorem owedBy_none (runs : List Run) : owedBy runs none = [] := rfl

variable {runs : List Run} {place : Nat} {run : Run}

/-- It is the watched run that owes something. -/
theorem owedBy_eq (hrun : runs[place]? = some run) : owedBy runs (some place) = run.phase.owed := by
  simp [owedBy, hrun]

/-- Runs select nothing and forget nothing. -/
theorem not_isSelection_of_owedBy {watched : Option Nat} {event : Event}
    (hevent : event ∈ owedBy runs watched) :
    event.isSelection = false ∧ event ≠ .cleared := by
  unfold owedBy at hevent
  split at hevent
  · exact Run.Phase.not_isSelection_of_owed hevent
  · cases hevent

/-- Asking a run to stop does not change what it owes. -/
theorem owedBy_cancel (runs : List Run) (place : Nat) :
    owedBy (runs.modify place Run.cancel) (some place) = owedBy runs (some place) := by
  cases hrun : runs[place]? with
  | none => simp [owedBy, hrun]
  | some run =>
    have hcancelled : (runs.modify place Run.cancel)[place]? = some run.cancel := by simp [hrun]
    rw [owedBy_eq hcancelled, owedBy_eq hrun]
    rfl

/-- What is shared is in line with what the watched run and the client have still to tell. -/
def Accounted (system : System) : Prop :=
  system.shared.Accounts (owedBy system.runs system.watched) system.client.owed

variable {settings : Settings} {system : System}

/-- Once a run has ended, it owes nothing. -/
theorem owedBy_of_outcome {outcome : Outcome} (houtcome : system.outcome? place = some outcome) :
    owedBy system.runs (some place) = [] := by
  obtain ⟨run, hrun, hend⟩ := Option.bind_eq_some_iff.mp houtcome
  rw [owedBy_eq hrun]
  exact Run.owed_of_outcome (by rw [hend]; exact Option.some_ne_none outcome)

/-- The account is settled before the first start. -/
theorem accounted_new (settings : Settings) : Accounted (new settings) :=
  rfl

/-- The account in terms of the client and of what is watched. -/
theorem Accounted.of_client (h : Accounted system) {client : Client}
    (hclient : system.client = client) :
    system.shared.Accounts (owedBy system.runs (client.awaited.or system.handle)) client.owed := by
  rw [← hclient]
  exact h

/-- Every request keeps the account right: a selection that is written is told later. -/
theorem Accounted.accept (h : Accounted system) (hclient : system.client = .idle) {after : System}
    (haccepts : system.Accepts after) : Accounted after := by
  have hidle : system.shared.Accounts (owedBy system.runs system.handle) [] := h.of_client hclient
  cases haccepts with
  | stopNone => exact hidle
  | @stopRun place next hhandle =>
    rw [hhandle, ← owedBy_cancel] at hidle
    exact hidle
  | waitNone => exact h
  | waitRun hhandle =>
    rw [hhandle] at hidle
    exact hidle
  | file name => exact hidle.writeSelection rfl rfl
  | folder path => exact hidle.writeSelection rfl rfl

/-- A client that has awaited the end of a run can lose sight of it. -/
theorem Accounted.settled (h : Accounted system) (hsupervised : Supervised settings system)
    {outcome : Outcome} (hawaited : system.client.awaited = some place)
    (houtcome : system.outcome? place = some outcome) :
    system.shared.Accounts (owedBy system.runs system.handle) [] := by
  have hhandle : system.handle = none := by
    apply hsupervised.let_go
    cases hclient : system.client <;> simp_all [Client.awaited, Client.holdsOn]
  have howed : system.client.owed = [] := by
    cases hclient : system.client <;> simp_all [Client.awaited, Client.owed]
  have hwatched : system.watched = some place := by simp [watched, hawaited]
  rw [Accounted, hwatched, owedBy_of_outcome houtcome, howed] at h
  rw [hhandle]
  exact h

/-- Every step of the client keeps the account right. -/
theorem Accounted.proceed (h : Accounted system) (hsupervised : Supervised settings system)
    {after : System} (hproceeds : system.Proceeds after) : Accounted after := by
  -- Between the end of a run and the start of the next one no run is watched.
  have hlet : system.client.holdsOn = false → owedBy system.runs system.handle = [] := by
    intro hholds
    rw [hsupervised.let_go hholds, owedBy_none]
  cases hproceeds with
  | stopped hclient houtcome => exact h.settled hsupervised (by rw [hclient]; rfl) houtcome
  | forget hclient => exact Shared.accounts_forget _ _
  | cleared hclient => exact (h.of_client hclient).tellCleared (hlet (by rw [hclient]; rfl))
  | clearedToStart hclient => exact (h.of_client hclient).tellCleared (hlet (by rw [hclient]; rfl))
  | mark hclient => exact (h.of_client hclient).congr rfl rfl
  | started hclient => exact (h.of_client hclient).congr rfl (Shared.toldView_emit _ _)
  | @spawn provider hclient =>
    have hnothing := hlet (by rw [hclient]; rfl)
    have hthere : (system.runs ++ [Run.start system.settings provider])[system.runs.length]? =
        some (Run.start system.settings provider) := List.getElem?_concat_length
    have hbefore : system.shared.Accounts (owedBy system.runs system.handle) [] :=
      h.of_client hclient
    have hafter : system.shared.Accounts
        (owedBy (system.runs ++ [Run.start system.settings provider]) (some system.runs.length))
          [] := by
      rw [owedBy_eq hthere]
      rw [hnothing] at hbefore
      exact hbefore
    exact hafter
  | collected hclient houtcome => exact h.settled hsupervised (by rw [hclient]; rfl) houtcome
  | file hclient => exact (h.of_client hclient).tellSelection rfl fun _ => not_isSelection_of_owedBy
  | folder hclient => exact (h.of_client hclient).tellSelection rfl fun _ =>
    not_isSelection_of_owedBy

/-- A step of a run keeps the account right: only the watched run can make one. -/
theorem Accounted.work (h : Accounted system) (hsupervised : Supervised settings system)
    {after : System} (hwork : system.work place = some after) : Accounted after := by
  obtain ⟨run, phase, shared, hrun, hstep, rfl⟩ := exists_of_work hwork
  have hend := Run.outcome?_eq_none_of_step hstep
  have hwatched := hsupervised.unfinished_watched hrun hend
  have hblank := hsupervised.not_blank hrun hend
  have hafter : (system.runs.modify place fun run => { run with phase })[place]? =
      some { run with phase } := by
    simp [hrun]
  rw [Accounted, hwatched, owedBy_eq hrun] at h
  have hnext := h.step (fun _ => Client.isSelection_of_owed hblank) hstep
  rw [← owedBy_eq hafter, ← hwatched] at hnext
  exact hnext

/-- **Every move keeps the account right.** -/
theorem Accounted.step (h : Accounted system) (hsupervised : Supervised settings system)
    {move : Move} {after : System} (hstep : system.step move = some after) : Accounted after := by
  cases move with
  | request request =>
    obtain ⟨hclient, haccepts⟩ := accepts_of_request hstep
    exact h.accept hclient haccepts
  | proceed => exact h.proceed hsupervised (proceeds_of_proceed hstep)
  | work place => exact h.work hsupervised hstep

/-- The account is right in every reachable system. -/
theorem Reachable.accounted (h : Reachable settings system) : Accounted system :=
  h.keeps (fun hreach hbefore hstep => hbefore.step hreach.supervised hstep)
    (accounted_new settings)

/-- Once all runs have ended, none of them owes anything. -/
theorem owedBy_of_ended (hended : ∀ run ∈ system.runs, run.outcome? ≠ none) (watched : Option Nat) :
    owedBy system.runs watched = [] := by
  unfold owedBy
  split
  · rename_i run hrun
    obtain ⟨place, _, hplace⟩ := Option.bind_eq_some_iff.mp hrun
    exact Run.owed_of_outcome (hended run (List.mem_iff_getElem?.mpr ⟨place, hplace⟩))
  · rfl

/-- Where neither a run nor the client has anything left to tell, the events make up the state. -/
theorem Reachable.view_eq (h : Reachable settings system) (hclient : system.client.owed = [])
    (hended : ∀ run ∈ system.runs, run.outcome? ≠ none) :
    system.session.snapshot.view = Event.view system.session.events := by
  have haccounted := h.accounted
  rw [Accounted, hclient, owedBy_of_ended hended] at haccounted
  exact haccounted

end System

namespace Session

/-- **The events make up the state.** In whatever order the client and its runs have moved, if no
run is under way and the client is not between a write and the event that tells of it, then the
session shows what its events tell: the last status line and the last selections since all was
forgotten, and that there is a corpus if one became ready since then. So it is after any sequence of
operations. -/
theorem events_make_up_state (settings : Settings) :
    (∀ system, System.Reachable settings system → system.client.owed = [] →
      (∀ run ∈ system.runs, run.outcome? ≠ none) →
      system.session.snapshot.view = Event.view system.session.events) ∧
    ∀ session : Session, session.Reached settings →
      (∀ run, session.run = some run → run.outcome? ≠ none) →
      session.snapshot.view = Event.view session.events := by
  refine ⟨fun system hreach hclient hended => hreach.view_eq hclient hended, ?_⟩
  intro session hsession hended
  obtain ⟨system, hreach, hclient, rfl⟩ := System.reachable_of_reached hsession
  refine hreach.view_eq (by rw [hclient]; rfl) fun run hrun hgoing => ?_
  -- A run that has not ended is the one of the session.
  obtain ⟨place, hplace⟩ := List.mem_iff_getElem?.mp hrun
  have hwatched := hreach.supervised.unfinished_watched hplace hgoing
  have hhandle : system.handle = some place := by
    simpa [System.watched, hclient, Client.awaited] using hwatched
  have hheld : system.session.run = some run := by simp [System.session, hhandle, hplace]
  exact hended run hheld hgoing

/-- A selection that is made while files are fetched is still there when the corpus is ready, and
the events tell of both. -/
theorem events_make_up_state_shop :
    (∃ system, System.moves (System.startMoves 4 ++
        [.request (.selectFile "A"), .work 0, .work 0, .proceed, .work 0, .work 0, .work 0])
          (System.new .standard) = some system ∧
      system.session.snapshot.view = ⟨"1 files analyzed", true, some "A", none⟩ ∧
      system.session.snapshot.view = Event.view system.session.events) ∧
    (((new .standard).start System.shop).wait.1.selectFolder "").snapshot.view =
      Event.view (((new .standard).start System.shop).wait.1.selectFolder "").events := by
  have hmoves : ∃ system, System.moves (System.startMoves 4 ++
      [.request (.selectFile "A"), .work 0, .work 0, .proceed, .work 0, .work 0, .work 0])
        (System.new .standard) = some system ∧
      system.session.snapshot.view = ⟨"1 files analyzed", true, some "A", none⟩ ∧
      system.client.owed = [] ∧ system.runs.all (·.outcome?.isSome) = true :=
        ⟨_, rfl, rfl, rfl, rfl⟩
  obtain ⟨system, hsystem, hview, hclient, hended⟩ := hmoves
  obtain ⟨hsystems, hsessions⟩ := events_make_up_state .standard
  refine ⟨⟨system, hsystem, hview, hsystems system (System.steps_of_moves hsystem) hclient ?_⟩, ?_⟩
  · intro run hrun
    exact Option.isSome_iff_ne_none.mp (List.all_eq_true.mp hended run hrun)
  · have hnone : (((new .standard).start System.shop).wait.1.selectFolder "").run = none := rfl
    exact hsessions _ (.selectFolder "" (.wait (.start _ .new))) fun run hrun => by
      cases hnone.symm.trans hrun

end Session

end ClassAtlas
