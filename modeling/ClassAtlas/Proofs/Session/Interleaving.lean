import ClassAtlas.Session
import Mathlib.Logic.Relation

/-!
# Interleaving a client with its runs

An operation of a session is not one action: while the client waits for the end of a run, or between
two writes of its own, any run may go on. Here a session is a system of one client and all the runs
it ever started. The client and each run move by small steps, one at a time and in any order, built
from the same writes and events as the operations themselves. A run keeps moving whether or not the
client still has a handle to it.
-/

namespace ClassAtlas

/-- The operations of a client that change something. -/
inductive Request
  | start (provider : Provider)
  | wait
  | clear
  | selectFile (name : String)
  | selectFolder (path : String)

/-- What the client does next. Where a start and a clear do the same, `next` is the provider to
start with. -/
inductive Client
  /-- Make any request. -/
  | idle
  /-- Await the end of a run that it asked to stop. -/
  | stopping (run : Nat) (next : Option Provider)
  /-- Forget all results and selections. -/
  | forgetting (next : Option Provider)
  /-- Tell that all is forgotten. -/
  | announcingCleared (next : Option Provider)
  /-- Write that a run is under way. -/
  | marking (provider : Provider)
  /-- Tell that a run is under way. -/
  | announcingStarted (provider : Provider)
  /-- Start the run. -/
  | spawning (provider : Provider)
  /-- Await the outcome of a run. -/
  | waiting (run : Nat)
  /-- Tell that a file was selected. -/
  | announcingFile (name : String)
  /-- Tell that a folder was selected. -/
  | announcingFolder (path : String)

/-- A session with its client and all its runs. -/
structure System where
  settings : Settings
  shared : Shared
  /-- Every run that was ever started, the latest at the end. -/
  runs : List Run
  /-- The run that the session holds on to, by its place among the runs. -/
  handle : Option Nat
  lastSummary : Option Summary
  client : Client

/-- One move of a system. -/
inductive Move
  /-- The idle client makes a request. -/
  | request (request : Request)
  /-- The client goes on with its request. -/
  | proceed
  /-- The run at this place makes a step. -/
  | work (run : Nat)

namespace System

/-- A system in which nothing has happened. -/
def new (settings : Settings) : System :=
  ⟨settings, ⟨.blank, []⟩, [], none, none, .idle⟩

/-- Let go of the run, if there is one, and ask it to stop. -/
def stop (system : System) (next : Option Provider) : System :=
  match system.handle with
  | none => { system with client := .forgetting next }
  | some run =>
    { system with
      handle := none, runs := system.runs.modify run Run.cancel, client := .stopping run next }

/-- The first step of a request. Waiting without a run gives an answer at once. -/
def accept (system : System) : Request → System
  | .start provider => system.stop (some provider)
  | .clear => system.stop none
  | .wait =>
    match system.handle with
    | none => system
    | some run => { system with handle := none, client := .waiting run }
  | .selectFile name =>
    { system with shared := system.shared.setFile name, client := .announcingFile name }
  | .selectFolder path =>
    { system with shared := system.shared.setFolder path, client := .announcingFolder path }

/-- How the run at a place ended, if it did. -/
def outcome? (system : System) (run : Nat) : Option Outcome :=
  system.runs[run]?.bind Run.outcome?

/-- The next step of the client. It makes none while it awaits a run that has not ended. -/
def proceed (system : System) : Option System :=
  match system.client with
  | .idle => none
  | .stopping run next => (system.outcome? run).map fun _ =>
    { system with client := .forgetting next }
  | .forgetting next =>
    some { system with
      lastSummary := none, shared := system.shared.forget, client := .announcingCleared next }
  | .announcingCleared next =>
    some { system with
      shared := system.shared.emit .cleared
      client := match next with
        | none => .idle
        | some provider => .marking provider }
  | .marking provider =>
    some { system with
      shared := system.shared.setLoading true, client := .announcingStarted provider }
  | .announcingStarted provider =>
    some { system with
      shared := system.shared.emit (.started provider.name), client := .spawning provider }
  | .spawning provider =>
    some { system with
      runs := system.runs ++ [Run.start system.settings provider]
      handle := some system.runs.length
      client := .idle }
  | .waiting run => (system.outcome? run).map fun outcome =>
    { system with lastSummary := Session.keptSummary system.lastSummary outcome, client := .idle }
  | .announcingFile name =>
    some { system with shared := system.shared.emit (.fileSelected name), client := .idle }
  | .announcingFolder path =>
    some { system with shared := system.shared.emit (.folderSelected path), client := .idle }

/-- A step of the run at a place. -/
def work (system : System) (place : Nat) : Option System :=
  system.runs[place]?.bind fun run =>
    (run.step system.shared).map fun (phase, shared) =>
      { system with shared, runs := system.runs.modify place fun run => { run with phase } }

/-- The system after a move, if the move can be made. -/
def step (system : System) : Move → Option System
  | .request request =>
    match system.client with
    | .idle => some (system.accept request)
    | _ => none
  | .proceed => system.proceed
  | .work run => system.work run

/-! ## What a move can do -/

/-- What a run at work does to the system. -/
theorem exists_of_work {system after : System} {place : Nat} (h : system.work place = some after) :
    ∃ run phase shared, system.runs[place]? = some run ∧
      run.step system.shared = some (phase, shared) ∧
      after = { system with
        shared, runs := system.runs.modify place fun run => { run with phase } } := by
  obtain ⟨run, hrun, hmap⟩ := Option.bind_eq_some_iff.mp h
  obtain ⟨⟨phase, shared⟩, hstep, rfl⟩ := Option.map_eq_some_iff.mp hmap
  exact ⟨run, phase, shared, hrun, hstep, rfl⟩

/-- What the client accepts: it stops its run, awaits it or selects something. -/
inductive Accepts (system : System) : System → Prop
  | stopNone {next : Option Provider} (hhandle : system.handle = none) :
      Accepts system { system with client := .forgetting next }
  | stopRun {run : Nat} {next : Option Provider} (hhandle : system.handle = some run) :
      Accepts system { system with
        handle := none, runs := system.runs.modify run Run.cancel, client := .stopping run next }
  | waitNone : Accepts system system
  | waitRun {run : Nat} (hhandle : system.handle = some run) :
      Accepts system { system with handle := none, client := .waiting run }
  | file (name : String) :
      Accepts system { system with
        shared := system.shared.setFile name, client := .announcingFile name }
  | folder (path : String) :
      Accepts system { system with
        shared := system.shared.setFolder path, client := .announcingFolder path }

/-- Only the idle client accepts a request, and it does so in one of these ways. -/
theorem accepts_of_request {system after : System} {request : Request}
    (h : system.step (.request request) = some after) :
    system.client = .idle ∧ system.Accepts after := by
  have hstop : ∀ next, system.Accepts (system.stop next) := by
    intro next
    unfold stop
    split
    · exact .stopNone ‹_›
    · exact .stopRun ‹_›
  simp only [step] at h
  split at h
  · rename_i hclient
    cases h
    refine ⟨hclient, ?_⟩
    cases request with
    | start provider => exact hstop (some provider)
    | clear => exact hstop none
    | wait =>
      simp only [accept]
      split
      · exact .waitNone
      · exact .waitRun ‹_›
    | selectFile name => exact .file name
    | selectFolder path => exact .folder path
  · cases h

/-- How the client goes on, by what it does at the time. -/
inductive Proceeds (system : System) : System → Prop
  | stopped {run : Nat} {next : Option Provider} {outcome : Outcome}
      (hclient : system.client = .stopping run next)
      (houtcome : system.outcome? run = some outcome) :
      Proceeds system { system with client := .forgetting next }
  | forget {next : Option Provider} (hclient : system.client = .forgetting next) :
      Proceeds system { system with
        lastSummary := none, shared := system.shared.forget, client := .announcingCleared next }
  | cleared (hclient : system.client = .announcingCleared none) :
      Proceeds system { system with shared := system.shared.emit .cleared, client := .idle }
  | clearedToStart {provider : Provider}
    (hclient : system.client = .announcingCleared (some provider)) :
      Proceeds system { system with
        shared := system.shared.emit .cleared, client := .marking provider }
  | mark {provider : Provider} (hclient : system.client = .marking provider) :
      Proceeds system { system with
        shared := system.shared.setLoading true, client := .announcingStarted provider }
  | started {provider : Provider} (hclient : system.client = .announcingStarted provider) :
      Proceeds system { system with
        shared := system.shared.emit (.started provider.name), client := .spawning provider }
  | spawn {provider : Provider} (hclient : system.client = .spawning provider) :
      Proceeds system { system with
        runs := system.runs ++ [Run.start system.settings provider]
        handle := some system.runs.length
        client := .idle }
  | collected {run : Nat} {outcome : Outcome} (hclient : system.client = .waiting run)
      (houtcome : system.outcome? run = some outcome) :
      Proceeds system { system with
        lastSummary := Session.keptSummary system.lastSummary outcome, client := .idle }
  | file {name : String} (hclient : system.client = .announcingFile name) :
      Proceeds system { system with
        shared := system.shared.emit (.fileSelected name), client := .idle }
  | folder {path : String} (hclient : system.client = .announcingFolder path) :
      Proceeds system { system with
        shared := system.shared.emit (.folderSelected path), client := .idle }

/-- The client goes on in one of these ways. -/
theorem proceeds_of_proceed {system after : System} (h : system.proceed = some after) :
    system.Proceeds after := by
  unfold proceed at h
  cases hclient : system.client with
  | idle => rw [hclient] at h; cases h
  | stopping run next =>
    rw [hclient] at h
    obtain ⟨_, houtcome, rfl⟩ := Option.map_eq_some_iff.mp h
    exact .stopped hclient houtcome
  | forgetting next => rw [hclient] at h; cases h; exact .forget hclient
  | announcingCleared next =>
    rw [hclient] at h
    cases h
    cases next with
    | none => exact .cleared hclient
    | some provider => exact .clearedToStart hclient
  | marking provider => rw [hclient] at h; cases h; exact .mark hclient
  | announcingStarted provider => rw [hclient] at h; cases h; exact .started hclient
  | spawning provider => rw [hclient] at h; cases h; exact .spawn hclient
  | waiting run =>
    rw [hclient] at h
    obtain ⟨_, houtcome, rfl⟩ := Option.map_eq_some_iff.mp h
    exact .collected hclient houtcome
  | announcingFile name => rw [hclient] at h; cases h; exact .file hclient
  | announcingFolder path => rw [hclient] at h; cases h; exact .folder hclient

/-! ## Sequences of moves -/

/-- One system turns into the other by some moves. -/
def Steps : System → System → Prop :=
  Relation.ReflTransGen fun before after => ∃ move, before.step move = some after

/-- The system can come about in a session with the given settings. -/
def Reachable (settings : Settings) (system : System) : Prop :=
  Steps (new settings) system

/-- The system after a whole list of moves. -/
def moves : List Move → System → Option System
  | [], system => some system
  | move :: rest, system => (system.step move).bind (moves rest)

/-- A list of moves is a sequence of steps. -/
theorem steps_of_moves {list : List Move} {before after : System}
    (h : moves list before = some after) :
    Steps before after := by
  induction list generalizing before with
  | nil => cases h; exact .refl
  | cons move rest ih =>
    obtain ⟨between, hstep, hrest⟩ := Option.bind_eq_some_iff.mp h
    exact .head ⟨move, hstep⟩ (ih hrest)

/-- What a step keeps holds after any number of moves. -/
theorem Steps.preserves {Keeps : System → Prop}
    (hstep : ∀ {before after : System} {move : Move}, Keeps before → before.step move = some after →
      Keeps after)
    {before after : System} (hsteps : Steps before after) (hbefore : Keeps before) :
    Keeps after := by
  induction hsteps with
  | refl => exact hbefore
  | tail _ hlast ih =>
    obtain ⟨move, hmove⟩ := hlast
    exact hstep ih hmove

/-- What every move from a reachable system keeps holds in all of them. -/
theorem Reachable.keeps {settings : Settings} {system : System} (h : Reachable settings system)
    {Keeps : System → Prop}
    (hstep : ∀ {before after : System} {move : Move}, Reachable settings before → Keeps before →
      before.step move = some after → Keeps after)
    (hnew : Keeps (new settings)) : Keeps system := by
  induction h with
  | refl => exact hnew
  | tail hreach hlast ih =>
    obtain ⟨move, hmove⟩ := hlast
    exact hstep hreach ih hmove

end System

end ClassAtlas
