import ClassAtlas.Proofs.Session.Progress
import ClassAtlas.Proofs.Session.Supervision

/-!
# Operations as schedules

An operation of a session lets the run go on at fixed points, as far as it can. That is one of the
many orders in which a client and its runs can move. This file gives the moves that make up each
operation, so a session that comes about by operations is what the client sees of a reachable
system, and what holds of all reachable systems holds of it.
-/

namespace ClassAtlas

/-- The session comes about by operations on a new session. -/
inductive Session.Reached (settings : Settings) : Session → Prop
  | new : Reached settings (.new settings)
  | start {session : Session} (provider : Provider) :
      Reached settings session → Reached settings (session.start provider)
  | settle {session : Session} : Reached settings session → Reached settings session.settle
  | wait {session : Session} : Reached settings session → Reached settings session.wait.1
  | clear {session : Session} : Reached settings session → Reached settings session.clear
  | selectFile {session : Session} (name : String) :
      Reached settings session → Reached settings (session.selectFile name)
  | selectFolder {session : Session} (path : String) :
      Reached settings session → Reached settings (session.selectFolder path)

namespace System

/-- What the client sees of a system. -/
def session (system : System) : Session :=
  ⟨system.settings, system.shared, system.handle.bind (system.runs[·]?), system.lastSummary⟩

/-- Some moves lead from the system to the session with its client idle. -/
def LeadsTo (system : System) (session : Session) : Prop :=
  ∃ later, Steps system later ∧ later.client = .idle ∧ later.session = session

variable {settings : Settings} {system : System}

/-- What the system leads to after some moves it leads to before them. -/
theorem LeadsTo.after {later : System} {session : Session} (h : later.LeadsTo session)
    (hsteps : Steps system later) : system.LeadsTo session := by
  obtain ⟨last, hlast, hclient, hsession⟩ := h
  exact ⟨last, hsteps.trans hlast, hclient, hsession⟩

/-! ## Giving time to a run -/

/-- A change of a run puts another run in its place. -/
theorem modify_runs {runs : List Run} {place : Nat} {run : Run} (hrun : runs[place]? = some run)
    (change : Run → Run) : runs.modify place change = runs.set place (change run) := by
  obtain ⟨hplace, rfl⟩ := List.getElem?_eq_some_iff.mp hrun
  rw [List.modify_eq_take_cons_drop hplace, List.set_eq_take_append_cons_drop, if_pos hplace]

/-- A run that goes on for a while does so by moves of its own. -/
theorem steps_advance (bound : Nat) {system : System} {place : Nat} {run : Run}
    (hrun : system.runs[place]? = some run) :
    Steps system { system with
      shared := (run.advance bound system.shared).2
      runs := system.runs.set place (run.advance bound system.shared).1 } := by
  induction bound generalizing system run with
  | zero =>
    obtain ⟨_, rfl⟩ := List.getElem?_eq_some_iff.mp hrun
    simp only [Run.advance, List.set_getElem_self]
    exact .refl
  | succ bound ih =>
    obtain ⟨hplace, heq⟩ := List.getElem?_eq_some_iff.mp hrun
    unfold Run.advance
    cases hstep : run.step system.shared with
    | none =>
      simp only [← heq, List.set_getElem_self]
      exact .refl
    | some next =>
      obtain ⟨phase, shared⟩ := next
      have hwork : system.step (.work place) =
          some { system with shared, runs := system.runs.set place { run with phase } } := by
        simp [step, work, hrun, hstep, modify_runs hrun]
      have hthere : ({ system with shared, runs := system.runs.set place { run with phase } } :
          System).runs[place]? = some { run with phase } := List.getElem?_set_self hplace
      have hrest := ih hthere
      simp only [List.set_set] at hrest
      exact .head ⟨_, hwork⟩ hrest

/-- A run goes on as far as it can by moves of its own. -/
theorem steps_settle {place : Nat} {run : Run} (hrun : system.runs[place]? = some run) :
    Steps system { system with
      shared := (run.settle system.shared).2
      runs := system.runs.set place (run.settle system.shared).1 } :=
  steps_advance (Run.stepBound run.provider) hrun

/-- The run that an idle client holds on to is there. -/
theorem Supervised.run_of_handle (h : Supervised settings system) (hclient : system.client = .idle)
    {place : Nat} (hhandle : system.handle = some place) :
    ∃ run, system.runs[place]? = some run := by
  have hlatest : place + 1 = system.runs.length := by
    apply h.watched_latest
    simp [watched, hclient, Client.awaited, hhandle]
  exact ⟨system.runs[place], List.getElem?_eq_getElem (by omega)⟩

/-- Giving time to the run of an idle client takes moves of the run alone. -/
theorem Supervised.leadsTo_settle (h : Supervised settings system)
    (hclient : system.client = .idle) :
    system.LeadsTo system.session.settle := by
  cases hhandle : system.handle with
  | none => exact ⟨system, .refl, hclient, by simp [session, Session.settle, hhandle]⟩
  | some place =>
    obtain ⟨run, hrun⟩ := h.run_of_handle hclient hhandle
    refine ⟨_, steps_settle hrun, hclient, ?_⟩
    obtain ⟨hplace, rfl⟩ := List.getElem?_eq_some_iff.mp hrun
    simp [session, Session.settle, hhandle, hplace]

/-! ## The moves of the operations -/

/-- A client that waits for its run collects the outcome once the run has ended. -/
theorem Supervised.leadsTo_wait (h : Supervised settings system) (hclient : system.client = .idle) :
    system.LeadsTo system.session.wait.1 := by
  obtain ⟨settled, hsteps, hidle, hsession⟩ := h.leadsTo_settle hclient
  have hstays : settled.LeadsTo settled.session := ⟨settled, .refl, hidle, rfl⟩
  apply LeadsTo.after _ hsteps
  simp only [Session.wait, ← hsession]
  cases hrun : settled.session.run with
  | none => cases settled.session.lastSummary <;> exact hstays
  | some run =>
    cases houtcome : run.outcome? with
    | none =>
      simp only [houtcome]
      exact hstays
    | some outcome =>
      simp only [houtcome]
      obtain ⟨place, hhandle, hplace⟩ := Option.bind_eq_some_iff.mp hrun
      have hmoves : moves [.request .wait, .proceed] settled = some { settled with
          handle := none
          lastSummary := Session.keptSummary settled.lastSummary outcome
          client := .idle } := by
        simp [moves, System.step, System.accept, System.proceed, System.outcome?, hidle, hhandle,
          hplace, houtcome]
      exact ⟨_, steps_of_moves hmoves, rfl, rfl⟩

/-- A client that awaits the end of a run goes on once the run has come to it. -/
theorem steps_forgetting {place : Nat} {next : Option Provider} {run : Run}
    (hclient : system.client = .stopping place next) (hrun : system.runs[place]? = some run)
    (hend : (run.settle system.shared).1.outcome? ≠ none) :
    Steps system { system with
      shared := (run.settle system.shared).2
      runs := system.runs.set place (run.settle system.shared).1
      client := .forgetting next } := by
  obtain ⟨hplace, _⟩ := List.getElem?_eq_some_iff.mp hrun
  obtain ⟨outcome, houtcome⟩ := Option.ne_none_iff_exists'.mp hend
  refine (steps_settle hrun).tail ⟨.proceed, ?_⟩
  simp [step, proceed, System.outcome?, hclient, hplace, houtcome]

/-- A client that stops its run awaits an end that comes. -/
theorem Supervised.steps_stop (h : Supervised settings system) (hclient : system.client = .idle)
    (next : Option Provider) :
    ∃ later, Steps (system.stop next) later ∧ later.client = .forgetting next ∧
      later.session = system.session.stopRun := by
  unfold stop
  cases hhandle : system.handle with
  | none =>
    refine ⟨_, .refl, rfl, ?_⟩
    simp [session, Session.stopRun, Session.cancelRun, Session.settle, hhandle]
  | some place =>
    obtain ⟨run, hrun⟩ := h.run_of_handle hclient hhandle
    obtain ⟨hfaithful, _⟩ := h.faithful run (List.mem_iff_getElem?.mpr ⟨place, hrun⟩)
    have hcancelled : (system.runs.modify place Run.cancel)[place]? = some run.cancel := by
      simp [hrun]
    have hend := hfaithful.cancel.settle_cancelled rfl system.shared
    refine ⟨_, steps_forgetting rfl hcancelled hend, rfl, ?_⟩
    simp [session, Session.stopRun, Session.cancelRun, Session.settle, hhandle, hrun]

/-- Forgetting everything takes two moves. -/
theorem leadsTo_reset (hclient : system.client = .forgetting none) :
    system.LeadsTo system.session.reset := by
  have hmoves : moves [.proceed, .proceed] system = some { system with
      lastSummary := none
      shared := system.shared.forget.emit .cleared
      client := .idle } := by
    simp [moves, step, proceed, hclient]
  exact ⟨_, steps_of_moves hmoves, rfl, rfl⟩

/-- Forgetting everything and starting a run takes five moves. -/
theorem leadsTo_launch {provider : Provider}
    (hclient : system.client = .forgetting (some provider)) :
    system.LeadsTo (system.session.reset.launch provider) := by
  have hmoves : moves [.proceed, .proceed, .proceed, .proceed, .proceed] system = some { system with
      lastSummary := none
      shared := ((system.shared.forget.emit .cleared).setLoading true).emit (.started provider.name)
      runs := system.runs ++ [Run.start system.settings provider]
      handle := some system.runs.length
      client := .idle } := by
    simp [moves, step, proceed, hclient]
  refine ⟨_, steps_of_moves hmoves, rfl, ?_⟩
  simp [session, Session.reset, Session.launch]

/-- Clearing the session takes moves of the client and of the run that it stops. -/
theorem Supervised.leadsTo_clear (h : Supervised settings system)
    (hclient : system.client = .idle) :
    system.LeadsTo system.session.clear := by
  obtain ⟨stopped, hsteps, hforgetting, hsession⟩ := h.steps_stop hclient none
  have hrequest : system.step (.request .clear) = some (system.stop none) := by
    simp [System.step, System.accept, hclient]
  have hreset := (leadsTo_reset hforgetting).after (hsteps.head ⟨_, hrequest⟩)
  rwa [hsession] at hreset

/-- Starting a run takes moves of the client and of the run that it stops. -/
theorem Supervised.leadsTo_start (h : Supervised settings system) (hclient : system.client = .idle)
    (provider : Provider) : system.LeadsTo (system.session.start provider) := by
  obtain ⟨stopped, hsteps, hforgetting, hsession⟩ := h.steps_stop hclient (some provider)
  have hrequest :
      system.step (.request (.start provider)) = some (system.stop (some provider)) := by
    simp [System.step, System.accept, hclient]
  have hlaunch := (leadsTo_launch hforgetting).after (hsteps.head ⟨_, hrequest⟩)
  rwa [hsession] at hlaunch

/-- Selecting a file takes two moves. -/
theorem leadsTo_selectFile (hclient : system.client = .idle) (name : String) :
    system.LeadsTo (system.session.selectFile name) := by
  have hmoves : moves [.request (.selectFile name), .proceed] system = some { system with
      shared := (system.shared.setFile name).emit (.fileSelected name)
      client := .idle } := by
    simp [moves, step, accept, proceed, hclient]
  exact ⟨_, steps_of_moves hmoves, rfl, rfl⟩

/-- Selecting a folder takes two moves. -/
theorem leadsTo_selectFolder (hclient : system.client = .idle) (path : String) :
    system.LeadsTo (system.session.selectFolder path) := by
  have hmoves : moves [.request (.selectFolder path), .proceed] system = some { system with
      shared := (system.shared.setFolder path).emit (.folderSelected path)
      client := .idle } := by
    simp [moves, step, accept, proceed, hclient]
  exact ⟨_, steps_of_moves hmoves, rfl, rfl⟩

/-- **Every operation is a schedule**: a session that comes about by operations is what the idle
client of some reachable system sees. -/
theorem reachable_of_reached {session : Session} (h : session.Reached settings) :
    ∃ system, Reachable settings system ∧ system.client = .idle ∧ system.session = session := by
  -- What leads on from a reachable system is seen at a reachable system again.
  have hextend : ∀ {system : System} {next : Session}, Reachable settings system →
      system.LeadsTo next →
      ∃ later, Reachable settings later ∧ later.client = .idle ∧ later.session = next := by
    intro system next hreach hleads
    obtain ⟨later, hsteps, hclient, hsession⟩ := hleads
    exact ⟨later, Relation.ReflTransGen.trans hreach hsteps, hclient, hsession⟩
  induction h with
  | new => exact ⟨System.new settings, .refl, rfl, rfl⟩
  | start provider _ ih =>
    obtain ⟨system, hreach, hclient, rfl⟩ := ih
    exact hextend hreach (hreach.supervised.leadsTo_start hclient provider)
  | settle _ ih =>
    obtain ⟨system, hreach, hclient, rfl⟩ := ih
    exact hextend hreach (hreach.supervised.leadsTo_settle hclient)
  | wait _ ih =>
    obtain ⟨system, hreach, hclient, rfl⟩ := ih
    exact hextend hreach (hreach.supervised.leadsTo_wait hclient)
  | clear _ ih =>
    obtain ⟨system, hreach, hclient, rfl⟩ := ih
    exact hextend hreach (hreach.supervised.leadsTo_clear hclient)
  | selectFile name _ ih =>
    obtain ⟨system, hreach, hclient, rfl⟩ := ih
    exact hextend hreach (leadsTo_selectFile hclient name)
  | selectFolder path _ ih =>
    obtain ⟨system, hreach, hclient, rfl⟩ := ih
    exact hextend hreach (leadsTo_selectFolder hclient path)

end System

end ClassAtlas
