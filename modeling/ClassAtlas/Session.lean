import ClassAtlas.Metrics
import ClassAtlas.Session.Run

/-!
# Sessions

A session belongs to one client, who starts and stops runs, waits for them and reads what they
publish. A new run never starts before the last one has ended, so an old run cannot change the state
of a new one.
-/

namespace ClassAtlas

/-- A session: its settings, what it shares with its run, the run if there is one whose outcome has
not been collected, and the outcome of the last run that went well. -/
structure Session where
  settings : Settings
  shared : Shared
  run : Option Run
  lastSummary : Option Summary

namespace Session

/-- A session in which nothing has happened. -/
def new (settings : Settings) : Session :=
  ⟨settings, ⟨.blank, []⟩, none, none⟩

/-- The observable state. -/
def snapshot (session : Session) : Snapshot :=
  session.shared.snapshot

/-- Let the run go on as far as it can. -/
def settle (session : Session) : Session :=
  match session.run with
  | none => session
  | some run =>
    let (run, shared) := run.settle session.shared
    { session with run := some run, shared }

/-- Ask the run to stop. -/
def cancelRun (session : Session) : Session :=
  { session with run := session.run.map Run.cancel }

/-- Stop the run and wait for its end, which always comes. Its outcome is not looked at. -/
def stopRun (session : Session) : Session :=
  { session.cancelRun.settle with run := none }

/-- Forget all results and selections. -/
def reset (session : Session) : Session :=
  { session with lastSummary := none, shared := session.shared.forget.emit .cleared }

/-- Start a run, which does nothing until it is given time. -/
def launch (session : Session) (provider : Provider) : Session :=
  { session with
    shared := (session.shared.setLoading true).emit (.started provider.name)
    run := some (Run.start session.settings provider) }

/-- Stop the run, forget everything and start a new run. -/
def start (session : Session) (provider : Provider) : Session :=
  session.stopRun.reset.launch provider

/-- Stop the run and forget everything. -/
def clear (session : Session) : Session :=
  session.stopRun.reset

/-- What the client learns from the end of a run. -/
def resultOf : Outcome → Except Failure Summary
  | .completed summary => .ok summary
  | .failed failure => .error failure
  | .crashed => .error (.provider .crashed)

/-- The summary to keep after a run: its own if it went well, else the one from before. -/
def keptSummary (last : Option Summary) : Outcome → Option Summary
  | .completed summary => some summary
  | _ => last

/-- Collect the outcome of the run once it has ended. -/
def collect (session : Session) (outcome : Outcome) : Session :=
  { session with run := none, lastSummary := keptSummary session.lastSummary outcome }

/-- Wait for the run. Without a run the last summary is the answer. There is no answer as long as
the run waits for its provider. -/
def wait (session : Session) : Session × Option (Except Failure Summary) :=
  let session := session.settle
  match session.run with
  | none =>
    match session.lastSummary with
    | some summary => (session, some (.ok summary))
    | none => (session, some (.error .notReady))
  | some run =>
    match run.outcome? with
    | some outcome => (session.collect outcome, some (resultOf outcome))
    | none => (session, none)

/-- Select a file. -/
def selectFile (session : Session) (name : String) : Session :=
  { session with shared := (session.shared.setFile name).emit (.fileSelected name) }

/-- Select a folder. -/
def selectFolder (session : Session) (path : String) : Session :=
  { session with shared := (session.shared.setFolder path).emit (.folderSelected path) }

/-- The published corpus. -/
def corpus (session : Session) : Except Failure Corpus :=
  match session.snapshot.corpus, session.snapshot.ready with
  | some corpus, true => .ok corpus
  | _, _ => .error .notReady

/-- The assessment of the selected folder, or of everything. -/
def assessSelection (session : Session) : Except Failure Assessment :=
  match session.corpus with
  | .ok corpus => .ok (corpus.assess session.snapshot.folder)
  | .error failure => .error failure

/-- The events so far, the oldest first. -/
def events (session : Session) : List Event :=
  session.shared.log.reverse

end Session

/-- A subscriber remembers how many events there were when it looked last. -/
structure Subscriber where
  seen : Nat
  deriving DecidableEq, Repr

namespace Subscriber

/-- How many events are kept for a subscriber. -/
def capacity : Nat := 256

/-- A subscriber that sees the events from now on. -/
def new (session : Session) : Subscriber :=
  ⟨session.shared.log.length⟩

/-- What a subscriber receives: how many events were lost, and the newest ones, the oldest of them
first. -/
structure Received where
  lost : Nat
  events : List Event
  deriving DecidableEq, Repr

/-- Receive all events since the last time. -/
def receive (subscriber : Subscriber) (session : Session) : Subscriber × Received :=
  let count := session.shared.log.length - subscriber.seen
  let kept := min count capacity
  (new session, ⟨count - kept, (session.shared.log.take kept).reverse⟩)

end Subscriber

end ClassAtlas
