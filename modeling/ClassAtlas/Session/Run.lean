import ClassAtlas.Provider

/-!
# Runs

A run fetches the files of a provider in the background and publishes the corpus made of them. It
goes on by small steps, each of which writes the shared state once, adds one event to the log or
asks the provider once, so that the steps of a run and the actions of a client can be interleaved in
any order.
-/

namespace ClassAtlas

/-- What everybody can observe of a session. -/
structure Snapshot where
  /-- The corpus published last. -/
  corpus : Option Corpus
  /-- A run is under way. -/
  loading : Bool
  /-- A corpus has been published. -/
  ready : Bool
  /-- The status line. -/
  status : String
  /-- The selected file. -/
  file : Option String
  /-- The selected folder. -/
  folder : Option String
  deriving DecidableEq, Repr

/-- Nothing has happened. -/
def Snapshot.blank : Snapshot :=
  ⟨none, false, false, "", none, none⟩

/-- What subscribers are told. -/
inductive Event
  | cleared
  | started (source : String)
  | status (text : String)
  | ready (entities skipped : Nat)
  | fileSelected (name : String)
  | folderSelected (path : String)
  deriving DecidableEq, Repr

/-- What the client and its runs share: the observable state, and all events so far, the newest
first. -/
structure Shared where
  snapshot : Snapshot
  log : List Event
  deriving DecidableEq, Repr

/-- Add an event to the log. -/
def Shared.emit (shared : Shared) (event : Event) : Shared :=
  { shared with log := event :: shared.log }

/-- Write the status line. -/
def Shared.setStatus (shared : Shared) (status : String) : Shared :=
  { shared with snapshot := { shared.snapshot with status } }

/-- Forget all results and selections. -/
def Shared.forget (shared : Shared) : Shared :=
  { shared with snapshot := .blank }

/-- Write whether a run is under way. -/
def Shared.setLoading (shared : Shared) (loading : Bool) : Shared :=
  { shared with snapshot := { shared.snapshot with loading } }

/-- Write the selected file. -/
def Shared.setFile (shared : Shared) (name : String) : Shared :=
  { shared with snapshot := { shared.snapshot with file := some name } }

/-- Write the selected folder. -/
def Shared.setFolder (shared : Shared) (path : String) : Shared :=
  { shared with snapshot := { shared.snapshot with folder := some path } }

/-- Write a corpus together with the flags that go with it. -/
def Shared.publish (shared : Shared) (corpus : Corpus) : Shared :=
  { shared with
    snapshot := { shared.snapshot with corpus := some corpus, loading := false, ready := true } }

/-- The outcome of a run that went well. -/
structure Summary where
  /-- The provider. -/
  source : String
  /-- The number of entities. -/
  entities : Nat
  /-- The files that could not be read. -/
  skipped : List String
  deriving DecidableEq, Repr

/-- The status line while files are fetched. -/
def fetchingStatus : String := "Fetching..."

/-- The status line after a run that went well. -/
def Summary.status (summary : Summary) : String :=
  toString summary.entities ++ " files analyzed" ++
    (if summary.skipped.isEmpty then "" else ", " ++ toString summary.skipped.length ++ " skipped")

/-- The status line after a run that failed. -/
def Failure.status (failure : Failure) : String :=
  "Error: " ++ failure.message

/-- How a run ends. -/
inductive Outcome
  | completed (summary : Summary)
  | failed (failure : Failure)
  | crashed
  deriving DecidableEq, Repr

namespace Run

/-- What a run does next. -/
inductive Phase
  /-- Write that files are fetched. -/
  | created
  /-- Tell that files are fetched. -/
  | announcingFetch
  /-- Check the settings and ask for the files. -/
  | listing
  /-- Fetch the next of the files. -/
  | fetching (remaining : List String) (fetched : List Corpus.SourceFile) (skipped : List String)
  /-- Publish the corpus. -/
  | publishing (corpus : Corpus) (skipped : List String)
  /-- Write the outcome. -/
  | reporting (summary : Summary)
  /-- Tell the outcome. -/
  | announcingStatus (summary : Summary)
  /-- Tell that the corpus is ready. -/
  | announcingReady (summary : Summary)
  /-- Write that nothing is loading any more. -/
  | failing (failure : Failure)
  /-- Write the failure. -/
  | reportingFailure (failure : Failure)
  /-- Tell the failure. -/
  | announcingFailure (failure : Failure)
  /-- Nothing is left to do. -/
  | finished (outcome : Outcome)

end Run

/-- A run of an analysis. -/
structure Run where
  provider : Provider
  settings : Settings
  /-- The client does not want the result any more. -/
  cancelled : Bool
  phase : Run.Phase

namespace Run

/-- A run that has done nothing yet. -/
def start (settings : Settings) (provider : Provider) : Run :=
  ⟨provider, settings, false, .created⟩

/-- Ask the run to stop. -/
def cancel (run : Run) : Run :=
  { run with cancelled := true }

/-- How a run ended, if it did. -/
def outcome? (run : Run) : Option Outcome :=
  match run.phase with
  | .finished outcome => some outcome
  | _ => none

/-- The phase after a failure. A run that was stopped says nothing. -/
def afterFailure (failure : Failure) : Phase :=
  if failure = .cancelled then .finished (.failed .cancelled) else .failing failure

/-- The phase after the settings were checked and the provider was asked for its files. -/
def afterListing (run : Run) : Option Phase :=
  match run.settings.validate with
  | .error failure => some (afterFailure failure)
  | .ok () =>
    if run.cancelled then some (.finished (.failed .cancelled))
    else
      match run.provider.listing with
      | .stall => none
      | .crash => some (.finished .crashed)
      | .answer (.error failure) => some (afterFailure failure)
      | .answer (.ok paths) => some (.fetching paths [] [])

/-- The phase after the provider was asked for a file. A file that cannot be read is skipped. -/
def afterFetching (run : Run) (path : String) (remaining : List String)
    (fetched : List Corpus.SourceFile) (skipped : List String) : Option Phase :=
  if run.cancelled then some (.finished (.failed .cancelled))
  else
    match run.provider.fetch path with
    | .stall => none
    | .crash => some (.finished .crashed)
    | .answer (.ok text) => some (.fetching remaining (fetched ++ [(path, text)]) skipped)
    | .answer (.error failure) =>
      if failure.isFatal then some (afterFailure failure)
      else some (.fetching remaining fetched (skipped ++ [path]))

/-- The phase after all files were fetched and analysed. -/
def afterAnalysis (run : Run) (fetched : List Corpus.SourceFile) (skipped : List String) : Phase :=
  if run.cancelled then .finished (.failed .cancelled)
  else .publishing (Corpus.ofSources run.settings fetched) skipped

/-- One step of a run: its next phase and what becomes of the shared state. A run that waits for its
provider or is finished makes no step. -/
def step (run : Run) (shared : Shared) : Option (Phase × Shared) :=
  match run.phase with
  | .created => some (.announcingFetch, shared.setStatus fetchingStatus)
  | .announcingFetch => some (.listing, shared.emit (.status fetchingStatus))
  | .listing => run.afterListing.map fun phase => (phase, shared)
  | .fetching [] fetched skipped => some (run.afterAnalysis fetched skipped, shared)
  | .fetching (path :: remaining) fetched skipped =>
    (run.afterFetching path remaining fetched skipped).map fun phase => (phase, shared)
  | .publishing corpus skipped =>
    if run.cancelled then some (.finished (.failed .cancelled), shared)
    else
      let summary : Summary := ⟨run.provider.name, corpus.size, skipped⟩
      some (.reporting summary, shared.publish corpus)
  | .reporting summary => some (.announcingStatus summary, shared.setStatus summary.status)
  | .announcingStatus summary =>
    some (.announcingReady summary, shared.emit (.status summary.status))
  | .announcingReady summary =>
    some (.finished (.completed summary),
      shared.emit (.ready summary.entities summary.skipped.length))
  | .failing failure => some (.reportingFailure failure, shared.setLoading false)
  | .reportingFailure failure => some (.announcingFailure failure, shared.setStatus failure.status)
  | .announcingFailure failure =>
    some (.finished (.failed failure), shared.emit (.status failure.status))
  | .finished _ => none

/-- The run after at most `bound` steps, as far as it can go. -/
def advance : (bound : Nat) → Run → Shared → Run × Shared
  | 0, run, shared => (run, shared)
  | bound + 1, run, shared =>
    match run.step shared with
    | none => (run, shared)
    | some (phase, shared) => advance bound { run with phase } shared

/-- More steps than a run of this provider can make: one a file, and a dozen for all else. -/
def stepBound (provider : Provider) : Nat :=
  provider.fileCount + 12

/-- The run as far as it can go on its own. -/
def settle (run : Run) (shared : Shared) : Run × Shared :=
  advance (stepBound run.provider) run shared

end Run

end ClassAtlas
