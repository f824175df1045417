import ClassAtlas.Proofs.Session.StatusLine
import Mathlib.Data.List.Forall2

/-!
# What subscribers are told

The events of a session come from the client and from its runs. Selections apart, they fall into
chapters, which end where all is forgotten. This file proves that every chapter is empty or tells of
one run, that the runs follow each other in the order of their starts, and that whatever is told of
a run is the beginning of one of two tales: the run fails, or it goes well and its corpus is ready.
-/

namespace ClassAtlas

/-! ## Chapters -/

namespace Event

/-- The event is about a selection, which the client makes whenever it likes. -/
def isSelection : Event → Bool
  | .fileSelected _ => true
  | .folderSelected _ => true
  | _ => false

/-- The event tells that a corpus is ready. -/
def isReady : Event → Bool
  | .ready _ _ => true
  | _ => false

/-- Events, the oldest first, without selections and cut where all is forgotten. -/
def chapters (events : List Event) : List (List Event) :=
  (events.filter fun event => !event.isSelection).splitOn .cleared

/-- One more item that is no separator goes to the end of the last part. -/
theorem exists_splitOn_concat {α : Type} [BEq α] [LawfulBEq α] {separator item : α}
    (hitem : item ≠ separator) (list : List α) :
    ∃ front last, list.splitOn separator = front ++ [last] ∧
      (list ++ [item]).splitOn separator = front ++ [last ++ [item]] := by
  by_cases hmem : separator ∈ list
  · -- The list is cut at the last separator, behind which there is none.
    obtain ⟨back, front, hreverse, hback⟩ := List.eq_append_cons_of_mem (List.mem_reverse.mpr hmem)
    have hlist : list = front.reverse ++ separator :: back.reverse := by
      rw [← List.reverse_reverse list, hreverse]
      simp
    have hlast : separator ∉ back.reverse := by simpa using hback
    have hmore : separator ∉ back.reverse ++ [item] := by simpa using ⟨hback, hitem.symm⟩
    refine ⟨front.reverse.splitOn separator, back.reverse, ?_, ?_⟩
    · rw [hlist, List.splitOn_append_cons_self, List.splitOn_eq_singleton hlast]
    · rw [hlist, List.append_assoc, List.cons_append, List.splitOn_append_cons_self,
        List.splitOn_eq_singleton hmore]
  · have hmore : separator ∉ list ++ [item] := by simpa using ⟨hmem, hitem.symm⟩
    exact ⟨[], list, List.splitOn_eq_singleton hmem, List.splitOn_eq_singleton hmore⟩

end Event

namespace Shared

/-- The chapters of what was told so far. -/
def chapters (shared : Shared) : List (List Event) :=
  Event.chapters shared.log.reverse

/-- Only what is told makes a difference to the chapters. -/
theorem chapters_congr {shared other : Shared} (h : shared.log = other.log) :
    shared.chapters = other.chapters := by
  rw [chapters, chapters, h]

/-- A selection belongs to no chapter. -/
theorem chapters_emit_selection {event : Event} (hevent : event.isSelection = true)
    (shared : Shared) :
    (shared.emit event).chapters = shared.chapters := by
  simp [chapters, Event.chapters, emit, hevent]

/-- Where all is forgotten a new chapter begins. -/
theorem chapters_emit_cleared (shared : Shared) :
    (shared.emit .cleared).chapters = shared.chapters ++ [[]] := by
  simp [chapters, Event.chapters, emit, Event.isSelection, List.splitOn_append_cons_self]

/-- Any other event is told in the last chapter. -/
theorem exists_chapters_emit {event : Event} (hselection : event.isSelection = false)
    (hcleared : event ≠ .cleared) (shared : Shared) :
    ∃ front last, shared.chapters = front ++ [last] ∧
      (shared.emit event).chapters = front ++ [last ++ [event]] := by
  obtain ⟨front, last, hbefore, hafter⟩ :=
    Event.exists_splitOn_concat hcleared (shared.log.reverse.filter fun event => !event.isSelection)
  refine ⟨front, last, hbefore, ?_⟩
  rw [← hafter]
  simp [chapters, Event.chapters, emit, hselection]

end Shared

/-- The events of the session, without selections and cut where all is forgotten. -/
def Session.chapters (session : Session) : List (List Event) :=
  Event.chapters session.events

/-! ## Tales -/

namespace Event

/-- What is told of a run that fails. -/
def failureTale (source : String) (failure : Failure) : List Event :=
  [.started source, .status "Fetching...", .status ("Error: " ++ failure.message)]

/-- The status line after a run that went well. It mentions skipped files if there are any. -/
def analysedText (entities skipped : Nat) : String :=
  toString entities ++ " files analyzed" ++
    (if 0 < skipped then ", " ++ toString skipped ++ " skipped" else "")

/-- What is told of a run that goes well. -/
def successTale (source : String) (entities skipped : Nat) : List Event :=
  [.started source, .status "Fetching...", .status (analysedText entities skipped),
    .ready entities skipped]

/-- The chapter is the beginning of a tale. -/
def IsTold (chapter : List Event) : Prop :=
  ∃ source, (∃ failure, chapter <+: failureTale source failure) ∨
    ∃ entities skipped, chapter <+: successTale source entities skipped

/-- No run that goes well has the status line of a failure. -/
theorem analysedText_ne_failure (entities skipped : Nat) (text : String) :
    analysedText entities skipped ≠ "Error: " ++ text := by
  intro heq
  obtain ⟨digit, rest, hdigits⟩ :=
    List.exists_cons_of_ne_nil (Nat.toDigits_ne_nil (n := entities) (b := 10))
  have hdigit : digit.isDigit = true :=
    Nat.isDigit_of_mem_toDigits (by decide) (by decide) (hdigits ▸ List.mem_cons_self)
  have hhead : (analysedText entities skipped).toList.head? = some digit := by
    simp [analysedText, hdigits]
  rw [heq] at hhead
  have hletter : 'E' = digit := by simpa using hhead
  rw [← hletter] at hdigit
  exact absurd hdigit (by decide)

/-- A tale of a failure never comes to a corpus. -/
theorem not_isReady_of_failureTale {source : String} {failure : Failure} {event : Event}
    (hevent : event ∈ failureTale source failure) : event.isReady = false := by
  simp only [failureTale, List.mem_cons, List.not_mem_nil, or_false] at hevent
  rcases hevent with rfl | rfl | rfl <;> rfl

/-- The chapter is the beginning of a tale, a corpus becomes ready in it at most once, and never if
a failure is told. -/
structure Orderly (chapter : List Event) : Prop where
  told : IsTold chapter
  ready_once : chapter.countP isReady ≤ 1
  failed_or_ready : ∀ failure : Failure, .status ("Error: " ++ failure.message) ∈ chapter →
    chapter.countP isReady = 0

/-- The beginning of a tale is orderly. -/
theorem IsTold.orderly {chapter : List Event} (h : IsTold chapter) : Orderly chapter := by
  suffices hready : chapter.countP isReady ≤ 1 ∧ ∀ failure : Failure,
      .status ("Error: " ++ failure.message) ∈ chapter →
      chapter.countP isReady = 0 from ⟨h, hready.1, hready.2⟩
  obtain ⟨source, ⟨failure, htale⟩ | ⟨entities, skipped, htale⟩⟩ := h
  · have hnone : chapter.countP isReady = 0 := by
      rw [List.countP_eq_zero]
      intro event hevent
      simpa using not_isReady_of_failureTale (htale.subset hevent)
    exact ⟨hnone ▸ Nat.zero_le 1, fun _ _ => hnone⟩
  · have hcount : (successTale source entities skipped).countP isReady = 1 := rfl
    refine ⟨hcount ▸ htale.sublist.countP_le, ?_⟩
    intro failure hfailure
    -- No status line of this tale starts like that of a failure.
    have hfetching : "Error: " ++ failure.message ≠ "Fetching..." := by
      intro heq
      have hhead := congrArg (fun text => text.toList.head?) heq
      simp at hhead
    have htold := htale.subset hfailure
    simp only [successTale, List.mem_cons, List.not_mem_nil, or_false, reduceCtorEq, false_or,
      Event.status.injEq, hfetching] at htold
    exact absurd htold.symm (analysedText_ne_failure entities skipped _)

end Event

/-- The status line of a summary gives its numbers. -/
theorem Summary.status_eq (summary : Summary) :
    summary.status = Event.analysedText summary.entities summary.skipped.length := by
  unfold Summary.status Event.analysedText
  cases summary.skipped <;> simp

/-! ## What a run has told -/

/-- What is told of a run with this outcome after the fetch. A run that was stopped ends in
silence. -/
def Outcome.told : Outcome → List Event
  | .completed summary => [.status summary.status, .ready summary.entities summary.skipped.length]
  | .failed failure => if failure = .cancelled then [] else [.status failure.status]
  | .crashed => []

namespace Run

/-- What a run has told by itself when it comes to a phase. -/
def Phase.told : Phase → List Event
  | .created => []
  | .announcingFetch => []
  | .announcingReady summary => [.status fetchingStatus, .status summary.status]
  | .finished outcome => .status fetchingStatus :: outcome.told
  | _ => [.status fetchingStatus]

/-- What was told of a run, starting with the client, who tells that the run is under way. -/
def told (run : Run) : List Event :=
  .started run.provider.name :: run.phase.told

/-- A failure is not told at once. -/
theorem told_afterFailure {run : Run} (h : run.phase.told = [.status fetchingStatus])
    (failure : Failure) :
    { run with phase := afterFailure failure }.told = run.told := by
  have hphase : (afterFailure failure).told = [.status fetchingStatus] := by
    unfold afterFailure
    split <;> rfl
  rw [told, told, hphase, h]

/-- The step tells nothing, or one event that is neither a selection nor the end of a chapter. -/
inductive TellsNext (run : Run) (shared : Shared) (phase : Phase) (shared' : Shared) : Prop
  | nothing (hlog : shared'.log = shared.log) (htold : { run with phase }.told = run.told)
  | event {event : Event} (hshared : shared' = shared.emit event)
    (hselection : event.isSelection = false)
      (hcleared : event ≠ .cleared) (htold : { run with phase }.told = run.told ++ [event])

/-- **A run tells one thing after the other.** -/
theorem tellsNext_of_step {run : Run} {shared shared' : Shared} {phase : Phase}
    (hfailure : run.phase.failure? ≠ some .cancelled)
    (h : run.step shared = some (phase, shared')) :
    run.TellsNext shared phase shared' := by
  cases transition_of_step h with
  | tellFetch hphase => exact .event rfl rfl (by simp) (by simp [told, hphase, Phase.told])
  | reject hphase => exact .nothing rfl (told_afterFailure (by rw [hphase]; rfl) _)
  | failListing hphase => exact .nothing rfl (told_afterFailure (by rw [hphase]; rfl) _)
  | failFetching hphase => exact .nothing rfl (told_afterFailure (by rw [hphase]; rfl) _)
  | tellStatus hphase => exact .event rfl rfl (by simp) (by simp [told, hphase, Phase.told])
  | tellReady hphase =>
    exact .event rfl rfl (by simp) (by simp [told, hphase, Phase.told, Outcome.told])
  | @tellFailure failure hphase =>
    have hother : failure ≠ .cancelled := by simpa [hphase, Phase.failure?] using hfailure
    exact .event rfl rfl (by simp) (by simp [told, hphase, Phase.told, Outcome.told, hother])
  | _ => exact .nothing rfl (by simp [told, *, Phase.told, Outcome.told])

/-- The chapter tells of the run: it is the beginning of a tale of failure, or of success with the
numbers of the summary of the run. A run that has ended is told of to the end, unless it was
stopped. -/
structure Tells (run : Run) (chapter : List Event) : Prop where
  follows : (∃ failure, chapter <+: Event.failureTale run.provider.name failure) ∨
    ∃ summary, run.published? = some summary ∧
      chapter <+: Event.successTale run.provider.name summary.entities summary.skipped.length
  completed : ∀ summary, run.outcome? = some (.completed summary) →
    chapter = Event.successTale run.provider.name summary.entities summary.skipped.length
  failed : ∀ failure, run.outcome? = some (.failed failure) → failure ≠ .cancelled →
    chapter = Event.failureTale run.provider.name failure

/-- A run that went well is told of to the end. -/
theorem told_of_completed {run : Run} {summary : Summary}
    (h : run.outcome? = some (.completed summary)) :
    run.told = Event.successTale run.provider.name summary.entities summary.skipped.length := by
  obtain ⟨provider, settings, cancelled, phase⟩ := run
  cases phase <;> cases h
  simp [told, Phase.told, Outcome.told, Event.successTale, summary.status_eq, fetchingStatus]

/-- A run that failed is told of to the end, unless it was stopped. -/
theorem told_of_failed {run : Run} {failure : Failure} (h : run.outcome? = some (.failed failure))
    (hfailure : failure ≠ .cancelled) : run.told = Event.failureTale run.provider.name failure := by
  obtain ⟨provider, settings, cancelled, phase⟩ := run
  cases phase <;> cases h
  simp [told, Phase.told, Outcome.told, hfailure, Event.failureTale, Failure.status, fetchingStatus]

/-- As long as nothing but the fetch is told, it may still come to a failure. -/
theorem told_prefix_failureTale {run : Run} (h : run.phase.told <+: [.status fetchingStatus]) :
    run.told <+: Event.failureTale run.provider.name .notReady :=
  List.cons_prefix_cons.mpr ⟨rfl, h.trans ⟨_, rfl⟩⟩

/-- Whatever was told of a run is the beginning of a tale. -/
theorem told_follows (run : Run) :
    (∃ failure, run.told <+: Event.failureTale run.provider.name failure) ∨
      ∃ summary, run.published? = some summary ∧
        run.told <+: Event.successTale run.provider.name summary.entities
          summary.skipped.length := by
  cases houtcome : run.outcome? with
  | some outcome =>
    cases outcome with
    | completed summary =>
      exact .inr
        ⟨summary, published?_of_completed houtcome, told_of_completed houtcome ▸ List.prefix_rfl⟩
    | failed failure =>
      by_cases hfailure : failure = .cancelled
      · refine .inl ⟨.notReady, told_prefix_failureTale ?_⟩
        obtain ⟨provider, settings, cancelled, phase⟩ := run
        cases phase <;> cases houtcome
        simp [Phase.told, Outcome.told, hfailure]
      · exact .inl ⟨failure, told_of_failed houtcome hfailure ▸ List.prefix_rfl⟩
    | crashed =>
      refine .inl ⟨.notReady, told_prefix_failureTale ?_⟩
      obtain ⟨provider, settings, cancelled, phase⟩ := run
      cases phase <;> cases houtcome
      exact List.prefix_rfl
  | none =>
    obtain ⟨provider, settings, cancelled, phase⟩ := run
    cases phase with
    | announcingReady summary =>
      refine .inr ⟨summary, rfl, ?_⟩
      simp [told, Phase.told, Event.successTale, summary.status_eq, fetchingStatus]
    | created => exact .inl ⟨.notReady, told_prefix_failureTale List.nil_prefix⟩
    | announcingFetch => exact .inl ⟨.notReady, told_prefix_failureTale List.nil_prefix⟩
    | finished outcome => cases houtcome
    | _ => exact .inl ⟨.notReady, told_prefix_failureTale List.prefix_rfl⟩

/-- What was told of a run tells of it. -/
theorem tells_told (run : Run) : run.Tells run.told where
  follows := run.told_follows
  completed _ := told_of_completed
  failed _ := told_of_failed

end Run

/-! ## The chronicle of a session -/

namespace Client

/-- The tale of a run that the client has told to be under way, but has not started yet. -/
def heralded : Client → List (List Event)
  | .spawning provider => [[.started provider.name]]
  | _ => []

/-- The last chapter while the client prepares a run. -/
def lastChapter? : Client → Option (List Event)
  | .marking _ => some []
  | .announcingStarted _ => some []
  | .spawning provider => some [.started provider.name]
  | _ => none

end Client

namespace System

/-- The chapters that are not empty tell of the runs in their order, and what is told next belongs
to the last chapter. -/
structure Chronicled (system : System) : Prop where
  tales :
      system.shared.chapters.filter (· ≠ []) = system.runs.map Run.told ++ system.client.heralded
  prepared : ∀ {chapter : List Event}, system.client.lastChapter? = some chapter →
    system.shared.chapters.getLast? = some chapter
  watched : ∀ {place : Nat} {run : Run}, system.watched = some place →
      system.runs[place]? = some run →
    system.shared.chapters.getLast? = some run.told

variable {settings : Settings} {system : System}

/-- Nothing is told before the first start. -/
theorem chronicled_new (settings : Settings) : Chronicled (new settings) where
  tales := rfl
  prepared h := by cases h
  watched h := by cases h

/-- A change of one run makes no difference to the tales if that run has told the same before and
after. -/
theorem map_told_modify {runs : List Run} {place : Nat} {change : Run → Run}
    (hchange : ∀ run, runs[place]? = some run → (change run).told = run.told) :
    (runs.modify place change).map Run.told = runs.map Run.told := by
  apply List.ext_getElem?
  intro other
  rw [List.getElem?_map, List.getElem?_map, List.getElem?_modify]
  cases hrun : runs[other]? with
  | none => rfl
  | some run =>
    by_cases hplace : place = other
    · simp [hplace, hchange run (hplace ▸ hrun)]
    · simp [hplace]

/-- The chronicle is right when the client turns to something else and tells nothing but a
selection. -/
theorem Chronicled.turn (h : Chronicled system) {shared : Shared} {handle : Option Nat}
    {lastSummary : Option Summary} {client : Client}
    (hchapters : shared.chapters = system.shared.chapters)
    (hheralded : client.heralded = system.client.heralded)
    (hprepared : client.lastChapter? = none ∨ client.lastChapter? = system.client.lastChapter?)
    (hwatched : client.awaited.or handle = system.watched ∨ client.awaited.or handle = none) :
    Chronicled { system with shared, handle, lastSummary, client } where
  tales := by
    simp only [hchapters, hheralded]
    exact h.tales
  prepared := by
    intro chapter hchapter
    rcases hprepared with hnone | hsame
    · cases hnone.symm.trans hchapter
    · exact hchapters ▸ h.prepared (hsame.symm.trans hchapter)
  watched := by
    intro place run hplace hrun
    rcases hwatched with hsame | hnone
    · exact hchapters ▸ h.watched (hsame.symm.trans hplace) hrun
    · cases hnone.symm.trans hplace

/-- Asking a run to stop tells nothing. -/
theorem Chronicled.cancel (h : Chronicled system) (place : Nat) :
    Chronicled { system with runs := system.runs.modify place Run.cancel } where
  tales := by
    have hsame : (system.runs.modify place Run.cancel).map Run.told = system.runs.map Run.told :=
      map_told_modify fun _ _ => rfl
    rw [hsame]
    exact h.tales
  prepared := h.prepared
  watched := by
    intro other run hother hrun
    obtain ⟨before, hbefore, rfl⟩ := getElem?_modify_runs hrun
    have hlast := h.watched hother hbefore
    split <;> exact hlast

/-- Every request keeps the chronicle right. -/
theorem Chronicled.accept (h : Chronicled system) (hclient : system.client = .idle) {after : System}
    (haccepts : system.Accepts after) : Chronicled after := by
  have hwatched : system.watched = system.handle := by
    simp [System.watched, hclient, Client.awaited]
  have hheralded : system.client.heralded = [] := by rw [hclient]; rfl
  cases haccepts with
  | stopNone hhandle => exact h.turn rfl hheralded.symm (.inl rfl) (.inr hhandle)
  | stopRun hhandle =>
    exact (h.cancel _).turn rfl hheralded.symm (.inl rfl) (.inl (hwatched.trans hhandle).symm)
  | waitNone => exact h
  | waitRun hhandle =>
    exact h.turn rfl hheralded.symm (.inl rfl) (.inl (hwatched.trans hhandle).symm)
  | file name => exact h.turn rfl hheralded.symm (.inl rfl) (.inl hwatched.symm)
  | folder path => exact h.turn rfl hheralded.symm (.inl rfl) (.inl hwatched.symm)

/-- Where all is forgotten an empty chapter begins. -/
theorem Chronicled.clear (h : Chronicled system) (hheralded : system.client.heralded = [])
    (hhandle : system.handle = none) {client : Client} (hawaited : client.awaited = none)
    (hnext : client.heralded = [])
    (hprepared : ∀ chapter, client.lastChapter? = some chapter → chapter = []) :
    Chronicled { system with shared := system.shared.emit .cleared, client } where
  tales := by
    rw [Shared.chapters_emit_cleared, List.filter_append, h.tales, hheralded, hnext]
    simp
  prepared hchapter := by
    rw [Shared.chapters_emit_cleared, List.getLast?_concat, hprepared _ hchapter]
  watched := by
    intro place run hplace
    have hnone : client.awaited.or system.handle = none := by rw [hawaited, hhandle]; rfl
    cases hnone.symm.trans hplace

/-- The tale of a run begins when the client tells that it is under way. -/
theorem Chronicled.herald (h : Chronicled system) {provider : Provider}
    (hclient : system.client = .announcingStarted provider) (hhandle : system.handle = none) :
    Chronicled { system with
      shared := system.shared.emit (.started provider.name), client := .spawning provider } := by
  obtain ⟨front, last, hbefore, hafter⟩ :=
    Shared.exists_chapters_emit (rfl : (Event.started provider.name).isSelection = false)
      (by simp) system.shared
  have hlast : last = [] := by
    have hopen := h.prepared (by rw [hclient]; rfl)
    rw [hbefore, List.getLast?_concat] at hopen
    exact Option.some.inj hopen
  have htales := h.tales
  rw [hbefore, hlast, hclient] at htales
  constructor
  case tales =>
    rw [hafter, hlast]
    simpa [Client.heralded] using htales
  case prepared =>
    rintro _ ⟨⟩
    rw [hafter, hlast, List.getLast?_concat]
    rfl
  case watched =>
    intro place run hplace
    cases hhandle.symm.trans hplace

/-- A run that is started goes on with the tale that the client has begun. -/
theorem Chronicled.spawn (h : Chronicled system) {provider : Provider}
    (hclient : system.client = .spawning provider) :
    Chronicled { system with
      runs := system.runs ++ [Run.start system.settings provider]
      handle := some system.runs.length
      client := .idle } where
  tales := by
    rw [h.tales, hclient, List.map_append, List.append_assoc]
    rfl
  prepared hchapter := by cases hchapter
  watched := by
    intro place run hplace hrun
    have heq : system.runs.length = place := Option.some.inj hplace
    rw [← heq, List.getElem?_concat_length] at hrun
    cases hrun
    exact h.prepared (by rw [hclient]; rfl)

/-- Every step of the client keeps the chronicle right. -/
theorem Chronicled.proceed (h : Chronicled system) (hsupervised : Supervised settings system)
    {after : System} (hproceeds : system.Proceeds after) : Chronicled after := by
  have hlet : system.client.holdsOn = false → system.handle = none := hsupervised.let_go
  cases hproceeds with
  | stopped hclient =>
    exact h.turn rfl (by rw [hclient]; rfl) (.inl rfl) (.inr (hlet (by rw [hclient]; rfl)))
  | forget hclient =>
    exact h.turn rfl (by rw [hclient]; rfl) (.inl rfl) (.inr (hlet (by rw [hclient]; rfl)))
  | cleared hclient =>
    exact h.clear (by rw [hclient]; rfl) (hlet (by rw [hclient]; rfl)) rfl rfl fun _ hchapter => by
      cases hchapter
  | clearedToStart hclient =>
    refine h.clear (by rw [hclient]; rfl) (hlet (by rw [hclient]; rfl)) rfl rfl ?_
    rintro _ ⟨⟩
    rfl
  | mark hclient =>
    exact h.turn rfl (by rw [hclient]; rfl) (.inr (by rw [hclient]; rfl))
      (.inr (hlet (by rw [hclient]; rfl)))
  | started hclient => exact h.herald hclient (hlet (by rw [hclient]; rfl))
  | spawn hclient => exact h.spawn hclient
  | collected hclient =>
    exact h.turn rfl (by rw [hclient]; rfl) (.inl rfl) (.inr (hlet (by rw [hclient]; rfl)))
  | file hclient =>
    exact h.turn (Shared.chapters_emit_selection rfl _) (by rw [hclient]; rfl) (.inl rfl)
      (.inl (by rw [System.watched, hclient]; rfl))
  | folder hclient =>
    exact h.turn (Shared.chapters_emit_selection rfl _) (by rw [hclient]; rfl) (.inl rfl)
      (.inl (by rw [System.watched, hclient]; rfl))

/-- The latest run stands at the end, also after it has changed. -/
theorem exists_earlier_runs {runs : List Run} {place : Nat} {run : Run}
    (hrun : runs[place]? = some run) (hlatest : place + 1 = runs.length) :
    ∃ earlier, runs = earlier ++ [run] ∧
      ∀ change, runs.modify place change = earlier ++ [change run] := by
  obtain ⟨hplace, rfl⟩ := List.getElem?_eq_some_iff.mp hrun
  have hback : runs.drop (place + 1) = [] := by rw [hlatest, List.drop_length]
  refine ⟨runs.take place, ?_, fun change => ?_⟩
  · rw [← hback, List.getElem_cons_drop hplace, List.take_append_drop]
  · rw [List.modify_eq_take_cons_drop hplace, hback]

/-- What the watched run tells is added to its tale. -/
theorem Chronicled.tell (h : Chronicled system) {place : Nat} {run : Run} {phase : Run.Phase}
    {event : Event} (hrun : system.runs[place]? = some run) (hwatched : system.watched = some place)
    (hlatest : place + 1 = system.runs.length) (hheralded : system.client.heralded = [])
    (hprepared : system.client.lastChapter? = none) (hselection : event.isSelection = false)
    (hcleared : event ≠ .cleared) (htold : { run with phase }.told = run.told ++ [event]) :
    Chronicled { system with
      shared := system.shared.emit event
      runs := system.runs.modify place fun run => { run with phase } } := by
  obtain ⟨front, last, hbefore, hafter⟩ := system.shared.exists_chapters_emit hselection hcleared
  obtain ⟨earlier, hruns, hmodify⟩ := exists_earlier_runs hrun hlatest
  have hlast : last = run.told := by
    have hopen := h.watched hwatched hrun
    rw [hbefore, List.getLast?_concat] at hopen
    exact Option.some.inj hopen
  have hfront : front.filter (· ≠ []) = earlier.map Run.told := by
    have htales := h.tales
    rw [hbefore, hlast, hruns, hheralded, List.filter_append, List.map_append, List.append_nil]
      at htales
    exact (List.append_singleton_inj.mp htales).1
  constructor
  case tales =>
    rw [hafter, hmodify, hlast, List.filter_append, hfront, hheralded, List.map_append, ← htold]
    simp [Run.told]
  case prepared =>
    intro chapter hchapter
    cases hprepared.symm.trans hchapter
  case watched =>
    intro other changed hother hchanged
    have hplace : place = other := Option.some.inj (hwatched.symm.trans hother)
    obtain ⟨before, hthere, rfl⟩ := getElem?_modify_runs hchanged
    rw [if_pos hplace]
    rw [← hplace, hrun] at hthere
    cases hthere
    rw [hafter, List.getLast?_concat, hlast, htold]

/-- A step of a run keeps the chronicle right: only the watched run can make one. -/
theorem Chronicled.work (h : Chronicled system) (hsupervised : Supervised settings system)
    (hdisplayed : Displayed system) {place : Nat} {after : System}
    (hwork : system.work place = some after) :
    Chronicled after := by
  obtain ⟨run, phase, shared, hrun, hstep, rfl⟩ := exists_of_work hwork
  have hend := Run.outcome?_eq_none_of_step hstep
  have hwatched := hsupervised.unfinished_watched hrun hend
  have hblank := hsupervised.not_blank hrun hend
  cases Run.tellsNext_of_step (hdisplayed.watched hwatched hrun).not_cancelled hstep with
  | nothing hlog htold =>
    have hchapters := Shared.chapters_congr hlog
    constructor
    case tales =>
      rw [hchapters, map_told_modify]
      · exact h.tales
      · intro other hother
        cases hrun.symm.trans hother
        exact htold
    case prepared => exact fun hchapter => hchapters ▸ h.prepared hchapter
    case watched =>
      intro other changed hother hchanged
      obtain ⟨before, hthere, rfl⟩ := getElem?_modify_runs hchanged
      have hlast := h.watched hother hthere
      rw [hchapters, hlast]
      split
      · rename_i hplace
        rw [← hplace, hrun] at hthere
        cases hthere
        rw [htold]
      · rfl
  | event hshared hselection hcleared htold =>
    rw [hshared]
    refine h.tell hrun hwatched
      (hsupervised.watched_latest hwatched) ?_ ?_ hselection hcleared htold
    · cases hclient : system.client <;> simp_all [Client.isBlank, Client.heralded]
    · cases hclient : system.client <;> simp_all [Client.isBlank, Client.lastChapter?]

/-- **Every move keeps the chronicle right.** -/
theorem Chronicled.step (h : Chronicled system) (hsupervised : Supervised settings system)
    (hdisplayed : Displayed system) {move : Move} {after : System}
    (hstep : system.step move = some after) :
    Chronicled after := by
  cases move with
  | request request =>
    obtain ⟨hclient, haccepts⟩ := accepts_of_request hstep
    exact h.accept hclient haccepts
  | proceed => exact h.proceed hsupervised (proceeds_of_proceed hstep)
  | work place => exact h.work hsupervised hdisplayed hstep

/-- The chronicle is right in every reachable system. -/
theorem Reachable.chronicled (h : Reachable settings system) : Chronicled system :=
  h.keeps (fun hreach hbefore hstep => hbefore.step hreach.supervised hreach.displayed hstep)
    (chronicled_new settings)

/-- Every chapter is empty or the beginning of a tale. -/
theorem Chronicled.isTold (h : Chronicled system) {chapter : List Event}
    (hchapter : chapter ∈ system.shared.chapters) : Event.IsTold chapter := by
  by_cases hempty : chapter = []
  · exact ⟨"", .inl ⟨.notReady, hempty ▸ List.nil_prefix⟩⟩
  · have htale : chapter ∈ system.runs.map Run.told ++ system.client.heralded := by
      rw [← h.tales]
      exact List.mem_filter.mpr ⟨hchapter, decide_eq_true hempty⟩
    rcases List.mem_append.mp htale with hrun | hheralded
    · obtain ⟨run, _, rfl⟩ := List.mem_map.mp hrun
      rcases run.told_follows with hfailure | ⟨summary, _, hsuccess⟩
      · exact ⟨run.provider.name, .inl hfailure⟩
      · exact ⟨run.provider.name, .inr ⟨_, _, hsuccess⟩⟩
    · cases hclient : system.client with
      | spawning provider =>
        rw [hclient] at hheralded
        rw [List.mem_singleton.mp hheralded]
        exact ⟨provider.name, .inl ⟨.notReady, ⟨_, rfl⟩⟩⟩
      | _ =>
        rw [hclient] at hheralded
        cases hheralded

end System

namespace Session

/-- **The events of a session follow a protocol**, in whatever order the client and its runs move.
Without selections and cut where all is forgotten, they fall into chapters, each of which is the
beginning of one of two tales. A run is started and fetches its files, and then either a failure is
told, or the status line of an analysis and that its corpus is ready. So a corpus becomes ready at
most once in a chapter, and never where a failure is told. The chapters that are not empty belong to
the runs in the order of their starts, with the numbers of their summaries. At most one more is
begun, for a run that is just about to start. -/
theorem events_follow_protocol (settings : Settings) :
    (∀ system, System.Reachable settings system →
      (∀ chapter ∈ system.session.chapters, Event.Orderly chapter) ∧
      ∃ tales, system.session.chapters.filter (· ≠ []) = tales ++ system.client.heralded ∧
        List.Forall₂ Run.Tells system.runs tales) ∧
    ∀ session : Session, session.Reached settings →
      ∀ chapter ∈ session.chapters, Event.Orderly chapter := by
  have horderly : ∀ system, System.Reachable settings system →
      ∀ chapter ∈ system.session.chapters, Event.Orderly chapter :=
    fun system hreach chapter hchapter => (hreach.chronicled.isTold hchapter).orderly
  refine ⟨fun system hreach => ⟨horderly system hreach, system.runs.map Run.told, ?_, ?_⟩, ?_⟩
  · exact hreach.chronicled.tales
  · rw [List.forall₂_map_right_iff]
    exact List.forall₂_same.mpr fun run _ => run.tells_told
  · intro session hsession
    obtain ⟨system, hreach, _, rfl⟩ := System.reachable_of_reached hsession
    exact horderly system hreach

/-- A file is selected while a run is under way, and then all is forgotten. The chapter of the run
tells of it to the end, and an empty one follows. -/
theorem events_follow_protocol_shop :
    (∃ system tale, System.moves (System.startMoves 9 ++
        [.request (.selectFile "A"), .proceed, .request .clear, .proceed, .proceed, .proceed])
        (System.new .standard) = some system ∧
      system.session.chapters = [[], Event.successTale "shop" 1 0, []] ∧
      (∀ chapter ∈ system.session.chapters, Event.Orderly chapter) ∧
      List.Forall₂ Run.Tells system.runs [tale]) ∧
    ∀ chapter ∈ ((new .standard).start System.shop).wait.1.chapters, Event.Orderly chapter := by
  have hmoves : ∃ system, System.moves (System.startMoves 9 ++
      [.request (.selectFile "A"), .proceed, .request .clear, .proceed, .proceed, .proceed])
      (System.new .standard) = some system ∧
      system.session.chapters = [[], Event.successTale "shop" 1 0, []] ∧ system.runs.length = 1 :=
    ⟨_, rfl, rfl, rfl⟩
  obtain ⟨system, hsystem, hchapters, hcount⟩ := hmoves
  obtain ⟨hsystems, hsessions⟩ := events_follow_protocol .standard
  obtain ⟨horderly, tales, _, htells⟩ := hsystems system (System.steps_of_moves hsystem)
  obtain ⟨tale, rfl⟩ := List.length_eq_one_iff.mp (htells.length_eq.symm.trans hcount)
  exact ⟨⟨system, tale, hsystem, hchapters, horderly, htells⟩, hsessions _ (.wait (.start _ .new))⟩

end Session

end ClassAtlas
