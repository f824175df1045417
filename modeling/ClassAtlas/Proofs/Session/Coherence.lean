import ClassAtlas.Proofs.Session.Schedules

/-!
# Coherence of the published state

The flags of a session, its corpus and the summary that it keeps are written one after the other,
some by the client and some by a run. This file proves that they agree after every single write, in
whatever order the client and its runs move: the session is ready if and only if there is a corpus,
it is never ready and loading, and a summary that is kept tells the size of the corpus that is
published.
-/

namespace ClassAtlas

/-! ## What a step publishes -/

/-- The flags of a snapshot agree with its corpus. -/
structure Snapshot.Coherent (snapshot : Snapshot) : Prop where
  ready_iff : snapshot.ready = true ↔ ∃ corpus, snapshot.corpus = some corpus
  ready_at_rest : snapshot.ready = true → snapshot.loading = false

/-- The flags of a snapshot stay in agreement when only others of its fields change, or loading
ends. -/
theorem Snapshot.Coherent.congr {snapshot other : Snapshot} (h : snapshot.Coherent)
    (hcorpus : other.corpus = snapshot.corpus) (hready : other.ready = snapshot.ready)
    (hloading : other.loading = snapshot.loading ∨ other.loading = false) : other.Coherent where
  ready_iff := by rw [hready, hcorpus]; exact h.ready_iff
  ready_at_rest := by
    intro hnow
    rcases hloading with hsame | hrest
    · exact hsame.trans (h.ready_at_rest (hready ▸ hnow))
    · exact hrest

/-- A snapshot without a corpus is not ready. -/
theorem Snapshot.Coherent.ready_eq_false {snapshot : Snapshot} (h : snapshot.Coherent)
    (hnone : snapshot.corpus = none) : snapshot.ready = false := by
  cases hready : snapshot.ready with
  | false => rfl
  | true =>
    obtain ⟨corpus, hcorpus⟩ := h.ready_iff.mp hready
    cases hnone.symm.trans hcorpus

/-- Publishing sets all flags at once. -/
theorem Shared.coherent_publish (shared : Shared) (corpus : Corpus) :
    (shared.publish corpus).snapshot.Coherent where
  ready_iff := iff_of_true rfl ⟨corpus, rfl⟩
  ready_at_rest _ := rfl

namespace Run

/-- The summary of what the run has published. -/
def published? (run : Run) : Option Summary :=
  match run.phase with
  | .reporting summary => some summary
  | .announcingStatus summary => some summary
  | .announcingReady summary => some summary
  | .finished (.completed summary) => some summary
  | _ => none

/-- A run that completed has published what its summary says. -/
theorem published?_of_completed {run : Run} {summary : Summary}
    (h : run.outcome? = some (.completed summary)) : run.published? = some summary := by
  obtain ⟨provider, settings, cancelled, phase⟩ := run
  cases phase <;> cases h
  rfl

/-- A failure publishes nothing. -/
theorem published?_afterFailure (run : Run) (failure : Failure) :
    { run with phase := afterFailure failure }.published? = none := by
  unfold afterFailure
  split <;> rfl

/-- The step leaves the corpus alone, and nothing starts to load. -/
def Withholds (run : Run) (phase : Phase) (shared shared' : Shared) : Prop :=
  { run with phase }.published? = run.published? ∧
  shared'.snapshot.corpus = shared.snapshot.corpus ∧
    shared'.snapshot.ready = shared.snapshot.ready ∧
    (shared'.snapshot.loading = shared.snapshot.loading ∨ shared'.snapshot.loading = false)

/-- Every step of a run but one leaves the corpus alone. That one publishes it, with all flags and a
summary of its size. -/
theorem withholds_or_publishes {run : Run} {shared shared' : Shared} {phase : Phase}
    (h : run.step shared = some (phase, shared')) :
    run.Withholds phase shared shared' ∨
      ∃ corpus summary, shared' = shared.publish corpus ∧
        { run with phase }.published? = some summary ∧
        summary.entities = corpus.size := by
  have hfailure : run.published? = none → ∀ failure,
      run.Withholds (afterFailure failure) shared shared := fun hnone failure =>
    ⟨(published?_afterFailure run failure).trans hnone.symm, rfl, rfl, .inl rfl⟩
  cases transition_of_step h with
  | publish hphase => exact .inr ⟨_, _, rfl, rfl, rfl⟩
  | reject hphase => exact .inl (hfailure (by simp only [published?, hphase]) _)
  | failListing hphase => exact .inl (hfailure (by simp only [published?, hphase]) _)
  | failFetching hphase => exact .inl (hfailure (by simp only [published?, hphase]) _)
  | endLoading hphase => exact .inl ⟨by simp only [published?, hphase], rfl, rfl, .inr rfl⟩
  | _ => exact .inl ⟨by simp only [published?, *], rfl, rfl, .inl rfl⟩

end Run

/-! ## The invariant -/

namespace System

/-- The published corpus has as many entities as the summary says. -/
def Shows (system : System) (summary : Summary) : Prop :=
  ∃ corpus, system.shared.snapshot.corpus = some corpus ∧ corpus.size = summary.entities

/-- Systems with the same corpus agree with the same summaries. -/
theorem Shows.congr {system other : System} {summary : Summary} (h : system.Shows summary)
    (hcorpus : other.shared.snapshot.corpus = system.shared.snapshot.corpus) :
    other.Shows summary := by
  obtain ⟨corpus, hshown, hsize⟩ := h
  exact ⟨corpus, hcorpus.trans hshown, hsize⟩

/-- What is published agrees with the flags, with the run that published it and with the summary
that is kept. A summary is kept only while no run is watched and nothing has been forgotten. -/
structure Coherent (system : System) : Prop where
  snapshot : system.shared.snapshot.Coherent
  kept_free : ∀ {summary : Summary}, system.lastSummary = some summary →
    system.watched = none ∧ system.client.isBlank = false
  kept_shown : ∀ {summary : Summary}, system.lastSummary = some summary → system.Shows summary
  watched_shown : ∀ {place : Nat} {run : Run} {summary : Summary}, system.watched = some place →
    system.runs[place]? = some run → run.published? = some summary → system.Shows summary
  unpublished : ∀ {place : Nat} {run : Run}, place + 1 = system.runs.length →
    system.runs[place]? = some run → run.published? = none → system.shared.snapshot.corpus = none

variable {settings : Settings} {system : System}

/-- Nothing is published before the first start. -/
theorem coherent_new (settings : Settings) : Coherent (new settings) where
  snapshot := ⟨by simp [new, Snapshot.blank], fun h => by cases h⟩
  kept_free h := by cases h
  kept_shown h := by cases h
  watched_shown h := by cases h
  unpublished _ h := by cases h

/-- While a run is watched or all is forgotten, no summary is kept. -/
theorem Coherent.lastSummary_eq_none (h : Coherent system)
    (hbusy : system.watched ≠ none ∨ system.client.isBlank = true) : system.lastSummary = none := by
  cases hsummary : system.lastSummary with
  | none => rfl
  | some summary =>
    obtain ⟨hwatched, hblank⟩ := h.kept_free hsummary
    rcases hbusy with hwatch | hnow
    · exact absurd hwatched hwatch
    · rw [hblank] at hnow
      cases hnow

/-- Coherence is kept when the client turns to something else and leaves the corpus and the summary
alone. -/
theorem Coherent.turn (h : Coherent system) {shared : Shared} {handle : Option Nat}
    {client : Client} (hsnapshot : shared.snapshot.Coherent)
    (hcorpus : shared.snapshot.corpus = system.shared.snapshot.corpus)
    (hwatched : client.awaited.or handle = system.watched ∨ client.awaited.or handle = none)
    (hblank : client.isBlank = true → system.client.isBlank = true) :
    Coherent { system with shared, handle, client } where
  snapshot := hsnapshot
  kept_free := by
    intro summary hsummary
    obtain ⟨hnone, hnot⟩ := h.kept_free hsummary
    refine ⟨?_, ?_⟩
    · rcases hwatched with hsame | hfree
      · exact hsame.trans hnone
      · exact hfree
    · cases hnow : client.isBlank with
      | false => rfl
      | true => cases (hblank hnow).symm.trans hnot
  kept_shown hsummary := (h.kept_shown hsummary).congr hcorpus
  watched_shown := by
    intro place run summary hplace hrun hpublished
    rcases hwatched with hsame | hfree
    · exact (h.watched_shown (hsame.symm.trans hplace) hrun hpublished).congr hcorpus
    · cases hfree.symm.trans hplace
  unpublished hlatest hrun hnone := hcorpus.trans (h.unpublished hlatest hrun hnone)

/-- Coherence is kept when one run changes that publishes nothing by it. -/
theorem Coherent.modify (h : Coherent system) {place : Nat} {change : Run → Run} {shared : Shared}
    (hsnapshot : shared.snapshot.Coherent)
    (hcorpus : shared.snapshot.corpus = system.shared.snapshot.corpus)
    (hchange : ∀ run, system.runs[place]? = some run → (change run).published? = run.published?) :
    Coherent { system with shared, runs := system.runs.modify place change } := by
  have hbefore : ∀ {other : Nat} {run : Run}, (system.runs.modify place change)[other]? = some run →
      ∃ before, system.runs[other]? = some before ∧ run.published? = before.published? := by
    intro other run hrun
    obtain ⟨before, hbefore, rfl⟩ := getElem?_modify_runs hrun
    refine ⟨before, hbefore, ?_⟩
    split
    · rename_i hplace
      exact hchange before (hplace ▸ hbefore)
    · rfl
  constructor
  case snapshot => exact hsnapshot
  case kept_free => exact fun hsummary => h.kept_free hsummary
  case kept_shown => exact fun hsummary => (h.kept_shown hsummary).congr hcorpus
  case watched_shown =>
    intro other run summary hwatched hrun hpublished
    obtain ⟨before, hthere, heq⟩ := hbefore hrun
    exact (h.watched_shown hwatched hthere (heq ▸ hpublished)).congr hcorpus
  case unpublished =>
    intro other run hlatest hrun hnone
    obtain ⟨before, hthere, heq⟩ := hbefore hrun
    rw [List.length_modify] at hlatest
    exact hcorpus.trans (h.unpublished hlatest hthere (heq ▸ hnone))

/-- Coherence is kept when a run is asked to stop. -/
theorem Coherent.cancel (h : Coherent system) (place : Nat) :
    Coherent { system with runs := system.runs.modify place Run.cancel } :=
  h.modify h.snapshot rfl fun _ _ => rfl

/-! ## Moves of runs -/

/-- The watched run publishes a corpus and knows its size. -/
theorem Coherent.publish (h : Coherent system) (hsupervised : Supervised settings system)
    {place : Nat} {run : Run} {phase : Run.Phase} {corpus : Corpus} {summary : Summary}
    (hrun : system.runs[place]? = some run)
    (hend : run.outcome? = none) (hpublished : { run with phase }.published? = some summary)
    (hsize : summary.entities = corpus.size) :
    Coherent { system with
      shared := system.shared.publish corpus
      runs := system.runs.modify place fun run => { run with phase } } := by
  have hwatched := hsupervised.unfinished_watched hrun hend
  have hlatest := hsupervised.watched_latest hwatched
  have hnothing := h.lastSummary_eq_none (.inl (by simp [hwatched]))
  have hthere : ∀ {other : Nat} {after : Run}, other = place →
      (system.runs.modify place fun run => { run with phase })[other]? = some after →
      after = { run with phase } := by
    intro other after hother hafter
    obtain ⟨before, hbefore, rfl⟩ := getElem?_modify_runs hafter
    cases hother
    cases hrun.symm.trans hbefore
    rw [if_pos rfl]
  constructor
  case snapshot => exact system.shared.coherent_publish corpus
  case kept_free => intro kept hkept; cases hnothing.symm.trans hkept
  case kept_shown => intro kept hkept; cases hnothing.symm.trans hkept
  case watched_shown =>
    intro other after told hother hafter htold
    have hplace : other = place := Option.some.inj (hother.symm.trans hwatched)
    rw [hthere hplace hafter, hpublished] at htold
    cases htold
    exact ⟨corpus, rfl, hsize.symm⟩
  case unpublished =>
    intro other after hother hafter hnone
    rw [List.length_modify] at hother
    rw [hthere (by omega) hafter, hpublished] at hnone
    cases hnone

/-- Coherence is kept when a run makes a step. -/
theorem Coherent.work (h : Coherent system) (hsupervised : Supervised settings system) {place : Nat}
    {after : System} (hwork : system.work place = some after) : Coherent after := by
  obtain ⟨run, phase, shared, hrun, hstep, rfl⟩ := exists_of_work hwork
  rcases Run.withholds_or_publishes hstep with
    ⟨hpublished, hcorpus, hready, hloading⟩ | ⟨corpus, summary, rfl, hpublished, hsize⟩
  · refine h.modify (h.snapshot.congr hcorpus hready hloading) hcorpus ?_
    intro other hother
    cases hrun.symm.trans hother
    exact hpublished
  · exact h.publish hsupervised hrun (Run.outcome?_eq_none_of_step hstep) hpublished hsize

/-! ## Moves of the client -/

/-- Every request keeps coherence. -/
theorem Coherent.accept (h : Coherent system) (hclient : system.client = .idle) {after : System}
    (haccepts : system.Accepts after) : Coherent after := by
  have hwatched : system.watched = system.handle := by simp [watched, hclient, Client.awaited]
  cases haccepts with
  | stopNone hhandle => exact h.turn h.snapshot rfl (.inr hhandle) (fun hblank => by cases hblank)
  | stopRun hhandle =>
    exact (h.cancel _).turn h.snapshot rfl (.inl (hwatched.trans hhandle).symm)
      (fun hblank => by cases hblank)
  | waitNone => exact h
  | waitRun hhandle =>
    exact h.turn h.snapshot rfl (.inl (hwatched.trans hhandle).symm) (fun hblank => by cases hblank)
  | file name =>
    exact h.turn (h.snapshot.congr rfl rfl (.inl rfl)) rfl (.inl hwatched.symm)
      (fun hblank => by cases hblank)
  | folder path =>
    exact h.turn (h.snapshot.congr rfl rfl (.inl rfl)) rfl (.inl hwatched.symm)
      (fun hblank => by cases hblank)

/-- Forgetting leaves nothing to disagree about. -/
theorem coherent_forget (hsupervised : Supervised settings system) {next : Option Provider}
    (hclient : system.client = .forgetting next) :
    Coherent { system with
      lastSummary := none, shared := system.shared.forget, client := .announcingCleared next } where
  snapshot := ⟨by simp [Shared.forget, Snapshot.blank], fun h => by cases h⟩
  kept_free h := by cases h
  kept_shown h := by cases h
  watched_shown hwatched := by
    have hhandle := hsupervised.let_go (by rw [hclient]; rfl)
    cases hhandle.symm.trans hwatched
  unpublished _ _ _ := rfl

/-- Nothing is published while a new run is started. -/
theorem Coherent.spawn (h : Coherent system) (hsupervised : Supervised settings system)
    {provider : Provider} (hclient : system.client = .spawning provider) :
    Coherent { system with
      runs := system.runs ++ [Run.start system.settings provider]
      handle := some system.runs.length
      client := .idle } := by
  have hblank : system.client.isBlank = true := by rw [hclient]; rfl
  have hnothing := h.lastSummary_eq_none (.inr hblank)
  constructor
  case snapshot => exact h.snapshot
  case kept_free => intro kept hkept; cases hnothing.symm.trans hkept
  case kept_shown => intro kept hkept; cases hnothing.symm.trans hkept
  case watched_shown =>
    intro place run summary hplace hrun hpublished
    have heq : system.runs.length = place := Option.some.inj hplace
    rw [← heq, List.getElem?_concat_length] at hrun
    cases hrun
    cases hpublished
  case unpublished => exact fun _ _ _ => hsupervised.blank hblank

/-- The summary of a run that is collected tells what the run has published. -/
theorem Coherent.collect (h : Coherent system) (hsupervised : Supervised settings system)
    {place : Nat} {outcome : Outcome} (hclient : system.client = .waiting place)
    (houtcome : system.outcome? place = some outcome) :
    Coherent { system with
      lastSummary := Session.keptSummary system.lastSummary outcome, client := .idle } := by
  have hwatched : system.watched = some place := by simp [watched, hclient, Client.awaited]
  have hhandle : system.handle = none := hsupervised.let_go (by rw [hclient]; rfl)
  have hnothing := h.lastSummary_eq_none (.inl (by simp [hwatched]))
  obtain ⟨run, hrun, hend⟩ := Option.bind_eq_some_iff.mp houtcome
  constructor
  case snapshot => exact h.snapshot
  case kept_free => exact fun _ => ⟨hhandle, rfl⟩
  case kept_shown =>
    intro summary hsummary
    cases outcome with
    | completed told =>
      cases hsummary
      exact h.watched_shown hwatched hrun (Run.published?_of_completed hend)
    | failed failure => cases hnothing.symm.trans hsummary
    | crashed => cases hnothing.symm.trans hsummary
  case watched_shown => intro other run summary hother; cases hhandle.symm.trans hother
  case unpublished => exact h.unpublished

/-- Every step of the client keeps coherence. -/
theorem Coherent.proceed (h : Coherent system) (hsupervised : Supervised settings system)
    {after : System} (hproceeds : system.Proceeds after) : Coherent after := by
  cases hproceeds with
  | stopped hclient =>
    have hhandle := hsupervised.let_go (by rw [hclient]; rfl)
    exact h.turn h.snapshot rfl (.inr hhandle) (fun hblank => by cases hblank)
  | forget hclient => exact coherent_forget hsupervised hclient
  | cleared hclient =>
    exact h.turn h.snapshot rfl (.inl (by rw [watched, hclient]; rfl))
      (fun hblank => by cases hblank)
  | clearedToStart hclient =>
    exact h.turn h.snapshot rfl (.inl (by rw [watched, hclient]; rfl))
      (fun _ => by rw [hclient]; rfl)
  | mark hclient =>
    -- Loading starts where all is forgotten, so the session is not ready.
    have hnone := hsupervised.blank (by rw [hclient]; rfl)
    refine h.turn ⟨h.snapshot.ready_iff, fun hready => ?_⟩ rfl
      (.inl (by rw [watched, hclient]; rfl))
      (fun _ => by rw [hclient]; rfl)
    cases (h.snapshot.ready_eq_false hnone).symm.trans hready
  | started hclient =>
    exact h.turn h.snapshot rfl (.inl (by rw [watched, hclient]; rfl))
      (fun _ => by rw [hclient]; rfl)
  | spawn hclient => exact h.spawn hsupervised hclient
  | collected hclient houtcome => exact h.collect hsupervised hclient houtcome
  | file hclient =>
    exact h.turn h.snapshot rfl (.inl (by rw [watched, hclient]; rfl))
      (fun hblank => by cases hblank)
  | folder hclient =>
    exact h.turn h.snapshot rfl (.inl (by rw [watched, hclient]; rfl))
      (fun hblank => by cases hblank)

/-- **Every move keeps coherence.** -/
theorem Coherent.step (h : Coherent system) (hsupervised : Supervised settings system) {move : Move}
    {after : System} (hstep : system.step move = some after) : Coherent after := by
  cases move with
  | request request =>
    obtain ⟨hclient, haccepts⟩ := accepts_of_request hstep
    exact h.accept hclient haccepts
  | proceed => exact h.proceed hsupervised (proceeds_of_proceed hstep)
  | work place => exact h.work hsupervised hstep

/-- Every reachable system is coherent. -/
theorem Reachable.coherent (h : Reachable settings system) : Coherent system :=
  h.keeps (fun hreach hbefore hstep => hbefore.step hreach.supervised hstep) (coherent_new settings)

end System

/-! ## What everybody sees -/

namespace Session

/-- The corpus can be read once it is there and the session is ready. -/
theorem corpus_eq_ok_iff {session : Session} {corpus : Corpus} :
    session.corpus = .ok corpus ↔
      session.snapshot.corpus = some corpus ∧ session.snapshot.ready = true := by
  unfold Session.corpus
  cases session.snapshot.corpus <;> cases session.snapshot.ready <;> simp

/-- What a session shows agrees: its flags with each other and with its corpus, and the summary that
it keeps with the corpus that is published. -/
structure Consistent (session : Session) : Prop where
  ready_iff : session.snapshot.ready = true ↔ ∃ corpus, session.snapshot.corpus = some corpus
  not_ready_and_loading : ¬ (session.snapshot.ready = true ∧ session.snapshot.loading = true)
  readable_iff : (∃ corpus, session.corpus = .ok corpus) ↔ session.snapshot.ready = true
  summary_shown : ∀ summary, session.lastSummary = some summary → session.snapshot.ready = true ∧
    ∃ corpus, session.snapshot.corpus = some corpus ∧ corpus.size = summary.entities

/-- What a coherent system shows is consistent. -/
theorem consistent_of_coherent {system : System} (h : system.Coherent) :
    system.session.Consistent where
  ready_iff := h.snapshot.ready_iff
  not_ready_and_loading := by
    rintro ⟨hready, hloading⟩
    cases (h.snapshot.ready_at_rest hready).symm.trans hloading
  readable_iff := by
    simp only [corpus_eq_ok_iff]
    constructor
    · rintro ⟨_, _, hready⟩
      exact hready
    · intro hready
      obtain ⟨corpus, hcorpus⟩ := h.snapshot.ready_iff.mp hready
      exact ⟨corpus, hcorpus, hready⟩
  summary_shown := by
    intro summary hsummary
    obtain ⟨corpus, hcorpus, hsize⟩ := h.kept_shown hsummary
    exact ⟨h.snapshot.ready_iff.mpr ⟨corpus, hcorpus⟩, corpus, hcorpus, hsize⟩

/-- **What a session shows is consistent**, after every move of its client and its runs in any
order, and so after any sequence of operations. -/
theorem always_consistent (settings : Settings) :
    (∀ system, System.Reachable settings system → system.session.Consistent) ∧
      ∀ session : Session, session.Reached settings → session.Consistent := by
  have hsystems : ∀ system, System.Reachable settings system → system.session.Consistent :=
    fun system hreach => consistent_of_coherent hreach.coherent
  refine ⟨hsystems, ?_⟩
  intro session hsession
  obtain ⟨system, hreach, _, rfl⟩ := System.reachable_of_reached hsession
  exact hsystems system hreach

/-- A run that is waited for leaves a summary of the corpus that it published. -/
theorem always_consistent_shop :
    (∃ system summary, System.moves (System.startMoves 9 ++ [.request .wait, .proceed])
        (System.new .standard) = some system ∧
      system.lastSummary = some summary ∧ system.session.Consistent) ∧
    ∃ summary, ((new .standard).start System.shop).wait.1.lastSummary = some summary ∧
      ((new .standard).start System.shop).wait.1.Consistent := by
  have hmoves : ∃ system summary, System.moves (System.startMoves 9 ++ [.request .wait, .proceed])
      (System.new .standard) = some system ∧ system.lastSummary = some summary := ⟨_, _, rfl, rfl⟩
  have hwaited :
      ∃ summary, ((new .standard).start System.shop).wait.1.lastSummary = some summary := ⟨_, rfl⟩
  obtain ⟨system, summary, hsystem, hsummary⟩ := hmoves
  obtain ⟨told, htold⟩ := hwaited
  obtain ⟨hsystems, hsessions⟩ := always_consistent .standard
  exact ⟨⟨system, summary, hsystem, hsummary, hsystems system (System.steps_of_moves hsystem)⟩,
    told, htold, hsessions _ (.wait (.start _ .new))⟩

end Session

end ClassAtlas
