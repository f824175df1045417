import ClassAtlas.Proofs.Session.RunSteps

/-!
# Runs come to rest

Every step of a run brings it closer to its end, and a run can only be held up by its provider. This
file bounds the number of steps that are left and concludes that a run which is given all the time
it needs stops at a point where it can make no step, and that a run which was asked to stop ends.
-/

namespace ClassAtlas

namespace Provider

/-- A provider that lists its files lists as many as it has. -/
theorem fileCount_eq {provider : Provider} {paths : List String}
    (h : provider.listing = .answer (.ok paths)) : provider.fileCount = paths.length := by
  simp [fileCount, h]

end Provider

namespace Run

/-- How many steps a run can make at most. -/
def stepsLeft (run : Run) : Nat :=
  match run.phase with
  | .created => run.provider.fileCount + 8
  | .announcingFetch => run.provider.fileCount + 7
  | .listing => run.provider.fileCount + 6
  | .fetching remaining _ _ => remaining.length + 5
  | .publishing _ _ => 4
  | .reporting _ => 3
  | .announcingStatus _ => 2
  | .announcingReady _ => 1
  | .failing _ => 3
  | .reportingFailure _ => 2
  | .announcingFailure _ => 1
  | .finished _ => 0

/-- After a failure at most three steps are left. -/
theorem stepsLeft_afterFailure (run : Run) (failure : Failure) :
    { run with phase := afterFailure failure }.stepsLeft ≤ 3 := by
  unfold afterFailure
  split
  · exact Nat.zero_le 3
  · exact Nat.le_refl 3

/-- Every step leaves fewer steps. -/
theorem stepsLeft_lt_of_step {run : Run} {shared shared' : Shared} {phase : Phase}
    (h : run.step shared = some (phase, shared')) :
    { run with phase }.stepsLeft < run.stepsLeft := by
  -- A failure ends the run sooner than it would have ended otherwise.
  have hfailure : ∀ failure : Failure, 3 < run.stepsLeft →
      { run with phase := afterFailure failure }.stepsLeft < run.stepsLeft := by
    intro failure hleft
    have hbound := stepsLeft_afterFailure run failure
    omega
  cases transition_of_step h with
  | reject hphase => exact hfailure _ (by simp [stepsLeft, hphase])
  | failListing hphase => exact hfailure _ (by simp [stepsLeft, hphase])
  | failFetching hphase => exact hfailure _ (by simp [stepsLeft, hphase])
  | list hphase _ _ hlisting =>
    have hcount := Provider.fileCount_eq hlisting
    simp only [stepsLeft, hphase]
    omega
  | _ => simp [stepsLeft, *]

/-- With as many steps as are left a run comes to rest. -/
theorem advance_at_rest {bound : Nat} {run : Run} {shared : Shared}
    (hbound : run.stepsLeft ≤ bound) :
    (run.advance bound shared).1.step (run.advance bound shared).2 = none := by
  induction bound generalizing run shared with
  | zero =>
    cases hstep : run.step shared with
    | none => exact hstep
    | some next =>
      have hless := stepsLeft_lt_of_step hstep
      omega
  | succ bound ih =>
    unfold advance
    cases hstep : run.step shared with
    | none => exact hstep
    | some next =>
      have hless := stepsLeft_lt_of_step hstep
      exact ih (by omega)

/-- The steps that are allowed are enough for a faithful run. -/
theorem Faithful.stepsLeft_le {run : Run} (h : run.Faithful) :
    run.stepsLeft ≤ stepBound run.provider := by
  unfold stepBound
  obtain ⟨provider, settings, cancelled, now⟩ := run
  cases now with
  | fetching remaining fetched skipped =>
    obtain ⟨done, hlisting, _⟩ := h
    have hcount := Provider.fileCount_eq hlisting
    simp only [List.length_append] at hcount
    simp only [stepsLeft]
    omega
  | _ => simp only [stepsLeft]; omega

/-- A faithful run comes to rest when it is given time. -/
theorem Faithful.settle_at_rest {run : Run} (h : run.Faithful) (shared : Shared) :
    (run.settle shared).1.step (run.settle shared).2 = none :=
  advance_at_rest h.stepsLeft_le

/-- A run that was asked to stop is not held up by its provider. -/
theorem outcome?_ne_none_of_cancelled {run : Run} {shared : Shared}
    (hcancelled : run.cancelled = true) (hrest : run.step shared = none) : run.outcome? ≠ none := by
  obtain ⟨provider, settings, cancelled, now⟩ := run
  cases hcancelled
  cases now with
  | listing =>
    rw [Run.step, Option.map_eq_none_iff] at hrest
    unfold afterListing at hrest
    split at hrest <;> cases hrest
  | fetching remaining fetched skipped => cases remaining <;> cases hrest
  | finished outcome => exact Option.some_ne_none outcome
  | _ => cases hrest

/-- A run keeps its provider and settings, and whether it was asked to stop, as long as it goes
on. -/
theorem advance_kept (bound : Nat) (run : Run) (shared : Shared) :
    ∃ phase, (run.advance bound shared).1 = { run with phase } := by
  induction bound generalizing run shared with
  | zero => exact ⟨run.phase, rfl⟩
  | succ bound ih =>
    unfold advance
    cases run.step shared with
    | none => exact ⟨run.phase, rfl⟩
    | some next =>
      obtain ⟨phase, hphase⟩ := ih { run with phase := next.1 } next.2
      exact ⟨phase, hphase⟩

/-- **A run that was asked to stop ends** when it is given time. -/
theorem Faithful.settle_cancelled {run : Run} (h : run.Faithful) (hcancelled : run.cancelled = true)
    (shared : Shared) : (run.settle shared).1.outcome? ≠ none := by
  apply outcome?_ne_none_of_cancelled _ (h.settle_at_rest shared)
  obtain ⟨phase, hphase⟩ := advance_kept (stepBound run.provider) run shared
  rw [settle, hphase]
  exact hcancelled

end Run

end ClassAtlas
