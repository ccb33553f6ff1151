import Cache2.Lib.Interleaving
import Cache2.Lib.Word

set_option relaxedAutoImplicit false
set_option autoImplicit false

/-!
# Background I/O: slow observations and the recovery fence

Background reads and writes report how they fare to two places. The fill controller counts who
holds fills back: observations of slow requests, and attempts that are in timeout recovery. The
recovery state counts the attempts in recovery once more, for those who run without a controller.
An attempt that enters recovery raises both counters; only success lowers them again, so that a
failed attempt leaves the fence raised for good.

The attempts, the calls that stop both components and the admission checks of foreground fills are
threads over the two components, with one action for each atomic access. What the clock decides is
left open. The controller's `publish` copies its state to a cell that only the log reads, and its
flush budget and statistics have no part in admission; these are left out.

## Main definitions

* `Cache2.IoRecovery`, `Cache2.FillController` — the two components.
* `Cache2.BackgroundIoAttempt`, `Cache2.BackgroundThread` — an attempt and where a thread stands.
* `Cache2.BackgroundAct` — the actions.

## Main results

* `Cache2.backgroundIo_fence` — both counters count the attempts in recovery, the pause counter
  counts the slow observations, and a stop is for good.
-/

namespace Cache2

open Interleaving

/-! ## The components -/

/-- The fields of `FillController` that admission reads, and its observation slots: the start time
of the request that a slot observes, or zero. -/
structure FillController where
  /-- Rejections are enforced, not only counted. -/
  enforcing : Bool
  /-- `stop` was called. -/
  stopped : Bool
  /-- The attempts in recovery. -/
  recovering : ℕ
  /-- The slow observations. -/
  pauseHolders : ℕ
  /-- `start_ns` of each slot. -/
  slots : List ℕ
  deriving DecidableEq, Repr

/-- `FillController::new`, for options that enable it. -/
def FillController.new (enforcing : Bool) (slots : ℕ) : FillController :=
  ⟨enforcing, false, 0, 0, List.replicate slots 0⟩

/-- `paused`. -/
def FillController.paused (f : FillController) : Bool :=
  f.stopped || f.recovering != 0 || f.pauseHolders != 0

/-- `try_admit_fill`, as a function of what `paused` returned. -/
def FillController.tryAdmitFill (f : FillController) (paused : Bool) : Bool :=
  !(f.enforcing && paused)

/-- `IoRecovery`; its timeout only matters to the clock. -/
structure IoRecovery where
  /-- The attempts in recovery. -/
  pending : ℕ
  /-- `stop` was called. -/
  stopped : Bool
  deriving DecidableEq, Repr

/-- `is_recovering`. -/
def IoRecovery.isRecovering (r : IoRecovery) : Bool := r.pending != 0

/-- What background attempts share: the runtime's recovery state, and its fill controller if the
options enable one. -/
structure BackgroundIo where
  /-- `io_recovery`. -/
  ioRecovery : IoRecovery
  /-- `fill_control`. -/
  fillControl : Option FillController
  deriving DecidableEq, Repr

namespace BackgroundIo

/-- A change of the recovery counter. -/
def setPending (s : BackgroundIo) (pending : ℕ) : BackgroundIo :=
  { s with ioRecovery := { s.ioRecovery with pending } }

@[simp] lemma setPending_stopped (s : BackgroundIo) (pending : ℕ) :
    (s.setPending pending).ioRecovery.stopped = s.ioRecovery.stopped := rfl

@[simp] lemma setPending_fillControl (s : BackgroundIo) (pending : ℕ) :
    (s.setPending pending).fillControl = s.fillControl := rfl

/-- A change of the fill controller. -/
def mapFill (s : BackgroundIo) (f : FillController → FillController) : BackgroundIo :=
  { s with fillControl := s.fillControl.map f }

/-- A change of the controller changes the controller. -/
lemma mapFill_some {s : BackgroundIo} {f : FillController} (hf : s.fillControl = some f)
    (change : FillController → FillController) : (s.mapFill change).fillControl = some (change f) :=
  congrArg (Option.map change) hf

/-- `hold_pause`. -/
def holdPause (s : BackgroundIo) : BackgroundIo :=
  s.mapFill fun f => { f with pauseHolders := Word.wrappingSucc 64 f.pauseHolders }

/-- `release_pause`. -/
def releasePause (s : BackgroundIo) : BackgroundIo :=
  s.mapFill fun f => { f with pauseHolders := Word.wrappingPred 64 f.pauseHolders }

/-- `set_recovering(true)`. -/
def raiseRecovering (s : BackgroundIo) : BackgroundIo :=
  s.mapFill fun f => { f with recovering := Word.wrappingSucc 64 f.recovering }

end BackgroundIo

/-! ## Attempts -/

/-- `IoObservation`. -/
structure IoObservation where
  /-- The slot that it occupies. -/
  index : ℕ
  /-- `finish` was called. -/
  succeeded : Bool
  /-- It holds fills back. -/
  slow : Bool
  deriving DecidableEq, Repr

/-- `BackgroundIoAttempt`, without its clock readings. -/
structure BackgroundIoAttempt where
  /-- It has entered recovery. -/
  recovering : Bool
  /-- It was found slow. -/
  slow : Bool
  /-- Its observation, if it has a slot. -/
  observation : Option IoObservation
  deriving DecidableEq, Repr

/-- `BackgroundIoAttempt::new`. -/
def BackgroundIoAttempt.new : BackgroundIoAttempt := ⟨false, false, none⟩

/-- `note_slow` of an observation. -/
def IoObservation.noteSlow (s : BackgroundIo) (o : IoObservation) : BackgroundIo × IoObservation :=
  if o.slow then (s, o) else (s.holdPause, { o with slow := true })

/-- `clear_slow` of an observation. -/
def IoObservation.clearSlow (s : BackgroundIo) (o : IoObservation) :
    BackgroundIo × IoObservation :=
  if o.slow then (s.releasePause, { o with slow := false }) else (s, o)

/-- `note_slow`. -/
def BackgroundIoAttempt.noteSlow (s : BackgroundIo) (a : BackgroundIoAttempt) :
    BackgroundIo × BackgroundIoAttempt :=
  if a.slow then (s, a)
  else match a.observation with
    | none => (s, { a with slow := true })
    | some o => ((o.noteSlow s).1, { a with slow := true, observation := some (o.noteSlow s).2 })

/-- `clear_slow`. -/
def BackgroundIoAttempt.clearSlow (s : BackgroundIo) (a : BackgroundIoAttempt) :
    BackgroundIo × BackgroundIoAttempt :=
  if !a.slow then (s, a)
  else match a.observation with
    | none => (s, { a with slow := false })
    | some o => ((o.clearSlow s).1, { a with slow := false, observation := some (o.clearSlow s).2 })

/-- What comes after the drop of an observation. -/
inductive AfterDrop
  /-- `start` goes on with its new observation. -/
  | resume (a : BackgroundIoAttempt)
  /-- `finish` goes on with the counters. -/
  | finish (recovering : Bool)
  /-- The attempt was dropped without success. -/
  | fail (recovering : Bool)
  deriving DecidableEq, Repr

/-- Where a thread stands. -/
inductive BackgroundThread
  /-- An attempt, between two calls. -/
  | attempt (a : BackgroundIoAttempt)
  /-- `observe_io`, before it tries a slot. -/
  | observing (a : BackgroundIoAttempt) (index : ℕ)
  /-- An observation is dropped, before its slot is cleared. -/
  | dropping (o : IoObservation) (next : AfterDrop)
  /-- A slow observation is dropped, before `release_pause`. -/
  | releasing (next : AfterDrop)
  /-- `next_deadline` of an attempt that enters recovery, before `set_recovering(true)`. -/
  | raising (a : BackgroundIoAttempt)
  /-- The same before the recovery counter is raised. -/
  | entering (a : BackgroundIoAttempt)
  /-- `finish` of an attempt in recovery, before the recovery counter is lowered. -/
  | finishing
  /-- The same in `set_recovering(false)`, before the load. -/
  | lowering
  /-- The same with the value loaded. -/
  | lowered (holds : ℕ)
  /-- The attempt has finished successfully. -/
  | finished
  /-- The attempt has failed. -/
  | failed (recovering : Bool)
  /-- `stop_fill_and_recovery`, before it stops the recovery. -/
  | stopping
  /-- The same before it stops the controller. -/
  | stoppingFill
  /-- The same after both. -/
  | stopped
  /-- A foreground fill, before it asks the recovery. -/
  | admitting
  /-- The same before `paused` reads the stop flag. -/
  | admittingFill
  /-- The same before `paused` reads the recovering counter. -/
  | admittingRecovering
  /-- The same before `paused` reads the pause counter. -/
  | admittingHolders
  /-- The fill was admitted or rejected. -/
  | decided (admitted : Bool)
  deriving DecidableEq, Repr

/-- Where a thread goes on after the drop of an observation. -/
def AfterDrop.thread : AfterDrop → BackgroundThread
  | .resume a => .attempt a
  | .finish true => .finishing
  | .finish false => .finished
  | .fail recovering => .failed recovering

/-- The drop of what an attempt observes. -/
def dropObservation (observation : Option IoObservation) (next : AfterDrop) : BackgroundThread :=
  match observation with
  | none => next.thread
  | some o => .dropping o next

/-- The atomic accesses of a thread. -/
inductive BackgroundAct :
    BackgroundIo → BackgroundThread → BackgroundIo → BackgroundThread → Prop
  -- `start`, which observes the request if there is a controller with a free slot
  | startUnobserved (s : BackgroundIo) (a : BackgroundIoAttempt) (h : s.fillControl = none) :
      BackgroundAct s (.attempt a) s (.attempt a)
  | start (s : BackgroundIo) (a : BackgroundIoAttempt) (h : s.fillControl.isSome) :
      BackgroundAct s (.attempt a) s (.observing a 0)
  | slotTaken (s : BackgroundIo) (a : BackgroundIoAttempt) (f : FillController) (index n : ℕ)
      (hf : s.fillControl = some f) (h : f.slots[index]? = some (n + 1)) :
      BackgroundAct s (.observing a index) s (.observing a (index + 1))
  | observe (s : BackgroundIo) (a : BackgroundIoAttempt) (f : FillController) (index start : ℕ)
      (hf : s.fillControl = some f) (h : f.slots[index]? = some 0) :
      BackgroundAct s (.observing a index)
        (s.mapFill fun f => { f with slots := f.slots.set index (start + 1) })
        (dropObservation a.observation
          (.resume { a with observation := some ⟨index, false, false⟩ }))
  | unobserved (s : BackgroundIo) (a : BackgroundIoAttempt) (f : FillController) (index : ℕ)
      (hf : s.fillControl = some f) (h : f.slots[index]? = none) :
      BackgroundAct s (.observing a index) s
        (dropObservation a.observation (.resume { a with observation := none }))
  -- `note_slow` and `clear_slow`
  | noteSlow (s : BackgroundIo) (a : BackgroundIoAttempt) :
      BackgroundAct s (.attempt a) (a.noteSlow s).1 (.attempt (a.noteSlow s).2)
  | clearSlow (s : BackgroundIo) (a : BackgroundIoAttempt) :
      BackgroundAct s (.attempt a) (a.clearSlow s).1 (.attempt (a.clearSlow s).2)
  -- `next_deadline`, of which the clock decides whether it gives up
  | deadlineExpired (s : BackgroundIo) (a : BackgroundIoAttempt) :
      BackgroundAct s (.attempt a) s (.attempt a)
  | deadlineAgain (s : BackgroundIo) (a : BackgroundIoAttempt)
      (hrunning : s.ioRecovery.stopped = false) (h : a.recovering = true) :
      BackgroundAct s (.attempt a) s (.attempt a)
  | deadline (s : BackgroundIo) (a : BackgroundIoAttempt)
      (hrunning : s.ioRecovery.stopped = false) (h : a.recovering = false) :
      BackgroundAct s (.attempt a) s (.raising a)
  | raise (s : BackgroundIo) (a : BackgroundIoAttempt) :
      BackgroundAct s (.raising a) s.raiseRecovering (.entering a)
  | enter (s : BackgroundIo) (a : BackgroundIoAttempt) :
      BackgroundAct s (.entering a)
        (s.setPending (Word.wrappingSucc 64 s.ioRecovery.pending))
        (.attempt { a with recovering := true })
  -- `finish`, and the drop of an attempt that fails
  | finish (s : BackgroundIo) (a : BackgroundIoAttempt) :
      BackgroundAct s (.attempt a) s
        (dropObservation (a.observation.map fun o => { o with succeeded := true })
          (.finish a.recovering))
  | fail (s : BackgroundIo) (a : BackgroundIoAttempt) :
      BackgroundAct s (.attempt a) s (dropObservation a.observation (.fail a.recovering))
  | clearSlot (s : BackgroundIo) (o : IoObservation) (next : AfterDrop) :
      BackgroundAct s (.dropping o next)
        (s.mapFill fun f => { f with slots := f.slots.set o.index 0 })
        (if o.slow then .releasing next else next.thread)
  | release (s : BackgroundIo) (next : AfterDrop) :
      BackgroundAct s (.releasing next) s.releasePause next.thread
  | lowerPending (s : BackgroundIo) :
      BackgroundAct s .finishing (s.setPending (Word.wrappingPred 64 s.ioRecovery.pending))
        .lowering
  | lowerUncontrolled (s : BackgroundIo) (h : s.fillControl = none) :
      BackgroundAct s .lowering s .finished
  | loadZero (s : BackgroundIo) (f : FillController) (hf : s.fillControl = some f)
      (h : f.recovering = 0) : BackgroundAct s .lowering s .finished
  | load (s : BackgroundIo) (f : FillController) (hf : s.fillControl = some f)
      (h : f.recovering ≠ 0) : BackgroundAct s .lowering s (.lowered f.recovering)
  | exchange (s : BackgroundIo) (f : FillController) (hf : s.fillControl = some f) :
      BackgroundAct s (.lowered f.recovering)
        (s.mapFill fun f => { f with recovering := f.recovering - 1 }) .finished
  | exchangeFailed (s : BackgroundIo) (f : FillController) (holds : ℕ)
      (hf : s.fillControl = some f) (h : f.recovering ≠ holds) :
      BackgroundAct s (.lowered holds) s .lowering
  -- `stop_fill_and_recovery`
  | stopRecovery (s : BackgroundIo) :
      BackgroundAct s .stopping { s with ioRecovery := { s.ioRecovery with stopped := true } }
        .stoppingFill
  | stopFill (s : BackgroundIo) :
      BackgroundAct s .stoppingFill (s.mapFill fun f => { f with stopped := true }) .stopped
  -- the admission of a foreground fill: `is_recovering`, then the three loads of `paused`
  | admitRecovering (s : BackgroundIo) (h : s.ioRecovery.isRecovering = true) :
      BackgroundAct s .admitting s (.decided false)
  | admitNotRecovering (s : BackgroundIo) (h : s.ioRecovery.isRecovering = false) :
      BackgroundAct s .admitting s .admittingFill
  | admitUncontrolled (s : BackgroundIo) (h : s.fillControl = none) :
      BackgroundAct s .admittingFill s (.decided true)
  | admitStopped (s : BackgroundIo) (f : FillController) (hf : s.fillControl = some f)
      (h : f.stopped = true) :
      BackgroundAct s .admittingFill s (.decided (f.tryAdmitFill true))
  | admitRunning (s : BackgroundIo) (f : FillController) (hf : s.fillControl = some f)
      (h : f.stopped = false) :
      BackgroundAct s .admittingFill s .admittingRecovering
  | admitFenced (s : BackgroundIo) (f : FillController) (hf : s.fillControl = some f)
      (h : f.recovering ≠ 0) :
      BackgroundAct s .admittingRecovering s (.decided (f.tryAdmitFill true))
  | admitUnfenced (s : BackgroundIo) (f : FillController) (hf : s.fillControl = some f)
      (h : f.recovering = 0) :
      BackgroundAct s .admittingRecovering s .admittingHolders
  | admitHolders (s : BackgroundIo) (f : FillController) (hf : s.fillControl = some f) :
      BackgroundAct s .admittingHolders s
        (.decided (f.tryAdmitFill (f.pauseHolders != 0)))

/-- Background attempts, stops and admission checks, any number of each. -/
def backgroundProgram : Program BackgroundIo BackgroundThread where
  start t := t = .attempt .new ∨ t = .stopping ∨ t = .admitting
  act _ := BackgroundAct

/-- A runtime before its first background attempt: with a controller of some number of slots, or
without one. -/
def BackgroundIo.new (fillControl : Option (Bool × ℕ)) : BackgroundIo :=
  ⟨⟨0, false⟩, fillControl.map fun p => .new p.1 p.2⟩

/-- States that some interleaving reaches. -/
def BackgroundReachable (fillControl : Option (Bool × ℕ)) (c : Pool BackgroundIo BackgroundThread) :
    Prop :=
  Reachable backgroundProgram (.new fillControl) c

/-! ## Who holds a counter up -/

/-- The attempt's observation is slow. -/
def BackgroundIoAttempt.observedSlow (a : BackgroundIoAttempt) : Bool :=
  a.observation.any (·.slow)

/-- The attempt that goes on after a drop has entered recovery. -/
def AfterDrop.unresolved : AfterDrop → Bool
  | .resume a => a.recovering
  | .finish recovering | .fail recovering => recovering

namespace BackgroundThread

/-- The attempt has entered recovery and has not finished successfully: it is running, it is
finishing, or it has failed. -/
def unresolved : BackgroundThread → Bool
  | .attempt a | .observing a _ => a.recovering
  | .dropping _ next | .releasing next => next.unresolved
  | .finishing | .lowering | .lowered _ => true
  | .failed recovering => recovering
  | _ => false

/-- The attempt has raised the controller's counter and not yet the recovery's. -/
def halfEntered : BackgroundThread → Bool
  | .entering _ => true
  | _ => false

/-- The attempt has lowered the recovery's counter and not yet the controller's. -/
def halfFinished : BackgroundThread → Bool
  | .lowering | .lowered _ => true
  | _ => false

/-- The attempt is counted by `pending`. -/
def holdsPending : BackgroundThread → Bool
  | .attempt a | .observing a _ => a.recovering
  | .dropping _ next | .releasing next => next.unresolved
  | .finishing => true
  | .failed recovering => recovering
  | _ => false

/-- The attempt is counted by `recovering`. -/
def holdsRecovering : BackgroundThread → Bool
  | .attempt a | .observing a _ => a.recovering
  | .dropping _ next | .releasing next => next.unresolved
  | .entering _ | .finishing | .lowering | .lowered _ => true
  | .failed recovering => recovering
  | _ => false

/-- The thread has a slow observation. -/
def holdsPause : BackgroundThread → Bool
  | .attempt a | .observing a _ | .raising a | .entering a => a.observedSlow
  | .dropping o _ => o.slow
  | .releasing _ => true
  | _ => false

/-- An observation that replaces another one is new. -/
def observesFresh : BackgroundThread → Bool
  | .dropping _ (.resume a) | .releasing (.resume a) => !a.observedSlow
  | _ => true

end BackgroundThread

/-- An attempt that is in the middle of neither update is counted by both counters if it is in
recovery. -/
lemma BackgroundThread.holds_eq_unresolved {t : BackgroundThread} (he : t.halfEntered = false)
    (hf : t.halfFinished = false) :
    t.holdsPending = t.unresolved ∧ t.holdsRecovering = t.unresolved := by
  cases t <;> first | exact ⟨rfl, rfl⟩ | exact Bool.noConfusion he | exact Bool.noConfusion hf

/-- What follows a drop is counted as the drop is. -/
lemma AfterDrop.thread_holds (next : AfterDrop) :
    next.thread.holdsPending = next.unresolved ∧ next.thread.holdsRecovering = next.unresolved := by
  rcases next with _ | (_ | _) | _ <;> exact ⟨rfl, rfl⟩

/-- The drop of an observation is counted as what follows it. -/
lemma dropObservation_holds (o : Option IoObservation) (next : AfterDrop) :
    (dropObservation o next).holdsPending = next.unresolved ∧
      (dropObservation o next).holdsRecovering = next.unresolved := by
  cases o with
  | none => exact next.thread_holds
  | some o => exact ⟨rfl, rfl⟩

section Actions

variable {s s' : BackgroundIo} {t t' : BackgroundThread}

/-- Slowness has nothing to do with recovery. -/
lemma BackgroundIoAttempt.noteSlow_recovering (a : BackgroundIoAttempt) :
    (a.noteSlow s).2.recovering = a.recovering ∧ (a.noteSlow s).1.ioRecovery = s.ioRecovery := by
  unfold BackgroundIoAttempt.noteSlow IoObservation.noteSlow
  split_ifs
  · exact ⟨rfl, rfl⟩
  · split
    · exact ⟨rfl, rfl⟩
    · split_ifs <;> exact ⟨rfl, rfl⟩

/-- Slowness has nothing to do with recovery. -/
lemma BackgroundIoAttempt.clearSlow_recovering (a : BackgroundIoAttempt) :
    (a.clearSlow s).2.recovering = a.recovering ∧ (a.clearSlow s).1.ioRecovery = s.ioRecovery := by
  unfold BackgroundIoAttempt.clearSlow IoObservation.clearSlow
  split_ifs
  · exact ⟨rfl, rfl⟩
  · split
    · exact ⟨rfl, rfl⟩
    · split_ifs <;> exact ⟨rfl, rfl⟩

/-- The recovery's counter follows the attempts in recovery. -/
lemma BackgroundAct.pending (ha : BackgroundAct s t s' t') :
    Pool.CounterAct 64 BackgroundThread.holdsPending t t' s.ioRecovery.pending
      s'.ioRecovery.pending := by
  cases ha with
  | observe a f index start hf h => exact .inl ⟨(dropObservation_holds _ _).1, rfl⟩
  | unobserved a f index hf h => exact .inl ⟨(dropObservation_holds _ _).1, rfl⟩
  | noteSlow a =>
    exact .inl ⟨a.noteSlow_recovering.1, congrArg IoRecovery.pending a.noteSlow_recovering.2⟩
  | clearSlow a =>
    exact .inl ⟨a.clearSlow_recovering.1, congrArg IoRecovery.pending a.clearSlow_recovering.2⟩
  | deadline a hrunning h => exact .inl ⟨h.symm, rfl⟩
  | enter a => exact .inr (.inl ⟨rfl, rfl, fun h => Word.wrappingSucc_of_lt h⟩)
  | finish a => exact .inl ⟨(dropObservation_holds _ _).1, rfl⟩
  | fail a => exact .inl ⟨(dropObservation_holds _ _).1, rfl⟩
  | clearSlot o next =>
    refine .inl ⟨?_, rfl⟩
    split_ifs
    · rfl
    · exact next.thread_holds.1
  | release next => exact .inl ⟨next.thread_holds.1, rfl⟩
  | lowerPending =>
    exact .inr (.inr ⟨rfl, rfl, fun hpos hlt => Word.wrappingPred_add_one hpos hlt⟩)
  | _ => exact .inl ⟨rfl, rfl⟩

/-- The thread that goes on after a drop holds no pause. -/
lemma AfterDrop.thread_holdsPause {o : IoObservation} {next : AfterDrop}
    (h : (BackgroundThread.dropping o next).observesFresh = true) :
    next.thread.holdsPause = false := by
  rcases next with a | (_ | _) | _
  · exact Bool.not_eq_true' _ ▸ h
  · rfl
  · rfl
  · rfl

/-- An observation that is dropped holds the pause that it held. -/
lemma dropObservation_holdsPause {observation : Option IoObservation} {next : AfterDrop}
    (h : ∀ o, (BackgroundThread.dropping o next).observesFresh = true) :
    (dropObservation observation next).holdsPause = observation.any (·.slow) ∧
      (dropObservation observation next).observesFresh = true := by
  cases observation with
  | none =>
    refine ⟨AfterDrop.thread_holdsPause (h ⟨0, false, false⟩), ?_⟩
    rcases next with _ | (_ | _) | _ <;> rfl
  | some o => exact ⟨rfl, h o⟩

/-- Observations that replace others stay new until they are resumed with. -/
lemma BackgroundAct.observesFresh (ha : BackgroundAct s t s' t') (h : t.observesFresh = true) :
    t'.observesFresh = true := by
  cases ha with
  | observe a f index start hf hslot => exact (dropObservation_holdsPause fun _ => rfl).2
  | unobserved a f index hf hslot => exact (dropObservation_holdsPause fun _ => rfl).2
  | finish a => exact (dropObservation_holdsPause fun _ => rfl).2
  | fail a => exact (dropObservation_holdsPause fun _ => rfl).2
  | clearSlot o next =>
    split_ifs
    · cases next <;> exact h
    · rcases next with _ | (_ | _) | _ <;> rfl
  | release next => rcases next with _ | (_ | _) | _ <;> rfl
  | _ => rfl

/-- What an action does to the controller: both of its counters follow the threads that hold them
up, and it does not start again. -/
structure FillAct (t t' : BackgroundThread) (f f' : FillController) : Prop where
  /-- The mode is a constant. -/
  enforcing : f'.enforcing = f.enforcing
  /-- A stop is not taken back. -/
  stopped : f.stopped = true → f'.stopped = true
  /-- The attempts in recovery. -/
  recovering :
    Pool.CounterAct 64 BackgroundThread.holdsRecovering t t' f.recovering f'.recovering
  /-- The slow observations. -/
  pauseHolders :
    Pool.CounterAct 64 BackgroundThread.holdsPause t t' f.pauseHolders f'.pauseHolders

/-- `note_slow` holds the pause once. -/
lemma BackgroundIoAttempt.noteSlow_fill {f : FillController} (a : BackgroundIoAttempt)
    (hf : s.fillControl = some f) :
    ∃ f', (a.noteSlow s).1.fillControl = some f' ∧
      FillAct (.attempt a) (.attempt (a.noteSlow s).2) f f' := by
  have hsame : ∀ a', a'.recovering = a.recovering → a'.observedSlow = a.observedSlow →
      FillAct (.attempt a) (.attempt a') f f := fun a' hr hs =>
    ⟨rfl, id, .inl ⟨hr, rfl⟩, .inl ⟨hs, rfl⟩⟩
  unfold BackgroundIoAttempt.noteSlow
  split_ifs with hslow
  · exact ⟨f, hf, hsame a rfl rfl⟩
  · rcases ho : a.observation with _ | o
    · exact ⟨f, hf, hsame _ rfl (by simp [observedSlow, ho])⟩
    · simp only [IoObservation.noteSlow]
      split_ifs with hos
      · exact ⟨f, hf, hsame _ rfl (by simp [observedSlow, ho])⟩
      · refine ⟨_, BackgroundIo.mapFill_some hf _,
          ⟨rfl, id, .inl ⟨rfl, rfl⟩, .inr (.inl ⟨?_, rfl, fun h => ?_⟩)⟩⟩
        · simpa [BackgroundThread.holdsPause, observedSlow, ho] using hos
        · exact Word.wrappingSucc_of_lt h

/-- `clear_slow` releases the pause that the observation holds. -/
lemma BackgroundIoAttempt.clearSlow_fill {f : FillController} (a : BackgroundIoAttempt)
    (hf : s.fillControl = some f) :
    ∃ f', (a.clearSlow s).1.fillControl = some f' ∧
      FillAct (.attempt a) (.attempt (a.clearSlow s).2) f f' := by
  have hsame : ∀ a', a'.recovering = a.recovering → a'.observedSlow = a.observedSlow →
      FillAct (.attempt a) (.attempt a') f f := fun a' hr hs =>
    ⟨rfl, id, .inl ⟨hr, rfl⟩, .inl ⟨hs, rfl⟩⟩
  unfold BackgroundIoAttempt.clearSlow
  split_ifs with hslow
  · exact ⟨f, hf, hsame a rfl rfl⟩
  · rcases ho : a.observation with _ | o
    · exact ⟨f, hf, hsame _ rfl (by simp [observedSlow, ho])⟩
    · simp only [IoObservation.clearSlow]
      split_ifs with hos
      · refine ⟨_, BackgroundIo.mapFill_some hf _,
          ⟨rfl, id, .inl ⟨rfl, rfl⟩, .inr (.inr ⟨?_, rfl, fun hpos hlt => ?_⟩)⟩⟩
        · simpa [BackgroundThread.holdsPause, observedSlow, ho] using hos
        · exact Word.wrappingPred_add_one hpos hlt
      · exact ⟨f, hf, hsame _ rfl (by simp [observedSlow, ho])⟩

/-- What every action does to the controller. -/
lemma BackgroundAct.fill {f : FillController} (ha : BackgroundAct s t s' t')
    (hf : s.fillControl = some f) (hfresh : t.observesFresh = true) :
    ∃ f', s'.fillControl = some f' ∧ FillAct t t' f f' := by
  have hsame : ∀ t', t'.holdsRecovering = t.holdsRecovering → t'.holdsPause = t.holdsPause →
      FillAct t t' f f := fun t' hr hp => ⟨rfl, id, .inl ⟨hr, rfl⟩, .inl ⟨hp, rfl⟩⟩
  cases ha with
  | observe a g index start hg h =>
    exact ⟨_, BackgroundIo.mapFill_some hf _, rfl, id,
      .inl ⟨(dropObservation_holds _ _).2, rfl⟩,
      .inl ⟨(dropObservation_holdsPause fun _ => rfl).1, rfl⟩⟩
  | unobserved a g index hg h =>
    exact ⟨f, hf, hsame _ (dropObservation_holds _ _).2
      (dropObservation_holdsPause fun _ => rfl).1⟩
  | noteSlow a => exact a.noteSlow_fill hf
  | clearSlow a => exact a.clearSlow_fill hf
  | deadline a hrunning h => exact ⟨f, hf, hsame _ h.symm rfl⟩
  | raise a =>
    exact ⟨_, BackgroundIo.mapFill_some hf _, rfl, id,
      .inr (.inl ⟨rfl, rfl, fun h => Word.wrappingSucc_of_lt h⟩), .inl ⟨rfl, rfl⟩⟩
  | finish a =>
    refine ⟨f, hf, hsame _ (dropObservation_holds _ _).2 ?_⟩
    rw [(dropObservation_holdsPause fun _ => rfl).1, Option.any_map]
    rfl
  | fail a =>
    exact ⟨f, hf, hsame _ (dropObservation_holds _ _).2
      (dropObservation_holdsPause fun _ => rfl).1⟩
  | clearSlot o next =>
    refine ⟨_, BackgroundIo.mapFill_some hf _, rfl, id, .inl ⟨?_, rfl⟩, .inl ⟨?_, rfl⟩⟩ <;>
      split_ifs with hslow
    · rfl
    · exact next.thread_holds.2
    · exact hslow.symm
    · rw [AfterDrop.thread_holdsPause hfresh]
      exact (Bool.not_eq_true _ ▸ hslow).symm
  | release next =>
    have hfresh' : (BackgroundThread.dropping ⟨0, false, false⟩ next).observesFresh = true := by
      cases next <;> exact hfresh
    exact ⟨_, BackgroundIo.mapFill_some hf _, rfl, id, .inl ⟨next.thread_holds.2, rfl⟩,
      .inr (.inr ⟨rfl, AfterDrop.thread_holdsPause hfresh',
        fun hpos hlt => Word.wrappingPred_add_one hpos hlt⟩)⟩
  | enter a => exact ⟨f, (s.setPending_fillControl _).trans hf, hsame _ rfl rfl⟩
  | lowerPending => exact ⟨f, (s.setPending_fillControl _).trans hf, hsame _ rfl rfl⟩
  | lowerUncontrolled h => cases h.symm.trans hf
  | loadZero g hg h =>
    obtain rfl := Option.some.inj (hg.symm.trans hf)
    exact ⟨g, hf, rfl, id, .inr (.inr ⟨rfl, rfl, fun hpos => absurd h hpos.ne'⟩), .inl ⟨rfl, rfl⟩⟩
  | exchange g hg =>
    obtain rfl := Option.some.inj (hg.symm.trans hf)
    exact ⟨_, BackgroundIo.mapFill_some hf _, rfl, id,
      .inr (.inr ⟨rfl, rfl, fun hpos _ => Nat.sub_add_cancel hpos⟩), .inl ⟨rfl, rfl⟩⟩
  | stopFill =>
    exact ⟨_, BackgroundIo.mapFill_some hf _, rfl, fun _ => rfl, .inl ⟨rfl, rfl⟩, .inl ⟨rfl, rfl⟩⟩
  | _ => exact ⟨f, hf, hsame _ rfl rfl⟩

/-- A stop of the recovery is not taken back. -/
lemma BackgroundAct.recoveryStopped (ha : BackgroundAct s t s' t')
    (h : s.ioRecovery.stopped = true) : s'.ioRecovery.stopped = true := by
  cases ha with
  | noteSlow a => exact (congrArg IoRecovery.stopped a.noteSlow_recovering.2).trans h
  | clearSlow a => exact (congrArg IoRecovery.stopped a.clearSlow_recovering.2).trans h
  | enter a => exact (s.setPending_stopped _).trans h
  | lowerPending => exact (s.setPending_stopped _).trans h
  | stopRecovery => rfl
  | _ => exact h

/-- Slowness only changes an existing controller. -/
lemma IoObservation.exists_map_slow (o : IoObservation) :
    (∃ change, (o.noteSlow s).1.fillControl = s.fillControl.map change) ∧
      ∃ change, (o.clearSlow s).1.fillControl = s.fillControl.map change := by
  unfold IoObservation.noteSlow IoObservation.clearSlow
  split_ifs
  · exact ⟨⟨id, Option.map_id'.symm⟩, ⟨_, rfl⟩⟩
  · exact ⟨⟨_, rfl⟩, ⟨id, Option.map_id'.symm⟩⟩

/-- Whether there is a controller is settled from the start. -/
lemma BackgroundAct.exists_map (ha : BackgroundAct s t s' t') :
    ∃ change, s'.fillControl = s.fillControl.map change := by
  have hid : ∃ change : FillController → FillController,
      s.fillControl = s.fillControl.map change := ⟨id, Option.map_id'.symm⟩
  cases ha with
  | observe => exact ⟨_, rfl⟩
  | noteSlow a =>
    unfold BackgroundIoAttempt.noteSlow
    split_ifs
    · exact hid
    · split
      · exact hid
      · exact (IoObservation.exists_map_slow _).1
  | clearSlow a =>
    unfold BackgroundIoAttempt.clearSlow
    split_ifs
    · exact hid
    · split
      · exact hid
      · exact (IoObservation.exists_map_slow _).2
  | raise => exact ⟨_, rfl⟩
  | clearSlot => exact ⟨_, rfl⟩
  | release => exact ⟨_, rfl⟩
  | exchange => exact ⟨_, rfl⟩
  | stopFill => exact ⟨_, rfl⟩
  | lowerPending =>
    rw [BackgroundIo.setPending_fillControl]
    exact hid
  | _ => exact hid

/-- An action that leaves a controller has found one. -/
lemma BackgroundAct.fill_of_some {f' : FillController} (ha : BackgroundAct s t s' t')
    (hf' : s'.fillControl = some f') (hfresh : t.observesFresh = true) :
    ∃ f, s.fillControl = some f ∧ FillAct t t' f f' := by
  obtain ⟨change, hmap⟩ := ha.exists_map
  obtain ⟨f, hf, -⟩ := Option.map_eq_some_iff.1 (hmap.symm.trans hf')
  obtain ⟨g, hg, hact⟩ := ha.fill hf hfresh
  obtain rfl := Option.some.inj (hg.symm.trans hf')
  exact ⟨f, hf, hact⟩

/-- A drop does not enter recovery. -/
lemma dropObservation_ne_raising (o : Option IoObservation) (next : AfterDrop)
    (a : BackgroundIoAttempt) : dropObservation o next ≠ .raising a := by
  rcases o with _ | o <;> rcases next with _ | (_ | _) | _ <;>
    simp [dropObservation, AfterDrop.thread]

end Actions

/-! ## Accounting -/

/-- What holds in every reachable state, as long as the threads can be counted with 64 bits. -/
structure FenceInvariant (c : Pool BackgroundIo BackgroundThread) : Prop where
  /-- Observations that replace others are new. -/
  fresh : ∀ i t, c.At i t → t.observesFresh = true
  /-- The recovery counts the attempts in recovery. -/
  pending : c.threads.length < 2 ^ 64 →
    c.shared.ioRecovery.pending = c.count BackgroundThread.holdsPending
  /-- The controller counts them too. -/
  recovering : ∀ f, c.shared.fillControl = some f → c.threads.length < 2 ^ 64 →
    f.recovering = c.count BackgroundThread.holdsRecovering
  /-- The controller counts the slow observations. -/
  pauseHolders : ∀ f, c.shared.fillControl = some f → c.threads.length < 2 ^ 64 →
    f.pauseHolders = c.count BackgroundThread.holdsPause

namespace FenceInvariant

variable {c : Pool BackgroundIo BackgroundThread}

/-- The first state. -/
lemma new (fillControl : Option (Bool × ℕ)) : FenceInvariant ⟨.new fillControl, []⟩ where
  fresh i t hi := by simp [Pool.At] at hi
  pending _ := rfl
  recovering f hf _ := by
    obtain ⟨p, -, rfl⟩ := Option.map_eq_some_iff.1 hf
    rfl
  pauseHolders f hf _ := by
    obtain ⟨p, -, rfl⟩ := Option.map_eq_some_iff.1 hf
    rfl

/-- A new thread holds nothing up. -/
lemma spawn (h : FenceInvariant c) {t : BackgroundThread} (ht : backgroundProgram.start t) :
    FenceInvariant (c.spawn t) := by
  have hcount : ∀ p : BackgroundThread → Bool, p t = false → (c.spawn t).count p = c.count p :=
    fun p hp => by rw [Pool.count_spawn, hp]; rfl
  have hlen : (c.spawn t).threads.length < 2 ^ 64 → c.threads.length < 2 ^ 64 := by
    simp only [Pool.spawn, List.length_append, List.length_singleton]
    omega
  have hnone : t.holdsPending = false ∧ t.holdsRecovering = false ∧ t.holdsPause = false ∧
      t.observesFresh = true := by
    rcases ht with rfl | rfl | rfl <;> exact ⟨rfl, rfl, rfl, rfl⟩
  obtain ⟨hp, hr, hs, hfresh⟩ := hnone
  refine ⟨?_, ?_, ?_, ?_⟩
  · intro i u hi
    rcases Pool.at_spawn.1 hi with hi | ⟨-, rfl⟩
    · exact h.fresh i u hi
    · exact hfresh
  · exact fun hl => (h.pending (hlen hl)).trans (hcount _ hp).symm
  · exact fun f hf hl => (h.recovering f hf (hlen hl)).trans (hcount _ hr).symm
  · exact fun f hf hl => (h.pauseHolders f hf (hlen hl)).trans (hcount _ hs).symm

/-- Every action keeps the counters. -/
lemma act (h : FenceInvariant c) {i : ℕ} {t t' : BackgroundThread} {s' : BackgroundIo}
    (hi : c.At i t) (ha : BackgroundAct c.shared t s' t') : FenceInvariant (c.act i s' t') := by
  have hfresh := h.fresh i t hi
  have hlen : (c.act i s' t').threads.length < 2 ^ 64 → c.threads.length < 2 ^ 64 := by
    simp only [Pool.act, List.length_set]
    exact id
  refine ⟨?_, ?_, ?_, ?_⟩
  · intro j u hj
    rcases (Pool.at_act hi).1 hj with ⟨-, rfl⟩ | ⟨-, hj⟩
    · exact ha.observesFresh hfresh
    · exact h.fresh j u hj
  · exact fun hl => ha.pending.count hi (hlen hl) (h.pending (hlen hl))
  · intro f' hf' hl
    obtain ⟨f, hf, hact⟩ := ha.fill_of_some hf' hfresh
    exact hact.recovering.count hi (hlen hl) (h.recovering f hf (hlen hl))
  · intro f' hf' hl
    obtain ⟨f, hf, hact⟩ := ha.fill_of_some hf' hfresh
    exact hact.pauseHolders.count hi (hlen hl) (h.pauseHolders f hf (hlen hl))

end FenceInvariant

/-- Every reachable state satisfies the invariant. -/
theorem BackgroundReachable.invariant {fillControl : Option (Bool × ℕ)}
    {c : Pool BackgroundIo BackgroundThread} (h : BackgroundReachable fillControl c) :
    FenceInvariant c :=
  Reachable.invariant (.new fillControl) (fun _ _ h ht => h.spawn ht)
    (fun _ _ _ _ _ h hi ha => h.act hi ha) h

/-! ## What is for good -/

section Later

variable {c c' : Pool BackgroundIo BackgroundThread}

/-- A failed attempt stays failed. -/
lemma at_failed {i : ℕ} {recovering : Bool} (hs : Steps backgroundProgram c c')
    (hi : c.At i (.failed recovering)) : c'.At i (.failed recovering) := by
  refine Steps.keeps (I := fun c => c.At i (.failed recovering)) ?_ ?_ hs hi
  · intro c t h _
    exact Pool.at_spawn.2 (.inl h)
  · intro c j t t' s' h hj ha
    refine (Pool.at_act hj).2 (.inr ⟨?_, h⟩)
    rintro rfl
    obtain rfl := h.unique hj
    cases ha

/-- A recovery that was stopped stays so. -/
lemma recoveryStopped_later (hs : Steps backgroundProgram c c')
    (h : c.shared.ioRecovery.stopped = true) : c'.shared.ioRecovery.stopped = true := by
  refine Steps.keeps (I := fun c => c.shared.ioRecovery.stopped = true) ?_ ?_ hs h
  · exact fun _ _ h _ => h
  · exact fun _ _ _ _ _ h _ ha => BackgroundAct.recoveryStopped ha h

/-- A fill that asks a stopped controller is on its way to a rejection, if it was not past the stop
flag before. -/
def BackgroundThread.beforeStopFlag : BackgroundThread → Bool
  | .admittingRecovering | .admittingHolders | .decided true => false
  | _ => true

/-- Asking an enforcing controller that is stopped leads to a rejection. -/
lemma BackgroundAct.beforeStopFlag {s s' : BackgroundIo} {t t' : BackgroundThread}
    {f : FillController} (ha : BackgroundAct s t s' t') (hf : s.fillControl = some f)
    (hstop : f.stopped = true) (henforce : f.enforcing = true) (h : t.beforeStopFlag = true) :
    t'.beforeStopFlag = true := by
  have hnext : ∀ next : AfterDrop, next.thread.beforeStopFlag = true := by
    rintro (_ | (_ | _) | _) <;> rfl
  have hdrop : ∀ o next, (dropObservation o next).beforeStopFlag = true := by
    rintro (_ | _) next
    · exact hnext next
    · rfl
  cases ha with
  | observe => exact hdrop _ _
  | unobserved => exact hdrop _ _
  | finish => exact hdrop _ _
  | fail => exact hdrop _ _
  | clearSlot o next =>
    split_ifs
    · rfl
    · exact hnext next
  | release next => exact hnext next
  | admitUncontrolled hg => cases hg.symm.trans hf
  | admitStopped g hg _ =>
    obtain rfl := Option.some.inj (hg.symm.trans hf)
    simp [FillController.tryAdmitFill, henforce, BackgroundThread.beforeStopFlag]
  | admitRunning g hg hrun =>
    obtain rfl := Option.some.inj (hg.symm.trans hf)
    cases hstop.symm.trans hrun
  | admitFenced => cases h
  | admitUnfenced => cases h
  | admitHolders => cases h
  | _ => rfl

/-- The controller is stopped in the mode `enforcing`, and no thread from `n` on has got past its
stop flag if the mode is to enforce. -/
structure FillStopped (enforcing : Bool) (n : ℕ) (c : Pool BackgroundIo BackgroundThread) :
    Prop where
  /-- The controller. -/
  stopped : ∃ f, c.shared.fillControl = some f ∧ f.stopped = true ∧ f.enforcing = enforcing
  /-- The threads that came later. -/
  before : enforcing = true → ∀ i t, n ≤ i → c.At i t → t.beforeStopFlag = true

/-- A controller that was stopped stays so, and who asks it afterwards does not get past it. -/
lemma FillStopped.later {enforcing : Bool} {n : ℕ} (hs : Steps backgroundProgram c c')
    (hinv : FenceInvariant c) (h : FillStopped enforcing n c) : FillStopped enforcing n c' := by
  refine (Steps.keeps (I := fun c => FenceInvariant c ∧ FillStopped enforcing n c) ?_ ?_ hs
    ⟨hinv, h⟩).2
  · rintro c t ⟨hinv, h⟩ ht
    refine ⟨hinv.spawn ht, h.stopped, fun he i u hn hi => ?_⟩
    rcases Pool.at_spawn.1 hi with hi | ⟨-, rfl⟩
    · exact h.before he i u hn hi
    · rcases ht with rfl | rfl | rfl <;> rfl
  · rintro c i t t' s' ⟨hinv, h⟩ hi ha
    obtain ⟨f, hf, hstop, hmode⟩ := h.stopped
    obtain ⟨f', hf', hact⟩ := BackgroundAct.fill ha hf (hinv.fresh i t hi)
    refine ⟨hinv.act hi ha, ⟨f', hf', hact.stopped hstop, hact.enforcing.trans hmode⟩, ?_⟩
    intro he j u hn hj
    rcases (Pool.at_act hi).1 hj with ⟨rfl, rfl⟩ | ⟨-, hj⟩
    · exact BackgroundAct.beforeStopFlag ha hf hstop (hmode.trans he) (h.before he j t hn hi)
    · exact h.before he j u hn hj

end Later

/-! ## The fence -/

/-- The accounting of the recovery fence in a state. The counters have 64 bits, so what they count
is limited to what 64 bits can count. -/
structure FenceAccounting (c : Pool BackgroundIo BackgroundThread) : Prop where
  /-- `pending` is the number of attempts that have raised and not lowered it. -/
  pending : c.threads.length < 2 ^ 64 →
    c.shared.ioRecovery.pending = c.count BackgroundThread.holdsPending
  /-- `recovering` is the number of attempts that have raised and not lowered it. -/
  recovering : ∀ f, c.shared.fillControl = some f → c.threads.length < 2 ^ 64 →
    f.recovering = c.count BackgroundThread.holdsRecovering
  /-- Both are the number of attempts that entered recovery and have not finished successfully,
  whenever no attempt is between the update of one counter and that of the other. -/
  unresolved : c.threads.length < 2 ^ 64 →
    (∀ i t, c.At i t → t.halfEntered = false ∧ t.halfFinished = false) →
    c.shared.ioRecovery.pending = c.count BackgroundThread.unresolved ∧
      ∀ f, c.shared.fillControl = some f → f.recovering = c.count BackgroundThread.unresolved
  /-- An attempt that has failed in recovery keeps both raised for ever. -/
  failed : ∀ i, c.At i (.failed true) → ∀ c', Steps backgroundProgram c c' →
    c'.threads.length < 2 ^ 64 → c'.shared.ioRecovery.isRecovering = true ∧
      ∀ f, c'.shared.fillControl = some f → f.paused = true
  /-- `pause_holders` is the number of slow observations. -/
  pauseHolders : ∀ f, c.shared.fillControl = some f → c.threads.length < 2 ^ 64 →
    f.pauseHolders = c.count BackgroundThread.holdsPause
  /-- A running controller is paused exactly while there is a slow observation or an attempt in
  recovery. -/
  paused : ∀ f, c.shared.fillControl = some f → c.threads.length < 2 ^ 64 → f.stopped = false →
    (f.paused = true ↔ 0 < c.count BackgroundThread.holdsRecovering ∨
      0 < c.count BackgroundThread.holdsPause)
  /-- A controller that is stopped stays stopped and paused, and rejects who asks from then on if it
  rejects at all. -/
  fillStop : ∀ f, c.shared.fillControl = some f → f.stopped = true →
    ∀ c', Steps backgroundProgram c c' → ∃ f', c'.shared.fillControl = some f' ∧
      f'.stopped = true ∧ f'.paused = true ∧ f'.enforcing = f.enforcing ∧
      (f.enforcing = true → f'.tryAdmitFill f'.paused = false ∧
        ∀ i, c.threads.length ≤ i → ¬ c'.At i (.decided true))
  /-- A recovery that is stopped stays stopped, and no attempt enters it from then on. -/
  recoveryStop : c.shared.ioRecovery.stopped = true → ∀ c', Steps backgroundProgram c c' →
    c'.shared.ioRecovery.stopped = true ∧
      ∀ i a s' t', c'.At i (.attempt a) → BackgroundAct c'.shared (.attempt a) s' t' →
        t' ≠ .raising a

/-- A thread between the two updates apart, both counters count the attempts in recovery. -/
lemma count_holds_eq_unresolved {c : Pool BackgroundIo BackgroundThread}
    (h : ∀ i t, c.At i t → t.halfEntered = false ∧ t.halfFinished = false) :
    c.count BackgroundThread.holdsPending = c.count BackgroundThread.unresolved ∧
      c.count BackgroundThread.holdsRecovering = c.count BackgroundThread.unresolved := by
  have hmem : ∀ t ∈ c.threads, t.holdsPending = t.unresolved ∧
      t.holdsRecovering = t.unresolved := by
    intro t ht
    obtain ⟨i, hi⟩ := List.getElem?_of_mem ht
    exact BackgroundThread.holds_eq_unresolved (h i t hi).1 (h i t hi).2
  exact ⟨List.countP_congr fun t ht => by rw [(hmem t ht).1],
    List.countP_congr fun t ht => by rw [(hmem t ht).2]⟩

/-- Over any interleaving of background attempts, stops and admission checks, the recovery fence
and the pause are accounted for.

**Proof sketch.** The counters are read off the invariant of the state. What is for good is kept by
every step: no action takes a stop back, and a failed attempt has no action. -/
theorem backgroundIo_fence (fillControl : Option (Bool × ℕ))
    (c : Pool BackgroundIo BackgroundThread) (h : BackgroundReachable fillControl c) :
    FenceAccounting c := by
  have hinv := h.invariant
  refine
    { pending := hinv.pending, recovering := hinv.recovering, unresolved := ?_, failed := ?_,
      pauseHolders := hinv.pauseHolders, paused := ?_, fillStop := ?_, recoveryStop := ?_ }
  · intro hlen hrest
    have hcount := count_holds_eq_unresolved hrest
    exact ⟨(hinv.pending hlen).trans hcount.1,
      fun f hf => (hinv.recovering f hf hlen).trans hcount.2⟩
  · intro i hi c' hs hlen
    have hinv' := BackgroundReachable.invariant (h.steps hs)
    have hi' := at_failed hs hi
    have hpending := hinv'.pending hlen
    have hpos : 0 < c'.count BackgroundThread.holdsPending := Pool.count_pos_of_at hi' rfl
    refine ⟨by simp [IoRecovery.isRecovering]; omega, fun f hf => ?_⟩
    have hrecovering := hinv'.recovering f hf hlen
    have hpos' : 0 < c'.count BackgroundThread.holdsRecovering := Pool.count_pos_of_at hi' rfl
    have hne : f.recovering ≠ 0 := by omega
    simp [FillController.paused, hne]
  · intro f hf hlen hrun
    have hrecovering := hinv.recovering f hf hlen
    have hholders := hinv.pauseHolders f hf hlen
    simp only [FillController.paused, hrun, hrecovering, hholders, Bool.false_or,
      Bool.or_eq_true, bne_iff_ne, Nat.pos_iff_ne_zero]
  · intro f hf hstop c' hs
    have hbefore : ∀ i t, c.threads.length ≤ i → ¬ c.At i t := by
      intro i t hle hi
      have hlt := (List.getElem?_eq_some_iff.1 hi).1
      omega
    have hc : FillStopped f.enforcing c.threads.length c :=
      ⟨⟨f, hf, hstop, rfl⟩, fun _ i t hle hi => absurd hi (hbefore i t hle)⟩
    have hlater := hc.later hs hinv
    obtain ⟨f', hf', hstop', hmode⟩ := hlater.stopped
    have hpaused : f'.paused = true := by simp [FillController.paused, hstop']
    refine ⟨f', hf', hstop', hpaused, hmode, fun he => ⟨?_, fun i hle hi => ?_⟩⟩
    · simp [FillController.tryAdmitFill, hpaused, hmode, he]
    · cases hlater.before he i _ hle hi
  · intro hstop c' hs
    have hstop' := recoveryStopped_later hs hstop
    refine ⟨hstop', fun i a s' t' _ ha ht' => ?_⟩
    subst ht'
    generalize ht : BackgroundThread.raising a = u at ha
    cases ha with
    | deadline _ hrun _ => cases hstop'.symm.trans hrun
    | finish => exact dropObservation_ne_raising _ _ _ ht.symm
    | fail => exact dropObservation_ne_raising _ _ _ ht.symm
    | _ => cases ht

/-- A runtime with an enforcing controller of one slot, after an attempt was slow, entered recovery
and failed. -/
def fenceSample : Pool BackgroundIo BackgroundThread :=
  ⟨⟨⟨1, false⟩, some ⟨true, false, 1, 0, [0]⟩⟩, [.failed true]⟩

/-- The run of that attempt. -/
lemma fenceSample_reachable : BackgroundReachable (some (true, 1)) fenceSample := by
  have start : Reachable backgroundProgram (.new (some (true, 1))) ⟨.new (some (true, 1)), []⟩ :=
    .init
  have observing := (start.spawn (t := .attempt .new) (.inl rfl)).act (i := 0) rfl
    (.start _ _ rfl)
  have observed := observing.act (i := 0) rfl (.observe _ _ _ 0 0 rfl rfl)
  have slow := observed.act (i := 0) rfl (.noteSlow _ _)
  have raised := (slow.act (i := 0) rfl (.deadline _ _ rfl rfl)).act (i := 0) rfl (.raise _ _)
  have entered := raised.act (i := 0) rfl (.enter _ _)
  have dropping := entered.act (i := 0) rfl (.fail _ _)
  have released := (dropping.act (i := 0) rfl (.clearSlot _ _ _)).act (i := 0) rfl (.release _ _)
  exact released

/-- The failed attempt of the sample keeps the fence raised and the pause released. -/
theorem backgroundIo_fence_sample :
    FenceAccounting fenceSample ∧ fenceSample.shared.ioRecovery.pending = 1 ∧
      fenceSample.At 0 (.failed true) :=
  ⟨backgroundIo_fence (some (true, 1)) fenceSample fenceSample_reachable, rfl, rfl⟩

end Cache2
