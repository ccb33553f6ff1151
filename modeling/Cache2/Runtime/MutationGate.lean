import Mathlib.Data.Nat.Bitwise
import Mathlib.Data.Finset.Basic
import Cache2.Lib.Interleaving

set_option relaxedAutoImplicit false
set_option autoImplicit false

/-!
# The mutation gate

Every mutation of the cache runs inside a gate: one atomic word holds the number of running
mutations and, in its two top bits, whether a drain or a close keeps new ones out. Those who fence
the gate wait for the mutations that are inside, on a mutex with a condition variable or on a watch
channel, and the last mutation to leave a fenced gate wakes them.

The gate is modelled as threads over the shared word, mutex, wait set and channel version, with one
action for each atomic access. The wait set of the condition variable holds the threads that no
notification has reached; a thread outside it is woken, and any thread may wake without a reason.

## Main definitions

* `Cache2.MutationGate` — the shared state; `Cache2.MutationThread` — where a thread stands.
* `Cache2.MutationAct` — the actions; `Cache2.mutationProgram` — the gate as a program.

## Main results

* `Cache2.MutationGate.GateInvariant` — what every reachable state satisfies.
* `Cache2.mutationGate_safety` — fences keep mutations out, a closed gate stays empty, and no
  waiter is left asleep.
-/

namespace Cache2

open Interleaving

/-! ## The gate's word -/

/-- `MUTATION_DRAINING`: a drain keeps mutations out. -/
def mutationDraining : BitVec 64 := 1#64 <<< 63

/-- `MUTATION_CLOSED`: the gate is closed for good. -/
def mutationClosed : BitVec 64 := 1#64 <<< 62

/-- `MUTATION_FENCED`: either flag. -/
def mutationFenced : BitVec 64 := mutationDraining ||| mutationClosed

/-- `MUTATION_COUNT_MASK`: the bits of the number of running mutations. -/
def mutationCountMask : BitVec 64 := ~~~mutationFenced

/-- `MUTATION_ENTER_ATTEMPTS`. -/
def mutationEnterAttempts : ℕ := 8

/-- The draining flag of a word. -/
def IsDraining (state : BitVec 64) : Prop := state &&& mutationDraining ≠ 0#64

/-- The closed flag of a word. -/
def IsClosed (state : BitVec 64) : Prop := state &&& mutationClosed ≠ 0#64

/-- Either flag of a word. -/
def IsFenced (state : BitVec 64) : Prop := state &&& mutationFenced ≠ 0#64

/-- The number of running mutations in a word. -/
def activeCount (state : BitVec 64) : ℕ := (state &&& mutationCountMask).toNat

instance (state : BitVec 64) : Decidable (IsDraining state) :=
  inferInstanceAs (Decidable (_ ≠ _))

instance (state : BitVec 64) : Decidable (IsClosed state) :=
  inferInstanceAs (Decidable (_ ≠ _))

instance (state : BitVec 64) : Decidable (IsFenced state) :=
  inferInstanceAs (Decidable (_ ≠ _))

/-- The draining flag is bit 63. -/
lemma isDraining_iff (state : BitVec 64) : IsDraining state ↔ state.toNat / 2 ^ 63 % 2 = 1 := by
  rw [IsDraining, Ne, ← BitVec.toNat_inj, BitVec.toNat_and,
    show mutationDraining.toNat = 2 ^ 63 by decide, Nat.and_two_pow,
    Nat.testBit_eq_decide_div_mod_eq]
  simp

/-- The closed flag is bit 62. -/
lemma isClosed_iff (state : BitVec 64) : IsClosed state ↔ state.toNat / 2 ^ 62 % 2 = 1 := by
  rw [IsClosed, Ne, ← BitVec.toNat_inj, BitVec.toNat_and,
    show mutationClosed.toNat = 2 ^ 62 by decide, Nat.and_two_pow,
    Nat.testBit_eq_decide_div_mod_eq]
  simp

/-- The number of running mutations is in the bits below 62. -/
lemma activeCount_eq (state : BitVec 64) : activeCount state = state.toNat % 2 ^ 62 := by
  rw [activeCount, BitVec.toNat_and, show mutationCountMask.toNat = 2 ^ 62 - 1 by decide,
    Nat.and_two_pow_sub_one_eq_mod]

/-- A word is fenced by either flag. -/
lemma isFenced_iff (state : BitVec 64) : IsFenced state ↔ IsDraining state ∨ IsClosed state := by
  rw [IsFenced, IsDraining, IsClosed, mutationFenced, BitVec.and_or_distrib_left, Ne,
    BitVec.or_eq_zero_iff]
  tauto

/-- A flag that was set is there. -/
lemma or_and_self (state flag : BitVec 64) : (state ||| flag) &&& flag = flag := by
  ext i
  simpa using .inr

/-- Setting a flag outside a field leaves the field alone. -/
lemma or_and_of_disjoint {state flag field : BitVec 64} (h : flag &&& field = 0#64) :
    (state ||| flag) &&& field = state &&& field := by
  rw [BitVec.and_or_distrib_right, h, BitVec.or_zero]

/-- Clearing a flag outside a field leaves the field alone. -/
lemma and_not_and_of_disjoint {state flag field : BitVec 64} (h : ~~~flag &&& field = field) :
    (state &&& ~~~flag) &&& field = state &&& field := by
  rw [BitVec.and_assoc, h]

/-- `fetch_or(MUTATION_DRAINING)` sets the draining flag and nothing else. -/
lemma or_draining (state : BitVec 64) :
    IsDraining (state ||| mutationDraining) ∧
      (IsClosed (state ||| mutationDraining) ↔ IsClosed state) ∧
      activeCount (state ||| mutationDraining) = activeCount state := by
  refine ⟨?_, ?_, ?_⟩
  · rw [IsDraining, or_and_self]
    decide
  · rw [IsClosed, IsClosed, or_and_of_disjoint (by decide)]
  · rw [activeCount, activeCount, or_and_of_disjoint (by decide)]

/-- `fetch_or(MUTATION_CLOSED)` sets the closed flag and nothing else. -/
lemma or_closed (state : BitVec 64) :
    IsClosed (state ||| mutationClosed) ∧
      (IsDraining (state ||| mutationClosed) ↔ IsDraining state) ∧
      activeCount (state ||| mutationClosed) = activeCount state := by
  refine ⟨?_, ?_, ?_⟩
  · rw [IsClosed, or_and_self]
    decide
  · rw [IsDraining, IsDraining, or_and_of_disjoint (by decide)]
  · rw [activeCount, activeCount, or_and_of_disjoint (by decide)]

/-- `fetch_and(!MUTATION_DRAINING)` clears the draining flag and nothing else. -/
lemma and_not_draining (state : BitVec 64) :
    ¬ IsDraining (state &&& ~~~mutationDraining) ∧
      (IsClosed (state &&& ~~~mutationDraining) ↔ IsClosed state) ∧
      activeCount (state &&& ~~~mutationDraining) = activeCount state := by
  refine ⟨?_, ?_, ?_⟩
  · rw [IsDraining, BitVec.and_assoc,
      show ~~~mutationDraining &&& mutationDraining = 0#64 by decide, BitVec.and_zero]
    simp
  · rw [IsClosed, IsClosed, and_not_and_of_disjoint (by decide)]
  · rw [activeCount, activeCount, and_not_and_of_disjoint (by decide)]

/-- Entering adds one to the count and does not carry into the flags. -/
lemma add_one {state : BitVec 64} (h : activeCount state ≠ 2 ^ 62 - 1) :
    (IsDraining (state + 1) ↔ IsDraining state) ∧ (IsClosed (state + 1) ↔ IsClosed state) ∧
      activeCount (state + 1) = activeCount state + 1 := by
  have hlt := state.isLt
  simp only [isDraining_iff, isClosed_iff, activeCount_eq, BitVec.toNat_add] at *
  simp only [show (1 : BitVec 64).toNat = 1 from rfl]
  omega

/-- Leaving takes one from the count and does not borrow from the flags. -/
lemma sub_one {state : BitVec 64} (h : 0 < activeCount state) :
    (IsDraining (state - 1) ↔ IsDraining state) ∧ (IsClosed (state - 1) ↔ IsClosed state) ∧
      activeCount (state - 1) + 1 = activeCount state := by
  have hlt := state.isLt
  simp only [isDraining_iff, isClosed_iff, activeCount_eq, BitVec.toNat_sub] at *
  simp only [show (1 : BitVec 64).toNat = 1 from rfl]
  omega

/-! ## Threads and actions -/

/-- What threads share: the word, the mutex with the thread that holds it, the threads that wait on
the condition variable and have not been notified, and the version of the watch channel. -/
structure MutationGate where
  /-- `state`. -/
  state : BitVec 64
  /-- Who holds the mutex `quiescent`. -/
  quiescent : Option ℕ
  /-- Who waits on `quiescent_changed`. -/
  quiescentChanged : Finset ℕ
  /-- How often `async_changed` was sent to. -/
  asyncChanged : ℕ

/-- `MutationGate::new`. -/
def MutationGate.new : MutationGate := ⟨0#64, none, ∅, 0⟩

/-- Who may wait for the gate to become empty: the holder of a drain guard, or who closed it. -/
inductive FenceHolder
  /-- Holds a `MutationDrainGuard`. -/
  | drain
  /-- Has called `start_close`. -/
  | close
  deriving DecidableEq, Repr

/-- Where a thread stands. -/
inductive MutationThread
  /-- `try_enter`, before the first load. -/
  | tryEnter
  /-- `try_enter`, in its loop with the attempts that are left and the word it has seen. -/
  | entering (attempts : ℕ) (observed : BitVec 64)
  /-- `try_enter` returned `None`, or `begin_drain` an error. -/
  | refused
  /-- Holds a `MutationGuard`. -/
  | mutating
  /-- `mutation_finished` of the last mutation in a fenced gate, before it locks. -/
  | finishing
  /-- The same with the mutex, before `notify_all`. -/
  | notifying
  /-- The same with the mutex, after `notify_all`. -/
  | notified
  /-- The same before `send_replace`. -/
  | sending
  /-- The thread's guard is dropped. -/
  | finished
  /-- `begin_drain`, before it sets the flag. -/
  | beginDrain
  /-- `start_close`, before it sets the flag. -/
  | startClose
  /-- The fence is raised and the thread does not wait. -/
  | fencing (holder : FenceHolder)
  /-- `wait_quiescent`, before it locks. -/
  | locking (holder : FenceHolder)
  /-- `wait_quiescent` with the mutex, before it reads the count. -/
  | checking (holder : FenceHolder)
  /-- `wait_quiescent` with the mutex, after it has read a count above zero. -/
  | parking (holder : FenceHolder)
  /-- `wait_quiescent` on the condition variable. -/
  | parked (holder : FenceHolder)
  /-- `wait_quiescent` with the mutex, after it has read the count zero. -/
  | leaving (holder : FenceHolder)
  /-- `wait_quiescent_async`, before it subscribes. -/
  | subscribing (holder : FenceHolder)
  /-- `wait_quiescent_async` with the version it has seen, before it reads the count. -/
  | polling (holder : FenceHolder) (seen : ℕ)
  /-- `wait_quiescent_async` in `changed().await`. -/
  | awaiting (holder : FenceHolder) (seen : ℕ)
  /-- The wait has returned. -/
  | quiescent (holder : FenceHolder)
  deriving DecidableEq, Repr

/-- The fence that a thread holds up. -/
def MutationThread.fence : MutationThread → Option FenceHolder
  | .fencing w | .locking w | .checking w | .parking w | .parked w | .leaving w => some w
  | .subscribing w | .polling w _ | .awaiting w _ | .quiescent w => some w
  | _ => none

/-- The thread holds the mutex. -/
def MutationThread.holdsMutex : MutationThread → Bool
  | .notifying | .notified | .checking _ | .parking _ | .leaving _ => true
  | _ => false

/-- The thread is in the asynchronous wait of a drain, which its caller may drop. -/
def MutationThread.cancellable : MutationThread → Bool
  | .subscribing .drain | .polling .drain _ | .awaiting .drain _ => true
  | _ => false

/-- The atomic accesses of the thread `i`. -/
inductive MutationAct (i : ℕ) :
    MutationGate → MutationThread → MutationGate → MutationThread → Prop
  -- `try_enter`: a load, then at most eight exchanges, each of which may fail for no reason
  | load (g : MutationGate) :
      MutationAct i g .tryEnter g (.entering mutationEnterAttempts g.state)
  | giveUp (g : MutationGate) (observed : BitVec 64) :
      MutationAct i g (.entering 0 observed) g .refused
  | refuse (g : MutationGate) (n : ℕ) (observed : BitVec 64)
      (h : IsFenced observed ∨ observed &&& mutationCountMask = mutationCountMask) :
      MutationAct i g (.entering (n + 1) observed) g .refused
  | enter (g : MutationGate) (n : ℕ) (hfence : ¬ IsFenced g.state)
      (hcount : g.state &&& mutationCountMask ≠ mutationCountMask) :
      MutationAct i g (.entering (n + 1) g.state) { g with state := g.state + 1 } .mutating
  | retry (g : MutationGate) (n : ℕ) (observed : BitVec 64) (hfence : ¬ IsFenced observed)
      (hcount : observed &&& mutationCountMask ≠ mutationCountMask) :
      MutationAct i g (.entering (n + 1) observed) g (.entering n g.state)
  -- `mutation_finished`
  | leave (g : MutationGate) (h : activeCount g.state ≠ 1 ∨ ¬ IsFenced g.state) :
      MutationAct i g .mutating { g with state := g.state - 1 } .finished
  | leaveLast (g : MutationGate) (hlast : activeCount g.state = 1) (hfence : IsFenced g.state) :
      MutationAct i g .mutating { g with state := g.state - 1 } .finishing
  | lockToNotify (g : MutationGate) (hfree : g.quiescent = none) :
      MutationAct i g .finishing { g with quiescent := some i } .notifying
  | notifyAll (g : MutationGate) :
      MutationAct i g .notifying { g with quiescentChanged := ∅ } .notified
  | unlockNotified (g : MutationGate) :
      MutationAct i g .notified { g with quiescent := none } .sending
  | sendReplace (g : MutationGate) :
      MutationAct i g .sending { g with asyncChanged := g.asyncChanged + 1 } .finished
  -- `begin_drain`, `start_close` and the drop of a drain guard
  | drain (g : MutationGate) (hfence : ¬ IsFenced g.state) :
      MutationAct i g .beginDrain { g with state := g.state ||| mutationDraining }
        (.fencing .drain)
  | drainRefused (g : MutationGate) (hfence : IsFenced g.state) :
      MutationAct i g .beginDrain { g with state := g.state ||| mutationDraining } .refused
  | close (g : MutationGate) :
      MutationAct i g .startClose { g with state := g.state ||| mutationClosed } (.fencing .close)
  | release (g : MutationGate) (t : MutationThread)
      (h : t = .fencing .drain ∨ t = .quiescent .drain) :
      MutationAct i g t { g with state := g.state &&& ~~~mutationDraining } .finished
  -- `wait_quiescent`
  | waitQuiescent (g : MutationGate) (w : FenceHolder) :
      MutationAct i g (.fencing w) g (.locking w)
  | lock (g : MutationGate) (w : FenceHolder) (hfree : g.quiescent = none) :
      MutationAct i g (.locking w) { g with quiescent := some i } (.checking w)
  | seeActive (g : MutationGate) (w : FenceHolder) (h : activeCount g.state ≠ 0) :
      MutationAct i g (.checking w) g (.parking w)
  | park (g : MutationGate) (w : FenceHolder) :
      MutationAct i g (.parking w)
        { g with quiescent := none, quiescentChanged := insert i g.quiescentChanged } (.parked w)
  | wake (g : MutationGate) (w : FenceHolder) :
      MutationAct i g (.parked w) { g with quiescentChanged := g.quiescentChanged.erase i }
        (.locking w)
  | seeEmpty (g : MutationGate) (w : FenceHolder) (h : activeCount g.state = 0) :
      MutationAct i g (.checking w) g (.leaving w)
  | unlock (g : MutationGate) (w : FenceHolder) :
      MutationAct i g (.leaving w) { g with quiescent := none } (.quiescent w)
  -- `wait_quiescent_async`, and the drop of its future
  | waitQuiescentAsync (g : MutationGate) (w : FenceHolder) :
      MutationAct i g (.fencing w) g (.subscribing w)
  | subscribe (g : MutationGate) (w : FenceHolder) :
      MutationAct i g (.subscribing w) g (.polling w g.asyncChanged)
  | pollActive (g : MutationGate) (w : FenceHolder) (seen : ℕ) (h : activeCount g.state ≠ 0) :
      MutationAct i g (.polling w seen) g (.awaiting w seen)
  | pollEmpty (g : MutationGate) (w : FenceHolder) (seen : ℕ) (h : activeCount g.state = 0) :
      MutationAct i g (.polling w seen) g (.quiescent w)
  | changed (g : MutationGate) (w : FenceHolder) (seen : ℕ) (h : g.asyncChanged ≠ seen) :
      MutationAct i g (.awaiting w seen) g (.polling w g.asyncChanged)
  | cancel (g : MutationGate) (t : MutationThread) (h : t.cancellable = true) :
      MutationAct i g t g (.fencing .drain)

/-- The gate under any number of mutators, drainers and closers. -/
def mutationProgram : Program MutationGate MutationThread where
  start t := t = .tryEnter ∨ t = .beginDrain ∨ t = .startClose
  act := MutationAct

/-- States of the gate that some interleaving reaches. -/
def GateReachable (c : Pool MutationGate MutationThread) : Prop :=
  Reachable mutationProgram MutationGate.new c

/-! ## The invariant -/

/-- The thread will call `notify_all`. -/
def MutationThread.willNotify : MutationThread → Bool
  | .finishing | .notifying => true
  | _ => false

/-- The thread will call `send_replace`. -/
def MutationThread.willSend : MutationThread → Bool
  | .finishing | .notifying | .notified | .sending => true
  | _ => false

/-- What holds in every reachable state of the gate. -/
structure GateInvariant (c : Pool MutationGate MutationThread) : Prop where
  /-- The count is the number of mutations inside. -/
  count : activeCount c.shared.state = c.count (· == .mutating)
  /-- A drain guard keeps the draining flag set. -/
  draining : ∀ i t, c.At i t → t.fence = some .drain → IsDraining c.shared.state
  /-- A close keeps the closed flag set. -/
  closed : ∀ i t, c.At i t → t.fence = some .close → IsClosed c.shared.state
  /-- There is at most one drain guard. -/
  oneDrain : ∀ i j t u, c.At i t → c.At j u → t.fence = some .drain → u.fence = some .drain → i = j
  /-- The mutex names a thread that holds it. -/
  holder : ∀ i, c.shared.quiescent = some i → ∃ t, c.At i t ∧ t.holdsMutex = true
  /-- A thread that holds the mutex is named by it. -/
  exclusive : ∀ i t, c.At i t → t.holdsMutex = true → c.shared.quiescent = some i
  /-- Nobody has seen a version that is still to come. -/
  seen : ∀ i w n, c.At i (.polling w n) ∨ c.At i (.awaiting w n) → n ≤ c.shared.asyncChanged
  /-- Whose wait has found the gate empty keeps it empty. -/
  empty : ∀ i w, c.At i (.leaving w) ∨ c.At i (.quiescent w) → activeCount c.shared.state = 0
  /-- Nobody waits on the condition variable of an empty gate unless a notifier is on its way. -/
  wake : ∀ i w, c.At i (.parking w) ∨ (c.At i (.parked w) ∧ i ∈ c.shared.quiescentChanged) →
    activeCount c.shared.state = 0 → ∃ j u, c.At j u ∧ u.willNotify = true
  /-- Nobody waits on the channel of an empty gate unless a sender is on its way. -/
  wakeAsync : ∀ i w, c.At i (.awaiting w c.shared.asyncChanged) →
    activeCount c.shared.state = 0 → ∃ j u, c.At j u ∧ u.willSend = true

section Actions

variable {c : Pool MutationGate MutationThread} {i : ℕ} {t t' : MutationThread} {g' : MutationGate}

/-- What an action does to the count: a mutation enters an open gate, or leaves, or the count and
the mutations inside stay as they are. -/
lemma MutationAct.count_cases {g : MutationGate} (ha : MutationAct i g t g' t')
    (hpos : t = .mutating → 0 < activeCount g.state) :
    (t ≠ .mutating ∧ t' = .mutating ∧ ¬ IsFenced g.state ∧
        activeCount g'.state = activeCount g.state + 1) ∨
      (t = .mutating ∧ t' ≠ .mutating ∧ activeCount g'.state + 1 = activeCount g.state ∧
        (activeCount g.state = 1 → IsFenced g.state → t' = .finishing)) ∨
      (t ≠ .mutating ∧ t' ≠ .mutating ∧ activeCount g'.state = activeCount g.state) := by
  cases ha with
  | enter n hfence hcount =>
    refine .inl ⟨by simp, rfl, hfence, (add_one fun h => hcount ?_).2.2⟩
    exact BitVec.eq_of_toNat_eq (h.trans (by decide))
  | leave h =>
    refine .inr (.inl ⟨rfl, by simp, (sub_one (hpos rfl)).2.2, fun hlast hfence => ?_⟩)
    exact absurd hfence (h.resolve_left (not_not_intro hlast))
  | leaveLast hlast hfence =>
    exact .inr (.inl ⟨rfl, by simp, (sub_one (hpos rfl)).2.2, fun _ _ => rfl⟩)
  | drain h => exact .inr (.inr ⟨by simp, by simp, (or_draining _).2.2⟩)
  | drainRefused h => exact .inr (.inr ⟨by simp, by simp, (or_draining _).2.2⟩)
  | close => exact .inr (.inr ⟨by simp, by simp, (or_closed _).2.2⟩)
  | release t h =>
    exact .inr (.inr ⟨by rcases h with rfl | rfl <;> simp, by simp, (and_not_draining _).2.2⟩)
  | cancel t h =>
    refine .inr (.inr ⟨?_, by simp, rfl⟩)
    rintro rfl
    cases h
  | _ => exact .inr (.inr ⟨by simp, by simp, rfl⟩)

/-- No action clears the closed flag. -/
lemma MutationAct.isClosed {g : MutationGate} (ha : MutationAct i g t g' t')
    (hpos : t = .mutating → 0 < activeCount g.state) (h : IsClosed g.state) :
    IsClosed g'.state := by
  cases ha with
  | enter n hfence hcount => exact absurd ((isFenced_iff _).2 (.inr h)) hfence
  | leave _ => exact (sub_one (hpos rfl)).2.1.2 h
  | leaveLast _ _ => exact (sub_one (hpos rfl)).2.1.2 h
  | drain _ => exact (or_draining _).2.1.2 h
  | drainRefused _ => exact (or_draining _).2.1.2 h
  | close => exact (or_closed _).1
  | release t _ => exact (and_not_draining _).2.1.2 h
  | _ => exact h

/-- Only the holder of a drain guard clears the draining flag. -/
lemma MutationAct.isDraining {g : MutationGate} (ha : MutationAct i g t g' t')
    (hpos : t = .mutating → 0 < activeCount g.state) (h : IsDraining g.state) :
    IsDraining g'.state ∨ (t.fence = some .drain ∧ t'.fence = none) := by
  cases ha with
  | enter n hfence hcount => exact absurd ((isFenced_iff _).2 (.inl h)) hfence
  | leave _ => exact .inl ((sub_one (hpos rfl)).1.2 h)
  | leaveLast _ _ => exact .inl ((sub_one (hpos rfl)).1.2 h)
  | drain _ => exact .inl (or_draining _).1
  | drainRefused _ => exact .inl (or_draining _).1
  | close => exact .inl ((or_closed _).2.1.2 h)
  | release t ht => exact .inr ⟨by rcases ht with rfl | rfl <;> rfl, rfl⟩
  | _ => exact .inl h

/-- The wait that may be dropped is that of a drain. -/
lemma MutationThread.fence_of_cancellable (h : t.cancellable = true) : t.fence = some .drain := by
  unfold MutationThread.cancellable at h
  split at h <;> first | rfl | cases h

/-- A thread that comes to hold a fence has raised it. -/
lemma MutationAct.fence {g : MutationGate} {w : FenceHolder} (ha : MutationAct i g t g' t')
    (h : t'.fence = some w) :
    t.fence = some w ∨ (w = .drain ∧ ¬ IsFenced g.state ∧ IsDraining g'.state) ∨
      (w = .close ∧ IsClosed g'.state) := by
  cases ha with
  | drain hfence =>
    cases h
    exact .inr (.inl ⟨rfl, hfence, (or_draining _).1⟩)
  | close =>
    cases h
    exact .inr (.inr ⟨rfl, (or_closed _).1⟩)
  | cancel t ht =>
    cases h
    exact .inl (MutationThread.fence_of_cancellable ht)
  | _ => first | exact .inl h | cases h

/-- What an action does to the mutex: nothing, or the thread takes it or gives it back. -/
lemma MutationAct.mutex_cases {g : MutationGate} (ha : MutationAct i g t g' t') :
    (g'.quiescent = g.quiescent ∧ t'.holdsMutex = t.holdsMutex) ∨
      (g.quiescent = none ∧ g'.quiescent = some i ∧ t'.holdsMutex = true) ∨
      (g'.quiescent = none ∧ t.holdsMutex = true ∧ t'.holdsMutex = false) := by
  cases ha with
  | lockToNotify hfree => exact .inr (.inl ⟨hfree, rfl, rfl⟩)
  | lock w hfree => exact .inr (.inl ⟨hfree, rfl, rfl⟩)
  | unlockNotified => exact .inr (.inr ⟨rfl, rfl, rfl⟩)
  | park w => exact .inr (.inr ⟨rfl, rfl, rfl⟩)
  | unlock w => exact .inr (.inr ⟨rfl, rfl, rfl⟩)
  | release t h =>
    left
    rcases h with rfl | rfl <;> exact ⟨rfl, rfl⟩
  | cancel t h =>
    refine .inl ⟨rfl, ?_⟩
    unfold MutationThread.cancellable at h
    split at h <;> first | rfl | cases h
  | _ => exact .inl ⟨rfl, rfl⟩

/-- The wait set gains nobody but a thread that parks. -/
lemma MutationAct.mem_quiescentChanged {g : MutationGate} {j : ℕ} (ha : MutationAct i g t g' t')
    (hj : j ≠ i) (h : j ∈ g'.quiescentChanged) : j ∈ g.quiescentChanged ∧ t ≠ .notifying := by
  cases ha with
  | notifyAll => simp at h
  | park w => exact ⟨Finset.mem_of_mem_insert_of_ne h hj, by simp⟩
  | wake w => exact ⟨Finset.mem_of_mem_erase h, by simp⟩
  | release t ht => exact ⟨h, by rcases ht with rfl | rfl <;> simp⟩
  | cancel t ht =>
    refine ⟨h, ?_⟩
    rintro rfl
    cases ht
  | _ => exact ⟨h, by simp⟩

/-- Only a sender advances the version of the channel. -/
lemma MutationAct.asyncChanged_cases {g : MutationGate} (ha : MutationAct i g t g' t') :
    (g'.asyncChanged = g.asyncChanged ∧ (t.willSend = true → t'.willSend = true)) ∨
      g'.asyncChanged = g.asyncChanged + 1 := by
  cases ha with
  | sendReplace => exact .inr rfl
  | release t h =>
    left
    rcases h with rfl | rfl <;> exact ⟨rfl, fun h => by cases h⟩
  | cancel t h =>
    refine .inl ⟨rfl, fun hs => ?_⟩
    unfold MutationThread.cancellable at h
    split at h <;> first | cases hs | cases h
  | _ => exact .inl ⟨rfl, fun h => by first | rfl | cases h⟩

/-- A notifier calls `notify_all` before it does anything else. -/
lemma MutationAct.willNotify {g : MutationGate} (ha : MutationAct i g t g' t')
    (h : t.willNotify = true) : t'.willNotify = true ∨ t = .notifying := by
  cases ha with
  | lockToNotify hfree => exact .inl rfl
  | notifyAll => exact .inr rfl
  | release t ht => rcases ht with rfl | rfl <;> cases h
  | cancel t ht =>
    unfold MutationThread.cancellable at ht
    split at ht <;> first | cases h | cases ht
  | _ => cases h

end Actions

/-! ## The invariant holds -/

namespace GateInvariant

variable {c : Pool MutationGate MutationThread} {i : ℕ} {t t' : MutationThread} {g' : MutationGate}

/-- The new gate. -/
lemma new : GateInvariant ⟨MutationGate.new, []⟩ := by
  constructor <;> simp [MutationGate.new, Pool.At, Pool.count, activeCount]

/-- A gate on which somebody waits is fenced. -/
lemma isFenced (h : GateInvariant c) {w : FenceHolder} (hi : c.At i t) (hw : t.fence = some w) :
    IsFenced c.shared.state := by
  rw [isFenced_iff]
  cases w with
  | drain => exact .inl (h.draining i t hi hw)
  | close => exact .inr (h.closed i t hi hw)

/-- A mutation inside is counted. -/
lemma count_pos (h : GateInvariant c) (hi : c.At i t) (ht : t = .mutating) :
    0 < activeCount c.shared.state := by
  rw [h.count]
  exact Pool.count_pos_of_at hi (by simp [ht])

/-- A thread that comes into being holds nothing and waits for nothing. -/
lemma at_spawn (ht : mutationProgram.start t) {j : ℕ} {u : MutationThread}
    (hu : u.fence ≠ none ∨ u.holdsMutex = true ∨ u.willSend = true) :
    (c.spawn t).At j u ↔ c.At j u := by
  rw [Pool.at_spawn]
  refine or_iff_left ?_
  rintro ⟨-, rfl⟩
  rcases ht with rfl | rfl | rfl <;>
    simp [MutationThread.fence, MutationThread.holdsMutex, MutationThread.willSend] at hu

/-- Notifiers are senders. -/
lemma willSend_of_willNotify (h : t.willNotify = true) : t.willSend = true := by
  unfold MutationThread.willNotify at h
  split at h <;> first | rfl | cases h

/-- A thread that comes into being changes nothing. -/
lemma spawn (h : GateInvariant c) (ht : mutationProgram.start t) : GateInvariant (c.spawn t) where
  count := by
    rw [Pool.spawn_shared, Pool.count_spawn, h.count]
    rcases ht with rfl | rfl | rfl <;> rfl
  draining j u hj hu := h.draining j u ((at_spawn ht (.inl (by simp [hu]))).1 hj) hu
  closed j u hj hu := h.closed j u ((at_spawn ht (.inl (by simp [hu]))).1 hj) hu
  oneDrain j k u v hj hk hu hv :=
    h.oneDrain j k u v ((at_spawn ht (.inl (by simp [hu]))).1 hj)
      ((at_spawn ht (.inl (by simp [hv]))).1 hk) hu hv
  holder j hj := by
    obtain ⟨u, hu, hm⟩ := h.holder j hj
    exact ⟨u, (at_spawn ht (.inr (.inl hm))).2 hu, hm⟩
  exclusive j u hj hu := h.exclusive j u ((at_spawn ht (.inr (.inl hu))).1 hj) hu
  seen j w n hj := by
    rw [at_spawn ht (.inl (by simp [MutationThread.fence])),
      at_spawn ht (.inl (by simp [MutationThread.fence]))] at hj
    exact h.seen j w n hj
  empty j w hj := by
    rw [at_spawn ht (.inl (by simp [MutationThread.fence])),
      at_spawn ht (.inl (by simp [MutationThread.fence]))] at hj
    exact h.empty j w hj
  wake j w hj hzero := by
    rw [at_spawn ht (.inl (by simp [MutationThread.fence])),
      at_spawn ht (.inl (by simp [MutationThread.fence]))] at hj
    obtain ⟨k, u, hk, hu⟩ := h.wake j w hj hzero
    exact ⟨k, u, (at_spawn ht (.inr (.inr (willSend_of_willNotify hu)))).2 hk, hu⟩
  wakeAsync j w hj hzero := by
    rw [at_spawn ht (.inl (by simp [MutationThread.fence]))] at hj
    obtain ⟨k, u, hk, hu⟩ := h.wakeAsync j w hj hzero
    exact ⟨k, u, (at_spawn ht (.inr (.inr hu))).2 hk, hu⟩

variable (h : GateInvariant c) (hi : c.At i t) (ha : MutationAct i c.shared t g' t')

include h hi ha

/-- The count stays the number of mutations inside. -/
lemma act_count : activeCount g'.state = (c.act i g' t').count (· == .mutating) := by
  have hcount := h.count
  have hact := Pool.countP_act (· == .mutating) hi g' t'
  simp only [beq_iff_eq] at hact
  rcases ha.count_cases (h.count_pos hi) with ⟨ht, ht', -, hc⟩ | ⟨ht, ht', hc, -⟩ | ⟨ht, ht', hc⟩
  · rw [if_neg ht, if_pos ht'] at hact
    omega
  · rw [if_pos ht, if_neg ht'] at hact
    omega
  · rw [if_neg ht, if_neg ht'] at hact
    omega

/-- A drain guard keeps the draining flag set. -/
lemma act_draining {j : ℕ} {u : MutationThread} (hj : (c.act i g' t').At j u)
    (hu : u.fence = some .drain) : IsDraining g'.state := by
  have hkeep : ∀ k v, c.At k v → v.fence = some .drain → (k = i → t'.fence ≠ none) →
      IsDraining g'.state := by
    intro k v hk hv hne
    rcases ha.isDraining (h.count_pos hi) (h.draining k v hk hv) with hd | ⟨ht, ht'⟩
    · exact hd
    · exact absurd ht' (hne (h.oneDrain k i v t hk hi hv ht))
  rcases (Pool.at_act hi).1 hj with ⟨rfl, rfl⟩ | ⟨hne, hj⟩
  · rcases ha.fence hu with ht | ⟨-, -, hd⟩ | ⟨hw, -⟩
    · exact hkeep j t hi ht fun _ => by simp [hu]
    · exact hd
    · cases hw
  · exact hkeep j u hj hu fun he => absurd he hne

/-- A close keeps the closed flag set. -/
lemma act_closed {j : ℕ} {u : MutationThread} (hj : (c.act i g' t').At j u)
    (hu : u.fence = some .close) : IsClosed g'.state := by
  rcases (Pool.at_act hi).1 hj with ⟨rfl, rfl⟩ | ⟨-, hj⟩
  · rcases ha.fence hu with ht | ⟨hw, -⟩ | ⟨-, hc⟩
    · exact ha.isClosed (h.count_pos hi) (h.closed j t hi ht)
    · cases hw
    · exact hc
  · exact ha.isClosed (h.count_pos hi) (h.closed j u hj hu)

/-- There is at most one drain guard. -/
lemma act_oneDrain {j k : ℕ} {u v : MutationThread} (hj : (c.act i g' t').At j u)
    (hk : (c.act i g' t').At k v) (hu : u.fence = some .drain) (hv : v.fence = some .drain) :
    j = k := by
  have hnew : ∀ l x, l ≠ i → c.At l x → x.fence = some .drain → t'.fence ≠ some .drain := by
    intro l x hne hl hx ht'
    rcases ha.fence ht' with ht | ⟨-, hopen, -⟩ | ⟨hw, -⟩
    · exact hne (h.oneDrain l i x t hl hi hx ht)
    · exact hopen (h.isFenced hl hx)
    · cases hw
  rcases (Pool.at_act hi).1 hj with ⟨hji, hut⟩ | ⟨hji, hold⟩ <;>
    rcases (Pool.at_act hi).1 hk with ⟨hki, hvt⟩ | ⟨hki, hold'⟩
  · exact hji.trans hki.symm
  · exact absurd (hut ▸ hu) (hnew k v hki hold' hv)
  · exact absurd (hvt ▸ hv) (hnew j u hji hold hu)
  · exact h.oneDrain j k u v hold hold' hu hv

/-- The mutex names a thread that holds it. -/
lemma act_holder {j : ℕ} (hj : g'.quiescent = some j) :
    ∃ u, (c.act i g' t').At j u ∧ u.holdsMutex = true := by
  have hself : (c.act i g' t').At i t' := (Pool.at_act hi).2 (.inl ⟨rfl, rfl⟩)
  rcases ha.mutex_cases with ⟨hq, ht⟩ | ⟨-, hq, ht⟩ | ⟨hq, -, -⟩
  · obtain ⟨u, hu, hm⟩ := h.holder j (hq ▸ hj)
    by_cases hji : j = i
    · subst hji
      exact ⟨t', hself, ht.trans (hu.unique hi ▸ hm)⟩
    · exact ⟨u, (Pool.at_act hi).2 (.inr ⟨hji, hu⟩), hm⟩
  · obtain rfl := Option.some.inj (hj.symm.trans hq)
    exact ⟨t', hself, ht⟩
  · cases hj.symm.trans hq

/-- A thread that holds the mutex is named by it. -/
lemma act_exclusive {j : ℕ} {u : MutationThread} (hj : (c.act i g' t').At j u)
    (hu : u.holdsMutex = true) : g'.quiescent = some j := by
  rcases (Pool.at_act hi).1 hj with ⟨rfl, rfl⟩ | ⟨hne, hj⟩
  · rcases ha.mutex_cases with ⟨hq, ht⟩ | ⟨-, hq, -⟩ | ⟨-, -, ht⟩
    · exact hq.trans (h.exclusive j t hi (ht.symm.trans hu))
    · exact hq
    · cases hu.symm.trans ht
  · have hold := h.exclusive j u hj hu
    rcases ha.mutex_cases with ⟨hq, -⟩ | ⟨hfree, -, -⟩ | ⟨-, ht, -⟩
    · exact hq.trans hold
    · cases hold.symm.trans hfree
    · exact absurd (Option.some.inj (hold.symm.trans (h.exclusive i t hi ht))) hne

/-- Nobody has seen a version that is still to come. -/
lemma act_seen {j : ℕ} {w : FenceHolder} {n : ℕ}
    (hj : (c.act i g' t').At j (.polling w n) ∨ (c.act i g' t').At j (.awaiting w n)) :
    n ≤ g'.asyncChanged := by
  have hmono : c.shared.asyncChanged ≤ g'.asyncChanged := by
    rcases ha.asyncChanged_cases with ⟨he, -⟩ | he <;> omega
  rw [Pool.at_act hi, Pool.at_act hi] at hj
  rcases hj with (⟨rfl, rfl⟩ | ⟨-, hj⟩) | (⟨rfl, rfl⟩ | ⟨-, hj⟩)
  · cases ha <;> rfl
  · exact (h.seen j w n (.inl hj)).trans hmono
  · cases ha
    exact h.seen j w n (.inl hi)
  · exact (h.seen j w n (.inr hj)).trans hmono

/-- A fenced gate that is empty stays empty. -/
lemma act_activeCount_eq_zero {w : FenceHolder} {j : ℕ} {u : MutationThread} (hj : c.At j u)
    (hu : u.fence = some w) (hzero : activeCount c.shared.state = 0) :
    activeCount g'.state = 0 := by
  rcases ha.count_cases (h.count_pos hi) with ⟨-, -, hopen, -⟩ | ⟨-, -, hc, -⟩ | ⟨-, -, hc⟩
  · exact absurd (h.isFenced hj hu) hopen
  · omega
  · exact hc.trans hzero

/-- Whose wait has found the gate empty keeps it empty. -/
lemma act_empty {j : ℕ} {w : FenceHolder}
    (hj : (c.act i g' t').At j (.leaving w) ∨ (c.act i g' t').At j (.quiescent w)) :
    activeCount g'.state = 0 := by
  rw [Pool.at_act hi, Pool.at_act hi] at hj
  rcases hj with (⟨rfl, rfl⟩ | ⟨-, hj⟩) | (⟨rfl, rfl⟩ | ⟨-, hj⟩)
  · cases ha with
    | seeEmpty _ hzero => exact hzero
  · exact h.act_activeCount_eq_zero hi ha hj rfl (h.empty j w (.inl hj))
  · cases ha with
    | unlock => exact h.empty j w (.inl hi)
    | pollEmpty _ _ hzero => exact hzero
  · exact h.act_activeCount_eq_zero hi ha hj rfl (h.empty j w (.inr hj))

/-- The last mutation to leave a gate on which somebody waits becomes a notifier. -/
lemma act_finishing {j : ℕ} {u : MutationThread} {w : FenceHolder} (hj : c.At j u)
    (hu : u.fence = some w) (hactive : activeCount c.shared.state ≠ 0)
    (hzero : activeCount g'.state = 0) : (c.act i g' t').At i .finishing := by
  rcases ha.count_cases (h.count_pos hi) with ⟨-, -, -, hc⟩ | ⟨-, -, hc, hlast⟩ | ⟨-, -, hc⟩
  · omega
  · exact (Pool.at_act hi).2 (.inl ⟨rfl, (hlast (by omega) (h.isFenced hj hu)).symm⟩)
  · omega

/-- Nobody waits on the condition variable of an empty gate unless a notifier is on its way.

**Proof sketch.** A thread parks after it has read a count above zero with the mutex held, and a
notifier needs the mutex. So whoever is about to park, or waits, when the last mutation leaves is
still there when that mutation, now a notifier, comes to `notify_all`, after which nobody
is left in the wait set. -/
lemma act_wake {j : ℕ} {w : FenceHolder} (hj : (c.act i g' t').At j (.parking w) ∨
      ((c.act i g' t').At j (.parked w) ∧ j ∈ g'.quiescentChanged))
    (hzero : activeCount g'.state = 0) :
    ∃ k u, (c.act i g' t').At k u ∧ u.willNotify = true := by
  -- a notifier from before the action is still there, or it has just notified everybody
  have hkeep : (∃ k u, c.At k u ∧ u.willNotify = true) → t ≠ .notifying →
      ∃ k u, (c.act i g' t').At k u ∧ u.willNotify = true := by
    rintro ⟨k, u, hk, hu⟩ hne
    by_cases hki : k = i
    · subst hki
      obtain rfl := hk.unique hi
      exact ⟨k, t', (Pool.at_act hi).2 (.inl ⟨rfl, rfl⟩), (ha.willNotify hu).resolve_right hne⟩
    · exact ⟨k, u, (Pool.at_act hi).2 (.inr ⟨hki, hk⟩), hu⟩
  -- another thread that waits was waiting before
  have hother : ∀ u, c.At j u → u.fence = some w → t ≠ .notifying →
      (activeCount c.shared.state = 0 → ∃ k u, c.At k u ∧ u.willNotify = true) →
      ∃ k u, (c.act i g' t').At k u ∧ u.willNotify = true := by
    intro u hju hu hne hold
    by_cases hactive : activeCount c.shared.state = 0
    · exact hkeep (hold hactive) hne
    · exact ⟨i, .finishing, h.act_finishing hi ha hju hu hactive hzero, rfl⟩
  rw [Pool.at_act hi, Pool.at_act hi] at hj
  rcases hj with (⟨rfl, rfl⟩ | ⟨hne, hj⟩) | ⟨⟨rfl, rfl⟩ | ⟨hne, hj⟩, hmem⟩
  · cases ha with
    | seeActive _ hactive => exact absurd hzero hactive
  · refine hother _ hj rfl ?_ (h.wake j w (.inl hj))
    rintro rfl
    have hmutex := (h.exclusive j _ hj rfl).symm.trans (h.exclusive i _ hi rfl)
    exact hne (Option.some.inj hmutex)
  · cases ha with
    | park => exact hkeep (h.wake j w (.inl hi) hzero) (by simp)
  · obtain ⟨hold, hnotifying⟩ := ha.mem_quiescentChanged hne hmem
    exact hother _ hj rfl hnotifying (h.wake j w (.inr ⟨hj, hold⟩))

/-- Nobody waits on the channel of an empty gate unless a sender is on its way. -/
lemma act_wakeAsync {j : ℕ} {w : FenceHolder}
    (hj : (c.act i g' t').At j (.awaiting w g'.asyncChanged))
    (hzero : activeCount g'.state = 0) :
    ∃ k u, (c.act i g' t').At k u ∧ u.willSend = true := by
  rcases (Pool.at_act hi).1 hj with ⟨rfl, rfl⟩ | ⟨-, hold⟩
  · cases ha with
    | pollActive _ _ hactive => exact absurd hzero hactive
  rcases ha.asyncChanged_cases with ⟨hversion, hsend⟩ | hversion
  · rw [hversion] at hold
    by_cases hactive : activeCount c.shared.state = 0
    · obtain ⟨k, u, hk, hu⟩ := h.wakeAsync j w hold hactive
      by_cases hki : k = i
      · subst hki
        obtain rfl := hk.unique hi
        exact ⟨k, t', (Pool.at_act hi).2 (.inl ⟨rfl, rfl⟩), hsend hu⟩
      · exact ⟨k, u, (Pool.at_act hi).2 (.inr ⟨hki, hk⟩), hu⟩
    · exact ⟨i, .finishing, h.act_finishing hi ha hold rfl hactive hzero, rfl⟩
  · have hseen := h.seen j w _ (.inr hold)
    omega

/-- Every action keeps the invariant. -/
lemma act : GateInvariant (c.act i g' t') where
  count := h.act_count hi ha
  draining _ _ := h.act_draining hi ha
  closed _ _ := h.act_closed hi ha
  oneDrain _ _ _ _ := h.act_oneDrain hi ha
  holder _ := h.act_holder hi ha
  exclusive _ _ := h.act_exclusive hi ha
  seen _ _ _ := h.act_seen hi ha
  empty _ _ := h.act_empty hi ha
  wake _ _ := h.act_wake hi ha
  wakeAsync _ _ := h.act_wakeAsync hi ha

end GateInvariant

/-- Every reachable state satisfies the invariant. -/
theorem GateReachable.invariant {c : Pool MutationGate MutationThread} (h : GateReachable c) :
    GateInvariant c :=
  Reachable.invariant .new (fun _ _ h ht => h.spawn ht) (fun _ _ _ _ _ h hi ha => h.act hi ha) h

/-! ## Safety -/

/-- Entering and leaving change neither flag. -/
lemma MutationAct.flags {i : ℕ} {g g' : MutationGate} {t t' : MutationThread}
    (ha : MutationAct i g t g' t') (hpos : t = .mutating → 0 < activeCount g.state)
    (hm : t = .mutating ∨ t' = .mutating) :
    (IsDraining g'.state ↔ IsDraining g.state) ∧ (IsClosed g'.state ↔ IsClosed g.state) := by
  cases ha with
  | enter n hfence hcount =>
    have hne : activeCount g.state ≠ 2 ^ 62 - 1 := fun h =>
      hcount (BitVec.eq_of_toNat_eq (h.trans (by decide)))
    exact ⟨(add_one hne).1, (add_one hne).2.1⟩
  | leave h => exact ⟨(sub_one (hpos rfl)).1, (sub_one (hpos rfl)).2.1⟩
  | leaveLast h h' => exact ⟨(sub_one (hpos rfl)).1, (sub_one (hpos rfl)).2.1⟩
  | release t h => rcases h with rfl | rfl <;> simp at hm
  | cancel t h =>
    rcases hm with rfl | hm
    · cases h
    · cases hm
  | _ => simp at hm

/-- A thread whose wait after a close has returned stays there. -/
lemma at_quiescent_close {c c' : Pool MutationGate MutationThread} {i : ℕ}
    (hs : Steps mutationProgram c c') (hi : c.At i (.quiescent .close)) :
    c'.At i (.quiescent .close) := by
  refine Steps.keeps (I := fun c => c.At i (.quiescent .close)) ?_ ?_ hs hi
  · intro c t h _
    exact Pool.at_spawn.2 (.inl h)
  · intro c j t t' g' h hj ha
    refine (Pool.at_act hj).2 (.inr ⟨?_, h⟩)
    rintro rfl
    obtain rfl := h.unique hj
    cases ha with
    | release _ ht => simp at ht
    | cancel _ ht => cases ht

/-- Safety of the gate in a state of it. -/
structure GateSafety (c : Pool MutationGate MutationThread) : Prop where
  /-- No mutation enters while either flag is set. -/
  fenced : ∀ i t g', c.At i t → MutationAct i c.shared t g' .mutating →
    ¬ IsDraining c.shared.state ∧ ¬ IsClosed c.shared.state
  /-- Once `start_close` and then `wait_quiescent` have returned, the gate is and stays empty. -/
  closedEmpty : ∀ i, c.At i (.quiescent .close) → ∀ c', Steps mutationProgram c c' →
    activeCount c'.shared.state = 0 ∧ c'.count (· == .mutating) = 0
  /-- The drop of a drain guard leaves the closed flag as it is. -/
  releaseClosed : ∀ i t g', c.At i t → t.fence = some .drain →
    MutationAct i c.shared t g' .finished → (IsClosed g'.state ↔ IsClosed c.shared.state)
  /-- Nothing that happens later clears the closed flag. -/
  closedForever : IsClosed c.shared.state → ∀ c', Steps mutationProgram c c' →
    IsClosed c'.shared.state
  /-- The word is the number of mutations inside with the flags above it. -/
  word : c.shared.state.toNat = c.count (· == .mutating) +
    (if IsClosed c.shared.state then 2 ^ 62 else 0) +
    (if IsDraining c.shared.state then 2 ^ 63 else 0)
  /-- That number has its own bits. -/
  countBound : c.count (· == .mutating) < 2 ^ 62
  /-- Entering and leaving do not carry into the flags. -/
  noCarry : ∀ i t g' t', c.At i t → MutationAct i c.shared t g' t' →
    t = .mutating ∨ t' = .mutating →
    (IsDraining g'.state ↔ IsDraining c.shared.state) ∧
      (IsClosed g'.state ↔ IsClosed c.shared.state)
  /-- Nobody is parked at an empty gate unless a thread that will call `notify_all` is on its
  way. -/
  noLostNotify : ∀ i w, c.At i (.parked w) → i ∈ c.shared.quiescentChanged →
    activeCount c.shared.state = 0 → ∃ j u, c.At j u ∧ u.willNotify = true
  /-- Nobody awaits the channel of an empty gate unless a thread that will send is on its way. -/
  noLostSend : ∀ i w, c.At i (.awaiting w c.shared.asyncChanged) →
    activeCount c.shared.state = 0 → ∃ j u, c.At j u ∧ u.willSend = true
  /-- The mutex that a notifier needs is held by a thread that does not wait for anything. -/
  mutexMoves : ∀ i, c.shared.quiescent = some i → ∃ t, c.At i t ∧ t.holdsMutex = true ∧
    ∃ g' t', MutationAct i c.shared t g' t'

/-- A thread with the mutex can act. -/
lemma MutationThread.exists_act (i : ℕ) (g : MutationGate) {t : MutationThread}
    (h : t.holdsMutex = true) : ∃ g' t', MutationAct i g t g' t' := by
  unfold MutationThread.holdsMutex at h
  split at h
  · exact ⟨_, _, .notifyAll g⟩
  · exact ⟨_, _, .unlockNotified g⟩
  · next w =>
    by_cases hzero : activeCount g.state = 0
    · exact ⟨_, _, .seeEmpty g w hzero⟩
    · exact ⟨_, _, .seeActive g w hzero⟩
  · next w => exact ⟨_, _, .park g w⟩
  · next w => exact ⟨_, _, .unlock g w⟩
  · cases h

/-- Over any interleaving of mutators, drainers and closers the gate is safe.

**Proof sketch.** All of it is read off the invariant of the state, and, for what holds from then
on, off the invariant of every later state. -/
theorem mutationGate_safety (c : Pool MutationGate MutationThread) (h : GateReachable c) :
    GateSafety c := by
  have hinv := h.invariant
  refine
    { fenced := ?_, closedEmpty := ?_, releaseClosed := ?_, closedForever := ?_, word := ?_,
      countBound := ?_, noCarry := ?_, noLostNotify := ?_, noLostSend := hinv.wakeAsync,
      mutexMoves := ?_ }
  · intro i t g' hi ha
    rw [← not_or, ← isFenced_iff]
    cases ha with
    | enter _ hfence _ => exact hfence
  · intro i hi c' hs
    have hinv' := GateReachable.invariant (h.steps hs)
    have hzero := hinv'.empty i _ (.inr (at_quiescent_close hs hi))
    exact ⟨hzero, hinv'.count ▸ hzero⟩
  · intro i t g' hi hf ha
    cases ha with
    | release => exact (and_not_draining _).2.1
    | _ => cases hf
  · intro hclosed c' hs
    refine (Steps.keeps (I := fun c => GateInvariant c ∧ IsClosed c.shared.state) ?_ ?_ hs
      ⟨hinv, hclosed⟩).2
    · exact fun c t hc ht => ⟨hc.1.spawn ht, hc.2⟩
    · exact fun c i t t' g' hc hi ha =>
        ⟨hc.1.act hi ha, MutationAct.isClosed ha (hc.1.count_pos hi) hc.2⟩
  · have hlt := c.shared.state.isLt
    rw [← hinv.count, activeCount_eq]
    simp only [isClosed_iff, isDraining_iff]
    split_ifs <;> omega
  · rw [← hinv.count, activeCount_eq]
    exact Nat.mod_lt _ (by decide)
  · exact fun i t g' t' hi ha hm => ha.flags (hinv.count_pos hi) hm
  · exact fun i w hi hmem => hinv.wake i w (.inr ⟨hi, hmem⟩)
  · intro i hq
    obtain ⟨t, ht, hm⟩ := hinv.holder i hq
    exact ⟨t, ht, hm, MutationThread.exists_act i _ hm⟩

/-- A gate that was closed while a mutation was inside; the closer waits and the mutation has just
left. -/
def gateSample : Pool MutationGate MutationThread :=
  ⟨⟨mutationClosed, none, {1}, 0⟩, [.finishing, .parked .close]⟩

/-- The interleaving that leads to the sample. -/
lemma gateSample_reachable : GateReachable gateSample := by
  have start : Reachable mutationProgram MutationGate.new ⟨MutationGate.new, []⟩ := .init
  have entered := (start.spawn (t := .tryEnter) (.inl rfl)).act (i := 0) rfl (.load _)
  have inside := entered.act (i := 0) rfl (.enter _ 7 (by decide) (by decide))
  have closed := (inside.spawn (t := .startClose) (.inr (.inr rfl))).act (i := 1) rfl (.close _)
  have locked := (closed.act (i := 1) rfl (.waitQuiescent _ .close)).act (i := 1) rfl
    (.lock _ .close rfl)
  have parked := (locked.act (i := 1) rfl (.seeActive _ .close (by decide))).act (i := 1) rfl
    (.park _ .close)
  exact parked.act (i := 0) rfl (.leaveLast _ (by decide) (by decide))

/-- The closer of the sample is parked at an empty gate, and a notifier is on its way. -/
theorem mutationGate_safety_sample :
    GateSafety gateSample ∧ activeCount gateSample.shared.state = 0 ∧
      gateSample.At 1 (.parked .close) :=
  ⟨mutationGate_safety gateSample gateSample_reachable, by decide, rfl⟩

end Cache2
