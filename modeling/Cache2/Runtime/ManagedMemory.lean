import Cache2.Config.Runtime
import Cache2.Lib.Interleaving

set_option relaxedAutoImplicit false
set_option autoImplicit false

/-!
# Managed memory

All memory of a cache is charged to one tracker with a hard limit (`managed_memory.rs`): a fixed
part from the start on, the staging area by a reservation, and every read buffer by its own lease.
A charge is one compare-and-swap, tried at most eight times.

Two things are not up to this code. A weak exchange may fail although it finds the value that it
expects, and the allocator may be out of memory. Both are asked of a `Platform`, one question after
another; what is needed of it is `Platform.Works`.

## Main definitions

* `Cache2.MemoryTracker`, `Cache2.ManagedMemory` — the tracker, and the memory on a platform.
* `Cache2.ManagedMemory.tryReserve`, `Cache2.ManagedMemory.release` — charging and releasing.
* `Cache2.BufferLease.tryFixed`, `Cache2.BufferLease.tryStandalone` — the two kinds of buffers.
* `Cache2.ReadThread`, `Cache2.ReadAct` — a foreground read, one access at a time.

## Main results

* `Cache2.ManagedMemory.tryReserve_ok` — what fits the limit is charged.
* `Cache2.ManagedMemory.tryReadBuffer_ok` — a buffer whose aligned length fits is granted.
* `Cache2.ManagedMemory.tryReadBuffer_steps` — a call is a run of its thread.
* `Cache2.MemoryBalance.of_reachable` — whatever reads do, the tracker has what they hold.
* `Cache2.MemoryBalance.tryReadBuffer_ok` — a read is granted what was left when it is alone.
-/

namespace Cache2

open Interleaving Loop

/-! ## The platform -/

/-- What the processor and the allocator answer, each question having a number. -/
structure Platform where
  /-- Whether a weak exchange fails although the value is the expected one. -/
  exchangeFails : ℕ → Bool
  /-- Whether an allocation succeeds. -/
  allocates : ℕ → Bool

/-- `MAX_ATOMIC_UPDATE_ATTEMPTS`. -/
def maxAtomicUpdateAttempts : ℕ := 8

/-- A platform with enough memory, on which a weak exchange does not fail time after time. -/
structure Platform.Works (platform : Platform) : Prop where
  exchanges : ∀ n, ∃ k < maxAtomicUpdateAttempts, platform.exchangeFails (n + k) = false
  allocates : ∀ n, platform.allocates n = true

/-! ## The tracker -/

/-- `ManagedMemoryLimits`. -/
structure ManagedMemoryLimits where
  memoryLimitBytes : ℕ
  reservedMemoryBytes : ℕ
  deriving DecidableEq, Repr

/-- `ManagedMemoryError`. -/
inductive ManagedMemoryError
  | invalid (message : String)
  | allocation
  deriving DecidableEq, Repr

/-- `managed_memory_io_error`. -/
def managedMemoryIoError : ManagedMemoryError → IoError
  | .invalid message => ioError .invalidInput message
  | .allocation => ioError .outOfMemory "managed memory cannot be allocated"

/-- `MemoryTracker`. -/
structure MemoryTracker where
  limit : ℕ
  current : ℕ
  peak : ℕ
  deriving DecidableEq, Repr

namespace MemoryTracker

/-- `MemoryTracker::new`. -/
def new (limit reserved : ℕ) : MemoryTracker := ⟨limit, reserved, reserved⟩

/-- What a reservation of `bytes` would raise a count of `current` to, if it fits. -/
def next (tracker : MemoryTracker) (current bytes : ℕ) : Option ℕ :=
  (Word.checkedAdd 64 current bytes).filter (· ≤ tracker.limit)

/-- The tracker after a reservation. -/
def charge (tracker : MemoryTracker) (bytes : ℕ) : MemoryTracker :=
  { tracker with
    current := tracker.current + bytes
    peak := max tracker.peak (tracker.current + bytes) }

/-- `release`. -/
def release (tracker : MemoryTracker) (bytes : ℕ) : MemoryTracker :=
  if bytes ≠ 0 then { tracker with current := Word.wrappingSub 64 tracker.current bytes }
  else tracker

/-- A reservation fits when neither the counter nor the limit is exceeded. -/
lemma next_eq_some {tracker : MemoryTracker} {current bytes n : ℕ} :
    tracker.next current bytes = some n ↔
      current + bytes < 2 ^ 64 ∧ current + bytes ≤ tracker.limit ∧ n = current + bytes := by
  rw [next, Option.filter_eq_some_iff, Word.checkedAdd_eq_some, decide_eq_true_eq]
  constructor
  · rintro ⟨⟨hlt, rfl⟩, hle⟩
    exact ⟨hlt, hle, rfl⟩
  · rintro ⟨hlt, hle, rfl⟩
    exact ⟨⟨hlt, rfl⟩, hle⟩

/-- What is released is taken off the count. -/
lemma release_of_le {tracker : MemoryTracker} {bytes : ℕ} (hle : bytes ≤ tracker.current)
    (hlt : tracker.current < 2 ^ 64) :
    tracker.release bytes = { tracker with current := tracker.current - bytes } := by
  unfold release
  split_ifs with h
  · rw [Word.wrappingSub_of_le hle hlt]
  · rw [not_not] at h
    rw [h, Nat.sub_zero]

/-- A release moves bytes off the count, which stays within the limit. -/
lemma release_move {tracker : MemoryTracker} {bytes : ℕ} (hheld : bytes ≤ tracker.current)
    (hlt : tracker.current < 2 ^ 64) (hle : tracker.current ≤ tracker.limit) :
    (tracker.release bytes).limit = tracker.limit ∧
      (tracker.release bytes).current + bytes = tracker.current ∧
      (tracker.release bytes).current ≤ tracker.limit ∧
      (tracker.release bytes).current < 2 ^ 64 := by
  rw [release_of_le hheld hlt]
  exact ⟨rfl, Nat.sub_add_cancel hheld, (Nat.sub_le _ _).trans hle, (Nat.sub_le _ _).trans_lt hlt⟩

end MemoryTracker

/-- `ManagedMemory`, with the number of questions that the platform was asked. -/
structure ManagedMemory where
  memory : MemoryTracker
  asked : ℕ
  deriving DecidableEq, Repr

/-- `BufferOwner`. -/
inductive BufferOwner
  | fixed
  | standalone
  deriving DecidableEq, Repr

/-- `BufferLease`, with the capacity of its buffer and how much of it is initialized. -/
structure BufferLease where
  owner : BufferOwner
  capacity : ℕ
  initialized : ℕ
  deriving DecidableEq, Repr

/-- Computations on the managed memory. -/
abbrev MemoryM (ε : Type) := EStateM ε ManagedMemory

namespace ManagedMemory

variable {ε : Type}

/-- `ManagedMemory::try_new`. -/
def tryNew (limits : ManagedMemoryLimits) : Except ManagedMemoryError ManagedMemory :=
  if limits.memoryLimitBytes < limits.reservedMemoryBytes then
    .error (.invalid "memory limit cannot hold the cache's reserved memory")
  else .ok ⟨.new limits.memoryLimitBytes limits.reservedMemoryBytes, 0⟩

section Accounting

variable (platform : Platform)

/-- `update_peak`. -/
def updatePeak (candidate : ℕ) : MemoryM ε Unit := do
  if (← get).memory.peak < candidate then
    modify fun m => { m with memory.peak := max m.memory.peak candidate }

/-- Asks whether an exchange fails. -/
def askExchange : MemoryM ε Bool := do
  let m ← get
  set { m with asked := m.asked + 1 }
  pure (platform.exchangeFails m.asked)

/-- The loop of `try_reserve`, with the attempts that are left and the count last seen. -/
def tryReserveLoop (bytes : ℕ) : ℕ → ℕ → MemoryM ε Bool
  | 0, _ => pure false
  | attempts + 1, current => do
    match (← get).memory.next current bytes with
    | none => pure false
    | some next => do
      let fails ← askExchange platform
      let m ← get
      if m.memory.current = current ∧ fails = false then do
        set { m with memory.current := next }
        updatePeak next
        pure true
      else tryReserveLoop bytes attempts m.memory.current

/-- `try_reserve`. -/
def tryReserve (bytes : ℕ) : MemoryM ε Bool := do
  tryReserveLoop platform bytes maxAtomicUpdateAttempts (← get).memory.current

/-- `release`. -/
def release (bytes : ℕ) : MemoryM ε Unit :=
  modify fun m => { m with memory := m.memory.release bytes }

/-- `reserve_runtime_memory`: the bytes that dropping the guard releases. -/
def reserveRuntimeMemory (bytes : ℕ) : MemoryM ManagedMemoryError ℕ := do
  if ← tryReserve platform bytes then pure bytes else throw .allocation

/-- Asks for memory. -/
def askAllocator : MemoryM ε Bool := do
  let m ← get
  set { m with asked := m.asked + 1 }
  pure (platform.allocates m.asked)

/-- `allocate_buffer`: the layout must be possible. -/
def allocateBuffer (capacity : ℕ) : MemoryM ε Bool :=
  if isizeMax < Word.alignUp capacity bufferAlignment then pure false
  else askAllocator platform

end Accounting

/-- `align_up`. -/
def alignUp (value alignment : ℕ) : Option ℕ :=
  (Word.checkedAdd 64 value (alignment - 1)).map (· / alignment * alignment)

end ManagedMemory

namespace BufferLease

variable {ε : Type} (platform : Platform)

/-- `try_fixed`. -/
def tryFixed (length : ℕ) : MemoryM ManagedMemoryError BufferLease := do
  if length = 0 ∨ length % bufferAlignment ≠ 0 ∨ isizeMax < length then
    throw (.invalid "fixed buffer size must be a non-zero 4096-byte multiple")
  else if ← ManagedMemory.allocateBuffer platform length then pure ⟨.fixed, length, length⟩
  else throw .allocation

/-- `try_standalone`. -/
def tryStandalone (length : ℕ) : MemoryM ε (Option BufferLease) :=
  (ManagedMemory.alignUp length bufferAlignment).elim (pure none) fun maximum => do
    if maximum = 0 ∨ isizeMax < maximum then pure none
    else if ← ManagedMemory.tryReserve platform maximum then do
      if ← ManagedMemory.allocateBuffer platform maximum then
        pure (some ⟨.standalone, maximum, 0⟩)
      else do
        ManagedMemory.release maximum
        pure none
    else pure none

/-- Dropping a lease. -/
def drop (lease : BufferLease) : MemoryM ε Unit :=
  match lease.owner with
  | .fixed => pure ()
  | .standalone => ManagedMemory.release lease.capacity

end BufferLease

/-- `try_read_buffer`. -/
def ManagedMemory.tryReadBuffer {ε : Type} (platform : Platform) (length : ℕ) :
    MemoryM ε (Option BufferLease) :=
  BufferLease.tryStandalone platform length

/-! ## What a call does -/

namespace ManagedMemory

section Calls

variable {ε : Type} {platform : Platform} {m : ManagedMemory} {bytes length maximum : ℕ}

/-- The peak is raised to the candidate. -/
lemma updatePeak_apply (candidate : ℕ) (m : ManagedMemory) :
    (updatePeak candidate : MemoryM ε Unit) m =
      .ok () { m with memory.peak := max m.memory.peak candidate } := by
  simp only [updatePeak, get_bind]
  split_ifs with h
  · rfl
  · rw [max_eq_left (Nat.le_of_not_lt h)]
    rfl

/-- One more attempt. -/
lemma tryReserveLoop_succ (attempts current : ℕ) (m : ManagedMemory) :
    (tryReserveLoop platform bytes (attempts + 1) current : MemoryM ε Bool) m =
      match m.memory.next current bytes with
      | none => .ok false m
      | some next =>
        if m.memory.current = current ∧ platform.exchangeFails m.asked = false then
          .ok true ⟨⟨m.memory.limit, next, max m.memory.peak next⟩, m.asked + 1⟩
        else
          tryReserveLoop platform bytes attempts m.memory.current ⟨m.memory, m.asked + 1⟩ := by
  rw [tryReserveLoop, get_bind]
  cases m.memory.next current bytes with
  | none => rfl
  | some next =>
    simp only [askExchange, bind_apply, set_apply, pure_apply, get_apply]
    split_ifs with h
    · simp only [bind_apply, set_apply, updatePeak_apply, pure_apply]
    · rfl

/-- What fits is charged, if the platform lets one of the attempts succeed. -/
lemma tryReserveLoop_ok (hlt : m.memory.current + bytes < 2 ^ 64)
    (hle : m.memory.current + bytes ≤ m.memory.limit) : ∀ {attempts asked : ℕ},
    (∃ k < attempts, platform.exchangeFails (asked + k) = false) → ∃ asked',
      (tryReserveLoop platform bytes attempts m.memory.current : MemoryM ε Bool)
        ⟨m.memory, asked⟩ = .ok true ⟨m.memory.charge bytes, asked'⟩ := by
  have hnext := MemoryTracker.next_eq_some.2 ⟨hlt, hle, rfl⟩
  intro attempts
  induction attempts with
  | zero =>
    rintro asked ⟨k, hk, -⟩
    exact absurd hk (Nat.not_lt_zero k)
  | succ attempts ih =>
    rintro asked ⟨k, hk, hfails⟩
    rw [tryReserveLoop_succ, hnext]
    dsimp only
    split_ifs with hfirst
    · exact ⟨asked + 1, rfl⟩
    · -- the exchange that succeeds is a later one
      obtain ⟨k, rfl⟩ : ∃ j, k = j + 1 := by
        refine Nat.exists_eq_succ_of_ne_zero fun hz => hfirst ⟨rfl, ?_⟩
        rwa [hz, Nat.add_zero] at hfails
      exact ih ⟨k, by omega, by rwa [Nat.add_right_comm, Nat.add_assoc]⟩

/-- **Reservations.** On a working platform, what fits the limit is charged. -/
theorem tryReserve_ok (hplatform : platform.Works) (hlt : m.memory.current + bytes < 2 ^ 64)
    (hle : m.memory.current + bytes ≤ m.memory.limit) :
    ∃ asked, (tryReserve platform bytes : MemoryM ε Bool) m =
      .ok true ⟨m.memory.charge bytes, asked⟩ :=
  tryReserveLoop_ok hlt hle (hplatform.exchanges m.asked)

/-- A reservation of the runtime that fits is granted. -/
lemma reserveRuntimeMemory_ok (hplatform : platform.Works)
    (hlt : m.memory.current + bytes < 2 ^ 64) (hle : m.memory.current + bytes ≤ m.memory.limit) :
    ∃ asked, reserveRuntimeMemory platform bytes m = .ok bytes ⟨m.memory.charge bytes, asked⟩ := by
  obtain ⟨asked, hreserve⟩ := tryReserve_ok hplatform hlt hle
  exact ⟨asked, by rw [reserveRuntimeMemory, bind_ok hreserve]; rfl⟩

/-- A working platform has memory. -/
lemma askAllocator_ok (hplatform : platform.Works) (m : ManagedMemory) :
    (askAllocator platform : MemoryM ε Bool) m = .ok true { m with asked := m.asked + 1 } := by
  rw [askAllocator, get_bind, set_bind, hplatform.allocates]
  rfl

/-- A working platform has the memory of a possible layout. -/
lemma allocateBuffer_ok (hplatform : platform.Works) {capacity : ℕ}
    (hle : Word.alignUp capacity bufferAlignment ≤ isizeMax) :
    (allocateBuffer platform capacity : MemoryM ε Bool) m =
      .ok true { m with asked := m.asked + 1 } := by
  rw [allocateBuffer, if_neg (Nat.not_lt.2 hle), askAllocator_ok hplatform]

/-- An aligned length is aligned. -/
lemma alignUp_aligned (h : alignUp length bufferAlignment = some maximum) :
    Word.alignUp maximum bufferAlignment = maximum := by
  rw [alignUp, Option.map_eq_some_iff] at h
  obtain ⟨sum, -, rfl⟩ := h
  simp only [Word.alignUp, bufferAlignment]
  omega

/-- **Read buffers.** On a working platform, a buffer is granted when its aligned length fits. -/
theorem tryReadBuffer_ok (hplatform : platform.Works)
    (hmaximum : alignUp length bufferAlignment = some maximum) (hpos : 0 < maximum)
    (hisize : maximum ≤ isizeMax) (hlt : m.memory.current + maximum < 2 ^ 64)
    (hle : m.memory.current + maximum ≤ m.memory.limit) :
    ∃ asked, (tryReadBuffer platform length : MemoryM ε (Option BufferLease)) m =
      .ok (some ⟨.standalone, maximum, 0⟩) ⟨m.memory.charge maximum, asked⟩ := by
  obtain ⟨asked, hreserve⟩ := tryReserve_ok (ε := ε) hplatform hlt hle
  have hround : Word.alignUp maximum bufferAlignment ≤ isizeMax :=
    (alignUp_aligned hmaximum).trans_le hisize
  have halloc := allocateBuffer_ok (ε := ε) (m := ⟨m.memory.charge maximum, asked⟩) hplatform
    hround
  refine ⟨asked + 1, ?_⟩
  rw [tryReadBuffer, BufferLease.tryStandalone, hmaximum, Option.elim_some, if_neg (by omega),
    bind_ok hreserve, if_pos rfl, bind_ok halloc, if_pos rfl]
  rfl

/-- The aligned length of a length that is not too great. -/
lemma alignUp_eq_some (h : length + 4095 < 2 ^ 64) :
    alignUp length bufferAlignment = some ((length + 4095) / 4096 * 4096) := by
  rw [alignUp, bufferAlignment, Word.checkedAdd_of_lt h, Option.map_some]

end Calls

end ManagedMemory

/-! ## Reads at the same time -/

/-- Where a foreground read stands with its buffer. -/
inductive ReadThread
  /-- `try_read_buffer` is called. -/
  | asking (length : ℕ)
  /-- The next attempt of `try_reserve`, with the count last seen. -/
  | attempt (bytes current attempts : ℕ)
  /-- `update_peak` is called with the new count. -/
  | peaking (bytes next : ℕ)
  /-- The peak is about to be raised. -/
  | raising (bytes next : ℕ)
  | allocating (bytes : ℕ)
  | leased (bytes : ℕ)
  | refused
  | dropped
  deriving DecidableEq, Repr

/-- The next access of a read. A weak exchange may fail whatever it finds, and so may an
allocation. -/
inductive ReadAct (s : MemoryTracker) : ReadThread → MemoryTracker → ReadThread → Prop
  | overflow {length : ℕ} (h : ManagedMemory.alignUp length bufferAlignment = none) :
    ReadAct s (.asking length) s .refused
  | invalid {length maximum : ℕ}
      (h : ManagedMemory.alignUp length bufferAlignment = some maximum)
      (hmaximum : maximum = 0 ∨ isizeMax < maximum) : ReadAct s (.asking length) s .refused
  | load {length maximum : ℕ} (h : ManagedMemory.alignUp length bufferAlignment = some maximum)
      (hmaximum : ¬ (maximum = 0 ∨ isizeMax < maximum)) :
    ReadAct s (.asking length) s (.attempt maximum s.current maxAtomicUpdateAttempts)
  | full {bytes current attempts : ℕ} (h : s.next current bytes = none) :
    ReadAct s (.attempt bytes current (attempts + 1)) s .refused
  | exchanged {bytes next attempts : ℕ} (h : s.next s.current bytes = some next) :
    ReadAct s (.attempt bytes s.current (attempts + 1)) { s with current := next }
      (.peaking bytes next)
  | again {bytes current next attempts : ℕ} (h : s.next current bytes = some next) :
    ReadAct s (.attempt bytes current (attempts + 1)) s (.attempt bytes s.current attempts)
  | exhausted {bytes current : ℕ} : ReadAct s (.attempt bytes current 0) s .refused
  | seen {bytes next : ℕ} (h : next ≤ s.peak) :
    ReadAct s (.peaking bytes next) s (.allocating bytes)
  | exceeds {bytes next : ℕ} (h : s.peak < next) :
    ReadAct s (.peaking bytes next) s (.raising bytes next)
  | raised {bytes next : ℕ} :
    ReadAct s (.raising bytes next) { s with peak := max s.peak next } (.allocating bytes)
  | allocated {bytes : ℕ} : ReadAct s (.allocating bytes) s (.leased bytes)
  | unallocated {bytes : ℕ} : ReadAct s (.allocating bytes) (s.release bytes) .refused
  | drop {bytes : ℕ} : ReadAct s (.leased bytes) (s.release bytes) .dropped

/-- Reads of any number, in any order. -/
def readProgram : Program MemoryTracker ReadThread where
  start t := ∃ length, t = .asking length
  act _ := ReadAct

/-- The bytes that a read has charged and not released. -/
def ReadThread.held : ReadThread → ℕ
  | .peaking bytes _ | .raising bytes _ | .allocating bytes | .leased bytes => bytes
  | _ => 0

/-- **One access.** What an access adds to the count, its read holds afterwards, and what it takes
off, the read has held. -/
lemma ReadAct.move {s s' : MemoryTracker} {t t' : ReadThread} (h : ReadAct s t s' t')
    (hlt : s.current < 2 ^ 64) (hle : s.current ≤ s.limit) (hheld : t.held ≤ s.current) :
    s'.limit = s.limit ∧ s'.current + t.held = s.current + t'.held ∧ s'.current ≤ s.limit ∧
      s'.current < 2 ^ 64 := by
  cases h with
  | exchanged hnext =>
    obtain ⟨hlt', hle', rfl⟩ := MemoryTracker.next_eq_some.1 hnext
    exact ⟨rfl, rfl, hle', hlt'⟩
  | unallocated => exact MemoryTracker.release_move hheld hlt hle
  | drop => exact MemoryTracker.release_move hheld hlt hle
  | _ => exact ⟨rfl, rfl, hle, hlt⟩

/-- The tracker of a pool has what it had at first and what the reads hold, within its limit. -/
structure MemoryBalance (s₀ : MemoryTracker) (c : Pool MemoryTracker ReadThread) : Prop where
  limit_eq : c.shared.limit = s₀.limit
  current_eq : c.shared.current = s₀.current + c.total ReadThread.held
  current_le : c.shared.current ≤ s₀.limit
  current_lt : c.shared.current < 2 ^ 64

/-- What a thread holds is part of what all threads hold. -/
lemma ReadThread.held_le_total {c : Pool MemoryTracker ReadThread} {i : ℕ} {t : ReadThread}
    (hi : c.At i t) : t.held ≤ c.total ReadThread.held :=
  List.le_sum_of_mem (List.mem_map_of_mem (List.mem_of_getElem? hi))

/-- **Reads at the same time.** Whatever reads do, in any order, the tracker has what it had at
first and what they hold, within its limit. -/
theorem MemoryBalance.of_reachable {s₀ : MemoryTracker} {c : Pool MemoryTracker ReadThread}
    (hle : s₀.current ≤ s₀.limit) (hlt : s₀.current < 2 ^ 64) (h : Reachable readProgram s₀ c) :
    MemoryBalance s₀ c := by
  refine h.invariant ⟨rfl, rfl, hle, hlt⟩ ?_ ?_
  · rintro c t hc ⟨length, rfl⟩
    refine ⟨hc.limit_eq, ?_, hc.current_le, hc.current_lt⟩
    rw [Pool.total_spawn]
    exact hc.current_eq
  · intro c i t t' s' hc hi hact
    have hheld := ReadThread.held_le_total hi
    have hcurrent := hc.current_eq
    obtain ⟨hlimit, hmove, hle', hlt'⟩ := hact.move hc.current_lt
      (hc.current_le.trans hc.limit_eq.ge) (by omega)
    have htotal := Pool.total_act ReadThread.held hi s' t'
    refine ⟨hlimit.trans hc.limit_eq, ?_, hle'.trans hc.limit_eq.le, hlt'⟩
    rw [Pool.act_shared]
    omega

/-- **Lone reads.** While no read holds a buffer, a buffer is granted whose pages fit what was left
at first. -/
theorem MemoryBalance.tryReadBuffer_ok {ε : Type} {platform : Platform}
    (hplatform : platform.Works) {s₀ : MemoryTracker} {c : Pool MemoryTracker ReadThread}
    {m : ManagedMemory} {length room : ℕ} (hbalance : MemoryBalance s₀ c)
    (hnone : c.total ReadThread.held = 0) (hm : m.memory = c.shared) (hpos : 0 < length)
    (hpages : (length + 4095) / 4096 * 4096 ≤ room) (hisize : room ≤ isizeMax)
    (hlt : s₀.current + room < 2 ^ 64) (hle : s₀.current + room ≤ s₀.limit) :
    ∃ asked, (ManagedMemory.tryReadBuffer platform length : MemoryM ε (Option BufferLease)) m =
      .ok (some ⟨.standalone, (length + 4095) / 4096 * 4096, 0⟩)
        ⟨m.memory.charge ((length + 4095) / 4096 * 4096), asked⟩ := by
  have hcurrent := hbalance.current_eq
  rw [hnone, Nat.add_zero, ← hm] at hcurrent
  have hlimit := hbalance.limit_eq
  rw [← hm] at hlimit
  refine ManagedMemory.tryReadBuffer_ok hplatform (ManagedMemory.alignUp_eq_some ?_) ?_ ?_ ?_ ?_
  · unfold isizeMax at hisize
    omega
  all_goals omega

/-! ## A call is a run of its thread -/

namespace ManagedMemory

section Runs

variable {ε : Type} {platform : Platform} {c : Pool MemoryTracker ReadThread} {i : ℕ}
  {u : ReadThread} {m m' : ManagedMemory} {bytes length : ℕ}

/-- The attempts of a reservation. -/
lemma tryReserveLoop_steps (hi : c.At i u) {granted : Bool} : ∀ {attempts current : ℕ}
    {m : ManagedMemory},
    Steps readProgram c (c.act i m.memory (.attempt bytes current attempts)) →
    (tryReserveLoop platform bytes attempts current : MemoryM ε Bool) m = .ok granted m' →
    Steps readProgram c
      (c.act i m'.memory (if granted = true then .allocating bytes else .refused)) := by
  intro attempts
  induction attempts with
  | zero =>
    intro current m hsteps hrun
    cases hrun
    exact hsteps.own hi .exhausted
  | succ attempts ih =>
    intro current m hsteps hrun
    rw [tryReserveLoop_succ] at hrun
    cases hnext : m.memory.next current bytes with
    | none =>
      rw [hnext] at hrun
      cases hrun
      exact hsteps.own hi (.full hnext)
    | some next =>
      rw [hnext] at hrun
      dsimp only at hrun
      split_ifs at hrun with hexchange
      · obtain ⟨rfl, -⟩ := hexchange
        cases hrun
        have hsteps := hsteps.own hi (.exchanged hnext)
        rcases Nat.lt_or_ge m.memory.peak next with hpeak | hpeak
        · exact (hsteps.own hi (.exceeds hpeak)).own hi .raised
        · rw [max_eq_left hpeak]
          exact hsteps.own hi (.seen hpeak)
      · exact ih (m := ⟨m.memory, m.asked + 1⟩) (hsteps.own hi (.again hnext)) hrun

/-- **Calls.** A call of `try_read_buffer` while the other threads stand still is a run of its
thread. -/
theorem tryReadBuffer_steps {lease : Option BufferLease} (hi : c.At i (.asking length))
    (hshared : c.shared = m.memory)
    (hrun : (tryReadBuffer platform length : MemoryM ε (Option BufferLease)) m = .ok lease m') :
    Steps readProgram c
      (c.act i m'.memory (lease.elim .refused fun lease => .leased lease.capacity)) := by
  have hsteps : Steps readProgram c (c.act i m.memory (.asking length)) := by
    rw [← hshared, Pool.act_self hi]
    exact Relation.ReflTransGen.refl
  rw [tryReadBuffer, BufferLease.tryStandalone] at hrun
  cases hmaximum : alignUp length bufferAlignment with
  | none =>
    rw [hmaximum] at hrun
    cases hrun
    exact hsteps.own hi (.overflow hmaximum)
  | some maximum =>
    rw [hmaximum, Option.elim_some] at hrun
    split_ifs at hrun with hinvalid
    · cases hrun
      exact hsteps.own hi (.invalid hmaximum hinvalid)
    · obtain ⟨granted, m₁, hreserve, hrun⟩ := bind_eq_ok.1 hrun
      have hsteps := tryReserveLoop_steps hi (hsteps.own hi (.load hmaximum hinvalid)) hreserve
      cases granted with
      | false =>
        cases hrun
        exact hsteps
      | true =>
        obtain ⟨allocated, m₂, halloc, hrun⟩ := bind_eq_ok.1 hrun
        have hmemory : m₂.memory = m₁.memory := by
          rw [allocateBuffer] at halloc
          split_ifs at halloc
          · cases halloc
            rfl
          · cases halloc
            rfl
        cases allocated with
        | false =>
          cases hrun
          rw [← hmemory] at hsteps
          exact hsteps.own hi .unallocated
        | true =>
          cases hrun
          rw [hmemory]
          exact hsteps.own hi .allocated

end Runs

end ManagedMemory

end Cache2
