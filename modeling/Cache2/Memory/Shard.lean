import Cache2.Lib.Loop
import Cache2.Memory.Eviction
import Cache2.Memory.Value

set_option relaxedAutoImplicit false
set_option autoImplicit false

/-!
# A shard of the memory tier

A shard keeps its entries in a fixed array of slots. Free slots are linked through their policy
slots; entries whose hashes have one fingerprint are linked in a chain, which starts at the slot
that the directory names; the eviction policy orders the residents. An admission that finds no room
detaches victims from the policy, transfers their charges to the new entry, and only then removes
them; when it cannot go through with it, it puts them back.

An operation is a computation on the shard and its heap that may panic. The shard's lock is then
poisoned, and no later operation gets in.

## Main definitions

* `Cache2.MemoryShard` with `insert`, `removeSlot` and what they are made of.
* `Cache2.MemoryStore` with `publish`, `delete`, `lookup` and `promote`.
-/

namespace Cache2

open Loop Word

/-! ## Data -/

/-- `MAX_L1_ENTRY_BYTES`. -/
def maxL1EntryBytes : ℕ := 256 * 1024

/-- `MAX_SAME_HASH_ENTRIES`. -/
def maxSameHashEntries : ℕ := 8

/-- `NO_SLOT_INDEX`. -/
def noSlotIndex : ℕ := noPolicySlot

/-- `MAX_EVICTIONS_PER_INSERT`. -/
def maxEvictionsPerInsert : ℕ := 16

/-- `MemoryEntry`. -/
structure MemoryEntry where
  /-- The allocation of the value. -/
  value : ℕ
  /-- The next entry of the chain. -/
  hashNext : ℕ
  deriving DecidableEq, Repr

/-- `DetachedAdmissionEntry`. -/
structure DetachedAdmissionEntry where
  /-- The slot. -/
  index : ℕ
  /-- Its place in the policy. -/
  policy : DetachedPolicy
  /-- The charged bytes. -/
  weight : ℕ
  /-- Whether the charge goes to the new entry. -/
  transfersCharge : Bool
  deriving DecidableEq, Repr

/-- `MemoryShard`, whose budget is in the heap. -/
structure MemoryShard where
  /-- The policy. -/
  eviction : EvictionState
  /-- From fingerprints to the first slots of chains. -/
  directory : FixedPrehashedMap
  /-- The entries. -/
  slots : List (Option MemoryEntry)
  /-- The policy slots, which link the free slots. -/
  policySlots : List PolicySlot
  /-- The first free slot. -/
  freeHead : ℕ
  /-- The number of free slots. -/
  freeCount : ℕ
  /-- The charged bytes of all entries. -/
  residentBytes : ℕ

/-- A shard with its heap. -/
structure ShardState where
  /-- The shard. -/
  shard : MemoryShard
  /-- The heap. -/
  heap : MemoryHeap

/-- Where the source panics. -/
inductive Panic
  /-- `preflighted fixed L1 directory insertion`. -/
  | directoryInsertion
  /-- `exclusive resident value gained an owner`. -/
  | gainedOwner
  /-- A slot that should have an entry has none. -/
  | missingEntry
  deriving DecidableEq, Repr

/-- Operations on a shard. -/
abbrev ShardM := EStateM Panic ShardState

/-- `ChargeResult`. -/
inductive ChargeResult
  | charged (charge : MemoryCharge) (evictions : ℕ) (recycled : Option ℕ)
  | rejected (evictions : ℕ)
  deriving DecidableEq, Repr

/-- `MemoryInsertResult`. -/
structure MemoryInsertResult where
  /-- The slot of the entry. -/
  slot : Option ℕ
  /-- The entries that were evicted. -/
  evictions : ℕ
  deriving DecidableEq, Repr

/-- `bypassed`. -/
def MemoryInsertResult.bypassed : MemoryInsertResult := ⟨none, 0⟩

/-- `rejected`. -/
def MemoryInsertResult.rejected (evictions : ℕ) : MemoryInsertResult := ⟨none, evictions⟩

/-- `inserted`. -/
def MemoryInsertResult.inserted (r : MemoryInsertResult) : Bool := r.slot.isSome

namespace MemoryShard

/-! ## Reading the shard -/

/-- `MemoryShard::new`, for allocations that succeed. -/
def new (capacityBytes maximumEntries : ℕ) (policy : L1EvictionPolicy) : MemoryShard where
  eviction := .new policy capacityBytes maximumEntries
  directory := .tryNew maximumEntries
  slots := List.replicate maximumEntries none
  policySlots := (List.range maximumEntries).map fun index =>
    .newFree (if index + 1 = maximumEntries then noSlotIndex else index + 1)
  freeHead := if maximumEntries = 0 then noSlotIndex else 0
  freeCount := maximumEntries
  residentBytes := 0

/-- The entry of a slot. -/
def entry (s : MemoryShard) (index : ℕ) : Option MemoryEntry := s.slots.getD index none

/-- The loop of `find`, with the steps that are left. -/
def findLoop (s : MemoryShard) (heap : MemoryHeap) (hash : BitVec 64) (key : List UInt8) :
    ℕ → ℕ → Option ℕ
  | 0, _ => none
  | steps + 1, cursor =>
    match s.entry cursor with
    | none => none
    | some entry =>
      if (policySlot s.policySlots cursor).hash = hash ∧ (heap.inner entry.value).key = key then
        some cursor
      else if entry.hashNext = noSlotIndex then none
      else s.findLoop heap hash key steps entry.hashNext

/-- `find`. -/
def find (s : MemoryShard) (heap : MemoryHeap) (hash : BitVec 64) (key : List UInt8) : Option ℕ :=
  (s.directory.get hash).bind (s.findLoop heap hash key maxSameHashEntries)

/-- The loop of `hash_chain_is_full`, with the steps that are left. -/
def chainIsFullLoop (s : MemoryShard) : ℕ → ℕ → Bool
  | 0, _ => true
  | steps + 1, cursor =>
    match s.entry cursor with
    | none => true
    | some entry =>
      if entry.hashNext = noSlotIndex then steps == 0 else s.chainIsFullLoop steps entry.hashNext

/-- `hash_chain_is_full`. -/
def hashChainIsFull (s : MemoryShard) (hash : BitVec 64) : Bool :=
  (s.directory.get hash).elim false (s.chainIsFullLoop maxSameHashEntries)

/-- The loop of `remove_slot_after_policy`, with the steps that are left: the predecessor of a slot
in its chain, if the slot is found. -/
def predecessorLoop (s : MemoryShard) (index : ℕ) : ℕ → ℕ → Option ℕ → Option (Option ℕ)
  | 0, _, _ => none
  | steps + 1, cursor, predecessor =>
    if cursor = index then some predecessor
    else
      match s.entry cursor with
      | none => none
      | some entry =>
        if entry.hashNext = noSlotIndex then none
        else s.predecessorLoop index steps entry.hashNext (some cursor)

end MemoryShard

namespace ShardM

/-! ## Access -/

/-- An access to the heap. -/
def onHeap {α : Type} (f : MemoryHeap → α × MemoryHeap) : ShardM α := do
  let st ← get
  let (a, heap) := f st.heap
  set { st with heap }
  pure a

/-- A change of the heap. -/
def modifyHeap (f : MemoryHeap → MemoryHeap) : ShardM Unit :=
  modify fun st => { st with heap := f st.heap }

/-- A change of the shard. -/
def modifyShard (f : MemoryShard → MemoryShard) : ShardM Unit :=
  modify fun st => { st with shard := f st.shard }

/-- The entry of a slot that should have one. -/
def expectEntry (index : ℕ) : ShardM MemoryEntry := do
  match (← get).shard.entry index with
  | some entry => pure entry
  | none => throw .missingEntry

/-- A value that goes out of scope. -/
def dropOption (value : Option ℕ) : ShardM Unit := modifyHeap fun h => value.elim h h.dropValue

/-- `directory_upsert`. -/
def directoryUpsert (hash : BitVec 64) (head : ℕ) : ShardM (Option ℕ) := do
  match (← get).shard.directory.insert hash head with
  | some (previous, directory) =>
    modifyShard fun s => { s with directory }
    pure previous
  | none => throw .directoryInsertion

/-! ## Removing entries -/

/-- The part of `remove_slot_after_policy` that takes a slot out of its chain. -/
def unlinkFromChain (hash : BitVec 64) (entry : MemoryEntry) : Option ℕ → ShardM Unit
  | some predecessor => do
    let before ← expectEntry predecessor
    modifyShard fun s =>
      { s with slots := s.slots.set predecessor (some { before with hashNext := entry.hashNext }) }
  | none => do
    if entry.hashNext = noSlotIndex then
      modifyShard fun s => { s with directory := (s.directory.remove hash).2 }
    else
      let _ ← directoryUpsert hash entry.hashNext

/-- The part of `remove_slot_after_policy` that puts a slot on the free list. -/
def freeSlot (s : MemoryShard) (index chargedBytes : ℕ) : MemoryShard :=
  { s with
    slots := s.slots.set index none
    residentBytes := s.residentBytes - chargedBytes
    policySlots := s.policySlots.set index (.newFree s.freeHead)
    freeHead := index
    freeCount := s.freeCount + 1 }

/-- `disarm_exclusive_charge` of a value whose charge is transferred. -/
def disarmIf (transferCharge : Bool) (value : ℕ) : ShardM Unit :=
  if transferCharge then do
    match (← get).heap.disarmExclusiveCharge value with
    | some heap => modifyHeap fun _ => heap
    | none => throw .gainedOwner
  else pure ()

/-- `remove_slot_after_policy`. -/
def removeSlotAfterPolicy (index : ℕ) (hash : BitVec 64) (transferCharge : Bool) :
    ShardM (Option ℕ) := do
  let s := (← get).shard
  match (s.directory.get hash).bind fun head =>
      s.predecessorLoop index maxSameHashEntries head none with
  | none => pure none
  | some predecessor =>
    let entry ← expectEntry index
    unlinkFromChain hash entry predecessor
    let chargedBytes := ((← get).heap.inner entry.value).chargedBytes
    disarmIf transferCharge entry.value
    let entry ← expectEntry index
    modifyShard fun s => freeSlot s index chargedBytes
    pure (some entry.value)

/-- `take_slot`. -/
def takeSlot (index : ℕ) : ShardM (Option ℕ) := do
  let s := (← get).shard
  match s.entry index with
  | none => pure none
  | some _ =>
    let hash := (policySlot s.policySlots index).hash
    let (eviction, policySlots) := s.eviction.remove s.policySlots index
    modifyShard fun s => { s with eviction, policySlots }
    removeSlotAfterPolicy index hash false

/-- `remove_slot`. -/
def removeSlot (index : ℕ) : ShardM Unit := do
  let value ← takeSlot index
  dropOption value

/-! ## Admissions -/

/-- `detach_for_admission`. -/
def detachForAdmission (index : ℕ) : ShardM DetachedAdmissionEntry := do
  let entry ← expectEntry index
  let weight := ((← get).heap.inner entry.value).chargedBytes
  let transfersCharge ← onHeap fun h => h.releasesChargeOnRemove entry.value
  let s := (← get).shard
  let (policy, eviction, policySlots) := s.eviction.detachForAdmission s.policySlots index weight
  modifyShard fun s => { s with eviction, policySlots }
  pure ⟨index, policy, weight, transfersCharge⟩

/-- `restore_detached`. -/
def restoreDetached (detached : DetachedAdmissionEntry) : ShardM Unit :=
  modifyShard fun s =>
    let (eviction, policySlots) :=
      s.eviction.restoreForAdmission s.policySlots detached.index detached.policy
    { s with eviction, policySlots }

/-- `commit_detached`. -/
def commitDetached (detached : DetachedAdmissionEntry) (recordEviction : Bool) :
    ShardM (Option ℕ) := do
  let value ← removeSlotAfterPolicy detached.index detached.policy.hash detached.transfersCharge
  modifyShard fun s =>
    if recordEviction then { s with eviction := s.eviction.commitEviction detached.policy } else s
  pure value

/-- Puts detached entries back, in the order given. -/
def restoreAll : List DetachedAdmissionEntry → ShardM Unit
  | [] => pure ()
  | detached :: rest => do
    restoreDetached detached
    restoreAll rest

/-- `restore_admission`: the victims from the last to the first, then the entry to be replaced. -/
def restoreAdmission (replacement : Option DetachedAdmissionEntry)
    (victims : List DetachedAdmissionEntry) : ShardM Unit :=
  restoreAll (victims.reverse ++ replacement.toList)

/-- Whether a slot of the policy can be reclaimed; such slots have entries. Only an admission that
needs bytes asks. -/
def canReclaim (s : MemoryShard) (exclusive : Bool) (heap : MemoryHeap) (index : ℕ) :
    Bool × MemoryHeap :=
  if exclusive then
    match s.entry index with
    | some entry => heap.releasesChargeOnRemove entry.value
    | none => (false, heap)
  else (true, heap)

/-- `select_victim`. -/
def selectVictim (exclusive : Bool) (remaining : ℕ) : ShardM (Option ℕ × ℕ) := do
  let st ← get
  let (victim, eviction, policySlots, remaining, heap) :=
    st.shard.eviction.selectVictim (canReclaim st.shard exclusive) st.shard.policySlots remaining
      st.heap
  set ({ shard := { st.shard with eviction, policySlots }, heap } : ShardState)
  pure (victim, remaining)

/-- The loop of `charge_with_eviction` that selects victims, with the victims that may still be
selected and the scan steps that are left. -/
def selectVictims (required replacementBytes : ℕ) :
    ℕ → ℕ → List DetachedAdmissionEntry → ℕ → ShardM (List DetachedAdmissionEntry × ℕ)
  | room, remaining, victims, releasedBytes => do
    let available ← onHeap MemoryHeap.availableBytes
    if ¬ saturatingAdd 64 replacementBytes releasedBytes < required - available ∨
        remaining = 0 then
      pure (victims, releasedBytes)
    else
      match room with
      | 0 => pure (victims, releasedBytes)
      | room + 1 =>
        match ← selectVictim true remaining with
        | (none, _) => pure (victims, releasedBytes)
        | (some candidate, remaining) =>
          let detached ← detachForAdmission candidate
          selectVictims required replacementBytes room remaining (victims ++ [detached])
            (saturatingAdd 64 releasedBytes detached.weight)

/-- Whether the value to recycle is kept when another one is there. -/
def keepsRecycled (required : ℕ) : Option ℕ → ShardM Bool
  | none => pure false
  | some id => do
    if ((← get).heap.inner id).chargedBytes ≠ required then pure false
    else onHeap fun h => h.releasesChargeOnRemove id

/-- The loop of `charge_with_eviction` that removes the victims and keeps one value to recycle. -/
def commitVictims (required : ℕ) : List DetachedAdmissionEntry → Option ℕ → ShardM (Option ℕ)
  | [], recycled => pure recycled
  | victim :: rest, recycled => do
    let value ← commitDetached victim true
    if ← keepsRecycled required recycled then
      dropOption value
      commitVictims required rest recycled
    else
      dropOption recycled
      commitVictims required rest value

/-- `charge_with_slot_eviction`. -/
def chargeWithSlotEviction (charge : MemoryCharge) : ShardM ChargeResult := do
  match ← selectVictim false maxPolicyScanSteps with
  | (none, _) =>
    modifyHeap fun h => h.dropCharge charge
    pure (.rejected 0)
  | (some candidate, _) =>
    let victim ← detachForAdmission candidate
    let recycled ← commitDetached { victim with transfersCharge := false } true
    pure (.charged charge 1 recycled)

/-- Detaches the entry to be replaced. -/
def detachReplacement : Option ℕ → ShardM (Option DetachedAdmissionEntry)
  | some index => do
    let detached ← detachForAdmission index
    pure (some detached)
  | none => pure none

/-- Removes the entry to be replaced. -/
def commitReplacement : Option DetachedAdmissionEntry → ShardM (Option ℕ)
  | some detached => commitDetached detached false
  | none => pure none

/-- Takes the entry to be replaced out. -/
def takeReplacement : Option ℕ → ShardM (Option ℕ)
  | some index => takeSlot index
  | none => pure none

/-- The part of `charge_with_eviction` that follows when the budget is full. -/
def chargeByTransfer (required : ℕ) (replacement : Option ℕ) : ShardM ChargeResult := do
  let replacement ← detachReplacement replacement
  let replacementBytes :=
    (replacement.filter (·.transfersCharge)).elim 0 DetachedAdmissionEntry.weight
  let (victims, releasedBytes) ←
    selectVictims required replacementBytes maxEvictionsPerInsert maxPolicyScanSteps [] 0
  let released := saturatingAdd 64 replacementBytes releasedBytes
  let available ← onHeap MemoryHeap.availableBytes
  if released < required - available then
    restoreAdmission replacement victims
    pure (.rejected 0)
  else
    match ← onHeap fun h => h.tryTransferCharge released required with
    | .full | .contended =>
      restoreAdmission replacement victims
      pure (.rejected 0)
    | .charged charge =>
      let recycled ← commitReplacement replacement
      let recycled ← commitVictims required victims recycled
      pure (.charged charge victims.length recycled)

/-- `charge_with_eviction`. -/
def chargeWithEviction (required : ℕ) (replacement : Option ℕ) : ShardM ChargeResult := do
  let st ← get
  if st.heap.capacityBytes < required then pure (.rejected 0)
  else
    let needsSlot := replacement.isNone && st.shard.freeHead == noSlotIndex
    match ← onHeap fun h => h.tryCharge required with
    | .charged charge =>
      if needsSlot then chargeWithSlotEviction charge
      else
        let recycled ← takeReplacement replacement
        pure (.charged charge 0 recycled)
    | .contended => pure (.rejected 0)
    | .full => chargeByTransfer required replacement

/-- The part of `insert` that fills the first free slot. -/
def fillSlot (s : MemoryShard) (index : ℕ) (hash : BitVec 64) (entry : MemoryEntry)
    (chargedBytes : ℕ) : MemoryShard :=
  let (eviction, policySlots) := s.eviction.insert s.policySlots index hash chargedBytes
  { s with
    eviction
    freeHead := (policySlot s.policySlots index).freeNext
    freeCount := s.freeCount - 1
    slots := s.slots.set index (some entry)
    residentBytes := saturatingAdd 64 s.residentBytes chargedBytes
    policySlots }

/-- The part of `insert` after the charge. -/
def admitCharged (hash : BitVec 64) (key value : List UInt8) (seqno : BitVec 64) (chargedBytes : ℕ)
    (charge : MemoryCharge) (evictions : ℕ) (recycled : Option ℕ) : ShardM MemoryInsertResult := do
  let index := (← get).shard.freeHead
  if index = noSlotIndex then
    dropOption recycled
    modifyHeap fun h => h.dropCharge charge
    pure (.rejected evictions)
  else
    match ← onHeap fun h => h.tryNew key value seqno charge recycled with
    | none => pure (.rejected evictions)
    | some id =>
      match (← get).shard.directory.insert hash index with
      | none =>
        -- unwinding drops the new value
        dropOption (some id)
        throw .directoryInsertion
      | some (previousHead, directory) =>
        modifyShard fun s => fillSlot { s with directory } index hash
          ⟨id, previousHead.getD noSlotIndex⟩ chargedBytes
        pure ⟨some index, evictions⟩

/-- `insert`. -/
def insert (hash : BitVec 64) (key value : List UInt8) (seqno : BitVec 64) (chargedBytes : ℕ)
    (replacement : Option ℕ) : ShardM MemoryInsertResult := do
  let s := (← get).shard
  if (replacement.isNone ∧ s.hashChainIsFull hash) ∨ ¬ s.directory.canUpsert hash then
    pure .bypassed
  else
    match ← chargeWithEviction chargedBytes replacement with
    | .charged charge evictions recycled =>
      admitCharged hash key value seqno chargedBytes charge evictions recycled
    | .rejected evictions => pure (.rejected evictions)

end ShardM

end Cache2
