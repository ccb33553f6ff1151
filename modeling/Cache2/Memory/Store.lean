import Cache2.Index.Packed
import Cache2.Memory.Admission

set_option relaxedAutoImplicit false
set_option autoImplicit false

/-!
# The memory tier

A store has a number of shards, each behind a lock that operations only try to take. A panic poisons
the lock, and the shard is bypassed from then on. Lookups and promotions return references to
values, which callers retain for as long as they like.

## Main definitions

* `Cache2.MemoryStore` with `publish`, `delete`, `lookup` and `promote`.
* `Cache2.MemoryStore.run` — a sequence of requests.
* `Cache2.MemoryShardStep` — what a request does to a shard.

## Main results

* `Cache2.MemoryStore.shardStep_apply` — every request makes such a step of every shard.
* `Cache2.MemoryStore.panicOf_eq_some` — a panic is one of the operations on shards.
-/

namespace Cache2

open Loop Word

/-! ## Operations on a locked shard -/

namespace ShardM

/-- The sequence number of an entry. -/
def residentSeqno (st : ShardState) (index : ℕ) : Option (BitVec 64) :=
  (st.shard.entry index).map fun entry => (st.heap.inner entry.value).seqno

/-- Removes an entry if there is one. -/
def removeExisting : Option ℕ → ShardM Unit
  | some index => removeSlot index
  | none => pure ()

/-- The part of `publish` under the lock. -/
def publish (hash : BitVec 64) (key value : List UInt8) (seqno : BitVec 64) (chargedBytes : ℕ) :
    ShardM Bool := do
  let st ← get
  let existing := st.shard.find st.heap hash key
  if (existing.bind (residentSeqno st)).any (seqno ≤ ·) then pure true
  else if maxL1EntryBytes < chargedBytes then
    removeExisting existing
    pure false
  else
    let result ← insert hash key value seqno chargedBytes existing
    pure result.inserted

/-- The part of `delete` under the lock. -/
def delete (hash : BitVec 64) (key : List UInt8) (seqno : BitVec 64) : ShardM Bool := do
  let st ← get
  match st.shard.find st.heap hash key with
  | none => pure true
  | some index =>
    if (residentSeqno st index).any (seqno < ·) then pure true
    else
      removeSlot index
      pure true

/-- `record_hit`. -/
def recordHit (index : ℕ) : ShardM Unit :=
  modifyShard fun s => { s with policySlots := s.eviction.recordHit s.policySlots index }

/-- The value of an entry, with a new reference to it. -/
def cloneEntry (index : ℕ) : ShardM ℕ := do
  let entry ← expectEntry index
  modifyHeap fun h => h.retain entry.value
  pure entry.value

/-- The part of `lookup` under the lock. -/
def lookup (hash : BitVec 64) (key : List UInt8) : ShardM (Option ℕ) := do
  let st ← get
  match st.shard.find st.heap hash key with
  | none => pure none
  | some index =>
    recordHit index
    let id ← cloneEntry index
    pure (some id)

/-- The part of `promote` under the lock. -/
def promote (hash : BitVec 64) (key value : List UInt8) (seqno : BitVec 64) (chargedBytes : ℕ) :
    ShardM (Option ℕ) := do
  let st ← get
  let existing := st.shard.find st.heap hash key
  match existing.filter fun index => (residentSeqno st index).any (seqno ≤ ·) with
  | some index =>
    recordHit index
    let id ← cloneEntry index
    pure (some id)
  | none =>
    let result ← insert hash key value seqno chargedBytes existing
    match result.slot with
    | none => pure none
    | some index =>
      let id ← cloneEntry index
      pure (some id)

end ShardM

/-! ## The store -/

/-- A shard behind its lock. -/
structure MemoryShardLock where
  /-- The shard. -/
  state : ShardState
  /-- Whether an operation on it has panicked. -/
  poisoned : Bool

/-- `MemoryStore`, without its metrics. -/
structure MemoryStore where
  /-- The shards. -/
  shards : List MemoryShardLock
  /-- The entries of all shards. -/
  entryCapacity : ℕ

/-- How an operation meets other threads. -/
structure Access where
  /-- Whether the lock is taken by another thread at every attempt. -/
  contended : Bool
  /-- What callers do while the operation is under way. -/
  turns : List Turn

namespace MemoryStore

/-- `shard_share`. -/
def shardShare (total shardCount shardId : ℕ) : ℕ :=
  total / shardCount + if shardId < total % shardCount then 1 else 0

/-- The entries of a shard. -/
def shardEntries (capacityBytes entryCapacity shardCount shardId : ℕ) : ℕ :=
  min (min (shardShare entryCapacity shardCount shardId)
    (shardShare capacityBytes shardCount shardId / memoryEntryOverheadBytes))
    (maxPolicySlotIndex + 1)

/-- A new shard. -/
def newShard (capacityBytes entryCapacity shardCount : ℕ) (policy : L1EvictionPolicy)
    (shardId : ℕ) : MemoryShardLock :=
  ⟨⟨.new (shardShare capacityBytes shardCount shardId)
      (shardEntries capacityBytes entryCapacity shardCount shardId) policy,
    .new (shardShare capacityBytes shardCount shardId)⟩, false⟩

/-- `MemoryStore::new`, for plans and allocations that succeed. -/
def new (capacityBytes entryCapacity shardCount : ℕ) (policy : L1EvictionPolicy) :
    Option MemoryStore :=
  if shardCount = 0 then none
  else some
    { shards :=
        (List.range shardCount).map (newShard capacityBytes entryCapacity shardCount policy)
      entryCapacity :=
        ((List.range shardCount).map (shardEntries capacityBytes entryCapacity shardCount)).sum }

/-- `route`. -/
def route (m : MemoryStore) (hash : BitVec 64) : ℕ := routeHash hash m.shards.length

/-- Runs an operation on a shard if its lock can be taken; `none` is a panic. -/
def withShard {α : Type} (m : MemoryStore) (shardId : ℕ) (access : Access) (bypassed : α)
    (operation : ShardM α) : Option α × MemoryStore :=
  match m.shards[shardId]? with
  | none => (none, m)
  | some lock =>
    if lock.poisoned || access.contended then (some bypassed, m)
    else
      match operation { lock.state with
          heap := { lock.state.heap with turns := access.turns } } with
      | .ok a state => (some a, { m with shards := m.shards.set shardId ⟨state, false⟩ })
      | .error _ state => (none, { m with shards := m.shards.set shardId ⟨state, true⟩ })

/-- `publish`. -/
def publish (m : MemoryStore) (access : Access) (hash : BitVec 64) (key value : List UInt8)
    (seqno : BitVec 64) : Option Bool × MemoryStore :=
  if m.entryCapacity = 0 then (some false, m)
  else
    match memoryEntryBytes key value with
    | none => (some false, m)
    | some chargedBytes =>
      m.withShard (m.route hash) access false (.publish hash key value seqno chargedBytes)

/-- `delete`. -/
def delete (m : MemoryStore) (access : Access) (hash : BitVec 64) (key : List UInt8)
    (seqno : BitVec 64) : Option Bool × MemoryStore :=
  if m.entryCapacity = 0 then (some true, m)
  else m.withShard (m.route hash) access false (.delete hash key seqno)

/-- `lookup`: a hit, or a miss, whose token is the shard of the hash. -/
def lookup (m : MemoryStore) (access : Access) (hash : BitVec 64) (key : List UInt8) :
    Option (Option ℕ) × MemoryStore :=
  if m.entryCapacity = 0 then (some none, m)
  else m.withShard (m.route hash) access none (.lookup hash key)

/-- `promote`, with the shard of the token. -/
def promote (m : MemoryStore) (access : Access) (token : ℕ) (hash : BitVec 64)
    (key value : List UInt8) (seqno : BitVec 64) : Option (Option ℕ) × MemoryStore :=
  if token ≠ m.route hash then (some none, m)
  else if m.entryCapacity = 0 then (some none, m)
  else
    match memoryEntryBytes key value with
    | none => (some none, m)
    | some chargedBytes =>
      if maxL1EntryBytes < chargedBytes then (some none, m)
      else m.withShard token access none (.promote hash key value seqno chargedBytes)

/-- Callers clone and drop values of a shard between operations. -/
def callersAct (m : MemoryStore) (shardId : ℕ) (actions : List CallerAction) : MemoryStore :=
  match m.shards[shardId]? with
  | none => m
  | some lock =>
    { m with shards := m.shards.set shardId { lock with
      state := { lock.state with heap := actions.foldl MemoryHeap.act lock.state.heap } } }

/-! ## Runs -/

end MemoryStore

/-- What happens to a store. -/
inductive MemoryRequest
  | publish (hash : BitVec 64) (key value : List UInt8) (seqno : BitVec 64)
  | delete (hash : BitVec 64) (key : List UInt8) (seqno : BitVec 64)
  | lookup (hash : BitVec 64) (key : List UInt8)
  | promote (token : ℕ) (hash : BitVec 64) (key value : List UInt8) (seqno : BitVec 64)
  | callers (shardId : ℕ) (actions : List CallerAction)
  deriving DecidableEq, Repr

namespace MemoryStore

/-- The store after a request. -/
def apply (m : MemoryStore) (access : Access) : MemoryRequest → MemoryStore
  | .publish hash key value seqno => (m.publish access hash key value seqno).2
  | .delete hash key seqno => (m.delete access hash key seqno).2
  | .lookup hash key => (m.lookup access hash key).2
  | .promote token hash key value seqno => (m.promote access token hash key value seqno).2
  | .callers shardId actions => m.callersAct shardId actions

/-- The store after a sequence of requests. -/
def run (m : MemoryStore) (requests : List (Access × MemoryRequest)) : MemoryStore :=
  requests.foldl (fun m request => m.apply request.1 request.2) m

/-- The panic that an operation on a shard ends in, if its lock can be taken. -/
def panicIn {α : Type} (m : MemoryStore) (shardId : ℕ) (access : Access) (operation : ShardM α) :
    Option Panic :=
  match m.shards[shardId]? with
  | none => none
  | some lock =>
    if lock.poisoned || access.contended then none
    else
      match operation
        { lock.state with heap := { lock.state.heap with turns := access.turns } } with
      | .ok _ _ => none
      | .error panic _ => some panic

/-- The panic that a request ends in. -/
def panicOf (m : MemoryStore) (access : Access) : MemoryRequest → Option Panic
  | .publish hash key value seqno =>
    if m.entryCapacity = 0 then none
    else (memoryEntryBytes key value).bind fun chargedBytes =>
      m.panicIn (m.route hash) access (.publish hash key value seqno chargedBytes)
  | .delete hash key seqno =>
    if m.entryCapacity = 0 then none
    else m.panicIn (m.route hash) access (.delete hash key seqno)
  | .lookup hash key =>
    if m.entryCapacity = 0 then none else m.panicIn (m.route hash) access (.lookup hash key)
  | .promote token hash key value seqno =>
    if token ≠ m.route hash then none
    else if m.entryCapacity = 0 then none
    else (memoryEntryBytes key value).bind fun chargedBytes =>
      if maxL1EntryBytes < chargedBytes then none
      else m.panicIn token access (.promote hash key value seqno chargedBytes)
  | .callers _ _ => none

end MemoryStore

/-! ## What a request does to a shard -/

/-- The operations that requests run on a shard. -/
inductive ShardOperation : ∀ {α : Type}, ShardM α → Prop
  | publish {hash : BitVec 64} {key value : List UInt8} {seqno : BitVec 64} {chargedBytes : ℕ}
    (charged : memoryEntryBytes key value = some chargedBytes) :
    ShardOperation (ShardM.publish hash key value seqno chargedBytes)
  | delete (hash : BitVec 64) (key : List UInt8) (seqno : BitVec 64) :
    ShardOperation (ShardM.delete hash key seqno)
  | lookup (hash : BitVec 64) (key : List UInt8) : ShardOperation (ShardM.lookup hash key)
  | promote {hash : BitVec 64} {key value : List UInt8} {seqno : BitVec 64} {chargedBytes : ℕ}
    (charged : memoryEntryBytes key value = some chargedBytes)
    (small : chargedBytes ≤ maxL1EntryBytes) :
    ShardOperation (ShardM.promote hash key value seqno chargedBytes)

/-- What a request does to a shard: nothing, what callers do between operations, or an operation,
which returns or panics. -/
inductive MemoryShardStep (st : ShardState) : ShardState → Prop
  | idle : MemoryShardStep st st
  | callers (actions : List CallerAction) :
    MemoryShardStep st { st with heap := actions.foldl MemoryHeap.act st.heap }
  | returned {α : Type} {operation : ShardM α} {a : α} {st' : ShardState} (turns : List Turn)
    (known : ShardOperation operation)
    (run : operation { st with heap := { st.heap with turns } } = .ok a st') :
    MemoryShardStep st st'
  | panicked {α : Type} {operation : ShardM α} {panic : Panic} {st' : ShardState}
    (turns : List Turn) (known : ShardOperation operation)
    (run : operation { st with heap := { st.heap with turns } } = .error panic st') :
    MemoryShardStep st st'

namespace MemoryStore

variable {m : MemoryStore} {access : Access} {i : ℕ}

/-- An operation leaves all shards alone but one. -/
lemma shardStep_withShard {α : Type} {operation : ShardM α} (known : ShardOperation operation)
    {shardId : ℕ} {bypassed : α} {lock' : MemoryShardLock}
    (h : (m.withShard shardId access bypassed operation).2.shards[i]? = some lock') :
    ∃ lock, m.shards[i]? = some lock ∧ MemoryShardStep lock.state lock'.state := by
  unfold withShard at h
  cases hlock : m.shards[shardId]? with
  | none =>
    rw [hlock] at h
    exact ⟨lock', h, .idle⟩
  | some lock =>
    rw [hlock] at h
    simp only at h
    obtain ⟨hlt, -⟩ := List.getElem?_eq_some_iff.1 hlock
    split_ifs at h with hbypass
    · exact ⟨lock', h, .idle⟩
    cases hrun : operation
        { lock.state with heap := { lock.state.heap with turns := access.turns } } with
    | ok a state =>
      rw [hrun] at h
      simp only [List.getElem?_set] at h
      split_ifs at h with hi
      · obtain rfl := Option.some.inj h
        exact ⟨lock, hi ▸ hlock, .returned _ known hrun⟩
      · exact ⟨lock', h, .idle⟩
    | error panic state =>
      rw [hrun] at h
      simp only [List.getElem?_set] at h
      split_ifs at h with hi
      · obtain rfl := Option.some.inj h
        exact ⟨lock, hi ▸ hlock, .panicked _ known hrun⟩
      · exact ⟨lock', h, .idle⟩

/-- **A request** makes a step of every shard. -/
lemma shardStep_apply {request : MemoryRequest} {lock' : MemoryShardLock}
    (h : (m.apply access request).shards[i]? = some lock') :
    ∃ lock, m.shards[i]? = some lock ∧ MemoryShardStep lock.state lock'.state := by
  cases request with
  | publish hash key value seqno =>
    rw [apply, publish] at h
    split_ifs at h with hcapacity
    · exact ⟨lock', h, .idle⟩
    cases hbytes : memoryEntryBytes key value with
    | none =>
      rw [hbytes] at h
      exact ⟨lock', h, .idle⟩
    | some chargedBytes =>
      rw [hbytes] at h
      exact shardStep_withShard (.publish hbytes) h
  | delete hash key seqno =>
    rw [apply, delete] at h
    split_ifs at h with hcapacity
    · exact ⟨lock', h, .idle⟩
    · exact shardStep_withShard (.delete hash key seqno) h
  | lookup hash key =>
    rw [apply, lookup] at h
    split_ifs at h with hcapacity
    · exact ⟨lock', h, .idle⟩
    · exact shardStep_withShard (.lookup hash key) h
  | promote token hash key value seqno =>
    rw [apply, promote] at h
    split_ifs at h with htoken hcapacity
    · exact ⟨lock', h, .idle⟩
    · exact ⟨lock', h, .idle⟩
    cases hbytes : memoryEntryBytes key value with
    | none =>
      rw [hbytes] at h
      exact ⟨lock', h, .idle⟩
    | some chargedBytes =>
      rw [hbytes] at h
      simp only at h
      split_ifs at h with hlarge
      · exact ⟨lock', h, .idle⟩
      · exact shardStep_withShard (.promote hbytes (Nat.le_of_not_lt hlarge)) h
  | callers shardId actions =>
    rw [apply, callersAct] at h
    cases hlock : m.shards[shardId]? with
    | none =>
      rw [hlock] at h
      exact ⟨lock', h, .idle⟩
    | some lock =>
      rw [hlock] at h
      obtain ⟨hlt, -⟩ := List.getElem?_eq_some_iff.1 hlock
      simp only [List.getElem?_set] at h
      split_ifs at h with hi
      · obtain rfl := Option.some.inj h
        exact ⟨lock, hi ▸ hlock, .callers actions⟩
      · exact ⟨lock', h, .idle⟩

/-- A panic is one of an operation. -/
lemma panicIn_eq_some {α : Type} {operation : ShardM α} {shardId : ℕ} {panic : Panic}
    (h : m.panicIn shardId access operation = some panic) :
    ∃ lock st', m.shards[shardId]? = some lock ∧
      operation { lock.state with heap := { lock.state.heap with turns := access.turns } } =
        .error panic st' := by
  unfold panicIn at h
  cases hlock : m.shards[shardId]? with
  | none =>
    rw [hlock] at h
    cases h
  | some lock =>
    rw [hlock] at h
    simp only at h
    split_ifs at h
    cases hrun : operation
        { lock.state with heap := { lock.state.heap with turns := access.turns } } with
    | ok a state =>
      rw [hrun] at h
      cases h
    | error panic' state =>
      rw [hrun] at h
      obtain rfl := Option.some.inj h
      exact ⟨lock, state, rfl, hrun⟩

/-- **A panic** of a request is one of the operations that it runs. -/
lemma panicOf_eq_some {request : MemoryRequest} {panic : Panic}
    (h : m.panicOf access request = some panic) :
    ∃ (α : Type) (operation : ShardM α) (shardId : ℕ) (lock : MemoryShardLock) (st' : ShardState),
      ShardOperation operation ∧ m.shards[shardId]? = some lock ∧
        operation { lock.state with heap := { lock.state.heap with turns := access.turns } } =
          .error panic st' := by
  cases request with
  | publish hash key value seqno =>
    rw [panicOf] at h
    split_ifs at h
    obtain ⟨chargedBytes, hbytes, h⟩ := Option.bind_eq_some_iff.1 h
    obtain ⟨lock, st', hlock, hrun⟩ := panicIn_eq_some h
    exact ⟨_, _, _, lock, st', .publish hbytes, hlock, hrun⟩
  | delete hash key seqno =>
    rw [panicOf] at h
    split_ifs at h
    obtain ⟨lock, st', hlock, hrun⟩ := panicIn_eq_some h
    exact ⟨_, _, _, lock, st', .delete hash key seqno, hlock, hrun⟩
  | lookup hash key =>
    rw [panicOf] at h
    split_ifs at h
    obtain ⟨lock, st', hlock, hrun⟩ := panicIn_eq_some h
    exact ⟨_, _, _, lock, st', .lookup hash key, hlock, hrun⟩
  | promote token hash key value seqno =>
    rw [panicOf] at h
    split_ifs at h
    obtain ⟨chargedBytes, hbytes, h⟩ := Option.bind_eq_some_iff.1 h
    split_ifs at h with hlarge
    obtain ⟨lock, st', hlock, hrun⟩ := panicIn_eq_some h
    exact ⟨_, _, _, lock, st', .promote hbytes (Nat.le_of_not_lt hlarge), hlock, hrun⟩
  | callers shardId actions => cases h

end MemoryStore

end Cache2
