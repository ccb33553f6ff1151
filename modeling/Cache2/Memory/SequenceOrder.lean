import Cache2.Memory.StoreInvariant

set_option relaxedAutoImplicit false
set_option autoImplicit false

/-!
# Runs of the memory tier

Every request keeps the shards consistent and follows the order of sequence numbers. The invariant
needs one thing of the configuration: no shard has a slot whose index the directory takes for a mark
of its own.

## Main definitions

* `Cache2.MemoryStore.Representable` — slots have indices that the directory can hold.
* `Cache2.SequenceOrder` — what requests promise about sequence numbers.

## Main results

* `Cache2.memoryShard_consistent` — shards are consistent along every run.
* `Cache2.memoryStore_sequenceOrder` — the order of sequence numbers along every run.
-/

namespace Cache2

/-- The item that a request may write. -/
def MemoryRequest.writes : MemoryRequest → Option MemoryItem
  | .publish hash key value seqno => some ⟨hash, key, value, seqno⟩
  | .promote _ hash key value seqno => some ⟨hash, key, value, seqno⟩
  | .delete .. | .lookup .. | .callers .. => none

namespace MemoryStore

variable {m : MemoryStore}

/-- **One request** keeps the invariant, and writes its item only over an older one. -/
theorem Inv.apply (h : m.Inv) (access : Access) (request : MemoryRequest) :
    StoreOutcome m (m.apply access request) request.writes := by
  cases request with
  | publish hash key value seqno => exact (h.publish access ⟨hash, key, value, seqno⟩).1
  | delete hash key seqno => exact (h.delete access hash key seqno).1
  | lookup hash key => exact (h.lookup access hash key).1
  | promote token hash key value seqno =>
    exact (h.promote access token ⟨hash, key, value, seqno⟩).1
  | callers shardId actions => exact h.callersAct shardId actions

/-- Slots have indices that the directory can hold. -/
def Representable (capacityBytes entryCapacity shardCount : ℕ) : Prop :=
  ∀ shardId < shardCount,
    shardEntries capacityBytes entryCapacity shardCount shardId ≤ deletedValue

/-- The shards of a new store. -/
lemma shard_new {capacityBytes entryCapacity shardCount : ℕ} {policy : L1EvictionPolicy}
    (hnew : new capacityBytes entryCapacity shardCount policy = some m) {i : ℕ}
    {lock : MemoryShardLock} (hlock : m.shards[i]? = some lock) :
    i < shardCount ∧ lock = newShard capacityBytes entryCapacity shardCount policy i := by
  unfold new at hnew
  split_ifs at hnew with hzero
  obtain rfl := Option.some.inj hnew
  obtain ⟨hlt, hget⟩ := List.getElem?_eq_some_iff.1 hlock
  refine ⟨by simpa using hlt, ?_⟩
  rw [← hget]
  simp

/-- A new store satisfies the invariant, and has no items. -/
lemma inv_new {capacityBytes entryCapacity shardCount : ℕ} {policy : L1EvictionPolicy}
    (hnew : new capacityBytes entryCapacity shardCount policy = some m)
    (hslots : Representable capacityBytes entryCapacity shardCount) :
    m.Inv ∧ ∀ x, ¬ m.Resident x := by
  refine ⟨⟨fun i lock hlock => ?_, fun hcapacity i lock hlock => ?_⟩, ?_⟩
  · obtain ⟨hlt, rfl⟩ := shard_new hnew hlock
    exact shardRepr_new _ _ (hslots i hlt)
  · obtain ⟨hlt, rfl⟩ := shard_new hnew hlock
    unfold new at hnew
    split_ifs at hnew with hzero
    obtain rfl := Option.some.inj hnew
    have hnone : shardEntries capacityBytes entryCapacity shardCount i = 0 :=
      List.sum_eq_zero_iff.1 hcapacity _ (List.mem_map.2 ⟨i, List.mem_range.2 hlt, rfl⟩)
    simp [newShard, MemoryShard.new, hnone]
  · rintro x ⟨lock, hlock, i, e, he, -⟩
    obtain ⟨-, rfl⟩ := shard_new hnew hlock
    exact absurd ((entry_new _ policy i).symm.trans he) (by simp)

/-- What has been written by the requests of a run. -/
def Written (history : List (Access × MemoryRequest)) (x : MemoryItem) : Prop :=
  ∃ request ∈ history, request.2.writes = some x

/-- **A run** keeps the invariant, and every item was written by one of its requests. -/
theorem Inv.run {history : List (Access × MemoryRequest)} (h : m.Inv)
    (hempty : ∀ x, ¬ m.Resident x) :
    (m.run history).Inv ∧ ∀ x, (m.run history).Resident x → Written history x := by
  induction history using List.reverseRecOn with
  | nil => exact ⟨h, fun x hx => (hempty x hx).elim⟩
  | append_singleton history request ih =>
    have hstep := ih.1.apply request.1 request.2
    rw [MemoryStore.run, List.foldl_append]
    refine ⟨hstep.inv, fun x hx => ?_⟩
    rcases hstep.items x hx with hx | ⟨hwritten, -⟩
    · obtain ⟨earlier, hmem, hwrites⟩ := ih.2 x hx
      exact ⟨earlier, List.mem_append_left _ hmem, hwrites⟩
    · exact ⟨request, List.mem_append_right _ List.mem_cons_self, hwritten⟩

/-- The key has an entry. -/
def HasKey (m : MemoryStore) (hash : BitVec 64) (key : List UInt8) : Prop :=
  ∃ x, m.Resident x ∧ x.hash = hash ∧ x.key = key

/-- One request does not let the sequence number of a key decrease. -/
lemma StoreOutcome.seqno_le {m' : MemoryStore} {written : Option MemoryItem} (hm : m.Inv)
    (h : StoreOutcome m m' written) {x y : MemoryItem} (hx : m.Resident x) (hy : m'.Resident y)
    (hhash : x.hash = y.hash) (hkey : x.key = y.key) : x.seqno ≤ y.seqno := by
  rcases h.items y hy with hy | ⟨-, holder⟩
  · rw [hm.unique hx hy hhash hkey]
    exact BitVec.le_refl _
  · exact BitVec.le_of_lt (holder x hx hhash hkey)

/-- The sequence number of a key does not decrease while the key stays resident. -/
lemma Inv.seqno_le_run (h : m.Inv) {later : List (Access × MemoryRequest)} {x y : MemoryItem}
    (hstays : ∀ part, part <+: later → (m.run part).HasKey x.hash x.key) (hx : m.Resident x)
    (hy : (m.run later).Resident y) (hhash : x.hash = y.hash) (hkey : x.key = y.key) :
    x.seqno ≤ y.seqno := by
  induction later generalizing m x with
  | nil =>
    rw [h.unique hx hy hhash hkey]
    exact BitVec.le_refl _
  | cons request later ih =>
    have hstep := h.apply request.1 request.2
    -- the entry of the key after the first request
    obtain ⟨z, hz, hzhash, hzkey⟩ := hstays [request] ⟨later, rfl⟩
    have hrest := ih hstep.inv (fun part hpart => ?_) hz hy (hzhash.trans hhash) (hzkey.trans hkey)
    · exact BitVec.le_trans (hstep.seqno_le h hx hz hzhash.symm hzkey.symm) hrest
    · rw [hzhash, hzkey]
      exact hstays (request :: part) (List.prefix_cons_inj request |>.2 hpart)

end MemoryStore

/-! ## Main results -/

/-- What requests promise about sequence numbers after a run. -/
structure SequenceOrder (m : MemoryStore) (history : List (Access × MemoryRequest)) : Prop where
  /-- While a key stays resident, its sequence number does not decrease. -/
  monotone : ∀ later (x y : MemoryItem),
    (∀ part, part <+: later → ((m.run history).run part).HasKey x.hash x.key) →
    (m.run history).Resident x → ((m.run history).run later).Resident y →
    x.hash = y.hash → x.key = y.key → x.seqno ≤ y.seqno
  /-- After a publication, the entry of the key is at least as new. -/
  published : ∀ access (x : MemoryItem),
    ((m.run history).publish access x.hash x.key x.value x.seqno).1 = some true →
    ∃ y, ((m.run history).publish access x.hash x.key x.value x.seqno).2.Resident y ∧
      y.hash = x.hash ∧ y.key = x.key ∧ x.seqno ≤ y.seqno ∧
      ∀ z, ((m.run history).publish access x.hash x.key x.value x.seqno).2.Resident z →
        z.hash = x.hash → z.key = x.key → z = y
  /-- After a deletion, the key has no entry that is not newer, and a newer one is kept. -/
  deleted : ∀ access hash key seqno, ((m.run history).delete access hash key seqno).1 = some true →
    (∀ x, ((m.run history).delete access hash key seqno).2.Resident x → x.hash = hash →
      x.key = key → ¬ x.seqno ≤ seqno) ∧
    ∀ x, (m.run history).Resident x → x.hash = hash → x.key = key → seqno < x.seqno →
      ((m.run history).delete access hash key seqno).2.Resident x
  /-- A promotion returns a value that is at least as new, and keeps a newer entry. -/
  promoted : ∀ access token (x : MemoryItem),
    (∀ id, ((m.run history).promote access token x.hash x.key x.value x.seqno).1 = some (some id) →
      ∃ y, ((m.run history).promote access token x.hash x.key x.value x.seqno).2.Reads id y ∧
        y.hash = x.hash ∧ y.key = x.key ∧ x.seqno ≤ y.seqno) ∧
    ∀ y, (m.run history).Resident y → y.hash = x.hash → y.key = x.key → x.seqno < y.seqno →
      ((m.run history).promote access token x.hash x.key x.value x.seqno).2.Resident y
  /-- A lookup returns a value that was published or promoted for its key. -/
  lookedUp : ∀ access hash key id,
    ((m.run history).lookup access hash key).1 = some (some id) →
    ∃ x, ((m.run history).lookup access hash key).2.Reads id x ∧ x.hash = hash ∧ x.key = key ∧
      MemoryStore.Written history x

/-- **The representation invariant.** If slots have indices that the directory can hold, then every
shard is consistent along every run. -/
theorem memoryShard_consistent {capacityBytes entryCapacity shardCount : ℕ}
    {policy : L1EvictionPolicy} {m : MemoryStore}
    (hnew : MemoryStore.new capacityBytes entryCapacity shardCount policy = some m)
    (hslots : MemoryStore.Representable capacityBytes entryCapacity shardCount)
    (history : List (Access × MemoryRequest)) :
    ∀ lock ∈ (m.run history).shards, ShardConsistent lock.state := by
  obtain ⟨hinv, hempty⟩ := MemoryStore.inv_new hnew hslots
  intro lock hlock
  obtain ⟨i, hi⟩ := List.mem_iff_getElem?.1 hlock
  exact ((hinv.run hempty).1.repr i lock hi).consistent

/-- Four slots in two shards. -/
lemma MemoryStore.representable_sample : MemoryStore.Representable 512 4 2 := by
  unfold MemoryStore.Representable
  decide

/-- Two shards with two slots each, and a run that fills one of them, evicts and deletes. -/
theorem memoryShard_consistent_sample :
    ∃ m, MemoryStore.new 512 4 2 .s3Fifo = some m ∧
      ∀ lock ∈ (m.run [(⟨false, []⟩, .publish 2#64 [1] [7] 1#64),
        (⟨false, []⟩, .publish 4#64 [2] [8] 2#64),
        (⟨false, [⟨[], true⟩]⟩, .publish 6#64 [3] [] 3#64),
        (⟨false, []⟩, .lookup 4#64 [2]), (⟨false, []⟩, .delete 4#64 [2] 9#64)]).shards,
        ShardConsistent lock.state :=
  ⟨_, rfl, memoryShard_consistent rfl MemoryStore.representable_sample _⟩

/-- **The order of sequence numbers.** If slots have indices that the directory can hold, then
requests keep their promises after every run. -/
theorem memoryStore_sequenceOrder {capacityBytes entryCapacity shardCount : ℕ}
    {policy : L1EvictionPolicy} {m : MemoryStore}
    (hnew : MemoryStore.new capacityBytes entryCapacity shardCount policy = some m)
    (hslots : MemoryStore.Representable capacityBytes entryCapacity shardCount)
    (history : List (Access × MemoryRequest)) : SequenceOrder m history := by
  obtain ⟨hinv, hempty⟩ := MemoryStore.inv_new hnew hslots
  obtain ⟨hrun, hwritten⟩ := hinv.run hempty
  refine ⟨fun later x y hstays hx hy hhash hkey => ?_, fun access x hr => ?_,
    fun access hash key seqno hr => ?_, fun access token x => ?_, fun access hash key id hr => ?_⟩
  · exact hrun.seqno_le_run hstays hx hy hhash hkey
  · obtain ⟨houtcome, hpost⟩ := hrun.publish access x
    obtain ⟨y, hy, hhash, hkey, hseqno⟩ := hpost hr
    exact ⟨y, hy, hhash, hkey, hseqno, fun z hz hzhash hzkey =>
      houtcome.inv.unique hz hy (hzhash.trans hhash.symm) (hzkey.trans hkey.symm)⟩
  · obtain ⟨hgone, hkept⟩ := (hrun.delete access hash key seqno).2 hr
    exact ⟨fun x hx hhash hkey => BitVec.not_le.2 (hgone x hx hhash hkey),
      fun x hx _ _ hnewer => hkept x hx fun _ _ => hnewer⟩
  · obtain ⟨-, hkept, hreturned⟩ := hrun.promote access token x
    refine ⟨fun id hr => ?_, fun y hy hhash hkey hnewer => ?_⟩
    · obtain ⟨y, -, hhash, hkey, hseqno, hreads⟩ := hreturned id hr
      exact ⟨y, hreads, hhash, hkey, hseqno⟩
    · exact hkept y hy hhash hkey (BitVec.le_of_lt hnewer)
  · obtain ⟨x, hx, hhash, hkey, hreads⟩ := (hrun.lookup access hash key).2 id hr
    exact ⟨x, hreads, hhash, hkey, hwritten x hx⟩

/-- A promotion that comes after a newer publication. -/
theorem memoryStore_sequenceOrder_sample :
    ∃ m, MemoryStore.new 512 4 2 .clock = some m ∧
      SequenceOrder m [(⟨false, []⟩, .publish 2#64 [1] [7] 5#64),
        (⟨false, []⟩, .promote 0 2#64 [1] [6] 4#64)] :=
  ⟨_, rfl, memoryStore_sequenceOrder rfl MemoryStore.representable_sample _⟩

end Cache2
