import Cache2.Memory.SequenceOrder

set_option relaxedAutoImplicit false
set_option autoImplicit false

/-!
# The last slot of a shard

A shard may have one slot more than the directory can hold indices of: the index of the last one is
the mark for a deleted slot. When the last slot is filled, its entry is in no chain, so that it is
neither found nor deleted.

The shard is filled by publications whose fingerprints have homes of their own, which needs a
directory of at least `2 ^ 32` slots.

## Main definitions

* `Cache2.publications` — the publications that fill a shard.
* `Cache2.Filled` — the shard after some of them.

## Main results

* `Cache2.lastSlot_not_consistent` — the shard is not consistent after them.
* `Cache2.lastSlot_not_sequenceOrder` — a deletion then succeeds without removing the entry.
-/

namespace Cache2

open Loop Word Bytes

/-! ## Homes -/

/-- A hash whose fingerprint is given. -/
def hashOfFingerprint (k : ℕ) : BitVec 64 := BitVec.ofNat 64 (k * 2 ^ 32)

lemma fixedMapFingerprint_hashOfFingerprint (k : ℕ) :
    fixedMapFingerprint (hashOfFingerprint k) = BitVec.ofNat 32 k := by
  have hlow : (hashOfFingerprint k).setWidth 32 = 0#32 := by
    apply BitVec.eq_of_toNat_eq
    simp only [hashOfFingerprint, BitVec.toNat_setWidth, BitVec.toNat_ofNat]
    omega
  have hhigh : (hashOfFingerprint k >>> 32).setWidth 32 = BitVec.ofNat 32 k := by
    apply BitVec.eq_of_toNat_eq
    simp only [hashOfFingerprint, BitVec.toNat_setWidth, BitVec.toNat_ushiftRight,
      BitVec.toNat_ofNat, Nat.shiftRight_eq_div_pow]
    omega
  rw [fixedMapFingerprint, hlow, hhigh, show (0#32).rotateLeft 13 = 0#32 by decide,
    BitVec.zero_xor]

/-- Fingerprints are multiplied by an odd number, which can be undone. -/
lemma mul_injective {a b : BitVec 32} (h : a * 0x9e3779b9#32 = b * 0x9e3779b9#32) : a = b := by
  have hinv : (0x9e3779b9#32) * 0x144cbc89#32 = 1#32 := by decide
  calc a = a * 0x9e3779b9#32 * 0x144cbc89#32 := by rw [BitVec.mul_assoc, hinv, BitVec.mul_one]
    _ = b * 0x9e3779b9#32 * 0x144cbc89#32 := by rw [h]
    _ = b := by rw [BitVec.mul_assoc, hinv, BitVec.mul_one]

/-- In a large directory, fingerprints have homes of their own. -/
lemma fixedMapFingerprintStart_injective {slots : ℕ} (hslots : 2 ^ 32 ≤ slots) {a b : BitVec 32}
    (h : fixedMapFingerprintStart a slots = fixedMapFingerprintStart b slots) : a = b := by
  unfold fixedMapFingerprintStart at h
  rw [Nat.shiftRight_eq_div_pow, Nat.shiftRight_eq_div_pow] at h
  refine mul_injective (BitVec.eq_of_toNat_eq ?_)
  -- products that differ do so by at least the divisor
  have hlt : ∀ {x y : ℕ}, x < y → x * slots / 2 ^ 32 < y * slots / 2 ^ 32 := by
    intro x y hxy
    have hle : x * slots + 2 ^ 32 ≤ y * slots :=
      calc x * slots + 2 ^ 32 ≤ x * slots + slots := Nat.add_le_add_left hslots _
        _ = (x + 1) * slots := (Nat.succ_mul x slots).symm
        _ ≤ y * slots := Nat.mul_le_mul_right _ hxy
    calc x * slots / 2 ^ 32 < x * slots / 2 ^ 32 + 1 := Nat.lt_succ_self _
      _ = (x * slots + 2 ^ 32) / 2 ^ 32 := (Nat.add_div_right _ (by decide)).symm
      _ ≤ y * slots / 2 ^ 32 := Nat.div_le_div_right hle
  rcases Nat.lt_trichotomy (a * 0x9e3779b9#32).toNat (b * 0x9e3779b9#32).toNat with hab | hab | hab
  · exact absurd h (hlt hab).ne
  · exact hab
  · exact absurd h (hlt hab).ne'

/-- The home of the fingerprint `k` in a directory for `n` entries. -/
def homeOf (n k : ℕ) : ℕ := fixedMapFingerprintStart (BitVec.ofNat 32 k) (n * 2)

/-- A directory for `n` entries that has the first `k` fingerprints, at their homes. -/
structure Homed (n k : ℕ) (m : FixedPrehashedMap) : Prop where
  /-- The size of the directory. -/
  length : m.slots.length = n * 2
  /-- What is in it. -/
  homes : ∀ p, (m.slot p).value ≠ emptyValue →
    ∃ j < k, p = homeOf n j ∧ m.slot p = ⟨BitVec.ofNat 32 j, j⟩

/-- A new directory. -/
lemma homed_tryNew (n : ℕ) : Homed n 0 (.tryNew n) where
  length := by simp [FixedPrehashedMap.tryNew]
  homes p hp := by
    refine absurd ?_ hp
    simp only [FixedPrehashedMap.tryNew, FixedPrehashedMap.slot, List.getD_eq_getElem?_getD,
      List.getElem?_replicate]
    split <;> rfl

/-- An entry goes to the first slot that it may have, if that is empty. -/
lemma upsertLoop_of_empty {m : FixedPrehashedMap} {fingerprint : BitVec 32} {index : ℕ}
    {rest : List ℕ} (h : (m.slot index).value = emptyValue) :
    m.upsertLoop fingerprint (index :: rest) none = some (index, none) := if_pos h

/-- Operations on a fingerprint first look at its home. -/
lemma window_homeOf {n : ℕ} {m : FixedPrehashedMap} (hlength : m.slots.length = n * 2)
    (hn : 0 < n) (j : ℕ) :
    ∃ rest, m.window (fixedMapFingerprint (hashOfFingerprint j)) = homeOf n j :: rest := by
  have hwindow : min (n * 2) maxFixedMapProbes = (min (n * 2) maxFixedMapProbes - 1) + 1 := by
    unfold maxFixedMapProbes
    omega
  have hlt := fixedMapFingerprintStart_lt (BitVec.ofNat 32 j) (Nat.mul_pos hn Nat.two_pos)
  refine ⟨((List.range (min (n * 2) maxFixedMapProbes - 1)).map Nat.succ).map fun step =>
    probeIndex (homeOf n j) step (n * 2), ?_⟩
  rw [FixedPrehashedMap.window, hlength, hwindow, List.range_succ_eq_map, List.map_cons,
    fixedMapFingerprint_hashOfFingerprint, FixedPrehashedMap.home, hlength, probeIndex,
    if_pos (by omega), Nat.add_zero]
  rfl

/-- A fingerprint whose home is empty is not in the directory, -/
lemma get_of_home_empty {n k : ℕ} {m : FixedPrehashedMap} (hlength : m.slots.length = n * 2)
    (hn : 0 < n) (hempty : (m.slot (homeOf n k)).value = emptyValue) :
    m.get (hashOfFingerprint k) = none := by
  obtain ⟨rest, hwindow⟩ := window_homeOf hlength hn k
  rw [FixedPrehashedMap.get, hwindow]
  simp only [FixedPrehashedMap.probeLoop, if_pos hempty, Option.map_none]

/-- and goes to its home. -/
lemma findUpsertSlot_of_home_empty {n k : ℕ} {m : FixedPrehashedMap}
    (hlength : m.slots.length = n * 2) (hn : 0 < n)
    (hempty : (m.slot (homeOf n k)).value = emptyValue) :
    m.findUpsertSlot (hashOfFingerprint k) = some (homeOf n k, none) := by
  obtain ⟨rest, hwindow⟩ := window_homeOf hlength hn k
  rw [FixedPrehashedMap.findUpsertSlot, hwindow]
  exact upsertLoop_of_empty hempty

/-- Fingerprints have homes of their own. -/
lemma homeOf_injective {n i j : ℕ} (hn : 2 ^ 32 ≤ n * 2) (hi : i < 2 ^ 32) (hj : j < 2 ^ 32)
    (h : homeOf n i = homeOf n j) : i = j := by
  have heq := congrArg BitVec.toNat (fixedMapFingerprintStart_injective hn h)
  rwa [BitVec.toNat_ofNat, BitVec.toNat_ofNat, Nat.mod_eq_of_lt hi, Nat.mod_eq_of_lt hj] at heq

section Homed

variable {n k : ℕ} {m : FixedPrehashedMap}

/-- The home of the next fingerprint is empty. -/
lemma Homed.home_empty (h : Homed n k m) (hn : 2 ^ 32 ≤ n * 2) (hk : k < 2 ^ 32) :
    (m.slot (homeOf n k)).value = emptyValue := by
  by_contra hne
  obtain ⟨j, hj, hhome, -⟩ := h.homes _ hne
  have heq := homeOf_injective hn hk (hj.trans hk) hhome
  omega

/-- The next fingerprint is not in the directory, -/
lemma Homed.get_eq (h : Homed n k m) (hn : 2 ^ 32 ≤ n * 2) (hk : k < 2 ^ 32) :
    m.get (hashOfFingerprint k) = none :=
  get_of_home_empty h.length (by omega) (h.home_empty hn hk)

/-- and goes to its home. -/
lemma Homed.findUpsertSlot_eq (h : Homed n k m) (hn : 2 ^ 32 ≤ n * 2) (hk : k < 2 ^ 32) :
    m.findUpsertSlot (hashOfFingerprint k) = some (homeOf n k, none) :=
  findUpsertSlot_of_home_empty h.length (by omega) (h.home_empty hn hk)

/-- The directory with the next fingerprint. -/
lemma Homed.set (h : Homed n k m) (hn : 0 < n) :
    Homed n (k + 1) (m.set (homeOf n k) ⟨BitVec.ofNat 32 k, k⟩) where
  length := by simp [h.length]
  homes p hp := by
    have hlt : homeOf n k < m.slots.length := by
      rw [h.length]
      exact fixedMapFingerprintStart_lt _ (Nat.mul_pos hn Nat.two_pos)
    rw [FixedPrehashedMap.slot_set hlt] at hp ⊢
    by_cases hpk : p = homeOf n k
    · exact ⟨k, Nat.lt_succ_self k, hpk, if_pos hpk⟩
    · rw [if_neg hpk] at hp ⊢
      obtain ⟨j, hj, hrest⟩ := h.homes p hp
      exact ⟨j, hj.trans (Nat.lt_succ_self k), hrest⟩

end Homed

/-! ## Filling a shard -/

/-- The item of a publication: a key of eight bytes and no value. -/
def numberedItem (k : ℕ) : MemoryItem := ⟨hashOfFingerprint k, leBytes 8 k, [], 1#64⟩

/-- The bytes that such an item is charged for. -/
def numberedItemBytes : ℕ := 72

/-- The shard with `n` slots after `k` publications. -/
structure Filled (n k : ℕ) (st : ShardState) : Prop where
  /-- The policy is CLOCK. -/
  clock : ∃ c, st.shard.eviction = .clock c
  /-- The slots. -/
  slots : st.shard.slots.length = n
  /-- The policy slots. -/
  policySlots : st.shard.policySlots.length = n
  /-- The first free slot. -/
  freeHead : st.shard.freeHead = if k = n then noSlotIndex else k
  /-- The slots that are free are linked in their order. -/
  freeNext : ∀ i, k ≤ i → i < n →
    freeNextOf st.shard.policySlots i = if i + 1 = n then noSlotIndex else i + 1
  /-- The size of the directory. -/
  directory : st.shard.directory.slots.length = n * 2
  /-- What is in the directory: the items, at their homes. -/
  homes : ∀ p, (st.shard.directory.slot p).value ≠ emptyValue →
    ∃ j < k, p = homeOf n j ∧ st.shard.directory.slot p = ⟨BitVec.ofNat 32 j, j⟩
  /-- The bytes that are in use. -/
  used : st.heap.usedBytes = numberedItemBytes * k
  /-- The bytes that may be in use. -/
  capacity : st.heap.capacityBytes = numberedItemBytes * n

/-- A new shard. -/
lemma filled_new (n : ℕ) :
    Filled n 0 ⟨.new (numberedItemBytes * n) n .clock, .new (numberedItemBytes * n)⟩ where
  clock := ⟨_, rfl⟩
  slots := by simp [MemoryShard.new]
  policySlots := by simp [MemoryShard.new]
  freeHead := by simp [MemoryShard.new, eq_comm]
  freeNext i _ hi := policySlot_new _ _ hi
  directory := (homed_tryNew n).length
  homes := (homed_tryNew n).homes
  used := rfl
  capacity := rfl

/-- The allocation of such an item. -/
def numberedValue (k : ℕ) : MemoryValueInner :=
  ⟨memoryValueBytes (leBytes 8 k) [] 1#64, 8, ⟨true, numberedItemBytes⟩⟩

/-- The shard with `n` slots after `k` publications, with what it keeps of every item. -/
structure Stored (n k : ℕ) (st : ShardState) : Prop extends Filled n k st where
  /-- The residents of the CLOCK. -/
  residents : st.shard.eviction = .clock ⟨0, List.range k⟩
  /-- The entries. -/
  entries : ∀ i < k, st.shard.entry i = some ⟨i, noSlotIndex⟩
  /-- Their places in the CLOCK. -/
  places : ∀ i < k,
    policySlot st.shard.policySlots i = .newClock (hashOfFingerprint i) false i
  /-- The items are in the directory. -/
  mapped : ∀ j < k, st.shard.directory.slot (homeOf n j) = ⟨BitVec.ofNat 32 j, j⟩
  /-- Their values. -/
  values : ∀ i < k, st.heap.inner i = numberedValue i ∧ st.heap.strong i = 1
  /-- The next number that is free. -/
  next : st.heap.next = k
  /-- Callers do nothing. -/
  turns : st.heap.turns = []

/-- A new shard. -/
lemma stored_new (n : ℕ) :
    Stored n 0 ⟨.new (numberedItemBytes * n) n .clock, .new (numberedItemBytes * n)⟩ where
  toFilled := filled_new n
  residents := rfl
  entries i hi := absurd hi (Nat.not_lt_zero i)
  places i hi := absurd hi (Nat.not_lt_zero i)
  mapped j hj := absurd hj (Nat.not_lt_zero j)
  values i hi := absurd hi (Nat.not_lt_zero i)
  next := rfl
  turns := rfl

/-- The shard after the publication of an item that takes the first free slot, and a new slot of the
directory. -/
def published (st : ShardState) (k home : ℕ) : ShardState :=
  ⟨ShardM.fillSlot { st.shard with
      directory := st.shard.directory.set home ⟨BitVec.ofNat 32 k, st.shard.freeHead⟩ }
    st.shard.freeHead (hashOfFingerprint k) ⟨st.heap.next, noSlotIndex⟩ numberedItemBytes,
   ({ st.heap with usedBytes := st.heap.usedBytes + numberedItemBytes }.allocate
    (numberedValue k)).2⟩

section Step

variable {n k : ℕ} {st : ShardState}

/-- Callers that do nothing. -/
lemma tick_of_idle {heap : MemoryHeap} (hturns : heap.turns = []) :
    heap.tick = (false, heap) := by
  simp only [MemoryHeap.tick, hturns]

/-- A charge for which there is room is accepted. -/
lemma tryCharge_of_room {heap : MemoryHeap} {bytes : ℕ} (hturns : heap.turns = [])
    (hfits : heap.usedBytes + bytes < 2 ^ 64)
    (hroom : heap.usedBytes + bytes ≤ heap.capacityBytes) :
    heap.tryCharge bytes = (.charged ⟨true, bytes⟩,
      { heap with usedBytes := heap.usedBytes + bytes }) := by
  have hnotFull : ¬ (2 ^ 64 ≤ heap.usedBytes + bytes ∨
      heap.capacityBytes < heap.usedBytes + bytes) := by omega
  rw [MemoryHeap.tryCharge, tick_of_idle hturns, maxBudgetCasAttempts, MemoryHeap.tryChargeLoop,
    if_neg hnotFull]
  simp only [tick_of_idle hturns, Bool.not_false, and_self, if_true]

/-- An item is allocated. -/
lemma tryNew_numberedItem {heap : MemoryHeap} (hturns : heap.turns = []) (k : ℕ) :
    heap.tryNew (leBytes 8 k) [] 1#64 ⟨true, numberedItemBytes⟩ none =
      (some heap.next, (heap.allocate (numberedValue k)).2) := by
  have hlength : (memoryValueBytes (leBytes 8 k) [] 1#64).length = 16 := by
    simp [memoryValueBytes]
  rw [MemoryHeap.tryNew]
  simp only [hlength, tick_of_idle hturns, length_leBytes]
  rw [if_neg (by decide)]
  rfl

/-- A charge is accepted without an eviction. -/
lemma chargeWithEviction_of_room {bytes : ℕ} (hslot : st.shard.freeHead ≠ noSlotIndex)
    (hturns : st.heap.turns = []) (hfits : st.heap.usedBytes + bytes < 2 ^ 64)
    (hroom : st.heap.usedBytes + bytes ≤ st.heap.capacityBytes) :
    ShardM.chargeWithEviction bytes none st =
      .ok (.charged ⟨true, bytes⟩ 0 none)
        { st with heap := { st.heap with usedBytes := st.heap.usedBytes + bytes } } := by
  rw [ShardM.chargeWithEviction, bind_ok (get_apply st)]
  simp only [if_neg (show ¬ st.heap.capacityBytes < bytes by omega),
    beq_eq_false_iff_ne.2 hslot, Bool.and_false]
  rw [bind_ok (ShardM.onHeap_apply _ _), tryCharge_of_room hturns hfits hroom]
  rfl

/-- An admission for which everything is there. -/
lemma admitCharged_eq {hash : BitVec 64} {key value : List UInt8} {seqno : BitVec 64}
    {chargedBytes id : ℕ} {charge : MemoryCharge} {heap : MemoryHeap} {previous : Option ℕ}
    {directory : FixedPrehashedMap} (hslot : st.shard.freeHead ≠ noSlotIndex)
    (hnew : st.heap.tryNew key value seqno charge none = (some id, heap))
    (hinsert : st.shard.directory.insert hash st.shard.freeHead = some (previous, directory)) :
    ShardM.admitCharged hash key value seqno chargedBytes charge 0 none st =
      .ok ⟨some st.shard.freeHead, 0⟩ ⟨ShardM.fillSlot { st.shard with directory }
        st.shard.freeHead hash ⟨id, previous.getD noSlotIndex⟩ chargedBytes, heap⟩ := by
  rw [ShardM.admitCharged, bind_ok (get_apply st)]
  simp only [if_neg hslot]
  rw [bind_ok (ShardM.onHeap_apply _ _), hnew]
  simp only
  rw [bind_ok (get_apply _)]
  simp only [hinsert]
  rw [bind_ok (ShardM.modifyShard_apply _ _)]
  rfl

/-- **A publication** of an item for which there is room. -/
lemma publish_of_room {home : ℕ} (hget : st.shard.directory.get (hashOfFingerprint k) = none)
    (hupsert : st.shard.directory.findUpsertSlot (hashOfFingerprint k) = some (home, none))
    (hslot : st.shard.freeHead ≠ noSlotIndex) (hturns : st.heap.turns = [])
    (hfits : st.heap.usedBytes + numberedItemBytes < 2 ^ 64)
    (hroom : st.heap.usedBytes + numberedItemBytes ≤ st.heap.capacityBytes) :
    ShardM.publish (hashOfFingerprint k) (leBytes 8 k) [] 1#64 numberedItemBytes st =
      .ok true (published st k home) := by
  have hfind : st.shard.find st.heap (hashOfFingerprint k) (leBytes 8 k) = none := by
    rw [MemoryShard.find, hget, Option.bind_none]
  have hpasses : ¬ (((none : Option ℕ).isNone = true ∧
        st.shard.hashChainIsFull (hashOfFingerprint k) = true) ∨
      ¬ st.shard.directory.canUpsert (hashOfFingerprint k) = true) := by
    simp [MemoryShard.hashChainIsFull, FixedPrehashedMap.canUpsert, hget, hupsert]
  have hinsert : st.shard.directory.insert (hashOfFingerprint k) st.shard.freeHead =
      some (none, st.shard.directory.set home ⟨BitVec.ofNat 32 k, st.shard.freeHead⟩) := by
    rw [FixedPrehashedMap.insert, hupsert, Option.map_some, fixedMapFingerprint_hashOfFingerprint]
  have hnew := tryNew_numberedItem
    (show { st.heap with
      usedBytes := st.heap.usedBytes + numberedItemBytes }.turns = [] from hturns) k
  have hadmit : ShardM.admitCharged (hashOfFingerprint k) (leBytes 8 k) [] 1#64 numberedItemBytes
      ⟨true, numberedItemBytes⟩ 0 none { st with
        heap := { st.heap with usedBytes := st.heap.usedBytes + numberedItemBytes } } = _ :=
    admitCharged_eq hslot hnew hinsert
  rw [ShardM.publish, bind_ok (get_apply st)]
  simp only [hfind, Option.bind_none, Option.any_none, Bool.false_eq_true, if_false]
  rw [if_neg (by decide), ShardM.insert, bind_assoc, bind_ok (get_apply st)]
  simp only [if_neg hpasses]
  rw [bind_assoc, bind_ok (chargeWithEviction_of_room hslot hturns hfits hroom)]
  rw [bind_ok hadmit]
  rfl

/-- The directory of the shard. -/
lemma Filled.homed (h : Filled n k st) : Homed n k st.shard.directory := ⟨h.directory, h.homes⟩

/-- What filling the first free slot does. -/
lemma Filled.published (h : Filled n k st) (hk : k < n) :
    Filled n (k + 1) (published st k (homeOf n k)) := by
  have hhomed := h.homed.set (Nat.zero_lt_of_lt hk)
  have hfree : st.shard.freeHead = k := by rw [h.freeHead, if_neg hk.ne]
  obtain ⟨c, hclock⟩ := h.clock
  have hset : ∀ i, i ≠ k → ∀ new : PolicySlot,
      freeNextOf (st.shard.policySlots.set k new) i = freeNextOf st.shard.policySlots i := by
    intro i hi new
    simp only [freeNextOf, policySlot, List.getD_eq_getElem?_getD,
      List.getElem?_set_ne (Ne.symm hi)]
  unfold Cache2.published
  rw [hfree]
  constructor
  case clock => exact ⟨_, by simp only [ShardM.fillSlot, hclock, EvictionState.insert]; rfl⟩
  case slots => simp [ShardM.fillSlot, h.slots]
  case policySlots =>
    simp [ShardM.fillSlot, hclock, EvictionState.insert, ClockState.insert, h.policySlots]
  case freeHead =>
    show freeNextOf st.shard.policySlots k = _
    rw [h.freeNext k le_rfl hk]
  case freeNext =>
    intro i hi hin
    rw [← h.freeNext i (by omega) hin]
    simp only [ShardM.fillSlot, hclock, EvictionState.insert, ClockState.insert]
    exact hset i (by omega) _
  case directory => exact hhomed.length
  case homes => exact hhomed.homes
  case used =>
    show st.heap.usedBytes + numberedItemBytes = _
    rw [h.used, Nat.mul_succ]
  case capacity => exact h.capacity

/-- **The next publication** takes the first free slot. -/
lemma Stored.publish (h : Stored n k st) (hn : n < 2 ^ 32) (hlarge : 2 ^ 32 ≤ n * 2) (hk : k < n) :
    ShardM.publish (hashOfFingerprint k) (leBytes 8 k) [] 1#64 numberedItemBytes st =
        .ok true (published st k (homeOf n k)) ∧
      Stored n (k + 1) (published st k (homeOf n k)) := by
  have hk32 : k < 2 ^ 32 := hk.trans hn
  have hfree : st.shard.freeHead = k := by rw [h.freeHead, if_neg hk.ne]
  have hslot : st.shard.freeHead ≠ noSlotIndex := by
    rw [hfree]
    unfold noSlotIndex noPolicySlot
    omega
  have hroom : st.heap.usedBytes + numberedItemBytes ≤ st.heap.capacityBytes := by
    rw [h.used, h.capacity, ← Nat.mul_succ]
    exact Nat.mul_le_mul_left _ hk
  have hfits : st.heap.usedBytes + numberedItemBytes < 2 ^ 64 := by
    rw [h.used]
    unfold numberedItemBytes
    omega
  refine ⟨publish_of_room (h.homed.get_eq hlarge hk32) (h.homed.findUpsertSlot_eq hlarge hk32)
    hslot h.turns hfits hroom, h.toFilled.published hk, ?_, ?_, ?_, ?_, ?_, ?_, h.turns⟩
  · simp only [published, ShardM.fillSlot, h.residents, EvictionState.insert, ClockState.insert,
      hfree, List.range_succ]
    rfl
  · intro i hi
    have hlt : k < st.shard.slots.length := by rwa [h.slots]
    by_cases hik : i = k
    · simp [published, ShardM.fillSlot, MemoryShard.entry, hfree, hik, hlt, h.next]
    · rw [← h.entries i (by omega)]
      simp [published, ShardM.fillSlot, MemoryShard.entry, hfree,
        List.getElem?_set_ne (Ne.symm hik)]
  · intro i hi
    have hlt : k < st.shard.policySlots.length := by rwa [h.policySlots]
    by_cases hik : i = k
    · simp [published, ShardM.fillSlot, h.residents, EvictionState.insert, ClockState.insert,
        policySlot, hfree, hik, hlt]
    · rw [← h.places i (by omega)]
      simp [published, ShardM.fillSlot, h.residents, EvictionState.insert, ClockState.insert,
        policySlot, hfree, List.getElem?_set_ne (Ne.symm hik)]
  · intro j hj
    have hlt : homeOf n k < st.shard.directory.slots.length := by
      rw [h.directory]
      exact fixedMapFingerprintStart_lt _ (by omega)
    show (st.shard.directory.set (homeOf n k) ⟨BitVec.ofNat 32 k, st.shard.freeHead⟩).slot _ = _
    rw [FixedPrehashedMap.slot_set hlt, hfree]
    by_cases hjk : j = k
    · rw [hjk, if_pos rfl]
    · rw [if_neg, h.mapped j (by omega)]
      intro heq
      exact hjk (homeOf_injective hlarge (by omega) hk32 heq)
  · intro i hi
    simp only [published, MemoryHeap.allocate, h.next]
    by_cases hik : i = k
    · simp [hik]
    · rw [Function.update_of_ne hik, Function.update_of_ne hik]
      exact h.values i (by omega)
  · show st.heap.next + 1 = k + 1
    rw [h.next]

/-- What is stored is resident. -/
lemma Stored.resident (h : Stored n k st) {i : ℕ} (hi : i < k) : Resident st (numberedItem i) := by
  refine ⟨i, ⟨i, noSlotIndex⟩, h.entries i hi, ?_, ?_, ?_⟩
  · rw [policyHash, h.places i hi]
    rfl
  · rw [(h.values i hi).1]
    rfl
  · rw [(h.values i hi).1]
    simp [numberedValue, numberedItem]

end Step

/-! ## The run -/

/-- The publications that fill a shard. -/
def publications (n : ℕ) : List (Access × MemoryRequest) :=
  (List.range n).map fun k =>
    (⟨false, []⟩, .publish (hashOfFingerprint k) (leBytes 8 k) [] 1#64)

/-- A store with one shard, which has `n` slots and room for as many publications. -/
def singleShardStore (n : ℕ) : MemoryStore :=
  ⟨[⟨⟨.new (numberedItemBytes * n) n .clock, .new (numberedItemBytes * n)⟩, false⟩], n⟩

lemma new_singleShardStore {n : ℕ} (hn : n ≤ maxPolicySlotIndex + 1) :
    MemoryStore.new (numberedItemBytes * n) n 1 .clock = some (singleShardStore n) := by
  have hshare : ∀ total, MemoryStore.shardShare total 1 0 = total := by
    intro total
    simp [MemoryStore.shardShare, Nat.mod_one]
  have hentries : MemoryStore.shardEntries (numberedItemBytes * n) n 1 0 = n := by
    rw [MemoryStore.shardEntries, hshare, hshare]
    unfold numberedItemBytes memoryEntryOverheadBytes
    omega
  simp [MemoryStore.new, MemoryStore.newShard, hshare, hentries, singleShardStore]

/-- All hashes go to the one shard. -/
lemma route_singleShard (m : MemoryStore) (hm : m.shards.length = 1) (hash : BitVec 64) :
    m.route hash = 0 := by
  rw [MemoryStore.route, hm, routeHash, if_pos ⟨0, rfl⟩, Nat.sub_self, Nat.and_zero]

/-- An operation on the one shard, while callers do nothing. -/
lemma withShard_singleShard {α : Type} {n : ℕ} {st st' : ShardState} {bypassed a : α}
    {operation : ShardM α} (hturns : st.heap.turns = []) (h : operation st = .ok a st') :
    MemoryStore.withShard ⟨[⟨st, false⟩], n⟩ 0 ⟨false, []⟩ bypassed operation =
      (some a, ⟨[⟨st', false⟩], n⟩) := by
  have hst : ({ st with heap := { st.heap with turns := [] } } : ShardState) = st := by
    rw [← hturns]
  simp only [MemoryStore.withShard, List.getElem?_cons_zero, Bool.or_self, Bool.false_eq_true,
    if_false, hst, h, List.set_cons_zero]

/-- A publication goes to the one shard. -/
lemma apply_numberedItem {n k : ℕ} {st st' : ShardState} {inserted : Bool} (hn : n ≠ 0)
    (hturns : st.heap.turns = [])
    (hpublish : ShardM.publish (hashOfFingerprint k) (leBytes 8 k) [] 1#64 numberedItemBytes st =
      .ok inserted st') :
    MemoryStore.apply ⟨[⟨st, false⟩], n⟩ ⟨false, []⟩
      (.publish (hashOfFingerprint k) (leBytes 8 k) [] 1#64) = ⟨[⟨st', false⟩], n⟩ := by
  have hbytes : memoryEntryBytes (leBytes 8 k) [] = some numberedItemBytes := by
    simp [memoryEntryBytes, checkedAdd, memoryEntryOverheadBytes, numberedItemBytes]
  rw [MemoryStore.apply, MemoryStore.publish, if_neg hn, hbytes,
    route_singleShard _ rfl (hashOfFingerprint k)]
  simp only
  rw [withShard_singleShard hturns hpublish]

/-- **After some publications**, their items are stored. -/
lemma run_publications {n : ℕ} (hn : n < 2 ^ 32) (hlarge : 2 ^ 32 ≤ n * 2) {k : ℕ} (hk : k ≤ n) :
    ∃ st, (singleShardStore n).run (publications k) = ⟨[⟨st, false⟩], n⟩ ∧ Stored n k st := by
  induction k with
  | zero => exact ⟨_, rfl, stored_new n⟩
  | succ k ih =>
    obtain ⟨st, hrun, hstored⟩ := ih (by omega)
    obtain ⟨hpublish, hstored'⟩ := hstored.publish hn hlarge (by omega)
    refine ⟨_, ?_, hstored'⟩
    rw [publications, List.range_succ, List.map_append, MemoryStore.run, List.foldl_append]
    exact (congrArg (fun m => MemoryStore.apply m _ _) hrun).trans
      (apply_numberedItem (by omega) hstored.turns hpublish)

/-! ## The last slot -/

/-- The number of slots of the largest shard. -/
def largestShard : ℕ := maxPolicySlotIndex + 1

/-- No entry of the directory has the fingerprint of the last item. -/
lemma Filled.last_lost {st : ShardState} (h : Filled largestShard largestShard st) {p : ℕ}
    (hlive : st.shard.directory.LiveAt p) :
    (st.shard.directory.slot p).fingerprint ≠ BitVec.ofNat 32 deletedValue := by
  obtain ⟨j, hj, -, hslot⟩ := h.homes p hlive.1
  intro hfingerprint
  have hdeleted : (st.shard.directory.slot p).value ≠ deletedValue := hlive.2
  rw [hslot] at hfingerprint hdeleted
  have heq := congrArg BitVec.toNat hfingerprint
  simp only [BitVec.toNat_ofNat] at heq hdeleted
  unfold largestShard maxPolicySlotIndex at hj
  unfold deletedValue at heq hdeleted
  omega

/-- The store with the largest shard, after as many publications as it has slots: all items are
resident, but no search finds the last one. -/
lemma run_largestShard :
    ∃ st, (singleShardStore largestShard).run (publications largestShard) =
        ⟨[⟨st, false⟩], largestShard⟩ ∧ Stored largestShard largestShard st ∧
      ∀ p, st.shard.directory.LiveAt p →
        (st.shard.directory.slot p).fingerprint ≠ BitVec.ofNat 32 deletedValue := by
  obtain ⟨st, hrun, hstored⟩ := run_publications (n := largestShard)
    (by unfold largestShard maxPolicySlotIndex; omega)
    (by unfold largestShard maxPolicySlotIndex; omega) le_rfl
  exact ⟨st, hrun, hstored, fun p hp => hstored.last_lost hp⟩

/-- The last item has a number. -/
lemma deletedValue_lt_largestShard : deletedValue < largestShard := by
  unfold largestShard maxPolicySlotIndex deletedValue
  omega

/-- **The shard is not consistent** when its last slot is in use: the entry is in no chain. -/
theorem lastSlot_not_consistent :
    ∃ m, MemoryStore.new (numberedItemBytes * largestShard) largestShard 1 .clock = some m ∧
      ¬ ∀ lock ∈ (m.run (publications largestShard)).shards, ShardConsistent lock.state := by
  refine ⟨_, new_singleShardStore le_rfl, fun hall => ?_⟩
  obtain ⟨st, hrun, hstored, hlost⟩ := run_largestShard
  obtain ⟨i, e, he, hhash, -⟩ := hstored.resident deletedValue_lt_largestShard
  rw [hrun] at hall
  obtain ⟨chains, hchains⟩ := (hall _ List.mem_cons_self).chains
  -- the entry is in a chain, and the directory knows where the chain starts
  have hmem : i ∈ chains (BitVec.ofNat 32 deletedValue) := by
    refine (hchains.mem_iff _ i).2 ⟨by rw [he]; rfl, ?_⟩
    rw [hhash]
    exact fixedMapFingerprint_hashOfFingerprint _
  cases hchain : chains (BitVec.ofNat 32 deletedValue) with
  | nil =>
    rw [hchain] at hmem
    cases hmem
  | cons head rest =>
    obtain ⟨p, hlive, hslot⟩ := (hchains.heads (BitVec.ofNat 32 deletedValue) head).2
      (by rw [hchain]; rfl)
    exact hlost p hlive (by rw [hslot])

/-- A deletion of a key that no entry of the directory has the fingerprint of does nothing. -/
lemma delete_lost {st : ShardState} {n : ℕ} {hash : BitVec 64} (hn : n ≠ 0)
    (hturns : st.heap.turns = []) (hlost : ∀ p, st.shard.directory.LiveAt p →
      (st.shard.directory.slot p).fingerprint ≠ fixedMapFingerprint hash)
    (key : List UInt8) (seqno : BitVec 64) :
    MemoryStore.delete ⟨[⟨st, false⟩], n⟩ ⟨false, []⟩ hash key seqno =
      (some true, ⟨[⟨st, false⟩], n⟩) := by
  have hget : st.shard.directory.get hash = none := by
    rw [FixedPrehashedMap.get, Option.map_eq_none_iff, Option.eq_none_iff_forall_ne_some]
    intro p hp
    obtain ⟨-, hlive, hfingerprint⟩ := FixedPrehashedMap.probeLoop_some hp
    exact hlost p hlive hfingerprint
  rw [MemoryStore.delete, if_neg hn, route_singleShard _ rfl hash]
  refine withShard_singleShard hturns ?_
  rw [ShardM.delete, bind_ok (get_apply _)]
  simp only [MemoryShard.find, hget, Option.bind_none]
  rfl

/-- **A deletion succeeds without removing the entry** of the last slot. -/
theorem lastSlot_not_sequenceOrder :
    ∃ m, MemoryStore.new (numberedItemBytes * largestShard) largestShard 1 .clock = some m ∧
      ¬ SequenceOrder m (publications largestShard) := by
  refine ⟨_, new_singleShardStore le_rfl, fun horder => ?_⟩
  obtain ⟨st, hrun, hstored, hlost⟩ := run_largestShard
  have hdeleted := horder.deleted ⟨false, []⟩ (numberedItem deletedValue).hash
    (numberedItem deletedValue).key (numberedItem deletedValue).seqno
  rw [hrun, delete_lost (by decide) hstored.turns (by
    rw [numberedItem, fixedMapFingerprint_hashOfFingerprint]; exact hlost)] at hdeleted
  refine (hdeleted rfl).1 (numberedItem deletedValue) ?_ rfl rfl (BitVec.le_refl _)
  refine ⟨⟨st, false⟩, ?_, hstored.resident deletedValue_lt_largestShard⟩
  rw [route_singleShard _ rfl]
  rfl

end Cache2
