import Cache2.Index.Storage

set_option relaxedAutoImplicit false
set_option autoImplicit false

/-!
# The Region index

The fixed-candidate point index (`region/index/mod.rs`). Every hash has a partition, a home
bucket in it and four candidate buckets at fixed displacements from the home. A bucket keeps a
fingerprint and the displacement, so the home of an occupant can be computed from the bucket's
number. Insertion uses a free candidate, or frees one by moving its occupant, or the occupant's
blocker, to another candidate of its own, or else evicts.

Every operation runs with its partition's lock held, so it is one atomic computation of
`Cache2.IndexM`.

## Main definitions

* `Cache2.SlotHeat` — two bits for each bucket: looked up once, looked up again.
* `Cache2.RegionIndex` — the index state.
* `Cache2.slotFromHome`, `Cache2.homeFromSlot` — candidate arithmetic.
* `Cache2.RegionIndex.lookupRaw`, `Cache2.RegionIndex.upsert`, `Cache2.RegionIndex.tryDelete`,
  `Cache2.RegionIndex.removeIfMatch`, `Cache2.RegionIndex.prepareReclaim`,
  `Cache2.RegionIndex.replaceIfMatch` — the operations.
-/

namespace Cache2

open Loop

/-! ## Heat -/

def referenceWordBits : ℕ := 64

/-- Two bitmaps over all buckets. -/
structure SlotHeat where
  seen : List (BitVec 64)
  hot : List (BitVec 64)
  deriving DecidableEq, Repr

namespace SlotHeat

/-- No bucket has been looked up. -/
def tryNew (slotCount : ℕ) : SlotHeat :=
  let wordCount := (slotCount + (referenceWordBits - 1)) / referenceWordBits
  ⟨List.replicate wordCount 0, List.replicate wordCount 0⟩

/-- Records a hit: the first one sets the seen bit, the next one the hot bit. -/
def mark (heat : SlotHeat) (slot : ℕ) : SlotHeat :=
  let word := slot / referenceWordBits
  let mask : BitVec 64 := 1 <<< (slot % referenceWordBits)
  match heat.seen[word]?, heat.hot[word]? with
  | some seen, some hot =>
    if hot &&& mask ≠ 0 then heat
    else if seen &&& mask = 0 then { heat with seen := heat.seen.set word (seen ||| mask) }
    else { heat with hot := heat.hot.set word (hot ||| mask) }
  | _, _ => heat

/-- Clears both bits of a bucket and tells whether it was hot. -/
def takeHot (heat : SlotHeat) (slot : ℕ) : Bool × SlotHeat :=
  let word := slot / referenceWordBits
  let mask : BitVec 64 := 1 <<< (slot % referenceWordBits)
  let wasHot := heat.hot[word]?.any fun current => current &&& mask ≠ 0
  let hot := if wasHot then heat.hot.modify word (· &&& ~~~mask) else heat.hot
  let wasSeen := heat.seen[word]?.any fun current => current &&& mask ≠ 0
  let seen := if wasSeen then heat.seen.modify word (· &&& ~~~mask) else heat.seen
  (wasHot, ⟨seen, hot⟩)

/-- Clears both bits of a bucket. -/
def clear (heat : SlotHeat) (slot : ℕ) : SlotHeat := (heat.takeHot slot).2

end SlotHeat

/-! ## Candidates -/

/-- The displacements of the four candidates. -/
def candidateOffsets : ℕ → ℕ
  | 0 => 0
  | 1 => 23
  | 2 => 61
  | _ => 97

/-- The distance of a candidate from its home, in a partition of `slotCount` buckets. -/
def candidateOffset (displacement slotCount : ℕ) : ℕ :=
  let offset := candidateOffsets displacement
  if offset < slotCount then offset else offset % slotCount

/-- The bucket at a displacement from a home. -/
def slotFromHome (home displacement slotCount : ℕ) : ℕ :=
  let slot := home + candidateOffset displacement slotCount
  if slot ≥ slotCount then slot - slotCount else slot

/-- The home of a bucket's occupant. -/
def homeFromSlot (slot displacement slotCount : ℕ) : ℕ :=
  let offset := candidateOffset displacement slotCount
  if slot ≥ offset then slot - offset else slotCount - (offset - slot)

/-- The home bucket of a hash in a partition of `slotCount` buckets. -/
def homeSlot (hash : Hash) (slotCount : ℕ) : ℕ := routeHash (hash.rotateLeft 32) slotCount

/-- The four candidates of a hash. -/
def candidateSlots (hash : Hash) (slotCount : ℕ) : ℕ → ℕ :=
  fun displacement => slotFromHome (homeSlot hash slotCount) displacement slotCount

/-- `candidates[..displacement].contains(&candidates[displacement])`: the candidate repeats an
earlier one, in a small partition. -/
def candidateRepeats (candidates : ℕ → ℕ) (displacement : ℕ) : Bool :=
  (List.range displacement).any fun earlier => candidates earlier == candidates displacement

/-- Mask of the fourteen bits of a fingerprint. -/
def fingerprintMask : ℕ := 2 ^ 14 - 1

/-- The fingerprint of a hash. -/
def fingerprint (hash : Hash) : ℕ :=
  let mixed := hash ^^^ hash.rotateLeft 19 ^^^ hash.rotateRight 23
  ((mixed >>> 17).toNat % 2 ^ 16) &&& fingerprintMask

/-- The bucket state of an entry. -/
def valueState (fingerprint displacement : ℕ) (entry : IndexEntry) : IndexSlotState :=
  .value fingerprint displacement entry

/-- The bucket holds an entry of the fingerprint at the displacement. -/
def tokenMatches (state : IndexSlotState) (fingerprint displacement : ℕ) : Bool :=
  match state with
  | .value current currentDisplacement _ =>
    current == fingerprint && currentDisplacement == displacement
  | .empty => false

/-- The bucket holds an entry of the fingerprint at the displacement, for the given address. -/
def tokenLocationMatches (state : IndexSlotState) (fingerprint displacement : ℕ)
    (location : PackedLocation) : Bool :=
  match state with
  | .value current currentDisplacement entry =>
    current == fingerprint && currentDisplacement == displacement &&
      entry.location.indexEquivalent location
  | .empty => false

/-! ## The index -/

/-- What reclaim does about a record. -/
inductive ReclaimIndexAction
  | missing
  | removed
  | reinsert
  deriving DecidableEq, Repr

/-- The Region index. -/
structure RegionIndex where
  storage : PartitionedIndexStorage
  heat : SlotHeat
  activityCountersEnabled : Bool
  relocations : BitVec 64
  overflowEvictions : BitVec 64
  conditionalRemoveMisses : BitVec 64
  conditionalReplaceMisses : BitVec 64
  deriving DecidableEq, Repr

/-- Computations on the index. -/
abbrev IndexM := EStateM IndexStorageError RegionIndex

namespace RegionIndex

/-- An index over a storage. -/
def fromStorage (storage : PartitionedIndexStorage) : RegionIndex :=
  { storage
    heat := SlotHeat.tryNew storage.slotCount
    activityCountersEnabled := false
    relocations := 0
    overflowEvictions := 0
    conditionalRemoveMisses := 0
    conditionalReplaceMisses := 0 }

/-- Switches the activity counters on or off. -/
def setActivityCountersEnabled (enabled : Bool) : IndexM Unit :=
  modify fun idx => { idx with activityCountersEnabled := enabled }

/-- A computation on the storage. -/
def onStorage {α : Type} (f : StorageM α) : IndexM α :=
  zoom (·.storage) (fun storage idx => { idx with storage }) f

/-- The partition of a hash. -/
def hashPartition (hash : Hash) : IndexM IndexPartitionRange := do
  let ranges := (← get).storage.ranges
  let partition := indexPartitionFor hash ranges.length
  pure (ranges.getD partition ⟨0, 0, 0, 0, 0⟩)

/-- Changes the heat. -/
def modifyHeat (f : SlotHeat → SlotHeat) : IndexM Unit :=
  modify fun idx => { idx with heat := f idx.heat }

/-- Changes a counter, when counting is on. -/
def recordActivity (f : RegionIndex → RegionIndex) : IndexM Unit := do
  if (← get).activityCountersEnabled then modify f

/-- Counts relocations. -/
def recordRelocations (n : BitVec 64) : IndexM Unit :=
  recordActivity fun idx => { idx with relocations := idx.relocations + n }

/-- Counts an eviction. -/
def recordOverflowEviction : IndexM Unit :=
  recordActivity fun idx => { idx with overflowEvictions := idx.overflowEvictions + 1 }

/-- Counts a conditional removal that found nothing. -/
def recordConditionalRemoveMiss : IndexM Unit :=
  recordActivity fun idx => { idx with conditionalRemoveMisses := idx.conditionalRemoveMisses + 1 }

/-- Counts a conditional replacement that found nothing. -/
def recordConditionalReplaceMiss : IndexM Unit :=
  recordActivity fun idx =>
    { idx with conditionalReplaceMisses := idx.conditionalReplaceMisses + 1 }

section Operations

variable (crc : List UInt8 → BitVec 32)

/-- Reads a bucket of a partition. -/
def slotState (partition : IndexPartitionRange) (slot : ℕ) : IndexM IndexSlotState :=
  onStorage (PartitionedIndexStorage.stateAt crc partition slot)

/-- Replaces a bucket and forgets its heat. -/
def replaceSlot (partition : IndexPartitionRange) (slot : ℕ) (previous next : IndexSlotState) :
    IndexM Unit := do
  let globalSlot ← orThrow (partition.globalSlot slot)
  onStorage (PartitionedIndexStorage.replaceObservedState crc partition slot previous next)
  modifyHeat (·.clear globalSlot)

/-- One iteration of a candidate loop that looks for the first bucket accepted by `accepts` and
handles it with `found`. -/
def candidateStep {β : Type} (partition : IndexPartitionRange) (candidates : ℕ → ℕ)
    (accepts : IndexSlotState → ℕ → Bool) (found : ℕ → ℕ → IndexSlotState → IndexM β)
    (displacement : ℕ) (_ : Unit) : IndexM (Loop.Flow β Unit) := do
  let slot := candidates displacement
  if candidateRepeats candidates displacement then pure (.next ())
  else do
    let state ← slotState crc partition slot
    if accepts state displacement then do
      let result ← found displacement slot state
      pure (.done result)
    else pure (.next ())

/-- The loop over the four candidates that `lookup_raw`, `prepare_reclaim`, `replace_if_match`
and `remove_matching` share: the first accepted bucket decides, `missed` runs when there is
none. -/
def forCandidates {β : Type} (hash : Hash) (accepts : IndexSlotState → ℕ → Bool)
    (found : IndexPartitionRange → ℕ → ℕ → IndexSlotState → IndexM β) (missed : IndexM β) :
    IndexM β := do
  let partition ← hashPartition hash
  let candidates := candidateSlots hash partition.slotCount
  match ← forReturn (candidateStep crc partition candidates accepts (found partition))
      (List.range indexCandidates) () with
  | .done result => pure result
  | .next () => missed

/-- Returns one fingerprint candidate. -/
def lookupRaw (hash : Hash) : IndexM (Option IndexEntry) :=
  forCandidates crc hash
    (fun state displacement => tokenMatches state (fingerprint hash) displacement)
    (fun partition _ slot state => do
      let globalSlot ← orThrow (partition.globalSlot slot)
      modifyHeat (·.mark globalSlot)
      match state with
      | .value _ _ entry => pure (some entry)
      | .empty => pure none)
    (pure none)

/-- What the first pass of `upsert` over the candidates remembers. -/
structure UpsertProbe where
  observed : ℕ → IndexSlotState
  firstEmpty : Option ℕ

/-- One candidate of the first pass: an entry of the same token is overwritten. -/
def upsertProbeStep (partition : IndexPartitionRange) (candidates : ℕ → ℕ) (fp : ℕ)
    (supplied : IndexEntry) (displacement : ℕ) (probe : UpsertProbe) :
    IndexM (Loop.Flow Bool UpsertProbe) := do
  let slot := candidates displacement
  if candidateRepeats candidates displacement then pure (.next probe)
  else do
    let state ← slotState crc partition slot
    let observed := Function.update probe.observed displacement state
    match state with
    | .empty =>
      pure (.next ⟨observed, some (probe.firstEmpty.getD displacement)⟩)
    | .value current currentDisplacement _ =>
      if current == fp && currentDisplacement == displacement then do
        replaceSlot crc partition slot state (valueState fp displacement supplied)
        pure (.done true)
      else pure (.next ⟨observed, probe.firstEmpty⟩)

/-- One target of the one-hop search: the occupant of `sourceSlot` moves to a free alternate. -/
def oneHopTargetStep (partition : IndexPartitionRange) (sourceDisplacement sourceSlot : ℕ)
    (source : IndexSlotState) (occupantFingerprint occupantDisplacement occupantHome : ℕ)
    (occupantEntry : IndexEntry) (fp : ℕ) (supplied : IndexEntry)
    (targetDisplacement : ℕ) (_ : Unit) : IndexM (Loop.Flow Bool Unit) := do
  if targetDisplacement == occupantDisplacement then pure (.next ())
  else do
    let targetSlot := slotFromHome occupantHome targetDisplacement partition.slotCount
    if targetSlot == sourceSlot then pure (.next ())
    else do
      match ← slotState crc partition targetSlot with
      | .value _ _ _ => pure (.next ())
      | .empty => do
        replaceSlot crc partition targetSlot .empty
          (valueState occupantFingerprint targetDisplacement occupantEntry)
        replaceSlot crc partition sourceSlot source (valueState fp sourceDisplacement supplied)
        recordRelocations 1
        pure (.done true)

/-- One source of the one-hop search. -/
def oneHopStep (partition : IndexPartitionRange) (candidates : ℕ → ℕ)
    (observed : ℕ → IndexSlotState) (fp : ℕ) (supplied : IndexEntry)
    (sourceDisplacement : ℕ) (_ : Unit) : IndexM (Loop.Flow Bool Unit) := do
  let sourceSlot := candidates sourceDisplacement
  if candidateRepeats candidates sourceDisplacement then pure (.next ())
  else
    match observed sourceDisplacement with
    | .empty => pure (.next ())
    | .value occupantFingerprint occupantDisplacement occupantEntry => do
      if occupantDisplacement ≥ indexCandidates then
        throw (.invalidArgument "index bucket displacement is out of range")
      else
        let occupantHome := homeFromSlot sourceSlot occupantDisplacement partition.slotCount
        forReturn (oneHopTargetStep crc partition sourceDisplacement sourceSlot
          (observed sourceDisplacement) occupantFingerprint occupantDisplacement occupantHome
          occupantEntry fp supplied) (List.range indexCandidates) ()

/-- One target of the two-hop search: the middle occupant moves to a free alternate, the source
occupant to the middle bucket. -/
def twoHopTargetStep (partition : IndexPartitionRange)
    (sourceDisplacement sourceSlot : ℕ) (source : IndexSlotState) (sourceFingerprint : ℕ)
    (sourceEntry : IndexEntry) (middleDisplacement middleSlot : ℕ) (middle : IndexSlotState)
    (middleFingerprint middleCurrentDisplacement middleHome : ℕ) (middleEntry : IndexEntry)
    (fp : ℕ) (supplied : IndexEntry) (targetDisplacement : ℕ) (_ : Unit) :
    IndexM (Loop.Flow Bool Unit) := do
  if targetDisplacement == middleCurrentDisplacement then pure (.next ())
  else do
    let targetSlot := slotFromHome middleHome targetDisplacement partition.slotCount
    if targetSlot == sourceSlot || targetSlot == middleSlot then pure (.next ())
    else do
      match ← slotState crc partition targetSlot with
      | .value _ _ _ => pure (.next ())
      | .empty => do
        replaceSlot crc partition targetSlot .empty
          (valueState middleFingerprint targetDisplacement middleEntry)
        replaceSlot crc partition middleSlot middle
          (valueState sourceFingerprint middleDisplacement sourceEntry)
        replaceSlot crc partition sourceSlot source (valueState fp sourceDisplacement supplied)
        recordRelocations 2
        pure (.done true)

/-- One middle bucket of the two-hop search. -/
def twoHopMiddleStep (partition : IndexPartitionRange) (sourceDisplacement sourceSlot : ℕ)
    (source : IndexSlotState) (sourceFingerprint sourceCurrentDisplacement sourceHome : ℕ)
    (sourceEntry : IndexEntry) (fp : ℕ) (supplied : IndexEntry) (middleDisplacement : ℕ)
    (_ : Unit) : IndexM (Loop.Flow Bool Unit) := do
  if middleDisplacement == sourceCurrentDisplacement then pure (.next ())
  else do
    let middleSlot := slotFromHome sourceHome middleDisplacement partition.slotCount
    if middleSlot == sourceSlot then pure (.next ())
    else do
      let middle ← slotState crc partition middleSlot
      match middle with
      | .empty => pure (.next ())
      | .value middleFingerprint middleCurrentDisplacement middleEntry => do
        if middleCurrentDisplacement ≥ indexCandidates then
          throw (.invalidArgument "index bucket displacement is out of range")
        else
          let middleHome := homeFromSlot middleSlot middleCurrentDisplacement partition.slotCount
          forReturn (twoHopTargetStep crc partition sourceDisplacement sourceSlot source
            sourceFingerprint sourceEntry middleDisplacement middleSlot middle middleFingerprint
            middleCurrentDisplacement middleHome middleEntry fp supplied)
            (List.range indexCandidates) ()

/-- One source of the two-hop search. -/
def twoHopStep (partition : IndexPartitionRange) (candidates : ℕ → ℕ)
    (observed : ℕ → IndexSlotState) (fp : ℕ) (supplied : IndexEntry)
    (sourceDisplacement : ℕ) (_ : Unit) : IndexM (Loop.Flow Bool Unit) := do
  let sourceSlot := candidates sourceDisplacement
  if candidateRepeats candidates sourceDisplacement then pure (.next ())
  else
    match observed sourceDisplacement with
    | .empty => pure (.next ())
    | .value sourceFingerprint sourceCurrentDisplacement sourceEntry => do
      if sourceCurrentDisplacement ≥ indexCandidates then
        throw (.invalidArgument "index bucket displacement is out of range")
      else
        let sourceHome := homeFromSlot sourceSlot sourceCurrentDisplacement partition.slotCount
        forReturn (twoHopMiddleStep crc partition sourceDisplacement sourceSlot
          (observed sourceDisplacement) sourceFingerprint sourceCurrentDisplacement sourceHome
          sourceEntry fp supplied) (List.range indexCandidates) ()

/-- The displacement of the candidate that is evicted. -/
def victimDisplacement (hash : Hash) (candidates : ℕ → ℕ) : ℕ :=
  let victimStart := (hash.rotateLeft 17).toNat &&& (indexCandidates - 1)
  let steps := (List.range indexCandidates).map fun step =>
    (victimStart + step) &&& (indexCandidates - 1)
  (steps.find? fun displacement => !candidateRepeats candidates displacement).getD 0

/-- Evicts one candidate. -/
def evictCandidate (partition : IndexPartitionRange) (hash : Hash) (candidates : ℕ → ℕ)
    (observed : ℕ → IndexSlotState) (fp : ℕ) (supplied : IndexEntry) : IndexM Bool := do
  let displacement := victimDisplacement hash candidates
  replaceSlot crc partition (candidates displacement) (observed displacement)
    (valueState fp displacement supplied)
  recordOverflowEviction
  pure true

/-- Installs a value with up to two bounded relocations and one bounded eviction. -/
def upsert (hash : Hash) (supplied : IndexEntry) : IndexM Bool := do
  let partition ← hashPartition hash
  let fp := fingerprint hash
  let candidates := candidateSlots hash partition.slotCount
  match ← forReturn (upsertProbeStep crc partition candidates fp supplied)
      (List.range indexCandidates) ⟨fun _ => .empty, none⟩ with
  | .done result => pure result
  | .next probe =>
    match probe.firstEmpty with
    | some displacement => do
      replaceSlot crc partition (candidates displacement) .empty
        (valueState fp displacement supplied)
      pure true
    | none => do
      match ← forReturn (oneHopStep crc partition candidates probe.observed fp supplied)
          (List.range indexCandidates) () with
      | .done result => pure result
      | .next () => do
        match ← forReturn (twoHopStep crc partition candidates probe.observed fp supplied)
            (List.range indexCandidates) () with
        | .done result => pure result
        | .next () => evictCandidate crc partition hash candidates probe.observed fp supplied

/-- Removes the matching entry, whatever its location when none is expected. -/
def removeMatching (hash : Hash) (expectedLocation : Option PackedLocation) : IndexM Bool :=
  forCandidates crc hash
    (fun state displacement =>
      match expectedLocation with
      | some location => tokenLocationMatches state (fingerprint hash) displacement location
      | none => tokenMatches state (fingerprint hash) displacement)
    (fun partition _ slot state => do
      replaceSlot crc partition slot state .empty
      pure true)
    (do
      if expectedLocation.isSome then recordConditionalRemoveMiss
      pure false)

/-- Deletes the entry of a hash. -/
def tryDelete (hash : Hash) : IndexM Bool := removeMatching crc hash none

/-- Clears a mapping only while it still points at the reclaimed address. -/
def removeIfMatch (hash : Hash) (oldLocation : PackedLocation) : IndexM Bool :=
  removeMatching crc hash (some oldLocation)

/-- Classifies one reclaim candidate: a hot current mapping is kept for a later conditional
rewrite, every other current mapping is removed. -/
def prepareReclaim (hash : Hash) (oldLocation : PackedLocation) : IndexM ReclaimIndexAction :=
  forCandidates crc hash
    (fun state displacement =>
      tokenLocationMatches state (fingerprint hash) displacement oldLocation)
    (fun partition _ slot state => do
      let globalSlot ← orThrow (partition.globalSlot slot)
      let (wasHot, heat) := (← get).heat.takeHot globalSlot
      modifyHeat fun _ => heat
      if wasHot then pure .reinsert
      else do
        replaceSlot crc partition slot state .empty
        pure .removed)
    (do
      recordConditionalRemoveMiss
      pure .missing)

/-- Repoints one still-current source mapping. -/
def replaceIfMatch (hash : Hash) (oldLocation : PackedLocation) (replacement : IndexEntry) :
    IndexM Bool :=
  forCandidates crc hash
    (fun state displacement =>
      tokenLocationMatches state (fingerprint hash) displacement oldLocation)
    (fun partition displacement slot state => do
      replaceSlot crc partition slot state
        (valueState (fingerprint hash) displacement replacement)
      pure true)
    (do
      recordConditionalReplaceMiss
      pure false)

end Operations

end RegionIndex

end Cache2
