import Cache2.Lib.Queue
import Cache2.Index.Slot
import Cache2.Region.Metadata

set_option relaxedAutoImplicit false
set_option autoImplicit false

/-!
# The Region manager

The in-memory authority over the Regions (`region/manager.rs`): which Region each append shard
writes to, how far its bytes are reserved, submitted and completed, and in which queue every other
Region waits. Regions move between the places through two-phase rotations and reclaims; bytes of
an Active Region are reserved for one record at a time, staged into an open span, padded to a
device page, submitted and completed.

A computation that fails keeps the manager it has reached, as in the source. Allocation succeeds
here; the capacities that the queues reserve are fields, so that exceeding one can be stated.
`cancel_reservation` and `request_rotation_for_test` exist only in tests and are left out.

## Main definitions

* `Cache2.RegionManager` — the manager; `Cache2.ManagerM` — computations on it.
* `Cache2.RegionManager.reserveAppend`, `stageReservation`, `reserveWritePadding`,
  `sealWriteSpan`, `sealWriteSpanWithPadding`, `completeWriteSpan` — the append path.
* `Cache2.RegionManager.beginRotation`, `finishRotation`, `beginReclaim`, `finishReclaim` — the
  moves between the places.

## Main results

* `Cache2.RegionManager.reserveAppend_eq_ok` and its companions — what each operation does when
  it succeeds.
* `Cache2.RegionManager.reserveAppend_eq_error` and its companions — how each operation fails:
  with the manager unchanged, up to a request for rotation.
-/

namespace Cache2

open Loop

/-! ## Data -/

/-- Alignment of direct device writes. -/
def directIoAlignment : ℕ := 4096

/-- The greatest 64-bit word. -/
def u64Max : ℕ := 2 ^ 64 - 1

/-- The identity of the metadata that a manager was built from. -/
structure RegionMetadataBinding where
  cacheUuid : PersistentId
  dataIdentity : PersistentId
  dataSuperblockGeneration : BitVec 64
  imageIdentity : PersistentId
  imageGeneration : BitVec 64
  storageFingerprint : BitVec 64
  deriving DecidableEq, Repr

/-- Why an operation is refused. -/
inductive RegionMutationError
  | invalidShard
  | invalidRecordLength
  | wouldBlock
  | flushBeforeRotation
  | regionFull
  | staleReceipt
  | sequenceExhausted
  | arithmeticOverflow
  | invariant (message : String)
  deriving DecidableEq, Repr

/-- The tail of a shard's Region, reserved for one record until it is staged. -/
structure RegionAppendReservation where
  shardId : ℕ
  regionId : ℕ
  regionCreatedSeqno : ℕ
  offset : ℕ
  recordBytes : ℕ
  seqno : ℕ
  deriving DecidableEq, Repr

/-- The end of the reserved bytes. -/
def RegionAppendReservation.endOffset (receipt : RegionAppendReservation) : Option ℕ :=
  Word.checkedAdd 64 receipt.offset receipt.recordBytes

/-- The padding at the end of an open span. -/
structure RegionPaddingReceipt where
  shardId : ℕ
  regionId : ℕ
  spanStartOffset : ℕ
  unpaddedEndOffset : ℕ
  paddedEndOffset : ℕ
  recordCount : ℕ
  maxSeqno : ℕ
  deriving DecidableEq, Repr

/-- The bytes of padding. -/
def RegionPaddingReceipt.paddingBytes (padding : RegionPaddingReceipt) : Option ℕ :=
  (Word.checkedSub padding.paddedEndOffset padding.unpaddedEndOffset).filter (· < 2 ^ 32)

/-- A span of records handed to the device. -/
structure RegionWriteSpan where
  shardId : ℕ
  regionId : ℕ
  startOffset : ℕ
  endOffset : ℕ
  recordCount : ℕ
  maxSeqno : ℕ
  deriving DecidableEq, Repr

/-- A rotation that has begun. -/
structure RegionRotationReceipt where
  shardId : ℕ
  sealedRegionId : ℕ
  activatedRegionId : ℕ
  activatedCreatedSeqno : ℕ
  deriving DecidableEq, Repr

/-- A Region whose records are being scanned for reuse. -/
structure RegionReclaimReceipt where
  regionId : ℕ
  createdSeqno : ℕ
  usedOffset : ℕ
  physicalRecordCount : ℕ
  deriving DecidableEq, Repr

/-- The Region that the next rotation of a shard would activate. -/
structure RegionRotationCandidate where
  shardId : ℕ
  victimRegionId : ℕ
  victimCreatedSeqno : ℕ
  deriving DecidableEq, Repr

/-- A candidate with the Regions it concerns. -/
structure RegionRotationSelection where
  candidate : RegionRotationCandidate
  oldIndex : ℕ
  victimIndex : ℕ
  deriving DecidableEq, Repr

/-- The staged records of a shard. -/
structure OpenWriteSpan where
  regionId : ℕ
  startOffset : ℕ
  endOffset : ℕ
  recordCount : ℕ
  maxSeqno : ℕ
  deriving DecidableEq, Repr

/-- What a shard has outstanding. -/
structure AppendShardState where
  tail : Option RegionAppendReservation := none
  openSpan : Option OpenWriteSpan := none
  pendingPadding : Option RegionPaddingReceipt := none
  submittedSpan : Option RegionWriteSpan := none
  rotationRequested : Bool := false
  rotation : Option RegionRotationReceipt := none
  deriving DecidableEq, Repr

/-- Whether a shard has nothing outstanding. -/
def AppendShardState.isQuiescent (shard : AppendShardState) : Bool :=
  shard.tail.isNone && shard.openSpan.isNone && shard.pendingPadding.isNone &&
    shard.submittedSpan.isNone && shard.rotation.isNone

/-- A Region. `completedUsed` covers the completed writes, `reservedUsed` the reserved bytes. -/
structure RegionDesc where
  state : RegionState
  createdSeqno : ℕ
  completedUsed : ℕ
  reservedUsed : ℕ
  physicalRecordCount : ℕ
  deriving DecidableEq, Repr

/-- A Region without records. -/
def RegionDesc.empty (state : RegionState) (createdSeqno : ℕ) : RegionDesc :=
  ⟨state, createdSeqno, 0, 0, 0⟩

/-- The manager. The last three fields are the capacities that the two queues and the reclaiming
set have reserved. -/
structure RegionManager where
  binding : RegionMetadataBinding
  regionSize : ℕ
  nextSeqno : ℕ
  regions : List RegionDesc
  activeRegions : List ℕ
  appendStates : List AppendShardState
  freeRegions : List ℕ
  sealedRegions : List ℕ
  reclaiming : List RegionReclaimReceipt
  reclaimLimit : ℕ
  queueCapacity : ℕ
  rotations : ℕ
  freeCapacity : ℕ
  sealedCapacity : ℕ
  reclaimingCapacity : ℕ
  deriving DecidableEq, Repr

/-- Computations on a manager. -/
abbrev ManagerM := EStateM RegionMutationError RegionManager

/-- A value as an unsigned 32-bit one. -/
def tryU32 (n : ℕ) : Option ℕ := if n < 2 ^ 32 then some n else none

/-- The distance from an offset to the next multiple of the device alignment, as the code computes
it. -/
def alignmentPadding (offset : ℕ) : ℕ := Word.wrappingNeg 64 offset &&& (directIoAlignment - 1)

namespace RegionManager

/-- Replaces a shard. -/
def setShard (m : RegionManager) (shardId : ℕ) (shard : AppendShardState) : RegionManager :=
  { m with appendStates := m.appendStates.set shardId shard }

/-- Replaces a Region. -/
def setRegion (m : RegionManager) (regionId : ℕ) (region : RegionDesc) : RegionManager :=
  { m with regions := m.regions.set regionId region }

/-- The number a Region was created with. -/
def generation (m : RegionManager) (regionId : ℕ) : ℕ :=
  (m.regions[regionId]?.map (·.createdSeqno)).getD 0

/-! ## Operations -/

/-- Whether a background owner should reclaim a sealed Region. -/
def reclaimNeeded (m : RegionManager) : Bool :=
  m.reclaiming.length < m.reclaimLimit && !m.sealedRegions.isEmpty &&
    Word.saturatingAdd 64 m.freeRegions.length m.reclaiming.length < max m.activeRegions.length 1

/-- Whether a reclaim may still reinsert records. -/
def reclaimCanReinsert (m : RegionManager) : Bool := !m.freeRegions.isEmpty

/-- Sets the number of Regions that may be reclaimed at a time. -/
def configureReclaimWorkers (workers : ℕ) : EStateM RegionMetadataError RegionManager Unit := do
  let m ← get
  rejectIf (workers = 0 ∨ workers > m.activeRegions.length ∨ m.reclaiming ≠ [])
    (.invalidField "reclaim_workers")
  set { m with
    reclaimingCapacity := max m.reclaimingCapacity workers
    reclaimLimit := workers }

/-- Keeps a request for rotation for an append that staging has refused: the next record does not
fit after the aligned flush. -/
def requestRotationForAppend (shardId recordBytes : ℕ) : ManagerM Bool := do
  let m ← get
  let regionId ← okOr .invalidShard m.activeRegions[shardId]?
  let region ← okOr (.invariant "active Region id is out of bounds") m.regions[regionId]?
  rejectIf (region.state ≠ .active) (.invariant "data shard does not own an Active Region")
  let padding := alignmentPadding region.reservedUsed
  let finish ← okOr .arithmeticOverflow ((Word.checkedAdd 64 region.reservedUsed padding).bind
    fun finish => Word.checkedAdd 64 finish recordBytes)
  if m.regionSize < finish then do
    let shard ← okOr .invalidShard m.appendStates[shardId]?
    set (m.setShard shardId { shard with rotationRequested := true })
    pure true
  else pure false

/-- Draws the next sequence number; the greatest word is never issued. -/
def allocateSeqno : ManagerM ℕ := do
  let m ← get
  rejectIf (m.nextSeqno = u64Max) .sequenceExhausted
  set { m with nextSeqno := m.nextSeqno + 1 }
  pure m.nextSeqno

/-- Reserves the tail of a shard's Active Region for one record. -/
def reserveAppend (shardId recordBytes : ℕ) : ManagerM RegionAppendReservation := do
  rejectIf (recordBytes = 0 ∨ recordBytes % recordAlignment ≠ 0) .invalidRecordLength
  let m ← get
  let shard ← okOr .invalidShard m.appendStates[shardId]?
  rejectIf (shard.tail.isSome ∨ shard.pendingPadding.isSome ∨ shard.rotation.isSome) .wouldBlock
  let regionId ← okOr .invalidShard m.activeRegions[shardId]?
  let region ← okOr (.invariant "active Region id is out of bounds") m.regions[regionId]?
  rejectIf (region.state ≠ .active) (.invariant "data shard does not own an Active Region")
  let finish ← okOr .arithmeticOverflow (Word.checkedAdd 64 region.reservedUsed recordBytes)
  if m.regionSize < finish then do
    -- the request outlives the last write, so that its completion can rotate
    set (m.setShard shardId { shard with rotationRequested := true })
    throw (if shard.openSpan.isSome ∨ shard.submittedSpan.isSome then .flushBeforeRotation
      else .regionFull)
  else do
    let offset ← okOr .arithmeticOverflow (tryU32 region.reservedUsed)
    let seqno ← allocateSeqno
    let receipt : RegionAppendReservation :=
      ⟨shardId, regionId, region.createdSeqno, offset, recordBytes, seqno⟩
    modify fun m => (m.setRegion regionId { region with reservedUsed := finish }).setShard shardId
      { shard with tail := some receipt }
    pure receipt

/-- The open span after staging one more record. -/
def nextSpan (receipt : RegionAppendReservation) (finish : ℕ) :
    Option OpenWriteSpan → Except RegionMutationError OpenWriteSpan
  | some span =>
    if span.regionId = receipt.regionId ∧ span.endOffset = receipt.offset ∧
        span.maxSeqno < receipt.seqno then
      match Word.checkedAdd 64 span.recordCount 1 with
      | some recordCount => .ok { span with
          endOffset := finish
          recordCount
          maxSeqno := max span.maxSeqno receipt.seqno }
      | none => .error .arithmeticOverflow
    else .error (.invariant "staged reservations are not contiguous")
  | none => .ok ⟨receipt.regionId, receipt.offset, finish, 1, receipt.seqno⟩

/-- Commits a reservation to the open span of its shard. -/
def stageReservation (receipt : RegionAppendReservation) : ManagerM Unit := do
  let m ← get
  let shard ← okOr .invalidShard m.appendStates[receipt.shardId]?
  rejectIf (shard.tail ≠ some receipt) .staleReceipt
  let finish ← okOr .arithmeticOverflow receipt.endOffset
  let next ← orThrow (nextSpan receipt finish shard.openSpan)
  set (m.setShard receipt.shardId { shard with openSpan := some next, tail := none })

/-- Reserves the bytes that align the end of the open span. -/
def reserveWritePadding (shardId : ℕ) : ManagerM (Option RegionPaddingReceipt) := do
  let m ← get
  let shard ← okOr .invalidShard m.appendStates[shardId]?
  rejectIf (shard.tail.isSome ∨ shard.pendingPadding.isSome ∨ shard.submittedSpan.isSome ∨
    shard.rotation.isSome) .wouldBlock
  let opened ← okOr (.invariant "data shard has no staged records") shard.openSpan
  rejectIf (opened.startOffset ≥ opened.endOffset ∨ opened.startOffset % directIoAlignment ≠ 0 ∨
    opened.endOffset % recordAlignment ≠ 0 ∨ opened.recordCount = 0 ∨ opened.maxSeqno = 0)
    (.invariant "open write span identity is invalid")
  let region ← okOr (.invariant "open write span Region is out of bounds")
    m.regions[opened.regionId]?
  rejectIf (m.activeRegions[shardId]? ≠ some opened.regionId ∨ region.state ≠ .active ∨
    opened.maxSeqno < region.createdSeqno ∨ region.reservedUsed ≠ opened.endOffset)
    (.invariant "open write span lost its Region authority")
  let padding := alignmentPadding opened.endOffset
  if padding = 0 then pure none
  else do
    let padded ← okOr .arithmeticOverflow (Word.checkedAdd 64 opened.endOffset padding)
    rejectIf (padding ≥ directIoAlignment ∨ padding % recordAlignment ≠ 0 ∨
      padded % directIoAlignment ≠ 0 ∨ padded > m.regionSize)
      (.invariant "write span padding is invalid")
    let receipt : RegionPaddingReceipt :=
      ⟨shardId, opened.regionId, opened.startOffset, opened.endOffset, padded, opened.recordCount,
        opened.maxSeqno⟩
    set ((m.setRegion opened.regionId { region with reservedUsed := padded }).setShard shardId
      { shard with pendingPadding := some receipt })
    pure (some receipt)

/-- Submits the open span up to the given end. -/
def submitOpenSpan (shardId endOffset : ℕ) : ManagerM RegionWriteSpan := do
  let m ← get
  let shard ← okOr .invalidShard m.appendStates[shardId]?
  let opened ← okOr (.invariant "data shard has no staged records") shard.openSpan
  rejectIf (opened.startOffset % directIoAlignment ≠ 0 ∨ endOffset % directIoAlignment ≠ 0 ∨
    endOffset ≤ opened.startOffset) (.invariant "submitted write span is not direct-I/O aligned")
  let receipt : RegionWriteSpan :=
    ⟨shardId, opened.regionId, opened.startOffset, endOffset, opened.recordCount, opened.maxSeqno⟩
  set (m.setShard shardId { shard with
    openSpan := none
    pendingPadding := none
    submittedSpan := some receipt })
  pure receipt

/-- Submits an open span that ends at a device page. -/
def sealWriteSpan (shardId : ℕ) : ManagerM RegionWriteSpan := do
  let m ← get
  let shard ← okOr .invalidShard m.appendStates[shardId]?
  rejectIf (shard.tail.isSome ∨ shard.pendingPadding.isSome ∨ shard.rotation.isSome ∨
    shard.submittedSpan.isSome) .wouldBlock
  let opened ← okOr (.invariant "data shard has no staged records") shard.openSpan
  submitOpenSpan shardId opened.endOffset

/-- Submits an open span with its padding. -/
def sealWriteSpanWithPadding (padding : RegionPaddingReceipt) : ManagerM RegionWriteSpan := do
  let m ← get
  let shard ← okOr .invalidShard m.appendStates[padding.shardId]?
  rejectIf (shard.tail.isSome ∨ shard.rotation.isSome ∨ shard.submittedSpan.isSome ∨
    shard.pendingPadding ≠ some padding) .staleReceipt
  let opened ← okOr .staleReceipt shard.openSpan
  rejectIf (opened.regionId ≠ padding.regionId ∨ opened.startOffset ≠ padding.spanStartOffset ∨
    opened.endOffset ≠ padding.unpaddedEndOffset ∨ opened.recordCount ≠ padding.recordCount ∨
    opened.maxSeqno ≠ padding.maxSeqno ∨
    padding.paddingBytes.all (fun bytes => bytes = 0 ∨ bytes ≥ directIoAlignment) ∨
    padding.paddedEndOffset % directIoAlignment ≠ 0) .staleReceipt
  let region ← okOr .staleReceipt m.regions[padding.regionId]?
  rejectIf (m.activeRegions[padding.shardId]? ≠ some padding.regionId ∨ region.state ≠ .active ∨
    padding.maxSeqno < region.createdSeqno ∨ region.reservedUsed ≠ padding.paddedEndOffset)
    .staleReceipt
  submitOpenSpan padding.shardId padding.paddedEndOffset

/-- Advances the completed prefix over a submitted span. -/
def completeWriteSpan (receipt : RegionWriteSpan) : ManagerM Unit := do
  let m ← get
  let shard ← okOr .invalidShard m.appendStates[receipt.shardId]?
  rejectIf (shard.submittedSpan ≠ some receipt) .staleReceipt
  let region ← okOr .staleReceipt m.regions[receipt.regionId]?
  rejectIf (m.activeRegions[receipt.shardId]? ≠ some receipt.regionId ∨ region.state ≠ .active ∨
    receipt.maxSeqno < region.createdSeqno ∨ region.completedUsed ≠ receipt.startOffset ∨
    receipt.endOffset > region.reservedUsed ∨ receipt.startOffset ≥ receipt.endOffset ∨
    receipt.recordCount = 0) .staleReceipt
  let physicalRecordCount ← okOr .arithmeticOverflow
    (Word.checkedAdd 64 region.physicalRecordCount receipt.recordCount)
  set ((m.setRegion receipt.regionId { region with
    completedUsed := receipt.endOffset
    physicalRecordCount }).setShard receipt.shardId { shard with submittedSpan := none })

/-- Selects the Region that a rotation would activate: the first free one. -/
def selectRotation (shardId : ℕ) : ManagerM RegionRotationSelection := do
  let m ← get
  let shard ← okOr .invalidShard m.appendStates[shardId]?
  rejectIf (shard.rotationRequested = false ∨ shard.tail.isSome ∨ shard.openSpan.isSome ∨
    shard.pendingPadding.isSome ∨ shard.submittedSpan.isSome ∨ shard.rotation.isSome) .wouldBlock
  let oldRegionId ← okOr .invalidShard m.activeRegions[shardId]?
  let old ← okOr (.invariant "active Region id is out of bounds") m.regions[oldRegionId]?
  rejectIf (old.state ≠ .active ∨ old.reservedUsed ≠ old.completedUsed) .wouldBlock
  let victimRegionId ← okOr .wouldBlock m.freeRegions.head?
  let victim ← okOr (.invariant "rotation victim id is out of bounds") m.regions[victimRegionId]?
  rejectIf (victim.state ≠ .free ∨ victimRegionId = oldRegionId)
    (.invariant "rotation victim queue is inconsistent")
  pure ⟨⟨shardId, victimRegionId, victim.createdSeqno⟩, oldRegionId, victimRegionId⟩

/-- The candidate of the selection. -/
def rotationCandidate (shardId : ℕ) : ManagerM RegionRotationCandidate := do
  let selection ← selectRotation shardId
  pure selection.candidate

/-- Begins a rotation: activates the free Region and withholds the outgoing one. -/
def beginRotation (candidate : RegionRotationCandidate) : ManagerM RegionRotationReceipt := do
  let selection ← selectRotation candidate.shardId
  rejectIf (selection.candidate ≠ candidate) .staleReceipt
  let createdSeqno ← allocateSeqno
  let m ← get
  set { m with freeRegions := m.freeRegions.tail }
  rejectIf (m.freeRegions.head? ≠ some candidate.victimRegionId)
    (.invariant "rotation victim changed during selection")
  modify fun m => { m with
    regions := (m.regions.modify selection.oldIndex fun old => { old with state := .sealed }).set
      selection.victimIndex (.empty .active createdSeqno)
    activeRegions := m.activeRegions.set candidate.shardId candidate.victimRegionId }
  let sealedRegionId ← okOr .arithmeticOverflow (tryU32 selection.oldIndex)
  let receipt : RegionRotationReceipt :=
    ⟨candidate.shardId, sealedRegionId, candidate.victimRegionId, createdSeqno⟩
  modify fun m => { m with appendStates := m.appendStates.modify candidate.shardId fun shard =>
    { shard with rotationRequested := false, rotation := some receipt } }
  pure receipt

/-- Finishes a rotation: the outgoing Region joins the sealed queue. -/
def finishRotation (receipt : RegionRotationReceipt) : ManagerM Unit := do
  let m ← get
  let shard ← okOr .invalidShard m.appendStates[receipt.shardId]?
  rejectIf (shard.rotation ≠ some receipt) .staleReceipt
  let outgoing ← okOr .staleReceipt m.regions[receipt.sealedRegionId]?
  let activated ← okOr .staleReceipt m.regions[receipt.activatedRegionId]?
  rejectIf (m.activeRegions[receipt.shardId]? ≠ some receipt.activatedRegionId ∨
    outgoing.state ≠ .sealed ∨ activated.state ≠ .active ∨
    activated.createdSeqno ≠ receipt.activatedCreatedSeqno) .staleReceipt
  rejectIf (Word.saturatingAdd 64 m.freeRegions.length m.sealedRegions.length ≥ m.queueCapacity)
    (.invariant "sealed Region queue exceeded its reserved capacity")
  set { m.setShard receipt.shardId { shard with rotation := none } with
    sealedRegions := m.sealedRegions ++ [receipt.sealedRegionId]
    rotations := Word.saturatingAdd 64 m.rotations 1 }

/-- Begins a reclaim of the oldest sealed Region, when the clean reserve is low. -/
def beginReclaim : ManagerM (Option RegionReclaimReceipt) := do
  let m ← get
  if m.reclaimNeeded then do
    let regionId ← okOr (.invariant "reclaim selection lost its sealed Region")
      m.sealedRegions.head?
    set { m with sealedRegions := m.sealedRegions.tail }
    let region ← okOr (.invariant "reclaim Region id is out of bounds") m.regions[regionId]?
    rejectIf (region.state ≠ .sealed ∨ region.completedUsed ≠ region.reservedUsed)
      (.invariant "reclaim victim is not a completed sealed Region")
    let receipt : RegionReclaimReceipt :=
      ⟨regionId, region.createdSeqno, region.completedUsed, region.physicalRecordCount⟩
    modify fun m => { m with reclaiming := m.reclaiming ++ [receipt] }
    pure (some receipt)
  else pure none

/-- Finishes a reclaim: the Region joins the free queue. -/
def finishReclaim (receipt : RegionReclaimReceipt) : ManagerM Unit := do
  let m ← get
  let position ← okOr .staleReceipt (m.reclaiming.findIdx? (· = receipt))
  let region ← okOr .staleReceipt m.regions[receipt.regionId]?
  rejectIf (region.state ≠ .sealed ∨ region.createdSeqno ≠ receipt.createdSeqno ∨
    region.completedUsed ≠ receipt.usedOffset ∨
    region.physicalRecordCount ≠ receipt.physicalRecordCount) .staleReceipt
  rejectIf (Word.saturatingAdd 64 m.freeRegions.length m.sealedRegions.length ≥ m.queueCapacity)
    (.invariant "free Region queue exceeded its reserved capacity")
  set { m.setRegion receipt.regionId (.empty .free 0) with
    freeRegions := m.freeRegions ++ [receipt.regionId]
    reclaiming := Queue.swapRemove m.reclaiming position }

/-! ## What the operations do -/

/-- A shard with the Region it writes to. -/
structure ShardAt (m : RegionManager) (shardId : ℕ) (shard : AppendShardState) (regionId : ℕ)
    (region : RegionDesc) : Prop where
  shard_eq : m.appendStates[shardId]? = some shard
  active_eq : m.activeRegions[shardId]? = some regionId
  region_eq : m.regions[regionId]? = some region

section Specs

variable {m m' : RegionManager} {shardId : ℕ} {e : RegionMutationError}

/-- Drawing a sequence number. -/
lemma allocateSeqno_eq (m : RegionManager) : allocateSeqno m =
    if m.nextSeqno = u64Max then .error .sequenceExhausted m
    else .ok m.nextSeqno { m with nextSeqno := m.nextSeqno + 1 } := by
  unfold allocateSeqno
  by_cases h : m.nextSeqno = u64Max
  · simp only [get_bind, rejectIf, if_pos h]
    rfl
  · simp only [get_bind, rejectIf, if_neg h]
    rfl

/-- A sequence that draws a number succeeds when numbers are left. -/
lemma allocateSeqno_bind_eq_ok {α : Type} {g : ℕ → ManagerM α} {a : α} :
    (allocateSeqno >>= g) m = .ok a m' ↔ m.nextSeqno ≠ u64Max ∧
      g m.nextSeqno { m with nextSeqno := m.nextSeqno + 1 } = .ok a m' := by
  rw [bind_apply, allocateSeqno_eq]
  split_ifs with h <;> simp [h]

/-- How a sequence that draws a number fails. -/
lemma allocateSeqno_bind_eq_error {α : Type} {g : ℕ → ManagerM α} :
    (allocateSeqno >>= g) m = .error e m' ↔
      (m.nextSeqno = u64Max ∧ e = .sequenceExhausted ∧ m' = m) ∨
      (m.nextSeqno ≠ u64Max ∧
        g m.nextSeqno { m with nextSeqno := m.nextSeqno + 1 } = .error e m') := by
  rw [bind_apply, allocateSeqno_eq]
  split_ifs with h <;> simp [h, eq_comm]

/-- A value that fits 32 bits. -/
lemma tryU32_eq_some {n a : ℕ} : tryU32 n = some a ↔ n < 2 ^ 32 ∧ a = n := by
  unfold tryU32
  split_ifs with h
  · simp only [Option.some.injEq, h, true_and]
    exact eq_comm
  · simp only [h, false_and]

/-- The padding reaches the next multiple of the device alignment. -/
lemma alignmentPadding_eq (offset : ℕ) :
    alignmentPadding offset = (4096 - offset % 4096) % 4096 :=
  Word.wrappingNeg_and_mask (w := 64) (n := 12) (by decide) offset

/-- A request for rotation succeeds with the shard's flag raised, or without an effect. -/
lemma requestRotationForAppend_eq_ok {n : ℕ} {needed : Bool}
    (h : requestRotationForAppend shardId n m = .ok needed m') :
    m' = m ∨ ∃ shard, m.appendStates[shardId]? = some shard ∧
      m' = m.setShard shardId { shard with rotationRequested := true } := by
  simp only [requestRotationForAppend, rejectIf_bind_eq_ok, okOr_bind_eq_ok, get_bind, ite_run,
    set_bind, pure_apply] at h
  obtain ⟨id, -, region, -, -, finish, -, ⟨-, shard, hs, h⟩ | ⟨-, h⟩⟩ := h
  · cases h
    exact .inr ⟨shard, hs, rfl⟩
  · cases h
    exact .inl rfl

/-- A request for rotation fails without an effect. -/
lemma requestRotationForAppend_eq_error {n : ℕ}
    (h : requestRotationForAppend shardId n m = .error e m') :
    m' = m ∧ ∀ message, e = .invariant message →
      ∃ id, m.activeRegions[shardId]? = some id ∧
        ∀ region, m.regions[id]? = some region → region.state ≠ .active := by
  simp only [requestRotationForAppend, rejectIf_bind_eq_error, okOr_bind_eq_error, get_bind,
    ite_run, set_bind, pure_apply, reduceCtorEq, and_false, exists_false, or_false] at h
  rcases h with ⟨-, rfl, rfl⟩ | ⟨id, hid, ⟨hnone, rfl, rfl⟩ | ⟨region, hregion, ⟨hst, rfl, rfl⟩ |
    ⟨-, ⟨-, rfl, rfl⟩ | ⟨finish, -, -, -, rfl, rfl⟩⟩⟩⟩
  · exact ⟨rfl, by simp⟩
  · exact ⟨rfl, fun _ _ => ⟨id, hid, by simp [hnone]⟩⟩
  · refine ⟨rfl, fun _ _ => ⟨id, hid, fun r hr => ?_⟩⟩
    rw [hregion, Option.some.injEq] at hr
    exact hr ▸ hst
  · exact ⟨rfl, by simp⟩
  · exact ⟨rfl, by simp⟩

/-- What a successful reservation does. -/
lemma reserveAppend_eq_ok {n : ℕ} {r : RegionAppendReservation} :
    reserveAppend shardId n m = .ok r m' ↔
    ∃ shard regionId region, ShardAt m shardId shard regionId region ∧
      (n ≠ 0 ∧ n % recordAlignment = 0) ∧
      (shard.tail = none ∧ shard.pendingPadding = none ∧ shard.rotation = none) ∧
      (region.state = .active ∧ region.reservedUsed + n < 2 ^ 64 ∧
        region.reservedUsed + n ≤ m.regionSize ∧ region.reservedUsed < 2 ^ 32) ∧
      m.nextSeqno ≠ u64Max ∧
      r = ⟨shardId, regionId, region.createdSeqno, region.reservedUsed, n, m.nextSeqno⟩ ∧
      m' = ({ m with nextSeqno := m.nextSeqno + 1 }.setRegion regionId
        { region with reservedUsed := region.reservedUsed + n }).setShard shardId
        { shard with tail := some r } := by
  simp only [reserveAppend, rejectIf_bind_eq_ok, okOr_bind_eq_ok, get_bind, ite_run, set_bind,
    throw_apply, allocateSeqno_bind_eq_ok, modify_bind, pure_apply, Word.checkedAdd_eq_some,
    tryU32_eq_some, not_or, not_not, Option.not_isSome_iff_eq_none]
  constructor
  · rintro ⟨hn, shard, hs, hq, id, ha, region, hr, hst, _, ⟨hlt, rfl⟩,
      ⟨-, h⟩ | ⟨hsize, _, ⟨hoff, rfl⟩, hseq, h⟩⟩
    · cases h
    · cases h
      exact ⟨shard, id, region, ⟨hs, ha, hr⟩, hn, hq, ⟨hst, hlt, by omega, hoff⟩, hseq, rfl, rfl⟩
  · rintro ⟨shard, id, region, ⟨hs, ha, hr⟩, hn, hq, ⟨hst, hlt, hsize, hoff⟩, hseq, rfl, rfl⟩
    exact ⟨hn, shard, hs, hq, id, ha, region, hr, hst, _, ⟨hlt, rfl⟩,
      .inr ⟨by omega, _, ⟨hoff, rfl⟩, hseq, rfl⟩⟩

/-- A reservation fails with the manager unchanged, up to a request for rotation when the Region
is full. -/
lemma reserveAppend_eq_error {n : ℕ} (h : reserveAppend shardId n m = .error e m') :
    (m' = m ∨ (e = .flushBeforeRotation ∨ e = .regionFull) ∧
      ∃ shard, m.appendStates[shardId]? = some shard ∧
        m' = m.setShard shardId { shard with rotationRequested := true }) ∧
    ∀ message, e = .invariant message → ∃ id, m.activeRegions[shardId]? = some id ∧
        ∀ region, m.regions[id]? = some region → region.state ≠ .active := by
  simp only [reserveAppend, rejectIf_bind_eq_error, okOr_bind_eq_error, get_bind,
    ite_run, set_bind, throw_apply, allocateSeqno_bind_eq_error, modify_bind, pure_apply,
    reduceCtorEq, and_false, or_false] at h
  rcases h with ⟨-, rfl, rfl⟩ | ⟨-, ⟨-, rfl, rfl⟩ | ⟨shard, hs, ⟨-, rfl, rfl⟩ | ⟨-, ⟨-, rfl, rfl⟩ |
    ⟨id, hid, ⟨hnone, rfl, rfl⟩ | ⟨region, hregion, ⟨hst, rfl, rfl⟩ | ⟨-, ⟨-, rfl, rfl⟩ |
    ⟨finish, -, ⟨-, h⟩ | ⟨-, ⟨-, rfl, rfl⟩ | ⟨_, -, -, rfl, rfl⟩⟩⟩⟩⟩⟩⟩⟩⟩
  · exact ⟨.inl rfl, by simp⟩
  · exact ⟨.inl rfl, by simp⟩
  · exact ⟨.inl rfl, by simp⟩
  · exact ⟨.inl rfl, by simp⟩
  · exact ⟨.inl rfl, fun _ _ => ⟨id, hid, by simp [hnone]⟩⟩
  · refine ⟨.inl rfl, fun _ _ => ⟨id, hid, fun r hr => ?_⟩⟩
    rw [hregion, Option.some.injEq] at hr
    exact hr ▸ hst
  · exact ⟨.inl rfl, by simp⟩
  · split_ifs at h with hspan
    · cases h
      exact ⟨.inr ⟨.inl rfl, shard, hs, rfl⟩, by simp⟩
    · cases h
      exact ⟨.inr ⟨.inr rfl, shard, hs, rfl⟩, by simp⟩
  · exact ⟨.inl rfl, by simp⟩
  · exact ⟨.inl rfl, by simp⟩

/-- The open span after staging, when the record continues it. -/
lemma nextSpan_eq_ok {r : RegionAppendReservation} {finish : ℕ} {opened : Option OpenWriteSpan}
    {next : OpenWriteSpan} : nextSpan r finish opened = .ok next ↔
      (opened = none ∧ next = ⟨r.regionId, r.offset, finish, 1, r.seqno⟩) ∨
      ∃ span, opened = some span ∧ (span.regionId = r.regionId ∧ span.endOffset = r.offset ∧
        span.maxSeqno < r.seqno) ∧ span.recordCount + 1 < 2 ^ 64 ∧
        next = { span with
          endOffset := finish
          recordCount := span.recordCount + 1
          maxSeqno := max span.maxSeqno r.seqno } := by
  cases opened with
  | none => simp [nextSpan, eq_comm]
  | some span =>
    unfold nextSpan
    simp only [reduceCtorEq, false_and, false_or, Option.some.injEq, exists_eq_left']
    by_cases hc : span.regionId = r.regionId ∧ span.endOffset = r.offset ∧ span.maxSeqno < r.seqno
    · rw [if_pos hc]
      unfold Word.checkedAdd
      by_cases hlt : span.recordCount + 1 < 2 ^ 64
      · rw [if_pos hlt]
        simp only [Except.ok.injEq]
        exact ⟨fun h => ⟨hc, hlt, h.symm⟩, fun h => h.2.2.symm⟩
      · rw [if_neg hlt]
        exact ⟨fun h => (by cases h), fun h => absurd h.2.1 hlt⟩
    · rw [if_neg hc]
      exact ⟨fun h => (by cases h), fun h => absurd h.1 hc⟩

/-- What staging a reservation does. -/
lemma stageReservation_eq_ok {r : RegionAppendReservation} : stageReservation r m = .ok () m' ↔
    ∃ shard next, m.appendStates[r.shardId]? = some shard ∧ shard.tail = some r ∧
      r.offset + r.recordBytes < 2 ^ 64 ∧
      nextSpan r (r.offset + r.recordBytes) shard.openSpan = .ok next ∧
      m' = m.setShard r.shardId { shard with openSpan := some next, tail := none } := by
  simp only [stageReservation, rejectIf_bind_eq_ok, okOr_bind_eq_ok, get_bind, orThrow_bind_eq_ok,
    set_apply, RegionAppendReservation.endOffset, Word.checkedAdd_eq_some, not_not]
  constructor
  · rintro ⟨shard, hs, ht, _, ⟨hlt, rfl⟩, next, hnext, h⟩
    cases h
    exact ⟨shard, next, hs, ht, hlt, hnext, rfl⟩
  · rintro ⟨shard, next, hs, ht, hlt, hnext, rfl⟩
    exact ⟨shard, hs, ht, _, ⟨hlt, rfl⟩, next, hnext, rfl⟩

/-- Staging fails without an effect; it reports a broken invariant only when the record does not
continue the open span. -/
lemma stageReservation_eq_error {r : RegionAppendReservation}
    (h : stageReservation r m = .error e m') :
    m' = m ∧ ∀ message, e = .invariant message → ∃ shard span,
      m.appendStates[r.shardId]? = some shard ∧ shard.tail = some r ∧
      shard.openSpan = some span ∧ ¬ (span.regionId = r.regionId ∧ span.endOffset = r.offset ∧
        span.maxSeqno < r.seqno) := by
  simp only [stageReservation, rejectIf_bind_eq_error, okOr_bind_eq_error, get_bind,
    orThrow_bind_eq_error, set_apply, reduceCtorEq, and_false, exists_false, or_false, not_not] at h
  rcases h with ⟨-, rfl, rfl⟩ | ⟨shard, hs, ⟨-, rfl, rfl⟩ | ⟨ht, ⟨-, rfl, rfl⟩ |
    ⟨finish, -, hnext, rfl⟩⟩⟩
  · exact ⟨rfl, by simp⟩
  · exact ⟨rfl, by simp⟩
  · exact ⟨rfl, by simp⟩
  · refine ⟨rfl, fun message hm => ?_⟩
    subst hm
    cases hspan : shard.openSpan with
    | none => simp [hspan, nextSpan] at hnext
    | some span =>
      refine ⟨shard, span, hs, ht, hspan, fun hc => ?_⟩
      rw [hspan, nextSpan, if_pos hc] at hnext
      split at hnext <;> cases hnext

/-- What a successful padding does. Without bytes to add, nothing changes. -/
lemma reserveWritePadding_eq_ok {p : Option RegionPaddingReceipt} :
    reserveWritePadding shardId m = .ok p m' ↔
    ∃ shard opened region, ShardAt m shardId shard opened.regionId region ∧
      shard.openSpan = some opened ∧
      (shard.tail = none ∧ shard.pendingPadding = none ∧ shard.submittedSpan = none ∧
        shard.rotation = none) ∧
      (opened.startOffset < opened.endOffset ∧ opened.startOffset % directIoAlignment = 0 ∧
        opened.endOffset % recordAlignment = 0 ∧ opened.recordCount ≠ 0 ∧ opened.maxSeqno ≠ 0) ∧
      (region.state = .active ∧ region.createdSeqno ≤ opened.maxSeqno ∧
        region.reservedUsed = opened.endOffset) ∧
      ((alignmentPadding opened.endOffset = 0 ∧ p = none ∧ m' = m) ∨
        alignmentPadding opened.endOffset ≠ 0 ∧ ∃ padded,
          padded = opened.endOffset + alignmentPadding opened.endOffset ∧ padded < 2 ^ 64 ∧
          (alignmentPadding opened.endOffset < directIoAlignment ∧
            alignmentPadding opened.endOffset % recordAlignment = 0 ∧
            padded % directIoAlignment = 0 ∧ padded ≤ m.regionSize) ∧
          p = some ⟨shardId, opened.regionId, opened.startOffset, opened.endOffset, padded,
            opened.recordCount, opened.maxSeqno⟩ ∧
          m' = (m.setRegion opened.regionId { region with reservedUsed := padded }).setShard shardId
            { shard with pendingPadding := p }) := by
  simp only [reserveWritePadding, rejectIf_bind_eq_ok, okOr_bind_eq_ok, get_bind, ite_run, set_bind,
    pure_apply, Word.checkedAdd_eq_some, not_or, not_not, Option.not_isSome_iff_eq_none, not_le,
    not_lt, ge_iff_le, gt_iff_lt]
  constructor
  · rintro ⟨shard, hs, hq, opened, ho, hspan, region, hr, ⟨ha, hst, hc, hres⟩, h⟩
    refine ⟨shard, opened, region, ⟨hs, ha, hr⟩, ho, hq, hspan, ⟨hst, hc, hres⟩, ?_⟩
    rcases h with ⟨hz, h⟩ | ⟨hz, _, ⟨hlt, rfl⟩, hpad, h⟩
    · cases h
      exact .inl ⟨hz, rfl, rfl⟩
    · cases h
      exact .inr ⟨hz, _, rfl, hlt, hpad, rfl, rfl⟩
  · rintro ⟨shard, opened, region, ⟨hs, ha, hr⟩, ho, hq, hspan, ⟨hst, hc, hres⟩, h⟩
    refine ⟨shard, hs, hq, opened, ho, hspan, region, hr, ⟨ha, hst, hc, hres⟩, ?_⟩
    rcases h with ⟨hz, rfl, rfl⟩ | ⟨hz, _, rfl, hlt, hpad, rfl, rfl⟩
    · exact .inl ⟨hz, rfl⟩
    · exact .inr ⟨hz, _, ⟨hlt, rfl⟩, hpad, rfl⟩

/-- How padding fails: without an effect, and with a broken invariant only when the shard has no
open span or one that has lost its Region. -/
lemma reserveWritePadding_eq_error (h : reserveWritePadding shardId m = .error e m') :
    m' = m ∧ ∀ message, e = .invariant message →
      ∃ shard, m.appendStates[shardId]? = some shard ∧
        (shard.tail = none ∧ shard.pendingPadding = none ∧ shard.submittedSpan = none ∧
          shard.rotation = none) ∧
        ∀ opened, shard.openSpan = some opened →
          ¬ (opened.startOffset < opened.endOffset ∧ opened.startOffset % directIoAlignment = 0 ∧
            opened.endOffset % recordAlignment = 0 ∧ opened.recordCount ≠ 0 ∧
            opened.maxSeqno ≠ 0 ∧ opened.endOffset < 2 ^ 63 ∧
            m.activeRegions[shardId]? = some opened.regionId ∧
            ∃ region, m.regions[opened.regionId]? = some region ∧ region.state = .active ∧
              region.createdSeqno ≤ opened.maxSeqno ∧ region.reservedUsed = opened.endOffset ∧
              region.reservedUsed ≤ m.regionSize ∧ m.regionSize % directIoAlignment = 0) := by
  simp only [reserveWritePadding, rejectIf_bind_eq_error, okOr_bind_eq_error, get_bind, ite_run,
    set_bind, pure_apply, reduceCtorEq, and_false, or_false, false_or, not_or, not_not,
    Option.not_isSome_iff_eq_none] at h
  rcases h with ⟨-, rfl, rfl⟩ | ⟨shard, hs, ⟨-, rfl, rfl⟩ | ⟨hq, ⟨ho, rfl, rfl⟩ |
    ⟨opened, ho, ⟨hid, rfl, rfl⟩ | ⟨-, ⟨hnone, rfl, rfl⟩ | ⟨region, hr, ⟨hauth, rfl, rfl⟩ |
    ⟨-, hz, ⟨-, rfl, rfl⟩ | ⟨padded, hpadded, hpad, rfl, rfl⟩⟩⟩⟩⟩⟩⟩
  · exact ⟨rfl, by simp⟩
  · exact ⟨rfl, by simp⟩
  · exact ⟨rfl, fun _ _ => ⟨shard, hs, hq, by simp [ho]⟩⟩
  · refine ⟨rfl, fun _ _ => ⟨shard, hs, hq, fun o hopened hall => ?_⟩⟩
    obtain rfl : opened = o := by simpa [ho] using hopened
    obtain ⟨h1, h2, h3, h4, h5, -⟩ := hall
    rcases hid with h | h | h | h | h <;> omega
  · refine ⟨rfl, fun _ _ => ⟨shard, hs, hq, fun o hopened hall => ?_⟩⟩
    obtain rfl : opened = o := by simpa [ho] using hopened
    obtain ⟨-, -, -, -, -, -, -, region, hregion, -⟩ := hall
    rw [hnone] at hregion
    cases hregion
  · refine ⟨rfl, fun _ _ => ⟨shard, hs, hq, fun o hopened hall => ?_⟩⟩
    obtain rfl : opened = o := by simpa [ho] using hopened
    obtain ⟨-, -, -, -, -, -, ha, region', hregion, hst, hc, hres, -⟩ := hall
    obtain rfl : region = region' := by simpa [hr] using hregion
    rcases hauth with h | h | h | h <;> first | omega | contradiction
  · exact ⟨rfl, by simp⟩
  · refine ⟨rfl, fun _ _ => ⟨shard, hs, hq, fun o hopened hall => ?_⟩⟩
    obtain rfl : opened = o := by simpa [ho] using hopened
    obtain ⟨-, -, halign, -, -, -, -, region', -, -, -, hres, hle, hsize⟩ := hall
    rw [Word.checkedAdd_eq_some] at hpadded
    obtain ⟨-, rfl⟩ := hpadded
    rw [alignmentPadding_eq] at hpad
    simp only [directIoAlignment, recordAlignment] at *
    omega

/-- The shard after its open span has been submitted up to `finish`. -/
def submitted (shardId finish : ℕ) (shard : AppendShardState) (opened : OpenWriteSpan) :
    AppendShardState :=
  { shard with
    openSpan := none
    pendingPadding := none
    submittedSpan := some ⟨shardId, opened.regionId, opened.startOffset, finish,
      opened.recordCount, opened.maxSeqno⟩ }

/-- What submitting an open span does. -/
lemma submitOpenSpan_eq_ok {finish : ℕ} {span : RegionWriteSpan} :
    submitOpenSpan shardId finish m = .ok span m' ↔
    ∃ shard opened, m.appendStates[shardId]? = some shard ∧ shard.openSpan = some opened ∧
      (opened.startOffset % directIoAlignment = 0 ∧ finish % directIoAlignment = 0 ∧
        opened.startOffset < finish) ∧
      span = ⟨shardId, opened.regionId, opened.startOffset, finish, opened.recordCount,
        opened.maxSeqno⟩ ∧
      m' = m.setShard shardId (submitted shardId finish shard opened) := by
  simp only [submitOpenSpan, rejectIf_bind_eq_ok, okOr_bind_eq_ok, get_bind, set_bind, pure_apply,
    not_or, not_not, not_le]
  constructor
  · rintro ⟨shard, hs, opened, ho, hal, h⟩
    cases h
    exact ⟨shard, opened, hs, ho, hal, rfl, rfl⟩
  · rintro ⟨shard, opened, hs, ho, hal, rfl, rfl⟩
    exact ⟨shard, hs, opened, ho, hal, rfl⟩

/-- How submitting an open span fails. -/
lemma submitOpenSpan_eq_error {finish : ℕ} (h : submitOpenSpan shardId finish m = .error e m') :
    m' = m ∧ ∀ message, e = .invariant message → ∃ shard,
      m.appendStates[shardId]? = some shard ∧ ∀ opened, shard.openSpan = some opened →
        ¬ (opened.startOffset % directIoAlignment = 0 ∧ finish % directIoAlignment = 0 ∧
          opened.startOffset < finish) := by
  simp only [submitOpenSpan, rejectIf_bind_eq_error, okOr_bind_eq_error, get_bind, set_bind,
    pure_apply, reduceCtorEq, and_false, or_false] at h
  rcases h with ⟨-, rfl, rfl⟩ | ⟨shard, hs, ⟨ho, rfl, rfl⟩ | ⟨opened, ho, hal, rfl, rfl⟩⟩
  · exact ⟨rfl, by simp⟩
  · exact ⟨rfl, fun _ _ => ⟨shard, hs, by simp [ho]⟩⟩
  · refine ⟨rfl, fun _ _ => ⟨shard, hs, fun o hopened hall => ?_⟩⟩
    obtain rfl : opened = o := by simpa [ho] using hopened
    rcases hal with h | h | h <;> omega

/-- What submitting an aligned open span does. -/
lemma sealWriteSpan_eq_ok {span : RegionWriteSpan} : sealWriteSpan shardId m = .ok span m' ↔
    ∃ shard opened, m.appendStates[shardId]? = some shard ∧ shard.openSpan = some opened ∧
      (shard.tail = none ∧ shard.pendingPadding = none ∧ shard.rotation = none ∧
        shard.submittedSpan = none) ∧
      (opened.startOffset % directIoAlignment = 0 ∧ opened.endOffset % directIoAlignment = 0 ∧
        opened.startOffset < opened.endOffset) ∧
      span = ⟨shardId, opened.regionId, opened.startOffset, opened.endOffset, opened.recordCount,
        opened.maxSeqno⟩ ∧
      m' = m.setShard shardId (submitted shardId opened.endOffset shard opened) := by
  simp only [sealWriteSpan, rejectIf_bind_eq_ok, okOr_bind_eq_ok, get_bind, submitOpenSpan_eq_ok,
    not_or, Option.not_isSome_iff_eq_none]
  constructor
  · rintro ⟨shard, hs, hq, opened, ho, shard', opened', hs', ho', h⟩
    obtain rfl : shard = shard' := by simpa [hs] using hs'
    obtain rfl : opened = opened' := by simpa [ho] using ho'
    exact ⟨shard, opened, hs, ho, hq, h⟩
  · rintro ⟨shard, opened, hs, ho, hq, h⟩
    exact ⟨shard, hs, hq, opened, ho, shard, opened, hs, ho, h⟩

/-- How submitting an aligned open span fails. -/
lemma sealWriteSpan_eq_error (h : sealWriteSpan shardId m = .error e m') :
    m' = m ∧ ∀ message, e = .invariant message → ∃ shard,
      m.appendStates[shardId]? = some shard ∧ ∀ opened, shard.openSpan = some opened →
        ¬ (opened.startOffset % directIoAlignment = 0 ∧
          opened.endOffset % directIoAlignment = 0 ∧ opened.startOffset < opened.endOffset) := by
  simp only [sealWriteSpan, rejectIf_bind_eq_error, okOr_bind_eq_error, get_bind] at h
  rcases h with ⟨-, rfl, rfl⟩ | ⟨shard, hs, ⟨-, rfl, rfl⟩ | ⟨-, ⟨ho, rfl, rfl⟩ | ⟨opened, ho, h⟩⟩⟩
  · exact ⟨rfl, by simp⟩
  · exact ⟨rfl, by simp⟩
  · exact ⟨rfl, fun _ _ => ⟨shard, hs, by simp [ho]⟩⟩
  · obtain ⟨rfl, hmessage⟩ := submitOpenSpan_eq_error h
    refine ⟨rfl, fun message hm => ?_⟩
    obtain ⟨shard', hs', hall⟩ := hmessage message hm
    obtain rfl : shard = shard' := by simpa [hs] using hs'
    refine ⟨shard, hs, fun o hopened => ?_⟩
    obtain rfl : opened = o := by simpa [ho] using hopened
    exact hall opened hopened

/-- What submitting a padded open span does. -/
lemma sealWriteSpanWithPadding_eq_ok {p : RegionPaddingReceipt} {span : RegionWriteSpan} :
    sealWriteSpanWithPadding p m = .ok span m' ↔
    ∃ shard opened region, ShardAt m p.shardId shard p.regionId region ∧
      shard.openSpan = some opened ∧ shard.pendingPadding = some p ∧
      (shard.tail = none ∧ shard.rotation = none ∧ shard.submittedSpan = none) ∧
      (opened.regionId = p.regionId ∧ opened.startOffset = p.spanStartOffset ∧
        opened.endOffset = p.unpaddedEndOffset ∧ opened.recordCount = p.recordCount ∧
        opened.maxSeqno = p.maxSeqno) ∧
      (∃ bytes, p.paddingBytes = some bytes ∧ bytes ≠ 0 ∧ bytes < directIoAlignment) ∧
      (region.state = .active ∧ region.createdSeqno ≤ p.maxSeqno ∧
        region.reservedUsed = p.paddedEndOffset) ∧
      (opened.startOffset % directIoAlignment = 0 ∧ p.paddedEndOffset % directIoAlignment = 0 ∧
        opened.startOffset < p.paddedEndOffset) ∧
      span = ⟨p.shardId, opened.regionId, opened.startOffset, p.paddedEndOffset,
        opened.recordCount, opened.maxSeqno⟩ ∧
      m' = m.setShard p.shardId (submitted p.shardId p.paddedEndOffset shard opened) := by
  simp only [sealWriteSpanWithPadding, rejectIf_bind_eq_ok, okOr_bind_eq_ok, get_bind,
    submitOpenSpan_eq_ok, not_or, not_not, not_lt, Option.not_isSome_iff_eq_none]
  have hbytes : ¬ p.paddingBytes.all (fun bytes => decide (bytes = 0 ∨ bytes ≥ directIoAlignment)) ↔
      ∃ bytes, p.paddingBytes = some bytes ∧ bytes ≠ 0 ∧ bytes < directIoAlignment := by
    cases p.paddingBytes with
    | none => simp
    | some bytes => simp
  rw [hbytes]
  constructor
  · rintro ⟨shard, hs, ⟨ht, hrot, hsub, hp⟩, opened, ho, ⟨h1, h2, h3, h4, h5, hb, -⟩, region, hr,
      ⟨ha, hst, hc, hres⟩, shard', opened', hs', ho', hal, hspan, hm⟩
    obtain rfl : shard = shard' := by simpa [hs] using hs'
    obtain rfl : opened = opened' := by simpa [ho] using ho'
    exact ⟨shard, opened, region, ⟨hs, ha, hr⟩, ho, hp, ⟨ht, hrot, hsub⟩, ⟨h1, h2, h3, h4, h5⟩, hb,
      ⟨hst, hc, hres⟩, hal, hspan, hm⟩
  · rintro ⟨shard, opened, region, ⟨hs, ha, hr⟩, ho, hp, ⟨ht, hrot, hsub⟩, ⟨h1, h2, h3, h4, h5⟩, hb,
      ⟨hst, hc, hres⟩, hal, hspan, hm⟩
    exact ⟨shard, hs, ⟨ht, hrot, hsub, hp⟩, opened, ho, ⟨h1, h2, h3, h4, h5, hb, hal.2.1⟩, region,
      hr, ⟨ha, hst, hc, hres⟩, shard, opened, hs, ho, hal, hspan, hm⟩

/-- How submitting a padded open span fails. -/
lemma sealWriteSpanWithPadding_eq_error {p : RegionPaddingReceipt}
    (h : sealWriteSpanWithPadding p m = .error e m') :
    m' = m ∧ ∀ message, e = .invariant message → ∃ shard,
      m.appendStates[p.shardId]? = some shard ∧ shard.pendingPadding = some p ∧
      ∀ opened, shard.openSpan = some opened →
        ¬ (opened.startOffset % directIoAlignment = 0 ∧
          p.paddedEndOffset % directIoAlignment = 0 ∧ opened.startOffset < p.paddedEndOffset) := by
  simp only [sealWriteSpanWithPadding, rejectIf_bind_eq_error, okOr_bind_eq_error, get_bind,
    not_or, not_not] at h
  rcases h with ⟨-, rfl, rfl⟩ | ⟨shard, hs, ⟨-, rfl, rfl⟩ | ⟨hq, ⟨ho, rfl, rfl⟩ | ⟨opened, ho,
    ⟨-, rfl, rfl⟩ | ⟨-, ⟨-, rfl, rfl⟩ | ⟨region, -, ⟨-, rfl, rfl⟩ | ⟨-, h⟩⟩⟩⟩⟩⟩
  · exact ⟨rfl, by simp⟩
  · exact ⟨rfl, by simp⟩
  · exact ⟨rfl, by simp⟩
  · exact ⟨rfl, by simp⟩
  · exact ⟨rfl, by simp⟩
  · exact ⟨rfl, by simp⟩
  · obtain ⟨rfl, hmessage⟩ := submitOpenSpan_eq_error h
    refine ⟨rfl, fun message hm => ?_⟩
    obtain ⟨shard', hs', hall⟩ := hmessage message hm
    obtain rfl : shard = shard' := by simpa [hs] using hs'
    exact ⟨shard, hs, hq.2.2.2, hall⟩

/-- What a completion does. -/
lemma completeWriteSpan_eq_ok {span : RegionWriteSpan} : completeWriteSpan span m = .ok () m' ↔
    ∃ shard region, ShardAt m span.shardId shard span.regionId region ∧
      shard.submittedSpan = some span ∧
      (region.state = .active ∧ region.createdSeqno ≤ span.maxSeqno ∧
        region.completedUsed = span.startOffset ∧ span.endOffset ≤ region.reservedUsed ∧
        span.startOffset < span.endOffset ∧ span.recordCount ≠ 0) ∧
      region.physicalRecordCount + span.recordCount < 2 ^ 64 ∧
      m' = (m.setRegion span.regionId { region with
        completedUsed := span.endOffset
        physicalRecordCount := region.physicalRecordCount + span.recordCount }).setShard
          span.shardId { shard with submittedSpan := none } := by
  simp only [completeWriteSpan, rejectIf_bind_eq_ok, okOr_bind_eq_ok, get_bind, set_apply,
    Word.checkedAdd_eq_some, not_or, not_not, not_lt, not_le, ge_iff_le, gt_iff_lt]
  constructor
  · rintro ⟨shard, hs, hsub, region, hr, ⟨ha, hrest⟩, _, ⟨hlt, rfl⟩, h⟩
    cases h
    exact ⟨shard, region, ⟨hs, ha, hr⟩, hsub, hrest, hlt, rfl⟩
  · rintro ⟨shard, region, ⟨hs, ha, hr⟩, hsub, hrest, hlt, rfl⟩
    exact ⟨shard, hs, hsub, region, hr, ⟨ha, hrest⟩, _, ⟨hlt, rfl⟩, rfl⟩

/-- A completion fails without an effect, and never with a broken invariant. -/
lemma completeWriteSpan_eq_error {span : RegionWriteSpan}
    (h : completeWriteSpan span m = .error e m') :
    m' = m ∧ ∀ message, e ≠ .invariant message := by
  simp only [completeWriteSpan, rejectIf_bind_eq_error, okOr_bind_eq_error, get_bind, set_apply,
    reduceCtorEq, and_false, exists_false, or_false] at h
  rcases h with ⟨-, rfl, rfl⟩ | ⟨shard, -, ⟨-, rfl, rfl⟩ | ⟨-, ⟨-, rfl, rfl⟩ | ⟨region, -,
    ⟨-, rfl, rfl⟩ | ⟨-, -, rfl, rfl⟩⟩⟩⟩ <;> exact ⟨rfl, by simp⟩

/-- What a selection finds. -/
lemma selectRotation_bind_eq_ok {α : Type} {g : RegionRotationSelection → ManagerM α} {a : α} :
    (selectRotation shardId >>= g) m = .ok a m' ↔
    ∃ shard oldId old victimId victim, ShardAt m shardId shard oldId old ∧
      (shard.rotationRequested = true ∧ shard.tail = none ∧ shard.openSpan = none ∧
        shard.pendingPadding = none ∧ shard.submittedSpan = none ∧ shard.rotation = none) ∧
      (old.state = .active ∧ old.reservedUsed = old.completedUsed) ∧
      (m.freeRegions.head? = some victimId ∧ m.regions[victimId]? = some victim ∧
        victim.state = .free ∧ victimId ≠ oldId) ∧
      g ⟨⟨shardId, victimId, victim.createdSeqno⟩, oldId, victimId⟩ m = .ok a m' := by
  simp only [selectRotation, bind_assoc, rejectIf_bind_eq_ok, okOr_bind_eq_ok, get_bind, pure_bind,
    not_or, not_not, Option.not_isSome_iff_eq_none, Bool.not_eq_false]
  constructor
  · rintro ⟨shard, hs, hq, oldId, ha, old, hr, hold, victimId, hv, victim, hvr, hvs, h⟩
    exact ⟨shard, oldId, old, victimId, victim, ⟨hs, ha, hr⟩, hq, hold, ⟨hv, hvr, hvs⟩, h⟩
  · rintro ⟨shard, oldId, old, victimId, victim, ⟨hs, ha, hr⟩, hq, hold, ⟨hv, hvr, hvs⟩, h⟩
    exact ⟨shard, hs, hq, oldId, ha, old, hr, hold, victimId, hv, victim, hvr, hvs, h⟩

/-- How a selection fails: without an effect, and with a broken invariant only when the shard's
Region is not there or the first free Region is not a free one apart from it. -/
lemma selectRotation_bind_eq_error {α : Type} {g : RegionRotationSelection → ManagerM α}
    (h : (selectRotation shardId >>= g) m = .error e m') :
    (m' = m ∧ ∀ message, e = .invariant message →
      ∃ id, m.activeRegions[shardId]? = some id ∧ ∀ region, m.regions[id]? = some region →
        ∃ victimId, m.freeRegions.head? = some victimId ∧
          ∀ victim, m.regions[victimId]? = some victim → victim.state ≠ .free ∨ victimId = id) ∨
    ∃ shard oldId old victimId victim, ShardAt m shardId shard oldId old ∧
      m.freeRegions.head? = some victimId ∧ m.regions[victimId]? = some victim ∧
      g ⟨⟨shardId, victimId, victim.createdSeqno⟩, oldId, victimId⟩ m = .error e m' := by
  simp only [selectRotation, bind_assoc, rejectIf_bind_eq_error, okOr_bind_eq_error, get_bind,
    pure_bind] at h
  rcases h with ⟨-, rfl, rfl⟩ | ⟨shard, hs, ⟨-, rfl, rfl⟩ | ⟨-, ⟨-, rfl, rfl⟩ | ⟨oldId, ha,
    ⟨hnone, rfl, rfl⟩ | ⟨old, hr, ⟨-, rfl, rfl⟩ | ⟨-, ⟨-, rfl, rfl⟩ | ⟨victimId, hv,
    ⟨hvnone, rfl, rfl⟩ | ⟨victim, hvr, ⟨hbad, rfl, rfl⟩ | ⟨-, h⟩⟩⟩⟩⟩⟩⟩⟩
  · exact .inl ⟨rfl, by simp⟩
  · exact .inl ⟨rfl, by simp⟩
  · exact .inl ⟨rfl, by simp⟩
  · exact .inl ⟨rfl, fun _ _ => ⟨oldId, ha, by simp [hnone]⟩⟩
  · exact .inl ⟨rfl, by simp⟩
  · exact .inl ⟨rfl, by simp⟩
  · exact .inl ⟨rfl, fun _ _ => ⟨oldId, ha, fun _ _ => ⟨victimId, hv, by simp [hvnone]⟩⟩⟩
  · refine .inl ⟨rfl, fun _ _ => ⟨oldId, ha, fun _ _ => ⟨victimId, hv, fun v hvictim => ?_⟩⟩⟩
    obtain rfl : victim = v := by simpa [hvr] using hvictim
    exact hbad
  · exact .inr ⟨shard, oldId, old, victimId, victim, ⟨hs, ha, hr⟩, hv, hvr, h⟩

/-- The manager after a rotation of a shard from `oldId` to the first free Region has begun. -/
def rotating (m : RegionManager) (shard : AppendShardState) (old : RegionDesc) (free : List ℕ)
    (r : RegionRotationReceipt) : RegionManager :=
  { m with
    nextSeqno := m.nextSeqno + 1
    regions := (m.regions.set r.sealedRegionId { old with state := .sealed }).set
      r.activatedRegionId (.empty .active r.activatedCreatedSeqno)
    activeRegions := m.activeRegions.set r.shardId r.activatedRegionId
    appendStates := m.appendStates.set r.shardId
      { shard with rotationRequested := false, rotation := some r }
    freeRegions := free }

/-- Changing one element in place overwrites it. -/
private lemma modify_eq_set {α : Type} {l : List α} {i : ℕ} {a : α} (h : l[i]? = some a)
    (f : α → α) : l.modify i f = l.set i (f a) := by
  rw [List.modify_eq_set_getElem?, h]
  rfl

/-- What the beginning of a rotation does. -/
lemma beginRotation_eq_ok {candidate : RegionRotationCandidate} {r : RegionRotationReceipt}
    (h : beginRotation candidate m = .ok r m') :
    ∃ shard oldId old victimId victim free, ShardAt m candidate.shardId shard oldId old ∧
      (shard.rotationRequested = true ∧ shard.tail = none ∧ shard.openSpan = none ∧
        shard.pendingPadding = none ∧ shard.submittedSpan = none ∧ shard.rotation = none) ∧
      (old.state = .active ∧ old.reservedUsed = old.completedUsed) ∧
      (m.freeRegions = victimId :: free ∧ m.regions[victimId]? = some victim ∧
        victim.state = .free ∧ victimId ≠ oldId) ∧
      candidate = ⟨candidate.shardId, victimId, victim.createdSeqno⟩ ∧
      m.nextSeqno ≠ u64Max ∧ r = ⟨candidate.shardId, oldId, victimId, m.nextSeqno⟩ ∧
      m' = m.rotating shard old free r := by
  simp only [beginRotation, selectRotation_bind_eq_ok, rejectIf_bind_eq_ok, okOr_bind_eq_ok,
    get_bind, set_bind, modify_bind, pure_apply, allocateSeqno_bind_eq_ok, tryU32_eq_some,
    not_not] at h
  obtain ⟨shard, oldId, old, victimId, victim, hat, hq, hold, ⟨hhead, hvr, hvs⟩, hc, hseq, -, id,
    ⟨-, hid⟩, h⟩ := h
  subst hid
  obtain ⟨free, hfree⟩ : ∃ free, m.freeRegions = victimId :: free := by
    cases hl : m.freeRegions with
    | nil => simp [hl] at hhead
    | cons a t =>
      rw [hl, List.head?_cons, Option.some.injEq] at hhead
      exact ⟨t, by rw [hhead]⟩
  have hvictim : candidate.victimRegionId = victimId := by rw [← hc]
  cases h
  refine ⟨shard, _, old, victimId, victim, free, hat, hq, hold, ⟨hfree, hvr, hvs⟩, hc.symm,
    hseq, by rw [hvictim], ?_⟩
  simp only [rotating, modify_eq_set hat.region_eq, modify_eq_set hat.shard_eq, hfree,
    List.tail_cons, hvictim]

/-- When a rotation begins. -/
lemma beginRotation_of_selected {shard : AppendShardState} {old victim : RegionDesc}
    {oldId victimId : ℕ} {free : List ℕ} (hat : ShardAt m shardId shard oldId old)
    (hq : shard.rotationRequested = true ∧ shard.tail = none ∧ shard.openSpan = none ∧
      shard.pendingPadding = none ∧ shard.submittedSpan = none ∧ shard.rotation = none)
    (hold : old.state = .active ∧ old.reservedUsed = old.completedUsed)
    (hfree : m.freeRegions = victimId :: free)
    (hvictim : m.regions[victimId]? = some victim ∧ victim.state = .free ∧ victimId ≠ oldId)
    (hseq : m.nextSeqno ≠ u64Max) (hlt : oldId < 2 ^ 32) :
    beginRotation ⟨shardId, victimId, victim.createdSeqno⟩ m =
      .ok ⟨shardId, oldId, victimId, m.nextSeqno⟩
        (m.rotating shard old free ⟨shardId, oldId, victimId, m.nextSeqno⟩) := by
  have hhead : m.freeRegions.head? = some victimId := by rw [hfree, List.head?_cons]
  refine selectRotation_bind_eq_ok.2 ⟨shard, oldId, old, victimId, victim, hat, hq, hold,
    ⟨hhead, hvictim⟩, ?_⟩
  simp only [rejectIf_bind_eq_ok, okOr_bind_eq_ok, get_bind, set_bind, modify_bind, pure_apply,
    allocateSeqno_bind_eq_ok, tryU32_eq_some]
  refine ⟨not_not.2 rfl, hseq, not_not.2 hhead, oldId, ⟨hlt, rfl⟩, ?_⟩
  simp only [rotating, modify_eq_set hat.region_eq, modify_eq_set hat.shard_eq, hfree,
    List.tail_cons]

/-- The beginning of a rotation fails without an effect. -/
lemma beginRotation_eq_error {candidate : RegionRotationCandidate}
    (hids : ∀ id ∈ m.activeRegions, id < 2 ^ 32)
    (h : beginRotation candidate m = .error e m') :
    m' = m ∧ ∀ message, e = .invariant message →
      ∃ id, m.activeRegions[candidate.shardId]? = some id ∧
        ∀ region, m.regions[id]? = some region → ∃ victimId, m.freeRegions.head? = some victimId ∧
          ∀ victim, m.regions[victimId]? = some victim → victim.state ≠ .free ∨ victimId = id := by
  rcases selectRotation_bind_eq_error h with h | ⟨shard, oldId, old, victimId, victim, hat, hhead,
    hvr, h⟩
  · exact h
  simp only [rejectIf_bind_eq_error, okOr_bind_eq_error, get_bind, set_bind, modify_bind,
    pure_apply, allocateSeqno_bind_eq_error, reduceCtorEq, and_false, exists_false, or_false,
    not_not] at h
  rcases h with ⟨-, rfl, rfl⟩ | ⟨hc, ⟨-, rfl, rfl⟩ | ⟨-, ⟨hne, -⟩ | ⟨-, hnone, -⟩⟩⟩
  · exact ⟨rfl, by simp⟩
  · exact ⟨rfl, by simp⟩
  · -- the selection has just read the head of the queue
    rw [hhead, ← hc] at hne
    exact absurd rfl hne
  · have hlt := hids oldId (List.mem_of_getElem? hat.active_eq)
    rw [tryU32, if_pos hlt] at hnone
    cases hnone

/-- What the end of a rotation does. -/
lemma finishRotation_eq_ok {r : RegionRotationReceipt} (h : finishRotation r m = .ok () m') :
    ∃ shard, m.appendStates[r.shardId]? = some shard ∧ shard.rotation = some r ∧
      Word.saturatingAdd 64 m.freeRegions.length m.sealedRegions.length < m.queueCapacity ∧
      m' = { m.setShard r.shardId { shard with rotation := none } with
        sealedRegions := m.sealedRegions ++ [r.sealedRegionId]
        rotations := Word.saturatingAdd 64 m.rotations 1 } := by
  simp only [finishRotation, rejectIf_bind_eq_ok, okOr_bind_eq_ok, get_bind, set_apply, not_not,
    ge_iff_le, not_le] at h
  obtain ⟨shard, hs, hr, outgoing, -, activated, -, -, hcap, h⟩ := h
  cases h
  exact ⟨shard, hs, hr, hcap, rfl⟩

/-- The end of a rotation fails without an effect, and with a broken invariant only when the
queues are full. -/
lemma finishRotation_eq_error {r : RegionRotationReceipt}
    (h : finishRotation r m = .error e m') :
    m' = m ∧ ∀ message, e = .invariant message → ∃ shard,
      m.appendStates[r.shardId]? = some shard ∧ shard.rotation = some r ∧
      m.queueCapacity ≤ Word.saturatingAdd 64 m.freeRegions.length m.sealedRegions.length := by
  simp only [finishRotation, rejectIf_bind_eq_error, okOr_bind_eq_error, get_bind, set_apply,
    reduceCtorEq, and_false, or_false, not_not] at h
  rcases h with ⟨-, rfl, rfl⟩ | ⟨shard, hs, ⟨-, rfl, rfl⟩ | ⟨hr, ⟨-, rfl, rfl⟩ | ⟨outgoing, -,
    ⟨-, rfl, rfl⟩ | ⟨activated, -, ⟨-, rfl, rfl⟩ | ⟨-, hcap, rfl, rfl⟩⟩⟩⟩⟩
  · exact ⟨rfl, by simp⟩
  · exact ⟨rfl, by simp⟩
  · exact ⟨rfl, by simp⟩
  · exact ⟨rfl, by simp⟩
  · exact ⟨rfl, by simp⟩
  · exact ⟨rfl, fun _ _ => ⟨shard, hs, hr, hcap⟩⟩

/-- What the beginning of a reclaim does. -/
lemma beginReclaim_eq_ok {r : Option RegionReclaimReceipt} (h : beginReclaim m = .ok r m') :
    (m.reclaimNeeded = false ∧ r = none ∧ m' = m) ∨
    ∃ id rest region, m.reclaimNeeded = true ∧ m.sealedRegions = id :: rest ∧
      m.regions[id]? = some region ∧
      (region.state = .sealed ∧ region.completedUsed = region.reservedUsed) ∧
      r = some ⟨id, region.createdSeqno, region.completedUsed, region.physicalRecordCount⟩ ∧
      m' = { m with
        sealedRegions := rest
        reclaiming := m.reclaiming ++ r.toList } := by
  simp only [beginReclaim, rejectIf_bind_eq_ok, okOr_bind_eq_ok, get_bind, set_bind, modify_bind,
    pure_apply, ite_run, not_or, not_not, Bool.not_eq_true] at h
  rcases h with ⟨hneeded, id, hhead, region, hr, hst, h⟩ | ⟨hneeded, h⟩
  · cases h
    cases hl : m.sealedRegions with
    | nil => simp [hl] at hhead
    | cons a t =>
      obtain rfl : a = id := by simpa [hl] using hhead
      exact .inr ⟨a, t, region, hneeded, rfl, hr, hst, rfl, by simp⟩
  · cases h
    exact .inl ⟨hneeded, rfl, rfl⟩

/-- The beginning of a reclaim fails only on a sealed queue without a completed sealed Region in
front. -/
lemma beginReclaim_eq_error (h : beginReclaim m = .error e m') :
    ∃ message, e = .invariant message ∧ m.reclaimNeeded = true ∧
      ∀ id region, m.sealedRegions.head? = some id → m.regions[id]? = some region →
        ¬ (region.state = .sealed ∧ region.completedUsed = region.reservedUsed) := by
  simp only [beginReclaim, rejectIf_bind_eq_error, okOr_bind_eq_error, get_bind, set_bind,
    modify_bind, pure_apply, ite_run, reduceCtorEq, and_false, or_false, not_or, not_not] at h
  obtain ⟨hneeded, ⟨hnone, rfl, rfl⟩ | ⟨id, hhead,
    ⟨hnone, rfl, rfl⟩ | ⟨region, hr, hbad, rfl, rfl⟩⟩⟩
    := h
  · exact ⟨_, rfl, hneeded, by simp [hnone]⟩
  · refine ⟨_, rfl, hneeded, fun id' region' hid' hr' => ?_⟩
    obtain rfl : id = id' := by simpa [hhead] using hid'
    rw [hnone] at hr'
    cases hr'
  · refine ⟨_, rfl, hneeded, fun id' region' hid' hr' => ?_⟩
    obtain rfl : id = id' := by simpa [hhead] using hid'
    obtain rfl : region = region' := by simpa [hr] using hr'
    rcases hbad with h | h <;> simp [h]

/-- What the end of a reclaim does. -/
lemma finishReclaim_eq_ok {r : RegionReclaimReceipt} (h : finishReclaim r m = .ok () m') :
    ∃ position region, m.reclaiming[position]? = some r ∧ m.regions[r.regionId]? = some region ∧
      (region.state = .sealed ∧ region.createdSeqno = r.createdSeqno ∧
        region.completedUsed = r.usedOffset ∧
        region.physicalRecordCount = r.physicalRecordCount) ∧
      Word.saturatingAdd 64 m.freeRegions.length m.sealedRegions.length < m.queueCapacity ∧
      m' = { m.setRegion r.regionId (.empty .free 0) with
        freeRegions := m.freeRegions ++ [r.regionId]
        reclaiming := Queue.swapRemove m.reclaiming position } := by
  simp only [finishReclaim, rejectIf_bind_eq_ok, okOr_bind_eq_ok, get_bind, set_apply, not_or,
    not_not, ge_iff_le, not_le] at h
  obtain ⟨position, hpos, region, hr, hst, hcap, h⟩ := h
  cases h
  obtain ⟨hlt, heq, -⟩ := List.findIdx?_eq_some_iff_getElem.1 hpos
  refine ⟨position, region, ?_, hr, hst, hcap, rfl⟩
  rw [List.getElem?_eq_getElem hlt, Option.some.injEq]
  simpa using heq

/-- The end of a reclaim fails without an effect, and with a broken invariant only when the queues
are full. -/
lemma finishReclaim_eq_error {r : RegionReclaimReceipt} (h : finishReclaim r m = .error e m') :
    m' = m ∧ ∀ message, e = .invariant message → r ∈ m.reclaiming ∧
      m.queueCapacity ≤ Word.saturatingAdd 64 m.freeRegions.length m.sealedRegions.length := by
  simp only [finishReclaim, rejectIf_bind_eq_error, okOr_bind_eq_error, get_bind, set_apply,
    reduceCtorEq, and_false, or_false] at h
  rcases h with ⟨-, rfl, rfl⟩ | ⟨position, hpos, ⟨-, rfl, rfl⟩ | ⟨region, -, ⟨-, rfl, rfl⟩ |
    ⟨-, hcap, rfl, rfl⟩⟩⟩
  · exact ⟨rfl, by simp⟩
  · exact ⟨rfl, by simp⟩
  · exact ⟨rfl, by simp⟩
  · obtain ⟨hlt, heq, -⟩ := List.findIdx?_eq_some_iff_getElem.1 hpos
    have heq : m'.reclaiming[position] = r := by simpa using heq
    exact ⟨rfl, fun _ _ => ⟨heq ▸ List.getElem_mem hlt, hcap⟩⟩

/-- What setting the number of reclaim workers does. -/
lemma configureReclaimWorkers_eq_ok {workers : ℕ}
    (h : configureReclaimWorkers workers m = .ok () m') :
    workers ≠ 0 ∧ m.reclaiming = [] ∧
      m' = { m with
        reclaimingCapacity := max m.reclaimingCapacity workers
        reclaimLimit := workers } := by
  simp only [configureReclaimWorkers, get_bind, rejectIf_bind_eq_ok, set_apply, not_or,
    not_not] at h
  obtain ⟨⟨hw, -, hr⟩, h⟩ := h
  cases h
  exact ⟨hw, hr, rfl⟩

end Specs

end RegionManager

end Cache2
