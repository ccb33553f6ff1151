import Cache2.Region.RecordCodec
import Cache2.Region.Staging

set_option relaxedAutoImplicit false
set_option autoImplicit false

/-!
# A shard of the staging area

Every append shard has a chunk that is being filled and a spare one (`region/staging.rs`). Records
are encoded into the chunk that is being filled, one behind the other. A seal takes the chunk for a
write and puts the spare one in its place; the completion of the write gives it back. The manager's
receipts are the only authority: every operation compares the receipt that it is given with what is
staged.

An operation that fails keeps the state that it has reached, as in the source. The encoder runs
without the lock of the shard: `beginEncode` takes the buffer out, and `finishEncode` puts it back,
with the record or, when the encoder has failed, without it.

## Main definitions

* `Cache2.StagedRecord`, `Cache2.FillChunk`, `Cache2.StagingShard` — what a shard has.
* `Cache2.StagingShard.preflightAppend`, `Cache2.StagingShard.beginEncode`,
  `Cache2.StagingShard.finishEncode` — the append path.
* `Cache2.StagingShard.applyWritePadding`, `Cache2.StagingShard.takeSealed`,
  `Cache2.StagingShard.finish` — from the staged records to their completed write.
* `Cache2.spanMatchesRecords` — the comparison of a span with staged records.
* `Cache2.Staged`, `Cache2.Ascends` — staged records one behind the other, with ascending numbers.

## Main results

* `Cache2.spanMatchesRecords_of_staged` — such records match their span.
* `Cache2.StagingShard.applyWritePadding_ok`, `Cache2.StagingShard.takeSealed_ok`,
  `Cache2.StagingShard.finish_ok` — what is staged, padded and sealed as the receipts say is
  written.
-/

namespace Cache2

open Bytes Loop Framing

/-! ## Records that wait -/

/-- `UPSERT_PUBLICATION`: what stands for no previous location. -/
def upsertPublication : ℕ := 1 <<< 63

/-- `StagedRecord`. -/
structure StagedRecord where
  hash : Hash
  entry : IndexEntry
  seqno : ℕ
  previousLocation : ℕ
  deriving DecidableEq, Repr

namespace StagedRecord

/-- `StagedRecord::new`. -/
def new (hash : Hash) (entry : IndexEntry) (seqno : ℕ) : StagedRecord :=
  ⟨hash, entry, seqno, upsertPublication⟩

/-- `StagedRecord::reinsert`. -/
def reinsert (hash : Hash) (entry : IndexEntry) (seqno : ℕ) (previous : PackedLocation) :
    StagedRecord :=
  ⟨hash, entry, seqno, previous.raw⟩

/-- `previous_location`. -/
def previous (record : StagedRecord) : Option PackedLocation :=
  if record.previousLocation = upsertPublication then none else some ⟨record.previousLocation⟩

/-- `set_location`. -/
def setLocation (record : StagedRecord) (location : PackedLocation) : StagedRecord :=
  { record with entry := ⟨location⟩ }

end StagedRecord

/-- The records of a chunk, with the capacity of the vector that they are in. -/
structure StagedRecords where
  items : List StagedRecord
  capacity : ℕ
  deriving DecidableEq, Repr

/-- `StageAppend`. -/
inductive StageAppend
  | appended (previousBytes currentBytes : ℕ)
  | needsSeal
  deriving DecidableEq, Repr

/-- `ShardFillSnapshot`. -/
structure ShardFillSnapshot where
  bytes : ℕ
  records : ℕ
  deriving DecidableEq, Repr

/-- `StagedWrite`: the chunk with the length that is written, where it goes, and its records. -/
structure StagedWrite where
  span : RegionWriteSpan
  buffer : List UInt8
  length : ℕ
  absolute : ℕ
  records : StagedRecords
  deriving DecidableEq, Repr

/-- The bytes that are written. -/
def StagedWrite.bytes (job : StagedWrite) : List UInt8 := job.buffer.take job.length

/-- `StagingError`. -/
inductive StagingError
  | failed
  | closed
  | invalidShard
  | wouldBlock
  | staleReceipt
  | invariant (message : String)
  deriving DecidableEq, Repr

/-- `StagingEncodeError`. -/
inductive StagingEncodeError (ε : Type)
  | staging (error : StagingError)
  | encode (error : ε)
  deriving DecidableEq, Repr

/-- `FillChunk`. -/
structure FillChunk where
  buffer : Option (List UInt8)
  records : StagedRecords
  regionId : ℕ
  startOffset : ℕ
  endOffset : ℕ
  maxSeqno : ℕ
  deriving DecidableEq, Repr

namespace FillChunk

/-- `FillChunk::new`, and `reset` with emptied records. -/
def new (buffer : List UInt8) (capacity : ℕ) : FillChunk :=
  ⟨some buffer, ⟨[], capacity⟩, 0, 0, 0, 0⟩

/-- `is_empty`. -/
def isEmpty (fill : FillChunk) : Bool := fill.records.items.isEmpty

/-- `used`. -/
def used (fill : FillChunk) : Option ℕ := Word.checkedSub fill.endOffset fill.startOffset

end FillChunk

/-- `ShardState`. -/
structure StagingShard where
  fill : FillChunk
  spareBuffer : Option (List UInt8)
  spareRecords : Option StagedRecords
  encoding : Option RegionAppendReservation
  submitted : Option RegionWriteSpan
  failed : Bool
  closed : Bool
  deriving DecidableEq, Repr

/-- Computations on a shard. -/
abbrev StagingM := EStateM StagingError StagingShard

/-- `span_matches_records`, from a record on: the offset and the number before it. -/
def spanMatchesFrom (span : RegionWriteSpan) : List StagedRecord → ℕ → ℕ → Bool
  | [], offset, maxSeqno => offset = span.endOffset ∧ maxSeqno = span.maxSeqno
  | record :: records, offset, maxSeqno =>
    let location := record.entry.location
    if location.regionId ≠ span.regionId ∨ location.offset ≠ offset ∨ record.seqno = 0 ∨
        record.seqno ≤ maxSeqno then false
    else
      match Word.checkedAdd 64 offset location.recordLen with
      | none => false
      | some finish => spanMatchesFrom span records finish record.seqno

/-- `span_matches_records`. -/
def spanMatchesRecords (span : RegionWriteSpan) (records : List StagedRecord) : Bool :=
  if span.recordCount = 0 ∨ span.recordCount ≠ records.length then false
  else spanMatchesFrom span records span.startOffset 0

/-- `validate_reservation`. -/
def validateReservation (regionSize : ℕ) (receipt : RegionAppendReservation) :
    Except StagingError Unit :=
  match receipt.endOffset with
  | none => .error .staleReceipt
  | some finish =>
    if receipt.seqno = 0 ∨ receipt.recordBytes = 0 ∨ receipt.recordBytes % recordAlignment ≠ 0 ∨
        receipt.offset % recordAlignment ≠ 0 ∨ regionSize < finish then .error .staleReceipt
    else .ok ()

/-- `validate_record`. -/
def validateRecord (regionSize : ℕ) (receipt : RegionAppendReservation) (record : StagedRecord) :
    Except StagingError Unit := do
  validateReservation regionSize receipt
  let location := record.entry.location
  if location.regionId ≠ receipt.regionId ∨ location.offset ≠ receipt.offset ∨
      location.recordLen ≠ receipt.recordBytes ∨ record.seqno ≠ receipt.seqno then
    .error .staleReceipt
  else .ok ()

/-- `span_absolute`. -/
def spanAbsolute (regionSize : ℕ) (span : RegionWriteSpan) : Except StagingError ℕ :=
  if regionSize < span.endOffset then .error .staleReceipt
  else
    match Word.checkedMul 64 span.regionId regionSize with
    | none => .error (.invariant "staging Region offset overflow")
    | some base =>
      ((Word.checkedAdd 64 dataRegionAreaOffset base).bind fun base =>
        Word.checkedAdd 64 base span.startOffset).elim
          (.error (.invariant "staging absolute offset overflow")) .ok

namespace StagingShard

/-! ## The append path -/

/-- The shard as it is made: two chunks of zeroes. -/
def new (made : ShardStaging) : StagingShard :=
  { fill := .new (List.replicate made.fillBuffer.initialized 0) made.fillRecords
    spareBuffer := some (List.replicate made.spareBuffer.initialized 0)
    spareRecords := some ⟨[], made.spareRecords⟩
    encoding := none
    submitted := none
    failed := false
    closed := false }

/-- `ensure_open`. -/
def ensureOpen : StagingM Unit := do
  let state ← get
  rejectIf (state.failed = true) .failed
  rejectIf (state.closed = true) .closed

/-- Whether one more record exceeds the chunk. -/
def exceeds (fill : FillChunk) (chunkBytes used recordBytes : ℕ) : Bool :=
  fill.records.items.length = maxStagingRecords ∨
    (Word.checkedAdd 64 used recordBytes).all fun finish => chunkBytes < finish

/-- `preflight_append`. -/
def preflightAppend (chunkBytes recordBytes : ℕ) : StagingM StageAppend := do
  rejectIf (recordBytes = 0 ∨ chunkBytes < recordBytes ∨ recordBytes % recordAlignment ≠ 0)
    (.invariant "staging preflight record length is invalid")
  ensureOpen
  let state ← get
  rejectIf (state.encoding.isSome = true) .wouldBlock
  let used ← okOr (.invariant "staging fill length overflow") state.fill.used
  if exceeds state.fill chunkBytes used recordBytes then pure .needsSeal
  else pure (.appended used (used + recordBytes))

/-- `shard_fill_snapshot`. -/
def shardFillSnapshot (chunkBytes : ℕ) : StagingM (Option ShardFillSnapshot) := do
  ensureOpen
  let state ← get
  rejectIf (state.encoding.isSome = true) .wouldBlock
  rejectIf (state.submitted.isSome = true) .wouldBlock
  if state.fill.isEmpty then pure none
  else do
    let bytes ← okOr (.invariant "staging fill snapshot has an invalid length")
      (state.fill.used.filter fun bytes => bytes ≠ 0 ∧ bytes ≤ chunkBytes)
    pure (some ⟨bytes, state.fill.records.items.length⟩)

/-- `encode_reserved` up to the encoder: the range of the buffer for the record and the buffer, if
there is room. -/
def beginEncode (chunkBytes regionSize : ℕ) (receipt : RegionAppendReservation) :
    StagingM (Option (ℕ × ℕ × List UInt8)) := do
  orThrow (validateReservation regionSize receipt)
  ensureOpen
  let state ← get
  rejectIf (state.encoding.isSome = true) .wouldBlock
  let fill := state.fill
  let used ← okOr (.invariant "staging fill length overflow") fill.used
  rejectIf (chunkBytes < receipt.recordBytes) (.invariant "staging record exceeds one chunk")
  if exceeds fill chunkBytes used receipt.recordBytes then pure none
  else do
    rejectIf (fill.isEmpty = false ∧ (fill.regionId ≠ receipt.regionId ∨
      fill.endOffset ≠ receipt.offset ∨ receipt.seqno ≤ fill.maxSeqno)) .staleReceipt
    let finish ← okOr (.invariant "staging fill cursor overflow")
      (Word.checkedAdd 64 used receipt.recordBytes)
    let buffer ← okOr (.invariant "staging fill lost its buffer") fill.buffer
    set { state with fill := { fill with buffer := none }, encoding := some receipt }
    pure (some (used, finish, buffer))

/-- `encode_reserved` while the encoder runs: the buffer and the staged record. -/
def encodeInto {ε : Type} (regionSize : ℕ) (receipt : RegionAppendReservation)
    (start finish : ℕ) (buffer : List UInt8)
    (encode : List UInt8 → Except ε (List UInt8 × StagedRecord)) :
    Except (StagingEncodeError ε) (List UInt8 × StagedRecord) :=
  if buffer.length < finish then
    .error (.staging (.invariant "staging fill buffer is undersized"))
  else do
    let (bytes, record) ← (encode (slice buffer start (finish - start))).mapError .encode
    (validateRecord regionSize receipt record).mapError .staging
    .ok (splice buffer start bytes, record)

/-- The fill chunk with one more record. -/
def push (fill : FillChunk) (receipt : RegionAppendReservation) (finish : ℕ)
    (buffer : List UInt8) (record : StagedRecord) : FillChunk :=
  { buffer := some buffer
    records := ⟨fill.records.items ++ [record],
      max fill.records.capacity (fill.records.items.length + 1)⟩
    regionId := if fill.isEmpty then receipt.regionId else fill.regionId
    startOffset := if fill.isEmpty then receipt.offset else fill.startOffset
    endOffset := finish
    maxSeqno := max fill.maxSeqno receipt.seqno }

/-- The drop of `EncodingBuffer`: the buffer goes back, if it still belongs there. -/
def dropEncoding (receipt : RegionAppendReservation) (buffer : List UInt8) : StagingM Unit :=
  modify fun state =>
    if state.encoding = some receipt ∧ state.fill.buffer = none then
      { state with fill := { state.fill with buffer := some buffer }, encoding := none }
    else { state with failed := true }

/-- `encode_reserved` from the encoder on. The buffer of a failed encoding goes back. It has its old
bytes then; in the code, the encoder may have written a part of the record to it. Nothing reads
them: whoever fails to encode closes the staging area. -/
def finishEncode {ε : Type} (regionSize : ℕ) (receipt : RegionAppendReservation)
    (start finish : ℕ) (buffer : List UInt8)
    (encode : List UInt8 → Except ε (List UInt8 × StagedRecord)) :
    EStateM (StagingEncodeError ε) StagingShard StageAppend := fun state =>
  let abandon (error : StagingEncodeError ε) (state : StagingShard) (buffer : List UInt8) :=
    match dropEncoding receipt buffer state with
    | .ok _ state => .error error state
    | .error _ state => .error error state
  match encodeInto regionSize receipt start finish buffer encode with
  | .error error => abandon error state buffer
  | .ok (buffer, record) =>
    if state.encoding ≠ some receipt ∨ state.fill.buffer.isSome = true then
      abandon (.staging .staleReceipt) { state with failed := true } buffer
    else
      match ensureOpen state with
      | .error error state => abandon (.staging error) state buffer
      | .ok _ state =>
        match receipt.endOffset with
        | none => .error (.staging (.invariant "staging reservation end overflow")) state
        | some endOffset =>
          .ok (.appended start finish)
            { state with fill := push state.fill receipt endOffset buffer record, encoding := none }

/-! ## Spans -/

/-- Marks the shard as failed when the computation fails. -/
def failing {α : Type} (f : StagingM α) : StagingM α := fun state =>
  match f state with
  | .ok a state => .ok a state
  | .error error state => .error error { state with failed := true }

/-- The receipt of a padding is one, and is that of the chunk that is being filled. -/
def paddingStale (regionSize : ℕ) (fill : FillChunk) (receipt : RegionPaddingReceipt) : Prop :=
  receipt.unpaddedEndOffset ≤ receipt.spanStartOffset ∨
    receipt.spanStartOffset % directIoAlignment ≠ 0 ∨
    receipt.unpaddedEndOffset % recordAlignment ≠ 0 ∨
    receipt.paddedEndOffset % directIoAlignment ≠ 0 ∨ regionSize < receipt.paddedEndOffset ∨
    fill.isEmpty = true ∨ fill.regionId ≠ receipt.regionId ∨
    fill.startOffset ≠ receipt.spanStartOffset ∨ fill.endOffset ≠ receipt.unpaddedEndOffset ∨
    fill.records.items.length ≠ receipt.recordCount ∨ fill.maxSeqno ≠ receipt.maxSeqno

instance (regionSize : ℕ) (fill : FillChunk) (receipt : RegionPaddingReceipt) :
    Decidable (paddingStale regionSize fill receipt) :=
  inferInstanceAs (Decidable (_ ∨ _))

/-- `apply_write_padding`. -/
def applyWritePadding (crc : List UInt8 → BitVec 32) (chunkBytes regionSize : ℕ)
    (receipt : RegionPaddingReceipt) : StagingM Unit := do
  ensureOpen
  failing do
    let state ← get
    rejectIf (state.encoding.isSome = true ∨ state.submitted.isSome = true) .wouldBlock
    let fill := state.fill
    let padding ← okOr .staleReceipt (receipt.paddingBytes.filter fun padding =>
      padding ≠ 0 ∧ padding < directIoAlignment ∧ padding % recordAlignment = 0)
    rejectIf (paddingStale regionSize fill receipt) .staleReceipt
    let used ← okOr (.invariant "staging fill length overflow") fill.used
    let paddedUsed ← okOr (.invariant "staging padding exceeds its fixed chunk")
      ((Word.checkedAdd 64 used padding).filter (· ≤ chunkBytes))
    let expected ← okOr .staleReceipt
      (Word.checkedSub receipt.paddedEndOffset receipt.spanStartOffset)
    rejectIf (paddedUsed ≠ expected) .staleReceipt
    let last ← okOr .staleReceipt fill.records.items.getLast?
    let location := last.entry.location
    let newRecordLen ← okOr (.invariant "padded record exceeds the record-format limit")
      ((Word.checkedAdd 32 location.recordLen padding).filter (· ≤ maxRecordLen))
    let recordEnd ← okOr .staleReceipt (Word.checkedAdd 64 location.offset location.recordLen)
    rejectIf (location.regionId ≠ receipt.regionId ∨ last.seqno ≠ receipt.maxSeqno ∨
      recordEnd ≠ receipt.unpaddedEndOffset) .staleReceipt
    let buffer ← okOr (.invariant "staging fill lost its buffer") fill.buffer
    rejectIf (buffer.length < paddedUsed) (.invariant "staging buffer is undersized")
    let paddedLocation ← orThrow ((PackedLocation.new receipt.regionId location.offset
      newRecordLen).mapError fun _ => .invariant "padded location is invalid")
    let recordStart ← okOr (.invariant "staging record start underflow")
      (Word.checkedSub used location.recordLen)
    let extended ← okOr (.invariant "staging final record header is invalid")
      (extendRecord crc buffer recordStart used padding newRecordLen)
    set { state with fill := { fill with
      buffer := some extended
      records := ⟨fill.records.items.dropLast ++ [last.setLocation paddedLocation],
        fill.records.capacity⟩
      endOffset := receipt.paddedEndOffset } }

/-- `take_sealed`. -/
def takeSealed (chunkBytes regionSize : ℕ) (span : RegionWriteSpan) :
    StagingM (Option StagedWrite) := do
  ensureOpen
  let state ← get
  rejectIf (state.encoding.isSome = true ∨ state.submitted.isSome = true) .wouldBlock
  let fill := state.fill
  if fill.isEmpty then pure none
  else do
    failing (rejectIf (spanMatchesRecords span fill.records.items = false ∨
      fill.regionId ≠ span.regionId ∨ fill.startOffset ≠ span.startOffset ∨
      fill.endOffset ≠ span.endOffset ∨ fill.maxSeqno ≠ span.maxSeqno) .staleReceipt)
    let length ← okOr .staleReceipt (Word.checkedSub span.endOffset span.startOffset)
    failing (rejectIf (length = 0 ∨ chunkBytes < length) .staleReceipt)
    let absolute ← orThrow (spanAbsolute regionSize span)
    let buffer ← failing (okOr (.invariant "staging fill lost its buffer") fill.buffer)
    failing (rejectIf (2 ^ 32 ≤ length ∨ buffer.length < length)
      (.invariant "staging could not expose its fill lease"))
    modify fun state => { state with fill := { state.fill with buffer := none } }
    let spareBuffer ← failing (okOr (.invariant "staging lost its second fixed buffer")
      state.spareBuffer)
    modify fun state => { state with spareBuffer := none }
    let spareRecords ← failing (okOr (.invariant "staging lost its second record vector")
      state.spareRecords)
    set { state with
      fill := .new spareBuffer spareRecords.capacity
      spareBuffer := none
      spareRecords := none
      submitted := some span }
    pure (some ⟨span, buffer, length, absolute, fill.records⟩)

/-- `finish`: the buffer, if it came back, with the length that was written. -/
def finish (span : RegionWriteSpan) (buffer : Option (List UInt8 × ℕ)) (records : StagedRecords)
    (failed : Bool) : StagingM Unit := do
  let expected := Word.checkedSub span.endOffset span.startOffset
  let bufferValid := buffer.elim failed fun buffer => expected = some buffer.2
  let completionValid := bufferValid && decide (maxStagingRecords ≤ records.capacity) &&
    spanMatchesRecords span records.items
  let state ← get
  failing (rejectIf (state.submitted ≠ some span ∨ completionValid = false) .staleReceipt)
  failing (rejectIf (state.spareBuffer.isSome = true ∨ state.spareRecords.isSome = true)
    (.invariant "staging completion found occupied spare resources"))
  set { state with
    spareBuffer := Option.map Prod.fst buffer
    spareRecords := some ⟨[], records.capacity⟩
    submitted := none
    failed := state.failed || failed }
  if failed then pure ()
  else do
    rejectIf (state.failed = true) .failed
    rejectIf (state.closed = true) .closed

end StagingShard

/-! ## Records in a chunk -/

/-- The staged records are those of `records`, which lie one behind the other in the Region, from
`offset` on. -/
def Staged (regionId : ℕ) : List ValueRecord → List StagedRecord → ℕ → Prop
  | [], [], _ => True
  | record :: records, item :: items, offset =>
    item.hash = record.keyHash ∧
      PackedLocation.new regionId offset record.recordLen = .ok item.entry.location ∧
      Staged regionId records items (offset + record.recordLen)
  | _, _, _ => False

/-- The numbers of the staged records ascend from above `low` up to `high`. -/
def Ascends : List StagedRecord → ℕ → ℕ → Prop
  | [], low, high => low = high
  | item :: items, low, high => low < item.seqno ∧ Ascends items item.seqno high

section Staged

variable {crc : List UInt8 → BitVec 32} {regionId offset low high : ℕ}
  {records : List ValueRecord} {items : List StagedRecord}

/-- There are as many staged records as records. -/
lemma Staged.length_eq (h : Staged regionId records items offset) :
    items.length = records.length := by
  induction records generalizing items offset with
  | nil =>
    cases items with
    | nil => rfl
    | cons item items => exact h.elim
  | cons record records ih =>
    cases items with
    | nil => exact h.elim
    | cons item items => simp [ih h.2.2]

/-- One more record. -/
lemma Staged.concat (h : Staged regionId records items offset) {record : ValueRecord}
    {item : StagedRecord} (hhash : item.hash = record.keyHash)
    (hlocation : PackedLocation.new regionId
      (offset + (text (ValueRecord.bytes crc) records).length) record.recordLen =
        .ok item.entry.location) :
    Staged regionId (records ++ [record]) (items ++ [item]) offset := by
  induction records generalizing items offset with
  | nil =>
    cases items with
    | nil => exact ⟨hhash, hlocation, trivial⟩
    | cons item items => exact h.elim
  | cons first records ih =>
    cases items with
    | nil => exact h.elim
    | cons item' items =>
      obtain ⟨hfirst, hloc, hrest⟩ := h
      refine ⟨hfirst, hloc, ih hrest ?_⟩
      rw [← hlocation]
      simp only [text_cons, List.length_append, ValueRecord.length_bytes, Nat.add_assoc]

variable (crc) in
/-- The last of the staged records. -/
lemma Staged.of_concat {record : ValueRecord} {item : StagedRecord}
    (h : Staged regionId (records ++ [record]) (items ++ [item]) offset) :
    Staged regionId records items offset ∧ item.hash = record.keyHash ∧
      PackedLocation.new regionId (offset + (text (ValueRecord.bytes crc) records).length)
        record.recordLen = .ok item.entry.location := by
  induction records generalizing items offset with
  | nil =>
    cases items with
    | nil => exact ⟨trivial, h.1, h.2.1⟩
    | cons item' items =>
      cases items with
      | nil => exact h.2.2.elim
      | cons _ _ => exact h.2.2.elim
  | cons first records ih =>
    cases items with
    | nil =>
      cases records with
      | nil => exact h.2.2.elim
      | cons _ _ => exact h.2.2.elim
    | cons item' items =>
      obtain ⟨hfirst, hloc, hrest⟩ := h
      obtain ⟨hstaged, hhash, hlocation⟩ := ih hrest
      refine ⟨⟨hfirst, hloc, hstaged⟩, hhash, ?_⟩
      rw [← hlocation]
      simp only [text_cons, List.length_append, ValueRecord.length_bytes, Nat.add_assoc]

variable (crc) in
/-- Every staged record is one of the records, and has its place in the text. -/
lemma Staged.exists_at (h : Staged regionId records items offset) {item : StagedRecord}
    (hmem : item ∈ items) : ∃ (record : ValueRecord) (position : ℕ),
      At (ValueRecord.bytes crc) records position record ∧ item.hash = record.keyHash ∧
        PackedLocation.new regionId (offset + position) record.recordLen =
          .ok item.entry.location := by
  induction records generalizing items offset with
  | nil =>
    cases items with
    | nil => exact absurd hmem List.not_mem_nil
    | cons item items => exact h.elim
  | cons first records ih =>
    cases items with
    | nil => exact h.elim
    | cons item' items =>
      obtain ⟨hfirst, hloc, hrest⟩ := h
      rcases List.mem_cons.1 hmem with heq | hmem
      · exact ⟨first, 0, at_cons_self, heq ▸ hfirst, heq ▸ hloc⟩
      · obtain ⟨record, position, hat, hhash, hlocation⟩ := ih hrest hmem
        refine ⟨record, first.recordLen + position, at_cons.2 (.inr ?_), hhash, ?_⟩
        · rw [ValueRecord.length_bytes, Nat.add_sub_cancel_left]
          exact ⟨Nat.le_add_right _ _, hat⟩
        · rw [← Nat.add_assoc]
          exact hlocation

/-- One more number. -/
lemma Ascends.concat (h : Ascends items low high) {item : StagedRecord} (hlt : high < item.seqno) :
    Ascends (items ++ [item]) low item.seqno := by
  induction items generalizing low with
  | nil =>
    obtain rfl : low = high := h
    exact ⟨hlt, rfl⟩
  | cons first items ih => exact ⟨h.1, ih h.2⟩

/-- The last number is the greatest one. -/
lemma Ascends.of_concat {item : StagedRecord} (h : Ascends (items ++ [item]) low high) :
    item.seqno = high ∧ ∀ item', item'.seqno = item.seqno →
      Ascends (items ++ [item']) low high := by
  induction items generalizing low with
  | nil =>
    obtain ⟨hlt, heq⟩ := h
    exact ⟨heq, fun item' hseqno => ⟨hseqno ▸ hlt, hseqno.trans heq⟩⟩
  | cons first items ih =>
    obtain ⟨hlt, hrest⟩ := h
    exact ⟨(ih hrest).1, fun item' hseqno => ⟨hlt, (ih hrest).2 item' hseqno⟩⟩

variable (crc) in
/-- **Spans.** A span matches staged records that lie one behind the other from its beginning to its
end, with ascending numbers up to the greatest one of the span. -/
theorem spanMatchesRecords_of_staged {span : RegionWriteSpan}
    (hstaged : Staged regionId records items span.startOffset) (hregion : span.regionId = regionId)
    (hcount : span.recordCount = items.length) (hpos : items ≠ [])
    (hend : span.endOffset = span.startOffset + (text (ValueRecord.bytes crc) records).length)
    (hlt : span.endOffset < 2 ^ 64) (hascends : Ascends items 0 span.maxSeqno) :
    spanMatchesRecords span items = true := by
  have key : ∀ (records : List ValueRecord) (items : List StagedRecord) (offset low : ℕ),
      Staged regionId records items offset → Ascends items low span.maxSeqno →
      span.endOffset = offset + (text (ValueRecord.bytes crc) records).length →
      spanMatchesFrom span items offset low = true := by
    intro records
    induction records with
    | nil =>
      intro items offset low hstaged hascends hend
      cases items with
      | nil =>
        obtain rfl : low = span.maxSeqno := hascends
        simp only [text_nil, List.length_nil, Nat.add_zero] at hend
        simp [spanMatchesFrom, hend]
      | cons item items => exact hstaged.elim
    | cons record records ih =>
      intro items offset low hstaged hascends hend
      cases items with
      | nil => exact hstaged.elim
      | cons item items =>
        obtain ⟨-, hlocation, hrest⟩ := hstaged
        obtain ⟨hlow, hascends⟩ := hascends
        obtain ⟨hid, hoffset, hlen⟩ := PackedLocation.fields_of_new hlocation
        simp only [text_cons, List.length_append, ValueRecord.length_bytes] at hend
        rw [spanMatchesFrom]
        simp only [hid, hoffset, hlen, hregion]
        rw [if_neg (by simp only [ne_eq, not_true_eq_false, false_or]; omega),
          Word.checkedAdd_of_lt (by omega)]
        exact ih items _ _ hrest hascends (by omega)
  rw [spanMatchesRecords, if_neg]
  · exact key records items _ _ hstaged hascends hend
  · have := List.length_pos_iff.2 hpos
    omega

end Staged

/-! ## A filled chunk -/

/-- The chunk holds the records: their bytes are the beginning of the buffer, their entries wait in
order, and the marks of the chunk are theirs. -/
structure FillInv (crc : List UInt8 → BitVec 32) (chunkBytes regionId generation : ℕ)
    (fill : FillChunk) (buffer : List UInt8) (records : List ValueRecord) : Prop where
  length_eq : buffer.length = chunkBytes
  text_eq : buffer.take (text (ValueRecord.bytes crc) records).length =
    text (ValueRecord.bytes crc) records
  staged : Staged regionId records fill.records.items fill.startOffset
  region_eq : records ≠ [] → fill.regionId = regionId
  end_eq : fill.endOffset = fill.startOffset + (text (ValueRecord.bytes crc) records).length
  le_chunk : (text (ValueRecord.bytes crc) records).length ≤ chunkBytes
  count_le : fill.records.items.length ≤ maxStagingRecords
  capacity_le : maxStagingRecords ≤ fill.records.capacity
  ascends : Ascends fill.records.items 0 fill.maxSeqno
  generation_eq : ∀ record ∈ records, record.generation = .ofNat 64 generation

namespace FillInv

variable {crc : List UInt8 → BitVec 32} {chunkBytes regionId generation : ℕ} {fill : FillChunk}
  {buffer : List UInt8} {records : List ValueRecord}

/-- A fresh chunk holds no records. -/
lemma new (hlen : buffer.length = chunkBytes) {capacity : ℕ} (hcap : maxStagingRecords ≤ capacity) :
    FillInv crc chunkBytes regionId generation (.new buffer capacity) buffer [] := by
  refine ⟨hlen, rfl, trivial, fun h => absurd rfl h, rfl, Nat.zero_le _, Nat.zero_le _, hcap, rfl,
    fun record h => absurd h List.not_mem_nil⟩

/-- The chunk does not depend on where its buffer is. -/
lemma withBuffer (h : FillInv crc chunkBytes regionId generation fill buffer records)
    (place : Option (List UInt8)) :
    FillInv crc chunkBytes regionId generation { fill with buffer := place } buffer records :=
  ⟨h.length_eq, h.text_eq, h.staged, h.region_eq, h.end_eq, h.le_chunk, h.count_le, h.capacity_le,
    h.ascends, h.generation_eq⟩

/-- The chunk is empty when it holds no records. -/
lemma isEmpty_iff (h : FillInv crc chunkBytes regionId generation fill buffer records) :
    fill.isEmpty = true ↔ records = [] := by
  rw [FillChunk.isEmpty, List.isEmpty_iff, ← List.length_eq_zero_iff, h.staged.length_eq,
    List.length_eq_zero_iff]

/-- How much of the chunk is used. -/
lemma used_eq (h : FillInv crc chunkBytes regionId generation fill buffer records) :
    fill.used = some (text (ValueRecord.bytes crc) records).length := by
  rw [FillChunk.used, h.end_eq, Word.checkedSub_of_le (Nat.le_add_right _ _),
    Nat.add_sub_cancel_left]

/-- The buffer is the text of the records and what is behind it. -/
lemma buffer_eq (h : FillInv crc chunkBytes regionId generation fill buffer records) :
    buffer = text (ValueRecord.bytes crc) records ++
      buffer.drop (text (ValueRecord.bytes crc) records).length := by
  conv_lhs => rw [← List.take_append_drop (text (ValueRecord.bytes crc) records).length buffer,
    h.text_eq]

/-- A chunk that is not empty has a first byte. -/
lemma length_text_pos (crc : List UInt8 → BitVec 32) {records : List ValueRecord}
    (h : records ≠ []) : 0 < (text (ValueRecord.bytes crc) records).length := by
  cases records with
  | nil => exact absurd rfl h
  | cons record records =>
    have := record.recordHeaderSize_le
    rw [text_cons, List.length_append, ValueRecord.length_bytes]
    omega

/-- The chunk with one more record, which has been written behind the others. -/
lemma push (h : FillInv crc chunkBytes regionId generation fill buffer records)
    {receipt : RegionAppendReservation} {record : ValueRecord} {item : StagedRecord}
    (hregion : receipt.regionId = regionId)
    (hoffset : records ≠ [] → receipt.offset = fill.endOffset)
    (hlen : record.recordLen = receipt.recordBytes)
    (hroom : (text (ValueRecord.bytes crc) records).length + record.recordLen ≤ chunkBytes)
    (hcount : fill.records.items.length < maxStagingRecords) (hhash : item.hash = record.keyHash)
    (hlocation : PackedLocation.new regionId receipt.offset record.recordLen =
      .ok item.entry.location)
    (hseqno : item.seqno = receipt.seqno) (hlt : fill.maxSeqno < receipt.seqno)
    (hgeneration : record.generation = .ofNat 64 generation) :
    FillInv crc chunkBytes regionId generation
      (StagingShard.push fill receipt (receipt.offset + receipt.recordBytes)
        (splice buffer (text (ValueRecord.bytes crc) records).length (record.bytes crc)) item)
      (splice buffer (text (ValueRecord.bytes crc) records).length (record.bytes crc))
      (records ++ [record]) := by
  have hnew : text (ValueRecord.bytes crc) (records ++ [record]) =
      text (ValueRecord.bytes crc) records ++ record.bytes crc := by
    rw [text_append, text_cons, text_nil, List.append_nil]
  have hstart : (StagingShard.push fill receipt (receipt.offset + receipt.recordBytes)
      (splice buffer (text (ValueRecord.bytes crc) records).length (record.bytes crc))
        item).startOffset + (text (ValueRecord.bytes crc) records).length = receipt.offset := by
    unfold StagingShard.push
    dsimp only
    by_cases hrecords : records = []
    · rw [if_pos (h.isEmpty_iff.2 hrecords), hrecords, text_nil, List.length_nil, Nat.add_zero]
    · rw [if_neg fun hempty => hrecords (h.isEmpty_iff.1 hempty), hoffset hrecords, h.end_eq]
  have hstaged : Staged regionId records fill.records.items
      (StagingShard.push fill receipt (receipt.offset + receipt.recordBytes)
        (splice buffer (text (ValueRecord.bytes crc) records).length (record.bytes crc))
          item).startOffset := by
    unfold StagingShard.push
    dsimp only
    split_ifs with hempty
    · have hitems := List.length_eq_zero_iff.1 (h.staged.length_eq.trans
        (List.length_eq_zero_iff.2 (h.isEmpty_iff.1 hempty)))
      rw [h.isEmpty_iff.1 hempty, hitems]
      trivial
    · exact h.staged
  have hmax : max fill.maxSeqno receipt.seqno = item.seqno := by
    rw [hseqno]
    exact Nat.max_eq_right hlt.le
  constructor
  · rw [length_splice (by rw [ValueRecord.length_bytes, h.length_eq]; exact hroom), h.length_eq]
  · rw [hnew, List.length_append, take_splice _ (by rw [h.length_eq]; exact h.le_chunk), h.text_eq]
  · exact hstaged.concat hhash (by rw [hstart]; exact hlocation)
  · intro _
    unfold StagingShard.push
    dsimp only
    split_ifs with hempty
    · exact hregion
    · exact h.region_eq fun hrecords => hempty (h.isEmpty_iff.2 hrecords)
  · rw [hnew, List.length_append, ← Nat.add_assoc, hstart, ValueRecord.length_bytes, hlen]
    rfl
  · rw [hnew, List.length_append, ValueRecord.length_bytes]
    exact hroom
  · simp only [StagingShard.push, List.length_append, List.length_singleton]
    omega
  · exact le_max_of_le_left h.capacity_le
  · simp only [StagingShard.push, hmax]
    exact h.ascends.concat (hseqno ▸ hlt)
  · intro r hr
    rcases List.mem_append.1 hr with hr | hr
    · exact h.generation_eq r hr
    · rw [List.mem_singleton.1 hr]
      exact hgeneration

/-- The chunk whose last record has been extended to a page. -/
lemma pad {last : ValueRecord} {items : List StagedRecord} {item : StagedRecord} {padding : ℕ}
    (h : FillInv crc chunkBytes regionId generation fill buffer (records ++ [last]))
    (hitems : fill.records.items = items ++ [item]) (haligned : padding % 32 = 0)
    (hle : last.recordLen + padding ≤ maxRecordLen)
    (hroom : (text (ValueRecord.bytes crc) (records ++ [last])).length + padding ≤ chunkBytes)
    {location : PackedLocation} {extended : List UInt8}
    (hlocation : PackedLocation.new regionId
      (fill.startOffset + (text (ValueRecord.bytes crc) records).length)
        (last.recordLen + padding) = .ok location)
    (hextended : extended = text (ValueRecord.bytes crc) records ++
      ((last.padded padding haligned hle).bytes crc ++
        buffer.drop ((text (ValueRecord.bytes crc) (records ++ [last])).length + padding))) :
    FillInv crc chunkBytes regionId generation
      { fill with
        buffer := some extended
        records := ⟨items ++ [item.setLocation location], fill.records.capacity⟩
        endOffset := fill.endOffset + padding }
      extended (records ++ [last.padded padding haligned hle]) := by
  have hpadded := last.recordLen_padded haligned hle
  have hlen : ∀ r : ValueRecord, (text (ValueRecord.bytes crc) (records ++ [r])).length =
      (text (ValueRecord.bytes crc) records).length + r.recordLen := by
    intro r
    simp only [text_append, text_cons, text_nil, List.append_nil, List.length_append,
      ValueRecord.length_bytes]
  have hstaged := h.staged
  rw [hitems] at hstaged
  obtain ⟨hbefore, hhash, -⟩ := hstaged.of_concat crc
  have hlast := hlen last
  constructor
  · rw [hextended, List.length_append, List.length_append, ValueRecord.length_bytes, hpadded,
      List.length_drop, h.length_eq]
    omega
  · rw [hextended, ← List.append_assoc]
    have htext : text (ValueRecord.bytes crc) (records ++ [last.padded padding haligned hle]) =
        text (ValueRecord.bytes crc) records ++ (last.padded padding haligned hle).bytes crc := by
      rw [text_append, text_cons, text_nil, List.append_nil]
    rw [htext, List.take_left]
  · exact hbefore.concat hhash (by rw [hpadded]; exact hlocation)
  · exact fun _ => h.region_eq (by simp)
  · rw [hlen, hpadded]
    show fill.endOffset + padding = fill.startOffset + _
    rw [h.end_eq, hlast]
    omega
  · rw [hlen, hpadded]
    omega
  · have := h.count_le
    rw [hitems] at this
    simpa using this
  · exact h.capacity_le
  · have := h.ascends
    rw [hitems] at this
    exact this.of_concat.2 _ rfl
  · intro r hr
    rcases List.mem_append.1 hr with hr | hr
    · exact h.generation_eq r (List.mem_append_left _ hr)
    · rw [List.mem_singleton.1 hr]
      exact h.generation_eq last (List.mem_append_right _ (List.mem_singleton_self _))

end FillInv

/-! ## What the operations do -/

namespace StagingShard

variable {crc : List UInt8 → BitVec 32} {chunkBytes regionSize regionId generation : ℕ}
  {state : StagingShard} {buffer : List UInt8} {records : List ValueRecord}

/-- The shard takes part: it has neither failed nor been closed. -/
def IsOpen (state : StagingShard) : Prop := state.failed = false ∧ state.closed = false

/-- An open shard passes. -/
lemma ensureOpen_bind {α : Type} (h : state.IsOpen) (f : Unit → StagingM α) :
    (ensureOpen >>= f) state = f () state := by
  refine bind_ok ?_
  rw [ensureOpen, get_bind, rejectIf, if_neg (by simp [h.1]), rejectIf, if_neg (by simp [h.2])]
  rfl

/-- What does not fail does not mark the shard. -/
lemma failing_bind {α β : Type} {f : StagingM β} {b : β} (h : f state = .ok b state)
    (g : β → StagingM α) : (failing f >>= g) state = g b state := by
  refine bind_ok ?_
  rw [failing, h]

/-- A check that passes does not mark the shard. -/
lemma failing_rejectIf_bind {α : Type} {c : Prop} [Decidable c] {e : StagingError} (h : ¬ c)
    (g : Unit → StagingM α) : (failing (rejectIf c e) >>= g) state = g () state := by
  refine failing_bind ?_ g
  rw [rejectIf, if_neg h]
  rfl

/-- A value that is there does not mark the shard. -/
lemma failing_okOr_bind {α β : Type} {e : StagingError} {x : Option β} {b : β} (h : x = some b)
    (g : β → StagingM α) : (failing (okOr e x) >>= g) state = g b state := by
  refine failing_bind ?_ g
  rw [h]
  rfl

/-- A preflight on an open shard that is not encoding. -/
lemma preflightAppend_ok (hopen : state.IsOpen) (hencoding : state.encoding = none) {used n : ℕ}
    (hused : state.fill.used = some used) (hn : n ≠ 0 ∧ n ≤ chunkBytes ∧ n % 32 = 0) :
    preflightAppend chunkBytes n state =
      .ok (if exceeds state.fill chunkBytes used n then .needsSeal else .appended used (used + n))
        state := by
  rw [preflightAppend, rejectIf_bind (by unfold recordAlignment; omega), ensureOpen_bind hopen,
    get_bind, rejectIf_bind (by simp [hencoding]), okOr_bind hused]
  split_ifs <;> rfl

/-- When a record does not fit. -/
lemma exceeds_iff {fill : FillChunk} {used n : ℕ} (hlt : used + n < 2 ^ 64) :
    exceeds fill chunkBytes used n = true ↔
      fill.records.items.length = maxStagingRecords ∨ chunkBytes < used + n := by
  rw [exceeds, Word.checkedAdd_of_lt hlt]
  simp

/-- A look at a shard that is neither encoding nor waiting for a write. -/
lemma shardFillSnapshot_ok (hopen : state.IsOpen) (hencoding : state.encoding = none)
    (hsubmitted : state.submitted = none)
    (hfill : FillInv crc chunkBytes regionId generation state.fill buffer records) :
    shardFillSnapshot chunkBytes state = .ok (if records = [] then none else
      some ⟨(text (ValueRecord.bytes crc) records).length, state.fill.records.items.length⟩)
        state := by
  rw [shardFillSnapshot, ensureOpen_bind hopen, get_bind, rejectIf_bind (by simp [hencoding]),
    rejectIf_bind (by simp [hsubmitted])]
  by_cases hrecords : records = []
  · rw [if_pos (hfill.isEmpty_iff.2 hrecords), if_pos hrecords]
    rfl
  · have hpos := FillInv.length_text_pos crc hrecords
    have hle := hfill.le_chunk
    rw [if_neg fun h => hrecords (hfill.isEmpty_iff.1 h), if_neg hrecords, okOr_bind]
    · rfl
    · rw [hfill.used_eq, Option.filter_some, if_pos]
      rw [decide_eq_true_eq]
      exact ⟨by omega, hle⟩

/-- A look at a shard that is encoding, or is waiting for a write. -/
lemma shardFillSnapshot_busy (hopen : state.IsOpen)
    (hbusy : state.encoding.isSome = true ∨ state.submitted.isSome = true) :
    shardFillSnapshot chunkBytes state = .error .wouldBlock state := by
  rw [shardFillSnapshot, ensureOpen_bind hopen, get_bind]
  by_cases hencoding : state.encoding.isSome = true
  · rw [rejectIf, if_pos hencoding]
    rfl
  · rw [rejectIf_bind hencoding, rejectIf, if_pos (hbusy.resolve_left hencoding)]
    rfl

/-- A reservation that the staging area accepts. -/
lemma validateReservation_ok {receipt : RegionAppendReservation} (hseqno : receipt.seqno ≠ 0)
    (hlen : receipt.recordBytes ≠ 0 ∧ receipt.recordBytes % 32 = 0)
    (hoffset : receipt.offset % 32 = 0) (hend : receipt.offset + receipt.recordBytes ≤ regionSize)
    (hsize : regionSize < 2 ^ 64) : validateReservation regionSize receipt = .ok () := by
  rw [validateReservation, RegionAppendReservation.endOffset, Word.checkedAdd_of_lt (by omega)]
  dsimp only
  rw [if_neg (by unfold recordAlignment; omega)]

/-- The encoding begins when the record fits behind the others. -/
lemma beginEncode_ok (hopen : state.IsOpen) (hencoding : state.encoding = none)
    (hbuffer : state.fill.buffer = some buffer)
    (hfill : FillInv crc chunkBytes regionId generation state.fill buffer records)
    {receipt : RegionAppendReservation}
    (hvalid : validateReservation regionSize receipt = .ok ())
    (hroom : (text (ValueRecord.bytes crc) records).length + receipt.recordBytes ≤ chunkBytes)
    (hchunk : chunkBytes < 2 ^ 64) (hcount : state.fill.records.items.length < maxStagingRecords)
    (hnext : records ≠ [] → receipt.regionId = regionId ∧ receipt.offset = state.fill.endOffset ∧
      state.fill.maxSeqno < receipt.seqno) :
    beginEncode chunkBytes regionSize receipt state =
      .ok (some ((text (ValueRecord.bytes crc) records).length,
        (text (ValueRecord.bytes crc) records).length + receipt.recordBytes, buffer))
        { state with fill := { state.fill with buffer := none }, encoding := some receipt } := by
  have hexceeds : ¬ exceeds state.fill chunkBytes (text (ValueRecord.bytes crc) records).length
      receipt.recordBytes = true := by
    rw [exceeds_iff (by omega)]
    omega
  have hstale : ¬ (state.fill.isEmpty = false ∧ (state.fill.regionId ≠ receipt.regionId ∨
      state.fill.endOffset ≠ receipt.offset ∨ receipt.seqno ≤ state.fill.maxSeqno)) := by
    intro h
    have hrecords : records ≠ [] := fun hnil => by
      rw [hfill.isEmpty_iff.2 hnil] at h
      exact absurd h.1 (by decide)
    obtain ⟨h1, h2, h3⟩ := hnext hrecords
    have hregion := hfill.region_eq hrecords
    rcases h.2 with h | h | h <;> omega
  rw [beginEncode, hvalid]
  show (ensureOpen >>= _) state = _
  rw [ensureOpen_bind hopen, get_bind, rejectIf_bind (by simp [hencoding])]
  dsimp only
  rw [okOr_bind hfill.used_eq, rejectIf_bind (by omega), if_neg hexceeds, rejectIf_bind hstale,
    okOr_bind (Word.checkedAdd_of_lt (by omega)), okOr_bind hbuffer]
  rfl

/-- The record is staged when the encoder has written it. -/
lemma finishEncode_ok {ε : Type} (hopen : state.IsOpen) {receipt : RegionAppendReservation}
    (hencoding : state.encoding = some receipt) (hbuffer : state.fill.buffer = none)
    {start finish : ℕ} (hfinish : finish ≤ buffer.length)
    {encode : List UInt8 → Except ε (List UInt8 × StagedRecord)} {bytes : List UInt8}
    {item : StagedRecord}
    (hencode : encode (slice buffer start (finish - start)) = .ok (bytes, item))
    (hvalid : validateReservation regionSize receipt = .ok ())
    (hlocation : PackedLocation.new receipt.regionId receipt.offset receipt.recordBytes =
      .ok item.entry.location)
    (hseqno : item.seqno = receipt.seqno)
    (hlt : receipt.offset + receipt.recordBytes < 2 ^ 64) :
    finishEncode regionSize receipt start finish buffer encode state =
      .ok (.appended start finish)
        { state with
          fill := push state.fill receipt (receipt.offset + receipt.recordBytes)
            (splice buffer start bytes) item
          encoding := none } := by
  obtain ⟨hid, hoffset, hlen⟩ := PackedLocation.fields_of_new hlocation
  have hrecord : validateRecord regionSize receipt item = .ok () := by
    rw [validateRecord, hvalid]
    exact if_neg (by simp [hid, hoffset, hlen, hseqno])
  have hinto : encodeInto regionSize receipt start finish buffer encode =
      .ok (splice buffer start bytes, item) := by
    rw [encodeInto, if_neg (by omega), hencode]
    show (validateRecord regionSize receipt item).mapError _ >>= _ = _
    rw [hrecord]
    rfl
  have hpass : ensureOpen state = .ok () state := by
    have := ensureOpen_bind hopen (pure : Unit → StagingM Unit)
    rwa [bind_pure] at this
  rw [finishEncode, hinto]
  dsimp only
  rw [if_neg (by simp [hencoding, hbuffer]), hpass, RegionAppendReservation.endOffset,
    Word.checkedAdd_of_lt hlt]

/-- **Padding.** A padding that belongs to the chunk extends its last record. -/
theorem applyWritePadding_ok (hopen : state.IsOpen) (hencoding : state.encoding = none)
    (hsubmitted : state.submitted = none) (hbuffer : state.fill.buffer = some buffer)
    {last : ValueRecord} {items : List StagedRecord} {item : StagedRecord}
    (hfill : FillInv crc chunkBytes regionId generation state.fill buffer (records ++ [last]))
    (hitems : state.fill.records.items = items ++ [item]) {receipt : RegionPaddingReceipt}
    {padding : ℕ} (hpadding : padding ≠ 0 ∧ padding < 4096 ∧ padding % 32 = 0)
    (hreceipt : receipt = ⟨receipt.shardId, regionId, state.fill.startOffset, state.fill.endOffset,
      state.fill.endOffset + padding, state.fill.records.items.length, state.fill.maxSeqno⟩)
    (hstart : state.fill.startOffset % 4096 = 0)
    (hend : (state.fill.endOffset + padding) % 4096 = 0)
    (hregion : state.fill.endOffset + padding ≤ regionSize)
    (hsize : regionSize ≤ maxPackedRegionSize) (hid : regionId ≤ maxRegionId)
    (hroom : (text (ValueRecord.bytes crc) (records ++ [last])).length + padding ≤ chunkBytes) :
    ∃ (haligned : padding % 32 = 0) (hle : last.recordLen + padding ≤ maxRecordLen)
      (fill : FillChunk) (extended : List UInt8),
      applyWritePadding crc chunkBytes regionSize receipt state = .ok () { state with fill } ∧
      fill.buffer = some extended ∧ fill.startOffset = state.fill.startOffset ∧
      fill.endOffset = state.fill.endOffset + padding ∧ fill.maxSeqno = state.fill.maxSeqno ∧
      (∃ location, fill.records.items = items ++ [item.setLocation location]) ∧
      FillInv crc chunkBytes regionId generation fill extended
        (records ++ [last.padded padding haligned hle]) := by
  obtain ⟨hpos, hpage, haligned⟩ := hpadding
  have hnew : text (ValueRecord.bytes crc) (records ++ [last]) =
      text (ValueRecord.bytes crc) records ++ last.bytes crc := by
    rw [text_append, text_cons, text_nil, List.append_nil]
  have hlenNew : (text (ValueRecord.bytes crc) (records ++ [last])).length =
      (text (ValueRecord.bytes crc) records).length + last.recordLen := by
    rw [hnew, List.length_append, ValueRecord.length_bytes]
  have hrec := last.recordHeaderSize_le
  have hendEq := hfill.end_eq
  have hmaxLen : maxRecordLen = 2 ^ 25 := by decide
  have hmaxSize : maxPackedRegionSize = 2 ^ 25 := by decide
  have hle : last.recordLen + padding ≤ maxRecordLen := by omega
  have hstaged := hfill.staged
  rw [hitems] at hstaged
  obtain ⟨-, -, hlocation⟩ := hstaged.of_concat crc
  obtain ⟨hlid, hloffset, hllen⟩ := PackedLocation.fields_of_new hlocation
  have hmod := ValueRecord.text_aligned crc records
  have hmodNew := ValueRecord.text_aligned crc (records ++ [last])
  have hascends := hfill.ascends
  rw [hitems] at hascends
  have hseqno := hascends.of_concat.1
  -- the new place of the last record
  obtain ⟨location, hnewLocation, -⟩ := PackedLocation.new_eq_ok (r := regionId)
    (o := state.fill.startOffset + (text (ValueRecord.bytes crc) records).length)
    (n := last.recordLen + padding)
    ⟨hid, by unfold offsetAlignment; omega,
      by unfold maxRegionOffset offsetMask offsetAlignment; omega,
      ⟨by omega, hle, by unfold recordLenAlignment; omega⟩⟩
  have hrest : padding ≤
      (buffer.drop (text (ValueRecord.bytes crc) (records ++ [last])).length).length := by
    rw [List.length_drop, hfill.length_eq]
    omega
  have hextend := extendRecord_bytes crc last (text (ValueRecord.bytes crc) records) _ haligned hle
    hrest
  rw [List.drop_drop, ← List.append_assoc _ (last.bytes crc), ← hnew, ← hfill.buffer_eq] at hextend
  refine ⟨haligned, hle, { state.fill with
      buffer := some (text (ValueRecord.bytes crc) records ++
        ((last.padded padding haligned hle).bytes crc ++
          buffer.drop ((text (ValueRecord.bytes crc) (records ++ [last])).length + padding)))
      records := ⟨items ++ [item.setLocation location], state.fill.records.capacity⟩
      endOffset := state.fill.endOffset + padding }, _, ?_, rfl, rfl, rfl, rfl, ?_,
    hfill.pad hitems haligned hle hroom hnewLocation rfl⟩
  · have hsubBytes : receipt.paddingBytes = some padding := by
      rw [hreceipt, RegionPaddingReceipt.paddingBytes]
      dsimp only
      rw [Word.checkedSub_of_le (Nat.le_add_right _ _), Nat.add_sub_cancel_left, Option.filter_some,
        if_pos]
      rw [decide_eq_true_eq]
      omega
    have hfilter : (receipt.paddingBytes.filter fun bytes =>
        bytes ≠ 0 ∧ bytes < directIoAlignment ∧ bytes % recordAlignment = 0) = some padding := by
      rw [hsubBytes, Option.filter_some, if_pos]
      rw [decide_eq_true_eq]
      unfold directIoAlignment recordAlignment
      exact ⟨hpos, hpage, haligned⟩
    have hempty : state.fill.isEmpty = false := by
      rw [← Bool.not_eq_true, hfill.isEmpty_iff]
      simp
    have hstale : ¬ paddingStale regionSize state.fill receipt := by
      have hregionEq := hfill.region_eq (by simp)
      rw [hreceipt, paddingStale]
      unfold directIoAlignment recordAlignment
      simp only [hempty, hregionEq, ne_eq, not_true_eq_false, Bool.false_eq_true, or_false, not_or,
        Decidable.not_not]
      omega
    rw [applyWritePadding, ensureOpen_bind hopen, failing]
    rw [get_bind, rejectIf_bind (by simp [hencoding, hsubmitted])]
    dsimp only
    rw [okOr_bind hfilter, rejectIf_bind hstale, okOr_bind hfill.used_eq]
    have hrId : receipt.regionId = regionId := congrArg RegionPaddingReceipt.regionId hreceipt
    have hrStart : receipt.spanStartOffset = state.fill.startOffset :=
      congrArg RegionPaddingReceipt.spanStartOffset hreceipt
    have hrUnpadded : receipt.unpaddedEndOffset = state.fill.endOffset :=
      congrArg RegionPaddingReceipt.unpaddedEndOffset hreceipt
    have hrPadded : receipt.paddedEndOffset = state.fill.endOffset + padding :=
      congrArg RegionPaddingReceipt.paddedEndOffset hreceipt
    have hrSeqno : receipt.maxSeqno = state.fill.maxSeqno :=
      congrArg RegionPaddingReceipt.maxSeqno hreceipt
    have hlast : state.fill.records.items.getLast? = some item := by simp [hitems]
    have hpadded : (Word.checkedAdd 64 (text (ValueRecord.bytes crc) (records ++ [last])).length
        padding).filter (· ≤ chunkBytes) =
          some ((text (ValueRecord.bytes crc) (records ++ [last])).length + padding) := by
      rw [Word.checkedAdd_of_lt (by omega), Option.filter_some, if_pos (decide_eq_true hroom)]
    have hexpected : Word.checkedSub receipt.paddedEndOffset receipt.spanStartOffset =
        some ((text (ValueRecord.bytes crc) (records ++ [last])).length + padding) := by
      rw [hrPadded, hrStart, Word.checkedSub_of_le (by omega), hendEq, Nat.add_assoc,
        Nat.add_sub_cancel_left]
    have hnewLen : (Word.checkedAdd 32 item.entry.location.recordLen padding).filter
        (· ≤ maxRecordLen) = some (last.recordLen + padding) := by
      rw [hllen, Word.checkedAdd_of_lt (by omega), Option.filter_some,
        if_pos (decide_eq_true hle)]
    have hrecordEnd : Word.checkedAdd 64 item.entry.location.offset item.entry.location.recordLen =
        some state.fill.endOffset := by
      rw [hloffset, hllen, Word.checkedAdd_of_lt (by omega), hendEq, hlenNew, Nat.add_assoc]
    have hlastStale : ¬ (item.entry.location.regionId ≠ receipt.regionId ∨
        item.seqno ≠ receipt.maxSeqno ∨ state.fill.endOffset ≠ receipt.unpaddedEndOffset) := by
      rw [hlid, hrId, hseqno, hrSeqno, hrUnpadded]
      simp
    have hsized : ¬ buffer.length <
        (text (ValueRecord.bytes crc) (records ++ [last])).length + padding := by
      rw [hfill.length_eq]
      omega
    have hrecordStart : Word.checkedSub (text (ValueRecord.bytes crc) (records ++ [last])).length
        item.entry.location.recordLen = some (text (ValueRecord.bytes crc) records).length := by
      rw [hllen, Word.checkedSub_of_le (by omega), hlenNew, Nat.add_sub_cancel]
    have hlocated : (PackedLocation.new receipt.regionId item.entry.location.offset
        (last.recordLen + padding)).mapError
          (fun _ => StagingError.invariant "padded location is invalid") = .ok location := by
      rw [hrId, hloffset, hnewLocation]
      rfl
    rw [okOr_bind hpadded, okOr_bind hexpected, rejectIf_bind (by simp), okOr_bind hlast,
      okOr_bind hnewLen, okOr_bind hrecordEnd, rejectIf_bind hlastStale, okOr_bind hbuffer,
      rejectIf_bind hsized, orThrow_bind hlocated, okOr_bind hrecordStart]
    rw [← hlenNew] at hextend
    rw [okOr_bind hextend, hitems, List.dropLast_concat, hrPadded]
    rfl
  · exact ⟨location, rfl⟩

/-- The offset of a span on the device. -/
lemma spanAbsolute_ok {span : RegionWriteSpan} (hend : span.endOffset ≤ regionSize)
    (hstart : span.startOffset ≤ span.endOffset)
    (hlt : dataRegionAreaOffset + span.regionId * regionSize + regionSize < 2 ^ 64) :
    spanAbsolute regionSize span =
      .ok (dataRegionAreaOffset + span.regionId * regionSize + span.startOffset) := by
  rw [spanAbsolute, if_neg (by omega), Word.checkedMul_of_lt (by omega)]
  dsimp only
  rw [Word.checkedAdd_of_lt (by omega), Option.bind_some, Word.checkedAdd_of_lt (by omega)]
  rfl

/-- **Seals.** A span that belongs to the chunk takes it for a write, and the spare chunk is filled
from then on. The bytes that are written are those of the records. -/
theorem takeSealed_ok (hopen : state.IsOpen) (hencoding : state.encoding = none)
    (hsubmitted : state.submitted = none) (hbuffer : state.fill.buffer = some buffer)
    (hfill : FillInv crc chunkBytes regionId generation state.fill buffer records)
    (hrecords : records ≠ []) {spare : List UInt8} (hspare : state.spareBuffer = some spare)
    {spareRecords : StagedRecords} (hspareRecords : state.spareRecords = some spareRecords)
    {span : RegionWriteSpan}
    (hspan : span = ⟨span.shardId, regionId, state.fill.startOffset, state.fill.endOffset,
      state.fill.records.items.length, state.fill.maxSeqno⟩)
    (hend : span.endOffset ≤ regionSize)
    (hlt : dataRegionAreaOffset + regionId * regionSize + regionSize < 2 ^ 64)
    (hchunk : chunkBytes < 2 ^ 32) :
    ∃ job, takeSealed chunkBytes regionSize span state =
      .ok (some job) { state with
        fill := .new spare spareRecords.capacity
        spareBuffer := none
        spareRecords := none
        submitted := some span } ∧
      job.span = span ∧ job.buffer = buffer ∧
      job.length = (text (ValueRecord.bytes crc) records).length ∧
      job.absolute = dataRegionAreaOffset + regionId * regionSize + span.startOffset ∧
      job.records = state.fill.records ∧ job.bytes = text (ValueRecord.bytes crc) records := by
  have hsId : span.regionId = regionId := congrArg RegionWriteSpan.regionId hspan
  have hsStart : span.startOffset = state.fill.startOffset :=
    congrArg RegionWriteSpan.startOffset hspan
  have hsEnd : span.endOffset = state.fill.endOffset := congrArg RegionWriteSpan.endOffset hspan
  have hsCount : span.recordCount = state.fill.records.items.length :=
    congrArg RegionWriteSpan.recordCount hspan
  have hsSeqno : span.maxSeqno = state.fill.maxSeqno := congrArg RegionWriteSpan.maxSeqno hspan
  have hendEq := hfill.end_eq
  have hpos := FillInv.length_text_pos crc hrecords
  have hchunkLe := hfill.le_chunk
  have hempty : ¬ state.fill.isEmpty = true := fun h => hrecords (hfill.isEmpty_iff.1 h)
  have hitems : state.fill.records.items ≠ [] := fun h => hempty (by
    rw [FillChunk.isEmpty, h, List.isEmpty_nil])
  have hmatches : spanMatchesRecords span state.fill.records.items = true :=
    spanMatchesRecords_of_staged crc (hsStart ▸ hfill.staged) hsId hsCount hitems
      (by rw [hsEnd, hendEq, hsStart]) (by omega) (hsSeqno ▸ hfill.ascends)
  have hlength : Word.checkedSub span.endOffset span.startOffset =
      some (text (ValueRecord.bytes crc) records).length := by
    rw [hsEnd, hsStart, Word.checkedSub_of_le (by omega), hendEq, Nat.add_sub_cancel_left]
  have habsolute := spanAbsolute_ok hend (by omega) (hsId ▸ hlt)
  have hregionEq := hfill.region_eq hrecords
  rw [hsId] at habsolute
  refine ⟨⟨span, buffer, (text (ValueRecord.bytes crc) records).length, _, state.fill.records⟩, ?_,
    rfl, rfl, rfl, rfl, rfl, hfill.text_eq⟩
  rw [takeSealed, ensureOpen_bind hopen, get_bind,
    rejectIf_bind (by simp [hencoding, hsubmitted])]
  dsimp only
  rw [if_neg hempty, failing_rejectIf_bind, okOr_bind hlength, failing_rejectIf_bind (by omega),
    orThrow_bind habsolute, failing_okOr_bind hbuffer, failing_rejectIf_bind, modify_bind,
    failing_okOr_bind hspare, modify_bind, failing_okOr_bind hspareRecords]
  · rfl
  · rw [hfill.length_eq]
    omega
  · rw [hmatches, hregionEq, hsId, hsStart, hsEnd, hsSeqno]
    simp

/-- **Completions.** The chunk of a completed write is the spare one again. -/
theorem finish_ok (hopen : state.IsOpen) {span : RegionWriteSpan}
    (hsubmitted : state.submitted = some span) (hspare : state.spareBuffer = none)
    (hspareRecords : state.spareRecords = none) {staged : StagedRecords} {length : ℕ}
    (hlength : Word.checkedSub span.endOffset span.startOffset = some length)
    (hcapacity : maxStagingRecords ≤ staged.capacity)
    (hmatches : spanMatchesRecords span staged.items = true) :
    finish span (some (buffer, length)) staged false state =
      .ok () { state with
        spareBuffer := some buffer
        spareRecords := some ⟨[], staged.capacity⟩
        submitted := none } := by
  rw [finish, get_bind, failing_rejectIf_bind,
    failing_rejectIf_bind (by simp [hspare, hspareRecords]), set_bind]
  · rw [if_neg (by simp), rejectIf_bind (by simp [hopen.1]), rejectIf, if_neg (by simp [hopen.2])]
    simp [hopen.1]
  · simp [hsubmitted, hlength, hcapacity, hmatches]

end StagingShard

end Cache2
