import Cache2.Index.Reinsertion
import Cache2.Region.Manager
import Cache2.Region.ValueRead

set_option relaxedAutoImplicit false
set_option autoImplicit false

/-!
# Scanning a sealed Region

Before a sealed Region is used again, all its records are scanned (`scan_reclaim`,
`region/mod.rs`). For each record the index decides whether its entry is cold, in which case it is
removed, or hot. A hot record is offered to a sink that may stage it again, as long as the sink
accepts and the budget lasts; otherwise its entry is removed as well.

The index and the sink make up the state. The sink stands for `try_stage_reinsert` on a shard.

## Main definitions

* `Cache2.scanRecord` — the record at an offset of the prefix.
* `Cache2.reinsertDecision` — whether a hot record is offered.
* `Cache2.scanStep`, `Cache2.scanReclaim` — one record, and the whole prefix.
* `Cache2.RecordFate`, `Cache2.ScanTurn` — what becomes of a record, and why.
* `Cache2.ScanRun` — the records of a log, one after another.
* `Cache2.SinkRun` — what the sink was offered, and what it has answered.

## Main results

* `Cache2.scanRecord_of_at` — the records of a log are found.
* `Cache2.ScanRun.unique` — what becomes of the records is determined.
* `Cache2.ScanRun.counted`, `Cache2.ScanRun.index` — the counters and the index after a run.
* `Cache2.scanReclaim_log` — the scan of a log succeeds, and its counters are exact.
-/

namespace Cache2

open Bytes Loop Framing TokenTable

/-! ## Definitions -/

/-- `RegionReclaimStats`. -/
structure RegionReclaimStats where
  recordsScanned : ℕ
  recordsRemoved : ℕ
  bytesRead : ℕ
  reinsertRecords : ℕ
  reinsertBytes : ℕ
  reinsertSkipped : ℕ
  reinsertBudgetSkipped : ℕ
  deriving DecidableEq, Repr

/-- `RegionReinsertRecord`. -/
structure RegionReinsertRecord (crc : List UInt8 → BitVec 32) where
  hash : Hash
  previousLocation : PackedLocation
  logicalSeqno : ℕ
  recordBytes : ℕ
  payload : RecordPayload crc

/-- What the loop carries along: where it is, what it has counted, what may still be accepted, and
whether the sink accepts. -/
structure ScanCursor where
  offset : ℕ
  stats : RegionReclaimStats
  budget : ℕ
  accepting : Bool
  deriving DecidableEq, Repr

/-- A record of the prefix, with the ends of its parts. -/
structure ReclaimRecord where
  header : RecordHeader
  headerEnd : ℕ
  payloadEnd : ℕ
  recordEnd : ℕ
  location : PackedLocation
  deriving DecidableEq, Repr

/-- Whether a hot record is offered. -/
inductive ReinsertDecision (crc : List UInt8 → BitVec 32)
  | offer (record : RegionReinsertRecord crc)
  | budgetSkipped
  | skipped

/-- The state of a scan: the index and the sink. -/
structure ScanState (τ : Type) where
  index : RegionIndex
  sink : τ

/-- A failed check of the scan. -/
def orInvalidData {α : Type} (message : String) : Option α → Except IoError α
  | some a => .ok a
  | none => .error (ioError .invalidData message)

/-- The text of a `PackedLocationError`. -/
def PackedLocationError.text : PackedLocationError → String
  | .regionOutOfRange => "region id does not fit in 20 bits"
  | .offsetUnaligned => "region offset is not 32-byte aligned"
  | .offsetOutOfRange => "region offset does not fit in 20 units"
  | .recordLengthZero => "record length must be non-zero"
  | .recordLengthUnaligned => "record length is not 32-byte aligned"
  | .recordLengthOutOfRange => "record length does not fit in 20 units"

/-- The record at an offset, with the checks of `scan_reclaim`. -/
def scanRecord (crc : List UInt8 → BitVec 32) (receipt : RegionReclaimReceipt)
    (bytes : List UInt8) (offset : ℕ) : Except IoError ReclaimRecord := do
  let headerEnd ← orInvalidData "reclaim header offset overflow"
    (Word.checkedAdd 64 offset recordHeaderSize)
  let header ← orInvalidData "reclaim found an invalid record header"
    ((getRange bytes offset headerEnd).bind (RecordHeader.decode crc))
  let recordEnd ← orInvalidData "reclaim record crosses the sealed prefix"
    ((Word.checkedAdd 64 offset header.recordLen.toNat).filter (· ≤ bytes.length))
  let payloadEnd ← orInvalidData "reclaim record payload is out of bounds"
    (((Word.checkedAdd 64 headerEnd header.keyLen.toNat).bind fun finish =>
      Word.checkedAdd 64 finish header.valueLen.toNat).filter (· ≤ recordEnd))
  if header.regionGeneration.toNat ≠ receipt.createdSeqno ∨ recordEnd < payloadEnd then
    .error (ioError .invalidData "reclaim record belongs to another Region generation")
  else do
    let offset32 ← orInvalidData "reclaim record offset is too large" (tryU32 offset)
    let location ← (PackedLocation.new receipt.regionId offset32 header.recordLen.toNat).mapError
      fun error => ioError .invalidData error.text
    .ok ⟨header, headerEnd, payloadEnd, recordEnd, location⟩

/-- Whether a hot record is offered: within the budget, while the sink accepts, with an intact
payload. A record beyond the budget is counted if its payload is intact. -/
def reinsertDecision (crc : List UInt8 → BitVec 32) (bytes : List UInt8) (cursor : ScanCursor)
    (scanned : ReclaimRecord) : Except IoError (ReinsertDecision crc) := do
  let keyEnd ← orInvalidData "reclaim key range overflow"
    (Word.checkedAdd 64 scanned.headerEnd scanned.header.keyLen.toNat)
  let key := slice bytes scanned.headerEnd (keyEnd - scanned.headerEnd)
  let value := slice bytes keyEnd (scanned.payloadEnd - keyEnd)
  let rewriteBytes ← orInvalidData "reclaim replacement record is too large"
    (RecordHeader.alignedLen key.length value.length)
  if cursor.accepting = true ∨ cursor.budget < rewriteBytes then
    match RecordPayload.validate crc key value scanned.header.payloadCrc with
    | none => .ok .skipped
    | some payload =>
      if rewriteBytes ≤ cursor.budget then
        .ok (.offer ⟨scanned.header.keyHash, scanned.location, scanned.header.seqno.toNat,
          rewriteBytes, payload⟩)
      else .ok .budgetSkipped
  else .ok .skipped

namespace ScanCursor

/-- The cursor at the beginning. -/
def start (receipt : RegionReclaimReceipt) (accepting : Bool) : ScanCursor :=
  let raw := receipt.usedOffset / 8 - directIoAlignment
  ⟨0, ⟨0, 0, receipt.usedOffset, 0, 0, 0, 0⟩, raw - raw % recordAlignment, accepting⟩

/-- One more entry has been removed. -/
def removed (cursor : ScanCursor) : ScanCursor :=
  { cursor with
    stats.recordsRemoved := Word.saturatingAdd 64 cursor.stats.recordsRemoved 1 }

/-- The sink has accepted a record. -/
def accepted (cursor : ScanCursor) (rewriteBytes : ℕ) : ScanCursor :=
  { cursor with
    accepting := true
    budget := cursor.budget - rewriteBytes
    stats.reinsertRecords := Word.saturatingAdd 64 cursor.stats.reinsertRecords 1
    stats.reinsertBytes := Word.saturatingAdd 64 cursor.stats.reinsertBytes rewriteBytes }

/-- The sink has refused a record. -/
def refused (cursor : ScanCursor) : ScanCursor := { cursor with accepting := false }

/-- One more intact record was beyond the budget. -/
def beyondBudget (cursor : ScanCursor) : ScanCursor :=
  { cursor with
    stats.reinsertBudgetSkipped := Word.saturatingAdd 64 cursor.stats.reinsertBudgetSkipped 1 }

/-- One more hot record is not reinserted. -/
def skipped (cursor : ScanCursor) : ScanCursor :=
  { cursor with stats.reinsertSkipped := Word.saturatingAdd 64 cursor.stats.reinsertSkipped 1 }

/-- The record has been dealt with. -/
def advance (cursor : ScanCursor) (recordEnd : ℕ) : ScanCursor :=
  { cursor with
    offset := recordEnd
    stats.recordsScanned := Word.saturatingAdd 64 cursor.stats.recordsScanned 1 }

end ScanCursor

section Scan

variable {τ : Type} (crc : List UInt8 → BitVec 32) (receipt : RegionReclaimReceipt)
  (bytes : List UInt8) (tryReinsert : RegionReinsertRecord crc → EStateM IoError τ Bool)

/-- An operation of the index. -/
def onIndex {α : Type} (f : IndexM α) : EStateM IoError (ScanState τ) α := fun s =>
  match f s.index with
  | .ok a index => .ok a { s with index }
  | .error error index => .error (indexStorageIoError error) { s with index }

/-- A call of the sink. -/
def onSink {α : Type} (f : EStateM IoError τ α) : EStateM IoError (ScanState τ) α :=
  zoom ScanState.sink (fun sink s => { s with sink }) f

/-- A hot record that is not reinserted. -/
def dropRecord (cursor : ScanCursor) (scanned : ReclaimRecord) :
    EStateM IoError (ScanState τ) ScanCursor := do
  if ← onIndex (RegionIndex.removeIfMatch crc scanned.header.keyHash scanned.location) then
    pure cursor.removed.skipped
  else pure cursor.skipped

/-- A hot record. -/
def scanHot (cursor : ScanCursor) (scanned : ReclaimRecord) :
    EStateM IoError (ScanState τ) ScanCursor := do
  match ← orThrow (reinsertDecision crc bytes cursor scanned) with
  | .offer record =>
    if ← onSink (tryReinsert record) then pure (cursor.accepted record.recordBytes)
    else dropRecord crc cursor.refused scanned
  | .budgetSkipped => dropRecord crc cursor.beyondBudget scanned
  | .skipped => dropRecord crc cursor scanned

/-- A record, as the index has classified it. -/
def scanClassified (cursor : ScanCursor) (scanned : ReclaimRecord) :
    ReclaimIndexAction → EStateM IoError (ScanState τ) ScanCursor
  | .missing => pure cursor
  | .removed => pure cursor.removed
  | .reinsert => scanHot crc bytes tryReinsert cursor scanned

/-- One record. -/
def scanStep (cursor : ScanCursor) : EStateM IoError (ScanState τ) ScanCursor := do
  let scanned ← orThrow (scanRecord crc receipt bytes cursor.offset)
  let action ← onIndex (RegionIndex.prepareReclaim crc scanned.header.keyHash scanned.location)
  let cursor ← scanClassified crc bytes tryReinsert cursor scanned action
  pure (cursor.advance scanned.recordEnd)

/-- The records from the cursor on. Every record has a length, so that as many steps as there are
bytes are enough. -/
def scanFrom : ℕ → ScanCursor → EStateM IoError (ScanState τ) ScanCursor
  | 0, cursor => pure cursor
  | fuel + 1, cursor =>
    if bytes.length ≤ cursor.offset then pure cursor
    else do
      let cursor ← scanStep crc receipt bytes tryReinsert cursor
      scanFrom fuel cursor

/-- `scan_reclaim`. -/
def scanReclaim (accepting : Bool) : EStateM IoError (ScanState τ) RegionReclaimStats := do
  rejectIf (bytes.length ≠ receipt.usedOffset)
    (ioError .invalidData "reclaim read does not match the sealed Region prefix")
  let cursor ← scanFrom crc receipt bytes tryReinsert bytes.length (.start receipt accepting)
  rejectIf (cursor.stats.recordsScanned ≠ receipt.physicalRecordCount)
    (ioError .invalidData "reclaim record count does not match Region metadata")
  pure cursor.stats

end Scan

/-! ## One record -/

section Record

variable {crc : List UInt8 → BitVec 32} {receipt : RegionReclaimReceipt} {log : List ValueRecord}
  {record : ValueRecord} {offset : ℕ}

/-- A check that passes has found the value. -/
lemma orInvalidData_eq_ok {α : Type} {message : String} {x : Option α} {a : α} :
    orInvalidData message x = .ok a ↔ x = some a := by
  cases x <;> simp [orInvalidData]

/-- A value that is there. -/
lemma orInvalidData_bind {α β : Type} {message : String} {x : Option α} {a : α} (h : x = some a)
    (f : α → Except IoError β) : (orInvalidData message x >>= f) = f a := by
  rw [h]
  rfl

/-- The record at an offset of a log, as the scan sees it. -/
def reclaimRecord (crc : List UInt8 → BitVec 32) (offset : ℕ) (record : ValueRecord)
    (location : PackedLocation) : ReclaimRecord :=
  { header := record.header crc
    headerEnd := offset + 48
    payloadEnd := offset + 48 + record.key.length + record.value.length
    recordEnd := offset + record.recordLen
    location }

/-- **Scanning.** The scan finds the records of a log at their offsets. -/
theorem scanRecord_of_at (hat : At (ValueRecord.bytes crc) log offset record)
    (hregion : receipt.regionId ≤ maxRegionId)
    (hsize : (text (ValueRecord.bytes crc) log).length ≤ maxPackedRegionSize)
    (hgeneration : record.generation.toNat = receipt.createdSeqno) :
    ∃ location, PackedLocation.new receipt.regionId offset record.recordLen = .ok location ∧
      scanRecord crc receipt (text (ValueRecord.bytes crc) log) offset =
        .ok (reclaimRecord crc offset record location) := by
  obtain ⟨hkey, hvalue, hlen⟩ := record.toNat_header crc
  obtain ⟨rest, hrest⟩ := hat.drop_text
  have hle := hat.le_length
  rw [ValueRecord.length_bytes] at hle
  have hmin := record.recordHeaderSize_le
  have hmax : maxPackedRegionSize = 2 ^ 25 := by decide
  have haligned := ValueRecord.offset_aligned hat
  obtain ⟨location, hlocation, -⟩ := PackedLocation.new_eq_ok (r := receipt.regionId)
    (o := offset) (n := record.recordLen)
    ⟨hregion, by unfold offsetAlignment; omega,
      by unfold maxRegionOffset offsetMask offsetAlignment; omega, record.validRecordLen⟩
  have hparts : 48 + record.key.length + record.value.length ≤ record.recordLen := by
    unfold ValueRecord.recordLen recordHeaderSize
    omega
  have hheader : (getRange (text (ValueRecord.bytes crc) log) offset (offset + 48)).bind
      (RecordHeader.decode crc) = some (record.header crc) := by
    rw [getRange, if_neg (by omega), Option.bind_some, slice, hrest, Nat.add_sub_cancel_left]
    exact record.decode_bytes crc rest
  refine ⟨location, hlocation, ?_⟩
  have hend : (Word.checkedAdd 64 offset (record.header crc).recordLen.toNat).filter
      (· ≤ (text (ValueRecord.bytes crc) log).length) = some (offset + record.recordLen) := by
    rw [hlen, Word.checkedAdd_of_lt (by omega), Option.filter_some, if_pos (decide_eq_true hle)]
  have hpayload : (((Word.checkedAdd 64 (offset + 48) (record.header crc).keyLen.toNat).bind
      fun finish => Word.checkedAdd 64 finish (record.header crc).valueLen.toNat).filter
        (· ≤ offset + record.recordLen)) =
      some (offset + 48 + record.key.length + record.value.length) := by
    rw [hkey, hvalue, Word.checkedAdd_of_lt (by omega), Option.bind_some,
      Word.checkedAdd_of_lt (by omega), Option.filter_some, if_pos]
    rw [decide_eq_true_eq]
    omega
  have hword : tryU32 offset = some offset := if_pos (by omega)
  rw [scanRecord, recordHeaderSize, orInvalidData_bind (Word.checkedAdd_of_lt (by omega)),
    orInvalidData_bind hheader, orInvalidData_bind hend, orInvalidData_bind hpayload, if_neg,
    orInvalidData_bind hword, hlen, hlocation]
  · rfl
  · rw [ValueRecord.header]
    dsimp only
    omega

/-- What is decided about a hot record of a log. -/
theorem reinsertDecision_of_at (hat : At (ValueRecord.bytes crc) log offset record)
    (hsize : (text (ValueRecord.bytes crc) log).length ≤ maxPackedRegionSize)
    (cursor : ScanCursor) (location : PackedLocation) :
    ∃ rewriteBytes, requiredRecordBytes record.key.length record.value.length = .ok rewriteBytes ∧
      rewriteBytes ≤ record.recordLen ∧
      reinsertDecision crc (text (ValueRecord.bytes crc) log) cursor
          (reclaimRecord crc offset record location) =
        .ok (if cursor.accepting = true ∨ cursor.budget < rewriteBytes then
            if rewriteBytes ≤ cursor.budget then
              .offer ⟨record.keyHash, location, record.seqno.toNat, rewriteBytes,
                .new crc record.key record.value⟩
            else .budgetSkipped
          else .skipped) := by
  obtain ⟨hkey, hvalue, hlen⟩ := record.toNat_header crc
  obtain ⟨rest, hrest⟩ := hat.drop_text
  have hle := hat.le_length
  rw [ValueRecord.length_bytes] at hle
  have hmax : maxPackedRegionSize = 2 ^ 25 := by decide
  have hrecordLen : record.recordLen = 48 + record.key.length + record.value.length +
      record.tail.length := rfl
  have hmod := record.validRecordLen.2.2
  have hlenMax := record.recordLen_le
  unfold recordLenAlignment at hmod
  obtain ⟨hkeySlice, hvalueSlice, -⟩ := record.slice_bytes crc rest
  have hshift : ∀ off n, slice (text (ValueRecord.bytes crc) log) (offset + off) n =
      slice (record.bytes crc ++ rest) off n := by
    intro off n
    rw [slice, slice, ← List.drop_drop, hrest]
  have hkeyEnd : Word.checkedAdd 64 (reclaimRecord crc offset record location).headerEnd
      (reclaimRecord crc offset record location).header.keyLen.toNat =
        some (offset + 48 + record.key.length) := by
    show Word.checkedAdd 64 (offset + 48) (record.header crc).keyLen.toNat = _
    rw [hkey, Word.checkedAdd_of_lt (by omega)]
  have hrequired : requiredRecordBytes record.key.length record.value.length =
      .ok ((48 + record.key.length + record.value.length + 31) / 32 * 32) :=
    requiredRecordBytes_eq_ok.2 ⟨record.key_le, rfl, by omega⟩
  have haligned : RecordHeader.alignedLen record.key.length record.value.length =
      some ((48 + record.key.length + record.value.length + 31) / 32 * 32) :=
    RecordHeader.alignedLen_eq_some.2 ⟨rfl, by omega⟩
  refine ⟨_, hrequired, by omega, ?_⟩
  rw [reinsertDecision, orInvalidData_bind hkeyEnd]
  have hkeyPart : slice (text (ValueRecord.bytes crc) log)
      (reclaimRecord crc offset record location).headerEnd
        (offset + 48 + record.key.length - (reclaimRecord crc offset record location).headerEnd) =
      record.key := by
    rw [reclaimRecord]
    dsimp only
    rw [Nat.add_sub_cancel_left, hshift, hkeySlice]
  have hvaluePart : slice (text (ValueRecord.bytes crc) log) (offset + 48 + record.key.length)
      ((reclaimRecord crc offset record location).payloadEnd -
        (offset + 48 + record.key.length)) = record.value := by
    rw [reclaimRecord]
    dsimp only
    rw [Nat.add_sub_cancel_left, Nat.add_assoc, hshift, hvalueSlice]
  rw [hkeyPart, hvaluePart, orInvalidData_bind haligned]
  have hvalidate : RecordPayload.validate crc record.key record.value
      (reclaimRecord crc offset record location).header.payloadCrc =
        some (.new crc record.key record.value) := RecordPayload.validate_eq_some.2 ⟨rfl, rfl⟩
  rw [hvalidate]
  split_ifs <;> rfl

end Record

/-! ## What the index forgets -/

/-- The token is no longer mapped to the location, and nothing else has changed. -/
structure Forgets (before after : ℕ × ℕ → Option (Token × IndexEntry)) (tok : Token)
    (old : PackedLocation) : Prop where
  kept : ∀ tok' e, Holds after tok' e → Holds before tok' e
  gone : ∀ e, Holds after tok e → e.location.indexEquivalent old = false
  others : ∀ tok' e, Holds before tok' e → (tok' = tok → e.location.indexEquivalent old = false) →
    Holds after tok' e

section Forget

variable {crc : List UInt8 → BitVec 32} {slotCount : ℕ} {ranges : List IndexPartitionRange}
  {idx idx' : RegionIndex} {tok : Token} {old : PackedLocation}

/-- The removal of a mapping that matches. -/
lemma Forgets.of_remove (hunique : Unique idx.cells) (hmatch : MatchesAt idx.cells tok (some old))
    (heff : RemoveEffect idx.cells idx'.cells tok) : Forgets idx.cells idx'.cells tok old where
  kept tok' e h := ((heff tok' e).1 h).2
  gone e h := absurd rfl ((heff tok e).1 h).1
  others tok' e h hne := by
    refine (heff tok' e).2 ⟨fun heq => ?_, h⟩
    obtain ⟨e', he', hequiv⟩ := hmatch
    have hsame := hunique.entry_eq he' (heq ▸ h)
    rw [← hsame, hequiv old rfl] at hne
    cases hne heq

/-- A mapping that does not match needs no removal. -/
lemma Forgets.of_missing (hmiss : ¬ MatchesAt idx.cells tok (some old))
    (hcells : idx'.cells = idx.cells) : Forgets idx.cells idx'.cells tok old := by
  rw [hcells]
  refine ⟨fun _ _ h => h, fun e he => ?_, fun _ _ h _ => h⟩
  rw [← Bool.not_eq_true]
  intro hequiv
  refine hmiss ⟨e, he, fun l hl => ?_⟩
  rwa [← Option.mem_some_iff.1 hl]

/-- What is mapped afterwards. -/
lemma Forgets.holds_iff {before after : ℕ × ℕ → Option (Token × IndexEntry)}
    (h : Forgets before after tok old) {tok' : Token} {e : IndexEntry} :
    Holds after tok' e ↔
      Holds before tok' e ∧ ¬ (tok = tok' ∧ e.location.indexEquivalent old = true) := by
  constructor
  · refine fun he => ⟨h.kept tok' e he, ?_⟩
    rintro ⟨rfl, hequiv⟩
    rw [h.gone e he] at hequiv
    cases hequiv
  · rintro ⟨he, hne⟩
    refine h.others tok' e he fun heq => ?_
    rw [← Bool.not_eq_true]
    exact fun hequiv => hne ⟨heq.symm, hequiv⟩

/-- **Conditional removals** forget the location. -/
theorem removeIfMatch_forgets (hr : canonicalIndexPartitionRanges slotCount = .ok ranges)
    (h : IndexInv crc slotCount ranges idx) (hash : Hash) (old : PackedLocation) :
    ∃ removed idx', RegionIndex.removeIfMatch crc hash old idx = .ok removed idx' ∧
      IndexInv crc slotCount ranges idx' ∧
        Forgets idx.cells idx'.cells (tokenOf ranges hash) old := by
  obtain ⟨removed, idx', hrun, hinv, hmatch, hremoved, hsame⟩ :=
    removeMatching_effect hr h hash (some old)
  rw [RegionIndex.token, h.repr.ranges_eq] at hmatch hremoved
  refine ⟨removed, idx', hrun, hinv, ?_⟩
  cases removed with
  | true => exact .of_remove h.unique (hmatch.1 rfl) (hremoved rfl)
  | false => exact .of_missing (fun hm => absurd (hmatch.2 hm) (by decide)) (hsame rfl)

/-- **Classification** leaves the mappings as they are, when it asks for a reinsertion, and forgets
the location otherwise. -/
theorem prepareReclaim_forgets (hr : canonicalIndexPartitionRanges slotCount = .ok ranges)
    (h : IndexInv crc slotCount ranges idx) (hash : Hash) (old : PackedLocation) :
    ∃ action idx', RegionIndex.prepareReclaim crc hash old idx = .ok action idx' ∧
      IndexInv crc slotCount ranges idx' ∧
      (action = .reinsert → idx'.cells = idx.cells) ∧
      (action ≠ .reinsert → Forgets idx.cells idx'.cells (tokenOf ranges hash) old) := by
  obtain ⟨action, idx', hrun, hinv, hmatch, hremoved, hsame⟩ :=
    prepareReclaim_effect hr h hash old
  rw [RegionIndex.token, h.repr.ranges_eq] at hmatch hremoved
  refine ⟨action, idx', hrun, hinv, fun heq => hsame (by rw [heq]; decide), fun hne => ?_⟩
  cases action with
  | missing => exact .of_missing (fun hm => absurd rfl (hmatch.2 hm)) (hsame (by decide))
  | removed => exact .of_remove h.unique (hmatch.1 (by decide)) (hremoved rfl)
  | reinsert => exact absurd rfl hne

end Forget

/-! ## The scan of a log -/

/-- The mapping leads to a record of the log. -/
def Named (crc : List UInt8 → BitVec 32) (ranges : List IndexPartitionRange)
    (log : List ValueRecord) (tok : Token) (e : IndexEntry) : Prop :=
  ∃ record, At (ValueRecord.bytes crc) log e.location.offset record ∧
    tokenOf ranges record.keyHash = tok ∧
    recordSizeClass record.recordLen = some e.location.indexSizeClass

/-- The prefix is that of the receipt. -/
structure Scannable (crc : List UInt8 → BitVec 32) (receipt : RegionReclaimReceipt)
    (log : List ValueRecord) : Prop where
  region_le : receipt.regionId ≤ maxRegionId
  used_eq : (text (ValueRecord.bytes crc) log).length = receipt.usedOffset
  used_le : receipt.usedOffset ≤ maxPackedRegionSize
  count_eq : log.length = receipt.physicalRecordCount
  generation_eq : ∀ record ∈ log, record.generation.toNat = receipt.createdSeqno

/-- The offer is one of a record of the log. -/
structure IsOffer (crc : List UInt8 → BitVec 32) (receipt : RegionReclaimReceipt)
    (log : List ValueRecord) (offer : RegionReinsertRecord crc) (offset : ℕ)
    (record : ValueRecord) : Prop where
  at_offset : At (ValueRecord.bytes crc) log offset record
  hash_eq : offer.hash = record.keyHash
  previous_eq : PackedLocation.new receipt.regionId offset record.recordLen =
    .ok offer.previousLocation
  seqno_eq : offer.logicalSeqno = record.seqno.toNat
  bytes_eq : requiredRecordBytes record.key.length record.value.length = .ok offer.recordBytes
  payload_eq : offer.payload = .new crc record.key record.value

/-- A record makes one offer. -/
lemma IsOffer.unique {crc : List UInt8 → BitVec 32} {receipt : RegionReclaimReceipt}
    {log : List ValueRecord} {offer offer' : RegionReinsertRecord crc} {offset : ℕ}
    {record : ValueRecord} (h : IsOffer crc receipt log offer offset record)
    (h' : IsOffer crc receipt log offer' offset record) : offer = offer' := by
  obtain ⟨hash, previous, seqno, bytes, payload⟩ := offer
  obtain ⟨hash', previous', seqno', bytes', payload'⟩ := offer'
  obtain rfl : hash = hash' := h.hash_eq.trans h'.hash_eq.symm
  obtain rfl : previous = previous' := Except.ok.inj (h.previous_eq.symm.trans h'.previous_eq)
  obtain rfl : seqno = seqno' := h.seqno_eq.trans h'.seqno_eq.symm
  obtain rfl : bytes = bytes' := Except.ok.inj (h.bytes_eq.symm.trans h'.bytes_eq)
  obtain rfl : payload = payload' := h.payload_eq.trans h'.payload_eq.symm
  rfl

/-- What becomes of a record: the index does not lead to it, or its mapping is cold, or it is hot
and the sink accepts it, refuses it, or is not asked, because of the budget or because it no longer
accepts. -/
inductive RecordFate
  | missing
  | cold
  | accepted
  | refused
  | beyondBudget
  | unasked
  deriving DecidableEq, Repr

namespace RecordFate

/-- The mapping is removed. -/
def removed : RecordFate → Bool
  | .missing | .accepted => false
  | .cold | .refused | .beyondBudget | .unasked => true

/-- The record is hot, and is not reinserted. -/
def skipped : RecordFate → Bool
  | .missing | .cold | .accepted => false
  | .refused | .beyondBudget | .unasked => true

/-- What the sink has answered, if it has been asked. -/
def answer : RecordFate → Option Bool
  | .accepted => some true
  | .refused => some false
  | .missing | .cold | .beyondBudget | .unasked => none

end RecordFate

/-- A record that has been scanned, and the offer it makes. -/
structure ScannedRecord (crc : List UInt8 → BitVec 32) where
  offset : ℕ
  record : ValueRecord
  offer : RegionReinsertRecord crc
  fate : RecordFate

namespace ScannedRecord

variable {crc : List UInt8 → BitVec 32}

/-- The offer with its answer, if it has been made. -/
def answered (r : ScannedRecord crc) : Option (RegionReinsertRecord crc × Bool) :=
  r.fate.answer.map (r.offer, ·)

/-- The mapping is that of the record. -/
def Maps (ranges : List IndexPartitionRange) (r : ScannedRecord crc) (tok : Token)
    (e : IndexEntry) : Prop :=
  tokenOf ranges r.offer.hash = tok ∧
    e.location.indexEquivalent r.offer.previousLocation = true

/-- The index leads to the record. -/
def Mapped (ranges : List IndexPartitionRange) (r : ScannedRecord crc) (idx : RegionIndex) : Prop :=
  ∃ tok e, Holds idx.cells tok e ∧ r.Maps ranges tok e

/-- The index leads to the record when it maps its token to its location. -/
lemma mapped_iff {ranges : List IndexPartitionRange} {r : ScannedRecord crc} {idx : RegionIndex} :
    r.Mapped ranges idx ↔
      MatchesAt idx.cells (tokenOf ranges r.offer.hash) (some r.offer.previousLocation) := by
  constructor
  · rintro ⟨tok, e, he, rfl, hequiv⟩
    exact ⟨e, he, fun l hl => Option.mem_some_iff.1 hl ▸ hequiv⟩
  · rintro ⟨e, he, hequiv⟩
    exact ⟨_, e, he, rfl, hequiv _ rfl⟩

/-- The mapping of a record has the record's offset. -/
lemma Maps.offset_eq {ranges : List IndexPartitionRange} {r : ScannedRecord crc} {tok : Token}
    {e : IndexEntry} (h : r.Maps ranges tok e) {receipt : RegionReclaimReceipt}
    {log : List ValueRecord} (hoffer : IsOffer crc receipt log r.offer r.offset r.record) :
    e.location.offset = r.offset := by
  obtain ⟨-, hpos, -⟩ := PackedLocation.fields_of_new hoffer.previous_eq
  rw [← hpos]
  exact (PackedLocation.indexEquivalent_iff.1 h.2).2.1

/-- The mapping of a record leads into its Region. -/
lemma Maps.regionId_eq {ranges : List IndexPartitionRange} {r : ScannedRecord crc} {tok : Token}
    {e : IndexEntry} (h : r.Maps ranges tok e) {receipt : RegionReclaimReceipt}
    {log : List ValueRecord} (hoffer : IsOffer crc receipt log r.offer r.offset r.record) :
    e.location.regionId = receipt.regionId := by
  obtain ⟨hid, -, -⟩ := PackedLocation.fields_of_new hoffer.previous_eq
  rw [← hid]
  exact (PackedLocation.indexEquivalent_iff.1 h.2).1

end ScannedRecord

/-- What the sink was offered, and what it has answered. -/
def offersOf {crc : List UInt8 → BitVec 32} (scanned : List (ScannedRecord crc)) :
    List (RegionReinsertRecord crc × Bool) :=
  scanned.filterMap ScannedRecord.answered

/-- The bytes of the accepted records. -/
def acceptedBytes {crc : List UInt8 → BitVec 32} (offers : List (RegionReinsertRecord crc × Bool)) :
    ℕ :=
  ((offers.filter (·.2)).map (·.1.recordBytes)).sum

/-- The cursor after a record, before it goes on. -/
def ScanCursor.after (cursor : ScanCursor) (recordBytes : ℕ) : RecordFate → ScanCursor
  | .missing => cursor
  | .cold => cursor.removed
  | .accepted => cursor.accepted recordBytes
  | .refused => cursor.refused.removed.skipped
  | .beyondBudget => cursor.beyondBudget.removed.skipped
  | .unasked => cursor.removed.skipped

section Run

variable {τ : Type} {crc : List UInt8 → BitVec 32}

/-- What the sink was offered, one after another, and what it has answered. -/
inductive SinkRun (tryReinsert : RegionReinsertRecord crc → EStateM IoError τ Bool) :
    τ → List (RegionReinsertRecord crc × Bool) → τ → Prop
  | nil (t : τ) : SinkRun tryReinsert t [] t
  | cons {t t' t'' : τ} {record : RegionReinsertRecord crc} {accepted : Bool}
      {offers : List (RegionReinsertRecord crc × Bool)}
      (h : tryReinsert record t = .ok accepted t') (hrest : SinkRun tryReinsert t' offers t'') :
      SinkRun tryReinsert t ((record, accepted) :: offers) t''

/-- One record, whose fate is up to the index, the budget and the sink. -/
inductive ScanTurn (tryReinsert : RegionReinsertRecord crc → EStateM IoError τ Bool)
    (offer : RegionReinsertRecord crc) (c : ScanCursor) (s : ScanState τ) :
    RecordFate → ScanState τ → Prop
  | missing {index : RegionIndex}
      (h : RegionIndex.prepareReclaim crc offer.hash offer.previousLocation s.index =
        .ok .missing index) :
      ScanTurn tryReinsert offer c s .missing { s with index }
  | cold {index : RegionIndex}
      (h : RegionIndex.prepareReclaim crc offer.hash offer.previousLocation s.index =
        .ok .removed index) :
      ScanTurn tryReinsert offer c s .cold { s with index }
  | accepted {index : RegionIndex} {sink : τ}
      (h : RegionIndex.prepareReclaim crc offer.hash offer.previousLocation s.index =
        .ok .reinsert index)
      (hfits : offer.recordBytes ≤ c.budget) (haccepting : c.accepting = true)
      (hsink : tryReinsert offer s.sink = .ok true sink) :
      ScanTurn tryReinsert offer c s .accepted ⟨index, sink⟩
  | refused {index index' : RegionIndex} {sink : τ}
      (h : RegionIndex.prepareReclaim crc offer.hash offer.previousLocation s.index =
        .ok .reinsert index)
      (hfits : offer.recordBytes ≤ c.budget) (haccepting : c.accepting = true)
      (hsink : tryReinsert offer s.sink = .ok false sink)
      (hremove : RegionIndex.removeIfMatch crc offer.hash offer.previousLocation index =
        .ok true index') :
      ScanTurn tryReinsert offer c s .refused ⟨index', sink⟩
  | beyondBudget {index index' : RegionIndex}
      (h : RegionIndex.prepareReclaim crc offer.hash offer.previousLocation s.index =
        .ok .reinsert index)
      (hover : c.budget < offer.recordBytes)
      (hremove : RegionIndex.removeIfMatch crc offer.hash offer.previousLocation index =
        .ok true index') :
      ScanTurn tryReinsert offer c s .beyondBudget { s with index := index' }
  | unasked {index index' : RegionIndex}
      (h : RegionIndex.prepareReclaim crc offer.hash offer.previousLocation s.index =
        .ok .reinsert index)
      (hfits : offer.recordBytes ≤ c.budget) (haccepting : c.accepting = false)
      (hremove : RegionIndex.removeIfMatch crc offer.hash offer.previousLocation index =
        .ok true index') :
      ScanTurn tryReinsert offer c s .unasked { s with index := index' }

/-- Records of a log one after another, from the cursor on. -/
inductive ScanRun (receipt : RegionReclaimReceipt) (log : List ValueRecord)
    (tryReinsert : RegionReinsertRecord crc → EStateM IoError τ Bool) :
    ScanCursor → ScanState τ → List (ScannedRecord crc) → ScanCursor → ScanState τ → Prop
  | nil (c : ScanCursor) (s : ScanState τ) : ScanRun receipt log tryReinsert c s [] c s
  | cons {c c' : ScanCursor} {s s' s'' : ScanState τ} {r : ScannedRecord crc}
      {scanned : List (ScannedRecord crc)} (hoffset : r.offset = c.offset)
      (hoffer : IsOffer crc receipt log r.offer r.offset r.record)
      (hturn : ScanTurn tryReinsert r.offer c s r.fate s')
      (hrest : ScanRun receipt log tryReinsert
        ((c.after r.offer.recordBytes r.fate).advance (r.offset + r.record.recordLen)) s' scanned
        c' s'') :
      ScanRun receipt log tryReinsert c s (r :: scanned) c' s''

end Run

section Log

variable {τ : Type} {crc : List UInt8 → BitVec 32} {slotCount : ℕ}
  {ranges : List IndexPartitionRange} {receipt : RegionReclaimReceipt} {log : List ValueRecord}
  {tryReinsert : RegionReinsertRecord crc → EStateM IoError τ Bool}

/-- The mapping that leads to a record has the location of the record. -/
lemma named_at {record : ValueRecord} {offset : ℕ} {location : PackedLocation} {tok : Token}
    {e : IndexEntry} (hat : At (ValueRecord.bytes crc) log offset record)
    (hlocation : PackedLocation.new receipt.regionId offset record.recordLen = .ok location)
    (hregion : e.location.regionId = receipt.regionId) (hlow : offset ≤ e.location.offset)
    (hhigh : e.location.offset < offset + record.recordLen) (h : Named crc ranges log tok e) :
    tokenOf ranges record.keyHash = tok ∧ e.location.indexEquivalent location = true := by
  obtain ⟨other, hother, htok, hclass⟩ := h
  have hoffset : e.location.offset = offset := by
    by_contra hne
    have := hat.disjoint hother (by omega)
    rw [ValueRecord.length_bytes] at this
    omega
  rw [hoffset] at hother
  obtain rfl := hat.unique (ValueRecord.selfDelimiting crc) hother
  obtain ⟨hid, hpos, hlen⟩ := PackedLocation.fields_of_new hlocation
  refine ⟨htok, PackedLocation.indexEquivalent_iff.2
    ⟨by rw [hregion, hid], by rw [hoffset, hpos], ?_⟩⟩
  have hsize := location.recordSizeClass_recordLen
  rw [hlen, hclass] at hsize
  exact Option.some.inj hsize

/-- The cursor has changed only in what it has counted besides the reinsertions, and in whether the
sink accepts. -/
structure ScanCursor.Quiet (c d : ScanCursor) : Prop where
  offset_eq : d.offset = c.offset
  scanned_eq : d.stats.recordsScanned = c.stats.recordsScanned
  records_eq : d.stats.reinsertRecords = c.stats.reinsertRecords
  bytes_eq : d.stats.reinsertBytes = c.stats.reinsertBytes
  budget_eq : d.budget = c.budget
  read_eq : d.stats.bytesRead = c.stats.bytesRead

/-! ### The code's steps are turns -/

section Step

variable {c : ScanCursor} {s : ScanState τ} {record : ValueRecord}

/-- An operation of the index that succeeds. -/
lemma onIndex_ok {α : Type} {f : IndexM α} {a : α} {index : RegionIndex}
    (h : f s.index = .ok a index) : onIndex (τ := τ) f s = .ok a { s with index } := by
  rw [onIndex, h]

/-- A hot record that is dropped. The index still leads to it, so that its mapping is removed. -/
lemma dropRecord_ok (hr : canonicalIndexPartitionRanges slotCount = .ok ranges)
    (hinv : IndexInv crc slotCount ranges s.index) (c : ScanCursor) {scanned : ReclaimRecord}
    (hmatch : MatchesAt s.index.cells (tokenOf ranges scanned.header.keyHash)
      (some scanned.location)) :
    ∃ index, RegionIndex.removeIfMatch crc scanned.header.keyHash scanned.location s.index =
        .ok true index ∧
      dropRecord crc c scanned s = .ok c.removed.skipped { s with index } := by
  obtain ⟨removed, index, hrun, -, hiff, -⟩ :=
    removeMatching_effect hr hinv scanned.header.keyHash (some scanned.location)
  rw [RegionIndex.token, hinv.repr.ranges_eq] at hiff
  obtain rfl := hiff.2 hmatch
  have hremove : RegionIndex.removeIfMatch crc scanned.header.keyHash scanned.location s.index =
    .ok true index := hrun
  refine ⟨index, hremove, ?_⟩
  rw [dropRecord, bind_ok (onIndex_ok hremove)]
  rfl

/-- **One record.** The record at the cursor is scanned without an error, if the sink has none. -/
theorem scanStep_log (hr : canonicalIndexPartitionRanges slotCount = .ok ranges)
    (hscan : Scannable crc receipt log)
    (hsink : ∀ offer t, ∃ accepted t', tryReinsert offer t = .ok accepted t')
    (hinv : IndexInv crc slotCount ranges s.index)
    (hat : At (ValueRecord.bytes crc) log c.offset record) :
    ∃ offer fate s', IsOffer crc receipt log offer c.offset record ∧
      ScanTurn tryReinsert offer c s fate s' ∧
      scanStep crc receipt (text (ValueRecord.bytes crc) log) tryReinsert c s =
        .ok ((c.after offer.recordBytes fate).advance (c.offset + record.recordLen)) s' := by
  have hsize : (text (ValueRecord.bytes crc) log).length ≤ maxPackedRegionSize :=
    hscan.used_eq.trans_le hscan.used_le
  obtain ⟨location, hlocation, hscanned⟩ := scanRecord_of_at hat hscan.region_le hsize
    (hscan.generation_eq record hat.mem)
  obtain ⟨rewriteBytes, hrequired, -, hdecision⟩ := reinsertDecision_of_at hat hsize c location
  obtain ⟨offer, hofferEq⟩ : ∃ offer : RegionReinsertRecord crc,
      offer = ⟨record.keyHash, location, record.seqno.toNat, rewriteBytes,
        .new crc record.key record.value⟩ := ⟨_, rfl⟩
  have hoffer : IsOffer crc receipt log offer c.offset record := by
    rw [hofferEq]
    exact ⟨hat, rfl, hlocation, rfl, hrequired, rfl⟩
  have hhash : (reclaimRecord crc c.offset record location).header.keyHash = offer.hash := by
    rw [hofferEq]
    rfl
  have hprevious : (reclaimRecord crc c.offset record location).location =
      offer.previousLocation := by
    rw [hofferEq]
    rfl
  obtain rfl : rewriteBytes = offer.recordBytes := by rw [hofferEq]
  rw [← hofferEq] at hdecision
  obtain ⟨action, index, haction, hinv₁, hmatch, -, hsame⟩ :=
    prepareReclaim_effect hr hinv offer.hash offer.previousLocation
  rw [RegionIndex.token, hinv.repr.ranges_eq] at hmatch
  -- it is enough to deal with the record as it has been classified
  suffices hclassified : ∃ fate s', ScanTurn tryReinsert offer c s fate s' ∧
      scanClassified crc (text (ValueRecord.bytes crc) log) tryReinsert c
        (reclaimRecord crc c.offset record location) action { s with index } =
          .ok (c.after offer.recordBytes fate) s' by
    obtain ⟨fate, s', hturn, hok⟩ := hclassified
    refine ⟨offer, fate, s', hoffer, hturn, ?_⟩
    rw [scanStep, orThrow_bind hscanned, hhash, hprevious, bind_ok (onIndex_ok haction),
      bind_ok hok]
    rfl
  -- a hot record that is dropped still has its mapping
  have hdrop : action = .reinsert → ∀ (d : ScanCursor) (sink : τ), ∃ index',
      RegionIndex.removeIfMatch crc offer.hash offer.previousLocation index = .ok true index' ∧
      dropRecord crc d (reclaimRecord crc c.offset record location) ⟨index, sink⟩ =
        .ok d.removed.skipped ⟨index', sink⟩ := by
    intro hhot d sink
    have hheld : MatchesAt index.cells (tokenOf ranges offer.hash)
        (some offer.previousLocation) := by
      rw [hsame (by rw [hhot]; decide)]
      exact hmatch.1 (by rw [hhot]; decide)
    rw [← hhash, ← hprevious] at hheld ⊢
    exact dropRecord_ok (s := ⟨index, sink⟩) hr hinv₁ d hheld
  cases action with
  | missing => exact ⟨.missing, _, .missing haction, rfl⟩
  | removed => exact ⟨.cold, _, .cold haction, rfl⟩
  | reinsert =>
    rw [scanClassified, scanHot, orThrow_bind hdecision]
    by_cases hfits : offer.recordBytes ≤ c.budget
    · by_cases haccepting : c.accepting = true
      · rw [if_pos (.inl haccepting), if_pos hfits]
        obtain ⟨accepted, sink, hanswer⟩ := hsink offer s.sink
        have hcall : onSink (tryReinsert offer) { s with index } = .ok accepted ⟨index, sink⟩ := by
          rw [onSink, zoom, hanswer]
        dsimp only
        rw [bind_ok hcall]
        cases accepted with
        | true => exact ⟨.accepted, _, .accepted haction hfits haccepting hanswer, rfl⟩
        | false =>
          obtain ⟨index', hremove, hok⟩ := hdrop rfl c.refused sink
          exact ⟨.refused, _, .refused haction hfits haccepting hanswer hremove, hok⟩
      · rw [if_neg (by rintro (h | h); exacts [haccepting h, absurd h (by omega)])]
        obtain ⟨index', hremove, hok⟩ := hdrop rfl c s.sink
        exact ⟨.unasked, _, .unasked haction hfits (Bool.eq_false_iff.2 haccepting) hremove, hok⟩
    · rw [if_pos (.inr (by omega)), if_neg hfits]
      obtain ⟨index', hremove, hok⟩ := hdrop rfl c.beyondBudget s.sink
      exact ⟨.beyondBudget, _, .beyondBudget haction (by omega) hremove, hok⟩

end Step

/-! ### What a turn does -/

section Turn

variable {offer : RegionReinsertRecord crc} {c : ScanCursor} {s s' : ScanState τ}
  {fate : RecordFate}

/-- The sink is asked at most once. -/
lemma ScanTurn.sinkRun (h : ScanTurn tryReinsert offer c s fate s') :
    SinkRun tryReinsert s.sink (fate.answer.map (offer, ·)).toList s'.sink := by
  cases h with
  | missing | cold | beyondBudget | unasked => exact .nil _
  | accepted _ _ _ hsink => exact .cons hsink (.nil _)
  | refused _ _ _ hsink _ => exact .cons hsink (.nil _)

/-- What a classification that has been made says about the index. -/
lemma prepareReclaim_spec (hr : canonicalIndexPartitionRanges slotCount = .ok ranges)
    {idx idx' : RegionIndex} (hinv : IndexInv crc slotCount ranges idx) {hash : Hash}
    {old : PackedLocation} {action : ReclaimIndexAction}
    (h : RegionIndex.prepareReclaim crc hash old idx = .ok action idx') :
    IndexInv crc slotCount ranges idx' ∧
      (action ≠ .missing ↔ MatchesAt idx.cells (tokenOf ranges hash) (some old)) ∧
      (action = .removed → Forgets idx.cells idx'.cells (tokenOf ranges hash) old) ∧
      (action ≠ .removed → idx'.cells = idx.cells) := by
  obtain ⟨action', idx₁, hrun, hinv', hmatch, hremoved, hsame⟩ :=
    prepareReclaim_effect hr hinv hash old
  rw [RegionIndex.token, hinv.repr.ranges_eq] at hmatch hremoved
  rw [h] at hrun
  cases hrun
  refine ⟨hinv', hmatch, fun hcold => ?_, hsame⟩
  exact .of_remove hinv.unique (hmatch.1 (by rw [hcold]; decide)) (hremoved hcold)

/-- What a removal that has been made says about the index. -/
lemma removeIfMatch_spec (hr : canonicalIndexPartitionRanges slotCount = .ok ranges)
    {idx idx' : RegionIndex} (hinv : IndexInv crc slotCount ranges idx) {hash : Hash}
    {old : PackedLocation} {removed : Bool}
    (h : RegionIndex.removeIfMatch crc hash old idx = .ok removed idx') :
    IndexInv crc slotCount ranges idx' ∧
      Forgets idx.cells idx'.cells (tokenOf ranges hash) old := by
  obtain ⟨removed', idx₁, hrun, hinv', hforgets⟩ := removeIfMatch_forgets hr hinv hash old
  rw [h] at hrun
  cases hrun
  exact ⟨hinv', hforgets⟩

/-- The mapping of a record goes when its fate says so, and no other mapping does. -/
lemma ScanTurn.index (hr : canonicalIndexPartitionRanges slotCount = .ok ranges)
    (hinv : IndexInv crc slotCount ranges s.index) (h : ScanTurn tryReinsert offer c s fate s') :
    IndexInv crc slotCount ranges s'.index ∧
      (fate ≠ .missing ↔
        MatchesAt s.index.cells (tokenOf ranges offer.hash) (some offer.previousLocation)) ∧
      (fate.removed = true → Forgets s.index.cells s'.index.cells (tokenOf ranges offer.hash)
        offer.previousLocation) ∧
      (fate.removed = false → s'.index.cells = s.index.cells) := by
  cases h with
  | missing h =>
    obtain ⟨hinv', hmatch, -, hsame⟩ := prepareReclaim_spec hr hinv h
    refine ⟨hinv', ?_, (fun hfate => by cases hfate), fun _ => hsame (by decide)⟩
    rw [← hmatch]
    decide
  | cold h =>
    obtain ⟨hinv', hmatch, hforgets, -⟩ := prepareReclaim_spec hr hinv h
    refine ⟨hinv', ?_, fun _ => hforgets rfl, fun hfate => by cases hfate⟩
    rw [← hmatch]
    decide
  | accepted h =>
    obtain ⟨hinv', hmatch, -, hsame⟩ := prepareReclaim_spec hr hinv h
    refine ⟨hinv', ?_, (fun hfate => by cases hfate), fun _ => hsame (by decide)⟩
    rw [← hmatch]
    decide
  | refused h _ _ _ hremove | beyondBudget h _ hremove | unasked h _ _ hremove =>
    obtain ⟨hinv₁, hmatch, -, hsame⟩ := prepareReclaim_spec hr hinv h
    obtain ⟨hinv', hforgets⟩ := removeIfMatch_spec hr hinv₁ hremove
    rw [hsame (by decide)] at hforgets
    refine ⟨hinv', ?_, fun _ => hforgets, fun hfate => by cases hfate⟩
    rw [← hmatch]
    decide

/-- A sink that does not accept is not asked. -/
lemma ScanTurn.answer_eq_none (h : ScanTurn tryReinsert offer c s fate s')
    (hstop : c.accepting = false) : fate.answer = none := by
  cases h with
  | missing | cold | beyondBudget | unasked => rfl
  | accepted _ _ haccepting _ | refused _ _ haccepting _ _ =>
    rw [haccepting] at hstop
    cases hstop

/-- Whether the sink accepts after a record. -/
lemma ScanTurn.accepting_after (h : ScanTurn tryReinsert offer c s fate s') (bytes : ℕ) :
    (c.after bytes fate).accepting = (c.accepting && decide (fate ≠ .refused)) := by
  cases h with
  | missing | cold | beyondBudget | unasked => simp [ScanCursor.after, ScanCursor.removed,
      ScanCursor.skipped, ScanCursor.beyondBudget]
  | accepted _ _ haccepting _ => simp [ScanCursor.after, ScanCursor.accepted, haccepting]
  | refused => simp [ScanCursor.after, ScanCursor.refused, ScanCursor.removed, ScanCursor.skipped]

/-- An accepted record is paid from the budget. -/
lemma ScanTurn.budget_after (h : ScanTurn tryReinsert offer c s fate s') :
    acceptedBytes (fate.answer.map (offer, ·)).toList +
      (c.after offer.recordBytes fate).budget = c.budget := by
  cases h with
  | missing | cold | refused | beyondBudget | unasked => exact Nat.zero_add _
  | accepted _ hfits =>
    simp only [RecordFate.answer, acceptedBytes, ScanCursor.after, ScanCursor.accepted]
    simpa using Nat.add_sub_cancel' hfits

/-- The bytes of an accepted record are counted. -/
lemma ScanTurn.bytes_after (h : ScanTurn tryReinsert offer c s fate s')
    (hlt : c.stats.reinsertBytes + c.budget < 2 ^ 64) :
    (c.after offer.recordBytes fate).stats.reinsertBytes =
      c.stats.reinsertBytes + acceptedBytes (fate.answer.map (offer, ·)).toList := by
  cases h with
  | missing | cold | refused | beyondBudget | unasked => rfl
  | accepted _ hfits =>
    have hsum : Word.saturatingAdd 64 c.stats.reinsertBytes offer.recordBytes =
        c.stats.reinsertBytes + offer.recordBytes := Nat.min_eq_left (by omega)
    simpa [RecordFate.answer, acceptedBytes, ScanCursor.after, ScanCursor.accepted] using hsum

/-- The fate of a record is determined. -/
lemma ScanTurn.unique {fate' : RecordFate} {s'' : ScanState τ}
    (h : ScanTurn tryReinsert offer c s fate s') (h' : ScanTurn tryReinsert offer c s fate' s'') :
    fate = fate' ∧ s' = s'' := by
  -- two different fates would need two answers of the index, of the budget or of the sink
  cases h <;> cases h' <;> simp_all <;> omega

end Turn

/-! ### What the cursor counts -/

/-- The counters that go up by one. -/
inductive ReclaimCounter
  | scanned
  | removed
  | reinserted
  | skipped
  | budgetSkipped

namespace ReclaimCounter

/-- The field of the counter. -/
def read (stats : RegionReclaimStats) : ReclaimCounter → ℕ
  | .scanned => stats.recordsScanned
  | .removed => stats.recordsRemoved
  | .reinserted => stats.reinsertRecords
  | .skipped => stats.reinsertSkipped
  | .budgetSkipped => stats.reinsertBudgetSkipped

/-- The records it counts. -/
def counts (fate : RecordFate) : ReclaimCounter → Bool
  | .scanned => true
  | .removed => fate.removed
  | .reinserted => decide (fate = .accepted)
  | .skipped => fate.skipped
  | .budgetSkipped => decide (fate = .beyondBudget)

end ReclaimCounter

/-- One record raises the counters that count it. -/
lemma ScanCursor.read_after (c : ScanCursor) (recordBytes recordEnd : ℕ) (fate : RecordFate)
    (counter : ReclaimCounter) (h : counter.read c.stats + 1 < 2 ^ 64) :
    counter.read ((c.after recordBytes fate).advance recordEnd).stats =
      counter.read c.stats + if counter.counts fate = true then 1 else 0 := by
  have hsucc : Word.saturatingAdd 64 (counter.read c.stats) 1 = counter.read c.stats + 1 :=
    Nat.min_eq_left (by omega)
  cases counter <;> cases fate <;> first | rfl | exact hsucc

/-! ### What a run does -/

section Runs

variable {c c' : ScanCursor} {s s' : ScanState τ} {r : ScannedRecord crc}
  {scanned : List (ScannedRecord crc)}

/-- The offer of a record comes before the ones after it. -/
lemma offersOf_cons (r : ScannedRecord crc) (scanned : List (ScannedRecord crc)) :
    offersOf (r :: scanned) = (r.fate.answer.map (r.offer, ·)).toList ++ offersOf scanned := by
  cases hfate : r.fate <;> simp [offersOf, ScannedRecord.answered, RecordFate.answer, hfate]

/-- The bytes add up. -/
lemma acceptedBytes_append (offers more : List (RegionReinsertRecord crc × Bool)) :
    acceptedBytes (offers ++ more) = acceptedBytes offers + acceptedBytes more := by
  simp [acceptedBytes]

/-- Sinks that are used one after another. -/
lemma SinkRun.trans {t t' t'' : τ} {offers more : List (RegionReinsertRecord crc × Bool)}
    (h : SinkRun tryReinsert t offers t') (h' : SinkRun tryReinsert t' more t'') :
    SinkRun tryReinsert t (offers ++ more) t'' := by
  induction h with
  | nil => exact h'
  | cons hrun _ ih => exact .cons hrun (ih h')

namespace ScanRun

/-- The records are those of the log. -/
lemma offer_of_mem (h : ScanRun receipt log tryReinsert c s scanned c' s') (hmem : r ∈ scanned) :
    IsOffer crc receipt log r.offer r.offset r.record := by
  induction h with
  | nil => cases hmem
  | cons _ hoffer _ _ ih =>
    rcases List.mem_cons.1 hmem with rfl | hmem
    · exact hoffer
    · exact ih hmem

/-- No record lies before the cursor. -/
lemma offset_le_of_mem (h : ScanRun receipt log tryReinsert c s scanned c' s')
    (hmem : r ∈ scanned) : c.offset ≤ r.offset := by
  induction h with
  | nil => cases hmem
  | cons hoffset _ _ _ ih =>
    rcases List.mem_cons.1 hmem with rfl | hmem
    · exact hoffset.ge
    · exact hoffset.ge.trans ((Nat.le_add_right _ _).trans (ih hmem))

/-- The records come in their order, each of them once. -/
theorem sorted (h : ScanRun receipt log tryReinsert c s scanned c' s') :
    scanned.Pairwise fun x y => x.offset < y.offset := by
  induction h with
  | nil => exact .nil
  | @cons _ _ _ _ _ r _ _ _ _ hrest ih =>
    refine List.pairwise_cons.2 ⟨fun y hy => ?_, ih⟩
    have hle : r.offset + r.record.recordLen ≤ y.offset := hrest.offset_le_of_mem hy
    have hmin := r.record.recordHeaderSize_le
    omega

/-- A record between the two cursors has been scanned. -/
lemma exists_of_at (h : ScanRun receipt log tryReinsert c s scanned c' s') {offset : ℕ}
    {record : ValueRecord} (hat : At (ValueRecord.bytes crc) log offset record)
    (hlow : c.offset ≤ offset) (hhigh : offset < c'.offset) :
    ∃ r ∈ scanned, r.offset = offset ∧ r.record = record := by
  induction h with
  | nil => omega
  | @cons c _ _ _ _ r scanned hoffset hoffer _ _ ih =>
    rcases Nat.lt_or_ge offset (r.offset + r.record.recordLen) with hlt | hge
    · have hsame : r.offset = offset := by
        by_contra hne
        have := hoffer.at_offset.disjoint hat (by omega)
        rw [ValueRecord.length_bytes] at this
        omega
      rw [← hsame] at hat
      exact ⟨r, List.mem_cons_self, hsame,
        hoffer.at_offset.unique (ValueRecord.selfDelimiting crc) hat⟩
    · obtain ⟨r', hmem, hrest⟩ := ih hge hhigh
      exact ⟨r', List.mem_cons_of_mem _ hmem, hrest⟩

/-- What becomes of the records is determined. -/
theorem unique {other : List (ScannedRecord crc)} {c'' : ScanCursor} {s'' : ScanState τ}
    (h : ScanRun receipt log tryReinsert c s scanned c' s')
    (h' : ScanRun receipt log tryReinsert c s other c'' s'')
    (hrecords : scanned.map (·.record) = other.map (·.record)) :
    scanned = other ∧ c' = c'' ∧ s' = s'' := by
  induction h generalizing other with
  | nil =>
    obtain rfl := List.map_eq_nil_iff.1 hrecords.symm
    cases h'
    exact ⟨rfl, rfl, rfl⟩
  | @cons _ _ _ _ _ r _ hoffset hoffer hturn _ ih =>
    cases h' with
    | nil => cases hrecords
    | @cons _ _ _ _ _ r' _ hoffset' hoffer' hturn' hrest' =>
      obtain ⟨hrecord, hmore⟩ := List.cons.inj hrecords
      obtain ⟨offset, record, offer, fate⟩ := r
      obtain ⟨offset', record', offer', fate'⟩ := r'
      obtain rfl : offset = offset' := hoffset.trans hoffset'.symm
      obtain rfl : record = record' := hrecord
      obtain rfl := hoffer.unique hoffer'
      obtain ⟨rfl, rfl⟩ := hturn.unique hturn'
      obtain ⟨rfl, hrest⟩ := ih hrest' hmore
      exact ⟨rfl, hrest⟩

/-- The sink has been asked for the records that were offered, and for no others. -/
theorem sinkRun (h : ScanRun receipt log tryReinsert c s scanned c' s') :
    SinkRun tryReinsert s.sink (offersOf scanned) s'.sink := by
  induction h with
  | nil => exact .nil _
  | cons _ _ hturn _ ih =>
    rw [offersOf_cons]
    exact hturn.sinkRun.trans ih

/-- The accepted records are paid from the budget. -/
theorem budget (h : ScanRun receipt log tryReinsert c s scanned c' s') :
    acceptedBytes (offersOf scanned) + c'.budget = c.budget := by
  induction h with
  | nil => exact Nat.zero_add _
  | @cons _ _ _ _ _ r _ _ _ hturn _ ih =>
    have hfirst := hturn.budget_after
    rw [offersOf_cons, acceptedBytes_append]
    simp only [ScanCursor.advance] at ih
    omega

/-- A sink that does not accept is not asked again. -/
theorem offersOf_eq_nil (h : ScanRun receipt log tryReinsert c s scanned c' s')
    (hstop : c.accepting = false) : offersOf scanned = [] := by
  induction h with
  | nil => rfl
  | cons _ _ hturn _ ih =>
    rw [offersOf_cons, hturn.answer_eq_none hstop]
    refine ih ?_
    rw [ScanCursor.advance, hturn.accepting_after, hstop]
    rfl

/-- A refusal is the last answer. -/
theorem refused (h : ScanRun receipt log tryReinsert c s scanned c' s')
    {before after : List (RegionReinsertRecord crc × Bool)} {offer : RegionReinsertRecord crc}
    (heq : offersOf scanned = before ++ (offer, false) :: after) : after = [] := by
  induction h generalizing before with
  | nil => simp [offersOf] at heq
  | @cons _ _ _ _ _ r scanned _ _ hturn hrest ih =>
    rw [offersOf_cons] at heq
    cases hanswer : r.fate.answer with
    | none =>
      rw [hanswer] at heq
      exact ih heq
    | some accepted =>
      rw [hanswer] at heq
      cases before with
      | cons first before => exact ih (List.cons.inj heq).2
      | nil =>
        -- the sink has just refused the record, so that no other one is offered
        obtain ⟨hfirst, rfl⟩ := List.cons.inj heq
        obtain ⟨-, rfl⟩ := Prod.mk.inj hfirst
        refine hrest.offersOf_eq_nil ?_
        have hfate : r.fate = .refused := by
          cases hfate : r.fate <;> simp [hfate, RecordFate.answer] at hanswer
          rfl
        rw [ScanCursor.advance, hturn.accepting_after, hfate]
        simp

/-- **Counters.** Each counter has gone up by the number of records that it counts. -/
theorem counted (h : ScanRun receipt log tryReinsert c s scanned c' s') (counter : ReclaimCounter)
    (hlt : counter.read c.stats + scanned.length < 2 ^ 64) :
    counter.read c'.stats =
      counter.read c.stats + scanned.countP fun r => counter.counts r.fate := by
  induction h with
  | nil => rfl
  | @cons c _ _ _ _ r _ _ _ _ _ ih =>
    rw [List.length_cons] at hlt
    have hstep := c.read_after r.offer.recordBytes (r.offset + r.record.recordLen) r.fate counter
      (by omega)
    rw [ih (by rw [hstep]; split_ifs <;> omega), hstep, List.countP_cons]
    omega

/-- The bytes of the accepted records are counted. -/
theorem bytes (h : ScanRun receipt log tryReinsert c s scanned c' s')
    (hlt : c.stats.reinsertBytes + c.budget < 2 ^ 64) :
    c'.stats.reinsertBytes = c.stats.reinsertBytes + acceptedBytes (offersOf scanned) := by
  induction h with
  | nil => rfl
  | cons _ _ hturn _ ih =>
    have hbudget := hturn.budget_after
    have hstep := hturn.bytes_after hlt
    rw [offersOf_cons, acceptedBytes_append]
    simp only [ScanCursor.advance] at ih
    rw [ih (by omega), hstep, Nat.add_assoc]

/-- The bytes that were read do not change. -/
lemma bytesRead_eq (h : ScanRun receipt log tryReinsert c s scanned c' s') :
    c'.stats.bytesRead = c.stats.bytesRead := by
  induction h with
  | nil => rfl
  | @cons _ _ _ _ _ r _ _ _ _ _ ih =>
    rw [ih]
    cases r.fate <;> rfl

/-- **The index.** A record is missing when the index does not lead to it; the mappings of the
others are removed as their fates say, and no other mapping is. -/
theorem index (hr : canonicalIndexPartitionRanges slotCount = .ok ranges)
    (hinv : IndexInv crc slotCount ranges s.index)
    (h : ScanRun receipt log tryReinsert c s scanned c' s') :
    IndexInv crc slotCount ranges s'.index ∧
      (∀ r ∈ scanned, r.fate ≠ .missing ↔ r.Mapped ranges s.index) ∧
      ∀ tok e, Holds s'.index.cells tok e ↔
        Holds s.index.cells tok e ∧
          ∀ r ∈ scanned, r.fate.removed = true → ¬ r.Maps ranges tok e := by
  induction h with
  | nil => exact ⟨hinv, by simp, by simp⟩
  | @cons c c' s s' s'' r scanned hoffset hoffer hturn hrest ih =>
    obtain ⟨hinv', hmatch, hremoved, hsame⟩ := hturn.index hr hinv
    obtain ⟨hinv'', hmapped, hholds⟩ := ih hinv'
    -- what the first record does to the mappings
    have hfirst : ∀ tok e, Holds s'.index.cells tok e ↔ Holds s.index.cells tok e ∧
        (r.fate.removed = true → ¬ r.Maps ranges tok e) := by
      intro tok e
      cases hfate : r.fate.removed with
      | true => simpa [ScannedRecord.Maps] using (hremoved hfate).holds_iff
      | false => simp [hsame hfate]
    refine ⟨hinv'', ?_, fun tok e => ?_⟩
    · intro r' hmem
      rcases List.mem_cons.1 hmem with rfl | hmem
      · rw [hmatch, ScannedRecord.mapped_iff]
      · rw [hmapped r' hmem]
        -- the mapping of a later record is not that of the first one
        have hlt : r.offset < r'.offset := by
          have hle : r.offset + r.record.recordLen ≤ r'.offset := hrest.offset_le_of_mem hmem
          have hmin := r.record.recordHeaderSize_le
          omega
        have hother : ∀ tok e, r'.Maps ranges tok e → ¬ r.Maps ranges tok e := by
          intro tok e hmaps' hmaps
          have heq' := hmaps'.offset_eq (hrest.offer_of_mem hmem)
          have heq := hmaps.offset_eq hoffer
          omega
        constructor
        · rintro ⟨tok, e, he, hmaps⟩
          exact ⟨tok, e, ((hfirst tok e).1 he).1, hmaps⟩
        · rintro ⟨tok, e, he, hmaps⟩
          exact ⟨tok, e, (hfirst tok e).2 ⟨he, fun _ => hother tok e hmaps⟩, hmaps⟩
    · rw [hholds, hfirst, and_assoc, List.forall_mem_cons]

/-- Two records at the same offset are the same one. -/
lemma eq_of_offset (h : ScanRun receipt log tryReinsert c s scanned c' s')
    {x y : ScannedRecord crc} (hx : x ∈ scanned) (hy : y ∈ scanned)
    (heq : x.offset = y.offset) : x = y := by
  have hnodup : (scanned.map (·.offset)).Nodup :=
    List.pairwise_map.2 (h.sorted.imp fun hlt => hlt.ne)
  exact List.inj_on_of_nodup_map hnodup hx hy heq

/-- A record is removed when the index leads to it before the run, and no longer afterwards. -/
theorem removed_iff (hr : canonicalIndexPartitionRanges slotCount = .ok ranges)
    (hinv : IndexInv crc slotCount ranges s.index)
    (h : ScanRun receipt log tryReinsert c s scanned c' s') (hmem : r ∈ scanned) :
    r.fate.removed = true ↔ r.Mapped ranges s.index ∧ ¬ r.Mapped ranges s'.index := by
  obtain ⟨-, hmapped, hholds⟩ := h.index hr hinv
  constructor
  · intro hremoved
    have hne : r.fate ≠ .missing := by
      intro hfate
      rw [hfate] at hremoved
      cases hremoved
    refine ⟨(hmapped r hmem).1 hne, ?_⟩
    rintro ⟨tok, e, he, hmaps⟩
    exact ((hholds tok e).1 he).2 r hmem hremoved hmaps
  · rintro ⟨⟨tok, e, he, hmaps⟩, hnot⟩
    by_contra hkept
    refine hnot ⟨tok, e, (hholds tok e).2 ⟨he, fun other hother hremoved hmaps' => hkept ?_⟩, hmaps⟩
    obtain rfl := h.eq_of_offset hmem hother ((hmaps.offset_eq (h.offer_of_mem hmem)).symm.trans
      (hmaps'.offset_eq (h.offer_of_mem hother)))
    exact hremoved

/-- A mapping that leads to a record of the run remains only when the record has been accepted. -/
theorem accepted_of_named (hr : canonicalIndexPartitionRanges slotCount = .ok ranges)
    (hinv : IndexInv crc slotCount ranges s.index)
    (h : ScanRun receipt log tryReinsert c s scanned c' s') {tok : Token} {e : IndexEntry}
    (he : Holds s'.index.cells tok e) (hregion : e.location.regionId = receipt.regionId)
    (hlow : c.offset ≤ e.location.offset) (hhigh : e.location.offset < c'.offset)
    (hnamed : Named crc ranges log tok e) :
    ∃ r ∈ scanned, r.fate = .accepted ∧ r.Maps ranges tok e := by
  obtain ⟨-, hmapped, hholds⟩ := h.index hr hinv
  obtain ⟨hbefore, hkept⟩ := (hholds tok e).1 he
  obtain ⟨record, hat, -⟩ := id hnamed
  obtain ⟨r, hmem, hoffset, -⟩ := h.exists_of_at hat hlow hhigh
  have hoffer := h.offer_of_mem hmem
  have hmaps : r.Maps ranges tok e := by
    have hmin := r.record.recordHeaderSize_le
    obtain ⟨htok, hequiv⟩ :=
      named_at hoffer.at_offset hoffer.previous_eq hregion (by omega) (by omega) hnamed
    exact ⟨hoffer.hash_eq ▸ htok, hequiv⟩
  have hne := (hmapped r hmem).2 ⟨tok, e, hbefore, hmaps⟩
  refine ⟨r, hmem, ?_, hmaps⟩
  cases hfate : r.fate with
  | accepted => rfl
  | missing => exact absurd hfate hne
  | cold | refused | beyondBudget | unasked =>
    exact absurd hmaps (hkept r hmem (by rw [hfate]; rfl))

end ScanRun

end Runs

/-! ### The rest of a log -/

/-- **The rest of a log.** From the beginning of a record on, the scan deals with all the records
that are left. -/
theorem scanFrom_log (hr : canonicalIndexPartitionRanges slotCount = .ok ranges)
    (hscan : Scannable crc receipt log)
    (hsink : ∀ offer t, ∃ accepted t', tryReinsert offer t = .ok accepted t') :
    ∀ (after before : List ValueRecord) (fuel : ℕ) (c : ScanCursor) (s : ScanState τ),
      log = before ++ after → c.offset = (text (ValueRecord.bytes crc) before).length →
      (text (ValueRecord.bytes crc) after).length ≤ fuel → IndexInv crc slotCount ranges s.index →
      ∃ scanned c' s',
        scanFrom crc receipt (text (ValueRecord.bytes crc) log) tryReinsert fuel c s =
          .ok c' s' ∧ c'.offset = (text (ValueRecord.bytes crc) log).length ∧
        scanned.map (·.record) = after ∧
        ScanRun receipt log tryReinsert c s scanned c' s' := by
  intro after
  -- the induction is on the records that are left: each of them takes one unit of the fuel at most
  induction after with
  | nil =>
    intro before fuel c s hlog hoffset _ hinv
    rw [List.append_nil] at hlog
    have hend : c.offset = (text (ValueRecord.bytes crc) log).length := by rw [hlog, hoffset]
    refine ⟨[], c, s, ?_, hend, rfl, .nil c s⟩
    cases fuel with
    | zero => rfl
    | succ fuel =>
      rw [scanFrom, if_pos hend.ge]
      rfl
  | cons record after ih =>
    intro before fuel c s hlog hoffset hfuel hinv
    have hat : At (ValueRecord.bytes crc) log c.offset record := by
      rw [hlog, hoffset]
      exact at_append_self
    have hmin := record.recordHeaderSize_le
    rw [text_cons, List.length_append, ValueRecord.length_bytes] at hfuel
    have hlt : c.offset < (text (ValueRecord.bytes crc) log).length := by
      have := hat.le_length
      rw [ValueRecord.length_bytes] at this
      omega
    obtain ⟨offer, fate, s₁, hoffer, hturn, hstep⟩ := scanStep_log hr hscan hsink hinv hat
    cases fuel with
    | zero => omega
    | succ fuel =>
      obtain ⟨scanned, c', s', hrest, hend, hrecords, hrun⟩ := ih (before ++ [record]) fuel
        ((c.after offer.recordBytes fate).advance (c.offset + record.recordLen)) s₁
        (by rw [hlog, List.append_assoc, List.singleton_append])
        (by rw [ScanCursor.advance, hoffset]; simp [text]) (by omega) (hturn.index hr hinv).1
      refine ⟨⟨c.offset, record, offer, fate⟩ :: scanned, c', s', ?_, hend, ?_, ?_⟩
      · rw [scanFrom, if_neg (by omega), bind_ok hstep]
        exact hrest
      · rw [List.map_cons, hrecords]
      · exact .cons rfl hoffer hturn hrun

end Log

/-! ## The whole prefix -/

/-- What the scan of a log has done. -/
structure ScanOutcome {τ : Type} {crc : List UInt8 → BitVec 32} (slotCount : ℕ)
    (ranges : List IndexPartitionRange) (receipt : RegionReclaimReceipt) (log : List ValueRecord)
    (tryReinsert : RegionReinsertRecord crc → EStateM IoError τ Bool) (s : ScanState τ)
    (stats : RegionReclaimStats) (scanned : List (ScannedRecord crc)) (s' : ScanState τ) :
    Prop where
  /-- Every record is visited once. -/
  visited : scanned.map (·.record) = log
  offers : ∀ r ∈ scanned, IsOffer crc receipt log r.offer r.offset r.record
  sorted : scanned.Pairwise fun x y => x.offset < y.offset
  inv : IndexInv crc slotCount ranges s'.index
  mapped : ∀ r ∈ scanned, r.fate ≠ .missing ↔ r.Mapped ranges s.index
  removed : ∀ r ∈ scanned, r.fate.removed = true ↔
    r.Mapped ranges s.index ∧ ¬ r.Mapped ranges s'.index
  /-- The mappings of the removed records are gone, and no others. -/
  holds : ∀ tok e, Holds s'.index.cells tok e ↔
    Holds s.index.cells tok e ∧ ∀ r ∈ scanned, r.fate.removed = true → ¬ r.Maps ranges tok e
  others : ∀ tok e, Holds s.index.cells tok e → e.location.regionId ≠ receipt.regionId →
    Holds s'.index.cells tok e
  /-- A mapping that leads to a record of the log remains only when the sink has accepted it. -/
  gone : ∀ tok e, Holds s'.index.cells tok e → e.location.regionId = receipt.regionId →
    Named crc ranges log tok e → ∃ r ∈ scanned, r.fate = .accepted ∧ r.Maps ranges tok e
  sink : SinkRun tryReinsert s.sink (offersOf scanned) s'.sink
  refused : ∀ before offer after, offersOf scanned = before ++ (offer, false) :: after → after = []
  budget : acceptedBytes (offersOf scanned) ≤ receipt.usedOffset / 8 - directIoAlignment
  recordsScanned_eq : stats.recordsScanned = log.length
  recordsRemoved_eq : stats.recordsRemoved = scanned.countP (·.fate.removed)
  bytesRead_eq : stats.bytesRead = receipt.usedOffset
  reinsertRecords_eq : stats.reinsertRecords = scanned.countP (·.fate = .accepted)
  reinsertBytes_eq : stats.reinsertBytes = acceptedBytes (offersOf scanned)
  reinsertSkipped_eq : stats.reinsertSkipped = scanned.countP (·.fate.skipped)
  reinsertBudgetSkipped_eq : stats.reinsertBudgetSkipped =
    scanned.countP (·.fate = .beyondBudget)

section Whole

variable {τ : Type} {crc : List UInt8 → BitVec 32} {slotCount : ℕ}
  {ranges : List IndexPartitionRange} {receipt : RegionReclaimReceipt} {log : List ValueRecord}
  {tryReinsert : RegionReinsertRecord crc → EStateM IoError τ Bool} {s : ScanState τ}

/-- **Reclamation.** The scan of a log succeeds, whatever the index holds. Its records are visited
one after another, their mappings are removed as their fates say, and all the counters are exact. -/
theorem scanReclaim_log (hr : canonicalIndexPartitionRanges slotCount = .ok ranges)
    (hscan : Scannable crc receipt log)
    (hsink : ∀ offer t, ∃ accepted t', tryReinsert offer t = .ok accepted t')
    (hinv : IndexInv crc slotCount ranges s.index) (accepting : Bool) :
    ∃ stats scanned c s', scanReclaim crc receipt (text (ValueRecord.bytes crc) log) tryReinsert
        accepting s = .ok stats s' ∧
      ScanRun receipt log tryReinsert (.start receipt accepting) s scanned c s' ∧
      (accepting = false → offersOf scanned = []) ∧
      ScanOutcome slotCount ranges receipt log tryReinsert s stats scanned s' := by
  have hmax : maxPackedRegionSize = 2 ^ 25 := by decide
  have hused := hscan.used_eq
  have hle := hscan.used_le
  have hcount : log.length ≤ (text (ValueRecord.bytes crc) log).length :=
    length_le_length_text (ValueRecord.selfDelimiting crc)
  obtain ⟨scanned, c, s', hok, hend, hvisited, hrun⟩ := scanFrom_log hr hscan hsink log []
    (text (ValueRecord.bytes crc) log).length (.start receipt accepting) s rfl rfl (le_refl _) hinv
  obtain ⟨hinv', hmapped, hholds⟩ := hrun.index hr hinv
  have hlength : scanned.length = log.length := by rw [← hvisited, List.length_map]
  have hcounted : ∀ counter : ReclaimCounter, counter.read c.stats =
      scanned.countP fun r => counter.counts r.fate := by
    intro counter
    have hzero : counter.read (ScanCursor.start receipt accepting).stats = 0 := by
      cases counter <;> rfl
    rw [hrun.counted counter (by rw [hzero]; omega), hzero, Nat.zero_add]
  have hscanned : c.stats.recordsScanned = log.length := by
    rw [← hlength]
    exact (hcounted .scanned).trans (congrFun List.countP_true scanned)
  refine ⟨c.stats, scanned, c, s', ?_, hrun, ?_, ?_⟩
  · rw [scanReclaim, rejectIf_bind (by omega), bind_ok hok, rejectIf_bind]
    · rfl
    · rw [hscanned, hscan.count_eq]
      exact fun hne => hne rfl
  · intro haccepting
    exact hrun.offersOf_eq_nil haccepting
  · constructor
    · exact hvisited
    · exact fun r => hrun.offer_of_mem
    · exact hrun.sorted
    · exact hinv'
    · exact hmapped
    · intro r hmem
      exact hrun.removed_iff hr hinv hmem
    · exact hholds
    · intro tok e he hne
      refine (hholds tok e).2 ⟨he, fun r hmem _ hmaps => hne ?_⟩
      exact hmaps.regionId_eq (hrun.offer_of_mem hmem)
    · intro tok e he hregion hnamed
      obtain ⟨record, hat, -⟩ := id hnamed
      have hlt := hat.le_length
      rw [ValueRecord.length_bytes] at hlt
      have hmin := record.recordHeaderSize_le
      exact hrun.accepted_of_named hr hinv he hregion (Nat.zero_le _) (by omega) hnamed
    · exact hrun.sinkRun
    · exact fun before offer after => hrun.refused
    · have hbudget : acceptedBytes (offersOf scanned) + c.budget ≤
          receipt.usedOffset / 8 - directIoAlignment := hrun.budget.trans_le (Nat.sub_le _ _)
      omega
    · exact hscanned
    · exact hcounted .removed
    · exact hrun.bytesRead_eq
    · exact hcounted .reinserted
    · have hbudget : (ScanCursor.start receipt accepting).budget ≤ receipt.usedOffset :=
        (Nat.sub_le _ _).trans ((Nat.sub_le _ _).trans (Nat.div_le_self _ _))
      rw [hrun.bytes (by show 0 + _ < _; omega)]
      exact Nat.zero_add _
    · exact hcounted .skipped
    · exact hcounted .budgetSkipped

end Whole

/-! ## A scan -/

section Sample

/-- The length of a log. -/
lemma length_text_bytes (crc : List UInt8 → BitVec 32) (records : List ValueRecord) :
    (text (ValueRecord.bytes crc) records).length = (records.map (·.recordLen)).sum := by
  induction records with
  | nil => rfl
  | cons record records ih => simp [ih]

/-- A record with an empty key and a value of some blocks. -/
def reclaimSampleRecord (hash : Hash) (blocks : ℕ) (h : blocks ≤ 1061) : ValueRecord where
  keyHash := hash
  seqno := 1
  generation := 1
  key := []
  value := List.replicate (32 * blocks) 0
  tail := List.replicate 16 0
  key_le := Nat.zero_le _
  seqno_ne := by decide
  generation_ne := by decide
  aligned := by
    simp only [List.length_replicate, List.length_nil]
    unfold recordHeaderSize recordAlignment
    omega
  length_le := by
    have hmax : 2 ^ 25 ≤ maxRecordLen := by decide
    simp only [List.length_replicate, List.length_nil]
    unfold recordHeaderSize
    omega

/-- The offer that the record makes. -/
def reclaimSampleOffer (hash : Hash) (blocks : ℕ) (location : PackedLocation) :
    RegionReinsertRecord fun _ => 0 :=
  ⟨hash, location, 1, 64 + 32 * blocks, .new _ [] (List.replicate (32 * blocks) 0)⟩

variable {hash : Hash} {blocks : ℕ} {h : blocks ≤ 1061}

lemma reclaimSampleRecord_recordLen :
    (reclaimSampleRecord hash blocks h).recordLen = 64 + 32 * blocks := by
  simp only [ValueRecord.recordLen, reclaimSampleRecord, List.length_replicate, List.length_nil]
  unfold recordHeaderSize
  omega

lemma reclaimSampleOffer_isOffer {receipt : RegionReclaimReceipt} {log : List ValueRecord}
    {offset : ℕ} {location : PackedLocation}
    (hat : At (ValueRecord.bytes fun _ => 0) log offset (reclaimSampleRecord hash blocks h))
    (hlocation : PackedLocation.new receipt.regionId offset (64 + 32 * blocks) = .ok location) :
    IsOffer (fun _ => 0) receipt log (reclaimSampleOffer hash blocks location) offset
      (reclaimSampleRecord hash blocks h) where
  at_offset := hat
  hash_eq := rfl
  previous_eq := by rw [reclaimSampleRecord_recordLen, hlocation]; rfl
  seqno_eq := rfl
  bytes_eq := by
    have hmax : 2 ^ 25 ≤ maxRecordLen := by decide
    refine requiredRecordBytes_eq_ok.2 ⟨Nat.zero_le _, ?_, ?_⟩
    · simp only [reclaimSampleRecord, reclaimSampleOffer, List.length_replicate, List.length_nil]
      omega
    · show 64 + 32 * blocks ≤ maxRecordLen
      omega
  payload_eq := rfl

/-- Four records, the second of which has nearly all the bytes. -/
def reclaimSampleLog : List ValueRecord :=
  [reclaimSampleRecord 1 0 (by decide), reclaimSampleRecord 2 1061 (by decide),
    reclaimSampleRecord 3 0 (by decide), reclaimSampleRecord 0x100000000 0 (by decide)]

/-- The index leads to the four records, all of them hot. -/
def reclaimSampleOps : List IndexOp :=
  [.upsert 1 ⟨⟨0x10000000000⟩⟩, .upsert 2 ⟨⟨0x4260000200000⟩⟩, .upsert 3 ⟨⟨0x10042900000⟩⟩,
    .upsert 0x100000000 ⟨⟨0x10042B00000⟩⟩, .lookupRaw 1, .lookupRaw 1, .lookupRaw 2, .lookupRaw 2,
    .lookupRaw 3, .lookupRaw 3, .lookupRaw 0x100000000, .lookupRaw 0x100000000]

/-- The receipt of the Region. -/
def reclaimSampleReceipt : RegionReclaimReceipt := ⟨0, 1, 34208, 4⟩

/-- A sink that has room for one record. -/
def reclaimSampleSink : RegionReinsertRecord (fun _ => 0) → EStateM IoError ℕ Bool :=
  fun _ asked => .ok (asked == 0) (asked + 1)

lemma reclaimSampleLog_scannable :
    Scannable (fun _ => 0) reclaimSampleReceipt reclaimSampleLog where
  region_le := by decide
  used_eq := by
    rw [length_text_bytes]
    simp [reclaimSampleLog, reclaimSampleReceipt, reclaimSampleRecord_recordLen]
  used_le := by decide
  count_eq := rfl
  generation_eq := by
    intro record hmem
    simp only [reclaimSampleLog, List.mem_cons, List.not_mem_nil, or_false] at hmem
    rcases hmem with rfl | rfl | rfl | rfl <;> rfl

lemma reclaimSampleLog_offers :
    IsOffer (fun _ => 0) reclaimSampleReceipt reclaimSampleLog
        (reclaimSampleOffer 1 0 ⟨0x10000000000⟩) 0 (reclaimSampleRecord 1 0 (by decide)) ∧
      IsOffer (fun _ => 0) reclaimSampleReceipt reclaimSampleLog
        (reclaimSampleOffer 2 1061 ⟨0x4260000200000⟩) 64
        (reclaimSampleRecord 2 1061 (by decide)) ∧
      IsOffer (fun _ => 0) reclaimSampleReceipt reclaimSampleLog
        (reclaimSampleOffer 3 0 ⟨0x10042900000⟩) 34080 (reclaimSampleRecord 3 0 (by decide)) ∧
      IsOffer (fun _ => 0) reclaimSampleReceipt reclaimSampleLog
        (reclaimSampleOffer 0x100000000 0 ⟨0x10042B00000⟩) 34144
        (reclaimSampleRecord 0x100000000 0 (by decide)) := by
  have hat : ∀ (n : ℕ) (record : ValueRecord) (offset : ℕ), reclaimSampleLog[n]? = some record →
      ((reclaimSampleLog.take n).map (·.recordLen)).sum = offset →
      At (ValueRecord.bytes fun _ => 0) reclaimSampleLog offset record := by
    intro n record offset hget hsum
    obtain ⟨hn, rfl⟩ := List.getElem?_eq_some_iff.1 hget
    exact ⟨reclaimSampleLog.take n, reclaimSampleLog.drop (n + 1),
      by rw [← List.drop_eq_getElem_cons hn, List.take_append_drop],
      (length_text_bytes _ _).trans hsum⟩
  refine ⟨reclaimSampleOffer_isOffer (hat 0 _ _ rfl rfl) (by decide),
    reclaimSampleOffer_isOffer (hat 1 _ _ rfl ?_) (by decide),
    reclaimSampleOffer_isOffer (hat 2 _ _ rfl ?_) (by decide),
    reclaimSampleOffer_isOffer (hat 3 _ _ rfl ?_) (by decide)⟩
  all_goals simp [reclaimSampleLog, reclaimSampleRecord_recordLen]

/-- What the index is asked for a hot record that is removed. -/
def reclaimSampleDrop (hash : Hash) (location : PackedLocation) :
    IndexM (ReclaimIndexAction × Bool) := do
  let action ← RegionIndex.prepareReclaim (fun _ => 0) hash location
  let removed ← RegionIndex.removeIfMatch (fun _ => 0) hash location
  pure (action, removed)

/-- What the index is asked in the scan of the four records. -/
def reclaimSampleCalls : IndexM (ReclaimIndexAction × List (ReclaimIndexAction × Bool)) := do
  runOps (fun _ => 0) reclaimSampleOps
  let first ← RegionIndex.prepareReclaim (fun _ => 0) 1 ⟨0x10000000000⟩
  let second ← reclaimSampleDrop 2 ⟨0x4260000200000⟩
  let third ← reclaimSampleDrop 3 ⟨0x10042900000⟩
  let fourth ← reclaimSampleDrop 0x100000000 ⟨0x10042B00000⟩
  pure (first, [second, third, fourth])

/-- The four records are hot, and are still mapped when they are removed. -/
lemma reclaimSampleCalls_eq : ∃ storage, PartitionedIndexStorage.anonymous 4 = .ok storage ∧
    ∃ idx, reclaimSampleCalls (.fromStorage storage) =
      .ok (.reinsert, [(.reinsert, true), (.reinsert, true), (.reinsert, true)]) idx := by
  have hrun : ∃ storage, PartitionedIndexStorage.anonymous 4 = .ok storage ∧
      (match reclaimSampleCalls (.fromStorage storage) with
        | .ok results _ => some results
        | .error _ _ => none) =
          some (.reinsert, [(.reinsert, true), (.reinsert, true), (.reinsert, true)]) :=
    ⟨_, rfl, by decide +kernel⟩
  obtain ⟨storage, hnew, hrun⟩ := hrun
  refine ⟨storage, hnew, ?_⟩
  cases hcalls : reclaimSampleCalls (.fromStorage storage) with
  | ok results idx =>
    rw [hcalls] at hrun
    cases hrun
    exact ⟨idx, rfl⟩
  | error error idx =>
    rw [hcalls] at hrun
    cases hrun

/-- The two calls. -/
lemma reclaimSampleDrop_eq_ok {location : PackedLocation} {idx idx' : RegionIndex}
    {action : ReclaimIndexAction} {removed : Bool}
    (h : reclaimSampleDrop hash location idx = .ok (action, removed) idx') :
    ∃ index, RegionIndex.prepareReclaim (fun _ => 0) hash location idx = .ok action index ∧
      RegionIndex.removeIfMatch (fun _ => 0) hash location index = .ok removed idx' := by
  obtain ⟨action', index, hprepare, h⟩ := bind_eq_ok.1 h
  obtain ⟨removed', index', hremove, h⟩ := bind_eq_ok.1 h
  cases h
  exact ⟨index, hprepare, hremove⟩

/-- The scan of a log with a large record: the first record is accepted, the second one is beyond
the budget, the third one is refused, and the sink is not asked for the last one. -/
theorem scanReclaim_log_sample :
    ∃ storage idx idx', PartitionedIndexStorage.anonymous 4 = .ok storage ∧
      runOps (fun _ => 0) reclaimSampleOps (.fromStorage storage) = .ok () idx ∧
      scanReclaim (fun _ => 0) reclaimSampleReceipt
          (text (ValueRecord.bytes fun _ => 0) reclaimSampleLog) reclaimSampleSink true ⟨idx, 0⟩ =
        .ok ⟨4, 3, 34208, 1, 64, 3, 1⟩ ⟨idx', 2⟩ := by
  obtain ⟨storage, hnew, idx₄, hcalls⟩ := reclaimSampleCalls_eq
  obtain ⟨ranges, hr, h₀, hempty⟩ := fromStorage_inv (fun _ => 0) hnew
  obtain ⟨idx, hops, hinv, -⟩ := runOps_inv hr reclaimSampleOps h₀ hempty
  rw [reclaimSampleCalls, bind_ok hops] at hcalls
  obtain ⟨_, idx₁, hfirst, hcalls⟩ := bind_eq_ok.1 hcalls
  obtain ⟨_, idx₂, hsecond, hcalls⟩ := bind_eq_ok.1 hcalls
  obtain ⟨_, idx₃, hthird, hcalls⟩ := bind_eq_ok.1 hcalls
  obtain ⟨_, idx₄, hfourth, hcalls⟩ := bind_eq_ok.1 hcalls
  cases hcalls
  obtain ⟨_, hsecond, hremove₂⟩ := reclaimSampleDrop_eq_ok hsecond
  obtain ⟨_, hthird, hremove₃⟩ := reclaimSampleDrop_eq_ok hthird
  obtain ⟨_, hfourth, hremove₄⟩ := reclaimSampleDrop_eq_ok hfourth
  obtain ⟨stats, scanned, c, s', hscan, hrun, -, houtcome⟩ := @scanReclaim_log ℕ (fun _ => 0) 4
    ranges reclaimSampleReceipt reclaimSampleLog reclaimSampleSink ⟨idx, 0⟩ hr
    reclaimSampleLog_scannable (fun _ n => ⟨n == 0, n + 1, rfl⟩) hinv true
  -- the records are dealt with as the index, the budget and the sink say
  obtain ⟨hoffer₁, hoffer₂, hoffer₃, hoffer₄⟩ := reclaimSampleLog_offers
  have hsample : ScanRun reclaimSampleReceipt reclaimSampleLog reclaimSampleSink
      (.start reclaimSampleReceipt true) ⟨idx, 0⟩
      [⟨0, _, _, .accepted⟩, ⟨64, _, _, .beyondBudget⟩, ⟨34080, _, _, .refused⟩,
        ⟨34144, _, _, .unasked⟩] _ ⟨idx₄, 2⟩ :=
    .cons rfl hoffer₁ (.accepted hfirst (by decide) rfl rfl)
      (.cons (congrArg (0 + ·) (@reclaimSampleRecord_recordLen 1 0 (by decide))).symm hoffer₂
        (.beyondBudget hsecond (by decide) hremove₂)
        (.cons (congrArg (64 + ·) (@reclaimSampleRecord_recordLen 2 1061 (by decide))).symm hoffer₃
          (.refused hthird (by decide) rfl rfl hremove₃)
          (.cons (congrArg (34080 + ·) (@reclaimSampleRecord_recordLen 3 0 (by decide))).symm
            hoffer₄ (.unasked hfourth (by decide) rfl hremove₄) (.nil _ _))))
  obtain ⟨rfl, -, rfl⟩ := hrun.unique hsample (houtcome.visited.trans rfl)
  refine ⟨storage, idx, idx₄, hnew, hops, hscan.trans ?_⟩
  obtain ⟨recordsScanned, recordsRemoved, bytesRead, reinsertRecords, reinsertBytes,
    reinsertSkipped, reinsertBudgetSkipped⟩ := stats
  obtain rfl := houtcome.recordsScanned_eq
  obtain rfl := houtcome.recordsRemoved_eq
  obtain rfl := houtcome.bytesRead_eq
  obtain rfl := houtcome.reinsertRecords_eq
  obtain rfl := houtcome.reinsertBytes_eq
  obtain rfl := houtcome.reinsertSkipped_eq
  obtain rfl := houtcome.reinsertBudgetSkipped_eq
  rfl

end Sample

end Cache2
