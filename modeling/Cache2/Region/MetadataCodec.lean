import Cache2.Region.Metadata

set_option relaxedAutoImplicit false
set_option autoImplicit false

/-!
# The encoding of the Region metadata

A table is encoded as pages of 4 KiB (`region/recovery/metadata.rs`): one for the root, then the
Regions, 192 to a page, then the counters of the index partitions, 252 to a page. Every page has
a header of 64 bytes that names its kind, its image and its place, and a checksum; the rest of a
page that no record fills is zero.

An encoder writes fields at offsets of a zero-filled page and a decoder reads fields at offsets
of any page, so both are compared with a third thing: `Cache2.PageIs` says slice by slice what a
page holds. The encoder produces such pages, the decoder accepts exactly such pages, and there is
only one page like that.

## Main definitions

* `Cache2.RegionMetadata.encode`, `Cache2.RegionMetadata.decodeOwned` — the codec.
* `Cache2.PageIs`, `Cache2.SectionIs`, `Cache2.RegionMetadata.Encodes` — what the bytes are.

## Main results

* `Cache2.RegionMetadata.encode_spec` — a valid table is encoded, without a panic.
* `Cache2.RegionMetadata.encodes_of_decodeOwned`, `Cache2.RegionMetadata.decodeOwned_of_encodes` —
  what is decoded, and as what.
* `Cache2.RegionMetadata.codec_roundTrip` — the codec is a bijection between the valid tables and
  the accepted byte strings.
-/

namespace Cache2

open Bytes Loop

/-! ## Pages -/

/-- Bytes of a page header. -/
def regionMetadataPageHeaderSize : ℕ := 64

/-- Bytes of the root. -/
def regionMetadataRootSize : ℕ := 256

/-- Bytes of a Region. -/
def regionMetadataRegionSize : ℕ := 21

/-- Bytes of a partition. -/
def regionMetadataPartitionSize : ℕ := 16

/-- `CRRMD` and three zero bytes. -/
def metadataPageMagic : List UInt8 := [0x43, 0x52, 0x52, 0x4D, 0x44, 0, 0, 0]

/-- The only version. -/
def metadataFormatVersion : BitVec 16 := 1

/-- The sections. -/
inductive PageKind
  | root
  | region
  | partition
  deriving DecidableEq, Repr

/-- The number of a section. -/
def PageKind.code : PageKind → BitVec 16
  | .root => 1
  | .region => 2
  | .partition => 3

/-- The section with a number. -/
def PageKind.decode (value : BitVec 16) : Option PageKind :=
  if value = 1 then some .root
  else if value = 2 then some .region
  else if value = 3 then some .partition
  else none

/-- The header of a page. -/
structure PageEnvelope where
  kind : PageKind
  recordSize : BitVec 16
  imageIdentity : PersistentId
  imageGeneration : BitVec 64
  pageIndex : BitVec 32
  firstRecord : BitVec 32
  recordCount : BitVec 32
  deriving DecidableEq, Repr

/-- The fields of a header before its checksum, with their offsets. -/
def envelopeFields (envelope : PageEnvelope) : List (ℕ × List UInt8) :=
  [(0, metadataPageMagic),
   (8, u16Bytes metadataFormatVersion),
   (10, u16Bytes (BitVec.ofNat 16 regionMetadataPageHeaderSize)),
   (12, u16Bytes envelope.kind.code),
   (14, u16Bytes envelope.recordSize),
   (16, envelope.imageIdentity.bytes),
   (32, u64Bytes envelope.imageGeneration),
   (40, u32Bytes envelope.pageIndex),
   (44, u32Bytes envelope.firstRecord),
   (48, u32Bytes envelope.recordCount),
   (52, u32Bytes 0)]

/-- Writes a header; the checksum is still zero. -/
def encodePageEnvelope (page : List UInt8) (envelope : PageEnvelope) : List UInt8 :=
  putFields (envelopeFields envelope ++ [(56, u32Bytes 0), (60, u32Bytes 0)]) page

/-- The checksum of a page, its checksum field taken as zero. -/
def pageCrc (crc : List UInt8 → BitVec 32) (page : List UInt8) : BitVec 32 :=
  crc32c crc [page.take 56, [0, 0, 0, 0], page.drop 60]

/-- Writes the checksum. -/
def finishPage (crc : List UInt8 → BitVec 32) (page : List UInt8) : List UInt8 :=
  splice page 56 (u32Bytes (pageCrc crc page))

/-- A field that must lie in the input. -/
def orInvalidLength {α : Type} : Option α → Except RegionMetadataError α
  | some a => .ok a
  | none => .error .invalidLength

/-- A field that must have a meaning. -/
def orInvalidField {α : Type} (field : String) : Option α → Except RegionMetadataError α
  | some a => .ok a
  | none => .error (.invalidField field)

/-- A field that must have the given value. -/
def requireValue {w : ℕ} (field : String) (expected : BitVec w) (value : Option (BitVec w)) :
    Except RegionMetadataError Unit := do
  let value ← orInvalidLength value
  if value ≠ expected then .error (.invalidField field) else .ok ()

/-- The 16 bytes of an identity. -/
def getId (field : String) (input : List UInt8) (offset : ℕ) :
    Except RegionMetadataError PersistentId :=
  if offset + 16 ≤ input.length then
    orInvalidField field (PersistentId.fromBytes (slice input offset 16))
  else .error .invalidLength

/-- Reads and checks a header. -/
def decodePageEnvelope (crc : List UInt8 → BitVec 32) (page : List UInt8) :
    Except RegionMetadataError PageEnvelope :=
  if page.length ≠ recoveryPageSize then .error .invalidLength
  else if page.take 8 ≠ metadataPageMagic then .error .invalidMagic
  else do
    let stored ← orInvalidLength (getU32 page 56)
    if pageCrc crc page ≠ stored then .error .checksumMismatch
    else do
      let version ← orInvalidLength (getU16 page 8)
      if version ≠ metadataFormatVersion then .error (.unsupportedVersion version)
      else do
        requireValue "page_header" (BitVec.ofNat 16 regionMetadataPageHeaderSize)
          (getU16 page 10)
        requireValue "page_header" 0 (getU32 page 52)
        requireValue "page_header" 0 (getU32 page 60)
        let kind ← orInvalidLength (getU16 page 12)
        let kind ← orInvalidField "page_kind" (PageKind.decode kind)
        let recordSize ← orInvalidLength (getU16 page 14)
        let imageIdentity ← getId "page_image_identity" page 16
        let imageGeneration ← orInvalidLength (getU64 page 32)
        let pageIndex ← orInvalidLength (getU32 page 40)
        let firstRecord ← orInvalidLength (getU32 page 44)
        let recordCount ← orInvalidLength (getU32 page 48)
        .ok ⟨kind, recordSize, imageIdentity, imageGeneration, pageIndex, firstRecord,
          recordCount⟩

/-- Checks that a page is the expected one. -/
def validateEnvelopeShape (envelope : PageEnvelope) (kind : PageKind) (recordSize : ℕ)
    (pageIndex firstRecord recordCount : BitVec 32) : Except RegionMetadataError Unit :=
  if envelope.kind ≠ kind ∨ envelope.recordSize.toNat ≠ recordSize ∨
      envelope.imageGeneration = 0 ∨ envelope.pageIndex ≠ pageIndex ∨
      envelope.firstRecord ≠ firstRecord ∨ envelope.recordCount ≠ recordCount then
    .error (.invalidField "page_directory")
  else .ok ()

/-- Checks that nothing follows the records of a page. -/
def requireZeroPadding (page : List UInt8) (payloadLen : ℕ) : Except RegionMetadataError Unit := do
  let stop ← orArithmeticOverflow (Word.checkedAdd 64 regionMetadataPageHeaderSize payloadLen)
  if stop > page.length ∨ (page.drop stop).any (· ≠ 0) then
    .error (.invalidField "page_padding")
  else .ok ()

/-- Where a page of an encoded table lies. -/
def metadataPage (input : List UInt8) (pageIndex : ℕ) :
    Except RegionMetadataError (List UInt8) := do
  let start ← orArithmeticOverflow (Word.checkedMul 64 pageIndex recoveryPageSize)
  let stop ← orArithmeticOverflow (Word.checkedAdd 64 start recoveryPageSize)
  if stop ≤ input.length then .ok (slice input start recoveryPageSize) else .error .invalidLength

/-! ## Sections of records -/

/-- How an encoder ends without an encoding. -/
inductive EncodeFailure
  | error (reason : RegionMetadataError)
  | panic (message : String)
  deriving DecidableEq, Repr

/-- A failed check of an encoder. -/
def orFailure {α : Type} : Except RegionMetadataError α → Except EncodeFailure α
  | .ok a => .ok a
  | .error e => .error (.error e)

/-- A number that an encoder expects to fit into 32 bits. -/
def expectU32 (message : String) (value : BitVec 64) : Except EncodeFailure (BitVec 32) :=
  if value.toNat < 2 ^ 32 then .ok (value.setWidth 32) else .error (.panic message)

/-- A number that must fit into `w` bits. -/
def tryFrom (w n : ℕ) : Except RegionMetadataError (BitVec w) :=
  if n < 2 ^ w then .ok (BitVec.ofNat w n) else .error .arithmeticOverflow

section Sections

variable {T : Type} (crc : List UInt8 → BitVec 32) (firstPage : BitVec 32) (kind : PageKind)
  (recordSize recordsPerPage : ℕ) (imageIdentity : PersistentId) (imageGeneration : BitVec 64)

/-- The number of pages of a section. -/
def sectionPages (recordsPerPage recordCount : ℕ) : ℕ :=
  (recordCount + recordsPerPage - 1) / recordsPerPage

/-- Encodes records into a page, from position `index` on. -/
def encodeRecords (encodeRecord : T → List UInt8 → Except EncodeFailure (List UInt8)) :
    ℕ → List T → List UInt8 → Except EncodeFailure (List UInt8)
  | _, [], page => .ok page
  | index, record :: rest, page => do
    let start := regionMetadataPageHeaderSize + index * recordSize
    let bytes ← encodeRecord record (slice page start recordSize)
    encodeRecords encodeRecord (index + 1) rest (splice page start bytes)

/-- Encodes the given pages of a section. -/
def encodeRecordPages (encodeRecord : T → List UInt8 → Except EncodeFailure (List UInt8))
    (records : List T) : List ℕ → List UInt8 → Except EncodeFailure (List UInt8)
  | [], output => .ok output
  | pageInSection :: rest, output => do
    let records' := slice records (pageInSection * recordsPerPage) recordsPerPage
    let firstRecord ←
      orFailure (orArithmeticOverflow (Word.checkedMul 64 pageInSection recordsPerPage))
    let pageIndex ←
      orFailure (orArithmeticOverflow (Word.checkedAdd 64 firstPage.toNat pageInSection))
    let page ← orFailure (metadataPage output pageIndex)
    let recordSize' ← orFailure (tryFrom 16 recordSize)
    let pageIndex' ← orFailure (tryFrom 32 pageIndex)
    let firstRecord' ← orFailure (tryFrom 32 firstRecord)
    let recordCount' ← orFailure (tryFrom 32 records'.length)
    let page := encodePageEnvelope page ⟨kind, recordSize', imageIdentity, imageGeneration,
      pageIndex', firstRecord', recordCount'⟩
    let page ← encodeRecords recordSize encodeRecord 0 records' page
    encodeRecordPages encodeRecord records rest
      (splice output (pageIndex * recoveryPageSize) (finishPage crc page))

/-- Decodes the given records of a page. -/
def decodeRecords (decodeRecord : List UInt8 → Except RegionMetadataError T) (page : List UInt8) :
    List ℕ → Except RegionMetadataError (List T)
  | [] => .ok []
  | index :: rest => do
    let record ←
      decodeRecord (slice page (regionMetadataPageHeaderSize + index * recordSize) recordSize)
    let records ← decodeRecords decodeRecord page rest
    .ok (record :: records)

/-- Decodes the given pages of a section. -/
def decodeRecordPages (decodeRecord : List UInt8 → Except RegionMetadataError T)
    (input : List UInt8) (recordCount : ℕ) : List ℕ → Except RegionMetadataError (List T)
  | [] => .ok []
  | pageInSection :: rest => do
    let firstRecord ← orArithmeticOverflow (Word.checkedMul 64 pageInSection recordsPerPage)
    let recordsHere := min (recordCount - firstRecord) recordsPerPage
    let pageIndex := firstPage.toNat + pageInSection
    let source ← metadataPage input pageIndex
    let envelope ← decodePageEnvelope crc source
    let pageIndex' ← tryFrom 32 pageIndex
    let firstRecord' ← tryFrom 32 firstRecord
    let recordCount' ← tryFrom 32 recordsHere
    validateEnvelopeShape envelope kind recordSize pageIndex' firstRecord' recordCount'
    if envelope.imageIdentity ≠ imageIdentity ∨ envelope.imageGeneration ≠ imageGeneration then
      .error (.invalidField "page_image_binding")
    else do
      requireZeroPadding source (recordsHere * recordSize)
      let records ← decodeRecords recordSize decodeRecord source (List.range recordsHere)
      let others ← decodeRecordPages decodeRecord input recordCount rest
      .ok (records ++ others)

end Sections

/-! ## Records -/

/-- The fields of the root with their offsets. -/
def rootFields (root : RegionMetadataRoot) (layout : MetadataLayout) : List (ℕ × List UInt8) :=
  [(0, root.cacheUuid.bytes),
   (16, root.dataIdentity.bytes),
   (32, u64Bytes root.dataSuperblockGeneration),
   (40, root.imageIdentity.bytes),
   (56, u64Bytes root.imageGeneration),
   (64, u64Bytes root.storageFingerprint),
   (72, u64Bytes root.indexSlots),
   (80, u64Bytes root.indexPageCount),
   (88, u64Bytes root.regionSize),
   (96, u32Bytes root.regionCount),
   (100, u32Bytes root.partitionCount),
   (104, u32Bytes root.shardCount),
   (108, u32Bytes 0),
   (112, u64Bytes 0),
   (120, u64Bytes 0),
   (128, u64Bytes root.maxSeqno),
   (136, List.replicate 48 0),
   (184, List.replicate 40 0),
   (224, u32Bytes layout.regionFirstPage),
   (228, u32Bytes layout.regionPageCount),
   (232, u32Bytes layout.partitionFirstPage),
   (236, u32Bytes layout.partitionPageCount),
   (240, u32Bytes root.freeRegionCount),
   (244, u32Bytes root.activeRegionCount),
   (248, u32Bytes root.sealedRegionCount),
   (252, u32Bytes 0)]

/-- Encodes the root. -/
def encodeRoot (root : RegionMetadataRoot) (layout : MetadataLayout) (output : List UInt8) :
    List UInt8 :=
  putFields (rootFields root layout) output

/-- Decodes the root. -/
def decodeRoot (input : List UInt8) : Except RegionMetadataError RegionMetadataRoot :=
  if input.length ≠ regionMetadataRootSize then .error (.invalidField "root_encoding")
  else do
    requireValue "root_encoding" 0 (getU32 input 108)
    requireValue "root_encoding" 0 (getU64 input 112)
    requireValue "root_encoding" 0 (getU64 input 120)
    if (slice input 136 48).any (· ≠ 0) then .error (.invalidField "root_encoding")
    else if (slice input 184 40).any (· ≠ 0) then .error (.invalidField "root_encoding")
    else do
      requireValue "root_encoding" 0 (getU32 input 252)
      let cacheUuid ← getId "identity" input 0
      let dataIdentity ← getId "identity" input 16
      let dataSuperblockGeneration ← orInvalidLength (getU64 input 32)
      let imageIdentity ← getId "identity" input 40
      let imageGeneration ← orInvalidLength (getU64 input 56)
      let storageFingerprint ← orInvalidLength (getU64 input 64)
      let indexSlots ← orInvalidLength (getU64 input 72)
      let indexPageCount ← orInvalidLength (getU64 input 80)
      let regionSize ← orInvalidLength (getU64 input 88)
      let regionCount ← orInvalidLength (getU32 input 96)
      let partitionCount ← orInvalidLength (getU32 input 100)
      let shardCount ← orInvalidLength (getU32 input 104)
      let maxSeqno ← orInvalidLength (getU64 input 128)
      let freeRegionCount ← orInvalidLength (getU32 input 240)
      let activeRegionCount ← orInvalidLength (getU32 input 244)
      let sealedRegionCount ← orInvalidLength (getU32 input 248)
      .ok ⟨cacheUuid, dataIdentity, dataSuperblockGeneration, imageIdentity, imageGeneration,
        storageFingerprint, indexSlots, indexPageCount, regionSize, regionCount, partitionCount,
        shardCount, maxSeqno, freeRegionCount, activeRegionCount, sealedRegionCount⟩

/-- Checks the section directory stored in the root. -/
def validateEncodedRootDirectory (input : List UInt8) (layout : MetadataLayout) :
    Except RegionMetadataError Unit := do
  requireValue "section_directory" layout.regionFirstPage (getU32 input 224)
  requireValue "section_directory" layout.regionPageCount (getU32 input 228)
  requireValue "section_directory" layout.partitionFirstPage (getU32 input 232)
  requireValue "section_directory" layout.partitionPageCount (getU32 input 236)

/-- The byte of a state. -/
def RegionState.code : RegionState → UInt8
  | .free => 0
  | .active => 1
  | .sealed => 2

/-- The state with a byte. -/
def RegionState.decode (value : UInt8) : Option RegionState :=
  if value = 0 then some .free
  else if value = 1 then some .active
  else if value = 2 then some .sealed
  else none

/-- The fields of a Region with their offsets. -/
def regionFields (region : RegionMetadataRecord) : List (ℕ × List UInt8) :=
  [(0, u64Bytes region.createdSeqno),
   (8, u32Bytes (region.durableUsedOffset.setWidth 32)),
   (12, u32Bytes (region.physicalRecordCount.setWidth 32)),
   (16, u32Bytes region.queueOrdinal),
   (20, [region.state.code])]

/-- Encodes a Region. -/
def encodeRegion (region : RegionMetadataRecord) (output : List UInt8) :
    Except EncodeFailure (List UInt8) := do
  let _ ← expectU32 "validated Region used offset fits its packed field" region.durableUsedOffset
  let _ ← expectU32 "validated Region record count fits its packed field"
    region.physicalRecordCount
  .ok (putFields (regionFields region) output)

/-- Decodes a Region. -/
def decodeRegion (input : List UInt8) : Except RegionMetadataError RegionMetadataRecord :=
  if input.length ≠ regionMetadataRegionSize then .error (.invalidField "region_encoding")
  else do
    let state ← orInvalidField "region_state" (RegionState.decode (input.getD 20 0))
    let queueOrdinal ← orInvalidLength (getU32 input 16)
    let createdSeqno ← orInvalidLength (getU64 input 0)
    let durableUsedOffset ← orInvalidLength (getU32 input 8)
    let physicalRecordCount ← orInvalidLength (getU32 input 12)
    .ok ⟨state, queueOrdinal, createdSeqno, durableUsedOffset.setWidth 64,
      physicalRecordCount.setWidth 64⟩

/-- The stored part of a partition. -/
structure EncodedPartitionCounters where
  partitionId : BitVec 32
  physicalValueSlots : BitVec 32
  physicalDeletedSlots : BitVec 32
  deriving DecidableEq, Repr

/-- The fields of a partition with their offsets. -/
def partitionFields (counters : EncodedPartitionCounters) : List (ℕ × List UInt8) :=
  [(0, u32Bytes counters.partitionId),
   (4, u32Bytes counters.physicalValueSlots),
   (8, u32Bytes counters.physicalDeletedSlots),
   (12, u32Bytes 0)]

/-- Encodes a partition. -/
def encodePartition (partition : PartitionMetadataRecord) (output : List UInt8) :
    Except EncodeFailure (List UInt8) := do
  let physicalValueSlots ← expectU32 "validated partition value count fits its packed field"
    partition.physicalValueSlots
  let physicalDeletedSlots ← expectU32 "validated partition deleted count fits its packed field"
    partition.physicalDeletedSlots
  .ok (putFields (partitionFields ⟨partition.partitionId, physicalValueSlots,
    physicalDeletedSlots⟩) output)

/-- Decodes a partition. -/
def decodePartition (input : List UInt8) : Except RegionMetadataError EncodedPartitionCounters :=
  if input.length ≠ regionMetadataPartitionSize then .error (.invalidField "partition_encoding")
  else do
    requireValue "partition_encoding" 0 (getU32 input 12)
    let partitionId ← orInvalidLength (getU32 input 0)
    let physicalValueSlots ← orInvalidLength (getU32 input 4)
    let physicalDeletedSlots ← orInvalidLength (getU32 input 8)
    .ok ⟨partitionId, physicalValueSlots, physicalDeletedSlots⟩

/-- Joins the stored counters with the directory of the index. -/
def joinPartitions : List EncodedPartitionCounters → List IndexPartitionRange →
    Except RegionMetadataError (List PartitionMetadataRecord)
  | counter :: counters, range :: ranges =>
    if counter.partitionId.toNat ≠ range.partitionId then
      .error (.invalidField "canonical_partition_directory")
    else do
      let rest ← joinPartitions counters ranges
      .ok (⟨counter.partitionId, BitVec.ofNat 64 range.firstPage, BitVec.ofNat 64 range.pageCount,
        BitVec.ofNat 64 range.firstSlot, BitVec.ofNat 64 range.slotCount,
        counter.physicalValueSlots.setWidth 64, counter.physicalDeletedSlots.setWidth 64⟩ :: rest)
  | _, _ => .ok []

/-! ## The whole table -/

namespace RegionMetadata

variable (crc : List UInt8 → BitVec 32)

/-- Encodes a valid table. -/
def encode (metadata : RegionMetadata) : Except EncodeFailure (List UInt8) := do
  orFailure metadata.validate
  let root := metadata.root
  let layout ← orFailure (MetadataLayout.new root.regionCount root.partitionCount)
  let output := List.replicate layout.encodedLen 0
  let page ← orFailure (metadataPage output 0)
  let page := encodePageEnvelope page ⟨.root, BitVec.ofNat 16 regionMetadataRootSize,
    root.imageIdentity, root.imageGeneration, 0, 0, 1⟩
  let page := splice page regionMetadataPageHeaderSize (encodeRoot root layout
    (slice page regionMetadataPageHeaderSize regionMetadataRootSize))
  let output := splice output 0 (finishPage crc page)
  let output ← encodeRecordPages crc layout.regionFirstPage .region regionMetadataRegionSize
    regionMetadataRegionsPerPage root.imageIdentity root.imageGeneration encodeRegion
    metadata.regions
    (List.range (sectionPages regionMetadataRegionsPerPage metadata.regions.length)) output
  encodeRecordPages crc layout.partitionFirstPage .partition regionMetadataPartitionSize
    regionMetadataPartitionsPerPage root.imageIdentity root.imageGeneration encodePartition
    metadata.partitions
    (List.range (sectionPages regionMetadataPartitionsPerPage metadata.partitions.length)) output

/-- Decodes the pages of a table. -/
def decodePages (input : List UInt8) : Except RegionMetadataError RegionMetadata :=
  if input.length < recoveryPageSize ∨ input.length % recoveryPageSize ≠ 0 then
    .error .invalidLength
  else do
    let first ← metadataPage input 0
    let firstEnvelope ← decodePageEnvelope crc first
    validateEnvelopeShape firstEnvelope .root regionMetadataRootSize 0 0 1
    requireZeroPadding first regionMetadataRootSize
    let payload := slice first regionMetadataPageHeaderSize regionMetadataRootSize
    let root ← decodeRoot payload
    if root.imageIdentity ≠ firstEnvelope.imageIdentity ∨
        root.imageGeneration ≠ firstEnvelope.imageGeneration then
      .error (.invalidField "root_image_binding")
    else do
      let layout ← MetadataLayout.new root.regionCount root.partitionCount
      if input.length ≠ layout.encodedLen then .error .invalidLength
      else do
        validateEncodedRootDirectory payload layout
        validateRootDirectory root layout
        let regions ← decodeRecordPages crc layout.regionFirstPage .region
          regionMetadataRegionSize regionMetadataRegionsPerPage root.imageIdentity
          root.imageGeneration decodeRegion input root.regionCount.toNat
          (List.range (sectionPages regionMetadataRegionsPerPage root.regionCount.toNat))
        let counters ← decodeRecordPages crc layout.partitionFirstPage .partition
          regionMetadataPartitionSize regionMetadataPartitionsPerPage root.imageIdentity
          root.imageGeneration decodePartition input root.partitionCount.toNat
          (List.range (sectionPages regionMetadataPartitionsPerPage root.partitionCount.toNat))
        match canonicalIndexPartitionRanges root.indexSlots.toNat with
        | .error error => .error (indexLayoutMetadataError error)
        | .ok canonical =>
          if counters.length ≠ canonical.length then
            .error (.invalidField "canonical_partition_directory")
          else do
            let partitions ← joinPartitions counters canonical
            .ok ⟨root, regions, partitions⟩

/-- Decodes and validates a table. -/
def decodeOwned (input : List UInt8) : Except RegionMetadataError RegionMetadata := do
  let metadata ← decodePages crc input
  metadata.validate
  .ok metadata

end RegionMetadata

/-! ## Fields -/

/-- A field that lies in the input. -/
@[simp] lemma orInvalidLength_eq_ok {α : Type} {x : Option α} {a : α} :
    orInvalidLength x = .ok a ↔ x = some a := by
  cases x <;> simp [orInvalidLength]

/-- A field that has a meaning. -/
@[simp] lemma orInvalidField_eq_ok {α : Type} {field : String} {x : Option α} {a : α} :
    orInvalidField field x = .ok a ↔ x = some a := by
  cases x <;> simp [orInvalidField]

/-- A field that has the given value. -/
@[simp] lemma requireValue_eq_ok {w : ℕ} {field : String} {expected : BitVec w}
    {value : Option (BitVec w)} {u : Unit} :
    requireValue field expected value = .ok u ↔ value = some expected := by
  cases value with
  | none => simp [requireValue, orInvalidLength, bind, Except.bind]
  | some v =>
    simp only [requireValue, orInvalidLength, bind, Except.bind, ite_error_eq_ok, not_not,
      Option.some.injEq, and_true]

/-- A number that fits. -/
@[simp] lemma tryFrom_eq_ok {w n : ℕ} {v : BitVec w} :
    tryFrom w n = .ok v ↔ n < 2 ^ w ∧ BitVec.ofNat w n = v := by
  unfold tryFrom
  split_ifs with h <;> simp [h]

/-- The identity with given bytes. -/
lemma PersistentId.fromBytes_eq_some {bytes : List UInt8} {id : PersistentId} :
    PersistentId.fromBytes bytes = some id ↔ bytes = id.bytes := by
  unfold PersistentId.fromBytes
  constructor
  · intro h
    split_ifs at h
    cases h
    rfl
  · rintro rfl
    rw [dif_pos ⟨id.length_bytes, id.ne_zero⟩]

/-- Reading an identity in bounds. -/
lemma getId_eq_ok {field : String} {input : List UInt8} {offset : ℕ} {id : PersistentId}
    (h : offset + 16 ≤ input.length) :
    getId field input offset = .ok id ↔ slice input offset 16 = id.bytes := by
  rw [getId, if_pos h, orInvalidField_eq_ok, PersistentId.fromBytes_eq_some]

/-- The section with a number. -/
lemma PageKind.decode_eq_some {value : BitVec 16} {kind : PageKind} :
    PageKind.decode value = some kind ↔ value = kind.code := by
  unfold PageKind.decode
  constructor
  · intro h
    split_ifs at h with h₁ h₂ h₃
    · cases h; exact h₁
    · cases h; exact h₂
    · cases h; exact h₃
  · rintro rfl
    cases kind <;> rfl

/-- The state with a byte. -/
lemma RegionState.decode_eq_some {value : UInt8} {state : RegionState} :
    RegionState.decode value = some state ↔ value = state.code := by
  unfold RegionState.decode
  constructor
  · intro h
    split_ifs at h with h₁ h₂ h₃
    · cases h; exact h₁
    · cases h; exact h₂
    · cases h; exact h₃
  · rintro rfl
    cases state <;> rfl

/-- Bytes that are all zero. -/
lemma any_ne_zero_eq_false {l : List UInt8} :
    ¬ l.any (· ≠ 0) = true ↔ l = List.replicate l.length 0 := by
  rw [List.eq_replicate_iff]
  simp

/-! ## Pages with known content -/

/-- The records of a page with their offsets. -/
def recordFields (size : ℕ) : ℕ → List (List UInt8) → List (ℕ × List UInt8)
  | _, [] => []
  | index, r :: rs => (64 + index * size, r) :: recordFields size (index + 1) rs

/-- Everything on a page but its checksum, with the offsets. -/
def pageContent (envelope : PageEnvelope) (size : ℕ) (records : List (List UInt8)) :
    List (ℕ × List UInt8) :=
  envelopeFields envelope ++ ((60, u32Bytes 0) :: (recordFields size 0 records ++
    [(64 + records.length * size, List.replicate (4096 - (64 + records.length * size)) 0)]))

/-- What a page holds. -/
structure PageIs (crc : List UInt8 → BitVec 32) (envelope : PageEnvelope) (size : ℕ)
    (records : List (List UInt8)) (page : List UInt8) : Prop where
  length_eq : page.length = 4096
  content : ∀ f ∈ pageContent envelope size records, slice page f.1 f.2.length = f.2
  checksum : slice page 56 4 = u32Bytes (pageCrc crc page)

/-- The page with the given content, its checksum still zero. -/
def pageBody (envelope : PageEnvelope) (size : ℕ) (records : List (List UInt8)) : List UInt8 :=
  putFields (envelopeFields envelope ++ ((56, u32Bytes 0) :: (60, u32Bytes 0) ::
    (recordFields size 0 records ++
      [(64 + records.length * size, List.replicate (4096 - (64 + records.length * size)) 0)])))
    (List.replicate 4096 0)

section Pages

variable {crc : List UInt8 → BitVec 32} {envelope : PageEnvelope} {size : ℕ}
  {records : List (List UInt8)} {page : List UInt8}

/-- Membership in the records of a page. -/
lemma mem_recordFields {f : ℕ × List UInt8} : ∀ {rs : List (List UInt8)} {index : ℕ},
    f ∈ recordFields size index rs ↔
      ∃ j, ∃ h : j < rs.length, f = (64 + (index + j) * size, rs[j]) := by
  intro rs
  induction rs with
  | nil => intro index; simp [recordFields]
  | cons r rs ih =>
    intro index
    rw [recordFields, List.mem_cons, ih]
    constructor
    · rintro (rfl | ⟨j, hj, rfl⟩)
      · exact ⟨0, by simp, by simp⟩
      · exact ⟨j + 1, by simpa using hj, by simp; omega⟩
    · rintro ⟨j, hj, rfl⟩
      cases j with
      | zero => left; simp
      | succ j => exact .inr ⟨j, by simpa using hj, by simp; omega⟩

/-- The fields of a header have no gaps. -/
lemma contiguous_envelopeFields (envelope : PageEnvelope) :
    Contiguous 0 56 (envelopeFields envelope) := by
  simp [envelopeFields, Contiguous, metadataPageMagic, envelope.imageIdentity.length_bytes]

/-- The records of a page have no gaps. -/
lemma contiguous_recordFields : ∀ {rs : List (List UInt8)} {index : ℕ},
    (∀ r ∈ rs, r.length = size) →
    Contiguous (64 + index * size) (64 + (index + rs.length) * size)
      (recordFields size index rs) := by
  intro rs
  induction rs with
  | nil => intro index _; simp [recordFields, Contiguous]
  | cons r rs ih =>
    intro index h
    refine ⟨rfl, ?_⟩
    have htail := @ih (index + 1) fun r' hr' => h r' (List.mem_cons_of_mem _ hr')
    rw [h r List.mem_cons_self]
    rw [show index + (r :: rs).length = index + 1 + rs.length by rw [List.length_cons]; omega]
    rwa [show 64 + index * size + size = 64 + (index + 1) * size by ring]

/-- The content of a page, with a checksum field, has no gaps. -/
lemma contiguous_pageBody (envelope : PageEnvelope) (hsize : ∀ r ∈ records, r.length = size)
    (hfit : 64 + records.length * size ≤ 4096) :
    Contiguous 0 4096 (envelopeFields envelope ++ ((56, u32Bytes 0) :: (60, u32Bytes 0) ::
      (recordFields size 0 records ++
        [(64 + records.length * size,
          List.replicate (4096 - (64 + records.length * size)) 0)]))) := by
  refine (contiguous_envelopeFields envelope).append ⟨rfl, ?_, ?_⟩
  · rw [length_u32Bytes]
  · have hrecords : Contiguous (64 + 0 * size) (64 + (0 + records.length) * size)
        (recordFields size 0 records) := contiguous_recordFields hsize
    rw [Nat.zero_mul, Nat.zero_add] at hrecords
    rw [length_u32Bytes]
    refine hrecords.append ⟨rfl, ?_⟩
    rw [List.length_replicate]
    exact Nat.add_sub_cancel' hfit

/-- A page's checksum does not depend on its checksum field. -/
lemma pageCrc_splice (hlen : page.length = 4096) (v : BitVec 32) :
    pageCrc crc (splice page 56 (u32Bytes v)) = pageCrc crc page := by
  have hdrop := drop_splice_after (u32Bytes v) (by omega : 56 ≤ page.length)
  rw [length_u32Bytes] at hdrop
  rw [pageCrc, pageCrc, take_splice_before _ (by omega), hdrop]

/-- **A page is determined by its content.** -/
theorem pageIs_iff (hsize : ∀ r ∈ records, r.length = size)
    (hfit : 64 + records.length * size ≤ 4096) :
    PageIs crc envelope size records page ↔
      page = finishPage crc (pageBody envelope size records) := by
  have hcont := contiguous_pageBody envelope hsize hfit
  have hbody : (pageBody envelope size records).length = 4096 := by
    rw [pageBody, length_putFields hcont.ascending List.length_replicate.ge,
      List.length_replicate]
  have hafter : ∀ f ∈ (60, u32Bytes 0) :: (recordFields size 0 records ++
      [(64 + records.length * size, List.replicate (4096 - (64 + records.length * size)) 0)]),
      60 ≤ f.1 := by
    intro f hf
    rw [List.mem_cons, List.mem_append, mem_recordFields, List.mem_singleton] at hf
    rcases hf with rfl | ⟨j, hj, rfl⟩ | rfl
    · exact le_rfl
    · exact Nat.le_trans (by norm_num) (Nat.le_add_right 64 _)
    · exact Nat.le_trans (by norm_num) (Nat.le_add_right 64 _)
  -- a page with the content, its checksum cleared, is the body
  have hclear : ∀ {q : List UInt8}, q.length = 4096 →
      (∀ f ∈ pageContent envelope size records, slice q f.1 f.2.length = f.2) →
      splice q 56 (u32Bytes 0) = pageBody envelope size records := by
    intro q hq hs
    have hlen : 56 + (u32Bytes 0).length ≤ q.length := by rw [length_u32Bytes]; omega
    rw [pageBody, eq_putFields_iff (by rw [List.length_replicate]; exact hcont)
      (by rw [length_splice hlen, hq, List.length_replicate])]
    intro f hf
    have hasc := hcont.ascending.bounds f hf
    rw [List.mem_append, List.mem_cons] at hf
    rcases hf with hf | rfl | hf
    · have hend := ((contiguous_envelopeFields envelope).ascending.bounds f hf).2
      rw [slice_splice_before hlen hend]
      exact hs f (List.mem_append_left _ hf)
    · exact slice_splice_self rfl (by rw [length_u32Bytes]; omega)
    · rw [slice_splice_after hlen (by rw [length_u32Bytes]; exact hafter f hf)]
      exact hs f (List.mem_append_right _ hf)
  have hfit' : 56 + (u32Bytes (pageCrc crc (pageBody envelope size records))).length ≤
      (pageBody envelope size records).length := by
    rw [length_u32Bytes, hbody]
    norm_num
  constructor
  · rintro ⟨hlen, hs, hsum⟩
    have hcrc : pageCrc crc (pageBody envelope size records) = pageCrc crc page := by
      rw [← hclear hlen hs, pageCrc_splice hlen]
    rw [finishPage, hcrc, ← hsum, ← hclear hlen hs, splice_splice (by rw [length_u32Bytes,
      length_slice (by omega)]) (by rw [length_u32Bytes]; omega), splice_slice (by omega)]
  · rintro rfl
    have hlen : (finishPage crc (pageBody envelope size records)).length = 4096 := by
      rw [finishPage, length_splice hfit', hbody]
    refine ⟨hlen, fun f hf => ?_, ?_⟩
    · have hmem : f ∈ envelopeFields envelope ++ ((56, u32Bytes 0) :: (60, u32Bytes 0) ::
          (recordFields size 0 records ++ [(64 + records.length * size,
            List.replicate (4096 - (64 + records.length * size)) 0)])) := by
        rw [pageContent, List.mem_append] at hf
        rw [List.mem_append, List.mem_cons]
        exact hf.imp_right .inr
      have hbody' : slice (pageBody envelope size records) f.1 f.2.length = f.2 :=
        slice_putFields_mem hcont.ascending List.length_replicate.ge hmem
      rw [finishPage]
      rw [pageContent, List.mem_append] at hf
      rcases hf with hf | hf
      · have hend := ((contiguous_envelopeFields envelope).ascending.bounds f hf).2
        rw [slice_splice_before hfit' hend]
        exact hbody'
      · rw [slice_splice_after hfit' (by rw [length_u32Bytes]; exact hafter f hf)]
        exact hbody'
    · rw [finishPage, pageCrc_splice hbody,
        slice_splice_self (length_u32Bytes _) (by rw [hbody]; norm_num)]

/-- **Accepted headers.** A page is decoded as a header exactly when it holds its fields and the
right checksum. -/
lemma decodePageEnvelope_eq_ok : decodePageEnvelope crc page = .ok envelope ↔
    page.length = 4096 ∧
      (∀ f ∈ envelopeFields envelope ++ [(60, u32Bytes 0)], slice page f.1 f.2.length = f.2) ∧
      slice page 56 4 = u32Bytes (pageCrc crc page) := by
  by_cases hlen : page.length = 4096
  swap
  · rw [decodePageEnvelope, ite_error_eq_ok]
    exact ⟨fun h => absurd h.1 (by simpa [recoveryPageSize] using hlen), fun h => absurd h.1 hlen⟩
  have h16 : ∀ {o : ℕ} {v : BitVec 16}, o + 2 ≤ 4096 →
      (getU16 page o = some v ↔ slice page o 2 = u16Bytes v) :=
    fun h => getU16_eq_some_iff (by rw [hlen]; exact h)
  have h32 : ∀ {o : ℕ} {v : BitVec 32}, o + 4 ≤ 4096 →
      (getU32 page o = some v ↔ slice page o 4 = u32Bytes v) :=
    fun h => getU32_eq_some_iff (by rw [hlen]; exact h)
  have h64 : ∀ {o : ℕ} {v : BitVec 64}, o + 8 ≤ 4096 →
      (getU64 page o = some v ↔ slice page o 8 = u64Bytes v) :=
    fun h => getU64_eq_some_iff (by rw [hlen]; exact h)
  have hmagic : page.take 8 = slice page 0 8 := rfl
  have hid : ∀ {id : PersistentId}, getId "page_image_identity" page 16 = .ok id ↔
      slice page 16 16 = id.bytes := getId_eq_ok (by rw [hlen]; norm_num)
  obtain ⟨kind, recordSize, imageIdentity, imageGeneration, pageIndex, firstRecord, recordCount⟩ :=
    envelope
  simp only [envelopeFields, List.forall_mem_append, List.forall_mem_cons, List.not_mem_nil,
    false_implies, implies_true, and_true, length_u16Bytes, length_u32Bytes, length_u64Bytes,
    imageIdentity.length_bytes, decodePageEnvelope, recoveryPageSize, hlen, ite_error_eq_ok,
    except_bind_eq_ok, orInvalidLength_eq_ok, requireValue_eq_ok, orInvalidField_eq_ok, not_not,
    not_true_eq_false, not_false_eq_true, true_and, PageKind.decode_eq_some, hid, hmagic,
    ne_eq]
  constructor
  · rintro ⟨h₀, stored, hs, rfl, version, h₈, rfl, ⟨⟩, h₁₀, ⟨⟩, h₅₂, ⟨⟩, h₆₀, code, h₁₂, kind', rfl,
      size', h₁₄, id', h₁₆, generation', h₃₂, index', h₄₀, first', h₄₄, count', h₄₈, heq⟩
    cases heq
    exact ⟨⟨⟨h₀, (h16 (by norm_num)).1 h₈, (h16 (by norm_num)).1 h₁₀, (h16 (by norm_num)).1 h₁₂,
      (h16 (by norm_num)).1 h₁₄, h₁₆, (h64 (by norm_num)).1 h₃₂, (h32 (by norm_num)).1 h₄₀,
      (h32 (by norm_num)).1 h₄₄, (h32 (by norm_num)).1 h₄₈, (h32 (by norm_num)).1 h₅₂⟩,
      (h32 (by norm_num)).1 h₆₀⟩, (h32 (by norm_num)).1 hs⟩
  · rintro ⟨⟨⟨h₀, h₈, h₁₀, h₁₂, h₁₄, h₁₆, h₃₂, h₄₀, h₄₄, h₄₈, h₅₂⟩, h₆₀⟩, hs⟩
    exact ⟨h₀, _, (h32 (by norm_num)).2 hs, rfl, _, (h16 (by norm_num)).2 h₈, rfl, (),
      (h16 (by norm_num)).2 h₁₀, (), (h32 (by norm_num)).2 h₅₂, (), (h32 (by norm_num)).2 h₆₀, _,
      (h16 (by norm_num)).2 h₁₂, _, rfl, _, (h16 (by norm_num)).2 h₁₄, _, h₁₆, _,
      (h64 (by norm_num)).2 h₃₂, _, (h32 (by norm_num)).2 h₄₀, _, (h32 (by norm_num)).2 h₄₄, _,
      (h32 (by norm_num)).2 h₄₈, rfl⟩

/-- Accepted padding. -/
lemma requireZeroPadding_eq_ok {payloadLen : ℕ} (hlen : page.length = 4096)
    (hfit : 64 + payloadLen ≤ 4096) : requireZeroPadding page payloadLen = .ok () ↔
      slice page (64 + payloadLen) (4096 - (64 + payloadLen)) =
        List.replicate (4096 - (64 + payloadLen)) 0 := by
  have hdrop : page.drop (64 + payloadLen) =
      slice page (64 + payloadLen) (4096 - (64 + payloadLen)) := by
    rw [slice, List.take_of_length_le (by rw [List.length_drop, hlen])]
  have hstop : Word.checkedAdd 64 regionMetadataPageHeaderSize payloadLen =
      some (64 + payloadLen) :=
    Word.checkedAdd_of_lt (by rw [regionMetadataPageHeaderSize]; omega)
  rw [requireZeroPadding, hstop, orArithmeticOverflow]
  simp only [bind, Except.bind]
  rw [ite_error_eq_ok, not_or, hlen, hdrop, any_ne_zero_eq_false, length_slice (by omega)]
  simp only [and_true]
  exact and_iff_right (by omega)

/-- **Accepted pages.** A page has the given content exactly when its header and its padding are
accepted and its records are there. -/
lemma pageIs_iff_decode (hlen : page.length = 4096) (hfit : 64 + records.length * size ≤ 4096) :
    PageIs crc envelope size records page ↔ decodePageEnvelope crc page = .ok envelope ∧
      requireZeroPadding page (records.length * size) = .ok () ∧
      ∀ f ∈ recordFields size 0 records, slice page f.1 f.2.length = f.2 := by
  rw [decodePageEnvelope_eq_ok, requireZeroPadding_eq_ok hlen hfit]
  constructor
  · rintro ⟨-, hcontent, hsum⟩
    rw [pageContent, List.forall_mem_append, List.forall_mem_cons, List.forall_mem_append]
      at hcontent
    obtain ⟨hhead, h60, hrec, hpad⟩ := hcontent
    have hpad' := hpad _ List.mem_cons_self
    rw [List.length_replicate] at hpad'
    refine ⟨⟨hlen, ?_, hsum⟩, hpad', hrec⟩
    rw [List.forall_mem_append]
    refine ⟨hhead, fun f hf => ?_⟩
    rw [List.mem_singleton.1 hf]
    exact h60
  · rintro ⟨⟨-, hhead, hsum⟩, hpad, hrec⟩
    rw [List.forall_mem_append] at hhead
    refine ⟨hlen, ?_, hsum⟩
    rw [pageContent, List.forall_mem_append, List.forall_mem_cons, List.forall_mem_append]
    refine ⟨hhead.1, hhead.2 _ List.mem_cons_self, hrec, fun f hf => ?_⟩
    rw [List.mem_singleton.1 hf, List.length_replicate]
    exact hpad

end Pages

/-! ## Records with known content -/

/-- The bytes of a Region. -/
def regionBytes (region : RegionMetadataRecord) : List UInt8 :=
  putFields (regionFields region) (List.replicate 21 0)

/-- The bytes of a partition. -/
def partitionBytes (counters : EncodedPartitionCounters) : List UInt8 :=
  putFields (partitionFields counters) (List.replicate 16 0)

/-- The bytes of the root. -/
def rootBytes (root : RegionMetadataRoot) (layout : MetadataLayout) : List UInt8 :=
  putFields (rootFields root layout) (List.replicate 256 0)

/-- The counts of a Region fit their fields. -/
def RegionFits (region : RegionMetadataRecord) : Prop :=
  region.durableUsedOffset.toNat < 2 ^ 32 ∧ region.physicalRecordCount.toNat < 2 ^ 32

/-- The fields of a Region have no gaps. -/
lemma contiguous_regionFields (region : RegionMetadataRecord) :
    Contiguous 0 21 (regionFields region) := by
  simp [regionFields, Contiguous]

/-- The fields of a partition have no gaps. -/
lemma contiguous_partitionFields (counters : EncodedPartitionCounters) :
    Contiguous 0 16 (partitionFields counters) := by
  simp [partitionFields, Contiguous]

/-- The fields of the root have no gaps. -/
lemma contiguous_rootFields (root : RegionMetadataRoot) (layout : MetadataLayout) :
    Contiguous 0 256 (rootFields root layout) := by
  simp [rootFields, Contiguous, root.cacheUuid.length_bytes, root.dataIdentity.length_bytes,
    root.imageIdentity.length_bytes]

/-- **Accepted Regions.** -/
lemma decodeRegion_eq_ok {input : List UInt8} {region : RegionMetadataRecord}
    (hlen : input.length = 21) : decodeRegion input = .ok region ↔
    RegionFits region ∧ input = regionBytes region := by
  rw [regionBytes, eq_putFields_iff (by rw [List.length_replicate]; exact contiguous_regionFields _)
    (by rw [hlen, List.length_replicate])]
  have h32 : ∀ {o : ℕ} {v : BitVec 32}, o + 4 ≤ 21 →
      (getU32 input o = some v ↔ slice input o 4 = u32Bytes v) :=
    fun h => getU32_eq_some_iff (by rw [hlen]; exact h)
  have h64 : ∀ {v : BitVec 64}, getU64 input 0 = some v ↔ slice input 0 8 = u64Bytes v :=
    getU64_eq_some_iff (by rw [hlen]; norm_num)
  have hstate : ∀ {c : UInt8}, slice input 20 1 = [c] ↔ input.getD 20 0 = c := by
    intro c
    have h20 : (slice input 20 1)[0]? = input[20]? := by rw [getElem?_slice]; simp
    have hlen1 : (slice input 20 1).length = 1 := length_slice (by rw [hlen])
    obtain ⟨d, hd⟩ := List.length_eq_one_iff.1 hlen1
    rw [hd] at h20 ⊢
    rw [List.getD_eq_getElem?_getD, ← h20]
    simp
  obtain ⟨state, queueOrdinal, createdSeqno, used, count⟩ := region
  simp only [RegionFits, regionFields, List.forall_mem_cons, List.not_mem_nil, false_implies,
    implies_true,
    and_true, length_u32Bytes, length_u64Bytes, decodeRegion, regionMetadataRegionSize, hlen,
    ite_error_eq_ok, except_bind_eq_ok, orInvalidLength_eq_ok, orInvalidField_eq_ok,
    not_true_eq_false, not_false_eq_true, true_and, RegionState.decode_eq_some, h64, ne_eq,
    List.length_singleton, hstate]
  constructor
  · rintro ⟨state', h₂₀, ordinal', h₁₆, seqno', h₀, used', h₈, count', h₁₂, heq⟩
    cases heq
    have hw : ∀ v : BitVec 32, (v.setWidth 64).setWidth 32 = v := by
      intro v
      apply BitVec.eq_of_toNat_eq
      simp
    refine ⟨⟨?_, ?_⟩, h₀, ?_, ?_, (h32 (by norm_num)).1 h₁₆, h₂₀⟩
    · simp; omega
    · simp; omega
    · rw [hw]; exact (h32 (by norm_num)).1 h₈
    · rw [hw]; exact (h32 (by norm_num)).1 h₁₂
  · rintro ⟨⟨hu, hc⟩, h₀, h₈, h₁₂, h₁₆, h₂₀⟩
    refine ⟨state, h₂₀, queueOrdinal, (h32 (by norm_num)).2 h₁₆, createdSeqno, h₀, _,
      (h32 (by norm_num)).2 h₈, _, (h32 (by norm_num)).2 h₁₂, ?_⟩
    have hw : ∀ {v : BitVec 64}, v.toNat < 2 ^ 32 → (v.setWidth 32).setWidth 64 = v := by
      intro v hv
      apply BitVec.eq_of_toNat_eq
      simp
      omega
    rw [hw hu, hw hc]

/-- **Accepted partitions.** -/
lemma decodePartition_eq_ok {input : List UInt8} {counters : EncodedPartitionCounters}
    (hlen : input.length = 16) : decodePartition input = .ok counters ↔
    input = partitionBytes counters := by
  rw [partitionBytes, eq_putFields_iff (by
    rw [List.length_replicate]; exact contiguous_partitionFields _)
    (by rw [hlen, List.length_replicate])]
  have h32 : ∀ {o : ℕ} {v : BitVec 32}, o + 4 ≤ 16 →
      (getU32 input o = some v ↔ slice input o 4 = u32Bytes v) :=
    fun h => getU32_eq_some_iff (by rw [hlen]; exact h)
  obtain ⟨id, value, deleted⟩ := counters
  simp only [partitionFields, List.forall_mem_cons, List.not_mem_nil, false_implies, implies_true,
    and_true, length_u32Bytes, decodePartition, regionMetadataPartitionSize, hlen,
    ite_error_eq_ok, except_bind_eq_ok, orInvalidLength_eq_ok, requireValue_eq_ok,
    not_true_eq_false, not_false_eq_true, true_and, ne_eq]
  constructor
  · rintro ⟨⟨⟩, h₁₂, id', h₀, value', h₄, deleted', h₈, heq⟩
    cases heq
    exact ⟨(h32 (by norm_num)).1 h₀, (h32 (by norm_num)).1 h₄, (h32 (by norm_num)).1 h₈,
      (h32 (by norm_num)).1 h₁₂⟩
  · rintro ⟨h₀, h₄, h₈, h₁₂⟩
    exact ⟨(), (h32 (by norm_num)).2 h₁₂, _, (h32 (by norm_num)).2 h₀, _,
      (h32 (by norm_num)).2 h₄, _, (h32 (by norm_num)).2 h₈, rfl⟩

/-- **Accepted roots.** -/
lemma decodeRoot_eq_ok {input : List UInt8} {root : RegionMetadataRoot} {layout : MetadataLayout}
    (hlen : input.length = 256) :
    (decodeRoot input = .ok root ∧ validateEncodedRootDirectory input layout = .ok ()) ↔
      input = rootBytes root layout := by
  rw [rootBytes, eq_putFields_iff (by rw [List.length_replicate]; exact contiguous_rootFields _ _)
    (by rw [hlen, List.length_replicate])]
  have h32 : ∀ {o : ℕ} {v : BitVec 32}, o + 4 ≤ 256 →
      (getU32 input o = some v ↔ slice input o 4 = u32Bytes v) :=
    fun h => getU32_eq_some_iff (by rw [hlen]; exact h)
  have h64 : ∀ {o : ℕ} {v : BitVec 64}, o + 8 ≤ 256 →
      (getU64 input o = some v ↔ slice input o 8 = u64Bytes v) :=
    fun h => getU64_eq_some_iff (by rw [hlen]; exact h)
  have hid : ∀ {o : ℕ} {id : PersistentId}, o + 16 ≤ 256 →
      (getId "identity" input o = .ok id ↔ slice input o 16 = id.bytes) :=
    fun h => getId_eq_ok (by rw [hlen]; exact h)
  have hzero : ∀ {o n : ℕ}, o + n ≤ 256 → (¬ (slice input o n).any (· ≠ 0) = true ↔
      slice input o n = List.replicate n 0) := by
    intro o n h
    rw [any_ne_zero_eq_false, length_slice (by omega)]
  obtain ⟨cacheUuid, dataIdentity, dataGeneration, imageIdentity, imageGeneration, fingerprint,
    slots, indexPages, regionSize, regionCount, partitionCount, shardCount, maxSeqno, free, active,
    sealed⟩ := root
  simp only [rootFields, List.forall_mem_cons, List.not_mem_nil, false_implies, implies_true,
    and_true, length_u32Bytes, length_u64Bytes, cacheUuid.length_bytes, dataIdentity.length_bytes,
    imageIdentity.length_bytes, List.length_replicate, decodeRoot, regionMetadataRootSize, hlen,
    ite_error_eq_ok, except_bind_eq_ok, orInvalidLength_eq_ok, requireValue_eq_ok,
    not_true_eq_false, not_false_eq_true, true_and, ne_eq, validateEncodedRootDirectory]
  constructor
  · rintro ⟨⟨⟨⟩, h₁₀₈, ⟨⟩, h₁₁₂, ⟨⟩, h₁₂₀, h₁₃₆, h₁₈₄, ⟨⟩, h₂₅₂, uuid', h₀, data', h₁₆, gen', h₃₂,
      image', h₄₀, igen', h₅₆, fp', h₆₄, slots', h₇₂, pages', h₈₀, size', h₈₈, count', h₉₆, parts',
      h₁₀₀, shards', h₁₀₄, max', h₁₂₈, free', h₂₄₀, active', h₂₄₄, sealed', h₂₄₈, heq⟩,
      ⟨⟩, h₂₂₄, ⟨⟩, h₂₂₈, ⟨⟩, h₂₃₂, h₂₃₆⟩
    cases heq
    exact ⟨(hid (by norm_num)).1 h₀, (hid (by norm_num)).1 h₁₆, (h64 (by norm_num)).1 h₃₂,
      (hid (by norm_num)).1 h₄₀, (h64 (by norm_num)).1 h₅₆, (h64 (by norm_num)).1 h₆₄,
      (h64 (by norm_num)).1 h₇₂, (h64 (by norm_num)).1 h₈₀, (h64 (by norm_num)).1 h₈₈,
      (h32 (by norm_num)).1 h₉₆, (h32 (by norm_num)).1 h₁₀₀, (h32 (by norm_num)).1 h₁₀₄,
      (h32 (by norm_num)).1 h₁₀₈, (h64 (by norm_num)).1 h₁₁₂, (h64 (by norm_num)).1 h₁₂₀,
      (h64 (by norm_num)).1 h₁₂₈, (hzero (by norm_num)).1 h₁₃₆, (hzero (by norm_num)).1 h₁₈₄,
      (h32 (by norm_num)).1 h₂₂₄, (h32 (by norm_num)).1 h₂₂₈, (h32 (by norm_num)).1 h₂₃₂,
      (h32 (by norm_num)).1 h₂₃₆, (h32 (by norm_num)).1 h₂₄₀, (h32 (by norm_num)).1 h₂₄₄,
      (h32 (by norm_num)).1 h₂₄₈, (h32 (by norm_num)).1 h₂₅₂⟩
  · rintro ⟨h₀, h₁₆, h₃₂, h₄₀, h₅₆, h₆₄, h₇₂, h₈₀, h₈₈, h₉₆, h₁₀₀, h₁₀₄, h₁₀₈, h₁₁₂, h₁₂₀, h₁₂₈,
      h₁₃₆, h₁₈₄, h₂₂₄, h₂₂₈, h₂₃₂, h₂₃₆, h₂₄₀, h₂₄₄, h₂₄₈, h₂₅₂⟩
    exact ⟨⟨(), (h32 (by norm_num)).2 h₁₀₈, (), (h64 (by norm_num)).2 h₁₁₂, (),
      (h64 (by norm_num)).2 h₁₂₀, (hzero (by norm_num)).2 h₁₃₆, (hzero (by norm_num)).2 h₁₈₄, (),
      (h32 (by norm_num)).2 h₂₅₂, _, (hid (by norm_num)).2 h₀, _, (hid (by norm_num)).2 h₁₆, _,
      (h64 (by norm_num)).2 h₃₂, _, (hid (by norm_num)).2 h₄₀, _, (h64 (by norm_num)).2 h₅₆, _,
      (h64 (by norm_num)).2 h₆₄, _, (h64 (by norm_num)).2 h₇₂, _, (h64 (by norm_num)).2 h₈₀, _,
      (h64 (by norm_num)).2 h₈₈, _, (h32 (by norm_num)).2 h₉₆, _, (h32 (by norm_num)).2 h₁₀₀, _,
      (h32 (by norm_num)).2 h₁₀₄, _, (h64 (by norm_num)).2 h₁₂₈, _, (h32 (by norm_num)).2 h₂₄₀, _,
      (h32 (by norm_num)).2 h₂₄₄, _, (h32 (by norm_num)).2 h₂₄₈, rfl⟩,
      (), (h32 (by norm_num)).2 h₂₂₄, (), (h32 (by norm_num)).2 h₂₂₈, (),
      (h32 (by norm_num)).2 h₂₃₂, (h32 (by norm_num)).2 h₂₃₆⟩

/-! ## Sections with known content -/

section SectionSpecs

variable {T : Type} {crc : List UInt8 → BitVec 32} {firstPage : BitVec 32} {kind : PageKind}
  {size perPage : ℕ} {imageIdentity : PersistentId} {imageGeneration : BitVec 64}
  {bytes : T → List UInt8} {fits : T → Prop}

/-- Encoding records one after another writes their bytes one after another. -/
lemma encodeRecords_eq {encodeRecord : T → List UInt8 → Except EncodeFailure (List UInt8)}
    (hbytes : ∀ r, (bytes r).length = size) :
    ∀ (rs : List T) (index : ℕ) (page : List UInt8),
      (∀ r ∈ rs, ∀ s : List UInt8, s.length = size → encodeRecord r s = .ok (bytes r)) →
      64 + (index + rs.length) * size ≤ page.length →
      encodeRecords size encodeRecord index rs page =
        .ok (writeAll (fun r _ => bytes r) 64 size index rs page) := by
  intro rs
  induction rs with
  | nil => intro index page _ _; rfl
  | cons r rs ih =>
    intro index page henc hfit
    have hsum : 64 + (index + (r :: rs).length) * size =
        64 + index * size + size + rs.length * size := by
      rw [List.length_cons]
      ring
    have hnext : 64 + (index + 1 + rs.length) * size =
        64 + index * size + size + rs.length * size := by ring
    have hslice : (slice page (64 + index * size) size).length = size := length_slice (by omega)
    have hlen : (splice page (64 + index * size) (bytes r)).length = page.length :=
      length_splice (by rw [hbytes]; omega)
    rw [encodeRecords, writeAll, regionMetadataPageHeaderSize,
      henc r List.mem_cons_self _ hslice]
    simp only [bind, Except.bind]
    exact ih (index + 1) _ (fun r' hr' => henc r' (List.mem_cons_of_mem _ hr')) (by omega)

/-- Encoding a page into zeros gives the page with the records. -/
lemma encodePage_eq {encodeRecord : T → List UInt8 → Except EncodeFailure (List UInt8)}
    {rs : List T} (envelope : PageEnvelope) (hbytes : ∀ r, (bytes r).length = size)
    (henc : ∀ r ∈ rs, ∀ s : List UInt8, s.length = size → encodeRecord r s = .ok (bytes r))
    (hfit : 64 + rs.length * size ≤ 4096) :
    encodeRecords size encodeRecord 0 rs (encodePageEnvelope (List.replicate 4096 0) envelope) =
      .ok (pageBody envelope size (rs.map bytes)) := by
  have hsize : ∀ b ∈ rs.map bytes, b.length = size := by
    intro b hb
    obtain ⟨r, -, rfl⟩ := List.mem_map.1 hb
    exact hbytes r
  have hcont := contiguous_pageBody envelope hsize (by rw [List.length_map]; exact hfit)
  have hhead : Contiguous 0 64 (envelopeFields envelope ++ [(56, u32Bytes 0), (60, u32Bytes 0)]) :=
    (contiguous_envelopeFields envelope).append (by simp [Contiguous])
  have hlen : (encodePageEnvelope (List.replicate 4096 0) envelope).length = 4096 := by
    rw [encodePageEnvelope, length_putFields hhead.ascending (by rw [List.length_replicate]; omega),
      List.length_replicate]
  have hroom : 64 + (0 + rs.length) * size ≤
      (encodePageEnvelope (List.replicate 4096 0) envelope).length := by
    rw [hlen, Nat.zero_add]
    exact hfit
  have hf : ∀ (r : T) (s : List UInt8), s.length = size →
      ((fun r (_ : List UInt8) => bytes r) r s).length = size := fun r _ _ => hbytes r
  rw [encodeRecords_eq hbytes rs 0 _ henc hroom, Except.ok.injEq, pageBody, eq_putFields_iff
    (by rw [List.length_replicate]; exact hcont)
    (by rw [length_writeAll hf rs 0 _ hroom, hlen, List.length_replicate])]
  intro f hmem
  -- header, records and padding
  have hcases : f ∈ envelopeFields envelope ++ [(56, u32Bytes 0), (60, u32Bytes 0)] ∨
      f ∈ recordFields size 0 (rs.map bytes) ∨
      f = (64 + rs.length * size, List.replicate (4096 - (64 + rs.length * size)) 0) := by
    rw [List.mem_append, List.mem_cons, List.mem_cons, List.mem_append, List.mem_singleton,
      List.length_map] at hmem
    rcases hmem with h | h | h | h | h
    · exact .inl (List.mem_append_left _ h)
    · exact .inl (List.mem_append_right _ (h ▸ List.mem_cons_self))
    · exact .inl (List.mem_append_right _ (h ▸ List.mem_cons_of_mem _ List.mem_cons_self))
    · exact .inr (.inl h)
    · exact .inr (.inr h)
  rcases hcases with hf' | hf' | rfl
  · have hend := (hhead.ascending.bounds f hf').2
    rw [slice_writeAll_before hf rs 0 _ hroom (by omega)]
    exact slice_putFields_mem hhead.ascending (by rw [List.length_replicate]; omega) hf'
  · obtain ⟨j, hj, rfl⟩ := mem_recordFields.1 hf'
    have hj' : j < rs.length := by simpa using hj
    simp only [List.getElem_map, hbytes]
    exact slice_writeAll hf rs 0 _ hroom j hj'
  · rw [List.length_replicate, slice_writeAll_after hf rs 0 _ hroom (by rw [Nat.zero_add]),
      encodePageEnvelope, slice_putFields_gap hhead.ascending
        (by rw [List.length_replicate]; omega)
        (fun f hf => .inl ((hhead.ascending.bounds f hf).2.trans (Nat.le_add_right _ _))),
      slice_replicate _ (by omega)]

/-- The header of a page of a section. -/
def sectionEnvelope (firstPage : BitVec 32) (kind : PageKind) (size perPage : ℕ)
    (imageIdentity : PersistentId) (imageGeneration : BitVec 64) (recordCount i : ℕ) :
    PageEnvelope :=
  ⟨kind, BitVec.ofNat 16 size, imageIdentity, imageGeneration,
    BitVec.ofNat 32 (firstPage.toNat + i), BitVec.ofNat 32 (i * perPage),
    BitVec.ofNat 32 (min (recordCount - i * perPage) perPage)⟩

/-- What a page of a section holds. -/
def SectionPageIs (crc : List UInt8 → BitVec 32) (firstPage : BitVec 32) (kind : PageKind)
    (size perPage : ℕ) (imageIdentity : PersistentId) (imageGeneration : BitVec 64)
    (recordCount : ℕ) (bytes : T → List UInt8) (here : List T) (i : ℕ) (page : List UInt8) : Prop :=
  PageIs crc (sectionEnvelope firstPage kind size perPage imageIdentity imageGeneration
    recordCount i) size (here.map bytes) page

/-- A page that lies in the input. -/
lemma metadataPage_eq {input : List UInt8} {q : ℕ} (h : (q + 1) * 4096 ≤ input.length)
    (hlen : input.length < 2 ^ 64) :
    metadataPage input q = .ok (slice input (q * 4096) 4096) := by
  have hstart : Word.checkedMul 64 q recoveryPageSize = some (q * 4096) :=
    Word.checkedMul_of_lt (by rw [recoveryPageSize]; omega)
  have hstop : Word.checkedAdd 64 (q * 4096) recoveryPageSize = some (q * 4096 + 4096) :=
    Word.checkedAdd_of_lt (by rw [recoveryPageSize]; omega)
  rw [metadataPage, hstart, orArithmeticOverflow]
  simp only [bind, Except.bind]
  rw [hstop, orArithmeticOverflow]
  simp only [recoveryPageSize]
  rw [if_pos (by omega)]

/-- The number of records on a page. -/
lemma length_sectionRecords (records : List T) (perPage i : ℕ) :
    (slice records (i * perPage) perPage).length =
      min (records.length - i * perPage) perPage := by
  rw [slice, List.length_take, List.length_drop, Nat.min_comm]

/-- Every page of a section has records. -/
lemma lt_of_sectionPages {count i : ℕ} (hper : 0 < perPage) (h : i < sectionPages perPage count) :
    i * perPage < count := by
  rw [sectionPages, Nat.lt_div_iff_mul_lt hper] at h
  omega

/-- All records are on the pages of their section. -/
lemma le_of_sectionPages {count : ℕ} (hper : 0 < perPage) :
    count ≤ sectionPages perPage count * perPage := by
  have hdiv := Nat.div_add_mod (count + perPage - 1) perPage
  have hmod := Nat.mod_lt (count + perPage - 1) hper
  rw [sectionPages, Nat.mul_comm]
  omega

/-- **Encoding a section.** Pages that are still zero receive the records, one page after another;
other pages stay as they are. -/
lemma encodeRecordPages_spec {encodeRecord : T → List UInt8 → Except EncodeFailure (List UInt8)}
    {records : List T} (hbytes : ∀ r, (bytes r).length = size)
    (henc : ∀ r ∈ records, ∀ s : List UInt8, s.length = size → encodeRecord r s = .ok (bytes r))
    (hper : 0 < perPage) (hfit : 64 + perPage * size ≤ 4096) (hsize : size < 2 ^ 16)
    (hcount : records.length < 2 ^ 32)
    (hpages : firstPage.toNat + sectionPages perPage records.length < 2 ^ 32) :
    ∀ (k i : ℕ) (output : List UInt8), i + k = sectionPages perPage records.length →
      (firstPage.toNat + sectionPages perPage records.length) * 4096 ≤ output.length →
      output.length < 2 ^ 64 →
      (∀ j, i ≤ j → j < i + k →
        slice output ((firstPage.toNat + j) * 4096) 4096 = List.replicate 4096 0) →
      ∃ output', encodeRecordPages crc firstPage kind size perPage imageIdentity imageGeneration
          encodeRecord records (List.range' i k) output = .ok output' ∧
        output'.length = output.length ∧
        (∀ q, q < firstPage.toNat + i ∨ firstPage.toNat + i + k ≤ q →
          slice output' (q * 4096) 4096 = slice output (q * 4096) 4096) ∧
        ∀ j, i ≤ j → j < i + k →
          SectionPageIs crc firstPage kind size perPage imageIdentity imageGeneration
            records.length bytes (slice records (j * perPage) perPage) j
            (slice output' ((firstPage.toNat + j) * 4096) 4096) := by
  intro k
  induction k with
  | zero =>
    intro i output _ _ _ _
    exact ⟨output, rfl, rfl, fun _ _ => rfl, fun j _ _ => by omega⟩
  | succ k ih =>
    intro i output hik hlen hlen64 hzero
    have hi := lt_of_sectionPages hper (by omega : i < sectionPages perPage records.length)
    have hhere := length_sectionRecords records perPage i
    set here := slice records (i * perPage) perPage with hdef
    have hfit' : 64 + here.length * size ≤ 4096 :=
      (Nat.add_le_add_left (Nat.mul_le_mul_right _ (by omega)) _).trans hfit
    have hend : (firstPage.toNat + i + 1) * 4096 ≤ output.length :=
      (Nat.mul_le_mul_right _ (by omega)).trans hlen
    have hpage := metadataPage_eq hend hlen64
    rw [hzero i le_rfl (by omega)] at hpage
    have hrecords : ∀ r ∈ here, ∀ s : List UInt8, s.length = size →
        encodeRecord r s = .ok (bytes r) :=
      fun r hr => henc r (List.mem_of_mem_drop (List.mem_of_mem_take hr))
    generalize henv : sectionEnvelope firstPage kind size perPage imageIdentity imageGeneration
      records.length i = envelope
    have hbody := encodePage_eq envelope hbytes hrecords hfit'
    have hpageIs : PageIs crc envelope size (here.map bytes)
        (finishPage crc (pageBody envelope size (here.map bytes))) :=
      (pageIs_iff (by simp [hbytes]) (by rw [List.length_map]; exact hfit')).2 rfl
    have hmul : Word.checkedMul 64 i perPage = some (i * perPage) :=
      Word.checkedMul_of_lt (by omega)
    have hadd : Word.checkedAdd 64 firstPage.toNat i = some (firstPage.toNat + i) :=
      Word.checkedAdd_of_lt (by omega)
    have hstep : encodeRecordPages crc firstPage kind size perPage imageIdentity imageGeneration
        encodeRecord records (List.range' i (k + 1)) output =
      encodeRecordPages crc firstPage kind size perPage imageIdentity imageGeneration
        encodeRecord records (List.range' (i + 1) k) (splice output ((firstPage.toNat + i) * 4096)
          (finishPage crc (pageBody envelope size (here.map bytes)))) := by
      rw [List.range'_succ, encodeRecordPages, ← hdef, hmul, hadd]
      simp only [orArithmeticOverflow, orFailure, bind, Except.bind, hpage, tryFrom,
        if_pos hsize, if_pos (by omega : firstPage.toNat + i < 2 ^ 32),
        if_pos (by omega : i * perPage < 2 ^ 32), if_pos (by omega : here.length < 2 ^ 32)]
      rw [hhere, ← sectionEnvelope, henv, hbody]
      rfl
    rw [hstep]
    clear hstep hbody
    generalize finishPage crc (pageBody envelope size (here.map bytes)) = page at hpageIs
    have hplen : page.length = 4096 := hpageIs.length_eq
    have hroom : (firstPage.toNat + i) * 4096 + page.length ≤ output.length := by
      rw [hplen]
      exact (Nat.succ_mul _ _).symm.trans_le hend
    have hlen' := length_splice hroom
    -- a page apart from the new one is not touched
    have hother : ∀ q, q ≠ firstPage.toNat + i →
        slice (splice output ((firstPage.toNat + i) * 4096) page) (q * 4096) 4096 =
          slice output (q * 4096) 4096 := by
      intro q hq
      rcases Nat.lt_or_gt_of_ne hq with hlt | hgt
      · exact slice_splice_before hroom ((Nat.succ_mul _ _).symm.trans_le
          (Nat.mul_le_mul_right _ hlt))
      · refine slice_splice_after hroom ?_
        rw [hplen, ← Nat.succ_mul]
        exact Nat.mul_le_mul_right _ hgt
    obtain ⟨output', hrun, hlen'', hout, hin⟩ := ih (i + 1) _ (by omega) (hlen'.symm ▸ hlen)
      (hlen'.symm ▸ hlen64) (fun j hj₁ hj₂ => by
        rw [hother _ (by omega)]
        exact hzero j (by omega) (by omega))
    refine ⟨output', hrun, hlen''.trans hlen', fun q hq => ?_, fun j hj₁ hj₂ => ?_⟩
    · rw [hout q (by omega), hother q (by omega)]
    · rcases Nat.lt_or_ge i j with hlt | hge
      · exact hin j hlt (by omega)
      · obtain rfl : j = i := by omega
        rw [SectionPageIs, henv, hout _ (by omega), slice_splice_self hplen (by
          rw [← Nat.succ_mul]; exact hend)]
        exact hpageIs

/-- Decoding records one after another. -/
lemma decodeRecords_eq_ok {decodeRecord : List UInt8 → Except RegionMetadataError T}
    (hdec : ∀ {input : List UInt8} {r : T}, input.length = size →
      (decodeRecord input = .ok r ↔ fits r ∧ input = bytes r))
    {page : List UInt8} (hlen : page.length = 4096) :
    ∀ (k i : ℕ) (rs : List T), 64 + (i + k) * size ≤ 4096 →
      (decodeRecords size decodeRecord page (List.range' i k) = .ok rs ↔
        rs.length = k ∧ (∀ r ∈ rs, fits r) ∧
          ∀ f ∈ recordFields size i (rs.map bytes), slice page f.1 size = f.2) := by
  intro k
  induction k with
  | zero =>
    intro i rs _
    cases rs <;> simp [decodeRecords, recordFields]
  | succ k ih =>
    intro i rs hfit
    have hnext : i + 1 + k = i + (k + 1) := by omega
    have hslice : (slice page (64 + i * size) size).length = size := by
      refine length_slice ?_
      have hsum : 64 + (i + (k + 1)) * size = 64 + i * size + size + k * size := by ring
      omega
    rw [List.range'_succ, decodeRecords, except_bind_eq_ok, regionMetadataPageHeaderSize]
    simp only [except_bind_eq_ok, hdec hslice]
    constructor
    · rintro ⟨r, ⟨hr, hbytes⟩, others, hothers, heq⟩
      cases heq
      obtain ⟨hl, hall, hs⟩ := (ih (i + 1) others (by rw [hnext]; exact hfit)).1 hothers
      refine ⟨by rw [List.length_cons, hl], List.forall_mem_cons.2 ⟨hr, hall⟩, ?_⟩
      rw [List.map_cons, recordFields]
      exact List.forall_mem_cons.2 ⟨hbytes, hs⟩
    · rintro ⟨hl, hall, hs⟩
      cases rs with
      | nil => cases hl
      | cons r others =>
        rw [List.map_cons, recordFields, List.forall_mem_cons] at hs
        rw [List.forall_mem_cons] at hall
        exact ⟨r, ⟨hall.1, hs.1⟩, others, (ih (i + 1) others (by rw [hnext]; exact hfit)).2
          ⟨by simpa using hl, hall.2, hs.2⟩, rfl⟩

/-- What an accepted page of a section is. -/
lemma validateEnvelopeShape_eq_ok {envelope : PageEnvelope}
    {pageIndex firstRecord recordCount : BitVec 32} (hsize : size < 2 ^ 16)
    (hgen : imageGeneration ≠ 0) :
    (validateEnvelopeShape envelope kind size pageIndex firstRecord recordCount = .ok () ∧
      ¬ (envelope.imageIdentity ≠ imageIdentity ∨ envelope.imageGeneration ≠ imageGeneration)) ↔
    envelope = ⟨kind, BitVec.ofNat 16 size, imageIdentity, imageGeneration, pageIndex, firstRecord,
      recordCount⟩ := by
  obtain ⟨kind', size', id', gen', index', first', count'⟩ := envelope
  have hsz : size'.toNat = size ↔ size' = BitVec.ofNat 16 size := by
    rw [← BitVec.toNat_inj, BitVec.toNat_ofNat, Nat.mod_eq_of_lt hsize]
  simp only [validateEnvelopeShape, ite_error_eq_ok, not_or, not_not, PageEnvelope.mk.injEq, hsz,
    ne_eq, and_true]
  constructor
  · rintro ⟨⟨rfl, rfl, -, rfl, rfl, rfl⟩, rfl, rfl⟩
    exact ⟨rfl, rfl, rfl, rfl, rfl, rfl, rfl⟩
  · rintro ⟨rfl, rfl, rfl, rfl, rfl, rfl, rfl⟩
    exact ⟨⟨rfl, rfl, hgen, rfl, rfl, rfl⟩, rfl, rfl⟩

/-- **Accepted pages of a section.** -/
lemma decodeSectionPage_iff {decodeRecord : List UInt8 → Except RegionMetadataError T}
    (hbytes : ∀ r, (bytes r).length = size)
    (hdec : ∀ {input : List UInt8} {r : T}, input.length = size →
      (decodeRecord input = .ok r ↔ fits r ∧ input = bytes r))
    {source : List UInt8} {n : ℕ} (hfit : 64 + n * size ≤ 4096) (hlen : source.length = 4096)
    {envelope : PageEnvelope} {rs : List T} :
    (decodePageEnvelope crc source = .ok envelope ∧
      requireZeroPadding source (n * size) = .ok () ∧
      decodeRecords size decodeRecord source (List.range n) = .ok rs) ↔
    rs.length = n ∧ (∀ r ∈ rs, fits r) ∧ PageIs crc envelope size (rs.map bytes) source := by
  rw [List.range_eq_range', decodeRecords_eq_ok hdec hlen n 0 rs (by rw [Nat.zero_add]; exact hfit)]
  have hrecords : (∀ f ∈ recordFields size 0 (rs.map bytes), slice source f.1 size = f.2) ↔
      ∀ f ∈ recordFields size 0 (rs.map bytes), slice source f.1 f.2.length = f.2 := by
    refine forall₂_congr fun f hf => ?_
    obtain ⟨j, hj, rfl⟩ := mem_recordFields.1 hf
    simp only [List.getElem_map, hbytes]
  rw [hrecords]
  have hpage : rs.length = n → (PageIs crc envelope size (rs.map bytes) source ↔ _) :=
    fun hn => pageIs_iff_decode hlen (by rw [List.length_map, hn]; exact hfit)
  constructor
  · rintro ⟨henv, hpad, hn, hall, hrec⟩
    exact ⟨hn, hall, (hpage hn).2 ⟨henv, by rw [List.length_map, hn]; exact hpad, hrec⟩⟩
  · rintro ⟨hn, hall, hp⟩
    obtain ⟨henv, hpad, hrec⟩ := (hpage hn).1 hp
    rw [List.length_map, hn] at hpad
    exact ⟨henv, hpad, hn, hall, hrec⟩

/-- **Decoding a section.** The pages from the `i`-th on are accepted exactly when they hold the
records, one page after another.

**Proof sketch.** Induction on the number of pages left. The records are those of the first of
them followed by the others, and the first page is full unless it is the last one. -/
lemma decodeRecordPages_eq_ok {decodeRecord : List UInt8 → Except RegionMetadataError T}
    (hbytes : ∀ r, (bytes r).length = size)
    (hdec : ∀ {input : List UInt8} {r : T}, input.length = size →
      (decodeRecord input = .ok r ↔ fits r ∧ input = bytes r))
    (hper : 0 < perPage) (hfit : 64 + perPage * size ≤ 4096) (hsize : size < 2 ^ 16)
    (hgen : imageGeneration ≠ 0) {count : ℕ} (hcount : count < 2 ^ 32)
    (hpages : firstPage.toNat + sectionPages perPage count < 2 ^ 32) {input : List UInt8}
    (hlen : (firstPage.toNat + sectionPages perPage count) * 4096 ≤ input.length)
    (hlen64 : input.length < 2 ^ 64) :
    ∀ (k i : ℕ) (rs : List T), i + k = sectionPages perPage count →
      (decodeRecordPages crc firstPage kind size perPage imageIdentity imageGeneration decodeRecord
          input count (List.range' i k) = .ok rs ↔
        rs.length = count - i * perPage ∧ (∀ r ∈ rs, fits r) ∧
          ∀ j < k, SectionPageIs crc firstPage kind size perPage imageIdentity imageGeneration
            count bytes (slice rs (j * perPage) perPage) (i + j)
            (slice input ((firstPage.toNat + (i + j)) * 4096) 4096)) := by
  intro k
  induction k with
  | zero =>
    intro i rs hik
    have hle : count ≤ i * perPage := by
      rw [show i = sectionPages perPage count by omega]
      exact le_of_sectionPages hper
    rw [List.range'_zero, decodeRecordPages, Nat.sub_eq_zero_of_le hle]
    cases rs <;> simp
  | succ k ih =>
    intro i rs hik
    have hi := lt_of_sectionPages hper (by omega : i < sectionPages perPage count)
    have hend : (firstPage.toNat + i + 1) * 4096 ≤ input.length :=
      (Nat.mul_le_mul_right _ (by omega)).trans hlen
    have hpage := metadataPage_eq hend hlen64
    have hslice : (slice input ((firstPage.toNat + i) * 4096) 4096).length = 4096 :=
      length_slice ((Nat.succ_mul _ _).symm.trans_le hend)
    have hfit' : 64 + min (count - i * perPage) perPage * size ≤ 4096 :=
      (Nat.add_le_add_left (Nat.mul_le_mul_right _ (Nat.min_le_right _ _)) _).trans hfit
    have hmul : Word.checkedMul 64 i perPage = some (i * perPage) :=
      Word.checkedMul_of_lt (by omega)
    have hnext : (i + 1) * perPage = i * perPage + perPage := Nat.succ_mul _ _
    -- what the code does on the first page, and then on the others
    have hstep : decodeRecordPages crc firstPage kind size perPage imageIdentity imageGeneration
        decodeRecord input count (List.range' i (k + 1)) = .ok rs ↔
        ∃ here others, (here.length = min (count - i * perPage) perPage ∧
            (∀ r ∈ here, fits r) ∧ SectionPageIs crc firstPage kind size perPage imageIdentity
              imageGeneration count bytes here i
              (slice input ((firstPage.toNat + i) * 4096) 4096)) ∧
          decodeRecordPages crc firstPage kind size perPage imageIdentity imageGeneration
            decodeRecord input count (List.range' (i + 1) k) = .ok others ∧
              here ++ others = rs := by
      rw [List.range'_succ, decodeRecordPages]
      simp only [except_bind_eq_ok, ite_error_eq_ok, hmul, orArithmeticOverflow_eq_ok, hpage,
        tryFrom_eq_ok, Option.some.injEq, Except.ok.injEq, exists_eq_left', SectionPageIs]
      constructor
      · rintro ⟨envelope, henv, _, ⟨-, rfl⟩, _, ⟨-, rfl⟩, _, ⟨-, rfl⟩, ⟨⟩, hshape, hbind, ⟨⟩, hpad,
          here, hhere, others, hothers, rfl⟩
        obtain rfl := (validateEnvelopeShape_eq_ok hsize hgen).1 ⟨hshape, hbind⟩
        exact ⟨here, others, (decodeSectionPage_iff hbytes hdec hfit' hslice).1
          ⟨henv, hpad, hhere⟩, hothers, rfl⟩
      · rintro ⟨here, others, hhere, hothers, rfl⟩
        obtain ⟨henv, hpad, hdecode⟩ := (decodeSectionPage_iff hbytes hdec hfit' hslice).2 hhere
        have hshape := fun envelope pageIndex firstRecord recordCount =>
          (@validateEnvelopeShape_eq_ok kind size imageIdentity imageGeneration envelope pageIndex
            firstRecord recordCount hsize hgen).2
        obtain ⟨hshape, hbind⟩ := hshape _ _ _ _ rfl
        exact ⟨_, henv, _, ⟨by omega, rfl⟩, _, ⟨by omega, rfl⟩, _, ⟨by omega, rfl⟩, (), hshape,
          hbind, (), hpad, here, hdecode, others, hothers, rfl⟩
    rw [hstep]
    clear hstep
    constructor
    · rintro ⟨here, others, ⟨hl, hall, hfirst⟩, hothers, rfl⟩
      obtain ⟨hl', hall', hrest⟩ := (ih (i + 1) others (by omega)).1 hothers
      have hlength : (here ++ others).length = count - i * perPage := by
        rw [List.length_append, hl, hl', hnext]
        omega
      -- the first page is full, or there is no other one
      have htake : (here ++ others).take perPage = here := by
        rcases Nat.lt_or_ge here.length perPage with hlt | hge
        · have hnil : others = [] := List.length_eq_zero_iff.1 (by omega)
          rw [hnil, List.append_nil, List.take_of_length_le (by omega)]
        · rw [List.take_left' (by omega)]
      have hdrop : (here ++ others).drop perPage = others := by
        have hsplit := List.take_append_drop perPage (here ++ others)
        rw [htake] at hsplit
        exact List.append_cancel_left hsplit
      refine ⟨hlength, List.forall_mem_append.2 ⟨hall, hall'⟩, fun j hj => ?_⟩
      cases j with
      | zero =>
        rw [Nat.zero_mul, slice, List.drop_zero, htake, Nat.add_zero]
        exact hfirst
      | succ j =>
        have hj' := hrest j (by omega)
        rw [show i + 1 + j = i + (j + 1) by omega] at hj'
        rw [Nat.succ_mul, Nat.add_comm, slice, ← List.drop_drop, hdrop]
        exact hj'
    · rintro ⟨hl, hall, hpagesIs⟩
      refine ⟨rs.take perPage, rs.drop perPage, ⟨?_, ?_, ?_⟩, ?_, List.take_append_drop _ _⟩
      · rw [List.length_take, hl, Nat.min_comm]
      · exact fun r hr => hall r (List.mem_of_mem_take hr)
      · have hfirst := hpagesIs 0 (by omega)
        rwa [Nat.zero_mul, slice, List.drop_zero, Nat.add_zero] at hfirst
      · refine (ih (i + 1) _ (by omega)).2 ⟨?_, fun r hr => hall r (List.mem_of_mem_drop hr),
          fun j hj => ?_⟩
        · rw [List.length_drop, hl, hnext, Nat.sub_sub]
        · have hj' := hpagesIs (j + 1) (by omega)
          rw [Nat.succ_mul, Nat.add_comm (j * perPage), slice, ← List.drop_drop] at hj'
          rwa [show i + 1 + j = i + (j + 1) by omega]

/-- Encoding all pages of a section. -/
lemma encodeSection_spec {T : Type} {size perPage : ℕ} {bytes : T → List UInt8}
    {encodeRecord : T → List UInt8 → Except EncodeFailure (List UInt8)} {records : List T}
    (crc : List UInt8 → BitVec 32) (firstPage : BitVec 32) (kind : PageKind)
    (imageIdentity : PersistentId) (imageGeneration : BitVec 64)
    (hbytes : ∀ r, (bytes r).length = size)
    (henc : ∀ r ∈ records, ∀ s : List UInt8, s.length = size → encodeRecord r s = .ok (bytes r))
    (hper : 0 < perPage) (hfit : 64 + perPage * size ≤ 4096) (hsize : size < 2 ^ 16)
    {count first : ℕ} (hcount : records.length = count) (hcount32 : count < 2 ^ 32)
    (hfirst : firstPage.toNat = first) (h32 : first + sectionPages perPage count < 2 ^ 32)
    {output : List UInt8} (hlen : (first + sectionPages perPage count) * 4096 ≤ output.length)
    (hlen64 : output.length < 2 ^ 64)
    (hzero : ∀ q, first ≤ q → q < first + sectionPages perPage count →
      slice output (q * 4096) 4096 = List.replicate 4096 0) :
    ∃ output', encodeRecordPages crc firstPage kind size perPage imageIdentity imageGeneration
        encodeRecord records (List.range (sectionPages perPage records.length)) output =
          .ok output' ∧
      output'.length = output.length ∧
      (∀ q, q < first ∨ first + sectionPages perPage count ≤ q →
        slice output' (q * 4096) 4096 = slice output (q * 4096) 4096) ∧
      ∀ j < sectionPages perPage count,
        SectionPageIs crc firstPage kind size perPage imageIdentity imageGeneration
          count bytes (slice records (j * perPage) perPage) j
          (slice output' ((firstPage.toNat + j) * 4096) 4096) := by
  subst hcount hfirst
  rw [List.range_eq_range']
  obtain ⟨output', hrun, hlen', hout, hin⟩ := encodeRecordPages_spec
    hbytes henc hper hfit hsize hcount32 h32 (sectionPages perPage records.length) 0 output
    (Nat.zero_add _) hlen hlen64 (fun j _ hj => hzero _ (Nat.le_add_right _ _) (by omega))
  refine ⟨output', hrun, hlen', fun q hq => hout q (by omega), fun j hj => hin j (Nat.zero_le _)
    (by omega)⟩

end SectionSpecs

/-! ## Tables with known content -/

/-- The pages that records take. -/
lemma pagesForRecords_eq_ok {records perPage pages : ℕ} (hper : 0 < perPage)
    (h : pagesForRecords records perPage = .ok pages) : pages = sectionPages perPage records := by
  rw [pagesForRecords, except_bind_eq_ok] at h
  obtain ⟨rounded, hround, h⟩ := h
  rw [orArithmeticOverflow_eq_ok, Word.checkedAdd_eq_some] at hround
  dsimp only at h
  split_ifs at h
  rw [← Except.ok.inj h, hround.2, sectionPages, ← Nat.add_sub_assoc hper]

/-- The layout of given counts. -/
lemma MetadataLayout.of_new {regionCount partitionCount : BitVec 32} {layout : MetadataLayout}
    (h : MetadataLayout.new regionCount partitionCount = .ok layout) :
    layout.regionFirstPage.toNat = 1 ∧
      layout.partitionFirstPage.toNat = 1 + sectionPages 192 regionCount.toNat ∧
      1 + sectionPages 192 regionCount.toNat + sectionPages 252 partitionCount.toNat < 2 ^ 32 ∧
      layout.encodedLen = (1 + sectionPages 192 regionCount.toNat +
        sectionPages 252 partitionCount.toNat) * 4096 := by
  rw [MetadataLayout.new, ite_error_eq_ok] at h
  simp only [except_bind_eq_ok, orArithmeticOverflow_eq_ok, Word.checkedAdd_eq_some,
    Word.checkedMul_eq_some] at h
  obtain ⟨-, rp, hr, pp, hp, _, ⟨-, rfl⟩, _, ⟨h32, rfl⟩, _, ⟨-, rfl⟩, heq⟩ := h
  obtain rfl := pagesForRecords_eq_ok (by decide) hr
  obtain rfl := pagesForRecords_eq_ok (by decide) hp
  cases heq
  refine ⟨rfl, ?_, h32, rfl⟩
  exact Nat.mod_eq_of_lt ((Nat.le_add_right _ _).trans_lt h32)

/-- The stored part of a partition. -/
def PartitionMetadataRecord.counters (partition : PartitionMetadataRecord) :
    EncodedPartitionCounters :=
  ⟨partition.partitionId, partition.physicalValueSlots.setWidth 32,
    partition.physicalDeletedSlots.setWidth 32⟩

/-- What the bytes of a table are: the page of the root, the pages of the Regions and those of
the partitions. -/
structure RegionMetadata.Encodes (crc : List UInt8 → BitVec 32) (metadata : RegionMetadata)
    (layout : MetadataLayout) (b : List UInt8) : Prop where
  length_eq : b.length = layout.encodedLen
  root : PageIs crc ⟨.root, 256, metadata.root.imageIdentity, metadata.root.imageGeneration,
    0, 0, 1⟩ 256 [rootBytes metadata.root layout] (slice b (0 * 4096) 4096)
  regions : ∀ i < sectionPages 192 metadata.root.regionCount.toNat,
    SectionPageIs crc layout.regionFirstPage .region 21 192 metadata.root.imageIdentity
      metadata.root.imageGeneration metadata.root.regionCount.toNat regionBytes
      (slice metadata.regions (i * 192) 192) i
      (slice b ((layout.regionFirstPage.toNat + i) * 4096) 4096)
  partitions : ∀ i < sectionPages 252 metadata.root.partitionCount.toNat,
    SectionPageIs crc layout.partitionFirstPage .partition 16 252 metadata.root.imageIdentity
      metadata.root.imageGeneration metadata.root.partitionCount.toNat partitionBytes
      (slice (metadata.partitions.map (·.counters)) (i * 252) 252) i
      (slice b ((layout.partitionFirstPage.toNat + i) * 4096) 4096)

/-- The bytes of a Region have their length. -/
lemma length_regionBytes (region : RegionMetadataRecord) : (regionBytes region).length = 21 := by
  rw [regionBytes, length_putFields (contiguous_regionFields region).ascending (by simp)]
  simp

/-- The bytes of a partition have their length. -/
lemma length_partitionBytes (counters : EncodedPartitionCounters) :
    (partitionBytes counters).length = 16 := by
  rw [partitionBytes, length_putFields (contiguous_partitionFields counters).ascending (by simp)]
  simp

/-- The bytes of the root have their length. -/
lemma length_rootBytes (root : RegionMetadataRoot) (layout : MetadataLayout) :
    (rootBytes root layout).length = 256 := by
  rw [rootBytes, length_putFields (contiguous_rootFields root layout).ascending
    List.length_replicate.ge, List.length_replicate]

/-- What fields without gaps make of a buffer does not depend on the buffer. -/
lemma putFields_congr {n : ℕ} {fields : List (ℕ × List UInt8)} (h : Contiguous 0 n fields)
    {b c : List UInt8} (hb : b.length = n) (hc : c.length = n) :
    putFields fields b = putFields fields c := by
  subst hc
  rw [eq_putFields_iff h (by rw [length_putFields h.ascending hb.ge, hb])]
  intro f hf
  exact slice_putFields_mem h.ascending hb.ge hf

/-- Counters are joined with the directory. -/
lemma joinPartitions_counters : ∀ {counters : List EncodedPartitionCounters}
    {ranges : List IndexPartitionRange} {partitions : List PartitionMetadataRecord},
    counters.length = ranges.length → joinPartitions counters ranges = .ok partitions →
    partitions.map (·.counters) = counters
  | [], [], partitions, _, h => by
    cases h
    rfl
  | counter :: counters, range :: ranges, partitions, hlen, h => by
    rw [joinPartitions, ite_error_eq_ok, except_bind_eq_ok] at h
    obtain ⟨-, rest, hrest, heq⟩ := h
    cases heq
    have hw : ∀ v : BitVec 32, (v.setWidth 64).setWidth 32 = v := by
      intro v
      apply BitVec.eq_of_toNat_eq
      simp
    rw [List.map_cons, joinPartitions_counters (by simpa using hlen) hrest]
    simp [PartitionMetadataRecord.counters, hw]

/-- The counters of accepted partitions, joined with the directory, give them back. -/
lemma joinPartitions_of_validate : ∀ {partitions : List PartitionMetadataRecord}
    {ranges : List IndexPartitionRange}, partitions.length = ranges.length →
    (∀ range ∈ ranges, range.slotCount < 2 ^ 32) →
    validatePartitionList partitions ranges = .ok () →
    joinPartitions (partitions.map (·.counters)) ranges = .ok partitions ∧
      ∀ partition ∈ partitions, partition.physicalValueSlots.toNat < 2 ^ 32 ∧
        partition.physicalDeletedSlots.toNat < 2 ^ 32
  | [], [], _, _, _ => ⟨rfl, by simp⟩
  | partition :: partitions, range :: ranges, hlen, hfit, h => by
    rw [validatePartitionList, except_bind_eq_ok] at h
    obtain ⟨⟨⟩, hfirst, hrest⟩ := h
    rw [List.forall_mem_cons] at hfit
    obtain ⟨hjoin, hall⟩ := joinPartitions_of_validate (by simpa using hlen) hfit.2 hrest
    rw [validatePartition, ite_error_eq_ok, ite_error_eq_ok, ite_error_eq_ok] at hfirst
    simp only [not_or, not_not, BitVec.not_lt, gt_iff_lt, BitVec.le_def] at hfirst
    obtain ⟨⟨hid, hpage, hpages, hslot, hslots⟩, hdeleted, hvalue, -⟩ := hfirst
    have hv : partition.physicalValueSlots.toNat < 2 ^ 32 := by
      have := hfit.1
      omega
    refine ⟨?_, List.forall_mem_cons.2 ⟨⟨hv, by simp [hdeleted]⟩, hall⟩⟩
    rw [List.map_cons, joinPartitions, PartitionMetadataRecord.counters, if_neg (not_not.2 hid),
      hjoin]
    obtain ⟨id, page, pages, slot, slots, value, deleted⟩ := partition
    simp only at hid hpage hpages hslot hslots hdeleted hv
    simp only [bind, Except.bind, ← hpage, ← hpages, ← hslot, ← hslots, BitVec.ofNat_toNat,
      BitVec.setWidth_eq, hdeleted]
    have hw : (value.setWidth 32).setWidth 64 = value := by
      apply BitVec.eq_of_toNat_eq
      simp
      omega
    rw [hw]
    rfl

namespace RegionMetadata

variable {crc : List UInt8 → BitVec 32} {metadata : RegionMetadata} {layout : MetadataLayout}
  {b : List UInt8}

/-- Accepted Regions fit their fields. -/
lemma regionFits_of_validate (h : metadata.validate = .ok ()) :
    ∀ region ∈ metadata.regions, RegionFits region := by
  have hv := valid_of_validate h
  have hsize := hv.regionSize_le
  simp only [maxPackedRegionSize, maxRegionOffset, offsetMask, offsetAlignment] at hsize
  intro region hr
  have hused := (hv.regions region hr).used_le
  have hcount := (hv.regions region hr).count_le
  exact ⟨by omega, by omega⟩

/-- What an accepted table says about its partitions. -/
lemma partitions_of_validate (h : metadata.validate = .ok ()) : ∃ ranges,
    canonicalIndexPartitionRanges metadata.root.indexSlots.toNat = .ok ranges ∧
    metadata.partitions.length = ranges.length ∧
    joinPartitions (metadata.partitions.map (·.counters)) ranges = .ok metadata.partitions ∧
    ∀ partition ∈ metadata.partitions, partition.physicalValueSlots.toNat < 2 ^ 32 ∧
      partition.physicalDeletedSlots.toNat < 2 ^ 32 := by
  obtain ⟨layout, -, hroot, -, -, -, hparts⟩ := validate_eq_ok h
  obtain ⟨ranges, hranges, hfit⟩ := (validateRootDirectory_eq_ok hroot).ranges
  rw [validatePartitions, hranges] at hparts
  dsimp only at hparts
  rw [ite_error_eq_ok, not_not] at hparts
  obtain ⟨hlen, hlist⟩ := hparts
  exact ⟨ranges, hranges, hlen.symm, joinPartitions_of_validate hlen.symm hfit hlist⟩

/-- Encoding a Region that fits. -/
lemma encodeRegion_eq {region : RegionMetadataRecord} (hfit : RegionFits region)
    {s : List UInt8} (hs : s.length = 21) : encodeRegion region s = .ok (regionBytes region) := by
  rw [encodeRegion, expectU32, if_pos hfit.1, expectU32, if_pos hfit.2]
  simp only [bind, Except.bind]
  rw [regionBytes, putFields_congr (contiguous_regionFields region) hs List.length_replicate]

/-- Encoding a partition that fits. -/
lemma encodePartition_eq {partition : PartitionMetadataRecord}
    (hvalue : partition.physicalValueSlots.toNat < 2 ^ 32)
    (hdeleted : partition.physicalDeletedSlots.toNat < 2 ^ 32) {s : List UInt8}
    (hs : s.length = 16) :
    encodePartition partition s = .ok (partitionBytes partition.counters) := by
  rw [encodePartition, expectU32, if_pos hvalue, expectU32, if_pos hdeleted]
  simp only [bind, Except.bind]
  rw [partitionBytes, putFields_congr (contiguous_partitionFields _) hs List.length_replicate]
  rfl

/-- The page of the root, written into zeros. -/
lemma rootPage_eq (root : RegionMetadataRoot) (layout : MetadataLayout) (envelope : PageEnvelope) :
    splice (encodePageEnvelope (List.replicate 4096 0) envelope) regionMetadataPageHeaderSize
        (encodeRoot root layout (slice (encodePageEnvelope (List.replicate 4096 0) envelope)
          regionMetadataPageHeaderSize regionMetadataRootSize)) =
      pageBody envelope 256 [rootBytes root layout] := by
  have hpage : encodeRecords 256 (fun (_ : Unit) s => .ok (encodeRoot root layout s)) 0 [()]
      (encodePageEnvelope (List.replicate 4096 0) envelope) =
      .ok (pageBody envelope 256 ([()].map fun _ => rootBytes root layout)) :=
    encodePage_eq envelope (fun _ => length_rootBytes root layout) (fun _ _ s hs => by
      rw [encodeRoot, rootBytes,
        putFields_congr (contiguous_rootFields root layout) hs List.length_replicate]) (by simp)
  simpa only [encodeRecords, bind, Except.bind, Except.ok.injEq, Nat.zero_mul, Nat.add_zero,
    List.map_cons, List.map_nil, regionMetadataRootSize] using hpage

/-- **Encoding.** A valid table is encoded, without a panic, as the bytes that it stands for. -/
theorem encode_spec (crc : List UInt8 → BitVec 32) (h : metadata.validate = .ok ()) :
    ∃ layout b, MetadataLayout.new metadata.root.regionCount metadata.root.partitionCount =
        .ok layout ∧ metadata.encode crc = .ok b ∧ metadata.Encodes crc layout b := by
  obtain ⟨layout, hlayout, -, hregions, hpartitions, -, -⟩ := validate_eq_ok h
  obtain ⟨-, -, -, -, hcounters⟩ := partitions_of_validate h
  obtain ⟨hfirst, hpart, h32, hlen⟩ := MetadataLayout.of_new hlayout
  have hfits := regionFits_of_validate h
  generalize hrp : sectionPages 192 metadata.root.regionCount.toNat = rp at hpart h32 hlen
  generalize hpp : sectionPages 252 metadata.root.partitionCount.toNat = pp at h32 hlen
  have hlen64 : layout.encodedLen < 2 ^ 64 := by
    rw [hlen]
    omega
  -- the page of the root
  generalize hzeros : (List.replicate layout.encodedLen 0 : List UInt8) = zeros
  have hzlen : zeros.length = layout.encodedLen := by rw [← hzeros, List.length_replicate]
  have hzero : ∀ {q : ℕ}, q < 1 + rp + pp →
      slice zeros (q * 4096) 4096 = List.replicate 4096 0 := by
    intro q hq
    rw [← hzeros]
    refine slice_replicate _ ?_
    rw [hlen, ← Nat.succ_mul]
    exact Nat.mul_le_mul_right _ hq
  have hpage : metadataPage zeros 0 = .ok (List.replicate 4096 0) := by
    rw [metadataPage_eq _ (by rw [hzlen]; exact hlen64), hzero (by omega)]
    rw [hzlen, hlen]
    exact Nat.mul_le_mul_right _ (by omega)
  generalize henv : (⟨.root, BitVec.ofNat 16 regionMetadataRootSize, metadata.root.imageIdentity,
    metadata.root.imageGeneration, 0, 0, 1⟩ : PageEnvelope) = envelope
  have hroot := rootPage_eq metadata.root layout envelope
  have hrootIs : PageIs crc envelope 256 [rootBytes metadata.root layout]
      (finishPage crc (pageBody envelope 256 [rootBytes metadata.root layout])) :=
    (pageIs_iff (by simp [length_rootBytes]) (by simp)).2 rfl
  generalize hfirstPage : finishPage crc (pageBody envelope 256 [rootBytes metadata.root layout]) =
    first at hrootIs
  have hplen := hrootIs.length_eq
  have hfit : 0 + first.length ≤ zeros.length := by
    rw [hplen, hzlen, hlen]
    omega
  have hlen₁ := length_splice hfit
  have hafter : ∀ {q : ℕ}, 0 < q → slice (splice zeros 0 first) (q * 4096) 4096 =
      slice zeros (q * 4096) 4096 := by
    intro q hq
    refine slice_splice_after hfit ?_
    rw [hplen, Nat.zero_add]
    exact Nat.le_mul_of_pos_left _ hq
  have hbefore : slice (splice zeros 0 first) (0 * 4096) 4096 = first :=
    slice_splice_self hplen (by rw [hplen] at hfit; exact hfit)
  generalize hout₁ : splice zeros 0 first = output₁ at hlen₁ hafter hbefore
  -- the Regions, then the partitions
  obtain ⟨output₂, hrun₂, hlen₂, hsame₂, hpages₂⟩ := encodeSection_spec crc layout.regionFirstPage
    .region metadata.root.imageIdentity metadata.root.imageGeneration length_regionBytes
    (fun region hr s hs => encodeRegion_eq (hfits region hr) hs) (by decide : 0 < 192) (by decide)
    (by decide) hregions metadata.root.regionCount.isLt hfirst (by rw [hrp]; omega)
    (by rw [hrp, hlen₁, hzlen, hlen]; exact Nat.mul_le_mul_right _ (by omega))
    (by rw [hlen₁, hzlen]; exact hlen64)
    (fun q hq₁ hq₂ => by rw [hafter (by omega), hzero (by omega)])
  obtain ⟨output₃, hrun₃, hlen₃, hsame₃, hpages₃⟩ := encodeSection_spec crc
    layout.partitionFirstPage .partition metadata.root.imageIdentity metadata.root.imageGeneration
    (fun p : PartitionMetadataRecord => length_partitionBytes p.counters)
    (fun p hp s hs => encodePartition_eq (hcounters p hp).1 (hcounters p hp).2 hs)
    (by decide : 0 < 252) (by decide) (by decide) hpartitions metadata.root.partitionCount.isLt
    hpart (by rw [hpp]; omega) (by rw [hpp, hlen₂, hlen₁, hzlen, hlen])
    (by rw [hlen₂, hlen₁, hzlen]; exact hlen64)
    (fun q hq₁ hq₂ => by
      rw [hsame₂ q (by omega), hafter (by omega), hzero (by omega)])
  refine ⟨layout, output₃, hlayout, ?_, ?_⟩
  · rw [encode, h]
    simp only [orFailure, bind, Except.bind, hlayout, hzeros, hpage, henv, hroot, hfirstPage, hout₁]
    rw [regionMetadataRegionSize, regionMetadataRegionsPerPage, hrun₂]
    exact hrun₃
  · refine ⟨by rw [hlen₃, hlen₂, hlen₁, hzlen], ?_, ?_, ?_⟩
    · rw [hsame₃ 0 (by omega), hsame₂ 0 (by omega), hbefore]
      exact henv ▸ hrootIs
    · intro i hi
      rw [hsame₃ _ (by omega)]
      exact hpages₂ i hi
    · intro i hi
      have hi' := hpages₃ i hi
      rw [SectionPageIs] at hi' ⊢
      rw [slice, ← List.map_drop, ← List.map_take, List.map_map]
      exact hi'

/-- There is one page with a given content. -/
lemma pageIs_unique {envelope : PageEnvelope} {size : ℕ} {records : List (List UInt8)}
    {p q : List UInt8} (hsize : ∀ r ∈ records, r.length = size)
    (hfit : 64 + records.length * size ≤ 4096) (hp : PageIs crc envelope size records p)
    (hq : PageIs crc envelope size records q) : p = q := by
  rw [(pageIs_iff hsize hfit).1 hp, (pageIs_iff hsize hfit).1 hq]

/-- There is one page with given records of a section. -/
lemma sectionPageIs_unique {T : Type} {firstPage : BitVec 32} {kind : PageKind}
    {size perPage : ℕ} {imageIdentity : PersistentId} {imageGeneration : BitVec 64} {count i : ℕ}
    {bytes : T → List UInt8} {records : List T} {p q : List UInt8}
    (hbytes : ∀ r, (bytes r).length = size) (hfit : 64 + perPage * size ≤ 4096)
    (hp : SectionPageIs crc firstPage kind size perPage imageIdentity imageGeneration count bytes
      (slice records (i * perPage) perPage) i p)
    (hq : SectionPageIs crc firstPage kind size perPage imageIdentity imageGeneration count bytes
      (slice records (i * perPage) perPage) i q) : p = q := by
  refine pageIs_unique (fun r hr => ?_) ?_ hp hq
  · obtain ⟨t, -, rfl⟩ := List.mem_map.1 hr
    exact hbytes t
  · rw [List.length_map]
    exact (Nat.add_le_add_left (Nat.mul_le_mul_right _ (List.length_take_le _ _)) _).trans hfit

/-- There is one byte string that a table stands for. -/
lemma Encodes.unique (hlayout : MetadataLayout.new metadata.root.regionCount
    metadata.root.partitionCount = .ok layout) {c : List UInt8}
    (hb : metadata.Encodes crc layout b) (hc : metadata.Encodes crc layout c) : b = c := by
  obtain ⟨hfirst, hpart, -, hlen⟩ := MetadataLayout.of_new hlayout
  refine eq_of_slices_replicate (hb.length_eq.trans hlen) (hc.length_eq.trans hlen) fun q hq => ?_
  -- the root, a page of Regions, or a page of partitions
  rcases Nat.eq_zero_or_pos q with rfl | hpos
  · exact pageIs_unique (by simp [length_rootBytes]) (by simp) hb.root hc.root
  · rcases Nat.lt_or_ge q (1 + sectionPages 192 metadata.root.regionCount.toNat) with hlt | hge
    · have hq₁ : layout.regionFirstPage.toNat + (q - 1) = q := by omega
      have hpb := hb.regions (q - 1) (by omega)
      have hpc := hc.regions (q - 1) (by omega)
      rw [hq₁] at hpb hpc
      exact sectionPageIs_unique length_regionBytes (by decide) hpb hpc
    · have hq₂ : layout.partitionFirstPage.toNat +
          (q - (1 + sectionPages 192 metadata.root.regionCount.toNat)) = q := by omega
      have hpb := hb.partitions (q - (1 + sectionPages 192 metadata.root.regionCount.toNat))
        (by omega)
      have hpc := hc.partitions (q - (1 + sectionPages 192 metadata.root.regionCount.toNat))
        (by omega)
      rw [hq₂] at hpb hpc
      exact sectionPageIs_unique length_partitionBytes (by decide) hpb hpc

/-- A page that was found. -/
lemma metadataPage_eq_ok {input page : List UInt8} {q : ℕ} (h : metadataPage input q = .ok page) :
    page = slice input (q * 4096) 4096 ∧ page.length = 4096 := by
  rw [metadataPage] at h
  simp only [except_bind_eq_ok, orArithmeticOverflow_eq_ok, Word.checkedMul_eq_some,
    Word.checkedAdd_eq_some] at h
  obtain ⟨_, ⟨-, rfl⟩, _, ⟨-, rfl⟩, h⟩ := h
  split_ifs at h with hle
  cases h
  exact ⟨rfl, length_slice hle⟩

/-- The page of the root is accepted exactly when it holds the root. -/
lemma rootPage_iff {first : List UInt8} {root : RegionMetadataRoot} {envelope : PageEnvelope}
    (hlen : first.length = 4096) :
    (decodePageEnvelope crc first = .ok envelope ∧ requireZeroPadding first 256 = .ok () ∧
      decodeRoot (slice first 64 256) = .ok root ∧
      validateEncodedRootDirectory (slice first 64 256) layout = .ok ()) ↔
    PageIs crc envelope 256 [rootBytes root layout] first := by
  have hpayload : (slice first 64 256).length = 256 := length_slice (by omega)
  rw [pageIs_iff_decode hlen (by simp)]
  have hrecords : (∀ f ∈ recordFields 256 0 [rootBytes root layout],
      slice first f.1 f.2.length = f.2) ↔ slice first 64 256 = rootBytes root layout := by
    simp [recordFields, length_rootBytes]
  rw [hrecords, decodeRoot_eq_ok hpayload]
  simp

/-- **Decoding, one direction.** What is decoded is a valid table, and the bytes are the ones it
stands for. -/
lemma encodes_of_decodeOwned (h : decodeOwned crc b = .ok metadata) :
    metadata.validate = .ok () ∧ ∃ layout,
      MetadataLayout.new metadata.root.regionCount metadata.root.partitionCount = .ok layout ∧
      metadata.Encodes crc layout b := by
  rw [decodeOwned, except_bind_eq_ok] at h
  obtain ⟨metadata', h, hvalid⟩ := h
  rw [except_bind_eq_ok] at hvalid
  obtain ⟨⟨⟩, hvalid, heq⟩ := hvalid
  cases heq
  refine ⟨hvalid, ?_⟩
  rw [decodePages, ite_error_eq_ok] at h
  simp only [except_bind_eq_ok, ite_error_eq_ok, not_or, not_not] at h
  obtain ⟨-, first, hfirst, envelope, henv, ⟨⟩, hshape, ⟨⟩, hpad, root, hroot, hbind, layout,
    hlayout, hlen, ⟨⟩, hdir, ⟨⟩, hrootDir, regions, hregions, counters, hcounters, h⟩ := h
  cases hcanonical : canonicalIndexPartitionRanges root.indexSlots.toNat with
  | error e => rw [hcanonical] at h; cases h
  | ok canonical =>
    rw [hcanonical] at h
    dsimp only at h
    rw [ite_error_eq_ok, not_not, except_bind_eq_ok] at h
    obtain ⟨hcount, partitions, hjoin, heq⟩ := h
    cases heq
    have hr := validateRootDirectory_eq_ok hrootDir
    obtain ⟨hf, hp, h32, hlenEq⟩ := MetadataLayout.of_new hlayout
    obtain ⟨rfl, hflen⟩ := metadataPage_eq_ok hfirst
    have hlen64 : b.length < 2 ^ 64 := by
      rw [hlen, hlenEq]
      omega
    obtain rfl := (validateEnvelopeShape_eq_ok (by decide) hr.imageGeneration_ne).1
      ⟨hshape, by rw [not_or, not_not, not_not]; exact ⟨hbind.1.symm, hbind.2.symm⟩⟩
    have hroom : ∀ {n : ℕ}, n ≤ 1 + sectionPages 192 root.regionCount.toNat +
        sectionPages 252 root.partitionCount.toNat → n * 4096 ≤ b.length := by
      intro n hn
      rw [hlen, hlenEq]
      exact Nat.mul_le_mul_right _ hn
    rw [List.range_eq_range'] at hregions hcounters
    obtain ⟨-, -, hregionPages⟩ := (decodeRecordPages_eq_ok length_regionBytes
      (fun h => decodeRegion_eq_ok h) (by decide) (by decide) (by decide) hr.imageGeneration_ne
      root.regionCount.isLt (by rw [hf]; exact (Nat.le_add_right _ _).trans_lt h32)
      (hroom (by rw [hf]; exact Nat.le_add_right _ _)) hlen64 _ 0 regions
      (Nat.zero_add _)).1 hregions
    obtain ⟨-, -, hcounterPages⟩ := (decodeRecordPages_eq_ok length_partitionBytes
      (fun h => (decodePartition_eq_ok h).trans (and_iff_right trivial).symm) (by decide)
      (by decide) (by decide) hr.imageGeneration_ne root.partitionCount.isLt
      (by rw [hp]; exact h32) (hroom (by rw [hp]; exact le_rfl)) hlen64 _ 0 counters
      (Nat.zero_add _)).1 hcounters
    refine ⟨layout, hlayout, hlen, (rootPage_iff hflen).1 ⟨henv, hpad, hroot, hdir⟩, ?_, ?_⟩
    · intro i hi
      simpa only [Nat.zero_add, regionMetadataRegionsPerPage] using hregionPages i hi
    · intro i hi
      rw [joinPartitions_counters hcount hjoin]
      simpa only [Nat.zero_add, regionMetadataPartitionsPerPage] using hcounterPages i hi

/-- **Decoding, the other direction.** The bytes that a valid table stands for are decoded as
it. -/
lemma decodeOwned_of_encodes (h : metadata.validate = .ok ())
    (hlayout : MetadataLayout.new metadata.root.regionCount metadata.root.partitionCount =
      .ok layout) (hb : metadata.Encodes crc layout b) : decodeOwned crc b = .ok metadata := by
  obtain ⟨layout', hlayout', hrootDir, hregions, hpartitions, -, -⟩ := validate_eq_ok h
  obtain rfl : layout' = layout := by
    rw [hlayout, Except.ok.injEq] at hlayout'
    exact hlayout'.symm
  obtain ⟨canonical, hcanonical, hcount, hjoin, -⟩ := partitions_of_validate h
  have hfits := regionFits_of_validate h
  have hr := validateRootDirectory_eq_ok hrootDir
  obtain ⟨hf, hp, h32, hlenEq⟩ := MetadataLayout.of_new hlayout
  have hlen := hb.length_eq
  have hlen64 : b.length < 2 ^ 64 := by
    rw [hlen, hlenEq]
    omega
  have hroom : ∀ {n : ℕ}, n ≤ 1 + sectionPages 192 metadata.root.regionCount.toNat +
      sectionPages 252 metadata.root.partitionCount.toNat → n * 4096 ≤ b.length := by
    intro n hn
    rw [hlen, hlenEq]
    exact Nat.mul_le_mul_right _ hn
  have hfirst : metadataPage b 0 = .ok (slice b (0 * 4096) 4096) :=
    metadataPage_eq (hroom (by omega)) hlen64
  have hsize : ¬ (b.length < recoveryPageSize ∨ b.length % recoveryPageSize ≠ 0) := by
    rw [hlen, hlenEq, recoveryPageSize, Nat.mul_mod_left]
    omega
  obtain ⟨henv, hpad, hroot, hdir⟩ := (rootPage_iff hb.root.length_eq).2 hb.root
  obtain ⟨hshape, hbind⟩ := (validateEnvelopeShape_eq_ok (by decide : 256 < 2 ^ 16)
    hr.imageGeneration_ne).2 (rfl : (⟨.root, 256, metadata.root.imageIdentity,
      metadata.root.imageGeneration, 0, 0, 1⟩ : PageEnvelope) = _)
  have hregionPages := (decodeRecordPages_eq_ok length_regionBytes
    (fun h => decodeRegion_eq_ok h) (by decide : 0 < 192) (by decide) (by decide)
    hr.imageGeneration_ne metadata.root.regionCount.isLt
    (hf ▸ (Nat.le_add_right _ _).trans_lt h32)
    (hroom (by rw [hf]; exact Nat.le_add_right _ _)) hlen64 _ 0 metadata.regions
    (Nat.zero_add _)).2 ⟨by rw [hregions, Nat.zero_mul, Nat.sub_zero], hfits, fun j hj => by
      simpa only [Nat.zero_add] using hb.regions j hj⟩
  have hcounterPages := (decodeRecordPages_eq_ok length_partitionBytes
    (fun h => (decodePartition_eq_ok h).trans (and_iff_right trivial).symm) (by decide : 0 < 252)
    (by decide) (by decide) hr.imageGeneration_ne metadata.root.partitionCount.isLt
    (by rw [hp]; exact h32) (hroom (by rw [hp])) hlen64 _ 0
    (metadata.partitions.map (·.counters)) (Nat.zero_add _)).2
    ⟨by rw [List.length_map, hpartitions, Nat.zero_mul, Nat.sub_zero], fun _ _ => trivial,
      fun j hj => by simpa only [Nat.zero_add] using hb.partitions j hj⟩
  rw [← List.range_eq_range'] at hregionPages hcounterPages
  have hpages : decodePages crc b = .ok metadata := by
    rw [decodePages, if_neg hsize]
    simp only [except_bind_eq_ok, ite_error_eq_ok, hfirst, Except.ok.injEq, exists_eq_left',
      regionMetadataPageHeaderSize, regionMetadataRootSize]
    refine ⟨_, henv, (), hshape, (), hpad, metadata.root, hroot, by simp, layout', hlayout,
      not_not.2 hlen, (), hdir, (), hrootDir, metadata.regions, hregionPages, _, hcounterPages, ?_⟩
    rw [hcanonical]
    dsimp only
    rw [if_neg (by rw [List.length_map]; exact not_not.2 hcount), hjoin]
    rfl
  rw [decodeOwned, hpages]
  simp only [bind, Except.bind, h]

/-- **Round trip.** Every valid table is encoded, without a panic, and the bytes are decoded as
it; and whatever bytes are decoded as a table, the table is valid and the bytes are its
encoding. -/
theorem codec_roundTrip (crc : List UInt8 → BitVec 32) :
    (∀ metadata : RegionMetadata, metadata.validate = .ok () →
      ∃ b, metadata.encode crc = .ok b ∧ decodeOwned crc b = .ok metadata) ∧
    ∀ (b : List UInt8) (metadata : RegionMetadata), decodeOwned crc b = .ok metadata →
      metadata.validate = .ok () ∧ metadata.encode crc = .ok b := by
  constructor
  · intro metadata h
    obtain ⟨layout, b, hlayout, hencode, hb⟩ := encode_spec crc h
    exact ⟨b, hencode, decodeOwned_of_encodes h hlayout hb⟩
  · intro b metadata h
    obtain ⟨hvalid, layout, hlayout, hb⟩ := encodes_of_decodeOwned h
    obtain ⟨layout', c, hlayout', hencode, hc⟩ := encode_spec crc hvalid
    obtain rfl : layout' = layout := by
      rw [hlayout, Except.ok.injEq] at hlayout'
      exact hlayout'.symm
    exact ⟨hvalid, by rw [hencode, Encodes.unique hlayout hb hc]⟩

/-- A table with an Active Region that holds two records, a Sealed one, 198 free ones, which take a
second page, and one index partition. -/
def sample : RegionMetadata :=
  let id := PersistentId.sample
  { root := ⟨id, id, 3, id, 5, 6, 8, 1, 4096, 200, 1, 1, 4, 198, 1, 1⟩
    regions := ⟨.active, 0, 2, 4096, 2⟩ :: ⟨.sealed, 0, 1, 64, 1⟩ ::
      (List.range 198).map fun i => ⟨.free, BitVec.ofNat 32 i, 0, 0, 0⟩
    partitions := [⟨0, 0, 1, 0, 8, 2, 0⟩] }

/-- The sample is valid, so its encoding, of four pages, is decoded as it; and it is the only table
whose encoding is decoded as it. -/
theorem codec_roundTrip_sample : sample.validate = .ok () ∧
    ∃ b, sample.encode (fun _ => 0) = .ok b ∧ b.length = 4 * 4096 ∧
      decodeOwned (fun _ => 0) b = .ok sample ∧
      ∀ c, decodeOwned (fun _ => 0) c = .ok sample → c = b := by
  have h : sample.validate = .ok () := by decide +kernel
  obtain ⟨hencode, hdecode⟩ := codec_roundTrip fun _ => 0
  obtain ⟨b, hb, hsample⟩ := hencode sample h
  refine ⟨h, b, hb, ?_, hsample, fun c hc => ?_⟩
  · obtain ⟨layout, b', hlayout, hb', hencodes⟩ := encode_spec (fun _ => 0) h
    cases hb.symm.trans hb'
    have hpages : MetadataLayout.new 200 1 = .ok ⟨1, 2, 3, 1, 4 * 4096⟩ := by decide
    cases hpages.symm.trans hlayout
    exact hencodes.length_eq
  · exact Except.ok.inj ((hdecode c sample hc).2.symm.trans hb)

end RegionMetadata

end Cache2
