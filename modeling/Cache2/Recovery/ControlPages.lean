import Cache2.Recovery.Format
import Cache2.Region.MetadataCodec

set_option relaxedAutoImplicit false
set_option autoImplicit false

/-!
# The control pages of recovery

The superblock of the data file, the two slots of the state file and the header of a recovery image
are single pages (`region/recovery/mod.rs`): fields at fixed offsets, zeroes everywhere else, and a
checksum in the last four bytes. A probe tells an empty page, a foreign one, a damaged one, one of
another version and a valid one apart.

## Main definitions

* `Cache2.PageProbe` — the outcome of a probe.
* `Cache2.DataSuperblock.encode`, `Cache2.DataSuperblock.probe`, and likewise for
  `Cache2.StateRecord` and `Cache2.RecoveryImageHeader`.

## Main results

* `Cache2.controlPage_iff` — a page is what its fields make it exactly when it holds them, zeroes
  between them, and its checksum.
* `Cache2.controlPages_bijective` — a page is the encoding of a record exactly when its probe yields
  the record.
-/

namespace Cache2

open Bytes

/-! ## Pages -/

/-- The version of the formats. -/
def recoveryFormatVersion : BitVec 16 := 1

/-- Where the checksum of a page is. -/
def pageCrcOffset : ℕ := recoveryPageSize - 4

/-- The checksum of a control page. -/
def controlPageCrc (crc : List UInt8 → BitVec 32) (page : List UInt8) : BitVec 32 :=
  crc32c crc [page.take pageCrcOffset, [0, 0, 0, 0]]

/-- Writes the checksum. -/
def writePageCrc (crc : List UInt8 → BitVec 32) (page : List UInt8) : List UInt8 :=
  splice page pageCrcOffset (u32Bytes (controlPageCrc crc page))

/-- Whether a page holds its checksum. -/
def pageCrcMatches (crc : List UInt8 → BitVec 32) (page : List UInt8) : Bool :=
  page.length = recoveryPageSize && getU32 page pageCrcOffset = some (controlPageCrc crc page)

/-- The identity at an offset. -/
def readId (input : List UInt8) (offset : ℕ) : Option PersistentId :=
  if offset + 16 ≤ input.length then PersistentId.fromBytes (slice input offset 16) else none

/-- Writes fields into an empty page and finishes it with its checksum. -/
def controlPage (crc : List UInt8 → BitVec 32) (fields : List (ℕ × List UInt8)) : List UInt8 :=
  writePageCrc crc (putFields fields (List.replicate recoveryPageSize 0))

/-- The outcome of a probe. -/
inductive PageProbe (T : Type)
  | empty
  | valid (record : T)
  | corrupt
  | unsupported (version : BitVec 16)
  | unrecognized
  | truncated
  deriving DecidableEq, Repr

/-- Why a record is not encoded. -/
inductive CodecError
  | dataSuperblock
  | recoveryImageHeader
  | stateRecord
  deriving DecidableEq, Repr

/-- The part that the probes share: the length, the magic, the checksum and the version of a page
come before its fields. -/
def probePage {T : Type} (crc : List UInt8 → BitVec 32) (magic : List UInt8)
    (formatVersion : BitVec 16) (fields : List UInt8 → Option T) (page : List UInt8) :
    PageProbe T :=
  if page.length ≠ recoveryPageSize then .truncated
  else if page.all (· = 0) then .empty
  else if page.take magic.length ≠ magic then .unrecognized
  else if ¬ pageCrcMatches crc page then .corrupt
  else
    match getU16 page 8 with
    | none => .corrupt
    | some version =>
      if version ≠ formatVersion then .unsupported version
      else
        match fields page with
        | none => .corrupt
        | some record => .valid record

/-! ## The data superblock -/

namespace DataSuperblock

/-- The magic of a data file, `CRDATA` and two zeroes. -/
def magic : List UInt8 := [0x43, 0x52, 0x44, 0x41, 0x54, 0x41, 0, 0]

/-- Bytes of the superblock's fields. -/
def headerSize : ℕ := 112

/-- The hash algorithm of keys, XXH3 with 64 bits. -/
def keyHashAlgorithm : BitVec 32 := 1

/-- The version of the records. -/
def recordFormatVersion : BitVec 16 := 1

/-- The fields of a superblock with their offsets. -/
def fields (data : DataSuperblock) : List (ℕ × List UInt8) :=
  [(0, magic),
   (8, u16Bytes recoveryFormatVersion),
   (10, u16Bytes (BitVec.ofNat 16 headerSize)),
   (12, u32Bytes keyHashAlgorithm),
   (16, u64Bytes data.generation),
   (24, data.cacheUuid.bytes),
   (40, data.dataIdentity.bytes),
   (56, u64Bytes data.geometry.dataFileLen),
   (64, u64Bytes data.geometry.regionSize),
   (72, u64Bytes (BitVec.ofNat 64 dataRegionAreaOffset)),
   (80, u32Bytes data.geometry.regionCount),
   (84, u32Bytes (BitVec.ofNat 32 recordAlignment)),
   (88, u16Bytes recordFormatVersion),
   (96, u64Bytes data.hashSeed),
   (104, u64Bytes data.storageFingerprint)]

/-- Encodes a superblock. -/
def encode (crc : List UInt8 → BitVec 32) (data : DataSuperblock) :
    Except CodecError (List UInt8) :=
  if data.isValid then .ok (controlPage crc data.fields) else .error .dataSuperblock

/-- Reads the fields of a superblock. -/
def readFields (page : List UInt8) : Option DataSuperblock := do
  if getU16 page 10 ≠ some (BitVec.ofNat 16 headerSize) ∨
      getU32 page 12 ≠ some keyHashAlgorithm ∨
      getU64 page 72 ≠ some (BitVec.ofNat 64 dataRegionAreaOffset) ∨
      getU32 page 84 ≠ some (BitVec.ofNat 32 recordAlignment) ∨
      getU16 page 88 ≠ some recordFormatVersion ∨
      (slice page 90 6).any (· ≠ 0) ∨
      (slice page headerSize (pageCrcOffset - headerSize)).any (· ≠ 0) then none
  else
    let cacheUuid ← readId page 24
    let dataIdentity ← readId page 40
    let generation ← getU64 page 16
    let dataFileLen ← getU64 page 56
    let regionSize ← getU64 page 64
    let regionCount ← getU32 page 80
    let hashSeed ← getU64 page 96
    let storageFingerprint ← getU64 page 104
    let data : DataSuperblock :=
      ⟨generation, cacheUuid, dataIdentity, ⟨dataFileLen, regionSize, regionCount⟩, hashSeed,
        storageFingerprint⟩
    if data.isValid then some data else none

/-- Probes a page for a superblock. -/
def probe (crc : List UInt8 → BitVec 32) : List UInt8 → PageProbe DataSuperblock :=
  probePage crc magic recoveryFormatVersion readFields

end DataSuperblock

/-! ## The state record -/

/-- The status of a session. Only a clean one makes a recovery image eligible. -/
inductive SessionState
  | empty
  | running
  | clean
  deriving DecidableEq, Repr

/-- The byte of a status. -/
def SessionState.code : SessionState → UInt8
  | .empty => 0
  | .running => 1
  | .clean => 2

/-- The status with a byte. -/
def SessionState.decode (value : UInt8) : Option SessionState :=
  if value = 0 then some .empty
  else if value = 1 then some .running
  else if value = 2 then some .clean
  else none

/-- The image that a state names. -/
structure ImageBinding where
  identity : PersistentId
  generation : BitVec 64
  fileLen : BitVec 64
  deriving DecidableEq, Repr

/-- Whether an image may be named. -/
def ImageBinding.isValid (image : ImageBinding) : Bool :=
  image.generation ≠ 0 && recoveryPageSize ≤ image.fileLen.toNat

/-- What binds a state to a data file and, when it is clean, to an image. -/
structure StateBinding where
  cacheUuid : PersistentId
  dataIdentity : PersistentId
  dataSuperblockGeneration : BitVec 64
  dataFileLen : BitVec 64
  hashSeed : BitVec 64
  storageFingerprint : BitVec 64
  image : Option ImageBinding
  deriving DecidableEq, Repr

namespace StateBinding

/-- The binding to a data file. -/
def fromData (data : DataSuperblock) (image : Option ImageBinding) : StateBinding :=
  ⟨data.cacheUuid, data.dataIdentity, data.generation, data.geometry.dataFileLen, data.hashSeed,
    data.storageFingerprint, image⟩

/-- Whether a binding names a data file. -/
def matchesData (binding : StateBinding) (data : DataSuperblock) : Bool :=
  binding.cacheUuid = data.cacheUuid && binding.dataIdentity = data.dataIdentity &&
    binding.dataSuperblockGeneration = data.generation &&
    binding.dataFileLen = data.geometry.dataFileLen && binding.hashSeed = data.hashSeed &&
    binding.storageFingerprint = data.storageFingerprint

/-- Whether a binding may be written. -/
def isValid (binding : StateBinding) : Bool :=
  binding.dataSuperblockGeneration ≠ 0 && recoveryPageSize ≤ binding.dataFileLen.toNat &&
    binding.image.all ImageBinding.isValid

end StateBinding

/-- A record of the state file. -/
structure StateRecord where
  generation : BitVec 64
  state : SessionState
  binding : StateBinding
  deriving DecidableEq, Repr

namespace StateRecord

/-- The magic of a state file, `CRSTATE` and a zero. -/
def magic : List UInt8 := [0x43, 0x52, 0x53, 0x54, 0x41, 0x54, 0x45, 0]

/-- Bytes of a record's fields. -/
def headerSize : ℕ := 120

/-- The flag of a record that names an image. -/
def flagHasImage : UInt8 := 1

/-- Whether a record may be written. -/
def isValid (record : StateRecord) : Bool :=
  record.generation ≠ 0 && record.binding.isValid &&
    (record.state ≠ .clean || record.binding.image.isSome)

/-- The fields of the image that a record names. -/
def imageFields : Option ImageBinding → List (ℕ × List UInt8)
  | some image =>
    [(88, image.identity.bytes), (104, u64Bytes image.generation), (112, u64Bytes image.fileLen)]
  | none => []

/-- The fields of a record with their offsets. -/
def fields (record : StateRecord) : List (ℕ × List UInt8) :=
  [(0, magic),
   (8, u16Bytes recoveryFormatVersion),
   (10, u16Bytes (BitVec.ofNat 16 headerSize)),
   (12, [record.state.code]),
   (13, [(if record.binding.image.isSome then 1 else 0) * flagHasImage]),
   (16, u64Bytes record.generation),
   (24, record.binding.cacheUuid.bytes),
   (40, record.binding.dataIdentity.bytes),
   (56, u64Bytes record.binding.dataSuperblockGeneration),
   (64, u64Bytes record.binding.dataFileLen),
   (72, u64Bytes record.binding.hashSeed),
   (80, u64Bytes record.binding.storageFingerprint)] ++ imageFields record.binding.image

/-- Encodes a record. -/
def encode (crc : List UInt8 → BitVec 32) (record : StateRecord) :
    Except CodecError (List UInt8) :=
  if record.isValid then .ok (controlPage crc record.fields) else .error .stateRecord

/-- Reads the image that a record names. -/
def readImage (page : List UInt8) (flags : UInt8) : Option (Option ImageBinding) :=
  if flags &&& flagHasImage ≠ 0 then do
    let identity ← readId page 88
    some (some ⟨identity, (getU64 page 104).getD 0, (getU64 page 112).getD 0⟩)
  else if (slice page 88 (headerSize - 88)).any (· ≠ 0) then none
  else some none

/-- Reads the fields of a record. -/
def readFields (page : List UInt8) : Option StateRecord := do
  let flags ← page[13]?
  if getU16 page 10 ≠ some (BitVec.ofNat 16 headerSize) ∨ flags &&& ~~~flagHasImage ≠ 0 ∨
      (slice page 14 2).any (· ≠ 0) ∨
      (slice page headerSize (pageCrcOffset - headerSize)).any (· ≠ 0) then none
  else
    let state ← page[12]?.bind SessionState.decode
    let cacheUuid ← readId page 24
    let dataIdentity ← readId page 40
    let image ← readImage page flags
    let generation ← getU64 page 16
    let dataSuperblockGeneration ← getU64 page 56
    let dataFileLen ← getU64 page 64
    let hashSeed ← getU64 page 72
    let storageFingerprint ← getU64 page 80
    let record : StateRecord :=
      ⟨generation, state, ⟨cacheUuid, dataIdentity, dataSuperblockGeneration, dataFileLen, hashSeed,
        storageFingerprint, image⟩⟩
    if record.isValid then some record else none

/-- Probes a page for a record. -/
def probe (crc : List UInt8 → BitVec 32) : List UInt8 → PageProbe StateRecord :=
  probePage crc magic recoveryFormatVersion readFields

/-- Whether a record names a clean image of a data file. -/
def matchesClean (record : StateRecord) (data : DataSuperblock) (image : ImageBinding) : Bool :=
  record.state = .clean && record.binding.matchesData data && record.binding.image = some image

end StateRecord

/-! ## The header of a recovery image -/

/-- Where the index pages of an image begin. -/
def recoveryImageIndexOffset : ℕ := recoveryPageSize

/-- The header of a recovery image. -/
structure RecoveryImageHeader where
  cacheUuid : PersistentId
  dataIdentity : PersistentId
  dataSuperblockGeneration : BitVec 64
  hashSeed : BitVec 64
  storageFingerprint : BitVec 64
  imageIdentity : PersistentId
  imageGeneration : BitVec 64
  imageFileLen : BitVec 64
  indexSlots : BitVec 64
  indexOffset : BitVec 64
  indexLen : BitVec 64
  regionTableOffset : BitVec 64
  regionTableLen : BitVec 64
  deriving DecidableEq, Repr

namespace RecoveryImageHeader

/-- The magic of an image, `CRIMAGE` and a zero. -/
def magic : List UInt8 := [0x43, 0x52, 0x49, 0x4D, 0x41, 0x47, 0x45, 0]

/-- Bytes of a header's fields. -/
def headerSize : ℕ := 144

/-- The version of images. -/
def imageFormatVersion : BitVec 16 := 1

/-- The length that the sections of an image add up to. -/
def expectedFileLen (header : RecoveryImageHeader) (indexEnd : ℕ) : Option ℕ :=
  if header.regionTableOffset.toNat = indexEnd ∧
      header.regionTableLen.toNat % recoveryPageSize = 0 ∧ header.regionTableLen ≠ 0 then
    Word.checkedAdd 64 header.regionTableOffset.toNat header.regionTableLen.toNat
  else none

/-- Whether a header may be written. -/
def isValid (header : RecoveryImageHeader) : Bool :=
  match recoveryImageIndexLen header.indexSlots.toNat with
  | none => false
  | some expectedIndexLen =>
    match Word.checkedAdd 64 header.indexOffset.toNat header.indexLen.toNat with
    | none => false
    | some indexEnd =>
      header.dataSuperblockGeneration ≠ 0 && header.imageGeneration ≠ 0 &&
        header.indexSlots ≠ 0 && header.indexOffset.toNat = recoveryImageIndexOffset &&
        header.indexLen.toNat = expectedIndexLen &&
        header.expectedFileLen indexEnd = some header.imageFileLen.toNat

/-- The fields of a header with their offsets. -/
def fields (header : RecoveryImageHeader) : List (ℕ × List UInt8) :=
  [(0, magic),
   (8, u16Bytes imageFormatVersion),
   (10, u16Bytes (BitVec.ofNat 16 headerSize)),
   (12, u32Bytes 0),
   (16, header.cacheUuid.bytes),
   (32, header.dataIdentity.bytes),
   (48, u64Bytes header.dataSuperblockGeneration),
   (56, u64Bytes header.hashSeed),
   (64, u64Bytes header.storageFingerprint),
   (72, header.imageIdentity.bytes),
   (88, u64Bytes header.imageGeneration),
   (96, u64Bytes header.imageFileLen),
   (104, u64Bytes header.indexSlots),
   (112, u64Bytes header.indexOffset),
   (120, u64Bytes header.indexLen),
   (128, u64Bytes header.regionTableOffset),
   (136, u64Bytes header.regionTableLen)]

/-- Encodes a header. -/
def encode (crc : List UInt8 → BitVec 32) (header : RecoveryImageHeader) :
    Except CodecError (List UInt8) :=
  if header.isValid then .ok (controlPage crc header.fields) else .error .recoveryImageHeader

/-- Reads the fields of a header. -/
def readFields (page : List UInt8) : Option RecoveryImageHeader := do
  if getU16 page 10 ≠ some (BitVec.ofNat 16 headerSize) ∨ getU32 page 12 ≠ some 0 ∨
      (slice page headerSize (pageCrcOffset - headerSize)).any (· ≠ 0) then none
  else
    let cacheUuid ← readId page 16
    let dataIdentity ← readId page 32
    let imageIdentity ← readId page 72
    let dataSuperblockGeneration ← getU64 page 48
    let hashSeed ← getU64 page 56
    let storageFingerprint ← getU64 page 64
    let imageGeneration ← getU64 page 88
    let imageFileLen ← getU64 page 96
    let indexSlots ← getU64 page 104
    let indexOffset ← getU64 page 112
    let indexLen ← getU64 page 120
    let regionTableOffset ← getU64 page 128
    let regionTableLen ← getU64 page 136
    let header : RecoveryImageHeader :=
      ⟨cacheUuid, dataIdentity, dataSuperblockGeneration, hashSeed, storageFingerprint,
        imageIdentity, imageGeneration, imageFileLen, indexSlots, indexOffset, indexLen,
        regionTableOffset, regionTableLen⟩
    if header.isValid then some header else none

/-- Probes a page for a header. -/
def probe (crc : List UInt8 → BitVec 32) : List UInt8 → PageProbe RecoveryImageHeader :=
  probePage crc magic imageFormatVersion readFields

/-- What a state names the image by. -/
def imageBinding (header : RecoveryImageHeader) : ImageBinding :=
  ⟨header.imageIdentity, header.imageGeneration, header.imageFileLen⟩

/-- Whether an image is of a data file. -/
def matchesData (header : RecoveryImageHeader) (data : DataSuperblock) : Bool :=
  header.cacheUuid = data.cacheUuid && header.dataIdentity = data.dataIdentity &&
    header.dataSuperblockGeneration = data.generation && header.hashSeed = data.hashSeed &&
    header.storageFingerprint = data.storageFingerprint

end RecoveryImageHeader

/-! ## Pages with known content -/

/-- The content of a page up to its checksum: the fields that are written, and zeroes in the gaps
between them. -/
structure PageContent (fields content : List (ℕ × List UInt8)) : Prop where
  contiguous : Contiguous 0 4092 content
  ascending : Ascending 0 4092 fields
  mem : ∀ f ∈ content, f ∈ fields ∨ ∃ o len, f = (o, List.replicate len 0) ∧
    ∀ g ∈ fields, g.1 + g.2.length ≤ o ∨ o + len ≤ g.1

section Pages

variable {crc : List UInt8 → BitVec 32} {fields content : List (ℕ × List UInt8)}
  {page : List UInt8}

/-- Ranges of the beginning of a list. -/
lemma slice_take {l : List UInt8} {n o len : ℕ} (h : o + len ≤ n) :
    slice (l.take n) o len = slice l o len := by
  have hslice : slice (slice l 0 n) o len = slice l (0 + o) len := slice_slice l h
  rwa [Nat.zero_add] at hslice

/-- What the fields leave in an empty page is the content. -/
lemma PageContent.slice_eq (h : PageContent fields content) {f : ℕ × List UInt8}
    (hf : f ∈ content) :
    slice (putFields fields (List.replicate recoveryPageSize 0)) f.1 f.2.length = f.2 := by
  have hle : 4092 ≤ (List.replicate recoveryPageSize (0 : UInt8)).length := by
    rw [List.length_replicate]
    decide
  rcases h.mem f hf with hmem | ⟨o, len, rfl, hgap⟩
  · exact slice_putFields_mem h.ascending hle hmem
  · have hend := (h.contiguous.ascending.bounds _ hf).2
    have hsize : recoveryPageSize = 4096 := rfl
    rw [List.length_replicate] at hend ⊢
    rw [slice_putFields_gap h.ascending hle hgap, slice_replicate 0 (by omega)]

/-- The checksum of a page depends on what comes before it. -/
lemma controlPageCrc_congr {q : List UInt8} (h : page.take 4092 = q.take 4092) :
    controlPageCrc crc page = controlPageCrc crc q :=
  congrArg (fun bytes => crc32c crc [bytes, [0, 0, 0, 0]]) h

/-- Whether a page of the right length holds its checksum. -/
lemma pageCrcMatches_iff (hlen : page.length = 4096) :
    pageCrcMatches crc page = true ↔ slice page 4092 4 = u32Bytes (controlPageCrc crc page) := by
  rw [pageCrcMatches, Bool.and_eq_true, decide_eq_true_eq, decide_eq_true_eq,
    getU32_eq_some_iff (by rw [hlen]; decide)]
  exact and_iff_right hlen

/-- **A page is determined by its content.** -/
theorem controlPage_iff (h : PageContent fields content) :
    page = controlPage crc fields ↔ page.length = 4096 ∧
      (∀ f ∈ content, slice page f.1 f.2.length = f.2) ∧ pageCrcMatches crc page = true := by
  set body := putFields fields (List.replicate recoveryPageSize 0) with hbody
  have hlen : body.length = 4096 := by
    rw [hbody, length_putFields h.ascending (by rw [List.length_replicate]; decide),
      List.length_replicate]
    rfl
  -- content fixes everything before the checksum
  have htake : ∀ {q : List UInt8}, q.length = 4096 →
      (∀ f ∈ content, slice q f.1 f.2.length = f.2) →
      q.take 4092 = putFields content (List.replicate 4092 0) := by
    intro q hq hs
    rw [eq_putFields_iff (by rw [List.length_replicate]; exact h.contiguous)
      (by rw [List.length_take, hq, List.length_replicate]; decide)]
    intro f hf
    rw [slice_take (h.contiguous.ascending.bounds f hf).2]
    exact hs f hf
  have hfit : 4092 + (u32Bytes (controlPageCrc crc body)).length ≤ body.length := by
    rw [length_u32Bytes, hlen]
  have hpage : controlPage crc fields = splice body 4092 (u32Bytes (controlPageCrc crc body)) := rfl
  have hbefore : (controlPage crc fields).take 4092 = body.take 4092 := by
    rw [hpage, take_splice_before _ (by omega)]
  constructor
  · rintro rfl
    have hlen' : (controlPage crc fields).length = 4096 := by
      rw [hpage, length_splice hfit, hlen]
    refine ⟨hlen', fun f hf => ?_, ?_⟩
    · have hend := (h.contiguous.ascending.bounds f hf).2
      rw [← slice_take hend, hbefore, slice_take hend]
      exact h.slice_eq hf
    · rw [pageCrcMatches_iff hlen', controlPageCrc_congr hbefore, hpage]
      exact slice_splice_self (length_u32Bytes _) (by rw [hlen])
  · rintro ⟨hlen', hs, hcrc⟩
    rw [pageCrcMatches_iff hlen'] at hcrc
    have hsame : page.take 4092 = body.take 4092 := by
      rw [htake hlen' hs, htake hlen fun f hf => h.slice_eq hf]
    rw [controlPageCrc_congr hsame] at hcrc
    rw [hpage, ← hcrc, splice, ← hsame]
    have hdrop : body.drop (4092 + (slice page 4092 4).length) = [] := by
      rw [length_slice (by omega)]
      exact List.drop_eq_nil_of_le (by omega)
    have hpage' : splice page 4092 (slice page 4092 4) = page := splice_slice (by omega)
    rw [splice] at hpage'
    have hdrop' : page.drop (4092 + (slice page 4092 4).length) = [] := by
      rw [length_slice (by omega)]
      exact List.drop_eq_nil_of_le (by omega)
    rw [hdrop'] at hpage'
    rw [hdrop]
    exact hpage'.symm

/-- What a probe accepts. -/
lemma probePage_eq_valid {T : Type} {magic : List UInt8} {formatVersion : BitVec 16}
    {read : List UInt8 → Option T} {record : T} (hmagic : magic.length = 8)
    (hne : ∃ byte ∈ magic, byte ≠ 0) :
    probePage crc magic formatVersion read page = .valid record ↔ page.length = 4096 ∧
      slice page 0 8 = magic ∧ pageCrcMatches crc page = true ∧
      slice page 8 2 = u16Bytes formatVersion ∧ read page = some record := by
  by_cases hlen : page.length = 4096
  · -- a page with the magic is not empty
    have hempty : slice page 0 8 = magic → ¬ page.all (· = 0) = true := by
      intro hslice hall
      obtain ⟨byte, hmem, hzero⟩ := hne
      rw [← hslice] at hmem
      have hmem' : byte ∈ page := List.mem_of_mem_drop (List.mem_of_mem_take hmem)
      exact hzero (by simpa using List.all_eq_true.1 hall byte hmem')
    have htake : page.take magic.length = slice page 0 8 := by
      rw [hmagic, slice, List.drop_zero]
    have hversion : ∀ {v : BitVec 16}, getU16 page 8 = some v ↔ slice page 8 2 = u16Bytes v :=
      getU16_eq_some_iff (by rw [hlen]; decide)
    rw [probePage, if_neg (by rw [hlen]; decide), htake]
    constructor
    · intro h
      split_ifs at h with h1 h2 h3
      simp only [ne_eq, not_not] at h2 h3
      cases hv : getU16 page 8 with
      | none => rw [hv] at h; cases h
      | some version =>
        rw [hv] at h
        dsimp only at h
        split_ifs at h with h4
        rw [ne_eq, not_not] at h4
        subst h4
        cases hr : read page with
        | none => rw [hr] at h; cases h
        | some r =>
          rw [hr] at h
          cases h
          exact ⟨hlen, h2, h3, hversion.1 hv, rfl⟩
    · rintro ⟨-, hslice, hcrc, hv, hread⟩
      rw [if_neg (hempty hslice), if_neg (by rw [hslice]; exact not_not.2 rfl),
        if_neg (by rw [hcrc]; decide), hversion.2 hv]
      dsimp only
      rw [if_neg (not_not.2 rfl), hread]
  · have hne' : page.length ≠ recoveryPageSize := hlen
    rw [probePage, if_pos hne']
    simp [hlen]

/-- Reading a `u16` of a page. -/
lemma getU16_page (hlen : page.length = 4096) {o : ℕ} {v : BitVec 16} (h : o + 2 ≤ 4096) :
    getU16 page o = some v ↔ slice page o 2 = u16Bytes v :=
  getU16_eq_some_iff (by rw [hlen]; exact h)

/-- Reading a `u32` of a page. -/
lemma getU32_page (hlen : page.length = 4096) {o : ℕ} {v : BitVec 32} (h : o + 4 ≤ 4096) :
    getU32 page o = some v ↔ slice page o 4 = u32Bytes v :=
  getU32_eq_some_iff (by rw [hlen]; exact h)

/-- Reading a `u64` of a page. -/
lemma getU64_page (hlen : page.length = 4096) {o : ℕ} {v : BitVec 64} (h : o + 8 ≤ 4096) :
    getU64 page o = some v ↔ slice page o 8 = u64Bytes v :=
  getU64_eq_some_iff (by rw [hlen]; exact h)

/-- Reading an identity of a page. -/
lemma readId_page (hlen : page.length = 4096) {o : ℕ} {id : PersistentId} (h : o + 16 ≤ 4096) :
    readId page o = some id ↔ slice page o 16 = id.bytes := by
  rw [readId, if_pos (by rw [hlen]; exact h), PersistentId.fromBytes_eq_some]

/-- Reserved bytes of a page. -/
lemma reserved_page (hlen : page.length = 4096) {o len : ℕ} (h : o + len ≤ 4096) :
    ¬ (slice page o len).any (· ≠ 0) = true ↔ slice page o len = List.replicate len 0 := by
  rw [any_ne_zero_eq_false, length_slice (by rw [hlen]; exact h)]

/-- Reading a byte of a page. -/
lemma getElem?_page (hlen : page.length = 4096) {o : ℕ} {byte : UInt8} (h : o + 1 ≤ 4096) :
    page[o]? = some byte ↔ slice page o 1 = [byte] := by
  have hlen1 : (slice page o 1).length = 1 := length_slice (by rw [hlen]; exact h)
  have hget : (slice page o 1)[0]? = page[o]? := by rw [getElem?_slice]; simp
  obtain ⟨b, hb⟩ := List.length_eq_one_iff.1 hlen1
  rw [← hget, hb]
  simp

/-- **Encoding and probing.** When reading the fields of a page is to find the content of a valid
record there, a page is the encoding of a record exactly when the probe yields the record. -/
theorem encode_iff_probe {T : Type} {magic : List UInt8} {formatVersion : BitVec 16}
    {read : List UInt8 → Option T} {record : T} {valid : Bool} {e : CodecError}
    (hmagic : magic.length = 8) (hne : ∃ byte ∈ magic, byte ≠ 0) (h : PageContent fields content)
    (hread : ∀ {page : List UInt8}, page.length = 4096 →
      ((slice page 0 8 = magic ∧ slice page 8 2 = u16Bytes formatVersion ∧
        read page = some record) ↔
      valid = true ∧ ∀ f ∈ content, slice page f.1 f.2.length = f.2)) :
    (if valid then .ok (controlPage crc fields) else .error e : Except CodecError (List UInt8)) =
        .ok page ↔ probePage crc magic formatVersion read page = .valid record := by
  rw [probePage_eq_valid hmagic hne]
  have hok : (if valid then .ok (controlPage crc fields) else .error e :
      Except CodecError (List UInt8)) = .ok page ↔
      valid = true ∧ page = controlPage crc fields := by
    cases valid
    · simp
    · simp [eq_comm]
  rw [hok, controlPage_iff h]
  constructor
  · rintro ⟨hvalid, hlen, hs, hcrc⟩
    obtain ⟨h0, h8, hr⟩ := (hread hlen).2 ⟨hvalid, hs⟩
    exact ⟨hlen, h0, hcrc, h8, hr⟩
  · rintro ⟨hlen, h0, hcrc, h8, hr⟩
    obtain ⟨hvalid, hs⟩ := (hread hlen).1 ⟨h0, h8, hr⟩
    exact ⟨hvalid, hlen, hs, hcrc⟩

end Pages

/-! ## Superblocks -/

namespace DataSuperblock

/-- The content of a superblock's page: two gaps are left. -/
def content (data : DataSuperblock) : List (ℕ × List UInt8) :=
  data.fields.take 13 ++ (90, List.replicate 6 0) :: (data.fields.drop 13 ++
    [(112, List.replicate 3980 0)])

/-- The magic of a data file has eight bytes. -/
lemma length_magic : magic.length = 8 := rfl

/-- The fields of a superblock leave zeroes in the gaps. -/
lemma pageContent (data : DataSuperblock) : PageContent data.fields data.content := by
  refine ⟨?_, ?_, fun f hf => ?_⟩
  · simp only [content, fields, List.take_succ_cons, List.take_zero, List.drop_succ_cons,
      List.drop_zero, List.cons_append, List.nil_append, Contiguous, length_magic, length_u16Bytes,
      length_u32Bytes, length_u64Bytes, PersistentId.length_bytes, List.length_replicate,
      Nat.reduceAdd, and_self]
  · simp only [fields, Ascending, length_magic, length_u16Bytes, length_u32Bytes,
      length_u64Bytes, PersistentId.length_bytes, Nat.reduceAdd, Nat.reduceLeDiff, le_refl,
      and_self]
  · rw [content, List.mem_append, List.mem_cons, List.mem_append, List.mem_singleton] at hf
    rcases hf with hf | hf | hf | hf
    · exact .inl (List.mem_of_mem_take hf)
    · refine .inr ⟨90, 6, hf, ?_⟩
      simp only [fields, List.forall_mem_cons, length_magic, length_u16Bytes, length_u32Bytes,
        length_u64Bytes, PersistentId.length_bytes, Nat.reduceAdd, Nat.reduceLeDiff, or_true,
        true_or, le_refl, true_and, List.not_mem_nil, false_implies, implies_true]
    · exact .inl (List.mem_of_mem_drop hf)
    · refine .inr ⟨112, 3980, hf, ?_⟩
      simp only [fields, List.forall_mem_cons, length_magic, length_u16Bytes, length_u32Bytes,
        length_u64Bytes, PersistentId.length_bytes, Nat.reduceAdd, Nat.reduceLeDiff, true_or,
        le_refl, true_and, List.not_mem_nil, false_implies, implies_true]

/-- **Accepted superblocks.** -/
lemma readFields_eq_some {page : List UInt8} {data : DataSuperblock} (hlen : page.length = 4096) :
    (slice page 0 8 = magic ∧ slice page 8 2 = u16Bytes recoveryFormatVersion ∧
      readFields page = some data) ↔
    data.isValid = true ∧ ∀ f ∈ data.content, slice page f.1 f.2.length = f.2 := by
  simp only [content, fields, List.take_succ_cons, List.take_zero, List.drop_succ_cons,
    List.drop_zero, List.cons_append, List.nil_append, List.forall_mem_cons, List.not_mem_nil,
    false_implies, implies_true, and_true, length_magic, length_u16Bytes, length_u32Bytes,
    length_u64Bytes, PersistentId.length_bytes, List.length_replicate]
  have hpad : pageCrcOffset - headerSize = 3980 := rfl
  have hsize : headerSize = 112 := rfl
  rw [readFields, hpad]
  simp (disch := decide) only [Option.ite_none_left_eq_some, Option.ite_none_right_eq_some,
    Option.bind_eq_bind, Option.bind_eq_some_iff, getU16_page hlen, getU32_page hlen,
    getU64_page hlen, readId_page hlen, not_or, ne_eq, not_not, Option.some.injEq]
  rw [hsize, reserved_page hlen (by decide), reserved_page hlen (by decide)]
  constructor
  · rintro ⟨h0, h8, ⟨h10, h12, h72, h84, h88, h90, h112⟩, uuid, h24, identity, h40, generation, h16,
      fileLen, h56, size, h64, count, h80, seed, h96, fingerprint, h104, hvalid, rfl⟩
    exact ⟨hvalid, h0, h8, h10, h12, h16, h24, h40, h56, h64, h72, h80, h84, h88, h90, h96, h104,
      h112⟩
  · rintro ⟨hvalid, h0, h8, h10, h12, h16, h24, h40, h56, h64, h72, h80, h84, h88, h90, h96, h104,
      h112⟩
    exact ⟨h0, h8, ⟨h10, h12, h72, h84, h88, h90, h112⟩, _, h24, _, h40, _, h16, _, h56, _, h64, _,
      h80, _, h96, _, h104, hvalid, rfl⟩

/-- Superblocks and their pages. -/
lemma encode_eq_ok_iff {crc : List UInt8 → BitVec 32} {data : DataSuperblock}
    {page : List UInt8} : data.encode crc = .ok page ↔ probe crc page = .valid data :=
  encode_iff_probe length_magic ⟨0x43, by decide, by decide⟩ data.pageContent readFields_eq_some

end DataSuperblock

/-! ## State records -/

/-- The status with a byte. -/
lemma SessionState.decode_eq_some {value : UInt8} {state : SessionState} :
    SessionState.decode value = some state ↔ value = state.code := by
  unfold SessionState.decode
  constructor
  · intro h
    split_ifs at h with h₁ h₂ h₃
    · cases h; exact h₁
    · cases h; exact h₂
    · cases h; exact h₃
  · rintro rfl
    cases state <;> rfl

namespace StateRecord

/-- The content of a state record's page after its fixed fields. -/
def imageContent : Option ImageBinding → List (ℕ × List UInt8)
  | some image =>
    [(88, image.identity.bytes), (104, u64Bytes image.generation), (112, u64Bytes image.fileLen)]
  | none => [(88, List.replicate 32 0)]

/-- The content of a state record's page. -/
def content (record : StateRecord) : List (ℕ × List UInt8) :=
  record.fields.take 5 ++ (14, List.replicate 2 0) :: ((record.fields.drop 5).take 7 ++
    (imageContent record.binding.image ++ [(120, List.replicate 3972 0)]))

/-- The magic of a state file has eight bytes. -/
lemma length_magic : magic.length = 8 := rfl

/-- The fields of a state record leave zeroes in the gaps. -/
lemma pageContent (record : StateRecord) : PageContent record.fields record.content := by
  obtain ⟨generation, state, ⟨uuid, identity, superblock, fileLen, seed, fingerprint, image⟩⟩ :=
    record
  have hgap : ∀ {o len : ℕ}, (o = 14 ∧ len = 2) ∨ (o = 120 ∧ len = 3972) ∨
      (o = 88 ∧ len = 32 ∧ image = none) → ∀ g ∈ fields ⟨generation, state, ⟨uuid, identity,
        superblock, fileLen, seed, fingerprint, image⟩⟩, g.1 + g.2.length ≤ o ∨ o + len ≤ g.1 := by
    intro o len h g hg
    have hbounds : ∀ g ∈ fields ⟨generation, state, ⟨uuid, identity, superblock, fileLen, seed,
        fingerprint, image⟩⟩, (g.1 + g.2.length ≤ 14 ∨ 16 ≤ g.1) ∧ g.1 + g.2.length ≤ 120 ∧
        (image = none → g.1 + g.2.length ≤ 88) := by
      cases image with
      | none => simp [fields, imageFields, magic, PersistentId.length_bytes]
      | some image => simp [fields, imageFields, magic, PersistentId.length_bytes]
    obtain ⟨h1, h2, h3⟩ := hbounds g hg
    rcases h with ⟨rfl, rfl⟩ | ⟨rfl, rfl⟩ | ⟨rfl, rfl, himage⟩
    · exact h1
    · exact .inl h2
    · exact .inl (h3 himage)
  refine ⟨?_, ?_, fun f hf => ?_⟩
  · cases image with
    | none =>
      simp only [content, fields, imageFields, imageContent, List.take_succ_cons, List.take_zero,
        List.drop_succ_cons, List.drop_zero, List.cons_append, List.nil_append, Contiguous,
        length_magic, length_u16Bytes, length_u64Bytes, List.length_singleton,
        PersistentId.length_bytes, List.length_replicate, Nat.reduceAdd, and_self]
    | some image =>
      simp only [content, fields, imageFields, imageContent, List.take_succ_cons, List.take_zero,
        List.drop_succ_cons, List.drop_zero, List.cons_append, List.nil_append, Contiguous,
        length_magic, length_u16Bytes, length_u64Bytes, List.length_singleton,
        PersistentId.length_bytes, List.length_replicate, Nat.reduceAdd, and_self]
  · cases image with
    | none =>
      simp only [fields, imageFields, List.cons_append, List.nil_append, Ascending, length_magic,
        length_u16Bytes, length_u64Bytes, List.length_singleton, PersistentId.length_bytes,
        Nat.reduceAdd, Nat.reduceLeDiff, le_refl, and_self]
    | some image =>
      simp only [fields, imageFields, List.cons_append, List.nil_append, Ascending, length_magic,
        length_u16Bytes, length_u64Bytes, List.length_singleton, PersistentId.length_bytes,
        Nat.reduceAdd, Nat.reduceLeDiff, le_refl, and_self]
  · rw [content, List.mem_append, List.mem_cons, List.mem_append, List.mem_append,
      List.mem_singleton] at hf
    rcases hf with hf | hf | hf | hf | hf
    · exact .inl (List.mem_of_mem_take hf)
    · exact .inr ⟨14, 2, hf, hgap (.inl ⟨rfl, rfl⟩)⟩
    · exact .inl (List.mem_of_mem_drop (List.mem_of_mem_take hf))
    · cases image with
      | none => exact .inr ⟨88, 32, List.mem_singleton.1 hf, hgap (.inr (.inr ⟨rfl, rfl, rfl⟩))⟩
      | some image => exact .inl (List.mem_append_right _ hf)
    · exact .inr ⟨120, 3972, hf, hgap (.inr (.inl ⟨rfl, rfl⟩))⟩

/-- Flags without unknown bits. -/
lemma flags_cases {flags : UInt8} (h : flags &&& ~~~flagHasImage = 0) : flags = 0 ∨ flags = 1 := by
  have hall : ∀ n : Fin 256, UInt8.ofNat n.val &&& ~~~flagHasImage = 0 →
      UInt8.ofNat n.val = 0 ∨ UInt8.ofNat n.val = 1 := by decide +kernel
  have hflags := hall ⟨flags.toNat, flags.toNat_lt⟩
  rw [UInt8.ofNat_toNat] at hflags
  exact hflags h

/-- **Accepted images.** -/
lemma readImage_eq_some {page : List UInt8} {flags : UInt8} {image : Option ImageBinding}
    (hlen : page.length = 4096) :
    (flags &&& ~~~flagHasImage = 0 ∧ readImage page flags = some image) ↔
      flags = (if image.isSome then 1 else 0) * flagHasImage ∧
        ∀ f ∈ imageContent image, slice page f.1 f.2.length = f.2 := by
  have hget : ∀ {o : ℕ}, o + 8 ≤ 4096 → ∃ v, getU64 page o = some v :=
    fun h => getField_isSome (by rw [hlen]; exact h)
  have hsize : headerSize - 88 = 32 := rfl
  have hone : (1 : UInt8) &&& flagHasImage ≠ 0 := by decide
  have hzero : ¬ (0 : UInt8) &&& flagHasImage ≠ 0 := by decide
  constructor
  · rintro ⟨hflags, hread⟩
    rcases flags_cases hflags with rfl | rfl
    · rw [readImage, if_neg hzero, hsize, Option.ite_none_left_eq_some,
        reserved_page hlen (by decide)] at hread
      obtain ⟨hreserved, himage⟩ := hread
      obtain rfl := Option.some.inj himage
      refine ⟨rfl, fun f hf => ?_⟩
      rw [List.mem_singleton.1 hf, List.length_replicate]
      exact hreserved
    · rw [readImage, if_pos hone, Option.bind_eq_bind, Option.bind_eq_some_iff] at hread
      obtain ⟨identity, hid, himage⟩ := hread
      obtain rfl := Option.some.inj himage
      obtain ⟨generation, hgeneration⟩ : ∃ v, getU64 page 104 = some v := hget (by decide)
      obtain ⟨fileLen, hfileLen⟩ : ∃ v, getU64 page 112 = some v := hget (by decide)
      refine ⟨rfl, ?_⟩
      simp only [hgeneration, hfileLen, Option.getD_some, imageContent, List.forall_mem_cons,
        PersistentId.length_bytes, length_u64Bytes, List.not_mem_nil, false_implies, implies_true,
        and_true]
      exact ⟨(readId_page hlen (by decide)).1 hid, (getU64_page hlen (by decide)).1 hgeneration,
        (getU64_page hlen (by decide)).1 hfileLen⟩
  · rintro ⟨rfl, hs⟩
    cases image with
    | none =>
      refine ⟨by decide, ?_⟩
      have hreserved := hs _ (List.mem_singleton_self _)
      rw [List.length_replicate] at hreserved
      rw [readImage, if_neg (by decide), hsize, Option.ite_none_left_eq_some,
        reserved_page hlen (by decide)]
      exact ⟨hreserved, rfl⟩
    | some image =>
      refine ⟨show (1 : UInt8) * flagHasImage &&& ~~~flagHasImage = 0 by decide, ?_⟩
      simp only [imageContent, List.forall_mem_cons, PersistentId.length_bytes, length_u64Bytes,
        List.not_mem_nil, false_implies, implies_true, and_true] at hs
      obtain ⟨hid, hgeneration, hfileLen⟩ := hs
      have hflag : (if (some image).isSome = true then 1 else 0) * flagHasImage &&&
          flagHasImage ≠ 0 := show (1 : UInt8) * flagHasImage &&& flagHasImage ≠ 0 by decide
      rw [readImage, if_pos hflag,
        (readId_page hlen (by decide)).2 hid, (getU64_page hlen (by decide)).2 hgeneration,
        (getU64_page hlen (by decide)).2 hfileLen]
      rfl

/-- **Accepted state records.** -/
lemma readFields_eq_some {page : List UInt8} {record : StateRecord} (hlen : page.length = 4096) :
    (slice page 0 8 = magic ∧ slice page 8 2 = u16Bytes recoveryFormatVersion ∧
      readFields page = some record) ↔
    record.isValid = true ∧ ∀ f ∈ record.content, slice page f.1 f.2.length = f.2 := by
  simp only [content, fields, List.take_succ_cons, List.take_zero, List.drop_succ_cons,
    List.drop_zero, List.cons_append, List.nil_append, List.forall_mem_cons,
    List.forall_mem_append, List.not_mem_nil, false_implies, implies_true, and_true, length_magic,
    length_u16Bytes, length_u64Bytes, PersistentId.length_bytes, List.length_replicate,
    List.length_singleton]
  have hpad : pageCrcOffset - headerSize = 3972 := rfl
  have hsize : headerSize = 120 := rfl
  rw [readFields, hpad]
  simp only [Option.ite_none_left_eq_some, Option.ite_none_right_eq_some, Option.bind_eq_bind,
    Option.bind_eq_some_iff, SessionState.decode_eq_some, not_or, ne_eq, not_not,
    Option.some.injEq]
  simp (disch := decide) only [getU16_page hlen, getU64_page hlen, readId_page hlen,
    getElem?_page hlen]
  rw [hsize, reserved_page hlen (by decide), reserved_page hlen (by decide)]
  constructor
  · rintro ⟨h0, h8, flags, h13, ⟨h10, hflags, h14, h120⟩, state, ⟨code, h12, rfl⟩, uuid, h24,
      identity, h40, image, himage, generation, h16, superblock, h56, fileLen, h64, seed, h72,
      fingerprint, h80, hvalid, rfl⟩
    obtain ⟨rfl, hcontent⟩ := (readImage_eq_some hlen).1 ⟨hflags, himage⟩
    exact ⟨hvalid, h0, h8, h10, h12, h13, h14, h16, h24, h40, h56, h64, h72, h80, hcontent, h120⟩
  · rintro ⟨hvalid, h0, h8, h10, h12, h13, h14, h16, h24, h40, h56, h64, h72, h80, himage, h120⟩
    obtain ⟨hflags, himage⟩ := (readImage_eq_some hlen).2 ⟨rfl, himage⟩
    exact ⟨h0, h8, _, h13, ⟨h10, hflags, h14, h120⟩, _, ⟨_, h12, rfl⟩, _, h24, _, h40, _, himage, _,
      h16, _, h56, _, h64, _, h72, _, h80, hvalid, rfl⟩

/-- State records and their pages. -/
lemma encode_eq_ok_iff {crc : List UInt8 → BitVec 32} {record : StateRecord}
    {page : List UInt8} : record.encode crc = .ok page ↔ probe crc page = .valid record :=
  encode_iff_probe length_magic ⟨0x43, by decide, by decide⟩ record.pageContent readFields_eq_some

end StateRecord

/-! ## Headers of images -/

namespace RecoveryImageHeader

/-- The content of a header's page. -/
def content (header : RecoveryImageHeader) : List (ℕ × List UInt8) :=
  header.fields ++ [(144, List.replicate 3948 0)]

/-- The magic of an image has eight bytes. -/
lemma length_magic : magic.length = 8 := rfl

/-- The fields of a header leave zeroes after them. -/
lemma pageContent (header : RecoveryImageHeader) : PageContent header.fields header.content := by
  refine ⟨?_, ?_, fun f hf => ?_⟩
  · simp only [content, fields, List.cons_append, List.nil_append, Contiguous, length_magic,
      length_u16Bytes, length_u32Bytes, length_u64Bytes, PersistentId.length_bytes,
      List.length_replicate, Nat.reduceAdd, and_self]
  · simp only [fields, Ascending, length_magic, length_u16Bytes, length_u32Bytes,
      length_u64Bytes, PersistentId.length_bytes, Nat.reduceAdd, Nat.reduceLeDiff, le_refl,
      and_self]
  · rw [content, List.mem_append, List.mem_singleton] at hf
    rcases hf with hf | hf
    · exact .inl hf
    · refine .inr ⟨144, 3948, hf, ?_⟩
      simp only [fields, List.forall_mem_cons, length_magic, length_u16Bytes, length_u32Bytes,
        length_u64Bytes, PersistentId.length_bytes, Nat.reduceAdd, Nat.reduceLeDiff, true_or,
        le_refl, true_and, List.not_mem_nil, false_implies, implies_true]

/-- **Accepted headers.** -/
lemma readFields_eq_some {page : List UInt8} {header : RecoveryImageHeader}
    (hlen : page.length = 4096) :
    (slice page 0 8 = magic ∧ slice page 8 2 = u16Bytes imageFormatVersion ∧
      readFields page = some header) ↔
    header.isValid = true ∧ ∀ f ∈ header.content, slice page f.1 f.2.length = f.2 := by
  simp only [content, fields, List.cons_append, List.nil_append, List.forall_mem_cons,
    List.not_mem_nil, false_implies, implies_true, and_true, length_magic, length_u16Bytes,
    length_u32Bytes, length_u64Bytes, PersistentId.length_bytes, List.length_replicate]
  have hpad : pageCrcOffset - headerSize = 3948 := rfl
  have hsize : headerSize = 144 := rfl
  have h64 : ∀ {o : ℕ} {v : BitVec 64}, o + 8 ≤ 4096 →
      (getU64 page o = some v ↔ slice page o 8 = u64Bytes v) := fun h => getU64_page hlen h
  have hid : ∀ {o : ℕ} {id : PersistentId}, o + 16 ≤ 4096 →
      (readId page o = some id ↔ slice page o 16 = id.bytes) := fun h => readId_page hlen h
  rw [readFields, hpad, hsize, Option.ite_none_left_eq_some, not_or, not_or, ne_eq, ne_eq, not_not,
    not_not, getU16_page hlen (by decide), getU32_page hlen (by decide),
    reserved_page hlen (by decide)]
  constructor
  · rintro ⟨h0, h8, ⟨h10, h12, h144⟩, h⟩
    obtain ⟨uuid, h16, h⟩ := Option.bind_eq_some_iff.1 h
    obtain ⟨identity, h32, h⟩ := Option.bind_eq_some_iff.1 h
    obtain ⟨image, h72, h⟩ := Option.bind_eq_some_iff.1 h
    obtain ⟨superblock, h48, h⟩ := Option.bind_eq_some_iff.1 h
    obtain ⟨seed, h56, h⟩ := Option.bind_eq_some_iff.1 h
    obtain ⟨fingerprint, h64', h⟩ := Option.bind_eq_some_iff.1 h
    obtain ⟨generation, h88, h⟩ := Option.bind_eq_some_iff.1 h
    obtain ⟨fileLen, h96, h⟩ := Option.bind_eq_some_iff.1 h
    obtain ⟨slots, h104, h⟩ := Option.bind_eq_some_iff.1 h
    obtain ⟨offset, h112, h⟩ := Option.bind_eq_some_iff.1 h
    obtain ⟨len, h120, h⟩ := Option.bind_eq_some_iff.1 h
    obtain ⟨tableOffset, h128, h⟩ := Option.bind_eq_some_iff.1 h
    obtain ⟨tableLen, h136, h⟩ := Option.bind_eq_some_iff.1 h
    obtain ⟨hvalid, h⟩ := Option.ite_none_right_eq_some.1 h
    obtain rfl := Option.some.inj h
    exact ⟨hvalid, h0, h8, h10, h12, (hid (by decide)).1 h16, (hid (by decide)).1 h32,
      (h64 (by decide)).1 h48, (h64 (by decide)).1 h56, (h64 (by decide)).1 h64',
      (hid (by decide)).1 h72, (h64 (by decide)).1 h88, (h64 (by decide)).1 h96,
      (h64 (by decide)).1 h104, (h64 (by decide)).1 h112, (h64 (by decide)).1 h120,
      (h64 (by decide)).1 h128, (h64 (by decide)).1 h136, h144⟩
  · rintro ⟨hvalid, h0, h8, h10, h12, h16, h32, h48, h56, h64', h72, h88, h96, h104, h112, h120,
      h128, h136, h144⟩
    refine ⟨h0, h8, ⟨h10, h12, h144⟩, ?_⟩
    rw [(hid (by decide)).2 h16, (hid (by decide)).2 h32, (hid (by decide)).2 h72,
      (h64 (by decide)).2 h48, (h64 (by decide)).2 h56, (h64 (by decide)).2 h64',
      (h64 (by decide)).2 h88, (h64 (by decide)).2 h96, (h64 (by decide)).2 h104,
      (h64 (by decide)).2 h112, (h64 (by decide)).2 h120, (h64 (by decide)).2 h128,
      (h64 (by decide)).2 h136]
    exact if_pos hvalid

/-- Headers and their pages. -/
lemma encode_eq_ok_iff {crc : List UInt8 → BitVec 32} {header : RecoveryImageHeader}
    {page : List UInt8} : header.encode crc = .ok page ↔ probe crc page = .valid header :=
  encode_iff_probe length_magic ⟨0x43, by decide, by decide⟩ header.pageContent readFields_eq_some

end RecoveryImageHeader

/-- **Control pages.** Superblocks, state records and image headers are in one-to-one
correspondence with the pages whose probe is valid: what is encoded is read back, and a page that
is accepted is the encoding of what it is read as, to the last byte. -/
theorem controlPages_bijective (crc : List UInt8 → BitVec 32) :
    (∀ (data : DataSuperblock) (page : List UInt8),
      data.encode crc = .ok page ↔ DataSuperblock.probe crc page = .valid data) ∧
    (∀ (record : StateRecord) (page : List UInt8),
      record.encode crc = .ok page ↔ StateRecord.probe crc page = .valid record) ∧
    (∀ (header : RecoveryImageHeader) (page : List UInt8),
      header.encode crc = .ok page ↔ RecoveryImageHeader.probe crc page = .valid header) :=
  ⟨fun _ _ => DataSuperblock.encode_eq_ok_iff, fun _ _ => StateRecord.encode_eq_ok_iff,
    fun _ _ => RecoveryImageHeader.encode_eq_ok_iff⟩

end Cache2
