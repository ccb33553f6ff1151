import Cache2.Codec
import Cache2.Lib.Loop
import Cache2.Index.Layout

set_option relaxedAutoImplicit false
set_option autoImplicit false

/-!
# The header of an index image page

Every page of an index image carries a 64-byte header (`region/index/storage/page_format.rs`):
its position, the number of its buckets, the image it belongs to, and a CRC32C over the whole
page with the checksum field taken as zero.

## Main definitions

* `Cache2.IndexImageBinding` — the generation and the tag that bind a page to its image.
* `Cache2.encodePageHeader`, `Cache2.validatePageHeader` — writing and checking a header.
* `Cache2.pageChecksum` — the checksum of a page.
* `Cache2.BoundPage` — a page whose header is that of its position and its image.

## Main results

* `Cache2.validatePageHeader_eq_ok_iff` — a page is accepted exactly when it is a
  `Cache2.BoundPage`: its header fields are the ones that the encoder writes, its reserved bytes
  are zero and its checksum is right.
-/

namespace Cache2

open Bytes Loop

/-- What binds a page to one recovery image. -/
structure IndexImageBinding where
  generation : BitVec 64
  imageTag : BitVec 64
  deriving DecidableEq, Repr

/-- A binding names an image when both of its parts are non-zero. -/
def IndexImageBinding.isValid (binding : IndexImageBinding) : Bool :=
  binding.generation != 0 && binding.imageTag != 0

/-! ## Layout of the header -/

/-- `C2SIDX1\0`. -/
def pageMagic : List UInt8 := [0x43, 0x32, 0x53, 0x49, 0x44, 0x58, 0x31, 0x00]

/-- The version of the page format. -/
def pageFormatVersion : BitVec 16 := 1

def pageVersionOffset : ℕ := 8
def pageHeaderSizeOffset : ℕ := 10
def pageSlotSizeOffset : ℕ := 12
def pageSlotsPerPageOffset : ℕ := 14
def pageIndexOffset : ℕ := 16
def pageFirstSlotOffset : ℕ := 24
def pageValidSlotsOffset : ℕ := 32
def pageFlagsOffset : ℕ := 36
def pageGenerationOffset : ℕ := 40
def pageImageTagOffset : ℕ := 48
def pageChecksumOffset : ℕ := 56
def pageTrailingReservedOffset : ℕ := 60

/-- No page flag is defined. -/
def pageFlagNone : BitVec 32 := 0

/-- The fields of a header with their offsets, up to the checksum. -/
def pageHeaderFields (pageIndex firstSlot validSlots : ℕ) (binding : IndexImageBinding) :
    List (ℕ × List UInt8) :=
  [(0, pageMagic),
   (pageVersionOffset, u16Bytes pageFormatVersion),
   (pageHeaderSizeOffset, u16Bytes (BitVec.ofNat 16 indexImagePageHeaderSize)),
   (pageSlotSizeOffset, u16Bytes (BitVec.ofNat 16 indexImageSlotSize)),
   (pageSlotsPerPageOffset, u16Bytes (BitVec.ofNat 16 indexImageSlotsPerPage)),
   (pageIndexOffset, u64Bytes (BitVec.ofNat 64 pageIndex)),
   (pageFirstSlotOffset, u64Bytes (BitVec.ofNat 64 firstSlot)),
   (pageValidSlotsOffset, u32Bytes (BitVec.ofNat 32 validSlots)),
   (pageFlagsOffset, u32Bytes pageFlagNone),
   (pageGenerationOffset, u64Bytes binding.generation),
   (pageImageTagOffset, u64Bytes binding.imageTag)]

/-! ## Encoding and validation -/

/-- Writes the header of a zero-filled page; the checksum is written last, by the caller. -/
def encodePageHeader (page : List UInt8) (pageIndex firstSlot validSlots : ℕ)
    (binding : IndexImageBinding) : Except IndexStorageError (List UInt8) :=
  if validSlots ≥ 2 ^ 32 then .error .sizeOverflow
  else .ok (putFields (pageHeaderFields pageIndex firstSlot validSlots binding ++
    [(pageChecksumOffset, u32Bytes 0)]) page)

/-- The checksum of a page, its checksum field taken as zero. -/
def pageChecksum (crc : List UInt8 → BitVec 32) (page : List UInt8) : BitVec 32 :=
  crc32c crc [page.take pageChecksumOffset, [0, 0, 0, 0], page.drop (pageChecksumOffset + 4)]

/-- A fixed `u16` field. -/
def readU16 (input : List UInt8) (offset : ℕ) : BitVec 16 := (getU16 input offset).getD 0

/-- A fixed `u32` field. -/
def readU32 (input : List UInt8) (offset : ℕ) : BitVec 32 := (getU32 input offset).getD 0

/-- A fixed `u64` field. -/
def readU64 (input : List UInt8) (offset : ℕ) : BitVec 64 := (getU64 input offset).getD 0

/-- Checks a page's header against what its image and its position require. -/
def validatePageHeader (crc : List UInt8 → BitVec 32) (page : List UInt8)
    (expectedPageIndex expectedFirstSlot expectedValidSlots : ℕ)
    (expectedBinding : IndexImageBinding) : Except CorruptPageReason Unit :=
  if page.take 8 ≠ pageMagic then .error .invalidMagic
  else
  let version := readU16 page pageVersionOffset
  if version ≠ pageFormatVersion then .error (.unsupportedVersion version.toNat)
  else
  let headerSize := readU16 page pageHeaderSizeOffset
  if headerSize ≠ BitVec.ofNat 16 indexImagePageHeaderSize then
    .error (.invalidHeaderSize headerSize.toNat)
  else
  let slotSize := readU16 page pageSlotSizeOffset
  if slotSize ≠ BitVec.ofNat 16 indexImageSlotSize then .error (.invalidSlotSize slotSize.toNat)
  else
  let slotsPerPage := readU16 page pageSlotsPerPageOffset
  if slotsPerPage ≠ BitVec.ofNat 16 indexImageSlotsPerPage then
    .error (.invalidSlotsPerPage slotsPerPage.toNat)
  else
  let actualPageIndex := readU64 page pageIndexOffset
  if actualPageIndex ≠ BitVec.ofNat 64 expectedPageIndex then
    .error (.wrongPageIndex expectedPageIndex actualPageIndex.toNat)
  else
  let actualFirstSlot := readU64 page pageFirstSlotOffset
  if actualFirstSlot ≠ BitVec.ofNat 64 expectedFirstSlot then
    .error (.wrongFirstSlot expectedFirstSlot actualFirstSlot.toNat)
  else
  let actualValidSlots := readU32 page pageValidSlotsOffset
  if expectedValidSlots ≥ 2 ^ 32 then
    .error (.wrongValidSlotCount (2 ^ 32 - 1) actualValidSlots.toNat)
  else
  if actualValidSlots ≠ BitVec.ofNat 32 expectedValidSlots then
    .error (.wrongValidSlotCount expectedValidSlots actualValidSlots.toNat)
  else
  let flags := readU32 page pageFlagsOffset
  if flags ≠ pageFlagNone then .error (.unsupportedFlags flags.toNat)
  else
  let actualGeneration := readU64 page pageGenerationOffset
  if actualGeneration ≠ expectedBinding.generation then
    .error (.wrongGeneration expectedBinding.generation.toNat actualGeneration.toNat)
  else
  let actualImageTag := readU64 page pageImageTagOffset
  if actualImageTag ≠ expectedBinding.imageTag then
    .error (.wrongImageTag expectedBinding.imageTag.toNat actualImageTag.toNat)
  else
  if (slice page pageTrailingReservedOffset 4).any (· ≠ 0) then .error .reservedBytesNonZero
  else
  let stored := readU32 page pageChecksumOffset
  let computed := pageChecksum crc page
  if stored ≠ computed then .error (.checksumMismatch stored.toNat computed.toNat)
  else .ok ()

/-! ## What is accepted -/

/-- The header fields occupy the first 56 bytes, one after another. -/
lemma ascending_pageHeaderFields (pageIndex firstSlot validSlots : ℕ)
    (binding : IndexImageBinding) :
    Ascending 0 60 (pageHeaderFields pageIndex firstSlot validSlots binding ++
      [(pageChecksumOffset, u32Bytes 0)]) := by
  simp [pageHeaderFields, Ascending, pageMagic, pageVersionOffset, pageHeaderSizeOffset,
    pageSlotSizeOffset, pageSlotsPerPageOffset, pageIndexOffset, pageFirstSlotOffset,
    pageValidSlotsOffset, pageFlagsOffset, pageGenerationOffset, pageImageTagOffset,
    pageChecksumOffset]

/-- What a `u16` field reads as. -/
lemma readU16_eq_iff {page : List UInt8} {offset : ℕ} {v : BitVec 16}
    (hlen : offset + 2 ≤ page.length) :
    readU16 page offset = v ↔ slice page offset 2 = u16Bytes v := by
  obtain ⟨stored, hstored⟩ := getField_isSome (w := 16) hlen
  rw [← getU16_eq_some_iff hlen, readU16, getU16, hstored, Option.getD_some, Option.some.injEq]

/-- What a `u32` field reads as. -/
lemma readU32_eq_iff {page : List UInt8} {offset : ℕ} {v : BitVec 32}
    (hlen : offset + 4 ≤ page.length) :
    readU32 page offset = v ↔ slice page offset 4 = u32Bytes v := by
  obtain ⟨stored, hstored⟩ := getField_isSome (w := 32) hlen
  rw [← getU32_eq_some_iff hlen, readU32, getU32, hstored, Option.getD_some, Option.some.injEq]

/-- What a `u64` field reads as. -/
lemma readU64_eq_iff {page : List UInt8} {offset : ℕ} {v : BitVec 64}
    (hlen : offset + 8 ≤ page.length) :
    readU64 page offset = v ↔ slice page offset 8 = u64Bytes v := by
  obtain ⟨stored, hstored⟩ := getField_isSome (w := 64) hlen
  rw [← getU64_eq_some_iff hlen, readU64, getU64, hstored, Option.getD_some, Option.some.injEq]

/-- The header of a page is that of its position and its image, and its checksum is right. -/
structure BoundPage (crc : List UInt8 → BitVec 32) (page : List UInt8)
    (pageIndex firstSlot validSlots : ℕ) (binding : IndexImageBinding) : Prop where
  /-- The page is whole. -/
  length_eq : page.length = indexImagePageSize
  /-- The number of its buckets has a field. -/
  validSlots_lt : validSlots < 2 ^ 32
  /-- Every field is the one that the encoder writes. -/
  fields : ∀ f ∈ pageHeaderFields pageIndex firstSlot validSlots binding,
    slice page f.1 f.2.length = f.2
  /-- The reserved bytes are zero. -/
  reserved : slice page pageTrailingReservedOffset 4 = List.replicate 4 0
  /-- The checksum is that of the page. -/
  checksum : slice page pageChecksumOffset 4 = u32Bytes (pageChecksum crc page)

/-- The reserved bytes are accepted when they are zero. -/
lemma reserved_eq_iff {page : List UInt8} (hlen : page.length = indexImagePageSize) :
    ¬ (slice page pageTrailingReservedOffset 4).any (· ≠ 0) = true ↔
      slice page pageTrailingReservedOffset 4 = List.replicate 4 0 := by
  have hlength : (slice page pageTrailingReservedOffset 4).length = 4 :=
    length_slice (by rw [hlen]; decide)
  rw [List.eq_replicate_iff, List.any_eq_true]
  simp [hlength]

/-- **Accepted headers.** A whole page passes every check exactly when its header fields are those
of its position and image, its reserved bytes are zero and its checksum is right. -/
theorem validatePageHeader_eq_ok_iff {crc : List UInt8 → BitVec 32} {page : List UInt8}
    {pageIndex firstSlot validSlots : ℕ} {binding : IndexImageBinding}
    (hlen : page.length = indexImagePageSize) :
    validatePageHeader crc page pageIndex firstSlot validSlots binding = .ok () ↔
      BoundPage crc page pageIndex firstSlot validSlots binding := by
  have hbound : ∀ {o n : ℕ}, o + n ≤ 4096 → o + n ≤ page.length := by
    intro o n h
    rw [hlen]
    exact h
  have hmagic : page.take 8 = pageMagic ↔ slice page 0 8 = pageMagic := by
    rw [slice, List.drop_zero]
  unfold validatePageHeader
  simp only [ite_error_eq_ok, not_not, not_le, ge_iff_le, reserved_eq_iff hlen, hmagic,
    and_true,
    readU16_eq_iff (hbound (by decide : pageVersionOffset + 2 ≤ 4096)),
    readU16_eq_iff (hbound (by decide : pageHeaderSizeOffset + 2 ≤ 4096)),
    readU16_eq_iff (hbound (by decide : pageSlotSizeOffset + 2 ≤ 4096)),
    readU16_eq_iff (hbound (by decide : pageSlotsPerPageOffset + 2 ≤ 4096)),
    readU64_eq_iff (hbound (by decide : pageIndexOffset + 8 ≤ 4096)),
    readU64_eq_iff (hbound (by decide : pageFirstSlotOffset + 8 ≤ 4096)),
    readU32_eq_iff (hbound (by decide : pageValidSlotsOffset + 4 ≤ 4096)),
    readU32_eq_iff (hbound (by decide : pageFlagsOffset + 4 ≤ 4096)),
    readU64_eq_iff (hbound (by decide : pageGenerationOffset + 8 ≤ 4096)),
    readU64_eq_iff (hbound (by decide : pageImageTagOffset + 8 ≤ 4096)),
    readU32_eq_iff (hbound (by decide : pageChecksumOffset + 4 ≤ 4096))]
  constructor
  · rintro ⟨h₀, h₁, h₂, h₃, h₄, h₅, h₆, hvalid, h₇, h₈, h₉, h₁₀, hreserved, hcrc⟩
    refine ⟨hlen, hvalid, ?_, hreserved, hcrc⟩
    simp only [pageHeaderFields, List.forall_mem_cons, List.not_mem_nil, false_implies,
      implies_true, and_true, length_u16Bytes, length_u32Bytes, length_u64Bytes]
    exact ⟨h₀, h₁, h₂, h₃, h₄, h₅, h₆, h₇, h₈, h₉, h₁₀⟩
  · rintro ⟨-, hvalid, hfields, hreserved, hcrc⟩
    simp only [pageHeaderFields, List.forall_mem_cons, List.not_mem_nil, false_implies,
      implies_true, and_true, length_u16Bytes, length_u32Bytes, length_u64Bytes] at hfields
    obtain ⟨h₀, h₁, h₂, h₃, h₄, h₅, h₆, h₇, h₈, h₉, h₁₀⟩ := hfields
    exact ⟨h₀, h₁, h₂, h₃, h₄, h₅, h₆, hvalid, h₇, h₈, h₉, h₁₀, hreserved, hcrc⟩

end Cache2
