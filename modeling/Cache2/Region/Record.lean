import Cache2.Lib.Loop
import Cache2.Index.Slot
import Cache2.Region.Metadata

set_option relaxedAutoImplicit false
set_option autoImplicit false

/-!
# Records

A record is a header of 48 bytes, the key, the value, and zeroes up to a multiple of 32 bytes; the
last record of a flushed span is longer still (`region/record/mod.rs` and `region/record/codec.rs`).

## Main definitions

* `Cache2.RecordHeader.encode`, `Cache2.RecordHeader.decode` — the header.
* `Cache2.requiredRecordBytes` — the bytes that a key and a value need.

## Main results

* `Cache2.RecordHeader.decode_eq_some_iff` — a header is decoded exactly from its encoding.
* `Cache2.requiredRecordBytes_eq_ok` — the least multiple of 32 that has room for the header, the
  key and the value.
-/

namespace Cache2

open Bytes Loop

/-! ## Definitions -/

/-- `RECORD_HEADER_SIZE`. -/
def recordHeaderSize : ℕ := 48

/-- `MAX_KEY_SIZE`. -/
def maxKeySize : ℕ := 4 * 1024

/-- `RECORD_FORMAT_VERSION`. -/
def recordFormatVersion : BitVec 16 := 1

/-- `RECORD_HEADER_MAGIC`, the letters `CRCD`. -/
def recordHeaderMagic : List UInt8 := [0x43, 0x52, 0x43, 0x44]

/-- `RECORD_HEADER_CRC_OFFSET`. -/
def recordHeaderCrcOffset : ℕ := recordHeaderSize - 4

/-- `checked_align_up`: the low bits of the sum are cleared. -/
def checkedAlignUp (value alignment : ℕ) : Option ℕ :=
  if !isPowerOfTwo alignment then none
  else (Word.checkedAdd 64 value (alignment - 1)).map fun rounded => rounded / alignment * alignment

/-- `RecordHeader`. -/
structure RecordHeader where
  keyLen : BitVec 16
  valueLen : BitVec 32
  /-- The logical order of mutations. -/
  seqno : BitVec 64
  keyHash : BitVec 64
  payloadCrc : BitVec 32
  /-- The generation of the Region that holds the record. -/
  regionGeneration : BitVec 64
  recordLen : BitVec 32
  deriving DecidableEq, Repr

/-- The checksum of a header. -/
def headerCrc (crc : List UInt8 → BitVec 32) (header : List UInt8) : BitVec 32 :=
  crc32c crc [header.take recordHeaderCrcOffset, [0, 0, 0, 0]]

namespace RecordHeader

/-- The smallest aligned length of a record with this payload. -/
def alignedLen (keyLen valueLen : ℕ) : Option ℕ := do
  let unaligned ← Word.checkedAdd 64 recordHeaderSize keyLen
  let unaligned ← Word.checkedAdd 64 unaligned valueLen
  let aligned ← checkedAlignUp unaligned recordAlignment
  if aligned < 2 ^ 32 then some aligned else none

/-- Whether the lengths of a header fit together. -/
def hasValidLengths (header : RecordHeader) : Bool :=
  if header.keyLen.toNat > maxKeySize ∨ header.regionGeneration = 0 ∨ header.seqno = 0 then false
  else (alignedLen header.keyLen.toNat header.valueLen.toNat).any fun minimum =>
    minimum ≤ header.recordLen.toNat && header.recordLen ≠ 0 &&
      header.recordLen.toNat % recordAlignment = 0

/-- The fields of a header with their offsets. -/
def fields (header : RecordHeader) : List (ℕ × List UInt8) :=
  [(0, recordHeaderMagic),
   (4, u16Bytes recordFormatVersion),
   (6, u16Bytes header.keyLen),
   (8, u32Bytes header.valueLen),
   (12, u64Bytes header.seqno),
   (20, u64Bytes header.keyHash),
   (28, u32Bytes header.payloadCrc),
   (32, u64Bytes header.regionGeneration),
   (40, u32Bytes header.recordLen)]

/-- Encodes a header. -/
def encode (crc : List UInt8 → BitVec 32) (header : RecordHeader) : List UInt8 :=
  let output := putFields header.fields (List.replicate recordHeaderSize 0)
  splice output recordHeaderCrcOffset (u32Bytes (headerCrc crc output))

/-- Decodes a header. -/
def decode (crc : List UInt8 → BitVec 32) (input : List UInt8) : Option RecordHeader :=
  if input.length ≠ recordHeaderSize ∨ input.take recordHeaderMagic.length ≠ recordHeaderMagic ∨
      getU16 input 4 ≠ some recordFormatVersion ∨
      getU32 input recordHeaderCrcOffset ≠ some (headerCrc crc input) then none
  else do
    let header : RecordHeader := {
      keyLen := ← getU16 input 6
      valueLen := ← getU32 input 8
      seqno := ← getU64 input 12
      keyHash := ← getU64 input 20
      payloadCrc := ← getU32 input 28
      regionGeneration := ← getU64 input 32
      recordLen := ← getU32 input 40 }
    if !header.hasValidLengths then none else some header

end RecordHeader

/-- `RecordEncodeError`. -/
inductive RecordEncodeError
  | lengthOverflow
  | keyTooLarge
  | recordTooLarge
  | destinationLengthMismatch (reserved destination : ℕ)
  | reservationTooSmall (required reserved : ℕ)
  | invalidReservation
  | invalidLocation (error : PackedLocationError)
  deriving DecidableEq, Repr

/-- The bytes that a key and a value need. -/
def requiredRecordBytes (keyLen valueLen : ℕ) : Except RecordEncodeError ℕ :=
  if keyLen > maxKeySize then .error .keyTooLarge
  else
    match RecordHeader.alignedLen keyLen valueLen with
    | none => .error .lengthOverflow
    | some recordBytes =>
      if recordBytes > maxRecordLen then .error .recordTooLarge else .ok recordBytes

/-! ## Lengths -/

/-- The smallest aligned length: the least multiple of 32 with room for the payload. -/
lemma RecordHeader.alignedLen_eq_some {keyLen valueLen n : ℕ} :
    alignedLen keyLen valueLen = some n ↔
      n = (48 + keyLen + valueLen + 31) / 32 * 32 ∧ n < 2 ^ 32 := by
  have hpow : isPowerOfTwo recordAlignment = true := by decide
  have halign : ∀ value, checkedAlignUp value recordAlignment =
      (Word.checkedAdd 64 value 31).map fun rounded => rounded / 32 * 32 := by
    intro value
    rw [checkedAlignUp, hpow]
    rfl
  simp only [alignedLen, Option.bind_eq_bind, Option.bind_eq_some_iff, Word.checkedAdd_eq_some,
    halign, Option.map_eq_some_iff, Option.ite_none_right_eq_some, Option.some.injEq,
    recordHeaderSize]
  constructor
  · rintro ⟨_, ⟨-, rfl⟩, _, ⟨-, rfl⟩, _, ⟨_, ⟨-, rfl⟩, rfl⟩, hlt, rfl⟩
    exact ⟨rfl, hlt⟩
  · rintro ⟨rfl, hlt⟩
    exact ⟨_, ⟨by omega, rfl⟩, _, ⟨by omega, rfl⟩, _, ⟨_, ⟨by omega, rfl⟩, rfl⟩, hlt, rfl⟩

/-- What the lengths of a header must satisfy. -/
lemma RecordHeader.hasValidLengths_iff {header : RecordHeader} :
    header.hasValidLengths = true ↔ header.keyLen.toNat ≤ maxKeySize ∧
      header.regionGeneration ≠ 0 ∧ header.seqno ≠ 0 ∧
      48 + header.keyLen.toNat + header.valueLen.toNat ≤ header.recordLen.toNat ∧
      header.recordLen.toNat % 32 = 0 := by
  have hlt := header.recordLen.isLt
  have hne : header.recordLen ≠ 0 ↔ header.recordLen.toNat ≠ 0 := by
    rw [ne_eq, ne_eq, ← BitVec.toNat_inj]
    rfl
  rw [hasValidLengths]
  split_ifs with hguard
  · rw [false_iff]
    rintro ⟨h1, h2, h3, -⟩
    rcases hguard with h | h | h
    · omega
    · exact h2 h
    · exact h3 h
  · simp only [not_or, Nat.not_lt] at hguard
    have hmod : header.recordLen.toNat % recordAlignment = header.recordLen.toNat % 32 := rfl
    simp only [Option.any_eq_true, Bool.and_eq_true, decide_eq_true_eq, alignedLen_eq_some, hne,
      hmod]
    constructor
    · rintro ⟨n, ⟨rfl, -⟩, ⟨hle, -⟩, hmod⟩
      exact ⟨hguard.1, hguard.2.1, hguard.2.2, by omega, hmod⟩
    · rintro ⟨-, -, -, hle, hmod⟩
      exact ⟨_, ⟨rfl, by omega⟩, ⟨by omega, by omega⟩, hmod⟩

/-- What a key and a value need. -/
lemma requiredRecordBytes_eq_ok {keyLen valueLen n : ℕ} :
    requiredRecordBytes keyLen valueLen = .ok n ↔ keyLen ≤ maxKeySize ∧
      n = (48 + keyLen + valueLen + 31) / 32 * 32 ∧ n ≤ maxRecordLen := by
  have hmax : maxRecordLen < 2 ^ 32 := by decide
  rw [requiredRecordBytes, ite_error_eq_ok, gt_iff_lt, Nat.not_lt]
  refine and_congr_right fun _ => ?_
  cases haligned : RecordHeader.alignedLen keyLen valueLen with
  | none =>
    simp only [reduceCtorEq, false_iff]
    rintro ⟨hn, hle⟩
    rw [RecordHeader.alignedLen_eq_some.2 ⟨hn, by omega⟩] at haligned
    cases haligned
  | some recordBytes =>
    obtain ⟨rfl, -⟩ := RecordHeader.alignedLen_eq_some.1 haligned
    dsimp only
    rw [ite_error_eq_ok, Except.ok.injEq]
    constructor
    · rintro ⟨hle, rfl⟩
      exact ⟨rfl, by omega⟩
    · rintro ⟨rfl, hle⟩
      exact ⟨by omega, rfl⟩

/-! ## Headers -/

section Header

variable {crc : List UInt8 → BitVec 32} {header : RecordHeader} {l : List UInt8}

/-- The fields of a header with its checksum leave no gap. -/
lemma RecordHeader.contiguous (header : RecordHeader) (checksum : BitVec 32) :
    Contiguous 0 48 (header.fields ++ [(44, u32Bytes checksum)]) := by
  simp [fields, Contiguous, recordHeaderMagic]

/-- The encoding of a header: its fields in their places, and the checksum of the bytes. -/
lemma RecordHeader.eq_encode_iff : l = header.encode crc ↔ l.length = 48 ∧
    (∀ f ∈ header.fields, slice l f.1 f.2.length = f.2) ∧
    slice l 44 4 = u32Bytes (headerCrc crc l) := by
  set buf : List UInt8 := List.replicate 48 0
  have hbuf : buf.length = 48 := List.length_replicate
  have hput : ∀ checksum, putFields (header.fields ++ [(44, u32Bytes checksum)]) buf =
      splice (putFields header.fields buf) 44 (u32Bytes checksum) := by
    intro checksum
    rw [putFields, List.foldl_append]
    rfl
  have hasc : Ascending 0 44 header.fields := by
    simp [fields, Ascending, recordHeaderMagic]
  have houtput : (putFields header.fields buf).length = 48 :=
    (length_putFields hasc (by omega)).trans hbuf
  have hcrc : ∀ checksum, headerCrc crc (splice (putFields header.fields buf) 44
      (u32Bytes checksum)) = headerCrc crc (putFields header.fields buf) := by
    intro checksum
    rw [headerCrc, headerCrc, recordHeaderCrcOffset, recordHeaderSize,
      take_splice_before _ (by omega)]
  have hencode : header.encode crc =
      splice (putFields header.fields buf) 44
        (u32Bytes (headerCrc crc (putFields header.fields buf))) := rfl
  have hiff : ∀ checksum, l.length = 48 →
      (l = splice (putFields header.fields buf) 44 (u32Bytes checksum) ↔
        (∀ f ∈ header.fields, slice l f.1 f.2.length = f.2) ∧
          slice l 44 4 = u32Bytes checksum) := by
    intro checksum hl
    rw [← hput, eq_putFields_iff (hbuf.symm ▸ header.contiguous checksum) (hl.trans hbuf.symm)]
    simp only [List.forall_mem_append, List.forall_mem_singleton, length_u32Bytes]
  constructor
  · intro heq
    have hl : l.length = 48 := by
      rw [heq, hencode, length_splice (by simp [houtput])]
      exact houtput
    obtain ⟨hfields, hchecksum⟩ := (hiff _ hl).1 (heq.trans hencode)
    refine ⟨hl, hfields, hchecksum.trans ?_⟩
    rw [heq, hencode, hcrc]
  · rintro ⟨hl, hfields, hchecksum⟩
    have heq := (hiff _ hl).2 ⟨hfields, hchecksum⟩
    rw [hencode]
    refine heq.trans ?_
    have hback := hcrc (headerCrc crc l)
    rw [← heq] at hback
    rw [hback]

/-- Encoded headers have 48 bytes. -/
@[simp] lemma RecordHeader.length_encode : (header.encode crc).length = 48 :=
  (eq_encode_iff.1 rfl).1

/-- **Headers.** A header is decoded exactly from its encoding, if its lengths fit together. -/
theorem RecordHeader.decode_eq_some_iff :
    decode crc l = some header ↔ l = header.encode crc ∧ header.hasValidLengths = true := by
  by_cases hl : l.length = 48
  · have htake : l.take 4 = slice l 0 4 := rfl
    simp only [eq_encode_iff, hl, true_and, fields, List.forall_mem_cons, List.not_mem_nil,
      false_imp_iff, implies_true, and_true, length_u16Bytes, length_u32Bytes, length_u64Bytes]
    rw [← getU16_eq_some_iff (by omega), ← getU16_eq_some_iff (by omega),
      ← getU32_eq_some_iff (by omega), ← getU64_eq_some_iff (by omega),
      ← getU64_eq_some_iff (by omega), ← getU32_eq_some_iff (by omega),
      ← getU64_eq_some_iff (by omega), ← getU32_eq_some_iff (by omega),
      ← getU32_eq_some_iff (by omega)]
    unfold decode
    have hguard : recordHeaderSize = 48 := rfl
    have hoffset : recordHeaderCrcOffset = 44 := rfl
    have hmagic : recordHeaderMagic.length = 4 := rfl
    rw [hguard, hoffset, hmagic, htake]
    constructor
    · intro h
      split_ifs at h with hchecks
      simp only [hl, not_or, not_not, true_and] at hchecks
      simp only [Option.bind_eq_bind, Option.bind_eq_some_iff] at h
      obtain ⟨a, ha, b, hb, c, hc, d, hd, e, he, f, hf, g, hg, h⟩ := h
      split_ifs at h with hvalid
      obtain rfl := Option.some.inj h
      simp only [Bool.not_eq_true', Bool.not_eq_false] at hvalid
      exact ⟨⟨⟨hchecks.1, hchecks.2.1, ha, hb, hc, hd, he, hf, hg⟩, hchecks.2.2⟩, hvalid⟩
    · rintro ⟨⟨⟨hm, hv, ha, hb, hc, hd, he, hf, hg⟩, hcrc⟩, hvalid⟩
      rw [if_neg (by simp [hl, hm, hv, hcrc])]
      simp only [ha, hb, hc, hd, he, hf, hg, Option.bind_eq_bind, Option.bind_some]
      rw [if_neg (by simp [hvalid])]
  · constructor
    · intro h
      rw [decode, if_pos (.inl hl)] at h
      cases h
    · rintro ⟨rfl, -⟩
      exact absurd length_encode hl

end Header

end Cache2
