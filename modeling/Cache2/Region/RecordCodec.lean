import Cache2.Lib.Framing
import Cache2.Region.Manager
import Cache2.Region.Record

set_option relaxedAutoImplicit false
set_option autoImplicit false

/-!
# Encoding a value

The record of a value is its header, its key, its value and a tail up to the length that the header
names (`region/record/codec.rs`). The encoder writes it into the bytes that were reserved for it; a
reinsertion keeps the logical number of the value that it copies. The last record of a span is
extended in place when the span is flushed: its tail grows and its header is written again.

A record delimits itself, since its header begins with a checked length. So the bytes of a Region
determine its records.

## Main definitions

* `Cache2.ValueRecord`, `Cache2.ValueRecord.bytes` — a record and its bytes.
* `Cache2.RecordPayload` — a key and a value with their checksum.
* `Cache2.encodeValueIntoHashed`, `Cache2.encodeReinsertIntoHashed` — the encoders.
* `Cache2.extendRecord` — the extension of the last record of a span.

## Main results

* `Cache2.ValueRecord.selfDelimiting` — the beginning of a text tells the record.
* `Cache2.ValueRecord.bytes_iff` — what a text that begins with a record looks like to a reader.
* `Cache2.encodeValueIntoHashedWithSeqno_ok` — the bytes that are written are those of a record.
* `Cache2.extendRecord_bytes` — extending a record gives the bytes of one with a longer tail.
-/

namespace Cache2

open Bytes Loop Framing

/-! ## Definitions -/

/-- The record of a value, as it lies in a Region. -/
structure ValueRecord where
  keyHash : Hash
  seqno : BitVec 64
  generation : BitVec 64
  key : List UInt8
  value : List UInt8
  /-- What follows the value, up to the length of the record. -/
  tail : List UInt8
  key_le : key.length ≤ maxKeySize
  seqno_ne : seqno ≠ 0
  generation_ne : generation ≠ 0
  aligned : (recordHeaderSize + key.length + value.length + tail.length) % recordAlignment = 0
  length_le : recordHeaderSize + key.length + value.length + tail.length ≤ maxRecordLen

namespace ValueRecord

/-- The length of a record. -/
def recordLen (record : ValueRecord) : ℕ :=
  recordHeaderSize + record.key.length + record.value.length + record.tail.length

/-- The header of a record. -/
def header (crc : List UInt8 → BitVec 32) (record : ValueRecord) : RecordHeader :=
  { keyLen := .ofNat 16 record.key.length
    valueLen := .ofNat 32 record.value.length
    seqno := record.seqno
    keyHash := record.keyHash
    payloadCrc := crc32c crc [record.key, record.value]
    regionGeneration := record.generation
    recordLen := .ofNat 32 record.recordLen }

/-- The bytes of a record. -/
def bytes (crc : List UInt8 → BitVec 32) (record : ValueRecord) : List UInt8 :=
  (record.header crc).encode crc ++ (record.key ++ (record.value ++ record.tail))

end ValueRecord

/-- `RecordPayload`: a key and a value with their checksum. -/
structure RecordPayload (crc : List UInt8 → BitVec 32) where
  key : List UInt8
  value : List UInt8
  checksum : BitVec 32
  checksum_eq : checksum = crc32c crc [key, value]

namespace RecordPayload

variable {crc : List UInt8 → BitVec 32}

/-- `RecordPayload::new`. -/
def new (crc : List UInt8 → BitVec 32) (key value : List UInt8) : RecordPayload crc :=
  ⟨key, value, crc32c crc [key, value], rfl⟩

/-- `RecordPayload::validate`. -/
def validate (crc : List UInt8 → BitVec 32) (key value : List UInt8) (expected : BitVec 32) :
    Option (RecordPayload crc) :=
  let payload := new crc key value
  if payload.checksum = expected then some payload else none

end RecordPayload

section Encode

variable {crc : List UInt8 → BitVec 32}

/-- `encode_value_into_hashed_with_seqno`: the bytes of the destination afterwards, and the entry
for the index. -/
def encodeValueIntoHashedWithSeqno (destination : List UInt8)
    (reservation : RegionAppendReservation) (hash : Hash) (required : ℕ)
    (payload : RecordPayload crc) (logicalSeqno : ℕ) :
    Except RecordEncodeError (List UInt8 × IndexEntry) :=
  let tooSmall := .reservationTooSmall required reservation.recordBytes
  if destination.length ≠ reservation.recordBytes then
    .error (.destinationLengthMismatch reservation.recordBytes destination.length)
  else if reservation.recordBytes < required then .error tooSmall
  else if reservation.regionCreatedSeqno = 0 ∨
      reservation.seqno < reservation.regionCreatedSeqno ∨
      reservation.offset % recordAlignment ≠ 0 then .error .invalidReservation
  else do
    let location ← (PackedLocation.new reservation.regionId reservation.offset
      reservation.recordBytes).mapError .invalidLocation
    if 2 ^ 32 ≤ payload.value.length then .error .lengthOverflow
    else if 2 ^ 16 ≤ payload.key.length then .error .keyTooLarge
    else do
      let payloadEnd ← ((Word.checkedAdd 64 recordHeaderSize payload.key.length).bind fun finish =>
        Word.checkedAdd 64 finish payload.value.length).elim (.error .lengthOverflow) .ok
      if destination.length < payloadEnd then .error tooSmall
      else
        let valueStart := recordHeaderSize + payload.key.length
        let header : RecordHeader :=
          { keyLen := .ofNat 16 payload.key.length
            valueLen := .ofNat 32 payload.value.length
            seqno := .ofNat 64 logicalSeqno
            keyHash := hash
            payloadCrc := payload.checksum
            regionGeneration := .ofNat 64 reservation.regionCreatedSeqno
            recordLen := .ofNat 32 reservation.recordBytes }
        let cleared := splice destination payloadEnd
          (List.replicate (destination.length - payloadEnd) 0)
        let withKey := splice cleared recordHeaderSize payload.key
        let withValue := splice withKey valueStart payload.value
        .ok (splice withValue 0 (header.encode crc), ⟨location⟩)

/-- `encode_value_into_hashed`. -/
def encodeValueIntoHashed (destination : List UInt8) (reservation : RegionAppendReservation)
    (hash : Hash) (required : ℕ) (payload : RecordPayload crc) :
    Except RecordEncodeError (List UInt8 × IndexEntry) :=
  encodeValueIntoHashedWithSeqno destination reservation hash required payload reservation.seqno

/-- `encode_reinsert_into_hashed`. -/
def encodeReinsertIntoHashed (destination : List UInt8) (reservation : RegionAppendReservation)
    (hash : Hash) (required : ℕ) (payload : RecordPayload crc) (logicalSeqno : ℕ) :
    Except RecordEncodeError (List UInt8 × IndexEntry) :=
  if logicalSeqno = 0 then .error .invalidReservation
  else encodeValueIntoHashedWithSeqno destination reservation hash required payload logicalSeqno

/-- The extension of the record at `start` in a span: the bytes behind it are cleared, and its
header is written again with the new length. -/
def extendRecord (crc : List UInt8 → BitVec 32) (buffer : List UInt8) (start used padding : ℕ)
    (recordLen : ℕ) : Option (List UInt8) :=
  let cleared := splice buffer used (List.replicate padding 0)
  (RecordHeader.decode crc (slice cleared start recordHeaderSize)).map fun header =>
    splice cleared start ({ header with recordLen := .ofNat 32 recordLen }.encode crc)

end Encode

/-! ## Bytes of a record -/

namespace ValueRecord

variable {crc : List UInt8 → BitVec 32} {record other : ValueRecord}

/-- The parts of a record as bits. -/
lemma toNat_header (crc : List UInt8 → BitVec 32) (record : ValueRecord) :
    ((record.header crc).keyLen.toNat = record.key.length) ∧
    ((record.header crc).valueLen.toNat = record.value.length) ∧
    ((record.header crc).recordLen.toNat = record.recordLen) := by
  have hkey := record.key_le
  have hlen := record.length_le
  unfold maxKeySize at hkey
  unfold maxRecordLen recordLenMask recordLenAlignment recordHeaderSize at hlen
  simp only [header, recordLen, BitVec.toNat_ofNat, recordHeaderSize]
  omega

/-- A record is longer than its header. -/
lemma recordHeaderSize_le (record : ValueRecord) : 48 ≤ record.recordLen := by
  unfold recordLen recordHeaderSize
  omega

/-- The bytes of a record are as many as its header says. -/
@[simp] lemma length_bytes (record : ValueRecord) :
    (record.bytes crc).length = record.recordLen := by
  simp only [bytes, List.length_append, RecordHeader.length_encode, recordLen, recordHeaderSize]
  omega

/-- No record is longer than the limit. -/
lemma recordLen_le (record : ValueRecord) : record.recordLen ≤ maxRecordLen := by
  unfold recordLen
  exact record.length_le

/-- The length of a record is one that a location can have. -/
lemma validRecordLen (record : ValueRecord) : ValidRecordLen record.recordLen :=
  ⟨by have := record.recordHeaderSize_le; omega, record.recordLen_le, record.aligned⟩

/-- The lengths in the header of a record fit together. -/
lemma hasValidLengths (crc : List UInt8 → BitVec 32) (record : ValueRecord) :
    (record.header crc).hasValidLengths = true := by
  obtain ⟨hkey, hvalue, hrecord⟩ := record.toNat_header crc
  rw [RecordHeader.hasValidLengths_iff, hkey, hvalue, hrecord]
  refine ⟨record.key_le, record.generation_ne, record.seqno_ne, ?_, record.aligned⟩
  unfold recordLen recordHeaderSize
  omega

/-- The header of a record is decoded from its bytes. -/
lemma decode_bytes (crc : List UInt8 → BitVec 32) (record : ValueRecord) (rest : List UInt8) :
    RecordHeader.decode crc ((record.bytes crc ++ rest).take 48) = some (record.header crc) := by
  rw [RecordHeader.decode_eq_some_iff]
  refine ⟨?_, record.hasValidLengths crc⟩
  rw [bytes, List.append_assoc, List.take_left' RecordHeader.length_encode]

/-- What a record consists of besides its header. -/
lemma slice_bytes (crc : List UInt8 → BitVec 32) (record : ValueRecord) (rest : List UInt8) :
    slice (record.bytes crc ++ rest) 48 record.key.length = record.key ∧
      slice (record.bytes crc ++ rest) (48 + record.key.length) record.value.length =
        record.value ∧
      slice (record.bytes crc ++ rest) (48 + record.key.length + record.value.length)
        record.tail.length = record.tail := by
  have hheader : ((record.header crc).encode crc).length = 48 := RecordHeader.length_encode
  have hdrop : ∀ n, (record.bytes crc ++ rest).drop (48 + n) =
      (record.key ++ (record.value ++ record.tail) ++ rest).drop n := by
    intro n
    rw [← List.drop_drop, bytes, List.append_assoc, List.drop_left' hheader]
  refine ⟨?_, ?_, ?_⟩
  · rw [slice, ← Nat.add_zero 48, hdrop, List.drop_zero, List.append_assoc, List.take_left]
  · rw [slice, hdrop, List.append_assoc, List.drop_left, List.append_assoc, List.take_left]
  · rw [slice, Nat.add_assoc, hdrop, ← List.drop_drop, List.append_assoc, List.drop_left,
      List.append_assoc, List.drop_left, List.take_left]

/-- A record is determined by its header, key, value and tail. -/
lemma ext_header (crc : List UInt8 → BitVec 32)
    (hheader : record.header crc = other.header crc) (hkey : record.key = other.key)
    (hvalue : record.value = other.value)
    (htail : record.tail = other.tail) : record = other := by
  cases record
  cases other
  simp only [header, RecordHeader.mk.injEq] at hheader
  obtain ⟨-, -, hseqno, hhash, -, hgeneration, -⟩ := hheader
  simp only at hkey hvalue htail
  subst hkey hvalue htail hseqno hhash hgeneration
  rfl

/-- **Records delimit themselves.** The beginning of a text tells which record it is. -/
theorem selfDelimiting (crc : List UInt8 → BitVec 32) : SelfDelimiting (bytes crc) where
  ne_nil record := by
    have := record.recordHeaderSize_le
    rw [ne_eq, ← List.length_eq_zero_iff, length_bytes]
    omega
  prefix_inj := by
    intro a b x y h
    have hheader : a.header crc = b.header crc := by
      have hdecode := a.decode_bytes crc x
      rw [h, b.decode_bytes crc y] at hdecode
      exact (Option.some.inj hdecode).symm
    obtain ⟨hkeyLen, hvalueLen, hrecordLen⟩ := a.toNat_header crc
    obtain ⟨hkeyLen', hvalueLen', hrecordLen'⟩ := b.toNat_header crc
    rw [hheader] at hkeyLen hvalueLen hrecordLen
    have hkeys : a.key.length = b.key.length := hkeyLen.symm.trans hkeyLen'
    have hvalues : a.value.length = b.value.length := hvalueLen.symm.trans hvalueLen'
    have htails : a.tail.length = b.tail.length := by
      have hlen : a.recordLen = b.recordLen := hrecordLen.symm.trans hrecordLen'
      unfold recordLen at hlen
      omega
    obtain ⟨hkey, hvalue, htail⟩ := a.slice_bytes crc x
    obtain ⟨hkey', hvalue', htail'⟩ := b.slice_bytes crc y
    rw [h, hkeys] at hkey hvalue htail
    rw [hvalues] at hvalue htail
    rw [htails] at htail
    exact ext_header crc hheader (hkey.symm.trans hkey') (hvalue.symm.trans hvalue')
      (htail.symm.trans htail')

/-- **Reading records.** A text begins with a record exactly when it begins with a header whose
length is within the text and within the limit, and whose checksum is that of the payload. -/
theorem bytes_iff {text : List UInt8} {h : RecordHeader} :
    (∃ (record : ValueRecord) (rest : List UInt8), text = record.bytes crc ++ rest ∧
        record.header crc = h) ↔
      RecordHeader.decode crc (text.take 48) = some h ∧ h.recordLen.toNat ≤ text.length ∧
        h.recordLen.toNat ≤ maxRecordLen ∧
        h.payloadCrc = crc32c crc [slice text 48 h.keyLen.toNat,
          slice text (48 + h.keyLen.toNat) h.valueLen.toNat] := by
  constructor
  · rintro ⟨record, rest, htext, hheader⟩
    obtain ⟨hkey, hvalue, hrecord⟩ := record.toNat_header crc
    obtain ⟨hkey', hvalue', -⟩ := record.slice_bytes crc rest
    have hdecode := record.decode_bytes crc rest
    have hcrc : (record.header crc).payloadCrc = crc32c crc [record.key, record.value] := rfl
    rw [← htext] at hkey' hvalue' hdecode
    rw [hheader] at hkey hvalue hrecord hdecode hcrc
    have hlen : text.length = record.recordLen + rest.length := by
      rw [htext, List.length_append, length_bytes]
    have hmax := record.recordLen_le
    rw [hkey, hvalue, hrecord, hkey', hvalue']
    exact ⟨hdecode, by omega, hmax, hcrc⟩
  · rintro ⟨hdecode, hle, hmax, hcrc⟩
    obtain ⟨htext, hvalid⟩ := RecordHeader.decode_eq_some_iff.1 hdecode
    obtain ⟨hkeyLe, hgeneration, hseqno, hlen, hmod⟩ := RecordHeader.hasValidLengths_iff.1 hvalid
    -- the record that the parts of the text make up
    have hk : (slice text 48 h.keyLen.toNat).length = h.keyLen.toNat := length_slice (by omega)
    have hv : (slice text (48 + h.keyLen.toNat) h.valueLen.toNat).length = h.valueLen.toNat :=
      length_slice (by omega)
    obtain ⟨n, hn⟩ : ∃ n, h.recordLen.toNat = 48 + h.keyLen.toNat + h.valueLen.toNat + n :=
      ⟨_, (Nat.add_sub_cancel' hlen).symm⟩
    have ht : (slice text (48 + h.keyLen.toNat + h.valueLen.toNat) n).length = n :=
      length_slice (by omega)
    have hsum : recordHeaderSize + (slice text 48 h.keyLen.toNat).length +
        (slice text (48 + h.keyLen.toNat) h.valueLen.toNat).length +
        (slice text (48 + h.keyLen.toNat + h.valueLen.toNat) n).length = h.recordLen.toNat := by
      rw [hk, hv, ht, hn, recordHeaderSize]
    let record : ValueRecord :=
      { keyHash := h.keyHash
        seqno := h.seqno
        generation := h.regionGeneration
        key := slice text 48 h.keyLen.toNat
        value := slice text (48 + h.keyLen.toNat) h.valueLen.toNat
        tail := slice text (48 + h.keyLen.toNat + h.valueLen.toNat) n
        key_le := hk.trans_le hkeyLe
        seqno_ne := hseqno
        generation_ne := hgeneration
        aligned := (congrArg (· % recordAlignment) hsum).trans hmod
        length_le := hsum.trans_le hmax }
    have hheader : record.header crc = h := by
      have hrecordLen : record.recordLen = h.recordLen.toNat := hsum
      rw [header, hrecordLen]
      simp only [record, hk, hv, BitVec.ofNat_toNat, BitVec.setWidth_eq, ← hcrc]
    refine ⟨record, text.drop h.recordLen.toNat, ?_, hheader⟩
    rw [bytes, hheader, ← htext, hn]
    have hsplit : ∀ off len, text.drop off = slice text off len ++ text.drop (off + len) := by
      intro off len
      rw [slice, ← List.drop_drop, List.take_append_drop]
    rw [List.append_assoc, List.append_assoc, List.append_assoc, ← hsplit, ← hsplit, ← hsplit,
      List.take_append_drop]

/-- A text of records is as long as a multiple of the alignment of records. -/
lemma text_aligned (crc : List UInt8 → BitVec 32) (records : List ValueRecord) :
    (text (bytes crc) records).length % 32 = 0 := by
  induction records with
  | nil => rfl
  | cons record records ih =>
    have := record.validRecordLen.2.2
    unfold recordLenAlignment at this
    rw [text_cons, List.length_append, length_bytes]
    omega

/-- Records begin at multiples of the alignment of records. -/
lemma offset_aligned {records : List ValueRecord} {offset : ℕ}
    (h : At (bytes crc) records offset record) : offset % 32 = 0 := by
  obtain ⟨before, after, -, rfl⟩ := h
  exact text_aligned crc before

/-- A record with a longer tail. -/
def padded (record : ValueRecord) (padding : ℕ) (haligned : padding % 32 = 0)
    (hle : record.recordLen + padding ≤ maxRecordLen) : ValueRecord :=
  { record with
    tail := record.tail ++ List.replicate padding 0
    aligned := by
      have := record.aligned
      unfold recordAlignment at *
      rw [List.length_append, List.length_replicate]
      omega
    length_le := by
      unfold recordLen at hle
      rw [List.length_append, List.length_replicate]
      omega }

/-- The length of a record with a longer tail. -/
lemma recordLen_padded {padding : ℕ} (haligned : padding % 32 = 0)
    (hle : record.recordLen + padding ≤ maxRecordLen) :
    (record.padded padding haligned hle).recordLen = record.recordLen + padding := by
  simp only [recordLen, padded, List.length_append, List.length_replicate]
  omega

end ValueRecord

/-! ## What the encoders write -/

section Encoders

variable {crc : List UInt8 → BitVec 32}

/-- A validated payload is the one that was to be validated. -/
lemma RecordPayload.validate_eq_some {key value : List UInt8} {expected : BitVec 32}
    {payload : RecordPayload crc} :
    RecordPayload.validate crc key value expected = some payload ↔
      crc32c crc [key, value] = expected ∧ payload = .new crc key value := by
  rw [validate, Option.ite_none_right_eq_some, Option.some.injEq, eq_comm (a := payload)]
  rfl

/-- **Encoding.** The encoder succeeds on a reservation of the required length, and what it writes
is the record of the payload, with a tail of zeroes. -/
theorem encodeValueIntoHashedWithSeqno_ok {destination : List UInt8}
    {reservation : RegionAppendReservation} {required logicalSeqno : ℕ} (hash : Hash)
    (payload : RecordPayload crc)
    (hrequired : requiredRecordBytes payload.key.length payload.value.length = .ok required)
    (hdestination : destination.length = reservation.recordBytes)
    (hreserved : required ≤ reservation.recordBytes)
    (hcreated : reservation.regionCreatedSeqno ≠ 0)
    (hseqno : reservation.regionCreatedSeqno ≤ reservation.seqno)
    (hword : reservation.seqno < 2 ^ 64) (hlogical : logicalSeqno ≠ 0)
    (hlogicalWord : logicalSeqno < 2 ^ 64)
    (hfields : PackedLocation.ValidFields reservation.regionId reservation.offset
      reservation.recordBytes) :
    ∃ (record : ValueRecord) (location : PackedLocation),
      encodeValueIntoHashedWithSeqno destination reservation hash required payload logicalSeqno =
        .ok (record.bytes crc, ⟨location⟩) ∧
      PackedLocation.new reservation.regionId reservation.offset reservation.recordBytes =
        .ok location ∧
      record.keyHash = hash ∧ record.key = payload.key ∧ record.value = payload.value ∧
      record.seqno = .ofNat 64 logicalSeqno ∧
      record.generation = .ofNat 64 reservation.regionCreatedSeqno ∧
      record.recordLen = reservation.recordBytes := by
  obtain ⟨hkey, hrequired, hmax⟩ := requiredRecordBytes_eq_ok.1 hrequired
  obtain ⟨location, hlocation, -⟩ := PackedLocation.new_eq_ok hfields
  obtain ⟨-, hoffset, -, -, hlenMax, hlenMod⟩ := hfields
  unfold maxKeySize at hkey
  unfold recordLenAlignment at hlenMod
  have hmax32 : maxRecordLen < 2 ^ 32 := by decide
  -- the record
  have hsum : recordHeaderSize + payload.key.length + payload.value.length +
      (List.replicate (reservation.recordBytes -
        (recordHeaderSize + payload.key.length + payload.value.length)) (0 : UInt8)).length =
      reservation.recordBytes := by
    rw [List.length_replicate, recordHeaderSize]
    omega
  have hne : ∀ n : ℕ, n ≠ 0 → n < 2 ^ 64 → BitVec.ofNat 64 n ≠ 0 := by
    intro n hn hlt heq
    rw [← BitVec.toNat_inj, BitVec.toNat_ofNat, Nat.mod_eq_of_lt hlt] at heq
    exact hn heq
  let record : ValueRecord :=
    { keyHash := hash
      seqno := .ofNat 64 logicalSeqno
      generation := .ofNat 64 reservation.regionCreatedSeqno
      key := payload.key
      value := payload.value
      tail := List.replicate (reservation.recordBytes -
        (recordHeaderSize + payload.key.length + payload.value.length)) 0
      key_le := hkey
      seqno_ne := hne _ hlogical hlogicalWord
      generation_ne := hne _ hcreated (by omega)
      aligned := (congrArg (· % recordAlignment) hsum).trans hlenMod
      length_le := hsum.trans_le hlenMax }
  have hrecordLen : record.recordLen = reservation.recordBytes := hsum
  refine ⟨record, location, ?_, hlocation, rfl, rfl, rfl, rfl, rfl, hrecordLen⟩
  have hend : ((Word.checkedAdd 64 recordHeaderSize payload.key.length).bind fun finish =>
      Word.checkedAdd 64 finish payload.value.length) =
        some (48 + payload.key.length + payload.value.length) := by
    rw [recordHeaderSize, Word.checkedAdd_of_lt (by omega), Option.bind_some,
      Word.checkedAdd_of_lt (by omega)]
  rw [encodeValueIntoHashedWithSeqno, if_neg (not_not.2 hdestination), if_neg (by omega),
    if_neg (by unfold offsetAlignment at hoffset; unfold recordAlignment; omega), hlocation]
  simp only [Except.mapError, bind, Except.bind]
  rw [if_neg (by omega), if_neg (by omega), hend]
  simp only [Option.elim_some]
  rw [if_neg (by omega)]
  have hheader : ({ keyLen := .ofNat 16 payload.key.length
                    valueLen := .ofNat 32 payload.value.length
                    seqno := .ofNat 64 logicalSeqno
                    keyHash := hash
                    payloadCrc := payload.checksum
                    regionGeneration := .ofNat 64 reservation.regionCreatedSeqno
                    recordLen := .ofNat 32 reservation.recordBytes } : RecordHeader) =
      record.header crc := by
    rw [ValueRecord.header, hrecordLen, payload.checksum_eq]
  rw [hheader]
  have hlen : ((record.header crc).encode crc).length = 48 := RecordHeader.length_encode
  refine congrArg Except.ok (Prod.ext ?_ rfl)
  -- the four copies, one after another, fill the destination
  have hcleared : splice destination (48 + payload.key.length + payload.value.length)
      (List.replicate (destination.length - (48 + payload.key.length + payload.value.length)) 0) =
      destination.take (48 + payload.key.length + payload.value.length) ++ record.tail := by
    have htail : record.tail = List.replicate (destination.length -
        (48 + payload.key.length + payload.value.length)) 0 := by
      rw [hdestination]
      rfl
    rw [splice, htail, List.drop_eq_nil_of_le (by rw [List.length_replicate]; omega),
      List.append_nil]
  simp only [recordHeaderSize, hcleared]
  have htake : (destination.take (48 + payload.key.length + payload.value.length)).length =
      48 + payload.key.length + payload.value.length := by
    rw [List.length_take]
    omega
  rw [splice_append _ _ (by simp only [List.length_append]; omega), splice, hlen, List.take_zero,
    List.nil_append, Nat.zero_add, ValueRecord.bytes]
  refine congrArg (((record.header crc).encode crc) ++ ·) ?_
  rw [drop_splice_self _ (by simp only [List.length_append]; omega), List.length_append,
    ← Nat.add_assoc, List.drop_left' htake, List.append_assoc]

variable (crc) in
/-- **Extension.** Extending the last record of a span gives the span with the same record, except
that it has a longer tail. -/
theorem extendRecord_bytes (record : ValueRecord) (before rest : List UInt8) {padding : ℕ}
    (haligned : padding % 32 = 0) (hle : record.recordLen + padding ≤ maxRecordLen)
    (hroom : padding ≤ rest.length) :
    extendRecord crc (before ++ (record.bytes crc ++ rest)) before.length
        (before.length + record.recordLen) padding (record.recordLen + padding) =
      some (before ++ ((record.padded padding haligned hle).bytes crc ++ rest.drop padding)) := by
  obtain ⟨zeroes, hzeroes⟩ : ∃ zeroes, zeroes = List.replicate padding (0 : UInt8) := ⟨_, rfl⟩
  have hlen : zeroes.length = padding := by rw [hzeroes, List.length_replicate]
  -- the bytes behind the record are cleared
  have hcleared : splice (before ++ (record.bytes crc ++ rest)) (before.length + record.recordLen)
      zeroes = before ++ (record.bytes crc ++ (zeroes ++ rest.drop padding)) := by
    have hsplit : before ++ (record.bytes crc ++ rest) =
        (before ++ record.bytes crc) ++ (rest.take padding ++ rest.drop padding) := by
      rw [List.take_append_drop, List.append_assoc]
    have hat : before.length + record.recordLen = (before ++ record.bytes crc).length := by
      rw [List.length_append, ValueRecord.length_bytes]
    rw [hsplit, hat, splice_middle _ _ (by rw [List.length_take, hlen]; omega), List.append_assoc]
  -- the header is that of the record
  have hheader : ((record.header crc).encode crc).length = 48 := RecordHeader.length_encode
  have hdecode : RecordHeader.decode crc (slice (before ++ (record.bytes crc ++ (zeroes ++
      rest.drop padding))) before.length recordHeaderSize) = some (record.header crc) := by
    have := record.decode_bytes crc (zeroes ++ rest.drop padding)
    rwa [slice, List.drop_left]
  have hnew : ({ record.header crc with recordLen := .ofNat 32 (record.recordLen + padding) } :
      RecordHeader) = (record.padded padding haligned hle).header crc := by
    rw [ValueRecord.header, ValueRecord.header, ValueRecord.recordLen_padded]
    rfl
  rw [extendRecord, ← hzeroes]
  rw [hcleared, hdecode, Option.map_some, hnew, ValueRecord.bytes, ValueRecord.bytes,
    List.append_assoc ((record.header crc).encode crc), splice_middle _ _ (hheader.trans
      RecordHeader.length_encode.symm)]
  simp only [ValueRecord.padded, ← hzeroes, List.append_assoc]

end Encoders

end Cache2
