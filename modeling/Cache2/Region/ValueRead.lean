import Cache2.Region.Reader
import Cache2.Region.RecordCodec
import Cache2.Region.Store

set_option relaxedAutoImplicit false
set_option autoImplicit false

/-!
# Reading a value

A point read gets the bytes of the range that `describe_read` has chosen (`region/reader.rs`), and
`finish_value_read` (`region/mod.rs`) decides whether they are a record of the key. The index may
be stale and its entry may belong to another key, so that everything is checked again: the header,
the generation of the Region, the hash, the size class, the key and the checksum.

What does not fit is a miss. Only an I/O error that is not pressure ends the health of the store.

## Main definitions

* `Cache2.ReadCompletion`, `Cache2.PendingRead.finish` — what the device has answered.
* `Cache2.RegionStore.finishValueRead` — the decision.
* `Cache2.IsRecordOf` — the bytes begin with a record of the key.

## Main results

* `Cache2.finishValueRead_eq_some_iff` — a value is returned exactly for such bytes.
* `Cache2.pointRead_exact` — the same for a read from its description to its value.
-/

namespace Cache2

open Bytes Loop Framing

/-! ## Definitions -/

/-- The kinds of errors that a read can meet. -/
inductive ReadErrorKind
  | outOfMemory
  | wouldBlock
  | timedOut
  | interrupted
  | brokenPipe
  | invalidData
  | unexpectedEof
  | other
  deriving DecidableEq, Repr

/-- An error of a read. -/
structure ReadError where
  kind : ReadErrorKind
  message : String
  deriving DecidableEq, Repr

/-- `is_read_pressure`. -/
def isReadPressure : ReadErrorKind → Bool
  | .outOfMemory | .wouldBlock | .timedOut | .interrupted | .brokenPipe => true
  | _ => false

/-- `prepared`: the first bytes of a buffer, if as many have been initialized. -/
def preparedBytes (buffer : List UInt8) (length : ℕ) : Option (List UInt8) :=
  if buffer.length < length then none else some (buffer.take length)

/-- `slice::get` with a range. -/
def getRange (bytes : List UInt8) (first last : ℕ) : Option (List UInt8) :=
  if last < first ∨ bytes.length < last then none else some (slice bytes first (last - first))

/-- `OperationKind`. -/
inductive OperationKind
  | read
  | write
  deriving DecidableEq, Repr

/-- `IoCompletion`, with the result of `into_lease`. -/
structure IoCompletion where
  requestId : ℕ
  kind : OperationKind
  result : Except ReadError ℕ
  bytesTransferred : ℕ
  buffer : Option (List UInt8)

/-- `ReadCompletion`. -/
structure ReadCompletion where
  desc : ReadDesc
  result : Except ReadError Unit
  buffer : Option (List UInt8)

/-- `record_bytes`. -/
def ReadCompletion.recordBytes (completion : ReadCompletion) : Option (List UInt8) :=
  match completion.result with
  | .error _ => none
  | .ok _ => completion.buffer.bind fun buffer =>
    (preparedBytes buffer completion.desc.readLen).bind fun bytes =>
      getRange bytes completion.desc.recordStart completion.desc.recordEnd

/-- `PendingRead::finish`: a completion, or the error of a deadline with the buffer. -/
def PendingRead.finish (desc : ReadDesc) (requestId : ℕ) :
    Except (ReadError × Option (List UInt8)) IoCompletion → ReadCompletion
  | .error (error, buffer) => ⟨desc, .error error, buffer⟩
  | .ok completion =>
    let protocolError : Option String :=
      if completion.requestId ≠ requestId ∨ completion.kind ≠ .read then
        some "Region record completion identity does not match its request"
      else
        match completion.buffer with
        | none => some "Region record completion did not return its owned buffer"
        | some buffer =>
          if preparedBytes buffer desc.readLen = none then
            some "Region record completion returned a short buffer"
          else none
    let result : Except ReadError Unit :=
      match protocolError with
      | some message => .error ⟨.invalidData, message⟩
      | none => completion.result.bind fun completed =>
        if completed ≠ desc.readLen ∨ completion.bytesTransferred ≠ desc.readLen then
          .error ⟨.unexpectedEof, "Region record read completed with the wrong byte count"⟩
        else .ok ()
    ⟨desc, result, completion.buffer⟩

/-- `RegionValue`, with the two ends of its range. -/
structure RegionValue where
  buffer : List UInt8
  bufferLen : ℕ
  valueStart : ℕ
  valueEnd : ℕ
  seqno : ℕ
  deriving DecidableEq, Repr

/-- `value`. -/
def RegionValue.value (value : RegionValue) : List UInt8 :=
  slice (value.buffer.take value.bufferLen) value.valueStart (value.valueEnd - value.valueStart)

namespace RegionStore

/-- `enter_miss_only_with_error`, and the error. -/
def failRead {α : Type} (error : ReadError) : EStateM ReadError RegionStore α := do
  modify fun s => { s with healthy := false }
  throw error

/-- `finish_value_read` on the bytes of the range: the ends of the value behind the beginning of
the record, and the number of the record. -/
def matchRecord (crc : List UInt8 → BitVec 32) (desc : ReadDesc) (record key : List UInt8) :
    Option (ℕ × ℕ × ℕ) := do
  let header ← (getRange record 0 recordHeaderSize).bind (RecordHeader.decode crc)
  guard (header.regionGeneration.toNat = desc.regionGeneration ∧ header.keyHash = desc.hash)
  let indexed := desc.entry.location
  let exact ← (PackedLocation.new indexed.regionId indexed.offset header.recordLen.toNat).toOption
  guard (indexed.indexEquivalent exact = true)
  let record ← getRange record 0 header.recordLen.toNat
  let keyLen := header.keyLen.toNat
  let valueLen := header.valueLen.toNat
  let payloadEnd ← (Word.checkedAdd 64 recordHeaderSize keyLen).bind fun finish =>
    (Word.checkedAdd 64 finish valueLen).filter (· ≤ record.length)
  guard (slice record recordHeaderSize keyLen = key)
  guard (crc32c crc [slice record recordHeaderSize (payloadEnd - recordHeaderSize)] =
    header.payloadCrc)
  let valueStart := desc.recordStart + recordHeaderSize + keyLen
  let valueEnd ← Word.checkedAdd 64 valueStart valueLen
  pure (valueStart, valueEnd, header.seqno.toNat)

/-- `finish_value_read`. -/
def finishValueRead (crc : List UInt8 → BitVec 32) (completion : ReadCompletion)
    (key : List UInt8) : EStateM ReadError RegionStore (Option RegionValue) :=
  match completion.result with
  | .error error => if isReadPressure error.kind then throw error else failRead error
  | .ok _ =>
    match completion.recordBytes with
    | none => failRead ⟨.invalidData, "record completion lost its bounded candidate range"⟩
    | some record =>
      match matchRecord crc completion.desc record key with
      | none => pure none
      | some (valueStart, valueEnd, seqno) =>
        match completion.buffer with
        | none => failRead ⟨.invalidData, "validated Region read lost its owned buffer"⟩
        | some buffer =>
          pure (some ⟨buffer, completion.desc.readLen, valueStart, valueEnd, seqno⟩)

end RegionStore

/-! ## What is returned -/

/-- The bytes begin with a record of the key, of the generation and the size class that the read
is for. -/
def IsRecordOf (crc : List UInt8 → BitVec 32) (desc : ReadDesc) (key bytes : List UInt8)
    (record : ValueRecord) : Prop :=
  (∃ rest, bytes = record.bytes crc ++ rest) ∧ record.key = key ∧ record.keyHash = desc.hash ∧
    record.generation.toNat = desc.regionGeneration ∧
    recordSizeClass record.recordLen = some desc.entry.location.indexSizeClass

section MatchRecord

variable {crc : List UInt8 → BitVec 32} {desc : ReadDesc} {key bytes : List UInt8}

/-- A range from the beginning. -/
lemma getRange_zero {n : ℕ} {out : List UInt8} :
    getRange bytes 0 n = some out ↔ n ≤ bytes.length ∧ out = bytes.take n := by
  rw [getRange, slice, List.drop_zero, Nat.sub_zero]
  split_ifs with h
  · simp only [false_iff]
    omega
  · rw [Option.some.injEq, eq_comm]
    exact ⟨fun heq => ⟨by omega, heq⟩, fun heq => heq.2⟩

/-- A test that stops. -/
lemma ite_failure_eq_some {p : Prop} [Decidable p] {u : Unit} :
    (if p then some () else failure) = some u ↔ p := by
  split_ifs with h <;> simp [h]

/-- A length that has a class is one that a location can have. -/
lemma validRecordLen_of_sizeClass {n c : ℕ} (h : recordSizeClass n = some c) :
    ValidRecordLen n := by
  unfold recordSizeClass at h
  split_ifs at h with hbad
  exact ⟨by omega, by omega, by omega⟩

/-- The checks, as facts about the header of the range. -/
lemma matchRecord_header_iff (hlt : desc.recordStart + bytes.length < 2 ^ 64) {out : ℕ × ℕ × ℕ} :
    RegionStore.matchRecord crc desc bytes key = some out ↔
      ∃ h : RecordHeader, RecordHeader.decode crc (bytes.take 48) = some h ∧
        (h.regionGeneration.toNat = desc.regionGeneration ∧ h.keyHash = desc.hash) ∧
        recordSizeClass h.recordLen.toNat = some desc.entry.location.indexSizeClass ∧
        h.recordLen.toNat ≤ bytes.length ∧ slice bytes 48 h.keyLen.toNat = key ∧
        h.payloadCrc = crc32c crc [slice bytes 48 h.keyLen.toNat,
          slice bytes (48 + h.keyLen.toNat) h.valueLen.toNat] ∧
        out = (desc.recordStart + 48 + h.keyLen.toNat,
          desc.recordStart + 48 + h.keyLen.toNat + h.valueLen.toNat, h.seqno.toNat) := by
  have hfields := desc.entry.location.validFields
  simp only [RegionStore.matchRecord, bind, Option.bind_eq_some_iff, guard, pure,
    ite_failure_eq_some]
  refine exists_congr fun h => ?_
  have hkeyWord := h.keyLen.isLt
  have hvalueWord := h.valueLen.isLt
  have hparts : crc32c crc [slice bytes 48 h.keyLen.toNat,
      slice bytes (48 + h.keyLen.toNat) h.valueLen.toNat] =
        crc32c crc [slice bytes 48 (h.keyLen.toNat + h.valueLen.toNat)] := by
    rw [slice_add, crc32c, crc32c]
    simp
  have htake : ∀ n off len, off + len ≤ n →
      slice (bytes.take n) off len = slice bytes off len := by
    intro n off len hle
    rw [show bytes.take n = slice bytes 0 n by rw [slice, List.drop_zero], slice_slice _ hle,
      Nat.zero_add]
  constructor
  · intro hchecks
    obtain ⟨⟨_, hget, hdecode⟩, _, hids, exact, hexact, _, hequiv, _, hrecord, payloadEnd,
      ⟨finish, hfinish, hpayload⟩, _, hkey, _, hcrc, valueEnd, hvalueEnd, hout⟩ := hchecks
    obtain ⟨hhead, rfl⟩ := getRange_zero.1 hget
    obtain ⟨hle, rfl⟩ := getRange_zero.1 hrecord
    obtain ⟨-, hvalid⟩ := RecordHeader.decode_eq_some_iff.1 hdecode
    obtain ⟨-, -, -, hlen, -⟩ := RecordHeader.hasValidLengths_iff.1 hvalid
    rw [Word.checkedAdd_of_lt (by unfold recordHeaderSize; omega)] at hfinish
    obtain rfl := Option.some.inj hfinish
    rw [Word.checkedAdd_of_lt (by unfold recordHeaderSize; omega), Option.filter_some,
      Option.ite_none_right_eq_some, Option.some.injEq] at hpayload
    obtain ⟨-, rfl⟩ := hpayload
    rw [Word.checkedAdd_eq_some] at hvalueEnd
    obtain ⟨-, rfl⟩ := hvalueEnd
    have hsub : recordHeaderSize + h.keyLen.toNat + h.valueLen.toNat - recordHeaderSize =
        h.keyLen.toNat + h.valueLen.toNat := by omega
    rw [htake _ _ _ (by unfold recordHeaderSize; omega)] at hkey
    rw [hsub, htake _ _ _ (by unfold recordHeaderSize; omega)] at hcrc
    refine ⟨hdecode, hids, ?_, hle, hkey, hparts ▸ hcrc.symm, (Option.some.inj hout).symm⟩
    have hnew : PackedLocation.new desc.entry.location.regionId desc.entry.location.offset
        h.recordLen.toNat = .ok exact := by
      cases hresult : PackedLocation.new desc.entry.location.regionId desc.entry.location.offset
        h.recordLen.toNat with
      | ok l =>
        rw [hresult] at hexact
        exact congrArg _ (Option.some.inj hexact)
      | error e =>
        rw [hresult] at hexact
        cases hexact
    obtain ⟨-, -, hclass⟩ := PackedLocation.indexEquivalent_iff.1 hequiv
    obtain ⟨-, -, hfield⟩ := PackedLocation.fields_of_new hnew
    rw [hclass, ← hfield]
    exact exact.recordSizeClass_recordLen
  · intro hfacts
    obtain ⟨hdecode, hids, hclass, hle, hkey, hcrc, hout⟩ := hfacts
    have hvalidLen := validRecordLen_of_sizeClass hclass
    obtain ⟨exact, hnew, hregion, hoffset, hfield⟩ := PackedLocation.new_eq_ok
      ⟨hfields.region_le, hfields.offset_mod, hfields.offset_le, hvalidLen⟩
    obtain ⟨-, hvalid⟩ := RecordHeader.decode_eq_some_iff.1 hdecode
    obtain ⟨-, -, -, hlen, -⟩ := RecordHeader.hasValidLengths_iff.1 hvalid
    refine ⟨⟨_, getRange_zero.2 ⟨?_, rfl⟩, hdecode⟩, (), hids, exact, by rw [hnew]; rfl, (), ?_,
      _, getRange_zero.2 ⟨hle, rfl⟩, recordHeaderSize + h.keyLen.toNat + h.valueLen.toNat,
      ⟨recordHeaderSize + h.keyLen.toNat, ?_, ?_⟩, (), ?_, (), ?_,
      desc.recordStart + 48 + h.keyLen.toNat + h.valueLen.toNat, ?_, ?_⟩
    · unfold recordHeaderSize
      omega
    · rw [PackedLocation.indexEquivalent_iff]
      refine ⟨hregion.symm, hoffset.symm, ?_⟩
      have := exact.recordSizeClass_recordLen
      rw [hfield, hclass] at this
      exact Option.some.inj this
    · exact Word.checkedAdd_of_lt (by unfold recordHeaderSize; omega)
    · rw [Word.checkedAdd_of_lt (by unfold recordHeaderSize; omega), Option.filter_some, if_pos]
      rw [decide_eq_true_eq, List.length_take]
      unfold recordHeaderSize
      omega
    · rw [htake _ _ _ (by unfold recordHeaderSize; omega)]
      exact hkey
    · have hsub : recordHeaderSize + h.keyLen.toNat + h.valueLen.toNat - recordHeaderSize =
          h.keyLen.toNat + h.valueLen.toNat := by omega
      rw [hsub, htake _ _ _ (by unfold recordHeaderSize; omega), hcrc, hparts]
      rfl
    · exact Word.checkedAdd_of_lt (by unfold recordHeaderSize; omega)
    · rw [hout]
      rfl

/-- **Matching.** The range passes exactly when it begins with such a record. -/
theorem matchRecord_eq_some_iff (hlt : desc.recordStart + bytes.length < 2 ^ 64) {out : ℕ × ℕ × ℕ} :
    RegionStore.matchRecord crc desc bytes key = some out ↔
      ∃ record, IsRecordOf crc desc key bytes record ∧
        out = (desc.recordStart + 48 + key.length,
          desc.recordStart + 48 + key.length + record.value.length, record.seqno.toNat) := by
  rw [matchRecord_header_iff hlt]
  constructor
  · intro hchecks
    obtain ⟨h, hdecode, ⟨hgeneration, hhash⟩, hclass, hle, hkey, hcrc, hout⟩ := hchecks
    obtain ⟨-, hmax, -⟩ := validRecordLen_of_sizeClass hclass
    obtain ⟨record, rest, htext, hheader⟩ := ValueRecord.bytes_iff.2 ⟨hdecode, hle, hmax, hcrc⟩
    obtain ⟨hkeyLen, hvalueLen, hrecordLen⟩ := record.toNat_header crc
    obtain ⟨hslice, -⟩ := record.slice_bytes crc rest
    rw [hheader] at hkeyLen hvalueLen hrecordLen
    rw [← htext, ← hkeyLen, hkey] at hslice
    refine ⟨record, ⟨⟨rest, htext⟩, hslice.symm, ?_, ?_, ?_⟩, ?_⟩
    · rw [← hhash, ← hheader, ValueRecord.header]
    · rw [← hgeneration, ← hheader, ValueRecord.header]
    · rw [← hrecordLen]
      exact hclass
    · rw [hout, hkeyLen, hvalueLen, hslice, ← hheader, ValueRecord.header]
  · intro hrecord
    obtain ⟨record, ⟨⟨rest, htext⟩, hkey, hhash, hgeneration, hclass⟩, hout⟩ := hrecord
    obtain ⟨hkeyLen, hvalueLen, hrecordLen⟩ := record.toNat_header crc
    obtain ⟨hdecode, hle, -, hcrc⟩ := ValueRecord.bytes_iff.1 ⟨record, rest, htext, rfl⟩
    obtain ⟨hslice, -⟩ := record.slice_bytes crc rest
    refine ⟨record.header crc, hdecode, ⟨hgeneration, hhash⟩, ?_, hle, ?_, hcrc, ?_⟩
    · rw [hrecordLen]
      exact hclass
    · rw [hkeyLen, htext, hslice, hkey]
    · rw [hout, hkeyLen, hvalueLen, ← hkey, ValueRecord.header]

end MatchRecord

section Finish

variable {crc : List UInt8 → BitVec 32} {completion : ReadCompletion} {key bytes : List UInt8}
  {s : RegionStore}

/-- The bytes of the range are there. -/
lemma ReadCompletion.recordBytes_eq_some (h : completion.recordBytes = some bytes) :
    completion.result = .ok () ∧ ∃ buffer, completion.buffer = some buffer ∧
      completion.desc.readLen ≤ buffer.length ∧
      completion.desc.recordStart ≤ completion.desc.recordEnd ∧
      completion.desc.recordEnd ≤ completion.desc.readLen ∧
      bytes = slice (buffer.take completion.desc.readLen) completion.desc.recordStart
        (completion.desc.recordEnd - completion.desc.recordStart) := by
  rw [recordBytes] at h
  cases hresult : completion.result with
  | error e =>
    rw [hresult] at h
    cases h
  | ok u =>
    rw [hresult] at h
    simp only [Option.bind_eq_some_iff, preparedBytes, getRange, Option.ite_none_left_eq_some,
      Option.some.injEq] at h
    obtain ⟨buffer, hbuffer, prepared, ⟨hlen, rfl⟩, hrange, hbytes⟩ := h
    rw [List.length_take] at hrange
    exact ⟨rfl, buffer, hbuffer, by omega, by omega, by omega, hbytes.symm⟩

/-- **Values.** When the bytes of the range are there, the store stays as it is, and a value is
returned exactly when they begin with a record of the key. It is that of the record. -/
theorem finishValueRead_eq_some_iff (hbytes : completion.recordBytes = some bytes)
    (hlt : completion.desc.readLen < 2 ^ 64) :
    ∃ result, RegionStore.finishValueRead crc completion key s = .ok result s ∧
      ∀ value seqno, (∃ v, result = some v ∧ v.value = value ∧ v.seqno = seqno) ↔
        ∃ record, IsRecordOf crc completion.desc key bytes record ∧ record.value = value ∧
          record.seqno.toNat = seqno := by
  obtain ⟨hresult, buffer, hbuffer, hread, hrange, hend, hslice⟩ :=
    ReadCompletion.recordBytes_eq_some hbytes
  have hlen : bytes.length = completion.desc.recordEnd - completion.desc.recordStart := by
    rw [hslice, length_slice (by rw [List.length_take]; omega)]
  have hmatch := fun out => @matchRecord_eq_some_iff crc completion.desc key bytes
    (by omega) out
  rw [RegionStore.finishValueRead, hresult, hbytes]
  dsimp only
  cases hcase : RegionStore.matchRecord crc completion.desc bytes key with
  | none =>
    refine ⟨none, rfl, fun value seqno => ⟨?_, ?_⟩⟩
    · intro hvalue
      obtain ⟨v, hv, -⟩ := hvalue
      cases hv
    · intro hrecord
      obtain ⟨record, hrecord, -⟩ := hrecord
      rw [(hmatch _).2 ⟨record, hrecord, rfl⟩] at hcase
      cases hcase
  | some out =>
    obtain ⟨record, hrecord, hout⟩ := (hmatch out).1 hcase
    rw [hout, hbuffer]
    -- the range of the buffer is the value of the record
    have hvalue : (⟨buffer, completion.desc.readLen, completion.desc.recordStart + 48 + key.length,
        completion.desc.recordStart + 48 + key.length + record.value.length,
        record.seqno.toNat⟩ : RegionValue).value = record.value := by
      obtain ⟨⟨rest, htext⟩, hkey, -⟩ := hrecord
      obtain ⟨-, hpart, -⟩ := record.slice_bytes crc rest
      have hfit : 48 + key.length + record.value.length ≤ bytes.length := by
        rw [htext, List.length_append, ValueRecord.length_bytes, ← hkey, ValueRecord.recordLen,
          recordHeaderSize]
        omega
      rw [← htext, hkey, hslice, slice_slice _ (by omega), ← Nat.add_assoc] at hpart
      rw [RegionValue.value, Nat.add_sub_cancel_left, hpart]
    refine ⟨_, rfl, fun value seqno => ⟨?_, ?_⟩⟩
    · intro hv
      obtain ⟨v, hv, hval, hseqno⟩ := hv
      rw [← Option.some.inj hv] at hval hseqno
      exact ⟨record, hrecord, hvalue.symm.trans hval, hseqno⟩
    · intro hother
      obtain ⟨other, hother, hval, hseqno⟩ := hother
      -- the range begins with one record only
      have hsame : record = other := by
        obtain ⟨⟨rest, htext⟩, -⟩ := hrecord
        obtain ⟨⟨rest', htext'⟩, -⟩ := hother
        exact (ValueRecord.selfDelimiting crc).prefix_inj (htext.symm.trans htext')
      subst hsame
      exact ⟨_, rfl, hvalue.trans hval, hseqno⟩

/-- **Completions.** The result of a completion is accepted exactly when it is that of the request,
brings the buffer back and has transferred all bytes. -/
lemma PendingRead.finish_ok_iff {desc : ReadDesc} {requestId : ℕ}
    {answer : Except (ReadError × Option (List UInt8)) IoCompletion} :
    (PendingRead.finish desc requestId answer).result = .ok () ↔
      ∃ io buffer, answer = .ok io ∧ io.requestId = requestId ∧ io.kind = .read ∧
        io.buffer = some buffer ∧ desc.readLen ≤ buffer.length ∧ io.result = .ok desc.readLen ∧
        io.bytesTransferred = desc.readLen := by
  cases answer with
  | error e =>
    constructor
    · intro h
      cases h
    · intro h
      obtain ⟨io, buffer, h, -⟩ := h
      cases h
  | ok io =>
    obtain ⟨id, kind, result, transferred, buffer⟩ := io
    rw [PendingRead.finish]
    simp only [Except.ok.injEq, exists_and_left, exists_eq_left']
    by_cases hid : id ≠ requestId ∨ kind ≠ .read
    · rw [if_pos hid]
      simp only [reduceCtorEq, false_iff]
      intro h
      obtain ⟨h1, h2, -⟩ := h
      exact hid.elim (· h1) (· h2)
    · rw [if_neg hid]
      simp only [not_or, not_not] at hid
      cases buffer with
      | none => simp
      | some buffer =>
        by_cases hlen : buffer.length < desc.readLen
        · simp [preparedBytes, hlen]
        · cases result with
          | error e => simp [preparedBytes, hlen, Except.bind]
          | ok completed =>
            simp only [preparedBytes, hlen, Except.bind, hid, Option.some.injEq, exists_eq_left',
              Except.ok.injEq, true_and, if_false, reduceCtorEq]
            split_ifs with h <;> simp <;> omega

end Finish

/-! ## Reads from end to end -/

section PointRead

variable {crc : List UInt8 → BitVec 32} {key : List UInt8}

/-- A text begins with a record when its first bytes are those of the record. -/
lemma exists_rest_iff {bytes : List UInt8} {record : ValueRecord} :
    (∃ rest, bytes = record.bytes crc ++ rest) ↔
      bytes.take record.recordLen = record.bytes crc := by
  have hlen : (record.bytes crc).length = record.recordLen := record.length_bytes
  constructor
  · intro h
    obtain ⟨rest, h⟩ := h
    rw [h]
    exact List.take_left' hlen
  · intro h
    refine ⟨bytes.drop record.recordLen, ?_⟩
    rw [← h, List.take_append_drop]

/-- **A point read is exact.** For every valid geometry and every entry, as the index stores them,
whose Region exists and whose offset lies in it, there is a range to read, and whatever bytes the
device delivers for it, the store keeps its health and a value is returned exactly when, at the
place of the entry, the delivered bytes are a record within the Region of the key, the hash, the
generation and the size class that were asked for. The value is that of the record. -/
theorem pointRead_exact (crc : List UInt8 → BitVec 32) {geometry : DataGeometry}
    (hgeometry : geometry.isValid = true) (hash : Hash) (key : List UInt8) {entry : IndexEntry}
    {generation : ℕ} (direct : Bool) (hentry : entry.quantize = entry)
    (hregion : entry.location.regionId < geometry.regionCount.toNat)
    (hoffset : entry.location.offset < geometry.regionSize.toNat) (hgeneration : generation ≠ 0) :
    ∃ desc, describeRead geometry hash ⟨entry, generation⟩ direct = .ok desc ∧
      desc.absolute + desc.recordStart =
        geometry.regionBase entry.location.regionId + entry.location.offset ∧
      desc.absolute + desc.readLen ≤ geometry.dataFileLen.toNat ∧
      ∀ (requestId : ℕ) (buffer : List UInt8) (s : RegionStore), buffer.length = desc.readLen →
        ∃ result, RegionStore.finishValueRead crc (PendingRead.finish desc requestId
            (.ok ⟨requestId, .read, .ok desc.readLen, desc.readLen, some buffer⟩)) key s =
              .ok result s ∧
          ∀ value seqno, (∃ v, result = some v ∧ v.value = value ∧ v.seqno = seqno) ↔
            ∃ record : ValueRecord,
              slice buffer desc.recordStart record.recordLen = record.bytes crc ∧
              entry.location.offset + record.recordLen ≤ geometry.regionSize.toNat ∧
              record.key = key ∧ record.keyHash = hash ∧ record.generation.toNat = generation ∧
              recordSizeClass record.recordLen = some entry.location.indexSizeClass ∧
              record.value = value ∧ record.seqno.toNat = seqno := by
  obtain ⟨desc, hok, hhash, hdescEntry, hgen, hcovers⟩ :=
    describeRead_ok hgeometry hash direct hregion hoffset hgeneration
  obtain ⟨-, hpages, -⟩ := DataGeometry.isValid_spec hgeometry
  obtain ⟨hpage, hfile⟩ := DataGeometry.regionBase_spec hgeometry hregion
  obtain ⟨-, -, -, hlen, -⟩ := entry.location.validFields
  have hclip := Nat.min_le_right entry.location.recordLen
    (geometry.regionSize.toNat - entry.location.offset)
  have hclip' := Nat.min_le_left entry.location.recordLen
    (geometry.regionSize.toNat - entry.location.offset)
  obtain ⟨hstart, hend, hwithin, hlow, hhigh, -⟩ := hcovers
  have hword := geometry.dataFileLen.isLt
  refine ⟨desc, hok, hstart, by omega, fun requestId buffer s hbuffer => ?_⟩
  have haccepted := PendingRead.finish_ok_iff.2 ⟨⟨requestId, .read, .ok desc.readLen, desc.readLen,
    some buffer⟩, buffer, rfl, rfl, rfl, rfl, hbuffer.ge, rfl, rfl⟩
  generalize hcompletion : PendingRead.finish desc requestId
    (.ok ⟨requestId, .read, .ok desc.readLen, desc.readLen, some buffer⟩) = completion at *
  have hdesc : completion.desc = desc := by rw [← hcompletion, PendingRead.finish]
  have hbuf : completion.buffer = some buffer := by rw [← hcompletion, PendingRead.finish]
  have hbytes : completion.recordBytes =
      some (slice buffer desc.recordStart (desc.recordEnd - desc.recordStart)) := by
    rw [ReadCompletion.recordBytes, haccepted, hbuf, hdesc]
    dsimp only [Option.bind_some]
    rw [preparedBytes, if_neg (by omega), Option.bind_some, getRange,
      if_neg (by rw [List.length_take]; omega), List.take_of_length_le hbuffer.le]
  obtain ⟨result, hrun, hresult⟩ := @finishValueRead_eq_some_iff crc _ key _ s
    hbytes (by rw [hdesc]; omega)
  refine ⟨result, hrun, fun value seqno =>
    (hresult value seqno).trans (exists_congr fun record => ?_)⟩
  have hbound : recordSizeClass record.recordLen = some entry.location.indexSizeClass →
      record.recordLen ≤ entry.location.recordLen := by
    intro hclass
    obtain ⟨-, -, -, hle⟩ := sizeClass_bounds hclass
    have hlocation : entry.location.quantize = entry.location :=
      congrArg IndexEntry.location hentry
    rwa [← PackedLocation.recordLen_quantize, hlocation] at hle
  have htake : ∀ n, (slice buffer desc.recordStart (desc.recordEnd - desc.recordStart)).take n =
      slice buffer desc.recordStart (min n (desc.recordEnd - desc.recordStart)) := by
    intro n
    rw [slice, slice, List.take_take]
  rw [IsRecordOf, hdesc, hhash, hgen, hdescEntry, exists_rest_iff, htake]
  constructor
  · intro h
    obtain ⟨⟨htext, hkey, hhash', hgen', hclass⟩, hvalue, hseqno⟩ := h
    have hlength := congrArg List.length htext
    rw [ValueRecord.length_bytes, length_slice (by omega)] at hlength
    rw [hlength] at htext
    exact ⟨htext, by omega, hkey, hhash', hgen', hclass, hvalue, hseqno⟩
  · intro h
    obtain ⟨htext, hfits, hkey, hhash', hgen', hclass, hvalue, hseqno⟩ := h
    have hle := hbound hclass
    rw [Nat.min_eq_left (by omega)]
    exact ⟨⟨htext, hkey, hhash', hgen', hclass⟩, hvalue, hseqno⟩

/-- A record that crosses the end of a page of the last of two Regions is found, whatever the bytes
around it. -/
theorem pointRead_exact_sample :
    let geometry : DataGeometry := ⟨4096 + 2 * 8192, 8192, 2⟩
    let entry : IndexEntry := ⟨⟨1 ||| (4064 / 32) <<< 20 ||| (96 / 32 - 1) <<< 40⟩⟩
    let record : ValueRecord := ⟨7, 9, 1, [1, 2, 3], [4, 5, 6, 7, 8], List.replicate 40 255,
      by decide, by decide, by decide, by decide, by decide⟩
    ∃ desc, describeRead geometry 7 ⟨entry, 1⟩ true = .ok desc ∧ desc.readLen = 8192 ∧
      ∀ before after s, before.length = 4064 → after.length = 4032 →
        ∃ v, RegionStore.finishValueRead (fun _ => 0) (PendingRead.finish desc 5 (.ok ⟨5, .read,
            .ok 8192, 8192, some (before ++ (record.bytes (fun _ => 0) ++ after))⟩)) [1, 2, 3] s =
              .ok (some v) s ∧
          v.value = [4, 5, 6, 7, 8] ∧ v.seqno = 9 := by
  intro geometry entry record
  obtain ⟨desc, hok, -, -, hread⟩ := @pointRead_exact (fun _ => 0) geometry (by decide +kernel) 7
    [1, 2, 3] entry 1 true (by decide +kernel) (by decide +kernel) (by decide +kernel) (by decide)
  have hdesc : describeRead geometry 7 ⟨entry, 1⟩ true =
    .ok ⟨7, entry, 1, 12288, 8192, 4064, 4160⟩ := by decide +kernel
  cases hdesc.symm.trans hok
  refine ⟨_, hok, rfl, fun before after s hbefore hafter => ?_⟩
  have hlength : record.recordLen = 96 := by decide
  obtain ⟨result, hrun, hresult⟩ := hread 5 (before ++ (record.bytes (fun _ => 0) ++ after)) s (by
    rw [List.length_append, List.length_append, ValueRecord.length_bytes, hbefore, hafter, hlength])
  have hslice : slice (before ++ (record.bytes (fun _ => 0) ++ after)) 4064 record.recordLen =
      record.bytes fun _ => 0 := by
    rw [slice, ← hbefore, List.drop_left, ← ValueRecord.length_bytes, List.take_left]
  obtain ⟨v, rfl, hv⟩ := (hresult [4, 5, 6, 7, 8] 9).2 ⟨record, hslice, by decide, rfl, rfl, rfl,
    by decide, rfl, rfl⟩
  exact ⟨v, hrun, hv⟩

end PointRead

end Cache2
