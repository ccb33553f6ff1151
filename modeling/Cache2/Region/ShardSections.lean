import Cache2.Region.ShardLink

set_option relaxedAutoImplicit false
set_option autoImplicit false

/-!
# The sections of a shard

Every section of the thread that stages a record and of the append worker, from a shard that agrees
with the manager, ends in a shard that agrees again. None of them fails, unless the numbers are
exhausted.

## Main results

* `Cache2.ShardLink.stageReserve`, `Cache2.ShardLink.stageBegin`, `Cache2.ShardLink.stageFinish` —
  staging a record.
* `Cache2.ShardLink.flushReserve` … `Cache2.ShardLink.flushFinish` — from the open span to the spare
  chunk.
* `Cache2.ShardLink.workerWake` … `Cache2.ShardLink.drainRequest` — the loop and its drains.
* `Cache2.ShardLink.rotateGate` … `Cache2.ShardLink.rotateFinish` — rotations.
-/

namespace Cache2

open Bytes Loop Framing

namespace ShardLink

open DataPath

section Sections

variable {crc : List UInt8 → BitVec 32} {c : PathConfig} {s : DataPath crc} {i regionId : ℕ}
  {shard : AppendShardState} {region : RegionDesc} {p : ShardPath crc}
  {fill job : List ValueRecord}

/-- What a Region of the configuration can address. -/
lemma bounds (hfits : c.Fits s.manager) (hinv : ManagerInv s.manager)
    (hat : s.manager.ShardAt i shard regionId region) :
    c.regionSize ≤ 2 ^ 25 ∧ c.chunkBytes ≤ 2 ^ 25 ∧ regionId ≤ maxRegionId ∧
      dataRegionAreaOffset + regionId * c.regionSize + c.regionSize < 2 ^ 64 := by
  have hsize : s.manager.regionSize ≤ 2 ^ 25 := hinv.size_le
  have hlen : s.manager.regions.length ≤ maxPackedRegionCount := hinv.length_le
  have hlt : regionId < s.manager.regions.length := (List.getElem?_eq_some_iff.1 hat.region_eq).1
  have hmax : maxPackedRegionCount = 2 ^ 20 := by decide
  have harea : dataRegionAreaOffset = 4096 := by decide
  have hchunk := hfits.chunk_le
  have heq := hfits.size_eq
  have hid : maxRegionId = 2 ^ 20 - 1 := by decide
  have hle : regionId * c.regionSize ≤ 2 ^ 20 * 2 ^ 25 := Nat.mul_le_mul (by omega) (by omega)
  refine ⟨by omega, by omega, by omega, by omega⟩

/-- What the encoder is given is valid. -/
lemma validReservation {chunk : FillChunk} {request : StageRequest crc}
    {receipt : RegionAppendReservation} {next : ℕ} {size : ℕ}
    (h : ReservedFor c regionId region.createdSeqno chunk fill request receipt)
    (hinv : ShardInv size next i shard regionId region) (hsize : c.regionSize ≤ 2 ^ 25) :
    validateReservation c.regionSize receipt = .ok () := by
  obtain ⟨hkey, hrequired, hmax⟩ := requiredRecordBytes_eq_ok.1 h.valid.required
  have hbytes := h.bytes_eq
  have hend := h.end_le
  have hcreated := h.created_le
  have hpos := hinv.created_pos
  refine StagingShard.validateReservation_ok (by omega) (by omega)
    h.offset_aligned h.end_le (by omega)

/-- The shard agrees again, and the manager has not moved. -/
lemma moved_self (v : ShardView c s i shard regionId region p fill job) {p' : ShardPath crc}
    {fill' job' : List ValueRecord}
    (h : ShardLink c i shard regionId region.createdSeqno p' fill' job') :
    Moved c s i regionId region p' (s.setShard i p') :=
  ⟨s.manager, shard, region, fill', job', .refl v.inv v.space v.shardAt, rfl, rfl, h, rfl⟩

/-- Neither the worker nor the staged records have changed. -/
lemma frame_of_worker {p' : ShardPath crc} (hworker : p'.worker = p.worker)
    (hitems : p'.staging.fill.records.items = p.staging.fill.records.items)
    (hcompleted : p'.drainCompleted = p.drainCompleted) (hreserved : p'.reserved? = p.reserved?)
    (howner : p'.owner? = p.owner?) : ShardFrame p p' := by
  have hfilling : p'.filling = p.filling := by rw [ShardPath.filling, hitems, ShardPath.filling]
  have hpending : p'.pending = p.pending := by
    rw [ShardPath.pending, hfilling, hworker, ShardPath.pending]
  refine ⟨⟨⟨hpending, hreserved, howner, fun P g h => ?_⟩, by simp [hworker], by simp [hworker]⟩,
    by rw [hworker]⟩
  constructor
  · rw [hcompleted, hpending]
    exact h.completed
  · rw [hworker, hpending]
    exact h.drained
  · rw [hworker, hfilling]
    exact h.last

/-- The encoding begins. -/
theorem stageBegin (v : ShardView c s i shard regionId region p fill job) {owner : Option ℕ}
    {request : StageRequest crc} {receipt : RegionAppendReservation}
    (hgate : p.gate = .reserved owner request receipt) :
    ∃ p', DataPath.stageBegin c.chunkBytes c.regionSize i owner request receipt s =
        .ok () (s.setShard i p') ∧ Moved c s i regionId region p' (s.setShard i p') ∧
      ShardFrame p p' := by
  have h := v.link
  have hp := v.path_eq
  obtain ⟨hsize, hchunk, -, -⟩ := bounds v.fits v.inv v.shardAt
  obtain ⟨buffer, hbuffer, hfill⟩ := h.filled
  rw [ShardPath.HoldsBuffer, hgate] at hbuffer
  have hreserved := h.reserved request receipt (by rw [ShardPath.reserved?, hgate])
  have hvalid := validReservation hreserved (v.inv.shards v.shardAt) hsize
  have hbytes := hreserved.bytes_eq
  have hroom := hreserved.room
  have hrun := StagingShard.beginEncode_ok h.isOpen hbuffer.2 hbuffer.1 hfill hvalid (by omega)
    (by omega) hreserved.count_lt
    fun hne => ⟨hreserved.region_eq, hreserved.next hne, hreserved.seqno_lt.1⟩
  have hphase : p.worker.phase.holdsGate = false := by
    rw [← Bool.not_eq_true, ← h.gate_iff, hgate]
    exact fun heq => by cases heq
  refine ⟨{ p with
      staging := { p.staging with
        fill := { p.staging.fill with buffer := none }
        encoding := some receipt }
      gate := .encoding owner request receipt (text (ValueRecord.bytes crc) fill).length
        ((text (ValueRecord.bytes crc) fill).length + receipt.recordBytes) buffer }, ?_, ?_, ?_⟩
  · rw [DataPath.stageBegin, onStaging_bind_ok hp hrun]
    dsimp only
    rw [setGate_ok (shards_setShard hp _), setShard_setShard]
  · refine moved_self v { h with
      isOpen := h.isOpen
      opened_eq := ?_
      gate_iff := by simp [hphase]
      filled := ⟨buffer, ⟨rfl, rfl, rfl⟩, hfill.withBuffer none⟩
      reserved := ?_
      encoding := ?_ }
    · rw [h.opened_eq, ShardPath.opened, ShardPath.opened, hgate]
      rfl
    · intro request' receipt' heq
      cases heq
      exact { hreserved with }
    · intro owner' request' receipt' start finish buffer' heq
      cases heq
      exact ⟨rfl, rfl⟩
  · exact frame_of_worker rfl rfl rfl (by rw [ShardPath.reserved?, ShardPath.reserved?, hgate])
      (by rw [ShardPath.owner?, ShardPath.owner?, hgate])

/-- The encoder writes the record of the request. -/
lemma encodeRequest_ok {chunk : FillChunk} {request : StageRequest crc}
    {receipt : RegionAppendReservation} {next : ℕ} {size : ℕ} {destination : List UInt8}
    (h : ReservedFor c regionId region.createdSeqno chunk fill request receipt)
    (hinv : ShardInv size next i shard regionId region) (hsize : c.regionSize ≤ 2 ^ 25)
    (hregion : regionId ≤ maxRegionId) (hlen : destination.length = receipt.recordBytes) :
    ∃ (record : ValueRecord) (item : StagedRecord),
      encodeRequest request receipt destination = .ok (record.bytes crc, item) ∧
      PackedLocation.new receipt.regionId receipt.offset receipt.recordBytes =
        .ok item.entry.location ∧
      item.hash = request.hash ∧ item.seqno = receipt.seqno ∧
      item.previous = request.reinsert.map Prod.snd ∧ record.keyHash = request.hash ∧
      record.key = request.payload.key ∧ record.value = request.payload.value ∧
      record.generation = .ofNat 64 region.createdSeqno ∧
      record.recordLen = receipt.recordBytes := by
  obtain ⟨hkey, hrequired, hmax⟩ := requiredRecordBytes_eq_ok.1 h.valid.required
  have hbytes := h.bytes_eq
  have hend := h.end_le
  have hcreated := h.created_le
  have hpos := hinv.created_pos
  have hfields : PackedLocation.ValidFields receipt.regionId receipt.offset
      receipt.recordBytes := by
    refine ⟨h.region_eq ▸ hregion, h.offset_aligned, ?_, by omega, by omega, ?_⟩
    · unfold maxRegionOffset offsetMask offsetAlignment
      omega
    · unfold recordLenAlignment
      omega
  have hencode : ∀ logicalSeqno, logicalSeqno ≠ 0 → logicalSeqno < 2 ^ 64 → _ :=
    fun logicalSeqno hne hlt => encodeValueIntoHashedWithSeqno_ok
      request.hash request.payload h.valid.required hlen hbytes.ge (by rw [h.created_eq]; omega)
      (by rw [h.created_eq]; exact hcreated) h.seqno_lt.2 hne hlt hfields
  rw [h.created_eq] at hencode
  cases hreinsert : request.reinsert with
  | none =>
    obtain ⟨record, location, hok, hlocation, hhash, hk, hv, -, hgeneration, hrecord⟩ :=
      hencode receipt.seqno (by omega) h.seqno_lt.2
    refine ⟨record, .new request.hash ⟨location⟩ receipt.seqno, ?_, hlocation, rfl, rfl, rfl, hhash,
      hk, hv, hgeneration, hrecord⟩
    rw [encodeRequest, hreinsert]
    dsimp only
    rw [encodeValueIntoHashed, hok]
    rfl
  | some reinsert =>
    obtain ⟨logicalSeqno, previous⟩ := reinsert
    obtain ⟨hne, hlt, hraw⟩ := h.valid.logical logicalSeqno previous hreinsert
    obtain ⟨record, location, hok, hlocation, hhash, hk, hv, -, hgeneration, hrecord⟩ :=
      hencode logicalSeqno hne hlt
    refine ⟨record, .reinsert request.hash ⟨location⟩ receipt.seqno previous, ?_, hlocation, rfl,
      rfl, ?_, hhash, hk, hv, hgeneration, hrecord⟩
    · rw [encodeRequest, hreinsert]
      dsimp only
      rw [encodeReinsertIntoHashed, if_neg hne, hok]
      rfl
    · rw [StagedRecord.previous, StagedRecord.reinsert, if_neg]
      · rfl
      · have : upsertPublication = 2 ^ 63 := by decide
        dsimp only
        omega

/-- Without a record that is reserved, and without the gate in the hands of the worker, what is open
is what is in the chunk. -/
lemma opened_of_free (hgate : p.gate = .free) (hphase : p.worker.phase.holdsGate = false) :
    p.opened = p.staging.fill.opened := by
  rw [ShardPath.opened, hgate]
  cases hw : p.worker.phase with
  | padded receipt =>
    rw [hw] at hphase
    cases hphase
  | sealed span geometry =>
    rw [hw] at hphase
    cases hphase
  | _ => rfl

/-- The worker does not hold the gate while somebody else does, or nobody. -/
lemma holdsGate_eq_false (h : ShardLink c i shard regionId region.createdSeqno p fill job)
    (hgate : p.gate ≠ .worker) : p.worker.phase.holdsGate = false := by
  rw [← Bool.not_eq_true, ← h.gate_iff]
  exact hgate

/-- The chunk with one more record is open up to the end of that record. -/
lemma opened_push {request : StageRequest crc} {receipt : RegionAppendReservation}
    {buffer : List UInt8}
    (h : ReservedFor c regionId region.createdSeqno p.staging.fill fill request receipt)
    (hfill : FillInv crc c.chunkBytes regionId region.createdSeqno p.staging.fill buffer fill)
    (buffer' : List UInt8) (item : StagedRecord) :
    (StagingShard.push p.staging.fill receipt (receipt.offset + receipt.recordBytes) buffer'
      item).opened = some (p.staging.fill.openedWith receipt) := by
  have hmax : max p.staging.fill.maxSeqno receipt.seqno = receipt.seqno :=
    Nat.max_eq_right h.seqno_lt.1.le
  have hid : (if p.staging.fill.isEmpty = true then receipt.regionId
      else p.staging.fill.regionId) = receipt.regionId := by
    split_ifs with hempty
    · rfl
    · rw [h.region_eq, hfill.region_eq fun hnil => hempty (hfill.isEmpty_iff.2 hnil)]
  rw [FillChunk.opened, if_neg (by simp [FillChunk.isEmpty, StagingShard.push])]
  simp only [StagingShard.push, FillChunk.openedWith, hid, hmax, List.length_append,
    List.length_singleton]

/-- The record that has been reserved continues what is open. -/
lemma nextSpan_opened {chunk : FillChunk} {request : StageRequest crc}
    {receipt : RegionAppendReservation} {buffer : List UInt8}
    (h : ReservedFor c regionId region.createdSeqno chunk fill request receipt)
    (hfill : FillInv crc c.chunkBytes regionId region.createdSeqno chunk buffer fill) :
    RegionManager.nextSpan receipt (receipt.offset + receipt.recordBytes) chunk.opened =
      .ok (chunk.openedWith receipt) := by
  by_cases hempty : chunk.isEmpty = true
  · have hitems : chunk.records.items = [] := List.isEmpty_iff.1 hempty
    rw [FillChunk.opened, if_pos hempty, FillChunk.openedWith, if_pos hempty, hitems]
    rfl
  · have hne : fill ≠ [] := fun hnil => hempty (hfill.isEmpty_iff.2 hnil)
    have hcount := h.count_lt
    have hmax : max chunk.maxSeqno receipt.seqno = receipt.seqno :=
      Nat.max_eq_right h.seqno_lt.1.le
    unfold maxStagingRecords at hcount
    rw [FillChunk.opened, if_neg hempty, FillChunk.openedWith, if_neg hempty]
    refine RegionManager.nextSpan_eq_ok.2 (.inr ⟨_, rfl, ⟨?_, (h.next hne).symm, h.seqno_lt.1⟩,
      by dsimp only; omega, ?_⟩)
    · rw [hfill.region_eq hne, h.region_eq]
    · rw [hmax, hfill.region_eq hne, h.region_eq]

/-- Putting a shard that is there. -/
lemma setShard_self (hp : s.shards[i]? = some p) : s.setShard i p = s := by
  obtain ⟨hlt, rfl⟩ := List.getElem?_eq_some_iff.1 hp
  rw [setShard, List.set_getElem_self]

/-- **Reserving.** A section that stages a record reserves it, or finds that something has to be
done before, or that no numbers are left. -/
theorem stageReserve (v : ShardView c s i shard regionId region p fill job) (owner : Option ℕ)
    {request : StageRequest crc} (hrequest : request.Valid)
    (hle : request.recordBytes ≤ c.chunkBytes) :
    (∃ result s', DataPath.stageReserve c.chunkBytes i owner request s = .ok (some result) s' ∧
      Moved c s i regionId region p s') ∨
    (∃ receipt s', DataPath.stageReserve c.chunkBytes i owner request s = .ok none s' ∧
      p.gate = .free ∧
        Moved c s i regionId region { p with gate := .reserved owner request receipt } s') ∨
    s.manager.nextSeqno = u64Max ∧ ∃ e s', s'.healthy = false ∧
      DataPath.stageReserve c.chunkBytes i owner request s = .error e s' := by
  have h := v.link
  have hp := v.path_eq
  have hinv := v.inv.shards v.shardAt
  obtain ⟨hsize, hchunk, -, -⟩ := bounds v.fits v.inv v.shardAt
  obtain ⟨hkey, hbytes, hmax⟩ := requiredRecordBytes_eq_ok.1 hrequest.required
  have hn : request.recordBytes ≠ 0 ∧ request.recordBytes % 32 = 0 := by omega
  -- the shard is what it was, and the manager at most retains a request for rotation
  have hkept : Moved c s i regionId region p s := by
    have := moved_self v h
    rwa [setShard_self hp] at this
  have hrequested : Moved c s i regionId region p { s with
      manager := s.manager.setShard i { shard with rotationRequested := true } } := by
    refine ⟨_, _, _, fill, job, (ShardMove.refl v.inv v.space v.shardAt).requested, rfl, rfl,
      { h with selected := fun candidate heq => ⟨rfl, (h.selected candidate heq).2⟩ }, ?_⟩
    symm
    exact setShard_self hp
  unfold DataPath.stageReserve
  rw [rejectIf_bind (by omega), shard_bind hp]
  by_cases hgate : p.gate = .free
  swap
  · refine .inl ⟨.contended, s, ?_, hkept⟩
    cases hg : p.gate with
    | free => exact absurd hg hgate
    | _ => rfl
  rw [hgate]
  dsimp only
  obtain ⟨buffer, hbuffer, hfill⟩ := h.filled
  rw [ShardPath.HoldsBuffer, hgate] at hbuffer
  have hpreflight := StagingShard.preflightAppend_ok h.isOpen hbuffer.2 hfill.used_eq
    ⟨hn.1, hle, hn.2⟩
  rw [onStaging_bind_ok hp hpreflight, setShard_self hp]
  by_cases hexceeds : StagingShard.exceeds p.staging.fill c.chunkBytes
      (text (ValueRecord.bytes crc) fill).length request.recordBytes = true
  · rw [if_pos hexceeds]
    dsimp only
    have hrun := requestRotationForAppend_run v.inv v.shardAt
      (show request.recordBytes < 2 ^ 32 by omega)
    split_ifs at hrun with hfull
    · rw [bind_ok (manage_ok hrun)]
      exact .inl ⟨.needsRotation, _, rfl, hrequested⟩
    · rw [bind_ok (manage_ok hrun)]
      exact .inl ⟨.needsFlush, _, rfl, hkept⟩
  rw [if_neg hexceeds]
  dsimp only
  rcases reserveAppend_cases v.inv v.shardAt hn (by omega) with ⟨receipt, m₁, hreserve⟩ | hreserve |
    ⟨e, he, hreserve⟩ | ⟨hnext, hreserve⟩
  · obtain ⟨shard', id, region', hat, -, hidle, ⟨-, -, hfit, -⟩, hnext, hreceipt, hm⟩ :=
      RegionManager.reserveAppend_eq_ok.1 hreserve
    obtain rfl := Option.some.inj (v.shardAt.shard_eq.symm.trans hat.shard_eq)
    obtain rfl := Option.some.inj (v.shardAt.active_eq.symm.trans hat.active_eq)
    obtain rfl := Option.some.inj (v.shardAt.region_eq.symm.trans hat.region_eq)
    have hmove : ShardMove i regionId s.manager region m₁ { shard with tail := some receipt }
        { region with reservedUsed := region.reservedUsed + request.recordBytes } := by
      rw [hm, hreceipt]
      exact (ShardMove.refl v.inv v.space v.shardAt).step (.reserved hn hidle hfit hnext)
        (by simp; omega)
    have hfree := h.holdsGate_eq_false (by rw [hgate]; exact fun heq => by cases heq)
    have hopened := h.opened_eq.trans (opened_of_free hgate hfree)
    have hreserved :
        ReservedFor c regionId region.createdSeqno p.staging.fill fill request receipt := by
      have hroom := hfill.le_chunk
      rw [StagingShard.exceeds_iff (by omega)] at hexceeds
      have hcount := hfill.count_le
      have hnextLe := v.inv.next_le
      have hmaxNat : u64Max = 2 ^ 64 - 1 := by decide
      have hcreated := hinv.created_lt
      have hpadding : shard.tail = none ∧ shard.pendingPadding = none := ⟨hidle.1, hidle.2.1⟩
      have hused := hinv.reserved_eq_openEnd hpadding.1 hpadding.2
      have haligned := hinv.openEnd_aligned
      have hsizeEq := v.fits.size_eq
      rw [hreceipt]
      refine ⟨rfl, rfl, rfl, hrequest, by omega, by omega, fun hne => ?_, ?_, hcreated.le, ?_, ?_⟩
      · rw [hused, AppendShardState.openEnd, hopened, FillChunk.opened, if_neg]
        · rfl
        · exact fun hempty => hne (hfill.isEmpty_iff.1 hempty)
      · refine ⟨?_, by dsimp only; omega⟩
        by_cases hempty : p.staging.fill.isEmpty = true
        · have hascends := hfill.ascends
          rw [List.isEmpty_iff.1 hempty] at hascends
          have hzero : 0 = p.staging.fill.maxSeqno := hascends
          dsimp only
          omega
        · rw [FillChunk.opened, if_neg hempty] at hopened
          exact (hinv.opened _ hopened).2.2.2.2.2.2
      · dsimp only
        omega
      · dsimp only
        omega
    have hshardId : receipt.shardId = i := by rw [hreceipt]
    have hspan := nextSpan_opened hreserved hfill
    rw [← hopened] at hspan
    have hend := hreserved.end_le
    have hstage : RegionManager.stageReservation receipt m₁ = .ok () (m₁.setShard i { shard with
        openSpan := some (p.staging.fill.openedWith receipt)
        tail := none }) :=
      RegionManager.stageReservation_eq_ok.2 ⟨{ shard with tail := some receipt }, _,
        by rw [hshardId]; exact hmove.shardAt.shard_eq, rfl, by omega, hspan, by rw [hshardId]⟩
    have hstaged := hmove.step (.staged rfl hspan) (by simp)
    rw [← hmove.shardAt.setShard_eq] at hstaged
    refine .inr (.inl ⟨receipt, _, ?_, rfl, _, _, _, fill, job, hstaged, rfl, rfl, ?_, rfl⟩)
    · rw [onManager_bind_ok hreserve]
      dsimp only
      rw [onManager_bind_ok hstage]
      dsimp only
      rw [bind_ok (setGate_ok (shards_manager hp _) _)]
      rfl
    · exact { h with
        isOpen := h.isOpen
        tail_eq := rfl
        opened_eq := rfl
        gate_iff := by simp [hfree]
        filled := ⟨buffer, hbuffer, hfill⟩
        reserved := by
          intro request' receipt' heq
          cases heq
          exact hreserved
        encoding := fun _ _ _ _ _ _ heq => by cases heq
        selected := fun _ heq => by
          dsimp only at heq
          rw [heq] at hfree
          cases hfree }
  · rw [onManager_bind_error hreserve]
    exact .inl ⟨.needsFlush, _, rfl, hkept⟩
  · rw [onManager_bind_error hreserve]
    rcases he with rfl | rfl
    · exact .inl ⟨.needsRotation, _, rfl, hrequested⟩
    · exact .inl ⟨.needsRotation, _, rfl, hrequested⟩
  · rw [onManager_bind_error hreserve]
    exact .inr (.inr ⟨hnext, _, _, rfl, rfl⟩)

/-- **The record is staged.** The encoder has written it behind the others. -/
theorem stageFinish (v : ShardView c s i shard regionId region p fill job) {owner : Option ℕ}
    {request : StageRequest crc} {receipt : RegionAppendReservation} {start finish : ℕ}
    {buffer : List UInt8} (hgate : p.gate = .encoding owner request receipt start finish buffer) :
    ∃ p', DataPath.stageFinish c.regionSize i owner request receipt start finish buffer s =
        (match owner with
          | some workerId => accept workerId
          | none => pure () : PathM crc Unit) (s.setShard i p') ∧
      Moved c s i regionId region p' (s.setShard i p') ∧
      p'.pending = p.pending ++ [(request.hash, receipt.seqno, request.reinsert.map Prod.snd)] ∧
      p'.worker = p.worker ∧ p'.gate = .free ∧ p'.drainRequested = p.drainRequested ∧
      p'.drainCompleted = p.drainCompleted := by
  have h := v.link
  have hp := v.path_eq
  obtain ⟨hsize, hchunk, hid, -⟩ := bounds v.fits v.inv v.shardAt
  obtain ⟨buffer', hbuffer, hfill⟩ := h.filled
  rw [ShardPath.HoldsBuffer, hgate] at hbuffer
  obtain ⟨rfl, hnone, hencoding⟩ := hbuffer
  have hreserved := h.reserved request receipt (by rw [ShardPath.reserved?, hgate])
  have hshard := v.inv.shards v.shardAt
  have hvalid := validReservation hreserved hshard hsize
  obtain ⟨rfl, rfl⟩ := h.encoding _ _ _ _ _ _ hgate
  have hbytes := hreserved.bytes_eq
  have hroom := hreserved.room
  have hend := hreserved.end_le
  have hlen := hfill.length_eq
  have hslice : (slice buffer (text (ValueRecord.bytes crc) fill).length
      ((text (ValueRecord.bytes crc) fill).length + receipt.recordBytes -
        (text (ValueRecord.bytes crc) fill).length)).length = receipt.recordBytes := by
    rw [length_slice] <;> omega
  obtain ⟨record, item, hencode, hlocation, hhash, hseqno, hprevious, hkeyHash, -, -, hgeneration,
    hrecordLen⟩ := encodeRequest_ok hreserved hshard hsize hid hslice
  have hrun := StagingShard.finishEncode_ok h.isOpen hencoding hnone (by omega) hencode hvalid
    hlocation hseqno (by omega)
  have hphase := h.holdsGate_eq_false (by rw [hgate]; exact fun heq => by cases heq)
  refine ⟨{ p with
      staging := { p.staging with
        fill := StagingShard.push p.staging.fill receipt (receipt.offset + receipt.recordBytes)
          (splice buffer (text (ValueRecord.bytes crc) fill).length (record.bytes crc)) item
        encoding := none }
      gate := .free }, ?_, ?_, ?_, rfl, rfl, rfl, rfl⟩
  · unfold DataPath.stageFinish
    rw [onStaging_bind_ok hp hrun]
    dsimp only
    rw [bind_ok (setGate_ok (shards_setShard hp _) _)]
    exact congrArg _ (setShard_setShard _ _)
  · refine moved_self v { h with
      isOpen := h.isOpen
      opened_eq := ?_
      gate_iff := by simp [hphase]
      filled := ⟨_, ⟨rfl, rfl⟩, hfill.push hreserved.region_eq hreserved.next hrecordLen
        (by omega) hreserved.count_lt (hhash.trans hkeyHash.symm) ?_ hseqno
        hreserved.seqno_lt.1 hgeneration⟩
      seen := fun _ => by simp
      reserved := fun _ _ heq => by cases heq
      encoding := fun _ _ _ _ _ _ heq => by cases heq
      sealed := fun span geometry heq => ?_
      padded := fun receipt heq => ?_ }
    · rw [h.opened_eq, ShardPath.opened, hgate]
      symm
      exact Eq.trans (opened_of_free rfl hphase) (opened_push hreserved hfill _ item)
    · rw [← hreserved.region_eq, hrecordLen]
      exact hlocation
    · rw [heq] at hphase
      cases hphase
    · rw [heq] at hphase
      cases hphase
  · simp [ShardPath.pending, ShardPath.filling, StagingShard.push, StagedRecord.pending, hhash,
      hseqno, hprevious]

/-! ### Flushing -/

/-- The geometry of the manager is that of the configuration. -/
lemma geometryFor_ok {m : RegionManager} (hfits : c.Fits m) (hinv : ManagerInv m) :
    geometryFor m = .ok c.geometry := by
  have hlen := hinv.length_le
  have hmax : maxPackedRegionCount = 2 ^ 20 := by decide
  have hvalid := hfits.valid
  rw [DataGeometry.isValid, Bool.and_eq_true, decide_eq_true_eq] at hvalid
  have hsize : BitVec.ofNat 64 m.regionSize = c.geometry.regionSize := by
    rw [hfits.size_eq, PathConfig.regionSize, BitVec.ofNat_toNat, BitVec.setWidth_eq]
  have hcount : BitVec.ofNat 32 m.regions.length = c.geometry.regionCount := by
    rw [hfits.count_eq, BitVec.ofNat_toNat, BitVec.setWidth_eq]
  rw [geometryFor, if_neg (by omega)]
  dsimp only
  rw [hsize, hcount, hvalid.2, Option.elim_some, BitVec.ofNat_toNat, BitVec.setWidth_eq]

/-- A sealed span is kept with the geometry. -/
lemma sealedFor_ok (hp : s.shards[i]? = some p) (hfits : c.Fits s.manager)
    (hinv : ManagerInv s.manager) (span : RegionWriteSpan) :
    sealedFor i span s = .ok () (s.setShard i (p.goto (.sealed span c.geometry))) := by
  rw [sealedFor, get_bind, geometryFor_ok hfits hinv]
  exact setPhase_ok hp _

/-- The span of a chunk is one that the device can write. -/
lemma validateSpan_ok {m : RegionManager} (hfits : c.Fits m) {span : RegionWriteSpan}
    (hid : span.regionId < m.regions.length) (hstart : span.startOffset % 4096 = 0)
    (hend : span.endOffset % 4096 = 0) (hlt : span.startOffset < span.endOffset)
    (hle : span.endOffset ≤ c.regionSize) (hcount : span.recordCount ≠ 0) :
    validateSpan c.geometry span = .ok (span.endOffset - span.startOffset,
      c.geometry.regionBase span.regionId + span.startOffset) := by
  obtain ⟨hbase, hfile⟩ := DataGeometry.regionBase_spec hfits.valid (hfits.count_eq ▸ hid)
  have hfileLt : c.geometry.dataFileLen.toNat < 2 ^ 64 := c.geometry.dataFileLen.isLt
  unfold PathConfig.regionSize at hle
  have hareaLt : c.geometry.regionBase span.regionId + span.endOffset < 2 ^ 64 := by omega
  have hlength : ((Word.checkedSub span.endOffset span.startOffset).filter fun length =>
      length ≠ 0 ∧ length % directIoAlignment = 0) = some (span.endOffset - span.startOffset) := by
    rw [Word.checkedSub_of_le hlt.le, Option.filter_some, if_pos]
    rw [decide_eq_true_eq, directIoAlignment]
    omega
  unfold DataGeometry.regionBase at hareaLt hbase hfile
  have habsolute : ((Word.checkedMul 64 span.regionId c.geometry.regionSize.toNat).bind
      fun offset =>
      (Word.checkedAdd 64 offset dataRegionAreaOffset).bind fun offset =>
        Word.checkedAdd 64 offset span.startOffset) =
      some (c.geometry.regionBase span.regionId + span.startOffset) := by
    rw [Word.checkedMul_of_lt (by omega), Option.bind_some, Word.checkedAdd_of_lt (by omega),
      Option.bind_some, Word.checkedAdd_of_lt (by omega), DataGeometry.regionBase,
      Nat.add_comm dataRegionAreaOffset]
  have hfinish : Word.checkedAdd 64 (c.geometry.regionBase span.regionId + span.startOffset)
      (span.endOffset - span.startOffset) =
        some (c.geometry.regionBase span.regionId + span.endOffset) := by
    rw [DataGeometry.regionBase, Word.checkedAdd_of_lt (by omega)]
    congr 1
    omega
  rw [validateSpan, if_neg, hlength, habsolute]
  · dsimp only [Option.elim_some]
    show ((Word.checkedAdd 64 _ _).elim _ _ >>= _ : Except IoError (ℕ × ℕ)) = _
    rw [hfinish]
    dsimp only [Option.elim_some]
    refine if_neg ?_
    rw [DataGeometry.regionBase, directIoAlignment]
    omega
  · simp only [hfits.valid, directIoAlignment, Bool.true_eq_false, false_or]
    have := hfits.count_eq
    omega

/-- What a chunk that is not empty opens. -/
lemma opened_of_fill {chunk : FillChunk} {generation : ℕ} {buffer : List UInt8}
    (hfill : FillInv crc c.chunkBytes regionId generation chunk buffer fill) (hne : fill ≠ []) :
    chunk.opened = some ⟨regionId, chunk.startOffset, chunk.endOffset, chunk.records.items.length,
      chunk.maxSeqno⟩ := by
  rw [FillChunk.opened, if_neg fun hempty => hne (hfill.isEmpty_iff.1 hempty), hfill.region_eq hne]

/-- The worker has moved on, and the records that wait have not. -/
lemma frame_of_phase {p' : ShardPath crc}
    (hwaiting : p'.worker.phase.waitingRecords = p.worker.phase.waitingRecords)
    (hfilling : p'.filling = p.filling) (hcompleted : p'.drainCompleted = p.drainCompleted)
    (hdrain : p'.worker.drain = p.worker.drain) (hlast : p'.worker.last = p.worker.last)
    (hreserved : p'.reserved? = p.reserved?) (howner : p'.owner? = p.owner?)
    (hdrained : p'.worker.phase ≠ .drained)
    (hjob : p'.worker.phase.job?.isSome = true → p.worker.phase.job?.isSome = true) :
    PendingFrame p p' := by
  have hpending : p'.pending = p.pending := by
    rw [ShardPath.pending, hfilling, hwaiting, ShardPath.pending]
  refine ⟨hpending, hreserved, howner, fun P g h => ?_⟩
  constructor
  · rw [hcompleted, hpending]
    exact h.completed
  · exact fun heq => absurd heq hdrained
  · rw [hdrain, hlast, hfilling]
    exact fun htrue hsome => h.last htrue (hjob hsome)

/-- Without a chunk on its way to the device, all that waits is in the chunk that is being
filled. -/
lemma frame_of_idle {p' : ShardPath crc} (hjob : p.worker.phase.job? = none)
    (hjob' : p'.worker.phase.job? = none) (hdrained : p'.worker.phase ≠ .drained)
    (hfilling : p'.filling = p.filling) (hcompleted : p'.drainCompleted = p.drainCompleted)
    (hreserved : p'.reserved? = p.reserved?) (howner : p'.owner? = p.owner?) :
    RecordFrame p p' := by
  have hpending : p'.pending = p.pending := by
    rw [ShardPath.pending, hfilling, WorkerPhase.waitingRecords_eq_nil hjob', ShardPath.pending,
      WorkerPhase.waitingRecords_eq_nil hjob]
  refine ⟨⟨hpending, hreserved, howner, fun P g h => ?_⟩, fun job heq => ?_, fun job rest heq => ?_⟩
  rotate_left
  · rw [heq] at hjob'
    cases hjob'
  · rw [heq] at hjob'
    cases hjob'
  · constructor
    · rw [hcompleted, hpending]
      exact h.completed
    · exact fun heq => absurd heq hdrained
    · rw [hjob']
      exact fun _ hsome => by cases hsome

/-- Nobody has reserved a record while the gate is free. -/
lemma reserved_of_free (hgate : p.gate = .free) : p.reserved? = none ∧ p.owner? = none := by
  rw [ShardPath.reserved?, ShardPath.owner?, hgate]
  exact ⟨rfl, rfl⟩

/-- Nobody has reserved a record while the worker holds the gate. -/
lemma reserved_of_worker (hgate : p.gate = .worker) : p.reserved? = none ∧ p.owner? = none := by
  rw [ShardPath.reserved?, ShardPath.owner?, hgate]
  exact ⟨rfl, rfl⟩

/-- **Flushing.** The worker takes the gate, and the span is sealed or its padding is reserved. -/
theorem flushReserve (v : ShardView c s i shard regionId region p fill job)
    (hphase : p.worker.phase = .locking) (hgate : p.gate = .free) :
    ∃ p' s', DataPath.flushReserve i s = .ok () s' ∧ Moved c s i regionId region p' s' ∧
      ShardFrame p p' := by
  have h := v.link
  have hp := v.path_eq
  have hne := h.seen (by rw [hphase]; rfl)
  obtain ⟨buffer, hbuffer, hfill⟩ := h.filled
  rw [ShardPath.HoldsBuffer, hgate] at hbuffer
  have hopen := h.opened_eq.trans (opened_of_free hgate (by rw [hphase]; rfl))
  rw [opened_of_fill hfill hne] at hopen
  have hpadding := h.padding_eq
  have hsubmitted := h.submitted_eq
  have hrotation := h.rotation_eq
  rw [hphase] at hpadding hsubmitted hrotation
  have hmove := ShardMove.refl v.inv v.space v.shardAt
  unfold DataPath.flushReserve
  rcases reserveWritePadding_cases v.inv v.shardAt hopen h.tail_eq
    hsubmitted hrotation hpadding with
    ⟨hend, hrun⟩ | ⟨receipt, hreceipt, hlt, hle, hrun, hstep⟩
  · obtain ⟨hseal, events, hnone, hstep⟩ :=
      sealWriteSpan_run v.inv v.shardAt hopen h.tail_eq hsubmitted hrotation hpadding hend
    have hsealed := hmove.step hstep fun r hr => absurd hr (hnone r)
    refine ⟨{ p with gate := .worker }.goto (.sealed (p.staging.fill.span i regionId) c.geometry),
      _, ?_, ⟨_, _, _, fill, job, hsealed, rfl, rfl, ?_, rfl⟩, ?_⟩
    · rw [onManager_bind_ok hrun]
      dsimp only
      rw [bind_ok (setGate_ok (shards_manager hp _) _)]
      refine Eq.trans (bind_ok (manage_ok hseal)) ?_
      show sealedFor i _ ({ s with manager := _ }.setShard i _) = _
      rw [sealedFor_ok (shards_setShard (shards_manager hp _) _) (hsealed.fits v.fits) hsealed.inv,
        setShard_setShard]
      rfl
    · exact { h with
        padding_eq := rfl
        submitted_eq := rfl
        rotation_eq := hrotation
        opened_eq := rfl
        gate_iff := ⟨fun _ => rfl, fun _ => rfl⟩
        filled := ⟨buffer, hbuffer, hfill⟩
        seen := fun _ => hne
        reserved := fun _ _ heq => by cases heq
        encoding := fun _ _ _ _ _ _ heq => by cases heq
        spare := fun _ => h.spare (by rw [hphase]; rfl)
        taken := fun _ heq => by cases heq
        sealed := fun _ _ heq => by
          cases heq
          rfl
        padded := fun _ heq => by cases heq
        published := fun _ _ heq => by cases heq
        selected := fun _ heq => by cases heq
        geometry_eq := by
          rintro geometry (⟨span, heq⟩ | ⟨write, heq⟩) <;> cases heq
          rfl }
    · exact ⟨frame_of_idle (by rw [hphase]; rfl) rfl (fun heq => by cases heq) rfl rfl
        (reserved_of_free hgate).1.symm (reserved_of_free hgate).2.symm, by rw [hphase]; rfl⟩
  · have hpadded := hmove.step hstep (by simp)
    refine ⟨{ p with gate := .worker }.goto (.padding receipt), _, ?_,
      ⟨_, _, _, fill, job, hpadded, rfl, rfl, ?_, rfl⟩, ?_⟩
    · rw [onManager_bind_ok hrun]
      dsimp only
      rw [bind_ok (setGate_ok (shards_manager hp _) _),
        setPhase_ok (shards_setShard (shards_manager hp _) _), setShard_setShard]
    · exact { h with
        padding_eq := rfl
        submitted_eq := hsubmitted
        rotation_eq := hrotation
        opened_eq := hopen.trans (opened_of_fill hfill hne).symm
        gate_iff := ⟨fun _ => rfl, fun _ => rfl⟩
        filled := ⟨buffer, hbuffer, hfill⟩
        seen := fun _ => hne
        reserved := fun _ _ heq => by cases heq
        encoding := fun _ _ _ _ _ _ heq => by cases heq
        spare := fun _ => h.spare (by rw [hphase]; rfl)
        taken := fun _ heq => by cases heq
        sealed := fun _ _ heq => by cases heq
        padded := fun _ heq => by cases heq
        published := fun _ _ heq => by cases heq
        selected := fun _ heq => by cases heq
        geometry_eq := by rintro geometry (⟨span, heq⟩ | ⟨write, heq⟩) <;> cases heq }
    · exact ⟨frame_of_idle (by rw [hphase]; rfl) rfl (fun heq => by cases heq) rfl rfl
        (reserved_of_free hgate).1.symm (reserved_of_free hgate).2.symm, by rw [hphase]; rfl⟩

/-- What the manager knows of a padding is what the chunk holds. -/
structure PaddingFits (c : PathConfig) (i regionId : ℕ) (chunk : FillChunk)
    (receipt : RegionPaddingReceipt) : Prop where
  receipt_eq : receipt = ⟨i, regionId, chunk.startOffset, receipt.unpaddedEndOffset,
    receipt.paddedEndOffset, chunk.records.items.length, chunk.maxSeqno⟩
  start_aligned : chunk.startOffset % 4096 = 0
  end_aligned : receipt.unpaddedEndOffset % 32 = 0
  padded_aligned : receipt.paddedEndOffset % 4096 = 0
  lt_padded : receipt.unpaddedEndOffset < receipt.paddedEndOffset
  padded_lt : receipt.paddedEndOffset < receipt.unpaddedEndOffset + 4096
  padded_le : receipt.paddedEndOffset ≤ c.regionSize

/-- The padding of an open span fits the chunk. -/
lemma paddingFits (v : ShardView c s i shard regionId region p fill job)
    {receipt : RegionPaddingReceipt} (hpadding : shard.pendingPadding = some receipt) {e : ℕ}
    (hopen : shard.openSpan = some ⟨regionId, p.staging.fill.startOffset, e,
      p.staging.fill.records.items.length, p.staging.fill.maxSeqno⟩) :
    receipt.unpaddedEndOffset = e ∧ PaddingFits c i regionId p.staging.fill receipt := by
  have hinv := v.inv.shards v.shardAt
  obtain ⟨-, o, ho, hal, hlt, hpage, hreceipt⟩ := hinv.padding receipt hpadding
  rw [hopen] at ho
  obtain rfl := Option.some.inj ho
  obtain ⟨-, hstart, -, haligned, -⟩ := hinv.opened _ hopen
  have hend : receipt.unpaddedEndOffset = e := by rw [hreceipt]
  have hsize := v.fits.size_eq
  have hle := hinv.reserved_le
  have hreserved := hinv.reserved_eq
  rw [AppendShardState.reservedEnd, v.link.tail_eq, hpadding] at hreserved
  have hsub := hinv.submittedEnd_aligned
  dsimp only at hstart haligned hlt hpage hreserved
  refine ⟨hend, ⟨?_, by omega, by omega, hal, by omega, by omega, by omega⟩⟩
  rw [hend]
  exact hreceipt

/-- The padding is applied to the last record of the chunk. -/
theorem flushPad (v : ShardView c s i shard regionId region p fill job)
    {receipt : RegionPaddingReceipt} (hphase : p.worker.phase = .padding receipt) :
    ∃ p' s', DataPath.flushPad c.chunkBytes c.regionSize i receipt s = .ok () s' ∧
      Moved c s i regionId region p' s' ∧ ShardFrame p p' := by
  have h := v.link
  have hp := v.path_eq
  obtain ⟨hsize, hchunk, hid, -⟩ := bounds v.fits v.inv v.shardAt
  have hgate : p.gate = .worker := h.gate_iff.2 (by rw [hphase]; rfl)
  have hne := h.seen (by rw [hphase]; rfl)
  obtain ⟨buffer, hbuffer, hfill⟩ := h.filled
  rw [ShardPath.HoldsBuffer, hgate] at hbuffer
  have hopen : shard.openSpan = p.staging.fill.opened := by
    rw [h.opened_eq, ShardPath.opened, hgate, hphase]
  rw [opened_of_fill hfill hne] at hopen
  obtain ⟨hend, hpad⟩ := paddingFits v (by rw [h.padding_eq, hphase]; rfl) hopen
  obtain ⟨records, last, rfl⟩ : ∃ records last, fill = records ++ [last] :=
    ⟨_, _, (List.dropLast_append_getLast hne).symm⟩
  have hlength := hfill.staged.length_eq
  have hitems : p.staging.fill.records.items ≠ [] := by
    rw [← List.length_pos_iff, hlength]
    simp
  obtain ⟨items, item, hsplit⟩ : ∃ items item, p.staging.fill.records.items = items ++ [item] :=
    ⟨_, _, (List.dropLast_append_getLast hitems).symm⟩
  have hbytes := hfill.end_eq
  have hstart := hpad.start_aligned
  have haligned := hpad.end_aligned
  have hpadded := hpad.padded_aligned
  have hlt := hpad.lt_padded
  have hpage := hpad.padded_lt
  have hle := hpad.padded_le
  have hchunkAligned := v.fits.chunk_aligned
  have hchunkLe := hfill.le_chunk
  have hsum : p.staging.fill.endOffset + (receipt.paddedEndOffset - p.staging.fill.endOffset) =
      receipt.paddedEndOffset := by omega
  have hreceipt : receipt = ⟨receipt.shardId, regionId, p.staging.fill.startOffset,
      p.staging.fill.endOffset, p.staging.fill.endOffset +
        (receipt.paddedEndOffset - p.staging.fill.endOffset),
      p.staging.fill.records.items.length, p.staging.fill.maxSeqno⟩ := by
    rw [hsum, ← hend]
    have heq := hpad.receipt_eq
    rw [congrArg RegionPaddingReceipt.shardId heq]
    exact heq
  obtain ⟨hmod, hmax, fill', extended, hrun, hbuffer', hstart', hend', hmax', ⟨location, hitems'⟩,
    hfill'⟩ := StagingShard.applyWritePadding_ok h.isOpen hbuffer.2
      (h.spare (by rw [hphase]; rfl)).1 hbuffer.1 hfill hsplit ⟨by omega, by omega, by omega⟩
      hreceipt hstart (by omega) (by omega) hsize hid (by omega)
  have hfilling : fill'.records.items.map StagedRecord.pending =
      p.staging.fill.records.items.map StagedRecord.pending := by
    rw [hitems', hsplit]
    simp [StagedRecord.pending, StagedRecord.setLocation, StagedRecord.previous]
  have hlength' : fill'.records.items.length = p.staging.fill.records.items.length := by
    simpa using congrArg List.length hfilling
  refine ⟨{ p with staging := { p.staging with fill := fill' } }.goto (.padded receipt), _, ?_,
    ⟨_, _, _, records ++ [last.padded _ hmod hmax], job, .refl v.inv v.space v.shardAt, rfl, rfl,
      ?_, rfl⟩, ?_⟩
  · unfold DataPath.flushPad
    rw [onStaging_bind_ok hp hrun]
    dsimp only
    rw [setPhase_ok (shards_setShard hp _), setShard_setShard]
  · have hopened := opened_of_fill hfill' (by simp)
    rw [hstart', hlength', hmax'] at hopened
    refine { h with
      isOpen := h.isOpen
      padding_eq := h.padding_eq.trans (by rw [hphase]; rfl)
      submitted_eq := h.submitted_eq.trans (by rw [hphase]; rfl)
      rotation_eq := h.rotation_eq.trans (by rw [hphase]; rfl)
      opened_eq := ?_
      gate_iff := ⟨fun _ => rfl, fun _ => hgate⟩
      filled := ⟨extended, ?_, hfill'⟩
      seen := fun _ => by simp
      reserved := fun _ _ heq => ?_
      encoding := fun _ _ _ _ _ _ heq => by cases hgate.symm.trans heq
      spare := fun _ => h.spare (by rw [hphase]; rfl)
      taken := fun _ heq => by cases heq
      sealed := fun _ _ heq => by cases heq
      padded := fun _ heq => ?_
      published := fun _ _ heq => by cases heq
      selected := fun _ heq => by cases heq
      geometry_eq := by rintro geometry (⟨span, heq⟩ | ⟨write, heq⟩) <;> cases heq }
    · rw [hopen, ShardPath.opened, ShardPath.goto]
      dsimp only
      rw [hgate]
      dsimp only
      rw [hopened, Option.map_some, hend]
    · rw [ShardPath.HoldsBuffer, ShardPath.goto]
      dsimp only
      rw [hgate]
      exact ⟨hbuffer', hbuffer.2⟩
    · rw [ShardPath.reserved?, ShardPath.goto] at heq
      dsimp only at heq
      rw [hgate] at heq
      cases heq
    · cases heq
      exact hend'.trans hsum
  · exact ⟨frame_of_idle (by rw [hphase]; rfl) rfl (fun heq => by cases heq) hfilling rfl rfl rfl,
      by rw [hphase]; rfl⟩

/-- The padded span is sealed. -/
theorem flushSeal (v : ShardView c s i shard regionId region p fill job)
    {receipt : RegionPaddingReceipt} (hphase : p.worker.phase = .padded receipt) :
    ∃ p' s', DataPath.flushSeal i receipt s = .ok () s' ∧ Moved c s i regionId region p' s' ∧
      ShardFrame p p' := by
  have h := v.link
  have hp := v.path_eq
  have hgate : p.gate = .worker := h.gate_iff.2 (by rw [hphase]; rfl)
  have hne := h.seen (by rw [hphase]; rfl)
  obtain ⟨buffer, hbuffer, hfill⟩ := h.filled
  have hpadded := h.padded receipt hphase
  have hopen := h.opened_eq
  rw [ShardPath.opened, hgate, hphase, opened_of_fill hfill hne] at hopen
  have hpadding := h.padding_eq
  have hsubmitted := h.submitted_eq
  have hrotation := h.rotation_eq
  rw [hphase] at hpadding hsubmitted hrotation
  obtain ⟨hseal, events, hnone, hstep⟩ :=
    sealWriteSpanWithPadding_run v.inv v.shardAt hopen h.tail_eq hsubmitted hrotation hpadding
  have hsealed := (ShardMove.refl v.inv v.space v.shardAt).step hstep
    fun r hr => absurd hr (hnone r)
  have hspan : p.staging.fill.span i regionId = ⟨i, regionId, p.staging.fill.startOffset,
      receipt.paddedEndOffset, p.staging.fill.records.items.length, p.staging.fill.maxSeqno⟩ := by
    rw [← hpadded]
    rfl
  refine ⟨p.goto (.sealed (p.staging.fill.span i regionId) c.geometry), _, ?_,
    ⟨_, _, _, fill, job, hsealed, rfl, rfl, ?_, rfl⟩, ?_⟩
  · unfold DataPath.flushSeal
    rw [onManager_bind_ok hseal, hspan]
    exact sealedFor_ok (shards_manager hp _) (hsealed.fits v.fits) hsealed.inv _
  · exact { h with
      padding_eq := rfl
      submitted_eq := by
        rw [hspan]
        rfl
      rotation_eq := hrotation
      opened_eq := by
        rw [ShardPath.opened, ShardPath.goto]
        dsimp only
        rw [hgate]
        rfl
      gate_iff := ⟨fun _ => rfl, fun _ => hgate⟩
      spare := fun _ => h.spare (by rw [hphase]; rfl)
      taken := fun _ heq => by cases heq
      seen := fun _ => hne
      sealed := fun _ _ heq => by
        cases heq
        rfl
      padded := fun _ heq => by cases heq
      published := fun _ _ heq => by cases heq
      selected := fun _ heq => by cases heq
      geometry_eq := by
        rintro geometry (⟨span, heq⟩ | ⟨write, heq⟩) <;> cases heq
        rfl }
  · exact ⟨frame_of_idle (by rw [hphase]; rfl) rfl (fun heq => by cases heq) rfl rfl rfl rfl,
      by rw [hphase]; rfl⟩

/-- **Taking.** The chunk is taken for the write, the spare one is filled, and the gate is free. -/
theorem flushTake (v : ShardView c s i shard regionId region p fill job) {span : RegionWriteSpan}
    {geometry : DataGeometry} (hphase : p.worker.phase = .sealed span geometry) :
    ∃ p' s', DataPath.flushTake c.chunkBytes c.regionSize i span geometry s = .ok () s' ∧
      Moved c s i regionId region p' s' ∧ ShardFrame p p' := by
  have h := v.link
  have hp := v.path_eq
  obtain ⟨hsize, hchunk, -, harea⟩ := bounds v.fits v.inv v.shardAt
  have hgate : p.gate = .worker := h.gate_iff.2 (by rw [hphase]; rfl)
  have hne := h.seen (by rw [hphase]; rfl)
  obtain ⟨buffer, hbuffer, hfill⟩ := h.filled
  rw [ShardPath.HoldsBuffer, hgate] at hbuffer
  obtain ⟨hsubmitted, spare, spareRecords, hspare, hspareLen, hspareRecords, hcapacity⟩ :=
    h.spare (by rw [hphase]; rfl)
  have hspan := h.sealed span geometry hphase
  have hmanager := h.submitted_eq
  rw [hphase] at hmanager
  obtain ⟨-, -, -, hlt, -⟩ := (v.inv.shards v.shardAt).submitted span hmanager
  have hend : span.endOffset ≤ c.regionSize := by
    have hle := submittedEnd_le (v.inv.shards v.shardAt)
    have hreserved := (v.inv.shards v.shardAt).reserved_le
    have hsizeEq := v.fits.size_eq
    rw [AppendShardState.submittedEnd, hmanager] at hle
    exact hle.trans (hreserved.trans hsizeEq.le)
  obtain ⟨write, hrun, hwspan, hwbuffer, hwlength, hwabsolute, hwrecords, hwbytes⟩ :=
    StagingShard.takeSealed_ok h.isOpen hbuffer.2 hsubmitted hbuffer.1 hfill hne hspare
      hspareRecords
      (show span = ⟨span.shardId, regionId, _, _, _, _⟩ by rw [hspan]; rfl) hend harea (by omega)
  have hlink : JobLink crc c i regionId region.createdSeqno write fill := by
    have hendEq := hfill.end_eq
    have hmatches : spanMatchesRecords span p.staging.fill.records.items = true := by
      rw [hspan] at hend ⊢
      refine spanMatchesRecords_of_staged crc hfill.staged rfl rfl (fun hnil => ?_) hendEq
        (hend.trans_lt (by omega)) hfill.ascends
      exact hne (hfill.isEmpty_iff.1 (by rw [FillChunk.isEmpty, hnil, List.isEmpty_nil]))
    constructor
    · rw [hwspan, hspan]
      rfl
    · rw [hwspan, hspan]
      rfl
    · exact hne
    · rw [hwspan, hwrecords, hspan]
      exact hfill.staged
    · exact hwbytes
    · rw [hwbuffer, hfill.length_eq]
    · exact hwlength
    · rw [hwspan, hwlength, hspan]
      exact hendEq
    · rw [hwspan]
      exact hend
    · rw [hwspan, hwrecords, hspan]
      rfl
    · rw [hwrecords]
      exact hfill.count_le
    · rw [hwabsolute, hwspan]
      rfl
    · rw [hwspan, hwrecords]
      exact hmatches
    · rw [hwrecords]
      exact hfill.capacity_le
    · exact hfill.generation_eq
  have hgeometry := h.geometry_eq geometry (.inl ⟨span, hphase⟩)
  refine ⟨{ p with
      staging := { p.staging with
        fill := .new spare spareRecords.capacity
        spareBuffer := none
        spareRecords := none
        submitted := some span }
      gate := .free }.goto (.taken write geometry), _, ?_, ⟨_, _, _, [], fill,
    .refl v.inv v.space v.shardAt, rfl, rfl, ?_, rfl⟩, ?_⟩
  · unfold DataPath.flushTake
    rw [onStaging_bind_ok hp hrun]
    dsimp only
    rw [bind_ok (setGate_ok (shards_setShard hp _) _), setShard_setShard,
      setPhase_ok (shards_setShard hp _), setShard_setShard]
  · exact { h with
      isOpen := h.isOpen
      padding_eq := h.padding_eq.trans (by rw [hphase]; rfl)
      submitted_eq := by
        rw [hmanager, ← hwspan]
        rfl
      rotation_eq := h.rotation_eq.trans (by rw [hphase]; rfl)
      opened_eq := by
        rw [h.opened_eq, ShardPath.opened, hgate, hphase]
        rfl
      gate_iff := ⟨fun heq => (by cases heq), fun heq => (by cases heq)⟩
      filled := ⟨spare, ⟨rfl, hbuffer.2⟩, .new hspareLen hcapacity⟩
      seen := fun heq => by cases heq
      reserved := fun _ _ heq => by cases heq
      encoding := fun _ _ _ _ _ _ heq => by cases heq
      spare := fun heq => by cases heq
      taken := fun _ heq => by
        cases heq
        exact ⟨by rw [hwspan]; rfl, rfl, rfl, hlink⟩
      sealed := fun _ _ heq => by cases heq
      padded := fun _ heq => by cases heq
      published := fun _ _ heq => by cases heq
      selected := fun _ heq => by cases heq
      geometry_eq := by
        rintro geometry' (⟨span, heq⟩ | ⟨write, heq⟩) <;> cases heq
        exact hgeometry }
  · have hpending : p.pending = p.staging.fill.records.items.map StagedRecord.pending := by
      rw [ShardPath.pending, hphase]
      rfl
    have hpending' : write.records.items.map StagedRecord.pending ++ [] = p.pending := by
      rw [List.append_nil, hwrecords, hpending]
    refine ⟨⟨⟨hpending', (reserved_of_worker hgate).1.symm, (reserved_of_worker hgate).2.symm,
      fun P g hdrain => ?_⟩, fun _ heq => (by cases heq), fun _ _ heq => (by cases heq)⟩,
      by rw [hphase]; rfl⟩
    constructor
    · exact fun hg item hitem => hdrain.completed hg item (hpending' ▸ hitem)
    · exact fun heq => by cases heq
    · exact fun _ _ _ item hitem => absurd hitem List.not_mem_nil

/-! ### Writing and publishing -/

/-- What is open, while the chunk is neither padded nor sealed. -/
lemma opened_of_isPlain (h : p.worker.phase.isPlain = true) :
    p.opened = p.reserved?.elim p.staging.fill.opened fun reserved =>
      some (p.staging.fill.openedWith reserved.2) := by
  rw [ShardPath.opened, ShardPath.reserved?]
  cases hphase : p.worker.phase with
  | padded receipt =>
    rw [hphase] at h
    cases h
  | sealed span geometry =>
    rw [hphase] at h
    cases h
  | _ => cases p.gate <;> rfl

/-- The worker has moved on, to a phase of which the rest of the shard sees the same. -/
lemma withWorker (h : ShardLink c i shard regionId region.createdSeqno p fill job)
    {worker : AppendWorker} (houtline : worker.phase.outline = p.worker.phase.outline)
    (hplain : p.worker.phase.isPlain = true) (hplain' : worker.phase.isPlain = true)
    (hsees : worker.phase.seesRecords = true → fill ≠ [])
    (hpublished : ∀ write rest, worker.phase = .publishing write rest →
      rest <:+ write.records.items)
    (hgeometry : ∀ write geometry, worker.phase = .taken write geometry → geometry = c.geometry)
    (hcounted : worker.drain ≤ p.drainRequested) :
    ShardLink c i shard regionId region.createdSeqno { p with worker } fill job := by
  simp only [WorkerPhase.outline, Prod.mk.injEq] at houtline
  obtain ⟨hpadding, hsubmitted, hrotation, hholds, hjob⟩ := houtline
  exact { h with
    isOpen := h.isOpen
    padding_eq := h.padding_eq.trans hpadding.symm
    submitted_eq := h.submitted_eq.trans hsubmitted.symm
    rotation_eq := h.rotation_eq.trans hrotation.symm
    opened_eq := by
      rw [h.opened_eq, opened_of_isPlain hplain]
      exact (opened_of_isPlain (p := { p with worker }) hplain').symm
    gate_iff := h.gate_iff.trans (by rw [hholds])
    seen := hsees
    spare := fun hnone => h.spare (hjob.symm.trans hnone)
    taken := fun write hsome => h.taken write (hjob.symm.trans hsome)
    sealed := fun span geometry heq => by
      dsimp only at heq
      rw [heq] at hplain'
      cases hplain'
    padded := fun receipt heq => by
      dsimp only at heq
      rw [heq] at hplain'
      cases hplain'
    published := hpublished
    selected := fun candidate heq => by
      dsimp only at heq
      rw [heq] at hplain'
      cases hplain'
    geometry_eq := by
      rintro geometry (⟨span, heq⟩ | ⟨write, heq⟩)
      · dsimp only at heq
        rw [heq] at hplain'
        cases hplain'
      · exact hgeometry write geometry heq
    counted := ⟨hcounted, h.counted.2⟩ }

/-- The write is submitted. -/
theorem flushSubmit (v : ShardView c s i shard regionId region p fill job) {write : StagedWrite}
    {geometry : DataGeometry} (hphase : p.worker.phase = .taken write geometry) :
    ∃ p' s', DataPath.flushSubmit i write geometry s = .ok () s' ∧
      Moved c s i regionId region p' s' ∧ ShardFrame p p' := by
  have h := v.link
  have hp := v.path_eq
  obtain ⟨-, -, -, hjob⟩ := h.taken write (by rw [hphase]; rfl)
  have hgeometry := h.geometry_eq geometry (.inr ⟨write, hphase⟩)
  have hmanager := h.submitted_eq
  rw [hphase] at hmanager
  obtain ⟨-, -, hstart, hlt, hend, hcount, -⟩ := (v.inv.shards v.shardAt).submitted _ hmanager
  have hcompleted := (v.inv.shards v.shardAt).completed_aligned
  have hid : write.span.regionId < s.manager.regions.length := by
    rw [hjob.region_eq]
    exact (List.getElem?_eq_some_iff.1 v.shardAt.region_eq).1
  have hvalid := validateSpan_ok v.fits hid (hstart ▸ hcompleted) hend hlt hjob.end_le hcount.ne'
  have hlength := hjob.end_eq
  refine ⟨p.goto (.writing write), _, ?_,
    moved_self v (h.withWorker ?_ ?_ rfl ?_ ?_ ?_ h.counted.1),
    ⟨⟨frame_of_phase ?_ rfl rfl rfl rfl rfl rfl ?_ ?_, ?_, ?_⟩, by rw [hphase]; rfl⟩⟩
  · unfold DataPath.flushSubmit
    rw [hgeometry, hvalid]
    dsimp only
    rw [if_neg, if_neg, setPhase_ok hp]
    · rw [directIoAlignment]
      omega
    · rw [hjob.absolute_eq, hjob.region_eq]
      simp only [ne_eq, not_true_eq_false, or_false, not_not]
      omega
  · rw [hphase]
    rfl
  · rw [hphase]
    rfl
  · exact fun heq => by cases heq
  · exact fun _ _ heq => by cases heq
  · exact fun _ _ heq => by cases heq
  · rw [hphase]
    rfl
  · exact fun heq => by cases heq
  · rw [hphase]
    exact fun _ => rfl
  · exact fun _ heq => by cases heq
  · exact fun _ _ heq => by cases heq

/-- The device has written the chunk. -/
lemma written (h : ShardLink c i shard regionId region.createdSeqno p fill job)
    {write : StagedWrite} (hphase : p.worker.phase = .writing write) :
    ShardLink c i shard regionId region.createdSeqno (p.goto (.written write)) fill job := by
  refine h.withWorker ?_ ?_ rfl ?_ ?_ ?_ h.counted.1
  · rw [hphase]
    rfl
  · rw [hphase]
    rfl
  · exact fun heq => by cases heq
  · exact fun _ _ heq => by cases heq
  · exact fun _ _ heq => by cases heq

/-- A record of the chunk is published. -/
lemma publish (h : ShardLink c i shard regionId region.createdSeqno p fill job)
    {write : StagedWrite} {item : StagedRecord} {rest : List StagedRecord}
    (hphase : p.worker.phase = .publishing write (item :: rest)) :
    ShardLink c i shard regionId region.createdSeqno (p.goto (.publishing write rest))
      fill job := by
  refine h.withWorker ?_ ?_ rfl ?_ ?_ ?_ h.counted.1
  · rw [hphase]
    rfl
  · rw [hphase]
    rfl
  · exact fun heq => by cases heq
  · intro write' rest' heq
    cases heq
    exact (List.suffix_cons item rest).trans (h.published _ _ hphase)
  · exact fun _ _ heq => by cases heq

/-- Nothing is published by the device. -/
lemma frame_written {write : StagedWrite} (hphase : p.worker.phase = .writing write) :
    PendingFrame p (p.goto (.written write)) := by
  refine frame_of_phase ?_ rfl rfl rfl rfl rfl rfl (fun heq => by cases heq) fun _ => ?_
  · rw [hphase]
    rfl
  · rw [hphase]
    rfl

/-- Nothing is published by the completion of a write. -/
lemma frame_completed {write : StagedWrite} (hphase : p.worker.phase = .written write) :
    PendingFrame p (p.goto (.publishing write write.records.items)) := by
  refine frame_of_phase ?_ rfl rfl rfl rfl rfl rfl (fun heq => by cases heq) fun _ => ?_
  · rw [hphase]
    rfl
  · rw [hphase]
    rfl

/-- The record that has waited longest is the one that is published. -/
lemma pending_publish {write : StagedWrite} {item : StagedRecord} {rest : List StagedRecord}
    (hphase : p.worker.phase = .publishing write (item :: rest)) :
    p.pending = item.pending :: (p.goto (.publishing write rest)).pending ∧
      ∀ P g, DrainInv P g p → DrainInv P g (p.goto (.publishing write rest)) := by
  have hpending : p.pending = item.pending :: (p.goto (.publishing write rest)).pending := by
    rw [ShardPath.pending, hphase]
    rfl
  refine ⟨hpending, fun P g h => ⟨?_, fun heq => (by cases heq), ?_⟩⟩
  · intro hg item' hitem
    exact h.completed hg item' (hpending ▸ List.mem_cons_of_mem _ hitem)
  · intro hlast _ hg
    exact h.last hlast (by rw [hphase]; rfl) hg

/-- **Completing.** The write is completed, and the records are to be published. -/
theorem flushComplete (v : ShardView c s i shard regionId region p fill job) {write : StagedWrite}
    (hphase : p.worker.phase = .written write) :
    ∃ m' shard' region',
      DataPath.flushComplete i write s = .ok () ({ s with manager := m' }.setShard i
        (p.goto (.publishing write write.records.items))) ∧
      ShardMove i regionId s.manager region m' shard' region' ∧
      region.completedUsed = write.span.startOffset ∧
      region'.completedUsed = write.span.endOffset ∧
      region'.physicalRecordCount = region.physicalRecordCount + write.span.recordCount ∧
      ShardLink c i shard' regionId region'.createdSeqno
        (p.goto (.publishing write write.records.items)) fill job := by
  have h := v.link
  have hp := v.path_eq
  have hmanager := h.submitted_eq
  rw [hphase] at hmanager
  obtain ⟨-, -, hstart, -⟩ := (v.inv.shards v.shardAt).submitted _ hmanager
  obtain ⟨hrun, hstep⟩ := completeWriteSpan_run v.inv v.space v.shardAt hmanager
  have hmove := (ShardMove.refl v.inv v.space v.shardAt).step hstep (by simp)
  refine ⟨_, _, _, ?_, hmove, hstart.symm, rfl, rfl, ?_⟩
  · unfold DataPath.flushComplete
    rw [onManager_bind_ok hrun]
    exact setPhase_ok (shards_manager hp _) _
  · exact { h with
      isOpen := h.isOpen
      padding_eq := h.padding_eq.trans (by rw [hphase]; rfl)
      submitted_eq := rfl
      rotation_eq := h.rotation_eq.trans (by rw [hphase]; rfl)
      opened_eq := by
        show shard.openSpan = _
        rw [h.opened_eq, opened_of_isPlain (by rw [hphase]; rfl)]
        symm
        exact opened_of_isPlain (p := p.goto (.publishing write write.records.items)) rfl
      gate_iff := h.gate_iff.trans (by rw [hphase]; rfl)
      seen := fun heq => by cases heq
      spare := fun heq => by cases heq
      taken := fun write' heq => h.taken write' (by rw [hphase]; exact heq)
      sealed := fun _ _ heq => by cases heq
      padded := fun _ heq => by cases heq
      published := fun _ _ heq => by
        cases heq
        exact List.suffix_refl _
      selected := fun _ heq => by cases heq
      geometry_eq := by rintro geometry' (⟨span, heq⟩ | ⟨write, heq⟩) <;> cases heq }

/-- The worker returns from a flush. -/
def returned (p : ShardPath crc) : WorkerPhase := if p.worker.last then .drained else .flushed

/-- **Returning.** After the last record, the chunk is the spare one again. -/
theorem flushFinish (v : ShardView c s i shard regionId region p fill job) {write : StagedWrite}
    (hphase : p.worker.phase = .publishing write []) :
    ∃ p' s', DataPath.flushPublish i write [] s = .ok () s' ∧
      Moved c s i regionId region p' s' ∧ ShardFrame p p' := by
  have h := v.link
  have hp := v.path_eq
  obtain ⟨hsubmitted, hspare, hspareRecords, hjob⟩ := h.taken write (by rw [hphase]; rfl)
  have hlength : Word.checkedSub write.span.endOffset write.span.startOffset =
      some write.length := by
    rw [hjob.end_eq, Word.checkedSub_of_le (Nat.le_add_right _ _), Nat.add_sub_cancel_left]
  have hrun : StagingShard.finish write.span (some (write.buffer, write.length)) write.records false
      p.staging = .ok () _ :=
      StagingShard.finish_ok h.isOpen hsubmitted hspare hspareRecords hlength
        hjob.capacity_le hjob.matches_eq
  have hreturned : returned p = .drained ∧ p.worker.last = true ∨ returned p = .flushed := by
    unfold returned
    split_ifs with hlast
    · exact .inl ⟨rfl, hlast⟩
    · exact .inr rfl
  have houtline : (returned p).outline = WorkerPhase.flushed.outline := by
    rcases hreturned with ⟨heq, -⟩ | heq
    · rw [heq]
      rfl
    · rw [heq]
  simp only [WorkerPhase.outline, Prod.mk.injEq] at houtline
  obtain ⟨hpadding, hsub, hrotation, hholds, hnone⟩ := houtline
  have hcases : ∀ phase, returned p = phase → phase = .drained ∨ phase = .flushed := by
    rintro phase rfl
    exact hreturned.imp And.left id
  have hpending : ShardPath.pending { p with worker := { p.worker with phase := returned p } } =
      p.filling := by
    rw [ShardPath.pending]
    dsimp only
    rw [WorkerPhase.waitingRecords_eq_nil hnone]
    rfl
  have hold : p.pending = p.filling := by
    rw [ShardPath.pending, hphase]
    rfl
  refine ⟨{ p with staging := { p.staging with
      spareBuffer := some write.buffer
      spareRecords := some ⟨[], write.records.capacity⟩
      submitted := none } }.goto (returned p), _, ?_, ⟨_, _, _, fill, job,
    .refl v.inv v.space v.shardAt, rfl, rfl, ?_, rfl⟩, ?_⟩
  · rw [DataPath.flushPublish, onStaging_bind_ok hp hrun]
    dsimp only
    rw [flushReturn, shard_bind (shards_setShard hp _), setPhase_ok (shards_setShard hp _),
      setShard_setShard]
    rfl
  · exact { h with
      isOpen := h.isOpen
      padding_eq := h.padding_eq.trans (by rw [hphase]; exact hpadding.symm)
      submitted_eq := h.submitted_eq.trans (by rw [hphase]; exact hsub.symm)
      rotation_eq := h.rotation_eq.trans (by rw [hphase]; exact hrotation.symm)
      opened_eq := by
        rw [h.opened_eq, opened_of_isPlain (by rw [hphase]; rfl)]
        symm
        refine opened_of_isPlain ?_
        rcases hreturned with ⟨heq, -⟩ | heq <;> exact congrArg WorkerPhase.isPlain heq
      gate_iff := h.gate_iff.trans
        (by rw [hphase]; exact Iff.of_eq (congrArg (· = true) hholds.symm))
      seen := fun heq => by
        rcases hcases _ rfl with hc | hc
        · exact absurd (congrArg WorkerPhase.seesRecords hc ▸ heq) (by decide)
        · exact absurd (congrArg WorkerPhase.seesRecords hc ▸ heq) (by decide)
      spare := fun _ => ⟨rfl, _, _, rfl, hjob.buffer_eq, rfl, hjob.capacity_le⟩
      taken := fun _ heq => by cases hnone.symm.trans heq
      sealed := fun _ _ heq => by rcases hcases _ heq with hc | hc <;> cases hc
      padded := fun _ heq => by rcases hcases _ heq with hc | hc <;> cases hc
      published := fun _ _ heq => by rcases hcases _ heq with hc | hc <;> cases hc
      selected := fun _ heq => by rcases hcases _ heq with hc | hc <;> cases hc
      geometry_eq := by
        rintro geometry (⟨span, heq⟩ | ⟨write, heq⟩)
        · rcases hcases _ heq with hc | hc <;> cases hc
        · rcases hcases _ heq with hc | hc <;> cases hc }
  · refine ⟨⟨⟨hpending.trans hold.symm, rfl, rfl, fun P g hdrain => ?_⟩, fun _ heq => ?_,
      fun _ _ heq => ?_⟩, ?_⟩
    · constructor
      · exact fun hg item hitem => hdrain.completed hg item (hold ▸ hpending ▸ hitem)
      · intro heq hg item hitem
        rcases hreturned with ⟨-, hlast⟩ | heq'
        · exact hdrain.last hlast (by rw [hphase]; rfl) hg item (hpending ▸ hitem)
        · cases heq'.symm.trans heq
      · intro _ hsome
        exact absurd (hnone ▸ hsome) (by decide)
    · rcases hcases _ heq with hc | hc <;> cases hc
    · rcases hcases _ heq with hc | hc <;> cases hc
    · rw [hphase]
      exact WorkerPhase.rotating_eq_none hholds

/-! ### The loop of the worker -/

/-- The worker moves between phases in which it has nothing outstanding. -/
lemma idle_move (v : ShardView c s i shard regionId region p fill job) (worker : AppendWorker)
    (houtline : p.worker.phase.outline = WorkerPhase.waiting.outline)
    (houtline' : worker.phase.outline = WorkerPhase.waiting.outline)
    (hplain : p.worker.phase.isPlain = true) (hplain' : worker.phase.isPlain = true)
    (hsees : worker.phase.seesRecords = true → fill ≠ []) (hdrained : worker.phase ≠ .drained)
    (hcounted : worker.drain ≤ p.drainRequested) :
    Moved c s i regionId region { p with worker } (s.setShard i { p with worker }) ∧
      ShardFrame p { p with worker } := by
  have hjob : ∀ {phase : WorkerPhase}, phase.outline = WorkerPhase.waiting.outline →
      phase.job? = none := fun heq => congrArg (·.2.2.2.2) heq
  have hrotating : ∀ {phase : WorkerPhase}, phase.outline = WorkerPhase.waiting.outline →
      phase.rotating? = none :=
    fun heq => WorkerPhase.rotating_eq_none (congrArg (·.2.2.2.1) heq)
  refine ⟨moved_self v (v.link.withWorker (houtline'.trans houtline.symm) hplain hplain' hsees ?_ ?_
    hcounted), frame_of_idle (hjob houtline) (hjob houtline') hdrained rfl rfl rfl rfl,
    (hrotating houtline').trans (hrotating houtline).symm⟩
  · intro write rest heq
    have := hjob houtline'
    rw [heq] at this
    cases this
  · intro write geometry heq
    have := hjob houtline'
    rw [heq] at this
    cases this

/-- The worker wakes up, and looks for a drain. -/
theorem workerWake (v : ShardView c s i shard regionId region p fill job)
    (hphase : p.worker.phase = .waiting) :
    ∃ p' s', DataPath.workerWake i s = .ok () s' ∧ Moved c s i regionId region p' s' ∧
      ShardFrame p p' := by
  have hcounted := v.link.counted
  obtain ⟨hmoved, hframe⟩ := idle_move v ⟨.awake,
    if p.drainCompleted < p.drainRequested then p.drainRequested else 0, false⟩ (by rw [hphase]) rfl
    (by rw [hphase]; rfl) rfl (fun heq => by cases heq) (fun heq => by cases heq) (by
      dsimp only
      split_ifs <;> omega)
  refine ⟨_, _, ?_, hmoved, hframe⟩
  rw [DataPath.workerWake, shard_bind v.path_eq]
  rfl

/-- The worker skips what it has nothing to do for. -/
theorem workerSkip (v : ShardView c s i shard regionId region p fill job) {phase : WorkerPhase}
    (hphase : p.worker.phase = .awake ∧ phase = .flushed ∨
      p.worker.phase = .flushed ∧ phase = .rotated) :
    ∃ p' s', setPhase i phase s = .ok () s' ∧ Moved c s i regionId region p' s' ∧
      ShardFrame p p' := by
  have hcounted := v.link.counted.1
  refine ⟨p.goto phase, _, setPhase_ok v.path_eq _, idle_move v _ ?_ ?_ ?_ ?_ ?_ ?_ hcounted⟩ <;>
    rcases hphase with ⟨heq, rfl⟩ | ⟨heq, rfl⟩ <;>
    first | (rw [heq]; rfl) | (rw [heq]) | rfl | exact fun h => by cases h

/-- What the worker sees of the chunk. -/
lemma snapshot (v : ShardView c s i shard regionId region p fill job)
    (hjob : p.worker.phase.job? = none) :
    StagingShard.shardFillSnapshot c.chunkBytes p.staging = .error .wouldBlock p.staging ∨
    fill = [] ∧ StagingShard.shardFillSnapshot c.chunkBytes p.staging = .ok none p.staging ∨
    fill ≠ [] ∧ ∃ seen, StagingShard.shardFillSnapshot c.chunkBytes p.staging =
      .ok (some seen) p.staging := by
  have h := v.link
  obtain ⟨hsubmitted, -⟩ := h.spare hjob
  obtain ⟨buffer, -, hfill⟩ := h.filled
  cases hencoding : p.staging.encoding with
  | some receipt =>
    left
    exact StagingShard.shardFillSnapshot_busy h.isOpen (.inl (by rw [hencoding]; rfl))
  | none =>
    have hrun := StagingShard.shardFillSnapshot_ok h.isOpen hencoding hsubmitted hfill
    by_cases hnil : fill = []
    · rw [if_pos hnil] at hrun
      exact .inr (.inl ⟨hnil, hrun⟩)
    · rw [if_neg hnil] at hrun
      exact .inr (.inr ⟨hnil, _, hrun⟩)

/-- The worker looks at the chunk. -/
theorem workerSnapshot (v : ShardView c s i shard regionId region p fill job)
    (hphase : p.worker.phase = .awake) :
    ∃ p' s', DataPath.workerSnapshot c.chunkBytes i s = .ok () s' ∧
      Moved c s i regionId region p' s' ∧ ShardFrame p p' := by
  have hp := v.path_eq
  have hcounted := v.link.counted.1
  have hflushed := idle_move v { p.worker with phase := .flushed } (by rw [hphase]; rfl) rfl
    (by rw [hphase]; rfl) rfl (fun heq => by cases heq) (fun heq => by cases heq) hcounted
  unfold DataPath.workerSnapshot
  rcases snapshot v (by rw [hphase]; rfl) with hrun | ⟨-, hrun⟩ | ⟨hne, seen, hrun⟩
  · refine ⟨_, _, ?_, hflushed⟩
    rw [onStaging_bind_error hp hrun, setShard_self hp]
    exact setPhase_ok hp _
  · refine ⟨_, _, ?_, hflushed⟩
    rw [onStaging_bind_ok hp hrun, setShard_self hp]
    exact setPhase_ok hp _
  · refine ⟨_, _, ?_, idle_move v { p.worker with phase := .locking }
      (by rw [hphase]; rfl) rfl (by rw [hphase]; rfl) rfl (fun _ => hne) (fun heq => by cases heq)
      hcounted⟩
    rw [onStaging_bind_ok hp hrun, setShard_self hp]
    exact setPhase_ok hp _

/-- At the end of its loop, the worker flushes what is left for a drain, or has drained the
shard. -/
theorem workerDrain (v : ShardView c s i shard regionId region p fill job)
    (hphase : p.worker.phase = .rotated) :
    ∃ p' s', DataPath.workerDrain c.chunkBytes i s = .ok () s' ∧
      Moved c s i regionId region p' s' ∧ ShardFrame p p' := by
  have h := v.link
  have hp := v.path_eq
  have hcounted := h.counted.1
  have houtline : p.worker.phase.outline = WorkerPhase.waiting.outline := by
    rw [hphase]
    rfl
  have hplain : p.worker.phase.isPlain = true := by
    rw [hphase]
    rfl
  have hwaiting := idle_move v { p.worker with phase := .waiting } houtline rfl hplain
    rfl (fun heq => by cases heq) (fun heq => by cases heq) hcounted
  unfold DataPath.workerDrain
  rw [shard_bind hp]
  split_ifs with hzero
  · exact ⟨_, _, setPhase_ok hp _, hwaiting⟩
  rcases snapshot v (by rw [hphase]; rfl) with hrun | ⟨hnil, hrun⟩ | ⟨hne, seen, hrun⟩
  · refine ⟨_, _, ?_, hwaiting⟩
    rw [onStaging_bind_error hp hrun, setShard_self hp]
    exact setPhase_ok hp _
  · -- nothing is left in the chunk, and no chunk is on its way
    obtain ⟨buffer, -, hfill⟩ := h.filled
    have hitems : p.staging.fill.records.items = [] := by
      rw [← List.length_eq_zero_iff, hfill.staged.length_eq, hnil, List.length_nil]
    have hpending : (p.goto .drained).pending = p.pending := by
      rw [ShardPath.pending, ShardPath.pending, hphase]
      rfl
    have hempty : p.pending = [] := by
      rw [ShardPath.pending, ShardPath.filling, hitems, hphase]
      rfl
    refine ⟨p.goto .drained, _, ?_, moved_self v (h.withWorker (houtline ▸ rfl) hplain rfl ?_ ?_ ?_
      hcounted), ⟨⟨hpending, rfl, rfl, fun P g hdrain => ⟨?_, ?_, ?_⟩⟩, ?_, ?_⟩,
      by rw [hphase]; rfl⟩
    · rw [onStaging_bind_ok hp hrun, setShard_self hp]
      exact setPhase_ok hp _
    · exact fun heq => by cases heq
    · exact fun _ _ heq => by cases heq
    · exact fun _ _ heq => by cases heq
    · rw [hpending]
      exact hdrain.completed
    · rw [hpending, hempty]
      exact fun _ _ _ hitem => absurd hitem List.not_mem_nil
    · exact fun _ hsome => by cases hsome
    · exact fun _ heq => by cases heq
    · exact fun _ _ heq => by cases heq
  · refine ⟨_, _, ?_, idle_move v { p.worker with phase := .locking, last := true }
      houtline rfl hplain rfl (fun _ => hne) (fun heq => by cases heq) hcounted⟩
    rw [onStaging_bind_ok hp hrun, setShard_self hp]
    dsimp only
    rw [shard_bind hp]
    rfl

/-- **Drains.** The worker has drained the shard, and says so. -/
theorem drainComplete (v : ShardView c s i shard regionId region p fill job)
    (hphase : p.worker.phase = .drained) :
    ∃ p' s', DataPath.drainComplete i s = .ok () s' ∧ Moved c s i regionId region p' s' ∧
      ShardFrame p p' := by
  have h := v.link
  have hp := v.path_eq
  have hcounted := h.counted
  have hlink : ShardLink c i shard regionId region.createdSeqno
      { p with worker := { p.worker with phase := .waiting } } fill job :=
    h.withWorker (by rw [hphase]; rfl) (by rw [hphase]; rfl) rfl (fun heq => by cases heq)
      (fun _ _ heq => by cases heq) (fun _ _ heq => by cases heq) hcounted.1
  refine ⟨{ p with
      drainCompleted := max p.drainCompleted p.worker.drain
      worker := { p.worker with phase := .waiting } }, _, ?_, moved_self v { hlink with
    isOpen := hlink.isOpen
    counted := ⟨hcounted.1, max_le hcounted.2 hcounted.1⟩ }, ?_⟩
  · rw [DataPath.drainComplete, shard_bind hp]
    rfl
  · have hpending : ShardPath.pending { p with
        drainCompleted := max p.drainCompleted p.worker.drain
        worker := { p.worker with phase := .waiting } } = p.pending := by
      rw [ShardPath.pending, ShardPath.pending, hphase]
      rfl
    refine ⟨⟨⟨hpending, rfl, rfl, fun P g hdrain => ⟨?_, ?_, ?_⟩⟩, fun _ heq => (by cases heq),
      fun _ _ heq => (by cases heq)⟩, by rw [hphase]; rfl⟩
    · intro hg item hitem
      rw [hpending] at hitem
      rcases le_max_iff.1 hg with hg | hg
      · exact hdrain.completed hg item hitem
      · exact hdrain.drained hphase hg item hitem
    · exact fun heq => by cases heq
    · exact fun _ hsome => by cases hsome

/-- A drain is requested, unless the generations are exhausted. -/
theorem drainRequest (v : ShardView c s i shard regionId region p fill job)
    (hlt : p.drainRequested + 1 < 2 ^ 64) :
    ∃ p' s', DataPath.drainRequest i s = .ok (p.drainRequested + 1) s' ∧
      Moved c s i regionId region p' s' ∧ ShardFrame p p' ∧ p'.pending = p.pending ∧
      ∀ P, DrainInv P (p.drainRequested + 1) p' := by
  have h := v.link
  have hp := v.path_eq
  have hcounted := h.counted
  have hframe : ShardFrame p { p with drainRequested := p.drainRequested + 1 } :=
    frame_of_worker rfl rfl rfl rfl rfl
  refine ⟨{ p with drainRequested := p.drainRequested + 1 }, _, ?_, moved_self v { h with
    isOpen := h.isOpen
    counted := ⟨by dsimp only; omega, by dsimp only; omega⟩ }, hframe, hframe.pending_eq,
    fun P => ?_⟩
  · rw [DataPath.drainRequest, shard_bind hp, okOr_bind (Word.checkedAdd_of_lt hlt)]
    rfl
  · -- the drain has neither been completed nor been seen by the worker
    constructor
    · intro hg
      dsimp only at hg
      omega
    · intro _ hg
      dsimp only at hg
      omega
    · intro _ _ hg
      dsimp only at hg
      omega

/-! ### Rotating -/

/-- The worker takes the gate for a rotation. -/
theorem rotateGate (v : ShardView c s i shard regionId region p fill job)
    (hphase : p.worker.phase = .flushed) (hgate : p.gate = .free) :
    ∃ p' s', (do
        setGate i .worker
        setPhase i .gated : PathM crc Unit) s = .ok () s' ∧ Moved c s i regionId region p' s' ∧
      ShardFrame p p' := by
  have h := v.link
  have hp := v.path_eq
  obtain ⟨buffer, hbuffer, hfill⟩ := h.filled
  rw [ShardPath.HoldsBuffer, hgate] at hbuffer
  refine ⟨{ p with gate := .worker }.goto .gated, _, ?_,
    moved_self v (?_ : ShardLink c i shard regionId region.createdSeqno _ fill job), ?_⟩
  · rw [bind_ok (setGate_ok hp _), setPhase_ok (shards_setShard hp _), setShard_setShard]
  · exact { h with
      isOpen := h.isOpen
      padding_eq := h.padding_eq.trans (by rw [hphase]; rfl)
      submitted_eq := h.submitted_eq.trans (by rw [hphase]; rfl)
      rotation_eq := h.rotation_eq.trans (by rw [hphase]; rfl)
      opened_eq := h.opened_eq.trans (opened_of_free hgate (by rw [hphase]; rfl))
      gate_iff := ⟨fun _ => rfl, fun _ => rfl⟩
      filled := ⟨buffer, hbuffer, hfill⟩
      seen := fun heq => by cases heq
      reserved := fun _ _ heq => by cases heq
      encoding := fun _ _ _ _ _ _ heq => by cases heq
      spare := fun _ => h.spare (by rw [hphase]; rfl)
      taken := fun _ heq => by cases heq
      sealed := fun _ _ heq => by cases heq
      padded := fun _ heq => by cases heq
      published := fun _ _ heq => by cases heq
      selected := fun _ heq => by cases heq
      geometry_eq := by rintro geometry (⟨span, heq⟩ | ⟨write, heq⟩) <;> cases heq }
  · exact ⟨frame_of_idle (by rw [hphase]; rfl) rfl (fun heq => by cases heq) rfl rfl
      (reserved_of_free hgate).1.symm (reserved_of_free hgate).2.symm, by rw [hphase]; rfl⟩

/-- The worker gives the gate back. -/
lemma gate_freed (v : ShardView c s i shard regionId region p fill job)
    (hphase : p.worker.phase = .gated) :
    Moved c s i regionId region ({ p with gate := .free }.goto .rotated)
        (s.setShard i ({ p with gate := .free }.goto .rotated)) ∧
      ShardFrame p ({ p with gate := .free }.goto .rotated) := by
  have h := v.link
  have hgate : p.gate = .worker := h.gate_iff.2 (by rw [hphase]; rfl)
  obtain ⟨buffer, hbuffer, hfill⟩ := h.filled
  rw [ShardPath.HoldsBuffer, hgate] at hbuffer
  refine ⟨moved_self v (?_ : ShardLink c i shard regionId region.createdSeqno _ fill job), ?_⟩
  swap
  · exact ⟨frame_of_idle (by rw [hphase]; rfl) rfl (fun heq => by cases heq) rfl rfl
      (reserved_of_worker hgate).1.symm (reserved_of_worker hgate).2.symm, by rw [hphase]; rfl⟩
  exact { h with
    isOpen := h.isOpen
    padding_eq := h.padding_eq.trans (by rw [hphase]; rfl)
    submitted_eq := h.submitted_eq.trans (by rw [hphase]; rfl)
    rotation_eq := h.rotation_eq.trans (by rw [hphase]; rfl)
    opened_eq := by
      rw [h.opened_eq, opened_of_isPlain (by rw [hphase]; rfl), (reserved_of_worker hgate).1]
      rfl
    gate_iff := ⟨fun heq => (by cases heq), fun heq => (by cases heq)⟩
    filled := ⟨buffer, hbuffer, hfill⟩
    seen := fun heq => by cases heq
    reserved := fun _ _ heq => by cases heq
    encoding := fun _ _ _ _ _ _ heq => by cases heq
    spare := fun _ => h.spare (by rw [hphase]; rfl)
    taken := fun _ heq => by cases heq
    sealed := fun _ _ heq => by cases heq
    padded := fun _ heq => by cases heq
    published := fun _ _ heq => by cases heq
    selected := fun _ heq => by cases heq
    geometry_eq := by rintro geometry (⟨span, heq⟩ | ⟨write, heq⟩) <;> cases heq }

/-- **Selecting.** The worker selects the Region that it activates, or gives the gate back. -/
theorem rotateSelect (v : ShardView c s i shard regionId region p fill job)
    (hphase : p.worker.phase = .gated) :
    (∃ p' s', DataPath.rotateSelect i s = .ok () s' ∧ Moved c s i regionId region p' s' ∧
      ShardFrame p p' ∧ p'.worker.phase = .rotated) ∨
    ∃ candidate, DataPath.rotateSelect i s =
        .ok () ({ s with rotation := some i }.setShard i (p.goto (.selected candidate))) ∧
      s.manager.freeRegions.head? = some candidate.victimRegionId ∧
      ShardLink c i shard regionId region.createdSeqno (p.goto (.selected candidate)) fill job ∧
      RecordFrame p (p.goto (.selected candidate)) := by
  have h := v.link
  have hp := v.path_eq
  have hgate : p.gate = .worker := h.gate_iff.2 (by rw [hphase]; rfl)
  have hrequested : s.manager.appendStates[i]?.map (·.rotationRequested) =
      some shard.rotationRequested := by
    rw [v.shardAt.shard_eq]
    rfl
  have hfreed := gate_freed v hphase
  have hfree : (do
      setGate i .free
      setPhase i .rotated : PathM crc Unit) s =
        .ok () (s.setShard i ({ p with gate := .free }.goto .rotated)) := by
    rw [bind_ok (setGate_ok hp _), setPhase_ok (shards_setShard hp _), setShard_setShard]
  unfold DataPath.rotateSelect
  rw [get_bind, okOr_bind hrequested]
  cases hflag : shard.rotationRequested with
  | false => exact .inl ⟨_, _, hfree, hfreed.1, hfreed.2, rfl⟩
  | true =>
    rw [if_pos rfl]
    rcases rotationCandidate_cases v.inv v.shardAt with
      ⟨candidate, hrun, -, hopen, hid, hcreated, hhead⟩ | hrun
    · right
      refine ⟨candidate, ?_, hhead, ?_, ?_⟩
      · rw [onManager_bind_ok hrun]
        dsimp only
        rw [modify_bind]
        refine setPhase_ok ?_ _
        exact hp
      · exact { h with
          isOpen := h.isOpen
          padding_eq := h.padding_eq.trans (by rw [hphase]; rfl)
          submitted_eq := h.submitted_eq.trans (by rw [hphase]; rfl)
          rotation_eq := h.rotation_eq.trans (by rw [hphase]; rfl)
          opened_eq := by
            rw [h.opened_eq, ShardPath.opened, ShardPath.opened, ShardPath.goto]
            dsimp only
            rw [hgate, hphase]
          gate_iff := ⟨fun _ => rfl, fun _ => hgate⟩
          seen := fun heq => by cases heq
          spare := fun _ => h.spare (by rw [hphase]; rfl)
          taken := fun _ heq => by cases heq
          sealed := fun _ _ heq => by cases heq
          padded := fun _ heq => by cases heq
          published := fun _ _ heq => by cases heq
          selected := fun _ heq => by
            cases heq
            exact ⟨hflag, hopen, hid, hcreated⟩
          geometry_eq := by rintro geometry (⟨span, heq⟩ | ⟨write, heq⟩) <;> cases heq }
      · exact frame_of_idle (by rw [hphase]; rfl) rfl (fun heq => by cases heq) rfl rfl rfl rfl
    · rw [onManager_bind_error hrun]
      exact .inl ⟨_, _, hfree, hfreed.1, hfreed.2, rfl⟩

/-- An empty chunk is one for every Region. -/
lemma fillInv_of_nil {chunk : FillChunk} {buffer : List UInt8} {chunkBytes generation : ℕ}
    (h : FillInv crc chunkBytes regionId generation chunk buffer []) (regionId' generation' : ℕ) :
    FillInv crc chunkBytes regionId' generation' chunk buffer [] := by
  have hitems : chunk.records.items = [] := List.length_eq_zero_iff.1 h.staged.length_eq
  exact { h with
    staged := by
      rw [hitems]
      trivial
    region_eq := fun hne => absurd rfl hne
    generation_eq := fun _ hmem => absurd hmem List.not_mem_nil }

/-- **Activating.** The rotation begins, unless the numbers are exhausted. -/
theorem rotateBegin (v : ShardView c s i shard regionId region p fill job)
    {candidate : RegionRotationCandidate} (hphase : p.worker.phase = .selected candidate)
    (hhead : s.manager.freeRegions.head? = some candidate.victimRegionId) :
    (∃ free receipt, s.manager.freeRegions = receipt.activatedRegionId :: free ∧
      receipt = ⟨i, regionId, candidate.victimRegionId, s.manager.nextSeqno⟩ ∧
      s.manager.nextSeqno ≠ u64Max ∧
      (shard.tail = none ∧ shard.openSpan = none ∧ shard.pendingPadding = none ∧
        shard.submittedSpan = none ∧ shard.rotation = none) ∧
      region.reservedUsed = region.completedUsed ∧
      DataPath.rotateBegin i candidate s = .ok () ({ s with
        manager := s.manager.rotating shard region free receipt }.setShard i
          (p.goto (.activating receipt))) ∧
      ShardLink c i { shard with rotationRequested := false, rotation := some receipt }
        receipt.activatedRegionId receipt.activatedCreatedSeqno (p.goto (.activating receipt))
        [] [] ∧
      RecordFrame p (p.goto (.activating receipt))) ∨
    s.manager.nextSeqno = u64Max ∧ ∃ e s', s'.healthy = false ∧
      DataPath.rotateBegin i candidate s = .error e s' := by
  have h := v.link
  have hp := v.path_eq
  have hinv := v.inv.shards v.shardAt
  obtain ⟨hflag, hopen, hid, hcreated⟩ := h.selected candidate hphase
  have hgate : p.gate = .worker := h.gate_iff.2 (by rw [hphase]; rfl)
  have hpadding := h.padding_eq
  have hsubmitted := h.submitted_eq
  have hrotation := h.rotation_eq
  rw [hphase] at hpadding hsubmitted hrotation
  have hdone : region.reservedUsed = region.completedUsed := by
    rw [hinv.reserved_eq_openEnd h.tail_eq hpadding, AppendShardState.openEnd, hopen,
      AppendShardState.submittedEnd, hsubmitted]
    rfl
  obtain ⟨free, hfree⟩ : ∃ free, s.manager.freeRegions = candidate.victimRegionId :: free := by
    cases hl : s.manager.freeRegions with
    | nil =>
      rw [hl] at hhead
      cases hhead
    | cons a rest =>
      rw [hl] at hhead
      exact ⟨rest, by rw [Option.some.inj hhead]⟩
  have hvictim := v.inv.free candidate.victimRegionId (hfree ▸ List.mem_cons_self)
  have hne : candidate.victimRegionId ≠ regionId := fun heq =>
    (RegionManager.active_disjoint v.inv.nodup v.shardAt.active_eq).1
      (heq ▸ hfree ▸ List.mem_cons_self)
  have hcandidate : candidate = ⟨i, candidate.victimRegionId, 0⟩ := by
    rw [← hid, ← hcreated]
  by_cases hnext : s.manager.nextSeqno = u64Max
  · right
    refine ⟨hnext, ?_⟩
    cases hrun : RegionManager.beginRotation candidate s.manager with
    | ok receipt m' =>
      obtain ⟨-, -, -, -, -, -, -, -, -, -, -, hne, -⟩ := RegionManager.beginRotation_eq_ok hrun
      exact absurd hnext hne
    | error e m' =>
      refine ⟨_, _, ?_, manage_bind_error hrun _⟩
      rfl
  left
  have hlt : regionId < 2 ^ 32 := by
    have h1 := (List.getElem?_eq_some_iff.1 v.shardAt.region_eq).1
    have h2 : s.manager.regions.length ≤ 2 ^ 20 := v.inv.length_le
    omega
  have hrun : RegionManager.beginRotation candidate s.manager =
      .ok ⟨i, regionId, candidate.victimRegionId, s.manager.nextSeqno⟩
        (s.manager.rotating shard region free
          ⟨i, regionId, candidate.victimRegionId, s.manager.nextSeqno⟩) := by
    rw [hcandidate]
    exact RegionManager.beginRotation_of_selected v.shardAt
      ⟨hflag, h.tail_eq, hopen, hpadding, hsubmitted, hrotation⟩ ⟨hinv.active, hdone⟩ hfree
      ⟨hvictim, rfl, hne⟩ hnext hlt
  obtain ⟨buffer, hbuffer, hfill⟩ := h.filled
  -- nothing is open, so the chunk is empty
  have hnil : fill = [] := by
    by_contra hne
    have := h.opened_eq
    rw [hopen, ShardPath.opened, hgate, hphase, opened_of_fill hfill hne] at this
    cases this
  subst hnil
  refine ⟨free, _, hfree, rfl, hnext, ⟨h.tail_eq, hopen, hpadding, hsubmitted, hrotation⟩,
    hdone, ?_, ?_, ?_⟩
  · rw [DataPath.rotateBegin, bind_ok (manage_ok hrun)]
    exact setPhase_ok (shards_manager hp _) _
  · rw [ShardPath.HoldsBuffer, hgate] at hbuffer
    exact { h with
      isOpen := h.isOpen
      tail_eq := h.tail_eq
      padding_eq := hpadding
      submitted_eq := hsubmitted
      rotation_eq := rfl
      opened_eq := by
        rw [ShardPath.opened, ShardPath.goto]
        dsimp only
        rw [hgate, FillChunk.opened, if_pos (hfill.isEmpty_iff.2 rfl)]
        exact hopen
      gate_iff := ⟨fun _ => rfl, fun _ => hgate⟩
      filled := ⟨buffer, by
        rw [ShardPath.HoldsBuffer, ShardPath.goto]
        dsimp only
        rw [hgate]
        exact hbuffer, fillInv_of_nil hfill _ _⟩
      seen := fun heq => by cases heq
      reserved := fun _ _ heq => by cases (reserved_of_worker hgate).1.symm.trans heq
      encoding := fun _ _ _ _ _ _ heq => by cases hgate.symm.trans heq
      spare := fun _ => h.spare (by rw [hphase]; rfl)
      taken := fun _ heq => by cases heq
      sealed := fun _ _ heq => by cases heq
      padded := fun _ heq => by cases heq
      published := fun _ _ heq => by cases heq
      selected := fun _ heq => by cases heq
      geometry_eq := by rintro geometry (⟨span, heq⟩ | ⟨write, heq⟩) <;> cases heq }
  · exact frame_of_idle (by rw [hphase]; rfl) rfl (fun heq => by cases heq) rfl rfl rfl rfl

/-- The shard when the generation is stored. -/
def stored (p : ShardPath crc) (receipt : RegionRotationReceipt) : ShardPath crc :=
  ({ p with gate := .free } : ShardPath crc).goto (.activated receipt)

/-- **Storing.** The generation of the activated Region is stored, and both locks are free. -/
theorem rotateStore (v : ShardView c s i shard regionId region p fill job)
    {receipt : RegionRotationReceipt} (hphase : p.worker.phase = .activating receipt)
    (hlen : s.generations.length = s.manager.regions.length) :
    receipt.activatedRegionId = regionId ∧ receipt.activatedCreatedSeqno = region.createdSeqno ∧
      DataPath.rotateStore i receipt s = .ok () ({ s with
        generations := s.generations.set receipt.activatedRegionId receipt.activatedCreatedSeqno
        rotation := none }.setShard i (stored p receipt)) ∧
      ShardLink c i shard regionId region.createdSeqno
        (stored p receipt) fill job ∧
      RecordFrame p (stored p receipt) := by
  have h := v.link
  have hp := v.path_eq
  have hrotation := h.rotation_eq
  rw [hphase] at hrotation
  obtain ⟨-, hid, hcreated, -⟩ := (v.inv.shards v.shardAt).rotation receipt hrotation
  have hlt := (List.getElem?_eq_some_iff.1 v.shardAt.region_eq).1
  have hgate : p.gate = .worker := h.gate_iff.2 (by rw [hphase]; rfl)
  obtain ⟨buffer, hbuffer, hfill⟩ := h.filled
  rw [ShardPath.HoldsBuffer, hgate] at hbuffer
  refine ⟨hid, hcreated, ?_, ?_, ?_⟩
  · unfold DataPath.rotateStore
    rw [get_bind, if_pos (by omega), modify_bind]
    have hp' : { s with
        generations := s.generations.set receipt.activatedRegionId receipt.activatedCreatedSeqno
        rotation := none }.shards[i]? = some p := hp
    rw [bind_ok (setGate_ok hp' _), setPhase_ok (shards_setShard hp' _), setShard_setShard]
    rfl
  · exact { h with
      isOpen := h.isOpen
      padding_eq := h.padding_eq.trans (by rw [hphase]; rfl)
      submitted_eq := h.submitted_eq.trans (by rw [hphase]; rfl)
      rotation_eq := hrotation
      opened_eq := by
        rw [h.opened_eq, opened_of_isPlain (by rw [hphase]; rfl), (reserved_of_worker hgate).1]
        rfl
      gate_iff := ⟨fun heq => (by cases heq), fun heq => (by cases heq)⟩
      filled := ⟨buffer, hbuffer, hfill⟩
      seen := fun heq => by cases heq
      reserved := fun _ _ heq => by cases heq
      encoding := fun _ _ _ _ _ _ heq => by cases heq
      spare := fun _ => h.spare (by rw [hphase]; rfl)
      taken := fun _ heq => by cases heq
      sealed := fun _ _ heq => by cases heq
      padded := fun _ heq => by cases heq
      published := fun _ _ heq => by cases heq
      selected := fun _ heq => by cases heq
      geometry_eq := by rintro geometry (⟨span, heq⟩ | ⟨write, heq⟩) <;> cases heq }
  · exact frame_of_idle (by rw [hphase]; rfl) rfl (fun heq => by cases heq) rfl rfl
      (reserved_of_worker hgate).1.symm (reserved_of_worker hgate).2.symm

/-- The rotation is finished. -/
theorem rotateFinish (v : ShardView c s i shard regionId region p fill job)
    {receipt : RegionRotationReceipt} (hphase : p.worker.phase = .activated receipt) :
    shard.rotation = some receipt ∧ receipt.shardId = i ∧
      DataPath.rotateFinish i receipt s = .ok () ({ s with
        manager := s.manager.rotated shard receipt }.setShard i (p.goto .rotated)) ∧
      ShardLink c i { shard with rotation := none } regionId region.createdSeqno (p.goto .rotated)
        fill job ∧
      RecordFrame p (p.goto .rotated) := by
  have h := v.link
  have hp := v.path_eq
  have hrotation := h.rotation_eq
  rw [hphase] at hrotation
  have hid := ((v.inv.shards v.shardAt).rotation receipt hrotation).1
  have hrun := finishRotation_run v.inv v.shardAt hrotation
  refine ⟨hrotation, hid, ?_, ?_, ?_⟩
  · unfold DataPath.rotateFinish
    rw [bind_ok (manage_ok hrun)]
    exact setPhase_ok (shards_manager hp _) _
  · exact { h with
      isOpen := h.isOpen
      padding_eq := h.padding_eq.trans (by rw [hphase]; rfl)
      submitted_eq := h.submitted_eq.trans (by rw [hphase]; rfl)
      rotation_eq := rfl
      opened_eq := by
        show shard.openSpan = _
        rw [h.opened_eq, opened_of_isPlain (by rw [hphase]; rfl)]
        symm
        exact opened_of_isPlain (p := p.goto .rotated) rfl
      gate_iff := h.gate_iff.trans (by rw [hphase]; rfl)
      seen := fun heq => by cases heq
      spare := fun _ => h.spare (by rw [hphase]; rfl)
      taken := fun _ heq => by cases heq
      sealed := fun _ _ heq => by cases heq
      padded := fun _ heq => by cases heq
      published := fun _ _ heq => by cases heq
      selected := fun _ heq => by cases heq
      geometry_eq := by rintro geometry (⟨span, heq⟩ | ⟨write, heq⟩) <;> cases heq }
  · exact frame_of_idle (by rw [hphase]; rfl) rfl (fun heq => by cases heq) rfl rfl rfl rfl

end Sections

end ShardLink

end Cache2
