import Cache2.Region.PathInvariant

set_option relaxedAutoImplicit false
set_option autoImplicit false

/-!
# The steps of the data path

Every kind of section keeps the invariant of the data path. A section of one shard is given by what
it does to the shard and to the manager; what follows for the disk, the index and the reclaim
workers is proved here once for each kind.

## Main results

* `Cache2.PathInv.quiet` — a section that neither stages nor publishes a record.
* `Cache2.PathInv.reserve`, `Cache2.PathInv.stage` — staging.
* `Cache2.PathInv.deviceWrite`, `Cache2.PathInv.deviceDone`, `Cache2.PathInv.complete`,
  `Cache2.PathInv.publish` — from the device to the index.
* `Cache2.PathInv.rotating`, `Cache2.PathInv.store`, `Cache2.PathInv.rotated` — rotations.
-/

namespace Cache2

open Bytes Loop Framing TokenTable

namespace PathInv

section Steps

variable {crc : List UInt8 → BitVec 32} {c : PathConfig} {slotCount : ℕ}
  {ranges : List IndexPartitionRange} {log : ℕ → List ValueRecord} {s s' : DataPath crc}
  {i regionId : ℕ} {shard : AppendShardState} {region : RegionDesc} {p p' : ShardPath crc}
  {fill job : List ValueRecord}

/-! ### Sections of one shard -/

/-- Another shard that is activating a Region still is. -/
lemma activating_set (hp : s.shards[i]? = some p)
    (hnot : ∀ receipt, p.worker.phase ≠ .activating receipt) {j : ℕ} {q : ShardPath crc}
    {receipt : RegionRotationReceipt} (hq : s.shards[j]? = some q)
    (hphase : q.worker.phase = .activating receipt) :
    ∃ q, (s.shards.set i p')[j]? = some q ∧ q.worker.phase = .activating receipt := by
  have hj : j ≠ i := by
    rintro rfl
    obtain rfl := Option.some.inj (hp.symm.trans hq)
    exact hnot receipt hphase
  exact ⟨q, (List.getElem?_set_ne (Ne.symm hj)).trans hq, hphase⟩

/-- The manager and the shards agree after a section of one shard. -/
lemma linked_move (h : Linked c s) (v : ShardView c s i shard regionId region p fill job)
    {m' : RegionManager} {shard' : AppendShardState} {region' : RegionDesc}
    {fill' job' : List ValueRecord}
    (hmove : ShardMove i regionId s.manager region m' shard' region')
    (hlink : ShardLink c i shard' regionId region'.createdSeqno p' fill' job')
    (hrotating : p'.worker.phase.rotating? = p.worker.phase.rotating?) :
    Linked c ({ s with manager := m' }.setShard i p') := by
  have hput := hmove.eq_put
  have hphases : ∀ {j : ℕ} {q : ShardPath crc}, (s.shards.set i p')[j]? = some q →
      ∃ q₀, s.shards[j]? = some q₀ ∧ q.worker.phase.rotating? = q₀.worker.phase.rotating? := by
    intro j q hq
    rcases getElem?_set_cases hq with ⟨rfl, rfl⟩ | ⟨-, hq⟩
    · exact ⟨p, v.path_eq, hrotating⟩
    · exact ⟨q, hq, rfl⟩
  refine h.set (hmove.fits v.fits) hmove.inv hmove.space ?_ ?_ rfl ?_ hmove.shardAt hlink
    ?_ ?_
  · rw [DataPath.setShard, hput]
    exact List.length_set
  · show s.generations.length = m'.regions.length
    rw [h.length_generations, hput]
    exact List.length_set.symm
  · intro j id sh desc hne hat
    have hat' : (s.manager.put i regionId shard' region' m'.nextSeqno).ShardAt j sh id desc :=
      hput ▸ hat
    rcases v.shardAt.of_put v.inv.nodup hat' with ⟨heq, -⟩ | ⟨-, -, hat⟩
    · exact absurd heq hne
    · exact hat
  · intro j q hq hsome
    obtain ⟨q₀, hq₀, heq⟩ := hphases hq
    exact h.rotating hq₀ (heq ▸ hsome)
  · intro j q candidate hq hphase
    obtain ⟨q₀, hq₀, heq⟩ := hphases hq
    have hfree : m'.freeRegions = s.manager.freeRegions := by
      rw [hput]
      rfl
    show m'.freeRegions.head? = _
    rw [hfree]
    rw [hphase] at heq
    refine h.selected hq₀ ?_
    cases hphase₀ : q₀.worker.phase <;> rw [hphase₀] at heq <;> cases heq
    rfl

/-- What a section of one shard leaves as it is, besides the reclaim workers. -/
lemma parts_moved (h : PathInv c slotCount ranges log s)
    (v : ShardView c s i shard regionId region p fill job)
    (hmoved : Moved c s i regionId region p' s')
    (hwritten : ∀ write, p'.worker.phase = .written write → p.worker.phase = .written write)
    (hpublishing : ∀ write rest, p'.worker.phase = .publishing write rest →
      p.worker.phase = .publishing write rest)
    (hrotating : p'.worker.phase.rotating? = p.worker.phase.rotating?) :
    Linked c s' ∧ OnDisk c log s' ∧ Indexed slotCount ranges log s' ∧ Generated s' ∧
      Later log s log s' ∧ s'.manager.reclaiming = s.manager.reclaiming := by
  obtain ⟨m', shard', region', fill', job', hmove, hcompleted, hcount, hlink, rfl⟩ := hmoved.moved
  have hlinked := linked_move h.linked v hmove hlink hrotating
  have hsame := SameContents.of_move v.shardAt hmove hcompleted hcount
  refine ⟨hlinked, ?_, ?_, ?_, .of_same hmove.next_le hsame, hsame.reclaiming_eq⟩
  · refine h.stored.frame rfl hsame fun hq hphase => ?_
    rcases getElem?_set_cases hq with ⟨rfl, rfl⟩ | ⟨-, hq⟩
    · exact ⟨p, v.path_eq, hwritten _ hphase⟩
    · exact ⟨_, hq, hphase⟩
  · refine h.indexed.frame rfl fun hq hphase => ?_
    rcases getElem?_set_cases hq with ⟨rfl, rfl⟩ | ⟨-, hq⟩
    · exact ⟨p, v.path_eq, hpublishing _ _ hphase⟩
    · exact ⟨_, hq, hphase⟩
  · refine h.generated.frame rfl hsame.created (fun {j q receipt} hq hphase => ?_)
      fun {w receipt} => Iff.rfl
    by_cases hj : j = i
    · subst hj
      obtain rfl := Option.some.inj (hq.symm.trans v.path_eq)
      refine ⟨p', DataPath.shards_setShard hq p', ?_⟩
      rw [hphase] at hrotating
      cases hphase' : p'.worker.phase <;> rw [hphase'] at hrotating <;> cases hrotating
      rfl
    · exact ⟨q, (List.getElem?_set_ne (Ne.symm hj)).trans hq, hphase⟩

/-- A section that neither stages nor publishes a record keeps the invariant. -/
theorem quiet (h : PathInv c slotCount ranges log s)
    (v : ShardView c s i shard regionId region p fill job)
    (hmoved : Moved c s i regionId region p' s') (hframe : ShardFrame p p') :
    Keeps c slotCount ranges log s s' := by
  obtain ⟨hlinked, hstored, hindexed, hgenerated, hlater, hreclaiming⟩ := h.parts_moved v hmoved
    hframe.written hframe.publishing hframe.rotating_eq
  obtain ⟨m', shard', region', fill', job', -, -, -, -, rfl⟩ := hmoved.moved
  refine ⟨log, ⟨hlinked, hstored, hindexed, hgenerated, ?_⟩, hlater, rfl⟩
  exact h.reclaims.keep List.length_set rfl hreclaiming (fun _ _ => rfl) (fun _ _ he => he)
    (pendingFrame_set v.path_eq hframe.toPendingFrame)

/-- **Reserving.** The record that is reserved is a new one, or that of the reclaim worker that
offers it. -/
theorem reserve (h : PathInv c slotCount ranges log s)
    (v : ShardView c s i shard regionId region p fill job) {owner : Option ℕ}
    {request : StageRequest crc} {receipt : RegionAppendReservation}
    (hmoved : Moved c s i regionId region { p with gate := .reserved owner request receipt } s')
    (hby : ReservedBy s i request owner) : Keeps c slotCount ranges log s s' := by
  obtain ⟨hlinked, hstored, hindexed, hgenerated, hlater, hreclaiming⟩ := h.parts_moved v hmoved
    (fun _ heq => heq) (fun _ _ heq => heq) rfl
  obtain ⟨m', shard', region', fill', job', -, -, -, -, rfl⟩ := hmoved.moved
  refine ⟨log, ⟨hlinked, hstored, hindexed, hgenerated, ?_⟩, hlater, rfl⟩
  refine h.reclaims.frame List.length_set rfl (fun r hmem => ⟨hreclaiming ▸ hmem, rfl,
    fun tok e he _ => ⟨he, fun j hcovered => ?_⟩⟩) ?_ ?_ ?_
  · refine hcovered.keep List.length_set fun hq hq' => ?_
    rcases getElem?_set_cases hq' with ⟨rfl, rfl⟩ | ⟨-, hq'⟩
    · exact Option.some.inj (v.path_eq.symm.trans hq) ▸ List.Subset.refl _
    · exact Option.some.inj (hq'.symm.trans hq) ▸ List.Subset.refl _
  · intro j q item previous hq hitem
    rcases getElem?_set_cases hq with ⟨rfl, rfl⟩ | ⟨-, hq⟩
    · exact h.reclaims.pending v.path_eq hitem
    · exact h.reclaims.pending hq hitem
  · intro j q request' receipt' hq hreserved
    rcases getElem?_set_cases hq with ⟨rfl, rfl⟩ | ⟨-, hq⟩
    · cases hreserved
      exact hby
    · exact h.reclaims.reserved hq hreserved
  · intro w scan generation q hphase hq
    have hdrain := (h.reclaims.link hphase).2.2
    rcases getElem?_set_cases hq with ⟨heq, rfl⟩ | ⟨-, hq⟩
    · have hdrain' := hdrain p (heq ▸ v.path_eq)
      exact ⟨hdrain'.completed, hdrain'.drained, hdrain'.last⟩
    · exact hdrain q hq

/-- A drain is not concerned with a record that does not have the property. -/
lemma drain_staged {P : PendingRecord → Prop} {g : ℕ} (h : DrainInv P g p) {item : PendingRecord}
    (hpending : p'.pending = p.pending ++ [item]) (hitem : ¬ P item)
    (hworker : p'.worker = p.worker)
    (hcompleted : p'.drainCompleted = p.drainCompleted) : DrainInv P g p' := by
  have hfilling : p'.filling = p.filling ++ [item] := by
    rw [ShardPath.pending, ShardPath.pending, hworker, List.append_assoc] at hpending
    exact List.append_cancel_left hpending
  have happend : ∀ {l : List PendingRecord}, (∀ x ∈ l, ¬ P x) → ∀ x ∈ l ++ [item], ¬ P x := by
    intro l hl x hx
    rcases List.mem_append.1 hx with hx | hx
    · exact hl x hx
    · exact List.mem_singleton.1 hx ▸ hitem
  constructor
  · rw [hcompleted, hpending]
    exact fun hg => happend (h.completed hg)
  · rw [hworker, hpending]
    exact fun hphase hg => happend (h.drained hphase hg)
  · rw [hworker, hfilling]
    exact fun hlast hsome hg => happend (h.last hlast hsome hg)

/-- **Staging.** The record is pending on its shard. If it is a reinsertion, the reclaim worker that
has offered it is still there. -/
theorem stage (h : PathInv c slotCount ranges log s)
    (v : ShardView c s i shard regionId region p fill job) {owner : Option ℕ}
    {request : StageRequest crc} {receipt : RegionAppendReservation} {start finish : ℕ}
    {buffer : List UInt8} (hgate : p.gate = .encoding owner request receipt start finish buffer)
    (hmoved : Moved c s i regionId region p' s')
    (hpending : p'.pending =
      p.pending ++ [(request.hash, receipt.seqno, request.reinsert.map Prod.snd)])
    (hworker : p'.worker = p.worker) (hfree : p'.gate = .free)
    (hcompleted : p'.drainCompleted = p.drainCompleted) :
    PathInv c slotCount ranges log s' ∧ Later log s log s' ∧ s'.healthy = s.healthy := by
  obtain ⟨hlinked, hstored, hindexed, hgenerated, hlater, hreclaiming⟩ := h.parts_moved v hmoved
    (fun _ heq => hworker ▸ heq) (fun _ _ heq => hworker ▸ heq) (by rw [hworker])
  obtain ⟨m', shard', region', fill', job', -, -, -, -, rfl⟩ := hmoved.moved
  have hby : ReservedBy s i request owner := by
    have hreserved : p.reserved? = some (request, receipt) := by
      rw [ShardPath.reserved?, hgate]
    have := h.reclaims.reserved v.path_eq hreserved
    rwa [ShardPath.owner?, hgate] at this
  -- what the reclaim worker knows, if the record is a reinsertion
  have hoffer : ∀ previous, request.reinsert.map Prod.snd = some previous →
      ∃ (w : ℕ) (scan : ReclaimScan) (scanned : ReclaimRecord) (record : RegionReinsertRecord crc),
        s.reclaimers[w]? = some (.offering scan scanned record) ∧ scan.shardId = i ∧
        scan.receipt.regionId = previous.regionId := by
    intro previous hprevious
    cases owner with
    | none =>
      rw [show request.reinsert = none from hby] at hprevious
      cases hprevious
    | some w =>
      obtain ⟨scan, scanned, record, hphase, hid, rfl⟩ := hby
      obtain ⟨-, valueRecord, hoffer, -⟩ := h.reclaims.link hphase
      cases hprevious
      exact ⟨w, scan, scanned, record, hphase, hid,
        (PackedLocation.fields_of_new hoffer.previous_eq).1.symm⟩
  refine ⟨⟨hlinked, hstored, hindexed, hgenerated, ?_⟩, hlater, rfl⟩
  refine h.reclaims.frame List.length_set rfl (fun r hmem => ⟨hreclaiming ▸ hmem, rfl,
    fun tok e he _ => ⟨he, fun j hcovered => ?_⟩⟩) ?_ ?_ ?_
  · refine hcovered.keep List.length_set fun hq hq' => ?_
    rcases getElem?_set_cases hq' with ⟨rfl, rfl⟩ | ⟨-, hq'⟩
    · rw [hpending, Option.some.inj (v.path_eq.symm.trans hq)]
      exact List.subset_append_left _ _
    · exact Option.some.inj (hq'.symm.trans hq) ▸ List.Subset.refl _
  · intro j q item previous hq hitem hprevious
    rcases getElem?_set_cases hq with ⟨rfl, rfl⟩ | ⟨-, hq⟩
    · rw [hpending] at hitem
      rcases List.mem_append.1 hitem with hitem | hitem
      · exact h.reclaims.pending v.path_eq hitem hprevious
      · rw [List.mem_singleton.1 hitem] at hprevious
        obtain ⟨w, scan, scanned, record, hphase, hid, hregion⟩ := hoffer previous hprevious
        exact ⟨w, _, scan, hphase, rfl, hid, hregion, fun _ => ⟨scanned, record, rfl⟩⟩
    · exact h.reclaims.pending hq hitem hprevious
  · intro j q request' receipt' hq hreserved
    rcases getElem?_set_cases hq with ⟨rfl, rfl⟩ | ⟨-, hq⟩
    · rw [ShardPath.reserved?, hfree] at hreserved
      cases hreserved
    · exact h.reclaims.reserved hq hreserved
  · intro w scan generation q hphase hq
    have hdrain := (h.reclaims.link hphase).2.2
    rcases getElem?_set_cases hq with ⟨heq, rfl⟩ | ⟨-, hq⟩
    · refine drain_staged (hdrain p (heq ▸ v.path_eq)) hpending ?_ hworker hcompleted
      rintro ⟨previous, hprevious, hregion⟩
      obtain ⟨w', scan', scanned, record, hphase', -, hregion'⟩ := hoffer previous hprevious
      have := h.reclaims.distinct hphase rfl hphase' rfl (hregion.symm.trans hregion'.symm)
      subst this
      cases hphase.symm.trans hphase'
    · exact hdrain q hq

/-! ### The device -/

/-- The Regions of the data file do not overlap. -/
lemma regionBase_le {id id' : ℕ} (h : id < id') :
    c.geometry.regionBase id + c.regionSize ≤ c.geometry.regionBase id' := by
  have hmul : (id + 1) * c.geometry.regionSize.toNat ≤ id' * c.geometry.regionSize.toNat :=
    Nat.mul_le_mul_right _ h
  rw [Nat.add_one_mul] at hmul
  unfold DataGeometry.regionBase PathConfig.regionSize
  omega

/-- A chunk on its way to the device goes behind what its Region has completed. -/
lemma job_area (v : ShardView c s i shard regionId region p fill job) (write : StagedWrite)
    (hjob : p.worker.phase.job? = some write)
    (hsubmitted : p.worker.phase.submitted? = some write.span) :
    write.absolute = c.geometry.regionBase regionId + region.completedUsed ∧
      write.absolute + write.length ≤ c.geometry.regionBase regionId + c.regionSize ∧
      write.bytes.length = write.length ∧
      c.geometry.regionBase regionId + c.regionSize ≤ c.geometry.dataFileLen.toNat := by
  obtain ⟨-, -, -, hlink⟩ := v.link.taken write hjob
  obtain ⟨-, -, hstart, -⟩ := (v.inv.shards v.shardAt).submitted _
    (v.link.submitted_eq.trans hsubmitted)
  have hid : regionId < s.manager.regions.length :=
    (List.getElem?_eq_some_iff.1 v.shardAt.region_eq).1
  have hfile := (DataGeometry.regionBase_spec v.fits.valid (v.fits.count_eq ▸ hid)).2
  have habsolute := hlink.absolute_eq
  have hend := hlink.end_eq
  have hle := hlink.end_le
  refine ⟨by omega, by omega, ?_, hfile⟩
  rw [hlink.bytes_eq, hlink.length_eq]

/-- What the device writes of a chunk is written nowhere else. -/
lemma slice_device (h : PathInv c slotCount ranges log s)
    (v : ShardView c s i shard regionId region p fill job) {write : StagedWrite}
    (hphase : p.worker.phase = .writing write) {start length : ℕ}
    (hle : start + length ≤ write.length) :
    (splice s.disk (write.absolute + start) (slice write.bytes start length)).length =
        s.disk.length ∧
      ∀ {o n : ℕ}, (o + n ≤ write.absolute ∨ write.absolute + write.length ≤ o) →
        slice (splice s.disk (write.absolute + start) (slice write.bytes start length)) o n =
          slice s.disk o n := by
  obtain ⟨-, hend, hbytes, hfile⟩ := job_area v write (by rw [hphase]; rfl)
    (by rw [hphase]; rfl)
  have hdisk := h.stored.length_disk
  have hlen : (slice write.bytes start length).length = length := by
    rw [slice, List.length_take, List.length_drop]
    omega
  refine ⟨length_splice (by omega), fun hout => ?_⟩
  rcases hout with hout | hout
  · exact slice_splice_before (by omega) (by omega)
  · exact slice_splice_after (by omega) (by omega)

/-- The logs and what else has been written are on the disk while the device writes a chunk. -/
lemma stored_device (h : PathInv c slotCount ranges log s)
    (v : ShardView c s i shard regionId region p fill job) {write : StagedWrite}
    (hphase : p.worker.phase = .writing write) {start length : ℕ}
    (hle : start + length ≤ write.length)
    (hdisk : s'.disk = splice s.disk (write.absolute + start) (slice write.bytes start length))
    (hmanager : s'.manager = s.manager)
    (hwritten : ∀ {j : ℕ} {q : ShardPath crc} {done : StagedWrite}, s'.shards[j]? = some q →
      q.worker.phase = .written done →
      j ≠ i ∧ s.shards[j]? = some q ∨ slice s'.disk done.absolute done.length = done.bytes) :
    OnDisk c log s' := by
  obtain ⟨hlen, hslice⟩ := h.slice_device v hphase hle
  obtain ⟨habsolute, hend, -, -⟩ := job_area v write (by rw [hphase]; rfl)
    (by rw [hphase]; rfl)
  have hsize := v.fits.size_eq
  refine ⟨hdisk ▸ hlen ▸ h.stored.length_disk, fun {id desc} hdesc => ?_,
    fun hnone => h.stored.outside (hmanager ▸ hnone), fun {j q done} hq hdone => ?_⟩
  · have hcontent := h.stored.content (hmanager ▸ hdesc)
    refine ⟨?_, hcontent.count_eq, hcontent.generation_eq, hcontent.recordLen_le⟩
    rw [hdisk, hslice, hcontent.slice_eq]
    have hused := (v.inv.regions desc (List.mem_of_getElem? (hmanager ▸ hdesc))).2.1
    rcases lt_trichotomy id regionId with hlt | rfl | hlt
    · have := regionBase_le (c := c) hlt
      omega
    · obtain rfl := Option.some.inj (v.shardAt.region_eq.symm.trans (hmanager ▸ hdesc))
      omega
    · have := regionBase_le (c := c) hlt
      omega
  · rcases hwritten hq hdone with ⟨hne, hq⟩ | hdone
    · -- another shard writes to another Region
      obtain ⟨shard', id, region', fill', job', v'⟩ := h.linked.view hq
      obtain ⟨habsolute', hend', -, -⟩ := job_area v' done (by rw [hdone]; rfl)
        (by rw [hdone]; rfl)
      rw [hdisk, hslice, h.stored.written hq hdone]
      rcases lt_trichotomy id regionId with hlt | rfl | hlt
      · have := regionBase_le (c := c) hlt
        omega
      · exact absurd (RegionManager.active_injective v.inv.nodup v'.shardAt.active_eq
          v.shardAt.active_eq) hne
      · have := regionBase_le (c := c) hlt
        omega
    · exact hdone

/-- **The device.** It writes a part of a chunk. -/
theorem deviceWrite (h : PathInv c slotCount ranges log s)
    (v : ShardView c s i shard regionId region p fill job) {write : StagedWrite}
    (hphase : p.worker.phase = .writing write) {start length : ℕ}
    (hle : start + length ≤ write.length) :
    ∃ s', DataPath.deviceWrite write start length s = .ok () s' ∧
      Keeps c slotCount ranges log s s' := by
  refine ⟨_, rfl, log, ⟨{ h.linked with }, ?_, { h.indexed with }, { h.generated with }, ?_⟩,
    .of_same le_rfl (.of_regions rfl rfl), rfl⟩
  · refine h.stored_device v hphase hle rfl rfl fun {j q done} hq hdone => .inl ⟨?_, hq⟩
    rintro rfl
    obtain rfl := Option.some.inj (v.path_eq.symm.trans hq)
    cases hphase.symm.trans hdone
  · exact h.reclaims.keep rfl rfl rfl (fun _ _ => rfl) (fun _ _ he => he) pendingFrame_same

/-- **The device.** It has written a chunk. -/
theorem deviceDone (h : PathInv c slotCount ranges log s)
    (v : ShardView c s i shard regionId region p fill job) {write : StagedWrite}
    (hphase : p.worker.phase = .writing write) :
    ∃ s', DataPath.deviceDone i write s = .ok () s' ∧ Keeps c slotCount ranges log s s' := by
  obtain ⟨hlen, -⟩ := h.slice_device v hphase (show 0 + write.length ≤ write.length by omega)
  obtain ⟨-, hend, hbytes, hfile⟩ := job_area v write (by rw [hphase]; rfl)
    (by rw [hphase]; rfl)
  have hdisk := h.stored.length_disk
  let s₁ : DataPath crc := { s with
    disk := splice s.disk (write.absolute + 0) (slice write.bytes 0 write.length) }
  have v₁ : ShardView c s₁ i shard regionId region p fill job := ⟨v.path_eq, v.fits, v.inv, v.space,
    v.shardAt, v.link⟩
  have hrun : DataPath.deviceDone i write s = .ok () (s₁.setShard i (p.goto (.written write))) := by
    rw [DataPath.deviceDone, DataPath.deviceWrite, modify_bind]
    exact DataPath.setPhase_ok v₁.path_eq _
  have hrotating : (p.goto (.written write)).worker.phase.rotating? = p.worker.phase.rotating? := by
    rw [hphase]
    rfl
  refine ⟨_, hrun, log, ⟨?_, ?_, ?_, ?_, ?_⟩, .of_same le_rfl (.of_regions rfl rfl), rfl⟩
  · have hlinked : Linked c s₁ := { h.linked with }
    exact linked_move hlinked v₁ (.refl v.inv v.space v.shardAt) (v.link.written hphase) hrotating
  · refine h.stored_device v hphase (show 0 + write.length ≤ write.length by omega) rfl rfl
      fun {j q done} hq hdone => ?_
    rcases getElem?_set_cases hq with ⟨rfl, rfl⟩ | hother
    · right
      cases hdone
      have hself : slice write.bytes 0 write.length = write.bytes := by
        rw [← hbytes, slice_zero_length]
      show slice (splice s.disk (write.absolute + 0) (slice write.bytes 0 write.length))
        write.absolute write.length = write.bytes
      rw [hself, Nat.add_zero, ← hbytes]
      exact slice_splice_self rfl (by omega)
    · exact .inl hother
  · refine h.indexed.frame rfl fun {j q write' rest} hq hpublishing => ?_
    rcases getElem?_set_cases hq with ⟨rfl, rfl⟩ | ⟨-, hq⟩
    · cases hpublishing
    · exact ⟨q, hq, hpublishing⟩
  · exact h.generated.frame rfl (fun hdesc => ⟨_, hdesc, rfl⟩)
      (activating_set v.path_eq (by simp [hphase])) fun {w receipt} => Iff.rfl
  · exact h.reclaims.keep List.length_set rfl rfl (fun _ _ => rfl) (fun _ _ he => he)
      (pendingFrame_set v.path_eq (ShardLink.frame_written hphase))

/-- **Completing.** The records of the chunk are appended to the log of their Region. -/
theorem complete (h : PathInv c slotCount ranges log s)
    (v : ShardView c s i shard regionId region p fill job) {write : StagedWrite}
    (hphase : p.worker.phase = .written write) :
    ∃ s', DataPath.flushComplete i write s = .ok () s' ∧ Keeps c slotCount ranges log s s' := by
  obtain ⟨m', shard', region', hrun, hmove, hstart, hend, hcount, hlink⟩ :=
    ShardLink.flushComplete v hphase
  obtain ⟨-, -, -, hjob⟩ := v.link.taken write (by rw [hphase]; rfl)
  obtain ⟨habsolute, -, hbytes, -⟩ := job_area v write (by rw [hphase]; rfl)
    (by rw [hphase]; rfl)
  have hcontent := h.stored.content v.shardAt.region_eq
  have hregion' := hmove.shardAt.region_eq
  have hwritten := h.stored.written v.path_eq hphase
  have hlength : (text (ValueRecord.bytes crc) (log regionId)).length = write.span.startOffset := by
    have hused := (v.inv.regions region (List.mem_of_getElem? v.shardAt.region_eq)).2.1
    have hid : regionId < s.manager.regions.length :=
      (List.getElem?_eq_some_iff.1 v.shardAt.region_eq).1
    have hfile := (DataGeometry.regionBase_spec v.fits.valid (v.fits.count_eq ▸ hid)).2
    have hdisk := h.stored.length_disk
    have hsize : s.manager.regionSize = c.geometry.regionSize.toNat := v.fits.size_eq
    rw [← hcontent.slice_eq, slice, List.length_take, List.length_drop]
    omega
  let log' := Function.update log regionId (log regionId ++ job)
  have hself : log' regionId = log regionId ++ job := Function.update_self ..
  have hother : ∀ {id}, id ≠ regionId → log' id = log id := fun hne => Function.update_of_ne hne ..
  have hgrows : ∀ id, log id <+: log' id := by
    intro id
    by_cases hid : id = regionId
    · rw [hid, hself]
      exact List.prefix_append _ _
    · rw [hother hid]
  have hregions : ∀ {id desc'}, m'.regions[id]? = some desc' →
      id = regionId ∧ desc' = region' ∨ id ≠ regionId ∧ s.manager.regions[id]? = some desc' := by
    intro id desc' hdesc
    rw [hmove.eq_put] at hdesc
    rcases getElem?_set_cases hdesc with ⟨rfl, rfl⟩ | hdesc
    · exact .inl ⟨rfl, rfl⟩
    · exact .inr hdesc
  refine ⟨_, hrun, log', ⟨linked_move h.linked v hmove hlink (by rw [hphase]; rfl), ?_, ?_, ?_, ?_⟩,
    ⟨hmove.next_le, ?_⟩, rfl⟩
  · refine ⟨h.stored.length_disk, fun {id desc'} hdesc => ?_, fun {id} hnone => ?_,
      fun {j q done} hq hdone => ?_⟩
    · rcases hregions hdesc with ⟨rfl, rfl⟩ | ⟨hne, hdesc⟩
      · have hrecordLen : ∀ record ∈ job, record.recordLen ≤ c.chunkBytes := by
          intro record hrecord
          obtain ⟨offset, hat⟩ : ∃ offset, At (ValueRecord.bytes crc) job offset record :=
            exists_at_of_mem hrecord
          have hle := hat.le_length
          have hbuffer := hjob.buffer_eq
          rw [StagedWrite.bytes, List.length_take] at hbytes
          rw [ValueRecord.length_bytes, ← hjob.length_eq] at hle
          omega
        rw [hself]
        refine ⟨?_, ?_, ?_, ?_⟩
        · show slice s.disk _ _ = _
          rw [hend, hjob.end_eq, slice_add, ← hstart, hcontent.slice_eq, ← habsolute, hwritten,
            hjob.bytes_eq, text, text, text, List.flatMap_append]
        · rw [List.length_append, hcontent.count_eq, hcount, hjob.count_eq, hjob.staged.length_eq]
        · rw [hmove.created_eq]
          intro record hrecord
          rcases List.mem_append.1 hrecord with hrecord | hrecord
          · exact hcontent.generation_eq record hrecord
          · exact hjob.generation_eq record hrecord
        · intro record hrecord
          rcases List.mem_append.1 hrecord with hrecord | hrecord
          · exact hcontent.recordLen_le record hrecord
          · exact hrecordLen record hrecord
      · rw [hother hne]
        exact h.stored.content hdesc
    · have hne : id ≠ regionId := by
        rintro rfl
        cases hregion'.symm.trans hnone
      rw [hother hne]
      refine h.stored.outside ?_
      rw [← hnone, hmove.eq_put]
      exact (List.getElem?_set_ne (Ne.symm hne)).symm
    · rcases getElem?_set_cases hq with ⟨rfl, rfl⟩ | ⟨-, hq⟩
      · cases hdone
      · exact h.stored.written hq hdone
  · refine ⟨h.indexed.inv, fun tok e he => (h.indexed.named tok e he).mono (hgrows _),
      fun {j q done rest} hq hpublishing item hitem => ?_⟩
    rcases getElem?_set_cases hq with ⟨rfl, rfl⟩ | ⟨-, hq⟩
    · cases hpublishing
      rw [hjob.region_eq, hself]
      exact named_staged hjob.staged hitem hlength
    · obtain ⟨hid, hnamed⟩ := h.indexed.publishing hq hpublishing item hitem
      exact ⟨hid, hnamed.mono (hgrows _)⟩
  · refine h.generated.frame rfl (fun {id desc'} hdesc => ?_)
      (activating_set v.path_eq (by simp [hphase])) fun {w receipt} => Iff.rfl
    rcases hregions hdesc with ⟨rfl, rfl⟩ | ⟨-, hdesc⟩
    · exact ⟨region, v.shardAt.region_eq, hmove.created_eq⟩
    · exact ⟨desc', hdesc, rfl⟩
  · refine h.reclaims.keep List.length_set rfl (by rw [hmove.eq_put]; rfl) (fun receipt hmem => ?_)
      (fun _ _ he => he) (pendingFrame_set v.path_eq (ShardLink.frame_completed hphase))
    -- a Region that is being reclaimed is not written to
    refine hother fun heq => ?_
    exact (RegionManager.active_disjoint v.inv.nodup v.shardAt.active_eq).2.2
      (heq ▸ List.mem_map_of_mem hmem)
  · intro id desc desc' hdesc hdesc'
    left
    refine ⟨?_, hgrows id⟩
    rcases hregions hdesc' with ⟨rfl, rfl⟩ | ⟨-, hdesc'⟩
    · exact Option.some.inj (v.shardAt.region_eq.symm.trans hdesc) ▸ hmove.created_eq
    · exact congrArg _ (Option.some.inj (hdesc'.symm.trans hdesc))

/-! ### The index -/

/-- What the publication of a record does: afterwards a mapping is the one of the record, or it was
there before and is not one that the record replaces. -/
lemma publishRecord_run (hr : canonicalIndexPartitionRanges slotCount = .ok ranges)
    (hinv : IndexInv crc slotCount ranges s.index) (item : StagedRecord) :
    ∃ index, DataPath.publishRecord item s = .ok () { s with index } ∧
      IndexInv crc slotCount ranges index ∧ ∀ tok e, Holds index.cells tok e →
        tok = tokenOf ranges item.hash ∧ e = item.entry.quantize ∨
        Holds s.index.cells tok e ∧ ∀ previous, item.previous = some previous →
          tok = tokenOf ranges item.hash → e.location.indexEquivalent previous = false := by
  have htoken : s.index.token item.hash = tokenOf ranges item.hash := by
    rw [RegionIndex.token, hinv.repr.ranges_eq]
  cases hprevious : item.previous with
  | none =>
    obtain ⟨index, hrun, hinv', evicted, heff, -⟩ := upsert_effect hr hinv item.hash item.entry
    refine ⟨index, ?_, hinv', fun tok e he => ?_⟩
    · rw [DataPath.publishRecord, hprevious]
      exact DataPath.onIndex_bind_ok hrun _
    · rw [htoken] at heff
      rcases (heff tok e).1 he with hnew | ⟨-, -, hold⟩
      · exact .inl hnew
      · exact .inr ⟨hold, fun _ heq => by cases heq⟩
  | some previous =>
    obtain ⟨replaced, index, hrun, hinv', hmatch, htrue, hfalse⟩ :=
      replaceIfMatch_effect hr hinv item.hash previous item.entry
    rw [htoken] at hmatch htrue
    refine ⟨index, ?_, hinv', fun tok e he => ?_⟩
    · rw [DataPath.publishRecord, hprevious]
      exact DataPath.onIndex_bind_ok hrun _
    · cases replaced with
      | true =>
        rcases (htrue rfl tok e).1 he with hnew | ⟨hne, -, hold⟩
        · exact .inl hnew
        · exact .inr ⟨hold, fun _ _ heq => absurd heq hne⟩
      | false =>
        rw [hfalse rfl] at he
        refine .inr ⟨he, fun _ heq htok => ?_⟩
        by_contra hequiv
        obtain rfl := Option.some.inj heq
        have : false = true := hmatch.2 ⟨e, htok ▸ he, fun l hl => by
          obtain rfl := Option.some.inj hl
          exact eq_true_of_ne_false hequiv⟩
        cases this

/-- **Publishing.** The mapping of the next record is put into the index. -/
theorem publish (hr : canonicalIndexPartitionRanges slotCount = .ok ranges)
    (h : PathInv c slotCount ranges log s)
    (v : ShardView c s i shard regionId region p fill job) {write : StagedWrite}
    {item : StagedRecord} {rest : List StagedRecord}
    (hphase : p.worker.phase = .publishing write (item :: rest)) :
    ∃ s', DataPath.flushPublish i write (item :: rest) s = .ok () s' ∧
      Keeps c slotCount ranges log s s' := by
  obtain ⟨index, hrun, hinv, heff⟩ := publishRecord_run hr h.indexed.inv item
  obtain ⟨hitem, hnamed⟩ := h.indexed.publishing v.path_eq hphase item List.mem_cons_self
  obtain ⟨hpending, hdrain⟩ := ShardLink.pending_publish hphase
  obtain ⟨-, -, -, hjob⟩ := v.link.taken write (by rw [hphase]; rfl)
  rw [hjob.region_eq] at hitem hnamed
  let s₁ : DataPath crc := { s with index }
  have hrotating : (p.goto (.publishing write rest)).worker.phase.rotating? =
      p.worker.phase.rotating? := by
    rw [hphase]
    rfl
  refine ⟨s₁.setShard i (p.goto (.publishing write rest)), ?_, log, ⟨?_, ?_, ?_, ?_, ?_⟩,
    .of_same le_rfl (.of_regions rfl rfl), rfl⟩
  · rw [DataPath.flushPublish, bind_ok hrun]
    exact DataPath.setPhase_ok (s := s₁) v.path_eq _
  · have hlinked : Linked c s₁ := { h.linked with }
    have v₁ : ShardView c s₁ i shard regionId region p fill job := ⟨v.path_eq, v.fits, v.inv,
      v.space, v.shardAt, v.link⟩
    exact linked_move hlinked v₁ (.refl v.inv v.space v.shardAt) (v.link.publish hphase) hrotating
  · refine h.stored.frame rfl (.of_regions rfl rfl) fun {j q done} hq hdone => ?_
    rcases getElem?_set_cases hq with ⟨rfl, rfl⟩ | ⟨-, hq⟩
    · cases hdone
    · exact ⟨q, hq, hdone⟩
  · refine ⟨hinv, fun tok e he => ?_, fun {j q done more} hq hpublishing => ?_⟩
    · rcases heff tok e he with ⟨rfl, rfl⟩ | ⟨he, -⟩
      · rw [show item.entry.quantize.location.regionId = regionId from
          (PackedLocation.regionId_quantize _).trans hitem]
        exact hnamed
      · exact h.indexed.named tok e he
    · rcases getElem?_set_cases hq with ⟨rfl, rfl⟩ | ⟨-, hq⟩
      · cases hpublishing
        exact fun item' hitem' =>
          h.indexed.publishing v.path_eq hphase item' (List.mem_cons_of_mem _ hitem')
      · exact h.indexed.publishing hq hpublishing
  · exact h.generated.frame rfl (fun hdesc => ⟨_, hdesc, rfl⟩)
      (activating_set v.path_eq (by simp [hphase])) fun {w receipt} => Iff.rfl
  · refine h.reclaims.frame List.length_set rfl (fun receipt hmem => ⟨hmem, rfl,
      fun tok e he hregion => ?_⟩) (fun {j q other previous} hq hother hprevious => ?_)
      (fun {j q request receipt} hq hreserved => ?_) (fun {w scan generation q} hscan hq => ?_)
    · rcases heff tok e he with ⟨-, rfl⟩ | ⟨he, hgone⟩
      · -- the Region of the record is active
        exfalso
        have hid : item.entry.quantize.location.regionId = regionId :=
          (PackedLocation.regionId_quantize _).trans hitem
        exact (RegionManager.active_disjoint v.inv.nodup v.shardAt.active_eq).2.2
          (hid ▸ hregion ▸ List.mem_map_of_mem hmem)
      · refine ⟨he, fun j hcovered => ?_⟩
        obtain ⟨q, other, previous, hq, hother, hprevious, htok, hequiv⟩ := hcovered
        by_cases hj : j = i
        · subst hj
          obtain rfl := Option.some.inj (v.path_eq.symm.trans hq)
          rw [hpending] at hother
          rcases List.mem_cons.1 hother with rfl | hother
          · rw [hgone previous hprevious htok.symm] at hequiv
            cases hequiv
          · exact ⟨_, other, previous, DataPath.shards_setShard hq _, hother, hprevious, htok,
              hequiv⟩
        · exact ⟨q, other, previous, (List.getElem?_set_ne (Ne.symm hj)).trans hq, hother,
            hprevious, htok, hequiv⟩
    · rcases getElem?_set_cases hq with ⟨rfl, rfl⟩ | ⟨-, hq⟩
      · exact h.reclaims.pending v.path_eq (hpending ▸ List.mem_cons_of_mem _ hother) hprevious
      · exact h.reclaims.pending hq hother hprevious
    · rcases getElem?_set_cases hq with ⟨rfl, rfl⟩ | ⟨-, hq⟩
      · have hby : ReservedBy s j request p.owner? := h.reclaims.reserved v.path_eq hreserved
        exact hby
      · exact h.reclaims.reserved hq hreserved
    · have hlink := (h.reclaims.link hscan).2.2
      rcases getElem?_set_cases hq with ⟨heq, rfl⟩ | ⟨-, hq⟩
      · exact hdrain _ _ (hlink p (heq ▸ v.path_eq))
      · exact hlink q hq

/-- Mappings are looked up or removed. -/
theorem removed (h : PathInv c slotCount ranges log s) {index : RegionIndex}
    (hinv : IndexInv crc slotCount ranges index)
    (hheld : ∀ tok e, Holds index.cells tok e → Holds s.index.cells tok e) :
    PathInv c slotCount ranges log { s with index } where
  linked := { h.linked with }
  stored := { h.stored with }
  indexed := { h.indexed with
    inv := hinv
    named := fun tok e he => h.indexed.named tok e (hheld tok e he) }
  generated := { h.generated with }
  reclaims := h.reclaims.keep rfl rfl rfl (fun _ _ => rfl) hheld pendingFrame_same

/-- A number is allocated. -/
theorem sequenced (h : PathInv c slotCount ranges log s) (hnext : s.manager.nextSeqno ≠ u64Max) :
    Keeps c slotCount ranges log s
      { s with manager := { s.manager with nextSeqno := s.manager.nextSeqno + 1 } } := by
  have hsame : SameContents s.manager { s.manager with nextSeqno := s.manager.nextSeqno + 1 } :=
    .of_regions rfl rfl
  refine ⟨log, ⟨?_, h.stored.frame rfl hsame fun hq hphase => ⟨_, hq, hphase⟩, { h.indexed with },
    h.generated.frame rfl hsame.created (fun hq hphase => ⟨_, hq, hphase⟩) fun {w r} => Iff.rfl,
    h.reclaims.keep rfl rfl rfl (fun _ _ => rfl) (fun _ _ he => he) pendingFrame_same⟩,
    .of_same (Nat.le_succ _) hsame, rfl⟩
  have hstep := ManagerStep.sequenced hnext
  exact { h.linked with
    fits := { h.linked.fits with }
    inv := h.linked.inv.sequence hnext
    space := h.linked.space.step h.linked.inv hstep fun r hr => by simp at hr
    link := fun hq hat => h.linked.link hq ⟨hat.shard_eq, hat.active_eq, hat.region_eq⟩ }

/-! ### Rotation -/

/-- What a section of a rotation leaves as it is. -/
lemma record_frame (h : PathInv c slotCount ranges log s) (s' : DataPath crc)
    (hp : s.shards[i]? = some p) (hframe : RecordFrame p p') (hdisk : s'.disk = s.disk)
    (hindex : s'.index = s.index) (hshards : s'.shards = s.shards.set i p')
    (hreclaimers : s'.reclaimers = s.reclaimers)
    (hreclaiming : s'.manager.reclaiming = s.manager.reclaiming)
    (hcontent : ∀ {id : ℕ} {desc : RegionDesc}, s'.manager.regions[id]? = some desc →
      Content crc c s.disk id desc (log id))
    (hlen : s'.manager.regions.length = s.manager.regions.length) :
    OnDisk c log s' ∧ Indexed slotCount ranges log s' ∧ Reclaims ranges log s' := by
  refine ⟨⟨hdisk ▸ h.stored.length_disk, fun hdesc => hdisk ▸ hcontent hdesc,
    fun {id} hnone => h.stored.outside ?_, fun {j q done} hq hdone => ?_⟩,
    h.indexed.frame hindex fun {j q write rest} hq hpublishing => ?_, ?_⟩
  · rw [List.getElem?_eq_none_iff] at hnone ⊢
    exact hlen ▸ hnone
  · rw [hshards] at hq
    rw [hdisk]
    rcases getElem?_set_cases hq with ⟨rfl, rfl⟩ | ⟨-, hq⟩
    · exact h.stored.written hp (hframe.written _ hdone)
    · exact h.stored.written hq hdone
  · rw [hshards] at hq
    rcases getElem?_set_cases hq with ⟨rfl, rfl⟩ | ⟨-, hq⟩
    · exact ⟨p, hp, hframe.publishing _ _ hpublishing⟩
    · exact ⟨q, hq, hpublishing⟩
  · refine h.reclaims.keep (by rw [hshards, List.length_set]) hreclaimers hreclaiming
      (fun _ _ => rfl) (fun tok e he => hindex ▸ he) fun hq hq' => ?_
    rw [hshards] at hq'
    exact pendingFrame_set hp hframe.toPendingFrame hq hq'

/-- **Selecting.** The worker has the rotation lock. -/
theorem selected (h : PathInv c slotCount ranges log s)
    (v : ShardView c s i shard regionId region p fill job) {candidate : RegionRotationCandidate}
    (hnone : s.rotation = none) (hphase : p.worker.phase = .gated)
    (hhead : s.manager.freeRegions.head? = some candidate.victimRegionId)
    (hlink : ShardLink c i shard regionId region.createdSeqno (p.goto (.selected candidate))
      fill job)
    (hframe : RecordFrame p (p.goto (.selected candidate))) :
    Keeps c slotCount ranges log s
      ({ s with rotation := some i }.setShard i (p.goto (.selected candidate))) := by
  obtain ⟨hstored, hindexed, hreclaims⟩ := h.record_frame
    ({ s with rotation := some i }.setShard i (p.goto (.selected candidate))) v.path_eq hframe
    rfl rfl rfl rfl rfl h.stored.content rfl
  refine ⟨log, ⟨?_, hstored, hindexed, ?_, hreclaims⟩, .of_same le_rfl (.of_regions rfl rfl), rfl⟩
  · refine h.linked.set v.fits v.inv v.space rfl h.linked.length_generations rfl
      (fun _ hat => hat) v.shardAt hlink (fun {j q} hq hsome => ?_) fun {j q other} hq hother => ?_
    · rcases getElem?_set_cases hq with ⟨rfl, rfl⟩ | ⟨-, hq⟩
      · rfl
      · cases hnone.symm.trans (h.linked.rotating hq hsome)
    · rcases getElem?_set_cases hq with ⟨rfl, rfl⟩ | ⟨-, hq⟩
      · cases hother
        exact hhead
      · exact h.linked.selected hq hother
  · exact h.generated.frame rfl (fun hdesc => ⟨_, hdesc, rfl⟩)
      (activating_set v.path_eq (by simp [hphase])) fun {w receipt} => Iff.rfl

/-- **Rotating.** A free Region is activated, and the old one is sealed. -/
theorem rotating (h : PathInv c slotCount ranges log s)
    (v : ShardView c s i shard regionId region p fill job) {candidate : RegionRotationCandidate}
    (hphase : p.worker.phase = .selected candidate) :
    (∃ s', DataPath.rotateBegin i candidate s = .ok () s' ∧ Keeps c slotCount ranges log s s') ∨
    s.manager.nextSeqno = u64Max ∧ ∃ e s', s'.healthy = false ∧
      DataPath.rotateBegin i candidate s = .error e s' := by
  rcases ShardLink.rotateBegin v hphase (h.linked.selected v.path_eq hphase) with
    ⟨free, receipt, hfree, hreceipt, hnext, hidle, hdone, hrun, hlink, hframe⟩ | hexhausted
  swap
  · exact .inr hexhausted
  left
  have hid : receipt.shardId = i := by rw [hreceipt]
  have hold : receipt.sealedRegionId = regionId := by rw [hreceipt]
  have hcreated : receipt.activatedCreatedSeqno = s.manager.nextSeqno := by rw [hreceipt]
  have hat : s.manager.ShardAt receipt.shardId shard receipt.sealedRegionId region := by
    rw [hid, hold]
    exact v.shardAt
  have hmem : receipt.activatedRegionId ∈ s.manager.freeRegions := hfree ▸ List.mem_cons_self
  have hempty := v.inv.free receipt.activatedRegionId hmem
  have hlt : receipt.activatedRegionId < s.manager.regions.length :=
    (List.getElem?_eq_some_iff.1 hempty).1
  have hne : receipt.activatedRegionId ≠ receipt.sealedRegionId := fun heq =>
    (RegionManager.active_disjoint v.inv.nodup hat.active_eq).1 (heq ▸ hmem)
  have hstep : ManagerStep s.manager [.rotating receipt]
      (s.manager.rotating shard region free receipt) :=
    .rotating hat hidle hdone hfree ⟨hempty, rfl, hne⟩ hnext hcreated
  have hinv := hstep.inv v.inv
  have hlen : (s.manager.rotating shard region free receipt).regions.length =
      s.manager.regions.length := by
    show ((s.manager.regions.set _ _).set _ _).length = _
    rw [List.length_set, List.length_set]
  have hregions : ∀ {id : ℕ} {desc' : RegionDesc},
      (s.manager.rotating shard region free receipt).regions[id]? = some desc' →
      id = receipt.activatedRegionId ∧ desc' = .empty .active receipt.activatedCreatedSeqno ∨
      id ≠ receipt.activatedRegionId ∧ ∃ desc, s.manager.regions[id]? = some desc ∧
        desc'.view = desc.view := by
    intro id desc' hdesc
    rcases getElem?_set_cases hdesc with hnew | ⟨hne, hdesc⟩
    · exact .inl hnew
    · rcases getElem?_set_cases hdesc with ⟨rfl, rfl⟩ | ⟨-, hdesc⟩
      · exact .inr ⟨hne, region, hat.region_eq, rfl⟩
      · exact .inr ⟨hne, desc', hdesc, rfl⟩
  -- the log of a free Region is empty
  have hnil : log receipt.activatedRegionId = [] :=
    List.length_eq_zero_iff.1 (h.stored.content hempty).count_eq
  obtain ⟨hstored, hindexed, hreclaims⟩ := h.record_frame
    ({ s with manager := s.manager.rotating shard region free receipt }.setShard i
      (p.goto (.activating receipt))) v.path_eq hframe rfl rfl rfl rfl rfl
      (fun {id desc'} hdesc => by
        rcases hregions hdesc with ⟨rfl, rfl⟩ | ⟨-, desc, hdesc, hview⟩
        · rw [hnil]
          exact ⟨rfl, rfl, fun _ hrecord => absurd hrecord List.not_mem_nil,
            fun _ hrecord => absurd hrecord List.not_mem_nil⟩
        · exact (h.stored.content hdesc).congr hview) hlen
  refine ⟨_, hrun, log, ⟨?_, hstored, hindexed, ⟨?_, ?_, ?_⟩, hreclaims⟩, ⟨Nat.le_succ _, ?_⟩, rfl⟩
  · have hshard : (s.manager.rotating shard region free receipt).appendStates[i]? =
        some { shard with rotationRequested := false, rotation := some receipt } := by
      show (s.manager.appendStates.set receipt.shardId _)[i]? = _
      rw [hid]
      exact List.getElem?_set_self (List.getElem?_eq_some_iff.1 v.shardAt.shard_eq).1
    obtain ⟨regionId', region', hat'⟩ := hinv.exists_shardAt hshard
    rcases hat.of_rotating v.inv.nodup hfree hlt hat' with ⟨-, -, rfl, rfl⟩ | ⟨hne', -⟩
    · refine h.linked.set { v.fits with count_eq := hlen.trans v.fits.count_eq } hinv
        (v.space.step v.inv hstep fun r hr => by simp at hr) List.length_set
        (h.linked.length_generations.trans hlen.symm) rfl (fun {j id sh desc} hne hat'' => ?_) hat'
        hlink (fun {j q} hq hsome => ?_) fun {j q other} hq hother => ?_
      · rcases hat.of_rotating v.inv.nodup hfree hlt hat'' with ⟨heq, -⟩ | ⟨-, -, -, hat''⟩
        · exact absurd (heq.trans hid) hne
        · exact hat''
      · rcases getElem?_set_cases hq with ⟨rfl, rfl⟩ | ⟨-, hq⟩
        · exact h.linked.rotating v.path_eq (by rw [hphase]; rfl)
        · exact h.linked.rotating hq hsome
      · rcases getElem?_set_cases hq with ⟨rfl, rfl⟩ | ⟨hne, hq⟩
        · cases hother
        · -- one rotation at a time
          have h1 := h.linked.rotating v.path_eq (by rw [hphase]; rfl)
          have h2 := h.linked.rotating hq (by rw [hother]; rfl)
          exact absurd (Option.some.inj (h2.symm.trans h1)) hne
    · exact absurd hid.symm hne'
  · intro id desc' g hdesc hg
    rcases hregions hdesc with ⟨rfl, rfl⟩ | ⟨-, desc, hdesc, hview⟩
    · rcases h.generated.eq hempty hg with hzero | hzero
      · exact .inl hzero
      · exact .inl hzero
    · rw [show desc'.createdSeqno = desc.createdSeqno from congrArg Prod.fst hview]
      exact h.generated.eq hdesc hg
  · intro id desc' hdesc
    rcases hregions hdesc with ⟨rfl, rfl⟩ | ⟨-, desc, hdesc, hview⟩
    · exact .inr (.inl ⟨i, _, receipt, DataPath.shards_setShard v.path_eq _, rfl, rfl⟩)
    · rw [show desc'.createdSeqno = desc.createdSeqno from congrArg Prod.fst hview]
      rcases h.generated.stored hdesc with hg | ⟨j, q, r, hq, hactivating, hr⟩ | hcleared
      · exact .inl hg
      · have hkeep : ∃ q, (s.shards.set i (p.goto (.activating receipt)))[j]? = some q ∧
            q.worker.phase = .activating r :=
          activating_set v.path_eq (by simp [hphase]) hq hactivating
        obtain ⟨q, hq, hactivating⟩ := hkeep
        exact .inr (.inl ⟨j, q, r, hq, hactivating, hr⟩)
      · exact .inr (.inr hcleared)
  · exact h.generated.cleared
  · intro id desc desc' hdesc hdesc'
    rcases hregions hdesc' with ⟨rfl, rfl⟩ | ⟨-, desc₀, hdesc₀, hview⟩
    · exact .inr (.inr hcreated.ge)
    · obtain rfl := Option.some.inj (hdesc.symm.trans hdesc₀)
      exact .inl ⟨congrArg Prod.fst hview, List.prefix_rfl⟩

/-- **Storing.** The generation of the activated Region is stored. -/
theorem store (h : PathInv c slotCount ranges log s)
    (v : ShardView c s i shard regionId region p fill job) {receipt : RegionRotationReceipt}
    (hphase : p.worker.phase = .activating receipt) :
    ∃ s', DataPath.rotateStore i receipt s = .ok () s' ∧ Keeps c slotCount ranges log s s' := by
  obtain ⟨hid, hcreated, hrun, hlink, hframe⟩ :=
    ShardLink.rotateStore v hphase h.linked.length_generations
  have hmine := h.linked.rotating v.path_eq (by rw [hphase]; rfl)
  have hlt : receipt.activatedRegionId < s.generations.length := by
    rw [h.linked.length_generations, hid]
    exact (List.getElem?_eq_some_iff.1 v.shardAt.region_eq).1
  obtain ⟨hstored, hindexed, hreclaims⟩ := h.record_frame
    ({ s with
      generations := s.generations.set receipt.activatedRegionId receipt.activatedCreatedSeqno
      rotation := none }.setShard i (ShardLink.stored p receipt))
      v.path_eq hframe rfl rfl rfl rfl rfl
    h.stored.content rfl
  refine ⟨_, hrun, log, ⟨?_, hstored, hindexed, ⟨?_, ?_, ?_⟩, hreclaims⟩,
    .of_same le_rfl (.of_regions rfl rfl), rfl⟩
  · refine h.linked.set v.fits v.inv v.space rfl (List.length_set.trans h.linked.length_generations)
      rfl (fun _ hat => hat) v.shardAt hlink (fun {j q} hq hsome => ?_)
      fun {j q other} hq hother => ?_
    · rcases getElem?_set_cases hq with ⟨rfl, rfl⟩ | ⟨hne, hq⟩
      · cases hsome
      · exact absurd (Option.some.inj ((h.linked.rotating hq hsome).symm.trans hmine)) hne
    · rcases getElem?_set_cases hq with ⟨rfl, rfl⟩ | ⟨-, hq⟩
      · cases hother
      · exact h.linked.selected hq hother
  · intro id desc g hdesc hg
    rcases getElem?_set_cases hg with ⟨rfl, rfl⟩ | ⟨-, hg⟩
    · right
      rw [hid] at hdesc
      rw [hcreated, Option.some.inj (v.shardAt.region_eq.symm.trans hdesc)]
    · exact h.generated.eq hdesc hg
  · intro id desc hdesc
    by_cases heq : id = receipt.activatedRegionId
    · left
      subst heq
      rw [hid] at hdesc
      rw [← Option.some.inj (v.shardAt.region_eq.symm.trans hdesc), ← hcreated]
      exact List.getElem?_set_self hlt
    · rcases h.generated.stored hdesc with hg | ⟨j, q, r, hq, hactivating, hr⟩ | hcleared
      · exact .inl ((List.getElem?_set_ne (Ne.symm heq)).trans hg)
      · right
        left
        have hj : j ≠ i := by
          rintro rfl
          obtain rfl := Option.some.inj (v.path_eq.symm.trans hq)
          cases hphase.symm.trans hactivating
          exact heq hr.symm
        exact ⟨j, q, r, (List.getElem?_set_ne (Ne.symm hj)).trans hq, hactivating, hr⟩
      · exact .inr (.inr hcleared)
  · intro w cleared hcleared
    -- a Region that is being reclaimed is not active
    have hmem := h.reclaims.receipts hcleared rfl
    have hne : receipt.activatedRegionId ≠ cleared.regionId := fun heq =>
      (RegionManager.active_disjoint v.inv.nodup v.shardAt.active_eq).2.2
        (hid ▸ heq ▸ List.mem_map_of_mem hmem)
    exact (List.getElem?_set_ne hne).trans (h.generated.cleared hcleared)

/-- The rotation is finished, and the old Region may be reclaimed. -/
theorem rotated (h : PathInv c slotCount ranges log s)
    (v : ShardView c s i shard regionId region p fill job) {receipt : RegionRotationReceipt}
    (hphase : p.worker.phase = .activated receipt) :
    ∃ s', DataPath.rotateFinish i receipt s = .ok () s' ∧ Keeps c slotCount ranges log s s' := by
  obtain ⟨hrotation, hid, hrun, hlink, hframe⟩ := ShardLink.rotateFinish v hphase
  have hshard : s.manager.appendStates[receipt.shardId]? = some shard := hid ▸ v.shardAt.shard_eq
  have hstep : ManagerStep s.manager [.rotated receipt] (s.manager.rotated shard receipt) :=
    .rotated hshard hrotation
  have hinv := hstep.inv v.inv
  have hsame : SameContents s.manager (s.manager.rotated shard receipt) := .of_regions rfl rfl
  obtain ⟨hstored, hindexed, hreclaims⟩ := h.record_frame
    ({ s with manager := s.manager.rotated shard receipt }.setShard i (p.goto .rotated))
    v.path_eq hframe rfl rfl rfl rfl rfl h.stored.content rfl
  refine ⟨_, hrun, log, ⟨?_, hstored, hindexed, ?_, hreclaims⟩, .of_same le_rfl hsame, rfl⟩
  · have hat' : (s.manager.rotated shard receipt).ShardAt i { shard with rotation := none } regionId
        region := by
      refine ⟨?_, v.shardAt.active_eq, v.shardAt.region_eq⟩
      show (s.manager.appendStates.set receipt.shardId _)[i]? = _
      rw [hid]
      exact List.getElem?_set_self (List.getElem?_eq_some_iff.1 v.shardAt.shard_eq).1
    refine h.linked.set { v.fits with } hinv (v.space.step v.inv hstep fun r hr => by simp at hr)
      List.length_set h.linked.length_generations rfl
      (fun {j id sh desc} hne hat'' => ?_) hat' hlink
      (fun {j q} hq hsome => ?_) fun {j q other} hq hother => ?_
    · rcases RegionManager.ShardAt.of_rotated hshard hat'' with ⟨heq, -⟩ | ⟨-, hat''⟩
      · exact absurd (heq.trans hid) hne
      · exact hat''
    · rcases getElem?_set_cases hq with ⟨rfl, rfl⟩ | ⟨-, hq⟩
      · cases hsome
      · exact h.linked.rotating hq hsome
    · rcases getElem?_set_cases hq with ⟨rfl, rfl⟩ | ⟨-, hq⟩
      · cases hother
      · exact h.linked.selected hq hother
  · exact h.generated.frame rfl hsame.created (activating_set v.path_eq (by simp [hphase]))
      fun {w r} => Iff.rfl

end Steps

end PathInv

end Cache2
