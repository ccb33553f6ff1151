import Cache2.Region.ShardSections

set_option relaxedAutoImplicit false
set_option autoImplicit false

/-!
# The invariant of the data path

What holds between two sections of the data path. The manager and the shards agree; the completed
prefix of every Region on the disk is a log of records; every mapping of the index leads to a record
of such a log; the generation of a Region is stored as long as a mapping leads into it; and a
reclaim worker knows which mappings still lead into its Region: those whose reinsertion is pending.

The logs stand in no variable of the program. They are read off the disk.

## Main definitions

* `Cache2.Linked` — the manager and the shards agree.
* `Cache2.OnDisk` — the logs are on the disk.
* `Cache2.Indexed` — the mappings lead to records of the logs.
* `Cache2.Generated` — which generations are stored.
* `Cache2.Reclaims` — where the reclaim workers are.
* `Cache2.PathInv` — all of it.

## Main results

* `Cache2.Linked.set`, `Cache2.OnDisk.frame`, `Cache2.Indexed.frame`, `Cache2.Generated.frame`,
  `Cache2.Reclaims.frame` — what a part depends on.
-/

namespace Cache2

open Bytes Loop Framing TokenTable

/-! ## Manager and shards -/

section Definitions

variable {crc : List UInt8 → BitVec 32}

/-- The manager and the shards agree. -/
structure Linked (c : PathConfig) (s : DataPath crc) : Prop where
  fits : c.Fits s.manager
  inv : ManagerInv s.manager
  space : RecordSpace 32 s.manager
  length_shards : s.shards.length = s.manager.appendStates.length
  length_generations : s.generations.length = s.manager.regions.length
  link : ∀ {i : ℕ} {p : ShardPath crc} {shard : AppendShardState} {regionId : ℕ}
    {region : RegionDesc}, s.shards[i]? = some p → s.manager.ShardAt i shard regionId region →
    ∃ fill job, ShardLink c i shard regionId region.createdSeqno p fill job
  rotating : ∀ {i : ℕ} {p : ShardPath crc}, s.shards[i]? = some p →
    p.worker.phase.rotating?.isSome = true → s.rotation = some i
  selected : ∀ {i : ℕ} {p : ShardPath crc} {candidate : RegionRotationCandidate},
    s.shards[i]? = some p → p.worker.phase = .selected candidate →
    s.manager.freeRegions.head? = some candidate.victimRegionId

/-! ## Disk -/

/-- What a descriptor says about the contents of its Region. -/
def RegionDesc.view (region : RegionDesc) : ℕ × ℕ × ℕ :=
  (region.createdSeqno, region.completedUsed, region.physicalRecordCount)

/-- The completed prefix of a Region is a log. -/
structure Content (crc : List UInt8 → BitVec 32) (c : PathConfig) (disk : List UInt8) (id : ℕ)
    (region : RegionDesc) (log : List ValueRecord) : Prop where
  slice_eq : slice disk (c.geometry.regionBase id) region.completedUsed =
    text (ValueRecord.bytes crc) log
  count_eq : log.length = region.physicalRecordCount
  generation_eq : ∀ record ∈ log, record.generation = .ofNat 64 region.createdSeqno
  recordLen_le : ∀ record ∈ log, record.recordLen ≤ c.chunkBytes

/-- The logs are on the disk, and what the device has written is. -/
structure OnDisk (c : PathConfig) (log : ℕ → List ValueRecord) (s : DataPath crc) : Prop where
  length_disk : s.disk.length = c.geometry.dataFileLen.toNat
  content : ∀ {id : ℕ} {region : RegionDesc}, s.manager.regions[id]? = some region →
    Content crc c s.disk id region (log id)
  outside : ∀ {id : ℕ}, s.manager.regions[id]? = none → log id = []
  written : ∀ {i : ℕ} {p : ShardPath crc} {job : StagedWrite}, s.shards[i]? = some p →
    p.worker.phase = .written job → slice s.disk job.absolute job.length = job.bytes

/-! ## Index -/

/-- The mappings lead to records of the logs, and so do those that are about to be published. -/
structure Indexed (slotCount : ℕ) (ranges : List IndexPartitionRange)
    (log : ℕ → List ValueRecord) (s : DataPath crc) : Prop where
  inv : IndexInv crc slotCount ranges s.index
  named : ∀ tok e, Holds s.index.cells tok e → Named crc ranges (log e.location.regionId) tok e
  publishing : ∀ {i : ℕ} {p : ShardPath crc} {job : StagedWrite} {rest : List StagedRecord},
    s.shards[i]? = some p → p.worker.phase = .publishing job rest → ∀ item ∈ rest,
    item.entry.location.regionId = job.span.regionId ∧
      Named crc ranges (log job.span.regionId) (tokenOf ranges item.hash) item.entry.quantize

/-- Which generations are stored: that of the Region, from its activation to its reclaim. -/
structure Generated (s : DataPath crc) : Prop where
  eq : ∀ {id : ℕ} {region : RegionDesc} {g : ℕ}, s.manager.regions[id]? = some region →
    s.generations[id]? = some g → g = 0 ∨ g = region.createdSeqno
  stored : ∀ {id : ℕ} {region : RegionDesc}, s.manager.regions[id]? = some region →
    s.generations[id]? = some region.createdSeqno ∨
    (∃ (i : ℕ) (p : ShardPath crc) (receipt : RegionRotationReceipt), s.shards[i]? = some p ∧
      p.worker.phase = .activating receipt ∧ receipt.activatedRegionId = id) ∨
    ∃ (w : ℕ) (receipt : RegionReclaimReceipt), s.reclaimers[w]? = some (.cleared receipt) ∧
      receipt.regionId = id
  cleared : ∀ {w : ℕ} {receipt : RegionReclaimReceipt},
    s.reclaimers[w]? = some (.cleared receipt) → s.generations[receipt.regionId]? = some 0

/-! ## Reclaim -/

/-- The scan of a reclaim worker. -/
def ReclaimPhase.scan? : ReclaimPhase crc → Option ReclaimScan
  | .scanning scan | .classified scan _ | .offering scan _ _ | .dropping scan _ | .scanned scan
  | .draining scan _ => some scan
  | _ => none

/-- The receipt of a reclaim worker. -/
def ReclaimPhase.receipt? : ReclaimPhase crc → Option RegionReclaimReceipt
  | .idle => none
  | .begun receipt | .emptied receipt | .cleared receipt => some receipt
  | .scanning scan | .classified scan _ | .offering scan _ _ | .dropping scan _ | .scanned scan
  | .draining scan _ => some scan.receipt

/-- The record replaces a mapping into the Region. -/
def LeadsInto (regionId : ℕ) (item : PendingRecord) : Prop :=
  ∃ previous, item.2.2 = some previous ∧ previous.regionId = regionId

/-- The reinsertion that replaces the mapping is pending on the shard. -/
def Covered (ranges : List IndexPartitionRange) (s : DataPath crc) (i : ℕ) (tok : Token)
    (e : IndexEntry) : Prop :=
  ∃ p item previous, s.shards[i]? = some p ∧ item ∈ p.pending ∧ item.2.2 = some previous ∧
    tokenOf ranges item.1 = tok ∧ e.location.indexEquivalent previous = true

/-- The scan has come to a record of its Region, and before it only those mappings are left whose
reinsertion is pending. -/
structure ScanLink (ranges : List IndexPartitionRange) (log : ℕ → List ValueRecord)
    (s : DataPath crc) (scan : ReclaimScan) : Prop where
  shard_lt : scan.shardId < s.shards.length
  bytes_eq : scan.bytes = text (ValueRecord.bytes crc) (log scan.receipt.regionId)
  boundary : ∃ before after, log scan.receipt.regionId = before ++ after ∧
    scan.cursor.offset = (text (ValueRecord.bytes crc) before).length ∧
    scan.cursor.stats.recordsScanned = before.length
  covered : ∀ tok e, Holds s.index.cells tok e → e.location.regionId = scan.receipt.regionId →
    e.location.offset < scan.cursor.offset → Covered ranges s scan.shardId tok e

/-- The scan has read a record. -/
def ScannedAt (crc : List UInt8 → BitVec 32) (log : ℕ → List ValueRecord) (scan : ReclaimScan)
    (scanned : ReclaimRecord) : Prop :=
  ∃ record location,
    At (ValueRecord.bytes crc) (log scan.receipt.regionId) scan.cursor.offset record ∧
    PackedLocation.new scan.receipt.regionId scan.cursor.offset record.recordLen = .ok location ∧
    scanned = reclaimRecord crc scan.cursor.offset record location

/-- What a reclaim worker knows where it is. -/
def ReclaimLink (ranges : List IndexPartitionRange) (log : ℕ → List ValueRecord)
    (s : DataPath crc) : ReclaimPhase crc → Prop
  | .idle | .begun _ => True
  | .scanning scan => ScanLink ranges log s scan
  | .classified scan scanned | .dropping scan scanned =>
    ScanLink ranges log s scan ∧ ScannedAt crc log scan scanned
  | .offering scan scanned offer => ScanLink ranges log s scan ∧ ∃ record,
    IsOffer crc scan.receipt (log scan.receipt.regionId) offer scan.cursor.offset record ∧
    scanned.recordEnd = scan.cursor.offset + record.recordLen
  | .scanned scan => ScanLink ranges log s scan ∧ scan.bytes.length ≤ scan.cursor.offset
  | .draining scan generation => ScanLink ranges log s scan ∧
    scan.bytes.length ≤ scan.cursor.offset ∧ ∀ p, s.shards[scan.shardId]? = some p →
      DrainInv (LeadsInto scan.receipt.regionId) generation p
  | .emptied receipt | .cleared receipt =>
    ∀ tok e, Holds s.index.cells tok e → e.location.regionId ≠ receipt.regionId

/-- The reclaim of the Region is on the way, and it reinserts on the shard. -/
def Backed (s : DataPath crc) (i : ℕ) (previous : PackedLocation) : Prop :=
  ∃ (w : ℕ) (phase : ReclaimPhase crc) (scan : ReclaimScan), s.reclaimers[w]? = some phase ∧
    phase.scan? = some scan ∧ scan.shardId = i ∧ scan.receipt.regionId = previous.regionId ∧
    (scan.cursor.stats.reinsertRecords = 0 →
      ∃ scanned record, phase = .offering scan scanned record)

/-- A reserved record is a new one, or that of the reclaim worker that offers it. -/
def ReservedBy (s : DataPath crc) (i : ℕ) (request : StageRequest crc) : Option ℕ → Prop
  | none => request.reinsert = none
  | some w => ∃ scan scanned record, s.reclaimers[w]? = some (.offering scan scanned record) ∧
    scan.shardId = i ∧ request = DataPath.reinsertRequest record

/-- Where the reclaim workers are. -/
structure Reclaims (ranges : List IndexPartitionRange) (log : ℕ → List ValueRecord)
    (s : DataPath crc) : Prop where
  receipts : ∀ {w : ℕ} {phase : ReclaimPhase crc} {receipt : RegionReclaimReceipt},
    s.reclaimers[w]? = some phase → phase.receipt? = some receipt →
    receipt ∈ s.manager.reclaiming
  distinct : ∀ {w w' : ℕ} {phase phase' : ReclaimPhase crc}
    {receipt receipt' : RegionReclaimReceipt},
    s.reclaimers[w]? = some phase → phase.receipt? = some receipt →
    s.reclaimers[w']? = some phase' → phase'.receipt? = some receipt' →
    receipt.regionId = receipt'.regionId → w = w'
  link : ∀ {w : ℕ} {phase : ReclaimPhase crc}, s.reclaimers[w]? = some phase →
    ReclaimLink ranges log s phase
  pending : ∀ {i : ℕ} {p : ShardPath crc} {item : PendingRecord} {previous : PackedLocation},
    s.shards[i]? = some p → item ∈ p.pending → item.2.2 = some previous → Backed s i previous
  reserved : ∀ {i : ℕ} {p : ShardPath crc} {request : StageRequest crc}
    {receipt : RegionAppendReservation}, s.shards[i]? = some p →
    p.reserved? = some (request, receipt) → ReservedBy s i request p.owner?

/-- The invariant of the data path, with the logs of the Regions. -/
structure PathInv (c : PathConfig) (slotCount : ℕ) (ranges : List IndexPartitionRange)
    (log : ℕ → List ValueRecord) (s : DataPath crc) : Prop where
  linked : Linked c s
  stored : OnDisk c log s
  indexed : Indexed slotCount ranges log s
  generated : Generated s
  reclaims : Reclaims ranges log s

end Definitions

/-! ## What the parts depend on -/

section Frames

variable {crc : List UInt8 → BitVec 32} {c : PathConfig} {slotCount : ℕ}
  {ranges : List IndexPartitionRange} {log log' : ℕ → List ValueRecord} {s s' : DataPath crc}
  {i : ℕ} {p p' : ShardPath crc}

/-- An element of a list with another element. -/
lemma getElem?_set_cases {α : Type} {l : List α} {i j : ℕ} {a b : α}
    (h : (l.set i a)[j]? = some b) : j = i ∧ b = a ∨ j ≠ i ∧ l[j]? = some b := by
  by_cases hj : j = i
  · subst hj
    obtain ⟨hlt, heq⟩ := List.getElem?_eq_some_iff.1 h
    exact .inl ⟨rfl, by rw [← heq, List.getElem_set_self]⟩
  · exact .inr ⟨hj, by rwa [List.getElem?_set_ne (Ne.symm hj)] at h⟩

namespace Linked

/-- A shard, with what the manager has of it. -/
lemma view (h : Linked c s) (hp : s.shards[i]? = some p) :
    ∃ shard regionId region fill job, ShardView c s i shard regionId region p fill job := by
  have hlt : i < s.manager.appendStates.length :=
    h.length_shards ▸ (List.getElem?_eq_some_iff.1 hp).1
  obtain ⟨regionId, region, hat⟩ := h.inv.exists_shardAt (List.getElem?_eq_getElem hlt)
  obtain ⟨fill, job, hlink⟩ := h.link hp hat
  exact ⟨_, regionId, region, fill, job, hp, h.fits, h.inv, h.space, hat, hlink⟩

/-- One shard and the manager have moved on, and agree again. -/
lemma set (h : Linked c s) {shard' : AppendShardState} {regionId' : ℕ} {region' : RegionDesc}
    {fill' job' : List ValueRecord} (hfits : c.Fits s'.manager) (hinv : ManagerInv s'.manager)
    (hspace : RecordSpace 32 s'.manager)
    (hstates : s'.manager.appendStates.length = s.manager.appendStates.length)
    (hgenerations : s'.generations.length = s'.manager.regions.length)
    (hshards : s'.shards = s.shards.set i p')
    (hothers : ∀ {j id : ℕ} {shard : AppendShardState} {region : RegionDesc}, j ≠ i →
      s'.manager.ShardAt j shard id region → s.manager.ShardAt j shard id region)
    (hat : s'.manager.ShardAt i shard' regionId' region')
    (hlink : ShardLink c i shard' regionId' region'.createdSeqno p' fill' job')
    (hrotating : ∀ {j : ℕ} {q : ShardPath crc}, s'.shards[j]? = some q →
      q.worker.phase.rotating?.isSome = true → s'.rotation = some j)
    (hselected : ∀ {j : ℕ} {q : ShardPath crc} {candidate : RegionRotationCandidate},
      s'.shards[j]? = some q → q.worker.phase = .selected candidate →
      s'.manager.freeRegions.head? = some candidate.victimRegionId) : Linked c s' where
  fits := hfits
  inv := hinv
  space := hspace
  length_shards := by rw [hshards, List.length_set, h.length_shards, hstates]
  length_generations := hgenerations
  link := by
    intro j q shard id region hq hat'
    rw [hshards] at hq
    rcases getElem?_set_cases hq with ⟨rfl, rfl⟩ | ⟨hne, hq⟩
    · obtain rfl := Option.some.inj (hat.shard_eq.symm.trans hat'.shard_eq)
      obtain rfl := Option.some.inj (hat.active_eq.symm.trans hat'.active_eq)
      obtain rfl := Option.some.inj (hat.region_eq.symm.trans hat'.region_eq)
      exact ⟨fill', job', hlink⟩
    · exact h.link hq (hothers hne hat')
  rotating := hrotating
  selected := hselected

end Linked

/-- The Regions hold what they held, and the same of them are being reclaimed. -/
structure SameContents (m m' : RegionManager) : Prop where
  length_eq : m'.regions.length = m.regions.length
  view : ∀ {id : ℕ} {region' : RegionDesc}, m'.regions[id]? = some region' →
    ∃ region, m.regions[id]? = some region ∧ region'.view = region.view
  reclaiming_eq : m'.reclaiming = m.reclaiming

namespace SameContents

variable {m m' : RegionManager}

/-- A manager whose Regions have not changed. -/
lemma of_regions (hregions : m'.regions = m.regions) (hreclaiming : m'.reclaiming = m.reclaiming) :
    SameContents m m' :=
  ⟨by rw [hregions], fun h => ⟨_, hregions ▸ h, rfl⟩, hreclaiming⟩

/-- A shard has moved on, and no more has been completed. -/
lemma of_move {regionId : ℕ} {region region' : RegionDesc} {shard shard' : AppendShardState}
    (hat : m.ShardAt i shard regionId region)
    (hmove : ShardMove i regionId m region m' shard' region')
    (hcompleted : region'.completedUsed = region.completedUsed)
    (hcount : region'.physicalRecordCount = region.physicalRecordCount) : SameContents m m' := by
  have heq := hmove.eq_put
  refine ⟨by rw [heq]; exact List.length_set, fun {id desc} hdesc => ?_, by rw [heq]; rfl⟩
  by_cases hid : id = regionId
  · subst hid
    obtain rfl := Option.some.inj (hmove.shardAt.region_eq.symm.trans hdesc)
    refine ⟨region, hat.region_eq, ?_⟩
    rw [RegionDesc.view, RegionDesc.view, hmove.created_eq, hcompleted, hcount]
  · rw [heq] at hdesc
    exact ⟨desc, (List.getElem?_set_ne (Ne.symm hid)).symm.trans hdesc, rfl⟩

/-- The Regions have the generations they had. -/
lemma created (h : SameContents m m') {id : ℕ} {region' : RegionDesc}
    (hregion : m'.regions[id]? = some region') :
    ∃ region, m.regions[id]? = some region ∧ region'.createdSeqno = region.createdSeqno := by
  obtain ⟨region, hregion, hview⟩ := h.view hregion
  exact ⟨region, hregion, congrArg Prod.fst hview⟩

/-- A Region that is not there was not there. -/
lemma outside (h : SameContents m m') {id : ℕ} (hnone : m'.regions[id]? = none) :
    m.regions[id]? = none := by
  rw [List.getElem?_eq_none_iff] at hnone ⊢
  exact h.length_eq ▸ hnone

end SameContents

/-- Contents depend on the view. -/
lemma Content.congr {disk : List UInt8} {id : ℕ} {region region' : RegionDesc}
    {records : List ValueRecord} (h : Content crc c disk id region records)
    (hview : region'.view = region.view) : Content crc c disk id region' records := by
  obtain ⟨hcreated, hcompleted, hcount⟩ : region'.createdSeqno = region.createdSeqno ∧
      region'.completedUsed = region.completedUsed ∧
      region'.physicalRecordCount = region.physicalRecordCount := by
    simpa [RegionDesc.view] using hview
  exact ⟨hcompleted ▸ h.slice_eq, hcount ▸ h.count_eq, hcreated ▸ h.generation_eq, h.recordLen_le⟩

/-- The disk and what the Regions hold have not changed, and the device has not written. -/
lemma OnDisk.frame (h : OnDisk c log s) (hdisk : s'.disk = s.disk)
    (hsame : SameContents s.manager s'.manager)
    (hwritten : ∀ {j : ℕ} {q : ShardPath crc} {job : StagedWrite}, s'.shards[j]? = some q →
      q.worker.phase = .written job → ∃ q, s.shards[j]? = some q ∧ q.worker.phase = .written job) :
    OnDisk c log s' where
  length_disk := hdisk ▸ h.length_disk
  content := by
    intro id region' hregion
    obtain ⟨region, hregion, hview⟩ := hsame.view hregion
    exact hdisk ▸ (h.content hregion).congr hview
  outside := fun hnone => h.outside (hsame.outside hnone)
  written := by
    intro j q job hq hphase
    obtain ⟨q, hq, hphase⟩ := hwritten hq hphase
    rw [hdisk]
    exact h.written hq hphase

/-- A mapping to a record of a log leads to that record when the log has grown. -/
lemma Named.mono {records records' : List ValueRecord} {tok : Token} {e : IndexEntry}
    (h : Named crc ranges records tok e) (hgrows : records <+: records') :
    Named crc ranges records' tok e := by
  obtain ⟨record, hat, hrest⟩ := h
  obtain ⟨more, rfl⟩ := hgrows
  exact ⟨record, hat.append_right, hrest⟩

/-- A staged record is to be found behind the log that it is appended to. -/
lemma named_staged {regionId offset : ℕ} {before records : List ValueRecord}
    {items : List StagedRecord} {item : StagedRecord}
    (hstaged : Staged regionId records items offset) (hitem : item ∈ items)
    (hlen : (text (ValueRecord.bytes crc) before).length = offset) :
    item.entry.location.regionId = regionId ∧
      Named crc ranges (before ++ records) (tokenOf ranges item.hash) item.entry.quantize := by
  obtain ⟨record, position, hat, hhash, hlocation⟩ := hstaged.exists_at crc hitem
  obtain ⟨hid, hoffset, hrecordLen⟩ := PackedLocation.fields_of_new hlocation
  refine ⟨hid, record, ?_, by rw [hhash], ?_⟩
  · show At _ _ item.entry.location.quantize.offset _
    rw [PackedLocation.offset_quantize, hoffset, at_append, hlen, Nat.add_sub_cancel_left]
    exact .inr ⟨Nat.le_add_right _ _, hat⟩
  · show _ = some item.entry.location.quantize.indexSizeClass
    rw [PackedLocation.indexSizeClass_quantize, ← PackedLocation.recordSizeClass_recordLen,
      hrecordLen]

/-- The index and the logs have not changed, and nothing more is to be published. -/
lemma Indexed.frame (h : Indexed slotCount ranges log s) (hindex : s'.index = s.index)
    (hpublishing : ∀ {j : ℕ} {q : ShardPath crc} {job : StagedWrite} {rest : List StagedRecord},
      s'.shards[j]? = some q → q.worker.phase = .publishing job rest →
      ∃ q, s.shards[j]? = some q ∧ q.worker.phase = .publishing job rest) :
    Indexed slotCount ranges log s' where
  inv := hindex ▸ h.inv
  named := hindex ▸ h.named
  publishing := by
    intro j q job rest hq hphase
    obtain ⟨q, hq, hphase⟩ := hpublishing hq hphase
    exact h.publishing hq hphase

/-- The generations have not changed. -/
lemma Generated.frame (h : Generated s) (hgenerations : s'.generations = s.generations)
    (hcreated : ∀ {id : ℕ} {region' : RegionDesc}, s'.manager.regions[id]? = some region' →
      ∃ region, s.manager.regions[id]? = some region ∧
        region'.createdSeqno = region.createdSeqno)
    (hactivating : ∀ {j : ℕ} {q : ShardPath crc} {receipt : RegionRotationReceipt},
      s.shards[j]? = some q → q.worker.phase = .activating receipt →
      ∃ q, s'.shards[j]? = some q ∧ q.worker.phase = .activating receipt)
    (hcleared : ∀ {w : ℕ} {receipt : RegionReclaimReceipt},
      s'.reclaimers[w]? = some (.cleared receipt) ↔ s.reclaimers[w]? = some (.cleared receipt)) :
    Generated s' := by
  refine ⟨fun hregion hg => ?_, fun hregion => ?_, fun hphase => ?_⟩
  · obtain ⟨region, hregion, heq⟩ := hcreated hregion
    rw [heq]
    exact h.eq hregion (hgenerations ▸ hg)
  · obtain ⟨region, hregion, heq⟩ := hcreated hregion
    rw [heq, hgenerations]
    rcases h.stored hregion with hg | ⟨j, q, receipt, hq, hphase, hid⟩ | ⟨w, receipt, hphase, hid⟩
    · exact .inl hg
    · obtain ⟨q, hq, hphase⟩ := hactivating hq hphase
      exact .inr (.inl ⟨j, q, receipt, hq, hphase, hid⟩)
    · exact .inr (.inr ⟨w, receipt, hcleared.2 hphase, hid⟩)
  · rw [hgenerations]
    exact h.cleared (hcleared.1 hphase)

/-- What a reclaim worker depends on: the log of its Region, the mappings into it, and the
reinsertions that cover them. -/
structure ReclaimView (ranges : List IndexPartitionRange) (log log' : ℕ → List ValueRecord)
    (s s' : DataPath crc) (receipt : RegionReclaimReceipt) : Prop where
  log_eq : log' receipt.regionId = log receipt.regionId
  held : ∀ tok e, Holds s'.index.cells tok e → e.location.regionId = receipt.regionId →
    Holds s.index.cells tok e ∧ ∀ j, Covered ranges s j tok e → Covered ranges s' j tok e

/-- A scan goes on as before. -/
lemma ScanLink.frame {scan : ReclaimScan} (h : ScanLink ranges log s scan)
    (hlen : s'.shards.length = s.shards.length)
    (hview : ReclaimView ranges log log' s s' scan.receipt) : ScanLink ranges log' s' scan where
  shard_lt := hlen ▸ h.shard_lt
  bytes_eq := hview.log_eq ▸ h.bytes_eq
  boundary := hview.log_eq ▸ h.boundary
  covered := by
    intro tok e he hregion hlt
    obtain ⟨he', hcovered⟩ := hview.held tok e he hregion
    exact hcovered _ (h.covered tok e he' hregion hlt)

/-- A reclaim worker goes on as before. -/
lemma ReclaimLink.frame {phase : ReclaimPhase crc} (h : ReclaimLink ranges log s phase)
    (hlen : s'.shards.length = s.shards.length)
    (hview : ∀ receipt, phase.receipt? = some receipt → ReclaimView ranges log log' s s' receipt)
    (hdrain : ∀ scan generation, phase = .draining scan generation →
      ∀ q, s'.shards[scan.shardId]? = some q →
        DrainInv (LeadsInto scan.receipt.regionId) generation q) :
    ReclaimLink ranges log' s' phase := by
  have hscanned : ∀ {scan : ReclaimScan} {scanned : ReclaimRecord},
      ReclaimView ranges log log' s s' scan.receipt → ScannedAt crc log scan scanned →
      ScannedAt crc log' scan scanned := by
    rintro scan scanned hv ⟨record, location, hat, hrest⟩
    exact ⟨record, location, hv.log_eq ▸ hat, hrest⟩
  cases phase with
  | idle => trivial
  | begun receipt => trivial
  | scanning scan => exact ScanLink.frame h hlen (hview _ rfl)
  | classified scan scanned => exact ⟨h.1.frame hlen (hview _ rfl), hscanned (hview _ rfl) h.2⟩
  | offering scan scanned offer =>
    obtain ⟨hscan, record, hoffer, hend⟩ := h
    exact ⟨hscan.frame hlen (hview _ rfl), record, (hview _ rfl).log_eq ▸ hoffer, hend⟩
  | dropping scan scanned => exact ⟨h.1.frame hlen (hview _ rfl), hscanned (hview _ rfl) h.2⟩
  | scanned scan => exact ⟨h.1.frame hlen (hview _ rfl), h.2⟩
  | draining scan generation =>
    exact ⟨h.1.frame hlen (hview _ rfl), h.2.1, hdrain scan generation rfl⟩
  | emptied receipt =>
    intro tok e he hregion
    exact h tok e ((hview _ rfl).held tok e he hregion).1 hregion
  | cleared receipt =>
    intro tok e he hregion
    exact h tok e ((hview _ rfl).held tok e he hregion).1 hregion

/-- No reclaim worker moves, and what they depend on has not changed. -/
lemma Reclaims.frame (h : Reclaims ranges log s) (hlen : s'.shards.length = s.shards.length)
    (hreclaimers : s'.reclaimers = s.reclaimers)
    (hreclaiming : ∀ receipt ∈ s.manager.reclaiming, receipt ∈ s'.manager.reclaiming ∧
      ReclaimView ranges log log' s s' receipt)
    (hpending : ∀ {j : ℕ} {q : ShardPath crc} {item : PendingRecord} {previous : PackedLocation},
      s'.shards[j]? = some q → item ∈ q.pending → item.2.2 = some previous → Backed s j previous)
    (hreserved : ∀ {j : ℕ} {q : ShardPath crc} {request : StageRequest crc}
      {receipt : RegionAppendReservation}, s'.shards[j]? = some q →
      q.reserved? = some (request, receipt) → ReservedBy s j request q.owner?)
    (hdrain : ∀ {w : ℕ} {scan : ReclaimScan} {generation : ℕ} {q : ShardPath crc},
      s.reclaimers[w]? = some (.draining scan generation) → s'.shards[scan.shardId]? = some q →
      DrainInv (LeadsInto scan.receipt.regionId) generation q) : Reclaims ranges log' s' := by
  constructor
  · intro w phase receipt hphase hreceipt
    exact (hreclaiming receipt (h.receipts (hreclaimers ▸ hphase) hreceipt)).1
  · intro w w' phase phase' receipt receipt' hphase hreceipt hphase'
    exact h.distinct (hreclaimers ▸ hphase) hreceipt (hreclaimers ▸ hphase')
  · intro w phase hphase
    rw [hreclaimers] at hphase
    refine (h.link hphase).frame hlen (fun receipt hreceipt => ?_)
      fun scan generation heq q hq => ?_
    · exact (hreclaiming receipt (h.receipts hphase hreceipt)).2
    · exact hdrain (heq ▸ hphase) hq
  · intro j q item previous hq hitem hprevious
    obtain ⟨w, phase, hrest⟩ := hpending hq hitem hprevious
    exact ⟨w, phase, hreclaimers ▸ hrest⟩
  · intro j q request receipt hq hreceipt
    have hby := hreserved hq hreceipt
    cases howner : q.owner? with
    | none => rwa [howner] at hby
    | some w =>
      rw [howner] at hby
      obtain ⟨scan, scanned, record, hphase, hrest⟩ := hby
      exact ⟨scan, scanned, record, hreclaimers ▸ hphase, hrest⟩

/-- A reinsertion that is pending covers what it covered. -/
lemma Covered.keep {j : ℕ} {tok : Token} {e : IndexEntry} (h : Covered ranges s j tok e)
    (hlen : s'.shards.length = s.shards.length)
    (hpending : ∀ {q q' : ShardPath crc}, s.shards[j]? = some q → s'.shards[j]? = some q' →
      q.pending ⊆ q'.pending) : Covered ranges s' j tok e := by
  obtain ⟨q, item, previous, hq, hitem, hrest⟩ := h
  have hlt : j < s'.shards.length := hlen ▸ (List.getElem?_eq_some_iff.1 hq).1
  exact ⟨_, item, previous, List.getElem?_eq_getElem hlt,
    hpending hq (List.getElem?_eq_getElem hlt) hitem, hrest⟩

/-- Nothing that the reclaim workers depend on changes, up to mappings that are removed. -/
lemma Reclaims.keep (h : Reclaims ranges log s) (hlen : s'.shards.length = s.shards.length)
    (hreclaimers : s'.reclaimers = s.reclaimers)
    (hreclaiming : s'.manager.reclaiming = s.manager.reclaiming)
    (hlog : ∀ receipt ∈ s.manager.reclaiming, log' receipt.regionId = log receipt.regionId)
    (hheld : ∀ tok e, Holds s'.index.cells tok e → Holds s.index.cells tok e)
    (hframe : ∀ {j : ℕ} {q q' : ShardPath crc}, s.shards[j]? = some q → s'.shards[j]? = some q' →
      PendingFrame q q') : Reclaims ranges log' s' := by
  have hbefore : ∀ {j : ℕ} {q' : ShardPath crc}, s'.shards[j]? = some q' →
      ∃ q, s.shards[j]? = some q ∧ PendingFrame q q' := by
    intro j q' hq'
    have hlt : j < s.shards.length := hlen ▸ (List.getElem?_eq_some_iff.1 hq').1
    exact ⟨_, List.getElem?_eq_getElem hlt, hframe (List.getElem?_eq_getElem hlt) hq'⟩
  refine h.frame hlen hreclaimers (fun receipt hmem => ⟨hreclaiming ▸ hmem, hlog receipt hmem,
    fun tok e he _ => ⟨hheld tok e he, fun j hcovered => ?_⟩⟩) ?_ ?_ ?_
  · exact hcovered.keep hlen fun hq hq' => (hframe hq hq').pending_eq ▸ List.Subset.refl _
  · intro j q' item previous hq' hitem
    obtain ⟨q, hq, hqq⟩ := hbefore hq'
    exact h.pending hq (hqq.pending_eq ▸ hitem)
  · intro j q' request receipt hq' hreserved
    obtain ⟨q, hq, hqq⟩ := hbefore hq'
    rw [hqq.owner_eq]
    exact h.reserved hq (hqq.reserved_eq ▸ hreserved)
  · intro w scan generation q' hphase hq'
    obtain ⟨q, hq, hqq⟩ := hbefore hq'
    exact hqq.drain _ _ ((h.link hphase).2.2 q hq)

/-- A shard that has not changed. -/
lemma pendingFrame_same {j : ℕ} {q q' : ShardPath crc} (hq : s.shards[j]? = some q)
    (hq' : s.shards[j]? = some q') : PendingFrame q q' := by
  obtain rfl := Option.some.inj (hq.symm.trans hq')
  exact ⟨rfl, rfl, rfl, fun _ _ hdrain => hdrain⟩

/-- A frame for one shard is one for all. -/
lemma pendingFrame_set (hp : s.shards[i]? = some p) (hframe : PendingFrame p p') {j : ℕ}
    {q q' : ShardPath crc} (hq : s.shards[j]? = some q) (hq' : (s.shards.set i p')[j]? = some q') :
    PendingFrame q q' := by
  rcases getElem?_set_cases hq' with ⟨rfl, rfl⟩ | ⟨-, hq'⟩
  · exact Option.some.inj (hq.symm.trans hp) ▸ hframe
  · exact pendingFrame_same hq hq'

end Frames

/-! ## Runs -/

/-- Every Region has grown since, or is empty, or has been activated since. -/
structure Later {crc : List UInt8 → BitVec 32} (log : ℕ → List ValueRecord) (s : DataPath crc)
    (log' : ℕ → List ValueRecord) (s' : DataPath crc) : Prop where
  next_le : s.manager.nextSeqno ≤ s'.manager.nextSeqno
  grows : ∀ {id : ℕ} {region region' : RegionDesc}, s.manager.regions[id]? = some region →
    s'.manager.regions[id]? = some region' →
    region'.createdSeqno = region.createdSeqno ∧ log id <+: log' id ∨ region'.createdSeqno = 0 ∨
      s.manager.nextSeqno ≤ region'.createdSeqno

/-- The invariant holds again, of logs that are later. -/
def Keeps {crc : List UInt8 → BitVec 32} (c : PathConfig) (slotCount : ℕ)
    (ranges : List IndexPartitionRange) (log : ℕ → List ValueRecord) (s s' : DataPath crc) : Prop :=
  ∃ log', PathInv c slotCount ranges log' s' ∧ Later log s log' s' ∧ s'.healthy = s.healthy

section Later

variable {crc : List UInt8 → BitVec 32} {log log' log'' : ℕ → List ValueRecord}
  {s s' s'' : DataPath crc}

/-- Nothing has changed. -/
lemma Later.of_same (hnext : s.manager.nextSeqno ≤ s'.manager.nextSeqno)
    (hsame : SameContents s.manager s'.manager) : Later log s log s' := by
  refine ⟨hnext, fun {id region region'} hregion hregion' => .inl ⟨?_, List.prefix_rfl⟩⟩
  obtain ⟨before, hbefore, hview⟩ := hsame.view hregion'
  obtain rfl := Option.some.inj (hregion.symm.trans hbefore)
  exact congrArg Prod.fst hview

/-- What is later than something later is later. -/
lemma Later.trans (h : Later log s log' s') (h' : Later log' s' log'' s'')
    (hlen : s'.manager.regions.length = s.manager.regions.length) : Later log s log'' s'' := by
  refine ⟨h.next_le.trans h'.next_le, fun {id region region''} hregion hregion'' => ?_⟩
  have hlt : id < s'.manager.regions.length :=
    hlen ▸ (List.getElem?_eq_some_iff.1 hregion).1
  have hnext := h.next_le
  rcases h'.grows (List.getElem?_eq_getElem hlt) hregion'' with ⟨heq', hlog'⟩ | hzero | hle
  · rcases h.grows hregion (List.getElem?_eq_getElem hlt) with ⟨heq, hlog⟩ | hzero | hle
    · exact .inl ⟨heq'.trans heq, hlog.trans hlog'⟩
    · exact .inr (.inl (heq'.trans hzero))
    · exact .inr (.inr (heq' ▸ hle))
  · exact .inr (.inl hzero)
  · exact .inr (.inr (hnext.trans hle))

end Later

end Cache2
