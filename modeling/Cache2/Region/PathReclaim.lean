import Cache2.Region.PathSteps

set_option relaxedAutoImplicit false
set_option autoImplicit false

/-!
# The steps of the reclaim workers

A reclaim worker begins with a sealed Region, reads its prefix, and goes through the records. Hot
records are offered to an append shard; the mappings of all others are removed. Then it waits for
the drain of the shard, clears the generation and returns the Region. What is proved here is that
the mappings that it has not removed are covered by pending reinsertions, and so none is left in the
end.

## Main results

* `Cache2.ScanLink.advance` — one record further.
* `Cache2.PathInv.begin`, `Cache2.PathInv.read`, `Cache2.PathInv.classify`, `Cache2.PathInv.offer`,
  `Cache2.PathInv.accepted`, `Cache2.PathInv.drop`, `Cache2.PathInv.scanned`,
  `Cache2.PathInv.wait`, `Cache2.PathInv.clear`, `Cache2.PathInv.finish` — the sections.
-/

namespace Cache2

open Bytes Loop Framing TokenTable DataPath

section Moves

variable {crc : List UInt8 → BitVec 32} {c : PathConfig} {slotCount : ℕ}
  {ranges : List IndexPartitionRange} {log log' : ℕ → List ValueRecord} {s s' : DataPath crc}
  {w : ℕ} {phase phase' : ReclaimPhase crc} {scan scan' : ReclaimScan}

/-- One section after another. -/
lemma Keeps.next {s₁ : DataPath crc} (h : Keeps c slotCount ranges log s s₁)
    (hinv : PathInv c slotCount ranges log s)
    (hnext : ∀ {log₁ : ℕ → List ValueRecord}, PathInv c slotCount ranges log₁ s₁ →
      Keeps c slotCount ranges log₁ s₁ s') : Keeps c slotCount ranges log s s' := by
  obtain ⟨log₁, hinv₁, hlater, hhealthy⟩ := h
  obtain ⟨log', hinv', hlater', hhealthy'⟩ := hnext hinv₁
  have hlen : s₁.manager.regions.length = s.manager.regions.length :=
    hinv₁.linked.fits.count_eq.trans hinv.linked.fits.count_eq.symm
  exact ⟨log', hinv', hlater.trans hlater' hlen, hhealthy'.trans hhealthy⟩

/-- A shard moves whatever the reclaim workers do. -/
lemma Moved.setReclaimer {i regionId : ℕ} {region : RegionDesc} {p' : ShardPath crc}
    (h : Moved c s i regionId region p' s') (w : ℕ) (phase : ReclaimPhase crc) :
    Moved c (s.setReclaimer w phase) i regionId region p' (s'.setReclaimer w phase) := by
  obtain ⟨m', shard', region', fill', job', hmove, hcompleted, hcount, hlink, rfl⟩ := h.moved
  exact ⟨m', shard', region', fill', job', hmove, hcompleted, hcount, hlink, rfl⟩

/-- A section that succeeds ends no thread. -/
lemma orFail_ok {α : Type} {f : PathM crc α} {a : α} (h : f s = .ok a s') :
    orFail f s = .ok a s' := by
  rw [orFail, h]

/-- A section that fails ends the thread, and the health. -/
lemma orFail_error {α : Type} {f : PathM crc α} {e : PathError} (h : f s = .error e s') :
    orFail f s = .error e { s' with healthy := false } := by
  rw [orFail, h]

/-- A count that has been raised. -/
lemma saturatingAdd_one_ne (n : ℕ) : Word.saturatingAdd 64 n 1 ≠ 0 := by
  rw [Word.saturatingAdd]
  have hmax : 0 < min (n + 1) (2 ^ 64 - 1) := lt_min (Nat.succ_pos n) (by norm_num)
  exact hmax.ne'

/-! ### A worker that moves on -/

/-- A scan has the receipt of its worker. -/
lemma ReclaimPhase.receipt_of_scan (h : phase.scan? = some scan) :
    phase.receipt? = some scan.receipt := by
  cases phase <;> simp_all [ReclaimPhase.scan?, ReclaimPhase.receipt?]

/-- A worker with a scan has not cleared a generation. -/
lemma ReclaimPhase.ne_cleared_of_scan (h : phase.scan? = some scan)
    (receipt : RegionReclaimReceipt) : phase ≠ .cleared receipt := by
  rintro rfl
  cases h

/-- What is left for the pending reinsertions of a worker that moves on. -/
def StillBacked (s : DataPath crc) (phase phase' : ReclaimPhase crc) : Prop :=
  ∀ {i : ℕ} {p : ShardPath crc} {item : PendingRecord} {previous : PackedLocation}
    {scan : ReclaimScan}, s.shards[i]? = some p → item ∈ p.pending → item.2.2 = some previous →
    phase.scan? = some scan → scan.shardId = i → scan.receipt.regionId = previous.regionId →
    (scan.cursor.stats.reinsertRecords = 0 →
      ∃ scanned record, phase = .offering scan scanned record) →
    ∃ scan', phase'.scan? = some scan' ∧ scan'.shardId = scan.shardId ∧
      scan'.receipt = scan.receipt ∧ (scan'.cursor.stats.reinsertRecords = 0 →
        ∃ scanned record, phase' = .offering scan' scanned record)

/-- No record of the worker is reserved. -/
def Unreserved (s : DataPath crc) (w : ℕ) : Prop :=
  ∀ {j : ℕ} {q : ShardPath crc} {request : StageRequest crc} {receipt : RegionAppendReservation},
    s.shards[j]? = some q → q.reserved? = some (request, receipt) → q.owner? ≠ some w

/-- Only a worker that offers a record has one reserved. -/
lemma Reclaims.unreserved (h : Reclaims ranges log s) (hphase : s.reclaimers[w]? = some phase)
    (hnot : ∀ scan scanned record, phase ≠ .offering scan scanned record) : Unreserved s w := by
  intro j q request receipt hq hreserved howner
  have hby := h.reserved hq hreserved
  rw [howner] at hby
  obtain ⟨scan, scanned, record, hoffering, -⟩ := hby
  exact hnot scan scanned record (Option.some.inj (hphase.symm.trans hoffering))

/-- A worker moves on, and the others stay where they are. -/
lemma Reclaims.moved (h : Reclaims ranges log s) (hphase : s.reclaimers[w]? = some phase)
    (hshards : s'.shards = s.shards) (hreclaimers : s'.reclaimers = s.reclaimers.set w phase')
    (hheld : ∀ tok e, Holds s'.index.cells tok e → Holds s.index.cells tok e)
    (hothers : ∀ {w' : ℕ} {other : ReclaimPhase crc} {receipt : RegionReclaimReceipt}, w' ≠ w →
      s.reclaimers[w']? = some other → other.receipt? = some receipt →
      receipt ∈ s'.manager.reclaiming ∧ log' receipt.regionId = log receipt.regionId ∧
      ∀ receipt', phase'.receipt? = some receipt' → receipt.regionId ≠ receipt'.regionId)
    (hmem : ∀ receipt, phase'.receipt? = some receipt → receipt ∈ s'.manager.reclaiming)
    (hlink : ReclaimLink ranges log' s' phase') (hbacked : StillBacked s phase phase')
    (hunreserved : Unreserved s w) : Reclaims ranges log' s' := by
  have hcases : ∀ {w' : ℕ} {other : ReclaimPhase crc}, s'.reclaimers[w']? = some other →
      w' = w ∧ other = phase' ∨ w' ≠ w ∧ s.reclaimers[w']? = some other := by
    intro w' other hother
    rw [hreclaimers] at hother
    exact getElem?_set_cases hother
  have hkeep : ∀ {w' : ℕ} {other : ReclaimPhase crc}, w' ≠ w → s.reclaimers[w']? = some other →
      s'.reclaimers[w']? = some other := by
    intro w' other hne hother
    rw [hreclaimers]
    exact (List.getElem?_set_ne (Ne.symm hne)).trans hother
  constructor
  · intro w' other receipt hother hreceipt
    rcases hcases hother with ⟨rfl, rfl⟩ | ⟨hne, hother⟩
    · exact hmem receipt hreceipt
    · exact (hothers hne hother hreceipt).1
  · intro w₁ w₂ first second receipt receipt' hfirst hreceipt hsecond hreceipt' heq
    rcases hcases hfirst with ⟨rfl, rfl⟩ | ⟨hne, hfirst⟩
    · rcases hcases hsecond with ⟨rfl, rfl⟩ | ⟨hne', hsecond⟩
      · rfl
      · exact absurd heq.symm ((hothers hne' hsecond hreceipt').2.2 receipt hreceipt)
    · rcases hcases hsecond with ⟨rfl, rfl⟩ | ⟨hne', hsecond⟩
      · exact absurd heq ((hothers hne hfirst hreceipt).2.2 receipt' hreceipt')
      · exact h.distinct hfirst hreceipt hsecond hreceipt' heq
  · intro w' other hother
    rcases hcases hother with ⟨rfl, rfl⟩ | ⟨hne, hother⟩
    · exact hlink
    · refine (h.link hother).frame (by rw [hshards]) (fun receipt hreceipt => ?_)
        fun scan generation heq q hq => ?_
      · refine ⟨(hothers hne hother hreceipt).2.1, fun tok e he _ => ⟨hheld tok e he, ?_⟩⟩
        rintro j ⟨q, item, previous, hq, hrest⟩
        exact ⟨q, item, previous, hshards ▸ hq, hrest⟩
      · subst heq
        exact (h.link hother).2.2 q (hshards ▸ hq)
  · intro i p item previous hp hitem hprevious
    rw [hshards] at hp
    obtain ⟨w', other, scan, hother, hscan, hid, hregion, hzero⟩ := h.pending hp hitem hprevious
    by_cases hw : w' = w
    · subst hw
      obtain rfl := Option.some.inj (hphase.symm.trans hother)
      obtain ⟨scan', hscan', hid', hreceipt', hzero'⟩ :=
        hbacked hp hitem hprevious hscan hid hregion hzero
      have hlt : w' < s.reclaimers.length := (List.getElem?_eq_some_iff.1 hphase).1
      refine ⟨w', phase', scan', ?_, hscan', hid'.trans hid, hreceipt' ▸ hregion, hzero'⟩
      rw [hreclaimers]
      exact List.getElem?_set_self hlt
    · exact ⟨w', other, scan, hkeep hw hother, hscan, hid, hregion, hzero⟩
  · intro i p request receipt hp hreserved
    rw [hshards] at hp
    have hby := h.reserved hp hreserved
    cases howner : p.owner? with
    | none => rwa [howner] at hby
    | some w' =>
      rw [howner] at hby
      obtain ⟨scan, scanned, record, hother, hrest⟩ := hby
      have hw : w' ≠ w := fun heq => hunreserved hp hreserved (heq ▸ howner)
      exact ⟨scan, scanned, record, hkeep hw hother, hrest⟩

/-- The generations stay when a worker moves on that neither has cleared one nor clears one. -/
lemma Generated.moved (h : Generated s) (hphase : s.reclaimers[w]? = some phase)
    (hnot : ∀ receipt, phase ≠ .cleared receipt) (hnot' : ∀ receipt, phase' ≠ .cleared receipt)
    (hgenerations : s'.generations = s.generations)
    (hregions : s'.manager.regions = s.manager.regions) (hshards : s'.shards = s.shards)
    (hreclaimers : s'.reclaimers = s.reclaimers.set w phase') : Generated s' := by
  refine h.frame hgenerations (fun hregion => ⟨_, hregions ▸ hregion, rfl⟩)
    (fun hq hactivating => ⟨_, hshards ▸ hq, hactivating⟩) fun {w' receipt} => ?_
  rw [hreclaimers]
  by_cases hw : w' = w
  · subst hw
    have hlt : w' < s.reclaimers.length := (List.getElem?_eq_some_iff.1 hphase).1
    rw [List.getElem?_set_self hlt, hphase]
    exact ⟨fun heq => absurd (Option.some.inj heq) (hnot' receipt),
      fun heq => absurd (Option.some.inj heq) (hnot receipt)⟩
  · rw [List.getElem?_set_ne (Ne.symm hw)]

namespace PathInv

/-- A worker moves on, that keeps its Region. -/
lemma goto (h : PathInv c slotCount ranges log s) (hphase : s.reclaimers[w]? = some phase)
    {index : RegionIndex} (hinv : IndexInv crc slotCount ranges index)
    (hheld : ∀ tok e, Holds index.cells tok e → Holds s.index.cells tok e)
    (hreceipt : phase'.receipt? = phase.receipt?)
    (hnot : ∀ receipt, phase ≠ .cleared receipt) (hnot' : ∀ receipt, phase' ≠ .cleared receipt)
    (hlink : ReclaimLink ranges log ({ s with index }.setReclaimer w phase') phase')
    (hbacked : StillBacked s phase phase') (hunreserved : Unreserved s w) :
    Keeps c slotCount ranges log s ({ s with index }.setReclaimer w phase') := by
  refine ⟨log, ⟨{ h.linked with }, { h.stored with }, { h.indexed with
    inv := hinv
    named := fun tok e he => h.indexed.named tok e (hheld tok e he) },
    h.generated.moved hphase hnot hnot' rfl rfl rfl rfl, ?_⟩, .of_same le_rfl (.of_regions rfl rfl),
    rfl⟩
  refine h.reclaims.moved hphase rfl rfl hheld (fun {w' other receipt} hne hother hmine => ?_)
    (fun receipt hmine => h.reclaims.receipts hphase (hreceipt ▸ hmine)) hlink hbacked hunreserved
  refine ⟨h.reclaims.receipts hother hmine, rfl, fun receipt' hreceipt' heq => ?_⟩
  exact hne (h.reclaims.distinct hother hmine hphase (hreceipt ▸ hreceipt') heq)

/-- A worker goes on with its scan, and has as many records accepted as before. -/
lemma gotoScan (h : PathInv c slotCount ranges log s) (hphase : s.reclaimers[w]? = some phase)
    (hnot : ∀ scan scanned record, phase ≠ .offering scan scanned record)
    (hscan : phase.scan? = some scan) (hscan' : phase'.scan? = some scan')
    (hsame : scan'.shardId = scan.shardId ∧ scan'.receipt = scan.receipt ∧
      scan'.cursor.stats.reinsertRecords = scan.cursor.stats.reinsertRecords)
    {index : RegionIndex} (hinv : IndexInv crc slotCount ranges index)
    (hheld : ∀ tok e, Holds index.cells tok e → Holds s.index.cells tok e)
    (hlink : ReclaimLink ranges log ({ s with index }.setReclaimer w phase') phase') :
    Keeps c slotCount ranges log s ({ s with index }.setReclaimer w phase') := by
  refine h.goto hphase hinv hheld ?_ (ReclaimPhase.ne_cleared_of_scan hscan)
    (ReclaimPhase.ne_cleared_of_scan hscan') hlink ?_ (h.reclaims.unreserved hphase hnot)
  · rw [ReclaimPhase.receipt_of_scan hscan, ReclaimPhase.receipt_of_scan hscan', hsame.2.1]
  · intro i p item previous other hp hitem hprevious hother hid hregion hzero
    obtain rfl := Option.some.inj (hscan.symm.trans hother)
    refine ⟨scan', hscan', hsame.1, hsame.2.1, fun heq => ?_⟩
    obtain ⟨scanned, record, hoffering⟩ := hzero (hsame.2.2 ▸ heq)
    exact absurd hoffering (hnot _ _ _)

/-- What a reclaim worker reads is the log of its Region. -/
lemma scannable (h : PathInv c slotCount ranges log s) {receipt : RegionReclaimReceipt}
    (hmem : receipt ∈ s.manager.reclaiming) : Scannable crc receipt (log receipt.regionId) ∧
      slice s.disk (c.geometry.regionBase receipt.regionId) receipt.usedOffset =
        text (ValueRecord.bytes crc) (log receipt.regionId) ∧
      receipt.regionId < s.manager.regions.length := by
  obtain ⟨region, hregion, -, hreceipt⟩ := h.linked.inv.reclaiming receipt hmem
  have hlt : receipt.regionId < s.manager.regions.length := (List.getElem?_eq_some_iff.1 hregion).1
  have hcontent := h.stored.content hregion
  obtain ⟨hcreated, hcompleted, -, -⟩ := h.linked.inv.regions region (List.mem_of_getElem? hregion)
  have hsize : s.manager.regionSize ≤ maxPackedRegionSize := h.linked.inv.size_le
  have hcount : s.manager.regions.length ≤ maxPackedRegionCount := h.linked.inv.length_le
  have hnext := h.linked.inv.next_le
  have heq := h.linked.fits.size_eq
  have hdisk := h.stored.length_disk
  have hfile := (DataGeometry.regionBase_spec h.linked.fits.valid
    (h.linked.fits.count_eq ▸ hlt)).2
  have hused : receipt.usedOffset = region.completedUsed := by rw [hreceipt]
  have hslice : slice s.disk (c.geometry.regionBase receipt.regionId) receipt.usedOffset =
      text (ValueRecord.bytes crc) (log receipt.regionId) := hused ▸ hcontent.slice_eq
  refine ⟨⟨?_, ?_, by omega, ?_, fun record hrecord => ?_⟩, hslice, hlt⟩
  · have hmax : maxPackedRegionCount = 2 ^ 20 := by decide
    have hid : maxRegionId = 2 ^ 20 - 1 := by decide
    omega
  · rw [← hslice, slice, List.length_take, List.length_drop]
    unfold PathConfig.regionSize at heq
    omega
  · rw [hcontent.count_eq, hreceipt]
  · rw [hcontent.generation_eq record hrecord, BitVec.toNat_ofNat, Nat.mod_eq_of_lt, hreceipt]
    have hmax : u64Max = 2 ^ 64 - 1 := by decide
    omega

end PathInv

/-! ### One record further -/

/-- **One record further.** The mappings to the record are gone, or their reinsertions are
pending. -/
lemma ScanLink.advance (h : ScanLink ranges log s scan)
    (hnamed : ∀ tok e, Holds s.index.cells tok e → Named crc ranges (log e.location.regionId) tok e)
    {record : ValueRecord} {location : PackedLocation}
    (hat : At (ValueRecord.bytes crc) (log scan.receipt.regionId) scan.cursor.offset record)
    (hlocation : PackedLocation.new scan.receipt.regionId scan.cursor.offset record.recordLen =
      .ok location) (hcount : (log scan.receipt.regionId).length < 2 ^ 64)
    (hshards : s'.shards = s.shards)
    (hheld : ∀ tok e, Holds s'.index.cells tok e → Holds s.index.cells tok e)
    (hgone : ∀ e, Holds s'.index.cells (tokenOf ranges record.keyHash) e →
      e.location.indexEquivalent location = true →
      Covered ranges s' scan.shardId (tokenOf ranges record.keyHash) e)
    (hsame : scan'.shardId = scan.shardId ∧ scan'.receipt = scan.receipt ∧ scan'.bytes = scan.bytes)
    (hoffset : scan'.cursor.offset = scan.cursor.offset + record.recordLen)
    (hscanned : scan'.cursor.stats.recordsScanned =
      Word.saturatingAdd 64 scan.cursor.stats.recordsScanned 1) : ScanLink ranges log s' scan' := by
  obtain ⟨hid, hreceipt, hbytes⟩ := hsame
  obtain ⟨before, after, hlog, hbefore, hposition⟩ := h.boundary
  refine ⟨by rw [hid, hshards]; exact h.shard_lt,
    by rw [hbytes, hreceipt]; exact h.bytes_eq, ?_, ?_⟩
  · cases after with
    | nil =>
      exfalso
      have hle := hat.le_length
      have hmin := record.recordHeaderSize_le
      rw [ValueRecord.length_bytes, hlog, List.append_nil, ← hbefore] at hle
      omega
    | cons first rest =>
      have hfirst : At (ValueRecord.bytes crc) (log scan.receipt.regionId) scan.cursor.offset
          first := by
        rw [hlog, hbefore]
        exact at_append_self
      obtain rfl := hat.unique (ValueRecord.selfDelimiting crc) hfirst
      refine ⟨before ++ [record], rest, ?_, ?_, ?_⟩
      · rw [hreceipt, hlog, List.append_assoc, List.singleton_append]
      · rw [hoffset, hbefore, text_append, List.length_append, text_cons, text_nil, List.append_nil,
          ValueRecord.length_bytes]
      · rw [hlog, List.length_append, List.length_cons] at hcount
        rw [hscanned, hposition, List.length_append, List.length_singleton, Word.saturatingAdd]
        exact Nat.min_eq_left (by omega)
  · intro tok e he hregion hlt
    rw [hreceipt] at hregion
    rw [hid]
    by_cases hlow : e.location.offset < scan.cursor.offset
    · obtain ⟨q, item, previous, hq, hrest⟩ := h.covered tok e (hheld tok e he) hregion hlow
      exact ⟨q, item, previous, hshards ▸ hq, hrest⟩
    · obtain ⟨htok, hequiv⟩ := named_at hat hlocation hregion (Nat.le_of_not_lt hlow)
        (hoffset ▸ hlt) (hregion ▸ hnamed tok e (hheld tok e he))
      subst htok
      exact hgone e he hequiv

namespace PathInv

/-- The log of a Region is not as long as a word can count. -/
lemma length_log (h : PathInv c slotCount ranges log s) {receipt : RegionReclaimReceipt}
    (hmem : receipt ∈ s.manager.reclaiming) : (log receipt.regionId).length < 2 ^ 64 := by
  obtain ⟨region, hregion, -⟩ := h.linked.inv.reclaiming receipt hmem
  rw [(h.stored.content hregion).count_eq]
  exact (h.linked.inv.regions region (List.mem_of_getElem? hregion)).2.2.1

/-- A step of the scan that ends with one record. -/
lemma gotoNext (h : PathInv c slotCount ranges log s) (hphase : s.reclaimers[w]? = some phase)
    (hnot : ∀ scan scanned record, phase ≠ .offering scan scanned record)
    (hscan : phase.scan? = some scan) (hlink : ScanLink ranges log s scan) {record : ValueRecord}
    {location : PackedLocation}
    (hat : At (ValueRecord.bytes crc) (log scan.receipt.regionId) scan.cursor.offset record)
    (hlocation : PackedLocation.new scan.receipt.regionId scan.cursor.offset record.recordLen =
      .ok location) {index : RegionIndex} (hinv : IndexInv crc slotCount ranges index)
    (hforgets : Forgets s.index.cells index.cells (tokenOf ranges record.keyHash) location)
    {cursor : ScanCursor} (hquiet : scan.cursor.Quiet cursor) :
    Keeps c slotCount ranges log s ({ s with index }.setReclaimer w (.scanning { scan with
      cursor := cursor.advance (scan.cursor.offset + record.recordLen) })) := by
  refine h.gotoScan hphase hnot hscan rfl ?_ hinv hforgets.kept ?_
  · exact ⟨rfl, rfl, hquiet.records_eq⟩
  refine hlink.advance h.indexed.named hat hlocation (h.length_log (h.reclaims.receipts hphase
    (ReclaimPhase.receipt_of_scan hscan))) rfl hforgets.kept (fun e he hequiv => ?_) ⟨rfl, rfl, rfl⟩
    rfl ?_
  · rw [hforgets.gone e he] at hequiv
    cases hequiv
  · show Word.saturatingAdd 64 cursor.stats.recordsScanned 1 = _
    rw [hquiet.scanned_eq]

/-- A scan that has not come to the end of the prefix is at a record. -/
lemma scan_at (h : PathInv c slotCount ranges log s) (hphase : s.reclaimers[w]? = some phase)
    (hscan : phase.scan? = some scan) (hlink : ScanLink ranges log s scan)
    (hlt : scan.cursor.offset < scan.bytes.length) : ∃ record location,
      At (ValueRecord.bytes crc) (log scan.receipt.regionId) scan.cursor.offset record ∧
      PackedLocation.new scan.receipt.regionId scan.cursor.offset record.recordLen = .ok location ∧
      scanRecord crc scan.receipt scan.bytes scan.cursor.offset =
        .ok (reclaimRecord crc scan.cursor.offset record location) := by
  obtain ⟨hscannable, -, -⟩ := h.scannable
    (h.reclaims.receipts hphase (ReclaimPhase.receipt_of_scan hscan))
  obtain ⟨before, after, hlog, hbefore, -⟩ := hlink.boundary
  have hused := hscannable.used_eq
  have hle := hscannable.used_le
  cases after with
  | nil =>
    rw [hlink.bytes_eq, hlog, List.append_nil, ← hbefore] at hlt
    exact absurd hlt (Nat.lt_irrefl _)
  | cons record rest =>
    have hat : At (ValueRecord.bytes crc) (log scan.receipt.regionId) scan.cursor.offset
        record := by
      rw [hlog, hbefore]
      exact at_append_self
    obtain ⟨location, hlocation, hrun⟩ := scanRecord_of_at hat hscannable.region_le (by omega)
      (hscannable.generation_eq record hat.mem)
    exact ⟨record, location, hat, hlocation, hlink.bytes_eq ▸ hrun⟩

/-- **Reading.** The prefix of the Region is read. -/
lemma read (h : PathInv c slotCount ranges log s) {receipt : RegionReclaimReceipt}
    (hphase : s.reclaimers[w]? = some (.begun receipt)) {shardId : ℕ}
    (hshard : shardId < s.shards.length) (accepting : Bool) :
    Keeps c slotCount ranges log s (after (reclaimRead w shardId accepting receipt) s) := by
  have hmem := h.reclaims.receipts hphase rfl
  obtain ⟨hscannable, hslice, hlt⟩ := h.scannable hmem
  have hbase : reclaimAbsolute s.manager receipt =
      .ok (c.geometry.regionBase receipt.regionId) := by
    have hsize : s.manager.regionSize ≤ 2 ^ 25 := h.linked.inv.size_le
    have hlen : s.manager.regions.length ≤ maxPackedRegionCount := h.linked.inv.length_le
    have hmax : maxPackedRegionCount = 2 ^ 20 := by decide
    have harea : dataRegionAreaOffset = 4096 := by decide
    have hle : receipt.regionId * s.manager.regionSize ≤ 2 ^ 20 * 2 ^ 25 :=
      Nat.mul_le_mul (by omega) hsize
    rw [reclaimAbsolute, Word.checkedMul_of_lt (by omega), Option.bind_some,
      Word.checkedAdd_of_lt (by omega), h.linked.fits.size_eq]
    rfl
  have hrun : reclaimRead w shardId accepting receipt s = .ok () (s.setReclaimer w (.scanning
      ⟨shardId, receipt, text (ValueRecord.bytes crc) (log receipt.regionId),
        .start receipt accepting⟩)) := by
    rw [reclaimRead, get_bind, hbase]
    show (if (slice s.disk (c.geometry.regionBase receipt.regionId) receipt.usedOffset).length ≠
      receipt.usedOffset then _ else _ : PathM crc Unit) s = _
    rw [hslice, if_neg (not_not.2 hscannable.used_eq)]
    rfl
  rw [after_eq hrun]
  refine h.goto hphase h.indexed.inv (fun _ _ he => he) rfl (fun _ heq => by cases heq)
    (fun _ heq => by cases heq) ⟨hshard, rfl, ⟨[], log receipt.regionId, rfl, rfl, rfl⟩,
      fun _ _ _ _ hlt => absurd hlt (Nat.not_lt_zero _)⟩ ?_
    (h.reclaims.unreserved hphase fun _ _ _ heq => by cases heq)
  intro i p item previous scan _ _ _ hscan
  cases hscan

/-- **Classifying.** A record that is cold loses its mapping. At the end all records are counted. -/
lemma classify (hr : canonicalIndexPartitionRanges slotCount = .ok ranges)
    (h : PathInv c slotCount ranges log s) (hphase : s.reclaimers[w]? = some (.scanning scan)) :
    Keeps c slotCount ranges log s (after (reclaimClassify w scan) s) := by
  have hlink : ScanLink ranges log s scan := h.reclaims.link hphase
  by_cases hend : scan.bytes.length ≤ scan.cursor.offset
  · obtain ⟨hscannable, -, -⟩ := h.scannable (h.reclaims.receipts hphase rfl)
    obtain ⟨before, after', hlog, hbefore, hposition⟩ := hlink.boundary
    have hall : scan.cursor.stats.recordsScanned = scan.receipt.physicalRecordCount := by
      cases after' with
      | nil =>
        rw [← hscannable.count_eq, hlog, hposition, List.append_nil]
      | cons record rest =>
        have hmin := record.recordHeaderSize_le
        rw [hlink.bytes_eq, hlog, text_append, text_cons, List.length_append, List.length_append,
          ValueRecord.length_bytes] at hend
        omega
    have hrun : reclaimClassify w scan s = .ok () (s.setReclaimer w (.scanned scan)) := by
      rw [reclaimClassify, if_pos hend, if_neg (not_not.2 hall)]
      rfl
    rw [after_eq hrun]
    exact h.gotoScan hphase (fun _ _ _ heq => by cases heq) rfl rfl ⟨rfl, rfl, rfl⟩ h.indexed.inv
      (fun _ _ he => he) ⟨{ hlink with }, hend⟩
  · obtain ⟨record, location, hat, hlocation, hscan⟩ :=
      h.scan_at hphase rfl hlink (Nat.lt_of_not_le hend)
    obtain ⟨action, index, hrun, hinv, hsame, hforgets⟩ :=
      prepareReclaim_forgets hr h.indexed.inv record.keyHash location
    have hclassify : reclaimClassify w scan s = (match action with
        | .missing => setReclaim w (.scanning { scan with
            cursor := scan.cursor.advance (scan.cursor.offset + record.recordLen) })
        | .removed => setReclaim w (.scanning { scan with
            cursor := scan.cursor.removed.advance (scan.cursor.offset + record.recordLen) })
        | .reinsert => setReclaim w (.classified scan
            (reclaimRecord crc scan.cursor.offset record location)) : PathM crc Unit)
        { s with index } := by
      have hread : (reclaiming (.ok (reclaimRecord crc scan.cursor.offset record location)) :
          PathM crc ReclaimRecord) s = .ok _ s := rfl
      rw [reclaimClassify, if_neg hend, hscan, bind_ok hread]
      refine (onIndex_bind_ok hrun _).trans ?_
      cases action <;> rfl
    cases action with
    | missing =>
      rw [after_eq hclassify]
      exact h.gotoNext hphase (fun _ _ _ heq => by cases heq) rfl hlink hat hlocation hinv
        (hforgets (by decide)) ⟨rfl, rfl, rfl, rfl, rfl, rfl⟩
    | removed =>
      rw [after_eq hclassify]
      exact h.gotoNext hphase (fun _ _ _ heq => by cases heq) rfl hlink hat hlocation hinv
        (hforgets (by decide)) ⟨rfl, rfl, rfl, rfl, rfl, rfl⟩
    | reinsert =>
      rw [after_eq hclassify]
      have hheld : ∀ tok e, Holds index.cells tok e → Holds s.index.cells tok e :=
        fun tok e he => hsame rfl ▸ he
      exact h.gotoScan hphase (fun _ _ _ heq => by cases heq) rfl rfl ⟨rfl, rfl, rfl⟩ hinv hheld
        ⟨⟨hlink.shard_lt, hlink.bytes_eq, hlink.boundary,
          fun tok e he => hlink.covered tok e (hheld tok e he)⟩, record, location, hat, hlocation,
          rfl⟩

/-- **Dropping.** A hot record that is not reinserted loses its mapping. -/
lemma drop (hr : canonicalIndexPartitionRanges slotCount = .ok ranges)
    (h : PathInv c slotCount ranges log s) {scanned : ReclaimRecord}
    (hphase : s.reclaimers[w]? = some (.dropping scan scanned)) :
    Keeps c slotCount ranges log s (after (reclaimDrop w scan scanned) s) := by
  obtain ⟨hlink, record, location, hat, hlocation, rfl⟩ := h.reclaims.link hphase
  obtain ⟨removed, index, hrun, hinv, hforgets⟩ :=
    removeIfMatch_forgets hr h.indexed.inv record.keyHash location
  have hdrop : reclaimDrop w scan (reclaimRecord crc scan.cursor.offset record location) s =
      .ok () ({ s with index }.setReclaimer w (.scanning { scan with
        cursor := (if removed then scan.cursor.removed.skipped else scan.cursor.skipped).advance
          (scan.cursor.offset + record.recordLen) })) := by
    rw [reclaimDrop]
    exact (onIndex_bind_ok hrun _).trans (by cases removed <;> rfl)
  rw [after_eq hdrop]
  refine h.gotoNext hphase (fun _ _ _ heq => by cases heq) rfl hlink hat hlocation hinv hforgets ?_
  cases removed <;> exact ⟨rfl, rfl, rfl, rfl, rfl, rfl⟩

/-- A hot record is going to be dropped, with what the scan says of it. -/
lemma dropping (h : PathInv c slotCount ranges log s) {scanned : ReclaimRecord}
    (hphase : s.reclaimers[w]? = some (.classified scan scanned)) {cursor : ScanCursor}
    (hquiet : scan.cursor.Quiet cursor) :
    Keeps c slotCount ranges log s (s.setReclaimer w (.dropping { scan with cursor } scanned)) := by
  obtain ⟨hlink, record, location, hat, hlocation, hscanned⟩ := h.reclaims.link hphase
  have hoffset : cursor.offset = scan.cursor.offset := hquiet.offset_eq
  have hat' : ScannedAt crc log { scan with cursor } scanned := by
    refine ⟨record, location, ?_, ?_, ?_⟩
    · show At _ _ cursor.offset _
      rw [hoffset]
      exact hat
    · show PackedLocation.new _ cursor.offset _ = _
      rw [hoffset]
      exact hlocation
    · show _ = reclaimRecord crc cursor.offset record location
      rw [hoffset]
      exact hscanned
  refine h.gotoScan hphase (fun _ _ _ heq => by cases heq) rfl rfl ?_ h.indexed.inv
    (fun _ _ he => he) ⟨⟨hlink.shard_lt, hlink.bytes_eq, ?_, ?_⟩, hat'⟩
  · exact ⟨rfl, rfl, hquiet.records_eq⟩
  · show ∃ before after, _ ∧ cursor.offset = _ ∧ cursor.stats.recordsScanned = _
    rw [hoffset, hquiet.scanned_eq]
    exact hlink.boundary
  · intro tok e he hregion hlt
    exact hlink.covered tok e he hregion (hoffset ▸ hlt)

/-- **Offering.** A hot record is reserved on the shard of the scan, or it is dropped. -/
lemma offer (h : PathInv c slotCount ranges log s) {scanned : ReclaimRecord}
    (hphase : s.reclaimers[w]? = some (.classified scan scanned)) (available : Bool) :
    Keeps c slotCount ranges log s
        (after (reclaimOffer c.chunkBytes w scan scanned available) s) ∨
      (after (reclaimOffer c.chunkBytes w scan scanned available) s).healthy = false ∧
        s.manager.nextSeqno = u64Max := by
  obtain ⟨hlink, record, location, hat, hlocation, rfl⟩ := h.reclaims.link hphase
  have hmem := h.reclaims.receipts hphase rfl
  obtain ⟨hscannable, -, hlt⟩ := h.scannable hmem
  have hused := hscannable.used_eq
  have hle := hscannable.used_le
  obtain ⟨rewriteBytes, hrequired, hrewrite, hdecision⟩ :=
    reinsertDecision_of_at hat (by omega) scan.cursor location
  rw [← hlink.bytes_eq] at hdecision
  have hrun : ∀ {decision : ReinsertDecision crc},
      reinsertDecision crc scan.bytes scan.cursor (reclaimRecord crc scan.cursor.offset record
        location) = .ok decision →
      (reclaiming (reinsertDecision crc scan.bytes scan.cursor (reclaimRecord crc scan.cursor.offset
        record location)) : PathM crc (ReinsertDecision crc)) s = .ok decision s := by
    intro decision heq
    rw [heq]
    rfl
  split_ifs at hdecision with haccepting hbudget
  · have hoffer : IsOffer crc scan.receipt (log scan.receipt.regionId)
        ⟨record.keyHash, location, record.seqno.toNat, rewriteBytes,
          .new crc record.key record.value⟩
        scan.cursor.offset record := ⟨hat, rfl, hlocation, rfl, hrequired, rfl⟩
    cases available with
    | false =>
      left
      have hoffered : reclaimOffer c.chunkBytes w scan (reclaimRecord crc scan.cursor.offset record
          location) false s = .ok () (s.setReclaimer w (.dropping
            { scan with cursor := scan.cursor.refused }
            (reclaimRecord crc scan.cursor.offset record location))) := by
        rw [reclaimOffer, bind_ok (hrun hdecision)]
        rfl
      rw [after_eq hoffered]
      exact h.dropping hphase ⟨rfl, rfl, rfl, rfl, rfl, rfl⟩
    | true =>
      obtain ⟨region, hregion, -⟩ := h.linked.inv.reclaiming scan.receipt hmem
      have hchunk := (h.stored.content hregion).recordLen_le record hat.mem
      have hvalid : (reinsertRequest ⟨record.keyHash, location, record.seqno.toNat, rewriteBytes,
          .new crc record.key record.value⟩ : StageRequest crc).Valid := by
        refine ⟨hrequired, fun logicalSeqno previous heq => ?_⟩
        cases heq
        refine ⟨fun hzero => record.seqno_ne ?_, record.seqno.isLt,
          PackedLocation.raw_lt_of_new hlocation⟩
        exact BitVec.eq_of_toNat_eq hzero
      obtain ⟨p, hp⟩ : ∃ p, s.shards[scan.shardId]? = some p :=
        ⟨_, List.getElem?_eq_getElem hlink.shard_lt⟩
      obtain ⟨shard, regionId, region', fill, job, v⟩ := h.linked.view hp
      have v' : ∀ phase', ShardView c (s.setReclaimer w phase') scan.shardId shard regionId region'
          p fill job := fun phase' => ⟨v.path_eq, v.fits, v.inv, v.space, v.shardAt, v.link⟩
      rcases ShardLink.stageReserve v (some w) hvalid (hrewrite.trans hchunk) with
        ⟨result, s', hstage, hmoved⟩ | ⟨receipt, s', hstage, -, hmoved⟩ |
        ⟨hnext, e, s', -, hstage⟩
      · left
        have hoffered : reclaimOffer c.chunkBytes w scan (reclaimRecord crc scan.cursor.offset
            record location) true s = .ok () (s'.setReclaimer w (.dropping
              { scan with cursor := scan.cursor.refused }
              (reclaimRecord crc scan.cursor.offset record location))) := by
          rw [reclaimOffer, bind_ok (hrun hdecision)]
          exact bind_ok (orFail_ok hstage)
        rw [after_eq hoffered]
        have hrefused : scan.cursor.Quiet scan.cursor.refused := ⟨rfl, rfl, rfl, rfl, rfl, rfl⟩
        refine (h.dropping hphase hrefused).next h fun h₁ => ?_
        exact (h₁.quiet (v' _) (hmoved.setReclaimer _ _)
          ⟨⟨⟨rfl, rfl, rfl, fun _ _ hdrain => hdrain⟩, fun _ heq => heq, fun _ _ heq => heq⟩, rfl⟩)
      · left
        have hoffered : reclaimOffer c.chunkBytes w scan (reclaimRecord crc scan.cursor.offset
            record location) true s = .ok () (s'.setReclaimer w (.offering scan
              (reclaimRecord crc scan.cursor.offset record location) ⟨record.keyHash, location,
                record.seqno.toNat, rewriteBytes, .new crc record.key record.value⟩)) := by
          rw [reclaimOffer, bind_ok (hrun hdecision)]
          exact bind_ok (orFail_ok hstage)
        rw [after_eq hoffered]
        -- the worker offers the record first, and then it is reserved
        have hoffering : Keeps c slotCount ranges log s (s.setReclaimer w (.offering scan
            (reclaimRecord crc scan.cursor.offset record location) ⟨record.keyHash, location,
              record.seqno.toNat, rewriteBytes, .new crc record.key record.value⟩)) :=
          h.gotoScan hphase (fun _ _ _ heq => by cases heq) rfl rfl ⟨rfl, rfl, rfl⟩ h.indexed.inv
            (fun _ _ he => he) ⟨{ hlink with }, record, hoffer, rfl⟩
        refine hoffering.next h fun h₁ => ?_
        refine (h₁.reserve (v' _) (hmoved.setReclaimer _ _) ⟨scan,
          reclaimRecord crc scan.cursor.offset record location, _, ?_, rfl, rfl⟩)
        exact List.getElem?_set_self (List.getElem?_eq_some_iff.1 hphase).1
      · right
        have hoffered : reclaimOffer c.chunkBytes w scan (reclaimRecord crc scan.cursor.offset
            record location) true s = .error e { s' with healthy := false } := by
          rw [reclaimOffer, bind_ok (hrun hdecision)]
          dsimp only
          rw [if_pos rfl, bind_apply, orFail_error hstage]
        rw [after, hoffered]
        exact ⟨rfl, hnext⟩
  · left
    have hoffered : reclaimOffer c.chunkBytes w scan (reclaimRecord crc scan.cursor.offset record
        location) available s = .ok () (s.setReclaimer w (.dropping
          { scan with cursor := scan.cursor.beyondBudget }
          (reclaimRecord crc scan.cursor.offset record location))) := by
      rw [reclaimOffer, bind_ok (hrun hdecision)]
      rfl
    rw [after_eq hoffered]
    exact h.dropping hphase ⟨rfl, rfl, rfl, rfl, rfl, rfl⟩
  · left
    have hoffered : reclaimOffer c.chunkBytes w scan (reclaimRecord crc scan.cursor.offset record
        location) available s = .ok () (s.setReclaimer w (.dropping scan
          (reclaimRecord crc scan.cursor.offset record location))) := by
      rw [reclaimOffer, bind_ok (hrun hdecision)]
      rfl
    rw [after_eq hoffered]
    exact h.dropping hphase ⟨rfl, rfl, rfl, rfl, rfl, rfl⟩

/-- **Staging a reinsertion.** The worker that has offered the record goes on. -/
lemma accepted (h : PathInv c slotCount ranges log s) {i : ℕ} {p : ShardPath crc}
    {shard : AppendShardState} {regionId : ℕ} {region : RegionDesc} {fill job : List ValueRecord}
    (v : ShardView c s i shard regionId region p fill job) {request : StageRequest crc}
    {receipt : RegionAppendReservation} {start finish : ℕ} {buffer : List UInt8}
    (hgate : p.gate = .encoding (some w) request receipt start finish buffer) :
    Keeps c slotCount ranges log s (after (DataPath.stageFinish c.regionSize i (some w) request
      receipt start finish buffer) s) := by
  obtain ⟨p', hrun, hmoved, hpending, hworker, hfree, -, hcompleted⟩ :=
    ShardLink.stageFinish v hgate
  have hreserved : p.reserved? = some (request, receipt) := by
    rw [ShardPath.reserved?, hgate]
  have hby := h.reclaims.reserved v.path_eq hreserved
  rw [ShardPath.owner?, hgate] at hby
  obtain ⟨scan, scanned, record, hphase, hid, rfl⟩ := hby
  obtain ⟨h₁, hlater, hhealthy⟩ := h.stage v hgate hmoved hpending hworker hfree hcompleted
  have hphase₁ : (s.setShard i p').reclaimers[w]? = some (.offering scan scanned record) := hphase
  have haccept : accept w (s.setShard i p') = .ok () ((s.setShard i p').setReclaimer w (.scanning
      { scan with
        cursor := (scan.cursor.accepted record.recordBytes).advance scanned.recordEnd })) := by
    rw [accept, get_bind, hphase₁]
    rfl
  rw [after_eq (hrun.trans haccept)]
  have hp' : (s.setShard i p').shards[i]? = some p' := shards_setShard v.path_eq p'
  refine Keeps.next ⟨log, h₁, hlater, hhealthy⟩ h fun h₂ => ?_
  obtain ⟨hlink, valueRecord, hoffer, hend⟩ := h₂.reclaims.link hphase₁
  refine h₂.goto hphase₁ h₂.indexed.inv (fun _ _ he => he) rfl (fun _ heq => by cases heq)
    (fun _ heq => by cases heq) ?_ ?_ ?_
  · refine hlink.advance h₂.indexed.named hoffer.at_offset hoffer.previous_eq
      (h₂.length_log (h₂.reclaims.receipts hphase₁ rfl)) rfl (fun _ _ he => he)
      (fun e he hequiv => ?_) ⟨rfl, rfl, rfl⟩ hend rfl
    -- the mapping is covered by the record that is pending now
    refine ⟨p', (record.hash, receipt.seqno, some record.previousLocation), record.previousLocation,
      ?_, ?_, rfl, ?_, hequiv⟩
    · rw [hid]
      exact hp'
    · rw [hpending]
      exact List.mem_append_right _ (List.mem_singleton_self _)
    · show tokenOf ranges record.hash = _
      rw [hoffer.hash_eq]
  · intro j q item previous other _ _ _ hother _ _ _
    cases hother
    exact ⟨_, rfl, rfl, rfl, fun hzero => absurd hzero (saturatingAdd_one_ne _)⟩
  · intro j q request' receipt' hq hreserved' howner
    have hby := h₂.reclaims.reserved hq hreserved'
    rw [howner] at hby
    obtain ⟨scan', scanned', record', hphase', hid', -⟩ := hby
    cases hphase₁.symm.trans hphase'
    obtain rfl := hid'.symm.trans hid
    obtain rfl := Option.some.inj (hp'.symm.trans hq)
    rw [ShardPath.reserved?, hfree] at hreserved'
    cases hreserved'

/-- When nothing is pending that leads into the Region, and the scan is at its end, then nothing in
the index leads into the Region. -/
lemma emptied (h : PathInv c slotCount ranges log s) (hphase : s.reclaimers[w]? = some phase)
    (hscan : phase.scan? = some scan) (hlink : ScanLink ranges log s scan)
    (hend : scan.bytes.length ≤ scan.cursor.offset)
    (hnot : ∀ scan scanned record, phase ≠ .offering scan scanned record)
    (hdone : ∀ {p : ShardPath crc} {item : PendingRecord}, s.shards[scan.shardId]? = some p →
      item ∈ p.pending → ¬ LeadsInto scan.receipt.regionId item) :
    Keeps c slotCount ranges log s (s.setReclaimer w (.emptied scan.receipt)) := by
  refine h.goto hphase h.indexed.inv (fun _ _ he => he)
    (ReclaimPhase.receipt_of_scan hscan).symm (ReclaimPhase.ne_cleared_of_scan hscan)
    (fun _ heq => by cases heq) ?_ ?_ (h.reclaims.unreserved hphase hnot)
  · intro tok e he hregion
    obtain ⟨record, hat, -⟩ := h.indexed.named tok e he
    rw [hregion] at hat
    have hle := hat.le_length
    have hmin := record.recordHeaderSize_le
    rw [ValueRecord.length_bytes] at hle
    rw [hlink.bytes_eq] at hend
    obtain ⟨p, item, previous, hp, hitem, hprevious, -, hequiv⟩ :=
      hlink.covered tok e he hregion (by omega)
    exact hdone hp hitem ⟨previous, hprevious,
      (PackedLocation.indexEquivalent_iff.1 hequiv).1.symm.trans hregion⟩
  · intro i p item previous other hp hitem hprevious hother hid hregion _
    obtain rfl := Option.some.inj (hscan.symm.trans hother)
    subst hid
    exact absurd ⟨previous, hprevious, hregion.symm⟩ (hdone hp hitem)

/-- **Draining.** When records have been reinserted, their shard is drained. -/
lemma scanned (h : PathInv c slotCount ranges log s)
    (hphase : s.reclaimers[w]? = some (.scanned scan)) :
    Keeps c slotCount ranges log s (after (reclaimScanned w scan) s) ∨
      (after (reclaimScanned w scan) s).healthy = false ∧
        ∃ p ∈ s.shards, 2 ^ 64 ≤ p.drainRequested + 1 := by
  obtain ⟨hlink, hend⟩ := h.reclaims.link hphase
  by_cases hzero : scan.cursor.stats.reinsertRecords = 0
  · left
    have hrun : reclaimScanned w scan s = .ok () (s.setReclaimer w (.emptied scan.receipt)) := by
      rw [reclaimScanned, if_neg (not_not.2 hzero)]
      rfl
    rw [after_eq hrun]
    refine h.emptied hphase rfl hlink hend (fun _ _ _ heq => by cases heq)
      fun {p item} hp hitem => ?_
    -- no record has been accepted, so none is pending
    rintro ⟨previous, hprevious, hregion⟩
    obtain ⟨w', other, scan', hother, hscan', -, hregion', hnone⟩ :=
      h.reclaims.pending hp hitem hprevious
    have hw := h.reclaims.distinct hother (ReclaimPhase.receipt_of_scan hscan') hphase rfl
      (hregion'.trans hregion)
    subst hw
    cases hphase.symm.trans hother
    cases hscan'
    obtain ⟨scanned, record, hoffering⟩ := hnone hzero
    cases hoffering
  · obtain ⟨p, hp⟩ : ∃ p, s.shards[scan.shardId]? = some p :=
      ⟨_, List.getElem?_eq_getElem hlink.shard_lt⟩
    by_cases hlt : p.drainRequested + 1 < 2 ^ 64
    · left
      obtain ⟨shard, regionId, region, fill, job, v⟩ := h.linked.view hp
      obtain ⟨p', s', hdrain, hmoved, hframe, -, hdrained⟩ := ShardLink.drainRequest v hlt
      have hrun : reclaimScanned w scan s =
          .ok () (s'.setReclaimer w (.draining scan (p.drainRequested + 1))) := by
        rw [reclaimScanned, if_pos hzero, bind_ok (orFail_ok hdrain)]
        rfl
      rw [after_eq hrun]
      have hkeeps := h.quiet v hmoved hframe
      obtain ⟨m', shard', region', fill', job', -, -, -, -, rfl⟩ := hmoved.moved
      refine hkeeps.next h fun h₁ => ?_
      have hphase₁ : ({ s with manager := m' }.setShard scan.shardId p').reclaimers[w]? =
          some (.scanned scan) := hphase
      obtain ⟨hlink₁, hend₁⟩ := h₁.reclaims.link hphase₁
      refine h₁.gotoScan hphase₁ (fun _ _ _ heq => by cases heq) rfl rfl ⟨rfl, rfl, rfl⟩
        h₁.indexed.inv (fun _ _ he => he) ⟨{ hlink₁ with }, hend₁, fun q hq => ?_⟩
      have hq' : (s.shards.set scan.shardId p')[scan.shardId]? = some q := hq
      rcases getElem?_set_cases hq' with ⟨-, rfl⟩ | ⟨hne, -⟩
      · exact hdrained _
      · exact absurd rfl hne
    · right
      have hdrain : DataPath.drainRequest scan.shardId s =
          .error (.io (ioError .other "shard drain generation exhausted")) s := by
        rw [DataPath.drainRequest, shard_bind hp, Word.checkedAdd, if_neg hlt]
        rfl
      refine ⟨?_, p, List.mem_of_getElem? hp, Nat.le_of_not_lt hlt⟩
      rw [after, reclaimScanned, if_pos hzero, bind_apply, orFail_error hdrain]

/-- **Waiting.** When the shard is drained, nothing leads into the Region. -/
lemma wait (h : PathInv c slotCount ranges log s) {generation : ℕ}
    (hphase : s.reclaimers[w]? = some (.draining scan generation)) :
    Keeps c slotCount ranges log s (after (reclaimWait w scan generation) s) := by
  obtain ⟨hlink, hend, hdrain⟩ := h.reclaims.link hphase
  obtain ⟨p, hp⟩ : ∃ p, s.shards[scan.shardId]? = some p :=
    ⟨_, List.getElem?_eq_getElem hlink.shard_lt⟩
  by_cases hle : generation ≤ p.drainCompleted
  · have hrun : reclaimWait w scan generation s =
        .ok () (s.setReclaimer w (.emptied scan.receipt)) := by
      rw [reclaimWait, shard_bind hp, if_pos hle]
      rfl
    rw [after_eq hrun]
    refine h.emptied hphase rfl hlink hend (fun _ _ _ heq => by cases heq)
      fun {q item} hq hitem => ?_
    obtain rfl := Option.some.inj (hp.symm.trans hq)
    exact (hdrain p hp).completed hle item hitem
  · have hrun : reclaimWait w scan generation s = .ok () s := by
      rw [reclaimWait, shard_bind hp, if_neg hle]
      rfl
    rw [after_eq hrun]
    exact ⟨log, h, .of_same le_rfl (.of_regions rfl rfl), rfl⟩

/-- **Beginning.** The Region that was sealed first is reclaimed, if Regions run low. -/
lemma begin (h : PathInv c slotCount ranges log s) (hphase : s.reclaimers[w]? = some .idle) :
    Keeps c slotCount ranges log s (after (reclaimBegin w) s) := by
  have hinv := h.linked.inv
  cases hneeded : s.manager.reclaimNeeded with
  | false =>
    have hnone : RegionManager.beginReclaim s.manager = .ok none s.manager := by
      rw [RegionManager.beginReclaim, get_bind, if_neg (by rw [hneeded]; decide)]
      rfl
    have hrun : reclaimBegin w s = .ok () s := by
      rw [reclaimBegin, bind_ok (manage_ok hnone)]
      rfl
    rw [after_eq hrun]
    exact ⟨log, h, .of_same le_rfl (.of_regions rfl rfl), rfl⟩
  | true =>
    obtain ⟨-, hne, -⟩ := hinv.reclaimNeeded_iff.1 hneeded
    obtain ⟨id, rest, hsealed⟩ := List.exists_cons_of_ne_nil hne
    obtain ⟨region, hregion, hstate, hreserved⟩ := hinv.sealed id
      (List.mem_append_left _ (hsealed ▸ List.mem_cons_self))
    let receipt : RegionReclaimReceipt :=
      ⟨id, region.createdSeqno, region.completedUsed, region.physicalRecordCount⟩
    let m' : RegionManager := { s.manager with
      sealedRegions := rest
      reclaiming := s.manager.reclaiming ++ [receipt] }
    have hsome : RegionManager.beginReclaim s.manager = .ok (some receipt) m' := by
      simp only [RegionManager.beginReclaim, rejectIf_bind_eq_ok, okOr_bind_eq_ok, get_bind,
        set_bind,
        modify_bind, pure_apply, hneeded, if_true, hsealed, List.head?_cons, List.tail_cons]
      exact ⟨id, rfl, region, hregion, by simp [hstate, hreserved], rfl⟩
    have hrun : reclaimBegin w s =
        .ok () ({ s with manager := m' }.setReclaimer w (.begun receipt)) := by
      rw [reclaimBegin, bind_ok (manage_ok hsome)]
      rfl
    rw [after_eq hrun]
    have hstep : ManagerStep s.manager [.reclaiming receipt] m' :=
      .reclaiming hneeded hsealed hregion
    have hgrown : ∀ {other : RegionReclaimReceipt}, other ∈ s.manager.reclaiming →
        other ∈ m'.reclaiming := fun hother => List.mem_append_left _ hother
    refine ⟨log, ⟨?_, { h.stored with }, { h.indexed with }, h.generated.moved hphase
      (fun _ heq => by cases heq) (fun _ heq => by cases heq) rfl rfl rfl rfl, ?_⟩,
      ⟨le_rfl, fun hregion hregion' => .inl ⟨?_, List.prefix_rfl⟩⟩, rfl⟩
    · exact { h.linked with
        fits := { h.linked.fits with }
        inv := hstep.inv hinv
        space := h.linked.space.step hinv hstep fun r hr => by simp at hr
        link := fun hq hat => h.linked.link hq ⟨hat.shard_eq, hat.active_eq, hat.region_eq⟩ }
    · refine h.reclaims.moved hphase rfl rfl (fun _ _ he => he)
        (fun {w' other receipt'} hne' hother hreceipt => ?_)
        (fun receipt' hreceipt => ?_) trivial ?_
        (h.reclaims.unreserved hphase fun _ _ _ heq => by cases heq)
      · have hmem := h.reclaims.receipts hother hreceipt
        refine ⟨hgrown hmem, rfl, fun receipt'' hreceipt'' heq => ?_⟩
        cases hreceipt''
        -- a Region does not stand in two queues
        obtain ⟨position, hposition⟩ := List.mem_iff_getElem?.1 hmem
        refine (RegionManager.reclaiming_disjoint hinv.nodup hposition).2.2.1 ?_
        rw [heq, hsealed]
        exact List.mem_append_left _ List.mem_cons_self
      · cases hreceipt
        exact List.mem_append_right _ (List.mem_singleton_self _)
      · intro i p item previous scan _ _ _ hscan
        cases hscan
    · exact congrArg _ (Option.some.inj (hregion'.symm.trans hregion))

/-- **Clearing.** Readers of the Region see no generation any more. -/
lemma clear (h : PathInv c slotCount ranges log s) {receipt : RegionReclaimReceipt}
    (hphase : s.reclaimers[w]? = some (.emptied receipt)) :
    Keeps c slotCount ranges log s (after (reclaimClear w receipt) s) := by
  have hmem := h.reclaims.receipts hphase rfl
  have hlt : receipt.regionId < s.generations.length :=
    h.linked.length_generations ▸ (h.scannable hmem).2.2
  have hrun : reclaimClear w receipt s = .ok () ({ s with
      generations := s.generations.set receipt.regionId 0 }.setReclaimer w (.cleared receipt)) := by
    rw [reclaimClear, get_bind, if_pos hlt]
    rfl
  rw [after_eq hrun]
  have hw : w < s.reclaimers.length := (List.getElem?_eq_some_iff.1 hphase).1
  refine ⟨log, ⟨{ h.linked with
    length_generations := List.length_set.trans h.linked.length_generations }, { h.stored with },
    { h.indexed with }, ⟨?_, ?_, ?_⟩, ?_⟩, .of_same le_rfl (.of_regions rfl rfl), rfl⟩
  · intro id region g hregion hg
    rcases getElem?_set_cases hg with ⟨-, rfl⟩ | ⟨-, hg⟩
    · exact .inl rfl
    · exact h.generated.eq hregion hg
  · intro id region hregion
    by_cases hid : id = receipt.regionId
    · exact .inr (.inr ⟨w, receipt, List.getElem?_set_self hw, hid.symm⟩)
    · rcases h.generated.stored hregion with hg | hactivating | ⟨w', cleared, hcleared, hregionId⟩
      · exact .inl ((List.getElem?_set_ne (Ne.symm hid)).trans hg)
      · exact .inr (.inl hactivating)
      · have hne : w ≠ w' := by
          rintro rfl
          cases hphase.symm.trans hcleared
        exact .inr (.inr ⟨w', cleared, (List.getElem?_set_ne hne).trans hcleared, hregionId⟩)
  · intro w' cleared hcleared
    rcases getElem?_set_cases hcleared with ⟨-, heq⟩ | ⟨-, hcleared⟩
    · cases heq
      exact List.getElem?_set_self hlt
    · have hg := h.generated.cleared hcleared
      by_cases hid : receipt.regionId = cleared.regionId
      · show (s.generations.set receipt.regionId 0)[cleared.regionId]? = _
        rw [← hid]
        exact List.getElem?_set_self hlt
      · exact (List.getElem?_set_ne hid).trans hg
  · refine h.reclaims.moved hphase rfl rfl (fun _ _ he => he)
      (fun {w' other receipt'} hne' hother hreceipt => ?_) (fun receipt' hreceipt => ?_)
      (h.reclaims.link hphase) ?_ (h.reclaims.unreserved hphase fun _ _ _ heq => by cases heq)
    · refine ⟨h.reclaims.receipts hother hreceipt, rfl, fun receipt'' hreceipt'' heq => ?_⟩
      cases hreceipt''
      exact hne' (h.reclaims.distinct hother hreceipt hphase rfl heq)
    · cases hreceipt
      exact hmem
    · intro i p item previous scan _ _ _ hscan
      cases hscan

/-- **Finishing.** The Region is free, and its log is empty. -/
lemma finish (h : PathInv c slotCount ranges log s) {receipt : RegionReclaimReceipt}
    (hphase : s.reclaimers[w]? = some (.cleared receipt)) :
    Keeps c slotCount ranges log s (after (reclaimFinish w receipt) s) := by
  have hinv := h.linked.inv
  have hmem := h.reclaims.receipts hphase rfl
  obtain ⟨position, hposition, hfinish⟩ := finishReclaim_run hinv hmem
  obtain ⟨region, hregion, -, -⟩ := hinv.reclaiming receipt hmem
  have hempty : ∀ tok e, Holds s.index.cells tok e → e.location.regionId ≠ receipt.regionId :=
    h.reclaims.link hphase
  obtain ⟨hinactive, -, -, -⟩ := RegionManager.reclaiming_disjoint hinv.nodup hposition
  have hrun : reclaimFinish w receipt s = .ok () ({ s with
      manager := s.manager.reclaimed position receipt }.setReclaimer w .idle) := by
    rw [reclaimFinish, bind_ok (manage_ok hfinish)]
    rfl
  rw [after_eq hrun]
  have hstep : ManagerStep s.manager [.reclaimed receipt] (s.manager.reclaimed position receipt) :=
    .reclaimed hposition hregion
  have hlt : receipt.regionId < s.manager.regions.length := (List.getElem?_eq_some_iff.1 hregion).1
  have hlen : (s.manager.reclaimed position receipt).regions.length = s.manager.regions.length :=
    List.length_set
  have hregions : ∀ {id : ℕ} {desc : RegionDesc},
      (s.manager.reclaimed position receipt).regions[id]? = some desc →
      id = receipt.regionId ∧ desc = .empty .free 0 ∨
      id ≠ receipt.regionId ∧ s.manager.regions[id]? = some desc :=
    fun hdesc => getElem?_set_cases hdesc
  let log' : ℕ → List ValueRecord := Function.update log receipt.regionId []
  have hself : log' receipt.regionId = [] := Function.update_self _ _ _
  have hother : ∀ {id : ℕ}, id ≠ receipt.regionId → log' id = log id := fun hne =>
    Function.update_of_ne hne _ _
  refine ⟨log', ⟨?_, ⟨h.stored.length_disk, fun {id desc} hdesc => ?_, fun {id} hnone => ?_,
    h.stored.written⟩, ⟨h.indexed.inv, fun tok e he => ?_,
    fun {j q job rest} hq hpublishing item hitem => ?_⟩, ⟨?_, ?_, ?_⟩, ?_⟩, ⟨le_rfl, ?_⟩, rfl⟩
  · exact { h.linked with
      fits := { h.linked.fits with count_eq := hlen.trans h.linked.fits.count_eq }
      inv := hstep.inv hinv
      space := h.linked.space.step hinv hstep fun r hr => by simp at hr
      length_generations := h.linked.length_generations.trans hlen.symm
      link := fun hq hat => h.linked.link hq (hat.of_reclaimed hinv.nodup hposition)
      selected := fun hq hselected => by
        have hhead := h.linked.selected hq hselected
        show (s.manager.freeRegions ++ [receipt.regionId]).head? = _
        rw [List.head?_append, hhead]
        rfl }
  · rcases hregions hdesc with ⟨rfl, rfl⟩ | ⟨hne, hdesc⟩
    · rw [hself]
      exact ⟨rfl, rfl, fun _ hrecord => absurd hrecord List.not_mem_nil,
        fun _ hrecord => absurd hrecord List.not_mem_nil⟩
    · rw [hother hne]
      exact h.stored.content hdesc
  · by_cases hid : id = receipt.regionId
    · rw [hid, hself]
    · rw [hother hid]
      refine h.stored.outside ?_
      rw [List.getElem?_eq_none_iff] at hnone ⊢
      exact hlen ▸ hnone
  · rw [hother (hempty tok e he)]
    exact h.indexed.named tok e he
  · -- what is published lies in the Region of an append shard
    obtain ⟨shard, regionId, region', fill, records, v⟩ := h.linked.view hq
    obtain ⟨-, -, -, hjob⟩ := v.link.taken job (by rw [hpublishing]; rfl)
    have hne : job.span.regionId ≠ receipt.regionId := fun heq =>
      hinactive (heq ▸ hjob.region_eq ▸ List.mem_of_getElem? v.shardAt.active_eq)
    rw [hother hne]
    exact h.indexed.publishing hq hpublishing item hitem
  · intro id desc g hdesc hg
    rcases hregions hdesc with ⟨rfl, rfl⟩ | ⟨-, hdesc⟩
    · have hzero := h.generated.cleared hphase
      exact .inl (Option.some.inj (hg.symm.trans hzero))
    · exact h.generated.eq hdesc hg
  · intro id desc hdesc
    rcases hregions hdesc with ⟨rfl, rfl⟩ | ⟨hid, hdesc⟩
    · exact .inl (h.generated.cleared hphase)
    · rcases h.generated.stored hdesc with hg | hactivating | ⟨w', cleared, hcleared, hregionId⟩
      · exact .inl hg
      · exact .inr (.inl hactivating)
      · have hne : w ≠ w' := by
          rintro rfl
          cases hphase.symm.trans hcleared
          exact hid hregionId.symm
        exact .inr (.inr ⟨w', cleared, (List.getElem?_set_ne hne).trans hcleared, hregionId⟩)
  · intro w' cleared hcleared
    rcases getElem?_set_cases hcleared with ⟨-, heq⟩ | ⟨-, hcleared⟩
    · cases heq
    · exact h.generated.cleared hcleared
  · refine h.reclaims.moved hphase rfl rfl (fun _ _ he => he)
      (fun {w' other receipt'} hne' hother' hreceipt => ?_)
      (fun receipt' hreceipt => by cases hreceipt)
      trivial ?_ (h.reclaims.unreserved hphase fun _ _ _ heq => by cases heq)
    · have hne : receipt'.regionId ≠ receipt.regionId := fun heq =>
        hne' (h.reclaims.distinct hother' hreceipt hphase rfl heq)
      refine ⟨?_, hother hne, fun receipt'' hreceipt'' => by cases hreceipt''⟩
      have hmem' := (Queue.perm_swapRemove hposition).mem_iff.1
        (h.reclaims.receipts hother' hreceipt)
      rcases List.mem_cons.1 hmem' with rfl | hmem'
      · exact absurd rfl hne
      · exact hmem'
    · intro i p item previous scan _ _ _ hscan
      cases hscan
  · intro id desc desc' hdesc hdesc'
    rcases hregions hdesc' with ⟨rfl, rfl⟩ | ⟨hne, hdesc'⟩
    · exact .inr (.inl rfl)
    · obtain rfl := Option.some.inj (hdesc.symm.trans hdesc')
      exact .inl ⟨rfl, by rw [hother hne]⟩

end PathInv

end Moves

end Cache2
