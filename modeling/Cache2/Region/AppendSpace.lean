import Cache2.Lib.Tiling
import Cache2.Region.Freshness

set_option relaxedAutoImplicit false
set_option autoImplicit false

/-!
# Append space

The bytes of a generation of a Region are given out once. The history keeps the log of every
generation: the bytes reserved, the records staged, the spans submitted and completed. The
reservations of a log tile the Region up to its reserved mark, the completed spans tile its
completed prefix, and the submitted spans are the completed ones with the outstanding span at their
end. Together with the shard's invariant this says where each piece of outstanding work lies.

## Main definitions

* `Cache2.generationLog` — the log of a generation; `Cache2.reservedBytes`, `Cache2.stagedRecords`,
  `Cache2.submittedSpans`, `Cache2.completedSpans` — what it says.
* `Cache2.ShardLedger`, `Cache2.Ledger` — how the logs and the manager agree.
* `Cache2.ManagerOp.Outstanding` — an operation presents an outstanding receipt.

## Main results

* `Cache2.ShardStep.ledger` — a step of a shard keeps its log and its state in agreement.
* `Cache2.regionManager_appendSpace` — append space is safe.
-/

namespace Cache2

open Loop Tiling

/-! ## The log of a generation -/

/-- The Region and the generation that an event of the append path is about. -/
def ManagerEvent.subject : ManagerEvent → Option (ℕ × ℕ)
  | .reserved receipt | .staged receipt => some (receipt.regionId, receipt.regionCreatedSeqno)
  | .padded generation receipt => some (receipt.regionId, generation)
  | .submitted generation _ span | .completed generation span => some (span.regionId, generation)
  | _ => none

/-- The greatest number of the records that an event of the append path is about. -/
def ManagerEvent.maxSeqno : ManagerEvent → ℕ
  | .reserved receipt | .staged receipt => receipt.seqno
  | .padded _ receipt => receipt.maxSeqno
  | .submitted _ _ span | .completed _ span => span.maxSeqno
  | _ => 0

/-- The bytes that an event reserves. -/
def ManagerEvent.bytes : ManagerEvent → Option (ℕ × ℕ)
  | .reserved receipt => some (receipt.offset, receipt.offset + receipt.recordBytes)
  | .padded _ receipt => some (receipt.unpaddedEndOffset, receipt.paddedEndOffset)
  | _ => none

/-- The record that an event stages. -/
def ManagerEvent.record : ManagerEvent → Option RegionAppendReservation
  | .staged receipt => some receipt
  | _ => none

/-- The span that an event submits. -/
def ManagerEvent.submittedSpan : ManagerEvent → Option RegionWriteSpan
  | .submitted _ _ span => some span
  | _ => none

/-- The span that an event completes. -/
def ManagerEvent.completedSpan : ManagerEvent → Option RegionWriteSpan
  | .completed _ span => some span
  | _ => none

/-- The events about a generation of a Region. -/
def generationLog (history : List ManagerEvent) (regionId generation : ℕ) : List ManagerEvent :=
  history.filter fun event => event.subject = some (regionId, generation)

/-- The bytes that a log reserves, in order. -/
def reservedBytes (log : List ManagerEvent) : List (ℕ × ℕ) := log.filterMap ManagerEvent.bytes

/-- The records that a log stages, in order. -/
def stagedRecords (log : List ManagerEvent) : List RegionAppendReservation :=
  log.filterMap ManagerEvent.record

/-- The spans that a log submits, in order. -/
def submittedSpans (log : List ManagerEvent) : List RegionWriteSpan :=
  log.filterMap ManagerEvent.submittedSpan

/-- The spans that a log completes, in order. -/
def completedSpans (log : List ManagerEvent) : List RegionWriteSpan :=
  log.filterMap ManagerEvent.completedSpan

/-- The bytes of a span. -/
def RegionWriteSpan.bounds (span : RegionWriteSpan) : ℕ × ℕ := (span.startOffset, span.endOffset)

/-- How many records a log stages between two offsets. -/
def recordsIn (log : List ManagerEvent) (start finish : ℕ) : ℕ :=
  (stagedRecords log).countP fun r => start ≤ r.offset ∧ r.offset + r.recordBytes ≤ finish

section Log

variable {log : List ManagerEvent}

/-- An event of another kind does not show. -/
lemma filterMap_concat_none {α : Type} {f : ManagerEvent → Option α} {event : ManagerEvent}
    (h : f event = none) (log : List ManagerEvent) :
    (log ++ [event]).filterMap f = log.filterMap f := by
  rw [List.filterMap_append, List.filterMap_cons_none h]
  exact List.append_nil _

/-- An event of the right kind shows at the end. -/
lemma filterMap_concat_some {α : Type} {f : ManagerEvent → Option α} {event : ManagerEvent} {a : α}
    (h : f event = some a) (log : List ManagerEvent) :
    (log ++ [event]).filterMap f = log.filterMap f ++ [a] := by
  rw [List.filterMap_append, List.filterMap_cons_some h]
  rfl

/-- The log of a generation, after more events. -/
lemma generationLog_append (history events : List ManagerEvent) (regionId generation : ℕ) :
    generationLog (history ++ events) regionId generation =
      generationLog history regionId generation ++ generationLog events regionId generation :=
  List.filter_append ..

/-- Events about other generations do not enter the log of this one. -/
lemma generationLog_eq_nil {events : List ManagerEvent} {regionId generation : ℕ}
    (h : ∀ event ∈ events, event.subject ≠ some (regionId, generation)) :
    generationLog events regionId generation = [] := by
  unfold generationLog
  rw [List.filter_eq_nil_iff]
  intro event hevent
  simpa using h event hevent

/-- Events about other generations leave the log of this one as it is. -/
lemma generationLog_append_of_ne {events : List ManagerEvent} {regionId generation : ℕ}
    (history : List ManagerEvent)
    (h : ∀ event ∈ events, event.subject ≠ some (regionId, generation)) :
    generationLog (history ++ events) regionId generation =
      generationLog history regionId generation := by
  rw [generationLog_append, generationLog_eq_nil h, List.append_nil]

/-- An event that stages nothing leaves the number of records as it is. -/
lemma recordsIn_concat {event : ManagerEvent} (h : event.record = none) (start finish : ℕ) :
    recordsIn (log ++ [event]) start finish = recordsIn log start finish := by
  rw [recordsIn, stagedRecords, filterMap_concat_none h, recordsIn, stagedRecords]

/-- A record that is staged after a range does not count in it. -/
lemma recordsIn_staged_of_le {r : RegionAppendReservation} {start finish : ℕ}
    (hle : finish ≤ r.offset) (hpos : 0 < r.recordBytes) :
    recordsIn (log ++ [.staged r]) start finish = recordsIn log start finish := by
  have hout : ¬ (start ≤ r.offset ∧ r.offset + r.recordBytes ≤ finish) := by omega
  simp [recordsIn, stagedRecords, ManagerEvent.record, hout]

/-- A record that is staged in a range counts in it. -/
lemma recordsIn_staged_of_mem {r : RegionAppendReservation} {start finish : ℕ}
    (hstart : start ≤ r.offset) (hend : r.offset + r.recordBytes ≤ finish) :
    recordsIn (log ++ [.staged r]) start finish = recordsIn log start finish + 1 := by
  simp [recordsIn, stagedRecords, ManagerEvent.record, hstart, hend]

/-- A range may be cut or extended where no record ends. -/
lemma recordsIn_congr {finish finish' start : ℕ}
    (h : ∀ r ∈ stagedRecords log, start ≤ r.offset →
      (r.offset + r.recordBytes ≤ finish ↔ r.offset + r.recordBytes ≤ finish')) :
    recordsIn log start finish = recordsIn log start finish' := by
  refine List.countP_congr fun r hr => ?_
  simp only [decide_eq_true_eq]
  constructor
  · intro hin
    exact ⟨hin.1, (h r hr hin.1).1 hin.2⟩
  · intro hin
    exact ⟨hin.1, (h r hr hin.1).2 hin.2⟩

/-- A range that begins where all records have ended is empty. -/
lemma recordsIn_eq_zero {start finish : ℕ}
    (h : ∀ r ∈ stagedRecords log, 0 < r.recordBytes ∧ r.offset + r.recordBytes ≤ start) :
    recordsIn log start finish = 0 := by
  rw [recordsIn, List.countP_eq_zero]
  intro r hr
  have := h r hr
  simp only [decide_eq_true_eq]
  omega

end Log

/-! ## A shard and the log of its Region -/

/-- How a shard, its Region and the log of the Region's generation agree. -/
structure ShardLedger (log : List ManagerEvent) (shard : AppendShardState) (region : RegionDesc) :
    Prop where
  reserved : Tiles 0 (reservedBytes log) region.reservedUsed
  completed : Tiles 0 ((completedSpans log).map RegionWriteSpan.bounds) region.completedUsed
  submitted : submittedSpans log = completedSpans log ++ shard.submittedSpan.toList
  counted : region.physicalRecordCount = ((completedSpans log).map (·.recordCount)).sum
  opened : ∀ o, shard.openSpan = some o → o.recordCount = recordsIn log o.startOffset o.endOffset
  records : ∀ r ∈ stagedRecords log, 0 < r.recordBytes ∧
    r.offset + r.recordBytes ≤ shard.openEnd region.completedUsed
  spans : ∀ span ∈ submittedSpans log, span.startOffset % 4096 = 0 ∧ span.endOffset % 4096 = 0 ∧
    span.recordCount = recordsIn log span.startOffset span.endOffset
  offsets : ∀ r, .reserved r ∈ log → r.offset % 32 = 0
  paddings : ∀ generation p span, .submitted generation (some p) span ∈ log →
    p.shardId = span.shardId ∧ p.regionId = span.regionId ∧ p.paddedEndOffset = span.endOffset ∧
    p.maxSeqno = span.maxSeqno

namespace ShardLedger

variable {log : List ManagerEvent} {size next shardId regionId : ℕ}
  {shard shard' : AppendShardState} {region region' : RegionDesc}

/-- A generation without events, in an empty Region. -/
lemma empty {state : RegionState} {createdSeqno : ℕ} (hopen : shard.openSpan = none)
    (hsubmitted : shard.submittedSpan = none) :
    ShardLedger [] shard (.empty state createdSeqno) where
  reserved := rfl
  completed := rfl
  submitted := by rw [hsubmitted]; rfl
  counted := rfl
  opened o ho := by rw [hopen] at ho; cases ho
  records r hr := by cases hr
  spans span hspan := by cases hspan
  offsets r hr := by cases hr
  paddings generation p span h := by cases h

/-- Only the spans of the shard and the marks and the count of the Region matter. -/
lemma congr (h : ShardLedger log shard region) (hopen : shard'.openSpan = shard.openSpan)
    (hsubmitted : shard'.submittedSpan = shard.submittedSpan)
    (hreserved : region'.reservedUsed = region.reservedUsed)
    (hcompleted : region'.completedUsed = region.completedUsed)
    (hcount : region'.physicalRecordCount = region.physicalRecordCount) :
    ShardLedger log shard' region' where
  reserved := hreserved ▸ h.reserved
  completed := hcompleted ▸ h.completed
  submitted := hsubmitted ▸ h.submitted
  counted := hcount.trans h.counted
  opened o ho := h.opened o (hopen ▸ ho)
  records r hr := by
    have hend : shard'.openEnd region'.completedUsed = shard.openEnd region.completedUsed := by
      rw [AppendShardState.openEnd, AppendShardState.submittedEnd, hopen, hsubmitted, hcompleted]
      rfl
    rw [hend]
    exact h.records r hr
  spans := h.spans
  offsets := h.offsets
  paddings := h.paddings

/-- The submitted spans of a log tile the Region up to the end of the last one. -/
lemma submitted_tiles (h : ShardLedger log shard region)
    (hinv : ShardInv size next shardId shard regionId region) :
    Tiles 0 ((submittedSpans log).map RegionWriteSpan.bounds)
      (shard.submittedEnd region.completedUsed) := by
  rw [h.submitted, AppendShardState.submittedEnd]
  cases hs : shard.submittedSpan with
  | none => simpa using h.completed
  | some span =>
    obtain ⟨-, -, hstart, hlt, -⟩ := hinv.submitted span hs
    rw [Option.toList_some, List.map_append, List.map_singleton, RegionWriteSpan.bounds, hstart]
    exact h.completed.snoc (hstart ▸ hlt)

/-- Submitted spans end before the open span begins. -/
lemma submitted_le (h : ShardLedger log shard region)
    (hinv : ShardInv size next shardId shard regionId region) {span : RegionWriteSpan}
    (hspan : span ∈ submittedSpans log) : span.startOffset < span.endOffset ∧
      span.endOffset ≤ shard.submittedEnd region.completedUsed :=
  ((h.submitted_tiles hinv).mem_range (List.mem_map_of_mem hspan)).2

/-- Reserving more bytes, for a record or for padding, at the reserved mark. -/
lemma reserve (h : ShardLedger log shard region) {event : ManagerEvent} {finish : ℕ}
    (hevent : event.record = none ∧ event.submittedSpan = none ∧ event.completedSpan = none)
    (hbytes : event.bytes = some (region.reservedUsed, finish))
    (hlt : region.reservedUsed < finish)
    (hoff : ∀ r, event = .reserved r → r.offset % 32 = 0)
    (hopen : shard'.openSpan = shard.openSpan)
    (hsubmitted : shard'.submittedSpan = shard.submittedSpan) :
    ShardLedger (log ++ [event]) shard' { region with reservedUsed := finish } := by
  obtain ⟨hrecord, hsub, hcomp⟩ := hevent
  have hsubmittedSpans : submittedSpans (log ++ [event]) = submittedSpans log :=
    filterMap_concat_none hsub log
  have hcompletedSpans : completedSpans (log ++ [event]) = completedSpans log :=
    filterMap_concat_none hcomp log
  have hstaged : stagedRecords (log ++ [event]) = stagedRecords log :=
    filterMap_concat_none hrecord log
  have hcongr := h.congr hopen hsubmitted rfl rfl rfl
  refine ⟨?_, ?_, ?_, ?_, ?_, ?_, ?_, ?_, ?_⟩
  · rw [reservedBytes, filterMap_concat_some hbytes]
    exact h.reserved.snoc hlt
  · rw [hcompletedSpans]
    exact h.completed
  · rw [hsubmittedSpans, hcompletedSpans]
    exact hcongr.submitted
  · rw [hcompletedSpans]
    exact h.counted
  · intro o ho
    rw [recordsIn_concat hrecord]
    exact hcongr.opened o ho
  · rw [hstaged]
    exact hcongr.records
  · intro span hspan
    rw [recordsIn_concat hrecord]
    exact h.spans span (hsubmittedSpans ▸ hspan)
  · intro r hr
    rcases List.mem_append.1 hr with hr | hr
    · exact h.offsets r hr
    · exact hoff r (List.mem_singleton.1 hr).symm
  · intro generation p span hmem
    rcases List.mem_append.1 hmem with hmem | hmem
    · exact h.paddings generation p span hmem
    · rw [← List.mem_singleton.1 hmem] at hsub
      cases hsub

/-- Staging the tail. -/
lemma stage (h : ShardLedger log shard region)
    (hinv : ShardInv size next shardId shard regionId region) {r : RegionAppendReservation}
    {span : OpenWriteSpan} (htail : shard.tail = some r)
    (hspan : RegionManager.nextSpan r (r.offset + r.recordBytes) shard.openSpan = .ok span) :
    ShardLedger (log ++ [.staged r]) { shard with openSpan := some span, tail := none }
      region := by
  obtain ⟨-, -, -, hoff, hpos, -⟩ := hinv.tail r htail
  have hend : span.endOffset = r.offset + r.recordBytes := by
    rcases RegionManager.nextSpan_eq_ok.1 hspan with ⟨-, rfl⟩ | ⟨o, -, -, -, rfl⟩ <;> rfl
  -- all records before have ended where this one begins
  have hbefore : ∀ r' ∈ stagedRecords log, 0 < r'.recordBytes ∧
      r'.offset + r'.recordBytes ≤ r.offset := fun r' hr' => hoff ▸ h.records r' hr'
  have hsubmittedSpans : submittedSpans (log ++ [.staged r]) = submittedSpans log :=
    filterMap_concat_none rfl log
  have hcompletedSpans : completedSpans (log ++ [.staged r]) = completedSpans log :=
    filterMap_concat_none rfl log
  have hbytes : reservedBytes (log ++ [.staged r]) = reservedBytes log :=
    filterMap_concat_none rfl log
  have hstaged : stagedRecords (log ++ [.staged r]) = stagedRecords log ++ [r] :=
    filterMap_concat_some (show (ManagerEvent.staged r).record = some r from rfl) log
  refine ⟨hbytes ▸ h.reserved, hcompletedSpans ▸ h.completed, ?_, hcompletedSpans ▸ h.counted,
    ?_, ?_, ?_, ?_, ?_⟩
  · rw [hsubmittedSpans, hcompletedSpans]
    exact h.submitted
  · intro o ho
    obtain rfl := Option.some.inj ho
    rcases RegionManager.nextSpan_eq_ok.1 hspan with
      ⟨hnone, rfl⟩ | ⟨o, hopen, ⟨-, hoend, -⟩, -, rfl⟩
    · rw [recordsIn_staged_of_mem le_rfl le_rfl, recordsIn_eq_zero hbefore]
    · have hstart := (hinv.opened o hopen).2.2.1
      dsimp only
      rw [recordsIn_staged_of_mem (by omega) le_rfl, h.opened o hopen]
      congr 1
      refine recordsIn_congr fun r' hr' _ => ?_
      have := hbefore r' hr'
      omega
  · intro r' hr'
    show _ ∧ _ ≤ span.endOffset
    rw [hstaged, List.mem_append, List.mem_singleton] at hr'
    rcases hr' with hr' | rfl
    · have := hbefore r' hr'
      omega
    · exact ⟨hpos, hend.ge⟩
  · intro s hs
    rw [hsubmittedSpans] at hs
    -- submitted spans end before the record begins
    have hle : s.endOffset ≤ r.offset := by
      have hopenEnd : shard.submittedEnd region.completedUsed ≤
          shard.openEnd region.completedUsed := by
        rw [AppendShardState.openEnd]
        cases ho : shard.openSpan with
        | none => exact le_rfl
        | some o =>
          obtain ⟨-, hs, hlt, -⟩ := hinv.opened o ho
          exact hs ▸ hlt.le
      exact (h.submitted_le hinv hs).2.trans (hopenEnd.trans hoff.ge)
    rw [recordsIn_staged_of_le hle hpos]
    exact h.spans s hs
  · intro r' hr'
    exact h.offsets r' (by simpa using hr')
  · intro generation p s hmem
    exact h.paddings generation p s (by simpa using hmem)

/-- Submitting the open span. -/
lemma submit (h : ShardLedger log shard region)
    (hinv : ShardInv size next shardId shard regionId region) {o : OpenWriteSpan}
    {generation finish : ℕ} {padding : Option RegionPaddingReceipt}
    (hopen : shard.openSpan = some o) (hpadding : shard.pendingPadding = padding)
    (hsubmitted : shard.submittedSpan = none) (hstart : o.startOffset % 4096 = 0)
    (hfinish : finish % 4096 = 0)
    (hend : finish = (padding.map (·.paddedEndOffset)).getD o.endOffset) :
    ShardLedger (log ++ [.submitted generation padding ⟨shardId, o.regionId, o.startOffset, finish,
      o.recordCount, o.maxSeqno⟩]) (RegionManager.submitted shardId finish shard o) region := by
  set span : RegionWriteSpan :=
    ⟨shardId, o.regionId, o.startOffset, finish, o.recordCount, o.maxSeqno⟩ with hspan
  have hsubmittedSpans : submittedSpans (log ++ [.submitted generation padding span]) =
      submittedSpans log ++ [span] :=
    filterMap_concat_some (show (ManagerEvent.submitted generation padding span).submittedSpan =
      some span from rfl) log
  have hcompletedSpans : completedSpans (log ++ [.submitted generation padding span]) =
    completedSpans log := filterMap_concat_none rfl log
  have hbytes : reservedBytes (log ++ [.submitted generation padding span]) = reservedBytes log :=
    filterMap_concat_none rfl log
  have hstaged : stagedRecords (log ++ [.submitted generation padding span]) = stagedRecords log :=
    filterMap_concat_none rfl log
  have hopenEnd : shard.openEnd region.completedUsed = o.endOffset := by
    rw [AppendShardState.openEnd, hopen]
    rfl
  -- padding only extends the span
  have hle : o.endOffset ≤ finish := by
    rw [hend]
    cases hp : padding with
    | none => exact le_rfl
    | some p =>
      obtain ⟨-, o', ho', -, hlt, -⟩ := hinv.padding p (hpadding.trans hp)
      obtain rfl := Option.some.inj (hopen.symm.trans ho')
      exact hlt.le
  refine ⟨hbytes ▸ h.reserved, hcompletedSpans ▸ h.completed, ?_, hcompletedSpans ▸ h.counted,
    ?_, ?_, ?_, ?_, ?_⟩
  · rw [hsubmittedSpans, hcompletedSpans, h.submitted, hsubmitted, Option.toList_none,
      List.append_nil]
    rfl
  · intro o' ho'
    cases ho'
  · intro r hr
    rw [hstaged] at hr
    obtain ⟨hpos, hbound⟩ := h.records r hr
    rw [hopenEnd] at hbound
    exact ⟨hpos, hbound.trans hle⟩
  · intro s hs
    rw [recordsIn_concat rfl]
    rw [hsubmittedSpans, List.mem_append, List.mem_singleton] at hs
    rcases hs with hs | rfl
    · exact h.spans s hs
    · refine ⟨hstart, hfinish, (h.opened o hopen).trans (recordsIn_congr fun r hr _ => ?_)⟩
      have hbound := (h.records r hr).2
      rw [hopenEnd] at hbound
      exact ⟨fun _ => hbound.trans hle, fun _ => hbound⟩
  · intro r hr
    exact h.offsets r (by simpa using hr)
  · intro g p s hmem
    rcases List.mem_append.1 hmem with hmem | hmem
    · exact h.paddings g p s hmem
    · obtain ⟨-, hp, rfl⟩ := ManagerEvent.submitted.inj (List.mem_singleton.1 hmem)
      rw [← hp] at hpadding hend
      obtain ⟨-, o', ho', -, -, -, hp'⟩ := hinv.padding p hpadding
      obtain rfl := Option.some.inj (hopen.symm.trans ho')
      rw [hp']
      exact ⟨rfl, ((hinv.opened o hopen).1).symm, hend.symm, rfl⟩

/-- Completing the submitted span. -/
lemma complete (h : ShardLedger log shard region)
    (hinv : ShardInv size next shardId shard regionId region) {span : RegionWriteSpan}
    {generation : ℕ} (hspan : shard.submittedSpan = some span) :
    ShardLedger (log ++ [.completed generation span]) { shard with submittedSpan := none }
      { region with
        completedUsed := span.endOffset
        physicalRecordCount := region.physicalRecordCount + span.recordCount } := by
  obtain ⟨-, -, hstart, hlt, -⟩ := hinv.submitted span hspan
  have hsubmittedSpans : submittedSpans (log ++ [.completed generation span]) =
    submittedSpans log := filterMap_concat_none rfl log
  have hcompletedSpans : completedSpans (log ++ [.completed generation span]) =
      completedSpans log ++ [span] :=
    filterMap_concat_some
      (show (ManagerEvent.completed generation span).completedSpan = some span from rfl) log
  have hbytes : reservedBytes (log ++ [.completed generation span]) = reservedBytes log :=
    filterMap_concat_none rfl log
  have hstaged : stagedRecords (log ++ [.completed generation span]) = stagedRecords log :=
    filterMap_concat_none rfl log
  refine ⟨hbytes ▸ h.reserved, ?_, ?_, ?_, ?_, ?_, ?_, ?_, ?_⟩
  · rw [hcompletedSpans, List.map_append, List.map_singleton, RegionWriteSpan.bounds, hstart]
    exact h.completed.snoc (hstart ▸ hlt)
  · rw [hsubmittedSpans, hcompletedSpans, h.submitted, hspan]
    exact (List.append_nil _).symm
  · rw [hcompletedSpans, List.map_append, List.sum_append, h.counted]
    rfl
  · intro o ho
    rw [recordsIn_concat rfl]
    exact h.opened o ho
  · intro r hr
    rw [hstaged] at hr
    have hend : AppendShardState.openEnd { shard with submittedSpan := none } span.endOffset =
        shard.openEnd region.completedUsed := by
      rw [AppendShardState.openEnd, AppendShardState.openEnd, AppendShardState.submittedEnd,
        AppendShardState.submittedEnd, hspan]
      rfl
    exact hend ▸ h.records r hr
  · intro s hs
    rw [recordsIn_concat rfl]
    exact h.spans s (hsubmittedSpans ▸ hs)
  · intro r hr
    exact h.offsets r (by simpa using hr)
  · intro g p s hmem
    exact h.paddings g p s (by simpa using hmem)

end ShardLedger

section ShardStep

variable {log history events : List ManagerEvent} {size next next' shardId regionId : ℕ}
  {shard shard' : AppendShardState} {region region' : RegionDesc}

/-- The events of a step of a shard are about its Region's generation. -/
lemma ShardStep.subject_eq
    (hstep : ShardStep size shardId regionId shard region next events shard' region' next')
    (hinv : ShardInv size next shardId shard regionId region) {event : ManagerEvent}
    (hevent : event ∈ events) :
    event.subject = none ∨ event.subject = some (regionId, region.createdSeqno) ∧
      event.maxSeqno < next' := by
  cases hstep with
  | requested => cases hevent
  | reserved hn hidle hfit hnext =>
    rw [List.mem_singleton.1 hevent]
    exact .inr ⟨rfl, Nat.lt_succ_self _⟩
  | staged htail hspan =>
    rw [List.mem_singleton.1 hevent]
    obtain ⟨-, hid, hcreated, -, -, -, -, hlt, -⟩ := hinv.tail _ htail
    exact .inr ⟨by rw [ManagerEvent.subject, hid, hcreated], hlt⟩
  | aligned hopen hidle hend =>
    rw [List.mem_singleton.1 hevent]
    exact .inl rfl
  | padded hopen hidle hreserved hfinish =>
    rw [List.mem_singleton.1 hevent]
    obtain ⟨hid, -, -, -, -, -, hlt⟩ := hinv.opened _ hopen
    exact .inr ⟨by rw [ManagerEvent.subject, hid], hlt⟩
  | submitted hopen hpadding hidle hstart hfinish hlt hend =>
    rw [List.mem_singleton.1 hevent]
    obtain ⟨hid, -, -, -, -, -, hmax⟩ := hinv.opened _ hopen
    exact .inr ⟨by rw [ManagerEvent.subject, hid], hmax⟩
  | completed hspan hstart hend hcount =>
    rw [List.mem_singleton.1 hevent]
    obtain ⟨-, hid, -, -, -, -, -, hmax⟩ := hinv.submitted _ hspan
    exact .inr ⟨by rw [ManagerEvent.subject, hid], hmax⟩

/-- **Append path.** Every step of a shard keeps the shard and its log in agreement. -/
theorem ShardStep.ledger
    (hstep : ShardStep size shardId regionId shard region next events shard' region' next')
    (hinv : ShardInv size next shardId shard regionId region)
    (h : ShardLedger (generationLog history regionId region.createdSeqno) shard region) :
    ShardLedger (generationLog (history ++ events) regionId region.createdSeqno) shard'
      region' := by
  -- an event about this generation enters its log
  have hlog : ∀ {event : ManagerEvent}, event.subject = some (regionId, region.createdSeqno) →
      generationLog (history ++ [event]) regionId region.createdSeqno =
        generationLog history regionId region.createdSeqno ++ [event] := by
    intro event hevent
    rw [generationLog_append]
    congr 1
    rw [generationLog, List.filter_cons_of_pos (by simpa using hevent), List.filter_nil]
  have hsubject : ∀ {event : ManagerEvent}, events = [event] → event.subject ≠ none →
      event.subject = some (regionId, region.createdSeqno) := by
    intro event heq hne
    exact ((hstep.subject_eq hinv (heq ▸ List.mem_singleton_self _)).resolve_left hne).1
  cases hstep with
  | requested =>
    rw [List.append_nil]
    exact h.congr rfl rfl rfl rfl rfl
  | reserved hn hidle hfit hnext =>
    rw [hlog rfl]
    refine h.reserve ⟨rfl, rfl, rfl⟩ rfl (Nat.lt_add_of_pos_right (Nat.pos_of_ne_zero hn.1)) ?_ rfl
      rfl
    intro r hr
    obtain rfl := ManagerEvent.reserved.inj hr
    show region.reservedUsed % 32 = 0
    rw [hinv.reserved_eq_openEnd hidle.1 hidle.2.1]
    exact hinv.openEnd_aligned
  | staged htail hspan =>
    rw [hlog (hsubject rfl (by simp [ManagerEvent.subject]))]
    exact h.stage hinv htail hspan
  | aligned hopen hidle hend =>
    rw [generationLog_append_of_ne history]
    · exact h
    · intro event hevent
      rw [List.mem_singleton.1 hevent]
      simp [ManagerEvent.subject]
  | padded hopen hidle hreserved hfinish =>
    rw [hlog (hsubject rfl (by simp [ManagerEvent.subject]))]
    exact h.reserve ⟨rfl, rfl, rfl⟩ (by rw [hreserved]; rfl) (hreserved ▸ hfinish.1)
      (fun r hr => by cases hr) rfl rfl
  | submitted hopen hpadding hidle hstart hfinish hlt hend =>
    rw [hlog (hsubject rfl (by simp [ManagerEvent.subject]))]
    exact h.submit hinv hopen hpadding hidle.2.1 hstart hfinish hend
  | completed hspan hstart hend hcount =>
    rw [hlog (hsubject rfl (by simp [ManagerEvent.subject]))]
    exact h.complete hinv hspan

end ShardStep

/-! ## All logs -/

/-- The generations of the append path's events, and the numbers of their records, are below the
counter; and what is not of a Region's generation is older than it. -/
def GenerationOrder (m : RegionManager) (history : List ManagerEvent) : Prop :=
  ∀ event ∈ history, ∀ id generation : ℕ, event.subject = some (id, generation) →
    generation < m.nextSeqno ∧ event.maxSeqno < m.nextSeqno ∧
    ∀ region, m.regions[id]? = some region → region.state ≠ .free →
      generation = region.createdSeqno ∨ event.maxSeqno < region.createdSeqno

/-- How all logs and the manager agree. -/
structure Ledger (m : RegionManager) (history : List ManagerEvent) : Prop where
  shards : ∀ {shardId : ℕ} {shard : AppendShardState} {id : ℕ} {region : RegionDesc},
    m.ShardAt shardId shard id region →
    ShardLedger (generationLog history id region.createdSeqno) shard region
  retired : ∀ {id : ℕ} {region : RegionDesc}, m.regions[id]? = some region → region.Retired →
    ShardLedger (generationLog history id region.createdSeqno) {} region
  every : ∀ id generation : ℕ, ∃ shard region,
    ShardLedger (generationLog history id generation) shard region

section Manager

variable {m m' : RegionManager} {history events : List ManagerEvent}

/-- Steps and restarts keep the order of generations. -/
lemma GenerationOrder.step (h : GenerationOrder m history) (hle : m.nextSeqno ≤ m'.nextSeqno)
    (hgeneration : ∀ {id : ℕ} {region' : RegionDesc}, m'.regions[id]? = some region' →
      GenerationStep m m' events id region')
    (hevents : ∀ event ∈ events, ∀ id generation : ℕ, event.subject = some (id, generation) →
      generation < m'.nextSeqno ∧ event.maxSeqno < m'.nextSeqno ∧
      ∀ region', m'.regions[id]? = some region' → generation = region'.createdSeqno) :
    GenerationOrder m' (history ++ events) := by
  intro event hevent id generation hsubject
  rcases List.mem_append.1 hevent with hevent | hevent
  · obtain ⟨hgen, hmax, hregion⟩ := h event hevent id generation hsubject
    refine ⟨hgen.trans_le hle, hmax.trans_le hle, fun region' hregion' hne => ?_⟩
    cases hgeneration hregion' with
    | kept hold hcreated hstate =>
      rw [hcreated]
      exact hregion _ hold fun hfree => hne (hstate hfree)
    | activated hlow _ _ => exact .inr (hmax.trans_le hlow)
    | freed hfree => exact absurd (congrArg RegionDesc.state hfree) hne
  · obtain ⟨hgen, hmax, hregion⟩ := hevents event hevent id generation hsubject
    exact ⟨hgen, hmax, fun region' hregion' _ => .inl (hregion region' hregion')⟩

/-- Events that are not of the append path. -/
lemma subject_activated {numbers : List ℕ} {event : ManagerEvent}
    (hevent : event ∈ numbers.map ManagerEvent.activated) : event.subject = none := by
  obtain ⟨n, -, rfl⟩ := List.mem_map.1 hevent
  rfl

/-- A step that is not of the append path leaves events that are not of the append path. -/
lemma ManagerStep.subject_cases (hstep : ManagerStep m events m') :
    (∀ event ∈ events, event.subject = none) ∨
      ∃ shardId regionId shard shard' region region' next,
        m.ShardAt shardId shard regionId region ∧
        ShardStep m.regionSize shardId regionId shard region m.nextSeqno events shard' region'
          next ∧ m' = m.put shardId regionId shard' region' next := by
  cases hstep with
  | shard hat hstep => exact .inr ⟨_, _, _, _, _, _, _, hat, hstep, rfl⟩
  | unchanged => exact .inl fun event hevent => by cases hevent
  | _ =>
    refine .inl fun event hevent => ?_
    rw [List.mem_singleton.1 hevent]
    rfl

/-- The generations of a reachable manager are in order. -/
lemma ManagerReachable.generationOrder (h : ManagerReachable m history) :
    GenerationOrder m history := by
  -- a step, with or without events of the append path
  have hstep : ∀ {m m' : RegionManager} {history events : List ManagerEvent},
      ManagerInv m → GenerationOrder m history → ManagerStep m events m' →
      GenerationOrder m' (history ++ events) := by
    intro m m' history events hinv ih hstep
    refine ih.step hstep.issuedSeqnos_eq.1 (hstep.generation hinv) fun event hevent id generation
      hsubject => ?_
    rcases hstep.subject_cases with hnone | ⟨s, regionId, shard, shard', region, region', next, hat,
      hshard, rfl⟩
    · rw [hnone event hevent] at hsubject
      cases hsubject
    · have hinv' := hinv.shards hat
      rcases hshard.subject_eq hinv' hevent with hnone | ⟨hsome, hmax⟩
      · rw [hnone] at hsubject
        cases hsubject
      · obtain ⟨rfl, rfl⟩ := Prod.mk.inj (Option.some.inj (hsome.symm.trans hsubject))
        refine ⟨hinv'.created_lt.trans_le hshard.frame.2.2.1, hmax, fun desc hdesc => ?_⟩
        have hself := List.getElem?_set_self (a := region')
          (List.getElem?_eq_some_iff.1 hat.region_eq).1
        rw [← Option.some.inj (hself.symm.trans hdesc)]
        exact hshard.frame.1.symm
  induction h with
  | cold _ _ =>
    intro event hevent id generation hsubject
    rw [subject_activated hevent] at hsubject
    cases hsubject
  | ok h hop ih => exact hstep h.inv ih (ManagerOp.run_ok h.inv hop)
  | error h hop ih =>
    have := hstep h.inv ih (ManagerOp.step_of_error h.inv hop)
    rwa [List.append_nil] at this
  | configured _ hop ih =>
    obtain ⟨-, -, rfl⟩ := RegionManager.configureReclaimWorkers_eq_ok hop
    exact ih
  | restarted h hop ih =>
    have hre := (RegionManager.restart_eq_ok h.inv.bounded hop).2
    refine ih.step hre.nextSeqno_le hre.generation fun event hevent id generation hsubject => ?_
    rw [subject_activated hevent] at hsubject
    cases hsubject

/-- A generation that the counter has not reached has no events. -/
lemma GenerationOrder.log_eq_nil (h : GenerationOrder m history) {id generation : ℕ}
    (hge : m.nextSeqno ≤ generation) : generationLog history id generation = [] := by
  refine generationLog_eq_nil fun event hevent hsubject => ?_
  have := (h event hevent id generation hsubject).1
  omega

/-- A step of a shard keeps the logs. -/
lemma Ledger.put (h : Ledger m history) (hinv : ManagerInv m) {shardId regionId next : ℕ}
    {shard shard' : AppendShardState} {region region' : RegionDesc}
    (hat : m.ShardAt shardId shard regionId region)
    (hstep : ShardStep m.regionSize shardId regionId shard region m.nextSeqno events shard' region'
      next) : Ledger (m.put shardId regionId shard' region' next) (history ++ events) := by
  have hshard := hinv.shards hat
  have hledger := hstep.ledger hshard (h.shards hat)
  -- the other logs gain nothing
  have hother : ∀ {id generation : ℕ}, (id, generation) ≠ (regionId, region.createdSeqno) →
      generationLog (history ++ events) id generation = generationLog history id generation := by
    intro id generation hne
    refine generationLog_append_of_ne history fun event hevent hsubject => ?_
    rcases hstep.subject_eq hshard hevent with hnone | ⟨hsome, -⟩
    · exact absurd (hnone.symm.trans hsubject) (by simp)
    · exact hne (Option.some.inj (hsubject.symm.trans hsome))
  have hself : (m.put shardId regionId shard' region' next).regions[regionId]? = some region' :=
    List.getElem?_set_self (List.getElem?_eq_some_iff.1 hat.region_eq).1
  have hne : ∀ {id : ℕ}, id ≠ regionId →
      (m.put shardId regionId shard' region' next).regions[id]? = m.regions[id]? :=
    fun hid => List.getElem?_set_ne (Ne.symm hid)
  refine ⟨fun {s sh id desc} hat' => ?_, fun {id desc} hdesc hretired => ?_,
    fun id generation => ?_⟩
  · rcases hat.of_put hinv.nodup hat' with ⟨rfl, rfl, rfl, rfl⟩ | ⟨-, hid, hat'⟩
    · rw [hstep.frame.1]
      exact hledger
    · rw [hother fun heq => hid (Prod.mk.inj heq).1]
      exact h.shards hat'
  · have hid : id ≠ regionId := by
      intro heq
      subst heq
      obtain rfl := Option.some.inj (hself.symm.trans hdesc)
      exact absurd (hretired.1.symm.trans (hstep.inv hshard).active) (by simp)
    rw [hother fun heq => hid (Prod.mk.inj heq).1]
    exact h.retired ((hne hid).symm.trans hdesc) hretired
  · by_cases heq : (id, generation) = (regionId, region.createdSeqno)
    · obtain ⟨rfl, rfl⟩ := Prod.mk.inj heq
      exact ⟨shard', region', hledger⟩
    · rw [hother heq]
      exact h.every id generation

/-- Beginning a rotation keeps the logs: that of the outgoing Region is finished, and that of the
activated one begins. -/
lemma Ledger.rotating (h : Ledger m history) (horder : GenerationOrder m history)
    (hinv : ManagerInv m) {shard : AppendShardState} {old victim : RegionDesc} {free : List ℕ}
    {r : RegionRotationReceipt} (hat : m.ShardAt r.shardId shard r.sealedRegionId old)
    (hidle : shard.openSpan = none ∧ shard.submittedSpan = none)
    (hvictim : m.regions[r.activatedRegionId]? = some victim)
    (hfree : m.freeRegions = r.activatedRegionId :: free)
    (hcreated : r.activatedCreatedSeqno = m.nextSeqno) :
    Ledger (m.rotating shard old free r) history := by
  have hactivated : (m.rotating shard old free r).regions[r.activatedRegionId]? =
      some (.empty .active r.activatedCreatedSeqno) := by
    refine List.getElem?_set_self ?_
    rw [List.length_set]
    exact (List.getElem?_eq_some_iff.1 hvictim).1
  have hnil : generationLog history r.activatedRegionId r.activatedCreatedSeqno = [] :=
    horder.log_eq_nil hcreated.ge
  refine ⟨fun {s sh id desc} hat' => ?_, fun {id desc} hdesc hretired => ?_, h.every⟩
  · rcases hat.of_rotating hinv.nodup hfree (List.getElem?_eq_some_iff.1 hvictim).1 hat' with
      ⟨rfl, rfl, rfl, rfl⟩ | ⟨-, -, -, hat'⟩
    · rw [RegionDesc.empty, hnil]
      exact .empty hidle.1 hidle.2
    · exact h.shards hat'
  · have h2 : id ≠ r.activatedRegionId := by
      intro heq
      subst heq
      obtain rfl := Option.some.inj (hactivated.symm.trans hdesc)
      cases hretired.1
    by_cases h1 : id = r.sealedRegionId
    · subst h1
      obtain rfl : { old with state := RegionState.sealed } = desc := by
        have := List.getElem?_set_self (a := { old with state := RegionState.sealed })
          (List.getElem?_eq_some_iff.1 hat.region_eq).1
        exact Option.some.inj (this.symm.trans ((List.getElem?_set_ne (Ne.symm h2)).symm.trans
          hdesc))
      exact (h.shards hat).congr hidle.1.symm hidle.2.symm rfl rfl rfl
    · exact h.retired ((regions_rotating h1 h2).symm.trans hdesc) hretired

/-- Events that are not of the append path do not enter the logs. -/
lemma Ledger.append (h : Ledger m history) (hnone : ∀ event ∈ events, event.subject = none) :
    Ledger m (history ++ events) := by
  have hlog : ∀ id generation : ℕ, generationLog (history ++ events) id generation =
      generationLog history id generation := by
    intro id generation
    refine generationLog_append_of_ne history fun event hevent hsubject => ?_
    exact absurd ((hnone event hevent).symm.trans hsubject) (by simp)
  refine ⟨fun hat => ?_, fun hdesc hretired => ?_, fun id generation => ?_⟩
  · rw [hlog]
    exact h.shards hat
  · rw [hlog]
    exact h.retired hdesc hretired
  · rw [hlog]
    exact h.every id generation

/-- Finishing a reclaim keeps the logs. -/
lemma Ledger.reclaimed (h : Ledger m history) (hinv : ManagerInv m) {position : ℕ}
    {r : RegionReclaimReceipt} {region : RegionDesc} (hposition : m.reclaiming[position]? = some r)
    (hregion : m.regions[r.regionId]? = some region) :
    Ledger (m.reclaimed position r) history := by
  have hself : (m.reclaimed position r).regions[r.regionId]? = some (.empty .free 0) :=
    List.getElem?_set_self (List.getElem?_eq_some_iff.1 hregion).1
  have hne : ∀ {id : ℕ}, id ≠ r.regionId →
      (m.reclaimed position r).regions[id]? = m.regions[id]? :=
    fun hid => List.getElem?_set_ne (Ne.symm hid)
  refine ⟨fun {s sh id desc} hat => ?_, fun {id desc} hdesc hretired => ?_, h.every⟩
  · exact h.shards (hat.of_reclaimed hinv.nodup hposition)
  · have hid : id ≠ r.regionId := by
      intro heq
      subst heq
      obtain rfl := Option.some.inj (hself.symm.trans hdesc)
      cases hretired.1
    exact h.retired ((hne hid).symm.trans hdesc) hretired

/-- Steps keep the logs. -/
lemma Ledger.step (h : Ledger m history) (horder : GenerationOrder m history) (hinv : ManagerInv m)
    (hstep : ManagerStep m events m') : Ledger m' (history ++ events) := by
  cases hstep with
  | shard hat hshard => exact h.put hinv hat hshard
  | unchanged => simpa using h
  | sequenced hnext =>
    refine Ledger.append ?_ (by simp [ManagerEvent.subject])
    exact ⟨fun ⟨h1, h2, h3⟩ => h.shards ⟨h1, h2, h3⟩, h.retired, h.every⟩
  | rotating hat hidle hold hfree hvictim hnext hcreated =>
    refine Ledger.append ?_ (by simp [ManagerEvent.subject])
    exact h.rotating horder hinv hat ⟨hidle.2.1, hidle.2.2.2.1⟩ hvictim.1 hfree hcreated
  | @rotated shard r hshard hr =>
    refine Ledger.append ?_ (by simp [ManagerEvent.subject])
    refine ⟨fun {s sh id desc} hat => ?_, h.retired, h.every⟩
    rcases hat.of_rotated hshard with ⟨rfl, rfl, hbefore⟩ | ⟨-, hbefore⟩
    · exact (h.shards hbefore).congr rfl rfl rfl rfl rfl
    · exact h.shards hbefore
  | reclaiming hneeded hsealed hregion =>
    refine Ledger.append ?_ (by simp [ManagerEvent.subject])
    exact ⟨fun ⟨h1, h2, h3⟩ => h.shards ⟨h1, h2, h3⟩, h.retired, h.every⟩
  | reclaimed hposition hregion =>
    refine Ledger.append ?_ (by simp [ManagerEvent.subject])
    exact h.reclaimed hinv hposition hregion

/-- Restarts keep the logs: nothing was outstanding. -/
lemma Ledger.restarted (h : Ledger m history) (horder : GenerationOrder m history)
    (hinv : ManagerInv m) (hre : Restarted m m')
    (hinv' : ManagerInv m')
    (hidle : ∀ shard ∈ m'.appendStates, shard.openSpan = none ∧ shard.submittedSpan = none) :
    Ledger m' history := by
  -- a Region in use is as it was, or has just been activated
  have hregion : ∀ {id : ℕ} {desc : RegionDesc} {shard : AppendShardState},
      m'.regions[id]? = some desc → desc.state ≠ .free →
      shard.openSpan = none ∧ shard.submittedSpan = none →
      ShardLedger (generationLog history id desc.createdSeqno) shard desc := by
    intro id desc shard hdesc hstate hnone
    have hlt : id < m.regions.length := by
      rw [← hre.length_regions]
      exact (List.getElem?_eq_some_iff.1 hdesc).1
    have hold := List.getElem?_eq_getElem hlt
    obtain ⟨r', hr', hrel⟩ := hre.regions id _ hold
    obtain rfl := Option.some.inj (hdesc.symm.trans hr')
    cases hrel with
    | kept hkept hcreated hcompleted hreserved hcount =>
      rw [hcreated]
      rcases hinv.place_cases hold with ⟨-, s, sh, hat⟩ | hempty | hretired
      · have hquiet := hre.quiescent sh (List.mem_of_getElem? hat.shard_eq)
        simp only [AppendShardState.isQuiescent, Bool.and_eq_true,
          Option.isNone_iff_eq_none] at hquiet
        exact (h.shards hat).congr (hnone.1.trans hquiet.1.1.1.2.symm)
          (hnone.2.trans hquiet.1.2.symm) hreserved hcompleted hcount
      · rcases hkept with hkept | ⟨hactive, -⟩
        · rw [hempty] at hkept
          exact absurd hkept hstate
        · rw [hempty] at hactive
          cases hactive
      · exact (h.retired hold hretired).congr hnone.1 hnone.2 hreserved hcompleted hcount
    | activated hfree _ hlow hhigh hcompleted hreserved hcount =>
      rw [horder.log_eq_nil hlow]
      have hempty := hinv.eq_empty hold hfree
      have hnil : ShardLedger [] shard (.empty .free 0) := .empty hnone.1 hnone.2
      refine hnil.congr rfl rfl ?_ ?_ ?_
      · rw [hreserved, hempty]
      · rw [hcompleted, hempty]
      · rw [hcount, hempty]
  refine ⟨fun hat => ?_, fun hdesc hretired => ?_, h.every⟩
  · exact hregion hat.region_eq (by rw [(hinv'.shards hat).active]; decide)
      (hidle _ (List.mem_of_getElem? hat.shard_eq))
  · exact hregion hdesc (by rw [hretired.1]; decide) ⟨rfl, rfl⟩

/-- A recovered manager has nothing outstanding. -/
lemma RecoveredFrom.idle {metadata : RegionMetadata} (hr : RecoveredFrom metadata m)
    {shard : AppendShardState} (hshard : shard ∈ m.appendStates) : shard = {} := by
  rw [hr.appendStates] at hshard
  exact List.eq_of_mem_replicate hshard

/-- **Logs.** The logs of every reachable manager agree with it. -/
theorem ManagerReachable.ledger (h : ManagerReachable m history) : Ledger m history := by
  induction h with
  | @cold _ _ _ metadata m hempty hm =>
    have hnil : ∀ id generation : ℕ,
        generationLog ((m.createdSeqnos 0).map .activated) id generation = [] := by
      intro id generation
      refine generationLog_eq_nil fun event hevent hsubject => ?_
      exact absurd ((subject_activated hevent).symm.trans hsubject) (by simp)
    obtain ⟨-, hr⟩ := RegionManager.fromMetadata_eq_ok hm
    -- every Region of an empty data file is empty
    have hregion : ∀ {id : ℕ} {desc : RegionDesc}, m.regions[id]? = some desc →
        ShardLedger [] {} desc := by
      intro id desc hdesc
      rw [hr.regions, (emptyRegionMetadata_eq_ok hempty).regions, List.map_map,
        List.getElem?_map] at hdesc
      obtain ⟨i, -, rfl⟩ := Option.map_eq_some_iff.1 hdesc
      have hzero : ShardLedger [] {} (.empty .free 0) := .empty rfl rfl
      rw [Function.comp_apply, emptyRegion]
      split_ifs
      · exact hzero.congr rfl rfl rfl rfl rfl
      · exact hzero.congr rfl rfl rfl rfl rfl
    refine ⟨fun {s sh id desc} hat => ?_, fun hdesc _ => ?_, fun id generation => ?_⟩
    · rw [hnil, hr.idle (List.mem_of_getElem? hat.shard_eq)]
      exact hregion hat.region_eq
    · rw [hnil]
      exact hregion hdesc
    · rw [hnil]
      exact ⟨{}, .empty .free 0, .empty rfl rfl⟩
  | ok h hop ih => exact ih.step h.generationOrder h.inv (ManagerOp.run_ok h.inv hop)
  | error h hop ih =>
    have := ih.step h.generationOrder h.inv (ManagerOp.step_of_error h.inv hop)
    rwa [List.append_nil] at this
  | configured _ hop ih =>
    obtain ⟨-, -, rfl⟩ := RegionManager.configureReclaimWorkers_eq_ok hop
    exact ⟨fun hat => ih.shards ⟨hat.shard_eq, hat.active_eq, hat.region_eq⟩, ih.retired, ih.every⟩
  | restarted h hop ih =>
    obtain ⟨⟨metadata, -, hr⟩, hre⟩ := RegionManager.restart_eq_ok h.inv.bounded hop
    refine (ih.restarted h.generationOrder h.inv hre (h.inv.restart hop) ?_).append
      (fun event hevent => subject_activated hevent)
    intro shard hshard
    rw [hr.idle hshard]
    exact ⟨rfl, rfl⟩

end Manager

/-! ## Receipts -/

/-- Whether an operation presents the receipt that is outstanding for its step. -/
def ManagerOp.Outstanding (m : RegionManager) : ManagerOp → Prop
  | .stageReservation r => ∃ shard, m.appendStates[r.shardId]? = some shard ∧ shard.tail = some r
  | .sealWriteSpanWithPadding p => ∃ shard,
    m.appendStates[p.shardId]? = some shard ∧ shard.pendingPadding = some p
  | .completeWriteSpan span => ∃ shard,
    m.appendStates[span.shardId]? = some shard ∧ shard.submittedSpan = some span
  | .beginRotation candidate =>
    RegionManager.rotationCandidate candidate.shardId m = .ok candidate m
  | .finishRotation r => ∃ shard,
    m.appendStates[r.shardId]? = some shard ∧ shard.rotation = some r
  | .finishReclaim r => r ∈ m.reclaiming
  | _ => True

/-- The operation that an event has been, when it has used a receipt up. -/
def ManagerEvent.used : ManagerEvent → Option ManagerOp
  | .staged r => some (.stageReservation r)
  | .submitted _ (some p) _ => some (.sealWriteSpanWithPadding p)
  | .completed _ span => some (.completeWriteSpan span)
  | .rotated r => some (.finishRotation r)
  | .reclaimed r => some (.finishReclaim r)
  | _ => none

section Receipts

variable {m m' : RegionManager} {history events : List ManagerEvent}

/-- An operation that succeeds presents an outstanding receipt. -/
lemma ManagerOp.outstanding_of_ok {op : ManagerOp} (hop : op.run m = .ok events m') :
    op.Outstanding m := by
  cases op with
  | stageReservation r =>
    obtain ⟨⟨⟩, m₁, h₁, -⟩ := bind_eq_ok.1 hop
    obtain ⟨shard, span, hs, htail, -⟩ := RegionManager.stageReservation_eq_ok.1 h₁
    exact ⟨shard, hs, htail⟩
  | sealWriteSpanWithPadding p =>
    obtain ⟨span, m₁, h₁, -⟩ := bind_eq_ok.1 hop
    simp only [RegionManager.sealWriteSpanWithPadding, get_bind, okOr_bind_eq_ok,
      rejectIf_bind_eq_ok, not_or, not_not] at h₁
    obtain ⟨shard, hs, ⟨-, -, -, hp⟩, -⟩ := h₁
    exact ⟨shard, hs, hp⟩
  | completeWriteSpan span =>
    obtain ⟨⟨⟩, m₁, h₁, -⟩ := bind_eq_ok.1 hop
    simp only [RegionManager.completeWriteSpan, get_bind, okOr_bind_eq_ok, rejectIf_bind_eq_ok,
      not_not] at h₁
    obtain ⟨shard, hs, hspan, -⟩ := h₁
    exact ⟨shard, hs, hspan⟩
  | beginRotation candidate =>
    obtain ⟨r, m₁, h₁, -⟩ := bind_eq_ok.1 hop
    obtain ⟨shard, oldId, old, victimId, victim, free, hat, hq, hold, ⟨hfree, hvr, hvs, hne⟩, hc, -⟩
      := RegionManager.beginRotation_eq_ok h₁
    refine RegionManager.selectRotation_bind_eq_ok.2 ⟨shard, oldId, old, victimId, victim, hat, hq,
      hold, ⟨by rw [hfree]; rfl, hvr, hvs, hne⟩, ?_⟩
    rw [hc]
    rfl
  | finishRotation r =>
    obtain ⟨⟨⟩, m₁, h₁, -⟩ := bind_eq_ok.1 hop
    obtain ⟨shard, hs, hr, -⟩ := RegionManager.finishRotation_eq_ok h₁
    exact ⟨shard, hs, hr⟩
  | finishReclaim r =>
    obtain ⟨⟨⟩, m₁, h₁, -⟩ := bind_eq_ok.1 hop
    obtain ⟨position, region, hposition, -⟩ := RegionManager.finishReclaim_eq_ok h₁
    exact List.mem_of_getElem? hposition
  | _ => trivial

/-- An operation with any other receipt is refused without an effect. -/
lemma ManagerOp.run_stale (hinv : ManagerInv m) {op : ManagerOp} (hstale : ¬ op.Outstanding m) :
    ∃ e, op.run m = .error e m := by
  cases hop : op.run m with
  | ok events m' => exact absurd (outstanding_of_ok hop) hstale
  | error e m' =>
    rcases (run_error hinv hop).1 with rfl | ⟨-, ⟨shardId, n, rfl⟩, -⟩
    · exact ⟨e, rfl⟩
    · exact absurd trivial hstale

/-- Finished rotations and reclaims: their numbers are below the counter, no shard is still in the
rotation, and the Region is no longer of the reclaimed generation. -/
structure FinishedInv (m : RegionManager) (history : List ManagerEvent) : Prop where
  rotated : ∀ r, .rotated r ∈ history → r.activatedCreatedSeqno < m.nextSeqno ∧
    ∀ shard ∈ m.appendStates, shard.rotation ≠ some r
  reclaimed : ∀ r, .reclaimed r ∈ history → r.createdSeqno < m.nextSeqno ∧
    ∀ region, m.regions[r.regionId]? = some region → region.state ≠ .free →
      region.createdSeqno ≠ r.createdSeqno

/-- What is finished stays so while Regions are kept, activated or freed, and shards only begin
rotations with new numbers. -/
lemma FinishedInv.keep (h : FinishedInv m history) (hle : m.nextSeqno ≤ m'.nextSeqno)
    (hgeneration : ∀ {id : ℕ} {region' : RegionDesc}, m'.regions[id]? = some region' →
      GenerationStep m m' events id region')
    (hshards : ∀ shard' ∈ m'.appendStates, ∀ r, shard'.rotation = some r →
      (∃ shard ∈ m.appendStates, shard.rotation = some r) ∨
        m.nextSeqno ≤ r.activatedCreatedSeqno) : FinishedInv m' history := by
  refine ⟨fun r hr => ?_, fun r hr => ?_⟩
  · obtain ⟨hlt, hnone⟩ := h.rotated r hr
    refine ⟨hlt.trans_le hle, fun shard' hshard' hrot => ?_⟩
    rcases hshards shard' hshard' r hrot with ⟨shard, hshard, hrot⟩ | hge
    · exact hnone shard hshard hrot
    · omega
  · obtain ⟨hlt, hne⟩ := h.reclaimed r hr
    refine ⟨hlt.trans_le hle, fun region' hregion' hstate => ?_⟩
    cases hgeneration hregion' with
    | kept hold hcreated hfree =>
      rw [hcreated]
      exact hne _ hold fun h => hstate (hfree h)
    | activated hlow _ _ => omega
    | freed hfree => exact absurd (congrArg RegionDesc.state hfree) hstate

/-- Events that finish nothing. -/
lemma FinishedInv.append (h : FinishedInv m history)
    (hrotated : ∀ r, .rotated r ∉ events) (hreclaimed : ∀ r, .reclaimed r ∉ events) :
    FinishedInv m (history ++ events) := by
  refine ⟨fun r hr => ?_, fun r hr => ?_⟩
  · exact h.rotated r ((List.mem_append.1 hr).resolve_right (hrotated r))
  · exact h.reclaimed r ((List.mem_append.1 hr).resolve_right (hreclaimed r))

/-- Finishing a rotation. -/
lemma FinishedInv.rotate (h : FinishedInv m history) (hinv : ManagerInv m)
    {shard : AppendShardState} {r : RegionRotationReceipt}
    (hshard : m.appendStates[r.shardId]? = some shard) (hr : shard.rotation = some r) :
    FinishedInv (m.rotated shard r) (history ++ [.rotated r]) := by
  -- a shard in a rotation was in it before, and is not the one that has finished
  have hold : ∀ shard' ∈ (m.rotated shard r).appendStates, ∀ r', shard'.rotation = some r' →
      (∃ shard ∈ m.appendStates, shard.rotation = some r') ∧ r' ≠ r := by
    intro shard' hshard' r' hr'
    obtain ⟨s, hs⟩ := List.mem_iff_getElem?.1 hshard'
    by_cases heq : s = r.shardId
    · subst heq
      have hself := List.getElem?_set_self (a := { shard with rotation := none })
        (List.getElem?_eq_some_iff.1 hshard).1
      obtain rfl := Option.some.inj (hself.symm.trans hs)
      cases hr'
    · have hs' := (List.getElem?_set_ne (Ne.symm heq)).symm.trans hs
      obtain ⟨regionId, region, hat⟩ := hinv.exists_shardAt hs'
      refine ⟨⟨shard', List.mem_of_getElem? hs', hr'⟩, fun hrr => heq ?_⟩
      rw [← hrr]
      exact ((hinv.shards hat).rotation r' hr').1.symm
  have hkeep : FinishedInv (m.rotated shard r) history :=
    ⟨fun r' hr' => ⟨(h.rotated r' hr').1, fun shard' hshard' hrot => by
      obtain ⟨⟨sh, hsh, hrot⟩, -⟩ := hold shard' hshard' r' hrot
      exact (h.rotated r' hr').2 sh hsh hrot⟩, h.reclaimed⟩
  refine ⟨fun r' hr' => ?_, fun r' hr' => hkeep.reclaimed r' (by simpa using hr')⟩
  rcases List.mem_append.1 hr' with hr' | hr'
  · exact hkeep.rotated r' hr'
  · obtain rfl := ManagerEvent.rotated.inj (List.mem_singleton.1 hr')
    obtain ⟨regionId, region, hat⟩ := hinv.exists_shardAt hshard
    have hlt := (hinv.shards hat).created_lt
    rw [← ((hinv.shards hat).rotation r' hr).2.2.1] at hlt
    exact ⟨hlt, fun shard' hshard' hrot => (hold shard' hshard' r' hrot).2 rfl⟩

/-- Steps keep track of what is finished. -/
lemma FinishedInv.step (h : FinishedInv m history) (hinv : ManagerInv m)
    (hstep : ManagerStep m events m') : FinishedInv m' (history ++ events) := by
  have hkeep : (∀ shard' ∈ m'.appendStates, ∀ r, shard'.rotation = some r →
      (∃ shard ∈ m.appendStates, shard.rotation = some r) ∨
        m.nextSeqno ≤ r.activatedCreatedSeqno) → FinishedInv m' history :=
    h.keep hstep.issuedSeqnos_eq.1 (hstep.generation hinv)
  cases hstep with
  | unchanged => simpa using h
  | sequenced hnext =>
    exact (hkeep fun shard hs r hr => .inl ⟨shard, hs, hr⟩).append (by simp) (by simp)
  | shard hat hshard =>
    refine (hkeep fun sh hsh r hr => ?_).append (fun r => by cases hshard <;> simp)
      (fun r => by cases hshard <;> simp)
    rcases List.mem_or_eq_of_mem_set hsh with hmem | rfl
    · exact .inl ⟨sh, hmem, hr⟩
    · exact .inl ⟨_, List.mem_of_getElem? hat.shard_eq, hshard.frame.2.1.symm.trans hr⟩
  | rotating hat hidle hold hfree hvictim hnext hcreated =>
    refine (hkeep fun sh hsh r hr => ?_).append (by simp) (by simp)
    rcases List.mem_or_eq_of_mem_set hsh with hmem | rfl
    · exact .inl ⟨sh, hmem, hr⟩
    · obtain rfl := Option.some.inj hr
      exact .inr hcreated.ge
  | rotated hshard hr => exact h.rotate hinv hshard hr
  | reclaiming hneeded hsealed hregion =>
    exact (hkeep fun shard hs r hr => .inl ⟨shard, hs, hr⟩).append (by simp) (by simp)
  | @reclaimed position r region hposition hregion =>
    have hkept := hkeep fun shard hs r hr => .inl ⟨shard, hs, hr⟩
    refine ⟨fun r' hr' => hkept.rotated r' (by simpa using hr'), fun r' hr' => ?_⟩
    rcases List.mem_append.1 hr' with hr' | hr'
    · exact hkept.reclaimed r' hr'
    · obtain rfl := ManagerEvent.reclaimed.inj (List.mem_singleton.1 hr')
      obtain ⟨desc, hdesc, -, hreceipt⟩ := hinv.reclaiming r' (List.mem_of_getElem? hposition)
      refine ⟨?_, fun region' hregion' hstate => ?_⟩
      · rw [hreceipt]
        exact (hinv.regions desc (List.mem_of_getElem? hdesc)).1
      · have hself := List.getElem?_set_self (a := RegionDesc.empty .free 0)
          (List.getElem?_eq_some_iff.1 hregion).1
        exact absurd (congrArg RegionDesc.state (Option.some.inj (hregion'.symm.trans hself)))
          hstate

/-- What a reachable manager has finished. -/
lemma ManagerReachable.finished (h : ManagerReachable m history) : FinishedInv m history := by
  induction h with
  | cold _ _ => exact ⟨fun r hr => by simp at hr, fun r hr => by simp at hr⟩
  | ok h hop ih => exact ih.step h.inv (ManagerOp.run_ok h.inv hop)
  | error h hop ih =>
    have := ih.step h.inv (ManagerOp.step_of_error h.inv hop)
    rwa [List.append_nil] at this
  | configured _ hop ih =>
    obtain ⟨-, -, rfl⟩ := RegionManager.configureReclaimWorkers_eq_ok hop
    exact ⟨ih.rotated, ih.reclaimed⟩
  | restarted h hop ih =>
    obtain ⟨⟨metadata, -, hr⟩, hre⟩ := RegionManager.restart_eq_ok h.inv.bounded hop
    refine (ih.keep hre.nextSeqno_le hre.generation fun shard hshard r hrot => ?_).append (by simp)
      (by simp)
    rw [hr.idle hshard] at hrot
    cases hrot

/-- A Region that a shard writes to has the generation of an event about it, or is newer. -/
lemma ManagerReachable.generation_eq (h : ManagerReachable m history) {event : ManagerEvent}
    (hevent : event ∈ history) {id generation : ℕ}
    (hsubject : event.subject = some (id, generation))
    {s : ℕ} {shard : AppendShardState} {region : RegionDesc} (hat : m.ShardAt s shard id region)
    (hmax : region.createdSeqno ≤ event.maxSeqno) :
    event ∈ generationLog history id region.createdSeqno := by
  have hne : region.state ≠ .free := by
    rw [(h.inv.shards hat).active]
    decide
  obtain ⟨-, -, horder⟩ := h.generationOrder event hevent id generation hsubject
  rcases horder region hat.region_eq hne with rfl | hlt
  · exact List.mem_filter.2 ⟨hevent, by simpa using hsubject⟩
  · omega

/-- **Receipts.** A receipt that has been used is not outstanding.

**Proof sketch.** A staged record ends where the tail begins, and a submitted or completed span
ends before the outstanding one does; what is of an older generation has smaller numbers. -/
theorem ManagerReachable.used_not_outstanding (h : ManagerReachable m history)
    {event : ManagerEvent} (hevent : event ∈ history) {op : ManagerOp}
    (hused : event.used = some op) : ¬ op.Outstanding m := by
  have hinv := h.inv
  cases event with
  | staged r =>
    obtain rfl := Option.some.inj hused
    intro hout
    obtain ⟨shard, hs, htail⟩ := hout
    obtain ⟨regionId, region, hat⟩ := hinv.exists_shardAt hs
    obtain ⟨-, rfl, -, hoff, hpos, -, hcreated, -⟩ := (hinv.shards hat).tail r htail
    have hmem := h.generation_eq hevent rfl hat hcreated
    have hrecord := ((h.ledger.shards hat).records r
      (List.mem_filterMap.2 ⟨_, hmem, rfl⟩)).2
    omega
  | submitted generation padding span =>
    cases padding with
    | none => cases hused
    | some p =>
      obtain rfl := Option.some.inj hused
      intro hout
      obtain ⟨shard, hs, hp⟩ := hout
      obtain ⟨regionId, region, hat⟩ := hinv.exists_shardAt hs
      obtain ⟨-, o, hopen, -, hlt, -, hp'⟩ := (hinv.shards hat).padding p hp
      obtain ⟨-, hostart, holt, -, -, hcreated, -⟩ := (hinv.shards hat).opened o hopen
      have hpid : p.regionId = regionId := by rw [hp']
      have hpmax : p.maxSeqno = o.maxSeqno := by rw [hp']
      -- the event is in the log of its own generation, which fixes the receipt
      obtain ⟨sh, desc, hown⟩ := h.ledger.every span.regionId generation
      obtain ⟨-, hid, hend, hmax⟩ := hown.paddings generation p span
        (List.mem_filter.2 ⟨hevent, by simp [ManagerEvent.subject]⟩)
      have hspan : span.regionId = regionId := hid.symm.trans hpid
      have hmem := h.generation_eq hevent (by rw [ManagerEvent.subject, hspan]) hat
        (show region.createdSeqno ≤ span.maxSeqno by omega)
      have hle := ((h.ledger.shards hat).submitted_le (hinv.shards hat)
        (List.mem_filterMap.2 ⟨_, hmem, rfl⟩)).2
      omega
  | completed generation span =>
    obtain rfl := Option.some.inj hused
    intro hout
    obtain ⟨shard, hs, hspan⟩ := hout
    obtain ⟨regionId, region, hat⟩ := hinv.exists_shardAt hs
    obtain ⟨-, rfl, hstart, hlt, -, -, hcreated, -⟩ := (hinv.shards hat).submitted span hspan
    have hmem := h.generation_eq hevent rfl hat hcreated
    have hle := ((h.ledger.shards hat).completed.mem_range (List.mem_map_of_mem
      (List.mem_filterMap.2 ⟨_, hmem, rfl⟩))).2.2
    have : span.endOffset ≤ region.completedUsed := hle
    omega
  | rotated r =>
    obtain rfl := Option.some.inj hused
    intro hout
    obtain ⟨shard, hs, hr⟩ := hout
    exact (h.finished.rotated r hevent).2 shard (List.mem_of_getElem? hs) hr
  | reclaimed r =>
    obtain rfl := Option.some.inj hused
    intro hout
    obtain ⟨region, hregion, ⟨hstate, -⟩, hreceipt⟩ := hinv.reclaiming r hout
    refine (h.finished.reclaimed r hevent).2 region hregion (by rw [hstate]; decide) ?_
    rw [hreceipt]
  | _ => cases hused

end Receipts

/-! ## Append-space safety -/

/-- The bytes of a shard's outstanding work: the submitted span, the open span, the tail reservation
and the padding. -/
def AppendShardState.pieces (shard : AppendShardState) : List (ℕ × ℕ) :=
  (shard.submittedSpan.map RegionWriteSpan.bounds).toList ++
    (shard.openSpan.map fun o => (o.startOffset, o.endOffset)).toList ++
    (shard.tail.map fun r => (r.offset, r.offset + r.recordBytes)).toList ++
    (shard.pendingPadding.map fun p => (p.unpaddedEndOffset, p.paddedEndOffset)).toList

/-- The outstanding work of a shard tiles its Region from the completed prefix to the reserved
mark. -/
lemma ShardInv.tiles {size next shardId regionId : ℕ} {shard : AppendShardState}
    {region : RegionDesc} (h : ShardInv size next shardId shard regionId region) :
    Tiles region.completedUsed shard.pieces region.reservedUsed := by
  have hsubmitted : Tiles region.completedUsed
      (shard.submittedSpan.map RegionWriteSpan.bounds).toList
      (shard.submittedEnd region.completedUsed) := by
    unfold AppendShardState.submittedEnd
    cases hs : shard.submittedSpan with
    | none => rfl
    | some span =>
      obtain ⟨-, -, hstart, hlt, -⟩ := h.submitted span hs
      exact ⟨hstart, hlt, rfl⟩
  have hopened : Tiles (shard.submittedEnd region.completedUsed)
      (shard.openSpan.map fun o => (o.startOffset, o.endOffset)).toList
      (shard.openEnd region.completedUsed) := by
    unfold AppendShardState.openEnd
    cases ho : shard.openSpan with
    | none => rfl
    | some o =>
      obtain ⟨-, hstart, hlt, -⟩ := h.opened o ho
      exact ⟨hstart, hlt, rfl⟩
  have hrest : Tiles (shard.openEnd region.completedUsed)
      ((shard.tail.map fun r => (r.offset, r.offset + r.recordBytes)).toList ++
        (shard.pendingPadding.map fun p => (p.unpaddedEndOffset, p.paddedEndOffset)).toList)
      region.reservedUsed := by
    rw [h.reserved_eq, AppendShardState.reservedEnd]
    cases ht : shard.tail with
    | some r =>
      obtain ⟨-, -, -, hoff, hpos, -, -, -, -, hp⟩ := h.tail r ht
      rw [hp]
      exact ⟨hoff, Nat.lt_add_of_pos_right hpos, rfl⟩
    | none =>
      cases hp : shard.pendingPadding with
      | none => rfl
      | some p =>
        obtain ⟨-, o, ho, -, hlt, -, hp'⟩ := h.padding p hp
        have hunpadded : p.unpaddedEndOffset = o.endOffset := by rw [hp']
        have hend : shard.openEnd region.completedUsed = o.endOffset := by
          rw [AppendShardState.openEnd, ho]
          rfl
        exact ⟨hunpadded.trans hend.symm, hunpadded.trans_lt hlt, rfl⟩
  rw [AppendShardState.pieces, List.append_assoc]
  exact Tiles.append hrest (Tiles.append hopened hsubmitted)

/-- Where a shard's outstanding work lies. -/
structure ShardSpace (size : ℕ) (shard : AppendShardState) (region : RegionDesc) : Prop where
  tiles : Tiles region.completedUsed shard.pieces region.reservedUsed
  reserved_le : region.reservedUsed ≤ size
  completed_aligned : region.completedUsed % 4096 = 0
  submitted_aligned : ∀ span, shard.submittedSpan = some span →
    span.startOffset % 4096 = 0 ∧ span.endOffset % 4096 = 0
  opened_aligned : ∀ o, shard.openSpan = some o → o.startOffset % 4096 = 0
  tail_aligned : ∀ r, shard.tail = some r → r.offset % 32 = 0

/-- Append space is safe: outstanding work is contiguous, aligned and within its Region, bytes are
reserved once, records are counted when they complete, in the order of submission, and only
outstanding receipts are accepted. -/
structure AppendSpace (m : RegionManager) (history : List ManagerEvent) : Prop where
  shards : ∀ (shardId : ℕ) (shard : AppendShardState), m.appendStates[shardId]? = some shard →
    ∃ regionId region, m.ShardAt shardId shard regionId region ∧
      ShardSpace m.regionSize shard region
  spans_aligned : ∀ generation padding span, .submitted generation padding span ∈ history →
    span.startOffset % 4096 = 0 ∧ span.endOffset % 4096 = 0
  offsets_aligned : ∀ r, .reserved r ∈ history → r.offset % 32 = 0
  reserved_once : ∀ id generation : ℕ,
    (reservedBytes (generationLog history id generation)).Pairwise fun a b => a.2 ≤ b.1
  completed_prefix : ∀ (id : ℕ) (region : RegionDesc), m.regions[id]? = some region →
    region.state ≠ .free →
    Tiles 0 ((completedSpans (generationLog history id region.createdSeqno)).map
      RegionWriteSpan.bounds) region.completedUsed
  record_count : ∀ (id : ℕ) (region : RegionDesc), m.regions[id]? = some region →
    region.state ≠ .free →
    region.physicalRecordCount =
      ((completedSpans (generationLog history id region.createdSeqno)).map fun span =>
        recordsIn (generationLog history id region.createdSeqno) span.startOffset
          span.endOffset).sum
  in_order : ∀ id generation : ℕ, completedSpans (generationLog history id generation) <+:
    submittedSpans (generationLog history id generation)
  stale : ∀ op : ManagerOp, ¬ op.Outstanding m → ∃ e, op.run m = .error e m
  used : ∀ event ∈ history, ∀ op, event.used = some op → ¬ op.Outstanding m

/-- The log of a Region in use. -/
lemma ManagerReachable.region_ledger {m : RegionManager} {history : List ManagerEvent}
    (h : ManagerReachable m history) {id : ℕ} {region : RegionDesc}
    (hregion : m.regions[id]? = some region) (hne : region.state ≠ .free) :
    ∃ shard, ShardLedger (generationLog history id region.createdSeqno) shard region := by
  rcases h.inv.place_cases hregion with ⟨-, s, shard, hat⟩ | hempty | hretired
  · exact ⟨shard, h.ledger.shards hat⟩
  · exact absurd (congrArg RegionDesc.state hempty) hne
  · exact ⟨{}, h.ledger.retired hregion hretired⟩

/-- **Append-space safety.** In every manager that a run reaches, from an empty data file through
any operations and restarts, the completed prefix, the submitted span, the open span and the tail
reservation or padding of every shard follow one another up to the reserved mark, which stays within
the Region; spans are aligned to device pages and records to their alignment; no byte of a
generation is reserved twice; a Region counts the records of its completed spans, which complete in
the order of submission; and every receipt that is not outstanding, in particular every used one, is
refused without an effect. -/
theorem regionManager_appendSpace {m : RegionManager} {history : List ManagerEvent}
    (h : ManagerReachable m history) : AppendSpace m history := by
  have hinv := h.inv
  refine ⟨fun shardId shard hs => ?_, fun generation padding span hspan => ?_, fun r hr => ?_,
    fun id generation => ?_, fun id region hregion hne => ?_, fun id region hregion hne => ?_,
    fun id generation => ?_, fun op => ManagerOp.run_stale hinv,
    fun event hevent op hop => h.used_not_outstanding hevent hop⟩
  · obtain ⟨regionId, region, hat⟩ := hinv.exists_shardAt hs
    have hshard := hinv.shards hat
    refine ⟨regionId, region, hat, hshard.tiles, hshard.reserved_le, hshard.completed_aligned,
      fun span hspan => ?_, fun o ho => ?_, fun r hr => ?_⟩
    · obtain ⟨-, -, hstart, -, hend, -⟩ := hshard.submitted span hspan
      exact ⟨hstart ▸ hshard.completed_aligned, hend⟩
    · rw [(hshard.opened o ho).2.1]
      exact hshard.submittedEnd_aligned
    · rw [(hshard.tail r hr).2.2.2.1]
      exact hshard.openEnd_aligned
  · obtain ⟨shard, region, hledger⟩ := h.ledger.every span.regionId generation
    have hmem := hledger.spans span (List.mem_filterMap.2
      ⟨_, List.mem_filter.2 ⟨hspan, by simp [ManagerEvent.subject]⟩, rfl⟩)
    exact ⟨hmem.1, hmem.2.1⟩
  · obtain ⟨shard, region, hledger⟩ := h.ledger.every r.regionId r.regionCreatedSeqno
    exact hledger.offsets r (List.mem_filter.2 ⟨hr, by simp [ManagerEvent.subject]⟩)
  · obtain ⟨shard, region, hledger⟩ := h.ledger.every id generation
    exact hledger.reserved.pairwise
  · obtain ⟨shard, hledger⟩ := h.region_ledger hregion hne
    exact hledger.completed
  · obtain ⟨shard, hledger⟩ := h.region_ledger hregion hne
    rw [hledger.counted]
    congr 1
    refine List.map_congr_left fun span hspan => (hledger.spans span ?_).2.2
    rw [hledger.submitted]
    exact List.mem_append_left _ hspan
  · obtain ⟨shard, region, hledger⟩ := h.ledger.every id generation
    rw [hledger.submitted]
    exact List.prefix_append _ _

/-- A span of the sample has been completed, and cannot be completed again. -/
theorem regionManager_appendSpace_sample :
    ManagerEvent.completed 1 ⟨0, 0, 0, 4096, 2, 3⟩ ∈ sampleFilledHistory ∧
      AppendSpace sampleFilled sampleFilledHistory ∧
      ∃ e, (ManagerOp.completeWriteSpan ⟨0, 0, 0, 4096, 2, 3⟩).run sampleFilled =
        .error e sampleFilled := by
  have hspace := regionManager_appendSpace sampleFilled_reachable
  have hmem : ManagerEvent.completed 1 ⟨0, 0, 0, 4096, 2, 3⟩ ∈ sampleFilledHistory := by
    decide +kernel
  exact ⟨hmem, hspace, hspace.stale _ (hspace.used _ hmem _ rfl)⟩

end Cache2
