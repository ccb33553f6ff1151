import Cache2.Region.StoreRuns

set_option relaxedAutoImplicit false
set_option autoImplicit false

/-!
# Rotation

An append that the staging buffer refuses asks for a rotation when its record does not fit behind
the bytes reserved so far, once these are padded to a device page. The forecast is made before
anything is padded or written, so it is compared here with what a flush of the shard leaves. The
request is a flag of the shard; it stays until a rotation begins, and is used up by it.

## Main definitions

* `Cache2.RegionManager.flushShard` — a flush of all that a shard has outstanding, by the
  operations of the append path.

## Main results

* `Cache2.flushShard_ok` — a flush succeeds and leaves the reserved bytes, padded.
* `Cache2.rotation_account` — every retained request is used up by one rotation.
* `Cache2.rotationForecast` — the forecast agrees with the outcome.
-/

namespace Cache2

open Loop

namespace RegionManager

/-! ## A flush -/

/-- Stages the tail of a shard. -/
def stageTail (shardId : ℕ) : ManagerM Unit := do
  let m ← get
  match m.appendStates[shardId]?.bind (·.tail) with
  | some receipt => stageReservation receipt
  | none => pure ()

/-- Completes the submitted span of a shard. -/
def completeSubmitted (shardId : ℕ) : ManagerM Unit := do
  let m ← get
  match m.appendStates[shardId]?.bind (·.submittedSpan) with
  | some span => completeWriteSpan span
  | none => pure ()

/-- Submits an open span with the padding it needs. -/
def sealPadded (shardId : ℕ) : Option RegionPaddingReceipt → ManagerM RegionWriteSpan
  | some padding => sealWriteSpanWithPadding padding
  | none => sealWriteSpan shardId

/-- Pads and submits the open span of a shard. -/
def submitOpened (shardId : ℕ) : ManagerM Unit := do
  let m ← get
  let shard ← okOr .invalidShard m.appendStates[shardId]?
  match shard.openSpan, shard.pendingPadding with
  | none, _ => pure ()
  | some _, some padding => do
    let _ ← sealWriteSpanWithPadding padding
    pure ()
  | some _, none => do
    let padding ← reserveWritePadding shardId
    let _ ← sealPadded shardId padding
    pure ()

/-- A flush of everything that a shard has outstanding. -/
def flushShard (shardId : ℕ) : ManagerM Unit := do
  stageTail shardId
  completeSubmitted shardId
  submitOpened shardId
  completeSubmitted shardId

/-- The end of the device page that an offset lies in. -/
def paddedEnd (offset : ℕ) : ℕ := offset + alignmentPadding offset

/-- A padded end is aligned and less than a page away. -/
lemma paddedEnd_spec (offset : ℕ) : offset ≤ paddedEnd offset ∧ paddedEnd offset % 4096 = 0 ∧
    paddedEnd offset < offset + 4096 := by
  rw [paddedEnd, alignmentPadding_eq]
  omega

/-- An aligned offset is its own padded end. -/
lemma paddedEnd_of_aligned {offset : ℕ} (h : offset % 4096 = 0) : paddedEnd offset = offset := by
  rw [paddedEnd, alignmentPadding_eq]
  omega

/-- The padded end stays in a Region of whole pages. -/
lemma paddedEnd_le {offset size : ℕ} (hsize : size % 4096 = 0) (hle : offset ≤ size) :
    paddedEnd offset ≤ size := by
  have := paddedEnd_spec offset
  omega

end RegionManager

/-! ## What a flush leaves -/

section Flush

open RegionManager

variable {m m₁ : RegionManager} {s id : ℕ} {shard shard₁ shard₂ : AppendShardState}
  {region region₁ region₂ : RegionDesc}

/-- A manager in which only one shard and its Region have moved on, without reserving more than
padding. -/
structure Flushing (s id : ℕ) (m : RegionManager) (shard : AppendShardState) (region : RegionDesc)
    (m₁ : RegionManager) (shard₁ : AppendShardState) (region₁ : RegionDesc) : Prop where
  eq_put : m₁ = m.put s id shard₁ region₁ m.nextSeqno
  shardAt : m₁.ShardAt s shard₁ id region₁
  inv : ManagerInv m₁
  space : RecordSpace 32 m₁
  rotation : shard₁.rotation = shard.rotation
  requested : shard₁.rotationRequested = shard.rotationRequested
  padded : paddedEnd region₁.reservedUsed = paddedEnd region.reservedUsed

/-- Nothing has moved. -/
lemma Flushing.refl (hinv : ManagerInv m) (hspace : RecordSpace 32 m)
    (hat : m.ShardAt s shard id region) : Flushing s id m shard region m shard region :=
  ⟨hat.put_self.symm, hat, hinv, hspace, rfl, rfl, rfl⟩

/-- One more step of the append path, which reserves no record. -/
lemma Flushing.step {events : List ManagerEvent}
    (h : Flushing s id m shard region m₁ shard₁ region₁)
    (hstep : ShardStep m₁.regionSize s id shard₁ region₁ m₁.nextSeqno events shard₂ region₂
      m₁.nextSeqno)
    (hnone : ∀ r, .reserved r ∉ events)
    (hrequested : shard₂.rotationRequested = shard₁.rotationRequested)
    (hpadded : paddedEnd region₂.reservedUsed = paddedEnd region₁.reservedUsed) :
    Flushing s id m shard region (m₁.put s id shard₂ region₂ m₁.nextSeqno) shard₂ region₂ := by
  have hput := ManagerStep.shard h.shardAt hstep
  refine ⟨?_, ⟨?_, h.shardAt.active_eq, ?_⟩, hput.inv h.inv,
    h.space.step h.inv hput fun r hr => absurd hr (hnone r), hstep.frame.2.1.trans h.rotation,
    hrequested.trans h.requested, hpadded.trans h.padded⟩
  · rw [h.eq_put]
    simp only [put, List.set_set]
  · exact List.getElem?_set_self (List.getElem?_eq_some_iff.1 h.shardAt.shard_eq).1
  · exact List.getElem?_set_self (List.getElem?_eq_some_iff.1 h.shardAt.region_eq).1

/-- The records that a Region counts and a shard has outstanding are far from overflowing. -/
lemma RecordSpace.count_lt (hspace : RecordSpace 32 m) (hinv : ManagerInv m)
    (hat : m.ShardAt s shard id region) :
    region.physicalRecordCount + shard.outstandingRecords < 2 ^ 32 := by
  have h1 := hspace.shards hat
  have h2 := (hinv.shards hat).reserved_le
  have h3 : m.regionSize ≤ 2 ^ 25 := hinv.size_le
  omega

/-- Staging the tail succeeds. -/
lemma stageTail_ok (h : Flushing s id m shard region m₁ shard₁ region₁) :
    ∃ m₂ shard₂ region₂, stageTail s m₁ = .ok () m₂ ∧
      Flushing s id m shard region m₂ shard₂ region₂ ∧ shard₂.tail = none := by
  rw [stageTail, get_bind, h.shardAt.shard_eq, Option.bind_some]
  cases ht : shard₁.tail with
  | none => exact ⟨m₁, shard₁, region₁, rfl, h, ht⟩
  | some r =>
    have hinv := h.inv.shards h.shardAt
    obtain ⟨rfl, rfl, -, hoff, hpos, -, -, -, hlast, -⟩ := hinv.tail r ht
    have hcount := h.space.count_lt h.inv h.shardAt
    have hend : region₁.reservedUsed = r.offset + r.recordBytes := by
      rw [hinv.reserved_eq, AppendShardState.reservedEnd, ht]
    have hsize : m₁.regionSize ≤ 2 ^ 25 := h.inv.size_le
    have hle := hinv.reserved_le
    -- the record continues the open span
    obtain ⟨span, hspan⟩ : ∃ span,
        nextSpan r (r.offset + r.recordBytes) shard₁.openSpan = .ok span := by
      cases ho : shard₁.openSpan with
      | none => exact ⟨_, nextSpan_eq_ok.2 (.inl ⟨rfl, rfl⟩)⟩
      | some o =>
        rw [AppendShardState.openEnd, ho] at hoff
        rw [AppendShardState.outstandingRecords, ho, ht] at hcount
        simp only [Option.map_some, Option.getD_some] at hcount
        exact ⟨_, nextSpan_eq_ok.2 (.inr ⟨o, rfl, ⟨(hinv.opened o ho).1, hoff.symm, hlast o ho⟩,
          by omega, rfl⟩)⟩
    have hflush := h.step (.staged ht hspan) (by simp) rfl rfl
    rw [← h.shardAt.setShard_eq] at hflush
    exact ⟨_, _, region₁, stageReservation_eq_ok.2
      ⟨shard₁, span, h.shardAt.shard_eq, ht, by omega, hspan, rfl⟩, hflush, rfl⟩

/-- Completing the submitted span succeeds. -/
lemma completeSubmitted_ok (h : Flushing s id m shard region m₁ shard₁ region₁) :
    ∃ m₂ region₂, completeSubmitted s m₁ = .ok () m₂ ∧
      Flushing s id m shard region m₂ { shard₁ with submittedSpan := none } region₂ := by
  rw [completeSubmitted, get_bind, h.shardAt.shard_eq, Option.bind_some]
  cases hs : shard₁.submittedSpan with
  | none =>
    have hsame : { shard₁ with submittedSpan := none } = shard₁ := by rw [← hs]
    rw [hsame]
    exact ⟨m₁, region₁, rfl, h⟩
  | some span =>
    have hinv := h.inv.shards h.shardAt
    obtain ⟨rfl, rfl, hstart, hlt, -, hpos, hcreated, -⟩ := hinv.submitted span hs
    have hcount := h.space.count_lt h.inv h.shardAt
    rw [AppendShardState.outstandingRecords, hs] at hcount
    simp only [Option.map_some, Option.getD_some] at hcount
    -- a submitted span ends inside the reserved bytes
    have hend : span.endOffset ≤ region₁.reservedUsed := by
      have hsub : shard₁.submittedEnd region₁.completedUsed = span.endOffset := by
        rw [AppendShardState.submittedEnd, hs]
        rfl
      have hopen : shard₁.submittedEnd region₁.completedUsed ≤
          shard₁.openEnd region₁.completedUsed := by
        rw [AppendShardState.openEnd]
        cases ho : shard₁.openSpan with
        | none => exact le_rfl
        | some o =>
          obtain ⟨-, hostart, holt, -⟩ := hinv.opened o ho
          exact hostart ▸ holt.le
      rw [hinv.reserved_eq, AppendShardState.reservedEnd]
      cases ht : shard₁.tail with
      | some r =>
        have := (hinv.tail r ht).2.2.2.1
        dsimp only
        omega
      | none =>
        cases hp : shard₁.pendingPadding with
        | some p => exact absurd ((hinv.padding p hp).1.symm.trans hs) (by simp)
        | none => exact hsub ▸ hopen
    have hflush := h.step (.completed hs hstart.symm hend (by omega)) (by simp) rfl rfl
    exact ⟨_, _, completeWriteSpan_eq_ok.2 ⟨shard₁, region₁, h.shardAt, hs, ⟨hinv.active, hcreated,
      hstart.symm, hend, hlt, hpos.ne'⟩, by omega, rfl⟩, hflush⟩

/-- Submitting an open span with the padding that has been reserved succeeds. -/
lemma sealWriteSpanWithPadding_ok (h : Flushing s id m shard region m₁ shard₁ region₁)
    {o : OpenWriteSpan} {p : RegionPaddingReceipt} (ho : shard₁.openSpan = some o)
    (hp : shard₁.pendingPadding = some p) (ht : shard₁.tail = none)
    (hr : shard₁.rotation = none) :
    ∃ span m₂, sealWriteSpanWithPadding p m₁ = .ok span m₂ ∧
      Flushing s id m shard region m₂ (submitted s p.paddedEndOffset shard₁ o) region₁ := by
  have hinv := h.inv.shards h.shardAt
  obtain ⟨hs, o', ho', hal, hlt, hpage, hpeq⟩ := hinv.padding p hp
  obtain rfl := Option.some.inj (ho'.symm.trans ho)
  obtain ⟨hid, hstart, hopen, -, hcount, hcreated, -⟩ := hinv.opened o' ho
  have hres : region₁.reservedUsed = p.paddedEndOffset := by
    rw [hinv.reserved_eq, AppendShardState.reservedEnd, ht, hp]
  have hbytes : p.paddingBytes = some (p.paddedEndOffset - o'.endOffset) := by
    rw [RegionPaddingReceipt.paddingBytes, hpeq]
    dsimp only
    rw [Word.checkedSub_of_le hlt.le, Option.filter_some, if_pos (by simpa using by omega)]
  have hsal : o'.startOffset % 4096 = 0 := hstart ▸ hinv.submittedEnd_aligned
  have hshard : p.shardId = s := by rw [hpeq]
  have hregion : p.regionId = id := by rw [hpeq]
  refine ⟨_, _, sealWriteSpanWithPadding_eq_ok.2 ⟨shard₁, o', region₁, ?_, ho, hp, ⟨ht, hr, hs⟩,
    ?_, ⟨_, hbytes, by omega, ?_⟩, ⟨hinv.active, ?_, hres⟩, ⟨hsal, hal, by omega⟩, rfl, rfl⟩, ?_⟩
  · rw [hshard, hregion]
    exact h.shardAt
  · rw [hpeq]
    exact ⟨hid, rfl, rfl, rfl, rfl⟩
  · rw [directIoAlignment]
    omega
  · rw [hpeq]
    exact hcreated
  · rw [hshard, h.shardAt.setShard_eq]
    refine h.step (.submitted ho hp ⟨ht, hs, hr⟩ hsal hal (by omega) rfl) (by simp) rfl rfl

/-- Padding and submitting the open span succeeds when nothing before it is outstanding. -/
lemma submitOpened_ok (h : Flushing s id m shard region m₁ shard₁ region₁)
    (ht : shard₁.tail = none) (hs : shard₁.submittedSpan = none) :
    ∃ m₂ shard₂ region₂, submitOpened s m₁ = .ok () m₂ ∧
      Flushing s id m shard region m₂ shard₂ region₂ ∧ shard₂.tail = none ∧
      shard₂.openSpan = none ∧ shard₂.pendingPadding = none := by
  have hinv := h.inv.shards h.shardAt
  rw [submitOpened, get_bind, h.shardAt.shard_eq]
  show ∃ m₂ shard₂ region₂, (match shard₁.openSpan, shard₁.pendingPadding with
    | none, _ => pure ()
    | some _, some padding => do
      let _ ← sealWriteSpanWithPadding padding
      pure ()
    | some _, none => do
      let padding ← reserveWritePadding s
      let _ ← sealPadded s padding
      pure () : ManagerM Unit) m₁ = .ok () m₂ ∧ _
  cases ho : shard₁.openSpan with
  | none =>
    refine ⟨m₁, shard₁, region₁, rfl, h, ht, ho, ?_⟩
    cases hp : shard₁.pendingPadding with
    | none => rfl
    | some p =>
      obtain ⟨-, o, ho', -⟩ := hinv.padding p hp
      exact absurd (ho'.symm.trans ho) (by simp)
  | some o =>
    -- a shard that rotates has nothing open
    have hr : shard₁.rotation = none := by
      cases hr : shard₁.rotation with
      | none => rfl
      | some r => exact absurd ((hinv.rotation r hr).2.2.2.2.1.symm.trans ho) (by simp)
    obtain ⟨hid, hstart, hopen, hoal, hcount, hcreated, -⟩ := hinv.opened o ho
    have hsal : o.startOffset % 4096 = 0 := hstart ▸ hinv.submittedEnd_aligned
    cases hp : shard₁.pendingPadding with
    | some p =>
      obtain ⟨span, m₂, hseal, hflush⟩ := sealWriteSpanWithPadding_ok h ho hp ht hr
      exact ⟨m₂, _, region₁, bind_eq_ok.2 ⟨span, m₂, hseal, rfl⟩, hflush, ht, rfl, rfl⟩
    | none =>
      have hres : region₁.reservedUsed = o.endOffset := by
        rw [hinv.reserved_eq_openEnd ht hp, AppendShardState.openEnd, ho]
        rfl
      have hle := hres ▸ hinv.reserved_le
      have hsize := h.inv.size_aligned
      have hmax : m₁.regionSize ≤ 2 ^ 25 := h.inv.size_le
      have hpos : o.maxSeqno ≠ 0 := by
        have := hinv.created_pos
        omega
      obtain ⟨hfrom, hpal, hpage⟩ := paddedEnd_spec o.endOffset
      have hpsize := paddedEnd_le hsize hle
      have hpe : paddedEnd o.endOffset = o.endOffset + alignmentPadding o.endOffset := rfl
      have hat := hid.symm ▸ h.shardAt
      by_cases hz : alignmentPadding o.endOffset = 0
      · -- the span ends at a page
        have hpad : reserveWritePadding s m₁ = .ok none m₁ := reserveWritePadding_eq_ok.2
          ⟨shard₁, o, region₁, hat, ho, ⟨ht, hp, hs, hr⟩, ⟨hopen, hsal, hoal, hcount.ne', hpos⟩,
            ⟨hinv.active, hcreated, hres⟩, .inl ⟨hz, rfl, rfl⟩⟩
        have hend : o.endOffset % 4096 = 0 := by omega
        have hseal : sealWriteSpan s m₁ = .ok _ _ := sealWriteSpan_eq_ok.2
          ⟨shard₁, o, h.shardAt.shard_eq, ho, ⟨ht, hp, hr, hs⟩, ⟨hsal, hend, hopen⟩, rfl, rfl⟩
        have hflush := h.step (.submitted ho hp ⟨ht, hs, hr⟩ hsal hend hopen rfl) (by simp) rfl rfl
        rw [← h.shardAt.setShard_eq] at hflush
        exact ⟨_, _, region₁, bind_eq_ok.2 ⟨none, m₁, hpad, bind_eq_ok.2 ⟨_, _, hseal, rfl⟩⟩,
          hflush, ht, rfl, rfl⟩
      · -- padding is reserved first
        set p : RegionPaddingReceipt := ⟨s, o.regionId, o.startOffset, o.endOffset,
          paddedEnd o.endOffset, o.recordCount, o.maxSeqno⟩ with hpdef
        have hpad : reserveWritePadding s m₁ = .ok (some p)
            (m₁.put s id { shard₁ with pendingPadding := some p }
              { region₁ with reservedUsed := paddedEnd o.endOffset } m₁.nextSeqno) := by
          refine reserveWritePadding_eq_ok.2 ⟨shard₁, o, region₁, hat, ho, ⟨ht, hp, hs, hr⟩,
            ⟨hopen, hsal, hoal, hcount.ne', hpos⟩, ⟨hinv.active, hcreated, hres⟩,
            .inr ⟨hz, _, hpe, by omega, ⟨?_, ?_, hpal, hpsize⟩, rfl, by rw [hid]; rfl⟩⟩
          · rw [directIoAlignment]
            omega
          · rw [recordAlignment]
            omega
        have hflush := h.step (.padded ho ⟨ht, hp, hs, hr⟩ hres
          ⟨by omega, by omega, hpal, hpsize⟩) (by simp) rfl (by
            dsimp only
            rw [paddedEnd_of_aligned hpal, hres])
        obtain ⟨span, m₂, hseal, hflush⟩ := sealWriteSpanWithPadding_ok hflush ho rfl ht hr
        exact ⟨m₂, _, _, bind_eq_ok.2 ⟨some p, _, hpad, bind_eq_ok.2 ⟨span, m₂, hseal, rfl⟩⟩,
          hflush, ht, rfl, rfl⟩

/-- **Flush.** A flush of a shard succeeds. It leaves the shard without outstanding work and its
Region with everything reserved completed, up to the end of the device page; everything else is as
it was. -/
theorem flushShard_ok (hinv : ManagerInv m) (hspace : RecordSpace 32 m)
    (hat : m.ShardAt s shard id region) :
    ∃ m₁ shard₁ region₁, flushShard s m = .ok () m₁ ∧
      Flushing s id m shard region m₁ shard₁ region₁ ∧
      (shard₁.tail = none ∧ shard₁.openSpan = none ∧ shard₁.pendingPadding = none ∧
        shard₁.submittedSpan = none) ∧
      region₁.reservedUsed = paddedEnd region.reservedUsed ∧
      region₁.completedUsed = paddedEnd region.reservedUsed := by
  obtain ⟨m₁, shard₁, region₁, h₁, hflush, ht₁⟩ := stageTail_ok (.refl hinv hspace hat)
  obtain ⟨m₂, region₂, h₂, hflush⟩ := completeSubmitted_ok hflush
  obtain ⟨m₃, shard₃, region₃, h₃, hflush, ht₃, ho₃, hp₃⟩ := submitOpened_ok hflush ht₁ rfl
  obtain ⟨m₄, region₄, h₄, hflush⟩ := completeSubmitted_ok hflush
  refine ⟨m₄, _, region₄, bind_eq_ok.2 ⟨(), m₁, h₁, bind_eq_ok.2 ⟨(), m₂, h₂,
    bind_eq_ok.2 ⟨(), m₃, h₃, h₄⟩⟩⟩, hflush, ⟨ht₃, ho₃, hp₃, rfl⟩, ?_⟩
  -- without outstanding work, everything reserved is completed
  have hshard := hflush.inv.shards hflush.shardAt
  have hdone : region₄.reservedUsed = region₄.completedUsed := by
    rw [hshard.reserved_eq, AppendShardState.reservedEnd, ht₃, hp₃, AppendShardState.openEnd, ho₃,
      AppendShardState.submittedEnd]
    rfl
  have hpadded := hflush.padded
  rw [paddedEnd_of_aligned (hdone ▸ hshard.completed_aligned)] at hpadded
  exact ⟨hpadded, hdone ▸ hpadded⟩

end Flush

/-! ## The forecast -/

section Forecast

open RegionManager

variable {m : RegionManager} {s id n : ℕ} {shard : AppendShardState} {region : RegionDesc}

/-- A request for rotation is retained when the record does not fit behind the padded bytes. -/
lemma requestRotationForAppend_run (hinv : ManagerInv m) (hat : m.ShardAt s shard id region)
    (hn : n < 2 ^ 32) : requestRotationForAppend s n m =
      if m.regionSize < paddedEnd region.reservedUsed + n then
        .ok true (m.setShard s { shard with rotationRequested := true })
      else .ok false m := by
  have hsize : m.regionSize ≤ 2 ^ 25 := hinv.size_le
  have hle := (hinv.shards hat).reserved_le
  have hpad := paddedEnd_spec region.reservedUsed
  have hfinish : (Word.checkedAdd 64 region.reservedUsed
      (alignmentPadding region.reservedUsed)).bind (fun finish => Word.checkedAdd 64 finish n) =
      some (paddedEnd region.reservedUsed + n) := by
    rw [Option.bind_eq_some_iff]
    rw [paddedEnd] at hpad ⊢
    exact ⟨_, Word.checkedAdd_eq_some.2 ⟨by omega, rfl⟩, Word.checkedAdd_eq_some.2 ⟨by omega, rfl⟩⟩
  have hactive : ¬ region.state ≠ .active := not_not.2 (hinv.shards hat).active
  split_ifs with h
  · simp only [requestRotationForAppend, rejectIf_bind_eq_ok, okOr_bind_eq_ok, get_bind, ite_run,
      set_bind, pure_apply]
    exact ⟨id, hat.active_eq, region, hat.region_eq, hactive, _, hfinish,
      .inl ⟨h, shard, hat.shard_eq, rfl⟩⟩
  · simp only [requestRotationForAppend, rejectIf_bind_eq_ok, okOr_bind_eq_ok, get_bind, ite_run,
      set_bind, pure_apply]
    exact ⟨id, hat.active_eq, region, hat.region_eq, hactive, _, hfinish, .inr ⟨h, trivial⟩⟩

/-- A reservation without outstanding work before it fails exactly when the record does not fit. -/
lemma reserveAppend_fails_iff (hinv : ManagerInv m) (hat : m.ShardAt s shard id region)
    (hidle : shard.tail = none ∧ shard.pendingPadding = none ∧ shard.rotation = none)
    (hn : n ≠ 0 ∧ n % 32 = 0) (hnext : m.nextSeqno ≠ u64Max) :
    (∃ e m', reserveAppend s n m = .error e m') ↔ m.regionSize < region.reservedUsed + n := by
  have hsize : m.regionSize ≤ 2 ^ 25 := hinv.size_le
  have hle := (hinv.shards hat).reserved_le
  constructor
  · rintro ⟨e, m', herror⟩
    by_contra hfit
    have hok := reserveAppend_eq_ok.2 ⟨shard, id, region, hat, hn, hidle,
      ⟨(hinv.shards hat).active, by omega, by omega, by omega⟩, hnext, rfl, rfl⟩
    rw [hok] at herror
    cases herror
  · intro hfull
    cases hop : reserveAppend s n m with
    | error e m' => exact ⟨e, m', rfl⟩
    | ok r m' =>
      obtain ⟨shard', id', region', hat', -, -, ⟨-, -, hfit, -⟩, -⟩ := reserveAppend_eq_ok.1 hop
      obtain rfl := Option.some.inj (hat.active_eq.symm.trans hat'.active_eq)
      obtain rfl := Option.some.inj (hat.region_eq.symm.trans hat'.region_eq)
      omega

/-- The forecast for a record of `n` bytes, `needed` in the manager `m'`, next to what a flush
leaves: `shard` and its Region in the manager `flushed`. -/
structure Forecast (m : RegionManager) (s n : ℕ) (needed : Bool) (m' flushed : RegionManager)
    (shard : AppendShardState) (id : ℕ) (region : RegionDesc) : Prop where
  asked : requestRotationForAppend s n m = .ok needed m'
  unissued : m'.nextSeqno = m.nextSeqno
  unreserved : m'.regions = m.regions
  unchanged : m' = m ∨ ∃ shard, m.appendStates[s]? = some shard ∧
    m' = m.setShard s { shard with rotationRequested := true }
  flush : flushShard s m = .ok () flushed
  active : m.activeRegions[s]? = some id
  shardAt : flushed.ShardAt s shard id region
  idle : shard.tail = none ∧ shard.openSpan = none ∧ shard.pendingPadding = none ∧
    shard.submittedSpan = none
  completed : region.reservedUsed = region.completedUsed ∧ region.completedUsed % 4096 = 0
  others : ∀ id' ≠ id, flushed.regions[id']? = m.regions[id']?
  needed_iff : needed = true ↔ m.regionSize < region.reservedUsed + n
  refused_iff : shard.rotation = none → n ≠ 0 → n % 32 = 0 → m.nextSeqno ≠ u64Max →
    (needed = true ↔ ∃ e m₂, reserveAppend s n flushed = .error e m₂)

/-- **Forecast.** A request for rotation says whether the record does not fit after a flush. -/
theorem exists_forecast (hinv : ManagerInv m) (hspace : RecordSpace 32 m)
    (hs : s < m.activeRegions.length) (hn : n < 2 ^ 32) :
    ∃ needed m' flushed shard id region, Forecast m s n needed m' flushed shard id region := by
  have hlt : s < m.appendStates.length := by rwa [hinv.length_states]
  obtain ⟨id, region, hat⟩ := hinv.exists_shardAt (List.getElem?_eq_getElem hlt)
  obtain ⟨flushed, shard₁, region₁, hflush, hflushing, hidle, hreserved, hcompleted⟩ :=
    flushShard_ok hinv hspace hat
  have hrun := requestRotationForAppend_run hinv hat hn
  have hsize : flushed.regionSize = m.regionSize := by rw [hflushing.eq_put]; rfl
  have hnext : flushed.nextSeqno = m.nextSeqno := by rw [hflushing.eq_put]; rfl
  have hrefused : ∀ needed : Bool, (needed = true ↔ m.regionSize < region₁.reservedUsed + n) →
      shard₁.rotation = none → n ≠ 0 → n % 32 = 0 → m.nextSeqno ≠ u64Max →
      (needed = true ↔ ∃ e m₂, reserveAppend s n flushed = .error e m₂) := by
    intro needed hneeded hr hne hal hnum
    rw [hneeded, ← hsize]
    exact (reserveAppend_fails_iff hflushing.inv hflushing.shardAt ⟨hidle.1, hidle.2.2.1, hr⟩
      ⟨hne, hal⟩ (hnext ▸ hnum)).symm
  have hothers : ∀ id' ≠ id, flushed.regions[id']? = m.regions[id']? := by
    intro id' hne
    rw [hflushing.eq_put]
    exact List.getElem?_set_ne (Ne.symm hne)
  have hdone : region₁.reservedUsed = region₁.completedUsed ∧ region₁.completedUsed % 4096 = 0 :=
    ⟨hreserved.trans hcompleted.symm, (hflushing.inv.shards hflushing.shardAt).completed_aligned⟩
  by_cases hfull : m.regionSize < paddedEnd region.reservedUsed + n
  · rw [if_pos hfull] at hrun
    have hneeded : true = true ↔ m.regionSize < region₁.reservedUsed + n := by
      rw [hreserved]
      exact iff_of_true rfl hfull
    exact ⟨true, _, flushed, shard₁, id, region₁, hrun, rfl, rfl, .inr ⟨_, hat.shard_eq, rfl⟩,
      hflush, hat.active_eq, hflushing.shardAt, hidle, hdone, hothers, hneeded, hrefused _ hneeded⟩
  · rw [if_neg hfull] at hrun
    have hneeded : false = true ↔ m.regionSize < region₁.reservedUsed + n := by
      rw [hreserved]
      exact iff_of_false Bool.false_ne_true hfull
    exact ⟨false, m, flushed, shard₁, id, region₁, hrun, rfl, rfl, .inl rfl, hflush, hat.active_eq,
      hflushing.shardAt, hidle, hdone, hothers, hneeded, hrefused _ hneeded⟩

end Forecast

/-! ## Retained requests -/

/-- Whether a shard retains a request for rotation. -/
def RegionManager.retainsRequest (m : RegionManager) (s : ℕ) : Bool :=
  (m.appendStates[s]?.map (·.rotationRequested)).getD false

/-- Whether an event begins a rotation of the shard. -/
def ManagerEvent.Rotates (s : ℕ) : ManagerEvent → Bool
  | .rotating r => r.shardId == s
  | _ => false

/-- The rotations of a shard that have begun. -/
def rotations (s : ℕ) (events : List ManagerEvent) : ℕ := events.countP (·.Rotates s)

/-- How often a request for rotation of the shard has been newly retained. -/
def retained (s : ℕ) : List ManagerOp → RegionManager → ℕ
  | [], _ => 0
  | op :: rest, m =>
    (if m.retainsRequest s = false ∧ (op.effect m).2.retainsRequest s = true then 1 else 0) +
      retained s rest (op.effect m).2

section Retained

open RegionManager

variable {m m' : RegionManager} {events history : List ManagerEvent} {s : ℕ} {op : ManagerOp}

/-- The flag of a shard. -/
lemma retainsRequest_eq {shard : AppendShardState} (h : m.appendStates[s]? = some shard) :
    m.retainsRequest s = shard.rotationRequested := by
  rw [retainsRequest, h]
  rfl

/-- The flags after one shard has been replaced. -/
lemma retainsRequest_set {k : ℕ} {shard shard' : AppendShardState}
    (h : m.appendStates[k]? = some shard)
    (h' : m'.appendStates = m.appendStates.set k shard') (s : ℕ) :
    m'.retainsRequest s = if s = k then shard'.rotationRequested else m.retainsRequest s := by
  split_ifs with hs
  · subst hs
    rw [retainsRequest, h', List.getElem?_set_self (List.getElem?_eq_some_iff.1 h).1]
    rfl
  · rw [retainsRequest, h', List.getElem?_set_ne (Ne.symm hs), retainsRequest]

/-- A rotation begins only for a retained request. -/
lemma ManagerOp.requested_of_rotating (hop : op.run m = .ok events m')
    {r : RegionRotationReceipt} (hr : .rotating r ∈ events) :
    m.retainsRequest r.shardId = true := by
  cases op with
  | beginRotation candidate =>
    obtain ⟨r', m₁, h₁, h₂⟩ := bind_eq_ok.1 hop
    cases h₂
    obtain ⟨shard, oldId, old, victimId, victim, free, hat, ⟨hflag, -⟩, -, -, -, -, rfl, -⟩ :=
      beginRotation_eq_ok h₁
    obtain rfl := ManagerEvent.rotating.inj (List.mem_singleton.1 hr)
    exact (retainsRequest_eq hat.shard_eq).trans hflag
  | reserveWritePadding shardId =>
    obtain ⟨p, m₁, -, h₂⟩ := bind_eq_ok.1 hop
    cases p <;> (cases h₂; simp at hr)
  | beginReclaim =>
    obtain ⟨p, m₁, -, h₂⟩ := bind_eq_ok.1 hop
    cases p <;> (cases h₂; simp at hr)
  | _ =>
    obtain ⟨_, _, -, h₂⟩ := bind_eq_ok.1 hop
    cases h₂
    simp at hr

/-- Replacing a shard whose flag does not fall leaves no flag fallen. -/
lemma retainsRequest_set_of_imp {k : ℕ} {shard shard' : AppendShardState}
    (h : m.appendStates[k]? = some shard) (h' : m'.appendStates = m.appendStates.set k shard')
    (himp : shard.rotationRequested = true → shard'.rotationRequested = true)
    (hs : m.retainsRequest s = true) : m'.retainsRequest s = true := by
  rw [retainsRequest_set h h']
  split_ifs with heq
  · subst heq
    exact himp (retainsRequest_eq h ▸ hs)
  · exact hs

/-- A step begins a rotation of a shard, which takes its Region and lowers its flag; or it leaves
the shard its Region and does not lower its flag. -/
lemma ManagerStep.flag_cases (hstep : ManagerStep m events m') (s : ℕ) :
    (∃ r, events = [.rotating r] ∧ r.shardId = s ∧ m'.retainsRequest s = false ∧
      m.activeRegions[s]? = some r.sealedRegionId) ∨
    (rotations s events = 0 ∧ (m.retainsRequest s = true → m'.retainsRequest s = true) ∧
      m'.activeRegions[s]? = m.activeRegions[s]?) := by
  cases hstep with
  | unchanged => exact .inr ⟨rfl, id, rfl⟩
  | sequenced => exact .inr ⟨rfl, id, rfl⟩
  | @shard k regionId shard shard' region region' next events hat hstep =>
    refine .inr ⟨?_, fun hs => retainsRequest_set_of_imp hat.shard_eq rfl ?_ hs, rfl⟩
    · cases hstep <;> rfl
    · cases hstep <;> simp [submitted]
  | @rotating shard old victim free r hat =>
    by_cases hs : r.shardId = s
    · subst hs
      refine .inl ⟨r, rfl, rfl, ?_, hat.active_eq⟩
      rw [retainsRequest_set hat.shard_eq rfl, if_pos rfl]
    · refine .inr ⟨?_, fun h => ?_, List.getElem?_set_ne hs⟩
      · simp [rotations, ManagerEvent.Rotates, hs]
      · rw [retainsRequest_set hat.shard_eq rfl, if_neg (Ne.symm hs)]
        exact h
  | rotated hshard hr =>
    exact .inr ⟨rfl, fun hs => retainsRequest_set_of_imp hshard rfl (fun h => h) hs, rfl⟩
  | reclaiming => exact .inr ⟨rfl, id, rfl⟩
  | reclaimed => exact .inr ⟨rfl, id, rfl⟩

/-- **One operation.** A rotation uses up the retained request of its shard; nothing else does. -/
lemma ManagerOp.account (hinv : ManagerInv m) (op : ManagerOp) (s : ℕ) :
    rotations s (op.effect m).1 + ((op.effect m).2.retainsRequest s).toNat =
      (m.retainsRequest s).toNat +
        if m.retainsRequest s = false ∧ (op.effect m).2.retainsRequest s = true then 1
        else 0 := by
  rcases (op.effect_step hinv).flag_cases s with ⟨r, hevents, rfl, hflag, -⟩ | ⟨hnone, hkeep, -⟩
  · -- the operation has succeeded, so the flag was up
    have hup : m.retainsRequest r.shardId = true := by
      unfold ManagerOp.effect at hevents
      cases hop : op.run m with
      | ok events m' =>
        rw [hop] at hevents
        have hevents : events = [.rotating r] := hevents
        exact op.requested_of_rotating hop (hevents ▸ List.mem_singleton_self _)
      | error e m' =>
        rw [hop] at hevents
        cases hevents
    rw [hevents, hflag, hup]
    simp [rotations, ManagerEvent.Rotates]
  · rw [hnone]
    cases h : m.retainsRequest s with
    | true => simp [hkeep h]
    | false => cases (op.effect m).2.retainsRequest s <;> simp

/-- **Account.** In every sequence of operations, the rotations of a shard that begin and the
request that is left over are the request retained at the start and those newly retained. -/
theorem rotation_account (h : ManagerReachable m history) (ops : List ManagerOp) (s : ℕ) :
    rotations s (runEffects ops m).1 + ((runEffects ops m).2.retainsRequest s).toNat =
      (m.retainsRequest s).toNat + retained s ops m := by
  induction ops generalizing m history with
  | nil => simp [runEffects, retained, rotations]
  | cons op rest ih =>
    have hone := op.account h.inv s
    have hrest := ih (h.effect op)
    simp only [runEffects, retained, rotations, List.countP_append] at hone hrest ⊢
    omega

/-- A retained request stays, and so does the Region it is about, until a rotation begins. -/
theorem rotation_retained (h : ManagerReachable m history) (ops : List ManagerOp)
    (hflag : m.retainsRequest s = true) (hnone : rotations s (runEffects ops m).1 = 0) :
    (runEffects ops m).2.retainsRequest s = true ∧
      (runEffects ops m).2.activeRegions[s]? = m.activeRegions[s]? := by
  induction ops generalizing m history with
  | nil => exact ⟨hflag, rfl⟩
  | cons op rest ih =>
    simp only [runEffects, rotations, List.countP_append, Nat.add_eq_zero_iff] at hnone ⊢
    rcases (op.effect_step h.inv).flag_cases s with ⟨r, hevents, hs, -⟩ | ⟨-, hkeep, hactive⟩
    · rw [hevents] at hnone
      simp [ManagerEvent.Rotates, hs] at hnone
    · obtain ⟨hrest, hregion⟩ := ih (h.effect op) (hkeep hflag) hnone.2
      exact ⟨hrest, hregion.trans hactive⟩

/-- A retained request is granted as soon as the shard has nothing outstanding and a Region is
free. -/
theorem rotation_enabled (hinv : ManagerInv m) {shard : AppendShardState}
    (hs : m.appendStates[s]? = some shard) (hflag : shard.rotationRequested = true)
    (hidle : shard.isQuiescent = true) (hfree : m.freeRegions ≠ []) (hnext : m.nextSeqno ≠ u64Max) :
    ∃ candidate r m', rotationCandidate s m = .ok candidate m ∧
      beginRotation candidate m = .ok r m' ∧ r.shardId = s := by
  obtain ⟨id, region, hat⟩ := hinv.exists_shardAt hs
  have hinv' := hinv.shards hat
  simp only [AppendShardState.isQuiescent, Bool.and_eq_true, Option.isNone_iff_eq_none] at hidle
  obtain ⟨⟨⟨⟨ht, ho⟩, hp⟩, hsub⟩, hr⟩ := hidle
  have hdone : region.reservedUsed = region.completedUsed := by
    rw [hinv'.reserved_eq_openEnd ht hp, AppendShardState.openEnd, ho,
      AppendShardState.submittedEnd, hsub]
    rfl
  obtain ⟨victimId, free, hcons⟩ := List.exists_cons_of_ne_nil hfree
  have hvictim := hinv.free victimId (hcons ▸ List.mem_cons_self)
  have hne : victimId ≠ id := fun heq => (active_disjoint hinv.nodup hat.active_eq).1
    (heq ▸ hcons ▸ List.mem_cons_self)
  have hhead : m.freeRegions.head? = some victimId := by rw [hcons, List.head?_cons]
  have hlt : id < 2 ^ 32 := by
    have h1 := (List.getElem?_eq_some_iff.1 hat.region_eq).1
    have h2 : m.regions.length ≤ 2 ^ 20 := hinv.length_le
    omega
  have hq : shard.rotationRequested = true ∧ shard.tail = none ∧ shard.openSpan = none ∧
      shard.pendingPadding = none ∧ shard.submittedSpan = none ∧ shard.rotation = none :=
    ⟨hflag, ht, ho, hp, hsub, hr⟩
  have hcandidate : rotationCandidate s m = .ok ⟨s, victimId, 0⟩ m :=
    selectRotation_bind_eq_ok.2 ⟨shard, id, region, victimId, _, hat, hq, ⟨hinv'.active, hdone⟩,
      ⟨hhead, hvictim, rfl, hne⟩, rfl⟩
  exact ⟨_, _, _, hcandidate, beginRotation_of_selected hat hq ⟨hinv'.active, hdone⟩ hcons
    ⟨hvictim, rfl, hne⟩ hnext hlt, rfl⟩

end Retained

/-! ## What a rotation seals -/

/-- A shard that retains a request has bytes reserved in its Region. -/
def RequestedFull (m : RegionManager) : Prop :=
  ∀ {s : ℕ} {shard : AppendShardState} {id : ℕ} {region : RegionDesc},
    m.ShardAt s shard id region → shard.rotationRequested = true → 0 < region.reservedUsed

section Sealing

open RegionManager

variable {m m' : RegionManager} {events history : List ManagerEvent} {s : ℕ} {op : ManagerOp}

/-- A refused reservation that retains a request did not fit. -/
lemma reserveAppend_retains {n : ℕ} {e : RegionMutationError}
    (h : reserveAppend s n m = .error e m') : m' = m ∨
      ∃ shard id region, m.ShardAt s shard id region ∧ m.regionSize < region.reservedUsed + n ∧
        m' = m.setShard s { shard with rotationRequested := true } := by
  simp only [reserveAppend, rejectIf_bind_eq_error, okOr_bind_eq_error, get_bind, ite_run, set_bind,
    throw_apply, allocateSeqno_bind_eq_error, modify_bind, pure_apply, reduceCtorEq, and_false,
    or_false, Word.checkedAdd_eq_some] at h
  rcases h with ⟨-, -, rfl⟩ | ⟨-, ⟨-, -, rfl⟩ | ⟨shard, hs, ⟨-, -, rfl⟩ | ⟨-, ⟨-, -, rfl⟩ |
    ⟨id, hid, ⟨-, -, rfl⟩ | ⟨region, hregion, ⟨-, -, rfl⟩ | ⟨-, ⟨-, -, rfl⟩ |
    ⟨finish, ⟨-, rfl⟩, ⟨hfull, h⟩ | ⟨-, ⟨-, -, rfl⟩ | ⟨_, -, -, -, rfl⟩⟩⟩⟩⟩⟩⟩⟩⟩
  any_goals exact .inl rfl
  obtain ⟨-, hm⟩ := EStateM.Result.error.inj h
  exact .inr ⟨shard, id, region, ⟨hs, hid, hregion⟩, hfull, hm.symm⟩

/-- A request is retained for a record that does not fit. -/
lemma requestRotationForAppend_retains {n : ℕ} {needed : Bool}
    (h : requestRotationForAppend s n m = .ok needed m') : m' = m ∨
      ∃ shard id region, m.ShardAt s shard id region ∧
        m.regionSize < paddedEnd region.reservedUsed + n ∧
        m' = m.setShard s { shard with rotationRequested := true } := by
  simp only [requestRotationForAppend, rejectIf_bind_eq_ok, okOr_bind_eq_ok, get_bind, ite_run,
    set_bind, pure_apply, Option.bind_eq_some_iff, Word.checkedAdd_eq_some] at h
  obtain ⟨id, hid, region, hregion, -, finish, ⟨_, ⟨-, rfl⟩, -, rfl⟩, ⟨hfull, shard, hs, h⟩ |
    ⟨-, h⟩⟩ := h
  · cases h
    exact .inr ⟨shard, id, region, ⟨hs, hid, hregion⟩, hfull, rfl⟩
  · cases h
    exact .inl rfl

/-- A flag that is up was up before, unless its shard has been replaced by one whose flag is. -/
lemma retainsRequest_of_set {k : ℕ} {shard shard' : AppendShardState}
    (h : m.appendStates[k]? = some shard) (h' : m'.appendStates = m.appendStates.set k shard')
    (hup : m'.retainsRequest s = true) :
    m.retainsRequest s = true ∨ s = k ∧ shard'.rotationRequested = true := by
  rw [retainsRequest_set h h'] at hup
  split_ifs at hup with hs
  · exact .inr ⟨hs, hup⟩
  · exact .inl hup

/-- An operation that asks for no room retains no request. -/
lemma ManagerOp.flag_of_ok (hop : op.run m = .ok events m')
    (hask : ∀ k n, op ≠ .requestRotationForAppend k n ∧ op ≠ .reserveAppend k n)
    (hup : m'.retainsRequest s = true) : m.retainsRequest s = true := by
  -- the shard that an operation replaces keeps its flag
  have hset : ∀ {k : ℕ} {shard shard' : AppendShardState}, m.appendStates[k]? = some shard →
      m'.appendStates = m.appendStates.set k shard' →
      (shard'.rotationRequested = true → shard.rotationRequested = true) →
      m.retainsRequest s = true := by
    intro k shard shard' h h' himp
    rcases retainsRequest_of_set h h' hup with hs | ⟨rfl, hs⟩
    · exact hs
    · exact (retainsRequest_eq h).trans (himp hs)
  cases op with
  | requestRotationForAppend k n => exact absurd rfl (hask k n).1
  | reserveAppend k n => exact absurd rfl (hask k n).2
  | allocateSeqno =>
    obtain ⟨-, h₁⟩ := allocateSeqno_bind_eq_ok.1 hop
    cases h₁
    exact hup
  | stageReservation r =>
    obtain ⟨⟨⟩, m₁, h₁, h₂⟩ := bind_eq_ok.1 hop
    cases h₂
    obtain ⟨shard, span, hs, -, -, -, hm⟩ := stageReservation_eq_ok.1 h₁
    exact hset hs (congrArg RegionManager.appendStates hm) fun h => h
  | reserveWritePadding k =>
    obtain ⟨p, m₁, h₁, h₂⟩ := bind_eq_ok.1 hop
    obtain ⟨shard, o, region, hat, -, -, -, -, hp⟩ := reserveWritePadding_eq_ok.1 h₁
    have hm₁ : m₁ = m' := by cases p <;> (cases h₂; rfl)
    subst hm₁
    rcases hp with ⟨-, -, rfl⟩ | ⟨-, _, -, -, -, -, hm⟩
    · exact hup
    · exact hset hat.shard_eq (congrArg RegionManager.appendStates hm) fun h => h
  | sealWriteSpan k =>
    obtain ⟨span, m₁, h₁, h₂⟩ := bind_eq_ok.1 hop
    cases h₂
    obtain ⟨shard, o, hs, -, -, -, -, hm⟩ := sealWriteSpan_eq_ok.1 h₁
    exact hset hs (congrArg RegionManager.appendStates hm) fun h => h
  | sealWriteSpanWithPadding p =>
    obtain ⟨span, m₁, h₁, h₂⟩ := bind_eq_ok.1 hop
    cases h₂
    obtain ⟨shard, o, region, hat, -, -, -, -, -, -, -, -, hm⟩ :=
      sealWriteSpanWithPadding_eq_ok.1 h₁
    exact hset hat.shard_eq (congrArg RegionManager.appendStates hm) fun h => h
  | completeWriteSpan span =>
    obtain ⟨⟨⟩, m₁, h₁, h₂⟩ := bind_eq_ok.1 hop
    cases h₂
    obtain ⟨shard, region, hat, -, -, -, hm⟩ := completeWriteSpan_eq_ok.1 h₁
    exact hset hat.shard_eq (congrArg RegionManager.appendStates hm) fun h => h
  | beginRotation candidate =>
    obtain ⟨r, m₁, h₁, h₂⟩ := bind_eq_ok.1 hop
    cases h₂
    obtain ⟨shard, oldId, old, victimId, victim, free, hat, -, -, -, -, -, rfl, hm⟩ :=
      beginRotation_eq_ok h₁
    exact hset hat.shard_eq (congrArg RegionManager.appendStates hm) fun h => absurd h (by simp)
  | finishRotation r =>
    obtain ⟨⟨⟩, m₁, h₁, h₂⟩ := bind_eq_ok.1 hop
    cases h₂
    obtain ⟨shard, hs, -, -, hm⟩ := finishRotation_eq_ok h₁
    exact hset hs (congrArg RegionManager.appendStates hm) fun h => h
  | beginReclaim =>
    obtain ⟨r, m₁, h₁, h₂⟩ := bind_eq_ok.1 hop
    have hm₁ : m₁ = m' := by cases r <;> (cases h₂; rfl)
    subst hm₁
    rcases beginReclaim_eq_ok h₁ with ⟨-, -, rfl⟩ | ⟨_, _, _, -, -, -, -, -, rfl⟩
    · exact hup
    · exact hup
  | finishReclaim r =>
    obtain ⟨⟨⟩, m₁, h₁, h₂⟩ := bind_eq_ok.1 hop
    cases h₂
    obtain ⟨_, _, -, -, -, -, rfl⟩ := finishReclaim_eq_ok h₁
    exact hup

/-- A request is newly retained only for a record that does not fit behind the padded bytes. -/
lemma ManagerOp.full_of_retained (hinv : ManagerInv m)
    (hdown : m.retainsRequest s = false) (hup : (op.effect m).2.retainsRequest s = true) :
    ∃ shard id region, m.ShardAt s shard id region ∧
      m.regionSize < paddedEnd region.reservedUsed + op.recordBytes := by
  -- the shard whose flag has been raised is this one
  have hraised : ∀ {k : ℕ} {shard : AppendShardState}, m.appendStates[k]? = some shard →
      (op.effect m).2 = m.setShard k { shard with rotationRequested := true } → s = k := by
    intro k shard hs hm
    rcases retainsRequest_of_set hs (congrArg RegionManager.appendStates hm) hup with h | ⟨rfl, -⟩
    · rw [hdown] at h
      cases h
    · rfl
  have hsame : (op.effect m).2 ≠ m := by
    intro heq
    rw [heq, hdown] at hup
    cases hup
  unfold ManagerOp.effect at hraised hsame hup
  cases hop : op.run m with
  | ok events m' =>
    rw [hop] at hraised hsame hup
    dsimp only at hraised hsame hup
    by_cases hask : ∀ k n, op ≠ .requestRotationForAppend k n ∧ op ≠ .reserveAppend k n
    · have := ManagerOp.flag_of_ok hop hask hup
      rw [hdown] at this
      cases this
    · simp only [not_forall, not_and_or, not_not] at hask
      obtain ⟨k, n, rfl | rfl⟩ := hask
      · obtain ⟨needed, m₁, h₁, h₂⟩ := bind_eq_ok.1 hop
        cases h₂
        rcases requestRotationForAppend_retains h₁ with hm | ⟨shard, id, region, hat, hfull, hm⟩
        · exact absurd hm hsame
        · obtain rfl := hraised hat.shard_eq hm
          exact ⟨shard, id, region, hat, hfull⟩
      · obtain ⟨r, m₁, h₁, h₂⟩ := bind_eq_ok.1 hop
        cases h₂
        obtain ⟨shard, id, region, hat, -, -, -, -, -, hm⟩ := reserveAppend_eq_ok.1 h₁
        rcases retainsRequest_of_set hat.shard_eq (congrArg RegionManager.appendStates hm) hup with
          h | ⟨rfl, h⟩
        · rw [hdown] at h
          cases h
        · rw [retainsRequest_eq hat.shard_eq] at hdown
          exact absurd (hdown.symm.trans h) (by simp)
  | error e m' =>
    rw [hop] at hraised hsame hup
    dsimp only at hraised hsame hup
    rcases (ManagerOp.run_error hinv hop).1 with hm | ⟨-, ⟨k, n, rfl⟩, -⟩
    · exact absurd hm hsame
    · have herror : RegionManager.reserveAppend k n m = .error e m' := by
        rcases bind_eq_error.1 hop with h | ⟨r, m₁, -, h⟩
        · exact h
        · cases h
      rcases reserveAppend_retains herror with hm | ⟨shard, id, region, hat, hfull, hm⟩
      · exact absurd hm hsame
      · obtain rfl := hraised hat.shard_eq hm
        have := paddedEnd_spec region.reservedUsed
        refine ⟨shard, id, region, hat, ?_⟩
        show m.regionSize < paddedEnd region.reservedUsed + n
        omega

/-- A step keeps the bytes that a shard has reserved, unless a rotation has begun, which lowers
the flag. -/
lemma ManagerStep.reserved_le (hinv : ManagerInv m) (hstep : ManagerStep m events m')
    {shard' : AppendShardState} {id : ℕ} {region' : RegionDesc}
    (hat' : m'.ShardAt s shard' id region') : shard'.rotationRequested = false ∨
      ∃ shard region, m.ShardAt s shard id region ∧
        region.reservedUsed ≤ region'.reservedUsed := by
  cases hstep with
  | unchanged => exact .inr ⟨shard', region', hat', le_rfl⟩
  | sequenced => exact .inr ⟨shard', region', ⟨hat'.1, hat'.2, hat'.3⟩, le_rfl⟩
  | shard hat hstep =>
    rcases hat.of_put hinv.nodup hat' with ⟨rfl, rfl, rfl, rfl⟩ | ⟨-, -, hbefore⟩
    · refine .inr ⟨_, _, hat, ?_⟩
      cases hstep with
      | reserved => exact Nat.le_add_right _ _
      | padded hopen hidle hreserved hfinish => exact hreserved ▸ hfinish.1.le
      | _ => exact le_rfl
    · exact .inr ⟨_, _, hbefore, le_rfl⟩
  | rotating hat hidle hold hfree hvictim =>
    rcases hat.of_rotating hinv.nodup hfree (List.getElem?_eq_some_iff.1 hvictim.1).1 hat' with
      ⟨rfl, rfl, rfl, rfl⟩ | ⟨-, -, -, hbefore⟩
    · exact .inl rfl
    · exact .inr ⟨_, _, hbefore, le_rfl⟩
  | rotated hshard hr =>
    rcases hat'.of_rotated hshard with ⟨rfl, rfl, hbefore⟩ | ⟨-, hbefore⟩
    · exact .inr ⟨_, _, hbefore, le_rfl⟩
    · exact .inr ⟨_, _, hbefore, le_rfl⟩
  | reclaiming => exact .inr ⟨shard', region', ⟨hat'.1, hat'.2, hat'.3⟩, le_rfl⟩
  | reclaimed hposition hregion =>
    exact .inr ⟨_, _, hat'.of_reclaimed hinv.nodup hposition, le_rfl⟩

/-- Operations that ask for no more than a Region keep the bytes under every retained request. -/
lemma RequestedFull.effect (h : RequestedFull m) (hinv : ManagerInv m)
    (hfit : op.recordBytes ≤ m.regionSize) : RequestedFull (op.effect m).2 := by
  intro s shard' id region' hat' hflag
  rcases (op.effect_step hinv).reserved_le hinv hat' with hdown | ⟨shard, region, hat, hle⟩
  · rw [hflag] at hdown
    cases hdown
  refine lt_of_lt_of_le ?_ hle
  cases hold : shard.rotationRequested with
  | true => exact h hat hold
  | false =>
    have hup : (op.effect m).2.retainsRequest s = true :=
      (retainsRequest_eq hat'.shard_eq).trans hflag
    obtain ⟨shard₁, id₁, region₁, hat₁, hfull⟩ := ManagerOp.full_of_retained hinv
      ((retainsRequest_eq hat.shard_eq).trans hold) hup
    obtain rfl := Option.some.inj (hat.active_eq.symm.trans hat₁.active_eq)
    obtain rfl := Option.some.inj (hat.region_eq.symm.trans hat₁.region_eq)
    -- on an empty Region the record would fit
    rw [Nat.pos_iff_ne_zero]
    intro hzero
    rw [hzero, paddedEnd_of_aligned (Nat.zero_mod _)] at hfull
    omega

/-- In a store every retained request has bytes under it. -/
lemma StoreRun.requestedFull {chunkBytes : ℕ} (h : StoreRun chunkBytes m history) :
    RequestedFull m := by
  induction h with
  | cold _ hm _ =>
    obtain ⟨-, hr⟩ := fromMetadata_eq_ok hm
    intro s shard id region hat hflag
    rw [hr.idle (List.mem_of_getElem? hat.shard_eq)] at hflag
    cases hflag
  | effect h hop ih => exact ih.effect h.reachable.inv (h.recordBytes_le hop)
  | configured _ hop ih =>
    obtain ⟨-, -, rfl⟩ := configureReclaimWorkers_eq_ok hop
    exact fun ⟨h1, h2, h3⟩ hflag => ih ⟨h1, h2, h3⟩ hflag
  | restarted h hop _ _ ih =>
    obtain ⟨⟨metadata, -, hr⟩, -⟩ := restart_eq_ok h.reachable.inv.bounded hop
    intro s shard id region hat hflag
    rw [hr.idle (List.mem_of_getElem? hat.shard_eq)] at hflag
    cases hflag

/-- A generation with completed bytes has a record that has been staged. -/
lemma ShardLedger.exists_staged {log : List ManagerEvent} {shard : AppendShardState}
    {region : RegionDesc} (h : ShardLedger log shard region)
    (hcount : region.physicalRecordCount ≠ 0) : ∃ r, r ∈ stagedRecords log := by
  by_contra hnone
  have hnil : stagedRecords log = [] := List.eq_nil_iff_forall_not_mem.2 fun r hr => hnone ⟨r, hr⟩
  refine hcount (h.counted.trans (List.sum_eq_zero fun n hn => ?_))
  obtain ⟨span, hspan, rfl⟩ := List.mem_map.1 hn
  have hsub : span ∈ submittedSpans log := by
    rw [h.submitted]
    exact List.mem_append_left _ hspan
  rw [(h.spans span hsub).2.2, recordsIn, hnil]
  rfl

/-- In a store, a rotation seals a Region with records that were appended since the Region was
activated. -/
theorem rotation_seals_records {chunkBytes : ℕ} (h : StoreRun chunkBytes m history)
    {candidate : RegionRotationCandidate} {r : RegionRotationReceipt}
    (hop : beginRotation candidate m = .ok r m') :
    ∃ old record, m.regions[r.sealedRegionId]? = some old ∧ 0 < old.completedUsed ∧
      .staged record ∈ history ∧ record.regionId = r.sealedRegionId ∧
      record.regionCreatedSeqno = old.createdSeqno := by
  have hreach := h.reachable
  obtain ⟨shard, oldId, old, victimId, victim, free, hat, ⟨hflag, -⟩, ⟨-, hdone⟩, -, -, -, rfl,
    -⟩ := beginRotation_eq_ok hop
  have hpos := h.requestedFull hat hflag
  have hcount := hreach.recordSpace_aligned.counted old (List.mem_of_getElem? hat.region_eq)
    (by omega)
  obtain ⟨record, hrecord⟩ := (hreach.ledger.shards hat).exists_staged hcount
  obtain ⟨event, hevent, hsome⟩ := List.mem_filterMap.1 hrecord
  obtain ⟨hmem, hsubject⟩ := List.mem_filter.1 hevent
  cases event with
  | staged record' =>
    obtain rfl := Option.some.inj hsome
    simp only [ManagerEvent.subject, Option.some.injEq, Prod.mk.injEq,
      decide_eq_true_eq] at hsubject
    exact ⟨old, record', hat.region_eq, by omega, hmem, hsubject.1, hsubject.2⟩
  | _ => cases hsome

end Sealing

/-! ## Forecast and outcome -/

/-- The forecast agrees with the outcome. `forecast`: what a request says, next to what a flush
leaves; `account` and `retained`: every retained request is used up by exactly one rotation, of
the Region it was made for; `enabled`: the rotation can begin as soon as the shard is quiet and a
Region is free; `seals`: it never seals a Region without records. -/
structure RotationForecast (m : RegionManager) (history : List ManagerEvent) : Prop where
  forecast : ∀ s < m.activeRegions.length, ∀ n < 2 ^ 32, ∃ needed m' flushed shard id region,
    Forecast m s n needed m' flushed shard id region
  account : ∀ (ops : List ManagerOp) (s : ℕ),
    rotations s (runEffects ops m).1 + ((runEffects ops m).2.retainsRequest s).toNat =
      (m.retainsRequest s).toNat + retained s ops m
  retained : ∀ (ops : List ManagerOp) (s : ℕ), m.retainsRequest s = true →
    rotations s (runEffects ops m).1 = 0 → (runEffects ops m).2.retainsRequest s = true ∧
      (runEffects ops m).2.activeRegions[s]? = m.activeRegions[s]?
  enabled : ∀ (s : ℕ) (shard : AppendShardState), m.appendStates[s]? = some shard →
    shard.rotationRequested = true → shard.isQuiescent = true → m.freeRegions ≠ [] →
    m.nextSeqno ≠ u64Max → ∃ candidate r m',
      RegionManager.rotationCandidate s m = .ok candidate m ∧
      RegionManager.beginRotation candidate m = .ok r m' ∧ r.shardId = s
  seals : ∀ (candidate : RegionRotationCandidate) (r : RegionRotationReceipt) (m' : RegionManager),
    RegionManager.beginRotation candidate m = .ok r m' →
    ∃ old record, m.regions[r.sealedRegionId]? = some old ∧ 0 < old.completedUsed ∧
      .staged record ∈ history ∧ record.regionId = r.sealedRegionId ∧
      record.regionCreatedSeqno = old.createdSeqno

/-- **Rotation forecast.** In every manager that a store reaches, for a record of any length, a
request says that a rotation is needed exactly when the record does not fit after what is
outstanding has been padded and written, and it issues no number and reserves no bytes; a retained
request stands until exactly one rotation uses it up, and that rotation seals a Region with
records. -/
theorem rotationForecast {chunkBytes : ℕ} {m : RegionManager} {history : List ManagerEvent}
    (h : StoreRun chunkBytes m history) : RotationForecast m history where
  forecast _ hs _ hn := exists_forecast h.reachable.inv h.reachable.recordSpace_aligned hs hn
  account := rotation_account h.reachable
  retained ops _ := rotation_retained h.reachable ops
  enabled _ _ := rotation_enabled h.reachable.inv
  seals _ _ _ := rotation_seals_records h

/-- The sample has filled a Region and retains a request; the rotation seals that Region. -/
theorem rotationForecast_sample :
    sampleFilled.retainsRequest 0 = true ∧ RotationForecast sampleFilled sampleFilledHistory ∧
      ∃ r m' old record, RegionManager.beginRotation ⟨0, 1, 0⟩ sampleFilled = .ok r m' ∧
        sampleFilled.regions[r.sealedRegionId]? = some old ∧ 0 < old.completedUsed ∧
        .staged record ∈ sampleFilledHistory ∧ record.regionId = r.sealedRegionId := by
  have hforecast := rotationForecast sampleFilled_run
  have hbegin : ∃ r m', RegionManager.beginRotation ⟨0, 1, 0⟩ sampleFilled = .ok r m' :=
    ⟨_, _, rfl⟩
  obtain ⟨r, m', hbegin⟩ := hbegin
  obtain ⟨old, record, hold, hpos, hstaged, hregion, -⟩ := hforecast.seals _ _ _ hbegin
  exact ⟨by decide +kernel, hforecast, r, m', old, record, hbegin, hold, hpos, hstaged, hregion⟩

end Cache2
