import Cache2.Region.PathRuns
import Cache2.Region.StoreRuns

set_option relaxedAutoImplicit false
set_option autoImplicit false

/-!
# The manager of the data path

Seen from the manager, a run of the data path is a run of a store: each section does operations of
the manager, one after another or none, and the records of those that ask for room are of keys and
values and fit a chunk. What is proved of the runs of a store, such as the forecast of rotations,
is so of the manager of the data path.

## Main definitions

* `Cache2.Operated` — the manager has done operations whose requests have passed the check.
* `Cache2.StageRequest.Sized` — requests of `put` and of the reclaim workers.

## Main results

* `Cache2.operated_of_pathStep` — what a step of the data path does to the manager.
* `Cache2.storeRun_of_pathSteps` — runs of the data path are runs of a store.
-/

namespace Cache2

open Loop DataPath

/-! ## Operations of the manager -/

section Operations

variable {ops ops' : List ManagerOp} {m : RegionManager}

/-- The effects of two sequences are those of the whole. -/
lemma runEffects_append : (runEffects (ops ++ ops') m).2 =
    (runEffects ops' (runEffects ops m).2).2 := by
  induction ops generalizing m with
  | nil => rfl
  | cons op rest ih => exact ih

variable {α : Type} {f : ManagerM α} {g : α → ManagerM (List ManagerEvent)} {op : ManagerOp}

/-- What an operation leaves is left by the function that it calls. -/
lemma ManagerOp.effect_of_bind (hrun : op.run = f >>= g) (hg : ∀ a, Advances Eq (g a)) :
    Ends f m (fun _ m' => (op.effect m).2 = m') fun _ m' => (op.effect m).2 = m' := by
  unfold Ends ManagerOp.effect
  rw [hrun, bind_apply]
  cases hf : f m with
  | ok a m₁ =>
    dsimp only
    have hstay := hg a m₁
    unfold Ends at hstay
    cases hrest : g a m₁ <;>
    · rw [hrest] at hstay
      exact hstay.symm
  | error e m₁ => rfl

end Operations

/-- The manager has done operations whose requests have passed the check, and nothing else. -/
def Operated {crc : List UInt8 → BitVec 32} (chunkBytes : ℕ) (s s' : DataPath crc) : Prop :=
  ∃ ops : List ManagerOp, (∀ op ∈ ops, op.Validated chunkBytes) ∧
    (runEffects ops s.manager).2 = s'.manager

/-- A request has the length of a record with a key and a value. -/
def StageRequest.Sized {crc : List UInt8 → BitVec 32} (request : StageRequest crc) : Prop :=
  ∃ keyLen valueLen, RecordHeader.alignedLen keyLen valueLen = some request.recordBytes

section Sections

variable {crc : List UInt8 → BitVec 32} {chunkBytes regionSize shardId workerId : ℕ} {α : Type}

/-- A section does operations whose requests have passed the check, whether it fails or not. -/
abbrev Operates (chunkBytes : ℕ) (f : PathM crc α) : Prop := Advances (Operated chunkBytes) f

/-- No operation. -/
lemma Operated.of_eq {s s' : DataPath crc} (h : s'.manager = s.manager) :
    Operated chunkBytes s s' :=
  ⟨[], List.forall_mem_nil _, h.symm⟩

instance : Std.Refl (Operated chunkBytes : DataPath crc → DataPath crc → Prop) :=
  ⟨fun _ => .of_eq rfl⟩

instance : IsTrans (DataPath crc) (Operated chunkBytes) where
  trans := by
    rintro s₁ s₂ s₃ ⟨ops, hops, heq⟩ ⟨ops', hops', heq'⟩
    refine ⟨ops ++ ops', fun op hop => ?_, ?_⟩
    · exact (List.mem_append.1 hop).elim (hops op) (hops' op)
    · rw [runEffects_append, heq, heq']

/-! ## What leaves the manager alone -/

/-- A section that keeps the manager. -/
lemma Operates.of_keeps {f : PathM crc α} (h : Loop.Keeps DataPath.manager f) :
    Operates chunkBytes f :=
  Advances.of_keeps h fun _ _ => .of_eq

/-- A change of the rest of the state. -/
lemma operates_modify {g : DataPath crc → DataPath crc} (h : ∀ s, (g s).manager = s.manager) :
    Operates chunkBytes (modify g) :=
  .of_keeps (Loop.Keeps.modify h)

lemma operates_shard : Operates chunkBytes (shard shardId : PathM crc _) :=
  Advances.get.bind fun _ => .okOr _ _

lemma operates_setShard (p : ShardPath crc) :
    Operates chunkBytes (modify fun s => s.setShard shardId p : PathM crc PUnit) :=
  .of_keeps fun _ => rfl

lemma operates_setGate (gate : GatePhase crc) : Operates chunkBytes (setGate shardId gate) :=
  operates_shard.bind fun _ => operates_setShard _

lemma operates_setPhase (phase : WorkerPhase) :
    Operates chunkBytes (setPhase shardId phase : PathM crc Unit) :=
  operates_shard.bind fun _ => operates_setShard _

lemma operates_setReclaim (phase : ReclaimPhase crc) :
    Operates chunkBytes (setReclaim workerId phase) :=
  .of_keeps fun _ => rfl

lemma operates_fail (error : PathError) : Operates chunkBytes (fail error : PathM crc α) :=
  .of_keeps fun _ => rfl

lemma operates_failClosed (error : PathError) :
    Operates chunkBytes (failClosed error : PathM crc α) :=
  .of_keeps fun _ => rfl

lemma operates_onStaging {ε : Type} (f : EStateM ε StagingShard α) :
    Operates chunkBytes (onStaging shardId f : PathM crc _) := by
  refine operates_shard.bind fun shard => ?_
  cases f shard.staging with
  | ok a staging => exact (operates_setShard _).bind fun _ => .pure _
  | error e staging => exact (operates_setShard _).bind fun _ => .pure _

lemma operates_onIndex (f : IndexM α) : Operates chunkBytes (DataPath.onIndex f : PathM crc α) := by
  refine .of_keeps fun s => ?_
  unfold Ends DataPath.onIndex
  cases f s.index <;> rfl

lemma operates_orFail {f : PathM crc α} (h : Operates chunkBytes f) :
    Operates chunkBytes (orFail f) := by
  intro s
  have hs := h s
  unfold Ends orFail at *
  cases hf : f s with
  | ok a s' =>
    rw [hf] at hs
    exact hs
  | error e s' =>
    rw [hf] at hs
    exact hs

/-! ## Sections of the manager -/

/-- A section of the manager that is an operation whose request has passed the check. -/
lemma operates_onManager {f : ManagerM α} {g : α → ManagerM (List ManagerEvent)} (op : ManagerOp)
    (hop : op.Validated chunkBytes) (hrun : op.run = f >>= g) (hg : ∀ a, Advances Eq (g a)) :
    Operates chunkBytes (onManager f : PathM crc _) := by
  intro s
  have hends := ManagerOp.effect_of_bind (m := s.manager) hrun hg
  unfold Ends onManager at *
  cases hf : f s.manager with
  | ok a m' =>
    rw [hf] at hends
    exact ⟨[op], List.forall_mem_singleton.2 hop, hends⟩
  | error e m' =>
    rw [hf] at hends
    exact ⟨[op], List.forall_mem_singleton.2 hop, hends⟩

/-- A section that only reads the manager. -/
lemma operates_onManager_stay {f : ManagerM α} (h : Advances Eq f) :
    Operates chunkBytes (onManager f : PathM crc _) := by
  refine .of_keeps fun s => ?_
  have hs := h s.manager
  unfold Ends onManager at *
  cases hf : f s.manager <;>
  · rw [hf] at hs
    exact hs.symm

/-- An operation whose errors end the health. -/
lemma operates_manage {f : ManagerM α} {g : α → ManagerM (List ManagerEvent)} (op : ManagerOp)
    (hop : op.Validated chunkBytes) (hrun : op.run = f >>= g) (hg : ∀ a, Advances Eq (g a)) :
    Operates chunkBytes (manage f : PathM crc _) := by
  refine (operates_onManager op hop hrun hg).bind fun result => ?_
  cases result with
  | ok a => exact .pure a
  | error e => exact operates_fail _

/-! ## Sections of the threads

One lemma for each section, in the order in which they are defined. -/

/-! ### Staging -/

lemma operates_stageReserve {request : StageRequest crc} (hsized : request.Sized)
    (owner : Option ℕ) : Operates chunkBytes (stageReserve chunkBytes shardId owner request) := by
  refine Advances.rejectIf_bind fun hfits => operates_shard.bind fun shard => ?_
  have hpassed : validateStage chunkBytes request.recordBytes = .ok () := if_neg hfits
  split
  · refine (operates_onStaging _).bind fun result => ?_
    split
    · exact .pure _
    · exact operates_failClosed _
    · refine (operates_manage (.requestRotationForAppend shardId request.recordBytes)
        ⟨hsized, hpassed⟩ rfl fun _ _ => rfl).bind fun requested => ?_
      split <;> exact .pure _
    · refine (operates_onManager (.reserveAppend shardId request.recordBytes) ⟨hsized, hpassed⟩ rfl
        fun _ _ => rfl).bind fun result => ?_
      split
      · exact .pure _
      · exact .pure _
      · exact .pure _
      · exact operates_fail _
      · refine (operates_onManager (.stageReservation _) trivial rfl fun _ _ => rfl).bind
          fun result => ?_
        split
        · exact operates_failClosed _
        · exact (operates_setGate _).bind fun _ => .pure _
  · exact .pure _

lemma operates_stageBegin (owner : Option ℕ) (request : StageRequest crc)
    (receipt : RegionAppendReservation) :
    Operates chunkBytes (stageBegin chunkBytes regionSize shardId owner request receipt) := by
  refine (operates_onStaging _).bind fun result => ?_
  split
  · exact operates_failClosed _
  · exact operates_failClosed _
  · exact operates_failClosed _
  · exact operates_setGate _

lemma operates_accept : Operates chunkBytes (accept workerId : PathM crc Unit) := by
  refine Advances.get.bind fun s => ?_
  split
  · exact operates_setReclaim _
  · exact .pure _

lemma operates_stageFinish (owner : Option ℕ) (request : StageRequest crc)
    (receipt : RegionAppendReservation) (start finish : ℕ) (buffer : List UInt8) :
    Operates chunkBytes
      (stageFinish regionSize shardId owner request receipt start finish buffer) := by
  refine (operates_onStaging _).bind fun result => ?_
  split
  · refine (operates_setGate _).bind fun _ => ?_
    split
    · exact operates_accept
    · exact .pure _
  · exact operates_failClosed _
  · exact operates_failClosed _
  · exact operates_failClosed _
  · exact operates_failClosed _

/-! ### Writing and rotation -/

lemma operates_sealedFor (span : RegionWriteSpan) :
    Operates chunkBytes (sealedFor shardId span : PathM crc Unit) := by
  refine Advances.get.bind fun s => ?_
  split
  · exact operates_fail _
  · exact operates_setPhase _

lemma operates_flushReturn : Operates chunkBytes (flushReturn shardId : PathM crc Unit) :=
  operates_shard.bind fun _ => operates_setPhase _

lemma operates_flushReserve : Operates chunkBytes (flushReserve shardId : PathM crc Unit) := by
  refine (operates_onManager (.reserveWritePadding shardId) trivial rfl
    fun padding m => by cases padding <;> rfl).bind fun result => ?_
  split
  · exact operates_flushReturn
  · exact operates_fail _
  · refine (operates_setGate _).bind fun _ => ?_
    split
    · exact operates_setPhase _
    · exact (operates_manage (.sealWriteSpan shardId) trivial rfl fun _ _ => rfl).bind
        fun span => operates_sealedFor span

lemma operates_flushPad (receipt : RegionPaddingReceipt) :
    Operates chunkBytes (flushPad chunkBytes regionSize shardId receipt : PathM crc Unit) := by
  refine (operates_onStaging _).bind fun result => ?_
  split
  · exact operates_failClosed _
  · exact operates_setPhase _

lemma operates_flushSeal (receipt : RegionPaddingReceipt) :
    Operates chunkBytes (flushSeal shardId receipt : PathM crc Unit) := by
  refine (operates_onManager (.sealWriteSpanWithPadding receipt) trivial rfl
    fun _ _ => rfl).bind fun result => ?_
  split
  · exact operates_failClosed _
  · exact operates_sealedFor _

lemma operates_flushTake (span : RegionWriteSpan) (geometry : DataGeometry) : Operates chunkBytes
    (flushTake chunkBytes regionSize shardId span geometry : PathM crc Unit) := by
  refine (operates_onStaging _).bind fun result => ?_
  split
  · exact operates_fail _
  · exact operates_fail _
  · exact (operates_setGate _).bind fun _ => operates_setPhase _

lemma operates_failStagedSpan (job : StagedWrite) (returned : Bool) (error : PathError) :
    Operates chunkBytes (failStagedSpan shardId job returned error : PathM crc α) :=
  (operates_onStaging _).bind fun _ => operates_fail _

lemma operates_flushSubmit (job : StagedWrite) (geometry : DataGeometry) :
    Operates chunkBytes (flushSubmit shardId job geometry : PathM crc Unit) := by
  unfold flushSubmit
  split
  · exact operates_failStagedSpan _ _ _
  · split_ifs
    · exact operates_failStagedSpan _ _ _
    · exact operates_failStagedSpan _ _ _
    · exact operates_setPhase _

lemma operates_flushComplete (job : StagedWrite) :
    Operates chunkBytes (flushComplete shardId job : PathM crc Unit) := by
  refine (operates_onManager (.completeWriteSpan job.span) trivial rfl
    fun _ _ => rfl).bind fun result => ?_
  split
  · exact operates_failStagedSpan _ _ _
  · exact operates_setPhase _

lemma operates_publishRecord (record : StagedRecord) :
    Operates chunkBytes (publishRecord record : PathM crc Unit) := by
  unfold publishRecord
  split <;> exact (operates_onIndex _).bind fun _ => .pure _

lemma operates_flushPublish (job : StagedWrite) (rest : List StagedRecord) :
    Operates chunkBytes (flushPublish shardId job rest : PathM crc Unit) := by
  cases rest with
  | cons record rest => exact (operates_publishRecord record).bind fun _ => operates_setPhase _
  | nil =>
    refine (operates_onStaging _).bind fun result => ?_
    split
    · exact operates_fail _
    · exact operates_flushReturn

/-- The selection of a Region changes nothing. -/
lemma rotationCandidate_stay : Advances Eq (RegionManager.rotationCandidate shardId) := by
  refine Advances.bind (Advances.get.bind fun m => (Advances.okOr _ _).bind fun shard =>
    Advances.rejectIf_bind fun _ => (Advances.okOr _ _).bind fun oldRegionId =>
      (Advances.okOr _ _).bind fun old => Advances.rejectIf_bind fun _ =>
        (Advances.okOr _ _).bind fun victimRegionId => (Advances.okOr _ _).bind fun victim =>
          Advances.rejectIf_bind fun _ => .pure _) fun selection => .pure _

lemma operates_rotateSelect : Operates chunkBytes (rotateSelect shardId : PathM crc Unit) := by
  refine Advances.get.bind fun s => (Advances.okOr _ _).bind fun requested => ?_
  split
  · refine (operates_onManager_stay rotationCandidate_stay).bind fun result => ?_
    split
    · exact (operates_setGate _).bind fun _ => operates_setPhase _
    · exact operates_fail _
    · exact Advances.bind (operates_modify fun _ => rfl) fun _ => operates_setPhase _
  · exact (operates_setGate _).bind fun _ => operates_setPhase _

lemma operates_rotateBegin (candidate : RegionRotationCandidate) :
    Operates chunkBytes (rotateBegin shardId candidate : PathM crc Unit) :=
  (operates_manage (.beginRotation candidate) trivial rfl fun _ _ => rfl).bind
    fun _ => operates_setPhase _

lemma operates_rotateStore (receipt : RegionRotationReceipt) :
    Operates chunkBytes (rotateStore shardId receipt : PathM crc Unit) := by
  refine Advances.get.bind fun s => ?_
  split
  · exact Advances.bind (operates_modify fun _ => rfl) fun _ => (operates_setGate _).bind
      fun _ => operates_setPhase _
  · exact operates_fail _

lemma operates_rotateFinish (receipt : RegionRotationReceipt) :
    Operates chunkBytes (rotateFinish shardId receipt : PathM crc Unit) :=
  (operates_manage (.finishRotation receipt) trivial rfl fun _ _ => rfl).bind
    fun _ => operates_setPhase _

/-! ### The loop of an append worker -/

lemma operates_workerWake : Operates chunkBytes (workerWake shardId : PathM crc Unit) :=
  operates_shard.bind fun _ => operates_setShard _

lemma operates_workerSnapshot :
    Operates chunkBytes (workerSnapshot chunkBytes shardId : PathM crc Unit) := by
  refine (operates_onStaging _).bind fun result => ?_
  split
  · exact operates_setPhase _
  · exact operates_setPhase _
  · exact operates_setPhase _
  · exact operates_fail _

lemma operates_workerDrain :
    Operates chunkBytes (workerDrain chunkBytes shardId : PathM crc Unit) := by
  refine operates_shard.bind fun shard => ?_
  split
  · exact operates_setPhase _
  · refine (operates_onStaging _).bind fun result => ?_
    split
    · exact operates_shard.bind fun _ => operates_setShard _
    · exact operates_setPhase _
    · exact operates_setPhase _
    · exact operates_fail _

lemma operates_drainComplete : Operates chunkBytes (drainComplete shardId : PathM crc Unit) :=
  operates_shard.bind fun _ => operates_setShard _

lemma operates_drainRequest : Operates chunkBytes (drainRequest shardId : PathM crc ℕ) :=
  operates_shard.bind fun _ => (Advances.okOr _ _).bind fun _ => (operates_setShard _).bind
    fun _ => .pure _

/-! ### Reclaim -/

/-- What follows a part of a scan may use what it has found. -/
lemma operates_reclaiming {β : Type} {x : Except IoError β} {g : β → PathM crc α}
    (h : ∀ b, x = .ok b → Operates chunkBytes (g b)) :
    Operates chunkBytes (reclaiming x >>= g) := by
  cases x with
  | ok b => exact h b rfl
  | error e => exact .of_keeps fun _ => rfl

lemma operates_reclaimBegin : Operates chunkBytes (reclaimBegin workerId : PathM crc Unit) := by
  refine (operates_manage .beginReclaim trivial rfl
    fun receipt m => by cases receipt <;> rfl).bind fun receipt => ?_
  split
  · exact operates_setReclaim _
  · exact .pure _

lemma operates_reclaimRead (accepting : Bool) (receipt : RegionReclaimReceipt) :
    Operates chunkBytes (reclaimRead workerId shardId accepting receipt : PathM crc Unit) := by
  refine Advances.get.bind fun s => operates_reclaiming fun absolute _ => ?_
  dsimp only
  split
  · exact operates_fail _
  · exact operates_setReclaim _

lemma operates_reclaimClassify (scan : ReclaimScan) :
    Operates chunkBytes (reclaimClassify workerId scan : PathM crc Unit) := by
  unfold reclaimClassify
  split
  · split
    · exact operates_fail _
    · exact operates_setReclaim _
  · refine operates_reclaiming fun scanned _ => (operates_onIndex _).bind fun result => ?_
    split <;> exact operates_setReclaim _

/-- A record that is offered has the length of its key and its value. -/
lemma reinsertDecision_sized {bytes : List UInt8} {cursor : ScanCursor} {scanned : ReclaimRecord}
    {record : RegionReinsertRecord crc}
    (h : reinsertDecision crc bytes cursor scanned = .ok (.offer record)) :
    (reinsertRequest record).Sized := by
  simp only [reinsertDecision, except_bind_eq_ok] at h
  obtain ⟨keyEnd, -, rewriteBytes, haligned, h⟩ := h
  split at h
  · split at h
    · cases h
    · split at h
      · cases h
        exact ⟨_, _, orInvalidData_eq_ok.1 haligned⟩
      · cases h
  · cases h

lemma operates_reclaimOffer (scan : ReclaimScan) (scanned : ReclaimRecord) (available : Bool) :
    Operates chunkBytes
      (reclaimOffer chunkBytes workerId scan scanned available : PathM crc Unit) := by
  refine operates_reclaiming fun decision hdecision => ?_
  split
  · split
    · refine (operates_orFail (operates_stageReserve (reinsertDecision_sized hdecision) _)).bind
        fun result => ?_
      split <;> exact operates_setReclaim _
    · exact operates_setReclaim _
  · exact operates_setReclaim _
  · exact operates_setReclaim _

lemma operates_reclaimDrop (scan : ReclaimScan) (scanned : ReclaimRecord) :
    Operates chunkBytes (reclaimDrop workerId scan scanned : PathM crc Unit) :=
  (operates_onIndex _).bind fun _ => operates_setReclaim _

lemma operates_reclaimScanned (scan : ReclaimScan) :
    Operates chunkBytes (reclaimScanned workerId scan : PathM crc Unit) := by
  unfold reclaimScanned
  split
  · exact (operates_orFail operates_drainRequest).bind fun _ => operates_setReclaim _
  · exact operates_setReclaim _

lemma operates_reclaimWait (scan : ReclaimScan) (generation : ℕ) :
    Operates chunkBytes (reclaimWait workerId scan generation : PathM crc Unit) := by
  refine operates_shard.bind fun shard => ?_
  split
  · exact operates_setReclaim _
  · exact .pure _

lemma operates_reclaimClear (receipt : RegionReclaimReceipt) :
    Operates chunkBytes (reclaimClear workerId receipt : PathM crc Unit) := by
  refine Advances.get.bind fun s => ?_
  split
  · exact Advances.bind (operates_modify fun _ => rfl) fun _ => operates_setReclaim _
  · exact operates_fail _

lemma operates_reclaimFinish (receipt : RegionReclaimReceipt) :
    Operates chunkBytes (reclaimFinish workerId receipt : PathM crc Unit) :=
  (operates_manage (.finishReclaim receipt) trivial rfl fun _ _ => rfl).bind
    fun _ => operates_setReclaim _

/-! ### Foreground -/

/-- The request of `put` has the length of its key and its value. -/
lemma putRequest_sized {hash : Hash} {key value : List UInt8} {request : StageRequest crc}
    (h : putRequest crc hash key value = .ok request) : request.Sized := by
  obtain ⟨recordBytes, hrequired, h⟩ := except_bind_eq_ok.1 h
  cases h
  obtain ⟨-, heq, hle⟩ := requiredRecordBytes_eq_ok.1 hrequired
  exact ⟨_, _, RecordHeader.alignedLen_eq_some.2 ⟨heq, hle.trans_lt (by decide)⟩⟩

lemma operates_put (hash : Hash) (key value : List UInt8) :
    Operates chunkBytes (put chunkBytes regionSize shardId hash key value : PathM crc Unit) := by
  refine Advances.orThrow_bind fun request hrequest => Advances.rejectIf_bind fun _ => ?_
  exact (operates_stageReserve (putRequest_sized (mapError_eq_ok.1 hrequest)) none).bind
    fun _ => .pure _

end Sections

/-! ## Runs -/

section Runs

variable {crc : List UInt8 → BitVec 32} {c : PathConfig} {s s' s₀ : DataPath crc}
  {f : PathM crc Unit} {shardId indexSlots : ℕ}

lemma operates_stageSection {gate : GatePhase crc} (h : stageSection c shardId gate = some f) :
    Operates c.chunkBytes f := by
  cases gate with
  | free => cases h
  | worker => cases h
  | reserved owner request receipt =>
    cases h
    exact operates_stageBegin owner request receipt
  | encoding owner request receipt start finish buffer =>
    cases h
    exact operates_stageFinish owner request receipt start finish buffer

lemma operates_appendSection {act gateFree rotationFree : Bool} {phase : WorkerPhase}
    (h : appendSection c shardId act gateFree rotationFree phase = some f) :
    Operates c.chunkBytes f := by
  cases phase <;> simp only [appendSection, Option.some.injEq, Option.ite_none_right_eq_some] at h
  case waiting => exact h ▸ operates_workerWake
  case awake =>
    subst h
    split
    · exact operates_workerSnapshot
    · exact operates_setPhase _
  case locking => exact h.2 ▸ operates_flushReserve
  case padding receipt => exact h ▸ operates_flushPad receipt
  case padded receipt => exact h ▸ operates_flushSeal receipt
  case sealed span geometry => exact h ▸ operates_flushTake span geometry
  case taken job geometry => exact h ▸ operates_flushSubmit job geometry
  case writing => cases h
  case written job => exact h ▸ operates_flushComplete job
  case publishing job rest => exact h ▸ operates_flushPublish job rest
  case flushed =>
    split at h
    · rw [Option.ite_none_right_eq_some] at h
      cases h.2
      exact (operates_setGate _).bind fun _ => operates_setPhase _
    · cases h
      exact operates_setPhase _
  case gated => exact h.2 ▸ operates_rotateSelect
  case selected candidate => exact h ▸ operates_rotateBegin candidate
  case activating receipt => exact h ▸ operates_rotateStore receipt
  case activated receipt => exact h ▸ operates_rotateFinish receipt
  case rotated => exact h ▸ operates_workerDrain
  case drained => exact h ▸ operates_drainComplete

lemma operates_deviceSection {section? : StagedWrite → Option (PathM crc Unit)}
    {phase : WorkerPhase} (h : deviceSection section? phase = some f)
    (hsection : ∀ job, section? job = some f → Operates c.chunkBytes f) :
    Operates c.chunkBytes f := by
  cases phase with
  | writing job => exact hsection job h
  | _ => cases h

lemma operates_reclaimSection (workerId : ℕ) (act : Bool) (phase : ReclaimPhase crc) :
    Operates c.chunkBytes (reclaimSection c workerId shardId act phase) := by
  cases phase with
  | idle => exact operates_reclaimBegin
  | begun receipt => exact operates_reclaimRead act receipt
  | scanning scan => exact operates_reclaimClassify scan
  | classified scan scanned => exact operates_reclaimOffer scan scanned act
  | offering => exact .pure _
  | dropping scan scanned => exact operates_reclaimDrop scan scanned
  | scanned scan => exact operates_reclaimScanned scan
  | draining scan generation => exact operates_reclaimWait scan generation
  | emptied receipt => exact operates_reclaimClear receipt
  | cleared receipt => exact operates_reclaimFinish receipt

/-- Every section of every thread does operations whose requests have passed the check. -/
lemma operates_section {action : PathAction} (h : section? c s action = some f) :
    Operates c.chunkBytes f := by
  cases action with
  | put shardId hash key value =>
    cases h
    exact operates_put hash key value
  | stage shardId =>
    obtain ⟨p, -, h⟩ := Option.bind_eq_some_iff.1 h
    exact operates_stageSection h
  | deleteSeqno =>
    cases h
    exact (operates_manage .allocateSeqno trivial rfl fun _ _ => rfl).bind fun _ => .pure _
  | deleteIndex hash =>
    cases h
    exact (operates_onIndex _).bind fun _ => .pure _
  | lookup hash =>
    cases h
    exact (operates_onIndex _).bind fun _ => .pure _
  | requestDrain shardId =>
    cases h
    exact operates_drainRequest.bind fun _ => .pure _
  | append shardId act =>
    obtain ⟨p, -, h⟩ := Option.bind_eq_some_iff.1 h
    exact operates_appendSection h
  | deviceWrite shardId start length =>
    obtain ⟨p, -, h⟩ := Option.bind_eq_some_iff.1 h
    refine operates_deviceSection h fun job hjob => ?_
    rw [Option.ite_none_right_eq_some] at hjob
    cases hjob.2
    exact operates_modify fun _ => rfl
  | deviceDone shardId =>
    obtain ⟨p, -, h⟩ := Option.bind_eq_some_iff.1 h
    refine operates_deviceSection h fun job hjob => ?_
    cases hjob
    exact Advances.bind (operates_modify fun _ => rfl) fun _ => operates_setPhase _
  | deviceFail shardId returned error =>
    obtain ⟨p, -, h⟩ := Option.bind_eq_some_iff.1 h
    refine operates_deviceSection h fun job hjob => ?_
    cases hjob
    exact operates_failStagedSpan job returned _
  | reclaim workerId shardId act =>
    obtain ⟨phase, -, h⟩ := Option.bind_eq_some_iff.1 h
    rw [Option.ite_none_right_eq_some] at h
    cases h.2
    exact operates_reclaimSection workerId act phase

/-- What a step of the data path does to the manager. -/
theorem operated_of_pathStep (h : PathStep c s s') : Operated c.chunkBytes s s' := by
  obtain ⟨action, hstep⟩ := h
  rw [DataPath.step, Option.ite_none_right_eq_some, Option.map_eq_some_iff] at hstep
  obtain ⟨-, f, hsection, rfl⟩ := hstep
  have hs := operates_section hsection s
  unfold Ends at hs
  rw [after]
  cases hf : f s <;>
  · rw [hf] at hs
    exact hs

/-- **The manager of the data path.** After any run of the data path, from a cold start and with all
threads interleaved, the manager is one that a run of a store reaches. -/
theorem storeRun_of_pathSteps (hstart : ColdStart c indexSlots s₀)
    (hrun : Relation.ReflTransGen (PathStep c) s₀ s) :
    ∃ history, StoreRun c.chunkBytes s.manager history := by
  induction hrun with
  | refl =>
    obtain ⟨-, hempty, hm, hworkers, -, hstaging, -⟩ := hstart
    exact ⟨_, (StoreRun.cold hempty hm hstaging).configured hworkers⟩
  | tail _ hstep ih =>
    obtain ⟨history, hstore⟩ := ih
    obtain ⟨ops, hops, heq⟩ := operated_of_pathStep hstep
    exact ⟨_, heq ▸ hstore.effects hops⟩

end Runs

end Cache2
