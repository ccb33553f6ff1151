import Cache2.Region.Record
import Cache2.Runtime.ManagedMemory

set_option relaxedAutoImplicit false
set_option autoImplicit false

/-!
# The memory of the staging area

Every append shard has two chunks with their records, one that is being filled and a spare one
(`region/staging.rs`). All of them are made at the start, under one reservation that is held as
long as the staging area exists. The configuration asks for the same reservation in advance.

## Main definitions

* `Cache2.AppendStaging.reservationBytes` — the bytes of the reservation.
* `Cache2.AppendStaging.tryNew` — making the staging area.
* `Cache2.Host.withStaging` — a host that reserves what the staging area does.

## Main results

* `Cache2.AppendStaging.tryNew_ok` — a reservation that fits is all that the staging area needs.
-/

namespace Cache2

open Loop

/-! ## Definitions -/

/-- `MAX_STAGING_RECORDS`. -/
def maxStagingRecords : ℕ := 4096

/-- The size of `StagedRecord`, four words. -/
def stagedRecordBytes : ℕ := 32

/-- `ShardStaging` as it is made: its two chunks and the capacities of their records. -/
structure ShardStaging where
  fillBuffer : BufferLease
  spareBuffer : BufferLease
  fillRecords : ℕ
  spareRecords : ℕ
  deriving DecidableEq, Repr

/-- `AppendStaging`, with the bytes of its reservation. -/
structure AppendStaging where
  shards : List ShardStaging
  chunkBytes : ℕ
  regionSize : ℕ
  memory : ℕ
  deriving DecidableEq, Repr

/-- A computation while a guard holds a reservation: an error drops the guard. -/
def ManagedMemory.guarded {ε α : Type} (bytes : ℕ) (f : MemoryM ε α) : MemoryM ε α := fun m =>
  match f m with
  | .ok a m => .ok a m
  | .error e m => .error e { m with memory := m.memory.release bytes }

/-- `try_staged_records`: the capacity of the vector. -/
def tryStagedRecords (platform : Platform) : MemoryM ManagedMemoryError ℕ := do
  if ← ManagedMemory.askAllocator platform then pure maxStagingRecords else throw .allocation

namespace AppendStaging

/-- `reservation_bytes`. -/
def reservationBytes (shardCount chunkBytes : ℕ) : Option ℕ := do
  let buffersPerShard ← Word.checkedMul 64 chunkBytes 2
  let recordBytes ← Word.checkedMul 64 maxStagingRecords stagedRecordBytes
  let recordsPerShard ← Word.checkedMul 64 recordBytes 2
  let bytesPerShard ← Word.checkedAdd 64 buffersPerShard recordsPerShard
  Word.checkedMul 64 bytesPerShard shardCount

/-- The chunks of so many shards. -/
def tryShards (platform : Platform) (chunkBytes : ℕ) : ℕ →
    MemoryM ManagedMemoryError (List ShardStaging)
  | 0 => pure []
  | count + 1 => do
    let fillBuffer ← BufferLease.tryFixed platform chunkBytes
    let spareBuffer ← BufferLease.tryFixed platform chunkBytes
    let fillRecords ← tryStagedRecords platform
    let spareRecords ← tryStagedRecords platform
    let rest ← tryShards platform chunkBytes count
    pure (⟨fillBuffer, spareBuffer, fillRecords, spareRecords⟩ :: rest)

/-- `AppendStaging::try_new`. -/
def tryNew (platform : Platform) (shardCount chunkBytes : ℕ) (regionSize : BitVec 64) :
    MemoryM ManagedMemoryError AppendStaging := do
  rejectIf (shardCount = 0) (.invalid "Region staging requires at least one shard")
  let regionBytes := regionSize.toNat
  rejectIf (regionBytes < recoveryPageSize ∨ regionBytes % bufferAlignment ≠ 0)
    (.invalid "Region staging Region size is invalid")
  rejectIf (chunkBytes = 0 ∨ regionBytes < chunkBytes ∨ chunkBytes % bufferAlignment ≠ 0 ∨
    chunkBytes % recordAlignment ≠ 0)
    (.invalid "Region staging chunk must be a bounded aligned size")
  let reserved ← okOr .allocation (reservationBytes shardCount chunkBytes)
  let memory ← ManagedMemory.reserveRuntimeMemory platform reserved
  ManagedMemory.guarded memory do
    rejectIf (¬ (← ManagedMemory.askAllocator platform)) .allocation
    let shards ← tryShards platform chunkBytes shardCount
    pure ⟨shards, chunkBytes, regionBytes, memory⟩

end AppendStaging

/-- The host with the reservation of this staging area. -/
def Host.withStaging {σ : Type} (host : Host σ) : Host σ :=
  { host with stagingReservationBytes := AppendStaging.reservationBytes }

/-! ## What is made -/

section Specs

variable {platform : Platform} {m : ManagedMemory}

/-- A chunk of a possible size. -/
lemma BufferLease.tryFixed_ok (hplatform : platform.Works) {length : ℕ} (hpos : 0 < length)
    (haligned : length % 4096 = 0) (hle : length ≤ isizeMax) (m : ManagedMemory) :
    BufferLease.tryFixed platform length m =
      .ok ⟨.fixed, length, length⟩ { m with asked := m.asked + 1 } := by
  have hround : Word.alignUp length bufferAlignment = length := by
    simp only [Word.alignUp, bufferAlignment]
    omega
  have hguard : ¬ (length = 0 ∨ length % bufferAlignment ≠ 0 ∨ isizeMax < length) := by
    rw [bufferAlignment, haligned]
    omega
  rw [tryFixed, if_neg hguard,
    bind_ok (ManagedMemory.allocateBuffer_ok hplatform (hround.trans_le hle)), if_pos rfl]
  rfl

/-- The records of a chunk. -/
lemma tryStagedRecords_ok (hplatform : platform.Works) (m : ManagedMemory) :
    tryStagedRecords platform m = .ok maxStagingRecords { m with asked := m.asked + 1 } := by
  rw [tryStagedRecords, bind_ok (ManagedMemory.askAllocator_ok hplatform m), if_pos rfl]
  rfl

/-- A chunk that is made has the length that is asked for. -/
lemma BufferLease.tryFixed_eq_ok {length : ℕ} {lease : BufferLease} {m' : ManagedMemory}
    (h : BufferLease.tryFixed platform length m = .ok lease m') :
    lease = ⟨.fixed, length, length⟩ := by
  rw [tryFixed] at h
  split_ifs at h
  · cases h
  · obtain ⟨allocated, m₁, -, h⟩ := bind_eq_ok.1 h
    split_ifs at h <;> cases h
    rfl

/-- A vector of records that is made has the capacity of a chunk. -/
lemma tryStagedRecords_eq_ok {capacity : ℕ} {m' : ManagedMemory}
    (h : tryStagedRecords platform m = .ok capacity m') : capacity = maxStagingRecords := by
  rw [tryStagedRecords] at h
  obtain ⟨allocated, m₁, -, h⟩ := bind_eq_ok.1 h
  split_ifs at h <;> cases h
  rfl

namespace AppendStaging

/-- The chunks of all shards. -/
lemma tryShards_ok (hplatform : platform.Works) {chunkBytes : ℕ} (hpos : 0 < chunkBytes)
    (haligned : chunkBytes % 4096 = 0) (hle : chunkBytes ≤ isizeMax) :
    ∀ (count : ℕ) (m : ManagedMemory), ∃ shards asked,
      tryShards platform chunkBytes count m = .ok shards ⟨m.memory, asked⟩ ∧
        shards.length = count := by
  intro count
  induction count with
  | zero => exact fun m => ⟨[], m.asked, rfl, rfl⟩
  | succ count ih =>
    intro m
    obtain ⟨shards, asked, hrun, hlen⟩ := ih { m with asked := m.asked + 1 + 1 + 1 + 1 }
    refine ⟨⟨⟨.fixed, chunkBytes, chunkBytes⟩, ⟨.fixed, chunkBytes, chunkBytes⟩, maxStagingRecords,
      maxStagingRecords⟩ :: shards, asked, ?_, congrArg (· + 1) hlen⟩
    rw [tryShards, bind_ok (BufferLease.tryFixed_ok hplatform hpos haligned hle _),
      bind_ok (BufferLease.tryFixed_ok hplatform hpos haligned hle _),
      bind_ok (tryStagedRecords_ok hplatform _), bind_ok (tryStagedRecords_ok hplatform _),
      bind_ok hrun]
    rfl

/-- All chunks that are made have the size that is asked for, and room for their records. -/
lemma tryShards_eq_ok {chunkBytes : ℕ} :
    ∀ {count : ℕ} {m m' : ManagedMemory} {shards : List ShardStaging},
      tryShards platform chunkBytes count m = .ok shards m' →
      shards = List.replicate count ⟨⟨.fixed, chunkBytes, chunkBytes⟩,
        ⟨.fixed, chunkBytes, chunkBytes⟩, maxStagingRecords, maxStagingRecords⟩ := by
  intro count
  induction count with
  | zero =>
    intro m m' shards h
    cases h
    rfl
  | succ count ih =>
    intro m m' shards h
    rw [tryShards] at h
    obtain ⟨fillBuffer, m₁, hfill, h⟩ := bind_eq_ok.1 h
    obtain ⟨spareBuffer, m₂, hspare, h⟩ := bind_eq_ok.1 h
    obtain ⟨fillRecords, m₃, hfillRecords, h⟩ := bind_eq_ok.1 h
    obtain ⟨spareRecords, m₄, hspareRecords, h⟩ := bind_eq_ok.1 h
    obtain ⟨rest, m₅, hrest, h⟩ := bind_eq_ok.1 h
    cases h
    rw [BufferLease.tryFixed_eq_ok hfill, BufferLease.tryFixed_eq_ok hspare,
      tryStagedRecords_eq_ok hfillRecords, tryStagedRecords_eq_ok hspareRecords, ih hrest]
    rfl

/-- A staging area has the shards and the chunks that are asked for. -/
lemma tryNew_eq_ok {shardCount chunkBytes : ℕ} {regionSize : BitVec 64} {m' : ManagedMemory}
    {staging : AppendStaging}
    (h : tryNew platform shardCount chunkBytes regionSize m = .ok staging m') :
    chunkBytes ≤ regionSize.toNat ∧ chunkBytes % 4096 = 0 ∧
      staging.shards = List.replicate shardCount ⟨⟨.fixed, chunkBytes, chunkBytes⟩,
        ⟨.fixed, chunkBytes, chunkBytes⟩, maxStagingRecords, maxStagingRecords⟩ := by
  rw [tryNew, rejectIf_bind_eq_ok, rejectIf_bind_eq_ok, rejectIf_bind_eq_ok, okOr_bind_eq_ok] at h
  obtain ⟨-, -, hchunk, reserved, -, h⟩ := h
  obtain ⟨memory, m₁, -, h⟩ := bind_eq_ok.1 h
  rw [bufferAlignment] at hchunk
  refine ⟨by omega, by omega, ?_⟩
  rw [ManagedMemory.guarded] at h
  split at h
  · rename_i made m₂ hmade
    cases h
    obtain ⟨asked, m₃, -, hmade⟩ := bind_eq_ok.1 hmade
    rw [rejectIf_bind_eq_ok] at hmade
    obtain ⟨-, hmade⟩ := hmade
    obtain ⟨shards, m₄, hshards, hmade⟩ := bind_eq_ok.1 hmade
    cases hmade
    exact tryShards_eq_ok hshards
  · cases h

/-- **Staging areas.** A staging area with shards and chunks of possible sizes is made when its
reservation fits, and takes nothing but the reservation. -/
theorem tryNew_ok (hplatform : platform.Works) {shardCount chunkBytes reserved : ℕ}
    {regionSize : BitVec 64} (hshards : 0 < shardCount)
    (hregion : regionSize.toNat % 4096 = 0) (hpos : 0 < chunkBytes)
    (haligned : chunkBytes % 4096 = 0) (hchunk : chunkBytes ≤ regionSize.toNat)
    (hle : chunkBytes ≤ isizeMax)
    (hreserved : reservationBytes shardCount chunkBytes = some reserved)
    (hlt : m.memory.current + reserved < 2 ^ 64)
    (hfits : m.memory.current + reserved ≤ m.memory.limit) :
    ∃ staging asked, tryNew platform shardCount chunkBytes regionSize m =
        .ok staging ⟨m.memory.charge reserved, asked⟩ ∧
      staging.memory = reserved ∧ staging.shards.length = shardCount := by
  obtain ⟨asked, hmemory⟩ := ManagedMemory.reserveRuntimeMemory_ok hplatform hlt hfits
  obtain ⟨shards, asked', hrun, hlen⟩ := tryShards_ok hplatform hpos haligned hle shardCount
    ⟨m.memory.charge reserved, asked + 1⟩
  refine ⟨⟨shards, chunkBytes, regionSize.toNat, reserved⟩, asked', ?_, rfl, hlen⟩
  rw [tryNew, rejectIf_bind_eq_ok, rejectIf_bind_eq_ok, rejectIf_bind_eq_ok, okOr_bind_eq_ok]
  refine ⟨by omega, ?_, ?_, reserved, hreserved, ?_⟩
  · simp only [recoveryPageSize, bufferAlignment]
    omega
  · simp only [bufferAlignment, recordAlignment]
    omega
  · rw [bind_ok hmemory, ManagedMemory.guarded,
      bind_ok (ManagedMemory.askAllocator_ok hplatform _)]
    simp only [not_true_eq_false, rejectIf, if_false]
    rw [bind_ok (pure_apply _ _), bind_ok hrun]
    rfl

end AppendStaging

end Specs

end Cache2
