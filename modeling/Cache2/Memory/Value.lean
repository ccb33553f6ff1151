import Cache2.Codec
import Cache2.Lib.Word
import Mathlib.Logic.Function.Basic

set_option relaxedAutoImplicit false
set_option autoImplicit false

/-!
# Values and the byte budget of the memory tier

An entry's key, value and sequence number share one reference-counted allocation, which also owns
the entry's charge on the byte budget of its shard. Callers retain values that lookups returned:
they clone and drop them at any moment, while an operation of the shard is under way too, and the
last drop of an allocation releases its charge.

The allocations of a shard are numbered, and the heap keeps their contents and reference counts.
What callers do during an operation is a list of turns that is fixed when the operation starts: one
turn goes before every access to a counter that callers may change.

## Main definitions

* `Cache2.MemoryHeap` — the allocations of a shard, with its budget.
* `Cache2.MemoryHeap.tryCharge`, `Cache2.MemoryHeap.tryTransferCharge` — the budget.
* `Cache2.MemoryHeap.tryNew`, `Cache2.MemoryHeap.disarmExclusiveCharge` — values.

## Main results

* `Cache2.MemoryHeap.Undisturbed` — what the accesses of a shard leave as it is, whatever callers do
  in between.
* `Cache2.MemoryHeap.tryNew_spec` — a new value takes an allocation that no one else refers to.
-/

namespace Cache2

open Bytes Word

/-! ## Charges and values -/

/-- `MEMORY_ENTRY_OVERHEAD_BYTES`. -/
def memoryEntryOverheadBytes : ℕ := 64

/-- `MEMORY_VALUE_SEQNO_BYTES`. -/
def memoryValueSeqnoBytes : ℕ := 8

/-- `MAX_BUDGET_CAS_ATTEMPTS`. -/
def maxBudgetCasAttempts : ℕ := 8

/-- `MemoryCharge`. -/
structure MemoryCharge where
  /-- Whether the charge still refers to its budget. -/
  armed : Bool
  /-- The charged bytes. -/
  bytes : ℕ
  deriving DecidableEq, Repr

/-- `MemoryValueInner`. -/
structure MemoryValueInner where
  /-- The key, the value and the sequence number. -/
  bytes : List UInt8
  /-- The length of the key. -/
  keyLength : ℕ
  /-- The charge that the last drop releases. -/
  charge : MemoryCharge
  deriving DecidableEq, Repr

namespace MemoryValueInner

/-- `charged_bytes`. -/
def chargedBytes (v : MemoryValueInner) : ℕ :=
  memoryEntryOverheadBytes + v.bytes.length - memoryValueSeqnoBytes

/-- `key`. -/
def key (v : MemoryValueInner) : List UInt8 := v.bytes.take v.keyLength

/-- `value`. -/
def value (v : MemoryValueInner) : List UInt8 :=
  (v.bytes.take (v.bytes.length - memoryValueSeqnoBytes)).drop v.keyLength

/-- `seqno`. -/
def seqno (v : MemoryValueInner) : BitVec 64 :=
  BitVec.ofNat 64 (leVal (v.bytes.drop (v.bytes.length - memoryValueSeqnoBytes)))

end MemoryValueInner

/-- The bytes of an allocation. -/
def memoryValueBytes (key value : List UInt8) (seqno : BitVec 64) : List UInt8 :=
  key ++ value ++ u64Bytes seqno

/-- `memory_entry_bytes`. -/
def memoryEntryBytes (key value : List UInt8) : Option ℕ :=
  (checkedAdd 64 memoryEntryOverheadBytes key.length).bind fun bytes =>
    checkedAdd 64 bytes value.length

/-! ## The heap -/

/-- What a caller does with a value that it retains. -/
inductive CallerAction
  | clone (id : ℕ)
  | drop (id : ℕ)
  deriving DecidableEq, Repr

/-- What happens before an access. -/
structure Turn where
  /-- What callers do. -/
  actions : List CallerAction
  /-- Whether the access itself fails: a weak exchange, or an allocation. -/
  fails : Bool
  deriving DecidableEq, Repr

/-- The allocations of a shard with its `MemoryBudget`. -/
structure MemoryHeap where
  /-- `capacity_bytes`. -/
  capacityBytes : ℕ
  /-- `used_bytes`. -/
  usedBytes : ℕ
  /-- The contents of every allocation. -/
  inner : ℕ → MemoryValueInner
  /-- The reference count of every allocation. -/
  strong : ℕ → ℕ
  /-- The next number that is free. -/
  next : ℕ
  /-- What callers hold, one number for each reference. -/
  retained : List ℕ
  /-- What happens during the operation that is under way. -/
  turns : List Turn

/-- `MemoryChargeAttempt`. -/
inductive MemoryChargeAttempt
  | charged (charge : MemoryCharge)
  | full
  | contended
  deriving DecidableEq, Repr

namespace MemoryHeap

/-- The heap of a shard without entries. -/
def new (capacityBytes : ℕ) : MemoryHeap where
  capacityBytes
  usedBytes := 0
  inner := fun _ => ⟨[], 0, false, 0⟩
  strong := fun _ => 0
  next := 0
  retained := []
  turns := []

/-- Dropping a charge. -/
def dropCharge (h : MemoryHeap) (charge : MemoryCharge) : MemoryHeap :=
  if charge.armed then { h with usedBytes := wrappingSub 64 h.usedBytes charge.bytes } else h

/-- One reference more. -/
def cloneValue (h : MemoryHeap) (id : ℕ) : MemoryHeap :=
  { h with strong := Function.update h.strong id (h.strong id + 1) }

/-- One reference less; the last one takes the charge along. -/
def dropValue (h : MemoryHeap) (id : ℕ) : MemoryHeap :=
  let dropped := { h with strong := Function.update h.strong id (h.strong id - 1) }
  if h.strong id = 1 then dropped.dropCharge (h.inner id).charge else dropped

/-- A caller clones or drops a value that it retains. -/
def act (h : MemoryHeap) : CallerAction → MemoryHeap
  | .clone id =>
    if id ∈ h.retained then { h.cloneValue id with retained := id :: h.retained } else h
  | .drop id =>
    if id ∈ h.retained then { h with retained := h.retained.erase id }.dropValue id else h

/-- The turn before an access, with whether the access fails. -/
def tick (h : MemoryHeap) : Bool × MemoryHeap :=
  match h.turns with
  | [] => (false, h)
  | turn :: turns => (turn.fails, turn.actions.foldl act { h with turns })

/-- A reference that is returned to a caller. -/
def retain (h : MemoryHeap) (id : ℕ) : MemoryHeap :=
  { h.cloneValue id with retained := id :: h.retained }

/-! ## The budget -/

/-- The loop of `try_charge`, with the attempts that are left and the count last seen. -/
def tryChargeLoop (bytes : ℕ) : ℕ → ℕ → MemoryHeap → MemoryChargeAttempt × MemoryHeap
  | 0, _, h => (.contended, h)
  | attempts + 1, used, h =>
    if 2 ^ 64 ≤ used + bytes ∨ h.capacityBytes < used + bytes then (.full, h)
    else
      let (fails, h) := h.tick
      if h.usedBytes = used ∧ !fails then
        (.charged ⟨true, bytes⟩, { h with usedBytes := used + bytes })
      else tryChargeLoop bytes attempts h.usedBytes h

/-- `try_charge`. -/
def tryCharge (h : MemoryHeap) (bytes : ℕ) : MemoryChargeAttempt × MemoryHeap :=
  let h := h.tick.2
  tryChargeLoop bytes maxBudgetCasAttempts h.usedBytes h

/-- `available_bytes`. -/
def availableBytes (h : MemoryHeap) : ℕ × MemoryHeap :=
  let h := h.tick.2
  (h.capacityBytes - h.usedBytes, h)

/-- The loop of `try_transfer_charge`, with the attempts that are left and the count last seen. -/
def tryTransferLoop (released required : ℕ) :
    ℕ → ℕ → MemoryHeap → MemoryChargeAttempt × MemoryHeap
  | 0, _, h => (.contended, h)
  | attempts + 1, used, h =>
    match (checkedSub used released).bind fun retained => checkedAdd 64 retained required with
    | none => (.full, h)
    | some next =>
      if h.capacityBytes < next then (.full, h)
      else if next = used then (.charged ⟨true, required⟩, h)
      else
        let h := h.tick.2
        if h.usedBytes = used then (.charged ⟨true, required⟩, { h with usedBytes := next })
        else tryTransferLoop released required attempts h.usedBytes h

/-- `try_transfer_charge`. -/
def tryTransferCharge (h : MemoryHeap) (released required : ℕ) :
    MemoryChargeAttempt × MemoryHeap :=
  let h := h.tick.2
  tryTransferLoop released required maxBudgetCasAttempts h.usedBytes h

/-! ## Values -/

/-- `releases_charge_on_remove`. -/
def releasesChargeOnRemove (h : MemoryHeap) (id : ℕ) : Bool × MemoryHeap :=
  let h := h.tick.2
  (h.strong id == 1, h)

/-- `disarm_exclusive_charge`, or `none` where the source panics. -/
def disarmExclusiveCharge (h : MemoryHeap) (id : ℕ) : Option MemoryHeap :=
  let h := h.tick.2
  if h.strong id = 1 then
    let inner := h.inner id
    some { h with
      inner := Function.update h.inner id
        { inner with charge := { inner.charge with armed := false } } }
  else none

/-- The contents of an allocation are replaced, and the charge it had is dropped. -/
def overwrite (h : MemoryHeap) (id : ℕ) (new : MemoryValueInner) : MemoryHeap :=
  let h := h.dropCharge (h.inner id).charge
  { h with inner := Function.update h.inner id new }

/-- A new allocation. -/
def allocate (h : MemoryHeap) (new : MemoryValueInner) : ℕ × MemoryHeap :=
  (h.next, { h with
    inner := Function.update h.inner h.next new
    strong := Function.update h.strong h.next 1
    next := h.next + 1 })

/-- `MemoryValue::try_new`; a failure gives the charge back, and the caller drops it. -/
def tryNew (h : MemoryHeap) (key value : List UInt8) (seqno : BitVec 64) (charge : MemoryCharge)
    (recycled : Option ℕ) : Option ℕ × MemoryHeap :=
  let new : MemoryValueInner := ⟨memoryValueBytes key value seqno, key.length, charge⟩
  let allocateNew (h : MemoryHeap) : Option ℕ × MemoryHeap :=
    let (fails, h) := h.tick
    if fails then (none, h.dropCharge charge) else (h.allocate new).map some id
  if 2 ^ 64 ≤ new.bytes.length then
    (none, (recycled.elim h h.dropValue).dropCharge charge)
  else
    match recycled with
    | none => allocateNew h
    | some id =>
      let h := h.tick.2
      if h.strong id = 1 ∧ (h.inner id).bytes.length = new.bytes.length then
        (some id, h.overwrite id new)
      else allocateNew (h.dropValue id)

/-! ## What stays as it is -/

/-- Every reference is held by a caller or is one of `refs`, which the shard holds, and numbers that
are free have no references. -/
structure Counted (h : MemoryHeap) (refs : List ℕ) : Prop where
  /-- The references to an allocation. -/
  strong : ∀ id, h.strong id = h.retained.count id + refs.count id
  /-- Free numbers. -/
  fresh : ∀ id, h.next ≤ id → h.strong id = 0

/-- Contents do not change. -/
def SameContents (h h' : MemoryHeap) : Prop :=
  ∀ id, (h'.inner id).bytes = (h.inner id).bytes ∧
    (h'.inner id).keyLength = (h.inner id).keyLength

/-- Contents and free numbers, and callers gain no values. -/
structure Frame (h h' : MemoryHeap) : Prop where
  /-- Contents do not change. -/
  contents : SameContents h h'
  /-- Nothing is allocated. -/
  next : h'.next = h.next
  /-- Callers only retain what they retained. -/
  retained : ∀ id, id ∉ h.retained → id ∉ h'.retained

/-- The references of the shard stay too. -/
structure Undisturbed (h h' : MemoryHeap) : Prop extends Frame h h' where
  /-- References of the shard stay. -/
  counted : ∀ refs, h.Counted refs → h'.Counted refs

section Undisturbed

variable {h h' h'' : MemoryHeap} {refs : List ℕ} {id : ℕ}

/-- The order of the references does not matter. -/
lemma Counted.perm {refs' : List ℕ} (hc : h.Counted refs) (hp : refs.Perm refs') :
    h.Counted refs' := ⟨fun id => by rw [hc.strong id, hp.count_eq], hc.fresh⟩

lemma Undisturbed.refl (h : MemoryHeap) : Undisturbed h h :=
  ⟨⟨fun _ => ⟨rfl, rfl⟩, rfl, fun _ hid => hid⟩, fun _ hc => hc⟩

lemma Frame.trans (h₁ : Frame h h') (h₂ : Frame h' h'') : Frame h h'' :=
  ⟨fun id => ⟨(h₂.contents id).1.trans (h₁.contents id).1, (h₂.contents id).2.trans
    (h₁.contents id).2⟩, h₂.next.trans h₁.next, fun id hid => h₂.retained id (h₁.retained id hid)⟩

lemma Undisturbed.trans (h₁ : Undisturbed h h') (h₂ : Undisturbed h' h'') : Undisturbed h h'' :=
  ⟨h₁.toFrame.trans h₂.toFrame, fun refs hc => h₂.counted refs (h₁.counted refs hc)⟩

/-- The counter of the budget does not matter. -/
lemma undisturbed_usedBytes (h : MemoryHeap) (usedBytes : ℕ) :
    Undisturbed h { h with usedBytes } :=
  ⟨⟨fun _ => ⟨rfl, rfl⟩, rfl, fun _ hid => hid⟩, fun _ hc => ⟨hc.strong, hc.fresh⟩⟩

lemma undisturbed_dropCharge (h : MemoryHeap) (charge : MemoryCharge) :
    Undisturbed h (h.dropCharge charge) := by
  unfold dropCharge
  split
  · exact undisturbed_usedBytes h _
  · exact .refl h

/-- What a drop leaves as it is besides reference counts. -/
lemma frame_dropValue (h : MemoryHeap) (id : ℕ) :
    Frame h (h.dropValue id) ∧ (h.dropValue id).retained = h.retained := by
  unfold dropValue dropCharge
  simp only
  split_ifs <;> exact ⟨⟨fun _ => ⟨rfl, rfl⟩, rfl, fun _ hid => hid⟩, rfl⟩

/-- A reference of the shard is dropped. -/
lemma Counted.dropValue (hc : h.Counted (id :: refs)) : (h.dropValue id).Counted refs := by
  have hundisturbed : Undisturbed
      { h with strong := Function.update h.strong id (h.strong id - 1) } (h.dropValue id) := by
    unfold MemoryHeap.dropValue
    split
    · exact undisturbed_dropCharge _ _
    · exact .refl _
  refine hundisturbed.counted refs ⟨fun j => ?_, fun j hj => ?_⟩
  · show Function.update h.strong id (h.strong id - 1) j = _
    by_cases hji : j = id
    · subst hji
      rw [Function.update_self, hc.strong, List.count_cons_self]
      rfl
    · rw [Function.update_of_ne hji, hc.strong, List.count_cons_of_ne (Ne.symm hji)]
  · show Function.update h.strong id (h.strong id - 1) j = 0
    by_cases hji : j = id
    · subst hji
      rw [Function.update_self, hc.fresh j hj]
    · rw [Function.update_of_ne hji]
      exact hc.fresh j hj

/-- A caller clones or drops. -/
lemma undisturbed_act (h : MemoryHeap) (action : CallerAction) : Undisturbed h (h.act action) := by
  cases action with
  | clone id =>
    rw [act]
    split_ifs with hid
    · refine ⟨⟨fun _ => ⟨rfl, rfl⟩, rfl, fun j hj => ?_⟩, fun refs hc =>
        ⟨fun j => ?_, fun j hj => ?_⟩⟩
      · show j ∉ id :: h.retained
        rw [List.mem_cons, not_or]
        exact ⟨fun he => hj (he ▸ hid), hj⟩
      · show Function.update h.strong id (h.strong id + 1) j = (id :: h.retained).count j + _
        by_cases hji : j = id
        · subst hji
          rw [Function.update_self, hc.strong, List.count_cons_self]
          omega
        · rw [Function.update_of_ne hji, hc.strong, List.count_cons_of_ne (Ne.symm hji)]
      · show Function.update h.strong id (h.strong id + 1) j = 0
        have hne : j ≠ id := by
          rintro rfl
          have := hc.strong j
          have := List.count_pos_iff.2 hid
          have := hc.fresh j hj
          omega
        rw [Function.update_of_ne hne]
        exact hc.fresh j hj
    · exact .refl h
  | drop id =>
    rw [act]
    split_ifs with hid
    · obtain ⟨hframe, hretained⟩ := frame_dropValue { h with retained := h.retained.erase id } id
      refine ⟨⟨hframe.contents, hframe.next, fun j hj => ?_⟩, fun refs hc => ?_⟩
      · rw [hretained]
        exact fun hm => hj (List.mem_of_mem_erase hm)
      · -- the reference of the caller counts as one more of the shard until it is dropped
        have hc' : Counted { h with retained := h.retained.erase id } (id :: refs) := by
          refine ⟨fun j => ?_, hc.fresh⟩
          show h.strong j = (h.retained.erase id).count j + (id :: refs).count j
          rw [hc.strong]
          by_cases hji : j = id
          · subst hji
            have := List.count_pos_iff.2 hid
            rw [List.count_erase_self, List.count_cons_self]
            omega
          · rw [List.count_erase_of_ne hji, List.count_cons_of_ne (Ne.symm hji)]
        exact hc'.dropValue
    · exact .refl h

/-- Any number of actions. -/
lemma undisturbed_acts (actions : List CallerAction) (h : MemoryHeap) :
    Undisturbed h (actions.foldl act h) := by
  induction actions generalizing h with
  | nil => exact .refl h
  | cons action actions ih => exact (undisturbed_act h action).trans (ih _)

/-- The turns that are to come are not part of what is counted. -/
lemma undisturbed_turns (h : MemoryHeap) (turns : List Turn) : Undisturbed h { h with turns } :=
  ⟨⟨fun _ => ⟨rfl, rfl⟩, rfl, fun _ hid => hid⟩, fun _ hc => ⟨hc.strong, hc.fresh⟩⟩

/-- A turn. -/
lemma undisturbed_tick (h : MemoryHeap) : Undisturbed h h.tick.2 := by
  unfold tick
  cases h.turns with
  | nil => exact .refl h
  | cons turn turns => exact (undisturbed_turns h turns).trans (undisturbed_acts turn.actions _)

lemma undisturbed_tryChargeLoop (bytes attempts used : ℕ) (h : MemoryHeap) :
    Undisturbed h (tryChargeLoop bytes attempts used h).2 := by
  induction attempts generalizing used h with
  | zero => exact .refl h
  | succ attempts ih =>
    rw [tryChargeLoop]
    by_cases hfull : 2 ^ 64 ≤ used + bytes ∨ h.capacityBytes < used + bytes
    · rw [if_pos hfull]
      exact .refl h
    · rw [if_neg hfull]
      simp only
      split
      · exact (undisturbed_tick h).trans (undisturbed_usedBytes _ _)
      · exact (undisturbed_tick h).trans (ih _ _)

lemma undisturbed_tryCharge (h : MemoryHeap) (bytes : ℕ) : Undisturbed h (h.tryCharge bytes).2 :=
  (undisturbed_tick h).trans (undisturbed_tryChargeLoop _ _ _ _)

lemma undisturbed_availableBytes (h : MemoryHeap) : Undisturbed h h.availableBytes.2 :=
  undisturbed_tick h

lemma undisturbed_tryTransferLoop (released required attempts used : ℕ) (h : MemoryHeap) :
    Undisturbed h (tryTransferLoop released required attempts used h).2 := by
  induction attempts generalizing used h with
  | zero => exact .refl h
  | succ attempts ih =>
    rw [tryTransferLoop]
    split
    · exact .refl h
    · rename_i next hnext
      by_cases hfull : h.capacityBytes < next
      · rw [if_pos hfull]
        exact .refl h
      rw [if_neg hfull]
      by_cases hsame : next = used
      · rw [if_pos hsame]
        exact .refl h
      rw [if_neg hsame]
      simp only
      split
      · exact (undisturbed_tick h).trans (undisturbed_usedBytes _ _)
      · exact (undisturbed_tick h).trans (ih _ _)

lemma undisturbed_tryTransferCharge (h : MemoryHeap) (released required : ℕ) :
    Undisturbed h (h.tryTransferCharge released required).2 :=
  (undisturbed_tick h).trans (undisturbed_tryTransferLoop _ _ _ _ _)

lemma undisturbed_releasesChargeOnRemove (h : MemoryHeap) (id : ℕ) :
    Undisturbed h (h.releasesChargeOnRemove id).2 := undisturbed_tick h

/-- A value that the shard holds is exclusive exactly if no caller retains it. -/
lemma Counted.exclusive (hc : h.Counted (id :: refs)) (hid : id ∉ refs) :
    h.strong id = 1 ↔ id ∉ h.retained := by
  rw [hc.strong, List.count_cons_self, List.count_eq_zero.2 hid, ← List.count_eq_zero]
  omega

/-- The charge of an exclusive value can be disarmed, and that is all that happens. -/
lemma disarmExclusiveCharge_spec (hc : h.Counted (id :: refs)) (hid : id ∉ refs)
    (hexclusive : id ∉ h.retained) :
    ∃ h', h.disarmExclusiveCharge id = some h' ∧ Undisturbed h h' := by
  have htick := undisturbed_tick h
  have hstrong := ((htick.counted _ hc).exclusive hid).2 (htick.retained id hexclusive)
  refine ⟨_, if_pos hstrong, htick.trans ⟨⟨fun j => ?_, rfl, fun _ hj => hj⟩, fun _ hc =>
    ⟨hc.strong, hc.fresh⟩⟩⟩
  by_cases hj : j = id
  · subst hj
    simp
  · simp [Function.update_of_ne hj]

/-! ## New values -/

/-- The contents of an allocation for an entry. -/
structure Contains (h : MemoryHeap) (id : ℕ) (key value : List UInt8) (seqno : BitVec 64) :
    Prop where
  /-- The bytes. -/
  bytes : (h.inner id).bytes = memoryValueBytes key value seqno
  /-- The length of the key. -/
  keyLength : (h.inner id).keyLength = key.length

/-- What is read from the allocation of an entry. -/
lemma Contains.reads {h : MemoryHeap} {id : ℕ} {key value : List UInt8} {seqno : BitVec 64}
    (hc : h.Contains id key value seqno) :
    (h.inner id).key = key ∧ (h.inner id).value = value ∧ (h.inner id).seqno = seqno ∧
      (h.inner id).chargedBytes = memoryEntryOverheadBytes + key.length + value.length := by
  have hseqno : (u64Bytes seqno).length = memoryValueSeqnoBytes := length_u64Bytes seqno
  have hlength : (memoryValueBytes key value seqno).length - memoryValueSeqnoBytes =
      (key ++ value).length := by
    rw [memoryValueBytes, List.length_append, hseqno, Nat.add_sub_cancel]
  refine ⟨?_, ?_, ?_, ?_⟩
  · rw [MemoryValueInner.key, hc.bytes, hc.keyLength, memoryValueBytes, List.append_assoc,
      List.take_left]
  · rw [MemoryValueInner.value, hc.bytes, hc.keyLength, hlength, memoryValueBytes, List.take_left,
      List.drop_left]
  · rw [MemoryValueInner.seqno, hc.bytes, hlength, memoryValueBytes, List.drop_left]
    show BitVec.ofNat 64 (leVal (leBytes 8 seqno.toNat)) = seqno
    rw [leVal_leBytes, show (256 : ℕ) ^ 8 = 2 ^ 64 by norm_num, Nat.mod_eq_of_lt seqno.isLt,
      BitVec.ofNat_toNat, BitVec.setWidth_eq]
  · have h8 : memoryValueSeqnoBytes = 8 := rfl
    rw [MemoryValueInner.chargedBytes, hc.bytes, memoryValueBytes, List.length_append,
      List.length_append, hseqno]
    omega

/-- What comes of the heap when a new value is made: the value, if there is one, takes an allocation
that was recycled or is new, that no caller retains, and that contains the entry; other contents do
not change. -/
structure Created (h h' : MemoryHeap) (created recycled : Option ℕ) (key value : List UInt8)
    (seqno : BitVec 64) (refs : List ℕ) : Prop where
  /-- The allocation. -/
  origin : ∀ id, created = some id → (recycled = some id ∨ id = h.next) ∧ id < h'.next ∧
    id ∉ h'.retained ∧ h'.Contains id key value seqno
  /-- Other contents. -/
  contents : ∀ id, created ≠ some id → (h'.inner id).bytes = (h.inner id).bytes ∧
    (h'.inner id).keyLength = (h.inner id).keyLength
  /-- Numbers in use stay in use. -/
  next : h.next ≤ h'.next
  /-- Callers only retain what they retained. -/
  retained : ∀ id, id ∉ h.retained → id ∉ h'.retained
  /-- The references. -/
  counted : h'.Counted (created.toList ++ refs)
  /-- Nothing happens where nothing is made. -/
  frame : created = none → Frame h h'

/-- Contents that do not change are read alike. -/
lemma SameContents.reads {h h' : MemoryHeap} (hs : SameContents h h') (id : ℕ) :
    (h'.inner id).key = (h.inner id).key ∧ (h'.inner id).value = (h.inner id).value ∧
      (h'.inner id).seqno = (h.inner id).seqno ∧
      (h'.inner id).chargedBytes = (h.inner id).chargedBytes := by
  obtain ⟨hbytes, hkey⟩ := hs id
  simp only [MemoryValueInner.key, MemoryValueInner.value, MemoryValueInner.seqno,
    MemoryValueInner.chargedBytes, hbytes, hkey, and_self]

/-- Contents that do not change. -/
lemma SameContents.contains {h h' : MemoryHeap} (hs : SameContents h h') {id : ℕ}
    {key value : List UInt8} {seqno : BitVec 64} (hc : h.Contains id key value seqno) :
    h'.Contains id key value seqno :=
  ⟨(hs id).1.trans hc.bytes, (hs id).2.trans hc.keyLength⟩

/-- A reference that is returned to a caller. -/
lemma Counted.retain {h : MemoryHeap} {refs : List ℕ} (hc : h.Counted refs) {id : ℕ}
    (hid : id ∈ refs) : (h.retain id).Counted refs := by
  refine ⟨fun j => ?_, fun j hj => ?_⟩
  · show Function.update h.strong id (h.strong id + 1) j = (id :: h.retained).count j + _
    by_cases hji : j = id
    · subst hji
      rw [Function.update_self, hc.strong, List.count_cons_self]
      omega
    · rw [Function.update_of_ne hji, hc.strong, List.count_cons_of_ne (Ne.symm hji)]
  · show Function.update h.strong id (h.strong id + 1) j = 0
    have hne : j ≠ id := by
      rintro rfl
      have := hc.strong j
      have := List.count_pos_iff.2 hid
      have := hc.fresh j hj
      omega
    rw [Function.update_of_ne hne]
    exact hc.fresh j hj

/-- Before a value is made, other things may happen. -/
lemma Created.of_frame {h h' h'' : MemoryHeap} {created recycled : Option ℕ}
    {key value : List UInt8} {seqno : BitVec 64} {refs : List ℕ} (hu : Frame h h')
    (hc : Created h' h'' created recycled key value seqno refs) :
    Created h h'' created recycled key value seqno refs := by
  refine ⟨fun id hid => ?_, fun id hid => ?_, ?_, fun id hid => hc.retained id (hu.retained id hid),
    hc.counted, fun hnone => hu.trans (hc.frame hnone)⟩
  · obtain ⟨horigin, hrest⟩ := hc.origin id hid
    exact ⟨horigin.imp_right fun he => he.trans hu.next, hrest⟩
  · have h₁ := hc.contents id hid
    have h₂ := hu.contents id
    exact ⟨h₁.1.trans h₂.1, h₁.2.trans h₂.2⟩
  · rw [← hu.next]
    exact hc.next

/-- A new allocation. -/
lemma allocate_spec {h : MemoryHeap} {refs : List ℕ} (hc : h.Counted refs) (key value : List UInt8)
    (seqno : BitVec 64) (charge : MemoryCharge) (recycled : Option ℕ) :
    let result := h.allocate ⟨memoryValueBytes key value seqno, key.length, charge⟩
    Created h result.2 (some result.1) recycled key value seqno refs := by
  have hzero := hc.fresh h.next (Nat.le_refl _)
  have hcount := hc.strong h.next
  refine ⟨fun id hid => ?_, fun id hid => ?_, Nat.le_succ _, fun _ hid => hid,
    ⟨fun id => ?_, fun id hid => ?_⟩, fun hnone => by cases hnone⟩
  · obtain rfl := Option.some.inj hid
    refine ⟨.inr rfl, Nat.lt_succ_self _, ?_, ⟨?_, ?_⟩⟩
    · show h.next ∉ h.retained
      rw [← List.count_eq_zero]
      omega
    · show (Function.update h.inner h.next _ h.next).bytes = _
      rw [Function.update_self]
    · show (Function.update h.inner h.next _ h.next).keyLength = _
      rw [Function.update_self]
  · have hne : id ≠ h.next := fun he => hid (by rw [he]; rfl)
    show (Function.update h.inner h.next _ id).bytes = _ ∧ _
    rw [Function.update_of_ne hne]
    refine ⟨rfl, ?_⟩
    show (Function.update h.inner h.next _ id).keyLength = _
    rw [Function.update_of_ne hne]
  · show Function.update h.strong h.next 1 id = h.retained.count id + (h.next :: refs).count id
    by_cases hid : id = h.next
    · subst hid
      rw [Function.update_self, List.count_cons_self]
      omega
    · rw [Function.update_of_ne hid, List.count_cons_of_ne (Ne.symm hid), hc.strong]
  · show Function.update h.strong h.next 1 id = 0
    have hlt : h.next + 1 ≤ id := hid
    rw [Function.update_of_ne (by omega)]
    exact hc.fresh id (by omega)

/-- An exclusive allocation is written again. -/
lemma overwrite_spec {h : MemoryHeap} {refs : List ℕ} {id : ℕ} (hc : h.Counted (id :: refs))
    (hid : id ∉ refs) (hexclusive : h.strong id = 1) (key value : List UInt8) (seqno : BitVec 64)
    (charge : MemoryCharge) :
    Created h (h.overwrite id ⟨memoryValueBytes key value seqno, key.length, charge⟩) (some id)
      (some id) key value seqno refs := by
  have hdrop := undisturbed_dropCharge h (h.inner id).charge
  have hlt : id < h.next := by
    by_contra hge
    have := hc.fresh id (Nat.le_of_not_lt hge)
    omega
  refine Created.of_frame hdrop.toFrame ⟨fun j hj => ?_, fun j hj => ?_, Nat.le_refl _,
    fun _ hj => hj, ?_, fun hnone => by cases hnone⟩
  · obtain rfl := Option.some.inj hj
    refine ⟨.inl rfl, ?_, ?_, ⟨?_, ?_⟩⟩
    · show id < (h.dropCharge _).next
      rw [hdrop.next]
      exact hlt
    · exact hdrop.retained id ((hc.exclusive hid).1 hexclusive)
    · show (Function.update (h.dropCharge _).inner id _ id).bytes = _
      rw [Function.update_self]
    · show (Function.update (h.dropCharge _).inner id _ id).keyLength = _
      rw [Function.update_self]
  · have hne : j ≠ id := fun he => hj (by rw [he])
    show (Function.update (h.dropCharge _).inner id _ j).bytes = _ ∧
      (Function.update (h.dropCharge _).inner id _ j).keyLength = _
    rw [Function.update_of_ne hne]
    exact ⟨rfl, rfl⟩
  · have := hdrop.counted _ hc
    exact ⟨this.strong, this.fresh⟩

/-- Nothing is made. -/
lemma created_none {h h' : MemoryHeap} {refs : List ℕ} (hu : Frame h h') (hc : h'.Counted refs)
    (recycled : Option ℕ) (key value : List UInt8) (seqno : BitVec 64) :
    Created h h' none recycled key value seqno refs :=
  ⟨fun id hid => (Option.some_ne_none id hid.symm).elim, fun id _ => hu.contents id,
    Nat.le_of_eq hu.next.symm, hu.retained, hc, fun _ => hu⟩

/-- **A new value.** It takes an allocation of its own, and the one that was to be recycled is
dropped if it is not taken. -/
theorem tryNew_spec {h : MemoryHeap} {refs : List ℕ} {recycled : Option ℕ}
    (hc : h.Counted (recycled.toList ++ refs)) (hrecycled : ∀ id, recycled = some id → id ∉ refs)
    (key value : List UInt8) (seqno : BitVec 64) (charge : MemoryCharge) :
    let result := h.tryNew key value seqno charge recycled
    Created h result.2 result.1 recycled key value seqno refs := by
  -- the allocation that comes last
  have hallocate : ∀ {h' : MemoryHeap}, Frame h h' → h'.Counted refs →
      let result := (if h'.tick.1 then (none, h'.tick.2.dropCharge charge)
        else (h'.tick.2.allocate ⟨memoryValueBytes key value seqno, key.length, charge⟩).map
          some id)
      Created h result.2 result.1 recycled key value seqno refs := by
    intro h' hframe hc'
    have htick := undisturbed_tick h'
    have hcounted := htick.counted refs hc'
    split_ifs with hfails
    · have hdrop := undisturbed_dropCharge h'.tick.2 charge
      exact created_none (hframe.trans (htick.trans hdrop).toFrame) (hdrop.counted refs hcounted) _
        _ _ _
    · exact .of_frame (hframe.trans htick.toFrame) (allocate_spec hcounted _ _ _ _ _)
  simp only
  unfold tryNew
  simp only
  by_cases hlength : 2 ^ 64 ≤ (memoryValueBytes key value seqno).length
  · rw [if_pos hlength]
    have hdrop := undisturbed_dropCharge (recycled.elim h h.dropValue) charge
    cases recycled with
    | none => exact created_none hdrop.toFrame (hdrop.counted refs hc) _ _ _ _
    | some id =>
      exact created_none ((frame_dropValue h id).1.trans hdrop.toFrame)
        (hdrop.counted refs hc.dropValue) _ _ _ _
  · rw [if_neg hlength]
    cases recycled with
    | none => exact hallocate (Undisturbed.refl h).toFrame hc
    | some id =>
      have htick := undisturbed_tick h
      have hcounted : h.tick.2.Counted (id :: refs) := htick.counted _ hc
      simp only
      by_cases hreuse : h.tick.2.strong id = 1 ∧
          (h.tick.2.inner id).bytes.length = (memoryValueBytes key value seqno).length
      · rw [if_pos hreuse]
        exact .of_frame htick.toFrame
          (overwrite_spec hcounted (hrecycled id rfl) hreuse.1 _ _ _ _)
      · rw [if_neg hreuse]
        exact hallocate (htick.toFrame.trans (frame_dropValue _ id).1) hcounted.dropValue

end Undisturbed

end MemoryHeap

end Cache2
