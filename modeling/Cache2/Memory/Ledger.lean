import Cache2.Memory.Value
import Mathlib.Algebra.BigOperators.Group.Finset.Basic
import Mathlib.Algebra.Order.BigOperators.Group.Finset
import Mathlib.Logic.Relation

set_option relaxedAutoImplicit false
set_option autoImplicit false

/-!
# The books of the byte budget

The counter of a budget is in order when it is the sum of the charges of all live allocations, each
counted once. During an admission it is ahead of that sum by a charge that no allocation has yet,
and behind it by the charges of victims that have been transferred but not yet disarmed. What
callers do meanwhile changes both sides alike.

Every change of the heap is one of a few accesses; none of them raises the counter above the
capacity, and none writes to an allocation that a caller retains.

## Main definitions

* `Cache2.MemoryHeap.totalBytes` — the charges of all live allocations.
* `Cache2.MemoryHeap.Ledger` — the counter agrees with them.
* `Cache2.MemoryHeap.Access`, `Cache2.MemoryHeap.Path` — accesses, and sequences of them.

## Main results

* `Cache2.MemoryHeap.Ledger.tick` — turns of callers keep the books in order.
* `Cache2.MemoryHeap.Ledger.tryCharge`, `Cache2.MemoryHeap.Ledger.tryTransferCharge` — charges.
* `Cache2.MemoryHeap.Ledger.disarm`, `Cache2.MemoryHeap.Ledger.dropValue`,
  `Cache2.MemoryHeap.Ledger.tryNew` — values.
-/

namespace Cache2

open Bytes Word

namespace MemoryHeap

/-! ## The charges of live allocations -/

/-- What an allocation is charged for, if it is live and its charge is armed. -/
def armedBytes (h : MemoryHeap) (id : ℕ) : ℕ :=
  if h.strong id ≠ 0 ∧ (h.inner id).charge.armed = true then (h.inner id).charge.bytes else 0

/-- The charges of all live allocations. -/
def totalBytes (h : MemoryHeap) : ℕ := ∑ id ∈ Finset.range h.next, h.armedBytes id

section Total

variable {h h' : MemoryHeap} {id : ℕ}

/-- The charges do not change. -/
lemma totalBytes_congr (hnext : h'.next = h.next) (hsame : ∀ j, h'.armedBytes j = h.armedBytes j) :
    h'.totalBytes = h.totalBytes := by
  rw [totalBytes, totalBytes, hnext]
  exact Finset.sum_congr rfl fun j _ => hsame j

/-- The charge of one allocation changes. -/
lemma totalBytes_change (hnext : h'.next = h.next) (hid : id < h.next)
    (hother : ∀ j, j ≠ id → h'.armedBytes j = h.armedBytes j) :
    h'.totalBytes + h.armedBytes id = h.totalBytes + h'.armedBytes id := by
  have hmem : id ∈ Finset.range h.next := Finset.mem_range.2 hid
  have hrest : ∑ j ∈ (Finset.range h.next).erase id, h'.armedBytes j =
      ∑ j ∈ (Finset.range h.next).erase id, h.armedBytes j :=
    Finset.sum_congr rfl fun j hj => hother j (Finset.ne_of_mem_erase hj)
  rw [totalBytes, totalBytes, hnext, ← Finset.add_sum_erase _ _ hmem,
    ← Finset.add_sum_erase _ h.armedBytes hmem, hrest]
  omega

/-- Some of the charges are no more than all. -/
lemma sum_armedBytes_le {l : List ℕ} (hnodup : l.Nodup) (hlt : ∀ j ∈ l, j < h.next) :
    (l.map h.armedBytes).sum ≤ h.totalBytes := by
  rw [← List.sum_toFinset _ hnodup]
  refine Finset.sum_le_sum_of_subset fun j hj => ?_
  exact Finset.mem_range.2 (hlt j (List.mem_toFinset.1 hj))

end Total

/-! ## Accesses -/

/-- A change of the heap that other threads see as a whole. -/
inductive Access : MemoryHeap → MemoryHeap → Prop
  | turn (h : MemoryHeap) (turns : List Turn) : Access h { h with turns }
  | act (h : MemoryHeap) (action : CallerAction) : Access h (h.act action)
  | charge (h : MemoryHeap) (bytes : ℕ) :
    Access h { h with usedBytes := h.usedBytes + bytes }
  | transfer (h : MemoryHeap) (released required : ℕ) (enough : released ≤ h.usedBytes) :
    Access h { h with usedBytes := h.usedBytes - released + required }
  | release (h : MemoryHeap) (charge : MemoryCharge)
    (enough : charge.armed = true → charge.bytes ≤ h.usedBytes) : Access h (h.dropCharge charge)
  | clone (h : MemoryHeap) (id : ℕ) : Access h (h.retain id)
  | drop (h : MemoryHeap) (id : ℕ) : Access h (h.dropValue id)
  | write (h : MemoryHeap) (id : ℕ) (new : MemoryValueInner) (exclusive : h.strong id = 1) :
    Access h { h with inner := Function.update h.inner id new }
  | allocate (h : MemoryHeap) (new : MemoryValueInner) : Access h (h.allocate new).2

/-- The counter is within the capacity, and values that callers retain are as they were. -/
structure Safe (h h' : MemoryHeap) : Prop where
  /-- The counter. -/
  fits : h'.usedBytes ≤ h'.capacityBytes
  /-- The key, the value and the sequence number of a value that a caller retains. -/
  contents : ∀ id ∈ h.retained, (h'.inner id).bytes = (h.inner id).bytes ∧
    (h'.inner id).keyLength = (h.inner id).keyLength

/-- A sequence of accesses, all of them safe. -/
def Path : MemoryHeap → MemoryHeap → Prop :=
  Relation.ReflTransGen fun h h' => Access h h' ∧ Safe h h'

/-- One access. -/
lemma Path.single {h h' : MemoryHeap} (ha : Access h h') (hs : Safe h h') : Path h h' :=
  Relation.ReflTransGen.single ⟨ha, hs⟩

lemma Path.refl (h : MemoryHeap) : Path h h := Relation.ReflTransGen.refl

lemma Path.trans {h h' h'' : MemoryHeap} (h₁ : Path h h') (h₂ : Path h' h'') : Path h h'' :=
  Relation.ReflTransGen.trans h₁ h₂

/-- An access that does not write. -/
lemma safe_of_inner {h h' : MemoryHeap} (hfits : h'.usedBytes ≤ h'.capacityBytes)
    (hinner : h'.inner = h.inner) : Safe h h' :=
  ⟨hfits, fun id _ => by rw [hinner]; exact ⟨rfl, rfl⟩⟩

/-! ## The books -/

/-- Live values with their charges, which no caller retains. -/
def Exclusive (h : MemoryHeap) (ids : List ℕ) : Prop :=
  ∀ id ∈ ids, h.strong id ≠ 0 ∧ (h.inner id).charge.armed = true ∧ id ∉ h.retained

/-- The books of a heap while the shard holds the values `held` outside its slots, the charge
`pending` has no allocation yet, and the charges of `owed` have been transferred but not yet
disarmed. -/
structure Ledger (h : MemoryHeap) (held : List ℕ) (pending : ℕ) (owed : List ℕ) : Prop where
  /-- The counter is a word. -/
  capacity : h.capacityBytes < 2 ^ 64
  /-- The counter is within the capacity. -/
  fits : h.usedBytes ≤ h.capacityBytes
  /-- Charges are those of the contents. -/
  charged : ∀ id, h.strong id ≠ 0 → (h.inner id).charge.bytes = (h.inner id).chargedBytes
  /-- Only a value that the shard holds alone may have lost its charge. -/
  armed : ∀ id, h.strong id ≠ 0 → (h.inner id).charge.armed = false →
    id ∈ held ∧ id ∉ h.retained
  /-- Charges are transferred once. -/
  nodup : owed.Nodup
  /-- They are those of values that only the shard holds. -/
  exclusive : h.Exclusive owed
  /-- The counter. -/
  balance : h.usedBytes + (owed.map h.armedBytes).sum = h.totalBytes + pending

section Ledger

variable {h h' : MemoryHeap} {refs held owed : List ℕ} {pending id : ℕ}

/-- A live value has a number that is not free. -/
lemma Counted.lt_next (hc : h.Counted refs) (hlive : h.strong id ≠ 0) : id < h.next := by
  by_contra hge
  exact hlive (hc.fresh id (Nat.le_of_not_lt hge))

/-- A value that a caller retains is live. -/
lemma Counted.live_of_retained (hc : h.Counted refs) (hid : id ∈ h.retained) :
    h.strong id ≠ 0 := by
  have hcount := List.count_pos_iff.2 hid
  have hstrong := hc.strong id
  omega

/-- The same of all values that are referred to. -/
lemma Counted.live_of_mem (hc : h.Counted refs) (hid : id ∈ refs ++ h.retained) :
    h.strong id ≠ 0 := by
  have hstrong := hc.strong id
  rcases List.mem_append.1 hid with hid | hid
  · have hcount := List.count_pos_iff.2 hid
    omega
  · exact hc.live_of_retained hid

/-- A value that a caller retains has its charge. -/
lemma Ledger.armed_of_retained (hl : h.Ledger held pending owed) (hc : h.Counted refs)
    (hid : id ∈ h.retained) : (h.inner id).charge.armed = true := by
  by_contra harmed
  exact (hl.armed id (hc.live_of_retained hid) (by simpa using harmed)).2 hid

/-- The charges that are owed and one more are within the counter. -/
lemma Ledger.armedBytes_le (hl : h.Ledger held pending owed) (hc : h.Counted refs)
    (hlive : h.strong id ≠ 0) (howed : id ∉ owed) : h.armedBytes id ≤ h.usedBytes := by
  have hsum := sum_armedBytes_le (h := h) (List.nodup_cons.2 ⟨howed, hl.nodup⟩) fun j hj => by
    rcases List.mem_cons.1 hj with rfl | hj
    · exact hc.lt_next hlive
    · exact hc.lt_next (hl.exclusive j hj).1
  rw [List.map_cons, List.sum_cons] at hsum
  have hbalance := hl.balance
  omega

/-- Dropping a charge that the counter has. -/
lemma dropCharge_of_le (charge : MemoryCharge) (hlt : h.usedBytes < 2 ^ 64)
    (hle : charge.armed = true → charge.bytes ≤ h.usedBytes) :
    h.dropCharge charge =
      { h with usedBytes := h.usedBytes - if charge.armed = true then charge.bytes else 0 } := by
  unfold dropCharge
  split_ifs with harmed
  · rw [wrappingSub_of_le (hle harmed) hlt]
  · rfl

/-- What the counter is ahead by is within it. -/
lemma Ledger.pending_le (hl : h.Ledger held pending owed) (hc : h.Counted refs) :
    pending ≤ h.usedBytes := by
  have hsum := sum_armedBytes_le (h := h) hl.nodup fun j hj => hc.lt_next (hl.exclusive j hj).1
  have hbalance := hl.balance
  omega

/-- The pending charge is given up. -/
lemma Ledger.dropCharge (charge : MemoryCharge)
    (hl : h.Ledger held (pending + charge.bytes) owed) (hc : h.Counted refs)
    (harmed : charge.armed = true) :
    (h.dropCharge charge).Ledger held pending owed ∧ Path h (h.dropCharge charge) := by
  have hle : charge.bytes ≤ h.usedBytes := (Nat.le_add_left _ _).trans (hl.pending_le hc)
  have heq := dropCharge_of_le charge (hl.fits.trans_lt hl.capacity) fun _ => hle
  rw [if_pos harmed] at heq
  have hfits : (h.dropCharge charge).usedBytes ≤ (h.dropCharge charge).capacityBytes := by
    rw [heq]
    exact (Nat.sub_le _ _).trans hl.fits
  refine ⟨?_, .single (.release h charge fun _ => hle) (safe_of_inner hfits (by rw [heq]))⟩
  rw [heq] at hfits ⊢
  refine ⟨hl.capacity, hfits, hl.charged, hl.armed, hl.nodup, hl.exclusive, ?_⟩
  have hbalance := hl.balance
  show h.usedBytes - charge.bytes + (owed.map h.armedBytes).sum = h.totalBytes + pending
  omega

/-! ## References -/

/-- A reference to a value is dropped, and the last one takes the charge along. -/
lemma Ledger.dropValue_eq (hl : h.Ledger held pending owed) (hc : h.Counted refs)
    (hlive : h.strong id ≠ 0) (howed : id ∉ owed) :
    h.dropValue id = { h with
      strong := Function.update h.strong id (h.strong id - 1)
      usedBytes := h.usedBytes - if h.strong id = 1 then h.armedBytes id else 0 } := by
  have hle := hl.armedBytes_le hc hlive howed
  unfold MemoryHeap.dropValue
  dsimp only
  split_ifs with hlast
  · refine (dropCharge_of_le _
      (h := { h with strong := Function.update h.strong id (h.strong id - 1) })
      (hl.fits.trans_lt hl.capacity) fun harmed => ?_).trans ?_
    · rwa [armedBytes, if_pos ⟨hlive, harmed⟩] at hle
    · simp only [armedBytes, hlive, ne_eq, not_false_eq_true, true_and]
  · rfl

/-- The counter and the charges after a reference is dropped. -/
lemma Ledger.dropValue_balance (hl : h.Ledger held pending owed) (hc : h.Counted refs)
    (hlive : h.strong id ≠ 0) (howed : id ∉ owed) :
    (h.dropValue id).usedBytes ≤ h.usedBytes ∧
      (h.dropValue id).usedBytes + (owed.map (h.dropValue id).armedBytes).sum =
        (h.dropValue id).totalBytes + pending := by
  have hle := hl.armedBytes_le hc hlive howed
  have hbalance := hl.balance
  rw [hl.dropValue_eq hc hlive howed]
  refine ⟨Nat.sub_le _ _, ?_⟩
  generalize hdropped : { h with
    strong := Function.update h.strong id (h.strong id - 1)
    usedBytes := h.usedBytes - if h.strong id = 1 then h.armedBytes id else 0 } = dropped
  have hused : dropped.usedBytes =
      h.usedBytes - if h.strong id = 1 then h.armedBytes id else 0 := by rw [← hdropped]
  have hother : ∀ j, j ≠ id → dropped.armedBytes j = h.armedBytes j := by
    intro j hj
    rw [← hdropped]
    simp only [armedBytes, Function.update_of_ne hj]
  have hself : dropped.armedBytes id = if h.strong id = 1 then 0 else h.armedBytes id := by
    rw [← hdropped]
    simp only [armedBytes, Function.update_self]
    by_cases hlast : h.strong id = 1
    · simp [hlast]
    · have : h.strong id - 1 ≠ 0 := by omega
      simp [hlast, this, hlive]
  have hnext : dropped.next = h.next := by rw [← hdropped]
  have htotal := totalBytes_change hnext (hc.lt_next hlive) hother
  have hsame : owed.map dropped.armedBytes = owed.map h.armedBytes :=
    List.map_congr_left fun j hj => hother j fun he => howed (he ▸ hj)
  rw [hsame, hused]
  rw [hself] at htotal
  split_ifs at htotal ⊢ <;> omega

/-- The value that the shard has taken out of a slot is dropped. -/
lemma Ledger.dropValue (hl : h.Ledger (id :: held) pending owed) (hc : h.Counted (id :: refs))
    (hid : id ∉ refs) (howed : id ∉ owed) :
    (h.dropValue id).Ledger held pending owed ∧ Path h (h.dropValue id) := by
  have hcount := hc.strong id
  rw [List.count_cons_self, List.count_eq_zero.2 hid] at hcount
  have hlive : h.strong id ≠ 0 := by omega
  have heq := hl.dropValue_eq hc hlive howed
  obtain ⟨hused, hbalance⟩ := hl.dropValue_balance hc hlive howed
  have hstrong : ∀ j, j ≠ id → (h.dropValue id).strong j = h.strong j := by
    intro j hj
    rw [heq]
    exact Function.update_of_ne hj _ _
  have hself : (h.dropValue id).strong id = h.strong id - 1 := by
    rw [heq]
    exact Function.update_self _ _ _
  have hinner : (h.dropValue id).inner = h.inner := by rw [heq]
  have hretained : (h.dropValue id).retained = h.retained := by rw [heq]
  have hcapacity : (h.dropValue id).capacityBytes = h.capacityBytes := by rw [heq]
  have hfits : (h.dropValue id).usedBytes ≤ (h.dropValue id).capacityBytes := by
    rw [hcapacity]
    exact hused.trans hl.fits
  have hlive' : ∀ j, (h.dropValue id).strong j ≠ 0 → h.strong j ≠ 0 := by
    intro j hj
    by_cases hji : j = id
    · rwa [hji]
    · rwa [← hstrong j hji]
  refine ⟨⟨hcapacity ▸ hl.capacity, hfits, fun j hj => ?_, fun j hj harmed => ?_, hl.nodup,
    fun j hj => ?_, hbalance⟩, .single (.drop h id) (safe_of_inner hfits hinner)⟩
  · rw [hinner]
    exact hl.charged j (hlive' j hj)
  · rw [hinner] at harmed
    rw [hretained]
    obtain ⟨hheld, hnot⟩ := hl.armed j (hlive' j hj) harmed
    refine ⟨(List.mem_cons.1 hheld).resolve_left ?_, hnot⟩
    rintro rfl
    -- a value that is still live is one that a caller retains
    refine hnot (List.count_pos_iff.1 ?_)
    omega
  · obtain ⟨hlive₀, harmed, hnot⟩ := hl.exclusive j hj
    rw [hinner, hretained, hstrong j fun he => howed (he ▸ hj)]
    exact ⟨hlive₀, harmed, hnot⟩

/-- What the books say about references, when the contents and the counter do not change. -/
lemma Ledger.congr (hl : h.Ledger held pending owed)
    (hcapacity : h'.capacityBytes = h.capacityBytes) (hused : h'.usedBytes = h.usedBytes)
    (hnext : h'.next = h.next) (hinner : h'.inner = h.inner)
    (hlive : ∀ j, h'.strong j ≠ 0 ↔ h.strong j ≠ 0)
    (hretained : ∀ j, j ∈ h'.retained → j ∈ h.retained) : h'.Ledger held pending owed := by
  have harmed : ∀ j, h'.armedBytes j = h.armedBytes j := fun j => by
    simp only [armedBytes, hinner, hlive j]
  refine ⟨hcapacity ▸ hl.capacity, by rw [hused, hcapacity]; exact hl.fits, fun j hj => ?_,
    fun j hj hj' => ?_, hl.nodup, fun j hj => ?_, ?_⟩
  · rw [hinner]
    exact hl.charged j ((hlive j).1 hj)
  · rw [hinner] at hj'
    obtain ⟨hheld, hnot⟩ := hl.armed j ((hlive j).1 hj) hj'
    exact ⟨hheld, fun hm => hnot (hretained j hm)⟩
  · obtain ⟨hlive₀, hj', hnot⟩ := hl.exclusive j hj
    rw [hinner]
    exact ⟨(hlive j).2 hlive₀, hj', fun hm => hnot (hretained j hm)⟩
  · rw [hused, totalBytes_congr hnext harmed,
      List.map_congr_left (g := h.armedBytes) fun j _ => harmed j]
    exact hl.balance

/-- What callers do does not change contents and charges, nor the capacity. -/
lemma act_fixed (h : MemoryHeap) (action : CallerAction) :
    (h.act action).inner = h.inner ∧ (h.act action).capacityBytes = h.capacityBytes := by
  cases action <;>
  · simp only [MemoryHeap.act, MemoryHeap.dropValue, MemoryHeap.dropCharge]
    split_ifs <;> exact ⟨rfl, rfl⟩

/-- Callers do not touch what they do not retain. -/
lemma Exclusive.act {ids : List ℕ} (hx : h.Exclusive ids) (action : CallerAction) :
    (h.act action).Exclusive ids := by
  intro j hj
  obtain ⟨hlive, harmed, hnot⟩ := hx j hj
  rw [(act_fixed h action).1]
  refine ⟨?_, harmed, (undisturbed_act h action).retained j hnot⟩
  have hstrong : ∀ id ∈ h.retained, ∀ n, Function.update h.strong id n j ≠ 0 := by
    intro id hid n
    rw [Function.update_of_ne fun he => hnot (by rwa [he])]
    exact hlive
  cases action with
  | clone id =>
    rw [MemoryHeap.act]
    split_ifs with hid
    · exact hstrong id hid _
    · exact hlive
  | drop id =>
    rw [MemoryHeap.act]
    split_ifs with hid
    · simp only [MemoryHeap.dropValue, MemoryHeap.dropCharge]
      split_ifs <;> exact hstrong id hid _
    · exact hlive

lemma acts_fixed (actions : List CallerAction) (h : MemoryHeap) :
    (actions.foldl MemoryHeap.act h).inner = h.inner ∧
      (actions.foldl MemoryHeap.act h).capacityBytes = h.capacityBytes := by
  induction actions generalizing h with
  | nil => exact ⟨rfl, rfl⟩
  | cons action actions ih =>
    obtain ⟨hinner, hcapacity⟩ := act_fixed h action
    obtain ⟨hinner', hcapacity'⟩ := ih (h.act action)
    exact ⟨hinner'.trans hinner, hcapacity'.trans hcapacity⟩

lemma tick_fixed (h : MemoryHeap) :
    h.tick.2.inner = h.inner ∧ h.tick.2.capacityBytes = h.capacityBytes := by
  unfold MemoryHeap.tick
  cases h.turns with
  | nil => exact ⟨rfl, rfl⟩
  | cons turn turns => exact acts_fixed turn.actions { h with turns }

lemma Exclusive.acts {ids : List ℕ} (actions : List CallerAction) : ∀ {h : MemoryHeap},
    h.Exclusive ids → (actions.foldl MemoryHeap.act h).Exclusive ids := by
  induction actions with
  | nil => exact fun hx => hx
  | cons action actions ih => exact fun hx => ih (hx.act action)

lemma Exclusive.tick {ids : List ℕ} (hx : h.Exclusive ids) : h.tick.2.Exclusive ids := by
  unfold MemoryHeap.tick
  cases h.turns with
  | nil => exact hx
  | cons turn turns => exact Exclusive.acts turn.actions (h := { h with turns }) hx

/-- A caller clones or drops a value. -/
lemma Ledger.act (hl : h.Ledger held pending owed) (hc : h.Counted refs) (action : CallerAction) :
    (h.act action).Ledger held pending owed ∧ Path h (h.act action) := by
  cases action with
  | clone id =>
    by_cases hid : id ∈ h.retained
    · have heq : h.act (.clone id) =
          { h.cloneValue id with retained := id :: h.retained } := if_pos hid
      have hlive := hc.live_of_retained hid
      refine ⟨?_, .single (.act h _) ?_⟩
      · rw [heq]
        refine hl.congr rfl rfl rfl rfl (fun j => ?_) fun j hj => ?_
        · show Function.update h.strong id (h.strong id + 1) j ≠ 0 ↔ _
          by_cases hj : j = id
          · subst hj
            simp [hlive]
          · rw [Function.update_of_ne hj]
        · rcases List.mem_cons.1 hj with rfl | hj
          · exact hid
          · exact hj
      · rw [heq]
        exact safe_of_inner hl.fits rfl
    · rw [show h.act (.clone id) = h from if_neg hid]
      exact ⟨hl, .refl h⟩
  | drop id =>
    by_cases hid : id ∈ h.retained
    · have heq : h.act (.drop id) =
          { h with retained := h.retained.erase id }.dropValue id := if_pos hid
      have hlive := hc.live_of_retained hid
      have harmed := hl.armed_of_retained hc hid
      have howed : id ∉ owed := fun hm => (hl.exclusive id hm).2.2 hid
      -- the reference counts as one of the shard until it is dropped
      have hl' : Ledger { h with retained := h.retained.erase id } held pending owed :=
        hl.congr rfl rfl rfl rfl (fun _ => Iff.rfl) fun j hj => List.mem_of_mem_erase hj
      have hc' : Counted { h with retained := h.retained.erase id } (id :: refs) := by
        refine ⟨fun j => ?_, hc.fresh⟩
        show h.strong j = (h.retained.erase id).count j + (id :: refs).count j
        rw [hc.strong]
        by_cases hji : j = id
        · subst hji
          have := List.count_pos_iff.2 hid
          rw [List.count_erase_self, List.count_cons_self]
          omega
        · rw [List.count_erase_of_ne hji, List.count_cons_of_ne (Ne.symm hji)]
      have hdrop := hl'.dropValue_eq hc' hlive howed
      obtain ⟨hused, hbalance⟩ := hl'.dropValue_balance hc' hlive howed
      have hfits : (h.act (.drop id)).usedBytes ≤ (h.act (.drop id)).capacityBytes := by
        rw [heq]
        refine hused.trans (hl.fits.trans (le_of_eq ?_))
        rw [hdrop]
      have hinner : (h.act (.drop id)).inner = h.inner := by rw [heq, hdrop]
      refine ⟨?_, .single (.act h _) (safe_of_inner hfits hinner)⟩
      rw [heq] at hfits ⊢
      have hlive' : ∀ j, ({ h with retained := h.retained.erase id }.dropValue id).strong j ≠ 0 →
          h.strong j ≠ 0 := by
        intro j hj
        by_cases hji : j = id
        · exact hji ▸ hlive
        · have hj' : Function.update h.strong id (h.strong id - 1) j ≠ 0 := by
            rw [hdrop] at hj
            exact hj
          rwa [Function.update_of_ne hji] at hj'
      refine ⟨by rw [hdrop]; exact hl.capacity, hfits, fun j hj => ?_, fun j hj hj' => ?_, hl.nodup,
        fun j hj => ?_, hbalance⟩
      · rw [hdrop]
        exact hl.charged j (hlive' j hj)
      · rw [hdrop] at hj' ⊢
        obtain ⟨hheld, hnot⟩ := hl.armed j (hlive' j hj) hj'
        exact ⟨hheld, fun hm => hnot (List.mem_of_mem_erase hm)⟩
      · exact (heq ▸ hl.exclusive.act (.drop id)) j hj
    · rw [show h.act (.drop id) = h from if_neg hid]
      exact ⟨hl, .refl h⟩

/-- Any number of actions. -/
lemma Ledger.acts (actions : List CallerAction) : ∀ {h : MemoryHeap},
    h.Ledger held pending owed → h.Counted refs →
      (actions.foldl MemoryHeap.act h).Ledger held pending owed ∧
        Path h (actions.foldl MemoryHeap.act h) := by
  induction actions with
  | nil => exact fun hl _ => ⟨hl, .refl _⟩
  | cons action actions ih =>
    intro h hl hc
    obtain ⟨hl', hpath⟩ := hl.act hc action
    obtain ⟨hl'', hpath'⟩ := ih hl' ((undisturbed_act h action).counted refs hc)
    exact ⟨hl'', hpath.trans hpath'⟩

/-- **A turn** keeps the books in order. -/
lemma Ledger.tick (hl : h.Ledger held pending owed) (hc : h.Counted refs) :
    h.tick.2.Ledger held pending owed ∧ Path h h.tick.2 := by
  unfold MemoryHeap.tick
  cases h.turns with
  | nil => exact ⟨hl, .refl h⟩
  | cons turn turns =>
    have hl' : Ledger { h with turns } held pending owed :=
      hl.congr rfl rfl rfl rfl (fun _ => Iff.rfl) fun _ hj => hj
    obtain ⟨hl'', hpath⟩ := hl'.acts turn.actions ((undisturbed_turns h turns).counted refs hc)
    exact ⟨hl'', (Path.single (.turn h turns) (safe_of_inner hl.fits rfl)).trans hpath⟩

/-! ## Charges -/

/-- What an attempt to charge does. -/
structure Attempted (h h' : MemoryHeap) (attempt : MemoryChargeAttempt) (held : List ℕ)
    (pending bytes : ℕ) (owed : List ℕ) : Prop where
  /-- A charge is for the bytes asked for. -/
  charge : ∀ charge, attempt = .charged charge → charge = ⟨true, bytes⟩
  /-- It is pending, and others are owed for it. -/
  charged : (∃ charge, attempt = .charged charge) → h'.Ledger held (pending + bytes) owed
  /-- Otherwise nothing changes. -/
  refused : (∀ charge, attempt ≠ .charged charge) → h'.Ledger held pending []
  /-- The accesses. -/
  path : Path h h'

/-- Nothing was charged. -/
lemma Attempted.of_refused {attempt : MemoryChargeAttempt} {bytes : ℕ} {owed' : List ℕ}
    (hl : h'.Ledger held pending []) (hrefused : ∀ charge, attempt ≠ .charged charge)
    (hpath : Path h h') : Attempted h h' attempt held pending bytes owed' :=
  ⟨fun charge he => absurd he (hrefused charge), fun ⟨_, he⟩ => absurd he (hrefused _),
    fun _ => hl, hpath⟩

/-- A charge was made. -/
lemma Attempted.of_charged {bytes : ℕ} {owed' : List ℕ}
    (hl : h'.Ledger held (pending + bytes) owed') (hpath : Path h h') :
    Attempted h h' (.charged ⟨true, bytes⟩) held pending bytes owed' :=
  ⟨fun _ he => (MemoryChargeAttempt.charged.inj he).symm, fun _ => hl,
    fun hrefused => absurd rfl (hrefused _), hpath⟩

/-- More happened before. -/
lemma Attempted.after {h₀ : MemoryHeap} {attempt : MemoryChargeAttempt} {bytes : ℕ}
    {owed' : List ℕ} (hpath : Path h₀ h) (ha : Attempted h h' attempt held pending bytes owed') :
    Attempted h₀ h' attempt held pending bytes owed' :=
  ⟨ha.charge, ha.charged, ha.refused, hpath.trans ha.path⟩

/-- The counter is raised for a charge that is pending from then on. -/
lemma Ledger.charge (hl : h.Ledger held pending owed) (bytes : ℕ)
    (hfits : h.usedBytes + bytes ≤ h.capacityBytes) :
    { h with usedBytes := h.usedBytes + bytes }.Ledger held (pending + bytes) owed ∧
      Path h { h with usedBytes := h.usedBytes + bytes } := by
  refine ⟨⟨hl.capacity, hfits, hl.charged, hl.armed, hl.nodup, hl.exclusive, ?_⟩,
    .single (.charge h bytes) (safe_of_inner hfits rfl)⟩
  have hbalance := hl.balance
  show h.usedBytes + bytes + (owed.map h.armedBytes).sum = h.totalBytes + (pending + bytes)
  omega

lemma Ledger.tryChargeLoop (bytes attempts : ℕ) :
    ∀ {h : MemoryHeap} (used : ℕ), h.Ledger held pending [] → h.Counted refs →
      Attempted h (MemoryHeap.tryChargeLoop bytes attempts used h).2
        (MemoryHeap.tryChargeLoop bytes attempts used h).1 held pending bytes [] := by
  induction attempts with
  | zero =>
    exact fun used hl _ => .of_refused hl (fun _ => by simp [MemoryHeap.tryChargeLoop]) (.refl _)
  | succ attempts ih =>
    intro h used hl hc
    rw [MemoryHeap.tryChargeLoop]
    by_cases hfull : 2 ^ 64 ≤ used + bytes ∨ h.capacityBytes < used + bytes
    · rw [if_pos hfull]
      exact .of_refused hl (fun _ => by simp) (.refl _)
    rw [if_neg hfull]
    obtain ⟨hl', hpath⟩ := hl.tick hc
    simp only
    split_ifs with hsame
    · obtain ⟨hused, -⟩ := hsame
      obtain ⟨hl'', hpath'⟩ := hl'.charge bytes (by
        rw [hused, (tick_fixed h).2]
        omega)
      rw [hused] at hl'' hpath'
      exact .of_charged hl'' (hpath.trans hpath')
    · exact (ih _ hl' ((undisturbed_tick h).counted refs hc)).after hpath

/-- **An attempt to charge.** -/
lemma Ledger.tryCharge (hl : h.Ledger held pending []) (hc : h.Counted refs) (bytes : ℕ) :
    Attempted h (h.tryCharge bytes).2 (h.tryCharge bytes).1 held pending bytes [] := by
  obtain ⟨hl', hpath⟩ := hl.tick hc
  exact (hl'.tryChargeLoop bytes _ _ ((undisturbed_tick h).counted refs hc)).after hpath

/-- The counter is changed by a transfer. -/
lemma Ledger.transfer {ids : List ℕ} {released : ℕ} (required : ℕ) (hl : h.Ledger held pending [])
    (hx : h.Exclusive ids) (hnodup : ids.Nodup) (hreleased : (ids.map h.armedBytes).sum = released)
    (henough : released ≤ h.usedBytes)
    (hfits : h.usedBytes - released + required ≤ h.capacityBytes) :
    { h with usedBytes := h.usedBytes - released + required }.Ledger held (pending + required) ids ∧
      Path h { h with usedBytes := h.usedBytes - released + required } := by
  refine ⟨⟨hl.capacity, hfits, hl.charged, hl.armed, hnodup, hx, ?_⟩,
    .single (.transfer h released required henough) (safe_of_inner hfits rfl)⟩
  have hbalance := hl.balance
  rw [List.map_nil, List.sum_nil] at hbalance
  show h.usedBytes - released + required + (ids.map h.armedBytes).sum =
    h.totalBytes + (pending + required)
  omega

lemma armedBytes_tick {ids : List ℕ} (hx : h.Exclusive ids) :
    ids.map h.tick.2.armedBytes = ids.map h.armedBytes := by
  refine List.map_congr_left fun j hj => ?_
  obtain ⟨hlive, harmed, -⟩ := hx j hj
  obtain ⟨hlive', harmed', -⟩ := hx.tick j hj
  rw [armedBytes, armedBytes, if_pos ⟨hlive', harmed'⟩, if_pos ⟨hlive, harmed⟩, (tick_fixed h).1]

lemma Ledger.tryTransferLoop {ids : List ℕ} (hnodup : ids.Nodup) (released required attempts : ℕ) :
    ∀ {h : MemoryHeap} (used : ℕ), h.Ledger held pending [] → h.Counted refs → h.Exclusive ids →
      (ids.map h.armedBytes).sum = released → h.usedBytes = used →
      Attempted h (MemoryHeap.tryTransferLoop released required attempts used h).2
        (MemoryHeap.tryTransferLoop released required attempts used h).1 held pending required
        ids := by
  induction attempts with
  | zero =>
    exact fun used hl _ _ _ _ =>
      .of_refused hl (fun _ => by simp [MemoryHeap.tryTransferLoop]) (.refl _)
  | succ attempts ih =>
    intro h used hl hc hx hreleased hused
    rw [MemoryHeap.tryTransferLoop]
    cases hnext : (checkedSub used released).bind
      fun retained => checkedAdd 64 retained required with
    | none => exact .of_refused hl (fun _ => by simp) (.refl _)
    | some next =>
      obtain ⟨retained, hsub, hadd⟩ := Option.bind_eq_some_iff.1 hnext
      obtain ⟨henough, rfl⟩ := checkedSub_eq_some.1 hsub
      obtain ⟨-, rfl⟩ := checkedAdd_eq_some.1 hadd
      simp only
      by_cases hfull : h.capacityBytes < used - released + required
      · rw [if_pos hfull]
        exact .of_refused hl (fun _ => by simp) (.refl _)
      rw [if_neg hfull]
      rw [Nat.not_lt] at hfull
      by_cases hsame : used - released + required = used
      · -- the counter does not change, but other charges stand for it
        rw [if_pos hsame]
        obtain ⟨hl', -⟩ := hl.transfer required hx hnodup hreleased
          (hused ▸ henough) (hused ▸ hfull)
        refine .of_charged ?_ (.refl _)
        rwa [hused, hsame, ← hused] at hl'
      rw [if_neg hsame]
      obtain ⟨hl', hpath⟩ := hl.tick hc
      split_ifs with hsame'
      · obtain ⟨hl'', hpath'⟩ := hl'.transfer required hx.tick hnodup
          ((congrArg List.sum (armedBytes_tick hx)).trans hreleased) (hsame'.symm ▸ henough) (by
            rw [hsame', (tick_fixed h).2]
            exact hfull)
        rw [hsame'] at hl'' hpath'
        exact .of_charged hl'' (hpath.trans hpath')
      · exact (ih _ hl' ((undisturbed_tick h).counted refs hc) hx.tick
          ((congrArg List.sum (armedBytes_tick hx)).trans hreleased) rfl).after hpath

/-- **An attempt to transfer** the charges of values that only the shard holds. -/
lemma Ledger.tryTransferCharge {ids : List ℕ} {released : ℕ} (hl : h.Ledger held pending [])
    (hc : h.Counted refs) (hx : h.Exclusive ids) (hnodup : ids.Nodup)
    (hreleased : (ids.map h.armedBytes).sum = released) (required : ℕ) :
    Attempted h (h.tryTransferCharge released required).2
      (h.tryTransferCharge released required).1 held pending required ids := by
  obtain ⟨hl', hpath⟩ := hl.tick hc
  exact (hl'.tryTransferLoop hnodup released required _ _ ((undisturbed_tick h).counted refs hc)
    hx.tick ((congrArg List.sum (armedBytes_tick hx)).trans hreleased) rfl).after hpath

/-! ## Values -/

/-- The charge of a value that only the shard holds is disarmed. -/
lemma Ledger.disarm (hl : h.Ledger held pending (id :: owed)) (hc : h.Counted (id :: refs))
    (hid : id ∉ refs) (hdisarm : h.disarmExclusiveCharge id = some h') :
    h'.Ledger (id :: held) pending owed ∧ Path h h' := by
  obtain ⟨hl₁, hpath₁⟩ := hl.tick hc
  have hc₁ := (undisturbed_tick h).counted _ hc
  obtain ⟨hlive, harmed, hnot⟩ := hl₁.exclusive id List.mem_cons_self
  unfold disarmExclusiveCharge at hdisarm
  dsimp only at hdisarm
  generalize h.tick.2 = heap at *
  split_ifs at hdisarm with hlast
  obtain rfl := Option.some.inj hdisarm
  have hinner : ∀ j, j ≠ id → Function.update heap.inner id
      { heap.inner id with charge := { (heap.inner id).charge with armed := false } } j =
        heap.inner j := fun j hj => Function.update_of_ne hj _ _
  generalize hdisarmed : { heap with
      inner := Function.update heap.inner id
        { heap.inner id with charge := { (heap.inner id).charge with armed := false } } } = disarmed
  have hother : ∀ j, j ≠ id → disarmed.armedBytes j = heap.armedBytes j := by
    intro j hj
    rw [← hdisarmed]
    simp only [armedBytes, hinner j hj]
  have hself : disarmed.armedBytes id = 0 := by
    rw [← hdisarmed]
    simp [armedBytes]
  have hnodup := List.nodup_cons.1 hl₁.nodup
  have hread : ∀ j, (disarmed.inner j).bytes = (heap.inner j).bytes ∧
      (disarmed.inner j).keyLength = (heap.inner j).keyLength ∧
      (disarmed.inner j).charge.bytes = (heap.inner j).charge.bytes := by
    intro j
    rw [← hdisarmed]
    by_cases hj : j = id
    · subst hj
      simp
    · simp [hinner j hj]
  refine ⟨⟨?_, ?_, fun j hj => ?_, fun j hj hj' => ?_, hnodup.2, fun j hj => ?_, ?_⟩, ?_⟩
  · rw [← hdisarmed]
    exact hl₁.capacity
  · rw [← hdisarmed]
    exact hl₁.fits
  · rw [MemoryValueInner.chargedBytes, (hread j).1, (hread j).2.2]
    exact hl₁.charged j (by rwa [← hdisarmed] at hj)
  · rw [← hdisarmed] at hj hj' ⊢
    by_cases hji : j = id
    · subst hji
      exact ⟨List.mem_cons_self, hnot⟩
    · have hj'' : (heap.inner j).charge.armed = false := by
        rw [← hinner j hji]
        exact hj'
      obtain ⟨hheld, hnot'⟩ := hl₁.armed j hj hj''
      exact ⟨List.mem_cons_of_mem _ hheld, hnot'⟩
  · have hji : j ≠ id := fun he => hnodup.1 (he ▸ hj)
    obtain ⟨hlive', harmed', hnot'⟩ := hl₁.exclusive j (List.mem_cons_of_mem _ hj)
    rw [← hdisarmed]
    exact ⟨hlive', (congrArg (·.charge.armed) (hinner j hji)).trans harmed', hnot'⟩
  · have hnext : disarmed.next = heap.next := by rw [← hdisarmed]
    have htotal := totalBytes_change hnext (hc₁.lt_next hlive) hother
    have hsame : owed.map disarmed.armedBytes = owed.map heap.armedBytes :=
      List.map_congr_left fun j hj => hother j fun he => hnodup.1 (he ▸ hj)
    have hbalance := hl₁.balance
    have hused : disarmed.usedBytes = heap.usedBytes := by rw [← hdisarmed]
    rw [List.map_cons, List.sum_cons] at hbalance
    rw [hsame, hused]
    omega
  · refine hpath₁.trans (.single ?_ ⟨?_, fun j _ => ⟨(hread j).1, (hread j).2.1⟩⟩)
    · rw [← hdisarmed]
      exact .write heap id _ hlast
    · rw [← hdisarmed]
      exact hl₁.fits

/-- A charge finds its allocation. -/
lemma Ledger.allocate (new : MemoryValueInner)
    (hl : h.Ledger held (pending + new.charge.bytes) owed) (hc : h.Counted refs)
    (harmed : new.charge.armed = true)
    (hcharged : new.charge.bytes = new.chargedBytes) :
    (h.allocate new).2.Ledger held pending owed ∧ Path h (h.allocate new).2 := by
  have hzero := hc.fresh h.next le_rfl
  have hne : ∀ j, h.strong j ≠ 0 → j ≠ h.next := by
    rintro j hj rfl
    exact hj hzero
  have hstrong : ∀ j, j ≠ h.next → (h.allocate new).2.strong j = h.strong j := fun j hj =>
    Function.update_of_ne hj _ _
  have hinner : ∀ j, j ≠ h.next → (h.allocate new).2.inner j = h.inner j := fun j hj =>
    Function.update_of_ne hj _ _
  have hnew : (h.allocate new).2.inner h.next = new := Function.update_self _ _ _
  have hbytes : ∀ j, j ≠ h.next → (h.allocate new).2.armedBytes j = h.armedBytes j := by
    intro j hj
    rw [armedBytes, armedBytes, hstrong j hj, hinner j hj]
  have hself : (h.allocate new).2.armedBytes h.next = new.charge.bytes := by
    have hlive : (h.allocate new).2.strong h.next = 1 := Function.update_self _ _ _
    rw [armedBytes, hnew, hlive, if_pos ⟨by decide, harmed⟩]
  refine ⟨⟨hl.capacity, hl.fits, fun j hj => ?_, fun j hj hj' => ?_, hl.nodup, fun j hj => ?_, ?_⟩,
    .single (.allocate h new) ⟨hl.fits, fun j hj => ?_⟩⟩
  · by_cases hji : j = h.next
    · rw [hji, hnew, hcharged]
    · rw [hinner j hji]
      exact hl.charged j (by rwa [← hstrong j hji])
  · by_cases hji : j = h.next
    · rw [hji, hnew, harmed] at hj'
      cases hj'
    · rw [hinner j hji] at hj'
      exact hl.armed j (by rwa [← hstrong j hji]) hj'
  · obtain ⟨hlive, hj', hnot⟩ := hl.exclusive j hj
    rw [hstrong j (hne j hlive), hinner j (hne j hlive)]
    exact ⟨hlive, hj', hnot⟩
  · have htotal : (h.allocate new).2.totalBytes = h.totalBytes + new.charge.bytes := by
      rw [totalBytes, show (h.allocate new).2.next = h.next + 1 from rfl, Finset.sum_range_succ,
        hself, totalBytes]
      exact congrArg (· + _) (Finset.sum_congr rfl fun j hj =>
        hbytes j (Nat.ne_of_lt (Finset.mem_range.1 hj)))
    have hsame : owed.map (h.allocate new).2.armedBytes = owed.map h.armedBytes :=
      List.map_congr_left fun j hj => hbytes j (hne j (hl.exclusive j hj).1)
    have hbalance := hl.balance
    rw [hsame, htotal]
    show h.usedBytes + _ = _
    omega
  · rw [hinner j (hne j (hc.live_of_retained hj))]
    exact ⟨rfl, rfl⟩

/-- A charge finds the allocation of a value that is held, whose own charge is released. -/
lemma Ledger.overwrite (new : MemoryValueInner)
    (hl : h.Ledger (id :: held) (pending + new.charge.bytes) owed) (hc : h.Counted (id :: refs))
    (hid : id ∉ refs) (howed : id ∉ owed) (hlast : h.strong id = 1)
    (harmed : new.charge.armed = true) (hcharged : new.charge.bytes = new.chargedBytes) :
    (h.overwrite id new).Ledger held pending owed ∧ Path h (h.overwrite id new) := by
  have hlive : h.strong id ≠ 0 := by omega
  have hnot : id ∉ h.retained := (hc.exclusive hid).1 hlast
  have hle := hl.armedBytes_le hc hlive howed
  have henough : (h.inner id).charge.armed = true → (h.inner id).charge.bytes ≤ h.usedBytes :=
    fun ha => by rwa [armedBytes, if_pos ⟨hlive, ha⟩] at hle
  have hdrop := dropCharge_of_le (h.inner id).charge (hl.fits.trans_lt hl.capacity) henough
  have hbytes : h.armedBytes id =
      if (h.inner id).charge.armed = true then (h.inner id).charge.bytes else 0 := by
    simp [armedBytes, hlive]
  rw [← hbytes] at hdrop
  have hover : h.overwrite id new = { h with
      usedBytes := h.usedBytes - h.armedBytes id
      inner := Function.update h.inner id new } := by
    rw [MemoryHeap.overwrite, hdrop]
  generalize hwritten : h.overwrite id new = written at *
  have hinner : ∀ j, j ≠ id → written.inner j = h.inner j := by
    intro j hj
    rw [hover]
    exact Function.update_of_ne hj _ _
  have hnew : written.inner id = new := by
    rw [hover]
    exact Function.update_self _ _ _
  have hstrong : written.strong = h.strong := by rw [hover]
  have hretained : written.retained = h.retained := by rw [hover]
  have hother : ∀ j, j ≠ id → written.armedBytes j = h.armedBytes j := by
    intro j hj
    rw [armedBytes, armedBytes, hstrong, hinner j hj]
  have hself : written.armedBytes id = new.charge.bytes := by
    rw [armedBytes, hstrong, hnew, if_pos ⟨hlive, harmed⟩]
  have hused : written.usedBytes = h.usedBytes - h.armedBytes id := by rw [hover]
  have hcapacity : written.capacityBytes = h.capacityBytes := by rw [hover]
  have hfits : h.usedBytes - h.armedBytes id ≤ h.capacityBytes := (Nat.sub_le _ _).trans hl.fits
  refine ⟨⟨hcapacity ▸ hl.capacity, by rw [hused, hcapacity]; exact hfits, fun j hj => ?_,
    fun j hj hj' => ?_, hl.nodup, fun j hj => ?_, ?_⟩, ?_⟩
  · by_cases hji : j = id
    · rw [hji, hnew, hcharged]
    · rw [hinner j hji]
      exact hl.charged j (hstrong ▸ hj)
  · by_cases hji : j = id
    · rw [hji, hnew, harmed] at hj'
      cases hj'
    · rw [hinner j hji] at hj'
      rw [hretained]
      obtain ⟨hheld, hnot'⟩ := hl.armed j (hstrong ▸ hj) hj'
      exact ⟨(List.mem_cons.1 hheld).resolve_left hji, hnot'⟩
  · rw [hstrong, hretained, hinner j fun he => howed (he ▸ hj)]
    exact hl.exclusive j hj
  · have hnext : written.next = h.next := by rw [hover]
    have htotal := totalBytes_change hnext (hc.lt_next hlive) hother
    have hsame : owed.map written.armedBytes = owed.map h.armedBytes :=
      List.map_congr_left fun j hj => hother j fun he => howed (he ▸ hj)
    have hbalance := hl.balance
    rw [hsame, hused]
    omega
  · -- the old charge is released, and then the allocation is written
    have hrelease : Path h (h.dropCharge (h.inner id).charge) :=
      .single (.release h _ henough) (safe_of_inner (by rw [hdrop]; exact hfits) (by rw [hdrop]))
    refine hrelease.trans (.single (hwritten ▸ .write _ id new ?_) ⟨?_, fun j hj => ?_⟩)
    · rw [hdrop]
      exact hlast
    · rw [hused, hcapacity]
      exact hfits
    · rw [hdrop] at hj ⊢
      rw [hinner j fun he => hnot (he ▸ hj)]
      exact ⟨rfl, rfl⟩

/-- **A new value** takes the pending charge, or gives it up; the value that was to be recycled
keeps its books either way. -/
theorem Ledger.tryNew {recycled : Option ℕ} {key value : List UInt8} (charge : MemoryCharge)
    (seqno : BitVec 64) (hl : h.Ledger recycled.toList charge.bytes [])
    (hc : h.Counted (recycled.toList ++ refs)) (hrecycled : ∀ id, recycled = some id → id ∉ refs)
    (harmed : charge.armed = true)
    (hcharged : charge.bytes = memoryEntryOverheadBytes + key.length + value.length) :
    (h.tryNew key value seqno charge recycled).2.Ledger [] 0 [] ∧
      Path h (h.tryNew key value seqno charge recycled).2 := by
  have hnew : charge.bytes =
      MemoryValueInner.chargedBytes ⟨memoryValueBytes key value seqno, key.length, charge⟩ := by
    have h8 : (u64Bytes seqno).length = memoryValueSeqnoBytes := length_u64Bytes seqno
    rw [hcharged, MemoryValueInner.chargedBytes, memoryValueBytes, List.length_append,
      List.length_append, h8]
    omega
  -- the allocation that comes last
  have hallocate : ∀ {h' : MemoryHeap}, h'.Ledger [] charge.bytes [] → h'.Counted refs →
      Path h h' →
      let result := (if h'.tick.1 then (none, h'.tick.2.dropCharge charge)
        else (h'.tick.2.allocate ⟨memoryValueBytes key value seqno, key.length, charge⟩).map
          some id)
      result.2.Ledger [] 0 [] ∧ Path h result.2 := by
    intro h' hl' hc' hpath
    obtain ⟨hl'', hpath'⟩ := hl'.tick hc'
    have hc'' := (undisturbed_tick h').counted refs hc'
    rw [← Nat.zero_add charge.bytes] at hl''
    split_ifs
    · obtain ⟨hl₃, hpath₃⟩ := hl''.dropCharge charge hc'' harmed
      exact ⟨hl₃, (hpath.trans hpath').trans hpath₃⟩
    · obtain ⟨hl₃, hpath₃⟩ := Ledger.allocate
        ⟨memoryValueBytes key value seqno, key.length, charge⟩ hl'' hc'' harmed hnew
      exact ⟨hl₃, (hpath.trans hpath').trans hpath₃⟩
  unfold MemoryHeap.tryNew
  simp only
  by_cases hlength : 2 ^ 64 ≤ (memoryValueBytes key value seqno).length
  · rw [if_pos hlength]
    cases recycled with
    | none =>
      rw [← Nat.zero_add charge.bytes] at hl
      exact hl.dropCharge charge hc harmed
    | some id =>
      obtain ⟨hl', hpath⟩ := hl.dropValue hc (hrecycled id rfl) List.not_mem_nil
      rw [← Nat.zero_add charge.bytes] at hl'
      obtain ⟨hl'', hpath'⟩ := hl'.dropCharge charge hc.dropValue harmed
      exact ⟨hl'', hpath.trans hpath'⟩
  · rw [if_neg hlength]
    cases recycled with
    | none => exact hallocate hl hc (.refl h)
    | some id =>
      obtain ⟨hl', hpath⟩ := hl.tick hc
      have hc' := (undisturbed_tick h).counted _ hc
      simp only
      by_cases hreuse : h.tick.2.strong id = 1 ∧
          (h.tick.2.inner id).bytes.length = (memoryValueBytes key value seqno).length
      · rw [if_pos hreuse]
        have hl'' : h.tick.2.Ledger [id] (0 + charge.bytes) [] := by rwa [Nat.zero_add]
        obtain ⟨hl₃, hpath₃⟩ := Ledger.overwrite
          ⟨memoryValueBytes key value seqno, key.length, charge⟩ hl'' hc'
          (hrecycled id rfl) List.not_mem_nil hreuse.1 harmed hnew
        exact ⟨hl₃, hpath.trans hpath₃⟩
      · rw [if_neg hreuse]
        obtain ⟨hl'', hpath'⟩ := hl'.dropValue hc' (hrecycled id rfl) List.not_mem_nil
        exact hallocate hl'' hc'.dropValue (hpath.trans hpath')

/-- A reference is returned to a caller. -/
lemma Ledger.retain (hl : h.Ledger [] pending []) (hlive : h.strong id ≠ 0) :
    (h.retain id).Ledger [] pending [] ∧ Path h (h.retain id) := by
  have hlive' : ∀ j, (h.retain id).strong j ≠ 0 ↔ h.strong j ≠ 0 := by
    intro j
    show Function.update h.strong id (h.strong id + 1) j ≠ 0 ↔ _
    by_cases hj : j = id
    · subst hj
      simp [hlive]
    · rw [Function.update_of_ne hj]
  have hbytes : ∀ j, (h.retain id).armedBytes j = h.armedBytes j := fun j => by
    simp only [armedBytes, hlive' j]
    rfl
  refine ⟨⟨hl.capacity, hl.fits, fun j hj => hl.charged j ((hlive' j).1 hj), fun j hj hj' => ?_,
    hl.nodup, fun j hj => absurd hj List.not_mem_nil, ?_⟩,
    .single (.clone h id) (safe_of_inner hl.fits rfl)⟩
  · exact absurd (hl.armed j ((hlive' j).1 hj) hj').1 List.not_mem_nil
  · have htotal : (h.retain id).totalBytes = h.totalBytes := totalBytes_congr rfl hbytes
    rw [htotal]
    exact hl.balance

/-- **Between operations** the counter is the sum of the charges of all values that the shard refers
to or callers retain, each counted once. -/
lemma Ledger.used_eq (hl : h.Ledger [] 0 []) (hc : h.Counted refs) :
    h.usedBytes = ∑ id ∈ (refs ++ h.retained).toFinset, (h.inner id).chargedBytes := by
  have hbalance := hl.balance
  rw [List.map_nil, List.sum_nil, Nat.add_zero, Nat.add_zero] at hbalance
  have hlive : ∀ id, id ∈ (refs ++ h.retained).toFinset ↔ h.strong id ≠ 0 := by
    intro id
    rw [List.mem_toFinset, List.mem_append, hc.strong, ← List.count_pos_iff, ← List.count_pos_iff]
    omega
  have hsum := Finset.sum_subset (f := h.armedBytes) (fun id hid =>
    Finset.mem_range.2 (hc.lt_next ((hlive id).1 hid))) fun id _ hnot => by
      rw [armedBytes, if_neg fun hand => hnot ((hlive id).2 hand.1)]
  rw [hbalance, totalBytes, ← hsum]
  refine Finset.sum_congr rfl fun id hid => ?_
  have hid' := (hlive id).1 hid
  have harmed : (h.inner id).charge.armed = true := by
    by_contra hf
    exact List.not_mem_nil (hl.armed id hid' (by simpa using hf)).1
  rw [armedBytes, if_pos ⟨hid', harmed⟩, hl.charged id hid']

/-- The books of a new heap. -/
lemma ledger_new {capacityBytes : ℕ} (h : capacityBytes < 2 ^ 64) :
    (MemoryHeap.new capacityBytes).Ledger [] 0 [] :=
  ⟨h, Nat.zero_le _, fun _ hid => absurd rfl hid, fun _ hid => absurd rfl hid, List.nodup_nil,
    fun _ hid => absurd hid List.not_mem_nil, rfl⟩

end Ledger

end MemoryHeap

end Cache2
