import Mathlib.Algebra.Group.Nat.Defs
import Mathlib.Data.List.Basic
import Mathlib.Data.List.Range

set_option relaxedAutoImplicit false
set_option autoImplicit false

/-!
# The fixed directory for prehashed keys

A directory is an open-addressing table that is allocated once. A slot holds a fingerprint of 32
bits, folded from the full hash, with the index of an owner; two values of the owner field mark
empty slots and deletions. Every operation looks at the slots of one window: at most 64 slots from
the fingerprint's home on, around the end of the table. A removal closes its hole by moving later
entries of the cluster forward.

The table is a finite map from fingerprints to owners. Hashes with the same fingerprint share an
entry; callers tell them apart by the full hash that the owner keeps.

## Main definitions

* `Cache2.FixedPrehashedMap` with `get`, `canUpsert`, `insert` and `remove`.
* `Cache2.FixedPrehashedMap.Maps` — the finite map that a table stands for.
* `Cache2.FixedPrehashedMap.Valid` — every entry can be reached from its home, and fingerprints do
  not repeat.

## Main results

* `Cache2.FixedPrehashedMap.Valid.get_eq_some_iff` — lookups read the map.
* `Cache2.FixedPrehashedMap.Valid.insert` — insertions update it.
* `Cache2.FixedPrehashedMap.Valid.remove` — removals, with the compaction, take one entry out.
-/

namespace Cache2

/-! ## Slots and probes -/

/-- `EMPTY_VALUE`. -/
def emptyValue : ℕ := 2 ^ 32 - 1

/-- `DELETED_VALUE`. -/
def deletedValue : ℕ := 2 ^ 32 - 2

/-- `MAX_FIXED_MAP_PROBES`. -/
def maxFixedMapProbes : ℕ := 64

/-- `FixedMapSlot`. -/
structure FixedMapSlot where
  /-- The folded hash. -/
  fingerprint : BitVec 32
  /-- The owner, or one of the two marks. -/
  value : ℕ
  deriving DecidableEq, Repr

/-- The default slot is empty. -/
def FixedMapSlot.empty : FixedMapSlot := ⟨0, emptyValue⟩

/-- A slot with an entry. -/
def FixedMapSlot.Live (slot : FixedMapSlot) : Prop :=
  slot.value ≠ emptyValue ∧ slot.value ≠ deletedValue

instance (slot : FixedMapSlot) : Decidable slot.Live := inferInstanceAs (Decidable (_ ∧ _))

/-- `fixed_map_fingerprint`. -/
def fixedMapFingerprint (hash : BitVec 64) : BitVec 32 :=
  (hash.setWidth 32).rotateLeft 13 ^^^ (hash >>> 32).setWidth 32

/-- `fixed_map_fingerprint_start`. -/
def fixedMapFingerprintStart (fingerprint : BitVec 32) (slots : ℕ) : ℕ :=
  ((fingerprint * 0x9e3779b9#32).toNat * slots) >>> 32

/-- `probe_index`. -/
def probeIndex (start step slots : ℕ) : ℕ :=
  if step < slots - start then start + step else step - (slots - start)

/-- `next_probe_index`. -/
def nextProbeIndex (index slots : ℕ) : ℕ := if index + 1 = slots then 0 else index + 1

/-- `probe_distance`. -/
def probeDistance (home index slots : ℕ) : ℕ :=
  if home ≤ index then index - home else slots - (home - index)

/-- Homes are slots. -/
lemma fixedMapFingerprintStart_lt (fingerprint : BitVec 32) {slots : ℕ} (h : 0 < slots) :
    fixedMapFingerprintStart fingerprint slots < slots := by
  have hlt := (fingerprint * 0x9e3779b9#32).isLt
  rw [fixedMapFingerprintStart, Nat.shiftRight_eq_div_pow, Nat.div_lt_iff_lt_mul (by decide),
    Nat.mul_comm slots]
  exact Nat.mul_lt_mul_of_pos_right hlt h

/-- Probes are slots. -/
lemma probeIndex_lt {start step slots : ℕ} (hstart : start < slots) (hstep : step < slots) :
    probeIndex start step slots < slots := by
  unfold probeIndex
  split <;> omega

/-- The distance of a probe is its step. -/
lemma probeDistance_probeIndex {start step slots : ℕ} (hstart : start < slots)
    (hstep : step < slots) : probeDistance start (probeIndex start step slots) slots = step := by
  unfold probeDistance probeIndex
  split <;> split <;> omega

/-- The probe at a slot's distance is the slot. -/
lemma probeIndex_probeDistance {home index slots : ℕ} (hhome : home < slots)
    (hindex : index < slots) : probeIndex home (probeDistance home index slots) slots = index := by
  unfold probeIndex probeDistance
  split <;> split <;> omega

/-- Distances are less than the number of slots. -/
lemma probeDistance_lt {home index slots : ℕ} (hhome : home < slots) (hindex : index < slots) :
    probeDistance home index slots < slots := by
  unfold probeDistance
  split <;> omega

/-- Slots at one distance are the same. -/
lemma eq_of_probeDistance_eq {home i j slots : ℕ} (hi : i < slots) (hj : j < slots)
    (hhome : home < slots) (h : probeDistance home i slots = probeDistance home j slots) :
    i = j := by
  rw [← probeIndex_probeDistance hhome hi, h, probeIndex_probeDistance hhome hj]

/-- The distance from the nearer to the farther of two slots. -/
lemma probeDistance_sub {home i j slots : ℕ} (hhome : home < slots) (hi : i < slots)
    (hj : j < slots) (h : probeDistance home i slots ≤ probeDistance home j slots) :
    probeDistance i j slots = probeDistance home j slots - probeDistance home i slots := by
  unfold probeDistance at *
  split_ifs at * <;> omega

/-- Distances add up as long as they do not go around the table. -/
lemma probeDistance_add {home i j slots : ℕ} (hhome : home < slots) (hi : i < slots)
    (h : probeDistance home i slots + probeDistance i j slots < slots) :
    probeDistance home j slots = probeDistance home i slots + probeDistance i j slots := by
  unfold probeDistance at *
  split_ifs at * <;> omega

/-- The next slot is a slot. -/
lemma nextProbeIndex_lt {index slots : ℕ} (h : index < slots) :
    nextProbeIndex index slots < slots := by
  unfold nextProbeIndex
  split <;> omega

/-- The next slot is one farther away, or the origin itself. -/
lemma probeDistance_nextProbeIndex {home slots : ℕ} (hhome : home < slots) (index : ℕ) :
    probeDistance home (nextProbeIndex index slots) slots ≤
      probeDistance home index slots + 1 := by
  unfold nextProbeIndex probeDistance
  split_ifs <;> omega

/-- A slot is at no distance from itself only. -/
lemma probeDistance_eq_zero {home index slots : ℕ} (hhome : home < slots)
    (h : probeDistance home index slots = 0) : index = home := by
  unfold probeDistance at h
  split_ifs at h <;> omega

/-! ## The table -/

/-- `FixedPrehashedMap`. -/
structure FixedPrehashedMap where
  /-- The slots. -/
  slots : List FixedMapSlot
  deriving DecidableEq, Repr

namespace FixedPrehashedMap

/-- `try_new`, for an allocation that succeeds. -/
def tryNew (maximumEntries : ℕ) : FixedPrehashedMap :=
  ⟨List.replicate (maximumEntries * 2) .empty⟩

/-- A slot of the table. -/
def slot (m : FixedPrehashedMap) (index : ℕ) : FixedMapSlot := m.slots.getD index .empty

/-- The table with another slot. -/
def set (m : FixedPrehashedMap) (index : ℕ) (slot : FixedMapSlot) : FixedPrehashedMap :=
  ⟨m.slots.set index slot⟩

/-- The home of a fingerprint. -/
def home (m : FixedPrehashedMap) (fingerprint : BitVec 32) : ℕ :=
  fixedMapFingerprintStart fingerprint m.slots.length

/-- The slots that operations on a fingerprint look at, in order. -/
def window (m : FixedPrehashedMap) (fingerprint : BitVec 32) : List ℕ :=
  (List.range (min m.slots.length maxFixedMapProbes)).map fun step =>
    probeIndex (m.home fingerprint) step m.slots.length

/-- The loop of `get` and `remove`: the slot of a fingerprint. -/
def probeLoop (m : FixedPrehashedMap) (fingerprint : BitVec 32) : List ℕ → Option ℕ
  | [] => none
  | index :: rest =>
    let slot := m.slot index
    if slot.value = emptyValue then none
    else if slot.value ≠ deletedValue ∧ slot.fingerprint = fingerprint then some index
    else m.probeLoop fingerprint rest

/-- `get`. -/
def get (m : FixedPrehashedMap) (hash : BitVec 64) : Option ℕ :=
  let fingerprint := fixedMapFingerprint hash
  (m.probeLoop fingerprint (m.window fingerprint)).map fun index => (m.slot index).value

/-- The loop of `find_upsert_slot`, with the first deletion seen so far. -/
def upsertLoop (m : FixedPrehashedMap) (fingerprint : BitVec 32) :
    List ℕ → Option ℕ → Option (ℕ × Option ℕ)
  | [], deleted => deleted.map (·, none)
  | index :: rest, deleted =>
    let slot := m.slot index
    if slot.value = emptyValue then some (deleted.getD index, none)
    else if slot.value = deletedValue then
      m.upsertLoop fingerprint rest (deleted.or (some index))
    else if slot.fingerprint = fingerprint then some (index, some slot.value)
    else m.upsertLoop fingerprint rest deleted

/-- `find_upsert_slot`. -/
def findUpsertSlot (m : FixedPrehashedMap) (hash : BitVec 64) : Option (ℕ × Option ℕ) :=
  let fingerprint := fixedMapFingerprint hash
  m.upsertLoop fingerprint (m.window fingerprint) none

/-- `can_upsert`. -/
def canUpsert (m : FixedPrehashedMap) (hash : BitVec 64) : Bool := (m.findUpsertSlot hash).isSome

/-- `insert`: the owner that was replaced, with the new table. -/
def insert (m : FixedPrehashedMap) (hash : BitVec 64) (value : ℕ) :
    Option (Option ℕ × FixedPrehashedMap) :=
  (m.findUpsertSlot hash).map fun (index, previous) =>
    (previous, m.set index ⟨fixedMapFingerprint hash, value⟩)

/-- The loop of `compact_deleted`, with the iterations that are left. -/
def compactLoop : ℕ → FixedPrehashedMap → ℕ → ℕ → FixedPrehashedMap
  | 0, m, _, _ => m
  | steps + 1, m, hole, cursor =>
    let slotCount := m.slots.length
    let candidate := m.slot cursor
    let next := nextProbeIndex cursor slotCount
    if candidate.value = emptyValue then m.set hole .empty
    else if candidate.value ≠ deletedValue ∧
        probeDistance (m.home candidate.fingerprint) hole slotCount <
          probeDistance (m.home candidate.fingerprint) cursor slotCount then
      compactLoop steps
        ((m.set hole candidate).set cursor { candidate with value := deletedValue }) cursor next
    else compactLoop steps m hole next

/-- `compact_deleted`. -/
def compactDeleted (m : FixedPrehashedMap) (hole : ℕ) : FixedPrehashedMap :=
  compactLoop (min (m.slots.length - 1) maxFixedMapProbes) m hole
    (nextProbeIndex hole m.slots.length)

/-- `remove`: the owner that was removed, with the new table. -/
def remove (m : FixedPrehashedMap) (hash : BitVec 64) : Option ℕ × FixedPrehashedMap :=
  let fingerprint := fixedMapFingerprint hash
  match m.probeLoop fingerprint (m.window fingerprint) with
  | none => (none, m)
  | some index =>
    let slot := m.slot index
    (some slot.value,
      (m.set index { slot with value := deletedValue }).compactDeleted index)

/-! ## The map that a table stands for -/

/-- The slot has an entry. -/
def LiveAt (m : FixedPrehashedMap) (index : ℕ) : Prop := (m.slot index).Live

/-- The table maps the fingerprint to the owner. -/
def Maps (m : FixedPrehashedMap) (fingerprint : BitVec 32) (value : ℕ) : Prop :=
  ∃ index, m.LiveAt index ∧ m.slot index = ⟨fingerprint, value⟩

/-- Every entry is within its window, with no empty slot before it, and no fingerprint occurs
twice. -/
structure Valid (m : FixedPrehashedMap) : Prop where
  /-- Entries are near their homes. -/
  near : ∀ i, m.LiveAt i →
    probeDistance (m.home (m.slot i).fingerprint) i m.slots.length < maxFixedMapProbes
  /-- No empty slot separates an entry from its home. -/
  reach : ∀ i j, m.LiveAt i → j < m.slots.length →
    probeDistance (m.home (m.slot i).fingerprint) j m.slots.length <
      probeDistance (m.home (m.slot i).fingerprint) i m.slots.length →
    (m.slot j).value ≠ emptyValue
  /-- Fingerprints do not repeat. -/
  unique : ∀ i j, m.LiveAt i → m.LiveAt j → (m.slot i).fingerprint = (m.slot j).fingerprint → i = j

section Slots

variable {m : FixedPrehashedMap} {i j index : ℕ} {new : FixedMapSlot}

/-- Entries are in the table. -/
lemma LiveAt.lt (h : m.LiveAt i) : i < m.slots.length := by
  by_contra hge
  exact h.1 (by simp [slot, List.getElem?_eq_none (Nat.le_of_not_lt hge), FixedMapSlot.empty])

@[simp] lemma length_set (m : FixedPrehashedMap) (index : ℕ) (new : FixedMapSlot) :
    (m.set index new).slots.length = m.slots.length := List.length_set

@[simp] lemma home_set (m : FixedPrehashedMap) (index : ℕ) (new : FixedMapSlot)
    (fingerprint : BitVec 32) : (m.set index new).home fingerprint = m.home fingerprint := by
  simp [home]

/-- The slots after an update. -/
lemma slot_set (h : index < m.slots.length) :
    (m.set index new).slot i = if i = index then new else m.slot i := by
  unfold slot set
  split_ifs with hi
  · subst hi
    simp [List.getD_eq_getElem?_getD, h]
  · simp [List.getD_eq_getElem?_getD, List.getElem?_set_ne (Ne.symm hi)]

/-- Homes are slots of the table. -/
lemma home_lt (h : 0 < m.slots.length) (fingerprint : BitVec 32) :
    m.home fingerprint < m.slots.length :=
  fixedMapFingerprintStart_lt fingerprint h

/-- The window of a table is that of any table of its size. -/
lemma window_set (m : FixedPrehashedMap) (index : ℕ) (new : FixedMapSlot)
    (fingerprint : BitVec 32) : (m.set index new).window fingerprint = m.window fingerprint := by
  simp [window]

/-- The window of a fingerprint are the slots near its home. -/
lemma mem_window (h : 0 < m.slots.length) {fingerprint : BitVec 32} :
    i ∈ m.window fingerprint ↔ i < m.slots.length ∧
      probeDistance (m.home fingerprint) i m.slots.length < maxFixedMapProbes := by
  have hhome := m.home_lt h fingerprint
  simp only [window, List.mem_map, List.mem_range, Nat.lt_min]
  constructor
  · rintro ⟨step, ⟨hstep, hmax⟩, rfl⟩
    rw [probeDistance_probeIndex hhome hstep]
    exact ⟨probeIndex_lt hhome hstep, hmax⟩
  · rintro ⟨hi, hd⟩
    exact ⟨_, ⟨probeDistance_lt hhome hi, hd⟩, probeIndex_probeDistance hhome hi⟩

/-- The slots of a window before one of them are those that are nearer to the home. -/
lemma mem_of_window_eq {fingerprint : BitVec 32} {a b : List ℕ}
    (hsplit : m.window fingerprint = a ++ i :: b) :
    j ∈ a ↔ j < m.slots.length ∧ probeDistance (m.home fingerprint) j m.slots.length <
      probeDistance (m.home fingerprint) i m.slots.length := by
  have hlen : a.length < min m.slots.length maxFixedMapProbes := by
    have := congrArg List.length hsplit
    simp only [window, List.length_map, List.length_range, List.length_append,
      List.length_cons] at this
    omega
  have hhome := m.home_lt (by omega) fingerprint
  have hget : ∀ k (hk : k < min m.slots.length maxFixedMapProbes),
      (m.window fingerprint)[k]? = some (probeIndex (m.home fingerprint) k m.slots.length) := by
    intro k hk
    rw [window, List.getElem?_map, List.getElem?_range hk, Option.map_some]
  -- the slot at position `k` of the window is at distance `k`
  have hi : probeIndex (m.home fingerprint) a.length m.slots.length = i := by
    have hself := hget a.length hlen
    rw [hsplit, List.getElem?_append_right (Nat.le_refl _), Nat.sub_self] at hself
    exact (Option.some.inj hself).symm
  rw [← hi, probeDistance_probeIndex hhome (by omega), List.mem_iff_getElem?]
  constructor
  · rintro ⟨k, hk⟩
    have hka : k < a.length := (List.getElem?_eq_some_iff.1 hk).1
    have hk' := hget k (by omega)
    rw [hsplit, List.getElem?_append_left hka, hk] at hk'
    obtain rfl := Option.some.inj hk'
    rw [probeDistance_probeIndex hhome (by omega)]
    exact ⟨probeIndex_lt hhome (by omega), hka⟩
  · rintro ⟨hj, hlt⟩
    have hk := hget (probeDistance (m.home fingerprint) j m.slots.length) (by omega)
    rw [hsplit, List.getElem?_append_left hlt, probeIndex_probeDistance hhome hj] at hk
    exact ⟨_, hk⟩

/-- The window up to the slot of an entry. -/
lemma Valid.window_split (h : m.Valid) (hlive : m.LiveAt i) :
    ∃ a b, m.window (m.slot i).fingerprint = a ++ i :: b ∧
      ∀ j ∈ a, (m.slot j).value ≠ emptyValue := by
  obtain ⟨a, b, hsplit⟩ := List.append_of_mem
    ((mem_window (Nat.zero_lt_of_lt hlive.lt)).2 ⟨hlive.lt, h.near i hlive⟩)
  refine ⟨a, b, hsplit, fun j hj => ?_⟩
  obtain ⟨hjn, hlt⟩ := (mem_of_window_eq hsplit).1 hj
  exact h.reach i j hlive hjn hlt

end Slots

/-! ## Lookups -/

section Lookup

variable {m : FixedPrehashedMap} {fingerprint : BitVec 32}

/-- What the lookup loop finds is an entry with the fingerprint. -/
lemma probeLoop_some : ∀ {w : List ℕ} {i : ℕ}, m.probeLoop fingerprint w = some i →
    i ∈ w ∧ m.LiveAt i ∧ (m.slot i).fingerprint = fingerprint
  | [], _, h => by cases h
  | index :: rest, i, h => by
    unfold probeLoop at h
    simp only at h
    split_ifs at h with hempty hmatch
    · obtain rfl := Option.some.inj h
      exact ⟨List.mem_cons_self, ⟨hempty, hmatch.1⟩, hmatch.2⟩
    · obtain ⟨hmem, hrest⟩ := probeLoop_some h
      exact ⟨List.mem_cons_of_mem _ hmem, hrest⟩

/-- The lookup loop does not miss an entry that no empty slot precedes. -/
lemma probeLoop_isSome {i : ℕ} {b : List ℕ} (hlive : m.LiveAt i)
    (hfp : (m.slot i).fingerprint = fingerprint) :
    ∀ {a : List ℕ}, (∀ j ∈ a, (m.slot j).value ≠ emptyValue) →
      ∃ k, m.probeLoop fingerprint (a ++ i :: b) = some k
  | [], _ => ⟨i, by
      rw [List.nil_append, probeLoop]
      simp only [if_neg hlive.1, if_pos (And.intro hlive.2 hfp)]⟩
  | j :: a, h => by
    rw [List.cons_append, probeLoop]
    simp only [if_neg (h j List.mem_cons_self)]
    split_ifs
    · exact ⟨j, rfl⟩
    · exact probeLoop_isSome hlive hfp fun k hk => h k (List.mem_cons_of_mem _ hk)

/-- The lookup loop finds the slot of every entry. -/
lemma Valid.probeLoop_eq_some_iff (h : m.Valid) {i : ℕ} :
    m.probeLoop fingerprint (m.window fingerprint) = some i ↔
      m.LiveAt i ∧ (m.slot i).fingerprint = fingerprint := by
  constructor
  · intro hi
    exact (probeLoop_some hi).2
  · rintro ⟨hlive, rfl⟩
    obtain ⟨a, b, hsplit, hbefore⟩ := h.window_split hlive
    obtain ⟨k, hk⟩ := probeLoop_isSome (b := b) hlive rfl hbefore
    rw [← hsplit] at hk
    obtain ⟨-, hklive, hkfp⟩ := probeLoop_some hk
    rw [hk, h.unique k i hklive hlive hkfp]

/-- A lookup returns what the table maps the fingerprint of the hash to. -/
theorem Valid.get_eq_some_iff (h : m.Valid) {hash : BitVec 64} {value : ℕ} :
    m.get hash = some value ↔ m.Maps (fixedMapFingerprint hash) value := by
  simp only [get, Option.map_eq_some_iff, h.probeLoop_eq_some_iff, Maps]
  constructor
  · rintro ⟨i, ⟨hlive, hfp⟩, hvalue⟩
    refine ⟨i, hlive, ?_⟩
    rw [← hfp, ← hvalue]
  · rintro ⟨i, hlive, hslot⟩
    exact ⟨i, ⟨hlive, by rw [hslot]⟩, by rw [hslot]⟩

/-- A fingerprint has one owner. -/
lemma Valid.maps_unique (h : m.Valid) {v w : ℕ} (hv : m.Maps fingerprint v)
    (hw : m.Maps fingerprint w) : v = w := by
  obtain ⟨i, hi, hsi⟩ := hv
  obtain ⟨j, hj, hsj⟩ := hw
  have hij := h.unique i j hi hj (by rw [hsi, hsj])
  rw [hij, hsj] at hsi
  exact (FixedMapSlot.mk.inj hsi).2.symm

/-- A lookup finds nothing where the table maps the fingerprint of the hash to nothing. -/
lemma Valid.get_eq_none_iff (h : m.Valid) {hash : BitVec 64} :
    m.get hash = none ↔ ∀ value, ¬ m.Maps (fixedMapFingerprint hash) value := by
  simp only [Option.eq_none_iff_forall_ne_some, ne_eq, h.get_eq_some_iff]

end Lookup

/-! ## Insertions -/

section Insert

variable {m : FixedPrehashedMap} {fingerprint : BitVec 32}

/-- An insertion that finds an entry replaces that of the fingerprint. -/
lemma upsertLoop_some_some : ∀ {w : List ℕ} {deleted : Option ℕ} {i v : ℕ},
    m.upsertLoop fingerprint w deleted = some (i, some v) →
      m.LiveAt i ∧ m.slot i = ⟨fingerprint, v⟩
  | [], deleted, i, v, h => by cases deleted <;> simp [upsertLoop] at h
  | index :: rest, deleted, i, v, h => by
    unfold upsertLoop at h
    simp only at h
    split_ifs at h with hempty hdeleted hmatch
    · simp at h
    · exact upsertLoop_some_some h
    · obtain ⟨rfl, hv⟩ := Prod.mk.inj (Option.some.inj h)
      refine ⟨⟨hempty, hdeleted⟩, ?_⟩
      rw [← hmatch, ← Option.some.inj hv]
    · exact upsertLoop_some_some h

/-- An insertion that finds no entry takes a free slot that no empty one precedes, and no entry of
the fingerprint can be reached. -/
lemma upsertLoop_some_none : ∀ {w : List ℕ} {deleted : Option ℕ} {i : ℕ},
    m.upsertLoop fingerprint w deleted = some (i, none) →
      (deleted = some i ∨ deleted = none ∧ ∃ a b, w = a ++ i :: b ∧ ¬ m.LiveAt i ∧
        ∀ j ∈ a, (m.slot j).value ≠ emptyValue) ∧
      ∀ a k b, w = a ++ k :: b → (∀ j ∈ a, (m.slot j).value ≠ emptyValue) → m.LiveAt k →
        (m.slot k).fingerprint ≠ fingerprint
  | [], deleted, i, h => by
    cases deleted with
    | none => simp [upsertLoop] at h
    | some d =>
      simp only [upsertLoop, Option.map_some, Option.some.injEq, Prod.mk.injEq, and_true] at h
      exact ⟨.inl (by rw [h]), fun a k b hw => by simp at hw⟩
  | index :: rest, deleted, i, h => by
    unfold upsertLoop at h
    simp only at h
    -- an entry that can be reached through this slot is this slot or can be reached in the rest
    have hlater : (∀ a k b, rest = a ++ k :: b → (∀ j ∈ a, (m.slot j).value ≠ emptyValue) →
        m.LiveAt k → (m.slot k).fingerprint ≠ fingerprint) →
        (m.LiveAt index → (m.slot index).fingerprint ≠ fingerprint) →
        ∀ a k b, index :: rest = a ++ k :: b → (∀ j ∈ a, (m.slot j).value ≠ emptyValue) →
          m.LiveAt k → (m.slot k).fingerprint ≠ fingerprint := by
      intro hrest hindex a k b hw hbefore hlive
      cases a with
      | nil =>
        obtain ⟨rfl, -⟩ := List.cons.inj hw
        exact hindex hlive
      | cons c a =>
        obtain ⟨-, htail⟩ := List.cons.inj hw
        exact hrest a k b htail (fun j hj => hbefore j (List.mem_cons_of_mem _ hj)) hlive
    split_ifs at h with hempty hdeleted hmatch
    · obtain ⟨hi, -⟩ := Prod.mk.inj (Option.some.inj h)
      refine ⟨?_, ?_⟩
      · cases deleted with
        | none =>
          obtain rfl : index = i := hi
          exact .inr ⟨rfl, [], rest, rfl, fun hlive => hlive.1 hempty, by simp⟩
        | some d => exact .inl (by rw [← hi, Option.getD_some])
      · intro a k b hw hbefore hlive
        cases a with
        | nil =>
          obtain ⟨rfl, -⟩ := List.cons.inj hw
          exact absurd hempty hlive.1
        | cons c a =>
          obtain ⟨rfl, -⟩ := List.cons.inj hw
          exact absurd hempty (hbefore index List.mem_cons_self)
    · obtain ⟨hfound, hrest⟩ := upsertLoop_some_none h
      refine ⟨?_, hlater hrest fun hlive => absurd hdeleted hlive.2⟩
      cases deleted with
      | some d => simpa using hfound
      | none =>
        simp only [Option.none_or, Option.some.injEq, reduceCtorEq, false_and, or_false] at hfound
        subst hfound
        exact .inr ⟨rfl, [], rest, rfl, fun hlive => hlive.2 hdeleted, by simp⟩
    · simp at h
    · obtain ⟨hfound, hrest⟩ := upsertLoop_some_none h
      refine ⟨hfound.imp id ?_, hlater hrest fun _ => hmatch⟩
      rintro ⟨hnone, a, b, hw, hfree, hbefore⟩
      refine ⟨hnone, index :: a, b, by rw [hw, List.cons_append], hfree, ?_⟩
      intro j hj
      rcases List.mem_cons.1 hj with rfl | hj
      · exact hempty
      · exact hbefore j hj

/-- An insertion that is refused has found other entries only. -/
lemma upsertLoop_none : ∀ {w : List ℕ} {deleted : Option ℕ},
    m.upsertLoop fingerprint w deleted = none ↔
      deleted = none ∧ ∀ j ∈ w, m.LiveAt j ∧ (m.slot j).fingerprint ≠ fingerprint
  | [], deleted => by simp [upsertLoop]
  | index :: rest, deleted => by
    unfold upsertLoop
    simp only [List.mem_cons, forall_eq_or_imp]
    split_ifs with hempty hdeleted hmatch
    · simp [LiveAt, FixedMapSlot.Live, hempty]
    · rw [upsertLoop_none]
      simp [LiveAt, FixedMapSlot.Live, hdeleted]
    · simp [hmatch]
    · rw [upsertLoop_none]
      simp [LiveAt, FixedMapSlot.Live, hempty, hdeleted, hmatch]

/-- Slots after an update that leaves the fingerprint's own slot free for it. -/
lemma maps_set {i : ℕ} {v : ℕ} (hi : i < m.slots.length) (hv : v < deletedValue)
    (hother : ∀ j, m.LiveAt j → j = i ∨ (m.slot j).fingerprint ≠ fingerprint)
    (hfree : m.LiveAt i → (m.slot i).fingerprint = fingerprint) {f : BitVec 32} {w : ℕ} :
    (m.set i ⟨fingerprint, v⟩).Maps f w ↔
      if f = fingerprint then w = v else m.Maps f w := by
  have hlive : FixedMapSlot.Live ⟨fingerprint, v⟩ := by
    simp only [FixedMapSlot.Live, deletedValue, emptyValue] at *
    omega
  constructor
  · rintro ⟨j, hj, hslot⟩
    rw [LiveAt, slot_set hi] at hj
    rw [slot_set hi] at hslot
    by_cases hji : j = i
    · rw [if_pos hji] at hslot
      obtain ⟨rfl, rfl⟩ := FixedMapSlot.mk.inj hslot
      rw [if_pos rfl]
    · rw [if_neg hji] at hj hslot
      have hf : f ≠ fingerprint := by
        rintro rfl
        exact (hother j hj).resolve_left hji (by rw [hslot])
      rw [if_neg hf]
      exact ⟨j, hj, hslot⟩
  · split_ifs with hf
    · rintro rfl
      subst hf
      refine ⟨i, ?_, ?_⟩
      · rw [LiveAt, slot_set hi, if_pos rfl]
        exact hlive
      · rw [slot_set hi, if_pos rfl]
    · rintro ⟨j, hj, hslot⟩
      have hji : j ≠ i := by
        rintro rfl
        have := hfree hj
        rw [hslot] at this
        exact hf this
      refine ⟨j, ?_, ?_⟩
      · rw [LiveAt, slot_set hi, if_neg hji]
        exact hj
      · rw [slot_set hi, if_neg hji]
        exact hslot

/-- An entry in a free slot that can be reached, or in the place of the fingerprint's entry, keeps
the table valid. -/
lemma Valid.set (h : m.Valid) {i v : ℕ} (hi : i < m.slots.length)
    (hother : ∀ j, m.LiveAt j → j = i ∨ (m.slot j).fingerprint ≠ fingerprint)
    (hnear : probeDistance (m.home fingerprint) i m.slots.length < maxFixedMapProbes)
    (hreach : ∀ j, j < m.slots.length → probeDistance (m.home fingerprint) j m.slots.length <
      probeDistance (m.home fingerprint) i m.slots.length → (m.slot j).value ≠ emptyValue)
    (hv : v < deletedValue) : (m.set i ⟨fingerprint, v⟩).Valid := by
  have hempty : v ≠ emptyValue := by
    simp only [deletedValue, emptyValue] at *
    omega
  refine ⟨fun j hj => ?_, fun j k hj hk hlt => ?_, fun j k hj hk hfp => ?_⟩
  · rw [LiveAt, slot_set hi] at hj
    rw [slot_set hi, home_set, length_set]
    split_ifs at hj ⊢ with hji
    · exact hji ▸ hnear
    · exact h.near j hj
  · rw [LiveAt, slot_set hi] at hj
    rw [slot_set hi, home_set, length_set] at hlt
    rw [length_set] at hk
    rw [slot_set hi]
    by_cases hki : k = i
    · rw [if_pos hki]
      exact hempty
    · rw [if_neg hki]
      by_cases hji : j = i
      · rw [if_pos hji, hji] at hlt
        exact hreach k hk hlt
      · rw [if_neg hji] at hj hlt
        exact h.reach j k hj hk hlt
  · rw [LiveAt, slot_set hi] at hj hk
    rw [slot_set hi, slot_set hi] at hfp
    split_ifs at hj hk hfp with hji hki hki
    · rw [hji, hki]
    · exact absurd hfp.symm ((hother k hk).resolve_left hki)
    · exact absurd hfp ((hother j hj).resolve_left hji)
    · exact h.unique j k hj hk hfp

/-- An insertion maps the fingerprint of the hash to its owner, reports the previous one, and
leaves the rest of the map alone. -/
theorem Valid.insert (h : m.Valid) {hash : BitVec 64} {value : ℕ} {previous : Option ℕ}
    {m' : FixedPrehashedMap} (hvalue : value < deletedValue)
    (hins : m.insert hash value = some (previous, m')) :
    m'.Valid ∧ m'.slots.length = m.slots.length ∧ previous = m.get hash ∧
      ∀ f w, m'.Maps f w ↔ if f = fixedMapFingerprint hash then w = value else m.Maps f w := by
  obtain ⟨⟨i, found⟩, hfind, heq⟩ := Option.map_eq_some_iff.1 hins
  obtain ⟨rfl, rfl⟩ := Prod.mk.inj heq
  rw [length_set]
  cases found with
  | some v =>
    obtain ⟨hlive, hslot⟩ := upsertLoop_some_some hfind
    have hother : ∀ j, m.LiveAt j → j = i ∨ (m.slot j).fingerprint ≠ fixedMapFingerprint hash := by
      intro j hj
      by_cases hfp : (m.slot j).fingerprint = fixedMapFingerprint hash
      · exact .inl (h.unique j i hj hlive (by rw [hfp, hslot]))
      · exact .inr hfp
    have hfp : fixedMapFingerprint hash = (m.slot i).fingerprint := by rw [hslot]
    refine ⟨h.set hlive.lt hother ?_ (fun j hj => ?_) hvalue, rfl, ?_, fun f w =>
      maps_set hlive.lt hvalue hother fun _ => hfp.symm⟩
    · rw [hfp]
      exact h.near i hlive
    · rw [hfp]
      exact h.reach i j hlive hj
    · exact (h.get_eq_some_iff.2 ⟨i, hlive, hslot⟩).symm
  | none =>
    obtain ⟨hfound, hnone⟩ := upsertLoop_some_none hfind
    obtain ⟨-, a, b, hsplit, hfree, hbefore⟩ := hfound.resolve_left (by simp)
    have hmem : i ∈ m.window (fixedMapFingerprint hash) := by simp [hsplit]
    have hpos : 0 < m.slots.length := by
      by_contra hzero
      simp [window, Nat.eq_zero_of_not_pos hzero] at hmem
    obtain ⟨hi, hnear⟩ := (mem_window hpos).1 hmem
    -- no entry of the fingerprint exists, for the loop would have met it
    have habsent : ∀ j, m.LiveAt j → (m.slot j).fingerprint ≠ fixedMapFingerprint hash := by
      intro j hj hfp
      obtain ⟨c, d, hsplit', hbefore'⟩ := h.window_split hj
      rw [hfp] at hsplit'
      exact hnone c j d hsplit' hbefore' hj hfp
    have hreach : ∀ j, j < m.slots.length →
        probeDistance (m.home (fixedMapFingerprint hash)) j m.slots.length <
          probeDistance (m.home (fixedMapFingerprint hash)) i m.slots.length →
        (m.slot j).value ≠ emptyValue :=
      fun j hj hlt => hbefore j ((mem_of_window_eq hsplit).2 ⟨hj, hlt⟩)
    refine ⟨h.set hi (fun j hj => .inr (habsent j hj)) hnear hreach hvalue, rfl, ?_, fun f w =>
      maps_set hi hvalue (fun j hj => .inr (habsent j hj)) fun hlive => absurd hlive hfree⟩
    rw [eq_comm, h.get_eq_none_iff]
    rintro value ⟨j, hj, hslot⟩
    exact habsent j hj (by rw [hslot])

/-- An insertion is refused exactly when the window of the hash holds other entries only. -/
theorem insert_eq_none_iff {hash : BitVec 64} {value : ℕ} :
    m.insert hash value = none ↔ ∀ j ∈ m.window (fixedMapFingerprint hash),
      m.LiveAt j ∧ (m.slot j).fingerprint ≠ fixedMapFingerprint hash := by
  rw [FixedPrehashedMap.insert, Option.map_eq_none_iff, findUpsertSlot, upsertLoop_none]
  simp

/-- An entry of the table can be replaced. -/
lemma Valid.insert_ne_none (h : m.Valid) {hash : BitVec 64} {v : ℕ}
    (hv : m.Maps (fixedMapFingerprint hash) v) (value : ℕ) : m.insert hash value ≠ none := by
  rw [Ne, insert_eq_none_iff]
  intro hall
  obtain ⟨i, hlive, hslot⟩ := hv
  have hfp : (m.slot i).fingerprint = fixedMapFingerprint hash := by rw [hslot]
  obtain ⟨a, b, hsplit, -⟩ := h.window_split hlive
  rw [hfp] at hsplit
  exact (hall i (by simp [hsplit])).2 hfp

end Insert

/-! ## Removals -/

section Remove

/-- The state of the compaction: the table is valid, the hole is a deletion, and no entry between
the hole and the cursor is reached through the hole. -/
structure Compacting (m : FixedPrehashedMap) (hole cursor : ℕ) : Prop where
  /-- The table. -/
  valid : m.Valid
  /-- The hole is in the table. -/
  hole_lt : hole < m.slots.length
  /-- The cursor is in the table. -/
  cursor_lt : cursor < m.slots.length
  /-- The hole is not an entry, and does not look empty. -/
  hole_deleted : (m.slot hole).value = deletedValue
  /-- Entries that the cursor has passed. -/
  passed : ∀ i, m.LiveAt i →
    probeDistance hole i m.slots.length < probeDistance hole cursor m.slots.length →
    probeDistance (m.home (m.slot i).fingerprint) i m.slots.length ≤
      probeDistance (m.home (m.slot i).fingerprint) hole m.slots.length

variable {m : FixedPrehashedMap} {hole cursor : ℕ}

/-- Marks are not entries. -/
lemma not_live_of_deleted {i : ℕ} (h : (m.slot i).value = deletedValue) : ¬ m.LiveAt i :=
  fun hlive => hlive.2 h

/-- A deletion in the place of an entry takes the entry out of the map. -/
lemma Valid.delete (h : m.Valid) (hlive : m.LiveAt hole) :
    (m.set hole { m.slot hole with value := deletedValue }).Valid ∧
      ∀ f w, (m.set hole { m.slot hole with value := deletedValue }).Maps f w ↔
        f ≠ (m.slot hole).fingerprint ∧ m.Maps f w := by
  have hlt := hlive.lt
  -- the entries that are left
  have hother : ∀ i, (m.set hole { m.slot hole with value := deletedValue }).LiveAt i ↔
      i ≠ hole ∧ m.LiveAt i := by
    intro i
    rw [LiveAt, slot_set hlt]
    by_cases hi : i = hole
    · simp [hi, FixedMapSlot.Live]
    · simp [hi, LiveAt]
  have hslot : ∀ i, i ≠ hole →
      (m.set hole { m.slot hole with value := deletedValue }).slot i = m.slot i := by
    intro i hi
    rw [slot_set hlt, if_neg hi]
  refine ⟨⟨fun i hi => ?_, fun i j hi hj hd => ?_, fun i j hi hj hfp => ?_⟩, fun f w => ?_⟩
  · obtain ⟨hne, hi⟩ := (hother i).1 hi
    rw [hslot i hne, home_set, length_set]
    exact h.near i hi
  · obtain ⟨hne, hi⟩ := (hother i).1 hi
    rw [hslot i hne, home_set, length_set] at hd
    rw [length_set] at hj
    rw [slot_set hlt]
    split_ifs
    · exact fun he => by simp [deletedValue, emptyValue] at he
    · exact h.reach i j hi hj hd
  · obtain ⟨hne, hi⟩ := (hother i).1 hi
    obtain ⟨hne', hj⟩ := (hother j).1 hj
    rw [hslot i hne, hslot j hne'] at hfp
    exact h.unique i j hi hj hfp
  · constructor
    · rintro ⟨i, hi, hs⟩
      obtain ⟨hne, hi⟩ := (hother i).1 hi
      rw [hslot i hne] at hs
      refine ⟨?_, i, hi, hs⟩
      rintro rfl
      exact hne (h.unique i hole hi hlive (by rw [hs]))
    · rintro ⟨hf, i, hi, hs⟩
      have hne : i ≠ hole := by
        rintro rfl
        exact hf (by rw [hs])
      exact ⟨i, (hother i).2 ⟨hne, hi⟩, by rw [hslot i hne, hs]⟩

/-- A hole that no entry is reached through may become empty. -/
lemma Compacting.clear (h : Compacting m hole cursor)
    (hempty : (m.slot cursor).value = emptyValue) :
    (m.set hole .empty).Valid ∧ ∀ f w, (m.set hole .empty).Maps f w ↔ m.Maps f w := by
  have hlt := h.hole_lt
  have hhole := not_live_of_deleted h.hole_deleted
  have hother : ∀ i, (m.set hole .empty).LiveAt i ↔ m.LiveAt i := by
    intro i
    rw [LiveAt, slot_set hlt]
    by_cases hi : i = hole
    · subst hi
      simp only [if_true, hhole, iff_false]
      exact fun hl => hl.1 rfl
    · rw [if_neg hi]
      rfl
  have hslot : ∀ i, m.LiveAt i → (m.set hole .empty).slot i = m.slot i := by
    intro i hi
    rw [slot_set hlt, if_neg]
    rintro rfl
    exact hhole hi
  refine ⟨⟨fun i hi => ?_, fun i j hi hj hd => ?_, fun i j hi hj hfp => ?_⟩, fun f w => ?_⟩
  · rw [hother] at hi
    rw [hslot i hi, home_set, length_set]
    exact h.valid.near i hi
  · rw [hother] at hi
    rw [hslot i hi, home_set, length_set] at hd
    rw [length_set] at hj
    rw [slot_set hlt]
    split_ifs with hjh
    · -- the entry is reached through the hole: the cursor has passed it, or it lies beyond it
      subst hjh
      exfalso
      have hhome := m.home_lt (Nat.zero_lt_of_lt hj) (m.slot i).fingerprint
      have hdist := probeDistance_sub hhome hj hi.lt (Nat.le_of_lt hd)
      by_cases hpassed : probeDistance j i m.slots.length < probeDistance j cursor m.slots.length
      · have := h.passed i hi hpassed
        omega
      · have hcursor : i ≠ cursor := by
          rintro rfl
          exact hi.1 hempty
        have hne : probeDistance j i m.slots.length ≠ probeDistance j cursor m.slots.length :=
          fun he => hcursor (eq_of_probeDistance_eq hi.lt h.cursor_lt hj he)
        refine h.valid.reach i cursor hi h.cursor_lt ?_ hempty
        have hlt' := probeDistance_lt hhome hi.lt
        have hle := probeDistance_add (j := cursor) hhome hj (by omega)
        omega
    · exact h.valid.reach i j hi hj hd
  · rw [hother] at hi hj
    rw [hslot i hi, hslot j hj] at hfp
    exact h.valid.unique i j hi hj hfp
  · constructor
    · rintro ⟨i, hi, hs⟩
      rw [hother] at hi
      exact ⟨i, hi, by rw [← hs, hslot i hi]⟩
    · rintro ⟨i, hi, hs⟩
      exact ⟨i, (hother i).2 hi, by rw [hslot i hi, hs]⟩

/-- The cursor goes on over a slot that is not moved. -/
lemma Compacting.skip (h : Compacting m hole cursor)
    (hstay : ¬ ((m.slot cursor).value ≠ deletedValue ∧
      probeDistance (m.home (m.slot cursor).fingerprint) hole m.slots.length <
        probeDistance (m.home (m.slot cursor).fingerprint) cursor m.slots.length)) :
    Compacting m hole (nextProbeIndex cursor m.slots.length) := by
  refine ⟨h.valid, h.hole_lt, nextProbeIndex_lt h.cursor_lt, h.hole_deleted, fun i hi hd => ?_⟩
  have hnext := probeDistance_nextProbeIndex h.hole_lt cursor
  by_cases hpassed : probeDistance hole i m.slots.length < probeDistance hole cursor m.slots.length
  · exact h.passed i hi hpassed
  · obtain rfl : i = cursor :=
      eq_of_probeDistance_eq hi.lt h.cursor_lt h.hole_lt (by omega)
    by_contra hlt
    exact hstay ⟨hi.2, Nat.lt_of_not_le hlt⟩

/-- The entry at the cursor moves into the hole.

**Proof sketch.** The hole is nearer to the home of the entry, so what precedes the hole in its
window preceded the cursor before. The slot that the entry leaves becomes a deletion, which does not
look empty to others. -/
lemma Compacting.move (h : Compacting m hole cursor) (hlive : m.LiveAt cursor)
    (hnearer : probeDistance (m.home (m.slot cursor).fingerprint) hole m.slots.length <
      probeDistance (m.home (m.slot cursor).fingerprint) cursor m.slots.length) :
    let m' := (m.set hole (m.slot cursor)).set cursor
      { m.slot cursor with value := deletedValue }
    Compacting m' cursor (nextProbeIndex cursor m.slots.length) ∧
      (∀ f w, m'.Maps f w ↔ m.Maps f w) ∧ ∀ i, m'.LiveAt i → m.LiveAt i ∨ i = hole := by
  intro m'
  have hne : hole ≠ cursor := by
    rintro rfl
    exact Nat.lt_irrefl _ hnearer
  have hhole := not_live_of_deleted h.hole_deleted
  have hlen : m'.slots.length = m.slots.length := by simp [m']
  have hhome : ∀ f, m'.home f = m.home f := fun f => by simp [m']
  have hslot : ∀ i, m'.slot i = if i = cursor then { m.slot cursor with value := deletedValue }
      else if i = hole then m.slot cursor else m.slot i := by
    intro i
    rw [slot_set (by rw [length_set]; exact h.cursor_lt), slot_set h.hole_lt]
  have hcursor : ¬ m'.LiveAt cursor := not_live_of_deleted (by rw [hslot, if_pos rfl])
  have hat : m'.slot hole = m.slot cursor := by rw [hslot, if_neg hne, if_pos rfl]
  have hrest : ∀ i, i ≠ cursor → i ≠ hole → m'.slot i = m.slot i := by
    intro i hic hih
    rw [hslot, if_neg hic, if_neg hih]
  -- every entry of the new table, with the slot that it had before
  have hold : ∀ i, m'.LiveAt i →
      (i = hole ∨ i ≠ hole ∧ i ≠ cursor ∧ m.LiveAt i ∧ m'.slot i = m.slot i) := by
    intro i hi
    by_cases hih : i = hole
    · exact .inl hih
    · have hic : i ≠ cursor := by
        rintro rfl
        exact hcursor hi
      refine .inr ⟨hih, hic, ?_, hrest i hic hih⟩
      rw [LiveAt, ← hrest i hic hih]
      exact hi
  have hvalue : ∀ j, (m.slot j).value ≠ emptyValue → (m'.slot j).value ≠ emptyValue := by
    intro j hj
    rw [hslot]
    split_ifs
    · exact fun he => by simp [deletedValue, emptyValue] at he
    · exact hlive.1
    · exact hj
  refine ⟨⟨⟨fun i hi => ?_, fun i j hi hj hd => ?_, fun i j hi hj hfp => ?_⟩, ?_, ?_, ?_, ?_⟩, ?_,
    ?_⟩
  · rw [hlen, hhome]
    rcases hold i hi with rfl | ⟨-, -, hi, hs⟩
    · rw [hat]
      exact hnearer.trans (h.valid.near cursor hlive)
    · rw [hs]
      exact h.valid.near i hi
  · rw [hlen, hhome] at hd
    rw [hlen] at hj
    refine hvalue j ?_
    rcases hold i hi with rfl | ⟨-, -, hi, hs⟩
    · rw [hat] at hd
      exact h.valid.reach cursor j hlive hj (hd.trans hnearer)
    · rw [hs] at hd
      exact h.valid.reach i j hi hj hd
  · rcases hold i hi with rfl | ⟨-, hic, hi', hs⟩ <;>
      rcases hold j hj with rfl | ⟨-, hjc, hj', hs'⟩
    · rfl
    · rw [hat, hs'] at hfp
      exact absurd (h.valid.unique j cursor hj' hlive hfp.symm) hjc
    · rw [hat, hs] at hfp
      exact absurd (h.valid.unique i cursor hi' hlive hfp) hic
    · rw [hs, hs'] at hfp
      exact h.valid.unique i j hi' hj' hfp
  · exact hlen ▸ h.cursor_lt
  · rw [hlen]
    exact nextProbeIndex_lt h.cursor_lt
  · rw [hslot, if_pos rfl]
  · intro i hi hd
    rw [hlen] at hd
    have hnext := probeDistance_nextProbeIndex h.cursor_lt cursor
    have hself : probeDistance cursor cursor m.slots.length = 0 := by simp [probeDistance]
    obtain rfl := probeDistance_eq_zero h.cursor_lt (show probeDistance cursor i _ = 0 by omega)
    exact absurd hi hcursor
  · intro f w
    constructor
    · rintro ⟨i, hi, hs⟩
      rcases hold i hi with rfl | ⟨-, -, hi, hs'⟩
      · exact ⟨cursor, hlive, hat ▸ hs⟩
      · exact ⟨i, hi, hs' ▸ hs⟩
    · rintro ⟨i, hi, hs⟩
      by_cases hic : i = cursor
      · subst hic
        exact ⟨hole, by rw [LiveAt, hat]; exact hi, hat.trans hs⟩
      · have hih : i ≠ hole := by
          rintro rfl
          exact hhole hi
        exact ⟨i, by rw [LiveAt, hrest i hic hih]; exact hi, (hrest i hic hih).trans hs⟩
  · intro i hi
    rcases hold i hi with rfl | ⟨-, -, hi, -⟩
    · exact .inr rfl
    · exact .inl hi

/-- The compaction keeps the table valid and the map as it is, and fills no slot but the hole. -/
lemma Compacting.compactLoop : ∀ (steps : ℕ) {m : FixedPrehashedMap} {hole cursor : ℕ},
    Compacting m hole cursor →
      let m' := FixedPrehashedMap.compactLoop steps m hole cursor
      m'.Valid ∧ m'.slots.length = m.slots.length ∧ (∀ f w, m'.Maps f w ↔ m.Maps f w) ∧
        ∀ i, m'.LiveAt i → m.LiveAt i ∨ i = hole
  | 0, m, hole, cursor, h => ⟨h.valid, rfl, fun _ _ => Iff.rfl, fun _ hi => .inl hi⟩
  | steps + 1, m, hole, cursor, h => by
    intro m'
    simp only [FixedPrehashedMap.compactLoop, m']
    split_ifs with hempty hmove
    · obtain ⟨hvalid, hmaps⟩ := h.clear hempty
      refine ⟨hvalid, length_set _ _ _, hmaps, fun i hi => ?_⟩
      rw [LiveAt, slot_set h.hole_lt] at hi
      split_ifs at hi with hih
      · exact .inr hih
      · exact .inl hi
    · have hlive : m.LiveAt cursor := ⟨hempty, hmove.1⟩
      obtain ⟨hnext, hmaps, hfill⟩ := h.move hlive hmove.2
      obtain ⟨hvalid, hlen, hmaps', hfill'⟩ := Compacting.compactLoop steps hnext
      refine ⟨hvalid, by simpa using hlen, fun f w => (hmaps' f w).trans (hmaps f w),
        fun i hi => ?_⟩
      rcases hfill' i hi with hi | rfl
      · exact hfill i hi
      · exact .inl hlive
    · exact Compacting.compactLoop steps (h.skip hmove)

/-- A removal takes the entry of the hash's fingerprint out of the map and reports its owner. No
slot comes into use. -/
theorem Valid.remove (h : m.Valid) {hash : BitVec 64} {removed : Option ℕ}
    {m' : FixedPrehashedMap} (hrem : m.remove hash = (removed, m')) :
    m'.Valid ∧ m'.slots.length = m.slots.length ∧ removed = m.get hash ∧
      (∀ f w, m'.Maps f w ↔ f ≠ fixedMapFingerprint hash ∧ m.Maps f w) ∧
      ∀ i, m'.LiveAt i → m.LiveAt i := by
  unfold FixedPrehashedMap.remove at hrem
  simp only at hrem
  cases hfind : m.probeLoop (fixedMapFingerprint hash) (m.window (fixedMapFingerprint hash)) with
  | none =>
    rw [hfind] at hrem
    obtain ⟨rfl, rfl⟩ := Prod.mk.inj hrem
    refine ⟨h, rfl, by simp [get, hfind], fun f w => ⟨fun hm => ⟨?_, hm⟩, And.right⟩,
      fun _ hi => hi⟩
    rintro rfl
    obtain ⟨i, hi, hs⟩ := hm
    have := h.probeLoop_eq_some_iff.2 ⟨hi, show (m.slot i).fingerprint = _ by rw [hs]⟩
    rw [hfind] at this
    cases this
  | some index =>
    rw [hfind] at hrem
    obtain ⟨rfl, rfl⟩ := Prod.mk.inj hrem
    obtain ⟨hlive, hfp⟩ := h.probeLoop_eq_some_iff.1 hfind
    obtain ⟨hvalid, hmaps⟩ := h.delete hlive
    have hdeleted : Compacting (m.set index { m.slot index with value := deletedValue }) index
        (nextProbeIndex index m.slots.length) := by
      refine ⟨hvalid, by simpa using hlive.lt, ?_, ?_, fun i hi hd => ?_⟩
      · rw [length_set]
        exact nextProbeIndex_lt hlive.lt
      · rw [slot_set hlive.lt, if_pos rfl]
      · rw [length_set] at hd
        have hnext := probeDistance_nextProbeIndex hlive.lt index
        have hself : probeDistance index index m.slots.length = 0 := by simp [probeDistance]
        obtain rfl := probeDistance_eq_zero hlive.lt (show probeDistance index i _ = 0 by omega)
        refine absurd hi (not_live_of_deleted ?_)
        rw [slot_set hlive.lt, if_pos rfl]
    obtain ⟨hvalid', hlen, hmaps', hfill⟩ := hdeleted.compactLoop
      (min (m.slots.length - 1) maxFixedMapProbes)
    rw [compactDeleted, length_set]
    refine ⟨hvalid', by simpa using hlen, by simp [get, hfind], fun f w => ?_, fun i hi => ?_⟩
    · rw [hmaps', hmaps, hfp]
    · rcases hfill i hi with hi | rfl
      · rw [LiveAt, slot_set hlive.lt] at hi
        split_ifs at hi with hii
        · exact hii ▸ hlive
        · exact hi
      · exact hlive

end Remove

/-- A new table is empty. -/
lemma valid_tryNew (maximumEntries : ℕ) :
    (tryNew maximumEntries).Valid ∧ ∀ f w, ¬ (tryNew maximumEntries).Maps f w := by
  have hnone : ∀ i, ¬ (tryNew maximumEntries).LiveAt i := by
    intro i hi
    refine hi.1 ?_
    simp only [slot, tryNew, List.getD_eq_getElem?_getD, List.getElem?_replicate]
    split <;> rfl
  exact ⟨⟨fun i hi => absurd hi (hnone i), fun i _ hi => absurd hi (hnone i),
    fun i _ hi => absurd hi (hnone i)⟩, fun f w ⟨i, hi, _⟩ => hnone i hi⟩

end FixedPrehashedMap

end Cache2
