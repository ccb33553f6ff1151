import Cache2.Memory.LastSlot

set_option relaxedAutoImplicit false
set_option autoImplicit false

/-!
# Room in the directory

An admission asks the directory whether it can take the hash, then removes the entry to be replaced
and the victims, and only then inserts. A removal closes its hole with entries from farther on. When
the window of the hash is full and the hash's own entry is among those that go, entries from beyond
the window may move in behind it, and the insertion finds no room.

The insertion succeeds when the window has a free slot, which removals never fill, or when the
hash's own entry lies before a slot that no entry farther on is reached through: entries beyond that
slot do not move in front of it.

## Main definitions

* `Cache2.FixedPrehashedMap.Roomy` — room that removals do not take.
* `Cache2.MemoryStore.RoomyRun` — a run whose admissions find room.

## Main results

* `Cache2.FixedPrehashedMap.Roomy.remove` — removals keep room.
* `Cache2.MemoryStore.directoryInsertion_unreached` — in such a run, no insertion into the directory
  is refused after the fact.
* `Cache2.crowded_directoryInsertion` — a run in which one is.
-/

namespace Cache2

open Loop

namespace FixedPrehashedMap

/-! ## Room -/

/-- The entry in slot `i` is reached through slot `p`, and lies beyond it. -/
def Passes (m : FixedPrehashedMap) (p i : ℕ) : Prop :=
  m.LiveAt i ∧ probeDistance (m.home (m.slot i).fingerprint) p m.slots.length <
    probeDistance (m.home (m.slot i).fingerprint) i m.slots.length

instance (m : FixedPrehashedMap) (i : ℕ) : Decidable (m.LiveAt i) :=
  inferInstanceAs (Decidable (m.slot i).Live)

instance (m : FixedPrehashedMap) (p i : ℕ) : Decidable (m.Passes p i) :=
  inferInstanceAs (Decidable (_ ∧ _))

/-- There is room for the fingerprint whatever is removed: a slot of its window is free, or its
entry is at or before a slot of the window that no entry passes. -/
def Roomy (m : FixedPrehashedMap) (fingerprint : BitVec 32) : Prop :=
  (∃ p ∈ m.window fingerprint, ¬ m.LiveAt p) ∨
    ∃ q ∈ m.window fingerprint, (m.LiveAt q ∧ (m.slot q).fingerprint = fingerprint) ∧
      ∃ p ∈ m.window fingerprint, probeDistance (m.home fingerprint) q m.slots.length ≤
        probeDistance (m.home fingerprint) p m.slots.length ∧
        ∀ i < m.slots.length, ¬ m.Passes p i

instance (m : FixedPrehashedMap) (fingerprint : BitVec 32) : Decidable (m.Roomy fingerprint) :=
  inferInstanceAs (Decidable (_ ∨ _))

section Room

variable {m m' : FixedPrehashedMap} {fingerprint : BitVec 32} {p q i hole cursor : ℕ}

/-- Where there is room, an insertion succeeds. -/
lemma Roomy.insert_ne_none {hash : BitVec 64} (h : m.Roomy (fixedMapFingerprint hash)) (value : ℕ) :
    m.insert hash value ≠ none := by
  rw [Ne, insert_eq_none_iff]
  intro hall
  obtain ⟨p, hp, hfree⟩ | ⟨q, hq, ⟨-, hfp⟩, -⟩ := h
  · exact hfree (hall p hp).1
  · exact (hall q hq).2 hfp

/-- Entries of `m'` are entries of `m` that have stayed where they were or have come nearer to their
homes, and the other way around. -/
structure Retreats (m m' : FixedPrehashedMap) : Prop where
  /-- The size of the table. -/
  length : m'.slots.length = m.slots.length
  /-- Where an entry comes from. -/
  origin : ∀ i, m'.LiveAt i → ∃ j, m.LiveAt j ∧ m.slot j = m'.slot i ∧
    probeDistance (m.home (m.slot j).fingerprint) i m.slots.length ≤
      probeDistance (m.home (m.slot j).fingerprint) j m.slots.length
  /-- Where an entry goes. -/
  remains : ∀ j, m.LiveAt j → ∃ i, m'.LiveAt i ∧ m'.slot i = m.slot j ∧
    probeDistance (m.home (m.slot j).fingerprint) i m.slots.length ≤
      probeDistance (m.home (m.slot j).fingerprint) j m.slots.length

lemma Retreats.home_eq (h : Retreats m m') (f : BitVec 32) : m'.home f = m.home f := by
  rw [home, home, h.length]

lemma Retreats.refl (m : FixedPrehashedMap) : Retreats m m :=
  ⟨rfl, fun i hi => ⟨i, hi, rfl, le_rfl⟩, fun j hj => ⟨j, hj, rfl, le_rfl⟩⟩

lemma Retreats.trans {m'' : FixedPrehashedMap} (h : Retreats m m') (h' : Retreats m' m'') :
    Retreats m m'' := by
  refine ⟨h'.length.trans h.length, fun i hi => ?_, fun j hj => ?_⟩
  · obtain ⟨k, hk, hslot, hle⟩ := h'.origin i hi
    obtain ⟨j, hj, hslot', hle'⟩ := h.origin k hk
    rw [h.home_eq, h.length, ← hslot'] at hle
    exact ⟨j, hj, hslot'.trans hslot, hle.trans hle'⟩
  · obtain ⟨k, hk, hslot, hle⟩ := h.remains j hj
    obtain ⟨i, hi, hslot', hle'⟩ := h'.remains k hk
    rw [h.home_eq, h.length, hslot] at hle'
    exact ⟨i, hi, hslot'.trans hslot, hle'.trans hle⟩

/-- An entry that passes a slot has passed it before. -/
lemma Retreats.passes (h : Retreats m m') (hp : m'.Passes p i) : ∃ j, m.Passes p j := by
  obtain ⟨hi, hlt⟩ := hp
  obtain ⟨j, hj, hslot, hle⟩ := h.origin i hi
  rw [h.home_eq, h.length, ← hslot] at hlt
  exact ⟨j, hj, hlt.trans_le hle⟩

/-- A slot that has no entry may be emptied. -/
lemma retreats_clear (hlt : hole < m.slots.length) (hhole : ¬ m.LiveAt hole) :
    Retreats m (m.set hole .empty) := by
  have hslot : ∀ i, m.LiveAt i → (m.set hole .empty).slot i = m.slot i := by
    intro i hi
    rw [slot_set hlt, if_neg]
    rintro rfl
    exact hhole hi
  have hlive : ∀ i, (m.set hole .empty).LiveAt i → m.LiveAt i := by
    intro i hi
    rw [LiveAt, slot_set hlt] at hi
    split_ifs at hi
    · exact absurd rfl hi.1
    · exact hi
  refine ⟨length_set _ _ _, fun i hi => ⟨i, hlive i hi, (hslot i (hlive i hi)).symm, le_rfl⟩,
    fun j hj => ⟨j, ?_, hslot j hj, le_rfl⟩⟩
  rw [LiveAt, hslot j hj]
  exact hj

/-- The table after the entry at the cursor has moved into the hole. -/
def moved (m : FixedPrehashedMap) (hole cursor : ℕ) : FixedPrehashedMap :=
  (m.set hole (m.slot cursor)).set cursor { m.slot cursor with value := deletedValue }

lemma slot_moved (hhole : hole < m.slots.length) (hcursor : cursor < m.slots.length) :
    (m.moved hole cursor).slot i =
      if i = cursor then { m.slot cursor with value := deletedValue }
      else if i = hole then m.slot cursor else m.slot i := by
  rw [moved, slot_set (by rwa [length_set]), slot_set hhole]

/-- The slot that an entry leaves is free. -/
lemma not_live_moved (hhole : hole < m.slots.length) (hcursor : cursor < m.slots.length) :
    ¬ (m.moved hole cursor).LiveAt cursor := by
  refine not_live_of_deleted ?_
  rw [slot_moved hhole hcursor, if_pos rfl]

/-- An entry may move to a free slot that is nearer to its home. -/
lemma retreats_moved (hhole : hole < m.slots.length) (hfree : ¬ m.LiveAt hole)
    (hlive : m.LiveAt cursor)
    (hnearer : probeDistance (m.home (m.slot cursor).fingerprint) hole m.slots.length <
      probeDistance (m.home (m.slot cursor).fingerprint) cursor m.slots.length) :
    Retreats m (m.moved hole cursor) := by
  have hslot : ∀ i, (m.moved hole cursor).slot i = _ := fun i => slot_moved hhole hlive.lt
  have hne : hole ≠ cursor := by
    rintro rfl
    exact hfree hlive
  have hat : (m.moved hole cursor).slot hole = m.slot cursor := by
    rw [hslot, if_neg hne, if_pos rfl]
  have hother : ∀ i, i ≠ cursor → i ≠ hole → (m.moved hole cursor).slot i = m.slot i := by
    intro i hic hih
    rw [hslot, if_neg hic, if_neg hih]
  refine ⟨by simp [moved], fun i hi => ?_, fun j hj => ?_⟩
  · by_cases hih : i = hole
    · subst hih
      exact ⟨cursor, hlive, hat.symm, hnearer.le⟩
    · have hic : i ≠ cursor := by
        rintro rfl
        exact not_live_moved hhole hlive.lt hi
      rw [LiveAt, hother i hic hih] at hi
      exact ⟨i, hi, (hother i hic hih).symm, le_rfl⟩
  · by_cases hjc : j = cursor
    · subst hjc
      exact ⟨hole, by rw [LiveAt, hat]; exact hlive, hat, hnearer.le⟩
    · have hjh : j ≠ hole := by
        rintro rfl
        exact hfree hj
      exact ⟨j, by rw [LiveAt, hother j hjc hjh]; exact hj, hother j hjc hjh, le_rfl⟩

/-- The compaction brings entries nearer to their homes, and fills no slot but the hole. -/
lemma retreats_compactLoop (steps : ℕ) {m : FixedPrehashedMap} {hole cursor : ℕ}
    (hhole : hole < m.slots.length) (hcursor : cursor < m.slots.length)
    (hfree : ¬ m.LiveAt hole) :
    Retreats m (compactLoop steps m hole cursor) ∧
      ∀ i, (compactLoop steps m hole cursor).LiveAt i → m.LiveAt i ∨ i = hole := by
  induction steps generalizing m hole cursor with
  | zero => exact ⟨.refl m, fun i hi => .inl hi⟩
  | succ steps ih =>
    simp only [compactLoop]
    split_ifs with hempty hmove
    · refine ⟨retreats_clear hhole hfree, fun i hi => ?_⟩
      by_cases hih : i = hole
      · exact .inr hih
      · rw [LiveAt, slot_set hhole, if_neg hih] at hi
        exact .inl hi
    · have hlive : m.LiveAt cursor := ⟨hempty, hmove.1⟩
      have hstep := retreats_moved hhole hfree hlive hmove.2
      obtain ⟨hrest, hfill⟩ := @ih (m.moved hole cursor) cursor
        (nextProbeIndex cursor m.slots.length) (by rwa [hstep.length])
        (by rw [hstep.length]; exact nextProbeIndex_lt hcursor) (not_live_moved hhole hcursor)
      refine ⟨hstep.trans hrest, fun i hi => ?_⟩
      rcases hfill i hi with hi | rfl
      · by_cases hih : i = hole
        · exact .inr hih
        · have hic : i ≠ cursor := by
            rintro rfl
            exact not_live_moved hhole hcursor hi
          rw [LiveAt, slot_moved hhole hcursor, if_neg hic, if_neg hih] at hi
          exact .inl hi
      · exact .inl hlive
    · exact ih hhole (nextProbeIndex_lt hcursor) hfree

/-- An entry that moves into a hole before `p` without passing `p` comes from a slot before `p`. -/
lemma probeDistance_le_of_not_passes {home home' p hole cursor slots : ℕ} (hhome : home < slots)
    (hhome' : home' < slots) (hp : p < slots) (hhole : hole < slots) (hcursor : cursor < slots)
    (hbefore : probeDistance home hole slots ≤ probeDistance home p slots)
    (hnearer : probeDistance home' hole slots < probeDistance home' cursor slots)
    (hpasses : probeDistance home' cursor slots ≤ probeDistance home' p slots) :
    probeDistance home cursor slots ≤ probeDistance home p slots := by
  by_contra hbeyond
  have h₁ := probeDistance_sub hhome hhole hp hbefore
  have h₂ := probeDistance_sub hhome hhole hcursor (by omega)
  have h₃ := probeDistance_sub hhome' hhole hcursor hnearer.le
  have h₄ := probeDistance_sub hhome' hhole hp (by omega)
  omega

/-- A hole before a slot that no entry passes does not get beyond it. -/
lemma exists_free_compactLoop (steps home : ℕ) {m : FixedPrehashedMap} {p hole cursor : ℕ}
    (hhome : home < m.slots.length) (hp : p < m.slots.length) (hhole : hole < m.slots.length)
    (hcursor : cursor < m.slots.length) (hfree : ¬ m.LiveAt hole)
    (hbefore : probeDistance home hole m.slots.length ≤ probeDistance home p m.slots.length)
    (hpasses : ∀ i, ¬ m.Passes p i) :
    ∃ x < m.slots.length, ¬ (compactLoop steps m hole cursor).LiveAt x ∧
      probeDistance home x m.slots.length ≤ probeDistance home p m.slots.length := by
  induction steps generalizing m hole cursor with
  | zero => exact ⟨hole, hhole, hfree, hbefore⟩
  | succ steps ih =>
    simp only [compactLoop]
    split_ifs with hempty hmove
    · refine ⟨hole, hhole, ?_, hbefore⟩
      rw [LiveAt, slot_set hhole, if_pos rfl]
      exact fun hlive => hlive.1 rfl
    · have hlive : m.LiveAt cursor := ⟨hempty, hmove.1⟩
      have hstep := retreats_moved hhole hfree hlive hmove.2
      have hnext := probeDistance_le_of_not_passes hhome
        (m.home_lt (Nat.zero_lt_of_lt hp) (m.slot cursor).fingerprint) hp hhole hcursor hbefore
        hmove.2 (Nat.le_of_not_lt fun hlt => hpasses cursor ⟨hlive, hlt⟩)
      have hrest := @ih (m.moved hole cursor) cursor
        (nextProbeIndex cursor m.slots.length) (by rwa [hstep.length])
        (by rwa [hstep.length]) (by rwa [hstep.length])
        (by rw [hstep.length]; exact nextProbeIndex_lt hcursor) (not_live_moved hhole hcursor)
        (by rwa [hstep.length])
        (fun i hi => by
          obtain ⟨j, hj⟩ := hstep.passes hi
          exact hpasses j hj)
      rwa [hstep.length] at hrest
    · exact ih hhome hp hhole (nextProbeIndex_lt hcursor) hfree hbefore hpasses

/-- The table after a deletion in the place of an entry. -/
lemma liveAt_delete (hlive : m.LiveAt q) :
    (m.set q { m.slot q with value := deletedValue }).LiveAt i ↔ i ≠ q ∧ m.LiveAt i := by
  rw [LiveAt, slot_set hlive.lt]
  by_cases hi : i = q
  · simp [hi, FixedMapSlot.Live]
  · simp [hi, LiveAt]

/-- **Removals keep room.**

**Proof sketch.** A free slot of the window stays free, for the compaction only fills the hole of
the removed entry. Otherwise there is a slot that no entry passes, with the fingerprint's own entry
at or before it. If that entry stays, it has at most come nearer to its home, and so have the
entries beyond, none of which starts to pass the slot. If it is the one that is removed, its hole
does not get beyond the slot, and so remains in the window. -/
theorem Roomy.remove (h : m.Roomy fingerprint) (hash : BitVec 64) :
    (m.remove hash).2.Roomy fingerprint := by
  unfold FixedPrehashedMap.remove
  simp only
  cases hfind : m.probeLoop (fixedMapFingerprint hash) (m.window (fixedMapFingerprint hash)) with
  | none => exact h
  | some r =>
    obtain ⟨-, hlive, -⟩ := probeLoop_some hfind
    have hpos : 0 < m.slots.length := Nat.zero_lt_of_lt hlive.lt
    have hhome := m.home_lt hpos fingerprint
    show ((m.set r { m.slot r with value := deletedValue }).compactDeleted r).Roomy fingerprint
    rw [compactDeleted]
    generalize hdeleted : m.set r { m.slot r with value := deletedValue } = deleted
    have hlength : deleted.slots.length = m.slots.length := by rw [← hdeleted, length_set]
    have hhomes : ∀ f, deleted.home f = m.home f := fun f => by rw [← hdeleted, home_set]
    have hliveAt : ∀ i, deleted.LiveAt i ↔ i ≠ r ∧ m.LiveAt i := by
      intro i
      rw [← hdeleted, liveAt_delete hlive]
    have hslot : ∀ i, i ≠ r → deleted.slot i = m.slot i := by
      intro i hi
      rw [← hdeleted, slot_set hlive.lt, if_neg hi]
    have hr : r < deleted.slots.length := hlength ▸ hlive.lt
    have hfree : ¬ deleted.LiveAt r := fun hr => ((hliveAt r).1 hr).1 rfl
    obtain ⟨hretreats, hfill⟩ := retreats_compactLoop
      (min (deleted.slots.length - 1) maxFixedMapProbes) hr
      (nextProbeIndex_lt hr) hfree
    have hwindow : ∀ m' : FixedPrehashedMap, m'.slots.length = m.slots.length →
        m'.window fingerprint = m.window fingerprint := by
      intro m' hm'
      rw [window, window, home, home, hm']
    have hlength' := hretreats.length.trans hlength
    obtain ⟨p, hp, hunused⟩ | ⟨q, hq, ⟨hlive', hfp⟩, p, hp, hle, hpasses⟩ := h
    · refine .inl ⟨p, by rwa [hwindow _ hlength'], fun hp' => ?_⟩
      rcases hfill p hp' with hp' | rfl
      · exact hunused ((hliveAt p).1 hp').2
      · exact hunused hlive
    obtain ⟨hplt, hpnear⟩ := (mem_window hpos).1 hp
    have hpasses' : ∀ i, ¬ deleted.Passes p i := by
      rintro i ⟨hi, hlt⟩
      obtain ⟨hne, hi⟩ := (hliveAt i).1 hi
      rw [hhomes, hlength, hslot i hne] at hlt
      exact hpasses i hi.lt ⟨hi, hlt⟩
    by_cases hqr : q = r
    · -- the entry of the fingerprint goes
      subst hqr
      obtain ⟨x, hx, hxfree, hxle⟩ := exists_free_compactLoop
        (min (deleted.slots.length - 1) maxFixedMapProbes) (m.home fingerprint)
        (hlength.symm ▸ hhome) (hlength.symm ▸ hplt) hr (nextProbeIndex_lt hr) hfree
        (by rwa [hlength]) hpasses'
      rw [hlength] at hx hxle
      refine .inl ⟨x, ?_, hxfree⟩
      rw [hwindow _ hlength', mem_window hpos]
      exact ⟨hx, hxle.trans_lt hpnear⟩
    · -- it stays, or comes nearer to its home
      obtain ⟨q', hq', hslot', hle'⟩ := hretreats.remains q ((hliveAt q).2 ⟨hqr, hlive'⟩)
      rw [hslot q hqr, hhomes, hlength, hfp] at hle'
      refine .inr ⟨q', ?_, ⟨hq', ?_⟩, p, by rwa [hwindow _ hlength'], ?_, ?_⟩
      · rw [hwindow _ hlength', mem_window hpos]
        exact ⟨hlength' ▸ hq'.lt, (hle'.trans hle).trans_lt hpnear⟩
      · rw [hslot', hslot q hqr, hfp]
      · rw [hretreats.home_eq, hhomes, hlength']
        exact hle'.trans hle
      · intro i _ hi
        obtain ⟨j, hj⟩ := hretreats.passes hi
        exact hpasses' j hj

/-- An insertion finds the slot that lookups find. -/
lemma upsertLoop_of_probeLoop : ∀ {w : List ℕ} {i : ℕ} (deleted : Option ℕ),
    m.probeLoop fingerprint w = some i →
      m.upsertLoop fingerprint w deleted = some (i, some (m.slot i).value)
  | [], _, _, h => by cases h
  | index :: rest, i, deleted, h => by
    unfold probeLoop at h
    unfold upsertLoop
    simp only at h ⊢
    split_ifs at h with hempty hmatch
    · obtain rfl := Option.some.inj h
      rw [if_neg hempty, if_neg hmatch.1, if_pos hmatch.2]
    · rw [if_neg hempty]
      split_ifs with hdeleted hfp
      · exact upsertLoop_of_probeLoop _ h
      · exact absurd ⟨hdeleted, hfp⟩ hmatch
      · exact upsertLoop_of_probeLoop _ h

/-- The owner of an entry can be replaced, -/
lemma insert_of_get {hash : BitVec 64} {v : ℕ} (hget : m.get hash = some v) (value : ℕ) :
    ∃ i, m.LiveAt i ∧ (m.slot i).fingerprint = fixedMapFingerprint hash ∧
      m.insert hash value = some (some v, m.set i ⟨fixedMapFingerprint hash, value⟩) := by
  obtain ⟨i, hfind, rfl⟩ := Option.map_eq_some_iff.1 hget
  obtain ⟨-, hlive, hfp⟩ := probeLoop_some hfind
  refine ⟨i, hlive, hfp, ?_⟩
  rw [FixedPrehashedMap.insert, findUpsertSlot, upsertLoop_of_probeLoop none hfind]
  rfl

/-- which keeps room. -/
lemma Roomy.replace (h : m.Roomy fingerprint) (hlive : m.LiveAt i) (value : ℕ) :
    (m.set i ⟨(m.slot i).fingerprint, value⟩).Roomy fingerprint := by
  have hliveAt : ∀ j, (m.set i ⟨(m.slot i).fingerprint, value⟩).LiveAt j → m.LiveAt j := by
    intro j hj
    rw [LiveAt, slot_set hlive.lt] at hj
    split_ifs at hj with hji
    · exact hji ▸ hlive
    · exact hj
  have hfingerprint : ∀ j, ((m.set i ⟨(m.slot i).fingerprint, value⟩).slot j).fingerprint =
      (m.slot j).fingerprint := by
    intro j
    rw [slot_set hlive.lt]
    split_ifs with hji
    · rw [hji]
    · rfl
  obtain ⟨p, hp, hunused⟩ | ⟨q, hq, ⟨hlive', hfp⟩, p, hp, hle, hpasses⟩ := h
  · exact .inl ⟨p, by rwa [window_set], fun hp' => hunused (hliveAt p hp')⟩
  by_cases hq' : (m.set i ⟨(m.slot i).fingerprint, value⟩).LiveAt q
  · refine .inr ⟨q, by rwa [window_set], ⟨hq', ?_⟩, p, by rwa [window_set], ?_, ?_⟩
    · rw [hfingerprint, hfp]
    · rwa [home_set, length_set]
    · rintro j hj ⟨hlive'', hlt⟩
      rw [hfingerprint, home_set, length_set] at hlt
      exact hpasses j (by rwa [length_set] at hj) ⟨hliveAt j hlive'', hlt⟩
  · exact .inl ⟨q, by rwa [window_set], hq'⟩

end Room

end FixedPrehashedMap

/-! ## Operations keep room -/

/-- The directory keeps whatever room it has. -/
def RoomKept (st st' : ShardState) : Prop :=
  ∀ f, st.shard.directory.Roomy f → st'.shard.directory.Roomy f

instance : Std.Refl RoomKept := ⟨fun _ _ h => h⟩

instance : IsTrans ShardState RoomKept := ⟨fun _ _ _ h h' f hf => h' f (h f hf)⟩

namespace ShardM

variable {α : Type}

/-- The operation keeps room, and is not refused by the directory. -/
abbrev KeepsRoom (operation : ShardM α) : Prop := Moves operation RoomKept (· ≠ .directoryInsertion)

lemma roomKept_of_eq {st st' : ShardState} (h : st'.shard.directory = st.shard.directory) :
    RoomKept st st' := fun f hf => by rwa [h]

lemma keepsRoom_onHeap (f : MemoryHeap → α × MemoryHeap) : KeepsRoom (onHeap f) :=
  fun _ => roomKept_of_eq rfl

lemma keepsRoom_modifyHeap (f : MemoryHeap → MemoryHeap) : KeepsRoom (modifyHeap f) :=
  fun _ => roomKept_of_eq rfl

lemma keepsRoom_dropOption (value : Option ℕ) : KeepsRoom (dropOption value) :=
  keepsRoom_modifyHeap _

lemma keepsRoom_modifyShard {f : MemoryShard → MemoryShard}
    (h : ∀ s, (f s).directory = s.directory) : KeepsRoom (modifyShard f) :=
  fun _ => roomKept_of_eq (h _)

/-- Reading an entry changes nothing. -/
lemma expectEntry_ends (index : ℕ) (st : ShardState) :
    Ends (expectEntry index) st (fun _ st' => st' = st) fun panic _ => panic = .missingEntry := by
  unfold expectEntry
  refine Ends.bind_ok (get_apply st) ?_
  cases st.shard.entry index with
  | none => exact rfl
  | some e => exact rfl

lemma keepsRoom_expectEntry (index : ℕ) : KeepsRoom (expectEntry index) := fun st =>
  (expectEntry_ends index st).mono (fun _ _ h => roomKept_of_eq (by rw [h])) fun _ _ h => by
    simp [h]

lemma keepsRoom_disarmIf (transferCharge : Bool) (value : ℕ) :
    KeepsRoom (disarmIf transferCharge value) := by
  unfold disarmIf
  split_ifs
  · refine Moves.get.bind fun st => ?_
    cases st.heap.disarmExclusiveCharge value with
    | none => exact fun _ => (by decide : Panic.gainedOwner ≠ .directoryInsertion)
    | some heap => exact keepsRoom_modifyHeap _
  · exact Moves.pure ()

/-- The entry of a hash that the directory knows leaves its chain. -/
lemma unlinkFromChain_ends {st : ShardState} {hash : BitVec 64} {v : ℕ}
    (hget : st.shard.directory.get hash = some v) (entry : MemoryEntry) (predecessor : Option ℕ) :
    Ends (unlinkFromChain hash entry predecessor) st (fun _ st' => RoomKept st st')
      fun panic _ => panic ≠ .directoryInsertion := by
  cases predecessor with
  | some predecessor =>
    refine (keepsRoom_expectEntry predecessor).bind (fun before => ?_) st
    exact keepsRoom_modifyShard fun _ => rfl
  | none =>
    unfold unlinkFromChain
    split_ifs
    · exact fun f hf => hf.remove hash
    · obtain ⟨i, hlive, hfp, hinsert⟩ := FixedPrehashedMap.insert_of_get hget entry.hashNext
      have hupsert : directoryUpsert hash entry.hashNext st = .ok (some v) { st with shard :=
          { st.shard with directory :=
            st.shard.directory.set i ⟨fixedMapFingerprint hash, entry.hashNext⟩ } } := by
        rw [directoryUpsert, bind_ok (get_apply st), hinsert]
        rfl
      refine Ends.bind_ok hupsert (Ends.pure fun f hf => ?_)
      exact hfp ▸ hf.replace hlive entry.hashNext

/-- An entry is removed. -/
lemma keepsRoom_removeSlotAfterPolicy (index : ℕ) (hash : BitVec 64) (transferCharge : Bool) :
    KeepsRoom (removeSlotAfterPolicy index hash transferCharge) := by
  intro st
  unfold removeSlotAfterPolicy
  refine Ends.bind_ok (get_apply st) ?_
  simp only
  cases hget : st.shard.directory.get hash with
  | none => exact roomKept_of_eq rfl
  | some head =>
    rw [Option.bind_some]
    cases st.shard.predecessorLoop index maxSameHashEntries head none with
    | none => exact roomKept_of_eq rfl
    | some predecessor =>
      refine (((expectEntry_ends index st).mono (fun _ _ h => h) fun _ _ h => by simp [h]).bind) ?_
      rintro entry _ rfl
      refine (unlinkFromChain_ends hget entry predecessor).bind fun _ st₁ h₁ => ?_
      refine Ends.mono ?_ (fun _ _ => IsTrans.trans _ _ _ h₁) fun _ _ h => h
      refine (Moves.get.bind fun _ => (keepsRoom_disarmIf _ _).bind fun _ =>
        (keepsRoom_expectEntry _).bind fun _ => Moves.bind ?_ fun _ => Moves.pure _) st₁
      exact keepsRoom_modifyShard fun _ => rfl

lemma keepsRoom_takeSlot (index : ℕ) : KeepsRoom (takeSlot index) := by
  unfold takeSlot
  refine Moves.get.bind fun st => ?_
  dsimp only
  cases st.shard.entry index with
  | none => exact Moves.pure _
  | some e =>
    refine Moves.bind ?_ fun _ => keepsRoom_removeSlotAfterPolicy _ _ _
    exact keepsRoom_modifyShard fun _ => rfl

lemma keepsRoom_removeSlot (index : ℕ) : KeepsRoom (removeSlot index) :=
  (keepsRoom_takeSlot index).bind fun value => keepsRoom_dropOption value

lemma keepsRoom_detachForAdmission (index : ℕ) : KeepsRoom (detachForAdmission index) := by
  unfold detachForAdmission
  refine (keepsRoom_expectEntry index).bind fun _ => Moves.get.bind fun _ =>
    (keepsRoom_onHeap _).bind fun _ => Moves.get.bind fun _ => Moves.bind ?_ fun _ => Moves.pure _
  exact keepsRoom_modifyShard fun _ => rfl

lemma keepsRoom_restoreAll : ∀ ds : List DetachedAdmissionEntry, KeepsRoom (restoreAll ds)
  | [] => Moves.pure ()
  | _ :: rest => Moves.bind (keepsRoom_modifyShard fun _ => rfl) fun _ => keepsRoom_restoreAll rest

lemma keepsRoom_selectVictim (exclusive : Bool) (remaining : ℕ) :
    KeepsRoom (selectVictim exclusive remaining) := fun _ => roomKept_of_eq rfl

lemma keepsRoom_selectVictims (required replacementBytes : ℕ) :
    ∀ (room remaining : ℕ) (victims : List DetachedAdmissionEntry) (released : ℕ),
      KeepsRoom (selectVictims required replacementBytes room remaining victims released) := by
  intro room
  induction room with
  | zero =>
    intro remaining victims released
    unfold selectVictims
    refine (keepsRoom_onHeap _).bind fun _ => ?_
    split_ifs <;> exact Moves.pure _
  | succ room ih =>
    intro remaining victims released
    unfold selectVictims
    refine (keepsRoom_onHeap _).bind fun _ => ?_
    split_ifs
    · exact Moves.pure _
    refine (keepsRoom_selectVictim true remaining).bind fun selected => ?_
    obtain ⟨victim, remaining'⟩ := selected
    cases victim with
    | none => exact Moves.pure _
    | some candidate =>
      exact (keepsRoom_detachForAdmission candidate).bind fun d => ih _ _ _

lemma keepsRoom_commitDetached (detached : DetachedAdmissionEntry) (recordEviction : Bool) :
    KeepsRoom (commitDetached detached recordEviction) := by
  unfold commitDetached
  refine (keepsRoom_removeSlotAfterPolicy _ _ _).bind fun _ => Moves.bind ?_ fun _ => Moves.pure _
  refine keepsRoom_modifyShard fun s => ?_
  split_ifs <;> rfl

lemma keepsRoom_keepsRecycled (required : ℕ) : ∀ recycled : Option ℕ,
    KeepsRoom (keepsRecycled required recycled)
  | none => Moves.pure _
  | some id => by
    unfold keepsRecycled
    refine Moves.get.bind fun st => ?_
    split_ifs
    · exact Moves.pure _
    · exact keepsRoom_onHeap _

lemma keepsRoom_commitVictims (required : ℕ) :
    ∀ (victims : List DetachedAdmissionEntry) (recycled : Option ℕ),
      KeepsRoom (commitVictims required victims recycled)
  | [], _ => Moves.pure _
  | victim :: rest, recycled => by
    unfold commitVictims
    refine (keepsRoom_commitDetached victim true).bind fun value =>
      (keepsRoom_keepsRecycled required recycled).bind fun keeps => ?_
    split_ifs
    · exact (keepsRoom_dropOption _).bind fun _ => keepsRoom_commitVictims required rest _
    · exact (keepsRoom_dropOption _).bind fun _ => keepsRoom_commitVictims required rest _

lemma keepsRoom_chargeWithSlotEviction (charge : MemoryCharge) :
    KeepsRoom (chargeWithSlotEviction charge) := by
  unfold chargeWithSlotEviction
  refine (keepsRoom_selectVictim _ _).bind fun selected => ?_
  obtain ⟨victim, remaining⟩ := selected
  cases victim with
  | none => exact (keepsRoom_modifyHeap _).bind fun _ => Moves.pure _
  | some candidate =>
    exact (keepsRoom_detachForAdmission candidate).bind fun d =>
      (keepsRoom_commitDetached _ true).bind fun _ => Moves.pure _

lemma keepsRoom_chargeByTransfer (required : ℕ) (replacement : Option ℕ) :
    KeepsRoom (chargeByTransfer required replacement) := by
  have hrestore : ∀ d victims, KeepsRoom (restoreAdmission d victims >>= fun _ =>
      pure (ChargeResult.rejected 0)) := fun d victims =>
    (keepsRoom_restoreAll _).bind fun _ => Moves.pure _
  have hdetach : KeepsRoom (detachReplacement replacement) := by
    cases replacement with
    | none => exact Moves.pure _
    | some index => exact (keepsRoom_detachForAdmission index).bind fun _ => Moves.pure _
  have hcommit : ∀ d, KeepsRoom (commitReplacement d) := by
    intro d
    cases d with
    | none => exact Moves.pure _
    | some d => exact keepsRoom_commitDetached d false
  unfold chargeByTransfer
  refine hdetach.bind fun d => (keepsRoom_selectVictims _ _ _ _ _ _).bind fun selected =>
    (keepsRoom_onHeap _).bind fun _ => ?_
  split_ifs
  · exact hrestore d selected.1
  refine (keepsRoom_onHeap _).bind fun attempt => ?_
  cases attempt with
  | full => exact hrestore d selected.1
  | contended => exact hrestore d selected.1
  | charged charge =>
    exact (hcommit d).bind fun _ => (keepsRoom_commitVictims _ _ _).bind fun _ => Moves.pure _

/-- Making room for an entry keeps room in the directory. -/
lemma keepsRoom_chargeWithEviction (required : ℕ) (replacement : Option ℕ) :
    KeepsRoom (chargeWithEviction required replacement) := by
  unfold chargeWithEviction
  refine Moves.get.bind fun st => ?_
  split_ifs
  · exact Moves.pure _
  refine (keepsRoom_onHeap _).bind fun attempt => ?_
  cases attempt with
  | contended => exact Moves.pure _
  | full => exact keepsRoom_chargeByTransfer required replacement
  | charged charge =>
    simp only
    split_ifs
    · exact keepsRoom_chargeWithSlotEviction charge
    · cases replacement with
      | none => exact Moves.pure _
      | some index => exact (keepsRoom_takeSlot index).bind fun _ => Moves.pure _

/-! ## Admissions that find room -/

/-- The operation is not refused by the directory. -/
abbrev NotRefused (operation : ShardM α) (st : ShardState) : Prop :=
  Ends operation st (fun _ _ => True) fun panic _ => panic ≠ .directoryInsertion

lemma Moves.notRefused {operation : ShardM α} (h : KeepsRoom operation) (st : ShardState) :
    NotRefused operation st := (h st).mono (fun _ _ _ => trivial) fun _ _ h => h

/-- An insertion into a directory that has room for the hash is not refused. -/
lemma admitCharged_notRefused {st : ShardState} {hash : BitVec 64}
    (hroom : st.shard.directory.Roomy (fixedMapFingerprint hash)) (key value : List UInt8)
    (seqno : BitVec 64) (chargedBytes : ℕ) (charge : MemoryCharge) (evictions : ℕ)
    (recycled : Option ℕ) :
    NotRefused (admitCharged hash key value seqno chargedBytes charge evictions recycled) st := by
  unfold admitCharged
  refine Ends.bind_ok (get_apply st) ?_
  simp only
  split_ifs
  · exact Moves.notRefused ((keepsRoom_dropOption recycled).bind fun _ =>
      (keepsRoom_modifyHeap _).bind fun _ => Moves.pure _) st
  refine Ends.bind_ok (onHeap_apply _ _) ?_
  cases (st.heap.tryNew key value seqno charge recycled).1 with
  | none => exact trivial
  | some id =>
    refine Ends.bind_ok (get_apply _) ?_
    simp only
    cases hinsert : st.shard.directory.insert hash st.shard.freeHead with
    | none => exact absurd hinsert (hroom.insert_ne_none _)
    | some inserted => exact trivial

/-- The admission comes as far as the charge: no newer entry answers it, it is not too large, and
the preflight lets it pass. -/
def Charges (st : ShardState) (hash : BitVec 64) (key : List UInt8) (seqno : BitVec 64)
    (chargedBytes : ℕ) : Prop :=
  let existing := st.shard.find st.heap hash key
  ¬ (existing.bind (residentSeqno st)).any (seqno ≤ ·) ∧ chargedBytes ≤ maxL1EntryBytes ∧
    ¬ ((existing.isNone ∧ st.shard.hashChainIsFull hash) ∨ ¬ st.shard.directory.canUpsert hash) ∧
    chargedBytes ≤ st.heap.capacityBytes

instance (st : ShardState) (hash : BitVec 64) (key : List UInt8) (seqno : BitVec 64)
    (chargedBytes : ℕ) : Decidable (Charges st hash key seqno chargedBytes) :=
  inferInstanceAs (Decidable (_ ∧ _))

/-- **An admission that finds room when it is charged is not refused** by the directory
afterwards. -/
theorem insert_notRefused {st : ShardState} {hash : BitVec 64} {chargedBytes : ℕ}
    {replacement : Option ℕ}
    (hroom : ¬ ((replacement.isNone ∧ st.shard.hashChainIsFull hash) ∨
        ¬ st.shard.directory.canUpsert hash) → chargedBytes ≤ st.heap.capacityBytes →
      st.shard.directory.Roomy (fixedMapFingerprint hash))
    (key value : List UInt8) (seqno : BitVec 64) :
    NotRefused (insert hash key value seqno chargedBytes replacement) st := by
  unfold insert
  refine Ends.bind_ok (get_apply st) ?_
  simp only
  by_cases hbypass : (replacement.isNone ∧ st.shard.hashChainIsFull hash) ∨
      ¬ st.shard.directory.canUpsert hash
  · rw [if_pos hbypass]
    exact trivial
  rw [if_neg hbypass]
  by_cases hcapacity : st.heap.capacityBytes < chargedBytes
  · have hrejected : chargeWithEviction chargedBytes replacement st = .ok (.rejected 0) st := by
      rw [chargeWithEviction, bind_ok (get_apply st), if_pos hcapacity]
      rfl
    exact Ends.bind_ok hrejected trivial
  · refine (keepsRoom_chargeWithEviction chargedBytes replacement st).bind fun result st₁ h₁ => ?_
    cases result with
    | rejected evictions => exact trivial
    | charged charge evictions recycled =>
      exact admitCharged_notRefused
        (h₁ _ (hroom hbypass (Nat.le_of_not_lt hcapacity))) _ _ _ _ _ _ _

/-- A publication that finds room. -/
lemma publish_notRefused {st : ShardState} {hash : BitVec 64} {key : List UInt8}
    {seqno : BitVec 64} {chargedBytes : ℕ}
    (hroom : Charges st hash key seqno chargedBytes →
      st.shard.directory.Roomy (fixedMapFingerprint hash)) (value : List UInt8) :
    NotRefused (publish hash key value seqno chargedBytes) st := by
  unfold publish
  refine Ends.bind_ok (get_apply st) ?_
  simp only
  split_ifs with hnewer hlarge
  · exact trivial
  · refine Moves.notRefused (Moves.bind ?_ fun _ => Moves.pure _) st
    cases st.shard.find st.heap hash key with
    | none => exact Moves.pure _
    | some index => exact keepsRoom_removeSlot index
  · refine (insert_notRefused (fun hpass hfits => hroom ?_) _ _ _).bind fun _ _ _ => trivial
    exact ⟨hnewer, Nat.le_of_not_lt hlarge, hpass, hfits⟩

lemma keepsRoom_cloneEntry (index : ℕ) : KeepsRoom (cloneEntry index) :=
  (keepsRoom_expectEntry index).bind fun _ => (keepsRoom_modifyHeap _).bind fun _ => Moves.pure _

lemma keepsRoom_hit (index : ℕ) :
    KeepsRoom (recordHit index >>= fun _ => cloneEntry index >>= fun id => pure (some id)) :=
  Moves.bind (keepsRoom_modifyShard fun _ => rfl) fun _ =>
    (keepsRoom_cloneEntry index).bind fun _ => Moves.pure _

/-- A promotion that finds room. -/
lemma promote_notRefused {st : ShardState} {hash : BitVec 64} {key : List UInt8}
    {seqno : BitVec 64} {chargedBytes : ℕ}
    (hroom : Charges st hash key seqno chargedBytes →
      st.shard.directory.Roomy (fixedMapFingerprint hash)) (value : List UInt8)
    (hlarge : ¬ maxL1EntryBytes < chargedBytes) :
    NotRefused (promote hash key value seqno chargedBytes) st := by
  unfold promote
  refine Ends.bind_ok (get_apply st) ?_
  simp only
  cases hnewer : Option.filter (fun index => (residentSeqno st index).any (seqno ≤ ·))
      (st.shard.find st.heap hash key) with
  | some index => exact Moves.notRefused (keepsRoom_hit index) st
  | none =>
    have hstale : ¬ ((st.shard.find st.heap hash key).bind (residentSeqno st)).any (seqno ≤ ·) := by
      cases hfind : st.shard.find st.heap hash key with
      | none => simp
      | some index => simpa [hfind, Option.filter_eq_none_iff] using hnewer
    refine (insert_notRefused (fun hpass hfits => hroom ?_) _ _ _).bind fun result st₁ _ => ?_
    · exact ⟨hstale, Nat.le_of_not_lt hlarge, hpass, hfits⟩
    cases result.slot with
    | none => exact trivial
    | some index =>
      exact Moves.notRefused ((keepsRoom_cloneEntry index).bind fun _ => Moves.pure _) st₁

lemma delete_notRefused (hash : BitVec 64) (key : List UInt8) (seqno : BitVec 64)
    (st : ShardState) : NotRefused (delete hash key seqno) st := by
  unfold delete
  refine Ends.bind_ok (get_apply st) ?_
  cases st.shard.find st.heap hash key with
  | none => exact trivial
  | some index =>
    simp only
    split_ifs
    · exact trivial
    · exact Moves.notRefused ((keepsRoom_removeSlot index).bind fun _ => Moves.pure _) st

lemma lookup_notRefused (hash : BitVec 64) (key : List UInt8) (st : ShardState) :
    NotRefused (lookup hash key) st := by
  unfold lookup
  refine Ends.bind_ok (get_apply st) ?_
  cases st.shard.find st.heap hash key with
  | none => exact trivial
  | some index => exact Moves.notRefused (keepsRoom_hit index) st

end ShardM

/-! ## Runs -/

namespace MemoryStore

/-- The part of `FindsRoom` for a shard. -/
def ShardFindsRoom (m : MemoryStore) (access : Access) (hash : BitVec 64) (key value : List UInt8)
    (seqno : BitVec 64) : Prop :=
  ∀ chargedBytes ∈ memoryEntryBytes key value, ∀ lock ∈ m.shards[m.route hash]?,
    (lock.poisoned || access.contended) = false →
    ShardM.Charges { lock.state with heap := { lock.state.heap with turns := access.turns } } hash
      key seqno chargedBytes →
    lock.state.shard.directory.Roomy (fixedMapFingerprint hash)

instance (m : MemoryStore) (access : Access) (hash : BitVec 64) (key value : List UInt8)
    (seqno : BitVec 64) : Decidable (m.ShardFindsRoom access hash key value seqno) :=
  inferInstanceAs (Decidable (∀ chargedBytes ∈ memoryEntryBytes key value, _))

/-- If the admission comes as far as the charge, the directory of its shard has room. -/
def FindsRoom (m : MemoryStore) (access : Access) : MemoryRequest → Prop
  | .publish hash key value seqno => m.ShardFindsRoom access hash key value seqno
  | .promote _ hash key value seqno => m.ShardFindsRoom access hash key value seqno
  | .delete _ _ _ | .lookup _ _ | .callers _ _ => True

instance (m : MemoryStore) (access : Access) : ∀ request, Decidable (m.FindsRoom access request)
  | .publish hash key value seqno =>
    inferInstanceAs (Decidable (m.ShardFindsRoom access hash key value seqno))
  | .promote _ hash key value seqno =>
    inferInstanceAs (Decidable (m.ShardFindsRoom access hash key value seqno))
  | .delete _ _ _ | .lookup _ _ | .callers _ _ => inferInstanceAs (Decidable True)

/-- Every request of a run meets a condition on the store that it finds. -/
def AlongRun (P : MemoryStore → Access → MemoryRequest → Prop) (m : MemoryStore) :
    List (Access × MemoryRequest) → Prop
  | [] => True
  | (access, request) :: rest => P m access request ∧ AlongRun P (m.apply access request) rest

/-- Every admission of the run finds room. -/
def RoomyRun (m : MemoryStore) (requests : List (Access × MemoryRequest)) : Prop :=
  AlongRun FindsRoom m requests

/-- No request of the run meets a refusal of the directory, which the preflight rules out. -/
def Unrefused (m : MemoryStore) (requests : List (Access × MemoryRequest)) : Prop :=
  AlongRun (fun m access request => m.panicOf access request ≠ some .directoryInsertion) m requests

instance decidableAlongRun (P : MemoryStore → Access → MemoryRequest → Prop)
    [∀ m access request, Decidable (P m access request)] :
    ∀ (m : MemoryStore) (requests : List (Access × MemoryRequest)),
      Decidable (AlongRun P m requests)
  | _, [] => inferInstanceAs (Decidable True)
  | m, (access, request) :: rest =>
    have := decidableAlongRun P (m.apply access request) rest
    inferInstanceAs (Decidable (P m access request ∧ _))

instance (m : MemoryStore) (requests : List (Access × MemoryRequest)) :
    Decidable (m.RoomyRun requests) := decidableAlongRun _ m requests

instance (m : MemoryStore) (requests : List (Access × MemoryRequest)) :
    Decidable (m.Unrefused requests) := decidableAlongRun _ m requests

section

variable {m : MemoryStore} {access : Access} {P Q : MemoryStore → Access → MemoryRequest → Prop}

/-- What follows for every request follows along the run. -/
lemma AlongRun.mono (hPQ : ∀ m access request, P m access request → Q m access request) :
    ∀ {m : MemoryStore} {requests : List (Access × MemoryRequest)},
      AlongRun P m requests → AlongRun Q m requests
  | _, [], _ => trivial
  | _, _ :: _, h => ⟨hPQ _ _ _ h.1, h.2.mono hPQ⟩

/-- The last request of a run finds the store that the others leave. -/
lemma AlongRun.last : ∀ {m : MemoryStore} {requests : List (Access × MemoryRequest)}
    {request : MemoryRequest}, AlongRun P m (requests ++ [(access, request)]) →
      P (m.run requests) access request
  | _, [], _, h => h.1
  | m, (earlier, first) :: rest, request, h => by
    have hrest : AlongRun P (m.apply earlier first) (rest ++ [(access, request)]) := h.2
    have hlast := hrest.last
    exact hlast

/-- An operation that is not refused. -/
lemma panicIn_ne {α : Type} {shardId : ℕ} {operation : ShardM α}
    (h : ∀ lock ∈ m.shards[shardId]?, (lock.poisoned || access.contended) = false →
      ShardM.NotRefused operation
        { lock.state with heap := { lock.state.heap with turns := access.turns } }) :
    m.panicIn shardId access operation ≠ some .directoryInsertion := by
  unfold panicIn
  cases hlock : m.shards[shardId]? with
  | none => simp
  | some lock =>
    simp only
    split_ifs with hbusy
    · simp
    · have hend := h lock hlock (Bool.eq_false_iff.2 hbusy)
      unfold ShardM.NotRefused Ends at hend
      split
      · simp
      · next heq =>
        rw [heq] at hend
        simpa using hend

/-- **A request that finds room is not refused.** -/
theorem FindsRoom.panicOf_ne {request : MemoryRequest} (h : m.FindsRoom access request) :
    m.panicOf access request ≠ some .directoryInsertion := by
  cases request with
  | publish hash key value seqno =>
    rw [panicOf]
    split_ifs
    · simp
    cases hbytes : memoryEntryBytes key value with
    | none => simp
    | some chargedBytes =>
      exact panicIn_ne fun lock hlock hfree =>
        ShardM.publish_notRefused (by exact h chargedBytes hbytes lock hlock hfree) _
  | delete hash key seqno =>
    rw [panicOf]
    split_ifs
    · simp
    · exact panicIn_ne fun _ _ _ => ShardM.delete_notRefused _ _ _ _
  | lookup hash key =>
    rw [panicOf]
    split_ifs
    · simp
    · exact panicIn_ne fun _ _ _ => ShardM.lookup_notRefused _ _ _
  | promote token hash key value seqno =>
    rw [panicOf]
    split_ifs with htoken
    · simp
    · simp
    rw [not_not] at htoken
    cases hbytes : memoryEntryBytes key value with
    | none => simp
    | some chargedBytes =>
      rw [Option.bind_some]
      split_ifs with hlarge
      · simp
      · exact panicIn_ne fun lock hlock hfree => ShardM.promote_notRefused
          (by exact h chargedBytes hbytes lock (htoken ▸ hlock) hfree) _ hlarge
  | callers shardId actions => simp [panicOf]

/-- **In a run whose admissions find room, the preflight of the directory is sound**: no insertion
is refused after the replaced entry and the victims are gone. -/
theorem directoryInsertion_unreached (m : MemoryStore) (requests : List (Access × MemoryRequest))
    (h : m.RoomyRun requests) : m.Unrefused requests :=
  AlongRun.mono (fun _ _ _ hroom => FindsRoom.panicOf_ne hroom) h

end

end MemoryStore

/-! ## A run without room -/

/-- Hashes with homes `0`, but for the last, whose home is `1`, in a directory of 130 slots. -/
def crowdedHash (k : ℕ) : BitVec 64 :=
  let mixed : BitVec 32 := if k < 64 then BitVec.ofNat 32 k else 33038210#32
  (mixed * 340573321#32).setWidth 64 <<< 32

/-- Publications that fill a window and one slot beyond it. -/
def crowd : List (Access × MemoryRequest) :=
  (List.range 65).map fun k => (⟨false, []⟩, .publish (crowdedHash k) [] [] 1#64)

/-- A newer publication of the last hash of the window. -/
def crowdedPublication : Access × MemoryRequest :=
  (⟨false, []⟩, .publish (crowdedHash 63) [] [] 2#64)

/-- Without the entry beyond the window there is room: nothing moves in. With it there is none, but
a stale publication needs none. -/
theorem directoryInsertion_unreached_sample :
    MemoryStore.Unrefused ⟨[⟨⟨.new (4096 * 65) 65 .clock, .new (4096 * 65)⟩, false⟩], 65⟩
      (crowd.take 64 ++ crowdedPublication :: crowd.drop 64 ++
        [(⟨false, []⟩, .publish (crowdedHash 63) [] [] 1#64)]) :=
  MemoryStore.directoryInsertion_unreached _ _ (by decide +kernel)

/-- **The preflight is not sound**: an admission that replaces the last entry of a full window is
refused by the directory, for the entry beyond the window has moved in. -/
theorem crowded_directoryInsertion :
    ∃ m, MemoryStore.new (4096 * 65) 65 1 .clock = some m ∧
      (∀ lock ∈ (m.run crowd).shards, lock.poisoned = false ∧
        lock.state.shard.directory.canUpsert (crowdedHash 63) = true) ∧
      ¬ m.Unrefused (crowd ++ [crowdedPublication]) := by
  refine ⟨_, rfl, by decide +kernel, fun h => h.last ?_⟩
  decide +kernel

end Cache2
