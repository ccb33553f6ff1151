import Cache2.Memory.FixedMap

set_option relaxedAutoImplicit false
set_option autoImplicit false

/-!
# The fixed table is a bounded map

A `FixedPrehashedMap` stands for a finite map from fingerprints to owners that may refuse a new
fingerprint. This file states that map, with its operations, and shows that the table refines it
over every sequence of operations from a new table.

## Main definitions

* `Cache2.MapOp` — an operation on a table, and `Cache2.MapOp.apply` what it does to one.
* `Cache2.MapOp.Spec` — what the operation may do to a map.
* `Cache2.FixedPrehashedMap.contents` — the map that a table stands for.

## Main results

* `Cache2.FixedPrehashedMap.Valid.apply` — an operation keeps a table valid and is one on its map.
* `Cache2.FixedPrehashedMap.Valid.run` — and so is a sequence of operations.
* `Cache2.fixedPrehashedMap_boundedMap` — every table that operations lead to is a bounded finite
  map.
-/

namespace Cache2

/-! ## Operations -/

/-- An operation on a table. -/
inductive MapOp
  | insert (hash : BitVec 64) (value : ℕ)
  | remove (hash : BitVec 64)
  | get (hash : BitVec 64)
  deriving DecidableEq, Repr

/-- What an operation answers. -/
inductive MapAnswer
  | inserted (previous : Option ℕ)
  | refused
  | found (owner : Option ℕ)
  deriving DecidableEq, Repr

namespace MapOp

/-- The assertion of the operation: an insertion does not write a reserved value. -/
def Asserted : MapOp → Prop
  | .insert _ value => value < deletedValue
  | _ => True

/-- What an operation does to a table. -/
def apply (m : FixedPrehashedMap) : MapOp → MapAnswer × FixedPrehashedMap
  | .insert hash value =>
    match m.insert hash value with
    | some (previous, m') => (.inserted previous, m')
    | none => (.refused, m)
  | .remove hash => ((.found (m.remove hash).1), (m.remove hash).2)
  | .get hash => (.found (m.get hash), m)

/-- The answers to a sequence of operations, and the table after it. -/
def run : FixedPrehashedMap → List MapOp → List MapAnswer × FixedPrehashedMap
  | m, [] => ([], m)
  | m, op :: rest =>
    let (answer, next) := apply m op
    let (answers, last) := run next rest
    (answer :: answers, last)

/-- What an operation may do to a map: only an insertion of a new fingerprint may be refused, and
then the map stays as it is. -/
inductive Spec (f : BitVec 32 → Option ℕ) :
    MapOp → MapAnswer → (BitVec 32 → Option ℕ) → Prop
  | insert (hash : BitVec 64) (value : ℕ) :
    Spec f (.insert hash value) (.inserted (f (fixedMapFingerprint hash)))
      (Function.update f (fixedMapFingerprint hash) (some value))
  | refuse (hash : BitVec 64) (value : ℕ) (hnew : f (fixedMapFingerprint hash) = none) :
    Spec f (.insert hash value) .refused f
  | remove (hash : BitVec 64) :
    Spec f (.remove hash) (.found (f (fixedMapFingerprint hash)))
      (Function.update f (fixedMapFingerprint hash) none)
  | get (hash : BitVec 64) : Spec f (.get hash) (.found (f (fixedMapFingerprint hash))) f

/-- What a sequence of operations may do to a map. -/
inductive Specs : (BitVec 32 → Option ℕ) → List MapOp → List MapAnswer →
    (BitVec 32 → Option ℕ) → Prop
  | nil (f : BitVec 32 → Option ℕ) : Specs f [] [] f
  | cons {f g k : BitVec 32 → Option ℕ} {op : MapOp} {ops : List MapOp} {answer : MapAnswer}
    {answers : List MapAnswer} (hop : Spec f op answer g) (hrest : Specs g ops answers k) :
    Specs f (op :: ops) (answer :: answers) k

end MapOp

namespace FixedPrehashedMap

/-! ## The map of a table -/

/-- The owner of a fingerprint: that of the first slot that has it. -/
def contents (m : FixedPrehashedMap) (fingerprint : BitVec 32) : Option ℕ :=
  (m.slots.find? fun slot => slot.Live ∧ slot.fingerprint = fingerprint).map (·.value)

section Refinement

variable {m : FixedPrehashedMap}

/-- The owner of a fingerprint is what the table maps it to. -/
lemma Valid.contents_eq_some_iff (h : m.Valid) {fingerprint : BitVec 32} {value : ℕ} :
    m.contents fingerprint = some value ↔ m.Maps fingerprint value := by
  have hget : ∀ i (hi : i < m.slots.length), m.slot i = m.slots[i] := fun i hi => by
    rw [slot, List.getD_eq_getElem?_getD, List.getElem?_eq_getElem hi, Option.getD_some]
  rw [contents, Option.map_eq_some_iff]
  constructor
  · rintro ⟨slot, hfind, rfl⟩
    have hkey := List.find?_some hfind
    obtain ⟨i, hi, rfl⟩ := List.getElem_of_mem (List.mem_of_find?_eq_some hfind)
    simp only [Bool.decide_and, Bool.and_eq_true, decide_eq_true_eq] at hkey
    refine ⟨i, ?_, ?_⟩
    · rw [LiveAt, hget i hi]
      exact hkey.1
    · rw [hget i hi, ← hkey.2]
  · rintro ⟨i, hlive, hslot⟩
    have hi := hlive.lt
    cases hfind : m.slots.find? fun slot => slot.Live ∧ slot.fingerprint = fingerprint with
    | none =>
      have := List.find?_eq_none.1 hfind m.slots[i] (List.getElem_mem hi)
      rw [← hget i hi] at this
      simp only [Bool.decide_and, Bool.and_eq_true, decide_eq_true_eq, not_and] at this
      exact absurd (by rw [hslot]) (this hlive)
    | some slot =>
      have hkey := List.find?_some hfind
      obtain ⟨j, hj, rfl⟩ := List.getElem_of_mem (List.mem_of_find?_eq_some hfind)
      simp only [Bool.decide_and, Bool.and_eq_true, decide_eq_true_eq] at hkey
      have hij := h.unique i j hlive (by rw [LiveAt, hget j hj]; exact hkey.1)
        (by rw [hslot, hget j hj, hkey.2])
      subst hij
      exact ⟨_, rfl, by rw [← hget i hi, hslot]⟩

/-- A lookup is one in the map. -/
lemma Valid.get_eq_contents (h : m.Valid) (hash : BitVec 64) :
    m.get hash = m.contents (fixedMapFingerprint hash) :=
  Option.ext fun _ => h.get_eq_some_iff.trans h.contents_eq_some_iff.symm

/-- **One operation.** It keeps the table valid and of its length, and it is one on its map. -/
theorem Valid.apply (h : m.Valid) {op : MapOp} (hop : op.Asserted) :
    (op.apply m).2.Valid ∧ (op.apply m).2.slots.length = m.slots.length ∧
      MapOp.Spec m.contents op (op.apply m).1 (op.apply m).2.contents := by
  cases op with
  | insert hash value =>
    cases hins : m.insert hash value with
    | none =>
      have happly : (MapOp.insert hash value).apply m = (.refused, m) := by
        rw [MapOp.apply, hins]
      rw [happly]
      refine ⟨h, rfl, .refuse hash value ?_⟩
      rw [Option.eq_none_iff_forall_ne_some]
      intro v hv
      exact h.insert_ne_none (h.contents_eq_some_iff.1 hv) value hins
    | some answer =>
      obtain ⟨previous, m'⟩ := answer
      obtain ⟨hvalid, hlen, hprev, hmaps⟩ := h.insert hop hins
      have happly : (MapOp.insert hash value).apply m = (.inserted previous, m') := by
        rw [MapOp.apply, hins]
      rw [happly, hprev, h.get_eq_contents]
      refine ⟨hvalid, hlen, ?_⟩
      have hcontents : m'.contents =
          Function.update m.contents (fixedMapFingerprint hash) (some value) := by
        funext f
        refine Option.ext fun w => ?_
        rw [hvalid.contents_eq_some_iff, hmaps, Function.update_apply]
        split_ifs
        · rw [Option.some.injEq, eq_comm]
        · exact h.contents_eq_some_iff.symm
      rw [hcontents]
      exact .insert hash value
  | remove hash =>
    obtain ⟨hvalid, hlen, hremoved, hmaps, -⟩ := h.remove
      (show m.remove hash = ((m.remove hash).1, (m.remove hash).2) from rfl)
    rw [MapOp.apply, hremoved, h.get_eq_contents]
    refine ⟨hvalid, hlen, ?_⟩
    have hcontents : (m.remove hash).2.contents =
        Function.update m.contents (fixedMapFingerprint hash) none := by
      funext f
      refine Option.ext fun w => ?_
      rw [hvalid.contents_eq_some_iff, hmaps, Function.update_apply]
      split_ifs with hf
      · simp [hf]
      · exact (and_iff_right hf).trans h.contents_eq_some_iff.symm
    rw [hcontents]
    exact .remove hash
  | get hash =>
    rw [MapOp.apply, h.get_eq_contents]
    exact ⟨h, rfl, .get hash⟩

/-- **A sequence of operations.** -/
theorem Valid.run : ∀ {ops : List MapOp} {m : FixedPrehashedMap}, m.Valid →
    (∀ op ∈ ops, op.Asserted) →
    (MapOp.run m ops).2.Valid ∧ (MapOp.run m ops).2.slots.length = m.slots.length ∧
      MapOp.Specs m.contents ops (MapOp.run m ops).1 (MapOp.run m ops).2.contents
  | [], _, h, _ => ⟨h, rfl, .nil _⟩
  | op :: rest, _, h, hops => by
    obtain ⟨hvalid, hlen, hspec⟩ := h.apply (hops op List.mem_cons_self)
    obtain ⟨hvalid', hlen', hspecs⟩ := hvalid.run fun o ho => hops o (List.mem_cons_of_mem _ ho)
    exact ⟨hvalid', hlen'.trans hlen, .cons hspec hspecs⟩

/-- A new table has nothing. -/
lemma contents_tryNew (maximumEntries : ℕ) : (tryNew maximumEntries).contents = fun _ => none := by
  obtain ⟨hvalid, hnone⟩ := valid_tryNew maximumEntries
  funext f
  rw [Option.eq_none_iff_forall_ne_some]
  exact fun v hv => hnone f v (hvalid.contents_eq_some_iff.1 hv)

end Refinement

end FixedPrehashedMap

/-- **Bounded finite maps.** Let operations with any hashes lead from a new table of any capacity to
a table `m`. The answers are those of a finite map that may refuse new fingerprints, and `m` stands
for that map: every fingerprint that is stored occurs in one slot, at a distance from its home below
the limit and with no empty slot before it, and it is found there; a removal, with its compaction,
leaves all other entries with their owners; and an insertion is refused only if the fingerprint is
new and every slot of its window has another entry. -/
theorem fixedPrehashedMap_boundedMap (maximumEntries : ℕ) (ops : List MapOp)
    (hops : ∀ op ∈ ops, op.Asserted) :
    let m := (MapOp.run (FixedPrehashedMap.tryNew maximumEntries) ops).2
    m.slots.length = maximumEntries * 2 ∧
    MapOp.Specs (fun _ => none) ops
      (MapOp.run (FixedPrehashedMap.tryNew maximumEntries) ops).1 m.contents ∧
    (∀ i j, m.LiveAt i → m.LiveAt j → (m.slot i).fingerprint = (m.slot j).fingerprint → i = j) ∧
    (∀ i, m.LiveAt i →
      probeDistance (m.home (m.slot i).fingerprint) i m.slots.length < maxFixedMapProbes ∧
      (∀ step < probeDistance (m.home (m.slot i).fingerprint) i m.slots.length,
        (m.slot (probeIndex (m.home (m.slot i).fingerprint) step m.slots.length)).value ≠
          emptyValue) ∧
      ∀ hash, fixedMapFingerprint hash = (m.slot i).fingerprint →
        m.get hash = some (m.slot i).value) ∧
    (∀ hash other, (m.remove hash).1 = m.get hash ∧
      (m.remove hash).2.get other =
        if fixedMapFingerprint other = fixedMapFingerprint hash then none else m.get other) ∧
    ∀ hash value, m.insert hash value = none → m.get hash = none ∧
      ∀ i ∈ m.window (fixedMapFingerprint hash),
        m.LiveAt i ∧ (m.slot i).fingerprint ≠ fixedMapFingerprint hash := by
  intro m
  obtain ⟨hnew, -⟩ := FixedPrehashedMap.valid_tryNew maximumEntries
  obtain ⟨hvalid, hlen, hspecs⟩ := hnew.run hops
  rw [FixedPrehashedMap.contents_tryNew] at hspecs
  have h : m.Valid := hvalid
  refine ⟨hlen.trans (by simp [FixedPrehashedMap.tryNew]), hspecs, h.unique,
    fun i hi => ⟨h.near i hi, ?_, ?_⟩, fun hash other => ?_,
    fun hash value hins => ⟨?_, FixedPrehashedMap.insert_eq_none_iff.1 hins⟩⟩
  · intro step hstep
    have hpos := (Nat.zero_le i).trans_lt hi.lt
    have hlt := hstep.trans (probeDistance_lt (FixedPrehashedMap.home_lt hpos _) hi.lt)
    refine h.reach i _ hi (probeIndex_lt (FixedPrehashedMap.home_lt hpos _) hlt) ?_
    rw [probeDistance_probeIndex (FixedPrehashedMap.home_lt hpos _) hlt]
    exact hstep
  · intro hash hfp
    exact h.get_eq_some_iff.2 ⟨i, hi, by rw [hfp]⟩
  · obtain ⟨hvalid', -, hremoved, hmaps, -⟩ := h.remove
      (show m.remove hash = ((m.remove hash).1, (m.remove hash).2) from rfl)
    refine ⟨hremoved, Option.ext fun w => ?_⟩
    rw [hvalid'.get_eq_some_iff, hmaps]
    split_ifs with hf
    · simp [hf]
    · exact (and_iff_right hf).trans h.get_eq_some_iff.symm
  · rw [Option.eq_none_iff_forall_ne_some]
    intro v hv
    exact h.insert_ne_none (h.get_eq_some_iff.1 hv) value hins

/-- A table of one entry refuses the third of three fingerprints. -/
theorem fixedPrehashedMap_boundedMap_sample :
    let ops : List MapOp := [.insert 1 5, .insert 2 6, .insert 3 7, .remove 1, .insert 3 7, .get 3]
    (MapOp.run (FixedPrehashedMap.tryNew 1) ops).1 =
        [.inserted none, .inserted none, .refused, .found (some 5), .inserted none,
          .found (some 7)] ∧
      MapOp.Specs (fun _ => none) ops (MapOp.run (FixedPrehashedMap.tryNew 1) ops).1
        (MapOp.run (FixedPrehashedMap.tryNew 1) ops).2.contents := by
  intro ops
  have hops : ∀ op ∈ ops, op.Asserted := by
    simp [ops, MapOp.Asserted, deletedValue]
  exact ⟨by decide +kernel, (fixedPrehashedMap_boundedMap 1 ops hops).2.1⟩

end Cache2
