import Cache2.Index.WarmImage

set_option relaxedAutoImplicit false
set_option autoImplicit false

/-!
# A delayed reinsertion never resurrects

A reclaim scan classifies a record at its old location, copies the record elsewhere and publishes
the copy later, with a conditional replacement that names the old location
(`region/index/mod.rs`). Between the two any operations may run, each with its partition's lock
held: insertions, deletions, evictions, other scans and other publications. So an interleaving is
a sequence of operations between the classification and the publication.

The comparison is on packed locations and for a token, which different keys may share and whose
bucket may have moved. It can only tell that the token is mapped to an equivalent location *now*.
That the mapping is still the scanned one also needs that no equivalent location is installed for
the token meanwhile: the Region of the old location is not allocated from while it is reclaimed.

## Main definitions

* `Cache2.KeepsAway` — no operation installs an equivalent location for the token.

## Main results

* `Cache2.runOps_holds` — what is mapped after a run was mapped before or has been installed.
* `Cache2.reinsertion_neverResurrects` — the publication of a delayed reinsertion, for every
  interleaving.
-/

namespace Cache2

open Loop TokenTable

section Reinsertion

variable {crc : List UInt8 → BitVec 32} {slotCount : ℕ} {ranges : List IndexPartitionRange}
  {idx : RegionIndex}

/-- No operation of the sequence installs, for the token, a location that is equivalent to
`old`. -/
def KeepsAway (idx : RegionIndex) (tok : Token) (old : PackedLocation) (ops : List IndexOp) :
    Prop :=
  ∀ op ∈ ops, ∀ hash e, op.installs = some (hash, e) → idx.token hash = tok →
    e.location.indexEquivalent old = false

/-- **Runs.** A sequence of operations succeeds, and an entry that is mapped afterwards was mapped
before or has been installed by one of them. -/
theorem runOps_holds (hr : canonicalIndexPartitionRanges slotCount = .ok ranges) :
    ∀ (ops : List IndexOp) {idx : RegionIndex}, IndexInv crc slotCount ranges idx →
      ∃ idx', runOps crc ops idx = .ok () idx' ∧ IndexInv crc slotCount ranges idx' ∧
        ∀ tok e, Holds idx'.cells tok e → Holds idx.cells tok e ∨
          ∃ op ∈ ops, ∃ hash e₀, op.installs = some (hash, e₀) ∧ tok = tokenOf ranges hash ∧
            e = e₀.quantize := by
  intro ops
  induction ops with
  | nil =>
    intro idx h
    exact ⟨idx, rfl, h, fun tok e he => .inl he⟩
  | cons op ops ih =>
    intro idx h
    obtain ⟨idx₁, hrun₁, h₁, hstep⟩ := op.run_inv hr h
    obtain ⟨idx₂, hrun₂, h₂, hrest⟩ := ih h₁
    refine ⟨idx₂, by rw [runOps, bind_ok hrun₁, hrun₂], h₂, fun tok e he => ?_⟩
    rcases hrest tok e he with hmid | ⟨o, ho, hinst⟩
    · rcases hstep tok e hmid with hold | hinst
      · exact .inl hold
      · exact .inr ⟨op, List.mem_cons_self, hinst⟩
    · exact .inr ⟨o, List.mem_cons_of_mem _ ho, hinst⟩

/-- A run of a sequence is a run of its first part and then of the rest. -/
lemma runOps_append (ops₁ ops₂ : List IndexOp) {idx idxm : RegionIndex}
    (h : runOps crc ops₁ idx = .ok () idxm) :
    runOps crc (ops₁ ++ ops₂) idx = runOps crc ops₂ idxm := by
  induction ops₁ generalizing idx with
  | nil =>
    cases h
    rfl
  | cons op ops ih =>
    obtain ⟨_, idx₁, hop, hrest⟩ := bind_eq_ok.1 h
    rw [List.cons_append, runOps, bind_ok hop, ih hrest]

/-- A mapping that matches after a run has matched before it, when the run keeps away from the
location. -/
lemma matchesAt_of_runOps (hr : canonicalIndexPartitionRanges slotCount = .ok ranges)
    (h : IndexInv crc slotCount ranges idx) {ops : List IndexOp} {idx' : RegionIndex}
    (hrun : runOps crc ops idx = .ok () idx') {tok : Token} {old : PackedLocation}
    (haway : KeepsAway idx tok old ops) (hmatch : MatchesAt idx'.cells tok (some old)) :
    MatchesAt idx.cells tok (some old) := by
  obtain ⟨idx₁, hrun₁, -, hholds⟩ := runOps_holds hr ops h
  rw [hrun] at hrun₁
  cases hrun₁
  obtain ⟨e, he, hl⟩ := hmatch
  rcases hholds tok e he with hold | ⟨op, hop, hash, e₀, hinst, rfl, rfl⟩
  · exact ⟨e, hold, hl⟩
  · -- it would have been installed, at an equivalent location
    have htoken : idx.token hash = tokenOf ranges hash := by
      rw [RegionIndex.token, h.repr.ranges_eq]
    have hfalse := haway op hop hash e₀ hinst htoken
    have hequiv := hl old rfl
    rw [IndexEntry.quantize, PackedLocation.indexEquivalent_iff_quantize,
      PackedLocation.quantize_quantize, ← PackedLocation.indexEquivalent_iff_quantize, hfalse]
      at hequiv
    cases hequiv

/-- **A delayed reinsertion never resurrects.** From every reachable index, for every hash and
old location:

* classification leaves the index alone when the token is not mapped to the old location, and so
  does a conditional removal;
* whatever operations run after the classification, in whatever order, the publication installs
  the new location only if the token is mapped to the old location at that moment; it then changes
  this mapping alone. Otherwise all mappings stay as the newer operations left them;
* if none of these operations installs an equivalent location for the token, the publication takes
  effect only if the token has been mapped to the old location all along: once another insertion,
  a deletion or an eviction has come between, it does nothing. -/
theorem reinsertion_neverResurrects (h : IndexReachable crc slotCount idx) (hash : Hash)
    (old : PackedLocation) :
    (∃ removed idx', RegionIndex.removeIfMatch crc hash old idx = .ok removed idx' ∧
      (¬ MatchesAt idx.cells (idx.token hash) (some old) →
        removed = false ∧ idx'.cells = idx.cells ∧ idx'.heat = idx.heat)) ∧
    ∃ action idx₁, RegionIndex.prepareReclaim crc hash old idx = .ok action idx₁ ∧
      (¬ MatchesAt idx.cells (idx.token hash) (some old) →
        action = .missing ∧ idx₁.cells = idx.cells ∧ idx₁.heat = idx.heat) ∧
      ∀ (ops : List IndexOp) (replacement : IndexEntry), ∃ idx₂ replaced idx₃,
        runOps crc ops idx₁ = .ok () idx₂ ∧
        RegionIndex.replaceIfMatch crc hash old replacement idx₂ = .ok replaced idx₃ ∧
        (replaced = true → MatchesAt idx₂.cells (idx.token hash) (some old) ∧
          InsertEffect idx₂.cells idx₃.cells (idx.token hash) replacement.quantize none) ∧
        (replaced = false → ¬ MatchesAt idx₂.cells (idx.token hash) (some old) ∧
          idx₃.cells = idx₂.cells ∧ idx₃.heat = idx₂.heat) ∧
        (KeepsAway idx (idx.token hash) old ops → replaced = true →
          ∀ ops₁ ops₂ idxm, ops = ops₁ ++ ops₂ → runOps crc ops₁ idx₁ = .ok () idxm →
            MatchesAt idxm.cells (idx.token hash) (some old)) := by
  obtain ⟨ranges, hr, hinv⟩ := h.inv
  have htoken : ∀ {idx' : RegionIndex}, IndexInv crc slotCount ranges idx' → ∀ hash,
      idx'.token hash = idx.token hash := by
    intro idx' h' hash
    rw [RegionIndex.token, RegionIndex.token, h'.repr.ranges_eq, hinv.repr.ranges_eq]
  constructor
  · obtain ⟨removed, idx', hrun, -, ⟨-, c, e, hfound, -⟩ | ⟨hfalse, -, hsame⟩⟩ :=
      removeMatching_cells hr hinv hash (some old)
    · exact ⟨removed, idx', hrun, fun hno => absurd hfound.matchesAt hno⟩
    · exact ⟨removed, idx', hrun, fun _ => ⟨hfalse, hsame⟩⟩
  · obtain ⟨action, idx₁, hrun₁, h₁, hact⟩ := prepareReclaim_cells hr hinv hash old
    refine ⟨action, idx₁, hrun₁, fun hno => ?_, fun ops replacement => ?_⟩
    · rcases hact with ⟨c, e, hfound, -⟩ | ⟨hmissing, -, hsame⟩
      · exact absurd hfound.matchesAt hno
      · exact ⟨hmissing, hsame⟩
    · obtain ⟨idx₂, hrun₂, h₂, -⟩ := runOps_holds hr ops h₁
      obtain ⟨replaced, idx₃, hrun₃, h₃, hrep⟩ := replaceIfMatch_cells hr h₂ hash old replacement
      obtain ⟨_, _, hrun₃', -, -, heff, -⟩ := replaceIfMatch_effect hr h₂ hash old replacement
      rw [hrun₃] at hrun₃'
      cases hrun₃'
      rw [htoken h₂] at hrep heff
      refine ⟨idx₂, replaced, idx₃, hrun₂, hrun₃, fun htrue => ⟨?_, heff htrue⟩, fun hfalse => ?_,
        fun haway htrue ops₁ ops₂ idxm hops hrunm => ?_⟩
      · rcases hrep with ⟨-, c, e, hfound, -⟩ | ⟨hno, -⟩
        · exact hfound.matchesAt
        · rw [htrue] at hno
          cases hno
      · rcases hrep with ⟨hyes, -⟩ | ⟨-, hmiss, hsame⟩
        · rw [hfalse] at hyes
          cases hyes
        · exact ⟨hmiss, hsame⟩
      · have hmatch : MatchesAt idx₂.cells (idx.token hash) (some old) := by
          rcases hrep with ⟨-, c, e, hfound, -⟩ | ⟨hno, -⟩
          · exact hfound.matchesAt
          · rw [htrue] at hno
            cases hno
        obtain ⟨idxm', hrunm', hm, -⟩ := runOps_holds hr ops₁ h₁
        rw [hrunm] at hrunm'
        cases hrunm'
        rw [hops, runOps_append ops₁ ops₂ hrunm] at hrun₂
        refine matchesAt_of_runOps hr hm hrun₂ (fun op hop hash' e hinst htok => ?_) hmatch
        rw [htoken hm] at htok
        exact haway op (by rw [hops]; exact List.mem_append_right _ hop) hash' e hinst htok

/-- A record that is deleted between the scan and the publication stays deleted. -/
theorem reinsertion_neverResurrects_sample :
    ∃ storage idx action idx₁ idx₂ idx₃, PartitionedIndexStorage.anonymous 4 = .ok storage ∧
      (IndexOp.upsert 0 ⟨⟨0⟩⟩).run (fun _ => 0) (RegionIndex.fromStorage storage) = .ok () idx ∧
      RegionIndex.prepareReclaim (fun _ => 0) 0 ⟨0⟩ idx = .ok action idx₁ ∧
      runOps (fun _ => 0) [.tryDelete 0] idx₁ = .ok () idx₂ ∧
      ∃ replaced, RegionIndex.replaceIfMatch (fun _ => 0) 0 ⟨0⟩ ⟨⟨1⟩⟩ idx₂ = .ok replaced idx₃ ∧
        (replaced = true → MatchesAt idx₂.cells (idx.token 0) (some ⟨0⟩)) := by
  have hnew : PartitionedIndexStorage.anonymous 4 = .ok _ := rfl
  obtain ⟨ranges, hr, h₀, -⟩ := fromStorage_inv (fun _ => 0) hnew
  obtain ⟨idx, hrun, -, -⟩ := (IndexOp.upsert 0 ⟨⟨0⟩⟩).run_inv hr h₀
  obtain ⟨-, action, idx₁, hrun₁, -, hpub⟩ := reinsertion_neverResurrects
    ((IndexReachable.fresh hnew).op _ hrun) 0 ⟨0⟩
  obtain ⟨idx₂, replaced, idx₃, hrun₂, hrun₃, htrue, -⟩ := hpub [.tryDelete 0] ⟨⟨1⟩⟩
  exact ⟨_, idx, action, idx₁, idx₂, idx₃, hnew, hrun, hrun₁, hrun₂, replaced, hrun₃,
    fun h => (htrue h).1⟩

end Reinsertion

end Cache2
