import Cache2.Region.RecoveryImage

set_option relaxedAutoImplicit false
set_option autoImplicit false

/-!
# The barrier before a session

The state file has two slots. Recovery trusts the record with the greatest generation
(`region/recovery/mod.rs`, `latest_state`); before a session may change any data, both slots are
overwritten with `RUNNING` records (`prepare_running_barrier`), so that no page that is lost later
brings an old `CLEAN` record back. The pages found on disk may hold anything.

## Main definitions

* `Cache2.latestState` — the record that recovery trusts.
* `Cache2.selectStateForFence` — the record that the barrier starts from.
* `Cache2.prepareNextState`, `Cache2.prepareRunningBarrier` — the pages to write.
* `Cache2.Torn` — what a write that did not complete leaves.
* `Cache2.RunningBarrierWrite.Dominates` — what the barrier promises.

## Main results

* `Cache2.latestState_spec` — the selected record has the greatest generation of all.
* `Cache2.selectStateForFence_greatest` — so has the record the barrier starts from, also when
  recovery refuses to select one.
* `Cache2.runningBarrier_dominates` — the barrier, from arbitrary pages.
-/

namespace Cache2

variable {crc : List UInt8 → BitVec 32}

/-! ## Selection -/

/-- Slots of the state file. -/
def stateSlotCount : ℕ := 2

/-- The record of a page, if it has one. -/
def StateRecord.decode (crc : List UInt8 → BitVec 32) (page : List UInt8) : Option StateRecord :=
  match StateRecord.probe crc page with
  | .valid record => some record
  | _ => none

/-- Why no record is selected. -/
inductive StateSelectionError
  | conflictingGeneration (generation : BitVec 64)
  | unsupportedVersion (slot : ℕ) (version : BitVec 16)
  deriving DecidableEq, Repr

/-- One slot of the loop of `latest_state`. -/
def selectPage (crc : List UInt8 → BitVec 32) (slot : ℕ) (page : List UInt8)
    (selected : Option SelectedState) : Except StateSelectionError (Option SelectedState) :=
  match StateRecord.probe crc page with
  | .unsupported version => .error (.unsupportedVersion slot version)
  | .valid record =>
    match selected with
    | none => .ok (some ⟨UInt8.ofNat slot, record⟩)
    | some current =>
      if current.record.generation < record.generation then
        .ok (some ⟨UInt8.ofNat slot, record⟩)
      else if record.generation = current.record.generation then
        if record ≠ current.record then .error (.conflictingGeneration record.generation)
        else .ok (some current)
      else .ok (some current)
  | _ => .ok selected

/-- The loop of `latest_state` from a slot on. -/
def latestStateFrom (crc : List UInt8 → BitVec 32) :
    ℕ → List (List UInt8) → Option SelectedState →
      Except StateSelectionError (Option SelectedState)
  | _, [], selected => .ok selected
  | slot, page :: pages, selected =>
    match selectPage crc slot page selected with
    | .error error => .error error
    | .ok selected => latestStateFrom crc (slot + 1) pages selected

/-- Selects the valid record with the greatest generation. A record of another version, or two
different records of one generation, are refused. -/
def latestState (crc : List UInt8 → BitVec 32) (pages : List (List UInt8)) :
    Except StateSelectionError (Option SelectedState) :=
  latestStateFrom crc 0 pages none

/-- The order of `max_by_key` on generation and slot. -/
def SelectedState.KeyLe (a b : SelectedState) : Prop :=
  a.record.generation < b.record.generation ∨
    (a.record.generation = b.record.generation ∧ a.slot ≤ b.slot)

instance (a b : SelectedState) : Decidable (a.KeyLe b) := inferInstanceAs (Decidable (_ ∨ _))

/-- `Iterator::max_by_key`: the last of the states with the greatest key. -/
def maxByKey : List SelectedState → Option SelectedState → Option SelectedState
  | [], best => best
  | s :: rest, none => maxByKey rest (some s)
  | s :: rest, some best => maxByKey rest (some (if best.KeyLe s then s else best))

/-- The records of all slots that have one. -/
def decodedStates (crc : List UInt8 → BitVec 32) : ℕ → List (List UInt8) → List SelectedState
  | _, [] => []
  | slot, page :: pages =>
    match StateRecord.decode crc page with
    | some record => ⟨UInt8.ofNat slot, record⟩ :: decodedStates crc (slot + 1) pages
    | none => decodedStates crc (slot + 1) pages

/-- The record that the barrier starts from: the selected one or, when recovery refuses to select,
the decodable one with the greatest generation. -/
def selectStateForFence (crc : List UInt8 → BitVec 32) (pages : List (List UInt8)) :
    Option SelectedState :=
  match latestState crc pages with
  | .ok selected => selected
  | .error _ => maxByKey (decodedStates crc 0 pages) none

/-! ## Preparation -/

/-- A page to write and the record it holds. -/
structure StatePageWrite where
  slot : UInt8
  record : StateRecord
  page : List UInt8
  deriving DecidableEq, Repr

/-- The two writes of the barrier. -/
structure RunningBarrierWrite where
  first : StatePageWrite
  second : StatePageWrite
  deriving DecidableEq, Repr

/-- Why no page is prepared. -/
inductive PrepareStateError
  | generationExhausted
  | invalidSlot (slot : UInt8)
  | invalidStateRecord
  deriving DecidableEq, Repr

/-- The slot opposite the current one and the generation after the current one. -/
def nextSlot : Option SelectedState → Except PrepareStateError (UInt8 × BitVec 64)
  | none => .ok (0, 1)
  | some current =>
    if current.slot.toNat ≥ stateSlotCount then .error (.invalidSlot current.slot)
    else
      match Word.checkedAdd 64 current.record.generation.toNat 1 with
      | none => .error .generationExhausted
      | some generation => .ok (1 - current.slot, BitVec.ofNat 64 generation)

/-- Encodes the next state into the slot opposite the current one. -/
def prepareNextState (crc : List UInt8 → BitVec 32) (current : Option SelectedState)
    (state : SessionState) (binding : StateBinding) : Except PrepareStateError StatePageWrite :=
  match nextSlot current with
  | .error error => .error error
  | .ok (slot, generation) =>
    let record : StateRecord := ⟨generation, state, binding⟩
    match record.encode crc with
    | .error _ => .error .invalidStateRecord
    | .ok page => .ok ⟨slot, record, page⟩

/-- Prepares two `RUNNING` records, one for each slot. -/
def prepareRunningBarrier (crc : List UInt8 → BitVec 32) (current : Option SelectedState)
    (binding : StateBinding) : Except PrepareStateError RunningBarrierWrite :=
  match prepareNextState crc current .running binding with
  | .error error => .error error
  | .ok first =>
    match prepareNextState crc (some ⟨first.slot, first.record⟩) .running binding with
    | .error error => .error error
    | .ok second => .ok ⟨first, second⟩

/-- The barrier of an opening: it starts from the pages that are found. -/
def runningBarrier (crc : List UInt8 → BitVec 32) (pages : List (List UInt8))
    (binding : StateBinding) : Except PrepareStateError RunningBarrierWrite :=
  prepareRunningBarrier crc (selectStateForFence crc pages) binding

/-- The pages after a write. -/
def StatePageWrite.apply (write : StatePageWrite) (pages : List (List UInt8)) :
    List (List UInt8) :=
  pages.set write.slot.toNat write.page

/-- The pages after both writes of the barrier. -/
def RunningBarrierWrite.apply (barrier : RunningBarrierWrite) (pages : List (List UInt8)) :
    List (List UInt8) :=
  barrier.second.apply (barrier.first.apply pages)

/-! ## What is selected -/

/-- A page has a record exactly when its probe is valid. -/
lemma StateRecord.decode_eq_some {page : List UInt8} {record : StateRecord} :
    StateRecord.decode crc page = some record ↔ StateRecord.probe crc page = .valid record := by
  unfold StateRecord.decode
  cases StateRecord.probe crc page <;> simp

/-- A state that is at least as new as a record. -/
def SelectionCovers (selected : Option SelectedState) (record : StateRecord) : Prop :=
  ∃ s, selected = some s ∧ record.generation ≤ s.record.generation

/-- One slot: what was selected and what the slot holds are covered, and the selection is one of
the two. -/
lemma selectPage_spec {slot : ℕ} {page : List UInt8} {selected result : Option SelectedState}
    (h : selectPage crc slot page selected = .ok result) :
    (∀ s, selected = some s → SelectionCovers result s.record) ∧
      (∀ record, StateRecord.decode crc page = some record → SelectionCovers result record) ∧
      ∀ s, result = some s →
        selected = some s ∨
          (s.slot = UInt8.ofNat slot ∧ StateRecord.decode crc page = some s.record) := by
  -- a page without a record
  have hskip : StateRecord.decode crc page = none → result = selected →
      (∀ s, selected = some s → SelectionCovers result s.record) ∧
      (∀ record, StateRecord.decode crc page = some record → SelectionCovers result record) ∧
      ∀ s, result = some s →
        selected = some s ∨
          (s.slot = UInt8.ofNat slot ∧ StateRecord.decode crc page = some s.record) := by
    intro hnone heq
    subst heq
    refine ⟨fun s hs => ⟨s, hs, BitVec.le_refl _⟩, fun record hr => ?_, fun s hs => .inl hs⟩
    rw [hnone] at hr
    cases hr
  unfold selectPage at h
  cases hprobe : StateRecord.probe crc page with
  | valid record =>
    have hdecode := StateRecord.decode_eq_some.2 hprobe
    rw [hprobe] at h
    -- the page replaces the selection
    have htake : result = some ⟨UInt8.ofNat slot, record⟩ →
        (∀ s, selected = some s → s.record.generation ≤ record.generation) →
        (∀ s, selected = some s → SelectionCovers result s.record) ∧
        (∀ record, StateRecord.decode crc page = some record → SelectionCovers result record) ∧
        ∀ s, result = some s →
          selected = some s ∨
            (s.slot = UInt8.ofNat slot ∧ StateRecord.decode crc page = some s.record) := by
      rintro rfl hle
      refine ⟨fun s hs => ⟨_, rfl, hle s hs⟩, fun r hr => ?_, fun s hs => .inr ?_⟩
      · rw [hdecode, Option.some.injEq] at hr
        exact ⟨_, rfl, hr ▸ BitVec.le_refl _⟩
      · rw [← Option.some.inj hs]
        exact ⟨rfl, hdecode⟩
    cases selected with
    | none => exact htake (Except.ok.inj h).symm fun s hs => by cases hs
    | some current =>
      by_cases hlt : current.record.generation < record.generation
      · refine htake ?_ fun s hs => Option.some.inj hs ▸ BitVec.le_of_lt hlt
        simp only [if_pos hlt] at h
        exact (Except.ok.inj h).symm
      · -- the selection stays
        have hle : record.generation ≤ current.record.generation := BitVec.not_lt.1 hlt
        have hresult : result = some current := by
          simp only [if_neg hlt] at h
          split_ifs at h <;> exact (Except.ok.inj h).symm
        subst hresult
        refine ⟨fun s hs => ⟨s, hs, BitVec.le_refl _⟩, fun r hr => ⟨current, rfl, ?_⟩,
          fun s hs => .inl hs⟩
        rw [hdecode, Option.some.injEq] at hr
        exact hr ▸ hle
  | unsupported version =>
    rw [hprobe] at h
    cases h
  | _ =>
    rw [hprobe] at h
    refine hskip ?_ (Except.ok.inj h).symm
    unfold StateRecord.decode
    rw [hprobe]

/-- The loop of the selection: everything is covered, and what is selected is in a slot.

**Proof sketch.** Induction on the slots that are left. -/
lemma latestStateFrom_spec : ∀ {pages : List (List UInt8)} {slot : ℕ}
    {selected result : Option SelectedState},
    latestStateFrom crc slot pages selected = .ok result →
    (∀ s, selected = some s → SelectionCovers result s.record) ∧
      (∀ page ∈ pages, ∀ record, StateRecord.decode crc page = some record →
        SelectionCovers result record) ∧
      ∀ s, result = some s → selected = some s ∨
        ∃ i page, s.slot = UInt8.ofNat (slot + i) ∧ pages[i]? = some page ∧
          StateRecord.decode crc page = some s.record := by
  intro pages
  induction pages with
  | nil =>
    intro slot selected result h
    obtain rfl := Except.ok.inj h
    exact ⟨fun s hs => ⟨s, hs, BitVec.le_refl _⟩, fun page hp => absurd hp List.not_mem_nil,
      fun s hs => .inl hs⟩
  | cons page pages ih =>
    intro slot selected result h
    rw [latestStateFrom] at h
    cases hpage : selectPage crc slot page selected with
    | error e => rw [hpage] at h; cases h
    | ok next =>
      rw [hpage] at h
      obtain ⟨hold, hown, hfrom⟩ := selectPage_spec hpage
      obtain ⟨hkeep, hrest, hsource⟩ := ih h
      have hcover : ∀ {record}, SelectionCovers next record → SelectionCovers result record := by
        rintro record ⟨s, hs, hle⟩
        obtain ⟨s', hs', hle'⟩ := hkeep s hs
        exact ⟨s', hs', BitVec.le_trans hle hle'⟩
      refine ⟨fun s hs => hcover (hold s hs), ?_, ?_⟩
      · intro p hp record hr
        rcases List.mem_cons.1 hp with rfl | hp
        · exact hcover (hown record hr)
        · exact hrest p hp record hr
      · intro s hs
        rcases hsource s hs with hnext | ⟨i, p, hslot, hp, hr⟩
        · rcases hfrom s hnext with hsel | ⟨hslot, hr⟩
          · exact .inl hsel
          · exact .inr ⟨0, page, hslot, rfl, hr⟩
        · exact .inr ⟨i + 1, p, by rw [hslot, Nat.add_right_comm, Nat.add_assoc], hp, hr⟩

/-- **Selection.** The selected record is in a slot, and no decodable record is newer. -/
lemma latestState_spec {pages : List (List UInt8)} {result : Option SelectedState}
    (h : latestState crc pages = .ok result) :
    (∀ page ∈ pages, ∀ record, StateRecord.decode crc page = some record →
        SelectionCovers result record) ∧
      ∀ s, result = some s → ∃ i page, s.slot = UInt8.ofNat i ∧ pages[i]? = some page ∧
        StateRecord.decode crc page = some s.record := by
  obtain ⟨-, hcover, hsource⟩ := latestStateFrom_spec h
  refine ⟨hcover, fun s hs => ?_⟩
  rcases hsource s hs with hnone | ⟨i, page, hslot, hp, hr⟩
  · cases hnone
  · exact ⟨i, page, by rw [hslot, Nat.zero_add], hp, hr⟩

/-- The greatest of some states is one of them, and covers them all. -/
lemma maxByKey_spec : ∀ {states : List SelectedState} {best : Option SelectedState},
    (∀ s, best = some s → SelectionCovers (maxByKey states best) s.record) ∧
      (∀ s ∈ states, SelectionCovers (maxByKey states best) s.record) ∧
      ∀ s, maxByKey states best = some s → best = some s ∨ s ∈ states := by
  intro states
  induction states with
  | nil =>
    intro best
    exact ⟨fun s hs => ⟨s, hs, BitVec.le_refl _⟩, fun s hs => absurd hs List.not_mem_nil,
      fun s hs => .inl hs⟩
  | cons s rest ih =>
    intro best
    cases best with
    | none =>
      obtain ⟨hkeep, hrest, hsource⟩ := @ih (some s)
      refine ⟨fun t ht => (by cases ht), fun t ht => ?_, fun t ht => ?_⟩
      · rcases List.mem_cons.1 ht with rfl | ht
        · exact hkeep t rfl
        · exact hrest t ht
      · rcases hsource t ht with heq | hmem
        · exact .inr (Option.some.inj heq ▸ List.mem_cons_self)
        · exact .inr (List.mem_cons_of_mem _ hmem)
    | some best =>
      obtain ⟨hkeep, hrest, hsource⟩ := @ih (some (if best.KeyLe s then s else best))
      obtain ⟨top, htop, hle⟩ := hkeep _ rfl
      -- both the old best and the new state are covered by the better of the two
      have hboth : best.record.generation ≤ (if best.KeyLe s then s else best).record.generation ∧
          s.record.generation ≤ (if best.KeyLe s then s else best).record.generation := by
        by_cases hkey : best.KeyLe s
        · rw [if_pos hkey]
          refine ⟨?_, BitVec.le_refl _⟩
          rcases hkey with hlt | ⟨heq, -⟩
          · exact BitVec.le_of_lt hlt
          · exact heq ▸ BitVec.le_refl _
        · rw [if_neg hkey]
          exact ⟨BitVec.le_refl _, BitVec.not_lt.1 fun hlt => hkey (.inl hlt)⟩
      refine ⟨fun t ht => ?_, fun t ht => ?_, fun t ht => ?_⟩
      · obtain rfl := Option.some.inj ht
        exact ⟨top, htop, BitVec.le_trans hboth.1 hle⟩
      · rcases List.mem_cons.1 ht with rfl | ht
        · exact ⟨top, htop, BitVec.le_trans hboth.2 hle⟩
        · exact hrest t ht
      · rcases hsource t ht with heq | hmem
        · by_cases hkey : best.KeyLe s
          · rw [if_pos hkey] at heq
            exact .inr (Option.some.inj heq ▸ List.mem_cons_self)
          · rw [if_neg hkey] at heq
            exact .inl heq
        · exact .inr (List.mem_cons_of_mem _ hmem)

/-- The decoded states are the decodable pages with their slots. -/
lemma mem_decodedStates : ∀ {pages : List (List UInt8)} {slot : ℕ} {s : SelectedState},
    s ∈ decodedStates crc slot pages ↔
      ∃ i page, s.slot = UInt8.ofNat (slot + i) ∧ pages[i]? = some page ∧
      StateRecord.decode crc page = some s.record := by
  intro pages
  induction pages with
  | nil =>
    intro slot s
    simp [decodedStates]
  | cons page pages ih =>
    intro slot s
    -- the pages after the first
    have hrest : s ∈ decodedStates crc (slot + 1) pages ↔
        ∃ i p, s.slot = UInt8.ofNat (slot + (i + 1)) ∧ (page :: pages)[i + 1]? = some p ∧
          StateRecord.decode crc p = some s.record := by
      rw [ih]
      refine exists_congr fun i => exists_congr fun p => ?_
      rw [List.getElem?_cons_succ, Nat.add_right_comm slot 1 i, Nat.add_assoc slot i 1]
    rw [decodedStates]
    cases hdecode : StateRecord.decode crc page with
    | none =>
      dsimp only
      rw [hrest]
      refine ⟨fun ⟨i, p, hp⟩ => ⟨i + 1, p, hp⟩, ?_⟩
      rintro ⟨_ | i, p, hslot, hp, hr⟩
      · obtain rfl := Option.some.inj hp
        rw [hdecode] at hr
        cases hr
      · exact ⟨i, p, hslot, hp, hr⟩
    | some record =>
      dsimp only
      rw [List.mem_cons, hrest]
      constructor
      · rintro (rfl | ⟨i, p, hp⟩)
        · exact ⟨0, page, rfl, rfl, hdecode⟩
        · exact ⟨i + 1, p, hp⟩
      · rintro ⟨_ | i, p, hslot, hp, hr⟩
        · obtain rfl := Option.some.inj hp
          rw [hdecode, Option.some.injEq] at hr
          obtain ⟨slot', record'⟩ := s
          obtain rfl : slot' = UInt8.ofNat slot := hslot
          exact .inl (by rw [hr])
        · exact .inr ⟨i, p, hslot, hp, hr⟩

/-- **The start of the barrier.** It is in a slot, and no decodable record is newer. -/
lemma selectStateForFence_greatest (crc : List UInt8 → BitVec 32) (pages : List (List UInt8)) :
    (∀ page ∈ pages, ∀ record, StateRecord.decode crc page = some record →
        SelectionCovers (selectStateForFence crc pages) record) ∧
      ∀ s, selectStateForFence crc pages = some s → ∃ i page, s.slot = UInt8.ofNat i ∧
        pages[i]? = some page ∧ StateRecord.decode crc page = some s.record := by
  unfold selectStateForFence
  cases h : latestState crc pages with
  | ok selected => exact latestState_spec h
  | error e =>
    obtain ⟨-, hcover, hsource⟩ := @maxByKey_spec (decodedStates crc 0 pages) none
    refine ⟨fun page hpage record hr => ?_, fun s hs => ?_⟩
    · obtain ⟨i, hi⟩ := List.mem_iff_getElem?.1 hpage
      exact hcover ⟨UInt8.ofNat i, record⟩ (mem_decodedStates.2
        ⟨i, page, by rw [Nat.zero_add], hi, hr⟩)
    · rcases hsource s hs with hnone | hmem
      · cases hnone
      · obtain ⟨i, page, hslot, hp, hr⟩ := mem_decodedStates.1 hmem
        rw [Nat.zero_add] at hslot
        exact ⟨i, page, hslot, hp, hr⟩

/-! ## What is prepared -/

/-- A `RUNNING` record is encoded when its generation is not zero and its binding is valid. -/
lemma StateRecord.isValid_running {generation : BitVec 64} {binding : StateBinding}
    (hne : generation ≠ 0) :
    (⟨generation, .running, binding⟩ : StateRecord).isValid = binding.isValid := by
  have hne' : ¬ generation = 0#64 := hne
  simp [StateRecord.isValid, hne']

/-- The generation after the current one, when there is one. -/
lemma nextSlot_some {current : SelectedState} (hslot : current.slot.toNat < stateSlotCount)
    (hlt : current.record.generation.toNat + 1 < 2 ^ 64) :
    ∃ generation : BitVec 64, nextSlot (some current) = .ok (1 - current.slot, generation) ∧
      generation.toNat = current.record.generation.toNat + 1 ∧ generation ≠ 0 := by
  have hnat : (BitVec.ofNat 64 (current.record.generation.toNat + 1)).toNat =
      current.record.generation.toNat + 1 := by
    rw [BitVec.toNat_ofNat, Nat.mod_eq_of_lt hlt]
  refine ⟨BitVec.ofNat 64 (current.record.generation.toNat + 1), ?_, hnat, ?_⟩
  · unfold nextSlot
    dsimp only
    rw [if_neg (Nat.not_le.2 hslot), Word.checkedAdd_of_lt hlt]
  · intro heq
    rw [heq] at hnat
    exact absurd hnat (Nat.succ_ne_zero _).symm

/-- The last generation has no successor. -/
lemma nextSlot_exhausted {current : SelectedState} (hslot : current.slot.toNat < stateSlotCount)
    (hge : ¬ current.record.generation.toNat + 1 < 2 ^ 64) :
    nextSlot (some current) = .error .generationExhausted := by
  unfold nextSlot
  dsimp only
  rw [if_neg (Nat.not_le.2 hslot), Word.checkedAdd, if_neg hge]

/-- A prepared `RUNNING` page, once its slot and its generation are known: it is written exactly
when the binding is valid. -/
lemma prepareNextState_of_nextSlot {current : Option SelectedState} {slot : UInt8}
    {generation : BitVec 64} (hnext : nextSlot current = .ok (slot, generation))
    (hne : generation ≠ 0) (binding : StateBinding) :
    (binding.isValid = true → ∃ page,
      prepareNextState crc current .running binding =
          .ok ⟨slot, ⟨generation, .running, binding⟩, page⟩ ∧
        StateRecord.probe crc page = .valid ⟨generation, .running, binding⟩) ∧
      (binding.isValid = false →
        prepareNextState crc current .running binding = .error .invalidStateRecord) := by
  have hvalid := @StateRecord.isValid_running generation binding hne
  unfold prepareNextState
  rw [hnext]
  dsimp only
  refine ⟨fun htrue => ?_, fun hfalse => ?_⟩
  · have hencode : ∃ page, (⟨generation, .running, binding⟩ : StateRecord).encode crc = .ok page :=
      ⟨_, if_pos (hvalid.trans htrue)⟩
    obtain ⟨page, hpage⟩ := hencode
    rw [hpage]
    exact ⟨page, rfl, StateRecord.encode_eq_ok_iff.1 hpage⟩
  · have hencode : (⟨generation, .running, binding⟩ : StateRecord).encode crc =
        .error .stateRecord := if_neg (by rw [hvalid, hfalse]; exact Bool.false_ne_true)
    rw [hencode]

/-- The exhaustion of the generations: some decodable record has one of the last two. -/
def GenerationsExhausted (crc : List UInt8 → BitVec 32) (pages : List (List UInt8)) : Prop :=
  ∃ page ∈ pages, ∃ record, StateRecord.decode crc page = some record ∧
    2 ^ 64 - 2 ≤ record.generation.toNat

/-- The two prepared writes, as far as they matter: opposite slots, increasing generations, and
pages that are read as `RUNNING` records. -/
structure RunningBarrierWrite.Prepared (crc : List UInt8 → BitVec 32)
    (barrier : RunningBarrierWrite) : Prop where
  first_slot : barrier.first.slot.toNat < stateSlotCount
  second_slot : barrier.second.slot = 1 - barrier.first.slot
  ordered : barrier.first.record.generation.toNat < barrier.second.record.generation.toNat
  first_page : StateRecord.probe crc barrier.first.page = .valid barrier.first.record
  second_page : StateRecord.probe crc barrier.second.page = .valid barrier.second.record
  first_running : barrier.first.record.state = .running
  second_running : barrier.second.record.state = .running

/-- The second write, after a first one with a generation that has a successor. -/
lemma prepareRunningBarrier_of_first {current : Option SelectedState} {slot : UInt8}
    {generation : BitVec 64} (hnext : nextSlot current = .ok (slot, generation))
    (hne : generation ≠ 0) (hslot : slot.toNat < stateSlotCount) {binding : StateBinding}
    (hvalid : binding.isValid = true) :
    (generation.toNat + 1 < 2 ^ 64 →
      ∃ barrier, prepareRunningBarrier crc current binding = .ok barrier ∧
        barrier.Prepared crc ∧ barrier.first.record.generation = generation) ∧
      (¬ generation.toNat + 1 < 2 ^ 64 →
        prepareRunningBarrier crc current binding = .error .generationExhausted) := by
  obtain ⟨page, hfirst, hprobe⟩ := (@prepareNextState_of_nextSlot crc _ _ _ hnext hne binding).1
    hvalid
  unfold prepareRunningBarrier
  rw [hfirst]
  dsimp only
  refine ⟨fun hlt => ?_, fun hge => ?_⟩
  · obtain ⟨generation', hnext', hnat, hne'⟩ :=
      @nextSlot_some ⟨slot, ⟨generation, .running, binding⟩⟩ hslot hlt
    obtain ⟨page', hsecond, hprobe'⟩ :=
      (@prepareNextState_of_nextSlot crc _ _ _ hnext' hne' binding).1 hvalid
    rw [hsecond]
    refine ⟨_, rfl, ⟨hslot, rfl, ?_, hprobe, hprobe', rfl, rfl⟩, rfl⟩
    dsimp only at hnat ⊢
    omega
  · have hexhausted : prepareNextState crc (some ⟨slot, ⟨generation, .running, binding⟩⟩) .running
        binding = .error .generationExhausted := by
      unfold prepareNextState
      rw [nextSlot_exhausted hslot hge]
    rw [hexhausted]

/-- An invalid binding is refused, unless the generations are exhausted already. -/
lemma prepareRunningBarrier_invalid {current : Option SelectedState} {slot : UInt8}
    {generation : BitVec 64} (hnext : nextSlot current = .ok (slot, generation))
    (hne : generation ≠ 0) {binding : StateBinding} (hinvalid : binding.isValid = false) :
    prepareRunningBarrier crc current binding = .error .invalidStateRecord := by
  unfold prepareRunningBarrier
  rw [(@prepareNextState_of_nextSlot crc _ _ _ hnext hne binding).2 hinvalid]

/-- **What the barrier does**, by cases on the record it starts from. -/
lemma runningBarrier_cases (crc : List UInt8 → BitVec 32) (pages : List (List UInt8))
    (hpages : pages.length = stateSlotCount) (binding : StateBinding) :
    (∃ barrier, runningBarrier crc pages binding = .ok barrier ∧ barrier.Prepared crc ∧
        ¬ GenerationsExhausted crc pages ∧
        ∀ page ∈ pages, ∀ record, StateRecord.decode crc page = some record →
          record.generation.toNat < barrier.first.record.generation.toNat) ∨
      (runningBarrier crc pages binding = .error .generationExhausted ∧
        GenerationsExhausted crc pages) ∨
      (runningBarrier crc pages binding = .error .invalidStateRecord ∧
        binding.isValid = false) := by
  obtain ⟨hgreatest, hsource⟩ := selectStateForFence_greatest crc pages
  unfold runningBarrier
  cases hcurrent : selectStateForFence crc pages with
  | none =>
    -- no page has a record
    have hnone : ∀ page ∈ pages, ∀ record, StateRecord.decode crc page ≠ some record := by
      intro page hpage record hr
      obtain ⟨s, hs, -⟩ := hgreatest page hpage record hr
      rw [hcurrent] at hs
      cases hs
    have hnext : nextSlot none = .ok (0, 1) := rfl
    cases hvalid : binding.isValid with
    | false => exact .inr (.inr ⟨prepareRunningBarrier_invalid hnext (by decide) hvalid, rfl⟩)
    | true =>
      obtain ⟨barrier, hok, hprepared, -⟩ := (@prepareRunningBarrier_of_first crc _ _ _ hnext
        (by decide) (by decide) _ hvalid).1 (by decide)
      refine .inl ⟨barrier, hok, hprepared, ?_, fun page hpage record hr =>
        absurd hr (hnone page hpage record)⟩
      rintro ⟨page, hpage, record, hr, -⟩
      exact hnone page hpage record hr
  | some current =>
    obtain ⟨i, page₀, hi, hpage₀, hrecord₀⟩ := hsource current hcurrent
    have hmem := List.mem_of_getElem? hpage₀
    have hlt₀ : i < 2 := (List.getElem?_eq_some_iff.1 hpage₀).1.trans_eq hpages
    have hnext₀ : current.slot.toNat < stateSlotCount ∧ (1 - current.slot).toNat < 2 := by
      rw [hi]
      rcases (show i = 0 ∨ i = 1 by omega) with rfl | rfl <;> decide
    have hslot := hnext₀.1
    have hle : ∀ page ∈ pages, ∀ record, StateRecord.decode crc page = some record →
        record.generation.toNat ≤ current.record.generation.toNat := by
      intro page hpage record hr
      obtain ⟨s, hs, hle⟩ := hgreatest page hpage record hr
      rw [hcurrent, Option.some.injEq] at hs
      exact hs ▸ BitVec.le_def.1 hle
    by_cases hlt : current.record.generation.toNat + 1 < 2 ^ 64
    · obtain ⟨generation, hnext, hnat, hne⟩ := nextSlot_some hslot hlt
      cases hvalid : binding.isValid with
      | false => exact .inr (.inr ⟨prepareRunningBarrier_invalid hnext hne hvalid, rfl⟩)
      | true =>
        obtain ⟨hok, hexhausted⟩ := @prepareRunningBarrier_of_first crc _ _ _ hnext hne
          hnext₀.2 _ hvalid
        by_cases hlt' : generation.toNat + 1 < 2 ^ 64
        · obtain ⟨barrier, hbarrier, hprepared, hgeneration⟩ := hok hlt'
          refine .inl ⟨barrier, hbarrier, hprepared, ?_, fun page hpage record hr => ?_⟩
          · rintro ⟨page, hpage, record, hr, hge⟩
            have := hle page hpage record hr
            omega
          · have := hle page hpage record hr
            rw [hgeneration]
            omega
        · exact .inr (.inl ⟨hexhausted hlt', page₀, hmem, _, hrecord₀, by omega⟩)
    · refine .inr (.inl ⟨?_, page₀, hmem, _, hrecord₀, by omega⟩)
      unfold prepareRunningBarrier prepareNextState
      rw [nextSlot_exhausted hslot hlt]

/-! ## Dominance -/

/-- What a page holds after a write that did not complete, or that was damaged later: the checksum
lets nothing through that was not in the slot before or in the write. -/
def Torn (crc : List UInt8 → BitVec 32) (old new torn : List UInt8) : Prop :=
  ∀ record, StateRecord.decode crc torn = some record →
    StateRecord.decode crc old = some record ∨ StateRecord.decode crc new = some record

/-- **Dominance.** The records of a barrier are newer than every decodable record of the pages
found. With both in place the second is selected; with either slot torn, whatever is selected is a
`RUNNING` record, and the selection is never empty. -/
structure RunningBarrierWrite.Dominates (crc : List UInt8 → BitVec 32)
    (pages : List (List UInt8)) (barrier : RunningBarrierWrite) : Prop where
  newer : ∀ page ∈ pages, ∀ record, StateRecord.decode crc page = some record →
    record.generation.toNat < barrier.first.record.generation.toNat ∧
      record.generation.toNat < barrier.second.record.generation.toNat
  written : latestState crc (barrier.apply pages) =
    .ok (some ⟨barrier.second.slot, barrier.second.record⟩)
  running : barrier.first.record.state = .running ∧ barrier.second.record.state = .running
  torn : ∀ (slot : ℕ) (old new torn : List UInt8), pages[slot]? = some old →
    (barrier.apply pages)[slot]? = some new → Torn crc old new torn →
    ∀ selected, latestState crc ((barrier.apply pages).set slot torn) = .ok selected →
      ∃ s, selected = some s ∧ s.record.state = .running

namespace RunningBarrierWrite.Prepared

variable {barrier : RunningBarrierWrite} {page₀ page₁ : List UInt8}

/-- The first slot has the first page or the second one; the other slot has the other. -/
lemma apply_eq (h : barrier.Prepared crc) :
    (barrier.first.slot = 0 ∧ barrier.second.slot = 1 ∧
        barrier.apply [page₀, page₁] = [barrier.first.page, barrier.second.page]) ∨
      (barrier.first.slot = 1 ∧ barrier.second.slot = 0 ∧
        barrier.apply [page₀, page₁] = [barrier.second.page, barrier.first.page]) := by
  have hslot : barrier.first.slot.toNat < 2 := h.first_slot
  have hsecond := h.second_slot
  unfold RunningBarrierWrite.apply StatePageWrite.apply
  have hcases : barrier.first.slot = 0 ∨ barrier.first.slot = 1 := by
    rcases (show barrier.first.slot.toNat = 0 ∨ barrier.first.slot.toNat = 1 by omega) with h₀ | h₁
    · exact .inl (UInt8.toNat_inj.1 h₀)
    · exact .inr (UInt8.toNat_inj.1 h₁)
  rcases hcases with hzero | hone
  · rw [hzero] at hsecond ⊢
    rw [hsecond]
    exact .inl ⟨rfl, rfl, rfl⟩
  · rw [hone] at hsecond ⊢
    rw [hsecond]
    exact .inr ⟨rfl, rfl, rfl⟩

/-- With both pages in place the second is selected. -/
lemma latestState_apply (h : barrier.Prepared crc) :
    latestState crc (barrier.apply [page₀, page₁]) =
      .ok (some ⟨barrier.second.slot, barrier.second.record⟩) := by
  have hlt : barrier.first.record.generation < barrier.second.record.generation :=
    BitVec.lt_def.2 h.ordered
  have hnot : ¬ barrier.second.record.generation < barrier.first.record.generation :=
    BitVec.not_lt.2 (BitVec.le_of_lt hlt)
  have hne : ¬ barrier.first.record.generation = barrier.second.record.generation := fun heq =>
    absurd (heq ▸ hlt) (BitVec.lt_irrefl _)
  rcases @apply_eq crc barrier page₀ page₁ h with
    ⟨-, hsecond, happly⟩ | ⟨-, hsecond, happly⟩
  · rw [happly, hsecond]
    simp only [latestState, latestStateFrom, selectPage, h.first_page, h.second_page, if_pos hlt]
    rfl
  · rw [happly, hsecond]
    simp only [latestState, latestStateFrom, selectPage, h.first_page, h.second_page, if_neg hnot,
      if_neg hne]
    rfl

/-- A slot after both writes holds one of the two records. -/
lemma record_cases (h : barrier.Prepared crc) {slot : ℕ} {page : List UInt8}
    (hpage : (barrier.apply [page₀, page₁])[slot]? = some page) :
    slot < 2 ∧ (StateRecord.decode crc page = some barrier.first.record ∨
      StateRecord.decode crc page = some barrier.second.record) := by
  have hfirst := StateRecord.decode_eq_some.2 h.first_page
  have hsecond := StateRecord.decode_eq_some.2 h.second_page
  rcases @apply_eq crc barrier page₀ page₁ h with ⟨-, -, happly⟩ | ⟨-, -, happly⟩ <;>
    rw [happly] at hpage
  · rcases slot with _ | _ | slot
    · exact ⟨Nat.zero_lt_two, .inl (Option.some.inj hpage ▸ hfirst)⟩
    · exact ⟨Nat.one_lt_two, .inr (Option.some.inj hpage ▸ hsecond)⟩
    · cases hpage
  · rcases slot with _ | _ | slot
    · exact ⟨Nat.zero_lt_two, .inr (Option.some.inj hpage ▸ hsecond)⟩
    · exact ⟨Nat.one_lt_two, .inl (Option.some.inj hpage ▸ hfirst)⟩
    · cases hpage

/-- Both records are `RUNNING`, and not older than the first. -/
lemma of_record (h : barrier.Prepared crc) {page : List UInt8} {record : StateRecord}
    (hpage : StateRecord.decode crc page = some barrier.first.record ∨
      StateRecord.decode crc page = some barrier.second.record)
    (hrecord : StateRecord.decode crc page = some record) :
    record.state = .running ∧
      barrier.first.record.generation.toNat ≤ record.generation.toNat := by
  rw [hrecord, Option.some.injEq, Option.some.injEq] at hpage
  rcases hpage with rfl | rfl
  · exact ⟨h.first_running, le_rfl⟩
  · exact ⟨h.second_running, h.ordered.le⟩

/-- **A torn slot.** Whatever is selected then is a `RUNNING` record.

**Proof sketch.** The other slot holds a record of the barrier, so something at least as new is
selected. It is in the other slot, or the torn page is the new one; the torn page cannot be
selected for an old record, since all old records are older than the barrier. -/
lemma running_of_torn (h : barrier.Prepared crc)
    (hnewer : ∀ page ∈ [page₀, page₁], ∀ record, StateRecord.decode crc page = some record →
      record.generation.toNat < barrier.first.record.generation.toNat)
    {slot : ℕ} {old new torn : List UInt8} (hold : [page₀, page₁][slot]? = some old)
    (hnew : (barrier.apply [page₀, page₁])[slot]? = some new) (htorn : Torn crc old new torn)
    {selected : Option SelectedState}
    (hselected : latestState crc ((barrier.apply [page₀, page₁]).set slot torn) = .ok selected) :
    ∃ s, selected = some s ∧ s.record.state = .running := by
  obtain ⟨hcover, hsource⟩ := latestState_spec hselected
  obtain ⟨hslot, hnewrecord⟩ := h.record_cases hnew
  -- the slot that is not torn
  have hlength : (barrier.apply [page₀, page₁]).length = 2 := by
    simp [RunningBarrierWrite.apply, StatePageWrite.apply]
  obtain ⟨other, hother⟩ : ∃ other, (barrier.apply [page₀, page₁])[1 - slot]? = some other :=
    ⟨_, List.getElem?_eq_getElem (by omega)⟩
  obtain ⟨-, hotherrecord⟩ := h.record_cases hother
  obtain ⟨record, hrecord⟩ : ∃ record, StateRecord.decode crc other = some record :=
    hotherrecord.elim (fun h => ⟨_, h⟩) fun h => ⟨_, h⟩
  have hset : ((barrier.apply [page₀, page₁]).set slot torn)[1 - slot]? = some other := by
    rw [List.getElem?_set_ne (by omega)]
    exact hother
  obtain ⟨s, hs, hle⟩ := hcover other (List.mem_of_getElem? hset) record hrecord
  have hge := (h.of_record hotherrecord hrecord).2.trans (BitVec.le_def.1 hle)
  refine ⟨s, hs, ?_⟩
  -- where the selected record is
  obtain ⟨i, page, -, hpage, hdecode⟩ := hsource s hs
  by_cases hat : i = slot
  · rw [hat, List.getElem?_set_self (by omega)] at hpage
    obtain rfl := Option.some.inj hpage
    rcases htorn _ hdecode with hfrom | hfrom
    · have hlt := hnewer old (List.mem_of_getElem? hold) _ hfrom
      omega
    · exact (h.of_record hnewrecord hfrom).1
  · rw [List.getElem?_set_ne (Ne.symm hat)] at hpage
    exact (h.of_record (h.record_cases hpage).2 hdecode).1

/-- A prepared barrier that is newer than what was found dominates it. -/
lemma dominates (h : barrier.Prepared crc)
    (hnewer : ∀ page ∈ [page₀, page₁], ∀ record, StateRecord.decode crc page = some record →
      record.generation.toNat < barrier.first.record.generation.toNat) :
    barrier.Dominates crc [page₀, page₁] where
  newer page hpage record hr :=
    ⟨hnewer page hpage record hr, (hnewer page hpage record hr).trans h.ordered⟩
  written := h.latestState_apply
  running := ⟨h.first_running, h.second_running⟩
  torn _ _ _ _ hold hnew htorn _ hselected := h.running_of_torn hnewer hold hnew htorn hselected

end RunningBarrierWrite.Prepared

/-- **The barrier from arbitrary pages.** Whatever the two slots hold, a barrier that is prepared
dominates them. None is prepared when some decodable record has one of the last two generations:
no generation wraps, and with a binding that may be written the exhaustion is what is reported.
Otherwise only a binding that may not be written is refused. -/
theorem runningBarrier_dominates (crc : List UInt8 → BitVec 32) (page₀ page₁ : List UInt8)
    (binding : StateBinding) :
    (∀ barrier, runningBarrier crc [page₀, page₁] binding = .ok barrier →
        barrier.Dominates crc [page₀, page₁]) ∧
      (GenerationsExhausted crc [page₀, page₁] → binding.isValid = true →
        runningBarrier crc [page₀, page₁] binding = .error .generationExhausted) ∧
      ∀ e, runningBarrier crc [page₀, page₁] binding = .error e →
        (e = .generationExhausted ∧ GenerationsExhausted crc [page₀, page₁]) ∨
          (e = .invalidStateRecord ∧ binding.isValid = false) := by
  rcases runningBarrier_cases crc [page₀, page₁] rfl binding with
    ⟨barrier, hok, hprepared, hroom, hnewer⟩ | ⟨herror, hexhausted⟩ | ⟨herror, hinvalid⟩
  · refine ⟨fun b hb => ?_, fun hfull => absurd hfull hroom, fun e he => ?_⟩
    · rw [hok, Except.ok.injEq] at hb
      exact hb ▸ hprepared.dominates hnewer
    · rw [hok] at he
      cases he
  · refine ⟨fun b hb => ?_, fun _ _ => herror, fun e he => ?_⟩
    · rw [herror] at hb
      cases hb
    · rw [herror, Except.error.injEq] at he
      exact .inl ⟨he.symm, hexhausted⟩
  · refine ⟨fun b hb => ?_, fun _ hvalid => ?_, fun e he => ?_⟩
    · rw [herror] at hb
      cases hb
    · rw [hinvalid] at hvalid
      cases hvalid
    · rw [herror, Except.error.injEq] at he
      exact .inr ⟨he.symm, hinvalid⟩

/-- A page of zeroes and a `CLEAN` record with generation 5: the barrier is newer. -/
theorem runningBarrier_dominates_sample :
    let binding : StateBinding := ⟨.sample, .sample, 1, 12288, 7, 9, none⟩
    let clean : StateRecord := ⟨5, .clean, { binding with image := some ⟨.sample, 1, 4096⟩ }⟩
    ∃ page barrier, clean.encode (fun _ => 0) = .ok page ∧
      runningBarrier (fun _ => 0) [List.replicate 4096 0, page] binding = .ok barrier ∧
      barrier.Dominates (fun _ => 0) [List.replicate 4096 0, page] ∧
      5 < barrier.first.record.generation.toNat := by
  intro binding clean
  have hencode : clean.encode (fun _ => 0) = .ok _ := if_pos (by decide)
  have hclean := StateRecord.decode_eq_some.2 (StateRecord.encode_eq_ok_iff.1 hencode)
  generalize controlPage _ _ = page at hencode hclean
  obtain ⟨hdominates, -, herror⟩ :=
    runningBarrier_dominates (fun _ => 0) (List.replicate 4096 0) page binding
  cases hbarrier : runningBarrier (fun _ => 0) [List.replicate 4096 0, page] binding with
  | ok barrier =>
    have hdom := hdominates barrier hbarrier
    have hmem : page ∈ [List.replicate 4096 0, page] :=
      List.mem_cons_of_mem _ (List.mem_singleton_self page)
    exact ⟨page, barrier, hencode, hbarrier, hdom, (hdom.newer page hmem clean hclean).1⟩
  | error e =>
    rcases herror e hbarrier with ⟨-, p, hmem, record, hdecode, hge⟩ | ⟨-, hinvalid⟩
    · rcases List.mem_cons.1 hmem with rfl | hmem
      · have hzeros : StateRecord.decode (fun _ => 0) (List.replicate 4096 0) = none := by
          decide +kernel
        rw [hzeros] at hdecode
        cases hdecode
      · rw [List.mem_singleton.1 hmem, hclean] at hdecode
        cases hdecode
        exact absurd hge (by decide)
    · exact absurd hinvalid (by decide)

end Cache2
