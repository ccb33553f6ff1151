import Cache2.Lib.Linked
import Cache2.Memory.FixedMap

set_option relaxedAutoImplicit false
set_option autoImplicit false

/-!
# Eviction policies of the memory tier

A shard of the memory tier evicts by CLOCK or by S3-FIFO. Both keep a policy slot for every entry
slot; CLOCK adds a dense vector of the residents with a hand, S3-FIFO two queues that are linked
through an array and a queue of the hashes it evicted lately. The policy slot of an entry slot that
is not in use links the shard's free list.

Indices are 32-bit words, the greatest of which ends every list. Reads and writes outside an array,
which panic in the source, read a default and write nothing here.

## Main definitions

* `Cache2.PolicySlot`, `Cache2.ClockState`, `Cache2.S3FifoState`, `Cache2.GhostQueue`,
  `Cache2.EvictionState`.
-/

namespace Cache2

/-! ## Policy slots -/

/-- `NO_POLICY_SLOT`, which is `NO_SLOT_INDEX` of the shard. -/
def noPolicySlot : ℕ := 2 ^ 32 - 1

/-- `MAX_POLICY_SCAN_STEPS`. -/
def maxPolicyScanSteps : ℕ := 64

/-- `MAX_POLICY_SLOT_INDEX`. -/
def maxPolicySlotIndex : ℕ := 2 ^ 32 - 2

/-- `RESIDENT_BIT`. -/
def residentBit : BitVec 8 := 1#8 <<< 0

/-- `CLOCK_VISITED_BIT`. -/
def clockVisitedBit : BitVec 8 := 1#8 <<< 1

/-- `S3FIFO_FREQUENCY_SHIFT`. -/
def s3FifoFrequencyShift : ℕ := 1

/-- `S3FIFO_FREQUENCY_MASK`. -/
def s3FifoFrequencyMask : BitVec 8 := 3#8 <<< s3FifoFrequencyShift

/-- `S3FIFO_MAIN_BIT`. -/
def s3FifoMainBit : BitVec 8 := 1#8 <<< 3

/-- `S3FIFO_MOVE_TO_MAIN_THRESHOLD`. -/
def s3FifoMoveToMainThreshold : BitVec 8 := 2#8

/-- `u8::from`. -/
def byteOfBool (b : Bool) : BitVec 8 := if b then 1#8 else 0#8

/-- `QueueKind`. -/
inductive QueueKind
  | small
  | main
  deriving DecidableEq, Repr

/-- `PolicySlot`. -/
structure PolicySlot where
  /-- The hash of a resident entry. -/
  hash : BitVec 64
  /-- The position in the CLOCK, or the next free slot. -/
  clockPosition : ℕ
  /-- Residency and the marks of the policy. -/
  flags : BitVec 8
  deriving DecidableEq, Repr

namespace PolicySlot

/-- `PolicySlot::default`. -/
def default : PolicySlot := ⟨0, 0, 0⟩

/-- `new_free`. -/
def newFree (next : ℕ) : PolicySlot := ⟨0, next, 0⟩

/-- `free_next`. -/
def freeNext (slot : PolicySlot) : ℕ := slot.clockPosition

/-- `new_clock`. -/
def newClock (hash : BitVec 64) (visited : Bool) (position : ℕ) : PolicySlot :=
  ⟨hash, position, residentBit ||| byteOfBool visited * clockVisitedBit⟩

/-- `new_s3fifo`. -/
def newS3Fifo (hash : BitVec 64) (queue : QueueKind) (frequency : BitVec 8) : PolicySlot :=
  ⟨hash, 0, residentBit ||| (frequency <<< s3FifoFrequencyShift &&& s3FifoFrequencyMask) |||
    byteOfBool (queue = .main) * s3FifoMainBit⟩

/-- `is_resident`. -/
def isResident (slot : PolicySlot) : Bool := slot.flags &&& residentBit != 0#8

/-- `clock_visited`. -/
def clockVisited (slot : PolicySlot) : Bool := slot.flags &&& clockVisitedBit != 0#8

/-- `set_clock_visited`. -/
def setClockVisited (slot : PolicySlot) (visited : Bool) : PolicySlot :=
  { slot with
    flags := (slot.flags &&& ~~~clockVisitedBit) ||| byteOfBool visited * clockVisitedBit }

/-- `set_clock_position`. -/
def setClockPosition (slot : PolicySlot) (position : ℕ) : PolicySlot :=
  { slot with clockPosition := position }

/-- `s3fifo_queue`. -/
def s3FifoQueue (slot : PolicySlot) : QueueKind :=
  if slot.flags &&& s3FifoMainBit = 0#8 then .small else .main

/-- `s3fifo_frequency`. -/
def s3FifoFrequency (slot : PolicySlot) : BitVec 8 :=
  (slot.flags &&& s3FifoFrequencyMask) >>> s3FifoFrequencyShift

/-- `set_s3fifo_frequency`. -/
def setS3FifoFrequency (slot : PolicySlot) (frequency : BitVec 8) : PolicySlot :=
  { slot with
    flags := (slot.flags &&& ~~~s3FifoFrequencyMask) |||
      (frequency <<< s3FifoFrequencyShift &&& s3FifoFrequencyMask) }

/-- `increment_s3fifo_frequency`. -/
def incrementS3FifoFrequency (slot : PolicySlot) : PolicySlot :=
  let frequency := slot.flags &&& s3FifoFrequencyMask
  { slot with
    flags := slot.flags + byteOfBool (frequency != s3FifoFrequencyMask) <<< s3FifoFrequencyShift }

/-- `set_s3fifo_queue`. -/
def setS3FifoQueue (slot : PolicySlot) (queue : QueueKind) : PolicySlot :=
  { slot with
    flags := (slot.flags &&& ~~~s3FifoMainBit) ||| byteOfBool (queue = .main) * s3FifoMainBit }

end PolicySlot

/-- A policy slot of the shard. -/
def policySlot (slots : List PolicySlot) (index : ℕ) : PolicySlot := slots.getD index .default

/-! ## Scan budget -/

/-- `maximum_scan_steps`. -/
def maximumScanSteps (slotCount : ℕ) : ℕ := min (slotCount * 2 + 1) maxPolicyScanSteps

/-! ## CLOCK -/

/-- `ClockState`. -/
structure ClockState where
  /-- Where the next scan starts. -/
  hand : ℕ
  /-- The resident slots. -/
  residents : List ℕ
  deriving DecidableEq, Repr

namespace ClockState

/-- `insert`. -/
def insert (c : ClockState) (slots : List PolicySlot) (index : ℕ) (hash : BitVec 64)
    (visited : Bool) : ClockState × List PolicySlot :=
  ({ c with residents := c.residents ++ [index] },
    slots.set index (.newClock hash visited c.residents.length))

/-- `Vec::swap_remove`. -/
def swapRemove (l : List ℕ) (position : ℕ) : List ℕ :=
  if position + 1 < l.length then (l.set position (l.getD (l.length - 1) 0)).dropLast
  else l.eraseIdx position

/-- `remove`. -/
def remove (c : ClockState) (slots : List PolicySlot) (index : ℕ) :
    ClockState × List PolicySlot :=
  let position := (policySlot slots index).clockPosition
  let residents := swapRemove c.residents position
  let slots :=
    match residents[position]? with
    | some moved => slots.set moved ((policySlot slots moved).setClockPosition position)
    | none => slots
  ({ hand := if residents.length ≤ c.hand then 0 else c.hand, residents },
    slots.set index .default)

/-- The loop of `select_victim`, with the iterations and the steps that are left. What decides
whether a victim can be reclaimed reads the environment `ε`. -/
def selectLoop {ε : Type} (canReclaim : ε → ℕ → Bool × ε) :
    ℕ → ClockState → List PolicySlot → ℕ → ε →
      Option ℕ × ClockState × List PolicySlot × ℕ × ε
  | 0, c, slots, remaining, env => (none, c, slots, remaining, env)
  | steps + 1, c, slots, remaining, env =>
    if c.residents.isEmpty ∨ remaining = 0 then (none, c, slots, remaining, env)
    else
      let position := if c.hand < c.residents.length then c.hand else 0
      let c := { c with hand := if position + 1 = c.residents.length then 0 else position + 1 }
      let index := c.residents.getD position 0
      let slot := policySlot slots index
      if slot.clockVisited then
        selectLoop canReclaim steps c (slots.set index (slot.setClockVisited false))
          (remaining - 1) env
      else
        let (reclaimable, env) := canReclaim env index
        if reclaimable then (some index, c, slots, remaining - 1, env)
        else selectLoop canReclaim steps c slots (remaining - 1) env

/-- `select_victim`. -/
def selectVictim {ε : Type} (canReclaim : ε → ℕ → Bool × ε) (c : ClockState)
    (slots : List PolicySlot) (remaining : ℕ) (env : ε) :
    Option ℕ × ClockState × List PolicySlot × ℕ × ε :=
  selectLoop canReclaim (maximumScanSteps c.residents.length) c slots remaining env

end ClockState

/-! ## Linked queues -/

/-- `S3FifoLink`. -/
structure S3FifoLink where
  /-- The node before. -/
  previous : ℕ
  /-- The node after. -/
  next : ℕ
  /-- The weight of the node, or zero. -/
  weight : ℕ
  deriving DecidableEq, Repr

/-- `S3FifoLink::default`. -/
def S3FifoLink.default : S3FifoLink := ⟨noPolicySlot, noPolicySlot, 0⟩

/-- A link of an array. -/
def s3FifoLink (links : List S3FifoLink) (index : ℕ) : S3FifoLink := links.getD index .default

/-- `links[index].next = next`. -/
def setNext (links : List S3FifoLink) (index next : ℕ) : List S3FifoLink :=
  links.set index { s3FifoLink links index with next }

/-- `links[index].previous = previous`. -/
def setPrevious (links : List S3FifoLink) (index previous : ℕ) : List S3FifoLink :=
  links.set index { s3FifoLink links index with previous }

/-- The links after a node has come to the end of the list that ended with `tail`; both kinds of
queues do this in the same way. -/
def linkBack (links : List S3FifoLink) (tail index weight : ℕ) : List S3FifoLink :=
  let links := links.set index ⟨tail, noPolicySlot, weight⟩
  if tail = noPolicySlot then links else setNext links tail index

/-- The links after the neighbours of a node have been linked to each other; both kinds of queues do
this in the same way. -/
def unlinkNode (links : List S3FifoLink) (index : ℕ) : List S3FifoLink :=
  let link := s3FifoLink links index
  let links :=
    if link.previous = noPolicySlot then links else setNext links link.previous link.next
  if link.next = noPolicySlot then links else setPrevious links link.next link.previous

/-- `PolicyQueue`. -/
structure PolicyQueue where
  /-- The first node. -/
  head : ℕ
  /-- The last node. -/
  tail : ℕ
  /-- The weight of all nodes. -/
  bytes : ℕ
  deriving DecidableEq, Repr

namespace PolicyQueue

/-- `PolicyQueue::empty`. -/
def empty : PolicyQueue := ⟨noPolicySlot, noPolicySlot, 0⟩

/-- `is_empty`. -/
def isEmpty (q : PolicyQueue) : Bool := q.head == noPolicySlot

/-- `front`. -/
def front (q : PolicyQueue) : Option ℕ := if q.head = noPolicySlot then none else some q.head

/-- `push_back`. -/
def pushBack (q : PolicyQueue) (links : List S3FifoLink) (index weight : ℕ) :
    PolicyQueue × List S3FifoLink :=
  (⟨if q.tail = noPolicySlot then index else q.head, index, min (q.bytes + weight) (2 ^ 64 - 1)⟩,
    linkBack links q.tail index weight)

/-- `remove`: the weight of the node, with the queue without it. -/
def remove (q : PolicyQueue) (links : List S3FifoLink) (index : ℕ) :
    ℕ × PolicyQueue × List S3FifoLink :=
  let link := s3FifoLink links index
  (link.weight,
    ⟨if link.previous = noPolicySlot then link.next else q.head,
      if link.next = noPolicySlot then link.previous else q.tail, q.bytes - link.weight⟩,
    (unlinkNode links index).set index .default)

/-- `move_to_back`. -/
def moveToBack (q : PolicyQueue) (links : List S3FifoLink) (index : ℕ) :
    PolicyQueue × List S3FifoLink :=
  if q.tail = index then (q, links)
  else
    let (weight, q, links) := q.remove links index
    q.pushBack links index weight

end PolicyQueue

/-! ## The ghost queue -/

/-- `GhostQueue`. -/
structure GhostQueue where
  /-- From fingerprints to nodes. -/
  directory : FixedPrehashedMap
  /-- The full hash of every node. -/
  hashes : List (BitVec 64)
  /-- The links of the nodes; free nodes are linked by `next`. -/
  links : List S3FifoLink
  /-- The first free node. -/
  freeHead : ℕ
  /-- The number of free nodes. -/
  freeCount : ℕ
  /-- The oldest node. -/
  head : ℕ
  /-- The latest node. -/
  tail : ℕ
  /-- The weight of all nodes. -/
  bytes : ℕ
  /-- The bound on that weight. -/
  capacityBytes : ℕ
  deriving DecidableEq, Repr

namespace GhostQueue

/-- `GhostQueue::new`. -/
def new (maximumEntries capacityBytes : ℕ) : GhostQueue where
  directory := .tryNew maximumEntries
  hashes := List.replicate maximumEntries 0
  links := (List.range maximumEntries).map fun index =>
    { S3FifoLink.default with
      next := if index + 1 = maximumEntries then noPolicySlot else index + 1 }
  freeHead := if maximumEntries = 0 then noPolicySlot else 0
  freeCount := maximumEntries
  head := noPolicySlot
  tail := noPolicySlot
  bytes := 0
  capacityBytes := capacityBytes

/-- `unlink`. -/
def unlink (g : GhostQueue) (index : ℕ) : GhostQueue :=
  let link := s3FifoLink g.links index
  { g with
    head := if link.previous = noPolicySlot then link.next else g.head
    tail := if link.next = noPolicySlot then link.previous else g.tail
    bytes := g.bytes - link.weight
    hashes := g.hashes.set index 0
    links := (unlinkNode g.links index).set index { S3FifoLink.default with next := g.freeHead }
    freeHead := index
    freeCount := g.freeCount + 1 }

/-- `head_index`. -/
def headIndex (g : GhostQueue) : Option ℕ := if g.head = noPolicySlot then none else some g.head

/-- `remove_head`. -/
def removeHead (g : GhostQueue) : Bool × GhostQueue :=
  match g.headIndex with
  | none => (false, g)
  | some index =>
    let (_, directory) := g.directory.remove (g.hashes.getD index 0)
    (true, { g with directory }.unlink index)

/-- `take`. -/
def take (g : GhostQueue) (hash : BitVec 64) : Bool × GhostQueue :=
  match g.directory.remove hash with
  | (none, _) => (false, g)
  | (some index, directory) =>
    (g.hashes.getD index 0 == hash, { g with directory }.unlink index)

/-- The part of `insert` that links a new node. -/
def link (g : GhostQueue) (hash : BitVec 64) (weight : ℕ) : GhostQueue :=
  let index := g.freeHead
  let g :=
    { g with
      freeHead := (s3FifoLink g.links index).next
      freeCount := g.freeCount - 1
      hashes := g.hashes.set index hash
      links := linkBack g.links g.tail index weight
      head := if g.tail = noPolicySlot then index else g.head
      tail := index
      bytes := min (g.bytes + weight) (2 ^ 64 - 1) }
  match g.directory.insert hash index with
  | some (some previous, directory) => { g with directory }.unlink previous
  | some (none, directory) => { g with directory }
  | none => g.unlink index

/-- `insert`. -/
def insert (g : GhostQueue) (hash : BitVec 64) (weight : ℕ) : GhostQueue :=
  if 2 ^ 32 ≤ weight ∨ weight = 0 ∨ g.capacityBytes < weight ∨ g.links.isEmpty ∨
      g.capacityBytes = 0 then g
  else if g.freeHead = noPolicySlot ∨ g.capacityBytes < min (g.bytes + weight) (2 ^ 64 - 1) then
    match g.headIndex with
    | none => g
    | some head =>
      let headWeight := (s3FifoLink g.links head).weight
      if g.capacityBytes < min (g.bytes - headWeight + weight) (2 ^ 64 - 1) then g
      else g.removeHead.2.link hash weight
  else g.link hash weight

end GhostQueue

/-! ## S3-FIFO -/

/-- `S3FifoState`. -/
structure S3FifoState where
  /-- The links of both queues. -/
  links : List S3FifoLink
  /-- Entries that came in lately. -/
  small : PolicyQueue
  /-- Entries that were hit again. -/
  main : PolicyQueue
  /-- The share of the main queue. -/
  mainCapacityBytes : ℕ
  /-- The hashes that were evicted from the small queue lately. -/
  ghost : GhostQueue
  deriving DecidableEq, Repr

/-- What `detach` keeps of an entry's place. -/
inductive DetachedPolicyKind
  | clock
  | s3Fifo (queue : QueueKind) (frequency : BitVec 8)
  deriving DecidableEq, Repr

/-- `DetachedPolicy`. -/
structure DetachedPolicy where
  /-- The hash of the entry. -/
  hash : BitVec 64
  /-- Its weight. -/
  weight : ℕ
  /-- Its place. -/
  kind : DetachedPolicyKind
  deriving DecidableEq, Repr

namespace S3FifoState

/-- `S3FifoState::new`. -/
def new (capacityBytes maximumEntries : ℕ) : S3FifoState :=
  let mainCapacityBytes := capacityBytes - capacityBytes / 10
  { links := List.replicate maximumEntries .default
    small := .empty
    main := .empty
    mainCapacityBytes
    ghost := .new maximumEntries mainCapacityBytes }

/-- `queue`. -/
def queue (s : S3FifoState) : QueueKind → PolicyQueue
  | .small => s.small
  | .main => s.main

/-- A queue with its links replaced. -/
def setQueue (s : S3FifoState) (kind : QueueKind) (updated : PolicyQueue × List S3FifoLink) :
    S3FifoState :=
  match kind with
  | .small => { s with small := updated.1, links := updated.2 }
  | .main => { s with main := updated.1, links := updated.2 }

/-- `push_back`. -/
def pushBack (s : S3FifoState) (kind : QueueKind) (index weight : ℕ) : S3FifoState :=
  s.setQueue kind ((s.queue kind).pushBack s.links index weight)

/-- `remove_from`. -/
def removeFrom (s : S3FifoState) (kind : QueueKind) (index : ℕ) : ℕ × S3FifoState :=
  let (weight, updated) := (s.queue kind).remove s.links index
  (weight, s.setQueue kind updated)

/-- `insert`. -/
def insert (s : S3FifoState) (slots : List PolicySlot) (index : ℕ) (hash : BitVec 64)
    (weight : ℕ) : S3FifoState × List PolicySlot :=
  let (remembered, ghost) := s.ghost.take hash
  let kind := if remembered then QueueKind.main else .small
  ({ s with ghost }.pushBack kind index weight, slots.set index (.newS3Fifo hash kind 0))

/-- `remove`. -/
def remove (s : S3FifoState) (slots : List PolicySlot) (index : ℕ) :
    S3FifoState × List PolicySlot :=
  ((s.removeFrom (policySlot slots index).s3FifoQueue index).2, slots.set index .default)

/-- `detach`. -/
def detach (s : S3FifoState) (slots : List PolicySlot) (index : ℕ) :
    DetachedPolicy × S3FifoState × List PolicySlot :=
  let slot := policySlot slots index
  let (weight, s) := s.removeFrom slot.s3FifoQueue index
  (⟨slot.hash, weight, .s3Fifo slot.s3FifoQueue slot.s3FifoFrequency⟩, s,
    slots.set index .default)

/-- `restore`. -/
def restore (s : S3FifoState) (slots : List PolicySlot) (index : ℕ) (hash : BitVec 64)
    (weight : ℕ) (kind : QueueKind) (frequency : BitVec 8) : S3FifoState × List PolicySlot :=
  (s.pushBack kind index weight, slots.set index (.newS3Fifo hash kind frequency))

/-- An entry of the small queue moves to the end of the main queue. -/
def promote (s : S3FifoState) (slots : List PolicySlot) (index : ℕ) :
    S3FifoState × List PolicySlot :=
  let (weight, s) := s.removeFrom .small index
  (s.pushBack .main index weight,
    slots.set index ((policySlot slots index).setS3FifoQueue .main))

/-- An entry of the main queue moves to its end. -/
def rotate (s : S3FifoState) (index : ℕ) : S3FifoState :=
  s.setQueue .main (s.main.moveToBack s.links index)

/-- The loop of `select_victim`, with the iterations and the steps that are left. -/
def selectLoop {ε : Type} (canReclaim : ε → ℕ → Bool × ε) :
    ℕ → Bool → S3FifoState → List PolicySlot → ℕ → ε →
      Option ℕ × S3FifoState × List PolicySlot × ℕ × ε
  | 0, _, s, slots, remaining, env => (none, s, slots, remaining, env)
  | steps + 1, preferSmall, s, slots, remaining, env =>
    if remaining = 0 then (none, s, slots, remaining, env)
    else
      let remaining := remaining - 1
      let forced := preferSmall && !s.small.isEmpty
      let preferSmall := preferSmall && !forced
      let kind : QueueKind :=
        if forced then .small
        else if s.mainCapacityBytes < s.main.bytes ∨ s.small.isEmpty then .main
        else .small
      match (s.queue kind).front with
      | none => (none, s, slots, remaining, env)
      | some index =>
        let slot := policySlot slots index
        let frequency := slot.s3FifoFrequency
        match kind with
        | .small =>
          if s3FifoMoveToMainThreshold ≤ frequency then
            let (s, slots) := s.promote slots index
            selectLoop canReclaim steps preferSmall s slots remaining env
          else
            let (reclaimable, env) := canReclaim env index
            if reclaimable then (some index, s, slots, remaining, env)
            else
              -- a value that a caller retains leaves the head of the probationary queue
              let (s, slots) := s.promote slots index
              selectLoop canReclaim steps preferSmall s slots remaining env
        | .main =>
          if 0#8 < frequency then
            selectLoop canReclaim steps preferSmall (s.rotate index)
              (slots.set index (slot.setS3FifoFrequency (frequency - 1))) remaining env
          else
            let (reclaimable, env) := canReclaim env index
            if reclaimable then (some index, s, slots, remaining, env)
            else selectLoop canReclaim steps true (s.rotate index) slots remaining env

/-- `select_victim`. -/
def selectVictim {ε : Type} (canReclaim : ε → ℕ → Bool × ε) (s : S3FifoState)
    (slots : List PolicySlot) (remaining : ℕ) (env : ε) :
    Option ℕ × S3FifoState × List PolicySlot × ℕ × ε :=
  selectLoop canReclaim (maximumScanSteps slots.length) false s slots remaining env

end S3FifoState

/-! ## Either policy -/

/-- `L1EvictionPolicy`. -/
inductive L1EvictionPolicy
  | clock
  | s3Fifo
  deriving DecidableEq, Repr

/-- `EvictionState`. -/
inductive EvictionState
  | clock (c : ClockState)
  | s3Fifo (s : S3FifoState)
  deriving DecidableEq, Repr

namespace EvictionState

/-- `EvictionState::new`, for allocations that succeed. -/
def new (policy : L1EvictionPolicy) (capacityBytes maximumEntries : ℕ) : EvictionState :=
  match policy with
  | .clock => .clock ⟨0, []⟩
  | .s3Fifo => .s3Fifo (.new capacityBytes maximumEntries)

/-- `insert`. -/
def insert (e : EvictionState) (slots : List PolicySlot) (index : ℕ) (hash : BitVec 64)
    (weight : ℕ) : EvictionState × List PolicySlot :=
  match e with
  | .clock c => (c.insert slots index hash false).map .clock id
  | .s3Fifo s => (s.insert slots index hash weight).map .s3Fifo id

/-- `record_hit`. -/
def recordHit (e : EvictionState) (slots : List PolicySlot) (index : ℕ) : List PolicySlot :=
  match e with
  | .clock _ => slots.set index ((policySlot slots index).setClockVisited true)
  | .s3Fifo _ => slots.set index (policySlot slots index).incrementS3FifoFrequency

/-- `remove`. -/
def remove (e : EvictionState) (slots : List PolicySlot) (index : ℕ) :
    EvictionState × List PolicySlot :=
  if !(policySlot slots index).isResident then (e, slots)
  else match e with
    | .clock c => (c.remove slots index).map .clock id
    | .s3Fifo s => (s.remove slots index).map .s3Fifo id

/-- `detach_for_admission`. -/
def detachForAdmission (e : EvictionState) (slots : List PolicySlot) (index weight : ℕ) :
    DetachedPolicy × EvictionState × List PolicySlot :=
  match e with
  | .clock c =>
    (⟨(policySlot slots index).hash, weight, .clock⟩, (c.remove slots index).map .clock id)
  | .s3Fifo s => (s.detach slots index).map id (Prod.map .s3Fifo id)

/-- `restore_for_admission`; a place of the other policy is unreachable. -/
def restoreForAdmission (e : EvictionState) (slots : List PolicySlot) (index : ℕ)
    (detached : DetachedPolicy) : EvictionState × List PolicySlot :=
  match e, detached.kind with
  | .clock c, .clock => (c.insert slots index detached.hash true).map .clock id
  | .s3Fifo s, .s3Fifo queue frequency =>
    (s.restore slots index detached.hash detached.weight queue frequency).map .s3Fifo id
  | e, _ => (e, slots)

/-- `commit_eviction`; a place of the other policy is unreachable. -/
def commitEviction (e : EvictionState) (detached : DetachedPolicy) : EvictionState :=
  match e, detached.kind with
  | .s3Fifo s, .s3Fifo .small _ =>
    .s3Fifo { s with ghost := s.ghost.insert detached.hash detached.weight }
  | e, _ => e

/-- `select_victim`. -/
def selectVictim {ε : Type} (canReclaim : ε → ℕ → Bool × ε) (e : EvictionState)
    (slots : List PolicySlot) (remaining : ℕ) (env : ε) :
    Option ℕ × EvictionState × List PolicySlot × ℕ × ε :=
  match e with
  | .clock c => (c.selectVictim canReclaim slots remaining env).map id (Prod.map .clock id)
  | .s3Fifo s => (s.selectVictim canReclaim slots remaining env).map id (Prod.map .s3Fifo id)

end EvictionState

end Cache2
