import Cache2.Io.UringDriver

set_option relaxedAutoImplicit false
set_option autoImplicit false

/-!
# What the ring driver knows about its ring

The driver keeps flags for the poll of the wake socket and its cancellation, and a table of the
requests that are not finished. Entries carry words by which their completions are told apart. The
queue of the ring may be full, so that requests wait to be submitted; what they wait for is another
request, because cancellations alone cannot fill it.

## Main definitions

* `Cache2.UringState.outstanding` — the entries that have not been looked at as completions.
* `Cache2.UringState.RingInvariant` — the ring and what the driver thinks of it.
* `Cache2.UringState.Placed` — what holds where the driver stands.

## Main results

* `Cache2.completionKind_userData` — completions are told apart.
* `Cache2.exists_target_of_full` — a full queue holds a request, or the driver is about to stop.
* `Cache2.UringState.Invariant.driver`, `Cache2.UringState.Invariant.kernel` — the invariant is
  kept.
-/

namespace Cache2

/-! ## Completion words -/

/-- What the completion of an entry is taken for. -/
def PendingEntry.kind : PendingEntry → CompletionKind
  | target requestId => .target requestId
  | cancel _ => .cancel
  | wake => .wake
  | wakeCancel => .wakeCancel

/-- A word without the driver's bit is not the word of the poll. -/
lemma ne_wakeRequestId {w : BitVec 64} (h : w &&& internalCqeBit = 0#64) : w ≠ wakeRequestId := by
  rintro rfl
  exact absurd h (by decide)

/-- Nor is it that of its cancellation. -/
lemma ne_wakeCancelId {w : BitVec 64} (h : w &&& internalCqeBit = 0#64) : w ≠ wakeCancelId := by
  rintro rfl
  exact absurd h (by decide)

/-- Completions are told apart. -/
lemma completionKind_userData (entry : PendingEntry) :
    completionKind entry.userData = entry.kind := by
  cases entry with
  | target requestId =>
    have hwake := ne_wakeRequestId requestId.internal_eq
    have hwakeCancel := ne_wakeCancelId requestId.internal_eq
    rw [completionKind, PendingEntry.userData, if_neg hwake, if_neg hwakeCancel,
      dif_pos requestId.cancel_eq, dif_pos requestId.internal_eq]
    rfl
  | cancel requestId =>
    have hinternal : (cancelCqeBit ||| requestId.get) &&& internalCqeBit = 0#64 := by
      rw [BitVec.and_or_distrib_right, requestId.internal_eq]
      decide
    have hcancel : (cancelCqeBit ||| requestId.get) &&& cancelCqeBit ≠ 0#64 := by
      rw [BitVec.and_or_distrib_right, requestId.cancel_eq]
      decide
    rw [completionKind, PendingEntry.userData, if_neg (ne_wakeRequestId hinternal),
      if_neg (ne_wakeCancelId hinternal), dif_neg hcancel]
    rfl
  | wake => rfl
  | wakeCancel => rfl

/-- The word of the poll belongs to the poll. -/
lemma PendingEntry.userData_eq_wake {entry : PendingEntry} :
    entry.userData = wakeRequestId ↔ entry = .wake := by
  refine ⟨fun h => ?_, fun h => h ▸ rfl⟩
  have hkind := completionKind_userData entry
  rw [h] at hkind
  cases entry <;> first | rfl | cases hkind

/-- The word of its cancellation belongs to its cancellation. -/
lemma PendingEntry.userData_eq_wakeCancel {entry : PendingEntry} :
    entry.userData = wakeCancelId ↔ entry = .wakeCancel := by
  refine ⟨fun h => ?_, fun h => h ▸ rfl⟩
  have hkind := completionKind_userData entry
  rw [h] at hkind
  cases entry <;> first | rfl | cases hkind

/-- A completion of the poll bears its word. -/
lemma eq_of_completionKind_wake {userData : BitVec 64} (h : completionKind userData = .wake) :
    userData = wakeRequestId := by
  unfold completionKind at h
  split_ifs at h with hwake
  exact hwake

/-- A completion of its cancellation bears its word. -/
lemma eq_of_completionKind_wakeCancel {userData : BitVec 64}
    (h : completionKind userData = .wakeCancel) : userData = wakeCancelId := by
  unfold completionKind at h
  split_ifs at h with _ hwakeCancel
  exact hwakeCancel

/-- A completion of a request bears its id. -/
lemma eq_of_completionKind_target {userData : BitVec 64} {requestId : RequestId}
    (h : completionKind userData = .target requestId) : userData = requestId.get := by
  unfold completionKind at h
  split_ifs at h
  cases h
  rfl

/-! ## Entries of the submission queue -/

/-- The entry cancels a request. -/
def PendingEntry.isCancel : PendingEntry → Bool
  | cancel _ => true
  | target _ | wake | wakeCancel => false

/-- The entry is a request. -/
def PendingEntry.isTarget : PendingEntry → Bool
  | target _ => true
  | cancel _ | wake | wakeCancel => false

/-- The cancellations behind the last request, with one more entry. -/
def PendingEntry.cancelsBehind (n : ℕ) : PendingEntry → ℕ
  | target _ => 0
  | cancel _ => n + 1
  | wake | wakeCancel => n

/-- The cancellations behind the last request of a queue. -/
def cancelsBehindTargets (sq : List PendingEntry) : ℕ := sq.foldl PendingEntry.cancelsBehind 0

lemma foldl_cancelsBehind_mono {m n : ℕ} (h : m ≤ n) (sq : List PendingEntry) :
    sq.foldl PendingEntry.cancelsBehind m ≤ sq.foldl PendingEntry.cancelsBehind n := by
  induction sq generalizing m n with
  | nil => exact h
  | cons entry rest ih =>
    apply ih
    cases entry with
    | target _ => exact Nat.le_refl 0
    | cancel _ => exact Nat.succ_le_succ h
    | wake => exact h
    | wakeCancel => exact h

/-- The kernel takes entries at the front. -/
lemma cancelsBehindTargets_cons_le (entry : PendingEntry) (rest : List PendingEntry) :
    cancelsBehindTargets rest ≤ cancelsBehindTargets (entry :: rest) :=
  foldl_cancelsBehind_mono (Nat.zero_le _) rest

/-- Without requests all cancellations count. -/
lemma foldl_cancelsBehind_eq {sq : List PendingEntry} (h : ∀ entry ∈ sq, entry.isTarget = false)
    (n : ℕ) : sq.foldl PendingEntry.cancelsBehind n = n + sq.countP PendingEntry.isCancel := by
  induction sq generalizing n with
  | nil => rfl
  | cons entry rest ih =>
    have hrest := ih fun e he => h e (List.mem_cons_of_mem _ he)
    rw [List.foldl_cons, hrest, List.countP_cons]
    cases entry with
    | target requestId => exact absurd (h _ List.mem_cons_self) nofun
    | cancel requestId =>
      simp only [PendingEntry.cancelsBehind, PendingEntry.isCancel, if_true]
      omega
    | wake => simp [PendingEntry.cancelsBehind, PendingEntry.isCancel]
    | wakeCancel => simp [PendingEntry.cancelsBehind, PendingEntry.isCancel]

/-- The cancellations of a queue that grows by entries which are not requests. -/
lemma cancelsBehindTargets_append {sq entries : List PendingEntry}
    (h : ∀ entry ∈ entries, entry.isTarget = false) :
    cancelsBehindTargets (sq ++ entries) =
      cancelsBehindTargets sq + entries.countP PendingEntry.isCancel := by
  rw [cancelsBehindTargets, List.foldl_append, foldl_cancelsBehind_eq h]
  rfl

/-- There are none behind a request. -/
lemma cancelsBehindTargets_target (sq : List PendingEntry) (requestId : RequestId) :
    cancelsBehindTargets (sq ++ [.target requestId]) = 0 := by
  rw [cancelsBehindTargets, List.foldl_append]
  rfl

/-- **A full queue** holds a request or the cancellation of the poll, if the poll is there at most
once and few cancellations stand behind the last request. -/
lemma exists_target_of_full {sq : List PendingEntry} {maxInFlight : ℕ}
    (hfull : ringEntries maxInFlight ≤ sq.length) (hwake : sq.count .wake ≤ 1)
    (hcancels : cancelsBehindTargets sq ≤ maxInFlight) :
    (∃ requestId, PendingEntry.target requestId ∈ sq) ∨ PendingEntry.wakeCancel ∈ sq := by
  by_contra hnot
  obtain ⟨hnoTarget, hnoCancel⟩ := not_or.1 hnot
  have htarget : ∀ entry ∈ sq, entry.isTarget = false := by
    intro entry he
    cases entry with
    | target requestId => exact absurd ⟨requestId, he⟩ hnoTarget
    | cancel requestId => rfl
    | wake => rfl
    | wakeCancel => rfl
  have hall : sq.length = sq.countP PendingEntry.isCancel + sq.countP fun e => !e.isCancel := by
    rw [List.length_eq_countP_add_countP PendingEntry.isCancel]
    simp only [Bool.not_eq_true]
    congr 2
    funext e
    cases e.isCancel <;> rfl
  have hrest : (sq.countP fun e => !e.isCancel) = sq.count .wake := by
    rw [List.count]
    refine List.countP_congr fun e he => ?_
    cases e with
    | target requestId => exact absurd ⟨requestId, he⟩ hnoTarget
    | cancel requestId => simp [PendingEntry.isCancel]
    | wake => simp [PendingEntry.isCancel]
    | wakeCancel => exact absurd he hnoCancel
  have hbehind := foldl_cancelsBehind_eq htarget 0
  have hsize : maxInFlight + 2 ≤ ringEntries maxInFlight := Nat.le_pow_clog (by decide) _
  rw [cancelsBehindTargets] at hcancels
  omega

/-! ## What the driver does with its flights -/

namespace UringDriver

/-- The driver does not touch the poll of the wake socket. -/
structure SameWake (d d' : UringDriver) : Prop where
  active : d'.wakeActive = d.wakeActive
  cancelSubmitted : d'.wakeCancelSubmitted = d.wakeCancelSubmitted
  cancelCompleted : d'.wakeCancelCompleted = d.wakeCancelCompleted
  ioPoll : d'.ioPoll = d.ioPoll
  events : d'.completionEvents = d.completionEvents

lemma SameWake.refl (d : UringDriver) : SameWake d d := ⟨rfl, rfl, rfl, rfl, rfl⟩

lemma SameWake.trans {d d' d'' : UringDriver} (h : SameWake d d') (h' : SameWake d' d'') :
    SameWake d d'' :=
  ⟨h'.1.trans h.1, h'.2.trans h.2, h'.3.trans h.3, h'.4.trans h.4, h'.5.trans h.5⟩

lemma SameWake.wakeCancelPending {d d' : UringDriver} (h : SameWake d d') :
    d'.wakeCancelPending = d.wakeCancelPending := by
  rw [UringDriver.wakeCancelPending, UringDriver.wakeCancelPending, h.cancelSubmitted,
    h.cancelCompleted]

/-- The cancellations that are queued, or may be. -/
def cancelWork (d : UringDriver) : ℕ :=
  d.pendingCancels.length + d.flights.countP Flight.cancellable

/-- The request has a flight. -/
def Carries (d : UringDriver) (requestId : RequestId) : Prop :=
  ∃ flight ∈ d.flights, flight.task.requestId = requestId

/-- **What commands and cancellations do to the flights**: a flight that was not there waits to be
submitted, no request is forgotten, and no more cancellations can come. -/
structure Keeps (d d' : UringDriver) : Prop extends SameWake d d' where
  carries : ∀ requestId, d'.Carries requestId →
    d.Carries requestId ∨ requestId ∈ d'.pendingTargets
  targets : ∀ requestId ∈ d.pendingTargets, requestId ∈ d'.pendingTargets
  cancelWork : d'.cancelWork ≤ d.cancelWork

lemma Keeps.refl (d : UringDriver) : Keeps d d where
  toSameWake := .refl d
  carries _ h := .inl h
  targets _ h := h
  cancelWork := Nat.le_refl _

lemma Keeps.trans {d d' d'' : UringDriver} (h : Keeps d d') (h' : Keeps d' d'') : Keeps d d'' where
  toSameWake := h.toSameWake.trans h'.toSameWake
  carries requestId hc := by
    rcases h'.carries requestId hc with hc | ht
    · rcases h.carries requestId hc with hc | ht
      · exact .inl hc
      · exact .inr (h'.targets requestId ht)
    · exact .inr ht
  targets requestId ht := h'.targets requestId (h.targets requestId ht)
  cancelWork := h'.cancelWork.trans h.cancelWork

variable {d : UringDriver} {requestId : RequestId} {flight : Flight}

/-- What `flights.get` finds. -/
lemma mem_of_flight? (h : d.flight? requestId = some flight) :
    flight ∈ d.flights ∧ flight.task.requestId = requestId :=
  ⟨List.mem_of_find?_eq_some h, by simpa using List.find?_some h⟩

/-- A request without a flight. -/
lemma not_carries_of_flight? (h : d.flight? requestId = none) : ¬ d.Carries requestId := by
  rintro ⟨flight, hmem, hid⟩
  exact absurd hid (by simpa using List.find?_eq_none.1 h flight hmem)

/-- `flights.remove` removes the flight of one request. -/
lemma carries_removeFlight {other : RequestId} :
    (d.removeFlight requestId).Carries other ↔ other ≠ requestId ∧ d.Carries other := by
  simp only [Carries, removeFlight, List.mem_filter, decide_eq_true_eq]
  constructor
  · rintro ⟨flight, ⟨hmem, hne⟩, rfl⟩
    exact ⟨hne, flight, hmem, rfl⟩
  · rintro ⟨hne, flight, hmem, rfl⟩
    exact ⟨flight, ⟨hmem, hne⟩, rfl⟩

/-- `flights.insert` adds the flight of one request. -/
lemma carries_insertFlight {other : RequestId} (h : (d.insertFlight flight).Carries other) :
    other = flight.task.requestId ∨ d.Carries other := by
  obtain ⟨f, hmem, rfl⟩ := h
  rcases List.mem_cons.1 hmem with rfl | hmem
  · exact .inl rfl
  · exact .inr (carries_removeFlight.1 ⟨f, hmem, rfl⟩).2

/-- `flights.get_mut` keeps the requests. -/
lemma carries_modifyFlight {f : Flight → Flight} (hf : ∀ flight, (f flight).task = flight.task)
    {other : RequestId} : (d.modifyFlight requestId f).Carries other ↔ d.Carries other := by
  have hid : ∀ flight : Flight,
      (if flight.task.requestId = requestId then f flight else flight).task = flight.task := by
    intro flight
    split_ifs with h
    · exact hf flight
    · rfl
  simp only [Carries, modifyFlight, List.mem_map]
  constructor
  · rintro ⟨_, ⟨flight, hmem, rfl⟩, rfl⟩
    exact ⟨flight, hmem, by rw [hid]⟩
  · rintro ⟨flight, hmem, rfl⟩
    exact ⟨_, ⟨flight, hmem, rfl⟩, by rw [hid]⟩

/-- Removing flights leaves no more cancellations. -/
lemma countP_removeFlight_le :
    (d.removeFlight requestId).flights.countP Flight.cancellable ≤
      d.flights.countP Flight.cancellable :=
  List.filter_sublist.countP_le

/-- A flight that is asked to be cancelled counts no longer. -/
lemma countP_cancelSubmitted_lt {flights : List Flight} (hmem : flight ∈ flights)
    (hid : flight.task.requestId = requestId) (hc : flight.cancellable = true) :
    (flights.map fun flight => if flight.task.requestId = requestId then
      { flight with cancelSubmitted := true } else flight).countP Flight.cancellable + 1 ≤
        flights.countP Flight.cancellable := by
  have hle : ∀ f : Flight, (if f.task.requestId = requestId then
      { f with cancelSubmitted := true } else f).cancellable = true → f.cancellable = true := by
    intro f
    split_ifs with h
    · simp [Flight.cancellable]
    · exact id
  rw [List.countP_map]
  induction flights with
  | nil => cases hmem
  | cons head rest ih =>
    rw [List.countP_cons, List.countP_cons]
    have hrest : rest.countP (Flight.cancellable ∘ fun flight =>
        if flight.task.requestId = requestId then { flight with cancelSubmitted := true }
        else flight) ≤ rest.countP Flight.cancellable :=
      List.countP_mono_left fun f _ => hle f
    rcases List.mem_cons.1 hmem with rfl | hmem
    · have hgone : (Flight.cancellable ∘ fun flight : Flight =>
          if flight.task.requestId = requestId then { flight with cancelSubmitted := true }
          else flight) flight = false := by
        simp [hid, Flight.cancellable]
      rw [hgone, hc]
      simp only [Bool.false_eq_true, if_false, if_true]
      omega
    · have hlt := ih hmem
      by_cases hhead : (Flight.cancellable ∘ fun flight =>
          if flight.task.requestId = requestId then { flight with cancelSubmitted := true }
          else flight) head = true
      · rw [if_pos hhead, if_pos (hle head hhead)]
        omega
      · rw [if_neg hhead]
        omega

/-- `queue_cancel_if_active` keeps the flights. -/
lemma queueCancelIfActive_keeps (d : UringDriver) (requestId : RequestId) :
    Keeps d (d.queueCancelIfActive requestId) := by
  unfold queueCancelIfActive
  cases hflight : d.flight? requestId with
  | none => exact .refl d
  | some flight =>
    dsimp only
    by_cases hc : flight.cancellable = true
    · rw [if_pos hc]
      obtain ⟨hmem, hid⟩ := mem_of_flight? hflight
      have hlt := countP_cancelSubmitted_lt hmem hid hc
      have hcarries : ∀ other, (d.modifyFlight requestId fun flight =>
          { flight with cancelSubmitted := true }).Carries other → d.Carries other :=
        fun other => (carries_modifyFlight
          (f := fun flight => { flight with cancelSubmitted := true }) fun _ => rfl).1
      split_ifs
      · refine ⟨⟨rfl, rfl, rfl, rfl, rfl⟩, fun other h => .inl (hcarries other h),
          fun _ h => h, ?_⟩
        simp only [UringDriver.cancelWork, modifyFlight]
        omega
      · refine ⟨⟨rfl, rfl, rfl, rfl, rfl⟩, fun other h => .inl (hcarries other h),
          fun _ h => h, ?_⟩
        simp only [UringDriver.cancelWork, modifyFlight, List.length_append, List.length_singleton]
        omega
    · rw [if_neg hc]
      exact .refl d

/-- It keeps their number. -/
lemma length_queueCancelIfActive (d : UringDriver) (requestId : RequestId) :
    (d.queueCancelIfActive requestId).flights.length = d.flights.length := by
  unfold queueCancelIfActive
  cases d.flight? requestId with
  | none => rfl
  | some flight =>
    dsimp only
    split_ifs
    · exact List.length_map ..
    · exact List.length_map ..
    · rfl

/-- `queue_requested_cancels` keeps the flights, and their number. -/
lemma queueRequestedCancels_keeps (d : UringDriver) (needed : Bool)
    (cancelRequested : RequestId → Bool) (order : List Flight) :
    Keeps d (d.queueRequestedCancels needed cancelRequested order) ∧
      (d.queueRequestedCancels needed cancelRequested order).flights.length =
        d.flights.length := by
  unfold queueRequestedCancels
  split_ifs with hneeded
  · generalize (order.filter fun flight => cancelRequested flight.task.requestId &&
      flight.cancellable).map (fun flight => flight.task.requestId) = requestIds
    induction requestIds generalizing d with
    | nil => exact ⟨.refl d, rfl⟩
    | cons requestId rest ih =>
      obtain ⟨hkeeps, hlength⟩ := ih (d.queueCancelIfActive requestId)
      exact ⟨(queueCancelIfActive_keeps d requestId).trans hkeeps,
        hlength.trans (length_queueCancelIfActive d requestId)⟩
  · exact ⟨.refl d, rfl⟩

/-- A flight that is not with the kernel has nothing to cancel. -/
lemma cancelWork_insertFlight_le (hactive : flight.active = false) :
    (d.insertFlight flight).cancelWork ≤ d.cancelWork := by
  have hcount : (d.insertFlight flight).flights.countP Flight.cancellable ≤
      d.flights.countP Flight.cancellable := by
    rw [insertFlight, List.countP_cons, Flight.cancellable, hactive]
    simpa using countP_removeFlight_le
  exact Nat.add_le_add_left hcount _

/-- `flights.insert` makes at most one flight more. -/
lemma length_insertFlight_le : (d.insertFlight flight).flights.length ≤ d.flights.length + 1 :=
  Nat.succ_le_succ (List.length_filter_le _ _)

/-- A command keeps the flights; one that holds a slot may become one. -/
lemma takeCommand_keeps (d : UringDriver) (cancelled : Bool) (command : DriverCommand) :
    Keeps d (d.takeCommand cancelled command) ∧
      (d.takeCommand cancelled command).flights.length ≤
        d.flights.length + command.isSubmit.toNat := by
  cases command with
  | submit task =>
    simp only [takeCommand]
    split_ifs
    · exact ⟨.refl d, Nat.le_add_right _ _⟩
    · exact ⟨.refl d, Nat.le_add_right _ _⟩
    · have hwork : (d.insertFlight ⟨task, 0, false, false⟩).cancelWork ≤ d.cancelWork :=
        cancelWork_insertFlight_le rfl
      refine ⟨⟨⟨rfl, rfl, rfl, rfl, rfl⟩, fun requestId hc => ?_, fun requestId ht => ?_, hwork⟩,
        length_insertFlight_le⟩
      · rcases carries_insertFlight (show (d.insertFlight ⟨task, 0, false, false⟩).Carries requestId
          from hc) with rfl | hc
        · exact .inr (List.mem_append_right _ List.mem_cons_self)
        · exact .inl hc
      · exact List.mem_append_left _ ht
  | cancel requestId =>
    exact ⟨queueCancelIfActive_keeps d requestId,
      (length_queueCancelIfActive d requestId).le.trans (Nat.le_add_right _ _)⟩
  | shutdown => exact ⟨⟨⟨rfl, rfl, rfl, rfl, rfl⟩, fun _ h => .inl h, fun _ h => h, Nat.le_refl _⟩,
      Nat.le_add_right _ _⟩

/-- **A completion of a request** takes its flight away, or lets it wait to be submitted again. -/
lemma completeTarget_keeps (d : UringDriver) (cancelled : Bool) (requestId : RequestId)
    (result : ℤ) :
    SameWake d (d.completeTarget cancelled requestId result) ∧
      (∀ other, (d.completeTarget cancelled requestId result).Carries other →
        (other ≠ requestId ∧ d.Carries other) ∨
          other ∈ (d.completeTarget cancelled requestId result).pendingTargets) ∧
      (∀ other ∈ d.pendingTargets,
        other ∈ (d.completeTarget cancelled requestId result).pendingTargets) ∧
      (d.completeTarget cancelled requestId result).cancelWork ≤ d.cancelWork ∧
      (d.completeTarget cancelled requestId result).flights.length ≤ d.flights.length := by
  unfold completeTarget
  cases hflight : d.flight? requestId with
  | none =>
    refine ⟨.refl d, fun other hc => .inl ⟨?_, hc⟩, fun _ h => h, Nat.le_refl _, Nat.le_refl _⟩
    rintro rfl
    exact not_carries_of_flight? hflight hc
  | some flight =>
    obtain ⟨hmem, hid⟩ := mem_of_flight? hflight
    have hwork : (d.removeFlight requestId).cancelWork ≤ d.cancelWork :=
      Nat.add_le_add_left countP_removeFlight_le _
    have hlength : (d.removeFlight requestId).flights.length ≤ d.flights.length :=
      List.length_filter_le _ _
    -- the flight is gone
    have hremoved : SameWake d (d.removeFlight requestId) ∧
        (∀ other, (d.removeFlight requestId).Carries other →
          (other ≠ requestId ∧ d.Carries other) ∨
            other ∈ (d.removeFlight requestId).pendingTargets) ∧
        (∀ other ∈ d.pendingTargets, other ∈ (d.removeFlight requestId).pendingTargets) ∧
        (d.removeFlight requestId).cancelWork ≤ d.cancelWork ∧
        (d.removeFlight requestId).flights.length ≤ d.flights.length :=
      ⟨⟨rfl, rfl, rfl, rfl, rfl⟩, fun other hc => .inl (carries_removeFlight.1 hc),
        fun _ h => h, hwork, hlength⟩
    dsimp only
    split_ifs
    · exact hremoved
    · exact hremoved
    · exact hremoved
    · exact hremoved
    · exact hremoved
    · -- it waits to be submitted again
      have hagain : ∀ f : Flight, f.task.requestId = requestId → f.active = false →
          ((d.removeFlight requestId).insertFlight f).cancelWork ≤ d.cancelWork :=
        fun f _ hf => (cancelWork_insertFlight_le hf).trans hwork
      refine ⟨⟨rfl, rfl, rfl, rfl, rfl⟩, fun other hc => ?_,
        fun other ht => List.mem_append_left _ ht, hagain _ hid rfl, ?_⟩
      · rcases carries_insertFlight (show ((d.removeFlight requestId).insertFlight
          { flight with transferred := flight.transferred + result.toNat, active := false }).Carries
            other from hc) with rfl | hc
        · exact .inr (List.mem_append_right _ (hid ▸ List.mem_cons_self))
        · exact .inl (carries_removeFlight.1 hc)
      · -- the flight that was there has made room
        have hlt : (d.removeFlight requestId).flights.length < d.flights.length := by
          refine List.length_filter_lt_length_iff_exists.2 ⟨flight, hmem, ?_⟩
          simp [hid]
        exact length_insertFlight_le.trans hlt

/-! ## What the driver submits -/

/-- The entries of cancellations that are collected, and what is left. -/
lemma collectCancels_spec (available : ℕ) (d : UringDriver) (requestIds : List RequestId) :
    ∃ entries rest, d.collectCancels available requestIds =
        { d with pendingEntries := d.pendingEntries ++ entries, pendingCancels := rest } ∧
      (∀ entry ∈ entries, entry.isCancel = true) ∧
      entries.length + rest.length ≤ requestIds.length ∧
      (rest = [] ∨ available ≤ (d.pendingEntries ++ entries).length) := by
  induction requestIds generalizing d with
  | nil =>
    refine ⟨[], [], ?_, nofun, Nat.le_refl _, .inl rfl⟩
    rw [collectCancels, List.append_nil]
  | cons requestId requestIds ih =>
    rw [collectCancels]
    by_cases hroom : d.pendingEntries.length < available
    · rw [if_pos hroom]
      by_cases hflight : (d.flight? requestId).isSome = true
      · rw [if_pos hflight]
        obtain ⟨entries, rest, heq, hcancels, hlength, hfull⟩ :=
          ih { d with pendingEntries := d.pendingEntries ++ [.cancel requestId] }
        refine ⟨.cancel requestId :: entries, rest, ?_, ?_, ?_, ?_⟩
        · rw [heq]
          simp only [List.append_assoc, List.singleton_append]
        · intro entry he
          rcases List.mem_cons.1 he with rfl | he
          · rfl
          · exact hcancels entry he
        · simp only [List.length_cons]
          omega
        · simpa only [List.append_assoc, List.singleton_append] using hfull
      · rw [if_neg hflight]
        obtain ⟨entries, rest, heq, hcancels, hlength, hfull⟩ := ih d
        exact ⟨entries, rest, heq, hcancels, hlength.trans (Nat.le_succ _), hfull⟩
    · rw [if_neg hroom]
      exact ⟨[], requestId :: requestIds, by rw [List.append_nil], nofun, by simp,
        .inr (by rw [List.append_nil]; exact Nat.le_of_not_lt hroom)⟩

/-- The entries of requests that are collected, and what is left. A flight whose request has been
taken off the list is collected, or it is cancelled and gone. -/
lemma collectTargets_spec (cancelRequested : RequestId → Bool) (available : ℕ) (d : UringDriver)
    (requestIds : List RequestId) :
    ∃ targets rest flights, d.collectTargets cancelRequested available requestIds =
        { d with
          flights := flights
          pendingEntries := d.pendingEntries ++ targets.map PendingEntry.target
          pendingTargets := rest } ∧
      flights.Sublist d.flights ∧
      (∀ flight ∈ flights, flight.task.requestId ∈ requestIds →
        flight.task.requestId ∈ targets ∨ flight.task.requestId ∈ rest) ∧
      (targets = [] ∨ d.pendingEntries.length < available) ∧
      (rest = [] ∨ available ≤ d.pendingEntries.length + targets.length) := by
  induction requestIds generalizing d with
  | nil =>
    refine ⟨[], [], d.flights, ?_, .refl _, fun _ _ h => absurd h List.not_mem_nil, .inl rfl,
      .inl rfl⟩
    rw [collectTargets, List.map_nil, List.append_nil]
  | cons requestId requestIds ih =>
    rw [collectTargets]
    by_cases hroom : d.pendingEntries.length < available
    · rw [if_pos hroom]
      cases hflight : d.flight? requestId with
      | none =>
        obtain ⟨targets, rest, flights, heq, hsub, hkept, hempty, hfull⟩ := ih d
        refine ⟨targets, rest, flights, heq, hsub, fun flight hmem hid => ?_, hempty, hfull⟩
        rcases List.mem_cons.1 hid with hid | hid
        · exact absurd ⟨flight, hsub.subset hmem, hid⟩ (not_carries_of_flight? hflight)
        · exact hkept flight hmem hid
      | some flight =>
        dsimp only
        by_cases hcancelled : (cancelRequested requestId && !flight.active) = true
        · rw [if_pos hcancelled]
          obtain ⟨targets, rest, flights, heq, hsub, hkept, hempty, hfull⟩ :=
            ih (d.removeFlight requestId)
          refine ⟨targets, rest, flights, heq, hsub.trans List.filter_sublist,
            fun f hmem hid => ?_, hempty, hfull⟩
          rcases List.mem_cons.1 hid with hid | hid
          · -- the flight has been removed
            obtain ⟨-, hne⟩ := List.mem_filter.1 (hsub.subset hmem)
            exact absurd hid (by simpa using hne)
          · exact hkept f hmem hid
        · rw [if_neg hcancelled]
          obtain ⟨targets, rest, flights, heq, hsub, hkept, -, hfull⟩ :=
            ih { d with pendingEntries := d.pendingEntries ++ [.target requestId] }
          refine ⟨requestId :: targets, rest, flights, ?_, hsub, fun f hmem hid => ?_,
            .inr hroom, ?_⟩
          · rw [heq]
            simp only [List.append_assoc, List.singleton_append, List.map_cons]
          · rcases List.mem_cons.1 hid with hid | hid
            · exact .inl (hid ▸ List.mem_cons_self)
            · exact (hkept f hmem hid).imp_left (List.mem_cons_of_mem _)
          · refine hfull.imp_right fun h => ?_
            simp only [List.length_append, List.length_cons, List.length_nil] at h ⊢
            omega
    · rw [if_neg hroom]
      refine ⟨[], requestId :: requestIds, d.flights, ?_, .refl _, fun _ _ h => .inr h, .inl rfl,
        .inr (Nat.le_of_not_lt hroom)⟩
      rw [List.map_nil, List.append_nil]

/-- The poll is submitted only when there is none. -/
lemma wakeEntries_eq (d : UringDriver) :
    (d.wakeEntries = [.wake] ∧ d.wakeActive = false) ∨ d.wakeEntries = [] := by
  rw [wakeEntries]
  split_ifs with h
  · simp only [Bool.and_eq_true, Bool.not_eq_true'] at h
    exact .inl ⟨rfl, h.1.2⟩
  · exact .inr rfl

/-- **The entries of `submit_pending`**: the poll, cancellations, and requests. Requests come after
all cancellations, and what is left over has found no room. -/
lemma collectEntries_spec (d : UringDriver) (cancelRequested : RequestId → Bool) (available : ℕ) :
    ∃ cancels restCancels targets restTargets flights,
      d.collectEntries cancelRequested available =
        { d with
          flights := flights
          pendingEntries := d.wakeEntries ++ cancels ++ targets.map PendingEntry.target
          pendingCancels := restCancels
          pendingTargets := restTargets } ∧
      (∀ entry ∈ cancels, entry.isCancel = true) ∧
      cancels.length + restCancels.length ≤ d.pendingCancels.length ∧
      flights.Sublist d.flights ∧
      (∀ flight ∈ flights, flight.task.requestId ∈ d.pendingTargets →
        flight.task.requestId ∈ targets ∨ flight.task.requestId ∈ restTargets) ∧
      (targets = [] ∨ restCancels = []) ∧
      (restTargets = [] ∨
        available ≤ (d.wakeEntries ++ cancels ++ targets.map PendingEntry.target).length) := by
  obtain ⟨cancels, restCancels, hcollect, hcancels, hlength, hfull⟩ :=
    collectCancels_spec available { d with pendingEntries := d.wakeEntries } d.pendingCancels
  obtain ⟨targets, restTargets, flights, htargets, hsub, hkept, hroom, hleft⟩ :=
    collectTargets_spec cancelRequested available
      { d with pendingEntries := d.wakeEntries ++ cancels, pendingCancels := restCancels }
      d.pendingTargets
  refine ⟨cancels, restCancels, targets, restTargets, flights, ?_, hcancels, hlength, hsub, hkept,
    ?_, ?_⟩
  · rw [collectEntries]
    dsimp only
    rw [hcollect]
    exact htargets
  · rcases hroom with hnone | hroom
    · exact .inl hnone
    · exact .inr (hfull.resolve_right (Nat.not_le_of_lt hroom))
  · refine hleft.imp_right fun h => ?_
    rw [List.length_append, List.length_map]
    exact h

/-- What `push_pending_entries` notes: which requests are with the kernel, and whether the poll
is. -/
lemma foldl_buildSubmissionEntry (entries : List PendingEntry) (d : UringDriver) :
    ∃ flights, entries.foldl buildSubmissionEntry d =
        { d with flights := flights, wakeActive := d.wakeActive || entries.contains .wake } ∧
      flights.length = d.flights.length ∧
      (∀ requestId, (∃ flight ∈ flights, flight.task.requestId = requestId) →
        d.Carries requestId) ∧
      ((∀ entry ∈ entries, entry.isTarget = false) → flights = d.flights) := by
  induction entries generalizing d with
  | nil =>
    exact ⟨d.flights, by simp, rfl, fun _ h => h, fun _ => rfl⟩
  | cons entry entries ih =>
    obtain ⟨flights, heq, hlength, hcarries, hsame⟩ := ih (d.buildSubmissionEntry entry)
    have hrest : (∀ e ∈ entry :: entries, e.isTarget = false) →
        ∀ e ∈ entries, e.isTarget = false := fun h e he => h e (List.mem_cons_of_mem _ he)
    refine ⟨flights, ?_, ?_, ?_, ?_⟩
    · rw [List.foldl_cons, heq]
      cases entry <;> simp [buildSubmissionEntry, modifyFlight]
    · rw [hlength]
      cases entry with
      | target requestId => exact List.length_map ..
      | cancel requestId => rfl
      | wake => rfl
      | wakeCancel => rfl
    · intro requestId hc
      have hbuilt := hcarries requestId hc
      cases entry with
      | target target =>
        exact (carries_modifyFlight (f := fun flight => { flight with active := true })
          fun _ => rfl).1 hbuilt
      | cancel requestId => exact hbuilt
      | wake => exact hbuilt
      | wakeCancel => exact hbuilt
    · intro h
      rw [hsame (hrest h)]
      cases entry with
      | target requestId => exact absurd (h _ List.mem_cons_self) nofun
      | cancel requestId => rfl
      | wake => rfl
      | wakeCancel => rfl

end UringDriver

/-! ## The ring -/

namespace UringState

/-- The words of the entries that have not been looked at as completions. -/
def outstanding (s : UringState) : List (BitVec 64) :=
  (s.sq ++ s.running).map PendingEntry.userData ++
    (s.driver.completionEvents ++ s.cq).map Prod.fst

/-- The kernel moves entries. -/
lemma perm_outstanding_of_kernel {s s' : UringState} (ha : KernelAct s s') :
    s'.outstanding.Perm s.outstanding := by
  cases ha with
  | take entry rest hsq =>
    simp only [outstanding, hsq]
    refine List.Perm.append_right _ (List.Perm.map _ ?_)
    rw [← List.append_assoc]
    exact List.perm_append_singleton entry _
  | complete entry result hentry _ =>
    simp only [outstanding, List.map_append, List.map_cons, List.map_nil]
    have herase : (entry.userData :: (s.running.erase entry).map PendingEntry.userData).Perm
        (s.running.map PendingEntry.userData) :=
      (List.perm_cons_erase hentry).symm.map _
    refine List.perm_iff_count.2 fun w => ?_
    have hcount := herase.count_eq w
    simp only [List.count_append, List.count_cons, List.count_nil] at hcount ⊢
    omega

/-- **The ring and what the driver thinks of it**: the poll and its cancellation are outstanding
when the driver says so, and once; a flight waits to be submitted or is outstanding; flights hold
slots; and the cancellations that can stand behind the last request are bounded. -/
structure RingInvariant (maxInFlight : ℕ) (s : UringState) : Prop where
  wake : s.outstanding.count wakeRequestId = s.driver.wakeActive.toNat
  wakeCancel : s.outstanding.count wakeCancelId = s.driver.wakeCancelPending.toNat
  completed : s.driver.wakeCancelCompleted = true → s.driver.wakeCancelSubmitted = true
  flights : ∀ requestId, s.driver.Carries requestId →
    requestId ∈ s.driver.pendingTargets ∨ requestId.get ∈ s.outstanding
  slots : s.slots ≤ maxInFlight
  cancels : cancelsBehindTargets s.sq + s.driver.cancelWork ≤ maxInFlight

variable {maxInFlight : ℕ} {s s' : UringState}

/-- Nothing has happened yet. -/
lemma ringInvariant_start (maxInFlight : ℕ) (ioPoll : Bool) :
    (start ioPoll).RingInvariant maxInFlight where
  wake := rfl
  wakeCancel := rfl
  completed := nofun
  flights := by
    rintro requestId ⟨flight, hmem, -⟩
    cases hmem
  slots := Nat.zero_le _
  cancels := Nat.zero_le _

namespace RingInvariant

/-- The driver goes on. -/
lemma goto (h : s.RingInvariant maxInFlight) (place : DriverAt) :
    (s.goto place).RingInvariant maxInFlight :=
  ⟨h.wake, h.wakeCancel, h.completed, h.flights, h.slots, h.cancels⟩

/-- Commands and cancellations. -/
lemma keeps (h : s.RingInvariant maxInFlight) (hd : s.driver.Keeps s'.driver)
    (hsq : s'.sq = s.sq) (hrunning : s'.running = s.running) (hcq : s'.cq = s.cq)
    (hslots : s'.slots ≤ maxInFlight) : s'.RingInvariant maxInFlight := by
  have hout : s'.outstanding = s.outstanding := by
    rw [outstanding, hsq, hrunning, hcq, hd.events]
    rfl
  constructor
  case wake => rw [hout, h.wake, hd.active]
  case wakeCancel => rw [hout, h.wakeCancel, hd.wakeCancelPending]
  case completed =>
    rw [hd.cancelSubmitted, hd.cancelCompleted]
    exact h.completed
  case flights =>
    intro requestId hc
    rw [hout]
    rcases hd.carries requestId hc with hc | ht
    · exact (h.flights requestId hc).imp_left (hd.targets requestId)
    · exact .inl ht
  case slots => exact hslots
  case cancels =>
    rw [hsq]
    exact (Nat.add_le_add_left hd.cancelWork _).trans h.cancels

/-- Entries move towards the driver. -/
lemma moved (h : s.RingInvariant maxInFlight) (hout : s'.outstanding.Perm s.outstanding)
    (hsq : cancelsBehindTargets s'.sq ≤ cancelsBehindTargets s.sq) (hqueue : s'.queue = s.queue)
    (hdriver : ∃ completionEvents, s'.driver = { s.driver with completionEvents }) :
    s'.RingInvariant maxInFlight := by
  obtain ⟨completionEvents, hdriver⟩ := hdriver
  constructor
  case wake => rw [hout.count_eq, h.wake, hdriver]
  case wakeCancel =>
    rw [hout.count_eq, h.wakeCancel, hdriver]
    rfl
  case completed =>
    rw [hdriver]
    exact h.completed
  case flights =>
    intro requestId hc
    rw [hdriver] at hc ⊢
    exact (h.flights requestId hc).imp_right hout.mem_iff.2
  case slots =>
    rw [UringState.slots, hqueue, hdriver]
    exact h.slots
  case cancels =>
    rw [hdriver]
    exact (Nat.add_le_add_right hsq _).trans h.cancels

/-- The kernel. -/
lemma kernel (h : s.RingInvariant maxInFlight) (ha : KernelAct s s') :
    s'.RingInvariant maxInFlight := by
  refine h.moved (perm_outstanding_of_kernel ha) ?_ ?_ ?_
  · cases ha with
    | take entry rest hsq =>
      rw [hsq]
      exact cancelsBehindTargets_cons_le entry rest
    | complete => exact Nat.le_refl _
  · cases ha with
    | take => rfl
    | complete => rfl
  · cases ha with
    | take => exact ⟨_, rfl⟩
    | complete => exact ⟨_, rfl⟩

/-! ### A completion is looked at -/

section Event

variable {userData : BitVec 64} {result : ℤ} {rest : List (BitVec 64 × ℤ)}

/-- A word is outstanding once more than without the event that is looked at. -/
lemma outstanding_event (hevents : s.driver.completionEvents = (userData, result) :: rest)
    (w : BitVec 64) :
    s.outstanding.count w =
      (s.setEvents rest).outstanding.count w + if userData = w then 1 else 0 := by
  simp only [outstanding, setEvents, hevents, List.count_append, List.map_append, List.map_cons,
    List.cons_append, List.count_cons, beq_iff_eq]
  omega

/-- What the event is not about stays outstanding. -/
lemma mem_outstanding_event (hevents : s.driver.completionEvents = (userData, result) :: rest)
    {w : BitVec 64} (hne : userData ≠ w) (hm : w ∈ s.outstanding) :
    w ∈ (s.setEvents rest).outstanding := by
  have hpos := List.count_pos_iff.2 hm
  rw [outstanding_event hevents, if_neg hne, Nat.add_zero] at hpos
  exact List.count_pos_iff.1 hpos

variable (h : s.RingInvariant maxInFlight)
  (hevents : s.driver.completionEvents = (userData, result) :: rest)

include h hevents

/-- A completion that tells the driver nothing. -/
lemma completeOther (hwake : userData ≠ wakeRequestId) (hwakeCancel : userData ≠ wakeCancelId)
    (htarget : ∀ requestId : RequestId, userData ≠ requestId.get) :
    (s.setEvents rest).RingInvariant maxInFlight where
  wake := by
    have hcount := h.wake
    rw [outstanding_event hevents, if_neg hwake] at hcount
    exact hcount
  wakeCancel := by
    have hcount := h.wakeCancel
    rw [outstanding_event hevents, if_neg hwakeCancel] at hcount
    exact hcount
  completed := h.completed
  flights requestId hc :=
    (h.flights requestId hc).imp_right (mem_outstanding_event hevents (htarget requestId))
  slots := h.slots
  cancels := h.cancels

/-- The poll has completed. -/
lemma completeWake (heq : userData = wakeRequestId) :
    ({ s.setEvents rest with
      driver := { (s.setEvents rest).driver with wakeActive := false } } :
        UringState).RingInvariant maxInFlight := by
  subst heq
  have hcount := outstanding_event hevents
  constructor
  case wake =>
    have hwake := h.wake
    rw [hcount, if_pos rfl] at hwake
    have hle := Bool.toNat_le s.driver.wakeActive
    exact (by omega : (s.setEvents rest).outstanding.count wakeRequestId = 0)
  case wakeCancel =>
    have hwakeCancel := h.wakeCancel
    rw [hcount, if_neg (by decide)] at hwakeCancel
    exact hwakeCancel
  case completed => exact h.completed
  case flights =>
    intro requestId hc
    refine (h.flights requestId hc).imp_right (mem_outstanding_event hevents ?_)
    exact (ne_wakeRequestId requestId.internal_eq).symm
  case slots => exact h.slots
  case cancels => exact h.cancels

/-- The cancellation of the poll has completed. -/
lemma completeWakeCancel (heq : userData = wakeCancelId) :
    ({ s.setEvents rest with
      driver := { (s.setEvents rest).driver with wakeCancelCompleted := true } } :
        UringState).RingInvariant maxInFlight := by
  subst heq
  have hcount := outstanding_event hevents
  have hwakeCancel := h.wakeCancel
  rw [hcount, if_pos rfl] at hwakeCancel
  have hle := Bool.toNat_le s.driver.wakeCancelPending
  have hpending : s.driver.wakeCancelPending = true := Bool.toNat_eq_one.1 (by omega)
  constructor
  case wake =>
    have hwake := h.wake
    rw [hcount, if_neg (by decide)] at hwake
    exact hwake
  case wakeCancel =>
    have hzero : (s.setEvents rest).outstanding.count wakeCancelId = 0 := by omega
    refine Eq.trans hzero ?_
    simp [UringDriver.wakeCancelPending]
  case completed =>
    rw [UringDriver.wakeCancelPending, Bool.and_eq_true] at hpending
    exact fun _ => hpending.1
  case flights =>
    intro requestId hc
    refine (h.flights requestId hc).imp_right (mem_outstanding_event hevents ?_)
    exact (ne_wakeCancelId requestId.internal_eq).symm
  case slots => exact h.slots
  case cancels => exact h.cancels

/-- A request has completed. -/
lemma completeTarget {requestId : RequestId} (heq : userData = requestId.get) (cancelled : Bool)
    (place : DriverAt) :
    ((s.setEvents rest).update ((s.setEvents rest).driver.completeTarget cancelled requestId result)
      place).RingInvariant maxInFlight := by
  obtain ⟨hsame, hcarries, htargets, hwork, hlength⟩ :=
    (s.setEvents rest).driver.completeTarget_keeps cancelled requestId result
  have hcount := outstanding_event hevents
  have hout : ((s.setEvents rest).update
      ((s.setEvents rest).driver.completeTarget cancelled requestId result) place).outstanding =
        (s.setEvents rest).outstanding := by
    rw [outstanding, UringState.update, hsame.events]
    rfl
  constructor
  case wake =>
    have hwake := h.wake
    rw [hcount, heq, if_neg (ne_wakeRequestId requestId.internal_eq)] at hwake
    rw [hout]
    exact hwake.trans (congrArg Bool.toNat hsame.active.symm)
  case wakeCancel =>
    have hwakeCancel := h.wakeCancel
    rw [hcount, heq, if_neg (ne_wakeCancelId requestId.internal_eq)] at hwakeCancel
    rw [hout]
    exact hwakeCancel.trans (congrArg Bool.toNat hsame.wakeCancelPending.symm)
  case completed =>
    rw [UringState.update, hsame.cancelSubmitted, hsame.cancelCompleted]
    exact h.completed
  case flights =>
    intro other hc
    rw [hout]
    rcases hcarries other hc with ⟨hother, hc⟩ | ht
    · refine (h.flights other hc).imp (htargets other)
        (mem_outstanding_event hevents fun hword => ?_)
      refine hother (RequestId.ext ?_)
      rw [← hword, heq]
    · exact .inl ht
  case slots => exact (Nat.add_le_add_left hlength _).trans h.slots
  case cancels => exact (Nat.add_le_add_left hwork _).trans h.cancels

/-- **A completion is looked at.** The kinds are told apart by their words, so that only the poll's
and its cancellation's are taken off their counts, and only its own flight off a request. -/
lemma completeEvent (woke wakeError cancelled : Bool) :
    ((s.setEvents rest).completeEvent woke wakeError cancelled userData result).RingInvariant
      maxInFlight := by
  have hplain : (completionKind userData = .cancel ∨ completionKind userData = .other) →
      (s.setEvents rest).RingInvariant maxInFlight := by
    intro hkind
    have hne : ∀ w, completionKind w ≠ .cancel → completionKind w ≠ .other → userData ≠ w := by
      rintro w hcancel hother rfl
      exact hkind.elim hcancel hother
    refine h.completeOther hevents (hne _ nofun nofun) (hne _ nofun nofun) fun requestId => ?_
    have htarget := completionKind_userData (.target requestId)
    refine hne _ (fun hc => ?_) fun hc => ?_
    · cases htarget.symm.trans hc
    · cases htarget.symm.trans hc
  rw [UringState.completeEvent]
  cases hkind : completionKind userData with
  | cancel => exact (hplain (.inl hkind)).goto _
  | other => exact (hplain (.inr hkind)).goto _
  | wake =>
    have hdone := h.completeWake hevents (eq_of_completionKind_wake hkind)
    dsimp only
    split_ifs
    · exact hdone.goto _
    · exact hdone.goto _
    · exact hdone.goto _
  | wakeCancel =>
    exact (h.completeWakeCancel hevents (eq_of_completionKind_wakeCancel hkind)).goto _
  | target requestId =>
    exact h.completeTarget hevents (eq_of_completionKind_target hkind) cancelled _

end Event

/-! ### Entries are submitted -/

/-- The cancellation of the poll is submitted. -/
lemma cancelWake (h : s.RingInvariant maxInFlight) (hcancels : s.driver.cancelsWake = true)
    (place : DriverAt) :
    ({ s with
      sq := s.sq ++ [.wakeCancel]
      driver := { s.driver with wakeCancelSubmitted := true }
      place } : UringState).RingInvariant maxInFlight := by
  have hsubmitted : s.driver.wakeCancelSubmitted = false := by
    simp only [UringDriver.cancelsWake, Bool.and_eq_true, Bool.not_eq_true'] at hcancels
    exact hcancels.2
  have hcompleted : s.driver.wakeCancelCompleted = false := by
    refine Bool.eq_false_iff.2 fun hc => ?_
    rw [h.completed hc] at hsubmitted
    cases hsubmitted
  have hcount : ∀ w : BitVec 64, ({ s with
      sq := s.sq ++ [.wakeCancel]
      driver := { s.driver with wakeCancelSubmitted := true }
      place } : UringState).outstanding.count w =
        s.outstanding.count w + if wakeCancelId = w then 1 else 0 := by
    intro w
    simp only [outstanding, List.count_append, List.map_append, List.map_cons, List.map_nil,
      List.count_cons, List.count_nil, PendingEntry.userData, beq_iff_eq]
    omega
  constructor
  case wake =>
    rw [hcount, if_neg (by decide)]
    exact h.wake
  case wakeCancel =>
    rw [hcount, if_pos rfl, h.wakeCancel]
    simp [UringDriver.wakeCancelPending, hsubmitted, hcompleted]
  case completed => exact fun _ => rfl
  case flights =>
    intro requestId hc
    refine (h.flights requestId hc).imp_right fun hm => List.count_pos_iff.1 ?_
    rw [hcount]
    exact Nat.add_pos_left (List.count_pos_iff.2 hm) _
  case slots => exact h.slots
  case cancels =>
    refine le_of_eq_of_le (congrArg (· + _) ?_) h.cancels
    rw [cancelsBehindTargets_append (by simp [PendingEntry.isTarget])]
    rfl

/-- A full queue holds a request or the cancellation of the poll. -/
lemma outstanding_of_full (h : s.RingInvariant maxInFlight)
    (hfull : ringEntries maxInFlight ≤ s.sq.length) :
    (∃ requestId : RequestId, requestId.get ∈ s.outstanding) ∨ wakeCancelId ∈ s.outstanding := by
  have hmem : ∀ entry ∈ s.sq, entry.userData ∈ s.outstanding := fun entry he =>
    List.mem_append_left _ (List.mem_map_of_mem (List.mem_append_left _ he))
  have hwake : s.sq.count .wake ≤ 1 := by
    have hle : s.sq.count .wake ≤ s.outstanding.count wakeRequestId := by
      refine (List.count_le_count_map (f := PendingEntry.userData)).trans ?_
      rw [outstanding, List.map_append, List.append_assoc, List.count_append]
      exact Nat.le_add_right _ _
    exact hle.trans (h.wake.le.trans (Bool.toNat_le _))
  rcases exists_target_of_full hfull hwake ((Nat.le_add_right _ _).trans h.cancels) with
    ⟨requestId, he⟩ | he
  · exact .inl ⟨requestId, hmem _ he⟩
  · exact .inr (hmem _ he)

end RingInvariant

/-- `submit_pending` looks at no completions. -/
lemma events_submitPending (s : UringState) (available : ℕ) (cancelRequested : RequestId → Bool) :
    (s.submitPending available cancelRequested).driver.completionEvents =
      s.driver.completionEvents := by
  rw [submitPending]
  split_ifs
  · rfl
  · obtain ⟨_, _, _, _, _, hcollect, -⟩ := s.driver.collectEntries_spec cancelRequested available
    obtain ⟨_, hpush, -⟩ := UringDriver.foldl_buildSubmissionEntry
      (s.driver.collectEntries cancelRequested available).pendingEntries
      (s.driver.collectEntries cancelRequested available)
    dsimp only
    rw [UringDriver.pushPendingEntries, hpush]
    dsimp only
    rw [hcollect]

/-- **Nothing starves**: a request that waits to be submitted waits for one that is outstanding, or
the driver is about to stop. -/
def Fed (s : UringState) : Prop :=
  s.driver.pendingTargets = [] ∨ (∃ requestId : RequestId, requestId.get ∈ s.outstanding) ∨
    wakeCancelId ∈ s.outstanding

namespace RingInvariant

/-- The poll among the entries that are submitted, and that its cancellation is not among them. -/
lemma count_entries (d : UringDriver) {others : List PendingEntry}
    (hothers : ∀ entry ∈ others, entry ≠ .wake ∧ entry ≠ .wakeCancel) :
    ((d.wakeEntries ++ others).map PendingEntry.userData).count wakeRequestId + d.wakeActive.toNat =
        (d.wakeActive || (d.wakeEntries ++ others).contains .wake).toNat ∧
      ((d.wakeEntries ++ others).map PendingEntry.userData).count wakeCancelId = 0 := by
  have hwake : (others.map PendingEntry.userData).count wakeRequestId = 0 := by
    refine List.count_eq_zero.2 fun hm => ?_
    obtain ⟨entry, he, heq⟩ := List.mem_map.1 hm
    exact (hothers entry he).1 (PendingEntry.userData_eq_wake.1 heq)
  have hwakeCancel : (others.map PendingEntry.userData).count wakeCancelId = 0 := by
    refine List.count_eq_zero.2 fun hm => ?_
    obtain ⟨entry, he, heq⟩ := List.mem_map.1 hm
    exact (hothers entry he).2 (PendingEntry.userData_eq_wakeCancel.1 heq)
  have hcontains : others.contains .wake = false := by
    refine Bool.eq_false_iff.2 fun hc => ?_
    exact (hothers _ (List.contains_iff_mem.1 hc)).1 rfl
  rcases d.wakeEntries_eq with ⟨hentries, hidle⟩ | hentries
  · rw [hentries, hidle, List.singleton_append, List.map_cons, List.count_cons, List.count_cons,
      hwake, hwakeCancel]
    simp only [List.contains_cons, beq_self_eq_true, Bool.true_or, Bool.or_true]
    decide
  · rw [hentries, List.nil_append, hwake, hwakeCancel, hcontains, Bool.or_false]
    exact ⟨Nat.zero_add _, rfl⟩

/-- Only requests are requests. -/
lemma isTarget_entries (d : UringDriver) {cancels : List PendingEntry}
    (hcancels : ∀ entry ∈ cancels, entry.isCancel = true) :
    ∀ entry ∈ d.wakeEntries ++ cancels, entry.isTarget = false := by
  intro entry he
  rcases List.mem_append.1 he with he | he
  · rcases d.wakeEntries_eq with ⟨hentries, -⟩ | hentries
    · rw [hentries, List.mem_singleton] at he
      rw [he]
      rfl
    · rw [hentries] at he
      cases he
  · have hcancel := hcancels entry he
    cases entry with
    | cancel requestId => rfl
    | target requestId => cases hcancel
    | wake => rfl
    | wakeCancel => rfl

/-- The cancellations behind the last request, after entries have been submitted: none if there is
a request among them. -/
lemma cancelsBehindTargets_entries (sq : List PendingEntry) (d : UringDriver)
    {cancels : List PendingEntry} (hcancels : ∀ entry ∈ cancels, entry.isCancel = true)
    (targets : List RequestId) :
    cancelsBehindTargets (sq ++ (d.wakeEntries ++ (cancels ++ targets.map PendingEntry.target))) =
      if targets = [] then cancelsBehindTargets sq + cancels.length else 0 := by
  split_ifs with htargets
  · have hwake : d.wakeEntries.countP PendingEntry.isCancel = 0 := by
      rcases d.wakeEntries_eq with ⟨hentries, -⟩ | hentries
      · rw [hentries]
        rfl
      · rw [hentries]
        rfl
    rw [htargets, List.map_nil, List.append_nil,
      cancelsBehindTargets_append (isTarget_entries d hcancels), List.countP_append, hwake,
      Nat.zero_add, List.countP_eq_length.2 hcancels]
  · -- the last entry is a request
    obtain ⟨others, requestId, rfl⟩ := (List.eq_nil_or_concat targets).resolve_left htargets
    rw [List.concat_eq_append, List.map_append, List.map_singleton, ← List.append_assoc,
      ← List.append_assoc, ← List.append_assoc]
    exact cancelsBehindTargets_target _ requestId

/-- `submit_pending` fills the queue, or leaves no request over. -/
lemma submitPending (h : s.RingInvariant maxInFlight) (cancelRequested : RequestId → Bool)
    (place : DriverAt) :
    ((s.submitPending (ringEntries maxInFlight - s.sq.length) cancelRequested).goto
        place).RingInvariant maxInFlight ∧
      ((s.submitPending (ringEntries maxInFlight - s.sq.length) cancelRequested).goto
        place).Fed := by
  rw [UringState.submitPending]
  by_cases havailable : ringEntries maxInFlight - s.sq.length = 0
  · rw [if_pos havailable]
    exact ⟨h.goto place, .inr (h.outstanding_of_full (Nat.sub_eq_zero_iff_le.1 havailable))⟩
  rw [if_neg havailable]
  obtain ⟨cancels, restCancels, targets, restTargets, flights, hcollect, hcancels, hlength, hsub,
    hkept, hroom, hleft⟩ := s.driver.collectEntries_spec cancelRequested
      (ringEntries maxInFlight - s.sq.length)
  rw [List.append_assoc] at hcollect hleft
  have hothers : ∀ entry ∈ cancels ++ targets.map PendingEntry.target,
      entry ≠ .wake ∧ entry ≠ .wakeCancel := by
    intro entry he
    rcases List.mem_append.1 he with he | he
    · have hcancel := hcancels entry he
      constructor
      · rintro rfl
        cases hcancel
      · rintro rfl
        cases hcancel
    · obtain ⟨requestId, -, rfl⟩ := List.mem_map.1 he
      exact ⟨nofun, nofun⟩
  obtain ⟨hwake, hwakeCancel⟩ := count_entries s.driver hothers
  have hbehind := cancelsBehindTargets_entries s.sq s.driver hcancels targets
  have htargetMem : ∀ requestId ∈ targets,
      PendingEntry.target requestId ∈
        s.driver.wakeEntries ++ (cancels ++ targets.map PendingEntry.target) :=
    fun requestId ht =>
      List.mem_append_right _ (List.mem_append_right _ (List.mem_map_of_mem ht))
  have hplain : targets = [] → ∀ entry ∈ s.driver.wakeEntries ++
      (cancels ++ targets.map PendingEntry.target), entry.isTarget = false := by
    rintro rfl
    rw [List.map_nil, List.append_nil]
    exact isTarget_entries s.driver hcancels
  generalize s.driver.wakeEntries ++ (cancels ++ targets.map PendingEntry.target) = entries at *
  obtain ⟨flights', hpush, hflights', hcarries, hsame⟩ :=
    UringDriver.foldl_buildSubmissionEntry entries
      { s.driver with
        flights := flights
        pendingEntries := entries
        pendingCancels := restCancels
        pendingTargets := restTargets }
  rw [hcollect]
  dsimp only
  rw [UringDriver.pushPendingEntries]
  dsimp only
  rw [hpush]
  generalize hs' : UringState.goto _ place = s'
  have hout : ∀ w : BitVec 64, s'.outstanding.count w =
      s.outstanding.count w + (entries.map PendingEntry.userData).count w := by
    intro w
    subst hs'
    simp only [UringState.goto, outstanding, List.count_append, List.map_append]
    omega
  have hmem : ∀ w, w ∈ s.outstanding → w ∈ s'.outstanding := by
    intro w hm
    refine List.count_pos_iff.1 ?_
    rw [hout]
    exact Nat.add_pos_left (List.count_pos_iff.2 hm) _
  have hnew : ∀ requestId ∈ targets, requestId.get ∈ s'.outstanding := by
    intro requestId ht
    refine List.count_pos_iff.1 ?_
    rw [hout]
    exact Nat.add_pos_right _ (List.count_pos_iff.2 (List.mem_map_of_mem (htargetMem _ ht)))
  have hinv : s'.RingInvariant maxInFlight := by
    constructor
    case wake =>
      rw [hout, h.wake, Nat.add_comm, hwake]
      subst hs'
      rfl
    case wakeCancel =>
      rw [hout, hwakeCancel, h.wakeCancel]
      subst hs'
      rfl
    case completed =>
      subst hs'
      exact h.completed
    case flights =>
      intro requestId hc
      have hcarried : ∃ flight ∈ flights, flight.task.requestId = requestId := by
        subst hs'
        exact hcarries requestId hc
      obtain ⟨flight, hflight, rfl⟩ := hcarried
      rcases h.flights _ ⟨flight, hsub.subset hflight, rfl⟩ with ht | hm
      · rcases hkept flight hflight ht with ht | ht
        · exact .inr (hnew _ ht)
        · refine .inl ?_
          subst hs'
          exact ht
      · exact .inr (hmem _ hm)
    case slots =>
      subst hs'
      exact (Nat.add_le_add_left (hflights'.le.trans hsub.length_le) _).trans h.slots
    case cancels =>
      subst hs'
      show cancelsBehindTargets (s.sq ++ entries) +
        (restCancels.length + flights'.countP Flight.cancellable) ≤ maxInFlight
      have hcancels := h.cancels
      rw [UringDriver.cancelWork] at hcancels
      rw [hbehind]
      by_cases hnone : targets = []
      · rw [if_pos hnone, hsame (hplain hnone)]
        dsimp only
        have hcount := hsub.countP_le (p := Flight.cancellable)
        omega
      · -- a request is submitted only after all cancellations
        rw [if_neg hnone, hroom.resolve_left hnone, List.length_nil]
        have hcount := List.countP_le_length (p := Flight.cancellable) (l := flights')
        have hslots := h.slots
        rw [UringState.slots] at hslots
        have hsub' := hsub.length_le
        dsimp only at hflights'
        omega
  refine ⟨hinv, ?_⟩
  rcases hleft with hnone | hfull
  · refine .inl ?_
    subst hs'
    exact hnone
  · refine .inr (hinv.outstanding_of_full ?_)
    subst hs'
    simp only [UringState.goto, List.length_append]
    omega

end RingInvariant

/-! ## Where the driver can stand -/

end UringState

/-- There may be completions that have not been looked at. -/
def DriverAt.midCompletion : DriverAt → Bool
  | completing _ _ | drainWakeBytes (.completion _) | stopped => true
  | _ => false

/-- The driver has just called `submit_pending`. -/
def DriverAt.submitted : DriverAt → Bool
  | submitRing _ | waiting | polling => true
  | _ => false

namespace UringState

/-- What holds where the driver stands. -/
structure Placed (s : UringState) : Prop where
  events : s.place.midCompletion = false → s.driver.completionEvents = []
  fed : s.place.submitted = true → s.Fed
  waiting : s.place = .waiting → s.driver.waitForCompletion = .waiting
  polling : s.place = .polling → s.driver.waitForCompletion = .polling
  draining : s.place = .drainWakeBytes .poll → s.driver.ioPoll = true

variable {maxInFlight : ℕ} {s s' : UringState}

/-- `poll` is for polled rings. -/
lemma ioPoll_of_polling {d : UringDriver} (h : d.waitForCompletion = .polling) :
    d.ioPoll = true := by
  unfold UringDriver.waitForCompletion at h
  split_ifs at h with hpoll
  exact hpoll

/-- The driver parks only after it has submitted. -/
lemma placed_afterSubmit (hevents : s.driver.completionEvents = []) (hfed : s.Fed)
    (submitted : ℕ) (commandsPending : Bool) :
    (s.goto (s.driver.afterSubmit submitted commandsPending)).Placed := by
  have hcases : s.driver.afterSubmit submitted commandsPending = .stopped ∨
      s.driver.afterSubmit submitted commandsPending = .drainCompletions ∨
      s.driver.afterSubmit submitted commandsPending = s.driver.waitForCompletion := by
    rw [UringDriver.afterSubmit]
    split_ifs
    · exact .inl rfl
    · exact .inr (.inr rfl)
    · exact .inr (.inl rfl)
  have hwait : s.driver.waitForCompletion = .polling ∨
      s.driver.waitForCompletion = .waiting ∨
      s.driver.waitForCompletion = .drainCompletions := by
    rw [UringDriver.waitForCompletion]
    split_ifs
    · exact .inl rfl
    · exact .inr (.inl rfl)
    · exact .inr (.inr rfl)
    · exact .inr (.inl rfl)
  refine ⟨fun _ => hevents, fun _ => hfed, fun h => ?_, fun h => ?_, fun h => ?_⟩
  · change s.driver.afterSubmit submitted commandsPending = .waiting at h
    rcases hcases with hc | hc | hc
    · cases hc.symm.trans h
    · cases hc.symm.trans h
    · exact hc.symm.trans h
  · change s.driver.afterSubmit submitted commandsPending = .polling at h
    rcases hcases with hc | hc | hc
    · cases hc.symm.trans h
    · cases hc.symm.trans h
    · exact hc.symm.trans h
  · change s.driver.afterSubmit submitted commandsPending = .drainWakeBytes .poll at h
    rcases hcases with hc | hc | hc
    · cases hc.symm.trans h
    · cases hc.symm.trans h
    · rcases hwait with hw | hw | hw
      · cases (hc.trans hw).symm.trans h
      · cases (hc.trans hw).symm.trans h
      · cases (hc.trans hw).symm.trans h

/-- At a place of the loop before `submit_pending`. -/
lemma Placed.of_loop (hevents : s.driver.completionEvents = [])
    (hsubmitted : s.place.submitted = false) (hdraining : s.place ≠ .drainWakeBytes .poll) :
    s.Placed := by
  refine ⟨fun _ => hevents, fun h => ?_, fun h => ?_, fun h => ?_, fun h => absurd h hdraining⟩
  · rw [h] at hsubmitted
    cases hsubmitted
  · rw [h] at hsubmitted
    cases hsubmitted
  · rw [h] at hsubmitted
    cases hsubmitted

/-- What follows `drain_commands` is in the loop. -/
lemma placed_afterDrain (hevents : s.driver.completionEvents = []) (d : UringDriver)
    (commandsPending : Bool) (pass : DrainPass)
    (hplace : s.place = d.afterDrain commandsPending pass) : s.Placed := by
  have hcases : s.place = .clearPending ∨ s.place = .queueRequestedCancels commandsPending := by
    rw [hplace]
    cases pass with
    | first woke =>
      rw [UringDriver.afterDrain]
      split_ifs
      · exact .inl rfl
      · exact .inr rfl
    | second => exact .inr rfl
  rcases hcases with hc | hc
  · exact .of_loop hevents (by rw [hc]; rfl) (by rw [hc]; nofun)
  · exact .of_loop hevents (by rw [hc]; rfl) (by rw [hc]; nofun)

/-- In the middle of the completions. -/
lemma Placed.of_midCompletion (h : s.place.midCompletion = true) : s.Placed := by
  refine ⟨fun hnot => ?_, fun hs => ?_, fun hw => ?_, fun hp => ?_, fun hd => ?_⟩
  · rw [h] at hnot
    cases hnot
  · generalize s.place = place at h hs
    cases place <;> first | (cases hs; done) | cases h
  · rw [hw] at h
    cases h
  · rw [hp] at h
    cases h
  · rw [hd] at h
    cases h

/-- **What every reachable state satisfies**, but for the threads that send commands. -/
structure Invariant (maxInFlight : ℕ) (s : UringState) : Prop
    extends s.RingInvariant maxInFlight, s.Placed

/-- Nothing has happened yet. -/
lemma invariant_start (maxInFlight : ℕ) (ioPoll : Bool) :
    (start ioPoll).Invariant maxInFlight :=
  ⟨ringInvariant_start maxInFlight ioPoll, .of_loop rfl rfl nofun⟩

namespace Invariant

/-- The kernel. -/
lemma kernel (h : s.Invariant maxInFlight) (ha : KernelAct s s') : s'.Invariant maxInFlight := by
  have hout : s'.outstanding.Perm s.outstanding := perm_outstanding_of_kernel ha
  have hfed : s.Fed → s'.Fed := by
    have hmem : ∀ w, w ∈ s.outstanding → w ∈ s'.outstanding := fun w => hout.mem_iff.2
    intro hs
    refine Or.imp ?_ (Or.imp (fun ⟨requestId, hm⟩ => ⟨requestId, hmem _ hm⟩) (hmem _)) hs
    cases ha with
    | take => exact id
    | complete => exact id
  refine ⟨h.toRingInvariant.kernel ha, ?_⟩
  cases ha with
  | take => exact ⟨h.events, fun hs => hfed (h.fed hs), h.waiting, h.polling, h.draining⟩
  | complete => exact ⟨h.events, fun hs => hfed (h.fed hs), h.waiting, h.polling, h.draining⟩

/-- The driver. -/
lemma driver (h : s.Invariant maxInFlight) (ha : DriverAct maxInFlight s s') :
    s'.Invariant maxInFlight := by
  have hring := h.toRingInvariant
  cases ha with
  | readCompletions hplace =>
    have hevents : s.driver.completionEvents = [] := h.events (by rw [hplace]; rfl)
    refine ⟨hring.moved ?_ (Nat.le_refl _) rfl ⟨_, rfl⟩, .of_midCompletion rfl⟩
    simp only [outstanding, hevents, List.append_nil, List.nil_append]
    exact .refl _
  | complete woke wakeError cancelled userData result rest hplace hevents =>
    refine ⟨hring.completeEvent hevents woke wakeError cancelled, .of_midCompletion ?_⟩
    rw [UringState.completeEvent]
    cases completionKind userData with
    | wake =>
      dsimp only
      split_ifs
      · rfl
      · rfl
      · rfl
    | wakeCancel => rfl
    | cancel => rfl
    | target requestId => rfl
    | other => rfl
  | completed woke hplace hevents => exact ⟨hring.goto _, .of_loop hevents rfl nofun⟩
  | readWakeBytes caller hplace hunread =>
    exact ⟨⟨hring.wake, hring.wakeCancel, hring.completed, hring.flights, hring.slots,
      hring.cancels⟩, ⟨h.events, h.fed, h.waiting, h.polling, h.draining⟩⟩
  | wakeBytesRead caller hplace hunread =>
    refine ⟨hring.goto _, ?_⟩
    cases caller with
    | completion wakeError => exact .of_midCompletion rfl
    | poll => exact .of_loop (h.events (by rw [hplace]; rfl)) rfl nofun
  | takeCommand pass taken cancelled command rest hplace htaken hqueue =>
    have hevents : s.driver.completionEvents = [] := h.events (by rw [hplace]; rfl)
    obtain ⟨hkeeps, hlength⟩ := s.driver.takeCommand_keeps cancelled command
    refine ⟨hring.keeps hkeeps rfl rfl rfl ?_, .of_loop (hkeeps.events.trans hevents) rfl nofun⟩
    have hslots := hring.slots
    rw [UringState.slots, hqueue, List.countP_cons] at hslots
    rw [UringState.slots]
    dsimp only
    cases hsubmit : command.isSubmit with
    | true =>
      rw [hsubmit, Bool.toNat_true] at hlength
      rw [hsubmit, if_pos rfl] at hslots
      omega
    | false =>
      rw [hsubmit, Bool.toNat_false] at hlength
      omega
  | queueEmpty pass taken hplace htaken hqueue =>
    have hevents : s.driver.completionEvents = [] := h.events (by rw [hplace]; rfl)
    exact ⟨hring.keeps ⟨⟨rfl, rfl, rfl, rfl, rfl⟩, fun _ hc => .inl hc, fun _ ht => ht,
      Nat.le_refl _⟩ rfl rfl rfl hring.slots, placed_afterDrain hevents _ false pass rfl⟩
  | budgetExhausted pass taken hplace htaken =>
    have hevents : s.driver.completionEvents = [] := h.events (by rw [hplace]; rfl)
    exact ⟨hring.goto _, placed_afterDrain hevents _ true pass rfl⟩
  | clearPending hplace =>
    exact ⟨⟨hring.wake, hring.wakeCancel, hring.completed, hring.flights, hring.slots,
      hring.cancels⟩, .of_loop (h.events (by rw [hplace]; rfl)) rfl nofun⟩
  | queueRequestedCancels commandsPending needed cancelRequested order hplace horder =>
    have hevents : s.driver.completionEvents = [] := h.events (by rw [hplace]; rfl)
    obtain ⟨hkeeps, hlength⟩ := s.driver.queueRequestedCancels_keeps needed cancelRequested order
    refine ⟨hring.keeps hkeeps rfl rfl rfl ?_, .of_loop (hkeeps.events.trans hevents) rfl nofun⟩
    exact (Nat.add_le_add_left hlength.le _).trans hring.slots
  | cancelWake commandsPending hplace hcancels hroom =>
    exact ⟨hring.cancelWake hcancels _, .of_loop (h.events (by rw [hplace]; rfl)) rfl nofun⟩
  | checkShutdown commandsPending hplace hcancels =>
    have hevents : s.driver.completionEvents = [] := h.events (by rw [hplace]; rfl)
    refine ⟨hring.goto _, ?_⟩
    split_ifs
    · exact .of_midCompletion rfl
    · exact .of_loop hevents rfl nofun
  | submitPending commandsPending cancelRequested hplace =>
    have hevents : s.driver.completionEvents = [] := h.events (by rw [hplace]; rfl)
    obtain ⟨hpushed, hfed⟩ := hring.submitPending cancelRequested (.submitRing commandsPending)
    refine ⟨hpushed, ⟨fun _ => ?_, fun _ => hfed, nofun, nofun, nofun⟩⟩
    exact (s.events_submitPending _ cancelRequested).trans hevents
  | submitRing commandsPending submitted hplace hsubmitted =>
    exact ⟨hring.goto _, placed_afterSubmit (h.events (by rw [hplace]; rfl))
      (h.fed (by rw [hplace]; rfl)) submitted commandsPending⟩
  | waited hplace hcq =>
    exact ⟨hring.goto _, .of_loop (h.events (by rw [hplace]; rfl)) rfl nofun⟩
  | readable hplace hunread =>
    refine ⟨hring.goto _,
      ⟨fun _ => h.events (by rw [hplace]; rfl), nofun, nofun, nofun, fun _ => ?_⟩⟩
    exact ioPoll_of_polling (h.polling hplace)
  | timedOut hplace =>
    exact ⟨hring.goto _, .of_loop (h.events (by rw [hplace]; rfl)) rfl nofun⟩
  | fail => exact ⟨hring.goto _, .of_midCompletion rfl⟩

end Invariant

end UringState

end Cache2
