import Cache2.Io.UringRing

set_option relaxedAutoImplicit false
set_option autoImplicit false

/-!
# Waking the ring driver

A command that the driver has not seen is noticed: the flag is set over it, or the thread that has
sent it is about to set the flag. While the flag is set there is a byte in the socket, a thread that
writes one, or the driver is on its way to the flag. A driver that does not listen to the socket
waits for something else to complete.

## Main definitions

* `Cache2.WakeInvariant` — what every reachable state satisfies.
* `Cache2.ParkEnds` — what ends a park.

## Main results

* `Cache2.uringDriver_wakes` — the driver is never parked over a command unless something ends the
  park.
* `Cache2.ParkEnds.ends` — what ends a park does so without further commands.
-/

namespace Cache2

open Interleaving

/-! ## The flag -/

/-- The thread has still to swap the flag, unless it finds it set. -/
def WakeCaller.beforeSwap : WakeCaller → Bool
  | loading | swapping => true
  | idle | writing _ => false

/-- The driver clears the flag before it can park. -/
def DriverAt.clears (ioPoll : Bool) : DriverAt → Bool
  | drainCompletions | drainWakeBytes .poll => ioPoll
  | completing woke _ | drainCommands (.first woke) _ => woke || ioPoll
  | drainWakeBytes (.completion _) | clearPending | stopped => true
  | drainCommands .second _ | queueRequestedCancels _ | checkShutdown _ | submitPending _
  | submitRing _ | waiting | polling => false

/-- The driver has found the channel empty since it cleared the flag, if it did. -/
def DriverAt.quiet : DriverAt → Bool
  | queueRequestedCancels commandsPending | checkShutdown commandsPending
  | submitPending commandsPending | submitRing commandsPending => !commandsPending
  | waiting | polling => true
  | drainCompletions | completing _ _ | drainWakeBytes _ | drainCommands _ _ | clearPending
  | stopped => false

/-- `run` waits only when no commands may be left. -/
lemma UringDriver.commandsPending_of_afterSubmit {d : UringDriver} {submitted : ℕ}
    {commandsPending : Bool} (h : (d.afterSubmit submitted commandsPending).quiet = true) :
    commandsPending = false := by
  unfold UringDriver.afterSubmit at h
  split_ifs at h with _ hpark
  · cases h
  · exact hpark.2
  · cases h

/-- A completion only takes the driver further in the completions. -/
lemma UringState.completeEvent_place (s : UringState) (woke wakeError cancelled : Bool)
    (userData : BitVec 64) (result : ℤ) :
    ∃ d place, s.completeEvent woke wakeError cancelled userData result = s.update d place ∧
      d.ioPoll = s.driver.ioPoll ∧
      ((∃ e, place = .completing woke e) ∨ (∃ e, place = .completing true e) ∨
        ∃ e, place = .drainWakeBytes (.completion e)) := by
  rw [completeEvent]
  cases completionKind userData with
  | wake =>
    dsimp only
    split_ifs
    · exact ⟨_, _, rfl, rfl, .inr (.inl ⟨_, rfl⟩)⟩
    · exact ⟨_, _, rfl, rfl, .inr (.inr ⟨_, rfl⟩)⟩
    · exact ⟨_, _, rfl, rfl, .inr (.inl ⟨_, rfl⟩)⟩
  | wakeCancel => exact ⟨_, _, rfl, rfl, .inl ⟨_, rfl⟩⟩
  | cancel => exact ⟨s.driver, _, rfl, rfl, .inl ⟨_, rfl⟩⟩
  | target requestId =>
    exact ⟨_, _, rfl, (s.driver.completeTarget_keeps cancelled requestId result).1.ioPoll,
      .inl ⟨_, rfl⟩⟩
  | other => exact ⟨s.driver, _, rfl, rfl, .inl ⟨_, rfl⟩⟩

/-- `submit_pending` is between the driver and the ring. -/
lemma UringState.submitPending_eq (s : UringState) (available : ℕ)
    (cancelRequested : RequestId → Bool) :
    ∃ sq driver, s.submitPending available cancelRequested = { s with sq, driver } := by
  rw [submitPending]
  split_ifs
  · exact ⟨_, _, rfl⟩
  · exact ⟨_, _, rfl⟩

/-- **What a step of the driver means to those who wake it**: it falls quiet only over an empty
channel, and takes bytes away only on its way to the flag. -/
lemma DriverAct.wake {maxInFlight : ℕ} {s s' : UringState} (ha : DriverAct maxInFlight s s')
    (h : s.Invariant maxInFlight) :
    (s'.place.quiet = true →
      s'.queue = [] ∨ (s.place.quiet = true ∧ s'.queue = s.queue ∧ s'.pending = s.pending)) ∧
    (s'.pending = true → s.pending = true ∧
      (s'.place.clears s'.driver.ioPoll = true ∨
        (s'.unread = s.unread ∧ s.place.clears s.driver.ioPoll = false))) := by
  cases ha with
  | readCompletions hplace =>
    refine ⟨(fun hq => by cases hq), fun hp => ⟨hp, ?_⟩⟩
    rw [hplace]
    cases hpoll : s.driver.ioPoll with
    | true => exact .inl rfl
    | false => exact .inr ⟨rfl, rfl⟩
  | complete woke wakeError cancelled userData result rest hplace hevents =>
    obtain ⟨d, place, heq, hpoll, hnext⟩ :=
      (s.setEvents rest).completeEvent_place woke wakeError cancelled userData result
    rw [heq, hplace]
    refine ⟨fun hq => ?_, fun hp => ⟨hp, ?_⟩⟩
    · change place.quiet = true at hq
      obtain ⟨e, rfl⟩ | ⟨e, rfl⟩ | ⟨e, rfl⟩ := hnext
      · cases hq
      · cases hq
      · cases hq
    · change place.clears d.ioPoll = true ∨ _
      rw [hpoll]
      obtain ⟨e, rfl⟩ | ⟨e, rfl⟩ | ⟨e, rfl⟩ := hnext
      · cases hclears : woke || s.driver.ioPoll with
        | true => exact .inl hclears
        | false => exact .inr ⟨rfl, hclears⟩
      · exact .inl rfl
      · exact .inl rfl
  | completed woke hplace hevents =>
    refine ⟨(fun hq => by cases hq), fun hp => ⟨hp, ?_⟩⟩
    rw [hplace]
    cases hclears : woke || s.driver.ioPoll with
    | true => exact .inl hclears
    | false => exact .inr ⟨rfl, hclears⟩
  | readWakeBytes caller hplace hunread =>
    refine ⟨fun hq => ?_, fun hp => ⟨hp, .inl ?_⟩⟩
    · rw [hplace] at hq
      cases hq
    · show s.place.clears s.driver.ioPoll = true
      rw [hplace]
      cases caller with
      | completion wakeError => rfl
      | poll => exact h.draining hplace
  | wakeBytesRead caller hplace hunread =>
    refine ⟨fun hq => ?_, fun hp => ⟨hp, .inl ?_⟩⟩
    · cases caller with
      | completion wakeError => cases hq
      | poll => cases hq
    · cases caller with
      | completion wakeError => rfl
      | poll => exact h.draining hplace
  | takeCommand pass taken cancelled command rest hplace htaken hqueue =>
    refine ⟨(fun hq => by cases hq), fun hp => ⟨hp, ?_⟩⟩
    rw [hplace, (s.driver.takeCommand_keeps cancelled command).1.ioPoll]
    cases pass with
    | first woke =>
      cases hclears : woke || s.driver.ioPoll with
      | true => exact .inl hclears
      | false => exact .inr ⟨rfl, hclears⟩
    | second => exact .inr ⟨rfl, rfl⟩
  | queueEmpty pass taken hplace htaken hqueue =>
    refine ⟨fun _ => .inl hqueue, fun hp => ⟨hp, ?_⟩⟩
    rw [hplace]
    cases pass with
    | first woke =>
      cases hclears : woke || s.driver.ioPoll with
      | true =>
        refine .inl ?_
        simp only [UringState.update, UringDriver.afterDrain, hclears, if_true]
        rfl
      | false => exact .inr ⟨rfl, hclears⟩
    | second => exact .inr ⟨rfl, rfl⟩
  | budgetExhausted pass taken hplace htaken =>
    rw [hplace]
    cases pass with
    | first woke =>
      show ((s.driver.afterDrain true (.first woke)).quiet = true → _) ∧ (s.pending = true → _ ∧
        ((s.driver.afterDrain true (.first woke)).clears s.driver.ioPoll = true ∨ _))
      rw [UringDriver.afterDrain]
      cases hclears : woke || s.driver.ioPoll with
      | true => exact ⟨(fun hq => by cases hq), fun hp => ⟨hp, .inl rfl⟩⟩
      | false => exact ⟨(fun hq => by cases hq), fun hp => ⟨hp, .inr ⟨rfl, hclears⟩⟩⟩
    | second => exact ⟨(fun hq => by cases hq), fun hp => ⟨hp, .inr ⟨rfl, rfl⟩⟩⟩
  | clearPending hplace => exact ⟨(fun hq => by cases hq), (fun hp => by cases hp)⟩
  | queueRequestedCancels commandsPending needed cancelRequested order hplace horder =>
    rw [hplace]
    exact ⟨fun hq => .inr ⟨hq, rfl, rfl⟩, fun hp => ⟨hp, .inr ⟨rfl, rfl⟩⟩⟩
  | cancelWake commandsPending hplace hcancels hroom =>
    rw [hplace]
    exact ⟨fun hq => .inr ⟨hq, rfl, rfl⟩, fun hp => ⟨hp, .inr ⟨rfl, rfl⟩⟩⟩
  | checkShutdown commandsPending hplace hcancels =>
    rw [hplace]
    refine ⟨fun hq => .inr ⟨?_, rfl, rfl⟩, fun hp => ⟨hp, .inr ⟨rfl, rfl⟩⟩⟩
    rw [UringState.goto] at hq
    split_ifs at hq
    · cases hq
    · exact hq
  | submitPending commandsPending cancelRequested hplace =>
    obtain ⟨sq, driver, heq⟩ :=
      s.submitPending_eq (ringEntries maxInFlight - s.sq.length) cancelRequested
    rw [hplace, heq]
    exact ⟨fun hq => .inr ⟨hq, rfl, rfl⟩, fun hp => ⟨hp, .inr ⟨rfl, rfl⟩⟩⟩
  | submitRing commandsPending submitted hplace hsubmitted =>
    rw [hplace]
    refine ⟨fun hq => .inr ⟨?_, rfl, rfl⟩, fun hp => ⟨hp, .inr ⟨rfl, rfl⟩⟩⟩
    have hnone := UringDriver.commandsPending_of_afterSubmit hq
    rw [hnone]
    rfl
  | waited hplace hcq =>
    rw [hplace]
    exact ⟨(fun hq => by cases hq), fun hp => ⟨hp, .inr ⟨rfl, rfl⟩⟩⟩
  | readable hplace hunread =>
    rw [hplace]
    exact ⟨(fun hq => by cases hq), fun hp => ⟨hp, .inr ⟨rfl, rfl⟩⟩⟩
  | timedOut hplace =>
    rw [hplace]
    exact ⟨(fun hq => by cases hq), fun hp => ⟨hp, .inr ⟨rfl, rfl⟩⟩⟩
  | fail => exact ⟨(fun hq => by cases hq), fun hp => ⟨hp, .inl rfl⟩⟩

/-! ## What ends a park -/

/-- The driver is parked. -/
def UringState.Parked (s : UringState) : Prop := s.place = .waiting ∨ s.place = .polling

/-- A byte ends the park: the driver polls the socket itself, or through the ring, and that poll has
not been asked to be cancelled. -/
def UringState.Listening (s : UringState) : Prop :=
  s.place = .polling ∨
    (s.place = .waiting ∧ wakeRequestId ∈ s.outstanding ∧ s.driver.wakeCancelSubmitted = false)

/-- The driver waits for a completion that does not depend on the wake socket: of a request, of the
cancellation of the poll, or of the poll that this cancels. -/
def UringState.Awaiting (s : UringState) : Prop :=
  s.place = .waiting ∧
    ((∃ requestId : RequestId, requestId.get ∈ s.outstanding) ∨ wakeCancelId ∈ s.outstanding ∨
      (wakeRequestId ∈ s.outstanding ∧ s.driver.wakeCancelSubmitted = true))

/-- **What ends a park.** -/
inductive ParkEnds (c : Pool UringState WakeCaller) : Prop
  /-- There is a byte to read. -/
  | byte (h : c.shared.Listening) (hunread : 0 < c.shared.unread)
  /-- A thread has set the flag and has still to write its byte. -/
  | writing (h : c.shared.Listening) (i attempt : ℕ) (hi : c.At i (.writing attempt))
  /-- The flag is clear, and a thread is about to swap it. -/
  | swapping (h : c.shared.Listening) (hpending : c.shared.pending = false) (i : ℕ)
      (t : WakeCaller) (hi : c.At i t) (ht : t.beforeSwap = true)
  /-- A completion is to come. -/
  | completion (h : c.shared.Awaiting)

/-- **What every reachable state satisfies.** Over commands that the driver has not seen the flag is
set, or will be; and while the flag is set there is a byte, or there will be, or the driver is on
its way to the flag. -/
structure WakeInvariant (maxInFlight : ℕ) (c : Pool UringState WakeCaller) : Prop where
  shared : c.shared.Invariant maxInFlight
  noticed : c.shared.place.quiet = true → c.shared.queue ≠ [] →
    c.shared.pending = true ∨ ∃ i t, c.At i t ∧ t.beforeSwap = true
  pending : c.shared.pending = true →
    0 < c.shared.unread ∨ (∃ i t, c.At i t ∧ ∃ attempt, t = .writing attempt) ∨
      c.shared.place.clears c.shared.driver.ioPoll = true

section Invariant

variable {maxInFlight : ℕ} {s s' : UringState} {t t' : WakeCaller}
  {c c' : Pool UringState WakeCaller}

/-- A thread that sends commands does not touch the ring. -/
lemma UringState.Invariant.caller (h : s.Invariant maxInFlight)
    (ha : WakeAct maxInFlight s t s' t') : s'.Invariant maxInFlight := by
  have hring := h.toRingInvariant
  have hplaced := h.toPlaced
  cases ha with
  | send command hconnected hroom hslot =>
    refine ⟨hring.keeps (.refl _) rfl rfl rfl ?_, ⟨hplaced.events, hplaced.fed, hplaced.waiting,
      hplaced.polling, hplaced.draining⟩⟩
    have hslots := hring.slots
    rw [UringState.slots] at hslots hslot ⊢
    rw [List.countP_append, List.countP_singleton]
    dsimp only
    split_ifs with hsubmit
    · have := hslot hsubmit
      omega
    · exact hslots
  | wake => exact h
  | disconnect =>
    exact ⟨hring.keeps (.refl _) rfl rfl rfl hring.slots, ⟨hplaced.events, hplaced.fed,
      hplaced.waiting, hplaced.polling, hplaced.draining⟩⟩
  | load => exact h
  | swap =>
    exact ⟨hring.keeps (.refl _) rfl rfl rfl hring.slots, ⟨hplaced.events, hplaced.fed,
      hplaced.waiting, hplaced.polling, hplaced.draining⟩⟩
  | write attempt =>
    exact ⟨hring.keeps (.refl _) rfl rfl rfl hring.slots, ⟨hplaced.events, hplaced.fed,
      hplaced.waiting, hplaced.polling, hplaced.draining⟩⟩
  | interrupted attempt _ => exact h
  | wouldBlock attempt _ => exact h

namespace WakeInvariant

/-- A thread comes into being. -/
lemma spawn (h : WakeInvariant maxInFlight c) (t : WakeCaller) :
    WakeInvariant maxInFlight (c.spawn t) where
  shared := h.shared
  noticed hq hqueue := (h.noticed hq hqueue).imp_right Pool.exists_at_spawn
  pending hp := (h.pending hp).imp_right (Or.imp_left Pool.exists_at_spawn)

/-- A thread that sends commands acts. -/
lemma caller (h : WakeInvariant maxInFlight c) {i : ℕ} (hi : c.At i t)
    (ha : WakeAct maxInFlight c.shared t s' t') : WakeInvariant maxInFlight (c.act i s' t') := by
  have hself : (c.act i s' t').At i t' := (Pool.at_act hi).2 (.inl ⟨rfl, rfl⟩)
  refine ⟨h.shared.caller ha, fun hq hqueue => ?_, fun hp => ?_⟩
  · cases ha with
    | send command _ _ _ => exact .inr ⟨i, _, hself, rfl⟩
    | wake => exact .inr ⟨i, _, hself, rfl⟩
    | disconnect => exact (h.noticed hq hqueue).imp_right (Pool.exists_at_act hi nofun)
    | load =>
      cases hpending : c.shared.pending with
      | true => exact .inl hpending
      | false =>
        rw [hpending] at hself
        exact .inr ⟨i, _, hself, rfl⟩
    | swap => exact .inl rfl
    | write attempt => exact (h.noticed hq hqueue).imp_right (Pool.exists_at_act hi nofun)
    | interrupted attempt _ => exact (h.noticed hq hqueue).imp_right (Pool.exists_at_act hi nofun)
    | wouldBlock attempt _ => exact (h.noticed hq hqueue).imp_right (Pool.exists_at_act hi nofun)
  · cases ha with
    | send command _ _ _ =>
      exact (h.pending hp).imp_right (Or.imp_left (Pool.exists_at_act hi nofun))
    | wake => exact (h.pending hp).imp_right (Or.imp_left (Pool.exists_at_act hi nofun))
    | disconnect => exact (h.pending hp).imp_right (Or.imp_left (Pool.exists_at_act hi nofun))
    | load => exact (h.pending hp).imp_right (Or.imp_left (Pool.exists_at_act hi nofun))
    | swap =>
      cases hpending : c.shared.pending with
      | true =>
        exact (h.pending hpending).imp_right (Or.imp_left (Pool.exists_at_act hi nofun))
      | false =>
        rw [hpending] at hself
        exact .inr (.inl ⟨i, _, hself, 0, rfl⟩)
    | write attempt => exact .inl (Nat.succ_pos _)
    | interrupted attempt _ => exact .inr (.inl ⟨i, _, hself, _, rfl⟩)
    | wouldBlock attempt hunread => exact .inl hunread

/-- The kernel acts. -/
lemma kernel (h : WakeInvariant maxInFlight c) (ha : KernelAct c.shared s') :
    WakeInvariant maxInFlight ⟨s', c.threads⟩ := by
  refine ⟨h.shared.kernel ha, ?_, ?_⟩
  · cases ha with
    | take => exact h.noticed
    | complete => exact h.noticed
  · cases ha with
    | take => exact h.pending
    | complete => exact h.pending

/-- The driver acts. -/
lemma driver (h : WakeInvariant maxInFlight c) (ha : DriverAct maxInFlight c.shared s') :
    WakeInvariant maxInFlight ⟨s', c.threads⟩ := by
  obtain ⟨hquiet, hflag⟩ := ha.wake h.shared
  refine ⟨h.shared.driver ha, fun hq hqueue => ?_, fun hp => ?_⟩
  · rcases hquiet hq with hnone | ⟨hq, hsame, hpending⟩
    · exact absurd hnone hqueue
    · refine (h.noticed hq (hsame ▸ hqueue)).imp_left fun hp => ?_
      exact hpending.trans hp
  · obtain ⟨hp, hclears | ⟨hunread, hclears⟩⟩ := hflag hp
    · exact .inr (.inr hclears)
    · rcases h.pending hp with hbyte | hwriting | hc
      · exact .inl (hunread ▸ hbyte)
      · exact .inr (.inl hwriting)
      · rw [hclears] at hc
        cases hc

/-- What a step preserves. -/
lemma step (h : WakeInvariant maxInFlight c) (hstep : UringStep maxInFlight c c') :
    WakeInvariant maxInFlight c' := by
  cases hstep with
  | unattended _ hu =>
    cases hu with
    | caller _ hc =>
      cases hc with
      | spawn t _ => exact h.spawn t
      | act i t t' s' hi ha => exact h.caller hi ha
    | kernel s' ha => exact h.kernel ha
  | driver s' ha => exact h.driver ha

/-- **Every reachable state** satisfies the invariant. -/
theorem of_reachable {ioPoll : Bool} (hreach : UringReachable maxInFlight ioPoll c) :
    WakeInvariant maxInFlight c := by
  induction hreach with
  | refl =>
    refine ⟨UringState.invariant_start maxInFlight ioPoll, ?_, ?_⟩
    · intro hq
      cases hq
    · intro hp
      cases hp
  | tail _ hstep ih => exact ih.step hstep

end WakeInvariant

/-- **The ring wakes the driver** that does not listen to the socket. -/
lemma UringState.Invariant.awaiting (h : s.Invariant maxInFlight) (hplace : s.place = .waiting)
    (hlistening : ¬ s.Listening) : s.Awaiting := by
  refine ⟨hplace, ?_⟩
  have hfed := h.fed (by rw [hplace]; rfl)
  have hwait := h.waiting hplace
  by_cases hflights : s.driver.flights = []
  · -- the poll or its cancellation is outstanding
    have hactive : s.driver.wakeActive = true ∨ s.driver.wakeCancelPending = true := by
      rw [UringDriver.waitForCompletion, hflights] at hwait
      simp only [List.isEmpty_nil, if_true, Bool.and_true] at hwait
      split_ifs at hwait with _ hidle
      simpa [Decidable.or_iff_not_imp_left] using hidle
    rcases hactive with hactive | hcancel
    · have hmem : wakeRequestId ∈ s.outstanding := by
        refine List.count_pos_iff.1 ?_
        rw [h.wake, hactive]
        exact Nat.one_pos
      refine .inr (.inr ⟨hmem, ?_⟩)
      cases hsubmitted : s.driver.wakeCancelSubmitted with
      | true => rfl
      | false => exact absurd (.inr ⟨hplace, hmem, hsubmitted⟩) hlistening
    · refine .inr (.inl (List.count_pos_iff.1 ?_))
      rw [h.wakeCancel, hcancel]
      exact Nat.one_pos
  · -- a request is outstanding, or something keeps it from being submitted
    obtain ⟨flight, hmem⟩ := List.exists_mem_of_ne_nil _ hflights
    rcases h.flights _ ⟨flight, hmem, rfl⟩ with ht | hm
    · rcases hfed with hnone | hrequest | hcancel
      · rw [hnone] at ht
        cases ht
      · exact .inl hrequest
      · exact .inr (.inl hcancel)
    · exact .inl ⟨_, hm⟩

end Invariant

/-- **The driver is woken.** In every interleaving of threads that send commands with the driver and
the kernel, whether the ring is polled or not, the driver is parked over a command only if a byte, a
thread that has still to write its byte, or a completion ends the park. -/
theorem uringDriver_wakes {maxInFlight : ℕ} {ioPoll : Bool} {c : Pool UringState WakeCaller}
    (hreach : UringReachable maxInFlight ioPoll c) (hparked : c.shared.Parked)
    (hqueue : c.shared.queue ≠ []) : ParkEnds c := by
  have h := WakeInvariant.of_reachable hreach
  by_cases hlistening : c.shared.Listening
  · have hquiet : c.shared.place.quiet = true := by
      rcases hparked with hplace | hplace
      · rw [hplace]
        rfl
      · rw [hplace]
        rfl
    have hclears : c.shared.place.clears c.shared.driver.ioPoll = false := by
      rcases hparked with hplace | hplace
      · rw [hplace]
        rfl
      · rw [hplace]
        rfl
    cases hpending : c.shared.pending with
    | true =>
      rcases h.pending hpending with hunread | ⟨i, t, hi, attempt, rfl⟩ | hc
      · exact .byte hlistening hunread
      · exact .writing hlistening i attempt hi
      · rw [hclears] at hc
        cases hc
    | false =>
      rcases h.noticed hquiet hqueue with hp | ⟨i, t, hi, ht⟩
      · rw [hpending] at hp
        cases hp
      · exact .swapping hlistening hpending i t hi ht
  · rcases hparked with hplace | hplace
    · exact .completion (h.shared.awaiting hplace hlistening)
    · exact absurd (.inl hplace) hlistening

/-- A driver with nothing to do parks in the ring, and a command is sent. -/
theorem uringDriver_wakes_sample :
    ∃ c, UringReachable 1 false c ∧ c.shared.Parked ∧ c.shared.queue = [.shutdown] ∧
      ParkEnds c := by
  have hstart : UringReachable 1 false ⟨.start false, []⟩ := .refl
  have hread := hstart.driver (.readCompletions _ rfl)
  have hnone := hread.driver (.completed _ false rfl rfl)
  have hempty := hnone.driver (.queueEmpty _ (.first false) 0 rfl (by decide) rfl)
  have hscanned := hempty.driver
    (.queueRequestedCancels _ false false (fun _ => false) [] rfl (.refl _))
  obtain ⟨s, hs⟩ : ∃ s : UringState,
      s = ⟨[], true, false, 0, [], [], [], .new false, .submitPending false⟩ := ⟨_, rfl⟩
  have hchecked : UringReachable 1 false ⟨s, []⟩ :=
    hs ▸ hscanned.driver (.checkShutdown _ false rfl rfl)
  have hpushed := hchecked.driver (.submitPending s false (fun _ => false) (hs ▸ rfl))
  have hsubmitted : s.submitPending (ringEntries 1 - s.sq.length) (fun _ => false) =
      { s with
        sq := [.wake]
        driver := { s.driver with wakeActive := true, pendingEntries := [.wake] } } := by
    have hroom : ringEntries 1 - 0 ≠ 0 := Nat.sub_ne_zero_of_lt (Nat.two_pow_pos _)
    subst hs
    exact if_neg hroom
  rw [hsubmitted] at hpushed
  subst hs
  have htaken := hpushed.kernel (.take _ .wake [] rfl)
  have hparked := htaken.driver (.submitRing _ false 0 rfl fun _ => rfl)
  have hspawned := hparked.caller
    (.spawn _ WakeCaller.idle (show WakeCaller.idle = .idle from rfl))
  have hsent := hspawned.caller
    (.act _ 0 _ _ _ rfl (.send _ .shutdown rfl (by decide) (fun h => nomatch h)))
  exact ⟨_, hsent, .inl rfl, rfl, uringDriver_wakes hsent (.inl rfl) (List.cons_ne_nil _ _)⟩

/-! ### The park does end -/

/-- The call that the driver is parked in returns. -/
def UringState.ParkOver (s : UringState) : Prop :=
  (s.place = .waiting ∧ s.cq ≠ []) ∨ (s.place = .polling ∧ 0 < s.unread)

/-- Others bring the driver's park to its end, without sending more. -/
def EndsPark (maxInFlight : ℕ) (c : Pool UringState WakeCaller) : Prop :=
  ∃ c', Relation.ReflTransGen (UnattendedStep maxInFlight) c c' ∧
    c'.shared.queue = c.shared.queue ∧ c'.shared.ParkOver

section Ends

variable {maxInFlight : ℕ} {c : Pool UringState WakeCaller}

/-- The kernel takes what has been submitted. -/
lemma takeAll (sq : List PendingEntry) :
    ∀ s : UringState, s.sq = sq → Relation.ReflTransGen (UnattendedStep maxInFlight)
      ⟨s, c.threads⟩ ⟨{ s with sq := [], running := s.running ++ sq }, c.threads⟩ := by
  induction sq with
  | nil =>
    intro s hs
    rw [List.append_nil, ← hs]
  | cons entry rest ih =>
    intro s hs
    refine .head (.kernel _ _ (.take s entry rest hs)) ?_
    have hrest := ih { s with sq := rest, running := s.running ++ [entry] } rfl
    rw [List.append_assoc] at hrest
    exact hrest

/-- What is outstanding comes to an end; the poll without an error, if there is a byte. -/
lemma EndsPark.of_outstanding {w : BitVec 64} (result : ℤ)
    (hevents : c.shared.driver.completionEvents = []) (hplace : c.shared.place = .waiting)
    (hw : w ∈ c.shared.outstanding) (hwake : w = wakeRequestId → 0 ≤ result → 0 < c.shared.unread) :
    EndsPark maxInFlight c := by
  rw [UringState.outstanding, hevents, List.nil_append] at hw
  rcases List.mem_append.1 hw with hw | hw
  · obtain ⟨entry, he, rfl⟩ := List.mem_map.1 hw
    have hrunning : entry ∈ c.shared.running ++ c.shared.sq :=
      (List.mem_append.1 he).elim (List.mem_append_right _) (List.mem_append_left _)
    refine ⟨_, (takeAll c.shared.sq c.shared rfl).tail
      (.kernel _ _ (.complete _ entry result hrunning fun heq => hwake ?_)), rfl, .inl ⟨hplace, ?_⟩⟩
    · rw [heq]
      rfl
    · exact List.append_ne_nil_of_right_ne_nil _ (List.cons_ne_nil _ _)
  · refine ⟨c, .refl, rfl, .inl ⟨hplace, fun hnone => ?_⟩⟩
    rw [hnone] at hw
    cases hw

/-- A byte ends the park of a driver that listens. -/
lemma EndsPark.of_byte (hevents : c.shared.driver.completionEvents = []) (h : c.shared.Listening)
    (hunread : 0 < c.shared.unread) : EndsPark maxInFlight c := by
  rcases h with hplace | ⟨hplace, hwake, -⟩
  · exact ⟨c, .refl, rfl, .inr ⟨hplace, hunread⟩⟩
  · exact .of_outstanding 1 hevents hplace hwake fun _ _ => hunread

/-- Steps of threads that send no more may come first. -/
lemma EndsPark.act {i : ℕ} {t t' : WakeCaller} {s' : UringState} (hi : c.At i t)
    (ha : WakeAct maxInFlight c.shared t s' t') (hqueue : s'.queue = c.shared.queue)
    (h : EndsPark maxInFlight (c.act i s' t')) : EndsPark maxInFlight c := by
  obtain ⟨c', hsteps, hsame, hover⟩ := h
  exact ⟨c', .head (.caller _ _ (.act c i t t' s' hi ha)) hsteps, hsame.trans hqueue, hover⟩

/-- A thread that has set the flag writes its byte. -/
lemma EndsPark.of_writing (hevents : c.shared.driver.completionEvents = [])
    (h : c.shared.Listening) {i attempt : ℕ} (hi : c.At i (.writing attempt)) :
    EndsPark maxInFlight c :=
  .act hi (.write _ attempt) rfl (.of_byte hevents h (Nat.succ_pos _))

/-- A thread that finds the flag clear sets it. -/
lemma EndsPark.of_swapping (hevents : c.shared.driver.completionEvents = [])
    (h : c.shared.Listening) (hpending : c.shared.pending = false) {i : ℕ}
    (hi : c.At i .swapping) : EndsPark maxInFlight c := by
  have hwriting : (c.act i { c.shared with pending := true } (.writing 0)).At i (.writing 0) :=
    (Pool.at_act hi).2 (.inl ⟨rfl, rfl⟩)
  refine .act hi (.swap _) rfl ?_
  rw [hpending]
  exact .of_writing hevents h hwriting

end Ends

/-- **What ends a park ends it**, in some continuation in which nobody sends a command. -/
theorem ParkEnds.ends {maxInFlight : ℕ} {ioPoll : Bool} {c : Pool UringState WakeCaller}
    (hreach : UringReachable maxInFlight ioPoll c) (h : ParkEnds c) : EndsPark maxInFlight c := by
  have hplaced := (WakeInvariant.of_reachable hreach).shared.toPlaced
  have hlistening : c.shared.Listening → c.shared.driver.completionEvents = [] := by
    intro hl
    rcases hl with hplace | ⟨hplace, -⟩
    · exact hplaced.events (by rw [hplace]; rfl)
    · exact hplaced.events (by rw [hplace]; rfl)
  cases h with
  | byte h hunread => exact .of_byte (hlistening h) h hunread
  | writing h i attempt hi => exact .of_writing (hlistening h) h hi
  | swapping h hpending i t hi ht =>
    cases t with
    | idle => cases ht
    | writing attempt => cases ht
    | swapping => exact .of_swapping (hlistening h) h hpending hi
    | loading =>
      have hnext : (c.act i c.shared .swapping).At i .swapping :=
        (Pool.at_act hi).2 (.inl ⟨rfl, rfl⟩)
      refine .act hi (.load _) rfl ?_
      rw [hpending]
      exact .of_swapping (hlistening h) h hpending hnext
  | completion h =>
    obtain ⟨hplace, hcases⟩ := h
    have hevents := hplaced.events (by rw [hplace]; rfl)
    rcases hcases with ⟨requestId, hm⟩ | hm | ⟨hm, -⟩
    · refine .of_outstanding 0 hevents hplace hm fun heq => ?_
      exact absurd heq (ne_wakeRequestId requestId.internal_eq)
    · exact .of_outstanding 0 hevents hplace hm fun heq => absurd heq (by decide)
    · exact .of_outstanding (-1) hevents hplace hm fun _ hneg => absurd hneg (by decide)

end Cache2
