import Mathlib.Data.Nat.Log
import Cache2.Lib.Interleaving

set_option relaxedAutoImplicit false
set_option autoImplicit false

/-!
# The ring driver

One driver thread takes commands from a bounded channel and keeps an I/O ring busy. While it has
nothing to do it parks: in the kernel until a completion is there, or, when the ring is polled, in
`poll` on the wake socket. Whoever sends a command wakes it afterwards with one byte, unless a flag
says that a wake is pending already; the driver clears the flag after it has read the bytes, and
drains the channel once more after that.

Any number of threads send commands, with one action for each access to the flag and the socket. The
driver's loop is cut at every access to what it shares with them and with the kernel. The kernel may
take an entry of the submission queue at any time, as a thread of its own does when the ring has
one. What the cancel flags of the requests and the scan flag say is left open, and every error ends
the loop, wherever it comes from.

## Main definitions

* `Cache2.UringDriver` — what the driver keeps; `Cache2.DriverAt` — where it stands.
* `Cache2.UringState` — the driver, the ring, the channel, the flag and the socket.
* `Cache2.DriverAct`, `Cache2.KernelAct`, `Cache2.WakeAct` — the actions.
* `Cache2.UringReachable` — what some interleaving reaches.
-/

namespace Cache2

open Interleaving

/-! ## Requests and commands -/

/-- `CANCEL_CQE_BIT`. -/
def cancelCqeBit : BitVec 64 := 1#64 <<< 63

/-- `INTERNAL_CQE_BIT`. -/
def internalCqeBit : BitVec 64 := 1#64 <<< 62

/-- `WAKE_REQUEST_ID`. -/
def wakeRequestId : BitVec 64 := internalCqeBit ||| 1#64

/-- `WAKE_CANCEL_ID`. -/
def wakeCancelId : BitVec 64 := cancelCqeBit ||| wakeRequestId

/-- `MAX_WAKE_ATTEMPTS`. -/
def maxWakeAttempts : ℕ := 4

/-- `MAX_COMMANDS_PER_DRAIN`. -/
def maxCommandsPerDrain : ℕ := 64

/-- The length of `wake_buffer`. -/
def wakeBufferLength : ℕ := 64

/-- `RequestId`: request ids never use the top two bits. -/
@[ext] structure RequestId where
  /-- The word. -/
  get : BitVec 64
  /-- The bit of cancellations is clear. -/
  cancel_eq : get &&& cancelCqeBit = 0#64
  /-- The bit of the driver's own entries is clear. -/
  internal_eq : get &&& internalCqeBit = 0#64
  deriving DecidableEq, Repr

/-- A request, as far as the driver's loop goes by it. -/
structure UringTask where
  /-- `request_id`. -/
  requestId : RequestId
  /-- `operation_length`. -/
  length : ℕ
  deriving DecidableEq, Repr

/-- `DriverCommand`. -/
inductive DriverCommand
  | submit (task : UringTask)
  | cancel (requestId : RequestId)
  | shutdown
  deriving DecidableEq, Repr

/-- The command holds a slot of the engine. -/
def DriverCommand.isSubmit : DriverCommand → Bool
  | submit _ => true
  | cancel _ | shutdown => false

/-- `PendingEntry`. -/
inductive PendingEntry
  | target (requestId : RequestId)
  | cancel (requestId : RequestId)
  | wake
  | wakeCancel
  deriving DecidableEq, Repr

/-- The `user_data` of `build_submission_entry`. -/
def PendingEntry.userData : PendingEntry → BitVec 64
  | target requestId => requestId.get
  | cancel requestId => cancelCqeBit ||| requestId.get
  | wake => wakeRequestId
  | wakeCancel => wakeCancelId

/-- What `drain_completions` takes a completion for. -/
inductive CompletionKind
  | wake
  | wakeCancel
  | cancel
  | target (requestId : RequestId)
  | other
  deriving DecidableEq, Repr

/-- The branches of `drain_completions`. -/
def completionKind (userData : BitVec 64) : CompletionKind :=
  if userData = wakeRequestId then .wake
  else if userData = wakeCancelId then .wakeCancel
  else if hcancel : userData &&& cancelCqeBit = 0#64 then
    if hinternal : userData &&& internalCqeBit = 0#64 then .target ⟨userData, hcancel, hinternal⟩
    else .other
  else .cancel

/-! ## The driver -/

/-- `Flight`, without the path that is only recorded. -/
structure Flight where
  /-- The request. -/
  task : UringTask
  /-- The bytes transferred so far. -/
  transferred : ℕ
  /-- The request is with the kernel. -/
  active : Bool
  /-- It has been asked to be cancelled. -/
  cancelSubmitted : Bool
  deriving DecidableEq, Repr

/-- `queue_cancel_if_active` finds something to do. -/
def Flight.cancellable (flight : Flight) : Bool := flight.active && !flight.cancelSubmitted

/-- `UringDriver`, without the ring and what it shares with the threads that send commands. -/
structure UringDriver where
  /-- The poll of the wake socket is with the kernel. -/
  wakeActive : Bool
  /-- Its cancellation has been submitted. -/
  wakeCancelSubmitted : Bool
  /-- Its cancellation has completed. -/
  wakeCancelCompleted : Bool
  /-- The requests that are not finished; at most one for an id. -/
  flights : List Flight
  /-- Requests to be submitted. -/
  pendingTargets : List RequestId
  /-- Requests to be cancelled. -/
  pendingCancels : List RequestId
  /-- The entries about to be submitted. -/
  pendingEntries : List PendingEntry
  /-- The completions not looked at yet. -/
  completionEvents : List (BitVec 64 × ℤ)
  /-- The ring is polled. -/
  ioPoll : Bool
  /-- `Shutdown` was received. -/
  shuttingDown : Bool
  deriving DecidableEq, Repr

namespace UringDriver

/-- The driver that `uring_driver` starts with. -/
def new (ioPoll : Bool) : UringDriver :=
  ⟨false, false, false, [], [], [], [], [], ioPoll, false⟩

/-- `flights.get`. -/
def flight? (d : UringDriver) (requestId : RequestId) : Option Flight :=
  d.flights.find? fun flight => flight.task.requestId = requestId

/-- `flights.remove`. -/
def removeFlight (d : UringDriver) (requestId : RequestId) : UringDriver :=
  { d with flights := d.flights.filter fun flight => flight.task.requestId ≠ requestId }

/-- `flights.insert`. -/
def insertFlight (d : UringDriver) (flight : Flight) : UringDriver :=
  { d with flights := flight :: (d.removeFlight flight.task.requestId).flights }

/-- `flights.get_mut`. -/
def modifyFlight (d : UringDriver) (requestId : RequestId) (f : Flight → Flight) : UringDriver :=
  { d with
    flights := d.flights.map fun flight =>
      if flight.task.requestId = requestId then f flight else flight }

/-- `queue_cancel_if_active`. -/
def queueCancelIfActive (d : UringDriver) (requestId : RequestId) : UringDriver :=
  match d.flight? requestId with
  | none => d
  | some flight =>
    if flight.cancellable then
      let d := d.modifyFlight requestId fun flight => { flight with cancelSubmitted := true }
      if d.ioPoll then d else { d with pendingCancels := d.pendingCancels ++ [requestId] }
    else d

/-- The loop body of `drain_commands`, with what the cancel flag of the request says. -/
def takeCommand (d : UringDriver) (cancelled : Bool) : DriverCommand → UringDriver
  | .submit task =>
    if cancelled then d
    else if task.length = 0 then d
    else
      { d.insertFlight ⟨task, 0, false, false⟩ with
        pendingTargets := d.pendingTargets ++ [task.requestId] }
  | .cancel requestId => d.queueCancelIfActive requestId
  | .shutdown => { d with shuttingDown := true }

/-- `queue_requested_cancels`, with what the flags say; the flights are looked at in any order. -/
def queueRequestedCancels (d : UringDriver) (needed : Bool) (cancelRequested : RequestId → Bool)
    (order : List Flight) : UringDriver :=
  if needed then
    ((order.filter fun flight => cancelRequested flight.task.requestId && flight.cancellable).map
      fun flight => flight.task.requestId).foldl queueCancelIfActive d
  else d

/-- The loop of `submit_pending` over the cancellations. -/
def collectCancels (available : ℕ) (d : UringDriver) : List RequestId → UringDriver
  | [] => { d with pendingCancels := [] }
  | requestId :: rest =>
    if d.pendingEntries.length < available then
      if (d.flight? requestId).isSome then
        collectCancels available
          { d with pendingEntries := d.pendingEntries ++ [.cancel requestId] } rest
      else collectCancels available d rest
    else { d with pendingCancels := requestId :: rest }

/-- The loop of `submit_pending` over the requests. -/
def collectTargets (cancelRequested : RequestId → Bool) (available : ℕ) (d : UringDriver) :
    List RequestId → UringDriver
  | [] => { d with pendingTargets := [] }
  | requestId :: rest =>
    if d.pendingEntries.length < available then
      match d.flight? requestId with
      | none => collectTargets cancelRequested available d rest
      | some flight =>
        if cancelRequested requestId && !flight.active then
          collectTargets cancelRequested available (d.removeFlight requestId) rest
        else
          collectTargets cancelRequested available
            { d with pendingEntries := d.pendingEntries ++ [.target requestId] } rest
    else { d with pendingTargets := requestId :: rest }

/-- The first entry of `submit_pending`: a poll of the wake socket, unless there is one. -/
def wakeEntries (d : UringDriver) : List PendingEntry :=
  if !d.shuttingDown && !d.wakeActive && !d.ioPoll then [.wake] else []

/-- The entries of `submit_pending`, for a queue with room. -/
def collectEntries (d : UringDriver) (cancelRequested : RequestId → Bool) (available : ℕ) :
    UringDriver :=
  let d := { d with pendingEntries := d.wakeEntries }
  let d := d.collectCancels available d.pendingCancels
  d.collectTargets cancelRequested available d.pendingTargets

/-- What `build_submission_entry` notes about an entry. -/
def buildSubmissionEntry (d : UringDriver) : PendingEntry → UringDriver
  | .target requestId => d.modifyFlight requestId fun flight => { flight with active := true }
  | .wake => { d with wakeActive := true }
  | .cancel _ | .wakeCancel => d

/-- `push_pending_entries`, but for the queue itself. -/
def pushPendingEntries (d : UringDriver) : UringDriver :=
  d.pendingEntries.foldl buildSubmissionEntry d

/-- `complete_target`, with what the cancel flag of the request says. -/
def completeTarget (d : UringDriver) (cancelled : Bool) (requestId : RequestId) (result : ℤ) :
    UringDriver :=
  match d.flight? requestId with
  | none => d
  | some flight =>
    let d := d.removeFlight requestId
    if result < 0 then d
    else
      let remaining := flight.task.length - flight.transferred
      let completed := result.toNat
      if completed = 0 ∧ remaining ≠ 0 then d
      else if remaining < completed then d
      else
        let transferred := flight.transferred + completed
        if transferred = flight.task.length then d
        else if cancelled then d
        else
          { d.insertFlight { flight with transferred, active := false } with
            pendingTargets := d.pendingTargets ++ [requestId] }

/-- The cancellation of the poll is under way. -/
def wakeCancelPending (d : UringDriver) : Bool := d.wakeCancelSubmitted && !d.wakeCancelCompleted

/-- The driver has to cancel the poll before it can stop. -/
def cancelsWake (d : UringDriver) : Bool :=
  d.shuttingDown && d.flights.isEmpty && d.wakeActive && !d.wakeCancelSubmitted

/-- The driver can stop. -/
def finished (d : UringDriver) : Bool :=
  d.shuttingDown && d.flights.isEmpty && !d.wakeActive &&
    (!d.wakeCancelSubmitted || d.wakeCancelCompleted)

end UringDriver

/-! ## Where the driver stands -/

/-- The two calls of `drain_commands` in one turn of the loop. -/
inductive DrainPass
  /-- The first, with what `drain_completions` has returned. -/
  | first (woke : Bool)
  /-- The one after the flag was cleared. -/
  | second
  deriving DecidableEq, Repr

/-- The two callers of `drain_wake_bytes`. -/
inductive WakeDrain
  /-- `drain_completions`, with whether a poll has failed before. -/
  | completion (wakeError : Bool)
  /-- `block_on_wake`. -/
  | poll
  deriving DecidableEq, Repr

/-- The places of `run` and what it calls. -/
inductive DriverAt
  /-- Before the completions are read. -/
  | drainCompletions
  /-- In the loop over the completions. -/
  | completing (woke wakeError : Bool)
  /-- In `drain_wake_bytes`. -/
  | drainWakeBytes (caller : WakeDrain)
  /-- In `drain_commands`, after some commands. -/
  | drainCommands (pass : DrainPass) (taken : ℕ)
  /-- Before the flag is cleared. -/
  | clearPending
  /-- Before `queue_requested_cancels`. -/
  | queueRequestedCancels (commandsPending : Bool)
  /-- Before the first check for the end. -/
  | checkShutdown (commandsPending : Bool)
  /-- Before `submit_pending`. -/
  | submitPending (commandsPending : Bool)
  /-- Before `submit_ring`. -/
  | submitRing (commandsPending : Bool)
  /-- Parked in `submit_and_wait`. -/
  | waiting
  /-- Parked in `poll` on the wake socket. -/
  | polling
  /-- The driver has returned. -/
  | stopped
  deriving DecidableEq, Repr

namespace UringDriver

/-- What follows a call of `drain_commands`. -/
def afterDrain (d : UringDriver) (commandsPending : Bool) : DrainPass → DriverAt
  | .first woke =>
    if woke || d.ioPoll then .clearPending else .queueRequestedCancels commandsPending
  | .second => .queueRequestedCancels commandsPending

/-- `wait_for_completion`, up to the call that parks. -/
def waitForCompletion (d : UringDriver) : DriverAt :=
  if d.ioPoll then
    if d.flights.isEmpty then .polling else .waiting
  else if !d.wakeActive && d.flights.isEmpty && !d.wakeCancelPending then .drainCompletions
  else .waiting

/-- What follows `submit_pending`. -/
def afterSubmit (d : UringDriver) (submitted : ℕ) (commandsPending : Bool) : DriverAt :=
  if d.finished then .stopped
  else if submitted = 0 ∧ commandsPending = false then d.waitForCompletion
  else .drainCompletions

end UringDriver

/-- What follows `drain_wake_bytes`. -/
def WakeDrain.next : WakeDrain → DriverAt
  | completion wakeError => .completing true wakeError
  | poll => .drainCompletions

/-! ## The shared state -/

/-- What an engine with a ring consists of. -/
structure UringState where
  /-- The commands in the channel. -/
  queue : List DriverCommand
  /-- There is a sender. -/
  connected : Bool
  /-- `wake_pending`. -/
  pending : Bool
  /-- The bytes in the wake socket. -/
  unread : ℕ
  /-- The submission queue. -/
  sq : List PendingEntry
  /-- The entries that the kernel has taken and not completed. -/
  running : List PendingEntry
  /-- The completion queue. -/
  cq : List (BitVec 64 × ℤ)
  /-- The driver. -/
  driver : UringDriver
  /-- Where it stands. -/
  place : DriverAt
  deriving DecidableEq, Repr

/-- The capacity of the channel. -/
def commandCapacity (maxInFlight : ℕ) : ℕ := maxInFlight * 2 + 1

/-- `ring_entries`: the next power of two. -/
def ringEntries (maxInFlight : ℕ) : ℕ := 2 ^ Nat.clog 2 (maxInFlight + 2)

namespace UringState

/-- The engine after `start`. -/
def start (ioPoll : Bool) : UringState :=
  ⟨[], true, false, 0, [], [], [], .new ioPoll, .drainCompletions⟩

/-- The slots of the engine that commands and flights hold. -/
def slots (s : UringState) : ℕ := s.queue.countP DriverCommand.isSubmit + s.driver.flights.length

/-- The driver goes on. -/
def goto (s : UringState) (place : DriverAt) : UringState := { s with place }

/-- The driver goes on with other fields. -/
def update (s : UringState) (driver : UringDriver) (place : DriverAt) : UringState :=
  { s with driver, place }

/-- The completions that the driver has still to look at. -/
def setEvents (s : UringState) (completionEvents : List (BitVec 64 × ℤ)) : UringState :=
  { s with driver := { s.driver with completionEvents } }

/-- The loop body of `drain_completions`, after the event has been taken off. -/
def completeEvent (s : UringState) (woke wakeError cancelled : Bool) (userData : BitVec 64)
    (result : ℤ) : UringState :=
  let d := s.driver
  match completionKind userData with
  | .wake =>
    let s := { s with driver := { d with wakeActive := false } }
    if d.shuttingDown then s.goto (.completing true wakeError)
    else if 0 ≤ result then s.goto (.drainWakeBytes (.completion wakeError))
    else s.goto (.completing true true)
  | .wakeCancel => s.update { d with wakeCancelCompleted := true } (.completing woke wakeError)
  | .cancel => s.goto (.completing woke wakeError)
  | .target requestId =>
    s.update (d.completeTarget cancelled requestId result) (.completing woke wakeError)
  | .other => s.goto (.completing woke wakeError)

/-- `submit_pending`, but for `submit_ring`. -/
def submitPending (s : UringState) (available : ℕ) (cancelRequested : RequestId → Bool) :
    UringState :=
  if available = 0 then s
  else
    let d := s.driver.collectEntries cancelRequested available
    { s with sq := s.sq ++ d.pendingEntries, driver := d.pushPendingEntries }

end UringState

/-! ## Actions -/

/-- The actions of the driver. -/
inductive DriverAct (maxInFlight : ℕ) : UringState → UringState → Prop
  -- `drain_completions`
  | readCompletions (s : UringState) (h : s.place = .drainCompletions) :
      DriverAct maxInFlight s { s with
        cq := []
        driver := { s.driver with completionEvents := s.cq }
        place := .completing false false }
  | complete (s : UringState) (woke wakeError cancelled : Bool) (userData : BitVec 64)
      (result : ℤ) (rest : List (BitVec 64 × ℤ)) (h : s.place = .completing woke wakeError)
      (hevents : s.driver.completionEvents = (userData, result) :: rest) :
      DriverAct maxInFlight s
        ((s.setEvents rest).completeEvent woke wakeError cancelled userData result)
  | completed (s : UringState) (woke : Bool) (h : s.place = .completing woke false)
      (hevents : s.driver.completionEvents = []) :
      DriverAct maxInFlight s (s.goto (.drainCommands (.first woke) 0))
  -- `drain_wake_bytes`
  | readWakeBytes (s : UringState) (caller : WakeDrain) (h : s.place = .drainWakeBytes caller)
      (hunread : 0 < s.unread) :
      DriverAct maxInFlight s { s with unread := s.unread - wakeBufferLength }
  | wakeBytesRead (s : UringState) (caller : WakeDrain) (h : s.place = .drainWakeBytes caller)
      (hunread : s.unread = 0) : DriverAct maxInFlight s (s.goto caller.next)
  -- `drain_commands`
  | takeCommand (s : UringState) (pass : DrainPass) (taken : ℕ) (cancelled : Bool)
      (command : DriverCommand) (rest : List DriverCommand)
      (h : s.place = .drainCommands pass taken) (htaken : taken < maxCommandsPerDrain)
      (hqueue : s.queue = command :: rest) :
      DriverAct maxInFlight s { s with
        queue := rest
        driver := s.driver.takeCommand cancelled command
        place := .drainCommands pass (taken + 1) }
  | queueEmpty (s : UringState) (pass : DrainPass) (taken : ℕ)
      (h : s.place = .drainCommands pass taken) (htaken : taken < maxCommandsPerDrain)
      (hqueue : s.queue = []) :
      DriverAct maxInFlight s (s.update
        { s.driver with shuttingDown := s.driver.shuttingDown || !s.connected }
        (s.driver.afterDrain false pass))
  | budgetExhausted (s : UringState) (pass : DrainPass) (taken : ℕ)
      (h : s.place = .drainCommands pass taken) (htaken : maxCommandsPerDrain ≤ taken) :
      DriverAct maxInFlight s (s.goto (s.driver.afterDrain true pass))
  -- `run`
  | clearPending (s : UringState) (h : s.place = .clearPending) :
      DriverAct maxInFlight s { s with pending := false, place := .drainCommands .second 0 }
  | queueRequestedCancels (s : UringState) (commandsPending needed : Bool)
      (cancelRequested : RequestId → Bool) (order : List Flight)
      (h : s.place = .queueRequestedCancels commandsPending)
      (horder : order.Perm s.driver.flights) :
      DriverAct maxInFlight s (s.update
        (s.driver.queueRequestedCancels needed cancelRequested order)
        (.checkShutdown commandsPending))
  | cancelWake (s : UringState) (commandsPending : Bool)
      (h : s.place = .checkShutdown commandsPending) (hcancels : s.driver.cancelsWake = true)
      (hroom : s.sq.length < ringEntries maxInFlight) :
      DriverAct maxInFlight s { s with
        sq := s.sq ++ [.wakeCancel]
        driver := { s.driver with wakeCancelSubmitted := true }
        place := .submitPending commandsPending }
  | checkShutdown (s : UringState) (commandsPending : Bool)
      (h : s.place = .checkShutdown commandsPending) (hcancels : s.driver.cancelsWake = false) :
      DriverAct maxInFlight s
        (s.goto (if s.driver.finished then .stopped else .submitPending commandsPending))
  -- `submit_pending`
  | submitPending (s : UringState) (commandsPending : Bool) (cancelRequested : RequestId → Bool)
      (h : s.place = .submitPending commandsPending) :
      DriverAct maxInFlight s
        ((s.submitPending (ringEntries maxInFlight - s.sq.length) cancelRequested).goto
          (.submitRing commandsPending))
  | submitRing (s : UringState) (commandsPending : Bool) (submitted : ℕ)
      (h : s.place = .submitRing commandsPending) (hsubmitted : submitted = 0 → s.sq = []) :
      DriverAct maxInFlight s (s.goto (s.driver.afterSubmit submitted commandsPending))
  -- `wait_for_completion`
  | waited (s : UringState) (h : s.place = .waiting) (hcq : s.cq ≠ []) :
      DriverAct maxInFlight s (s.goto .drainCompletions)
  | readable (s : UringState) (h : s.place = .polling) (hunread : 0 < s.unread) :
      DriverAct maxInFlight s (s.goto (.drainWakeBytes .poll))
  | timedOut (s : UringState) (h : s.place = .polling) :
      DriverAct maxInFlight s (s.goto .drainCompletions)
  -- errors, and panics
  | fail (s : UringState) : DriverAct maxInFlight s (s.goto .stopped)

/-- The actions of the kernel. The poll of the wake socket completes without an error only when
there is something to read. -/
inductive KernelAct : UringState → UringState → Prop
  | take (s : UringState) (entry : PendingEntry) (rest : List PendingEntry)
      (h : s.sq = entry :: rest) :
      KernelAct s { s with sq := rest, running := s.running ++ [entry] }
  | complete (s : UringState) (entry : PendingEntry) (result : ℤ) (h : entry ∈ s.running)
      (hwake : entry = .wake → 0 ≤ result → 0 < s.unread) :
      KernelAct s { s with
        running := s.running.erase entry
        cq := s.cq ++ [(entry.userData, result)] }

/-- Where a thread that sends commands stands in `SocketWake::wake`. -/
inductive WakeCaller
  /-- Outside. -/
  | idle
  /-- Before the flag is loaded. -/
  | loading
  /-- The flag was clear; before the swap. -/
  | swapping
  /-- The flag has been set; before a write of the byte. -/
  | writing (attempt : ℕ)
  deriving DecidableEq, Repr

/-- The actions of a thread that sends commands. Writes succeed in the end: they may be interrupted
before the last attempt, and a socket that takes no more bytes holds some. -/
inductive WakeAct (maxInFlight : ℕ) : UringState → WakeCaller → UringState → WakeCaller → Prop
  | send (s : UringState) (command : DriverCommand) (hconnected : s.connected = true)
      (hroom : s.queue.length < commandCapacity maxInFlight)
      (hslot : command.isSubmit = true → s.slots < maxInFlight) :
      WakeAct maxInFlight s .idle { s with queue := s.queue ++ [command] } .loading
  | wake (s : UringState) : WakeAct maxInFlight s .idle s .loading
  | disconnect (s : UringState) : WakeAct maxInFlight s .idle { s with connected := false } .idle
  | load (s : UringState) :
      WakeAct maxInFlight s .loading s (if s.pending then .idle else .swapping)
  | swap (s : UringState) :
      WakeAct maxInFlight s .swapping { s with pending := true }
        (if s.pending then .idle else .writing 0)
  | write (s : UringState) (attempt : ℕ) :
      WakeAct maxInFlight s (.writing attempt) { s with unread := s.unread + 1 } .idle
  | interrupted (s : UringState) (attempt : ℕ) (h : attempt + 1 < maxWakeAttempts) :
      WakeAct maxInFlight s (.writing attempt) s (.writing (attempt + 1))
  | wouldBlock (s : UringState) (attempt : ℕ) (h : 0 < s.unread) :
      WakeAct maxInFlight s (.writing attempt) s .idle

/-- The threads that send commands. -/
def wakeProgram (maxInFlight : ℕ) : Program UringState WakeCaller where
  start t := t = .idle
  act _ := WakeAct maxInFlight

/-- One step without the driver: of a thread that sends commands, or of the kernel. -/
inductive UnattendedStep (maxInFlight : ℕ) :
    Pool UringState WakeCaller → Pool UringState WakeCaller → Prop
  | caller (c c' : Pool UringState WakeCaller) (h : Step (wakeProgram maxInFlight) c c') :
      UnattendedStep maxInFlight c c'
  | kernel (c : Pool UringState WakeCaller) (s' : UringState) (h : KernelAct c.shared s') :
      UnattendedStep maxInFlight c ⟨s', c.threads⟩

/-- One step. -/
inductive UringStep (maxInFlight : ℕ) :
    Pool UringState WakeCaller → Pool UringState WakeCaller → Prop
  | unattended (c c' : Pool UringState WakeCaller) (h : UnattendedStep maxInFlight c c') :
      UringStep maxInFlight c c'
  | driver (c : Pool UringState WakeCaller) (s' : UringState)
      (h : DriverAct maxInFlight c.shared s') :
      UringStep maxInFlight c ⟨s', c.threads⟩

/-- What some interleaving reaches. -/
def UringReachable (maxInFlight : ℕ) (ioPoll : Bool) (c : Pool UringState WakeCaller) : Prop :=
  Relation.ReflTransGen (UringStep maxInFlight) ⟨.start ioPoll, []⟩ c

namespace UringReachable

variable {maxInFlight : ℕ} {ioPoll : Bool} {c : Pool UringState WakeCaller} {s' : UringState}

/-- A run may continue with the driver. -/
lemma driver (h : UringReachable maxInFlight ioPoll c) (ha : DriverAct maxInFlight c.shared s') :
    UringReachable maxInFlight ioPoll ⟨s', c.threads⟩ :=
  .tail h (.driver c s' ha)

/-- A run may continue with the kernel. -/
lemma kernel (h : UringReachable maxInFlight ioPoll c) (ha : KernelAct c.shared s') :
    UringReachable maxInFlight ioPoll ⟨s', c.threads⟩ :=
  .tail h (.unattended _ _ (.kernel c s' ha))

/-- A run may continue with a thread that sends commands. -/
lemma caller {c' : Pool UringState WakeCaller} (h : UringReachable maxInFlight ioPoll c)
    (hstep : Step (wakeProgram maxInFlight) c c') : UringReachable maxInFlight ioPoll c' :=
  .tail h (.unattended _ _ (.caller c c' hstep))

end UringReachable

end Cache2
