import LabourBaba.Store.Machine

/-!
# The outbox worker

The worker as an object between its await points: each event is what runs, without
interruption, from one await to the next. A batch is begun, its claim resolves or fails, its
records are handed over, and it ends when all their promises have settled; a promise leaves
the set of active operations some time after it has settled. `stop` begins a drain, or joins
the one that runs; the drain waits for a snapshot of the active operations, lets the event
loop turn, and looks again, until none is left or the time is over.

Batches, deliveries and drains are numbered in the order in which they begin. What is only
there to state properties: the records of a batch with the delivery each was handed to, what
a call of `stop` waits for, and how many batches had begun at the last start.
-/
namespace LabourBaba.Outbox.Worker

abbrev Id := Nat

inductive WorkerState
  | IDLE | RUNNING | STOPPING | STOPPED
  deriving DecidableEq, Repr

/-- A promise that is tracked, by the number of its batch or delivery. -/
inductive Operation
  | batch (b : Nat)
  | delivery (d : Nat)
  deriving DecidableEq, Repr

inductive BatchPhase
  | claiming | delivering | settled
  deriving DecidableEq, Repr

/-- A batch, and the claimed records with the delivery that each was handed to. -/
structure Batch where
  phase : BatchPhase := .claiming
  records : List (Id × Option Nat) := []
  deriving DecidableEq, Repr

/-- A call of `executeRecordDelivery`. -/
structure Delivery where
  record : Id
  settled : Bool := false
  deriving DecidableEq, Repr

inductive DrainPhase
  | immediate
  | waiting (snapshot : List Operation)
  | flushing
  | drained
  | timedOut
  deriving DecidableEq, Repr

structure OutboxWorker where
  state : WorkerState := .IDLE
  pollTimer : Bool := false
  isProcessing : Bool := false
  activeOperations : List Operation := []
  shutdown : Option DrainPhase := none
  batches : List Batch := []
  deliveries : List Delivery := []
  drains : Nat := 0
  /-- For each call of `stop`, the drain it waits for. -/
  stops : List (Option Nat) := []
  /-- The number of batches begun before the last start that took effect. -/
  begunBefore : Nat := 0
  deriving DecidableEq, Repr

namespace OutboxWorker

variable (w : OutboxWorker)

def isOver : Bool := w.state = .STOPPING || w.state = .STOPPED

def settled : Operation → Bool
  | .batch b => w.batches[b]?.any fun batch => batch.phase = .settled
  | .delivery d => w.deliveries[d]?.any Delivery.settled

/-- `trackOperation`. -/
def track (operation : Operation) : OutboxWorker :=
  { w with activeOperations := w.activeOperations ++ [operation] }

/-- `processRecord`: the number of the delivery, unless the worker has stopped. -/
def processRecord (record : Id) : OutboxWorker × Option Nat :=
  if w.state = .STOPPED then (w, none)
  else
    (track { w with deliveries := w.deliveries ++ [⟨record, false⟩] }
        (.delivery w.deliveries.length),
      some w.deliveries.length)

/-- `records.map((r) => this.processRecord(r))`. -/
def processRecords : OutboxWorker → List Id → OutboxWorker × List (Id × Option Nat)
  | w, [] => (w, [])
  | w, record :: records =>
    let (w, handed) := w.processRecord record
    let (w, rest) := processRecords w records
    (w, (record, handed) :: rest)

/-- `processBatch` up to its claim, which the database answers later. -/
def processBatch : OutboxWorker :=
  if w.isOver then w
  else if w.isProcessing then w
  else
    track { w with isProcessing := true, batches := w.batches ++ [⟨.claiming, []⟩] }
      (.batch w.batches.length)

/-- The end of a batch: its flag is cleared and its promise settles. -/
def endBatch (b : Nat) : OutboxWorker :=
  { w with
    isProcessing := false
    batches := w.batches.modify b fun batch => { batch with phase := .settled } }

def start : OutboxWorker :=
  if w.state = .RUNNING ∨ w.state = .STOPPING then w
  else { w with state := .RUNNING, pollTimer := true, begunBefore := w.batches.length }

/-- `stop` up to its first await. -/
def stop : OutboxWorker :=
  if w.state = .STOPPED then { w with stops := w.stops ++ [none] }
  else
    match w.shutdown with
    | some _ => { w with stops := w.stops ++ [some w.drains] }
    | none =>
      let drain := if w.activeOperations = [] then .immediate else .waiting w.activeOperations
      { w with
        state := .STOPPING
        pollTimer := false
        shutdown := some drain
        stops := w.stops ++ [some w.drains] }

end OutboxWorker

inductive Event
  | start
  | tick
  | processBatch
  | processRecord (record : Id)
  | stop
  | claimResolves (b : Nat) (records : List Id)
  | claimFails (b : Nat)
  | deliverySettles (d : Nat)
  | batchEnds (b : Nat)
  | untracks (operation : Operation)
  | snapshotSettles
  | flushed
  | drainTimesOut
  | stopEnds
  deriving DecidableEq, Repr

/-- The worker after an event, if the event can happen. -/
def step (w : OutboxWorker) : Event → Option OutboxWorker
  | .start => some w.start
  | .tick => some (if w.pollTimer ∧ w.state = .RUNNING then w.processBatch else w)
  | .processBatch => some w.processBatch
  | .processRecord record => some (w.processRecord record).1
  | .stop => some w.stop
  | .claimResolves b records =>
    if w.batches[b]?.any fun batch => batch.phase = .claiming then
      if records = [] then some (w.endBatch b)
      else
        let (v, handed) := w.processRecords records
        some { v with batches := v.batches.modify b fun _ => ⟨.delivering, handed⟩ }
    else none
  | .claimFails b =>
    if w.batches[b]?.any fun batch => batch.phase = .claiming then some (w.endBatch b) else none
  | .deliverySettles d =>
    -- fulfilled or rejected, which makes no difference here
    if d < w.deliveries.length then
      some { w with deliveries := w.deliveries.modify d fun call => { call with settled := true } }
    else none
  | .batchEnds b =>
    if w.batches[b]?.any fun batch => batch.phase = .delivering && batch.records.all fun handed =>
        handed.2.all fun d => w.settled (.delivery d) then
      some (w.endBatch b)
    else none
  | .untracks operation =>
    if w.settled operation then
      some { w with activeOperations := w.activeOperations.filter fun other => other ≠ operation }
    else none
  | .snapshotSettles =>
    match w.shutdown with
    | some (.waiting snapshot) =>
      if snapshot.all w.settled then some { w with shutdown := some .flushing } else none
    | _ => none
  | .flushed =>
    match w.shutdown with
    | some .flushing =>
      let next := if w.activeOperations = [] then .drained else .waiting w.activeOperations
      some { w with shutdown := some next }
    | _ => none
  | .drainTimesOut =>
    match w.shutdown with
    | some (.waiting _) | some .flushing => some { w with shutdown := some .timedOut }
    | _ => none
  | .stopEnds =>
    match w.shutdown with
    | some .immediate | some .drained | some .timedOut =>
      some { w with state := .STOPPED, shutdown := none, drains := w.drains + 1 }
    | _ => none

def initial : OutboxWorker := {}

/-- The workers that some events lead to, from a new one. -/
def Reached (w : OutboxWorker) : Prop := ∃ events, Machine.run step initial events = some w

end LabourBaba.Outbox.Worker
