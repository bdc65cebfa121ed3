import LabourBaba.Outbox.Schema
import LabourBaba.Store.Calls
import Mathlib

/-!
# Outbox services

`outboxService`, the delivery of a claimed record by `OutboxWorker`, and the acknowledgement
by customers, statement by statement, with the system in which any number of them run.

Every statement commits by itself. An UPDATE of several rows is two statements: PostgreSQL
selects the rows from the snapshot of its start, then updates those that still match. A
claim also passes over the rows that other statements have locked at that moment; which
these are is an argument of the call, as are the answers of Socket.IO and FCM.
-/
namespace LabourBaba.Outbox

open Store

inductive Failure where
  | notFound (message : String) (statusCode : Nat)
  | uniqueViolation
  | database
  /-- An error that `sendFCMToRecipient` throws. -/
  | fcm (message : String) (invalidToken : Bool)
deriving DecidableEq, Repr

def Failure.message : Failure → String
  | .notFound message _ => message
  | .uniqueViolation => "Unique constraint failed"
  | .database => "Can't reach database server"
  | .fcm message _ => message

/-- `isPermanentInvalidTokenError`. -/
def Failure.permanent : Failure → Bool
  | .fcm _ invalidToken => invalidToken
  | _ => false

/-- The statements that a property has to tell apart. The writes of a delivery name the claim
whose record is delivered. -/
inductive Label where
  | step
  | created
  | claimed
  | recovered
  | marked (id : Id) (claim : Option Nat)
  /-- The write of a failure; `seen` is how many failures of the event its call has seen. -/
  | failed (id : Id) (claim : Option Nat) (seen : Nat)
  | channel (id : Id) (ch : Channel) (status : ChannelStatus)
  | acknowledged
  | started (claim : Nat)
  | emitted (claim : Nat) (ch : Channel)
  | ticked
deriving DecidableEq, Repr

abbrev Service := Call Label Db Write Key Failure

def query {α : Type} (f : Db → α) : Service α := Call.read .step f

/-- `new Date()`. -/
def now : Service Nat := query fun d => d.now

/-- A statement, unless the database cannot be reached. -/
def reaching {α : Type} (statement : Service α) : Service α := do
  let reachable ← Call.choose
  if reachable then statement else throw .database

/-- The identifiers among `ids` whose rows match. -/
def Db.matching (d : Db) (ids : List Id) (condition : OutboxRecord → Bool) : List Id :=
  ids.filter fun id => (d.event id).any condition

/-- `updateMany`, with the number of rows it changed. -/
def updateMany (ℓ : Label) (condition : OutboxRecord → Bool) (u : Update) : Service Nat := do
  let selected ← query fun d => (d.events.filter condition).map (·.id)
  Call.stmt ℓ fun d =>
    .ok ([.update (d.matching selected condition) u], (d.matching selected condition).length)

/-- `updateMany` on one id, and whether it matched the row. -/
def updateWhere (ℓ : Label) (id : Id) (condition : OutboxRecord → Bool) (u : Update) :
    Service Bool :=
  Call.stmt ℓ fun d =>
    match d.event id with
    | none => .ok ([], false)
    | some row => if condition row then .ok ([.update [id] u], true) else .ok ([], false)

/-! ### The outbox service -/

/-- The columns of a new event. -/
structure NewEvent where
  id : Id
  recipientType : RecipientType
  recipientId : Id
  idempotencyKey : Text
  maxAttempts : Nat := 5
  positive : 0 < maxAttempts := by decide
deriving DecidableEq, Repr

def NewEvent.record (new : NewEvent) (at_ : Nat) : OutboxRecord :=
  { id := new.id, recipientType := new.recipientType, recipientId := new.recipientId
    idempotencyKey := new.idempotencyKey, maxAttempts := new.maxAttempts, availableAt := at_
    createdAt := at_, updatedAt := at_ }

/-- An event whose key is taken is not created again. -/
def createOutboxEvent (new : NewEvent) : Service Unit := do
  let existing ← query fun d => d.events.any fun r => decide (r.idempotencyKey = new.idempotencyKey)
  if existing then pure ()
  else do
    let created ← Call.attempt (Call.stmt .created fun d =>
      if d.events.any (new.record d.now).clash then .error .uniqueViolation
      else .ok ([.create (new.record d.now)], ()))
    match created with
    | .ok _ | .error .uniqueViolation => pure ()
    | .error e => throw e

/-- PENDING and due, or PROCESSING under a lease that has expired. -/
def claimable (at_ staleThresholdMinutes : Nat) (r : OutboxRecord) : Bool :=
  decide (r.status = .PENDING ∧ r.availableAt ≤ at_ ∨
    r.status = .PROCESSING ∧ r.updatedAt + staleThresholdMinutes * 60 * 1000 ≤ at_)

/-- `ORDER BY created_at ASC`. -/
def byCreation (rows : List OutboxRecord) : List OutboxRecord :=
  rows.insertionSort fun r s => r.createdAt ≤ s.createdAt

/-- The rows that a claim takes: the first of the selected ones that are still claimable and
that no other statement has locked. -/
def Db.claimedRows (d : Db) (selected skipped : List Id) (batchSize at_ stale : Nat) : List Id :=
  ((d.matching selected (claimable at_ stale)).filter fun id => decide (id ∉ skipped)).take batchSize

/-- The records claimed are kept in the journal, where their deliveries find them. -/
def claimPendingEvents (batchSize staleThresholdMinutes : Nat) (skipped : List Id) :
    Service Nat := do
  let t ← now
  let selected ← query fun d =>
    (byCreation (d.events.filter (claimable t staleThresholdMinutes))).map (·.id)
  Call.stmt .claimed fun d =>
    let ids := d.claimedRows selected skipped batchSize t staleThresholdMinutes
    .ok ([.update ids (.claim t)], ids.length)

/-- The UPDATE of a channel's columns; its errors are swallowed. -/
def recordChannel (id : Id) (ch : Channel) (status : ChannelStatus) (u : Nat → Update) :
    Service Unit := do
  let _ ← Call.attempt (reaching (Call.stmt (.channel id ch status) fun d =>
    if (d.event id).isNone then .error (.notFound "No record was found for an update" 500)
    else .ok ([.update [id] (u d.now)], ())))
  pure ()

def recordChannelSuccess (id : Id) (ch : Channel) : Service Unit := do
  let deliveredAt ← now
  recordChannel id ch .SENT (.sent ch deliveredAt)

def recordChannelFailure (id : Id) (ch : Channel) (errorMessage : String) : Service Unit :=
  recordChannel id ch .FAILED (.unsent ch errorMessage)

/-- The where clause of `markEventSuccess` and `markEventFailure`. -/
def unfinishedUnder (expectedClaimedAt : Option Nat) (r : OutboxRecord) : Bool :=
  r.status.unfinished && expectedClaimedAt.all fun t => decide (r.updatedAt = t)

def markEventSuccess (claim : Option Nat) (id : Id) (expectedClaimedAt : Option Nat) :
    Service Bool := do
  let t ← now
  reaching (updateWhere (.marked id claim) id (unfinishedUnder expectedClaimedAt) (.succeed t))

/-- The attempts that a recorded failure of the event has left. -/
def Entry.attemptsOf (id : Id) : Entry → Option Nat
  | .attempted id' attempts => if id' = id then some attempts else none
  | _ => none

/-- The attempts of an event after each of its recorded failures. -/
def Db.recorded (d : Db) (id : Id) : List Nat := d.journal.filterMap (Entry.attemptsOf id)

def Db.failures (d : Db) (id : Id) : Nat := (d.recorded id).length

/-- Exponential backoff in seconds. -/
def backoffSeconds (nextAttempt : Nat) : Nat := min 300 (3 ^ nextAttempt * 5)

def failureUpdate (record : OutboxRecord) (isPermanent : Bool) (errorMessage : String) (t : Nat) :
    Update :=
  let nextAttempt := record.attempts + 1
  if isPermanent ∨ record.maxAttempts ≤ nextAttempt then .giveUp nextAttempt errorMessage t
  else .retry nextAttempt (t + backoffSeconds nextAttempt * 1000) errorMessage t

def markEventFailure (claim : Option Nat) (id : Id) (errorMessage : String) (isPermanent : Bool)
    (expectedClaimedAt : Option Nat) : Service Bool := do
  let (found, seen) ← reaching (query fun d =>
    ((d.event id).filter (unfinishedUnder expectedClaimedAt), d.failures id))
  match found with
  | none => pure false
  | some record => do
    let t ← now
    reaching (updateWhere (.failed id claim seen) id (unfinishedUnder expectedClaimedAt)
      (failureUpdate record isPermanent errorMessage t))

def reconcileStaleEvents (staleThresholdMinutes : Nat) : Service Nat := do
  let threshold ← now
  let t ← now
  updateMany .recovered (fun r => decide (r.status = .PROCESSING ∧
    r.updatedAt + staleThresholdMinutes * 60 * 1000 ≤ threshold)) (.recover t)

/-! ### Customer acknowledgement -/

def acknowledgeNotification (customerId id : Id) : Service Unit := do
  let existing ← query fun d => (d.event id).filter fun r =>
    decide (r.recipientType = .customer ∧ r.recipientId = customerId)
  match existing with
  | none => throw (.notFound "Notification not found or access denied" 404)
  | some row =>
    if row.acknowledgedAt.isSome then pure ()
    else do
      let t ← now
      Call.stmt .acknowledged fun d =>
        if (d.event id).isNone then .error (.notFound "No record was found for an update" 500)
        else .ok ([.update [id] (.acknowledge customerId t)], ())

def acknowledgeAll (customerId : Id) : Service Nat := do
  let t ← now
  updateMany .acknowledged (fun r => decide (r.recipientType = .customer ∧
    r.recipientId = customerId ∧ r.acknowledgedAt = none)) (.acknowledge customerId t)

/-! ### Delivery -/

/-- What Socket.IO does with an emit. -/
inductive SocketAnswer where
  /-- There is no Socket.IO server in this process. -/
  | unavailable
  | emitted
  | thrown (message : String)
deriving DecidableEq, Repr

/-- What `sendFCMToRecipient` returns or throws. -/
inductive FcmAnswer where
  | noDevices
  | delivered
  | transient (message : String)
  | allInvalid
  | thrown (message : String) (invalidToken : Bool)
deriving DecidableEq, Repr

structure Answers where
  socket : SocketAnswer := .emitted
  fcm : FcmAnswer := .delivered
deriving DecidableEq, Repr

/-- How one channel ended: delivered, or failed with an error that may be permanent. -/
inductive Attempt where
  | delivered
  | failed (error : String) (permanent : Bool)
deriving DecidableEq, Repr

def emit (claim : Nat) (ch : Channel) : Service Unit :=
  Call.send (.emitted claim ch) fun _ => ([⟨.emit claim ch, rfl⟩], ())

def deliverSocket (claim : Nat) (record : OutboxRecord) (answer : SocketAnswer) :
    Service Attempt :=
  if record.socket.status = .SENT then pure .delivered
  else match answer with
    | .unavailable => do
      recordChannelSuccess record.id .socket
      pure .delivered
    | .emitted => do
      emit claim .socket
      recordChannelSuccess record.id .socket
      pure .delivered
    | .thrown message => do
      emit claim .socket
      let socketError := if message = "" then "Socket emission failed" else message
      recordChannelFailure record.id .socket socketError
      pure (.failed socketError false)

def allInvalidMessage : String :=
  "All recipient device tokens were permanently invalid/unregistered"

/-- The results of the devices, once `sendFCMToRecipient` has returned. -/
def recordFcm (record : OutboxRecord) (answer : FcmAnswer) : Service Attempt :=
  match answer with
  | .noDevices | .delivered => do
    recordChannelSuccess record.id .fcm
    pure .delivered
  | .transient message => do
    let error := if message = "" then "FCM delivery failed" else message
    recordChannelFailure record.id .fcm error
    pure (.failed error false)
  | .allInvalid => do
    recordChannelFailure record.id .fcm allInvalidMessage
    pure (.failed allInvalidMessage true)
  | .thrown message invalidToken => throw (.fcm message invalidToken)

def deliverFcm (claim : Nat) (record : OutboxRecord) (answer : FcmAnswer) : Service Attempt :=
  if record.fcm.status = .SENT then pure .delivered
  else if record.recipientType = .worker ∨ record.recipientType = .customer then do
    emit claim .fcm
    recordFcm record answer
  else do
    recordChannelSuccess record.id .fcm
    pure .delivered

/-- The texts of the channels' errors, joined. -/
def reason (parts : List (Option String)) : String := "; ".intercalate (parts.filterMap id)

/-- Step 3: the outcome of the event. -/
def concludeRecord (claim : Nat) (id : Id) (socket fcm : Attempt) : Service Unit := do
  let _ ← match socket, fcm with
    | .delivered, .delivered => markEventSuccess (some claim) id none
    | .delivered, .failed error true =>
      markEventFailure (some claim) id (reason [some s!"FCM error: {error}"]) true none
    | .delivered, .failed error false =>
      markEventFailure (some claim) id (reason [some s!"FCM error: {error}"]) false none
    | .failed socketError _, .failed error false =>
      markEventFailure (some claim) id
        (reason [some s!"Socket error: {socketError}", some s!"FCM error: {error}"]) false none
    -- a permanent error of FCM is retried with the socket, and its text is left out
    | .failed socketError _, _ =>
      markEventFailure (some claim) id (reason [some s!"Socket error: {socketError}"]) false none
  pure ()

def executeRecordDelivery (claim : Nat) (record : OutboxRecord) (answers : Answers) :
    Service Unit := do
  let result ← Call.attempt do
    let socket ← deliverSocket claim record answers.socket
    let fcm ← deliverFcm claim record answers.fcm
    concludeRecord claim record.id socket fcm
  match result with
  | .ok _ => pure ()
  | .error err => do
    let message := if err.message = "" then "Outbox processing failed" else err.message
    let _ ← markEventFailure (some claim) record.id message err.permanent none
    pure ()

/-- The record of a claim that is not being delivered yet. -/
def Db.handover (d : Db) (claim : Nat) : Option OutboxRecord :=
  match d.journal[claim]? with
  | some (.claimed record) => if .started claim ∈ d.journal then none else some record
  | _ => none

/-- `processRecord`, once for each record of a batch. -/
def processRecord (claim : Nat) (answers : Answers) : Service Unit := do
  let record ← Call.send (.started claim) fun d =>
    match d.handover claim with
    | some record => ([⟨.start claim, rfl⟩], some record)
    | none => ([], none)
  match record with
  | some record => executeRecordDelivery claim record answers
  | none => pure ()

/-! ### The system -/

inductive Op where
  | createOutboxEvent (new : NewEvent)
  | claimPendingEvents (batchSize staleThresholdMinutes : Nat) (skipped : List Id)
  | processRecord (claim : Nat) (answers : Answers)
  | markEventSuccess (id : Id) (expectedClaimedAt : Option Nat)
  | markEventFailure (id : Id) (errorMessage : String) (isPermanent : Bool)
      (expectedClaimedAt : Option Nat)
  | reconcileStaleEvents (staleThresholdMinutes : Nat)
  | acknowledgeNotification (customerId id : Id)
  | acknowledgeAll (customerId : Id)
  /-- Time passes. -/
  | tick (ms : Nat)
deriving DecidableEq, Repr

inductive Reply where
  | done
  | count (n : Nat)
  | answer (changed : Bool)
deriving DecidableEq, Repr

abbrev Outcome := Except Failure Reply

def replying {α : Type} (reply : α → Reply) (service : Service α) : Service Reply := do
  let a ← service
  pure (reply a)

def serviceOf : Op → Service Reply
  | .createOutboxEvent new => replying (fun _ => .done) (createOutboxEvent new)
  | .claimPendingEvents batchSize staleThresholdMinutes skipped =>
    replying .count (claimPendingEvents batchSize staleThresholdMinutes skipped)
  | .processRecord claim answers => replying (fun _ => .done) (processRecord claim answers)
  | .markEventSuccess id expectedClaimedAt =>
    replying .answer (markEventSuccess none id expectedClaimedAt)
  | .markEventFailure id errorMessage isPermanent expectedClaimedAt =>
    replying .answer (markEventFailure none id errorMessage isPermanent expectedClaimedAt)
  | .reconcileStaleEvents staleThresholdMinutes =>
    replying .count (reconcileStaleEvents staleThresholdMinutes)
  | .acknowledgeNotification customerId id =>
    replying (fun _ => .done) (acknowledgeNotification customerId id)
  | .acknowledgeAll customerId => replying .count (acknowledgeAll customerId)
  | .tick ms => Call.send .ticked fun _ => ([⟨.tick ms, rfl⟩], .done)

def system (_ : Nat) (op : Op) : Prog Label Db Write Key Outcome := (serviceOf op).run

abbrev OutboxPool := Pool Label Db Write Key Op Outcome

/-- No event and no call. -/
def start : OutboxPool := { db := {} }

/-- A run whose statements all meet a condition on the store. -/
abbrev Runs (cond : Label → Db → Prop) : OutboxPool → Prop :=
  Pool.Reaches system (Pool.Meets cond) start

/-- Every run. -/
abbrev Reachable : OutboxPool → Prop := Runs fun _ _ => True

/-- The outbox after a schedule of events that all meet a condition. -/
def played (cond : Label → Db → Prop) [∀ ℓ d, Decidable (cond ℓ d)] (moves : List (Pool.Move Op)) :
    OutboxPool :=
  start.after system (Pool.Meets cond) 40 moves

theorem runs_played (cond : Label → Db → Prop) [∀ ℓ d, Decidable (cond ℓ d)]
    (moves : List (Pool.Move Op)) : Runs cond (played cond moves) :=
  Pool.Reaches.refl.after 40 moves

end LabourBaba.Outbox
