import LabourBaba.Store.Table
import LabourBaba.Store.Pool

/-!
# The notification outbox

The `notification_outbox` table. Every update goes through one row function (`Update.on`),
so that what a statement does to a row is said once. `updated_at` is an `@updatedAt` column:
an update that does not set it stores the current time.

Beside the table stands a journal of what was committed, in order. The services read from it
only the record that a claim has returned, which in the program is held in memory.
-/
namespace LabourBaba.Outbox

open Store

abbrev Id := Nat

abbrev Text := List Char

inductive OutboxStatus where
  | PENDING | PROCESSING | SENT | FAILED
deriving DecidableEq, Repr

/-- Claimed or to be claimed: neither SENT nor FAILED. -/
def OutboxStatus.unfinished : OutboxStatus → Bool
  | .PENDING | .PROCESSING => true
  | .SENT | .FAILED => false

inductive ChannelStatus where
  | PENDING | SENT | FAILED
deriving DecidableEq, Repr

inductive Channel where
  | socket | fcm
deriving DecidableEq, Repr

inductive RecipientType where
  | worker | customer | admin | system
deriving DecidableEq, Repr

/-- The columns `*_status`, `*_sent_at` and `*_error` of a channel. -/
structure Delivery where
  status : ChannelStatus := .PENDING
  sentAt : Option Nat := none
  error : Option String := none
deriving DecidableEq, Repr

/-! ### Rows -/

structure OutboxRecord where
  id : Id
  recipientType : RecipientType
  recipientId : Id
  idempotencyKey : Text
  status : OutboxStatus := .PENDING
  socket : Delivery := {}
  fcm : Delivery := {}
  attempts : Nat := 0
  maxAttempts : Nat := 5
  availableAt : Nat
  processedAt : Option Nat := none
  failedAt : Option Nat := none
  lastError : Option String := none
  acknowledgedAt : Option Nat := none
  acknowledgedBy : Option Id := none
  createdAt : Nat
  updatedAt : Nat
deriving DecidableEq, Repr

namespace OutboxRecord

def channel (r : OutboxRecord) : Channel → Delivery
  | .socket => r.socket
  | .fcm => r.fcm

def setChannel (r : OutboxRecord) (delivery : Delivery) : Channel → OutboxRecord
  | .socket => { r with socket := delivery }
  | .fcm => { r with fcm := delivery }

/-- The primary key and the unique `idempotency_key`. -/
def clash (new old : OutboxRecord) : Bool :=
  decide (new.id = old.id) || decide (new.idempotencyKey = old.idempotencyKey)

@[simp] theorem setChannel_id (r : OutboxRecord) (delivery : Delivery) (ch : Channel) :
    (r.setChannel delivery ch).id = r.id := by cases ch <;> rfl

end OutboxRecord

/-! ### Updates -/

/-- The `data` object of an update. -/
inductive Update where
  | claim (at_ : Nat)
  | recover (at_ : Nat)
  | succeed (at_ : Nat)
  | giveUp (attempts : Nat) (error : String) (at_ : Nat)
  | retry (attempts availableAt : Nat) (error : String) (at_ : Nat)
  | sent (ch : Channel) (deliveredAt at_ : Nat)
  | unsent (ch : Channel) (error : String) (at_ : Nat)
  | acknowledge (customerId : Id) (at_ : Nat)
deriving DecidableEq, Repr

def Update.on (u : Update) (r : OutboxRecord) : OutboxRecord :=
  match u with
  | .claim t => { r with status := .PROCESSING, updatedAt := t }
  | .recover t => { r with status := .PENDING, updatedAt := t }
  | .succeed t => { r with status := .SENT, processedAt := some t, updatedAt := t }
  | .giveUp attempts error t =>
    { r with status := .FAILED, attempts, failedAt := some t, lastError := some error, updatedAt := t }
  | .retry attempts availableAt error t =>
    { r with status := .PENDING, attempts, availableAt, lastError := some error, updatedAt := t }
  | .sent ch deliveredAt t =>
    { r.setChannel { status := .SENT, sentAt := some deliveredAt } ch with updatedAt := t }
  -- a failed channel keeps the time of an earlier delivery
  | .unsent ch error t =>
    { r.setChannel { r.channel ch with status := .FAILED, error := some error } ch with
      updatedAt := t }
  | .acknowledge customerId t =>
    { r with acknowledgedAt := some t, acknowledgedBy := some customerId, updatedAt := t }

@[simp] theorem Update.on_id (u : Update) (r : OutboxRecord) : (u.on r).id = r.id := by
  cases u <;> simp [Update.on]

inductive Entry where
  /-- A claim, with the record that it returned. -/
  | claimed (record : OutboxRecord)
  | recovered (id : Id)
  /-- A failure that was recorded, with the attempts that it has left. -/
  | attempted (id : Id) (attempts : Nat)
  /-- The delivery of the record of an earlier claim, by the claim's place in the journal. -/
  | started (claim : Nat)
  /-- A call of `emit` or of `sendFCMToRecipient` by that delivery. -/
  | emitted (claim : Nat) (ch : Channel)
deriving DecidableEq, Repr

/-- What the journal keeps of an update of a row. -/
def Update.entry (u : Update) (r : OutboxRecord) : Option Entry :=
  match u with
  | .claim _ => some (.claimed (u.on r))
  | .recover _ => some (.recovered r.id)
  | .giveUp attempts _ _ | .retry attempts _ _ _ => some (.attempted r.id attempts)
  | .succeed _ | .sent _ _ _ | .unsent _ _ _ | .acknowledge _ _ => none

/-! ### The store -/

structure Db where
  now : Nat := 0
  events : List OutboxRecord := []
  journal : List Entry := []
deriving DecidableEq, Repr

def Db.event (d : Db) (id : Id) : Option OutboxRecord := Table.find OutboxRecord.id d.events id

inductive Write where
  | create (record : OutboxRecord)
  | update (ids : List Id) (u : Update)
  | start (claim : Nat)
  | emit (claim : Nat) (ch : Channel)
  | tick (ms : Nat)
deriving DecidableEq, Repr

/-- The entries of an update, one for each row that it changes. -/
def Db.entries (d : Db) (ids : List Id) (u : Update) : List Entry :=
  (d.events.filter fun r => decide (r.id ∈ ids)).filterMap u.entry

def Write.apply (w : Write) (d : Db) : Db :=
  match w with
  | .create r => { d with events := Table.insert OutboxRecord.clash d.events r }
  | .update ids u =>
    { d with
      events := Table.modify OutboxRecord.id d.events ids u.on
      journal := d.journal ++ d.entries ids u }
  | .start claim => { d with journal := d.journal ++ [.started claim] }
  | .emit claim ch => { d with journal := d.journal ++ [.emitted claim ch] }
  | .tick ms => { d with now := d.now + ms }

inductive Key where
  | event (id : Id)
deriving DecidableEq, Repr

def Write.keys : Write → List Key
  | .create r => [.event r.id]
  | .update ids _ => ids.map .event
  | .start _ | .emit _ _ | .tick _ => []

abbrev Key.Row : Key → Type
  | .event _ => Option OutboxRecord

def Db.row (d : Db) : (k : Key) → k.Row
  | .event id => d.event id

theorem Write.row_apply (w : Write) (d : Db) (k : Key) (untouched : k ∉ w.keys) :
    (w.apply d).row k = d.row k := by
  obtain ⟨id⟩ := k
  cases w with
  | create r =>
    have other : r.id ≠ id := fun same => untouched (by simp [Write.keys, same])
    simp only [Db.row, Db.event, Write.apply, Table.find_insert_of_ne other]
  | update ids u =>
    exact Table.find_modify_of_notMem _ _ u.on _ u.on_id (by simpa [Write.keys] using untouched)
  | start | emit | tick => rfl

instance : RowStore Db Write Key where
  Row := Key.Row
  row := Db.row
  write := Write.apply
  keys := Write.keys
  row_write := Write.row_apply

@[simp] theorem write_eq_apply (w : Write) (d : Db) : write w d = w.apply d := rfl

@[simp] theorem keys_eq (w : Write) : keys Db w = w.keys := rfl

end LabourBaba.Outbox
