import LabourBaba.Locations.Tracking
import LabourBaba.Policies.Reading
import LabourBaba.Store.Prog
import LabourBaba.Text.Utf16

/-!
# The tables and the sockets of one server

The rows that a handler looks at, the conversations and messages it writes, and the sockets
that are connected with the rooms they are in. A socket is known by the number of the call
that was its handshake and by the principal which that handshake attached to it; a handler
is a closure over that socket. What becomes of a closed socket is nothing: joining a room is
a no-op on it.

Three histories stand beside the tables, which no statement reads: every status a booking
has had, the author of every message, and every emission with the sockets that were
connected and those that received it.
-/
namespace LabourBaba.Sockets

open Store Locations

abbrev UserRole := Policies.UserRole

abbrev Text := Utf16.Text

/-! ### Principals and sockets -/

/-- `socket.data.user`, and `req.user` of a request. -/
structure SocketUserData where
  id : Id
  role : UserRole
  phone : Option String := none
deriving DecidableEq

structure Socket where
  id : ℕ
  user : SocketUserData
deriving DecidableEq

structure Connection where
  socket : Socket
  rooms : List String
deriving DecidableEq

/-! ### Rows -/

structure Customer where
  id : Id
  phone : String
  deletedAt : Option ℕ := none
deriving DecidableEq

structure Job where
  id : Id
  customerId : Id
deriving DecidableEq

structure Requirement where
  id : Id
  jobId : Id
deriving DecidableEq

structure Dispatch where
  id : Id
  requirementId : Id
  workerId : Id
deriving DecidableEq

structure Booking where
  id : Id
  jobId : Id
  requirementId : Id
  workerId : Id
  customerId : Id
  status : String := "CONFIRMED"
deriving DecidableEq

structure Conversation where
  id : Id
  bookingId : Id
  workerId : Id
  customerId : Id
deriving DecidableEq

structure Message where
  id : Id
  conversationId : Id
  senderId : Id
  content : Text
  sentAt : ℕ
deriving DecidableEq

/-- What is emitted to a room: the event with the data that the handlers decide about. -/
inductive Packet where
  /-- `chat:message` with `toChatMessageDTO` of the row -/
  | message (message : Message)
  /-- `worker:location` -/
  | location (workerId : Id) (place : Place)
  /-- The events of the outbox and of the queue workers. -/
  | notification (event : String)
deriving DecidableEq

structure Emission where
  room : String
  packet : Packet
  connected : List Socket
  receivers : List Socket
deriving DecidableEq

structure Db where
  now : ℕ := 0
  tracking : Tracking := {}
  customers : List Customer := []
  jobs : List Job := []
  requirements : List Requirement := []
  dispatches : List Dispatch := []
  bookings : List Booking := []
  conversations : List Conversation := []
  messages : List Message := []
  sockets : List Connection := []
  /-- The statuses that bookings have had so far. -/
  held : List (Id × String) := []
  /-- Who sent each message. -/
  authors : List (Id × SocketUserData) := []
  emissions : List Emission := []
deriving DecidableEq

namespace Db

def worker (d : Db) (id : Id) : Option Worker := d.tracking.worker id

def customer (d : Db) (id : Id) : Option Customer := Table.find Customer.id d.customers id

/-- `findFirst` by the column `booking_id`, which is unique. -/
def conversation (d : Db) (bookingId : Id) : Option Conversation :=
  Table.find Conversation.bookingId d.conversations bookingId

def connected (d : Db) : List Socket := d.sockets.map Connection.socket

/-- The sockets in a room. -/
def inRoom (d : Db) (room : String) : List Socket :=
  (d.sockets.filter fun c => decide (room ∈ c.rooms)).map Connection.socket

end Db

/-! ### Rows with their relations

What the queries for a job, a requirement and a booking load, as the policies take it. -/

def Booking.resource (b : Booking) : Policies.Booking :=
  { id := b.id, customer_id := b.customerId, worker_id := b.workerId }

def Dispatch.resource (x : Dispatch) : Policies.Dispatch :=
  { id := x.id, requirement_id := x.requirementId, worker_id := x.workerId }

def Db.dispatchesOf (d : Db) (requirementId : Id) : List Policies.Dispatch :=
  (d.dispatches.filter fun x => decide (x.requirementId = requirementId)).map Dispatch.resource

def Db.jobResource (d : Db) (job : Job) : Policies.Job :=
  { id := job.id
    customer_id := job.customerId
    booking := (d.bookings.filter fun b => decide (b.jobId = job.id)).map Booking.resource
    job_requirement := (d.requirements.filter fun r => decide (r.jobId = job.id)).map fun r =>
      { id := r.id, job_dispatch := d.dispatchesOf r.id } }

/-- A requirement with its job, which its foreign key names. -/
def Db.requirementResource (d : Db) (r : Requirement) : Option Policies.Requirement :=
  (Table.find Job.id d.jobs r.jobId).map fun job =>
    { id := r.id
      job_id := r.jobId
      job := ⟨job.customerId⟩
      job_dispatch := d.dispatchesOf r.id
      booking := (d.bookings.filter fun b => decide (b.requirementId = r.id)).map Booking.resource }

/-! ### Writes -/

inductive Write where
  | connect (socket : Socket) (rooms : List String)
  | join (socket : Socket) (room : String)
  | close (socket : Socket)
  | disconnectSockets (room : String)
  | emit (room : String) (packet : Packet)
  | insertConversation (conversation : Conversation)
  | insertMessage (message : Message) (author : SocketUserData)
  | updateLocation (workerId newId : Id) (place : Place) (at_ : ℕ)
  | insertWorker (worker : Worker)
  | suspendWorker (id : Id) (at_ : ℕ)
  | verificationStatus (id : Id) (status : String)
  | insertCustomer (customer : Customer)
  | insertJob (job : Job)
  | insertRequirement (requirement : Requirement)
  | insertDispatch (dispatch : Dispatch)
  | insertBooking (booking : Booking)
  | bookingStatus (id : Id) (status : String)
  | tick (ms : ℕ)
deriving DecidableEq

/-- `verification_status` 'suspended', with `deleted_at`. -/
def suspended (at_ : ℕ) (w : Worker) : Worker :=
  { w with verificationStatus := "suspended", deletedAt := some at_ }

def reviewed (status : String) (w : Worker) : Worker := { w with verificationStatus := status }

def Booking.moved (status : String) (b : Booking) : Booking := { b with status }

/-- Two rows with one value in a column that is unique. -/
def sameOn {Row Value : Type} [DecidableEq Value] (column : Row → Value) (new old : Row) : Bool :=
  decide (column new = column old)

/-- The primary key, and the unique column `booking_id`. -/
def Conversation.clash (new old : Conversation) : Bool :=
  sameOn Conversation.id new old || sameOn Conversation.bookingId new old

def Connection.joined (socket : Socket) (room : String) (c : Connection) : Connection :=
  if c.socket = socket then { c with rooms := c.rooms ++ [room] } else c

def Db.emission (d : Db) (room : String) (packet : Packet) : Emission :=
  { room, packet, connected := d.connected, receivers := d.inRoom room }

def Write.apply (w : Write) (d : Db) : Db :=
  match w with
  | .connect socket rooms => { d with sockets := d.sockets ++ [{ socket, rooms }] }
  | .join socket room => { d with sockets := d.sockets.map (Connection.joined socket room) }
  | .close socket => { d with sockets := d.sockets.filter fun c => decide (c.socket ≠ socket) }
  | .disconnectSockets room =>
    { d with sockets := d.sockets.filter fun c => decide (room ∉ c.rooms) }
  | .emit room packet => { d with emissions := d.emissions ++ [d.emission room packet] }
  | .insertConversation c =>
    { d with conversations := Table.insert Conversation.clash d.conversations c }
  | .insertMessage m author =>
    { d with
      messages := Table.insert (sameOn Message.id) d.messages m
      authors := d.authors ++ [(m.id, author)] }
  | .updateLocation workerId newId place t =>
    { d with tracking := d.tracking.updateLocation workerId newId place t }
  | .insertWorker w =>
    { d with tracking := { d.tracking with
      workers := Table.insert (sameOn Worker.id) d.tracking.workers w } }
  | .suspendWorker id t =>
    { d with tracking := { d.tracking with
      workers := Table.modify Worker.id d.tracking.workers [id] (suspended t) } }
  | .verificationStatus id status =>
    { d with tracking := { d.tracking with
      workers := Table.modify Worker.id d.tracking.workers [id] (reviewed status) } }
  | .insertCustomer c => { d with customers := Table.insert (sameOn Customer.id) d.customers c }
  | .insertJob job => { d with jobs := Table.insert (sameOn Job.id) d.jobs job }
  | .insertRequirement r =>
    { d with requirements := Table.insert (sameOn Requirement.id) d.requirements r }
  | .insertDispatch x => { d with dispatches := Table.insert (sameOn Dispatch.id) d.dispatches x }
  | .insertBooking b =>
    { d with
      bookings := Table.insert (sameOn Booking.id) d.bookings b
      held := if d.bookings.any (sameOn Booking.id b) then d.held else d.held ++ [(b.id, b.status)] }
  | .bookingStatus id status =>
    { d with
      bookings := Table.modify Booking.id d.bookings [id] (Booking.moved status)
      held := d.held ++ [(id, status)] }
  | .tick ms => { d with now := d.now + ms }

/-! ### Row locks

Only the row of a worker is ever locked by a transaction of several statements. -/

inductive Key where
  | worker (id : Id)
deriving DecidableEq

def Write.keys : Write → List Key
  | .updateLocation id _ _ _ | .suspendWorker id _ | .verificationStatus id _ => [.worker id]
  | .insertWorker w => [.worker w.id]
  | _ => []

def Db.row (d : Db) : Key → Option Worker
  | .worker id => d.worker id

theorem Write.row_apply (w : Write) (d : Db) (k : Key) (untouched : k ∉ w.keys) :
    (w.apply d).row k = d.row k := by
  obtain ⟨id⟩ := k
  cases w with
  | updateLocation workerId newId place t =>
    have other : id ∉ [workerId] := by simpa [Write.keys] using untouched
    simp only [Db.row, Db.worker, Write.apply, Tracking.worker, Tracking.updateLocation]
    split
    · exact Table.find_modify_of_notMem _ _ (Worker.located place t) _ (fun _ => rfl) other
    · rfl
  | insertWorker w =>
    have other : w.id ≠ id := fun same => untouched (by simp [Write.keys, same])
    simp only [Db.row, Db.worker, Tracking.worker, Write.apply, Table.find_insert_of_ne other]
  | suspendWorker i t =>
    exact Table.find_modify_of_notMem _ _ (suspended t) _ (fun _ => rfl)
      (by simpa [Write.keys] using untouched)
  | verificationStatus i status =>
    exact Table.find_modify_of_notMem _ _ (reviewed status) _ (fun _ => rfl)
      (by simpa [Write.keys] using untouched)
  | _ => rfl

instance : RowStore Db Write Key where
  Row := fun _ => Option Worker
  row := Db.row
  write := Write.apply
  keys := Write.keys
  row_write := Write.row_apply

@[simp] theorem write_eq_apply (w : Write) (d : Db) : write w d = w.apply d := rfl

@[simp] theorem keys_eq (w : Write) : keys Db w = w.keys := rfl

end LabourBaba.Sockets
