import LabourBaba.Sockets.Services

/-!
# The server

Any number of calls against the tables and the sockets: handshakes, events of connected
clients, chat requests, the emissions of the workers that deliver notifications, suspensions
and reviews. What the rest of the program does to the rows that are read here comes as calls
of its own: rows are added, and bookings change their status.
-/
namespace LabourBaba.Sockets

open Store Locations

/-- What a connected client can send. -/
inductive ClientEvent where
  | joinWorker (workerId : Option String)
  | joinCustomer (customerId : Option String)
  | joinBooking (bookingId : Option String)
  | joinJob (jobId : Option String)
  | joinRequirement (requirementId : Option String)
  | locationUpdate (payload : WorkerLocationPayload) (newId : Id)
  | chatMessage (bookingId : Option String) (content : Option Text) (new : NewIds)
deriving DecidableEq

/-- A statement of the rest of the program. -/
inductive Change where
  | worker (worker : Worker)
  | customer (customer : Customer)
  | job (job : Job)
  | requirement (requirement : Requirement)
  | dispatch (dispatch : Dispatch)
  | booking (booking : Booking)
  | bookingStatus (id : Id) (status : String)
  | tick (ms : ℕ)
deriving DecidableEq

def Change.write : Change → Write
  | worker w => .insertWorker w
  | customer c => .insertCustomer c
  | job j => .insertJob j
  | requirement r => .insertRequirement r
  | dispatch x => .insertDispatch x
  | booking b => .insertBooking b
  | bookingStatus id status => .bookingStatus id status
  | tick ms => .tick ms

inductive Op where
  | connect (credentials : Credentials)
  | event (socket : Socket) (event : ClientEvent)
  /-- The client closes its socket. -/
  | disconnect (socket : Socket)
  | postMessage (credentials : Credentials) (bookingId : String) (content : Text) (new : NewIds)
  | getMessages (credentials : Credentials) (bookingId : String) (newId : Id)
  /-- An event of the outbox or of a queue worker to a recipient. -/
  | notify (role : UserRole) (recipientId : Id) (event : String)
  | suspendWorker (workerId : String)
  | verifyWorkerDocument (workerId : String) (verified : Bool)
  | change (change : Change)
deriving DecidableEq

inductive Reply where
  | done
  | ack (response : SocketAckResponse)
  | message (message : Message)
  | messages (messages : List Message)
deriving DecidableEq

abbrev Outcome := Except Failure Reply

def handle (cfg : Config) (socket : Socket) : ClientEvent → Ack
  | .joinWorker workerId => joinWorker socket workerId
  | .joinCustomer customerId => joinCustomer socket customerId
  | .joinBooking bookingId => joinRoom bookings cfg socket bookingId
  | .joinJob jobId => joinRoom jobs cfg socket jobId
  | .joinRequirement requirementId => joinRoom requirements cfg socket requirementId
  | .locationUpdate payload newId => locationUpdate cfg socket payload newId
  | .chatMessage bookingId content new => chatMessage cfg socket bookingId content new

def serviceOf (cfg : Config) (me : ℕ) : Op → Service Reply
  | .connect credentials => do
    connect cfg me credentials
    pure .done
  | .event socket event => do
    -- a packet arrives on a connected socket only
    let connected ← query fun d => decide (socket ∈ d.connected)
    if connected then do
      let response ← handle cfg socket event
      pure (.ack response)
    else throw .closed
  | .disconnect socket => do
    effect (.close socket) rfl
    pure .done
  | .postMessage credentials bookingId content new => do
    let message ← postMessage cfg credentials bookingId content new
    pure (.message message)
  | .getMessages credentials bookingId newId => do
    let messages ← listMessages cfg credentials bookingId newId
    pure (.messages messages)
  | .notify role recipientId event => do
    emit (personalRoom role recipientId) (.notification event)
    pure .done
  | .suspendWorker workerId => do
    suspendWorker cfg workerId
    pure .done
  | .verifyWorkerDocument workerId verified => do
    verifyWorkerDocument cfg workerId verified
    pure .done
  | .change change => do
    step fun _ => .ok ([change.write], ())
    pure .done

def system (cfg : Config) (me : ℕ) (op : Op) : Prog Label Db Write Key Outcome :=
  (serviceOf cfg me op).run

abbrev SocketPool := Pool Label Db Write Key Op Outcome

abbrev SocketThread := Thread Label Db Write Key Op Outcome

/-- Everything that can happen to a server that starts with nothing. -/
def Reachable (cfg : Config) : SocketPool → Prop :=
  Pool.Reaches (system cfg) (Pool.Meets fun _ _ => True) { db := {} }

/-- Identifiers taken as they are spelled. -/
def plainConfig : Config where
  uuid id := if id = "" then none else some id
  uuid_nonempty s := by split <;> simp [*]
  numberText _ := ""

/-- The server after a schedule. -/
def played (moves : List (Pool.Move Op)) : SocketPool :=
  Pool.after (system plainConfig) (Pool.Meets fun _ _ => True) 40 { db := {} } moves

theorem reachable_played (moves : List (Pool.Move Op)) : Reachable plainConfig (played moves) :=
  Pool.Reaches.refl.after 40 moves

end LabourBaba.Sockets
