import LabourBaba.Sockets.Schema
import LabourBaba.Store.Calls

/-!
# Handshakes, handlers and the chat service

The handlers of `registerSocketHandlers`, statement by statement, with the handshake before
them, the chat service behind them and the other callers that emit to rooms or close sockets.
An identifier that a client sends names a row as its spelling is parsed by the database, but
a room by its spelling.
-/
namespace LabourBaba.Sockets

open Store Locations
open Policies (AuthenticatedUser PolicyDecision)

/-- What is not under our control: how the database parses an identifier, and how a number is
shown. -/
structure Config where
  uuid : String → Option Id
  uuid_nonempty : ∀ s, uuid s ≠ some ""
  numberText : ℚ → String

inductive Failure where
  /-- `AuthorizationError` -/
  | authorization (message : String) (statusCode : ℕ) (code : String)
  /-- `WorkerLocationServiceError` -/
  | workerLocation (message : String) (statusCode : ℕ)
  /-- An error of the middleware, which refuses the handshake or the request. -/
  | refused (message : String)
  | uniqueViolation
  | invalidUuid
  | recordNotFound
  | typeError
  /-- The socket is closed, so no handler runs. -/
  | closed
deriving DecidableEq

/-- `err.code`, of which the client library sets its own for a failed statement. -/
def Failure.code : Failure → Option String
  | authorization _ _ code => some code
  | uniqueViolation => some "P2002"
  | invalidUuid => some "P2023"
  | recordNotFound => some "P2025"
  | workerLocation _ _ | refused _ | typeError | closed => none

inductive Label where
  | step
  /-- `disconnectUserSockets` -/
  | disconnect (room : String)
deriving DecidableEq

abbrev Service := Call Label Db Write Key Failure

def query {α : Type} (f : Db → α) : Service α := Call.read .step f

def step {α : Type} (f : Db → Except Failure (List Write × α)) : Service α := Call.stmt .step f

/-- A step that touches no row. -/
def effect (w : Write) (unlocked : w.keys = []) : Service Unit :=
  Call.send .step fun _ => ([⟨w, unlocked⟩], ())

def now : Service ℕ := query Db.now

/-- The row that an identifier names; a malformed one is an error of the query. -/
def parse (cfg : Config) (id : String) : Service Id :=
  match cfg.uuid id with
  | some key => pure key
  | none => throw .invalidUuid

/-! ### Rooms -/

def getBookingChatRoom (bookingId : String) : String := "booking:" ++ bookingId

def getWorkerPersonalRoom (workerId : String) : String := "worker:" ++ workerId

def getCustomerPersonalRoom (customerId : String) : String := "customer:" ++ customerId

def getAdminPersonalRoom (adminId : String) : String := "admin:" ++ adminId

def getJobRoom (jobId : String) : String := "job:" ++ jobId

def getRequirementRoom (requirementId : String) : String := "requirement:" ++ requirementId

def join (socket : Socket) (room : String) : Service Unit := effect (.join socket room) rfl

def emit (room : String) (packet : Packet) : Service Unit := effect (.emit room packet) rfl

/-- The rooms that a connection is put into at once. -/
def personalRooms (user : SocketUserData) : List String :=
  match user.role with
  | .WORKER => [getWorkerPersonalRoom user.id]
  | .CUSTOMER => [getCustomerPersonalRoom user.id]
  | .ADMIN => [getAdminPersonalRoom user.id, "admins"]

/-- The room in which a user of a role is reached. -/
def personalRoom (role : UserRole) (id : Id) : String :=
  match role with
  | .WORKER => getWorkerPersonalRoom id
  | .CUSTOMER => getCustomerPersonalRoom id
  | .ADMIN => getAdminPersonalRoom id

/-! ### Handshakes and requests -/

structure TokenClaims where
  id : String
  role : String
  phone : Option String := none
deriving DecidableEq

inductive Credentials where
  | missing
  /-- `verifyAccessToken` does not accept the token. -/
  | rejected
  | verified (claims : TokenClaims)
deriving DecidableEq

def invalidCredentials : Failure := .refused "Invalid authentication credentials"

/-- The worker may act: the account is neither closed nor suspended. -/
def usable (w : Worker) : Bool := w.deletedAt.isNone && decide (w.verificationStatus ≠ "suspended")

def socketAuthMiddleware (cfg : Config) : Credentials → Service SocketUserData
  | .missing => throw (.refused "Authentication required")
  | .rejected => throw invalidCredentials
  | .verified claims =>
    if claims.id = "" then throw invalidCredentials
    else match Policies.UserRole.ofText claims.role with
      | none => throw invalidCredentials
      | some .ADMIN => pure { id := claims.id, role := .ADMIN, phone := claims.phone }
      | some .WORKER => do
        match cfg.uuid claims.id with
        | none => throw invalidCredentials
        | some id => do
          let worker ← query fun d => (d.worker id).filter usable
          match worker with
          | none => throw invalidCredentials
          | some w => pure { id := w.id, role := .WORKER, phone := some w.phone }
      | some .CUSTOMER => do
        match cfg.uuid claims.id with
        | none => throw invalidCredentials
        | some id => do
          let customer ← query fun d => (d.customer id).filter fun c => c.deletedAt.isNone
          match customer with
          | none => throw invalidCredentials
          | some c => pure { id := c.id, role := .CUSTOMER, phone := some c.phone }

/-- The handshake and the connection that follows it. -/
def connect (cfg : Config) (me : ℕ) (credentials : Credentials) : Service Unit := do
  let user ← socketAuthMiddleware cfg credentials
  effect (.connect ⟨me, user⟩ (personalRooms user)) rfl

/-- The principal of a request keeps the identifier of its token. -/
def authenticateJWT (cfg : Config) : Credentials → Service SocketUserData
  | .missing =>
    throw (.refused "Authorization token missing or invalid (expected Bearer <token>)")
  | .rejected => throw (.refused "Authorization token has expired or is invalid")
  | .verified claims =>
    let user (role : UserRole) : SocketUserData := { id := claims.id, role, phone := claims.phone }
    if claims.id = "" then throw (.refused "Authorization token has expired or is invalid")
    else match Policies.UserRole.ofText claims.role with
      | none => throw (.refused "Authorization token contains an invalid or unsupported role claim")
      | some .ADMIN => pure (user .ADMIN)
      | some .WORKER => do
        let id ← parse cfg claims.id
        let worker ← query fun d => (d.worker id).filter fun w => usable w
        if worker.isNone then throw (.refused "Account has been suspended or deactivated")
        else pure (user .WORKER)
      | some .CUSTOMER => do
        let id ← parse cfg claims.id
        let customer ← query fun d => (d.customer id).filter fun c => c.deletedAt.isNone
        if customer.isNone then throw (.refused "Account is inactive or has been deactivated")
        else pure (user .CUSTOMER)

/-! ### Identifiers and contents -/

/-- `uuidRegex` -/
def isUuid (val : String) : Bool :=
  let isHex := fun c : Char => c.isDigit || ('a' ≤ c && c ≤ 'f') || ('A' ≤ c && c ≤ 'F')
  let groups := val.toList.splitOn '-'
  decide (groups.map List.length = [8, 4, 4, 4, 12]) && groups.flatten.all isHex

/-- `isValidIdentifier`, where a route allows names of its own after a word and a hyphen. -/
def isValidIdentifier (val : String) (word : Option String := none) : Bool :=
  isUuid val || word.any fun word =>
    let named := val.toList.drop (word.length + 1)
    decide ((word ++ "-").toList <+: val.toList) && !named.isEmpty &&
      named.all fun c => c.isAlphanum || c == '_' || c == '-'

/-- `content.trim()` -/
def trim (content : Text) : Text :=
  ((content.dropWhile Utf16.isWhiteSpace).reverse.dropWhile Utf16.isWhiteSpace).reverse

/-! ### Acknowledgements -/

structure SocketAckResponse where
  success : Bool
  message : Option String := none
  code : Option String := none
  data : Option Message := none
deriving DecidableEq

def SocketAckResponse.failure (code message : String) : SocketAckResponse :=
  { success := false, code := some code, message := some message }

abbrev Ack := Service SocketAckResponse

def actor (user : SocketUserData) : AuthenticatedUser :=
  { id := user.id, role := .string user.role.value }

/-! ### The chat service -/

/-- The texts of the roles are in lower case already. -/
def scopeBooking (user : SocketUserData) (id : Id) : RowFilter Policies.Booking :=
  Policies.chatPolicy.scopeBooking (fun role => role) (actor user) id

def canReadConversation (user : SocketUserData) (booking : Policies.Booking) : PolicyDecision :=
  Policies.chatPolicy.canReadConversation (fun role => role) (actor user) booking

/-- `canJoinRoom` denies with a reason of its own. -/
def canJoinRoom (user : SocketUserData) (booking : Policies.Booking) : PolicyDecision :=
  let decision := canReadConversation user booking
  if decision.allowed then decision
  else { decision with reason := some "Forbidden: Not an authorized participant of this booking" }

def assertPolicy (decision : PolicyDecision) : Service Unit :=
  if decision.allowed then pure ()
  else throw (.authorization (decision.reason.getD "Forbidden: Insufficient permissions")
    (decision.statusCode.getD 403) (decision.code.getD "FORBIDDEN"))

def bookingNotFound : Failure := .authorization "Booking not found" 404 "RESOURCE_NOT_FOUND"

/-- A query with the scope of the policy, then a lookup that the policy decides about. -/
def authorizedBooking (user : SocketUserData) (id : Id) : Service Booking := do
  let booking ← query fun d => d.bookings.find? fun b => (scopeBooking user id).holds b.resource
  match booking with
  | some b => pure b
  | none => do
    let rawBooking ← query fun d => Table.find Booking.id d.bookings id
    match rawBooking with
    | none => throw bookingNotFound
    | some b => do
      assertPolicy (canReadConversation user b.resource)
      pure b

def createConversation (c : Conversation) : Service Conversation :=
  step fun d =>
    if d.conversations.any c.clash then .error .uniqueViolation
    else .ok ([.insertConversation c], c)

/-- Who loses the race for the unique `booking_id` reads what the winner wrote. -/
def getOrCreateConversation (b : Booking) (newId : Id) : Service Conversation := do
  let existing ← query fun d => d.conversation b.id
  match existing with
  | some c => pure c
  | none => do
    let created ← Call.attempt (createConversation
      { id := newId, bookingId := b.id, workerId := b.workerId, customerId := b.customerId })
    match created with
    | .ok c => pure c
    | .error err => do
      let stored ← query fun d => d.conversation b.id
      match stored with
      | some c => pure c
      | none => throw err

/-- The identifiers drawn for the rows that a call may insert. -/
structure NewIds where
  conversation : Id
  message : Id
deriving DecidableEq

def sendMessage (cfg : Config) (bookingId : String) (content : Text) (user : SocketUserData)
    (new : NewIds) : Service Message := do
  let id ← parse cfg bookingId
  let booking ← authorizedBooking user id
  let conversation ← getOrCreateConversation booking new.conversation
  step fun d =>
    let message : Message :=
      { id := new.message, conversationId := conversation.id, senderId := user.id
        content := trim content, sentAt := d.now }
    if d.messages.any (sameOn Message.id message) then .error .uniqueViolation
    else .ok ([.insertMessage message user], message)

def getMessages (cfg : Config) (bookingId : String) (user : SocketUserData) (newId : Id) :
    Service (List Message) := do
  let id ← parse cfg bookingId
  let booking ← authorizedBooking user id
  let conversation ← getOrCreateConversation booking newId
  query fun d => (d.messages.filter fun m => decide (m.conversationId = conversation.id)).insertionSort
    fun m m' => m.sentAt ≤ m'.sentAt

/-! ### Handlers -/

/-- `join:worker` and `join:customer`: the room is that of the principal, whatever the client
names. -/
def joinPersonalRoom (role : UserRole) (wrongRole wrongUser joined : String) (socket : Socket)
    (claimed : Option String) : Ack :=
  if socket.user.role ≠ role ∧ socket.user.role ≠ .ADMIN then pure (.failure "FORBIDDEN" wrongRole)
  else if (claimed.filter (· ≠ "")).any (· ≠ socket.user.id) ∧ socket.user.role ≠ .ADMIN then
    pure (.failure "FORBIDDEN" wrongUser)
  else do
    join socket (personalRoom role socket.user.id)
    pure { success := true, message := some (joined ++ personalRoom role socket.user.id) }

def joinWorker : Socket → Option String → Ack :=
  joinPersonalRoom .WORKER "Forbidden: Worker role required"
    "Forbidden: Cannot join another worker's room" "Joined worker room: "

def joinCustomer : Socket → Option String → Ack :=
  joinPersonalRoom .CUSTOMER "Forbidden: Customer role required"
    "Forbidden: Cannot join another customer's room" "Joined customer room: "

/-- A kind of row whose readers share a room. -/
structure Joinable (Row : Type) where
  rows : Db → List Row
  id : Row → Id
  scopeRead : SocketUserData → Id → RowFilter Row
  canRead : SocketUserData → Row → PolicyDecision
  denied : PolicyDecision → SocketAckResponse
  room : String → String
  invalid : String
  notFound : String
  joined : String
  failed : String

def bookings : Joinable Policies.Booking where
  rows d := d.bookings.map Booking.resource
  id := Policies.BookingResource.id
  scopeRead := scopeBooking
  canRead := canJoinRoom
  denied decision := .failure "FORBIDDEN"
    (decision.reason.getD "Forbidden: Not an authorized participant of this booking")
  room := getBookingChatRoom
  invalid := "Valid bookingId is required"
  notFound := "Booking not found"
  joined := "Joined booking room: "
  failed := "Failed to join booking room"

def jobs : Joinable Policies.Job where
  rows d := d.jobs.map d.jobResource
  id := Policies.Job.id
  scopeRead user := Policies.jobPolicy.scopeRead (actor user)
  canRead user job := Policies.jobPolicy.canRead (actor user) job.resource
  denied decision := .failure (decision.code.getD "FORBIDDEN")
    (decision.reason.getD "Forbidden: Not authorized to access this job")
  room := getJobRoom
  invalid := "Valid jobId is required"
  notFound := "Job not found"
  joined := "Joined job room: "
  failed := "Failed to join job room"

def requirements : Joinable Policies.Requirement where
  rows d := d.requirements.filterMap d.requirementResource
  id := Policies.Requirement.id
  scopeRead user := Policies.requirementPolicy.scopeRead (actor user)
  canRead user requirement := Policies.requirementPolicy.canRead (actor user) requirement.resource
  denied decision := .failure (decision.code.getD "FORBIDDEN")
    (decision.reason.getD "Forbidden: Not authorized to access this requirement")
  room := getRequirementRoom
  invalid := "Valid requirementId is required"
  notFound := "Requirement not found"
  joined := "Joined requirement room: "
  failed := "Failed to join requirement room"

/-- `handleJoinBooking`, `join:job` and `join:requirement`. -/
def joinRoom {Row : Type} (kind : Joinable Row) (cfg : Config) (socket : Socket)
    (named : Option String) : Ack :=
  let enter (id : String) : Ack := do
    join socket (kind.room id)
    pure { success := true, message := some (kind.joined ++ kind.room id) }
  match named.filter fun id => isValidIdentifier id with
  | none => pure (.failure "INVALID_REQUEST" kind.invalid)
  | some id =>
    match cfg.uuid id with
    | none => pure (.failure "INTERNAL_ERROR" kind.failed)
    | some key => do
      let row ← query fun d => (kind.scopeRead socket.user key).findFirst (kind.rows d)
      match row with
      | some _ => enter id
      | none => do
        let rawRow ← query fun d => Table.find kind.id (kind.rows d) key
        match rawRow with
        | none => pure (.failure "RESOURCE_NOT_FOUND" kind.notFound)
        | some row =>
          let decision := kind.canRead socket.user row
          if decision.allowed then enter id else pure (kind.denied decision)

/-- `ACTIVE_LOCATION_STREAMING_STATUSES` -/
def activeLocationStreamingStatuses : List String :=
  ["CONFIRMED", "IN_PROGRESS", "AWAITING_CONFIRMATION", "confirmed", "in_progress",
    "awaiting_confirmation", "assigned", "ASSIGNED", "accepted", "ACCEPTED", "arrived", "ARRIVED",
    "ACTIVE", "active"]

structure WorkerLocationPayload where
  customerId : Option String
  lat : Coordinate
  lng : Coordinate
  workerId : Option String := none
deriving DecidableEq

/-- `workerLocationService.updateLocation`; the row that the statement returns is left out. -/
def updateLocation (cfg : Config) (workerId newId : Id) (place : Place) : Service Unit :=
  if workerId = "" then throw (.workerLocation "Authenticated worker ID is required" 401)
  else match validateCoordinatePair cfg.numberText (.number place.latitude)
      (.number place.longitude) with
  | .error error =>
    throw (.workerLocation ("Invalid geographic coordinates: " ++ error) 400)
  | .ok place => do
    let t ← now
    let updated ← step fun d =>
      .ok ([.updateLocation workerId newId place t], d.tracking.active workerId)
    if updated then pure ()
    else do
      -- no row came back: the account is looked up for the reason
      let active ← query fun d => d.tracking.active workerId
      if active then throw .typeError
      else throw (.workerLocation "Worker not found or account is deactivated" 404)

/-- The booking that lets the customer follow the worker. -/
def Booking.streams (workerId customerId : Id) (b : Booking) : Bool :=
  decide (b.workerId = workerId ∧ b.customerId = customerId ∧
    b.status ∈ activeLocationStreamingStatuses)

def locationUpdate (cfg : Config) (socket : Socket) (payload : WorkerLocationPayload)
    (newId : Id) : Ack :=
  if socket.user.role ≠ .WORKER then
    pure (.failure "FORBIDDEN" "Forbidden: Only workers can broadcast location updates")
  else if (payload.workerId.filter (· ≠ "")).any (· ≠ socket.user.id) then
    pure (.failure "FORBIDDEN" "Forbidden: Cannot spoof worker identity")
  else match payload.customerId.filter (· ≠ "") with
  | none => pure (.failure "INVALID_REQUEST" "Missing required field: customerId")
  | some customerId =>
    match validateCoordinatePair cfg.numberText payload.lat payload.lng with
    | .error error => pure (.failure "INVALID_REQUEST" error)
    | .ok place =>
      match cfg.uuid customerId with
      | none => pure (.failure "INTERNAL_ERROR" "Failed to process location update")
      | some key => do
        let activeRelationship ← query fun d => d.bookings.any (Booking.streams socket.user.id key)
        if activeRelationship = false then
          pure (.failure "FORBIDDEN" "Forbidden: Not assigned to this customer")
        else do
          let updated ← Call.attempt (updateLocation cfg socket.user.id newId place)
          match updated with
          | .error locErr =>
            pure (.failure (locErr.code.getD "INVALID_REQUEST") "Failed to persist worker location")
          | .ok _ => do
            emit (getCustomerPersonalRoom customerId) (.location socket.user.id place)
            pure { success := true }

/-- What a client is told of an error of the chat service. -/
def chatFailure (err : Failure) : SocketAckResponse :=
  match err with
  | .authorization _ 403 _ => .failure "FORBIDDEN" "Access denied to this booking conversation"
  | .authorization _ 404 _ => .failure "RESOURCE_NOT_FOUND" "Booking not found"
  | err => .failure (err.code.getD "INTERNAL_ERROR") "Failed to send message"

def chatMessage (cfg : Config) (socket : Socket) (bookingId : Option String)
    (content : Option Text) (new : NewIds) : Ack :=
  match bookingId.filter (fun id => isValidIdentifier id), content with
  | some bookingId, some content =>
    if trim content = [] then
      pure (.failure "INVALID_REQUEST" "Valid bookingId and non-empty content are required")
    else if (trim content).length > 2000 then
      pure (.failure "INVALID_REQUEST" "Message content cannot exceed 2000 characters")
    else do
      let sent ← Call.attempt do
        let message ← sendMessage cfg bookingId (trim content) socket.user new
        emit (getBookingChatRoom bookingId) (.message message)
        pure message
      match sent with
      | .ok message => pure { success := true, data := some message }
      | .error err => pure (chatFailure err)
  | _, _ => pure (.failure "INVALID_REQUEST" "Valid bookingId and non-empty content are required")

/-! ### Requests -/

/-- The checks of the route and `chatController.sendMessage`. -/
def postMessage (cfg : Config) (credentials : Credentials) (bookingId : String) (content : Text)
    (new : NewIds) : Service Message := do
  let user ← authenticateJWT cfg credentials
  if isValidIdentifier bookingId (some "booking") = false then
    throw (.refused "Invalid bookingId format: must be a valid UUID")
  else if trim content = [] then throw (.refused "Message content cannot be empty")
  else if (trim content).length > 2000 then
    throw (.refused "Message content cannot exceed 2000 characters")
  else do
    let message ← sendMessage cfg bookingId (trim content) user new
    emit (getBookingChatRoom bookingId) (.message message)
    pure message

def listMessages (cfg : Config) (credentials : Credentials) (bookingId : String) (newId : Id) :
    Service (List Message) := do
  let user ← authenticateJWT cfg credentials
  if isValidIdentifier bookingId (some "booking") = false then
    throw (.refused "Invalid bookingId format: must be a valid UUID")
  else getMessages cfg bookingId user newId

/-! ### Accounts -/

def disconnectUserSockets (userId : Id) (role : UserRole) : Service Unit :=
  Call.send (.disconnect (personalRoom role userId)) fun _ =>
    ([⟨.disconnectSockets (personalRoom role userId), rfl⟩], ())

/-- `adminService.suspendWorker`; the sessions and the audit row of its transaction are left
out. -/
def suspendWorker (cfg : Config) (workerId : String) : Service Unit := do
  let id ← parse cfg workerId
  let existing ← query fun d => d.worker id
  if existing.isNone then throw (.authorization "Worker not found" 404 "WORKER_NOT_FOUND")
  else do
    let suspensionTime ← now
    Call.transaction (fun _ => .step) (step fun d =>
      if (d.worker id).isNone then .error .recordNotFound
      else .ok ([.suspendWorker id suspensionTime], ()))
    disconnectUserSockets workerId .WORKER

/-- `adminService.verifyWorkerDocument`; the documents are not modelled, so whether some are
pending is up to the environment. -/
def verifyWorkerDocument (cfg : Config) (workerId : String) (verified : Bool) : Service Unit := do
  let id ← parse cfg workerId
  let pending ← Call.choose
  if pending then
    step fun d =>
      if (d.worker id).isNone then .error .recordNotFound
      else .ok ([.verificationStatus id (if verified then "verified" else "rejected")], ())
  else throw (.refused "No pending documents for this worker")

end LabourBaba.Sockets
