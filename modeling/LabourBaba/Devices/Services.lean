import LabourBaba.Devices.Schema
import LabourBaba.Store.Calls
import LabourBaba.Text.Numbers

/-!
# Device services and push delivery

`workerDeviceService` and `customerDeviceService`, the classification of the errors of the
messaging client, the delivery of a push to the devices of a recipient and the worker that
delivers the offers of a wave. Any statement may fail. The tokens of a recipient are served one
after another, in any order, with the provider's answers as arguments.
-/
namespace LabourBaba.Devices

open Store Utf16

structure Config where
  /-- `String.prototype.toLowerCase` -/
  toLowerCase : Text → Text
  /-- `isFirebaseInitialized`, with an app. -/
  initialized : Bool
  /-- There is a socket server in this process. -/
  sockets : Bool := true

inductive Failure where
  | database
deriving DecidableEq

abbrev Service := Call Unit Db Write Empty Failure

/-- The database may fail a statement. -/
def reached {α : Type} (c : Service α) : Service α := do
  let answered ← Call.choose
  if answered then c else throw .database

def query {α : Type} (f : Db → α) : Service α := reached (Call.read () f)

def statement {α : Type} (f : Db → List Write × α) : Service α :=
  reached (Call.stmt () fun d => .ok (f d))

/-- What is not a statement of the database. -/
def note (e : Entry) : Service Unit := Call.send () fun _ => ([⟨.note e, rfl⟩], ())

def now : Service ℕ := Call.read () Db.now

/-! ### Devices -/

def trim (s : Text) : Text := ((s.dropWhile isWhiteSpace).reverse.dropWhile isWhiteSpace).reverse

/-- `value || fallback` -/
def orElse (value : Option Text) (fallback : Text) : Text := (value.filter (· ≠ [])).getD fallback

structure RegisterDeviceReq where
  deviceToken : Text
  deviceId : Option Text := none
  platform : Option Text := none
deriving DecidableEq

/-- `toWorkerDeviceDTO` and `toCustomerDeviceDTO` -/
structure DeviceDTO where
  id : Id
  ownerId : Id
  deviceId : Text
  platform : Text
  lastSeenAt : ℕ
  createdAt : ℕ
  isActive : Bool
deriving DecidableEq

def Device.toDTO (x : Device) : DeviceDTO :=
  { id := x.id, ownerId := x.ownerId, deviceId := x.deviceId, platform := x.platform
    lastSeenAt := x.lastSeenAt, createdAt := x.createdAt, isActive := x.active }

/-- The device that a registration is about; a client without an identifier has one device. -/
def deviceIdOf (ownerId : Id) (payload : RegisterDeviceReq) : Text :=
  orElse (payload.deviceId.map trim) (lit "legacy_" ++ ownerId ++ lit "_default")

/-- `registerDevice` of both services: an upsert on the owner and the device. -/
def registerDevice (holder : Holder) (ownerId : Id) (payload : RegisterDeviceReq) (newId : Id) :
    Service DeviceDTO := do
  let t ← now
  let new : Device :=
    { id := newId, ownerId, deviceId := deviceIdOf ownerId payload, fcmToken := payload.deviceToken
      platform := orElse payload.platform (lit "android"), lastSeenAt := t, createdAt := t
      updatedAt := t }
  statement fun d =>
    ([.upsert holder new], (((d.device holder new.ownerId new.deviceId).map new.renewed).getD new).toDTO)

/-- `getActiveDevices` of both services, as far as the delivery of a push reads the rows; the
look-up is logged. -/
def getActiveDevices (holder : Holder) (ownerId : Id) : Service (List Text) :=
  statement fun d =>
    let tokens := ((d.devices holder).filter fun x =>
      decide (x.ownerId = ownerId) && x.active).map Device.fcmToken
    ([.note (.looked holder ownerId tokens)], tokens)

def revokeDevice (holder : Holder) (ownerId : Id) (deviceId : Text) : Service ℕ := do
  let t ← now
  statement fun d =>
    ([.revoke holder ownerId deviceId t],
      (d.devices holder).countP fun x => decide (x.key = (ownerId, deviceId)) && x.active)

def revokeByToken (holder : Holder) (fcmToken : Text) : Service ℕ :=
  if fcmToken = [] then pure 0
  else do
    let t ← now
    statement fun d =>
      ([.revokeToken holder fcmToken t],
        (d.devices holder).countP fun x => decide (x.fcmToken = fcmToken) && x.active)

/-! ### Errors of the messaging client -/

inductive FCMErrorCategory where
  | INVALID_REGISTRATION_TOKEN | UNREGISTERED_DEVICE | INVALID_ARGUMENT | AUTHENTICATION_ERROR
  | TRANSIENT_FAILURE | RATE_LIMITED | UNKNOWN
deriving DecidableEq

structure ClassifiedFCMError where
  category : FCMErrorCategory
  isInvalidToken : Bool
  isPermanent : Bool
  shouldRetry : Bool
  message : Text
deriving DecidableEq

/-- `text.includes(pattern)` for one of some patterns. -/
def mentions (s : Text) (patterns : List String) : Bool :=
  patterns.any fun pattern => decide (lit pattern <:+: s)

def classifyFCMError (cfg : Config) (error : Option FCMError) : ClassifiedFCMError :=
  match error with
  | none => ⟨.UNKNOWN, false, false, false, lit "Unknown error"⟩
  | some error =>
    let code := cfg.toLowerCase (orElse error.code (orElse error.infoCode []))
    let message := cfg.toLowerCase (orElse error.message [])
    let told (fallback : String) : Text := orElse error.message (lit fallback)
    -- 1. an unregistered device
    if mentions code ["registration-token-not-registered"] ∨
        mentions message ["registration-token-not-registered", "requested entity was not found"] then
      ⟨.UNREGISTERED_DEVICE, true, true, false, told "Registration token is no longer registered"⟩
    -- 2. a token of no known form
    else if mentions code ["invalid-registration-token"] ∨
        mentions message ["invalid-registration-token", "not a valid fcm registration token"] then
      ⟨.INVALID_REGISTRATION_TOKEN, true, true, false,
        told "Invalid FCM registration token format"⟩
    -- 3. a malformed payload or token
    else if mentions code ["invalid-argument"] ∨ mentions message ["invalid-argument"] then
      ⟨.INVALID_ARGUMENT, mentions message ["token", "recipient"], true, false,
        told "Invalid argument in FCM request"⟩
    -- 4. quotas
    else if mentions code
          ["quota-exceeded", "message-rate-exceeded", "device-message-rate-exceeded"] ∨
        mentions message ["rate limit", "429"] then
      ⟨.RATE_LIMITED, false, false, true, told "FCM quota or message rate exceeded"⟩
    -- 5. the network or the server
    else if mentions code ["server-unavailable", "internal-error"] ∨
        mentions message ["etimedout", "econnreset", "econnrefused", "socket hang up", "503", "500",
          "502", "timeout"] then
      ⟨.TRANSIENT_FAILURE, false, false, true, told "Transient network or FCM server error"⟩
    -- 6. credentials
    else if mentions code ["authentication-error", "mismatched-credential"] ∨
        mentions message ["credential", "auth error"] then
      ⟨.AUTHENTICATION_ERROR, false, true, false,
        told "Firebase Admin authentication or credential mismatch"⟩
    else ⟨.UNKNOWN, false, false, true, told "Unknown FCM error"⟩

/-- The provider refused the token for good. -/
def Answer.refuses (cfg : Config) : Answer → Bool
  | .ok _ => false
  | .error err => (classifyFCMError cfg err).isInvalidToken

/-! ### Delivery -/

structure FCMDeliveryResult where
  token : Text
  success : Bool
  messageId : Option Text := none
  error : Option FCMError := none
  isInvalidToken : Bool := false
  errorCategory : Option FCMErrorCategory := none
deriving DecidableEq

/-- What the network does: the answers, and the order in which the tokens are served. -/
structure Network where
  answer : ℕ → Answer
  order : List Text → List Text
  all : ∀ tokens, (order tokens).Perm tokens

def uninitialized : FCMError :=
  { message := some
      (lit "[FCM_UNINITIALIZED] Firebase Admin SDK is not initialized. Notification delivery failed.") }

/-- One token; an error of the cleanup is swallowed. -/
def sendFCMToToken (cfg : Config) (holder : Holder) (ownerId : Id) (token : Text) (answer : Answer) :
    Service FCMDeliveryResult :=
  if cfg.initialized then do
    note (.pushed holder ownerId token answer)
    match answer with
    | .ok messageId => pure { token, success := true, messageId := some messageId }
    | .error err => do
      let classified := classifyFCMError cfg err
      if classified.isInvalidToken then do
        let _ ← Call.attempt (revokeByToken holder token)
        pure { token, success := false, error := err, isInvalidToken := true
               errorCategory := some classified.category }
      else
        pure { token, success := false, error := err, errorCategory := some classified.category }
  else pure { token, success := false, error := some uninitialized, errorCategory := some .UNKNOWN }

/-- The tokens that are left, with the number of the next answer. -/
def sendEach (cfg : Config) (net : Network) (holder : Holder) (ownerId : Id) :
    List Text → ℕ → Service (List FCMDeliveryResult)
  | [], _ => pure []
  | token :: rest, n =>
    if token = [] then sendEach cfg net holder ownerId rest n
    else do
      let result ← sendFCMToToken cfg holder ownerId token (net.answer n)
      let results ← sendEach cfg net holder ownerId rest (n + 1)
      pure (result :: results)

def sendFCMToTokens (cfg : Config) (net : Network) (holder : Holder) (ownerId : Id)
    (tokens : List Text) : Service (List FCMDeliveryResult) :=
  sendEach cfg net holder ownerId (net.order tokens) 0

/-- `sendFCMToWorker` and `sendFCMToCustomer` -/
def sendFCMToHolder (cfg : Config) (net : Network) (holder : Holder) (ownerId : Id) :
    Service (List FCMDeliveryResult) := do
  let activeTokens ← getActiveDevices holder ownerId
  if activeTokens = [] then pure []
  else sendFCMToTokens cfg net holder ownerId (activeTokens.filter (· ≠ []))

def sendFCMToRecipient (cfg : Config) (net : Network) (recipientType : Text) (recipientId : Id) :
    Service (List FCMDeliveryResult) :=
  if recipientType = lit "worker" then sendFCMToHolder cfg net .worker recipientId
  else if recipientType = lit "customer" then sendFCMToHolder cfg net .customer recipientId
  else pure []

/-! ### The offers of a wave -/

/-- The push and the socket event for one worker; an error of the push is only logged. -/
def notifyWorker (cfg : Config) (net : Network) (workerId : Id) : Service Unit := do
  let _ ← Call.attempt (sendFCMToHolder cfg net .worker workerId)
  if cfg.sockets then note (.emitted (lit "worker:" ++ workerId) (lit "job:incoming"))
  else pure ()

/-- `processNotificationJob`, for the workers in the order in which they are served. -/
def processNotificationJob (cfg : Config) (net : Id → Network) : List Id → Service Unit
  | [] => pure ()
  | workerId :: rest => do
    notifyWorker cfg (net workerId) workerId
    processNotificationJob cfg net rest

/-! ### The system -/

inductive Op where
  | registerDevice (holder : Holder) (ownerId : Id) (payload : RegisterDeviceReq) (newId : Id)
  | revokeDevice (holder : Holder) (ownerId : Id) (deviceId : Text)
  | sendFCMToRecipient (net : Network) (recipientType : Text) (recipientId : Id)
  | processNotificationJob (net : Id → Network) (workers : List Id)
  | tick (ms : ℕ)

inductive Reply where
  | device (device : DeviceDTO)
  | revokedCount (count : ℕ)
  | results (results : List FCMDeliveryResult)
  | done
deriving DecidableEq

abbrev Outcome := Except Failure Reply

def serviceOf (cfg : Config) : Op → Service Reply
  | .registerDevice holder ownerId payload newId => do
    let device ← registerDevice holder ownerId payload newId
    pure (.device device)
  | .revokeDevice holder ownerId deviceId => do
    let count ← revokeDevice holder ownerId deviceId
    pure (.revokedCount count)
  | .sendFCMToRecipient net recipientType recipientId => do
    let results ← sendFCMToRecipient cfg net recipientType recipientId
    pure (.results results)
  | .processNotificationJob net workers => do
    processNotificationJob cfg net workers
    pure .done
  | .tick ms => do
    Call.send () fun _ => ([⟨.tick ms, rfl⟩], ())
    pure .done

def system (cfg : Config) (_ : ℕ) (op : Op) : Prog Unit Db Write Empty Outcome := (serviceOf cfg op).run

abbrev DevicePool := Pool Unit Db Write Empty Op Outcome

abbrev DeviceThread := Thread Unit Db Write Empty Op Outcome

/-- Everything that can happen to tables that start empty. -/
def Reachable (cfg : Config) : DevicePool → Prop :=
  Pool.Reaches (system cfg) (Pool.Meets fun _ _ => True) { db := {} }

end LabourBaba.Devices
