import LabourBaba.Auth.OtpServices
import LabourBaba.RateLimit.Limiter
import Mathlib

/-!
# The limiters in front of the routes

A middleware checks a request on one key after another and refuses it at the first that does not
allow it. The OTP limiters check its address, its phone number and its device, the others one key
for the user or the address. Each check is a call of `incrementRateLimit` of its own.
-/
namespace LabourBaba.RateLimit.Middlewares

open Store

/-! ### Buckets -/

inductive Dimension where
  | ip | phone | device | user | worker
deriving DecidableEq, Repr

def Dimension.name : Dimension → Text
  | .ip => "ip".toList
  | .phone => "phone".toList
  | .device => "device".toList
  | .user => "user".toList
  | .worker => "worker".toList

/-- What the keys of a limiter begin with. -/
def keyStart (limiter : String) (dimension : Dimension) : Text :=
  "ratelimit:".toList ++ limiter.toList ++ ":".toList ++ dimension.name ++ ":".toList

/-- `authConfig`, the first digits of the SHA-256 hash, and what normalises phone numbers. -/
structure Config where
  otpMaxRequestsPerPhone : Int := 5
  otpMaxRequestsPerIp : Int := 10
  otpMaxRequestsPerDevice : Int := 5
  otpMaxVerifyAttemptsPerPhone : Int := 10
  otpMaxVerifyAttemptsPerIp : Int := 15
  otpMaxVerifyAttemptsPerDevice : Int := 10
  otpRateLimitWindowSeconds : Int := 900
  hashIdentifier : Text → Text
  auth : Auth.Config

/-- A kind of key: how the keys begin, what is allowed on each, and how a refusal reads. -/
structure Bucket where
  keyStart : Text
  options : RateLimitOptions
  failPolicy : RateLimitFailPolicy
  code : String
  message : String
  /-- The refusal names the whole window, whatever is left of it. -/
  wholeWindow : Bool := false
deriving DecidableEq

/-- A bucket of the OTP limiters. -/
def otpBucket (cfg : Config) (limiter : String) (dimension : Dimension) (maxLimit : Int)
    (message : String) (wholeWindow : Bool) : Bucket where
  keyStart := keyStart limiter dimension
  options := { maxLimit, windowSeconds := cfg.otpRateLimitWindowSeconds }
  failPolicy := .fail_closed
  code := "OTP_RATE_LIMITED"
  message := message
  wholeWindow := wholeWindow

def requestIp (cfg : Config) : Bucket := otpBucket cfg "otp:req" .ip cfg.otpMaxRequestsPerIp
  "Too many OTP requests from this IP. Please try again later." false

def requestPhone (cfg : Config) : Bucket := otpBucket cfg "otp:req" .phone cfg.otpMaxRequestsPerPhone
  "Too many OTP requests for this phone number. Please wait before requesting another." false

/-- The only bucket whose refusal does not tell what is left of the window. -/
def requestDevice (cfg : Config) : Bucket := otpBucket cfg "otp:req" .device cfg.otpMaxRequestsPerDevice
  "Too many OTP requests from this device. Please wait before requesting another." true

def verifyIp (cfg : Config) : Bucket := otpBucket cfg "otp:verify" .ip cfg.otpMaxVerifyAttemptsPerIp
  "Too many verification attempts from this IP. Please try again later." false

def verifyPhone (cfg : Config) : Bucket :=
  otpBucket cfg "otp:verify" .phone cfg.otpMaxVerifyAttemptsPerPhone
    "Too many verification attempts for this phone number. Please try again later." false

def verifyDevice (cfg : Config) : Bucket :=
  otpBucket cfg "otp:verify" .device cfg.otpMaxVerifyAttemptsPerDevice
    "Too many verification attempts from this device. Please try again later." false

/-- The options of `createRateLimiter`. -/
structure RouteOptions where
  windowSeconds : Int
  maxLimit : Int
  keyPrefix : String
  errorMessage : String := "Too many requests. Please try again later."
  dimension : Dimension := .ip
  failPolicy : Option RateLimitFailPolicy := none
  isSecuritySensitive : Bool := false
deriving DecidableEq

def RouteOptions.bucket (options : RouteOptions) (dimension : Dimension) : Bucket where
  keyStart := keyStart options.keyPrefix dimension
  options := { maxLimit := options.maxLimit, windowSeconds := options.windowSeconds }
  failPolicy := options.failPolicy.getD
    (if options.isSecuritySensitive then .fail_closed else .fail_open)
  code := "RATE_LIMITED"
  message := options.errorMessage

def authEndpointRateLimiter : RouteOptions where
  windowSeconds := 15 * 60
  maxLimit := 20
  keyPrefix := "auth"
  errorMessage := "Too many authentication requests from this IP. Please try again later."
  dimension := .ip
  failPolicy := some .fail_closed
  isSecuritySensitive := true

def dispatchActionRateLimiter : RouteOptions where
  windowSeconds := 60
  maxLimit := 30
  keyPrefix := "dispatch_action"
  errorMessage := "Too many dispatch operations. Please slow down."
  dimension := .worker
  failPolicy := some .fail_open

def chatMessageRateLimiter : RouteOptions where
  windowSeconds := 60
  maxLimit := 60
  keyPrefix := "chat_msg"
  errorMessage := "Message rate limit exceeded. Please wait a moment before sending more messages."
  dimension := .user
  failPolicy := some .fail_open

def workerLocationRateLimiter : RouteOptions where
  windowSeconds := 60
  maxLimit := 120
  keyPrefix := "worker_location"
  errorMessage := "Location update frequency too high. Updates throttled."
  dimension := .worker
  failPolicy := some .fail_open

def paymentOrderRateLimiter : RouteOptions where
  windowSeconds := 15 * 60
  maxLimit := 10
  keyPrefix := "payment_order"
  errorMessage := "Too many payment order attempts. Please wait before creating another order."
  dimension := .user
  failPolicy := some .fail_closed
  isSecuritySensitive := true

def paymentRefundRateLimiter : RouteOptions where
  windowSeconds := 15 * 60
  maxLimit := 5
  keyPrefix := "payment_refund"
  errorMessage := "Too many refund requests. Please wait before initiating another refund."
  dimension := .user
  failPolicy := some .fail_closed
  isSecuritySensitive := true

inductive Route where
  | authEndpoint | dispatchAction | chatMessage | workerLocation | paymentOrder | paymentRefund
deriving DecidableEq, Repr

def Route.options : Route → RouteOptions
  | .authEndpoint => authEndpointRateLimiter
  | .dispatchAction => dispatchActionRateLimiter
  | .chatMessage => chatMessageRateLimiter
  | .workerLocation => workerLocationRateLimiter
  | .paymentOrder => paymentOrderRateLimiter
  | .paymentRefund => paymentRefundRateLimiter

/-- Every bucket that some limiter counts in. -/
def buckets (cfg : Config) : List Bucket :=
  [requestIp cfg, requestPhone cfg, requestDevice cfg, verifyIp cfg, verifyPhone cfg,
    verifyDevice cfg] ++
  [Route.authEndpoint, .dispatchAction, .chatMessage, .workerLocation, .paymentOrder,
    .paymentRefund].flatMap fun route =>
      [route.options.bucket .ip, route.options.bucket .user, route.options.bucket .worker]

/-- What is allowed on a key, as its bucket has it. -/
def optionsOf (cfg : Config) (key : Text) : RateLimitOptions :=
  (((buckets cfg).find? fun b => b.keyStart.isPrefixOf key).map Bucket.options).getD
    { maxLimit := 0, windowSeconds := 1 }

/-! ### Requests -/

/-- What the limiters read of a request. -/
structure Request where
  ip : Option Text := none
  remoteAddress : Option Text := none
  /-- The body's phone number, if it is a text. -/
  phone : Option Text := none
  /-- The body's device, if it is a text. -/
  bodyDeviceId : Option Text := none
  /-- The header `x-device-id`. -/
  headerDeviceId : Option Text := none
  userId : Option Text := none
  workerId : Option Text := none
deriving DecidableEq

/-- `a || b`, where an empty text counts as none. -/
def orElse (a b : Option Text) : Option Text := (a.filter (· ≠ [])).or (b.filter (· ≠ []))

def Request.address (r : Request) : Text := (orElse r.ip r.remoteAddress).getD "unknown_ip".toList

def safeNormalizePhone (cfg : Config) (rawPhone : Option Text) : Option Text :=
  (rawPhone.filter (· ≠ [])).bind fun phone => (Auth.normalizePhoneToE164 cfg.auth phone).toOption

def extractDeviceId (r : Request) : Option Text :=
  orElse (r.bodyDeviceId.map Auth.Text.trim) (r.headerDeviceId.map Auth.Text.trim)

structure Check where
  bucket : Bucket
  /-- What is counted: an address, a phone number, a device or a user. -/
  identifier : Text
deriving DecidableEq

def Check.key (cfg : Config) (check : Check) : Text :=
  check.bucket.keyStart ++ cfg.hashIdentifier check.identifier

def otpRequestRateLimiter (cfg : Config) (r : Request) : List Check :=
  ⟨requestIp cfg, r.address⟩ ::
    (((safeNormalizePhone cfg r.phone).filter (· ≠ [])).toList.map fun phone =>
      ⟨requestPhone cfg, phone⟩) ++
    (extractDeviceId r).toList.map fun deviceId => ⟨requestDevice cfg, deviceId⟩

def otpVerifyRateLimiter (cfg : Config) (r : Request) : List Check :=
  ⟨verifyIp cfg, r.address⟩ ::
    (((safeNormalizePhone cfg r.phone).filter (· ≠ [])).toList.map fun phone =>
      ⟨verifyPhone cfg, phone⟩) ++
    (extractDeviceId r).toList.map fun deviceId => ⟨verifyDevice cfg, deviceId⟩

/-- `createRateLimiter`; none of the routes brings a key generator. -/
def createRateLimiter (options : RouteOptions) (r : Request) : List Check :=
  match options.dimension with
  | .user =>
    match orElse r.userId r.workerId with
    | some userId => [⟨options.bucket .user, userId⟩]
    | none => [⟨options.bucket .ip, r.address⟩]
  | .worker =>
    match orElse r.workerId r.userId with
    | some workerId => [⟨options.bucket .worker, workerId⟩]
    | none => [⟨options.bucket .ip, r.address⟩]
  | _ => [⟨options.bucket .ip, r.address⟩]

/-! ### Answers -/

inductive Response where
  | next
  /-- Status 429. -/
  | rateLimited (code message : String) (retryAfter : Int)
  /-- Status 503. -/
  | unavailable (retryAfter : Int)
deriving DecidableEq, Repr

/-- How a check refuses a request that its result does not allow. -/
def Check.refusal (check : Check) (result : RateLimitResult) : Response :=
  match result.status with
  | .unavailable => .unavailable result.resetAfterSeconds
  | _ => .rateLimited check.bucket.code check.bucket.message
      (if check.bucket.wholeWindow then check.bucket.options.windowSeconds
        else result.resetAfterSeconds)

/-- The checks of a request from the `n`-th on; each runs a script of its own. -/
def limit (cfg : Config) (me : Nat) : Nat → List Check → Service Response
  | _, [] => pure .next
  | n, check :: checks => do
    let answer ← incrementRateLimit (Nat.pair me n) (check.key cfg) check.bucket.options
      check.bucket.failPolicy
    if answer.result.allowed then limit cfg me (n + 1) checks
    else pure (check.refusal answer.result)

/-! ### The system -/

inductive Op where
  | otpRequest (r : Request)
  | otpVerify (r : Request)
  | route (at_ : Route) (r : Request)
  | persist (key : Text)
  | tick
deriving DecidableEq

def Op.checks (cfg : Config) : Op → List Check
  | .otpRequest r => otpRequestRateLimiter cfg r
  | .otpVerify r => otpVerifyRateLimiter cfg r
  | .route at_ r => createRateLimiter at_.options r
  | .persist _ | .tick => []

abbrev Outcome := Except Failure Response

def serviceOf (cfg : Config) (me : Nat) : Op → Service Response
  | .persist key => Call.stmt (.persisted key) fun _ => .ok ([.persist key], .next)
  | .tick => Call.stmt .ticked fun _ => .ok ([.tick], .next)
  | request => limit cfg me 0 (request.checks cfg)

def system (cfg : Config) (me : Nat) (op : Op) : Prog Label Redis Write Empty Outcome :=
  (serviceOf cfg me op).run

abbrev RequestPool := Pool Label Redis Write Empty Op Outcome

def start : RequestPool := { db := {} }

/-- Any run. -/
abbrev Runs (cfg : Config) : RequestPool → RequestPool → Prop :=
  Pool.Reaches (system cfg) (Pool.Meets fun _ _ => True)

end LabourBaba.RateLimit.Middlewares
