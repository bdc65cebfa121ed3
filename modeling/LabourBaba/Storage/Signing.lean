import LabourBaba.Storage.Keys

/-!
# Signed URLs and the routes that take them

A signed URL carries the key, percent-encoded, an expiry in whole seconds and a MAC over
method, bucket, key, for uploads the content type, and expiry, joined by colons. The MAC is
a parameter: what a request carries as its signature, and whether that is the MAC of a
payload (`Mac`). The two routes are given the request as the server hands it over, with the
path decoded and query values that are a string, or several as an array. Of numbers that
are not whole ones in decimal form it is only known that they have no colon.
-/
namespace LabourBaba.Storage

open Utf16

structure StorageConfig where
  bucketName : Text
  signedUrlTtlSeconds : Int
  maxSizeBytes : Nat

def allowedMimeTypes : List Text := [lit "application/pdf", lit "image/jpeg", lit "image/png"]

/-- A MAC under the service's secret. -/
structure Mac (Signature : Type) where
  hmac : Text → Signature
  verifies : Signature → Text → Bool
  verifies_hmac : ∀ payload, verifies (hmac payload) payload = true

/-! ### Issuing -/

inductive Method
  | GET | PUT
  deriving DecidableEq, Repr

def Method.text : Method → Text
  | GET => lit "GET"
  | PUT => lit "PUT"

/-- What is signed for a key until an expiry; for an upload also with the content type. -/
def payload (bucketName : Text) (method : Method) (contentType : Option Text) (key exp : Text) :
    Text :=
  match method, contentType with
  | .PUT, some c =>
    if c = [] then lit "PUT:" ++ bucketName ++ lit ":" ++ key ++ lit ":" ++ exp
    else lit "PUT:" ++ bucketName ++ lit ":" ++ key ++ lit ":" ++ c ++ lit ":" ++ exp
  | _, _ => method.text ++ lit ":" ++ bucketName ++ lit ":" ++ key ++ lit ":" ++ exp

/-- A signed URL by its parts: the key it is for and the payload it signs, which it does not
show, and the encoded key, the expiry and the signature, which it does. -/
structure SignedUrl (Signature : Type) where
  key : Text
  payload : Text
  path : Text
  exp : Int
  sig : Signature
  expiresIn : Int

section Service

variable {Signature : Type} (pathname : Text → Option Text) (config : StorageConfig)
  (mac : Mac Signature)

/-- `Math.min(expiresInSeconds || defaultTtl, defaultTtl)`. -/
def ttl (expiresInSeconds : Option Int) : Int :=
  let asked := expiresInSeconds.getD 0
  min (if asked = 0 then config.signedUrlTtlSeconds else asked) config.signedUrlTtlSeconds

/-- The part the two kinds of URL share. -/
def signUrl (signed : Text → Text → Text) (key : Text) (expiresInSeconds : Option Int) (now : Int) :
    Except String (SignedUrl Signature) :=
  match normalizeObjectKey pathname key with
  | .error message => .error message
  | .ok normalizedKey =>
    let exp := now + ttl config expiresInSeconds
    match encodeURIComponent normalizedKey with
    | none => .error "URI malformed"
    | some path => .ok {
        key := normalizedKey
        payload := signed normalizedKey (numeral exp)
        path := path
        exp := exp
        sig := mac.hmac (signed normalizedKey (numeral exp))
        expiresIn := ttl config expiresInSeconds }

def getSignedDownloadUrl (key : Text) (expiresInSeconds : Option Int) (now : Int) :
    Except String (SignedUrl Signature) :=
  signUrl pathname config mac
    (fun key exp => lit "GET:" ++ config.bucketName ++ lit ":" ++ key ++ lit ":" ++ exp)
    key expiresInSeconds now

def getSignedUploadUrl (key contentType : Text) (expiresInSeconds : Option Int) (now : Int) :
    Except String (SignedUrl Signature) :=
  signUrl pathname config mac
    (fun key exp => lit "PUT:" ++ config.bucketName ++ lit ":" ++ key ++ lit ":" ++ contentType ++
      lit ":" ++ exp)
    key expiresInSeconds now

end Service

/-! ### Verifying -/

def colon : CodeUnit := 58

/-- A query value: a string, or the strings of a value that is given several times. -/
inductive QueryValue
  | string (s : Text)
  | array (values : List Text)
  deriving DecidableEq, Repr

def QueryValue.isEmpty : QueryValue → Bool
  | string s => s.isEmpty
  | array _ => false

/-- `String(values)`: joined by commas. -/
def joined (values : List Text) : Text := (lit ",").intercalate values

/-- The whole number a text is the decimal form of. -/
def wholeNumber (s : Text) : Option Int := (parseInt s).filter fun n => numeral n = s

/-- Whether a text, read as a number, is one that is later than a time. Of texts that are not
the decimal form of a whole number only those without a colon may be numbers. -/
def laterThan (otherNumber : Text → Int → Bool) (s : Text) (now : Int) : Bool :=
  match wholeNumber s with
  | some n => now < n
  | none => colon ∉ s && otherNumber s now

/-- The expiry as text, if it is a number and later than now; a string is parsed, anything else
is compared as it is. -/
def QueryValue.unexpired (otherNumber : Text → Int → Bool) (now : Int) :
    QueryValue → Option Text
  | string s =>
    match parseInt s with
    | some n => if n ≤ now then none else some (numeral n)
    | none => none
  | array values => if laterThan otherNumber (joined values) now then some (joined values) else none

section Verify

variable {Signature : Type} (pathname : Text → Option Text)
  (otherNumber : Text → Int → Bool) (config : StorageConfig) (mac : Mac Signature)

def verifySignedUrl (key : Text) (exp : QueryValue) (sig : Signature) (method : Method)
    (contentType : Option Text) (now : Int) : Bool :=
  if key = [] ∨ exp.isEmpty then false
  else
    match exp.unexpired otherNumber now with
    | none => false
    | some exp =>
      match normalizeObjectKey pathname key with
      | .error _ => false
      | .ok normalizedKey =>
        mac.verifies sig (payload config.bucketName method contentType normalizedKey exp)

/-! ### The routes -/

structure StoredObject where
  data : List UInt8
  contentType : Text
  deriving DecidableEq, Repr

/-- The answers of the storage driver, which may fail. -/
structure Driver where
  objectExists : Text → Except String Bool
  getObject : Text → Except String (Option StoredObject)
  putObject : Text → StoredObject → Except String Unit

/-- A request to one of the two routes; an empty signature counts as none. -/
structure Request (Signature : Type) where
  key : Text
  exp : Option QueryValue := none
  sig : Option Signature := none
  contentType : Option Text := none
  data : List UInt8 := []

inductive Response
  | refused (status : Nat) (code : String) (message : Text)
  | served (key : Text) (object : StoredObject)
  | stored (key : Text) (size : Nat) (contentType : Text)
  deriving DecidableEq, Repr

def signatureMissing : Response :=
  .refused 403 "STORAGE_SIGNATURE_MISSING"
    (lit "Missing signature, key, or expiration parameters.")

def keyInvalid : Response :=
  .refused 403 "STORAGE_KEY_INVALID"
    (lit "Invalid storage object key or path traversal detected.")

def downloadFailed : Response :=
  .refused 500 "STORAGE_DOWNLOAD_FAILED" (lit "Failed to download document.")

def objectNotFound : Response :=
  .refused 404 "STORAGE_OBJECT_NOT_FOUND"
    (lit "The requested document could not be found in storage.")

def uploadFailed : Response :=
  .refused 500 "STORAGE_UPLOAD_FAILED" (lit "Failed to upload document.")

variable (driver : Driver)

/-- `objectExists` of the service. -/
def objectExists (key : Text) : Except String Bool :=
  match normalizeObjectKey pathname key with
  | .error _ => .ok false
  | .ok normalizedKey => if normalizedKey = [] then .ok false else driver.objectExists normalizedKey

def getObject (key : Text) : Except String (Option StoredObject) := do
  driver.getObject (← normalizeObjectKey pathname key)

/-- What the request must carry before its signature is looked at. -/
def Request.signed (req : Request Signature) : Option (QueryValue × Signature) :=
  match req.exp, req.sig with
  | some exp, some sig => if req.key = [] ∨ exp.isEmpty then none else some (exp, sig)
  | _, _ => none

def downloadObject (req : Request Signature) (now : Int) : Response :=
  match req.signed with
  | none => signatureMissing
  | some (exp, sig) =>
    match normalizeObjectKey pathname req.key with
    | .error _ => keyInvalid
    | .ok key =>
      if verifySignedUrl pathname otherNumber config mac key exp sig .GET none now then
        match objectExists pathname driver key with
        | .error _ => downloadFailed
        | .ok false => objectNotFound
        | .ok true =>
          match getObject pathname driver key with
          | .error _ => downloadFailed
          | .ok none => objectNotFound
          | .ok (some object) => .served key object
      else
        .refused 403 "STORAGE_SIGNATURE_INVALID"
          (lit "The download link is invalid or has expired.")

/-- `rawContentType.split(";")[0].trim().toLowerCase()`. -/
def mimeType (toLowerCase : Text → Text) (rawContentType : Text) : Text :=
  let first := rawContentType.takeWhile fun c => [c] ≠ lit ";"
  toLowerCase ((first.dropWhile isWhiteSpace).reverse.dropWhile isWhiteSpace).reverse

/-- The first bytes a document of a type has. -/
def validateDocumentMagicBytes (data : List UInt8) (contentType : Text) : Bool :=
  if data.length < 4 then false
  else if contentType = lit "application/pdf" then
    (data.take 5).map (· &&& 0x7F) = [0x25, 0x50, 0x44, 0x46, 0x2D]
  else if contentType = lit "image/jpeg" then data.take 3 = [0xFF, 0xD8, 0xFF]
  else if contentType = lit "image/png" then
    data.take 8 = [0x89, 0x50, 0x4E, 0x47, 0x0D, 0x0A, 0x1A, 0x0A]
  else false

/-- What a stored upload writes, and the response. -/
def uploadObject (toLowerCase : Text → Text) (req : Request Signature) (now : Int) :
    Option (Text × StoredObject) × Response :=
  match req.signed with
  | none => (none, signatureMissing)
  | some (exp, sig) =>
    match req.contentType.filter (· ≠ []) with
    | none => (none, .refused 400 "STORAGE_MIME_MISSING"
        (lit "Content-Type header is required for document upload."))
    | some rawContentType =>
      let contentType := mimeType toLowerCase rawContentType
      if contentType ∉ allowedMimeTypes then
        (none, .refused 415 "STORAGE_MIME_UNSUPPORTED" (lit "MIME type '" ++ contentType ++
          lit "' is not permitted. Allowed types: " ++ (lit ", ").intercalate allowedMimeTypes))
      else
        match normalizeObjectKey pathname req.key with
        | .error _ => (none, keyInvalid)
        | .ok key =>
          if verifySignedUrl pathname otherNumber config mac key exp sig .PUT (some contentType) now
          then
            if req.data.length = 0 then
              (none, .refused 400 "STORAGE_EMPTY_PAYLOAD" (lit "Upload payload cannot be empty."))
            else if req.data.length > config.maxSizeBytes then
              (none, .refused 413 "STORAGE_PAYLOAD_TOO_LARGE" (lit "File size (" ++
                natural req.data.length ++ lit " bytes) exceeds maximum permitted limit (" ++
                natural config.maxSizeBytes ++ lit " bytes)."))
            else if !validateDocumentMagicBytes req.data contentType then
              (none, .refused 415 "STORAGE_MIME_MISMATCH"
                (lit "File contents do not match declared MIME type '" ++ contentType ++
                  lit "'. Spoofed or unsupported file format."))
            else
              match normalizeObjectKey pathname key with
              | .error _ => (none, uploadFailed)
              | .ok normalizedKey =>
                -- the driver may have written the object even if it fails
                (some (normalizedKey, ⟨req.data, contentType⟩),
                  match driver.putObject normalizedKey ⟨req.data, contentType⟩ with
                  | .error _ => uploadFailed
                  | .ok _ => .stored key req.data.length contentType)
          else
            (none, .refused 403 "STORAGE_SIGNATURE_INVALID"
              (lit "The upload link is invalid, expired, or does not match the content type."))

end Verify

/-! ### A service to run -/

/-- A MAC whose signatures are the payloads. -/
def echo : Mac Text where
  hmac := id
  verifies sig payload := decide (sig = payload)
  verifies_hmac payload := by simp

def sample : StorageConfig :=
  { bucketName := lit "private", signedUrlTtlSeconds := 900, maxSizeBytes := 5242880 }

end LabourBaba.Storage
