import LabourBaba.Storage.Signing

/-!
# Signed URLs grant what was signed

The payload joins its parts by colons, and keys may have colons. It is read from both ends:
the method and the bucket are the same for all, the expiry and the content type have no
colon, so what is left is the key (`payload_inj`). With a MAC that verifies only what it was
made for, a request that is let through therefore asks for what a URL was issued for
(`verify_released`). The other way round, the key of an issued URL is read back from its
path, is its own normal form, and the expiry is parsed to itself; only the empty key, which
`verifySignedUrl` refuses, is issued in vain.
-/
namespace LabourBaba.Storage

open Utf16

/-! ### The payload determines its parts -/

/-- What the routes verify: a download without content type, an upload with an allowed one. -/
def Asked : Method → Option Text → Prop
  | .GET, none => True
  | .PUT, some contentType => contentType ∈ allowedMimeTypes
  | _, _ => False

theorem allowed_plain {contentType : Text} (allowed : contentType ∈ allowedMimeTypes) :
    colon ∉ contentType ∧ contentType ≠ [] := by
  simp only [allowedMimeTypes, List.mem_cons, List.not_mem_nil, or_false] at allowed
  rcases allowed with rfl | rfl | rfl <;> decide

theorem payload_get (bucketName key exp : Text) :
    payload bucketName .GET none key exp =
      lit "GET:" ++ (bucketName ++ colon :: (key ++ colon :: exp)) := by
  simp only [payload, Method.text, List.append_assoc]
  rfl

theorem payload_put {contentType : Text} (real : contentType ≠ []) (bucketName key exp : Text) :
    payload bucketName .PUT (some contentType) key exp =
      lit "PUT:" ++ (bucketName ++ colon :: (key ++ colon :: contentType ++ colon :: exp)) := by
  simp only [payload, if_neg real, List.append_assoc]
  rfl

theorem payload_inj {bucketName k l e f : Text} {m n : Method} {c d : Option Text}
    (asked : Asked m c) (asked' : Asked n d) (plain : colon ∉ e) (plain' : colon ∉ f)
    (same : payload bucketName m c k e = payload bucketName n d l f) :
    m = n ∧ c = d ∧ k = l ∧ e = f := by
  cases m <;> cases c <;> cases n <;> cases d <;>
    first | exact asked.elim | exact asked'.elim | skip
  · rw [payload_get, payload_get, List.append_right_inj, List.append_right_inj] at same
    obtain ⟨keys, exps⟩ := Path.append_sep_inj plain plain' (List.cons.inj same).2
    exact ⟨rfl, rfl, keys, exps⟩
  · rw [payload_get, payload_put (allowed_plain asked').2] at same
    exact absurd (List.cons.inj same).1 (by decide)
  · rw [payload_get, payload_put (allowed_plain asked).2] at same
    exact absurd (List.cons.inj same).1 (by decide)
  next c d =>
    -- the expiry is split off first, then the content type
    rw [payload_put (allowed_plain asked).2, payload_put (allowed_plain asked').2,
      List.append_right_inj, List.append_right_inj] at same
    obtain ⟨rest, exps⟩ := Path.append_sep_inj plain plain' (List.cons.inj same).2
    obtain ⟨keys, types⟩ :=
      Path.append_sep_inj (allowed_plain asked).1 (allowed_plain asked').1 rest
    exact ⟨rfl, congrArg some types, keys, exps⟩

theorem colon_not_mem_numeral (n : Int) : colon ∉ numeral n := by
  intro member
  rcases mem_numeral member with digit | sign
  · exact absurd digit (by decide)
  · exact absurd sign (by decide)

theorem wholeNumber_numeral (n : Int) : wholeNumber (numeral n) = some n := by
  rw [wholeNumber, parseInt_numeral]
  simp

section Unexpired

variable {otherNumber : Text → Int → Bool} {exp : QueryValue} {now : Int}

theorem unexpired_later {n : Int} (unexpired : exp.unexpired otherNumber now = some (numeral n)) :
    now < n := by
  cases exp with
  | string s =>
    simp only [QueryValue.unexpired] at unexpired
    split at unexpired
    · split at unexpired
      · cases unexpired
      next later =>
        rw [numeral_injective (Option.some.inj unexpired)] at later
        exact Int.not_le.mp later
    · cases unexpired
  | array values =>
    simp only [QueryValue.unexpired] at unexpired
    split at unexpired
    next later =>
      rw [Option.some.inj unexpired, laterThan, wholeNumber_numeral] at later
      exact of_decide_eq_true later
    · cases unexpired

theorem colon_not_mem_unexpired {s : Text} (unexpired : exp.unexpired otherNumber now = some s) :
    colon ∉ s := by
  cases exp with
  | string t =>
    simp only [QueryValue.unexpired] at unexpired
    split at unexpired
    · split at unexpired
      · cases unexpired
      · rw [← Option.some.inj unexpired]
        exact colon_not_mem_numeral _
    · cases unexpired
  | array values =>
    simp only [QueryValue.unexpired] at unexpired
    split at unexpired
    next later =>
      obtain rfl := Option.some.inj unexpired
      unfold laterThan at later
      split at later
      next n whole =>
        -- the text is a numeral
        obtain ⟨-, form⟩ := Option.filter_eq_some_iff.mp whole
        rw [← of_decide_eq_true form]
        exact colon_not_mem_numeral n
      · exact of_decide_eq_true (Bool.and_eq_true_iff.mp later).1
    · cases unexpired

end Unexpired

/-! ### Issued URLs -/

/-- A call of one of the two functions that sign. -/
inductive Issue
  | download (key : Text) (expiresInSeconds : Option Int) (now : Int)
  | upload (key contentType : Text) (expiresInSeconds : Option Int) (now : Int)

namespace Issue

def method : Issue → Method
  | download _ _ _ => .GET
  | upload _ _ _ _ => .PUT

def contentType : Issue → Option Text
  | download _ _ _ => none
  | upload _ contentType _ _ => some contentType

def key : Issue → Text
  | download key _ _ => key
  | upload key _ _ _ => key

end Issue

section Service

variable {Signature : Type} (pathname : Text → Option Text) (otherNumber : Text → Int → Bool)
  (config : StorageConfig) (mac : Mac Signature)

def Issue.url : Issue → Except String (SignedUrl Signature)
  | download key expiresInSeconds now =>
    getSignedDownloadUrl pathname config mac key expiresInSeconds now
  | upload key contentType expiresInSeconds now =>
    getSignedUploadUrl pathname config mac key contentType expiresInSeconds now

/-- The payloads of the URLs that were issued. -/
def released (issues : List Issue) : List Text :=
  issues.filterMap fun issue => (issue.url pathname config mac).toOption.map SignedUrl.payload

/-- What is known of a URL that was issued. -/
structure Issued (issue : Issue) (url : SignedUrl Signature) : Prop where
  normal : normalizeObjectKey pathname issue.key = .ok url.key
  encoded : encodeURIComponent url.key = some url.path
  payload_eq : url.payload =
    payload config.bucketName issue.method issue.contentType url.key (numeral url.exp)
  sig_eq : url.sig = mac.hmac url.payload

variable {pathname otherNumber config mac}

theorem signUrl_ok {signed : Text → Text → Text} {key : Text} {expiresInSeconds : Option Int}
    {now : Int} {url : SignedUrl Signature}
    (issued : signUrl pathname config mac signed key expiresInSeconds now = .ok url) :
    normalizeObjectKey pathname key = .ok url.key ∧ encodeURIComponent url.key = some url.path ∧
      url.payload = signed url.key (numeral url.exp) ∧ url.sig = mac.hmac url.payload := by
  unfold signUrl at issued
  split at issued
  · cases issued
  next normalizedKey normal =>
    dsimp only at issued
    split at issued
    · cases issued
    next path encoded =>
      obtain rfl := Except.ok.inj issued
      exact ⟨normal, encoded, rfl, rfl⟩

theorem issued_of_url {issue : Issue} {url : SignedUrl Signature}
    (asked : Asked issue.method issue.contentType)
    (issued : issue.url pathname config mac = .ok url) :
    Issued pathname config mac issue url := by
  cases issue with
  | download key expiresInSeconds now =>
    obtain ⟨normal, encoded, payload_eq, sig_eq⟩ := signUrl_ok issued
    exact ⟨normal, encoded, payload_eq, sig_eq⟩
  | upload key contentType expiresInSeconds now =>
    obtain ⟨normal, encoded, payload_eq, sig_eq⟩ := signUrl_ok issued
    exact ⟨normal, encoded, by simpa [payload, Issue.method, Issue.contentType,
      (allowed_plain asked).2] using payload_eq, sig_eq⟩

theorem mem_released {issues : List Issue} {p : Text} :
    p ∈ released pathname config mac issues ↔
      ∃ issue ∈ issues, ∃ url, issue.url pathname config mac = .ok url ∧ url.payload = p := by
  simp only [released, List.mem_filterMap, Option.map_eq_some_iff]
  refine exists_congr fun issue => and_congr_right fun _ => exists_congr fun url => ?_
  cases issue.url pathname config mac <;> simp [Except.toOption]

theorem verifySignedUrl_iff {key : Text} {exp : QueryValue} {sig : Signature} {method : Method}
    {contentType : Option Text} {now : Int} :
    verifySignedUrl pathname otherNumber config mac key exp sig method contentType now = true ↔
      key ≠ [] ∧ exp.isEmpty = false ∧ ∃ s k, exp.unexpired otherNumber now = some s ∧
        normalizeObjectKey pathname key = .ok k ∧
        mac.verifies sig (payload config.bucketName method contentType k s) = true := by
  unfold verifySignedUrl
  by_cases absent : key = [] ∨ exp.isEmpty = true
  · rw [if_pos absent]
    simp only [Bool.false_eq_true, false_iff, not_and]
    intro real present
    rcases absent with empty | empty
    · exact absurd empty real
    · rw [empty] at present
      cases present
  · rw [if_neg absent]
    simp only [not_or, Bool.not_eq_true] at absent
    cases unexpired : exp.unexpired otherNumber now with
    | none => simp
    | some s =>
      cases normal : normalizeObjectKey pathname key with
      | error message => simp
      | ok k => simp [absent]

/-- A signature that verifies only for one payload is good for what was signed, and no longer
than until the expiry. -/
theorem issued_of_verified {issue : Issue} {url : SignedUrl Signature}
    (issued : Issued pathname config mac issue url)
    {key : Text} {exp : QueryValue} {method : Method} {contentType : Option Text} {now : Int}
    (signed : Asked issue.method issue.contentType) (asked : Asked method contentType)
    {s k : Text} (unexpired : exp.unexpired otherNumber now = some s)
    (normal : normalizeObjectKey pathname key = .ok k)
    (same : url.payload = payload config.bucketName method contentType k s) :
    issue.method = method ∧ issue.contentType = contentType ∧
      normalizeObjectKey pathname key = .ok url.key ∧ now < url.exp := by
  rw [issued.payload_eq] at same
  obtain ⟨methods, types, keys, exps⟩ := payload_inj signed asked (colon_not_mem_numeral _)
    (colon_not_mem_unexpired unexpired) same
  refine ⟨methods, types, ?_, unexpired_later (unexpired.trans (congrArg some exps.symm))⟩
  rw [normal, keys]

theorem verify_released {issues : List Issue}
    (allowed : ∀ issue ∈ issues, Asked issue.method issue.contentType) {sig : Signature}
    (ideal : ∀ p, mac.verifies sig p = true → p ∈ released pathname config mac issues)
    {key : Text} {exp : QueryValue} {method : Method} {contentType : Option Text} {now : Int}
    (asked : Asked method contentType)
    (verified : verifySignedUrl pathname otherNumber config mac key exp sig method contentType now =
      true) :
    ∃ issue ∈ issues, ∃ url, issue.url pathname config mac = .ok url ∧ issue.method = method ∧
      issue.contentType = contentType ∧ normalizeObjectKey pathname key = .ok url.key ∧
      now < url.exp := by
  obtain ⟨-, -, s, k, unexpired, normal, signed⟩ := verifySignedUrl_iff.mp verified
  obtain ⟨issue, member, url, made, same⟩ := mem_released.mp (ideal _ signed)
  have issued := issued_of_url (allowed issue member) made
  obtain ⟨methods, types, keys, later⟩ :=
    issued_of_verified issued (allowed issue member) asked unexpired normal same
  exact ⟨issue, member, url, made, methods, types, keys, later⟩

/-- An issued URL verifies until its expiry, if its key is not empty. -/
theorem verify_issued {issue : Issue} {url : SignedUrl Signature}
    (asked : Asked issue.method issue.contentType)
    (made : issue.url pathname config mac = .ok url) (real : url.key ≠ []) {now : Int}
    (valid : now < url.exp) :
    verifySignedUrl pathname otherNumber config mac url.key (.string (numeral url.exp)) url.sig
      issue.method issue.contentType now = true := by
  have issued := issued_of_url asked made
  have some_digit : numeral url.exp ≠ [] := by
    intro empty
    have parsed := parseInt_numeral url.exp
    rw [empty] at parsed
    cases parsed
  have unexpired : (QueryValue.string (numeral url.exp)).unexpired otherNumber now =
      some (numeral url.exp) := by
    simp only [QueryValue.unexpired, parseInt_numeral]
    exact if_neg (Int.not_le.mpr valid)
  refine verifySignedUrl_iff.mpr ⟨real, ?_, numeral url.exp, url.key, unexpired,
    normalizeObjectKey_idem issued.normal, ?_⟩
  · simpa [QueryValue.isEmpty] using some_digit
  · rw [← issued.payload_eq, issued.sig_eq]
    exact mac.verifies_hmac _

/-! ### The routes -/

variable {driver : Driver} {toLowerCase : Text → Text}

theorem getObject_normal {urlOrKey key : Text}
    (normal : normalizeObjectKey pathname urlOrKey = .ok key) :
    getObject pathname driver key = driver.getObject key := by
  rw [getObject, normalizeObjectKey_idem normal]
  rfl

theorem Request.sig_of_signed {req : Request Signature} {exp : QueryValue} {sig : Signature}
    (signed : req.signed = some (exp, sig)) : req.sig = some sig := by
  unfold Request.signed at signed
  split at signed
  next exp' sig' _ found =>
    split at signed
    · cases signed
    · rw [found, (Prod.mk.inj (Option.some.inj signed)).2]
  · cases signed

theorem downloadObject_served {req : Request Signature} {now : Int} {key : Text}
    {object : StoredObject}
    (served : downloadObject pathname otherNumber config mac driver req now = .served key object) :
    driver.getObject key = .ok (some object) ∧ normalizeObjectKey pathname key = .ok key ∧
      ∃ exp sig, req.sig = some sig ∧
        verifySignedUrl pathname otherNumber config mac key exp sig .GET none now = true := by
  unfold downloadObject at served
  split at served
  · cases served
  next exp sig signed =>
    split at served
    · cases served
    next k normal =>
      split at served
      next verified =>
        split at served
        · cases served
        · cases served
        · split at served
          · cases served
          · cases served
          next found =>
            obtain ⟨rfl, rfl⟩ := Response.served.inj served
            rw [getObject_normal normal] at found
            exact ⟨found, normalizeObjectKey_idem normal, exp, sig,
              Request.sig_of_signed signed, verified⟩
      · cases served

theorem uploadObject_stored {req : Request Signature} {now : Int} {key : Text}
    {object : StoredObject} {response : Response}
    (stored : uploadObject pathname otherNumber config mac driver toLowerCase req now =
      (some (key, object), response)) :
    object.contentType ∈ allowedMimeTypes ∧ normalizeObjectKey pathname key = .ok key ∧
      ∃ exp sig, req.sig = some sig ∧ verifySignedUrl pathname otherNumber config mac key exp sig
        .PUT (some object.contentType) now = true := by
  unfold uploadObject at stored
  split at stored
  · cases stored
  next exp sig signed =>
    split at stored
    · cases stored
    next rawContentType _ =>
      dsimp only at stored
      split at stored
      · cases stored
      next allowed =>
        split at stored
        · cases stored
        next k normal =>
          split at stored
          next verified =>
            split at stored
            · cases stored
            · split at stored
              · cases stored
              · split at stored
                · cases stored
                · -- every check was passed, and the key is normalized once more when it is stored
                  rw [normalizeObjectKey_idem normal] at stored
                  obtain ⟨rfl, rfl⟩ := Prod.mk.inj (Option.some.inj (Prod.mk.inj stored).1)
                  exact ⟨not_not.mp allowed, normalizeObjectKey_idem normal, exp, sig,
                    Request.sig_of_signed signed, verified⟩
          · cases stored

/-- With a MAC that verifies only what it was made for, whatever URLs were issued: the routes
serve and store only what a URL of their kind was issued for that has not expired; the
signature of a URL is good for its own method, content type and key only; and a URL with a
key verifies, with the key read from its path, until it expires. -/
theorem signed_urls_exact {issues : List Issue}
    (allowed : ∀ issue ∈ issues, Asked issue.method issue.contentType) :
    (∀ (req : Request Signature) (now : Int),
      (∀ sig ∈ req.sig, ∀ p, mac.verifies sig p = true → p ∈ released pathname config mac issues) →
      (∀ key object,
        downloadObject pathname otherNumber config mac driver req now = .served key object →
        driver.getObject key = .ok (some object) ∧
          ∃ asked expiresInSeconds issuedAt url,
            .download asked expiresInSeconds issuedAt ∈ issues ∧
            getSignedDownloadUrl pathname config mac asked expiresInSeconds issuedAt = .ok url ∧
            normalizeObjectKey pathname asked = .ok key ∧ now < url.exp) ∧
      ∀ key object response,
        uploadObject pathname otherNumber config mac driver toLowerCase req now =
          (some (key, object), response) →
        ∃ asked expiresInSeconds issuedAt url,
          .upload asked object.contentType expiresInSeconds issuedAt ∈ issues ∧
          getSignedUploadUrl pathname config mac asked object.contentType expiresInSeconds
            issuedAt = .ok url ∧
          normalizeObjectKey pathname asked = .ok key ∧ now < url.exp) ∧
    ∀ issue ∈ issues, ∀ url, issue.url pathname config mac = .ok url →
      ((∀ p, mac.verifies url.sig p = true → p = url.payload) →
        ∀ key exp method contentType now, Asked method contentType →
          verifySignedUrl pathname otherNumber config mac key exp url.sig method contentType now =
            true →
          method = issue.method ∧ contentType = issue.contentType ∧
            normalizeObjectKey pathname key = .ok url.key ∧ now < url.exp) ∧
      (url.key ≠ [] → decodeURIComponent url.path = some url.key ∧
        ∀ now < url.exp, verifySignedUrl pathname otherNumber config mac url.key
          (.string (numeral url.exp)) url.sig issue.method issue.contentType now = true) := by
  refine ⟨fun req now ideal => ⟨fun key object served => ?_, fun key object response stored => ?_⟩,
    fun issue member url made => ⟨fun ideal key exp method contentType now asked verified => ?_,
      fun real => ⟨?_, fun now valid => ?_⟩⟩⟩
  · obtain ⟨found, normal, exp, sig, carried, verified⟩ := downloadObject_served served
    obtain ⟨issue, member, url, made, isGet, types, keys, later⟩ :=
      verify_released allowed (ideal sig carried) (show Asked .GET none from trivial) verified
    cases issue with
    | upload key contentType expiresInSeconds issuedAt => cases isGet
    | download asked expiresInSeconds issuedAt =>
      have same := (issued_of_url (allowed _ member) made).normal
      rw [show url.key = key from Except.ok.inj (keys.symm.trans normal)] at same
      exact ⟨found, asked, expiresInSeconds, issuedAt, url, member, made, same, later⟩
  · obtain ⟨type, normal, exp, sig, carried, verified⟩ := uploadObject_stored stored
    obtain ⟨issue, member, url, made, isPut, types, keys, later⟩ :=
      verify_released allowed (ideal sig carried) (show Asked .PUT (some _) from type) verified
    cases issue with
    | download key expiresInSeconds issuedAt => cases isPut
    | upload asked contentType expiresInSeconds issuedAt =>
      obtain rfl : contentType = object.contentType := Option.some.inj types
      have same := (issued_of_url (allowed _ member) made).normal
      rw [show url.key = key from Except.ok.inj (keys.symm.trans normal)] at same
      exact ⟨asked, expiresInSeconds, issuedAt, url, member, made, same, later⟩
  · obtain ⟨-, -, s, k, unexpired, normal, signed⟩ := verifySignedUrl_iff.mp verified
    obtain ⟨methods, types, keys, later⟩ := issued_of_verified
      (issued_of_url (allowed issue member) made) (allowed issue member) asked unexpired normal
      (ideal _ signed).symm
    exact ⟨methods.symm, types.symm, keys, later⟩
  · exact decode_encode (issued_of_url (allowed issue member) made).encoded
  · exact verify_issued (allowed issue member) made real valid

end Service

/-! ### A key with a colon -/

/-- A driver without objects. -/
def silent : Driver where
  objectExists _ := .ok false
  getObject _ := .ok none
  putObject _ _ := .ok ()

/-- A key with a colon, for a minute. -/
def sampleIssue : Issue := .download (lit "a:b") (some 60) 0

theorem signed_urls_exact_sample :
    ∃ url, sampleIssue.url (fun _ => none) sample echo = .ok url ∧
      decodeURIComponent url.path = some (lit "a:b") ∧
      verifySignedUrl (fun _ => none) (fun _ _ => false) sample echo (lit "a:b")
        (.string (numeral 60)) url.sig .GET none 59 = true := by
  have allowed : ∀ issue ∈ [sampleIssue], Asked issue.method issue.contentType := by
    intro issue member
    obtain rfl := List.mem_singleton.mp member
    trivial
  have exact := (@signed_urls_exact Text (fun _ => none) (fun _ _ => false) sample echo silent id
    [sampleIssue] allowed).2 sampleIssue List.mem_cons_self _ rfl
  obtain ⟨decoded, valid⟩ := exact.2 (by decide)
  exact ⟨_, rfl, decoded, valid 59 (by decide)⟩

/-- The URL of the empty key is issued, and never verifies. -/
theorem empty_key_never_verifies :
    ¬ ∀ (issue : Issue) (url : SignedUrl Text), issue.url (fun _ => none) sample echo = .ok url →
      ∀ now < url.exp, verifySignedUrl (fun _ => none) (fun _ _ => false) sample echo url.key
        (.string (numeral url.exp)) url.sig issue.method issue.contentType now = true := by
  intro valid
  have verified := valid (.download [] none 0) _ rfl 0 (by decide)
  exact absurd (verifySignedUrl_iff.mp verified).1 (by decide)

end LabourBaba.Storage
