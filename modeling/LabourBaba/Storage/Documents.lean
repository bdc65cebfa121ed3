import LabourBaba.Policies.Schema
import LabourBaba.Storage.Signing

/-!
# Worker documents

A worker attaches a document by URL or key; the key is normalised and stored with the
worker. It is normalised again whenever it is signed or deleted. The owner's folder is
checked on the first form; since that form is its own normal form, the check holds for every
later one (`attached_isolated`), whatever calls come between (`isolated_of_run`).
-/
namespace LabourBaba.Storage

open Utf16

/-! ### Identifiers and folders -/

def isUuid (s : Text) : Bool :=
  s.length = 36 && s.all fun c => [c] = lit "-" || (hexValue c).isSome

/-- An identifier of the database. -/
structure Uuid where
  text : Text
  form : isUuid text = true

instance : DecidableEq Uuid := fun a b =>
  decidable_of_iff (a.text = b.text) ⟨fun same => by cases a; cases b; simp_all, congrArg _⟩

/-- `workers/${workerId}/`. -/
def workerFolder (workerId : Uuid) : Text := lit "workers/" ++ workerId.text ++ lit "/"

def documentFolder (workerId : Uuid) : Text :=
  lit "workers/" ++ workerId.text ++ lit "/documents/"

/-- Whether a key lies in no other worker's folder. -/
def Isolated (workerId : Uuid) (key : Text) : Prop :=
  ∀ other : Uuid, other ≠ workerId → ¬ workerFolder other <+: key

/-- `ext.replace(/[^a-zA-Z0-9]/g, "").toLowerCase() || "pdf"`. -/
def cleanExt (ext : Text) : Text :=
  let letters := ext.filter fun c =>
    (48 ≤ c.toNat ∧ c.toNat ≤ 57) ∨ (65 ≤ c.toNat ∧ c.toNat ≤ 90) ∨ (97 ≤ c.toNat ∧ c.toNat ≤ 122)
  let lower := letters.map fun c => if 65 ≤ c.toNat ∧ c.toNat ≤ 90 then c + 32 else c
  if lower = [] then lit "pdf" else lower

def generateDocumentKey (workerId documentId : Uuid) (ext : Text) : Text :=
  documentFolder workerId ++ documentId.text ++ lit "." ++ cleanExt ext

section Service

variable (pathname : Text → Option Text)

def isWorkerDocumentKey (workerId : Uuid) (key : Text) : Bool :=
  if key = [] then false
  else
    match normalizeObjectKey pathname key with
    | .error _ => false
    | .ok normalizedKey => documentFolder workerId <+: normalizedKey

/-! ### Documents -/

structure WorkerDocument where
  id : Uuid
  worker_id : Uuid
  document_type : Option String
  file_url : Option Text
  status : String

/-- Why a call is refused. -/
inductive ServiceError
  | authorization (message : String) (statusCode : Nat) (code : String)
  | other (message : String)
  deriving DecidableEq, Repr

structure UploadWorkerDocumentReq where
  worker_id : Option Text := none
  document_type : String
  file_url : Text

def uploadDocument (workerId documentId : Uuid) (payload : UploadWorkerDocumentReq) :
    Except ServiceError WorkerDocument :=
  if payload.worker_id.any fun id => id ≠ [] ∧ id ≠ workerId.text then
    .error (.authorization "Cannot upload documents for another worker" 403 "NOT_OWNER")
  else
    match normalizeObjectKey pathname payload.file_url with
    | .error message => .error (.other message)
    | .ok normalizedKey =>
      if lit "workers/" <+: normalizedKey ∧ ¬ workerFolder workerId <+: normalizedKey then
        .error (.authorization "Cannot attach document key belonging to another worker" 403
          "DOCUMENT_ATTACHMENT_FORBIDDEN")
      else .ok {
        id := documentId
        worker_id := workerId
        document_type := some payload.document_type
        file_url := some (if normalizedKey = [] then payload.file_url else normalizedKey)
        status := "PENDING" }

/-- Who asks: the identifier, and the role as lower-case text. -/
structure Actor where
  id : Text
  role : String

open Policies PolicyDecision in
def canReadDocument (actor : Actor) (document : WorkerDocument) : PolicyDecision :=
  if actor.role = UserRole.ADMIN.value then allow
  else if actor.role = UserRole.WORKER.value ∧ actor.id = document.worker_id.text then allow
  else deny "Forbidden: Cannot access another worker's document" 403 "DOCUMENT_ACCESS_DENIED"

open Policies PolicyDecision in
def canDeleteDocument (actor : Actor) (document : WorkerDocument) : PolicyDecision :=
  if actor.role = UserRole.ADMIN.value then allow
  else if actor.role = UserRole.WORKER.value ∧ actor.id = document.worker_id.text then allow
  else deny "Forbidden: Cannot delete another worker's document" 403 "DOCUMENT_ACCESS_DENIED"

/-- The key of a document, a new one if none is stored. -/
def WorkerDocument.key (document : WorkerDocument) (newId : Uuid) : Text :=
  match document.file_url with
  | some url => if url = [] then generateDocumentKey document.worker_id newId (lit "pdf") else url
  | none => generateDocumentKey document.worker_id newId (lit "pdf")

section Calls

variable {Signature : Type} (config : StorageConfig) (mac : Mac Signature)

/-- A refusal of a policy, as the services throw it. -/
def refusal (decision : Policies.PolicyDecision) : ServiceError :=
  .authorization (decision.reason.getD "Forbidden: Insufficient permissions")
    (decision.statusCode.getD 403) (decision.code.getD "FORBIDDEN")

def documentNotFound : ServiceError :=
  .authorization "Document not found" 404 "DOCUMENT_NOT_FOUND"

def signDocument (document : WorkerDocument) (newId : Uuid) (now : Int) :
    Except ServiceError (SignedUrl Signature) :=
  match getSignedDownloadUrl pathname config mac (document.key newId) none now with
  | .error message => .error (.other message)
  | .ok url => .ok url

def getDocumentAccessUrl (actor : Actor) (documents : List WorkerDocument) (documentId newId : Uuid)
    (now : Int) : Except ServiceError (SignedUrl Signature) :=
  match documents.find? fun document => document.id = documentId with
  | none => .error documentNotFound
  | some document =>
    if (canReadDocument actor document).allowed then
      signDocument pathname config mac document newId now
    else .error (refusal (canReadDocument actor document))

/-- The access of an administrator, to a document of a worker. -/
def getWorkerDocumentAccess (documents : List WorkerDocument) (workerId documentId newId : Uuid)
    (now : Int) : Except ServiceError (SignedUrl Signature) :=
  match documents.find? fun document =>
    document.id = documentId ∧ document.worker_id = workerId with
  | none => .error (.authorization "Document not found for this worker" 404 "DOCUMENT_NOT_FOUND")
  | some document => signDocument pathname config mac document newId now

end Calls

/-- The key that the driver is told to delete with a document, if any. -/
def deletedKey (document : WorkerDocument) : Option Text :=
  match document.file_url with
  | some url =>
    if url = [] then none
    else
      match normalizeObjectKey pathname url with
      | .error _ => none
      | .ok key => (normalizeObjectKey pathname key).toOption
  | none => none

/-- The document that is deleted, and the documents left. -/
def deleteDocument (actor : Actor) (documents : List WorkerDocument) (documentId : Uuid) :
    Except ServiceError (WorkerDocument × List WorkerDocument) :=
  match documents.find? fun document => document.id = documentId with
  | none => .error documentNotFound
  | some document =>
    if (canDeleteDocument actor document).allowed then
      .ok (document, documents.filter fun other => other.id ≠ documentId)
    else .error (refusal (canDeleteDocument actor document))

/-- Pending documents of a worker get the status of the review. -/
def verifyWorkerDocument (documents : List WorkerDocument) (workerId : Uuid) (status : String) :
    Except ServiceError (List WorkerDocument) :=
  if documents.any fun document => document.worker_id = workerId ∧ document.status = "PENDING" then
    .ok (documents.map fun document =>
      if document.worker_id = workerId ∧ document.status = "PENDING" then
        { document with status := status }
      else document)
  else .error (.other "No pending documents for this worker")

end Service

/-! ### Runs over the documents -/

inductive Op
  | uploadDocument (workerId documentId : Uuid) (payload : UploadWorkerDocumentReq)
  | getDocumentAccessUrl (actor : Actor) (documentId newId : Uuid) (now : Int)
  | getWorkerDocumentAccess (workerId documentId newId : Uuid) (now : Int)
  | deleteDocument (actor : Actor) (documentId : Uuid)
  | verifyWorkerDocument (workerId : Uuid) (status : String)

section Runs

variable (pathname : Text → Option Text)

/-- The documents after a call. -/
def step (documents : List WorkerDocument) : Op → List WorkerDocument
  | .uploadDocument workerId documentId payload =>
    match uploadDocument pathname workerId documentId payload with
    | .ok document =>
      if documents.any fun other => other.id = documentId then documents
      else documents ++ [document]
    | .error _ => documents
  | .deleteDocument actor documentId =>
    match deleteDocument actor documents documentId with
    | .ok (_, left) => left
    | .error _ => documents
  | .verifyWorkerDocument workerId status =>
    match verifyWorkerDocument documents workerId status with
    | .ok reviewed => reviewed
    | .error _ => documents
  | _ => documents

def run (ops : List Op) : List WorkerDocument := ops.foldl (step pathname) []

/-- Documents are what was uploaded, under their worker's name. -/
def Uploaded (ops : List Op) (document : WorkerDocument) : Prop :=
  ∃ payload created, .uploadDocument document.worker_id document.id payload ∈ ops ∧
    uploadDocument pathname document.worker_id document.id payload = .ok created ∧
    created.file_url = document.file_url

end Runs

/-! ### Folders -/

theorem isPlain_uuid (id : Uuid) : id.text.all isPlain = true := by
  refine List.all_eq_true.mpr fun c member => ?_
  have known := List.all_eq_true.mp (Bool.and_eq_true_iff.mp id.form).2 c member
  simp only [isPlain, Bool.and_eq_true, decide_eq_true_eq]
  refine ⟨⟨⟨?_, ?_⟩, ?_⟩, ?_⟩ <;>
    · rintro rfl
      exact absurd known (by decide)

theorem uuid_ne_nil (id : Uuid) : id.text ≠ [] := by
  intro empty
  have long := of_decide_eq_true (Bool.and_eq_true_iff.mp id.form).1
  rw [empty] at long
  cases long

theorem telling_uuid (id : Uuid) : Telling id.text := .of_plain (uuid_ne_nil id) (isPlain_uuid id)

/-- Folders of different workers have no key in common. -/
theorem worker_of_folder {first second : Uuid} {key : Text} (mine : workerFolder first <+: key)
    (other : workerFolder second <+: key) : first = second := by
  obtain ⟨rest, rfl⟩ := mine
  obtain ⟨rest', same⟩ := other
  have split : ∀ (id : Uuid) (rest : Text),
      (workerFolder id ++ rest).splitOn slash = lit "workers" :: id.text :: rest.splitOn slash := by
    intro id rest
    have form : workerFolder id ++ rest = lit "workers" ++ slash :: (id.text ++ slash :: rest) := by
      simp only [workerFolder, List.append_assoc]
      rfl
    rw [form, List.splitOn_append_cons_self_of_not_mem (by decide),
      List.splitOn_append_cons_self_of_not_mem (telling_uuid id).noSlash]
  have texts : second.text = first.text := by
    have segments := congrArg (List.splitOn slash) same
    rw [split, split] at segments
    exact (List.cons.inj (List.cons.inj segments).2).1
  cases first
  cases second
  simp_all

theorem isolated_of_folder {workerId : Uuid} {key : Text}
    (own : lit "workers/" <+: key → workerFolder workerId <+: key) : Isolated workerId key := by
  intro other differ under
  have folder : lit "workers/" <+: key :=
    List.IsPrefix.trans ⟨other.text ++ lit "/", by simp [workerFolder]⟩ under
  exact differ (worker_of_folder under (own folder))

theorem cleanExt_ne_nil (ext : Text) : cleanExt ext ≠ [] := by
  unfold cleanExt
  dsimp only
  split
  · decide
  next something => exact something

/-- Digits and lower-case letters are left. -/
theorem isPlain_cleanExt (ext : Text) : (cleanExt ext).all isPlain = true := by
  have plain : ∀ c : CodeUnit,
      (48 ≤ c.toNat ∧ c.toNat ≤ 57) ∨ (97 ≤ c.toNat ∧ c.toNat ≤ 122) → isPlain c = true := by
    intro c letter
    simp only [isPlain, Bool.and_eq_true, decide_eq_true_eq]
    refine ⟨⟨⟨?_, ?_⟩, ?_⟩, ?_⟩ <;>
      · rintro rfl
        exact absurd letter (by decide)
  unfold cleanExt
  dsimp only
  split
  · decide
  · refine List.all_eq_true.mpr fun c member => plain c ?_
    obtain ⟨d, among, rfl⟩ := List.mem_map.mp member
    have kept := of_decide_eq_true (List.mem_filter.mp among).2
    split
    next upper =>
      rw [UInt16.toNat_add, show (32 : CodeUnit).toNat = 32 from rfl]
      omega
    next other => omega

theorem telling_fileName (documentId : Uuid) (ext : Text) :
    Telling (documentId.text ++ dot :: cleanExt ext) := by
  have known : ∀ c ∈ documentId.text ++ dot :: cleanExt ext, isPlain c = true ∨ c = dot := by
    intro c member
    rcases List.mem_append.mp member with member | member
    · exact Or.inl (List.all_eq_true.mp (isPlain_uuid documentId) c member)
    · rcases List.mem_cons.mp member with rfl | member
      · exact Or.inr rfl
      · exact Or.inl (List.all_eq_true.mp (isPlain_cleanExt ext) c member)
  refine ⟨by simp, fun member => absurd (known _ member) (by decide),
    fun member => absurd (known _ member) (by decide),
    fun member => absurd (known _ member) (by decide), fun start => ?_, fun finish => ?_⟩
  · cases first : documentId.text with
    | nil => exact uuid_ne_nil documentId first
    | cons c rest =>
      rw [first] at start
      obtain rfl : dot = c := (List.cons_prefix_cons.mp start).1
      exact absurd (List.all_eq_true.mp (isPlain_uuid documentId) dot
        (first ▸ List.mem_cons_self)) (by decide)
  · -- the extension is behind the dot, and has none
    obtain ⟨front, whole⟩ := finish
    have last := congrArg List.getLast? whole
    rw [List.getLast?_append_of_ne_nil _ (List.cons_ne_nil dot _),
      List.getLast?_append_of_ne_nil _ (List.cons_ne_nil dot (cleanExt ext)),
      List.getLast?_cons_of_ne_nil (cleanExt_ne_nil ext)] at last
    exact absurd (List.all_eq_true.mp (isPlain_cleanExt ext) dot
      (List.mem_of_getLast? last.symm)) (by decide)

theorem normalizeObjectKey_generated {pathname : Text → Option Text} (workerId documentId : Uuid)
    (ext : Text) :
    normalizeObjectKey pathname (generateDocumentKey workerId documentId ext) =
      .ok (generateDocumentKey workerId documentId ext) := by
  have form : generateDocumentKey workerId documentId ext = [slash].intercalate
      [lit "workers", workerId.text, lit "documents",
        documentId.text ++ dot :: cleanExt ext] := by
    simp [generateDocumentKey, documentFolder, List.intercalate_cons_cons]
    rfl
  rw [form]
  refine normalizeObjectKey_segments (List.cons_ne_nil _ _) fun s member => ?_
  simp only [List.mem_cons, List.not_mem_nil, or_false] at member
  rcases member with rfl | rfl | rfl | rfl
  · exact .of_plain (by decide) (by decide)
  · exact telling_uuid workerId
  · exact .of_plain (by decide) (by decide)
  · exact telling_fileName documentId ext

/-! ### Documents stay in their folder -/

section Isolation

variable {Signature : Type} {pathname : Text → Option Text} {config : StorageConfig}
  {mac : Mac Signature}

/-- What is stored is empty, or its own normal form and in no other worker's folder. -/
theorem attached_isolated {workerId documentId : Uuid} {payload : UploadWorkerDocumentReq}
    {created : WorkerDocument}
    (accepted : uploadDocument pathname workerId documentId payload = .ok created) :
    ∃ url, created.file_url = some url ∧
      (url = [] ∨ normalizeObjectKey pathname url = .ok url ∧ Isolated workerId url) := by
  unfold uploadDocument at accepted
  split at accepted
  · cases accepted
  · split at accepted
    · cases accepted
    next key normal =>
      split at accepted
      · cases accepted
      next own =>
        obtain rfl := Except.ok.inj accepted
        by_cases empty : key = []
        · -- only the empty text has the empty key
          rcases normalizeObjectKey_ok normal with ⟨nothing, -⟩ | ⟨raw, checked, key_eq⟩
          · exact ⟨payload.file_url, by simp [empty], Or.inl nothing⟩
          · exact absurd (key_eq.symm.trans empty)
              (Path.normalize_ne_nil checked.relative checked.plain)
        · refine ⟨key, by simp [empty], Or.inr ⟨normalizeObjectKey_idem normal, ?_⟩⟩
          exact isolated_of_folder fun folder => by_contra fun foreign => own ⟨folder, foreign⟩

/-- What is known of a row whose document was uploaded. -/
structure Confined (pathname : Text → Option Text) (document : WorkerDocument) : Prop where
  stored : ∃ url, document.file_url = some url ∧
    (url = [] ∨ normalizeObjectKey pathname url = .ok url ∧ Isolated document.worker_id url)

theorem isolated_generated (workerId documentId : Uuid) (ext : Text) :
    Isolated workerId (generateDocumentKey workerId documentId ext) :=
  isolated_of_folder fun _ => ⟨lit "documents/" ++ documentId.text ++ lit "." ++ cleanExt ext, by
    simp only [generateDocumentKey, documentFolder, workerFolder, List.append_assoc]
    rfl⟩

theorem Confined.signed {document : WorkerDocument} (confined : Confined pathname document)
    {newId : Uuid} {now : Int} {url : SignedUrl Signature}
    (made : signDocument pathname config mac document newId now = .ok url) :
    Isolated document.worker_id url.key := by
  have normal : normalizeObjectKey pathname (document.key newId) = .ok url.key := by
    unfold signDocument at made
    split at made
    · cases made
    next url' issued =>
      obtain rfl := Except.ok.inj made
      unfold getSignedDownloadUrl signUrl at issued
      split at issued
      · cases issued
      next key normal =>
        dsimp only at issued
        split at issued
        · cases issued
        · obtain rfl := Except.ok.inj issued
          exact normal
  obtain ⟨stored, found, kept⟩ := confined.stored
  unfold WorkerDocument.key at normal
  rw [found] at normal
  dsimp only at normal
  rcases kept with rfl | ⟨same, isolated⟩
  · rw [if_pos rfl, normalizeObjectKey_generated] at normal
    rw [← Except.ok.inj normal]
    exact isolated_generated _ _ _
  · split at normal
    · rw [normalizeObjectKey_generated] at normal
      rw [← Except.ok.inj normal]
      exact isolated_generated _ _ _
    · rw [← Except.ok.inj (same.symm.trans normal)]
      exact isolated

theorem Confined.deleted {document : WorkerDocument} (confined : Confined pathname document)
    {key : Text} (told : deletedKey pathname document = some key) :
    Isolated document.worker_id key := by
  obtain ⟨stored, found, kept⟩ := confined.stored
  unfold deletedKey at told
  rw [found] at told
  dsimp only at told
  rcases kept with rfl | ⟨same, isolated⟩
  · rw [if_pos rfl] at told
    cases told
  · split at told
    · cases told
    · rw [same] at told
      dsimp only at told
      rw [same] at told
      obtain rfl := Option.some.inj told
      exact isolated

end Isolation

/-! ### Runs -/

section Runs

variable {pathname : Text → Option Text}

theorem Uploaded.mono {ops more : List Op} {document : WorkerDocument}
    (uploaded : Uploaded pathname ops document) : Uploaded pathname (ops ++ more) document := by
  obtain ⟨payload, created, member, accepted, same⟩ := uploaded
  exact ⟨payload, created, List.mem_append_left more member, accepted, same⟩

theorem deleteDocument_ok {actor : Actor} {documents left : List WorkerDocument}
    {documentId : Uuid} {document : WorkerDocument}
    (deleted : deleteDocument actor documents documentId = .ok (document, left)) :
    document ∈ documents ∧ document.id = documentId ∧ left ⊆ documents := by
  unfold deleteDocument at deleted
  split at deleted
  · cases deleted
  next found =>
    split at deleted
    · obtain ⟨rfl, rfl⟩ := Prod.mk.inj (Except.ok.inj deleted)
      exact ⟨List.mem_of_find?_eq_some found, by simpa using List.find?_some found,
        fun other member => (List.mem_filter.mp member).1⟩
    · cases deleted

theorem verifyWorkerDocument_ok {documents reviewed : List WorkerDocument} {workerId : Uuid}
    {status : String} (verified : verifyWorkerDocument documents workerId status = .ok reviewed)
    {document : WorkerDocument} (member : document ∈ reviewed) :
    ∃ old ∈ documents, document.id = old.id ∧ document.worker_id = old.worker_id ∧
      document.file_url = old.file_url := by
  unfold verifyWorkerDocument at verified
  split at verified
  · obtain rfl := Except.ok.inj verified
    obtain ⟨old, among, rfl⟩ := List.mem_map.mp member
    refine ⟨old, among, ?_⟩
    split <;> exact ⟨rfl, rfl, rfl⟩
  · cases verified

/-- A call leaves documents that were uploaded, before it or by it. -/
theorem uploaded_step {ops : List Op} {documents : List WorkerDocument} (op : Op)
    (before : ∀ document ∈ documents, Uploaded pathname ops document) :
    ∀ document ∈ step pathname documents op, Uploaded pathname (ops ++ [op]) document := by
  have earlier : ∀ document ∈ documents, Uploaded pathname (ops ++ [op]) document :=
    fun document member => (before document member).mono
  intro document member
  cases op with
  | uploadDocument workerId documentId payload =>
    unfold step at member
    dsimp only at member
    split at member
    next created accepted =>
      split at member
      · exact earlier document member
      · rcases List.mem_append.mp member with member | member
        · exact earlier document member
        · obtain rfl := List.mem_singleton.mp member
          -- an accepted upload is stored under the worker and the id that it was called with
          have own : document.worker_id = workerId ∧ document.id = documentId := by
            unfold uploadDocument at accepted
            split at accepted
            · cases accepted
            · split at accepted
              · cases accepted
              · split at accepted
                · cases accepted
                · obtain rfl := Except.ok.inj accepted
                  exact ⟨rfl, rfl⟩
          refine ⟨payload, document, ?_, ?_, rfl⟩
          · rw [own.1, own.2]
            simp
          · rw [own.1, own.2]
            exact accepted
    · exact earlier document member
  | getDocumentAccessUrl actor documentId newId now => exact earlier document member
  | getWorkerDocumentAccess workerId documentId newId now => exact earlier document member
  | deleteDocument actor documentId =>
    unfold step at member
    dsimp only at member
    split at member
    next _ left deleted => exact earlier document ((deleteDocument_ok deleted).2.2 member)
    · exact earlier document member
  | verifyWorkerDocument workerId status =>
    unfold step at member
    dsimp only at member
    split at member
    next reviewed verified =>
      obtain ⟨old, among, id, worker, url⟩ := verifyWorkerDocument_ok verified member
      unfold Uploaded
      rw [id, worker, url]
      exact earlier old among
    · exact earlier document member

theorem uploaded_of_run (ops : List Op) :
    ∀ document ∈ run pathname ops, Uploaded pathname ops document := by
  induction ops using List.reverseRecOn with
  | nil => exact fun document member => absurd member List.not_mem_nil
  | append_singleton ops op ih =>
    rw [run, List.foldl_append]
    exact uploaded_step op ih

theorem Uploaded.confined {ops : List Op} {document : WorkerDocument}
    (uploaded : Uploaded pathname ops document) : Confined pathname document := by
  obtain ⟨payload, created, -, accepted, same⟩ := uploaded
  obtain ⟨url, found, kept⟩ := attached_isolated accepted
  exact ⟨url, same.symm.trans found, kept⟩

variable {Signature : Type} {config : StorageConfig} {mac : Mac Signature}

theorem getDocumentAccessUrl_ok {actor : Actor} {documents : List WorkerDocument}
    {documentId newId : Uuid} {now : Int} {url : SignedUrl Signature}
    (made : getDocumentAccessUrl pathname config mac actor documents documentId newId now =
      .ok url) :
    ∃ document ∈ documents, document.id = documentId ∧
      signDocument pathname config mac document newId now = .ok url := by
  unfold getDocumentAccessUrl at made
  split at made
  · cases made
  next document found =>
    split at made
    · exact ⟨document, List.mem_of_find?_eq_some found, by simpa using List.find?_some found, made⟩
    · cases made

theorem getWorkerDocumentAccess_ok {documents : List WorkerDocument}
    {workerId documentId newId : Uuid} {now : Int} {url : SignedUrl Signature}
    (made : getWorkerDocumentAccess pathname config mac documents workerId documentId newId now =
      .ok url) :
    ∃ document ∈ documents, document.id = documentId ∧
      signDocument pathname config mac document newId now = .ok url := by
  unfold getWorkerDocumentAccess at made
  split at made
  · cases made
  next document found =>
    refine ⟨document, List.mem_of_find?_eq_some found, ?_, made⟩
    have named := List.find?_some found
    simp only [decide_eq_true_eq] at named
    exact named.1

/-- Every string either is refused or has a key that is clean and its own key; after any calls
every document was uploaded under its worker's name, and what is signed or deleted for it, by
its worker or an administrator, is in no other worker's folder; and a key that counts as a
worker's document is driven to that worker's documents. -/
theorem document_keys_isolated :
    (∀ urlOrKey key, normalizeObjectKey pathname urlOrKey = .ok key →
      Clean key ∧ normalizeObjectKey pathname key = .ok key) ∧
    (∀ ops, (∀ document ∈ run pathname ops, Uploaded pathname ops document) ∧
      (∀ actor documentId newId now url,
        getDocumentAccessUrl pathname config mac actor (run pathname ops) documentId newId now =
          .ok url →
        ∃ document ∈ run pathname ops, document.id = documentId ∧
          Isolated document.worker_id url.key) ∧
      (∀ workerId documentId newId now url,
        getWorkerDocumentAccess pathname config mac (run pathname ops) workerId documentId newId
          now = .ok url →
        ∃ document ∈ run pathname ops, document.id = documentId ∧
          Isolated document.worker_id url.key) ∧
      ∀ actor documentId document left,
        deleteDocument actor (run pathname ops) documentId = .ok (document, left) →
        document.id = documentId ∧
          ∀ key, deletedKey pathname document = some key → Isolated document.worker_id key) ∧
    ∀ workerId key, isWorkerDocumentKey pathname workerId key = true →
      ∃ driven, normalizeObjectKey pathname key = .ok driven ∧
        documentFolder workerId <+: driven := by
  refine ⟨fun urlOrKey key normal =>
      ⟨normalizeObjectKey_clean normal, normalizeObjectKey_idem normal⟩,
    fun ops => ?_, fun workerId key belongs => ?_⟩
  · -- what a call signs or deletes is named by a stored document, and those are confined
    have confined : ∀ document ∈ run pathname ops, Confined pathname document :=
      fun document member => (uploaded_of_run ops document member).confined
    refine ⟨uploaded_of_run ops, fun actor documentId newId now url made => ?_,
      fun workerId documentId newId now url made => ?_,
      fun actor documentId document left deleted => ?_⟩
    · obtain ⟨document, member, named, signed⟩ := getDocumentAccessUrl_ok made
      exact ⟨document, member, named, (confined document member).signed signed⟩
    · obtain ⟨document, member, named, signed⟩ := getWorkerDocumentAccess_ok made
      exact ⟨document, member, named, (confined document member).signed signed⟩
    · obtain ⟨member, named, -⟩ := deleteDocument_ok deleted
      exact ⟨named, fun key told => (confined document member).deleted told⟩
  · unfold isWorkerDocumentKey at belongs
    split at belongs
    · cases belongs
    · split at belongs
      · cases belongs
      next driven normal => exact ⟨driven, normal, of_decide_eq_true belongs⟩

end Runs

/-! ### A worker's upload -/

def sampleWorker : Uuid := ⟨lit "11111111-1111-4111-a111-111111111111", by decide⟩

def sampleDocument : Uuid := ⟨lit "aaaa1111-1111-4111-a111-111111111111", by decide⟩

/-- An upload of a key with empty and `.` segments. -/
def sampleOps : List Op :=
  [.uploadDocument sampleWorker sampleDocument
    { document_type := "AADHAAR", file_url := lit "//docs/./scan\\a.pdf" }]

/-- The worker's access to the document afterwards. -/
def sampleAccess : Except ServiceError (SignedUrl Text) :=
  getDocumentAccessUrl (fun _ => none) sample echo ⟨sampleWorker.text, "worker"⟩
    (run (fun _ => none) sampleOps) sampleDocument sampleDocument 0

theorem document_keys_isolated_sample :
    ∃ url, sampleAccess = .ok url ∧ url.key = lit "docs/scan/a.pdf" ∧
      ∃ document ∈ run (fun _ => none) sampleOps, document.id = sampleDocument ∧
        Isolated document.worker_id url.key := by
  have key : sampleAccess.toOption.map SignedUrl.key = some (lit "docs/scan/a.pdf") := by
    decide +kernel
  cases made : sampleAccess with
  | error e =>
    rw [made] at key
    cases key
  | ok url =>
    rw [made] at key
    exact ⟨url, rfl, Option.some.inj key, ((@document_keys_isolated (fun _ => none) Text sample
      echo).2.1 sampleOps).2.1 _ _ _ _ url made⟩

end LabourBaba.Storage
