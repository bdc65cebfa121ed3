import LabourBaba.Store.RowFilter

/-!
# Actors, decisions and the rows that are read

The policies take an actor as the token gave it and a row with the relations its query
loaded. A role is any value a token can carry; the policies compare it with the three of
`UserRole`, all but the chat's as it is, the chat's as lower-case text. Identifiers are
compared as text, in the one form in which the database gives them back.
-/
namespace LabourBaba.Policies

open Store

inductive UserRole
  | CUSTOMER | WORKER | ADMIN
  deriving DecidableEq, Repr

def UserRole.value : UserRole → String
  | CUSTOMER => "customer"
  | WORKER => "worker"
  | ADMIN => "admin"

/-- A role as an actor carries it: a string, or any other value with its text, which is
empty if the value counts as false. -/
inductive RoleValue
  | string (s : String)
  | other (rendered : String)
  deriving DecidableEq, Repr

/-- `String(role || "")`. -/
def RoleValue.text : RoleValue → String
  | string s => s
  | other rendered => rendered

structure AuthenticatedUser where
  id : String
  role : RoleValue
  deriving DecidableEq, Repr

/-- `actor.role === role`. -/
def AuthenticatedUser.is (actor : AuthenticatedUser) (role : UserRole) : Bool :=
  actor.role = .string role.value

structure PolicyDecision where
  allowed : Bool
  reason : Option String := none
  statusCode : Option Nat := none
  code : Option String := none
  deriving DecidableEq, Repr

namespace PolicyDecision

def allow : PolicyDecision := { allowed := true }

def deny (reason : String) (statusCode : Nat) (code : String) : PolicyDecision :=
  { allowed := false, reason := some reason, statusCode := some statusCode, code := some code }

@[simp] theorem allowed_allow : allow.allowed = true := rfl

@[simp] theorem allowed_deny (reason : String) (statusCode : Nat) (code : String) :
    (deny reason statusCode code).allowed = false := rfl

end PolicyDecision

/-! ### What the policies are given -/

structure WorkerRef where
  worker_id : String
  deriving DecidableEq, Repr

structure CustomerRef where
  customer_id : String
  deriving DecidableEq, Repr

structure DispatchedRef where
  job_dispatch : Option (List WorkerRef)
  deriving DecidableEq, Repr

structure JobResource where
  id : String
  customer_id : String
  booking : Option (List WorkerRef)
  job_requirement : Option (List DispatchedRef)
  deriving DecidableEq, Repr

structure RequirementResource where
  id : String
  job_id : String
  job : Option CustomerRef
  job_dispatch : Option (List WorkerRef)
  booking : Option (List WorkerRef)
  deriving DecidableEq, Repr

structure BookingResource where
  id : String
  customer_id : String
  worker_id : String
  deriving DecidableEq, Repr

structure DispatchResource where
  id : String
  requirement_id : String
  worker_id : String
  deriving DecidableEq, Repr

/-! ### The rows of the database with their relations -/

abbrev Booking := BookingResource

abbrev Dispatch := DispatchResource

structure RequirementOfJob where
  id : String
  job_dispatch : List Dispatch
  deriving DecidableEq, Repr

structure Job where
  id : String
  customer_id : String
  booking : List Booking
  job_requirement : List RequirementOfJob
  deriving DecidableEq, Repr

structure Requirement where
  id : String
  job_id : String
  job : CustomerRef
  job_dispatch : List Dispatch
  booking : List Booking
  deriving DecidableEq, Repr

structure Payment where
  id : String
  booking_id : String
  booking : Booking
  deriving DecidableEq, Repr

def Job.resource (job : Job) : JobResource :=
  { id := job.id
    customer_id := job.customer_id
    booking := some (job.booking.map fun b => ⟨b.worker_id⟩)
    job_requirement := some (job.job_requirement.map fun req =>
      ⟨some (req.job_dispatch.map fun d => ⟨d.worker_id⟩)⟩) }

def Requirement.resource (requirement : Requirement) : RequirementResource :=
  { id := requirement.id
    job_id := requirement.job_id
    job := some requirement.job
    job_dispatch := some (requirement.job_dispatch.map fun d => ⟨d.worker_id⟩)
    booking := some (requirement.booking.map fun b => ⟨b.worker_id⟩) }

/-- The identifier that no row has, which the filters ask for to deny. -/
def nilUuid : String := "00000000-0000-0000-0000-000000000000"

/-- `id ? { column: id } : {}`. -/
def idFilter {Row : Type} (column : Row → String) (id : String) : RowFilter Row :=
  if id = "" then .all else .equals column id

@[simp] theorem idFilter_self {Row : Type} (column : Row → String) (row : Row) :
    (idFilter column (column row)).holds row = true := by
  unfold idFilter
  split <;> simp

theorem idFilter_holds {Row : Type} {column : Row → String} {id : String} {row : Row}
    (asked : id ≠ "") : (idFilter column id).holds row = true ↔ column row = id := by
  simp [idFilter, asked]

end LabourBaba.Policies
