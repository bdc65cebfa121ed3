import LabourBaba.Policies.Schema

/-!
# Reading permissions, as a check and as a query

Each policy says twice who may read a row: `canRead` decides for a loaded row, `scopeRead`
is the filter of a query. Both are given below as the source writes them, policy by policy.
What they are for is `Readers`: every row names the customers and workers that may read it,
administrators may read all, and nobody else any. Each `canRead` and each `scopeRead` is
shown to be that, hence the two agree (`scopes_agree`), and a query with the filter finds
what a lookup followed by the check finds (`findFirst_scoped`).
-/
namespace LabourBaba.Policies

open Store PolicyDecision

/-! ### The policies -/

/-- `refs?.some((ref) => ref.worker_id === id)`. -/
def someWorker (refs : Option (List WorkerRef)) (id : String) : Bool :=
  (refs.map fun rs => rs.any fun ref => ref.worker_id = id).getD false

/-- `{ worker_id: id }` as the condition of a `some`. -/
def worker {Row : Type} (worker_id : Row → String) (id : String) : RowFilter Row :=
  .equals worker_id id

namespace jobPolicy

def canRead (actor : AuthenticatedUser) (job : JobResource) : PolicyDecision :=
  if actor.is .ADMIN then allow
  else if actor.is .CUSTOMER then
    if job.customer_id = actor.id then allow
    else deny "Job not found" 404 "RESOURCE_NOT_FOUND"
  else if actor.is .WORKER then
    let hasBooking := someWorker job.booking actor.id
    let hasDispatch := (job.job_requirement.map fun reqs =>
      reqs.any fun req => someWorker req.job_dispatch actor.id).getD false
    if hasBooking || hasDispatch then allow
    else deny "Job not found" 404 "RESOURCE_NOT_FOUND"
  else deny "Forbidden: Insufficient permissions" 403 "FORBIDDEN"

def scopeRead (actor : AuthenticatedUser) (jobId : String) : RowFilter Job :=
  if actor.is .ADMIN then idFilter Job.id jobId
  else if actor.is .CUSTOMER then
    .both (idFilter Job.id jobId) (.equals Job.customer_id actor.id)
  else if actor.is .WORKER then
    .both (idFilter Job.id jobId) (.oneOf [
      .someRelated Job.booking (worker BookingResource.worker_id actor.id),
      .someRelated Job.job_requirement (.someRelated RequirementOfJob.job_dispatch
        (worker DispatchResource.worker_id actor.id))])
  else .equals Job.id nilUuid

end jobPolicy

namespace requirementPolicy

def canRead (actor : AuthenticatedUser) (requirement : RequirementResource) : PolicyDecision :=
  if actor.is .ADMIN then allow
  else if actor.is .CUSTOMER then
    if requirement.job.any fun job => job.customer_id = actor.id then allow
    else deny "Requirement not found" 404 "RESOURCE_NOT_FOUND"
  else if actor.is .WORKER then
    let hasDispatch := someWorker requirement.job_dispatch actor.id
    let hasBooking := someWorker requirement.booking actor.id
    if hasDispatch || hasBooking then allow
    else deny "Requirement not found" 404 "RESOURCE_NOT_FOUND"
  else deny "Forbidden: Insufficient permissions" 403 "FORBIDDEN"

def scopeRead (actor : AuthenticatedUser) (requirementId : String) : RowFilter Requirement :=
  if actor.is .ADMIN then idFilter Requirement.id requirementId
  else if actor.is .CUSTOMER then
    .both (idFilter Requirement.id requirementId)
      (.related Requirement.job (.equals CustomerRef.customer_id actor.id))
  else if actor.is .WORKER then
    .both (idFilter Requirement.id requirementId) (.oneOf [
      .someRelated Requirement.booking (worker BookingResource.worker_id actor.id),
      .someRelated Requirement.job_dispatch (worker DispatchResource.worker_id actor.id)])
  else .equals Requirement.id nilUuid

end requirementPolicy

namespace bookingPolicy

def canRead (actor : AuthenticatedUser) (booking : BookingResource) : PolicyDecision :=
  if actor.is .ADMIN then allow
  else if actor.is .CUSTOMER then
    if booking.customer_id = actor.id then allow
    else deny "Booking not found" 404 "RESOURCE_NOT_FOUND"
  else if actor.is .WORKER then
    if booking.worker_id = actor.id then allow
    else deny "Booking not found" 404 "RESOURCE_NOT_FOUND"
  else deny "Forbidden: Insufficient permissions" 403 "FORBIDDEN"

def scopeRead (actor : AuthenticatedUser) (bookingId : String) : RowFilter Booking :=
  if actor.is .ADMIN then idFilter BookingResource.id bookingId
  else if actor.is .CUSTOMER then
    .both (idFilter BookingResource.id bookingId) (.equals BookingResource.customer_id actor.id)
  else if actor.is .WORKER then
    .both (idFilter BookingResource.id bookingId) (.equals BookingResource.worker_id actor.id)
  else .equals BookingResource.id nilUuid

end bookingPolicy

namespace paymentPolicy

/-- Workers never see what the customer pays. -/
def canRead (actor : AuthenticatedUser) (booking : BookingResource) : PolicyDecision :=
  if actor.is .ADMIN then allow
  else if actor.is .CUSTOMER && decide (booking.customer_id = actor.id) then allow
  else deny "Forbidden: Insufficient permissions to view payment" 403 "FORBIDDEN"

def scopeRead (actor : AuthenticatedUser) (bookingId : String) : RowFilter Payment :=
  if actor.is .ADMIN then .equals Payment.booking_id bookingId
  else if actor.is .CUSTOMER then
    .both (.equals Payment.booking_id bookingId)
      (.related Payment.booking (.equals BookingResource.customer_id actor.id))
  else .equals Payment.id nilUuid

end paymentPolicy

namespace dispatchPolicy

def canRead (actor : AuthenticatedUser) (dispatch : DispatchResource) : PolicyDecision :=
  if actor.is .ADMIN then allow
  else if actor.is .WORKER then
    if dispatch.worker_id = actor.id then allow
    else deny "Dispatch not found" 404 "RESOURCE_NOT_FOUND"
  else deny "Forbidden: Insufficient permissions" 403 "ROLE_FORBIDDEN"

def scopeRead (actor : AuthenticatedUser) (requirementId : String) : RowFilter Dispatch :=
  if actor.is .ADMIN then idFilter DispatchResource.requirement_id requirementId
  else if actor.is .WORKER then
    .both (idFilter DispatchResource.requirement_id requirementId)
      (.equals DispatchResource.worker_id actor.id)
  else .equals DispatchResource.id nilUuid

end dispatchPolicy

namespace chatPolicy

variable (toLowerCase : String → String)

def canReadConversation (actor : AuthenticatedUser) (booking : BookingResource) : PolicyDecision :=
  let role := toLowerCase actor.role.text
  if role = "admin" then allow
  else if role = "customer" ∧ booking.customer_id = actor.id then allow
  else if role = "worker" ∧ booking.worker_id = actor.id then allow
  else deny "Forbidden: Not an authorized participant of this conversation" 403 "NOT_PARTICIPANT"

def scopeBooking (actor : AuthenticatedUser) (bookingId : String) : RowFilter Booking :=
  let role := toLowerCase actor.role.text
  if role = "admin" then .equals BookingResource.id bookingId
  else if role = "customer" then
    .both (.equals BookingResource.id bookingId) (.equals BookingResource.customer_id actor.id)
  else if role = "worker" then
    .both (.equals BookingResource.id bookingId) (.equals BookingResource.worker_id actor.id)
  else .equals BookingResource.id nilUuid

end chatPolicy

/-! ### Who may read -/

/-- The role a text names. -/
def UserRole.ofText (s : String) : Option UserRole :=
  if s = "admin" then some .ADMIN
  else if s = "customer" then some .CUSTOMER
  else if s = "worker" then some .WORKER
  else none

/-- The role an actor has; only a string counts. -/
def AuthenticatedUser.userRole (actor : AuthenticatedUser) : Option UserRole :=
  match actor.role with
  | .string s => UserRole.ofText s
  | .other _ => none

/-- Who, besides administrators, may read a row. -/
structure Readers where
  customers : List String
  workers : List String

/-- Whether somebody with a role and an identifier may read the row. -/
def Readers.Admit (readers : Readers) (id : String) : Option UserRole → Prop
  | some .ADMIN => True
  | some .CUSTOMER => id ∈ readers.customers
  | some .WORKER => id ∈ readers.workers
  | none => False

def Job.readers (job : Job) : Readers where
  customers := [job.customer_id]
  workers := job.booking.map BookingResource.worker_id ++
    job.job_requirement.flatMap fun req => req.job_dispatch.map DispatchResource.worker_id

def Requirement.readers (requirement : Requirement) : Readers where
  customers := [requirement.job.customer_id]
  workers := requirement.booking.map BookingResource.worker_id ++
    requirement.job_dispatch.map DispatchResource.worker_id

def BookingResource.readers (booking : Booking) : Readers where
  customers := [booking.customer_id]
  workers := [booking.worker_id]

def BookingResource.payers (booking : Booking) : Readers where
  customers := [booking.customer_id]
  workers := []

def DispatchResource.readers (dispatch : Dispatch) : Readers where
  customers := []
  workers := [dispatch.worker_id]

theorem ofText_eq_some {s : String} {role : UserRole} :
    UserRole.ofText s = some role ↔ s = role.value := by
  unfold UserRole.ofText
  cases role <;> split_ifs <;> simp_all [UserRole.value]

theorem is_iff {actor : AuthenticatedUser} {role : UserRole} :
    actor.is role = true ↔ actor.userRole = some role := by
  unfold AuthenticatedUser.is AuthenticatedUser.userRole
  cases actor.role <;> simp [ofText_eq_some]

@[simp] theorem someWorker_map {Row : Type} (worker_id : Row → String) (rows : List Row)
    (id : String) :
    someWorker (some (rows.map fun row => ⟨worker_id row⟩)) id = true ↔
      id ∈ rows.map worker_id := by
  simp [someWorker]

@[simp] theorem Readers.admit_admin (readers : Readers) (id : String) :
    readers.Admit id (some .ADMIN) := trivial

@[simp] theorem Readers.admit_customer (readers : Readers) (id : String) :
    readers.Admit id (some .CUSTOMER) ↔ id ∈ readers.customers := Iff.rfl

@[simp] theorem Readers.admit_worker (readers : Readers) (id : String) :
    readers.Admit id (some .WORKER) ↔ id ∈ readers.workers := Iff.rfl

@[simp] theorem Readers.admit_none (readers : Readers) (id : String) :
    ¬ readers.Admit id none := not_false

/-- The answer of a decision that branches. -/
theorem allowed_ite {P : Prop} [Decidable P] (yes no : PolicyDecision) :
    (if P then yes else no).allowed = if P then yes.allowed else no.allowed :=
  apply_ite PolicyDecision.allowed P yes no

/-! ### The checks

One case for each role, and one for an actor with none. -/

variable (actor : AuthenticatedUser)

theorem jobPolicy.canRead_iff (job : Job) :
    (canRead actor job.resource).allowed = true ↔ job.readers.Admit actor.id actor.userRole := by
  unfold canRead Job.resource
  simp only [is_iff]
  rcases actor.userRole with _ | _ | _ | _
  · simp
  · simp [allowed_ite, Job.readers, @eq_comm _ actor.id]
  · simp [allowed_ite, Job.readers, someWorker]
  · simp

theorem requirementPolicy.canRead_iff (requirement : Requirement) :
    (canRead actor requirement.resource).allowed = true ↔
      requirement.readers.Admit actor.id actor.userRole := by
  unfold canRead
  simp only [is_iff]
  rcases actor.userRole with _ | _ | _ | _
  · simp
  · simp [allowed_ite, Requirement.resource, Requirement.readers, @eq_comm _ actor.id]
  · simp [allowed_ite, Requirement.resource, Requirement.readers, someWorker, or_comm]
  · simp

theorem bookingPolicy.canRead_iff (booking : Booking) :
    (canRead actor booking).allowed = true ↔ booking.readers.Admit actor.id actor.userRole := by
  unfold canRead
  simp only [is_iff]
  rcases actor.userRole with _ | _ | _ | _
  · simp
  · simp [allowed_ite, BookingResource.readers, @eq_comm _ actor.id]
  · simp [allowed_ite, BookingResource.readers, @eq_comm _ actor.id]
  · simp

theorem paymentPolicy.canRead_iff (booking : Booking) :
    (canRead actor booking).allowed = true ↔ booking.payers.Admit actor.id actor.userRole := by
  unfold canRead
  simp only [is_iff, Bool.and_eq_true, decide_eq_true_eq]
  rcases actor.userRole with _ | _ | _ | _
  · simp
  · simp [allowed_ite, BookingResource.payers, @eq_comm _ actor.id]
  · simp [BookingResource.payers]
  · simp

theorem dispatchPolicy.canRead_iff (dispatch : Dispatch) :
    (canRead actor dispatch).allowed = true ↔ dispatch.readers.Admit actor.id actor.userRole := by
  unfold canRead
  simp only [is_iff]
  rcases actor.userRole with _ | _ | _ | _
  · simp
  · simp [DispatchResource.readers]
  · simp [allowed_ite, DispatchResource.readers, @eq_comm _ actor.id]
  · simp

theorem chatPolicy.canReadConversation_iff (toLowerCase : String → String) (booking : Booking) :
    (canReadConversation toLowerCase actor booking).allowed = true ↔
      booking.readers.Admit actor.id (UserRole.ofText (toLowerCase actor.role.text)) := by
  unfold canReadConversation UserRole.ofText
  split_ifs <;> simp_all [allowed_ite, BookingResource.readers, @eq_comm _ actor.id]

/-! ### The filters -/

section Filters

variable {id : String}

theorem jobPolicy.scopeRead_iff {job : Job} (real : job.id ≠ nilUuid) :
    (scopeRead actor id).holds job = true ↔
      (idFilter Job.id id).holds job = true ∧ job.readers.Admit actor.id actor.userRole := by
  unfold scopeRead
  simp only [is_iff]
  rcases actor.userRole with _ | _ | _ | _
  · simp [real]
  · simp [Job.readers, @eq_comm _ actor.id]
  · simp [Job.readers, worker]
  · simp

theorem requirementPolicy.scopeRead_iff {requirement : Requirement}
    (real : requirement.id ≠ nilUuid) :
    (scopeRead actor id).holds requirement = true ↔
      (idFilter Requirement.id id).holds requirement = true ∧
        requirement.readers.Admit actor.id actor.userRole := by
  unfold scopeRead
  simp only [is_iff]
  rcases actor.userRole with _ | _ | _ | _
  · simp [real]
  · simp [Requirement.readers, @eq_comm _ actor.id]
  · simp [Requirement.readers, worker]
  · simp

theorem bookingPolicy.scopeRead_iff {booking : Booking} (real : booking.id ≠ nilUuid) :
    (scopeRead actor id).holds booking = true ↔
      (idFilter BookingResource.id id).holds booking = true ∧
        booking.readers.Admit actor.id actor.userRole := by
  unfold scopeRead
  simp only [is_iff]
  rcases actor.userRole with _ | _ | _ | _
  · simp [real]
  · simp [BookingResource.readers, @eq_comm _ actor.id]
  · simp [BookingResource.readers, @eq_comm _ actor.id]
  · simp

theorem paymentPolicy.scopeRead_iff {payment : Payment} (real : payment.id ≠ nilUuid) :
    (scopeRead actor id).holds payment = true ↔
      payment.booking_id = id ∧ payment.booking.payers.Admit actor.id actor.userRole := by
  unfold scopeRead
  simp only [is_iff]
  rcases actor.userRole with _ | _ | _ | _
  · simp [real]
  · simp [BookingResource.payers, @eq_comm _ actor.id]
  · simp [real, BookingResource.payers]
  · simp

theorem dispatchPolicy.scopeRead_iff {dispatch : Dispatch} (real : dispatch.id ≠ nilUuid) :
    (scopeRead actor id).holds dispatch = true ↔
      (idFilter DispatchResource.requirement_id id).holds dispatch = true ∧
        dispatch.readers.Admit actor.id actor.userRole := by
  unfold scopeRead
  simp only [is_iff]
  rcases actor.userRole with _ | _ | _ | _
  · simp [real]
  · simp [real, DispatchResource.readers]
  · simp [DispatchResource.readers, @eq_comm _ actor.id]
  · simp

theorem chatPolicy.scopeBooking_iff (toLowerCase : String → String) {booking : Booking}
    (real : booking.id ≠ nilUuid) :
    (scopeBooking toLowerCase actor id).holds booking = true ↔
      booking.id = id ∧
        booking.readers.Admit actor.id (UserRole.ofText (toLowerCase actor.role.text)) := by
  unfold scopeBooking UserRole.ofText
  split_ifs <;> simp_all [BookingResource.readers, @eq_comm _ actor.id]

end Filters

/-! ### The two agree -/

/-- For every actor, whatever its role and identifier, and all rows, whatever their relations:
the filter for the row holds of it exactly if the check allows it, for each policy. -/
theorem scopes_agree (toLowerCase : String → String) (actor : AuthenticatedUser) :
    (∀ booking : Booking, booking.id ≠ nilUuid →
      ((bookingPolicy.scopeRead actor booking.id).holds booking = true ↔
        (bookingPolicy.canRead actor booking).allowed = true)) ∧
    (∀ job : Job, job.id ≠ nilUuid →
      ((jobPolicy.scopeRead actor job.id).holds job = true ↔
        (jobPolicy.canRead actor job.resource).allowed = true)) ∧
    (∀ requirement : Requirement, requirement.id ≠ nilUuid →
      ((requirementPolicy.scopeRead actor requirement.id).holds requirement = true ↔
        (requirementPolicy.canRead actor requirement.resource).allowed = true)) ∧
    (∀ payment : Payment, payment.id ≠ nilUuid →
      ((paymentPolicy.scopeRead actor payment.booking_id).holds payment = true ↔
        (paymentPolicy.canRead actor payment.booking).allowed = true)) ∧
    (∀ booking : Booking, booking.id ≠ nilUuid →
      ((chatPolicy.scopeBooking toLowerCase actor booking.id).holds booking = true ↔
        (chatPolicy.canReadConversation toLowerCase actor booking).allowed = true)) ∧
    (∀ dispatch : Dispatch, dispatch.id ≠ nilUuid →
      ((dispatchPolicy.scopeRead actor dispatch.requirement_id).holds dispatch = true ↔
        (dispatchPolicy.canRead actor dispatch).allowed = true)) := by
  refine ⟨fun booking real => ?_, fun job real => ?_, fun requirement real => ?_,
    fun payment real => ?_, fun booking real => ?_, fun dispatch real => ?_⟩
  · rw [bookingPolicy.scopeRead_iff actor real, bookingPolicy.canRead_iff, idFilter_self]
    exact and_iff_right rfl
  · rw [jobPolicy.scopeRead_iff actor real, jobPolicy.canRead_iff, idFilter_self]
    exact and_iff_right rfl
  · rw [requirementPolicy.scopeRead_iff actor real, requirementPolicy.canRead_iff, idFilter_self]
    exact and_iff_right rfl
  · rw [paymentPolicy.scopeRead_iff actor real, paymentPolicy.canRead_iff]
    exact and_iff_right rfl
  · rw [chatPolicy.scopeBooking_iff actor toLowerCase real, chatPolicy.canReadConversation_iff]
    exact and_iff_right rfl
  · rw [dispatchPolicy.scopeRead_iff actor real, dispatchPolicy.canRead_iff, idFilter_self]
    exact and_iff_right rfl

/-- A worker with an offer, and no booking, for the second requirement of a job. -/
def offered : Job :=
  { id := "j", customer_id := "c", booking := []
    job_requirement := [⟨"r", []⟩, ⟨"s", [⟨"d", "s", "w"⟩]⟩] }

theorem scopes_agree_offered :
    (jobPolicy.scopeRead ⟨"w", .string "worker"⟩ "j").holds offered = true ∧
      (jobPolicy.canRead ⟨"w", .string "worker"⟩ offered.resource).allowed = true := by
  have agree := (scopes_agree String.toLower ⟨"w", .string "worker"⟩).2.1 offered (by decide)
  have passes : (jobPolicy.scopeRead ⟨"w", .string "worker"⟩ "j").holds offered = true := by decide
  exact ⟨passes, agree.mp passes⟩

/-- Over a table with a primary key, the query with the filter finds what a lookup by the
identifier finds, if the check allows it. -/
theorem findFirst_scoped (toLowerCase : String → String) (actor : AuthenticatedUser) {id : String}
    (asked : id ≠ "") :
    (∀ jobs : List Job, Table.Unique Job.id jobs → (∀ job ∈ jobs, job.id ≠ nilUuid) →
      (jobPolicy.scopeRead actor id).findFirst jobs =
        (Table.find Job.id jobs id).filter fun job =>
          (jobPolicy.canRead actor job.resource).allowed) ∧
    (∀ requirements : List Requirement, Table.Unique Requirement.id requirements →
      (∀ requirement ∈ requirements, requirement.id ≠ nilUuid) →
      (requirementPolicy.scopeRead actor id).findFirst requirements =
        (Table.find Requirement.id requirements id).filter fun requirement =>
          (requirementPolicy.canRead actor requirement.resource).allowed) ∧
    (∀ bookings : List Booking, Table.Unique BookingResource.id bookings →
      (∀ booking ∈ bookings, booking.id ≠ nilUuid) →
      (bookingPolicy.scopeRead actor id).findFirst bookings =
          (Table.find BookingResource.id bookings id).filter (fun booking =>
            (bookingPolicy.canRead actor booking).allowed) ∧
        (chatPolicy.scopeBooking toLowerCase actor id).findFirst bookings =
          (Table.find BookingResource.id bookings id).filter fun booking =>
            (chatPolicy.canReadConversation toLowerCase actor booking).allowed) := by
  refine ⟨fun jobs unique real => ?_, fun requirements unique real => ?_,
    fun bookings unique real => ⟨?_, ?_⟩⟩ <;>
    refine RowFilter.findFirst_of_holds unique fun row member => ?_
  · rw [jobPolicy.scopeRead_iff actor (real row member), idFilter_holds asked,
      jobPolicy.canRead_iff]
  · rw [requirementPolicy.scopeRead_iff actor (real row member), idFilter_holds asked,
      requirementPolicy.canRead_iff]
  · rw [bookingPolicy.scopeRead_iff actor (real row member), idFilter_holds asked,
      bookingPolicy.canRead_iff]
  · rw [chatPolicy.scopeBooking_iff actor toLowerCase (real row member),
      chatPolicy.canReadConversation_iff]

end LabourBaba.Policies
