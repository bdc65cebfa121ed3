import LabourBaba.Sockets.System

/-!
# Rooms and who may be in them

Every room name is that of one `Room`, and no two rooms share a name, whatever identifiers
they are for (`Room.name_injective`): a booking's room cannot be mistaken for a job's, nor a
worker's for a customer's. `Entitled` says who may be in a room. It only ever grows, since
nothing takes back a booking or an offer, so a permission that was found before a room is
entered still holds when it is.
-/
namespace LabourBaba.Sockets

open Store Locations

/-! ### Names -/

/-- What a room is for; the rooms of rows go by the spelling with which they are asked for. -/
inductive Room where
  | worker (id : Id)
  | customer (id : Id)
  | admin (id : Id)
  | admins
  | booking (spelling : String)
  | job (spelling : String)
  | requirement (spelling : String)
deriving DecidableEq

def Room.name : Room → String
  | worker id => getWorkerPersonalRoom id
  | customer id => getCustomerPersonalRoom id
  | admin id => getAdminPersonalRoom id
  | admins => "admins"
  | booking spelling => getBookingChatRoom spelling
  | job spelling => getJobRoom spelling
  | requirement spelling => getRequirementRoom spelling

theorem Room.name_injective : Function.Injective Room.name := by
  intro a b same
  have chars := congrArg String.toList same
  clear same
  -- the word before the colon tells the kinds apart, what follows it the rooms of a kind
  cases a <;> cases b <;>
    simp [name, getWorkerPersonalRoom, getCustomerPersonalRoom, getAdminPersonalRoom,
      getBookingChatRoom, getJobRoom, getRequirementRoom, String.toList_append] at chars ⊢
  all_goals exact String.toList_inj.mp chars

def personal (role : UserRole) (id : Id) : Room :=
  match role with
  | .WORKER => .worker id
  | .CUSTOMER => .customer id
  | .ADMIN => .admin id

theorem name_personal (role : UserRole) (id : Id) :
    (personal role id).name = personalRoom role id := by
  cases role <;> rfl

/-! ### Growth -/

/-- The columns of a booking that are never written again. -/
def Booking.core (b : Booking) : Booking := { b with status := "" }

/-- What calls may count on while others run. -/
structure Later (d d' : Db) : Prop where
  bookings : Table.Evolves Booking.core d.bookings d'.bookings
  jobs : d.jobs ⊆ d'.jobs
  requirements : d.requirements ⊆ d'.requirements
  dispatches : d.dispatches ⊆ d'.dispatches
  jobKept : ∀ id job, Table.find Job.id d.jobs id = some job →
    Table.find Job.id d'.jobs id = some job
  conversations : d.conversations ⊆ d'.conversations
  messages : d.messages ⊆ d'.messages
  held : d.held ⊆ d'.held

namespace Later

theorem refl (d : Db) : Later d d :=
  ⟨.refl _, fun _ h => h, fun _ h => h, fun _ h => h, fun _ _ h => h, fun _ h => h, fun _ h => h,
    fun _ h => h⟩

theorem trans {d d' d'' : Db} (first : Later d d') (second : Later d' d'') : Later d d'' where
  bookings := first.bookings.trans second.bookings
  jobs := List.Subset.trans first.jobs second.jobs
  requirements := List.Subset.trans first.requirements second.requirements
  dispatches := List.Subset.trans first.dispatches second.dispatches
  jobKept id job found := second.jobKept id job (first.jobKept id job found)
  conversations := List.Subset.trans first.conversations second.conversations
  messages := List.Subset.trans first.messages second.messages
  held := List.Subset.trans first.held second.held

theorem apply (w : Write) (d : Db) : Later d (w.apply d) := by
  have same := refl d
  cases w with
  | insertConversation c =>
    exact { same with conversations := fun _ member => Table.mem_insert_of_mem member }
  | insertMessage m author =>
    exact { same with messages := fun _ member => Table.mem_insert_of_mem member }
  | insertJob job =>
    exact { same with
      jobs := fun _ member => Table.mem_insert_of_mem member
      jobKept := fun _ _ found => Table.find_insert_of_some found }
  | insertRequirement r =>
    exact { same with requirements := fun _ member => Table.mem_insert_of_mem member }
  | insertDispatch x =>
    exact { same with dispatches := fun _ member => Table.mem_insert_of_mem member }
  | insertBooking b =>
    refine { same with bookings := .of_insert _ _, held := fun x member => ?_ }
    simp only [Write.apply]
    split
    · exact member
    · exact List.mem_append_left _ member
  | bookingStatus id status =>
    exact { same with
      bookings := .of_modify _ _ fun _ => rfl
      held := fun _ member => List.mem_append_left _ member }
  | _ => exact { same with }

theorem applyAll (ws : List Write) (d : Db) : Later d (applyAll ws d) := by
  induction ws generalizing d with
  | nil => exact refl d
  | cons w ws ih => exact (apply w d).trans (ih _)

theorem booking {d d' : Db} {b : Booking} (later : Later d d') (member : b ∈ d.bookings) :
    ∃ b' ∈ d'.bookings, b'.core = b.core :=
  later.bookings.mem member

end Later

theorem Booking.resource_of_core {b b' : Booking} (same : b'.core = b.core) :
    b'.resource = b.resource := by
  simp only [core, Booking.mk.injEq] at same
  simp [resource, same]

theorem Booking.columns_of_core {b b' : Booking} (same : b'.core = b.core) :
    b'.id = b.id ∧ b'.workerId = b.workerId ∧ b'.customerId = b.customerId := by
  simp only [core, Booking.mk.injEq] at same
  exact ⟨same.1, same.2.2.2.1, same.2.2.2.2.1⟩

/-! ### Permissions -/

/-- Some row that the identifier names admits the user. -/
def Joinable.Reads {Row : Type} (kind : Joinable Row) (readers : Row → Policies.Readers)
    (cfg : Config) (d : Db) (user : SocketUserData) (spelling : String) : Prop :=
  ∃ row ∈ kind.rows d, cfg.uuid spelling = some (kind.id row) ∧
    (readers row).Admit user.id (some user.role)

def Entitled (cfg : Config) (d : Db) (user : SocketUserData) : Room → Prop
  | .worker id => user.id = id ∧ (user.role = .WORKER ∨ user.role = .ADMIN)
  | .customer id => user.id = id ∧ (user.role = .CUSTOMER ∨ user.role = .ADMIN)
  | .admin id => user.id = id ∧ user.role = .ADMIN
  | .admins => user.role = .ADMIN
  | .booking spelling => bookings.Reads Policies.BookingResource.readers cfg d user spelling
  | .job spelling => jobs.Reads Policies.Job.readers cfg d user spelling
  | .requirement spelling => requirements.Reads Policies.Requirement.readers cfg d user spelling

theorem admit_mono {customers workers workers' : List Id} {id : Id} {role : UserRole}
    (more : workers ⊆ workers')
    (admits : (⟨customers, workers⟩ : Policies.Readers).Admit id (some role)) :
    (⟨customers, workers'⟩ : Policies.Readers).Admit id (some role) := by
  cases role with
  | ADMIN => trivial
  | CUSTOMER => exact admits
  | WORKER => exact more admits

/-- The workers of the bookings that a relation selects by a column of the core. -/
theorem workers_of_bookings {d d' : Db} (later : Later d d') (column : Booking → Id)
    (fixed : ∀ b, column b.core = column b) (id : Id) :
    ((d.bookings.filter fun b => decide (column b = id)).map Booking.resource).map
        Policies.BookingResource.worker_id ⊆
      ((d'.bookings.filter fun b => decide (column b = id)).map Booking.resource).map
        Policies.BookingResource.worker_id := by
  intro w member
  simp only [List.map_map, List.mem_map, List.mem_filter, decide_eq_true_eq] at member ⊢
  obtain ⟨b, ⟨stored, mine⟩, rfl⟩ := member
  obtain ⟨b', stored', same⟩ := later.booking stored
  refine ⟨b', ⟨stored', ?_⟩, ?_⟩
  · rw [← fixed, same, fixed, mine]
  · simp [Booking.resource_of_core same]

theorem workers_of_dispatches {d d' : Db} (later : Later d d') (id : Id) :
    (d.dispatchesOf id).map Policies.DispatchResource.worker_id ⊆
      (d'.dispatchesOf id).map Policies.DispatchResource.worker_id := by
  intro w member
  simp only [Db.dispatchesOf, List.map_map, List.mem_map, List.mem_filter] at member ⊢
  obtain ⟨x, ⟨stored, mine⟩, rfl⟩ := member
  exact ⟨x, ⟨later.dispatches stored, mine⟩, rfl⟩

theorem bookings_later {cfg : Config} {d d' : Db} {user : SocketUserData} {spelling : String}
    (later : Later d d')
    (reads : bookings.Reads Policies.BookingResource.readers cfg d user spelling) :
    bookings.Reads Policies.BookingResource.readers cfg d' user spelling := by
  obtain ⟨_, member, named, admits⟩ := reads
  obtain ⟨b, stored, rfl⟩ := List.mem_map.mp member
  obtain ⟨b', stored', same⟩ := later.booking stored
  refine ⟨b'.resource, List.mem_map_of_mem stored', ?_⟩
  rw [Booking.resource_of_core same]
  exact ⟨named, admits⟩

theorem jobs_later {cfg : Config} {d d' : Db} {user : SocketUserData} {spelling : String}
    (later : Later d d') (reads : jobs.Reads Policies.Job.readers cfg d user spelling) :
    jobs.Reads Policies.Job.readers cfg d' user spelling := by
  obtain ⟨_, member, named, admits⟩ := reads
  obtain ⟨job, stored, rfl⟩ := List.mem_map.mp member
  refine ⟨d'.jobResource job, List.mem_map_of_mem (later.jobs stored), named, ?_⟩
  refine admit_mono ?_ admits
  refine List.append_subset.mpr ⟨?_, ?_⟩
  · exact List.Subset.trans (workers_of_bookings later Booking.jobId (fun _ => rfl) job.id)
      (List.subset_append_left _ _)
  · intro w offered
    obtain ⟨_, related, mine⟩ := List.mem_flatMap.mp offered
    obtain ⟨r, selected, rfl⟩ := List.mem_map.mp related
    obtain ⟨stored', ofJob⟩ := List.mem_filter.mp selected
    refine List.mem_append_right _ (List.mem_flatMap.mpr ⟨⟨r.id, d'.dispatchesOf r.id⟩, ?_, ?_⟩)
    · exact List.mem_map.mpr ⟨r, List.mem_filter.mpr ⟨later.requirements stored', ofJob⟩, rfl⟩
    · exact workers_of_dispatches later r.id mine

theorem requirements_later {cfg : Config} {d d' : Db} {user : SocketUserData} {spelling : String}
    (later : Later d d')
    (reads : requirements.Reads Policies.Requirement.readers cfg d user spelling) :
    requirements.Reads Policies.Requirement.readers cfg d' user spelling := by
  obtain ⟨row, member, named, admits⟩ := reads
  obtain ⟨r, stored, loaded⟩ := List.mem_filterMap.mp member
  obtain ⟨job, found, rfl⟩ := Option.map_eq_some_iff.mp loaded
  have loaded' : d'.requirementResource r = some
      { id := r.id, job_id := r.jobId, job := ⟨job.customerId⟩
        job_dispatch := d'.dispatchesOf r.id
        booking := (d'.bookings.filter fun b => decide (b.requirementId = r.id)).map
          Booking.resource } := by
    rw [Db.requirementResource, later.jobKept _ _ found, Option.map_some]
  refine ⟨_, List.mem_filterMap.mpr ⟨r, later.requirements stored, loaded'⟩, named, ?_⟩
  refine admit_mono ?_ admits
  refine List.append_subset.mpr ⟨?_, ?_⟩
  · exact List.Subset.trans
      (workers_of_bookings later Booking.requirementId (fun _ => rfl) r.id)
      (List.subset_append_left _ _)
  · exact List.Subset.trans (workers_of_dispatches later r.id) (List.subset_append_right _ _)

theorem Entitled.later {cfg : Config} {d d' : Db} {user : SocketUserData} {room : Room}
    (later : Later d d') (entitled : Entitled cfg d user room) : Entitled cfg d' user room := by
  cases room with
  | booking spelling => exact bookings_later later entitled
  | job spelling => exact jobs_later later entitled
  | requirement spelling => exact requirements_later later entitled
  | _ => exact entitled

/-! ### What the policies let in -/

theorem userRole_actor (user : SocketUserData) : (actor user).userRole = some user.role :=
  Policies.ofText_eq_some.mpr rfl

/-- The query and the check of a kind of row let in nobody but the readers. -/
structure Joinable.Guarded {Row : Type} (kind : Joinable Row) (readers : Row → Policies.Readers) :
    Prop where
  scope : ∀ user key row, key ≠ "" → (kind.scopeRead user key).holds row = true →
    kind.id row = key ∧ (readers row).Admit user.id (some user.role)
  check : ∀ user row, (kind.canRead user row).allowed = true →
    (readers row).Admit user.id (some user.role)

theorem canReadConversation_iff (user : SocketUserData) (row : Policies.Booking) :
    (canReadConversation user row).allowed = true ↔ row.readers.Admit user.id (some user.role) := by
  rw [canReadConversation, Policies.chatPolicy.canReadConversation_iff]
  have same : Policies.UserRole.ofText (actor user).role.text = some user.role :=
    Policies.ofText_eq_some.mpr rfl
  rw [same]
  rfl

theorem scopeBooking_admits {user : SocketUserData} {key : Id} {row : Policies.Booking}
    (passes : (scopeBooking user key).holds row = true) :
    row.id = key ∧ row.readers.Admit user.id (some user.role) := by
  obtain ⟨id, role, phone⟩ := user
  simp only [scopeBooking, Policies.chatPolicy.scopeBooking, actor, Policies.RoleValue.text,
    Policies.UserRole.value] at passes
  cases role <;>
    simp_all [Policies.BookingResource.readers]

theorem bookings_guarded : bookings.Guarded Policies.BookingResource.readers where
  scope _ _ _ _ passes := scopeBooking_admits passes
  check user row allowed := by
    refine (canReadConversation_iff user row).mp ?_
    simp only [bookings, canJoinRoom] at allowed
    split at allowed
    · exact allowed
    · exact allowed

theorem jobs_guarded : jobs.Guarded Policies.Job.readers where
  scope user key row asked passes := by
    obtain ⟨id, role, phone⟩ := user
    simp only [jobs, Policies.jobPolicy.scopeRead, actor, Policies.AuthenticatedUser.is,
      Policies.UserRole.value] at passes
    cases role <;>
      simp_all [Policies.Job.readers, Policies.idFilter, Policies.worker, jobs]
  check user row allowed := by
    have admits := (Policies.jobPolicy.canRead_iff (actor user) row).mp allowed
    rwa [userRole_actor] at admits

theorem requirements_guarded : requirements.Guarded Policies.Requirement.readers where
  scope user key row asked passes := by
    obtain ⟨id, role, phone⟩ := user
    simp only [requirements, Policies.requirementPolicy.scopeRead, actor,
      Policies.AuthenticatedUser.is, Policies.UserRole.value] at passes
    cases role <;>
      simp_all [Policies.Requirement.readers, Policies.idFilter, Policies.worker, requirements]
  check user row allowed := by
    have admits := (Policies.requirementPolicy.canRead_iff (actor user) row).mp allowed
    rwa [userRole_actor] at admits

end LabourBaba.Sockets
