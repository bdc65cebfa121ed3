import LabourBaba.Market.Integrity

/-!
# The capacity ledger

A requirement's filled counter against the number of its bookings that hold a slot.
Most writes touch neither side; the lemmas say how the few others move the two sides,
so that a transaction's balance can be read off its writes.
-/
namespace LabourBaba.Market

open Store

structure Account where
  id : Id
  filled : Nat
  needed : Nat
deriving DecidableEq, Repr

def Requirement.account (r : Requirement) : Account :=
  ⟨r.id, r.workerCountFilled, r.workerCountNeeded⟩

def Db.accounts (d : Db) : List Account := d.requirements.map Requirement.account

/-- The counter is the number of slots held, and no more than the demand. -/
def Ledger (d : Db) : Prop :=
  ∀ a ∈ d.accounts, a.filled = d.activeBookings a.id ∧ a.filled ≤ a.needed

@[simp] def Write.movesAccounts : Write → Bool
  | .insertRequirement _ | .requirementFilled _ _ | .requirementNeeded _ _ => true
  | _ => false

@[simp] def Write.movesBookings : Write → Bool
  | .insertBooking _ | .bookingStatus _ _ => true
  | _ => false

theorem BookingStatus.isActive_of_running {s : BookingStatus} (running : s.isTerminal = false) :
    s.isActive = true := by
  cases s <;> first | rfl | cases running

/-! ### The two sides after a write -/

theorem accounts_modify (rows : List Requirement) (ids : List Id) (f : Requirement → Requirement)
    (g : Account → Account) (moves : ∀ r, (f r).account = g r.account) :
    (Table.modify Requirement.id rows ids f).map Requirement.account =
      (rows.map Requirement.account).map (fun a => if a.id ∈ ids then g a else a) := by
  simp only [Table.modify, List.map_map]
  apply List.map_congr_left
  intro r _
  simp only [Function.comp]
  by_cases hit : r.id ∈ ids
  · have hit' : r.account.id ∈ ids := hit
    rw [if_pos hit, if_pos hit', moves]
  · have miss : r.account.id ∉ ids := hit
    rw [if_neg hit, if_neg miss]

theorem accounts_write {w : Write} (still : w.movesAccounts = false) (d : Db) :
    (w.apply d).accounts = d.accounts := by
  cases w with
  | requirementStatus ids s =>
    have moved := accounts_modify d.requirements ids (fun r => { r with status := s }) id
      (fun _ => rfl)
    simpa [Db.accounts, Write.apply, Function.comp_def] using moved
  | insertRequirement _ | requirementFilled _ _ | requirementNeeded _ _ => cases still
  | _ => rfl

@[simp] theorem accounts_filled (id : Id) (n : Nat) (d : Db) :
    ((Write.requirementFilled id n).apply d).accounts =
      d.accounts.map fun a => if a.id = id then { a with filled := n } else a := by
  simpa [Db.accounts, Write.apply] using accounts_modify d.requirements [id]
    (fun r => { r with workerCountFilled := n }) (fun a => { a with filled := n }) (fun _ => rfl)

@[simp] theorem accounts_needed (id : Id) (n : Nat) (d : Db) :
    ((Write.requirementNeeded id n).apply d).accounts =
      d.accounts.map fun a => if a.id = id then { a with needed := n } else a := by
  simpa [Db.accounts, Write.apply] using accounts_modify d.requirements [id]
    (fun r => { r with workerCountNeeded := n }) (fun a => { a with needed := n }) (fun _ => rfl)

theorem mem_accounts_insert {r : Requirement} {d : Db} {a : Account}
    (member : a ∈ ((Write.insertRequirement r).apply d).accounts) :
    a ∈ d.accounts ∨ (a = r.account ∧ ∀ old ∈ d.requirements, old.id ≠ r.id) := by
  obtain ⟨new, present, rfl⟩ := List.mem_map.mp member
  simp only [Write.apply, Table.insert] at present
  split at present
  · exact Or.inl (List.mem_map_of_mem present)
  next free =>
    rcases List.mem_append.mp present with present | present
    · exact Or.inl (List.mem_map_of_mem present)
    · obtain rfl := List.mem_singleton.mp present
      refine Or.inr ⟨rfl, fun old member same => free ?_⟩
      exact List.any_eq_true.mpr ⟨old, member, decide_eq_true same.symm⟩

theorem activeBookings_write {w : Write} (still : w.movesBookings = false) (d : Db) (id : Id) :
    (w.apply d).activeBookings id = d.activeBookings id := by
  cases w with
  | bookingOtpConsumed i t => exact Table.countP_modify_of_same _ _ _ _ fun _ _ _ => rfl
  | bookingOtpAttempts i n l => exact Table.countP_modify_of_same _ _ _ _ fun _ _ _ => rfl
  | insertBooking _ | bookingStatus _ _ => cases still
  | _ => rfl

theorem activeBookings_insert {b : Booking} {d : Db} (id : Id)
    (freshId : d.booking b.id = none) (freshSlot : d.slotTaken b.requirementId b.workerId = false)
    (active : b.status.isActive = true) :
    ((Write.insertBooking b).apply d).activeBookings id =
      d.activeBookings id + if b.requirementId = id then 1 else 0 := by
  have free : ∀ old ∈ d.bookings, Booking.clash b old = false := by
    intro old member
    have otherId : old.id ≠ b.id := Table.find_none_iff.mp freshId old member
    have otherSlot : old.slot ≠ b.slot := by
      intro same
      have taken : d.slotTaken b.requirementId b.workerId = true :=
        List.any_eq_true.mpr ⟨old, member, decide_eq_true same⟩
      rw [freshSlot] at taken
      cases taken
    exact decide_eq_false (by
      rintro (same | same)
      · exact otherId same.symm
      · exact otherSlot same.symm)
  simp only [Db.activeBookings, Write.apply, Table.insert_of_free free, List.countP_append,
    List.countP_singleton, active, Bool.and_true, decide_eq_true_eq]

/-- The bookings that hold a slot after a status change of one of them. -/
theorem activeBookings_status {d : Db} (wf : Wf d) {b : Booking} (s : BookingStatus) (id : Id)
    (found : d.booking b.id = some b) :
    ((Write.bookingStatus b.id s).apply d).activeBookings id +
        (if b.requirementId = id ∧ b.status.isActive = true then 1 else 0) =
      d.activeBookings id + (if b.requirementId = id ∧ s.isActive = true then 1 else 0) := by
  have moved := Table.countP_modify
    (fun b : Booking => decide (b.requirementId = id) && b.status.isActive)
    (fun b => { b with status := s }) wf.bookingIds found
  simpa [Db.activeBookings, Write.apply] using moved

theorem activeBookings_status_same {d : Db} (wf : Wf d) {b : Booking} (s : BookingStatus) (id : Id)
    (found : d.booking b.id = some b) (same : s.isActive = b.status.isActive) :
    ((Write.bookingStatus b.id s).apply d).activeBookings id = d.activeBookings id := by
  have moved := activeBookings_status wf s id found
  rw [same] at moved
  omega

/-! ### Keeping the balance -/

theorem Ledger.of_same {d d' : Db} (ledger : Ledger d) (accounts : d'.accounts = d.accounts)
    (bookings : ∀ id, d'.activeBookings id = d.activeBookings id) : Ledger d' := by
  intro a member
  rw [accounts] at member
  rw [bookings]
  exact ledger a member

theorem Ledger.write {d : Db} (ledger : Ledger d) {w : Write} (accounts : w.movesAccounts = false)
    (bookings : w.movesBookings = false) : Ledger (w.apply d) :=
  ledger.of_same (accounts_write accounts d) (activeBookings_write bookings d)

/-- Writes that move neither side keep the balance. -/
theorem Ledger.applyAll {ws : List Write} {d : Db} (ledger : Ledger d)
    (still : ∀ w ∈ ws, w.movesAccounts = false ∧ w.movesBookings = false) :
    Ledger (Store.applyAll ws d) := by
  induction ws generalizing d with
  | nil => exact ledger
  | cons w ws ih =>
    have head := still w List.mem_cons_self
    exact ih (ledger.write head.1 head.2) fun v member => still v (List.mem_cons_of_mem _ member)

theorem Ledger.insertRequirement {d : Db} (ledger : Ledger d) (wf : Wf d) (r : Requirement)
    (unfilled : r.workerCountFilled = 0) : Ledger ((Write.insertRequirement r).apply d) := by
  intro a member
  rw [activeBookings_write rfl]
  rcases mem_accounts_insert member with present | ⟨rfl, fresh⟩
  · exact ledger a present
  · have unbooked : d.activeBookings r.id = 0 := by
      refine List.countP_eq_zero.mpr fun b booked held => ?_
      obtain ⟨old, present, named, -⟩ := wf.bookingRequirement b booked
      have mine : b.requirementId = r.id := by
        have := (Bool.and_eq_true _ _).mp held
        simpa using this.1
      exact fresh old present (named.trans mine)
    simp [Requirement.account, unfilled, unbooked]

theorem account_of_requirement {d : Db} {id : Id} {r : Requirement}
    (found : d.requirement id = some r) : r.account ∈ d.accounts ∧ r.account.id = id := by
  have named : r.id = id := Table.find_key found
  exact ⟨List.mem_map_of_mem (Table.mem_of_find found), named⟩

theorem account_unique {d : Db} (wf : Wf d) {id : Id} {r : Requirement} {a : Account}
    (found : d.requirement id = some r) (member : a ∈ d.accounts) (same : a.id = id) :
    a = r.account := by
  obtain ⟨other, present, rfl⟩ := List.mem_map.mp member
  rw [Table.eq_of_find wf.requirementIds found present same]

theorem Ledger.filled {d : Db} (ledger : Ledger d) {id : Id} {r : Requirement}
    (found : d.requirement id = some r) :
    r.workerCountFilled = d.activeBookings id ∧ r.workerCountFilled ≤ r.workerCountNeeded := by
  obtain ⟨member, named⟩ := account_of_requirement found
  have balance := ledger _ member
  rw [named] at balance
  exact balance

/-- A slot is reserved: the counter goes up by one together with the bookings. -/
theorem Ledger.move {d d' : Db} (ledger : Ledger d) (wf : Wf d) {id : Id} {r : Requirement}
    (filled : Nat) (found : d.requirement id = some r) (bound : filled ≤ r.workerCountNeeded)
    (accounts : d'.accounts =
      d.accounts.map fun a => if a.id = id then { a with filled := filled } else a)
    (mine : d'.activeBookings id = filled)
    (others : ∀ other, other ≠ id → d'.activeBookings other = d.activeBookings other) :
    Ledger d' := by
  intro a member
  rw [accounts] at member
  obtain ⟨old, present, rfl⟩ := List.mem_map.mp member
  by_cases hit : old.id = id
  · obtain rfl := account_unique wf found present hit
    simp only [hit, if_true, mine, true_and]
    exact bound
  · simp only [hit, if_false, others old.id hit]
    exact ledger old present

theorem Ledger.demand {d : Db} (ledger : Ledger d) (wf : Wf d) {id : Id} {r : Requirement} {n : Nat}
    (found : d.requirement id = some r) (enough : r.workerCountFilled ≤ n) :
    Ledger ((Write.requirementNeeded id n).apply d) := by
  intro a member
  rw [activeBookings_write rfl]
  rw [accounts_needed] at member
  obtain ⟨old, present, rfl⟩ := List.mem_map.mp member
  have balance := ledger old present
  by_cases hit : old.id = id
  · obtain rfl := account_unique wf found present hit
    rw [if_pos hit]
    exact ⟨balance.1, enough⟩
  · rw [if_neg hit]
    exact balance

theorem Ledger.empty : Ledger {} := by
  intro a member
  cases member

end LabourBaba.Market
