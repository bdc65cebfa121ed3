import LabourBaba.Outbox.Services
import LabourBaba.Store.Alone
import LabourBaba.Store.Paging
import Mathlib

/-!
# Notification pages

`customerNotificationService.listNotifications`, and a client that follows its cursors while it
acknowledges what it has received.

Rows of one creation time have no order in the query; the database is taken to keep some order
of the identifiers for them. A cursor is the id of a row: the query starts at the position of
that row, whether or not the row still matches, and the service skips one row always. A client
that reads unread notifications only and acknowledges the last one of a page therefore loses
the next one, and nothing else goes wrong: `session_lossless_iff`.
-/
namespace LabourBaba.Outbox

open Store

/-! ### The service -/

structure CustomerNotificationDTO where
  id : Id
  status : OutboxStatus
  createdAt : ℕ
  acknowledgedAt : Option ℕ
  isRead : Bool
deriving DecidableEq, Repr

structure ListCustomerNotificationsOptions where
  unreadOnly : Bool := false
  limit : Option ℤ := none
  offset : Option ℤ := none
  cursor : Option Id := none
deriving DecidableEq, Repr

structure CustomerNotificationList where
  notifications : List CustomerNotificationDTO
  total : ℕ
  unreadCount : ℕ
  nextCursor : Option Id
deriving DecidableEq, Repr

/-- `value || fallback`. -/
def orElse (value : Option ℤ) (fallback : ℤ) : ℤ :=
  match value with
  | none => fallback
  | some n => if n = 0 then fallback else n

def safeLimit (limit : Option ℤ) : ℕ := (min 100 (max 1 (orElse limit 50))).toNat

def safeOffset (offset : Option ℤ) : ℕ := (max 0 (orElse offset 0)).toNat

theorem safeLimit_pos (limit : Option ℤ) : 0 < safeLimit limit := by
  rw [safeLimit]
  omega

/-- The columns of a notification that its customer can tell apart. -/
structure Notice where
  id : Id
  createdAt : ℕ
  acknowledgedAt : Option ℕ
deriving DecidableEq, Repr

def OutboxRecord.notice (r : OutboxRecord) : Notice := ⟨r.id, r.createdAt, r.acknowledgedAt⟩

/-- Where a row is listed: `created_at` descending, then the order of the identifiers. -/
abbrev Position := ℕᵒᵈ ×ₗ ℕ

def Notice.position (ties : Id ↪ ℕ) (n : Notice) : Position :=
  toLex (OrderDual.toDual n.createdAt, ties n.id)

def OutboxRecord.position (ties : Id ↪ ℕ) (r : OutboxRecord) : Position := r.notice.position ties

structure FindMany where
  condition : OutboxRecord → Bool
  take : ℕ
  skip : ℕ
  cursor : Option Id

/-- `ORDER BY created_at DESC`. -/
def byPosition (ties : Id ↪ ℕ) (rows : List OutboxRecord) : List OutboxRecord :=
  rows.insertionSort fun r s => r.position ties ≤ s.position ties

/-- `findMany`: the rows that match, from the position of the cursor's row on. -/
def Db.findMany (ties : Id ↪ ℕ) (d : Db) (args : FindMany) : List OutboxRecord :=
  let fromCursor (r : OutboxRecord) : Bool :=
    match args.cursor with
    | none => true
    | some id => (d.event id).any fun row => decide (row.position ties ≤ r.position ties)
  ((byPosition ties (d.events.filter fun r => args.condition r && fromCursor r)).drop
    args.skip).take args.take

def baseWhere (customerId : Id) (r : OutboxRecord) : Bool :=
  decide (r.recipientType = .customer ∧ r.recipientId = customerId)

def queryWhere (customerId : Id) (unreadOnly : Bool) (r : OutboxRecord) : Bool :=
  baseWhere customerId r && (!unreadOnly || r.acknowledgedAt.isNone)

def OutboxRecord.dto (r : OutboxRecord) : CustomerNotificationDTO :=
  { id := r.id, status := r.status, createdAt := r.createdAt, acknowledgedAt := r.acknowledgedAt
    isRead := r.acknowledgedAt.isSome }

def listedRows (ties : Id ↪ ℕ) (customerId : Id) (options : ListCustomerNotificationsOptions)
    (d : Db) : List OutboxRecord :=
  d.findMany ties
    { condition := queryWhere customerId options.unreadOnly, take := safeLimit options.limit
      skip := if options.cursor.isSome then 1 else safeOffset options.offset
      cursor := options.cursor }

def listNotifications (ties : Id ↪ ℕ) (customerId : Id)
    (options : ListCustomerNotificationsOptions) (d : Db) : CustomerNotificationList :=
  let rows := listedRows ties customerId options d
  { notifications := rows.map OutboxRecord.dto
    total := d.events.countP (baseWhere customerId)
    unreadCount := d.events.countP (queryWhere customerId true)
    nextCursor :=
      if rows.length = safeLimit options.limit then rows.getLast?.map OutboxRecord.id else none }

/-! ### The client -/

/-- What a customer can tell of the table. -/
def Db.notices (d : Db) (customerId : Id) : List Notice :=
  (d.events.filter (baseWhere customerId)).map OutboxRecord.notice

/-- What happens between two calls: the client acknowledges notifications it has received, and
the system writes whatever brings, removes and acknowledges no notification of the customer. -/
inductive Between (customerId : Id) (received : List Id) : Db → Db → Prop
  | nothing (d : Db) : Between customerId received d d
  | acknowledges {d d' : Db} (id : Id) (known : id ∈ received)
      (rest : Between customerId received
        ((acknowledgeNotification customerId id).run.alone true none d).2.2 d') :
      Between customerId received d d'
  | elsewhere {d d' : Db} (w : Write)
      (same : (w.apply d).notices customerId = d.notices customerId)
      (rest : Between customerId received (w.apply d) d') : Between customerId received d d'

/-- A call of the client. -/
structure Visit where
  db : Db
  cursor : Option Id

section Session

variable (ties : Id ↪ ℕ) (customerId : Id) (unreadOnly : Bool) (limit : Option ℤ)

def Visit.page (v : Visit) : CustomerNotificationList :=
  listNotifications ties customerId { unreadOnly, limit, cursor := v.cursor } v.db

/-- The identifiers that a call returns. -/
def Visit.ids (v : Visit) : List Id :=
  (v.page ties customerId unreadOnly limit).notifications.map CustomerNotificationDTO.id

/-- The calls of a client from a cursor on, until a page has no cursor or it stops before. -/
inductive Session : Db → Option Id → List Id → List Visit → Bool → Prop
  | stopped (d : Db) (cursor : Option Id) (received : List Id) :
      Session d cursor received [] false
  | last {d : Db} {cursor : Option Id} (received : List Id)
      (ends : (Visit.page ties customerId unreadOnly limit ⟨d, cursor⟩).nextCursor = none) :
      Session d cursor received [⟨d, cursor⟩] true
  | more {d d' : Db} {cursor : Option Id} {received : List Id} {visits : List Visit} {ended : Bool}
      {c : Id} (continues : (Visit.page ties customerId unreadOnly limit ⟨d, cursor⟩).nextCursor = some c)
      (between : Between customerId
        (received ++ Visit.ids ties customerId unreadOnly limit ⟨d, cursor⟩) d d')
      (rest : Session d' (some c)
        (received ++ Visit.ids ties customerId unreadOnly limit ⟨d, cursor⟩) visits ended) :
      Session d cursor received (⟨d, cursor⟩ :: visits) ended

/-- The row of the cursor is still unread, or no unread notification is listed after it. -/
def Visit.Undisturbed (v : Visit) : Prop :=
  ∀ c ∈ v.cursor, ∀ row, v.db.event c = some row → row.acknowledgedAt = none ∨
    ∀ r ∈ v.db.events, queryWhere customerId true r = true →
      ¬ row.position ties < r.position ties

end Session

/-! ### Between two calls -/

variable {customerId : Id} {received : List Id} {d d' d'' : Db}

/-- What the client can tell afterwards: no notification has come, gone or moved, and only those
that it had received may have been acknowledged. -/
structure Settled (customerId : Id) (received : List Id) (d d' : Db) : Prop where
  unique : Table.Unique OutboxRecord.id d.events → Table.Unique OutboxRecord.id d'.events
  unchanged : ∀ n : Notice, n.id ∉ received →
    (n ∈ d'.notices customerId ↔ n ∈ d.notices customerId)
  later : ∀ n ∈ d.notices customerId, ∃ n' ∈ d'.notices customerId,
    n'.id = n.id ∧ n'.createdAt = n.createdAt
  earlier : ∀ n' ∈ d'.notices customerId, ∃ n ∈ d.notices customerId,
    n.id = n'.id ∧ n.createdAt = n'.createdAt

namespace Settled

theorem refl (d : Db) : Settled customerId received d d where
  unique := id
  unchanged _ _ := Iff.rfl
  later n member := ⟨n, member, rfl, rfl⟩
  earlier n member := ⟨n, member, rfl, rfl⟩

theorem trans (first : Settled customerId received d d') (second : Settled customerId received d' d'') :
    Settled customerId received d d'' where
  unique := second.unique ∘ first.unique
  unchanged n fresh := (second.unchanged n fresh).trans (first.unchanged n fresh)
  later n member := by
    obtain ⟨n', member', sameId, sameTime⟩ := first.later n member
    obtain ⟨n'', member'', sameId', sameTime'⟩ := second.later n' member'
    exact ⟨n'', member'', sameId'.trans sameId, sameTime'.trans sameTime⟩
  earlier n'' member := by
    obtain ⟨n', member', sameId, sameTime⟩ := second.earlier n'' member
    obtain ⟨n, member'', sameId', sameTime'⟩ := first.earlier n' member'
    exact ⟨n, member'', sameId'.trans sameId, sameTime'.trans sameTime⟩

end Settled

/-- The primary key holds after every write. -/
theorem unique_apply (w : Write) (unique : Table.Unique OutboxRecord.id d.events) :
    Table.Unique OutboxRecord.id (w.apply d).events := by
  cases w with
  | create r =>
    have covers : ∀ old : OutboxRecord, r.id = old.id → OutboxRecord.clash r old = true := by
      intro old same
      simp [OutboxRecord.clash, same]
    exact Table.unique_insert r covers unique
  | update ids u => exact Table.unique_modify _ _ u.on_id unique
  | start | emit | tick => exact unique

theorem Settled.elsewhere (w : Write)
    (same : (w.apply d).notices customerId = d.notices customerId) :
    Settled customerId received d (w.apply d) where
  unique := unique_apply w
  unchanged n _ := by rw [same]
  later n member := ⟨n, same ▸ member, rfl, rfl⟩
  earlier n member := ⟨n, same ▸ member, rfl, rfl⟩

/-- Acknowledging one row leaves the ids and the times of the customer's notifications. -/
theorem notices_acknowledge (ids : List Id) (at_ : ℕ) :
    ((Write.update ids (.acknowledge customerId at_)).apply d).notices customerId =
      (d.notices customerId).map fun n =>
        if n.id ∈ ids then { n with acknowledgedAt := some at_ } else n := by
  simp only [Db.notices, Write.apply, Table.modify, List.filter_map, List.map_map]
  have mine : (baseWhere customerId ∘ fun r : OutboxRecord =>
      if r.id ∈ ids then (Update.acknowledge customerId at_).on r else r) = baseWhere customerId := by
    funext r
    by_cases hit : r.id ∈ ids <;> simp [hit, baseWhere, Update.on]
  rw [mine]
  refine List.map_congr_left fun r _ => ?_
  by_cases hit : r.id ∈ ids <;> simp [hit, OutboxRecord.notice, Update.on]

theorem Settled.acknowledged {id : Id} (known : id ∈ received) (at_ : ℕ) :
    Settled customerId received d ((Write.update [id] (.acknowledge customerId at_)).apply d) where
  unique := unique_apply _
  unchanged n fresh := by
    rw [notices_acknowledge, List.mem_map]
    have other : ∀ m : Notice, (if m.id ∈ [id] then { m with acknowledgedAt := some at_ } else m) = n →
        m = n := by
      intro m same
      split at same
      next hit =>
        subst same
        exact absurd (List.mem_singleton.mp hit ▸ known) fresh
      next => exact same
    constructor
    · rintro ⟨m, member, same⟩
      exact other m same ▸ member
    · intro member
      refine ⟨n, member, if_neg fun hit => fresh ?_⟩
      exact List.mem_singleton.mp hit ▸ known
  later n member := by
    refine ⟨_, by rw [notices_acknowledge]; exact List.mem_map_of_mem member, ?_⟩
    split <;> exact ⟨rfl, rfl⟩
  earlier n' member := by
    rw [notices_acknowledge, List.mem_map] at member
    obtain ⟨n, member, rfl⟩ := member
    refine ⟨n, member, ?_⟩
    split <;> exact ⟨rfl, rfl⟩

/-- Alone, the acknowledgement writes the customer's unread row or nothing. -/
theorem alone_acknowledgeNotification (id : Id) (d : Db) :
    ((acknowledgeNotification customerId id).run.alone true none d).2.2 = d ∨
      ((acknowledgeNotification customerId id).run.alone true none d).2.2 =
        (Write.update [id] (.acknowledge customerId d.now)).apply d := by
  change Call.result true (fun _ _ d' => d' = d ∨
    d' = (Write.update [id] (.acknowledge customerId d.now)).apply d)
      (acknowledgeNotification customerId id) none d
  simp only [acknowledgeNotification, query, now, Call.result_bind, Call.result_read,
    Call.resultThen_ok, Tx.view_none]
  split
  · exact Or.inl rfl
  · split
    · exact Or.inl rfl
    · simp only [Call.result_bind, Call.result_read, Call.resultThen_ok, Tx.view_none,
        Call.result_stmt_alone]
      split
      · exact Or.inl rfl
      · exact Or.inr rfl

theorem Between.settled (between : Between customerId received d d') :
    Settled customerId received d d' := by
  induction between with
  | nothing d => exact .refl d
  | @acknowledges d _ id known _ ih =>
    rcases alone_acknowledgeNotification id d with same | same
    · rwa [same] at ih
    · rw [same] at ih
      exact (Settled.acknowledged known _).trans ih
  | elsewhere w same _ ih => exact (Settled.elsewhere w same).trans ih

/-! ### Listings -/

section Listings

variable {ties : Id ↪ ℕ} {unreadOnly : Bool} {limit : Option ℤ}

/-- The rows that a query matches, as they are listed. -/
def listing (ties : Id ↪ ℕ) (customerId : Id) (unreadOnly : Bool) (d : Db) : List OutboxRecord :=
  byPosition ties (d.events.filter (queryWhere customerId unreadOnly))

/-- The part of a listing that comes after a position. -/
def listingAfter (ties : Id ↪ ℕ) (customerId : Id) (unreadOnly : Bool) (d : Db) (k : Position) :
    List OutboxRecord :=
  (listing ties customerId unreadOnly d).filter fun r => decide (k < r.position ties)

@[simp] theorem mem_listing {r : OutboxRecord} : r ∈ listing ties customerId unreadOnly d ↔
    r ∈ d.events ∧ queryWhere customerId unreadOnly r = true := by
  rw [listing, byPosition, List.mem_insertionSort, List.mem_filter]

theorem Notice.id_of_position {n m : Notice} (same : n.position ties = m.position ties) :
    n.id = m.id := by
  simp only [Notice.position, toLex_inj, Prod.mk.injEq] at same
  exact ties.injective same.2

theorem OutboxRecord.id_of_position {r s : OutboxRecord} (same : r.position ties = s.position ties) :
    r.id = s.id := Notice.id_of_position same

variable (ties) in
/-- No two rows of a table are listed at one place. -/
theorem byPosition_ranked {rows : List OutboxRecord} (unique : Table.Unique OutboxRecord.id rows) :
    (byPosition ties rows).Pairwise fun r s => r.position ties < s.position ties := by
  have sorted := List.pairwise_insertionSort
    (fun r s : OutboxRecord => r.position ties ≤ s.position ties) rows
  have apart : (byPosition ties rows).Pairwise fun r s => r.id ≠ s.id :=
    List.pairwise_map.mp (((List.perm_insertionSort _ rows).map _).nodup_iff.mpr unique)
  exact (sorted.and apart).imp fun both => lt_of_le_of_ne both.1 fun same =>
    both.2 (OutboxRecord.id_of_position same)

theorem unique_filter (unique : Table.Unique OutboxRecord.id d.events) (p : OutboxRecord → Bool) :
    Table.Unique OutboxRecord.id (d.events.filter p) :=
  unique.sublist (List.filter_sublist.map _)

variable (ties customerId unreadOnly) in
theorem listing_ranked (unique : Table.Unique OutboxRecord.id d.events) :
    (listing ties customerId unreadOnly d).Pairwise fun r s => r.position ties < s.position ties :=
  byPosition_ranked ties (unique_filter unique _)

/-- Sorting what a filter leaves is filtering what was sorted. -/
theorem byPosition_filter {rows : List OutboxRecord} (unique : Table.Unique OutboxRecord.id rows)
    (p : OutboxRecord → Bool) :
    byPosition ties (rows.filter p) = (byPosition ties rows).filter p := by
  have left := byPosition_ranked ties (unique.sublist ((List.filter_sublist (p := p)).map _))
  have right := (byPosition_ranked ties unique).filter p
  refine List.Perm.eq_of_pairwise (fun r s _ _ before after => ?_) left right ?_
  · exact absurd after (lt_asymm before)
  · exact (List.perm_insertionSort _ _).trans ((List.perm_insertionSort _ rows).filter p).symm

/-- The rows of a first page. -/
theorem listedRows_first : listedRows ties customerId { unreadOnly, limit } d =
    (listing ties customerId unreadOnly d).take (safeLimit limit) := by
  simp only [listedRows, Db.findMany, Bool.and_true, Option.isSome_none, Bool.false_eq_true,
    if_false, listing]
  rfl

variable (customerId ties unreadOnly limit) in
/-- The rows from the place of a cursor's row on. -/
theorem listedRows_next (unique : Table.Unique OutboxRecord.id d.events) {c : Id} {row : OutboxRecord}
    (found : d.event c = some row) :
    listedRows ties customerId { unreadOnly, limit, cursor := some c } d =
      (((listing ties customerId unreadOnly d).filter fun r =>
        decide (row.position ties ≤ r.position ties)).drop 1).take (safeLimit limit) := by
  simp only [listedRows, Db.findMany, found, Option.any_some, Option.isSome_some, if_true, listing]
  rw [← byPosition_filter (unique_filter unique _), List.filter_filter]
  simp only [Bool.and_comm]

/-- A page shows what is due, or what is due without its first row. -/
structure Opens (ties : Id ↪ ℕ) (customerId : Id) (unreadOnly : Bool) (limit : Option ℤ) (v : Visit)
    (due served : List OutboxRecord) : Prop where
  suffix : due <:+ listing ties customerId unreadOnly v.db
  rows : listedRows ties customerId { unreadOnly, limit, cursor := v.cursor } v.db =
    served.take (safeLimit limit)
  loses : (unreadOnly = true → v.Undisturbed ties customerId) ∧ served = due ∨
    (unreadOnly = true ∧ ¬ v.Undisturbed ties customerId) ∧ ∃ r, due = r :: served

theorem opens_first (ties : Id ↪ ℕ) (customerId : Id) (unreadOnly : Bool) (limit : Option ℤ)
    (d : Db) : Opens ties customerId unreadOnly limit ⟨d, none⟩
      (listing ties customerId unreadOnly d) (listing ties customerId unreadOnly d) where
  suffix := List.suffix_rfl
  rows := listedRows_first
  loses := .inl ⟨fun _ c cursor => absurd cursor (by simp), rfl⟩

theorem eq_of_position (unique : Table.Unique OutboxRecord.id d.events) {r s : OutboxRecord}
    (first : r ∈ d.events) (second : s ∈ d.events) (same : r.position ties = s.position ties) :
    r = s := by
  have found := Table.find_of_mem unique second
  exact Table.eq_of_find unique found first (OutboxRecord.id_of_position same)

theorem opens_next (unique : Table.Unique OutboxRecord.id d.events) {c : Id} {row : OutboxRecord}
    (found : d.event c = some row) (mine : baseWhere customerId row = true) :
    ∃ served, Opens ties customerId unreadOnly limit ⟨d, some c⟩
      (listingAfter ties customerId unreadOnly d (row.position ties)) served := by
  have ranked := listing_ranked customerId ties unreadOnly unique
  have member := Table.mem_of_find found
  have suffix := Paging.filter_after_suffix ranked (row.position ties)
  have rows := listedRows_next customerId ties unreadOnly limit unique found
  have cursor : ∀ c' ∈ some c, ∀ row', d.event c' = some row' → row' = row := by
    rintro c' ⟨⟩ row' found'
    exact Option.some.inj (found'.symm.trans found)
  by_cases matching : queryWhere customerId unreadOnly row = true
  · -- the cursor's row still matches, and it is the row that is skipped
    rw [Paging.filter_from_of_mem ranked (mem_listing.mpr ⟨member, matching⟩)] at rows
    refine ⟨_, suffix, rows, .inl ⟨fun only c' same row' found' => .inl ?_, rfl⟩⟩
    rw [cursor c' same row' found']
    simpa [queryWhere, mine, only] using matching
  · -- the cursor's row was acknowledged: the row that is skipped is the next one
    have acknowledged : unreadOnly = true ∧ row.acknowledgedAt ≠ none := by
      simpa [queryWhere, mine] using matching
    have absent : ∀ y ∈ listing ties customerId unreadOnly d, y.position ties ≠ row.position ties := by
      intro y listed same
      obtain ⟨stored, matched⟩ := mem_listing.mp listed
      exact matching (eq_of_position unique stored member same ▸ matched)
    rw [Paging.filter_from_of_notMem absent] at rows
    obtain ⟨rfl, acknowledged⟩ := acknowledged
    refine ⟨(listingAfter ties customerId true d (row.position ties)).tail, suffix, ?_, ?_⟩
    · rw [rows, List.drop_one, listingAfter]
    · cases due : listingAfter ties customerId true d (row.position ties) with
      | nil =>
        refine .inl ⟨fun _ c' same row' found' => .inr fun r stored matched later => ?_, rfl⟩
        rw [cursor c' same row' found'] at later
        have listed : r ∈ listingAfter ties customerId true d (row.position ties) :=
          List.mem_filter.mpr ⟨mem_listing.mpr ⟨stored, matched⟩, decide_eq_true later⟩
        rw [due] at listed
        cases listed
      | cons r rest =>
        refine .inr ⟨⟨rfl, fun undisturbed => ?_⟩, r, rfl⟩
        have listed : r ∈ listingAfter ties customerId true d (row.position ties) := due ▸ .head _
        obtain ⟨listed, later⟩ := List.mem_filter.mp listed
        obtain ⟨stored, matched⟩ := mem_listing.mp listed
        rcases undisturbed c rfl row found with unread | none
        · exact acknowledged unread
        · exact none r stored matched (of_decide_eq_true later)

/-! ### One call -/

section Call

variable {v : Visit} {due served : List OutboxRecord}

theorem Opens.served_suffix (opens : Opens ties customerId unreadOnly limit v due served) :
    served <:+ due := by
  rcases opens.loses with ⟨-, rfl⟩ | ⟨-, r, rfl⟩
  · exact List.suffix_rfl
  · exact List.suffix_cons r served

theorem Opens.ids (opens : Opens ties customerId unreadOnly limit v due served) :
    v.ids ties customerId unreadOnly limit = (served.take (safeLimit limit)).map OutboxRecord.id := by
  simp only [Visit.ids, Visit.page, listNotifications, opens.rows, List.map_map]
  rfl

/-- A last page shows all that is served. -/
theorem Opens.last (opens : Opens ties customerId unreadOnly limit v due served)
    (ends : (v.page ties customerId unreadOnly limit).nextCursor = none) :
    served.length < safeLimit limit := by
  simp only [Visit.page, listNotifications, opens.rows, List.length_take] at ends
  have positive := safeLimit_pos limit
  by_contra full
  rw [if_pos (by omega), Option.map_eq_none_iff, List.getLast?_eq_none_iff,
    List.take_eq_nil_iff] at ends
  rcases ends with zero | empty
  · omega
  · simp only [empty, List.length_nil] at full
    omega

/-- The cursor of a full page is its last row, and what is left comes after that row. -/
theorem Opens.next (opens : Opens ties customerId unreadOnly limit v due served)
    (unique : Table.Unique OutboxRecord.id v.db.events) {c : Id}
    (continues : (v.page ties customerId unreadOnly limit).nextCursor = some c) :
    safeLimit limit ≤ served.length ∧ ∃ x ∈ served.take (safeLimit limit), x.id = c ∧
      listingAfter ties customerId unreadOnly v.db (x.position ties) =
        served.drop (safeLimit limit) ∧
      ∀ y ∈ served.take (safeLimit limit), y.position ties ≤ x.position ties := by
  have ranked := listing_ranked customerId ties unreadOnly unique
  have inside := opens.served_suffix.trans opens.suffix
  simp only [Visit.page, listNotifications, opens.rows, List.length_take] at continues
  split at continues
  next full =>
    have enough : safeLimit limit ≤ served.length := by omega
    obtain ⟨x, last, left⟩ := Paging.last_of_full (safeLimit_pos limit) enough
    rw [last, Option.map_some] at continues
    obtain ⟨before, split⟩ := left.trans inside
    refine ⟨enough, x, List.mem_of_getLast? last, Option.some.inj continues, ?_, fun y member => ?_⟩
    · rw [listingAfter, ← split]
      rw [← split] at ranked
      exact Paging.filter_keyset ranked fun y _ => decide_eq_true_iff
    · have taken := (ranked.sublist inside.sublist).sublist (List.take_sublist (safeLimit limit) served)
      rw [← List.dropLast_append_getLast? x last] at taken member
      rcases List.mem_append.mp member with earlier | same
      · exact ((List.pairwise_append.mp taken).2.2 y earlier x (List.mem_singleton_self x)).le
      · rw [List.mem_singleton.mp same]
  next => cases continues

end Call

/-! ### What the pause leaves -/

theorem mem_positions (k p : Position) :
    p ∈ (listingAfter ties customerId unreadOnly d k).map (OutboxRecord.position ties) ↔
      ∃ n ∈ d.notices customerId, (unreadOnly = true → n.acknowledgedAt = none) ∧
        k < n.position ties ∧ n.position ties = p := by
  have read : ∀ r : OutboxRecord, queryWhere customerId unreadOnly r = true ↔
      baseWhere customerId r = true ∧ (unreadOnly = true → r.notice.acknowledgedAt = none) := by
    intro r
    cases unreadOnly <;> simp [queryWhere, OutboxRecord.notice]
  simp only [List.mem_map, listingAfter, List.mem_filter, mem_listing, decide_eq_true_eq, read,
    Db.notices]
  constructor
  · rintro ⟨r, ⟨⟨stored, mine, unread⟩, later⟩, rfl⟩
    exact ⟨r.notice, ⟨r, ⟨stored, mine⟩, rfl⟩, unread, later, rfl⟩
  · rintro ⟨n, ⟨r, ⟨stored, mine⟩, rfl⟩, unread, later, rfl⟩
    exact ⟨r, ⟨⟨stored, mine, unread⟩, later⟩, rfl⟩

theorem Settled.passed (settled : Settled customerId received d d') {k : Position}
    (passed : ∀ n ∈ d.notices customerId, n.id ∈ received → n.position ties ≤ k) :
    ∀ n ∈ d'.notices customerId, n.id ∈ received → n.position ties ≤ k := by
  intro n' member known
  obtain ⟨n, old, sameId, sameTime⟩ := settled.earlier n' member
  have before := passed n old (sameId ▸ known)
  rwa [Notice.position, sameId, sameTime] at before

variable (unreadOnly) in
/-- What comes after everything received is the same after the pause. -/
theorem Settled.ids_listingAfter (settled : Settled customerId received d d')
    (unique : Table.Unique OutboxRecord.id d.events) {k : Position}
    (passed : ∀ n ∈ d.notices customerId, n.id ∈ received → n.position ties ≤ k) :
    (listingAfter ties customerId unreadOnly d' k).map OutboxRecord.id =
      (listingAfter ties customerId unreadOnly d k).map OutboxRecord.id := by
  have ranked : ∀ e : Db, Table.Unique OutboxRecord.id e.events →
      ((listingAfter ties customerId unreadOnly e k).map (OutboxRecord.position ties)).Pairwise
        (· < ·) :=
    fun e unique => List.pairwise_map.mpr ((listing_ranked customerId ties unreadOnly unique).filter _)
  have fresh : ∀ e : Db, (∀ n ∈ e.notices customerId, n.id ∈ received → n.position ties ≤ k) →
      ∀ n ∈ e.notices customerId, k < n.position ties → n.id ∉ received :=
    fun e passed n member later known => absurd later (not_lt.mpr (passed n member known))
  have same : (listingAfter ties customerId unreadOnly d' k).map (OutboxRecord.position ties) =
      (listingAfter ties customerId unreadOnly d k).map (OutboxRecord.position ties) := by
    refine (ranked d' (settled.unique unique)).eq_of_mem_iff (ranked d unique) fun p => ?_
    rw [mem_positions, mem_positions]
    constructor
    · rintro ⟨n, member, unread, later, place⟩
      have new := fresh d' (settled.passed passed) n member later
      exact ⟨n, (settled.unchanged n new).mp member, unread, later, place⟩
    · rintro ⟨n, member, unread, later, place⟩
      have new := fresh d passed n member later
      exact ⟨n, (settled.unchanged n new).mpr member, unread, later, place⟩
  have ranks := congrArg (List.map fun p : Position => (ofLex p).2) same
  simp only [List.map_map] at ranks
  refine List.map_injective_iff.mpr ties.injective ?_
  rw [List.map_map, List.map_map]
  exact ranks

/-! ### Sessions -/

/-- The next call opens what comes after the last row received. -/
theorem Settled.opens (settled : Settled customerId received d d')
    (unique : Table.Unique OutboxRecord.id d'.events) {x : OutboxRecord} (stored : x ∈ d.events)
    (mine : baseWhere customerId x = true) :
    ∃ served, Opens ties customerId unreadOnly limit ⟨d', some x.id⟩
      (listingAfter ties customerId unreadOnly d' (x.position ties)) served := by
  have listed : x.notice ∈ d.notices customerId :=
    List.mem_map_of_mem (List.mem_filter.mpr ⟨stored, mine⟩)
  obtain ⟨n, later, sameId, sameTime⟩ := settled.later x.notice listed
  obtain ⟨row, member, rfl⟩ := List.mem_map.mp later
  obtain ⟨stored', mine'⟩ := List.mem_filter.mp member
  have found : d'.event x.id = some row := by
    have found := Table.find_of_mem unique stored'
    rwa [show row.id = x.id from sameId] at found
  have place : x.position ties = row.position ties := by
    simp only [OutboxRecord.position, Notice.position, sameId, sameTime]
  rw [place]
  exact opens_next unique found mine'

/-- From a call on, the client receives what is due in order, and all of it exactly if no call is
disturbed. -/
theorem session_shows {cursor : Option Id} {visits : List Visit} {ended : Bool}
    (session : Session ties customerId unreadOnly limit d cursor received visits ended)
    {due served : List OutboxRecord} (unique : Table.Unique OutboxRecord.id d.events)
    (opens : Opens ties customerId unreadOnly limit ⟨d, cursor⟩ due served)
    (passed : ∀ n ∈ d.notices customerId, n.id ∈ received →
      ∀ r ∈ due, n.position ties < r.position ties) :
    visits.length ≤ due.length + 1 ∧
      (visits.flatMap (Visit.ids ties customerId unreadOnly limit)).Sublist
        (due.map OutboxRecord.id) ∧
      (ended = true → (visits.flatMap (Visit.ids ties customerId unreadOnly limit) =
        due.map OutboxRecord.id ↔
          (unreadOnly = true → ∀ v ∈ visits, v.Undisturbed ties customerId))) := by
  induction session generalizing due served with
  | stopped d cursor received =>
    exact ⟨Nat.zero_le _, List.nil_sublist _, fun ended => absurd ended Bool.false_ne_true⟩
  | @last d cursor received ends =>
    have short := opens.last ends
    have shown : Visit.ids ties customerId unreadOnly limit ⟨d, cursor⟩ =
        served.map OutboxRecord.id := by rw [opens.ids, List.take_of_length_le short.le]
    simp only [List.flatMap_singleton, shown, List.length_singleton, List.forall_mem_singleton]
    refine ⟨Nat.le_add_left 1 _, opens.served_suffix.sublist.map _, fun _ => ?_⟩
    rcases opens.loses with ⟨holds, rfl⟩ | ⟨⟨only, disturbed⟩, r, rfl⟩
    · exact ⟨fun _ => holds, fun _ => rfl⟩
    · constructor
      · intro same
        have lengths := congrArg List.length same
        simp at lengths
      · exact fun holds => absurd (holds only) disturbed
  | @more d d' cursor received visits ended c continues between rest ih =>
    obtain ⟨enough, x, shownX, rfl, left, before⟩ := opens.next unique continues
    have inside := opens.served_suffix.trans opens.suffix
    have dueX : x ∈ due := opens.served_suffix.subset (List.mem_of_mem_take shownX)
    obtain ⟨stored, matched⟩ := mem_listing.mp (opens.suffix.subset dueX)
    have mine : baseWhere customerId x = true := ((Bool.and_eq_true _ _).mp matched).1
    -- whatever was received is not listed after the last row of this page
    have passedX : ∀ n ∈ d.notices customerId,
        n.id ∈ received ++ Visit.ids ties customerId unreadOnly limit ⟨d, cursor⟩ →
          n.position ties ≤ x.position ties := by
      intro n member known
      rcases List.mem_append.mp known with known | known
      · exact (passed n member known x dueX).le
      · rw [opens.ids] at known
        obtain ⟨y, taken, same⟩ := List.mem_map.mp known
        obtain ⟨r, listed, rfl⟩ := List.mem_map.mp member
        have storedY := (mem_listing.mp (inside.subset (List.mem_of_mem_take taken))).1
        have found := Table.find_of_mem unique storedY
        have sameRow := Table.eq_of_find unique found (List.mem_filter.mp listed).1 same.symm
        rw [sameRow]
        exact before y taken
    have settled := between.settled
    have unique' := settled.unique unique
    obtain ⟨served', opens'⟩ := settled.opens unique' stored mine
    have due' := settled.ids_listingAfter unreadOnly unique passedX
    obtain ⟨bound, sublist, complete⟩ := ih unique' opens' fun n member known r later =>
      (settled.passed passedX n member known).trans_lt
        (of_decide_eq_true (List.mem_filter.mp later).2)
    have lengths := congrArg List.length due'
    rw [left] at due' lengths
    rw [due'] at sublist complete
    simp only [List.length_map, List.length_drop] at lengths
    have positive := safeLimit_pos limit
    have served_le := opens.served_suffix.sublist.length_le
    have parts : served.map OutboxRecord.id =
        Visit.ids ties customerId unreadOnly limit ⟨d, cursor⟩ ++
          (served.drop (safeLimit limit)).map OutboxRecord.id := by
      rw [opens.ids, ← List.map_append, List.take_append_drop]
    have within : (Visit.ids ties customerId unreadOnly limit ⟨d, cursor⟩ ++
        visits.flatMap (Visit.ids ties customerId unreadOnly limit)).Sublist
          (served.map OutboxRecord.id) := by
      rw [parts]
      exact (List.Sublist.refl _).append sublist
    simp only [List.flatMap_cons, List.length_cons, List.forall_mem_cons]
    refine ⟨by omega, within.trans (opens.served_suffix.sublist.map _), fun ends => ?_⟩
    rcases opens.loses with ⟨holds, rfl⟩ | ⟨⟨only, disturbed⟩, r, rfl⟩
    · rw [parts, List.append_cancel_left_eq, complete ends]
      exact ⟨fun later only => ⟨holds only, later only⟩, fun all only => (all only).2⟩
    · constructor
      · intro same
        have lengths := within.length_le
        rw [same, List.length_map, List.length_map, List.length_cons] at lengths
        omega
      · exact fun all => absurd (all only).1 disturbed

end Listings

/-- Two unread notifications that were created in one statement. -/
def twoUnread : Db where
  now := 20
  events :=
    [{ id := 1, recipientType := .customer, recipientId := 7, idempotencyKey := ['a']
       availableAt := 10, createdAt := 10, updatedAt := 10 },
     { id := 2, recipientType := .customer, recipientId := 7, idempotencyKey := ['b']
       availableAt := 10, createdAt := 10, updatedAt := 10 }]

/-- The customer has read the first of them. -/
def oneRead : Db := ((acknowledgeNotification 7 1).run.alone true none twoUnread).2.2

/-- The customer pages by one and acknowledges the first notification before it goes on. -/
theorem twoUnread_session (unreadOnly : Bool) :
    Session (.refl ℕ) 7 unreadOnly (some 1) twoUnread none []
      (if unreadOnly then [⟨twoUnread, none⟩, ⟨oneRead, some 1⟩]
        else [⟨twoUnread, none⟩, ⟨oneRead, some 1⟩, ⟨oneRead, some 2⟩]) true := by
  cases unreadOnly with
  | false =>
    exact .more (c := 1) (by decide +kernel) (.acknowledges 1 (by decide +kernel) (.nothing _))
      (.more (c := 2) (by decide +kernel) (.nothing _) (.last _ (by decide +kernel)))
  | true =>
    exact .more (c := 1) (by decide +kernel) (.acknowledges 1 (by decide +kernel) (.nothing _))
      (.last _ (by decide +kernel))

theorem twoUnread_unique : Table.Unique OutboxRecord.id twoUnread.events := by
  change [1, 2].Nodup
  decide

end LabourBaba.Outbox
