import LabourBaba.Payments.OrderRecovery
import LabourBaba.Store.Backlog

/-!
# Stale payments

`reconcileStalePayments` as it works off the PENDING payments, run by run, with a provider that
answers. A run sets columns of the payments of its page (`resolution`) and leaves those alone
whose order is neither paid nor given up, so that they fill a part of every later page as well.
A payment that carries a quarantine reason is in no page, and `createOrder` leaves the reason of
a refused order on the payment when it claims the payment again.
-/
namespace LabourBaba.Payments

open Store
open Market (Id Text)

/-! ### What a run makes of a payment -/

/-- The columns set for a payment whose order is paid. -/
def paidResolution (p : Payment) (order : ProviderOrder) : PaymentData :=
  let storedAmount := showAmount p.amount
  let amount := showAmount (some order.amount)
  let stored := String.ofList p.currency
  let currency := String.ofList order.currency
  if p.amount.any fun stored => decide (order.amount ≠ stored) then
    { quarantineReason := some (some
        s!"Reconciliation amount mismatch: local={storedAmount}p, provider={amount}p") }
  else if p.currency ≠ [] ∧ upperCase order.currency ≠ upperCase p.currency then
    { quarantineReason := some (some
        s!"Reconciliation currency mismatch: local={stored}, provider={currency}") }
  else { status := some .COMPLETED }

def orderResolution (p : Payment) (order : ProviderOrder) : Option PaymentData :=
  if order.status = .paid then some (paidResolution p order)
  else if order.status = .created ∧ 3 < order.attempts then some { status := some .FAILED }
  else none

/-- The columns that a run sets on a payment of its page, if it sets any. -/
def resolution (orders : List ProviderOrder) (p : Payment) : Option PaymentData :=
  (p.razorpayOrderId.bind fun orderId => orders[orderId]?).bind (orderResolution p)

def resolved (orders : List ProviderOrder) (p : Payment) : Payment :=
  match resolution orders p with
  | some data => p.update data
  | none => p

/-- The run has nothing to set. -/
def stuck (orders : List ProviderOrder) (p : Payment) : Bool := (resolution orders p).isNone

@[simp] theorem resolved_id (orders : List ProviderOrder) (p : Payment) :
    (resolved orders p).id = p.id := by
  rw [resolved]
  split <;> rfl

theorem resolved_of_stuck {orders : List ProviderOrder} {p : Payment} (left : stuck orders p = true) :
    resolved orders p = p := by
  rw [resolved, Option.isNone_iff_eq_none.mp left]

/-- Of the payments on a page, `d'` has what a run makes of them in `d`. -/
structure Swept (page : List Payment) (d d' : Db) : Prop where
  orders : d'.orders = d.orders
  now : d'.now = d.now
  payments : d'.payments =
    d.payments.map fun row => if row ∈ page then resolved d.orders row else row

section OnePayment

variable {cfg : Config} {d : Db} {p : Payment}

theorem swept_of_none (untouched : resolution d.orders p = none) : Swept [p] d d := by
  refine ⟨rfl, rfl, ?_⟩
  have same : ∀ row ∈ d.payments, (if row ∈ [p] then resolved d.orders row else row) = row := by
    intro row _
    split
    next is_p => rw [List.mem_singleton.mp is_p, resolved, untouched]
    next => rfl
  rw [List.map_congr_left same, List.map_id']

theorem swept_of_update (ids : Table.Unique Payment.id d.payments) (stored : p ∈ d.payments)
    {data : PaymentData} (sets : resolution d.orders p = some data) :
    Swept [p] d (applyAll [Write.updatePayment p.id data] d) := by
  refine ⟨rfl, rfl, List.map_congr_left fun row member => ?_⟩
  by_cases same : row = p
  · subst same
    simp [resolved, sets]
  · have other : row.id ≠ p.id := fun named =>
      same (Table.eq_of_find ids (Table.find_of_mem ids stored) member named)
    simp [same, other]

/-- The transition of a pending payment succeeds. -/
theorem result_transition {Q : Except Failure Bool → Option PaymentTx → Db → Prop} {label : Label}
    {toStatus : PaymentStatus} (found : d.payment p.id = some p) (pending : p.status = .PENDING)
    (legal : toStatus ∈ legalPaymentTransitions .PENDING) :
    Call.result true Q (Call.transaction (fun _ => label)
      (transitionPaymentStatus p.id .PENDING toStatus {})) none d =
      Q (.ok true) none (applyAll [Write.updatePayment p.id { status := some toStatus }] d) := by
  simp only [Call.result_transaction, transitionPaymentStatus, if_pos legal, step, Call.result_stmt,
    applyAll_nil, setPaymentWhere, found, pending, decide_true, if_true, Call.afterStmt_ok,
    Call.resultEnd]
  rfl

/-- What a run makes of a payment of its page, and of no other. -/
theorem reconcilePayment_swept (configured : cfg.configured = true)
    (ids : Table.Unique Payment.id d.payments) (stored : p ∈ d.payments)
    (pending : p.status = .PENDING) (result : ReconciliationResult) :
    Call.result true (fun _ tx d' => tx = none ∧ Swept [p] d d')
      (reconcilePayment cfg p result) none d := by
  have found : d.payment p.id = some p := Table.find_of_mem ids stored
  have completes : PaymentStatus.COMPLETED ∈ legalPaymentTransitions .PENDING := by decide
  have fails : PaymentStatus.FAILED ∈ legalPaymentTransitions .PENDING := by decide
  cases placed : p.razorpayOrderId with
  | none =>
    have untouched : resolution d.orders p = none := by rw [resolution, placed]; rfl
    simp only [reconcilePayment, placed, Call.result_pure]
    exact ⟨trivial, swept_of_none untouched⟩
  | some orderId =>
    simp only [reconcilePayment, placed, fetchOrder, configured, Bool.true_eq_false, if_false,
      Call.result_bind, Call.result_choose, Call.resultThen_ok, query, Call.result_read, Tx.view_none]
    cases known : d.order orderId with
    | none =>
      have untouched : resolution d.orders p = none := by
        rw [resolution, placed, Option.bind_some, show d.orders[orderId]? = none from known]
        rfl
      simp only [Call.result_throw, Call.resultThen_error]
      exact ⟨trivial, swept_of_none untouched⟩
    | some order =>
      have reads : resolution d.orders p = orderResolution p order := by
        rw [resolution, placed, Option.bind_some, show d.orders[orderId]? = some order from known]
        rfl
      simp only [Call.result_pure, Call.resultThen_ok]
      by_cases paid : order.status = .paid
      · rw [orderResolution, if_pos paid] at reads
        rw [if_pos paid, reconcilePaid]
        -- two kinds of mismatch, then the transition
        by_cases amount : (p.amount.any fun stored => decide (order.amount ≠ stored)) = true
        · rw [paidResolution, if_pos amount] at reads
          simp only [if_pos amount, Call.result_bind, Call.result_stmt_alone, setPayment, found,
            Option.isNone_some, Bool.false_eq_true, if_false, Call.resultCommit_ok,
            Call.resultThen_ok, Call.result_pure]
          exact ⟨trivial, swept_of_update ids stored reads⟩
        · rw [paidResolution, if_neg amount] at reads
          by_cases currency : p.currency ≠ [] ∧ upperCase order.currency ≠ upperCase p.currency
          · rw [if_pos currency] at reads
            simp only [if_neg amount, if_pos currency, Call.result_bind, Call.result_stmt_alone,
              setPayment, found, Option.isNone_some, Bool.false_eq_true, if_false,
              Call.resultCommit_ok, Call.resultThen_ok, Call.result_pure]
            exact ⟨trivial, swept_of_update ids stored reads⟩
          · rw [if_neg currency] at reads
            simp only [if_neg amount, if_neg currency, Call.result_bind,
              result_transition found pending completes, Call.resultThen_ok, Call.result_pure]
            exact ⟨trivial, swept_of_update ids stored reads⟩
      · rw [orderResolution, if_neg paid] at reads
        by_cases given : order.status = .created ∧ 3 < order.attempts
        · rw [if_pos given] at reads
          simp only [if_neg paid, if_pos given, Call.result_bind,
            result_transition found pending fails, Call.resultThen_ok, Call.result_pure]
          exact ⟨trivial, swept_of_update ids stored reads⟩
        · rw [if_neg given] at reads
          simp only [if_neg paid, if_neg given, Call.result_pure]
          exact ⟨trivial, swept_of_none reads⟩

end OnePayment

/-! ### What a run makes of its page -/

theorem Swept.ids {page : List Payment} {d d' : Db} (swept : Swept page d d')
    (ids : Table.Unique Payment.id d.payments) : Table.Unique Payment.id d'.payments := by
  have same : d'.payments.map Payment.id = d.payments.map Payment.id := by
    rw [swept.payments, List.map_map]
    refine List.map_congr_left fun row _ => ?_
    simp only [Function.comp]
    split
    · exact resolved_id _ row
    · rfl
  rw [Table.Unique, same]
  exact ids

/-- A payment that is not on the page is the same afterwards. -/
theorem Swept.mem_of_notMem {page : List Payment} {d d' : Db} (swept : Swept page d d')
    {row : Payment} (stored : row ∈ d.payments) (other : row ∉ page) : row ∈ d'.payments := by
  rw [swept.payments]
  exact List.mem_map.mpr ⟨row, stored, if_neg other⟩

theorem Swept.mem_of_mem {page : List Payment} {d d' : Db} (swept : Swept page d d')
    {row : Payment} (stored : row ∈ d.payments) (shown : row ∈ page) :
    resolved d.orders row ∈ d'.payments := by
  rw [swept.payments]
  exact List.mem_map.mpr ⟨row, stored, if_pos shown⟩

/-- The first payment of a page, then the others. -/
theorem Swept.cons {p : Payment} {rest : List Payment} {d d₁ d₂ : Db}
    (ids : (p :: rest).map Payment.id |>.Nodup) (first : Swept [p] d d₁) (others : Swept rest d₁ d₂) :
    Swept (p :: rest) d d₂ := by
  refine ⟨others.orders.trans first.orders, others.now.trans first.now, ?_⟩
  rw [others.payments, first.payments, first.orders, List.map_map]
  refine List.map_congr_left fun row _ => ?_
  by_cases same : row = p
  · subst same
    -- it is not looked at again
    have later : resolved d.orders row ∉ rest := fun again =>
      (List.nodup_cons.mp ids).1 (List.mem_map.mpr ⟨_, again, resolved_id _ row⟩)
    simp [later]
  · simp [same]

theorem reconcileEach_swept {cfg : Config} (configured : cfg.configured = true)
    {page : List Payment} (distinct : (page.map Payment.id).Nodup) {d : Db}
    (ids : Table.Unique Payment.id d.payments) (stored : ∀ p ∈ page, p ∈ d.payments)
    (pending : ∀ p ∈ page, p.status = .PENDING) (result : ReconciliationResult) :
    Call.result true (fun _ tx d' => tx = none ∧ Swept page d d')
      (reconcileEach cfg page result) none d := by
  induction page generalizing d result with
  | nil =>
    rw [reconcileEach, Call.result_pure]
    exact ⟨rfl, rfl, rfl, by simp⟩
  | cons p rest ih =>
    have first := reconcilePayment_swept configured ids (stored p List.mem_cons_self)
      (pending p List.mem_cons_self) result
    rw [reconcileEach, Call.result_bind, Call.result_attempt]
    refine Call.result_mono ?_ first
    rintro r tx d₁ ⟨rfl, swept⟩
    have remain : ∀ q ∈ rest, q ∈ d₁.payments := by
      intro q member
      refine swept.mem_of_notMem (stored q (List.mem_cons_of_mem p member)) fun is_p => ?_
      rw [List.mem_singleton.mp is_p] at member
      exact (List.nodup_cons.mp distinct).1 (List.mem_map_of_mem member)
    -- a failed payment only changes what is counted
    have goesOn : ∀ result, Call.result true (fun _ tx d' => tx = none ∧ Swept (p :: rest) d d')
        (reconcileEach cfg rest result) none d₁ := by
      intro result
      refine Call.result_mono ?_ (ih (List.nodup_cons.mp distinct).2 (swept.ids ids) remain
        (fun q member => pending q (List.mem_cons_of_mem p member)) result)
      rintro r tx d₂ ⟨rfl, others⟩
      exact ⟨rfl, swept.cons distinct others⟩
    cases r with
    | ok result => exact goesOn result
    | error e => exact goesOn _

/-! ### The backlog -/

def isStale (olderThanMinutes now : Nat) (p : Payment) : Bool :=
  decide (p.status = .PENDING ∧ p.createdAt + olderThanMinutes * 60 * 1000 < now ∧
    p.quarantineReason = none)

/-- The payments that the runs work off, oldest first. -/
def backlog (olderThanMinutes : Nat) (d : Db) : List Payment :=
  (d.payments.filter (isStale olderThanMinutes d.now)).insertionSort
    fun p q => p.createdAt ≤ q.createdAt

theorem stalePayments_eq (olderThanMinutes : Nat) (d : Db) :
    stalePayments olderThanMinutes d = (backlog olderThanMinutes d).take 50 := rfl

section Backlogs

variable {olderThanMinutes : Nat} {d d' : Db}

instance : IsTrans Payment fun p q => p.createdAt ≤ q.createdAt := ⟨fun _ _ _ => Nat.le_trans⟩

instance : Std.Total fun p q : Payment => p.createdAt ≤ q.createdAt :=
  ⟨fun p q => Nat.le_total p.createdAt q.createdAt⟩

theorem mem_backlog {p : Payment} :
    p ∈ backlog olderThanMinutes d ↔ p ∈ d.payments ∧ p.status = .PENDING ∧
      p.createdAt + olderThanMinutes * 60 * 1000 < d.now ∧ p.quarantineReason = none := by
  rw [backlog, List.mem_insertionSort, List.mem_filter, isStale, decide_eq_true_eq]

theorem backlog_distinct (ids : Table.Unique Payment.id d.payments) :
    ((backlog olderThanMinutes d).map Payment.id).Nodup := by
  have sorted := List.perm_insertionSort (fun p q : Payment => p.createdAt ≤ q.createdAt)
    (d.payments.filter (isStale olderThanMinutes d.now))
  exact ((sorted.map Payment.id).nodup_iff).mpr (ids.sublist (List.filter_sublist.map Payment.id))

theorem backlog_nodup (ids : Table.Unique Payment.id d.payments) :
    (backlog olderThanMinutes d).Nodup :=
  (backlog_distinct ids).of_map Payment.id

/-- What a run sets takes a payment out of the backlog. -/
theorem isStale_update {orders : List ProviderOrder} {p : Payment} {data : PaymentData} {now : Nat}
    (sets : resolution orders p = some data) : isStale olderThanMinutes now (p.update data) = false := by
  obtain ⟨order, -, sets⟩ := Option.bind_eq_some_iff.mp sets
  have moved : (p.update data).status ≠ .PENDING ∨ (p.update data).quarantineReason ≠ none := by
    simp only [orderResolution] at sets
    split at sets
    · obtain rfl := Option.some.inj sets
      simp only [paidResolution]
      split
      · exact Or.inr (by simp [Payment.update])
      · split
        · exact Or.inr (by simp [Payment.update])
        · exact Or.inl (by simp [Payment.update])
    · split at sets
      · obtain rfl := Option.some.inj sets
        exact Or.inl (by simp [Payment.update])
      · cases sets
  refine decide_eq_false fun stale => ?_
  rcases moved with status | reason
  · exact status stale.1
  · exact reason stale.2.2

/-- A run is a turn of the backlog. -/
theorem backlog_swept (ids : Table.Unique Payment.id d.payments)
    (swept : Swept (stalePayments olderThanMinutes d) d d') :
    backlog olderThanMinutes d' =
      Backlog.turn 50 (stuck d.orders) (backlog olderThanMinutes d) := by
  let page := stalePayments olderThanMinutes d
  -- who is left: the payments that are not on the page, and those that are stuck
  have left : ∀ p, isStale olderThanMinutes d.now (if p ∈ page then resolved d.orders p else p) =
      ((decide (p ∉ page) || stuck d.orders p) && isStale olderThanMinutes d.now p) := by
    intro p
    by_cases shown : p ∈ page
    · cases sets : resolution d.orders p with
      | none => simp [shown, resolved, stuck, sets]
      | some data => simp [shown, resolved, stuck, sets, isStale_update sets]
    · simp [shown]
  have fixed : ∀ p ∈ d.payments,
      isStale olderThanMinutes d.now (if p ∈ page then resolved d.orders p else p) = true →
        (if p ∈ page then resolved d.orders p else p) = p := by
    intro p _ stale
    rw [left, Bool.and_eq_true, Bool.or_eq_true, decide_eq_true_eq] at stale
    split
    next shown => exact resolved_of_stuck (stale.1.resolve_left (not_not_intro shown))
    next => rfl
  calc backlog olderThanMinutes d'
      = (d.payments.filter fun p => (decide (p ∉ page) || stuck d.orders p) &&
          isStale olderThanMinutes d.now p).insertionSort fun p q => p.createdAt ≤ q.createdAt := by
        rw [backlog, swept.payments, swept.now, Table.filter_map_of_fixed fixed]
        simp only [left]
    _ = (backlog olderThanMinutes d).filter fun p => decide (p ∉ page) || stuck d.orders p := by
        rw [← List.filter_filter, ← Backlog.filter_insertionSort]
        rfl
    _ = Backlog.turn 50 (stuck d.orders) (backlog olderThanMinutes d) :=
        (Backlog.turn_eq_filter (backlog_nodup ids)).symm

/-- As time passes, other payments join the backlog behind those that are in it. -/
theorem backlog_tick (olderThanMinutes : Nat) (d : Db) :
    ∃ more, backlog olderThanMinutes { d with now := d.now + 1 } =
      backlog olderThanMinutes d ++ more ∧
    ∀ p ∈ more, d.now ≤ p.createdAt + olderThanMinutes * 60 * 1000 := by
  let old := fun p : Payment => decide (p.createdAt + olderThanMinutes * 60 * 1000 < d.now)
  let later := backlog olderThanMinutes { d with now := d.now + 1 }
  have sorted : later.Pairwise fun p q => p.createdAt ≤ q.createdAt := List.pairwise_insertionSort _ _
  have downward : ∀ p q : Payment, p.createdAt ≤ q.createdAt → old q = true → old p = true := by
    intro p q before aged
    have aged := of_decide_eq_true aged
    exact decide_eq_true (by omega)
  refine ⟨later.filter fun p => !old p, ?_, fun p member => ?_⟩
  · have before : backlog olderThanMinutes d = later.filter old := by
      simp only [later, backlog, Backlog.filter_insertionSort, List.filter_filter]
      congr 1
      refine List.filter_congr fun p _ => ?_
      rw [Bool.eq_iff_iff, Bool.and_eq_true]
      simp only [isStale, old, decide_eq_true_eq]
      constructor
      · rintro ⟨pending, aged, clean⟩
        exact ⟨aged, pending, by omega, clean⟩
      · rintro ⟨aged, pending, -, clean⟩
        exact ⟨pending, aged, clean⟩
    rw [before]
    exact Backlog.filter_append_filter sorted downward
  · have young := (List.mem_filter.mp member).2
    simp only [old, Bool.not_eq_true', decide_eq_false_iff_not] at young
    omega

end Backlogs

/-! ### Run after run -/

theorem reconcileStalePayments_swept {cfg : Config} (configured : cfg.configured = true) {d : Db}
    (ids : Table.Unique Payment.id d.payments) (olderThanMinutes : Nat) :
    Call.result true (fun _ tx d' => tx = none ∧ Swept (stalePayments olderThanMinutes d) d d')
      (reconcileStalePayments cfg olderThanMinutes) none d := by
  rw [reconcileStalePayments, Call.result_bind, query, Call.result_read, Call.resultThen_ok,
    Tx.view_none]
  have stored : ∀ p ∈ stalePayments olderThanMinutes d, p ∈ d.payments ∧ p.status = .PENDING := by
    intro p member
    obtain ⟨inside, pending, -⟩ := mem_backlog.mp (List.mem_of_mem_take member)
    exact ⟨inside, pending⟩
  exact reconcileEach_swept configured
    ((backlog_distinct ids).sublist ((List.take_sublist _ _).map Payment.id)) ids
    (fun p member => (stored p member).1) (fun p member => (stored p member).2) _

/-- `q` follows `p` by `n` runs of the reconciliation, one after the other, while time passes. -/
inductive Sweeps (cfg : Config) (olderThanMinutes : Nat) (p : PaymentPool) : Nat → PaymentPool → Prop
  | start : Sweeps cfg olderThanMinutes p 0 p
  | tick {n : Nat} {q r : PaymentPool} (before : Sweeps cfg olderThanMinutes p n q)
      (ran : Pool.Ran (system cfg) true .tick q r) : Sweeps cfg olderThanMinutes p n r
  | run {n : Nat} {q r : PaymentPool} (before : Sweeps cfg olderThanMinutes p n q)
      (ran : Pool.Ran (system cfg) true (.reconcileStalePayments olderThanMinutes) q r) :
      Sweeps cfg olderThanMinutes p (n + 1) r

/-- What has come of the backlog of the first store, and of one payment, after `n` runs. -/
structure Progress (olderThanMinutes : Nat) (first : Db) (row : Payment) (n : Nat) (d : Db) :
    Prop where
  orders : d.orders = first.orders
  now : first.now ≤ d.now
  ids : Table.Unique Payment.id d.payments
  turns : Backlog.After 50 (stuck first.orders) (backlog olderThanMinutes first) n
    (backlog olderThanMinutes d)
  payment : row ∈ d.payments ∨
    row.quarantineReason = none ∧ { row with status := .COMPLETED } ∈ d.payments

section Runs

variable {cfg : Config} {olderThanMinutes : Nat} {p q : PaymentPool} {first d d' : Db} {row : Payment}
  {n : Nat}

theorem Progress.tick (progress : Progress olderThanMinutes first row n d) :
    Progress olderThanMinutes first row n { d with now := d.now + 1 } := by
  obtain ⟨more, joined, young⟩ := backlog_tick olderThanMinutes d
  refine ⟨progress.orders, Nat.le_succ_of_le progress.now, progress.ids, ?_, progress.payment⟩
  rw [joined]
  refine progress.turns.join more fun a member inside => ?_
  have aged := (mem_backlog.mp inside).2.2.1
  exact Nat.lt_irrefl _ (Nat.lt_of_lt_of_le aged (progress.now.trans (young a member)))

theorem Progress.run (matched : resolution first.orders row = some { status := some .COMPLETED })
    (progress : Progress olderThanMinutes first row n d)
    (swept : Swept (stalePayments olderThanMinutes d) d d') :
    Progress olderThanMinutes first row (n + 1) d' := by
  refine ⟨swept.orders.trans progress.orders, swept.now ▸ progress.now, swept.ids progress.ids, ?_, ?_⟩
  · rw [backlog_swept progress.ids swept, progress.orders]
    exact progress.turns.turn
  · rcases progress.payment with waiting | ⟨clean, completed⟩
    · by_cases shown : row ∈ stalePayments olderThanMinutes d
      · have completed := swept.mem_of_mem waiting shown
        rw [resolved, progress.orders, matched] at completed
        exact Or.inr ⟨(mem_backlog.mp (List.mem_of_mem_take shown)).2.2.2, completed⟩
      · exact Or.inl (swept.mem_of_notMem waiting shown)
    · refine Or.inr ⟨clean, swept.mem_of_notMem completed fun shown => ?_⟩
      have pending := (mem_backlog.mp (List.mem_of_mem_take shown)).2.1
      cases pending

/-- The payment is completed exactly if it is in the backlog and the runs have come to it. -/
theorem Progress.completed_iff
    (matched : resolution first.orders row = some { status := some .COMPLETED })
    (firstIds : Table.Unique Payment.id first.payments) (stored : row ∈ first.payments)
    (pending : row.status = .PENDING)
    (aged : row.createdAt + olderThanMinutes * 60 * 1000 < first.now)
    (progress : Progress olderThanMinutes first row n d) :
    (d.payment row.id).map Payment.status = some .COMPLETED ↔
      row.quarantineReason = none ∧ (backlog olderThanMinutes first).idxOf row <
        Backlog.reach 50 (stuck first.orders) (backlog olderThanMinutes first) n := by
  -- a payment that can be completed does not stay at the head of the backlog
  have free : stuck first.orders row = false := by rw [stuck, matched]; rfl
  -- it is still in the backlog as long as the runs have not come to it
  have place (clean : row.quarantineReason = none) :
      row ∈ backlog olderThanMinutes d ↔ ¬ (backlog olderThanMinutes first).idxOf row <
        Backlog.reach 50 (stuck first.orders) (backlog olderThanMinutes first) n := by
    have inside : row ∈ backlog olderThanMinutes first := mem_backlog.mpr ⟨stored, pending, aged, clean⟩
    rw [progress.turns.mem_iff (backlog_nodup firstIds) inside free, List.mem_take_iff_idxOf_lt inside]
  rcases progress.payment with waiting | ⟨clean, completed⟩
  · refine iff_of_false (fun status => ?_) fun ⟨clean, reached⟩ => ?_
    · rw [Db.payment, Table.find_of_mem progress.ids waiting, Option.map_some, pending] at status
      cases status
    · exact (place clean).mp (mem_backlog.mpr ⟨waiting, pending,
        Nat.lt_of_lt_of_le aged progress.now, clean⟩) reached
  · have found : d.payment row.id = some { row with status := .COMPLETED } :=
      Table.find_of_mem progress.ids completed
    refine iff_of_true (by rw [found]; rfl) ⟨clean, ?_⟩
    by_contra unreached
    have waiting := (mem_backlog.mp ((place clean).mpr unreached)).1
    have same := congrArg Payment.status (Table.eq_of_find progress.ids found waiting rfl)
    rw [pending] at same
    cases same

theorem alone_replying_store {α : Type} (reply : α → Reply) (service : Service α) (answer : Bool)
    (d : Db) : ((replying reply service).run.alone answer none d).2.2 =
      (service.run.alone answer none d).2.2 := by
  have sequenced : (replying reply service).run =
      service.run.bind (ExceptT.bindCont fun a => pure (reply a)) := rfl
  rw [sequenced, Prog.alone_bind]
  cases (service.run.alone answer none d).1 <;> rfl

/-- A pool without open transactions stays one, call by call. -/
theorem idle_of_ran {op : Op} (reachable : Reachable cfg p) (idle : p.Idle)
    (ran : Pool.Ran (system cfg) true op p q) : Reachable cfg q ∧ q.Idle := by
  have reached : Reachable cfg q := ran.reaches (fun _ _ _ _ _ _ _ => trivial) reachable
  exact ⟨reached, ran.idle idle fun th member done =>
    reached.closed (system_emits cfg) rfl member (Or.inr done)⟩

theorem Sweeps.idle (reachable : Reachable cfg p) (idle : p.Idle)
    (sweeps : Sweeps cfg olderThanMinutes p n q) : Reachable cfg q ∧ q.Idle := by
  induction sweeps with
  | start => exact ⟨reachable, idle⟩
  | tick _ ran ih | run _ ran ih => exact idle_of_ran ih.1 ih.2 ran

theorem Sweeps.progress (configured : cfg.configured = true) (reachable : Reachable cfg p)
    (idle : p.Idle) (stored : row ∈ p.db.payments)
    (matched : resolution p.db.orders row = some { status := some .COMPLETED })
    (sweeps : Sweeps cfg olderThanMinutes p n q) :
    Progress olderThanMinutes p.db row n q.db := by
  induction sweeps with
  | start => exact ⟨rfl, Nat.le_refl _, (wf_of_runs reachable).ids, .start, Or.inl stored⟩
  | tick before ran ih =>
    rw [ran.db (before.idle reachable idle).2]
    exact ih.tick
  | @run n q r before ran ih =>
    have called : system cfg q.threads.length (.reconcileStalePayments olderThanMinutes) =
      (replying .reconciled (reconcileStalePayments cfg olderThanMinutes)).run := rfl
    rw [ran.db (before.idle reachable idle).2, called, alone_replying_store]
    exact ih.run matched (reconcileStalePayments_swept configured ih.ids olderThanMinutes).2

theorem exists_sweeps (reachable : Reachable cfg p) (idle : p.Idle) (olderThanMinutes n : Nat) :
    ∃ q, Sweeps cfg olderThanMinutes p n q := by
  induction n with
  | zero => exact ⟨p, .start⟩
  | succ n ih =>
    obtain ⟨q, before⟩ := ih
    obtain ⟨r, ran⟩ := Pool.exists_ran (system cfg) true (before.idle reachable idle).2
      (.reconcileStalePayments olderThanMinutes)
    exact ⟨r, before.run ran⟩

end Runs

/-! ### Completeness -/

/-- A stale payment, whatever quarantine reason it carries, for whose order the provider has been
paid what the payment says. -/
structure PaidFor (olderThanMinutes : Nat) (d : Db) (row : Payment) : Prop where
  stored : row ∈ d.payments
  pending : row.status = .PENDING
  aged : row.createdAt + olderThanMinutes * 60 * 1000 < d.now
  paid : ∃ orderId order, row.razorpayOrderId = some orderId ∧ d.order orderId = some order ∧
    order.status = .paid ∧ row.amount = some order.amount ∧
    upperCase order.currency = upperCase row.currency

theorem PaidFor.resolution {olderThanMinutes : Nat} {d : Db} {row : Payment}
    (due : PaidFor olderThanMinutes d row) :
    resolution d.orders row = some { status := some .COMPLETED } := by
  obtain ⟨orderId, order, placed, found, paid, amount, currency⟩ := due.paid
  rw [Payments.resolution, placed, Option.bind_some, show d.orders[orderId]? = some order from found,
    Option.bind_some, orderResolution, if_pos paid, paidResolution, amount]
  simp [currency]

/-- How many runs the stale payments of the store are to take. -/
def runsFor (olderThanMinutes : Nat) (d : Db) : Nat :=
  (d.payments.countP (fun p =>
    decide (p.status = .PENDING ∧ p.createdAt + olderThanMinutes * 60 * 1000 < d.now)) + 49) / 50

/-- From every reachable state without an open transaction, with a provider that answers: after
as many runs as the stale payments fill pages, a payment whose order is paid at the provider is
completed exactly if it carries no quarantine reason and is not too far down the backlog, where
each run comes as many payments further as its page has room beside those that are stuck. -/
theorem stale_payment_completed_iff {cfg : Config} (configured : cfg.configured = true)
    {p : PaymentPool} (reachable : Reachable cfg p) (idle : p.Idle) {olderThanMinutes : Nat}
    {row : Payment} (due : PaidFor olderThanMinutes p.db row) :
    (∃ q, Sweeps cfg olderThanMinutes p (runsFor olderThanMinutes p.db) q) ∧
    ∀ q, Sweeps cfg olderThanMinutes p (runsFor olderThanMinutes p.db) q →
      ((q.db.payment row.id).map Payment.status = some .COMPLETED ↔
        row.quarantineReason = none ∧ (backlog olderThanMinutes p.db).idxOf row <
          Backlog.reach 50 (stuck p.db.orders) (backlog olderThanMinutes p.db)
            (runsFor olderThanMinutes p.db)) := by
  refine ⟨exists_sweeps reachable idle olderThanMinutes _, fun q sweeps => ?_⟩
  have progress := sweeps.progress configured reachable idle due.stored due.resolution
  exact progress.completed_iff due.resolution (wf_of_runs reachable).ids due.stored due.pending
    due.aged

/-- Booking 1 is paid at the provider, and the webhook is lost. -/
def webhookLost : List (Pool.Move Op) :=
  paid.take 4 ++ [.event (.spawn (.moveOrder 0 .paid 1)), .drive 2 true, .event (.spawn .tick),
    .drive 3 true]

/-- The order of booking 1 at the provider. -/
def orderOne : ProviderOrder :=
  { bookingId := 1, amount := 500, currency := "INR".toList, status := .paid, attempts := 1 }

theorem lost_webhook_recovered :
    ∃ q row, Sweeps {} 0 (played (fun _ _ => True) webhookLost) 1 q ∧
      row ∈ (played (fun _ _ => True) webhookLost).db.payments ∧
      (q.db.payment row.id).map Payment.status = some .COMPLETED := by
  have quiet : Quiet (played (fun _ _ => True) webhookLost) := by
    simp only [Quiet]
    decide +kernel
  have reachable := runs_played (fun _ _ => True) webhookLost
  have stored : ∃ row ∈ (played (fun _ _ => True) webhookLost).db.payments,
      row.status = .PENDING ∧ row.createdAt + 0 * 60 * 1000 <
        (played (fun _ _ => True) webhookLost).db.now ∧ row.razorpayOrderId = some 0 ∧
      (played (fun _ _ => True) webhookLost).db.order 0 = some orderOne ∧
      row.amount = some 500 ∧ upperCase orderOne.currency = upperCase row.currency ∧
      row.quarantineReason = none ∧
      (backlog 0 (played (fun _ _ => True) webhookLost).db).idxOf row <
        Backlog.reach 50 (stuck (played (fun _ _ => True) webhookLost).db.orders)
          (backlog 0 (played (fun _ _ => True) webhookLost).db) 1 := by decide +kernel
  have once : runsFor 0 (played (fun _ _ => True) webhookLost).db = 1 := by decide +kernel
  obtain ⟨row, member, pending, aged, placed, found, amount, currency, clean, reached⟩ := stored
  have due : PaidFor 0 (played (fun _ _ => True) webhookLost).db row :=
    ⟨member, pending, aged, 0, orderOne, placed, found, rfl, amount, currency⟩
  obtain ⟨⟨q, sweeps⟩, completed⟩ := stale_payment_completed_iff rfl reachable
    (idle_of_quiet reachable quiet) due
  rw [once] at sweeps completed
  exact ⟨q, row, sweeps, member, (completed q sweeps).mpr ⟨clean, reached⟩⟩

/-- Every stale payment whose order is paid at the provider is completed after as many runs as
the stale payments fill pages. -/
def ReconciliationComplete (cfg : Config) : Prop :=
  ∀ p, Reachable cfg p → p.Idle → ∀ olderThanMinutes row, PaidFor olderThanMinutes p.db row →
    ∃ n q, n ≤ runsFor olderThanMinutes p.db ∧ Sweeps cfg olderThanMinutes p n q ∧
      (q.db.payment row.id).map Payment.status = some .COMPLETED

/-- The provider refuses an order, the customer tries again and pays. -/
def paidAfterRefusal : List (Pool.Move Op) :=
  refusedOrder ++ [.event (.spawn (.createOrder 1 7 2 (.replied true 500 "INR".toList))),
    .drive 2 true, .event (.spawn (.moveOrder 0 .paid 1)), .drive 3 true, .event (.spawn .tick),
    .drive 4 true]

/-- The reason of the refusal hides the payment from every run. -/
theorem paid_after_refusal_left : ¬ ReconciliationComplete {} := by
  intro complete
  have quiet : Quiet (played (fun _ _ => True) paidAfterRefusal) := by
    simp only [Quiet]
    decide +kernel
  have reachable := runs_played (fun _ _ => True) paidAfterRefusal
  have idle := idle_of_quiet reachable quiet
  have stored : ∃ row ∈ (played (fun _ _ => True) paidAfterRefusal).db.payments,
      row.status = .PENDING ∧ row.createdAt + 0 * 60 * 1000 <
        (played (fun _ _ => True) paidAfterRefusal).db.now ∧ row.razorpayOrderId = some 0 ∧
      (played (fun _ _ => True) paidAfterRefusal).db.order 0 = some orderOne ∧
      row.amount = some 500 ∧ upperCase orderOne.currency = upperCase row.currency ∧
      row.quarantineReason ≠ none := by decide +kernel
  obtain ⟨row, member, pending, aged, placed, found, amount, currency, flagged⟩ := stored
  have due : PaidFor 0 (played (fun _ _ => True) paidAfterRefusal).db row :=
    ⟨member, pending, aged, 0, orderOne, placed, found, rfl, amount, currency⟩
  obtain ⟨n, q, -, sweeps, completed⟩ := complete _ reachable idle 0 row due
  have progress := sweeps.progress rfl reachable idle due.stored due.resolution
  exact flagged ((progress.completed_iff due.resolution (wf_of_runs reachable).ids due.stored
    due.pending due.aged).mp completed).1

end LabourBaba.Payments
