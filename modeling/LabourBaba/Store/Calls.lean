import LabourBaba.Store.RelyGuarantee

/-!
# Rules for fallible calls

The weakest precondition of each primitive of `Call`, and of sequencing, blocks
and loops built from them. Rewriting with these rules turns a call into the
statements about the store it has to meet, one interference step per statement.
-/
namespace Store

variable {L D W K E α β : Type} [RowStore D W K] {P : Protocol L D} {me : Nat}

namespace Tx

@[simp] theorem add_locks (t : Tx K W) (s : Stmt K W) :
    (t.add D s).locks = t.locks ++ s.keys D := rfl

@[simp] theorem add_writes (t : Tx K W) (s : Stmt K W) :
    (t.add D s).writes = t.writes ++ s.writes := rfl

theorem add_nothing (t : Tx K W) : t.add D {} = t := by
  simp [add, Stmt.keys]

end Tx

/-- A later point of a transaction: it still holds its locks, and has written `ws` since. -/
structure Tx.Grows (t t' : Tx K W) (ws : List W) : Prop where
  kept : ∀ k ∈ t.locks, k ∈ t'.locks
  writes : t'.writes = t.writes ++ ws

namespace Tx.Grows

variable {t t' t'' : Tx K W} {ws ws' : List W}

omit [RowStore D W K] in
theorem refl (t : Tx K W) : Tx.Grows t t [] := ⟨fun _ held => held, by simp⟩

theorem add (D : Type) [RowStore D W K] (t : Tx K W) (s : Stmt K W) :
    Tx.Grows t (t.add D s) s.writes :=
  ⟨fun _ held => List.mem_append_left _ held, rfl⟩

omit [RowStore D W K] in
theorem trans (first : Tx.Grows t t' ws) (second : Tx.Grows t' t'' ws') :
    Tx.Grows t t'' (ws ++ ws') where
  kept k held := second.kept k (first.kept k held)
  writes := by rw [second.writes, first.writes, List.append_assoc]

omit [RowStore D W K] in
theorem after (grows : Tx.Grows t t' ws) (written : t.writes = ws') : t'.writes = ws' ++ ws := by
  rw [grows.writes, written]

omit [RowStore D W K] in
theorem same (grows : Tx.Grows t t' []) : t'.writes = t.writes := by
  rw [grows.writes, List.append_nil]

theorem rely {d d' d'' : D} (grows : Tx.Grows t t' ws) (before : P.Rely me t.locks d d')
    (after : P.Rely me t'.locks d' d'') : P.Rely me t.locks d d'' :=
  before.trans (after.weaken grows.kept)

end Tx.Grows

namespace Call

/-- What is to be shown of a call so that `Q` holds of its result, its open
transaction and the store when it ends. -/
def wp (P : Protocol L D) (me : Nat) (Q : Except E α → Option (Tx K W) → D → Prop)
    (c : Call L D W K E α) (tx : Option (Tx K W)) (d : D) : Prop :=
  Store.wp P me Q c.run tx d

variable {Q : Except E α → Option (Tx K W) → D → Prop} {tx : Option (Tx K W)} {d : D}

/-- The postcondition of the first of two calls in sequence. -/
def andThen (P : Protocol L D) (me : Nat) (Q : Except E β → Option (Tx K W) → D → Prop)
    (f : α → Call L D W K E β) : Except E α → Option (Tx K W) → D → Prop
  | .ok a, tx, d => wp P me Q (f a) tx d
  | .error e, tx, d => Q (.error e) tx d

@[simp] theorem andThen_ok (Q : Except E β → Option (Tx K W) → D → Prop)
    (f : α → Call L D W K E β) (a : α) (tx : Option (Tx K W)) (d : D) :
    andThen P me Q f (.ok a) tx d = wp P me Q (f a) tx d := rfl

@[simp] theorem andThen_error (Q : Except E β → Option (Tx K W) → D → Prop)
    (f : α → Call L D W K E β) (e : E) (tx : Option (Tx K W)) (d : D) :
    andThen P me Q f (.error e) tx d = Q (.error e) tx d := rfl

@[simp] theorem wp_bind {Q : Except E β → Option (Tx K W) → D → Prop} (c : Call L D W K E α)
    (f : α → Call L D W K E β) :
    wp P me Q (c >>= f) tx d = wp P me (andThen P me Q f) c tx d := by
  apply propext
  refine (Store.wp_bind Q c.run _ tx d).trans ?_
  have pointwise : (fun r tx d => Store.wp P me Q (ExceptT.bindCont f r) tx d) =
      andThen P me Q f := by
    funext r tx d
    cases r <;> rfl
  exact iff_of_eq (congrArg (fun R => Store.wp P me R c.run tx d) pointwise)

@[simp] theorem wp_pure (a : α) :
    wp P me Q (pure a : Call L D W K E α) tx d = Q (.ok a) tx d := rfl

@[simp] theorem wp_throw (e : E) :
    wp P me Q (throw e : Call L D W K E α) tx d = Q (.error e) tx d := rfl

@[simp] theorem wp_read (ℓ : L) (f : D → α) :
    wp P me Q (read ℓ f) tx d =
      ∀ d', P.Rely me (Tx.held tx) d d' → P.pre ℓ d' → Q (.ok (f (Tx.view tx d'))) tx d' := rfl

@[simp] theorem wp_lock (ℓ : L) (ks : D → List K) (f : D → α) (t : Tx K W) :
    wp P me Q (lock ℓ ks f) (some t) d =
      ∀ d', P.Rely me t.locks d d' → P.pre ℓ d' →
        Q (.ok (f (applyAll t.writes d')))
          (some (t.add D { locks := ks (applyAll t.writes d') })) d' := rfl

/-- The outcome of a statement inside a transaction. -/
def afterStmt (Q : Except E α → Option (Tx K W) → D → Prop) (t : Tx K W) (d : D) :
    Except E (List W × α) → Prop
  | .ok (ws, a) => Q (.ok a) (some (t.add D { writes := ws })) d
  | .error e => Q (.error e) (some t) d

@[simp] theorem afterStmt_ok (Q : Except E α → Option (Tx K W) → D → Prop) (t : Tx K W) (d : D)
    (ws : List W) (a : α) :
    afterStmt Q t d (.ok (ws, a)) = Q (.ok a) (some (t.add D { writes := ws })) d := rfl

@[simp] theorem afterStmt_error (Q : Except E α → Option (Tx K W) → D → Prop) (t : Tx K W) (d : D)
    (e : E) : afterStmt Q t d (.error e) = Q (.error e) (some t) d := rfl

@[simp] theorem wp_stmt (ℓ : L) (f : D → Except E (List W × α)) (t : Tx K W) :
    wp P me Q (stmt ℓ f) (some t) d =
      ∀ d', P.Rely me t.locks d d' → P.pre ℓ d' →
        afterStmt Q t d' (f (applyAll t.writes d')) := by
  apply propext
  simp only [wp, stmt, ExceptT.run_mk, Store.wp]
  refine forall_congr' fun d' => imp_congr_right fun _ => imp_congr_right fun _ => ?_
  cases f (applyAll t.writes d') with
  | error e => simp only [Store.wp, Tx.add_nothing, afterStmt]
  | ok pair => rfl

/-- The outcome of a statement that commits by itself. -/
def afterCommit (P : Protocol L D) (me : Nat) (ℓ : L)
    (Q : Except E α → Option (Tx K W) → D → Prop) (d : D) : Except E (List W × α) → Prop
  | .ok (ws, a) => P.Does me ℓ d (applyAll ws d) ∧ Q (.ok a) none (applyAll ws d)
  | .error e => Q (.error e) none d

@[simp] theorem afterCommit_ok (ℓ : L) (Q : Except E α → Option (Tx K W) → D → Prop) (d : D)
    (ws : List W) (a : α) :
    afterCommit P me ℓ Q d (.ok (ws, a)) =
      (P.Does me ℓ d (applyAll ws d) ∧ Q (.ok a) none (applyAll ws d)) := rfl

@[simp] theorem afterCommit_error (ℓ : L) (Q : Except E α → Option (Tx K W) → D → Prop) (d : D)
    (e : E) : afterCommit P me ℓ Q d (.error e) = Q (.error e) none d := rfl

@[simp] theorem wp_stmt_alone (ℓ : L) (f : D → Except E (List W × α)) :
    wp P me Q (stmt ℓ f) none d =
      ∀ d', P.Rely me ([] : List K) d d' → P.pre ℓ d' → afterCommit P me ℓ Q d' (f d') := by
  apply propext
  simp only [wp, stmt, ExceptT.run_mk, Store.wp]
  refine forall_congr' fun d' => imp_congr_right fun _ => imp_congr_right fun _ => ?_
  cases f d' with
  | error e => simp [Store.wp, Protocol.Does]
  | ok pair => rfl

@[simp] theorem wp_send (ℓ : L) (f : D → List (Unlocked D) × α) :
    wp P me Q (send ℓ f) tx d =
      ∀ d', P.Rely me (Tx.held tx) d d' → P.pre ℓ d' →
        P.Does me ℓ d' (applyAll ((f (Tx.view tx d')).1.map Subtype.val) d') ∧
        Q (.ok (f (Tx.view tx d')).2) tx
          (applyAll ((f (Tx.view tx d')).1.map Subtype.val) d') := rfl

@[simp] theorem wp_choose {Q : Except E Bool → Option (Tx K W) → D → Prop} :
    wp P me Q (choose : Call L D W K E Bool) tx d =
      ∀ d', P.Rely me (Tx.held tx) d d' → ∀ b, Q (.ok b) tx d' := rfl

@[simp] theorem wp_skipLocked {Q : Except E Bool → Option (Tx K W) → D → Prop} (ℓ : L) (key : K)
    (t : Tx K W) :
    wp P me Q (skipLocked ℓ key) (some t) d =
      ∀ d', P.Rely me t.locks d d' → P.pre ℓ d' →
        Q (.ok false) (some t) d' ∧ Q (.ok true) (some (t.add D { locks := [key] })) d' := rfl

/-- How a transaction block ends: it commits its writes, or drops them. -/
def atEnd (P : Protocol L D) (me : Nat) (label : α → L)
    (Q : Except E α → Option (Tx K W) → D → Prop) :
    Except E α → Option (Tx K W) → D → Prop
  | .ok a, tx, d => ∀ d', P.Rely me (Tx.held tx) d d' → P.pre (label a) d' →
      P.Does me (label a) d' (Tx.view tx d') ∧ Q (.ok a) none (Tx.view tx d')
  | .error e, tx, d => ∀ d', P.Rely me (Tx.held tx) d d' → Q (.error e) none d'

@[simp] theorem atEnd_ok (label : α → L) (Q : Except E α → Option (Tx K W) → D → Prop) (a : α)
    (tx : Option (Tx K W)) (d : D) :
    atEnd P me label Q (.ok a) tx d =
      ∀ d', P.Rely me (Tx.held tx) d d' → P.pre (label a) d' →
        P.Does me (label a) d' (Tx.view tx d') ∧ Q (.ok a) none (Tx.view tx d') := rfl

@[simp] theorem atEnd_error (label : α → L) (Q : Except E α → Option (Tx K W) → D → Prop) (e : E)
    (tx : Option (Tx K W)) (d : D) :
    atEnd P me label Q (.error e) tx d =
      ∀ d', P.Rely me (Tx.held tx) d d' → Q (.error e) none d' := rfl

@[simp] theorem wp_transaction (label : α → L) (body : Call L D W K E α) :
    wp P me Q (transaction label body) tx d =
      ∀ d', P.Rely me (Tx.held tx) d d' → wp P me (atEnd P me label Q) body (some {}) d' := by
  apply propext
  simp only [wp, transaction, ExceptT.run_mk, Store.wp, Store.wp_bind]
  have pointwise : (fun (r : Except E α) (tx : Option (Tx K W)) (d : D) =>
      Store.wp P me Q (finish label r) tx d) = atEnd P me label Q := by
    funext r tx d
    cases r <;> rfl
  refine forall_congr' fun d' => imp_congr_right fun _ => ?_
  exact iff_of_eq (congrArg (fun R => Store.wp P me R body.run (some {}) d') pointwise)

@[simp] theorem wp_attempt {Q : Except E (Except E α) → Option (Tx K W) → D → Prop}
    (body : Call L D W K E α) :
    wp P me Q (attempt body) tx d = wp P me (fun r tx d => Q (.ok r) tx d) body tx d :=
  propext (Store.wp_bind Q body.run _ tx d)

theorem wp_mono {R : Except E α → Option (Tx K W) → D → Prop} {c : Call L D W K E α}
    (stronger : ∀ r tx d, Q r tx d → R r tx d) (holds : wp P me Q c tx d) : wp P me R c tx d :=
  Store.wp_mono stronger _ _ _ holds

/-- A call verified from any store, with no transaction open before or after it. -/
def Safe (P : Protocol L D) (me : Nat) (c : Call L D W K E α) : Prop :=
  ∀ d, wp P me (fun _ tx _ => tx = none) c none d

theorem Safe.bind {c : Call L D W K E α} {f : α → Call L D W K E β} (first : Safe P me c)
    (next : ∀ a, Safe P me (f a)) : Safe P me (c >>= f) := by
  intro d
  rw [wp_bind]
  refine wp_mono ?_ (first d)
  intro r tx d' closed
  subst closed
  cases r with
  | ok a => exact next a d'
  | error e => rfl

end Call

/-! ### Calls that may write anything -/

/-- The protocol without obligations: a call may count on the conditions of the schedule,
and on the store having only moved by writes. -/
def Protocol.free (pre : L → D → Prop) : Protocol L D where
  inv _ := True
  pre := pre
  guar _ _ d d' := ∃ ws : List W, d' = applyAll ws d
  evo _ d d' := ∃ ws : List W, d' = applyAll ws d
  evo_refl _ d := ⟨[], rfl⟩
  evo_trans := by
    rintro _ d _ _ ⟨ws, rfl⟩ ⟨vs, rfl⟩
    exact ⟨ws ++ vs, (applyAll_append ws vs d).symm⟩
  guar_inv _ _ _ _ _ _ := trivial
  guar_evo _ _ _ _ _ _ _ writes := writes

instance (pre : L → D → Prop) : (Protocol.free pre).Lax := ⟨fun _ _ _ => trivial⟩

theorem Protocol.free_does {pre : L → D → Prop} (ℓ : L) (ws : List W) (d : D) :
    (Protocol.free pre).Does me ℓ d (applyAll ws d) :=
  Or.inr ⟨ws, rfl⟩

/-- Nothing is to be shown of a call that may write anything, if it has no postcondition. -/
theorem wp_any {Q : α → Option (Tx K W) → D → Prop} (holds : ∀ a tx d, Q a tx d)
    (free : ∀ ℓ (ws : List W) d, P.inv d → P.Does me ℓ d (applyAll ws d)) (p : Prog L D W K α)
    (tx : Option (Tx K W)) (d : D) : Store.wp P me Q p tx d := by
  induction p generalizing tx d with
  | ret a => exact holds a tx d
  | query ℓ k ih => exact fun d' _ _ => ih _ _ _
  | exec ℓ s k ih =>
    cases tx with
    | none => exact fun d' rely _ => ⟨free ℓ _ d' rely.inv, ih _ _ _⟩
    | some t => exact fun d' _ _ => ih _ _ _
  | emit ℓ ws k ih => exact fun d' rely _ => ⟨free ℓ _ d' rely.inv, ih _ _ _⟩
  | ask k ih => exact fun d' _ b => ih _ _ _
  | tryLock ℓ key k ih => exact fun d' _ _ => ⟨ih _ _ _, ih _ _ _⟩
  | start k ih => exact fun d' _ => ih _ _
  | commit ℓ k ih =>
    refine fun d' rely _ => ⟨?_, ih _ _⟩
    cases tx with
    | none => exact Or.inl rfl
    | some t => exact free ℓ t.writes d' rely.inv
  | abort k ih => exact fun d' _ => ih _ _

theorem wp_free {pre : L → D → Prop} {Q : α → Option (Tx K W) → D → Prop}
    (holds : ∀ a tx d, Q a tx d) (p : Prog L D W K α) (tx : Option (Tx K W)) (d : D) :
    Store.wp (Protocol.free pre) me Q p tx d :=
  wp_any holds (fun ℓ ws d _ => Protocol.free_does ℓ ws d) p tx d

namespace Call

variable {Q : Except E α → Option (Tx K W) → D → Prop} {tx : Option (Tx K W)} {d : D}

/-! ### Bodies of transactions -/

/-- The postcondition of a transaction's body: an error rolls it back, whatever it is. -/
def inTx (Q : α → Tx K W → D → Prop) : Except E α → Option (Tx K W) → D → Prop
  | .ok a, some t, d => Q a t d
  | .ok _, none, _ => False
  | .error _, _, _ => True

omit [RowStore D W K] in
@[simp] theorem inTx_ok (Q : α → Tx K W → D → Prop) (a : α) (t : Tx K W) (d : D) :
    inTx Q (.ok a : Except E α) (some t) d = Q a t d := rfl

/-- Nothing is to be shown of a call that throws. -/
def Drops (Q : Except E α → Option (Tx K W) → D → Prop) : Prop :=
  ∀ e tx d, Q (.error e) tx d

omit [RowStore D W K] in
@[simp] theorem drops_inTx (Q : α → Tx K W → D → Prop) :
    Drops (inTx Q : Except E α → Option (Tx K W) → D → Prop) := fun _ _ _ => trivial

@[simp] theorem drops_andThen {Q : Except E β → Option (Tx K W) → D → Prop} (drops : Drops Q)
    (f : α → Call L D W K E β) : Drops (andThen P me Q f) := drops

section InTx

variable {t : Tx K W}

theorem lock_inTx {ℓ : L} {ks : D → List K} {f : D → α}
    (done : ∀ d' t', P.Rely me t.locks d d' → P.pre ℓ d' → Tx.Grows t t' [] →
      (∀ k ∈ ks (applyAll t.writes d'), k ∈ t'.locks) →
      Q (.ok (f (applyAll t.writes d'))) (some t') d') :
    wp P me Q (lock ℓ ks f) (some t) d := by
  rw [wp_lock]
  intro d' rely pre
  refine done d' _ rely pre (Tx.Grows.add D t _) fun k member => ?_
  exact List.mem_append_right _ (List.mem_append_left _ member)

/-- A statement of a transaction: the rows it writes are locked from then on. -/
theorem stmt_inTx {ℓ : L} {f : D → Except E (List W × α)}
    (done : ∀ d' t' ws a, P.Rely me t.locks d d' → P.pre ℓ d' →
      f (applyAll t.writes d') = .ok (ws, a) → Tx.Grows t t' ws →
      (∀ w ∈ ws, ∀ k ∈ keys D w, k ∈ t'.locks) → Q (.ok a) (some t') d')
    (fails : ∀ d' e, P.Rely me t.locks d d' → P.pre ℓ d' →
      f (applyAll t.writes d') = .error e → Q (.error e) (some t) d') :
    wp P me Q (stmt ℓ f) (some t) d := by
  rw [wp_stmt]
  intro d' rely pre
  cases result : f (applyAll t.writes d') with
  | error e => exact fails d' e rely pre result
  | ok pair =>
    refine done d' _ pair.1 pair.2 rely pre result (Tx.Grows.add D t _) fun w member k inKeys => ?_
    exact List.mem_append_right _ (List.mem_append_right _ (List.mem_flatMap.mpr ⟨w, member, inKeys⟩))

end InTx

/-- A transaction block outside any other: what its body arrives at is to be allowed by the
protocol when it commits, and to lead to the postcondition. -/
theorem transaction_ends {label : α → L} {body : Call L D W K E α}
    (commits : ∀ d', P.Rely me ([] : List K) d d' →
      wp P me (inTx fun a t d => ∀ d', P.Rely me t.locks d d' → P.pre (label a) d' →
        P.Does me (label a) d' (applyAll t.writes d') ∧ Q (.ok a) none (applyAll t.writes d'))
        body (some {}) d')
    (fails : ∀ e d', Q (.error e) none d') :
    wp P me Q (transaction label body) none d := by
  rw [wp_transaction]
  intro d' rely
  refine wp_mono ?_ (commits d' rely)
  intro r tx d'' ended
  cases r with
  | error e => exact fun last _ => fails e last
  | ok a =>
    cases tx with
    | none => cases ended
    | some t => exact ended

/-- The same where nothing is to be known of the store afterwards. -/
theorem transaction_commits {label : α → L} {body : Call L D W K E α}
    (commits : ∀ d', P.Rely me ([] : List K) d d' →
      wp P me (inTx fun a t d => ∀ d', P.Rely me t.locks d d' → P.pre (label a) d' →
        P.Does me (label a) d' (applyAll t.writes d')) body (some {}) d')
    (done : ∀ a d', Q (.ok a) none d') (fails : ∀ e d', Q (.error e) none d') :
    wp P me Q (transaction label body) none d := by
  refine transaction_ends (fun d' rely => wp_mono ?_ (commits d' rely)) fails
  intro r tx d'' ended
  cases r with
  | error e => trivial
  | ok a =>
    cases tx with
    | none => cases ended
    | some t => exact fun last rely pre => ⟨ended last rely pre, done a _⟩

theorem Safe.transaction {label : α → L} {body : Call L D W K E α}
    (commits : ∀ d, wp P me (inTx fun a t d => ∀ d', P.Rely me t.locks d d' → P.pre (label a) d' →
      P.Does me (label a) d' (applyAll t.writes d')) body (some {}) d) :
    Safe P me (transaction label body) :=
  fun _ => transaction_commits (fun d' _ => commits d') (fun _ _ => rfl) fun _ _ => rfl

theorem Safe.attempt {body : Call L D W K E α} (safe : Safe P me body) :
    Safe P me (attempt body) := by
  intro d
  rw [wp_attempt]
  exact wp_mono (fun _ _ _ closed => closed) (safe d)

theorem Safe.pure (a : α) : Safe P me (Pure.pure a : Call L D W K E α) := fun _ => rfl

theorem Safe.throw (e : E) : Safe P me (MonadExcept.throw e : Call L D W K E α) := fun _ => rfl

theorem Safe.read (ℓ : L) (f : D → α) : Safe P me (read ℓ f : Call L D W K E α) :=
  fun _ _ _ _ => rfl

theorem Safe.choose : Safe P me (choose : Call L D W K E Bool) := fun _ _ _ _ => rfl

theorem Safe.send {ℓ : L} {f : D → List (Unlocked D) × α}
    (does : ∀ d, P.inv d → P.pre ℓ d → P.Does me ℓ d (applyAll ((f d).1.map Subtype.val) d)) :
    Safe P me (send ℓ f : Call L D W K E α) :=
  fun _ d' rely pre => ⟨does d' rely.inv pre, rfl⟩

/-- A statement that commits by itself. -/
theorem Safe.stmt {ℓ : L} {f : D → Except E (List W × α)}
    (does : ∀ d ws a, P.inv d → P.pre ℓ d → f d = .ok (ws, a) → P.Does me ℓ d (applyAll ws d)) :
    Safe P me (stmt ℓ f) := by
  intro d
  rw [wp_stmt_alone]
  intro d' rely pre
  cases result : f d' with
  | error e => rfl
  | ok pair => exact ⟨does d' pair.1 pair.2 rely.inv pre result, rfl⟩

/-- `for ... of`: the body on each element in turn. -/
def each (xs : List α) (body : α → Call L D W K E Unit) : Call L D W K E Unit :=
  match xs with
  | [] => pure ()
  | x :: rest => do
    body x
    each rest body

theorem Safe.each {xs : List α} {body : α → Call L D W K E Unit}
    (body_safe : ∀ x, Safe P me (body x)) : Safe P me (each xs body) := by
  induction xs with
  | nil => exact fun d => rfl
  | cons x rest ih => exact (body_safe x).bind fun _ => ih

/-! ### Calls with a result -/

/-- No transaction is open, and a normal result meets `post`. -/
def ends (post : α → D → Prop) (r : Except E α) (tx : Option (Tx K W)) (d : D) : Prop :=
  tx = none ∧ ∀ a, r = .ok a → post a d

/-- A call that keeps to the protocol from the store `d` on, with what it has achieved when it
returns normally. -/
def YieldsFrom (P : Protocol L D) (me : Nat) (d : D) (c : Call L D W K E α) (post : α → D → Prop) :
    Prop :=
  wp P me (ends post) c none d

namespace YieldsFrom

variable {c : Call L D W K E α} {post : α → D → Prop}

theorem bind {f : α → Call L D W K E β} (first : α → D → Prop) {post : β → D → Prop}
    (yields : YieldsFrom P me d c first)
    (next : ∀ a d, first a d → YieldsFrom P me d (f a) post) : YieldsFrom P me d (c >>= f) post := by
  rw [YieldsFrom, wp_bind]
  refine wp_mono ?_ yields
  rintro (e | a) tx d ⟨rfl, holds⟩
  · exact ⟨rfl, by rintro a ⟨⟩⟩
  · exact next a d (holds a rfl)

theorem attempt (yields : YieldsFrom P me d c post) :
    YieldsFrom P me d (Call.attempt c) (fun r d => ∀ a, r = .ok a → post a d) := by
  rw [YieldsFrom, wp_attempt]
  refine wp_mono ?_ yields
  rintro r tx d ⟨rfl, holds⟩
  refine ⟨rfl, ?_⟩
  rintro _ ⟨⟩
  exact holds

theorem pure {a : α} (holds : post a d) :
    YieldsFrom P me d (Pure.pure a : Call L D W K E α) post := by
  refine ⟨rfl, ?_⟩
  rintro _ ⟨⟩
  exact holds

theorem throw (e : E) (post : α → D → Prop) :
    YieldsFrom P me d (MonadExcept.throw e : Call L D W K E α) post :=
  ⟨rfl, by rintro _ ⟨⟩⟩

theorem read {ℓ : L} {f : D → α}
    (holds : ∀ d', P.Rely me ([] : List K) d d' → P.pre ℓ d' → post (f d') d') :
    YieldsFrom P me d (Call.read ℓ f : Call L D W K E α) post := by
  intro d' rely pre
  refine ⟨rfl, ?_⟩
  rintro _ ⟨⟩
  exact holds d' rely pre

theorem choose {post : Bool → D → Prop}
    (holds : ∀ d' b, P.Rely me ([] : List K) d d' → post b d') :
    YieldsFrom P me d (Call.choose : Call L D W K E Bool) post := by
  intro d' rely b
  refine ⟨rfl, ?_⟩
  rintro _ ⟨⟩
  exact holds d' b rely

theorem send {ℓ : L} {f : D → List (Unlocked D) × α}
    (does : ∀ d', P.Rely me ([] : List K) d d' → P.pre ℓ d' →
      P.Does me ℓ d' (applyAll ((f d').1.map Subtype.val) d') ∧
      post (f d').2 (applyAll ((f d').1.map Subtype.val) d')) :
    YieldsFrom P me d (Call.send ℓ f : Call L D W K E α) post := by
  intro d' rely pre
  obtain ⟨done, holds⟩ := does d' rely pre
  refine ⟨done, rfl, ?_⟩
  rintro _ ⟨⟩
  exact holds

/-- A statement that commits by itself. -/
theorem stmt {ℓ : L} {f : D → Except E (List W × α)}
    (does : ∀ d' ws a, P.Rely me ([] : List K) d d' → P.pre ℓ d' → f d' = .ok (ws, a) →
      P.Does me ℓ d' (applyAll ws d') ∧ post a (applyAll ws d')) :
    YieldsFrom P me d (Call.stmt ℓ f) post := by
  rw [YieldsFrom, wp_stmt_alone]
  intro d' rely pre
  cases result : f d' with
  | error e => exact ⟨rfl, by rintro _ ⟨⟩⟩
  | ok pair =>
    obtain ⟨done, holds⟩ := does d' pair.1 pair.2 rely pre result
    refine ⟨done, rfl, ?_⟩
    rintro _ ⟨⟩
    exact holds

theorem mono {weaker : α → D → Prop} (yields : YieldsFrom P me d c post)
    (implies : ∀ a d, post a d → weaker a d) : YieldsFrom P me d c weaker := by
  refine wp_mono ?_ yields
  rintro r tx d ⟨closed, holds⟩
  exact ⟨closed, fun a ok => implies a d (holds a ok)⟩

end YieldsFrom

/-! ### Calls that know something -/

/-- A call verified from the stores of which `R` holds, where `R` still holds when it ends. -/
def SafeUnder (P : Protocol L D) (me : Nat) (R : D → Prop) (c : Call L D W K E α) : Prop :=
  ∀ d, R d → wp P me (fun _ tx d => tx = none ∧ R d) c none d

namespace SafeUnder

variable {R : D → Prop}

/-- What neither the others nor the call itself may undo is known throughout a call. -/
theorem of_safe {c : Call L D W K E α}
    (stable : ∀ (locked : List K) d d', P.Rely me locked d d' → R d → R d')
    (kept : ∀ ℓ d d', P.inv d → P.guar me ℓ d d' → R d → R d') (safe : Safe P me c) :
    SafeUnder P me R c :=
  fun d known => wp_frame stable kept c.run none d known (safe d)

theorem safe {c : Call L D W K E α} (under : SafeUnder P me R c) {d : D} (known : R d) :
    wp P me (fun _ tx _ => tx = none) c none d :=
  wp_mono (fun _ _ _ ended => ended.1) (under d known)

theorem pure (a : α) : SafeUnder P me R (Pure.pure a : Call L D W K E α) :=
  fun _ known => ⟨rfl, known⟩

theorem throw (e : E) : SafeUnder P me R (MonadExcept.throw e : Call L D W K E α) :=
  fun _ known => ⟨rfl, known⟩

theorem bind {c : Call L D W K E α} {f : α → Call L D W K E β} (first : SafeUnder P me R c)
    (next : ∀ a, SafeUnder P me R (f a)) : SafeUnder P me R (c >>= f) := by
  intro d known
  rw [wp_bind]
  refine wp_mono ?_ (first d known)
  rintro r tx d' ⟨rfl, known'⟩
  cases r with
  | ok a => exact next a d' known'
  | error e => exact ⟨rfl, known'⟩

theorem attempt {body : Call L D W K E α} (under : SafeUnder P me R body) :
    SafeUnder P me R (Call.attempt body) := by
  intro d known
  rw [wp_attempt]
  exact under d known

end SafeUnder

end Call

end Store
