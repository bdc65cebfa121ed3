import LabourBaba.Store.Footprint
import Mathlib

/-!
# Journals

The journal of a run lists the labelled statements in the order in which they were issued,
each with the call that issued it and the committed store it met. `Prog.traced` follows one
call against any stores that may come after those it has met: what is asserted of each
statement, given what the call has issued before it, and of the result, given all it has
issued. A call that meets its assertions there meets them in every run (`Records.follows`).
-/
namespace Store

variable {L D W K Op α β : Type} [RowStore D W K]

/-- A statement that was issued, and the operation of its call. -/
structure Entry (L D Op : Type) where
  call : Nat
  op : Op
  label : L
  store : D

/-- The statements of one call, with the stores they met. -/
def ownTrace (journal : List (Entry L D Op)) (i : Nat) : List (L × D) :=
  (journal.filter fun e => decide (e.call = i)).map fun e => (e.label, e.store)

theorem ownTrace_append (journal more : List (Entry L D Op)) (i : Nat) :
    ownTrace (journal ++ more) i = ownTrace journal i ++ ownTrace more i := by
  simp [ownTrace]

theorem ownTrace_self (e : Entry L D Op) : ownTrace [e] e.call = [(e.label, e.store)] := by
  simp [ownTrace]

theorem ownTrace_other {e : Entry L D Op} {i : Nat} (other : e.call ≠ i) : ownTrace [e] i = [] := by
  simp [ownTrace, other]

theorem mem_ownTrace {journal : List (Entry L D Op)} {i : Nat} {ℓ : L} {d : D} :
    (ℓ, d) ∈ ownTrace journal i ↔ ∃ op, ⟨i, op, ℓ, d⟩ ∈ journal := by
  constructor
  · intro member
    obtain ⟨⟨j, op, ℓ', d'⟩, inside, same⟩ := List.mem_map.mp member
    obtain ⟨stored, mine⟩ := List.mem_filter.mp inside
    obtain rfl : j = i := of_decide_eq_true mine
    cases same
    exact ⟨op, stored⟩
  · rintro ⟨op, member⟩
    exact List.mem_map.mpr ⟨_, List.mem_filter.mpr ⟨member, decide_eq_true rfl⟩, rfl⟩

/-- A call that is not yet known has issued nothing. -/
theorem ownTrace_eq_nil {journal : List (Entry L D Op)} {n : Nat}
    (known : ∀ e ∈ journal, e.call < n) : ownTrace journal n = [] := by
  refine List.eq_nil_iff_forall_not_mem.mpr fun ⟨ℓ, d⟩ member => ?_
  obtain ⟨op, member⟩ := mem_ownTrace.mp member
  exact Nat.lt_irrefl _ (known _ member)

/-- The last statement of a call splits the journal: the call has issued nothing after it. -/
theorem split_of_last {journal : List (Entry L D Op)} {i : Nat} {ℓ : L} {d : D}
    (last : (ownTrace journal i).getLast? = some (ℓ, d)) :
    ∃ before op after, journal = before ++ ⟨i, op, ℓ, d⟩ :: after ∧
      ownTrace journal i = ownTrace before i ++ [(ℓ, d)] := by
  induction journal using List.reverseRecOn with
  | nil => cases last
  | append_singleton journal e ih =>
    rw [ownTrace_append] at last ⊢
    by_cases mine : e.call = i
    · subst mine
      rw [ownTrace_self, List.getLast?_concat] at last
      cases last
      exact ⟨journal, e.op, [], rfl, by rw [ownTrace_self]⟩
    · rw [ownTrace_other mine, List.append_nil] at last ⊢
      obtain ⟨before, op, after, split, own⟩ := ih last
      exact ⟨before, op, after ++ [e], by rw [split]; simp, own⟩

/-! ### One call against any stores -/

/-- The writes that a statement commits by itself: those of an open transaction wait. -/
def Tx.immediate (tx : Option (Tx K W)) (ws : List W) : List W :=
  match tx with
  | none => ws
  | some _ => []

/-- The writes that a commit publishes. -/
def Tx.pending (tx : Option (Tx K W)) : List W :=
  match tx with
  | none => []
  | some t => t.writes

/-- Against stores that may come next by `G`, each statement that the call may still issue
meets `A`, which also looks at what it writes to the store, and each result meets `Q`. -/
def Prog.traced (G : List (L × D) → D → Prop) (A : L → List (L × D) → D → List W → Prop)
    (Q : α → Option (Tx K W) → List (L × D) → Prop) :
    Prog L D W K α → Option (Tx K W) → List (L × D) → Prop
  | .ret a, tx, seen => Q a tx seen
  | .query ℓ k, tx, seen => ∀ d, G seen d → A ℓ seen d [] ∧
      (k (Tx.view tx d)).traced G A Q tx (seen ++ [(ℓ, d)])
  | .exec ℓ s k, tx, seen => ∀ d, G seen d →
      A ℓ seen d (Tx.immediate tx (s (Tx.view tx d)).writes) ∧
      (k (Tx.view tx d)).traced G A Q (tx.map fun t => t.add D (s (Tx.view tx d)))
        (seen ++ [(ℓ, d)])
  | .emit ℓ ws k, tx, seen => ∀ d, G seen d →
      A ℓ seen d ((ws (Tx.view tx d)).map Subtype.val) ∧
      (k (Tx.view tx d)).traced G A Q tx (seen ++ [(ℓ, d)])
  | .ask k, tx, seen => ∀ b, (k b).traced G A Q tx seen
  | .tryLock ℓ key k, tx, seen => ∀ d, G seen d → A ℓ seen d [] ∧
      (k false).traced G A Q tx (seen ++ [(ℓ, d)]) ∧
        (k true).traced G A Q (tx.map fun t => t.add D { locks := [key] }) (seen ++ [(ℓ, d)])
  | .start k, _, seen => k.traced G A Q (some {}) seen
  | .commit ℓ k, tx, seen => ∀ d, G seen d → A ℓ seen d (Tx.pending tx) ∧
      k.traced G A Q none (seen ++ [(ℓ, d)])
  | .abort k, _, seen => k.traced G A Q none seen

section Traced

variable {G : List (L × D) → D → Prop} {A : L → List (L × D) → D → List W → Prop}

theorem Prog.traced_bind {Q : β → Option (Tx K W) → List (L × D) → Prop} (p : Prog L D W K α)
    (f : α → Prog L D W K β) (tx : Option (Tx K W)) (seen : List (L × D)) :
    (p.bind f).traced G A Q tx seen ↔
      p.traced G A (fun a tx seen => (f a).traced G A Q tx seen) tx seen := by
  induction p generalizing tx seen with
  | ret a => rfl
  | query ℓ k ih | exec ℓ s k ih | emit ℓ ws k ih | ask k ih | tryLock ℓ key k ih | start k ih
  | commit ℓ k ih | abort k ih => simp only [Prog.bind, Prog.traced, ih]

theorem Prog.traced_mono {Q R : α → Option (Tx K W) → List (L × D) → Prop}
    (stronger : ∀ a tx seen, Q a tx seen → R a tx seen) (p : Prog L D W K α)
    (tx : Option (Tx K W)) (seen : List (L × D)) (holds : p.traced G A Q tx seen) :
    p.traced G A R tx seen := by
  induction p generalizing tx seen with
  | ret a => exact stronger a tx seen holds
  | query ℓ k ih => exact fun d next => (holds d next).imp id (ih _ _ _)
  | exec ℓ s k ih => exact fun d next => (holds d next).imp id (ih _ _ _)
  | emit ℓ ws k ih => exact fun d next => (holds d next).imp id (ih _ _ _)
  | ask k ih => exact fun b => ih _ _ _ (holds b)
  | tryLock ℓ key k ih =>
    exact fun d next => (holds d next).imp id fun rest => rest.imp (ih _ _ _) (ih _ _ _)
  | start k ih => exact ih _ _ holds
  | commit ℓ k ih => exact fun d next => (holds d next).imp id (ih _ _)
  | abort k ih => exact ih _ _ holds

/-- What is asserted of the statement that comes next. -/
theorem Prog.traced_label {Q : α → Option (Tx K W) → List (L × D) → Prop} {p : Prog L D W K α}
    {tx : Option (Tx K W)} {seen : List (L × D)} {ℓ : L} {d : D} (label : p.label = some ℓ)
    (fits : G seen d) (holds : p.traced G A Q tx seen) : ∃ ws, A ℓ seen d ws := by
  cases p with
  | query _ k | exec _ s k | emit _ ws k | tryLock _ key k | commit _ k =>
    obtain rfl := Option.some.inj label
    exact ⟨_, (holds d fits).1⟩
  | ret _ | ask _ | start _ | abort _ => cases label

/-- Nothing is to be shown of a call of which nothing is asserted. -/
theorem Prog.traced_any {Q : α → Option (Tx K W) → List (L × D) → Prop}
    (asserted : ∀ ℓ seen d ws, A ℓ seen d ws) (holds : ∀ a tx seen, Q a tx seen)
    (p : Prog L D W K α) (tx : Option (Tx K W)) (seen : List (L × D)) :
    p.traced G A Q tx seen := by
  induction p generalizing tx seen with
  | ret a => exact holds a tx seen
  | query ℓ k ih => exact fun d _ => ⟨asserted _ _ _ _, ih _ _ _⟩
  | exec ℓ s k ih => exact fun d _ => ⟨asserted _ _ _ _, ih _ _ _⟩
  | emit ℓ ws k ih => exact fun d _ => ⟨asserted _ _ _ _, ih _ _ _⟩
  | ask k ih => exact fun b => ih _ _ _
  | tryLock ℓ key k ih => exact fun d _ => ⟨asserted _ _ _ _, ih _ _ _, ih _ _ _⟩
  | start k ih => exact ih _ _
  | commit ℓ k ih => exact fun d _ => ⟨asserted _ _ _ _, ih _ _⟩
  | abort k ih => exact ih _ _

/-- A call whose writes come under labels of some kind. -/
theorem Prog.traced_of_emits {ok : W → Prop} {named : L → Prop}
    {Q : α → Option (Tx K W) → List (L × D) → Prop}
    (asserted : ∀ ℓ seen d ws, ws = [] ∨ named ℓ → A ℓ seen d ws) (holds : ∀ a tx seen, Q a tx seen)
    {p : Prog L D W K α} {last : Bool} {tx : Option (Tx K W)}
    (emits : p.Emits ok named last tx.isSome) (seen : List (L × D)) : p.traced G A Q tx seen := by
  induction p generalizing tx seen with
  | ret a => exact holds a tx seen
  | query ℓ k ih => exact fun d _ => ⟨asserted _ _ _ _ (Or.inl rfl), ih _ (emits _) _⟩
  | exec ℓ s k ih =>
    intro d _
    cases tx with
    | none =>
      have known : named ℓ := emits.1.resolve_left (by simp)
      exact ⟨asserted _ _ _ _ (Or.inr known), ih _ (emits.2 _).2 _⟩
    | some t =>
      have rest : (k (Tx.view (some t) d)).Emits ok named last
          (some (t.add D (s (Tx.view (some t) d)))).isSome := (emits.2 _).2
      exact ⟨asserted _ _ _ _ (Or.inl rfl), ih _ rest _⟩
  | emit ℓ ws k ih => exact fun d _ => ⟨asserted _ _ _ _ (Or.inr emits.1), ih _ (emits.2 _).2 _⟩
  | ask k ih => exact fun b => ih _ (emits b) _
  | tryLock ℓ key k ih =>
    refine fun d _ => ⟨asserted _ _ _ _ (Or.inl rfl), ih _ (emits false) _, ih _ ?_ _⟩
    simpa using emits true
  | start k ih =>
    have rest : k.Emits ok named last (some ({} : Tx K W)).isSome := emits
    exact ih rest _
  | commit ℓ k ih =>
    have rest : k.Emits ok named last (none : Option (Tx K W)).isSome := emits.2
    exact fun d _ => ⟨asserted _ _ _ _ (Or.inr emits.1), ih rest _⟩
  | abort k ih =>
    have rest : k.Emits ok named last (none : Option (Tx K W)).isSome := emits
    exact ih rest _

/-- One statement of a call: its label is asserted of what it writes, and the rest stays so. -/
structure Prog.Issued (A : L → List (L × D) → D → List W → Prop) (ℓ : Option L)
    (seen : List (L × D)) (d d' : D) : Prop where
  labelled : ∀ m, ℓ = some m → ∃ ws : List W, d' = applyAll ws d ∧ A m seen d ws
  unlabelled : ℓ = none → d' = d

theorem Prog.traced_advance [DecidableEq K] {Q : α → List (L × D) → Prop} {others : List K}
    {d d' : D} {answer : Bool} {th th' : Thread L D W K Op α} {seen : List (L × D)}
    (fits : G seen d) (holds : th.prog.traced G A (fun a _ => Q a) th.tx seen)
    (advanced : advance others d answer th = some (d', th')) :
    Prog.Issued A th.prog.label seen d d' ∧
      th'.prog.traced G A (fun a _ => Q a) th'.tx
        (seen ++ (th.prog.label.map fun ℓ => (ℓ, d)).toList) := by
  obtain ⟨op, prog, tx, live⟩ := th
  have quiet : ∀ {rest : Prog L D W K α} {tx : Option (Tx K W)},
      rest.traced G A (fun a _ => Q a) tx seen →
      rest.traced G A (fun a _ => Q a) tx (seen ++ (none : Option (L × D)).toList) := by
    intro rest tx traced
    rwa [Option.toList_none, List.append_nil]
  cases prog with
  | ret a => cases advanced
  | query ℓ k =>
    cases advanced
    obtain ⟨asserted, rest⟩ := holds d fits
    exact ⟨⟨by rintro _ ⟨⟩; exact ⟨[], rfl, asserted⟩, by simp [Prog.label]⟩, rest⟩
  | exec ℓ s k =>
    simp only [advance] at advanced
    split at advanced
    · cases advanced
    · obtain ⟨asserted, rest⟩ := holds d fits
      cases tx with
      | none =>
        cases advanced
        exact ⟨⟨by rintro _ ⟨⟩; exact ⟨_, rfl, asserted⟩, by simp [Prog.label]⟩, rest⟩
      | some t =>
        cases advanced
        exact ⟨⟨by rintro _ ⟨⟩; exact ⟨[], rfl, asserted⟩, by simp [Prog.label]⟩, rest⟩
  | emit ℓ ws k =>
    cases advanced
    obtain ⟨asserted, rest⟩ := holds d fits
    exact ⟨⟨by rintro _ ⟨⟩; exact ⟨_, rfl, asserted⟩, by simp [Prog.label]⟩, rest⟩
  | ask k =>
    cases advanced
    exact ⟨⟨by simp [Prog.label], fun _ => rfl⟩, quiet (holds answer)⟩
  | tryLock ℓ key k =>
    obtain ⟨asserted, denied, granted⟩ := holds d fits
    simp only [advance] at advanced
    split at advanced
    · cases advanced
      exact ⟨⟨by rintro _ ⟨⟩; exact ⟨[], rfl, asserted⟩, by simp [Prog.label]⟩, denied⟩
    · cases advanced
      exact ⟨⟨by rintro _ ⟨⟩; exact ⟨[], rfl, asserted⟩, by simp [Prog.label]⟩, granted⟩
  | start k =>
    cases advanced
    exact ⟨⟨by simp [Prog.label], fun _ => rfl⟩, quiet holds⟩
  | commit ℓ k =>
    cases advanced
    obtain ⟨asserted, rest⟩ := holds d fits
    refine ⟨⟨?_, by simp [Prog.label]⟩, rest⟩
    rintro _ ⟨⟩
    cases tx with
    | none => exact ⟨[], rfl, asserted⟩
    | some t => exact ⟨t.writes, rfl, asserted⟩
  | abort k =>
    cases advanced
    exact ⟨⟨by simp [Prog.label], fun _ => rfl⟩, quiet holds⟩

end Traced

namespace Call

variable {E : Type} {G : List (L × D) → D → Prop} {A : L → List (L × D) → D → List W → Prop}
  {tx : Option (Tx K W)} {seen : List (L × D)}

/-- The same for a call that may throw. -/
def traced (G : List (L × D) → D → Prop) (A : L → List (L × D) → D → List W → Prop)
    (Q : Except E α → Option (Tx K W) → List (L × D) → Prop)
    (c : Call L D W K E α) (tx : Option (Tx K W)) (seen : List (L × D)) : Prop :=
  c.run.traced G A Q tx seen

variable {Q : Except E α → Option (Tx K W) → List (L × D) → Prop}

/-- The first of two calls in sequence. -/
def tracedThen (G : List (L × D) → D → Prop) (A : L → List (L × D) → D → List W → Prop)
    (Q : Except E β → Option (Tx K W) → List (L × D) → Prop) (f : α → Call L D W K E β) :
    Except E α → Option (Tx K W) → List (L × D) → Prop
  | .ok a, tx, seen => traced G A Q (f a) tx seen
  | .error e, tx, seen => Q (.error e) tx seen

theorem traced_bind {Q : Except E β → Option (Tx K W) → List (L × D) → Prop}
    (c : Call L D W K E α) (f : α → Call L D W K E β) :
    traced G A Q (c >>= f) tx seen = traced G A (tracedThen G A Q f) c tx seen := by
  have sequenced : (c >>= f).run = c.run.bind (ExceptT.bindCont f) := rfl
  apply propext
  rw [traced, sequenced, Prog.traced_bind, traced]
  have pointwise : (fun r tx seen => (ExceptT.bindCont f r).traced G A Q tx seen) =
      tracedThen G A Q f := by
    funext r tx seen
    cases r <;> rfl
  exact iff_of_eq (congrArg (fun R => Prog.traced G A R c.run tx seen) pointwise)

theorem traced_mono {R : Except E α → Option (Tx K W) → List (L × D) → Prop}
    {c : Call L D W K E α} (stronger : ∀ r tx seen, Q r tx seen → R r tx seen)
    (holds : traced G A Q c tx seen) : traced G A R c tx seen :=
  Prog.traced_mono stronger _ _ _ holds

/-! ### Calls outside a transaction -/

/-- What a call does with no transaction open before or after it. -/
def Issues (G : List (L × D) → D → Prop) (A : L → List (L × D) → D → List W → Prop)
    (seen : List (L × D)) (c : Call L D W K E α) (Q : Except E α → List (L × D) → Prop) : Prop :=
  traced G A (fun r tx seen => tx = none ∧ Q r seen) c none seen

/-- What a statement writes, if it does not fail. -/
def written : Except E (List W × α) → List W
  | .ok (ws, _) => ws
  | .error _ => []

/-- A statement, inside a transaction or by itself. -/
theorem traced_stmt {ℓ : L} {f : D → Except E (List W × α)}
    (holds : ∀ d, G seen d → A ℓ seen d (Tx.immediate tx (written (f (Tx.view tx d)))) ∧
      Q ((f (Tx.view tx d)).map Prod.snd)
        (tx.map fun t => t.add D { writes := written (f (Tx.view tx d)) }) (seen ++ [(ℓ, d)])) :
    traced G A Q (stmt ℓ f) tx seen := by
  intro d next
  obtain ⟨asserted, rest⟩ := holds d next
  dsimp only
  cases result : f (Tx.view tx d) <;> rw [result] at asserted rest <;> exact ⟨asserted, rest⟩

/-- What is left to show where a transaction ends: of the commit, or of the error. -/
def tracedEnd (G : List (L × D) → D → Prop) (A : L → List (L × D) → D → List W → Prop)
    (label : α → L) (Q : Except E α → List (L × D) → Prop) :
    Except E α → Option (Tx K W) → List (L × D) → Prop
  | .ok a, tx, seen => ∀ d, G seen d →
      A (label a) seen d (Tx.pending tx) ∧ Q (.ok a) (seen ++ [(label a, d)])
  | .error e, _, seen => Q (.error e) seen

namespace Issues

variable {Q : Except E α → List (L × D) → Prop}

theorem transaction {label : α → L} {body : Call L D W K E α}
    (holds : traced G A (tracedEnd G A label Q) body (some {}) seen) :
    Issues G A seen (Call.transaction label body) Q := by
  refine (Prog.traced_bind body.run _ (some {}) seen).mpr (Prog.traced_mono ?_ _ _ _ holds)
  rintro (e | a) tx seen ended
  · exact ⟨rfl, ended⟩
  · exact fun d next => ⟨(ended d next).1, rfl, (ended d next).2⟩

theorem pure {a : α} (holds : Q (.ok a) seen) :
    Issues G A seen (Pure.pure a : Call L D W K E α) Q :=
  ⟨rfl, holds⟩

theorem throw {e : E} (holds : Q (.error e) seen) :
    Issues G A seen (MonadExcept.throw e : Call L D W K E α) Q :=
  ⟨rfl, holds⟩

theorem mono {R : Except E α → List (L × D) → Prop} {c : Call L D W K E α}
    (issues : Issues G A seen c Q) (stronger : ∀ r seen, Q r seen → R r seen) :
    Issues G A seen c R :=
  traced_mono (fun r _ seen holds => ⟨holds.1, stronger r seen holds.2⟩) issues

theorem bind {R : Except E β → List (L × D) → Prop} {c : Call L D W K E α}
    {f : α → Call L D W K E β} (first : Issues G A seen c Q)
    (next : ∀ a seen, Q (.ok a) seen → Issues G A seen (f a) R)
    (fails : ∀ e seen, Q (.error e) seen → R (.error e) seen) : Issues G A seen (c >>= f) R := by
  rw [Issues, traced_bind]
  refine traced_mono ?_ first
  rintro (e | a) tx seen ⟨rfl, holds⟩
  · exact ⟨rfl, fails e seen holds⟩
  · exact next a seen holds

theorem attempt {c : Call L D W K E α} {R : Except E (Except E α) → List (L × D) → Prop}
    (issues : Issues G A seen c fun r seen => R (.ok r) seen) :
    Issues G A seen (Call.attempt c) R :=
  (Prog.traced_bind c.run _ none seen).mpr issues

theorem read {ℓ : L} {f : D → α}
    (holds : ∀ d, G seen d → A ℓ seen d [] ∧ Q (.ok (f d)) (seen ++ [(ℓ, d)])) :
    Issues G A seen (Call.read ℓ f : Call L D W K E α) Q :=
  fun d next => ⟨(holds d next).1, rfl, (holds d next).2⟩

theorem stmt {ℓ : L} {f : D → Except E (List W × α)}
    (holds : ∀ d, G seen d →
      A ℓ seen d (written (f d)) ∧ Q ((f d).map Prod.snd) (seen ++ [(ℓ, d)])) :
    Issues G A seen (Call.stmt ℓ f) Q :=
  traced_stmt fun d next => ⟨(holds d next).1, rfl, (holds d next).2⟩

theorem send {ℓ : L} {f : D → List (Unlocked D) × α}
    (holds : ∀ d, G seen d →
      A ℓ seen d ((f d).1.map Subtype.val) ∧ Q (.ok (f d).2) (seen ++ [(ℓ, d)])) :
    Issues G A seen (Call.send ℓ f : Call L D W K E α) Q :=
  fun d next => ⟨(holds d next).1, rfl, (holds d next).2⟩

theorem choose {Q : Except E Bool → List (L × D) → Prop} (holds : ∀ b, Q (.ok b) seen) :
    Issues G A seen (Call.choose : Call L D W K E Bool) Q :=
  fun b => ⟨rfl, holds b⟩

end Issues

end Call

/-! ### The journal of a run -/

namespace Pool

/-- What the event adds to the journal. -/
def entry (p : Pool L D W K Op α) : Event Op → Option (Entry L D Op)
  | .run i _ => p.threads[i]?.bind fun th => th.prog.label.map fun ℓ => ⟨i, th.op, ℓ, p.db⟩
  | _ => none

section Steps

variable [DecidableEq K] (sys : Nat → Op → Prog L D W K α)
  (ok : Pool L D W K Op α → List (Entry L D Op) → Event Op → Prop) (init : Pool L D W K Op α)

/-- The pools reached from `init` by events that each meet `ok`, which may look at the journal,
with the journal. -/
inductive Records : Pool L D W K Op α → List (Entry L D Op) → Prop
  | refl : Records init []
  | step {p q : Pool L D W K Op α} {journal : List (Entry L D Op)} (e : Event Op)
      (before : Records p journal) (allowed : ok p journal e) (stepped : p.step sys e = some q) :
      Records q (journal ++ (p.entry e).toList)

variable {sys ok init} {p q : Pool L D W K Op α} {journal : List (Entry L D Op)}

theorem Records.reaches {ok' : Pool L D W K Op α → Event Op → Prop}
    (weaker : ∀ q journal e, ok q journal e → ok' q e) (records : Records sys ok init p journal) :
    Reaches sys ok' init p := by
  induction records with
  | refl => exact .refl
  | step e _ allowed stepped ih => exact .step e ih (weaker _ _ e allowed) stepped

/-- Every pool that is reached has a journal. -/
theorem Reaches.records {ok : Pool L D W K Op α → Event Op → Prop}
    (reached : Reaches sys ok init p) :
    ∃ journal, Records sys (fun q _ e => ok q e) init p journal := by
  induction reached with
  | refl => exact ⟨[], .refl⟩
  | step e _ allowed stepped ih =>
    obtain ⟨journal, records⟩ := ih
    exact ⟨_, .step e records allowed stepped⟩

/-- The writes that the next statement of a call publishes. -/
def publishes (d : D) (th : Thread L D W K Op α) : List W :=
  match th.prog, th.tx with
  | .exec _ s _, none => (s d).writes
  | .emit _ ws _, tx => (ws (Tx.view tx d)).map Subtype.val
  | .commit _ _, some t => t.writes
  | _, _ => []

/-- The writes that an event publishes. -/
def published (p : Pool L D W K Op α) : Event Op → List W
  | .run i _ => (p.threads[i]?.map (publishes p.db)).getD []
  | _ => []

/-- An event changes the store by the writes it publishes. -/
theorem published_of_step {e : Event Op} (stepped : p.step sys e = some q) :
    q.db = applyAll (p.published e) p.db := by
  cases e with
  | spawn op =>
    obtain rfl := Option.some.inj stepped
    rfl
  | run j answer =>
    simp only [Pool.step, Option.bind_eq_bind, Option.bind_eq_some_iff] at stepped
    obtain ⟨⟨op, prog, tx, live⟩, found, stepped⟩ := stepped
    rw [published, found, Option.map_some, Option.getD_some]
    split at stepped
    · obtain ⟨⟨d', th'⟩, advanced, after⟩ := Option.bind_eq_some_iff.mp stepped
      obtain rfl := Option.some.inj after
      cases prog with
      | ret a => cases advanced
      | query ℓ k | ask k | start k | abort k =>
        cases advanced
        rfl
      | exec ℓ s k =>
        simp only [advance] at advanced
        split at advanced
        · cases advanced
        · cases tx <;> cases advanced <;> rfl
      | emit ℓ ws k =>
        cases advanced
        rfl
      | tryLock ℓ key k =>
        simp only [advance] at advanced
        split at advanced <;> cases advanced <;> rfl
      | commit ℓ k =>
        cases advanced
        cases tx <;> rfl
    · cases stepped
  | crash j =>
    simp only [Pool.step, Option.bind_eq_bind, Option.bind_eq_some_iff] at stepped
    obtain ⟨th, -, after⟩ := stepped
    obtain rfl := Option.some.inj after
    rfl

/-- What the journal has recorded became the present store by writes. -/
theorem Records.stores (records : Records sys ok init p journal) :
    ∀ e ∈ journal, ∃ ws : List W, p.db = applyAll ws e.store := by
  induction records with
  | refl => simp
  | @step p q journal e before allowed stepped ih =>
    have after := published_of_step stepped
    intro entry member
    rcases List.mem_append.mp member with member | member
    · obtain ⟨ws, same⟩ := ih entry member
      exact ⟨ws ++ p.published e, by rw [after, same, applyAll_append]⟩
    · cases e with
      | run i answer =>
        obtain ⟨th, -, member⟩ := Option.bind_eq_some_iff.mp (Option.mem_toList.mp member)
        obtain ⟨ℓ, -, rfl⟩ := Option.map_eq_some_iff.mp member
        exact ⟨_, after⟩
      | spawn op | crash i => cases member

/-- An entry names the operation of its call. -/
theorem Records.caller (records : Records sys ok init p journal) :
    ∀ e ∈ journal, ∃ th, p.threads[e.call]? = some th ∧ th.op = e.op := by
  induction records with
  | refl => simp
  | @step p q journal event before allowed stepped ih =>
    intro entry member
    have earlier : ∃ th, p.threads[entry.call]? = some th ∧ th.op = entry.op := by
      rcases List.mem_append.mp member with member | member
      · exact ih entry member
      · cases event with
        | run i answer =>
          obtain ⟨th, found, member⟩ := Option.bind_eq_some_iff.mp (Option.mem_toList.mp member)
          obtain ⟨ℓ, -, rfl⟩ := Option.map_eq_some_iff.mp member
          exact ⟨th, found, rfl⟩
        | spawn op | crash i => cases member
    obtain ⟨th, found, same⟩ := earlier
    obtain ⟨th', found', same'⟩ := op_of_step stepped found
    exact ⟨th', found', same'.trans same⟩

/-- A call that is at work after an event was so before it, unless it was just started. -/
theorem running_of_step {e : Event Op} {i : Nat} {th : Thread L D W K Op α}
    (stepped : p.step sys e = some q) (found : q.threads[i]? = some th) (live : th.live = true)
    (running : th.prog.returned = none) : i = p.threads.length ∨
      ∃ th₀, p.threads[i]? = some th₀ ∧ th₀.op = th.op ∧ th₀.live = true ∧
        th₀.prog.returned = none := by
  cases before : p.threads[i]? with
  | none =>
    cases e with
    | spawn op =>
      obtain rfl := Option.some.inj stepped
      rcases getElem?_concat found with found | ⟨new, -⟩
      · rw [before] at found
        cases found
      · exact Or.inl new
    | run j answer =>
      -- no other event adds a call
      have short := List.getElem?_eq_none_iff.mp before
      simp only [Pool.step, Option.bind_eq_bind, Option.bind_eq_some_iff] at stepped
      obtain ⟨th₀, -, stepped⟩ := stepped
      split at stepped
      · obtain ⟨⟨d', th'⟩, -, after⟩ := Option.bind_eq_some_iff.mp stepped
        obtain rfl := Option.some.inj after
        have inside := (List.getElem?_eq_some_iff.mp found).1
        rw [List.length_set] at inside
        exact absurd inside (Nat.not_lt.mpr short)
      · cases stepped
    | crash j =>
      have short := List.getElem?_eq_none_iff.mp before
      simp only [Pool.step, Option.bind_eq_bind, Option.bind_eq_some_iff] at stepped
      obtain ⟨th₀, -, after⟩ := stepped
      obtain rfl := Option.some.inj after
      have inside := (List.getElem?_eq_some_iff.mp found).1
      rw [List.length_set] at inside
      exact absurd inside (Nat.not_lt.mpr short)
  | some th₀ =>
    obtain ⟨th₁, found₁, same⟩ := op_of_step stepped before
    obtain rfl := Option.some.inj (found.symm.trans found₁)
    refine Or.inr ⟨th₀, rfl, same.symm, ?_, ?_⟩
    · have living : q.alive i = true := by simp [alive, found, live]
      simpa [alive, before] using alive_of_step stepped living
    · cases returned : th₀.prog.returned with
      | none => rfl
      | some a =>
        obtain ⟨th₂, found₂, done⟩ := returned_of_step stepped before returned
        obtain rfl := Option.some.inj (found.symm.trans found₂)
        rw [running] at done
        cases done

/-- What is asserted of each call is so in every run: of what it has issued, and of its result. -/
structure Follows (G : List (L × D) → D → Prop) (A : Op → L → List (L × D) → D → List W → Prop)
    (Q : Nat → Op → α → List (L × D) → Prop) (p : Pool L D W K Op α)
    (journal : List (Entry L D Op)) : Prop where
  calls : ∀ (i : Nat) (th : Thread L D W K Op α), p.threads[i]? = some th →
    th.live = true ∨ th.prog.returned.isSome = true →
      th.prog.traced G (A th.op) (fun a _ => Q i th.op a) th.tx (ownTrace journal i)
  known : ∀ e ∈ journal, e.call < p.threads.length
  asserted : ∀ before e after, journal = before ++ e :: after →
    ∃ ws, A e.op e.label (ownTrace before e.call) e.store ws

variable {G : List (L × D) → D → Prop} {A : Op → L → List (L × D) → D → List W → Prop}
  {Q : Nat → Op → α → List (L × D) → Prop}

omit [DecidableEq K] in
/-- A call that has returned has met its result's condition. -/
theorem Follows.returned (follows : Follows G A Q p journal) {i : Nat} {th : Thread L D W K Op α}
    {a : α} (found : p.threads[i]? = some th) (returned : th.prog.returned = some a) :
    Q i th.op a (ownTrace journal i) := by
  have traced := follows.calls i th found (Or.inr (by rw [returned]; rfl))
  cases prog : th.prog with
  | ret b =>
    rw [prog] at returned traced
    obtain rfl := Option.some.inj returned
    exact traced
  | _ =>
    rw [prog] at returned
    cases returned

/-- What an event of a run does: nothing to the store unless a call runs a labelled statement,
which then is as asserted. -/
theorem Follows.issued (follows : Follows G A Q p journal)
    (fits : ∀ i, G (ownTrace journal i) p.db) {e : Event Op} (stepped : p.step sys e = some q) :
    (p.entry e = none ∧ q.db = p.db) ∨ ∃ i answer ℓ th ws, e = .run i answer ∧
      p.threads[i]? = some th ∧ th.live = true ∧ th.prog.label = some ℓ ∧
      p.entry e = some ⟨i, th.op, ℓ, p.db⟩ ∧ q.db = applyAll ws p.db ∧
      A th.op ℓ (ownTrace journal i) p.db ws := by
  cases e with
  | spawn op =>
    obtain rfl := Option.some.inj stepped
    exact Or.inl ⟨rfl, rfl⟩
  | crash i =>
    simp only [Pool.step, Option.bind_eq_bind, Option.bind_eq_some_iff] at stepped
    obtain ⟨th, -, after⟩ := stepped
    obtain rfl := Option.some.inj after
    exact Or.inl ⟨rfl, rfl⟩
  | run i answer =>
    simp only [Pool.step, Option.bind_eq_bind, Option.bind_eq_some_iff] at stepped
    obtain ⟨th, found, stepped⟩ := stepped
    split at stepped
    next live =>
      simp only [Option.bind_eq_some_iff, Option.some.injEq] at stepped
      obtain ⟨⟨d', th'⟩, advanced, rfl⟩ := stepped
      obtain ⟨⟨labelled, unlabelled⟩, -⟩ :=
        Prog.traced_advance (fits i) (follows.calls i th found (Or.inl live)) advanced
      cases label : th.prog.label with
      | none => exact Or.inl ⟨by rw [entry, found, Option.bind_some, label]; rfl, unlabelled label⟩
      | some ℓ =>
        obtain ⟨ws, after, asserted⟩ := labelled ℓ label
        exact Or.inr ⟨i, answer, ℓ, th, ws, rfl, found, live, label,
          by rw [entry, found, Option.bind_some, label]; rfl, after, asserted⟩
    next => cases stepped

omit [RowStore D W K] [DecidableEq K] in
/-- A journal that grows by one entry is split there, or before. -/
theorem split_concat {journal before after : List (Entry L D Op)} {e : Entry L D Op}
    {new : Option (Entry L D Op)} (split : journal ++ new.toList = before ++ e :: after) :
    (∃ rest, journal = before ++ e :: rest) ∨ (new = some e ∧ journal = before) := by
  cases new with
  | none => exact Or.inl ⟨after, by simpa using split⟩
  | some last =>
    rw [Option.toList_some] at split
    rcases List.eq_nil_or_concat after with rfl | ⟨rest, final, rfl⟩
    · obtain ⟨rfl, same⟩ := List.append_inj' split rfl
      exact Or.inr ⟨congrArg some (List.head_eq_of_cons_eq same), rfl⟩
    · have split : journal ++ [last] = (before ++ e :: rest) ++ [final] := by simpa using split
      exact Or.inl ⟨rest, (List.append_inj' split rfl).1⟩

theorem Records.follows (records : Records sys ok init p journal) (empty : init.threads = [])
    (fits : ∀ p journal i, Records sys ok init p journal → G (ownTrace journal i) p.db)
    (holds : ∀ me op, (sys me op).traced G (A op) (fun a _ => Q me op a) none []) :
    Follows G A Q p journal := by
  induction records with
  | refl => exact ⟨by simp [empty], by simp, by simp⟩
  | @step p q journal e before allowed stepped ih =>
    cases e with
    | spawn op =>
      obtain rfl := Option.some.inj stepped
      have nothing : p.entry (.spawn op) = none := rfl
      rw [nothing, Option.toList_none, List.append_nil]
      refine ⟨fun i th found running => ?_, fun e member => ?_, ih.asserted⟩
      · rcases getElem?_concat found with found | ⟨rfl, rfl⟩
        · exact ih.calls i th found running
        · -- a new call has issued nothing yet
          rw [ownTrace_eq_nil ih.known]
          exact holds _ _
      · rw [List.length_append]
        exact Nat.lt_of_lt_of_le (ih.known e member) (Nat.le_add_right _ _)
    | run i answer =>
      simp only [Pool.step, Option.bind_eq_bind, Option.bind_eq_some_iff] at stepped
      obtain ⟨th, found, stepped⟩ := stepped
      split at stepped
      next live =>
        simp only [Option.bind_eq_some_iff, Option.some.injEq] at stepped
        obtain ⟨⟨d', th'⟩, advanced, rfl⟩ := stepped
        obtain ⟨issues, rest⟩ := Prog.traced_advance (fits p journal i before)
          (ih.calls i th found (Or.inl live)) advanced
        have inside := (List.getElem?_eq_some_iff.mp found).1
        have issued : p.entry (.run i answer) =
            th.prog.label.map fun ℓ => ⟨i, th.op, ℓ, p.db⟩ := by
          rw [entry, found, Option.bind_some]
        rw [issued]
        refine ⟨fun j th₂ found₂ running => ?_, fun e member => ?_, fun first e after split => ?_⟩
        · rw [ownTrace_append]
          rcases getElem?_put found₂ with ⟨rfl, rfl⟩ | ⟨differ, found₂⟩
          · rw [advance_op advanced]
            cases label : th.prog.label with
            | none =>
              rw [label] at rest
              exact rest
            | some ℓ =>
              rw [label] at rest
              rw [Option.map_some, Option.toList_some, ownTrace_self ⟨j, th.op, ℓ, p.db⟩]
              exact rest
          · have others : ownTrace (th.prog.label.map fun ℓ =>
                (⟨i, th.op, ℓ, p.db⟩ : Entry L D Op)).toList j = [] := by
              cases th.prog.label with
              | none => rfl
              | some ℓ => exact ownTrace_other (e := ⟨i, th.op, ℓ, p.db⟩) (Ne.symm differ)
            rw [others, List.append_nil]
            exact ih.calls j th₂ found₂ running
        · rw [List.length_set]
          rcases List.mem_append.mp member with member | member
          · exact ih.known e member
          · obtain ⟨ℓ, -, rfl⟩ := Option.map_eq_some_iff.mp (Option.mem_toList.mp member)
            exact inside
        · rcases split_concat split with ⟨rest, split⟩ | ⟨new, rfl⟩
          · exact ih.asserted first e rest split
          · obtain ⟨ℓ, label, rfl⟩ := Option.map_eq_some_iff.mp new
            obtain ⟨ws, -, asserted⟩ := issues.labelled ℓ label
            exact ⟨ws, asserted⟩
      next => cases stepped
    | crash i =>
      simp only [Pool.step, Option.bind_eq_bind, Option.bind_eq_some_iff] at stepped
      obtain ⟨th, found, after⟩ := stepped
      obtain rfl := Option.some.inj after
      have nothing : p.entry (.crash i) = none := rfl
      rw [nothing, Option.toList_none, List.append_nil]
      refine ⟨fun j th₂ found₂ running => ?_, fun e member => ?_, ih.asserted⟩
      · rcases getElem?_put found₂ with ⟨rfl, rfl⟩ | ⟨-, found₂⟩
        · obtain ⟨op, prog, tx, live⟩ := th
          cases prog with
          | ret a => exact ih.calls j ⟨op, .ret a, tx, live⟩ found (Or.inr rfl)
          | _ => rcases running with ⟨⟨⟩⟩ | ⟨⟨⟩⟩
        · exact ih.calls j th₂ found₂ running
      · rw [List.length_set]
        exact ih.known e member

/-! ### Schedules spelled out -/

variable (sys ok) [∀ p journal e, Decidable (ok p journal e)]

/-- The pool and the journal after an event that is allowed. -/
def tryRecord (r : Pool L D W K Op α × List (Entry L D Op)) (e : Event Op) :
    Option (Pool L D W K Op α × List (Entry L D Op)) :=
  (r.1.tryStep sys (fun p e => ok p r.2 e) e).map fun q => (q, r.2 ++ (r.1.entry e).toList)

def recordDrive (i : Nat) (answer : Bool) : Nat → Pool L D W K Op α × List (Entry L D Op) →
    Pool L D W K Op α × List (Entry L D Op)
  | 0, r => r
  | fuel + 1, r =>
    match tryRecord sys ok r (.run i answer) with
    | some r' => recordDrive i answer fuel r'
    | none => r

/-- The pool after a schedule with its journal, as `after`. -/
def record (fuel : Nat) (r : Pool L D W K Op α × List (Entry L D Op)) :
    List (Move Op) → Pool L D W K Op α × List (Entry L D Op)
  | [] => r
  | .event e :: moves =>
    match tryRecord sys ok r e with
    | some r' => record fuel r' moves
    | none => r
  | .drive i answer :: moves => record fuel (recordDrive sys ok i answer fuel r) moves

variable {sys ok} {r r' : Pool L D W K Op α × List (Entry L D Op)}

theorem Records.tryRecord {e : Event Op} (records : Records sys ok init r.1 r.2)
    (stepped : Pool.tryRecord sys ok r e = some r') : Records sys ok init r'.1 r'.2 := by
  obtain ⟨q, tried, rfl⟩ := Option.map_eq_some_iff.mp stepped
  rw [Pool.tryStep] at tried
  split at tried
  next allowed => exact .step e records allowed tried
  next => cases tried

theorem Records.recordDrive (records : Records sys ok init r.1 r.2) (i : Nat) (answer : Bool)
    (fuel : Nat) : Records sys ok init (Pool.recordDrive sys ok i answer fuel r).1
      (Pool.recordDrive sys ok i answer fuel r).2 := by
  induction fuel generalizing r with
  | zero => exact records
  | succ fuel ih =>
    simp only [Pool.recordDrive]
    split
    next r' stepped => exact ih (records.tryRecord stepped)
    next => exact records

theorem Records.record (records : Records sys ok init r.1 r.2) (fuel : Nat)
    (moves : List (Move Op)) : Records sys ok init (Pool.record sys ok fuel r moves).1
      (Pool.record sys ok fuel r moves).2 := by
  induction moves generalizing r with
  | nil => exact records
  | cons move moves ih =>
    cases move with
    | event e =>
      simp only [Pool.record]
      split
      next r' stepped => exact ih (records.tryRecord stepped)
      next => exact records
    | drive i answer => exact ih (records.recordDrive i answer fuel)

end Steps

end Pool

end Store
