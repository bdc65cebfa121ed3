import LabourBaba.Store.Calls

/-!
# Footprints

What a call may write, and under which labels it may commit, can often be read off its
text, whatever it finds in the store. `Emits` says that all its writes and all the labels
that may change the store are of some kind; a call that only makes writes which a protocol
lets everybody make needs no further verification (`wp_of_emits`). `Plain` is the same for
the body of a transaction, which starts no transaction and sends nothing. `Gives` is about
the values that a call may return. A call that is one transaction around a plain body has
returned as soon as it has committed (`EndsWith`).
-/
namespace Store

variable {L D W K E Op α β : Type} [RowStore D W K] {ok : W → Prop} {named : L → Prop}

namespace Prog

/-- Every write of the program is of the given kind, in any store, and so is the label of
every statement that may change the committed store. The flags say whether a transaction is
open when the program ends, and now. -/
def Emits (ok : W → Prop) (named : L → Prop) (last : Bool) : Bool → Prog L D W K α → Prop
  | inTx, .ret _ => inTx = last
  | inTx, .query _ k => ∀ d, (k d).Emits ok named last inTx
  -- a statement of an open transaction changes nothing before the commit
  | inTx, .exec ℓ s k => (inTx = true ∨ named ℓ) ∧
      ∀ d, (∀ w ∈ (s d).writes, ok w) ∧ (k d).Emits ok named last inTx
  | inTx, .emit ℓ ws k => named ℓ ∧ ∀ d, (∀ w ∈ ws d, ok w.val) ∧ (k d).Emits ok named last inTx
  | inTx, .ask k => ∀ b, (k b).Emits ok named last inTx
  | inTx, .tryLock _ _ k => ∀ b, (k b).Emits ok named last inTx
  | _, .start k => k.Emits ok named last true
  | _, .commit ℓ k => named ℓ ∧ k.Emits ok named last false
  | _, .abort k => k.Emits ok named last false

/-- Statements only: no transaction begins or ends, and nothing is sent. -/
def Plain (ok : W → Prop) : Prog L D W K α → Prop
  | .ret _ => True
  | .query _ k => ∀ d, (k d).Plain ok
  | .exec _ s k => ∀ d, (∀ w ∈ (s d).writes, ok w) ∧ (k d).Plain ok
  | .ask k => ∀ b, (k b).Plain ok
  | .tryLock _ _ k => ∀ b, (k b).Plain ok
  | .emit _ _ _ | .start _ | .commit _ _ | .abort _ => False

theorem Emits.mono {ok' : W → Prop} {named' : L → Prop} {p : Prog L D W K α} {last inTx : Bool}
    (emits : p.Emits ok named last inTx) (weaker : ∀ w, ok w → ok' w)
    (fewer : ∀ ℓ, named ℓ → named' ℓ) : p.Emits ok' named' last inTx := by
  induction p generalizing inTx with
  | ret a => exact emits
  | query ℓ k ih => exact fun d => ih d (emits d)
  | exec ℓ s k ih =>
    exact ⟨emits.1.imp id (fewer ℓ), fun d =>
      ⟨fun w member => weaker w ((emits.2 d).1 w member), ih d (emits.2 d).2⟩⟩
  | emit ℓ ws k ih =>
    exact ⟨fewer ℓ emits.1, fun d =>
      ⟨fun w member => weaker w.val ((emits.2 d).1 w member), ih d (emits.2 d).2⟩⟩
  | ask k ih => exact fun b => ih b (emits b)
  | tryLock ℓ key k ih => exact fun b => ih b (emits b)
  | start k ih => exact ih emits
  | commit ℓ k ih => exact ⟨fewer ℓ emits.1, ih emits.2⟩
  | abort k ih => exact ih emits

theorem Emits.bind {p : Prog L D W K α} {f : α → Prog L D W K β} {inTx between last : Bool}
    (first : p.Emits ok named between inTx) (next : ∀ a, (f a).Emits ok named last between) :
    (p.bind f).Emits ok named last inTx := by
  induction p generalizing inTx with
  | ret a =>
    obtain rfl : inTx = between := first
    exact next a
  | query ℓ k ih => exact fun d => ih d (first d)
  | exec ℓ s k ih => exact ⟨first.1, fun d => ⟨(first.2 d).1, ih d (first.2 d).2⟩⟩
  | emit ℓ ws k ih => exact ⟨first.1, fun d => ⟨(first.2 d).1, ih d (first.2 d).2⟩⟩
  | ask k ih => exact fun b => ih b (first b)
  | tryLock ℓ key k ih => exact fun b => ih b (first b)
  | start k ih => exact ih first
  | commit ℓ k ih => exact ⟨first.1, ih first.2⟩
  | abort k ih => exact ih first

theorem Plain.bind {p : Prog L D W K α} {f : α → Prog L D W K β} (first : p.Plain ok)
    (next : ∀ a, (f a).Plain ok) : (p.bind f).Plain ok := by
  induction p with
  | ret a => exact next a
  | query ℓ k ih => exact fun d => ih d (first d)
  | exec ℓ s k ih => exact fun d => ⟨(first d).1, ih d (first d).2⟩
  | ask k ih => exact fun b => ih b (first b)
  | tryLock ℓ key k ih => exact fun b => ih b (first b)
  | emit _ _ _ _ | start _ _ | commit _ _ _ | abort _ _ => exact first.elim

/-- Inside a transaction the labels of the statements do not matter. -/
theorem Plain.mono {ok' : W → Prop} {p : Prog L D W K α} (plain : p.Plain ok)
    (weaker : ∀ w, ok w → ok' w) : p.Plain ok' := by
  induction p with
  | ret a => trivial
  | query ℓ k ih => exact fun d => ih d (plain d)
  | exec ℓ s k ih => exact fun d => ⟨fun w member => weaker w ((plain d).1 w member), ih d (plain d).2⟩
  | ask k ih => exact fun b => ih b (plain b)
  | tryLock ℓ key k ih => exact fun b => ih b (plain b)
  | emit _ _ _ _ | start _ _ | commit _ _ _ | abort _ _ => exact plain.elim

theorem Plain.emits {p : Prog L D W K α} (plain : p.Plain ok) : p.Emits ok named true true := by
  induction p with
  | ret a => rfl
  | query ℓ k ih => exact fun d => ih d (plain d)
  | exec ℓ s k ih => exact ⟨Or.inl rfl, fun d => ⟨(plain d).1, ih d (plain d).2⟩⟩
  | ask k ih => exact fun b => ih b (plain b)
  | tryLock ℓ key k ih => exact fun b => ih b (plain b)
  | emit _ _ _ _ | start _ _ | commit _ _ _ | abort _ _ => exact plain.elim

end Prog

/-- A call whose writes the protocol lets everybody make under its labels, from any store
and in any transaction that has only made such writes. -/
theorem wp_of_emits {P : Protocol L D} {me : Nat}
    (allowed : ∀ ℓ d ws, named ℓ → P.inv d → P.pre ℓ d → (∀ w ∈ ws, ok w) →
      P.Does me ℓ d (applyAll ws d))
    {p : Prog L D W K α} {last : Bool} {tx : Option (Tx K W)}
    (emits : p.Emits ok named last tx.isSome)
    (own : ∀ t, tx = some t → ∀ w ∈ t.writes, ok w) (d : D) :
    wp P me (fun _ tx _ => tx.isSome = last) p tx d := by
  induction p generalizing tx d with
  | ret a => exact emits
  | query ℓ k ih => exact fun d' _ _ => ih _ (emits _) own d'
  | exec ℓ s k ih =>
    obtain ⟨label, emits⟩ := emits
    cases tx with
    | none =>
      intro d' rely pre
      have known : named ℓ := label.resolve_left (by simp)
      exact ⟨allowed ℓ d' _ known rely.inv pre (emits d').1, ih _ (emits d').2 (by simp) _⟩
    | some t =>
      intro d' _ _
      have rest : (k (applyAll t.writes d')).Emits ok named last
          (some (t.add D (s (applyAll t.writes d')))).isSome := (emits _).2
      refine ih _ rest ?_ d'
      rintro _ ⟨⟩ w member
      rcases List.mem_append.mp member with old | new
      · exact own t rfl w old
      · exact (emits _).1 w new
  | emit ℓ ws k ih =>
    intro d' rely pre
    refine ⟨allowed ℓ d' _ emits.1 rely.inv pre ?_, ih _ (emits.2 _).2 own _⟩
    intro w member
    obtain ⟨v, sent, rfl⟩ := List.mem_map.mp member
    exact (emits.2 _).1 v sent
  | ask k ih => exact fun d' _ b => ih _ (emits b) own d'
  | tryLock ℓ key k ih =>
    refine fun d' _ _ => ⟨ih _ (emits false) own d', ih _ ?_ ?_ d'⟩
    · simpa using emits true
    · intro t' added w member
      cases tx with
      | none => cases added
      | some t =>
        obtain rfl := Option.some.inj added
        exact own t rfl w (by simpa using member)
  | start k ih => exact fun d' _ => ih emits (by rintro _ ⟨⟩; simp) d'
  | commit ℓ k ih =>
    intro d' rely pre
    have rest : k.Emits ok named last (none : Option (Tx K W)).isSome := emits.2
    refine ⟨?_, ih rest (by simp) _⟩
    cases tx with
    | none => exact Or.inl rfl
    | some t => exact allowed ℓ d' t.writes emits.1 rely.inv pre (own t rfl)
  | abort k ih => exact fun d' _ => ih emits (by simp) d'

/-- What a plain program adds to the transaction it runs in. -/
theorem wp_of_plain {P : Protocol L D} {me : Nat} {Q : α → Option (Tx K W) → D → Prop}
    {p : Prog L D W K α} (plain : p.Plain ok) {t : Tx K W} {d : D} (inv : P.inv d)
    (done : ∀ a d' t' ws, P.Rely me t.locks d d' → Tx.Grows t t' ws → (∀ w ∈ ws, ok w) →
      Q a (some t') d') : wp P me Q p (some t) d := by
  induction p generalizing t d with
  | ret a => exact done a d t [] (.refl inv) (.refl t) (by simp)
  | query ℓ k ih =>
    intro d' rely _
    refine ih _ (plain _) rely.inv fun a d'' t' ws rely' grows written => ?_
    exact done a d'' t' ws (rely.trans rely') grows written
  | exec ℓ s k ih =>
    intro d' rely _
    refine ih _ (plain _).2 rely.inv fun a d'' t' ws rely' grows written => ?_
    have first := Tx.Grows.add D t (s (applyAll t.writes d'))
    refine done a d'' t' _ (first.rely rely rely') (first.trans grows) fun w member => ?_
    rcases List.mem_append.mp member with own | later
    · exact (plain _).1 w own
    · exact written w later
  | ask k ih =>
    intro d' rely b
    refine ih _ (plain _) rely.inv fun a d'' t' ws rely' grows written => ?_
    exact done a d'' t' ws (rely.trans rely') grows written
  | tryLock ℓ key k ih =>
    intro d' rely _
    constructor
    · refine ih _ (plain _) rely.inv fun a d'' t' ws rely' grows written => ?_
      exact done a d'' t' ws (rely.trans rely') grows written
    · refine ih _ (plain _) rely.inv fun a d'' t' ws rely' grows written => ?_
      have first := Tx.Grows.add D t ({ locks := [key] } : Stmt K W)
      exact done a d'' t' ws (first.rely rely rely') (first.trans grows) written
  | emit _ _ _ _ | start _ _ | commit _ _ _ | abort _ _ => exact plain.elim

namespace Call

/-- The call makes only such writes, and leaves a transaction open as it found it. -/
def Emits (ok : W → Prop) (named : L → Prop) (inTx : Bool) (c : Call L D W K E α) : Prop :=
  c.run.Emits ok named inTx inTx

def Plain (ok : W → Prop) (c : Call L D W K E α) : Prop := c.run.Plain ok

namespace Plain

theorem pure (a : α) : Plain ok (Pure.pure a : Call L D W K E α) := trivial

theorem throw (e : E) : Plain ok (MonadExcept.throw e : Call L D W K E α) := trivial

theorem read (ℓ : L) (f : D → α) : Plain ok (read ℓ f : Call L D W K E α) := fun _ => trivial

theorem lock (ℓ : L) (ks : D → List K) (f : D → α) : Plain ok (lock ℓ ks f : Call L D W K E α) :=
  fun _ => ⟨by simp, trivial⟩

theorem stmt {ℓ : L} {f : D → Except E (List W × α)}
    (writes : ∀ d ws a, f d = .ok (ws, a) → ∀ w ∈ ws, ok w) : Plain ok (stmt ℓ f) := by
  intro d
  cases result : f d with
  | error e =>
    simp only [result]
    exact ⟨by simp, trivial⟩
  | ok pair =>
    simp only [result]
    exact ⟨writes d pair.1 pair.2 result, trivial⟩

theorem bind {c : Call L D W K E α} {f : α → Call L D W K E β} (first : Plain ok c)
    (next : ∀ a, Plain ok (f a)) : Plain ok (c >>= f) := by
  refine Prog.Plain.bind first fun r => ?_
  cases r with
  | ok a => exact next a
  | error e => trivial

theorem attempt {c : Call L D W K E α} (plain : Plain ok c) : Plain ok (attempt c) :=
  Prog.Plain.bind plain fun _ => trivial

theorem each {xs : List α} {body : α → Call L D W K E Unit} (plain : ∀ x, Plain ok (body x)) :
    Plain ok (each xs body) := by
  induction xs with
  | nil => exact .pure ()
  | cons x rest ih => exact (plain x).bind fun _ => ih

theorem mono {ok' : W → Prop} {c : Call L D W K E α} (plain : Plain ok c)
    (weaker : ∀ w, ok w → ok' w) : Plain ok' c :=
  Prog.Plain.mono plain weaker

theorem emits {c : Call L D W K E α} (plain : Plain ok c) : Emits ok named true c :=
  Prog.Plain.emits plain

theorem inTx {P : Protocol L D} {me : Nat} {Q : Except E α → Option (Tx K W) → D → Prop}
    {c : Call L D W K E α} (plain : Plain ok c) {t : Tx K W} {d : D} (inv : P.inv d)
    (done : ∀ r d' t' ws, P.Rely me t.locks d d' → Tx.Grows t t' ws → (∀ w ∈ ws, ok w) →
      Q r (some t') d') : wp P me Q c (some t) d :=
  wp_of_plain plain inv done

end Plain

namespace Emits

variable {inTx : Bool}

theorem pure (a : α) : Emits ok named inTx (Pure.pure a : Call L D W K E α) := rfl

theorem throw (e : E) : Emits ok named inTx (MonadExcept.throw e : Call L D W K E α) := rfl

theorem read (ℓ : L) (f : D → α) : Emits ok named inTx (read ℓ f : Call L D W K E α) := fun _ => rfl

theorem choose : Emits ok named inTx (choose : Call L D W K E Bool) := fun _ => rfl

theorem skipLocked (ℓ : L) (key : K) :
    Emits ok named inTx (skipLocked ℓ key : Call L D W K E Bool) :=
  fun _ => rfl

theorem send {ℓ : L} {f : D → List (Unlocked D) × α} (known : named ℓ)
    (writes : ∀ d, ∀ w ∈ (f d).1, ok w.val) :
    Emits ok named inTx (send ℓ f : Call L D W K E α) :=
  ⟨known, fun d => ⟨writes d, rfl⟩⟩

theorem stmt {ℓ : L} {f : D → Except E (List W × α)} (known : inTx = true ∨ named ℓ)
    (writes : ∀ d ws a, f d = .ok (ws, a) → ∀ w ∈ ws, ok w) :
    Emits ok named inTx (stmt ℓ f) := by
  refine ⟨known, fun d => ?_⟩
  cases result : f d with
  | error e =>
    simp only [result]
    exact ⟨by simp, rfl⟩
  | ok pair =>
    simp only [result]
    exact ⟨writes d pair.1 pair.2 result, rfl⟩

theorem bind {c : Call L D W K E α} {f : α → Call L D W K E β} (first : Emits ok named inTx c)
    (next : ∀ a, Emits ok named inTx (f a)) : Emits ok named inTx (c >>= f) := by
  refine Prog.Emits.bind first fun r => ?_
  cases r with
  | ok a => exact next a
  | error e => rfl

theorem attempt {c : Call L D W K E α} (emits : Emits ok named inTx c) :
    Emits ok named inTx (attempt c) :=
  Prog.Emits.bind emits fun _ => rfl

theorem transaction {label : α → L} {body : Call L D W K E α} (known : ∀ a, named (label a))
    (emits : Emits ok named true body) : Emits ok named false (transaction label body) := by
  refine Prog.Emits.bind emits fun r => ?_
  cases r with
  | ok a => exact ⟨known a, rfl⟩
  | error e => exact rfl

theorem each {xs : List α} {body : α → Call L D W K E Unit}
    (emits : ∀ x, Emits ok named inTx (body x)) : Emits ok named inTx (each xs body) := by
  induction xs with
  | nil => exact .pure ()
  | cons x rest ih => exact (emits x).bind fun _ => ih

theorem safe {P : Protocol L D} {me : Nat} {c : Call L D W K E α}
    (allowed : ∀ ℓ d ws, named ℓ → P.inv d → P.pre ℓ d → (∀ w ∈ ws, ok w) →
      P.Does me ℓ d (applyAll ws d))
    (emits : Emits ok named false c) : Safe P me c := by
  intro d
  have outside : c.run.Emits ok named false (none : Option (Tx K W)).isSome := emits
  refine wp_mono ?_ (wp_of_emits allowed outside (by simp) d)
  intro _ tx _ closed
  simpa using closed

end Emits

end Call

/-! ### What a call may return -/

namespace Prog

/-- Whatever it finds in the store, the program returns a value with the property. -/
def Gives (R : α → Prop) : Prog L D W K α → Prop
  | .ret a => R a
  | .query _ k | .exec _ _ k | .emit _ _ k => ∀ d, (k d).Gives R
  | .ask k | .tryLock _ _ k => ∀ b, (k b).Gives R
  | .start k | .commit _ k | .abort k => k.Gives R

theorem Gives.bind {R : α → Prop} {S : β → Prop} {p : Prog L D W K α} {f : α → Prog L D W K β}
    (first : p.Gives R) (next : ∀ a, R a → (f a).Gives S) : (p.bind f).Gives S := by
  induction p with
  | ret a => exact next a first
  | query ℓ k ih | exec ℓ s k ih | emit ℓ ws k ih | ask k ih | tryLock ℓ key k ih =>
    exact fun x => ih x (first x)
  | start k ih | commit ℓ k ih | abort k ih => exact ih first

end Prog

/-- What is known of the values of a verified call holds of its result. -/
theorem wp_of_gives {P : Protocol L D} {me : Nat} {Q : α → Option (Tx K W) → D → Prop}
    {R : α → Prop} {p : Prog L D W K α} {tx : Option (Tx K W)} {d : D} (gives : p.Gives R)
    (holds : wp P me Q p tx d) : wp P me (fun a tx d => Q a tx d ∧ R a) p tx d := by
  induction p generalizing tx d with
  | ret a => exact ⟨holds, gives⟩
  | query ℓ k ih => exact fun d' rely pre => ih _ (gives _) (holds d' rely pre)
  | exec ℓ s k ih =>
    cases tx with
    | none => exact fun d' rely pre => (holds d' rely pre).imp id (ih _ (gives _))
    | some t => exact fun d' rely pre => ih _ (gives _) (holds d' rely pre)
  | emit ℓ ws k ih => exact fun d' rely pre => (holds d' rely pre).imp id (ih _ (gives _))
  | ask k ih => exact fun d' rely b => ih b (gives b) (holds d' rely b)
  | tryLock ℓ key k ih =>
    exact fun d' rely pre => (holds d' rely pre).imp (ih false (gives _)) (ih true (gives _))
  | start k ih => exact fun d' rely => ih gives (holds d' rely)
  | commit ℓ k ih => exact fun d' rely pre => (holds d' rely pre).imp id (ih gives)
  | abort k ih => exact fun d' rely => ih gives (holds d' rely)

namespace Call

/-- A call that does not throw returns a value with the property. -/
def Gives (R : α → Prop) (c : Call L D W K E α) : Prop :=
  c.run.Gives fun r => ∀ a, r = .ok a → R a

namespace Gives

variable {R : α → Prop} {S : β → Prop}

theorem pure {a : α} (holds : R a) : Gives R (Pure.pure a : Call L D W K E α) :=
  fun _ same => Except.ok.inj same ▸ holds

theorem throw (e : E) : Gives R (MonadExcept.throw e : Call L D W K E α) :=
  fun _ failed => by cases failed

theorem any (c : Call L D W K E α) : Gives (fun _ => True) c := by
  have trivially : ∀ p : Prog L D W K (Except E α), p.Gives fun r => ∀ a, r = .ok a → True := by
    intro p
    induction p with
    | ret a => exact fun _ _ => trivial
    | query ℓ k ih | exec ℓ s k ih | emit ℓ ws k ih | ask k ih | tryLock ℓ key k ih => exact ih
    | start k ih | commit ℓ k ih | abort k ih => exact ih
  exact trivially c.run

theorem stmt {ℓ : L} {f : D → Except E (List W × α)}
    (holds : ∀ d ws a, f d = .ok (ws, a) → R a) : Gives R (stmt ℓ f) := by
  intro d
  cases result : f d with
  | error e =>
    simp only [result]
    exact fun _ failed => by cases failed
  | ok pair =>
    simp only [result]
    exact fun _ same => Except.ok.inj same ▸ holds d pair.1 pair.2 result

theorem bind {c : Call L D W K E α} {f : α → Call L D W K E β} (first : Gives R c)
    (next : ∀ a, R a → Gives S (f a)) : Gives S (c >>= f) := by
  refine Prog.Gives.bind first fun r holds => ?_
  cases r with
  | ok a => exact next a (holds a rfl)
  | error e => exact fun _ failed => by cases failed

theorem transaction {label : α → L} {body : Call L D W K E α} (gives : Gives R body) :
    Gives R (transaction label body) := by
  refine Prog.Gives.bind gives fun r holds => ?_
  cases r with
  | ok a => exact holds
  | error e => exact holds

end Gives

/-- The call does not throw the error. -/
def Avoids (e : E) (c : Call L D W K E α) : Prop := c.run.Gives fun r => r ≠ .error e

namespace Avoids

variable {e : E}

theorem pure (a : α) : Avoids e (Pure.pure a : Call L D W K E α) := fun failed => by cases failed

theorem throw {e' : E} (other : e' ≠ e) : Avoids e (MonadExcept.throw e' : Call L D W K E α) :=
  fun failed => other (Except.error.inj failed)

theorem read (ℓ : L) (f : D → α) : Avoids e (read ℓ f : Call L D W K E α) :=
  fun _ failed => by cases failed

theorem choose : Avoids e (choose : Call L D W K E Bool) := fun _ failed => by cases failed

theorem send (ℓ : L) (f : D → List (Unlocked D) × α) : Avoids e (send ℓ f : Call L D W K E α) :=
  fun _ failed => by cases failed

theorem stmt {ℓ : L} {f : D → Except E (List W × α)} (fails : ∀ d, f d ≠ .error e) :
    Avoids e (stmt ℓ f) := by
  intro d
  cases result : f d with
  | error e' =>
    simp only [result]
    exact fun same => fails d (result.trans (congrArg Except.error (Except.error.inj same)))
  | ok pair =>
    simp only [result]
    exact fun failed => by cases failed

theorem bind {c : Call L D W K E α} {f : α → Call L D W K E β} (first : Avoids e c)
    (next : ∀ a, Avoids e (f a)) : Avoids e (c >>= f) := by
  refine Prog.Gives.bind first fun r avoids => ?_
  cases r with
  | ok a => exact next a
  | error e' => exact fun same => avoids (congrArg Except.error (Except.error.inj same))

/-- Whatever the body throws is a value. -/
theorem attempt (c : Call L D W K E α) : Avoids e (attempt c) := by
  have trivially : ∀ p : Prog L D W K (Except E α),
      (p.bind fun r => .ret (.ok r : Except E (Except E α))).Gives fun r => r ≠ .error e := by
    intro p
    induction p with
    | ret a => exact fun failed => by cases failed
    | query ℓ k ih | exec ℓ s k ih | emit ℓ ws k ih | ask k ih | tryLock ℓ key k ih => exact ih
    | start k ih | commit ℓ k ih | abort k ih => exact ih
  exact trivially c.run

/-- An error that the body does not throw is not there to be passed on. -/
theorem attemptThen {c : Call L D W K E α} {f : Except E α → Call L D W K E β}
    (avoids : Avoids e c) (next : ∀ r, r ≠ .error e → Avoids e (f r)) :
    Avoids e (Call.attempt c >>= f) := by
  have caught : (Call.attempt c).run.Gives fun r => ∃ r', r = .ok r' ∧ r' ≠ .error e :=
    Prog.Gives.bind avoids fun r other => ⟨r, rfl, other⟩
  refine Prog.Gives.bind caught ?_
  rintro _ ⟨r, rfl, other⟩
  exact next r other

end Avoids

end Call

/-! ### Calls that end with their commit -/

/-- The program commits at most once, in its last statement, and returns what goes with the
label. The flag says whether its transaction is open. -/
def Prog.EndsWith (R : L → α → Prop) : Bool → Prog L D W K α → Prop
  | _, .ret _ => True
  | inTx, .query _ k => ∀ d, (k d).EndsWith R inTx
  | inTx, .exec _ _ k => inTx = true ∧ ∀ d, (k d).EndsWith R inTx
  | inTx, .ask k => ∀ b, (k b).EndsWith R inTx
  | inTx, .tryLock _ _ k => ∀ b, (k b).EndsWith R inTx
  | _, .start k => k.EndsWith R true
  | _, .commit ℓ k => ∃ a, k = .ret a ∧ R ℓ a
  | _, .abort k => k.EndsWith R false
  | _, .emit _ _ _ => False

theorem Prog.EndsWith.of_plain {R : L → β → Prop} {G : α → Prop} {p : Prog L D W K α}
    {f : α → Prog L D W K β} (plain : p.Plain ok) (gives : p.Gives G)
    (ends : ∀ a, G a → (f a).EndsWith R true) : (p.bind f).EndsWith R true := by
  induction p with
  | ret a => exact ends a gives
  | query ℓ k ih => exact fun d => ih d (plain d) (gives d)
  | exec ℓ s k ih => exact ⟨rfl, fun d => ih d (plain d).2 (gives d)⟩
  | ask k ih => exact fun b => ih b (plain b) (gives b)
  | tryLock ℓ key k ih => exact fun b => ih b (plain b) (gives b)
  | emit _ _ _ _ | start _ _ | commit _ _ _ | abort _ _ => exact plain.elim

theorem Prog.bind_assoc {γ : Type} (p : Prog L D W K α) (f : α → Prog L D W K β)
    (g : β → Prog L D W K γ) : (p.bind f).bind g = p.bind fun a => (f a).bind g := by
  induction p with
  | ret a => rfl
  | query ℓ k ih | exec ℓ s k ih | emit ℓ ws k ih | ask k ih | tryLock ℓ key k ih =>
    simp only [Prog.bind, ih]
  | start k ih | commit ℓ k ih | abort k ih => simp only [Prog.bind, ih]

/-- One transaction around a plain body, and then only a value to return. -/
theorem Call.endsWith_transaction {R : L → β → Prop} {G : α → Prop} {label : α → L}
    {body : Call L D W K E α} {k : Except E α → Prog L D W K β} (plain : Call.Plain ok body)
    (gives : Call.Gives G body) (committed : ∀ a, G a → ∃ b, k (.ok a) = .ret b ∧ R (label a) b)
    (aborted : ∀ e, ∃ b, k (.error e) = .ret b) :
    ((Call.transaction label body).run.bind k).EndsWith R false := by
  have shape : (Call.transaction label body).run.bind k =
      .start (body.run.bind fun r => (Call.finish label r).bind k) :=
    congrArg Prog.start (Prog.bind_assoc _ _ _)
  rw [shape]
  refine Prog.EndsWith.of_plain plain gives fun r given => ?_
  cases r with
  | ok a => exact committed a (given a rfl)
  | error e =>
    obtain ⟨b, same⟩ := aborted e
    show (k (.error e)).EndsWith R false
    rw [same]
    trivial

variable {R : L → α → Prop}

/-- A statement of such a call changes the store only when it ends the call. -/
theorem advance_endsWith [DecidableEq K] {others : List K} {d d' : D} {answer : Bool}
    {th th' : Thread L D W K Op α} (ends : th.prog.EndsWith R th.tx.isSome)
    (advanced : advance others d answer th = some (d', th')) :
    th'.prog.EndsWith R th'.tx.isSome ∧
      (d' = d ∨ ∃ ℓ a, th.prog.label = some ℓ ∧ th'.prog.returned = some a ∧ R ℓ a) := by
  obtain ⟨op, prog, tx, live⟩ := th
  cases prog with
  | ret a => cases advanced
  | query ℓ k =>
    obtain ⟨rfl, rfl⟩ : d = d' ∧ _ = th' := by simpa [advance] using advanced
    exact ⟨ends _, Or.inl rfl⟩
  | exec ℓ s k =>
    simp only [advance] at advanced
    split at advanced
    · cases advanced
    · cases tx with
      | none => cases ends.1
      | some t =>
        obtain ⟨rfl, rfl⟩ : d = d' ∧ _ = th' := by simpa using advanced
        exact ⟨ends.2 _, Or.inl rfl⟩
  | emit ℓ ws k => exact ends.elim
  | ask k =>
    obtain ⟨rfl, rfl⟩ : d = d' ∧ _ = th' := by simpa [advance] using advanced
    exact ⟨ends _, Or.inl rfl⟩
  | tryLock ℓ key k =>
    simp only [advance] at advanced
    split at advanced
    · obtain ⟨rfl, rfl⟩ : d = d' ∧ _ = th' := by simpa using advanced
      exact ⟨ends _, Or.inl rfl⟩
    · obtain ⟨rfl, rfl⟩ : d = d' ∧ _ = th' := by simpa using advanced
      refine ⟨?_, Or.inl rfl⟩
      simpa using ends true
  | start k =>
    obtain ⟨rfl, rfl⟩ : d = d' ∧ _ = th' := by simpa [advance] using advanced
    exact ⟨ends, Or.inl rfl⟩
  | commit ℓ k =>
    obtain ⟨rfl, rfl⟩ : Tx.view tx d = d' ∧ _ = th' := by simpa [advance] using advanced
    obtain ⟨a, rfl, goes⟩ := ends
    exact ⟨trivial, Or.inr ⟨ℓ, a, rfl, rfl, goes⟩⟩
  | abort k =>
    obtain ⟨rfl, rfl⟩ : d = d' ∧ _ = th' := by simpa [advance] using advanced
    exact ⟨ends, Or.inl rfl⟩

/-- What is left of a call after a statement is of the same kind. -/
theorem advance_emits [DecidableEq K] {last : Bool} {others : List K} {d d' : D} {answer : Bool}
    {th th' : Thread L D W K Op α} (emits : th.prog.Emits ok named last th.tx.isSome)
    (advanced : advance others d answer th = some (d', th')) :
    th'.prog.Emits ok named last th'.tx.isSome ∧ th'.live = th.live := by
  obtain ⟨op, prog, tx, live⟩ := th
  cases prog with
  | ret a => cases advanced
  | query ℓ k | ask k =>
    cases advanced
    exact ⟨emits _, rfl⟩
  | exec ℓ s k =>
    simp only [advance] at advanced
    split at advanced
    · cases advanced
    · cases tx <;> cases advanced <;> exact ⟨(emits.2 _).2, rfl⟩
  | emit ℓ ws k =>
    cases advanced
    exact ⟨(emits.2 _).2, rfl⟩
  | tryLock ℓ key k =>
    simp only [advance] at advanced
    split at advanced <;> cases advanced
    · exact ⟨emits _, rfl⟩
    · refine ⟨?_, rfl⟩
      simpa using emits true
  | start k | abort k =>
    cases advanced
    exact ⟨emits, rfl⟩
  | commit ℓ k =>
    cases advanced
    exact ⟨emits.2, rfl⟩

namespace Pool

variable [DecidableEq K] {sys : Nat → Op → Prog L D W K α} {op : Op}

/-- What starting, running and crashing a call each keep holds of every call in every run. -/
theorem Reaches.threads {I : Thread L D W K Op α → Prop}
    {ok : Pool L D W K Op α → Event Op → Prop} {init p : Pool L D W K Op α}
    (starts : ∀ me op, I { op, prog := sys me op })
    (runs : ∀ others d answer th d' th', I th → th.live = true →
      advance others d answer th = some (d', th') → I th')
    (crashes : ∀ th, I th → I { th with live := false, tx := none })
    (first : ∀ th ∈ init.threads, I th) (reached : Reaches sys ok init p) : ∀ th ∈ p.threads, I th := by
  induction reached with
  | refl => exact first
  | @step p q e before allowed stepped ih =>
    intro th member
    obtain ⟨i, found⟩ := List.mem_iff_getElem?.mp member
    cases e with
    | spawn new =>
      obtain rfl := Option.some.inj stepped
      rcases getElem?_concat found with found | ⟨-, rfl⟩
      · exact ih th (List.mem_of_getElem? found)
      · exact starts _ _
    | run j answer =>
      simp only [Pool.step, Option.bind_eq_bind, Option.bind_eq_some_iff] at stepped
      obtain ⟨th₀, found₀, stepped⟩ := stepped
      split at stepped
      next live =>
        simp only [Option.bind_eq_some_iff, Option.some.injEq] at stepped
        obtain ⟨⟨d', th'⟩, advanced, rfl⟩ := stepped
        rcases getElem?_put found with ⟨-, rfl⟩ | ⟨-, found⟩
        · exact runs _ _ _ _ _ _ (ih th₀ (List.mem_of_getElem? found₀)) live advanced
        · exact ih th (List.mem_of_getElem? found)
      next => cases stepped
    | crash j =>
      simp only [Pool.step, Option.bind_eq_bind, Option.bind_eq_some_iff, Option.some.injEq] at stepped
      obtain ⟨th₀, found₀, rfl⟩ := stepped
      rcases getElem?_put found with ⟨-, rfl⟩ | ⟨-, found⟩
      · exact crashes th₀ (ih th₀ (List.mem_of_getElem? found₀))
      · exact ih th (List.mem_of_getElem? found)

omit [DecidableEq K] in
theorem emits_returned {p : Prog L D W K α} {last inTx : Bool} (emits : p.Emits ok named last inTx)
    (returned : p.returned.isSome = true) : inTx = last := by
  cases p with
  | ret a => exact emits
  | _ => cases returned

/-- A call that leaves no transaction open has none once it has returned or crashed. -/
theorem Reaches.closed {allowed : Pool L D W K Op α → Event Op → Prop} {init p : Pool L D W K Op α}
    (closes : ∀ me op, (sys me op).Emits ok named false false) (empty : init.threads = [])
    (reached : Reaches sys allowed init p) {th : Thread L D W K Op α} (member : th ∈ p.threads)
    (ended : th.live = false ∨ th.prog.returned.isSome = true) : th.tx = none := by
  have kept : ∀ th ∈ p.threads, (th.live = false ∧ th.tx = none) ∨
      th.live = true ∧ th.prog.Emits ok named false th.tx.isSome := by
    refine reached.threads (fun me op => Or.inr ⟨rfl, closes me op⟩) ?_
      (fun _ _ => Or.inl ⟨rfl, rfl⟩) (by simp [empty])
    rintro others d answer th d' th' (⟨dead, -⟩ | ⟨-, emits⟩) live advanced
    · rw [live] at dead
      cases dead
    · obtain ⟨emits', live'⟩ := advance_emits emits advanced
      exact Or.inr ⟨live'.trans live, emits'⟩
  rcases kept th member with ⟨-, none⟩ | ⟨live, emits⟩
  · exact none
  · rcases ended with dead | returned
    · rw [live] at dead
      cases dead
    · exact Option.isSome_eq_false_iff.mp (emits_returned emits returned) |> Option.isNone_iff_eq_none.mp

/-- In every run, what is left of such a call still ends with its commit. -/
theorem Reaches.endsWith {ok : Pool L D W K Op α → Event Op → Prop} {init p : Pool L D W K Op α}
    (shape : ∀ me, (sys me op).EndsWith R false)
    (first : ∀ th ∈ init.threads, th.op = op → th.prog.EndsWith R th.tx.isSome)
    (reached : Reaches sys ok init p) :
    ∀ th ∈ p.threads, th.op = op → th.live = true → th.prog.EndsWith R th.tx.isSome := by
  refine reached.threads (I := fun th => th.op = op → th.live = true →
    th.prog.EndsWith R th.tx.isSome) ?_ ?_ ?_ fun th member same _ => first th member same
  · rintro me _ rfl _
    exact shape me
  · intro others d answer th d' th' ends live advanced same _
    exact (advance_endsWith (ends ((advance_op advanced).symm.trans same) live) advanced).1
  · intro th _ _ live
    cases live

/-- The same of one event of the pool. -/
theorem step_endsWith {p q : Pool L D W K Op α} {i : Nat} {answer : Bool}
    {th : Thread L D W K Op α} (found : p.threads[i]? = some th)
    (ends : th.prog.EndsWith R th.tx.isSome) (stepped : p.step sys (.run i answer) = some q) :
    q.db = p.db ∨ ∃ ℓ th' a, p.next i = some ℓ ∧ q.threads[i]? = some th' ∧
      th'.prog.returned = some a ∧ R ℓ a := by
  simp only [Pool.step, found, Option.bind_eq_bind, Option.bind_some] at stepped
  split at stepped
  · simp only [Option.bind_eq_some_iff, Option.some.injEq] at stepped
    obtain ⟨⟨d', th'⟩, advanced, rfl⟩ := stepped
    rcases (advance_endsWith ends advanced).2 with same | ⟨ℓ, a, labelled, returned, goes⟩
    · exact Or.inl same
    · have below := (List.getElem?_eq_some_iff.mp found).1
      exact Or.inr ⟨ℓ, th', a, by simp [next, found, labelled], List.getElem?_set_self below,
        returned, goes⟩
  · cases stepped

end Pool

end Store
