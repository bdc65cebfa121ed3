import LabourBaba.Store.Footprint

/-!
# Guards

A footprint says what a call may write whatever it finds. `Guards` says of each write what
it meets in the store its statement sees: a statement that closes the rows a filter selects,
for instance, writes only rows that are open. A footprint is the case in which the store
does not matter.
-/
namespace Store

variable {L D W K E α β : Type} [RowStore D W K] {inv : D → Prop} {ok : D → W → Prop}
  {named : L → Prop}

namespace Prog

/-- Every write of the program is permitted in the store that its statement sees, as long as
`inv` holds there, and what it sends is permitted in any. The flags are those of `Emits`. -/
def Guards (inv : D → Prop) (ok : D → W → Prop) (named : L → Prop) (last : Bool) :
    Bool → Prog L D W K α → Prop
  | inTx, .ret _ => inTx = last
  | inTx, .query _ k => ∀ d, inv d → (k d).Guards inv ok named last inTx
  | inTx, .exec ℓ s k => (inTx = true ∨ named ℓ) ∧ ∀ d, inv d →
      (∀ w ∈ (s d).writes, ok d w) ∧ (k d).Guards inv ok named last inTx
  | inTx, .emit ℓ ws k => named ℓ ∧ ∀ d, inv d →
      (∀ w ∈ ws d, ∀ d', ok d' w.val) ∧ (k d).Guards inv ok named last inTx
  | inTx, .ask k => ∀ b, (k b).Guards inv ok named last inTx
  | inTx, .tryLock _ _ k => ∀ b, (k b).Guards inv ok named last inTx
  | _, .start k => k.Guards inv ok named last true
  | _, .commit ℓ k => named ℓ ∧ k.Guards inv ok named last false
  | _, .abort k => k.Guards inv ok named last false

theorem Guards.bind {p : Prog L D W K α} {f : α → Prog L D W K β} {inTx between last : Bool}
    (first : p.Guards inv ok named between inTx)
    (next : ∀ a, (f a).Guards inv ok named last between) :
    (p.bind f).Guards inv ok named last inTx := by
  induction p generalizing inTx with
  | ret a =>
    obtain rfl : inTx = between := first
    exact next a
  | query ℓ k ih => exact fun d holds => ih d (first d holds)
  | exec ℓ s k ih =>
    exact ⟨first.1, fun d holds => ⟨(first.2 d holds).1, ih d (first.2 d holds).2⟩⟩
  | emit ℓ ws k ih =>
    exact ⟨first.1, fun d holds => ⟨(first.2 d holds).1, ih d (first.2 d holds).2⟩⟩
  | ask k ih => exact fun b => ih b (first b)
  | tryLock ℓ key k ih => exact fun b => ih b (first b)
  | start k ih => exact ih first
  | commit ℓ k ih => exact ⟨first.1, ih first.2⟩
  | abort k ih => exact ih first

/-- What may be written in any store. -/
theorem Emits.guards {kind : W → Prop} {p : Prog L D W K α} {last inTx : Bool}
    (emits : p.Emits kind named last inTx) (permitted : ∀ d w, kind w → ok d w) :
    p.Guards inv ok named last inTx := by
  induction p generalizing inTx with
  | ret a => exact emits
  | query ℓ k ih => exact fun d _ => ih d (emits d)
  | exec ℓ s k ih =>
    refine ⟨emits.1, fun d _ => ⟨fun w member => ?_, ih d (emits.2 d).2⟩⟩
    exact permitted d w ((emits.2 d).1 w member)
  | emit ℓ ws k ih =>
    refine ⟨emits.1, fun d _ => ⟨fun w member d' => ?_, ih d (emits.2 d).2⟩⟩
    exact permitted d' w.val ((emits.2 d).1 w member)
  | ask k ih => exact fun b => ih b (emits b)
  | tryLock ℓ key k ih => exact fun b => ih b (emits b)
  | start k ih => exact ih emits
  | commit ℓ k ih => exact ⟨emits.1, ih emits.2⟩
  | abort k ih => exact ih emits

/-- Guards that do not look at the store are a footprint. -/
theorem Guards.emits {kind : W → Prop} {p : Prog L D W K α} {last inTx : Bool}
    (guards : p.Guards (fun _ => True) (fun _ => kind) named last inTx) :
    p.Emits kind named last inTx := by
  induction p generalizing inTx with
  | ret a => exact guards
  | query ℓ k ih => exact fun d => ih d (guards d trivial)
  | exec ℓ s k ih =>
    exact ⟨guards.1, fun d => ⟨(guards.2 d trivial).1, ih d (guards.2 d trivial).2⟩⟩
  | emit ℓ ws k ih =>
    refine ⟨guards.1, fun d => ⟨fun w member => ?_, ih d (guards.2 d trivial).2⟩⟩
    exact (guards.2 d trivial).1 w member d
  | ask k ih => exact fun b => ih b (guards b)
  | tryLock ℓ key k ih => exact fun b => ih b (guards b)
  | start k ih => exact ih guards
  | commit ℓ k ih => exact ⟨guards.1, ih guards.2⟩
  | abort k ih => exact ih guards

end Prog

namespace Call

/-- The call makes only permitted writes, and leaves a transaction open as it found it. -/
def Guards (inv : D → Prop) (ok : D → W → Prop) (named : L → Prop) (inTx : Bool)
    (c : Call L D W K E α) : Prop :=
  c.run.Guards inv ok named inTx inTx

theorem Emits.guards {kind : W → Prop} {inTx : Bool} {c : Call L D W K E α}
    (emits : Emits kind named inTx c) (permitted : ∀ d w, kind w → ok d w) :
    Guards inv ok named inTx c :=
  Prog.Emits.guards emits permitted

theorem Plain.guards {kind : W → Prop} {c : Call L D W K E α} (plain : Plain kind c)
    (permitted : ∀ d w, kind w → ok d w) : Guards inv ok named true c :=
  plain.emits.guards permitted

namespace Guards

variable {inTx : Bool}

theorem emits {kind : W → Prop} {c : Call L D W K E α}
    (guards : Guards (fun _ => True) (fun _ => kind) named inTx c) : Emits kind named inTx c :=
  Prog.Guards.emits guards

theorem pure (a : α) : Guards inv ok named inTx (Pure.pure a : Call L D W K E α) := rfl

theorem throw (e : E) : Guards inv ok named inTx (MonadExcept.throw e : Call L D W K E α) := rfl

theorem read (ℓ : L) (f : D → α) :
    Guards inv ok named inTx (read ℓ f : Call L D W K E α) := fun _ _ => rfl

theorem lock (ℓ : L) (ks : D → List K) (f : D → α) :
    Guards inv ok named true (lock ℓ ks f : Call L D W K E α) :=
  ⟨.inl rfl, fun _ _ => ⟨by simp, rfl⟩⟩

theorem skipLocked (ℓ : L) (key : K) :
    Guards inv ok named inTx (skipLocked ℓ key : Call L D W K E Bool) := fun _ => rfl

theorem stmt {ℓ : L} {f : D → Except E (List W × α)} (known : inTx = true ∨ named ℓ)
    (writes : ∀ d ws a, inv d → f d = .ok (ws, a) → ∀ w ∈ ws, ok d w) :
    Guards inv ok named inTx (stmt ℓ f) := by
  refine ⟨known, fun d holds => ?_⟩
  cases result : f d with
  | error e =>
    simp only [result]
    exact ⟨by simp, rfl⟩
  | ok pair =>
    simp only [result]
    exact ⟨writes d pair.1 pair.2 holds result, rfl⟩

theorem bind {c : Call L D W K E α} {f : α → Call L D W K E β}
    (first : Guards inv ok named inTx c) (next : ∀ a, Guards inv ok named inTx (f a)) :
    Guards inv ok named inTx (c >>= f) := by
  refine Prog.Guards.bind first fun r => ?_
  cases r with
  | ok a => exact next a
  | error e => rfl

theorem attempt {c : Call L D W K E α} (guards : Guards inv ok named inTx c) :
    Guards inv ok named inTx (attempt c) :=
  Prog.Guards.bind guards fun _ => rfl

theorem transaction {label : α → L} {body : Call L D W K E α} (known : ∀ a, named (label a))
    (guards : Guards inv ok named true body) :
    Guards inv ok named false (transaction label body) := by
  refine Prog.Guards.bind guards fun r => ?_
  cases r with
  | ok a => exact ⟨known a, rfl⟩
  | error e => exact rfl

theorem each {xs : List α} {body : α → Call L D W K E Unit}
    (guards : ∀ x, Guards inv ok named inTx (body x)) :
    Guards inv ok named inTx (each xs body) := by
  induction xs with
  | nil => exact .pure ()
  | cons x rest ih => exact (guards x).bind fun _ => ih

end Guards

end Call

end Store
