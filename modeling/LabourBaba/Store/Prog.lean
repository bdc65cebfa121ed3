import Mathlib

/-!
# Calls against a transactional store

A call is the sequence of statements it still has to issue. A statement sees the
committed store overlaid with the writes of its own open transaction (READ
COMMITTED), locks the rows it writes or selects `FOR UPDATE`, and keeps these
locks until the transaction ends. Outside a transaction each statement commits by
itself. Effects that no transaction covers (a queue, a remote service) are
emitted at once.
-/
namespace Store

/-- Rows addressed by keys, and writes that touch only the rows of their keys. -/
class RowStore (D : Type) (W K : outParam Type) where
  Row : K → Type
  row : D → (k : K) → Row k
  write : W → D → D
  keys : W → List K
  row_write : ∀ (w : W) (d : D) (k : K), k ∉ keys w → row (write w d) k = row d k

export RowStore (row write keys)

/-- A write that touches no row: an entry of a queue, of a log or at a remote service. -/
abbrev Unlocked (D : Type) {W K : Type} [RowStore D W K] := { w : W // keys D w = [] }

/-- What one statement does to the rows its caller sees: rows it only locks, and writes. -/
structure Stmt (K W : Type) where
  locks : List K := []
  writes : List W := []

/-- An open transaction: the locks it holds and the writes not yet committed. -/
structure Tx (K W : Type) where
  locks : List K := []
  writes : List W := []

inductive Prog (L D W K : Type) [RowStore D W K] (α : Type) : Type where
  | ret (a : α)
  | query (ℓ : L) (k : D → Prog L D W K α)
  | exec (ℓ : L) (s : D → Stmt K W) (k : D → Prog L D W K α)
  | emit (ℓ : L) (ws : D → List (Unlocked D)) (k : D → Prog L D W K α)
  | ask (k : Bool → Prog L D W K α)
  | tryLock (ℓ : L) (key : K) (k : Bool → Prog L D W K α)
  | start (k : Prog L D W K α)
  | commit (ℓ : L) (k : Prog L D W K α)
  | abort (k : Prog L D W K α)

variable {L D W K α β : Type} [RowStore D W K]

namespace Prog

def bind : Prog L D W K α → (α → Prog L D W K β) → Prog L D W K β
  | .ret a, f => f a
  | .query ℓ k, f => .query ℓ fun d => (k d).bind f
  | .exec ℓ s k, f => .exec ℓ s fun d => (k d).bind f
  | .emit ℓ ws k, f => .emit ℓ ws fun d => (k d).bind f
  | .ask k, f => .ask fun b => (k b).bind f
  | .tryLock ℓ key k, f => .tryLock ℓ key fun b => (k b).bind f
  | .start k, f => .start (k.bind f)
  | .commit ℓ k, f => .commit ℓ (k.bind f)
  | .abort k, f => .abort (k.bind f)

instance : Monad (Prog L D W K) where
  pure := .ret
  bind := bind

/-- The label of the statement a call issues next. -/
def label : Prog L D W K α → Option L
  | .query ℓ _ | .exec ℓ _ _ | .emit ℓ _ _ | .tryLock ℓ _ _ | .commit ℓ _ => some ℓ
  | .ret _ | .ask _ | .start _ | .abort _ => none

/-- The call has returned. -/
def returned : Prog L D W K α → Option α
  | .ret a => some a
  | _ => none

end Prog

/-! ### Fallible calls -/

/-- A call that may throw. -/
abbrev Call (L D W K : Type) [RowStore D W K] (E : Type) := ExceptT E (Prog L D W K)

namespace Call

variable {E : Type}

def read (ℓ : L) (f : D → α) : Call L D W K E α :=
  ExceptT.mk (.query ℓ fun d => .ret (.ok (f d)))

/-- A statement that either fails (a violated constraint) and writes nothing, or
writes rows and returns a value computed from what it saw. -/
def stmt (ℓ : L) (f : D → Except E (List W × α)) : Call L D W K E α :=
  ExceptT.mk (.exec ℓ
    (fun d => match f d with
      | .ok (ws, _) => { writes := ws }
      | .error _ => {})
    (fun d => match f d with
      | .ok (_, a) => .ret (.ok a)
      | .error e => .ret (.error e)))

/-- `SELECT ... FOR UPDATE`: waits for the rows and returns what they hold. -/
def lock (ℓ : L) (ks : D → List K) (f : D → α) : Call L D W K E α :=
  ExceptT.mk (.exec ℓ (fun d => { locks := ks d }) fun d => .ret (.ok (f d)))

/-- `FOR UPDATE SKIP LOCKED`. -/
def skipLocked (ℓ : L) (key : K) : Call L D W K E Bool :=
  ExceptT.mk (.tryLock ℓ key fun b => .ret (.ok b))

def send (ℓ : L) (f : D → List (Unlocked D) × α) : Call L D W K E α :=
  ExceptT.mk (.emit ℓ (fun d => (f d).1) fun d => .ret (.ok (f d).2))

/-- An answer of the environment: whether a remote step succeeds. -/
def choose : Call L D W K E Bool :=
  ExceptT.mk (.ask fun b => .ret (.ok b))

def finish (label : α → L) : Except E α → Prog L D W K (Except E α)
  | .ok a => .commit (label a) (.ret (.ok a))
  | .error e => .abort (.ret (.error e))

/-- A transaction block: a thrown error rolls it back and is passed on. The label of
the commit is computed from the block's result. -/
def transaction (label : α → L) (body : Call L D W K E α) : Call L D W K E α :=
  ExceptT.mk (.start (body.run.bind (finish label)))

/-- `try ... catch` around statements outside a transaction. -/
def attempt (body : Call L D W K E α) : Call L D W K E (Except E α) :=
  ExceptT.mk (body.run.bind fun r => .ret (.ok r))

end Call

end Store
