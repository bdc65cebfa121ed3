import LabourBaba.Store.Pool

/-!
# Row-wise effects of writes

How a table looks after a list of writes, one row at a time: a write rewrites each row
by itself (`on`) and may add rows (`new`).
-/
namespace Store

variable {D W K Row : Type} [RowStore D W K]

/-- What a list of writes does to one row. -/
def onAll (on : W → Row → Row) (ws : List W) (r : Row) : Row := ws.foldl (fun r w => on w r) r

omit [RowStore D W K] in
@[simp] theorem onAll_nil (on : W → Row → Row) (r : Row) : onAll on [] r = r := rfl

@[simp] theorem onAll_cons (on : W → Row → Row) (w : W) (ws : List W) (r : Row) :
    onAll on (w :: ws) r = onAll on ws (on w r) := rfl

@[simp] theorem onAll_append (on : W → Row → Row) (ws vs : List W) (r : Row) :
    onAll on (ws ++ vs) r = onAll on vs (onAll on ws r) :=
  List.foldl_append

theorem onAll_of_forall {on : W → Row → Row} {ws : List W} (idle : ∀ w ∈ ws, ∀ r, on w r = r)
    (r : Row) : onAll on ws r = r := by
  induction ws with
  | nil => rfl
  | cons w ws ih =>
    rw [onAll_cons, idle w List.mem_cons_self]
    exact ih fun v member => idle v (List.mem_cons_of_mem _ member)

/-- A function of the row that no write of the list moves. -/
theorem onAll_same {Col : Type} {on : W → Row → Row} {ws : List W} (col : Row → Col)
    (same : ∀ w ∈ ws, ∀ r, col (on w r) = col r) (r : Row) : col (onAll on ws r) = col r := by
  induction ws generalizing r with
  | nil => rfl
  | cons w ws ih =>
    rw [onAll_cons, ih fun v member => same v (List.mem_cons_of_mem _ member)]
    exact same w List.mem_cons_self r

structure Effects (table : D → List Row) (on : W → Row → Row) (new : W → Row → Prop) : Prop where
  keeps : ∀ w d r, r ∈ table d → on w r ∈ table (write w d)
  source : ∀ w d r', r' ∈ table (write w d) → (∃ r ∈ table d, r' = on w r) ∨ new w r'

namespace Effects

variable {table : D → List Row} {on : W → Row → Row} {new : W → Row → Prop}

theorem mem_applyAll (effects : Effects table on new) {d : D} {r : Row} (member : r ∈ table d)
    (ws : List W) : onAll on ws r ∈ table (applyAll ws d) := by
  induction ws generalizing d r with
  | nil => exact member
  | cons w ws ih => exact ih (effects.keeps w d r member)

/-- Where a row comes from: from an old one, or from an insertion and the writes after it. -/
theorem of_mem_applyAll (effects : Effects table on new) {ws : List W} {d : D} {r' : Row}
    (member : r' ∈ table (applyAll ws d)) :
    (∃ r ∈ table d, r' = onAll on ws r) ∨
      ∃ before w rest r, ws = before ++ w :: rest ∧ new w r ∧ r' = onAll on rest r := by
  induction ws generalizing d with
  | nil => exact Or.inl ⟨r', member, rfl⟩
  | cons w ws ih =>
    rcases ih member with ⟨mid, present, rfl⟩ | ⟨before, v, rest, r, rfl, inserted, rfl⟩
    · rcases effects.source w d mid present with ⟨r, old, rfl⟩ | inserted
      · exact Or.inl ⟨r, old, rfl⟩
      · exact Or.inr ⟨[], w, ws, mid, rfl, inserted, rfl⟩
    · exact Or.inr ⟨w :: before, v, rest, r, rfl, inserted, rfl⟩

end Effects

end Store
