import LabourBaba.Store.Table

/-!
# Query filters

A filter is what a query asks of a row: that a column has a value, that each or one
of several filters hold, that a related row passes a filter, or that some row of a
related list does. `holds` is its meaning on one row with its relations loaded, and
`findFirst` reads the first row of a table that passes. `findFirst_of_holds` splits
a query for one key and a permission into a lookup by the key and a check of the row
found, which is how a check after loading replaces one that is part of the query.
-/
namespace Store

inductive RowFilter : Type → Type 1
  | all {Row : Type} : RowFilter Row
  | never {Row : Type} : RowFilter Row
  | equals {Row Value : Type} [DecidableEq Value] (column : Row → Value) (value : Value) :
    RowFilter Row
  | both {Row : Type} (left right : RowFilter Row) : RowFilter Row
  | either {Row : Type} (left right : RowFilter Row) : RowFilter Row
  | related {Row Other : Type} (relation : Row → Other) (filter : RowFilter Other) : RowFilter Row
  | someRelated {Row Other : Type} (relation : Row → List Other) (filter : RowFilter Other) :
    RowFilter Row

namespace RowFilter

variable {Row Other Value : Type} [DecidableEq Value]

/-- Whether a row passes. -/
def holds {Row : Type} : RowFilter Row → Row → Bool
  | all, _ => true
  | never, _ => false
  | equals column value, row => decide (column row = value)
  | both left right, row => left.holds row && right.holds row
  | either left right, row => left.holds row || right.holds row
  | related relation filter, row => filter.holds (relation row)
  | someRelated relation filter, row => (relation row).any filter.holds

@[simp] theorem holds_all (row : Row) : holds all row = true := rfl

@[simp] theorem holds_never (row : Row) : holds never row = false := rfl

@[simp] theorem holds_equals (column : Row → Value) (value : Value) (row : Row) :
    holds (equals column value) row = decide (column row = value) := rfl

@[simp] theorem holds_both (left right : RowFilter Row) (row : Row) :
    holds (both left right) row = (left.holds row && right.holds row) := rfl

@[simp] theorem holds_either (left right : RowFilter Row) (row : Row) :
    holds (either left right) row = (left.holds row || right.holds row) := rfl

@[simp] theorem holds_related (relation : Row → Other) (filter : RowFilter Other) (row : Row) :
    holds (related relation filter) row = filter.holds (relation row) := rfl

@[simp] theorem holds_someRelated (relation : Row → List Other) (filter : RowFilter Other)
    (row : Row) : holds (someRelated relation filter) row = (relation row).any filter.holds := rfl

/-- A list of alternatives: one of them holds. -/
def oneOf (filters : List (RowFilter Row)) : RowFilter Row := filters.foldr either never

@[simp] theorem holds_oneOf (filters : List (RowFilter Row)) (row : Row) :
    (oneOf filters).holds row = filters.any (holds · row) := by
  induction filters with
  | nil => rfl
  | cons filter filters ih => rw [List.any_cons, ← ih]; rfl

/-- The first row that passes. -/
def findFirst (filter : RowFilter Row) (rows : List Row) : Option Row := rows.find? filter.holds

/-- A query for a key and a permission finds, under a primary key, the row a lookup by the key
finds, if it has the permission. -/
theorem findFirst_of_holds {key : Row → Value} {rows : List Row} (unique : Table.Unique key rows)
    {filter : RowFilter Row} {k : Value} {permitted : Row → Bool}
    (exact : ∀ row ∈ rows, filter.holds row = true ↔ key row = k ∧ permitted row = true) :
    filter.findFirst rows = (Table.find key rows k).filter permitted := by
  induction rows with
  | nil => rfl
  | cons row rows ih =>
    have rest := ih (List.nodup_cons.mp unique).2
      fun other member => exact other (List.mem_cons_of_mem _ member)
    have here := exact row List.mem_cons_self
    by_cases same : key row = k
    · -- no later row has the key, so the query ends here
      have later : filter.findFirst rows = none := by
        refine List.find?_eq_none.mpr fun other member passes => ?_
        have other_same := ((exact other (List.mem_cons_of_mem _ member)).mp passes).1
        exact (List.nodup_cons.mp unique).1
          (same ▸ other_same ▸ List.mem_map_of_mem member)
      by_cases passes : permitted row = true <;>
        simp_all [findFirst, Table.find, Option.filter]
    · simp_all [findFirst, Table.find]

end RowFilter

end Store
