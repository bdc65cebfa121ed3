import Mathlib

/-!
# Rows that name their successors

A list of rows is linked when the key that each row names is the key of the row after it,
and the last row names none. Such a list has no branch and no cycle as long as its keys
differ: a row is named by the one before it alone.
-/
namespace Store

variable {Row Key : Type} (key : Row → Key) (next : Row → Option Key)

def Linked (rows : List Row) : Prop :=
  ∀ (i : Nat) (row : Row), rows[i]? = some row → next row = rows[i + 1]?.map key

namespace Linked

variable {key next} {rows : List Row}

theorem nil : Linked key next [] := by
  intro i row found
  simp at found

theorem singleton {row : Row} (last : next row = none) : Linked key next [row] := by
  intro i other found
  obtain ⟨rfl, rfl⟩ : i = 0 ∧ row = other := by
    cases i with
    | zero => simpa using found
    | succ i => simp at found
  simpa using last

/-- Rewriting rows in place keeps the links, as long as it keeps keys and names. -/
theorem map (linked : Linked key next rows) {f : Row → Row} (sameKey : ∀ row, key (f row) = key row)
    (sameNext : ∀ row, next (f row) = next row) : Linked key next (rows.map f) := by
  intro i row found
  rw [List.getElem?_map] at found
  obtain ⟨old, here, rfl⟩ := Option.map_eq_some_iff.mp found
  have keys : (key ∘ f) = key := funext sameKey
  rw [sameNext, linked i old here, List.getElem?_map, Option.map_map, keys]

/-- The last row comes to name a new one. -/
theorem concat {front : List Row} {last last' new : Row}
    (linked : Linked key next (front ++ [last])) (sameKey : key last' = key last)
    (names : next last' = some (key new)) (ends : next new = none) :
    Linked key next (front ++ [last', new]) := by
  intro i row found
  rcases Nat.lt_trichotomy i front.length with below | rfl | above
  · -- before the last row nothing changes
    rw [List.getElem?_append_left below] at found
    have named := linked i row ((List.getElem?_append_left below).trans found)
    rw [named]
    rcases Nat.lt_or_ge (i + 1) front.length with inside | outside
    · rw [List.getElem?_append_left inside, List.getElem?_append_left inside]
    · have border : i + 1 = front.length := by omega
      simp [border, sameKey]
  · have same : last' = row := by simpa using found
    simp [← same, names]
  · have behind : front.length ≤ i := by omega
    rw [List.getElem?_append_right behind] at found
    obtain ⟨offset, rfl⟩ : ∃ n, i = front.length + 1 + n := ⟨i - front.length - 1, by omega⟩
    have index : front.length + 1 + offset - front.length = offset + 1 := by omega
    rw [index] at found
    cases offset with
    | succ n => simp at found
    | zero =>
      have same : new = row := by simpa using found
      simp [← same, ends]

/-- Only the last row names none. -/
theorem last_of_none (linked : Linked key next rows) {row : Row} (member : row ∈ rows)
    (ends : next row = none) : ∃ front, rows = front ++ [row] := by
  obtain ⟨i, found⟩ := List.mem_iff_getElem?.mp member
  have below := (List.getElem?_eq_some_iff.mp found).1
  have nothing : rows[i + 1]? = none := by
    have named := linked i row found
    rw [ends] at named
    exact Option.map_eq_none_iff.mp named.symm
  have atEnd : i + 1 = rows.length := by
    have past := List.getElem?_eq_none_iff.mp nothing
    omega
  refine ⟨rows.dropLast, ?_⟩
  have nonempty : rows ≠ [] := List.ne_nil_of_mem member
  have last : rows.getLast nonempty = row := by
    rw [List.getLast_eq_getElem]
    have index : rows.length - 1 = i := by omega
    simp only [index]
    exact (List.getElem?_eq_some_iff.mp found).2
  rw [← last, List.dropLast_append_getLast nonempty]

/-- A row that is named is in the list. -/
theorem exists_next (linked : Linked key next rows) {row : Row} {k : Key} (member : row ∈ rows)
    (names : next row = some k) : ∃ other ∈ rows, key other = k := by
  obtain ⟨i, found⟩ := List.mem_iff_getElem?.mp member
  have named := linked i row found
  rw [names] at named
  obtain ⟨other, here, same⟩ := Option.map_eq_some_iff.mp named.symm
  exact ⟨other, List.mem_of_getElem? here, same⟩

theorem place_eq (distinct : (rows.map key).Nodup) {i j : Nat} {row other : Row}
    (here : rows[i]? = some row) (there : rows[j]? = some other) (same : key row = key other) :
    i = j := by
  have below : i < (rows.map key).length := by
    rw [List.length_map]
    exact (List.getElem?_eq_some_iff.mp here).1
  refine (List.getElem?_inj below distinct).mp ?_
  rw [List.getElem?_map, List.getElem?_map, here, there, Option.map_some, Option.map_some, same]

/-- No two rows name the same. -/
theorem next_inj (linked : Linked key next rows) (distinct : (rows.map key).Nodup)
    {row other : Row} {k : Key} (here : row ∈ rows) (there : other ∈ rows)
    (names : next row = some k) (also : next other = some k) : row = other := by
  obtain ⟨i, found⟩ := List.mem_iff_getElem?.mp here
  obtain ⟨j, found'⟩ := List.mem_iff_getElem?.mp there
  have named := linked i row found
  have named' := linked j other found'
  rw [names] at named
  rw [also] at named'
  obtain ⟨after, behind, key₁⟩ := Option.map_eq_some_iff.mp named.symm
  obtain ⟨after', behind', key₂⟩ := Option.map_eq_some_iff.mp named'.symm
  obtain rfl : i = j := by
    have same := place_eq distinct behind behind' (key₁.trans key₂.symm)
    omega
  exact Option.some.inj (found.symm.trans found')

end Linked

end Store
