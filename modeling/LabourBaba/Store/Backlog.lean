import Mathlib

/-!
# Backlogs

A backlog is worked off from the front, a page at a time. A turn looks at the first rows of it:
those it cannot deal with stay where they are, and the next turn looks at them again before it
comes to any other. `reach` counts how far into the first backlog the turns have looked, and
`After.mem_iff` says that a row which can be dealt with has gone exactly if they have come to it.
-/
namespace Store.Backlog

variable {α : Type}

/-! ### Sorted and filtered rows -/

section Sorted

variable {r : α → α → Prop} [DecidableRel r] [IsTrans α r]

theorem filter_orderedInsert (q : α → Bool) (a : α) {rows : List α} (sorted : rows.Pairwise r) :
    (rows.orderedInsert r a).filter q =
      if q a then (rows.filter q).orderedInsert r a else rows.filter q := by
  induction rows with
  | nil => cases h : q a <;> simp [h]
  | cons b rest ih =>
    obtain ⟨first, sorted⟩ := List.pairwise_cons.mp sorted
    rw [List.orderedInsert_cons]
    split
    next before =>
      cases taken : q a with
      | false => simp [taken]
      | true =>
        -- every row that is left comes after `b`, so after `a`
        have below : ∀ c ∈ (b :: rest).filter q, r a c := by
          intro c member
          rcases List.mem_cons.mp (List.mem_of_mem_filter member) with rfl | later
          · exact before
          · exact trans_of r before (first c later)
        rw [List.filter_cons_of_pos taken, if_pos rfl]
        cases rows : (b :: rest).filter q with
        | nil => rfl
        | cons c cs =>
          rw [List.orderedInsert_cons, if_pos (below c (by rw [rows]; exact List.mem_cons_self))]
    next after =>
      cases kept : q b with
      | false => rw [List.filter_cons_of_neg (by simp [kept]), ih sorted,
          List.filter_cons_of_neg (by simp [kept])]
      | true =>
        rw [List.filter_cons_of_pos kept, ih sorted, List.filter_cons_of_pos kept]
        split
        · rw [List.orderedInsert_cons, if_neg after]
        · rfl

theorem filter_insertionSort [Std.Total r] (q : α → Bool) (rows : List α) :
    (rows.insertionSort r).filter q = (rows.filter q).insertionSort r := by
  induction rows with
  | nil => rfl
  | cons a rest ih =>
    rw [List.insertionSort_cons, filter_orderedInsert q a (List.pairwise_insertionSort r rest), ih]
    cases taken : q a with
    | false => rw [List.filter_cons_of_neg (by simp [taken])]; rfl
    | true => rw [List.filter_cons_of_pos taken, List.insertionSort_cons]; rfl

end Sorted

/-- The rows that come first are those of which a property holds that all earlier rows have. -/
theorem filter_append_filter {r : α → α → Prop} {q : α → Bool} {rows : List α}
    (sorted : rows.Pairwise r) (downward : ∀ a b, r a b → q b = true → q a = true) :
    rows = rows.filter q ++ rows.filter fun a => !q a := by
  induction rows with
  | nil => rfl
  | cons a rest ih =>
    obtain ⟨first, sorted⟩ := List.pairwise_cons.mp sorted
    cases taken : q a with
    | true =>
      rw [List.filter_cons_of_pos taken, List.filter_cons_of_neg (by simp [taken]), List.cons_append,
        ← ih sorted]
    | false =>
      have none_ : ∀ b ∈ rest, q b = false := fun b member =>
        Bool.eq_false_iff.mpr fun later => by
          rw [downward a b (first b member) later] at taken
          cases taken
      rw [List.filter_cons_of_neg (by simp [taken]), List.filter_eq_nil_iff.mpr (by simpa using none_),
        List.filter_cons_of_pos (by simp [taken]), List.nil_append,
        List.filter_eq_self.mpr (by simpa using none_)]

/-! ### Turns -/

section Turns

variable (size : Nat) (stays : α → Bool)

/-- The backlog after a turn. -/
def turn (rows : List α) : List α := (rows.take size).filter stays ++ rows.drop size

/-- How many rows of the backlog the first `n` turns look at. -/
def reach (rows : List α) : Nat → Nat
  | 0 => 0
  | n + 1 => reach rows n + (size - (rows.take (reach rows n)).countP stays)

/-- A backlog after `n` turns, while other rows have joined at the end of it. -/
inductive After (rows : List α) : Nat → List α → Prop
  | start : After rows 0 rows
  | turn {n : Nat} {later : List α} (before : After rows n later) :
      After rows (n + 1) (turn size stays later)
  | join {n : Nat} {later : List α} (more : List α) (before : After rows n later)
      (others : ∀ a ∈ more, a ∉ rows) : After rows n (later ++ more)

variable {size : Nat} {stays : α → Bool} {rows later : List α} {n : Nat}

/-- A turn takes the rows of its page away that can be dealt with. -/
theorem turn_eq_filter [DecidableEq α] (unique : rows.Nodup) :
    turn size stays rows = rows.filter fun a => decide (a ∉ rows.take size) || stays a := by
  have split : (rows.take size ++ rows.drop size).Nodup := by rwa [List.take_append_drop]
  have apart := List.disjoint_of_nodup_append split
  conv_rhs => rw [← List.take_append_drop size rows]
  rw [turn, List.filter_append]
  congr 1
  · refine List.filter_congr fun a member => ?_
    simp [member]
  · refine (List.filter_eq_self.mpr fun a member => ?_).symm
    have absent : a ∉ rows.take size := fun front => apart front member
    simp [absent]

/-- The rows that stay in front of the others, and the others. -/
theorem After.shape (after : After size stays rows n later) :
    (rows.take (reach size stays rows n)).countP stays ≤ size ∧
    ∃ more, (∀ a ∈ more, a ∉ rows) ∧
      later = (rows.take (reach size stays rows n)).filter stays ++
        rows.drop (reach size stays rows n) ++ more := by
  induction after with
  | start => exact ⟨by simp [reach], [], by simp, by simp [reach]⟩
  | join extra _ others ih =>
    obtain ⟨few, more, apart, same⟩ := ih
    refine ⟨few, more ++ extra, fun a member => ?_, by rw [same, List.append_assoc]⟩
    rcases List.mem_append.mp member with member | member
    · exact apart a member
    · exact others a member
  | @turn n later _ ih =>
    obtain ⟨few, more, apart, same⟩ := ih
    -- the page shows the rows that have stayed, then `room` others
    generalize seen : reach size stays rows n = f at few same
    let room := size - (rows.take f).countP stays
    have next : reach size stays rows (n + 1) = f + room := by rw [reach, seen]
    have looked : rows.take (f + room) = rows.take f ++ (rows.drop f).take room := List.take_add ..
    have front : ((rows.take f).filter stays).length ≤ size := by
      rwa [← List.countP_eq_length_filter]
    have width : size - ((rows.take f).filter stays).length = room := by
      rw [← List.countP_eq_length_filter]
    have page : later.take size =
        (rows.take f).filter stays ++ ((rows.drop f).take room ++
          more.take (room - (rows.drop f).length)) := by
      rw [same, List.append_assoc, List.take_append, List.take_of_length_le front, width,
        List.take_append]
    have rest : later.drop size = (rows.drop f).drop room ++ more.drop (room - (rows.drop f).length) := by
      rw [same, List.append_assoc, List.drop_append, List.drop_eq_nil_of_le front, width,
        List.drop_append, List.nil_append]
    rw [next, looked]
    refine ⟨?_, ?_⟩
    · rw [List.countP_append]
      have shown : ((rows.drop f).take room).countP stays ≤ room :=
        List.countP_le_length.trans (List.length_take_le room _)
      omega
    · rw [Backlog.turn, page, rest, List.filter_append, List.filter_append, List.filter_filter]
      simp only [Bool.and_self]
      by_cases short : room ≤ (rows.drop f).length
      · refine ⟨more, apart, ?_⟩
        rw [Nat.sub_eq_zero_of_le short, List.take_zero, List.drop_zero, List.drop_drop]
        simp
      · refine ⟨(more.take (room - (rows.drop f).length)).filter stays ++
          more.drop (room - (rows.drop f).length), fun a member => apart a ?_, ?_⟩
        · rcases List.mem_append.mp member with member | member
          · exact List.mem_of_mem_take (List.mem_of_mem_filter member)
          · exact List.mem_of_mem_drop member
        · have over_ : (rows.drop f).drop room = [] := List.drop_eq_nil_of_le (by omega)
          have past : rows.drop (f + room) = [] := by rw [← List.drop_drop, over_]
          simp [over_, past, List.filter_append]

/-- A row that can be dealt with is left exactly if no turn has come to it. -/
theorem After.mem_iff (after : After size stays rows n later) (unique : rows.Nodup) {a : α}
    (member : a ∈ rows) (leaves : stays a = false) :
    a ∈ later ↔ a ∉ rows.take (reach size stays rows n) := by
  obtain ⟨-, more, apart, rfl⟩ := after.shape
  have split : (rows.take (reach size stays rows n) ++ rows.drop (reach size stays rows n)).Nodup := by
    rwa [List.take_append_drop]
  have either : a ∈ rows.take (reach size stays rows n) ∨ a ∈ rows.drop (reach size stays rows n) := by
    rwa [← List.mem_append, List.take_append_drop]
  constructor
  · intro left looked
    rcases List.mem_append.mp left with left | left
    · rcases List.mem_append.mp left with stayed | behind
      · rw [(List.mem_filter.mp stayed).2] at leaves
        cases leaves
      · exact List.disjoint_of_nodup_append split looked behind
    · exact apart a left member
  · intro unlooked
    exact List.mem_append_left _ (List.mem_append_right _ (either.resolve_left unlooked))

end Turns

end Store.Backlog
