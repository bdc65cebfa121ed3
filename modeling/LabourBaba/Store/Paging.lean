import Mathlib

/-!
# Pages

A client follows the cursors of a listing until a page has none. Where each page shows the first
of the rows that its cursor leaves, and hands out the cursor of its last row as long as there are
more, the pages show every row once and in order (`follows_of_serves`). A keyset cursor leaves
the rows that are ranked after the one it was made of (`filter_keyset`); one that starts at the
place of a row leaves that row as well, if the listing still has it (`filter_from_of_mem`).
-/
namespace Store.Paging

variable {P C α : Type}

/-- The pages from a cursor on. -/
inductive Follows (next : P → Option C) (page : Option C → P) : Option C → List P → Prop
  | last {cursor : Option C} (ends : next (page cursor) = none) :
      Follows next page cursor [page cursor]
  | more {cursor : Option C} {c : C} {pages : List P} (continues : next (page cursor) = some c)
      (rest : Follows next page (some c) pages) : Follows next page cursor (page cursor :: pages)

/-- A page of what a cursor leaves. -/
structure Serves (rows : P → List α) (next : P → Option C) (encode : α → C) (size : Nat)
    (p : P) (remaining : List α) : Prop where
  shown : rows p = remaining.take size
  goesOn : next p =
    if size < remaining.length then (remaining.take size).getLast?.map encode else none

section Follows

variable {rows : P → List α} {next : P → Option C} {page : Option C → P} {encode : α → C}
  {size : Nat} {cursor : Option C} {pages pages' : List P} {remaining all : List α}

/-- A listing has one sequence of pages. -/
theorem Follows.unique (first : Follows next page cursor pages)
    (second : Follows next page cursor pages') : pages = pages' := by
  induction first generalizing pages' with
  | last ends =>
    cases second with
    | last => rfl
    | more continues => rw [ends] at continues; cases continues
  | more continues rest ih =>
    cases second with
    | last ends => rw [ends] at continues; cases continues
    | more continues' rest' =>
      obtain rfl := Option.some.inj (continues.symm.trans continues')
      rw [ih rest']

theorem Follows.page_of_mem (follows : Follows next page cursor pages) {p : P} (member : p ∈ pages) :
    ∃ c, p = page c := by
  induction follows with
  | last => exact ⟨_, List.mem_singleton.mp member⟩
  | more _ _ ih =>
    rcases List.mem_cons.mp member with rfl | member
    · exact ⟨_, rfl⟩
    · exact ih member

/-- The last row of a full page, and what is left after it. -/
theorem last_of_full (positive : 0 < size) (full : size ≤ remaining.length) :
    ∃ x, (remaining.take size).getLast? = some x ∧ x :: remaining.drop size <:+ remaining := by
  have nonempty : remaining.take size ≠ [] := by
    rw [ne_eq, List.take_eq_nil_iff]
    rintro (zero | empty)
    · omega
    · simp only [empty, List.length_nil] at full
      omega
  refine ⟨(remaining.take size).getLast nonempty, List.getLast?_eq_some_getLast nonempty,
    (remaining.take size).dropLast, ?_⟩
  rw [List.append_cons, List.dropLast_append_getLast nonempty, List.take_append_drop]

/-- The pages show the remaining rows, and a page has a cursor exactly if rows are left. -/
theorem follows_of_serves (positive : 0 < size)
    (later : ∀ x after, x :: after <:+ all →
      Serves rows next encode size (page (some (encode x))) after)
    (served : Serves rows next encode size (page cursor) remaining) (suffix : remaining <:+ all) :
    ∃ pages, Follows next page cursor pages ∧ pages.flatMap rows = remaining ∧
      ∀ before p after, pages = before ++ p :: after →
        ((next p).isSome = true ↔ after.flatMap rows ≠ []) := by
  -- each page takes a row at least from what is left
  induction fewer : remaining.length using Nat.strongRecOn generalizing remaining cursor with
  | _ n ih =>
    subst fewer
    by_cases more : size < remaining.length
    · obtain ⟨x, last, left⟩ := last_of_full positive (Nat.le_of_lt more)
      have continues : next (page cursor) = some (encode x) := by
        rw [served.goesOn, if_pos more, last, Option.map_some]
      have shorter : (remaining.drop size).length < remaining.length := by
        rw [List.length_drop]
        omega
      have suffix' : x :: remaining.drop size <:+ all := left.trans suffix
      obtain ⟨pages, follows, shown, exact'⟩ := ih _ shorter (later x _ suffix')
        ((List.suffix_cons x _).trans suffix') rfl
      refine ⟨page cursor :: pages, .more continues follows, ?_, fun before p after split => ?_⟩
      · rw [List.flatMap_cons, served.shown, shown, List.take_append_drop]
      · rcases List.cons_eq_append_iff.mp split with ⟨rfl, here⟩ | ⟨before', rfl, later⟩
        · obtain ⟨rfl, rfl⟩ := List.cons_eq_cons.mp here.symm
          rw [continues, shown]
          have rest : remaining.drop size ≠ [] := by
            rw [ne_eq, List.drop_eq_nil_iff]
            omega
          simp [rest]
        · exact exact' before' p after later
    · have ends : next (page cursor) = none := by rw [served.goesOn, if_neg more]
      refine ⟨[page cursor], .last ends, ?_, fun before p after split => ?_⟩
      · rw [List.flatMap_singleton, served.shown, List.take_of_length_le (by omega)]
      · rcases List.cons_eq_append_iff.mp split with ⟨rfl, here⟩ | ⟨before', rfl, later⟩
        · obtain ⟨rfl, rfl⟩ := List.cons_eq_cons.mp here.symm
          simp [ends]
        · simp at later

end Follows

/-! ### Ranked lists -/

section Ranked

variable {κ : Type} [LinearOrder κ] {key : α → κ} {rows : List α}

/-- What is ranked after a key is the end of the list. -/
theorem filter_after_suffix (ranked : rows.Pairwise fun a b => key a < key b) (k : κ) :
    (rows.filter fun y => decide (k < key y)) <:+ rows := by
  induction rows with
  | nil => exact List.nil_suffix
  | cons x rest ih =>
    obtain ⟨first, ranked⟩ := List.pairwise_cons.mp ranked
    by_cases after : k < key x
    · have all : ((x :: rest).filter fun y => decide (k < key y)) = x :: rest := by
        refine List.filter_eq_self.mpr fun y member => decide_eq_true ?_
        rcases List.mem_cons.mp member with rfl | member
        · exact after
        · exact lt_trans after (first y member)
      exact all.symm ▸ List.suffix_refl (x :: rest)
    · rw [List.filter_cons_of_neg (by simpa using after)]
      exact (ih ranked).trans (List.suffix_cons x rest)

/-- From the place of a row on, the row comes first. -/
theorem filter_from_of_mem (ranked : rows.Pairwise fun a b => key a < key b) {x : α}
    (member : x ∈ rows) :
    (rows.filter fun y => decide (key x ≤ key y)) =
      x :: rows.filter fun y => decide (key x < key y) := by
  induction rows with
  | nil => cases member
  | cons y rest ih =>
    obtain ⟨first, ranked⟩ := List.pairwise_cons.mp ranked
    rcases List.mem_cons.mp member with rfl | member
    · have same : ∀ y ∈ rest, decide (key x ≤ key y) = decide (key x < key y) := by
        intro y member
        rw [decide_eq_true (le_of_lt (first y member)), decide_eq_true (first y member)]
      rw [List.filter_cons_of_pos (by simp), List.filter_cons_of_neg (by simp),
        List.filter_congr same]
    · have before := first x member
      rw [List.filter_cons_of_neg (by simpa using before),
        List.filter_cons_of_neg (by simpa using le_of_lt before), ih ranked member]

/-- A place that no row has. -/
theorem filter_from_of_notMem {k : κ} (absent : ∀ y ∈ rows, key y ≠ k) :
    (rows.filter fun y => decide (k ≤ key y)) = rows.filter fun y => decide (k < key y) := by
  refine List.filter_congr fun y member => decide_eq_decide.mpr ?_
  exact ⟨fun at_ => lt_of_le_of_ne at_ (absent y member).symm, le_of_lt⟩

/-- A predicate that compares with a row of a ranked list leaves what is after the row. -/
theorem filter_keyset {before after : List α} {x : α}
    {comes : α → Bool} (ranked : (before ++ x :: after).Pairwise fun a b => key a < key b)
    (keyset : ∀ y ∈ before ++ x :: after, comes y = true ↔ key x < key y) :
    (before ++ x :: after).filter comes = after := by
  obtain ⟨-, ranked', ahead⟩ := List.pairwise_append.mp ranked
  have none' : before.filter comes = [] := by
    refine List.filter_eq_nil_iff.mpr fun y member after => ?_
    have later := (keyset y (List.mem_append_left _ member)).mp after
    exact absurd later (lt_asymm (ahead y member x List.mem_cons_self))
  have self : ¬ comes x = true := by
    intro later
    exact lt_irrefl _ ((keyset x (by simp)).mp later)
  have rest : after.filter comes = after := by
    refine List.filter_eq_self.mpr fun y member => ?_
    refine (keyset y (List.mem_append_right _ (List.mem_cons_of_mem x member))).mpr ?_
    exact (List.pairwise_cons.mp ranked').1 y member
  rw [List.filter_append, none', List.filter_cons_of_neg self, rest, List.nil_append]

end Ranked

end Store.Paging
