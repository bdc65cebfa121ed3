import Mathlib

/-!
# Keyed tables

A table is the list of its rows in insertion order. `find` reads the row with a
given key, `insert` adds a row unless a unique constraint refuses it, and `modify`
rewrites the rows with some keys in place; rows are never deleted. `countP_modify`
and `countP_insert` say how a count over the rows moves, which is what a counter
kept beside the table has to agree with.
-/
namespace Store.Table

variable {Row Key : Type} [DecidableEq Key] (key : Row → Key)

def find (rows : List Row) (k : Key) : Option Row :=
  rows.find? (fun row => decide (key row = k))

/-- Insertion under a unique constraint: a row that clashes with a stored one is refused. -/
def insert (clash : Row → Row → Bool) (rows : List Row) (row : Row) : List Row :=
  if rows.any (clash row) then rows else rows ++ [row]

def modify (rows : List Row) (ks : List Key) (f : Row → Row) : List Row :=
  rows.map (fun row => if key row ∈ ks then f row else row)

/-- The primary key: no two rows share it. -/
def Unique (rows : List Row) : Prop := (rows.map key).Nodup

variable {key}

/-! ### Lookups -/

@[simp] theorem find_nil (k : Key) : find key [] k = none := rfl

theorem find_cons (old : Row) (rest : List Row) (k : Key) :
    find key (old :: rest) k = if key old = k then some old else find key rest k := by
  by_cases hit : key old = k <;> simp [find, hit]

theorem find_key {rows : List Row} {k : Key} {row : Row}
    (found : find key rows k = some row) : key row = k := by
  simpa using List.find?_some found

theorem mem_of_find {rows : List Row} {k : Key} {row : Row}
    (found : find key rows k = some row) : row ∈ rows :=
  List.mem_of_find?_eq_some found

theorem find_none_iff {rows : List Row} {k : Key} :
    find key rows k = none ↔ ∀ row ∈ rows, key row ≠ k := by
  simp [find]

theorem find_of_mem {rows : List Row} {row : Row} (unique : Unique key rows)
    (member : row ∈ rows) : find key rows (key row) = some row := by
  induction rows with
  | nil => cases member
  | cons old rest ih =>
    simp only [Unique, List.map_cons, List.nodup_cons] at unique
    rw [find_cons]
    rcases List.mem_cons.mp member with rfl | member
    · simp
    · have ne : key old ≠ key row := fun same => unique.1 (same ▸ List.mem_map_of_mem member)
      rw [if_neg ne]
      exact ih unique.2 member

theorem eq_of_find {rows : List Row} {k : Key} {row other : Row} (unique : Unique key rows)
    (found : find key rows k = some row) (member : other ∈ rows) (same : key other = k) :
    other = row := by
  have foundOther := find_of_mem unique member
  rw [same, found] at foundOther
  exact (Option.some.inj foundOther).symm

theorem find_isSome_of_mem {rows : List Row} {row : Row} (member : row ∈ rows) :
    ∃ other, find key rows (key row) = some other := by
  cases found : find key rows (key row) with
  | some other => exact ⟨other, rfl⟩
  | none => exact absurd rfl (find_none_iff.mp found row member)

/-- What is computed from the rows of one key comes from the row that is found under it. -/
theorem filterMap_of_key {Col : Type} {rows : List Row} {k : Key} {g : Row → Option Col}
    (unique : Unique key rows) (other : ∀ row ∈ rows, key row ≠ k → g row = none) :
    rows.filterMap g = (find key rows k).toList.filterMap g := by
  induction rows with
  | nil => rfl
  | cons old rest ih =>
    simp only [Unique, List.map_cons, List.nodup_cons] at unique
    have later := ih unique.2 fun row member => other row (List.mem_cons_of_mem _ member)
    rw [find_cons]
    split
    next hit =>
      -- no later row has the key of the first
      have absent : find key rest k = none := find_none_iff.mpr fun row member same =>
        unique.1 (List.mem_map.mpr ⟨row, member, same.trans hit.symm⟩)
      rw [absent] at later
      cases value : g old <;> simp_all
    next miss => rw [List.filterMap_cons_none (other old List.mem_cons_self miss), later]

theorem find_append (rows extra : List Row) (k : Key) :
    find key (rows ++ extra) k = (find key rows k).or (find key extra k) := by
  simp [find, List.find?_append]

/-! ### Modification -/

theorem mem_modify {rows : List Row} {ks : List Key} {f : Row → Row} {row : Row} :
    row ∈ modify key rows ks f ↔
      ∃ old ∈ rows, row = if key old ∈ ks then f old else old := by
  simp [modify, eq_comm]

theorem modify_modify (rows : List Row) (ks : List Key) (f g : Row → Row)
    (keeps : ∀ row, key (f row) = key row) :
    modify key (modify key rows ks f) ks g = modify key rows ks fun row => g (f row) := by
  simp only [modify, List.map_map]
  refine List.map_congr_left fun row _ => ?_
  by_cases hit : key row ∈ ks <;> simp [hit, keeps]

/-- Modifying the rows a filter selects, by their keys. -/
theorem modify_filter {rows : List Row} (unique : Unique key rows) (p : Row → Bool) (f : Row → Row) :
    modify key rows ((rows.filter p).map key) f = rows.map fun row => if p row then f row else row := by
  refine List.map_congr_left fun row member => ?_
  have selected : key row ∈ (rows.filter p).map key ↔ p row = true := by
    constructor
    · intro present
      obtain ⟨other, chosen, same⟩ := List.mem_map.mp present
      obtain ⟨stored, holds⟩ := List.mem_filter.mp chosen
      rwa [← eq_of_find unique (find_of_mem unique member) stored same]
    · exact fun holds => List.mem_map_of_mem (List.mem_filter.mpr ⟨member, holds⟩)
  simp only [selected]

/-- Rows that a change takes out of a selection, or leaves as they are. -/
theorem filter_map_of_fixed {q : Row → Bool} {f : Row → Row} {rows : List Row}
    (fixed : ∀ a ∈ rows, q (f a) = true → f a = a) :
    (rows.map f).filter q = rows.filter fun a => q (f a) := by
  have same : ∀ a ∈ rows.filter (q ∘ f), f a = a := fun a member =>
    fixed a (List.mem_of_mem_filter member) (List.mem_filter.mp member).2
  rw [List.filter_map, List.map_congr_left same, List.map_id']
  rfl

theorem find_modify (rows : List Row) (ks : List Key) (f : Row → Row) (k : Key)
    (keeps : ∀ row, key (f row) = key row) :
    find key (modify key rows ks f) k =
      (find key rows k).map (fun row => if k ∈ ks then f row else row) := by
  induction rows with
  | nil => rfl
  | cons old rest ih =>
    have keyEq : key (if key old ∈ ks then f old else old) = key old := by
      split
      · exact keeps old
      · rfl
    have ih' : find key (List.map (fun row => if key row ∈ ks then f row else row) rest) k =
        (find key rest k).map (fun row => if k ∈ ks then f row else row) := ih
    simp only [modify, List.map_cons, find_cons, keyEq]
    by_cases hit : key old = k
    · simp [hit]
    · simp only [hit, if_false]
      exact ih'

theorem find_modify_of_notMem (rows : List Row) (ks : List Key) (f : Row → Row) (k : Key)
    (keeps : ∀ row, key (f row) = key row) (other : k ∉ ks) :
    find key (modify key rows ks f) k = find key rows k := by
  rw [find_modify rows ks f k keeps]
  simp [other]

/-- A column that the modification leaves alone. -/
theorem map_modify {Col : Type} (col : Row → Col) (rows : List Row) (ks : List Key) (f : Row → Row)
    (keeps : ∀ row, col (f row) = col row) : (modify key rows ks f).map col = rows.map col := by
  simp only [modify, List.map_map]
  apply List.map_congr_left
  intro row _
  simp only [Function.comp]
  split
  · exact keeps row
  · rfl

theorem unique_modify {rows : List Row} (ks : List Key) (f : Row → Row)
    (keeps : ∀ row, key (f row) = key row) (unique : Unique key rows) :
    Unique key (modify key rows ks f) := by
  simpa only [Unique, map_modify key rows ks f keeps] using unique

theorem countP_modify_of_same (p : Row → Bool) (rows : List Row) (ks : List Key) (f : Row → Row)
    (same : ∀ row ∈ rows, key row ∈ ks → p (f row) = p row) :
    (modify key rows ks f).countP p = rows.countP p := by
  simp only [modify, List.countP_map]
  apply List.countP_congr
  intro row member
  simp only [Function.comp]
  by_cases hit : key row ∈ ks
  · simp [hit, same row member hit]
  · simp [hit]

/-- The number of rows with a property after one row is rewritten: the old row
leaves the count, the new one enters it. -/
theorem countP_modify (p : Row → Bool) {rows : List Row} {k : Key} {old : Row} (f : Row → Row)
    (unique : Unique key rows) (found : find key rows k = some old) :
    (modify key rows [k] f).countP p + (if p old then 1 else 0) =
      rows.countP p + (if p (f old) then 1 else 0) := by
  induction rows with
  | nil => cases found
  | cons first rest ih =>
    simp only [Unique, List.map_cons, List.nodup_cons] at unique
    rw [find_cons] at found
    simp only [modify, List.map_cons, List.countP_cons, List.mem_singleton]
    by_cases hit : key first = k
    · simp only [hit, if_true, Option.some.injEq] at found
      subst found
      -- the key is taken by the first row, so the rest of the table is left alone
      have rest_same : (modify key rest [k] f).countP p = rest.countP p := by
        apply countP_modify_of_same
        intro row member inKs
        have rowKey : key row = k := by simpa using inKs
        exact absurd (rowKey.trans hit.symm ▸ List.mem_map_of_mem member) unique.1
      simp only [modify, List.mem_singleton] at rest_same
      rw [rest_same]
      simp only [hit, if_true]
      omega
    · simp only [hit, if_false] at found
      have tail := ih unique.2 found
      simp only [modify, List.mem_singleton] at tail
      simp only [hit, if_false]
      omega

/-! ### Insertion -/

theorem insert_of_free {clash : Row → Row → Bool} {rows : List Row} {row : Row}
    (free : ∀ old ∈ rows, clash row old = false) : insert clash rows row = rows ++ [row] := by
  have none : rows.any (clash row) = false := by simpa using free
  simp [insert, none]

/-- Rows that clash neither with an old one nor with each other are all appended. -/
theorem foldl_insert_of_free {clash : Row → Row → Bool} {rows new : List Row}
    (free : ∀ row ∈ new, ∀ old ∈ rows, clash row old = false)
    (apart : new.Pairwise fun a b => clash b a = false) :
    new.foldl (insert clash) rows = rows ++ new := by
  induction new generalizing rows with
  | nil => simp
  | cons row new ih =>
    rw [List.pairwise_cons] at apart
    rw [List.foldl_cons, insert_of_free (free row List.mem_cons_self), ih ?_ apart.2]
    · simp
    · intro later member old stored
      rcases List.mem_append.mp stored with stored | stored
      · exact free later (List.mem_cons_of_mem _ member) old stored
      · rw [List.mem_singleton.mp stored]
        exact apart.1 later member

theorem mem_insert_of_mem {clash : Row → Row → Bool} {rows : List Row} {row old : Row}
    (member : old ∈ rows) : old ∈ insert clash rows row := by
  simp only [insert]
  split
  · exact member
  · exact List.mem_append_left _ member

theorem mem_insert {clash : Row → Row → Bool} {rows : List Row} {row other : Row}
    (member : other ∈ insert clash rows row) : other ∈ rows ∨ other = row := by
  simp only [insert] at member
  split at member
  · exact Or.inl member
  · simpa using member

/-- A row that an insertion has added clashes with no old one. -/
theorem mem_insert_free {clash : Row → Row → Bool} {rows : List Row} {row other : Row}
    (member : other ∈ insert clash rows row) :
    other ∈ rows ∨ other = row ∧ ∀ old ∈ rows, clash row old = false := by
  simp only [insert] at member
  split at member
  · exact Or.inl member
  next free =>
    rcases List.mem_append.mp member with old | new
    · exact Or.inl old
    · exact Or.inr ⟨List.mem_singleton.mp new, by simpa using free⟩

omit [DecidableEq Key] in
theorem unique_insert {clash : Row → Row → Bool} {rows : List Row} (row : Row)
    (covers : ∀ old, key row = key old → clash row old = true) (unique : Unique key rows) :
    Unique key (insert clash rows row) := by
  simp only [insert]
  split
  · exact unique
  next free =>
    have fresh : key row ∉ rows.map key := by
      intro present
      obtain ⟨old, member, same⟩ := List.mem_map.mp present
      exact free (List.any_eq_true.mpr ⟨old, member, covers old same.symm⟩)
    rw [Unique, List.map_append, List.map_singleton]
    exact List.nodup_append.mpr ⟨unique, by simp, by
      intro k present other same
      simp only [List.mem_singleton] at same
      subst same
      exact fun eq => fresh (eq ▸ present)⟩

theorem find_insert_of_ne {clash : Row → Row → Bool} {rows : List Row} {row : Row} {k : Key}
    (ne : key row ≠ k) : find key (insert clash rows row) k = find key rows k := by
  simp only [insert]
  split
  · rfl
  · rw [find_append, find_cons, if_neg ne, find_nil, Option.or_none]

theorem find_insert_of_some {clash : Row → Row → Bool} {rows : List Row} {row old : Row} {k : Key}
    (found : find key rows k = some old) : find key (insert clash rows row) k = some old := by
  simp only [insert]
  split
  · exact found
  · rw [find_append, found, Option.some_or]

/-! ### Numbering -/

/-- A column that counts up: with each number but the first the one before it occurs. -/
theorem mem_of_preceded {ns : List Nat} (preceded : ∀ n ∈ ns, 1 < n → n - 1 ∈ ns) {m n : Nat}
    (member : n ∈ ns) (positive : 1 ≤ m) (below : m ≤ n) : m ∈ ns := by
  induction n with
  | zero => omega
  | succ n ih =>
    rcases Nat.lt_or_eq_of_le below with lower | rfl
    · exact ih (preceded (n + 1) member (by omega)) (by omega)
    · exact member

/-- Such a column without repetition carries exactly the numbers from 1 on. -/
theorem exists_perm_range' {ns : List Nat} (unique : ns.Nodup) (positive : ∀ n ∈ ns, 1 ≤ n)
    (preceded : ∀ n ∈ ns, 1 < n → n - 1 ∈ ns) : ∃ k, ns.Perm (List.range' 1 k) := by
  cases largest : ns.max? with
  | none =>
    obtain rfl := List.max?_eq_none_iff.mp largest
    exact ⟨0, by simp⟩
  | some k =>
    obtain ⟨top, bounded⟩ := List.max?_eq_some_iff.mp largest
    refine ⟨k, (List.perm_ext_iff_of_nodup unique List.nodup_range').mpr fun n => ?_⟩
    rw [List.mem_range'_1]
    constructor
    · intro member
      have below := bounded n member
      exact ⟨positive n member, by omega⟩
    · rintro ⟨low, high⟩
      exact mem_of_preceded preceded top low (by omega)

/-! ### Growth -/

/-- The rows are kept, up to columns outside `core`, and new ones may follow. -/
def Evolves {Core : Type} (core : Row → Core) (rows later : List Row) : Prop :=
  ∃ (f : Row → Row) (added : List Row), (∀ row, core (f row) = core row) ∧
    later = rows.map f ++ added

namespace Evolves

variable {Core : Type} {core : Row → Core} {rows later last : List Row}

theorem refl (rows : List Row) : Evolves core rows rows :=
  ⟨id, [], fun _ => rfl, by simp⟩

theorem trans (first : Evolves core rows later) (second : Evolves core later last) :
    Evolves core rows last := by
  obtain ⟨f, added, keeps, rfl⟩ := first
  obtain ⟨g, more, keeps', rfl⟩ := second
  refine ⟨g ∘ f, added.map g ++ more, fun row => (keeps' (f row)).trans (keeps row), ?_⟩
  simp

theorem of_modify (ks : List Key) (f : Row → Row) (keeps : ∀ row, core (f row) = core row) :
    Evolves core rows (modify key rows ks f) := by
  refine ⟨fun row => if key row ∈ ks then f row else row, [], fun row => ?_, by simp [modify]⟩
  dsimp only
  split
  · exact keeps row
  · rfl

theorem of_insert (clash : Row → Row → Bool) (row : Row) :
    Evolves core rows (insert clash rows row) := by
  simp only [insert]
  split
  · exact refl rows
  · exact ⟨id, [row], fun _ => rfl, by simp⟩

theorem mem {row : Row} (grown : Evolves core rows later) (member : row ∈ rows) :
    ∃ new ∈ later, core new = core row := by
  obtain ⟨f, added, keeps, rfl⟩ := grown
  exact ⟨f row, List.mem_append_left _ (List.mem_map_of_mem member), keeps row⟩

theorem find (key : Row → Key) (proj : Core → Key) {k : Key} {row : Row}
    (grown : Evolves core rows later) (keyed : ∀ row, key row = proj (core row))
    (found : Table.find key rows k = some row) :
    ∃ new, Table.find key later k = some new ∧ core new = core row := by
  obtain ⟨f, added, keeps, rfl⟩ := grown
  have sameKey : ∀ row, key (f row) = key row := fun row => by rw [keyed, keyed, keeps]
  have mapped : Table.find key (rows.map f) k = some (f row) := by
    induction rows with
    | nil => cases found
    | cons old rest ih =>
      rw [find_cons] at found
      rw [List.map_cons, find_cons, sameKey]
      split at found
      next hit => rw [if_pos hit, Option.some.inj found]
      next miss => rw [if_neg miss, ih found]
  exact ⟨f row, by rw [find_append, mapped]; rfl, keeps row⟩

end Evolves

end Store.Table
