import Mathlib

/-!
# Objects

An object is the list of its own members in their order, with distinct keys. Assigning to a key
keeps the place of a member that there is already, and a spread assigns the members of its source
one after the other.
-/
namespace Objects

variable {κ β : Type} [DecidableEq κ]

/-- `object[key] = value`: a member that there is already keeps its place. -/
def assign (members : List (κ × β)) (member : κ × β) : List (κ × β) :=
  if member.1 ∈ members.map Prod.fst then
    members.map fun old => if old.1 = member.1 then member else old
  else members ++ [member]

/-- `{ ...members, ...source }`. -/
def spread (members source : List (κ × β)) : List (κ × β) :=
  source.foldl assign members

variable {members source : List (κ × β)}

theorem forall_assign {P : κ × β → Prop} (member : κ × β) :
    (∀ m ∈ assign members member, P m) ↔
      P member ∧ ∀ m ∈ members, m.1 ≠ member.1 → P m := by
  unfold assign
  split
  next present =>
    obtain ⟨old, among, same⟩ := List.mem_map.mp present
    simp only [List.forall_mem_map]
    refine ⟨fun all => ⟨?_, fun m inside other => ?_⟩, fun ⟨new, rest⟩ m inside => ?_⟩
    · simpa only [if_pos same] using all old among
    · simpa only [if_neg other] using all m inside
    · split
      next => exact new
      next other => exact rest m inside other
  next absent =>
    have other : ∀ m ∈ members, m.1 ≠ member.1 :=
      fun m inside same => absent (List.mem_map.mpr ⟨m, inside, same⟩)
    simp only [List.forall_mem_append, List.forall_mem_singleton]
    refine ⟨fun ⟨rest, new⟩ => ⟨new, fun m inside _ => rest m inside⟩, fun ⟨new, rest⟩ => ?_⟩
    exact ⟨fun m inside => rest m inside (other m inside), new⟩

/-- The members of the source hide those of the same key. -/
theorem forall_spread {P : κ × β → Prop} (distinct : (source.map Prod.fst).Nodup) :
    (∀ m ∈ spread members source, P m) ↔
      (∀ m ∈ source, P m) ∧ ∀ m ∈ members, m.1 ∉ source.map Prod.fst → P m := by
  induction source generalizing members with
  | nil => simp [spread]
  | cons first source ih =>
    obtain ⟨fresh, distinct⟩ := List.nodup_cons.mp distinct
    have step : spread members (first :: source) = spread (assign members first) source := rfl
    rw [step, ih distinct, forall_assign, List.forall_mem_cons]
    simp only [List.map_cons, List.mem_cons, not_or]
    constructor
    · rintro ⟨later, new, rest⟩
      exact ⟨⟨new fresh, later⟩, fun m inside ⟨other, hidden⟩ => rest m inside other hidden⟩
    · rintro ⟨⟨new, later⟩, rest⟩
      exact ⟨later, fun _ => new, fun m inside other hidden => rest m inside ⟨other, hidden⟩⟩

theorem spread_append (distinct : ((members ++ source).map Prod.fst).Nodup) :
    spread members source = members ++ source := by
  induction source generalizing members with
  | nil => exact (List.append_nil members).symm
  | cons first source ih =>
    have split : members ++ first :: source = members ++ [first] ++ source := by simp
    have absent : first.1 ∉ members.map Prod.fst := by
      rw [List.map_append, List.map_cons] at distinct
      exact fun present =>
        (List.nodup_append.mp distinct).2.2 _ present _ List.mem_cons_self rfl
    have step : spread members (first :: source) = spread (members ++ [first]) source := by
      show spread (assign members first) source = _
      rw [assign, if_neg absent]
    rw [step, ih (split ▸ distinct), split]

end Objects
