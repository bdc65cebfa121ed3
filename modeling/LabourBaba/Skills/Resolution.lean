import LabourBaba.Skills.Taxonomy

/-!
# Skill names and their ids

Names are stored trimmed and with single blanks, and looked up trimmed only; what looks like a
UUID is not looked up by name at all. `skills_resolve_iff` says for which spellings of a created
name the lookup comes back with the created id.

That no two names differ in the case of letters only is checked before the insert and not by the
database, so that it takes runs in which nobody inserts such a name between the check and the
insert of a call.
-/
namespace LabourBaba.Skills

open Store
open Market (Text isUuid resolveSkillId)

variable {fold : Text → Text}

/-- An insert finds no entry whose name differs in the case of letters only. -/
def RivalFree (fold : Text → Text) (ℓ : Label) (d : Db) : Prop :=
  match ℓ with
  | .created name => ∀ c ∈ d.categories, fold c.name = fold name → c.name = name
  | .step => True

instance (ℓ : Label) (d : Db) : Decidable (RivalFree fold ℓ d) := by
  unfold RivalFree
  cases ℓ <;> infer_instance

/-! ### What a statement may commit -/

def SkillCategory.uuid (c : SkillCategory) : Text := c.id.map Char.toLower

structure Wf (fold : Text → Text) (d : Db) : Prop where
  ids : Table.Unique SkillCategory.uuid d.categories
  names : Table.Unique (fun c => fold c.name) d.categories

theorem Wf.empty : Wf fold {} where
  ids := List.nodup_nil
  names := List.nodup_nil

inductive Commit (fold : Text → Text) (d : Db) : List Write → Prop
  | created {c : SkillCategory} (free : d.categories.any c.clash = false)
      (alone : ∀ e ∈ d.categories, fold e.name = fold c.name → e.name = c.name) :
      Commit fold d [.create c]
  | activated (id : Text) (isActive : Bool) : Commit fold d [.setActive id isActive]

/-- Entries stay, with their ids and their names. -/
def Later (d d' : Db) : Prop :=
  ∀ c ∈ d.categories, ∃ c' ∈ d'.categories, c'.id = c.id ∧ c'.name = c.name

theorem apply_create {d : Db} {c : SkillCategory} (free : d.categories.any c.clash = false) :
    ((Write.create c).apply d).categories = d.categories ++ [c] := by
  simp [Write.apply, Table.insert, free]

theorem Commit.later {d : Db} {ws : List Write} (commit : Commit fold d ws) :
    Later d (applyAll ws d) := by
  intro c member
  cases commit with
  | created free =>
    rw [applyAll_cons, applyAll_nil, write_eq_apply, apply_create free]
    exact ⟨c, List.mem_append_left _ member, rfl, rfl⟩
  | activated id isActive =>
    refine ⟨_, Table.mem_modify.mpr ⟨c, member, rfl⟩, ?_⟩
    split <;> exact ⟨rfl, rfl⟩

theorem Commit.keepsWf {d : Db} {ws : List Write} (commit : Commit fold d ws) (wf : Wf fold d) :
    Wf fold (applyAll ws d) := by
  cases commit with
  | @created c free alone =>
    have apart : ∀ e ∈ d.categories, c.uuid ≠ e.uuid ∧ c.name ≠ e.name := by
      intro e member
      have noClash := List.any_eq_false.mp free e member
      simpa [SkillCategory.clash, sameUuid, SkillCategory.uuid] using noClash
    rw [applyAll_cons, applyAll_nil, write_eq_apply]
    constructor
    · rw [apply_create free, Table.Unique, List.map_append, List.nodup_append]
      refine ⟨wf.ids, List.nodup_singleton _, ?_⟩
      rintro _ old _ new rfl
      obtain ⟨e, member, same⟩ := List.mem_map.mp old
      rw [List.map_singleton, List.mem_singleton] at new
      exact (apart e member).1 (new ▸ same.symm)
    · rw [apply_create free, Table.Unique, List.map_append, List.nodup_append]
      refine ⟨wf.names, List.nodup_singleton _, ?_⟩
      rintro _ old _ new rfl
      obtain ⟨e, member, same⟩ := List.mem_map.mp old
      rw [List.map_singleton, List.mem_singleton] at new
      exact (apart e member).2 (alone e member (same.trans new)).symm
  | activated id isActive =>
    have kept : ∀ c : SkillCategory, (if c.id ∈ [id] then { c with isActive } else c).id = c.id ∧
        (if c.id ∈ [id] then { c with isActive } else c).name = c.name := by
      intro c
      split <;> exact ⟨rfl, rfl⟩
    constructor
    · rw [Table.Unique]
      have same : ((applyAll [Write.setActive id isActive] d).categories.map SkillCategory.uuid) =
          d.categories.map SkillCategory.uuid := by
        simp only [applyAll_cons, applyAll_nil, write_eq_apply, Write.apply, Table.modify, List.map_map]
        exact List.map_congr_left fun c _ => congrArg (List.map Char.toLower) (kept c).1
      rw [same]
      exact wf.ids
    · rw [Table.Unique]
      have same : ((applyAll [Write.setActive id isActive] d).categories.map fun c => fold c.name) =
          d.categories.map fun c => fold c.name := by
        simp only [applyAll_cons, applyAll_nil, write_eq_apply, Write.apply, Table.modify, List.map_map]
        exact List.map_congr_left fun c _ => congrArg fold (kept c).2
      rw [same]
      exact wf.names

def protocol (fold : Text → Text) : Protocol Label Db where
  inv := Wf fold
  pre := RivalFree fold
  guar _ _ d d' := ∃ ws, d' = applyAll ws d ∧ Commit fold d ws
  evo _ := Later
  evo_refl _ _ c member := ⟨c, member, rfl, rfl⟩
  evo_trans _ _ _ _ first second c member := by
    obtain ⟨c', member', sameId, sameName⟩ := first c member
    obtain ⟨c'', member'', sameId', sameName'⟩ := second c' member'
    exact ⟨c'', member'', sameId'.trans sameId, sameName'.trans sameName⟩
  guar_inv := by
    rintro _ _ d _ wf ⟨ws, rfl, commit⟩
    exact commit.keepsWf wf
  guar_evo := by
    rintro _ _ _ d _ _ _ ⟨ws, rfl, commit⟩
    exact commit.later

instance : Protocol.Lax (protocol fold) := ⟨fun _ _ _ => trivial⟩

/-! ### The services -/

/-- A created skill is in the table, under the normalised name. -/
def Created (name : Option Text) (dto : SkillCategoryDTO) (d : Db) : Prop :=
  ∃ c ∈ d.categories, c.id = dto.id ∧ c.name = normalizeSkillName name

def Keeps (op : Op) (result : Outcome) (d : Db) : Prop :=
  match op, result with
  | .createSkill _ name, .ok dto => Created name dto d
  | _, _ => True

theorem insertSkill_yields (me : Nat) (newId : Text) (name : Option Text) (d : Db) :
    Call.YieldsFrom (protocol fold) me d (insertSkill newId (normalizeSkillName name))
      (Created name) := by
  refine Call.YieldsFrom.stmt fun d' ws dto _ alone inserted => ?_
  dsimp only at inserted
  split at inserted
  · cases inserted
  · split at inserted
    · cases inserted
    next free =>
      obtain ⟨rfl, rfl⟩ := Prod.mk.inj (Except.ok.inj inserted)
      have free := Bool.eq_false_iff.mpr free
      refine ⟨Or.inr ⟨_, rfl, .created free alone⟩, { id := newId, name := normalizeSkillName name },
        ?_, rfl, rfl⟩
      rw [applyAll_cons, applyAll_nil, write_eq_apply, apply_create free]
      exact List.mem_append_right _ (List.mem_singleton_self _)

theorem createSkill_yields (me : Nat) (newId : Text) (name : Option Text) (d : Db) :
    Call.YieldsFrom (protocol fold) me d (createSkill fold newId name) (Created name) := by
  rw [createSkill]
  split
  · exact .throw _ _
  · refine .bind (fun _ _ => True) ?_ fun existing d _ => ?_
    · refine .bind (fun _ _ => True) (.choose fun _ _ _ => trivial) fun reachable d _ => ?_
      cases reachable with
      | false => exact .pure trivial
      | true => exact .read fun _ _ _ => trivial
    · cases existing with
      | some existing => exact .throw _ _
      | none => exact insertSkill_yields me newId name d

theorem updateSkillStatus_yields (me : Nat) (id : Text) (isActive : Bool) (d : Db) :
    Call.YieldsFrom (protocol fold) me d (updateSkillStatus id isActive) fun _ _ => True := by
  refine .bind (fun _ _ => True) ?_ fun existing d _ => ?_
  · rw [getSkillById]
    split
    · exact .read fun _ _ _ => trivial
    · exact .pure trivial
  · cases existing with
    | none => exact .throw _ _
    | some =>
      refine .stmt fun d' ws dto _ _ updated => ?_
      split at updated
      · cases updated
      · obtain ⟨rfl, rfl⟩ := Prod.mk.inj (Except.ok.inj updated)
        exact ⟨Or.inr ⟨_, rfl, .activated _ _⟩, trivial⟩

theorem verified : Pool.Verified (protocol fold) (fun _ => Keeps) (system fold) := by
  intro me op d
  cases op with
  | createSkill newId name =>
    refine wp_mono ?_ _ _ _ (createSkill_yields me newId name d)
    rintro (e | dto) tx d ⟨-, created⟩
    · trivial
    · exact created dto rfl
  | updateSkillStatus id isActive =>
    exact wp_mono (fun _ _ _ _ => by unfold Keeps; trivial) _ _ _ (updateSkillStatus_yields me id isActive d)

section Runs

variable {p : SkillPool}

theorem wf_of_runs (run : Runs fold (RivalFree fold) p) : Wf fold p.db :=
  (run.sound verified (fun _ _ meets => meets) (.empty Wf.empty)).inv

theorem keeps_of_runs (run : Runs fold (RivalFree fold) p) :
    ∀ (i : Nat) th r, p.threads[i]? = some th → th.prog.returned = some r → Keeps th.op r p.db := by
  refine Pool.Reaches.returned verified (fun _ _ meets => meets) (.empty Wf.empty) ?_ (by simp)
    run
  rintro _ op (e | dto) _ _ d _ _ holds ⟨ws, rfl, commit⟩
  · cases op <;> trivial
  · cases op with
    | updateSkillStatus => trivial
    | createSkill newId name =>
      obtain ⟨c, member, id, same⟩ := holds
      obtain ⟨c', member', sameId, sameName⟩ := commit.later c member
      exact ⟨c', member', sameId.trans id, sameName.trans same⟩

end Runs

/-! ### The lookup -/

section Lookup

variable {d : Db} {c : SkillCategory}

/-- The spellings of a name that the lookup takes to its id: trimming gives the name up to case,
and does not give what looks like another UUID. -/
def Resolvable (fold : Text → Text) (s id : Text) : Prop :=
  Market.Text.trim s ≠ [] ∧
    if isUuid (Market.Text.trim s) then sameUuid id (Market.Text.trim s) = true
    else fold (Market.Text.trim s) = fold (normalizeSkillName (some s))

theorem resolve_iff (wf : Wf fold d) (stored : c ∈ d.categories) {s : Text}
    (spelled : fold (normalizeSkillName (some s)) = fold c.name) :
    resolveSkillId (d.lookups fold) s = some c.id ↔ Resolvable fold s c.id := by
  simp only [resolveSkillId, Resolvable, Db.lookups]
  by_cases empty : Market.Text.trim s = []
  · simp [empty]
  rw [if_neg empty]
  split
  next uuid =>
    -- the text is taken for an id, and comes back if no entry has it
    cases found : d.byId (Market.Text.trim s) with
    | none =>
      have absent : sameUuid c.id (Market.Text.trim s) = false :=
        Bool.eq_false_iff.mpr (List.find?_eq_none.mp found c stored)
      simp only [Option.map_none, absent, Bool.false_eq_true, and_false, iff_false, Option.some.injEq]
      intro same
      rw [same] at absent
      simp [sameUuid] at absent
    | some e =>
      have hit := List.find?_some found
      have member := List.mem_of_find?_eq_some found
      simp only [Option.map_some, Option.some.injEq, ne_eq, empty, not_false_eq_true, true_and]
      constructor
      · exact fun same => same ▸ hit
      · intro same
        have uuids : c.uuid = e.uuid := (of_decide_eq_true same).trans (of_decide_eq_true hit).symm
        rw [List.inj_on_of_nodup_map wf.ids stored member uuids]
  next name =>
    rw [spelled]
    cases found : d.byName fold (Market.Text.trim s) with
    | none =>
      have absent : fold c.name ≠ fold (Market.Text.trim s) := by
        simpa using List.find?_eq_none.mp found c stored
      simp only [Option.map_none, reduceCtorEq, ne_eq, absent.symm, and_false]
    | some e =>
      have hit : fold e.name = fold (Market.Text.trim s) := by simpa using List.find?_some found
      have member := List.mem_of_find?_eq_some found
      simp only [Option.map_some, Option.some.injEq, ne_eq, empty, not_false_eq_true, true_and]
      rw [← hit]
      constructor
      · intro same
        have uuids : e.uuid = c.uuid := congrArg (List.map Char.toLower) same
        rw [List.inj_on_of_nodup_map wf.ids member stored uuids]
      · intro same
        rw [List.inj_on_of_nodup_map wf.names member stored same]

end Lookup

/-- Names compared without the case of their ASCII letters. -/
def asciiFold (name : Text) : Text := name.map Char.toLower

def labourId : Text := "7f2c1a40-5d7e-4a53-9a1c-2f6b8d9e0a11".toList

/-- A name with two blanks is created, and stored with one. -/
def labourCreated : List (Pool.Move Op) :=
  [.event (.spawn (.createSkill labourId (some "General  Labour".toList))), .drive 0 true]

theorem labourCreated_returned :
    ∃ th, (played asciiFold (RivalFree asciiFold) labourCreated).threads[0]? = some th ∧
      th.op = .createSkill labourId (some "General  Labour".toList) ∧
      th.prog.returned = some (.ok ⟨labourId, "General Labour".toList, true⟩) := by
  have shown : ((played asciiFold (RivalFree asciiFold) labourCreated).threads[0]?.map fun th =>
      (th.op, th.prog.returned)) =
      some (.createSkill labourId (some "General  Labour".toList),
        some (.ok ⟨labourId, "General Labour".toList, true⟩)) := by decide +kernel
  obtain ⟨th, found, values⟩ := Option.map_eq_some_iff.mp shown
  obtain ⟨op, returned⟩ := Prod.mk.inj values
  exact ⟨th, found, op, returned⟩

/-- Two calls whose checks run before either of them inserts. -/
def rivalsCreated : List (Pool.Move Op) :=
  [.event (.spawn (.createSkill labourId (some "Helper".toList))),
    .event (.spawn (.createSkill "1b4e28ba-2fa1-4d3b-883f-0016d3cca427".toList
      (some "HELPER".toList))),
    .event (.run 0 true), .event (.run 0 true), .event (.run 1 true), .event (.run 1 true),
    .drive 0 true, .drive 1 true]

end LabourBaba.Skills
