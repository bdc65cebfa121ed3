import LabourBaba.Market.Candidates
import LabourBaba.Store.Calls
import LabourBaba.Store.Table

/-!
# The skill taxonomy

The table `skill_category` with `createSkill` and `updateSkillStatus` of `skillService`, statement
by statement, and the system in which any number of such calls run. What `resolveSkillId` looks
up in a table are the two queries of `Db.lookups`.

The database compares names in `mode: "insensitive"`, which here is the equality of folded
names; only the exact name is unique. New ids are arguments of the calls.
-/
namespace LabourBaba.Skills

open Store
open Market (Text isTrimmed isUuid SkillLookups)

/-! ### Names -/

/-- `replace(/\s+/g, " ")`: the last character of a run of white space leaves a blank. -/
def collapseSpaces : Text → Text
  | [] => []
  | c :: rest =>
    if isTrimmed c then
      if rest.head?.any isTrimmed then collapseSpaces rest else ' ' :: collapseSpaces rest
    else c :: collapseSpaces rest

/-- The name as it is stored; nothing stands for what is not a string. -/
def normalizeSkillName (name : Option Text) : Text :=
  match name with
  | none => []
  | some name => collapseSpaces (Market.Text.trim name)

/-! ### The table -/

structure SkillCategory where
  id : Text
  name : Text
  isActive : Bool := true
deriving DecidableEq, Repr

/-- UUIDs are the same in either case of their digits. -/
def sameUuid (a b : Text) : Bool := decide (a.map Char.toLower = b.map Char.toLower)

/-- The primary key and the unique `name`. -/
def SkillCategory.clash (new old : SkillCategory) : Bool :=
  sameUuid new.id old.id || decide (new.name = old.name)

structure Db where
  categories : List SkillCategory := []
deriving DecidableEq, Repr

def Db.category (d : Db) (id : Text) : Option SkillCategory :=
  Table.find SkillCategory.id d.categories id

inductive Write where
  | create (category : SkillCategory)
  | setActive (id : Text) (isActive : Bool)
deriving DecidableEq, Repr

def Write.apply (w : Write) (d : Db) : Db :=
  match w with
  | .create c => { d with categories := Table.insert SkillCategory.clash d.categories c }
  | .setActive id isActive =>
    { d with categories := Table.modify SkillCategory.id d.categories [id] fun c => { c with isActive } }

inductive Key where
  | category (id : Text)
deriving DecidableEq, Repr

def Write.keys : Write → List Key
  | .create c => [.category c.id]
  | .setActive id _ => [.category id]

abbrev Key.Row : Key → Type
  | .category _ => Option SkillCategory

def Db.row (d : Db) : (k : Key) → k.Row
  | .category id => d.category id

theorem Write.row_apply (w : Write) (d : Db) (k : Key) (untouched : k ∉ w.keys) :
    (w.apply d).row k = d.row k := by
  obtain ⟨id⟩ := k
  cases w with
  | create c =>
    have other : c.id ≠ id := fun same => untouched (by simp [Write.keys, same])
    simp only [Db.row, Db.category, Write.apply, Table.find_insert_of_ne other]
  | setActive id' isActive =>
    exact Table.find_modify_of_notMem _ _ _ _ (fun _ => rfl) (by simpa [Write.keys] using untouched)

instance : RowStore Db Write Key where
  Row := Key.Row
  row := Db.row
  write := Write.apply
  keys := Write.keys
  row_write := Write.row_apply

@[simp] theorem write_eq_apply (w : Write) (d : Db) : write w d = w.apply d := rfl

/-! ### Services -/

inductive Failure where
  | taxonomy (message : Text) (code : String) (statusCode : Nat)
  | valueTooLong
  | database
deriving DecidableEq, Repr

inductive Label where
  | step
  | created (name : Text)
deriving DecidableEq, Repr

abbrev Service := Call Label Db Write Key Failure

def query {α : Type} (f : Db → α) : Service α := Call.read .step f

structure SkillCategoryDTO where
  id : Text
  name : Text
  isActive : Bool
deriving DecidableEq, Repr

def toSkillCategoryDTO (c : SkillCategory) : SkillCategoryDTO := ⟨c.id, c.name, c.isActive⟩

def Db.byId (d : Db) (id : Text) : Option SkillCategory :=
  d.categories.find? fun c => sameUuid c.id id

section Names

variable (fold : Text → Text)

/-- `name: { equals, mode: "insensitive" }`. -/
def Db.byName (d : Db) (name : Text) : Option SkillCategory :=
  d.categories.find? fun c => decide (fold c.name = fold name)

/-- The answers of the lookups of `resolveSkillId`. -/
def Db.lookups (d : Db) : SkillLookups where
  findUnique id := .ok ((d.byId id).map SkillCategory.id)
  findFirst name := .ok ((d.byName fold name).map SkillCategory.id)

/-- The text of an error, with the name in quotes. -/
def aboutSkill (name : Text) (rest : String) : Text := "Skill '".toList ++ name ++ rest.toList

/-- The check for a duplicate; its own failure is ignored. -/
def findDuplicate (normalized : Text) : Service (Option SkillCategory) := do
  let reachable ← Call.choose
  if reachable then query fun d => d.byName fold normalized else pure none

def insertSkill (newId normalized : Text) : Service SkillCategoryDTO :=
  Call.stmt (.created normalized) fun d =>
    let created : SkillCategory := { id := newId, name := normalized }
    if 100 < normalized.length then .error .valueTooLong
    else if d.categories.any created.clash then
      .error (.taxonomy (aboutSkill normalized "' already exists") "SKILL_ALREADY_EXISTS" 409)
    else .ok ([.create created], toSkillCategoryDTO created)

def createSkill (newId : Text) (name : Option Text) : Service SkillCategoryDTO := do
  let normalized := normalizeSkillName name
  if normalized = [] then
    throw (.taxonomy "Skill name is required and cannot be empty".toList "INVALID_SKILL_NAME" 400)
  else do
    let existing ← findDuplicate fold normalized
    match existing with
    | some existing =>
      throw (.taxonomy (aboutSkill normalized "' already exists as canonical taxonomy entry '" ++
        existing.name ++ "'".toList) "SKILL_ALREADY_EXISTS" 409)
    | none => insertSkill newId normalized

end Names

def getSkillById (id : Text) : Service (Option SkillCategory) :=
  if isUuid id then query fun d => d.byId id else pure none

def updateSkillStatus (id : Text) (isActive : Bool) : Service SkillCategoryDTO := do
  let existing ← getSkillById id
  match existing with
  | none => throw (.taxonomy "Skill not found".toList "SKILL_NOT_FOUND" 404)
  | some _ =>
    Call.stmt .step fun d =>
      match d.byId id with
      | none => .error .database
      | some c => .ok ([.setActive c.id isActive], toSkillCategoryDTO { c with isActive })

/-! ### The system -/

inductive Op where
  | createSkill (newId : Text) (name : Option Text)
  | updateSkillStatus (id : Text) (isActive : Bool)
deriving DecidableEq, Repr

abbrev Outcome := Except Failure SkillCategoryDTO

def serviceOf (fold : Text → Text) : Op → Service SkillCategoryDTO
  | .createSkill newId name => createSkill fold newId name
  | .updateSkillStatus id isActive => updateSkillStatus id isActive

def system (fold : Text → Text) (_ : Nat) (op : Op) : Prog Label Db Write Key Outcome :=
  (serviceOf fold op).run

abbrev SkillPool := Pool Label Db Write Key Op Outcome

/-- An empty taxonomy and no call. -/
def start : SkillPool := { db := {} }

/-- A run whose statements all meet a condition on the store. -/
abbrev Runs (fold : Text → Text) (cond : Label → Db → Prop) : SkillPool → Prop :=
  Pool.Reaches (system fold) (Pool.Meets cond) start

/-- The taxonomy after a schedule of events that all meet a condition. -/
def played (fold : Text → Text) (cond : Label → Db → Prop) [∀ ℓ d, Decidable (cond ℓ d)]
    (moves : List (Pool.Move Op)) : SkillPool :=
  start.after (system fold) (Pool.Meets cond) 40 moves

theorem runs_played (fold : Text → Text) (cond : Label → Db → Prop) [∀ ℓ d, Decidable (cond ℓ d)]
    (moves : List (Pool.Move Op)) : Runs fold cond (played fold cond moves) :=
  Pool.Reaches.refl.after 40 moves

end LabourBaba.Skills
