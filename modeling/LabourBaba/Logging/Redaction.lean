import LabourBaba.Logging.TextRedaction
import LabourBaba.Text.Decimal
import LabourBaba.Text.Objects

/-!
# Log redaction

`redactSensitiveData` over nested values, place by place: a place is a path of keys and indices,
and `treatment` is what the recursion does to the place at the end of one (`get_redact`). It goes
six levels deep, leaves what an error holds as it is, and compares keys without their punctuation
with a list that has punctuation in it; the redaction is complete exactly if no text under a
sensitive key needs more than that (`redacted_iff`).
-/
namespace LabourBaba.Logging

open Utf16 Objects

/-- The values of the logger. An error has its name, message and stack and its own enumerable
members. -/
inductive Value
  | null
  | number (x : Decimal)
  | string (s : Text)
  | array (items : List Value)
  | object (members : List (Text × Value))
  | error (name message stack : Text) (own : List (Text × Value))

/-- The items of an array. -/
def Value.items : Value → List Value
  | .array items => items
  | _ => []

/-- The members of an object. Those that an error inherits are hidden by its own. -/
def Value.members : Value → List (Text × Value)
  | .object members => members
  | .error name message stack own =>
    spread [(lit "name", .string name), (lit "message", .string message),
      (lit "stack", .string stack)] own
  | _ => []

/-! ### Sensitive keys -/

def SENSITIVE_KEYS : List String :=
  ["password", "passwordhash", "otp", "otphash", "token", "accesstoken", "refreshtoken",
    "authorization", "cookie", "cookies", "fcmtoken", "devicetoken", "secret",
    "razorpaykeysecret", "razorpaykeyid", "paymentsecret", "clientsecret", "webhooksecret",
    "jwtaccesssecret", "jwtrefreshsecret", "privatekey", "apikey", "apikeysecret", "signature",
    "x-amz-signature", "x-amz-credential", "x-amz-security-token", "sig", "cvv", "cardnumber"]

def sensitiveFragments : List String :=
  ["password", "otphash", "refreshtoken", "accesstoken", "privatekey", "webhooksecret",
    "keysecret", "clientsecret", "jwtsecret"]

/-- What is left of a code unit of a key. Outside ASCII, only İ and the Kelvin sign have a small
letter among a to z. -/
def normalizedUnit (c : CodeUnit) : Text :=
  if 65 ≤ c.toNat ∧ c.toNat ≤ 90 then [UInt16.ofNat (c.toNat + 32)]
  else if 97 ≤ c.toNat ∧ c.toNat ≤ 122 ∨ isDigit c then [c]
  else if c.toNat = 0x130 then lit "i"
  else if c.toNat = 0x212A then lit "k"
  else []

/-- `key.toLowerCase().replace(/[^a-z0-9]/g, '')`. -/
def normalizedKey (key : Text) : Text := key.flatMap normalizedUnit

def hasFragment (key : Text) : Bool :=
  sensitiveFragments.any fun fragment => decide (lit fragment <:+: normalizedKey key)

def isSensitive (key : Text) : Bool :=
  decide (normalizedKey key ∈ SENSITIVE_KEYS.map lit) || hasFragment key

/-! ### Redaction -/

mutual

def redactSensitiveData (depth : ℕ) (data : Value) : Value :=
  if depth > 6 then data
  else
    match data with
    | .null => .null
    | .number x => .number x
    | .string s => .string (redactText s)
    | .array items => .array (redactItems (depth + 1) items)
    | .error name message stack own => .object (Value.error name message stack own).members
    | .object members => .object (redactMembers (depth + 1) members)

def redactItems (depth : ℕ) : List Value → List Value
  | [] => []
  | item :: items => redactSensitiveData depth item :: redactItems depth items

/-- The member `__proto__` is assigned to the prototype of the copy and is none of its own. -/
def redactMembers (depth : ℕ) : List (Text × Value) → List (Text × Value)
  | [] => []
  | (key, value) :: members =>
    if key = lit "__proto__" then redactMembers depth members
    else if isSensitive key then (key, .string REDACTED_MASK) :: redactMembers depth members
    else (key, redactSensitiveData depth value) :: redactMembers depth members

end

/-! ### Places -/

inductive Step
  | key (key : Text)
  | index (i : ℕ)
deriving DecidableEq

def Value.child (v : Value) : Step → Option Value
  | .key key => (v.members.find? fun member => member.1 = key).map Prod.snd
  | .index i => v.items[i]?

/-- The value at a place. -/
def Value.get (v : Value) : List Step → Option Value
  | [] => some v
  | step :: path => (v.child step).bind fun w => w.get path

inductive Shape
  | plain
  | array (length : ℕ)
  | object (keys : List Text)
deriving DecidableEq

def Value.shape : Value → Shape
  | .null | .number _ | .string _ => .plain
  | .array items => .array items.length
  | v => .object (v.members.map Prod.fst)

/-- The key matches a listed key, with case and punctuation ignored in both, or a fragment. -/
def matching (key : Text) : Bool :=
  (SENSITIVE_KEYS.any fun listed => decide (normalizedKey (lit listed) = normalizedKey key)) ||
    hasFragment key

/-- The place is under a sensitive key. -/
def sensitive (path : List Step) : Bool :=
  path.any fun
    | .key key => matching key
    | .index _ => false

/-- No text under a sensitive key is at its place in the result, and all the rest has its keys and
lengths. -/
structure Redacted (v result : Value) : Prop where
  hidden : ∀ path s, sensitive path = true → v.get path = some (.string s) →
    result.get path ≠ some (.string s)
  shape : ∀ path, sensitive path = false →
    (result.get path).map Value.shape = (v.get path).map Value.shape

/-! ### What happens to a place -/

inductive Treatment
  | untouched
  | processed
  | masked
  | gone
deriving DecidableEq

/-- What the first step of a path decides, if it does. -/
def decided (v : Value) (step : Step) (last : Bool) : Option Treatment :=
  match v, step with
  | .error .., _ => some .untouched
  | .object _, .key key =>
    if key = lit "__proto__" then some .gone
    else if isSensitive key then some (if last then .masked else .gone)
    else none
  | _, _ => none

/-- What the recursion does to a place, from the depth it is at. -/
def treatment (depth : ℕ) (v : Value) : List Step → Treatment
  | [] => if depth > 6 then .untouched else .processed
  | step :: path =>
    if depth > 6 then .untouched
    else
      match decided v step path.isEmpty, v.child step with
      | some t, _ => t
      | none, some w => treatment (depth + 1) w path
      | none, none => .gone

/-- What is at a place in the end. -/
def Treatment.result (depth : ℕ) (x : Value) : Treatment → Option Value
  | .untouched => some x
  | .processed => some (redactSensitiveData depth x)
  | .masked => some (.string REDACTED_MASK)
  | .gone => none

theorem redactItems_get (depth i : ℕ) (items : List Value) :
    (redactItems depth items)[i]? = items[i]?.map (redactSensitiveData depth) := by
  induction items generalizing i with
  | nil => rfl
  | cons item items ih =>
    rw [redactItems]
    cases i with
    | zero => rfl
    | succ i => exact ih i

theorem redactItems_length (depth : ℕ) (items : List Value) :
    (redactItems depth items).length = items.length := by
  induction items with
  | nil => rfl
  | cons item items ih => rw [redactItems, List.length_cons, ih, List.length_cons]

/-- The value of a key in the copy of an object. -/
def redactMember (depth : ℕ) (key : Text) (value : Value) : Value :=
  if isSensitive key then .string REDACTED_MASK else redactSensitiveData depth value

theorem redactMembers_eq (depth : ℕ) (members : List (Text × Value)) :
    redactMembers depth members = (members.filter fun m => m.1 ≠ lit "__proto__").map
      fun m => (m.1, redactMember depth m.1 m.2) := by
  induction members with
  | nil => rfl
  | cons member members ih =>
    obtain ⟨key, value⟩ := member
    rw [redactMembers, ih]
    by_cases proto : key = lit "__proto__"
    · rw [if_pos proto, List.filter_cons_of_neg (by simpa using proto)]
    · rw [if_neg proto, List.filter_cons_of_pos (by simpa using proto), List.map_cons, redactMember]
      split <;> rfl

theorem child_redactMembers (depth : ℕ) {key : Text} (own : key ≠ lit "__proto__")
    (members : List (Text × Value)) :
    (Value.object (redactMembers depth members)).child (.key key) =
      ((Value.object members).child (.key key)).map (redactMember depth key) := by
  simp only [Value.child, Value.members, redactMembers_eq]
  induction members with
  | nil => rfl
  | cons member members ih =>
    obtain ⟨k, value⟩ := member
    by_cases same : k = key
    · subst same
      rw [List.filter_cons_of_pos (by simpa using own), List.map_cons,
        List.find?_cons_of_pos (by simp), List.find?_cons_of_pos (by simp)]
      rfl
    · rw [List.find?_cons_of_neg (by simpa using same), ← ih]
      by_cases proto : k = lit "__proto__"
      · rw [List.filter_cons_of_neg (by simpa using proto)]
      · rw [List.filter_cons_of_pos (by simpa using proto), List.map_cons,
          List.find?_cons_of_neg (by simpa using same)]

theorem child_proto (depth : ℕ) (members : List (Text × Value)) :
    (Value.object (redactMembers depth members)).child (.key (lit "__proto__")) = none := by
  simp only [Value.child, Value.members, redactMembers_eq]
  rw [Option.map_eq_none_iff, List.find?_eq_none]
  intro member inside
  obtain ⟨m, among, rfl⟩ := List.mem_map.mp inside
  simpa using (List.mem_filter.mp among).2

theorem redact_deep {depth : ℕ} (deep : depth > 6) (v : Value) :
    redactSensitiveData depth v = v := by
  cases v <;> rw [redactSensitiveData, if_pos deep]

theorem get_cons (v : Value) (step : Step) (path : List Step) :
    v.get (step :: path) = (v.child step).bind fun w => w.get path := rfl

theorem get_mask {path : List Step} (below : path ≠ []) (s : Text) :
    (Value.string s).get path = none := by
  cases path with
  | nil => exact absurd rfl below
  | cons step path => cases step <;> rfl

theorem treatment_deep {depth : ℕ} (deep : depth > 6) (v : Value) (path : List Step) :
    treatment depth v path = .untouched := by
  cases path <;> exact if_pos deep

/-- The value at each place of the result. -/
theorem get_redact (depth : ℕ) (v : Value) (path : List Step) :
    (redactSensitiveData depth v).get path =
      (v.get path).bind fun x => (treatment depth v path).result (depth + path.length) x := by
  induction path generalizing depth v with
  | nil =>
    by_cases deep : depth > 6
    · rw [redact_deep deep, treatment_deep deep]
      rfl
    · rw [treatment, if_neg deep]
      rfl
  | cons step path ih =>
    by_cases deep : depth > 6
    · rw [redact_deep deep, treatment_deep deep]
      exact (Option.bind_fun_some _).symm
    · have place : depth + (step :: path).length = depth + 1 + path.length := by
        rw [List.length_cons]; omega
      rw [place, get_cons, get_cons, treatment, if_neg deep]
      cases v with
      | null => cases step <;> rw [redactSensitiveData, if_neg deep] <;> rfl
      | number x => cases step <;> rw [redactSensitiveData, if_neg deep] <;> rfl
      | string s => cases step <;> rw [redactSensitiveData, if_neg deep] <;> rfl
      | error name message stack own =>
        -- an error becomes a plain object with the same members
        have same : (Value.object (Value.error name message stack own).members).child step =
            (Value.error name message stack own).child step := by
          cases step <;> rfl
        rw [redactSensitiveData, if_neg deep]
        rw [same]
        exact (Option.bind_fun_some _).symm
      | array items =>
        rw [redactSensitiveData, if_neg deep]
        cases step with
        | key key => rfl
        | index i =>
          have item : (Value.array (redactItems (depth + 1) items)).child (.index i) =
              ((Value.array items).child (.index i)).map (redactSensitiveData (depth + 1)) :=
            redactItems_get (depth + 1) i items
          rw [item]
          cases (Value.array items).child (.index i) with
          | none => rfl
          | some w => exact ih (depth + 1) w
      | object members =>
        rw [redactSensitiveData, if_neg deep]
        cases step with
        | index i => rfl
        | key key =>
          by_cases proto : key = lit "__proto__"
          · -- assigning to this key sets a prototype, and no member is made
            subst proto
            rw [child_proto, decided, if_pos rfl]
            exact (Option.bind_fun_none _).symm
          · rw [child_redactMembers _ proto, decided, if_neg proto]
            cases (Value.object members).child (.key key) with
            | none => rfl
            | some w =>
              rw [Option.map_some, Option.bind_some, Option.bind_some, redactMember]
              by_cases secret : isSensitive key = true
              · rw [if_pos secret, if_pos secret]
                -- the whole value is masked, so nothing is left below it
                cases path with
                | nil => rfl
                | cons next path =>
                  rw [get_mask (List.cons_ne_nil next path)]
                  exact (Option.bind_fun_none _).symm
              · rw [if_neg secret, if_neg secret]
                exact ih (depth + 1) w

/-! ### Sensitive places -/

theorem normalizedUnit_idem (c : CodeUnit) :
    (normalizedUnit c).flatMap normalizedUnit = normalizedUnit c := by
  have letter : ∀ d : CodeUnit, 97 ≤ d.toNat ∧ d.toNat ≤ 122 ∨ isDigit d → normalizedUnit d = [d] := by
    intro d small
    have other : ¬(65 ≤ d.toNat ∧ d.toNat ≤ 90) := by
      rcases small with small | isDig
      · omega
      · have bounds : 48 ≤ d.toNat ∧ d.toNat ≤ 57 := of_decide_eq_true isDig
        omega
    rw [normalizedUnit, if_neg other, if_pos small]
  by_cases capital : 65 ≤ c.toNat ∧ c.toNat ≤ 90
  · have value : (UInt16.ofNat (c.toNat + 32)).toNat = c.toNat + 32 := toNat_ofNat (by omega)
    have small : normalizedUnit c = [UInt16.ofNat (c.toNat + 32)] := if_pos capital
    rw [small, List.flatMap_singleton, letter _ (Or.inl (by omega))]
  · by_cases small : 97 ≤ c.toNat ∧ c.toNat ≤ 122 ∨ isDigit c
    · rw [letter c small, List.flatMap_singleton, letter c small]
    · have other : normalizedUnit c = if c.toNat = 0x130 then lit "i" else
          if c.toNat = 0x212A then lit "k" else [] := by
        rw [normalizedUnit, if_neg capital, if_neg small]
      rw [other]
      split
      next => rfl
      next => split <;> rfl

theorem normalizedKey_idem (key : Text) : normalizedKey (normalizedKey key) = normalizedKey key := by
  unfold normalizedKey
  rw [List.flatMap_assoc]
  exact List.flatMap_congr fun c _ => normalizedUnit_idem c

/-- What the code masks is sensitive; the listed keys with punctuation are never found. -/
theorem matching_of_isSensitive {key : Text} (secret : isSensitive key = true) :
    matching key = true := by
  rcases Bool.or_eq_true_iff.mp secret with listed | fragment
  · obtain ⟨name, member, same⟩ := List.mem_map.mp (of_decide_eq_true listed)
    have equal : normalizedKey (lit name) = normalizedKey key := by rw [same, normalizedKey_idem]
    exact Bool.or_eq_true_iff.mpr
      (Or.inl (List.any_eq_true.mpr ⟨name, member, decide_eq_true equal⟩))
  · exact Bool.or_eq_true_iff.mpr (Or.inr fragment)

theorem decided_some {v : Value} {step : Step} {last : Bool} {t : Treatment}
    (first : decided v step last = some t) :
    t = .untouched ∨ ∃ members key, v = .object members ∧ step = .key key ∧
      (key = lit "__proto__" ∧ t = .gone ∨ isSensitive key = true ∧ t ≠ .processed) := by
  unfold decided at first
  split at first
  next => exact Or.inl (Option.some.inj first).symm
  next members key =>
    refine Or.inr ⟨members, key, rfl, rfl, ?_⟩
    split at first
    next proto => exact Or.inl ⟨proto, (Option.some.inj first).symm⟩
    next =>
      split at first
      next secret =>
        refine Or.inr ⟨secret, ?_⟩
        rw [← Option.some.inj first]
        split <;> decide
      next => cases first
  next => cases first

theorem decided_none {v : Value} {step : Step} {last : Bool} (first : decided v step last = none)
    (other : Bool) : decided v step other = none := by
  unfold decided at first ⊢
  split at first
  next => cases first
  next members key =>
    split at first
    next => cases first
    next proto =>
      split at first
      next => cases first
      next secret => simp only [if_neg proto, if_neg secret]
  next => simp

/-- The first step decides, or the place is one of its child. -/
theorem treatment_cons {depth : ℕ} {v : Value} {step : Step} {path : List Step} {t : Treatment}
    (place : treatment depth v (step :: path) = t) :
    t = .untouched ∨ decided v step path.isEmpty = some t ∨
      (v.child step = none ∧ t = .gone) ∨
        ∃ w, decided v step path.isEmpty = none ∧ v.child step = some w ∧
          treatment (depth + 1) w path = t := by
  rw [treatment] at place
  split at place
  next => exact Or.inl place.symm
  next =>
    split at place
    next first => exact Or.inr (Or.inl (place ▸ first))
    next w first child => exact Or.inr (Or.inr (Or.inr ⟨w, first, child, place⟩))
    next child => exact Or.inr (Or.inr (Or.inl ⟨child, place.symm⟩))

/-- A place is processed six levels deep at most. -/
theorem depth_of_processed {depth : ℕ} {v : Value} {path : List Step}
    (processed : treatment depth v path = .processed) : depth + path.length ≤ 6 := by
  induction path generalizing depth v with
  | nil =>
    refine Nat.le_of_not_lt fun deep => ?_
    rw [treatment_deep (show depth > 6 from deep)] at processed
    cases processed
  | cons step path ih =>
    rcases treatment_cons processed with never | first | ⟨-, never⟩ | ⟨w, -, -, inner⟩
    · cases never
    · rcases decided_some first with never | ⟨_, _, -, -, ⟨-, never⟩ | ⟨-, never⟩⟩
      · cases never
      · cases never
      · exact absurd rfl never
    · cases never
    · have near := ih inner
      rw [List.length_cons]
      omega

theorem sensitive_cons (step : Step) (path : List Step) :
    sensitive (step :: path) = (sensitive [step] || sensitive path) := by
  simp [sensitive]

theorem sensitive_key {key : Text} (secret : isSensitive key = true) (path : List Step) :
    sensitive (.key key :: path) = true := by
  simp [sensitive, matching_of_isSensitive secret]

theorem sensitive_of_masked {depth : ℕ} {v : Value} {path : List Step}
    (masked : treatment depth v path = .masked) : sensitive path = true := by
  induction path generalizing depth v with
  | nil =>
    rw [treatment] at masked
    split at masked <;> cases masked
  | cons step path ih =>
    rcases treatment_cons masked with never | first | ⟨-, never⟩ | ⟨w, -, -, inner⟩
    · cases never
    · rcases decided_some first with never | ⟨_, key, -, rfl, ⟨-, never⟩ | ⟨secret, -⟩⟩
      · cases never
      · cases never
      · exact sensitive_key secret path
    · cases never
    · rw [sensitive_cons, ih inner, Bool.or_true]

/-- A place that is gone without being under a sensitive key is under a member `__proto__`. -/
theorem proto_of_gone {depth : ℕ} {v x : Value} {path : List Step}
    (gone : treatment depth v path = .gone) (free : sensitive path = false)
    (there : v.get path = some x) :
    ∃ before members, sensitive before = false ∧ v.get before = some (.object members) ∧
      treatment depth v before = .processed ∧ lit "__proto__" ∈ members.map Prod.fst := by
  induction path generalizing depth v with
  | nil =>
    rw [treatment] at gone
    split at gone <;> cases gone
  | cons step path ih =>
    have shallow : ¬depth > 6 := by
      intro deep
      rw [treatment_deep deep] at gone
      cases gone
    obtain ⟨w, child, inside⟩ := Option.bind_eq_some_iff.mp there
    rcases treatment_cons gone with never | first | ⟨absent, -⟩ | ⟨w', first, child', inner⟩
    · cases never
    · rcases decided_some first with never | ⟨members, key, rfl, rfl, ⟨rfl, -⟩ | ⟨secret, -⟩⟩
      · cases never
      · obtain ⟨member, found, -⟩ := Option.map_eq_some_iff.mp child
        have key : member.1 = lit "__proto__" := by simpa using List.find?_some found
        exact ⟨[], members, rfl, rfl, if_neg shallow,
          List.mem_map.mpr ⟨member, List.mem_of_find?_eq_some found, key⟩⟩
      · rw [sensitive_key secret path] at free
        cases free
    · rw [absent] at child
      cases child
    · obtain rfl : w = w' := Option.some.inj (child.symm.trans child')
      rw [sensitive_cons, Bool.or_eq_false_iff] at free
      obtain ⟨before, members, outside, object, processed, proto⟩ := ih inner free.2 inside
      refine ⟨step :: before, members, ?_, ?_, ?_, proto⟩
      · rw [sensitive_cons, free.1, outside, Bool.or_self]
      · rw [get_cons, child]
        exact object
      · rw [treatment, if_neg shallow, decided_none first, child]
        exact processed

/-! ### When the redaction is complete -/

/-- A text does not come through where it is. -/
def Treatment.Hides (s : Text) : Treatment → Prop
  | .untouched => False
  | .processed => recognized s = true
  | .masked => s ≠ REDACTED_MASK
  | .gone => True

/-- Every text under a sensitive key is below a key that the code masks (and not the mask itself),
or is reached and recognised as a secret by its form; and no object of the rest that is reached
has a member `__proto__`. -/
structure Reached (v : Value) : Prop where
  texts : ∀ path s, sensitive path = true → v.get path = some (.string s) →
    (treatment 0 v path).Hides s
  members : ∀ path members, sensitive path = false → v.get path = some (.object members) →
    treatment 0 v path = .processed → lit "__proto__" ∉ members.map Prod.fst

theorem hidden_iff {v : Value} {path : List Step} {s : Text}
    (there : v.get path = some (.string s)) :
    (redactSensitiveData 0 v).get path ≠ some (.string s) ↔ (treatment 0 v path).Hides s := by
  rw [get_redact, there, Option.bind_some]
  cases place : treatment 0 v path with
  | untouched => simp [Treatment.result, Treatment.Hides]
  | processed =>
    have near := depth_of_processed place
    have text : redactSensitiveData (0 + path.length) (.string s) = .string (redactText s) := by
      rw [redactSensitiveData, if_neg (by omega)]
    rw [Treatment.result, text, Treatment.Hides, ← Bool.not_eq_false, ← redactText_eq_self_iff]
    simp
  | masked => simp [Treatment.result, Treatment.Hides, eq_comm]
  | gone => simp [Treatment.result, Treatment.Hides]

theorem keys_redactMembers (depth : ℕ) (members : List (Text × Value)) :
    (redactMembers depth members).map Prod.fst =
      (members.map Prod.fst).filter fun key => key ≠ lit "__proto__" := by
  rw [redactMembers_eq, List.map_map, List.filter_map]
  rfl

/-- A value keeps its shape if it has no member `__proto__`. -/
theorem shape_redact {depth : ℕ} {v : Value}
    (plain : ∀ members, v = .object members → lit "__proto__" ∉ members.map Prod.fst) :
    (redactSensitiveData depth v).shape = v.shape := by
  by_cases deep : depth > 6
  · rw [redact_deep deep]
  · cases v with
    | null => rw [redactSensitiveData, if_neg deep]
    | number x => rw [redactSensitiveData, if_neg deep]
    | string s => rw [redactSensitiveData, if_neg deep]; rfl
    | error name message stack own => rw [redactSensitiveData, if_neg deep]; rfl
    | array items =>
      rw [redactSensitiveData, if_neg deep]
      exact congrArg Shape.array (redactItems_length _ items)
    | object members =>
      rw [redactSensitiveData, if_neg deep]
      refine congrArg Shape.object ((keys_redactMembers _ members).trans ?_)
      refine List.filter_eq_self.mpr fun key member => decide_eq_true fun proto => ?_
      exact plain members rfl (proto ▸ member)

/-- The redaction of a value is complete if and only if each of its texts under a sensitive key is
reached and no member `__proto__` gets lost. -/
theorem redacted_iff (v : Value) : Redacted v (redactSensitiveData 0 v) ↔ Reached v := by
  constructor
  · rintro ⟨hidden, shape⟩
    refine ⟨fun path s secret there => (hidden_iff there).mp (hidden path s secret there), ?_⟩
    intro path members free there processed proto
    have near := depth_of_processed processed
    have kept := shape path free
    rw [get_redact, there, processed, Option.bind_some, Treatment.result, redactSensitiveData,
      if_neg (by omega)] at kept
    have keys : ((redactMembers _ members).map Prod.fst) = members.map Prod.fst :=
      Shape.object.inj (Option.some.inj kept)
    rw [keys_redactMembers, List.filter_eq_self] at keys
    exact of_decide_eq_true (keys _ proto) rfl
  · rintro ⟨texts, members⟩
    refine ⟨fun path s secret there => (hidden_iff there).mpr (texts path s secret there), ?_⟩
    intro path free
    rw [get_redact]
    cases there : v.get path with
    | none => rfl
    | some x =>
      rw [Option.bind_some]
      cases place : treatment 0 v path with
      | untouched => rfl
      | processed =>
        refine congrArg some (shape_redact fun inner same => ?_)
        exact members path inner free (same ▸ there) place
      | masked =>
        rw [sensitive_of_masked place] at free
        cases free
      | gone =>
        obtain ⟨before, inner, outside, object, processed, proto⟩ := proto_of_gone place free there
        exact absurd proto (members before inner outside object processed)

/-- The parameters of a presigned URL. -/
def presigned : Value := .object [(lit "x-amz-signature", .string (lit "fe5f80"))]

/-- A listed key is not found, since the punctuation is taken out of the key only. -/
theorem signature_logged : ¬ ∀ v, Redacted v (redactSensitiveData 0 v) := by
  intro every
  have hides := (hidden_iff rfl).mp ((every presigned).hidden [.key (lit "x-amz-signature")]
    (lit "fe5f80") (by decide +kernel) rfl)
  have place : treatment 0 presigned [.key (lit "x-amz-signature")] = .processed := by
    decide +kernel
  rw [place] at hides
  exact absurd hides (show ¬recognized (lit "fe5f80") = true by decide +kernel)

end LabourBaba.Logging
