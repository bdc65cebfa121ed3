import LabourBaba.Text.Json

/-!
# Audit metadata

`auditService.recordEvent` with `sanitizeMetadata`. The recursion goes into the objects of the
metadata and leaves arrays as they are, so that what is stored is clean exactly if every array it
comes to was clean before (`recorded_clean_iff`).

`toLowerCase` is that of ECMAScript and stays a parameter: it decides which keys are forbidden,
in the code as in the property. An object is the list of its own members; the member `__proto__`
of a source object is assigned to the prototype of the copy and is not one of its own members.
-/
namespace Utf16

/-- A value at some depth of another. -/
inductive Json.Within : Json → Json → Prop
  | self (v : Json) : Within v v
  | item {v w : Json} {items : List Json} (member : v ∈ items) (within : Within w v) :
      Within w (.array items)
  | member {key : Text} {v w : Json} {members : List (Text × Json)} (member : (key, v) ∈ members)
      (within : Within w v) : Within w (.object members)

/-- `Object.entries(value)`. -/
def Json.entries : Json → List (Text × Json)
  | .object members => members
  | .array items => items.mapIdx fun i v => (natural i, v)
  | _ => []

end Utf16

namespace LabourBaba.Audit

open Utf16

def forbiddenMetadataKeys : List String :=
  ["password", "password_hash", "token", "refresh_token", "access_token", "otp", "otp_hash",
    "secret", "private_key", "signed_url", "file_url", "authorization", "cookie"]

/-- An http or https URL with a token. -/
def signedUrl (value : Text) : Bool :=
  (decide (lit "http://" <+: value) || decide (lit "https://" <+: value)) &&
    decide (lit "token=" <:+: value)

section Sanitize

variable (toLowerCase : Text → Text)

def forbidden (key : Text) : Bool :=
  decide (toLowerCase key ∈ forbiddenMetadataKeys.map lit)

mutual

def sanitizeEntries : List (Text × Json) → List (Text × Json)
  | [] => []
  | (key, value) :: entries =>
    if key = lit "__proto__" then sanitizeEntries entries
    else (key, sanitizeEntry key value) :: sanitizeEntries entries

def sanitizeEntry (key : Text) (value : Json) : Json :=
  if forbidden toLowerCase key then .string (lit "[REDACTED]")
  else
    match value with
    | .object members => .object (sanitizeEntries members)
    | .string s => if signedUrl s then .string (lit "[SIGNED_URL_REDACTED]") else .string s
    | value => value

end

def sanitizeMetadata : Option Json → Option Json
  | some (.object members) => some (.object (sanitizeEntries toLowerCase members))
  -- an array is an object too, and its copy has its indices as keys
  | some (.array items) =>
    some (.object (sanitizeEntries toLowerCase (Json.entries (.array items))))
  | _ => none

end Sanitize

/-! ### Recording -/

structure AuditEventInput where
  actorId : Text
  actorRole : Text
  action : Text
  targetType : Text
  targetId : Text
  reason : Option Text := none
  correlationId : Option Text := none
  ipAddress : Option Text := none
  userAgent : Option Text := none
  metadata : Option Json := none

/-- A row of `audit_log`, without the columns that the database fills in. -/
structure AuditLog where
  actorId : Text
  actorRole : Text
  action : Text
  targetType : Text
  targetId : Text
  reason : Option Text
  correlationId : Option Text
  ipAddress : Option Text
  userAgent : Option Text
  metadata : Json

/-- `value || null`. -/
def orNull (value : Option Text) : Option Text := value.filter (· ≠ [])

/-- The row that an event is recorded in; `requestId` is the correlation id of the request. -/
def recordEvent (toLowerCase : Text → Text) (requestId : Option Text) (event : AuditEventInput) :
    AuditLog :=
  { actorId := event.actorId
    actorRole := event.actorRole
    action := event.action
    targetType := event.targetType
    targetId := event.targetId
    reason := orNull event.reason
    correlationId := (orNull event.correlationId).or (orNull requestId)
    ipAddress := orNull event.ipAddress
    userAgent := orNull event.userAgent
    metadata := (sanitizeMetadata toLowerCase event.metadata).getD .null }

/-! ### Clean metadata -/

section Clean

variable {toLowerCase : Text → Text}

/-- No forbidden key has a value of its own, and no text is a URL with a token, at any depth. -/
structure Clean (toLowerCase : Text → Text) (v : Json) : Prop where
  keys : ∀ members, Json.Within (.object members) v → ∀ member ∈ members,
    forbidden toLowerCase member.1 = true → member.2 = .string (lit "[REDACTED]")
  urls : ∀ s, Json.Within (.string s) v → signedUrl s = false

theorem clean_array {items : List Json} :
    Clean toLowerCase (.array items) ↔ ∀ v ∈ items, Clean toLowerCase v := by
  constructor
  · rintro ⟨keys, urls⟩ v member
    exact ⟨fun members within => keys members (.item member within),
      fun s within => urls s (.item member within)⟩
  · refine fun all => ⟨fun members within => ?_, fun s within => ?_⟩
    · cases within with
      | item member within => exact (all _ member).keys members within
    · cases within with
      | item member within => exact (all _ member).urls s within

theorem clean_object {members : List (Text × Json)} :
    Clean toLowerCase (.object members) ↔ ∀ member ∈ members,
      (forbidden toLowerCase member.1 = true → member.2 = .string (lit "[REDACTED]")) ∧
        Clean toLowerCase member.2 := by
  constructor
  · rintro ⟨keys, urls⟩ ⟨key, v⟩ member
    exact ⟨keys members (.self _) _ member, fun members' within => keys members' (.member member within),
      fun s within => urls s (.member member within)⟩
  · refine fun all => ⟨fun members' within => ?_, fun s within => ?_⟩
    · cases within with
      | self => exact fun member inside => (all member inside).1
      | member inside within => exact (all _ inside).2.keys members' within
    · cases within with
      | member inside within => exact (all _ inside).2.urls s within

theorem clean_string {s : Text} : Clean toLowerCase (.string s) ↔ signedUrl s = false := by
  constructor
  · exact fun clean => clean.urls s (.self _)
  · refine fun plain => ⟨fun members within => ?_, fun s' within => ?_⟩
    · cases within
    · cases within
      exact plain

theorem sanitizeEntry_forbidden {key : Text} (hit : forbidden toLowerCase key = true) (value : Json) :
    sanitizeEntry toLowerCase key value = .string (lit "[REDACTED]") := by
  cases value <;> simp only [sanitizeEntry, hit, if_true]

theorem clean_atom {v : Json} (alone : ∀ w, Json.Within w v → w = v)
    (noObject : ∀ members, v ≠ .object members) (noText : ∀ s, v ≠ .string s) :
    Clean toLowerCase v :=
  ⟨fun members within => absurd (alone _ within).symm (noObject members),
    fun s within => absurd (alone _ within).symm (noText s)⟩

/-- The copy of an object is clean exactly if the copies of its members are. -/
theorem clean_sanitizeEntries_iff {members : List (Text × Json)} :
    Clean toLowerCase (.object (sanitizeEntries toLowerCase members)) ↔
      ∀ member ∈ members, member.1 ≠ lit "__proto__" →
        Clean toLowerCase (sanitizeEntry toLowerCase member.1 member.2) := by
  rw [clean_object]
  induction members with
  | nil => simp [sanitizeEntries]
  | cons member rest ih =>
    obtain ⟨key, value⟩ := member
    rw [sanitizeEntries, List.forall_mem_cons]
    by_cases own : key = lit "__proto__"
    · rw [if_pos own, ih]
      exact ⟨fun all => ⟨fun other => absurd own other, all⟩, fun all => all.2⟩
    · rw [if_neg own, List.forall_mem_cons, ih]
      constructor
      · exact fun ⟨first, all⟩ => ⟨fun _ => first.2, all⟩
      · exact fun ⟨first, all⟩ => ⟨⟨fun hit => sanitizeEntry_forbidden hit value, first own⟩, all⟩

/-- What the recursion comes to: the members of objects under keys that are not forbidden. -/
inductive Opened (toLowerCase : Text → Text) : Json → Json → Prop
  | self (v : Json) : Opened toLowerCase v v
  | member {key : Text} {v w : Json} {members : List (Text × Json)} (member : (key, v) ∈ members)
      (own : key ≠ lit "__proto__") (free : forbidden toLowerCase key = false)
      (opened : Opened toLowerCase w v) : Opened toLowerCase w (.object members)

/-- Every array that the recursion comes to is clean. -/
def ArraysClean (toLowerCase : Text → Text) (v : Json) : Prop :=
  ∀ items, Opened toLowerCase (.array items) v → Clean toLowerCase (.array items)

theorem arraysClean_object {members : List (Text × Json)} :
    ArraysClean toLowerCase (.object members) ↔ ∀ member ∈ members,
      member.1 ≠ lit "__proto__" → forbidden toLowerCase member.1 = false →
        ArraysClean toLowerCase member.2 := by
  constructor
  · exact fun clean member inside own free items opened =>
      clean items (.member inside own free opened)
  · intro all items opened
    cases opened with
    | member inside own free opened => exact all _ inside own free items opened

mutual

/-- Under a free key, the copy of a value is clean exactly if the arrays in it are. -/
theorem clean_sanitizeEntry_iff {key : Text} (free : forbidden toLowerCase key = false) :
    (v : Json) → (Clean toLowerCase (sanitizeEntry toLowerCase key v) ↔ ArraysClean toLowerCase v)
  | .object members => by
    have copied : sanitizeEntry toLowerCase key (.object members) =
        .object (sanitizeEntries toLowerCase members) := by
      simp only [sanitizeEntry, free, Bool.false_eq_true, if_false]
    rw [copied, clean_sanitizeEntries_iff, arraysClean_object]
    exact clean_sanitizeMembers_iff members
  | .array items => by
    -- an array is copied as it is, with whatever is in it
    have copied : sanitizeEntry toLowerCase key (.array items) = .array items := by
      simp only [sanitizeEntry, free, Bool.false_eq_true, if_false]
    rw [copied]
    constructor
    · intro clean items' opened
      cases opened
      exact clean
    · exact fun clean => clean items (.self _)
  | .string s => by
    have copied : sanitizeEntry toLowerCase key (.string s) =
        .string (if signedUrl s then lit "[SIGNED_URL_REDACTED]" else s) := by
      simp only [sanitizeEntry, free, Bool.false_eq_true, if_false]
      split <;> rfl
    rw [copied, clean_string]
    have plain : signedUrl (if signedUrl s then lit "[SIGNED_URL_REDACTED]" else s) = false := by
      split
      · decide +kernel
      next plain => simpa using plain
    simp only [plain, true_iff]
    rintro items ⟨⟩
  | .null => by
    simp only [sanitizeEntry, free, Bool.false_eq_true, if_false]
    exact iff_of_true (clean_atom (by rintro w ⟨⟩; rfl) (by simp) (by simp)) (by rintro items ⟨⟩)
  | .bool b => by
    simp only [sanitizeEntry, free, Bool.false_eq_true, if_false]
    exact iff_of_true (clean_atom (by rintro w ⟨⟩; rfl) (by simp) (by simp)) (by rintro items ⟨⟩)
  | .number x => by
    simp only [sanitizeEntry, free, Bool.false_eq_true, if_false]
    exact iff_of_true (clean_atom (by rintro w ⟨⟩; rfl) (by simp) (by simp)) (by rintro items ⟨⟩)

theorem clean_sanitizeMembers_iff : (members : List (Text × Json)) →
    ((∀ member ∈ members, member.1 ≠ lit "__proto__" →
      Clean toLowerCase (sanitizeEntry toLowerCase member.1 member.2)) ↔
    ∀ member ∈ members, member.1 ≠ lit "__proto__" → forbidden toLowerCase member.1 = false →
      ArraysClean toLowerCase member.2)
  | [] => by simp
  | (key, value) :: rest => by
    rw [List.forall_mem_cons, List.forall_mem_cons, clean_sanitizeMembers_iff rest]
    refine and_congr_left fun _ => imp_congr_right fun _ => ?_
    cases hit : forbidden toLowerCase key with
    | true =>
      rw [sanitizeEntry_forbidden hit, clean_string]
      simp only [Bool.true_eq_false, false_implies, iff_true]
      decide +kernel
    | false => simpa using clean_sanitizeEntry_iff hit value

end

end Clean

/-- What is stored is clean exactly if every array outside of forbidden keys was clean already. -/
theorem recorded_clean_iff (toLowerCase : Text → Text) (requestId : Option Text)
    (event : AuditEventInput) :
    Clean toLowerCase (recordEvent toLowerCase requestId event).metadata ↔
      ∀ v ∈ event.metadata, ArraysClean toLowerCase (.object v.entries) := by
  have null : Clean toLowerCase .null := clean_atom (by rintro w ⟨⟩; rfl) (by simp) (by simp)
  have copied (entries : List (Text × Json)) :
      Clean toLowerCase (.object (sanitizeEntries toLowerCase entries)) ↔
        ArraysClean toLowerCase (.object entries) := by
    rw [clean_sanitizeEntries_iff, arraysClean_object]
    exact clean_sanitizeMembers_iff entries
  have empty : ArraysClean toLowerCase (.object []) := arraysClean_object.mpr (by simp)
  cases stored : event.metadata with
  | none => simpa [recordEvent, stored, sanitizeMetadata] using null
  | some v =>
    simp only [recordEvent, stored, Option.mem_def, Option.some.injEq, forall_eq']
    cases v with
    | object members => exact copied members
    | array items => exact copied (Json.array items).entries
    | null | bool | number | string => exact iff_of_true null empty

/-- The small letters of the ASCII capitals. -/
def asciiLower (key : Text) : Text :=
  key.map fun c => if 65 ≤ c.toNat ∧ c.toNat ≤ 90 then c + 32 else c

/-- Devices with their tokens, as an array. -/
def devicesEvent : AuditEventInput where
  actorId := lit "7"
  actorRole := lit "worker"
  action := lit "SESSION_REVOKED"
  targetType := lit "session"
  targetId := lit "1"
  metadata := some (.object [(lit "devices", .array [.object [(lit "token", .string (lit "abc"))]])])

/-- The token is stored. -/
theorem token_stored :
    ∃ event, ¬ Clean asciiLower (recordEvent asciiLower none event).metadata := by
  refine ⟨devicesEvent, fun clean => ?_⟩
  have stored : (recordEvent asciiLower none devicesEvent).metadata =
      .object [(lit "devices", .array [.object [(lit "token", .string (lit "abc"))]])] := by
    have own : lit "devices" ≠ lit "__proto__" := by decide +kernel
    have free : forbidden asciiLower (lit "devices") = false := by decide +kernel
    simp only [recordEvent, devicesEvent, sanitizeMetadata, sanitizeEntries, sanitizeEntry, own, free,
      if_false, Bool.false_eq_true, Option.getD_some]
  rw [stored] at clean
  have within : Json.Within (.object [(lit "token", .string (lit "abc"))])
      (.object [(lit "devices", .array [.object [(lit "token", .string (lit "abc"))]])]) :=
    .member (.head _) (.item (.head _) (.self _))
  have masked := clean.keys _ within _ (.head _) (by decide +kernel)
  have different : lit "abc" ≠ lit "[REDACTED]" := by decide +kernel
  exact different (Json.string.inj masked)

end LabourBaba.Audit
