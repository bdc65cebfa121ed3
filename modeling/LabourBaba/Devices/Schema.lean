import LabourBaba.Store.Table
import LabourBaba.Store.Pool
import LabourBaba.Text.Utf16
import Mathlib

/-!
# Devices and their log

The tables `worker_device` and `customer_device`, which have the same columns, and the log of
what happened to them: registrations, revocations, cleanups of a token, look-ups for a push and
the pushes with the provider's answers. The log is only there to say what the tables should
hold: `status` replays it for one device of one owner.
-/
namespace LabourBaba.Devices

open Store Utf16

abbrev Id := Text

/-- The recipients that have devices. -/
inductive Holder where
  | worker | customer
deriving DecidableEq

/-- `worker_device` and `customer_device` -/
structure Device where
  id : Id
  ownerId : Id
  deviceId : Text
  fcmToken : Text
  platform : Text
  lastSeenAt : ℕ
  revokedAt : Option ℕ := none
  createdAt : ℕ
  updatedAt : ℕ
deriving DecidableEq

namespace Device

/-- The unique constraint of both tables. -/
def key (x : Device) : Id × Text := (x.ownerId, x.deviceId)

def active (x : Device) : Bool := x.revokedAt.isNone

end Device

/-- A rejection of the messaging client: `code`, `errorInfo.code` and `message`. -/
structure FCMError where
  code : Option Text := none
  infoCode : Option Text := none
  message : Option Text := none
deriving DecidableEq

/-- The message id of an accepted push, or the value it was rejected with, which may be empty. -/
abbrev Answer := Except (Option FCMError) Text

inductive Entry where
  | registered (holder : Holder) (ownerId : Id) (deviceId token : Text)
  | revoked (holder : Holder) (ownerId : Id) (deviceId : Text)
  /-- `revokeByToken` -/
  | cleaned (holder : Holder) (token : Text)
  /-- The tokens that a push is sent to. -/
  | looked (holder : Holder) (ownerId : Id) (tokens : List Text)
  | pushed (holder : Holder) (ownerId : Id) (token : Text) (answer : Answer)
  /-- A socket event to a room. -/
  | emitted (room event : Text)
deriving DecidableEq

structure Db where
  now : ℕ := 0
  workers : List Device := []
  customers : List Device := []
  log : List Entry := []

def Db.devices (d : Db) : Holder → List Device
  | .worker => d.workers
  | .customer => d.customers

def Db.device (d : Db) (holder : Holder) (ownerId : Id) (deviceId : Text) : Option Device :=
  Table.find Device.key (d.devices holder) (ownerId, deviceId)

def Db.onDevices (d : Db) (f : List Device → List Device) : Holder → Db
  | .worker => { d with workers := f d.workers }
  | .customer => { d with customers := f d.customers }

def Db.logged (d : Db) (e : Entry) : Db := { d with log := d.log ++ [e] }

/-! ### Writes -/

inductive Write where
  /-- The INSERT, or the UPDATE where the device of the owner is known. -/
  | upsert (holder : Holder) (new : Device)
  | revoke (holder : Holder) (ownerId : Id) (deviceId : Text) (at_ : ℕ)
  | revokeToken (holder : Holder) (token : Text) (at_ : ℕ)
  | note (e : Entry)
  | tick (ms : ℕ)

/-- The columns that the UPDATE of a registration sets. -/
def Device.renewed (new x : Device) : Device :=
  { x with
    fcmToken := new.fcmToken
    platform := new.platform
    lastSeenAt := new.lastSeenAt
    revokedAt := none
    updatedAt := new.updatedAt }

/-- `revoked_at` is set on rows where it is null. -/
def Device.revoked (t : ℕ) (x : Device) : Device :=
  if x.active then { x with revokedAt := some t, updatedAt := t } else x

/-- Only looks at rows where `revoked_at` is null. -/
def Device.cleaned (token : Text) (t : ℕ) (x : Device) : Device :=
  if x.fcmToken = token then x.revoked t else x

def upserted (new : Device) (rows : List Device) : List Device :=
  if (Table.find Device.key rows new.key).isSome then
    Table.modify Device.key rows [new.key] (Device.renewed new)
  else rows ++ [new]

def Write.apply (w : Write) (d : Db) : Db :=
  match w with
  | .upsert holder new =>
    (d.onDevices (upserted new) holder).logged
      (.registered holder new.ownerId new.deviceId new.fcmToken)
  | .revoke holder ownerId deviceId t =>
    (d.onDevices (fun rows => Table.modify Device.key rows [(ownerId, deviceId)] (Device.revoked t))
      holder).logged (.revoked holder ownerId deviceId)
  | .revokeToken holder token t =>
    (d.onDevices (fun rows => rows.map (Device.cleaned token t)) holder).logged
      (.cleaned holder token)
  | .note e => d.logged e
  | .tick ms => { d with now := d.now + ms }

/-! No call holds a lock between two statements. -/

instance : RowStore Db Write Empty where
  Row := fun _ => Unit
  row _ _ := ()
  write := Write.apply
  keys _ := []
  row_write _ _ _ _ := rfl

@[simp] theorem write_eq_apply (w : Write) (d : Db) : write w d = w.apply d := rfl

@[simp] theorem keys_eq (w : Write) : keys Db w = ([] : List Empty) := rfl

/-! ### What the log says of a device -/

/-- The token a device was last registered with, and whether it is still active. -/
abbrev Status := Option (Text × Bool)

def Entry.act (holder : Holder) (ownerId : Id) (deviceId : Text) (s : Status) : Entry → Status
  | .registered h o x token =>
    if h = holder ∧ o = ownerId ∧ x = deviceId then some (token, true) else s
  | .revoked h o x =>
    if h = holder ∧ o = ownerId ∧ x = deviceId then s.map fun now => (now.1, false) else s
  | .cleaned h token =>
    if h = holder then s.map fun now => (now.1, now.2 && decide (now.1 ≠ token)) else s
  | _ => s

def status (log : List Entry) (holder : Holder) (ownerId : Id) (deviceId : Text) : Status :=
  log.foldl (Entry.act holder ownerId deviceId) none

theorem status_append (log : List Entry) (e : Entry) (holder : Holder) (ownerId : Id)
    (deviceId : Text) : status (log ++ [e]) holder ownerId deviceId =
      e.act holder ownerId deviceId (status log holder ownerId deviceId) := by
  simp [status]

def Device.status (x : Device) : Text × Bool := (x.fcmToken, x.active)

end LabourBaba.Devices
