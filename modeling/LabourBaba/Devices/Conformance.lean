import LabourBaba.Devices.Services
import LabourBaba.Store.RelyGuarantee

/-!
# What the log and the tables hold

Every entry of the log has a reason in the log before it: a cleanup follows a push that the
provider refused for good, a push follows a look-up that found its token, and a look-up finds
the tokens of the active devices. The tables hold what the log says. Every statement of the
services keeps this, so it holds in every run (`wf_of_reachable`).
-/
namespace LabourBaba.Devices

open Store Utf16

/-! ### Reasons -/

/-- A look-up for the recipient that found the token. -/
def Found (holder : Holder) (ownerId : Id) (token : Text) (log : List Entry) : Prop :=
  ∃ earlier tokens later, log = earlier ++ .looked holder ownerId tokens :: later ∧ token ∈ tokens

/-- The provider has refused the token for good. -/
def Refused (cfg : Config) (holder : Holder) (token : Text) (log : List Entry) : Prop :=
  ∃ ownerId answer, Entry.pushed holder ownerId token answer ∈ log ∧ answer.refuses cfg = true

/-- The reason of an entry, in the log before it. -/
def Entry.Fits (cfg : Config) (before : List Entry) : Entry → Prop
  | .cleaned holder token => Refused cfg holder token before
  | .pushed holder ownerId token _ =>
    cfg.initialized = true ∧ token ≠ [] ∧ Found holder ownerId token before
  | .looked holder ownerId tokens =>
    ∀ token, token ∈ tokens ↔ ∃ x, status before holder ownerId x = some (token, true)
  | .registered _ _ _ _ | .revoked _ _ _ | .emitted _ _ => True

def Reasoned (cfg : Config) (log : List Entry) : Prop :=
  ∀ before e after, log = before ++ e :: after → e.Fits cfg before

theorem Reasoned.concat {cfg : Config} {log : List Entry} {e : Entry} (reasoned : Reasoned cfg log)
    (fits : e.Fits cfg log) : Reasoned cfg (log ++ [e]) := by
  intro before e' after split
  -- the entry is the new one, or its whole past lies in the old log
  rcases List.eq_nil_or_concat after with rfl | ⟨rest, last, rfl⟩
  · obtain ⟨rfl, same⟩ := List.append_inj' split rfl
    obtain rfl := List.head_eq_of_cons_eq same
    exact fits
  · have split : log ++ [e] = (before ++ e' :: rest) ++ [last] := by simpa using split
    exact reasoned before e' rest (List.append_inj' split rfl).1

theorem Found.later {holder : Holder} {ownerId : Id} {token : Text} {log log' : List Entry}
    (found : Found holder ownerId token log) (grown : log <+: log') :
    Found holder ownerId token log' := by
  obtain ⟨earlier, tokens, later, rfl, member⟩ := found
  obtain ⟨more, rfl⟩ := grown
  exact ⟨earlier, tokens, later ++ more, by simp, member⟩

theorem Refused.later {cfg : Config} {holder : Holder} {token : Text} {log log' : List Entry}
    (refused : Refused cfg holder token log) (grown : log <+: log') :
    Refused cfg holder token log' := by
  obtain ⟨ownerId, answer, member, refuses⟩ := refused
  exact ⟨ownerId, answer, grown.subset member, refuses⟩

/-! ### The tables -/

@[simp] theorem devices_logged (d : Db) (e : Entry) : (d.logged e).devices = d.devices := by
  funext holder
  cases holder <;> rfl

@[simp] theorem log_logged (d : Db) (e : Entry) : (d.logged e).log = d.log ++ [e] := rfl

@[simp] theorem log_onDevices (d : Db) (f : List Device → List Device) (holder : Holder) :
    (d.onDevices f holder).log = d.log := by
  cases holder <;> rfl

theorem devices_onDevices (d : Db) (f : List Device → List Device) (holder h : Holder) :
    (d.onDevices f holder).devices h = if h = holder then f (d.devices h) else d.devices h := by
  cases holder <;> cases h <;> rfl

@[simp] theorem revoked_key (t : ℕ) (x : Device) : (x.revoked t).key = x.key := by
  simp only [Device.revoked]
  split <;> rfl

theorem revoked_status (t : ℕ) (x : Device) : (x.revoked t).status = (x.fcmToken, false) := by
  simp only [Device.revoked]
  split
  · rfl
  next inactive => rw [Device.status, Bool.eq_false_iff.mpr inactive]

theorem cleaned_key (token : Text) (t : ℕ) (x : Device) : (x.cleaned token t).key = x.key := by
  simp only [Device.cleaned]
  split
  · exact revoked_key t x
  · rfl

theorem cleaned_status (token : Text) (t : ℕ) (x : Device) :
    (x.cleaned token t).status = (x.fcmToken, x.active && decide (x.fcmToken ≠ token)) := by
  simp only [Device.cleaned]
  split
  next same => rw [revoked_status, decide_eq_false (fun differ => differ same), Bool.and_false]
  next differ => simp [Device.status, differ]

/-- Rows changed one by one, under their keys. -/
theorem find_map {f : Device → Device} (keeps : ∀ x, (f x).key = x.key) (rows : List Device)
    (k : Id × Text) : Table.find Device.key (rows.map f) k = (Table.find Device.key rows k).map f := by
  induction rows with
  | nil => rfl
  | cons x rest ih =>
    rw [List.map_cons, Table.find_cons, Table.find_cons, keeps, ih]
    split <;> rfl

/-- An upsert makes the row the registration wants, and touches no other device. -/
theorem find_upserted (new : Device) (rows : List Device) (k : Id × Text) :
    Table.find Device.key (upserted new rows) k =
      if new.key = k then some (((Table.find Device.key rows k).map new.renewed).getD new)
      else Table.find Device.key rows k := by
  have keeps : ∀ x, (Device.renewed new x).key = x.key := fun _ => rfl
  simp only [upserted]
  split
  next known =>
    rw [Table.find_modify _ _ _ _ keeps]
    by_cases same : new.key = k
    · subst same
      obtain ⟨x, found⟩ := Option.isSome_iff_exists.mp known
      simp [found]
    · have absent : k ∉ [new.key] := fun member => same (List.mem_singleton.mp member).symm
      simp [absent, same]
  next unknown =>
    have absent : Table.find Device.key rows new.key = none := by simpa using unknown
    rw [Table.find_append]
    split
    next same =>
      subst same
      simp [absent, Table.find_cons]
    next other => simp [Table.find_cons, other]

theorem unique_upserted {new : Device} {rows : List Device} (unique : Table.Unique Device.key rows) :
    Table.Unique Device.key (upserted new rows) := by
  simp only [upserted]
  split
  · exact Table.unique_modify _ _ (fun _ => rfl) unique
  next unknown =>
    have absent : Table.find Device.key rows new.key = none := by simpa using unknown
    rw [Table.Unique, List.map_append, List.nodup_append]
    refine ⟨unique, by simp, fun k stored k' last same => ?_⟩
    obtain ⟨x, member, rfl⟩ := List.mem_map.mp stored
    obtain rfl := List.mem_singleton.mp last
    exact Table.find_none_iff.mp absent x member same

/-! ### The invariant -/

structure Wf (cfg : Config) (d : Db) : Prop where
  unique : ∀ holder, Table.Unique Device.key (d.devices holder)
  follows : ∀ holder ownerId deviceId,
    (d.device holder ownerId deviceId).map Device.status = status d.log holder ownerId deviceId
  reasoned : Reasoned cfg d.log

/-- The entry changes no device. -/
def Entry.silent : Entry → Bool
  | .registered _ _ _ _ | .revoked _ _ _ | .cleaned _ _ => false
  | .looked _ _ _ | .pushed _ _ _ _ | .emitted _ _ => true

/-- What a write meets in the store it is committed to. -/
def Write.Fits (cfg : Config) (d : Db) : Write → Prop
  | .upsert _ new => new.revokedAt = none
  | .revoke _ _ _ _ | .tick _ => True
  | .revokeToken holder token _ => Refused cfg holder token d.log
  | .note e => e.silent = true ∧ e.Fits cfg d.log

variable {cfg : Config} {d : Db}

/-- A change to the table of one holder, with its entry in the log: the devices stay apart, each of
them changes as the entry says, and the entry is about nobody else's. -/
theorem Wf.changed {holder : Holder} {f : List Device → List Device} {e : Entry} (wf : Wf cfg d)
    (fits : e.Fits cfg d.log) (unique : Table.Unique Device.key (f (d.devices holder)))
    (mine : ∀ o x, (Table.find Device.key (f (d.devices holder)) (o, x)).map Device.status =
      e.act holder o x ((Table.find Device.key (d.devices holder) (o, x)).map Device.status))
    (others : ∀ h o x s, h ≠ holder → e.act h o x s = s) :
    Wf cfg ((d.onDevices f holder).logged e) where
  unique h := by
    simp only [devices_logged, devices_onDevices]
    split
    next same => exact same ▸ unique
    next => exact wf.unique h
  follows h o x := by
    have before := wf.follows h o x
    simp only [log_logged, log_onDevices, status_append, Db.device, devices_logged,
      devices_onDevices] at before ⊢
    rw [← before]
    by_cases same : h = holder
    · subst same
      rw [if_pos rfl]
      exact mine o x
    · rw [if_neg same, others h o x _ same]
  reasoned := by
    simp only [log_logged, log_onDevices]
    exact wf.reasoned.concat fits

theorem Wf.upsert {holder : Holder} {new : Device} (wf : Wf cfg d) (active : new.revokedAt = none) :
    Wf cfg ((Write.upsert holder new).apply d) := by
  refine wf.changed trivial (unique_upserted (wf.unique holder)) (fun o x => ?_)
    fun h o x s other => ?_
  · rw [find_upserted]
    simp only [Entry.act, Device.key, Prod.mk.injEq, true_and]
    split
    · rw [Option.map_some]
      -- the row is new or renewed, and active with the registered token in both cases
      cases Table.find Device.key (d.devices holder) (o, x) <;>
        simp [Device.status, Device.active, Device.renewed, active]
    · rfl
  · exact if_neg fun same => other same.1.symm

theorem Wf.revoke {holder : Holder} {ownerId : Id} {deviceId : Text} {t : ℕ} (wf : Wf cfg d) :
    Wf cfg ((Write.revoke holder ownerId deviceId t).apply d) := by
  refine wf.changed trivial (Table.unique_modify _ _ (revoked_key t) (wf.unique holder))
    (fun o x => ?_) fun h o x s other => ?_
  · rw [Table.find_modify _ _ _ _ (revoked_key t)]
    simp only [Entry.act, List.mem_singleton, Prod.mk.injEq, true_and, Option.map_map]
    -- the row of the device is deactivated, the other rows of the table stay
    by_cases same : ownerId = o ∧ deviceId = x
    · rw [if_pos same]
      refine Option.map_congr fun row _ => ?_
      simp only [Function.comp, same, and_self, if_true]
      exact revoked_status t row
    · rw [if_neg same]
      refine Option.map_congr fun row _ => ?_
      have other : ¬ (o = ownerId ∧ x = deviceId) := fun eq => same ⟨eq.1.symm, eq.2.symm⟩
      simp only [Function.comp, other, if_false]
  · exact if_neg fun same => other same.1.symm

theorem Wf.revokeToken {holder : Holder} {token : Text} {t : ℕ} (wf : Wf cfg d)
    (refused : Refused cfg holder token d.log) :
    Wf cfg ((Write.revokeToken holder token t).apply d) := by
  have keys : Table.Unique Device.key ((d.devices holder).map (Device.cleaned token t)) := by
    rw [Table.Unique, List.map_map]
    have same : Device.key ∘ Device.cleaned token t = Device.key :=
      funext fun x => cleaned_key token t x
    rw [same]
    exact wf.unique holder
  refine wf.changed refused keys (fun o x => ?_) fun h o x s other => ?_
  · -- every row with the token is deactivated, whoever owns it
    simp only [Entry.act, if_true]
    rw [find_map (cleaned_key token t), Option.map_map, Option.map_map]
    exact Option.map_congr fun row _ => cleaned_status token t row
  · exact if_neg fun same => other same.symm

theorem Wf.note {e : Entry} (wf : Wf cfg d) (silent : e.silent = true) (fits : e.Fits cfg d.log) :
    Wf cfg ((Write.note e).apply d) where
  unique h := by
    simp only [Write.apply, devices_logged]
    exact wf.unique h
  follows h o x := by
    have before := wf.follows h o x
    simp only [Write.apply, log_logged, status_append, Db.device, devices_logged] at before ⊢
    rw [before]
    cases e <;> first | rfl | cases silent
  reasoned := wf.reasoned.concat fits

theorem Wf.apply {w : Write} (wf : Wf cfg d) (fits : w.Fits cfg d) : Wf cfg (w.apply d) := by
  cases w with
  | upsert holder new => exact wf.upsert fits
  | revoke holder ownerId deviceId t => exact wf.revoke
  | revokeToken holder token t => exact wf.revokeToken fits
  | note e => exact wf.note fits.1 fits.2
  | tick ms =>
    refine ⟨fun h => ?_, fun h o x => ?_, wf.reasoned⟩
    · cases h
      · exact wf.unique .worker
      · exact wf.unique .customer
    · cases h
      · exact wf.follows .worker o x
      · exact wf.follows .customer o x

theorem wf_start : Wf cfg {} where
  unique h := by cases h <;> simp [Table.Unique, Db.devices]
  follows h o x := by cases h <;> rfl
  reasoned before e after split := by simp at split

/-- The log only grows. -/
theorem log_apply (w : Write) (d : Db) : d.log <+: (w.apply d).log := by
  cases w with
  | tick ms => exact List.prefix_rfl
  | _ =>
    simp only [Write.apply, log_logged, log_onDevices]
    exact List.prefix_append _ _

/-! ### The protocol -/

def protocol (cfg : Config) : Protocol Unit Db where
  inv := Wf cfg
  pre _ _ := True
  guar _ _ d d' := ∃ w : Write, d' = w.apply d ∧ w.Fits cfg d
  evo _ d d' := d.log <+: d'.log
  evo_refl _ _ := List.prefix_rfl
  evo_trans _ _ _ _ := List.IsPrefix.trans
  guar_inv := by
    rintro _ _ d _ wf ⟨w, rfl, fits⟩
    exact wf.apply fits
  guar_evo := by
    rintro _ _ _ d _ _ _ ⟨w, rfl, -⟩
    exact log_apply w d

instance (cfg : Config) : (protocol cfg).Lax := ⟨fun _ _ _ => trivial⟩

end LabourBaba.Devices
