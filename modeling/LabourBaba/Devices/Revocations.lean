import LabourBaba.Devices.Deliveries

/-!
# What becomes of a device

The results, for every reachable store: which rows there are and with which tokens, why a row
is revoked, whom a push reaches, and what deliveries report.
-/
namespace LabourBaba.Devices

open Store Utf16

/-! ### Replays -/

section Replays

variable {log : List Entry} {holder : Holder} {ownerId : Id} {deviceId token : Text} {now : Bool}

/-- The device is not registered again. -/
def Unregistered (holder : Holder) (ownerId : Id) (deviceId : Text) (log : List Entry) : Prop :=
  ∀ token, Entry.registered holder ownerId deviceId token ∉ log

theorem Unregistered.concat {e : Entry} (none : Unregistered holder ownerId deviceId log)
    (other : ∀ token, e ≠ .registered holder ownerId deviceId token) :
    Unregistered holder ownerId deviceId (log ++ [e]) := by
  intro token member
  rcases List.mem_append.mp member with old | new
  · exact none token old
  · exact other token (List.mem_singleton.mp new).symm

/-- An entry keeps the token of a device, unless it registers the device. -/
theorem token_of_act {e : Entry} {s : Status}
    (acted : e.act holder ownerId deviceId s = some (token, now)) :
    (e = .registered holder ownerId deviceId token ∧ now = true) ∨
      (∀ t, e ≠ .registered holder ownerId deviceId t) ∧ ∃ before, s = some (token, before) ∧
        (now = before ∨ now = false ∧
          (e = .revoked holder ownerId deviceId ∨ e = .cleaned holder token)) := by
  cases e with
  | registered h o x t =>
    simp only [Entry.act] at acted
    split at acted
    next same =>
      obtain ⟨rfl, rfl, rfl⟩ := same
      cases acted
      exact Or.inl ⟨rfl, rfl⟩
    next other =>
      refine Or.inr ⟨?_, now, acted, Or.inl rfl⟩
      rintro _ ⟨⟩
      exact other ⟨rfl, rfl, rfl⟩
  | revoked h o x =>
    refine Or.inr ⟨by rintro _ ⟨⟩, ?_⟩
    simp only [Entry.act] at acted
    split at acted
    next same =>
      obtain ⟨rfl, rfl, rfl⟩ := same
      obtain ⟨⟨t, before⟩, rfl, same⟩ := Option.map_eq_some_iff.mp acted
      cases same
      exact ⟨before, rfl, Or.inr ⟨rfl, Or.inl rfl⟩⟩
    next => exact ⟨now, acted, Or.inl rfl⟩
  | cleaned h t =>
    refine Or.inr ⟨by rintro _ ⟨⟩, ?_⟩
    simp only [Entry.act] at acted
    split at acted
    next same =>
      subst same
      obtain ⟨⟨t', before⟩, rfl, same⟩ := Option.map_eq_some_iff.mp acted
      cases same
      refine ⟨before, rfl, ?_⟩
      by_cases mine : t' = t
      · exact Or.inr ⟨by simp [mine], Or.inr (by rw [mine])⟩
      · exact Or.inl (by simp [mine])
    next => exact ⟨now, acted, Or.inl rfl⟩
  | looked _ _ _ | pushed _ _ _ _ | emitted _ _ =>
    exact Or.inr ⟨by rintro _ ⟨⟩, now, acted, Or.inl rfl⟩

/-- The token of a device is that of its last registration. -/
theorem last_registered (known : status log holder ownerId deviceId = some (token, now)) :
    ∃ before after, log = before ++ .registered holder ownerId deviceId token :: after ∧
      Unregistered holder ownerId deviceId after := by
  induction log using List.reverseRecOn generalizing now with
  | nil => cases known
  | append_singleton log e ih =>
    rw [status_append] at known
    rcases token_of_act known with ⟨rfl, -⟩ | ⟨other, earlier, held, -⟩
    · exact ⟨log, [], rfl, by simp [Unregistered]⟩
    · obtain ⟨before, after, rfl, none⟩ := ih held
      exact ⟨before, after ++ [e], by simp, none.concat other⟩

/-- A device that is not active was revoked, with the token it still has. -/
theorem revoked_by (known : status log holder ownerId deviceId = some (token, false)) :
    ∃ before e after, log = before ++ e :: after ∧
      status before holder ownerId deviceId = some (token, true) ∧
      (e = .revoked holder ownerId deviceId ∨ e = .cleaned holder token) ∧
      Unregistered holder ownerId deviceId after := by
  induction log using List.reverseRecOn with
  | nil => cases known
  | append_singleton log e ih =>
    rw [status_append] at known
    rcases token_of_act known with ⟨-, ⟨⟩⟩ | ⟨other, earlier, held, change⟩
    cases earlier with
    | false =>
      obtain ⟨before, e', after, rfl, active, cause, none⟩ := ih held
      exact ⟨before, e', after ++ [e], by simp, active, cause, none.concat other⟩
    | true =>
      rcases change with same | ⟨-, cause⟩
      · cases same
      exact ⟨log, e, [], rfl, held, cause, by simp [Unregistered]⟩

theorem status_of_registered (member : Entry.registered holder ownerId deviceId token ∈ log) :
    (status log holder ownerId deviceId).isSome = true := by
  induction log using List.reverseRecOn with
  | nil => cases member
  | append_singleton log e ih =>
    rw [status_append]
    rcases List.mem_append.mp member with old | new
    · have known := ih old
      cases e <;> simp only [Entry.act] <;> first | exact known | (split <;> simp [known])
    · obtain rfl := List.mem_singleton.mp new
      simp [Entry.act]

end Replays

section Reached

variable {cfg : Config} {p : DevicePool}

/-! ### Devices -/

/-- A device that an owner has registered is one row, whatever tokens it had and whatever calls
raced, and a row holds the token with which its device was last registered. -/
theorem one_row_per_device (reached : Reachable cfg p) (holder : Holder) (ownerId : Id)
    (deviceId : Text) :
    ((∃ token, Entry.registered holder ownerId deviceId token ∈ p.db.log) ↔
      ∃! row, row ∈ p.db.devices holder ∧ row.key = (ownerId, deviceId)) ∧
    ∀ row ∈ p.db.devices holder, row.key = (ownerId, deviceId) →
      ∃ before after, p.db.log = before ++ .registered holder ownerId deviceId row.fcmToken :: after ∧
        Unregistered holder ownerId deviceId after := by
  have wf := wf_of_reachable reached
  have last : ∀ row ∈ p.db.devices holder, row.key = (ownerId, deviceId) →
      ∃ before after, p.db.log = before ++ .registered holder ownerId deviceId row.fcmToken :: after ∧
        Unregistered holder ownerId deviceId after := by
    intro row stored key
    have found : p.db.device holder ownerId deviceId = some row := by
      rw [Db.device, ← key]
      exact Table.find_of_mem (wf.unique holder) stored
    have known := wf.follows holder ownerId deviceId
    rw [found, Option.map_some] at known
    exact last_registered known.symm
  refine ⟨⟨?_, ?_⟩, last⟩
  · rintro ⟨token, member⟩
    have known := status_of_registered member
    rw [← wf.follows, Option.isSome_map] at known
    obtain ⟨row, found⟩ := Option.isSome_iff_exists.mp known
    refine ⟨row, ⟨Table.mem_of_find found, Table.find_key found⟩, ?_⟩
    rintro other ⟨stored, key⟩
    exact Table.eq_of_find (wf.unique holder) found stored key
  · rintro ⟨row, ⟨stored, key⟩, -⟩
    obtain ⟨before, after, split, -⟩ := last row stored key
    exact ⟨row.fcmToken, by simp [split]⟩

/-- A device is revoked because its owner asked for it, or because the provider had refused the
token it was active with, for good: no transient error revokes a device, and a registration
makes it active again. -/
theorem revoked_for_cause (reached : Reachable cfg p) {holder : Holder} {row : Device}
    (stored : row ∈ p.db.devices holder) (revoked : row.revokedAt.isSome = true) :
    ∃ before e after, p.db.log = before ++ e :: after ∧
      status before holder row.ownerId row.deviceId = some (row.fcmToken, true) ∧
      Unregistered holder row.ownerId row.deviceId after ∧
      (e = .revoked holder row.ownerId row.deviceId ∨
        ∃ ownerId err, (classifyFCMError cfg err).isInvalidToken = true ∧
          Entry.pushed holder ownerId row.fcmToken (.error err) ∈ before) := by
  have wf := wf_of_reachable reached
  have found : p.db.device holder row.ownerId row.deviceId = some row :=
    Table.find_of_mem (wf.unique holder) stored
  have inactive : row.active = false := by
    rw [Device.active, ← Option.not_isSome, revoked]
    rfl
  have known := wf.follows holder row.ownerId row.deviceId
  rw [found, Option.map_some, Device.status, inactive] at known
  obtain ⟨before, e, after, split, active, cause, none⟩ := revoked_by known.symm
  refine ⟨before, e, after, split, active, none, ?_⟩
  rcases cause with rfl | rfl
  · exact Or.inl rfl
  · -- a cleanup has its reason before it
    obtain ⟨ownerId, answer, pushed, refuses⟩ := wf.reasoned before _ after split
    cases answer with
    | ok messageId => cases refuses
    | error err => exact Or.inr ⟨ownerId, err, refuses, pushed⟩

/-! ### Pushes -/

/-- A push is sent by an initialized client only, and to a token with which the recipient had an
active device at a look-up before it. -/
theorem pushes_to_active_devices (reached : Reachable cfg p) {before after : List Entry}
    {holder : Holder} {ownerId : Id} {token : Text} {answer : Answer}
    (split : p.db.log = before ++ .pushed holder ownerId token answer :: after) :
    cfg.initialized = true ∧ token ≠ [] ∧ ∃ earlier tokens later,
      before = earlier ++ .looked holder ownerId tokens :: later ∧ token ∈ tokens ∧
      ∃ deviceId, status earlier holder ownerId deviceId = some (token, true) := by
  have reasoned := (wf_of_reachable reached).reasoned
  obtain ⟨initialized, proper, earlier, tokens, later, rfl, member⟩ := reasoned before _ after split
  have looked := reasoned earlier (.looked holder ownerId tokens)
    (later ++ .pushed holder ownerId token answer :: after) (by rw [split]; simp)
  exact ⟨initialized, proper, earlier, tokens, later, rfl, member, (looked token).mp member⟩

/-- The job for a wave never fails, and every worker of the wave is sent the socket event, however
the pushes end. -/
theorem wave_workers_notified (reached : Reachable cfg p) {i : ℕ} {th : DeviceThread}
    {net : Id → Network} {workers : List Id} {outcome : Outcome} (found : p.threads[i]? = some th)
    (op : th.op = .processNotificationJob net workers)
    (returned : th.prog.returned = some outcome) :
    outcome = .ok .done ∧ (cfg.sockets = true → ∀ w ∈ workers, Notified w p.db.log) := by
  have promised := promised_of_returned reached found returned
  rw [op] at promised
  exact promised

end Reached

/-! ### A wave on the way -/

/-- The client knows the first token no more, and accepts the second. -/
def wire : Network where
  answer n := if n = 0 then
      .error (some { code := some (lit "messaging/registration-token-not-registered") })
    else .ok (lit "m1")
  order tokens := tokens
  all _ := .rfl

def restored : Network where
  answer _ := .ok (lit "m2")
  order tokens := tokens
  all _ := .rfl

def firebase : Config where
  toLowerCase s := s
  initialized := true

/-- Two devices of a worker are registered, a wave is announced, and a push is sent again. -/
def announcing : List (Pool.Move Op) :=
  [.event (.spawn (.registerDevice .worker (lit "w") ⟨lit "t1", some (lit "phone"), none⟩ (lit "1"))),
    .drive 0 true,
    .event (.spawn (.registerDevice .worker (lit "w") ⟨lit "t2", none, none⟩ (lit "2"))),
    .drive 1 true,
    .event (.spawn (.processNotificationJob (fun _ => wire) [lit "w"])), .drive 2 true,
    .event (.spawn (.sendFCMToRecipient restored (lit "worker") (lit "w"))), .drive 3 true]

def played (moves : List (Pool.Move Op)) : DevicePool :=
  Pool.after (system firebase) (Pool.Meets fun _ _ => True) 40 { db := {} } moves

theorem reachable_played (moves : List (Pool.Move Op)) : Reachable firebase (played moves) :=
  Pool.Reaches.refl.after 40 moves

theorem one_row_per_device_announcing :
    ∃! row, row ∈ (played announcing).db.devices .worker ∧ row.key = (lit "w", lit "phone") := by
  have registered : Entry.registered .worker (lit "w") (lit "phone") (lit "t1") ∈
      (played announcing).db.log := by
    decide +kernel
  exact (one_row_per_device (reachable_played announcing) _ _ _).1.mp ⟨_, registered⟩

theorem revoked_for_cause_announcing :
    ∃ row ∈ (played announcing).db.devices .worker, row.revokedAt.isSome = true ∧
      ∃ before e after, (played announcing).db.log = before ++ e :: after ∧
        status before .worker row.ownerId row.deviceId = some (row.fcmToken, true) ∧
        (e = .revoked .worker row.ownerId row.deviceId ∨
          ∃ ownerId err, (classifyFCMError firebase err).isInvalidToken = true ∧
            Entry.pushed .worker ownerId row.fcmToken (.error err) ∈ before) := by
  have some_revoked : ∃ row ∈ (played announcing).db.devices .worker,
      row.revokedAt.isSome = true := by
    decide +kernel
  obtain ⟨row, stored, revoked⟩ := some_revoked
  obtain ⟨before, e, after, split, active, -, cause⟩ :=
    revoked_for_cause (reachable_played announcing) stored revoked
  exact ⟨row, stored, revoked, before, e, after, split, active, cause⟩

theorem pushes_to_active_devices_announcing :
    ∃ before after, (played announcing).db.log =
        before ++ .pushed .worker (lit "w") (lit "t2") (.ok (lit "m1")) :: after ∧
      ∃ earlier tokens later, before = earlier ++ .looked .worker (lit "w") tokens :: later ∧
        ∃ deviceId, status earlier .worker (lit "w") deviceId = some (lit "t2", true) := by
  have pushed : Entry.pushed .worker (lit "w") (lit "t2") (.ok (lit "m1")) ∈
      (played announcing).db.log := by
    decide +kernel
  obtain ⟨before, after, split⟩ := List.append_of_mem pushed
  obtain ⟨-, -, earlier, tokens, later, same, -, active⟩ :=
    pushes_to_active_devices (reachable_played announcing) split
  exact ⟨before, after, split, earlier, tokens, later, same, active⟩

theorem wave_workers_notified_announcing :
    ∃ th, (played announcing).threads[2]? = some th ∧ th.prog.returned = some (.ok .done) ∧
      ∀ w ∈ [lit "w"], Notified w (played announcing).db.log := by
  have ended : ((played announcing).threads[2]?.map fun th => (th.op, th.prog.returned)) =
      some (.processNotificationJob (fun _ => wire) [lit "w"], some (.ok .done)) := rfl
  obtain ⟨th, found, same⟩ := Option.map_eq_some_iff.mp ended
  obtain ⟨op, returned⟩ := Prod.mk.inj same
  exact ⟨th, found, returned,
    (wave_workers_notified (reachable_played announcing) found op returned).2 rfl⟩

end LabourBaba.Devices
