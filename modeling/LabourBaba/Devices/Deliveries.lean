import LabourBaba.Devices.Conformance
import LabourBaba.Store.Footprint

/-!
# Pushes and revocations

Each service keeps to the protocol (`system_verified`), so every reachable store is well formed.
From the log one reads off: a device is one row, with the token it was last registered with; a
device is revoked by its owner, or because the provider refused its token for good; a push goes
to a token that a look-up had found active; and what a delivery reports is what the provider
answered.
-/
namespace LabourBaba.Devices

open Store Utf16

section Services

variable {cfg : Config} {me : ℕ} {d : Db} {α : Type}

/-- The call keeps to the protocol from a store on, with what it has achieved. -/
abbrev Yields (cfg : Config) (me : ℕ) (d : Db) (c : Service α) (post : α → Db → Prop) : Prop :=
  Call.YieldsFrom (protocol cfg) me d c post

theorem reached_yields {c : Service α} {post : α → Db → Prop}
    (yields : ∀ d', d.log <+: d'.log → Yields cfg me d' c post) :
    Yields cfg me d (reached c) post := by
  refine .bind (fun (_ : Bool) (d' : Db) => d.log <+: d'.log) (.choose fun _ _ rely => rely.evo) ?_
  intro answered d' grown
  split
  · exact yields d' grown
  · exact .throw _ _

theorem statement_yields {w : Db → Write} {a : Db → α} {post : α → Db → Prop}
    (fits : ∀ d', Wf cfg d' → d.log <+: d'.log → (w d').Fits cfg d')
    (holds : ∀ d', Wf cfg d' → d.log <+: d'.log → post (a d') ((w d').apply d')) :
    Yields cfg me d (statement fun d => ([w d], a d)) post := by
  refine reached_yields fun d₁ first => .stmt fun d' ws b rely _ done => ?_
  obtain ⟨rfl, rfl⟩ : [w d'] = ws ∧ a d' = b := by simpa using done
  have grown := first.trans rely.evo
  exact ⟨Or.inr ⟨w d', rfl, fits d' rely.inv grown⟩, holds d' rely.inv grown⟩

theorem note_yields {e : Entry} {post : Unit → Db → Prop} (silent : e.silent = true)
    (fits : ∀ d', Wf cfg d' → d.log <+: d'.log → e.Fits cfg d'.log)
    (holds : ∀ d' : Db, d.log <+: d'.log → post () (d'.logged e)) :
    Yields cfg me d (note e) post := by
  refine .send fun d' rely _ => ⟨Or.inr ⟨.note e, rfl, silent, fits d' rely.inv rely.evo⟩, ?_⟩
  exact holds d' rely.evo

theorem now_yields : Yields cfg me d now (fun _ d' => d.log <+: d'.log) :=
  .read fun _ rely _ => rely.evo

/-- The log only grows while a call runs, whatever it returns. -/
theorem growing {c : Service α} {post : α → Db → Prop} (yields : Yields cfg me d c post) :
    Call.wp (protocol cfg) me (fun r tx d' => Call.ends post r tx d' ∧ d.log <+: d'.log) c none d :=
  wp_frame (P := protocol cfg) (R := fun d' => d.log <+: d'.log)
    (fun _ _ _ rely grown => grown.trans rely.evo)
    (fun ℓ d₁ d₂ inv guar grown =>
      grown.trans ((protocol cfg).guar_evo me (me + 1) ℓ d₁ d₂ (by omega) inv guar))
    c.run none d List.prefix_rfl yields

theorem growing_yields {c : Service α} {post : α → Db → Prop} (yields : Yields cfg me d c post) :
    Yields cfg me d c (fun a d' => post a d' ∧ d.log <+: d'.log) := by
  refine Store.wp_mono ?_ _ _ _ (growing yields)
  rintro r tx d' ⟨⟨closed, holds⟩, grown⟩
  exact ⟨closed, fun a same => ⟨holds a same, grown⟩⟩

theorem attempt_yields {c : Service α} {post : α → Db → Prop} (yields : Yields cfg me d c post) :
    Yields cfg me d (Call.attempt c) (fun _ d' => d.log <+: d'.log) := by
  have attempted : Call.wp (protocol cfg) me
      (fun _ tx d' => tx = none ∧ d.log <+: d'.log) (Call.attempt c) none d := by
    rw [Call.wp_attempt]
    refine Store.wp_mono ?_ _ _ _ (growing yields)
    rintro r tx d' ⟨⟨closed, -⟩, grown⟩
    exact ⟨closed, grown⟩
  refine Store.wp_mono ?_ _ _ _ attempted
  rintro r tx d' ⟨closed, grown⟩
  exact ⟨closed, fun _ _ => grown⟩

/-! ### Devices -/

theorem registerDevice_yields (holder : Holder) (ownerId : Id) (payload : RegisterDeviceReq)
    (newId : Id) : Yields cfg me d (registerDevice holder ownerId payload newId) (fun _ _ => True) :=
  .bind _ now_yields fun _ _ _ => statement_yields (fun _ _ _ => rfl) fun _ _ _ => trivial

theorem revokeDevice_yields (holder : Holder) (ownerId : Id) (deviceId : Text) :
    Yields cfg me d (revokeDevice holder ownerId deviceId) (fun _ _ => True) :=
  .bind _ now_yields fun _ _ _ => statement_yields (fun _ _ _ => trivial) fun _ _ _ => trivial

/-- A cleanup needs a refusal. -/
theorem revokeByToken_yields {holder : Holder} {token : Text}
    (refused : Refused cfg holder token d.log) :
    Yields cfg me d (revokeByToken holder token) (fun _ _ => True) := by
  simp only [revokeByToken]
  split
  · exact .pure trivial
  · refine .bind _ now_yields fun t d₁ first => statement_yields (fun d' _ grown => ?_) ?_
    · exact refused.later (first.trans grown)
    · exact fun _ _ _ => trivial

/-- The look-up is in the log. -/
def Looked (holder : Holder) (ownerId : Id) (tokens : List Text) (log : List Entry) : Prop :=
  Entry.looked holder ownerId tokens ∈ log

theorem Looked.found {holder : Holder} {ownerId : Id} {tokens : List Text} {log : List Entry}
    (looked : Looked holder ownerId tokens log) {token : Text} (member : token ∈ tokens) :
    Found holder ownerId token log := by
  obtain ⟨earlier, later, rfl⟩ := List.append_of_mem looked
  exact ⟨earlier, tokens, later, rfl, member⟩

/-- The rows that the query selects are those whose last entry leaves them active. -/
theorem mem_activeTokens (wf : Wf cfg d) {holder : Holder} {ownerId : Id} {token : Text} :
    token ∈ ((d.devices holder).filter fun x => decide (x.ownerId = ownerId) && x.active).map
        Device.fcmToken ↔ ∃ x, status d.log holder ownerId x = some (token, true) := by
  constructor
  · intro member
    obtain ⟨row, selected, rfl⟩ := List.mem_map.mp member
    obtain ⟨stored, mine⟩ := List.mem_filter.mp selected
    obtain ⟨rfl, active⟩ : row.ownerId = ownerId ∧ row.active = true := by simpa using mine
    refine ⟨row.deviceId, ?_⟩
    have found : d.device holder row.ownerId row.deviceId = some row :=
      Table.find_of_mem (wf.unique holder) stored
    rw [← wf.follows, found, Option.map_some, Device.status, active]
  · rintro ⟨x, known⟩
    rw [← wf.follows] at known
    obtain ⟨row, found, same⟩ := Option.map_eq_some_iff.mp known
    obtain ⟨rfl, active⟩ := Prod.mk.inj same
    have key : row.key = (ownerId, x) := Table.find_key found
    have mine : row.ownerId = ownerId := congrArg Prod.fst key
    refine List.mem_map.mpr ⟨row, List.mem_filter.mpr ⟨Table.mem_of_find found, ?_⟩, rfl⟩
    simp [mine, active]

theorem getActiveDevices_yields (holder : Holder) (ownerId : Id) :
    Yields cfg me d (getActiveDevices holder ownerId)
      (fun tokens d' => Looked holder ownerId tokens d'.log) :=
  statement_yields (fun _ wf _ => ⟨rfl, fun _ => mem_activeTokens wf⟩) fun d' _ _ => by
    simp [Looked, Write.apply]

/-! ### Deliveries -/

/-- What a result says is what the provider answered. -/
structure Honest (cfg : Config) (holder : Holder) (ownerId : Id) (r : FCMDeliveryResult)
    (log : List Entry) : Prop where
  success : r.success = true → ∃ messageId, r.messageId = some messageId ∧
    Entry.pushed holder ownerId r.token (.ok messageId) ∈ log
  invalid : r.isInvalidToken = true → r.success = false ∧
    ∃ err, (classifyFCMError cfg err).isInvalidToken = true ∧
      Entry.pushed holder ownerId r.token (.error err) ∈ log
  unsent : cfg.initialized = false → r.success = false ∧ r.isInvalidToken = false

theorem Honest.later {holder : Holder} {ownerId : Id} {r : FCMDeliveryResult} {log log' : List Entry}
    (honest : Honest cfg holder ownerId r log) (grown : log <+: log') :
    Honest cfg holder ownerId r log' where
  success sent := by
    obtain ⟨messageId, same, pushed⟩ := honest.success sent
    exact ⟨messageId, same, grown.subset pushed⟩
  invalid refused := by
    obtain ⟨failed, err, invalid, pushed⟩ := honest.invalid refused
    exact ⟨failed, err, invalid, grown.subset pushed⟩
  unsent := honest.unsent

theorem sendFCMToToken_yields {holder : Holder} {ownerId : Id} {token : Text} (answer : Answer)
    (proper : token ≠ []) (found : Found holder ownerId token d.log) :
    Yields cfg me d (sendFCMToToken cfg holder ownerId token answer)
      (fun r d' => d.log <+: d'.log ∧ r.token = token ∧ Honest cfg holder ownerId r d'.log) := by
  simp only [sendFCMToToken]
  split
  next initialized =>
    have sent : cfg.initialized ≠ false := by simp [initialized]
    refine .bind (fun _ d' => d.log <+: d'.log ∧ .pushed holder ownerId token answer ∈ d'.log)
      (note_yields rfl (fun d' _ grown => ⟨initialized, proper, found.later grown⟩) ?_) ?_
    · exact fun d' grown => ⟨grown.trans (List.prefix_append _ _), by simp⟩
    · rintro - d₁ ⟨first, pushed⟩
      cases answer with
      | ok messageId =>
        refine .pure ⟨first, rfl, fun _ => ⟨messageId, rfl, pushed⟩, ?_, ?_⟩
        · rintro ⟨⟩
        · exact fun absent => absurd absent sent
      | error err =>
        simp only
        split
        next invalid =>
          -- the refusal that is in the log is the reason of the cleanup, which may fail unnoticed
          have refused : Refused cfg holder token d₁.log := ⟨ownerId, .error err, pushed, invalid⟩
          refine .bind _ (attempt_yields (revokeByToken_yields refused)) fun _ d' grown => ?_
          refine .pure ⟨first.trans grown, rfl, ?_, fun _ => ⟨rfl, err, invalid, ?_⟩, ?_⟩
          · rintro ⟨⟩
          · exact grown.subset pushed
          · exact fun absent => absurd absent sent
        next transient =>
          -- the device stays, and the result does not call its token invalid
          refine .pure ⟨first, rfl, ?_, ?_, ?_⟩
          · rintro ⟨⟩
          · rintro ⟨⟩
          · exact fun absent => absurd absent sent
  next uninitialized =>
    refine .pure ⟨List.prefix_rfl, rfl, ?_, ?_, fun _ => ⟨rfl, rfl⟩⟩
    · rintro ⟨⟩
    · rintro ⟨⟩

theorem sendEach_yields {net : Network} {holder : Holder} {ownerId : Id} (tokens : List Text) (n : ℕ)
    (found : ∀ token ∈ tokens, Found holder ownerId token d.log) :
    Yields cfg me d (sendEach cfg net holder ownerId tokens n)
      (fun rs d' => rs.map FCMDeliveryResult.token = tokens.filter (· ≠ []) ∧
        ∀ r ∈ rs, Honest cfg holder ownerId r d'.log) := by
  induction tokens generalizing d n with
  | nil => exact .pure (by simp)
  | cons token rest ih =>
    obtain ⟨first, others⟩ := List.forall_mem_cons.mp found
    simp only [sendEach]
    split
    next empty =>
      -- a device without a token is passed over and has no result
      subst empty
      simpa using ih n others
    next proper =>
      refine .bind _ (sendFCMToToken_yields (net.answer n) proper first) ?_
      rintro r d₁ ⟨grown, same, honest⟩
      have still : ∀ token ∈ rest, Found holder ownerId token d₁.log :=
        fun token member => (others token member).later grown
      -- the log grows under the pushes that follow, so the first result stays honest
      refine .bind _ (growing_yields (ih (n + 1) still)) fun rs d₂ reported => .pure ?_
      obtain ⟨⟨tokens, all⟩, grown₂⟩ := reported
      refine ⟨by simp [same, tokens, proper], fun r' member => ?_⟩
      rcases List.mem_cons.mp member with rfl | member
      · exact honest.later grown₂
      · exact all r' member

/-- What a delivery to the devices of a recipient reports: one result for each of the tokens that
a look-up had found, and nothing that the provider has not answered. -/
def Reported (cfg : Config) (holder : Holder) (ownerId : Id) (rs : List FCMDeliveryResult)
    (log : List Entry) : Prop :=
  (∃ tokens, Looked holder ownerId tokens log ∧
    (rs.map FCMDeliveryResult.token).Perm (tokens.filter (· ≠ []))) ∧
  ∀ r ∈ rs, Honest cfg holder ownerId r log

theorem Reported.later {holder : Holder} {ownerId : Id} {rs : List FCMDeliveryResult}
    {log log' : List Entry} (reported : Reported cfg holder ownerId rs log) (grown : log <+: log') :
    Reported cfg holder ownerId rs log' := by
  obtain ⟨⟨tokens, looked, same⟩, honest⟩ := reported
  exact ⟨⟨tokens, grown.subset looked, same⟩, fun r member => (honest r member).later grown⟩

theorem sendFCMToHolder_yields (net : Network) (holder : Holder) (ownerId : Id) :
    Yields cfg me d (sendFCMToHolder cfg net holder ownerId)
      (fun rs d' => Reported cfg holder ownerId rs d'.log) := by
  refine .bind _ (getActiveDevices_yields holder ownerId) fun tokens d₁ looked => ?_
  split
  next empty =>
    subst empty
    exact .pure ⟨⟨[], looked, by simp⟩, by simp⟩
  next =>
    -- the pushes run side by side: the network says in which order they take effect
    have served := net.all (tokens.filter (· ≠ []))
    have found : ∀ token ∈ net.order (tokens.filter (· ≠ [])), Found holder ownerId token d₁.log :=
      fun token member => looked.found (List.mem_filter.mp (served.subset member)).1
    refine (growing_yields (sendEach_yields _ 0 found)).mono ?_
    rintro rs d₂ ⟨⟨same, honest⟩, grown⟩
    refine ⟨⟨tokens, grown.subset looked, ?_⟩, honest⟩
    rw [same]
    simpa [List.filter_filter] using served.filter (· ≠ [])

theorem sendFCMToRecipient_yields (net : Network) (recipientType : Text) (recipientId : Id) :
    Yields cfg me d (sendFCMToRecipient cfg net recipientType recipientId)
      (fun rs d' => rs = [] ∨ ∃ holder, Reported cfg holder recipientId rs d'.log) := by
  simp only [sendFCMToRecipient]
  split
  · exact (sendFCMToHolder_yields net .worker recipientId).mono fun _ _ told => Or.inr ⟨_, told⟩
  · split
    · exact (sendFCMToHolder_yields net .customer recipientId).mono fun _ _ told => Or.inr ⟨_, told⟩
    · exact .pure (Or.inl rfl)

/-! ### Waves -/

/-- The worker's room was sent the offer. -/
def Notified (workerId : Id) (log : List Entry) : Prop :=
  Entry.emitted (lit "worker:" ++ workerId) (lit "job:incoming") ∈ log

theorem notifyWorker_yields (net : Network) (workerId : Id) :
    Yields cfg me d (notifyWorker cfg net workerId)
      (fun _ d' => cfg.sockets = true → Notified workerId d'.log) := by
  refine .bind _ (attempt_yields (sendFCMToHolder_yields net .worker workerId)) fun _ d₁ _ => ?_
  -- the push is attempted first, and its failure does not keep the offer from the room
  split
  · exact note_yields rfl (fun _ _ _ => trivial) fun d' _ _ => by simp [Notified]
  next absent => exact .pure fun present => absurd present absent

theorem processNotificationJob_yields (net : Id → Network) (workers : List Id) :
    Yields cfg me d (processNotificationJob cfg net workers)
      (fun _ d' => cfg.sockets = true → ∀ w ∈ workers, Notified w d'.log) := by
  induction workers generalizing d with
  | nil => exact .pure (by simp)
  | cons w rest ih =>
    refine .bind _ (notifyWorker_yields (net w) w) fun _ d₁ first => ?_
    refine (growing_yields ih).mono ?_
    rintro - d₂ ⟨others, grown⟩ sockets w' member
    rcases List.mem_cons.mp member with rfl | member
    · exact grown.subset (first sockets)
    · exact others sockets w' member

/-! ### The system -/

/-- What a call promises of its reply. -/
def Promised (cfg : Config) : Op → Outcome → Db → Prop
  | .sendFCMToRecipient _ _ recipientId, .ok (.results rs), d =>
    rs = [] ∨ ∃ holder, Reported cfg holder recipientId rs d.log
  | .processNotificationJob _ workers, outcome, d =>
    outcome = .ok .done ∧ (cfg.sockets = true → ∀ w ∈ workers, Notified w d.log)
  | _, _, _ => True

theorem Promised.later {op : Op} {outcome : Outcome} {d d' : Db} (promised : Promised cfg op outcome d)
    (grown : d.log <+: d'.log) : Promised cfg op outcome d' := by
  cases op with
  | sendFCMToRecipient net recipientType recipientId =>
    cases outcome with
    | error e => trivial
    | ok reply =>
      cases reply with
      | results rs =>
        rcases promised with empty | ⟨holder, reported⟩
        · exact Or.inl empty
        · exact Or.inr ⟨holder, reported.later grown⟩
      | _ => trivial
  | processNotificationJob net workers =>
    exact ⟨promised.1, fun sockets w member => grown.subset (promised.2 sockets w member)⟩
  | _ => trivial

/-- Whatever fails of a push, the job goes on to the next worker. -/
theorem processNotificationJob_avoids (e : Failure) (net : Id → Network) (workers : List Id) :
    Call.Avoids e (processNotificationJob cfg net workers) := by
  induction workers with
  | nil => exact .pure ()
  | cons w rest ih =>
    refine Call.Avoids.bind ((Call.Avoids.attempt _).bind fun _ => ?_) fun _ => ih
    split
    · exact .send _ _
    · exact .pure ()

theorem serviceOf_verified (op : Op) (d : Db) :
    Call.wp (protocol cfg) me (fun r _ d' => Promised cfg op r d') (serviceOf cfg op) none d := by
  cases op with
  | registerDevice holder ownerId payload newId =>
    have yields : Yields cfg me d (serviceOf cfg (.registerDevice holder ownerId payload newId))
        (fun _ _ => True) :=
      .bind _ (registerDevice_yields holder ownerId payload newId) fun _ _ _ => .pure trivial
    exact Store.wp_mono (fun _ _ _ _ => trivial) _ _ _ yields
  | revokeDevice holder ownerId deviceId =>
    have yields : Yields cfg me d (serviceOf cfg (.revokeDevice holder ownerId deviceId))
        (fun _ _ => True) :=
      .bind _ (revokeDevice_yields holder ownerId deviceId) fun _ _ _ => .pure trivial
    exact Store.wp_mono (fun _ _ _ _ => trivial) _ _ _ yields
  | sendFCMToRecipient net recipientType recipientId =>
    have yields : Yields cfg me d (serviceOf cfg (.sendFCMToRecipient net recipientType recipientId))
        (fun reply d' => Promised cfg (.sendFCMToRecipient net recipientType recipientId) (.ok reply) d') :=
      .bind _ (sendFCMToRecipient_yields net recipientType recipientId) fun _ _ told => .pure told
    refine Store.wp_mono ?_ _ _ _ yields
    rintro (e | reply) tx d' ⟨-, told⟩
    · trivial
    · exact told reply rfl
  | processNotificationJob net workers =>
    have yields : Yields cfg me d (serviceOf cfg (.processNotificationJob net workers))
        (fun reply d' => Promised cfg (.processNotificationJob net workers) (.ok reply) d') :=
      .bind _ (processNotificationJob_yields net workers) fun _ _ told => .pure ⟨rfl, told⟩
    have avoids : ∀ e, Call.Avoids e (serviceOf cfg (.processNotificationJob net workers)) :=
      fun e => (processNotificationJob_avoids e net workers).bind fun _ => .pure _
    refine Store.wp_mono ?_ _ _ _ (wp_of_gives (avoids .database) yields)
    rintro (e | reply) tx d' ⟨⟨-, told⟩, avoided⟩
    · cases e
      exact absurd rfl avoided
    · exact told reply rfl
  | tick ms =>
    have yields : Yields cfg me d (serviceOf cfg (.tick ms)) (fun _ _ => True) :=
      .bind (fun _ _ => True) (.send fun _ _ _ => ⟨Or.inr ⟨.tick ms, rfl, trivial⟩, trivial⟩)
        fun _ _ _ => .pure trivial
    exact Store.wp_mono (fun _ _ _ _ => trivial) _ _ _ yields

theorem system_verified (cfg : Config) :
    Pool.Verified (protocol cfg) (fun _ op outcome d => Promised cfg op outcome d) (system cfg) :=
  fun _ op d => serviceOf_verified op d

end Services

section Reached

variable {cfg : Config} {p : DevicePool}

theorem wf_of_reachable (reached : Reachable cfg p) : Wf cfg p.db :=
  (reached.sound (system_verified cfg) (fun _ _ _ _ _ _ _ _ => trivial)
    (.empty (@wf_start cfg))).inv

theorem promised_of_returned (reached : Reachable cfg p) {i : ℕ} {th : DeviceThread}
    {outcome : Outcome} (found : p.threads[i]? = some th)
    (returned : th.prog.returned = some outcome) : Promised cfg th.op outcome p.db := by
  refine reached.returned (system_verified cfg) (fun _ _ _ _ _ _ _ _ => trivial)
    (.empty (@wf_start cfg)) ?_ (by simp) i th outcome found returned
  rintro i op outcome j ℓ d d' - promised ⟨w, rfl, -⟩
  exact promised.later (log_apply w d)

end Reached

end LabourBaba.Devices
