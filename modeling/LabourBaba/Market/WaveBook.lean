import LabourBaba.Market.Footprints
import LabourBaba.Market.WaveTimeouts

/-!
# The wave book

What the dispatch calls keep true of waves, offers and queues, as long as the queues deliver
only what was added to them. A wave is created only when the wave before it is over, that is
closed or past its timeout; an offer is pending only while its wave is active, and never
beyond the wave's timeout. The next wave number is computed from a job's payload, from the
worker's own offer or from the latest wave; `Fits` says what these sources have in common.
-/
namespace LabourBaba.Market

open Store

/-- A queue delivers what was added to it: late, again, or several times at once. -/
def delivered (ℓ : Label) (d : Db) : Bool :=
  match ℓ with
  | .waveRequirement r n => d.dispatchQueue.any fun q => decide (q.key = (r, n))
  | .offersTimedOut r n => d.timeoutQueue.any fun q => decide (q.key = (r, n))
  | _ => true

section Definitions

variable (cfg : Config)

/-- The wave is closed, or its time is up. -/
def Wave.ended (w : Wave) (now : Nat) : Prop :=
  w.status = .exhausted ∨ w.notifiedAt + cfg.timeoutMs ≤ now

instance (w : Wave) (now : Nat) : Decidable (w.ended cfg now) := inferInstanceAs (Decidable (_ ∨ _))

/-- The wave is stored and over. -/
def Db.waveOver (d : Db) (requirementId : Id) (waveNumber : Nat) : Prop :=
  ∃ w, d.wave requirementId waveNumber = some w ∧ w.ended cfg d.now

/-- A wave of this number may follow: it is the first one, or the one before it is over. -/
def Db.waveDue (d : Db) (requirementId : Id) (waveNumber : Nat) : Prop :=
  1 ≤ waveNumber ∧ (1 < waveNumber → d.waveOver cfg requirementId (waveNumber - 1))

/-- The wave an offer belongs to; a pending offer ends with it. -/
def Dispatch.Placed (x : Dispatch) (d : Db) : Prop :=
  ∃ w, d.wave x.requirementId x.waveNumber = some w ∧
    (x.status = .pending → w.status = .active ∧
      ∀ e ∈ x.expiresAt, e ≤ w.notifiedAt + cfg.timeoutMs)

structure WaveBook (d : Db) : Prop where
  waveKeys : Table.Unique Wave.key d.waves
  offerKeys : Table.Unique Dispatch.key d.dispatches
  waves : ∀ w ∈ d.waves, d.waveDue cfg w.requirementId w.waveNumber ∧
    w.waveNumber ≤ cfg.maxWaves ∧ 0 < cfg.workerMultiplier
  offers : ∀ x ∈ d.dispatches, x.Placed cfg d
  queued : ∀ q ∈ d.dispatchQueue, d.waveDue cfg q.requirementId q.waveNumber
  timeouts : ∀ q ∈ d.timeoutQueue, (d.wave q.requirementId q.waveNumber).isSome

/-- What a write has to respect so that the book stays in order. -/
def Fits (d : Db) : Write → Prop
  | .insertWave w => d.waveDue cfg w.requirementId w.waveNumber ∧ w.waveNumber ≤ cfg.maxWaves ∧
      0 < cfg.workerMultiplier
  | .insertDispatch x => x.Placed cfg d
  | .dispatchStatus _ s => s ≠ .pending
  | .exhaustWave r n => ∀ x ∈ d.dispatches, x.requirementId = r → x.waveNumber = n →
      x.status ≠ .pending
  | .addDispatchJob q => d.waveDue cfg q.requirementId q.waveNumber
  | .addTimeoutJob q => (d.wave q.requirementId q.waveNumber).isSome
  | _ => True

def FitsAll : List Write → Db → Prop
  | [], _ => True
  | w :: ws, d => Fits cfg d w ∧ FitsAll ws (w.apply d)

end Definitions

variable {cfg : Config} {d d' : Db} {r : Id} {n : Nat}

/-! ### Time and waves only move on -/

theorem now_le_write (w : Write) (d : Db) : d.now ≤ (w.apply d).now := by
  cases w with
  | tick => exact Nat.le_succ d.now
  | _ => exact Nat.le_refl d.now

theorem now_le_applyAll (ws : List Write) (d : Db) : d.now ≤ (applyAll ws d).now := by
  induction ws generalizing d with
  | nil => exact Nat.le_refl d.now
  | cons w ws ih => exact (now_le_write w d).trans (ih (w.apply d))

theorem waveOver_later (later : Later d d') (now : d.now ≤ d'.now) (ended : d.waveOver cfg r n) :
    d'.waveOver cfg r n := by
  obtain ⟨w, found, closed | elapsed⟩ := ended
  · obtain ⟨w', found', closed'⟩ := later.exhausted r n w found closed
    exact ⟨w', found', Or.inl closed'⟩
  · obtain ⟨w', found', same⟩ := later.waves.find Wave.key Prod.fst (fun _ => rfl) found
    have sameTime : w'.notifiedAt = w.notifiedAt := congrArg (fun c => c.2.2) same
    refine ⟨w', found', Or.inr ?_⟩
    rw [sameTime]
    omega

theorem waveDue_later (later : Later d d') (now : d.now ≤ d'.now) (due : d.waveDue cfg r n) :
    d'.waveDue cfg r n :=
  ⟨due.1, fun follows => waveOver_later later now (due.2 follows)⟩

/-- Only closing a wave changes its row. -/
theorem wave_write {w : Write} {v : Wave} (found : d.wave r n = some v)
    (kept : w ≠ .exhaustWave r n) : (w.apply d).wave r n = some v := by
  cases w with
  | insertWave v' => exact Table.find_insert_of_some found
  | exhaustWave r' n' =>
    have other : (r, n) ∉ [(r', n')] := by
      intro same
      obtain ⟨rfl, rfl⟩ := Prod.mk.inj (List.mem_singleton.mp same)
      exact kept rfl
    have same : ((Write.exhaustWave r' n').apply d).wave r n = d.wave r n :=
      Table.find_modify_of_notMem _ _ _ _ (fun _ => rfl) other
    exact same.trans found
  | _ => exact found

theorem waveOver_exhausted (found : (d.wave r n).isSome) :
    (applyAll [.exhaustWave r n] d).waveOver cfg r n := by
  obtain ⟨v, stored⟩ := Option.isSome_iff_exists.mp found
  have lookup : Table.find Wave.key d.waves (r, n) = some v := stored
  refine ⟨{ v with status := .exhausted }, ?_, Or.inl rfl⟩
  simp only [applyAll_cons, applyAll_nil, write_eq_apply, Db.wave, Write.apply]
  rw [Table.find_modify, lookup]
  · simp
  · exact fun _ => rfl

/-! ### Where rows come from -/

theorem mem_waves_write {w : Write} {v : Wave} (member : v ∈ (w.apply d).waves) :
    (∃ old ∈ d.waves, old.key = v.key) ∨ w = .insertWave v := by
  cases w with
  | insertWave v' =>
    rcases Table.mem_insert member with member | rfl
    · exact Or.inl ⟨v, member, rfl⟩
    · exact Or.inr rfl
  | exhaustWave r' n' =>
    obtain ⟨old, present, rfl⟩ := Table.mem_modify.mp member
    refine Or.inl ⟨old, present, ?_⟩
    split <;> rfl
  | _ => exact Or.inl ⟨v, member, rfl⟩

/-- No write that fits reopens an offer. -/
theorem mem_offers_write {w : Write} {x : Dispatch} (fits : Fits cfg d w)
    (member : x ∈ (w.apply d).dispatches) :
    (∃ old ∈ d.dispatches, old.core = x.core ∧ (x.status = .pending → old = x)) ∨
      w = .insertDispatch x := by
  cases w with
  | insertDispatch x' =>
    rcases Table.mem_insert member with member | rfl
    · exact Or.inl ⟨x, member, rfl, fun _ => rfl⟩
    · exact Or.inr rfl
  | dispatchStatus offers s =>
    obtain ⟨old, present, rfl⟩ := Table.mem_modify.mp member
    refine Or.inl ⟨old, present, ?_⟩
    split
    · exact ⟨rfl, fun pending => absurd pending fits⟩
    · exact ⟨rfl, fun _ => rfl⟩
  | _ => exact Or.inl ⟨x, member, rfl, fun _ => rfl⟩

theorem mem_dispatchQueue_write {w : Write} {q : DispatchJobData}
    (member : q ∈ (w.apply d).dispatchQueue) : q ∈ d.dispatchQueue ∨ w = .addDispatchJob q := by
  cases w with
  | addDispatchJob q' => exact (Table.mem_insert member).imp id fun same => by rw [same]
  | _ => exact Or.inl member

theorem mem_timeoutQueue_write {w : Write} {q : TimeoutJobData}
    (member : q ∈ (w.apply d).timeoutQueue) : q ∈ d.timeoutQueue ∨ w = .addTimeoutJob q := by
  cases w with
  | addTimeoutJob q' => exact (Table.mem_insert member).imp id fun same => by rw [same]
  | _ => exact Or.inl member

/-- A pending offer was pending before, or is new. -/
theorem pending_applyAll {ws : List Write} {x : Dispatch} (fits : FitsAll cfg ws d)
    (member : x ∈ (applyAll ws d).dispatches) (pending : x.status = .pending) :
    x ∈ d.dispatches ∨ .insertDispatch x ∈ ws := by
  induction ws generalizing d with
  | nil => exact Or.inl member
  | cons w ws ih =>
    rcases ih fits.2 member with before | inserted
    · rcases mem_offers_write fits.1 before with ⟨old, present, -, same⟩ | rfl
      · rw [same pending] at present
        exact Or.inl present
      · exact Or.inr List.mem_cons_self
    · exact Or.inr (List.mem_cons_of_mem _ inserted)

/-! ### The book stays in order -/

namespace WaveBook

variable {w : Write}

theorem waveKeys_write (w : Write) (unique : Table.Unique Wave.key d.waves) :
    Table.Unique Wave.key (w.apply d).waves := by
  cases w with
  | insertWave v => exact Table.unique_insert _ (fun _ same => decide_eq_true same) unique
  | exhaustWave r' n' => exact Table.unique_modify _ _ (fun _ => rfl) unique
  | _ => exact unique

theorem offerKeys_write (w : Write) (unique : Table.Unique Dispatch.key d.dispatches) :
    Table.Unique Dispatch.key (w.apply d).dispatches := by
  cases w with
  | insertDispatch x => exact Table.unique_insert _ (fun _ same => decide_eq_true same) unique
  | dispatchStatus offers s => exact Table.unique_modify _ _ (fun _ => rfl) unique
  | _ => exact unique

/-- An offer keeps its place: its wave stays, and is closed only when the offer is not pending. -/
theorem placed_write {x : Dispatch} (member : x ∈ d.dispatches) (fits : Fits cfg d w)
    (placed : x.Placed cfg d) : x.Placed cfg (w.apply d) := by
  obtain ⟨v, found, ends⟩ := placed
  by_cases closes : w = .exhaustWave x.requirementId x.waveNumber
  · subst closes
    have idle : x.status ≠ .pending := fits x member rfl rfl
    have stored := stored_later (Later.write (.exhaustWave x.requirementId x.waveNumber) d)
      (Option.isSome_iff_exists.mpr ⟨v, found⟩)
    obtain ⟨v', found'⟩ := Option.isSome_iff_exists.mp stored
    exact ⟨v', found', fun pending => absurd pending idle⟩
  · exact ⟨v, wave_write found closes, ends⟩

theorem offers_write (book : WaveBook cfg d) (fits : Fits cfg d w) :
    ∀ x ∈ (w.apply d).dispatches, x.Placed cfg (w.apply d) := by
  intro x member
  rcases mem_offers_write fits member with ⟨old, present, same, pending⟩ | rfl
  · obtain ⟨v, found, ends⟩ := placed_write present fits (book.offers old present)
    have names : (old.requirementId, old.waveNumber) = (x.requirementId, x.waveNumber) :=
      congrArg (fun c => (c.1.1, c.2.1)) same
    obtain ⟨sameReq, sameWave⟩ := Prod.mk.inj names
    refine ⟨v, sameReq ▸ sameWave ▸ found, fun open_ => ?_⟩
    obtain rfl := pending open_
    exact ends open_
  · obtain ⟨v, found, ends⟩ := fits
    exact ⟨v, wave_write found (by simp), ends⟩

theorem write (book : WaveBook cfg d) (fits : Fits cfg d w) : WaveBook cfg (w.apply d) where
  waveKeys := waveKeys_write w book.waveKeys
  offerKeys := offerKeys_write w book.offerKeys
  waves := by
    intro v member
    have before : d.waveDue cfg v.requirementId v.waveNumber ∧ v.waveNumber ≤ cfg.maxWaves ∧
        0 < cfg.workerMultiplier := by
      rcases mem_waves_write member with ⟨old, present, same⟩ | rfl
      · obtain ⟨sameReq, sameWave⟩ := Prod.mk.inj same
        exact sameReq ▸ sameWave ▸ book.waves old present
      · exact fits
    exact ⟨waveDue_later (Later.write w d) (now_le_write w d) before.1, before.2⟩
  offers := offers_write book fits
  queued := by
    intro q member
    refine waveDue_later (Later.write w d) (now_le_write w d) ?_
    rcases mem_dispatchQueue_write member with present | rfl
    · exact book.queued q present
    · exact fits
  timeouts := by
    intro q member
    refine stored_later (Later.write w d) ?_
    rcases mem_timeoutQueue_write member with present | rfl
    · exact book.timeouts q present
    · exact fits

theorem applyAll {ws : List Write} (book : WaveBook cfg d) (fits : FitsAll cfg ws d) :
    WaveBook cfg (Store.applyAll ws d) := by
  induction ws generalizing d with
  | nil => exact book
  | cons w ws ih => exact ih (book.write fits.1) fits.2

theorem empty : WaveBook cfg {} :=
  ⟨List.nodup_nil, List.nodup_nil, by simp, by simp, by simp, by simp⟩

end WaveBook

/-! ### The protocol of the wave book -/

/-- All waves of the requirement are over. -/
def Db.wavesOver (cfg : Config) (d : Db) (requirementId : Id) : Prop :=
  ∀ w ∈ d.waves, w.requirementId = requirementId → d.waveOver cfg requirementId w.waveNumber

/-- A commit that keeps the book: offers appear only with their wave, and the scan gives up
only on a requirement whose waves are all over. -/
structure WaveCommit (cfg : Config) (ℓ : Label) (d : Db) (ws : List Write) : Prop where
  fits : FitsAll cfg ws d
  fresh : ∀ x, .insertDispatch x ∈ ws → d.wave x.requirementId x.waveNumber = none ∧
    ℓ = .waveCommitted x.requirementId x.waveNumber
  givesUp : ∀ r, ℓ = .reconciled r (some .NO_WORKERS_AVAILABLE) → d.wavesOver cfg r

/-- What a dispatch call may count on between two statements: besides rows that stay, time
only passes, and a wave that is stored gets no further offer. -/
structure Ahead (d d' : Db) : Prop where
  later : Later d d'
  now : d.now ≤ d'.now
  pending : ∀ x ∈ d'.dispatches, x.status = .pending →
    (d.wave x.requirementId x.waveNumber).isSome → x ∈ d.dispatches

namespace Ahead

theorem refl (d : Db) : Ahead d d := ⟨Later.refl d, Nat.le_refl _, fun _ member _ _ => member⟩

theorem trans {d d' d'' : Db} (first : Ahead d d') (second : Ahead d' d'') : Ahead d d'' where
  later := first.later.trans second.later
  now := first.now.trans second.now
  pending x member open_ stored :=
    first.pending x (second.pending x member open_ (stored_later first.later stored)) open_ stored

theorem of_commit {ℓ : Label} {ws : List Write} (commit : WaveCommit cfg ℓ d ws) :
    Ahead d (applyAll ws d) where
  later := Later.applyAll ws d
  now := now_le_applyAll ws d
  pending x member open_ stored := by
    rcases pending_applyAll commit.fits member open_ with before | inserted
    · exact before
    · rw [(commit.fresh x inserted).1] at stored
      cases stored

end Ahead

def bookProtocol (cfg : Config) : Protocol Label Db where
  inv := WaveBook cfg
  pre ℓ d := delivered ℓ d = true
  guar _ ℓ d d' := ∃ ws, d' = applyAll ws d ∧ WaveCommit cfg ℓ d ws
  evo _ := Ahead
  evo_refl _ := Ahead.refl
  evo_trans _ _ _ _ := Ahead.trans
  guar_inv := by
    rintro _ ℓ d _ book ⟨ws, rfl, commit⟩
    exact book.applyAll commit.fits
  guar_evo := by
    rintro _ _ ℓ d _ _ _ ⟨ws, rfl, commit⟩
    exact Ahead.of_commit commit

instance : Ages (bookProtocol cfg) := ⟨fun _ _ _ ahead => ahead.later⟩

instance : (bookProtocol cfg).Lax := ⟨fun _ _ _ => trivial⟩

theorem does_of_waveCommit {me : Nat} {ℓ : Label} {ws : List Write}
    (commit : WaveCommit cfg ℓ d ws) : (bookProtocol cfg).Does me ℓ d (applyAll ws d) :=
  Or.inr ⟨ws, rfl, commit⟩

end LabourBaba.Market
