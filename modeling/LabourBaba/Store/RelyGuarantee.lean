import LabourBaba.Store.Pool

/-!
# Rely–guarantee reasoning about pools

A protocol says what every committed state satisfies (`inv`), what a labelled
statement finds (`pre`) and may do to the committed store (`guar`), and what a call
may count on while others commit (`evo`). A lock may stand for more than its row:
`keeps` says what its holder may count on about the rest of the store, as long as the
schedule lets nobody else touch it. `wp` computes what is to be shown of a call under
any interference the protocol allows: between two statements the store moves along
`evo`, except for the rows the call has locked, which stay as they are.
`Reaches.sound` is the adequacy theorem: when every call is verified, each schedule
whose statements meet `pre` keeps the invariant, each commit is one the protocol
allows, and each call returns what its postcondition says.
-/
namespace Store

variable {L D W K : Type} [RowStore D W K]

structure Protocol (L D : Type) {W K : Type} [RowStore D W K] where
  inv : D → Prop
  pre : L → D → Prop
  guar : Nat → L → D → D → Prop
  evo : Nat → D → D → Prop
  evo_refl : ∀ me d, evo me d d
  evo_trans : ∀ me d d' d'', evo me d d' → evo me d' d'' → evo me d d''
  guar_inv : ∀ i ℓ d d', inv d → guar i ℓ d d' → inv d'
  guar_evo : ∀ i j ℓ d d', i ≠ j → inv d → guar i ℓ d d' → evo j d d'
  keeps : K → D → D → Prop := fun _ _ _ => True
  keeps_refl : ∀ k d, keeps k d d := by intros; exact True.intro
  keeps_trans : ∀ k d d' d'', keeps k d d' → keeps k d' d'' → keeps k d d'' := by
    intros; exact True.intro

namespace Protocol

variable (P : Protocol L D)

/-- What may have happened to the store since a call last looked at it. -/
structure Rely (me : Nat) (locked : List K) (d d' : D) : Prop where
  evo : P.evo me d d'
  inv : P.inv d'
  rows : ∀ k ∈ locked, row d' k = row d k
  kept : ∀ k ∈ locked, P.keeps k d d'

/-- A lock stands for its row alone. -/
class Lax : Prop where
  keeps : ∀ k d d', P.keeps k d d'

/-- A statement leaves the store alone or does what the protocol lets it do. -/
def Does (me : Nat) (ℓ : L) (d d' : D) : Prop := d' = d ∨ P.guar me ℓ d d'

variable {P}

theorem Rely.trans {me : Nat} {locked : List K} {d d' d'' : D}
    (first : P.Rely me locked d d') (second : P.Rely me locked d' d'') :
    P.Rely me locked d d'' where
  evo := P.evo_trans me d d' d'' first.evo second.evo
  inv := second.inv
  rows k member := (second.rows k member).trans (first.rows k member)
  kept k member := P.keeps_trans k d d' d'' (first.kept k member) (second.kept k member)

theorem Rely.weaken {me : Nat} {locked fewer : List K} {d d' : D}
    (subset : ∀ k ∈ fewer, k ∈ locked) (rely : P.Rely me locked d d') :
    P.Rely me fewer d d' where
  evo := rely.evo
  inv := rely.inv
  rows k member := rely.rows k (subset k member)
  kept k member := rely.kept k (subset k member)

theorem Rely.refl {me : Nat} {locked : List K} {d : D} (inv : P.inv d) : P.Rely me locked d d where
  evo := P.evo_refl me d
  inv := inv
  rows _ _ := rfl
  kept k _ := P.keeps_refl k d

end Protocol

/-! ### Weakest preconditions -/

variable (P : Protocol L D) (me : Nat)

def wp {α : Type} (Q : α → Option (Tx K W) → D → Prop) :
    Prog L D W K α → Option (Tx K W) → D → Prop
  | .ret a, tx, d => Q a tx d
  | .query ℓ k, tx, d => ∀ d', P.Rely me (Tx.held tx) d d' → P.pre ℓ d' →
      wp Q (k (Tx.view tx d')) tx d'
  | .exec ℓ s k, none, d => ∀ d', P.Rely me ([] : List K) d d' → P.pre ℓ d' →
      P.Does me ℓ d' (applyAll (s d').writes d') ∧ wp Q (k d') none (applyAll (s d').writes d')
  | .exec ℓ s k, some t, d => ∀ d', P.Rely me t.locks d d' → P.pre ℓ d' →
      wp Q (k (applyAll t.writes d')) (some (t.add D (s (applyAll t.writes d')))) d'
  | .emit ℓ ws k, tx, d => ∀ d', P.Rely me (Tx.held tx) d d' → P.pre ℓ d' →
      P.Does me ℓ d' (applyAll ((ws (Tx.view tx d')).map Subtype.val) d') ∧
      wp Q (k (Tx.view tx d')) tx (applyAll ((ws (Tx.view tx d')).map Subtype.val) d')
  | .ask k, tx, d => ∀ d', P.Rely me (Tx.held tx) d d' → ∀ b, wp Q (k b) tx d'
  | .tryLock ℓ key k, tx, d => ∀ d', P.Rely me (Tx.held tx) d d' → P.pre ℓ d' →
      wp Q (k false) tx d' ∧ wp Q (k true) (tx.map fun t => t.add D { locks := [key] }) d'
  | .start k, tx, d => ∀ d', P.Rely me (Tx.held tx) d d' → wp Q k (some {}) d'
  | .commit ℓ k, tx, d => ∀ d', P.Rely me (Tx.held tx) d d' → P.pre ℓ d' →
      P.Does me ℓ d' (Tx.view tx d') ∧ wp Q k none (Tx.view tx d')
  | .abort k, tx, d => ∀ d', P.Rely me (Tx.held tx) d d' → wp Q k none d'

variable {P me}

theorem wp_bind {α β : Type} (Q : β → Option (Tx K W) → D → Prop) (p : Prog L D W K α)
    (f : α → Prog L D W K β) (tx : Option (Tx K W)) (d : D) :
    wp P me Q (p.bind f) tx d ↔ wp P me (fun a tx d => wp P me Q (f a) tx d) p tx d := by
  induction p generalizing tx d with
  | ret a => rfl
  | query ℓ k ih => simp only [Prog.bind, wp, ih]
  | exec ℓ s k ih => cases tx <;> simp only [Prog.bind, wp, ih]
  | emit ℓ ws k ih => simp only [Prog.bind, wp, ih]
  | ask k ih => simp only [Prog.bind, wp, ih]
  | tryLock ℓ key k ih => simp only [Prog.bind, wp, ih]
  | start k ih => simp only [Prog.bind, wp, ih]
  | commit ℓ k ih => simp only [Prog.bind, wp, ih]
  | abort k ih => simp only [Prog.bind, wp, ih]

theorem wp_mono {α : Type} {Q R : α → Option (Tx K W) → D → Prop}
    (stronger : ∀ a tx d, Q a tx d → R a tx d) (p : Prog L D W K α) (tx : Option (Tx K W)) (d : D)
    (holds : wp P me Q p tx d) : wp P me R p tx d := by
  induction p generalizing tx d with
  | ret a => exact stronger a tx d holds
  | query ℓ k ih => exact fun d' rely pre => ih _ _ _ (holds d' rely pre)
  | exec ℓ s k ih =>
    cases tx with
    | none => exact fun d' rely pre => (holds d' rely pre).imp id (ih _ _ _)
    | some t => exact fun d' rely pre => ih _ _ _ (holds d' rely pre)
  | emit ℓ ws k ih => exact fun d' rely pre => (holds d' rely pre).imp id (ih _ _ _)
  | ask k ih => exact fun d' rely b => ih _ _ _ (holds d' rely b)
  | tryLock ℓ key k ih => exact fun d' rely pre => (holds d' rely pre).imp (ih _ _ _) (ih _ _ _)
  | start k ih => exact fun d' rely => ih _ _ (holds d' rely)
  | commit ℓ k ih => exact fun d' rely pre => (holds d' rely pre).imp id (ih _ _)
  | abort k ih => exact fun d' rely => ih _ _ (holds d' rely)

private theorem kept_of_does {R : D → Prop}
    (kept : ∀ ℓ d d', P.inv d → P.guar me ℓ d d' → R d → R d') {ℓ : L} {d d' : D} (inv : P.inv d)
    (does : P.Does me ℓ d d') (holds : R d) : R d' := by
  rcases does with rfl | guar
  · exact holds
  · exact kept ℓ d d' inv guar holds

/-- What neither the others nor the call itself may undo still holds when the call has ended. -/
theorem wp_frame {α : Type} {Q : α → Option (Tx K W) → D → Prop} {R : D → Prop}
    (stable : ∀ (locked : List K) d d', P.Rely me locked d d' → R d → R d')
    (kept : ∀ ℓ d d', P.inv d → P.guar me ℓ d d' → R d → R d') (p : Prog L D W K α)
    (tx : Option (Tx K W)) (d : D) (first : R d) (holds : wp P me Q p tx d) :
    wp P me (fun a tx d => Q a tx d ∧ R d) p tx d := by
  induction p generalizing tx d with
  | ret a => exact ⟨holds, first⟩
  | query ℓ k ih =>
    exact fun d' rely pre => ih _ _ _ (stable _ _ _ rely first) (holds d' rely pre)
  | exec ℓ s k ih =>
    cases tx with
    | none =>
      intro d' rely pre
      obtain ⟨does, rest⟩ := holds d' rely pre
      exact ⟨does, ih _ _ _ (kept_of_does kept rely.inv does (stable _ _ _ rely first)) rest⟩
    | some t => exact fun d' rely pre => ih _ _ _ (stable _ _ _ rely first) (holds d' rely pre)
  | emit ℓ ws k ih =>
    intro d' rely pre
    obtain ⟨does, rest⟩ := holds d' rely pre
    exact ⟨does, ih _ _ _ (kept_of_does kept rely.inv does (stable _ _ _ rely first)) rest⟩
  | ask k ih => exact fun d' rely b => ih _ _ _ (stable _ _ _ rely first) (holds d' rely b)
  | tryLock ℓ key k ih =>
    intro d' rely pre
    have now := stable _ _ _ rely first
    exact (holds d' rely pre).imp (ih _ _ _ now) (ih _ _ _ now)
  | start k ih => exact fun d' rely => ih _ _ (stable _ _ _ rely first) (holds d' rely)
  | commit ℓ k ih =>
    intro d' rely pre
    obtain ⟨does, rest⟩ := holds d' rely pre
    exact ⟨does, ih _ _ (kept_of_does kept rely.inv does (stable _ _ _ rely first)) rest⟩
  | abort k ih => exact fun d' rely => ih _ _ (stable _ _ _ rely first) (holds d' rely)

/-- A call that has not returned stays verified while others act: whatever it does
next allows for interference first. -/
theorem wp_stable {α : Type} {Q : α → Option (Tx K W) → D → Prop} {p : Prog L D W K α}
    {tx : Option (Tx K W)} {d d' : D} (running : p.returned = none)
    (rely : P.Rely me (Tx.held tx) d d') (holds : wp P me Q p tx d) : wp P me Q p tx d' := by
  cases p with
  | ret a => cases running
  | exec ℓ s k => cases tx <;> exact fun d'' later => holds d'' (rely.trans later)
  | query ℓ k => exact fun d'' later => holds d'' (rely.trans later)
  | emit ℓ ws k => exact fun d'' later => holds d'' (rely.trans later)
  | ask k => exact fun d'' later => holds d'' (rely.trans later)
  | tryLock ℓ key k => exact fun d'' later => holds d'' (rely.trans later)
  | start k => exact fun d'' later => holds d'' (rely.trans later)
  | commit ℓ k => exact fun d'' later => holds d'' (rely.trans later)
  | abort k => exact fun d'' later => holds d'' (rely.trans later)

/-! ### Known from some point on -/

/-- The protocol in the stores where a property holds that no step of it undoes. -/
def Protocol.within (P : Protocol L D) (R : D → Prop)
    (kept : ∀ i ℓ d d', P.inv d → P.guar i ℓ d d' → R d → R d') : Protocol L D :=
  { P with
    inv := fun d => P.inv d ∧ R d
    guar_inv := fun i ℓ d d' inv guar =>
      ⟨P.guar_inv i ℓ d d' inv.1 guar, kept i ℓ d d' inv.1 guar inv.2⟩
    guar_evo := fun i j ℓ d d' differ inv => P.guar_evo i j ℓ d d' differ inv.1 }

section Within

variable {α : Type} {Q : α → Option (Tx K W) → D → Prop} {R : D → Prop}
  {kept : ∀ i ℓ d d', P.inv d → P.guar i ℓ d d' → R d → R d'}

theorem Protocol.Rely.of_within {locked : List K} {d d' : D}
    (rely : (P.within R kept).Rely me locked d d') : P.Rely me locked d d' :=
  ⟨rely.evo, rely.inv.1, rely.rows, rely.kept⟩

/-- A verified call is verified where more is known. -/
theorem wp_within (p : Prog L D W K α) (tx : Option (Tx K W)) (d : D) (holds : wp P me Q p tx d) :
    wp (P.within R kept) me Q p tx d := by
  induction p generalizing tx d with
  | ret a => exact holds
  | query ℓ k ih => exact fun d' rely pre => ih _ _ _ (holds d' rely.of_within pre)
  | exec ℓ s k ih =>
    cases tx with
    | none => exact fun d' rely pre => (holds d' rely.of_within pre).imp id (ih _ _ _)
    | some t => exact fun d' rely pre => ih _ _ _ (holds d' rely.of_within pre)
  | emit ℓ ws k ih => exact fun d' rely pre => (holds d' rely.of_within pre).imp id (ih _ _ _)
  | ask k ih => exact fun d' rely b => ih _ _ _ (holds d' rely.of_within b)
  | tryLock ℓ key k ih =>
    exact fun d' rely pre => (holds d' rely.of_within pre).imp (ih _ _ _) (ih _ _ _)
  | start k ih => exact fun d' rely => ih _ _ (holds d' rely.of_within)
  | commit ℓ k ih => exact fun d' rely pre => (holds d' rely.of_within pre).imp id (ih _ _)
  | abort k ih => exact fun d' rely => ih _ _ (holds d' rely.of_within)

/-- What holds at the start of a call and is never undone may be assumed throughout. -/
theorem wp_of_within (stable : ∀ d d', P.evo me d d' → R d → R d') (p : Prog L D W K α)
    (tx : Option (Tx K W)) (d : D) (first : R d) (holds : wp (P.within R kept) me Q p tx d) :
    wp P me Q p tx d := by
  have assume : ∀ {locked : List K} {d d' : D}, P.Rely me locked d d' → R d →
      (P.within R kept).Rely me locked d d' := fun rely now =>
    ⟨rely.evo, ⟨rely.inv, stable _ _ rely.evo now⟩, rely.rows, rely.kept⟩
  have own : ∀ {ℓ : L} {d d' : D}, P.inv d → P.Does me ℓ d d' → R d → R d' :=
    kept_of_does (kept me)
  induction p generalizing tx d with
  | ret a => exact holds
  | query ℓ k ih =>
    exact fun d' rely pre => ih _ _ _ (assume rely first).inv.2 (holds d' (assume rely first) pre)
  | exec ℓ s k ih =>
    cases tx with
    | none =>
      intro d' rely pre
      have rely' := assume rely first
      obtain ⟨does, rest⟩ := holds d' rely' pre
      exact ⟨does, ih _ _ _ (own rely.inv does rely'.inv.2) rest⟩
    | some t =>
      exact fun d' rely pre =>
        ih _ _ _ (assume rely first).inv.2 (holds d' (assume rely first) pre)
  | emit ℓ ws k ih =>
    intro d' rely pre
    have rely' := assume rely first
    obtain ⟨does, rest⟩ := holds d' rely' pre
    exact ⟨does, ih _ _ _ (own rely.inv does rely'.inv.2) rest⟩
  | ask k ih =>
    exact fun d' rely b => ih _ _ _ (assume rely first).inv.2 (holds d' (assume rely first) b)
  | tryLock ℓ key k ih =>
    intro d' rely pre
    have rely' := assume rely first
    exact (holds d' rely' pre).imp (ih _ _ _ rely'.inv.2) (ih _ _ _ rely'.inv.2)
  | start k ih =>
    exact fun d' rely => ih _ _ (assume rely first).inv.2 (holds d' (assume rely first))
  | commit ℓ k ih =>
    intro d' rely pre
    have rely' := assume rely first
    obtain ⟨does, rest⟩ := holds d' rely' pre
    exact ⟨does, ih _ _ (own rely.inv does rely'.inv.2) rest⟩
  | abort k ih =>
    exact fun d' rely => ih _ _ (assume rely first).inv.2 (holds d' (assume rely first))

end Within

/-! ### Adequacy -/

variable {Op α : Type}

/-- A transaction has locked every row it has written. -/
def Tx.Owns (D : Type) {W K : Type} [RowStore D W K] (tx : Option (Tx K W)) : Prop :=
  ∀ t, tx = some t → ∀ w ∈ t.writes, ∀ k ∈ keys D w, k ∈ t.locks

private theorem Tx.owns_add {t : Tx K W} (owns : Tx.Owns D (some t)) (s : Stmt K W) :
    Tx.Owns D (some (t.add D s)) := by
  intro t' same w member k inKeys
  obtain rfl := Option.some.inj same
  simp only [Tx.add, List.mem_append, Stmt.keys, List.mem_flatMap] at member ⊢
  rcases member with member | member
  · exact Or.inl (owns t rfl w member k inKeys)
  · exact Or.inr (Or.inr ⟨w, member, inKeys⟩)

private theorem Tx.owns_none : Tx.Owns D (none : Option (Tx K W)) := by
  intro t same
  cases same

private theorem Tx.owns_empty : Tx.Owns D (some ({} : Tx K W)) := by
  intro t same w member
  obtain rfl := Option.some.inj same
  cases member

/-- What one statement of a verified call does. -/
structure Advanced (P : Protocol L D) (me : Nat) (Q : α → D → Prop) (others : List K) (d d' : D)
    (th th' : Thread L D W K Op α) : Prop where
  does : d' = d ∨ ∃ ℓ, th.prog.label = some ℓ ∧ P.guar me ℓ d d'
  verified : wp P me (fun a _ d => Q a d) th'.prog th'.tx d'
  op : th'.op = th.op
  locks : ∀ k ∈ Tx.held th'.tx, k ∈ Tx.held th.tx ∨ k ∉ others
  owns : Tx.Owns D th'.tx
  foreign : ∀ k ∈ others, row d' k = row d k

private theorem does_label {th : Thread L D W K Op α} {ℓ : L} {d d' : D}
    (labelled : th.prog.label = some ℓ) (does : P.Does me ℓ d d') :
    d' = d ∨ ∃ ℓ, th.prog.label = some ℓ ∧ P.guar me ℓ d d' :=
  does.imp id fun guar => ⟨ℓ, labelled, guar⟩

theorem advance_sound [DecidableEq K] {Q : α → D → Prop} {others : List K} {d d' : D}
    {answer : Bool} {th th' : Thread L D W K Op α} (inv : P.inv d)
    (meets : ∀ ℓ, th.prog.label = some ℓ → P.pre ℓ d)
    (verified : wp P me (fun a _ d => Q a d) th.prog th.tx d)
    (owns : Tx.Owns D th.tx) (apart : ∀ k ∈ Tx.held th.tx, k ∉ others)
    (advanced : advance others d answer th = some (d', th')) :
    Advanced P me Q others d d' th th' := by
  have now : ∀ locked : List K, P.Rely me locked d d := fun _ => .refl inv
  obtain ⟨op, prog, tx, live⟩ := th
  cases prog with
  | ret a => cases advanced
  | query ℓ k =>
    obtain ⟨rfl, rfl⟩ : d = d' ∧ _ = th' := by simpa [advance] using advanced
    have rest := verified d (now _) (meets ℓ rfl)
    exact ⟨Or.inl rfl, rest, rfl, fun _ h => Or.inl h, owns, fun _ _ => rfl⟩
  | exec ℓ s k =>
    simp only [advance] at advanced
    split at advanced
    · cases advanced
    next granted =>
      have fresh : ∀ key ∈ (s (Tx.view tx d)).keys D, key ∉ others := by
        intro key member taken
        exact granted (List.any_eq_true.mpr ⟨key, member, by simpa using taken⟩)
      cases tx with
      | none =>
        obtain ⟨rfl, rfl⟩ : applyAll (s d).writes d = d' ∧ _ = th' := by simpa using advanced
        obtain ⟨does, rest⟩ := verified d (now _) (meets ℓ rfl)
        refine ⟨does_label rfl does, rest, rfl, by simp, Tx.owns_none, ?_⟩
        intro key taken
        refine row_applyAll _ _ _ fun w member inKeys => fresh key ?_ taken
        exact List.mem_append_right _ (List.mem_flatMap.mpr ⟨w, member, inKeys⟩)
      | some t =>
        obtain ⟨rfl, rfl⟩ : d = d' ∧ _ = th' := by simpa using advanced
        have rest := verified d (now _) (meets ℓ rfl)
        refine ⟨Or.inl rfl, rest, rfl, ?_, Tx.owns_add owns _, fun _ _ => rfl⟩
        intro key member
        rcases List.mem_append.mp member with member | member
        · exact Or.inl member
        · exact Or.inr (fresh key member)
  | emit ℓ ws k =>
    obtain ⟨rfl, rfl⟩ : applyAll ((ws (Tx.view tx d)).map Subtype.val) d = d' ∧ _ = th' := by
      simpa [advance] using advanced
    obtain ⟨does, rest⟩ := verified d (now _) (meets ℓ rfl)
    refine ⟨does_label rfl does, rest, rfl, fun _ h => Or.inl h, owns, fun key _ => ?_⟩
    refine row_applyAll _ _ _ fun w member => ?_
    obtain ⟨⟨w, unlocked⟩, -, rfl⟩ := List.mem_map.mp member
    simp [unlocked]
  | ask k =>
    obtain ⟨rfl, rfl⟩ : d = d' ∧ _ = th' := by simpa [advance] using advanced
    have rest := verified d (now _) answer
    exact ⟨Or.inl rfl, rest, rfl, fun _ h => Or.inl h, owns, fun _ _ => rfl⟩
  | tryLock ℓ key k =>
    simp only [advance] at advanced
    have both := verified d (now _) (meets ℓ rfl)
    split at advanced
    · obtain ⟨rfl, rfl⟩ : d = d' ∧ _ = th' := by simpa using advanced
      exact ⟨Or.inl rfl, both.1, rfl, fun _ h => Or.inl h, owns, fun _ _ => rfl⟩
    next granted =>
      obtain ⟨rfl, rfl⟩ : d = d' ∧ _ = th' := by simpa using advanced
      cases tx with
      | none => exact ⟨Or.inl rfl, both.2, rfl, by simp, Tx.owns_none, fun _ _ => rfl⟩
      | some t =>
        refine ⟨Or.inl rfl, both.2, rfl, ?_, Tx.owns_add owns _, fun _ _ => rfl⟩
        intro key' member
        rcases List.mem_append.mp member with member | member
        · exact Or.inl member
        · have same : key' = key := by simpa [Stmt.keys] using member
          exact Or.inr (same ▸ granted)
  | start k =>
    obtain ⟨rfl, rfl⟩ : d = d' ∧ _ = th' := by simpa [advance] using advanced
    exact ⟨Or.inl rfl, verified d (now _), rfl, by simp, Tx.owns_empty, fun _ _ => rfl⟩
  | commit ℓ k =>
    obtain ⟨rfl, rfl⟩ : Tx.view tx d = d' ∧ _ = th' := by simpa [advance] using advanced
    obtain ⟨does, rest⟩ := verified d (now _) (meets ℓ rfl)
    refine ⟨does_label rfl does, rest, rfl, by simp, Tx.owns_none, fun key taken => ?_⟩
    cases tx with
    | none => rfl
    | some t =>
      refine row_applyAll _ _ _ fun w member inKeys => ?_
      exact apart key (owns t rfl w member key inKeys) taken
  | abort k =>
    obtain ⟨rfl, rfl⟩ : d = d' ∧ _ = th' := by simpa [advance] using advanced
    exact ⟨Or.inl rfl, verified d (now _), rfl, by simp, Tx.owns_none, fun _ _ => rfl⟩

namespace Pool

theorem mem_lockedByOthers {p : Pool L D W K Op α} {i : Nat} {k : K} :
    k ∈ p.lockedByOthers i ↔
      ∃ j th, j ≠ i ∧ p.threads[j]? = some th ∧ k ∈ Tx.held th.tx := by
  simp only [lockedByOthers, List.mem_flatMap, Prod.exists]
  constructor
  · rintro ⟨th, j, member, held⟩
    have found := List.mem_zipIdx_iff_getElem?.mp member
    by_cases same : j = i
    · simp [same] at held
    · exact ⟨j, th, same, found, by simpa [same] using held⟩
  · rintro ⟨j, th, differ, found, held⟩
    exact ⟨th, j, List.mem_zipIdx_iff_getElem?.mpr found, by simpa [differ] using held⟩

/-- The invariant of a pool of verified calls. -/
structure Sound (P : Protocol L D) (Q : Nat → Op → α → D → Prop) (p : Pool L D W K Op α) :
    Prop where
  inv : P.inv p.db
  calls : ∀ (i : Nat) (th : Thread L D W K Op α), p.threads[i]? = some th → th.live = true →
    th.prog.returned = none → wp P i (fun a _ d => Q i th.op a d) th.prog th.tx p.db
  owns : ∀ (i : Nat) (th : Thread L D W K Op α), p.threads[i]? = some th → Tx.Owns D th.tx
  apart : ∀ (i j : Nat) (th th' : Thread L D W K Op α), i ≠ j → p.threads[i]? = some th →
    p.threads[j]? = some th' → ∀ k ∈ Tx.held th.tx, k ∉ Tx.held th'.tx

variable {Q : Nat → Op → α → D → Prop}

omit [RowStore D W K] in
theorem getElem?_concat {β : Type} {xs : List β} {x new : β} {i : Nat}
    (found : (xs ++ [new])[i]? = some x) : xs[i]? = some x ∨ (i = xs.length ∧ x = new) := by
  rcases Nat.lt_or_ge i xs.length with below | above
  · exact Or.inl (by rwa [List.getElem?_append_left below] at found)
  · rw [List.getElem?_append_right above, List.getElem?_singleton] at found
    split at found
    · exact Or.inr ⟨by omega, (Option.some.inj found).symm⟩
    · cases found

theorem getElem?_put {p : Pool L D W K Op α} {th new : Thread L D W K Op α} {i j : Nat}
    (found : (p.threads.set i new)[j]? = some th) :
    (j = i ∧ th = new) ∨ (j ≠ i ∧ p.threads[j]? = some th) := by
  rw [List.getElem?_set] at found
  split at found
  next same =>
    split at found
    · exact Or.inl ⟨same.symm, (Option.some.inj found).symm⟩
    · cases found
  next differ => exact Or.inr ⟨fun h => differ h.symm, found⟩

theorem Sound.spawn {p : Pool L D W K Op α} (sound : Sound P Q p) (op : Op)
    (prog : Prog L D W K α)
    (verified : wp P p.threads.length (fun a _ d => Q p.threads.length op a d) prog none p.db) :
    Sound P Q { p with threads := p.threads ++ [{ op := op, prog := prog }] } := by
  refine ⟨sound.inv, ?_, ?_, ?_⟩
  · intro i th found live running
    rcases getElem?_concat found with found | ⟨rfl, rfl⟩
    · exact sound.calls i th found live running
    · exact verified
  · intro i th found
    rcases getElem?_concat found with found | ⟨rfl, rfl⟩
    · exact sound.owns i th found
    · exact Tx.owns_none
  · intro i j th th' differ found found' k held
    rcases getElem?_concat found with found | ⟨rfl, rfl⟩
    · rcases getElem?_concat found' with found' | ⟨rfl, rfl⟩
      · exact sound.apart i j th th' differ found found' k held
      · simp
    · simp at held

theorem Sound.crash {p : Pool L D W K Op α} (sound : Sound P Q p) (i : Nat)
    (th : Thread L D W K Op α) :
    Sound P Q { p with threads := p.threads.set i { th with live := false, tx := none } } := by
  refine ⟨sound.inv, ?_, ?_, ?_⟩
  · intro j th' found live running
    rcases getElem?_put found with ⟨-, rfl⟩ | ⟨-, found⟩
    · cases live
    · exact sound.calls j th' found live running
  · intro j th' found
    rcases getElem?_put found with ⟨-, rfl⟩ | ⟨-, found⟩
    · exact Tx.owns_none
    · exact sound.owns j th' found
  · intro j l th₁ th₂ differ found₁ found₂ k held
    rcases getElem?_put found₁ with ⟨-, rfl⟩ | ⟨-, found₁⟩
    · simp at held
    · rcases getElem?_put found₂ with ⟨-, rfl⟩ | ⟨-, found₂⟩
      · simp
      · exact sound.apart j l th₁ th₂ differ found₁ found₂ k held

/-- A call that has run one statement leaves every other call verified: the rows
others hold are untouched, and the rest moved as the protocol allows. -/
theorem Sound.run {p : Pool L D W K Op α} (sound : Sound P Q p) {i : Nat}
    {th th' : Thread L D W K Op α} {d' : D} (found : p.threads[i]? = some th)
    (result : Advanced P i (Q i th.op) (p.lockedByOthers i) p.db d' th th')
    (respects : ∀ k ∈ p.lockedByOthers i, P.keeps k p.db d') :
    Sound P Q { db := d', threads := p.threads.set i th' } := by
  have inv' : P.inv d' := by
    rcases result.does with rfl | ⟨ℓ, -, guar⟩
    · exact sound.inv
    · exact P.guar_inv i ℓ _ _ sound.inv guar
  have evo' : ∀ j, j ≠ i → P.evo j p.db d' := by
    intro j differ
    rcases result.does with rfl | ⟨ℓ, -, guar⟩
    · exact P.evo_refl j _
    · exact P.guar_evo i j ℓ _ _ differ.symm sound.inv guar
  have apart' : ∀ (j : Nat) (th₂ : Thread L D W K Op α), j ≠ i → p.threads[j]? = some th₂ →
      ∀ k ∈ Tx.held th'.tx, k ∉ Tx.held th₂.tx := by
    intro j th₂ differ found₂ k held taken
    rcases result.locks k held with mine | free
    · exact sound.apart i j th th₂ differ.symm found found₂ k mine taken
    · exact free (mem_lockedByOthers.mpr ⟨j, th₂, differ, found₂, taken⟩)
  refine ⟨inv', ?_, ?_, ?_⟩
  · intro j th₂ found₂ live₂ running₂
    rcases getElem?_put found₂ with ⟨rfl, rfl⟩ | ⟨mine, found₂⟩
    · exact result.op ▸ result.verified
    · have others : ∀ k ∈ Tx.held th₂.tx, k ∈ p.lockedByOthers i := fun k held =>
        mem_lockedByOthers.mpr ⟨j, th₂, mine, found₂, held⟩
      refine wp_stable running₂ ⟨evo' j mine, inv', ?_, ?_⟩ (sound.calls j th₂ found₂ live₂ running₂)
      · exact fun k held => result.foreign k (others k held)
      · exact fun k held => respects k (others k held)
  · intro j th₂ found₂
    rcases getElem?_put found₂ with ⟨rfl, rfl⟩ | ⟨mine, found₂⟩
    · exact result.owns
    · exact sound.owns j th₂ found₂
  · intro j l th₁ th₂ differ found₁ found₂ k held
    rcases getElem?_put found₁ with ⟨rfl, rfl⟩ | ⟨mine₁, old₁⟩
    · rcases getElem?_put found₂ with ⟨rfl, rfl⟩ | ⟨mine₂, old₂⟩
      · exact absurd rfl differ
      · exact apart' l th₂ mine₂ old₂ k held
    · rcases getElem?_put found₂ with ⟨rfl, rfl⟩ | ⟨mine₂, old₂⟩
      · exact fun taken => apart' j th₁ mine₁ old₁ k taken held
      · exact sound.apart j l th₁ th₂ differ old₁ old₂ k held

/-- The calls of a sound pool may be held to another protocol. -/
theorem Sound.heldTo {P' : Protocol L D} {Q' : Nat → Op → α → D → Prop} {p : Pool L D W K Op α}
    (sound : Sound P Q p) (inv : P'.inv p.db)
    (calls : ∀ (i : Nat) (th : Thread L D W K Op α), p.threads[i]? = some th →
      wp P' i (fun a _ d => Q' i th.op a d) th.prog th.tx p.db) : Sound P' Q' p :=
  ⟨inv, fun i th found _ _ => calls i th found, sound.owns, sound.apart⟩

/-- A property that no step undoes may be counted on from the pool on where it holds. -/
theorem Sound.within {R : D → Prop} {kept : ∀ i ℓ d d', P.inv d → P.guar i ℓ d d' → R d → R d'}
    {Q' : Nat → Op → α → D → Prop} {p : Pool L D W K Op α} (sound : Sound P Q p) (holds : R p.db)
    (weaker : ∀ (i : Nat) (th : Thread L D W K Op α), p.threads[i]? = some th → ∀ a d,
      Q i th.op a d → Q' i th.op a d) : Sound (P.within R kept) Q' p := by
  refine ⟨⟨sound.inv, holds⟩, fun i th found live running => ?_, sound.owns, sound.apart⟩
  have verified := sound.calls i th found live running
  exact wp_within _ _ _ (wp_mono (fun a _ d => weaker i th found a d) _ _ _ verified)

variable [DecidableEq K] {sys : Nat → Op → Prog L D W K α}

/-- One event of a sound pool: it keeps the pool sound, a change of the store is the
labelled statement of the call that ran, and a call that returns meets its
postcondition. -/
structure Stepped (P : Protocol L D) (Q : Nat → Op → α → D → Prop) (p : Pool L D W K Op α)
    (e : Event Op) (q : Pool L D W K Op α) : Prop where
  sound : Sound P Q q
  does : q.db = p.db ∨ ∃ i answer ℓ, e = .run i answer ∧ p.next i = some ℓ ∧
    P.guar i ℓ p.db q.db
  returns : ∀ (i : Nat) (th' : Thread L D W K Op α) (a : α), q.threads[i]? = some th' →
    th'.prog.returned = some a → Q i th'.op a q.db ∨
      ∃ th, p.threads[i]? = some th ∧ th.op = th'.op ∧ th.prog.returned = some a

/-- Every call of the system is verified, whatever it finds in the store. -/
def Verified (P : Protocol L D) (Q : Nat → Op → α → D → Prop)
    (sys : Nat → Op → Prog L D W K α) : Prop :=
  ∀ me op d, wp P me (fun a _ d => Q me op a d) (sys me op) none d

/-- The calls of a cast are verified: call `i` runs `ops i`. -/
def VerifiedAs (P : Protocol L D) (Q : Nat → Op → α → D → Prop) (sys : Nat → Op → Prog L D W K α)
    (ops : Nat → Option Op) : Prop :=
  ∀ me op, ops me = some op → ∀ d, wp P me (fun a _ d => Q me op a d) (sys me op) none d

/-- The calls of the pool are those of the cast. -/
def Casts (ops : Nat → Option Op) (p : Pool L D W K Op α) : Prop :=
  ∀ (i : Nat) (th : Thread L D W K Op α), p.threads[i]? = some th → ops i = some th.op

/-- The operations of the calls of a pool. -/
def ops (p : Pool L D W K Op α) (i : Nat) : Option Op := p.threads[i]?.map Thread.op

omit [DecidableEq K] in
theorem casts_ops (p : Pool L D W K Op α) : Casts p.ops p := by
  intro i th found
  simp [ops, found]

omit [DecidableEq K] in
theorem Verified.as (verified : Verified P Q sys) (ops : Nat → Option Op) :
    VerifiedAs P Q sys ops :=
  fun me op _ => verified me op

/-- A pool has the cast of any later one. -/
theorem Casts.of_step {ops : Nat → Option Op} {p q : Pool L D W K Op α} {e : Event Op}
    (stepped : p.step sys e = some q) (cast : Casts ops q) : Casts ops p := by
  intro i th found
  obtain ⟨th', found', sameOp⟩ := op_of_step stepped found
  rw [cast i th' found', sameOp]

omit [DecidableEq K] in
private theorem wp_returned {i : Nat} {R : α → D → Prop} {prog : Prog L D W K α}
    {tx : Option (Tx K W)} {d : D} {a : α} (returned : prog.returned = some a)
    (holds : wp P i (fun a _ d => R a d) prog tx d) : R a d := by
  cases prog with
  | ret b =>
    obtain rfl := Option.some.inj returned
    exact holds
  | _ => cases returned

/-- What the schedule owes to the holders of locks: a statement of another call keeps what
their locks stand for. -/
def Respects (P : Protocol L D) (p : Pool L D W K Op α) (e : Event Op) : Prop :=
  ∀ i answer ℓ d', e = .run i answer → p.next i = some ℓ → P.guar i ℓ p.db d' →
    ∀ k ∈ p.lockedByOthers i, P.keeps k p.db d'

omit [DecidableEq K] in
theorem Respects.of_lax [P.Lax] (p : Pool L D W K Op α) (e : Event Op) : Respects P p e :=
  fun _ _ _ _ _ _ _ _ _ => Protocol.Lax.keeps _ _ _

/-- The call that an event starts is verified in the store it is started in. -/
def StartsVerified (P : Protocol L D) (Q : Nat → Op → α → D → Prop)
    (sys : Nat → Op → Prog L D W K α) (p : Pool L D W K Op α) (e : Event Op) : Prop :=
  ∀ op, e = .spawn op → wp P p.threads.length (fun a _ d => Q p.threads.length op a d)
    (sys p.threads.length op) none p.db

theorem Sound.stepStarting {p q : Pool L D W K Op α} (sound : Sound P Q p) {e : Event Op}
    (starts : StartsVerified P Q sys p e) (meets : Meets P.pre p e) (respects : Respects P p e)
    (stepped : p.step sys e = some q) : Stepped P Q p e q := by
  cases e with
  | spawn op =>
    obtain rfl := Option.some.inj stepped
    have new := starts op rfl
    refine ⟨sound.spawn op _ new, Or.inl rfl, ?_⟩
    intro i th' a found returned
    rcases getElem?_concat found with found | ⟨rfl, rfl⟩
    · exact Or.inr ⟨th', found, rfl, returned⟩
    · exact Or.inl (wp_returned returned new)
  | run i answer =>
    simp only [Pool.step, Option.bind_eq_bind, Option.bind_eq_some_iff] at stepped
    obtain ⟨th, found, stepped⟩ := stepped
    split at stepped
    next live =>
      simp only [Option.bind_eq_some_iff, Option.some.injEq] at stepped
      obtain ⟨⟨d', th'⟩, advanced, rfl⟩ := stepped
      have running : th.prog.returned = none := by
        cases h : th.prog with
        | ret a => simp [advance, h] at advanced
        | _ => rfl
      have apart : ∀ k ∈ Tx.held th.tx, k ∉ p.lockedByOthers i := by
        intro k held taken
        obtain ⟨j, th₂, differ, found₂, held₂⟩ := mem_lockedByOthers.mp taken
        exact sound.apart i j th th₂ differ.symm found found₂ k held held₂
      have result := advance_sound sound.inv
        (fun ℓ labelled => meets i answer ℓ rfl (by simp [next, found, labelled]))
        (sound.calls i th found live running) (sound.owns i th found) apart advanced
      have keeps : ∀ k ∈ p.lockedByOthers i, P.keeps k p.db d' := by
        rcases result.does with rfl | ⟨ℓ, labelled, guar⟩
        · exact fun k _ => P.keeps_refl k _
        · exact respects i answer ℓ d' rfl (by simp [next, found, labelled]) guar
      refine ⟨sound.run found result keeps, result.does.imp id ?_, ?_⟩
      · rintro ⟨ℓ, labelled, guar⟩
        exact ⟨i, answer, ℓ, rfl, by simp [next, found, labelled], guar⟩
      · intro j th₂ a found₂ returned
        rcases getElem?_put found₂ with ⟨rfl, rfl⟩ | ⟨-, found₂⟩
        · exact Or.inl (result.op ▸ wp_returned returned result.verified)
        · exact Or.inr ⟨th₂, found₂, rfl, returned⟩
    next => cases stepped
  | crash i =>
    simp only [Pool.step, Option.bind_eq_bind, Option.bind_eq_some_iff, Option.some.injEq] at stepped
    obtain ⟨th, found, rfl⟩ := stepped
    refine ⟨sound.crash i th, Or.inl rfl, ?_⟩
    intro j th₂ a found₂ returned
    rcases getElem?_put found₂ with ⟨rfl, rfl⟩ | ⟨-, found₂⟩
    · exact Or.inr ⟨th, found, rfl, returned⟩
    · exact Or.inr ⟨th₂, found₂, rfl, returned⟩

theorem Sound.stepAs {ops : Nat → Option Op} (verified : VerifiedAs P Q sys ops)
    {p q : Pool L D W K Op α} (cast : Casts ops q) (sound : Sound P Q p) {e : Event Op}
    (meets : Meets P.pre p e) (respects : Respects P p e)
    (stepped : p.step sys e = some q) : Stepped P Q p e q := by
  refine sound.stepStarting ?_ meets respects stepped
  rintro op rfl
  obtain rfl := Option.some.inj stepped
  exact verified p.threads.length op (cast _ _ List.getElem?_concat_length) p.db

theorem Sound.stepRespecting (verified : Verified P Q sys) {p q : Pool L D W K Op α}
    (sound : Sound P Q p) {e : Event Op} (meets : Meets P.pre p e) (respects : Respects P p e)
    (stepped : p.step sys e = some q) : Stepped P Q p e q :=
  sound.stepAs (verified.as q.ops) q.casts_ops meets respects stepped

theorem Sound.step [P.Lax] (verified : Verified P Q sys) {p q : Pool L D W K Op α}
    (sound : Sound P Q p) {e : Event Op} (meets : Meets P.pre p e)
    (stepped : p.step sys e = some q) : Stepped P Q p e q :=
  sound.stepRespecting verified meets (.of_lax p e) stepped

omit [DecidableEq K] in
theorem Sound.empty {d : D} (inv : P.inv d) :
    Sound P Q ({ db := d } : Pool L D W K Op α) :=
  ⟨inv, by simp, by simp, by simp⟩

theorem Reaches.soundAs {ops : Nat → Option Op} (verified : VerifiedAs P Q sys ops)
    {ok : Pool L D W K Op α → Event Op → Prop} (meets : ∀ p e, ok p e → Meets P.pre p e)
    (respects : ∀ p e, ok p e → Respects P p e) {p q : Pool L D W K Op α} (sound : Sound P Q p)
    (reached : Reaches sys ok p q) (cast : Casts ops q) : Sound P Q q := by
  induction reached with
  | refl => exact sound
  | step e _ allowed stepped ih =>
    have before := ih (cast.of_step stepped)
    exact (before.stepAs verified cast (meets _ e allowed) (respects _ e allowed) stepped).sound

/-- The same for a protocol whose locks stand for more than their rows. -/
theorem Reaches.soundRespecting (verified : Verified P Q sys)
    {ok : Pool L D W K Op α → Event Op → Prop} (meets : ∀ p e, ok p e → Meets P.pre p e)
    (respects : ∀ p e, ok p e → Respects P p e) {p q : Pool L D W K Op α} (sound : Sound P Q p)
    (reached : Reaches sys ok p q) : Sound P Q q :=
  reached.soundAs (verified.as q.ops) meets respects sound q.casts_ops

theorem Reaches.sound [P.Lax] (verified : Verified P Q sys) {ok : Pool L D W K Op α → Event Op → Prop}
    (meets : ∀ p e, ok p e → Meets P.pre p e) {p q : Pool L D W K Op α} (sound : Sound P Q p)
    (reached : Reaches sys ok p q) : Sound P Q q :=
  reached.soundRespecting verified meets (fun p e _ => .of_lax p e) sound

/-- A property of the committed store that every allowed commit keeps holds along every run
whose schedule respects the locks. -/
theorem Reaches.invariantRespecting (verified : Verified P Q sys)
    {ok : Pool L D W K Op α → Event Op → Prop} (meets : ∀ p e, ok p e → Meets P.pre p e)
    (respects : ∀ p e, ok p e → Respects P p e) {p q : Pool L D W K Op α} (I : D → Prop)
    (sound : Sound P Q p) (first : I p.db)
    (keeps : ∀ i ℓ d d', P.inv d → I d → P.guar i ℓ d d' → I d') (reached : Reaches sys ok p q) :
    I q.db := by
  induction reached with
  | refl => exact first
  | @step q q' e before allowed stepped ih =>
    have now := before.soundRespecting verified meets respects sound
    have next := now.stepRespecting verified (meets q e allowed) (respects q e allowed) stepped
    rcases next.does with same | ⟨i, answer, ℓ, rfl, -, guar⟩
    · exact same ▸ ih
    · exact keeps i ℓ _ _ now.inv ih guar

/-- A property of the committed store that every allowed commit keeps under a condition
holds along every run whose statements meet the condition. -/
theorem Reaches.invariant [P.Lax] (verified : Verified P Q sys) (unconditional : ∀ ℓ d, P.pre ℓ d)
    {cond : L → D → Prop} {p q : Pool L D W K Op α} (I : D → Prop) (sound : Sound P Q p)
    (first : I p.db) (keeps : ∀ i ℓ d d', P.inv d → I d → cond ℓ d → P.guar i ℓ d d' → I d')
    (reached : Reaches sys (Meets cond) p q) : I q.db := by
  induction reached with
  | refl => exact first
  | @step q q' e before allowed stepped ih =>
    have meets : Meets P.pre q e := fun _ _ ℓ _ _ => unconditional ℓ q.db
    have now := before.sound verified (fun _ _ _ _ _ ℓ _ _ => unconditional ℓ _) sound
    rcases (now.step verified meets stepped).does with same | ⟨i, answer, ℓ, rfl, labelled, guar⟩
    · exact same ▸ ih
    · exact keeps i ℓ _ _ now.inv ih (allowed i answer ℓ rfl labelled) guar

/-- A postcondition that no commit undoes holds of every call that has returned. -/
theorem Reaches.returnedAs [P.Lax] {ops : Nat → Option Op} (verified : VerifiedAs P Q sys ops)
    {ok : Pool L D W K Op α → Event Op → Prop} (meets : ∀ p e, ok p e → Meets P.pre p e)
    {p q : Pool L D W K Op α} (sound : Sound P Q p)
    (stable : ∀ i op a j ℓ d d', P.inv d → Q i op a d → P.guar j ℓ d d' → Q i op a d')
    (first : ∀ i th a, p.threads[i]? = some th → th.prog.returned = some a → Q i th.op a p.db)
    (reached : Reaches sys ok p q) (cast : Casts ops q) :
    ∀ i th a, q.threads[i]? = some th → th.prog.returned = some a → Q i th.op a q.db := by
  induction reached with
  | refl => exact first
  | @step q q' e before allowed stepped ih =>
    intro i th a found returned
    have cast' := cast.of_step stepped
    have soundBefore :=
      before.soundAs verified meets (fun p e _ => .of_lax p e) sound cast'
    have now := soundBefore.stepAs verified cast (meets q e allowed) (.of_lax q e) stepped
    rcases now.returns i th a found returned with promised | ⟨th₀, found₀, sameOp, returned₀⟩
    · exact promised
    · have promised := ih cast' i th₀ a found₀ returned₀
      rw [sameOp] at promised
      rcases now.does with same | ⟨j, answer, ℓ, -, -, guar⟩
      · rwa [same]
      · exact stable i th.op a j ℓ q.db q'.db soundBefore.inv promised guar

theorem Reaches.returned [P.Lax] (verified : Verified P Q sys)
    {ok : Pool L D W K Op α → Event Op → Prop} (meets : ∀ p e, ok p e → Meets P.pre p e)
    {p q : Pool L D W K Op α} (sound : Sound P Q p)
    (stable : ∀ i op a j ℓ d d', P.inv d → Q i op a d → P.guar j ℓ d d' → Q i op a d')
    (fresh : ∀ th ∈ p.threads, th.prog.returned = none) (reached : Reaches sys ok p q) :
    ∀ i th a, q.threads[i]? = some th → th.prog.returned = some a → Q i th.op a q.db := by
  refine reached.returnedAs (verified.as q.ops) meets sound stable ?_ q.casts_ops
  intro i th a found returned
  rw [fresh th (List.mem_of_getElem? found)] at returned
  cases returned

/-! ### What no other call does to the number of a new one -/

section Fresh

variable {R : Nat → D → Prop}

/-- Every call is verified in the stores where nothing has been done under its number. -/
def VerifiedFresh (P : Protocol L D) (Q : Nat → Op → α → D → Prop)
    (sys : Nat → Op → Prog L D W K α) (R : Nat → D → Prop) : Prop :=
  ∀ me op d, R me d → wp P me (fun a _ d => Q me op a d) (sys me op) none d

omit [DecidableEq K] in
private theorem StartsVerified.of_fresh {p : Pool L D W K Op α}
    (verified : VerifiedFresh P Q sys R) (fresh : ∀ me, p.threads.length ≤ me → R me p.db)
    (e : Event Op) : StartsVerified P Q sys p e := by
  rintro op -
  exact verified _ op _ (fresh _ (Nat.le_refl _))

omit [DecidableEq K] in
/-- A number that is not in use stays fresh: only other calls have acted. -/
private theorem Stepped.fresh {p q : Pool L D W K Op α} {e : Event Op}
    (stable : ∀ me d d', P.evo me d d' → R me d → R me d') (inv : P.inv p.db)
    (stepped : Stepped P Q p e q) (grown : p.threads.length ≤ q.threads.length)
    (running : ∀ i ℓ, p.next i = some ℓ → i < p.threads.length)
    (fresh : ∀ me, p.threads.length ≤ me → R me p.db) :
    ∀ me, q.threads.length ≤ me → R me q.db := by
  intro me above
  have before := fresh me (Nat.le_trans grown above)
  rcases stepped.does with same | ⟨i, answer, ℓ, -, labelled, guar⟩
  · rwa [same]
  · have below := running i ℓ labelled
    exact stable me _ _ (P.guar_evo i me ℓ _ _ (by omega) inv guar) before

theorem length_of_step {p q : Pool L D W K Op α} {e : Event Op}
    (stepped : p.step sys e = some q) : p.threads.length ≤ q.threads.length := by
  cases e with
  | spawn op =>
    obtain rfl := Option.some.inj stepped
    simp
  | run i answer =>
    simp only [Pool.step, Option.bind_eq_bind, Option.bind_eq_some_iff] at stepped
    obtain ⟨th, -, stepped⟩ := stepped
    split at stepped
    · simp only [Option.bind_eq_some_iff, Option.some.injEq] at stepped
      obtain ⟨_, -, rfl⟩ := stepped
      simp
    · cases stepped
  | crash i =>
    simp only [Pool.step, Option.bind_eq_bind, Option.bind_eq_some_iff, Option.some.injEq] at stepped
    obtain ⟨th, -, rfl⟩ := stepped
    simp

omit [DecidableEq K] in
theorem lt_of_next {p : Pool L D W K Op α} {i : Nat} {ℓ : L} (labelled : p.next i = some ℓ) :
    i < p.threads.length := by
  obtain ⟨th, found, -⟩ := Option.bind_eq_some_iff.mp labelled
  exact (List.getElem?_eq_some_iff.mp found).1

/-- One event of a sound pool in which every unused number is fresh. -/
theorem Sound.stepFresh (verified : VerifiedFresh P Q sys R)
    (stable : ∀ me d d', P.evo me d d' → R me d → R me d') {p q : Pool L D W K Op α}
    (sound : Sound P Q p) (fresh : ∀ me, p.threads.length ≤ me → R me p.db) {e : Event Op}
    (meets : Meets P.pre p e) (respects : Respects P p e) (stepped : p.step sys e = some q) :
    Stepped P Q p e q ∧ ∀ me, q.threads.length ≤ me → R me q.db := by
  have next := sound.stepStarting (.of_fresh verified fresh e) meets respects stepped
  exact ⟨next, next.fresh stable sound.inv (length_of_step stepped) (fun _ _ => lt_of_next) fresh⟩

theorem Reaches.soundFresh [P.Lax] (verified : VerifiedFresh P Q sys R)
    (stable : ∀ me d d', P.evo me d d' → R me d → R me d')
    {ok : Pool L D W K Op α → Event Op → Prop} (meets : ∀ p e, ok p e → Meets P.pre p e)
    {p q : Pool L D W K Op α} (sound : Sound P Q p)
    (fresh : ∀ me, p.threads.length ≤ me → R me p.db) (reached : Reaches sys ok p q) :
    Sound P Q q ∧ ∀ me, q.threads.length ≤ me → R me q.db := by
  induction reached with
  | refl => exact ⟨sound, fresh⟩
  | step e _ allowed stepped ih =>
    have next := ih.1.stepFresh verified stable ih.2 (meets _ e allowed) (.of_lax _ e) stepped
    exact ⟨next.1.sound, next.2⟩

/-- A postcondition that no commit of another call undoes, for calls that start with their number
fresh. -/
theorem Reaches.returnedAmongOthers [P.Lax] (verified : VerifiedFresh P Q sys R)
    (stable : ∀ me d d', P.evo me d d' → R me d → R me d')
    {ok : Pool L D W K Op α → Event Op → Prop} (meets : ∀ p e, ok p e → Meets P.pre p e)
    {p q : Pool L D W K Op α} (sound : Sound P Q p)
    (fresh : ∀ me, p.threads.length ≤ me → R me p.db)
    (kept : ∀ i op a j ℓ d d', i ≠ j → P.inv d → Q i op a d → P.guar j ℓ d d' → Q i op a d')
    (first : ∀ i th a, p.threads[i]? = some th → th.prog.returned = some a → Q i th.op a p.db)
    (reached : Reaches sys ok p q) :
    ∀ i th a, q.threads[i]? = some th → th.prog.returned = some a → Q i th.op a q.db := by
  induction reached with
  | refl => exact first
  | @step q q' e before allowed stepped ih =>
    intro i th a found returned
    have now := before.soundFresh verified stable meets sound fresh
    have next := now.1.stepFresh verified stable now.2 (meets _ e allowed) (.of_lax _ e) stepped
    rcases next.1.returns i th a found returned with promised | ⟨th₀, found₀, sameOp, returned₀⟩
    · exact promised
    · have promised := ih i th₀ a found₀ returned₀
      rw [sameOp] at promised
      rcases next.1.does with same | ⟨j, answer, ℓ, -, labelled, guar⟩
      · rwa [same]
      · refine kept i th.op a j ℓ q.db q'.db ?_ now.1.inv promised guar
        -- a call that has returned issues no statement
        rintro rfl
        obtain ⟨th₁, found₁, label⟩ := Option.bind_eq_some_iff.mp labelled
        obtain rfl := Option.some.inj (found₀.symm.trans found₁)
        cases prog : th₀.prog with
        | ret b => simp [prog, Prog.label] at label
        | _ => simp [prog, Prog.returned] at returned₀

/-- A postcondition that no commit undoes, for calls that start with their number fresh. -/
theorem Reaches.returnedFresh [P.Lax] (verified : VerifiedFresh P Q sys R)
    (stable : ∀ me d d', P.evo me d d' → R me d → R me d')
    {ok : Pool L D W K Op α → Event Op → Prop} (meets : ∀ p e, ok p e → Meets P.pre p e)
    {p q : Pool L D W K Op α} (sound : Sound P Q p)
    (fresh : ∀ me, p.threads.length ≤ me → R me p.db)
    (kept : ∀ i op a j ℓ d d', P.inv d → Q i op a d → P.guar j ℓ d d' → Q i op a d')
    (first : ∀ i th a, p.threads[i]? = some th → th.prog.returned = some a → Q i th.op a p.db)
    (reached : Reaches sys ok p q) :
    ∀ i th a, q.threads[i]? = some th → th.prog.returned = some a → Q i th.op a q.db :=
  reached.returnedAmongOthers verified stable meets sound fresh
    (fun i op a j ℓ d d' _ => kept i op a j ℓ d d') first

end Fresh

end Pool

end Store
