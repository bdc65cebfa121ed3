import LabourBaba.Store.Table

/-!
# Coordinates and tracked workers

`validateCoordinatePair` decides what counts as a place. A worker's row carries the place it
was last seen at, and `worker_location` every place it was seen at before: one statement of
`updateLocation` writes both, or neither if the account is closed.
-/
namespace LabourBaba.Locations

open Store

abbrev Id := String

/-! ### Coordinates -/

/-- What a client can send as a coordinate. -/
inductive Coordinate where
  /-- `null` or `undefined` -/
  | missing
  /-- any value that is no number -/
  | other
  /-- NaN and the infinities -/
  | notFinite
  | number (x : ℚ)
deriving DecidableEq

structure Place where
  latitude : ℚ
  longitude : ℚ
deriving DecidableEq

/-- `validateCoordinatePair`, where `text` is how a template shows a number. Negative zero is
zero here, as it is in what the validation returns. -/
def validateCoordinatePair (text : ℚ → String) (latitude longitude : Coordinate) :
    Except String Place :=
  match latitude, longitude with
  | .missing, .missing =>
    .error "Coordinates are required: both latitude and longitude must be provided"
  | .missing, _ | _, .missing =>
    .error "Partial coordinate pair rejected: both latitude and longitude must be provided together"
  | .other, _ | _, .other => .error "Coordinates must be numeric values"
  | .notFinite, _ | _, .notFinite =>
    .error "Coordinates must be finite numbers (NaN and Infinities are rejected)"
  | .number lat, .number lon =>
    if lat < -90 ∨ lat > 90 then
      .error ("Latitude must be between -90 and 90 degrees (received: " ++ text lat ++ ")")
    else if lon < -180 ∨ lon > 180 then
      .error ("Longitude must be between -180 and 180 degrees (received: " ++ text lon ++ ")")
    else .ok ⟨lat, lon⟩

def Place.Valid (place : Place) : Prop :=
  -90 ≤ place.latitude ∧ place.latitude ≤ 90 ∧ -180 ≤ place.longitude ∧ place.longitude ≤ 180

theorem validateCoordinatePair_ok {text : ℚ → String} {latitude longitude : Coordinate}
    {place : Place} :
    validateCoordinatePair text latitude longitude = .ok place ↔
      latitude = .number place.latitude ∧ longitude = .number place.longitude ∧ place.Valid := by
  obtain ⟨lat', lon'⟩ := place
  cases latitude with
  | number lat =>
    cases longitude with
    | number lon =>
      simp only [validateCoordinatePair, Place.Valid, Coordinate.number.injEq]
      split
      next outside =>
        refine iff_of_false (by simp) ?_
        rintro ⟨rfl, rfl, above, below, -⟩
        rcases outside with outside | outside
        · exact absurd above (not_le.mpr outside)
        · exact absurd below (not_le.mpr outside)
      next inside =>
        split
        next outside =>
          refine iff_of_false (by simp) ?_
          rintro ⟨rfl, rfl, -, -, above, below⟩
          rcases outside with outside | outside
          · exact absurd above (not_le.mpr outside)
          · exact absurd below (not_le.mpr outside)
        next inside' =>
          simp only [not_or, not_lt] at inside inside'
          constructor
          · rintro ⟨⟩
            exact ⟨rfl, rfl, inside.1, inside.2, inside'.1, inside'.2⟩
          · rintro ⟨rfl, rfl, -⟩
            rfl
    | _ => simp [validateCoordinatePair]
  | _ => cases longitude <;> simp [validateCoordinatePair]

/-! ### Rows -/

structure Worker where
  id : Id
  phone : String
  deletedAt : Option ℕ := none
  verificationStatus : String := "pending"
  place : Option Place := none
  lastLocationAt : Option ℕ := none
deriving DecidableEq

structure WorkerLocation where
  id : Id
  workerId : Id
  place : Place
  updatedAt : ℕ
deriving DecidableEq

structure Tracking where
  workers : List Worker := []
  history : List WorkerLocation := []
deriving DecidableEq

namespace Tracking

def worker (t : Tracking) (id : Id) : Option Worker := Table.find Worker.id t.workers id

/-- The account is not closed. -/
def active (t : Tracking) (id : Id) : Bool := (t.worker id).any fun w => w.deletedAt.isNone

end Tracking

def Worker.located (place : Place) (now : ℕ) (w : Worker) : Worker :=
  { w with place := some place, lastLocationAt := some now }

/-- The UPDATE with the INSERT that depends on it. -/
def Tracking.updateLocation (t : Tracking) (workerId newId : Id) (place : Place) (now : ℕ) :
    Tracking :=
  if t.active workerId then
    { workers := Table.modify Worker.id t.workers [workerId] (Worker.located place now)
      history := t.history ++ [{ id := newId, workerId, place, updatedAt := now }] }
  else t

end LabourBaba.Locations
