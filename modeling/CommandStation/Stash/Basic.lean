import Mathlib.Data.List.Basic

/-!
# The stash

`Stash` notes which loco is parked at which place of the layout. Entries are made at the front of a
list and never leave it: an entry whose loco is 0 is free and is used again.
-/

namespace CommandStation.Exrail

/-- `class Stash`. The id of a loco that is parked the wrong way round is negative. -/
structure Stash where
  stashId : Int16
  locoId : Int16
  deriving DecidableEq, Repr

namespace Stash

/-- An entry that is not used. -/
def free : Stash := ⟨0, 0⟩

/-- `abs` of an `int16_t`, as an `int` -/
def abs (x : Int16) : Nat := x.toInt.natAbs

/-- `Stash::get` -/
def get (stash : List Stash) (id : Int16) : Int16 :=
  (stash.find? fun s => s.stashId == id).elim 0 Stash.locoId

/-- Rewrite the first entry that `p` holds of, if there is one. -/
def replaceFirst (p : Stash → Bool) (f : Stash → Stash) : List Stash → Option (List Stash)
  | [] => none
  | s :: rest => if p s then some (f s :: rest) else (replaceFirst p f rest).map (s :: ·)

/-- `Stash::set` -/
def set (stash : List Stash) (id loco : Int16) : List Stash :=
  -- replace any existing stash
  match replaceFirst (fun s => s.stashId == id)
      (fun s => ⟨if loco = 0 then 0 else s.stashId, loco⟩) stash with
  | some stash' => stash'
  | none =>
    if loco = 0 then stash  -- no need to create a zero entry.
    else
      -- replace any empty stash
      match replaceFirst (fun s => s.locoId == 0) (fun _ => ⟨id, loco⟩) stash with
      | some stash' => stash'
      | none => ⟨id, loco⟩ :: stash

/-- `Stash::clear` -/
def clear (stash : List Stash) (id : Int16) : List Stash := set stash id 0

/-- `Stash::clearAll` -/
def clearAll (stash : List Stash) : List Stash := stash.map fun _ => free

/-- `Stash::clearAny`: the loco in either direction. -/
def clearAny (stash : List Stash) (loco : Int16) : List Stash :=
  stash.map fun s => if abs s.locoId = abs loco then free else s

end Stash

end CommandStation.Exrail
