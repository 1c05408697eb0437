import Mathlib.Data.List.Nodup
import CommandStation.Turnouts.Basic

/-!
# Creating turnouts

A turnout with the same id is changed, or removed if it is of another kind, so no two turnouts have the
same id.
-/

namespace CommandStation

/-- The turnouts of the layout, of which no two have the same id. -/
structure Turnouts where
  list : List Turnout
  distinct : (list.map Turnout.id).Nodup

def TurnoutKind.isDCC : TurnoutKind → Bool
  | .dcc _ _ => true
  | _ => false

namespace DCCTurnout

/-- `_dccTurnoutData` -/
def data (add : UInt16) (subAdd : UInt8) : TurnoutKind := .dcc (add &&& 0x3FFF) (subAdd &&& 3)

/-- The turnouts when `DCCTurnout::create` has returned. -/
def createIn (turnouts : List Turnout) (id add : UInt16) (subAdd : UInt8) : List Turnout :=
  let new := ⟨id, false, false, data add subAdd, 0⟩
  match Turnout.get turnouts id with
  | some tt =>
    if tt.kind.isDCC then Turnout.modify turnouts id fun tt => { tt with kind := data add subAdd }
    else turnouts.eraseP (fun tt => tt.id == id) ++ [new]
  | none => turnouts ++ [new]

end DCCTurnout

variable {turnouts : List Turnout} {id add : UInt16} {subAdd : UInt8}

theorem Turnout.map_id_modify {f : Turnout → Turnout} (hf : ∀ tt, (f tt).id = tt.id) :
    (Turnout.modify turnouts id f).map Turnout.id = turnouts.map Turnout.id := by
  induction turnouts with
  | nil => rfl
  | cons tt turnouts ih =>
    rw [Turnout.modify]
    split
    · rw [List.map_cons, List.map_cons, hf]
    · rw [List.map_cons, List.map_cons, ih]

theorem Turnout.get_modify {f : Turnout → Turnout} (hf : ∀ tt, (f tt).id = tt.id) :
    Turnout.get (Turnout.modify turnouts id f) id = (Turnout.get turnouts id).map f := by
  induction turnouts with
  | nil => rfl
  | cons tt turnouts ih =>
    rw [Turnout.modify]
    split
    · next hid => simp [Turnout.get, hf, hid]
    · next hid => simpa [Turnout.get, hid] using ih

theorem Turnout.get_append {tt : Turnout} (hnone : Turnout.get turnouts tt.id = none) :
    Turnout.get (turnouts ++ [tt]) tt.id = some tt := by
  rw [Turnout.get, List.find?_append, show turnouts.find? _ = none from hnone]
  simp

theorem Turnout.get_eq_none : Turnout.get turnouts id = none ↔ id ∉ turnouts.map Turnout.id := by
  simp [Turnout.get, List.find?_eq_none]

/-- The turnout is there no more. -/
theorem Turnout.get_eraseP (h : (turnouts.map Turnout.id).Nodup) :
    Turnout.get (turnouts.eraseP fun tt => tt.id == id) id = none := by
  induction turnouts with
  | nil => rfl
  | cons tt turnouts ih =>
    rw [List.map_cons, List.nodup_cons] at h
    by_cases hid : tt.id = id
    · have herase : (tt :: turnouts).eraseP (fun tt => tt.id == id) = turnouts := by simp [hid]
      rw [herase, Turnout.get_eq_none, ← hid]
      exact h.1
    · have herase : (tt :: turnouts).eraseP (fun tt => tt.id == id) =
          tt :: turnouts.eraseP (fun tt => tt.id == id) := by
        simp [hid]
      rw [herase]
      simpa [Turnout.get, hid] using ih h.2

namespace DCCTurnout

/-- The turnout is one of DCC, whatever it was before. -/
theorem get_createIn (h : (turnouts.map Turnout.id).Nodup) :
    ∃ tt, Turnout.get (createIn turnouts id add subAdd) id = some tt ∧ tt.kind = data add subAdd := by
  unfold createIn
  dsimp only
  split
  · next tt hget =>
    split
    · refine ⟨{ tt with kind := data add subAdd }, ?_, rfl⟩
      rw [Turnout.get_modify, hget]
      · rfl
      · exact fun _ => rfl
    · exact ⟨_, @Turnout.get_append _ ⟨id, false, false, data add subAdd, 0⟩ (Turnout.get_eraseP h), rfl⟩
  · next hnone => exact ⟨_, @Turnout.get_append _ ⟨id, false, false, data add subAdd, 0⟩ hnone, rfl⟩

/-- The ids of the turnouts stay different: one that is created again takes the place of the old one. -/
theorem createIn_distinct (h : (turnouts.map Turnout.id).Nodup) :
    ((createIn turnouts id add subAdd).map Turnout.id).Nodup := by
  have hsnoc : ∀ l : List Turnout, (l.map Turnout.id).Nodup → Turnout.get l id = none →
      ((l ++ [(⟨id, false, false, data add subAdd, 0⟩ : Turnout)]).map Turnout.id).Nodup := by
    intro l hl hnone
    rw [List.map_append, List.nodup_append]
    refine ⟨hl, by simp, ?_⟩
    rintro a ha b hb rfl
    obtain rfl : a = id := by simpa using hb
    exact Turnout.get_eq_none.mp hnone ha
  unfold createIn
  dsimp only
  split
  · next tt hget =>
    split
    · rw [Turnout.map_id_modify]
      · exact h
      · exact fun _ => rfl
    · exact hsnoc _ (h.sublist (List.eraseP_sublist.map _)) (Turnout.get_eraseP h)
  · next hnone => exact hsnoc _ h hnone

/-- `DCCTurnout::create` -/
def create (turnouts : Turnouts) (id add : UInt16) (subAdd : UInt8) : Turnouts :=
  ⟨createIn turnouts.list id add subAdd, createIn_distinct turnouts.distinct⟩

theorem get_create {turnouts : Turnouts} : ∃ tt, Turnout.get (create turnouts id add subAdd).list id = some tt ∧
    tt.kind = data add subAdd :=
  get_createIn turnouts.distinct

end DCCTurnout

end CommandStation
