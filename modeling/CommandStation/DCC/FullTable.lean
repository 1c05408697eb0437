import CommandStation.DCC.Run

/-!
# A full loco table

What the operations do when `getSlot` has no slot for them. Most of them look at the pointer they
get and give up; `DCCConsist::parse` and the decoder do not look.
-/

namespace CommandStation

open CommandStation.Lib LocoTable DCCConsist

variable {F : Fault → Prop} {s s' : Station} {xs ys : List Addr} {r : Bool}

/-- The operation gave up: it says so or did nothing, and the slots in use are as they were. -/
structure GaveUp (s : Station) (r : Bool) (s' : Station) : Prop where
  told : r = false ∨ s' = s
  slots : ∀ b ∈ s.locos.slots, b ∈ s'.locos.slots ∧ s'.locos.mem b = s.locos.mem b

/-- The operations that ask for one slot. -/
theorem gaveUp_of_answered (h : Lists s.locos xs ys) {locoId : UInt16}
    (hs' : Answered s xs locoId (!r) s') (hno : ¬ Supplied s locoId) : GaveUp s r s' := by
  have hno' : ¬ (locoId ≠ 0 ∧ Room s.locos xs [locoId]) := by
    rw [← h.slots_eq]
    exact hno
  obtain ⟨hfailed, queue, rfl⟩ := hs'.refused hno'
  exact ⟨.inl (by simpa using hfailed), fun b hb => ⟨hb, rfl⟩⟩

/-- An operation that looks at its slots gives up if it is not served. -/
theorem op_gaveUp (hs : Sound s) (op : Op) (hchecked : op.unchecked = false) :
    wp F op.exec (fun r s' => ¬ op.Served s → GaveUp s r s') s := by
  obtain ⟨xs, ys, h, hc⟩ := hs.table
  -- operations that ask for no slot are served
  have hserved : op.Served s → wp F op.exec (fun r s' => ¬ op.Served s → GaveUp s r s') s := by
    intro hserved
    refine wp_mono (op_sound hs op fun hno => by rw [hchecked] at hno; cases hno) ?_
    exact fun r s' _ hno => absurd hserved hno
  cases op with
  | setThrottle cab tSpeed tDirection now =>
    refine wp_mono (DCC.setThrottle_spec hs h hc cab tSpeed tDirection now) ?_
    rintro r s' ⟨-, hs'⟩ hno
    obtain ⟨hloco, hno⟩ := Classical.not_imp.mp hno
    exact gaveUp_of_answered h (hs' hloco) hno
  | setFn cab functionNumber on =>
    refine wp_mono (DCC.setFn_spec hs h hc cab functionNumber on) ?_
    rintro r s' ⟨-, hs'⟩ hno
    obtain ⟨hvalid, hno⟩ := Classical.not_imp.mp hno
    obtain ⟨hlow, hno⟩ := Classical.not_imp.mp hno
    exact gaveUp_of_answered h (hs' hvalid hlow) hno
  | setDCFreq cab freq =>
    simp only [Op.exec, wp_bind]
    refine wp_mono (DCC.setDCFreq_spec hs h hc cab freq) ?_
    rintro r s' ⟨-, hs'⟩ hno
    obtain ⟨hvalid, hno⟩ := Classical.not_imp.mp hno
    rw [Supplied, RoomFor, h.slots_eq] at hno
    obtain rfl := hs' hvalid hno
    exact ⟨.inr rfl, fun b hb => ⟨hb, rfl⟩⟩
  | setMomentum locoId accelerating decelerating =>
    refine wp_mono (DCC.setMomentum_spec hs h hc locoId accelerating decelerating) ?_
    rintro r s' ⟨-, hs'⟩ hno
    obtain ⟨hpos, hno⟩ := Classical.not_imp.mp hno
    obtain ⟨hvalid, hno⟩ := Classical.not_imp.mp hno
    obtain ⟨hshort, hno⟩ := Classical.not_imp.mp hno
    exact gaveUp_of_answered h (hs' hpos hvalid hshort) hno
  | addLocoToConsist consistId locoId reversed =>
    refine wp_mono (addLocoToConsist_sound hs h hc consistId locoId reversed) ?_
    rintro r s' ⟨-, hs'⟩ hno
    obtain ⟨hvalid, hno⟩ := Classical.not_imp.mp hno
    rw [RoomFor, h.slots_eq] at hno
    obtain ⟨hr, hsame⟩ := (hs' hvalid).refused hno
    rw [← h.slots_eq] at hsame
    exact ⟨.inl hr, hsame⟩
  | addThrottleLoco client throttleChar lengthChar locoid =>
    simp only [Op.exec, wp_bind]
    refine wp_mono (WiThrottle.addLoco_spec hs h hc client throttleChar lengthChar locoid) ?_
    rintro r s' ⟨-, hs'⟩ hno
    obtain ⟨haccepted, hno⟩ := Classical.not_imp.mp hno
    exact gaveUp_of_answered h (hs' haccepted) hno
  | parseConsist ps => cases hchecked
  | decode packet now => cases hchecked
  | _ => exact hserved trivial

/-- `parse` and the decoder only come to an end when they are served. -/
theorem op_unchecked_served (hs : Sound s) (op : Op) (hunchecked : op.unchecked = true) :
    wp (fun _ => True) op.exec (fun _ _ => op.Served s) s := by
  cases op with
  | parseConsist ps =>
    simp only [Op.exec, wp_bind]
    exact wp_mono (parseConsist_sound hs ps fun _ => trivial) fun _ s' hs' => hs'.2
  | decode packet now =>
    exact wp_mono (DCCDecoder.parse_grown hs packet now fun _ => trivial) fun _ s' hs' => hs'.2
  | _ => cases hunchecked

/-- **A full table**: in every state, an operation comes to an end and gives up if it is not given
its slots, exactly when it looks at its slots or is given them. -/
theorem full_table_iff (hs : Reachable s) (op : Op) :
    (∃ r s', op.exec s = .ok (r, s') ∧ (¬ op.Served s → GaveUp s r s')) ↔
      (op.unchecked = true → op.Served s) := by
  have hsound := hs.sound
  constructor
  · rintro ⟨r, s', hexec, -⟩ hunchecked
    exact wp_iff_forall.mp (op_unchecked_served hsound op hunchecked) r s' hexec
  · intro hserved
    rw [← wp_iff_exists]
    cases hunchecked : op.unchecked with
    | true =>
      have hop := hserved hunchecked
      refine wp_mono (op_sound hsound op fun _ hno => absurd hop hno) ?_
      exact fun r s' _ hno => absurd hop hno
    | false => exact op_gaveUp hsound op hunchecked

/-- A small board with its eight locos. -/
def eightLocos : List Op := (List.range 8).map fun i => .setFn (i + 1) 0 true

/-- A throttle command for a ninth loco is refused. -/
theorem full_table_iff_throttle :
    ∃ s, runProg Op.exec eightLocos (Station.init .uno 8 []) = .ok ((), s) ∧
      ∃ r s', Op.exec (.setThrottle 9 50 true 0) s = .ok (r, s') ∧ GaveUp s r s' := by
  obtain ⟨⟨⟩, s, hrun, hfull⟩ := (wp_iff_exists (m := runProg Op.exec eightLocos)
    (Q := fun _ s => ¬ (Op.setThrottle 9 50 true 0).Served s)
    (s := Station.init .uno 8 [])).mp (by decide +kernel)
  have hreach : Reachable s := ⟨.uno, 8, [], eightLocos, hrun⟩
  obtain ⟨r, s', hexec, hgave⟩ :=
    (full_table_iff hreach (.setThrottle 9 50 true 0)).mpr fun hno => by cases hno
  exact ⟨s, hrun, r, s', hexec, hgave hfull⟩

/-- A consist of loco 3 and a ninth loco makes `parse` write through a null pointer. -/
theorem full_table_fault :
    ∃ s, Reachable s ∧ Op.exec (.parseConsist [3, 9]) s = .error .nullPointer := by
  obtain ⟨⟨⟩, s, hrun, hfault⟩ := (wp_iff_exists (m := runProg Op.exec eightLocos)
    (Q := fun _ s => wp (· = .nullPointer) (Op.exec (.parseConsist [3, 9])) (fun _ _ => False) s)
    (s := Station.init .uno 8 [])).mp (by decide +kernel)
  exact ⟨s, ⟨.uno, 8, [], eightLocos, hrun⟩, wp_iff_error.mp hfault⟩

end CommandStation
