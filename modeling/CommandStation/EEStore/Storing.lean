import CommandStation.EEStore.Basic

/-!
# What is stored

`store` writes the records of all objects behind the header, one behind the other. `image` are the
bytes that it writes, as long as they fit into the EEPROM.
-/

namespace CommandStation.EEStore

open Lib

variable {s s' : St} {bs : List UInt8} {rfu : UInt16 → Bool} {T : List Turnout}
  {S : List SensorData} {O : List Output}

/-! ## Records -/

/-- The record of a turnout. LCN turnouts have none. -/
def Turnout.record (rfu : UInt16 → Bool) (tt : Turnout) : List UInt8 :=
  let data := turnoutData.encode (Turnout.data (rfu tt.id) tt)
  match tt.kind with
  | .servo vpin closedPosition thrownPosition profile =>
    data ++ servoTurnoutData.encode ⟨vpin, .ofNat 12 closedPosition.toNat,
      .ofNat 12 thrownPosition.toNat, profile⟩
  | .dcc address subAddress =>
    data ++ dccTurnoutData.encode ⟨.ofNat 14 address.toNat, .ofNat 2 subAddress.toNat⟩
  | .vpin vpin => data ++ vpinTurnoutData.encode ⟨vpin⟩
  | .lcn => []

/-- The records of all objects. -/
def image (rfu : UInt16 → Bool) (T : List Turnout) (S : List SensorData) (O : List Output) :
    List UInt8 :=
  T.flatMap (Turnout.record rfu) ++ S.flatMap sensorData.encode ++
    O.flatMap fun tt => outputData.encode tt.data

/-- The length of a record of a turnout. -/
def Turnout.size (tt : Turnout) : Nat :=
  match tt.kind with
  | .servo .. => 9
  | .dcc .. => 5
  | .vpin _ => 5
  | .lcn => 0

@[simp] theorem Turnout.length_record (tt : Turnout) : (Turnout.record rfu tt).length = Turnout.size tt := by
  unfold Turnout.record Turnout.size
  cases tt.kind <;> simp

/-! ## One record -/

/-- The records `bs` have been written. -/
structure Written (bs : List UInt8) (s : St) : Prop where
  lies : s.eeprom.Lies eeStoreData.width bs
  address : s.eeAddress = eeStoreData.width + bs.length

/-- Only the EEPROM up to the new address, the address and the header are different. -/
structure SameObjects (s s' : St) : Prop where
  address : s.eeAddress ≤ s'.eeAddress
  frame : ∀ i, s'.eeAddress ≤ i → s'.eeprom.cell i = s.eeprom.cell i
  size : s'.eeprom.size = s.eeprom.size
  turnouts : s'.turnouts = s.turnouts
  sensors : s'.sensors = s.sensors
  outputs : s'.outputs = s.outputs

theorem SameObjects.trans {s'' : St} (h : SameObjects s s') (h' : SameObjects s' s'') :
    SameObjects s s'' :=
  ⟨Nat.le_trans h.address h'.address,
    fun i hi => (h'.frame i hi).trans (h.frame i (Nat.le_trans h'.address hi)),
    h'.size.trans h.size, h'.turnouts.trans h.turnouts, h'.sensors.trans h.sensors,
    h'.outputs.trans h.outputs⟩

theorem SameObjects.refl (s : St) : SameObjects s s :=
  ⟨Nat.le_refl _, fun _ _ => rfl, rfl, rfl, rfl, rfl⟩

theorem Written.append {α : Type} {L : ByteLayout α} {x : α} (h : Written bs s)
    (hfit : eeStoreData.width + bs.length + L.width ≤ s.eeprom.size) :
    Written (bs ++ L.encode x) (put L x s) := by
  refine ⟨?_, ?_⟩
  · show (s.eeprom.write s.eeAddress (L.encode x)).Lies _ _
    rw [ByteStore.lies_append, h.address]
    refine ⟨h.lies.write (.inl (Nat.le_refl _)), ByteStore.lies_write ?_⟩
    rw [L.length_encode]
    exact hfit
  · show s.eeAddress + L.width = _
    rw [h.address, List.length_append, L.length_encode, Nat.add_assoc]

theorem sameObjects_put {α : Type} (L : ByteLayout α) (x : α) (s : St) :
    SameObjects s (put L x s) := by
  refine ⟨Nat.le_add_right _ _, ?_, ByteStore.size_write, rfl, rfl, rfl⟩
  intro i hi
  apply ByteStore.cell_write_frame
  rw [L.length_encode]
  exact .inr hi

/-- A record of two parts. -/
theorem Written.append₂ {α β : Type} {L : ByteLayout α} {M : ByteLayout β} {x : α} {y : β}
    (h : Written bs s)
    (hfit : eeStoreData.width + bs.length + (L.width + M.width) ≤ s.eeprom.size) :
    Written (bs ++ (L.encode x ++ M.encode y)) (put M y (put L x s)) := by
  rw [← List.append_assoc]
  have hfirst : Written (bs ++ L.encode x) (put L x s) := h.append (by omega)
  refine hfirst.append ?_
  rw [(sameObjects_put L x s).size, List.length_append, L.length_encode]
  omega

/-! ## Turnouts -/

theorem Written.record {tt : Turnout} (h : Written bs s)
    (hfit : eeStoreData.width + bs.length + Turnout.size tt ≤ s.eeprom.size) :
    Written (bs ++ Turnout.record rfu tt) (Turnout.save (rfu tt.id) tt s) := by
  unfold Turnout.size at hfit
  unfold Turnout.save Turnout.record
  cases hkind : tt.kind <;> rw [hkind] at hfit <;> dsimp only at hfit ⊢
  · exact h.append₂ hfit
  · exact h.append₂ hfit
  · exact h.append₂ hfit
  · rw [List.append_nil]
    exact h

theorem sameObjects_save (r : Bool) (tt : Turnout) (s : St) :
    SameObjects s (Turnout.save r tt s) ∧ (Turnout.save r tt s).eeStore = s.eeStore := by
  unfold Turnout.save
  cases tt.kind with
  | servo _ _ _ _ => exact ⟨(sameObjects_put _ _ _).trans (sameObjects_put _ _ _), rfl⟩
  | dcc _ _ => exact ⟨(sameObjects_put _ _ _).trans (sameObjects_put _ _ _), rfl⟩
  | vpin _ => exact ⟨(sameObjects_put _ _ _).trans (sameObjects_put _ _ _), rfl⟩
  | lcn => exact ⟨.refl s, rfl⟩

theorem add_ofNat_succ (c : UInt16) (n : Nat) : c + .ofNat (n + 1) = c + 1 + .ofNat n := by
  rw [UInt16.ofNat_add, UInt16.add_comm (.ofNat n), ← UInt16.add_assoc]
  rfl

/-- The turnouts are stored one behind the other, each with the part for its kind. -/
theorem Turnout.foldl_storeTurnout (h : Written bs s)
    (hfit : eeStoreData.width + bs.length + (T.flatMap (Turnout.record rfu)).length ≤ s.eeprom.size) :
    let s' := T.foldl (Turnout.storeTurnout rfu) s
    Written (bs ++ T.flatMap (Turnout.record rfu)) s' ∧ SameObjects s s' ∧
      s'.eeStore = { s.eeStore with nTurnouts := s.eeStore.nTurnouts + .ofNat T.length } := by
  induction T generalizing s bs with
  | nil =>
    refine ⟨by simpa using h, .refl s, ?_⟩
    show s.eeStore = { s.eeStore with nTurnouts := s.eeStore.nTurnouts + 0 }
    rw [UInt16.add_zero]
  | cons tt T ih =>
    rw [List.flatMap_cons, List.length_append, Turnout.length_record] at hfit
    have hwritten : Written (bs ++ Turnout.record rfu tt) (Turnout.storeTurnout rfu s tt) := by
      have hrecord : Written (bs ++ Turnout.record rfu tt) (Turnout.save (rfu tt.id) tt s) :=
        h.record (by omega)
      exact ⟨hrecord.lies, hrecord.address⟩
    obtain ⟨hsame, heeStore⟩ := sameObjects_save (rfu tt.id) tt s
    have hsame' : SameObjects s (Turnout.storeTurnout rfu s tt) :=
      ⟨hsame.address, hsame.frame, hsame.size, hsame.turnouts, hsame.sensors, hsame.outputs⟩
    obtain ⟨hrest, hsameRest, hcount⟩ := ih hwritten (by
      rw [hsame'.size, List.length_append, Turnout.length_record]
      omega)
    refine ⟨?_, hsame'.trans hsameRest, ?_⟩
    · rw [List.flatMap_cons, ← List.append_assoc]
      exact hrest
    · rw [List.foldl_cons, hcount, List.length_cons, add_ofNat_succ]
      show ({ (Turnout.save (rfu tt.id) tt s).eeStore with nTurnouts :=
        (Turnout.save (rfu tt.id) tt s).eeStore.nTurnouts + 1 + .ofNat T.length } : EEStoreData) = _
      rw [heeStore]

/-! ## Sensors and outputs -/

/-- The sensors are stored one behind the other. -/
theorem Sensor.foldl_storeSensor (h : Written bs s)
    (hfit : eeStoreData.width + bs.length + (S.flatMap sensorData.encode).length ≤ s.eeprom.size) :
    let s' := S.foldl Sensor.storeSensor s
    Written (bs ++ S.flatMap sensorData.encode) s' ∧ SameObjects s s' ∧
      s'.eeStore = { s.eeStore with nSensors := s.eeStore.nSensors + .ofNat S.length } := by
  induction S generalizing s bs with
  | nil =>
    refine ⟨by simpa using h, .refl s, ?_⟩
    show s.eeStore = { s.eeStore with nSensors := s.eeStore.nSensors + 0 }
    rw [UInt16.add_zero]
  | cons tt S ih =>
    rw [List.flatMap_cons, List.length_append, ByteLayout.length_encode] at hfit
    have hrecord : Written (bs ++ sensorData.encode tt) (put sensorData tt s) := h.append (by omega)
    have hwritten : Written (bs ++ sensorData.encode tt) (Sensor.storeSensor s tt) :=
      ⟨hrecord.lies, hrecord.address⟩
    have hsame : SameObjects s (Sensor.storeSensor s tt) :=
      let hput := sameObjects_put sensorData tt s
      ⟨hput.address, hput.frame, hput.size, rfl, rfl, rfl⟩
    obtain ⟨hrest, hsameRest, hcount⟩ := ih hwritten (by
      rw [hsame.size, List.length_append, ByteLayout.length_encode]
      omega)
    refine ⟨?_, hsame.trans hsameRest, ?_⟩
    · rw [List.flatMap_cons, ← List.append_assoc]
      exact hrest
    · rw [List.foldl_cons, hcount, List.length_cons, add_ofNat_succ]
      rfl

/-- The outputs are stored one behind the other, behind what was written before them. -/
theorem Output.storeOutputs_eq (h : Written bs s) (hfit : eeStoreData.width + bs.length +
      (O.flatMap fun tt => outputData.encode tt.data).length ≤ s.eeprom.size) :
    let r := Output.storeOutputs O s
    Written (bs ++ O.flatMap fun tt => outputData.encode tt.data) r.1 ∧ SameObjects s r.1 ∧
      r.1.eeStore = { s.eeStore with nOutputs := s.eeStore.nOutputs + .ofNat O.length } := by
  induction O generalizing s bs with
  | nil =>
    refine ⟨?_, .refl s, ?_⟩
    · show Written (bs ++ []) s
      rw [List.append_nil]
      exact h
    show s.eeStore = { s.eeStore with nOutputs := s.eeStore.nOutputs + 0 }
    rw [UInt16.add_zero]
  | cons tt O ih =>
    rw [List.flatMap_cons, List.length_append, ByteLayout.length_encode] at hfit
    have hrecord : Written (bs ++ outputData.encode tt.data) (put outputData tt.data s) :=
      h.append (by omega)
    have hwritten : Written (bs ++ outputData.encode tt.data) (Output.storeOutput s tt).1 :=
      ⟨hrecord.lies, hrecord.address⟩
    have hsame : SameObjects s (Output.storeOutput s tt).1 :=
      let hput := sameObjects_put outputData tt.data s
      ⟨hput.address, hput.frame, hput.size, rfl, rfl, rfl⟩
    obtain ⟨hrest, hsameRest, hcount⟩ := ih hwritten (by
      rw [hsame.size, List.length_append, ByteLayout.length_encode]
      omega)
    refine ⟨?_, hsame.trans hsameRest, ?_⟩
    · rw [List.flatMap_cons, ← List.append_assoc]
      exact hrest
    · refine hcount.trans ?_
      rw [List.length_cons, add_ofNat_succ]
      rfl

/-! ## The whole store -/

/-- The numbers of objects fit into the header, and their records into an EEPROM of this size. -/
def Fits (size : Nat) (T : List Turnout) (S : List SensorData) (O : List Output) : Prop :=
  (T.length < 65536 ∧ S.length < 65536 ∧ O.length < 65536) ∧
    eeStoreData.width + (image (fun _ => false) T S O).length ≤ size

/-- What `store` leaves in the EEPROM: a header with the numbers of objects, the records behind it, and
what was behind them before. -/
structure Stored (rfu : UInt16 → Bool) (s : St) (eeprom : ByteStore) : Prop where
  header : eeprom.Lies 0 (eeStoreData.encode ⟨s.eeStore.id, .ofNat s.turnouts.length,
    .ofNat s.sensors.length, .ofNat s.outputs.length⟩)
  records : eeprom.Lies eeStoreData.width (image rfu s.turnouts s.sensors s.outputs)
  frame : ∀ i, eeStoreData.width + (image rfu s.turnouts s.sensors s.outputs).length ≤ i →
    eeprom.cell i = s.eeprom.cell i

theorem length_image (rfu rfu' : UInt16 → Bool) :
    (image rfu T S O).length = (image rfu' T S O).length := by
  have hturnouts : (T.flatMap (Turnout.record rfu)).length =
      (T.flatMap (Turnout.record rfu')).length := by
    simp only [List.length_flatMap, Turnout.length_record]
  simp only [image, List.length_append, hturnouts]

theorem Turnout.store_spec (h : Written [] s) (hfit : eeStoreData.width +
      (s.turnouts.flatMap (Turnout.record rfu)).length ≤ s.eeprom.size) :
    Written (s.turnouts.flatMap (Turnout.record rfu)) (Turnout.store rfu s) ∧
      SameObjects s (Turnout.store rfu s) ∧
      (Turnout.store rfu s).eeStore = { s.eeStore with nTurnouts := .ofNat s.turnouts.length } := by
  have hstart : Written [] ({ s with eeStore.nTurnouts := 0 } : St) := ⟨h.lies, h.address⟩
  obtain ⟨hwritten, hsame, hcount⟩ := Turnout.foldl_storeTurnout hstart hfit
  refine ⟨hwritten, ⟨hsame.address, hsame.frame, hsame.size, hsame.turnouts, hsame.sensors,
    hsame.outputs⟩, hcount.trans ?_⟩
  rw [UInt16.zero_add]

theorem Sensor.store_spec (h : Written bs s) (hfit : eeStoreData.width + bs.length +
      (s.sensors.flatMap sensorData.encode).length ≤ s.eeprom.size) :
    Written (bs ++ s.sensors.flatMap sensorData.encode) (Sensor.store s) ∧
      SameObjects s (Sensor.store s) ∧
      (Sensor.store s).eeStore = { s.eeStore with nSensors := .ofNat s.sensors.length } := by
  have hstart : Written bs ({ s with eeStore.nSensors := 0 } : St) := ⟨h.lies, h.address⟩
  obtain ⟨hwritten, hsame, hcount⟩ := Sensor.foldl_storeSensor hstart hfit
  refine ⟨hwritten, ⟨hsame.address, hsame.frame, hsame.size, hsame.turnouts, hsame.sensors,
    hsame.outputs⟩, hcount.trans ?_⟩
  rw [UInt16.zero_add]

theorem Output.store_spec (h : Written bs s) (hfit : eeStoreData.width + bs.length +
      (s.outputs.flatMap fun tt => outputData.encode tt.data).length ≤ s.eeprom.size) :
    Written (bs ++ s.outputs.flatMap fun tt => outputData.encode tt.data) (Output.store s) ∧
      (∀ i, (Output.store s).eeAddress ≤ i → (Output.store s).eeprom.cell i = s.eeprom.cell i) ∧
      (Output.store s).eeprom.size = s.eeprom.size ∧
      (Output.store s).eeStore = { s.eeStore with nOutputs := .ofNat s.outputs.length } := by
  have hstart : Written bs ({ s with eeStore.nOutputs := 0 } : St) := ⟨h.lies, h.address⟩
  obtain ⟨hwritten, hsame, hcount⟩ := Output.storeOutputs_eq hstart hfit
  refine ⟨⟨hwritten.lies, hwritten.address⟩, hsame.frame, hsame.size, hcount.trans ?_⟩
  rw [UInt16.zero_add]

theorem lies_putHeader (h : Written bs s) (hfit : eeStoreData.width ≤ s.eeprom.size) :
    (putHeader s).eeprom.Lies 0 (eeStoreData.encode s.eeStore) ∧
      (putHeader s).eeprom.Lies eeStoreData.width bs := by
  refine ⟨ByteStore.lies_write ?_, h.lies.write (.inr ?_)⟩
  · rw [ByteLayout.length_encode]
    omega
  · rw [ByteLayout.length_encode]
    omega

/-- **The whole store.** -/
theorem stored_store (hfit : Fits s.eeprom.size s.turnouts s.sensors s.outputs) :
    Stored rfu s (store rfu s).eeprom := by
  obtain ⟨-, hfit⟩ := hfit
  rw [length_image (fun _ => false) rfu, image, List.length_append, List.length_append] at hfit
  have hstart : Written [] (reset s) := ⟨rfl, rfl⟩
  obtain ⟨hT, hsameT, hcountT⟩ := @Turnout.store_spec (reset s) rfu hstart (by
    show eeStoreData.width + (s.turnouts.flatMap (Turnout.record rfu)).length ≤ s.eeprom.size
    omega)
  unfold store
  change Written (s.turnouts.flatMap (Turnout.record rfu)) _ at hT
  change _ = { s.eeStore with nTurnouts := .ofNat s.turnouts.length } at hcountT
  have hframeT : ∀ i, (Turnout.store rfu (reset s)).eeAddress ≤ i →
      (Turnout.store rfu (reset s)).eeprom.cell i = s.eeprom.cell i := hsameT.frame
  have hsizeT : (Turnout.store rfu (reset s)).eeprom.size = s.eeprom.size := hsameT.size
  have hsensorsT : (Turnout.store rfu (reset s)).sensors = s.sensors := hsameT.sensors
  have houtputsT : (Turnout.store rfu (reset s)).outputs = s.outputs := hsameT.outputs
  generalize Turnout.store rfu (reset s) = s₁ at *
  -- the sensors
  obtain ⟨hS, hsameS, hcountS⟩ := Sensor.store_spec hT (by
    rw [hsizeT, hsensorsT]
    omega)
  rw [hsensorsT] at hS hcountS
  generalize Sensor.store s₁ = s₂ at *
  -- the outputs
  have houtputs : s₂.outputs = s.outputs := hsameS.outputs.trans houtputsT
  have hsize : s₂.eeprom.size = s.eeprom.size := hsameS.size.trans hsizeT
  obtain ⟨hO, hframeO, hsizeO, hcountO⟩ := Output.store_spec hS (by
    rw [hsize, houtputs, List.length_append]
    omega)
  rw [houtputs] at hO hcountO
  generalize Output.store s₂ = s₃ at *
  obtain ⟨hheader, hrecords⟩ := lies_putHeader hO (by
    rw [hsizeO, hsize]
    omega)
  rw [hcountO, hcountS, hcountT] at hheader
  refine ⟨hheader, hrecords, ?_⟩
  intro i hi
  have hlength : (eeStoreData.encode s₃.eeStore).length = eeStoreData.width := eeStoreData.length_encode
  have haddress : s₃.eeAddress ≤ i := by
    rw [hO.address]
    exact hi
  have hbelow : s₂.eeAddress ≤ i := by
    rw [hS.address]
    rw [hO.address, List.length_append] at haddress
    omega
  calc (putHeader s₃).eeprom.cell i
      = s₃.eeprom.cell i := ByteStore.cell_write_frame (.inr (by rw [hlength]; omega))
    _ = s₂.eeprom.cell i := hframeO i haddress
    _ = s₁.eeprom.cell i := hsameS.frame i hbelow
    _ = s.eeprom.cell i := hframeT i (Nat.le_trans hsameS.address hbelow)

end CommandStation.EEStore
