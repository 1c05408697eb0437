import CommandStation.EEStore.Storing

/-!
# After a restart

`init` reads as many records as the header tells. The turnouts are the first of them: `store` counts
all of them, but LCN turnouts have no record, so for each of these what lies behind the records of
the turnouts is read as one more. A DCC turnout is thrown after a restart, whatever its record says.
-/

namespace CommandStation.EEStore

open Lib

variable {s s' : St} {rfu : UInt16 → Bool} {T : List Turnout} {S : List SensorData} {O : List Output}
  {size : Nat}

/-! ## Turnouts -/

/-- What a turnout is: its id, its type with the parameters, and its state. -/
def Turnout.entry (tt : Turnout) : UInt16 × TurnoutKind × Bool := (tt.id, tt.kind, tt.closed)

/-- What is read from the record of a turnout. -/
def Turnout.reloaded (tt : Turnout) : UInt16 × TurnoutKind × Bool :=
  match tt.kind with
  | .dcc .. => (tt.id, tt.kind, false)
  | _ => (tt.id, tt.kind, tt.closed)

theorem modify_length_append {α : Type} (f : α → α) (l : List α) (x : α) :
    (l ++ [x]).modify l.length f = l ++ [f x] := by
  induction l with
  | nil => rfl
  | cons y l ih => exact congrArg (y :: ·) ih

/-- A new turnout gets the address of its record. -/
theorem Turnout.setEepromAddress_add (a : Nat) (tt : Turnout) (s : St) :
    Turnout.setEepromAddress a (s.turnouts.length, Turnout.add tt s) =
      { s with turnouts := s.turnouts ++ [{ tt with eepromAddress := .ofNat a }] } := by
  unfold Turnout.setEepromAddress Turnout.add
  dsimp only
  rw [modify_length_append]

theorem Turnout.create_new {id : UInt16} (hnew : id ∉ s.turnouts.map CommandStation.Turnout.id)
    (kind : TurnoutKind) (closed : Bool) : Turnout.create id kind closed s =
      (s.turnouts.length, Turnout.add ⟨id, closed, false, kind, 0⟩ s) := by
  have hnone : (s.turnouts.findIdx? fun tt => tt.id == id) = none := by
    rw [List.findIdx?_eq_none_iff]
    intro tt htt
    rw [beq_eq_false_iff_ne]
    exact fun heq => hnew (heq ▸ List.mem_map_of_mem htt)
  unfold Turnout.create
  rw [hnone]

/-- The fields of a servo and of a DCC turnout come back from their bits. -/
theorem ofNat_bits {x : UInt16} {w : Nat} (hx : x.toNat < 2 ^ w) :
    UInt16.ofNat (BitVec.ofNat w x.toNat).toNat = x := by
  rw [BitVec.toNat_ofNat, Nat.mod_eq_of_lt hx, UInt16.ofNat_toNat]

/-- A record of a turnout is read. -/
theorem Turnout.loadTurnout_record {tt : Turnout} (hlcn : tt.kind ≠ .lcn)
    (hnarrow : narrow tt.kind = tt.kind)
    (h : s.eeprom.Lies s.eeAddress (Turnout.record rfu tt))
    (hnew : tt.id ∉ s.turnouts.map CommandStation.Turnout.id) :
    ∃ t : Turnout, Turnout.entry t = Turnout.reloaded tt ∧ Turnout.loadTurnout s =
      { s with eeAddress := s.eeAddress + Turnout.size tt, turnouts := s.turnouts ++ [t] } := by
  unfold Turnout.record at h
  unfold Turnout.loadTurnout Turnout.reloaded Turnout.size
  cases hkind : tt.kind with
  | lcn => exact absurd hkind hlcn
  | servo vpin closedPosition thrownPosition profile =>
    rw [hkind] at h hnarrow
    dsimp only at h
    rw [ByteStore.lies_append, ByteLayout.length_encode] at h
    have hdata : get turnoutData s = Turnout.data (rfu tt.id) tt := turnoutData.get_of_lies h.1
    have hservo := servoTurnoutData.get_of_lies h.2
    have htype : (Turnout.data (rfu tt.id) tt).turnoutType.toNat = 2 := by
      rw [Turnout.data, hkind]
      rfl
    -- the record has twelve bits for a position, and the positions fit
    obtain ⟨hclosed, hthrown⟩ : closedPosition % 4096 = closedPosition ∧
        thrownPosition % 4096 = thrownPosition := by
      simpa [narrow] using hnarrow
    have hlt : ∀ x : UInt16, x % 4096 = x → x.toNat < 2 ^ 12 := by
      intro x hx
      rw [← hx, UInt16.toNat_mod]
      exact Nat.mod_lt _ (by decide)
    have hcreate := @Turnout.create_new (advance servoTurnoutData.width (advance turnoutData.width s))
      tt.id hnew (.servo vpin closedPosition thrownPosition profile) tt.closed
    simp only [hdata, htype]
    unfold ServoTurnout.load ServoTurnout.create
    have hget : get servoTurnoutData (advance turnoutData.width s) = _ := hservo
    rw [hget]
    dsimp only
    rw [ofNat_bits (hlt _ hclosed), ofNat_bits (hlt _ hthrown), hnarrow]
    refine ⟨_, ?_, (congrArg _ hcreate).trans (Turnout.setEepromAddress_add _ _ _)⟩
    rfl
  | dcc address subAddress =>
    rw [hkind] at h hnarrow
    dsimp only at h
    rw [ByteStore.lies_append, ByteLayout.length_encode] at h
    have hdata : get turnoutData s = Turnout.data (rfu tt.id) tt := turnoutData.get_of_lies h.1
    have hdcc := dccTurnoutData.get_of_lies h.2
    have htype : (Turnout.data (rfu tt.id) tt).turnoutType.toNat = 1 := by
      rw [Turnout.data, hkind]
      rfl
    -- fourteen bits for the address and two for the subaddress
    obtain ⟨haddress, hsub⟩ : address % 16384 = address ∧ subAddress % 4 = subAddress := by
      simpa [narrow] using hnarrow
    have haddress' : address.toNat < 2 ^ 14 := by
      rw [← haddress, UInt16.toNat_mod]
      exact Nat.mod_lt _ (by decide)
    have hsub' : subAddress.toNat < 2 ^ 2 := by
      rw [← hsub, UInt8.toNat_mod]
      exact Nat.mod_lt _ (by decide)
    simp only [hdata, htype]
    unfold DCCTurnout.load
    have hget : get dccTurnoutData (advance turnoutData.width s) = _ := hdcc
    rw [hget]
    dsimp only
    rw [ofNat_bits haddress', BitVec.toNat_ofNat, Nat.mod_eq_of_lt hsub', UInt8.ofNat_toNat]
    refine ⟨_, ?_, Turnout.setEepromAddress_add _ _ (advance dccTurnoutData.width
      (advance turnoutData.width s))⟩
    rfl
  | vpin vpin =>
    rw [hkind] at h
    dsimp only at h
    rw [ByteStore.lies_append, ByteLayout.length_encode] at h
    have hdata : get turnoutData s = Turnout.data (rfu tt.id) tt := turnoutData.get_of_lies h.1
    have hvpin := vpinTurnoutData.get_of_lies h.2
    have htype : (Turnout.data (rfu tt.id) tt).turnoutType.toNat = 3 := by
      rw [Turnout.data, hkind]
      rfl
    simp only [hdata, htype]
    unfold VpinTurnout.load
    have hget : get vpinTurnoutData (advance turnoutData.width s) = _ := hvpin
    rw [hget]
    refine ⟨_, ?_, Turnout.setEepromAddress_add _ _ (advance vpinTurnoutData.width
      (advance turnoutData.width s))⟩
    rfl

/-- All records of turnouts are read. -/
theorem Turnout.load_records (hlcn : ∀ tt ∈ T, tt.kind ≠ .lcn ∧ narrow tt.kind = tt.kind)
    (hids : (s.turnouts.map CommandStation.Turnout.id ++ T.map CommandStation.Turnout.id).Nodup)
    (h : s.eeprom.Lies s.eeAddress (T.flatMap (Turnout.record rfu))) :
    ∃ R : List Turnout, R.map Turnout.entry = T.map Turnout.reloaded ∧
      Turnout.loadTurnout^[T.length] s =
        { s with
          eeAddress := s.eeAddress + (T.flatMap (Turnout.record rfu)).length
          turnouts := s.turnouts ++ R } := by
  induction T generalizing s with
  | nil =>
    refine ⟨[], rfl, ?_⟩
    rw [List.append_nil]
    rfl
  | cons tt T ih =>
    rw [List.flatMap_cons, ByteStore.lies_append, Turnout.length_record] at h
    rw [List.map_cons] at hids
    obtain ⟨hfirst, hrest⟩ := List.forall_mem_cons.mp hlcn
    have hnew : tt.id ∉ s.turnouts.map CommandStation.Turnout.id := by
      intro hmem
      exact (List.nodup_append.mp hids).2.2 _ hmem _ List.mem_cons_self rfl
    obtain ⟨t, ht, hload⟩ := Turnout.loadTurnout_record hfirst.1 hfirst.2 h.1 hnew
    have hid : t.id = tt.id := by
      have heq := congrArg Prod.fst ht
      unfold Turnout.reloaded at heq
      split at heq <;> exact heq
    have hids' : ((s.turnouts ++ [t]).map CommandStation.Turnout.id ++
        T.map CommandStation.Turnout.id).Nodup := by
      simpa [hid] using hids
    rw [List.length_cons, Function.iterate_succ_apply, hload]
    obtain ⟨R, hR, hrun⟩ := @ih { s with
      eeAddress := s.eeAddress + Turnout.size tt, turnouts := s.turnouts ++ [t] } hrest hids' h.2
    refine ⟨t :: R, by rw [List.map_cons, List.map_cons, ht, hR], hrun.trans ?_⟩
    rw [List.flatMap_cons, List.length_append, Turnout.length_record, Nat.add_assoc]
    simp only [List.append_assoc, List.singleton_append]

/-! ## Sensors -/

/-- A pin that a sensor can have. -/
def Sensor.HasPin (x : SensorData) : Prop := ¬ (x.pin > VPIN_MAX ∧ x.pin ≠ VPIN_NONE)

instance (x : SensorData) : Decidable (Sensor.HasPin x) := inferInstanceAs (Decidable (¬ _))

theorem Sensor.remove_new {n : Int16} (hnew : n ∉ s.sensors.map SensorData.snum) :
    Sensor.remove n s = s := by
  have hsame : (s.sensors.eraseP fun tt => tt.snum == n) = s.sensors := by
    apply List.eraseP_of_forall_not
    intro x hx heq
    exact hnew (eq_of_beq heq ▸ List.mem_map_of_mem hx)
  unfold Sensor.remove
  rw [hsame]

/-- All records of sensors are read. -/
theorem Sensor.load_records (hpins : ∀ x ∈ S, Sensor.HasPin x)
    (hids : (s.sensors.map SensorData.snum ++ S.map SensorData.snum).Nodup)
    (h : s.eeprom.Lies s.eeAddress (S.flatMap sensorData.encode)) :
    Sensor.loadSensor^[S.length] s =
      { s with
        eeAddress := s.eeAddress + (S.flatMap sensorData.encode).length
        sensors := S.reverse ++ s.sensors } := by
  induction S generalizing s with
  | nil => rfl
  | cons x S ih =>
    rw [List.flatMap_cons, ByteStore.lies_append, ByteLayout.length_encode] at h
    obtain ⟨hpin, hpins⟩ := List.forall_mem_cons.mp hpins
    rw [List.map_cons] at hids
    have hnew : x.snum ∉ s.sensors.map SensorData.snum := by
      intro hmem
      exact (List.nodup_append.mp hids).2.2 _ hmem _ List.mem_cons_self rfl
    have hload : Sensor.loadSensor s =
        { s with eeAddress := s.eeAddress + sensorData.width, sensors := x :: s.sensors } := by
      have hdata : get sensorData s = x := sensorData.get_of_lies h.1
      unfold Sensor.loadSensor Sensor.create
      rw [hdata]
      dsimp only
      rw [if_neg hpin, Sensor.remove_new hnew]
      rfl
    have hids' : ((x :: s.sensors).map SensorData.snum ++ S.map SensorData.snum).Nodup :=
      List.perm_middle.nodup_iff.mp hids
    rw [List.length_cons, Function.iterate_succ_apply, hload]
    refine (@ih { s with eeAddress := s.eeAddress + sensorData.width, sensors := x :: s.sensors }
      hpins hids' h.2).trans ?_
    rw [List.flatMap_cons, List.length_append, ByteLayout.length_encode, Nat.add_assoc,
      List.reverse_cons, List.append_assoc, List.singleton_append]

/-! ## Outputs -/

/-- A pin that an output can have. -/
def Output.HasPin (tt : Output) : Prop := ¬ tt.data.pin > VPIN_MAX

instance (tt : Output) : Decidable (Output.HasPin tt) := inferInstanceAs (Decidable (¬ _))

/-- What an output starts with: in its default state if it has one. -/
def OutputData.started (data : OutputData) : OutputData :=
  { data with active := if data.setDefault then data.defaultValue else data.active }

theorem Output.create_new {id pin : UInt16} (hpin : ¬ pin > VPIN_MAX)
    (hnew : id ∉ s.outputs.map fun tt => tt.data.id) (iFlag : BitVec 7) :
    Output.create id pin iFlag false s =
      some (s.outputs.length, { s with outputs := s.outputs ++ [⟨⟨iFlag, false, id, pin⟩, 0⟩] }) := by
  have hnone : (s.outputs.findIdx? fun tt => tt.data.id == id) = none := by
    rw [List.findIdx?_eq_none_iff]
    intro tt htt
    rw [beq_eq_false_iff_ne]
    exact fun heq => hnew (heq ▸ List.mem_map_of_mem htt)
  unfold Output.create
  rw [if_neg hpin, hnone]
  dsimp only
  rw [if_neg (by simp), Option.getD_none, modify_length_append]
  rfl

/-- A record of an output is read. -/
theorem Output.loadOutput_record {data : OutputData} (hpin : ¬ data.pin > VPIN_MAX)
    (h : s.eeprom.Lies s.eeAddress (outputData.encode data))
    (hnew : data.id ∉ s.outputs.map fun tt => tt.data.id) :
    Output.loadOutput s = some { s with
      eeAddress := s.eeAddress + outputData.width
      outputs := s.outputs ++ [⟨data.started, .ofNat s.eeAddress⟩] } := by
  have hdata : get outputData s = data := outputData.get_of_lies h
  unfold Output.loadOutput
  rw [hdata]
  dsimp only
  rw [Output.create_new hpin hnew, Option.map_some]
  unfold Output.activate
  simp only [List.getElem?_concat_length, Output.statusAddress, UInt16.lt_irrefl,
    and_false, if_false, List.set_append_right _ _ (Nat.le_refl _), Nat.sub_self, List.set_cons_zero,
    modify_length_append]
  rfl

/-- All records of outputs are read. -/
theorem Output.load_records (hpins : ∀ tt ∈ O, Output.HasPin tt)
    (hids : (s.outputs.map (fun tt => tt.data.id) ++ O.map fun tt => tt.data.id).Nodup)
    (h : s.eeprom.Lies s.eeAddress (O.flatMap fun tt => outputData.encode tt.data)) :
    ∃ R : List Output, R.map Output.data = O.map (fun tt => tt.data.started) ∧
      Output.loadOutputs O.length s = some { s with
        eeAddress := s.eeAddress + (O.flatMap fun tt => outputData.encode tt.data).length
        outputs := s.outputs ++ R } := by
  induction O generalizing s with
  | nil =>
    refine ⟨[], rfl, ?_⟩
    rw [List.append_nil]
    rfl
  | cons tt O ih =>
    rw [List.flatMap_cons, ByteStore.lies_append, ByteLayout.length_encode] at h
    obtain ⟨hpin, hpins⟩ := List.forall_mem_cons.mp hpins
    rw [List.map_cons] at hids
    have hnew : tt.data.id ∉ s.outputs.map fun tt => tt.data.id := by
      intro hmem
      exact (List.nodup_append.mp hids).2.2 _ hmem _ List.mem_cons_self rfl
    have hload := Output.loadOutput_record hpin h.1 hnew
    have hids' : ((s.outputs ++ [(⟨tt.data.started, .ofNat s.eeAddress⟩ : Output)]).map
        (fun tt : Output => tt.data.id) ++ O.map fun tt => tt.data.id).Nodup := by
      rw [List.map_append, List.append_assoc]
      exact hids
    obtain ⟨R, hR, hrun⟩ := @ih { s with
      eeAddress := s.eeAddress + outputData.width
      outputs := s.outputs ++ [⟨tt.data.started, .ofNat s.eeAddress⟩] } hpins hids' h.2
    refine ⟨⟨tt.data.started, .ofNat s.eeAddress⟩ :: R, congrArg (_ :: ·) hR, ?_⟩
    rw [List.length_cons, Output.loadOutputs, hload]
    refine hrun.trans ?_
    rw [List.flatMap_cons, List.length_append, ByteLayout.length_encode, Nat.add_assoc]
    simp only [List.append_assoc, List.singleton_append]

/-! ## Reading past the records -/

/-- Reading a record moves on, and changes nothing but one list. -/
theorem Turnout.create_frame (id : UInt16) (kind : TurnoutKind) (closed : Bool) (s : St) :
    ∃ i l, Turnout.create id kind closed s = (i, { s with turnouts := l }) := by
  unfold Turnout.create
  dsimp only
  split
  · exact ⟨_, _, rfl⟩
  · split
    · exact ⟨_, _, rfl⟩
    · exact ⟨_, _, rfl⟩

theorem Turnout.loadTurnout_frame (s : St) : ∃ a l, Turnout.loadTurnout s =
    { s with eeAddress := a, turnouts := l } ∧ s.eeAddress + turnoutData.width ≤ a := by
  unfold Turnout.loadTurnout
  dsimp only
  split
  · exact ⟨_, _, rfl, Nat.le_add_right _ _⟩
  · unfold ServoTurnout.load ServoTurnout.create
    obtain ⟨i, l, heq⟩ := Turnout.create_frame _ _ _ (advance servoTurnoutData.width
      (advance turnoutData.width s))
    dsimp only
    rw [heq]
    exact ⟨_, _, rfl, Nat.le_add_right _ _⟩
  · exact ⟨_, _, rfl, Nat.le_add_right _ _⟩
  · exact ⟨_, _, rfl, Nat.le_refl _⟩

/-- More turnouts are read than there are records of. -/
theorem Turnout.loadMore_frame (k : Nat) (s : St) : ∃ a l, Turnout.loadTurnout^[k] s =
    { s with eeAddress := a, turnouts := l } ∧ s.eeAddress + k * turnoutData.width ≤ a := by
  induction k generalizing s with
  | zero => exact ⟨_, _, rfl, by omega⟩
  | succ k ih =>
    obtain ⟨a, l, hload, hle⟩ := Turnout.loadTurnout_frame s
    obtain ⟨a', l', hmore, hle'⟩ := ih (Turnout.loadTurnout s)
    rw [Function.iterate_succ_apply]
    rw [hload] at hmore hle' ⊢
    refine ⟨a', l', hmore, ?_⟩
    change a + k * turnoutData.width ≤ a' at hle'
    rw [Nat.succ_mul]
    omega

/-- Bytes `0x18` are the record of a turnout on a HAL pin. -/
theorem Turnout.loadMore_vpin (k : Nat) (h : ∀ i, s.eeAddress ≤ i → s.eeprom.cell i = 0x18) :
    (Turnout.loadTurnout^[k] s).turnouts.length = s.turnouts.length + k := by
  induction k generalizing s with
  | zero => rfl
  | succ k ih =>
    have hread : s.eeprom.read s.eeAddress 3 = [0x18, 0x18, 0x18] := by
      simp only [ByteStore.read, h s.eeAddress (Nat.le_refl _), h (s.eeAddress + 1) (by omega),
        h (s.eeAddress + 1 + 1) (by omega)]
    have htype : (get turnoutData s).turnoutType.toNat = 3 := by
      show (turnoutData.ofNat (ofBytes (s.eeprom.read s.eeAddress 3))).turnoutType.toNat = 3
      rw [hread]
      decide
    have hload : ∃ a l, Turnout.loadTurnout s = { s with eeAddress := a, turnouts := l } ∧
        s.eeAddress ≤ a ∧ l.length = s.turnouts.length + 1 := by
      unfold Turnout.loadTurnout
      simp only [htype]
      unfold VpinTurnout.load
      dsimp only
      refine ⟨_, _, Turnout.setEepromAddress_add _ _ (advance vpinTurnoutData.width
        (advance turnoutData.width s)), Nat.le_add_right _ 5, ?_⟩
      exact List.length_append
    obtain ⟨a, l, hload, hle, hlength⟩ := hload
    rw [Function.iterate_succ_apply, hload]
    have hmore := @ih { s with eeAddress := a, turnouts := l } fun i hi => h i (Nat.le_trans hle hi)
    rw [hmore, hlength, Nat.add_right_comm, Nat.add_assoc]

/-- What lies behind the records tells of no pin. -/
theorem Sensor.not_hasPin (h : ∀ i, s.eeAddress + 2 ≤ i → s.eeprom.cell i = 0xFE) :
    ¬ Sensor.HasPin (get sensorData s) := by
  have hpin : (get sensorData s).pin = 0xFEFE := by
    show UInt16.ofNat (ofBytes (s.eeprom.read s.eeAddress 5) / 65536 % 65536) = 0xFEFE
    simp only [ByteStore.read, ofBytes, h (s.eeAddress + 1 + 1) (by omega),
      h (s.eeAddress + 1 + 1 + 1) (by omega)]
    have h0 := (s.eeprom.cell s.eeAddress).toNat_lt
    have h1 := (s.eeprom.cell (s.eeAddress + 1)).toNat_lt
    have h4 := (s.eeprom.cell (s.eeAddress + 1 + 1 + 1 + 1)).toNat_lt
    have h254 : (0xFE : UInt8).toNat = 254 := rfl
    rw [← UInt16.toNat_inj, UInt16.toNat_ofNat']
    show _ = 0xFEFE
    omega
  unfold Sensor.HasPin
  rw [hpin]
  decide

theorem Sensor.loadSensor_frame (s : St) : ∃ l, Sensor.loadSensor s =
      { s with eeAddress := s.eeAddress + sensorData.width, sensors := l } ∧
    l.length ≤ s.sensors.length + 1 ∧ (¬ Sensor.HasPin (get sensorData s) → l = s.sensors) := by
  unfold Sensor.loadSensor Sensor.create Sensor.HasPin
  dsimp only
  split
  · exact ⟨_, rfl, Nat.le_succ _, fun _ => rfl⟩
  · next hpin =>
    refine ⟨_, rfl, Nat.succ_le_succ ?_, fun hno => absurd hpin hno⟩
    exact List.length_eraseP_le

theorem Sensor.loadMore_frame (n : Nat) (s : St) : ∃ l, Sensor.loadSensor^[n] s =
      { s with eeAddress := s.eeAddress + n * sensorData.width, sensors := l } ∧
    l.length ≤ s.sensors.length + n := by
  induction n generalizing s with
  | zero => exact ⟨_, by simp, Nat.le_refl _⟩
  | succ n ih =>
    obtain ⟨l, hload, hle, -⟩ := Sensor.loadSensor_frame s
    obtain ⟨l', hmore, hle'⟩ := ih (Sensor.loadSensor s)
    rw [Function.iterate_succ_apply]
    rw [hload] at hmore hle' ⊢
    refine ⟨l', hmore.trans ?_, Nat.le_trans hle' ?_⟩
    · rw [Nat.succ_mul, Nat.add_assoc, Nat.add_comm sensorData.width]
    · show l.length + n ≤ _
      omega

/-- Of `n + 1` sensors at most `n` are created if there is no pin in the last record. -/
theorem Sensor.load_short (n : Nat)
    (h : ∀ i, s.eeAddress + n * sensorData.width + 2 ≤ i → s.eeprom.cell i = 0xFE) :
    (Sensor.loadSensor^[n + 1] s).sensors.length ≤ s.sensors.length + n := by
  obtain ⟨l, hmore, hle⟩ := Sensor.loadMore_frame n s
  rw [Function.iterate_succ_apply', hmore]
  obtain ⟨l', hload, -, hsame⟩ := Sensor.loadSensor_frame
    { s with eeAddress := s.eeAddress + n * sensorData.width, sensors := l }
  rw [hload, hsame (Sensor.not_hasPin h)]
  exact hle

/-- An erased record has a pin that no device has. -/
theorem Output.not_hasPin (h : ∀ i, s.eeAddress + 3 ≤ i → s.eeprom.cell i = 0xFE) :
    (get outputData s).pin > VPIN_MAX := by
  have hpin : (get outputData s).pin = 0xFEFE := by
    show UInt16.ofNat (ofBytes (s.eeprom.read s.eeAddress 5) / 128 / 2 / 65536) = 0xFEFE
    simp only [ByteStore.read, ofBytes, h (s.eeAddress + 1 + 1 + 1) (by omega),
      h (s.eeAddress + 1 + 1 + 1 + 1) (by omega)]
    have h0 := (s.eeprom.cell s.eeAddress).toNat_lt
    have h1 := (s.eeprom.cell (s.eeAddress + 1)).toNat_lt
    have h2 := (s.eeprom.cell (s.eeAddress + 1 + 1)).toNat_lt
    have h254 : (0xFE : UInt8).toNat = 254 := rfl
    rw [← UInt16.toNat_inj, UInt16.toNat_ofNat']
    show _ = 0xFEFE
    omega
  rw [hpin]
  decide

/-- `create` leaves an output that is not known to be in the EEPROM. -/
theorem Output.create_frame {id pin : UInt16} {iFlag : BitVec 7} {v : Bool} {i : Nat}
    (h : Output.create id pin iFlag v s = some (i, s')) :
    s' = { s with outputs := s'.outputs } ∧ ∀ tt, s'.outputs[i]? = some tt → tt.num = 0 := by
  unfold Output.create at h
  split at h
  · cases h
  · cases h
    refine ⟨rfl, fun tt htt => ?_⟩
    rw [List.getElem?_modify_eq] at htt
    obtain ⟨_, -, rfl⟩ := Option.map_eq_some_iff.mp htt
    rfl

/-- A record that is read changes the address and the outputs only. -/
theorem Output.loadOutput_frame (h : Output.loadOutput s = some s') :
    s' = { s with eeAddress := s.eeAddress + outputData.width, outputs := s'.outputs } := by
  unfold Output.loadOutput at h
  rw [Option.map_eq_some_iff] at h
  obtain ⟨⟨i, s₁⟩, hcreate, hrest⟩ := h
  obtain ⟨hs₁, hnum⟩ := Output.create_frame hcreate
  dsimp only at hrest
  subst hrest
  unfold Output.activate
  rw [hs₁]
  cases htt : s₁.outputs[i]? with
  | none => rfl
  | some tt =>
    simp only [Output.statusAddress, hnum tt htt, UInt16.lt_irrefl, and_false, if_false]
    rfl

/-- No pin in the last record: nothing is loaded. -/
theorem Output.load_none (n : Nat)
    (h : ∀ i, s.eeAddress + n * outputData.width + 3 ≤ i → s.eeprom.cell i = 0xFE) :
    Output.loadOutputs (n + 1) s = none := by
  induction n generalizing s with
  | zero =>
    rw [Nat.zero_mul, Nat.add_zero] at h
    unfold Output.loadOutputs Output.loadOutput Output.create
    dsimp only
    rw [if_pos (Output.not_hasPin h)]
    rfl
  | succ n ih =>
    rw [Output.loadOutputs]
    cases hload : Output.loadOutput s with
    | none => rfl
    | some s' =>
      have hframe := Output.loadOutput_frame hload
      apply ih
      rw [hframe]
      intro i hi
      apply h
      rw [Nat.succ_mul]
      change s.eeAddress + outputData.width + n * outputData.width + 3 ≤ i at hi
      omega

/-! ## The restart -/

/-- Objects as the `create` functions leave them: the ids of each kind are different, parameters fit
into their bit fields, and pins exist. -/
structure Valid (T : List Turnout) (S : List SensorData) (O : List Output) : Prop where
  turnoutIds : (T.map CommandStation.Turnout.id).Nodup
  narrow : ∀ tt ∈ T, narrow tt.kind = tt.kind
  sensorIds : (S.map SensorData.snum).Nodup
  sensorPins : ∀ x ∈ S, Sensor.HasPin x
  outputIds : (O.map fun tt => tt.data.id).Nodup
  outputPins : ∀ tt ∈ O, Output.HasPin tt

/-- A turnout that is written. -/
def Turnout.isStored (tt : Turnout) : Bool := tt.kind ≠ .lcn

theorem Turnout.record_lcn {tt : Turnout} (h : Turnout.isStored tt = false) :
    Turnout.record rfu tt = [] := by
  unfold Turnout.isStored at h
  unfold Turnout.record
  cases hkind : tt.kind with
  | lcn => rfl
  | servo _ _ _ _ => simp [hkind] at h
  | dcc _ _ => simp [hkind] at h
  | vpin _ => simp [hkind] at h

theorem Turnout.flatMap_record (rfu : UInt16 → Bool) (T : List Turnout) :
    (T.filter Turnout.isStored).flatMap (Turnout.record rfu) = T.flatMap (Turnout.record rfu) := by
  induction T with
  | nil => rfl
  | cons tt T ih =>
    by_cases hstored : Turnout.isStored tt
    · rw [List.filter_cons_of_pos hstored, List.flatMap_cons, List.flatMap_cons, ih]
    · rw [List.filter_cons_of_neg hstored, List.flatMap_cons,
        Turnout.record_lcn (Bool.not_eq_true _ ▸ hstored), List.nil_append, ih]

/-- How many turnouts are counted and not written. -/
def missing (T : List Turnout) : Nat := (T.filter fun tt => !Turnout.isStored tt).length

theorem length_eq_missing (T : List Turnout) :
    T.length = missing T + (T.filter Turnout.isStored).length := by
  unfold missing
  rw [Nat.add_comm]
  exact List.length_eq_length_filter_add Turnout.isStored

/-- The station starts with the header of the store. -/
theorem initHeader_stored {eeprom : ByteStore} (hid : s.eeStore.id = eestoreId)
    (h : Stored rfu s eeprom) : initHeader (powerOn eeprom) = { powerOn eeprom with
      eeStore := ⟨eestoreId, .ofNat s.turnouts.length, .ofNat s.sensors.length,
        .ofNat s.outputs.length⟩ } := by
  have hget := eeStoreData.get_of_lies h.header
  unfold initHeader
  change eeStoreData.get (powerOn eeprom).eeprom 0 = _ at hget
  rw [hget, hid]
  rfl

/-- The station when the records of the turnouts have been read. -/
def turnoutsRead (eeprom : ByteStore) (rfu : UInt16 → Bool) (T : List Turnout) (S : List SensorData)
    (O : List Output) (R : List Turnout) : St where
  eeprom := eeprom
  eeStore := ⟨eestoreId, .ofNat T.length, .ofNat S.length, .ofNat O.length⟩
  eeAddress := eeStoreData.width + (T.flatMap (Turnout.record rfu)).length
  turnouts := R
  sensors := []
  outputs := []

/-- **The turnouts after a restart**: what was stored, and what is read past the records. -/
theorem load_turnouts {eeprom : ByteStore} (hvalid : Valid s.turnouts s.sensors s.outputs)
    (hlength : s.turnouts.length < 65536) (hid : s.eeStore.id = eestoreId)
    (h : Stored rfu s eeprom) : ∃ R : List Turnout,
      R.map Turnout.entry = (s.turnouts.filter Turnout.isStored).map Turnout.reloaded ∧
      Turnout.load (reset (initHeader (powerOn eeprom))) =
        Turnout.loadTurnout^[missing s.turnouts]
          (turnoutsRead eeprom rfu s.turnouts s.sensors s.outputs R) := by
  have hlies := h.records
  rw [image, ByteStore.lies_append, ByteStore.lies_append, ← Turnout.flatMap_record] at hlies
  rw [initHeader_stored hid h]
  obtain ⟨R, hR, hload⟩ := @Turnout.load_records (reset { powerOn eeprom with
      eeStore := ⟨eestoreId, .ofNat s.turnouts.length, .ofNat s.sensors.length,
        .ofNat s.outputs.length⟩ }) rfu (s.turnouts.filter Turnout.isStored) (by
    intro tt htt
    rw [List.mem_filter, Turnout.isStored, decide_eq_true_iff] at htt
    exact ⟨htt.2, hvalid.narrow tt htt.1⟩) (by
    exact (hvalid.turnoutIds.sublist (List.filter_sublist.map _))) hlies.1.1
  refine ⟨R, hR, ?_⟩
  have hcount : (UInt16.ofNat s.turnouts.length).toNat =
      missing s.turnouts + (s.turnouts.filter Turnout.isStored).length := by
    rw [UInt16.toNat_ofNat', Nat.mod_eq_of_lt hlength, length_eq_missing]
  unfold Turnout.load
  change Turnout.loadTurnout^[(UInt16.ofNat s.turnouts.length).toNat] _ = _
  rw [hcount, Function.iterate_add_apply, hload, Turnout.flatMap_record]
  rfl

/-- The station has the turnouts that are written, the sensors and the outputs again, and no others.
Outputs are in their default state if they have one. -/
structure Recreates (T : List Turnout) (S : List SensorData) (O : List Output) (s : St) : Prop where
  turnouts : (s.turnouts.map Turnout.entry).Perm ((T.filter Turnout.isStored).map Turnout.entry)
  sensors : s.sensors.Perm S
  outputs : (s.outputs.map Output.data).Perm (O.map fun tt => tt.data.started)

/-- No turnout is one of an LCN layout, and no DCC turnout is closed. -/
def Restores (T : List Turnout) : Prop :=
  ∀ tt ∈ T, tt.kind ≠ .lcn ∧ ∀ address subAddress, tt.kind = .dcc address subAddress → tt.closed = false

theorem ofNat_length {n : Nat} (h : n < 65536) : (UInt16.ofNat n).toNat = n := by
  rw [UInt16.toNat_ofNat', Nat.mod_eq_of_lt h]

/-- If all turnouts are written, everything is read in its place. -/
theorem init_complete (hvalid : Valid s.turnouts s.sensors s.outputs)
    (hfits : Fits s.eeprom.size s.turnouts s.sensors s.outputs) (hid : s.eeStore.id = eestoreId)
    (hall : missing s.turnouts = 0) : ∃ s', init (powerOn (store rfu s).eeprom) = some s' ∧
      s'.turnouts.map Turnout.entry = (s.turnouts.filter Turnout.isStored).map Turnout.reloaded ∧
      s'.sensors = s.sensors.reverse ∧
      s'.outputs.map Output.data = s.outputs.map (fun tt => tt.data.started) := by
  have hstored : Stored rfu s (store rfu s).eeprom := stored_store hfits
  obtain ⟨⟨hlengthT, hlengthS, hlengthO⟩, -⟩ := hfits
  obtain ⟨R, hR, hturnouts⟩ := load_turnouts hvalid hlengthT hid hstored
  have hlies := hstored.records
  rw [image, ByteStore.lies_append, ByteStore.lies_append] at hlies
  rw [hall, Function.iterate_zero_apply] at hturnouts
  unfold init
  rw [hturnouts]
  -- the sensors
  have hsensors := @Sensor.load_records
    (turnoutsRead (store rfu s).eeprom rfu s.turnouts s.sensors s.outputs R) s.sensors
    hvalid.sensorPins hvalid.sensorIds hlies.1.2
  unfold Sensor.load
  have hcountS : (turnoutsRead (store rfu s).eeprom rfu s.turnouts s.sensors s.outputs
      R).eeStore.nSensors.toNat = s.sensors.length := ofNat_length hlengthS
  rw [hcountS, hsensors]
  -- the outputs
  rw [List.length_append, ← Nat.add_assoc] at hlies
  obtain ⟨R', hR', houtputs⟩ := @Output.load_records
    { turnoutsRead (store rfu s).eeprom rfu s.turnouts s.sensors s.outputs R with
      eeAddress := eeStoreData.width + (s.turnouts.flatMap (Turnout.record rfu)).length +
        (s.sensors.flatMap sensorData.encode).length
      sensors := s.sensors.reverse ++ [] } s.outputs hvalid.outputPins hvalid.outputIds hlies.2
  unfold Output.load
  have hcountO : (turnoutsRead (store rfu s).eeprom rfu s.turnouts s.sensors s.outputs
      R).eeStore.nOutputs.toNat = s.outputs.length := ofNat_length hlengthO
  dsimp only
  rw [hcountO]
  exact ⟨_, houtputs, hR, List.append_nil _, hR'⟩

theorem Turnout.reloaded_eq {tt : Turnout} (h : ∀ address subAddress,
    tt.kind = .dcc address subAddress → tt.closed = false) :
    Turnout.reloaded tt = Turnout.entry tt := by
  unfold Turnout.reloaded Turnout.entry
  split
  · next hkind => rw [h _ _ hkind]
  · rfl

/-- A closed DCC turnout is not among those that are loaded. -/
theorem not_perm_reloaded {tt : Turnout} {address : UInt16} {subAddress : UInt8} (htt : tt ∈ T)
    (hkind : tt.kind = .dcc address subAddress) (hclosed : tt.closed = true) :
    ¬ ((T.filter Turnout.isStored).map Turnout.reloaded).Perm
      ((T.filter Turnout.isStored).map Turnout.entry) := by
  intro hperm
  have hmem : Turnout.entry tt ∈ (T.filter Turnout.isStored).map Turnout.entry := by
    apply List.mem_map_of_mem
    rw [List.mem_filter, Turnout.isStored, hkind]
    exact ⟨htt, rfl⟩
  obtain ⟨t, -, ht⟩ := List.mem_map.mp (hperm.mem_iff.mpr hmem)
  unfold Turnout.reloaded Turnout.entry at ht
  rw [hkind, hclosed] at ht
  split at ht
  · cases congrArg (fun e => e.2.2) ht
  · next hnot =>
    obtain ⟨-, hkind', -⟩ : t.id = tt.id ∧ t.kind = .dcc address subAddress ∧ t.closed = true := by
      simpa using ht
    exact hnot _ _ hkind'

/-- The objects on a station whose EEPROM is full of one byte. -/
def filledWith (x : UInt8) (size : Nat) (T : List Turnout) (S : List SensorData) (O : List Output) :
    St where
  eeprom := ⟨size, fun _ => x⟩
  eeStore := ⟨eestoreId, 0, 0, 0⟩
  eeAddress := 0
  turnouts := T
  sensors := S
  outputs := O

theorem length_sensors (S : List SensorData) :
    (S.flatMap sensorData.encode).length = S.length * sensorData.width := by
  induction S with
  | nil => rfl
  | cons x S ih =>
    rw [List.flatMap_cons, List.length_append, ih, ByteLayout.length_encode, List.length_cons,
      Nat.succ_mul, Nat.add_comm]

theorem length_outputs (O : List Output) :
    (O.flatMap fun tt => outputData.encode tt.data).length = O.length * outputData.width := by
  induction O with
  | nil => rfl
  | cons x O ih =>
    rw [List.flatMap_cons, List.length_append, ih, ByteLayout.length_encode, List.length_cons,
      Nat.succ_mul, Nat.add_comm]

/-- The turnouts have been read, and one record or more too many: the byte `x`, with which the EEPROM
was full, is found at least three bytes before the end of what is still to be read. -/
structure Shifted (x : UInt8) (S : List SensorData) (O : List Output) (s : St) : Prop where
  nSensors : s.eeStore.nSensors.toNat = S.length
  nOutputs : s.eeStore.nOutputs.toNat = O.length
  sensors : s.sensors = []
  outputs : s.outputs = []
  past : ∀ i, s.eeAddress + S.length * sensorData.width + O.length * outputData.width ≤ i + 3 →
    s.eeprom.cell i = x

/-- Sensors and outputs are read too late, and the last one of them has no pin. -/
theorem Shifted.not_recreates {s₁ : St} (h : Shifted 0xFE S O s₁) (hany : S ≠ [] ∨ O ≠ [])
    (hload : Output.load (Sensor.load s₁) = some s') : ¬ Recreates T S O s' := by
  intro hrecreates
  obtain ⟨l, hsensors, -⟩ := Sensor.loadMore_frame S.length s₁
  unfold Output.load Sensor.load at hload
  rw [h.nSensors] at hload
  have hcount : (Sensor.loadSensor^[S.length] s₁).eeStore.nOutputs.toNat = O.length := by
    rw [hsensors]
    exact h.nOutputs
  rw [hcount] at hload
  cases O with
  | nil =>
    cases S with
    | nil => simp at hany
    | cons x S =>
      have hshort := @Sensor.load_short s₁ S.length (by
        intro i hi
        apply h.past
        rw [List.length_cons, Nat.succ_mul, width_sensorData] at *
        simp only [List.length_nil, Nat.zero_mul]
        omega)
      cases hload
      have hlength := hrecreates.sensors.length_eq
      rw [List.length_cons] at hlength
      change (Sensor.loadSensor^[S.length + 1] s₁).sensors.length = _ at hlength
      rw [hlength, h.sensors, List.length_nil] at hshort
      omega
  | cons tt O =>
    have hnone := @Output.load_none (Sensor.loadSensor^[S.length] s₁) O.length (by
      rw [hsensors]
      intro i hi
      apply h.past
      rw [List.length_cons, Nat.succ_mul, width_outputData] at *
      change s₁.eeAddress + S.length * sensorData.width + O.length * 5 + 3 ≤ i at hi
      omega)
    rw [List.length_cons, hnone] at hload
    cases hload

/-- With a turnout that is counted and not written, the records of the others are followed by one more
record of a turnout, or sensors and outputs are not read in their places. -/
theorem shifted_load {x : UInt8} (hvalid : Valid T S O) (hfits : Fits size T S O)
    (hmissing : 0 < missing T) :
    ∃ s₁ : St, init (powerOn (store rfu (filledWith x size T S O)).eeprom) =
        Output.load (Sensor.load s₁) ∧
      Shifted x S O s₁ ∧ (x = 0x18 → S = [] → O = [] →
        s₁.turnouts.length = (T.filter Turnout.isStored).length + missing T) := by
  have hstored : Stored rfu (filledWith x size T S O)
      (store rfu (filledWith x size T S O)).eeprom := stored_store hfits
  obtain ⟨⟨hlengthT, hlengthS, hlengthO⟩, -⟩ := hfits
  obtain ⟨R, hR, hturnouts⟩ := load_turnouts hvalid hlengthT rfl hstored
  have hframe : ∀ i, eeStoreData.width + (image rfu T S O).length ≤ i →
      (store rfu (filledWith x size T S O)).eeprom.cell i = x := hstored.frame
  rw [image, List.length_append, List.length_append, length_sensors, length_outputs] at hframe
  have hlength : R.length = (T.filter Turnout.isStored).length := by
    have heq := congrArg List.length hR
    rwa [List.length_map, List.length_map] at heq
  refine ⟨Turnout.loadTurnout^[missing T] (turnoutsRead _ rfu T S O R),
    congrArg (fun s => Output.load (Sensor.load s)) hturnouts, ?_, ?_⟩
  · obtain ⟨a, l, hmore, hle⟩ := Turnout.loadMore_frame (missing T)
      (turnoutsRead (store rfu (filledWith x size T S O)).eeprom rfu T S O R)
    rw [hmore]
    refine ⟨ofNat_length hlengthS, ofNat_length hlengthO, rfl, rfl, fun i hi => hframe i ?_⟩
    change eeStoreData.width + (T.flatMap (Turnout.record rfu)).length +
      missing T * turnoutData.width ≤ a at hle
    rw [width_turnoutData] at hle
    dsimp only at hi
    omega
  · rintro rfl rfl rfl
    refine (Turnout.loadMore_vpin (missing T) ?_).trans (congrArg (· + missing T) hlength)
    intro i hi
    apply hframe
    change eeStoreData.width + (T.flatMap (Turnout.record rfu)).length ≤ i at hi
    simpa using hi

/-- **What comes back after a restart.** The objects come back from every EEPROM that they fit into if
and only if no turnout is one of an LCN layout, and no DCC turnout is closed. -/
theorem restart_recreates (hvalid : Valid T S O) (hfits : Fits size T S O) :
    (∀ (rfu : UInt16 → Bool) (s : St), s.turnouts = T → s.sensors = S → s.outputs = O →
      s.eeprom.size = size → s.eeStore.id = eestoreId →
      ∃ s', init (powerOn (store rfu s).eeprom) = some s' ∧ Recreates T S O s') ↔ Restores T := by
  have hall : (∀ tt ∈ T, tt.kind ≠ .lcn) → missing T = 0 := by
    intro hstored
    rw [missing, List.length_eq_zero_iff, List.filter_eq_nil_iff]
    intro tt htt
    simp [Turnout.isStored, hstored tt htt]
  constructor
  · intro h
    by_cases hmissing : missing T = 0
    · intro tt htt
      constructor
      · intro hlcn
        rw [missing, List.length_eq_zero_iff, List.filter_eq_nil_iff] at hmissing
        exact hmissing tt htt (by simp [Turnout.isStored, hlcn])
      · intro address subAddress hkind
        rw [← Bool.not_eq_true]
        intro hclosed
        obtain ⟨s', hinit, hrecreates⟩ :=
          h (fun _ => false) (filledWith 0 size T S O) rfl rfl rfl rfl rfl
        obtain ⟨s'', hinit', hturnouts, -⟩ := @init_complete (filledWith 0 size T S O)
          (fun _ => false) hvalid hfits rfl hmissing
        obtain rfl : s' = s'' := Option.some.inj (hinit.symm.trans hinit')
        have hperm := hrecreates.turnouts
        rw [hturnouts] at hperm
        exact not_perm_reloaded htt hkind hclosed hperm
    · exfalso
      have hpos : 0 < missing T := Nat.pos_of_ne_zero hmissing
      by_cases hnone : S = [] ∧ O = []
      · -- a turnout too many
        obtain ⟨rfl, rfl⟩ := hnone
        obtain ⟨s', hinit, hrecreates⟩ :=
          h (fun _ => false) (filledWith 0x18 size T [] []) rfl rfl rfl rfl rfl
        obtain ⟨s₁, hload, hshifted, hlength⟩ :=
          @shifted_load (fun _ => false) T [] [] size 0x18 hvalid hfits hpos
        have hsame : init (powerOn (store (fun _ => false) (filledWith 0x18 size T [] [])).eeprom) =
            some s₁ := by
          rw [hload]
          unfold Output.load Sensor.load
          rw [hshifted.nSensors]
          dsimp only [List.length_nil, Function.iterate_zero, id]
          rw [hshifted.nOutputs]
          rfl
        obtain rfl : s' = s₁ := Option.some.inj (hinit.symm.trans hsame)
        have heq := hrecreates.turnouts.length_eq
        rw [List.length_map, List.length_map, hlength rfl rfl rfl] at heq
        omega
      · obtain ⟨s', hinit, hrecreates⟩ :=
          h (fun _ => false) (filledWith 0xFE size T S O) rfl rfl rfl rfl rfl
        obtain ⟨s₁, hload, hshifted, -⟩ :=
          @shifted_load (fun _ => false) T S O size 0xFE hvalid hfits hpos
        exact hshifted.not_recreates (not_and_or.mp hnone) (hload.symm.trans hinit) hrecreates
  · intro hrestores rfu s hT hS hO hsize hid
    subst hT hS hO hsize
    have hmissing := hall fun tt htt => (hrestores tt htt).1
    obtain ⟨s', hinit, hturnouts, hsensors, houtputs⟩ :=
      @init_complete s rfu hvalid hfits hid hmissing
    refine ⟨s', hinit, ?_, ?_, ?_⟩
    · rw [hturnouts]
      refine List.Perm.of_eq (List.map_congr_left fun tt htt => ?_)
      exact Turnout.reloaded_eq (hrestores tt (List.mem_of_mem_filter htt)).2
    · rw [hsensors]
      exact List.reverse_perm _
    · rw [houtputs]

/-- A servo, a HAL pin and a thrown DCC turnout, a sensor, and an output that starts active. -/
theorem restart_recreates_layout :
    let T : List Turnout := [⟨1, true, false, .servo 101 150 400 2, 0⟩, ⟨2, true, false, .vpin 164, 0⟩,
      ⟨3, false, false, .dcc 12 3, 0⟩]
    let S : List SensorData := [⟨7, 165, 1⟩]
    let O : List Output := [⟨⟨6, false, 9, 166⟩, 0⟩]
    ∃ s', init (powerOn (store (fun _ => true) (filledWith 0xFF 1024 T S O)).eeprom) = some s' ∧
      Recreates T S O s' := by
  intro T S O
  have hvalid : Valid T S O := ⟨by decide, by decide, by decide, by decide, by decide, by decide⟩
  have hfits : Fits 1024 T S O := ⟨by decide, by decide +kernel⟩
  have hrestores : Restores T := by
    intro tt htt
    simp only [T, List.mem_cons, List.not_mem_nil, or_false] at htt
    rcases htt with rfl | rfl | rfl
    · exact ⟨by decide, fun _ _ h => by cases h⟩
    · exact ⟨by decide, fun _ _ h => by cases h⟩
    · exact ⟨by decide, fun _ _ _ => rfl⟩
  exact (restart_recreates hvalid hfits).mpr hrestores (fun _ => true) (filledWith 0xFF 1024 T S O)
    rfl rfl rfl rfl rfl

/-- A closed DCC turnout is thrown after a restart, and with an LCN turnout a sensor comes back as
another one. -/
theorem not_restart_recreates :
    (¬ ∃ s', init (powerOn (store (fun _ => false)
        (filledWith 0xFF 1024 [⟨1, true, false, .dcc 12 3, 0⟩] [] [])).eeprom) = some s' ∧
      Recreates [⟨1, true, false, .dcc 12 3, 0⟩] [] [] s') ∧
    ¬ ∃ s', init (powerOn (store (fun _ => false)
        (filledWith 0xFF 1024 [⟨1, true, false, .lcn, 0⟩] [⟨7, 165, 1⟩] [])).eeprom) = some s' ∧
      Recreates [⟨1, true, false, .lcn, 0⟩] [⟨7, 165, 1⟩] [] s' := by
  constructor
  · rintro ⟨s', hinit, hrecreates⟩
    have hrun : (init (powerOn (store (fun _ => false) (filledWith 0xFF 1024
        [⟨1, true, false, .dcc 12 3, 0⟩] [] [])).eeprom)).map (fun s => s.turnouts.map Turnout.entry) =
        some [(1, .dcc 12 3, false)] := by decide +kernel
    rw [hinit, Option.map_some, Option.some_inj] at hrun
    have hperm := hrecreates.turnouts
    rw [hrun] at hperm
    exact absurd (List.singleton_perm_singleton.mp hperm) (by decide)
  · rintro ⟨s', hinit, hrecreates⟩
    have hrun : (init (powerOn (store (fun _ => false) (filledWith 0xFF 1024
        [⟨1, true, false, .lcn, 0⟩] [⟨7, 165, 1⟩] [])).eeprom)).map St.sensors =
        some [⟨256, 65535, 255⟩] := by decide +kernel
    rw [hinit, Option.map_some, Option.some_inj] at hrun
    have hperm := hrecreates.sensors
    rw [hrun] at hperm
    exact absurd (List.singleton_perm_singleton.mp hperm) (by decide)

end CommandStation.EEStore
