import CommandStation.Sensors.Basic

/-!
# Scan cycles

A cycle is the time from one start to the next. `Watched` records for each cycle the sensors that
have been on the list since it began, and the sensors that were examined in it. The place of the
scan cuts the list in two: the sensors in front of it have been examined in this cycle or are new,
those behind it are still to come.
-/

namespace CommandStation.Sensors

open CommandStation.Lib

variable {F : SensorFault → Prop} {s s' : Sensors} {ds rs : List Nat} {a : Nat} {list : List Sensor}

/-- The addresses of the sensors on the list. -/
def addresses (s : Sensors) : List Nat := s.list.map Sensor.address

/-- The scan has come past `ds` and goes on with `rs`. -/
structure Scanning (s : Sensors) (ds rs : List Nat) : Prop where
  list : s.addresses = ds ++ rs
  reading : s.readingSensor = rs.head?
  nodup : s.addresses.Nodup
  fresh : ∀ a ∈ s.addresses, a < s.fresh

/-! ## Finding a sensor -/

theorem pointer_eq (list : List Sensor) : pointer list = (list.map Sensor.address).head? := by
  simp [pointer]

/-- The list is read from the sensor with this address on. -/
theorem exists_at? (hlist : list.map Sensor.address = ds ++ a :: rs) (ha : a ∉ ds) :
    ∃ tt rest, at? list a = some (tt, rest) ∧ tt.address = a ∧ rest.map Sensor.address = rs := by
  induction list generalizing ds with
  | nil => simp at hlist
  | cons tt list ih =>
    cases ds with
    | nil =>
      obtain ⟨htt, hrest⟩ := List.cons_eq_cons.mp hlist
      exact ⟨tt, list, if_pos htt, htt, hrest⟩
    | cons d ds =>
      obtain ⟨htt, hrest⟩ := List.cons_eq_cons.mp hlist
      rw [List.mem_cons, not_or] at ha
      have hne : tt.address ≠ a := fun h => ha.1 (h.symm.trans htt)
      obtain ⟨tt', rest', hat, htt', hrest'⟩ := ih hrest ha.2
      exact ⟨tt', rest', (if_neg hne).trans hat, htt', hrest'⟩

theorem map_update {f : Sensor → Sensor} (hf : ∀ tt, tt.address = a → (f tt).address = a) :
    (update list a f).map Sensor.address = list.map Sensor.address := by
  rw [update, List.map_map]
  apply List.map_congr_left
  intro tt _
  by_cases htt : tt.address = a
  · simp [htt, hf tt htt]
  · simp [htt]

theorem Scanning.head_not_mem (h : Scanning s ds (a :: rs)) : a ∉ ds := by
  have hnodup := h.nodup
  rw [h.list] at hnodup
  intro hin
  exact (List.nodup_append.mp hnodup).2.2 a hin a List.mem_cons_self rfl

/-- A change of a sensor that leaves its address. -/
theorem Scanning.update (h : Scanning s ds rs) {f : Sensor → Sensor}
    (hf : ∀ tt, tt.address = a → (f tt).address = a) :
    Scanning { s with list := update s.list a f } ds rs := by
  have hsame : addresses { s with list := Sensors.update s.list a f } = s.addresses := map_update hf
  exact ⟨hsame.trans h.list, h.reading, hsame ▸ h.nodup, fun b hb => h.fresh b (hsame ▸ hb)⟩

/-! ## One call -/

theorem address_examined (read : UInt16 → Bool) (tt : Sensor) :
    (examined read tt).1.address = tt.address := by
  unfold examined
  grind

/-- One sensor is examined, and the scan moves past it. -/
theorem wp_checkSensor (h : Scanning s ds (a :: rs)) (read : UInt16 → Bool) :
    wp F (checkSensor read a) (fun _ s' => Scanning s' (ds ++ [a]) rs) s := by
  obtain ⟨tt, rest, hat, htt, hrest⟩ := exists_at? h.list h.head_not_mem
  simp only [checkSensor, wp_bind, wp_get, hat, wp_set, wp_pure]
  have hmoved := h.update (f := fun _ => (examined read tt).1)
    fun _ _ => (address_examined read tt).trans htt
  refine ⟨?_, ?_, hmoved.nodup, hmoved.fresh⟩
  · rw [List.append_assoc]
    exact hmoved.list
  · show pointer rest = rs.head?
    rw [pointer_eq, hrest]

/-- What is left when the removed sensor, if any, is taken out. -/
def without (removed : Option Nat) (as : List Nat) : List Nat :=
  as.filter fun a => some a != removed

theorem without_none (as : List Nat) : without none as = as := by
  simp [without]

theorem mem_without {removed : Option Nat} {as : List Nat} :
    a ∈ without removed as ↔ a ∈ as ∧ some a ≠ removed := by
  simp [without]

/-- A sensor may be removed in the middle of a cycle, and the others are still scanned. -/
theorem wp_remove (h : Scanning s ds rs) (n : Int16) :
    wp F (remove n) (fun removed s' => Scanning s' (without removed ds) (without removed rs)) s := by
  simp only [remove, wp_bind, wp_get]
  cases hfind : s.list.find? fun tt => tt.snum == n with
  | none =>
    simp only [wp_pure, without_none]
    exact h
  | some tt =>
    simp only [wp_bind, wp_set, wp_pure]
    have hlist : (s.list.filter fun other => other.address != tt.address).map Sensor.address =
        without (some tt.address) s.addresses := by
      rw [without, addresses, List.filter_map]
      rfl
    refine ⟨?_, ?_, ?_, ?_⟩
    · show List.map _ _ = _
      rw [hlist, h.list, without, List.filter_append]
      rfl
    · show (if _ then _ else _) = _
      rw [h.reading]
      cases rs with
      | nil => rfl
      | cons a rs =>
        by_cases hhead : a = tt.address
        · -- the sensor to be read next is removed
          obtain ⟨tt', rest, hat, -, hrest⟩ := exists_at? h.list h.head_not_mem
          have hnot : tt.address ∉ rs := by
            have hnodup := h.nodup
            rw [h.list] at hnodup
            rw [← hhead]
            exact (List.nodup_cons.mp (List.nodup_append.mp hnodup).2.1).1
          have hkeep : without (some tt.address) (a :: rs) = rs := by
            rw [without, List.filter_cons_of_neg (by simp [hhead]), List.filter_eq_self]
            intro b hb
            have hne : b ≠ tt.address := fun heq => hnot (heq ▸ hb)
            simpa using hne
          rw [if_pos (by simp [hhead]), hkeep, ← hhead, hat]
          show pointer rest = rs.head?
          rw [pointer_eq, hrest]
        · rw [if_neg (by simpa using hhead), without,
            List.filter_cons_of_pos (by simpa using hhead)]
          rfl
    · show (List.map _ _).Nodup
      rw [hlist]
      exact h.nodup.filter _
    · intro b hb
      have hb' : b ∈ without (some tt.address) s.addresses := hlist ▸ hb
      exact h.fresh b (mem_without.mp hb').1

/-- A new sensor comes in front of the scan. -/
theorem wp_create (h : Scanning s ds rs) (snum : Int16) (pin : UInt16) (pullUp : UInt8)
    (memory hasCallback : Bool) :
    wp F (create snum pin pullUp memory hasCallback) (fun removed s' =>
      ∃ new, Scanning s' (new ++ without removed ds) (without removed rs)) s := by
  unfold create
  by_cases hpin : vpinMax < pin ∧ pin ≠ vpinNone
  · rw [if_pos hpin, wp_pure]
    exact ⟨[], by simpa only [without_none, List.nil_append] using h⟩
  rw [if_neg hpin]
  simp only [wp_bind]
  refine wp_mono (wp_remove h snum) ?_
  intro removed s' hs'
  apply wp_when
  · intro _
    rw [wp_modify, wp_pure]
    refine ⟨[s'.fresh], ?_, hs'.reading, ?_, ?_⟩
    · show s'.fresh :: s'.addresses = _
      rw [hs'.list]
      rfl
    · show (s'.fresh :: s'.addresses).Nodup
      exact List.nodup_cons.mpr ⟨fun hin => Nat.lt_irrefl _ (hs'.fresh _ hin), hs'.nodup⟩
    · intro b hb
      obtain rfl | hb : b = s'.fresh ∨ b ∈ s'.addresses := List.mem_cons.mp hb
      · exact Nat.lt_succ_self _
      · exact Nat.lt_succ_of_lt (hs'.fresh b hb)
  · intro _
    exact ⟨[], hs'⟩

/-! ## Runs -/

/-- The sensors that have been on the list since the cycle began, and those examined in it. -/
structure Cycle where
  present : List Nat
  examined : List Nat

/-- The sensors with a record of the cycle that goes on and of those that came to an end. -/
structure Watched where
  sensors : Sensors
  current : Cycle
  finished : List Cycle

/-- Before the first start. -/
def Watched.init : Watched := ⟨Sensors.init, ⟨[], []⟩, []⟩

inductive Op where
  | checkAll (thisTime : UInt32) (read : UInt16 → Bool)
  | create (snum : Int16) (pin : UInt16) (pullUp : UInt8) (memory hasCallback : Bool)
  | remove (n : Int16)
  | setState (n : Int16) (value : Bool)
  | inputChangeCallback (vpin : UInt16) (state : Bool)

/-- A program on the sensors. -/
def onSensors {α : Type} (m : Sen α) : Prog Watched SensorFault α :=
  zoom Watched.sensors (fun w s => { w with sensors := s }) m

/-- A removed sensor has not been there during the whole cycle. -/
def noteRemoved (removed : Option Nat) : Prog Watched SensorFault Unit :=
  modify fun w => { w with current := { w.current with present := without removed w.current.present } }

/-- A call, with the record of what it did. -/
def Op.exec : Op → Prog Watched SensorFault Unit
  | checkAll thisTime read => do
    let (started, as) ← onSensors (Sensors.checkAll thisTime read)
    modify fun w =>
      if started then { w with
        finished := w.finished ++ [w.current], current := ⟨w.sensors.addresses, as⟩ }
      else { w with current := { w.current with examined := w.current.examined ++ as } }
  | create snum pin pullUp memory hasCallback => do
    let removed ← onSensors (Sensors.create snum pin pullUp memory hasCallback)
    noteRemoved removed
  | remove n => do
    let removed ← onSensors (Sensors.remove n)
    noteRemoved removed
  | setState n value => onSensors (Sensors.setState n value)
  | inputChangeCallback vpin state => onSensors (Sensors.inputChangeCallback vpin state)

/-- In this cycle every sensor in front of the scan has been examined once, and none behind it. -/
def Cycle.UpTo (c : Cycle) (ds rs : List Nat) : Prop :=
  ∀ a ∈ c.present, a ∈ ds ∧ c.examined.count a = 1 ∨ a ∈ rs ∧ c.examined.count a = 0

/-- Every sensor that was there during the whole cycle has been examined exactly once. -/
def Cycle.Complete (c : Cycle) : Prop := ∀ a ∈ c.present, c.examined.count a = 1

/-- The invariant of all runs. -/
def Watched.Good (w : Watched) : Prop :=
  ∃ ds rs, Scanning w.sensors ds rs ∧ w.current.UpTo ds rs ∧ ∀ c ∈ w.finished, c.Complete

/-- The scan moves over `as`. -/
theorem Cycle.UpTo.advance {c : Cycle} {as : List Nat} (h : c.UpTo ds (as ++ rs))
    (hnodup : (ds ++ (as ++ rs)).Nodup) :
    Cycle.UpTo { c with examined := c.examined ++ as } (ds ++ as) rs := by
  intro a ha
  have hrest := List.nodup_append.mp (List.nodup_append.mp hnodup).2.1
  simp only [List.count_append, List.mem_append]
  obtain ⟨hds, hone⟩ | ⟨hin, hzero⟩ := h a ha
  · have hno : as.count a = 0 := List.count_eq_zero.mpr fun has =>
      (List.nodup_append.mp hnodup).2.2 a hds a (List.mem_append_left rs has) rfl
    exact .inl ⟨.inl hds, by omega⟩
  · obtain has | hrs := List.mem_append.mp hin
    · have hone : as.count a = 1 := List.count_eq_one_of_mem hrest.1 has
      exact .inl ⟨.inr has, by omega⟩
    · have hno : as.count a = 0 := List.count_eq_zero.mpr fun has => hrest.2.2 a has a hrs rfl
      exact .inr ⟨hrs, by omega⟩

theorem Cycle.UpTo.without {c : Cycle} (h : c.UpTo ds rs) (removed : Option Nat) (new : List Nat) :
    Cycle.UpTo { c with present := Sensors.without removed c.present }
      (new ++ Sensors.without removed ds) (Sensors.without removed rs) := by
  intro a ha
  obtain ⟨ha, hne⟩ := mem_without.mp ha
  obtain ⟨hds, hone⟩ | ⟨hrs, hzero⟩ := h a ha
  · exact .inl ⟨List.mem_append_right new (mem_without.mpr ⟨hds, hne⟩), hone⟩
  · exact .inr ⟨mem_without.mpr ⟨hrs, hne⟩, hzero⟩

end CommandStation.Sensors
