import CommandStation.Lib.Debounce
import CommandStation.Lib.Shadow
import CommandStation.Sensors.Cycle

/-!
# Reports

`Logged` keeps beside the sensors the history of each address: what the scans of the sensor saw, what
they reported, and the calls of `setState`. A sensor is a debouncer of its input, and its history
tells what it reports.
-/

namespace CommandStation.Sensors

open CommandStation.Lib CommandStation.Lib.Debouncer

variable {F : SensorFault → Prop} {s s' : Sensors} {ds rs : List Nat} {a : Nat}

/-- A call, without a record. -/
def Op.call : Op → Sen Unit
  | checkAll thisTime read => Sensors.checkAll thisTime read >>= fun _ => pure ()
  | create snum pin pullUp memory hasCallback =>
    Sensors.create snum pin pullUp memory hasCallback >>= fun _ => pure ()
  | remove n => Sensors.remove n >>= fun _ => pure ()
  | setState n value => Sensors.setState n value
  | inputChangeCallback vpin state => Sensors.inputChangeCallback vpin state

/-- The sensors, and the history of each address with the latest entry first. -/
structure Logged where
  sensors : Sensors
  history : Nat → List (DebounceEntry Bool)

def Logged.init : Logged := ⟨Sensors.init, fun _ => []⟩

abbrev Log (α : Type) : Type := Prog Logged SensorFault α

def onLogged {α : Type} (m : Sen α) : Log α :=
  zoom Logged.sensors (fun w s => { w with sensors := s }) m

def log (a : Nat) (entry : DebounceEntry Bool) : Log Unit :=
  modify fun w => { w with history := Function.update w.history a (entry :: w.history a) }

/-- The input that a scan of the sensor at an address sees. -/
def seen (read : UInt16 → Bool) (s : Sensors) (a : Nat) : Bool :=
  (at? s.list a).any fun found => polled read found.1

/-! ## The calls with their record -/

def scanSensor (read : UInt16 → Bool) (a : Nat) : Log Bool := do
  let w ← get
  let report ← onLogged (checkSensor read a)
  log a (.sampled (seen read w.sensors a) report)
  pure report

def scanFrom (read : UInt16 → Bool) : Nat → Log (List Nat)
  | 0 => pure []
  | count + 1 => do
    let w ← get
    match w.sensors.readingSensor with
    | none => pure []
    | some a =>
      let pause ← scanSensor read a
      if pause then pure [a]
      else
        let more ← scanFrom read count
        pure (a :: more)

def scanAll (thisTime : UInt32) (read : UInt16 → Bool) : Log (Bool × List Nat) := do
  let w ← get
  if w.sensors.list = [] then pure (false, [])
  else
    let started ← onLogged (startCycle thisTime)
    let addresses ← scanFrom read maxPerEntry
    pure (started, addresses)

/-- A call, with the record of what it did to each sensor. -/
def Op.logged : Op → Log Unit
  | checkAll thisTime read => scanAll thisTime read >>= fun _ => pure ()
  | create snum pin pullUp memory hasCallback =>
    onLogged (Sensors.create snum pin pullUp memory hasCallback) >>= fun _ => pure ()
  | remove n => onLogged (Sensors.remove n) >>= fun _ => pure ()
  | setState n value => do
    let w ← get
    match w.sensors.list.find? fun tt => tt.snum == n with
    | none => onLogged (Sensors.setState n value)
    | some tt =>
      log tt.address .forced
      onLogged (Sensors.setState n value)
  | inputChangeCallback vpin state => onLogged (Sensors.inputChangeCallback vpin state)

theorem shadows_onLogged {α : Type} (m : Sen α) : Shadows Logged.sensors (onLogged m) m :=
  .zoom (fun _ _ => rfl) m

theorem shadows_log {a : Nat} {entry : DebounceEntry Bool} {α : Type} {m : Log α} {n : Sen α}
    (h : Shadows Logged.sensors m n) : Shadows Logged.sensors (log a entry >>= fun _ => m) n :=
  .ghost (fun _ => rfl) h

theorem shadows_scanSensor (read : UInt16 → Bool) (a : Nat) :
    Shadows Logged.sensors (scanSensor read a) (checkSensor read a) := by
  apply Shadows.peek
  intro w
  have hscan : Shadows Logged.sensors
      (onLogged (checkSensor read a) >>= fun report =>
        log a (.sampled (seen read w.sensors a) report) >>= fun _ => pure report)
      (checkSensor read a >>= pure) :=
    (shadows_onLogged (checkSensor read a)).bind fun report => shadows_log (.pure report)
  rwa [bind_pure (checkSensor read a)] at hscan

/-- The record does not change what the scan does. -/
theorem shadows_scanFrom (read : UInt16 → Bool) (count : Nat) :
    Shadows Logged.sensors (scanFrom read count) (checkFrom read count) := by
  induction count with
  | zero => exact .pure []
  | succ count ih =>
    apply Shadows.get
    intro w
    cases w.sensors.readingSensor with
    | none => exact .pure []
    | some a =>
      apply (shadows_scanSensor read a).bind
      intro pause
      cases pause with
      | true => exact .pure [a]
      | false => exact ih.bind fun more => .pure (a :: more)

/-- The record disturbs nothing. -/
theorem shadows_logged (op : Op) : Shadows Logged.sensors op.logged op.call := by
  cases op with
  | checkAll thisTime read =>
    have hall : Shadows Logged.sensors (scanAll thisTime read) (Sensors.checkAll thisTime read) := by
      apply Shadows.get
      intro w
      apply Shadows.ite
      · exact fun _ => .pure (false, [])
      · intro _
        apply (shadows_onLogged (startCycle thisTime)).bind
        intro started
        exact (shadows_scanFrom read maxPerEntry).bind fun addresses => .pure (started, addresses)
    exact hall.bind fun _ => .pure ()
  | create snum pin pullUp memory hasCallback => exact (shadows_onLogged _).bind fun _ => .pure ()
  | remove n => exact (shadows_onLogged _).bind fun _ => .pure ()
  | setState n value =>
    apply Shadows.peek
    intro w
    cases w.sensors.list.find? fun tt => tt.snum == n with
    | none => exact shadows_onLogged _
    | some tt => exact shadows_log (shadows_onLogged _)
  | inputChangeCallback vpin state => exact shadows_onLogged _

/-! ## A sensor is a debouncer -/

def debouncer (tt : Sensor) : Debouncer Bool := ⟨tt.active, tt.latchDelay⟩

theorem sample_debouncer (read : UInt16 → Bool) (tt : Sensor) :
    (debouncer tt).sample minReadCount (polled read tt) =
      (debouncer (examined read tt).1, (examined read tt).2) := by
  unfold examined debouncer sample
  grind

/-- Each history is one of the sensor at its address, if that is on the list. -/
structure Traced (s : Sensors) (history : Nat → List (DebounceEntry Bool)) : Prop where
  runs : ∀ a, ∃ d, Run minReadCount false (history a) d ∧
    ∀ tt ∈ s.list, tt.address = a → debouncer tt = d
  unused : ∀ a, s.fresh ≤ a → history a = []

variable {history : Nat → List (DebounceEntry Bool)}

theorem Traced.of_subset (h : Traced s history) (hlist : s'.list ⊆ s.list) (hfresh : s'.fresh = s.fresh) :
    Traced s' history := by
  refine ⟨fun a => ?_, fun a ha => h.unused a (hfresh ▸ ha)⟩
  obtain ⟨d, hrun, hd⟩ := h.runs a
  exact ⟨d, hrun, fun tt htt => hd tt (hlist htt)⟩

/-- A change of one sensor, with the entry for it. -/
theorem Traced.update (h : Traced s history) {f : Sensor → Sensor} {entry : DebounceEntry Bool}
    (ha : a < s.fresh) (hf : ∀ tt, tt.address = a → (f tt).address = a)
    (hrun : ∀ d, Run minReadCount false (history a) d →
      (∀ tt ∈ s.list, tt.address = a → debouncer tt = d) →
      ∃ d', Run minReadCount false (entry :: history a) d' ∧
        ∀ tt ∈ s.list, tt.address = a → debouncer (f tt) = d') :
    Traced { s with list := Sensors.update s.list a f }
      (Function.update history a (entry :: history a)) := by
  refine ⟨fun b => ?_, fun b hb => ?_⟩
  · obtain ⟨d, hd, hdebouncer⟩ := h.runs b
    by_cases hb : b = a
    · obtain rfl := hb
      obtain ⟨d', hd', hdebouncer'⟩ := hrun d hd hdebouncer
      rw [Function.update_self]
      refine ⟨d', hd', fun tt htt hta => ?_⟩
      obtain ⟨old, hold, rfl⟩ := List.mem_map.mp htt
      by_cases holda : old.address = b
      · rw [if_pos holda]
        exact hdebouncer' old hold holda
      · rw [if_neg holda] at hta
        exact absurd hta holda
    · rw [Function.update_of_ne hb]
      refine ⟨d, hd, fun tt htt hta => ?_⟩
      obtain ⟨old, hold, rfl⟩ := List.mem_map.mp htt
      by_cases holda : old.address = a
      · rw [if_pos holda] at hta
        exact absurd ((hta.symm.trans (hf old holda))) hb
      · rw [if_neg holda] at hta ⊢
        exact hdebouncer old hold hta
  · have hne : b ≠ a := by
      intro heq
      rw [heq] at hb
      exact absurd ha (Nat.not_lt.mpr hb)
    rw [Function.update_of_ne hne]
    exact h.unused b hb

theorem mem_of_at? {list rest : List Sensor} {tt : Sensor} (h : at? list a = some (tt, rest)) :
    tt ∈ list := by
  induction list with
  | nil => cases h
  | cons head list ih =>
    rw [at?] at h
    split at h
    · cases h
      exact List.mem_cons_self
    · exact List.mem_cons_of_mem head (ih h)

/-! ## What each call keeps -/

/-- The scan of a sensor is a sample of its debouncer. -/
theorem wp_scanSensor {w : Logged} (hscanning : Scanning w.sensors ds (a :: rs))
    (h : Traced w.sensors w.history) (read : UInt16 → Bool) :
    wp F (scanSensor read a) (fun _ w' =>
      Scanning w'.sensors (ds ++ [a]) rs ∧ Traced w'.sensors w'.history) w := by
  have hmoved := wp_checkSensor (F := F) hscanning read
  obtain ⟨tt, rest, hat, htt, -⟩ := exists_at? hscanning.list hscanning.head_not_mem
  simp only [checkSensor, wp_bind, wp_get, hat, wp_set, wp_pure] at hmoved
  simp only [scanSensor, onLogged, log, checkSensor, wp_bind, wp_get, wp_zoom, hat, wp_set, wp_modify, wp_pure]
  refine ⟨hmoved, ?_⟩
  have hin : a ∈ w.sensors.addresses := by
    rw [hscanning.list]
    exact List.mem_append_right ds List.mem_cons_self
  have hsee : seen read w.sensors a = polled read tt := by
    rw [seen, hat]
    rfl
  have htraced : Traced { w.sensors with list := update w.sensors.list a fun _ => (examined read tt).1 }
      (Function.update w.history a
        (.sampled (seen read w.sensors a) (examined read tt).2 :: w.history a)) := by
    refine h.update (hscanning.fresh a hin) (fun _ _ => (address_examined read tt).trans htt) ?_
    intro d hd hdebouncer
    have hsample := sample_debouncer read tt
    rw [hdebouncer tt (mem_of_at? hat) htt] at hsample
    have hnext := hd.sample (polled read tt)
    rw [hsample] at hnext
    rw [hsee]
    exact ⟨_, hnext, fun _ _ _ => rfl⟩
  exact ⟨htraced.runs, htraced.unused⟩

/-- The invariant of all runs. -/
def Logged.Good (w : Logged) : Prop :=
  (∃ ds rs, Scanning w.sensors ds rs) ∧ Traced w.sensors w.history

/-- The scan keeps the record of the reports good. -/
theorem wp_scanFrom {w : Logged} (read : UInt16 → Bool) (count : Nat) (h : w.Good) :
    wp F (scanFrom read count) (fun _ w' => w'.Good) w := by
  induction count generalizing w with
  | zero => exact h
  | succ count ih =>
    obtain ⟨⟨ds, rs, hscanning⟩, htraced⟩ := h
    simp only [scanFrom, wp_bind, wp_get]
    rw [hscanning.reading]
    cases rs with
    | nil => exact ⟨⟨ds, [], hscanning⟩, htraced⟩
    | cons a rs =>
      simp only [List.head?_cons, wp_bind]
      refine wp_mono (wp_scanSensor hscanning htraced read) ?_
      rintro pause w' ⟨hscanning', htraced'⟩
      have hgood : w'.Good := ⟨⟨_, _, hscanning'⟩, htraced'⟩
      cases pause with
      | true => exact hgood
      | false =>
        simp only [Bool.false_eq_true, if_false, wp_bind, wp_pure]
        exact ih hgood

theorem wp_startCycle {w : Logged} (h : w.Good) (thisTime : UInt32) :
    wp F (onLogged (startCycle thisTime)) (fun _ w' => w'.Good) w := by
  obtain ⟨⟨ds, rs, hscanning⟩, htraced⟩ := h
  simp only [onLogged, startCycle, wp_zoom, wp_bind, wp_get]
  by_cases hstart : w.sensors.readingSensor = none ∧ cycleInterval ≤ thisTime - w.sensors.lastReadCycle
  · rw [if_pos hstart]
    have hfirst : Scanning { w.sensors with
        readingSensor := pointer w.sensors.list, lastReadCycle := thisTime } [] w.sensors.addresses :=
      ⟨rfl, pointer_eq w.sensors.list, hscanning.nodup, hscanning.fresh⟩
    exact ⟨⟨_, _, hfirst⟩, htraced.runs, htraced.unused⟩
  · rw [if_neg hstart]
    exact ⟨⟨ds, rs, hscanning⟩, htraced⟩

theorem wp_remove_traced (h : Traced s history) (n : Int16) :
    wp F (remove n) (fun _ s' => Traced s' history) s := by
  simp only [remove, wp_bind, wp_get]
  cases s.list.find? fun tt => tt.snum == n with
  | none => exact h
  | some tt => exact h.of_subset (List.filter_sublist.subset) rfl

/-- A new sensor has the history of an address that was not used. -/
theorem wp_create_traced (h : Traced s history) (snum : Int16) (pin : UInt16) (pullUp : UInt8)
    (memory hasCallback : Bool) :
    wp F (create snum pin pullUp memory hasCallback) (fun _ s' => Traced s' history) s := by
  unfold create
  apply wp_ite
  · exact fun _ => h
  · intro _
    rw [wp_bind]
    refine wp_mono (wp_remove_traced h snum) ?_
    intro removed s' hs'
    rw [wp_bind]
    apply wp_when
    · intro _
      refine ⟨fun a => ?_, fun a ha => hs'.unused a (Nat.le_of_succ_le ha)⟩
      obtain ⟨d, hrun, hd⟩ := hs'.runs a
      refine ⟨d, hrun, fun tt htt hta => ?_⟩
      rcases List.mem_cons.mp htt with rfl | hold
      · obtain rfl := hta
        rw [hs'.unused s'.fresh (Nat.le_refl s'.fresh)] at hrun
        cases hrun
        rfl
      · exact hd tt hold hta
    · exact fun _ => hs'

/-- **Every call keeps the histories.** -/
theorem wp_logged {w : Logged} (h : w.Good) (op : Op) : wp F op.logged (fun _ w' => w'.Good) w := by
  obtain ⟨⟨ds, rs, hscanning⟩, htraced⟩ := h
  cases op with
  | checkAll thisTime read =>
    simp only [Op.logged, scanAll, wp_bind, wp_get]
    apply wp_ite
    · exact fun _ => ⟨⟨ds, rs, hscanning⟩, htraced⟩
    · intro _
      simp only [wp_bind, wp_pure]
      refine wp_mono (wp_startCycle ⟨⟨ds, rs, hscanning⟩, htraced⟩ thisTime) ?_
      exact fun _ w' hw' => wp_scanFrom read maxPerEntry hw'
  | create snum pin pullUp memory hasCallback =>
    simp only [Op.logged, onLogged, wp_bind, wp_zoom, wp_pure]
    refine wp_mono (wp_and (wp_create hscanning snum pin pullUp memory hasCallback)
      (wp_create_traced htraced snum pin pullUp memory hasCallback)) ?_
    rintro removed s' ⟨⟨new, hs'⟩, htraced'⟩
    exact ⟨⟨_, _, hs'⟩, htraced'⟩
  | remove n =>
    simp only [Op.logged, onLogged, wp_bind, wp_zoom, wp_pure]
    refine wp_mono (wp_and (wp_remove hscanning n) (wp_remove_traced htraced n)) ?_
    rintro removed s' ⟨hs', htraced'⟩
    exact ⟨⟨_, _, hs'⟩, htraced'⟩
  | setState n value =>
    simp only [Op.logged, wp_bind, wp_get]
    cases hfind : w.sensors.list.find? fun tt => tt.snum == n with
    | none =>
      simp only [onLogged, Sensors.setState, wp_zoom, wp_modify, hfind]
      exact ⟨⟨ds, rs, hscanning⟩, htraced⟩
    | some tt =>
      simp only [log, onLogged, Sensors.setState, wp_bind, wp_zoom, wp_modify, hfind]
      have hin : tt.address ∈ w.sensors.addresses :=
        List.mem_map_of_mem (List.mem_of_find?_eq_some hfind)
      refine ⟨⟨ds, rs, hscanning.update fun _ htt => htt⟩, ?_⟩
      refine htraced.update (hscanning.fresh _ hin) (fun _ htt => htt) ?_
      intro d hd hdebouncer
      refine ⟨d.force, hd.force, fun tt' htt' hta => ?_⟩
      rw [← hdebouncer tt' htt' hta]
      rfl
  | inputChangeCallback vpin state =>
    simp only [Op.logged, onLogged, Sensors.inputChangeCallback, wp_zoom, wp_modify]
    split
    · exact ⟨⟨ds, rs, hscanning⟩, htraced⟩
    · next tt _ =>
      refine ⟨⟨ds, rs, hscanning.update fun _ htt => htt⟩, fun a => ?_, htraced.unused⟩
      -- the input of a sensor is not a part of its debouncer
      obtain ⟨d, hrun, hd⟩ := htraced.runs a
      refine ⟨d, hrun, fun tt' htt' hta => ?_⟩
      obtain ⟨old, hold, rfl⟩ := List.mem_map.mp htt'
      have hsame : debouncer (if old.address = tt.address then { old with inputState := state } else old) =
          debouncer old := by
        split <;> rfl
      rw [hsame]
      refine hd old hold ?_
      rw [← hta]
      split <;> rfl

theorem good_logged_init : Logged.init.Good :=
  ⟨⟨[], [], rfl, rfl, List.nodup_nil, fun _ ha => absurd ha List.not_mem_nil⟩,
    fun _ => ⟨_, .start, fun _ htt => absurd htt List.not_mem_nil⟩, fun _ _ => rfl⟩

/-- **Debounced reports.** Whatever calls are made, what is reported last of a sensor is its state, and
a scan reports exactly when what it saw differs from that and either the `minReadCount` scans before it
since the last report saw a change, too, or `setState` was called since the last scan that agreed or
reported. So the reports of a sensor alternate, and without `setState` a change that fewer scans have
seen is not reported. The run with its record does to the sensors what the plain calls do. -/
theorem scan_reports_iff (ops : List Op) :
    Shadows Logged.sensors (runProg Op.logged ops) (runProg Op.call ops) ∧
    wp (fun _ => False) (runProg Op.logged ops) (fun _ w =>
      (∀ tt ∈ w.sensors.list, tt.active = lastReported false (w.history tt.address)) ∧
      ∀ a,
        (∀ pre seen report post, w.history a = pre ++ .sampled seen report :: post →
          (report = true ↔ seen ≠ lastReported false post ∧
            ((minReadCount ≤ (sinceReport post).length ∧
              ∀ x ∈ (sinceReport post).take minReadCount, x ≠ lastReported false post) ∨
              ForcedSince false post))) ∧
        (reports (w.history a) ++ [false]).IsChain (· ≠ ·) ∧
        ∀ pre seen post, w.history a = pre ++ .sampled seen true :: post → .forced ∉ post →
          minReadCount ≤ (sinceReport post).length ∧ ∀ x ∈ (sinceReport post).take minReadCount, x = seen)
      Logged.init := by
  have hrun : wp (fun _ => False) (runProg Op.logged ops) (fun _ => Logged.Good) Logged.init :=
    wp_runProg Logged.Good (fun _ op _ h => wp_logged h op) good_logged_init
      (alongProg_of_forall (fun _ _ _ => trivial) _)
  refine ⟨.runProg shadows_logged ops, wp_mono hrun ?_⟩
  rintro _ w ⟨-, htraced⟩
  refine ⟨fun tt htt => ?_, fun a => ?_⟩
  · obtain ⟨d, hd, hdebouncer⟩ := htraced.runs tt.address
    have hreported := hd.counts.reported
    rwa [← hdebouncer tt htt rfl] at hreported
  · obtain ⟨d, hd, -⟩ := htraced.runs a
    refine ⟨fun pre seen report post hsplit => ?_, hd.reports_alternate, fun pre seen post hsplit hfree => ?_⟩
    · rw [hsplit] at hd
      exact hd.believed
    · rw [hsplit] at hd
      have hbelieved := hd.believed.mp rfl
      obtain ⟨hlength, hseen⟩ := hbelieved.of_not_forced hfree
      refine ⟨hlength, fun x hx => ?_⟩
      -- there are two states only
      have hx := hseen x hx
      have hchange := hbelieved.1
      exact (Bool.eq_not.mpr hx).trans (Bool.eq_not.mpr hchange).symm

end CommandStation.Sensors
