import CommandStation.DCC.Calls
import CommandStation.Lib.Run
import CommandStation.WiThrottle.Lines

/-!
# The locos that a client has

The entries of a client are its locos. `LOOPLOCOS` goes over all of them, the free ones included: a free
entry has a null character for its throttle, but it keeps the loco it had, and before its first loco it
has what was in the memory. Beside a client stands the list of the locos that it has added and not
released.
-/

namespace CommandStation

open CommandStation.Lib

namespace MyLoco

/-- The throttle and the loco of an entry. -/
def key (loco : MyLoco) : Char × Int := (loco.throttle, loco.cab)

def isFree (loco : MyLoco) : Bool := loco.throttle == '\x00'

/-- `functionToggles & (1L<<fKey)`. For what is not the number of a function the shift is undefined;
`beyond` is what it comes to. -/
def unsetOnRelease (beyond : UInt32 → Int → Bool) (loco : MyLoco) (fKey : Int) : Bool :=
  if 0 ≤ fKey ∧ fKey < 32 then loco.functionToggles &&& 1 <<< UInt32.ofNat fKey.toNat != 0
  else beyond loco.functionToggles fKey

end MyLoco

namespace WiThrottle

/-- A throttle, as it is in an entry. -/
def throttleOf (b : UInt8) : Char := Char.ofNat b.toNat

/-! ## The entries -/

/-- The condition of `LOOPLOCOS(throttleChar, cab)`. -/
def selects (throttleChar : Char) (cab : Int) (loco : Char × Int) : Bool :=
  (loco.1 == throttleChar || throttleChar == '*') && (cab < 0 || loco.2 == cab)

/-- A loop that changes the entries it takes. -/
def mapLocos (client : WiThrottle) (throttleChar : Char) (cab : Int) (f : MyLoco → MyLoco) :
    WiThrottle :=
  { client with
    myLocos := client.myLocos.map fun loco =>
      if selects throttleChar cab loco.key then f loco else loco }

/-- The constructor: the entries keep what is in the memory, but for the throttle. -/
def construct (memory : Fin maxMyLoco → MyLoco) : WiThrottle where
  myLocos := (List.ofFn memory).map fun loco => { loco with throttle := '\x00' }
  mostRecentCab := 0

/-- What the station answers while a request is handled. -/
structure Answers where
  /-- `LocoSlot::getSlot` -/
  slot : Bool
  functionMap : UInt32
  /-- `functionToggles`, by the roster -/
  functionToggles : UInt32
  /-- `millis()` -/
  now : UInt32

/-- The `'+'` request of `multithrottle` for a loco that is not 0, and whether the loco is added. -/
def add (client : WiThrottle) (throttleChar lengthChar : Char) (locoid : Int) (answers : Answers) :
    WiThrottle × Bool :=
  if lengthChar ≠ lorS locoid then (client, false)
  else if answers.slot = false then (client, false)
  else
    -- use first empty "slot" on this client's list
    match client.myLocos.findIdx? MyLoco.isFree with
    | none => (client, false)
    | some i =>
      ({ client with
          myLocos := client.myLocos.set i
            ⟨throttleChar, locoid, true, answers.functionMap, answers.functionToggles⟩
          mostRecentCab := UInt16.ofInt locoid }, true)

/-- The `'-'` request of `multithrottle`. -/
def remove (client : WiThrottle) (throttleChar : Char) (locoid : Int) : WiThrottle :=
  client.mapLocos throttleChar locoid fun loco => { loco with throttle := '\x00' }

/-- `markForBroadcast2` -/
def mark (client : WiThrottle) (cab : Int) : WiThrottle :=
  client.mapLocos '*' cab fun loco => { loco with broadcastPending := true }

/-- The end of `checkHeartbeat`: what is pending is sent. -/
def report (client : WiThrottle) (functionMap : Int → UInt32) : WiThrottle :=
  client.mapLocos '*' (-1) fun loco =>
    if !loco.isFree && loco.broadcastPending then
      { loco with broadcastPending := false, functionMap := functionMap loco.cab }
    else loco

/-! ## `locoAction` -/

/-- The body of the loop of `'R'`. -/
def setDirection (forward : Bool) (now : UInt32) (cab : Int) : Dcc Unit := do
  let speed ← DCC.getThrottleSpeed (UInt16.ofInt cab)
  let _ ← DCC.setThrottle (UInt16.ofInt cab) speed forward now
  pure ()

def setFn (cab fKey : Int) (pressed : Bool) : Dcc Unit := do
  let _ ← DCC.setFn cab (Int16.ofInt fKey) pressed
  pure ()

/-- The body of a loop of `locoAction`: what it calls for the loco, if anything. -/
def LocoAction.call (beyond : UInt32 → Int → Bool) (now : UInt32) (loco : MyLoco) :
    LocoAction → Option (Dcc Unit)
  | .speed v => some (setSpeed (wiTToDCCSpeed v) now loco.cab)
  | .functionKey pressed fKey =>
    if loco.unsetOnRelease beyond fKey then some (setFn loco.cab fKey pressed)
    else if pressed then some (DCC.changeFn loco.cab (Int16.ofInt fKey))
    else none
  | .forceFunction pressed fKey => some (setFn loco.cab fKey pressed)
  | .query => none
  | .direction forward => some (setDirection forward now loco.cab)
  | .emergencyStop => some (setSpeed 1 now loco.cab)
  | .idle => some (setSpeed 0 now loco.cab)

/-- The calls of `locoAction`, each with its loco. -/
def locoCalls (client : WiThrottle) (beyond : UInt32 → Int → Bool) (now : UInt32) (throttleChar : Char)
    (cab : Int) (action : LocoAction) : List (Int × Dcc Unit) :=
  (client.loopLocos throttleChar cab).filterMap fun loco =>
    (action.call beyond now loco).map fun call => (loco.cab, call)

/-- What `locoAction` leaves in the client. -/
def locoAction (client : WiThrottle) (throttleChar : Char) (cab : Int) : LocoAction → WiThrottle
  | .speed _ | .direction _ | .idle =>
    (client.loopLocos throttleChar cab).foldl
      (fun client loco => { client with mostRecentCab := UInt16.ofInt loco.cab }) client
  | .query => client.mapLocos throttleChar cab fun loco => { loco with broadcastPending := true }
  | .functionKey _ _ | .forceFunction _ _ | .emergencyStop => client

/-! ## What comes to a client -/

/-- A line, with what it asks for. Behind it is the rest of the buffer. -/
structure Request (platform : Platform) (exrail : Bool) where
  cmd : List UInt8
  action : Action
  reads : readLine platform exrail cmd = some action

/-- `addcmd` of `getLocoCallback` -/
def addcmd (stashThrottleChar addrchar : UInt8) (locoid : Nat) : List UInt8 :=
  [77, stashThrottleChar, 43, addrchar] ++ (DCCEXParser.decimal locoid ++ [0])

/-- `getLocoCallback` asks for the loco that was read on the programming track. -/
def getLocoCallback (platform : Platform) (stashThrottleChar : UInt8) (locoid : Int16) : Action :=
  let added (addrchar : UInt8) (locoid : Int16) :=
    (readMultithrottle platform
      (addcmd stashThrottleChar addrchar locoid.toInt.toNat)).getD .nothing
  if locoid ≤ 0 then .nothing
  else if locoid.toUInt16 &&& DCC.longAddrMarker != 0 then
    let locoid := locoid ^^^ DCC.longAddrMarker.toInt16   -- remove marker bit to get real long addr
    if locoid.toInt ≤ DCC.highestShortAddr then .nothing  -- out of range for long addr
    else added 76 locoid
  else added 83 locoid

inductive Event (platform : Platform) (exrail : Bool) where
  /-- `getThrottle`, for a client that there is not yet -/
  | created (memory : Fin maxMyLoco → MyLoco)
  | line (request : Request platform exrail) (answers : Answers)
  /-- if the stashed instance is this client -/
  | getLocoCallback (stashThrottleChar : UInt8) (locoid : Int16) (answers : Answers)
  | markForBroadcast (cab : Int)
  /-- `checkHeartbeat`, with the function maps that it sends -/
  | reported (functionMap : Int → UInt32)
  /-- `checkHeartbeat` after the time is over, or `forget` -/
  | deleted

variable {platform : Platform} {exrail : Bool}

/-- A client, until it deletes itself, and the locos that it has added and not released, with their
throttles. -/
structure Session where
  client : Option WiThrottle
  held : List (Char × Int)

namespace Session

def start : Session := ⟨none, []⟩

/-- The client does what it is asked for. A loco counts as added if there is a throttle for it. -/
def act (s : Session) (client : WiThrottle) (answers : Answers) : Action → Session
  | .addLoco throttleChar lengthChar locoid =>
    let added := client.add (throttleOf throttleChar) (throttleOf lengthChar) locoid answers
    { client := some added.1
      held := if added.2 ∧ throttleOf throttleChar ≠ '\x00'
        then (throttleOf throttleChar, locoid) :: s.held else s.held }
  | .removeLocos throttleChar locoid =>
    { client := some (client.remove (throttleOf throttleChar) locoid)
      held := s.held.filter fun loco => !selects (throttleOf throttleChar) locoid loco }
  | .locos throttleChar cab action =>
    { s with client := some (client.locoAction (throttleOf throttleChar) cab action) }
  | .quit => ⟨none, []⟩
  | _ => { s with client := some client }

/-- What is asked of an object that is not there any more is undefined: `OnHeld` does not hold there. -/
def take (s : Session) (action : Action) (answers : Answers) : Session :=
  match s.client with
  | none => s
  | some client => s.act client answers action

def step (s : Session) : Event platform exrail → Session
  | .created memory => ⟨some (construct memory), []⟩
  | .line request answers => s.take request.action answers
  | .getLocoCallback stashThrottleChar locoid answers =>
    s.take (WiThrottle.getLocoCallback platform stashThrottleChar locoid) answers
  | .markForBroadcast cab => { s with client := s.client.map fun client => client.mark cab }
  | .reported functionMap => { s with client := s.client.map fun client => client.report functionMap }
  | .deleted => ⟨none, []⟩

end Session

/-! ## Actions on locos that are held -/

section Actions

variable (beyond : UInt32 → Int → Bool)

/-- What is asked for, if the event is a line or the answer of the programming track. -/
def Event.action : Event platform exrail → Option Action
  | .line request _ => some request.action
  | .getLocoCallback stashThrottleChar locoid _ =>
    some (WiThrottle.getLocoCallback platform stashThrottleChar locoid)
  | .created _ | .markForBroadcast _ | .reported _ | .deleted => none

def Event.now : Event platform exrail → UInt32
  | .line _ answers | .getLocoCallback _ _ answers => answers.now
  | .created _ | .markForBroadcast _ | .reported _ | .deleted => 0

/-- What is called in `DCC` for a request. -/
def calls (client : WiThrottle) (now : UInt32) : Action → List (Int × Dcc Unit)
  | .locos throttleChar cab action => client.locoCalls beyond now (throttleOf throttleChar) cab action
  | _ => []

/-- The client is there, and what is called is called for locos that it has added and not released. -/
def Session.OnHeld (s : Session) (e : Event platform exrail) : Prop :=
  ∀ action ∈ e.action, ∃ client ∈ s.client,
    ∀ call ∈ client.calls beyond e.now action, call.1 ∈ s.held.map Prod.snd

/-- The action calls something for the loco of an entry. -/
def LocoAction.applies (loco : MyLoco) : LocoAction → Bool
  | .functionKey pressed fKey => loco.unsetOnRelease beyond fKey || pressed
  | .query => false
  | _ => true

/-- A free entry that is selected has the loco of an entry in use, or the action has nothing to do for
it. -/
def Covered (client : WiThrottle) : Action → Prop
  | .locos throttleChar cab action =>
    ∀ loco ∈ client.loopLocos (throttleOf throttleChar) cab, loco.isFree = true →
      action.applies beyond loco = true →
        ∃ other ∈ client.myLocos, other.isFree = false ∧ other.cab = loco.cab
  | _ => True

def Session.Safe (s : Session) (e : Event platform exrail) : Prop :=
  ∀ action ∈ e.action, ∃ client ∈ s.client, client.Covered beyond action

instance (s : Session) (e : Event platform exrail) : Decidable (s.OnHeld beyond e) :=
  inferInstanceAs (Decidable (∀ action ∈ e.action, ∃ client ∈ s.client,
    ∀ call ∈ client.calls beyond e.now action, call.1 ∈ s.held.map Prod.snd))

end Actions

section Keys

variable {client : WiThrottle} {throttleChar : Char} {cab : Int} {loco : MyLoco}

theorem mem_loopLocos : loco ∈ client.loopLocos throttleChar cab ↔
    loco ∈ client.myLocos ∧ selects throttleChar cab loco.key = true :=
  List.mem_filter

/-- A throttle that is a letter selects no free entry. -/
theorem not_isFree_of_selects (hall : throttleChar ≠ '*') (hnull : throttleChar ≠ '\x00')
    (h : selects throttleChar cab loco.key = true) : loco.isFree = false := by
  simp only [selects, MyLoco.key, Bool.and_eq_true, Bool.or_eq_true, beq_iff_eq, hall, or_false] at h
  rw [MyLoco.isFree, h.1, beq_eq_false_iff_ne]
  exact hnull

/-- The throttles and locos of the entries. -/
def keys (client : WiThrottle) : List (Char × Int) := client.myLocos.map MyLoco.key

/-- What changes neither throttle nor loco of an entry. -/
theorem keys_mapLocos {f : MyLoco → MyLoco} (hf : ∀ loco, (f loco).key = loco.key) :
    (client.mapLocos throttleChar cab f).keys = client.keys := by
  simp only [keys, mapLocos, List.map_map]
  apply List.map_congr_left
  intro loco _
  rw [Function.comp_apply]
  split
  · exact hf loco
  · rfl

theorem keys_remove : (client.remove throttleChar cab).keys =
    client.keys.map fun key => if selects throttleChar cab key then ('\x00', key.2) else key := by
  simp only [keys, remove, mapLocos, List.map_map]
  apply List.map_congr_left
  intro loco _
  rw [Function.comp_apply, Function.comp_apply]
  split <;> rfl

theorem mem_keys_remove {key : Char × Int} (hkey : key.1 ≠ '\x00') :
    key ∈ (client.remove throttleChar cab).keys ↔
      key ∈ client.keys ∧ selects throttleChar cab key = false := by
  rw [keys_remove, List.mem_map]
  constructor
  · rintro ⟨old, hold, rfl⟩
    by_cases hselected : selects throttleChar cab old = true
    · rw [if_pos hselected] at hkey
      exact absurd rfl hkey
    · rw [if_neg hselected]
      exact ⟨hold, Bool.eq_false_iff.mpr hselected⟩
  · rintro ⟨hmem, hnot⟩
    refine ⟨key, hmem, ?_⟩
    rw [hnot, if_neg Bool.false_ne_true]

/-- What another value is put in the place of is the only one that may be lost. -/
theorem mem_set_iff {α : Type} {l : List α} {i : Nat} (hlt : i < l.length) {x a : α} (hne : l[i] ≠ x) :
    x ∈ l.set i a ↔ x = a ∨ x ∈ l := by
  constructor
  · intro h
    exact (List.mem_or_eq_of_mem_set h).symm
  · rintro (rfl | h)
    · exact List.mem_set hlt x
    · obtain ⟨j, hj, rfl⟩ := List.mem_iff_getElem.mp h
      have hij : i ≠ j := by
        rintro rfl
        exact hne rfl
      rw [← List.getElem_set_ne (a := a) hij (by rwa [List.length_set])]
      exact List.getElem_mem _

/-- A throttle has the loco under its letter afterwards if it had it before, or if it was given it now. -/
theorem mem_keys_add {lengthChar : Char} {locoid : Int} {answers : Answers} {key : Char × Int}
    (hkey : key.1 ≠ '\x00') :
    key ∈ (client.add throttleChar lengthChar locoid answers).1.keys ↔
      key ∈ client.keys ∨
        (client.add throttleChar lengthChar locoid answers).2 = true ∧ key = (throttleChar, locoid) := by
  unfold add
  split
  · simp
  split
  · simp
  split
  · simp
  · next i hi =>
    obtain ⟨hlt, hfree, -⟩ := List.findIdx?_eq_some_iff_getElem.mp hi
    have hlength : i < client.keys.length := by rwa [keys, List.length_map]
    have hold : client.keys[i] ≠ key := by
      intro hsame
      have hnull : client.keys[i].1 = '\x00' := by
        simp only [keys, List.getElem_map]
        exact beq_iff_eq.mp hfree
      exact hkey (hsame ▸ hnull)
    simp only [keys, List.map_set, true_and]
    rw [← keys, mem_set_iff hlength hold, or_comm]
    rfl

end Keys

section Inv

variable {s : Session} {client : WiThrottle} {beyond : UInt32 → Int → Bool}

/-- What is held is what the entries in use are for. -/
structure Session.Inv (s : Session) : Prop where
  letters : ∀ key ∈ s.held, key.1 ≠ '\x00'
  entries : ∀ client ∈ s.client, ∀ key : Char × Int, key.1 ≠ '\x00' →
    (key ∈ s.held ↔ key ∈ client.keys)

theorem Session.inv_start : start.Inv := ⟨nofun, nofun⟩

/-- The same entries, but for what is neither throttle nor loco. -/
theorem Session.Inv.of_keys (h : s.Inv) {client' : Option WiThrottle}
    (hkeys : ∀ c' ∈ client', ∃ c ∈ s.client, c'.keys = c.keys) : Inv { s with client := client' } := by
  refine ⟨h.letters, fun c' hc' key hkey => ?_⟩
  obtain ⟨c, hc, hsame⟩ := hkeys c' hc'
  rw [hsame]
  exact h.entries c hc key hkey

/-- An action on locos leaves those of the throttle as they are. -/
theorem keys_locoAction (throttleChar : Char) (cab : Int) (action : LocoAction) :
    (client.locoAction throttleChar cab action).keys = client.keys := by
  have hrecent : ∀ (locos : List MyLoco) (client : WiThrottle),
      (locos.foldl (fun client loco => { client with mostRecentCab := UInt16.ofInt loco.cab })
        client).keys = client.keys := by
    intro locos
    induction locos with
    | nil => exact fun _ => rfl
    | cons loco locos ih => exact fun client => ih _
  cases action with
  | speed v => exact hrecent _ _
  | functionKey pressed fKey => rfl
  | forceFunction pressed fKey => rfl
  | query => exact keys_mapLocos fun _ => rfl
  | direction forward => exact hrecent _ _
  | emergencyStop => rfl
  | idle => exact hrecent _ _

theorem not_mem_keys_construct (memory : Fin maxMyLoco → MyLoco) {key : Char × Int}
    (hkey : key.1 ≠ '\x00') : key ∉ (construct memory).keys := by
  intro h
  simp only [keys, construct, List.map_map] at h
  obtain ⟨old, -, rfl⟩ := List.mem_map.mp h
  exact hkey rfl

/-- **What a request keeps.** -/
theorem Session.Inv.act (h : s.Inv) (hclient : s.client = some client) (answers : Answers)
    (action : Action) : (s.act client answers action).Inv := by
  have hsame : Inv { s with client := some client } := by
    rw [← hclient]
    exact h
  cases action with
  | addLoco throttleChar lengthChar locoid =>
    refine ⟨?_, ?_⟩
    · intro key hmem
      dsimp only [Session.act] at hmem
      split at hmem
      · next hadded =>
        rcases List.mem_cons.mp hmem with rfl | hold
        · exact hadded.2
        · exact h.letters key hold
      · exact h.letters key hmem
    · rintro _ ⟨⟩ key hkey
      rw [mem_keys_add hkey, ← h.entries client hclient key hkey]
      dsimp only [Session.act]
      split
      · next hadded =>
        rw [List.mem_cons, or_comm]
        simp [hadded.1]
      · next hnot =>
        refine ⟨.inl, ?_⟩
        rintro (hmem | ⟨hadded, rfl⟩)
        · exact hmem
        · exact absurd ⟨hadded, hkey⟩ hnot
  | removeLocos throttleChar locoid =>
    refine ⟨fun key hmem => h.letters key (List.mem_filter.mp hmem).1, ?_⟩
    rintro _ ⟨⟩ key hkey
    rw [mem_keys_remove hkey, ← h.entries client hclient key hkey]
    simp [Session.act, List.mem_filter]
  | locos throttleChar cab action =>
    apply h.of_keys
    rintro _ ⟨⟩
    exact ⟨client, hclient, keys_locoAction _ _ _⟩
  | quit => exact inv_start
  | _ => exact hsame

theorem Session.Inv.take (h : s.Inv) (action : Action) (answers : Answers) :
    (s.take action answers).Inv := by
  unfold Session.take
  split
  · exact h
  · next client hclient => exact h.act hclient answers action

theorem Session.Inv.map (h : s.Inv) {f : WiThrottle → WiThrottle}
    (hf : ∀ client, (f client).keys = client.keys) :
    Inv { s with client := s.client.map f } := by
  apply h.of_keys
  intro c' hc'
  obtain ⟨c, hc, rfl⟩ := Option.map_eq_some_iff.mp hc'
  exact ⟨c, hc, hf c⟩

theorem Session.Inv.step (h : s.Inv) (e : Event platform exrail) : (s.step e).Inv := by
  cases e with
  | created memory =>
    refine ⟨nofun, ?_⟩
    rintro _ ⟨⟩ key hkey
    exact iff_of_false List.not_mem_nil (not_mem_keys_construct memory hkey)
  | line request answers => exact h.take _ _
  | getLocoCallback stashThrottleChar locoid answers => exact h.take _ _
  | markForBroadcast cab => exact h.map fun client => keys_mapLocos fun _ => rfl
  | reported functionMap =>
    refine h.map fun client => keys_mapLocos fun loco => ?_
    split <;> rfl
  | deleted => exact inv_start

/-- The locos that are held are those of the entries in use. -/
theorem Session.Inv.mem_held (h : s.Inv) (hclient : s.client = some client) {cab : Int} :
    cab ∈ s.held.map Prod.snd ↔ ∃ other ∈ client.myLocos, other.isFree = false ∧ other.cab = cab := by
  rw [List.mem_map]
  constructor
  · rintro ⟨key, hmem, rfl⟩
    have hkey := h.letters key hmem
    obtain ⟨other, hother, rfl⟩ := List.mem_map.mp ((h.entries client hclient key hkey).mp hmem)
    exact ⟨other, hother, beq_eq_false_iff_ne.mpr hkey, rfl⟩
  · rintro ⟨other, hother, hused, rfl⟩
    refine ⟨other.key, ?_, rfl⟩
    have hkey : other.key.1 ≠ '\x00' := beq_eq_false_iff_ne.mp hused
    rw [h.entries client hclient _ hkey]
    exact List.mem_map_of_mem hother

theorem isSome_call (now : UInt32) (loco : MyLoco) (action : LocoAction) :
    (action.call beyond now loco).isSome = action.applies beyond loco := by
  cases action with
  | functionKey pressed fKey =>
    dsimp only [LocoAction.call, LocoAction.applies]
    cases loco.unsetOnRelease beyond fKey <;> cases pressed <;> rfl
  | _ => rfl

/-- The locos that an action is for. -/
theorem forall_locoCalls {now : UInt32} {throttleChar : Char} {cab : Int} {action : LocoAction}
    {P : Int → Prop} : (∀ call ∈ client.locoCalls beyond now throttleChar cab action, P call.1) ↔
      ∀ loco ∈ client.loopLocos throttleChar cab, action.applies beyond loco = true → P loco.cab := by
  simp only [locoCalls, List.mem_filterMap, Option.map_eq_some_iff]
  constructor
  · intro h loco hloco happlies
    rw [← isSome_call now, Option.isSome_iff_exists] at happlies
    obtain ⟨program, hprogram⟩ := happlies
    exact h (loco.cab, program) ⟨loco, hloco, program, hprogram, rfl⟩
  · rintro h call ⟨loco, hloco, program, hprogram, rfl⟩
    apply h loco hloco
    rw [← isSome_call now, hprogram, Option.isSome_some]

/-- An action is for locos that are held exactly if the free entries are covered. -/
theorem Session.Inv.onHeld_iff (h : s.Inv) (e : Event platform exrail) :
    s.OnHeld beyond e ↔ s.Safe beyond e := by
  refine forall₂_congr fun action _ => exists_congr fun client => and_congr_right fun hclient => ?_
  cases action with
  | locos throttleChar cab action =>
    unfold calls Covered
    rw [forall_locoCalls]
    simp only [h.mem_held hclient]
    constructor
    · exact fun hall loco hloco _ happlies => hall loco hloco happlies
    · intro hall loco hloco happlies
      by_cases hfree : loco.isFree = true
      · exact hall loco hloco hfree happlies
      · exact ⟨loco, (mem_loopLocos.mp hloco).1, Bool.eq_false_iff.mpr hfree, rfl⟩
  | _ => exact iff_of_true nofun trivial

theorem throttleOf_inj {b c : UInt8} (h : throttleOf b = throttleOf c) : b = c := by
  have hvalid : ∀ b : UInt8, (throttleOf b).toNat = b.toNat := by
    intro b
    have hlt := b.toNat_lt
    rw [throttleOf, Char.ofNat, dif_pos (.inl (by omega))]
    rfl
  rw [← UInt8.toNat_inj, ← hvalid b, ← hvalid c, h]

/-- A throttle other than `*` and the null character leaves the free entries alone. -/
theorem covered_of_letter {throttleChar : UInt8} (hall : throttleChar ≠ 42) (hnull : throttleChar ≠ 0)
    (cab : Int) (action : LocoAction) : client.Covered beyond (.locos throttleChar cab action) := by
  intro loco hloco hfree
  have hselects := (mem_loopLocos.mp hloco).2
  have hused := not_isFree_of_selects (fun h => hall (throttleOf_inj h))
    (fun h => hnull (throttleOf_inj h)) hselects
  rw [hfree] at hused
  cases hused

end Inv

/-- **The actions of a client are for locos that it has added and not released** exactly if the free
entries are covered whenever an action selects them. With a throttle other than `*` and the null character
they always are. -/
theorem onHeld_iff_safe (beyond : UInt32 → Int → Bool) (events : List (Event platform exrail)) :
    (Along Session.step (Session.OnHeld beyond) Session.start events ↔
      Along Session.step (Session.Safe beyond) Session.start events) ∧
    ∀ (client : WiThrottle) (throttleChar : UInt8), throttleChar ≠ 42 → throttleChar ≠ 0 →
      ∀ cab action, client.Covered beyond (.locos throttleChar cab action) :=
  ⟨along_congr Session.Inv (fun _ e h => h.step e) (fun _ e h => h.onHeld_iff e) Session.inv_start events,
    fun _ _ => covered_of_letter⟩

/-- Loco 3 is added and released on throttle 0. -/
def released : List (Event .avr true) :=
  [.created fun _ => ⟨'\x00', 0, false, 0, 0⟩,
   .line ⟨[77, 48, 43, 83, 51, 10, 0], .addLoco 48 83 3, by decide⟩ ⟨true, 0, 4, 0⟩,
   .line ⟨[77, 48, 45, 83, 51, 10, 0], .removeLocos 48 3, by decide⟩ ⟨true, 0, 4, 0⟩]

/-- `M*AS3<;>V50` drives a loco that has been released. -/
theorem not_onHeld : ¬ ∀ (platform : Platform) (exrail : Bool) (beyond : UInt32 → Int → Bool)
    (events : List (Event platform exrail)),
    Along Session.step (Session.OnHeld beyond) Session.start events := by
  intro h
  have hdriven := h .avr true (fun _ _ => false) (released ++
    [.line ⟨[77, 42, 65, 83, 51, 60, 59, 62, 86, 53, 48, 10, 0], .locos 42 3 (.speed 50), by decide⟩
      ⟨true, 0, 4, 0⟩])
  revert hdriven
  decide

end WiThrottle

end CommandStation
