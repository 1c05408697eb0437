import CommandStation.DCCACK.LocoId
import CommandStation.DCCACK.Progress
import CommandStation.DCCEXParser.KeywordHasher

/-!
# Who asks for the programming track

The DCC-EX parser (`<R>`, `<W>`, `<V>`, `<B>`), WiThrottle clients (`M+*`) and tasks of EXRAIL
(`READ_LOCO`) start ack programs, and there is one interpreter for all of them. The parser has a stash
for the one command it waits for, and refuses others as long as it is busy. The other two start their
program in any case: `Setup` replaces what is running, whose callback is then never made.

Requests are numbered, and a callback carries the number of its request: this is a history variable,
as is the list of all requests accepted. What the callbacks write to their streams is left out, and so
is the variable in which EXRAIL waits for the loco id.
-/

namespace CommandStation

open CommandStation.Lib

/-! ## Requests -/

/-- The callbacks of the front ends. -/
inductive AckCallback where
  | wloco | w4 | wconsist | w | vbyte | vbit | b | rloco | r  -- `DCCEXParser::callback_Wloco` and so on
  | getLoco                                                   -- `WiThrottle::getLocoCallback`
  | readLoco                                                  -- `RMFT2::readLocoCallback`
  deriving DecidableEq, Repr

/-- The callback of the request with this number. -/
structure Ticket where
  number : Nat
  callback : AckCallback
  deriving DecidableEq, Repr

/-- What a front end may ask `DCC` for. -/
inductive AckRequest where
  | writeCVByte (cv : UInt16) (byteValue : UInt8)
  | writeCVBit (cv : UInt16) (bitNum : UInt8) (bitValue : Bool)
  | verifyCVByte (cv : UInt16) (byteValue : UInt8)
  | verifyCVBit (cv : UInt16) (bitNum : UInt8) (bitValue : Bool)
  | readCV (cv : UInt16)
  | getDriveawayLocoId
  | getLocoId
  | getConsistId
  | setLocoId (id : Int)
  | setConsistId (id : Int) (reverse : Bool)
  deriving DecidableEq, Repr

def AckRequest.make {κ : Type} (request : AckRequest) (callback : κ) (s : DCCACK κ) : DCCACK κ :=
  match request with
  | writeCVByte cv byteValue => DCC.writeCVByte cv byteValue callback s
  | writeCVBit cv bitNum bitValue => DCC.writeCVBit cv bitNum bitValue callback s
  | verifyCVByte cv byteValue => DCC.verifyCVByte cv byteValue callback s
  | verifyCVBit cv bitNum bitValue => DCC.verifyCVBit cv bitNum bitValue callback s
  | readCV cv => DCC.readCV cv callback s
  | getDriveawayLocoId => DCC.getDriveawayLocoId callback s
  | getLocoId => DCC.getLocoId callback s
  | getConsistId => DCC.getConsistId callback s
  | setLocoId id => DCC.setLocoId id callback s
  | setConsistId id reverse => DCC.setConsistId id reverse callback s

/-- The commands of the parser for the programming track. -/
inductive ProgOpcode where
  | W | V | B | R
  deriving DecidableEq, Repr

/-- What a command asks for, `none` if it is malformed: the cases `'W'`, `'V'`, `'B'` and `'R'` of
`DCCEXParser::parseOne`. Parameters that are not given are 0. -/
def ProgOpcode.request (opcode : ProgOpcode) (params : List Int16) : Option (AckRequest × AckCallback) :=
  let p (i : Nat) : Int16 := params.getD i 0
  let cv (i : Nat) : UInt16 := (p i).toUInt16
  let byte (i : Nat) : UInt8 := (p i).toUInt16.toUInt8
  match opcode with
  | W =>
    if params.length = 1 then some (.setLocoId (p 0).toInt, .wloco)
    else if params.length = 4 then some (.writeCVByte (cv 0) (byte 1), .w4)
    else if (params.length = 2 ∨ params.length = 3) ∧ p 0 = hk "CONSIST" then
      some (.setConsistId (p 1).toInt (p 2 = hk "REVERSE"), .wconsist)
    else if params.length = 2 then some (.writeCVByte (cv 0) (byte 1), .w)
    else none
  | V =>
    if params.length = 2 then some (.verifyCVByte (cv 0) (byte 1), .vbyte)
    else if params.length = 3 then some (.verifyCVBit (cv 0) (byte 1) (p 2 ≠ 0), .vbit)
    else none
  | B =>
    if params.length ≠ 3 ∧ params.length ≠ 5 then none
    else some (.writeCVBit (cv 0) (byte 1) (p 2 ≠ 0), .b)
  | R =>
    if params.length = 1 then
      if p 0 = hk "LOCOID" then some (.getLocoId, .rloco)
      else if p 0 = hk "CONSIST" then some (.getConsistId, .rloco)
      else some (.verifyCVByte (cv 0) 0, .vbyte)
    else if params.length = 3 then some (.readCV (cv 0), .r)
    else if params.length = 0 then some (.getDriveawayLocoId, .rloco)
    else none

/-! ## Front ends -/

/-- `setTrackPower(trackmode, powermode)` -/
def ProgTracks.setTrackPower (s : ProgTracks) (trackmode : UInt8) (powermode : PowerMode) : ProgTracks :=
  { s with
    track := s.track.map fun driver =>
      if TrackMode.has driver.trackMode trackmode then { driver with powerMode := powermode }
      else driver }

/-- The interpreter and what asks it. -/
structure ProgClients where
  ack : DCCACK Ticket
  stashBusy : Bool
  accepted : List (AckRequest × AckCallback)

namespace ProgClients

/-- A loco id that `getLocoCallback` adds to the throttle before it joins the tracks. -/
def drivesAway (locoid : Int16) : Bool :=
  decide (0 < locoid) &&
    (locoid.toUInt16 &&& DCC.longAddrMarker == 0 ||
      decide ((DCC.highestShortAddr : Int) < (locoid ^^^ DCC.longAddrMarker.toInt16).toInt))

/-- A callback is made. Those of the parser give the stash free, the one of WiThrottle joins the
tracks. -/
def called (s : ProgClients) (call : Ticket × Int16) : ProgClients :=
  { s with
    stashBusy := s.stashBusy && (call.1.callback == .getLoco || call.1.callback == .readLoco)
    ack := { s.ack with
      tracks :=
        if call.1.callback == .getLoco && drivesAway call.2 then
          ((s.ack.tracks.setJoin true).setTrackPower TrackMode.main .on).setTrackPower TrackMode.prog .on
        else s.ack.tracks } }

/-- The callbacks of this are made. -/
def update (s : ProgClients) (ack : DCCACK Ticket) : ProgClients :=
  (ack.calls.drop s.ack.calls.length).foldl called { s with ack := ack }

/-- The request is not answered with an error. -/
def accept (s : ProgClients) (request : AckRequest) (callback : AckCallback) : ProgClients :=
  { s with accepted := s.accepted ++ [(request, callback)] }.update
    (request.make ⟨s.accepted.length, callback⟩ s.ack)

/-- A command of the parser. `<W>` takes the stash before it looks at the parameters. -/
def parse (s : ProgClients) (opcode : ProgOpcode) (params : List Int16) : ProgClients :=
  match opcode with
  | .W =>
    if s.stashBusy then s
    else
      let s := { s with stashBusy := true }
      match ProgOpcode.request .W params with
      | none => s
      | some (request, callback) => s.accept request callback
  | opcode =>
    match opcode.request params with
    | none => s
    | some (request, callback) =>
      if s.stashBusy then s else { s with stashBusy := true }.accept request callback

/-- A turn of the interpreter, a command of the parser, `M+*` of a WiThrottle client, or
`OPCODE_READ_LOCO1` of a task. -/
inductive Event where
  | turn (i : AckInput)
  | parse (opcode : ProgOpcode) (params : List Int16)
  | multithrottle
  | readLoco1
  deriving DecidableEq, Repr

def step (s : ProgClients) : Event → ProgClients
  | .turn i => s.update (s.ack.turn i)
  | .parse opcode params => s.parse opcode params
  | .multithrottle => s.accept .getDriveawayLocoId .getLoco
  | .readLoco1 => s.accept .getDriveawayLocoId .readLoco

/-- What an event asks `DCC` for. -/
def asks (s : ProgClients) : Event → Option (AckRequest × AckCallback)
  | .turn _ => none
  | .parse opcode params => if s.stashBusy then none else opcode.request params
  | .multithrottle => some (.getDriveawayLocoId, .getLoco)
  | .readLoco1 => some (.getDriveawayLocoId, .readLoco)

end ProgClients

/-! ## What a request runs -/

/-- The arguments of `Setup`. -/
structure AckPlan where
  cv : UInt16
  byteValueOrBitnum : UInt8
  wordval : Option UInt16
  program : List AckOp

namespace AckRequest

/-- What a request runs, `none` if its arguments are refused. -/
def plan : AckRequest → Option AckPlan
  | writeCVByte cv byteValue => some ⟨cv, byteValue, none, AckProgram.writeByte⟩
  | writeCVBit cv bitNum bitValue =>
    if 8 ≤ bitNum then none
    else some ⟨cv, bitNum, none, if bitValue then AckProgram.writeBit1 else AckProgram.writeBit0⟩
  | verifyCVByte cv byteValue => some ⟨cv, byteValue, none, AckProgram.verifyByte⟩
  | verifyCVBit cv bitNum bitValue =>
    if 8 ≤ bitNum then none
    else some ⟨cv, bitNum, none, if bitValue then AckProgram.verifyBit1 else AckProgram.verifyBit0⟩
  | readCV cv => some ⟨cv, 0, none, AckProgram.readCv⟩
  | getDriveawayLocoId => some ⟨0, 0, none, AckProgram.locoDriveaway⟩
  | getLocoId => some ⟨0, 0, none, AckProgram.locoReadId⟩
  | getConsistId => some ⟨0, 0, none, AckProgram.locoReadConsist⟩
  | setLocoId id =>
    if id < 1 ∨ 10239 < id then none
    else if id ≤ 127 then some ⟨0, 0, some (.ofInt id), AckProgram.shortLocoId⟩
    else some ⟨0, 0, some (.ofInt id ||| 0xc000), AckProgram.longLocoId⟩
  | setConsistId id reverse =>
    if id < 0 ∨ 10239 < id then none
    else some ⟨0, 0, some (((DCCACK.consistWord id reverse).1.toUInt16 <<< 8) |||
      (DCCACK.consistWord id reverse).2.toUInt16), AckProgram.consistId⟩

variable {κ : Type} {request : AckRequest} {callback : κ} {s : DCCACK κ}

/-- Arguments without a plan are refused at once. -/
theorem make_of_plan_none (h : request.plan = none) :
    request.make callback s = DCC.refuse callback s := by
  cases request with
  | writeCVBit cv bitNum bitValue =>
    simp only [plan, ite_eq_left_iff] at h
    exact if_pos (by_contra fun hlt => nomatch h hlt)
  | verifyCVBit cv bitNum bitValue =>
    simp only [plan, ite_eq_left_iff] at h
    exact if_pos (by_contra fun hlt => nomatch h hlt)
  | setLocoId id =>
    by_cases hrange : id < 1 ∨ 10239 < id
    · exact if_pos hrange
    · rw [plan, if_neg hrange] at h
      split at h <;> cases h
  | setConsistId id reverse =>
    by_cases hrange : id < 0 ∨ 10239 < id
    · exact if_pos hrange
    · rw [plan, if_neg hrange] at h
      cases h
  | _ => cases h

/-- The registers with the word, if there is one. -/
def withWord (r : AckRegisters) (wordval : Option UInt16) : AckRegisters :=
  { r with ackManagerWord := wordval.getD r.ackManagerWord }

/-- A request that is not refused is a `Setup` with the arguments of its plan. -/
theorem make_of_plan_some {plan : AckPlan} (h : request.plan = some plan) :
    request.make callback s = { s with registers := withWord s.registers plan.wordval }.setup
      plan.cv plan.byteValueOrBitnum plan.program callback := by
  cases request with
  | writeCVBit cv bitNum bitValue =>
    rw [AckRequest.plan] at h
    split at h
    · cases h
    · next hlt =>
      cases h
      exact if_neg hlt
  | verifyCVBit cv bitNum bitValue =>
    rw [AckRequest.plan] at h
    split at h
    · cases h
    · next hlt =>
      cases h
      exact if_neg hlt
  | setLocoId id =>
    rw [AckRequest.plan] at h
    split at h
    · cases h
    · next hrange =>
      split at h
      · next hshort =>
        cases h
        exact DCCACK.setLocoId_short (by omega) hshort
      · next hshort =>
        cases h
        exact DCCACK.setLocoId_long (by omega) (by omega)
  | setConsistId id reverse =>
    rw [AckRequest.plan] at h
    split at h
    · cases h
    · next hrange =>
      cases h
      exact DCCACK.setConsistId_eq (by omega) (by omega) reverse
  | _ =>
    cases h
    rfl

/-- Every plan runs one of the programs of the source. -/
theorem program_mem_all {plan : AckPlan} (h : request.plan = some plan) :
    plan.program ∈ AckProgram.all := by
  cases request with
  | writeCVBit cv bitNum bitValue =>
    rw [AckRequest.plan] at h
    split at h
    · cases h
    · cases h
      cases bitValue <;> simp [AckProgram.all]
  | verifyCVBit cv bitNum bitValue =>
    rw [AckRequest.plan] at h
    split at h
    · cases h
    · cases h
      cases bitValue <;> simp [AckProgram.all]
  | setLocoId id =>
    rw [AckRequest.plan] at h
    split at h
    · cases h
    · split at h <;> cases h <;> simp [AckProgram.all]
  | setConsistId id reverse =>
    rw [AckRequest.plan] at h
    split at h
    · cases h
    · cases h
      simp [AckProgram.all]
  | _ =>
    cases h
    simp [AckProgram.all]

end AckRequest

/-- The registers with which the program of a plan is started. -/
def AckPlan.Loaded (plan : AckPlan) (r : AckRegisters) : Prop :=
  ∃ r₀ : AckRegisters, r = DCCACK.loaded (AckRequest.withWord r₀ plan.wordval) plan.cv
    plan.byteValueOrBitnum

/-- A result of the program of the request, for some answers; or the arguments were refused, or there
was no prog track that can be used. -/
def AckRequest.Result (request : AckRequest) (value : Int16) : Prop :=
  request.plan = none ∧ value = -1 ∨
    ∃ plan, request.plan = some plan ∧ (value = -2 ∨ value = -3 ∨
      ∃ r acks, plan.Loaded r ∧ (perform oracle plan.program r acks).result = some value)

/-- The callbacks of the request with this number. -/
def answersOf (k : Nat) (calls : List (Ticket × Int16)) : List (Ticket × Int16) :=
  calls.filter fun call => call.1.number == k

theorem answersOf_append_self {calls : List (Ticket × Int16)} {call : Ticket × Int16} :
    answersOf call.1.number (calls ++ [call]) = answersOf call.1.number calls ++ [call] := by
  simp [answersOf]

theorem answersOf_append_ne {k : Nat} {calls : List (Ticket × Int16)} {call : Ticket × Int16}
    (h : call.1.number ≠ k) : answersOf k (calls ++ [call]) = answersOf k calls := by
  simp [answersOf, h]

theorem answersOf_eq_nil {k : Nat} {calls : List (Ticket × Int16)}
    (h : ∀ call ∈ calls, call.1.number < k) : answersOf k calls = [] := by
  rw [answersOf, List.filter_eq_nil_iff]
  intro call hcall
  simp only [beq_iff_eq]
  exact Nat.ne_of_lt (h call hcall)

namespace ProgClients

variable {s : ProgClients} {k : Nat} {a : AckRequest × AckCallback}

/-- The request has had its callback, once, with a result of its own program. -/
def Answered (s : ProgClients) (k : Nat) (a : AckRequest × AckCallback) : Prop :=
  ∃ value, answersOf k s.ack.calls = [(⟨k, a.2⟩, value)] ∧ a.1.Result value

/-- The program of the request is running. -/
def Pending (s : ProgClients) (k : Nat) (a : AckRequest × AckCallback) : Prop :=
  answersOf k s.ack.calls = [] ∧ s.ack.isActive = true ∧ s.ack.ackManagerCallback = ⟨k, a.2⟩ ∧
    ∃ plan, a.1.plan = some plan ∧ s.ack.ackManagerProgStart = plan.program

/-- No request that was accepted is lost, and none is answered twice or for another. -/
def Served (s : ProgClients) : Prop :=
  ∀ k a, s.accepted[k]? = some a → s.Answered k a ∨ s.Pending k a

/-- No program is running when another one is started. -/
def undisturbed (s : ProgClients) (e : Event) : Bool :=
  (s.asks e).all fun a => a.1.plan.isNone || !s.ack.isActive

/-! ## Events -/

theorem update_of_calls_eq {ack : DCCACK Ticket} (h : ack.calls = s.ack.calls) :
    s.update ack = { s with ack := ack } := by
  rw [update, h, List.drop_length]
  rfl

theorem update_append {ack : DCCACK Ticket} {call : Ticket × Int16}
    (h : ack.calls = s.ack.calls ++ [call]) : s.update ack = called { s with ack := ack } call := by
  rw [update, h, List.drop_append_of_le_length (Nat.le_refl _), List.drop_length]
  rfl

theorem parse_of_busy (h : s.stashBusy = true) (opcode : ProgOpcode) (params : List Int16) :
    s.parse opcode params = s := by
  rw [parse.eq_def]
  cases opcode with
  | W => exact if_pos h
  | _ =>
    simp only [h, if_true]
    split <;> rfl

/-- An event that is no turn and asks for nothing. -/
theorem step_of_asks_none {e : Event} (hturn : ∀ i, e ≠ .turn i) (h : s.asks e = none) :
    ∃ busy, s.step e = { s with stashBusy := busy } := by
  cases e with
  | turn i => exact absurd rfl (hturn i)
  | multithrottle => cases h
  | readLoco1 => cases h
  | parse opcode params =>
    rw [asks] at h
    rw [step]
    by_cases hbusy : s.stashBusy = true
    · exact ⟨s.stashBusy, parse_of_busy hbusy opcode params⟩
    · rw [if_neg hbusy] at h
      rw [parse.eq_def]
      cases opcode with
      | W =>
        refine ⟨true, ?_⟩
        simp only [hbusy, h, Bool.false_eq_true, if_false]
      | _ =>
        refine ⟨s.stashBusy, ?_⟩
        simp only [h]

/-- An event that asks for something accepts a request, and may take the stash before. -/
theorem step_of_asks_some {e : Event} {a : AckRequest × AckCallback} (h : s.asks e = some a) :
    ∃ busy, s.step e = { s with stashBusy := busy }.accept a.1 a.2 := by
  cases e with
  | turn i => cases h
  | multithrottle =>
    cases h
    exact ⟨s.stashBusy, rfl⟩
  | readLoco1 =>
    cases h
    exact ⟨s.stashBusy, rfl⟩
  | parse opcode params =>
    rw [asks] at h
    by_cases hbusy : s.stashBusy = true
    · rw [if_pos hbusy] at h
      cases h
    · rw [if_neg hbusy] at h
      refine ⟨true, ?_⟩
      rw [step, parse.eq_def]
      cases opcode <;> simp only [hbusy, h, Bool.false_eq_true, if_false]

/-! ## The invariant -/

/-- What is known of the request whose program is running. -/
structure Busy (s : ProgClients) (k : Nat) (a : AckRequest × AckCallback) : Prop where
  accepted : s.accepted[k]? = some a
  answers : answersOf k s.ack.calls = []
  callback : s.ack.ackManagerCallback = ⟨k, a.2⟩
  running : ∃ plan s₁ program, a.1.plan = some plan ∧ plan.Loaded s₁.registers ∧
    s₁.ackManagerProgStart = plan.program ∧ DCCACK.Running s₁ s.ack program

structure Inv (s : ProgClients) : Prop where
  numbers : ∀ call ∈ s.ack.calls, call.1.number < s.accepted.length
  others : ∀ k a, s.accepted[k]? = some a →
    ¬ (s.ack.isActive = true ∧ s.ack.ackManagerCallback.number = k) → s.Answered k a
  busy : s.ack.isActive = true → ∃ k a, s.Busy k a

theorem Inv.served (h : s.Inv) : s.Served := by
  intro k a hk
  by_cases hpending : s.ack.isActive = true ∧ s.ack.ackManagerCallback.number = k
  · obtain ⟨hactive, hnumber⟩ := hpending
    obtain ⟨k', a', hbusy⟩ := h.busy hactive
    rw [hbusy.callback] at hnumber
    obtain rfl : k' = k := hnumber
    have ha := hbusy.accepted
    rw [hk] at ha
    cases ha
    obtain ⟨plan, s₁, program, hplan, -, hstart, hrunning⟩ := hbusy.running
    exact .inr ⟨hbusy.answers, hactive, hbusy.callback, plan, hplan, hrunning.start.trans hstart⟩
  · exact .inl (h.others k a hk hpending)

/-- A change of the stash, or of the tracks when no program is running. -/
theorem Inv.congr (h : s.Inv) {s' : ProgClients} (haccepted : s'.accepted = s.accepted)
    (hack : s'.ack = s.ack) : s'.Inv := by
  obtain ⟨ack, busy, accepted⟩ := s
  obtain ⟨ack', busy', accepted'⟩ := s'
  cases haccepted
  cases hack
  refine ⟨h.numbers, fun k a hk hne => h.others k a hk hne, fun hactive => ?_⟩
  obtain ⟨k, a, hbusy⟩ := h.busy hactive
  exact ⟨k, a, ⟨hbusy.accepted, hbusy.answers, hbusy.callback, hbusy.running⟩⟩

theorem eq_none_of_not_active {κ : Type} {ack : DCCACK κ} (h : ack.isActive = false) :
    ack.ackManagerProg = none := by
  rw [DCCACK.isActive] at h
  exact Option.isSome_eq_false_iff.mp h |> Option.isNone_iff_eq_none.mp

/-- The callback of the request `k` is made, and no program is running then. -/
theorem inv_answer {ack : DCCACK Ticket} {value : Int16}
    (hnumbers : ∀ call ∈ s.ack.calls, call.1.number < s.accepted.length)
    (hk : s.accepted[k]? = some a) (hnone : answersOf k s.ack.calls = [])
    (hothers : ∀ k' a', k' ≠ k → s.accepted[k']? = some a' → s.Answered k' a')
    (hactive : ack.isActive = false) (hcalls : ack.calls = s.ack.calls ++ [(⟨k, a.2⟩, value)])
    (hresult : a.1.Result value) : (s.update ack).Inv := by
  rw [update_append hcalls]
  have hcalls' : (called { s with ack := ack } (⟨k, a.2⟩, value)).ack.calls =
      s.ack.calls ++ [(⟨k, a.2⟩, value)] := hcalls
  have hactive' : (called { s with ack := ack } (⟨k, a.2⟩, value)).ack.isActive = false := hactive
  refine ⟨?_, ?_, ?_⟩
  · intro call hcall
    rw [hcalls'] at hcall
    rcases List.mem_append.mp hcall with hold | hnew
    · exact hnumbers call hold
    · rw [List.mem_singleton.mp hnew]
      exact (List.getElem?_eq_some_iff.mp hk).1
  · intro k' a' hk' _
    rw [Answered, hcalls']
    by_cases heq : k' = k
    · subst heq
      have ha := hk.symm.trans hk'
      cases ha
      refine ⟨value, ?_, hresult⟩
      have happend := @answersOf_append_self s.ack.calls (⟨k', a.2⟩, value)
      rw [happend, hnone]
      rfl
    · obtain ⟨value', hanswers, hresult'⟩ := hothers k' a' heq hk'
      refine ⟨value', ?_, hresult'⟩
      rw [answersOf_append_ne fun h => heq h.symm]
      exact hanswers
  · intro hbusy
    rw [hactive'] at hbusy
    cases hbusy

/-- A turn of the interpreter answers the request that is running, or none. -/
theorem Inv.turn (h : s.Inv) (i : AckInput) : (s.update (s.ack.turn i)).Inv := by
  by_cases hactive : s.ack.isActive = true
  · obtain ⟨k, a, hbusy⟩ := h.busy hactive
    obtain ⟨plan, s₁, program, hplan, hloaded, hstart, hrunning⟩ := hbusy.running
    have hrep : AckOp.Repeatable s₁.ackManagerProgStart := by
      rw [hstart]
      exact AckOp.repeatable_all _ (AckRequest.program_mem_all hplan)
    have hcallback : s₁.ackManagerCallback = ⟨k, a.2⟩ := hrunning.callback ▸ hbusy.callback
    rcases hrunning.turn hrep i with ⟨program', hrunning'⟩ | ⟨value, hfinished⟩
    · -- still running
      have hcalls : (s.ack.turn i).calls = s.ack.calls := hrunning'.calls.trans hrunning.calls.symm
      have hcallback' : (s.ack.turn i).ackManagerCallback = s.ack.ackManagerCallback :=
        hrunning'.callback.trans hrunning.callback.symm
      rw [update_of_calls_eq hcalls]
      refine ⟨?_, ?_, fun _ => ⟨k, a, hbusy.accepted, ?_, ?_, plan, s₁, program', hplan, hloaded, hstart,
        hrunning'⟩⟩
      · rw [hcalls]
        exact h.numbers
      · intro k' a' hk' hne
        have hother := h.others k' a' hk' fun hpending => hne ⟨by
          rw [DCCACK.isActive, hrunning'.prog]
          rfl, hcallback' ▸ hpending.2⟩
        rw [Answered, hcalls]
        exact hother
      · rw [hcalls]
        exact hbusy.answers
      · exact hcallback'.trans hbusy.callback
    · -- the callback
      have hstopped : (s.ack.turn i).isActive = false := by
        rw [DCCACK.isActive, hfinished.prog]
        rfl
      have hcalls : (s.ack.turn i).calls = s.ack.calls ++ [(⟨k, a.2⟩, value)] := by
        rw [hfinished.calls, hrunning.calls, hcallback]
      apply inv_answer h.numbers hbusy.accepted hbusy.answers _ hstopped hcalls
      · refine .inr ⟨plan, hplan, .inr (.inr ⟨s₁.registers, (s.ack.turn i).attempt.acks, hloaded, ?_⟩)⟩
        have hlast := hfinished.last []
        rw [List.append_nil, hstart] at hlast
        rw [hlast]
      · intro k' a' hne hk'
        apply h.others k' a' hk'
        rintro ⟨-, hnumber⟩
        rw [hbusy.callback] at hnumber
        exact hne hnumber.symm
  · have hturn : s.ack.turn i = s.ack := by
      rw [DCCACK.turn, eq_none_of_not_active (Bool.eq_false_iff.mpr hactive)]
    rw [hturn, update_of_calls_eq rfl]
    exact h

/-- The numbers with one more request. -/
theorem Inv.numbers_succ (h : s.Inv) (a : AckRequest × AckCallback) :
    ∀ call ∈ s.ack.calls, call.1.number < (s.accepted ++ [a]).length := by
  intro call hcall
  rw [List.length_append]
  exact Nat.lt_succ_of_lt (h.numbers call hcall)

/-- The requests before. -/
theorem accepted_of_ne {a' : AckRequest × AckCallback} (hk : (s.accepted ++ [a])[k]? = some a')
    (hne : k ≠ s.accepted.length) : s.accepted[k]? = some a' := by
  have hlt := (List.getElem?_eq_some_iff.mp hk).1
  rw [List.length_append, List.length_singleton] at hlt
  rwa [List.getElem?_append_left (by omega)] at hk

/-- The arguments are refused, whatever is running. -/
theorem Inv.refuse (h : s.Inv) {request : AckRequest} {callback : AckCallback}
    (hplan : request.plan = none) : (s.accept request callback).Inv := by
  have hcalls : (request.make ⟨s.accepted.length, callback⟩ s.ack).calls =
      s.ack.calls ++ [(⟨s.accepted.length, callback⟩, -1)] := by
    rw [AckRequest.make_of_plan_none hplan]
    rfl
  have hack : (s.accept request callback).ack =
      { s.ack with calls := s.ack.calls ++ [(⟨s.accepted.length, callback⟩, -1)] } := by
    have hdrives : (callback == .getLoco && drivesAway (-1)) = false := by
      rw [show drivesAway (-1) = false by decide, Bool.and_false]
    rw [accept, update_append (s := { s with accepted := s.accepted ++ [(request, callback)] }) hcalls,
      called, AckRequest.make_of_plan_none hplan]
    simp only [hdrives, Bool.false_eq_true, if_false]
    rfl
  have haccepted : (s.accept request callback).accepted = s.accepted ++ [(request, callback)] := by
    rw [accept, update_append (s := { s with accepted := s.accepted ++ [(request, callback)] }) hcalls]
    rfl
  -- the number of the new request has not been answered yet
  have hnew : answersOf s.accepted.length s.ack.calls = [] := answersOf_eq_nil h.numbers
  have hcalls' : (s.accept request callback).ack.calls =
      s.ack.calls ++ [(⟨s.accepted.length, callback⟩, -1)] := by rw [hack]
  refine ⟨?_, ?_, ?_⟩
  · -- every call is for a request that was accepted
    rw [hcalls', haccepted]
    intro call hcall
    rcases List.mem_append.mp hcall with hold | hlast
    · exact h.numbers_succ _ call hold
    · rw [List.mem_singleton.mp hlast, List.length_append]
      exact Nat.lt_succ_self _
  · intro k a hk hne
    rw [haccepted] at hk
    rw [Answered, hcalls']
    -- the new request has its answer, and an older one has kept its own
    by_cases heq : k = s.accepted.length
    · subst heq
      rw [List.getElem?_concat_length, Option.some_inj] at hk
      subst hk
      refine ⟨-1, ?_, .inl ⟨hplan, rfl⟩⟩
      have happend := @answersOf_append_self s.ack.calls (⟨s.accepted.length, callback⟩, -1)
      rw [happend, hnew]
      rfl
    · have hold := h.others k a (accepted_of_ne hk heq) fun hpending => hne ⟨by
        rw [hack]
        exact hpending.1, by
        rw [hack]
        exact hpending.2⟩
      obtain ⟨value, hanswers, hresult⟩ := hold
      refine ⟨value, ?_, hresult⟩
      rw [answersOf_append_ne fun h => heq h.symm]
      exact hanswers
  · intro hactive
    have hactive' : s.ack.isActive = true := by
      rw [hack] at hactive
      exact hactive
    -- what is running is not touched: only a call was appended behind its own
    obtain ⟨k, a, hbusy⟩ := h.busy hactive'
    obtain ⟨plan, s₁, program, hplan', hloaded, hstart, hrunning⟩ := hbusy.running
    have hlt := (List.getElem?_eq_some_iff.mp hbusy.accepted).1
    refine ⟨k, a, ?_, ?_, ?_, plan,
      { s₁ with calls := s₁.calls ++ [(⟨s.accepted.length, callback⟩, -1)] }, program, hplan', hloaded,
      hstart, ?_⟩
    · rw [haccepted, List.getElem?_append_left hlt]
      exact hbusy.accepted
    · rw [hcalls', answersOf_append_ne (Nat.ne_of_gt hlt)]
      exact hbusy.answers
    · rw [hack]
      exact hbusy.callback
    · rw [hack]
      exact hrunning.appendCalls _

/-- A request when no program is running. -/
theorem Inv.accept (h : s.Inv) {request : AckRequest} {callback : AckCallback} {plan : AckPlan}
    (hplan : request.plan = some plan) (hidle : s.ack.isActive = false) :
    (s.accept request callback).Inv := by
  have hothers : ∀ k a, k ≠ s.accepted.length →
      (s.accepted ++ [(request, callback)])[k]? = some a → s.Answered k a := by
    intro k a hne hk
    apply h.others k a (accepted_of_ne hk hne)
    rintro ⟨hactive, -⟩
    rw [hidle] at hactive
    cases hactive
  have hnew : answersOf s.accepted.length s.ack.calls = [] := answersOf_eq_nil h.numbers
  have hlast : (s.accepted ++ [(request, callback)])[s.accepted.length]? = some (request, callback) :=
    List.getElem?_concat_length
  rw [ProgClients.accept, AckRequest.make_of_plan_some hplan]
  by_cases hstart : ∃ t, s.ack.tracks.CanStart t
  · obtain ⟨t, hstart⟩ := hstart
    obtain ⟨ack, hack⟩ : ∃ ack, ack = { s.ack with
        registers := AckRequest.withWord s.ack.registers plan.wordval }.setup plan.cv
        plan.byteValueOrBitnum plan.program ⟨s.accepted.length, callback⟩ := ⟨_, rfl⟩
    have hrunning : DCCACK.Running ack ack ack.ackManagerProgStart := by
      rw [hack]
      exact DCCACK.running_setup hstart
    have hprogStart : ack.ackManagerProgStart = plan.program := by
      rw [hack]
      exact DCCACK.progStart_setup hstart
    obtain ⟨hregisters, hcallback, hcalls, hactive⟩ := @DCCACK.setup_started Ticket
      { s.ack with registers := AckRequest.withWord s.ack.registers plan.wordval } t plan.cv
      plan.byteValueOrBitnum plan.program ⟨s.accepted.length, callback⟩ hstart
    rw [← hack] at hregisters hcallback hcalls hactive
    have hloaded : plan.Loaded ack.registers := ⟨s.ack.registers, hregisters⟩
    rw [← hack, update_of_calls_eq (s := { s with accepted := s.accepted ++ [(request, callback)] }) hcalls]
    refine ⟨?_, ?_, fun _ => ⟨s.accepted.length, (request, callback), hlast, ?_, hcallback, plan, ack, _,
      hplan, hloaded, hprogStart, hrunning⟩⟩
    · rw [hcalls]
      exact h.numbers_succ _
    · intro k a hk hne
      rw [Answered, hcalls]
      apply hothers k a _ hk
      rintro rfl
      exact hne ⟨hactive, congrArg Ticket.number hcallback⟩
    · rw [hcalls]
      exact hnew
  · obtain ⟨value, hvalue, hcalls, hprog⟩ := @DCCACK.setup_refused Ticket
      { s.ack with registers := AckRequest.withWord s.ack.registers plan.wordval } plan.cv
      plan.byteValueOrBitnum plan.program ⟨s.accepted.length, callback⟩ (not_exists.mp hstart)
    refine @inv_answer { s with accepted := s.accepted ++ [(request, callback)] } _ (request, callback) _
      value (h.numbers_succ _) hlast hnew hothers ?_ hcalls ?_
    · rw [DCCACK.isActive, hprog]
      exact hidle
    · exact .inr ⟨plan, hplan, hvalue.elim .inl fun h => .inr (.inl h)⟩

/-- **What an event keeps**, if no program is replaced. -/
theorem Inv.step (h : s.Inv) {e : Event} (hfree : s.undisturbed e = true) : (s.step e).Inv := by
  cases hasks : s.asks e with
  | none =>
    by_cases hturn : ∃ i, e = .turn i
    · obtain ⟨i, rfl⟩ := hturn
      exact h.turn i
    · obtain ⟨busy, hstep⟩ := step_of_asks_none (not_exists.mp hturn) hasks
      rw [hstep]
      exact h.congr rfl rfl
  | some a =>
    obtain ⟨busy, hstep⟩ := step_of_asks_some hasks
    have hs : ({ s with stashBusy := busy } : ProgClients).Inv := h.congr rfl rfl
    rw [hstep]
    cases hplan : a.1.plan with
    | none => exact hs.refuse hplan
    | some plan =>
      rw [undisturbed, hasks, Option.all_some, hplan] at hfree
      exact hs.accept hplan (by simpa using hfree)

/-- Nothing has been asked for. -/
structure Fresh (s : ProgClients) : Prop where
  accepted : s.accepted = []
  calls : s.ack.calls = []
  idle : s.ack.isActive = false

theorem Fresh.inv (h : s.Fresh) : s.Inv := by
  refine ⟨?_, ?_, ?_⟩
  · intro call hcall
    rw [h.calls] at hcall
    cases hcall
  · intro k a hk
    rw [h.accepted] at hk
    cases hk
  · intro hactive
    rw [h.idle] at hactive
    cases hactive

/-- **What a run keeps.** -/
theorem inv_events (h : s.Inv) {events : List Event}
    (hfree : Along step (fun s e => s.undisturbed e = true) s events) : (run step s events).Inv :=
  inv_run Inv (fun _ _ hfree h => h.step hfree) h hfree

/-! ## The callback is made -/

/-- Turns of the interpreter are undisturbed. -/
theorem along_turns (s : ProgClients) (is : List AckInput) :
    Along step (fun s e => s.undisturbed e = true) s (is.map .turn) := by
  induction is generalizing s with
  | nil => trivial
  | cons i is ih => exact ⟨rfl, ih _⟩

theorem turn_of_not_active {κ : Type} {ack : DCCACK κ} (h : ack.isActive = false) (i : AckInput) :
    ack.turn i = ack := by
  rw [DCCACK.turn, eq_none_of_not_active h]

theorem run_turn_of_not_active (h : s.ack.isActive = false) (is : List AckInput) :
    run step s (is.map .turn) = s := by
  induction is with
  | nil => rfl
  | cons i is ih =>
    have hstep : s.step (.turn i) = s := by
      rw [step, turn_of_not_active h, update_of_calls_eq rfl]
    rw [List.map_cons, run_cons, hstep]
    exact ih

/-- The front ends do not change the course of the interpreter. -/
theorem isActive_turns (s : ProgClients) (is : List AckInput)
    (h : (run DCCACK.turn s.ack is).isActive = false) :
    (run step s (is.map .turn)).ack.isActive = false := by
  induction is generalizing s with
  | nil => exact h
  | cons i is ih =>
    rw [run_cons] at h
    rw [List.map_cons, run_cons]
    rcases DCCACK.turn_quiet_or_calls s.ack i with hquiet | ⟨-, hstopped, -, value, hcalls⟩
    · have hstep : s.step (.turn i) = { s with ack := s.ack.turn i } := update_of_calls_eq hquiet.calls
      rw [hstep]
      exact ih { s with ack := s.ack.turn i } h
    · have hstep : s.step (.turn i) = called { s with ack := s.ack.turn i } _ := update_append hcalls
      have hidle : (s.step (.turn i)).ack.isActive = false := by
        rw [hstep]
        exact hstopped
      rw [run_turn_of_not_active hidle]
      exact hidle

theorem Inv.answered (h : s.Inv) (hidle : s.ack.isActive = false) :
    ∀ k a, s.accepted[k]? = some a → s.Answered k a := by
  intro k a hk
  apply h.others k a hk
  rintro ⟨hactive, -⟩
  rw [hidle] at hactive
  cases hactive

/-- With no more requests, the program that is running comes to its end. -/
theorem stops_finally (h : s.Inv) (hpower : s.ack.getPower ≠ some .overload)
    {ticks : Nat → Tick} (hfair : Fair ticks) (answers : Nat → Bool) :
    ∃ n is, (states (DCCACK.bench endless) (s.ack, answers) ticks n).1 = run DCCACK.turn s.ack is ∧
      (run step s (is.map .turn)).ack.isActive = false := by
  have hstops : ∃ n s' d', states (DCCACK.bench endless) (s.ack, answers) ticks n = (s', d') ∧
      s'.isActive = false := by
    by_cases hactive : s.ack.isActive = true
    · obtain ⟨k, a, hbusy⟩ := h.busy hactive
      obtain ⟨plan, s₁, program, hplan, -, hstart, hrunning⟩ := hbusy.running
      have hmem := AckRequest.program_mem_all hplan
      have hhead := (AckOp.repeatable_all _ hmem).1
      apply hrunning.bench_stops hfair _ _ hpower
      · rw [hstart]
        exact AckOp.closed_all _ hmem
      · intro hnil
        rw [← hstart, hnil] at hhead
        cases hhead
    · exact ⟨0, s.ack, answers, rfl, Bool.eq_false_iff.mpr hactive⟩
  obtain ⟨n, s', d', hs', hstopped⟩ := hstops
  obtain ⟨is, his⟩ := DCCACK.exists_run_of_states endless (s.ack, answers) ticks n
  refine ⟨n, is, his, isActive_turns s is ?_⟩
  rw [← his, hs']
  exact hstopped

/-- With no more requests, every request is answered in the end. -/
theorem answered_finally (h : s.Inv) (hpower : s.ack.getPower ≠ some .overload)
    {ticks : Nat → Tick} (hfair : Fair ticks) (answers : Nat → Bool) :
    ∃ n is, (states (DCCACK.bench endless) (s.ack, answers) ticks n).1 = run DCCACK.turn s.ack is ∧
      ∀ k a, (run step s (is.map .turn)).accepted[k]? = some a →
        (run step s (is.map .turn)).Answered k a := by
  obtain ⟨n, is, his, hstopped⟩ := stops_finally h hpower hfair answers
  have hinv := inv_events h (along_turns s is)
  exact ⟨n, is, his, hinv.answered hstopped⟩

/-- **Every request is served if none is made while a program is running**: in every state that is
reached, a request that was accepted has had its own callback once, with a result of its own program,
or its program is the one that is running; and without further requests it is answered in the end. -/
theorem requests_are_served (hfresh : s.Fresh) {events : List Event}
    (hfree : Along step (fun s e => s.undisturbed e = true) s events) :
    (run step s events).Served ∧
    ((run step s events).ack.getPower ≠ some .overload →
      ∀ ticks, Fair ticks → ∀ answers, ∃ n is,
        (states (DCCACK.bench endless) ((run step s events).ack, answers) ticks n).1 =
          run DCCACK.turn (run step s events).ack is ∧
        ∀ k a, (run step (run step s events) (is.map .turn)).accepted[k]? = some a →
          (run step (run step s events) (is.map .turn)).Answered k a) := by
  have hinv := inv_events hfresh.inv hfree
  exact ⟨hinv.served, fun hpower ticks hfair answers => answered_finally hinv hpower hfair answers⟩

/-- Nothing has been asked for yet. -/
def start : ProgClients := ⟨DCCACK.idle .shield ⟨0, .r⟩, false, []⟩

theorem fresh_start : start.Fresh := ⟨rfl, rfl, rfl⟩

/-- A command and, after it has been answered, a client of WiThrottle. -/
theorem requests_are_served_one_by_one :
    (run step start
      ([.parse .R [1]] ++ List.replicate 9 (.turn ⟨20, some true, 0⟩) ++ [.multithrottle])).Served :=
  (requests_are_served fresh_start (by decide +kernel)).1

/-- `<R 1>` and, while it is running, a client that asks for the loco on the programming track. -/
def disturbed : List Event :=
  [.parse .R [1], .turn ⟨20, none, 0⟩, .multithrottle] ++
    List.replicate 60 (.turn ⟨20, some true, 0⟩)

/-- The program is replaced, and `<R 1>` is never answered: not even when everything has come to its
end. -/
theorem not_requests_are_served :
    ¬ ∀ (s : ProgClients) (events : List Event), s.Fresh → (run step s events).Served := by
  intro h
  have hserved := h start disturbed fresh_start
  have haccepted : (run step start disturbed).accepted[0]? = some (.verifyCVByte 1 0, .vbyte) := by
    decide +kernel
  have hstopped : (run step start disturbed).ack.isActive = false := by decide +kernel
  have hanswers : answersOf 0 (run step start disturbed).ack.calls = [] := by decide +kernel
  rcases hserved 0 _ haccepted with ⟨value, hvalue, -⟩ | ⟨-, hactive, -⟩
  · rw [hanswers] at hvalue
    cases hvalue
  · rw [hstopped] at hactive
    cases hactive

end ProgClients

end CommandStation
