import CommandStation.DCCACK.Requests
import CommandStation.Railcom.Basic

/-!
# The stash of the parser

The parser keeps the command whose reply is still to come, and is busy until one of its callbacks is
made. `<W>`, `<V>`, `<B>` and `<R>` wait for the interpreter, `<r cab cv>` for Railcom, and the loop of
Railcom is that of its collector: without one there is neither an answer nor a timeout.
-/

namespace CommandStation

open CommandStation.Lib

/-- The callback is one of the parser. -/
def AckCallback.ofParser (callback : AckCallback) : Bool := callback != .getLoco && callback != .readLoco

/-- The users of the interpreter, with the one main track read that Railcom expects: its callback is
always `callback_r`. -/
structure Callbacks where
  clients : ProgClients
  railcom : Railcom Unit
  isRailcom : Bool   -- `DCCWaveform::isRailcom()`
  collector : Bool   -- an `I2CRailcom` was detected

namespace Callbacks

inductive Event where
  | prog (e : ProgClients.Event)
  /-- `<r ...>` -/
  | read (params : List Int16) (now : UInt32)
  /-- The collector has sent a buffer. -/
  | process (buffer : Railcom.Buffer) (turns : Nat)
  | loop (now : UInt32)

def setBusy (s : Callbacks) (stashBusy : Bool) : Callbacks :=
  { s with clients := { s.clients with stashBusy } }

/-- The case `'r'` of `DCCEXParser::parseOne`. -/
def read (s : Callbacks) (params : List Int16) (now : UInt32) : Callbacks :=
  if params.length ≠ 2 then s
  else if s.isRailcom = false then s
  else if s.clients.stashBusy then s
  else
    { s.setBusy true with
      railcom := Railcom.anticipate (params.getD 0 0).toUInt16 (params.getD 1 0).toUInt16 now () }

/-- `callback_r` is made, or not. -/
def called (s : Callbacks) (railcom : Railcom Unit) (call : Bool) : Callbacks :=
  { s.setBusy (s.clients.stashBusy && !call) with railcom }

def step (s : Callbacks) : Event → Callbacks
  | .prog e => { s with clients := s.clients.step e }
  | .read params now => s.read params now
  | .process buffer turns =>
    if s.collector then
      let (railcom, calls) := s.railcom.process buffer turns
      s.called railcom !calls.isEmpty
    else s
  | .loop now =>
    if s.collector then
      let (railcom, call) := s.railcom.loop now
      s.called railcom call.isSome
    else s

/-- The command is answered with `<X>`. -/
def rejects (s : Callbacks) : Event → Bool
  | .prog (.parse opcode params) => s.clients.stashBusy || (opcode.request params).isNone
  | .read params _ => params.length ≠ 2 || !s.isRailcom || s.clients.stashBusy
  | _ => false

/-! ## What is outstanding -/

/-- The interpreter runs a program for the parser. -/
def progOutstanding (clients : ProgClients) : Bool :=
  clients.ack.isActive && clients.ack.ackManagerCallback.callback.ofParser

/-- An operation that will call back the parser. -/
def Outstanding (s : Callbacks) : Prop :=
  progOutstanding s.clients = true ∨ s.railcom.expectCallback.isSome = true ∧ s.collector = true

/-- The stash is busy only while an operation is outstanding. -/
def Held (s : Callbacks) : Prop := s.clients.stashBusy = true → s.Outstanding

/-- The step does not take the stash for nothing, and does not take the operation away for which it is
busy: no `<W>` that is malformed takes a free stash, no `<r>` does without a collector, and no one else
starts a program while one of the parser is running. -/
def Keeps (s : Callbacks) : Event → Prop
  | .prog (.parse .W params) => ProgOpcode.request .W params = none → s.clients.stashBusy = true
  | .prog .multithrottle | .prog .readLoco1 =>
    progOutstanding s.clients = true → ∀ t, ¬ s.clients.ack.tracks.CanStart t
  | .read params _ =>
    params.length = 2 → s.isRailcom = true → s.clients.stashBusy = false → s.collector = true
  | _ => True

end Callbacks

/-! ## Requests -/

/-- A `Setup` that starts nothing leaves the callback of the program that is running. -/
theorem DCCACK.callback_setup_refused {κ : Type} {s : DCCACK κ} {cv : UInt16} {b : UInt8}
    {program : List AckOp} {callback : κ} (h : ∀ t, ¬ s.tracks.CanStart t) :
    (s.setup cv b program callback).ackManagerCallback = s.ackManagerCallback := by
  rw [setup]
  cases hdriver : s.tracks.unjoined.getProgDriver with
  | none => rfl
  | some t =>
    have hmeasure : ¬ s.tracks.unjoined.track[t]?.any ProgDriver.canMeasureCurrent = true :=
      fun hmeasure => h t ⟨hdriver, hmeasure⟩
    simp only [hmeasure, Bool.false_eq_true, if_false]

namespace AckRequest

variable {κ : Type} {request : AckRequest} {callback : κ} {s : DCCACK κ}

/-- The request starts its program. -/
def Starts (request : AckRequest) (tracks : ProgTracks) : Prop :=
  request.plan.isSome = true ∧ ∃ t, tracks.CanStart t

/-- A request starts its program, or is called back at once. -/
theorem make_cases (request : AckRequest) (callback : κ) (s : DCCACK κ) :
    (request.Starts s.tracks ∧ (request.make callback s).isActive = true ∧
      (request.make callback s).ackManagerCallback = callback ∧
      (request.make callback s).calls = s.calls) ∨
    (¬ request.Starts s.tracks ∧ (request.make callback s).isActive = s.isActive ∧
      (request.make callback s).ackManagerCallback = s.ackManagerCallback ∧
      ∃ value, (request.make callback s).calls = s.calls ++ [(callback, value)]) := by
  cases hplan : request.plan with
  | none =>
    refine .inr ⟨fun hstarts => ?_, ?_⟩
    · rw [Starts, hplan] at hstarts
      cases hstarts.1
    · rw [make_of_plan_none hplan]
      exact ⟨rfl, rfl, -1, rfl⟩
  | some plan =>
    rw [make_of_plan_some hplan]
    by_cases hstart : ∃ t, s.tracks.CanStart t
    · obtain ⟨t, ht⟩ := hstart
      refine .inl ⟨⟨by rw [hplan]; rfl, t, ht⟩, ?_⟩
      obtain ⟨-, hcallback, hcalls, hactive⟩ := @DCCACK.setup_started κ
        { s with registers := withWord s.registers plan.wordval } t plan.cv plan.byteValueOrBitnum
        plan.program callback ht
      exact ⟨hactive, hcallback, hcalls⟩
    · refine .inr ⟨fun hstarts => hstart hstarts.2, ?_⟩
      obtain ⟨value, -, hcalls, hprog⟩ := @DCCACK.setup_refused κ
        { s with registers := withWord s.registers plan.wordval } plan.cv plan.byteValueOrBitnum
        plan.program callback (not_exists.mp hstart)
      refine ⟨?_, ?_, value, hcalls⟩
      · rw [DCCACK.isActive, hprog]
        rfl
      · exact DCCACK.callback_setup_refused (not_exists.mp hstart)

end AckRequest

/-- What `<W>`, `<V>`, `<B>` and `<R>` ask for is called back to the parser. -/
theorem ProgOpcode.ofParser_of_request {opcode : ProgOpcode} {params : List Int16}
    {a : AckRequest × AckCallback} (h : opcode.request params = some a) : a.2.ofParser = true := by
  cases opcode <;> simp only [request] at h <;> grind [AckCallback.ofParser]

namespace Callbacks

/-! ## Steps of the interpreter and its users -/

section Clients

variable (s : ProgClients)

/-- A callback that is made. -/
theorem progOutstanding_called (call : Ticket × Int16) :
    progOutstanding (s.called call) = progOutstanding s := rfl

theorem stashBusy_called (call : Ticket × Int16) :
    (s.called call).stashBusy = (s.stashBusy && !call.1.callback.ofParser) := by
  rw [ProgClients.called, AckCallback.ofParser]
  cases call.1.callback <;> rfl

/-- A request is started, and outstanding if it is of the parser, or it is answered at once. -/
theorem accept_cases (request : AckRequest) (callback : AckCallback) :
    (request.Starts s.ack.tracks ∧ (s.accept request callback).stashBusy = s.stashBusy ∧
      progOutstanding (s.accept request callback) = callback.ofParser) ∨
    (¬ request.Starts s.ack.tracks ∧
      (s.accept request callback).stashBusy = (s.stashBusy && !callback.ofParser) ∧
      progOutstanding (s.accept request callback) = progOutstanding s) := by
  obtain ⟨s', hs'⟩ : ∃ s' : ProgClients, s' = { s with accepted := s.accepted ++ [(request, callback)] } :=
    ⟨_, rfl⟩
  have hack : s'.ack = s.ack := by rw [hs']
  have hbusy : s'.stashBusy = s.stashBusy := by rw [hs']
  rw [ProgClients.accept, ← hs']
  rcases request.make_cases ⟨s.accepted.length, callback⟩ s.ack with
    ⟨hstarts, hactive, hcallback, hcalls⟩ | ⟨hstarts, hactive, hcallback, value, hcalls⟩
  · refine .inl ⟨hstarts, ?_⟩
    rw [← hack] at hactive hcallback hcalls ⊢
    rw [ProgClients.update_of_calls_eq hcalls, progOutstanding, hactive, hcallback]
    exact ⟨hbusy, rfl⟩
  · refine .inr ⟨hstarts, ?_⟩
    rw [← hack] at hactive hcallback hcalls ⊢
    rw [ProgClients.update_append hcalls, stashBusy_called, progOutstanding_called, progOutstanding,
      hactive, hcallback]
    exact ⟨by rw [← hbusy], by rw [progOutstanding, hack]⟩

/-- A turn leaves the stash alone, or answers the request of the parser and frees it. -/
theorem turn_cases (i : AckInput) :
    ((s.step (.turn i)).stashBusy = s.stashBusy ∧
      progOutstanding (s.step (.turn i)) = progOutstanding s) ∨
    (progOutstanding s = true ∧ (s.step (.turn i)).stashBusy = false ∧
      progOutstanding (s.step (.turn i)) = false) := by
  rw [ProgClients.step]
  rcases DCCACK.turn_quiet_or_calls s.ack i with hquiet | ⟨hactive, hstopped, -, value, hcalls⟩
  · left
    rw [ProgClients.update_of_calls_eq hquiet.calls, progOutstanding, hquiet.active, hquiet.callback]
    exact ⟨rfl, rfl⟩
  · rw [ProgClients.update_append hcalls, stashBusy_called, progOutstanding_called, progOutstanding,
      hstopped, Bool.false_and]
    cases hparser : s.ack.ackManagerCallback.callback.ofParser with
    | false =>
      left
      rw [progOutstanding, hparser, Bool.and_false]
      exact ⟨by rw [Bool.not_false, Bool.and_true], rfl⟩
    | true =>
      right
      rw [progOutstanding, hparser, hactive]
      exact ⟨rfl, by rw [Bool.not_true, Bool.and_false], rfl⟩

end Clients

/-! ## Steps -/

/-- Whoever is to call back has the stash, and only one is. -/
structure Owned (s : Callbacks) : Prop where
  prog : progOutstanding s.clients = true →
    s.clients.stashBusy = true ∧ s.railcom.expectCallback = none
  main : s.railcom.expectCallback.isSome = true → s.clients.stashBusy = true

/-- What a step does to the stash; `false` if the stash stays busy for nothing. -/
inductive Moves (s s' : Callbacks) : Bool → Prop where
  | same : s'.clients.stashBusy = s.clients.stashBusy →
      progOutstanding s'.clients = progOutstanding s.clients →
      s'.railcom.expectCallback = s.railcom.expectCallback → Moves s s' true
  | freed : s.Outstanding → s'.clients.stashBusy = false → progOutstanding s'.clients = false →
      s'.railcom.expectCallback = none → Moves s s' true
  | takenProg : s.clients.stashBusy = false → s'.clients.stashBusy = true →
      progOutstanding s'.clients = true →
      s'.railcom.expectCallback = s.railcom.expectCallback → Moves s s' true
  | takenMain : s.clients.stashBusy = false → s'.clients.stashBusy = true →
      progOutstanding s'.clients = progOutstanding s.clients →
      s'.railcom.expectCallback.isSome = true → s.collector = true → Moves s s' true
  | leaked : s.clients.stashBusy = false → s'.clients.stashBusy = true →
      progOutstanding s'.clients = progOutstanding s.clients →
      (s'.railcom.expectCallback = s.railcom.expectCallback ∨ s.collector = false) → Moves s s' false
  | replaced : progOutstanding s.clients = true → s'.clients.stashBusy = s.clients.stashBusy →
      progOutstanding s'.clients = false →
      s'.railcom.expectCallback = s.railcom.expectCallback → Moves s s' false

variable {s s' : Callbacks}

/-- Nobody has a free stash. -/
theorem Owned.of_free (h : s.Owned) (hfree : s.clients.stashBusy = false) :
    progOutstanding s.clients = false ∧ s.railcom.expectCallback = none := by
  constructor
  · by_contra hprog
    rw [(h.prog (eq_true_of_ne_false hprog)).1] at hfree
    cases hfree
  · by_contra hmain
    rw [h.main (Option.isSome_iff_ne_none.mpr hmain)] at hfree
    cases hfree

/-- What is outstanding has the stash before and after any move. -/
theorem Moves.owned {keeps : Bool} (hmoves : Moves s s' keeps) (h : s.Owned) : s'.Owned := by
  cases hmoves with
  | same hbusy hprog hmain =>
    refine ⟨fun hprog' => ?_, fun hmain' => ?_⟩
    · rw [hbusy, hmain]
      exact h.prog (hprog ▸ hprog')
    · rw [hbusy]
      exact h.main (hmain ▸ hmain')
  | freed hbefore hbusy hprog hmain =>
    refine ⟨fun hprog' => ?_, fun hmain' => ?_⟩
    · rw [hprog] at hprog'
      cases hprog'
    · rw [hmain] at hmain'
      cases hmain'
  | takenProg hfree hbusy hprog hmain =>
    exact ⟨fun _ => ⟨hbusy, hmain.trans (h.of_free hfree).2⟩, fun _ => hbusy⟩
  | takenMain hfree hbusy hprog hmain hcollector =>
    refine ⟨fun hprog' => ?_, fun _ => hbusy⟩
    rw [hprog, (h.of_free hfree).1] at hprog'
    cases hprog'
  | leaked hfree hbusy hprog hmain =>
    refine ⟨fun hprog' => ?_, fun _ => hbusy⟩
    rw [hprog, (h.of_free hfree).1] at hprog'
    cases hprog'
  | replaced hprog hbusy hprog' hmain =>
    obtain ⟨htaken, hnone⟩ := h.prog hprog
    refine ⟨fun hprog'' => ?_, fun hmain' => ?_⟩
    · rw [hprog'] at hprog''
      cases hprog''
    · exact hbusy.trans htaken

/-- A move keeps the stash from being busy for nothing if and only if it is one that keeps. -/
theorem Moves.held_iff {keeps : Bool} (hmoves : Moves s s' keeps) (h : s.Owned)
    (hcollector : s'.collector = s.collector) : s'.Held ↔ s.Held ∧ keeps = true := by
  unfold Held Outstanding
  rw [hcollector]
  cases hmoves with
  | same hbusy hprog hmain =>
    rw [hbusy, hprog, hmain, and_iff_left rfl]
  | freed hbefore hbusy hprog hmain =>
    rw [hbusy]
    exact iff_of_true nofun ⟨fun _ => hbefore, rfl⟩
  | takenProg hfree hbusy hprog hmain => simp [hfree, hprog]
  | takenMain hfree hbusy hprog hmain hcollector => simp [hfree, hmain, hcollector]
  | leaked hfree hbusy hprog hmain =>
    have hnone := h.of_free hfree
    rcases hmain with hmain | hmain
    · simp [hbusy, hprog, hmain, hnone]
    · simp [hbusy, hprog, hmain, hnone]
  | replaced hprog hbusy hprog' hmain =>
    have htaken := h.prog hprog
    simp [hbusy, hprog', hmain, htaken]

/-- A request of the parser, when the stash is free. -/
theorem moves_accept {clients : ProgClients} {request : AckRequest} {callback : AckCallback}
    (hfree : s.clients.stashBusy = false) (hparser : callback.ofParser = true)
    (hclients : clients = { s.clients with stashBusy := true }.accept request callback) :
    Moves s { s with clients } true := by
  rcases accept_cases { s.clients with stashBusy := true } request callback with
    ⟨-, hbusy, hprog⟩ | ⟨-, hbusy, hprog⟩
  · rw [← hclients] at hbusy hprog
    exact .takenProg hfree hbusy (hprog.trans hparser) rfl
  · rw [← hclients] at hbusy hprog
    rw [hparser] at hbusy
    exact .same (hbusy.trans hfree.symm) hprog rfl

/-- A request of someone else. -/
theorem moves_accept_other (request : AckRequest) {callback : AckCallback}
    (hother : callback.ofParser = false) (hplan : request.plan.isSome = true) :
    ∃ keeps, Moves s { s with clients := s.clients.accept request callback } keeps ∧
      ((progOutstanding s.clients = true → ∀ t, ¬ s.clients.ack.tracks.CanStart t) ↔
        keeps = true) := by
  rcases accept_cases s.clients request callback with ⟨hstarts, hbusy, hprog⟩ | ⟨hstarts, hbusy, hprog⟩
  · rw [hother] at hprog
    cases hbefore : progOutstanding s.clients with
    | false => exact ⟨true, .same hbusy (hprog.trans hbefore.symm) rfl, iff_of_true nofun rfl⟩
    | true =>
      refine ⟨false, .replaced hbefore hbusy hprog rfl, iff_of_false (fun hnone => ?_) nofun⟩
      obtain ⟨-, t, ht⟩ := hstarts
      exact hnone rfl t ht
  · rw [hother, Bool.not_false, Bool.and_true] at hbusy
    refine ⟨true, .same hbusy hprog rfl, iff_of_true (fun _ t ht => ?_) rfl⟩
    exact hstarts ⟨hplan, t, ht⟩

/-- What a programming command does to the stash, and when it keeps. -/
theorem moves_parse (opcode : ProgOpcode) (params : List Int16) :
    ∃ keeps, Moves s (s.step (.prog (.parse opcode params))) keeps ∧
      (Keeps s (.prog (.parse opcode params)) ↔ keeps = true) := by
  rw [step, ProgClients.step]
  by_cases hbusy : s.clients.stashBusy = true
  · rw [ProgClients.parse_of_busy hbusy]
    refine ⟨true, .same rfl rfl rfl, iff_of_true ?_ rfl⟩
    cases opcode with
    | W => exact fun _ => hbusy
    | _ => trivial
  have hfree := eq_false_of_ne_true hbusy
  cases hrequest : opcode.request params with
  | none =>
    rw [ProgClients.parse.eq_def]
    cases opcode with
    | W =>
      simp only [hfree, hrequest, Bool.false_eq_true, if_false]
      refine ⟨false, .leaked hfree rfl rfl (.inl rfl), iff_of_false (fun hkeeps => ?_) (by simp)⟩
      exact hbusy (hkeeps hrequest)
    | _ =>
      simp only [hrequest]
      exact ⟨true, .same rfl rfl rfl, iff_of_true trivial rfl⟩
  | some a =>
    have hclients : s.clients.parse opcode params =
        { s.clients with stashBusy := true }.accept a.1 a.2 := by
      rw [ProgClients.parse.eq_def]
      cases opcode <;> simp only [hfree, hrequest, Bool.false_eq_true, if_false]
    refine ⟨true, moves_accept hfree (ProgOpcode.ofParser_of_request hrequest) hclients,
      iff_of_true ?_ rfl⟩
    cases opcode with
    | W =>
      intro hnone
      rw [hrequest] at hnone
      cases hnone
    | _ => trivial

theorem moves_prog (h : s.Owned) (e : ProgClients.Event) :
    ∃ keeps, Moves s (s.step (.prog e)) keeps ∧ (Keeps s (.prog e) ↔ keeps = true) := by
  cases e with
  | turn i =>
    refine ⟨true, ?_, iff_of_true trivial rfl⟩
    rcases turn_cases s.clients i with ⟨hbusy, hprog⟩ | ⟨hbefore, hbusy, hprog⟩
    · exact .same hbusy hprog rfl
    · exact .freed (.inl hbefore) hbusy hprog (h.prog hbefore).2
  | multithrottle => exact moves_accept_other _ rfl rfl
  | readLoco1 => exact moves_accept_other _ rfl rfl
  | parse opcode params => exact moves_parse opcode params

/-- A callback of RailCom leaves the stash alone, or frees it. -/
theorem moves_called (h : s.Owned) (hcollector : s.collector = true) {railcom : Railcom Unit}
    {call : Bool} (hcall : s.railcom.expectCallback.isSome = false → call = false)
    (hnone : railcom.expectCallback = if call then none else s.railcom.expectCallback) :
    Moves s (s.called railcom call) true := by
  cases call with
  | false =>
    exact .same (by simp [called, setBusy]) rfl hnone
  | true =>
    have hmain : s.railcom.expectCallback.isSome = true := by
      by_contra hmain
      cases hcall (eq_false_of_ne_true hmain)
    refine .freed (.inr ⟨hmain, hcollector⟩) (by simp [called, setBusy]) ?_ hnone
    by_contra hprog
    rw [(h.prog (eq_true_of_ne_false hprog)).2] at hmain
    cases hmain

/-- What `<r>` does to the stash, and when it keeps. -/
theorem moves_read (params : List Int16) (now : UInt32) :
    ∃ keeps, Moves s (s.step (.read params now)) keeps ∧
      (Keeps s (.read params now) ↔ keeps = true) := by
  rw [step, read]
  by_cases hparams : params.length = 2
  · rw [if_neg (not_not.mpr hparams)]
    by_cases hrailcom : s.isRailcom = false
    · rw [if_pos hrailcom]
      refine ⟨true, .same rfl rfl rfl, iff_of_true (fun _ hactive => ?_) rfl⟩
      rw [hrailcom] at hactive
      cases hactive
    rw [if_neg hrailcom]
    by_cases hbusy : s.clients.stashBusy = true
    · rw [if_pos hbusy]
      refine ⟨true, .same rfl rfl rfl, iff_of_true (fun _ _ hfree => ?_) rfl⟩
      rw [hbusy] at hfree
      cases hfree
    rw [if_neg hbusy]
    have hfree := eq_false_of_ne_true hbusy
    cases hcollector : s.collector with
    | true => exact ⟨true, .takenMain hfree rfl rfl rfl hcollector, iff_of_true (fun _ _ _ => hcollector) rfl⟩
    | false =>
      refine ⟨false, .leaked hfree rfl rfl (.inr hcollector), iff_of_false (fun hkeeps => ?_) (by simp)⟩
      rw [hkeeps hparams (eq_true_of_ne_false hrailcom) hfree] at hcollector
      cases hcollector
  · rw [if_pos hparams]
    exact ⟨true, .same rfl rfl rfl, iff_of_true (fun hlength => absurd hlength hparams) rfl⟩

/-- **What a step does.** -/
theorem moves (h : s.Owned) (e : Event) :
    ∃ keeps, Moves s (s.step e) keeps ∧ (Keeps s e ↔ keeps = true) := by
  cases e with
  | prog e => exact moves_prog h e
  | read params now => exact moves_read params now
  | process buffer turns =>
    refine ⟨true, ?_, iff_of_true trivial rfl⟩
    rw [step]
    split
    · next hcollector =>
      simp only [Railcom.process, Railcom.processFrom_eq]
      cases buffer.firstCvValue turns 0 with
      | none => exact moves_called h hcollector (fun _ => rfl) rfl
      | some r =>
        cases hexpect : s.railcom.expectCallback with
        | none => exact moves_called h hcollector (fun _ => rfl) hexpect.symm
        | some k =>
          refine moves_called h hcollector (fun hnone => ?_) rfl
          rw [hexpect] at hnone
          cases hnone
    · exact .same rfl rfl rfl
  | loop now =>
    refine ⟨true, ?_, iff_of_true trivial rfl⟩
    rw [step]
    split
    · next hcollector =>
      rw [Railcom.loop]
      by_cases hlate : s.railcom.expectCallback.isSome = true ∧
          Railcom.pomReadTimeout < now - s.railcom.expectWait
      · rw [if_pos hlate]
        refine moves_called h hcollector (fun hnone => hnone) ?_
        rw [if_pos hlate.1]
      · rw [if_neg hlate]
        exact moves_called h hcollector (fun _ => rfl) rfl
    · exact .same rfl rfl rfl

/-- No event adds or removes the collector of RailCom. -/
theorem collector_step (s : Callbacks) (e : Event) : (s.step e).collector = s.collector := by
  cases e with
  | prog e => rfl
  | read params now =>
    rw [step, read]
    split
    · rfl
    split
    · rfl
    split <;> rfl
  | process buffer turns =>
    rw [step]
    split <;> rfl
  | loop now =>
    rw [step]
    split <;> rfl

theorem Owned.step (h : s.Owned) (e : Event) : (s.step e).Owned := by
  obtain ⟨keeps, hmoves, -⟩ := moves h e
  exact hmoves.owned h

theorem held_step_iff (h : s.Owned) (e : Event) : (s.step e).Held ↔ s.Held ∧ Keeps s e := by
  obtain ⟨keeps, hmoves, hkeeps⟩ := moves h e
  rw [hmoves.held_iff h (collector_step s e), hkeeps]

theorem held_run_iff (h : s.Owned) (events : List Event) :
    (run step s events).Held ↔ s.Held ∧ Along step Keeps s events := by
  induction events generalizing s with
  | nil => simp [Along]
  | cons e events ih => rw [run_cons, ih (h.step e), held_step_iff h, Along, and_assoc]

/-! ## Commands that are rejected -/

/-- A command that is answered with `<X>` leaves the stash as it was, exactly if it keeps it. -/
theorem busy_of_rejects {e : Event} (hrejects : s.rejects e = true) :
    (s.step e).clients.stashBusy = s.clients.stashBusy ↔ Keeps s e := by
  cases e with
  | prog e =>
    cases e with
    | parse opcode params =>
      rw [step, ProgClients.step]
      by_cases hbusy : s.clients.stashBusy = true
      · rw [ProgClients.parse_of_busy hbusy]
        refine iff_of_true rfl ?_
        cases opcode with
        | W => exact fun _ => hbusy
        | _ => trivial
      have hfree := eq_false_of_ne_true hbusy
      have hrequest : opcode.request params = none := by
        rw [rejects, hfree, Bool.false_or] at hrejects
        exact Option.isNone_iff_eq_none.mp hrejects
      rw [ProgClients.parse.eq_def]
      cases opcode with
      | W =>
        simp only [hfree, hrequest, Bool.false_eq_true, if_false]
        exact iff_of_false (by simp) fun hkeeps => hbusy (hkeeps hrequest)
      | _ =>
        simp only [hrequest]
        exact iff_of_true trivial trivial
    | _ => cases hrejects
  | read params now =>
    have hstep : s.step (.read params now) = s := by
      rw [step, read]
      split
      · rfl
      split
      · rfl
      split
      · rfl
      · simp_all [rejects]
    rw [hstep]
    refine iff_of_true rfl fun hlength hrailcom hfree => ?_
    simp [rejects, hlength, hrailcom, hfree] at hrejects
  | _ => cases hrejects

/-! ## The stash is free again -/

/-- No program is replaced. -/
def Undisturbed (s : Callbacks) : Event → Prop
  | .prog e => s.clients.undisturbed e = true
  | _ => True

/-- Every event keeps the invariant of the requests, unless it replaces a program. -/
theorem inv_step (h : s.clients.Inv) {e : Event} (hfree : s.Undisturbed e) :
    (s.step e).clients.Inv := by
  cases e with
  | prog e => exact h.step hfree
  -- only the stash and RailCom change, and the requests are those of before
  | read params now =>
    rw [step, read]
    split
    · exact h
    split
    · exact h
    split
    · exact h
    · exact h.congr rfl rfl
  | process buffer turns =>
    rw [step]
    split
    · exact h.congr rfl rfl
    · exact h
  | loop now =>
    rw [step]
    split
    · exact h.congr rfl rfl
    · exact h

/-- Turns of the interpreter. -/
theorem run_turns (s : Callbacks) (is : List AckInput) :
    run step s (is.map fun i => .prog (.turn i)) =
      { s with clients := run ProgClients.step s.clients (is.map .turn) } := by
  induction is generalizing s with
  | nil => rfl
  | cons i is ih =>
    rw [List.map_cons, run_cons, ih]
    rfl

theorem along_keeps_turns (s : Callbacks) (is : List AckInput) :
    Along step Keeps s (is.map fun i => .prog (.turn i)) := by
  induction is generalizing s with
  | nil => trivial
  | cons i is ih => exact ⟨trivial, ih _⟩

/-- What is outstanding frees the stash: the interpreter calls back, whatever is answered on the prog
track, or a look at the clock does after the timeout. -/
def FreedFinally (s : Callbacks) : Prop :=
  (∀ now, Railcom.pomReadTimeout < now - s.railcom.expectWait →
    (s.step (.loop now)).clients.stashBusy = false) ∨
  ∀ ticks, Fair ticks → ∀ answers, ∃ n is,
    (states (DCCACK.bench endless) (s.clients.ack, answers) ticks n).1 = run DCCACK.turn s.clients.ack is ∧
      (run step s (is.map fun i => .prog (.turn i))).clients.stashBusy = false

/-- A stash that is busy becomes free by the operation for which it is busy. -/
theorem freed_finally (h : s.Owned) (hinv : s.clients.Inv) (hheld : s.Held)
    (hbusy : s.clients.stashBusy = true) (hpower : s.clients.ack.getPower ≠ some .overload) :
    s.FreedFinally := by
  rcases hheld hbusy with hprog | ⟨hmain, hcollector⟩
  · right
    intro ticks hfair answers
    obtain ⟨n, is, his, hstopped⟩ := ProgClients.stops_finally hinv hpower hfair answers
    have hend := (held_run_iff h _).mpr ⟨hheld, along_keeps_turns s is⟩
    refine ⟨n, is, his, ?_⟩
    by_contra hbusy'
    rcases hend (eq_true_of_ne_false hbusy') with hprog' | ⟨hmain, -⟩
    · rw [run_turns, progOutstanding, hstopped] at hprog'
      cases hprog'
    · rw [run_turns, (h.prog hprog).2] at hmain
      cases hmain
  · left
    intro now hlate
    rw [step, if_pos hcollector, Railcom.loop, if_pos ⟨hmain, hlate⟩]
    simp [called, setBusy, hmain]

/-! ## Runs -/

/-- Nothing has been asked for. -/
structure Idle (s : Callbacks) : Prop where
  fresh : s.clients.Fresh
  free : s.clients.stashBusy = false
  quiet : s.railcom.expectCallback = none

theorem Idle.owned (h : s.Idle) : s.Owned := by
  refine ⟨fun hprog => ?_, fun hmain => ?_⟩
  · rw [progOutstanding, h.fresh.idle] at hprog
    cases hprog
  · rw [h.quiet] at hmain
    cases hmain

theorem Idle.held (h : s.Idle) : s.Held := by
  intro hbusy
  rw [h.free] at hbusy
  cases hbusy

/-- **The stash is busy only while an operation is outstanding**, exactly if every step so far kept it;
a command that is answered with `<X>` leaves it as it was, exactly if it keeps it; and as long as no
program is replaced, what is outstanding frees it in the end. -/
theorem stash_is_held (h : s.Idle) (events : List Event) :
    ((run step s events).Held ↔ Along step Keeps s events) ∧
    (∀ e, (run step s events).rejects e = true →
      (((run step s events).step e).clients.stashBusy = (run step s events).clients.stashBusy ↔
        (run step s events).Keeps e)) ∧
    (Along step Keeps s events → Along step Undisturbed s events →
      (run step s events).clients.stashBusy = true →
      (run step s events).clients.ack.getPower ≠ some .overload →
      (run step s events).FreedFinally) := by
  have hheld : (run step s events).Held ↔ Along step Keeps s events := by
    rw [held_run_iff h.owned, and_iff_right h.held]
  refine ⟨hheld, fun e hrejects => busy_of_rejects hrejects, fun hkeeps hundisturbed => ?_⟩
  have howned : (run step s events).Owned :=
    inv_run_of_step Owned (fun _ e h => h.step e) h.owned events
  have hinv : (run step s events).clients.Inv :=
    inv_run (fun s => s.clients.Inv) (fun _ _ hfree h => inv_step h hfree) h.fresh.inv hundisturbed
  exact freed_finally howned hinv (hheld.mpr hkeeps)

/-- With Railcom, and its collector. -/
def start : Callbacks := ⟨ProgClients.start, Railcom.init, true, true⟩

theorem idle_start : start.Idle := ⟨ProgClients.fresh_start, rfl, rfl⟩

/-- `<r 3 8>`, and a read on the prog track that is refused meanwhile. -/
theorem stash_is_held_by_read : (run step start [.read [3, 8] 0, .prog (.parse .R [1])]).Held :=
  (stash_is_held idle_start _).1.mpr ⟨fun _ _ _ => rfl, trivial, trivial⟩

/-- `<W>` without parameters is answered with `<X>`, takes the stash, and nothing will free it: a read
is refused after it. -/
theorem not_stash_is_held :
    start.rejects (.prog (.parse .W [])) = true ∧
    ¬ (run step start [.prog (.parse .W [])]).Held ∧
    (run step start [.prog (.parse .W [])]).rejects (.prog (.parse .R [1])) = true := by
  refine ⟨by decide, fun hheld => ?_, by decide⟩
  rcases hheld (by decide) with hprog | ⟨hmain, -⟩
  · revert hprog
    decide
  · cases hmain

end Callbacks

end CommandStation
