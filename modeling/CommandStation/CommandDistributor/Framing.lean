import Mathlib.Data.List.Sublists
import CommandStation.Lib.Run
import CommandStation.CommandDistributor.Basic

/-!
# The outbound ring holds whole messages

Whatever the parsers do, the messages in the outbound ring are whole and stand there with the client
for which they were written. This is so although other messages are sent while one is open, as that
one is committed before and marked again.

There are two holes. A programming callback that comes while a message is open marks a message of its
own without committing the open one, and a broadcast takes the client of a commit that has failed for
that of an open message.
-/

namespace CommandStation

open CommandStation.Lib RingStream

variable {flash : Nat → UInt8} {wide : Bool}

namespace RingStream

variable {r : RingStream} {xs ys : List UInt8} {m : Outgoing} {msgs drafts : List Outgoing}
variable {P : Outgoing → Prop}

/-! ## Open messages -/

variable (flash wide) in
/-- The message `m` is open, behind the unread cells `xs`. -/
structure Open (r : RingStream) (xs : List UInt8) (m : Outgoing) : Prop where
  writing : Writing r xs ([m.client, 0, 0] ++ m.raw flash wide) (m.payload flash).length
  client : r.ringClient = m.client

variable (flash wide) in
/-- Some of these messages, not more, have been put into the ring behind `xs`. `P` holds of them. -/
def Grown (P : Outgoing → Prop) (r : RingStream) (xs : List UInt8) (drafts : List Outgoing) : Prop :=
  ∃ msgs : List Outgoing, msgs.Sublist drafts ∧ (∀ m ∈ msgs, P m ∧ m.payload flash ≠ []) ∧
    Rests flash r (xs ++ msgs.flatMap (Outgoing.cells flash wide))

theorem ringClient_write (r : RingStream) (b : UInt8) : (r.write b).1.ringClient = r.ringClient := by
  unfold write
  split
  · rfl
  · dsimp only
    split <;> rfl

theorem ringClient_print (r : RingStream) (text : List UInt8) : (r.print text).ringClient = r.ringClient := by
  induction text generalizing r with
  | nil => rfl
  | cons b text ih => exact (ih (r.write b).1).trans (ringClient_write r b)

theorem ringClient_put (r : RingStream) (item : Item) :
    (r.put flash wide item).ringClient = r.ringClient := by
  cases item with
  | byte b => exact ringClient_write r b
  | text p =>
    simp only [put, printFlash]
    split
    · exact ringClient_print r _
    · split
      · rfl
      · exact ringClient_print r _

theorem ringClient_mark (r : RingStream) (client : UInt8) : (r.mark client).ringClient = client :=
  ringClient_print _ _

theorem open_mark (h : Rests flash r xs) (client : UInt8) :
    Open flash wide (r.mark client) xs ⟨client, []⟩ :=
  ⟨(writing_mark h.holds h.ready client).1, ringClient_mark r client⟩

theorem Open.put (h : Open flash wide r xs m) (item : Item) :
    Open flash wide (r.put flash wide item) xs { m with items := m.items ++ [item] } where
  writing := by
    have hput := (writing_put flash wide h.writing item).1
    simpa [Outgoing.raw, Outgoing.payload] using hput
  client := (ringClient_put r item).trans h.client

theorem Open.puts (h : Open flash wide r xs m) (items : List Item) :
    Open flash wide (items.foldl (RingStream.put flash wide) r) xs { m with items := m.items ++ items } := by
  induction items generalizing r m with
  | nil => simpa using h
  | cons item items ih => simpa using ih (h.put item)

theorem grown_nil (h : Rests flash r xs) : Grown flash wide P r xs drafts :=
  ⟨[], List.nil_sublist _, by simp, by simpa using h⟩

theorem Open.commit (h : Open flash wide r xs m) (hv : P m) :
    Grown flash wide P r.commit.1 xs [m] := by
  cases ho : r.overflow with
  | true => exact grown_nil (commit_overflow flash h.writing ho).2.1
  | false =>
    by_cases hempty : m.payload flash = []
    · have hw := h.writing
      rw [hempty, List.length_nil] at hw
      exact grown_nil (commit_empty flash hw ho).2
    · refine ⟨[m], List.Sublist.refl _, by simpa using ⟨hv, hempty⟩, ?_⟩
      rw [List.flatMap_singleton]
      exact (commit_fits flash h.writing ho (by simpa using hempty)).2

theorem send_grown (h : Rests flash r xs) (hv : P m) :
    Grown flash wide P (r.send flash wide m.client m.items).1 xs [m] :=
  ((open_mark h m.client).puts m.items).commit hv

theorem Grown.mono (h : Grown flash wide P r xs msgs) (hsub : msgs.Sublist drafts) :
    Grown flash wide P r xs drafts := by
  obtain ⟨sent, hsent, hv, hrests⟩ := h
  exact ⟨sent, hsent.trans hsub, hv, hrests⟩

/-- More messages come behind those that are there. -/
theorem Grown.trans {r' : RingStream} {drafts' : List Outgoing} (h : Grown flash wide P r xs drafts)
    (h' : ∀ {ys}, Rests flash r ys → Grown flash wide P r' ys drafts') :
    Grown flash wide P r' xs (drafts ++ drafts') := by
  obtain ⟨sent, hsent, hv, hrests⟩ := h
  obtain ⟨sent', hsent', hv', hrests'⟩ := h' hrests
  refine ⟨sent ++ sent', hsent.append hsent', ?_, ?_⟩
  · intro m hm
    exact (List.mem_append.mp hm).elim (hv m) (hv' m)
  · rw [List.flatMap_append, ← List.append_assoc]
    exact hrests'

theorem sends_grown (h : Rests flash r xs) (hv : ∀ m ∈ msgs, P m) :
    Grown flash wide P (msgs.foldl (fun r m => (r.send flash wide m.client m.items).1) r) xs msgs := by
  induction msgs generalizing r xs with
  | nil => exact grown_nil h
  | cons m msgs ih =>
    exact (send_grown h (hv m (by simp))).trans fun hrests => ih hrests fun m' hm' => hv m' (by simp [hm'])

end RingStream

namespace CommandDistributor

variable {r : RingStream} {xs : List UInt8} {m : Outgoing} {msgs : List Outgoing} {P : Outgoing → Prop}

/-! ## Broadcasts -/

theorem interject_rests (h : Rests flash r xs) (hclient : r.ringClient = noClient)
    (hv : ∀ m ∈ msgs, P m) : Grown flash wide P (interject flash wide r msgs) xs msgs := by
  simp only [interject, peekTargetMark, hclient, ne_eq, not_true_eq_false, if_false]
  exact sends_grown h hv

/-- The open message is committed, and another one for the same client is opened. -/
theorem interject_open (h : Open flash wide r xs m) (hclient : m.client ≠ noClient)
    (hm : P m) (hv : ∀ m ∈ msgs, P m) :
    ∃ sent : List Outgoing, sent.Sublist (m :: msgs) ∧
      (∀ m ∈ sent, P m ∧ m.payload flash ≠ []) ∧
      Open flash wide (interject flash wide r msgs)
        (xs ++ sent.flatMap (Outgoing.cells flash wide)) ⟨m.client, []⟩ := by
  obtain ⟨sent, hsent, hvalid, hrests⟩ :=
    (h.commit hm).trans fun hrests => sends_grown hrests hv
  refine ⟨sent, hsent, hvalid, ?_⟩
  simp only [interject, peekTargetMark, h.client, ne_eq, hclient, not_false_eq_true, if_true]
  exact open_mark hrests m.client

/-! ## Clients -/

variable {n : Nat} {cd : CommandDistributor} {c : UInt8} {text : List UInt8} {items : List Item}
variable {type : ClientType} {actions : List Action} {handshake : List UInt8 → List Item}

/-- A client byte, with or without the websocket marker. -/
def IsClient (n : Nat) (c : UInt8) : Prop := c.toNat % 128 < n

theorem IsClient.ne_noClient (h : IsClient n c) (hn : n ≤ 127) : c ≠ noClient := by
  rintro rfl
  change 127 < n at h
  omega

theorem isClient_of_lt (h : c.toNat < n) (hn : n ≤ 127) : IsClient n c := by
  rw [IsClient, Nat.mod_eq_of_lt (by omega)]
  exact h

theorem isClient_or_marker (h : c.toNat < n) (hn : n ≤ 127) :
    IsClient n (c ||| Websockets.websockClientMarker) := by
  have hall : ∀ k < 128, (UInt8.ofNat k ||| Websockets.websockClientMarker).toNat % 128 = k := by
    decide +kernel
  have := hall c.toNat (by omega)
  rw [UInt8.ofNat_toNat] at this
  rw [IsClient, this]
  exact h

/-- The clients that are kept for later are clients. -/
structure Sound (n : Nat) (cd : CommandDistributor) : Prop where
  length : cd.clients.length = n
  stashed : ∀ s c, cd.stashed s = some c → IsClient n c
  display : cd.virtualLCDClient ≠ noClient → IsClient n cd.virtualLCDClient
  throttles : ∀ c ∈ cd.throttles, c.toNat < n

/-- Output that can be told from an insert and counted. -/
def Plain (flash : Nat → UInt8) (wide : Bool) (items : List Item) : Prop :=
  (∀ item ∈ items, item.Valid flash wide) ∧ (items.flatMap (Item.expand flash)).length < 32768

theorem plain_nil : Plain flash wide [] := ⟨by simp, by simp⟩

/-- A message that can be sent to a client. -/
structure Good (flash : Nat → UInt8) (wide : Bool) (n : Nat) (m : Outgoing) : Prop where
  valid : m.Valid flash wide
  client : IsClient n m.client

theorem good_of_plain (hc : IsClient n c) (hn : n ≤ 127) (h : Plain flash wide items) :
    Good flash wide n ⟨c, items⟩ :=
  ⟨⟨hc.ne_noClient hn, h.1, h.2⟩, hc⟩

/-- A text is broadcast to clients of the table only. -/
theorem good_targets (hn : n ≤ 127) (hlen : cd.clients.length = n)
    (h : Plain flash wide (text.map Item.byte)) : ∀ m ∈ cd.targets type text, Good flash wide n m := by
  intro m hm
  rw [targets, List.mem_map] at hm
  obtain ⟨clientId, hmem, rfl⟩ := hm
  have hlt : clientId < n := by
    rw [List.mem_filter, List.mem_range, hlen] at hmem
    exact hmem.1
  have hnat : (UInt8.ofNat clientId).toNat < n := by
    rw [UInt8.toNat_ofNat', Nat.mod_eq_of_lt (by omega)]
    exact hlt
  refine good_of_plain ?_ hn h
  rw [target]
  split
  · exact isClient_or_marker hnat hn
  · exact isClient_of_lt hnat hn

/-! ## What is written for whom -/

/-- The messages that are complete with an action, while `m` is open. -/
def completes (cd : CommandDistributor) (m : Outgoing) : Action → List Outgoing
  | .broadcast type text =>
    if cd.known then
      (m :: cd.targets type text) ++
        if type = .command then ⟨m.client, []⟩ :: cd.targets .websocket text else []
    else []
  | .display items => if cd.virtualLCDClient ≠ noClient then [m, ⟨cd.virtualLCDClient, items⟩] else []
  | .callback s items => (cd.stashed s).toList.map fun client => ⟨client, items⟩
  | _ => []

/-- The message that is open after it. -/
def goesOn (cd : CommandDistributor) (m : Outgoing) : Action → Outgoing
  | .put item => { m with items := m.items ++ [item] }
  | .broadcast _ _ => if cd.known then ⟨m.client, []⟩ else m
  | .display _ => if cd.virtualLCDClient ≠ noClient then ⟨m.client, []⟩ else m
  | _ => m

variable (flash wide) in
/-- The messages that are complete after some actions. -/
def done (cd : CommandDistributor) (m : Outgoing) : List Action → List Outgoing
  | [] => []
  | a :: as => cd.completes m a ++ done (cd.act flash wide a) (cd.goesOn m a) as

variable (flash wide) in
/-- The message that is open after them. -/
def last (cd : CommandDistributor) (m : Outgoing) : List Action → Outgoing
  | [] => m
  | a :: as => last (cd.act flash wide a) (cd.goesOn m a) as

variable (flash wide) in
/-- The messages of a process that has its first message to a client marked. -/
def drafts (cd : CommandDistributor) (client : UInt8) (actions : List Action) : List Outgoing :=
  let cd := { cd with ring := cd.ring.mark client }
  cd.done flash wide ⟨client, []⟩ actions ++ [cd.last flash wide ⟨client, []⟩ actions]

/-- The output to the client itself. -/
def output (flash : Nat → UInt8) : List Action → List UInt8
  | .put item :: as => item.expand flash ++ output flash as
  | _ :: as => output flash as
  | [] => []

variable (flash wide) in
/-- Nothing but plain output, and no callback comes at once. -/
def Action.Ok : Action → Prop
  | .put item => item.Valid flash wide
  | .broadcast _ text => Plain flash wide (text.map Item.byte)
  | .display items => Plain flash wide items
  | .callback _ _ => False
  | .takeDisplay => True
  | .stash _ => True

variable (flash wide) in
/-- All actions of a process are such, and its output can be counted. -/
def ActionsOk (actions : List Action) : Prop :=
  (∀ a ∈ actions, a.Ok flash wide) ∧ (output flash actions).length < 32768

/-! ## One action -/

variable (flash wide) in
/-- A process has the message `m` open and some of the `done` ones have been sent. -/
structure Going (n : Nat) (cd : CommandDistributor) (xs : List UInt8) (m : Outgoing) : Prop where
  isOpen : Open flash wide cd.ring xs m
  sound : Sound n cd
  client : IsClient n m.client
  items : Plain flash wide m.items

theorem Going.good (h : Going flash wide n cd xs m) (hn : n ≤ 127) : Good flash wide n m :=
  good_of_plain h.client hn h.items

/-- An open message goes on behind some of these. -/
def GoesOn (flash : Nat → UInt8) (wide : Bool) (n : Nat) (cd : CommandDistributor) (xs : List UInt8)
    (done : List Outgoing) (m : Outgoing) : Prop :=
  ∃ sent : List Outgoing, sent.Sublist done ∧ (∀ m ∈ sent, Good flash wide n m ∧ m.payload flash ≠ []) ∧
    Going flash wide n cd (xs ++ sent.flatMap (Outgoing.cells flash wide)) m

theorem Going.refl {done : List Outgoing} (h : Going flash wide n cd xs m) :
    GoesOn flash wide n cd xs done m :=
  ⟨[], List.nil_sublist _, by simp, by simpa using h⟩

theorem GoesOn.trans {cd' : CommandDistributor} {done done' : List Outgoing} {m' : Outgoing}
    (h : GoesOn flash wide n cd xs done m)
    (h' : ∀ {ys}, Going flash wide n cd ys m → GoesOn flash wide n cd' ys done' m') :
    GoesOn flash wide n cd' xs (done ++ done') m' := by
  obtain ⟨sent, hsent, hv, hgoing⟩ := h
  obtain ⟨sent', hsent', hv', hgoing'⟩ := h' hgoing
  refine ⟨sent ++ sent', hsent.append hsent', ?_, ?_⟩
  · intro m hm
    exact (List.mem_append.mp hm).elim (hv m) (hv' m)
  · rw [List.flatMap_append, ← List.append_assoc]
    exact hgoing'

theorem Sound.with_ring (h : Sound n cd) (r : RingStream) : Sound n { cd with ring := r } :=
  ⟨h.length, h.stashed, h.display, h.throttles⟩

/-- Other messages are sent from within the open one. -/
theorem Going.interject (h : Going flash wide n cd xs m) (hn : n ≤ 127)
    (hv : ∀ m ∈ msgs, Good flash wide n m) :
    GoesOn flash wide n { cd with ring := interject flash wide cd.ring msgs } xs (m :: msgs)
      ⟨m.client, []⟩ := by
  obtain ⟨sent, hsent, hvalid, hopen⟩ :=
    interject_open h.isOpen (h.client.ne_noClient hn) (h.good hn) hv
  exact ⟨sent, hsent, hvalid, hopen, h.sound.with_ring _, h.client, plain_nil⟩

theorem Going.broadcast (h : Going flash wide n cd xs m) (hn : n ≤ 127) (hknown : cd.known = true)
    (htext : Plain flash wide (text.map Item.byte)) :
    GoesOn flash wide n (cd.broadcastToClients flash wide type text) xs (m :: cd.targets type text)
      ⟨m.client, []⟩ := by
  rw [broadcastToClients, if_pos hknown]
  exact h.interject hn (good_targets hn h.sound.length htext)

theorem Going.stash (h : Going flash wide n cd xs m) (s : Stash) :
    Going flash wide n (cd.stash s) xs m := by
  rw [CommandDistributor.stash]
  split
  · exact h
  · refine ⟨h.isOpen, ⟨h.sound.length, ?_, h.sound.display, h.sound.throttles⟩, h.client, h.items⟩
    intro s' c hc
    by_cases hs : s' = s
    · rw [hs] at hc
      have heq : cd.ring.peekTargetMark = c := by simpa using hc
      rw [← heq, peekTargetMark, h.isOpen.client]
      exact h.client
    · refine h.sound.stashed s' c ?_
      simpa [Function.update_of_ne hs] using hc

/-- What one action does. -/
theorem Going.act {a : Action} (h : Going flash wide n cd xs m) (hn : n ≤ 127)
    (hok : a.Ok flash wide) (hlen : (m.payload flash).length + (output flash [a]).length < 32768) :
    GoesOn flash wide n (cd.act flash wide a) xs (cd.completes m a) (cd.goesOn m a) := by
  cases a with
  | put item =>
    have hitems : Plain flash wide (m.items ++ [item]) := by
      refine ⟨?_, ?_⟩
      · intro i hi
        rw [List.mem_append, List.mem_singleton] at hi
        exact hi.elim (h.items.1 i) (fun heq => heq ▸ hok)
      · simpa [output, Outgoing.payload] using hlen
    exact Going.refl ⟨h.isOpen.put item, h.sound.with_ring _, h.client, hitems⟩
  | broadcast type text =>
    simp only [CommandDistributor.act, completes, goesOn, broadcastReply]
    cases hknown : cd.known with
    | false => simpa [broadcastToClients, hknown] using h.refl
    | true =>
      have hfirst : GoesOn flash wide n (cd.broadcastToClients flash wide type text) xs
          (m :: cd.targets type text) ⟨m.client, []⟩ := h.broadcast hn hknown hok
      rw [if_pos rfl, if_pos rfl]
      by_cases htype : type = .command
      · rw [if_pos htype, if_pos htype]
        refine hfirst.trans fun hgoing => ?_
        have hknown' : (cd.broadcastToClients flash wide type text).known = true := by
          rw [broadcastToClients, if_pos hknown]
          exact hknown
        have htargets : (cd.broadcastToClients flash wide type text).targets .websocket text =
            cd.targets .websocket text := by rw [broadcastToClients, if_pos hknown]; rfl
        rw [← htargets]
        exact hgoing.broadcast hn hknown' hok
      · rw [if_neg htype, if_neg htype, List.append_nil]
        exact hfirst
  | takeDisplay =>
    refine Going.refl ⟨h.isOpen, ⟨h.sound.length, h.sound.stashed, fun _ => ?_, h.sound.throttles⟩,
      h.client, h.items⟩
    show IsClient n cd.ring.peekTargetMark
    rw [peekTargetMark, h.isOpen.client]
    exact h.client
  | display items =>
    simp only [CommandDistributor.act, CommandDistributor.display, completes, goesOn]
    by_cases hclient : cd.virtualLCDClient ≠ noClient
    · rw [if_pos hclient, if_pos hclient, if_pos hclient]
      refine h.interject hn ?_
      simpa using good_of_plain (h.sound.display hclient) hn hok
    · rw [if_neg hclient, if_neg hclient, if_neg hclient]
      exact h.refl
  | stash s => exact (h.stash s).refl
  | callback s items => exact absurd hok id

theorem output_cons (a : Action) (as : List Action) :
    output flash (a :: as) = output flash [a] ++ output flash as := by
  cases a <;> simp [output]

variable (flash) in
/-- An action adds no more to the message than it puts out. -/
theorem payload_goesOn (cd : CommandDistributor) (m : Outgoing) (a : Action) :
    ((cd.goesOn m a).payload flash).length ≤ (m.payload flash).length + (output flash [a]).length := by
  cases a with
  | put item => simp [goesOn, output, Outgoing.payload]
  | broadcast type text =>
    rw [goesOn]
    split
    · exact Nat.zero_le _
    · exact Nat.le_add_right _ _
  | display items =>
    rw [goesOn]
    split
    · exact Nat.zero_le _
    · exact Nat.le_add_right _ _
  | takeDisplay => exact Nat.le_add_right _ _
  | stash s => exact Nat.le_add_right _ _
  | callback s items => exact Nat.le_add_right _ _

/-- What all actions of a process do. -/
theorem Going.acts (h : Going flash wide n cd xs m) (hn : n ≤ 127)
    (hok : ∀ a ∈ actions, a.Ok flash wide)
    (hlen : (m.payload flash).length + (output flash actions).length < 32768) :
    GoesOn flash wide n (actions.foldl (CommandDistributor.act flash wide) cd) xs
      (cd.done flash wide m actions) (cd.last flash wide m actions) := by
  induction actions generalizing cd xs m with
  | nil => exact h.refl
  | cons a as ih =>
    rw [output_cons, List.length_append] at hlen
    have hnext := payload_goesOn flash cd m a
    refine (h.act hn (hok a (by simp)) (by omega)).trans fun hgoing => ?_
    exact ih hgoing (fun a' ha' => hok a' (by simp [ha'])) (by omega)

/-- The open message is committed. -/
theorem GoesOn.commit {sent : List Outgoing} (h : GoesOn flash wide n cd xs sent m) (hn : n ≤ 127) :
    Grown flash wide (Good flash wide n) cd.ring.commit.1 xs (sent ++ [m]) ∧ Sound n cd := by
  obtain ⟨msgs, hmsgs, hv, hgoing⟩ := h
  have hgrown : Grown flash wide (Good flash wide n) cd.ring.commit.1 xs (msgs ++ [m]) := by
    obtain ⟨last, hlast, hvlast, hrests⟩ := hgoing.isOpen.commit (hgoing.good hn)
    refine ⟨msgs ++ last, hlast.append_left msgs, ?_, ?_⟩
    · intro m hm
      exact (List.mem_append.mp hm).elim (hv m) (hvlast m)
    · rw [List.flatMap_append, ← List.append_assoc]
      exact hrests
  exact ⟨hgrown.mono (hmsgs.append_right [m]), hgoing.sound⟩

theorem reply_goesOn (hrests : Rests flash cd.ring xs) (hsound : Sound n cd) (hc : IsClient n c)
    (hn : n ≤ 127) (hok : ActionsOk flash wide actions) :
    GoesOn flash wide n (cd.reply flash wide c actions) xs
      (done flash wide { cd with ring := cd.ring.mark c } ⟨c, []⟩ actions)
      (last flash wide { cd with ring := cd.ring.mark c } ⟨c, []⟩ actions) := by
  have hgoing : Going flash wide n { cd with ring := cd.ring.mark c } xs ⟨c, []⟩ :=
    ⟨open_mark hrests c, hsound.with_ring _, hc, plain_nil⟩
  exact hgoing.acts hn hok.1 (by simpa [Outgoing.payload] using hok.2)

/-- A process from its mark to its commit. -/
theorem reply_finish (hrests : Rests flash cd.ring xs) (hsound : Sound n cd) (hc : IsClient n c)
    (hn : n ≤ 127) (hok : ActionsOk flash wide actions) :
    Grown flash wide (Good flash wide n) (cd.reply flash wide c actions).finish.ring xs (cd.drafts flash wide c actions) ∧
    Sound n (cd.reply flash wide c actions).finish := by
  have hgoes := reply_goesOn hrests hsound hc hn hok
  obtain ⟨hgrown, hsound'⟩ := hgoes.commit hn
  obtain ⟨msgs, -, -, hgoing⟩ := hgoes
  have hclient : (cd.reply flash wide c actions).ring.peekTargetMark ≠ noClient := by
    rw [peekTargetMark, hgoing.isOpen.client]
    exact hgoing.client.ne_noClient hn
  rw [finish, if_pos hclient]
  exact ⟨hgrown, hsound'.with_ring _⟩

/-! ## One event -/

variable (flash wide) in
/-- The messages that the input of a client gives rise to. -/
def dispatchDrafts (cd : CommandDistributor) (clientId : UInt8) (type : ClientType) (buffer : List UInt8)
    (actions : List Action) : List Outgoing :=
  if type = .command then cd.drafts flash wide clientId actions
  else if type = .withrottle then (cd.getThrottle clientId).drafts flash wide clientId actions
  else
    match Websockets.unmask buffer with
    | .reply bytes => [⟨clientId, bytes.map Item.byte⟩]
    | .unknown => []
    | .payload _ => cd.drafts flash wide (clientId ||| Websockets.websockClientMarker) actions

variable (flash wide) in
def parseDrafts (handshake : List UInt8 → List Item) (cd : CommandDistributor) (clientId : UInt8)
    (buffer : List UInt8) (actions : List Action) : List Outgoing :=
  match cd.clients[clientId.toNat]? with
  | none => []
  | some type =>
    let cd := { cd with known := true }
    if type = .none then
      match Websockets.connectionKey buffer with
      | some key => [⟨clientId, handshake key⟩]
      | none =>
        (cd.setType clientId (firstType buffer)).dispatchDrafts flash wide clientId (firstType buffer) buffer
          actions
    else if type = .websockConnecting then
      (cd.setType clientId .websocket).dispatchDrafts flash wide clientId .websocket buffer actions
    else cd.dispatchDrafts flash wide clientId type buffer actions

variable (flash wide handshake) in
/-- The messages that an event gives rise to, each with the client it is written for. -/
def writtenBy (cd : CommandDistributor) : Event → List Outgoing
  | .parse clientId buffer actions => cd.parseDrafts flash wide handshake clientId buffer actions
  | .broadcast type text => cd.targets type text
  | .display items => [⟨cd.virtualLCDClient, items⟩]
  | .throttle clientId items => [⟨clientId, items⟩]
  | .callback s actions =>
    (cd.stashed s).toList.flatMap fun client => cd.drafts flash wide client actions
  | _ => []

variable (flash wide) in
/-- No callback comes while a message is open, the commit before a broadcast has not failed, and all
output is plain, also that which is sent back to a websocket client. -/
def Event.Ok (cd : CommandDistributor) : Event → Prop
  | .parse clientId buffer actions =>
    ActionsOk flash wide actions ∧
    (cd.clients[clientId.toNat]? = some .websocket ∨
        cd.clients[clientId.toNat]? = some .websockConnecting →
      ∀ bytes, Websockets.unmask buffer = .reply bytes → Plain flash wide (bytes.map Item.byte))
  | .broadcast _ text => cd.ring.ringClient = noClient ∧ Plain flash wide (text.map Item.byte)
  | .display items => cd.ring.ringClient = noClient ∧ Plain flash wide items
  | .throttle _ items => Plain flash wide items
  | .callback _ actions => ActionsOk flash wide actions
  | _ => True

theorem Sound.with_known (h : Sound n cd) : Sound n { cd with known := true } :=
  ⟨h.length, h.stashed, h.display, h.throttles⟩

theorem Sound.setType (h : Sound n cd) (c : UInt8) (type : ClientType) : Sound n (cd.setType c type) :=
  ⟨by rw [CommandDistributor.setType, List.length_set]; exact h.length, h.stashed, h.display, h.throttles⟩

theorem Sound.getThrottle (h : Sound n cd) (hc : c.toNat < n) : Sound n (cd.getThrottle c) := by
  rw [CommandDistributor.getThrottle]
  split
  · exact h
  · refine ⟨h.length, h.stashed, h.display, fun c' hc' => ?_⟩
    cases hc' with
    | head => exact hc
    | tail _ hmem => exact h.throttles c' hmem

theorem getThrottle_ring (cd : CommandDistributor) (c : UInt8) : (cd.getThrottle c).ring = cd.ring := by
  rw [getThrottle]
  split <;> rfl

theorem send_plain (hrests : Rests flash cd.ring xs) (hc : IsClient n c) (hn : n ≤ 127)
    (h : Plain flash wide items) : Grown flash wide (Good flash wide n) (cd.ring.send flash wide c items).1 xs [⟨c, items⟩] :=
  send_grown (m := ⟨c, items⟩) hrests (good_of_plain hc hn h)

/-- What is dispatched to a parser adds its drafts to the ring, as whole messages. -/
theorem dispatch_grown {buffer : List UInt8} (hrests : Rests flash cd.ring xs) (hsound : Sound n cd)
    (hc : c.toNat < n) (hn : n ≤ 127) (hok : ActionsOk flash wide actions)
    (hreply : type ≠ .command → type ≠ .withrottle →
      ∀ bytes, Websockets.unmask buffer = .reply bytes → Plain flash wide (bytes.map Item.byte)) :
    Grown flash wide (Good flash wide n) (cd.dispatch flash wide c type buffer actions).ring xs
      (cd.dispatchDrafts flash wide c type buffer actions) ∧
    Sound n (cd.dispatch flash wide c type buffer actions) := by
  rw [dispatch, dispatchDrafts]
  by_cases hcommand : type = .command
  · rw [if_pos hcommand, if_pos hcommand]
    exact reply_finish hrests hsound (isClient_of_lt hc hn) hn hok
  rw [if_neg hcommand, if_neg hcommand]
  by_cases hthrottle : type = .withrottle
  · rw [if_pos hthrottle, if_pos hthrottle]
    rw [← getThrottle_ring cd c] at hrests
    exact reply_finish hrests (hsound.getThrottle hc) (isClient_of_lt hc hn) hn hok
  rw [if_neg hthrottle, if_neg hthrottle]
  cases hunmask : Websockets.unmask buffer with
  | reply bytes =>
    have hmask : c &&& 0x7f = c := by
      have hall : ∀ k < 128, UInt8.ofNat k &&& 0x7f = UInt8.ofNat k := by decide +kernel
      have := hall c.toNat (by omega)
      rwa [UInt8.ofNat_toNat] at this
    dsimp only
    rw [hmask]
    exact ⟨send_plain hrests (isClient_of_lt hc hn) hn (hreply hcommand hthrottle bytes hunmask),
      hsound.with_ring _⟩
  | unknown => exact ⟨grown_nil hrests, hsound⟩
  | payload bytes => exact reply_finish hrests hsound (isClient_or_marker hc hn) hn hok

/-- What is parsed for a client adds its drafts to the ring, as whole messages. -/
theorem parse_grown {buffer : List UInt8} (hrests : Rests flash cd.ring xs) (hsound : Sound n cd)
    (hn : n ≤ 127) (hhandshake : ∀ key, Plain flash wide (handshake key))
    (hok : (Event.parse c buffer actions).Ok flash wide cd) :
    Grown flash wide (Good flash wide n) (cd.parse flash wide handshake c buffer actions).ring xs
      (cd.parseDrafts flash wide handshake c buffer actions) ∧
    Sound n (cd.parse flash wide handshake c buffer actions) := by
  rw [parse, parseDrafts]
  cases htype : cd.clients[c.toNat]? with
  | none => exact ⟨grown_nil hrests, hsound⟩
  | some type =>
    have hc : c.toNat < n := by
      rw [← hsound.length]
      exact (List.getElem?_eq_some_iff.mp htype).1
    dsimp only
    by_cases hnone : type = .none
    · rw [if_pos hnone, if_pos hnone]
      cases hkey : Websockets.connectionKey buffer with
      | some key =>
        have hsent : Grown flash wide (Good flash wide n) (cd.ring.send flash wide c (handshake key)).1 xs
            [⟨c, handshake key⟩] := send_plain hrests (isClient_of_lt hc hn) hn (hhandshake key)
        exact ⟨hsent, (hsound.with_known.with_ring _).setType c _⟩
      | none =>
        refine dispatch_grown hrests (hsound.with_known.setType c _) hc hn hok.1 ?_
        intro hcommand hthrottle
        rw [firstType] at hcommand hthrottle
        split at hcommand
        · exact absurd rfl hcommand
        · next hfirst =>
          rw [if_neg hfirst] at hthrottle
          exact absurd rfl hthrottle
    rw [if_neg hnone, if_neg hnone]
    by_cases hconnecting : type = .websockConnecting
    · rw [if_pos hconnecting, if_pos hconnecting]
      refine dispatch_grown hrests (hsound.with_known.setType c _) hc hn hok.1 fun _ _ => ?_
      exact hok.2 (.inr (by rw [htype, hconnecting]))
    rw [if_neg hconnecting, if_neg hconnecting]
    refine dispatch_grown hrests hsound.with_known hc hn hok.1 fun hcommand hthrottle => ?_
    refine hok.2 (.inl ?_)
    rw [htype]
    cases type <;> first | rfl | contradiction

/-- A callback adds its drafts for the stashed client, as whole messages. -/
theorem callback_grown {st : Stash} (hrests : Rests flash cd.ring xs) (hsound : Sound n cd) (hn : n ≤ 127)
    (hok : ActionsOk flash wide actions) :
    Grown flash wide (Good flash wide n) (cd.asyncReply flash wide st actions).ring xs
      (cd.writtenBy flash wide handshake (.callback st actions)) ∧
    Sound n (cd.asyncReply flash wide st actions) := by
  rw [asyncReply, writtenBy]
  cases hclient : cd.stashed st with
  | none => exact ⟨grown_nil hrests, hsound⟩
  | some client =>
    have hgoes := reply_goesOn hrests hsound (hsound.stashed st client hclient) hn hok
    obtain ⟨hgrown, hsound'⟩ := hgoes.commit hn
    rw [Option.toList_some, List.flatMap_singleton]
    dsimp only
    rw [unstash]
    split
    · refine ⟨hgrown, hsound'.length, ?_, hsound'.display, hsound'.throttles⟩
      intro s' c hc
      by_cases hs : s' = st
      · rw [hs] at hc
        simp at hc
      · exact hsound'.stashed s' c (by simpa [Function.update_of_ne hs] using hc)
    · exact ⟨hgrown, hsound'.with_ring _⟩

/-- What happens in between leaves the clients that are kept what they are. -/
theorem Sound.forget (h : Sound n cd) (c : UInt8) : Sound n (cd.forget c) := by
  refine ⟨by rw [CommandDistributor.forget, List.length_set]; exact h.length, h.stashed, ?_, ?_⟩
  · intro hclient
    simp only [CommandDistributor.forget] at hclient ⊢
    split at hclient
    · exact absurd rfl hclient
    · next hne =>
      rw [if_neg hne]
      exact h.display hclient
  · intro c' hc'
    simp only [CommandDistributor.forget] at hc'
    split at hc'
    · exact h.throttles c' (List.mem_of_mem_erase hc')
    · exact h.throttles c' hc'

/-- Every event but the reader's adds some of its messages to the ring. -/
theorem step_grown {e : Event} (hrests : Rests flash cd.ring xs) (hsound : Sound n cd) (hn : n ≤ 127)
    (hhandshake : ∀ key, Plain flash wide (handshake key)) (hok : e.Ok flash wide cd)
    (hreceive : e ≠ .receive) :
    Grown flash wide (Good flash wide n) (cd.step flash wide handshake e).ring xs (cd.writtenBy flash wide handshake e) ∧
    Sound n (cd.step flash wide handshake e) := by
  cases e with
  | parse c buffer actions => exact parse_grown hrests hsound hn hhandshake hok
  | broadcast type text =>
    rw [step, broadcastToClients]
    split
    · exact ⟨interject_rests hrests hok.1 (good_targets hn hsound.length hok.2), hsound.with_ring _⟩
    · exact ⟨grown_nil hrests, hsound⟩
  | display items =>
    rw [step, CommandDistributor.display]
    split
    · next hclient =>
      refine ⟨interject_rests hrests hok.1 ?_, hsound.with_ring _⟩
      simpa using good_of_plain (hsound.display hclient) hn hok.2
    · exact ⟨grown_nil hrests, hsound⟩
  | throttle c items =>
    rw [step, throttleReply]
    split
    · next hmem =>
      exact ⟨send_plain hrests (isClient_of_lt (hsound.throttles c hmem) hn) hn hok, hsound.with_ring _⟩
    · exact ⟨grown_nil hrests, hsound⟩
  | drop c =>
    exact ⟨grown_nil hrests, hsound.length, hsound.stashed, hsound.display,
      fun c' hc' => hsound.throttles c' (List.mem_of_mem_erase hc')⟩
  | callback st actions => exact callback_grown hrests hsound hn hok
  | forget c => exact ⟨grown_nil hrests, hsound.forget c⟩
  | receive => exact absurd rfl hreceive

/-! ## Runs -/

variable (flash wide handshake) in
/-- The messages of a run. -/
def written (cd : CommandDistributor) : List Event → List Outgoing
  | [] => []
  | e :: es => cd.writtenBy flash wide handshake e ++ written (cd.step flash wide handshake e) es

/-- The ring holds some of the messages that were written, those that were accepted and not read. -/
theorem run_closed {es : List Event} {before pending : List Outgoing} (hn : n ≤ 127)
    (hhandshake : ∀ key, Plain flash wide (handshake key)) (hsound : Sound n cd)
    (hsub : pending.Sublist before) (hclosed : Closed flash wide cd.ring pending)
    (hok : Along (step flash wide handshake) (fun cd e => e.Ok flash wide cd) cd es) :
    ∃ pending : List Outgoing, pending.Sublist (before ++ cd.written flash wide handshake es) ∧
      Closed flash wide (run (step flash wide handshake) cd es).ring pending ∧
      Sound n (run (step flash wide handshake) cd es) := by
  induction es generalizing cd before pending with
  | nil => exact ⟨pending, by simpa [written] using hsub, hclosed, hsound⟩
  | cons e es ih =>
    rw [written, ← List.append_assoc, run_cons]
    by_cases hreceive : e = .receive
    · subst hreceive
      have hsound' : Sound n (cd.step flash wide handshake .receive) := hsound.with_ring _
      rw [show cd.writtenBy flash wide handshake .receive = [] from rfl, List.append_nil]
      cases pending with
      | nil => exact ih hsound' hsub (receive_nil hclosed).2 hok.2
      | cons m pending =>
        exact ih hsound' ((List.sublist_cons_self m pending).trans hsub) (receive_cons hclosed).2 hok.2
    · obtain ⟨⟨msgs, hmsgs, hv, hrests⟩, hsound'⟩ :=
        step_grown hclosed.rests hsound hn hhandshake hok.1 hreceive
      rw [← List.flatMap_append] at hrests
      refine ih hsound' (hsub.append hmsgs) ⟨hrests, ?_, ?_⟩ hok.2
      · intro m hm
        exact (List.mem_append.mp hm).elim (hclosed.valid m) (fun hm => (hv m hm).1.valid)
      · intro m hm
        exact (List.mem_append.mp hm).elim (hclosed.nonempty m) (fun hm => (hv m hm).2)

/-- **Whole messages.** As long as no callback comes while a message is open, no broadcast follows a
failed commit and the output is plain, the ring holds whole messages, each with the client that it was
written for. -/
theorem whole_messages (flash : Nat → UInt8) (wide : Bool) (handshake : List UInt8 → List Item)
    (hhandshake : ∀ key, Plain flash wide (handshake key)) (n len : Nat) (hn : n ≤ 127) (hlen : 0 < len)
    (es : List Event)
    (hok : Along (step flash wide handshake) (fun cd e => e.Ok flash wide cd) (new n len) es) :
    ∃ pending : List Outgoing, pending.Sublist ((new n len).written flash wide handshake es) ∧
      Closed flash wide (run (step flash wide handshake) (new n len) es).ring pending := by
  have hsound : Sound n (new n len) :=
    ⟨List.length_replicate, (fun _ _ h => by cases h), fun h => absurd rfl h, by simp [new]⟩
  have hclosed : Closed flash wide (new n len).ring [] :=
    ⟨⟨Holds.nil hlen, rfl, .inl rfl⟩, by simp, by simp⟩
  obtain ⟨pending, hsub, hpending, -⟩ :=
    run_closed hn hhandshake hsound (List.Sublist.refl []) hclosed hok
  exact ⟨pending, by simpa using hsub, hpending⟩

/-- Client 1 sends `<1>`, which is broadcast before its reply `A` is complete, and the reply is read. -/
theorem whole_messages_power :
    let es : List Event := [.parse 1 [60, 49, 62] [.put (.byte 65), .broadcast .command [66]], .receive]
    Along (step (fun _ => 0) true fun _ => []) (fun cd e => e.Ok (fun _ => 0) true cd) (new 8 64) es ∧
    ∃ pending : List Outgoing, pending.Sublist ((new 8 64).written (fun _ => 0) true (fun _ => []) es) ∧
      Closed (fun _ => 0) true (run (step (fun _ => 0) true fun _ => []) (new 8 64) es).ring pending := by
  intro es
  have hplain : Plain (fun _ => 0) true ([66].map Item.byte) :=
    ⟨by decide, by decide⟩
  have hok : Along (step (fun _ => 0) true fun _ => []) (fun cd e => e.Ok (fun _ => 0) true cd)
      (new 8 64) es := by
    refine ⟨⟨⟨?_, by decide⟩, ?_⟩, trivial, trivial⟩
    · intro a ha
      simp only [List.mem_cons, List.not_mem_nil, or_false] at ha
      rcases ha with rfl | rfl
      · show (65 : UInt8) ≠ flashInsertMarker
        decide
      · exact hplain
    · intro htype
      exact absurd htype (by decide)
  exact ⟨hok, whole_messages (fun _ => 0) true (fun _ => []) (fun _ => plain_nil) 8 64 (by decide)
    (by decide) es hok⟩

/-- Client 1 sends `<#><B 1 9 1>`: there is no bit 9, so that the callback comes while the message with
the reply to the first command is open. -/
theorem not_whole_messages :
    let es : List Event := [.parse 1 [60, 35, 62, 60, 66, 32, 49, 32, 57, 32, 49, 62]
      ([60, 35, 32, 53, 48, 62, 10].map (fun b => .put (.byte b)) ++ [.stash .parser, .callback .parser
        ([60, 114, 48, 124, 48, 124, 49, 32, 57, 32, 45, 49, 62, 10].map Item.byte)])]
    ¬ ∃ pending : List Outgoing, pending.Sublist ((new 8 64).written (fun _ => 0) true (fun _ => []) es) ∧
      Rests (fun _ => 0) (run (step (fun _ => 0) true fun _ => []) (new 8 64) es).ring
        (pending.flatMap (Outgoing.cells (fun _ => 0) true)) := by
  rintro es ⟨pending, hsub, hrests⟩
  have hall : ∀ p ∈ ((new 8 64).written (fun _ => 0) true (fun _ => []) es).sublists,
      (p.flatMap (Outgoing.cells (fun _ => 0) true)).length % 64 = 27 →
      (p.flatMap (Outgoing.cells (fun _ => 0) true))[2]? ≠ some 0 := by decide +kernel
  have hring : (run (step (fun _ => 0) true fun _ => []) (new 8 64) es).ring.posWrite = 27 ∧
      (run (step (fun _ => 0) true fun _ => []) (new 8 64) es).ring.posRead = 0 ∧
      (run (step (fun _ => 0) true fun _ => []) (new 8 64) es).ring.len = 64 ∧
      (run (step (fun _ => 0) true fun _ => []) (new 8 64) es).ring.buffer 2 = 0 := by decide +kernel
  obtain ⟨hwrite, hread, hlen, hcell⟩ := hring
  have hlength := hrests.holds.write
  rw [hwrite, hread, hlen, Nat.zero_add] at hlength
  have hthird := hrests.holds.cells 2 (by omega)
  rw [hread, hlen] at hthird
  change _ = some (RingStream.buffer _ 2) at hthird
  rw [hcell] at hthird
  exact hall pending (List.mem_sublists.mpr hsub) hlength.symm hthird

end CommandDistributor

end CommandStation
