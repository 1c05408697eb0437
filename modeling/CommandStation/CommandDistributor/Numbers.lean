import CommandStation.Lib.Run
import CommandStation.WifiESP32.Basic
import CommandStation.WifiInboundHandler.Basic

/-!
# Client numbers

The distributor keeps a table of the clients, of `MAX_NUM_TCP_CLIENTS` entries. `parse` looks whether there
is an entry for the client, `forget` does not. The handler of an ESP modem takes client numbers from the
digits that the modem sends and from the client bytes of the outbound ring, which may have the marker for
websockets. The ESP32 has a list of clients of its own, that grows and is emptied when the wifi is torn
down.
-/

namespace CommandStation

open CommandStation.Lib

/-! ## The modem -/

namespace WifiInboundHandler

section Modem

variable (flash : Nat → UInt8) (wide : Bool) (bits size : Nat)

/-- What happens to the handler. The parsers put into the outbound ring what they like. -/
inductive Event where
  | loop2 (now : UInt32) (ch : UInt8)
  | loop1 (now : UInt32)
  | outbound (ring : RingStream)

def perform (h : WifiInboundHandler) : Event → WifiInboundHandler × List Effect
  | .loop2 now ch => h.loop2 flash wide bits now ch
  | .loop1 now => h.loop1 flash wide now
  | .outbound ring => ({ h with outboundRing := ring }, [])

def step (h : WifiInboundHandler) (e : Event) : WifiInboundHandler := (h.perform flash wide bits e).1

/-- The entries of the table of `size` clients that are used. `parse` gives up if there is none. -/
def Effect.entries : Effect → List Nat
  | .forget clientId => [clientId.toNat]
  | .parse clientId _ => if size ≤ clientId.toNat then [] else [clientId.toNat]
  | .write _ | .cipsend _ _ => []

/-- The entries that are used are in the table. -/
def InBounds (h : WifiInboundHandler) (e : Event) : Prop :=
  ∀ effect ∈ (h.perform flash wide bits e).2, ∀ entry ∈ effect.entries size, entry < size

/-- The digit of a client that has come or gone is one of the table, and so is the client byte of a reply
that the modem has refused, with its marker. -/
def Safe (h : WifiInboundHandler) : Event → Prop
  | .loop2 _ ch =>
    (h.loopState = .gotClientId2 → ch = 67 → h.runningClientId < size) ∧
      (h.loopState = .anything → ch = 69 ∨ ch = 108 → h.clientPendingCIPSEND < size)
  | .loop1 _ | .outbound _ => True

/-- The numbers are those of a digit and of a byte. -/
structure Numbers (h : WifiInboundHandler) : Prop where
  running : h.loopState = .gotClientId ∨ h.loopState = .gotClientId2 →
    0 ≤ h.runningClientId ∧ h.runningClientId ≤ 9
  pending : -1 ≤ h.clientPendingCIPSEND ∧ h.clientPendingCIPSEND ≤ 255

instance (h : WifiInboundHandler) (e : Event) : Decidable (h.InBounds flash wide bits size e) :=
  inferInstanceAs (Decidable (∀ effect ∈ (h.perform flash wide bits e).2,
    ∀ entry ∈ effect.entries size, entry < size))

variable {flash wide bits size} {h' : WifiInboundHandler}

/-- The number of a client is not waited for. -/
def Quiet (s : LoopState) : Prop := s ≠ .gotClientId ∧ s ≠ .gotClientId2

theorem quiet_ite {c : Prop} [Decidable c] {s t : LoopState} (hs : Quiet s) (ht : Quiet t) :
    Quiet (if c then s else t) := by
  split
  · exact hs
  · exact ht

theorem Numbers.of_quiet (hstate : Quiet h'.loopState)
    (hpending : -1 ≤ h'.clientPendingCIPSEND ∧ h'.clientPendingCIPSEND ≤ 255) : h'.Numbers :=
  ⟨fun hgot => (hgot.elim hstate.1 hstate.2).elim, hpending⟩

theorem numbers_none (hstate : Quiet h'.loopState) (hpending : h'.clientPendingCIPSEND = -1) :
    h'.Numbers := by
  refine .of_quiet hstate ?_
  rw [hpending]
  decide

theorem numbers_new (inboundSize outboundSize : Nat) : (new inboundSize outboundSize).Numbers :=
  numbers_none ⟨nofun, nofun⟩ rfl

/-- The numbers of clients are kept by any byte between two notices. -/
theorem Numbers.anything (h : h'.Numbers) (now : UInt32) (ch : UInt8) :
    (h'.anything flash wide now ch).1.Numbers := by
  unfold WifiInboundHandler.anything
  split
  · exact .of_quiet ⟨nofun, nofun⟩ h.pending
  split
  · exact numbers_none ⟨nofun, nofun⟩ rfl
  split
  · exact .of_quiet ⟨nofun, nofun⟩ h.pending
  split
  · exact .of_quiet ⟨nofun, nofun⟩ h.pending
  split
  · split
    · exact .of_quiet ⟨nofun, nofun⟩ h.pending
    · exact .of_quiet ⟨nofun, nofun⟩ h.pending
  split
  · next hdigit =>
    refine ⟨fun _ => ?_, h.pending⟩
    simp only [UInt8.le_iff_toNat_le, UInt8.reduceToNat] at hdigit
    simp only [digit]
    omega
  split
  · split
    · exact numbers_none ⟨nofun, nofun⟩ rfl
    · exact .of_quiet ⟨nofun, nofun⟩ h.pending
  · exact h

/-! The states in which data is read. -/

theorem Numbers.readLength (h : h'.Numbers) (hs : Quiet h'.loopState) (ch : UInt8) :
    (h'.readLength bits ch).Numbers := by
  unfold WifiInboundHandler.readLength
  split
  · split
    · exact .of_quiet ⟨nofun, nofun⟩ h.pending
    split
    · exact .of_quiet ⟨nofun, nofun⟩ h.pending
    · exact .of_quiet (quiet_ite ⟨nofun, nofun⟩ ⟨nofun, nofun⟩) h.pending
  · exact .of_quiet hs h.pending

theorem Numbers.readData (h : h'.Numbers) (hs : Quiet h'.loopState) (ch : UInt8) :
    (h'.readData bits ch).Numbers := by
  unfold WifiInboundHandler.readData
  dsimp only
  split
  · exact .of_quiet ⟨nofun, nofun⟩ h.pending
  · exact .of_quiet hs h.pending

/-- The prescan of a request keeps the numbers of clients. -/
theorem Numbers.prescan (h : h'.Numbers) (hs : Quiet h'.loopState) (ch : UInt8) :
    (h'.prescan bits ch).Numbers := by
  unfold WifiInboundHandler.prescan
  extract_lets h₁ h₂ h₃
  have hquiet : Quiet h₂.loopState ∧ h₂.clientPendingCIPSEND = h'.clientPendingCIPSEND := by
    by_cases hlast : h₁.dataLength = 0
    · rw [show h₂ = _ from if_pos hlast]
      exact ⟨⟨nofun, nofun⟩, rfl⟩
    · rw [show h₂ = _ from if_neg hlast]
      exact ⟨hs, rfl⟩
  have hpending := h.pending
  rw [← hquiet.2] at hpending
  split
  · exact .of_quiet hquiet.1 hpending
  split
  · exact .of_quiet ⟨nofun, nofun⟩ hpending
  · exact .of_quiet hquiet.1 hpending

theorem Numbers.postscan (h : h'.Numbers) (hs : Quiet h'.loopState) (ch : UInt8) :
    (h'.postscan bits ch).Numbers := by
  unfold WifiInboundHandler.postscan
  dsimp only
  split
  · exact .of_quiet ⟨nofun, nofun⟩ h.pending
  · exact .of_quiet hs h.pending

/-- So they are by any byte, in whatever state. -/
theorem Numbers.loop2 (h : h'.Numbers) (now : UInt32) (ch : UInt8) :
    (h'.loop2 flash wide bits now ch).1.Numbers := by
  have hquiet : ∀ s, h'.loopState = s → Quiet s → Quiet h'.loopState := fun s hs h => hs ▸ h
  have hnext : ∀ (c : Prop) [Decidable c] (s t : LoopState), Quiet s → Quiet t →
      Numbers { h' with loopState := if c then s else t } :=
    fun c _ s t hs ht => .of_quiet (quiet_ite hs ht) h.pending
  unfold WifiInboundHandler.loop2
  cases hs : h'.loopState with
  | anything => exact h.anything now ch
  | ipd => exact hnext _ _ _ ⟨nofun, nofun⟩ ⟨nofun, nofun⟩
  | ipd1 => exact hnext _ _ _ ⟨nofun, nofun⟩ ⟨nofun, nofun⟩
  | ipd2 => exact hnext _ _ _ ⟨nofun, nofun⟩ ⟨nofun, nofun⟩
  | ipd3 => exact hnext _ _ _ ⟨nofun, nofun⟩ ⟨nofun, nofun⟩
  | ipd4Client =>
    dsimp only
    split
    · exact .of_quiet ⟨nofun, nofun⟩ h.pending
    · exact .of_quiet ⟨nofun, nofun⟩ h.pending
  | ipd5 => exact .of_quiet (quiet_ite ⟨nofun, nofun⟩ ⟨nofun, nofun⟩) h.pending
  | ipd6Length => exact h.readLength (hquiet _ hs ⟨nofun, nofun⟩) ch
  | ipdData => exact h.readData (hquiet _ hs ⟨nofun, nofun⟩) ch
  | ipdPrescan => exact h.prescan (hquiet _ hs ⟨nofun, nofun⟩) ch
  | ipdPostscan => exact h.postscan (hquiet _ hs ⟨nofun, nofun⟩) ch
  | ipdIgnoreData => exact .of_quiet (quiet_ite ⟨nofun, nofun⟩ ⟨nofun, nofun⟩) h.pending
  | gotClientId => exact ⟨fun _ => h.running (.inl hs), h.pending⟩
  | gotClientId2 =>
    dsimp only
    split
    · split
      · exact numbers_none ⟨nofun, nofun⟩ rfl
      · exact .of_quiet ⟨nofun, nofun⟩ h.pending
    · exact .of_quiet ⟨nofun, nofun⟩ h.pending
  | skipToEnd => exact hnext _ _ _ ⟨nofun, nofun⟩ ⟨nofun, nofun⟩

/-- What is read out of the ring is a byte. -/
theorem Numbers.nextReply (h : h'.Numbers) : (h'.nextReply flash wide).Numbers := by
  unfold WifiInboundHandler.nextReply
  split
  · split
    · refine ⟨h.running, ?_⟩
      dsimp only
      omega
    · next client ring hread =>
      have hbyte := client.toNat_lt
      refine ⟨h.running, ?_⟩
      dsimp only
      omega
  · exact h

theorem Numbers.loop1 (h : h'.Numbers) (now : UInt32) : (h'.loop1 flash wide now).1.Numbers := by
  have hnext := @Numbers.nextReply flash wide h' h
  unfold WifiInboundHandler.loop1
  dsimp only
  split
  · exact ⟨hnext.running, hnext.pending⟩
  split
  · exact ⟨hnext.running, hnext.pending⟩
  · exact ⟨hnext.running, hnext.pending⟩

theorem Numbers.step (h : h'.Numbers) (e : Event) : (h'.step flash wide bits e).Numbers := by
  cases e with
  | loop2 now ch => exact h.loop2 now ch
  | loop1 now => exact h.loop1 now
  | outbound ring => exact ⟨h.running, h.pending⟩

/-- The client that is forgotten. -/
theorem entries_forget {i : Int} (h : -1 ≤ i ∧ i ≤ 255) (hpos : 0 ≤ i) :
    (∀ entry ∈ (Effect.forget (UInt8.ofInt i)).entries size, entry < size) ↔ i < size := by
  have hnat : (UInt8.ofInt i).toNat = i.toNat := by
    rw [UInt8.ofInt, UInt8.toNat_ofNat']
    omega
  simp only [Effect.entries, List.forall_mem_singleton, hnat]
  omega

/-- Only a notice of an error or of a lost link reaches beyond the table, by the client whose reply is
pending. -/
theorem Numbers.anything_iff (h : h'.Numbers) (now : UInt32) (ch : UInt8) :
    (∀ effect ∈ (h'.anything flash wide now ch).2, ∀ entry ∈ effect.entries size, entry < size) ↔
      (ch = 69 ∨ ch = 108 → h'.clientPendingCIPSEND < size) := by
  by_cases hrefused : ch = 69 ∨ ch = 108
  · have hother : ch ≠ 43 ∧ ch ≠ 62 ∧ ch ≠ 82 ∧ ch ≠ 83 ∧ ch ≠ 98 ∧ ¬ (48 ≤ ch ∧ ch ≤ 57) := by
      rcases hrefused with rfl | rfl <;> decide
    obtain ⟨h43, h62, h82, h83, h98, hdigit⟩ := hother
    unfold WifiInboundHandler.anything
    rw [if_neg h43, if_neg h62, if_neg h82, if_neg h83, if_neg h98, if_neg hdigit, if_pos hrefused]
    simp only [hrefused, true_implies]
    split
    · next hpos =>
      simp only [purgeCurrentCIPSEND, List.forall_mem_singleton]
      exact entries_forget h.pending hpos
    · next hneg => exact iff_of_true nofun (by omega)
  · refine iff_of_true ?_ fun h => absurd h hrefused
    unfold WifiInboundHandler.anything
    split
    · exact nofun
    split
    · simp [transmit, Effect.entries]
    split
    · exact nofun
    split
    · exact nofun
    split
    · split <;> exact nofun
    split
    · exact nofun
    exact nofun

/-- The notice that a client is gone stays within the table if and only if its number does. -/
theorem Numbers.gone_iff (h : h'.Numbers) (hs : h'.loopState = .gotClientId2) (now : UInt32) (ch : UInt8) :
    (∀ effect ∈ (h'.loop2 flash wide bits now ch).2, ∀ entry ∈ effect.entries size, entry < size) ↔
      (ch = 67 → h'.runningClientId < size) := by
  obtain ⟨hlow, hhigh⟩ := h.running (.inr hs)
  unfold WifiInboundHandler.loop2
  simp only [hs]
  split
  · next hgone =>
    simp only [hgone, true_implies]
    split
    · next hsame =>
      simp only [purgeCurrentCIPSEND, List.forall_mem_singleton, ← hsame]
      exact entries_forget (by omega) hlow
    · simp only [List.forall_mem_singleton]
      exact entries_forget (by omega) hlow
  · next hother => exact iff_of_true nofun fun h => absurd h hother

/-- A byte from the AT firmware stays within the table if and only if it is safe. -/
theorem Numbers.inBounds_iff (h : h'.Numbers) (e : Event) :
    h'.InBounds flash wide bits size e ↔ h'.Safe size e := by
  -- in all other states a byte has no effect on the clients
  have hother : ∀ now ch, h'.loopState ≠ .anything → h'.loopState ≠ .gotClientId2 →
      (h'.loop2 flash wide bits now ch).2 = [] := by
    intro now ch hany hgot
    unfold WifiInboundHandler.loop2
    split <;> first | rfl | (split <;> rfl) | contradiction
  cases e with
  | loop2 now ch =>
    unfold InBounds perform Safe
    by_cases hany : h'.loopState = .anything
    · simp only [hany, reduceCtorEq, false_implies, true_and, true_implies]
      rw [← @Numbers.anything_iff flash wide size h' h now ch, WifiInboundHandler.loop2, hany]
    by_cases hgot : h'.loopState = .gotClientId2
    · simp only [hgot, reduceCtorEq, false_implies, and_true, true_implies]
      exact h.gone_iff hgot now ch
    · refine iff_of_true ?_ ⟨fun h => absurd h hgot, fun h => absurd h hany⟩
      dsimp only
      rw [hother now ch hany hgot]
      exact nofun
  | loop1 now =>
    refine iff_of_true ?_ trivial
    unfold InBounds perform WifiInboundHandler.loop1
    dsimp only
    split
    · simp [Effect.entries]
    split
    · exact nofun
    · simp only [List.forall_mem_singleton, Effect.entries]
      split
      · exact nofun
      · next hlt =>
        rw [List.forall_mem_singleton]
        omega
  | outbound ring => exact iff_of_true nofun trivial

end Modem

end WifiInboundHandler

/-! ## The ESP32 -/

namespace WifiESP

section Esp32

variable (flash : Nat → UInt8) (wide : Bool) (size : Nat)

/-- What happens to the list. `connected` tells of the connections. -/
inductive Event where
  | connect (wifi : Nat)
  /-- The turn of `loop` for one client, which may have sent something. -/
  | poll (clientId : Nat) (connected : Nat → Bool) (available : Bool)
  | transmit (connected : Nat → Bool)
  | outbound (ring : RingStream)
  | teardown

def perform (w : WifiESP) : Event → WifiESP × List Access
  | .connect wifi => ({ w with clients := accept wifi w.clients }, [])
  | .poll clientId connected available =>
    if clientId < w.clients.length then
      let (w', ok, uses) := active connected w clientId
      (w', uses ++ if ok && available then [.client clientId w'.clients.length, .parse clientId] else [])
    else (w, [])
  | .transmit connected =>
    let (w', _, uses) := transmit flash wide connected w
    (w', uses)
  | .outbound ring => ({ w with outboundRing := ring }, [])
  | .teardown => ({ w with clients := [] }, [])

def step (w : WifiESP) (e : Event) : WifiESP := (w.perform flash wide e).1

/-- The entry that is used is there. The parameter of `forget` is a byte, and `parse` looks for itself. -/
def Access.InBounds : Access → Prop
  | .client clientId length => clientId < length
  | .forget clientId => clientId % 256 < size
  | .parse _ => True

def InBounds (w : WifiESP) (e : Event) : Prop := ∀ use ∈ (w.perform flash wide e).2, use.InBounds size

/-- The client is not one that is found to be gone, or it has an entry in the table. -/
def Forgettable (w : WifiESP) (connected : Nat → Bool) (clientId : Nat) : Prop :=
  ∀ nc ∈ w.clients[clientId]?, nc.inUse = true → connected nc.wifi = false → clientId % 256 < size

/-- No message is for the client behind the last one, and no client without an entry in the table is found
to be gone. -/
def Safe (w : WifiESP) : Event → Prop
  | .poll clientId connected _ => w.Forgettable size connected clientId
  | .transmit connected => ∀ client ∈ (w.outboundRing.read flash wide).1,
      (Websockets.unmarked client.toNat).toNat ≠ w.clients.length ∧
        w.Forgettable size connected (Websockets.unmarked client.toNat).toNat
  | .connect _ | .outbound _ | .teardown => True

instance (use : Access) : Decidable (use.InBounds size) :=
  match use with
  | .client clientId length => inferInstanceAs (Decidable (clientId < length))
  | .forget clientId => inferInstanceAs (Decidable (clientId % 256 < size))
  | .parse _ => isTrue trivial

instance (w : WifiESP) (e : Event) : Decidable (w.InBounds flash wide size e) :=
  inferInstanceAs (Decidable (∀ use ∈ (w.perform flash wide e).2, use.InBounds size))

variable {flash wide size} {w : WifiESP} {connected : Nat → Bool} {clientId : Nat}

/-- An access to a client stays in bounds if and only if its number does and it may be forgotten. -/
theorem active_inBounds_iff : (∀ use ∈ (active connected w clientId).2.2, use.InBounds size) ↔
    clientId < w.clients.length ∧ w.Forgettable size connected clientId := by
  unfold active Forgettable
  cases hclient : w.clients[clientId]? with
  | none =>
    rw [List.getElem?_eq_none_iff] at hclient
    simp [Access.InBounds, Nat.not_lt.mpr hclient]
  | some nc =>
    obtain ⟨hlt, -⟩ := List.getElem?_eq_some_iff.mp hclient
    dsimp only
    split
    · next huse => simp [Access.InBounds, hlt, huse]
    · next huse =>
      split
      · next hgone => simp [Access.InBounds, hlt, huse, hgone]
      · next hthere => simp [Access.InBounds, hlt, hthere]

theorem length_active : (active connected w clientId).1.clients.length = w.clients.length := by
  unfold active
  split
  · rfl
  split
  · rfl
  split
  · exact List.length_set
  · rfl

/-- There is nobody behind the last client. -/
theorem forgettable_of_le (h : w.clients.length ≤ clientId) : w.Forgettable size connected clientId := by
  intro nc hnc
  rw [List.getElem?_eq_none h] at hnc
  cases hnc

theorem inBounds_iff (w : WifiESP) (e : Event) : w.InBounds flash wide size e ↔ w.Safe flash wide size e := by
  unfold InBounds
  cases e with
  | connect wifi => exact iff_of_true nofun trivial
  | outbound ring => exact iff_of_true nofun trivial
  | teardown => exact iff_of_true nofun trivial
  | poll clientId connected available =>
    simp only [perform, Safe]
    split
    · next hlt =>
      have hactive := @active_inBounds_iff size w connected clientId
      rw [and_iff_right hlt] at hactive
      rw [← hactive]
      simp only [List.mem_append]
      constructor
      · exact fun hall use huse => hall use (.inl huse)
      · rintro hall use (huse | huse)
        · exact hall use huse
        · split at huse
          · rcases List.mem_pair.mp huse with rfl | rfl
            · show clientId < _
              rw [length_active]
              exact hlt
            · trivial
          · cases huse
    · next hge => exact iff_of_true nofun (forgettable_of_le (Nat.not_lt.mp hge))
  | transmit connected =>
    simp only [perform, Safe, transmit]
    cases hread : w.outboundRing.read flash wide with
    | mk first ring =>
      cases first with
      | none => exact iff_of_true nofun nofun
      | some client =>
        simp only [Option.mem_some_iff, forall_eq']
        generalize (Websockets.unmarked client.toNat).toNat = n
        split
        · next hle =>
          refine (@active_inBounds_iff size _ connected n).trans ?_
          exact and_congr_left' ⟨Nat.ne_of_lt, Nat.lt_of_le_of_ne hle⟩
        · next hgt =>
          have hlt := Nat.lt_of_not_le hgt
          exact iff_of_true nofun ⟨Nat.ne_of_gt hlt, forgettable_of_le (Nat.le_of_lt hlt)⟩

end Esp32

/-- No client has connected. -/
def start : WifiESP := ⟨[], RingStream.new 10240⟩

end WifiESP

/-! ## Both -/

section Both

variable (flash : Nat → UInt8) (wide : Bool) (size : Nat)

/-- **The client numbers are in the bounds of the tables** exactly if the modem tells of clients that have
an entry only, refuses no reply with the marker or for a client without an entry, and on the ESP32 no
message is for the client behind the last one and no client without an entry is found to be gone. -/
theorem clientNumbers_inBounds_iff (bits inboundSize outboundSize : Nat)
    (modem : List WifiInboundHandler.Event) (esp32 : List WifiESP.Event) :
    (Along (WifiInboundHandler.step flash wide bits) (WifiInboundHandler.InBounds flash wide bits size)
        (WifiInboundHandler.new inboundSize outboundSize) modem ↔
      Along (WifiInboundHandler.step flash wide bits) (WifiInboundHandler.Safe size)
        (WifiInboundHandler.new inboundSize outboundSize) modem) ∧
    (Along (WifiESP.step flash wide) (WifiESP.InBounds flash wide size) WifiESP.start esp32 ↔
      Along (WifiESP.step flash wide) (WifiESP.Safe flash wide size) WifiESP.start esp32) :=
  ⟨along_congr WifiInboundHandler.Numbers (fun _ e h => h.step e) (fun _ e h => h.inBounds_iff e)
      (WifiInboundHandler.numbers_new inboundSize outboundSize) modem,
    along_congr (fun _ => True) (fun _ _ _ => trivial) (fun w e _ => WifiESP.inBounds_iff w e) trivial
      esp32⟩

-- `ERROR` while the reply `A` for a websocket client is pending
example : ¬ Along (WifiInboundHandler.step (fun _ => 0) false 16)
    (WifiInboundHandler.InBounds (fun _ => 0) false 16 8) (WifiInboundHandler.new 512 2048)
    [.outbound ((RingStream.new 16).send (fun _ => 0) false 0x80 [.byte 65]).1, .loop1 0, .loop2 0 69] := by
  decide +kernel

end Both

end CommandStation
