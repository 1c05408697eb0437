import Mathlib.Data.Nat.Digits.Defs
import CommandStation.Lib.Search
import CommandStation.RingStream.Spec
import CommandStation.WifiInboundHandler.Basic

/-!
# Messages of the modem

A client's message comes as `+IPD,c,n:` and `n` bytes. Up to 100 bytes are copied to the inbound ring.
A longer message is taken for an HTTP request, of which only the line with the websocket key is kept.

The handler is ready for the next message if it has taken exactly `n` bytes. It has not when the line
with the key is not over before the last byte: there `IPD_POSTSCAN` does not look at the length, and
`IPD_IGNORE_DATA` counts past zero.
-/

namespace CommandStation

open CommandStation.Lib RingStream

namespace WifiInboundHandler

variable {flash : Nat → UInt8} {wide : Bool} {bits : Nat} {now : UInt32}
variable {h : WifiInboundHandler} {c : UInt8} {n : Nat} {bs xs payload : List UInt8}

/-! ## What the modem sends -/

/-- A number in decimal digits. -/
def decimal (n : Nat) : List UInt8 := (Nat.digits 10 n).reverse.map (fun d => UInt8.ofNat (48 + d))

/-- `+IPD,c,n:` -/
def header (c : UInt8) (n : Nat) : List UInt8 := [43, 73, 80, 68, 44, c, 44] ++ (decimal n ++ [58])

/-- `'0' ≤ c ≤ '9'` -/
def IsDigit (c : UInt8) : Prop := 48 ≤ c ∧ c ≤ 57

instance (c : UInt8) : Decidable (IsDigit c) := inferInstanceAs (Decidable (48 ≤ c ∧ c ≤ 57))

/-! ## What the handler should do -/

/-- The states in which bytes of a message are read. -/
def inPayload : LoopState → Bool
  | .ipdData | .ipdIgnoreData | .ipdPrescan | .ipdPostscan => true
  | _ => false

variable (flash wide bits now) in
/-- These bytes are taken as bytes of a message, and with the last of them the handler is back in the
state in which it waits for the next one. -/
def Eats (h : WifiInboundHandler) : List UInt8 → Prop
  | [] => h.loopState = .anything
  | b :: bs => inPayload h.loopState = true ∧ Eats (h.loop2 flash wide bits now b).1 bs

/-- A line with the websocket key that stands somewhere in the message. -/
def KeyLine (payload line : List UInt8) : Prop :=
  ∃ pre value post, payload = pre ++ (webSocketKeyName ++ (value ++ newline :: post)) ∧
    newline ∉ value ∧ line = webSocketKeyName ++ (value ++ [newline])

/-- There is room for a message of this length in the ring. -/
def Room (r : RingStream) (n : Nat) : Prop := r.used + 3 + n < r.len

variable (flash) in
/-- A message of at most 100 bytes is put into the ring if there is room, of a longer one the line with
the websocket key if it has one. `xs` was in the ring `r` before, `r'` is the ring after it. -/
def Received (r r' : RingStream) (xs : List UInt8) (client : UInt8) (payload : List UInt8) : Prop :=
  if payload.length ≤ 100 then
    Room r payload.length → Rests flash r' (xs ++ rawCells client payload)
  else
    (∃ line, KeyLine payload line ∧ Rests flash r' (xs ++ rawCells client line)) ∨
    ((¬ ∃ line, KeyLine payload line) ∧ Rests flash r' xs)

variable (flash wide bits now) in
/-- What is expected of the handler when a message comes in. One from a client that is not a digit is
skipped as everything else that is of no interest. -/
def Handles (h : WifiInboundHandler) (xs : List UInt8) (c : UInt8) (payload : List UInt8) : Prop :=
  (IsDigit c →
    let start := h.after flash wide bits now (header c payload.length)
    Eats flash wide bits now start payload ∧
    Received flash h.inboundRing (start.after flash wide bits now payload).inboundRing xs
      (c - zeroDigit) payload) ∧
  (¬ IsDigit c →
    (h.after flash wide bits now [43, 73, 80, 68, 44, c]).loopState = .skipToEnd)

/-! ## The header -/

theorem after_append (h : WifiInboundHandler) (bs cs : List UInt8) :
    h.after flash wide bits now (bs ++ cs) =
      (h.after flash wide bits now bs).after flash wide bits now cs :=
  List.foldl_append

theorem after_cons (h : WifiInboundHandler) (b : UInt8) (bs : List UInt8) :
    h.after flash wide bits now (b :: bs) =
      (h.loop2 flash wide bits now b).1.after flash wide bits now bs := rfl

/-- Numbers that an `int` can hold. -/
theorem int_eq {x : Int} (h0 : 0 ≤ x) (h : 2 * x < 2 ^ bits) : int bits x = x := by
  have hcast : ((2 ^ bits : Nat) : Int) = 2 ^ bits := by push_cast; rfl
  have hmod : x % ((2 ^ bits : Nat) : Int) = x := Int.emod_eq_of_lt h0 (by rw [hcast]; omega)
  rw [int, Int.bmod_eq_emod_of_lt, hmod]
  rw [hmod, hcast]
  omega

/-- Every character is taken for a client: one of the comparisons is always true. -/
theorem after_client (hstate : h.loopState = .anything) (c : UInt8) :
    h.after flash wide bits now [43, 73, 80, 68, 44, c] =
      { h with loopState := .ipd5, runningClientId := digit c } := by
  have hany : 48 ≤ c ∨ c ≤ 57 := by
    rw [UInt8.le_iff_toNat_le, UInt8.le_iff_toNat_le]
    show 48 ≤ c.toNat ∨ c.toNat ≤ 57
    omega
  simp [after, loop2, hstate, anything, hany]

theorem decimal_zero : decimal 0 = [] := rfl

theorem decimal_step (hn : 0 < n) : decimal n = decimal (n / 10) ++ [UInt8.ofNat (48 + n % 10)] := by
  rw [decimal, Nat.digits_def' (by decide) hn, List.reverse_cons, List.map_append]
  rfl

theorem digit_ofNat {d : Nat} (hd : d < 10) : digit (UInt8.ofNat (48 + d)) = d := by
  rw [digit, UInt8.toNat_ofNat']
  omega

/-- The length is read. -/
theorem after_decimal (hstate : h.loopState = .ipd6Length) (hzero : h.dataLength = 0)
    (hint : 2 * (n : Int) < 2 ^ bits) :
    h.after flash wide bits now (decimal n) = { h with dataLength := n } := by
  induction n using Nat.strongRecOn with
  | ind n ih =>
    rcases Nat.eq_zero_or_pos n with hn | hn
    · rw [hn, decimal_zero]
      show h = _
      rw [show ((0 : Nat) : Int) = h.dataLength by rw [hzero]; rfl]
    · have hshort := ih (n / 10) (by omega) (by omega)
      have hcolon : UInt8.ofNat (48 + n % 10) ≠ 58 := by
        intro heq
        have := congrArg UInt8.toNat heq
        rw [UInt8.toNat_ofNat'] at this
        change _ = 58 at this
        omega
      have hvalue : int bits (((n / 10 : Nat) : Int) * 10 + digit (UInt8.ofNat (48 + n % 10))) = n := by
        rw [digit_ofNat (by omega)]
        have : ((n / 10 : Nat) : Int) * 10 + ((n % 10 : Nat) : Int) = n := by omega
        rw [this]
        exact int_eq (by omega) hint
      rw [decimal_step hn, after_append, hshort, after_cons, loop2, hstate]
      dsimp only
      rw [readLength, if_neg hcolon, hvalue]
      rfl

/-- The handler behind `+IPD,c,n`. -/
theorem after_header (hstate : h.loopState = .anything) (hint : 2 * (n : Int) < 2 ^ bits) :
    h.after flash wide bits now (header c n) =
      readLength bits
        { h with loopState := .ipd6Length, runningClientId := digit c, dataLength := n } 58 := by
  have hcomma : ({ h with loopState := .ipd5, runningClientId := digit c } :
      WifiInboundHandler).after flash wide bits now [44] =
      { h with loopState := .ipd6Length, runningClientId := digit c, dataLength := 0 } := rfl
  have hstart : h.after flash wide bits now [43, 73, 80, 68, 44, c, 44] =
      { h with loopState := .ipd6Length, runningClientId := digit c, dataLength := 0 } := by
    rw [← hcomma, ← after_client hstate, ← after_append]
    rfl
  rw [header, after_append, hstart, after_append, after_decimal rfl rfl hint]
  rfl

/-! ## The bytes of the message -/

theorem Eats.after_eq {h : WifiInboundHandler} (heats : Eats flash wide bits now h bs) :
    (h.after flash wide bits now bs).loopState = .anything := by
  induction bs generalizing h with
  | nil => exact heats
  | cons b bs ih => exact ih heats.2

/-- The bytes that are still to come are counted. -/
theorem int_pred {b : UInt8} (hlen : h.dataLength = (b :: bs).length)
    (hint : 2 * ((b :: bs).length : Int) < 2 ^ bits) : int bits (h.dataLength - 1) = bs.length := by
  rw [hlen, List.length_cons]
  rw [List.length_cons] at hint
  push_cast at hint ⊢
  rw [int_eq (by omega) (by omega)]
  omega

theorem int_tail {b : UInt8} (hint : 2 * ((b :: bs).length : Int) < 2 ^ bits) :
    2 * (bs.length : Int) < 2 ^ bits := by
  rw [List.length_cons] at hint
  push_cast at hint
  omega

theorem length_ne_zero (hne : bs ≠ []) : ¬ (bs.length : Int) = 0 := by
  have := List.length_pos_iff.mpr hne
  omega

variable (flash wide bits now) in
/-- A byte of the message. -/
theorem loop2_payload (b : UInt8) :
    (h.loopState = .ipdData → (h.loop2 flash wide bits now b).1 = h.readData bits b) ∧
    (h.loopState = .ipdPrescan → (h.loop2 flash wide bits now b).1 = h.prescan bits b) ∧
    (h.loopState = .ipdPostscan → (h.loop2 flash wide bits now b).1 = h.postscan bits b) ∧
    (h.loopState = .ipdIgnoreData → (h.loop2 flash wide bits now b).1 = h.ignoreData bits) := by
  refine ⟨?_, ?_, ?_, ?_⟩ <;> (intro hstate; rw [loop2, hstate])

variable (flash wide now) in
/-- Data that is to be ignored is eaten as well, and the ring is left alone. -/
theorem eats_ignore (hstate : h.loopState = .ipdIgnoreData) (hlen : h.dataLength = bs.length)
    (hint : 2 * (bs.length : Int) < 2 ^ bits) (hne : bs ≠ []) :
    Eats flash wide bits now h bs ∧
    (h.after flash wide bits now bs).inboundRing = h.inboundRing := by
  induction bs generalizing h with
  | nil => exact absurd rfl hne
  | cons b bs ih =>
    have hstep : (h.loop2 flash wide bits now b).1 =
        { h with
          dataLength := bs.length
          loopState := if (bs.length : Int) = 0 then .anything else .ipdIgnoreData } := by
      rw [(loop2_payload flash wide bits now b).2.2.2 hstate, ignoreData, int_pred hlen hint]
    have hin : inPayload h.loopState = true := by rw [hstate]; rfl
    rw [Eats, after_cons, hstep]
    by_cases hbs : bs = []
    · subst hbs
      exact ⟨⟨hin, rfl⟩, rfl⟩
    · rw [if_neg (length_ne_zero hbs)]
      obtain ⟨heats, hring⟩ := ih (h := { h with dataLength := bs.length, loopState := .ipdIgnoreData })
        rfl rfl (int_tail hint) hbs
      exact ⟨⟨hin, heats⟩, hring⟩

variable (flash wide now) in
/-- The data of a message is eaten to its last byte, which commits it. -/
theorem eats_data (hstate : h.loopState = .ipdData) (hlen : h.dataLength = bs.length)
    (hint : 2 * (bs.length : Int) < 2 ^ bits) (hne : bs ≠ []) :
    Eats flash wide bits now h bs ∧
    (h.after flash wide bits now bs).inboundRing = (h.inboundRing.print bs).commit.1 := by
  induction bs generalizing h with
  | nil => exact absurd rfl hne
  | cons b bs ih =>
    have hin : inPayload h.loopState = true := by rw [hstate]; rfl
    by_cases hbs : bs = []
    · have hstep : (h.loop2 flash wide bits now b).1 =
          { h with
            inboundRing := (h.inboundRing.write b).1.commit.1
            dataLength := bs.length, loopState := .anything } := by
        rw [(loop2_payload flash wide bits now b).1 hstate, readData, int_pred hlen hint, if_pos (by rw [hbs]; rfl)]
      rw [Eats, after_cons, hstep, hbs]
      exact ⟨⟨hin, rfl⟩, rfl⟩
    · have hstep : (h.loop2 flash wide bits now b).1 =
          { h with inboundRing := (h.inboundRing.write b).1, dataLength := bs.length } := by
        rw [(loop2_payload flash wide bits now b).1 hstate, readData, int_pred hlen hint, if_neg (length_ne_zero hbs)]
      rw [Eats, after_cons, hstep]
      obtain ⟨heats, hring⟩ := ih
        (h := { h with inboundRing := (h.inboundRing.write b).1, dataLength := bs.length })
        hstate rfl (int_tail hint) hbs
      exact ⟨⟨hin, heats⟩, hring⟩

/-! ## The line with the key -/

theorem getD_eq_zero_iff {p : Nat} (hp : p < webSocketKeyName.length) :
    webSocketKeyName.getD (p + 1) 0 = 0 ↔ p + 1 = webSocketKeyName.length := by
  have hall : ∀ p < webSocketKeyName.length,
      (webSocketKeyName.getD (p + 1) 0 = 0 ↔ p + 1 = webSocketKeyName.length) := by decide
  exact hall p hp

theorem getD_eq_iff {p : Nat} {b : UInt8} (hp : p < webSocketKeyName.length) :
    b = webSocketKeyName.getD p 0 ↔ webSocketKeyName[p]? = some b := by
  rw [List.getD_eq_getElem?_getD, List.getElem?_eq_getElem hp, Option.getD_some, Option.some_inj]
  exact eq_comm

/-- The handler before the comparison in `IPD_PRESCAN`. -/
def counted (h : WifiInboundHandler) (k : Nat) : WifiInboundHandler :=
  if k = 0 then { h with dataLength := 0, inboundRing := h.inboundRing.commit.1, loopState := .anything }
  else { h with dataLength := k }

/-- A byte of the prescan: the name of the key goes on, is complete, or begins anew. -/
theorem prescan_eq {b : UInt8} (hlen : h.dataLength = (b :: bs).length)
    (hint : 2 * ((b :: bs).length : Int) < 2 ^ bits) (hp : h.prescanPoint < webSocketKeyName.length) :
    h.prescan bits b =
      if webSocketKeyName[h.prescanPoint]? = some b then
        if h.prescanPoint + 1 = webSocketKeyName.length then
          { h.counted bs.length with
            prescanPoint := h.prescanPoint + 1
            inboundRing := (h.counted bs.length).inboundRing.print webSocketKeyName
            loopState := .ipdPostscan }
        else { h.counted bs.length with prescanPoint := h.prescanPoint + 1 }
      else { h.counted bs.length with prescanPoint := 0 } := by
  have hcounted : (if (bs.length : Int) = 0 then
        { h with dataLength := bs.length, inboundRing := h.inboundRing.commit.1, loopState := .anything }
      else { h with dataLength := bs.length } : WifiInboundHandler) = h.counted bs.length := by
    rw [counted]
    by_cases hbs : bs = []
    · rw [hbs]
      rfl
    · rw [if_neg (length_ne_zero hbs), if_neg (by simpa using hbs)]
  have hpoint : (h.counted bs.length).prescanPoint = h.prescanPoint := by
    rw [counted]
    split <;> rfl
  rw [prescan]
  simp only [int_pred hlen hint]
  rw [hcounted, hpoint]
  by_cases hb : webSocketKeyName[h.prescanPoint]? = some b
  · rw [if_neg (not_not.mpr ((getD_eq_iff hp).mpr hb)), if_pos hb]
    by_cases hlast : h.prescanPoint + 1 = webSocketKeyName.length
    · rw [if_pos ((getD_eq_zero_iff hp).mpr hlast), if_pos hlast]
    · rw [if_neg (fun h0 => hlast ((getD_eq_zero_iff hp).mp h0)), if_neg hlast]
  · rw [if_pos (fun h0 => hb ((getD_eq_iff hp).mp h0)), if_neg hb]

variable (flash wide bits now) in
/-- It is the same to read `bs` from here or `rest` from there. -/
structure GoesOn (h : WifiInboundHandler) (bs : List UInt8) (h' : WifiInboundHandler)
    (rest : List UInt8) : Prop where
  eats : Eats flash wide bits now h bs ↔ Eats flash wide bits now h' rest
  after : h.after flash wide bits now bs = h'.after flash wide bits now rest

theorem goesOn_cons {b : UInt8} {h₁ h' : WifiInboundHandler} {rest : List UInt8}
    (hin : inPayload h.loopState = true) (hstep : (h.loop2 flash wide bits now b).1 = h₁)
    (hgo : GoesOn flash wide bits now h₁ bs h' rest) : GoesOn flash wide bits now h (b :: bs) h' rest where
  eats := by
    rw [Eats, hstep, hgo.eats]
    exact and_iff_right hin
  after := by rw [after_cons, hstep, hgo.after]

theorem goesOn_refl : GoesOn flash wide bits now h bs h bs := ⟨Iff.rfl, rfl⟩

/-- `counted` while there are more bytes. -/
theorem counted_of_ne (hbs : bs ≠ []) : h.counted bs.length = { h with dataLength := bs.length } := by
  rw [counted, if_neg (by simpa using hbs)]

variable (flash wide now) in
/-- No key is found: the message is lost. -/
theorem prescan_none (hstate : h.loopState = .ipdPrescan) (hlen : h.dataLength = bs.length)
    (hint : 2 * (bs.length : Int) < 2 ^ bits) (hp : h.prescanPoint < webSocketKeyName.length)
    (hne : bs ≠ []) (hsearch : search webSocketKeyName h.prescanPoint bs = none) :
    Eats flash wide bits now h bs ∧
    (h.after flash wide bits now bs).inboundRing = h.inboundRing.commit.1 := by
  induction bs generalizing h with
  | nil => exact absurd rfl hne
  | cons b bs ih =>
    have hin : inPayload h.loopState = true := by rw [hstate]; rfl
    -- the handler goes on with another number of bytes that have matched
    obtain ⟨p, hplt, hsearch', hstep⟩ : ∃ p < webSocketKeyName.length,
        search webSocketKeyName p bs = none ∧
        (h.loop2 flash wide bits now b).1 = { h.counted bs.length with prescanPoint := p } := by
      rw [(loop2_payload flash wide bits now b).2.1 hstate, prescan_eq hlen hint hp]
      rw [search] at hsearch
      split at hsearch
      · next hb =>
        split at hsearch
        · cases hsearch
        · next hlast =>
          rw [if_pos hb, if_neg hlast]
          exact ⟨h.prescanPoint + 1, by omega, hsearch, rfl⟩
      · next hb =>
        rw [if_neg hb]
        exact ⟨0, by decide, hsearch, rfl⟩
    rw [Eats, after_cons, hstep]
    by_cases hbs : bs = []
    · subst hbs
      exact ⟨⟨hin, rfl⟩, rfl⟩
    · rw [counted_of_ne hbs]
      obtain ⟨heats, hring⟩ := ih (h := { h with dataLength := bs.length, prescanPoint := p })
        hstate rfl (int_tail hint) hplt hbs hsearch'
      exact ⟨⟨hin, heats⟩, hring⟩

variable (flash wide now) in
/-- The key is found before the last byte. -/
theorem prescan_some {rest : List UInt8} (hstate : h.loopState = .ipdPrescan)
    (hlen : h.dataLength = bs.length) (hint : 2 * (bs.length : Int) < 2 ^ bits)
    (hp : h.prescanPoint < webSocketKeyName.length) (hrest : rest ≠ [])
    (hsearch : search webSocketKeyName h.prescanPoint bs = some rest) :
    ∃ h' : WifiInboundHandler, h'.loopState = .ipdPostscan ∧ h'.dataLength = rest.length ∧
      h'.inboundRing = h.inboundRing.print webSocketKeyName ∧
      GoesOn flash wide bits now h bs h' rest := by
  induction bs generalizing h with
  | nil => cases hsearch
  | cons b bs ih =>
    have hin : inPayload h.loopState = true := by rw [hstate]; rfl
    have hstep := (loop2_payload flash wide bits now b).2.1 hstate
    rw [prescan_eq hlen hint hp] at hstep
    have hgo {p : Nat} (hplt : p < webSocketKeyName.length)
        (hsearch' : search webSocketKeyName p bs = some rest)
        (hstep : (h.loop2 flash wide bits now b).1 = { h.counted bs.length with prescanPoint := p }) :
        ∃ h' : WifiInboundHandler, h'.loopState = .ipdPostscan ∧ h'.dataLength = rest.length ∧
          h'.inboundRing = h.inboundRing.print webSocketKeyName ∧
          GoesOn flash wide bits now h (b :: bs) h' rest := by
      have hbs : bs ≠ [] := fun hnil => by rw [hnil] at hsearch'; cases hsearch'
      rw [counted_of_ne hbs] at hstep
      obtain ⟨h', hstate', hlen', hring', hgo⟩ := ih
        (h := { h with dataLength := bs.length, prescanPoint := p }) hstate rfl (int_tail hint) hplt hsearch'
      exact ⟨h', hstate', hlen', hring', goesOn_cons hin hstep hgo⟩
    rw [search] at hsearch
    by_cases hb : webSocketKeyName[h.prescanPoint]? = some b
    · rw [if_pos hb] at hsearch hstep
      by_cases hlast : h.prescanPoint + 1 = webSocketKeyName.length
      · rw [if_pos hlast] at hsearch hstep
        obtain rfl : bs = rest := Option.some.inj hsearch
        rw [counted_of_ne hrest] at hstep
        exact ⟨_, rfl, rfl, rfl, goesOn_cons hin hstep goesOn_refl⟩
      · rw [if_neg hlast] at hsearch hstep
        exact hgo (by omega) hsearch hstep
    · rw [if_neg hb] at hsearch hstep
      exact hgo (by decide) hsearch hstep

variable (flash wide now) in
/-- The key is found with the last byte: the handler waits for the end of the line. -/
theorem prescan_last (hstate : h.loopState = .ipdPrescan) (hlen : h.dataLength = bs.length)
    (hint : 2 * (bs.length : Int) < 2 ^ bits) (hp : h.prescanPoint < webSocketKeyName.length)
    (hsearch : search webSocketKeyName h.prescanPoint bs = some []) :
    (h.after flash wide bits now bs).loopState = .ipdPostscan := by
  induction bs generalizing h with
  | nil => cases hsearch
  | cons b bs ih =>
    have hstep := (loop2_payload flash wide bits now b).2.1 hstate
    rw [prescan_eq hlen hint hp] at hstep
    have hgo {p : Nat} (hplt : p < webSocketKeyName.length)
        (hsearch' : search webSocketKeyName p bs = some [])
        (hstep : (h.loop2 flash wide bits now b).1 = { h.counted bs.length with prescanPoint := p }) :
        (h.after flash wide bits now (b :: bs)).loopState = .ipdPostscan := by
      have hbs : bs ≠ [] := fun hnil => by rw [hnil] at hsearch'; cases hsearch'
      rw [counted_of_ne hbs] at hstep
      rw [after_cons, hstep]
      exact ih (h := { h with dataLength := bs.length, prescanPoint := p }) hstate rfl (int_tail hint)
        hplt hsearch'
    rw [search] at hsearch
    by_cases hb : webSocketKeyName[h.prescanPoint]? = some b
    · rw [if_pos hb] at hsearch hstep
      by_cases hlast : h.prescanPoint + 1 = webSocketKeyName.length
      · rw [if_pos hlast] at hsearch hstep
        rw [after_cons, hstep, Option.some.inj hsearch]
        rfl
      · rw [if_neg hlast] at hsearch hstep
        exact hgo (by omega) hsearch hstep
    · rw [if_neg hb] at hsearch hstep
      exact hgo (by decide) hsearch hstep

variable (flash wide now) in
/-- The rest of the line is copied. -/
theorem postscan_line {value post : List UInt8} (hstate : h.loopState = .ipdPostscan)
    (hlen : h.dataLength = (value ++ newline :: post).length)
    (hint : 2 * ((value ++ newline :: post).length : Int) < 2 ^ bits) (hvalue : newline ∉ value) :
    ∃ h' : WifiInboundHandler, h'.loopState = .ipdIgnoreData ∧ h'.dataLength = post.length ∧
      h'.inboundRing = (h.inboundRing.print (value ++ [newline])).commit.1 ∧
      GoesOn flash wide bits now h (value ++ newline :: post) h' post := by
  induction value generalizing h with
  | nil =>
    have hin : inPayload h.loopState = true := by rw [hstate]; rfl
    have hstep := (loop2_payload flash wide bits now newline).2.2.1
      hstate
    rw [postscan, if_pos rfl, int_pred (b := newline) hlen hint] at hstep
    exact ⟨_, rfl, rfl, rfl, goesOn_cons hin hstep goesOn_refl⟩
  | cons b value ih =>
    have hin : inPayload h.loopState = true := by rw [hstate]; rfl
    rw [List.mem_cons, not_or] at hvalue
    have hstep := (loop2_payload flash wide bits now b).2.2.1 hstate
    rw [postscan, if_neg (fun hb => hvalue.1 hb.symm), int_pred (b := b) hlen hint] at hstep
    obtain ⟨h', hstate', hlen', hring', hgo⟩ := ih
      (h := { h with
        inboundRing := (h.inboundRing.write b).1, dataLength := (value ++ newline :: post).length })
      hstate rfl (int_tail hint) hvalue.2
    exact ⟨h', hstate', hlen', hring', goesOn_cons hin hstep hgo⟩

variable (flash wide bits now) in
/-- The line has no end. -/
theorem postscan_open (hstate : h.loopState = .ipdPostscan) (hopen : newline ∉ bs) :
    (h.after flash wide bits now bs).loopState = .ipdPostscan := by
  induction bs generalizing h with
  | nil => exact hstate
  | cons b bs ih =>
    rw [List.mem_cons, not_or] at hopen
    rw [after_cons, (loop2_payload flash wide bits now b).2.2.1 hstate, postscan, if_neg (fun hb => hopen.1 hb.symm)]
    exact ih (h := { h with
      inboundRing := (h.inboundRing.write b).1, dataLength := int bits (h.dataLength - 1) }) hstate hopen.2

/-! ## Whole messages -/

/-- When the handler does what is expected: a message of less than 100 bytes would not just fill the
ring, and in a longer one the first key line comes behind failed attempts to find it, fits into the ring
and is not the end of the message, or there is no key. -/
def Passes (r : RingStream) (payload : List UInt8) : Prop :=
  if payload.length ≤ 100 then payload.length = 100 ∨ r.used + 3 + payload.length + 1 ≠ r.len
  else
    (∃ pre value post, payload = pre ++ (webSocketKeyName ++ (value ++ newline :: post)) ∧
      Failed webSocketKeyName pre ∧ newline ∉ value ∧ post ≠ [] ∧
      Room r (webSocketKeyName ++ (value ++ [newline])).length) ∨
    ((¬ ∃ line, KeyLine payload line) ∧
      ¬ ∃ pre rest, Failed webSocketKeyName pre ∧ payload = pre ++ (webSocketKeyName ++ rest))

theorem ofInt_digit (c : UInt8) : UInt8.ofInt (digit c) = c - zeroDigit := by
  have hall : ∀ n < 256, UInt8.ofInt (digit (UInt8.ofNat n)) = UInt8.ofNat n - zeroDigit := by
    decide +kernel
  have := hall c.toNat c.toNat_lt
  rwa [UInt8.ofNat_toNat] at this

theorem line_unique {value value' post post' : List UInt8} (hv : newline ∉ value) (hv' : newline ∉ value')
    (heq : value ++ newline :: post = value' ++ newline :: post') : value = value' ∧ post = post' := by
  induction value generalizing value' with
  | nil =>
    cases value' with
    | nil => exact ⟨rfl, (List.cons.inj heq).2⟩
    | cons b value' => exact absurd (List.cons.inj heq).1 (fun hb => hv' (by simp [hb]))
  | cons b value ih =>
    cases value' with
    | nil => exact absurd (List.cons.inj heq).1 (fun hb => hv (by simp [hb]))
    | cons b' value' =>
      obtain ⟨rfl, htail⟩ := List.cons.inj heq
      obtain ⟨rfl, hpost⟩ := ih (fun hmem => hv (by simp [hmem])) (fun hmem => hv' (by simp [hmem])) htail
      exact ⟨rfl, hpost⟩

/-- Nothing was put into the ring. -/
theorem not_rests_message {r : RingStream} {client : UInt8} (hrests : Rests flash r xs) :
    ¬ Rests flash r (xs ++ rawCells client bs) := by
  intro hmore
  have := hrests.length_unique hmore
  simp [rawCells] at this

/-- A request of at most 100 bytes is received whole if and only if it passes. -/
theorem short_iff (hstate : h.loopState = .anything) (hrests : Rests flash h.inboundRing xs)
    (hne : payload ≠ []) (hint : 2 * (payload.length : Int) < 2 ^ bits) (hshort : payload.length ≤ 100) :
    (Eats flash wide bits now (h.after flash wide bits now (header c payload.length)) payload ∧
      Received flash h.inboundRing ((h.after flash wide bits now (header c payload.length)).after
        flash wide bits now payload).inboundRing xs (c - zeroDigit) payload) ↔
    Passes h.inboundRing payload := by
  rw [Received, Passes, if_pos hshort, if_pos hshort, Room, hrests.used_eq, after_header hstate hint,
    readLength, if_pos rfl, if_neg (length_ne_zero hne)]
  dsimp only
  rw [hrests.freeSpace_eq]
  by_cases hignore : (payload.length : Int) < 100 ∧
      (h.inboundRing.len : Int) - xs.length - 3 ≤ payload.length + 1
  · rw [if_pos hignore]
    obtain ⟨heats, hring⟩ := eats_ignore flash wide now
      (h := { h with
        loopState := .ipdIgnoreData, runningClientId := digit c, dataLength := payload.length })
      rfl rfl hint hne
    rw [hring, and_iff_right heats]
    constructor
    · intro hreceived
      refine .inr fun hfull => ?_
      exact not_rests_message hrests (hreceived (by omega))
    · intro hpass hroom
      omega
  · rw [if_neg hignore, if_neg (by omega), ofInt_digit]
    obtain ⟨heats, hring⟩ := eats_data flash wide now
      (h := { h with
        loopState := .ipdData, runningClientId := digit c, dataLength := payload.length
        inboundRing := h.inboundRing.mark (c - zeroDigit), prescanPoint := 0 })
      rfl rfl hint hne
    rw [hring, and_iff_right heats]
    have hcommit := commit_raw flash hrests (c - zeroDigit) payload
    constructor
    · intro _
      omega
    · intro _ hroom
      rwa [if_pos ⟨hne, hroom⟩] at hcommit

theorem search_payload {rest : List UInt8} :
    search webSocketKeyName 0 payload = some rest ↔
      ∃ pre, Failed webSocketKeyName pre ∧ payload = pre ++ (webSocketKeyName ++ rest) :=
  search_eq_some_iff (by decide)

/-- What `Passes` says of a message in which the key is found. -/
theorem passes_of_found {rest : List UInt8} {r : RingStream} (hlong : ¬ payload.length ≤ 100)
    (hsearch : search webSocketKeyName 0 payload = some rest) :
    Passes r payload ↔ ∃ value post, rest = value ++ newline :: post ∧ newline ∉ value ∧ post ≠ [] ∧
      Room r (webSocketKeyName ++ (value ++ [newline])).length := by
  rw [Passes, if_neg hlong]
  obtain ⟨pre, hpre, hpayload⟩ := search_payload.mp hsearch
  constructor
  · rintro (⟨pre', value, post, hpayload', hpre', hrest⟩ | ⟨-, hnone⟩)
    · have hsearch' := search_payload.mpr ⟨pre', hpre', hpayload'⟩
      rw [hsearch, Option.some_inj] at hsearch'
      exact ⟨value, post, hsearch', hrest⟩
    · exact absurd ⟨pre, rest, hpre, hpayload⟩ hnone
  · rintro ⟨value, post, rfl, hrest⟩
    exact .inl ⟨pre, value, post, hpayload, hpre, hrest⟩

/-- The handler behind the header of a long message. -/
theorem after_header_long (hstate : h.loopState = .anything) (hint : 2 * (payload.length : Int) < 2 ^ bits)
    (hlong : ¬ payload.length ≤ 100) :
    h.after flash wide bits now (header c payload.length) =
      { h with
        loopState := .ipdPrescan, runningClientId := digit c, dataLength := payload.length
        inboundRing := h.inboundRing.mark (c - zeroDigit), prescanPoint := 0 } := by
  rw [after_header hstate hint, readLength, if_pos rfl, if_neg (by dsimp only; omega),
    if_neg (by dsimp only; omega)]
  dsimp only
  rw [if_pos (by omega), ofInt_digit]

/-- The line with the key is received if there is room for it. -/
theorem line_iff {r : RingStream} {client : UInt8} {line : List UInt8} (hrests : Rests flash r xs)
    (hline : KeyLine payload line) :
    ((∃ line', KeyLine payload line' ∧
        Rests flash ((r.mark client).print line).commit.1 (xs ++ rawCells client line')) ∨
      ((¬ ∃ line', KeyLine payload line') ∧ Rests flash ((r.mark client).print line).commit.1 xs)) ↔
    Room r line.length := by
  have hcommit := commit_raw flash hrests client line
  have hne : line ≠ [] := by
    obtain ⟨pre, value, post, -, -, rfl⟩ := hline
    simp [webSocketKeyName]
  rw [Room, hrests.used_eq]
  constructor
  · rintro (⟨line', -, hreceived⟩ | ⟨hno, -⟩)
    · by_contra hroom
      rw [if_neg (fun hfits => hroom hfits.2)] at hcommit
      exact not_rests_message hcommit hreceived
    · exact absurd ⟨line, hline⟩ hno
  · intro hroom
    rw [if_pos ⟨hne, hroom⟩] at hcommit
    exact .inl ⟨line, hline, hcommit⟩

section Long

-- the handler behind the header, when `IPD_PRESCAN` begins
variable {start : WifiInboundHandler} {r : RingStream} {client : UInt8} {rest : List UInt8}

/-- A long request without the name of the key is received whole if and only if it passes. -/
theorem lost_iff (hstate : start.loopState = .ipdPrescan) (hlen : start.dataLength = payload.length)
    (hint : 2 * (payload.length : Int) < 2 ^ bits) (hpoint : start.prescanPoint = 0)
    (hrests : Rests flash r xs) (hring : start.inboundRing = r.mark client)
    (hlong : ¬ payload.length ≤ 100) (hsearch : search webSocketKeyName 0 payload = none) :
    (Eats flash wide bits now start payload ∧
      Received flash r (start.after flash wide bits now payload).inboundRing xs client payload) ↔
    Passes r payload := by
  have hne : payload ≠ [] := fun hnil => hlong (by simp [hnil])
  have hp : start.prescanPoint < webSocketKeyName.length := by rw [hpoint]; decide
  have hfinal := prescan_none flash wide now hstate hlen hint hp hne (by rw [hpoint, hsearch])
  have hnothing : Rests flash (r.mark client).commit.1 xs := commit_raw flash hrests client []
  have hnone := (search_eq_none_iff (by decide)).mp hsearch
  rw [hfinal.2, hring, and_iff_right hfinal.1, Received, if_neg hlong, Passes, if_neg hlong]
  constructor
  · rintro (⟨line, -, hline⟩ | ⟨hno, -⟩)
    · exact absurd hline (not_rests_message hnothing)
    · exact .inr ⟨hno, hnone⟩
  · rintro (⟨pre, value, post, hpayload, hpre, -⟩ | ⟨hno, -⟩)
    · exact absurd ⟨pre, _, hpre, hpayload⟩ hnone
    · exact .inr ⟨hno, hnothing⟩

/-- A long request in which the name of the key is found is received whole if and only if it passes. -/
theorem found_iff (hstate : start.loopState = .ipdPrescan) (hlen : start.dataLength = payload.length)
    (hint : 2 * (payload.length : Int) < 2 ^ bits) (hpoint : start.prescanPoint = 0)
    (hrests : Rests flash r xs) (hring : start.inboundRing = r.mark client)
    (hlong : ¬ payload.length ≤ 100) (hsearch : search webSocketKeyName 0 payload = some rest) :
    (Eats flash wide bits now start payload ∧
      Received flash r (start.after flash wide bits now payload).inboundRing xs client payload) ↔
    Passes r payload := by
  have hp : start.prescanPoint < webSocketKeyName.length := by rw [hpoint]; decide
  rw [passes_of_found hlong hsearch, Received, if_neg hlong]
  obtain ⟨pre, hpre, hpayload⟩ := search_payload.mp hsearch
  rw [← hpoint] at hsearch
  by_cases hrest : rest = []
  · -- the key is the end of the message
    rw [hrest] at hsearch
    have hlast := prescan_last flash wide now hstate hlen hint hp hsearch
    constructor
    · intro hok
      rw [hok.1.after_eq] at hlast
      cases hlast
    · rintro ⟨value, post, hvalue, -⟩
      rw [hrest] at hvalue
      simp at hvalue
  obtain ⟨h₁, hstate₁, hlen₁, hring₁, hgo₁⟩ :=
    prescan_some flash wide now hstate hlen hint hp hrest hsearch
  have hint₁ : 2 * (rest.length : Int) < 2 ^ bits := by
    have := congrArg List.length hpayload
    simp only [List.length_append] at this
    omega
  rw [hgo₁.eats, hgo₁.after]
  by_cases hopen : newline ∉ rest
  · have hlast := postscan_open flash wide bits now hstate₁ hopen
    constructor
    · intro hok
      rw [hok.1.after_eq] at hlast
      cases hlast
    · rintro ⟨value, post, hvalue, -⟩
      exact absurd (by simp [hvalue]) hopen
  obtain ⟨value, post, hsplit, hvalue⟩ := List.eq_append_cons_of_mem (not_not.mp hopen)
  rw [hsplit] at hlen₁ hint₁ hpayload
  obtain ⟨h₂, hstate₂, hlen₂, hring₂, hgo₂⟩ := postscan_line flash wide now hstate₁ hlen₁ hint₁ hvalue
  rw [hsplit, hgo₂.eats, hgo₂.after]
  by_cases hpost : post = []
  · -- the end of the line is the end of the message
    subst hpost
    constructor
    · intro hok
      have hany : h₂.loopState = .anything := hok.1
      rw [hstate₂] at hany
      cases hany
    · rintro ⟨value', post', hvalue', hno', hpost', -⟩
      exact absurd (line_unique hvalue hno' hvalue').2.symm hpost'
  have hint₂ : 2 * (post.length : Int) < 2 ^ bits := by
    simp only [List.length_append, List.length_cons] at hint₁
    push_cast at hint₁
    omega
  obtain ⟨heats, hignore⟩ := eats_ignore flash wide now hstate₂ hlen₂ hint₂ hpost
  have hline : KeyLine payload (webSocketKeyName ++ (value ++ [newline])) :=
    ⟨pre, value, post, hpayload, hvalue, rfl⟩
  have hprint : (h₁.inboundRing.print (value ++ [newline])) =
      (r.mark client).print (webSocketKeyName ++ (value ++ [newline])) := by
    rw [hring₁, hring]
    exact List.foldl_append.symm
  rw [hignore, and_iff_right heats, hring₂, hprint, line_iff hrests hline]
  constructor
  · intro hroom
    exact ⟨value, post, rfl, hvalue, hpost, hroom⟩
  · rintro ⟨value', post', hvalue', hno', -, hroom⟩
    rwa [(line_unique hvalue hno' hvalue').1]

end Long

/-- **Messages of the modem.** A message is handled as expected if and only if its client is a digit
and it passes. -/
theorem handles_iff (flash : Nat → UInt8) (wide : Bool) (bits : Nat) (now : UInt32)
    (h : WifiInboundHandler) (xs : List UInt8) (c : UInt8) (payload : List UInt8)
    (hstate : h.loopState = .anything) (hrests : Rests flash h.inboundRing xs) (hne : payload ≠ [])
    (hint : 2 * (payload.length : Int) < 2 ^ bits) :
    Handles flash wide bits now h xs c payload ↔ IsDigit c ∧ Passes h.inboundRing payload := by
  have hclient : (h.after flash wide bits now [43, 73, 80, 68, 44, c]).loopState ≠ .skipToEnd := by
    rw [after_client hstate]
    exact (fun heq => by cases heq)
  have hdigit : (Eats flash wide bits now (h.after flash wide bits now (header c payload.length)) payload ∧
      Received flash h.inboundRing ((h.after flash wide bits now (header c payload.length)).after
        flash wide bits now payload).inboundRing xs (c - zeroDigit) payload) ↔
      Passes h.inboundRing payload := by
    by_cases hshort : payload.length ≤ 100
    · exact short_iff hstate hrests hne hint hshort
    · rw [after_header_long hstate hint hshort]
      cases hsearch : search webSocketKeyName 0 payload with
      | none => exact lost_iff rfl rfl hint rfl hrests rfl hshort hsearch
      | some rest => exact found_iff rfl rfl hint rfl hrests rfl hshort hsearch
  constructor
  · rintro ⟨hyes, hno⟩
    have hc : IsDigit c := by
      by_contra hc
      exact hclient (hno hc)
    exact ⟨hc, hdigit.mp (hyes hc)⟩
  · rintro ⟨hc, hpasses⟩
    exact ⟨fun _ => hdigit.mpr hpasses, fun hno => absurd hc hno⟩

/-- `+IPD,1,3:<s>` -/
theorem handles_iff_status :
    Rests (fun _ => 0) (new 128 2048).inboundRing [] ∧
    Handles (fun _ => 0) false 16 0 (new 128 2048) [] 49 [60, 115, 62] := by
  have hrests : Rests (fun _ => 0) (new 128 2048).inboundRing [] :=
    ⟨Holds.nil (by decide), rfl, .inl rfl⟩
  refine ⟨hrests, (handles_iff _ false 16 0 (new 128 2048) [] 49 [60, 115, 62] rfl hrests (by simp)
    (by simp)).mpr ⟨⟨by decide, by decide⟩, ?_⟩⟩
  exact .inr (by decide)

/-- A request of 101 bytes that is cut off behind the line with the key: the handler goes on ignoring
what the modem sends. And `+IPD,A,3:<s>`, which is not skipped. -/
theorem not_handles :
    (¬ Handles (fun _ => 0) false 16 0 (new 128 2048) [] 48
      (List.replicate 81 120 ++ (webSocketKeyName ++ [newline]))) ∧
    ¬ Handles (fun _ => 0) false 16 0 (new 128 2048) [] 65 [60, 115, 62] := by
  constructor
  · intro hok
    have hany := (hok.1 ⟨by decide, by decide⟩).1.after_eq
    have hignore : (((new 128 2048).after (fun _ => 0) false 16 0 (header 48 101)).after (fun _ => 0)
        false 16 0 (List.replicate 81 120 ++ (webSocketKeyName ++ [newline]))).loopState =
        .ipdIgnoreData := by decide +kernel
    exact absurd (hany.symm.trans hignore) (by decide)
  · intro hok
    exact absurd (hok.2 (by decide)) (by decide)

end WifiInboundHandler

end CommandStation
