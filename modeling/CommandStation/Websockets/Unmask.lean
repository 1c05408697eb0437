import CommandStation.Websockets.Basic
import CommandStation.Lib.Program
import Mathlib.Data.List.GetD

/-!
# Unmasking in the buffer

`unmask` works in the buffer of the transport that has received the frame: `n` bytes and a NUL behind
them. The frame says where its mask and its payload are, and how long the payload is. The code does
not compare this with `n`, and it keeps the length in a signed word. Diagnostics are off.
-/

namespace CommandStation.Websockets

open CommandStation.Lib

/-! ## The buffer -/

/-- An access to a byte that is neither one of those received nor the NUL. -/
structure Beyond where
  index : Nat
  deriving DecidableEq, Repr

/-- A program on the received bytes and the NUL. -/
abbrev Buffered (α : Type) : Type := Prog (List UInt8) Beyond α

def readByte (i : Nat) : Buffered UInt8 := do
  let buffer ← get
  if i < buffer.length then pure (buffer.getD i 0) else throw ⟨i⟩

def writeByte (i : Nat) (b : UInt8) : Buffered Unit := do
  let buffer ← get
  if i < buffer.length then set (buffer.set i b) else throw ⟨i⟩

/-- A C string is read, from a position up to its NUL; the buffer is not longer than `fuel`. -/
def readString : Nat → Nat → Buffered (List UInt8)
  | 0, i => throw ⟨i⟩
  | fuel + 1, i => do
    let b ← readByte i
    if b = 0 then pure []
    else do
      let bs ← readString fuel (i + 1)
      pure (b :: bs)

/-- `for (int i=0;i<payloadLength;i++) payload[i]^=mask[i%4]`, the turns from `i` on. -/
def unmaskLoop (mask payload : Nat) : Nat → Nat → Buffered Unit
  | 0, _ => pure ()
  | turns + 1, i => do
    let b ← readByte (payload + i)
    let m ← readByte (mask + i % 4)
    writeByte (payload + i) (b ^^^ m)
    unmaskLoop mask payload turns (i + 1)

/-- What `unmask` returns, with what it has sent. -/
inductive Returned where
  | replied (bytes : List UInt8)
  | unknown
  | payload (at_ : Nat)
  deriving DecidableEq, Repr

/-- The length of the payload and the position of the mask. -/
def readLength (short : UInt8) : Buffered (Int16 × Nat) :=
  if short < 126 then pure (short.toUInt16.toInt16, 2)
  else do
    -- bytes 2 and 3 are the big-endian payload length
    let high ← readByte 2
    let low ← readByte 3
    pure ((high.toUInt16 <<< 8 ||| low.toUInt16).toInt16, 4)

/-- `Websockets::unmask` -/
def Buffered.unmask : Buffered Returned := do
  let opcode ← readByte 0
  let second ← readByte 1
  let (payloadLength, mask) ← readLength (second &&& 0x7f)
  if opcode = 0x89 then  -- ping
    writeByte 0 0x8a  -- pong.. and send it back
    let buffer ← get
    let bytes ← readString (buffer.length + 1) 0
    pure (.replied bytes)
  else if opcode = 0x88 then do  -- close
    writeByte 0 0x88
    writeByte 1 0x00
    let first ← readByte 0
    let second ← readByte 1
    pure (.replied [first, second])
  else if opcode ≠ 0x81 then pure .unknown
  else do
    unmaskLoop mask (mask + 4) payloadLength.toInt.toNat 0
    pure (.payload (mask + 4))

/-! ## Accesses -/

section Accesses

variable {buffer : List UInt8} {i mask payload turns : Nat}

@[simp] theorem wp_readByte {Q : UInt8 → List UInt8 → Prop} :
    wp (fun _ => False) (readByte i) Q buffer ↔ i < buffer.length ∧ Q (buffer.getD i 0) buffer := by
  simp only [readByte, wp_bind, wp_get]
  split
  · next hi => simp [hi]
  · next hi => simp [hi]

@[simp] theorem wp_writeByte {b : UInt8} {Q : Unit → List UInt8 → Prop} :
    wp (fun _ => False) (writeByte i b) Q buffer ↔ i < buffer.length ∧ Q () (buffer.set i b) := by
  simp only [writeByte, wp_bind, wp_get]
  split
  · next hi => simp [hi]
  · next hi => simp [hi]

/-- A string that has its NUL in the buffer. -/
theorem wp_readString {bytes : List UInt8} {fuel : Nat} {Q : List UInt8 → List UInt8 → Prop}
    (hi : i ≤ bytes.length) (hfuel : bytes.length - i < fuel) :
    wp (fun _ => False) (readString fuel i) Q (bytes ++ [0]) ↔
      Q ((bytes.drop i).takeWhile (· ≠ 0)) (bytes ++ [0]) := by
  induction fuel generalizing i Q with
  | zero => exact absurd hfuel (Nat.not_lt_zero _)
  | succ fuel ih =>
    have hlen : i < (bytes ++ [0]).length := by
      rw [List.length_append]
      exact Nat.lt_succ_of_le hi
    simp only [readString, wp_bind, wp_readByte, hlen, true_and]
    rcases Nat.lt_or_eq_of_le hi with hlt | rfl
    · have hget : (bytes ++ [0]).getD i 0 = bytes[i] := by
        rw [List.getD_append _ _ _ _ hlt, List.getD_eq_getElem _ _ hlt]
      rw [hget, List.drop_eq_getElem_cons hlt, List.takeWhile_cons]
      by_cases hb : bytes[i] = 0
      · simp [hb]
      · have hne : decide (bytes[i] ≠ 0) = true := decide_eq_true hb
        rw [if_neg hb, if_pos hne, wp_bind, ih (Nat.succ_le_of_lt hlt) (by omega)]
        simp
    · simp

end Accesses

/-! ## The loop -/

section Loop

variable {buffer : List UInt8} {mask payload : Nat}

/-- The buffer in which the bytes of the turns from `i` on are unmasked. -/
def unmaskedBy (mask payload i turns : Nat) (buffer : List UInt8) : List UInt8 :=
  buffer.mapIdx fun k b =>
    if payload + i ≤ k ∧ k < payload + i + turns
    then b ^^^ buffer.getD (mask + (k - payload) % 4) 0
    else b

@[simp] theorem unmaskedBy_zero {i : Nat} : unmaskedBy mask payload i 0 buffer = buffer := by
  refine List.ext_getElem (by simp [unmaskedBy]) fun k _ _ => ?_
  simp only [unmaskedBy, List.getElem_mapIdx]
  rw [if_neg (by omega)]

/-- The first turn does not touch the mask. -/
theorem unmaskedBy_set {i turns : Nat} (hpayload : mask + 4 ≤ payload)
    (hi : payload + i < buffer.length) :
    unmaskedBy mask payload (i + 1) turns (buffer.set (payload + i)
      (buffer.getD (payload + i) 0 ^^^ buffer.getD (mask + i % 4) 0)) =
      unmaskedBy mask payload i (turns + 1) buffer := by
  have hmask : ∀ k : Nat, payload + i ≠ mask + k % 4 := by omega
  refine List.ext_getElem (by simp [unmaskedBy]) fun k hk _ => ?_
  simp only [unmaskedBy, List.length_mapIdx, List.length_set] at hk
  simp only [unmaskedBy, List.getElem_mapIdx, List.getElem_set, List.getD_eq_getElem?_getD,
    List.getElem?_set_ne (hmask _)]
  rcases Nat.lt_trichotomy k (payload + i) with hlt | rfl | hgt
  · rw [if_neg (by omega), if_neg (by omega), if_neg (by omega)]
  · rw [if_neg (by omega), if_pos rfl, if_pos (by omega), Nat.add_sub_cancel_left,
      List.getElem?_eq_getElem hi, Option.getD_some]
  · rw [if_neg (show payload + i ≠ k by omega)]
    by_cases hturn : k < payload + i + (turns + 1)
    · rw [if_pos (by omega), if_pos (by omega)]
    · rw [if_neg (by omega), if_neg (by omega)]

/-- A loop that takes a turn stays in the buffer exactly if its last byte is there. -/
theorem wp_unmaskLoop {i turns : Nat} {Q : Unit → List UInt8 → Prop} (hpayload : mask + 4 ≤ payload) :
    wp (fun _ => False) (unmaskLoop mask payload turns i) Q buffer ↔
      (0 < turns → payload + i + turns ≤ buffer.length) ∧
        Q () (unmaskedBy mask payload i turns buffer) := by
  induction turns generalizing i buffer with
  | zero => simp [unmaskLoop]
  | succ turns ih =>
    simp only [unmaskLoop, wp_bind, wp_readByte, wp_writeByte, ih, List.length_set]
    constructor
    · rintro ⟨hi, -, -, hrest, hQ⟩
      rw [unmaskedBy_set hpayload hi] at hQ
      exact ⟨by omega, hQ⟩
    · rintro ⟨hlen, hQ⟩
      have hlen := hlen (Nat.succ_pos turns)
      have hi : payload + i < buffer.length := by omega
      rw [unmaskedBy_set hpayload hi]
      exact ⟨hi, by omega, hi, by omega, hQ⟩

/-- What the parser is given. -/
theorem drop_unmaskedBy {turns : Nat} :
    (unmaskedBy mask payload 0 turns buffer).drop payload =
      (buffer.drop payload).mapIdx fun i b =>
        if i < turns then b ^^^ buffer.getD (mask + i % 4) 0 else b := by
  refine List.ext_getElem (by simp [unmaskedBy]) fun k hk _ => ?_
  simp only [unmaskedBy, List.getElem_drop, List.getElem_mapIdx, Nat.add_zero,
    Nat.add_sub_cancel_left, Nat.le_add_right, true_and, Nat.add_lt_add_iff_left]

end Loop

/-! ## Lengths -/

/-- The length of the short form. -/
theorem toNat_short (b : UInt8) : (b &&& 0x7f).toNat = b.toNat % 128 := by
  rw [UInt8.toNat_and]
  exact Nat.and_two_pow_sub_one_eq_mod _ 7

theorem extended_iff {buffer : List UInt8} :
    extended buffer ↔ 126 ≤ (buffer.getD 1 0).toNat % 128 := by
  rw [← toNat_short]
  exact decide_eq_true_iff

/-- The length that the frame announces. -/
def announced (buffer : List UInt8) : Nat :=
  if extended buffer then (buffer.getD 2 0).toNat * 256 + (buffer.getD 3 0).toNat
  else (buffer.getD 1 0).toNat % 128

theorem toNat_bigEndian (high low : UInt8) :
    (high.toUInt16 <<< 8 ||| low.toUInt16).toNat = high.toNat * 256 + low.toNat := by
  have hhigh := high.toNat_lt
  have hlow := low.toNat_lt
  have hor := Nat.two_pow_add_eq_or_of_lt (i := 8) (b := low.toNat) hlow high.toNat
  simp only [UInt16.toNat_or, UInt16.toNat_shiftLeft, UInt8.toNat_toUInt16, UInt16.reduceToNat,
    Nat.shiftLeft_eq, Nat.reduceMod, Nat.reducePow]
  rw [Nat.mod_eq_of_lt (by omega), show high.toNat * 256 = 2 ^ 8 * high.toNat by omega, ← hor]

/-- A length beyond the positive words counts as none. -/
theorem toNat_signed (x : UInt16) :
    x.toInt16.toInt.toNat = if x.toNat < 32768 then x.toNat else 0 := by
  have hx := x.toNat_lt
  have hbits : x.toInt16.toInt = x.toBitVec.toInt := rfl
  rw [hbits, BitVec.toInt_eq_toNat_bmod, UInt16.toNat_toBitVec, Int.bmod_def]
  split <;> split <;> omega

/-- The turns of the loop. -/
theorem toNat_payloadLength (buffer : List UInt8) :
    (payloadLength buffer).toInt.toNat = if announced buffer < 32768 then announced buffer else 0 := by
  unfold payloadLength announced
  split
  · rw [toNat_signed, toNat_bigEndian]
  · rw [toNat_signed, UInt8.toNat_toUInt16, toNat_short]

/-- The NUL reads as the bytes that are not there. -/
@[simp] theorem getD_nul (bytes : List UInt8) (i : Nat) :
    (bytes ++ [0]).getD i 0 = bytes.getD i 0 := by
  rcases Nat.lt_or_ge i bytes.length with hlt | hge
  · rw [List.getD_append _ _ _ _ hlt]
  · rw [List.getD_append_right _ _ _ _ hge, List.getD_eq_default _ _ hge]
    cases i - bytes.length <;> rfl

/-- The NUL stays, where it is not part of the payload. -/
theorem unmaskedBy_nul {bytes : List UInt8} {mask payload turns : Nat}
    (hnul : payload + turns ≤ bytes.length) :
    unmaskedBy mask payload 0 turns (bytes ++ [0]) = unmaskedBy mask payload 0 turns bytes ++ [0] := by
  refine List.ext_getElem (by simp [unmaskedBy]) fun k hk _ => ?_
  simp only [unmaskedBy, List.getElem_mapIdx, List.getElem_append, List.length_mapIdx, getD_nul]
  by_cases hlt : k < bytes.length
  · rw [dif_pos hlt, dif_pos hlt]
  · rw [dif_neg hlt, dif_neg hlt, if_neg (by omega)]

@[simp] theorem extended_nul (bytes : List UInt8) : extended (bytes ++ [0]) = extended bytes := by
  simp only [extended, getD_nul]

@[simp] theorem maskAt_nul (bytes : List UInt8) : maskAt (bytes ++ [0]) = maskAt bytes := by
  simp only [maskAt, extended_nul]

@[simp] theorem payloadLength_nul (bytes : List UInt8) :
    payloadLength (bytes ++ [0]) = payloadLength bytes := by
  simp only [payloadLength, extended_nul, getD_nul]

/-- The length field of a frame is in the buffer. -/
theorem wp_readLength {buffer : List UInt8} {Q : Int16 × Nat → List UInt8 → Prop} :
    wp (fun _ => False) (readLength (buffer.getD 1 0 &&& 0x7f)) Q buffer ↔
      (extended buffer → 3 < buffer.length) ∧ Q (payloadLength buffer, maskAt buffer) buffer := by
  unfold readLength payloadLength maskAt
  rcases hext : extended buffer with _ | _
  · have hshort : buffer.getD 1 0 &&& 0x7f < 126 := UInt8.not_le.mp (of_decide_eq_false hext)
    rw [if_pos hshort]
    simp only [wp_pure, Bool.false_eq_true, if_false, false_implies, true_and]
  · have hlong : ¬ buffer.getD 1 0 &&& 0x7f < 126 := UInt8.not_lt.mpr (of_decide_eq_true hext)
    rw [if_neg hlong]
    simp only [wp_bind, wp_readByte, wp_pure, if_true, true_implies]
    constructor
    · rintro ⟨-, hlow, hQ⟩
      exact ⟨hlow, hQ⟩
    · rintro ⟨hlow, hQ⟩
      exact ⟨by omega, hlow, hQ⟩

/-! ## The buffer that is received -/

/-- The frame does not announce more than was received: there is a first byte, the length field is
there, and a payload that is unmasked is there, or its last byte is the NUL. -/
def Fits (bytes : List UInt8) : Prop :=
  0 < bytes.length ∧ (extended bytes → 3 ≤ bytes.length) ∧
    (bytes.getD 0 0 = 0x81 → 0 < announced bytes → announced bytes < 32768 →
      maskAt bytes + 4 + announced bytes ≤ bytes.length + 1)

instance (bytes : List UInt8) : Decidable (Fits bytes) :=
  inferInstanceAs (Decidable (_ ∧ _ ∧ _))

/-- What is returned and the buffer that is left, for a frame that fits. -/
def outcome (bytes : List UInt8) : Returned × List UInt8 :=
  let opcode := bytes.getD 0 0
  if opcode = 0x89 then
    (.replied ((0x8a :: bytes.drop 1).takeWhile (· ≠ 0)), 0x8a :: bytes.drop 1 ++ [0])
  else if opcode = 0x88 then (.replied [0x88, 0x00], ((bytes ++ [0]).set 0 0x88).set 1 0x00)
  else if opcode ≠ 0x81 then (.unknown, bytes ++ [0])
  else
    (.payload (maskAt bytes + 4), unmaskedBy (maskAt bytes) (maskAt bytes + 4) 0
      (payloadLength bytes).toInt.toNat (bytes ++ [0]))

theorem outcome_text {bytes : List UInt8} (htext : bytes.getD 0 0 = 0x81) :
    outcome bytes = (.payload (maskAt bytes + 4), unmaskedBy (maskAt bytes) (maskAt bytes + 4) 0
      (payloadLength bytes).toInt.toNat (bytes ++ [0])) := by
  unfold outcome
  rw [htext]
  rfl

/-- Nothing else is read or written exactly if the frame fits. -/
theorem wp_unmask {bytes : List UInt8} {Q : Returned → List UInt8 → Prop} :
    wp (fun _ => False) Buffered.unmask Q (bytes ++ [0]) ↔
      Fits bytes ∧ Q (outcome bytes).1 (outcome bytes).2 := by
  have hlength : (bytes ++ [0]).length = bytes.length + 1 := List.length_append
  simp only [Buffered.unmask, wp_bind, wp_readByte, wp_readLength]
  simp only [hlength, getD_nul, extended_nul, maskAt_nul, payloadLength_nul, Nat.lt_add_one_iff,
    Nat.zero_le, true_and]
  unfold Fits outcome
  rw [and_assoc, and_assoc]
  refine and_congr_right fun hfirst => and_congr_right fun _ => ?_
  by_cases htext : bytes.getD 0 0 = 0x81
  · have hping : bytes.getD 0 0 ≠ 0x89 := by
      rw [htext]
      decide
    have hclose : bytes.getD 0 0 ≠ 0x88 := by
      rw [htext]
      decide
    simp only [hping, hclose, if_false]
    simp only [htext, ne_eq, not_true, if_false, true_implies, wp_bind, wp_pure]
    rw [wp_unmaskLoop (Nat.le_refl _), hlength, toNat_payloadLength]
    refine and_congr_left fun _ => ?_
    split
    · next hword => simp only [hword, true_implies, Nat.add_zero]
    · next hword => simp only [hword, false_implies, implies_true, Nat.lt_irrefl]
  obtain ⟨first, rest, rfl⟩ := List.exists_cons_of_length_pos hfirst
  simp only [htext, false_implies, true_and]
  by_cases hping : (first :: rest).getD 0 0 = 0x89
  · have hset : (first :: rest ++ [0]).set 0 0x8a = (0x8a :: rest) ++ [0] := rfl
    simp only [hping, if_true, wp_bind, wp_writeByte, wp_get, hset]
    rw [wp_readString (Nat.zero_le _) (by simp)]
    simp
  by_cases hclose : (first :: rest).getD 0 0 = 0x88
  · simp only [hping, if_false]
    simp only [hclose, if_true, wp_bind, wp_writeByte, wp_readByte, wp_pure, List.length_set]
    cases rest with
    | nil => simp
    | cons second rest => simp
  · simp only [hping, hclose, htext, if_false, if_true, ne_eq, not_false_iff, wp_pure]

/-- What the caller sees of it in the buffer that is left: its payload reaches up to the NUL. -/
def Returned.seen (buffer : List UInt8) : Returned → Unmasked
  | .replied bytes => .reply bytes
  | .unknown => .unknown
  | .payload p => .payload (buffer.dropLast.drop p)

/-- In the buffer of a frame that fits, and leaves the NUL alone, the code computes `unmask`. -/
theorem unmask_refines {bytes : List UInt8} (hfits : Fits bytes)
    (hnul : maskAt bytes + 4 + (payloadLength bytes).toInt.toNat ≤ bytes.length) :
    wp (fun _ => False) Buffered.unmask (fun r buffer => r.seen buffer = unmask bytes)
      (bytes ++ [0]) := by
  rw [wp_unmask]
  refine ⟨hfits, ?_⟩
  unfold outcome unmask
  simp only
  split
  · rfl
  split
  · rfl
  split
  · rfl
  · rw [unmaskedBy_nul hnul, Returned.seen, List.dropLast_concat, drop_unmaskedBy]

/-! ## Frames -/

/-- A text frame that a client sends. A short payload may have a length field of its own. -/
structure Frame where
  mask : List UInt8
  payload : List UInt8
  long : Bool
  mask_length : mask.length = 4
  payload_length : payload.length ≤ if long then 65535 else 125

namespace Frame

/-- A text, complete, and masked. -/
def header (f : Frame) : List UInt8 :=
  if f.long then
    [0x81, 0x80 ||| 126, UInt8.ofNat (f.payload.length / 256), UInt8.ofNat f.payload.length]
  else [0x81, 0x80 ||| UInt8.ofNat f.payload.length]

/-- The payload as it is sent. -/
def masked (f : Frame) : List UInt8 := f.payload.mapIdx fun i b => b ^^^ f.mask.getD (i % 4) 0

def bytes (f : Frame) : List UInt8 := f.header ++ f.mask ++ f.masked

variable (f : Frame) (rest : List UInt8)

theorem getD_header {i : Nat} (hi : i < f.header.length) :
    (f.bytes ++ rest).getD i 0 = f.header.getD i 0 := by
  unfold bytes
  rw [List.append_assoc, List.append_assoc, List.getD_append _ _ _ _ hi]

/-- The second byte of a frame has its length, or 126 for a long one. -/
theorem toNat_second : ((f.bytes ++ rest).getD 1 0).toNat % 128 =
    if f.long then 126 else f.payload.length := by
  have hlength := f.payload_length
  rw [getD_header]
  · unfold header
    split
    · show (0x80 ||| 126 : UInt8).toNat % 128 = 126
      decide
    · next hlong =>
      rw [if_neg hlong] at hlength
      show (0x80 ||| UInt8.ofNat f.payload.length).toNat % 128 = _
      rw [UInt8.toNat_or, Nat.or_mod_two_pow (n := 7), UInt8.toNat_ofNat']
      simp
      omega
  · unfold header
    split <;> simp

@[simp] theorem extended_bytes : extended (f.bytes ++ rest) = f.long := by
  have hlength := f.payload_length
  rw [Bool.eq_iff_iff, extended_iff, toNat_second]
  split <;> simp_all
  omega

@[simp] theorem maskAt_bytes : maskAt (f.bytes ++ rest) = f.header.length := by
  unfold maskAt header
  rw [extended_bytes]
  split <;> rfl

@[simp] theorem announced_bytes : announced (f.bytes ++ rest) = f.payload.length := by
  have hlength := f.payload_length
  unfold announced
  rw [extended_bytes, toNat_second]
  split
  · next hlong =>
    rw [if_pos hlong] at hlength
    rw [getD_header, getD_header]
    all_goals simp [header, hlong]
    omega
  · rfl

@[simp] theorem opcode_bytes : (f.bytes ++ rest).getD 0 0 = 0x81 := by
  rw [getD_header]
  · unfold header
    split <;> rfl
  · unfold header
    split <;> simp

theorem length_bytes : f.bytes.length = f.header.length + 4 + f.payload.length := by
  simp only [bytes, masked, List.length_append, List.length_mapIdx, f.mask_length]

theorem getD_mask {i : Nat} (hi : i < 4) :
    (f.bytes ++ rest).getD (f.header.length + i) 0 = f.mask.getD i 0 := by
  have hmask : i < f.mask.length := by rwa [f.mask_length]
  unfold bytes
  rw [List.append_assoc, List.append_assoc, List.getD_append_right _ _ _ _ (Nat.le_add_right _ _),
    Nat.add_sub_cancel_left, List.getD_append _ _ _ _ hmask]

theorem drop_bytes : (f.bytes ++ rest).drop (f.header.length + 4) = f.masked ++ rest := by
  have hfront : f.header.length + 4 = (f.header ++ f.mask).length := by
    rw [List.length_append, f.mask_length]
  unfold bytes
  rw [hfront, List.append_assoc _ f.masked, List.drop_left]

/-- A frame fits in its buffer. -/
theorem fits : Fits (f.bytes ++ rest) := by
  have hlength : (f.bytes ++ rest).length = f.header.length + 4 + f.payload.length + rest.length := by
    rw [List.length_append, f.length_bytes]
  unfold Fits
  simp only [hlength, maskAt_bytes, announced_bytes]
  omega

/-- What stands where the payload was, after so many turns of the loop. -/
theorem take_drop_unmaskedBy {turns : Nat} :
    ((unmaskedBy f.header.length (f.header.length + 4) 0 turns (f.bytes ++ rest)).drop
      (f.header.length + 4)).take f.payload.length =
        f.masked.mapIdx fun i b => if i < turns then b ^^^ f.mask.getD (i % 4) 0 else b := by
  have hmasked : f.masked.length = f.payload.length := List.length_mapIdx
  rw [drop_unmaskedBy, drop_bytes]
  refine List.ext_getElem (by simp [hmasked]) fun k hk hk' => ?_
  rw [List.length_mapIdx] at hk'
  simp only [List.getElem_take, List.getElem_mapIdx, List.getElem_append_left hk',
    getD_mask _ _ (Nat.mod_lt k (by decide : 4 > 0))]

/-- Each byte is masked twice. -/
theorem mapIdx_masked {turns : Nat} (hturns : f.payload.length ≤ turns) :
    (f.masked.mapIdx fun i b => if i < turns then b ^^^ f.mask.getD (i % 4) 0 else b) =
      f.payload := by
  refine List.ext_getElem (by simp [masked]) fun k _ hk => ?_
  simp only [masked, List.getElem_mapIdx]
  rw [if_pos (Nat.lt_of_lt_of_le hk hturns), UInt8.xor_assoc, UInt8.xor_self, UInt8.xor_zero]

/-- A mask that has a turn for each of its bytes shows, if it is not zero. -/
theorem masked_eq_payload (hlength : 4 ≤ f.payload.length) :
    f.masked = f.payload ↔ f.mask = [0, 0, 0, 0] := by
  constructor
  · intro h
    refine List.ext_getElem f.mask_length fun k hk hk' => ?_
    have hk4 : k < 4 := hk'
    have hget : f.masked.getD k 0 = f.payload.getD k 0 := by rw [h]
    simp only [masked, List.getD_eq_getElem?_getD, List.getElem?_mapIdx, Nat.mod_eq_of_lt hk4,
      List.getElem?_eq_getElem hk, List.getElem?_eq_getElem (Nat.lt_of_lt_of_le hk4 hlength),
      Option.map_some, Option.getD_some] at hget
    have hzero : f.mask[k] = 0 := by
      rw [← UInt8.zero_xor (a := f.mask[k]), ← UInt8.xor_self (a := f.payload[k]), UInt8.xor_assoc,
        hget]
    rw [hzero]
    exact (List.getElem_replicate (n := 4) hk').symm
  · intro h
    refine List.ext_getElem (by simp [masked]) fun k _ hk => ?_
    have hzero : f.mask.getD (k % 4) 0 = 0 := by
      rw [h]
      exact List.getD_replicate 0 (n := 4) (Nat.mod_lt k (show 4 > 0 by decide))
    simp only [masked, List.getElem_mapIdx, hzero, UInt8.xor_zero]

/-- Which payload the caller finds. -/
theorem wp_unmask_bytes :
    wp (fun _ => False) Buffered.unmask (fun r buffer => ∃ p, r = .payload p ∧
      (buffer.drop p).take f.payload.length = f.payload) (f.bytes ++ rest ++ [0]) ↔
      f.payload.length ≤ 32767 ∨ f.mask = [0, 0, 0, 0] := by
  have hturns := toNat_payloadLength (f.bytes ++ rest)
  rw [announced_bytes] at hturns
  rw [wp_unmask, outcome_text (f.opcode_bytes rest), maskAt_bytes, hturns]
  simp only [f.fits, true_and, Returned.payload.injEq, exists_eq_left']
  rw [List.append_assoc f.bytes, take_drop_unmaskedBy]
  by_cases hshort : f.payload.length < 32768
  · rw [if_pos hshort, f.mapIdx_masked (Nat.le_refl _)]
    exact iff_of_true rfl (Or.inl (Nat.le_of_lt_succ hshort))
  · have hnone : (f.masked.mapIdx fun i b =>
        if i < 0 then b ^^^ f.mask.getD (i % 4) 0 else b) = f.masked := by
      refine List.ext_getElem List.length_mapIdx fun k _ _ => ?_
      rw [List.getElem_mapIdx, if_neg (Nat.not_lt_zero k)]
    rw [if_neg hshort, hnone, f.masked_eq_payload (by omega)]
    exact (or_iff_right (by omega)).symm

end Frame

/-! ## Where the code holds -/

/-- Only the received bytes and the NUL are read and written exactly if the frame announces no more
than them, and the payload is unmasked exactly if its length is a positive word or its mask is zero. For
a frame that fits and leaves the NUL alone, what the caller sees is `unmask` of the received bytes. -/
theorem unmask_in_buffer (bytes : List UInt8) (f : Frame) (rest : List UInt8) :
    (wp (fun _ => False) Buffered.unmask (fun _ _ => True) (bytes ++ [0]) ↔ Fits bytes) ∧
    (wp (fun _ => False) Buffered.unmask (fun r buffer => ∃ p, r = .payload p ∧
      (buffer.drop p).take f.payload.length = f.payload) (f.bytes ++ rest ++ [0]) ↔
        f.payload.length ≤ 32767 ∨ f.mask = [0, 0, 0, 0]) ∧
    (Fits bytes → maskAt bytes + 4 + (payloadLength bytes).toInt.toNat ≤ bytes.length →
      wp (fun _ => False) Buffered.unmask (fun r buffer => r.seen buffer = unmask bytes)
        (bytes ++ [0])) := by
  refine ⟨?_, f.wp_unmask_bytes rest, unmask_refines⟩
  rw [wp_unmask, and_true]

/-- A frame of two bytes that announces five, and a text of 32768 bytes. -/
theorem not_unmask_in_buffer :
    ¬ wp (fun _ => False) Buffered.unmask (fun _ _ => True) ([0x81, 0x85] ++ [0]) ∧
    ∃ f : Frame, f.payload = List.replicate 32768 65 ∧
      ¬ wp (fun _ => False) Buffered.unmask (fun r buffer => ∃ p, r = .payload p ∧
        (buffer.drop p).take f.payload.length = f.payload) (f.bytes ++ [0]) := by
  constructor
  · decide
  · let f : Frame := ⟨[1, 2, 3, 4], List.replicate 32768 65, true, rfl, by
      rw [List.length_replicate]
      decide⟩
    have hlength : f.payload.length = 32768 := List.length_replicate
    have hmask : f.mask ≠ [0, 0, 0, 0] := by decide
    have hwp := f.wp_unmask_bytes []
    rw [List.append_nil] at hwp
    refine ⟨f, rfl, ?_⟩
    rw [hwp, hlength]
    simp [hmask]

end CommandStation.Websockets
