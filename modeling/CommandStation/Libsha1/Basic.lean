import CommandStation.Lib.Sha1

/-!
# The hash of the websocket handshake

`SHA1Transform` has its eighty rounds written out. The five working variables stay where they are and
change their roles from round to round, and the sixteen words of the block are used again and again for the
schedule. `SHA1Update` takes input in pieces of any length and keeps what is less than a block in the
buffer; `SHA1Final` puts the padding through `SHA1Update`.
-/

namespace CommandStation.Libsha1

open CommandStation.Lib

/-! ## `SHA1Transform` -/

/-- The macro `rol`. -/
def rol (value bits : UInt32) : UInt32 := value <<< bits ||| value >>> (32 - bits)

/-- The working variables of `SHA1Transform`. -/
inductive Var where
  | a | b | c | d | e
deriving DecidableEq, Repr

/-- The working variables and the block, as words. -/
structure Work where
  vars : Sha1.Words
  l : Vector UInt32 16

namespace Work

def get (s : Work) : Var → UInt32
  | .a => s.vars.a
  | .b => s.vars.b
  | .c => s.vars.c
  | .d => s.vars.d
  | .e => s.vars.e

def set (s : Work) (v : Var) (x : UInt32) : Work :=
  match v with
  | .a => { s with vars := { s.vars with a := x } }
  | .b => { s with vars := { s.vars with b := x } }
  | .c => { s with vars := { s.vars with c := x } }
  | .d => { s with vars := { s.vars with d := x } }
  | .e => { s with vars := { s.vars with e := x } }

@[simp] theorem get_set (s : Work) (v w : Var) (x : UInt32) :
    (s.set v x).get w = if w = v then x else s.get w := by
  cases v <;> cases w <;> rfl

@[simp] theorem set_l (s : Work) (v : Var) (x : UInt32) : (s.set v x).l = s.l := by
  cases v <;> rfl

end Work

/-- `i & 15`. -/
def at15 (i : Nat) : Fin 16 := ⟨i &&& 15, Nat.and_lt_two_pow i (by decide : 15 < 2 ^ 4)⟩

section Endian

-- whether the processor keeps the low byte of a word first
variable (littleEndian : Bool)

/-- The word of a block that the macro `blk0` leaves at place `i`. -/
def blk0 (l : Vector UInt32 16) (i : Fin 16) : UInt32 :=
  if littleEndian then rol l[i] 24 &&& 0xFF00FF00 ||| rol l[i] 8 &&& 0x00FF00FF else l[i]

/-- The word of a block that the macro `blk` leaves at place `i & 15`. -/
def blk (l : Vector UInt32 16) (i : Nat) : UInt32 :=
  rol (l[at15 (i + 13)] ^^^ l[at15 (i + 8)] ^^^ l[at15 (i + 2)] ^^^ l[at15 i]) 1

/-- A statement of `SHA1Transform`, by its macro. -/
inductive Statement where
  | R0 (v w x y z : Var) (i : Fin 16)
  | R1 (v w x y z : Var) (i : Nat)
  | R2 (v w x y z : Var) (i : Nat)
  | R3 (v w x y z : Var) (i : Nat)
  | R4 (v w x y z : Var) (i : Nat)
deriving DecidableEq, Repr

/-- What the macros share: the word `value` is put into the block, `z` is added to and `w` is rotated. -/
def Work.operate (s : Work) (v w z : Var) (place : Fin 16) (value f constant : UInt32) : Work :=
  let s := { s with l := s.l.set place value }
  let s := s.set z (s.get z + (f + value + constant + rol (s.get v) 5))
  s.set w (rol (s.get w) 30)

def Statement.run (s : Work) : Statement → Work
  | .R0 v w x y z i =>
    s.operate v w z i (blk0 littleEndian s.l i) ((s.get w &&& (s.get x ^^^ s.get y)) ^^^ s.get y) 0x5A827999
  | .R1 v w x y z i =>
    s.operate v w z (at15 i) (blk s.l i) ((s.get w &&& (s.get x ^^^ s.get y)) ^^^ s.get y) 0x5A827999
  | .R2 v w x y z i =>
    s.operate v w z (at15 i) (blk s.l i) (s.get w ^^^ s.get x ^^^ s.get y) 0x6ED9EBA1
  | .R3 v w x y z i =>
    s.operate v w z (at15 i) (blk s.l i)
      (((s.get w ||| s.get x) &&& s.get y) ||| (s.get w &&& s.get x)) 0x8F1BBCDC
  | .R4 v w x y z i =>
    s.operate v w z (at15 i) (blk s.l i) (s.get w ^^^ s.get x ^^^ s.get y) 0xCA62C1D6

open Statement Var in
/-- The statements of `SHA1Transform`, in their order. -/
def statements : List Statement :=
  [
    R0 a b c d e 0, R0 e a b c d 1, R0 d e a b c 2, R0 c d e a b 3,
    R0 b c d e a 4, R0 a b c d e 5, R0 e a b c d 6, R0 d e a b c 7,
    R0 c d e a b 8, R0 b c d e a 9, R0 a b c d e 10, R0 e a b c d 11,
    R0 d e a b c 12, R0 c d e a b 13, R0 b c d e a 14, R0 a b c d e 15,
    R1 e a b c d 16, R1 d e a b c 17, R1 c d e a b 18, R1 b c d e a 19,
    R2 a b c d e 20, R2 e a b c d 21, R2 d e a b c 22, R2 c d e a b 23,
    R2 b c d e a 24, R2 a b c d e 25, R2 e a b c d 26, R2 d e a b c 27,
    R2 c d e a b 28, R2 b c d e a 29, R2 a b c d e 30, R2 e a b c d 31,
    R2 d e a b c 32, R2 c d e a b 33, R2 b c d e a 34, R2 a b c d e 35,
    R2 e a b c d 36, R2 d e a b c 37, R2 c d e a b 38, R2 b c d e a 39,
    R3 a b c d e 40, R3 e a b c d 41, R3 d e a b c 42, R3 c d e a b 43,
    R3 b c d e a 44, R3 a b c d e 45, R3 e a b c d 46, R3 d e a b c 47,
    R3 c d e a b 48, R3 b c d e a 49, R3 a b c d e 50, R3 e a b c d 51,
    R3 d e a b c 52, R3 c d e a b 53, R3 b c d e a 54, R3 a b c d e 55,
    R3 e a b c d 56, R3 d e a b c 57, R3 c d e a b 58, R3 b c d e a 59,
    R4 a b c d e 60, R4 e a b c d 61, R4 d e a b c 62, R4 c d e a b 63,
    R4 b c d e a 64, R4 a b c d e 65, R4 e a b c d 66, R4 d e a b c 67,
    R4 c d e a b 68, R4 b c d e a 69, R4 a b c d e 70, R4 e a b c d 71,
    R4 d e a b c 72, R4 c d e a b 73, R4 b c d e a 74, R4 a b c d e 75,
    R4 e a b c d 76, R4 d e a b c 77, R4 c d e a b 78, R4 b c d e a 79
  ]

/-- The words of a block in memory. -/
def load (buffer : List UInt8) (i : Fin 16) : UInt32 :=
  if littleEndian then
    Sha1.word (buffer.getD (4 * i + 3) 0) (buffer.getD (4 * i + 2) 0) (buffer.getD (4 * i + 1) 0)
      (buffer.getD (4 * i) 0)
  else Sha1.wordAt buffer i

/-- `SHA1Transform`, with the state that it leaves. -/
def transform (state : Sha1.Words) (buffer : List UInt8) : Sha1.Words :=
  state + (statements.foldl (Statement.run littleEndian)
    ⟨state, Vector.ofFn (load littleEndian buffer)⟩).vars

/-! ## `SHA1Init`, `SHA1Update` and `SHA1Final` -/

/-- `SHA1_CTX`. -/
structure Context where
  state : Sha1.Words
  count0 : UInt32
  count1 : UInt32
  buffer : List UInt8

/-- `SHA1Init`, which leaves the buffer as it is. -/
def init (context : Context) : Context :=
  { context with state := Sha1.Words.initial, count0 := 0, count1 := 0 }

/-- `memcpy` of `data` to the place `j` of a buffer. -/
def memcpy (buffer : List UInt8) (j : Nat) (data : List UInt8) : List UInt8 :=
  buffer.take j ++ data ++ buffer.drop (j + data.length)

/-- The loop of `SHA1Update` over the whole blocks of its input, from `i` on, where `i + 63 < len`. -/
def blocks (state : Sha1.Words) (data : List UInt8) (i : Nat) : Sha1.Words × Nat :=
  if i + 63 < data.length then blocks (transform littleEndian state ((data.drop i).take 64)) data (i + 64)
  else (state, i)
termination_by data.length - i

/-- The statements of `SHA1Update` about the count. -/
def Context.counted (context : Context) (len : UInt32) : Context :=
  let j := context.count0
  let context := { context with count0 := context.count0 + len <<< 3 }
  let context := if context.count0 < j then { context with count1 := context.count1 + 1 } else context
  { context with count1 := context.count1 + len >>> 29 }

/-- `SHA1Update`. The length is one of 32 bits. -/
def update (context : Context) (data : List UInt8) : Context :=
  let len := UInt32.ofNat data.length
  let j := (context.count0 >>> 3) &&& 63
  let context := context.counted len
  if j + len > 63 then
    let i := 64 - j.toNat
    let buffer := memcpy context.buffer j.toNat (data.take i)
    let state := transform littleEndian context.state buffer
    let (state, i) := blocks littleEndian state data i
    { context with state := state, buffer := memcpy buffer 0 (data.drop i) }
  else { context with buffer := memcpy context.buffer j.toNat data }

/-- The zeros of `SHA1Final`, one by one. There is no telling beforehand how often the loop goes round. -/
def zeros (context : Context) : Nat → Option Context
  | 0 => none
  | fuel + 1 =>
    if context.count0 &&& 504 = 448 then some context else zeros (update littleEndian context [0]) fuel

/-- The bytes of `finalcount`. -/
def finalcount (context : Context) : List UInt8 :=
  (List.range 8).map fun i =>
    (((if 4 ≤ i then context.count0 else context.count1) >>> (UInt32.ofNat ((3 - (i &&& 3)) * 8))) &&&
      255).toUInt8

/-- The bytes of `digest`. -/
def digest (state : Sha1.Words) : List UInt8 :=
  (List.range 20).map fun i =>
    ((((match i >>> 2 with
      | 0 => state.a
      | 1 => state.b
      | 2 => state.c
      | 3 => state.d
      | _ => state.e) >>> (UInt32.ofNat ((3 - (i &&& 3)) * 8))) &&& 255)).toUInt8

/-- `SHA1Final`. -/
def final (fuel : Nat) (context : Context) : Option (List UInt8) :=
  let count := finalcount context
  let context := update littleEndian context [0x80]
  (zeros littleEndian context fuel).map fun context => digest (update littleEndian context count).state

end Endian

end CommandStation.Libsha1
