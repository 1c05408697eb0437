import CommandStation.Lib.Absorb

/-!
# SHA-1

The hash of a byte string as the standard has it: the message is padded to whole blocks of 64 bytes, each
block is spread into a schedule of eighty words, and eighty rounds over five working variables are added to
the state.
-/

namespace CommandStation.Lib.Sha1

/-! ## Words -/

/-- A word shifted round to the left. -/
def rotl (x : UInt32) (n : UInt32) : UInt32 := x <<< n ||| x >>> (32 - n)

/-- A word of four bytes, the first of them the highest. -/
def word (b0 b1 b2 b3 : UInt8) : UInt32 :=
  b0.toUInt32 <<< 24 ||| b1.toUInt32 <<< 16 ||| b2.toUInt32 <<< 8 ||| b3.toUInt32

/-- The word at place `t` of a block. -/
def wordAt (block : List UInt8) (t : Nat) : UInt32 :=
  word (block.getD (4 * t) 0) (block.getD (4 * t + 1) 0) (block.getD (4 * t + 2) 0)
    (block.getD (4 * t + 3) 0)

/-- The four bytes of a word, the highest first. -/
def bytes (x : UInt32) : List UInt8 :=
  [(x >>> 24).toUInt8, (x >>> 16).toUInt8, (x >>> 8).toUInt8, x.toUInt8]

/-! ## One block -/

/-- The schedule of a block. -/
def schedule (block : List UInt8) (t : Nat) : UInt32 :=
  if t < 16 then wordAt block t
  else rotl (schedule block (t - 3) ^^^ schedule block (t - 8) ^^^ schedule block (t - 14) ^^^
    schedule block (t - 16)) 1

def ch (x y z : UInt32) : UInt32 := (x &&& y) ^^^ (~~~x &&& z)

def parity (x y z : UInt32) : UInt32 := x ^^^ y ^^^ z

def maj (x y z : UInt32) : UInt32 := (x &&& y) ^^^ (x &&& z) ^^^ (y &&& z)

/-- The function of round `t`. -/
def f (t : Nat) : UInt32 → UInt32 → UInt32 → UInt32 :=
  if t < 20 then ch else if t < 40 then parity else if t < 60 then maj else parity

/-- The constant of round `t`. -/
def k (t : Nat) : UInt32 :=
  if t < 20 then 0x5A827999 else if t < 40 then 0x6ED9EBA1
  else if t < 60 then 0x8F1BBCDC else 0xCA62C1D6

/-- The five words, those of the state and the working variables. -/
@[ext] structure Words where
  a : UInt32
  b : UInt32
  c : UInt32
  d : UInt32
  e : UInt32
deriving DecidableEq, Repr

namespace Words

def initial : Words := ⟨0x67452301, 0xEFCDAB89, 0x98BADCFE, 0x10325476, 0xC3D2E1F0⟩

instance : Add Words :=
  ⟨fun x y => ⟨x.a + y.a, x.b + y.b, x.c + y.c, x.d + y.d, x.e + y.e⟩⟩

theorem add_def (x y : Words) :
    x + y = ⟨x.a + y.a, x.b + y.b, x.c + y.c, x.d + y.d, x.e + y.e⟩ :=
  rfl

/-- Round `t`, with the word of the schedule for it. -/
def round (t : Nat) (word : UInt32) (x : Words) : Words where
  a := rotl x.a 5 + f t x.b x.c x.d + x.e + k t + word
  b := x.a
  c := rotl x.b 30
  d := x.c
  e := x.d

/-- The working variables when `t` rounds are done. -/
def rounds (block : List UInt8) (x : Words) : Nat → Words
  | 0 => x
  | t + 1 => round t (schedule block t) (rounds block x t)

def bytes (x : Words) : List UInt8 :=
  Sha1.bytes x.a ++ Sha1.bytes x.b ++ Sha1.bytes x.c ++ Sha1.bytes x.d ++ Sha1.bytes x.e

@[simp] theorem bytes_length (x : Words) : x.bytes.length = 20 := rfl

end Words

def compress (x : Words) (block : List UInt8) : Words := x + x.rounds block 80

/-! ## Messages -/

/-- The length of a message in bits, in eight bytes. -/
def lengthBytes (n : Nat) : List UInt8 :=
  bytes (UInt32.ofNat (8 * n / 4294967296)) ++ bytes (UInt32.ofNat (8 * n))

/-- The zeros that bring a message with its marker to eight bytes before the end of a block. -/
def zeros (n : Nat) : List UInt8 := List.replicate ((119 - n % 64) % 64) 0

/-- A message with its marker, the zeros and the length. -/
def padded (message : List UInt8) : List UInt8 :=
  message ++ 0x80 :: zeros message.length ++ lengthBytes message.length

/-- The hash of a message. -/
def hash (message : List UInt8) : List UInt8 :=
  (absorbed 64 compress Words.initial (padded message)).bytes

@[simp] theorem lengthBytes_length (n : Nat) : (lengthBytes n).length = 8 := rfl

@[simp] theorem hash_length (message : List UInt8) : (hash message).length = 20 := rfl

/-- A padded message has whole blocks. -/
theorem padded_length (message : List UInt8) : (padded message).length % 64 = 0 := by
  simp [padded, zeros]
  omega

theorem schedule_of_lt {block : List UInt8} {t : Nat} (h : t < 16) :
    schedule block t = wordAt block t := by
  rw [schedule, if_pos h]

theorem schedule_add (block : List UInt8) (t : Nat) :
    schedule block (t + 16) = rotl (schedule block (t + 13) ^^^ schedule block (t + 8) ^^^
      schedule block (t + 2) ^^^ schedule block t) 1 := by
  rw [schedule, if_neg (by omega)]
  congr 2

end CommandStation.Lib.Sha1
