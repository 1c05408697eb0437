import CommandStation.DCCACK.Basic

/-!
# The ack programs

The programs of `DCC.cpp` and the functions that start them. An `int` argument is an `Int` here.
-/

namespace CommandStation

namespace AckProgram

open AckOp

def writeBit0 : List AckOp := [
  baseline,
  w0, wack,
  v0, wack,  -- validate bit is 0
  itc1,      -- if acked, callback(1)
  callfail]  -- callback (-1)

def writeBit1 : List AckOp := [
  baseline,
  w1, wack,
  v1, wack,  -- validate bit is 1
  itc1,      -- if acked, callback(1)
  callfail]  -- callback (-1)

def verifyBit0 : List AckOp := [
  baseline,
  v0, wack,  -- validate bit is 0
  itc0,      -- if acked, callback(0)
  v1, wack,  -- validate bit is 1
  itc1,
  callfail]  -- callback (-1)

def verifyBit1 : List AckOp := [
  baseline,
  v1, wack,  -- validate bit is 1
  itc1,      -- if acked, callback(1)
  v0, wack,
  itc0,
  callfail]  -- callback (-1)

def readBit : List AckOp := [
  baseline,
  v1, wack,  -- validate bit is 1
  itc1,      -- if acked, callback(1)
  v0, wack,  -- validate bit is zero
  itc0,      -- if acked callback 0
  callfail]  -- bit not readable

def writeByte : List AckOp := [
  baseline,
  wb, wack, itc1,  -- Write and callback(1) if ACK
  -- handle decoders that dont ack a write
  vb, wack, itc1,  -- validate byte and callback(1) if correct
  callfail]        -- callback (-1)

/-- Read and merge `n` bits. -/
def mergeBits : Nat → List AckOp
  | 0 => []
  | n + 1 => v0 :: wack :: merge :: mergeBits n

/-- Each bit is validated against 0 and the result inverted in MERGE. This is because there tend to be
more zeros in cv values than ones. There is no need for one validation as entire byte is validated at
the end. -/
def readByte : List AckOp := [
  startmerge,          -- clear bit and byte values ready for merge pass
  v0, wack, merge,     -- read and merge first tested bit (7)
  itskip,              -- do small excursion if there was no ack
    setbit 7,
    v1, wack, nakfail, -- test if there is an ack on the inverse of this bit (7)
    setbit 6,          -- and abort whole test if not else continue with bit (6)
  skiptarget] ++
  mergeBits 7

def verifyByte : List AckOp := [
  baseline,
  biv,         -- ackManagerByte initial value
  vb, wack,    -- validate byte
  itcb] ++     -- if ok callback value
  readByte ++ [
  vb, wack, itcbv,  -- verify merged byte and return it if acked ok - with retry report
  callfail]

def readCv : List AckOp := [
  baseline] ++
  readByte ++ [
  vb, wack, itcb,  -- verify merged byte and return it if acked ok
  callfail]        -- verification failed

/-- The loco id, regardless of a consist. -/
def locoId : List AckOp := [
  setcv 29,
  setbit 5,
  v0, wack, itskip,  -- Skip to SKIPTARGET if bit 5 of CV29 is zero
  -- Long locoid
  setcv 17,          -- CV 17 is part of locoid
  startmerge] ++
  mergeBits 8 ++ [
  vb, wack, nakfail, -- verify merged byte and return -1 it if not acked ok
  stashlocoid,       -- keep stashed cv 17 for later
  -- Read 2nd part from CV 18
  setcv 18,
  startmerge] ++
  mergeBits 8 ++ [
  vb, wack, nakfail, -- verify merged byte and return -1 it if not acked ok
  combinelocoid,     -- Combile byte with stash to make long locoid and callback
  -- ITSKIP Skips to here if CV 29 bit 5 was zero. so read CV 1 and return that
  skiptarget,
  setcv 1,
  startmerge,
  setbit 6] ++       -- skip over first bit as we know its a zero
  mergeBits 7 ++ [
  vb, wack, itcb,    -- verify merged byte and callback
  callfail]

/-- The consist id of CVs 20 and 19, if cv20 is not zero. -/
def extendedConsist : List AckOp := [
  -- first check cv20 for extended addressing
  setcv 20,
  setbyte 0,
  vb, wack, itskip,  -- skip past extended section if cv20 is zero
  -- read cv20 and 19 and merge
  startmerge] ++     -- Setup to read cv 20
  mergeBits 8 ++ [
  vb, wack, nakskip, -- bad read of cv20, assume its 0
  bad20skip,         -- detect invalid cv20 value and ignore
  stashlocoid,       -- keep cv 20 until we have cv19 as well.
  setcv 19,
  startmerge] ++     -- Setup to read cv 19
  mergeBits 8 ++ [
  vb, wack, nakfail, -- cant recover if cv 19 unreadable
  combine1920,       -- Combile byte with stash and callback
  -- end of advanced 20,19 check
  skiptarget]

/-- Returns loco id or consist id or -1 on failure. -/
def locoDriveaway : List AckOp := [
  baseline] ++
  extendedConsist ++ [
  setcv 19,           -- CV 19 is consist setting
  setbyte 0,
  vb, wack, itskip,   -- ignore consist if cv19 is zero (no consist)
  setbyte 128,
  vb, wack, itskip,   -- ignore consist if cv19 is 128 (no consist, direction bit set)
  startmerge] ++      -- Setup to read cv 19
  mergeBits 8 ++ [
  vb, wack, itcb7,    -- return 7 bits only, No_ACK means CV19 not supported so ignore it
  skiptarget] ++      -- continue here if CV 19 is zero or fails all validation
  locoId

/-- Returns loco id regardless of consist. -/
def locoReadId : List AckOp := [baseline] ++ locoId

/-- Returns consist id or -1 on failure. -/
def locoReadConsist : List AckOp := [
  baseline] ++
  extendedConsist ++ [
  setcv 19,           -- CV 19 is consist setting
  setbyte 0,
  vb, wack, itc0,     -- rerturn 0 if cv19 is zero (no consist)
  setbyte 128,
  vb, wack, itc0,     -- return 0 if cv19 is 128 (no consist, direction bit set)
  startmerge] ++      -- Setup to read cv 19
  mergeBits 8 ++ [
  vb, wack, itcb7,    -- return 7 bits only, No_ACK means CV19 not supported so ignore it
  callfail]           -- return -1 if cv19 wont verify

/-- Clear consist CV 19,20. -/
def clearConsist : List AckOp := [
  setcv 20,
  setbyte 0,
  wb, wack,  -- ignore dedcoder without cv20 support
  setcv 19,
  setbyte 0,
  wb, wack]  -- ignore dedcoder without cv19 support

def shortLocoId : List AckOp := [
  baseline] ++
  clearConsist ++ [
  -- Turn off long address flag
  setcv 29,
  setbit 5,
  w0, wack,
  v0, wack, nakfail,
  setcv 1,
  setbytel,        -- low byte of word
  wb, wack, itc1,  -- If ACK, we are done - callback(1) means Ok
  vb, wack, itc1,  -- Some decoders do not ack and need verify
  callfail]

/-- The 20,19 values are already calculated. -/
def consistId : List AckOp := [
  baseline,
  setcv 20,
  setbyteh,          -- high byte to CV 20
  wb, wack, itskip,
  failIfNonzeroNak,  -- fail if writing long address to decoder that cant support it
  skiptarget,
  setcv 19,
  setbytel,          -- low byte of word
  wb, wack, itc1,    -- If ACK, we are done - callback(1) means Ok
  vb, wack, itc1,    -- Some decoders do not ack and need verify
  callfail]

def longLocoId : List AckOp := [
  baseline] ++
  clearConsist ++ [
  -- Turn on long address flag cv29 bit 5
  setcv 29,
  setbit 5,
  w1, wack,
  v1, wack, nakfail,
  -- Store high byte of address in cv 17
  setcv 17,
  setbyteh,         -- high byte of word
  wb, wack,         -- do write
  itskip,           -- if ACK, jump to SKIPTARGET
    vb, wack,       -- try verify instead
    itskip,         -- if ACK, jump to SKIPTARGET
      callfail,     -- if still here, fail
  skiptarget,
  -- store
  setcv 18,
  setbytel,         -- low byte of word
  wb, wack, itc1,   -- If ACK, we are done - callback(1) means Ok
  vb, wack, itc1,   -- Some decoders do not ack and need verify
  callfail]

/-- All of them. -/
def all : List (List AckOp) := [
  writeBit0, writeBit1, verifyBit0, verifyBit1, readBit, writeByte, verifyByte, readCv,
  locoDriveaway, locoReadId, locoReadConsist, shortLocoId, consistId, longLocoId]

end AckProgram

namespace DCC

variable {κ : Type}

/-- `callback(-1)` instead of a program. -/
def refuse (callback : κ) (s : DCCACK κ) : DCCACK κ :=
  { s with calls := s.calls ++ [(callback, -1)] }

def writeCVByte (cv : UInt16) (byteValue : UInt8) (callback : κ) (s : DCCACK κ) : DCCACK κ :=
  s.setup cv byteValue AckProgram.writeByte callback

def writeCVBit (cv : UInt16) (bitNum : UInt8) (bitValue : Bool) (callback : κ) (s : DCCACK κ) :
    DCCACK κ :=
  if 8 ≤ bitNum then refuse callback s
  else s.setup cv bitNum (if bitValue then AckProgram.writeBit1 else AckProgram.writeBit0) callback

def verifyCVByte (cv : UInt16) (byteValue : UInt8) (callback : κ) (s : DCCACK κ) : DCCACK κ :=
  s.setup cv byteValue AckProgram.verifyByte callback

def verifyCVBit (cv : UInt16) (bitNum : UInt8) (bitValue : Bool) (callback : κ) (s : DCCACK κ) :
    DCCACK κ :=
  if 8 ≤ bitNum then refuse callback s
  else
    s.setup cv bitNum (if bitValue then AckProgram.verifyBit1 else AckProgram.verifyBit0) callback

def readCVBit (cv : UInt16) (bitNum : UInt8) (callback : κ) (s : DCCACK κ) : DCCACK κ :=
  if 8 ≤ bitNum then refuse callback s
  else s.setup cv bitNum AckProgram.readBit callback

def readCV (cv : UInt16) (callback : κ) (s : DCCACK κ) : DCCACK κ :=
  s.setup cv 0 AckProgram.readCv callback

def getDriveawayLocoId (callback : κ) (s : DCCACK κ) : DCCACK κ :=
  s.setup 0 0 AckProgram.locoDriveaway callback

def getLocoId (callback : κ) (s : DCCACK κ) : DCCACK κ :=
  s.setup 0 0 AckProgram.locoReadId callback

def getConsistId (callback : κ) (s : DCCACK κ) : DCCACK κ :=
  s.setup 0 0 AckProgram.locoReadConsist callback

def setLocoId (id : Int) (callback : κ) (s : DCCACK κ) : DCCACK κ :=
  if id < 1 ∨ 10239 < id then refuse callback s  -- 0x27FF according to standard
  else if id ≤ highestShortAddr then s.setupWord (.ofInt id) AckProgram.shortLocoId callback
  else s.setupWord (.ofInt id ||| 0xc000) AckProgram.longLocoId callback

def setConsistId (id : Int) (reverse : Bool) (callback : κ) (s : DCCACK κ) : DCCACK κ :=
  if id < 0 ∨ 10239 < id then refuse callback s  -- 0x27FF according to standard
  else
    let (cv20, cv19) : UInt8 × UInt8 :=
      if id ≤ highestShortAddr then (0, .ofInt id) else (.ofInt (id / 100), .ofInt (id % 100))
    let cv19 := if reverse then cv19 ||| 0x80 else cv19
    s.setupWord ((cv20.toUInt16 <<< 8) ||| cv19.toUInt16) AckProgram.consistId callback

end DCC

end CommandStation
