import CommandStation.DCC.Basic

/-!
# Decoding sniffed packets

On the ESP32 the station can listen to the packets of another one: `DCCDecoder::parse` turns them
into throttle, function and accessory commands.

`data` of a packet is the memory behind `p.data()`: only the first `len` bytes of it belong to the
packet, but `parse` does not compare with `len` when it looks at an instruction.
-/

namespace CommandStation

open CommandStation.Lib

/-- `class DCCPacket` -/
structure DCCPacket where
  len : Nat
  data : Nat → UInt8

namespace DCCEXParser

/-- The loop of `funcmap` from function `i` on, `n` turns of it. -/
def funcmapFrom (cab : Int16) (i : Int16) : Nat → UInt8 → Dcc Bool
  | 0, _ => pure true
  | n + 1, value => do
    let done ← DCC.setFn cab.toInt i (value &&& 1 != 0)
    if done then funcmapFrom cab (i + 1) n (value >>> 1) else pure false

/-- `DCCEXParser::funcmap`: functions `fstart` to `fstop` from the bits of `value`. -/
def funcmap (cab : Int16) (value fstart fstop : UInt8) : Dcc Bool :=
  funcmapFrom cab (Int16.ofNat fstart.toNat) (fstop.toNat + 1 - fstart.toNat) value

end DCCEXParser

namespace DCCDecoder

/-- `checksum`: the XOR of all bytes of the packet. -/
def checksum (p : DCCPacket) : UInt8 :=
  (List.range p.len).foldl (fun sum n => sum ^^^ p.data n) 0

/-- `DCCDecoder::updateLoco`: returns false only if loco existed but nothing was changed. What
`getSlot` returns is used without a check. -/
def updateLoco (loco : UInt16) (speedCode : UInt8) : Dcc Bool := onSlots do
  if loco = 0 then pure true  -- its a broadcast
  else
    let slot ← LocoSlot.getSlot loco true
    let a ← nonNull slot
    let slot ← readSlot a
    if speedCode = slot.snifferSpeedCode then pure false  -- nothing changed
    else
      writeSlot a fun slot => { slot with snifferSpeedCode := speedCode }
      pure true

/-- The sniffed functions with the four bits of `func` put in at `shift`; the light is bit 4 of
the first group. -/
def putFunctions (previous : UInt32) (func : UInt8) (shift : Nat) : UInt32 :=
  let light : UInt32 := (func >>> 4).toUInt32 &&& 1
  let four : UInt32 := func.toUInt32 &&& 0xF
  let mask : UInt32 := 0xF
  let cleared := if shift = 1 then previous &&& ~~~(1 : UInt32) ||| light else previous
  cleared &&& ~~~(mask <<< UInt32.ofNat shift) ||| four <<< UInt32.ofNat shift

/-- `DCCDecoder::updateFunc`, again without a check of the slot. -/
def updateFunc (loco : UInt16) (func : UInt8) (shift : Nat) : Dcc Bool := onSlots do
  let slot ← LocoSlot.getSlot loco true
  let a ← nonNull slot
  let slot ← readSlot a
  if putFunctions slot.snifferFunctions func shift = slot.snifferFunctions then pure false
  else
    writeSlot a fun slot =>
      { slot with snifferFunctions := putFunctions slot.snifferFunctions func shift }
    pure true

/-- A speed instruction: the new speed is passed on if it differs from the last one sniffed. -/
def speedChange (addr : UInt16) (sniffed speed : UInt8) (direction : Bool) (now : UInt32) :
    Dcc Bool := do
  let changed ← updateLoco addr sniffed
  if changed then
    let _ ← DCC.setThrottle addr speed direction now
    pure true
  else pure false

/-- A function instruction: `fstart` to `fstop` are passed on if they differ from the last ones. -/
def functionChange (addr : UInt16) (func : UInt8) (shift : Nat) (value fstart fstop : UInt8) :
    Dcc Bool := do
  let changed ← updateFunc addr func shift
  if changed then
    let _ ← DCCEXParser.funcmap addr.toInt16 value fstart fstop
    pure true
  else pure false

/-- The speed of a 28 step instruction on the scale of 128 steps. -/
def speedOf28 (instr0 : UInt8) : UInt8 :=
  let speed := instr0 &&& 0x0F  -- first only look at 4 bits
  if 1 < speed then
    -- neither stop nor emergency stop, recalculate speed
    let reshuffled := (instr0 &&& 0x0F).toNat * 2 + (instr0 >>> 4 &&& 1).toNat
    UInt8.ofInt (((reshuffled : Int) - 3) * 9 / 2)
  else speed

/-- The functions F0 to F4 of an instruction of group 1 in order. -/
def normalized (instr0 : UInt8) : UInt8 :=
  let functions : UInt8 := instr0 <<< 1
  let light : UInt8 := instr0 >>> 4
  functions &&& 0x1E ||| light &&& 0x01

/-- The `switch` over the instructions for a mobile decoder. -/
def mobile (addr : UInt16) (instr0 instr1 : UInt8) (now : UInt32) : Dcc Bool := do
  let group := instr0 &&& 0xE0
  if group = 0x20 then
    -- 001x-xxxx Extended commands
    if instr0 = 0x3F then  -- 128 speed steps
      speedChange addr instr1 (instr1 &&& 0x7F) (instr1 &&& 0x80 != 0) now
    else pure false
  else if group = 0x40 ∨ group = 0x60 then
    -- 01xx-xxxx 28 (or 14 step) speed we assume 28
    speedChange addr (instr0 &&& 0x3F) (speedOf28 instr0) (instr0 &&& 0x20 != 0) now
  else if group = 0x80 then
    -- 100x-xxxx Function group 1
    functionChange addr instr0 1 (normalized instr0) 0 4
  else if group = 0xA0 then
    -- 101x-xxxx Function group 3 and 2
    if instr0 &&& 0x10 ≠ 0 then functionChange addr instr0 5 instr0 5 8
    else functionChange addr instr0 9 instr0 9 12
  else if instr0 = 0xDE then
    -- F13-F20 Function Control
    let _ ← functionChange addr instr1 13 instr1 13 16
    functionChange addr (instr1 >>> 4) 17 (instr1 >>> 4) 17 20
  else if instr0 = 0xDF then
    -- F21-F28 Function Control
    let _ ← functionChange addr instr1 21 instr1 21 24
    functionChange addr (instr1 >>> 4) 25 (instr1 >>> 4) 25 28
  else pure false

/-- The part for accessory decoders; `addr` are the low address bits of the first byte. -/
def accessory (p : DCCPacket) (addr : UInt8) (instr0 : UInt8) : Dcc Bool := do
  -- all accessory PoM packets are of length 6 and otherwise identical
  if instr0 &&& 0x80 ≠ 0 ∧ p.len = 3 then
    DCC.setAccessory ((~~~instr0 &&& 0x70).toNat * 4 + addr.toNat) ((instr0 &&& 0x06) >>> 1)
      (instr0 &&& 0x01 != 0) ((instr0 &&& 0x08) >>> 3)
    pure true
  else pure false

/-- The packet gets past the first tests of `parse`. -/
def accepts (p : DCCPacket) : Bool :=
  p.data 0 != 0xFF && 3 ≤ p.len && p.len ≤ 6 && checksum p == 0

/-- `DCCDecoder::parse` -/
def parse (p : DCCPacket) (now : UInt32) : Dcc Bool := do
  let s ← get
  let d0 := p.data 0
  if !s.decoderActive then pure false
  else if !accepts p then pure false
  else if d0 &&& 0x80 = 0 then
    -- bit7 == 0 => loco short addr; do not care about loco addr 0 broadcasts
    if d0 = 0 then pure false else mobile d0.toUInt16 (p.data 1) (p.data 2) now
  else if d0 &&& 0x40 ≠ 0 then
    -- bit7 == 1 and bit6 == 1 => loco long addr
    let addr := 256 * (d0 &&& 0x3F).toUInt16 + (p.data 1).toUInt16
    if addr = 0 then pure false else mobile addr (p.data 2) (p.data 3) now
  else accessory p (d0 &&& 0x3F) (p.data 1)

end DCCDecoder

end CommandStation
