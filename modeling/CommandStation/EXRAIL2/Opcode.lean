import Mathlib.Data.Nat.Notation

/-!
# Opcodes

The instructions of an EXRAIL script, in the order of `enum OPCODE` of a build with programming
support. The order matters: all opcodes above `IF_TYPE_OPCODES` are conditions, which is how
`skipIfBlock` knows them.
-/

namespace CommandStation

inductive Opcode where
  | throw | close | toggleTurnout | fwd | rev | speed | speedup | slowdown | speedRel
  | invertDirection | momentum | reserve | free | at_ | after | afteroverload | autostart | atgte
  | atlt | attimeout1 | attimeout2 | latch | unlatch | set | reset | blink | endif | else_ | delay
  | delaymins | delayms | randwait | fon | foff | xfon | xfoff | ftoggle | xftoggle | xfwd | xrev
  | red | green | amber | drive | servo | signal | turnout | waitfor | pad | follow | call
  | return_ | join | unjoin | readLoco1 | readLoco2 | pom | start | startShared | startSend
  | setloco | setfreq | sendloco | forget | pause | resume | poweroff | poweron | onclose | onthrow
  | servoturnout | pinturnout | print | dccactivate | aspect | onactivate | ondeactivate | roster
  | killall | route | automation | sequence | endtask | endexrail | setTrack | setPower | onred
  | onamber | ongreen | onchange | onclocktime | ontime | ttaddposition | dccturntable
  | exttturntable | onrotate | rotate | waitfortt | lcc | lccx | onlcc | acon | acof | onacon
  | onacof | onoverload | onrailsyncon | onrailsyncoff | routeActive | routeInactive | routeHidden
  | routeDisabled | stash | clearStash | clearAllStash | pickupStash | clearAnyStash | onbutton
  | onsensor | onvpSensor | neopixel | onblockenter | onblockexit | estopall | xpom | bitmapAnd
  | bitmapOr | bitmapXor | bitmapInc | bitmapDec | onbitmap | freeall | waitWhileRed | saveSpeed
  | restoreSpeed | xsaveSpeed | xrestoreSpeed | randomCall | randomFollow | consist | ifTypeOpcodes
  | ifred | ifamber | ifgreen | ifgte | iflt | iftimeout | if_ | ifnot | ifrandom | ifreserve
  | ifclosed | ifthrown | ifre | ifloco | ifttposition | ifstash | ifstashedHere | ifbitmapAll
  | ifbitmapAny | ifRouteActive | ifRouteInactive | ifRouteHidden | ifRouteDisabled
  deriving DecidableEq, Repr

namespace Opcode

/-- The byte an opcode has in the script. -/
def toByte (op : Opcode) : UInt8 := UInt8.ofNat op.ctorIdx

/-- The opcode of a byte, `none` for a byte that is above the last one. -/
def ofByte (b : UInt8) : Option Opcode := if b ≤ ifRouteDisabled.toByte then some (ofNat b.toNat) else none

@[simp] theorem ofByte_toByte (op : Opcode) : ofByte op.toByte = some op := by
  cases op <;> rfl

theorem toByte_injective {op op' : Opcode} (h : op.toByte = op'.toByte) : op = op' := by
  have := congrArg ofByte h
  simpa using this

theorem ctorIdx_ofNat {n : Nat} (h : n ≤ ifRouteDisabled.ctorIdx) : (ofNat n).ctorIdx = n := by
  have hall : ∀ n < ifRouteDisabled.ctorIdx + 1, (ofNat n).ctorIdx = n := by decide +kernel
  exact hall n (Nat.lt_succ_of_le h)

theorem toByte_of_ofByte {b : UInt8} {op : Opcode} (h : ofByte b = some op) : op.toByte = b := by
  unfold ofByte at h
  split at h
  · next hle =>
    obtain rfl := Option.some.inj h
    rw [toByte, ctorIdx_ofNat (UInt8.le_iff_toNat_le.mp hle)]
    exact UInt8.ofNat_toNat
  · cases h

/-- `opcode > IF_TYPE_OPCODES`: the opcode opens a block. -/
def opensIf (b : UInt8) : Bool := ifTypeOpcodes.toByte < b

end Opcode

end CommandStation
