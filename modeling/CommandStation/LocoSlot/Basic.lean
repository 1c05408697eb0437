import CommandStation.Lib.Program
import CommandStation.Lib.Links
import Mathlib.Logic.Function.Basic

/-!
# The loco table

`LocoSlot` keeps one slot for each loco in use, on the list that starts at `firstSlot`, and the
slots of forgotten locos on the list that starts at `recycler`. Both lists are threaded through the
same `next` field.

The model follows `LocoSlot.cpp` on the level of pointers. The heap is a memory of slots with the
set of addresses that are allocated; reading or writing through a null pointer or a pointer to a
deleted slot is a `Fault`, and so is a loop that does not end. `new` hands out an address that was
never used before: as no program of this development follows a pointer to a deleted slot, it makes
no difference that a real allocator would use the memory again. Memory itself does not run out;
`MAX_LOCOS` is what bounds the table.
-/

namespace CommandStation

open CommandStation.Lib

abbrev Addr := Nat

/-- `MOMENTUM_USE_DEFAULT` -/
def momentumUseDefault : UInt8 := 255

/-- `class LocoSlot`: the members of one slot. -/
structure LocoSlot where
  functions : UInt32
  snifferFunctions : UInt32
  momentumBase : UInt32
  next : Option Addr
  consistLead : Option Addr
  consistNext : Option Addr
  loco : UInt16
  targetSpeed : UInt8
  speedCode : UInt8
  snifferSpeedCode : UInt8
  savedSpeedCode : UInt8
  momentumA : UInt8
  momentumD : UInt8
  groupFlags : UInt8
  consistReverse : Bool
  deriving DecidableEq, Repr

namespace LocoSlot

def isConsistLead (slot : LocoSlot) : Bool := slot.consistNext.isSome && slot.consistLead.isNone

def isConsistFollower (slot : LocoSlot) : Bool := slot.consistLead.isSome

def setSpeedCode (slot : LocoSlot) (speedCode : UInt8) : LocoSlot :=
  { slot with speedCode := speedCode }

def setTargetSpeed (slot : LocoSlot) (targetSpeed : UInt8) : LocoSlot :=
  { slot with targetSpeed := targetSpeed }

def setMomentumBase (slot : LocoSlot) (momentumBase : UInt32) : LocoSlot :=
  { slot with momentumBase := momentumBase }

end LocoSlot

/-- What goes wrong when the code misuses a pointer. -/
inductive Fault where
  | nullPointer
  | dangling
  | endlessLoop
  deriving DecidableEq, Repr

/-- The heap of slots and the statics of `LocoSlot`. `fresh` is the next address `new` returns,
`maxLocos` is `MAX_LOCOS`. -/
structure LocoTable where
  mem : Addr → LocoSlot
  live : Addr → Bool
  fresh : Addr
  firstSlot : Option Addr
  recycler : Option Addr
  slotCount : Nat
  chainModified : Bool
  maxLocos : Nat

/-- A slot from `new`: the constructor is empty, `prepare` sets the members. -/
def newLocoSlot : LocoSlot where
  functions := 0
  snifferFunctions := 0
  momentumBase := 0
  next := none
  consistLead := none
  consistNext := none
  loco := 0
  targetSpeed := 0
  speedCode := 0
  snifferSpeedCode := 0
  savedSpeedCode := 0
  momentumA := 0
  momentumD := 0
  groupFlags := 0
  consistReverse := false

abbrev Slots (α : Type) : Type := Prog LocoTable Fault α

namespace LocoTable

/-- The table at start-up. -/
def init (maxLocos : Nat) : LocoTable where
  mem _ := newLocoSlot
  live _ := false
  fresh := 0
  firstSlot := none
  recycler := none
  slotCount := 0
  chainModified := false
  maxLocos := maxLocos

/-- The table with slot `a` rewritten. -/
def write (t : LocoTable) (a : Addr) (slot : LocoSlot) : LocoTable :=
  { t with mem := Function.update t.mem a slot }

end LocoTable

/-! ## Pointers -/

/-- The pointer is used: it must not be null. -/
def nonNull (p : Option Addr) : Slots Addr :=
  match p with
  | some a => pure a
  | none => throw .nullPointer

/-- The slot at an address. -/
def readSlot (a : Addr) : Slots LocoSlot := do
  let t ← get
  if t.live a then pure (t.mem a) else throw .dangling

/-- Write some members of the slot at an address. -/
def writeSlot (a : Addr) (f : LocoSlot → LocoSlot) : Slots Unit := do
  let t ← get
  if t.live a then set (t.write a (f (t.mem a))) else throw .dangling

/-- `slot->next = p` -/
def setNext (a : Addr) (p : Option Addr) : Slots Unit :=
  writeSlot a fun slot => { slot with next := p }

/-- A loop along pointers. No list in the heap is longer than the number of addresses handed
out. -/
def follow {β : Type} (body : Addr → β → Slots (Option Addr × β)) (start : Option Addr) (b : β) :
    Slots β := do
  let t ← get
  loop body .endlessLoop t.fresh start b

/-! ## The operations -/

namespace LocoSlot

/-- `new LocoSlot()` -/
def new : Slots Addr := do
  let t ← get
  set { t with
    mem := Function.update t.mem t.fresh newLocoSlot
    live := Function.update t.live t.fresh true
    fresh := t.fresh + 1 }
  pure t.fresh

/-- `delete(slot)` -/
def delete (a : Addr) : Slots Unit := do
  let t ← get
  if t.live a then set { t with live := Function.update t.live a false } else throw .dangling

/-- What `prepare` writes into a slot. -/
def prepared (slot : LocoSlot) (locoId : UInt16) (firstSlot : Option Addr) : LocoSlot :=
  { slot with
    loco := locoId
    speedCode := 128          -- default direction forward
    groupFlags := 0
    functions := 0
    momentumBase := 0
    momentumA := momentumUseDefault
    momentumD := momentumUseDefault
    targetSpeed := 128
    savedSpeedCode := 0
    snifferSpeedCode := 128   -- default direction forward
    snifferFunctions := 0
    consistLead := none
    consistNext := none
    consistReverse := false
    -- Add to start of list
    next := firstSlot }

/-- `LocoSlot::prepare` -/
def prepare (this : Addr) (locoId : UInt16) : Slots Unit := do
  let t ← get
  writeSlot this fun slot => slot.prepared locoId t.firstSlot
  modify fun t => { t with firstSlot := some this, chainModified := true }

/-- The search loops of `getSlot` and `forget`: `for (slot=firstSlot; slot; slot=slot->next)` until
a slot meets the test. -/
def search (test : LocoSlot → Bool) : Slots (Option Addr) := do
  let t ← get
  follow (fun a _ => do
    let slot ← readSlot a
    if test slot then pure (none, some a) else pure (slot.next, none)) t.firstSlot none

/-- `LocoSlot::getSlot` -/
def getSlot (locoId : UInt16) (autoCreate : Bool) : Slots (Option Addr) := do
  if locoId = 0 then pure none
  else
    let found ← search fun slot => slot.loco == locoId
    if found.isSome then pure found
    else if !autoCreate then pure none
    else
      let t ← get
      match t.recycler with
      | some a =>
        let slot ← readSlot a
        modify fun t => { t with recycler := slot.next }
        -- slot will be rechained into list in prepare
        prepare a locoId
        pure (some a)
      | none =>
        if t.slotCount ≥ t.maxLocos then pure none  -- Too many locos
        else
          let a ← new
          modify fun t => { t with slotCount := t.slotCount + 1 }
          prepare a locoId
          pure (some a)

/-- The first half of `forget`: remove from list. -/
def unlink (this : Addr) : Slots Unit := do
  let slot ← readSlot this
  let t ← get
  if t.firstSlot = some this then
    modify fun t => { t with firstSlot := slot.next }
  else
    let prev ← search fun prev => prev.next == some this
    match prev with
    | some b => setNext b slot.next
    | none => pure ()

/-- The second half of `forget`: add to recycler. -/
def recycle (this : Addr) : Slots Unit := do
  let t ← get
  setNext this t.recycler
  modify fun t => { t with recycler := some this, chainModified := true }

/-- `LocoSlot::forget` -/
def forget (this : Addr) : Slots Unit := do
  unlink this
  recycle this

/-- One of the two loops of `forgetAll`: every slot of the list is deleted. -/
def deleteAll (start : Option Addr) : Slots Unit :=
  follow (fun a _ => do
    let slot ← readSlot a
    delete a
    pure (slot.next, ())) start ()

/-- `LocoSlot::forgetAll` -/
def forgetAll : Slots Unit := do
  let t ← get
  deleteAll t.firstSlot
  modify fun t => { t with firstSlot := none }
  let t ← get
  deleteAll t.recycler
  modify fun t => { t with recycler := none, chainModified := true, slotCount := 0 }

end LocoSlot

end CommandStation
