import CommandStation.LocoSlot.Basic

/-!
# Consists

A consist is a lead loco and the followers that are driven with it. The slot of the lead starts a
chain through `consistNext`; the slots of the followers point back through `consistLead`.
`DCCConsist` builds, extends and deletes these chains.

`parse` answers on a stream: the text it sends is part of its result here.
-/

namespace CommandStation.DCCConsist

open CommandStation.Lib

/-- The highest loco id a consist may have. -/
def highestLocoId : UInt16 := 10239

/-- `abs(p)` as a loco id: a negative number is a loco that runs reversed. -/
def locoIdOf (p : Int16) : UInt16 := UInt16.ofNat p.toInt.natAbs

/-! ## Members of slots -/

/-- `slot->setConsistLead(lead)` -/
def setConsistLead (a : Addr) (lead : Option Addr) : Slots Unit :=
  writeSlot a fun slot => { slot with consistLead := lead }

/-- `slot->setConsistNext(next)` -/
def setConsistNext (a : Addr) (next : Option Addr) : Slots Unit :=
  writeSlot a fun slot => { slot with consistNext := next }

/-- `slot->setConsistReverse(reverse)` -/
def setConsistReverse (a : Addr) (reverse : Bool) : Slots Unit :=
  writeSlot a fun slot => { slot with consistReverse := reverse }

/-! ## Deleting a consist -/

/-- The loop of `deleteAnyConsist`: the slots of a chain lose their links. -/
def unchain (start : Option Addr) : Slots Unit :=
  follow (fun a _ => do
    let slot ← readSlot a
    setConsistLead a none
    setConsistNext a none
    setConsistReverse a false
    pure (slot.consistNext, ())) start ()

/-- `DCCConsist::deleteAnyConsist` -/
def deleteAnyConsist (locoid : Int16) : Slots Unit := do
  let slot ← LocoSlot.getSlot (locoIdOf locoid) false
  match slot with
  | none => pure ()  -- no such loco, nothing to do
  | some a =>
    let slot ← readSlot a
    unchain (if slot.isConsistLead then some a else slot.consistLead)

/-! ## Listing the consists -/

/-- One loco of a listed consist. -/
def listedLoco (slot : LocoSlot) : String :=
  if slot.consistReverse then " -" ++ toString slot.loco else " " ++ toString slot.loco

/-- The locos of the chain that starts at `start`. -/
def listChain (start : Option Addr) : Slots String :=
  follow (fun a out => do
    let slot ← readSlot a
    pure (slot.consistNext, out ++ listedLoco slot)) start ""

/-- The answer of `parse` without parameters. -/
def listConsists : Slots String := do
  let t ← get
  follow (fun a out => do
    let slot ← readSlot a
    if slot.isConsistLead then
      let locos ← listChain (some a)
      pure (slot.next, out ++ "<^" ++ locos ++ " >\n")
    else pure (slot.next, out)) t.firstSlot ""

/-! ## Building a consist -/

/-- Detect any invalid locoids or duplicates: the text of the first complaint. -/
def checkLocoIds : List Int16 → Option String
  | [] => none
  | p :: rest =>
    let locoId := locoIdOf p
    if locoId < 1 ∨ locoId > highestLocoId then
      some ("<* Invalid locoid " ++ toString p.toInt ++ " *>")
    else if rest.any fun q => locoIdOf q == locoId then
      some ("<* Duplicate locoid " ++ toString p.toInt ++ " *>")
    else checkLocoIds rest

/-- The first loco that is in a consist already. -/
def findConsisted : List Int16 → Slots (Option Int16)
  | [] => pure none
  | p :: rest => do
    let slot ← LocoSlot.getSlot (locoIdOf p) false
    match slot with
    | none => findConsisted rest
    | some a =>
      let slot ← readSlot a
      if slot.isConsistLead || slot.isConsistFollower then pure (some p)
      else findConsisted rest

/-- The loop that chains the followers in behind `prev`. What `getSlot` returns is used without a
check. -/
def chainFollowers (leadLoco : Addr) : Addr → List Int16 → Slots Unit
  | _, [] => pure ()
  | prev, p :: rest => do
    let slot ← LocoSlot.getSlot (locoIdOf p) true
    let slot ← nonNull slot
    setConsistLead slot (some leadLoco)
    setConsistReverse slot (p < 0)
    setConsistNext prev (some slot)
    chainFollowers leadLoco slot rest

/-- The end of `parse`: the consist is built. -/
def build (p : Int16) (rest : List Int16) : Slots Unit := do
  let leadLoco ← LocoSlot.getSlot (locoIdOf p) true
  let leadLoco ← nonNull leadLoco
  setConsistReverse leadLoco (p < 0)
  chainFollowers leadLoco leadLoco rest

/-- If the first loco is a consist lead, its consist is killed first. -/
def killConsistOf (p : Int16) : Slots Unit := do
  let slot ← LocoSlot.getSlot (locoIdOf p) false
  match slot with
  | none => pure ()
  | some a =>
    let slot ← readSlot a
    when slot.isConsistLead (deleteAnyConsist p)

/-- `DCCConsist::parse`: its result and what it sends to the stream. -/
def parse : List Int16 → Slots (Bool × String)
  | [] => do
    let out ← listConsists
    pure (true, out)
  | p :: rest =>
    match checkLocoIds (p :: rest) with
    | some complaint => pure (false, complaint)
    | none => do
      killConsistOf p
      if rest = [] then pure (true, "")  -- we only had to delete
      else
        let consisted ← findConsisted (p :: rest)
        match consisted with
        | some q =>
          pure (false, "<* Loco " ++ toString (locoIdOf q) ++ " in another consist *>")
        | none =>
          build p rest
          pure (true, "")

/-! ## Extending a consist -/

/-- `while (leadSlot->getConsistLead()) leadSlot = leadSlot->getConsistLead();` -/
def backUpToLead (a : Addr) : Slots Addr :=
  follow (fun b _ => do
    let slot ← readSlot b
    pure (slot.consistLead, b)) (some a) a

/-- `while (tailSlot->getConsistNext()) tailSlot = tailSlot->getConsistNext();` -/
def findTail (a : Addr) : Slots Addr :=
  follow (fun b _ => do
    let slot ← readSlot b
    pure (slot.consistNext, b)) (some a) a

/-- The end of `addLocoToConsist`: chain in, if the loco is not in a consist already. -/
def chainIn (leadSlot tailSlot addSlot : Addr) (reversed : Bool) : Slots Bool := do
  let slot ← readSlot addSlot
  if slot.isConsistLead || slot.isConsistFollower then pure false  -- already in consist
  else
    setConsistReverse addSlot reversed
    -- belt and braces prevent self reference loop
    when (addSlot ≠ leadSlot) (setConsistLead addSlot (some leadSlot))
    when (tailSlot ≠ addSlot) (setConsistNext tailSlot (some addSlot))
    pure true

/-- `DCCConsist::addLocoToConsist` -/
def addLocoToConsist (consistId locoId : UInt16) (reversed : Bool) : Slots Bool := do
  if consistId < 1 ∨ consistId > highestLocoId then pure false
  else if locoId < 1 ∨ locoId > highestLocoId then pure false
  else if locoId = consistId then pure true  -- cant add lead to itself
  else
    let consistSlot ← LocoSlot.getSlot consistId true
    match consistSlot with
    | none => pure false  -- no ram
    | some a =>
      let leadSlot ← backUpToLead a
      let tailSlot ← findTail leadSlot
      let addSlot ← LocoSlot.getSlot locoId true
      match addSlot with
      | none => pure false  -- no ram
      | some b => chainIn leadSlot tailSlot b reversed

end CommandStation.DCCConsist
