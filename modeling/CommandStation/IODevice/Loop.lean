import CommandStation.Lib.RoundRobin
import Mathlib.Data.List.Rotate

/-!
# The loop of the devices

`IODevice::loop` gives one turn to one device at a time: it looks for a device that is ready, from where
the last call left off, and calls its `_loop`. The search goes once round the chain and stops where it
began, which it sees by comparing two pointers.

The comparison works because `_nextLoopDevice` never points at the first device: behind the last device
it is NULL, not the first one again. Were it the first one, a call that finds no device ready would go
round for ever. With that, the calls are the turns of a round robin.
-/

namespace CommandStation

open Lib

/-- `enum DeviceStateEnum` -/
inductive DeviceState where
  | dormant | probing | initialising | normal | scanning | failed
  deriving DecidableEq, Repr

/-- The fields of a device that the loop looks at. -/
structure LoopFields where
  deviceState : DeviceState
  nextEntryTime : UInt32
  deriving DecidableEq, Repr

/-- The devices as the loop sees them. A device is known by its address, and `chain` has the devices in
the order of their `_nextDevice` links. -/
structure DeviceChain where
  chain : List Nat
  nextLoopDevice : Option Nat
  fields : Nat → LoopFields

namespace DeviceChain

/-- What a driver does to the fields. -/
abbrev Change := (Nat → LoopFields) → Nat → LoopFields

/-! ## The functions -/

/-- `dev->_nextDevice` -/
def nextDevice (chain : List Nat) (dev : Nat) : Option Nat := chain[chain.idxOf dev + 1]?

/-- `_deviceState != DEVSTATE_FAILED && ((long)(currentMicros - _nextEntryTime)) >= 0` -/
def ready (fields : Nat → LoopFields) (currentMicros : UInt32) (dev : Nat) : Bool :=
  (fields dev).deviceState ≠ .failed ∧ 0 ≤ (currentMicros - (fields dev).nextEntryTime).toInt32

/-- The do-while of `IODevice::loop`: the device that is found, and the pointer after it. Without a
result it has not ended after so many rounds. -/
def scan (chain : List Nat) (ready : Nat → Bool) (lastLoopDevice : Option Nat) :
    Nat → Option Nat → Option (Option Nat × Option Nat)
  | 0, _ => none
  | fuel + 1, nextLoopDevice =>
    match nextLoopDevice.or chain.head? with
    | none => if none = lastLoopDevice then some (none, none) else scan chain ready lastLoopDevice fuel none
    | some dev =>
      if ready dev then some (some dev, nextDevice chain dev)
      -- not this one, move to next one
      else if nextDevice chain dev = lastLoopDevice then some (none, nextDevice chain dev)
      else scan chain ready lastLoopDevice fuel (nextDevice chain dev)

/-- The search of one call. -/
def search (h : DeviceChain) (currentMicros : UInt32) : Option (Option Nat × Option Nat) :=
  scan h.chain (ready h.fields currentMicros) h.nextLoopDevice (h.chain.length + 1) h.nextLoopDevice

/-- `IODevice::loop`, with what the `_loop` of each device does. -/
def loop (h : DeviceChain) (currentMicros : UInt32) (driver : Nat → Change) : Option DeviceChain :=
  match h.search currentMicros with
  | none => none
  | some (none, cursor) => some { h with nextLoopDevice := cursor }
  | some (some dev, cursor) =>
    let fields := Function.update h.fields dev { h.fields dev with nextEntryTime := currentMicros }
    some { h with nextLoopDevice := cursor, fields := driver dev fields }

/-- The for loop of `IODevice::addDevice`. -/
def link (newDevice : Nat) (slaveDevice : Option Nat) : List Nat → List Nat
  | [] => []
  | dev :: rest =>
    if rest.head? = slaveDevice ∨ rest.head? = none then dev :: newDevice :: rest
    else dev :: link newDevice slaveDevice rest

/-- `IODevice::addDevice`, with what the `_begin` of the new device does. -/
def addDevice (h : DeviceChain) (newDevice : Nat) (slaveDevice : Option Nat) (setup : Change) :
    DeviceChain :=
  let chain := if slaveDevice = h.chain.head? then newDevice :: h.chain
    else link newDevice slaveDevice h.chain
  { h with chain, fields := setup h.fields }

/-- What can happen to the devices. `other` is whatever else changes the fields: `reset`, and a driver
that is called for a vpin. -/
inductive Event where
  | addDevice (newDevice : Nat) (slaveDevice : Option Nat) (setup : Change)
  | loop (currentMicros : UInt32) (driver : Nat → Change)
  | other (change : Change)

/-- A call of the loop that does not end leaves no state; `search_reachable` says that there is none. -/
def step (h : DeviceChain) : Event → DeviceChain
  | .addDevice newDevice slaveDevice setup => h.addDevice newDevice slaveDevice setup
  | .loop currentMicros driver => (h.loop currentMicros driver).getD h
  | .other change => { h with fields := change h.fields }

/-- No device has been added yet. -/
def start (fields : Nat → LoopFields) : DeviceChain := ⟨[], none, fields⟩

/-- An object is added once. -/
def Event.Fresh (h : DeviceChain) : Event → Prop
  | .addDevice newDevice _ _ => newDevice ∉ h.chain
  | _ => True

/-- The device that an event calls. -/
def Event.serves (h : DeviceChain) : Event → Option Nat
  | .loop currentMicros _ => (h.search currentMicros).bind Prod.fst
  | _ => none

/-- The devices that a run calls, in order. -/
def served : DeviceChain → List Event → List Nat
  | _, [] => []
  | h, e :: es => (e.serves h).toList ++ served (step h e) es

def Event.isLoop : Event → Bool
  | .loop _ _ => true
  | _ => false

/-- How many calls of the loop a run has. -/
def loops (es : List Event) : Nat := es.countP Event.isLoop

/-- `dev` is ready in this call of the loop, and is not the one that is called. -/
def Event.PassesOver (dev : Nat) (h : DeviceChain) : Event → Prop
  | .loop currentMicros driver =>
    ready h.fields currentMicros dev = true ∧ (Event.loop currentMicros driver).serves h ≠ some dev
  | _ => True

instance (h : DeviceChain) (e : Event) : Decidable (e.Fresh h) :=
  match e with
  | .addDevice newDevice _ _ => inferInstanceAs (Decidable (newDevice ∉ h.chain))
  | .loop _ _ | .other _ => isTrue trivial

instance (dev : Nat) (h : DeviceChain) (e : Event) : Decidable (e.PassesOver dev h) :=
  match e with
  | .loop currentMicros driver => inferInstanceAs (Decidable
      (ready h.fields currentMicros dev = true ∧ (Event.loop currentMicros driver).serves h ≠ some dev))
  | .addDevice _ _ _ | .other _ => isTrue trivial

/-! ## Places in the chain -/

/-- The pointer to the device that has `k` devices before it, counted round and round. The place of the
first one is NULL. -/
def cursorAt (chain : List Nat) (k : Nat) : Option Nat :=
  if k % chain.length = 0 then none else chain[k % chain.length]?

/-- The place of a pointer. -/
def place (chain : List Nat) : Option Nat → Nat
  | none => 0
  | some dev => chain.idxOf dev

/-- The devices in the order in which the next call looks at them. -/
def queue (h : DeviceChain) : List Nat := h.chain.rotate (place h.chain h.nextLoopDevice)

/-- A device is linked once, and the pointer is NULL or at a device that is not the first. -/
structure WellFormed (h : DeviceChain) : Prop where
  nodup : h.chain.Nodup
  cursor : ∀ dev, h.nextLoopDevice = some dev → dev ∈ h.chain.tail

section Places

variable {chain : List Nat}

theorem cursorAt_mod (k : Nat) : cursorAt chain (k % chain.length) = cursorAt chain k := by
  simp only [cursorAt, Nat.mod_mod]

theorem cursorAt_or_head? (k : Nat) (hpos : 0 < chain.length) :
    (cursorAt chain k).or chain.head? = chain[k % chain.length]? := by
  have hlt : k % chain.length < chain.length := Nat.mod_lt k hpos
  unfold cursorAt
  split
  · next h => rw [h, Option.none_or, List.head?_eq_getElem?]
  · rw [List.getElem?_eq_getElem hlt, Option.some_or]

/-- Two places with one pointer are the same place. -/
theorem cursorAt_inj (hn : chain.Nodup) (hpos : 0 < chain.length) {j k : Nat}
    (h : cursorAt chain j = cursorAt chain k) : j % chain.length = k % chain.length := by
  have hj := Nat.mod_lt j hpos
  have hk := Nat.mod_lt k hpos
  unfold cursorAt at h
  split at h <;> split at h
  · omega
  · rw [List.getElem?_eq_getElem hk] at h
    cases h
  · rw [List.getElem?_eq_getElem hj] at h
    cases h
  · rw [List.getElem?_eq_getElem hj, List.getElem?_eq_getElem hk, Option.some_inj] at h
    exact (List.Nodup.getElem_inj_iff hn).1 h

theorem nextDevice_getElem (hn : chain.Nodup) {i : Nat} (hi : i < chain.length) :
    nextDevice chain chain[i] = cursorAt chain (i + 1) := by
  rw [nextDevice, List.Nodup.idxOf_getElem hn]
  unfold cursorAt
  obtain hlt | heq : i + 1 < chain.length ∨ i + 1 = chain.length := by omega
  · rw [Nat.mod_eq_of_lt hlt, if_neg (Nat.succ_ne_zero i)]
  · rw [heq, Nat.mod_self, if_pos rfl]
    exact List.getElem?_eq_none (Nat.le_refl _)

theorem place_cursorAt (hn : chain.Nodup) (hpos : 0 < chain.length) (k : Nat) :
    place chain (cursorAt chain k) = k % chain.length := by
  unfold cursorAt
  split
  · next h => exact h.symm
  · rw [List.getElem?_eq_getElem (Nat.mod_lt k hpos)]
    exact List.Nodup.idxOf_getElem hn ..

/-- The pointer to the next device is at the place that the model has for it. -/
theorem WellFormed.cursorAt_place {h : DeviceChain} (hw : h.WellFormed) :
    cursorAt h.chain (place h.chain h.nextLoopDevice) = h.nextLoopDevice := by
  cases hc : h.nextLoopDevice with
  | none => simp [place, cursorAt]
  | some dev =>
    have hmem := hw.cursor dev hc
    cases hchain : h.chain with
    | nil => simp [hchain] at hmem
    | cons first others =>
      have hnodup := hw.nodup
      rw [hchain] at hmem hnodup
      have hne : first ≠ dev := by
        rintro rfl
        exact (List.nodup_cons.1 hnodup).1 hmem
      have hlt : (first :: others).idxOf dev < (first :: others).length :=
        List.idxOf_lt_length_iff.2 (List.mem_cons_of_mem _ hmem)
      rw [place, cursorAt, Nat.mod_eq_of_lt hlt, if_neg, List.getElem?_eq_getElem hlt, List.getElem_idxOf]
      rw [List.idxOf_cons_ne _ hne]
      exact Nat.succ_ne_zero _

end Places

/-! ## The search -/

section Search

variable {chain : List Nat} {found : Nat → Bool} {p : Nat}

theorem getElem_rotate_place {i : Nat} (hi : i < (chain.rotate p).length)
    (hk : (p + i) % chain.length < chain.length) :
    (chain.rotate p)[i] = chain[(p + i) % chain.length] := by
  rw [List.getElem_rotate]
  simp only [Nat.add_comm]

/-- One round of the do-while. -/
theorem scan_round (hn : chain.Nodup) {last : Option Nat} {fuel k : Nat}
    (hk : k % chain.length < chain.length) :
    scan chain found last (fuel + 1) (cursorAt chain k) =
      if found (chain[k % chain.length]) then some (some (chain[k % chain.length]), cursorAt chain (k + 1))
      else if cursorAt chain (k + 1) = last then some (none, cursorAt chain (k + 1))
      else scan chain found last fuel (cursorAt chain (k + 1)) := by
  have hnext : nextDevice chain (chain[k % chain.length]) = cursorAt chain (k + 1) := by
    rw [nextDevice_getElem hn hk, ← cursorAt_mod, Nat.mod_add_mod, cursorAt_mod]
  rw [scan, cursorAt_or_head? k (Nat.zero_lt_of_lt hk), List.getElem?_eq_getElem hk]
  simp only [hnext]

/-- The rounds in which no device is found. -/
theorem scan_skip (hn : chain.Nodup) {fuel i : Nat} (hi : i < chain.length)
    (hskip : ∀ dev ∈ (chain.rotate p).take i, found dev = false) :
    scan chain found (cursorAt chain p) (fuel + i) (cursorAt chain p) =
      scan chain found (cursorAt chain p) fuel (cursorAt chain (p + i)) := by
  induction i generalizing fuel with
  | zero => rfl
  | succ i ih =>
    have hlen : i < (chain.rotate p).length := by rw [List.length_rotate]; omega
    have hk : (p + i) % chain.length < chain.length := Nat.mod_lt _ (by omega)
    have hdev : found (chain[(p + i) % chain.length]) = false := by
      rw [← getElem_rotate_place hlen hk]
      apply hskip
      rw [List.mem_take_iff_getElem]
      exact ⟨i, by omega, rfl⟩
    have hne : cursorAt chain (p + i + 1) ≠ cursorAt chain p := by
      intro h
      have hsub := Nat.sub_mod_eq_zero_of_mod_eq (cursorAt_inj hn (by omega) h)
      rw [Nat.add_assoc, Nat.add_sub_cancel_left, Nat.mod_eq_of_lt hi] at hsub
      exact Nat.succ_ne_zero i hsub
    rw [show fuel + (i + 1) = fuel + 1 + i by omega, ih (by omega), scan_round hn hk, hdev,
      if_neg Bool.false_ne_true, if_neg hne]
    · rfl
    · intro dev hmem
      exact hskip dev (List.take_subset_take_left _ (Nat.le_succ i) hmem)

/-- The first device that is ready is found. -/
theorem scan_found (hn : chain.Nodup) {fuel : Nat} {skipped rest : List Nat} {dev : Nat}
    (hq : chain.rotate p = skipped ++ dev :: rest) (hskip : ∀ x ∈ skipped, found x = false)
    (hdev : found dev = true) (hfuel : chain.length ≤ fuel) :
    scan chain found (cursorAt chain p) fuel (cursorAt chain p) =
      some (some dev, cursorAt chain (p + skipped.length + 1)) := by
  have hlen : chain.length = skipped.length + 1 + rest.length := by
    rw [← List.length_rotate chain p, hq, List.length_append, List.length_cons]
    omega
  have hk : (p + skipped.length) % chain.length < chain.length := Nat.mod_lt _ (by omega)
  have hat : chain[(p + skipped.length) % chain.length] = dev := by
    rw [← getElem_rotate_place (by rw [List.length_rotate]; omega) hk]
    simp [hq]
  obtain ⟨more, rfl⟩ : ∃ more, fuel = more + 1 + skipped.length := ⟨fuel - 1 - skipped.length, by omega⟩
  rw [scan_skip hn (by omega), scan_round hn hk, hat, hdev, if_pos rfl]
  intro x hx
  rw [hq, List.take_left] at hx
  exact hskip x hx

/-- When no device is ready the search stops where it began. -/
theorem scan_none (hn : chain.Nodup) {fuel : Nat} (hnone : ∀ x ∈ chain, found x = false)
    (hone : 0 < fuel) (hfuel : chain.length ≤ fuel) :
    scan chain found (cursorAt chain p) fuel (cursorAt chain p) = some (none, cursorAt chain p) := by
  obtain ⟨more, rfl⟩ : ∃ more, fuel = more + 1 := ⟨fuel - 1, by omega⟩
  obtain hzero | hpos := Nat.eq_zero_or_pos chain.length
  · obtain rfl := List.eq_nil_of_length_eq_zero hzero
    have hnull : ∀ k, cursorAt [] k = none := fun k => by simp [cursorAt]
    simp [scan, hnull]
  · obtain ⟨m, hm⟩ : ∃ m, chain.length = m + 1 := ⟨chain.length - 1, by omega⟩
    obtain ⟨rest, rfl⟩ : ∃ rest, more = rest + m := ⟨more - m, by omega⟩
    have hk : (p + m) % chain.length < chain.length := Nat.mod_lt _ hpos
    have hback : cursorAt chain (p + m + 1) = cursorAt chain p := by
      rw [← cursorAt_mod, Nat.add_assoc, ← hm, Nat.add_mod_right, cursorAt_mod]
    rw [show rest + m + 1 = rest + 1 + m by omega, scan_skip hn (by omega), scan_round hn hk,
      hnone _ (List.getElem_mem hk), hback, if_neg Bool.false_ne_true, if_pos rfl]
    · intro x hx
      exact hnone x (List.mem_rotate.1 (List.take_subset _ _ hx))

end Search

/-! ## The calls are turns -/

variable {h : DeviceChain}

theorem length_queue (h : DeviceChain) : h.queue.length = h.chain.length := List.length_rotate ..

theorem mem_queue {dev : Nat} : dev ∈ h.queue ↔ dev ∈ h.chain := List.mem_rotate

theorem WellFormed.nodup_queue (hw : h.WellFormed) : h.queue.Nodup := List.nodup_rotate.2 hw.nodup

/-- The order in which the devices are looked at after the pointer has been moved to a place. -/
theorem rotate_place_cursorAt {chain : List Nat} (hn : chain.Nodup) (k : Nat) :
    chain.rotate (place chain (cursorAt chain k)) = chain.rotate k := by
  obtain hzero | hpos := Nat.eq_zero_or_pos chain.length
  · obtain rfl := List.eq_nil_of_length_eq_zero hzero
    rw [List.rotate_nil, List.rotate_nil]
  · rw [place_cursorAt hn hpos, List.rotate_mod]

/-- The search ends, after one round for each device at most, with the first device of the queue that is
ready, and leaves the queue of a round robin. -/
theorem WellFormed.scan_eq (hw : h.WellFormed) (currentMicros : UInt32) :
    ∃ k, (∀ rounds, 0 < rounds → h.chain.length ≤ rounds →
        scan h.chain (ready h.fields currentMicros) h.nextLoopDevice rounds h.nextLoopDevice =
          some ((RoundRobin.turn (ready h.fields currentMicros) h.queue).1, cursorAt h.chain k)) ∧
      (RoundRobin.turn (ready h.fields currentMicros) h.queue).2 = h.chain.rotate k := by
  obtain ⟨hall, hturn⟩ | ⟨skipped, dev, rest, hq, hskip, hdev, hturn⟩ :=
    RoundRobin.turn_cases (ready h.fields currentMicros) h.queue
  · have hnone : ∀ x ∈ h.chain, ready h.fields currentMicros x = false :=
      fun x hx => hall x (mem_queue.2 hx)
    refine ⟨place h.chain h.nextLoopDevice, fun rounds hone hrounds => ?_, ?_⟩
    · have hscan := scan_none (p := place h.chain h.nextLoopDevice) hw.nodup hnone hone hrounds
      rw [hw.cursorAt_place] at hscan
      rw [hturn, hw.cursorAt_place]
      exact hscan
    · rw [hturn]
      rfl
  · refine ⟨place h.chain h.nextLoopDevice + (skipped.length + 1), fun rounds _ hrounds => ?_, ?_⟩
    · have hscan := scan_found hw.nodup hq hskip hdev hrounds
      rw [hw.cursorAt_place] at hscan
      rw [hturn]
      exact hscan
    · rw [hturn, ← List.rotate_rotate, ← queue, hq,
        show skipped ++ dev :: rest = (skipped ++ [dev]) ++ rest by simp,
        show skipped.length + 1 = (skipped ++ [dev]).length by simp, List.rotate_append_length_eq]

/-- **A call is a turn.** -/
theorem WellFormed.search_eq (hw : h.WellFormed) (currentMicros : UInt32) :
    ∃ k, h.search currentMicros =
        some ((RoundRobin.turn (ready h.fields currentMicros) h.queue).1, cursorAt h.chain k) ∧
      (RoundRobin.turn (ready h.fields currentMicros) h.queue).2 = h.chain.rotate k := by
  obtain ⟨k, hscan, hqueue⟩ := hw.scan_eq currentMicros
  exact ⟨k, hscan _ (Nat.succ_pos _) (Nat.le_succ _), hqueue⟩

theorem cursorAt_mem_tail {chain : List Nat} {k dev : Nat} (hc : cursorAt chain k = some dev) :
    dev ∈ chain.tail := by
  unfold cursorAt at hc
  split at hc
  · cases hc
  · next hne =>
    obtain ⟨j, hj⟩ := Nat.exists_eq_succ_of_ne_zero hne
    rw [hj, ← List.getElem?_tail] at hc
    exact List.mem_of_getElem? hc

theorem head?_ne_of_mem_tail {chain : List Nat} {dev : Nat} (hn : chain.Nodup) (h : dev ∈ chain.tail) :
    chain.head? ≠ some dev := by
  cases chain with
  | nil => cases h
  | cons first others =>
    intro heq
    obtain rfl := Option.some_inj.1 heq
    exact (List.nodup_cons.1 hn).1 h

/-- What a call of the loop leaves. -/
theorem WellFormed.loop_eq (hw : h.WellFormed) (currentMicros : UInt32) (driver : Nat → Change) :
    ∃ k fields, h.loop currentMicros driver = some ⟨h.chain, cursorAt h.chain k, fields⟩ ∧
      (RoundRobin.turn (ready h.fields currentMicros) h.queue).2 = h.chain.rotate k := by
  obtain ⟨k, hsearch, hqueue⟩ := hw.search_eq currentMicros
  unfold loop
  rw [hsearch]
  cases (RoundRobin.turn (ready h.fields currentMicros) h.queue).1 with
  | none => exact ⟨k, _, rfl, hqueue⟩
  | some dev => exact ⟨k, _, rfl, hqueue⟩

/-! ## A new device joins -/

/-- The new device is linked behind some device of the chain. -/
theorem link_eq (newDevice : Nat) (slaveDevice : Option Nat) {chain : List Nat} (hne : chain ≠ []) :
    ∃ front back, front ≠ [] ∧ chain = front ++ back ∧
      link newDevice slaveDevice chain = front ++ newDevice :: back := by
  induction chain with
  | nil => exact absurd rfl hne
  | cons dev rest ih =>
    by_cases hhere : rest.head? = slaveDevice ∨ rest.head? = none
    · exact ⟨[dev], rest, by simp, rfl, by rw [link, if_pos hhere]; rfl⟩
    · have hrest : rest ≠ [] := by
        rintro rfl
        exact hhere (.inr rfl)
      obtain ⟨front, back, -, rfl, hlink⟩ := ih hrest
      exact ⟨dev :: front, back, by simp, rfl, by rw [link, if_neg hhere, hlink]; rfl⟩

/-- The new device stands somewhere in the chain. Only a slave device that is given before there is any
device at all leaves the chain empty. -/
theorem addDevice_chain (h : DeviceChain) (newDevice : Nat) (slaveDevice : Option Nat) (setup : Change) :
    (∃ front back, h.chain = front ++ back ∧
        (h.addDevice newDevice slaveDevice setup).chain = front ++ newDevice :: back) ∨
      (h.addDevice newDevice slaveDevice setup).chain = h.chain := by
  by_cases hhead : slaveDevice = h.chain.head?
  · exact .inl ⟨[], h.chain, rfl, by simp [addDevice, hhead]⟩
  · by_cases hne : h.chain = []
    · have hslave : slaveDevice ≠ none := by simpa [hne] using hhead
      exact .inr (by simp [addDevice, hslave, hne, link])
    · obtain ⟨front, back, -, hchain, hlink⟩ := link_eq newDevice slaveDevice hne
      exact .inl ⟨front, back, hchain, by simp [addDevice, if_neg hhead, hlink]⟩

theorem rotate_idxOf {front : List Nat} {dev : Nat} (hnot : dev ∉ front) (back : List Nat) :
    (front ++ dev :: back).rotate ((front ++ dev :: back).idxOf dev) = dev :: back ++ front := by
  rw [List.idxOf_append_of_notMem hnot, List.idxOf_cons_self, Nat.add_zero, List.rotate_append_length_eq]

/-- A device that is linked in somewhere joins the queue somewhere. -/
theorem rotate_join {front back : List Nat} {cursor : Option Nat} {newDevice : Nat}
    (hcursor : ∀ dev, cursor = some dev → dev ∈ front ++ back ∧ dev ≠ newDevice) :
    ∃ queue₁ queue₂,
      (front ++ back).rotate (place (front ++ back) cursor) = queue₁ ++ queue₂ ∧
        (front ++ newDevice :: back).rotate (place (front ++ newDevice :: back) cursor) =
          queue₁ ++ newDevice :: queue₂ := by
  cases cursor with
  | none => exact ⟨front, back, List.rotate_zero _, List.rotate_zero _⟩
  | some dev =>
    obtain ⟨hmem, hne⟩ := hcursor dev rfl
    unfold place
    by_cases hfront : dev ∈ front
    · -- the pointer is before the new device
      obtain ⟨f₁, f₂, rfl, hnot⟩ := List.eq_append_cons_of_mem hfront
      have hold := rotate_idxOf hnot (f₂ ++ back)
      have hnew := rotate_idxOf hnot (f₂ ++ newDevice :: back)
      simp only [← List.append_assoc, ← List.cons_append] at hold hnew
      exact ⟨dev :: f₂, back ++ f₁, by simpa using hold, by simpa using hnew⟩
    · -- the pointer is behind it
      have hback : dev ∈ back := (List.mem_append.1 hmem).resolve_left hfront
      obtain ⟨b₁, b₂, rfl, hnot⟩ := List.eq_append_cons_of_mem hback
      have hnot₁ : dev ∉ front ++ b₁ := by simp [hfront, hnot]
      have hnot₂ : dev ∉ front ++ newDevice :: b₁ := by simp [hfront, hnot, hne]
      have hold := rotate_idxOf hnot₁ b₂
      have hnew := rotate_idxOf hnot₂ b₂
      exact ⟨dev :: b₂ ++ front, b₁, by simpa using hold, by simpa using hnew⟩

/-! ## Runs -/

/-- An event of the devices is one of the round robin. -/
structure Refines (h : DeviceChain) (e : Event) (turn : RoundRobin.Event Nat) : Prop where
  queue : (step h e).queue = RoundRobin.step h.queue turn
  serves : turn.serves h.queue = e.serves h
  proper : turn.Proper h.queue
  passes : ∀ dev, e.PassesOver dev h → turn.Passes dev h.queue
  loops : turn.isTurn = e.isLoop
  length : (step h e).chain.length = h.chain.length + if turn.isJoin then 1 else 0

/-- A call of `loop` is a turn of the round robin over the devices that are ready. -/
theorem WellFormed.loop_refines (hw : h.WellFormed) (currentMicros : UInt32) (driver : Nat → Change) :
    (step h (.loop currentMicros driver)).WellFormed ∧
      Refines h (.loop currentMicros driver) (.turn (ready h.fields currentMicros)) := by
  obtain ⟨k, fields, hloop, hqueue⟩ := hw.loop_eq currentMicros driver
  have hstep : step h (.loop currentMicros driver) = ⟨h.chain, cursorAt h.chain k, fields⟩ := by
    rw [step, hloop, Option.getD_some]
  have hserves : (Event.loop currentMicros driver).serves h =
      (RoundRobin.turn (ready h.fields currentMicros) h.queue).1 := by
    obtain ⟨_, hsearch, -⟩ := hw.search_eq currentMicros
    rw [Event.serves, hsearch, Option.bind_some]
  refine ⟨?_, ?_⟩
  · rw [hstep]
    exact ⟨hw.nodup, fun dev hdev => cursorAt_mem_tail hdev⟩
  · refine ⟨?_, hserves.symm, trivial, ?_, rfl, ?_⟩
    · rw [hstep, RoundRobin.step, hqueue]
      exact rotate_place_cursorAt hw.nodup k
    · rintro dev ⟨hready, hne⟩
      rw [hserves] at hne
      exact ⟨hready, hne⟩
    · rw [hstep]
      rfl

/-- A new device takes its place in the round robin of the devices. -/
theorem WellFormed.addDevice_refines (hw : h.WellFormed) {newDevice : Nat} (hfresh : newDevice ∉ h.chain)
    (slaveDevice : Option Nat) (setup : Change) :
    (step h (.addDevice newDevice slaveDevice setup)).WellFormed ∧
      ∃ turn, Refines h (.addDevice newDevice slaveDevice setup) turn := by
  have hcursor : ∀ dev, h.nextLoopDevice = some dev → dev ∈ h.chain ∧ dev ≠ newDevice := by
    intro dev hdev
    have hmem := List.mem_of_mem_tail (hw.cursor dev hdev)
    exact ⟨hmem, fun heq => hfresh (heq ▸ hmem)⟩
  -- the device is put into the chain, unless a slave device is named before there is any
  obtain ⟨front, back, hchain, hadd⟩ | hsame := addDevice_chain h newDevice slaveDevice setup
  · have hnodup : (front ++ newDevice :: back).Nodup := by
      rw [List.nodup_middle]
      exact List.nodup_cons.2 ⟨hchain ▸ hfresh, hchain ▸ hw.nodup⟩
    rw [hchain] at hcursor
    -- where it is in the chain decides when its first turn comes
    obtain ⟨queue₁, queue₂, hold, hnew⟩ := rotate_join hcursor
    have hq : h.queue = queue₁ ++ queue₂ := by rw [queue, hchain, hold]
    refine ⟨⟨?_, ?_⟩, .join queue₁.length newDevice, ?_, rfl, ?_, fun _ _ => trivial, rfl, ?_⟩
    · rw [step, hadd]
      exact hnodup
    · intro dev hdev
      have htail := hw.cursor dev hdev
      rw [step, hadd]
      rw [hchain] at htail
      cases front with
      | nil => exact List.mem_of_mem_tail htail
      | cons first front =>
        rw [List.cons_append, List.tail_cons, List.mem_append] at htail ⊢
        exact htail.imp_right (List.mem_cons_of_mem _)
    · rw [RoundRobin.step, hq, List.take_left, List.drop_left, queue, step, hadd]
      exact hnew
    · rw [RoundRobin.Event.Proper, mem_queue]
      exact hfresh
    · rw [step, hadd, hchain, List.length_append, List.length_append, List.length_cons]
      rfl
  · refine ⟨⟨?_, ?_⟩, .pause, ?_, rfl, trivial, fun _ _ => trivial, rfl, ?_⟩
    · rw [step, hsame]
      exact hw.nodup
    · intro dev hdev
      rw [step, hsame]
      exact hw.cursor dev hdev
    · rw [RoundRobin.step, queue, step, hsame]
      rfl
    · rw [step, hsame]
      rfl

/-- **The step lemma.** -/
theorem WellFormed.step_refines (hw : h.WellFormed) {e : Event} (he : e.Fresh h) :
    (step h e).WellFormed ∧ ∃ turn, Refines h e turn := by
  cases e with
  | addDevice newDevice slaveDevice setup => exact hw.addDevice_refines he slaveDevice setup
  | loop currentMicros driver =>
    obtain ⟨hw', hrefines⟩ := hw.loop_refines currentMicros driver
    exact ⟨hw', _, hrefines⟩
  | other change =>
    exact ⟨⟨hw.nodup, hw.cursor⟩, .pause, rfl, rfl, trivial, fun _ _ => trivial, rfl, rfl⟩

theorem start_wellFormed (fields : Nat → LoopFields) : (start fields).WellFormed :=
  ⟨List.nodup_nil, fun _ hdev => nomatch hdev⟩

theorem WellFormed.run {es : List Event} (hw : h.WellFormed) (hfresh : Along step Event.Fresh h es) :
    (Lib.run step h es).WellFormed :=
  inv_run WellFormed (fun _ _ he hw => (hw.step_refines he).1) hw hfresh

/-- **The run lemma.** A run of the devices is a run of the round robin. -/
theorem WellFormed.run_refines {es : List Event} (hw : h.WellFormed)
    (hfresh : Along step Event.Fresh h es) :
    ∃ turns, RoundRobin.served h.queue turns = served h es ∧
      RoundRobin.turns turns = loops es ∧
      (Lib.run step h es).chain.length = h.chain.length + RoundRobin.joins turns ∧
      ∀ dev, Along step (Event.PassesOver dev) h es →
        Along RoundRobin.step (fun queue turn => turn.Proper queue ∧ turn.Passes dev queue) h.queue turns := by
  induction es generalizing h with
  | nil => exact ⟨[], rfl, rfl, rfl, fun _ _ => trivial⟩
  | cons e es ih =>
    obtain ⟨hw', turn, href⟩ := hw.step_refines hfresh.1
    obtain ⟨turns, hserved, hloops, hlength, hpasses⟩ := ih hw' hfresh.2
    rw [href.queue] at hserved hpasses
    refine ⟨turn :: turns, ?_, ?_, ?_, ?_⟩
    · rw [RoundRobin.served, href.serves, hserved, served]
    · rw [RoundRobin.turns, loops, List.countP_cons, List.countP_cons, href.loops]
      rw [RoundRobin.turns, loops] at hloops
      rw [hloops]
    · rw [run_cons, hlength, href.length, RoundRobin.joins, RoundRobin.joins, List.countP_cons]
      omega
    · intro dev hdev
      exact ⟨⟨href.proper, href.passes dev hdev.1⟩, hpasses dev hdev.2⟩

/-! ## The results -/

/-- **Every call of the loop ends**, after it has looked at each device once at most. It has found the first
device of the queue that is ready, if there is one. Before the call and after it the pointer is not at the
first device of the chain. -/
theorem search_reachable (fields : Nat → LoopFields) (es : List Event)
    (hfresh : Along step Event.Fresh (start fields) es) (currentMicros : UInt32) :
    let h := run step (start fields) es
    ∃ cursor, h.search currentMicros = some (h.queue.find? (ready h.fields currentMicros), cursor) ∧
      scan h.chain (ready h.fields currentMicros) h.nextLoopDevice (max 1 h.chain.length)
        h.nextLoopDevice = h.search currentMicros ∧
      ∀ dev, h.nextLoopDevice = some dev ∨ cursor = some dev → dev ∈ h.chain ∧ h.chain.head? ≠ some dev := by
  intro h
  have hw : h.WellFormed := (start_wellFormed fields).run hfresh
  obtain ⟨k, hscan, -⟩ := hw.scan_eq currentMicros
  rw [RoundRobin.turn_fst] at hscan
  have hsearch := hscan (h.chain.length + 1) (Nat.succ_pos _) (Nat.le_succ _)
  refine ⟨_, hsearch, ?_, fun dev hdev => ?_⟩
  · rw [hscan _ (Nat.lt_of_lt_of_le Nat.one_pos (Nat.le_max_left ..)) (Nat.le_max_right ..)]
    exact hsearch.symm
  · have htail : dev ∈ h.chain.tail := hdev.elim (hw.cursor dev) cursorAt_mem_tail
    exact ⟨List.mem_of_mem_tail htail, head?_ne_of_mem_tail hw.nodup htail⟩

theorem search_reachable_idle :
    let h := run step (start fun _ => ⟨.normal, 0⟩)
      [.addDevice 7 none id, .addDevice 8 (some 7) id, .loop 0 fun _ => id]
    ∃ cursor, h.search 1 = some (some 7, cursor) ∧
      scan h.chain (ready h.fields 1) h.nextLoopDevice 2 h.nextLoopDevice = h.search 1 ∧
      ∀ dev, h.nextLoopDevice = some dev ∨ cursor = some dev → dev ∈ h.chain ∧ h.chain.head? ≠ some dev :=
  search_reachable (fun _ => ⟨.normal, 0⟩)
    [.addDevice 7 none id, .addDevice 8 (some 7) id, .loop 0 fun _ => id] (by decide) 1

/-- The pointer does not come back to the first device while no device is ready. -/
theorem scan_away {chain : List Nat} {found : Nat → Bool} {first : Nat} (hn : chain.Nodup)
    (hfirst : chain.head? = some first) (hnone : ∀ x ∈ chain, found x = false) (fuel k : Nat) :
    scan chain found (some first) fuel (cursorAt chain k) = none := by
  induction fuel generalizing k with
  | zero => rfl
  | succ fuel ih =>
    cases chain with
    | nil => cases hfirst
    | cons x chain =>
      obtain rfl : x = first := Option.some_inj.1 hfirst
      have hne : cursorAt (x :: chain) (k + 1) ≠ some x :=
        fun hc => (List.nodup_cons.1 hn).1 (cursorAt_mem_tail hc)
      have hk : k % (x :: chain).length < (x :: chain).length := Nat.mod_lt k (Nat.succ_pos _)
      rw [scan_round hn hk, hnone _ (List.getElem_mem hk), if_neg Bool.false_ne_true, if_neg hne]
      exact ih (k + 1)

/-- With the pointer at the first device and no device ready, the do-while would never end. -/
theorem scan_forever {chain : List Nat} {found : Nat → Bool} {first : Nat} (hn : chain.Nodup)
    (hfirst : chain.head? = some first) (hnone : ∀ x ∈ chain, found x = false) (fuel : Nat) :
    scan chain found (some first) fuel (some first) = none := by
  cases fuel with
  | zero => rfl
  | succ fuel =>
    -- the first round looks at the first device, as from NULL
    have hround : scan chain found (some first) (fuel + 1) (some first) =
        scan chain found (some first) (fuel + 1) (cursorAt chain 0) := by
      rw [scan, scan, cursorAt, Nat.zero_mod, if_pos rfl, Option.none_or, Option.some_or, hfirst]
    rw [hround]
    exact scan_away hn hfirst hnone (fuel + 1) 0

/-- **No device waits long.** While a device is ready and waits, no other device is called twice, and the
loop is called less often than there are devices. -/
theorem waiting_bounded (fields : Nat → LoopFields) (before after : List Event) (dev : Nat)
    (hfresh : Along step Event.Fresh (start fields) (before ++ after))
    (hmem : dev ∈ (run step (start fields) before).chain)
    (hwaits : Along step (Event.PassesOver dev) (run step (start fields) before) after) :
    loops after < (run step (start fields) (before ++ after)).chain.length ∧
      (served (run step (start fields) before) after).Nodup := by
  rw [along_append] at hfresh
  have hw := (start_wellFormed fields).run hfresh.1
  obtain ⟨turns, hserved, hloops, hlength, hpasses⟩ := hw.run_refines hfresh.2
  have hqueue := mem_queue.2 hmem
  have halong := hpasses dev hwaits
  refine ⟨?_, ?_⟩
  · have hle := RoundRobin.turns_le hqueue (halong.imp fun _ _ h => h.2)
    have hlt := List.idxOf_lt_length_iff.2 hqueue
    rw [length_queue] at hlt
    rw [run_append, hlength, ← hloops]
    omega
  · rw [← hserved]
    exact RoundRobin.served_nodup hw.nodup_queue hqueue halong

theorem waiting_bounded_late :
    loops [.loop 1 fun _ => id, .addDevice 9 (some 5) id, .loop 2 fun _ => id, .loop 3 fun _ => id] < 4 ∧
      [7, 8, 9].Nodup :=
  waiting_bounded (fun _ => ⟨.normal, 0⟩)
    [.addDevice 7 none id, .addDevice 8 none id, .addDevice 5 none id]
    [.loop 1 fun _ => id, .addDevice 9 (some 5) id, .loop 2 fun _ => id, .loop 3 fun _ => id]
    5 (by decide) (by decide) (by decide)

end DeviceChain

end CommandStation
