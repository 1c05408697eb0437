import CommandStation.DCCEXParser.Values
import Mathlib.Tactic.IntervalCases

/-!
# The line to an LCN bus

Traffic from the bus is in postfix notation: `nnnX`, where `nnn` is an id and `X` the opcode. `loop` takes
one byte after the other and keeps the id that has been read so far. Anything else than digits and opcodes
clears it, so that a message is read after any noise that does not end with a digit (`read_back`).
-/

namespace CommandStation

namespace LCN

/-! ## The model -/

/-- What an opcode asks for. -/
inductive Action where
  /-- The turnout is created if there is none, and its state is noted: `setClosedStateOnly`. -/
  | turnoutIs (id : Int16) (closed : Bool)
  /-- `Turnout::setClosed` -/
  | turnoutTo (id : Int16) (closed : Bool)
  /-- The sensor is created if there is none, and its state is set. -/
  | sensor (id : Int16) (state : Bool)
  deriving DecidableEq, Repr

def isDigit (ch : UInt8) : Prop := 48 ≤ ch ∧ ch ≤ 57

instance (ch : UInt8) : Decidable (isDigit ch) := inferInstanceAs (Decidable (_ ∧ _))

/-- What the letters `t`, `T`, `y`, `Y`, `S` and `s` ask for. -/
def action? (ch : UInt8) (id : Int16) : Option Action :=
  if ch = 116 ∨ ch = 84 then some (.turnoutIs id (ch = 116))
  else if ch = 121 ∨ ch = 89 then some (.turnoutTo id (ch = 121))
  else if ch = 83 ∨ ch = 115 then some (.sensor id (ch = 83))
  else none  -- ignore any other garbage from LCN

/-- One byte of the while of `LCN::loop`: the id after it, and what is to be done. -/
def readByte (id : Int16) (ch : UInt8) : Int16 × Option Action :=
  if isDigit ch then (10 * id + Int16.ofNat (ch.toNat - 48), none)  -- accumulate id value
  else (0, action? ch id)

/-- The id after some bytes. -/
def idAfter (id : Int16) (bytes : List UInt8) : Int16 := bytes.foldl (fun id ch => (readByte id ch).1) id

/-- What is done for some bytes, in order. -/
def actions : Int16 → List UInt8 → List Action
  | _, [] => []
  | id, ch :: bytes => (readByte id ch).2.toList ++ actions (readByte id ch).1 bytes

/-- A call of `LCN::loop` behind the first one, which reads nothing. The id is kept for the next call, and
the list is what has been done. -/
def loop (id : Int16) (bytes : List UInt8) : Int16 × List Action := (idAfter id bytes, actions id bytes)

/-- What is done in one call after the other. -/
def calls : Int16 → List (List UInt8) → List Action
  | _, [] => []
  | id, bytes :: later => (loop id bytes).2 ++ calls (loop id bytes).1 later

/-! ## Messages and noise -/

inductive Op where
  | turnoutIs (closed : Bool)
  | turnoutTo (closed : Bool)
  | sensor (state : Bool)
  deriving DecidableEq, Repr

def Op.letter : Op → UInt8
  | turnoutIs closed => if closed then 116 else 84
  | turnoutTo closed => if closed then 121 else 89
  | sensor state => if state then 83 else 115

def Op.action (id : Int16) : Op → Action
  | turnoutIs closed => .turnoutIs id closed
  | turnoutTo closed => .turnoutTo id closed
  | sensor state => .sensor id state

/-- A message of the bus, its id in the range of an `int` of the smallest boards. -/
structure Message where
  id : Nat
  op : Op
  fits : id < 32768

def Message.text (m : Message) : List UInt8 := DCCEXParser.decimal m.id ++ [m.op.letter]

def Message.action (m : Message) : Action := m.op.action (Int16.ofNat m.id)

/-- Bytes with no opcode among them and no digit at the end. -/
structure Noise where
  bytes : List UInt8
  noOpcode : ∀ ch ∈ bytes, ∀ id, action? ch id = none
  noDigit : ∀ ch ∈ bytes.getLast?, ¬ isDigit ch

/-! ## Reading -/

theorem idAfter_append (id : Int16) (xs ys : List UInt8) : idAfter id (xs ++ ys) = idAfter (idAfter id xs) ys :=
  List.foldl_append ..

theorem actions_append (id : Int16) (xs ys : List UInt8) :
    actions id (xs ++ ys) = actions id xs ++ actions (idAfter id xs) ys := by
  induction xs generalizing id with
  | nil => rfl
  | cons ch xs ih => simp only [List.cons_append, actions, ih, List.append_assoc, idAfter, List.foldl_cons]

/-- It does not matter in which calls the bytes come. -/
theorem calls_eq (id : Int16) (chunks : List (List UInt8)) : calls id chunks = actions id chunks.flatten := by
  induction chunks generalizing id with
  | nil => rfl
  | cons bytes later ih => rw [calls, ih, List.flatten_cons, actions_append, loop]

theorem isDigit_digit {d : Nat} (hd : d < 10) : isDigit (UInt8.ofNat (48 + d)) := by
  interval_cases d <;> decide

theorem toNat_digit {d : Nat} (hd : d < 10) : (UInt8.ofNat (48 + d)).toNat - 48 = d := by
  interval_cases d <;> rfl

theorem readByte_digit (m : Nat) {d : Nat} (hd : d < 10) :
    readByte (Int16.ofNat m) (UInt8.ofNat (48 + d)) = (Int16.ofNat (10 * m + d), none) := by
  rw [readByte, if_pos (isDigit_digit hd), toNat_digit hd, Int16.ofNat_add, Int16.ofNat_mul]
  rfl

/-- Digits are accumulated, and nothing is done. -/
theorem read_digits {ds : List Nat} (hds : ∀ d ∈ ds, d < 10) (m : Nat) :
    idAfter (Int16.ofNat m) (ds.map fun d => UInt8.ofNat (48 + d)) =
        Int16.ofNat (ds.foldl (fun m d => 10 * m + d) m) ∧
      actions (Int16.ofNat m) (ds.map fun d => UInt8.ofNat (48 + d)) = [] := by
  induction ds generalizing m with
  | nil => exact ⟨rfl, rfl⟩
  | cons d ds ih =>
    have hread := readByte_digit m (hds d List.mem_cons_self)
    have hrest := ih (fun d' hd' => hds d' (List.mem_cons_of_mem _ hd')) (10 * m + d)
    simp only [List.map_cons, idAfter, List.foldl_cons, actions, hread]
    exact hrest

theorem readByte_letter (id : Int16) (op : Op) : readByte id op.letter = (0, some (op.action id)) := by
  cases op with
  | turnoutIs b => cases b <;> rfl
  | turnoutTo b => cases b <;> rfl
  | sensor b => cases b <;> rfl

/-- A message is read when no digits came before it. -/
theorem read_message (m : Message) : idAfter 0 m.text = 0 ∧ actions 0 m.text = [m.action] := by
  obtain ⟨ds, -, hds, htext, hvalue⟩ := DCCEXParser.decimal_eq m.id
  obtain ⟨hid, hnone⟩ := read_digits hds 0
  rw [hvalue] at hid
  rw [Message.text, htext, idAfter_append, actions_append]
  change idAfter 0 _ = _ at hid
  change actions 0 _ = _ at hnone
  rw [hid, hnone]
  have hlast := readByte_letter (Int16.ofNat m.id) m.op
  simp only [idAfter, actions, List.foldl_cons, List.foldl_nil, hlast]
  exact ⟨trivial, rfl⟩

theorem actions_noise (id : Int16) {bytes : List UInt8} (h : ∀ ch ∈ bytes, ∀ id, action? ch id = none) :
    actions id bytes = [] := by
  induction bytes generalizing id with
  | nil => rfl
  | cons ch bytes ih =>
    have hhead : (readByte id ch).2 = none := by
      unfold readByte
      split
      · rfl
      · exact h ch List.mem_cons_self id
    rw [actions, hhead, ih _ fun c hc => h c (List.mem_cons_of_mem _ hc)]
    rfl

theorem idAfter_noise {bytes : List UInt8} (h : ∀ ch ∈ bytes.getLast?, ¬ isDigit ch) :
    idAfter 0 bytes = 0 := by
  obtain rfl | ⟨before, ch, rfl⟩ := List.eq_nil_or_concat bytes
  · rfl
  · rw [List.concat_eq_append] at *
    have hch : ¬ isDigit ch := h ch (by simp)
    rw [idAfter_append]
    show (readByte _ ch).1 = 0
    rw [readByte, if_neg hch]

/-- What comes from the bus: each message after some noise. -/
def stream (traffic : List (Noise × Message)) : List UInt8 :=
  traffic.flatMap fun part => part.1.bytes ++ part.2.text

/-- **Messages are read back.** Whatever noise comes before each message, and in whatever calls the bytes
are read, exactly the messages are carried out, in order. -/
theorem read_back (traffic : List (Noise × Message)) (chunks : List (List UInt8))
    (hchunks : chunks.flatten = stream traffic) :
    calls 0 chunks = traffic.map fun part => part.2.action := by
  have hclean : ∀ part : Noise × Message, idAfter 0 (part.1.bytes ++ part.2.text) = 0 ∧
      actions 0 (part.1.bytes ++ part.2.text) = [part.2.action] := by
    rintro ⟨noise, m⟩
    rw [idAfter_append, actions_append, idAfter_noise noise.noDigit, actions_noise 0 noise.noOpcode]
    exact read_message m
  rw [calls_eq, hchunks]
  clear hchunks
  induction traffic with
  | nil => rfl
  | cons part traffic ih =>
    rw [stream, List.flatMap_cons, actions_append, (hclean part).1, (hclean part).2, ← stream, ih]
    rfl

/-- `?12t` and `7S`, in three calls. -/
theorem read_back_split : calls 0 [[63, 49], [50], [116, 55, 83]] = [.turnoutIs 12 true, .sensor 7 true] :=
  read_back [(⟨[63], fun _ hch _ => List.mem_singleton.mp hch ▸ rfl, by simp [isDigit]⟩,
      ⟨12, .turnoutIs true, by decide⟩),
    (⟨[], nofun, nofun⟩, ⟨7, .sensor true, by decide⟩)] [[63, 49], [50], [116, 55, 83]] (by decide)

end LCN

end CommandStation
