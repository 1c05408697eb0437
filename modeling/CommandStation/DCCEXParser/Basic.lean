import Mathlib.Data.List.Basic

/-!
# The parser for DCC-EX commands

A command `<opcode param param ...>` is read in place: `splitValues` goes over the text once, and
writes a zero over the quote at the end of a string and over the final `>`. `parse` looks for the
commands in a buffer, and goes on in the buffer that `parseOne` has changed.

The buffer is the list of its bytes, the terminating zero included. A read behind its end is an
outcome of its own. What the opcodes do is left out here: a command is executed when its opcode and
its parameters get to the switch of `parseOne`. The filters see them before that, and may change them.
-/

namespace CommandStation

namespace DCCEXParser

/-- `MAX_COMMAND_PARAMS` -/
def maxCommandParams : Nat := 10

/-! ## Characters -/

def space : UInt8 := 32

def quote : UInt8 := 34

def minus : UInt8 := 45

/-- The character `<` that opens a command. -/
def opening : UInt8 := 60

/-- The character `>` that closes it. -/
def closing : UInt8 := 62

def isDigit (b : UInt8) : Bool := 48 ≤ b && b ≤ 57

/-- Letters are made upper case. -/
def upper (b : UInt8) : UInt8 := if 97 ≤ b && b ≤ 122 then b - 32 else b

/-- A letter or an underscore; lower case letters have been replaced. -/
def isLetter (b : UInt8) : Bool := b == 95 || (65 ≤ b && b ≤ 90)

/-! ## The parameters of a command -/

/-- The states 1 to 4 of `splitValues`. -/
inductive SplitState where
  | skipping  -- spaces before a parameter
  | checking  -- sign or quoted string
  | building  -- a parameter
  | text      -- skip over text
  deriving DecidableEq, Repr

/-- The variables of `splitValues`. `params` are the entries of `result` up to `parameterCount`,
`passed` are the bytes from `cmd` to `remainingCmd` and `rest` those from there on. -/
structure Split where
  state : SplitState
  params : List Int16
  runningValue : Int16
  signNegative : Bool
  passed : List UInt8
  rest : List UInt8
  deriving DecidableEq, Repr

/-- One turn of the loop. -/
inductive Turn where
  | more (s : Split)
  | returns (splitnum : Int) (s : Split)
  /-- A byte was read behind the end of the buffer. -/
  | beyond
  deriving DecidableEq, Repr

variable (enoughMemory usehex : Bool)

namespace Split

/-- `remainingCmd++` -/
def advance (s : Split) : Split :=
  match s.rest with
  | [] => s
  | hot :: rest => { s with passed := s.passed ++ [hot], rest := rest }

/-- A zero is written at `remainingCmd`. -/
def terminate (s : Split) : Split := { s with rest := 0 :: s.rest.tail }

/-- The body of the loop of `splitValues`. -/
def turn (s : Split) : Turn :=
  match s.rest with
  | [] => .beyond
  | hot :: _ =>
    match s.state with
    | .skipping =>
      if hot = space then .more s.advance
      else if hot = 0 then .returns (-1) s
      else if hot = closing then .returns s.params.length s.terminate
      else .more { s with state := .checking }
    | .checking =>
      if enoughMemory ∧ hot = quote then
        -- a marker in front of the offset of the string
        .more { s.advance with
          state := .text, params := s.params ++ [0x7777, Int16.ofNat (s.passed.length + 1)] }
      else
        let s := { s with signNegative := false, runningValue := 0, state := .building }
        if hot ≠ minus then .more s else .more { s.advance with signNegative := true }
    | .building =>
      if isDigit hot then
        .more { s.advance with
          runningValue := (if usehex then 16 else 10) * s.runningValue + (hot - 48).toUInt16.toInt16 }
      else if usehex ∧ 65 ≤ upper hot ∧ upper hot ≤ 70 then
        -- treat A..F as hex not keyword
        .more { s.advance with
          runningValue := 16 * s.runningValue + (upper hot - 55).toUInt16.toInt16 }
      else if isLetter (upper hot) then
        .more { s.advance with
          runningValue :=
            ((s.runningValue <<< 5) + s.runningValue) ^^^ (upper hot).toUInt16.toInt16 }
      else
        .more { s with
          params := s.params ++ [s.runningValue * (if s.signNegative then -1 else 1)]
          state := .skipping }
    | .text =>
      if hot = 0 then .returns (-1) s  -- the end of the buffer without finding the quote
      else if hot = quote then .more { s.terminate.advance with state := .skipping }
      else .more s.advance

/-- The loop of `splitValues`. -/
def loop (fuel : Nat) (s : Split) : Option Turn :=
  if maxCommandParams ≤ s.params.length then some (.returns s.params.length s)
  else
    match fuel with
    | 0 => none
    | n + 1 =>
      match s.turn enoughMemory usehex with
      | .more s => loop n s
      | turn => some turn

end Split

/-- `splitValues` at a command. The turns of its loop are bounded by the length of the buffer. -/
def splitValues (cmd : List UInt8) : Option Turn :=
  Split.loop enoughMemory usehex (3 * cmd.length + 33)
    ⟨.skipping, [], 0, false, cmd.take 1, cmd.drop 1⟩

/-! ## Commands -/

/-- What comes out of a call of `parseOne`. -/
inductive Outcome where
  /-- The opcode and the parameters get to the switch. -/
  | executed (opcode : UInt8) (params : List Int16)
  /-- The arguments are broken, `<X>` is printed. -/
  | rejected
  /-- The opcode is a zero. -/
  | ignored
  | beyond
  deriving DecidableEq, Repr

/-- What `parseOne` strips off: any number of `<` or spaces. -/
def isLead (b : UInt8) : Bool := b == opening || b == space

/-- `parseOne` for the command at `com`, and its bytes afterwards. -/
def parseOne (com : List UInt8) : Outcome × List UInt8 :=
  let lead := com.takeWhile isLead
  let cmd := com.dropWhile isLead
  match cmd with
  | [] => (.beyond, com)
  | opcode :: _ =>
    match splitValues enoughMemory (opcode = 77 || opcode = 80) cmd with
    | some (.returns splitnum s) =>
      let com := lead ++ (s.passed ++ s.rest)
      if splitnum < 0 ∨ maxCommandParams ≤ splitnum then (.rejected, com)
      else if opcode = 0 then (.ignored, com)
      else (.executed opcode s.params, com)
    | _ => (.beyond, com)

/-- The buffer and the calls of `parseOne`, with the place of each. -/
structure Parse where
  buffer : List UInt8
  calls : List (Nat × Outcome)
  deriving DecidableEq, Repr

namespace Parse

/-- `parseOne` is called for the command at place `p`. -/
def call (st : Parse) (p : Nat) : Parse :=
  let (outcome, com) := parseOne enoughMemory (st.buffer.drop p)
  ⟨st.buffer.take p ++ com, st.calls ++ [(p, outcome)]⟩

/-- `if (cForLater) parseOne(cForLater)` -/
def callLater (st : Parse) : Option Nat → Parse
  | none => st
  | some p => st.call enoughMemory p

/-- The loop of `parse` from place `c` on, with `n` bytes to go. -/
def loop (n c : Nat) (cForLater : Option Nat) (found : Bool) (st : Parse) : Parse :=
  match n, st.buffer[c]? with
  | n + 1, some b =>
    if b = 0 then st.callLater enoughMemory cForLater
    else
      let cForLater := if found then some c else cForLater
      if b = opening then loop n (c + 1) cForLater true (st.callLater enoughMemory cForLater)
      else loop n (c + 1) cForLater false st
  | _, _ => { st with calls := st.calls ++ [(c, .beyond)] }

end Parse

/-- `DCCEXParser::parse`. A command may stand there with or without the leading `<`. -/
def parse (com : List UInt8) : Parse :=
  Parse.loop enoughMemory com.length 0 none (com.head? ≠ some opening) ⟨com, []⟩

/-- The commands that are executed. -/
def Parse.executed (st : Parse) : List (UInt8 × List Int16) :=
  st.calls.filterMap fun
    | (_, .executed opcode params) => some (opcode, params)
    | _ => none

end DCCEXParser

end CommandStation
