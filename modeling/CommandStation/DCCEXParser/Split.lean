import CommandStation.DCCEXParser.Basic
import Mathlib.Logic.Relation

/-!
# What splitValues does

The loop of `splitValues` always comes to an end: a turn that does not pass a byte goes on to another
state or finds a parameter, and there are not more than `MAX_COMMAND_PARAMS` of them. `Split.result`
is what comes out, and has one rule for each state and kind of character.
-/

namespace CommandStation

namespace DCCEXParser

variable {enoughMemory usehex : Bool} {s t : Split}

namespace Split

/-! ## Termination -/

/-- The turns that can be made at the same byte, before a parameter is found. -/
def turnsLeft : SplitState → Nat
  | .skipping => 2
  | .checking => 1
  | .building => 0
  | .text => 2

def measure (s : Split) : Nat :=
  3 * s.rest.length + 3 * (maxCommandParams - s.params.length) + turnsLeft s.state

/-- Each turn of the loop gets nearer to its end. -/
theorem measure_turn (h : s.turn enoughMemory usehex = .more t)
    (hcount : s.params.length < maxCommandParams) : t.measure < s.measure := by
  obtain ⟨state, params, runningValue, signNegative, passed, rest⟩ := s
  unfold maxCommandParams at hcount
  dsimp only at hcount
  cases rest with
  | nil => cases h
  | cons hot rest =>
    -- a turn takes a byte, or goes from checking to a state that will
    cases state with
    | skipping =>
      simp only [turn, advance] at h
      split at h
      · cases h
        simp [measure, turnsLeft]
      · split at h
        · cases h
        · split at h
          · cases h
          · cases h
            simp [measure, turnsLeft]
    | checking =>
      simp only [turn, advance] at h
      split at h
      · cases h
        simp only [measure, turnsLeft, List.length_append, List.length_cons, List.length_nil,
          maxCommandParams]
        omega
      · split at h
        · cases h
          simp [measure, turnsLeft]
        · cases h
          simp only [measure, turnsLeft, List.length_cons]
          omega
    | building =>
      simp only [turn, advance] at h
      split at h
      · cases h
        simp [measure, turnsLeft]
      · split at h
        · cases h
          simp [measure, turnsLeft]
        · split at h
          · cases h
            simp [measure, turnsLeft]
          · cases h
            simp only [measure, turnsLeft, List.length_append, List.length_cons, List.length_nil,
              maxCommandParams]
            omega
    | text =>
      simp only [turn, advance, terminate] at h
      split at h
      · cases h
      · split at h <;> cases h <;> simp [measure, turnsLeft]

/-- With enough fuel there is a result, and more fuel does not change it. -/
theorem loop_fuel (enoughMemory usehex : Bool) {fuel : Nat} (h : s.measure < fuel) (more : Nat) :
    ∃ turn, s.loop enoughMemory usehex fuel = some turn ∧
      s.loop enoughMemory usehex (fuel + more) = some turn := by
  induction fuel generalizing s with
  | zero => omega
  | succ fuel ih =>
    rw [Nat.add_right_comm, loop, loop]
    split
    · exact ⟨_, rfl, rfl⟩
    · next hcount =>
      split
      · next t hturn =>
        have := measure_turn hturn (by omega)
        exact ih (by omega)
      · exact ⟨_, rfl, rfl⟩

variable (enoughMemory usehex) in
/-- What comes out of the loop. -/
def result (s : Split) : Turn := (s.loop enoughMemory usehex (s.measure + 1)).getD .beyond

theorem loop_eq_result {fuel : Nat} (h : s.measure < fuel) :
    s.loop enoughMemory usehex fuel = some (s.result enoughMemory usehex) := by
  obtain ⟨turn, hturn, hmore⟩ := loop_fuel enoughMemory usehex (Nat.lt_succ_self s.measure)
    (fuel - (s.measure + 1))
  rw [show s.measure.succ + (fuel - (s.measure + 1)) = fuel by omega] at hmore
  rw [hmore, result, hturn, Option.getD_some]

theorem result_of_full (h : maxCommandParams ≤ s.params.length) :
    s.result enoughMemory usehex = .returns s.params.length s := by
  rw [result, loop, if_pos h, Option.getD_some]

theorem result_of_more (hcount : s.params.length < maxCommandParams)
    (h : s.turn enoughMemory usehex = .more t) :
    s.result enoughMemory usehex = t.result enoughMemory usehex := by
  have hless := measure_turn h hcount
  rw [result, loop, if_neg (by omega), h]
  dsimp only
  rw [loop_eq_result hless, Option.getD_some]

theorem result_of_returns (hcount : s.params.length < maxCommandParams) {splitnum : Int}
    (h : s.turn enoughMemory usehex = .returns splitnum t) :
    s.result enoughMemory usehex = .returns splitnum t := by
  rw [result, loop, if_neg (by omega), h, Option.getD_some]

theorem result_of_nil (hcount : s.params.length < maxCommandParams) (h : s.rest = []) :
    s.result enoughMemory usehex = .beyond := by
  have hturn : s.turn enoughMemory usehex = .beyond := by simp [turn, h]
  rw [result, loop, if_neg (by omega), hturn, Option.getD_some]

/-! ## From one state to the other -/

variable (enoughMemory usehex) in
/-- The loop makes a turn. -/
def Turns (s t : Split) : Prop :=
  s.params.length < maxCommandParams ∧ s.turn enoughMemory usehex = .more t

variable (enoughMemory usehex) in
/-- The loop gets from one state to the other. -/
def Reaches : Split → Split → Prop := Relation.ReflTransGen (Turns enoughMemory usehex)

theorem Reaches.result_eq (h : Reaches enoughMemory usehex s t) :
    s.result enoughMemory usehex = t.result enoughMemory usehex := by
  induction h with
  | refl => rfl
  | tail _ hturn ih => exact ih.trans (result_of_more hturn.1 hturn.2)

/-! ## The rules

One for each state and kind of character. There is room for another parameter in all of them. -/

section Rules

variable {params : List Int16} {runningValue : Int16} {signNegative : Bool}
variable {passed rest : List UInt8} {hot : UInt8}

/-- A character of a number or a keyword. -/
def isWord (b : UInt8) : Bool := isDigit b || isLetter (upper b)

theorem skip_space (hcount : params.length < maxCommandParams) :
    result enoughMemory usehex ⟨.skipping, params, runningValue, signNegative, passed, space :: rest⟩
      = result enoughMemory usehex
        ⟨.skipping, params, runningValue, signNegative, passed ++ [space], rest⟩ :=
  result_of_more hcount rfl

theorem skip_zero (hcount : params.length < maxCommandParams) :
    result enoughMemory usehex ⟨.skipping, params, runningValue, signNegative, passed, 0 :: rest⟩
      = .returns (-1) ⟨.skipping, params, runningValue, signNegative, passed, 0 :: rest⟩ :=
  result_of_returns hcount rfl

theorem skip_closing (hcount : params.length < maxCommandParams) :
    result enoughMemory usehex
        ⟨.skipping, params, runningValue, signNegative, passed, closing :: rest⟩
      = .returns params.length ⟨.skipping, params, runningValue, signNegative, passed, 0 :: rest⟩ :=
  result_of_returns hcount rfl

/-- From the spaces to the checks for a sign and a string. -/
theorem skip_more (hcount : params.length < maxCommandParams) (hspace : hot ≠ space) (hzero : hot ≠ 0)
    (hclosing : hot ≠ closing) :
    result enoughMemory usehex ⟨.skipping, params, runningValue, signNegative, passed, hot :: rest⟩
      = result enoughMemory usehex
        ⟨.checking, params, runningValue, signNegative, passed, hot :: rest⟩ :=
  result_of_more hcount (by simp [turn, hspace, hzero, hclosing])

theorem skip_quote (hcount : params.length < maxCommandParams) :
    result true usehex ⟨.skipping, params, runningValue, signNegative, passed, quote :: rest⟩
      = result true usehex
        ⟨.text, params ++ [0x7777, Int16.ofNat (passed.length + 1)], runningValue, signNegative,
          passed ++ [quote], rest⟩ := by
  rw [skip_more hcount (by decide) (by decide) (by decide)]
  exact result_of_more hcount rfl

theorem skip_minus (hcount : params.length < maxCommandParams) :
    result enoughMemory usehex ⟨.skipping, params, runningValue, signNegative, passed, minus :: rest⟩
      = result enoughMemory usehex ⟨.building, params, 0, true, passed ++ [minus], rest⟩ := by
  rw [skip_more hcount (by decide) (by decide) (by decide)]
  refine result_of_more hcount ?_
  have hquote : ¬ (enoughMemory = true ∧ minus = quote) := fun h => absurd h.2 (by decide)
  simp [turn, hquote, advance]

/-- A parameter without a sign begins. -/
theorem reaches_building (hcount : params.length < maxCommandParams) (hspace : hot ≠ space)
    (hzero : hot ≠ 0) (hclosing : hot ≠ closing) (hquote : ¬ (enoughMemory = true ∧ hot = quote))
    (hminus : hot ≠ minus) :
    Reaches enoughMemory usehex ⟨.skipping, params, runningValue, signNegative, passed, hot :: rest⟩
      ⟨.building, params, 0, false, passed, hot :: rest⟩ := by
  have hskip : Turns enoughMemory usehex
      ⟨.skipping, params, runningValue, signNegative, passed, hot :: rest⟩
      ⟨.checking, params, runningValue, signNegative, passed, hot :: rest⟩ :=
    ⟨hcount, by simp [turn, hspace, hzero, hclosing]⟩
  have hcheck : Turns enoughMemory usehex
      ⟨.checking, params, runningValue, signNegative, passed, hot :: rest⟩
      ⟨.building, params, 0, false, passed, hot :: rest⟩ :=
    ⟨hcount, by simp [turn, hquote, hminus]⟩
  exact .head hskip (.single hcheck)

theorem skip_other (hcount : params.length < maxCommandParams) (hspace : hot ≠ space) (hzero : hot ≠ 0)
    (hclosing : hot ≠ closing) (hquote : ¬ (enoughMemory = true ∧ hot = quote)) (hminus : hot ≠ minus) :
    result enoughMemory usehex ⟨.skipping, params, runningValue, signNegative, passed, hot :: rest⟩
      = result enoughMemory usehex ⟨.building, params, 0, false, passed, hot :: rest⟩ :=
  (reaches_building hcount hspace hzero hclosing hquote hminus).result_eq

theorem turn_digit (hdigit : isDigit hot = true) :
    turn enoughMemory false ⟨.building, params, runningValue, signNegative, passed, hot :: rest⟩
      = .more ⟨.building, params, 10 * runningValue + (hot - 48).toUInt16.toInt16, signNegative,
          passed ++ [hot], rest⟩ := by
  simp [turn, hdigit, advance]

theorem turn_letter (hdigit : isDigit hot = false) (hletter : isLetter (upper hot) = true) :
    turn enoughMemory false ⟨.building, params, runningValue, signNegative, passed, hot :: rest⟩
      = .more ⟨.building, params,
          ((runningValue <<< 5) + runningValue) ^^^ (upper hot).toUInt16.toInt16, signNegative,
          passed ++ [hot], rest⟩ := by
  simp [turn, hdigit, hletter, advance]

theorem build_digit (hcount : params.length < maxCommandParams) (hdigit : isDigit hot = true) :
    result enoughMemory false ⟨.building, params, runningValue, signNegative, passed, hot :: rest⟩
      = result enoughMemory false
        ⟨.building, params, 10 * runningValue + (hot - 48).toUInt16.toInt16, signNegative,
          passed ++ [hot], rest⟩ :=
  result_of_more hcount (turn_digit hdigit)

/-- A character that belongs to a parameter is passed, whatever its value is. -/
theorem build_word (hcount : params.length < maxCommandParams) (hword : isWord hot = true) :
    ∃ value, result enoughMemory usehex
        ⟨.building, params, runningValue, signNegative, passed, hot :: rest⟩
      = result enoughMemory usehex
        ⟨.building, params, value, signNegative, passed ++ [hot], rest⟩ := by
  by_cases hdigit : isDigit hot = true
  · refine ⟨(if usehex then 16 else 10) * runningValue + (hot - 48).toUInt16.toInt16,
      result_of_more hcount ?_⟩
    simp [turn, hdigit, advance]
  · by_cases hhex : usehex = true ∧ 65 ≤ upper hot ∧ upper hot ≤ 70
    · refine ⟨16 * runningValue + (upper hot - 55).toUInt16.toInt16, result_of_more hcount ?_⟩
      simp [turn, hdigit, hhex, advance]
    · have hletter : isLetter (upper hot) = true := by simpa [isWord, hdigit] using hword
      refine ⟨((runningValue <<< 5) + runningValue) ^^^ (upper hot).toUInt16.toInt16,
        result_of_more hcount ?_⟩
      simp only [turn, hdigit, hhex, hletter, advance, Bool.false_eq_true, if_false, if_true]

/-- A character that does not belong to the parameter ends it. -/
theorem turn_end (hword : isWord hot = false) :
    turn enoughMemory usehex ⟨.building, params, runningValue, signNegative, passed, hot :: rest⟩
      = .more ⟨.skipping, params ++ [runningValue * (if signNegative then -1 else 1)], runningValue,
          signNegative, passed, hot :: rest⟩ := by
  obtain ⟨hdigit, hletter⟩ := Bool.or_eq_false_iff.mp hword
  have hhex : ¬ (usehex = true ∧ 65 ≤ upper hot ∧ upper hot ≤ 70) := by
    intro hhex
    have : isLetter (upper hot) = true := by
      have hle : upper hot ≤ 90 := UInt8.le_trans hhex.2.2 (by decide)
      simp [isLetter, hhex.2.1, hle]
    simp [this] at hletter
  simp [turn, hdigit, hletter, hhex]

theorem build_end (hcount : params.length < maxCommandParams) (hword : isWord hot = false) :
    result enoughMemory usehex ⟨.building, params, runningValue, signNegative, passed, hot :: rest⟩
      = result enoughMemory usehex
        ⟨.skipping, params ++ [runningValue * (if signNegative then -1 else 1)], runningValue,
          signNegative, passed, hot :: rest⟩ :=
  result_of_more hcount (turn_end hword)

theorem text_zero (hcount : params.length < maxCommandParams) :
    result enoughMemory usehex ⟨.text, params, runningValue, signNegative, passed, 0 :: rest⟩
      = .returns (-1) ⟨.text, params, runningValue, signNegative, passed, 0 :: rest⟩ :=
  result_of_returns hcount rfl

theorem text_quote (hcount : params.length < maxCommandParams) :
    result enoughMemory usehex ⟨.text, params, runningValue, signNegative, passed, quote :: rest⟩
      = result enoughMemory usehex
        ⟨.skipping, params, runningValue, signNegative, passed ++ [0], rest⟩ :=
  result_of_more hcount rfl

theorem text_other (hcount : params.length < maxCommandParams) (hzero : hot ≠ 0) (hquote : hot ≠ quote) :
    result enoughMemory usehex ⟨.text, params, runningValue, signNegative, passed, hot :: rest⟩
      = result enoughMemory usehex
        ⟨.text, params, runningValue, signNegative, passed ++ [hot], rest⟩ :=
  result_of_more hcount (by simp [turn, hzero, hquote, advance])

end Rules

/-! ## Bytes behind a command -/

/-- More bytes behind the command. -/
def extend (s : Split) (bs : List UInt8) : Split := { s with rest := s.rest ++ bs }

/-- A turn with more bytes behind the command. -/
def extendTurn (bs : List UInt8) : Turn → Turn
  | .more t => .more (t.extend bs)
  | .returns splitnum t => .returns splitnum (t.extend bs)
  | .beyond => .beyond

/-- A turn does not look behind the bytes that are there, so more of them change nothing. -/
theorem turn_extend (enoughMemory usehex : Bool) (bs : List UInt8) (h : s.rest ≠ []) :
    (s.extend bs).turn enoughMemory usehex = extendTurn bs (s.turn enoughMemory usehex) := by
  obtain ⟨state, params, runningValue, signNegative, passed, rest⟩ := s
  obtain ⟨hot, rest, rfl⟩ := List.exists_cons_of_ne_nil h
  cases state with
  | skipping => simp only [turn, extend, advance, terminate, List.cons_append]; split_ifs <;> rfl
  | checking => simp only [turn, extend, advance, List.cons_append]; split_ifs <;> rfl
  | building =>
    simp only [turn, extend, advance, List.cons_append]
    by_cases hdigit : isDigit hot = true
    · rw [if_pos hdigit, if_pos hdigit]
      rfl
    rw [if_neg hdigit, if_neg hdigit]
    by_cases hhex : usehex = true ∧ 65 ≤ upper hot ∧ upper hot ≤ 70
    · rw [if_pos hhex, if_pos hhex]
      rfl
    rw [if_neg hhex, if_neg hhex]
    by_cases hletter : isLetter (upper hot) = true
    · rw [if_pos hletter, if_pos hletter]
      rfl
    rw [if_neg hletter, if_neg hletter]
    rfl
  | text =>
    simp only [turn, extend, advance, terminate, List.cons_append, List.tail_cons]
    split_ifs <;> rfl

/-- A rule for what is returned: by the turns of the loop, from the last one backwards. -/
theorem returns_induct {P : Split → Prop} {splitnum : Int}
    (full : ∀ s, maxCommandParams ≤ s.params.length →
      s.result enoughMemory usehex = .returns splitnum t → P s)
    (more : ∀ s s', s.params.length < maxCommandParams → s.turn enoughMemory usehex = .more s' →
      s.result enoughMemory usehex = .returns splitnum t → P s' → P s)
    (returns : ∀ s, s.params.length < maxCommandParams →
      s.turn enoughMemory usehex = .returns splitnum t → P s)
    (h : s.result enoughMemory usehex = .returns splitnum t) : P s := by
  obtain ⟨k, hk⟩ : ∃ k, s.measure < k := ⟨_, Nat.lt_succ_self _⟩
  induction k generalizing s with
  | zero => omega
  | succ k ih =>
    by_cases hfull : maxCommandParams ≤ s.params.length
    · exact full s hfull h
    have hcount : s.params.length < maxCommandParams := by omega
    cases hs : s.turn enoughMemory usehex with
    | more s' =>
      have hmeasure := measure_turn hs hcount
      have hrest : s'.result enoughMemory usehex = .returns splitnum t := (result_of_more hcount hs).symm.trans h
      exact more s s' hcount hs h (ih hrest (by omega))
    | returns splitnum' t' =>
      rw [result_of_returns hcount hs] at h
      cases h
      exact returns s hcount hs
    | beyond =>
      exfalso
      rw [result, loop, if_neg (by omega), hs] at h
      cases h

/-- What a command gives does not depend on the bytes behind its end. -/
theorem result_extend {splitnum : Int} (bs : List UInt8)
    (h : s.result enoughMemory usehex = .returns splitnum t) :
    (s.extend bs).result enoughMemory usehex = .returns splitnum (t.extend bs) := by
  refine returns_induct (P := fun s => (s.extend bs).result enoughMemory usehex =
    .returns splitnum (t.extend bs)) ?_ ?_ ?_ h
  · intro s hfull hs
    rw [result_of_full hfull] at hs
    cases hs
    exact result_of_full hfull
  · intro s s' hcount hmore hs ih
    have hrest : s.rest ≠ [] := by
      intro hnil
      rw [result_of_nil hcount hnil] at hs
      cases hs
    have hturn := turn_extend enoughMemory usehex bs hrest
    rw [hmore] at hturn
    rw [result_of_more (s := s.extend bs) hcount hturn]
    exact ih
  · intro s hcount hreturns
    have hrest : s.rest ≠ [] := by
      intro hnil
      have hs := result_of_returns hcount hreturns
      rw [result_of_nil hcount hnil] at hs
      cases hs
    have hturn := turn_extend enoughMemory usehex bs hrest
    rw [hreturns] at hturn
    exact result_of_returns (s := s.extend bs) hcount hturn

end Split

/-- `splitValues` begins behind the opcode. -/
def Split.start (cmd : List UInt8) : Split := ⟨.skipping, [], 0, false, cmd.take 1, cmd.drop 1⟩

/-- `splitValues` always comes to an end. -/
theorem splitValues_eq (cmd : List UInt8) :
    splitValues enoughMemory usehex cmd
      = some (Split.result enoughMemory usehex ⟨.skipping, [], 0, false, cmd.take 1, cmd.drop 1⟩) := by
  apply Split.loop_eq_result
  simp only [Split.measure, Split.turnsLeft, List.length_drop, List.length_nil, maxCommandParams]
  omega

end DCCEXParser

end CommandStation
