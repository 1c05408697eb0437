import CommandStation.DCCEXParser.Split
import Mathlib.Data.List.TakeWhile

/-!
# How a command is read

`Reading` follows `splitValues` over the bytes of a command without the values that it reads: where
the command ends, and which bytes are overwritten. These are the quotes at the end of strings and the
`>` of the command.
-/

namespace CommandStation

namespace DCCEXParser

variable (enoughMemory : Bool) {usehex : Bool} {s : Split} {b : UInt8} {n : Nat} {bs : List UInt8}

/-! ## What is overwritten -/

/-- Where a reader of a command is. -/
inductive Mode where
  | gap
  | word
  | text
  /-- The command has ended or is broken. -/
  | ended
  deriving DecidableEq, Repr

/-- The reader and the number of entries it has found. -/
structure Reading where
  mode : Mode
  entries : Nat
  deriving DecidableEq, Repr

namespace Reading

/-- A byte between two parameters, and if it is overwritten. -/
def gapNext (n : Nat) (b : UInt8) : Reading × Bool :=
  if b = space then (⟨.gap, n⟩, false)
  else if b = closing then (⟨.ended, n⟩, true)
  else if enoughMemory ∧ b = quote then
    -- a string has two entries
    (⟨if n + 2 < maxCommandParams then .text else .ended, n + 2⟩, false)
  else if b = minus ∨ Split.isWord b then (⟨.word, n⟩, false)
  else (⟨.ended, n⟩, false)

/-- The next byte, and if it is overwritten. -/
def next (r : Reading) (b : UInt8) : Reading × Bool :=
  match r.mode with
  | .gap => gapNext enoughMemory r.entries b
  | .word =>
    if Split.isWord b then (r, false)
    else if r.entries + 1 < maxCommandParams then gapNext enoughMemory (r.entries + 1) b
    else (⟨.ended, r.entries + 1⟩, false)
  | .text =>
    if b = 0 then (⟨.ended, r.entries⟩, false)
    else if b = quote then (⟨.gap, r.entries⟩, true)
    else (r, false)
  | .ended => (r, false)

/-- The bytes after they were read. -/
def blanked (r : Reading) : List UInt8 → List UInt8
  | [] => []
  | b :: bs => (if (r.next enoughMemory b).2 then 0 else b) :: blanked (r.next enoughMemory b).1 bs

/-- The command comes to an end in these bytes. -/
def Ends (r : Reading) : List UInt8 → Prop
  | [] => r.mode = .ended
  | b :: bs => r.mode = .ended ∨ Ends (r.next enoughMemory b).1 bs

/-- The command is closed in these bytes. -/
def Closes (r : Reading) : List UInt8 → Prop
  | [] => False
  | b :: bs => (b = closing ∧ (r.next enoughMemory b).2 = true) ∨ Closes (r.next enoughMemory b).1 bs

end Reading

variable {enoughMemory}

theorem blanked_ended : Reading.blanked enoughMemory ⟨.ended, n⟩ bs = bs := by
  induction bs with
  | nil => rfl
  | cons b bs ih => simp [Reading.blanked, Reading.next, ih]

/-- What comes out from some place of a command on, if `passed` was there before and the reader finds
`bs`: the command ends, with the overwritten bytes, or there are not enough bytes. Its parameters are
good only if it has been closed. -/
def Follows (enoughMemory : Bool) (passed : List UInt8) (r : Reading) (bs : List UInt8) : Turn → Prop
  | .returns splitnum t =>
    t.passed ++ t.rest = passed ++ r.blanked enoughMemory bs ∧ r.Ends enoughMemory bs ∧
    (0 ≤ splitnum → splitnum < maxCommandParams → r.Closes enoughMemory bs)
  | .more _ => False
  | .beyond => ¬ r.Ends enoughMemory bs

section Rules

variable {params : List Int16} {value : Int16} {signNegative : Bool} {passed : List UInt8}
variable {turn : Turn} {r : Reading}

/-- A byte has been passed. -/
theorem Follows.cons {r' : Reading} {b' : UInt8} (hmode : r.mode ≠ .ended)
    (hnext : r.next enoughMemory b = (r', false) ∧ b' = b ∨ r.next enoughMemory b = (r', true) ∧ b' = 0)
    (h : Follows enoughMemory (passed ++ [b']) r' bs turn) :
    Follows enoughMemory passed r (b :: bs) turn := by
  have hr : (r.next enoughMemory b).1 = r' := by rcases hnext with hnext | hnext <;> rw [hnext.1]
  have hb : (if (r.next enoughMemory b).2 then 0 else b) = b' := by
    rcases hnext with hnext | hnext <;> rw [hnext.1, hnext.2] <;> rfl
  cases turn with
  | more t => exact h
  | beyond =>
    intro hends
    rw [Reading.Ends, hr] at hends
    exact h (hends.resolve_left hmode)
  | returns splitnum t =>
    refine ⟨?_, .inr (by rw [hr]; exact h.2.1), fun hpos hlt => .inr (by rw [hr]; exact h.2.2 hpos hlt)⟩
    rw [h.1, Reading.blanked, hr, hb, List.append_assoc, List.singleton_append]

/-- Readers that go on in the same way. -/
theorem Follows.congr {r' : Reading} (h : Follows enoughMemory passed r' (b :: bs) turn)
    (hmode : r.mode ≠ .ended) (hmode' : r'.mode ≠ .ended)
    (hnext : r.next enoughMemory b = r'.next enoughMemory b) :
    Follows enoughMemory passed r (b :: bs) turn := by
  cases turn with
  | more t => exact h
  | beyond =>
    intro hends
    rw [Reading.Ends, hnext] at hends
    exact h (.inr (hends.resolve_left hmode))
  | returns splitnum t =>
    refine ⟨by rw [h.1, Reading.blanked, Reading.blanked, hnext], ?_, fun hpos hlt => ?_⟩
    · rw [Reading.Ends, hnext]
      exact .inr (h.2.1.resolve_left hmode')
    · rw [Reading.Closes, hnext]
      exact h.2.2 hpos hlt

theorem ends_of_ended (hmode : r.mode = .ended) : r.Ends enoughMemory bs := by
  cases bs with
  | nil => exact hmode
  | cons b bs => exact .inl hmode

/-- The command is broken, and the rest stays as it is. -/
theorem follows_ended {t : Split} (hmode : r.mode = .ended) (h : t.passed ++ t.rest = passed ++ bs)
    {splitnum : Int} (hbroken : splitnum < 0 ∨ (maxCommandParams : Int) ≤ splitnum) :
    Follows enoughMemory passed r bs (.returns splitnum t) := by
  obtain ⟨mode, entries⟩ := r
  cases hmode
  exact ⟨by rw [blanked_ended, h], ends_of_ended rfl, fun hpos hlt => by omega⟩

theorem follows_closing {t : Split} (hnext : r.next enoughMemory closing = (⟨.ended, n⟩, true))
    (h : t.passed ++ t.rest = passed ++ 0 :: bs) {splitnum : Int} :
    Follows enoughMemory passed r (closing :: bs) (.returns splitnum t) := by
  refine ⟨?_, .inr (by rw [hnext]; exact ends_of_ended rfl), fun _ _ => .inl ⟨rfl, by rw [hnext]⟩⟩
  rw [Reading.blanked, hnext, blanked_ended, h]
  rfl

/-- Another character fills the entries up, and is never passed. -/
theorem result_junk (hcount : params.length < maxCommandParams) (hspace : b ≠ space) (hzero : b ≠ 0)
    (hclosing : b ≠ closing) (hquote : ¬ (enoughMemory = true ∧ b = quote)) (hminus : b ≠ minus)
    (hword : Split.isWord b = false) :
    ∃ splitnum t, Split.result enoughMemory usehex
        ⟨.skipping, params, value, signNegative, passed, b :: bs⟩ = .returns splitnum t ∧
      t.passed ++ t.rest = passed ++ b :: bs ∧ splitnum = maxCommandParams := by
  obtain ⟨k, hk⟩ : ∃ k, params.length + k = maxCommandParams :=
    ⟨maxCommandParams - params.length, by omega⟩
  induction k generalizing params value signNegative with
  | zero => omega
  | succ k ih =>
    rw [Split.skip_other hcount hspace hzero hclosing hquote hminus, Split.build_end hcount hword]
    by_cases hfull : params.length + 1 < maxCommandParams
    · exact ih (by simpa using hfull) (by simp; omega)
    · rw [Split.result_of_full (by simp; omega)]
      exact ⟨_, _, rfl, rfl, by simp only [List.length_append, List.length_singleton]; omega⟩

/-- In a state of `splitValues` the reader says what comes out. -/
def FollowsIn (enoughMemory usehex : Bool) (state : SplitState) (mode : Mode) (bs : List UInt8) : Prop :=
  ∀ params value signNegative passed, params.length < maxCommandParams →
    Follows enoughMemory passed ⟨mode, params.length⟩ bs (Split.result enoughMemory usehex
      ⟨state, params, value, signNegative, passed, bs⟩)

theorem followsIn_nil {state : SplitState} {mode : Mode} (hmode : mode ≠ .ended) :
    FollowsIn enoughMemory usehex state mode [] := by
  intro params value signNegative passed hcount
  rw [Split.result_of_nil hcount rfl]
  exact hmode

/-- In a gap, `splitValues` reads a byte as the text does: blanks, the end, a quote, a minus sign, or a
word. -/
theorem followsIn_skipping (hgap : FollowsIn enoughMemory usehex .skipping .gap bs)
    (hword : FollowsIn enoughMemory usehex .building .word bs)
    (htext : FollowsIn enoughMemory usehex .text .text bs) (b : UInt8) :
    FollowsIn enoughMemory usehex .skipping .gap (b :: bs) := by
  intro params value signNegative passed hcount
  have hmode : (⟨.gap, params.length⟩ : Reading).mode ≠ .ended := by simp
  -- in a gap, by the byte and in the order of the tests of `splitValues`
  by_cases hspace : b = space
  · rw [hspace, Split.skip_space hcount]
    exact (hgap params value signNegative _ hcount).cons hmode (.inl ⟨by simp [Reading.next, Reading.gapNext], rfl⟩)
  by_cases hclosing : b = closing
  · rw [hclosing, Split.skip_closing hcount]
    exact follows_closing (n := params.length) rfl rfl
  by_cases hquote : enoughMemory = true ∧ b = quote
  · obtain ⟨rfl, rfl⟩ := hquote
    rw [Split.skip_quote hcount]
    -- a string needs two entries, and the array has two left or not
    by_cases hfull : params.length + 2 < maxCommandParams
    · have hnext : (⟨.gap, params.length⟩ : Reading).next true quote
          = (⟨.text, params.length + 2⟩, false) := by
        simp [Reading.next, Reading.gapNext, hfull, hspace, hclosing]
      have htail := htext (params ++ [0x7777, Int16.ofNat (passed.length + 1)]) value signNegative
        (passed ++ [quote]) (by simpa using hfull)
      rw [List.length_append] at htail
      exact htail.cons hmode (.inl ⟨hnext, rfl⟩)
    · have hnext : (⟨.gap, params.length⟩ : Reading).next true quote
          = (⟨.ended, params.length + 2⟩, false) := by
        simp [Reading.next, Reading.gapNext, hfull, hspace, hclosing]
      rw [Split.result_of_full (by simpa using hfull)]
      exact Follows.cons hmode (.inl ⟨hnext, rfl⟩)
        (follows_ended rfl rfl (.inr (by simp only [List.length_append, List.length_cons, List.length_nil]; omega)))
  by_cases hminus : b = minus
  · rw [hminus, Split.skip_minus hcount]
    have hnext : (⟨.gap, params.length⟩ : Reading).next enoughMemory minus
        = (⟨.word, params.length⟩, false) := by
      rw [hminus] at hspace hclosing hquote
      simp [Reading.next, Reading.gapNext, hspace, hclosing, hquote]
    exact (hword params 0 true _ hcount).cons hmode (.inl ⟨hnext, rfl⟩)
  by_cases hzero : b = 0
  · rw [hzero, Split.skip_zero hcount]
    refine Follows.cons hmode (.inl ⟨?_, rfl⟩) (follows_ended (r := ⟨.ended, params.length⟩) rfl (by simp)
      (.inl (by decide)))
    have hother : Split.isWord 0 = false := by decide
    rw [hzero] at hspace hclosing hquote hminus
    simp [Reading.next, Reading.gapNext, hspace, hclosing, hquote, hminus, hother]
  by_cases hb : Split.isWord b = true
  · rw [Split.skip_other hcount hspace hzero hclosing hquote hminus]
    obtain ⟨value', hbuild⟩ : ∃ value', Split.result enoughMemory usehex
        ⟨.building, params, 0, false, passed, b :: bs⟩ = Split.result enoughMemory usehex
        ⟨.building, params, value', false, passed ++ [b], bs⟩ := Split.build_word hcount hb
    rw [hbuild]
    refine (hword params value' false _ hcount).cons hmode (.inl ⟨?_, rfl⟩)
    simp [Reading.next, Reading.gapNext, hspace, hclosing, hquote, hb]
  · rw [Bool.not_eq_true] at hb
    obtain ⟨splitnum, t, hresult, hbuffer, hfull⟩ := result_junk hcount hspace hzero hclosing hquote hminus hb
    rw [hresult]
    refine Follows.cons hmode (.inl ⟨?_, rfl⟩) (follows_ended (r := ⟨.ended, params.length⟩) rfl
      (by simpa using hbuffer) (.inr (Int.le_of_eq hfull.symm)))
    simp [Reading.next, Reading.gapNext, hspace, hclosing, hquote, hminus, hb]

/-- In a word, a byte that does not belong to it is read again in the gap behind it. -/
theorem followsIn_building (hword : FollowsIn enoughMemory usehex .building .word bs)
    (hskipping : FollowsIn enoughMemory usehex .skipping .gap (b :: bs)) :
    FollowsIn enoughMemory usehex .building .word (b :: bs) := by
  intro params value signNegative passed hcount
  have hmode : (⟨.word, params.length⟩ : Reading).mode ≠ .ended := by simp
  by_cases hb : Split.isWord b = true
  · obtain ⟨value', hbuild⟩ : ∃ value', Split.result enoughMemory usehex
        ⟨.building, params, value, signNegative, passed, b :: bs⟩ = Split.result enoughMemory usehex
        ⟨.building, params, value', signNegative, passed ++ [b], bs⟩ := Split.build_word hcount hb
    rw [hbuild]
    exact (hword params value' signNegative _ hcount).cons hmode (.inl ⟨by simp [Reading.next, hb], rfl⟩)
  · rw [Bool.not_eq_true] at hb
    rw [Split.build_end hcount hb]
    by_cases hfull : params.length + 1 < maxCommandParams
    · have hnext : (⟨.word, params.length⟩ : Reading).next enoughMemory b
          = (⟨.gap, params.length + 1⟩ : Reading).next enoughMemory b := by
        simp [Reading.next, hb, hfull]
      have hsame := hskipping (params ++ [value * (if signNegative then -1 else 1)]) value signNegative
        passed (by simpa using hfull)
      rw [List.length_append, List.length_singleton] at hsame
      exact hsame.congr hmode (by simp) hnext
    · rw [Split.result_of_full (by simpa using hfull)]
      refine Follows.cons hmode (.inl ⟨?_, rfl⟩)
        (follows_ended (r := ⟨.ended, params.length + 1⟩) rfl (by simp)
          (.inr (by simp only [List.length_append, List.length_singleton]; omega)))
      simp [Reading.next, hb, hfull]

theorem followsIn_text (hgap : FollowsIn enoughMemory usehex .skipping .gap bs)
    (htext : FollowsIn enoughMemory usehex .text .text bs) (b : UInt8) :
    FollowsIn enoughMemory usehex .text .text (b :: bs) := by
  intro params value signNegative passed hcount
  have hmode : (⟨.text, params.length⟩ : Reading).mode ≠ .ended := by simp
  by_cases hzero : b = 0
  · rw [hzero, Split.text_zero hcount]
    exact Follows.cons hmode (.inl ⟨rfl, rfl⟩) (follows_ended rfl (by simp) (.inl (by decide)))
  by_cases hquote : b = quote
  · rw [hquote, Split.text_quote hcount]
    exact (hgap params value signNegative _ hcount).cons hmode (.inr ⟨rfl, rfl⟩)
  · rw [Split.text_other hcount hzero hquote]
    refine (htext params value signNegative _ hcount).cons hmode (.inl ⟨?_, rfl⟩)
    simp [Reading.next, hzero, hquote]

/-- In each of its states `splitValues` does what the reader says. -/
theorem followsIn_all (enoughMemory usehex : Bool) (bs : List UInt8) :
    FollowsIn enoughMemory usehex .skipping .gap bs ∧
    FollowsIn enoughMemory usehex .building .word bs ∧
    FollowsIn enoughMemory usehex .text .text bs := by
  induction bs with
  | nil => exact ⟨followsIn_nil (by simp), followsIn_nil (by simp), followsIn_nil (by simp)⟩
  | cons b bs ih =>
    obtain ⟨hgap, hword, htext⟩ := ih
    have hskipping := followsIn_skipping hgap hword htext b
    exact ⟨hskipping, followsIn_building hword hskipping, followsIn_text hgap htext b⟩

end Rules

/-! ## Facts about the reader -/

/-- A byte that belongs to no parameter ends a command. -/
theorem next_junk (r : Reading) (hspace : b ≠ space) (hquote : b ≠ quote) (hminus : b ≠ minus)
    (hword : Split.isWord b = false) (htext : r.mode = .text → b = 0) :
    (r.next enoughMemory b).1.mode = .ended := by
  have hgap : ∀ n, (Reading.gapNext enoughMemory n b).1.mode = .ended := by
    intro n
    unfold Reading.gapNext
    rw [if_neg hspace]
    split
    · rfl
    · rw [if_neg fun h => hquote h.2, if_neg (by simp [hminus, hword])]
  obtain ⟨mode, entries⟩ := r
  cases mode with
  | gap => exact hgap entries
  | word =>
    simp only [Reading.next, hword, Bool.false_eq_true, if_false]
    split
    · exact hgap _
    · rfl
  | text =>
    rw [htext rfl]
    rfl
  | ended => rfl

theorem next_zero (enoughMemory : Bool) (r : Reading) : (r.next enoughMemory 0).1.mode = .ended :=
  next_junk r (by decide) (by decide) (by decide) (by decide) fun _ => rfl

/-- A command ends at a zero at the latest. -/
theorem ends_of_zero_mem (enoughMemory : Bool) {r : Reading} (h : 0 ∈ bs) : r.Ends enoughMemory bs := by
  induction bs generalizing r with
  | nil => cases h
  | cons b bs ih =>
    cases h with
    | tail _ h => exact .inr (ih h)
    | head => exact .inr (ends_of_ended (next_zero enoughMemory r))

theorem not_closes_of_ended {r : Reading} (h : r.mode = .ended) : ¬ r.Closes enoughMemory bs := by
  induction bs with
  | nil => exact id
  | cons b bs ih =>
    have hnext : r.next enoughMemory b = (r, false) := by simp [Reading.next, h]
    rw [Reading.Closes, hnext]
    rintro (⟨-, hwritten⟩ | hrest)
    · cases hwritten
    · exact ih hrest

@[simp] theorem length_blanked_bytes (r : Reading) :
    (r.blanked enoughMemory bs).length = bs.length := by
  induction bs generalizing r with
  | nil => rfl
  | cons b bs ih => rw [Reading.blanked, List.length_cons, ih, List.length_cons]

/-- A byte is left as it is, or it was a quote or the end of the command and is a zero now. -/
theorem getElem?_blanked (r : Reading) (i : Nat) {b : UInt8} (hi : bs[i]? = some b) :
    (r.blanked enoughMemory bs)[i]? = some b ∨
    (r.blanked enoughMemory bs)[i]? = some 0 ∧ (b = quote ∨ b = closing) := by
  induction bs generalizing r i with
  | nil => cases hi
  | cons b' bs ih =>
    cases i with
    | succ i => exact ih _ i hi
    | zero =>
      cases hi
      rw [Reading.blanked, List.getElem?_cons_zero]
      by_cases hw : (r.next enoughMemory b).2 = true
      · rw [if_pos hw]
        refine .inr ⟨rfl, ?_⟩
        have hgap : ∀ n, (Reading.gapNext enoughMemory n b).2 = true → b = closing := by
          intro n h
          unfold Reading.gapNext at h
          grind
        obtain ⟨mode, entries⟩ := r
        cases mode with
        | gap => exact .inr (hgap entries hw)
        | word =>
          simp only [Reading.next] at hw
          split at hw
          · cases hw
          · split at hw
            · exact .inr (hgap _ hw)
            · cases hw
        | text =>
          simp only [Reading.next] at hw
          split at hw
          · cases hw
          · split at hw
            · next hquote => exact .inl hquote
            · cases hw
        | ended => cases hw
      · rw [if_neg hw]
        exact .inl rfl

/-- A command that has been read cannot be closed again. -/
theorem not_closes_blanked (r : Reading) :
    ¬ r.Closes enoughMemory (r.blanked enoughMemory bs) := by
  induction bs generalizing r with
  | nil => exact id
  | cons b bs ih =>
    rw [Reading.blanked]
    by_cases hw : (r.next enoughMemory b).2 = true
    · rw [if_pos hw]
      rintro (⟨hzero, -⟩ | hrest)
      · exact absurd hzero (by decide)
      · exact not_closes_of_ended (next_zero enoughMemory r) hrest
    · rw [if_neg hw]
      rintro (⟨-, hwritten⟩ | hrest)
      · exact hw hwritten
      · exact ih _ hrest

/-! ## One command -/

/-- The reader behind the opcode. -/
def Reading.start : Reading := ⟨.gap, 0⟩

variable (enoughMemory) in
/-- The bytes of a command after `parseOne`. -/
def blankCommand (com : List UInt8) : List UInt8 :=
  com.takeWhile isLead ++
    match com.dropWhile isLead with
    | [] => []
    | opcode :: rest => opcode :: Reading.start.blanked enoughMemory rest

@[simp] theorem length_blankCommand (com : List UInt8) :
    (blankCommand enoughMemory com).length = com.length := by
  conv => rhs; rw [← List.takeWhile_append_dropWhile (p := isLead) (l := com)]
  rw [blankCommand, List.length_append, List.length_append]
  cases com.dropWhile isLead with
  | nil => rfl
  | cons opcode rest => simp

/-- What `getElem?_blanked` says holds of the whole command. -/
theorem getElem?_blankCommand {com : List UInt8} {i : Nat} (hi : com[i]? = some b) :
    (blankCommand enoughMemory com)[i]? = some b ∨
    (blankCommand enoughMemory com)[i]? = some 0 ∧ (b = quote ∨ b = closing) := by
  rw [← List.takeWhile_append_dropWhile (p := isLead) (l := com)] at hi
  rw [blankCommand]
  generalize com.takeWhile isLead = lead at hi ⊢
  by_cases hlt : i < lead.length
  · rw [List.getElem?_append_left hlt] at hi ⊢
    exact .inl hi
  · rw [List.getElem?_append_right (by omega)] at hi ⊢
    cases hcom : com.dropWhile isLead with
    | nil => simp [hcom] at hi
    | cons opcode rest =>
      rw [hcom] at hi
      cases hk : i - lead.length with
      | zero =>
        rw [hk] at hi
        exact .inl hi
      | succ k =>
        rw [hk] at hi
        exact getElem?_blanked Reading.start k hi

theorem isLead_opcode {com rest : List UInt8} {opcode : UInt8}
    (hcom : com.dropWhile isLead = opcode :: rest) : isLead opcode = false := by
  have hhead := List.head_dropWhile_not (p := isLead) (l := com) (by simp [hcom])
  simpa [hcom] using hhead

/-- The opcode is not overwritten. -/
theorem dropWhile_blankCommand {com : List UInt8} {opcode : UInt8}
    (h : (blankCommand enoughMemory com).dropWhile isLead = [opcode]) :
    com.dropWhile isLead = [opcode] := by
  have hlead : ∀ b ∈ com.takeWhile isLead, isLead b = true := fun b hb => List.mem_takeWhile_imp hb
  rw [blankCommand, List.dropWhile_append_of_pos hlead] at h
  cases hcom : com.dropWhile isLead with
  | nil => simp [hcom] at h
  | cons b rest =>
    have hb := isLead_opcode hcom
    rw [hcom] at h
    dsimp only at h
    rw [List.dropWhile_cons_of_neg (by simp [hb])] at h
    obtain ⟨rfl, hrest⟩ := List.cons.inj h
    have hlen := congrArg List.length hrest
    rw [length_blanked_bytes] at hlen
    rw [List.length_eq_zero_iff.mp hlen]

/-- A command that ends in its text is parsed within it, and leaves the text with its strings cut off. -/
theorem parseOne_of_ends {com rest : List UInt8} {opcode : UInt8}
    (hcom : com.dropWhile isLead = opcode :: rest) (hends : Reading.start.Ends enoughMemory rest) :
    (parseOne enoughMemory com).1 ≠ .beyond ∧
    (parseOne enoughMemory com).2 = blankCommand enoughMemory com := by
  have hfollows := (followsIn_all enoughMemory (opcode = 77 || opcode = 80) rest).1 [] 0 false [opcode]
    (by decide)
  simp only [parseOne, hcom, splitValues_eq, List.take_succ_cons, List.take_zero, List.drop_succ_cons,
    List.drop_zero, blankCommand]
  split
  · next splitnum s hresult =>
    rw [Option.some.inj hresult] at hfollows
    have hbuffer : s.passed ++ s.rest = opcode :: Reading.start.blanked enoughMemory rest := hfollows.1
    rw [hbuffer]
    split
    · exact ⟨by simp, rfl⟩
    · split
      · exact ⟨by simp, rfl⟩
      · exact ⟨by simp, rfl⟩
  · next hresult =>
    exfalso
    cases hr : Split.result enoughMemory (opcode = 77 || opcode = 80)
        ⟨.skipping, [], 0, false, [opcode], rest⟩ with
    | returns splitnum s => exact hresult splitnum s (congrArg some hr)
    | more t =>
      rw [hr] at hfollows
      exact hfollows
    | beyond =>
      rw [hr] at hfollows
      exact hfollows hends

/-- `parseOne` gives the parameters only if the command is closed. -/
theorem closes_of_executed {com rest : List UInt8} {opcode : UInt8} {params : List Int16} {op : UInt8}
    (hcom : com.dropWhile isLead = opcode :: rest)
    (h : (parseOne enoughMemory com).1 = .executed op params) :
    Reading.start.Closes enoughMemory rest := by
  have hfollows := (followsIn_all enoughMemory (opcode = 77 || opcode = 80) rest).1 [] 0 false [opcode]
    (by decide)
  simp only [parseOne, hcom, splitValues_eq, List.take_succ_cons, List.take_zero, List.drop_succ_cons,
    List.drop_zero] at h
  split at h
  · next splitnum s hresult =>
    rw [Option.some.inj hresult] at hfollows
    split at h
    · cases h
    · next hgood => exact hfollows.2.2 (by omega) (by omega)
  · cases h

theorem dropWhile_append {com rest : List UInt8} {opcode : UInt8}
    (hcom : com.dropWhile isLead = opcode :: rest) (bs : List UInt8) :
    (com ++ bs).dropWhile isLead = opcode :: (rest ++ bs) := by
  rw [← List.takeWhile_append_dropWhile (p := isLead) (l := com), hcom, List.append_assoc,
    List.dropWhile_append_of_pos (fun b hb => List.mem_takeWhile_imp hb), List.cons_append,
    List.dropWhile_cons_of_neg (by simp [isLead_opcode hcom])]

/-- What comes out of a command does not depend on the bytes behind its end. -/
theorem parseOne_append {com rest : List UInt8} {opcode : UInt8} (bs : List UInt8)
    (hcom : com.dropWhile isLead = opcode :: rest) (hends : Reading.start.Ends enoughMemory rest) :
    parseOne enoughMemory (com ++ bs)
      = ((parseOne enoughMemory com).1, (parseOne enoughMemory com).2 ++ bs) := by
  have hfollows := (followsIn_all enoughMemory (opcode = 77 || opcode = 80) rest).1 [] 0 false [opcode]
    (by decide)
  have hlead := isLead_opcode hcom
  obtain ⟨splitnum, s, hresult⟩ : ∃ splitnum s, Split.result enoughMemory (opcode = 77 || opcode = 80)
      ⟨.skipping, [], 0, false, [opcode], rest⟩ = .returns splitnum s := by
    cases hr : Split.result enoughMemory (opcode = 77 || opcode = 80)
        ⟨.skipping, [], 0, false, [opcode], rest⟩ with
    | returns splitnum s => exact ⟨splitnum, s, rfl⟩
    | more t =>
      rw [hr] at hfollows
      exact hfollows.elim
    | beyond =>
      rw [hr] at hfollows
      exact absurd hends hfollows
  have hextended : Split.result enoughMemory (opcode = 77 || opcode = 80)
      ⟨.skipping, [], 0, false, [opcode], rest ++ bs⟩ = .returns splitnum (s.extend bs) :=
    Split.result_extend bs hresult
  have hleads : ∀ b ∈ com.takeWhile isLead, isLead b = true := fun b hb => List.mem_takeWhile_imp hb
  have hsplit : com = com.takeWhile isLead ++ opcode :: rest := by
    rw [← hcom, List.takeWhile_append_dropWhile]
  have hdrop := dropWhile_append hcom bs
  have htake : (com ++ bs).takeWhile isLead = com.takeWhile isLead := by
    conv => lhs; rw [hsplit]
    rw [List.append_assoc, List.takeWhile_append_of_pos hleads, List.cons_append,
      List.takeWhile_cons_of_neg (by simp [hlead]), List.append_nil]
  simp only [parseOne, hdrop, htake, hcom, splitValues_eq, List.take_succ_cons, List.take_zero,
    List.drop_succ_cons, List.drop_zero, hresult, hextended]
  split_ifs <;> simp [Split.extend]

/-- Nothing but `<` and spaces were there: the opcode is the last byte of the buffer. -/
theorem parseOne_of_last (enoughMemory : Bool) {com : List UInt8} {opcode : UInt8} (hcom : com.dropWhile isLead = [opcode]) :
    (parseOne enoughMemory com).1 = .beyond ∧
    (parseOne enoughMemory com).2 = blankCommand enoughMemory com := by
  have hresult : splitValues enoughMemory (opcode = 77 || opcode = 80) [opcode] = some .beyond := by
    rw [splitValues_eq]
    exact congrArg some (Split.result_of_nil (show 0 < maxCommandParams by decide) rfl)
  have hsame : blankCommand enoughMemory com = com := by
    rw [blankCommand, hcom]
    dsimp only [Reading.blanked]
    rw [← hcom, List.takeWhile_append_dropWhile]
  simp only [parseOne, hcom, hresult, hsame]
  exact ⟨trivial, trivial⟩

/-- A command in a buffer that ends with a zero. -/
theorem parseOne_of_zero (enoughMemory : Bool) {com : List UInt8} (hlast : com.getLast? = some 0) :
    (parseOne enoughMemory com).2 = blankCommand enoughMemory com ∧
    ((parseOne enoughMemory com).1 = .beyond ↔ com.dropWhile isLead = [0]) := by
  have hlead : isLead 0 = false := by decide
  have hmem : 0 ∈ com.dropWhile isLead := by
    have hzero : 0 ∈ com.takeWhile isLead ++ com.dropWhile isLead := by
      rw [List.takeWhile_append_dropWhile]
      exact List.mem_of_getLast? hlast
    refine (List.mem_append.mp hzero).resolve_left fun hin => ?_
    rw [List.mem_takeWhile_imp hin] at hlead
    cases hlead
  cases hcom : com.dropWhile isLead with
  | nil => simp [hcom] at hmem
  | cons opcode rest =>
    have hend : (opcode :: rest).getLast? = some 0 := by
      rw [← hcom, ← hlast]
      conv => rhs; rw [← List.takeWhile_append_dropWhile (p := isLead) (l := com)]
      rw [List.getLast?_append, hcom]
      simp [List.getLast?_cons]
    cases rest with
    | nil =>
      obtain ⟨hbeyond, hbuffer⟩ := parseOne_of_last enoughMemory hcom
      have : opcode = 0 := by simpa using hend
      exact ⟨hbuffer, ⟨fun _ => by rw [this], fun _ => hbeyond⟩⟩
    | cons b rest =>
      have hzero : 0 ∈ b :: rest := by
        rw [List.getLast?_cons_cons] at hend
        exact List.mem_of_getLast? hend
      obtain ⟨hbeyond, hbuffer⟩ := parseOne_of_ends hcom
        (ends_of_zero_mem enoughMemory hzero)
      exact ⟨hbuffer, ⟨fun h => absurd h hbeyond, fun h => by simp at h⟩⟩

end DCCEXParser

end CommandStation
