import CommandStation.DCCEXParser.Reading

/-!
# The entries of result

`splitValues` has room for `MAX_COMMAND_PARAMS` entries, and looks once for each turn of its loop if
there is room left. A number or a keyword takes one entry, but a string takes two of them: a string
behind nine entries goes over the end of `result`.
-/

namespace CommandStation

namespace DCCEXParser

namespace Split

variable (enoughMemory usehex : Bool)

/-! ## What is written -/

/-- The indices of `result` that the next turn writes to. -/
def writes (s : Split) : List Nat :=
  match s.rest with
  | [] => []
  | hot :: _ =>
    match s.state with
    | .checking =>
      if enoughMemory ∧ hot = quote then [s.params.length, s.params.length + 1] else []
    | .building => if isWord hot then [] else [s.params.length]
    | _ => []

variable {enoughMemory usehex} {s t u : Split}

/-- The entries that a turn writes come behind those that are there. -/
theorem turn_params (h : s.turn enoughMemory usehex = .more t) :
    ∃ new : List Int16, t.params = s.params ++ new ∧ new.length ≤ 2 ∧
      s.writes enoughMemory = List.range' s.params.length new.length := by
  obtain ⟨state, params, runningValue, signNegative, passed, rest⟩ := s
  cases rest with
  | nil => cases h
  | cons hot rest =>
    -- most turns write no entry
    have hnone : t.params = params → writes enoughMemory
        ⟨state, params, runningValue, signNegative, passed, hot :: rest⟩ = [] →
        ∃ new : List Int16, t.params = params ++ new ∧ new.length ≤ 2 ∧ writes enoughMemory
          ⟨state, params, runningValue, signNegative, passed, hot :: rest⟩
            = List.range' params.length new.length :=
      fun hparams hwrites => ⟨[], by rw [hparams, List.append_nil], by decide, hwrites⟩
    cases state with
    | skipping =>
      apply hnone
      · simp only [turn, advance] at h
        split_ifs at h <;> cases h <;> rfl
      · rfl
    | checking =>
      -- a quote writes the marker and the offset of the string
      by_cases hquote : enoughMemory = true ∧ hot = quote
      · simp only [turn, advance, if_pos hquote] at h
        cases h
        exact ⟨_, rfl, by simp, if_pos hquote⟩
      · apply hnone
        · simp only [turn, advance, if_neg hquote] at h
          split_ifs at h <;> cases h <;> rfl
        · simp [writes, hquote]
    | building =>
      -- the end of a word writes its value
      by_cases hword : isWord hot = true
      · apply hnone
        · obtain hdigit | hdigit := Bool.eq_false_or_eq_true (isDigit hot)
          · simp only [turn, advance, if_pos hdigit] at h
            cases h
            rfl
          · have hletter : isLetter (upper hot) = true := by simpa [isWord, hdigit] using hword
            simp only [turn, advance, hdigit, hletter, Bool.false_eq_true, if_false, if_true] at h
            split_ifs at h <;> cases h <;> rfl
        · simp [writes, hword]
      · rw [turn_end (by simpa using hword)] at h
        cases h
        exact ⟨_, rfl, by simp, by simp [writes, hword]⟩
    | text =>
      apply hnone
      · simp only [turn, advance, terminate] at h
        split_ifs at h <;> cases h <;> rfl
      · rfl

/-- Parameters that have been found stay. -/
theorem Reaches.prefix (h : Reaches enoughMemory usehex s t) : s.params <+: t.params := by
  induction h with
  | refl => exact List.prefix_rfl
  | tail _ hturn ih =>
    obtain ⟨new, hparams, -⟩ := turn_params hturn.2
    exact ih.trans ⟨new, hparams.symm⟩

/-! ## The end of the loop -/

/-- The number that is returned, and the parameters in the end. -/
theorem turn_returns {splitnum : Int} (h : s.turn enoughMemory usehex = .returns splitnum t) :
    t.params = s.params ∧ (splitnum = -1 ∨ splitnum = s.params.length) := by
  obtain ⟨state, params, runningValue, signNegative, passed, rest⟩ := s
  cases rest with
  | nil => cases h
  | cons hot rest =>
    cases state with
    | skipping =>
      simp only [turn] at h
      split_ifs at h <;> cases h
      · exact ⟨rfl, .inl rfl⟩
      · exact ⟨rfl, .inr rfl⟩
    | checking =>
      simp only [turn] at h
      split_ifs at h
    | building =>
      simp only [turn] at h
      split_ifs at h
    | text =>
      simp only [turn] at h
      split_ifs at h
      cases h
      exact ⟨rfl, .inl rfl⟩

/-- What is returned is found in a state that the loop gets to. -/
theorem exists_reaches {splitnum : Int} (h : s.result enoughMemory usehex = .returns splitnum t) :
    ∃ u, Reaches enoughMemory usehex s u ∧ t.params = u.params ∧
      (splitnum = -1 ∨ splitnum = u.params.length) := by
  refine returns_induct (P := fun s => ∃ u, Reaches enoughMemory usehex s u ∧ t.params = u.params ∧
    (splitnum = -1 ∨ splitnum = u.params.length)) ?_ ?_ ?_ h
  · intro s hfull hs
    rw [result_of_full hfull] at hs
    cases hs
    exact ⟨_, .refl, rfl, .inr rfl⟩
  · rintro s s' hcount hmore - ⟨u, hreaches, hu⟩
    exact ⟨u, .head ⟨hcount, hmore⟩ hreaches, hu⟩
  · intro s hcount hreturns
    exact ⟨s, .refl, turn_returns hreturns⟩

/-- One entry too many is found. -/
def Overruns (enoughMemory usehex : Bool) (s : Split) : Prop :=
  ∃ t, s.result enoughMemory usehex = .returns (maxCommandParams + 1) t

/-- A turn that writes behind the end of `result` is the last one. -/
theorem overruns_of_write (hreaches : Reaches enoughMemory usehex s t)
    (hturn : Turns enoughMemory usehex t u) {i : Nat} (hi : i ∈ t.writes enoughMemory)
    (hbeyond : maxCommandParams ≤ i) : Overruns enoughMemory usehex s := by
  obtain ⟨new, hparams, hnew, hwrites⟩ := turn_params hturn.2
  have hlength : u.params.length = maxCommandParams + 1 := by
    have hcount := hturn.1
    rw [hwrites, List.mem_range'_1] at hi
    rw [hparams, List.length_append]
    omega
  refine ⟨u, ?_⟩
  rw [hreaches.result_eq, result_of_more hturn.1 hturn.2, result_of_full (by omega), hlength]
  rfl

/-- Where all the writes are within `result`, so are the parameters. -/
theorem length_params_le (hreaches : Reaches enoughMemory usehex s t)
    (hs : s.params.length ≤ maxCommandParams)
    (hwrites : ∀ t u, Reaches enoughMemory usehex s t → Turns enoughMemory usehex t u →
      ∀ i ∈ t.writes enoughMemory, i < maxCommandParams) :
    t.params.length ≤ maxCommandParams := by
  induction hreaches with
  | refl => exact hs
  | @tail t u hreaches hturn ih =>
    obtain ⟨new, hparams, -, hnew⟩ := turn_params hturn.2
    rw [hparams, List.length_append]
    cases hlength : new.length with
    | zero => exact ih
    | succ n =>
      have hlast : t.params.length + n ∈ t.writes enoughMemory := by
        rw [hnew, List.mem_range'_1]
        omega
      have := hwrites t u hreaches hturn _ hlast
      omega

end Split

/-! ## Strings behind nine entries -/

namespace Reading

variable {enoughMemory : Bool} {n m : Nat} {b : UInt8} {bs : List UInt8} {r : Reading}

/-- A string begins behind `n` entries. -/
def StringAt (enoughMemory : Bool) (n : Nat) (r : Reading) : List UInt8 → Prop
  | [] => False
  | b :: bs =>
    (enoughMemory = true ∧ b = quote ∧
      (r.mode = .gap ∧ r.entries = n ∨ r.mode = .word ∧ r.entries + 1 = n)) ∨
    StringAt enoughMemory n (r.next enoughMemory b).1 bs

/-- No string begins at a byte that is no quote, or that stands in a string. -/
theorem stringAt_cons (h : (enoughMemory = true ∧ b = quote) → r.mode = .text) :
    r.StringAt enoughMemory n (b :: bs) ↔ (r.next enoughMemory b).1.StringAt enoughMemory n bs := by
  constructor
  · rintro (⟨hmemory, hquote, ⟨hmode, -⟩ | ⟨hmode, -⟩⟩ | hrest)
    · rw [h ⟨hmemory, hquote⟩] at hmode
      cases hmode
    · rw [h ⟨hmemory, hquote⟩] at hmode
      cases hmode
    · exact hrest
  · exact .inr

theorem not_stringAt_ended (hmode : r.mode = .ended) : ¬ r.StringAt enoughMemory n bs := by
  induction bs with
  | nil => exact id
  | cons b bs ih =>
    have hnext : (r.next enoughMemory b).1 = r := by simp [next, hmode]
    rw [StringAt, hnext, hmode]
    rintro (⟨-, -, ⟨hgap, -⟩ | ⟨hword, -⟩⟩ | hrest)
    · cases hgap
    · cases hword
    · exact ih hrest

/-- Behind a parameter there is one entry more. -/
theorem stringAt_word (hword : Split.isWord b = false) (hfull : m + 1 < maxCommandParams) :
    (⟨.word, m⟩ : Reading).StringAt enoughMemory n (b :: bs) ↔
      (⟨.gap, m + 1⟩ : Reading).StringAt enoughMemory n (b :: bs) := by
  have hnext : (⟨.word, m⟩ : Reading).next enoughMemory b = (⟨.gap, m + 1⟩ : Reading).next enoughMemory b := by
    simp [next, hword, hfull]
  simp only [StringAt, hnext, reduceCtorEq, false_and, true_and, false_or, or_false]

end Reading

section Rules

variable {enoughMemory usehex : Bool} {bs : List UInt8} {b : UInt8} {state : SplitState} {mode : Mode}

/-- In a state of `splitValues` the reader says if there is an entry too many: a string begins where
there is room for one entry only. -/
def OverrunsIn (enoughMemory usehex : Bool) (state : SplitState) (mode : Mode) (bs : List UInt8) : Prop :=
  ∀ params value signNegative passed, params.length < maxCommandParams →
    (Split.Overruns enoughMemory usehex ⟨state, params, value, signNegative, passed, bs⟩ ↔
      (⟨mode, params.length⟩ : Reading).StringAt enoughMemory (maxCommandParams - 1) bs)

theorem not_overruns {s t : Split} {splitnum : Int}
    (h : s.result enoughMemory usehex = .returns splitnum t) (hnum : splitnum ≠ maxCommandParams + 1) :
    ¬ Split.Overruns enoughMemory usehex s := by
  rintro ⟨t', ht'⟩
  rw [h] at ht'
  cases ht'
  exact hnum rfl

theorem overruns_congr {s t : Split}
    (h : s.result enoughMemory usehex = t.result enoughMemory usehex) :
    Split.Overruns enoughMemory usehex s ↔ Split.Overruns enoughMemory usehex t := by
  rw [Split.Overruns, h, Split.Overruns]

theorem overrunsIn_nil : OverrunsIn enoughMemory usehex state mode [] := by
  intro params value signNegative passed hcount
  refine iff_of_false ?_ id
  rintro ⟨t, ht⟩
  rw [Split.result_of_nil hcount rfl] at ht
  cases ht

/-- In a gap, the byte decides between a gap, a word and a string, and only a string takes two entries. -/
theorem overrunsIn_skipping (hgap : OverrunsIn enoughMemory usehex .skipping .gap bs)
    (hword : OverrunsIn enoughMemory usehex .building .word bs)
    (htext : OverrunsIn enoughMemory usehex .text .text bs) (b : UInt8) :
    OverrunsIn enoughMemory usehex .skipping .gap (b :: bs) := by
  intro params value signNegative passed hcount
  by_cases hquote : enoughMemory = true ∧ b = quote
  · obtain ⟨rfl, rfl⟩ := hquote
    rw [overruns_congr (Split.skip_quote hcount), Reading.StringAt]
    by_cases hfull : params.length + 2 < maxCommandParams
    · have hnext : ((⟨.gap, params.length⟩ : Reading).next true quote).1 = ⟨.text, params.length + 2⟩ := by
        simp [Reading.next, Reading.gapNext, hfull, quote, space, closing]
      have htail := htext (params ++ [0x7777, Int16.ofNat (passed.length + 1)]) value signNegative
        (passed ++ [quote]) (by simpa using hfull)
      rw [htail, List.length_append, hnext]
      refine ⟨.inr, fun h => h.resolve_left ?_⟩
      rintro ⟨-, -, ⟨-, hlast⟩ | ⟨hmode, -⟩⟩
      · dsimp only at hlast
        omega
      · cases hmode
    · -- there is no turn after this one
      have hresult : Split.result true usehex ⟨.text, params ++ [0x7777, Int16.ofNat (passed.length + 1)],
          value, signNegative, passed ++ [quote], bs⟩ = _ := Split.result_of_full (by simpa using hfull)
      have hmode : ((⟨.gap, params.length⟩ : Reading).next true quote).1.mode = .ended := by
        simp [Reading.next, Reading.gapNext, hfull, quote, space, closing]
      simp only [List.length_append, List.length_cons, List.length_nil] at hresult
      by_cases hlast : params.length = maxCommandParams - 1
      · have hnum : ((params.length + (0 + 1 + 1) : Nat) : Int) = maxCommandParams + 1 := by
          unfold maxCommandParams at hlast ⊢
          omega
        rw [hnum] at hresult
        exact iff_of_true ⟨_, hresult⟩ (.inl ⟨rfl, rfl, .inl ⟨rfl, hlast⟩⟩)
      · refine iff_of_false (not_overruns hresult (by omega)) ?_
        rintro (⟨-, -, ⟨-, hcount⟩ | ⟨hword, -⟩⟩ | hrest)
        · exact hlast hcount
        · cases hword
        · exact Reading.not_stringAt_ended hmode hrest
  rw [Reading.stringAt_cons (fun h => absurd h hquote)]
  by_cases hspace : b = space
  · rw [hspace, overruns_congr (Split.skip_space hcount)]
    exact hgap params value signNegative _ hcount
  by_cases hclosing : b = closing
  · rw [hclosing]
    exact iff_of_false (not_overruns (Split.skip_closing hcount) (by omega))
      (Reading.not_stringAt_ended rfl)
  by_cases hzero : b = 0
  · rw [hzero]
    exact iff_of_false (not_overruns (Split.skip_zero hcount) (by decide))
      (Reading.not_stringAt_ended (next_zero enoughMemory _))
  by_cases hminus : b = minus
  · have hnext : ((⟨.gap, params.length⟩ : Reading).next enoughMemory minus).1
        = ⟨.word, params.length⟩ := by
      rw [hminus] at hspace hclosing hquote
      simp [Reading.next, Reading.gapNext, hspace, hclosing, hquote]
    rw [hminus, hnext, overruns_congr (Split.skip_minus hcount)]
    exact hword params 0 true _ hcount
  by_cases hb : Split.isWord b = true
  · have hnext : ((⟨.gap, params.length⟩ : Reading).next enoughMemory b).1 = ⟨.word, params.length⟩ := by
      simp [Reading.next, Reading.gapNext, hspace, hclosing, hquote, hb]
    rw [hnext, overruns_congr (Split.skip_other hcount hspace hzero hclosing hquote hminus)]
    obtain ⟨value', hbuild⟩ : ∃ value', Split.result enoughMemory usehex
        ⟨.building, params, 0, false, passed, b :: bs⟩ = Split.result enoughMemory usehex
        ⟨.building, params, value', false, passed ++ [b], bs⟩ := Split.build_word hcount hb
    rw [overruns_congr hbuild]
    exact hword params value' false _ hcount
  · rw [Bool.not_eq_true] at hb
    obtain ⟨splitnum, t, hresult, -, hfull⟩ : ∃ splitnum t, Split.result enoughMemory usehex
        ⟨.skipping, params, value, signNegative, passed, b :: bs⟩ = .returns splitnum t ∧ _ ∧
        splitnum = maxCommandParams := result_junk hcount hspace hzero hclosing hquote hminus hb
    refine iff_of_false (not_overruns hresult (by omega)) (Reading.not_stringAt_ended ?_)
    simp [Reading.next, Reading.gapNext, hspace, hclosing, hquote, hminus, hb]

/-- In a word, a byte that does not belong to it is read again in the gap behind it. -/
theorem overrunsIn_building (hword : OverrunsIn enoughMemory usehex .building .word bs)
    (hskipping : OverrunsIn enoughMemory usehex .skipping .gap (b :: bs)) :
    OverrunsIn enoughMemory usehex .building .word (b :: bs) := by
  intro params value signNegative passed hcount
  by_cases hb : Split.isWord b = true
  · have hquote : b ≠ quote := by
      rintro rfl
      exact absurd hb (by decide)
    obtain ⟨value', hbuild⟩ : ∃ value', Split.result enoughMemory usehex
        ⟨.building, params, value, signNegative, passed, b :: bs⟩ = Split.result enoughMemory usehex
        ⟨.building, params, value', signNegative, passed ++ [b], bs⟩ := Split.build_word hcount hb
    rw [overruns_congr hbuild, Reading.stringAt_cons (fun h => absurd h.2 hquote)]
    have hnext : ((⟨.word, params.length⟩ : Reading).next enoughMemory b).1 = ⟨.word, params.length⟩ := by
      simp [Reading.next, hb]
    rw [hnext]
    exact hword params value' signNegative _ hcount
  · rw [Bool.not_eq_true] at hb
    rw [overruns_congr (Split.build_end hcount hb)]
    by_cases hfull : params.length + 1 < maxCommandParams
    · rw [Reading.stringAt_word hb hfull]
      have hsame := hskipping (params ++ [value * (if signNegative then -1 else 1)]) value signNegative
        passed (by simpa using hfull)
      rw [List.length_append, List.length_singleton] at hsame
      exact hsame
    · have hresult : Split.result enoughMemory usehex
          ⟨.skipping, params ++ [value * (if signNegative then -1 else 1)], value, signNegative, passed,
            b :: bs⟩ = _ := Split.result_of_full (by simpa using hfull)
      simp only [List.length_append, List.length_singleton] at hresult
      refine iff_of_false (not_overruns hresult (by omega)) ?_
      have hmode : ((⟨.word, params.length⟩ : Reading).next enoughMemory b).1.mode = .ended := by
        simp [Reading.next, hb, hfull]
      rintro (⟨-, -, ⟨hgap, -⟩ | ⟨-, hlast⟩⟩ | hrest)
      · cases hgap
      · dsimp only at hlast
        omega
      · exact Reading.not_stringAt_ended hmode hrest

/-- In a string, a byte ends it or belongs to it, and the entries stay the same. -/
theorem overrunsIn_text (hgap : OverrunsIn enoughMemory usehex .skipping .gap bs)
    (htext : OverrunsIn enoughMemory usehex .text .text bs) (b : UInt8) :
    OverrunsIn enoughMemory usehex .text .text (b :: bs) := by
  intro params value signNegative passed hcount
  rw [Reading.stringAt_cons (fun _ => rfl)]
  by_cases hzero : b = 0
  · rw [hzero]
    exact iff_of_false (not_overruns (Split.text_zero hcount) (by decide))
      (Reading.not_stringAt_ended rfl)
  by_cases hquote : b = quote
  · rw [hquote, overruns_congr (Split.text_quote hcount)]
    exact hgap params value signNegative _ hcount
  · have hnext : ((⟨.text, params.length⟩ : Reading).next enoughMemory b).1 = ⟨.text, params.length⟩ := by
      simp [Reading.next, hzero, hquote]
    rw [hnext, overruns_congr (Split.text_other hcount hzero hquote)]
    exact htext params value signNegative _ hcount

/-- In each of its states `splitValues` finds an entry too many where the reader says so. -/
theorem overrunsIn_all (enoughMemory usehex : Bool) (bs : List UInt8) :
    OverrunsIn enoughMemory usehex .skipping .gap bs ∧
    OverrunsIn enoughMemory usehex .building .word bs ∧
    OverrunsIn enoughMemory usehex .text .text bs := by
  induction bs with
  | nil => exact ⟨overrunsIn_nil, overrunsIn_nil, overrunsIn_nil⟩
  | cons b bs ih =>
    obtain ⟨hgap, hword, htext⟩ := ih
    have hskipping := overrunsIn_skipping hgap hword htext b
    exact ⟨hskipping, overrunsIn_building hword hskipping, overrunsIn_text hgap htext b⟩

end Rules

/-- `splitValues` stays within `result`, and returns -1 or not more than `MAX_COMMAND_PARAMS`, where
no string begins behind nine entries. -/
theorem splitValues_within (enoughMemory usehex : Bool) (cmd : List UInt8) :
    ((∀ s t, Split.Reaches enoughMemory usehex (Split.start cmd) s → Split.Turns enoughMemory usehex s t →
        ∀ i ∈ s.writes enoughMemory, i < maxCommandParams) ∧
      ∀ splitnum s, splitValues enoughMemory usehex cmd = some (.returns splitnum s) →
        splitnum = -1 ∨ (0 ≤ splitnum ∧ splitnum ≤ maxCommandParams)) ↔
    ¬ Reading.start.StringAt enoughMemory (maxCommandParams - 1) (cmd.drop 1) := by
  have hoverruns : Split.Overruns enoughMemory usehex (Split.start cmd) ↔
      Reading.start.StringAt enoughMemory (maxCommandParams - 1) (cmd.drop 1) :=
    (overrunsIn_all enoughMemory usehex (cmd.drop 1)).1 [] 0 false (cmd.take 1) (by decide)
  have hsplit : splitValues enoughMemory usehex cmd
      = some (Split.result enoughMemory usehex (Split.start cmd)) := splitValues_eq cmd
  rw [← hoverruns]
  constructor
  · rintro ⟨-, hcount⟩ ⟨t, ht⟩
    have := hcount _ t (hsplit.trans (congrArg some ht))
    omega
  · intro hnot
    have hwrites : ∀ s t, Split.Reaches enoughMemory usehex (Split.start cmd) s →
        Split.Turns enoughMemory usehex s t → ∀ i ∈ s.writes enoughMemory, i < maxCommandParams := by
      intro s t hreaches hturn i hi
      by_contra hbeyond
      exact hnot (Split.overruns_of_write hreaches hturn hi (Nat.le_of_not_lt hbeyond))
    refine ⟨hwrites, fun splitnum s hs => ?_⟩
    rw [hsplit, Option.some.injEq] at hs
    obtain ⟨u, hreaches, -, hnum⟩ := Split.exists_reaches hs
    have hlength := Split.length_params_le hreaches (Nat.zero_le _) hwrites
    omega

/-- A command with nine numbers and a string. -/
theorem not_splitValues_within : ¬ ∀ (enoughMemory usehex : Bool) (cmd : List UInt8),
    (∀ s t, Split.Reaches enoughMemory usehex (Split.start cmd) s → Split.Turns enoughMemory usehex s t →
        ∀ i ∈ s.writes enoughMemory, i < maxCommandParams) ∧
      ∀ splitnum s, splitValues enoughMemory usehex cmd = some (.returns splitnum s) →
        splitnum = -1 ∨ (0 ≤ splitnum ∧ splitnum ≤ maxCommandParams) := by
  intro h
  -- `<x 1 2 3 4 5 6 7 8 9 "a">`
  have hresult : splitValues true false [120, 32, 49, 32, 50, 32, 51, 32, 52, 32, 53, 32, 54, 32, 55, 32,
      56, 32, 57, 32, 34, 97, 34, 62, 0] = some (.returns 11 ⟨.text, [1, 2, 3, 4, 5, 6, 7, 8, 9, 0x7777, 21],
        9, false, [120, 32, 49, 32, 50, 32, 51, 32, 52, 32, 53, 32, 54, 32, 55, 32, 56, 32, 57, 32, 34],
        [97, 34, 62, 0]⟩) := by decide +kernel
  have := (h true false _).2 11 _ hresult
  exact absurd this (by decide)

end DCCEXParser

end CommandStation
