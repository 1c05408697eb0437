import CommandStation.DCCEXParser.Entries
import CommandStation.DCCEXParser.KeywordHasher
import Mathlib.Data.Nat.Digits.Defs

/-!
# Parameters are read back

A command is written with its parameters as decimal numbers, keywords and strings in quotes, with
spaces between them. `splitValues` reads these parameters back.
-/

namespace CommandStation

namespace DCCEXParser

variable {enoughMemory : Bool}

/-! ## How parameters are written -/

/-- The digits of a number. -/
def decimal (n : Nat) : List UInt8 :=
  if n = 0 then [48] else (Nat.digits 10 n).reverse.map fun d => UInt8.ofNat (48 + d)

/-- A parameter of a command. -/
inductive Param where
  | number (n : Int16)
  | keyword (name : List Char)
  | string (text : List UInt8)
  deriving DecidableEq, Repr

namespace Param

def text : Param → List UInt8
  | number n => (if n < 0 then [minus] else []) ++ decimal n.toInt.natAbs
  | keyword name => name.map Char.toUInt8
  | string text => quote :: (text ++ [quote])

/-- The text as `splitValues` leaves it: a string ends with a zero. -/
def blanked : Param → List UInt8
  | string text => quote :: (text ++ [0])
  | p => p.text

/-- The entries for a parameter at this offset of the command. -/
def entries (offset : Nat) : Param → List Int16
  | number n => [n]
  | keyword name => [hk (String.ofList (name.map Char.toUpper))]
  | string _ => [0x7777, Int16.ofNat (offset + 1)]

/-- A letter or an underscore. -/
def isStart (c : Char) : Bool := c == '_' || ('A' ≤ c && c ≤ 'Z') || ('a' ≤ c && c ≤ 'z')

/-- A keyword is a name; there are strings only where there is memory for them, and a string holds no
quote and no zero. -/
def Valid (enoughMemory : Bool) : Param → Prop
  | number _ => True
  | keyword name => (∃ c ∈ name.head?, isStart c = true) ∧
      ∀ c ∈ name, isStart c = true ∨ ('0' ≤ c ∧ c ≤ '9')
  | string text => enoughMemory = true ∧ quote ∉ text ∧ 0 ∉ text

end Param

/-- A parameter with the number of spaces in front of it. -/
structure Piece where
  gap : Nat
  param : Param
  deriving DecidableEq, Repr

/-- The text of some parameters. -/
def piecesText : List Piece → List UInt8
  | [] => []
  | q :: qs => List.replicate q.gap space ++ (q.param.text ++ piecesText qs)

/-- This text as `splitValues` leaves it. -/
def piecesBlanked : List Piece → List UInt8
  | [] => []
  | q :: qs => List.replicate q.gap space ++ (q.param.blanked ++ piecesBlanked qs)

/-- The entries for some parameters that begin at this offset. -/
def piecesEntries (offset : Nat) : List Piece → List Int16
  | [] => []
  | q :: qs => q.param.entries (offset + q.gap) ++
      piecesEntries (offset + q.gap + q.param.text.length) qs

/-! ## Numbers -/

theorem digit_byte : ∀ d < 10, isDigit (UInt8.ofNat (48 + d)) = true ∧
    (UInt8.ofNat (48 + d) - 48).toUInt16.toInt16 = Int16.ofNat d := by decide

section Reading

variable {params : List Int16} {value : Int16} {signNegative : Bool}
variable {passed rest : List UInt8} {hot : UInt8}

/-- Digits are added to the value that has been read so far. -/
theorem build_digits (hcount : params.length < maxCommandParams) {ds : List Nat}
    (hds : ∀ d ∈ ds, d < 10) (m : Nat) :
    Split.result enoughMemory false ⟨.building, params, Int16.ofNat m, signNegative, passed,
        ds.map (fun d => UInt8.ofNat (48 + d)) ++ rest⟩
      = Split.result enoughMemory false
        ⟨.building, params, Int16.ofNat (ds.foldl (fun m d => 10 * m + d) m), signNegative,
          passed ++ ds.map (fun d => UInt8.ofNat (48 + d)), rest⟩ := by
  induction ds generalizing m passed with
  | nil => simp
  | cons d ds ih =>
    obtain ⟨hdigit, hvalue⟩ := digit_byte d (hds d (by simp))
    have hnext : 10 * Int16.ofNat m + Int16.ofNat d = Int16.ofNat (10 * m + d) := by
      rw [Int16.ofNat_add, Int16.ofNat_mul]
      rfl
    rw [List.map_cons, List.cons_append, Split.build_digit hcount hdigit, hvalue, hnext,
      ih (fun d' hd' => hds d' (by simp [hd'])), List.foldl_cons, List.append_assoc,
      List.singleton_append]

/-- The digits of a number as a list, the first one first. -/
theorem decimal_eq (n : Nat) : ∃ ds : List Nat, ds ≠ [] ∧ (∀ d ∈ ds, d < 10) ∧
    decimal n = ds.map (fun d => UInt8.ofNat (48 + d)) ∧ ds.foldl (fun m d => 10 * m + d) 0 = n := by
  by_cases hn : n = 0
  · exact ⟨[0], by simp, by simp, by simp [decimal, hn], by simp [hn]⟩
  · refine ⟨(Nat.digits 10 n).reverse, by simpa [Nat.digits_eq_nil_iff_eq_zero] using hn, ?_,
      by rw [decimal, if_neg hn], ?_⟩
    · intro d hd
      exact Nat.digits_lt_base (by decide) (List.mem_reverse.mp hd)
    · rw [List.foldl_reverse]
      have := Nat.ofDigits_digits 10 n
      rw [Nat.ofDigits_eq_foldr] at this
      simpa [Nat.add_comm] using this

/-- The magnitude with its sign is the number again. -/
theorem signed_value (n : Int16) :
    Int16.ofNat n.toInt.natAbs * (if n < 0 then -1 else 1) = n := by
  rw [← Int16.ofInt_eq_ofNat]
  by_cases hneg : n < 0
  · have habs : (n.toInt.natAbs : Int) = -n.toInt := by
      have : n.toInt < 0 := by simpa [Int16.lt_iff_toInt_lt] using hneg
      omega
    rw [if_pos hneg, habs, Int16.ofInt_neg, Int16.ofInt_toInt, Int16.mul_neg, Int16.mul_one, Int16.neg_neg]
  · have habs : (n.toInt.natAbs : Int) = n.toInt := by
      have : ¬ n.toInt < 0 := by simpa [Int16.lt_iff_toInt_lt] using hneg
      omega
    rw [if_neg hneg, habs, Int16.ofInt_toInt, Int16.mul_one]

/-- A digit is none of the other characters. -/
theorem digit_other {d : Nat} (hd : d < 10) : UInt8.ofNat (48 + d) ≠ space ∧ UInt8.ofNat (48 + d) ≠ 0 ∧
    UInt8.ofNat (48 + d) ≠ closing ∧ UInt8.ofNat (48 + d) ≠ quote ∧ UInt8.ofNat (48 + d) ≠ minus := by
  have : ∀ d < 10, UInt8.ofNat (48 + d) ≠ space ∧ UInt8.ofNat (48 + d) ≠ 0 ∧
    UInt8.ofNat (48 + d) ≠ closing ∧ UInt8.ofNat (48 + d) ≠ quote ∧
    UInt8.ofNat (48 + d) ≠ minus := by decide
  exact this d hd

/-- A number is read up to the character behind it. -/
theorem read_number (hcount : params.length < maxCommandParams) (hhot : Split.isWord hot = false)
    (n : Int16) :
    ∃ v neg, Split.result enoughMemory false
        ⟨.skipping, params, value, signNegative, passed, (Param.number n).text ++ hot :: rest⟩
      = Split.result enoughMemory false
        ⟨.skipping, params ++ [n], v, neg, passed ++ (Param.number n).text, hot :: rest⟩ := by
  obtain ⟨ds, hne, hds, hdecimal, hvalue⟩ := decimal_eq n.toInt.natAbs
  -- from the first digit on, with the sign that was found
  have hdigits : ∀ (neg : Bool) (passed : List UInt8), Split.result enoughMemory false
      ⟨.building, params, 0, neg, passed, decimal n.toInt.natAbs ++ hot :: rest⟩
      = Split.result enoughMemory false
        ⟨.skipping, params ++ [Int16.ofNat n.toInt.natAbs * (if neg then -1 else 1)],
          Int16.ofNat n.toInt.natAbs, neg, passed ++ decimal n.toInt.natAbs, hot :: rest⟩ := by
    intro neg passed
    rw [hdecimal, show (0 : Int16) = Int16.ofNat 0 from rfl, build_digits hcount hds, hvalue,
      Split.build_end hcount hhot]
  by_cases hneg : n < 0
  · refine ⟨Int16.ofNat n.toInt.natAbs, true, ?_⟩
    rw [Param.text, if_pos hneg, List.append_assoc, List.singleton_append, Split.skip_minus hcount,
      hdigits true]
    have hsigned := signed_value n
    rw [if_pos hneg] at hsigned
    rw [if_pos rfl, hsigned, List.append_assoc]
  · refine ⟨Int16.ofNat n.toInt.natAbs, false, ?_⟩
    obtain ⟨d, ds', rfl⟩ := List.exists_cons_of_ne_nil hne
    obtain ⟨hspace, hzero, hclosing, hquote, hminus⟩ := digit_other (hds d (by simp))
    have hsigned := signed_value n
    rw [if_neg hneg] at hsigned
    have hfirst := hdigits false passed
    rw [if_neg (by decide), hsigned] at hfirst
    rw [Param.text, if_neg hneg, List.nil_append, ← hfirst, hdecimal, List.map_cons, List.cons_append,
      Split.skip_other hcount hspace hzero hclosing (fun h => hquote h.2) hminus]

/-! ## Keywords -/

/-- One character of the compile time hasher. -/
def hashStep (running : UInt16) (c : Char) : UInt16 :=
  let sv : UInt16 := .ofNat c.toNat
  if '0' ≤ c ∧ c ≤ '9' then 10 * running + sv - 48 else ((running <<< 5) + running) ^^^ sv

theorem hk_ofList (name : List Char) :
    hk (String.ofList name) = (name.foldl hashStep 0).toInt16 := by
  rw [hk, String.toList_ofList]
  rfl

/-- What is needed of a letter or an underscore. -/
structure LetterFacts (c : Char) : Prop where
  digit : isDigit c.toUInt8 = false
  letter : isLetter (upper c.toUInt8) = true
  value : (upper c.toUInt8).toUInt16 = UInt16.ofNat c.toUpper.toNat
  hashed : ¬ ('0' ≤ c.toUpper ∧ c.toUpper ≤ '9')
  other : c.toUInt8 ≠ space ∧ c.toUInt8 ≠ 0 ∧ c.toUInt8 ≠ closing ∧ c.toUInt8 ≠ quote ∧ c.toUInt8 ≠ minus

/-- What is needed of a digit. -/
structure DigitFacts (c : Char) : Prop where
  digit : isDigit c.toUInt8 = true
  value : (c.toUInt8 - 48).toUInt16 = UInt16.ofNat c.toUpper.toNat - 48
  hashed : '0' ≤ c.toUpper ∧ c.toUpper ≤ '9'

theorem ascii_eq {c : Char} (hc : c.toNat < 128) : ∃ n : Fin 128, c = Char.ofNat n :=
  ⟨⟨c.toNat, hc⟩, (Char.ofNat_toNat c).symm⟩

theorem toNat_lt_of_start {c : Char} (h : Param.isStart c = true) : c.toNat < 128 := by
  have hle : ∀ d : Char, c ≤ d → c.toNat ≤ d.toNat := fun _ hd => hd
  simp only [Param.isStart, Bool.or_eq_true, Bool.and_eq_true, beq_iff_eq, decide_eq_true_eq] at h
  rcases h with (rfl | h) | h
  · decide
  · exact Nat.lt_of_le_of_lt (hle 'Z' h.2) (by decide)
  · exact Nat.lt_of_le_of_lt (hle 'z' h.2) (by decide)

theorem toNat_lt_of_digit {c : Char} (h : '0' ≤ c ∧ c ≤ '9') : c.toNat < 128 := by
  have hle : c.toNat ≤ '9'.toNat := h.2
  exact Nat.lt_of_le_of_lt hle (by decide)

theorem letterFacts {c : Char} (h : Param.isStart c = true) : LetterFacts c := by
  have hall : ∀ n : Fin 128, Param.isStart (Char.ofNat n) = true →
      isDigit (Char.ofNat n).toUInt8 = false ∧ isLetter (upper (Char.ofNat n).toUInt8) = true ∧
      (upper (Char.ofNat n).toUInt8).toUInt16 = UInt16.ofNat (Char.ofNat n).toUpper.toNat ∧
      ¬ ('0' ≤ (Char.ofNat n).toUpper ∧ (Char.ofNat n).toUpper ≤ '9') ∧
      (Char.ofNat n).toUInt8 ≠ space ∧ (Char.ofNat n).toUInt8 ≠ 0 ∧
      (Char.ofNat n).toUInt8 ≠ closing ∧ (Char.ofNat n).toUInt8 ≠ quote ∧
      (Char.ofNat n).toUInt8 ≠ minus := by decide +kernel
  obtain ⟨n, rfl⟩ := ascii_eq (toNat_lt_of_start h)
  obtain ⟨h₁, h₂, h₃, h₄, h₅⟩ := hall n h
  exact ⟨h₁, h₂, h₃, h₄, h₅⟩

theorem digitFacts {c : Char} (h : '0' ≤ c ∧ c ≤ '9') : DigitFacts c := by
  have hall : ∀ n : Fin 128, ('0' ≤ Char.ofNat n ∧ Char.ofNat n ≤ '9') →
      isDigit (Char.ofNat n).toUInt8 = true ∧
      ((Char.ofNat n).toUInt8 - 48).toUInt16 = UInt16.ofNat (Char.ofNat n).toUpper.toNat - 48 ∧
      '0' ≤ (Char.ofNat n).toUpper ∧ (Char.ofNat n).toUpper ≤ '9' := by decide +kernel
  obtain ⟨n, rfl⟩ := ascii_eq (toNat_lt_of_digit h)
  obtain ⟨h₁, h₂, h₃⟩ := hall n h
  exact ⟨h₁, h₂, h₃⟩

/-- A digit is none of the other characters. -/
theorem other_of_digit {c : Char} (h : '0' ≤ c ∧ c ≤ '9') :
    c.toUInt8 ≠ space ∧ c.toUInt8 ≠ 0 ∧ c.toUInt8 ≠ closing ∧ c.toUInt8 ≠ quote ∧
      c.toUInt8 ≠ minus := by
  have hdigit := (digitFacts h).digit
  have hother : isDigit space = false ∧ isDigit 0 = false ∧ isDigit closing = false ∧
    isDigit quote = false ∧ isDigit minus = false := by decide
  grind

/-- The characters of a name are hashed as they are at compile time. -/
theorem reaches_name (hcount : params.length < maxCommandParams) {name : List Char}
    (hname : ∀ c ∈ name, Param.isStart c = true ∨ ('0' ≤ c ∧ c ≤ '9')) (running : UInt16) :
    Split.Reaches enoughMemory false
      ⟨.building, params, running.toInt16, signNegative, passed, name.map Char.toUInt8 ++ rest⟩
      ⟨.building, params, ((name.map Char.toUpper).foldl hashStep running).toInt16, signNegative,
        passed ++ name.map Char.toUInt8, rest⟩ := by
  induction name generalizing running passed with
  | nil =>
    rw [List.map_nil, List.map_nil, List.append_nil]
    exact .refl
  | cons c name ih =>
    have htail : ∀ c' ∈ name, Param.isStart c' = true ∨ ('0' ≤ c' ∧ c' ≤ '9') :=
      fun c' hc' => hname c' (by simp [hc'])
    have hstep : Split.turn enoughMemory false
        ⟨.building, params, running.toInt16, signNegative, passed,
          c.toUInt8 :: (name.map Char.toUInt8 ++ rest)⟩
        = .more ⟨.building, params, (hashStep running c.toUpper).toInt16, signNegative,
            passed ++ [c.toUInt8], name.map Char.toUInt8 ++ rest⟩ := by
      rcases hname c (by simp) with hstart | hdigit
      · have hfacts := letterFacts hstart
        rw [Split.turn_letter hfacts.digit hfacts.letter, hfacts.value, hashStep,
          if_neg hfacts.hashed]
        rfl
      · have hfacts := digitFacts hdigit
        rw [Split.turn_digit hfacts.digit, hfacts.value, hashStep, if_pos hfacts.hashed]
        rw [UInt16.sub_eq_add_neg, UInt16.sub_eq_add_neg, UInt16.add_assoc]
        rfl
    have hpassed : passed ++ (c :: name).map Char.toUInt8
        = (passed ++ [c.toUInt8]) ++ name.map Char.toUInt8 := by simp
    rw [hpassed]
    exact .head ⟨hcount, hstep⟩ (ih htail (hashStep running c.toUpper))

/-- A name of letters, digits and underscores is read up to the character behind it. -/
theorem reaches_keyword (hcount : params.length < maxCommandParams) (hhot : Split.isWord hot = false)
    {name : List Char} (hne : name ≠ [])
    (hname : ∀ c ∈ name, Param.isStart c = true ∨ ('0' ≤ c ∧ c ≤ '9')) :
    ∃ v, Split.Reaches enoughMemory false
      ⟨.skipping, params, value, signNegative, passed, name.map Char.toUInt8 ++ hot :: rest⟩
      ⟨.skipping, params ++ [hk (String.ofList (name.map Char.toUpper))], v, false,
        passed ++ name.map Char.toUInt8, hot :: rest⟩ := by
  obtain ⟨c, tail, rfl⟩ := List.exists_cons_of_ne_nil hne
  have hother : c.toUInt8 ≠ space ∧ c.toUInt8 ≠ 0 ∧ c.toUInt8 ≠ closing ∧ c.toUInt8 ≠ quote ∧
      c.toUInt8 ≠ minus := by
    rcases hname c (by simp) with hstart | hdigit
    · exact (letterFacts hstart).other
    · exact other_of_digit hdigit
  obtain ⟨hspace, hzero, hclosing, hquote, hminus⟩ := hother
  have hbegin : Split.Reaches enoughMemory false
      ⟨.skipping, params, value, signNegative, passed, (c :: tail).map Char.toUInt8 ++ hot :: rest⟩
      ⟨.building, params, (0 : UInt16).toInt16, false, passed,
        (c :: tail).map Char.toUInt8 ++ hot :: rest⟩ :=
    Split.reaches_building hcount hspace hzero hclosing (fun h => hquote h.2) hminus
  have hend : Split.Turns enoughMemory false
      ⟨.building, params, (((c :: tail).map Char.toUpper).foldl hashStep 0).toInt16, false,
        passed ++ (c :: tail).map Char.toUInt8, hot :: rest⟩
      ⟨.skipping, params ++ [hk (String.ofList ((c :: tail).map Char.toUpper))],
        (((c :: tail).map Char.toUpper).foldl hashStep 0).toInt16, false,
        passed ++ (c :: tail).map Char.toUInt8, hot :: rest⟩ := by
    refine ⟨hcount, ?_⟩
    rw [Split.turn_end hhot, hk_ofList, if_neg (by decide), Int16.mul_one]
  exact ⟨_, (hbegin.trans (reaches_name hcount hname 0)).tail hend⟩

/-- Wherever `splitValues` comes to a name without a sign, the entry for it is what the compiler makes
of the name in upper case. -/
theorem splitValues_keyword {cmd : List UInt8} {s : Split} {name : List Char}
    (hreaches : Split.Reaches enoughMemory false (Split.start cmd) s) (hstate : s.state = .skipping)
    (hcount : s.params.length < maxCommandParams) (hrest : s.rest = name.map Char.toUInt8 ++ hot :: rest)
    (hne : name ≠ []) (hname : ∀ c ∈ name, Param.isStart c = true ∨ ('0' ≤ c ∧ c ≤ '9'))
    (hhot : Split.isWord hot = false) :
    (∃ t, Split.Reaches enoughMemory false (Split.start cmd) t ∧ t.rest = hot :: rest ∧
      t.params = s.params ++ [hk (String.ofList (name.map Char.toUpper))]) ∧
    ∀ splitnum u, splitValues enoughMemory false cmd = some (.returns splitnum u) →
      u.params[s.params.length]? = some (hk (String.ofList (name.map Char.toUpper))) := by
  obtain ⟨state, params, value, signNegative, passed, bytes⟩ := s
  cases hstate
  cases hrest
  have hkeyword : ∃ t, Split.Reaches enoughMemory false (Split.start cmd) t ∧ t.rest = hot :: rest ∧
      t.params = params ++ [hk (String.ofList (name.map Char.toUpper))] := by
    obtain ⟨v, hname⟩ := reaches_keyword hcount hhot hne hname
    exact ⟨_, hreaches.trans hname, rfl, rfl⟩
  refine ⟨hkeyword, fun splitnum u hreturns => ?_⟩
  obtain ⟨t, ht, -, hparams⟩ := hkeyword
  rw [splitValues_eq, Option.some.injEq] at hreturns
  rw [← Split.start, ht.result_eq] at hreturns
  obtain ⟨last, hlast, hu, -⟩ := Split.exists_reaches hreturns
  obtain ⟨more, hmore⟩ := hlast.prefix
  rw [hu, ← hmore, hparams]
  simp

/-- The command `<j 5a_ >`. -/
theorem splitValues_keyword_mixed :
    ∃ t, Split.Reaches true false (Split.start [106, 32, 53, 97, 95, 32, 62, 0]) t ∧
      t.rest = [32, 62, 0] ∧ t.params = [hk "5A_"] := by
  have hspace : Split.Reaches true false (Split.start [106, 32, 53, 97, 95, 32, 62, 0])
      ⟨.skipping, [], 0, false, [106, 32], [53, 97, 95, 32, 62, 0]⟩ := .single ⟨by decide, rfl⟩
  have hrest : [53, 97, 95, 32, 62, 0] = ['5', 'a', '_'].map Char.toUInt8 ++ (32 :: [62, 0]) := by decide
  obtain ⟨⟨t, hreaches, ht, hparams⟩, -⟩ := splitValues_keyword hspace rfl (by decide) hrest (by simp)
    (by simp [Param.isStart]) (by decide)
  exact ⟨t, hreaches, ht, hparams.trans rfl⟩

theorem read_keyword (hcount : params.length < maxCommandParams) (hhot : Split.isWord hot = false)
    {name : List Char} (hname : (Param.keyword name).Valid enoughMemory) :
    ∃ v neg, Split.result enoughMemory false
        ⟨.skipping, params, value, signNegative, passed, (Param.keyword name).text ++ hot :: rest⟩
      = Split.result enoughMemory false
        ⟨.skipping, params ++ [hk (String.ofList (name.map Char.toUpper))], v, neg,
          passed ++ (Param.keyword name).text, hot :: rest⟩ := by
  obtain ⟨⟨c, hc, -⟩, hall⟩ := hname
  have hne : name ≠ [] := by
    rintro rfl
    cases hc
  obtain ⟨v, hreaches⟩ := reaches_keyword hcount hhot hne hall
  exact ⟨v, false, hreaches.result_eq⟩

/-! ## Strings -/

theorem read_text (hcount : params.length < maxCommandParams) {text : List UInt8} (hquote : quote ∉ text)
    (hzero : 0 ∉ text) :
    Split.result enoughMemory false
        ⟨.text, params, value, signNegative, passed, text ++ quote :: rest⟩
      = Split.result enoughMemory false
        ⟨.skipping, params, value, signNegative, passed ++ (text ++ [0]), rest⟩ := by
  induction text generalizing passed with
  | nil => exact Split.text_quote hcount
  | cons b text ih =>
    rw [List.mem_cons, not_or] at hquote hzero
    rw [List.cons_append, Split.text_other hcount (Ne.symm hzero.1) (Ne.symm hquote.1),
      ih hquote.2 hzero.2, List.append_assoc, List.singleton_append, List.cons_append]

theorem read_string (hcount : params.length + 2 < maxCommandParams) {text : List UInt8}
    (hvalid : (Param.string text).Valid enoughMemory) :
    Split.result enoughMemory false
        ⟨.skipping, params, value, signNegative, passed, (Param.string text).text ++ rest⟩
      = Split.result enoughMemory false
        ⟨.skipping, params ++ [0x7777, Int16.ofNat (passed.length + 1)], value, signNegative,
          passed ++ (Param.string text).blanked, rest⟩ := by
  obtain ⟨rfl, hquote, hzero⟩ := hvalid
  have hcount' : (params ++ [0x7777, Int16.ofNat (passed.length + 1)]).length < maxCommandParams := by
    simpa using hcount
  rw [Param.text, List.cons_append, Split.skip_quote (by omega), List.append_assoc,
    List.singleton_append, read_text hcount' hquote hzero, Param.blanked, List.append_assoc,
    List.singleton_append]

/-- A parameter of any kind is read up to the character behind it. -/
theorem read_param (params : List Int16) (value : Int16) (signNegative : Bool)
    (passed rest : List UInt8) {p : Param} (hvalid : p.Valid enoughMemory)
    (hcount : params.length + (p.entries passed.length).length < maxCommandParams)
    (hhot : Split.isWord hot = false) :
    ∃ v neg, Split.result enoughMemory false
        ⟨.skipping, params, value, signNegative, passed, p.text ++ hot :: rest⟩
      = Split.result enoughMemory false
        ⟨.skipping, params ++ p.entries passed.length, v, neg, passed ++ p.blanked, hot :: rest⟩ := by
  cases p with
  | number n => exact read_number (Nat.lt_of_succ_lt hcount) hhot n
  | keyword name => exact read_keyword (Nat.lt_of_succ_lt hcount) hhot hvalid
  | string text => exact ⟨_, _, read_string hcount hvalid⟩

/-! ## Commands -/

theorem skip_spaces (hcount : params.length < maxCommandParams) (n : Nat) :
    Split.result enoughMemory false
        ⟨.skipping, params, value, signNegative, passed, List.replicate n space ++ rest⟩
      = Split.result enoughMemory false
        ⟨.skipping, params, value, signNegative, passed ++ List.replicate n space, rest⟩ := by
  induction n generalizing passed with
  | zero => simp
  | succ n ih =>
    rw [List.replicate_succ, List.cons_append, Split.skip_space hcount, ih, List.append_assoc,
      List.singleton_append]

theorem length_blanked (p : Param) : p.blanked.length = p.text.length := by
  cases p <;> simp [Param.blanked, Param.text]

theorem length_piecesBlanked (qs : List Piece) : (piecesBlanked qs).length = (piecesText qs).length := by
  induction qs with
  | nil => rfl
  | cons q qs ih => simp [piecesBlanked, piecesText, length_blanked, ih]

theorem piecesBlanked_append (pre qs : List Piece) :
    piecesBlanked (pre ++ qs) = piecesBlanked pre ++ piecesBlanked qs := by
  induction pre with
  | nil => rfl
  | cons q pre ih => simp [piecesBlanked, ih]

theorem piecesEntries_append (offset : Nat) (pre qs : List Piece) :
    piecesEntries offset (pre ++ qs)
      = piecesEntries offset pre ++ piecesEntries (offset + (piecesText pre).length) qs := by
  induction pre generalizing offset with
  | nil => rfl
  | cons q pre ih =>
    rw [List.cons_append, piecesEntries, ih, piecesEntries, List.append_assoc]
    congr 3
    simp [piecesText]
    omega

/-- Behind a parameter there is a space, or what follows the last one. -/
theorem piecesText_head (rest : List UInt8) {qs : List Piece} (hgaps : ∀ q ∈ qs, 0 < q.gap)
    (hhot : Split.isWord hot = false) :
    ∃ b bs, piecesText qs ++ hot :: rest = b :: bs ∧ Split.isWord b = false := by
  cases qs with
  | nil => exact ⟨hot, rest, rfl, hhot⟩
  | cons q qs =>
    obtain ⟨gap, hgap⟩ : ∃ gap, q.gap = gap + 1 := ⟨q.gap - 1, by have := hgaps q (by simp); omega⟩
    refine ⟨space, List.replicate gap space ++ (q.param.text ++ piecesText qs) ++ hot :: rest, ?_, by decide⟩
    rw [piecesText, hgap, List.replicate_succ, List.cons_append, List.cons_append]

/-- Pieces with gaps between them are read one after the other, each to its entries. -/
theorem read_pieces (params : List Int16) (value : Int16) (signNegative : Bool)
    (passed rest : List UInt8) {qs : List Piece} (hvalid : ∀ q ∈ qs, q.param.Valid enoughMemory)
    (hgaps : ∀ q ∈ qs.tail, 0 < q.gap)
    (hcount : params.length + (piecesEntries passed.length qs).length < maxCommandParams)
    (hhot : Split.isWord hot = false) :
    ∃ v neg, Split.result enoughMemory false
        ⟨.skipping, params, value, signNegative, passed, piecesText qs ++ hot :: rest⟩
      = Split.result enoughMemory false
        ⟨.skipping, params ++ piecesEntries passed.length qs, v, neg, passed ++ piecesBlanked qs,
          hot :: rest⟩ := by
  induction qs generalizing params passed value signNegative with
  | nil => exact ⟨value, signNegative, by simp [piecesText, piecesEntries, piecesBlanked]⟩
  | cons q qs ih =>
    rw [piecesEntries, List.length_append] at hcount
    rw [List.tail_cons] at hgaps
    obtain ⟨b, bs, hnext, hb⟩ := piecesText_head rest hgaps hhot
    have hpassed : (passed ++ List.replicate q.gap space).length = passed.length + q.gap := by simp
    obtain ⟨v, neg, hfirst⟩ := read_param params value signNegative
      (passed ++ List.replicate q.gap space) bs (hvalid q (by simp)) (by rw [hpassed]; omega) hb
    have hafter : (passed ++ List.replicate q.gap space ++ q.param.blanked).length
        = passed.length + q.gap + q.param.text.length := by
      rw [List.length_append, hpassed, length_blanked]
    obtain ⟨v', neg', hrest⟩ := ih
      (params ++ q.param.entries (passed.length + q.gap)) v neg
      (passed ++ List.replicate q.gap space ++ q.param.blanked) (fun q' hq' => hvalid q' (by simp [hq'])) (fun q' hq' => hgaps q' (List.mem_of_mem_tail hq'))
      (by rw [hafter, List.length_append]; omega)
    refine ⟨v', neg', ?_⟩
    rw [hafter] at hrest
    rw [hpassed] at hfirst
    rw [piecesText, piecesEntries, piecesBlanked, List.append_assoc, skip_spaces (by omega),
      List.append_assoc, hnext, hfirst, ← hnext, hrest]
    simp only [List.append_assoc]

end Reading

/-- **Parameters are read back.** A command is written as its opcode, its parameters with spaces
between them, and `>`. `splitValues` finds these parameters: the numbers, the hashes of the keywords,
and for a string the marker and the offset of its text. The rest of the buffer is not changed, except
that the strings and the command end with a zero. -/
theorem splitValues_reads_back (enoughMemory : Bool) (opcode : UInt8) (pieces : List Piece) (trail : Nat)
    (after : List UInt8) (hvalid : ∀ q ∈ pieces, q.param.Valid enoughMemory)
    (hgaps : ∀ q ∈ pieces.tail, 0 < q.gap)
    (hfit : (piecesEntries 1 pieces).length < maxCommandParams) :
    ∃ s, splitValues enoughMemory false
        (opcode :: (piecesText pieces ++ (List.replicate trail space ++ closing :: after)))
          = some (.returns (piecesEntries 1 pieces).length s) ∧
      s.params = piecesEntries 1 pieces ∧
      s.passed ++ s.rest
        = opcode :: (piecesBlanked pieces ++ (List.replicate trail space ++ 0 :: after)) ∧
      ∀ pre gap text post, pieces = pre ++ ⟨gap, .string text⟩ :: post →
        let offset := 1 + (piecesText pre).length + gap + 1
        s.params[(piecesEntries 1 pre).length]? = some 0x7777 ∧
        s.params[(piecesEntries 1 pre).length + 1]? = some (Int16.ofNat offset) ∧
        text ++ [0] <+: (s.passed ++ s.rest).drop offset := by
  -- what ends the last piece is a space or the `>`
  obtain ⟨hot, rest, htrail, hhot⟩ : ∃ hot rest,
      List.replicate trail space ++ closing :: after = hot :: rest ∧ Split.isWord hot = false := by
    cases trail with
    | zero => exact ⟨closing, after, rfl, by decide⟩
    | succ trail => exact ⟨space, _, rfl, by decide⟩
  obtain ⟨v, neg, hread⟩ := read_pieces [] 0 false [opcode] rest hvalid hgaps
    (by simpa using hfit) hhot
  rw [← htrail, List.length_singleton, List.nil_append, skip_spaces hfit, Split.skip_closing hfit]
    at hread
  refine ⟨_, by rw [splitValues_eq]; exact congrArg some hread, rfl, by simp, ?_⟩
  intro pre gap text post hpieces
  dsimp only
  rw [hpieces, piecesEntries_append, piecesBlanked_append]
  -- the offset counts the opcode, the pieces before, the gap and the quote
  have hoffset : 1 + (piecesText pre).length + gap + 1
      = ([opcode] ++ piecesBlanked pre ++ List.replicate gap space ++ [quote]).length := by
    simp [length_piecesBlanked]
    omega
  refine ⟨by simp [piecesEntries, Param.entries], by simp [piecesEntries, Param.entries], ?_⟩
  rw [hoffset]
  have hsplit : ([opcode] ++ (piecesBlanked pre ++ piecesBlanked (⟨gap, .string text⟩ :: post))
        ++ List.replicate trail space) ++ 0 :: after
      = ([opcode] ++ piecesBlanked pre ++ List.replicate gap space ++ [quote]) ++
        (text ++ [0] ++ (piecesBlanked post ++ (List.replicate trail space ++ 0 :: after))) := by
    simp [piecesBlanked, Param.blanked]
  rw [hsplit, List.drop_left]
  exact List.prefix_append _ _

/-- The command `<j 12 -32768  Main "a>b" 0 >` with something behind it. -/
theorem splitValues_reads_back_mixed :
    ∃ s, splitValues true false
        (106 :: (piecesText [⟨1, .number 12⟩, ⟨1, .number (-32768)⟩, ⟨2, .keyword "Main".toList⟩,
          ⟨1, .string [97, 62, 98]⟩, ⟨1, .number 0⟩] ++ (List.replicate 1 space ++ closing :: [60])))
          = some (.returns 6 s) ∧
      s.params = [12, -32768, 11339, 0x7777, 19, 0] := by
  obtain ⟨s, hreturns, hparams, -⟩ := splitValues_reads_back true 106
    [⟨1, .number 12⟩, ⟨1, .number (-32768)⟩, ⟨2, .keyword "Main".toList⟩, ⟨1, .string [97, 62, 98]⟩,
      ⟨1, .number 0⟩] 1 [60]
    (by
      simp only [List.forall_mem_cons, Param.Valid]
      refine ⟨trivial, trivial, ⟨⟨'M', by decide, by decide⟩, ?_⟩, ⟨trivial, by decide, by decide⟩, trivial,
        by simp⟩
      simp [Param.isStart])
    (by decide) (by decide)
  exact ⟨s, hreturns, hparams.trans (by decide)⟩

end DCCEXParser

end CommandStation
