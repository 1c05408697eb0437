import CommandStation.DCCEXParser.Reading

/-!
# Reading within the buffer

`parseOne` strips spaces and `<` from a command, and takes what it then finds for the opcode;
`splitValues` begins one byte behind it. If there was nothing to find then the opcode is the
terminating zero, and the byte behind it is not in the buffer any more. This happens at the end of a
text like `<1>< `, unless `parse` does not get there, because a command before it was ended with a
zero behind the place where `parse` is.
-/

namespace CommandStation

namespace DCCEXParser

variable {enoughMemory : Bool} {text : List UInt8} {p c : Nat}

/-! ## Where commands begin -/

/-- `parse` takes the byte at `p` for the begin of a command. -/
def Start (text : List UInt8) (p : Nat) : Prop :=
  p < text.length ∧ ((p = 0 ∧ text[0]? ≠ some opening) ∨ ∃ q, p = q + 1 ∧ text[q]? = some opening)

/-- There is nothing but `<` and spaces from here on. -/
def Blank (text : List UInt8) (p : Nat) : Prop := ∀ b ∈ text.drop p, isLead b = true

/-- The `<` at `c` is the first one from the command at `p` on. -/
structure Meets (text : List UInt8) (p c : Nat) : Prop where
  start : Start text p
  le : p ≤ c
  at_opening : text[c]? = some opening
  between : ∀ i, p ≤ i → i < c → text[i]? ≠ some opening

/-- The command at `p` has bytes behind `c` that `parseOne` overwrites. -/
def Cuts (enoughMemory : Bool) (text : List UInt8) (p c : Nat) : Prop :=
  (blankCommand enoughMemory ((text ++ [0]).drop p)).drop (c + 1 - p) ≠ (text ++ [0]).drop (c + 1)

theorem blank_iff (hp : p ≤ text.length) :
    ((text ++ [0]).drop p).dropWhile isLead = [0] ↔ Blank text p := by
  have hzero : isLead 0 = false := by decide
  rw [List.drop_append_of_le_length hp]
  constructor
  · intro h b hb
    have hsplit := List.takeWhile_append_dropWhile (p := isLead) (l := text.drop p ++ [0])
    rw [h] at hsplit
    rw [← List.append_cancel_right hsplit] at hb
    exact List.mem_takeWhile_imp hb
  · intro h
    rw [List.dropWhile_append_of_pos h, List.dropWhile_cons_of_neg (by simp [hzero])]

theorem Blank.getElem {i : Nat} {b : UInt8} (h : Blank text p) (hp : p ≤ i) (hi : text[i]? = some b) :
    isLead b = true := by
  refine h b (List.mem_of_getElem? (i := i - p) ?_)
  rw [List.getElem?_drop, Nat.add_sub_cancel' hp, hi]

/-- A byte behind `c` is overwritten. -/
theorem Cuts.exists_overwritten (h : Cuts enoughMemory text p c) (hc : p ≤ c) :
    ∃ q b, c < q ∧ text[q]? = some b ∧ isLead b = false ∧
      (blankCommand enoughMemory ((text ++ [0]).drop p))[q - p]? = some 0 := by
  by_contra hnone
  refine h (List.ext_getElem? fun i => ?_)
  rw [List.getElem?_drop, List.getElem?_drop]
  have hsame : ((text ++ [0]).drop p)[c + 1 - p + i]? = (text ++ [0])[c + 1 + i]? := by
    rw [List.getElem?_drop]
    congr 1
    omega
  cases hold : (text ++ [0])[c + 1 + i]? with
  | none =>
    rw [hold, List.getElem?_eq_none_iff] at hsame
    rw [List.getElem?_eq_none_iff, length_blankCommand]
    exact hsame
  | some b =>
    rw [hold] at hsame
    refine (getElem?_blankCommand hsame).resolve_right fun hnew => hnone ?_
    have hlead : isLead b = false := by
      rcases hnew.2 with rfl | rfl <;> decide
    have htext : text[c + 1 + i]? = some b := by
      by_cases hlt : c + 1 + i < text.length
      · rwa [List.getElem?_append_left hlt] at hold
      · rw [List.getElem?_append_right (by omega)] at hold
        have hb := List.mem_of_getElem? hold
        rw [List.mem_singleton] at hb
        rw [hb] at hnew
        exact absurd hnew.2 (by decide)
    exact ⟨c + 1 + i, b, by omega, htext, hlead, by
      rw [show c + 1 + i - p = c + 1 - p + i by omega]; exact hnew.1⟩

/-! ## The loop -/

/-- A byte behind the end was read. -/
def Parse.Bad (st : Parse) : Prop := ∃ call ∈ st.calls, call.2 = .beyond

section Calls

variable {st : Parse}

/-- A call of `parseOne` for a command in the buffer. -/
theorem call_spec (enoughMemory : Bool) (hlast : st.buffer.getLast? = some 0) (hp : p < st.buffer.length) :
    (st.call enoughMemory p).buffer
      = st.buffer.take p ++ blankCommand enoughMemory (st.buffer.drop p) ∧
    ((st.call enoughMemory p).Bad ↔ st.Bad ∨ (st.buffer.drop p).dropWhile isLead = [0]) := by
  have hzero : (st.buffer.drop p).getLast? = some 0 := by
    rw [List.getLast?_drop, if_neg (by omega), hlast]
  obtain ⟨hbuffer, hbeyond⟩ := parseOne_of_zero enoughMemory hzero
  refine ⟨by rw [← hbuffer]; rfl, ?_⟩
  rw [← hbeyond]
  simp only [Parse.Bad, Parse.call, List.mem_append, List.mem_singleton]
  constructor
  · rintro ⟨call, hmem | hnew, hcall⟩
    · exact .inl ⟨call, hmem, hcall⟩
    · rw [hnew] at hcall
      exact .inr hcall
  · rintro (⟨call, hmem, hcall⟩ | hcall)
    · exact ⟨call, .inl hmem, hcall⟩
    · exact ⟨_, .inr rfl, hcall⟩

theorem length_call (hlast : st.buffer.getLast? = some 0) (hp : p < st.buffer.length) :
    (st.call enoughMemory p).buffer.length = st.buffer.length := by
  rw [(call_spec enoughMemory hlast hp).1, List.length_append, length_blankCommand, ← List.length_append,
    List.take_append_drop]

/-- A zero stays. -/
theorem zero_call (hlast : st.buffer.getLast? = some 0) (hp : p < st.buffer.length) {q : Nat}
    (hq : st.buffer[q]? = some 0) : (st.call enoughMemory p).buffer[q]? = some 0 := by
  rw [(call_spec enoughMemory hlast hp).1]
  by_cases hlt : q < p
  · rw [List.getElem?_append_left (by rw [List.length_take]; omega), List.getElem?_take_of_lt hlt, hq]
  · have hlen : (st.buffer.take p).length = p := by rw [List.length_take]; omega
    rw [List.getElem?_append_right (by omega), hlen]
    have hdrop : (st.buffer.drop p)[q - p]? = some 0 := by
      rw [List.getElem?_drop, Nat.add_sub_cancel' (by omega), hq]
    rcases getElem?_blankCommand hdrop with h | h
    · exact h
    · exact h.1

theorem getLast?_call (hlast : st.buffer.getLast? = some 0) (hp : p < st.buffer.length) :
    (st.call enoughMemory p).buffer.getLast? = some 0 := by
  rw [List.getLast?_eq_getElem?] at hlast ⊢
  rw [length_call (by rw [List.getLast?_eq_getElem?, hlast]) hp]
  exact zero_call (by rw [List.getLast?_eq_getElem?, hlast]) hp hlast

/-- A command that has a zero before the last byte is read within the buffer. -/
theorem call_before_zero (hlast : st.buffer.getLast? = some 0) {q : Nat} (hpq : p ≤ q)
    (hq : st.buffer[q]? = some 0) (hbefore : q + 1 < st.buffer.length) :
    (st.call enoughMemory p).Bad ↔ st.Bad := by
  rw [(call_spec enoughMemory hlast (by omega)).2]
  refine or_iff_left fun hdrop => ?_
  have hzero : isLead 0 = false := by decide
  have hsplit := List.takeWhile_append_dropWhile (p := isLead) (l := st.buffer.drop p)
  rw [hdrop] at hsplit
  have hlen := congrArg List.length hsplit
  rw [List.length_append, List.length_singleton, List.length_drop] at hlen
  have hget : (st.buffer.drop p)[q - p]? = some 0 := by
    rw [List.getElem?_drop, Nat.add_sub_cancel' hpq, hq]
  rw [← hsplit, List.getElem?_append_left (by omega)] at hget
  have := List.mem_takeWhile_imp (List.mem_of_getElem? hget)
  rw [hzero] at this
  cases this

theorem callLater_before_zero (enoughMemory : Bool) {later : Option Nat} (hlater : ∀ p ∈ later, p ≤ c)
    (hlast : st.buffer.getLast? = some 0) {q : Nat} (hcq : c ≤ q) (hq : st.buffer[q]? = some 0)
    (hbefore : q + 1 < st.buffer.length) :
    ((st.callLater enoughMemory later).Bad ↔ st.Bad) ∧
    (st.callLater enoughMemory later).buffer.length = st.buffer.length ∧
    (st.callLater enoughMemory later).buffer.getLast? = some 0 ∧
    (st.callLater enoughMemory later).buffer[q]? = some 0 := by
  cases later with
  | none => exact ⟨Iff.rfl, rfl, hlast, hq⟩
  | some p =>
    have hp := hlater p rfl
    exact ⟨call_before_zero hlast (by omega) hq hbefore, length_call hlast (by omega),
      getLast?_call hlast (by omega), zero_call hlast (by omega) hq⟩

/-- One turn of the loop of `parse`. -/
theorem loop_succ {k : Nat} {later : Option Nat} {found : Bool} {b : UInt8}
    (hb : st.buffer[c]? = some b) :
    st.loop enoughMemory (k + 1) c later found =
      if b = 0 then st.callLater enoughMemory later
      else if b = opening then
        (st.callLater enoughMemory (if found then some c else later)).loop enoughMemory k (c + 1)
          (if found then some c else later) true
      else st.loop enoughMemory k (c + 1) (if found then some c else later) false := by
  rw [Parse.loop]
  exact hb

/-- From a place on that has a zero before the last byte of the buffer behind it, nothing is read
behind the end. -/
theorem loop_before_zero {k : Nat} {later : Option Nat} {found : Bool} {q : Nat}
    (hlast : st.buffer.getLast? = some 0) (hk : c + k = st.buffer.length) (hlater : ∀ p ∈ later, p ≤ c)
    (hcq : c ≤ q) (hq : st.buffer[q]? = some 0) (hbefore : q + 1 < st.buffer.length) :
    (st.loop enoughMemory k c later found).Bad ↔ st.Bad := by
  induction k generalizing st c later found with
  | zero => omega
  | succ k ih =>
    obtain ⟨b, hb⟩ : ∃ b, st.buffer[c]? = some b := ⟨_, List.getElem?_eq_getElem (by omega)⟩
    rw [loop_succ hb]
    by_cases hzero : b = 0
    · rw [if_pos hzero]
      exact (callLater_before_zero enoughMemory hlater hlast hcq hq hbefore).1
    · have hne : c ≠ q := by
        intro heq
        rw [heq, hq] at hb
        exact hzero (Option.some.inj hb).symm
      have hlater' : ∀ p ∈ (if found then some c else later), p ≤ c := by
        intro p hp
        cases found with
        | true => exact Nat.le_of_eq (Option.mem_some.mp hp).symm
        | false => exact hlater p hp
      rw [if_neg hzero]
      split
      · obtain ⟨hbad, hlen, hlast', hq'⟩ := callLater_before_zero enoughMemory hlater' hlast hcq
          hq hbefore
        rw [← hbad]
        exact ih hlast' (by omega) (fun p hp => Nat.le_succ_of_le (hlater' p hp)) (by omega) hq' (by omega)
      · exact ih hlast (by omega) (fun p hp => Nat.le_succ_of_le (hlater' p hp)) (by omega) hq hbefore

end Calls

/-- The loop at place `c`: the bytes from there on are those of the text, and so are those of the
command that `cForLater` points to. If the byte before was a `<` then this command has been called
already. -/
structure Going (text : List UInt8) (c : Nat) (later : Option Nat) (found : Bool) (st : Parse) :
    Prop where
  last : st.buffer.getLast? = some 0
  length : st.buffer.length = text.length + 1
  ahead : st.buffer.drop c = (text ++ [0]).drop c
  start : c < text.length → (found = true ↔ Start text c)
  fresh : ∀ p ∈ later, found = false → st.buffer.drop p = (text ++ [0]).drop p ∧ Start text p ∧ p ≤ c ∧
    ∀ i, p ≤ i → i < c → text[i]? ≠ some opening
  stale : ∀ p ∈ later, found = true → p < c ∧ ((st.buffer.drop p).dropWhile isLead = [0] → st.Bad)
  early : later = none → ∀ p, Start text p → c ≤ p

/-- The commands that are to be called from here on. -/
def Due (text : List UInt8) (c : Nat) (later : Option Nat) (found : Bool) (p : Nat) : Prop :=
  Start text p ∧ (c ≤ p ∨ p ∈ later ∧ found = false)

/-- A command from here on overwrites what `parse` has still to see. -/
def CutFrom (enoughMemory : Bool) (text : List UInt8) (c : Nat) : Prop :=
  ∃ p c', c ≤ c' ∧ Meets text p c' ∧ Cuts enoughMemory text p c'

section Loop

variable {st : Parse} {later : Option Nat} {found : Bool} {b : UInt8}

theorem Going.getElem? (h : Going text c later found st) : st.buffer[c]? = (text ++ [0])[c]? := by
  have := congrArg (·[0]?) h.ahead
  simpa using this

theorem Start.le (h : Start text p) : p ≤ text.length := Nat.le_of_lt h.1

/-- The `<` at `c` ends only one command. -/
theorem Meets.unique {p' : Nat} (h : Meets text p c) (h' : Meets text p' c) : p = p' := by
  have hle : ∀ {p p' : Nat}, Meets text p c → Meets text p' c → p ≤ p' := by
    intro p p' h h'
    by_contra hlt
    obtain ⟨-, hzero | ⟨q, rfl, hq⟩⟩ := h.start
    · omega
    · exact h'.between q (by omega) (by have := h.le; omega) hq
  exact Nat.le_antisymm (hle h h') (hle h' h)

/-- Where there is nothing but blanks, nothing is overwritten. -/
theorem Blank.not_cutFrom (h : Blank text p) (hp : p ≤ c) : ¬ CutFrom enoughMemory text c := by
  rintro ⟨p', c', hc', hmeets, hcuts⟩
  obtain ⟨q, b, hq, hb, hlead, -⟩ := hcuts.exists_overwritten hmeets.le
  rw [h.getElem (by omega) hb] at hlead
  cases hlead

/-- The command that `cForLater` points to when the byte at `c` has been seen. -/
theorem Going.pointed (h : Going text c later found st) (hc : c < text.length)
    (hp : p ∈ (if found then some c else later)) :
    st.buffer.drop p = (text ++ [0]).drop p ∧ Start text p ∧ p ≤ c ∧
    ∀ i, p ≤ i → i < c → text[i]? ≠ some opening := by
  cases hfound : found with
  | true =>
    rw [hfound] at hp
    obtain rfl : c = p := Option.mem_some.mp hp
    exact ⟨h.ahead, (h.start hc).mp hfound, Nat.le_refl _, fun i hi hlt => absurd hlt (by omega)⟩
  | false =>
    rw [hfound] at hp
    exact h.fresh p hp hfound

/-- The commands that are due do not change when a byte is passed that is not a `<`. -/
theorem due_of_pass (h : Going text c later found st) (hc : c < text.length) :
    Due text c later found p ↔
      Start text p ∧ (c + 1 ≤ p ∨ p ∈ (if found then some c else later)) := by
  cases hfound : found with
  | true =>
    simp only [Due, if_true, Option.mem_some, Bool.true_eq_false, and_false, or_false]
    refine and_congr_right fun _ => ?_
    omega
  | false =>
    simp only [Due, and_true, Bool.false_eq_true, if_false]
    refine and_congr_right fun hstart => or_congr_left ?_
    have hne : c ≠ p := by
      intro heq
      rw [← heq] at hstart
      rw [(h.start hc).mpr hstart] at hfound
      cases hfound
    omega

theorem Going.early_succ (h : Going text c later found st) (hc : c < text.length)
    (hnone : (if found then some c else later) = none) : ∀ p, Start text p → c + 1 ≤ p := by
  intro p hp
  cases hfound : found with
  | true => rw [hfound] at hnone; cases hnone
  | false =>
    rw [hfound] at hnone
    have hle := h.early hnone p hp
    have hne : c ≠ p := by
      intro heq
      rw [← heq] at hp
      rw [(h.start hc).mpr hp] at hfound
      cases hfound
    omega

theorem ahead_succ {buffer : List UInt8} (h : buffer.drop c = (text ++ [0]).drop c) :
    buffer.drop (c + 1) = (text ++ [0]).drop (c + 1) := by
  rw [← List.drop_drop, ← List.drop_drop, h]

/-- A byte that is not a `<` is passed. -/
theorem Going.pass (h : Going text c later found st) (hb : text[c]? = some b) (hne : b ≠ opening) :
    Going text (c + 1) (if found then some c else later) false st := by
  have hc : c < text.length := (List.getElem?_eq_some_iff.mp hb).1
  refine ⟨h.last, h.length, ahead_succ h.ahead, fun _ => ⟨(fun hf => by cases hf), ?_⟩, ?_,
    (fun _ _ hf => by cases hf), h.early_succ hc⟩
  · rintro ⟨-, hzero | ⟨q, heq, hq⟩⟩
    · omega
    · obtain rfl : c = q := by omega
      rw [hb] at hq
      exact absurd (Option.some.inj hq) hne
  · intro p hp _
    obtain ⟨hbuffer, hstart, hle, hbetween⟩ := h.pointed hc hp
    refine ⟨hbuffer, hstart, by omega, fun i hi hlt => ?_⟩
    by_cases hic : i = c
    · rw [hic, hb]
      exact fun heq => hne (Option.some.inj heq)
    · exact hbetween i hi (by omega)

theorem start_succ (hb : text[c]? = some opening) (hc : c + 1 < text.length) : Start text (c + 1) :=
  ⟨hc, .inr ⟨c, rfl, hb⟩⟩

/-- A `<` before any command. -/
theorem Going.first (h : Going text c later found st) (hb : text[c]? = some opening)
    (hnone : (if found then some c else later) = none) : Going text (c + 1) none true st := by
  have hc : c < text.length := (List.getElem?_eq_some_iff.mp hb).1
  exact ⟨h.last, h.length, ahead_succ h.ahead, fun hlt => ⟨fun _ => start_succ hb hlt, fun _ => rfl⟩,
    (fun _ hp => by cases hp), (fun _ hp => by cases hp), fun _ => h.early_succ hc hnone⟩

/-- A `<` at which the command before it is called, if this does not overwrite anything behind it. -/
theorem Going.called (h : Going text c later found st) (hb : text[c]? = some opening)
    (hp : p ∈ (if found then some c else later)) (hcuts : ¬ Cuts enoughMemory text p c) :
    Going text (c + 1) (some p) true (st.call enoughMemory p) := by
  have hc : c < text.length := (List.getElem?_eq_some_iff.mp hb).1
  obtain ⟨hbuffer, hstart, hle, hbetween⟩ := h.pointed hc hp
  have hlt : p < st.buffer.length := by have := h.length; omega
  obtain ⟨hcall, hbad⟩ := call_spec enoughMemory h.last hlt
  have htake : (st.buffer.take p).length = p := by rw [List.length_take]; omega
  refine ⟨getLast?_call h.last hlt, (length_call h.last hlt).trans h.length, ?_,
    fun hlt => ⟨fun _ => start_succ hb hlt, fun _ => rfl⟩, (fun _ _ hf => by cases hf), ?_,
    (fun hf => by cases hf)⟩
  · rw [hcall, List.drop_append, List.drop_eq_nil_of_le (by omega), htake, List.nil_append, hbuffer]
    exact not_not.mp hcuts
  · intro p' hp' _
    obtain rfl : p = p' := Option.mem_some.mp hp'
    refine ⟨by omega, fun hblank => hbad.mpr (.inr ?_)⟩
    rw [hcall, List.drop_left' htake] at hblank
    exact dropWhile_blankCommand hblank

/-- At the terminating zero the last command is called. -/
theorem Going.finish (h : Going text text.length later found st) :
    (st.callLater enoughMemory later).Bad ↔
      st.Bad ∨ ∃ p, Due text text.length later found p ∧ Blank text p := by
  have hdue : ∀ p, Due text text.length later found p → p ∈ later ∧ found = false := by
    rintro p ⟨hstart, hle | hp⟩
    · exact absurd hstart.1 (by omega)
    · exact hp
  cases hl : later with
  | none =>
    refine ⟨.inl, fun hbad => hbad.resolve_right ?_⟩
    rintro ⟨p, hp, -⟩
    rw [← hl] at hp
    rw [hl] at hdue
    cases (hdue p (by rwa [← hl])).1
  | some p =>
    have hp : p ∈ later := hl
    cases hfound : found with
    | true =>
      obtain ⟨hlt, hstale⟩ := h.stale p hp hfound
      show (st.call enoughMemory p).Bad ↔ _
      rw [(call_spec enoughMemory h.last (by have := h.length; omega)).2]
      constructor
      · exact fun hbad => .inl (hbad.elim id hstale)
      · rintro (hbad | ⟨p', hp', -⟩)
        · exact .inl hbad
        · rw [hl, hfound] at hdue
          cases (hdue p' hp').2
    | false =>
      obtain ⟨hbuffer, hstart, hle, -⟩ := h.fresh p hp hfound
      show (st.call enoughMemory p).Bad ↔ _
      rw [(call_spec enoughMemory h.last (by have := h.length; omega)).2, hbuffer, blank_iff hle]
      refine or_congr_right ⟨fun hblank => ⟨p, ⟨hstart, .inr ⟨rfl, rfl⟩⟩, hblank⟩, ?_⟩
      rintro ⟨p', hp', hblank⟩
      rw [hl, hfound] at hdue
      obtain rfl : p = p' := Option.mem_some.mp (hdue p' hp').1
      exact hblank

/-- Only a `<` can be the place where something is overwritten. -/
theorem cutFrom_succ (h : ∀ p, Meets text p c → ¬ Cuts enoughMemory text p c) :
    CutFrom enoughMemory text c ↔ CutFrom enoughMemory text (c + 1) := by
  constructor
  · rintro ⟨p, c', hc', hmeets, hcuts⟩
    by_cases heq : c' = c
    · rw [heq] at hmeets hcuts
      exact absurd hcuts (h p hmeets)
    · exact ⟨p, c', by omega, hmeets, hcuts⟩
  · rintro ⟨p, c', hc', hmeets, hcuts⟩
    exact ⟨p, c', by omega, hmeets, hcuts⟩

/-- When the command at `p` is called, those behind it are left. -/
theorem due_of_called (h : Going text c later found st) (hc : c < text.length)
    (hp : p ∈ (if found then some c else later)) :
    (∃ p', Due text c later found p' ∧ Blank text p') ↔
      Blank text p ∨ ∃ p', Due text (c + 1) (some p) true p' ∧ Blank text p' := by
  have hstart : Start text p := (h.pointed hc hp).2.1
  constructor
  · rintro ⟨p', hdue, hblank⟩
    rw [due_of_pass h hc, hp] at hdue
    rcases hdue.2 with hle | hmem
    · exact .inr ⟨p', ⟨hdue.1, .inl hle⟩, hblank⟩
    · rw [Option.mem_some.mp hmem]
      exact .inl hblank
  · rintro (hblank | ⟨p', ⟨hstart', hle | hmem⟩, hblank⟩)
    · exact ⟨p, (due_of_pass h hc).mpr ⟨hstart, .inr hp⟩, hblank⟩
    · exact ⟨p', (due_of_pass h hc).mpr ⟨hstart', .inl hle⟩, hblank⟩
    · cases hmem.2

/-- The command at `p` overwrites something behind the `<` at `c`: `parse` comes to this zero, and not
to the end. -/
theorem Going.cut {k : Nat} (h : Going text c later found st) (hk : c + (k + 1) = text.length + 1)
    (hb : text[c]? = some opening) (hp : p ∈ (if found then some c else later))
    (hcuts : Cuts enoughMemory text p c) :
    ((st.call enoughMemory p).loop enoughMemory k (c + 1) (some p) true).Bad ↔ st.Bad := by
  have hc : c < text.length := (List.getElem?_eq_some_iff.mp hb).1
  obtain ⟨hbuffer, hstart, hle, -⟩ := h.pointed hc hp
  obtain ⟨q, b, hq, hb', hlead, hwritten⟩ := hcuts.exists_overwritten hle
  have hqlt := (List.getElem?_eq_some_iff.mp hb').1
  have hlen := h.length
  have hplt : p < st.buffer.length := by omega
  obtain ⟨hcall, hbad⟩ := call_spec enoughMemory h.last hplt
  rw [hbuffer, blank_iff (by omega)] at hbad
  have htake : (st.buffer.take p).length = p := by rw [List.length_take]; omega
  have hzero : (st.call enoughMemory p).buffer[q]? = some 0 := by
    rw [hcall, List.getElem?_append_right (by omega), htake, hbuffer, hwritten]
  have hlen' : (st.call enoughMemory p).buffer.length = st.buffer.length := length_call h.last hplt
  have hnot : ¬ Blank text p := by
    intro hblank
    rw [hblank.getElem (by omega) hb'] at hlead
    cases hlead
  have hlater : ∀ p' ∈ some p, p' ≤ c + 1 := by
    intro p' hp'
    rw [← Option.mem_some.mp hp']
    omega
  rw [loop_before_zero (getLast?_call h.last hplt) (by omega) hlater (by omega) hzero (by omega), hbad]
  exact or_iff_left hnot

/-- From a place of the loop on, a byte behind the end is read if and only if a command that is due
has nothing but blanks, and nothing is overwritten that `parse` has still to see. -/
theorem loop_bad_iff (enoughMemory : Bool) {k : Nat} (hzero : 0 ∉ text) (hk : c + k = text.length + 1) (hc : c ≤ text.length)
    (h : Going text c later found st) :
    (st.loop enoughMemory k c later found).Bad ↔
      st.Bad ∨ (∃ p, Due text c later found p ∧ Blank text p) ∧ ¬ CutFrom enoughMemory text c := by
  -- by what is left of the text: its end, a `<`, or any other byte
  induction k generalizing c later found st with
  | zero => omega
  | succ k ih =>
    have hget := h.getElem?
    by_cases hend : c = text.length
    · subst hend
      rw [loop_succ (b := 0) (by rw [hget]; simp), if_pos rfl, h.finish]
      refine or_congr_right (and_iff_left ?_).symm
      rintro ⟨p, c', hc', hmeets, -⟩
      have := (List.getElem?_eq_some_iff.mp hmeets.at_opening).1
      omega
    have hlt : c < text.length := by omega
    obtain ⟨b, hb⟩ : ∃ b, text[c]? = some b := ⟨_, List.getElem?_eq_getElem hlt⟩
    have hne : b ≠ 0 := fun heq => hzero (heq ▸ List.mem_of_getElem? hb)
    rw [loop_succ (by rw [hget, List.getElem?_append_left hlt, hb]), if_neg hne]
    by_cases hopen : b = opening
    · rw [if_pos hopen]
      rw [hopen] at hb
      cases hlater : (if found then some c else later) with
      | none =>
        -- no command is open at this `<`, and it is only remembered
        have hmeets : ∀ p, Meets text p c → ¬ Cuts enoughMemory text p c := fun p hp => by
          have := h.early_succ hlt hlater p hp.start
          have := hp.le
          omega
        rw [cutFrom_succ hmeets]
        refine (ih (by omega) (by omega) (h.first hb hlater)).trans (or_congr_right (and_congr_left' ?_))
        refine exists_congr fun p => and_congr_left' ?_
        rw [due_of_pass h hlt, hlater]
        simp [Due]
      | some p =>
        have hp : p ∈ (if found then some c else later) := hlater
        obtain ⟨hbuffer, hstart, hle, hbetween⟩ := h.pointed hlt hp
        have hmeets : Meets text p c := ⟨hstart, hle, hb, hbetween⟩
        show ((st.call enoughMemory p).loop enoughMemory k (c + 1) (some p) true).Bad ↔ _
        -- the command in front of it is parsed, and its end is overwritten or not
        by_cases hcuts : Cuts enoughMemory text p c
        · have hcut : CutFrom enoughMemory text c := ⟨p, c, Nat.le_refl _, hmeets, hcuts⟩
          rw [h.cut hk hb hp hcuts, or_iff_left fun hnot => hnot.2 hcut]
        · have hbad := (call_spec enoughMemory h.last (p := p) (by have := h.length; omega)).2
          rw [hbuffer, blank_iff (by omega)] at hbad
          rw [ih (by omega) (by omega) (h.called hb hp hcuts), hbad, due_of_called h hlt hp,
            cutFrom_succ (c := c) fun p' hp' => by rwa [← hmeets.unique hp']]
          have hnot : Blank text p → ¬ CutFrom enoughMemory text (c + 1) :=
            fun hblank => hblank.not_cutFrom (by omega)
          rw [or_assoc, or_and_right, and_iff_left_of_imp hnot]
    · rw [if_neg hopen]
      have hmeets : ∀ p, Meets text p c → ¬ Cuts enoughMemory text p c := fun p hp => by
        have := hp.at_opening
        rw [hb] at this
        exact absurd (Option.some.inj this) hopen
      rw [cutFrom_succ hmeets]
      refine (ih (by omega) (by omega) (h.pass hb hopen)).trans (or_congr_right (and_congr_left' ?_))
      refine exists_congr fun p => and_congr_left' ?_
      rw [due_of_pass h hlt]
      simp [Due]

end Loop

/-- **Reading within the buffer.** No byte behind the terminating zero is read if and only if no
command of the text consists of blanks up to the end of the text, or `parse` does not come to it, as a
command before it overwrites a byte behind the `<` at which it is called. -/
theorem parse_within_iff (enoughMemory : Bool) (text : List UInt8) (hzero : 0 ∉ text) :
    (∀ call ∈ (parse enoughMemory (text ++ [0])).calls, call.2 ≠ .beyond) ↔
      (∀ p, Start text p → ¬ Blank text p) ∨
      ∃ p c, Meets text p c ∧ Cuts enoughMemory text p c := by
  have hhead : (text ++ [0]).head? = some opening ↔ text[0]? = some opening := by
    cases text with
    | nil => simp; decide
    | cons b text => simp
  have hstart : Start text 0 ↔ 0 < text.length ∧ text[0]? ≠ some opening := by
    simp [Start]
  have hgoing : Going text 0 none (decide ((text ++ [0]).head? ≠ some opening)) ⟨text ++ [0], []⟩ := by
    refine ⟨by simp, by simp, rfl, fun hlt => ?_, by simp, by simp, fun _ p _ => Nat.zero_le p⟩
    rw [hstart, decide_eq_true_eq, ne_eq, hhead]
    simp [hlt]
  have hbad := loop_bad_iff enoughMemory (k := text.length + 1) hzero (by omega) (Nat.zero_le _) hgoing
  have hnone : ¬ Parse.Bad ⟨text ++ [0], []⟩ := by simp [Parse.Bad]
  have hlen : (text ++ [0]).length = text.length + 1 := by simp
  rw [or_iff_right hnone] at hbad
  have hiff : (∀ call ∈ (parse enoughMemory (text ++ [0])).calls, call.2 ≠ .beyond) ↔
      ¬ (parse enoughMemory (text ++ [0])).Bad :=
    ⟨fun h ⟨call, hmem, heq⟩ => h call hmem heq, fun h call hmem heq => h ⟨call, hmem, heq⟩⟩
  rw [hiff, parse, hlen, hbad, not_and_or, not_not]
  refine or_congr ?_ ?_
  · simp [Due]
  · simp [CutFrom]

/-- The text `<1> <2>`. -/
theorem parse_within_iff_two :
    0 ∉ ([60, 49, 62, 32, 60, 50, 62] : List UInt8) ∧
    ∀ call ∈ (parse true ([60, 49, 62, 32, 60, 50, 62] ++ [0])).calls, call.2 ≠ .beyond := by
  refine ⟨by decide, (parse_within_iff true [60, 49, 62, 32, 60, 50, 62] (by decide)).mpr (.inl ?_)⟩
  intro p hp hblank
  have hlast : isLead 62 = true := hblank 62 (by
    have : ∀ p < 7, (62 : UInt8) ∈ [60, 49, 62, 32, 60, 50, 62].drop p := by decide
    exact this p hp.1)
  exact absurd hlast (by decide)

/-- The text `< `: the opcode is the terminating zero. -/
theorem not_parse_within :
    ¬ ∀ call ∈ (parse true ([60, 32] ++ [0])).calls, call.2 ≠ .beyond := by decide

end DCCEXParser

end CommandStation
