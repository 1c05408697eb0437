import CommandStation.Lib.Local
import CommandStation.WiThrottle.Speeds

/-!
# Lines of a WiThrottle client

`parse` is given what has been received, up to its NUL, and takes it line by line. What a line asks for
is read by offsets and scans in the whole buffer, that do not stop at the end of the line. A reader here
has no result where the code would read beyond the characters it is given. What is asked for then
depends on nothing but the state: it is a value of `Action`.
-/

namespace CommandStation.WiThrottle

open CommandStation.Lib

/-! ## What a line asks for -/

/-- `locoAction` -/
inductive LocoAction where
  | speed (v : Int)
  | functionKey (pressed : Bool) (fKey : Int)
  | forceFunction (pressed : Bool) (fKey : Int)
  | query
  | direction (forward : Bool)
  | emergencyStop
  | idle
  deriving DecidableEq, Repr

/-- `PTA`, by its fourth character. -/
inductive AccessoryAction where
  | throw | close | toggle
  deriving DecidableEq, Repr

inductive Action where
  | nothing
  | heartBeatEnable (on : Bool)
  | setMainPower (on : Bool)
  | createNewTask (route : Int) (animation : Bool)
  | accessory (action : AccessoryAction) (id : Int)
  | heartbeat
  | sendIntro
  | noValidLoco (locoid : Int)
  | driveAway (throttleChar : UInt8)
  | zeroAddress
  | addLoco (throttleChar lengthChar : UInt8) (locoid : Int)
  | removeLocos (throttleChar : UInt8) (locoid : Int)
  | locos (throttleChar : UInt8) (locoid : Int) (action : LocoAction)
  | quit
  deriving DecidableEq, Repr

/-! ## Reading -/

section Reading

variable (platform : Platform)

/-- The loop of `getInt`, with what has been read so far. -/
def readDigits : Int → List UInt8 → Option Int
  | _, [] => none
  | i, b :: rest =>
    if DCCEXParser.isDigit b then readDigits (platform.wrap (i * 10 + (b - 48).toNat)) rest else some i

/-- `getInt` -/
def readInt (cmd : List UInt8) : Option Int :=
  cmd[0]?.bind fun b =>
    if b = 45 then (readDigits platform 0 (cmd.drop 1)).map fun i => platform.wrap (0 - i)
    else readDigits platform 0 cmd

/-- `getLocoId` -/
def readLocoId (cmd : List UInt8) : Option Int :=
  cmd[0]?.bind fun b =>
    if b = 42 then some (-1)                    -- match all locos
    else if b ≠ 76 ∧ b ≠ 83 then some 0         -- should not match any locos
    else readInt platform (cmd.drop 1)

/-- From the first `;` on, or the NUL: `aval` before it skips `;>`. -/
def scanAval : List UInt8 → Option (List UInt8)
  | [] => none
  | b :: rest => if b = 59 ∨ b = 0 then some (b :: rest) else scanAval rest

/-- `aval`, if it is read. -/
def readAval (cmd : List UInt8) : Option (List UInt8) :=
  (scanAval cmd).bind fun aval => aval[0]?.map fun b => if b = 59 then aval.drop 2 else aval

/-- `locoAction`, as far as `aval` is read. -/
def readLocoAction (aval : List UInt8) : Option (Option LocoAction) :=
  aval[0]?.bind fun b =>
    if b = 86 then (readInt platform (aval.drop 1)).map fun v => some (.speed v)          -- V
    else if b = 70 then aval[1]?.bind fun pressed =>                                        -- F
      (readInt platform (aval.drop 2)).map fun fKey => some (.functionKey (pressed == 49) fKey)
    else if b = 102 then aval[1]?.bind fun pressed =>                                       -- f
      (readInt platform (aval.drop 2)).map fun fKey => some (.forceFunction (pressed == 49) fKey)
    else if b = 113 then aval[1]?.map fun what =>                                           -- q
      if what = 86 ∨ what = 82 then some .query else none
    else if b = 82 then aval[1]?.map fun forward => some (.direction (forward != 48))       -- R
    else if b = 88 then some (some .emergencyStop)                                          -- X
    else if b = 73 ∨ b = 81 then some (some .idle)                                          -- I, Q
    else some none

/-- The case `'P'`. Routes are there if EXRAIL is. -/
def readPower (exrail : Bool) (cmd : List UInt8) : Option Action :=
  cmd[1]?.bind fun c1 =>
    if c1 = 80 then cmd[2]?.bind fun c2 =>                                                  -- PPA
      if c2 = 65 then cmd[3]?.map fun c3 => .setMainPower (c3 == 49) else some .nothing
    else if exrail = true ∧ c1 = 82 then cmd[2]?.bind fun c2 =>                             -- PRA2
      if c2 = 65 then cmd[3]?.bind fun c3 =>
        if c3 = 50 then (readInt platform (cmd.drop 5)).bind fun route =>
          cmd[4]?.map fun c4 => .createNewTask route (c4 == 65)
        else some .nothing
      else some .nothing
    else if c1 = 84 then cmd[2]?.bind fun c2 =>                                             -- PTA
      if c2 = 65 then (readInt platform (cmd.drop 4)).bind fun id =>
        cmd[3]?.map fun c3 =>
          .accessory (if c3 = 84 then .throw else if c3 = 50 then .toggle else .close) id
      else some .nothing
    else some .nothing

/-- What `locoAction` does for the locos, if anything. -/
def Action.ofLocos (throttleChar : UInt8) (locoid : Int) : Option LocoAction → Action
  | some action => .locos throttleChar locoid action
  | none => .nothing

/-- The `switch` of `multithrottle`. -/
def readRequest (throttleChar : UInt8) (locoid : Int) (cmd : List UInt8) : Option Action :=
  cmd[2]?.bind fun c2 =>
    if c2 = 43 then cmd[3]?.map fun c3 =>                                                   -- add
      if c3 = 42 then .driveAway throttleChar
      else if locoid = 0 then .zeroAddress
      else .addLoco throttleChar c3 locoid
    else if c2 = 45 then some (.removeLocos throttleChar locoid)                            -- remove
    else if c2 = 65 then
      ((readAval cmd).bind (readLocoAction platform)).map (Action.ofLocos throttleChar locoid)
    else some .nothing

/-- `multithrottle` -/
def readMultithrottle (cmd : List UInt8) : Option Action :=
  cmd[1]?.bind fun throttleChar => (readLocoId platform (cmd.drop 3)).bind fun locoid =>
    if 10239 < locoid ∨ locoid < -1 then some (.noValidLoco locoid)
    else (scanAval cmd).bind fun _ => readRequest platform throttleChar locoid cmd

/-- The `switch` of `parse`. -/
def readLine (exrail : Bool) (cmd : List UInt8) : Option Action :=
  cmd[0]?.bind fun c0 =>
    if c0 = 42 then cmd[1]?.map fun c1 =>                                                   -- *
      if c1 = 43 then .heartBeatEnable true
      else if c1 = 45 then .heartBeatEnable false
      else .nothing
    else if c0 = 80 then readPower platform exrail cmd
    else if c0 = 78 then some .heartbeat                                                    -- N
    else if c0 = 77 then readMultithrottle platform cmd
    else if c0 = 72 then cmd[1]?.map fun c1 => if c1 = 85 then .sendIntro else .nothing     -- HU
    else if c0 = 81 then some .quit                                                         -- Q
    else some .nothing

end Reading

/-! ## Nothing behind what is looked at matters -/

section Locality

variable {platform : Platform}

theorem local_readDigits (i : Int) : Local (readDigits platform i) := by
  intro xs ys
  induction xs generalizing i with
  | nil => exact fun b h => by cases h
  | cons x xs ih =>
    intro b h
    rw [List.cons_append, readDigits] at *
    split
    · next hdigit =>
      rw [if_pos hdigit] at h
      exact ih _ b h
    · next hdigit => rwa [if_neg hdigit] at h

theorem local_readInt : Local (readInt platform) :=
  (local_getElem 0).bind fun _ =>
    local_ite (((local_readDigits 0).drop 1).map _) (local_readDigits 0)

theorem local_readLocoId : Local (readLocoId platform) :=
  (local_getElem 0).bind fun _ =>
    local_ite (local_const _) (local_ite (local_const _) (local_readInt.drop 1))

theorem local_readLocoAction : Local (readLocoAction platform) := by
  have hkey : ∀ make : Bool → Int → LocoAction, Local fun aval : List UInt8 =>
      aval[1]?.bind fun pressed =>
        (readInt platform (aval.drop 2)).map fun fKey => some (make (pressed == 49) fKey) := by
    intro make
    exact (local_getElem 1).bind fun _ => (local_readInt.drop 2).map _
  refine (local_getElem 0).bind fun _ => ?_
  apply local_ite ((local_readInt.drop 1).map _)
  apply local_ite (hkey .functionKey)
  apply local_ite (hkey .forceFunction)
  apply local_ite ((local_getElem 1).map _)
  apply local_ite ((local_getElem 1).map _)
  apply local_ite (local_const _)
  exact local_ite (local_const _) (local_const _)

/-- The scan finds the same place. -/
theorem scanAval_append {xs aval : List UInt8} (h : scanAval xs = some aval) (ys : List UInt8) :
    aval ≠ [] ∧ scanAval (xs ++ ys) = some (aval ++ ys) := by
  induction xs with
  | nil => cases h
  | cons x xs ih =>
    rw [scanAval] at h
    rw [List.cons_append, scanAval]
    split
    · next hstop =>
      rw [if_pos hstop] at h
      cases h
      exact ⟨List.cons_ne_nil _ _, rfl⟩
    · next hstop =>
      rw [if_neg hstop] at h
      exact ih h

/-- What is read behind the `A` of a multithrottle line looks at no more than the line. -/
theorem local_readAval : Local fun cmd => (readAval cmd).bind (readLocoAction platform) := by
  intro xs ys b h
  obtain ⟨aval, haval, hb⟩ := Option.bind_eq_some_iff.mp h
  obtain ⟨found, hfound, hskip⟩ := Option.bind_eq_some_iff.mp haval
  obtain ⟨hne, happend⟩ := scanAval_append hfound ys
  obtain ⟨c, rest, rfl⟩ := List.exists_cons_of_ne_nil hne
  simp only [readAval, happend, Option.bind_some, List.cons_append, List.getElem?_cons_zero,
    Option.map_some] at hskip ⊢
  cases hskip
  split at hb
  · next hsemicolon =>
    rw [if_pos hsemicolon]
    cases rest with
    | nil => cases hb
    | cons c' rest => exact local_readLocoAction _ ys b hb
  · next hsemicolon =>
    rw [if_neg hsemicolon]
    exact local_readLocoAction _ ys b hb

theorem local_readPower (exrail : Bool) : Local (readPower platform exrail) := by
  refine (local_getElem 1).bind fun c1 => ?_
  apply local_ite
  · refine (local_getElem 2).bind fun c2 => ?_
    exact local_ite ((local_getElem 3).map _) (local_const _)
  apply local_ite
  · refine (local_getElem 2).bind fun c2 => local_ite ?_ (local_const _)
    refine (local_getElem 3).bind fun c3 => local_ite ?_ (local_const _)
    exact (local_readInt.drop 5).bind fun _ => (local_getElem 4).map _
  apply local_ite
  · refine (local_getElem 2).bind fun c2 => local_ite ?_ (local_const _)
    exact (local_readInt.drop 4).bind fun _ => (local_getElem 3).map _
  · exact local_const _

theorem local_readRequest (throttleChar : UInt8) (locoid : Int) :
    Local (readRequest platform throttleChar locoid) := by
  refine (local_getElem 2).bind fun c2 => ?_
  apply local_ite ((local_getElem 3).map _)
  apply local_ite (local_const _)
  exact local_ite (local_readAval.map _) (local_const _)

theorem local_readMultithrottle : Local (readMultithrottle platform) := by
  refine (local_getElem 1).bind fun throttleChar => (local_readLocoId.drop 3).bind fun locoid => ?_
  apply local_ite (local_const _)
  intro xs ys b h
  obtain ⟨aval, haval, hb⟩ := Option.bind_eq_some_iff.mp h
  simp only [(scanAval_append haval ys).2, Option.bind_some]
  exact local_readRequest throttleChar locoid xs ys b hb

theorem local_readLine (exrail : Bool) : Local (readLine platform exrail) := by
  refine (local_getElem 0).bind fun c0 => ?_
  apply local_ite ((local_getElem 1).map _)
  apply local_ite (local_readPower exrail)
  apply local_ite (local_const _)
  apply local_ite local_readMultithrottle
  apply local_ite ((local_getElem 1).map _)
  exact local_ite (local_const _) (local_const _)

end Locality

/-! ## Lines that say all -/

section Complete

variable {platform : Platform} {exrail : Bool} {line xs : List UInt8} {t : UInt8}

/-- The end of a line, or of the buffer. -/
def End (t : UInt8) : Prop := t = 0 ∨ t = 10 ∨ t = 13

instance (t : UInt8) : Decidable (End t) := inferInstanceAs (Decidable (_ ∨ _))

/-- `getLocoId`, of the characters of a line. -/
def getLocoId (platform : Platform) (cmd : List UInt8) : Int :=
  if cmd.head? = some 42 then -1
  else if cmd.head? = some 76 ∨ cmd.head? = some 83 then getInt platform cmd.tail
  else 0

/-- Behind the first `;`. -/
def behindSemicolon (line : List UInt8) : List UInt8 := (line.dropWhile (· ≠ 59)).tail

/-- A function key comes with its state and its number. -/
def ActionComplete (aval : List UInt8) : Prop :=
  aval.head? = some 70 ∨ aval.head? = some 102 → 2 ≤ aval.length

instance (aval : List UInt8) : Decidable (ActionComplete aval) := inferInstanceAs (Decidable (_ → _))

/-- `M` comes with a throttle, an action and a loco; where this is valid there is a `;`, or the line is
the last one; and the action on a loco that is announced by a `;` is there, behind `;>`. -/
def MultiComplete (platform : Platform) (final : Bool) (chars : List UInt8) : Prop :=
  3 ≤ chars.length ∧
    (¬ (10239 < getLocoId platform (chars.drop 3) ∨ getLocoId platform (chars.drop 3) < -1) →
      (59 ∈ chars ∨ final = true) ∧
      (chars[2]? = some 65 → 59 ∈ chars →
        behindSemicolon chars ≠ [] ∧ ActionComplete (behindSemicolon chars).tail))

instance (final : Bool) : Decidable (MultiComplete platform final line) :=
  inferInstanceAs (Decidable (_ ∧ (_ → _)))

/-- The line holds all that the code looks at for it, up to its end. -/
structure Complete (platform : Platform) (exrail final : Bool) (line : List UInt8) : Prop where
  turnout : line.take 3 = [80, 84, 65] → 4 ≤ line.length
  route : exrail = true → line.take 4 = [80, 82, 65, 50] → 5 ≤ line.length
  multi : line.head? = some 77 → MultiComplete platform final line

instance (final : Bool) : Decidable (Complete platform exrail final line) :=
  decidable_of_iff ((line.take 3 = [80, 84, 65] → 4 ≤ line.length) ∧
      (exrail = true → line.take 4 = [80, 82, 65, 50] → 5 ≤ line.length) ∧
      (line.head? = some 77 → MultiComplete platform final line))
    ⟨fun h => ⟨h.1, h.2.1, h.2.2⟩, fun h => ⟨h.turnout, h.route, h.multi⟩⟩

/-- The reader looks at the line and its end only, if the condition holds, and takes all ends for
the same. -/
def Reads {β : Type} (f : List UInt8 → Option β) (line : List UInt8) (t : UInt8) (c : Prop) : Prop :=
  ((f (line ++ [t])).isSome = true ↔ c) ∧ (c → f (line ++ [t]) = f (line ++ [0]))

theorem readDigits_line (ht : DCCEXParser.isDigit t = false) (i : Int) :
    readDigits platform i (xs ++ [t]) = some ((xs.takeWhile DCCEXParser.isDigit).foldl
      (fun i b => platform.wrap (i * 10 + (b - 48).toNat)) i) := by
  induction xs generalizing i with
  | nil => simp [readDigits, ht]
  | cons x xs ih =>
    rw [List.cons_append, readDigits, List.takeWhile_cons]
    cases hx : DCCEXParser.isDigit x with
    | true => simpa using ih _
    | false => simp

theorem End.not_digit (ht : End t) : DCCEXParser.isDigit t = false := by
  rcases ht with rfl | rfl | rfl <;> decide

/-- The number at the begin of a line is read within the line. -/
theorem readInt_line (ht : End t) : readInt platform (xs ++ [t]) = some (getInt platform xs) := by
  have hdigits : ∀ xs, readDigits platform 0 (xs ++ [t]) = some (getDigits platform xs) :=
    fun xs => readDigits_line ht.not_digit 0
  have hminus : t ≠ 45 := by rcases ht with rfl | rfl | rfl <;> decide
  unfold readInt getInt
  cases xs with
  | nil =>
    have hnil := hdigits []
    rw [List.nil_append] at hnil
    simp [hminus, hnil]
  | cons x xs =>
    have hcons := hdigits (x :: xs)
    rw [List.cons_append] at hcons
    by_cases hx : x = 45
    · simp [hx, hdigits]
    · simp [hx, hcons]

/-- Nothing is left of the line. -/
theorem readInt_end (ht : End t) : readInt platform [t] = some (getInt platform []) :=
  @readInt_line platform [] t ht

theorem readInt_cons {x : UInt8} (ht : End t) :
    readInt platform (x :: (xs ++ [t])) = some (getInt platform (x :: xs)) :=
  @readInt_line platform (x :: xs) t ht

theorem readInt_nil : readInt platform [] = none := rfl

theorem readLocoId_line (ht : End t) :
    readLocoId platform (xs ++ [t]) = some (getLocoId platform xs) := by
  unfold readLocoId getLocoId
  cases xs with
  | nil => rcases ht with rfl | rfl | rfl <;> simp
  | cons x xs =>
    by_cases hall : x = 42
    · simp [hall]
    by_cases hlong : x = 76
    · simp [hlong, readInt_line ht]
    by_cases hshort : x = 83
    · simp [hshort, readInt_line ht]
    · simp [hall, hlong, hshort]

/-- The action behind `<;>` is read to the end of the line if and only if it is complete. -/
theorem reads_locoAction (ht : End t) : Reads (readLocoAction platform) xs t (ActionComplete xs) := by
  have hend : ∀ {t : UInt8}, End t → t ≠ 86 ∧ t ≠ 70 ∧ t ≠ 102 ∧ t ≠ 113 ∧ t ≠ 82 ∧ t ≠ 88 ∧ t ≠ 73 ∧
      t ≠ 81 ∧ t ≠ 48 := by
    rintro t (rfl | rfl | rfl) <;> decide
  have h0 : End 0 := .inl rfl
  unfold Reads ActionComplete
  -- nothing behind the `<;>`, the action alone, or more
  rcases xs with _ | ⟨b, _ | ⟨b', rest⟩⟩
  · simp [readLocoAction, hend ht, hend h0]
  · simp only [readLocoAction, List.cons_append, List.nil_append, List.getElem?_cons_zero,
      List.getElem?_cons_succ, Option.bind_some, List.drop_succ_cons, List.drop_zero, readInt_end ht,
      readInt_end h0, readInt_nil, Option.map_some, Option.map_none, List.head?_cons, Option.some.injEq, List.length_singleton]
    by_cases hF : b = 70
    · simp [hF]
    by_cases hf : b = 102
    · simp [hf]
    simp only [hF, hf, if_false, hend ht, hend h0]
    split
    · simp
    split
    · simp
    split
    · simp [hend ht]
    split
    · simp
    split <;> simp
  · simp only [readLocoAction, List.cons_append, List.getElem?_cons_zero, List.getElem?_cons_succ,
      Option.bind_some, List.drop_succ_cons, List.drop_zero, readInt_cons ht, readInt_cons h0,
      readInt_line ht, readInt_line h0, Option.map_some]
    have hlength : 2 ≤ (b :: b' :: rest).length := by simp
    refine ⟨iff_of_true ?_ fun _ => hlength, fun _ => trivial⟩
    split
    · rfl
    split
    · rfl
    split
    · rfl
    split
    · rfl
    split
    · rfl
    split
    · rfl
    split <;> rfl

/-- `PTA` comes with what to do, `PRA2` with the kind of the route. -/
def PowerComplete (exrail : Bool) (line : List UInt8) : Prop :=
  (line.take 3 = [80, 84, 65] → 4 ≤ line.length) ∧
    (exrail = true → line.take 4 = [80, 82, 65, 50] → 5 ≤ line.length)

/-- A line that starts with `P` is read to its end if and only if it is complete. -/
theorem reads_power (ht : End t) :
    Reads (readPower platform exrail) (80 :: xs) t (PowerComplete exrail (80 :: xs)) := by
  have hend : ∀ {t : UInt8}, End t → t ≠ 80 ∧ t ≠ 82 ∧ t ≠ 84 ∧ t ≠ 65 ∧ t ≠ 49 ∧ t ≠ 50 := by
    rintro t (rfl | rfl | rfl) <;> decide
  have h0 : End 0 := .inl rfl
  unfold Reads PowerComplete
  rcases xs with _ | ⟨c1, _ | ⟨c2, _ | ⟨c3, _ | ⟨c4, rest⟩⟩⟩⟩
  · simp [readPower, hend ht, hend h0]
  · simp [readPower, hend ht, hend h0]
  · have hoff : (t == 49) = false := beq_false_of_ne (hend ht).2.2.2.2.1
    have hoff0 : ((0 : UInt8) == 49) = false := rfl
    simp only [readPower, List.cons_append, List.nil_append, List.getElem?_cons_zero,
      List.getElem?_cons_succ, List.getElem?_nil, Option.bind_some, Option.map_some, Option.map_none,
      List.drop_succ_cons, List.drop_nil, readInt_nil, hend ht, hend h0, hoff, hoff0, if_false,
      Option.bind_none, List.take_succ_cons, List.take_nil, List.cons.injEq,
      List.length_cons, List.length_nil]
    grind
  · simp only [readPower, List.cons_append, List.nil_append, List.getElem?_cons_zero,
      List.getElem?_cons_succ, Option.bind_some, Option.map_some, List.drop_succ_cons, List.drop_nil,
      List.drop_zero, readInt_nil, readInt_end ht, readInt_end h0, Option.bind_none,
      List.take_succ_cons, List.take_zero, List.take_nil, List.cons.injEq, List.length_cons,
      List.length_nil]
    grind
  · simp only [readPower, List.cons_append, List.getElem?_cons_zero, List.getElem?_cons_succ,
      Option.bind_some, Option.map_some, List.drop_succ_cons, List.drop_zero, readInt_cons ht,
      readInt_cons h0, readInt_line ht, readInt_line h0, List.take_succ_cons, List.take_zero,
      List.cons.injEq, List.length_cons]
    grind

/-! ### Multithrottle -/

/-- The scan ends at the first `;`. -/
theorem scanAval_of_mem (hline : 0 ∉ xs) (h : 59 ∈ xs) (ys : List UInt8) :
    scanAval (xs ++ ys) = some (59 :: (behindSemicolon xs ++ ys)) := by
  induction xs with
  | nil => cases h
  | cons x xs ih =>
    rw [List.cons_append, scanAval]
    by_cases hx : x = 59
    · subst hx
      simp [behindSemicolon]
    · have hx0 : x ≠ 0 := fun h0 => hline (h0 ▸ List.mem_cons_self)
      rw [if_neg (by simp [hx, hx0]), ih (fun h0 => hline (List.mem_cons_of_mem _ h0))
        ((List.mem_cons.mp h).resolve_left fun heq => hx heq.symm)]
      simp [behindSemicolon, hx]

/-- Without one it goes on to the NUL. -/
theorem scanAval_of_not_mem (hline : 0 ∉ xs) (h : 59 ∉ xs) (ys : List UInt8) :
    scanAval (xs ++ ys) = scanAval ys := by
  induction xs with
  | nil => rfl
  | cons x xs ih =>
    simp only [List.mem_cons, not_or] at hline h
    rw [List.cons_append, scanAval, if_neg (by rintro (rfl | rfl) <;> simp_all), ih hline.2 h.2]

/-- An action behind `<;>` is read to the end of the line if and only if it is complete. -/
theorem reads_aval (ht : End t) (hline : 0 ∉ xs) (h : 59 ∈ xs) :
    Reads (fun cmd => (readAval cmd).bind (readLocoAction platform)) xs t
      (behindSemicolon xs ≠ [] ∧ ActionComplete (behindSemicolon xs).tail) := by
  unfold Reads readAval
  simp only [scanAval_of_mem hline h, Option.bind_some, List.getElem?_cons_zero, Option.map_some,
    if_true, List.drop_succ_cons]
  cases behindSemicolon xs with
  | nil =>
    have hnone : readLocoAction platform [] = none := rfl
    simp [hnone]
  | cons x rest =>
    have hreads := @reads_locoAction platform rest t ht
    rw [List.tail_cons]
    refine ⟨?_, fun hcomplete => hreads.2 hcomplete.2⟩
    rw [and_iff_right (List.cons_ne_nil x rest)]
    exact hreads.1

theorem aval_of_not_mem (hline : 0 ∉ xs) (h : 59 ∉ xs) :
    (readAval (xs ++ [0])).bind (readLocoAction platform) = some none := by
  unfold readAval
  rw [scanAval_of_not_mem hline h]
  rfl

/-- The request of a line that has a `;`, or is the last one. -/
theorem reads_request (ht : End t) {c1 c2 : UInt8} {rest : List UInt8} {throttleChar : UInt8}
    {locoid : Int} (hline : 0 ∉ 77 :: c1 :: c2 :: rest) (hlocoid : rest = [] → locoid = 0)
    (hscan : 59 ∈ 77 :: c1 :: c2 :: rest ∨ t = 0) :
    Reads (readRequest platform throttleChar locoid) (77 :: c1 :: c2 :: rest) t
      (c2 = 65 → 59 ∈ 77 :: c1 :: c2 :: rest → behindSemicolon (77 :: c1 :: c2 :: rest) ≠ [] ∧
        ActionComplete (behindSemicolon (77 :: c1 :: c2 :: rest)).tail) := by
  generalize hxs : 77 :: c1 :: c2 :: rest = xs at hline hscan ⊢
  have hget2 : ∀ t : UInt8, (xs ++ [t])[2]? = some c2 := by
    intro t
    rw [← hxs]
    rfl
  have hget3 : ∀ t : UInt8, (xs ++ [t])[3]? = (rest ++ [t])[0]? := by
    intro t
    rw [← hxs]
    rfl
  unfold Reads readRequest
  simp only [hget2, hget3, Option.bind_some]
  by_cases hadd : c2 = 43
  · have hend : t ≠ 42 := by rcases ht with rfl | rfl | rfl <;> decide
    subst hadd
    cases rest with
    | nil => simp [hlocoid rfl, hend]
    | cons c3 rest => simp
  by_cases hremove : c2 = 45
  · subst hremove
    simp
  by_cases haction : c2 = 65
  · simp only [hadd, hremove, if_false]
    simp only [haction, if_true, true_implies, Option.isSome_map]
    by_cases hmem : 59 ∈ xs
    · have hreads := @reads_aval platform xs t ht hline hmem
      unfold Reads at hreads
      simp only [hmem, true_implies]
      exact ⟨hreads.1, fun hcomplete => congrArg _ (hreads.2 hcomplete)⟩
    · obtain rfl : t = 0 := hscan.resolve_left hmem
      have hnone := @aval_of_not_mem platform xs hline hmem
      simp [hnone, hmem]
  · simp [hadd, hremove, haction]

/-- A multithrottle line is read to its end if and only if it is complete. -/
theorem reads_multithrottle (ht : End t) (hline : 0 ∉ 77 :: xs) :
    Reads (readMultithrottle platform) (77 :: xs) t (MultiComplete platform (t == 0) (77 :: xs)) := by
  have h0 : End 0 := .inl rfl
  have hnone : readLocoId platform [] = none := rfl
  -- the line may end before the throttle or the action is named
  rcases xs with _ | ⟨c1, _ | ⟨c2, rest⟩⟩
  · simp [Reads, MultiComplete, readMultithrottle, hnone]
  · simp [Reads, MultiComplete, readMultithrottle, hnone]
  have hlocoid : rest = [] → getLocoId platform rest = 0 := by
    rintro rfl
    rfl
  have hrequest := fun hscan => @reads_request platform t ht c1 c2 rest c1 (getLocoId platform rest) hline
    hlocoid hscan
  generalize hxs : 77 :: c1 :: c2 :: rest = xs at hline hrequest ⊢
  have hget1 : ∀ t : UInt8, (xs ++ [t])[1]? = some c1 := by
    intro t
    rw [← hxs]
    rfl
  have hdrop : ∀ t : UInt8, (xs ++ [t]).drop 3 = rest ++ [t] := by
    intro t
    rw [← hxs]
    rfl
  have hlength : 3 ≤ xs.length := by
    rw [← hxs]
    exact Nat.le_add_left _ _
  have hget2 : xs[2]? = some c2 := by
    rw [← hxs]
    rfl
  have hrest : xs.drop 3 = rest := by
    rw [← hxs]
    rfl
  unfold Reads MultiComplete readMultithrottle
  simp only [hget1, hdrop, readLocoId_line ht, readLocoId_line h0, Option.bind_some, hlength, hget2,
    hrest, true_and, Option.some.injEq]
  by_cases hvalid : 10239 < getLocoId platform rest ∨ getLocoId platform rest < -1
  · simp [hvalid]
  simp only [hvalid, if_false, not_false_eq_true, true_implies]
  -- the scan for a `;` stays in the line if there is one, or if the line ends the text
  by_cases hscan : 59 ∈ xs ∨ t = 0
  · obtain ⟨hreads, hsame⟩ := hrequest hscan
    have hscans : ∀ t' : UInt8, (59 ∈ xs ∨ t' = 0) →
        (scanAval (xs ++ [t'])).bind (fun _ => readRequest platform c1 (getLocoId platform rest) (xs ++ [t']))
          = readRequest platform c1 (getLocoId platform rest) (xs ++ [t']) := by
      intro t' hscan'
      by_cases hmem : 59 ∈ xs
      · rw [scanAval_of_mem hline hmem, Option.bind_some]
      · obtain rfl := hscan'.resolve_left hmem
        rw [scanAval_of_not_mem hline hmem]
        rfl
    rw [hscans t hscan, hscans 0 (.inr rfl)]
    have hfinal : 59 ∈ xs ∨ (t == 0) = true := hscan.imp_right beq_iff_eq.mpr
    rw [and_iff_right hfinal]
    exact ⟨hreads, hsame⟩
  · obtain ⟨hmem, hne⟩ := not_or.mp hscan
    have hscans : scanAval (xs ++ [t]) = none := by
      rw [scanAval_of_not_mem hline hmem, scanAval, if_neg]
      · rfl
      · rcases ht with rfl | rfl | rfl
        · exact absurd rfl hne
        · decide
        · decide
    simp [hscans, hmem, hne]

-- `MTAL3` without `;`, and `MTAL4<;>V50` behind it: loco 3 has the speed of loco 4
example : readLine .avr true
    [77, 84, 65, 76, 51, 10, 77, 84, 65, 76, 52, 60, 59, 62, 86, 53, 48, 10, 0] =
      some (.locos 84 3 (.speed 50)) := by decide

theorem complete_power {final : Bool} :
    Complete platform exrail final (80 :: xs) ↔ PowerComplete exrail (80 :: xs) := by
  constructor
  · intro h
    exact ⟨h.turnout, h.route⟩
  · intro h
    exact ⟨h.1, h.2, fun hmulti => by simp at hmulti⟩

theorem complete_multi {final : Bool} :
    Complete platform exrail final (77 :: xs) ↔ MultiComplete platform final (77 :: xs) := by
  constructor
  · intro h
    exact h.multi rfl
  · intro h
    exact ⟨fun hturnout => by simp at hturnout, fun _ hroute => by simp at hroute, fun _ => h⟩

theorem complete_other {final : Bool} (hpower : line.head? ≠ some 80) (hmulti : line.head? ≠ some 77) :
    Complete platform exrail final line := by
  refine ⟨fun hturnout => ?_, fun _ hroute => ?_, fun h => absurd h hmulti⟩
  · cases line with
    | nil => cases hturnout
    | cons c0 xs =>
      rw [List.take_succ_cons, List.cons.injEq] at hturnout
      exact absurd (congrArg some hturnout.1) hpower
  · cases line with
    | nil => cases hroute
    | cons c0 xs =>
      rw [List.take_succ_cons, List.cons.injEq] at hroute
      exact absurd (congrArg some hroute.1) hpower

/-- **A line is read within its own characters** and its end exactly if it is complete, and then every
end is taken for the same. -/
theorem reads_line (ht : End t) (hline : 0 ∉ line) :
    Reads (readLine platform exrail) line t (Complete platform exrail (t == 0) line) := by
  have hend : ∀ {t : UInt8}, End t → t ≠ 42 ∧ t ≠ 80 ∧ t ≠ 78 ∧ t ≠ 77 ∧ t ≠ 72 ∧ t ≠ 81 ∧ t ≠ 43 ∧
      t ≠ 45 ∧ t ≠ 85 := by
    rintro t (rfl | rfl | rfl) <;> decide
  have h0 : End 0 := .inl rfl
  cases line with
  | nil =>
    have hcomplete : Complete platform exrail (t == 0) [] := complete_other nofun nofun
    simp [Reads, readLine, hend ht, hend h0, hcomplete]
  | cons c0 xs =>
    by_cases hpower : c0 = 80
    · subst hpower
      rw [complete_power]
      exact reads_power ht
    by_cases hmulti : c0 = 77
    · subst hmulti
      rw [complete_multi]
      exact reads_multithrottle ht hline
    have hcomplete : Complete platform exrail (t == 0) (c0 :: xs) :=
      complete_other (fun h => hpower (Option.some.inj h)) fun h => hmulti (Option.some.inj h)
    have hnext : ∀ f : UInt8 → Action, f t = f 0 →
        (((c0 :: xs) ++ [t])[1]?.map f).isSome = true ∧
          ((c0 :: xs) ++ [t])[1]?.map f = ((c0 :: xs) ++ [0])[1]?.map f := by
      intro f hf
      cases xs with
      | nil => simp [hf]
      | cons c1 xs => simp
    unfold Reads readLine
    simp only [List.cons_append, List.getElem?_cons_zero, Option.bind_some, hpower, hmulti, if_false,
      hcomplete, iff_true, true_implies]
    split
    · exact hnext _ (by simp [hend ht])
    split
    · exact ⟨rfl, rfl⟩
    split
    · exact hnext _ (by simp [hend ht])
    split <;> exact ⟨rfl, rfl⟩

end Complete

end CommandStation.WiThrottle
