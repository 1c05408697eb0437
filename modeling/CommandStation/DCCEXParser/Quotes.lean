import CommandStation.DCCEXParser.Bounds

/-!
# Text in quotes

The commands of a text, read with quotes respected: a command goes from a `<` to the next `>` that is
not in quotes, and a `<` that is not in quotes begins a new one.

`parse` looks for each `<` without regard to quotes, and calls `parseOne` for what stands before it.
What is executed are the commands of the text as long as no `<` stands in quotes, where it is taken
for the begin of a command, and an opcode stands before each `<`: otherwise `parseOne` goes on behind
it in search of one, and what it has read there is called again or lost.
-/

namespace CommandStation

namespace DCCEXParser

variable {enoughMemory : Bool} {b : UInt8} {bs cs t : List UInt8}

/-! ## Commands with quotes respected -/

/-- Where a reader of a text is, with the text of the command so far. -/
inductive Where where
  | outside
  | inside (t : List UInt8)
  | quoted (t : List UInt8)
  deriving DecidableEq, Repr

namespace Where

/-- The next byte of the text, and the command that it closes. -/
def next : Where → UInt8 → Where × Option (List UInt8)
  | outside, b => (if b = opening then inside [] else outside, none)
  | inside t, b =>
    if b = opening then (inside [], none)
    else if b = closing then (outside, some t)
    else if b = quote then (quoted (t ++ [b]), none)
    else (inside (t ++ [b]), none)
  | quoted t, b => (if b = quote then inside (t ++ [b]) else quoted (t ++ [b]), none)

/-- The commands of a text. -/
def scan (w : Where) : List UInt8 → Where × List (List UInt8)
  | [] => (w, [])
  | b :: bs =>
    (((w.next b).1.scan bs).1, (w.next b).2.toList ++ ((w.next b).1.scan bs).2)

/-- A string is open. -/
def isQuoted : Where → Bool
  | quoted _ => true
  | _ => false

end Where

/-- The command that is executed. -/
def Outcome.command : Outcome → Option (UInt8 × List Int16)
  | .executed opcode params => some (opcode, params)
  | _ => none

variable (enoughMemory) in
/-- What the text of a command means when it stands alone. -/
def meaning (t : List UInt8) : Option (UInt8 × List Int16) :=
  (parseOne enoughMemory (t ++ [closing, 0])).1.command

variable (enoughMemory) in
/-- The commands that a text asks for. -/
def topLevel (w : Where) (text : List UInt8) : List (UInt8 × List Int16) :=
  (w.scan text).2.filterMap (meaning enoughMemory)

/-! ## What can be read where it stands -/

/-- The text from one `<` to the next. Its opcode, if it has one, is not a quote. Where a command is
closed without one, so that its `>` is taken for the opcode, no other `>` and no quote follow. -/
def Readable (piece : List UInt8) : Prop :=
  let cmd := piece.dropWhile (· = space)
  cmd.head? ≠ some quote ∧ (cmd.head? = some closing → closing ∉ cmd.tail ∧ quote ∉ cmd.tail)

instance (piece : List UInt8) : Decidable (Readable piece) := inferInstanceAs (Decidable (_ ∧ _))

/-- Another `<` can follow: the opcode has come, and no string is open. -/
def Complete (piece : List UInt8) : Prop :=
  (∃ x ∈ piece, x ≠ space) ∧ ((Where.inside []).scan piece).1.isQuoted = false

instance (piece : List UInt8) : Decidable (Complete piece) := inferInstanceAs (Decidable (_ ∧ _))

/-- A text as `parse` gets it, cut at each `<`. The first one may be there or not. -/
def PlainText (text : List UInt8) : Prop :=
  let pieces := (if text.head? = some opening then text.tail else text).splitOn opening
  (∀ piece ∈ pieces, Readable piece) ∧ ∀ piece ∈ pieces.dropLast, Complete piece

instance (text : List UInt8) : Decidable (PlainText text) := inferInstanceAs (Decidable (_ ∧ _))

/-! ## Parts of a text -/

theorem scan_append (w : Where) :
    w.scan (bs ++ cs) = (((w.scan bs).1.scan cs).1, (w.scan bs).2 ++ ((w.scan bs).1.scan cs).2) := by
  induction bs generalizing w with
  | nil => rfl
  | cons b bs ih => rw [List.cons_append, Where.scan, ih, Where.scan, List.append_assoc]

theorem topLevel_append (w : Where) :
    topLevel enoughMemory w (bs ++ cs)
      = topLevel enoughMemory w bs ++ topLevel enoughMemory (w.scan bs).1 cs := by
  rw [topLevel, scan_append, List.filterMap_append]
  rfl

/-- Without a `<` nothing follows the end of a command. -/
theorem scan_outside (h : opening ∉ bs) : Where.outside.scan bs = (.outside, []) := by
  induction bs with
  | nil => rfl
  | cons b bs ih =>
    rw [List.mem_cons, not_or] at h
    rw [Where.scan, Where.next, if_neg (Ne.symm h.1), ih h.2]
    rfl

/-- A command is open at the end of the text, or it was closed. -/
def Segment (w : Where) (t bs : List UInt8) : Prop :=
  (((w.scan bs).1 = .inside (t ++ bs) ∨ (w.scan bs).1 = .quoted (t ++ bs)) ∧ (w.scan bs).2 = []) ∨
  ∃ body junk, bs = body ++ closing :: junk ∧ w.scan body = (.inside (t ++ body), []) ∧
    w.scan bs = (.outside, [t ++ body])

/-- Text without `<` leaves the command open, or closes it once. -/
theorem segment (h : opening ∉ bs) :
    (∀ t, Segment (.inside t) t bs) ∧ ∀ t, Segment (.quoted t) t bs := by
  induction bs with
  | nil => exact ⟨fun t => .inl ⟨.inl (by simp [Where.scan]), rfl⟩,
      fun t => .inl ⟨.inr (by simp [Where.scan]), rfl⟩⟩
  | cons b bs ih =>
    rw [List.mem_cons, not_or] at h
    obtain ⟨hinside, hquoted⟩ := ih h.2
    -- a byte that stays in the command
    have hcons : ∀ {w w' : Where} {t : List UInt8}, w.next b = (w', none) →
        Segment w' (t ++ [b]) bs → Segment w t (b :: bs) := by
      intro w w' t hnext hseg
      rcases hseg with ⟨hstate, hout⟩ | ⟨body, junk, hbs, hbody, hclosed⟩
      · refine .inl ⟨?_, ?_⟩
        · simpa [Where.scan, hnext] using hstate
        · simpa [Where.scan, hnext] using hout
      · refine .inr ⟨b :: body, junk, by simp [hbs], ?_, ?_⟩
        · simp [Where.scan, hnext, hbody]
        · simp [Where.scan, hnext, hclosed]
    refine ⟨fun t => ?_, fun t => ?_⟩
    · by_cases hclosing : b = closing
      · refine .inr ⟨[], bs, by rw [hclosing]; rfl, by simp [Where.scan], ?_⟩
        rw [Where.scan, Where.next, if_neg (Ne.symm h.1), if_pos hclosing]
        simp [scan_outside h.2]
      · by_cases hquote : b = quote
        · exact hcons (by rw [Where.next, if_neg (Ne.symm h.1), if_neg hclosing, if_pos hquote]) (hquoted _)
        · exact hcons (by rw [Where.next, if_neg (Ne.symm h.1), if_neg hclosing, if_neg hquote]) (hinside _)
    · by_cases hquote : b = quote
      · exact hcons (by rw [Where.next, if_pos hquote]) (hinside _)
      · exact hcons (by rw [Where.next, if_neg hquote]) (hquoted _)

/-! ## The reader of `splitValues` -/

variable {w : Where} {r : Reading}

variable (enoughMemory) in
/-- The reader after some bytes. -/
def Reading.after (r : Reading) (bs : List UInt8) : Reading :=
  bs.foldl (fun r b => (r.next enoughMemory b).1) r

theorem ends_append (h : (r.after enoughMemory bs).Ends enoughMemory cs) :
    r.Ends enoughMemory (bs ++ cs) := by
  induction bs generalizing r with
  | nil => exact h
  | cons b bs ih => exact .inr (ih h)

/-- The two readers of a command agree on what is in quotes, until it has ended or is broken. -/
def Agrees : Where → Reading → Prop
  | .outside, r => r.mode = .ended
  | .inside _, r => r.mode ≠ .text
  | .quoted _, r => r.mode = .text ∨ r.mode = .ended

theorem gapNext_text {n : Nat} (h : (Reading.gapNext enoughMemory n b).1.mode = .text) : b = quote := by
  unfold Reading.gapNext at h
  grind

theorem next_text (hmode : r.mode ≠ .text) (h : (r.next enoughMemory b).1.mode = .text) : b = quote := by
  obtain ⟨mode, entries⟩ := r
  cases mode with
  | gap => exact gapNext_text h
  | word =>
    simp only [Reading.next] at h
    split at h
    · cases h
    · split at h
      · exact gapNext_text h
      · cases h
  | text => exact absurd rfl hmode
  | ended => cases h

/-- A quote between the parameters begins a string, or the command is broken. -/
theorem next_quote (hmode : r.mode ≠ .text) : (r.next enoughMemory quote).1.mode = .text ∨
    (r.next enoughMemory quote).1.mode = .ended := by
  have hgap : ∀ n, (Reading.gapNext enoughMemory n quote).1.mode = .text ∨
      (Reading.gapNext enoughMemory n quote).1.mode = .ended := by
    intro n
    have hspace : quote ≠ space := by decide
    have hclosing : quote ≠ closing := by decide
    have hminus : quote ≠ minus := by decide
    have hword : Split.isWord quote = false := by decide
    unfold Reading.gapNext
    grind
  obtain ⟨mode, entries⟩ := r
  cases mode with
  | gap => exact hgap entries
  | word =>
    have hword : Split.isWord quote = false := by decide
    simp only [Reading.next, hword, Bool.false_eq_true, if_false]
    split
    · exact hgap _
    · exact .inr rfl
  | text => exact absurd rfl hmode
  | ended => exact .inr rfl

theorem next_closing (hmode : r.mode ≠ .text) : (r.next enoughMemory closing).1.mode = .ended :=
  next_junk r (by decide) (by decide) (by decide) (by decide) fun h => absurd h hmode

theorem next_opening (hmode : r.mode ≠ .text) : (r.next enoughMemory opening).1.mode = .ended :=
  next_junk r (by decide) (by decide) (by decide) (by decide) fun h => absurd h hmode

theorem next_of_ended (h : r.mode = .ended) : r.next enoughMemory b = (r, false) := by
  simp [Reading.next, h]

/-- The two readers of a command agree behind any byte but `<`. -/
theorem agrees_next (h : Agrees w r) (hb : b ≠ opening) :
    Agrees (w.next b).1 (r.next enoughMemory b).1 := by
  cases w with
  | outside =>
    rw [Where.next, if_neg hb, next_of_ended h]
    exact h
  | inside t =>
    rw [Where.next, if_neg hb]
    by_cases hclosing : b = closing
    · rw [if_pos hclosing, hclosing]
      exact next_closing h
    · rw [if_neg hclosing]
      by_cases hquote : b = quote
      · rw [if_pos hquote, hquote]
        exact next_quote h
      · rw [if_neg hquote]
        exact fun htext => hquote (next_text h htext)
  | quoted t =>
    rw [Where.next]
    rcases h with htext | hended
    · obtain ⟨mode, entries⟩ := r
      cases htext
      by_cases hquote : b = quote
      · rw [if_pos hquote, hquote]
        show Mode.gap ≠ Mode.text
        decide
      · rw [if_neg hquote]
        by_cases hzero : b = 0
        · rw [hzero]
          exact .inr rfl
        · exact .inl (by simp [Reading.next, hzero, hquote])
    · rw [next_of_ended hended]
      by_cases hquote : b = quote
      · rw [if_pos hquote]
        show r.mode ≠ .text
        rw [hended]
        decide
      · rw [if_neg hquote]
        exact .inr hended

theorem agrees_scan (enoughMemory : Bool) (h : Agrees w r) (hbs : opening ∉ bs) :
    Agrees (w.scan bs).1 (r.after enoughMemory bs) := by
  induction bs generalizing w r with
  | nil => exact h
  | cons b bs ih =>
    rw [List.mem_cons, not_or] at hbs
    exact ih (agrees_next h (Ne.symm hbs.1)) hbs.2

/-- A command that is not closed for the one reader is not closed for the other. -/
theorem closes_scan (h : Agrees w r) (hbs : opening ∉ bs) (hopen : (w.scan bs).2 = [])
    (hcloses : r.Closes enoughMemory (bs ++ cs)) : (r.after enoughMemory bs).Closes enoughMemory cs := by
  induction bs generalizing w r with
  | nil => exact hcloses
  | cons b bs ih =>
    rw [List.mem_cons, not_or] at hbs
    rw [Where.scan, List.append_eq_nil_iff, Option.toList_eq_nil_iff] at hopen
    rcases hcloses with ⟨hclosing, hwritten⟩ | hrest
    · exfalso
      cases w with
      | outside =>
        rw [next_of_ended h] at hwritten
        cases hwritten
      | inside t =>
        rw [Where.next, if_neg (Ne.symm hbs.1), if_pos hclosing] at hopen
        cases hopen.1
      | quoted t =>
        rcases h with htext | hended
        · rw [hclosing] at hwritten
          obtain ⟨mode, entries⟩ := r
          cases htext
          cases hwritten
        · rw [next_of_ended hended] at hwritten
          cases hwritten
    · exact ih (agrees_next h (Ne.symm hbs.1)) hbs.2 hopen.2 hrest

/-! ## One command -/

variable {seg more : List UInt8} {opcode : UInt8}

/-- Bytes that are nothing but text of the command. -/
theorem scan_inside (h : ∀ x ∈ bs, x ≠ opening ∧ x ≠ closing ∧ x ≠ quote) :
    (Where.inside t).scan bs = (.inside (t ++ bs), []) := by
  induction bs generalizing t with
  | nil => simp [Where.scan]
  | cons b bs ih =>
    obtain ⟨hopening, hclosing, hquote⟩ := h b List.mem_cons_self
    rw [Where.scan, Where.next, if_neg hopening, if_neg hclosing, if_neg hquote]
    dsimp only
    rw [ih fun x hx => h x (List.mem_cons_of_mem b hx), List.append_assoc]
    rfl

theorem plain_spaces (h : ∀ x ∈ bs, x = space) : ∀ x ∈ bs, x ≠ opening ∧ x ≠ closing ∧ x ≠ quote := by
  intro x hx
  rw [h x hx]
  decide

/-- The spaces before an opcode and the opcode itself stay in the command. -/
theorem scan_opcode {lead : List UInt8} {opcode : UInt8} (hlead : ∀ x ∈ lead, x = space)
    (hopening : opcode ≠ opening) (hclosing : opcode ≠ closing) (hquote : opcode ≠ quote) :
    (Where.inside []).scan (lead ++ [opcode]) = (.inside (lead ++ [opcode]), []) := by
  refine scan_inside fun x hx => ?_
  rcases List.mem_append.mp hx with hx | hx
  · exact plain_spaces hlead x hx
  · rw [List.mem_singleton.mp hx]
    exact ⟨hopening, hclosing, hquote⟩

/-- A text without a `<` is blank, or an opcode stands behind its spaces. -/
theorem opcode_of_readable (hseg : opening ∉ seg) (h : Readable seg) :
    (∀ x ∈ seg, x = space) ∨ ∃ lead opcode body, seg = lead ++ opcode :: body ∧
      (∀ x ∈ lead, x = space) ∧ isLead opcode = false ∧ opcode ≠ quote ∧
      (opcode = closing → closing ∉ body ∧ quote ∉ body) := by
  have hsplit := List.takeWhile_append_dropWhile (p := fun x => decide (x = space)) (l := seg)
  have hlead : ∀ x ∈ seg.takeWhile (· = space), x = space := fun x hx => by
    simpa using List.mem_takeWhile_imp hx
  have hhead := List.head?_dropWhile_not (fun x => decide (x = space)) seg
  obtain ⟨hquote, hbare⟩ := h
  cases hcmd : seg.dropWhile (· = space) with
  | nil =>
    rw [hcmd, List.append_nil] at hsplit
    exact .inl fun x hx => hlead x (hsplit.symm ▸ hx)
  | cons opcode body =>
    rw [hcmd] at hsplit hhead hquote hbare
    refine .inr ⟨_, opcode, body, hsplit.symm, hlead, ?_, ?_, ?_⟩
    · have hspace : opcode ≠ space := by simpa using hhead
      have hopening : opcode ≠ opening := by
        rintro rfl
        exact hseg (by rw [← hsplit]; simp)
      simp [isLead, hspace, hopening]
    · exact fun heq => hquote (congrArg some heq)
    · exact fun heq => hbare (congrArg some heq)

/-- Spaces are stripped. -/
theorem dropWhile_lead {lead : List UInt8} (hlead : ∀ x ∈ lead, x = space) (hop : isLead opcode = false)
    (bs : List UInt8) : (lead ++ opcode :: bs).dropWhile isLead = opcode :: bs := by
  rw [List.dropWhile_append_of_pos (fun x hx => by rw [hlead x hx]; decide),
    List.dropWhile_cons_of_neg (by simp [hop])]

/-- A command that is not closed is not executed. -/
theorem command_of_not_closes {com rest : List UInt8} (hcom : com.dropWhile isLead = opcode :: rest)
    (h : ¬ Reading.start.Closes enoughMemory rest) : (parseOne enoughMemory com).1.command = none := by
  cases hout : (parseOne enoughMemory com).1 with
  | executed op params => exact absurd (closes_of_executed hcom hout) h
  | rejected => rfl
  | ignored => rfl
  | beyond => rfl

/-- A command that has been called is not executed again. -/
theorem command_blankCommand {com rest : List UInt8} (hcom : com.dropWhile isLead = opcode :: rest) :
    (parseOne enoughMemory (blankCommand enoughMemory com)).1.command = none := by
  have hblank : (blankCommand enoughMemory com).dropWhile isLead
      = opcode :: Reading.start.blanked enoughMemory rest := by
    rw [blankCommand, hcom, List.dropWhile_append_of_pos (fun b hb => List.mem_takeWhile_imp hb),
      List.dropWhile_cons_of_neg (by simp [isLead_opcode hcom])]
  exact command_of_not_closes hblank (not_closes_blanked _)

/-- Behind blanks only the terminating zero is left for an opcode. -/
theorem command_of_zero {com rest : List UInt8} (hcom : com.dropWhile isLead = 0 :: rest) :
    (parseOne enoughMemory com).1.command = none := by
  simp only [parseOne, hcom]
  split
  · split
    · rfl
    · rfl
  · rfl

/-- A command that is still open where it is called. -/
theorem command_of_open {z : UInt8} {lead body : List UInt8} (hlead : ∀ x ∈ lead, x = space)
    (hop : isLead opcode = false) (hbody : opening ∉ body)
    (hout : ((Where.inside t).scan body).2 = [])
    (hz : z = 0 ∨ z = opening ∧ ∀ t', ((Where.inside t).scan body).1 ≠ .quoted t') :
    (parseOne enoughMemory (lead ++ opcode :: (body ++ z :: more))).1.command = none := by
  refine command_of_not_closes (dropWhile_lead hlead hop _) fun hcloses => ?_
  have hagrees : Agrees (.inside t) Reading.start := by
    show Mode.gap ≠ Mode.text
    decide
  have hafter := agrees_scan enoughMemory hagrees hbody
  rcases closes_scan hagrees hbody hout hcloses with ⟨hclosing, -⟩ | hrest
  · rcases hz with rfl | ⟨rfl, -⟩ <;> exact absurd hclosing (by decide)
  · refine not_closes_of_ended ?_ hrest
    rcases hz with rfl | ⟨rfl, hnot⟩
    · exact next_zero enoughMemory _
    · refine next_opening ?_
      generalize ((Where.inside t).scan body).1 = w at hafter hnot
      cases w with
      | outside =>
        rw [show Reading.mode _ = Mode.ended from hafter]
        decide
      | inside t' => exact hafter
      | quoted t' => exact absurd rfl (hnot t')

/-- A command that has been closed means the same where it stands and alone. -/
theorem command_of_closed {lead body : List UInt8} (hlead : ∀ x ∈ lead, x = space)
    (hop : isLead opcode = false) (hbody : opening ∉ body)
    (hscan : (Where.inside (lead ++ [opcode])).scan body = (.inside (lead ++ [opcode] ++ body), [])) :
    (parseOne enoughMemory (lead ++ opcode :: (body ++ closing :: more))).1.command
      = meaning enoughMemory (lead ++ [opcode] ++ body) := by
  have hagrees : Agrees (.inside (lead ++ [opcode])) Reading.start := by
    show Mode.gap ≠ Mode.text
    decide
  have hafter := agrees_scan enoughMemory hagrees hbody
  rw [hscan] at hafter
  have hends : Reading.start.Ends enoughMemory (body ++ [closing]) :=
    ends_append (.inr (ends_of_ended (next_closing hafter)))
  have halone := fun bs => parseOne_append bs (dropWhile_lead hlead hop (body ++ [closing])) hends
  have hmore : lead ++ opcode :: (body ++ closing :: more)
      = lead ++ opcode :: (body ++ [closing]) ++ more := by simp
  have hzero : lead ++ [opcode] ++ body ++ [closing, 0]
      = lead ++ opcode :: (body ++ [closing]) ++ [0] := by simp
  rw [meaning, hmore, hzero, halone, halone]

theorem isQuoted_eq_false {w : Where} (h : w.isQuoted = false) : ∀ t, w ≠ .quoted t := by
  rintro t rfl
  cases h

/-- A `<` that is not in quotes begins a new command. -/
theorem next_of_isQuoted {w : Where} (h : w.isQuoted = false) : w.next opening = (.inside [], none) := by
  cases w with
  | outside => rfl
  | inside t => rfl
  | quoted t => cases h

/-- A command that was closed without an opcode. Its `>` is taken for the opcode, and nothing comes
of it: nor is it anything when it stands alone. -/
theorem command_of_bare {z : UInt8} {lead junk : List UInt8} (hlead : ∀ x ∈ lead, x = space)
    (hopening : opening ∉ junk) (hjunk : closing ∉ junk ∧ quote ∉ junk) (hz : z = 0 ∨ z = opening) :
    (parseOne enoughMemory (lead ++ closing :: (junk ++ z :: more))).1.command = none := by
  have hscan : (Where.inside []).scan junk = (.inside ([] ++ junk), []) :=
    scan_inside fun x hx => ⟨ne_of_mem_of_not_mem hx hopening, ne_of_mem_of_not_mem hx hjunk.1,
      ne_of_mem_of_not_mem hx hjunk.2⟩
  exact command_of_open hlead (by decide) hopening (by rw [hscan])
    (hz.imp_right fun h => ⟨h, by simp [hscan]⟩)

/-- A piece of the text, from the begin of a command to the next `<` or the end. -/
theorem command_of_segment {z : UInt8} (hseg : opening ∉ seg) (hread : Readable seg)
    (hz : z = 0 ∨ z = opening ∧ Complete seg) (more : List UInt8) :
    (parseOne enoughMemory (seg ++ z :: more)).1.command.toList
      = topLevel enoughMemory (.inside []) seg := by
  rcases opcode_of_readable hseg hread with
    hblank | ⟨lead, opcode, body, rfl, hlead, hop, hquote, hbare⟩
  · have hzero : z = 0 := hz.resolve_right fun h => by
      obtain ⟨x, hx, hne⟩ := h.2.1
      exact hne (hblank x hx)
    have hdrop : (seg ++ z :: more).dropWhile isLead = 0 :: more := by
      rw [hzero]
      exact dropWhile_lead hblank (by decide) more
    rw [command_of_zero hdrop, topLevel, scan_inside (plain_spaces hblank)]
    rfl
  · have hbody : opening ∉ body := fun hmem => hseg (by simp [hmem])
    by_cases hclosing : opcode = closing
    · -- the command is empty
      subst hclosing
      have hnone : meaning enoughMemory lead = none :=
        command_of_bare hlead (show opening ∉ [] from List.not_mem_nil)
          ⟨List.not_mem_nil, List.not_mem_nil⟩ (.inl rfl)
      have htop : topLevel enoughMemory (.inside []) (lead ++ closing :: body) = [] := by
        rw [topLevel, scan_append, scan_inside (plain_spaces hlead)]
        show List.filterMap _ ([] ++ ([lead] ++ (Where.outside.scan body).2)) = []
        rw [scan_outside hbody]
        simp [hnone]
      rw [htop, List.append_assoc, List.cons_append,
        command_of_bare hlead hbody (hbare rfl) (hz.imp_right And.left)]
      rfl
    · have hstart := scan_opcode hlead (fun heq => hseg (by simp [heq])) hclosing hquote
      have hscan : (Where.inside []).scan (lead ++ opcode :: body)
          = (Where.inside (lead ++ [opcode])).scan body := by
        rw [List.append_cons lead opcode body, scan_append, hstart]
        rfl
      have hz' : z = 0 ∨ z = opening ∧
          ∀ t', ((Where.inside (lead ++ [opcode])).scan body).1 ≠ .quoted t' :=
        hz.imp_right fun h => ⟨h.1, isQuoted_eq_false (hscan ▸ h.2.2)⟩
      rw [topLevel, hscan]
      rcases (segment hbody).1 (lead ++ [opcode]) with ⟨-, hout⟩ | ⟨body', junk, rfl, hinside, hclosed⟩
      · rw [hout, List.append_assoc, List.cons_append, command_of_open hlead hop hbody hout hz']
        rfl
      · have hbody' : opening ∉ body' := fun hmem => hbody (by simp [hmem])
        have hmore : lead ++ opcode :: (body' ++ closing :: junk) ++ z :: more
            = lead ++ opcode :: (body' ++ closing :: (junk ++ z :: more)) := by simp
        rw [hclosed, hmore, command_of_closed hlead hop hbody' hinside]
        generalize lead ++ [opcode] ++ body' = t
        cases hmeaning : meaning enoughMemory t <;> simp [hmeaning]

/-- The reader of `splitValues` is not in a string behind a complete piece. -/
theorem mode_of_complete (enoughMemory : Bool) (hseg : opening ∉ seg) (hread : Readable seg)
    (hcomplete : Complete seg) : ∃ lead opcode body, seg = lead ++ opcode :: body ∧
      (∀ x ∈ lead, x = space) ∧ isLead opcode = false ∧
      (Reading.start.after enoughMemory body).mode ≠ .text := by
  rcases opcode_of_readable hseg hread with
    hblank | ⟨lead, opcode, body, rfl, hlead, hop, hquote, hbare⟩
  · obtain ⟨x, hx, hne⟩ := hcomplete.1
    exact absurd (hblank x hx) hne
  · have hbody : opening ∉ body := fun hmem => hseg (by simp [hmem])
    refine ⟨lead, opcode, body, rfl, hlead, hop, ?_⟩
    have hafter : ∀ t, Agrees ((Where.inside t).scan body).1 (Reading.start.after enoughMemory body) := by
      refine fun t => agrees_scan enoughMemory ?_ hbody
      show Mode.gap ≠ Mode.text
      decide
    by_cases hclosing : opcode = closing
    · obtain ⟨hclose, hquotes⟩ := hbare hclosing
      have hagrees := hafter []
      rw [scan_inside fun x hx => ⟨ne_of_mem_of_not_mem hx hbody, ne_of_mem_of_not_mem hx hclose,
        ne_of_mem_of_not_mem hx hquotes⟩] at hagrees
      exact hagrees
    · have hstart := scan_opcode hlead (fun heq => hseg (by simp [heq])) hclosing hquote
      have hopen := hcomplete.2
      rw [List.append_cons lead opcode body, scan_append, hstart] at hopen
      have hagrees := hafter (lead ++ [opcode])
      dsimp only at hopen
      generalize ((Where.inside (lead ++ [opcode])).scan body).1 = w at hagrees hopen
      cases w with
      | outside =>
        rw [show Reading.mode _ = Mode.ended from hagrees]
        decide
      | inside t' => exact hagrees
      | quoted t' => cases hopen

/-- At a `<` that is not in quotes the command before it comes to an end. -/
theorem ends_of_segment (enoughMemory : Bool) (hseg : opening ∉ seg) (hread : Readable seg)
    (hcomplete : Complete seg) : ∃ opcode rest, (seg ++ [opening]).dropWhile isLead = opcode :: rest ∧
      Reading.start.Ends enoughMemory rest := by
  obtain ⟨lead, opcode, body, rfl, hlead, hop, hmode⟩ := mode_of_complete enoughMemory hseg hread hcomplete
  refine ⟨opcode, body ++ [opening], ?_, ends_append (.inr (ends_of_ended (next_opening hmode)))⟩
  rw [List.append_assoc, List.cons_append]
  exact dropWhile_lead hlead hop _

/-! ## The loop of `parse` -/

variable {st : Parse} {c k : Nat} {later : Option Nat} {found : Bool}

theorem executed_eq (st : Parse) : st.executed = st.calls.filterMap fun call => call.2.command := by
  rw [Parse.executed]
  congr 1
  funext call
  obtain ⟨p, outcome⟩ := call
  cases outcome <;> rfl

theorem executed_call (p : Nat) : (st.call enoughMemory p).executed
    = st.executed ++ (parseOne enoughMemory (st.buffer.drop p)).1.command.toList := by
  rw [executed_eq, executed_eq, Parse.call, List.filterMap_append]
  cases hcommand : (parseOne enoughMemory (st.buffer.drop p)).1.command <;> simp [hcommand]

/-- The loop goes over a segment to the byte behind it. -/
theorem loop_segment {z : UInt8} {p : Nat} (hseg : opening ∉ seg) (hzero : 0 ∉ seg)
    (hbuffer : st.buffer.drop c = seg ++ z :: more) :
    st.loop enoughMemory (seg.length + k) c (some p) false
      = st.loop enoughMemory k (c + seg.length) (some p) false := by
  induction seg generalizing c with
  | nil => simp
  | cons b seg ih =>
    rw [List.mem_cons, not_or] at hseg hzero
    have hb : st.buffer[c]? = some b := by
      have := congrArg (·[0]?) hbuffer
      simpa using this
    have hnext : st.buffer.drop (c + 1) = seg ++ z :: more := by
      rw [← List.drop_drop, hbuffer]
      rfl
    rw [List.length_cons, Nat.add_right_comm, loop_succ hb, if_neg (Ne.symm hzero.1),
      if_neg (Ne.symm hseg.1), if_neg (by decide), ih hseg.2 hzero.2 hnext]
    congr 1
    omega

/-- From the begin of a command over its segment: `cForLater` points to it now. -/
theorem loop_first {z : UInt8} (hseg : opening ∉ seg) (hzero : 0 ∉ seg) (hne : seg ≠ [])
    (hbuffer : st.buffer.drop c = seg ++ z :: more) :
    st.loop enoughMemory (seg.length + k) c later true
      = st.loop enoughMemory k (c + seg.length) (some c) false := by
  obtain ⟨b, seg', rfl⟩ := List.exists_cons_of_ne_nil hne
  rw [List.mem_cons, not_or] at hseg hzero
  have hb : st.buffer[c]? = some b := by
    have := congrArg (·[0]?) hbuffer
    simpa using this
  have hnext : st.buffer.drop (c + 1) = seg' ++ z :: more := by
    rw [← List.drop_drop, hbuffer]
    rfl
  rw [List.length_cons, Nat.add_right_comm, loop_succ hb, if_neg (Ne.symm hzero.1),
    if_neg (Ne.symm hseg.1), if_pos rfl, loop_segment hseg.2 hzero.2 hnext]
  congr 1
  omega

/-- The rest of the buffer after the command at its begin has been called at a `<`. -/
theorem drop_call (enoughMemory : Bool) {rest : List UInt8} (hc : c ≤ st.buffer.length) (hseg : opening ∉ seg)
    (hread : Readable seg) (hcomplete : Complete seg)
    (hbuffer : st.buffer.drop c = seg ++ opening :: (rest ++ [0])) :
    (st.call enoughMemory c).buffer.drop (c + seg.length + 1) = rest ++ [0] ∧
    (parseOne enoughMemory ((st.call enoughMemory c).buffer.drop c)).1.command = none := by
  obtain ⟨opcode, rest', hdrop, hends⟩ := ends_of_segment enoughMemory hseg hread hcomplete
  have hcom : st.buffer.drop c = seg ++ [opening] ++ (rest ++ [0]) := by simp [hbuffer]
  have htake : (st.buffer.take c).length = c := by rw [List.length_take]; omega
  have hblank : (parseOne enoughMemory (seg ++ [opening])).2.length = seg.length + 1 := by
    rw [(parseOne_of_ends hdrop hends).2, length_blankCommand]
    simp
  refine ⟨?_, ?_⟩
  · rw [Parse.call, hcom, parseOne_append _ hdrop hends]
    dsimp only
    rw [← List.append_assoc, List.drop_left' (by rw [List.length_append, htake, hblank]; omega)]
  · have hlast : (st.buffer.drop c).getLast? = some 0 := by simp [hbuffer, List.getLast?_cons]
    rw [Parse.call]
    dsimp only
    rw [List.drop_left' htake, (parseOne_of_zero enoughMemory hlast).1]
    rw [hcom]
    exact command_blankCommand (dropWhile_append hdrop _)

/-- A piece that is followed by a `<`, as `parse` can go over it. -/
structure Passable (piece : List UInt8) : Prop where
  opening : opening ∉ piece
  zero : 0 ∉ piece
  readable : Readable piece
  complete : Complete piece

theorem Passable.ne_nil (h : Passable seg) : seg ≠ [] := by
  obtain ⟨x, hx, -⟩ := h.complete.1
  exact List.ne_nil_of_mem hx

/-- The pieces with the `<` behind each of them. -/
def cut (pieces : List (List UInt8)) : List UInt8 := pieces.flatMap (· ++ [opening])

variable {pieces : List (List UInt8)} {last : List UInt8}

/-- From the begin of the last piece on it is called once. The loop does not get beyond a zero. -/
theorem loop_last (hlast : opening ∉ last.takeWhile (· ≠ 0)) (hbuffer : st.buffer.drop c = last ++ [0])
    (hstale : ∀ p ∈ later, (parseOne enoughMemory (st.buffer.drop p)).1.command = none) :
    (st.loop enoughMemory (last.length + 1) c later true).executed
      = st.executed ++ (parseOne enoughMemory (last ++ [0])).1.command.toList := by
  have hsplit := List.takeWhile_append_dropWhile (p := fun x => decide (x ≠ 0)) (l := last)
  have hzero : 0 ∉ last.takeWhile (· ≠ 0) := fun h => by simpa using List.mem_takeWhile_imp h
  have hhead := List.head?_dropWhile_not (fun x => decide (x ≠ 0)) last
  generalize last.takeWhile (· ≠ 0) = seg at hlast hsplit hzero
  obtain ⟨more, hmore⟩ : ∃ more, last ++ [0] = seg ++ 0 :: more := by
    cases hrest : last.dropWhile (· ≠ 0) with
    | nil => exact ⟨[], by rw [← hsplit, hrest, List.append_nil]⟩
    | cons b rest =>
      rw [hrest] at hsplit hhead
      have hb : b = 0 := by simpa using hhead
      exact ⟨rest ++ [0], by rw [← hsplit, hb, List.append_assoc, List.cons_append]⟩
  have hlength : seg.length ≤ last.length := by rw [← hsplit, List.length_append]; omega
  obtain ⟨k, hk⟩ : ∃ k, last.length + 1 = seg.length + (k + 1) :=
    ⟨last.length - seg.length, by omega⟩
  have hat : st.buffer[c + seg.length]? = some 0 := by
    rw [← List.getElem?_drop, hbuffer, hmore]
    simp
  by_cases hne : seg = []
  · subst hne
    rw [List.length_nil, Nat.add_zero] at hat
    rw [hk, List.length_nil, Nat.zero_add, loop_succ hat, if_pos rfl]
    have hnone : (parseOne enoughMemory (last ++ [0])).1.command = none :=
      command_of_zero (by rw [hmore]; rfl)
    rw [hnone]
    cases later with
    | none => simp [Parse.callLater]
    | some p =>
      show (st.call enoughMemory p).executed = _
      rw [executed_call, hstale p rfl]
  · rw [hk, loop_first hlast hzero hne (hbuffer.trans hmore), loop_succ hat, if_pos rfl]
    show (st.call enoughMemory c).executed = _
    rw [executed_call, hbuffer]

/-- From the begin of a command on, `parse` executes what the pieces ask for, and calls the last one. -/
theorem loop_pieces (hpieces : ∀ piece ∈ pieces, Passable piece)
    (hlast : opening ∉ last.takeWhile (· ≠ 0)) (hc : c ≤ st.buffer.length)
    (hbuffer : st.buffer.drop c = cut pieces ++ last ++ [0])
    (hstale : ∀ p ∈ later, (parseOne enoughMemory (st.buffer.drop p)).1.command = none) :
    (st.loop enoughMemory ((cut pieces ++ last).length + 1) c later true).executed
      = st.executed ++ pieces.flatMap (topLevel enoughMemory (.inside []))
        ++ (parseOne enoughMemory (last ++ [0])).1.command.toList := by
  induction pieces generalizing st c later with
  | nil =>
    rw [List.flatMap_nil, List.append_nil]
    exact loop_last hlast hbuffer hstale
  | cons seg pieces ih =>
    have hseg := hpieces seg List.mem_cons_self
    have hcut : cut (seg :: pieces) = seg ++ opening :: cut pieces := by simp [cut]
    have hbuffer' : st.buffer.drop c = seg ++ opening :: (cut pieces ++ last ++ [0]) := by
      rw [hbuffer, hcut]
      simp
    have hat : st.buffer[c + seg.length]? = some opening := by
      rw [← List.getElem?_drop, hbuffer']
      simp
    obtain ⟨hrest, hagain⟩ := drop_call enoughMemory hc hseg.opening hseg.readable hseg.complete hbuffer'
    have hcall : (st.call enoughMemory c).executed
        = st.executed ++ topLevel enoughMemory (.inside []) seg := by
      rw [executed_call, hbuffer', command_of_segment hseg.opening hseg.readable
        (.inr ⟨rfl, hseg.complete⟩)]
    have hk : (cut (seg :: pieces) ++ last).length + 1
        = seg.length + ((cut pieces ++ last).length + 1 + 1) := by
      rw [hcut]
      simp
      omega
    rw [hk, loop_first hseg.opening hseg.zero hseg.ne_nil hbuffer', loop_succ hat, if_neg (by decide),
      if_pos rfl, if_neg (by decide)]
    show ((st.call enoughMemory c).loop enoughMemory ((cut pieces ++ last).length + 1)
      (c + seg.length + 1) (some c) true).executed = _
    rw [ih (fun piece hp => hpieces piece (List.mem_cons_of_mem seg hp)) ?_ hrest ?_, hcall,
      List.flatMap_cons, List.append_assoc st.executed]
    · have := congrArg List.length hrest
      rw [List.length_drop, List.length_append, List.length_singleton] at this
      omega
    · intro p hp
      rw [← Option.mem_some.mp hp]
      exact hagain

/-- What `parse` executes of a text of pieces. The first `<` may be there or not. -/
theorem parse_pieces {first : List UInt8} (hfirst : first = [] ∨ first = [opening])
    (hpieces : ∀ piece ∈ pieces, Passable piece) (hlast : opening ∉ last.takeWhile (· ≠ 0)) :
    (parse enoughMemory (first ++ (cut pieces ++ last) ++ [0])).executed
      = pieces.flatMap (topLevel enoughMemory (.inside []))
        ++ (parseOne enoughMemory (last ++ [0])).1.command.toList := by
  rcases hfirst with rfl | rfl
  · have hfound : decide ((cut pieces ++ last ++ [0]).head? ≠ some opening) = true := by
      rw [decide_eq_true_iff]
      cases pieces with
      | nil =>
        cases last with
        | nil => decide
        | cons b last =>
          rintro heq
          obtain rfl : b = opening := Option.some.inj heq
          exact hlast (by rw [List.takeWhile_cons_of_pos (by decide)]; exact List.mem_cons_self)
      | cons seg pieces =>
        have hseg := hpieces seg List.mem_cons_self
        obtain ⟨b, seg', rfl⟩ := List.exists_cons_of_ne_nil hseg.ne_nil
        rintro heq
        obtain rfl : b = opening := Option.some.inj heq
        exact hseg.opening List.mem_cons_self
    have hlength : (cut pieces ++ last ++ [0]).length = (cut pieces ++ last).length + 1 :=
      List.length_append
    rw [List.nil_append, parse, hfound, hlength,
      loop_pieces hpieces hlast (Nat.zero_le _) rfl (by simp)]
    rfl
  · have hlength : ([opening] ++ (cut pieces ++ last) ++ [0]).length
        = (cut pieces ++ last).length + 1 + 1 := List.length_append
    rw [parse, hlength]
    show (Parse.loop enoughMemory ((cut pieces ++ last).length + 1 + 1) 0 none false
      ⟨opening :: (cut pieces ++ last ++ [0]), []⟩).executed = _
    rw [loop_succ (b := opening) rfl, if_neg (by decide), if_pos rfl, if_neg (by decide)]
    show (Parse.loop enoughMemory ((cut pieces ++ last).length + 1) 1 none true
      ⟨opening :: (cut pieces ++ last ++ [0]), []⟩).executed = _
    rw [loop_pieces hpieces hlast (by simp) rfl (by simp)]
    rfl

/-! ## Whole texts -/

/-- Every text is made of pieces. -/
theorem exists_pieces (text : List UInt8) : ∃ pieces last, text = cut pieces ++ last ∧
    (∀ piece ∈ pieces, opening ∉ piece) ∧ opening ∉ last ∧ text.splitOn opening = pieces ++ [last] := by
  obtain ⟨n, hn⟩ : ∃ n, text.length < n := ⟨_, Nat.lt_succ_self _⟩
  induction n generalizing text with
  | zero => omega
  | succ n ih =>
    by_cases hmem : opening ∈ text
    · obtain ⟨seg, rest, rfl, hseg⟩ := List.eq_append_cons_of_mem hmem
      rw [List.length_append, List.length_cons] at hn
      obtain ⟨pieces, last, rfl, hpieces, hlast, hsplit⟩ := ih rest (by omega)
      refine ⟨seg :: pieces, last, by simp [cut], ?_, hlast, ?_⟩
      · simpa using ⟨hseg, hpieces⟩
      · rw [List.splitOn_append_cons_self_of_not_mem hseg, hsplit]
        rfl
    · exact ⟨[], text, rfl, by simp, hmem, List.splitOn_eq_singleton hmem⟩

theorem topLevel_pieces (hpieces : ∀ piece ∈ pieces, Complete piece) :
    topLevel enoughMemory (.inside []) (cut pieces ++ last)
      = pieces.flatMap (topLevel enoughMemory (.inside [])) ++ topLevel enoughMemory (.inside []) last := by
  induction pieces with
  | nil => rfl
  | cons seg pieces ih =>
    have hnext := next_of_isQuoted (hpieces seg List.mem_cons_self).2
    have hcut : cut (seg :: pieces) ++ last = seg ++ opening :: (cut pieces ++ last) := by simp [cut]
    rw [hcut, topLevel_append, List.flatMap_cons, List.append_assoc,
      ← ih fun piece hp => hpieces piece (List.mem_cons_of_mem seg hp)]
    congr 1
    rw [topLevel, Where.scan, hnext]
    rfl

/-- `parse` executes the commands of a plain text. -/
theorem parse_executes {text : List UInt8} (hzero : 0 ∉ text) (hplain : PlainText text) :
    (parse enoughMemory (text ++ [0])).executed = topLevel enoughMemory (.inside []) text := by
  obtain ⟨first, rest, rfl, hfirst, hplain⟩ : ∃ first rest, text = first ++ rest ∧
      (first = [] ∨ first = [opening]) ∧ (∀ piece ∈ rest.splitOn opening, Readable piece) ∧
        ∀ piece ∈ (rest.splitOn opening).dropLast, Complete piece := by
    unfold PlainText at hplain
    split at hplain
    · next hhead =>
      obtain ⟨rest, rfl⟩ := List.head?_eq_some_iff.mp hhead
      exact ⟨[opening], rest, rfl, .inr rfl, hplain⟩
    · exact ⟨[], text, rfl, .inl rfl, hplain⟩
  obtain ⟨pieces, last, rfl, hopening, hlast, hsplit⟩ := exists_pieces rest
  rw [hsplit, List.dropLast_concat] at hplain
  obtain ⟨hreadable, hcomplete⟩ := hplain
  have hpieces : ∀ piece ∈ pieces, Passable piece := fun piece hp => by
    refine ⟨hopening piece hp, fun h0 => hzero ?_, hreadable piece (by simp [hp]), hcomplete piece hp⟩
    simp only [cut, List.mem_append, List.mem_flatMap]
    exact .inr (.inl ⟨piece, hp, .inl h0⟩)
  have hlast0 : 0 ∉ last := fun h0 => hzero (by simp [h0])
  have htake : last.takeWhile (· ≠ 0) = last :=
    List.takeWhile_eq_self_iff.mpr fun x hx => by simpa using ne_of_mem_of_not_mem hx hlast0
  rw [parse_pieces hfirst hpieces (htake.symm ▸ hlast),
    command_of_segment hlast (hreadable last (by simp)) (.inl rfl) []]
  rcases hfirst with rfl | rfl
  · exact (topLevel_pieces hcomplete).symm
  · exact (topLevel_pieces hcomplete).symm

end DCCEXParser

end CommandStation
