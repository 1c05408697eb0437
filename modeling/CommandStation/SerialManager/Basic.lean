import CommandStation.DCCEXParser.Quotes

/-!
# Commands from a serial port

`SerialManager` collects the bytes of a command, from a `<` to the next `>` that is not in quotes, and
hands them to the parser without the `<`. It gives up a command that does not fit into its buffer, and
ends one with a string that takes more than half of it.
-/

namespace CommandStation

open DCCEXParser

/-- The members of `class SerialManager`. `buffer` are the first `bufferLength` bytes; its size is 64
or 256, so that the counters, which are bytes, do not overflow. -/
structure SerialManager where
  buffer : List UInt8
  inCommandPayload : Nat
  deriving DecidableEq, Repr

namespace SerialManager

/-- `PAYLOAD_FALSE`, `PAYLOAD_NORMAL` and `PAYLOAD_STRING` -/
def payloadFalse : Nat := 0

def payloadNormal : Nat := 1

def payloadString : Nat := 2

def new : SerialManager := ⟨[], payloadFalse⟩

/-- The loop of `loop2` for one character, and the text it hands to the parser. `size` is
`COMMAND_BUFFER_SIZE`. -/
def loop2 (size : Nat) (m : SerialManager) (ch : UInt8) : SerialManager × Option (List UInt8) :=
  if m.inCommandPayload = payloadFalse then
    if ch = opening then (⟨[], payloadNormal⟩, none) else (m, none)
  else if m.buffer.length < size - 1 then
    let m := { m with buffer := m.buffer ++ [ch] }
    if payloadNormal < m.inCommandPayload then
      if size / 2 < m.inCommandPayload then
        -- string way too long: we end this nonsense
        ({ m with inCommandPayload := payloadFalse }, some m.buffer)
      else if ch = quote then ({ m with inCommandPayload := payloadNormal }, none)  -- string end
      else ({ m with inCommandPayload := m.inCommandPayload + 1 }, none)
    else if ch = closing then ({ m with inCommandPayload := payloadFalse }, some m.buffer)
    else if ch = quote then ({ m with inCommandPayload := payloadString }, none)
    else (m, none)
  else ({ m with inCommandPayload := payloadFalse }, none)  -- input buffer overflow

/-- The texts that are handed to the parser while these characters come in. -/
def texts (size : Nat) (m : SerialManager) : List UInt8 → List (List UInt8)
  | [] => []
  | ch :: chs => (m.loop2 size ch).2.toList ++ texts size (m.loop2 size ch).1 chs

/-- The commands that are executed. -/
def executed (enoughMemory : Bool) (size : Nat) (m : SerialManager) (chs : List UInt8) :
    List (UInt8 × List Int16) :=
  (m.texts size chs).flatMap fun text => (parse enoughMemory (text ++ [0])).executed

/-! ## What fits -/

/-- From its first `<` on a command is shorter than the buffer, and a string than half of it. `n` is
the length of the command so far and `k` that of the string. -/
def Fits (size : Nat) (w : Where) (n k : Nat) : List UInt8 → Prop
  | [] => True
  | b :: bs =>
    match w with
    | .outside => Fits size (w.next b).1 0 0 bs
    | .inside _ => n < size - 1 ∧ Fits size (w.next b).1 (n + 1) 0 bs
    | .quoted _ => n < size - 1 ∧ k + 2 ≤ size / 2 ∧ Fits size (w.next b).1 (n + 1) (k + 1) bs

/-- On its way to the parser a `<` does no harm directly behind the first one of a command, behind an
opcode that is not a quote, and behind a zero byte where it is in quotes: the parser stops at a zero.
Between the commands everything may come. `n` is the length of the command so far. -/
def Plain (w : Where) (n : Nat) : List UInt8 → Prop
  | [] => True
  | b :: bs =>
    match w with
    | .outside => Plain (w.next b).1 0 bs
    | .inside t =>
      (b = opening → n = 0 ∨ Readable t ∧ Complete t ∧ 0 ∉ t) ∧ Plain (w.next b).1 (n + 1) bs
    | .quoted t => (b = opening → 0 ∈ t) ∧ Plain (w.next b).1 (n + 1) bs

variable {enoughMemory : Bool} {size n k : Nat} {m : SerialManager} {w : Where} {b : UInt8}
variable {bs t : List UInt8}

/-- `inCommandPayload` of a port whose reader is there, `k` bytes into a string. -/
def payloadAt (k : Nat) : Where → Nat
  | .outside => payloadFalse
  | .inside _ => payloadNormal
  | .quoted _ => payloadString + k

/-- What has been collected of a command whose text so far is `t`: pieces that end with a `<` and ask
for nothing, and that text. -/
structure Collected (w : Where) (t buffer : List UInt8) : Prop where
  scan : (Where.inside []).scan t = (w, [])
  opening : opening ∉ t.takeWhile (· ≠ 0)
  pieces : ∃ first pieces, (first = [] ∨ first = [DCCEXParser.opening]) ∧ buffer = first ++ (cut pieces ++ t) ∧
    ∀ piece ∈ pieces, Passable piece ∧ ((Where.inside []).scan piece).2 = []

/-- A command is collected in the same way as it is read with quotes respected. -/
structure Collects (m : SerialManager) (w : Where) (n k : Nat) : Prop where
  payload : m.inCommandPayload = payloadAt k w
  length : w ≠ .outside → m.buffer.length = n
  collected : ∀ t, w = .inside t ∨ w = .quoted t → Collected w t m.buffer

theorem collects_outside (h : m.inCommandPayload = payloadFalse) : Collects m .outside n k :=
  ⟨h, fun h => absurd rfl h, by simp⟩

theorem not_mem_takeWhile_snoc (h : opening ∉ t.takeWhile (· ≠ 0)) (hb : b = opening → 0 ∈ t) :
    opening ∉ (t ++ [b]).takeWhile (· ≠ 0) := by
  rw [List.takeWhile_append]
  split
  · next hall =>
    have hself : t.takeWhile (· ≠ 0) = t := (List.takeWhile_prefix _).eq_of_length hall
    have hzero : 0 ∉ t := fun h0 => by
      rw [← hself] at h0
      simpa using List.mem_takeWhile_imp h0
    rw [List.mem_append, not_or]
    refine ⟨hself ▸ h, fun hmem => hzero (hb ?_)⟩
    exact (List.mem_singleton.mp ((List.takeWhile_sublist _).mem hmem)).symm
  · exact h

/-- Another byte of the text of a command. -/
theorem Collected.snoc {w' : Where} {buffer : List UInt8} (h : Collected w t buffer)
    (hnext : w.next b = (w', none)) (hb : b = DCCEXParser.opening → 0 ∈ t) :
    Collected w' (t ++ [b]) (buffer ++ [b]) where
  scan := by
    rw [scan_append, h.scan, Where.scan, Where.scan, hnext]
    rfl
  opening := not_mem_takeWhile_snoc h.opening hb
  pieces := by
    obtain ⟨first, pieces, hfirst, rfl, hpieces⟩ := h.pieces
    exact ⟨first, pieces, hfirst, by simp, hpieces⟩

/-- A `<` begins the command again. -/
theorem Collected.again {buffer : List UInt8} (h : Collected (.inside t) t buffer)
    (hb : buffer = [] ∨ Readable t ∧ Complete t ∧ 0 ∉ t) :
    Collected (.inside []) [] (buffer ++ [DCCEXParser.opening]) where
  scan := rfl
  opening := by simp
  pieces := by
    rcases hb with rfl | ⟨hreadable, hcomplete, hzero⟩
    · exact ⟨[DCCEXParser.opening], [], .inr rfl, rfl, by simp⟩
    · obtain ⟨first, pieces, hfirst, rfl, hpieces⟩ := h.pieces
      have hself : t.takeWhile (· ≠ 0) = t :=
        List.takeWhile_eq_self_iff.mpr fun x hx => by simpa using ne_of_mem_of_not_mem hx hzero
      refine ⟨first, pieces ++ [t], hfirst, by simp [cut], ?_⟩
      intro piece hp
      rcases List.mem_append.mp hp with hp | hp
      · exact hpieces piece hp
      · rw [List.mem_singleton.mp hp, h.scan]
        exact ⟨⟨hself ▸ h.opening, hzero, hreadable, hcomplete⟩, rfl⟩

/-- The text of a command, with the `>` that closes it, is executed as that command. -/
theorem Collected.close {buffer : List UInt8} (h : Collected w t buffer) :
    (parse enoughMemory (buffer ++ [closing] ++ [0])).executed = (meaning enoughMemory t).toList := by
  obtain ⟨first, pieces, hfirst, rfl, hpieces⟩ := h.pieces
  have hlast := not_mem_takeWhile_snoc (b := closing) h.opening fun heq => absurd heq (by decide)
  have hnone : pieces.flatMap (topLevel enoughMemory (.inside [])) = [] := by
    rw [List.flatMap_eq_nil_iff]
    intro piece hp
    rw [topLevel, (hpieces piece hp).2]
    rfl
  have htext : first ++ (cut pieces ++ t) ++ [closing] ++ [0]
      = first ++ (cut pieces ++ (t ++ [closing])) ++ [0] := by simp
  rw [htext, parse_pieces hfirst (fun piece hp => (hpieces piece hp).1) hlast, hnone, List.nil_append,
    List.append_assoc]
  rfl

/-! ## Whole streams -/

theorem loop2_normal (hpayload : m.inCommandPayload = payloadNormal)
    (hroom : m.buffer.length < size - 1) :
    m.loop2 size b =
      if b = closing then (⟨m.buffer ++ [b], payloadFalse⟩, some (m.buffer ++ [b]))
      else (⟨m.buffer ++ [b], if b = quote then payloadString else payloadNormal⟩, none) := by
  have hfalse : ¬ m.inCommandPayload = payloadFalse := by rw [hpayload]; decide
  have hnormal : ¬ payloadNormal < m.inCommandPayload := by rw [hpayload]; decide
  rw [loop2, if_neg hfalse, if_pos hroom]
  simp only [hnormal, if_false]
  split
  · rfl
  · split
    · rfl
    · rw [hpayload]

theorem loop2_string (hpayload : m.inCommandPayload = payloadString + k)
    (hroom : m.buffer.length < size - 1) (hstring : k + 2 ≤ size / 2) :
    m.loop2 size b =
      (⟨m.buffer ++ [b], if b = quote then payloadNormal else payloadString + (k + 1)⟩, none) := by
  simp only [payloadString] at hpayload
  have hfalse : ¬ m.inCommandPayload = payloadFalse := by rw [hpayload, payloadFalse]; omega
  have hnormal : payloadNormal < m.inCommandPayload := by rw [hpayload, payloadNormal]; omega
  have hshort : ¬ size / 2 < m.inCommandPayload := by rw [hpayload]; omega
  rw [loop2, if_neg hfalse, if_pos hroom]
  simp only [hnormal, hshort, if_true, if_false]
  split
  · rfl
  · rw [hpayload, payloadString, Nat.add_assoc]

theorem executed_cons {m' : SerialManager} {text : Option (List UInt8)}
    (hstep : m.loop2 size b = (m', text)) :
    m.executed enoughMemory size (b :: bs) =
      text.toList.flatMap (fun text => (parse enoughMemory (text ++ [0])).executed) ++
        m'.executed enoughMemory size bs := by
  rw [executed, texts, hstep, List.flatMap_append]
  rfl

theorem topLevel_cons {w' : Where} {cmd : Option (List UInt8)} (hnext : w.next b = (w', cmd)) :
    topLevel enoughMemory w (b :: bs) =
      cmd.toList.filterMap (meaning enoughMemory) ++ topLevel enoughMemory w' bs := by
  rw [topLevel, Where.scan, hnext, List.filterMap_append]
  rfl

/-- Only the `>` of a command closes one. -/
theorem next_eq_some (h : (w.next b).2 = some t) : w = .inside t ∧ b = closing := by
  cases w with
  | outside => cases h
  | inside t' =>
    rw [Where.next] at h
    split at h
    · cases h
    split at h
    · next hb => exact ⟨congrArg _ (Option.some.inj h), hb⟩
    split at h <;> cases h
  | quoted t' =>
    rw [Where.next] at h
    cases h

/-- The port goes on with these bytes: what it has collected is what was read, and they are plain and fit. -/
def Onward (size : Nat) (m : SerialManager) (w : Where) (bs : List UInt8) : Prop :=
  ∃ n k, Collects m w n k ∧ Plain w n bs ∧ Fits size w n k bs

theorem onward_outside (h : m.inCommandPayload = payloadFalse) (hplain : Plain .outside n (b :: bs))
    (hfits : Fits size .outside n k (b :: bs)) :
    (m.loop2 size b).2 = none ∧ Onward size (m.loop2 size b).1 (Where.outside.next b).1 bs := by
  rw [Plain] at hplain
  rw [Fits] at hfits
  rw [loop2, if_pos h]
  rw [Where.next] at hplain hfits ⊢
  split
  · next hb =>
    rw [if_pos hb] at hplain hfits
    have hcollected : Collected (.inside []) [] [] := ⟨rfl, by simp, [], [], .inl rfl, rfl, by simp⟩
    exact ⟨rfl, 0, 0, ⟨rfl, fun _ => rfl, by simpa using hcollected⟩, hplain, hfits⟩
  · next hb =>
    rw [if_neg hb] at hplain hfits
    exact ⟨rfl, 0, 0, collects_outside h, hplain, hfits⟩

/-- In a command: a `<` begins it again, and any byte but the `>` is collected. -/
theorem onward_inside (h : Collects m (.inside t) n k) (hclosing : b ≠ closing)
    (hplain : Plain (.inside t) n (b :: bs)) (hfits : Fits size (.inside t) n k (b :: bs)) :
    (m.loop2 size b).2 = none ∧ Onward size (m.loop2 size b).1 ((Where.inside t).next b).1 bs := by
  have hcollected := h.collected t (.inl rfl)
  have hlength := h.length (by simp)
  obtain ⟨hallowed, hplain⟩ := hplain
  obtain ⟨hroom, hfits⟩ := hfits
  have hsnoc : (m.buffer ++ [b]).length = n + 1 := by rw [List.length_append, hlength]; rfl
  rw [loop2_normal h.payload (hlength ▸ hroom), if_neg hclosing]
  refine ⟨rfl, n + 1, 0, ?_, hplain, hfits⟩
  by_cases hopening : b = opening
  · subst hopening
    have hagain := hcollected.again
      ((hallowed rfl).imp_left fun hn => List.length_eq_zero_iff.mp (hlength.trans hn))
    exact ⟨rfl, fun _ => hsnoc, by simpa [Where.next] using hagain⟩
  by_cases hquote : b = quote
  · have hnext : (Where.inside t).next b = (.quoted (t ++ [b]), none) := by
      rw [Where.next, if_neg hopening, if_neg hclosing, if_pos hquote]
    have hmore := hcollected.snoc hnext fun heq => absurd heq hopening
    rw [hnext, if_pos hquote]
    exact ⟨rfl, fun _ => hsnoc, by simpa using hmore⟩
  · have hnext : (Where.inside t).next b = (.inside (t ++ [b]), none) := by
      rw [Where.next, if_neg hopening, if_neg hclosing, if_neg hquote]
    have hmore := hcollected.snoc hnext fun heq => absurd heq hopening
    rw [hnext, if_neg hquote]
    exact ⟨rfl, fun _ => hsnoc, by simpa using hmore⟩

/-- In a string every byte is collected, and a quote ends it. -/
theorem onward_quoted (h : Collects m (.quoted t) n k) (hplain : Plain (.quoted t) n (b :: bs))
    (hfits : Fits size (.quoted t) n k (b :: bs)) :
    (m.loop2 size b).2 = none ∧ Onward size (m.loop2 size b).1 ((Where.quoted t).next b).1 bs := by
  have hcollected := h.collected t (.inr rfl)
  have hlength := h.length (by simp)
  obtain ⟨hallowed, hplain⟩ := hplain
  obtain ⟨hroom, hstring, hfits⟩ := hfits
  have hsnoc : (m.buffer ++ [b]).length = n + 1 := by rw [List.length_append, hlength]; rfl
  rw [loop2_string h.payload (hlength ▸ hroom) hstring]
  refine ⟨rfl, n + 1, k + 1, ?_, hplain, hfits⟩
  by_cases hquote : b = quote
  · have hnext : (Where.quoted t).next b = (.inside (t ++ [b]), none) := by
      rw [Where.next, if_pos hquote]
    have hmore := hcollected.snoc hnext hallowed
    rw [hnext, if_pos hquote]
    exact ⟨rfl, fun _ => hsnoc, by simpa using hmore⟩
  · have hnext : (Where.quoted t).next b = (.quoted (t ++ [b]), none) := by
      rw [Where.next, if_neg hquote]
    have hmore := hcollected.snoc hnext hallowed
    rw [hnext, if_neg hquote]
    exact ⟨rfl, fun _ => hsnoc, by simpa using hmore⟩

/-- The `>` that closes a command hands it to the parser, which executes what it means. -/
theorem loop2_closing (h : Collects m (.inside t) n k) (hroom : n < size - 1) :
    m.loop2 size closing = (⟨m.buffer ++ [closing], payloadFalse⟩, some (m.buffer ++ [closing])) ∧
      (parse enoughMemory (m.buffer ++ [closing] ++ [0])).executed = (meaning enoughMemory t).toList := by
  have hlength := h.length (by simp)
  rw [loop2_normal h.payload (hlength ▸ hroom), if_pos rfl]
  exact ⟨rfl, (h.collected t (.inl rfl)).close⟩

/-- Bytes that close no command go on with what they leave. -/
theorem Collects.onward (h : Collects m w n k) (hplain : Plain w n (b :: bs)) (hfits : Fits size w n k (b :: bs))
    (hopen : (w.next b).2 = none) :
    (m.loop2 size b).2 = none ∧ Onward size (m.loop2 size b).1 (w.next b).1 bs := by
  cases w with
  | outside => exact onward_outside h.payload hplain hfits
  | inside t =>
    refine onward_inside h ?_ hplain hfits
    rintro rfl
    cases hopen
  | quoted t => exact onward_quoted h hplain hfits

/-- The commands of a stream of bytes are executed, from any place of it on. -/
theorem executed_of_collects (h : Collects m w n k) (hplain : Plain w n bs) (hfits : Fits size w n k bs) :
    m.executed enoughMemory size bs = topLevel enoughMemory w bs := by
  induction bs generalizing m w n k with
  | nil => rfl
  | cons b bs ih =>
    cases hclosed : (w.next b).2 with
    | none =>
      obtain ⟨htext, n', k', hcollects, hplain', hfits'⟩ := h.onward hplain hfits hclosed
      have hstep : m.loop2 size b = ((m.loop2 size b).1, none) := Prod.ext rfl htext
      have hnext : w.next b = ((w.next b).1, none) := Prod.ext rfl hclosed
      rw [executed_cons hstep, topLevel_cons hnext, ih hcollects hplain' hfits']
      rfl
    | some t =>
      obtain ⟨rfl, rfl⟩ := next_eq_some hclosed
      obtain ⟨hstep, hexecuted⟩ := @loop2_closing enoughMemory _ _ _ _ _ h hfits.1
      have hnext : (Where.inside t).next closing = (.outside, some t) := rfl
      rw [executed_cons hstep, topLevel_cons hnext, ih (collects_outside rfl) hplain.2 hfits.2]
      congr 1
      show List.flatMap _ [m.buffer ++ [closing]] = List.filterMap _ [t]
      rw [List.flatMap_singleton, hexecuted]
      cases hmeaning : meaning enoughMemory t <;> simp [hmeaning]

/-- What is executed are the commands of the text with quotes respected: from a network client, whose
text ends at its first zero, as long as it is plain, and from a serial port as long as no `<` within a
command is in quotes or has no opcode before it, but for one directly behind the first, and the command
fits into the buffer. -/
theorem quoted_text_is_data (enoughMemory : Bool) (size : Nat) (text : List UInt8) :
    (0 ∉ text → PlainText text →
      (parse enoughMemory (text ++ [0])).executed = topLevel enoughMemory (.inside []) text) ∧
    (Plain .outside 0 text → Fits size .outside 0 0 text →
      new.executed enoughMemory size text = topLevel enoughMemory .outside text) :=
  ⟨parse_executes, executed_of_collects (collects_outside rfl)⟩

/-- `<J "x>y"><1>` -/
def jText : List UInt8 := [60, 74, 32, 34, 120, 62, 121, 34, 62, 60, 49, 62]

/-- `<<1>`, a zero and `<>` -/
def againText : List UInt8 := [60, 60, 49, 62, 0, 60, 62]

theorem quoted_text_is_data_closing :
    (parse true (jText ++ [0])).executed = topLevel true (.inside []) jText ∧
    new.executed true 64 (jText ++ againText) = topLevel true .outside (jText ++ againText) := by
  refine ⟨(quoted_text_is_data true 64 jText).1 (by decide) (by decide),
    (quoted_text_is_data true 64 (jText ++ againText)).2 ?_ ?_⟩
  · simp [jText, againText, Plain, Where.next, opening, closing, quote]
  · simp [jText, againText, Fits, Where.next, opening, closing, quote]

/-- In `<J "x<1>y">` the text in quotes switches the power on. -/
theorem quoted_text_is_executed :
    ((parse true ([60, 74, 32, 34, 120, 60, 49, 62, 121, 34, 62] ++ [0])).executed ≠
      topLevel true (.inside []) [60, 74, 32, 34, 120, 60, 49, 62, 121, 34, 62]) ∧
    new.executed true 64 [60, 74, 32, 34, 120, 60, 49, 62, 121, 34, 62] ≠
      topLevel true .outside [60, 74, 32, 34, 120, 60, 49, 62, 121, 34, 62] := by
  decide +kernel

end SerialManager

end CommandStation
