import CommandStation.Lib.Run
import CommandStation.RingStream.Basic

/-!
# Messages go through the ring

The writer fills the ring with whole messages, from `mark` to `commit`, and the reader takes whole
messages out of it. `Writing` describes the ring while a message is open: the cells that are not read
yet, followed by those of the message, or an overflow that has not touched the unread cells. `Closed`
describes it between the operations: it holds the messages that were committed and not yet read.
-/

namespace CommandStation

open CommandStation.Lib

namespace RingStream

variable (flash : Nat → UInt8) (wide : Bool)
variable {r : RingStream} {xs ys rest : List UInt8} {n : Nat} {b : UInt8} {p : Nat}

/-! ## Texts in flash memory -/

variable {flash wide} in
theorem flashText_ne_zero {fuel : Nat} : b ∈ flashText flash fuel p → b ≠ 0 := by
  induction fuel generalizing p with
  | zero => simp [flashText]
  | succ fuel ih =>
    intro hb
    unfold flashText at hb
    split at hb
    · cases hb
    · next hne =>
      cases hb with
      | head => exact hne
      | tail _ hb => exact ih hb

variable {flash wide} in
/-- A text in flash is made of the bytes of the memory. -/
theorem flashText_getElem {fuel i : Nat} (h : i < (flashText flash fuel p).length) :
    (flashText flash fuel p)[i]? = some (flash (p + i)) := by
  induction fuel generalizing p i with
  | zero => simp [flashText] at h
  | succ fuel ih =>
    unfold flashText at h ⊢
    split
    · next hzero => simp [hzero] at h
    · next hne =>
      cases i with
      | zero => rfl
      | succ i =>
        rw [if_neg hne, List.length_cons] at h
        rw [List.getElem?_cons_succ, ih (by omega)]
        congr 2
        omega

variable {flash wide} in
/-- A text that is shorter than it could be has come to its terminating zero. -/
theorem flashText_end {fuel : Nat} (h : (flashText flash fuel p).length < fuel) :
    flash (p + (flashText flash fuel p).length) = 0 := by
  induction fuel generalizing p with
  | zero => omega
  | succ fuel ih =>
    unfold flashText at h ⊢
    split
    · next hzero => simpa using hzero
    · next hne =>
      rw [if_neg hne, List.length_cons] at h
      have := ih (p := p + 1) (by omega)
      rw [List.length_cons, ← this]
      congr 1
      omega

/-! ## What is written and what is read -/

/-- The bytes that are stored for an item. -/
def Item.raw : Item → List UInt8
  | .byte b => [b]
  | .text p =>
    if wide then textP flash p
    else if textP flash p = [] then []
    else [flashInsertMarker, UInt8.ofNat p, UInt8.ofNat (p / 256)]

/-- The bytes that are read for it. -/
def Item.expand : Item → List UInt8
  | .byte b => [b]
  | .text p => textP flash p

/-- A byte is not the marker. A text ends before the end of the memory and is not at the null
address; where texts are copied into the ring, its bytes are not the marker either. -/
def Item.Valid : Item → Prop
  | .byte b => b ≠ flashInsertMarker
  | .text p =>
    if wide then flashInsertMarker ∉ textP flash p
    else p ≠ 0 ∧ p + (textP flash p).length < 65536

instance (item : Item) : Decidable (item.Valid flash wide) :=
  match item with
  | .byte b => inferInstanceAs (Decidable (b ≠ flashInsertMarker))
  | .text p => inferInstanceAs (Decidable (if wide = true then flashInsertMarker ∉ textP flash p
      else p ≠ 0 ∧ p + (textP flash p).length < 65536))

/-- A message to be sent. -/
structure Outgoing where
  client : UInt8
  items : List Item
  deriving DecidableEq, Repr

namespace Outgoing

/-- The stored bytes of the payload. -/
def raw (m : Outgoing) : List UInt8 := m.items.flatMap (Item.raw flash wide)

/-- The bytes of the payload with the texts in their place. -/
def payload (m : Outgoing) : List UInt8 := m.items.flatMap (Item.expand flash)

/-- The cells of the message in the ring. -/
def cells (m : Outgoing) : List UInt8 :=
  let n := (m.payload flash).length
  [m.client, UInt8.ofNat (n / 256), UInt8.ofNat n] ++ m.raw flash wide

/-- What the reader gets for it. -/
def message (m : Outgoing) : Message :=
  ⟨m.client, (m.payload flash).length, (m.payload flash).map some⟩

/-- The client is not the marker, nor are the bytes, and the payload is short enough for a count. -/
structure Valid (m : Outgoing) : Prop where
  client : m.client ≠ flashInsertMarker
  items : ∀ item ∈ m.items, item.Valid flash wide
  short : (m.payload flash).length < 32768

end Outgoing

/-! ## Writing -/

/-- A message is open: the cells of `xs` are unread, those of `ys` have been written since the mark
and count as `n` bytes. If they did not fit then the cells of `xs` are there still. -/
structure Writing (r : RingStream) (xs ys : List UInt8) (n : Nat) : Prop where
  unread : Holds r.len r.buffer r.posRead r.markPos xs
  fits : r.overflow = false → Holds r.len r.buffer r.posRead r.posWrite (xs ++ ys) ∧ r.counter = n
  full : r.overflow = true → r.len ≤ xs.length + ys.length

/-- What the writer leaves alone. -/
structure SameReader (r r' : RingStream) : Prop where
  len : r'.len = r.len
  posRead : r'.posRead = r.posRead
  markPos : r'.markPos = r.markPos

theorem SameReader.refl (r : RingStream) : SameReader r r := ⟨rfl, rfl, rfl⟩

theorem SameReader.trans {r r' r'' : RingStream} (h : SameReader r r') (h' : SameReader r' r'') :
    SameReader r r'' :=
  ⟨h'.len.trans h.len, h'.posRead.trans h.posRead, h'.markPos.trans h.markPos⟩

theorem sameReader_write (r : RingStream) (b : UInt8) : SameReader r (r.write b).1 := by
  unfold write
  split
  · exact .refl r
  · dsimp only
    split <;> exact ⟨rfl, rfl, rfl⟩

/-- A byte is written behind what has been written, or the writing has failed. -/
theorem writing_write (h : Writing r xs ys n) (b : UInt8) :
    Writing (r.write b).1 xs (ys ++ [b]) (n + 1) := by
  unfold write
  cases ho : r.overflow with
  | true =>
    rw [if_pos rfl]
    refine ⟨h.unread, fun hno => absurd (ho.symm.trans hno) (by decide), fun _ => ?_⟩
    have hfull := h.full ho
    rw [List.length_append]
    show r.len ≤ _
    omega
  | false =>
    obtain ⟨hholds, hcount⟩ := h.fits ho
    have hroom := hholds.room
    rw [List.length_append] at hroom
    -- the cell that is written lies behind the unread ones
    have hunread := h.unread.of_outside (k := (xs ++ ys).length) (by simp)
      (by rw [List.length_append]; exact hroom) b
    rw [← hholds.write] at hunread
    dsimp only
    by_cases hmore : (xs ++ ys).length + 1 < r.len
    · have hne := hholds.next_write_ne hmore
      rw [if_neg (by decide), if_neg hne]
      refine ⟨hunread, fun _ => ⟨?_, by rw [← hcount]⟩, fun hyes => absurd hyes (by simp)⟩
      rw [← List.append_assoc]
      exact hholds.push hmore b
    · have hlast : (xs ++ ys).length + 1 = r.len := by
        rw [List.length_append] at hmore ⊢
        omega
      have heq := hholds.next_write_eq hlast
      rw [if_neg (by decide), if_pos heq]
      refine ⟨hunread, fun hno => absurd hno (by simp), fun _ => ?_⟩
      rw [← hlast]
      simp [Nat.add_assoc]

/-- Nothing is written after an overflow. -/
theorem print_of_overflow (h : r.overflow = true) (text : List UInt8) : r.print text = r := by
  induction text with
  | nil => rfl
  | cons b text ih =>
    have hwrite : (r.write b).1 = r := by rw [write, if_pos h]
    rw [print, List.foldl_cons, hwrite]
    exact ih

theorem writing_print (h : Writing r xs ys n) (text : List UInt8) :
    Writing (r.print text) xs (ys ++ text) (n + text.length) ∧ SameReader r (r.print text) := by
  induction text generalizing r ys n with
  | nil => exact ⟨by simpa [print] using h, .refl r⟩
  | cons b text ih =>
    obtain ⟨hw, hsame⟩ := ih (writing_write h b)
    refine ⟨?_, (sameReader_write r b).trans hsame⟩
    simpa [print, Nat.add_assoc, Nat.add_comm 1] using hw

/-- An item is written with all of its bytes, or the writing has failed. -/
theorem writing_put (h : Writing r xs ys n) (item : Item) :
    Writing (r.put flash wide item) xs (ys ++ item.raw flash wide)
      (n + (item.expand flash).length) ∧ SameReader r (r.put flash wide item) := by
  cases item with
  | byte b => exact ⟨writing_write h b, sameReader_write r b⟩
  | text p =>
    simp only [put, printFlash, Item.raw, Item.expand]
    cases wide with
    | true => exact writing_print h _
    | false =>
      by_cases hempty : textP flash p = []
      · simpa [hempty] using ⟨h, SameReader.refl r⟩
      · have hlen : (textP flash p).length ≠ 0 := by simpa using hempty
        rw [if_neg (by decide), if_neg hlen, if_neg (by decide), if_neg hempty]
        obtain ⟨hw, hsame⟩ := writing_print h [flashInsertMarker, UInt8.ofNat p, UInt8.ofNat (p / 256)]
        refine ⟨⟨hw.unread, fun hno => ⟨(hw.fits hno).1, ?_⟩, hw.full⟩, hsame.len, hsame.posRead,
          hsame.markPos⟩
        have hbefore : r.overflow = false := by
          by_contra hyes
          rw [Bool.not_eq_false] at hyes
          rw [print_of_overflow hyes] at hno
          exact absurd (hyes.symm.trans hno) (by decide)
        rw [(h.fits hbefore).2]

theorem writing_puts (h : Writing r xs ys n) (items : List Item) :
    Writing (items.foldl (put flash wide) r) xs (ys ++ items.flatMap (Item.raw flash wide))
      (n + (items.flatMap (Item.expand flash)).length) ∧
    SameReader r (items.foldl (put flash wide) r) := by
  induction items generalizing r ys n with
  | nil => exact ⟨by simpa using h, .refl r⟩
  | cons item items ih =>
    obtain ⟨hput, hsame⟩ := writing_put flash wide h item
    obtain ⟨hw, hsame'⟩ := ih hput
    refine ⟨?_, hsame.trans hsame'⟩
    simpa [Nat.add_assoc] using hw

theorem writing_mark (hholds : Holds r.len r.buffer r.posRead r.posWrite xs)
    (ho : r.overflow = false) (client : UInt8) :
    Writing (r.mark client) xs [client, 0, 0] 0 ∧
    SameReader { r with markPos := r.posWrite } (r.mark client) := by
  have hstart : Writing { r with ringClient := client, markPos := r.posWrite } xs [] r.counter :=
    ⟨hholds, fun _ => ⟨by simpa using hholds, rfl⟩,
      fun hyes => absurd (hyes.symm.trans ho) (by decide)⟩
  obtain ⟨hw, hsame⟩ := writing_print hstart [client, 0, 0]
  exact ⟨⟨hw.unread, fun hno => ⟨(hw.fits hno).1, rfl⟩, hw.full⟩, hsame.len, hsame.posRead,
    hsame.markPos⟩

/-! ## Committing -/

/-- The ring between two operations: `xs` are the unread cells. -/
structure Rests (r : RingStream) (xs : List UInt8) : Prop where
  holds : Holds r.len r.buffer r.posRead r.posWrite xs
  ready : r.overflow = false
  /-- A text that was read last has come to its end. -/
  settled : r.flashInsert = 0 ∨ flash r.flashInsert = 0

/-- The message was too long: it is thrown away. -/
theorem commit_overflow (h : Writing r xs ys n) (ho : r.overflow = true) :
    r.commit.2 = false ∧ Rests flash r.commit.1 xs ∧ r.commit.1.posWrite = r.markPos ∧
    SameReader r r.commit.1 := by
  simp only [commit, ho, if_true]
  exact ⟨trivial, ⟨h.unread, rfl, .inl rfl⟩, trivial, rfl, rfl, rfl⟩

/-- There was nothing in the message. -/
theorem commit_empty (h : Writing r xs ys 0) (ho : r.overflow = false) :
    r.commit.2 = true ∧ Rests flash r.commit.1 xs := by
  simp only [commit, ho, (h.fits ho).2, if_true, Bool.false_eq_true, if_false]
  exact ⟨trivial, h.unread, rfl, .inl rfl⟩

/-- The length is written over the two bytes behind the client. -/
theorem commit_fits {client : UInt8} (h : Writing r xs ([client, 0, 0] ++ ys) n)
    (ho : r.overflow = false) (hn : n ≠ 0) :
    r.commit.2 = true ∧
    Rests flash r.commit.1 (xs ++ ([client, UInt8.ofNat (n / 256), UInt8.ofNat n] ++ ys)) := by
  obtain ⟨hholds, hcount⟩ := h.fits ho
  have hhigh : nextPos r.len r.markPos = (r.posRead + (xs.length + 1)) % r.len := h.unread.next_write
  have hlow : nextPos r.len (nextPos r.len r.markPos) = (r.posRead + (xs.length + 2)) % r.len := by
    rw [nextPos_eq_mod, hhigh, Nat.mod_add_mod, Nat.add_assoc]
    rw [hhigh]
    exact Nat.mod_lt _ (Nat.zero_lt_of_lt hholds.read)
  have hset := (hholds.set (k := xs.length + 1) (by simp) (UInt8.ofNat (n / 256))).set
    (k := xs.length + 2) (by simp) (UInt8.ofNat n)
  rw [← hhigh, ← hlow] at hset
  have hcells : ((xs ++ ([client, 0, 0] ++ ys)).set (xs.length + 1) (UInt8.ofNat (n / 256))).set
      (xs.length + 2) (UInt8.ofNat n)
      = xs ++ ([client, UInt8.ofNat (n / 256), UInt8.ofNat n] ++ ys) := by
    simp
  rw [hcells] at hset
  simp only [commit, ho, hcount, hn, Bool.false_eq_true, if_false]
  exact ⟨trivial, hset, rfl, .inl rfl⟩

/-! ## Reading -/

variable {flash wide}

theorem rests_readRawByte (h : Rests flash r (b :: xs)) :
    r.readRawByte.1 = b ∧ Rests flash r.readRawByte.2 xs :=
  ⟨h.holds.pop.1, h.holds.pop.2, rfl, h.settled⟩

theorem read_eq {fuel : Nat} (h : r.len = fuel) :
    r.read flash wide = readFrom flash wide fuel r := by rw [read, h]

/-- A ring with something in it has more than one cell. -/
theorem Rests.len_eq (h : Rests flash r (b :: xs)) : ∃ fuel, r.len = fuel + 2 := by
  have hroom := h.holds.room
  rw [List.length_cons] at hroom
  exact ⟨r.len - 2, by omega⟩

/-- The bytes of a text are read no further than its end. -/
theorem Rests.no_insert (h : Rests flash r xs) : ¬ (r.flashInsert ≠ 0 ∧ flash r.flashInsert ≠ 0) := by
  intro hin
  exact h.settled.elim hin.1 hin.2

theorem read_empty (wide : Bool) (h : Rests flash r []) :
    (r.read flash wide).1 = none ∧ Rests flash (r.read flash wide).2 [] := by
  have hempty : r.posRead = r.posWrite := h.holds.eq_iff.mpr rfl
  obtain ⟨fuel, hfuel⟩ : ∃ fuel, r.len = fuel + 1 := ⟨r.len - 1, by have := h.holds.read; omega⟩
  rw [read_eq hfuel, readFrom]
  dsimp only
  rw [if_neg h.no_insert, if_pos ⟨hempty, h.ready⟩]
  exact ⟨rfl, h.holds, h.ready, .inl rfl⟩

theorem read_byte (wide : Bool) (h : Rests flash r (b :: xs)) (hb : b ≠ flashInsertMarker) :
    (r.read flash wide).1 = some b ∧ Rests flash (r.read flash wide).2 xs := by
  have hsome : r.posRead ≠ r.posWrite := fun heq => by cases h.holds.eq_iff.mp heq
  obtain ⟨fuel, hfuel⟩ := h.len_eq
  obtain ⟨hfirst, hrest⟩ := h.holds.pop
  rw [read_eq hfuel, readFrom]
  dsimp only [readRawByte]
  rw [if_neg h.no_insert, if_neg (fun hempty => hsome hempty.1), hfirst, if_pos hb]
  exact ⟨rfl, hrest, rfl, .inl rfl⟩

/-- A byte of a text in flash memory. -/
theorem readFrom_insert {fuel : Nat} (hin : r.flashInsert ≠ 0) (hbyte : flash r.flashInsert ≠ 0) :
    readFrom flash wide (fuel + 1) r =
      (some (flash r.flashInsert), { r with flashInsert := r.flashInsert + 1 }) := by
  rw [readFrom]
  dsimp only
  rw [if_pos ⟨hin, hbyte⟩]

theorem toNat_address (hlt : p < 65536) :
    (UInt8.ofNat (p / 256)).toNat * 256 + (UInt8.ofNat p).toNat = p := by
  rw [UInt8.toNat_ofNat', UInt8.toNat_ofNat']
  omega

/-- The marker of a text is replaced by the address behind it, and the first byte is read there. -/
theorem read_marker (h : Rests flash r ([flashInsertMarker, UInt8.ofNat p, UInt8.ofNat (p / 256)] ++ xs))
    (hp : p ≠ 0) (hlt : p < 65536) (hbyte : flash p ≠ 0) :
    ∃ r' : RingStream, r.read flash false = (some (flash p), r') ∧ r'.flashInsert = p + 1 ∧
      Holds r'.len r'.buffer r'.posRead r'.posWrite xs ∧ r'.overflow = false := by
  have hsome : r.posRead ≠ r.posWrite := fun heq => by cases h.holds.eq_iff.mp heq
  obtain ⟨fuel, hfuel⟩ := h.len_eq
  obtain ⟨hmarker, hr₁⟩ := h.holds.pop
  obtain ⟨hlow, hr₂⟩ := hr₁.pop
  obtain ⟨hhigh, hr₃⟩ := hr₂.pop
  refine ⟨{ r with
    posRead := nextPos r.len (nextPos r.len (nextPos r.len r.posRead)), overflow := false
    flashInsert := p + 1 }, ?_, rfl, hr₃, rfl⟩
  rw [read_eq hfuel, readFrom]
  dsimp only [readRawByte]
  rw [if_neg h.no_insert, if_neg (fun hempty => hsome hempty.1), hmarker, if_neg (by simp),
    if_neg (by decide), hlow, hhigh, toNat_address hlt, readFrom_insert hp hbyte]

/-- The rest of a text. -/
theorem readMany_insert (wide : Bool) (text : List UInt8) {p : Nat} {r : RingStream} (hlen : 0 < r.len)
    (hin : r.flashInsert = p) (hp : p ≠ 0)
    (htext : ∀ i < text.length, text[i]? = some (flash (p + i)) ∧ flash (p + i) ≠ 0) :
    r.readMany flash wide text.length =
      (text.map some, { r with flashInsert := p + text.length }) := by
  induction text generalizing p r with
  | nil => simp [readMany, ← hin]
  | cons b text ih =>
    obtain ⟨hb, hbyte⟩ := htext 0 (by simp)
    obtain ⟨fuel, hfuel⟩ : ∃ fuel, r.len = fuel + 1 := ⟨r.len - 1, by omega⟩
    have hread : r.read flash wide = (some b, { r with flashInsert := p + 1 }) := by
      subst hin
      rw [read_eq hfuel, readFrom_insert hp hbyte]
      simpa using hb.symm
    have htail := ih (p := p + 1) (r := { r with flashInsert := p + 1 }) hlen rfl (by omega)
      (fun i hi => by
        have := htext (i + 1) (by simpa using hi)
        rw [Nat.add_assoc, Nat.add_comm 1]
        simpa using this)
    rw [List.length_cons, readMany, hread]
    dsimp only
    rw [htail, List.map_cons, Nat.add_assoc, Nat.add_comm 1]

theorem readMany_add (r : RingStream) (m n : Nat) :
    r.readMany flash wide (m + n) =
      ((r.readMany flash wide m).1 ++ ((r.readMany flash wide m).2.readMany flash wide n).1,
        ((r.readMany flash wide m).2.readMany flash wide n).2) := by
  induction m generalizing r with
  | zero => simp [readMany]
  | succ m ih =>
    rw [Nat.add_right_comm, readMany, readMany]
    dsimp only
    rw [ih, List.cons_append]

/-- The bytes of a text that was copied into the ring. -/
theorem readMany_bytes (text : List UInt8) (h : Rests flash r (text ++ rest))
    (hbytes : flashInsertMarker ∉ text) :
    (r.readMany flash wide text.length).1 = text.map some ∧
    Rests flash (r.readMany flash wide text.length).2 rest := by
  induction text generalizing r with
  | nil => exact ⟨rfl, h⟩
  | cons b text ih =>
    obtain ⟨hfirst, hnext⟩ := read_byte wide h (fun heq => hbytes (by simp [heq]))
    obtain ⟨htail, hrest⟩ := ih hnext (fun hmem => hbytes (by simp [hmem]))
    rw [List.length_cons, readMany]
    exact ⟨by rw [List.map_cons, ← hfirst, ← htail], hrest⟩

/-- A text in flash is read as its characters. -/
theorem readMany_text (h : Rests flash r ((Item.text p).raw flash false ++ rest))
    (hv : (Item.text p).Valid flash false) :
    (r.readMany flash false (textP flash p).length).1 = (textP flash p).map some ∧
    Rests flash (r.readMany flash false (textP flash p).length).2 rest := by
  simp only [Item.Valid, Bool.false_eq_true, if_false] at hv
  obtain ⟨hp, hfits⟩ := hv
  have hchar : ∀ i < (textP flash p).length, (textP flash p)[i]? = some (flash (p + i)) ∧
      flash (p + i) ≠ 0 := by
    intro i hi
    have hget := flashText_getElem hi
    exact ⟨hget, flashText_ne_zero (List.mem_of_getElem? hget)⟩
  have hend : flash (p + (textP flash p).length) = 0 := flashText_end (by unfold textP at hfits; omega)
  simp only [Item.raw, Bool.false_eq_true, if_false] at h
  cases htext : textP flash p with
  | nil =>
    rw [htext, if_pos rfl] at h
    exact ⟨rfl, h⟩
  | cons b text =>
    rw [htext, if_neg (by simp)] at h
    rw [htext] at hchar hend hfits
    obtain ⟨hb, hbyte⟩ := hchar 0 (by simp)
    rw [List.length_cons] at hfits hend
    obtain ⟨r', hread, hin, hholds, ho⟩ := read_marker h hp (by omega) hbyte
    have hmany := readMany_insert false text (Nat.zero_lt_of_lt hholds.read) hin
      (by omega) (fun i hi => by
        have := hchar (i + 1) (by simpa using hi)
        rw [Nat.add_assoc, Nat.add_comm 1]
        simpa using this)
    rw [List.length_cons, readMany, hread]
    dsimp only
    rw [hmany]
    refine ⟨?_, hholds, ho, .inr ?_⟩
    · have hfirst : b = flash p := by simpa using hb
      rw [List.map_cons, hfirst]
    · rw [← hend]
      congr 1
      dsimp only
      omega

theorem readMany_item {item : Item} (h : Rests flash r (item.raw flash wide ++ rest))
    (hv : item.Valid flash wide) :
    (r.readMany flash wide (item.expand flash).length).1 = (item.expand flash).map some ∧
    Rests flash (r.readMany flash wide (item.expand flash).length).2 rest := by
  cases item with
  | byte b => exact readMany_bytes [b] h (by simpa using fun heq => hv heq.symm)
  | text p =>
    cases wide with
    | true =>
      have hmarker : flashInsertMarker ∉ textP flash p := by simpa [Item.Valid] using hv
      exact readMany_bytes (textP flash p) (by simpa [Item.raw] using h) hmarker
    | false => exact readMany_text h hv

theorem readMany_items {items : List Item}
    (h : Rests flash r (items.flatMap (Item.raw flash wide) ++ rest))
    (hv : ∀ item ∈ items, item.Valid flash wide) :
    (r.readMany flash wide (items.flatMap (Item.expand flash)).length).1 =
      (items.flatMap (Item.expand flash)).map some ∧
    Rests flash (r.readMany flash wide (items.flatMap (Item.expand flash)).length).2 rest := by
  induction items generalizing r with
  | nil => exact ⟨rfl, h⟩
  | cons item items ih =>
    rw [List.flatMap_cons, List.append_assoc] at h
    obtain ⟨hfirst, hnext⟩ := readMany_item h (hv item (by simp))
    obtain ⟨htail, hrest⟩ := ih hnext (fun i hi => hv i (by simp [hi]))
    rw [List.flatMap_cons, List.length_append, readMany_add, hfirst, htail, List.map_append]
    exact ⟨rfl, hrest⟩

/-! ## The ring between two operations -/

/-- The ring holds these messages. -/
structure Closed (flash : Nat → UInt8) (wide : Bool) (r : RingStream) (pending : List Outgoing) :
    Prop where
  rests : Rests flash r (pending.flatMap (Outgoing.cells flash wide))
  valid : ∀ m ∈ pending, m.Valid flash wide
  nonempty : ∀ m ∈ pending, m.payload flash ≠ []

theorem Closed.unread {pending : List Outgoing} (h : Closed flash wide r pending) :
    Holds r.len r.buffer r.posRead r.posWrite (pending.flatMap (Outgoing.cells flash wide)) :=
  h.rests.holds

theorem receive_nil (h : Closed flash wide r []) :
    (r.receive flash wide).1 = none ∧ Closed flash wide (r.receive flash wide).2 [] := by
  obtain ⟨hnone, hrests⟩ := read_empty wide h.rests
  rw [receive]
  split
  · next r' hread =>
    rw [hread] at hrests
    exact ⟨rfl, hrests, by simp, by simp⟩
  · next client r' hread =>
    rw [hread] at hnone
    cases hnone

theorem count_spec {k : Nat} (h : Rests flash r ([UInt8.ofNat (k / 256), UInt8.ofNat k] ++ xs))
    (hk : k < 65536) : r.count.1 = k ∧ Rests flash r.count.2 xs := by
  obtain ⟨hhigh, hr₁⟩ := rests_readRawByte h
  obtain ⟨hlow, hr₂⟩ := rests_readRawByte hr₁
  refine ⟨?_, hr₂⟩
  show r.readRawByte.1.toNat * 256 + r.readRawByte.2.readRawByte.1.toNat = k
  rw [hhigh, hlow, toNat_address hk]

/-- The first of the messages is read. -/
theorem receive_cons {m : Outgoing} {pending : List Outgoing} (h : Closed flash wide r (m :: pending)) :
    (r.receive flash wide).1 = some (m.message flash) ∧
    Closed flash wide (r.receive flash wide).2 pending := by
  have hv := h.valid m (by simp)
  have hcells := h.rests
  rw [List.flatMap_cons, Outgoing.cells, List.append_assoc] at hcells
  obtain ⟨hclient, hr₁⟩ := read_byte wide hcells hv.client
  obtain ⟨hcount, hr₂⟩ := count_spec hr₁ (by have := hv.short; omega)
  obtain ⟨hbytes, hr₃⟩ := readMany_items hr₂ hv.items
  rw [receive]
  split
  · next r' hread =>
    rw [hread] at hclient
    cases hclient
  · next client r' hread =>
    rw [hread] at hclient hcount hbytes hr₃
    have hsame : client = m.client := Option.some.inj hclient
    dsimp only at hcount hbytes hr₃ ⊢
    rw [hcount]
    refine ⟨?_, hr₃, fun m' hm' => h.valid m' (by simp [hm']),
      fun m' hm' => h.nonempty m' (by simp [hm'])⟩
    rw [hsame, Outgoing.message]
    congr 2

/-- The number of cells between the positions. -/
def used (r : RingStream) : Nat := (r.posWrite + r.len - r.posRead) % r.len

theorem used_eq (h : Holds r.len r.buffer r.posRead r.posWrite xs) : r.used = xs.length := by
  have hread := h.read
  have hroom := h.room
  rw [used, h.write]
  by_cases hwrap : r.posRead + xs.length < r.len
  · rw [Nat.mod_eq_of_lt hwrap, show r.posRead + xs.length + r.len - r.posRead = xs.length + r.len by
      omega, Nat.add_mod_right, Nat.mod_eq_of_lt hroom]
  · have hmod : (r.posRead + xs.length) % r.len = r.posRead + xs.length - r.len := by
      rw [Nat.mod_eq_sub_mod (by omega), Nat.mod_eq_of_lt (by omega)]
    rw [hmod, show r.posRead + xs.length - r.len + r.len - r.posRead = xs.length by omega,
      Nat.mod_eq_of_lt hroom]

/-- The unread cells are the same, at the same positions. -/
structure SameUnread (r r' : RingStream) : Prop where
  posWrite : r'.posWrite = r.posWrite
  posRead : r'.posRead = r.posRead
  cells : ∀ i < r.used, r'.buffer ((r.posRead + i) % r.len) = r.buffer ((r.posRead + i) % r.len)

/-- While a message is written the cells that were unread stay. -/
theorem send_writing {pending : List Outgoing} (h : Closed flash wide r pending) (m : Outgoing) :
    Writing (m.items.foldl (put flash wide) (r.mark m.client))
      (pending.flatMap (Outgoing.cells flash wide)) ([m.client, 0, 0] ++ m.raw flash wide)
      (m.payload flash).length ∧
    SameReader { r with markPos := r.posWrite } (m.items.foldl (put flash wide) (r.mark m.client)) := by
  obtain ⟨hmark, hsame⟩ := writing_mark h.unread h.rests.ready m.client
  obtain ⟨hw, hsame'⟩ := writing_puts flash wide hmark m.items
  rw [Nat.zero_add] at hw
  exact ⟨hw, hsame.trans hsame'⟩

/-- A message is accepted if and only if there is room for it. One that is not accepted leaves the
ring as it was; one that is accepted is the last of the messages there, unless it was empty. -/
theorem send_spec {pending : List Outgoing} (h : Closed flash wide r pending) {m : Outgoing}
    (hv : m.Valid flash wide) :
    ((r.send flash wide m.client m.items).2 = false ↔
      r.len ≤ r.used + (3 + (m.raw flash wide).length)) ∧
    ((r.send flash wide m.client m.items).2 = false →
      Closed flash wide (r.send flash wide m.client m.items).1 pending ∧
      SameUnread r (r.send flash wide m.client m.items).1) ∧
    ((r.send flash wide m.client m.items).2 = true →
      Closed flash wide (r.send flash wide m.client m.items).1
        (pending ++ if m.payload flash = [] then [] else [m])) := by
  obtain ⟨hw, hsame⟩ := send_writing h m
  have hlen := hsame.len
  have hused := used_eq h.unread
  rw [send]
  generalize m.items.foldl (put flash wide) (r.mark m.client) = w at hw hsame hlen ⊢
  -- either the writing has run over the unread cells, or all of the message fits
  cases ho : w.overflow with
  | true =>
    obtain ⟨hfalse, hrests, hpos, hsame'⟩ := commit_overflow flash hw ho
    have hfull := hw.full ho
    rw [hlen, List.length_append] at hfull
    have hread : w.commit.1.posRead = r.posRead := hsame'.posRead.trans hsame.posRead
    have hlen' : w.commit.1.len = r.len := hsame'.len.trans hsame.len
    refine ⟨⟨fun _ => ?_, fun _ => hfalse⟩, fun _ => ⟨⟨hrests, h.valid, h.nonempty⟩, ?_⟩, fun htrue => ?_⟩
    · rw [hused]
      simpa using hfull
    · refine ⟨hpos.trans hsame.markPos, hread, fun i hi => ?_⟩
      rw [hused] at hi
      have hcell := hrests.holds.cells i hi
      rw [h.unread.cells i hi, hread, hlen'] at hcell
      exact (Option.some.inj hcell).symm
    · rw [hfalse] at htrue
      cases htrue
  | false =>
    have hroom := (hw.fits ho).1.room
    rw [hlen, List.length_append, List.length_append, ← hused] at hroom
    have hnot : ¬ r.len ≤ r.used + (3 + (m.raw flash wide).length) := by simpa using hroom
    -- an empty message is accepted, but `commit` takes it back
    by_cases hempty : m.payload flash = []
    · rw [hempty, List.length_nil] at hw
      obtain ⟨htrue, hrests⟩ := commit_empty flash hw ho
      rw [htrue, if_pos hempty, List.append_nil]
      exact ⟨⟨(fun hf => by cases hf), fun hle => absurd hle hnot⟩, (fun hf => by cases hf),
        fun _ => ⟨hrests, h.valid, h.nonempty⟩⟩
    · obtain ⟨htrue, hrests⟩ := commit_fits flash hw ho (by simpa using hempty)
      rw [htrue, if_neg hempty]
      refine ⟨⟨(fun hf => by cases hf), fun hle => absurd hle hnot⟩, (fun hf => by cases hf),
        fun _ => ⟨?_, ?_, ?_⟩⟩
      · rw [List.flatMap_append, List.flatMap_singleton]
        exact hrests
      · intro m' hm'
        rw [List.mem_append, List.mem_singleton] at hm'
        exact hm'.elim (h.valid m') (fun heq => heq ▸ hv)
      · intro m' hm'
        rw [List.mem_append, List.mem_singleton] at hm'
        exact hm'.elim (h.nonempty m') (fun heq => heq ▸ hempty)

/-! ## Messages of raw bytes -/

/-- The cells of a message. -/
def rawCells (client : UInt8) (bytes : List UInt8) : List UInt8 :=
  [client, UInt8.ofNat (bytes.length / 256), UInt8.ofNat bytes.length] ++ bytes

variable (flash) in
/-- Bytes that are not looked at are committed if there is room for them. -/
theorem commit_raw (h : Rests flash r xs) (client : UInt8) (bytes : List UInt8) :
    Rests flash ((r.mark client).print bytes).commit.1
      (if bytes ≠ [] ∧ xs.length + 3 + bytes.length < r.len then xs ++ rawCells client bytes else xs) := by
  obtain ⟨hmark, hsame⟩ := writing_mark h.holds h.ready client
  obtain ⟨hw, hsame'⟩ := writing_print hmark bytes
  have hlen : ((r.mark client).print bytes).len = r.len := hsame'.len.trans hsame.len
  rw [Nat.zero_add] at hw
  cases ho : ((r.mark client).print bytes).overflow with
  | true =>
    have hfull := hw.full ho
    rw [hlen, List.length_append] at hfull
    rw [if_neg (fun hfits => by have := hfits.2; simp at hfull; omega)]
    exact (commit_overflow flash hw ho).2.1
  | false =>
    by_cases hempty : bytes = []
    · rw [if_neg (fun hfits => hfits.1 hempty)]
      rw [hempty, List.length_nil] at hw
      rw [hempty] at ho
      rw [hempty]
      exact (commit_empty flash hw ho).2
    · have hroom := (hw.fits ho).1.room
      rw [hlen, List.length_append, List.length_append] at hroom
      rw [if_pos ⟨hempty, by simp at hroom; omega⟩]
      exact (commit_fits flash hw ho (by simpa using hempty)).2

theorem Rests.length_unique (h : Rests flash r xs) (h' : Rests flash r ys) : xs.length = ys.length := by
  have hmod := h.holds.write.symm.trans h'.holds.write
  exact offset_inj h.holds.room h'.holds.room hmod

theorem Rests.used_eq (h : Rests flash r xs) : r.used = xs.length := RingStream.used_eq h.holds

theorem freeSpace_eq (h : Holds r.len r.buffer r.posRead r.posWrite xs) :
    r.freeSpace = (r.len : Int) - xs.length - 3 := by
  have hread := h.read
  have hroom := h.room
  have hwrite := h.write
  by_cases hwrap : r.posRead + xs.length < r.len
  · rw [Nat.mod_eq_of_lt hwrap] at hwrite
    rw [freeSpace, if_neg (by omega)]
    omega
  · rw [Nat.mod_eq_sub_mod (by omega), Nat.mod_eq_of_lt (by omega)] at hwrite
    rw [freeSpace, if_pos (by omega)]
    omega

theorem Rests.freeSpace_eq (h : Rests flash r xs) : r.freeSpace = (r.len : Int) - xs.length - 3 :=
  RingStream.freeSpace_eq h.holds

/-! ## Writers and readers in turn -/

/-- What is done with the ring. -/
inductive Event where
  | send (m : Outgoing)
  | receive
  deriving DecidableEq, Repr

/-- The ring with the messages that were committed, if there was something in them, and those that the
reader has got. -/
structure Log where
  ring : RingStream
  sent : List Message
  got : List Message

namespace Log

variable (flash wide) in
def step (l : Log) : Event → Log
  | .send m =>
    let (ring, done) := l.ring.send flash wide m.client m.items
    { l with
      ring := ring
      sent := if done ∧ m.payload flash ≠ [] then l.sent ++ [m.message flash] else l.sent }
  | .receive =>
    let (msg, ring) := l.ring.receive flash wide
    { l with ring := ring, got := l.got ++ msg.toList }

/-- What was sent and not got is in the ring. -/
def Inv (flash : Nat → UInt8) (wide : Bool) (l : Log) : Prop :=
  ∃ pending : List Outgoing, Closed flash wide l.ring pending ∧
    l.sent = l.got ++ pending.map (Outgoing.message flash)

theorem inv_send {l : Log} (h : l.Inv flash wide) {m : Outgoing} (hv : m.Valid flash wide) :
    (l.step flash wide (.send m)).Inv flash wide := by
  obtain ⟨pending, hclosed, hsent⟩ := h
  obtain ⟨-, hno, hyes⟩ := send_spec hclosed hv
  simp only [step]
  cases hdone : (l.ring.send flash wide m.client m.items).2 with
  | false => exact ⟨pending, (hno hdone).1, by simpa using hsent⟩
  | true =>
    refine ⟨_, hyes hdone, ?_⟩
    by_cases hempty : m.payload flash = []
    · simpa [hempty] using hsent
    · simp [hempty, hsent]

theorem inv_receive {l : Log} (h : l.Inv flash wide) : (l.step flash wide .receive).Inv flash wide := by
  obtain ⟨pending, hclosed, hsent⟩ := h
  simp only [step]
  cases pending with
  | nil =>
    obtain ⟨hnone, hclosed'⟩ := receive_nil hclosed
    exact ⟨[], hclosed', by simpa [hnone] using hsent⟩
  | cons m pending =>
    obtain ⟨hsome, hclosed'⟩ := receive_cons hclosed
    exact ⟨pending, hclosed', by simpa [hsome] using hsent⟩

theorem inv_run_events {l : Log} (h : l.Inv flash wide) {es : List Event}
    (hv : ∀ m, Event.send m ∈ es → m.Valid flash wide) : (run (step flash wide) l es).Inv flash wide := by
  induction es generalizing l with
  | nil => exact h
  | cons e es ih =>
    have htail : ∀ m, Event.send m ∈ es → m.Valid flash wide := fun m hm => hv m (by simp [hm])
    cases e with
    | send m => exact ih (inv_send h (hv m (by simp))) htail
    | receive => exact ih (inv_receive h) htail

/-- The reader gets what is left if it goes on reading. -/
theorem drained {l : Log} {pending : List Outgoing} (hclosed : Closed flash wide l.ring pending) :
    (run (step flash wide) l (List.replicate pending.length .receive)).got =
      l.got ++ pending.map (Outgoing.message flash) := by
  induction pending generalizing l with
  | nil => simp
  | cons m pending ih =>
    obtain ⟨hsome, hclosed'⟩ := receive_cons hclosed
    rw [List.length_cons, List.replicate_succ, run_cons]
    have hgot := ih (l := l.step flash wide .receive) hclosed'
    rw [hgot]
    simp [step, hsome]

end Log

/-- **Messages go through the ring.** The reader gets the messages that were committed and are not
empty, all of them and in order; what it has not got yet it will get if it goes on. A message that
does not fit is refused, and the write position and the unread cells are as they were. A message is
written as one event, from `mark` to `commit`: no reader runs while it is open, as it would find a
client without a length. -/
theorem messages_go_through (r : RingStream) (hstart : r.posRead = r.posWrite)
    (hpos : r.posRead < r.len) (hready : r.overflow = false) (hinsert : r.flashInsert = 0)
    (es : List Event) (hvalid : ∀ m, Event.send m ∈ es → m.Valid flash wide) :
    let l := run (Log.step flash wide) ⟨r, [], []⟩ es
    (∃ unread, l.sent = l.got ++ unread ∧ (l.ring.receive flash wide).1 = unread.head? ∧
      (run (Log.step flash wide) l (List.replicate unread.length .receive)).got = l.sent) ∧
    ∀ m : Outgoing, m.Valid flash wide →
      let sent := l.ring.send flash wide m.client m.items
      (sent.2 = false ↔ l.ring.len ≤ l.ring.used + (3 + (m.raw flash wide).length)) ∧
      (sent.2 = false → SameUnread l.ring sent.1) := by
  intro l
  have hbegin : Closed flash wide r [] :=
    ⟨⟨by rw [← hstart]; exact Holds.nil hpos, hready, .inl hinsert⟩, by simp, by simp⟩
  obtain ⟨pending, hclosed, hsent⟩ : l.Inv flash wide :=
    Log.inv_run_events ⟨[], hbegin, rfl⟩ hvalid
  refine ⟨⟨pending.map (Outgoing.message flash), hsent, ?_, ?_⟩, fun m hm => ?_⟩
  · cases hp : pending with
    | nil =>
      rw [hp] at hclosed
      exact (receive_nil hclosed).1
    | cons m rest =>
      rw [hp] at hclosed
      exact (receive_cons hclosed).1
  · rw [List.length_map, Log.drained hclosed, hsent]
  · obtain ⟨hfull, hrefused, -⟩ := send_spec hclosed hm
    exact ⟨hfull, fun hno => (hrefused hno).2⟩

/-- A ring of 16 cells whose positions are near its end, with a text of two bytes in flash memory at
address 300. The third message is refused, the second is read across the end of the ring. -/
theorem messages_go_through_wrapped :
    let flash : Nat → UInt8 := fun p => if p = 300 then 60 else if p = 301 then 35 else 0
    let r : RingStream := { new 16 with posRead := 13, posWrite := 13 }
    let es : List Event := [.send ⟨1, [.byte 65]⟩, .receive, .send ⟨2, [.text 300, .byte 62]⟩,
      .send ⟨3, [.byte 1, .byte 2, .byte 3, .byte 4, .byte 5, .byte 6]⟩, .receive]
    let l := run (Log.step flash false) ⟨r, [], []⟩ es
    l.sent = [⟨1, 1, [some 65]⟩, ⟨2, 3, [some 60, some 35, some 62]⟩] ∧ l.got = l.sent ∧
    ∃ unread, l.sent = l.got ++ unread ∧ (l.ring.receive flash false).1 = unread.head? ∧
      (run (Log.step flash false) l (List.replicate unread.length .receive)).got = l.sent := by
  intro flash r es l
  refine ⟨by decide +kernel, by decide +kernel, ?_⟩
  refine (messages_go_through r rfl (by decide) rfl rfl es fun m hm => ?_).1
  simp only [es, List.mem_cons, Event.send.injEq, List.not_mem_nil, or_false, false_or,
    reduceCtorEq] at hm
  rcases hm with rfl | rfl | rfl <;> exact ⟨by decide, by decide +kernel, by decide +kernel⟩

end RingStream

end CommandStation
