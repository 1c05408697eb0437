import Mathlib.Data.List.Basic

/-!
# Frames on a line

A frame is a preamble of ones followed by a zero and eight bits for every byte. Nothing else marks
where a frame ends: the bit after its last byte, where a further byte would start with a zero, is the
first one of the next preamble. `Parses` reads a stream in this way, and `Parses.comparable` says
that it can be read in one way only.
-/

namespace CommandStation.Lib

/-- What holds of all 256 bytes. -/
theorem byte_forall {P : UInt8 → Prop} (h : ∀ n : Fin 256, P ⟨⟨n⟩⟩) : ∀ b, P b
  | ⟨⟨n⟩⟩ => h n

/-- The high byte of a word. -/
theorem toNat_highByte (u : UInt16) : (u >>> 8).toUInt8.toNat = u.toNat / 256 := by
  have hu := u.toNat_lt
  simp only [UInt16.toNat_toUInt8, UInt16.toNat_shiftRight, UInt16.reduceToNat,
    Nat.shiftRight_eq_div_pow, Nat.reduceMod, Nat.reducePow]
  omega

/-- The bits of a byte, the highest first. -/
def byteBits (b : UInt8) : List Bool := (List.range 8).map fun i => b.toBitVec.getLsbD (7 - i)

/-- Every byte is sent as a zero and its bits. -/
def dataBits (bytes : List UInt8) : List Bool := bytes.flatMap fun b => false :: byteBits b

/-- The XOR of all bytes. -/
def xorSum (bytes : List UInt8) : UInt8 := bytes.foldl (· ^^^ ·) 0

structure Frame where
  preamble : Nat
  bytes : List UInt8
  deriving DecidableEq, Repr

namespace Frame

def bits (f : Frame) : List Bool := List.replicate f.preamble true ++ dataBits f.bytes

end Frame

/-- The bits of several frames. -/
def lineBits (fs : List Frame) : List Bool := fs.flatMap Frame.bits

/-- The stream starts with these frames, each with a preamble of at least `n` ones and some bytes, and
the last one is over. -/
def Parses (n : Nat) (bits : List Bool) (fs : List Frame) : Prop :=
  (∀ f ∈ fs, n ≤ f.preamble ∧ f.bytes ≠ []) ∧ lineBits fs ++ [true] <+: bits

/-! ## Bytes -/

@[simp] theorem length_byteBits (b : UInt8) : (byteBits b).length = 8 := by
  simp [byteBits]

theorem byteBits_inj {b b' : UInt8} (h : byteBits b = byteBits b') : b = b' := by
  apply UInt8.toBitVec_inj.mp
  apply BitVec.eq_of_getLsbD_eq
  intro i hi
  have hget := congrArg (fun l => l[7 - i]?) h
  simp only [byteBits, List.getElem?_map, List.getElem?_range (show 7 - i < 8 by omega),
    Option.map_some, Option.some.injEq, show 7 - (7 - i) = i by omega] at hget
  exact hget

@[simp] theorem dataBits_nil : dataBits [] = [] := rfl

@[simp] theorem dataBits_cons (b : UInt8) (bytes : List UInt8) :
    dataBits (b :: bytes) = false :: (byteBits b ++ dataBits bytes) := by
  simp [dataBits]

@[simp] theorem dataBits_append (bytes bytes' : List UInt8) :
    dataBits (bytes ++ bytes') = dataBits bytes ++ dataBits bytes' := by
  simp [dataBits]

@[simp] theorem length_dataBits (bytes : List UInt8) :
    (dataBits bytes).length = 9 * bytes.length := by
  induction bytes with
  | nil => rfl
  | cons b bytes ih =>
    simp [ih]
    omega

/-- A list is filled from the front. -/
theorem take_set_succ {α : Type} {l : List α} {b : Nat} (hb : b < l.length) (x : α) :
    (l.set b x).take (b + 1) = l.take b ++ [x] := by
  rw [List.take_add_one, List.take_set_of_le (Nat.le_refl b), List.getElem?_set_self hb]
  rfl

/-- The pieces of a list that is put together from pieces of one length. -/
theorem getElem?_flatMap_of_length {α β : Type} {g : α → List β} {m : Nat}
    (hg : ∀ a, (g a).length = m) {l : List α} {i k : Nat} (hk : k < m) :
    (l.flatMap g)[m * i + k]? = l[i]?.bind fun a => (g a)[k]? := by
  induction l generalizing i with
  | nil => simp
  | cons a l ih =>
    rw [List.flatMap_cons]
    cases i with
    | zero =>
      rw [List.getElem?_append_left (by rw [hg]; omega)]
      simp
    | succ i =>
      rw [List.getElem?_append_right (by rw [hg, Nat.mul_succ]; omega), List.getElem?_cons_succ,
        ← ih, hg]
      congr 1
      rw [Nat.mul_succ]
      omega

/-- The bit that is `k` bits into byte `i`. -/
theorem getElem?_dataBits {bytes : List UInt8} {i k : Nat} (hk : k < 9) :
    (dataBits bytes)[9 * i + k]? = bytes[i]?.bind fun b => (false :: byteBits b)[k]? :=
  getElem?_flatMap_of_length (fun _ => by simp) hk

@[simp] theorem lineBits_append (fs gs : List Frame) :
    lineBits (fs ++ gs) = lineBits fs ++ lineBits gs := by
  simp [lineBits]

/-! ## A stream is read in one way -/

/-- The bytes go on as long as a zero follows. -/
theorem dataBits_append_true {bytes bytes' : List UInt8} {r r' : List Bool}
    (h : dataBits bytes ++ true :: r = dataBits bytes' ++ true :: r') :
    bytes = bytes' ∧ r = r' := by
  induction bytes generalizing bytes' with
  | nil =>
    cases bytes' with
    | nil => simpa using h
    | cons b' bytes' => simp at h
  | cons b bytes ih =>
    cases bytes' with
    | nil => simp at h
    | cons b' bytes' =>
      simp only [dataBits_cons, List.cons_append, List.cons.injEq, List.append_assoc,
        true_and] at h
      obtain ⟨hbits, hrest⟩ := List.append_inj h (by simp)
      obtain ⟨rfl, rfl⟩ := ih hrest
      exact ⟨by rw [byteBits_inj hbits], rfl⟩

/-- The preamble is as long as there are ones. -/
theorem replicate_append_false {m n : Nat} {r r' : List Bool}
    (h : List.replicate m true ++ false :: r = List.replicate n true ++ false :: r') :
    m = n ∧ r = r' := by
  induction m generalizing n with
  | zero =>
    cases n with
    | zero => simpa using h
    | succ n => simp [List.replicate_succ] at h
  | succ m ih =>
    cases n with
    | zero => simp [List.replicate_succ] at h
    | succ n =>
      simp only [List.replicate_succ, List.cons_append, List.cons.injEq, true_and] at h
      obtain ⟨rfl, hr⟩ := ih h
      exact ⟨rfl, hr⟩

theorem Frame.bits_append_true {f g : Frame} {r r' : List Bool} (hf : f.bytes ≠ [])
    (hg : g.bytes ≠ []) (h : f.bits ++ true :: r = g.bits ++ true :: r') : f = g ∧ r = r' := by
  obtain ⟨m, bytes⟩ := f
  obtain ⟨n, bytes'⟩ := g
  obtain ⟨b, bytes, rfl⟩ := List.exists_cons_of_ne_nil hf
  obtain ⟨b', bytes', rfl⟩ := List.exists_cons_of_ne_nil hg
  simp only [Frame.bits, dataBits_cons, List.append_assoc, List.cons_append] at h
  obtain ⟨rfl, hrest⟩ := replicate_append_false h
  have hdata : dataBits (b :: bytes) ++ true :: r = dataBits (b' :: bytes') ++ true :: r' := by
    simp [hrest]
  obtain ⟨hbytes, rfl⟩ := dataBits_append_true hdata
  exact ⟨by rw [hbytes], rfl⟩

/-- After a frame comes a one: the stop bit. -/
theorem Parses.cons_inv {n : Nat} (hn : 0 < n) {bits : List Bool} {f : Frame} {fs : List Frame}
    (h : Parses n bits (f :: fs)) :
    ∃ r, bits = f.bits ++ true :: r ∧ Parses n (true :: r) fs := by
  obtain ⟨hall, rest, hrest⟩ := h
  have htail : ∃ r, lineBits fs ++ [true] ++ rest = true :: r := by
    cases fs with
    | nil => exact ⟨rest, rfl⟩
    | cons g gs =>
      have hg := (hall g (by simp)).1
      obtain ⟨m, hm⟩ : ∃ m, g.preamble = m + 1 := ⟨g.preamble - 1, by omega⟩
      refine ⟨List.replicate m true ++ dataBits g.bytes ++ lineBits gs ++ [true] ++ rest, ?_⟩
      simp [lineBits, Frame.bits, hm, List.replicate_succ]
  obtain ⟨r, hr⟩ := htail
  refine ⟨r, ?_, fun g hg => hall g (List.mem_cons_of_mem f hg), rest, hr⟩
  rw [← hr, ← hrest]
  simp [lineBits]

/-- **A stream is read in one way**: of two readings one goes on where the other one stops. -/
theorem Parses.comparable {n : Nat} (hn : 0 < n) {bits : List Bool} {fs gs : List Frame}
    (hfs : Parses n bits fs) (hgs : Parses n bits gs) : fs <+: gs ∨ gs <+: fs := by
  induction fs generalizing gs bits with
  | nil => exact .inl List.nil_prefix
  | cons f fs ih =>
    cases gs with
    | nil => exact .inr List.nil_prefix
    | cons g gs =>
      have hf := (hfs.1 f List.mem_cons_self).2
      have hg := (hgs.1 g List.mem_cons_self).2
      obtain ⟨r, hbits, hrest⟩ := hfs.cons_inv hn
      obtain ⟨r', hbits', hrest'⟩ := hgs.cons_inv hn
      obtain ⟨rfl, rfl⟩ := Frame.bits_append_true hf hg (hbits.symm.trans hbits')
      apply Or.imp _ _ (ih hrest hrest')
      · exact fun hle => (List.prefix_cons_inj f).mpr hle
      · exact fun hle => (List.prefix_cons_inj f).mpr hle

/-- A stream that stops within frame `f` has no other frames than those before `f`. -/
theorem Parses.before {n : Nat} (hn : 0 < n) {bits tail : List Bool} {fs gs : List Frame}
    {f : Frame} (hfs : ∀ g ∈ fs ++ [f], n ≤ g.preamble ∧ g.bytes ≠ [])
    (hbits : bits = lineBits fs ++ tail) (htail : tail <+: f.bits)
    (hgs : Parses n bits gs) : gs <+: fs := by
  -- the stream as it goes on after `f`
  have hext : bits <+: lineBits (fs ++ [f]) ++ [true] := by
    obtain ⟨rest, hrest⟩ := htail
    refine ⟨rest ++ [true], ?_⟩
    simp [hbits, lineBits, ← hrest]
  have hlength : bits.length ≤ (lineBits (fs ++ [f])).length := by
    simpa [hbits, lineBits] using htail.length_le
  have hcompare := Parses.comparable hn ⟨hgs.1, hgs.2.trans hext⟩ ⟨hfs, List.prefix_rfl⟩
  -- `f` itself is not over
  have hshort : ¬ fs ++ [f] <+: gs := by
    rintro ⟨rest, rfl⟩
    have hover := hgs.2.length_le
    rw [lineBits_append (fs ++ [f]) rest] at hover
    simp only [List.length_append, List.length_singleton] at hover
    omega
  rcases hcompare with hle | hle
  · rcases List.prefix_concat_iff.mp hle with heq | hle
    · rw [heq] at hshort
      exact absurd List.prefix_rfl hshort
    · exact hle
  · exact absurd hle hshort

end CommandStation.Lib
