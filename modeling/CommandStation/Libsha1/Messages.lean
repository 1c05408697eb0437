import CommandStation.Libsha1.Spec

/-!
# Messages in pieces

What `SHA1Update` keeps between two calls is the message so far: its whole blocks are in the state, the
rest of it is in the buffer, and the count is its length. `SHA1Final` puts the padding of the standard
after it.
-/

namespace CommandStation.Libsha1

open CommandStation.Lib

/-- The context stands for a message. -/
structure Represents (message : List UInt8) (context : Context) : Prop where
  state : context.state = (absorb 64 Sha1.compress Sha1.Words.initial message).1
  rest : context.buffer.take (message.length % 64) =
    (absorb 64 Sha1.compress Sha1.Words.initial message).2
  room : context.buffer.length = 64
  count0 : context.count0 = UInt32.ofNat (8 * message.length)
  count1 : context.count1 = UInt32.ofNat (8 * message.length / 2 ^ 32)

theorem represents_init {context : Context} (h : context.buffer.length = 64) :
    Represents [] (init context) := by
  have hnil : absorb 64 Sha1.compress Sha1.Words.initial ([] : List UInt8) = (Sha1.Words.initial, []) :=
    absorb_of_lt (by decide)
  exact ⟨by rw [hnil]; rfl, by simp [hnil], h, rfl, rfl⟩

/-! ## The count -/

/-- The place in the block. -/
theorem place_toNat (n : Nat) :
    ((UInt32.ofNat (8 * n) >>> (3 : UInt32)) &&& (63 : UInt32)).toNat = n % 64 := by
  have hand : (8 * n % 2 ^ 32) / 2 ^ 3 &&& 63 = (8 * n % 2 ^ 32) / 2 ^ 3 % 2 ^ 6 :=
    Nat.and_two_pow_sub_one_eq_mod _ 6
  have hshift : (UInt32.ofNat (8 * n) >>> (3 : UInt32)).toNat = (8 * n % 2 ^ 32) / 2 ^ 3 := by
    simp [Nat.shiftRight_eq_div_pow]
  rw [UInt32.toNat_and, hshift, show (63 : UInt32).toNat = 63 from rfl, hand]
  omega

theorem shift_toNat (len : Nat) : (UInt32.ofNat len <<< (3 : UInt32)).toNat = 8 * len % 2 ^ 32 := by
  simp [Nat.shiftLeft_eq]
  omega

theorem high_toNat {len : Nat} (h : len < 2 ^ 32) :
    (UInt32.ofNat len >>> (29 : UInt32)).toNat = len / 2 ^ 29 := by
  have hlen : len % 4294967296 = len := Nat.mod_eq_of_lt h
  simp [Nat.shiftRight_eq_div_pow, hlen]

/-- The low word of the count. -/
theorem count0_update (n len : Nat) :
    UInt32.ofNat (8 * n) + UInt32.ofNat len <<< (3 : UInt32) = UInt32.ofNat (8 * (n + len)) := by
  apply UInt32.toNat_inj.mp
  rw [UInt32.toNat_add, shift_toNat, UInt32.toNat_ofNat', UInt32.toNat_ofNat']
  omega

/-- The high word gets the carry of the low one. -/
theorem count1_update (n : Nat) {len : Nat} (h : len < 2 ^ 32) :
    (if UInt32.ofNat (8 * (n + len)) < UInt32.ofNat (8 * n)
      then UInt32.ofNat (8 * n / 2 ^ 32) + 1 else UInt32.ofNat (8 * n / 2 ^ 32)) +
        UInt32.ofNat len >>> (29 : UInt32) = UInt32.ofNat (8 * (n + len) / 2 ^ 32) := by
  apply UInt32.toNat_inj.mp
  split
  case isTrue hless =>
    rw [UInt32.lt_iff_toNat_lt, UInt32.toNat_ofNat', UInt32.toNat_ofNat'] at hless
    rw [UInt32.toNat_add, high_toNat h, UInt32.toNat_add, UInt32.toNat_ofNat', UInt32.toNat_ofNat',
      UInt32.toNat_one]
    omega
  case isFalse hless =>
    rw [UInt32.lt_iff_toNat_lt, UInt32.toNat_ofNat', UInt32.toNat_ofNat'] at hless
    rw [UInt32.toNat_add, high_toNat h, UInt32.toNat_ofNat', UInt32.toNat_ofNat']
    omega

@[simp] theorem Context.counted_state (context : Context) (len : UInt32) :
    (context.counted len).state = context.state := by
  unfold Context.counted
  dsimp only
  split <;> rfl

@[simp] theorem Context.counted_buffer (context : Context) (len : UInt32) :
    (context.counted len).buffer = context.buffer := by
  unfold Context.counted
  dsimp only
  split <;> rfl

theorem Represents.counted_count0 {message : List UInt8} {context : Context}
    (h : Represents message context) (data : List UInt8) :
    (context.counted (UInt32.ofNat data.length)).count0 =
      UInt32.ofNat (8 * (message ++ data).length) := by
  have hcount : (context.counted (UInt32.ofNat data.length)).count0 =
      context.count0 + UInt32.ofNat data.length <<< 3 := by
    unfold Context.counted
    dsimp only
    split <;> rfl
  rw [hcount, h.count0, List.length_append]
  exact count0_update _ _

theorem Represents.counted_count1 {message : List UInt8} {context : Context}
    (h : Represents message context) {data : List UInt8} (hlen : data.length < 2 ^ 32) :
    (context.counted (UInt32.ofNat data.length)).count1 =
      UInt32.ofNat (8 * (message ++ data).length / 2 ^ 32) := by
  have hcount : (context.counted (UInt32.ofNat data.length)).count1 =
      (if context.count0 + UInt32.ofNat data.length <<< 3 < context.count0
        then context.count1 + 1 else context.count1) + UInt32.ofNat data.length >>> 29 := by
    unfold Context.counted
    dsimp only
    split <;> rfl
  rw [hcount, h.count0, h.count1, List.length_append]
  rw [show UInt32.ofNat (8 * message.length) + UInt32.ofNat data.length <<< 3 =
    UInt32.ofNat (8 * (message.length + data.length)) from count0_update _ _]
  exact count1_update _ hlen

/-! ## The buffer -/

theorem memcpy_length {buffer data : List UInt8} {j : Nat} (h : j + data.length ≤ buffer.length) :
    (memcpy buffer j data).length = buffer.length := by
  simp [memcpy]
  omega

theorem memcpy_take {buffer data : List UInt8} {j : Nat} (h : j ≤ buffer.length) :
    (memcpy buffer j data).take (j + data.length) = buffer.take j ++ data := by
  rw [memcpy, List.take_left']
  simp
  omega

/-- The loop takes the whole blocks. -/
theorem blocks_eq (littleEndian : Bool) (state : Sha1.Words) (data : List UInt8) (i : Nat)
    (hi : i ≤ data.length) :
    ∃ j, blocks littleEndian state data i =
        ((absorb 64 Sha1.compress state (data.drop i)).1, j) ∧
      j ≤ data.length ∧ data.drop j = (absorb 64 Sha1.compress state (data.drop i)).2 := by
  by_cases h : i + 63 < data.length
  · obtain ⟨j, hj, hle, hrest⟩ :=
      blocks_eq littleEndian (transform littleEndian state ((data.drop i).take 64)) data (i + 64) (by omega)
    have habsorb : absorb 64 Sha1.compress state (data.drop i) =
        absorb 64 Sha1.compress (transform littleEndian state ((data.drop i).take 64))
          (data.drop (i + 64)) := by
      rw [absorb_of_le (by decide) (by simp; omega), transform_eq, List.drop_drop]
    refine ⟨j, ?_, hle, ?_⟩
    · rw [blocks, if_pos h, hj, habsorb]
    · rw [hrest, habsorb]
  · have hshort : absorb 64 Sha1.compress state (data.drop i) = (state, data.drop i) :=
      absorb_of_lt (by simp; omega)
    refine ⟨i, ?_, hi, ?_⟩
    · rw [blocks, if_neg h, hshort]
    · rw [hshort]
termination_by data.length - i

/-- The place in the block, as `SHA1Update` has it. -/
theorem Represents.place {message : List UInt8} {context : Context} (h : Represents message context) :
    ((context.count0 >>> 3) &&& 63).toNat = message.length % 64 := by
  rw [h.count0]
  exact place_toNat _

/-- Whether there is enough for a block. -/
theorem Represents.fills_iff {message : List UInt8} {context : Context} (h : Represents message context)
    {data : List UInt8} (hdata : data.length + 64 ≤ 2 ^ 32) :
    ((context.count0 >>> 3) &&& 63) + UInt32.ofNat data.length > 63 ↔
      63 < message.length % 64 + data.length := by
  have hj64 : message.length % 64 < 64 := Nat.mod_lt _ (by decide)
  have hnat : (((context.count0 >>> 3) &&& 63) + UInt32.ofNat data.length).toNat =
      message.length % 64 + data.length := by
    rw [UInt32.toNat_add, h.place, UInt32.toNat_ofNat', Nat.mod_eq_of_lt (a := data.length) (by omega),
      Nat.mod_eq_of_lt (by omega)]
  rw [gt_iff_lt, UInt32.lt_iff_toNat_lt, hnat]
  rfl

/-- **`SHA1Update` puts its input after the message.** -/
theorem Represents.update (littleEndian : Bool) {message : List UInt8} {context : Context}
    (h : Represents message context) {data : List UInt8} (hdata : data.length + 64 ≤ 2 ^ 32) :
    Represents (message ++ data) (update littleEndian context data) := by
  have hj := h.place
  have hfills := h.fills_iff hdata
  have hcount0 := h.counted_count0 data
  have hcount1 := h.counted_count1 (show data.length < 2 ^ 32 by omega)
  have hroom := h.room
  have hj64 : message.length % 64 < 64 := Nat.mod_lt _ (by decide)
  have happend := absorb_append (by decide : 0 < 64) (f := Sha1.compress) Sha1.Words.initial message data
  rw [← h.state, ← h.rest] at happend
  have hrest := absorb_rest_length (by decide : 0 < 64) (f := Sha1.compress) Sha1.Words.initial
    (message ++ data)
  unfold Libsha1.update
  dsimp only
  rw [hj]
  by_cases hlong : 63 < message.length % 64 + data.length
  case pos =>
    -- the buffer is filled up and taken, then the blocks of the input, and the rest goes to the buffer
    rw [if_pos (hfills.mpr hlong)]
    set kept := context.buffer.take (message.length % 64) with hkept
    have hfull : (data.take (64 - message.length % 64)).length = 64 - message.length % 64 := by
      rw [List.length_take]
      omega
    have hbuffer : memcpy (context.counted (UInt32.ofNat data.length)).buffer (message.length % 64)
        (data.take (64 - message.length % 64)) = kept ++ data.take (64 - message.length % 64) := by
      rw [memcpy, Context.counted_buffer, List.drop_eq_nil_of_le (by omega), List.append_nil]
    have hblock : (kept ++ data.take (64 - message.length % 64)).length = 64 := by
      rw [List.length_append, hfull, hkept, List.length_take]
      omega
    have habsorb : absorb 64 Sha1.compress Sha1.Words.initial (message ++ data) =
        absorb 64 Sha1.compress
          (Sha1.compress context.state (kept ++ data.take (64 - message.length % 64)))
          (data.drop (64 - message.length % 64)) := by
      rw [happend, ← absorb_block (by decide) hblock, List.append_assoc, List.take_append_drop]
    obtain ⟨k, hk, hkle, hkrest⟩ := blocks_eq littleEndian
      (Sha1.compress context.state (kept ++ data.take (64 - message.length % 64))) data
      (64 - message.length % 64) (by omega)
    rw [← habsorb] at hk hkrest
    rw [← hkrest] at hrest
    have hless : (data.drop k).length < 64 := by
      rw [hrest]
      exact Nat.mod_lt _ (by decide)
    rw [hbuffer, transform_eq, Context.counted_state, hk]
    refine ⟨rfl, ?_, ?_, hcount0, hcount1⟩
    · rw [← hrest, ← hkrest]
      have htake : ∀ buffer, (memcpy buffer 0 (data.drop k)).take (0 + (data.drop k).length) =
          buffer.take 0 ++ data.drop k := fun _ => memcpy_take (Nat.zero_le _)
      simpa using htake (kept ++ data.take (64 - message.length % 64))
    · have hfits : 0 + (data.drop k).length ≤ (kept ++ data.take (64 - message.length % 64)).length := by
        omega
      exact (memcpy_length hfits).trans hblock
  case neg =>
    rw [if_neg (fun hlt => hlong (hfills.mp hlt))]
    have hshort : (context.buffer.take (message.length % 64) ++ data).length < 64 := by
      rw [List.length_append, List.length_take]
      omega
    rw [absorb_of_lt hshort] at happend
    have hlength : (message ++ data).length % 64 = message.length % 64 + data.length := by
      rw [List.length_append, ← Nat.mod_add_mod, Nat.mod_eq_of_lt (by omega)]
    refine ⟨?_, ?_, ?_, hcount0, hcount1⟩
    · rw [happend]
      exact Context.counted_state _ _
    · rw [hlength, happend, Context.counted_buffer]
      exact memcpy_take (by omega)
    · rw [Context.counted_buffer, memcpy_length (by omega), hroom]

/-! ## The padding -/

/-- The loop of `SHA1Final` looks whether eight bytes are left in the block. -/
theorem Represents.stops_iff {message : List UInt8} {context : Context} (h : Represents message context) :
    context.count0 &&& 504 = 448 ↔ message.length % 64 = 56 := by
  have hj := h.place
  have hj64 : message.length % 64 < 64 := Nat.mod_lt _ (by decide)
  have hnat : (((context.count0 >>> 3) &&& 63) <<< (3 : UInt32)).toNat = 8 * (message.length % 64) := by
    rw [UInt32.toNat_shiftLeft, hj, show (3 : UInt32).toNat % 32 = 3 from rfl, Nat.shiftLeft_eq]
    omega
  rw [and_504, ← UInt32.toNat_inj, hnat, show (448 : UInt32).toNat = 448 from rfl]
  omega

/-- The zeros that are put after a message. -/
theorem Represents.zeros (littleEndian : Bool) {context : Context} {message : List UInt8}
    (h : Represents message context) {fuel : Nat} (hfuel : (120 - message.length % 64) % 64 < fuel) :
    ∃ after, zeros littleEndian context fuel = some after ∧
      Represents (message ++ List.replicate ((120 - message.length % 64) % 64) 0) after := by
  induction fuel generalizing context message with
  | zero => omega
  | succ fuel ih =>
    have hstops := h.stops_iff
    unfold Libsha1.zeros
    by_cases hstop : message.length % 64 = 56
    · refine ⟨context, if_pos (hstops.mpr hstop), ?_⟩
      simpa [hstop] using h
    · have hone : Represents (message ++ [0]) (Libsha1.update littleEndian context [0]) :=
        h.update littleEndian (by decide)
      have hlength : (message ++ [(0 : UInt8)]).length = message.length + 1 := by simp
      obtain ⟨after, hafter, hrep⟩ := ih hone (by omega)
      refine ⟨after, by rw [if_neg (fun hs => hstop (hstops.mp hs)), hafter], ?_⟩
      have hcount : (120 - message.length % 64) % 64 =
          (120 - (message ++ [(0 : UInt8)]).length % 64) % 64 + 1 := by omega
      rw [hcount, List.replicate_succ]
      simpa using hrep

theorem Represents.finalcount_eq {message : List UInt8} {context : Context}
    (h : Represents message context) : finalcount context = Sha1.lengthBytes message.length := by
  have hbytes : finalcount context = Sha1.bytes context.count1 ++ Sha1.bytes context.count0 := by
    simp [finalcount, Sha1.bytes, List.range_succ, and_255]
  rw [hbytes, h.count0, h.count1]
  rfl

theorem digest_eq (state : Sha1.Words) : digest state = state.bytes := by
  simp [digest, Sha1.Words.bytes, Sha1.bytes, List.range_succ, and_255]

/-- **`SHA1Final` gives the hash of the message.** -/
theorem Represents.final (littleEndian : Bool) {message : List UInt8} {context : Context}
    (h : Represents message context) {fuel : Nat} (hfuel : 64 ≤ fuel) :
    final littleEndian fuel context = some (Sha1.hash message) := by
  have hmarked : Represents (message ++ [0x80]) (Libsha1.update littleEndian context [0x80]) :=
    h.update littleEndian (by decide)
  have hlength : (message ++ [(0x80 : UInt8)]).length = message.length + 1 := by simp
  obtain ⟨after, hafter, hpadded⟩ := hmarked.zeros littleEndian (show _ < fuel by omega)
  have hcount : (Sha1.lengthBytes message.length).length + 64 ≤ 2 ^ 32 := by
    rw [Sha1.lengthBytes_length]
    decide
  have hwhole := hpadded.update littleEndian hcount
  have hmessage : message ++ [0x80] ++
      List.replicate ((120 - (message ++ [(0x80 : UInt8)]).length % 64) % 64) 0 ++
        Sha1.lengthBytes message.length = Sha1.padded message := by
    have hcount : (120 - (message ++ [(0x80 : UInt8)]).length % 64) % 64 =
        (119 - message.length % 64) % 64 := by omega
    rw [hcount]
    simp [Sha1.padded, Sha1.zeros]
  rw [hmessage] at hwhole
  unfold Libsha1.final
  dsimp only
  rw [hafter, Option.map_some, h.finalcount_eq, digest_eq, hwhole.state]
  rfl

theorem hash_message (littleEndian : Bool) {context : Context} (hroom : context.buffer.length = 64)
    {message : List UInt8} (hmessage : message.length + 64 ≤ 2 ^ 32) {fuel : Nat} (hfuel : 64 ≤ fuel) :
    Libsha1.final littleEndian fuel (Libsha1.update littleEndian (init context) message) =
      some (Sha1.hash message) :=
  ((represents_init hroom).update littleEndian hmessage).final littleEndian hfuel

/-- **Whatever the pieces that a message comes in, its hash is the one of the standard**, and the loop of
the padding ends. Nothing is written behind the 64 bytes of the buffer. -/
theorem hash_pieces (littleEndian : Bool) (context : Context) (hroom : context.buffer.length = 64)
    (pieces : List (List UInt8)) (hpieces : ∀ piece ∈ pieces, piece.length + 64 ≤ 2 ^ 32)
    (fuel : Nat) (hfuel : 64 ≤ fuel) :
    (pieces.foldl (update littleEndian) (init context)).buffer.length = 64 ∧
    final littleEndian fuel (pieces.foldl (update littleEndian) (init context)) =
      some (Sha1.hash pieces.flatten) := by
  suffices h : ∀ message start, Represents message start →
      Represents (message ++ pieces.flatten) (pieces.foldl (update littleEndian) start) by
    have hall := h [] _ (represents_init hroom)
    exact ⟨hall.room, hall.final littleEndian hfuel⟩
  induction pieces with
  | nil =>
    intro message start h
    simpa using h
  | cons piece pieces ih =>
    intro message start h
    have hfirst : Represents (message ++ piece) (update littleEndian start piece) :=
      h.update littleEndian (hpieces piece List.mem_cons_self)
    have hrest := ih (fun p hp => hpieces p (List.mem_cons_of_mem _ hp)) _ _ hfirst
    simpa using hrest

/-- `abc` in two pieces. -/
theorem hash_pieces_abc :
    ([[97], [98, 99]].foldl (update true)
      (init ⟨⟨0, 0, 0, 0, 0⟩, 0, 0, List.replicate 64 0⟩)).buffer.length = 64 ∧
    final true 64 ([[97], [98, 99]].foldl (update true)
      (init ⟨⟨0, 0, 0, 0, 0⟩, 0, 0, List.replicate 64 0⟩)) = some (Sha1.hash [97, 98, 99]) :=
  hash_pieces true _ rfl [[97], [98, 99]] (by decide) 64 le_rfl

end CommandStation.Libsha1
