import CommandStation.Lib.Base64
import CommandStation.Libsha1.Messages
import CommandStation.CommandDistributor.Basic

/-!
# The websocket handshake

A browser asks for a websocket with a key of its own and expects the hash of that key and a fixed text, in
base 64. `checkConnectionString` puts key and text into an array of a hundred bytes, hashes that, and writes
the answer byte by byte into the outbound ring. Its fixed texts are printed with `print`, which a
`RingStream` cannot override, and not with `printFlash`: they are copied on every board.
-/

namespace CommandStation

open CommandStation.Lib RingStream

namespace Websockets

/-! ## The answer -/

/-- `b64_table` -/
def b64Table : List UInt8 :=
  [65, 66, 67, 68, 69, 70, 71, 72, 73, 74, 75, 76, 77, 78, 79, 80, 81, 82, 83, 84, 85, 86, 87, 88,
   89, 90, 97, 98, 99, 100, 101, 102, 103, 104, 105, 106, 107, 108, 109, 110, 111, 112, 113, 114,
   115, 116, 117, 118, 119, 120, 121, 122, 48, 49, 50, 51, 52, 53, 54, 55, 56, 57, 43, 47]

/-- The text that is put after the key. -/
def handshakeText : List UInt8 :=
  [50, 53, 56, 69, 65, 70, 65, 53, 45, 69, 57, 49, 52, 45, 52, 55, 68, 65, 45, 57, 53, 67, 65, 45,
   67, 53, 65, 66, 48, 68, 67, 56, 53, 66, 49, 49]

/-- The answer up to the accept value. -/
def replyHeader : List UInt8 :=
  [72, 84, 84, 80, 47, 49, 46, 49, 32, 49, 48, 49, 32, 83, 119, 105, 116, 99, 104, 105, 110, 103,
   32, 80, 114, 111, 116, 111, 99, 111, 108, 115, 13, 10, 83, 101, 114, 118, 101, 114, 58, 32, 68,
   67, 67, 69, 88, 45, 87, 101, 98, 83, 111, 99, 107, 101, 116, 115, 83, 101, 114, 118, 101, 114,
   13, 10, 85, 112, 103, 114, 97, 100, 101, 58, 32, 119, 101, 98, 115, 111, 99, 107, 101, 116, 13,
   10, 67, 111, 110, 110, 101, 99, 116, 105, 111, 110, 58, 32, 85, 112, 103, 114, 97, 100, 101, 13,
   10, 79, 114, 105, 103, 105, 110, 58, 32, 110, 117, 108, 108, 13, 10, 83, 101, 99, 45, 87, 101,
   98, 83, 111, 99, 107, 101, 116, 45, 86, 101, 114, 115, 105, 111, 110, 58, 32, 49, 51, 13, 10,
   83, 101, 99, 45, 87, 101, 98, 83, 111, 99, 107, 101, 116, 45, 80, 114, 111, 116, 111, 99, 111,
   108, 58, 32, 68, 67, 67, 69, 88, 13, 10, 83, 101, 99, 45, 87, 101, 98, 83, 111, 99, 107, 101,
   116, 45, 65, 99, 99, 101, 112, 116, 58, 32]

/-- What ends the answer. The value that is encoded has been padded by one byte. -/
def replyEnd : List UInt8 := [61, 13, 10, 13, 10]

/-- `strlcpy` into an array of `size` bytes. -/
def strlcpy (src : List UInt8) (size : Nat) : List UInt8 := src.take (size - 1)

/-- `strlcat_P` to what is in an array of `size` bytes. -/
def strlcat (dst src : List UInt8) (size : Nat) : List UInt8 := dst ++ src.take (size - 1 - dst.length)

/-- `replyKey` -/
def replyKey (key : List UInt8) : List UInt8 := strlcat (strlcpy key 100) handshakeText 100

/-- The characters that one round of the loop prints, for three bytes. -/
def printGroup (a b c : UInt8) (whole : Prop) [Decidable whole] : List UInt8 :=
  [b64Table.getD ((a.toNat &&& 0xfc) >>> 2) 0,
    b64Table.getD (((a.toNat &&& 0x03) <<< 4) + ((b.toNat &&& 0xf0) >>> 4)) 0,
    b64Table.getD (((b.toNat &&& 0x0f) <<< 2) + ((c.toNat &&& 0xc0) >>> 6)) 0] ++
    if whole then [b64Table.getD (c.toNat &&& 0x3f) 0] else []

/-- A loop of `n` rounds, where those before round `last` print all four characters. -/
def printLoop (n last : Nat) (bin : List UInt8) : List UInt8 :=
  (List.range n).flatMap fun i =>
    printGroup (bin.getD (3 * i) 0) (bin.getD (3 * i + 1) 0) (bin.getD (3 * i + 2) 0) (i < last)

/-- The loop over the bytes of `sha1HashBin`. -/
def printed (sha1HashBin : List UInt8) : List UInt8 := printLoop 7 6 sha1HashBin

section Handshake

variable (littleEndian : Bool) (fuel : Nat) (ctx : Libsha1.Context)

/-- `sha1HashBin`, which has a byte more than the hash. `ctx` is what the stack holds. -/
def sha1HashBin (key : List UInt8) : Option (List UInt8) :=
  (Libsha1.final littleEndian fuel
    (Libsha1.update littleEndian (Libsha1.init ctx) (replyKey key))).map fun digest => digest ++ [0]

/-- What `checkConnectionString` prints for a key. -/
def handshake (key : List UInt8) : Option (List Item) :=
  (sha1HashBin littleEndian fuel ctx key).map fun hash =>
    (replyHeader ++ printed hash ++ replyEnd).map Item.byte

end Handshake

/-! ## Base 64 -/

theorem b64Table_getD {n : Nat} (h : n < 64) : b64Table.getD n 0 = Base64.digit n := by
  have hall : ∀ n < 64, b64Table.getD n 0 = Base64.digit n := by decide +kernel
  exact hall n h

theorem high_bits {x : Nat} (h : x < 256) :
    (x &&& 0xfc) >>> 2 = x / 4 ∧ (x &&& 0xf0) >>> 4 = x / 16 ∧ (x &&& 0xc0) >>> 6 = x / 64 := by
  have hall : ∀ x < 256,
      (x &&& 0xfc) >>> 2 = x / 4 ∧ (x &&& 0xf0) >>> 4 = x / 16 ∧ (x &&& 0xc0) >>> 6 = x / 64 := by
    decide +kernel
  exact hall x h

theorem low_bits (x : Nat) :
    (x &&& 0x03) <<< 4 = x % 4 * 16 ∧ (x &&& 0x0f) <<< 2 = x % 16 * 4 ∧ x &&& 0x3f = x % 64 := by
  have h2 : x &&& 0x03 = x % 2 ^ 2 := Nat.and_two_pow_sub_one_eq_mod x 2
  have h4 : x &&& 0x0f = x % 2 ^ 4 := Nat.and_two_pow_sub_one_eq_mod x 4
  have h6 : x &&& 0x3f = x % 2 ^ 6 := Nat.and_two_pow_sub_one_eq_mod x 6
  refine ⟨?_, ?_, h6⟩
  · rw [h2, Nat.shiftLeft_eq]; rfl
  · rw [h4, Nat.shiftLeft_eq]; rfl

/-- What is printed for three bytes. -/
theorem printGroup_whole (a b c : UInt8) : printGroup a b c True = Base64.group a b c := by
  have ha := a.toNat_lt
  have hb := b.toNat_lt
  have hc := c.toNat_lt
  rw [printGroup, (high_bits ha).1, (high_bits hb).2.1, (high_bits hc).2.2, (low_bits a.toNat).1,
    (low_bits b.toNat).2.1, (low_bits c.toNat).2.2, b64Table_getD (by omega), b64Table_getD (by omega),
    b64Table_getD (by omega), b64Table_getD (by omega), Base64.group]
  rfl

theorem printGroup_part (a b c : UInt8) : printGroup a b c False = (Base64.group a b c).take 3 := by
  rw [← printGroup_whole]
  rfl

/-- The loop prints an encoding of two bytes more than whole groups, but for the last character. -/
theorem printLoop_eq (k : Nat) {xs : List UInt8} (h : xs.length = 3 * k + 2) :
    printLoop (k + 1) k (xs ++ [0]) ++ [Base64.pad] = Base64.encode xs := by
  induction k generalizing xs with
  | zero =>
    obtain ⟨a, b, rfl⟩ : ∃ a b, xs = [a, b] := List.length_eq_two.mp h
    have hpart := printGroup_part a b 0
    simpa [printLoop, Base64.encode] using hpart
  | succ k ih =>
    obtain ⟨a, b, c, rest, rfl⟩ : ∃ a b c rest, xs = a :: b :: c :: rest := by
      rcases xs with _ | ⟨a, _ | ⟨b, _ | ⟨c, rest⟩⟩⟩
      case cons.cons.cons => exact ⟨a, b, c, rest, rfl⟩
      all_goals simp only [List.length_cons, List.length_nil] at h; omega
    have hlength : rest.length = 3 * k + 2 := by
      simp only [List.length_cons] at h
      omega
    have hrest := ih hlength
    have hwhole := printGroup_whole a b c
    have hothers : (List.range (k + 1)).flatMap (fun i =>
        printGroup ((a :: b :: c :: rest ++ [0]).getD (3 * (i + 1)) 0)
          ((a :: b :: c :: rest ++ [0]).getD (3 * (i + 1) + 1) 0)
          ((a :: b :: c :: rest ++ [0]).getD (3 * (i + 1) + 2) 0) (i + 1 < k + 1)) =
        printLoop (k + 1) k (rest ++ [0]) := by
      rw [printLoop]
      congr 1
      funext i
      simp [Nat.mul_succ]
    rw [Base64.encode, ← hrest, ← hothers, ← hwhole, printLoop, List.range_succ_eq_map,
      List.flatMap_cons, List.flatMap_map, List.append_assoc]
    simp

/-! ## What the browser gets -/

/-- The key with the text after it, as far as the array goes. -/
theorem replyKey_eq (key : List UInt8) : replyKey key = (key ++ handshakeText).take 99 := by
  rw [replyKey, strlcat, strlcpy, List.take_append, List.length_take]
  congr 2
  omega

/-- A key of at most 63 bytes is hashed with the whole text. -/
theorem replyKey_of_le {key : List UInt8} (h : key.length ≤ 63) : replyKey key = key ++ handshakeText := by
  rw [replyKey_eq, List.take_of_length_le]
  rw [List.length_append, show handshakeText.length = 36 from rfl]
  omega

/-- The accept value. -/
def accept (key : List UInt8) : List UInt8 := Base64.encode (Sha1.hash (replyKey key))

/-- **The accept value decodes to the hash of the key and the text.** -/
theorem decode_accept {key : List UInt8} (h : key.length ≤ 63) :
    Base64.decode (accept key) = some (Sha1.hash (key ++ handshakeText)) := by
  rw [accept, Base64.decode_encode, replyKey_of_le h]

/-- The answer. -/
def answer (key : List UInt8) : List UInt8 := replyHeader ++ accept key ++ [13, 10, 13, 10]

section Sent

variable (littleEndian : Bool) {fuel : Nat} {ctx : Libsha1.Context} {flash : Nat → UInt8} {wide : Bool}

theorem sha1HashBin_eq (hfuel : 64 ≤ fuel) (hroom : ctx.buffer.length = 64) (key : List UInt8) :
    sha1HashBin littleEndian fuel ctx key = some (Sha1.hash (replyKey key) ++ [0]) := by
  have hlen : (replyKey key).length ≤ 99 := by
    rw [replyKey_eq]
    exact List.length_take_le _ _
  have hhash := Libsha1.hash_message littleEndian hroom (show (replyKey key).length + 64 ≤ 2 ^ 32 by omega)
    hfuel
  rw [sha1HashBin, hhash, Option.map_some]

theorem printed_hash (message : List UInt8) :
    printed (Sha1.hash message ++ [0]) ++ replyEnd =
      Base64.encode (Sha1.hash message) ++ [13, 10, 13, 10] := by
  have hloop := printLoop_eq 6 (Sha1.hash_length message)
  rw [← hloop, printed, replyEnd, List.append_assoc]
  rfl

/-- The items that are put into the ring. -/
def items (key : List UInt8) : List Item := (answer key).map Item.byte

theorem handshake_eq (hfuel : 64 ≤ fuel) (hroom : ctx.buffer.length = 64) (key : List UInt8) :
    handshake littleEndian fuel ctx key = some (items key) := by
  rw [handshake, sha1HashBin_eq littleEndian hfuel hroom, Option.map_some, List.append_assoc, printed_hash,
    items, answer, accept, List.append_assoc]

theorem expand_bytes (bytes : List UInt8) : (bytes.map Item.byte).flatMap (Item.expand flash) = bytes := by
  induction bytes with
  | nil => rfl
  | cons b bytes ih =>
    rw [List.map_cons, List.flatMap_cons, ih]
    rfl

theorem payload_items (clientId : UInt8) (key : List UInt8) :
    (⟨clientId, items key⟩ : Outgoing).payload flash = answer key := expand_bytes _

theorem printed_length (bin : List UInt8) : (printed bin).length = 27 := by
  simp [printed, printLoop, printGroup, List.range_succ]

theorem answer_eq (key : List UInt8) :
    answer key = replyHeader ++ (printed (Sha1.hash (replyKey key) ++ [0]) ++ replyEnd) := by
  rw [printed_hash, answer, accept, List.append_assoc]

/-- How many cells the answer takes. -/
theorem answer_length (key : List UInt8) : (answer key).length = 233 := by
  rw [answer_eq, List.length_append, List.length_append, printed_length]
  decide +kernel

theorem raw_bytes (bytes : List UInt8) :
    (bytes.map Item.byte).flatMap (Item.raw flash wide) = bytes := by
  induction bytes with
  | nil => rfl
  | cons b bytes ih =>
    rw [List.map_cons, List.flatMap_cons, ih]
    rfl

theorem raw_items (clientId : UInt8) (key : List UInt8) :
    ((⟨clientId, items key⟩ : Outgoing).raw flash wide).length = 233 := by
  rw [Outgoing.raw, items, raw_bytes, answer_length]

/-- No character of the answer is taken for an insert. -/
theorem answer_ne_marker {key : List UInt8} {b : UInt8} (h : b ∈ answer key) : b ≠ flashInsertMarker := by
  rw [answer, List.mem_append, List.mem_append] at h
  rintro rfl
  rcases h with (hheader | haccept) | hend
  · exact absurd hheader (by decide +kernel)
  · rcases Base64.encode_mem haccept with hpad | hvalue
    · exact absurd hpad (by decide)
    · exact absurd hvalue (by decide)
  · exact absurd hend (by decide)

theorem valid_items {clientId : UInt8} (hid : clientId ≠ noClient) (key : List UInt8) :
    (⟨clientId, items key⟩ : Outgoing).Valid flash wide where
  client := hid
  items := by
    intro item hitem
    obtain ⟨b, hb, rfl⟩ := List.mem_map.mp hitem
    exact answer_ne_marker hb
  short := by
    rw [payload_items, answer_length]
    decide

end Sent

end Websockets

namespace CommandDistributor

open Websockets

variable {flash : Nat → UInt8} {wide : Bool}

/-- The reader gets no more than is there. -/
theorem drained_past (l : Log) {pending : List Outgoing} (hclosed : Closed flash wide l.ring pending) :
    (run (Log.step flash wide) l (List.replicate (pending.length + 1) .receive)).got =
      l.got ++ pending.map (Outgoing.message flash) := by
  induction pending generalizing l with
  | nil =>
    obtain ⟨hnone, -⟩ := receive_nil hclosed
    simp [run, Log.step, hnone]
  | cons m pending ih =>
    obtain ⟨hsome, hclosed'⟩ := receive_cons hclosed
    rw [List.length_cons, List.replicate_succ, run_cons]
    have hgot := ih (l.step flash wide .receive) hclosed'
    rw [hgot]
    simp [Log.step, hsome]

theorem ring_setType (cd : CommandDistributor) (clientId : UInt8) (type : ClientType) :
    (cd.setType clientId type).ring = cd.ring := rfl

/-- **A client that asks for a websocket is answered with the hash of its key.** When the interface has
taken the messages that were in the ring, it gets the answer for this client next. There must be room for
its 233 bytes and what `mark` writes; a client is taken for one of a websocket even if there is none. -/
theorem websocket_answered (flash : Nat → UInt8) (wide littleEndian : Bool) (fuel : Nat)
    (ctx : Libsha1.Context) (hfuel : 64 ≤ fuel) (hroom : ctx.buffer.length = 64)
    (cd : CommandDistributor) (pending : List Outgoing) (hclosed : Closed flash wide cd.ring pending)
    (clientId : UInt8) (hid : clientId ≠ noClient) (hnew : cd.clients[clientId.toNat]? = some .none)
    (buffer key : List UInt8) (hkey : connectionKey buffer = some key) (actions : List Action) :
    let hello key := (handshake littleEndian fuel ctx key).getD []
    let after := cd.parse flash wide hello clientId buffer actions
    let got := (run (Log.step flash wide) ⟨after.ring, [], []⟩
      (List.replicate (pending.length + 1) .receive)).got
    after.clients[clientId.toNat]? = some .websockConnecting ∧
      (cd.ring.used + 3 + 233 < cd.ring.len →
        got = pending.map (Outgoing.message flash) ++
          [⟨clientId, (answer key).length, (answer key).map some⟩]) ∧
      (cd.ring.len ≤ cd.ring.used + 3 + 233 → got = pending.map (Outgoing.message flash)) ∧
      Base64.decode (accept key) = some (Sha1.hash ((key ++ handshakeText).take 99)) := by
  intro hello after got
  set m : Outgoing := ⟨clientId, items key⟩ with hm
  have hhello : hello key = items key := by
    rw [show hello key = (handshake littleEndian fuel ctx key).getD [] from rfl,
      handshake_eq littleEndian hfuel hroom, Option.getD_some]
  have hafter : after = ({ cd with
      known := true
      ring := (cd.ring.send flash wide clientId (items key)).1 }).setType clientId
        .websockConnecting := by
    simp only [after, parse, hnew, hkey, if_true, hhello]
  -- the answer is one message, sent behind those that were in the ring
  have hring : after.ring = (cd.ring.send flash wide m.client m.items).1 := by
    rw [hafter, ring_setType]
  have hpayload : m.payload flash = answer key := payload_items clientId key
  have hfull : answer key ≠ [] := List.append_ne_nil_of_right_ne_nil _ (List.cons_ne_nil _ _)
  obtain ⟨hroom, hno, hyes⟩ := send_spec hclosed (valid_items hid key)
  rw [← hm, raw_items, ← Nat.add_assoc] at hroom
  rw [← hm, ← hring] at hno hyes
  refine ⟨?_, ?_, ?_, ?_⟩
  · have hlt : clientId.toNat < cd.clients.length := (List.getElem?_eq_some_iff.mp hnew).1
    rw [hafter]
    simp [setType, hlt]
  · intro hlt
    have hsent : (cd.ring.send flash wide m.client m.items).2 = true := by
      rw [← Bool.not_eq_false, hroom]
      omega
    have hclosed' := hyes hsent
    rw [hpayload, if_neg hfull] at hclosed'
    have hmessage : m.message flash = ⟨clientId, (answer key).length, (answer key).map some⟩ := by
      rw [Outgoing.message, hpayload]
    have hgot := Log.drained (l := ⟨after.ring, [], []⟩) hclosed'
    rw [List.map_append, List.map_singleton, hmessage] at hgot
    simpa [got] using hgot
  · intro hle
    have hgot := drained_past ⟨after.ring, [], []⟩ (hno (hroom.mpr hle)).1
    simpa [got] using hgot
  · rw [accept, Base64.decode_encode, replyKey_eq]

/-- A key of 24 characters. -/
def sampleKey : List UInt8 :=
  [100, 71, 104, 108, 73, 72, 78, 104, 98, 88, 66, 115, 90, 83, 66, 117, 98, 50, 53, 106, 90, 81, 61, 61]

theorem websocket_answered_sample :
    let ctx : Libsha1.Context := ⟨⟨0, 0, 0, 0, 0⟩, 0, 0, List.replicate 64 0⟩
    let hello key := (handshake true 64 ctx key).getD []
    let cd := (new 5 2048).parse (fun _ => 0) false hello 2 (keyName ++ sampleKey ++ [13, 10]) []
    cd.clients[2]? = some .websockConnecting ∧
      (run (Log.step (fun _ => 0) false) ⟨cd.ring, [], []⟩ (List.replicate 1 .receive)).got =
        [⟨2, (answer sampleKey).length, (answer sampleKey).map some⟩] := by
  intro ctx hello cd
  have hclosed : Closed (fun _ => 0) false (new 5 2048).ring [] :=
    ⟨⟨Holds.nil (by decide), rfl, .inl rfl⟩, by simp, by simp⟩
  have hall := websocket_answered (fun _ => 0) false true 64 ctx le_rfl rfl (new 5 2048) [] hclosed 2
    (by decide) rfl (keyName ++ sampleKey ++ [13, 10]) sampleKey (by decide +kernel) []
  obtain ⟨htype, hgot, -, -⟩ := hall
  have hroom : (new 5 2048).ring.used + 3 + 233 < (new 5 2048).ring.len := by decide +kernel
  refine ⟨htype, ?_⟩
  have hread := hgot hroom
  rw [List.map_nil, List.nil_append, List.length_nil, Nat.zero_add] at hread
  exact hread

/-- The accept value for a known key. -/
example : (sha1HashBin true 64 ⟨⟨0, 0, 0, 0, 0⟩, 0, 0, List.replicate 64 0⟩ sampleKey).map printed =
    some [115, 51, 112, 80, 76, 77, 66, 105, 84, 120, 97, 81, 57, 107, 89, 71, 122, 122, 104, 90, 82, 98, 75,
      43, 120, 79, 111] := by decide +kernel

end CommandDistributor

end CommandStation
