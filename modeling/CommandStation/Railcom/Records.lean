import CommandStation.Railcom.Basic
import Mathlib.Data.Nat.Basic

/-!
# The records of a buffer

Which bytes `Railcom::process` reads. Its loop compares the index with the length at the start of a record
only, and the index is a byte. A record that is cut short is taken for a whole one, unless nothing is done
with it: a build without EXRAIL does not look into a block record.
-/

namespace CommandStation.Railcom

/-- The bytes that a record of this type takes. -/
def ResponseType.size : ResponseType → Option Nat
  | .enterBlock | .exitBlock => some 3
  | .cvValue => some 6
  | .cvValueList => none

/-- Something is done with a record of this type, in a build with or without EXRAIL. -/
def ResponseType.acts (exrail : Bool) : ResponseType → Bool
  | .enterBlock | .exitBlock => exrail
  | .cvValue => true
  | .cvValueList => false

variable {κ : Type}

namespace Buffer

variable (buffer : Buffer)

/-- The type of the record at `i`. -/
def typeAt (i : Nat) : ResponseType := responseType (buffer.memory i)

/-- The records that the loop comes to from `i` on, if it ends within `turns` turns. -/
def scan : Nat → UInt8 → Option (List UInt8)
  | 0, _ => none
  | turns + 1, i =>
    if i < buffer.length then
      match buffer.typeAt i.toNat with
      | .enterBlock | .exitBlock => (scan turns (i + 3)).map (i :: ·)
      | .cvValue => (scan turns (i + 6)).map (i :: ·)
      | .cvValueList => some [i]
    else some []

/-- The bytes that the loop reads of the record at `i`. -/
def reads (exrail : Bool) (i : Nat) : List Nat :=
  match buffer.typeAt i with
  | .enterBlock | .exitBlock => if exrail then [i, i + 1, i + 2] else [i]
  | .cvValue => [i, i + 1, i + 2, i + 3, i + 4, i + 5]
  | .cvValueList => [i]

/-- The records from `i` on that lie in the buffer, and where they end. -/
def recordsFrom : Nat → Nat → List Nat × Nat
  | 0, i => ([], i)
  | fuel + 1, i =>
    match (buffer.typeAt i).size with
    | none => ([], i)
    | some size =>
      if i + size ≤ buffer.length.toNat then
        let (is, stop) := recordsFrom fuel (i + size)
        (i :: is, stop)
      else ([], i)

/-- The records of the buffer. No record is empty. -/
def records : List Nat := (buffer.recordsFrom buffer.length.toNat 0).1

/-- Where they end. -/
def stop : Nat := (buffer.recordsFrom buffer.length.toNat 0).2

end Buffer

variable {buffer : Buffer} {exrail : Bool} {i : Nat} {turns fuel : Nat}

/-! ## The loop -/

/-- With more turns, nothing changes. -/
theorem scan_mono {i : UInt8} {is : List UInt8} (h : buffer.scan turns i = some is) (more : Nat) :
    buffer.scan (turns + more) i = some is := by
  induction turns generalizing i is with
  | zero => cases h
  | succ turns ih =>
    have hstep : ∀ {j : UInt8}, (buffer.scan turns j).map (i :: ·) = some is →
        (buffer.scan (turns + more) j).map (i :: ·) = some is := by
      intro j hj
      obtain ⟨js, hjs, rfl⟩ := Option.map_eq_some_iff.mp hj
      rw [ih hjs]
      rfl
    rw [Nat.succ_add]
    rw [Buffer.scan] at h ⊢
    split at h
    · next hlt =>
      rw [if_pos hlt]
      cases htype : buffer.typeAt i.toNat <;> simp only [htype] at h ⊢
      · exact hstep h
      · exact hstep h
      · exact hstep h
      · exact h
    · next hlt =>
      rw [if_neg hlt]
      exact h

/-- The callback is called for the first of the CV records. -/
theorem firstCvValue_of_scan {i : UInt8} {is : List UInt8} (h : buffer.scan turns i = some is) :
    buffer.firstCvValue turns i =
      (is.find? fun i => buffer.typeAt i.toNat = .cvValue).map buffer.cvValue := by
  induction turns generalizing i is with
  | zero => cases h
  | succ turns ih =>
    rw [Buffer.scan] at h
    rw [Buffer.firstCvValue]
    split at h
    · next hlt =>
      rw [if_pos hlt]
      cases htype : responseType (buffer.memory i.toNat) <;> simp only [Buffer.typeAt, htype] at h ⊢
      · obtain ⟨js, hjs, rfl⟩ := Option.map_eq_some_iff.mp h
        simp [ih hjs, Buffer.typeAt, htype]
      · obtain ⟨js, hjs, rfl⟩ := Option.map_eq_some_iff.mp h
        simp [ih hjs, Buffer.typeAt, htype]
      · obtain ⟨js, hjs, rfl⟩ := Option.map_eq_some_iff.mp h
        simp [htype]
      · cases h
        simp [htype]
    · next hlt =>
      rw [if_neg hlt]
      cases h
      rfl

theorem size_dvd {type : ResponseType} {size : Nat} (h : type.size = some size) : 0 < size ∧ 3 ∣ size := by
  cases type <;> cases h <;> decide

theorem toNat_ofNat_of_le (h : i ≤ buffer.length.toNat) : (UInt8.ofNat i).toNat = i := by
  rw [UInt8.toNat_ofNat']
  exact Nat.mod_eq_of_lt (Nat.lt_of_le_of_lt h buffer.length.toNat_lt)

/-- One turn, at a record that has a size. -/
theorem scan_record {size : Nat} (hsize : (buffer.typeAt i).size = some size)
    (hi : i < buffer.length.toNat) :
    buffer.scan (turns + 1) (UInt8.ofNat i) =
      (buffer.scan turns (UInt8.ofNat (i + size))).map (UInt8.ofNat i :: ·) := by
  have hnat := toNat_ofNat_of_le (Nat.le_of_lt hi)
  have hlt : UInt8.ofNat i < buffer.length := by
    rw [UInt8.lt_iff_toNat_lt, hnat]
    exact hi
  rw [Buffer.scan, if_pos hlt, hnat, UInt8.ofNat_add]
  cases htype : buffer.typeAt i with
  | enterBlock =>
    rw [htype] at hsize
    cases hsize
    rfl
  | exitBlock =>
    rw [htype] at hsize
    cases hsize
    rfl
  | cvValue =>
    rw [htype] at hsize
    cases hsize
    rfl
  | cvValueList =>
    rw [htype] at hsize
    cases hsize

/-- The next record, if it lies in the buffer. -/
theorem recordsFrom_succ {size : Nat} (hsize : (buffer.typeAt i).size = some size)
    (hle : i + size ≤ buffer.length.toNat) : buffer.recordsFrom (fuel + 1) i =
      (i :: (buffer.recordsFrom fuel (i + size)).1, (buffer.recordsFrom fuel (i + size)).2) := by
  rw [Buffer.recordsFrom, hsize]
  exact if_pos hle

/-- The records end at `i`. -/
theorem recordsFrom_stop (h : ∀ size, (buffer.typeAt i).size = some size → buffer.length.toNat < i + size) :
    buffer.recordsFrom fuel i = ([], i) := by
  cases fuel with
  | zero => rfl
  | succ fuel =>
    rw [Buffer.recordsFrom]
    cases hsize : (buffer.typeAt i).size with
    | none => rfl
    | some size => exact if_neg (Nat.not_le.mpr (h size hsize))

/-- Whether there is a record at `i`. -/
theorem record_cases (buffer : Buffer) (i : Nat) :
    (∃ size, (buffer.typeAt i).size = some size ∧ i + size ≤ buffer.length.toNat) ∨
      ∀ size, (buffer.typeAt i).size = some size → buffer.length.toNat < i + size := by
  by_cases h : ∃ size, (buffer.typeAt i).size = some size ∧ i + size ≤ buffer.length.toNat
  · exact .inl h
  · refine .inr fun size hsize => Nat.lt_of_not_le fun hle => h ⟨size, hsize, hle⟩

/-- The loop goes along the records of the buffer. -/
theorem scan_recordsFrom (hi : i ≤ buffer.length.toNat) (turns : Nat) :
    buffer.scan ((buffer.recordsFrom fuel i).1.length + turns) (UInt8.ofNat i) =
      (buffer.scan turns (UInt8.ofNat (buffer.recordsFrom fuel i).2)).map
        ((buffer.recordsFrom fuel i).1.map UInt8.ofNat ++ ·) := by
  induction fuel generalizing i with
  | zero => simp [Buffer.recordsFrom]
  | succ fuel ih =>
    rcases record_cases buffer i with ⟨size, hsize, hle⟩ | hstop
    · have hpos := (size_dvd hsize).1
      rw [recordsFrom_succ hsize hle, List.length_cons, Nat.add_right_comm,
        scan_record hsize (by omega), ih hle, Option.map_map]
      rfl
    · rw [recordsFrom_stop hstop]
      simp

/-- What is known of the place where the records end: it is reached in steps of 3, and there is no record. -/
theorem recordsFrom_spec (hi : i ≤ buffer.length.toNat) (hdvd : 3 ∣ i)
    (hfuel : buffer.length.toNat ≤ i + fuel) :
    (buffer.recordsFrom fuel i).2 ≤ buffer.length.toNat ∧ 3 ∣ (buffer.recordsFrom fuel i).2 ∧
      ∀ size, (buffer.typeAt (buffer.recordsFrom fuel i).2).size = some size →
        buffer.length.toNat < (buffer.recordsFrom fuel i).2 + size := by
  induction fuel generalizing i with
  | zero =>
    refine ⟨hi, hdvd, fun size hsize => ?_⟩
    have hpos := (size_dvd hsize).1
    show buffer.length.toNat < i + size
    omega
  | succ fuel ih =>
    rcases record_cases buffer i with ⟨size, hsize, hle⟩ | hstop
    · obtain ⟨hpos, hsizedvd⟩ := size_dvd hsize
      rw [recordsFrom_succ hsize hle]
      exact ih hle (Nat.dvd_add hdvd hsizedvd) (by omega)
    · rw [recordsFrom_stop hstop]
      exact ⟨hi, hdvd, hstop⟩

/-- The records lie in the buffer. -/
theorem mem_recordsFrom {k : Nat} (hk : k ∈ (buffer.recordsFrom fuel i).1) :
    ∃ size, (buffer.typeAt k).size = some size ∧ k + size ≤ buffer.length.toNat := by
  induction fuel generalizing i with
  | zero => cases hk
  | succ fuel ih =>
    rcases record_cases buffer i with ⟨size, hsize, hle⟩ | hstop
    · rw [recordsFrom_succ hsize hle] at hk
      rcases List.mem_cons.mp hk with rfl | hk
      · exact ⟨size, hsize, hle⟩
      · exact ih hk
    · rw [recordsFrom_stop hstop] at hk
      cases hk

/-! ## Records that are cut short -/

/-- The loop ends, reads the bytes of the buffer only, and does nothing with a record that is cut short. -/
def Safe (exrail : Bool) (buffer : Buffer) : Prop :=
  ∃ turns is, buffer.scan turns 0 = some is ∧ ∀ i ∈ is,
    (∀ k ∈ buffer.reads exrail i.toNat, k < buffer.length.toNat) ∧
      ((buffer.typeAt i.toNat).acts exrail = true → i.toNat ∈ buffer.records)

/-- What is read of a record lies in it. -/
theorem lt_of_mem_reads {size k : Nat} (hsize : (buffer.typeAt i).size = some size)
    (hk : k ∈ buffer.reads exrail i) : k < i + size := by
  unfold Buffer.reads at hk
  cases htype : buffer.typeAt i <;> rw [htype] at hsize hk <;> cases hsize
  · cases exrail <;> simp at hk <;> omega
  · cases exrail <;> simp at hk <;> omega
  · simp at hk
    omega

/-- A record with which something is done is read to its end. -/
theorem last_mem_reads (hacts : (buffer.typeAt i).acts exrail = true) :
    ∃ size, (buffer.typeAt i).size = some size ∧ i + size - 1 ∈ buffer.reads exrail i := by
  unfold Buffer.reads
  cases htype : buffer.typeAt i <;> rw [htype] at hacts
  · cases hacts
    exact ⟨3, rfl, by simp⟩
  · cases hacts
    exact ⟨3, rfl, by simp⟩
  · exact ⟨6, rfl, by simp⟩
  · cases hacts

theorem reads_of_not_acts (hacts : (buffer.typeAt i).acts exrail = false) : buffer.reads exrail i = [i] := by
  unfold Buffer.reads
  cases htype : buffer.typeAt i <;> rw [htype] at hacts <;> cases hacts <;> rfl

/-- The place where the records of the buffer end. -/
theorem stop_spec (buffer : Buffer) : buffer.stop ≤ buffer.length.toNat ∧ 3 ∣ buffer.stop ∧
    ∀ size, (buffer.typeAt buffer.stop).size = some size → buffer.length.toNat < buffer.stop + size :=
  recordsFrom_spec (Nat.zero_le _) (Nat.dvd_zero 3) (Nat.le_add_left _ _)

theorem scan_records (buffer : Buffer) (turns : Nat) : buffer.scan (buffer.records.length + turns) 0 =
    (buffer.scan turns (UInt8.ofNat buffer.stop)).map (buffer.records.map UInt8.ofNat ++ ·) :=
  scan_recordsFrom (Nat.zero_le _) turns

/-- A record that is cut short and left alone is the last one that the loop comes to. -/
theorem scan_stop (hlt : buffer.stop < buffer.length.toNat)
    (hacts : (buffer.typeAt buffer.stop).acts exrail = false) :
    buffer.scan 2 (UInt8.ofNat buffer.stop) = some [UInt8.ofNat buffer.stop] := by
  obtain ⟨hle, hdvd, hcut⟩ := stop_spec buffer
  have hlength := buffer.length.toNat_lt
  cases hsize : (buffer.typeAt buffer.stop).size with
  | none =>
    have htype : buffer.typeAt buffer.stop = .cvValueList := by
      cases htype : buffer.typeAt buffer.stop <;> rw [htype] at hsize <;> cases hsize
    have hin : UInt8.ofNat buffer.stop < buffer.length := by
      rw [UInt8.lt_iff_toNat_lt, toNat_ofNat_of_le hle]
      exact hlt
    rw [Buffer.scan, if_pos hin, toNat_ofNat_of_le hle, htype]
  | some size =>
    have hthree : size = 3 := by
      cases htype : buffer.typeAt buffer.stop <;> rw [htype] at hsize hacts <;> cases hsize
      · rfl
      · rfl
      · cases hacts
    have hcut' := hcut size hsize
    subst hthree
    -- the index stays below 256, as it is a multiple of 3
    have hbehind : ¬ UInt8.ofNat (buffer.stop + 3) < buffer.length := by
      rw [UInt8.lt_iff_toNat_lt, UInt8.toNat_ofNat']
      omega
    rw [scan_record hsize hlt, Buffer.scan, if_neg hbehind]
    rfl

/-- A record that is cut short, but not left alone, is read beyond the end of the buffer. -/
theorem not_safe (hlt : buffer.stop < buffer.length.toNat)
    (hacts : (buffer.typeAt buffer.stop).acts exrail = true) : ¬ Safe exrail buffer := by
  rintro ⟨turns, is, hscan, hsafe⟩
  obtain ⟨hle, -, hcut⟩ := stop_spec buffer
  have hmono := scan_mono hscan buffer.records.length
  rw [Nat.add_comm, scan_records] at hmono
  obtain ⟨js, hjs, rfl⟩ := Option.map_eq_some_iff.mp hmono
  obtain ⟨size, hsize, hlast⟩ := last_mem_reads hacts
  have hmem : UInt8.ofNat buffer.stop ∈ js := by
    cases turns with
    | zero => cases hjs
    | succ turns =>
      rw [scan_record hsize hlt] at hjs
      obtain ⟨rest, -, rfl⟩ := Option.map_eq_some_iff.mp hjs
      exact List.mem_cons_self
  have hreads := (hsafe _ (List.mem_append_right _ hmem)).1
  rw [toNat_ofNat_of_le hle] at hreads
  have hbad := hreads _ hlast
  have hcut' := hcut size hsize
  omega

/-- **`process` is safe** exactly if the records fill the buffer, or a byte that is no record follows them, or
the record that is cut short is a block record and the build has no EXRAIL. -/
theorem process_safe_iff (exrail : Bool) (buffer : Buffer) :
    Safe exrail buffer ↔
      buffer.stop = buffer.length.toNat ∨ (buffer.typeAt buffer.stop).acts exrail = false := by
  obtain ⟨hle, -, -⟩ := stop_spec buffer
  constructor
  · intro hsafe
    by_contra hnot
    rw [not_or, Bool.not_eq_false] at hnot
    exact not_safe (Nat.lt_of_le_of_ne hle hnot.1) hnot.2 hsafe
  · intro h
    -- what the loop comes to behind the records
    obtain ⟨rest, hrest, hharmless⟩ : ∃ rest, buffer.scan 2 (UInt8.ofNat buffer.stop) = some rest ∧
        ∀ i ∈ rest, i.toNat = buffer.stop ∧ buffer.stop < buffer.length.toNat ∧
          (buffer.typeAt buffer.stop).acts exrail = false := by
      by_cases hend : buffer.stop = buffer.length.toNat
      · have hout : ¬ UInt8.ofNat buffer.stop < buffer.length := by
          rw [UInt8.lt_iff_toNat_lt, toNat_ofNat_of_le hle, hend]
          exact Nat.lt_irrefl _
        exact ⟨[], by rw [Buffer.scan, if_neg hout], List.forall_mem_nil _⟩
      · have hlt : buffer.stop < buffer.length.toNat := Nat.lt_of_le_of_ne hle hend
        have hacts := h.resolve_left hend
        refine ⟨_, scan_stop hlt hacts, fun i hi => ?_⟩
        rw [List.mem_singleton.mp hi, toNat_ofNat_of_le hle]
        exact ⟨rfl, hlt, hacts⟩
    refine ⟨buffer.records.length + 2, _, by rw [scan_records, hrest]; rfl, fun i hi => ?_⟩
    rcases List.mem_append.mp hi with hi | hi
    · obtain ⟨k, hk, rfl⟩ := List.mem_map.mp hi
      obtain ⟨size, hsize, hin⟩ := mem_recordsFrom hk
      rw [toNat_ofNat_of_le (by omega : k ≤ buffer.length.toNat)]
      exact ⟨fun j hj => Nat.lt_of_lt_of_le (lt_of_mem_reads hsize hj) hin, fun _ => hk⟩
    · obtain ⟨hi', hlt, hacts⟩ := hharmless i hi
      rw [hi', reads_of_not_acts hacts, hacts]
      exact ⟨fun k hk => List.mem_singleton.mp hk ▸ hlt, fun hbad => absurd hbad Bool.false_ne_true⟩

/-- A buffer with nothing but the first byte of a CV record. -/
theorem cvValue_cut_short : ¬ ∀ (exrail : Bool) (buffer : Buffer), Safe exrail buffer := fun h =>
  @not_safe ⟨fun _ => 0x40, 1⟩ false (by decide) (by decide) (h false _)

end CommandStation.Railcom
