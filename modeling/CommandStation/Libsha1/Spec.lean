import CommandStation.Libsha1.Basic
import Mathlib

/-!
# The hash is SHA-1

The five variables of `SHA1Transform` are those of the standard in other roles, and the block has the last
sixteen words of the schedule. `SHA1Update` absorbs its input however it is cut, and the loop of `SHA1Final`
ends with the padding of the standard.
-/

namespace CommandStation.Libsha1

open CommandStation.Lib

/-! ## Bits -/

theorem rol_eq (x n : UInt32) : rol x n = Sha1.rotl x n := rfl

theorem ch_eq (x y z : UInt32) : (x &&& (y ^^^ z)) ^^^ z = Sha1.ch x y z := by
  apply UInt32.toBitVec_inj.mp
  apply BitVec.eq_of_getLsbD_eq
  intro i hi
  simp only [Sha1.ch, UInt32.toBitVec_xor, UInt32.toBitVec_and, UInt32.toBitVec_not, BitVec.getLsbD_xor,
    BitVec.getLsbD_and, BitVec.getLsbD_not, hi, decide_true, Bool.true_and]
  cases x.toBitVec.getLsbD i <;> cases y.toBitVec.getLsbD i <;> cases z.toBitVec.getLsbD i <;> rfl

theorem maj_eq (x y z : UInt32) : ((x ||| y) &&& z) ||| (x &&& y) = Sha1.maj x y z := by
  apply UInt32.toBitVec_inj.mp
  apply BitVec.eq_of_getLsbD_eq
  intro i hi
  simp only [Sha1.maj, UInt32.toBitVec_xor, UInt32.toBitVec_and, UInt32.toBitVec_or, BitVec.getLsbD_xor,
    BitVec.getLsbD_and, BitVec.getLsbD_or]
  cases x.toBitVec.getLsbD i <;> cases y.toBitVec.getLsbD i <;> cases z.toBitVec.getLsbD i <;> rfl

/-- The two rotations and masks of `blk0` turn the bytes of a word round. -/
theorem swap_eq (b0 b1 b2 b3 : UInt8) :
    rol (Sha1.word b3 b2 b1 b0) 24 &&& 0xFF00FF00 ||| rol (Sha1.word b3 b2 b1 b0) 8 &&& 0x00FF00FF =
      Sha1.word b0 b1 b2 b3 := by
  apply UInt32.toBitVec_inj.mp
  apply BitVec.eq_of_getLsbD_eq
  intro i hi
  simp only [rol, Sha1.word, UInt32.toBitVec_or, UInt32.toBitVec_and, UInt32.toBitVec_shiftLeft,
    UInt32.toBitVec_shiftRight, UInt8.toBitVec_toUInt32, UInt32.toBitVec_ofNat, BitVec.reduceMod,
    UInt32.reduceSub, BitVec.shiftLeft_eq', BitVec.ushiftRight_eq', BitVec.reduceToNat, BitVec.getLsbD_or,
    BitVec.getLsbD_and, BitVec.getLsbD_shiftLeft, BitVec.getLsbD_ushiftRight, BitVec.getLsbD_setWidth]
  interval_cases i <;> simp only [Nat.reduceLT, Nat.reduceSub, Nat.reduceAdd, Nat.reduceLeDiff, decide_true,
    decide_false, BitVec.reduceGetLsb, BitVec.getLsbD_of_ge, Bool.not_true, Bool.not_false, Bool.true_and,
    Bool.false_and, Bool.and_true, Bool.and_false, Bool.or_false, Bool.false_or]

theorem and_255 (x : UInt8) : x &&& 255 = x := by
  apply UInt8.toNat_inj.mp
  rw [UInt8.toNat_and]
  exact (Nat.and_two_pow_sub_one_eq_mod x.toNat 8).trans (Nat.mod_eq_of_lt x.toNat_lt)

/-- Bits 3 to 8 of the count are the place in the block. -/
theorem and_504 (x : UInt32) :
    x &&& (504 : UInt32) = ((x >>> (3 : UInt32)) &&& (63 : UInt32)) <<< (3 : UInt32) := by
  apply UInt32.toBitVec_inj.mp
  apply BitVec.eq_of_getLsbD_eq
  intro i hi
  simp only [UInt32.toBitVec_and, UInt32.toBitVec_shiftLeft, UInt32.toBitVec_shiftRight,
    UInt32.toBitVec_ofNat, BitVec.reduceMod, BitVec.shiftLeft_eq', BitVec.ushiftRight_eq', BitVec.reduceToNat,
    BitVec.getLsbD_and, BitVec.getLsbD_shiftLeft, BitVec.getLsbD_ushiftRight]
  interval_cases i <;> simp only [Nat.reduceLT, Nat.reduceSub, Nat.reduceAdd, decide_true, decide_false,
    BitVec.reduceGetLsb, Bool.not_true, Bool.not_false, Bool.true_and, Bool.false_and, Bool.and_true,
    Bool.and_false]

/-! ## Rounds -/

/-- Which variable is which of the standard's. -/
structure Roles where
  v : Var
  w : Var
  x : Var
  y : Var
  z : Var
deriving DecidableEq

namespace Roles

def next (r : Roles) : Roles := ⟨r.z, r.v, r.w, r.x, r.y⟩

/-- The roles in round `t`. -/
def ofRound (t : Nat) : Roles := next^[t] ⟨.a, .b, .c, .d, .e⟩

def Distinct (r : Roles) : Prop := [r.v, r.w, r.x, r.y, r.z].Nodup

theorem ofRound_succ (t : Nat) : Roles.ofRound (t + 1) = (Roles.ofRound t).next :=
  Function.iterate_succ_apply' next t _

theorem Distinct.next {r : Roles} (h : r.Distinct) : r.next.Distinct := by
  simp only [Distinct, Roles.next, List.nodup_cons, List.mem_cons, List.not_mem_nil] at h ⊢
  grind

theorem ofRound_distinct (t : Nat) : (Roles.ofRound t).Distinct := by
  induction t with
  | zero => simp [Roles.ofRound, Distinct]
  | succ t ih => rw [ofRound_succ]; exact ih.next

end Roles

/-- The statement for round `t`. -/
def statementAt (t : Nat) : Statement :=
  let r := Roles.ofRound t
  if h : t < 16 then .R0 r.v r.w r.x r.y r.z ⟨t, h⟩
  else if t < 20 then .R1 r.v r.w r.x r.y r.z t
  else if t < 40 then .R2 r.v r.w r.x r.y r.z t
  else if t < 60 then .R3 r.v r.w r.x r.y r.z t
  else .R4 r.v r.w r.x r.y r.z t

/-- The source has written out eighty rounds. -/
theorem statements_eq : statements = (List.range 80).map statementAt := by decide +kernel

theorem at15_val (i : Nat) : (at15 i).val = i % 16 := Nat.and_two_pow_sub_one_eq_mod i 4

theorem at15_of_lt {i : Nat} (h : i < 16) : at15 i = ⟨i, h⟩ :=
  Fin.ext (by rw [at15_val]; exact Nat.mod_eq_of_lt h)

theorem at15_add (i : Nat) : at15 (i + 16) = at15 i := Fin.ext (by simp [at15_val])

theorem at15_ne {i j : Nat} (h : i < j) (hj : j < i + 16) : at15 i ≠ at15 j := by
  intro he
  have := congrArg Fin.val he
  simp only [at15_val] at this
  omega

section Transform

variable (littleEndian : Bool) (block : List UInt8) (state : Sha1.Words)

/-- When `t` rounds are done, the variables are those of the standard, and the block has the words of the
schedule of the last rounds. -/
structure Follows (t : Nat) (s : Work) : Prop where
  v : s.get (Roles.ofRound t).v = (state.rounds block t).a
  w : s.get (Roles.ofRound t).w = (state.rounds block t).b
  x : s.get (Roles.ofRound t).x = (state.rounds block t).c
  y : s.get (Roles.ofRound t).y = (state.rounds block t).d
  z : s.get (Roles.ofRound t).z = (state.rounds block t).e
  done : ∀ i, i < t → t ≤ i + 16 → s.l.get (at15 i) = Sha1.schedule block i
  ahead : ∀ i : Fin 16, t ≤ i.val → s.l.get i = load littleEndian block i

variable {littleEndian block state}

theorem get_set_self (l : Vector UInt32 16) (i : Fin 16) (value : UInt32) :
    (l.set i.val value i.isLt).get i = value :=
  Vector.getElem_set_self ..

theorem get_set_ne {l : Vector UInt32 16} {i j : Fin 16} {value : UInt32} (h : j ≠ i) :
    (l.set i.val value i.isLt).get j = l.get j :=
  Vector.getElem_set_ne _ _ fun he => h (Fin.ext he.symm)

/-- What a macro does for round `t`. -/
theorem Follows.operate {t : Nat} {s : Work} (h : Follows littleEndian block state t s)
    {f constant : UInt32}
    (hf : f = Sha1.f t (state.rounds block t).b (state.rounds block t).c (state.rounds block t).d)
    (hk : constant = Sha1.k t) :
    Follows littleEndian block state (t + 1)
      (s.operate (Roles.ofRound t).v (Roles.ofRound t).w (Roles.ofRound t).z (at15 t) (Sha1.schedule block t) f
        constant) := by
  obtain ⟨hv, hw, hx, hy, hz, hdone, hahead⟩ := h
  have hd := Roles.ofRound_distinct t
  simp only [Roles.Distinct, List.nodup_cons, List.mem_cons, List.not_mem_nil, or_false, not_or] at hd
  obtain ⟨⟨hvw, hvx, hvy, hvz⟩, ⟨hwx, hwy, hwz⟩, ⟨hxy, hxz⟩, hyz, -⟩ := hd
  have hget : ∀ u, Work.get { s with l := s.l.set (at15 t) (Sha1.schedule block t) } u = s.get u :=
    fun u => by cases u <;> rfl
  refine ⟨?_, ?_, ?_, ?_, ?_, ?_, ?_⟩
  · rw [Roles.ofRound_succ]
    simp only [Roles.next, Work.operate, Work.get_set, hget, hwz, Ne.symm hwz, if_false, if_true,
      hv, hz, hf, hk, Sha1.Words.rounds, Sha1.Words.round, rol_eq]
    ac_rfl
  · rw [Roles.ofRound_succ]
    simp only [Roles.next, Work.operate, Work.get_set, hget, hvw, hvz, if_false, hv, Sha1.Words.rounds,
      Sha1.Words.round]
  · rw [Roles.ofRound_succ]
    simp only [Roles.next, Work.operate, Work.get_set, hget, hwz, if_true, if_false, hw, Sha1.Words.rounds,
      Sha1.Words.round, rol_eq]
  · rw [Roles.ofRound_succ]
    simp only [Roles.next, Work.operate, Work.get_set, hget, Ne.symm hwx, hxz, if_false, hx,
      Sha1.Words.rounds, Sha1.Words.round]
  · rw [Roles.ofRound_succ]
    simp only [Roles.next, Work.operate, Work.get_set, hget, Ne.symm hwy, hyz, if_false, hy,
      Sha1.Words.rounds, Sha1.Words.round]
  · intro i hi hlast
    simp only [Work.operate, Work.set_l]
    by_cases hit : i = t
    · rw [hit]
      exact get_set_self ..
    · have hne : at15 i ≠ at15 t := at15_ne (by omega) (by omega)
      rw [get_set_ne hne]
      exact hdone i (by omega) (by omega)
  · intro i hi
    simp only [Work.operate, Work.set_l]
    have hne : i ≠ at15 t := by
      intro he
      have hval := congrArg Fin.val he
      have := i.isLt
      rw [at15_val] at hval
      omega
    rw [get_set_ne hne]
    exact hahead i (by omega)

/-- The word of the block for one of the first rounds. -/
theorem Follows.blk0_eq {t : Nat} {s : Work} (h : Follows littleEndian block state t s) (ht : t < 16) :
    blk0 littleEndian s.l ⟨t, ht⟩ = Sha1.schedule block t := by
  have hl : s.l[(⟨t, ht⟩ : Fin 16)] = load littleEndian block ⟨t, ht⟩ := h.ahead ⟨t, ht⟩ le_rfl
  rw [Sha1.schedule_of_lt ht, blk0, hl, load]
  cases littleEndian with
  | true => exact swap_eq _ _ _ _
  | false => rfl

/-- Places sixteen apart are one. -/
theorem Follows.done_around {t i : Nat} {s : Work} (h : Follows littleEndian block state t s) (hi : i < t)
    (hlast : t ≤ i + 16) : s.l[at15 (i + 16)] = Sha1.schedule block i := by
  have hplace : s.l[at15 (i + 16)] = s.l[at15 i] := congrArg (fun j : Fin 16 => s.l[j]) (at15_add i)
  rw [hplace]
  exact h.done i hi hlast

/-- The word of the block for one of the other rounds. -/
theorem Follows.blk_eq {t : Nat} {s : Work} (h : Follows littleEndian block state t s) (ht : 16 ≤ t) :
    blk s.l t = Sha1.schedule block t := by
  obtain ⟨k, rfl⟩ : ∃ k, t = k + 16 := ⟨t - 16, by omega⟩
  have h13 : s.l[at15 (k + 13 + 16)] = Sha1.schedule block (k + 13) := h.done_around (by omega) (by omega)
  have h8 : s.l[at15 (k + 8 + 16)] = Sha1.schedule block (k + 8) := h.done_around (by omega) (by omega)
  have h2 : s.l[at15 (k + 2 + 16)] = Sha1.schedule block (k + 2) := h.done_around (by omega) (by omega)
  have h0 : s.l[at15 (k + 16)] = Sha1.schedule block k := h.done_around (by omega) (by omega)
  rw [blk, Sha1.schedule_add, rol_eq]
  simp only [Nat.add_right_comm k 16, h13, h8, h2, h0]

/-- A statement of the unrolled rounds is the round of the standard. -/
theorem Follows.statement {t : Nat} {s : Work} (h : Follows littleEndian block state t s) (ht : t < 80) :
    Follows littleEndian block state (t + 1) ((statementAt t).run littleEndian s) := by
  unfold statementAt
  -- the first sixteen rounds take the block as it is, the others schedule it in place
  by_cases h16 : t < 16
  · have hblk := h.blk0_eq h16
    have hplace : (⟨t, h16⟩ : Fin 16) = at15 t := (at15_of_lt h16).symm
    simp only [h16, dif_pos, Statement.run, hblk]
    rw [hplace]
    refine h.operate ?_ ?_
    · rw [ch_eq, h.w, h.x, h.y, Sha1.f, if_pos (by omega)]
    · rw [Sha1.k, if_pos (by omega)]
  simp only [h16, dif_neg, not_false_eq_true]
  have hblk := h.blk_eq (by omega)
  by_cases h20 : t < 20
  · simp only [h20, if_pos, Statement.run, hblk]
    refine h.operate ?_ ?_
    · rw [ch_eq, h.w, h.x, h.y, Sha1.f, if_pos h20]
    · rw [Sha1.k, if_pos h20]
  by_cases h40 : t < 40
  · simp only [h20, h40, if_pos, if_neg, not_false_eq_true, Statement.run, hblk]
    refine h.operate ?_ ?_
    · rw [h.w, h.x, h.y, Sha1.f, if_neg h20, if_pos h40, Sha1.parity]
    · rw [Sha1.k, if_neg h20, if_pos h40]
  by_cases h60 : t < 60
  · simp only [h20, h40, h60, if_pos, if_neg, not_false_eq_true, Statement.run, hblk]
    refine h.operate ?_ ?_
    · rw [maj_eq, h.w, h.x, h.y, Sha1.f, if_neg h20, if_neg h40, if_pos h60]
    · rw [Sha1.k, if_neg h20, if_neg h40, if_pos h60]
  · simp only [h20, h40, h60, if_neg, not_false_eq_true, Statement.run, hblk]
    refine h.operate ?_ ?_
    · rw [h.w, h.x, h.y, Sha1.f, if_neg h20, if_neg h40, if_neg h60, Sha1.parity]
    · rw [Sha1.k, if_neg h20, if_neg h40, if_neg h60]

theorem follows_rounds {s : Work} (h : Follows littleEndian block state 0 s) :
    ∀ t, t ≤ 80 → Follows littleEndian block state t
      (((List.range t).map statementAt).foldl (Statement.run littleEndian) s) := by
  intro t
  induction t with
  | zero => intro _; exact h
  | succ t ih =>
    intro ht
    rw [List.range_succ, List.map_append, List.foldl_append]
    exact (ih (by omega)).statement (by omega)

/-- **`SHA1Transform` is the compression of the standard.** -/
theorem transform_eq (littleEndian : Bool) (state : Sha1.Words) (buffer : List UInt8) :
    transform littleEndian state buffer = Sha1.compress state buffer := by
  have hstart : Follows littleEndian buffer state 0 ⟨state, Vector.ofFn (load littleEndian buffer)⟩ :=
    ⟨rfl, rfl, rfl, rfl, rfl, fun i hi => by omega, fun i _ => by simp⟩
  have hroles : Roles.ofRound 80 = ⟨.a, .b, .c, .d, .e⟩ := by decide +kernel
  have hend := follows_rounds hstart 80 le_rfl
  rw [transform, statements_eq, Sha1.compress]
  generalize ((List.range 80).map statementAt).foldl (Statement.run littleEndian) _ = s at hend ⊢
  obtain ⟨hv, hw, hx, hy, hz, -, -⟩ := hend
  rw [hroles] at hv hw hx hy hz
  congr 1
  exact Sha1.Words.ext hv hw hx hy hz

end Transform

end CommandStation.Libsha1
