import Mathlib.Data.List.Basic

/-!
# Base 64

Three bytes are written as four characters of six bits each. At the end one or two bytes are filled up with
zeros, and the characters that have none of the bytes are `=`.
-/

namespace CommandStation.Lib.Base64

/-- The character for six bits. -/
def digit (n : Nat) : UInt8 :=
  if n < 26 then UInt8.ofNat (65 + n)
  else if n < 52 then UInt8.ofNat (97 + (n - 26))
  else if n < 62 then UInt8.ofNat (48 + (n - 52))
  else if n = 62 then 43 else 47

/-- The six bits of a character. -/
def value (c : UInt8) : Option Nat :=
  if 65 ≤ c ∧ c ≤ 90 then some (c.toNat - 65)
  else if 97 ≤ c ∧ c ≤ 122 then some (c.toNat - 97 + 26)
  else if 48 ≤ c ∧ c ≤ 57 then some (c.toNat - 48 + 52)
  else if c = 43 then some 62
  else if c = 47 then some 63 else none

/-- `=` -/
def pad : UInt8 := 61

theorem value_digit {n : Nat} (h : n < 64) : value (digit n) = some n := by
  have hall : ∀ n < 64, value (digit n) = some n := by decide +kernel
  exact hall n h

theorem digit_ne_pad {n : Nat} (h : n < 64) : digit n ≠ pad := by
  have hall : ∀ n < 64, digit n ≠ pad := by decide +kernel
  exact hall n h

/-- The four characters of three bytes. -/
def group (a b c : UInt8) : List UInt8 :=
  [digit (a.toNat / 4), digit (a.toNat % 4 * 16 + b.toNat / 16), digit (b.toNat % 16 * 4 + c.toNat / 64),
    digit (c.toNat % 64)]

def encode : List UInt8 → List UInt8
  | [] => []
  | [a] => (group a 0 0).take 2 ++ [pad, pad]
  | [a, b] => (group a b 0).take 3 ++ [pad]
  | a :: b :: c :: rest => group a b c ++ encode rest

/-- The three bytes of four characters. -/
def ungroup (s t u v : Nat) : List UInt8 :=
  [UInt8.ofNat (s * 4 + t / 16), UInt8.ofNat (t % 16 * 16 + u / 4), UInt8.ofNat (u % 4 * 64 + v)]

def decode : List UInt8 → Option (List UInt8)
  | [] => some []
  | c0 :: c1 :: c2 :: c3 :: rest => do
    let s ← value c0
    let t ← value c1
    if c2 = pad ∧ c3 = pad ∧ rest = [] then return (ungroup s t 0 0).take 1
    let u ← value c2
    if c3 = pad ∧ rest = [] then return (ungroup s t u 0).take 2
    let v ← value c3
    return ungroup s t u v ++ (← decode rest)
  | _ => none

/-! ## What is written can be read -/

/-- The four letters of a group give back its three bytes. -/
theorem ungroup_group (a b c : UInt8) :
    ungroup (a.toNat / 4) (a.toNat % 4 * 16 + b.toNat / 16) (b.toNat % 16 * 4 + c.toNat / 64)
      (c.toNat % 64) = [a, b, c] := by
  have ha : a.toNat / 4 * 4 + (a.toNat % 4 * 16 + b.toNat / 16) / 16 = a.toNat := by
    have := b.toNat_lt
    omega
  have hb : (a.toNat % 4 * 16 + b.toNat / 16) % 16 * 16 + (b.toNat % 16 * 4 + c.toNat / 64) / 4 =
      b.toNat := by
    have := b.toNat_lt
    have := c.toNat_lt
    omega
  have hc : (b.toNat % 16 * 4 + c.toNat / 64) % 4 * 64 + c.toNat % 64 = c.toNat := by
    have := c.toNat_lt
    omega
  rw [ungroup, ha, hb, hc]
  simp

/-- The four values of a group are six bits each. -/
theorem value_group (a b c : UInt8) :
    value (digit (a.toNat / 4)) = some (a.toNat / 4) ∧
      value (digit (a.toNat % 4 * 16 + b.toNat / 16)) = some (a.toNat % 4 * 16 + b.toNat / 16) ∧
      value (digit (b.toNat % 16 * 4 + c.toNat / 64)) = some (b.toNat % 16 * 4 + c.toNat / 64) ∧
      value (digit (c.toNat % 64)) = some (c.toNat % 64) := by
  have ha := a.toNat_lt
  have hb := b.toNat_lt
  have hc := c.toNat_lt
  exact ⟨value_digit (by omega), value_digit (by omega), value_digit (by omega), value_digit (by omega)⟩

/-- Decoding gives back what was encoded. -/
theorem decode_encode : ∀ xs : List UInt8, decode (encode xs) = some xs
  | [] => rfl
  | [a] => by
    obtain ⟨hs, ht, -, -⟩ := value_group a 0 0
    have hbytes := ungroup_group a 0 0
    simp only [encode, group, List.take_succ_cons, List.take_zero, List.cons_append, List.nil_append]
    rw [decode, hs, ht]
    simpa using congrArg (List.take 1) hbytes
  | [a, b] => by
    obtain ⟨hs, ht, hu, -⟩ := value_group a b 0
    have hbytes := ungroup_group a b 0
    have hne : digit (b.toNat % 16 * 4) ≠ pad := digit_ne_pad (by omega)
    simp only [encode, group, List.take_succ_cons, List.take_zero, List.cons_append, List.nil_append]
    rw [decode, hs, ht, hu]
    simpa [hne] using congrArg (List.take 2) hbytes
  | a :: b :: c :: rest => by
    obtain ⟨hs, ht, hu, hv⟩ := value_group a b c
    have hbytes := ungroup_group a b c
    have hne : digit (c.toNat % 64) ≠ pad := digit_ne_pad (by omega)
    have hrest := decode_encode rest
    simp only [encode, group, List.cons_append, List.nil_append]
    rw [decode, hs, ht, hu, hv, hrest]
    simp [hne, hbytes]

theorem encode_injective : Function.Injective encode := by
  intro xs ys h
  have hdecode := decode_encode xs
  rw [h, decode_encode] at hdecode
  exact (Option.some.inj hdecode).symm

/-- What is written has characters of the alphabet and `=` only. -/
theorem encode_mem {xs : List UInt8} {c : UInt8} (h : c ∈ encode xs) : c = pad ∨ (value c).isSome := by
  induction xs using encode.induct with
  | case1 => simp [encode] at h
  | case2 a =>
    obtain ⟨hs, ht, -, -⟩ := value_group a 0 0
    simp only [encode, group, List.take_succ_cons, List.take_zero, List.cons_append, List.nil_append,
      List.mem_cons, List.not_mem_nil, or_false] at h
    rcases h with rfl | rfl | rfl | rfl
    · exact .inr (by rw [hs]; rfl)
    · exact .inr (by rw [ht]; rfl)
    · exact .inl rfl
    · exact .inl rfl
  | case3 a b =>
    obtain ⟨hs, ht, hu, -⟩ := value_group a b 0
    simp only [encode, group, List.take_succ_cons, List.take_zero, List.cons_append, List.nil_append,
      List.mem_cons, List.not_mem_nil, or_false] at h
    rcases h with rfl | rfl | rfl | rfl
    · exact .inr (by rw [hs]; rfl)
    · exact .inr (by rw [ht]; rfl)
    · exact .inr (by rw [hu]; rfl)
    · exact .inl rfl
  | case4 a b c rest ih =>
    obtain ⟨hs, ht, hu, hv⟩ := value_group a b c
    simp only [encode, group, List.cons_append, List.nil_append, List.mem_cons] at h
    rcases h with rfl | rfl | rfl | rfl | h
    · exact .inr (by rw [hs]; rfl)
    · exact .inr (by rw [ht]; rfl)
    · exact .inr (by rw [hu]; rfl)
    · exact .inr (by rw [hv]; rfl)
    · exact ih h

end CommandStation.Lib.Base64
