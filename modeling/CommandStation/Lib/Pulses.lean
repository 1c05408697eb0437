import Mathlib.Data.List.Basic

/-!
# Pulses of a sampled signal

A signal is sampled, and each sample is high or low. A pulse goes from a high sample to the first of
`n` consecutive low ones, so dips that are shorter than that are bridged. It begins with the first high
sample of all, or with the first one after the pulse before is over. Somebody who sees one sample after
the other is idle or inside a pulse, with some low samples at the end.
-/

namespace CommandStation.Lib

variable {α : Type} (high : α → Prop) (n : Nat)

/-- There is a high sample at a position. -/
def HighAt (xs : List α) (k : Nat) : Prop := ∃ x, xs[k]? = some x ∧ high x

/-- There is a low sample at a position. -/
def LowAt (xs : List α) (k : Nat) : Prop := ∃ x, xs[k]? = some x ∧ ¬ high x

/-- `n` samples from `k` on are low. -/
def Quiet (xs : List α) (k : Nat) : Prop := ∀ i < n, LowAt high xs (k + i)

/-- No pulse has begun, or the last one is over. -/
def Over (xs : List α) (k : Nat) : Prop :=
  (∀ i < k, ¬ HighAt high xs i) ∨ ∃ i, i + n = k ∧ Quiet high n xs i

/-- A pulse from `i` to `j`. -/
structure Pulse (xs : List α) (i j : Nat) : Prop where
  leading : HighAt high xs i
  behind : Over high n xs i
  after : i < j
  trailing : Quiet high n xs j
  bridged : ∀ k, i < k → k < j → ¬ Quiet high n xs k

/-- A pulse that began at `i` is going on, the last `t` samples are low. -/
structure Inside (xs : List α) (i t : Nat) : Prop where
  leading : HighAt high xs i
  behind : Over high n xs i
  few : t < n
  low : ∀ k < t, LowAt high xs (xs.length - t + k)
  last : ∃ k, k + t + 1 = xs.length ∧ i ≤ k ∧ HighAt high xs k
  bridged : ∀ k, i < k → ¬ Quiet high n xs k

variable {high n} {xs ys : List α} {x : α} {i j k t : Nat}

theorem HighAt.lt (h : HighAt high xs k) : k < xs.length := by
  obtain ⟨x, hx, -⟩ := h
  exact (List.getElem?_eq_some_iff.mp hx).1

theorem LowAt.lt (h : LowAt high xs k) : k < xs.length := by
  obtain ⟨x, hx, -⟩ := h
  exact (List.getElem?_eq_some_iff.mp hx).1

theorem HighAt.not_low (h : HighAt high xs k) : ¬ LowAt high xs k := by
  rintro ⟨y, hy, hlow⟩
  obtain ⟨x, hx, hhigh⟩ := h
  rw [hx] at hy
  exact hlow (Option.some.inj hy ▸ hhigh)

theorem highAt_append (hk : k < xs.length) : HighAt high (xs ++ ys) k ↔ HighAt high xs k := by
  unfold HighAt
  rw [List.getElem?_append_left hk]

theorem lowAt_append (hk : k < xs.length) : LowAt high (xs ++ ys) k ↔ LowAt high xs k := by
  unfold LowAt
  rw [List.getElem?_append_left hk]

theorem highAt_last : HighAt high (xs ++ [x]) xs.length ↔ high x := by
  unfold HighAt
  rw [List.getElem?_append_right (Nat.le_refl _), Nat.sub_self]
  simp

theorem lowAt_last : LowAt high (xs ++ [x]) xs.length ↔ ¬ high x := by
  unfold LowAt
  rw [List.getElem?_append_right (Nat.le_refl _), Nat.sub_self]
  simp

theorem Quiet.le (h : Quiet high n xs k) (hn : 0 < n) : k + n ≤ xs.length := by
  have := (h (n - 1) (by omega)).lt
  omega

theorem quiet_append (hk : k + n ≤ xs.length) : Quiet high n (xs ++ ys) k ↔ Quiet high n xs k :=
  forall_congr' fun _ => forall_congr' fun _ => lowAt_append (by omega)

theorem Quiet.append (h : Quiet high n xs k) (hn : 0 < n) : Quiet high n (xs ++ ys) k :=
  (quiet_append (h.le hn)).mpr h

theorem over_append (hk : k ≤ xs.length) : Over high n (xs ++ ys) k ↔ Over high n xs k := by
  unfold Over
  refine or_congr ?_ ?_
  · exact forall_congr' fun _ => forall_congr' fun _ => not_congr (highAt_append (by omega))
  · exact exists_congr fun _ => and_congr_right fun _ => quiet_append (by omega)

/-- What a pulse is does not depend on later samples. -/
theorem pulse_append (hj : j + n ≤ xs.length) : Pulse high n (xs ++ ys) i j ↔ Pulse high n xs i j := by
  constructor
  · rintro ⟨hlead, hover, hafter, htrail, hbridge⟩
    refine ⟨(highAt_append (by omega)).mp hlead, (over_append (by omega)).mp hover, hafter,
      (quiet_append hj).mp htrail, fun k hk hkj hquiet => ?_⟩
    exact hbridge k hk hkj ((quiet_append (by omega)).mpr hquiet)
  · rintro ⟨hlead, hover, hafter, htrail, hbridge⟩
    refine ⟨(highAt_append hlead.lt).mpr hlead, (over_append (Nat.le_of_lt hlead.lt)).mpr hover, hafter,
      (quiet_append hj).mpr htrail, fun k hk hkj hquiet => ?_⟩
    exact hbridge k hk hkj ((quiet_append (by omega)).mp hquiet)

theorem Pulse.append (h : Pulse high n xs i j) (hn : 0 < n) (ys : List α) : Pulse high n (xs ++ ys) i j :=
  (pulse_append (h.trailing.le hn)).mpr h

/-! ## One sample more -/

/-- A low sample begins no pulse. -/
theorem over_low (h : Over high n xs xs.length) (hx : ¬ high x) :
    Over high n (xs ++ [x]) (xs ++ [x]).length := by
  rw [List.length_append, List.length_singleton]
  rcases h with hnone | ⟨i, hi, hquiet⟩
  · left
    intro i hi
    by_cases hlast : i = xs.length
    · rw [hlast, highAt_last]
      exact hx
    · rw [highAt_append (by omega)]
      exact hnone i (by omega)
  · right
    refine ⟨i + 1, by omega, fun k hk => ?_⟩
    by_cases hlast : k + 1 = n
    · rw [show i + 1 + k = xs.length by omega, lowAt_last]
      exact hx
    · rw [lowAt_append (by omega), Nat.add_assoc, Nat.add_comm 1]
      exact hquiet (k + 1) (by omega)

theorem inside_high (h : Over high n xs xs.length) (hn : 0 < n) (hx : high x) :
    Inside high n (xs ++ [x]) xs.length 0 := by
  refine ⟨highAt_last.mpr hx, (over_append (Nat.le_refl _)).mpr h, hn, (fun k hk => by cases hk),
    ⟨xs.length, by simp, Nat.le_refl _, highAt_last.mpr hx⟩, fun k hk hquiet => ?_⟩
  have := hquiet.le hn
  rw [List.length_append, List.length_singleton] at this
  omega

namespace Inside

theorem start_lt (h : Inside high n xs i t) : i < xs.length := h.leading.lt

/-- Samples that are low to the end are no more than those counted. -/
theorem quiet_le (h : Inside high n xs i t) (hlow : ∀ m, k ≤ m → m < xs.length → LowAt high xs m) :
    xs.length ≤ k + t := by
  obtain ⟨m, hm, -, hhigh⟩ := h.last
  by_contra hlt
  exact hhigh.not_low (hlow m (by omega) (by omega))

theorem high_more (h : Inside high n xs i t) (hn : 0 < n) (hx : high x) : Inside high n (xs ++ [x]) i 0 := by
  refine ⟨(highAt_append h.start_lt).mpr h.leading, (over_append (Nat.le_of_lt h.start_lt)).mpr h.behind, hn,
    (fun k hk => by cases hk), ⟨xs.length, by simp, Nat.le_of_lt h.start_lt, highAt_last.mpr hx⟩,
    fun k hk hquiet => ?_⟩
  have hle := hquiet.le hn
  rw [List.length_append, List.length_singleton] at hle
  by_cases hend : k + n ≤ xs.length
  · exact h.bridged k hk ((quiet_append hend).mp hquiet)
  · have hlast := hquiet (n - 1) (by omega)
    rw [show k + (n - 1) = xs.length by omega, lowAt_last] at hlast
    exact hlast hx

/-- The low samples at the end, with one more. -/
theorem low_succ (h : Inside high n xs i t) (hx : ¬ high x) :
    ∀ k < t + 1, LowAt high (xs ++ [x]) (xs.length - t + k) := by
  intro k hk
  obtain ⟨m, hm, -⟩ := h.last
  by_cases hlast : k = t
  · rw [show xs.length - t + k = xs.length by omega, lowAt_last]
    exact hx
  · rw [lowAt_append (by omega)]
    exact h.low k (by omega)

/-- With fewer than `n` low samples the pulse goes on. -/
theorem low_more (h : Inside high n xs i t) (hx : ¬ high x) (ht : t + 1 < n) :
    Inside high n (xs ++ [x]) i (t + 1) := by
  obtain ⟨m, hm, him, hhigh⟩ := h.last
  refine ⟨(highAt_append h.start_lt).mpr h.leading, (over_append (Nat.le_of_lt h.start_lt)).mpr h.behind, ht,
    ?_, ⟨m, by simp; omega, him, (highAt_append (by omega)).mpr hhigh⟩, fun k hk hquiet => ?_⟩
  · rw [List.length_append, List.length_singleton, Nat.add_sub_add_right]
    exact h.low_succ hx
  · have hle := hquiet.le (by omega)
    rw [List.length_append, List.length_singleton] at hle
    by_cases hend : k + n ≤ xs.length
    · exact h.bridged k hk ((quiet_append hend).mp hquiet)
    · have := h.quiet_le (k := k) fun m hkm hmlt => by
        have hlow := hquiet (m - k) (by omega)
        rwa [show k + (m - k) = m by omega, lowAt_append hmlt] at hlow
      omega

/-- With the last of the low samples the pulse is over. -/
theorem low_end (h : Inside high n xs i t) (hx : ¬ high x) (ht : t + 1 = n) :
    Over high n (xs ++ [x]) (xs ++ [x]).length ∧ Pulse high n (xs ++ [x]) i (xs.length - t) := by
  obtain ⟨m, hm, him, hhigh⟩ := h.last
  have hquiet : Quiet high n (xs ++ [x]) (xs.length - t) := by
    rw [← ht]
    exact h.low_succ hx
  refine ⟨.inr ⟨xs.length - t, by simp; omega, hquiet⟩,
    ⟨(highAt_append h.start_lt).mpr h.leading, (over_append (Nat.le_of_lt h.start_lt)).mpr h.behind, by omega,
      hquiet, fun k hk hkj hbefore => ?_⟩⟩
  exact h.bridged k hk ((quiet_append (by omega)).mp hbefore)

end Inside

/-! ## No other pulses -/

theorem Pulse.end_eq (h : Pulse high n (xs ++ [x]) i j) (hn : 0 < n) (hnew : ¬ Pulse high n xs i j) :
    j + n = xs.length + 1 := by
  have hle := h.trailing.le hn
  rw [List.length_append, List.length_singleton] at hle
  by_contra hne
  exact hnew ((pulse_append (by omega)).mp h)

/-- A pulse does not begin before one that is over. -/
theorem Over.not_pulse (h : Over high n xs k) (hi : HighAt high xs i) (hlt : i < k)
    (hbridge : ∀ m, i < m → m + n ≤ k → ¬ Quiet high n xs m) : False := by
  rcases h with hnone | ⟨m, hm, hquiet⟩
  · exact hnone i hlt hi
  · by_cases hbefore : i < m
    · exact hbridge m hbefore (by omega) hquiet
    · have hlow := hquiet (i - m) (by omega)
      rw [show m + (i - m) = i by omega] at hlow
      exact hi.not_low hlow

/-- No pulse ends while none is going on. -/
theorem Over.no_new (h : Over high n xs xs.length) (hn : 0 < n) (hp : Pulse high n (xs ++ [x]) i j) :
    Pulse high n xs i j := by
  by_contra hnew
  have hend := hp.end_eq hn hnew
  have hi : i < xs.length := by
    have := hp.after
    omega
  refine h.not_pulse ((highAt_append hi).mp hp.leading) hi fun m him hm hquiet => ?_
  exact hp.bridged m him (by omega) (hquiet.append hn)

/-- The only new pulse is the one that is going on. -/
theorem Inside.new_eq (h : Inside high n xs i t) (hn : 0 < n) {i' j : Nat}
    (hp : Pulse high n (xs ++ [x]) i' j) (hnew : ¬ Pulse high n xs i' j) :
    i' = i ∧ j = xs.length - t ∧ t + 1 = n ∧ ¬ high x := by
  have hend := hp.end_eq hn hnew
  have hafter := hp.after
  have hlast := hp.trailing (n - 1) (by omega)
  rw [show j + (n - 1) = xs.length by omega, lowAt_last] at hlast
  have hcount := h.quiet_le (k := j) fun m hjm hmlt => by
    have hlow := hp.trailing (m - j) (by omega)
    rwa [show j + (m - j) = m by omega, lowAt_append hmlt] at hlow
  have hfew := h.few
  obtain ⟨m, hm, him, -⟩ := h.last
  have hlead : HighAt high xs i' := (highAt_append (by omega)).mp hp.leading
  have hover : Over high n xs i' := (over_append (Nat.le_of_lt hlead.lt)).mp hp.behind
  refine ⟨?_, by omega, by omega, hlast⟩
  rcases Nat.lt_trichotomy i' i with hlt | heq | hgt
  · refine (h.behind.not_pulse hlead hlt fun m' hm' hle hquiet => ?_).elim
    exact hp.bridged m' hm' (by omega) (hquiet.append hn)
  · exact heq
  · exact (hover.not_pulse h.leading hgt fun m' hm' _ hquiet => h.bridged m' hm' hquiet).elim

end CommandStation.Lib
