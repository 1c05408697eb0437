import Mathlib.Data.List.Basic

/-!
# Searching without going back

The simplest way to look for a word in a stream counts how many letters of it have matched, and begins
again behind the first letter that does not match. Unlike the search for the word at every place it
may miss it: the letters that were compared in vain are never compared again.

`Failed` describes the texts that such a search goes through in vain, as a sequence of attempts.
-/

namespace CommandStation.Lib

variable {α : Type} [DecidableEq α] {word bs rest pre : List α} {p : Nat} {b : α}

/-- The search when `p` letters have matched. It returns what follows the word. -/
def search (word : List α) (p : Nat) : List α → Option (List α)
  | [] => none
  | b :: bs =>
    if word[p]? = some b then if p + 1 = word.length then some bs else search word (p + 1) bs
    else search word 0 bs

/-- A sequence of attempts: each is a beginning of the word and a letter that does not go on with it. -/
inductive Failed (word : List α) : List α → Prop
  | nil : Failed word []
  | cons {j : Nat} {b : α} {pre : List α} (hj : j < word.length) (hb : word[j]? ≠ some b)
      (hpre : Failed word pre) : Failed word (word.take j ++ b :: pre)

omit [DecidableEq α] in
theorem getElem?_take_append_cons {j : Nat} {x : α} {xs : List α} (hj : j < word.length) :
    (word.take j ++ x :: xs)[j]? = some x := by
  have hlen : (word.take j).length = j := by rw [List.length_take]; omega
  rw [List.getElem?_append_right (Nat.le_of_eq hlen), hlen, Nat.sub_self]
  rfl

omit [DecidableEq α] in
theorem getElem?_take_append_of_lt {i j : Nat} {xs : List α} (hij : i < j) (hj : j < word.length) :
    (word.take j ++ xs)[i]? = word[i]? := by
  rw [List.getElem?_append_left (by rw [List.length_take]; omega), List.getElem?_take_of_lt hij]

omit [DecidableEq α] in
/-- Two attempts that failed are equal if the texts are that begin with them. -/
theorem take_append_cons_inj {i j : Nat} {x y : α} {xs ys : List α} (hi : word[i]? ≠ some x)
    (hj : word[j]? ≠ some y) (hilt : i < word.length) (hjlt : j < word.length)
    (h : word.take i ++ x :: xs = word.take j ++ y :: ys) : i = j ∧ x = y ∧ xs = ys := by
  have hij : i = j := by
    rcases Nat.lt_trichotomy i j with hlt | heq | hgt
    · have hx : (word.take i ++ x :: xs)[i]? = some x := getElem?_take_append_cons hilt
      rw [h, getElem?_take_append_of_lt hlt hjlt] at hx
      exact absurd hx hi
    · exact heq
    · have hy : (word.take j ++ y :: ys)[j]? = some y := getElem?_take_append_cons hjlt
      rw [← h, getElem?_take_append_of_lt hgt hilt] at hy
      exact absurd hy hj
  subst hij
  have htail := List.cons.inj (List.append_cancel_left h)
  exact ⟨rfl, htail.1, htail.2⟩

omit [DecidableEq α] in
/-- A text that begins with the word does not begin with an attempt that failed. -/
theorem take_append_cons_ne {j : Nat} {x : α} {xs : List α} (hx : word[j]? ≠ some x)
    (hj : j < word.length) : word.take j ++ x :: xs ≠ word ++ rest := by
  intro h
  have hat : (word.take j ++ x :: xs)[j]? = some x := getElem?_take_append_cons hj
  rw [h, List.getElem?_append_left hj] at hat
  exact hx hat

/-- The word is found behind a sequence of failed attempts, and only there. -/
theorem search_eq_some_iff (hp : p < word.length) :
    search word p bs = some rest ↔ ∃ pre, Failed word pre ∧ word.take p ++ bs = pre ++ (word ++ rest) := by
  induction bs generalizing p with
  | nil =>
    simp only [search, reduceCtorEq, false_iff, not_exists, not_and]
    intro pre _ h
    have := congrArg List.length h
    simp at this
    omega
  | cons b bs ih =>
    rw [search]
    -- the byte goes on with the word, or the attempt has failed with it
    by_cases hb : word[p]? = some b
    · rw [if_pos hb]
      have htake : word.take p ++ b :: bs = word.take (p + 1) ++ bs := by
        rw [List.take_add_one, hb]
        simp
      rw [htake]
      by_cases hlast : p + 1 = word.length
      · rw [if_pos hlast, hlast, List.take_length, Option.some_inj]
        constructor
        · intro h
          exact ⟨[], .nil, by rw [h]; rfl⟩
        · rintro ⟨pre, hpre, h⟩
          cases hpre with
          | nil => exact List.append_cancel_left h
          | cons hj hx _ =>
            rw [List.append_assoc, List.cons_append] at h
            exact absurd h.symm (take_append_cons_ne hx hj)
      · rw [if_neg hlast]
        exact ih (by omega)
    · rw [if_neg hb, ih (by omega)]
      constructor
      · rintro ⟨pre, hpre, h⟩
        refine ⟨word.take p ++ b :: pre, .cons hp hb hpre, ?_⟩
        rw [List.append_assoc, List.cons_append, ← h]
        simp
      · rintro ⟨pre, hpre, h⟩
        cases hpre with
        | nil => exact absurd h (take_append_cons_ne hb hp)
        | cons hj hx hpre =>
          rw [List.append_assoc, List.cons_append] at h
          obtain ⟨-, -, htail⟩ := take_append_cons_inj hb hx hp hj h
          exact ⟨_, hpre, by simpa using htail⟩

theorem search_eq_none_iff (hp : p < word.length) :
    search word p bs = none ↔
      ¬ ∃ pre rest, Failed word pre ∧ word.take p ++ bs = pre ++ (word ++ rest) := by
  cases hsearch : search word p bs with
  | none =>
    simp only [true_iff]
    rintro ⟨pre, rest, hpre, h⟩
    have := (search_eq_some_iff hp).mpr ⟨pre, hpre, h⟩
    rw [hsearch] at this
    cases this
  | some rest =>
    obtain ⟨pre, hpre, h⟩ := (search_eq_some_iff hp).mp hsearch
    simp only [reduceCtorEq, false_iff, not_not]
    exact ⟨pre, rest, hpre, h⟩

end CommandStation.Lib
