import Mathlib.Data.List.Chain

/-!
# Debounced inputs

A debouncer reports a change of its input after `n` samples that differ from what it reported last;
a sample that agrees starts the count anew, and somebody may force it to believe the next sample.
The debouncer has a delay that runs down. The history of its samples tells what it reports without
any count.
-/

namespace CommandStation.Lib

/-- What was reported last, and the samples that must differ before one is believed. -/
structure Debouncer (α : Type) where
  reported : α
  delay : Nat

/-- A sample with what came of it, or that the next one is to be believed. -/
inductive DebounceEntry (α : Type) where
  | sampled (seen : α) (report : Bool)
  | forced
  deriving DecidableEq, Repr

namespace Debouncer

variable {α : Type}

/-- The next sample, and whether it is reported. -/
def sample [DecidableEq α] (n : Nat) (d : Debouncer α) (seen : α) : Debouncer α × Bool :=
  if seen = d.reported then (⟨d.reported, n⟩, false)
  else if 0 < d.delay then (⟨d.reported, d.delay - 1⟩, false)
  else (⟨seen, n⟩, true)

def force (d : Debouncer α) : Debouncer α := ⟨d.reported, 0⟩

/-! ## Histories, the latest entry first -/

/-- What was reported last, `a` before the first report. -/
def lastReported (a : α) : List (DebounceEntry α) → α
  | [] => a
  | .sampled seen true :: _ => seen
  | .sampled _ false :: history => lastReported a history
  | .forced :: history => lastReported a history

/-- What was seen since the last report. -/
def sinceReport : List (DebounceEntry α) → List α
  | [] => []
  | .sampled _ true :: _ => []
  | .sampled seen false :: history => seen :: sinceReport history
  | .forced :: history => sinceReport history

/-- The debouncer was forced since the last sample that agreed or was reported. -/
def ForcedSince (a : α) : List (DebounceEntry α) → Prop
  | [] => False
  | .sampled _ true :: _ => False
  | .sampled seen false :: history => seen ≠ lastReported a history ∧ ForcedSince a history
  | .forced :: _ => True

/-- The reports. -/
def reports : List (DebounceEntry α) → List α
  | [] => []
  | .sampled seen true :: history => seen :: reports history
  | .sampled _ false :: history => reports history
  | .forced :: history => reports history

/-- After this history the sample is one to report: it differs, and so did the `n` samples before it
since the last report, or the debouncer was forced. -/
def Believed (n : Nat) (a : α) (history : List (DebounceEntry α)) (seen : α) : Prop :=
  seen ≠ lastReported a history ∧
    ((n ≤ (sinceReport history).length ∧ ∀ x ∈ (sinceReport history).take n, x ≠ lastReported a history) ∨
      ForcedSince a history)

/-- A debouncer that started with `a` as reported has come to a state, with this history. -/
inductive Run [DecidableEq α] (n : Nat) (a : α) : List (DebounceEntry α) → Debouncer α → Prop where
  | start : Run n a [] ⟨a, n⟩
  | sample {history d} (seen : α) (h : Run n a history d) :
      Run n a (.sampled seen (d.sample n seen).2 :: history) (d.sample n seen).1
  | force {history d} (h : Run n a history d) : Run n a (.forced :: history) d.force

variable {n : Nat} {a : α} {d : Debouncer α} {history : List (DebounceEntry α)}

/-! ## What a history says -/

theorem head_reports (a : α) (history : List (DebounceEntry α)) :
    (reports history ++ [a]).head? = some (lastReported a history) := by
  induction history with
  | nil => rfl
  | cons entry history ih =>
    cases entry with
    | forced => exact ih
    | sampled seen report =>
      cases report with
      | true => rfl
      | false => exact ih

theorem forced_mem (h : ForcedSince a history) : .forced ∈ history := by
  induction history with
  | nil => exact h.elim
  | cons entry history ih =>
    cases entry with
    | forced => exact List.mem_cons_self
    | sampled seen report =>
      cases report with
      | true => exact h.elim
      | false => exact List.mem_cons_of_mem _ (ih h.2)

/-- A debouncer that is not forced has seen the change that it reports in `n` samples before. -/
theorem Believed.of_not_forced {seen : α} (h : Believed n a history seen) (hforced : .forced ∉ history) :
    n ≤ (sinceReport history).length ∧ ∀ x ∈ (sinceReport history).take n, x ≠ lastReported a history :=
  h.2.resolve_right fun hsince => hforced (forced_mem hsince)

theorem le_length_takeWhile_iff {p : α → Bool} {xs : List α} :
    n ≤ (xs.takeWhile p).length ↔ n ≤ xs.length ∧ ∀ x ∈ xs.take n, p x = true := by
  induction xs generalizing n with
  | nil => simp
  | cons x xs ih =>
    cases n with
    | zero => simp
    | succ n =>
      cases hp : p x with
      | true => simp [hp, ih]
      | false => simp [hp]

section

variable [DecidableEq α]

/-! ## The delay -/

/-- The samples up to now that differ from what was reported last. -/
def streak (a : α) (history : List (DebounceEntry α)) : List α :=
  (sinceReport history).takeWhile (· ≠ lastReported a history)

/-- What was reported, and how the delay counts the samples that differ. -/
structure Counts (n : Nat) (a : α) (history : List (DebounceEntry α)) (d : Debouncer α) : Prop where
  reported : d.reported = lastReported a history
  forced : ForcedSince a history → d.delay = 0
  counted : ¬ ForcedSince a history → d.delay + (streak a history).length = n

/-- A sample keeps the delay and the samples that differ in step. -/
theorem Counts.sample (h : Counts n a history d) (seen : α) :
    Counts n a (.sampled seen (d.sample n seen).2 :: history) (d.sample n seen).1 := by
  unfold Debouncer.sample
  by_cases hsame : seen = d.reported
  · -- the sample agrees, and the count starts anew
    rw [if_pos hsame]
    have hlast : seen = lastReported a history := hsame.trans h.reported
    refine ⟨h.reported, fun hforced => absurd hlast hforced.1, fun _ => ?_⟩
    simp [streak, sinceReport, lastReported, hlast]
  · rw [if_neg hsame]
    have hdiffers : seen ≠ lastReported a history := fun heq => hsame (heq.trans h.reported.symm)
    by_cases hdelay : 0 < d.delay
    · rw [if_pos hdelay]
      have hfree : ¬ ForcedSince a history := fun hforced => by
        rw [h.forced hforced] at hdelay
        exact absurd hdelay (Nat.lt_irrefl 0)
      refine ⟨h.reported, fun hforced => absurd hforced.2 hfree, fun _ => ?_⟩
      have hcounted := h.counted hfree
      have hstreak : streak a (.sampled seen false :: history) = seen :: streak a history :=
        List.takeWhile_cons_of_pos (decide_eq_true hdiffers)
      rw [hstreak, List.length_cons]
      show d.delay - 1 + _ = n
      omega
    · rw [if_neg hdelay]
      exact ⟨rfl, False.elim, fun _ => rfl⟩

/-- **The delay counts.** -/
theorem Run.counts (h : Run n a history d) : Counts n a history d := by
  induction h with
  | start => exact ⟨rfl, False.elim, fun _ => rfl⟩
  | sample seen _ ih => exact ih.sample seen
  | force _ ih => exact ⟨ih.reported, fun _ => rfl, fun hfree => absurd trivial hfree⟩

/-! ## The reports -/

theorem Run.reports_iff (h : Run n a history d) (seen : α) :
    (d.sample n seen).2 = true ↔ Believed n a history seen := by
  have hcounts := h.counts
  have hsample : (d.sample n seen).2 = true ↔ seen ≠ d.reported ∧ d.delay = 0 := by
    unfold Debouncer.sample
    grind
  have hdelay : d.delay = 0 ↔ n ≤ (streak a history).length ∨ ForcedSince a history := by
    by_cases hforced : ForcedSince a history
    · exact iff_of_true (hcounts.forced hforced) (.inr hforced)
    · have hcounted := hcounts.counted hforced
      rw [or_iff_left hforced]
      omega
  rw [hsample, hdelay, hcounts.reported, streak, le_length_takeWhile_iff, Believed]
  simp only [decide_eq_true_eq]

/-- Every entry of a history is what the debouncer did after the entries before it. -/
theorem Run.believed {pre post : List (DebounceEntry α)} {seen : α} {report : Bool}
    (h : Run n a (pre ++ .sampled seen report :: post) d) :
    report = true ↔ Believed n a post seen := by
  induction pre generalizing d with
  | nil =>
    cases h with
    | sample _ hpost => exact hpost.reports_iff seen
  | cons entry pre ih =>
    cases h with
    | sample _ hrest => exact ih hrest
    | force hrest => exact ih hrest

/-- No report says what the one before it said. -/
theorem Run.reports_alternate (h : Run n a history d) : (reports history ++ [a]).IsChain (· ≠ ·) := by
  induction h with
  | start => exact List.isChain_singleton a
  | @sample history d seen hrun ih =>
    cases hreport : (d.sample n seen).2 with
    | false => exact ih
    | true =>
      have hbelieved := (hrun.reports_iff seen).mp hreport
      have hchain : (seen :: (reports history ++ [a])).IsChain (· ≠ ·) := by
        refine List.isChain_cons.mpr ⟨fun y hy => ?_, ih⟩
        rw [head_reports] at hy
        cases hy
        exact hbelieved.1
      exact hchain
  | force _ ih => exact ih

end

end Debouncer

end CommandStation.Lib
