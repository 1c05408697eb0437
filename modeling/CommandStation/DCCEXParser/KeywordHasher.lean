import Mathlib.Data.Nat.Notation

/-!
# Keywords

A keyword of a command is known to the parser by a number of 16 bits, which is computed in the same
way from the texts of the program when it is compiled.
-/

namespace CommandStation

/-- `operator""_hk` -/
def hk (keyword : String) : Int16 :=
  (keyword.toList.foldl (fun running c =>
    let sv : UInt16 := .ofNat c.toNat
    if '0' ≤ c ∧ c ≤ '9' then 10 * running + sv - 48 else ((running <<< 5) + running) ^^^ sv)
    (0 : UInt16)).toInt16

example : hk "MAIN" = 11339 ∧ hk "SLOW" = -17209 ∧ hk "SPEED28" = -17064 := by decide

end CommandStation
