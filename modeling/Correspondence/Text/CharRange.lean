/-!
# Character ranges

Classes of characters given by a list of closed ranges of code points.
-/

namespace Correspondence.Text

/-- A closed range of code points. -/
abbrev CharRange := Nat × Nat

/-- Whether the code point of `c` lies in one of the ranges. -/
def CharRange.anyHolds (ranges : List CharRange) (c : Char) : Bool :=
  ranges.any fun (low, high) => low ≤ c.toNat && c.toNat ≤ high

theorem CharRange.anyHolds_iff (ranges : List CharRange) (c : Char) :
    CharRange.anyHolds ranges c = true ↔ ∃ r ∈ ranges, r.1 ≤ c.toNat ∧ c.toNat ≤ r.2 := by
  simp [CharRange.anyHolds]

end Correspondence.Text
