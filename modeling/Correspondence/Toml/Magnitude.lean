/-!
# The size of decimal numbers

A number with a fraction or an exponent is a natural number times a power of ten. It is compared
exactly, and without a power that is much longer than what is compared.
-/

namespace Correspondence.Toml

/-- Whether `number * 10 ^ exponent` is at least `bound`, which is not zero. An exponent beyond the
length of the bound, or below that of the number, decides alone. -/
def reaches (bound number : Nat) : Int → Bool
  | .ofNat e => number ≠ 0 && (bound.log2 < e || bound ≤ number * Nat.pow 10 e)
  | .negSucc e => e < number.log2 && bound * Nat.pow 10 (e + 1) ≤ number

theorem reaches_ofNat {bound : Nat} (positive : 0 < bound) (number e : Nat) :
    reaches bound number (.ofNat e) = true ↔ bound ≤ number * Nat.pow 10 e := by
  simp only [reaches, ne_eq, Bool.and_eq_true, Bool.or_eq_true, decide_eq_true_eq]
  constructor
  · rintro ⟨nonzero, h | h⟩
    · calc bound
        _ ≤ Nat.pow 2 (bound.log2 + 1) := Nat.le_of_lt Nat.lt_log2_self
        _ ≤ Nat.pow 2 e := Nat.pow_le_pow_right (by decide) h
        _ ≤ Nat.pow 10 e := Nat.pow_le_pow_left (by decide) e
        _ ≤ number * Nat.pow 10 e := Nat.le_mul_of_pos_left _ (Nat.pos_of_ne_zero nonzero)
    · exact h
  · intro h
    refine ⟨?_, Or.inr h⟩
    rintro rfl
    omega

theorem reaches_negSucc {bound : Nat} (positive : 0 < bound) (number e : Nat) :
    reaches bound number (.negSucc e) = true ↔ bound * Nat.pow 10 (e + 1) ≤ number := by
  simp only [reaches, Bool.and_eq_true, decide_eq_true_eq, and_iff_right_iff_imp]
  intro h
  have long : Nat.pow 2 (e + 1) ≤ number := calc
    Nat.pow 2 (e + 1) ≤ Nat.pow 10 (e + 1) := Nat.pow_le_pow_left (by decide) _
    _ ≤ bound * Nat.pow 10 (e + 1) := Nat.le_mul_of_pos_left _ positive
    _ ≤ number := h
  have nonzero : number ≠ 0 := Nat.ne_of_gt (Nat.lt_of_lt_of_le (Nat.pow_pos (by decide)) long)
  exact (Nat.le_log2 nonzero).2 long

/-- The least number that is rounded to infinity in 64 bits: it lies half a step above the largest
finite one. -/
def infinityFrom : Nat := 1 <<< 1024 - 1 <<< 970

end Correspondence.Toml
