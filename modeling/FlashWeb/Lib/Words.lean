import Mathlib.Algebra.Ring.Int.Defs
import Mathlib.Algebra.Ring.Nat

/-!
# Integers of a fixed width

What is left of an integer in a variable of `w` bits: the value that the type can hold and that is
the same modulo `2 ^ w`. A value that fits stays what it is.
-/

namespace FlashWeb.Lib.Words

/-- `i` in a signed variable of `w` bits. -/
def signed (w : Nat) (i : Int) : Int := i.bmod (2 ^ w)

/-- `i` in an unsigned variable of `w` bits. -/
def unsigned (w : Nat) (i : Int) : Nat := (i % 2 ^ w).toNat

theorem signed_of_fits {w : Nat} {i : Int} (hlo : -2 ^ w ≤ i * 2) (hhi : i * 2 < 2 ^ w) :
    signed w i = i := by
  have hcast : ((2 ^ w : Nat) : Int) = 2 ^ w := Int.natCast_pow 2 w
  exact Int.bmod_eq_of_le_mul_two (by rwa [hcast]) (by rwa [hcast])

theorem unsigned_of_fits {w n : Nat} (h : n < 2 ^ w) : unsigned w n = n := by
  have hcast : ((2 ^ w : Nat) : Int) = 2 ^ w := Int.natCast_pow 2 w
  rw [unsigned, Int.emod_eq_of_lt (Int.natCast_nonneg n) (by omega), Int.toNat_natCast]

/-- It makes no difference where a difference is cut to the width. -/
theorem unsigned_sub_unsigned (w : Nat) (a b : Int) :
    unsigned w (a - unsigned w b) = unsigned w (a - b) := by
  have hpos : (0 : Int) < 2 ^ w := Int.pow_pos (by omega)
  have hb : ((unsigned w b : Nat) : Int) = b % 2 ^ w :=
    Int.toNat_of_nonneg (Int.emod_nonneg b (by omega))
  rw [unsigned, hb, Int.sub_emod_emod, unsigned]

/-- **The largest unsigned value is `-1` in a signed variable that is not wider.** -/
theorem signed_max {v w : Nat} (hw : 0 < w) (hle : w ≤ v) : signed w (2 ^ v - 1) = -1 := by
  have hcast : ∀ n : Nat, ((2 ^ n : Nat) : Int) = 2 ^ n := Int.natCast_pow 2
  have hdvd : ((2 ^ w : Nat) : Int) ∣ 2 ^ v := by
    rw [← hcast v, Int.natCast_dvd_natCast]
    exact Nat.pow_dvd_pow 2 hle
  have hsame : signed w (2 ^ v - 1) = signed w (-1) := by
    rw [signed, signed, Int.bmod_eq_bmod_iff_bmod_sub_eq_zero]
    rw [show (2 : Int) ^ v - 1 - -1 = 2 ^ v by omega]
    exact Int.bmod_eq_zero_of_dvd hdvd
  have htwo : 2 ^ 1 ≤ 2 ^ w := Nat.pow_le_pow_right (by omega) hw
  have hw' := hcast w
  rw [hsame]
  exact signed_of_fits (by omega) (by omega)

end FlashWeb.Lib.Words
