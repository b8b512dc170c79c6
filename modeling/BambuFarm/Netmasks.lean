-- Words cut by a contiguous mask: what is left above the mask is a multiple of
-- a power of two, and what is filled up below it is one less than the next.
import Mathlib.Data.BitVec

namespace netmasks

variable {w : Nat}

/-- The mask that clears the lowest `k` bits. -/
def clearing (w k : Nat) : BitVec w := BitVec.allOnes w <<< k

/-- The first word that agrees with `x` under the mask. -/
def network (x mask : BitVec w) : BitVec w := x &&& mask

/-- The last one. -/
def broadcast (x mask : BitVec w) : BitVec w := x &&& mask ||| ~~~mask

theorem network_eq_shift (x : BitVec w) (k : Nat) : network x (clearing w k) = x >>> k <<< k := by
  unfold network clearing
  ext i hi
  by_cases hk : i < k
  · simp [hk]
  · simp [hk, show k + (i - k) = i by omega, hi]

theorem toNat_network (x : BitVec w) (k : Nat) :
    (network x (clearing w k)).toNat = x.toNat / 2 ^ k * 2 ^ k := by
  rw [network_eq_shift, BitVec.toNat_shiftLeft, BitVec.toNat_ushiftRight,
    Nat.shiftRight_eq_div_pow, Nat.shiftLeft_eq]
  apply Nat.mod_eq_of_lt
  exact Nat.lt_of_le_of_lt (Nat.div_mul_le_self _ _) x.isLt

theorem toNat_not_clearing {k : Nat} (hk : k ≤ w) : (~~~(clearing w k)).toNat = 2 ^ k - 1 := by
  have hself : clearing w k = network (BitVec.allOnes w) (clearing w k) := by
    unfold network
    rw [BitVec.allOnes_and]
  have hpos : 0 < 2 ^ k := Nat.two_pow_pos k
  have hblocks : 0 < 2 ^ (w - k) := Nat.two_pow_pos (w - k)
  have hsplit : 2 ^ w = 2 ^ (w - k) * 2 ^ k := by
    rw [← Nat.pow_add, Nat.sub_add_cancel hk]
  have hdiv : (2 ^ w - 1) / 2 ^ k = 2 ^ (w - k) - 1 := by
    apply Nat.div_eq_of_lt_le
    · rw [Nat.sub_mul, ← hsplit, Nat.one_mul]
      omega
    · rw [Nat.sub_add_cancel hblocks, ← hsplit]
      exact Nat.sub_lt (Nat.two_pow_pos w) Nat.one_pos
  rw [BitVec.toNat_not, hself, toNat_network, BitVec.toNat_allOnes, hdiv, Nat.sub_mul, ← hsplit,
    Nat.one_mul]
  have hle : 2 ^ k ≤ 2 ^ w := Nat.pow_le_pow_right (by decide) hk
  omega

/-- The words of one network fill the space between the two. -/
theorem toNat_broadcast (x : BitVec w) {k : Nat} (hk : k ≤ w) :
    (broadcast x (clearing w k)).toNat = x.toNat / 2 ^ k * 2 ^ k + (2 ^ k - 1) := by
  have hdisjoint : (x &&& clearing w k) &&& ~~~(clearing w k) = 0#w := by
    ext i hi
    simp
  unfold broadcast
  rw [← BitVec.add_eq_or_of_and_eq_zero _ _ hdisjoint, BitVec.toNat_add_of_and_eq_zero hdisjoint,
    toNat_not_clearing hk]
  exact congrArg (· + (2 ^ k - 1)) (toNat_network x k)

end netmasks
