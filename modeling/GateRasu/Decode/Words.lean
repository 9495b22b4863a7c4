import GateRasu.Decode.Cells

/-!
# Machine words

The shifts and masks of the decoder as arithmetic.  Two `int16_t`s are joined
without losing a bit of either, whatever their signs, and a masked and shifted bit
is `0` or `1`.
-/

namespace GateRasu

/-- The join of two words is their concatenation. -/
theorem joinWords_eq_append (hi lo : BitVec 16) : joinWords hi lo = (hi ++ lo : BitVec 32) := by
  refine BitVec.eq_of_getElem_eq fun i h => ?_
  have hmask : (0xffff#32)[i] = decide (i < 16) := by
    rw [BitVec.getElem_eq_testBit_toNat]
    exact Nat.testBit_two_pow_sub_one 16 i
  rw [joinWords, BitVec.getElem_or, BitVec.getElem_and, hmask, BitVec.getElem_append,
    BitVec.getElem_shiftLeft]
  by_cases hi16 : i < 16
  · simp [hi16, BitVec.getElem_signExtend]
  · have hlt : i - 16 < 16 := by omega
    simp [hi16, BitVec.getElem_signExtend, hlt]

theorem joinWords_toNat (hi lo : BitVec 16) :
    (joinWords hi lo).toNat = lo.toNat + 65536 * hi.toNat := by
  rw [joinWords_eq_append, BitVec.toNat_append, ← Nat.shiftLeft_add_eq_or_of_lt lo.isLt,
    Nat.shiftLeft_eq]
  omega

/-- Both words can be read back from the join. -/
theorem joinWords_inj {hi lo hi' lo' : BitVec 16} (h : joinWords hi lo = joinWords hi' lo') :
    hi = hi' ∧ lo = lo' := by
  have hn := congrArg BitVec.toNat h
  rw [joinWords_toNat, joinWords_toNat] at hn
  have h₁ := lo.isLt
  have h₂ := lo'.isLt
  exact ⟨BitVec.eq_of_toNat_eq (by omega), BitVec.eq_of_toNat_eq (by omega)⟩

theorem bitAt_toNat (v : BitVec 16) {i : Nat} (hi : i < 16) :
    (bitAt (v.setWidth 32) i).toNat = v.toNat / 2 ^ i % 2 := by
  have hpow : 2 ^ i < 2 ^ 16 := Nat.pow_lt_pow_right (by decide) hi
  have hmask : (1#32 <<< i).toNat = 2 ^ i := by
    rw [BitVec.toNat_shiftLeft, Nat.shiftLeft_eq, BitVec.toNat_ofNat]
    omega
  have hbit : (v.setWidth 32 &&& (1#32 <<< i)).toNat = (v.toNat.testBit i).toNat * 2 ^ i := by
    have hv := v.isLt
    rw [BitVec.toNat_and, hmask, Nat.and_two_pow, BitVec.toNat_setWidth,
      Nat.mod_eq_of_lt (by omega)]
  have hmsb : (v.setWidth 32 &&& (1#32 <<< i)).msb = false := by
    rw [BitVec.msb_eq_false_iff_two_mul_lt, hbit]
    have hb : (v.toNat.testBit i).toNat * 2 ^ i ≤ 1 * 2 ^ i :=
      Nat.mul_le_mul_right _ (Bool.toNat_le _)
    omega
  rw [bitAt, BitVec.sshiftRight_eq_of_msb_false hmsb, BitVec.toNat_ushiftRight, hbit,
    Nat.shiftRight_eq_div_pow, Nat.mul_div_cancel _ (Nat.two_pow_pos i), Nat.toNat_testBit]

theorem wordQuality_toNat (k : Nat) (v : BitVec 16) :
    (wordQuality k v).toNat =
      v.toNat / 2 ^ (k % 8) % 2 + 256 * (v.toNat / 2 ^ (k % 8 + 8) % 2) := by
  have hlo := bitAt_toNat v (i := k % 8) (by omega)
  have hhi := bitAt_toNat v (i := k % 8 + 8) (by omega)
  rw [wordQuality, qualityAt, BitVec.toNat_add, BitVec.toNat_mul, BitVec.toNat_mul, hlo, hhi]
  have h₁ : v.toNat / 2 ^ (k % 8) % 2 < 2 := Nat.mod_lt _ (by decide)
  have h₂ : v.toNat / 2 ^ (k % 8 + 8) % 2 < 2 := Nat.mod_lt _ (by decide)
  show (1 * (v.toNat / 2 ^ (k % 8) % 2) % 2 ^ 32 +
    256 * (v.toNat / 2 ^ (k % 8 + 8) % 2) % 2 ^ 32) % 2 ^ 32 = _
  omega

end GateRasu
