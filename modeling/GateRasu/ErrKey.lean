import Mathlib

/-!
# Error keys

The client of the channel keeps the error of its last operation as one word, with the
number of the module and of the function that it comes from.  The messages about puts
print the error alone.

A key is its three fields side by side (`error_setError`).  Of the number of the module and of
that of the function it keeps the lowest byte, the former with a sign, and every word is a key
(`errKey_roundTrip`).
-/

namespace GateRasu

/-- `ErrKey`, with the error alone. -/
structure ErrKey where
  error : BitVec 32

namespace ErrKey

/-- `ErrKey::_setError`. -/
def setError (_ : ErrKey) (error moduleId moduleNum : BitVec 16) : ErrKey :=
  -- A module number from `128` on reaches the sign bit.
  ⟨((moduleId.setWidth 32 &&& 0xff) <<< 24) + ((moduleNum.setWidth 32 &&& 0xff) <<< 16) +
    (error.signExtend 32 &&& 0xffff)⟩

def getError (k : ErrKey) : BitVec 16 := k.error.setWidth 16

def getModuleId (k : ErrKey) : BitVec 32 := k.error.sshiftRight 24

def getFuncNum (k : ErrKey) : BitVec 32 := k.error.sshiftRight 16 &&& 0xff

/-! ## Fields -/

theorem toNat_low (x : BitVec 16) : (x.setWidth 32 &&& 0xff).toNat = x.toNat % 256 := by
  have hand : (x.setWidth 32 &&& 0xff).toNat = x.toNat % 2 ^ 32 &&& (2 ^ 8 - 1) := by
    rw [BitVec.toNat_and, BitVec.toNat_setWidth]
    rfl
  have hx := x.isLt
  rw [hand, Nat.and_two_pow_sub_one_eq_mod]
  omega

/-- The mask of the error drops the copies of its sign. -/
theorem toNat_error (x : BitVec 16) : (x.signExtend 32 &&& 0xffff).toNat = x.toNat := by
  have hmask : (0xffff : BitVec 32) = (BitVec.allOnes 16).setWidth 32 := rfl
  have hlow : x.signExtend 32 &&& 0xffff = x.setWidth 32 := by
    refine BitVec.eq_of_getLsbD_eq fun i hi => ?_
    rw [hmask, BitVec.getLsbD_and, BitVec.getLsbD_signExtend, BitVec.getLsbD_setWidth,
      BitVec.getLsbD_setWidth, BitVec.getLsbD_allOnes]
    by_cases h : i < 16
    · simp [h, hi]
    · simp [h, BitVec.getLsbD_of_ge x i (by omega)]
  rw [hlow, BitVec.toNat_setWidth]
  have hx := x.isLt
  omega

/-- A key as a number. -/
theorem error_setError (k : ErrKey) (error moduleId moduleNum : BitVec 16) :
    (k.setError error moduleId moduleNum).error.toNat =
      moduleId.toNat % 256 * 2 ^ 24 + moduleNum.toNat % 256 * 2 ^ 16 + error.toNat := by
  have herror := error.isLt
  rw [setError, BitVec.toNat_add, BitVec.toNat_add, BitVec.toNat_shiftLeft, BitVec.toNat_shiftLeft,
    toNat_low, toNat_low, toNat_error, Nat.shiftLeft_eq, Nat.shiftLeft_eq]
  omega

theorem toNat_getFuncNum (k : ErrKey) :
    k.getFuncNum.toNat = k.error.toNat / 2 ^ 16 % 256 := by
  have hmask : (0xff : BitVec 32) = (BitVec.allOnes 8).setWidth 32 := rfl
  have hlow : k.getFuncNum = (k.error >>> 16) &&& 0xff := by
    refine BitVec.eq_of_getLsbD_eq fun i hi => ?_
    rw [getFuncNum, hmask, BitVec.getLsbD_and, BitVec.getLsbD_and, BitVec.getLsbD_sshiftRight,
      BitVec.getLsbD_ushiftRight, BitVec.getLsbD_setWidth, BitVec.getLsbD_allOnes]
    by_cases h : i < 8
    · have hlt : 16 + i < 32 := by omega
      have hi' : ¬ 32 ≤ i := by omega
      simp [h, hlt, hi']
    · simp [h]
  have hand : ((k.error >>> 16) &&& 0xff).toNat = k.error.toNat >>> 16 &&& (2 ^ 8 - 1) := by
    rw [BitVec.toNat_and, BitVec.toNat_ushiftRight]
    rfl
  rw [hlow, hand, Nat.and_two_pow_sub_one_eq_mod, Nat.shiftRight_eq_div_pow]

theorem toInt_getModuleId (k : ErrKey) : k.getModuleId.toInt = k.error.toInt / 2 ^ 24 := by
  rw [getModuleId, BitVec.toInt_sshiftRight, Int.shiftRight_eq_div_pow]
  rfl

/-- The number of the module is read back as its lowest byte with a sign. -/
theorem getModuleId_setError (k : ErrKey) (error moduleId moduleNum : BitVec 16) :
    (k.setError error moduleId moduleNum).getModuleId = (moduleId.setWidth 8).signExtend 32 := by
  have herror := error.isLt
  have hkey := (k.setError error moduleId moduleNum).toInt_getModuleId
  rw [BitVec.toInt_eq_toNat_cond (k.setError error moduleId moduleNum).error,
    k.error_setError] at hkey
  have hbyte : ((moduleId.setWidth 8).signExtend 32).toInt = (moduleId.setWidth 8).toInt :=
    BitVec.toInt_signExtend_of_le (by decide)
  rw [← BitVec.toInt_inj, hkey, hbyte, BitVec.toInt_eq_toNat_cond, BitVec.toNat_setWidth]
  omega

theorem getFuncNum_setError (k : ErrKey) (error moduleId moduleNum : BitVec 16) :
    (k.setError error moduleId moduleNum).getFuncNum = (moduleNum.setWidth 8).setWidth 32 := by
  have hfunc := (k.setError error moduleId moduleNum).toNat_getFuncNum
  rw [k.error_setError] at hfunc
  have herror := error.isLt
  rw [← BitVec.toNat_inj, hfunc, BitVec.toNat_setWidth, BitVec.toNat_setWidth]
  clear hfunc
  omega

/-- A number with a byte only is its lowest byte. -/
theorem setWidth_byte (x : BitVec 16) :
    (x.setWidth 8).setWidth 32 = x.setWidth 32 ↔ x.toNat < 256 := by
  have hx := x.isLt
  rw [← BitVec.toNat_inj, BitVec.toNat_setWidth, BitVec.toNat_setWidth, BitVec.toNat_setWidth]
  omega

/-- With a sign, seven bits are left. -/
theorem signExtend_byte (x : BitVec 16) :
    (x.setWidth 8).signExtend 32 = x.setWidth 32 ↔ x.toNat < 128 := by
  have hx := x.isLt
  have hbyte : ((x.setWidth 8).signExtend 32).toInt = (x.setWidth 8).toInt :=
    BitVec.toInt_signExtend_of_le (by decide)
  rw [← BitVec.toInt_inj, hbyte, BitVec.toInt_eq_toNat_cond, BitVec.toInt_eq_toNat_cond,
    BitVec.toNat_setWidth, BitVec.toNat_setWidth]
  omega

/-- A key from its fields. -/
theorem setError_fields (k : ErrKey) :
    k.setError k.getError (k.getModuleId.setWidth 16) (k.getFuncNum.setWidth 16) = k := by
  have hmodule : (k.getModuleId.setWidth 16).toNat % 256 = k.error.toNat / 2 ^ 24 := by
    have hkey := k.toInt_getModuleId
    have hlt := k.error.isLt
    rw [BitVec.toInt_eq_toNat_cond, BitVec.toInt_eq_toNat_cond] at hkey
    rw [BitVec.toNat_setWidth]
    omega
  have hfunc : (k.getFuncNum.setWidth 16).toNat % 256 = k.error.toNat / 2 ^ 16 % 256 := by
    rw [BitVec.toNat_setWidth, toNat_getFuncNum]
    omega
  have herror : k.getError.toNat = k.error.toNat % 2 ^ 16 := BitVec.toNat_setWidth ..
  have hword := k.error_setError k.getError (k.getModuleId.setWidth 16) (k.getFuncNum.setWidth 16)
  have hsame : (k.setError k.getError (k.getModuleId.setWidth 16)
      (k.getFuncNum.setWidth 16)).error = k.error := by
    refine BitVec.eq_of_toNat_eq ?_
    rw [hword, hmodule, hfunc, herror]
    clear hword hmodule hfunc herror
    omega
  exact congrArg ErrKey.mk hsame

/-- **The round trip.**  An error is read back, and of the two numbers their lowest bytes are, so
they are read back if they fit.  Every key is the one that its own fields set. -/
theorem errKey_roundTrip (k : ErrKey) (error moduleId moduleNum : BitVec 16) :
    (k.setError error moduleId moduleNum).getError = error ∧
      ((k.setError error moduleId moduleNum).getModuleId = (moduleId.setWidth 8).signExtend 32 ∧
        ((k.setError error moduleId moduleNum).getModuleId = moduleId.setWidth 32 ↔
          moduleId.toNat < 128)) ∧
      ((k.setError error moduleId moduleNum).getFuncNum = (moduleNum.setWidth 8).setWidth 32 ∧
        ((k.setError error moduleId moduleNum).getFuncNum = moduleNum.setWidth 32 ↔
          moduleNum.toNat < 256)) ∧
      k.setError k.getError (k.getModuleId.setWidth 16) (k.getFuncNum.setWidth 16) = k := by
  have hmodule := k.getModuleId_setError error moduleId moduleNum
  have hfunc := k.getFuncNum_setError error moduleId moduleNum
  refine ⟨?_, ⟨hmodule, hmodule ▸ signExtend_byte moduleId⟩,
    ⟨hfunc, hfunc ▸ setWidth_byte moduleNum⟩, k.setError_fields⟩
  refine BitVec.eq_of_toNat_eq ?_
  have herror := error.isLt
  rw [getError, BitVec.toNat_setWidth, error_setError]
  omega

end ErrKey

end GateRasu
