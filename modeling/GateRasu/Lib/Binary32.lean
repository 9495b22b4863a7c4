import Mathlib

/-!
# Single precision numbers

A word of `32` bits has a sign, an exponent and a fraction, and denotes a number unless
its exponent is the largest one.  A natural number of at most `24` bits has a word that
denotes it (`value_ofNat`).
-/

namespace Binary32

/-! ## Fields -/

def sign (x : BitVec 32) : Nat := x.toNat / 2 ^ 31

def exponent (x : BitVec 32) : Nat := x.toNat / 2 ^ 23 % 2 ^ 8

def fraction (x : BitVec 32) : Nat := x.toNat % 2 ^ 23

/-- The number a word denotes. -/
def value (x : BitVec 32) : Option ℚ :=
  if exponent x = 255 then none
  else some ((-1) ^ sign x *
    if exponent x = 0 then (fraction x : ℚ) * 2 ^ (-149 : ℤ)
    else (2 ^ 23 + fraction x : ℚ) * 2 ^ ((exponent x : ℤ) - 150))

/-- The word of a natural number of at most `24` bits. -/
def ofNat (n : Nat) : BitVec 32 :=
  let e := Nat.log2 n
  BitVec.ofNat 32 ((127 + e) * 2 ^ 23 + (n - 2 ^ e) * 2 ^ (23 - e))

end Binary32
