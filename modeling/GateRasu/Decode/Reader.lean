import GateRasu.Connector
import GateRasu.Lib.Scan

/-!
# Decoding a reply

`readReady` hands the registers of a reply one by one to `readMessage`, each with
its number in the reply.  `readMessage` runs four branches one after the other:
analog values, integer values, discrete values and qualities.

The arithmetic mixes three types.  `unitNum` is a `uint`, the offset of the
quality registers is an `int` that can be negative, and the section bounds of
`readQualityReg` are `float`s.  A comparison of a `uint` with an `int` converts
the `int` (`toUint`).  A comparison with a `float` is one of integers: the terms
are exact below `2 ^ 24`, and above that the comparison is with a register number
below `2 ^ 16`, so rounding does not change its outcome.

A vector of pointers has fewer than `2 ^ 28` elements, so `2 * size()` does not
overflow.
-/

namespace GateRasu

open Checked (OutOfRange)
open Scan (scanM)

/-! ## Machine words -/

/-- The conversion of an `int` to a `uint`. -/
def toUint (z : Int) : Nat := (z % 2 ^ 32).toNat

/-- `std::ceil(static_cast<float>(n) / d)`. -/
def ceilQuot (n d : Nat) : Int := ((n + d - 1) / d : Nat)

/-- `(v & (1 << i)) >> i` on an `int`. -/
def bitAt (v : BitVec 32) (i : Nat) : BitVec 32 := (v &&& (1#32 <<< i)).sshiftRight i

/-- `(hi << 16) | (lo & 0xffff)` on two `int16_t`s. -/
def joinWords (hi lo : BitVec 16) : BitVec 32 :=
  (hi.signExtend 32 <<< 16) ||| (lo.signExtend 32 &&& 0xffff#32)

/-- The quality in bits `i` and `i + 8` of a register: failure and simulation. -/
def qualityAt (v : BitVec 32) (i : Nat) : BitVec 32 := 1 * bitAt v i + 256 * bitAt v (i + 8)

/-! ## Bits and qualities -/

/-- The inner loop of `readBit`, over the bits of a word. -/
def readBits (tDiswordNum : Nat) (unitValue : BitVec 32) (c : Connector) :
    Except OutOfRange Connector :=
  (List.range 16).foldlM (fun c (ii : Nat) =>
    let tBitNum : Int := (ii : Int) + tDiswordNum * 16
    if tBitNum < c.maDSignals.length then
      c.modifySignal .dis tBitNum fun s => { s with sigDValue := bitAt unitValue ii }
    else return c) c

/-- `PLC_connector::readBit`. -/
def readBit (c : Connector) (unitValue : BitVec 32) : Except OutOfRange Connector :=
  let tDiswordNum := c.maDSignals.length / 16
  (List.range (tDiswordNum + 1)).foldlM (fun c _ => readBits tDiswordNum unitValue c) c

/-- The write of a section of `readQualityReg`, at bit `i` of the register `t` of
the section. -/
def readQualityBit (c : Connector) (g : Kind) (t : Int) (unitValue : BitVec 32) (i : Nat) :
    Except OutOfRange Connector :=
  if 8 * t + i < (c.signals g).length then
    c.modifySignal g (8 * t + i) fun s => { s with sigQualValue := qualityAt unitValue i }
  else return c

/-- The analog section of `readQualityReg`. -/
def readQualityAna (c : Connector) (unitNum : Nat) (unitValue : BitVec 32) (i : Nat) :
    Except OutOfRange Connector :=
  if toUint c.qualOffset ≤ unitNum ∧
      (unitNum : Int) < c.qualOffset + ceilQuot c.maASignals.length 8 then
    readQualityBit c .ana (unitNum - c.qualOffset) unitValue i
  else return c

/-- The integer section of `readQualityReg`. -/
def readQualityInt (c : Connector) (unitNum : Nat) (unitValue : BitVec 32) (i : Nat) :
    Except OutOfRange Connector :=
  let start := c.qualOffset + ceilQuot mSumAReg (2 * 8)
  if start ≤ unitNum ∧ (unitNum : Int) < start + ceilQuot c.maIntSignals.length 8 then
    readQualityBit c .int (unitNum - start) unitValue i
  else return c

/-- The discrete section of `readQualityReg`. -/
def readQualityDis (c : Connector) (unitNum : Nat) (unitValue : BitVec 32) (i : Nat) :
    Except OutOfRange Connector :=
  let start := c.qualOffset + ceilQuot mSumAReg (2 * 8) + ceilQuot mSumIntReg 8
  if start ≤ unitNum ∧ (unitNum : Int) < start + ceilQuot c.maDSignals.length 8 then
    readQualityBit c .dis (unitNum - start) unitValue i
  else return c

/-- `PLC_connector::readQualityReg`. -/
def readQualityReg (c : Connector) (unitNum : Nat) (unitValue : BitVec 32) :
    Except OutOfRange Connector :=
  (List.range 8).foldlM (fun c i => do
    let c ← readQualityAna c unitNum unitValue i
    let c ← readQualityInt c unitNum unitValue i
    readQualityDis c unitNum unitValue i) c

/-! ## One register -/

/-- The analog branch of `readMessage`. -/
def readAnalog (c : Connector) (unitNum : Nat) (unitValue : BitVec 32) :
    Except OutOfRange Connector :=
  if unitNum ≤ 2 * c.maASignals.length then
    let c := c.stage (unitValue.setWidth 16)
    if unitNum % 2 ≠ 0 ∧ unitNum ≠ 0 then do
      let hi ← Checked.get c.maAIntValue unitNum
      let lo ← Checked.get c.maAIntValue (unitNum - 1 : Nat)
      c.modifySignal .ana (unitNum / 2 : Nat) fun s => { s with sigAValue := joinWords hi lo }
    else return c
  else return c

/-- The integer branch of `readMessage`. -/
def readInteger (c : Connector) (unitNum : Nat) (unitValue : BitVec 32) :
    Except OutOfRange Connector :=
  if mSumAReg ≤ unitNum ∧ unitNum < mSumAReg + mSumIntReg then
    if (unitNum : Int) - mSumAReg < c.maIntSignals.length then
      c.modifySignal .int (unitNum - mSumAReg) fun s => { s with sigINTValue := unitValue }
    else return c
  else return c

/-- The discrete branch of `readMessage`. -/
def readDiscrete (c : Connector) (unitNum : Nat) (unitValue : BitVec 32) :
    Except OutOfRange Connector :=
  if mSumAReg + mSumIntReg ≤ unitNum ∧ unitNum < mSumAReg + mSumDReg + mSumIntReg then
    if unitNum ≤ mSumAReg + mSumIntReg + c.maDSignals.length / 16 then
      readBit c unitValue
    else return c
  else return c

/-- The quality branch of `readMessage`. -/
def readQuality (c : Connector) (unitNum : Nat) (unitValue : BitVec 32) :
    Except OutOfRange Connector :=
  if toUint c.qualOffset ≤ unitNum ∧
      unitNum < toUint (c.qualOffset + (mSumAReg / 8 : Nat) + (mSumDReg / 8 : Nat) +
        (mSumIntReg / 8 : Nat)) then
    readQualityReg c unitNum unitValue
  else return c

/-- `PLC_connector::readMessage`. -/
def readMessage (c : Connector) (unitNum : Nat) (unitValue : BitVec 32) :
    Except OutOfRange Connector :=
  if unitNum < c.mNumHoldRegs.toNat then do
    let c ← readAnalog c unitNum unitValue
    let c ← readInteger c unitNum unitValue
    let c ← readDiscrete c unitNum unitValue
    readQuality c unitNum unitValue
  else return c

/-! ## One reply -/

/-- A finished `QModbusReply`. -/
inductive Reply where
  | noError : List (BitVec 16) → Reply
  | protocolError
  | otherError

/-- The call of `readMessage` in the loop of `readReady`: a `quint16` becomes an `int`. -/
def readValue (c : Connector) (i : Nat) (v : BitVec 16) : Except OutOfRange Connector :=
  readMessage c i (v.setWidth 32)

/-- The loop of `readReady` over the values of a reply. -/
def readUnit (c : Connector) (values : List (BitVec 16)) : Except OutOfRange Connector :=
  scanM readValue c 0 values

/-- `PLC_connector::readReady`. -/
def readReady (c : Connector) : Reply → Except OutOfRange Connector
  | .noError values => readUnit c values
  | .protocolError => return c
  | .otherError => return c

end GateRasu
