import GateRasu.QtString

/-!
# Signals

A signal of the gateway as its class declares it.  A `float` is its bit pattern,
and so is an `int32_t`.

The constructor of an analog signal leaves four members without a value.
`Garbage` is what the memory of a new object holds in them.
-/

namespace GateRasu

/-- `WS_signal`. -/
structure WSSignal where
  /-- The type of the signal. -/
  sigType : BitVec 8
  /-- The name of the signal. -/
  sigName : QString
  /-- The number of the holding register with the value. -/
  sigHoldW : BitVec 16
  /-- The number of the holding register with the quality. -/
  sigQualW : BitVec 16
  /-- The value of an analog signal. -/
  sigAValue : BitVec 32
  /-- The value of a discrete signal. -/
  sigDValue : BitVec 32
  /-- The value of an integer signal. -/
  sigINTValue : BitVec 32
  /-- The quality. -/
  sigQualValue : BitVec 32
  /-- The simulation value of an analog signal. -/
  sigSimA : BitVec 32
  /-- The simulation value of a discrete signal. -/
  sigSimD : BitVec 32
  /-- The simulation value of an integer signal. -/
  sigSimInt : BitVec 32
deriving DecidableEq, Repr

/-- `WS_gr_signal` has no members. -/
structure WSGrSignal where
deriving DecidableEq, Repr

/-- The members the constructor of an analog signal does not set. -/
structure Garbage where
  sigDValue : BitVec 32
  sigINTValue : BitVec 32
  sigSimD : BitVec 32
  sigSimInt : BitVec 32

/-- The constructor with a `float`. -/
def WSSignal.ofFloat (g : Garbage) (sigT : BitVec 8) (sigN : QString) (sigHW sigQW : BitVec 16)
    (sigSA : BitVec 32) : WSSignal where
  sigType := sigT
  sigName := sigN
  sigHoldW := sigHW
  sigQualW := sigQW
  sigAValue := 0
  sigDValue := g.sigDValue
  sigINTValue := g.sigINTValue
  sigQualValue := 0
  sigSimA := sigSA
  sigSimD := g.sigSimD
  sigSimInt := g.sigSimInt

/-- The constructor with an `int32_t`. -/
def WSSignal.ofInt (sigT : BitVec 8) (sigN : QString) (sigHW sigQW : BitVec 16)
    (sigSDI : BitVec 32) : WSSignal where
  sigType := sigT
  sigName := sigN
  sigHoldW := sigHW
  sigQualW := sigQW
  sigAValue := 0
  sigDValue := 0
  sigINTValue := 0
  sigQualValue := 0
  sigSimA := 0
  sigSimD := sigSDI
  sigSimInt := sigSDI

/-- The kinds of signal that carry a value and a quality. -/
inductive Kind where
  | ana
  | dis
  | int
deriving DecidableEq, Repr

end GateRasu
