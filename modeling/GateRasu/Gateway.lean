import GateRasu.Decode.Polls
import GateRasu.Ini.Line
import GateRasu.Publish

/-!
# The gateway

The program as a state machine.  `Init` reads the ini file, and then either publishes
simulated signals once or starts polling.  A polling gateway reacts to two events: a
tick of the timer sends a request and publishes, and a reply to a pending request is
decoded.  A reply can come at any time after its request, or never.

The trace records what crosses the border of the program, in order.
-/

namespace GateRasu

open Checked (OutOfRange)

/-- What crosses the border of the program. -/
inductive Obs where
  /-- A read request: its first register, its number of registers, and the server. -/
  | request (startAddress count serverAdr : BitVec 16)
  /-- A reply to a request. -/
  | received : Reply → Obs
  /-- A request could not be sent. -/
  | notSent
  /-- A put on the channel. -/
  | put : Value → Obs

/-- What becomes of a read request. -/
inductive Sent where
  /-- `sendReadRequest` returns no reply object. -/
  | failed
  /-- The reply object is finished at once, and dropped. -/
  | finished
  /-- The reply object will signal its end. -/
  | pending
deriving DecidableEq, Repr

/-- The state of the program. -/
structure Gateway where
  conn : Connector
  /-- Whether the timer runs. -/
  polling : Bool
  /-- The number of requests without a reply. -/
  pending : Nat
  /-- The buffer `value`. -/
  value : Value
  trace : List Obs

namespace Gateway

/-- `sendReadRequest`. -/
def sendReadRequest (g : Gateway) (startAddress count serverAdr : BitVec 16) : Gateway :=
  { g with trace := g.trace ++ [.request startAddress count serverAdr] }

/-- `PLC_connector::prepareRead`. -/
def prepareRead (g : Gateway) (startAddress count : BitVec 16) (r : Sent) : Gateway :=
  let g := g.sendReadRequest startAddress count g.conn.mServerAdr
  match r with
  | .failed => { g with trace := g.trace ++ [.notSent] }
  | .finished => g
  | .pending => { g with pending := g.pending + 1 }

/-- The request for the registers of the ini file. -/
def poll (g : Gateway) (r : Sent) : Gateway :=
  g.prepareRead g.conn.mStartReg g.conn.mNumHoldRegs r

/-- A publication.  It leaves its puts in the trace, however it ends. -/
def publish (g : Gateway) (o : Nat → PutRet) : Gateway :=
  match placeInPPD o g.conn ⟨g.value, []⟩ with
  | .error ch | .ok ch => { g with value := ch.value, trace := g.trace ++ ch.sent.map Obs.put }

/-- `PLC_connector::EmitTime`. -/
def emitTime (g : Gateway) (r : Sent) (o : Nat → PutRet) : Gateway := (g.poll r).publish o

/-- The end of a pending request. -/
def finish (g : Gateway) (r : Reply) : Except OutOfRange Gateway := do
  let c ← readReady g.conn r
  return { g with conn := c, pending := g.pending - 1, trace := g.trace ++ [.received r] }

end Gateway

/-- What happens to a polling gateway. -/
inductive Event where
  /-- A tick of the timer: what becomes of the request, and the answers to the puts. -/
  | tick : Sent → (Nat → PutRet) → Event
  /-- The end of a pending request. -/
  | reply : Reply → Event

/-- One event.  A gateway that does not poll has no timer, and a reply needs a request. -/
def Gateway.step (g : Gateway) : Event → Except OutOfRange Gateway
  | .tick r o => return if g.polling then g.emitTime r o else g
  | .reply r => if g.polling ∧ 0 < g.pending then g.finish r else return g

def Gateway.run (g : Gateway) (events : List Event) : Except OutOfRange Gateway :=
  events.foldlM step g

/-! ## The start -/

def simul : QString := "--SIMUL".toList

/-- `PLC_connector::testSignals`.  The `float` is `133.3`. -/
def testSignals (c : Connector) : Connector :=
  { c with
    maASignals := c.maASignals.map fun s => { s with sigAValue := 1124420813, sigQualValue := 3 }
    maDSignals := c.maDSignals.mapIdx fun i s =>
      { s with sigDValue := if i % 2 = 0 then 1 else 0, sigQualValue := 3 }
    maIntSignals := c.maIntSignals.map fun s => { s with sigINTValue := 123, sigQualValue := 3 } }

/-- The numbers `Init` computes. -/
def countSignals (c : Connector) : Connector :=
  let n : BitVec 32 := BitVec.ofNat 32 (c.maASignals.length + c.maDSignals.length +
    c.maIntSignals.length + c.maGrSignals.length)
  { c with mAllSigNum := n, mSumQualReg := (n / 8).setWidth 16 }

/-- `PLC_connector::Init` on a connector in the state `c`. -/
def Connector.init (env : Env) (c : Connector) (f : IniFile) (r : Sent) (o : Nat → PutRet) :
    Except OutOfRange Gateway := do
  let (c, ret) ← readSignalsFile env c "signals.ini".toList f
  match ret with
  | .failure => return ⟨c, false, 0, .noType, []⟩
  | .success =>
      let c := countSignals c
      if c.mParams = simul then
        return Gateway.publish ⟨testSignals c, false, 0, .noType, []⟩ o
      else return Gateway.poll ⟨c, true, 0, .noType, []⟩ r

/-- The program in a mode, from its start through a list of events. -/
def gateway (env : Env) (params : QString) (u : Uninit) (f : IniFile) (r : Sent)
    (o : Nat → PutRet) (events : List Event) : Except OutOfRange Gateway := do
  let g ← (Connector.new params u).init env f r o
  g.run events

end GateRasu
