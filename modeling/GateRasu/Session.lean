import GateRasu.Gateway
import GateRasu.Lib.Lifecycle

/-!
# The session

The connector with the Modbus objects it handles: the client that `connectOn` makes, and
the replies that `sendReadRequest` returns.  A session makes them, calls them and
deletes them, and every such operation is recorded with the puts and the messages
(`Act`).  `Gateway` has none of these objects.

The slots of the class are the functions that something else calls.  What the Modbus
module and the channel answer is an argument of the slot.  The module may answer with
signals before a call returns: errors of the client while it connects or sends, and the
ends of replies while it disconnects.  A pointer that is null is not followed: that is a
`Fault`.  What the module does to its objects by itself is not recorded.  The session
starts when `Init` has read its file.  The messages that only a debug mode prints are left
out.
-/

namespace GateRasu

open Checked (OutOfRange)
open Lifecycle (Op)
open Scan (scanM)

/-! ## Objects -/

/-- A client or a reply, each with a number. -/
inductive QObject where
  | client : Nat → QObject
  | reply : Nat → QObject
deriving DecidableEq, Repr

/-- `QModbusDataUnit`. -/
inductive QModbusDataUnit where
  | holdingRegisters (startAddress count : BitVec 16)
deriving DecidableEq, Repr

/-- A call to an object. -/
inductive QCall where
  | setNetworkPort : BitVec 16 → QCall
  | setNetworkAddress : QString → QCall
  | setTimeout : BitVec 16 → QCall
  | setNumberOfRetries : BitVec 8 → QCall
  | state
  | connectDevice
  | errorString
  | sendReadRequest : QModbusDataUnit → BitVec 16 → QCall
  | disconnectDevice
  | isFinished
  /-- `error` and `result`, with what they return. -/
  | error : Reply → QCall

/-- `Logs_Type`. -/
inductive LogsType where
  | debug
  | info
  | warning
  | critical
deriving DecidableEq, Repr

/-- A message that is printed in every mode. -/
inductive Message where
  | failedToConnect
  | state
  | readError
  | errorOccurred
  | analogPutError
  | analogPutWarning
  | binaryPutError
  | binaryPutWarning
  | integerPutError
  | integerPutWarning
  | groupPutError
  | ok
deriving DecidableEq, Repr

namespace Message

/-- The text before the error or the state. -/
def text : Message → String
  | failedToConnect => "Failed to connect to the server:"
  | state => "State: "
  | readError => "Read error: "
  | errorOccurred => " Error:"
  | analogPutError => "Analog value put error: "
  | analogPutWarning => "Analog value put warning: "
  | binaryPutError => "Binary value put error: "
  | binaryPutWarning => "Binary value put warning: "
  | integerPutError => "Integer value put error: "
  | integerPutWarning => "Integer value put error: "
  | groupPutError => "Group value put error: "
  | ok => "Ok!"

def type : Message → LogsType
  | failedToConnect => .critical
  | state => .info
  | readError => .critical
  | errorOccurred => .critical
  | analogPutError => .critical
  | analogPutWarning => .warning
  | binaryPutError => .critical
  | binaryPutWarning => .warning
  | integerPutError => .critical
  | integerPutWarning => .warning
  | groupPutError => .critical
  | ok => .info

end Message

/-- What a session does. -/
inductive Act where
  | op : Op QObject QCall → Act
  | put : Value → Act
  | printLogs : Message → Act

/-! ## State -/

/-- A connector with its objects. -/
structure Session where
  conn : Connector
  /-- `m_modbusClient`. -/
  mModbusClient : Option Nat
  /-- The replies whose end calls `readReady`. -/
  replies : List Nat
  /-- The number of objects that were made. -/
  made : Nat
  /-- The buffer `value`. -/
  value : Value
  acts : List Act

/-- What the module answers to a request. -/
structure SendAnswer where
  /-- The errors it signals before `sendReadRequest` returns. -/
  errors : Nat
  sent : Sent

/-- What the module answers to `connectOn`. -/
structure ConnectAnswers where
  /-- The replies that end in `disconnectDevice`. -/
  aborted : List (Nat × Reply)
  /-- `state` is `ConnectedState`. -/
  connected : Bool
  /-- The errors it signals before `connectDevice` returns. -/
  errors : Nat
  /-- `connectDevice` returns true. -/
  connects : Bool
  send : SendAnswer

/-- Why a slot stops. -/
inductive Fault where
  | nullPointer
  | outOfRange : OutOfRange → Fault
deriving DecidableEq, Repr

namespace Session

/-- A connector without a client. -/
def new (c : Connector) : Session := ⟨c, none, [], 0, .noType, []⟩

def emit (s : Session) (as : List Act) : Session := { s with acts := s.acts ++ as }

def call (s : Session) (x : QObject) (k : QCall) : Session := s.emit [.op (.call x k)]

/-! ## Signals -/

/-- `PLC_connector::readReady`, with the reply that `sender` returns. -/
def readReady (s : Session) (sender : Option Nat) (r : Reply) : Except Fault Session :=
  match sender with
  | none => return s
  | some k => do
      let s := s.call (.reply k) (.error r)
      let c ← (GateRasu.readReady s.conn r).mapError .outOfRange
      return { s with conn := c, replies := s.replies.erase k }.emit [.op (.delete (.reply k))]

/-- The function that `connectOn` connects to `errorOccurred`. -/
def errorOccurred (s : Session) : Except Fault Session :=
  match s.mModbusClient with
  | none => throw .nullPointer
  | some n => return (s.call (.client n) .errorString).emit [.printLogs .errorOccurred]

/-- The errors of the client in a call. -/
def errors (s : Session) : Nat → Except Fault Session
  | 0 => return s
  | k + 1 => do
      let s ← s.errorOccurred
      s.errors k

/-- The replies that end in a call.  Only those that are connected call `readReady`. -/
def finished (s : Session) : List (Nat × Reply) → Except Fault Session
  | [] => return s
  | (k, r) :: ends => do
      let s ← if k ∈ s.replies then s.readReady (some k) r else pure s
      s.finished ends

/-! ## Requests -/

/-- `PLC_connector::readRequest`. -/
def readRequest (startAddress count : BitVec 16) : QModbusDataUnit :=
  .holdingRegisters startAddress count

/-- The reply object that `sendReadRequest` returns. -/
def newReply (s : Session) : Session :=
  { s with made := s.made + 1 }.emit [.op (.new (.reply s.made))]

/-- `PLC_connector::prepareRead`. -/
def prepareRead (s : Session) (startAddress count : BitVec 16) (a : SendAnswer) :
    Except Fault Session :=
  match s.mModbusClient with
  | none => return s
  | some n => do
      let s := s.call (.client n)
        (.sendReadRequest (readRequest startAddress count) s.conn.mServerAdr)
      let s ← s.errors a.errors
      let k := s.made
      match a.sent with
      | .failed => return (s.call (.client n) .errorString).emit [.printLogs .readError]
      | .pending =>
          let s := s.newReply.call (.reply k) .isFinished
          return { s with replies := s.replies ++ [k] }
      | .finished =>
          return (s.newReply.call (.reply k) .isFinished).emit [.op (.delete (.reply k))]

/-! ## Connections -/

/-- The end of a client: `disconnectDevice` and `delete`. -/
def dropClient (s : Session) (aborted : List (Nat × Reply)) : Except Fault Session :=
  match s.mModbusClient with
  | none => return s
  | some n => do
      let s ← (s.call (.client n) .disconnectDevice).finished aborted
      return { s.emit [.op (.delete (.client n))] with mModbusClient := none }

/-- The connection of a client. -/
def connectDevice (s : Session) (n : Nat) (a : ConnectAnswers) : Except Fault Session := do
  let s := s.call (.client n) .state
  if a.connected then return s
  else
    let s ← (s.call (.client n) .connectDevice).errors a.errors
    if a.connects then return (s.call (.client n) .state).emit [.printLogs .state]
    else return (s.call (.client n) .errorString).emit [.printLogs .failedToConnect]

/-- `PLC_connector::connectOn`. -/
def connectOn (s : Session) (a : ConnectAnswers) : Except Fault Session := do
  let s ← s.dropClient a.aborted
  let n := s.made
  let s := { s with mModbusClient := some n, made := n + 1 }.emit [.op (.new (.client n))]
  let s := s.call (.client n) (.setNetworkPort s.conn.mPlcPort)
  let s := s.call (.client n) (.setNetworkAddress s.conn.mPlcHost)
  let s := s.call (.client n) (.setTimeout s.conn.mResponseTime)
  let s := s.call (.client n) (.setNumberOfRetries s.conn.mNumOfRetries)
  let s ← s.connectDevice n a
  s.prepareRead s.conn.mStartReg s.conn.mNumHoldRegs a.send

end Session

/-! ## Publications -/

/-- A session in a publication, with the number of puts so far. -/
structure Placing where
  session : Session
  puts : Nat

namespace Placing

/-- The buffer is given a value. -/
def make (p : Placing) (v : Value) : Placing := { p with session := { p.session with value := v } }

def printLogs (p : Placing) (m : Message) : Placing :=
  { p with session := p.session.emit [.printLogs m] }

/-- `DTSClient::put` of the buffer. -/
def put (o : Nat → PutRet) (p : Placing) : PutRet × Placing :=
  (o p.puts, ⟨p.session.emit [.put p.session.value], p.puts + 1⟩)

/-- The end of an analog, discrete or integer put. -/
def checkPut (error warning : Message) : PutRet × Placing → Except Placing Placing
  | (.error, p) => .error (p.printLogs error)
  | (.warning, p) => .ok (p.printLogs warning)
  | (.ok, p) => .ok p

/-- The end of a group put. -/
def checkGrPut (error : Message) (r : PutRet × Placing) : Except Placing Placing :=
  if r.1 ≠ .ok then .error (r.2.printLogs error) else .ok r.2

def placeAna (o : Nat → PutRet) (p : Placing) (i : Nat) (s : WSSignal) : Except Placing Placing :=
  checkPut .analogPutError .analogPutWarning ((p.make (.ana i s.sigQualValue s.sigAValue)).put o)

def placeBin (o : Nat → PutRet) (p : Placing) (i : Nat) (s : WSSignal) : Except Placing Placing :=
  checkPut .binaryPutError .binaryPutWarning ((p.make (.bin i s.sigQualValue s.sigDValue)).put o)

def placeInt (o : Nat → PutRet) (p : Placing) (i : Nat) (s : WSSignal) : Except Placing Placing :=
  checkPut .integerPutError .integerPutWarning
    ((p.make (.int i s.sigQualValue s.sigINTValue)).put o)

def placeGrp (o : Nat → PutRet) (p : Placing) (i : Nat) (_ : WSGrSignal) :
    Except Placing Placing :=
  checkGrPut .groupPutError ((p.make (.grp 0 13 (groupData i))).put o)

end Placing

namespace Session

/-- `PLC_connector::placeIn_PPD` with its messages.  An error is the return of `-1`. -/
def placeInPPD (s : Session) (o : Nat → PutRet) : Except Placing Placing := do
  let p ← scanM (Placing.placeAna o) ⟨s, 0⟩ 0 s.conn.maASignals
  let p ← scanM (Placing.placeBin o) p 0 s.conn.maDSignals
  let p ← scanM (Placing.placeInt o) p 0 s.conn.maIntSignals
  let p ← scanM (Placing.placeGrp o) p 0 s.conn.maGrSignals
  return p.printLogs .ok

/-- A publication.  `EmitTime` does not look at what `placeIn_PPD` returns. -/
def publish (s : Session) (o : Nat → PutRet) : Session :=
  match s.placeInPPD o with
  | .error p | .ok p => p.session

/-! ## Slots -/

/-- `PLC_connector::EmitTime`. -/
def emitTime (s : Session) (a : SendAnswer) (o : Nat → PutRet) : Except Fault Session := do
  let s ← s.prepareRead s.conn.mStartReg s.conn.mNumHoldRegs a
  return s.publish o

/-- `PLC_connector::~PLC_connector`. -/
def destroy (s : Session) (aborted : List (Nat × Reply)) : Except Fault Session :=
  s.dropClient aborted

end Session

/-- A call of a slot, with the answers it gets. -/
inductive Slot where
  | connectOn : ConnectAnswers → Slot
  | prepareRead : BitVec 16 → BitVec 16 → SendAnswer → Slot
  | emitTime : SendAnswer → (Nat → PutRet) → Slot
  /-- A reply has ended, or something else has called the slot. -/
  | readReady : Option Nat → Reply → Slot
  /-- A client has an error. -/
  | errorOccurred : Nat → Slot

namespace Session

/-- The operations among the acts. -/
def opsOf (as : List Act) : List (Op QObject QCall) :=
  as.filterMap fun
    | .op x => some x
    | .put _ => none
    | .printLogs _ => none

/-- The objects that a session has left. -/
def heap (s : Session) : Lifecycle.Heap QObject := Lifecycle.Heap.empty.afterAll (opsOf s.acts)

/-- Only an object that is there emits a signal, and a reply only if it is connected. -/
def Possible (s : Session) : Slot → Prop
  | .connectOn _ => True
  | .prepareRead _ _ _ => True
  | .emitTime _ _ => True
  | .readReady none _ => True
  | .readReady (some k) _ => .reply k ∈ s.heap.live ∧ k ∈ s.replies
  | .errorOccurred n => .client n ∈ s.heap.live

def step (s : Session) : Slot → Except Fault Session
  | .connectOn a => s.connectOn a
  | .prepareRead startAddress count a => s.prepareRead startAddress count a
  | .emitTime a o => s.emitTime a o
  | .readReady sender r => s.readReady sender r
  | .errorOccurred _ => s.errorOccurred

/-- Possible calls of slots lead from a session to another one. -/
inductive Runs : Session → List Slot → Session → Prop
  | nil (s : Session) : Runs s [] s
  | cons {s s' s'' : Session} {x : Slot} {xs : List Slot} : s.Possible x → s.step x = .ok s' →
      Runs s' xs s'' → Runs s (x :: xs) s''

end Session

end GateRasu
