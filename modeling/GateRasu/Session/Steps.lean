import GateRasu.Decode.Polls
import GateRasu.Session.Messages

/-!
# What the slots do

Every function of a session that has its client leaves a session in closed form, with the
acts that it appends.  Errors and ends of replies that come during a call are part of it.

`step_cases` lists what a slot can do.  An invariant is proved by cases on it.
-/

namespace GateRasu

open Lifecycle (Op)

namespace Session

/-! ## Signals -/

/-- The session after the end of a reply. -/
def endReply (s : Session) (k : Nat) (r : Reply) : Session :=
  { s with conn := s.conn.afterReply r, replies := s.replies.erase k }.emit
    [.op (.call (.reply k) (.error r)), .op (.delete (.reply k))]

theorem readReady_eq (s : Session) (k : Nat) (r : Reply) :
    s.readReady (some k) r = .ok (s.endReply k r) := by
  have hconn : (s.call (.reply k) (.error r)).conn = s.conn := rfl
  rw [readReady, hconn, Connector.readReady_ok]
  simp [call, emit, endReply, Except.mapError]

/-- The acts of errors of a client. -/
def errorActs (n : Nat) : Nat → List Act
  | 0 => []
  | k + 1 => .op (.call (.client n) .errorString) :: .printLogs .errorOccurred :: errorActs n k

section

variable {s : Session} {n : Nat}

theorem errorOccurred_eq (h : s.mModbusClient = some n) : s.errorOccurred =
    .ok (s.emit [.op (.call (.client n) .errorString), .printLogs .errorOccurred]) := by
  rw [errorOccurred, h]
  exact congrArg Except.ok (by simp [call, emit])

theorem errors_eq (h : s.mModbusClient = some n) (k : Nat) :
    s.errors k = .ok (s.emit (errorActs n k)) := by
  induction k generalizing s with
  | zero => exact congrArg Except.ok (by simp [emit, errorActs])
  | succ k ih =>
      rw [errors, errorOccurred_eq h]
      refine (ih (s := s.emit [_, _]) h).trans (congrArg Except.ok ?_)
      simp [emit, errorActs]

end

/-- The session after the ends of replies in a call. -/
def endReplies (s : Session) : List (Nat × Reply) → Session
  | [] => s
  | (k, r) :: ends => (if k ∈ s.replies then s.endReply k r else s).endReplies ends

theorem finished_eq (s : Session) (ends : List (Nat × Reply)) :
    s.finished ends = .ok (s.endReplies ends) := by
  induction ends generalizing s with
  | nil => rfl
  | cons e ends ih =>
      obtain ⟨k, r⟩ := e
      by_cases hk : k ∈ s.replies
      · rw [finished, endReplies, if_pos hk, if_pos hk, readReady_eq]
        exact ih _
      · rw [finished, endReplies, if_neg hk, if_neg hk]
        exact ih s

/-- What the end of a connected reply keeps. -/
theorem endReplies_inv {P : Session → Prop}
    (hP : ∀ s k r, k ∈ s.replies → P s → P (s.endReply k r)) (ends : List (Nat × Reply))
    {s : Session} (hs : P s) : P (s.endReplies ends) := by
  induction ends generalizing s with
  | nil => exact hs
  | cons e ends ih =>
      obtain ⟨k, r⟩ := e
      rw [endReplies]
      refine ih ?_
      split
      · next hk => exact hP s k r hk hs
      · exact hs

theorem endReplies_client (s : Session) (ends : List (Nat × Reply)) :
    (s.endReplies ends).mModbusClient = s.mModbusClient :=
  endReplies_inv (P := fun s' => s'.mModbusClient = s.mModbusClient) (fun _ _ _ _ hs => hs) ends rfl

/-! ## Requests -/

/-- The acts of a request with a reply numbered `k`. -/
def sendActs (s : Session) (n : Nat) (unit : QModbusDataUnit) (a : SendAnswer) : List Act :=
  .op (.call (.client n) (.sendReadRequest unit s.conn.mServerAdr)) :: (errorActs n a.errors ++
    match a.sent with
    | .failed => [.op (.call (.client n) .errorString), .printLogs .readError]
    | .finished => [.op (.new (.reply s.made)), .op (.call (.reply s.made) .isFinished),
        .op (.delete (.reply s.made))]
    | .pending => [.op (.new (.reply s.made)), .op (.call (.reply s.made) .isFinished)])

/-- The session after a request. -/
def requested (s : Session) (n : Nat) (unit : QModbusDataUnit) (a : SendAnswer) : Session :=
  match a.sent with
  | .failed => s.emit (s.sendActs n unit a)
  | .finished => { s with made := s.made + 1 }.emit (s.sendActs n unit a)
  | .pending => { s with
      made := s.made + 1
      replies := s.replies ++ [s.made] }.emit (s.sendActs n unit a)

theorem requested_acts (s : Session) (n : Nat) (unit : QModbusDataUnit) (a : SendAnswer) :
    (s.requested n unit a).acts = s.acts ++ s.sendActs n unit a := by
  rw [requested]
  cases a.sent <;> rfl

/-- The session after `prepareRead`. -/
def prepared (s : Session) (unit : QModbusDataUnit) (a : SendAnswer) : Session :=
  s.mModbusClient.elim s fun n => s.requested n unit a

theorem prepared_some {s : Session} {n : Nat} (h : s.mModbusClient = some n)
    (unit : QModbusDataUnit) (a : SendAnswer) : s.prepared unit a = s.requested n unit a := by
  rw [prepared, h]
  rfl

theorem prepareRead_eq (s : Session) (startAddress count : BitVec 16) (a : SendAnswer) :
    s.prepareRead startAddress count a = .ok (s.prepared (readRequest startAddress count) a) := by
  cases hn : s.mModbusClient with
  | none =>
      rw [prepareRead, prepared, hn]
      rfl
  | some n =>
      obtain ⟨errors, sent⟩ := a
      have herrors := errors_eq (s := s.call (.client n) (.sendReadRequest
        (readRequest startAddress count) s.conn.mServerAdr)) hn errors
      rw [prepareRead, prepared_some hn, hn]
      dsimp only
      rw [herrors]
      cases sent <;> exact congrArg Except.ok (by simp [requested, sendActs, newReply, call, emit])

/-- The request for the registers of the connector. -/
def polled (s : Session) (a : SendAnswer) : Session :=
  s.prepared (readRequest s.conn.mStartReg s.conn.mNumHoldRegs) a

/-! ## Connections -/

/-- The session without its client. -/
def dropped (s : Session) (aborted : List (Nat × Reply)) : Session :=
  s.mModbusClient.elim s fun n =>
    { ((s.call (.client n) .disconnectDevice).endReplies aborted).emit
        [.op (.delete (.client n))] with
      mModbusClient := none }

theorem dropClient_eq (s : Session) (aborted : List (Nat × Reply)) :
    s.dropClient aborted = .ok (s.dropped aborted) := by
  cases hn : s.mModbusClient with
  | none =>
      rw [dropClient, dropped, hn]
      rfl
  | some n =>
      rw [dropClient, dropped, hn]
      dsimp only [Option.elim_some]
      rw [finished_eq]
      rfl

theorem dropped_client (s : Session) (aborted : List (Nat × Reply)) :
    (s.dropped aborted).mModbusClient = none := by
  cases hn : s.mModbusClient with
  | none =>
      rw [dropped, hn]
      exact hn
  | some n =>
      rw [dropped, hn]
      rfl

/-- The acts of a connection. -/
def connectActs (n : Nat) (a : ConnectAnswers) : List Act :=
  .op (.call (.client n) .state) ::
    if a.connected then []
    else .op (.call (.client n) .connectDevice) :: (errorActs n a.errors ++
      if a.connects then [.op (.call (.client n) .state), .printLogs .state]
      else [.op (.call (.client n) .errorString), .printLogs .failedToConnect])

theorem connectDevice_eq {s : Session} {n : Nat} (h : s.mModbusClient = some n)
    (a : ConnectAnswers) : s.connectDevice n a = .ok (s.emit (connectActs n a)) := by
  obtain ⟨aborted, connected, errors, connects, send⟩ := a
  cases connected with
  | true => rfl
  | false =>
      have herrors := errors_eq (s := (s.call (.client n) .state).call (.client n) .connectDevice)
        h errors
      rw [connectDevice]
      dsimp only
      rw [if_neg Bool.false_ne_true, herrors]
      cases connects <;> exact congrArg Except.ok (by simp [connectActs, call, emit])

/-- The parameters of a client. -/
def parameters (c : Connector) : List QCall :=
  [.setNetworkPort c.mPlcPort, .setNetworkAddress c.mPlcHost, .setTimeout c.mResponseTime,
    .setNumberOfRetries c.mNumOfRetries]

/-- A new client with its parameters and its connection. -/
def connectClient (s : Session) (a : ConnectAnswers) : Session :=
  { s with mModbusClient := some s.made, made := s.made + 1 }.emit
    (.op (.new (.client s.made)) ::
      ((parameters s.conn).map (fun k => Act.op (.call (.client s.made) k)) ++
        connectActs s.made a))

/-- The session after `connectOn`. -/
def connected (s : Session) (a : ConnectAnswers) : Session :=
  ((s.dropped a.aborted).connectClient a).polled a.send

theorem connectOn_eq (s : Session) (a : ConnectAnswers) :
    s.connectOn a = .ok (s.connected a) := by
  rw [connectOn, dropClient_eq]
  dsimp only [bind, Except.bind]
  rw [connectDevice_eq rfl]
  dsimp only
  rw [prepareRead_eq]
  exact congrArg Except.ok (by simp [connected, polled, connectClient, parameters, call, emit])

/-! ## Slots -/

/-- The session after a tick. -/
def ticked (s : Session) (a : SendAnswer) (o : Nat → PutRet) : Session := (s.polled a).publish o

theorem emitTime_eq (s : Session) (a : SendAnswer) (o : Nat → PutRet) :
    s.emitTime a o = .ok (s.ticked a o) := by
  rw [emitTime, prepareRead_eq]
  rfl

/-- The ways a slot ends. -/
inductive Steps (s : Session) : Slot → Session → Prop
  | connectOn (a : ConnectAnswers) : Steps s (.connectOn a) (s.connected a)
  | prepareRead (startAddress count : BitVec 16) (a : SendAnswer) :
      Steps s (.prepareRead startAddress count a) (s.prepared (readRequest startAddress count) a)
  | emitTime (a : SendAnswer) (o : Nat → PutRet) : Steps s (.emitTime a o) (s.ticked a o)
  | noSender (r : Reply) : Steps s (.readReady none r) s
  | readReady (k : Nat) (r : Reply) : Steps s (.readReady (some k) r) (s.endReply k r)
  | errorOccurred {n : Nat} (m : Nat) : s.mModbusClient = some n →
      Steps s (.errorOccurred m)
        (s.emit [.op (.call (.client n) .errorString), .printLogs .errorOccurred])

theorem step_cases {s s' : Session} {x : Slot} (h : s.step x = .ok s') : Steps s x s' := by
  cases x with
  | connectOn a =>
      cases (s.connectOn_eq a).symm.trans h
      exact .connectOn a
  | prepareRead startAddress count a =>
      cases (s.prepareRead_eq startAddress count a).symm.trans h
      exact .prepareRead startAddress count a
  | emitTime a o =>
      cases (s.emitTime_eq a o).symm.trans h
      exact .emitTime a o
  | readReady sender r =>
      cases sender with
      | none =>
          cases h
          exact .noSender r
      | some k =>
          cases (readReady_eq s k r).symm.trans h
          exact .readReady k r
  | errorOccurred m =>
      cases hn : s.mModbusClient with
      | none =>
          rw [step, errorOccurred, hn] at h
          cases h
      | some n =>
          cases (errorOccurred_eq hn).symm.trans h
          exact .errorOccurred m hn

/-- What every possible slot keeps holds after a run. -/
theorem Runs.inv {P : Session → Prop}
    (hP : ∀ s s' x, P s → s.Possible x → s.step x = .ok s' → P s') {s s' : Session}
    {xs : List Slot} (h : Runs s xs s') (hs : P s) : P s' := by
  induction h with
  | nil s => exact hs
  | cons hx hstep _ ih => exact ih (hP _ _ _ hs hx hstep)

end Session

end GateRasu
