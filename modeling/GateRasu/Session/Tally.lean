import GateRasu.Session.Log

/-!
# What a session does once

A count of what goes to the Modbus module in a polling session.  Every event adds to it by
itself (`tally_run`).  No timer tick, no end of a reply and no error of the client makes a
client or opens a connection, so the one that `Init` has tried is the only one
(`connects_once`).  The ticks make requests, and of the replies that these return those are
kept that wait for their end (`Balanced`).
-/

namespace GateRasu

open Lifecycle (Op)

/-! ## Counts -/

/-- An operation that is counted. -/
inductive Counted where
  | newClient
  | deleteClient
  | connectDevice
  | disconnectDevice
  | sendReadRequest
  | newReply
  | deleteReply
deriving DecidableEq, Repr

def Counted.holds : Counted → Op QObject QCall → Bool
  | newClient, .new (.client _) => true
  | deleteClient, .delete (.client _) => true
  | connectDevice, .call _ .connectDevice => true
  | disconnectDevice, .call _ .disconnectDevice => true
  | sendReadRequest, .call _ (.sendReadRequest _ _) => true
  | newReply, .new (.reply _) => true
  | deleteReply, .delete (.reply _) => true
  | _, _ => false

def Act.counts (k : Counted) : Act → Bool
  | .op x => k.holds x
  | .put _ => false
  | .printLogs _ => false

/-- How often an operation is among acts. -/
def tally (k : Counted) (as : List Act) : ℕ := as.countP (Act.counts k)

@[simp] theorem tally_nil (k : Counted) : tally k [] = 0 := rfl

@[simp] theorem tally_cons (k : Counted) (x : Act) (as : List Act) :
    tally k (x :: as) = tally k as + if x.counts k then 1 else 0 := List.countP_cons ..

@[simp] theorem tally_append (k : Counted) (as as' : List Act) :
    tally k (as ++ as') = tally k as + tally k as' := List.countP_append

theorem tally_publishActs (k : Counted) (o : Nat → PutRet) (vs : List Value) :
    tally k (publishActs o vs) = 0 := by
  refine List.countP_eq_zero.mpr fun x hx => ?_
  rcases eq_put_or_printLogs hx with ⟨v, rfl⟩ | ⟨m, rfl⟩ <;> exact Bool.false_ne_true

/-- Whether a request returns a reply. -/
def SendAnswer.replies (a : SendAnswer) : Bool :=
  match a.sent with
  | .failed => false
  | .pending => true
  | .finished => true

/-- What a request adds. -/
def SendAnswer.adds (a : SendAnswer) : Counted → ℕ
  | .sendReadRequest => 1
  | .newReply => if a.replies then 1 else 0
  | .deleteReply =>
      match a.sent with
      | .failed => 0
      | .pending => 0
      | .finished => 1
  | _ => 0

/-- The requests of an event. -/
def PollEvent.sends : PollEvent → List SendAnswer
  | tick a _ => [a]
  | finished _ _ => []
  | error _ => []

/-- What an event adds. -/
def PollEvent.adds (k : Counted) : PollEvent → ℕ
  | tick a _ => a.adds k
  | finished _ _ => if k = .deleteReply then 1 else 0
  | error _ => 0

/-- A reply that a request returns is deleted at once or waits. -/
theorem SendAnswer.adds_newReply (a : SendAnswer) :
    a.adds .newReply = a.adds .deleteReply + a.sent.waits := by
  obtain ⟨errors, sent⟩ := a
  cases sent <;> rfl

namespace Session

/-! ## Events -/

theorem tally_errorActs (k : Counted) (n m : Nat) : tally k (errorActs n m) = 0 := by
  induction m with
  | zero => rfl
  | succ m ih => cases k <;> simpa [errorActs, Act.counts, Counted.holds] using ih

theorem tally_pollActs (k : Counted) (s : Session) (n : Nat) (a : SendAnswer) :
    tally k (s.pollActs n a) = a.adds k := by
  obtain ⟨errors, sent⟩ := a
  have herrors := tally_errorActs k n errors
  cases sent <;> cases k <;>
    simp [pollActs, sendActs, herrors, SendAnswer.adds, SendAnswer.replies, Act.counts,
      Counted.holds]

/-- The acts of the first client. -/
theorem tally_startActs (k : Counted) (c : Connector) (a : ConnectAnswers) :
    tally k (startActs c a) =
      match k with
      | .newClient => 1
      | .connectDevice => if a.connected then 0 else 1
      | _ => 0 := by
  obtain ⟨aborted, connected, errors, connects, send⟩ := a
  have herrors := tally_errorActs k 0 errors
  cases connected <;> cases connects <;> cases k <;>
    simp_all [startActs, connectActs, parameters, Act.counts, Counted.holds]

theorem tally_start {c : Connector} {a : ConnectAnswers} {s : Session} (h : start c a = .ok s)
    (k : Counted) : tally k s.acts = tally k (startActs c a) + a.send.adds k := by
  obtain ⟨s₀, replies, made, rfl, -, -⟩ := start_eq h
  rw [tally_append, tally_pollActs]

/-- **One event.** -/
theorem tally_out {s : Session} {n : Nat} (h : s.mModbusClient = some n) (k : Counted)
    (e : PollEvent) : tally k (machine.out s e) = e.adds k := by
  cases e with
  | tick a o =>
      rw [out_tick h, tally_append, tally_pollActs, tally_publishActs]
      rfl
  | finished m r => cases k <;> rfl
  | error m => exact out_error h m ▸ tally_errorActs k n 1

/-! ## Runs -/

/-- **Runs.**  The count of a run is that of its events. -/
theorem tally_run {s : Session} {n : Nat} (h : s.mModbusClient = some n) (k : Counted)
    (events : List PollEvent) :
    tally k (machine.stateAfter s events).acts =
      tally k s.acts + (events.map (PollEvent.adds k)).sum := by
  rw [run_acts events h, tally_append]
  exact congrArg _ (Transducer.countP_outputs (P := fun s : Session => s.mModbusClient = some n)
    machine (fun _ e h => (machine_acts h e).2) (fun _ e h => tally_out h k e) events h)

/-- Every reply that was made has been deleted or waits. -/
def Balanced (s : Session) : Prop :=
  tally .newReply s.acts = tally .deleteReply s.acts + s.replies.length

theorem Balanced.start {c : Connector} {a : ConnectAnswers} {s : Session}
    (h : start c a = .ok s) : s.Balanced := by
  have hnew := tally_start h .newReply
  have hdelete := tally_start h .deleteReply
  have hadds := a.send.adds_newReply
  obtain ⟨s₀, replies, made, rfl, -, hlen⟩ := start_eq h
  simp only [tally_startActs] at hnew hdelete
  rw [Balanced, hnew, hdelete, hadds, hlen, Nat.add_assoc]

/-- **One event** keeps the balance. -/
theorem Balanced.next {s : Session} {n : Nat} (hn : s.mModbusClient = some n) (h : s.Balanced)
    {e : PollEvent} (he : HasObject s e) : (machine.next s e).Balanced := by
  have hnew := tally_out hn .newReply e
  have hdelete := tally_out hn .deleteReply e
  rw [Balanced, (machine_acts hn e).1, tally_append, tally_append, hnew, hdelete]
  rw [Balanced] at h
  cases e with
  | tick a o =>
      obtain ⟨replies, made, v, htick, hlen⟩ := ticked_eq hn a o
      have hnext : (machine.next s (.tick a o)).replies = replies := congrArg Session.replies htick
      have hadds := a.adds_newReply
      rw [hnext, hlen]
      simp only [PollEvent.adds]
      omega
  | finished k r =>
      have hmem : k ∈ s.replies := he
      have hnext : (machine.next s (.finished k r)).replies = s.replies.erase k := rfl
      have hpos := List.length_pos_of_mem hmem
      rw [hnext, List.length_erase_of_mem hmem]
      simp only [PollEvent.adds, reduceCtorEq, if_false, if_true]
      omega
  | error m =>
      have hnext : (machine.next s (.error m)).replies = s.replies := by
        simp [machine, hn, emit]
      rw [hnext, PollEvent.adds, PollEvent.adds, h]
      rfl

/-- What the module has got from a session that has sent `requests`. -/
structure ConnectsOnce (a : ConnectAnswers) (requests : List SendAnswer) (s : Session) :
    Prop where
  /-- One client is made, and it stays. -/
  newClient : tally .newClient s.acts = 1
  deleteClient : tally .deleteClient s.acts = 0
  /-- The connection is tried once if the new client has none, and it is not closed. -/
  connectDevice : tally .connectDevice s.acts = if a.connected then 0 else 1
  disconnectDevice : tally .disconnectDevice s.acts = 0
  /-- Each request is sent once, and has made a reply if it has not failed. -/
  sendReadRequest : tally .sendReadRequest s.acts = requests.length
  newReply : tally .newReply s.acts = requests.countP SendAnswer.replies
  /-- No reply is lost. -/
  deleteReply : tally .newReply s.acts = tally .deleteReply s.acts + s.replies.length

/-- **The program connects once.**  In every polling session. -/
theorem connects_once {c : Connector} {a : ConnectAnswers} {s s' : Session}
    (hs : start c a = .ok s) {events : List PollEvent}
    (h : Runs s (events.map PollEvent.slot) s') :
    ConnectsOnce a (a.send :: events.flatMap PollEvent.sends) s' := by
  have hclient := start_client hs
  obtain ⟨hlegal, rfl⟩ := (runs_iff events (start_owned hs)).mp h
  have hrun : ∀ k, tally k (machine.stateAfter s events).acts =
      tally k (startActs c a) + a.send.adds k + (events.map (PollEvent.adds k)).sum := fun k => by
    rw [tally_run hclient, tally_start hs]
  have hbalanced := hlegal.stateAfter_inv
    (P := fun s : Session => s.mModbusClient = some 0 ∧ s.Balanced)
    (fun s e hs he => ⟨(machine_acts hs.1 e).2, hs.2.next hs.1 he⟩) ⟨hclient, .start hs⟩
  have hstart : ∀ k, (∀ e, PollEvent.adds k e = 0) → a.send.adds k = 0 →
      tally k (machine.stateAfter s events).acts = tally k (startActs c a) := fun k he ha => by
    have hzero : (events.map (PollEvent.adds k)).sum = 0 :=
      List.sum_eq_zero (List.forall_mem_map.mpr fun e _ => he e)
    rw [hrun, ha, hzero, Nat.add_zero]
  refine ⟨?_, ?_, ?_, ?_, ?_, ?_, hbalanced.2⟩
  · rw [hstart _ (fun e => by cases e <;> rfl) rfl, tally_startActs]
  · rw [hstart _ (fun e => by cases e <;> rfl) rfl, tally_startActs]
  · rw [hstart _ (fun e => by cases e <;> rfl) rfl, tally_startActs]
  · rw [hstart _ (fun e => by cases e <;> rfl) rfl, tally_startActs]
  · have hsends : PollEvent.adds .sendReadRequest = fun e => e.sends.length := by
      funext e
      cases e <;> rfl
    rw [hrun, tally_startActs, hsends, List.length_cons, List.length_flatMap, Nat.add_comm]
    rfl
  · have hsends : PollEvent.adds .newReply = List.countP SendAnswer.replies ∘ PollEvent.sends := by
      funext e
      cases e <;> simp [PollEvent.adds, SendAnswer.adds, PollEvent.sends, List.countP_cons]
    rw [hrun, tally_startActs, hsends, List.countP_cons, List.countP_flatMap, Nat.add_comm]
    simp [SendAnswer.adds]

/-- The connection fails with errors, and the timer goes on: the second request gets a reply that
ends, and the third one waits. -/
theorem connects_once_error :
    ∃ s s', start (.new "--WORK".toList ⟨0, 0, 0⟩) ⟨[], false, 2, false, ⟨1, .failed⟩⟩ = .ok s ∧
      Runs s ([.error 0, .tick ⟨1, .pending⟩ fun _ => .ok, .finished 1 .otherError,
        .tick ⟨0, .pending⟩ fun _ => .error].map PollEvent.slot) s' ∧
      ConnectsOnce ⟨[], false, 2, false, ⟨1, .failed⟩⟩
        [⟨1, .failed⟩, ⟨1, .pending⟩, ⟨0, .pending⟩] s' := by
  have hs := (new (countSignals (.new "--WORK".toList ⟨0, 0, 0⟩))).connectOn_eq
    ⟨[], false, 2, false, ⟨1, .failed⟩⟩
  have hnext : (machine.next (machine.next ((new (countSignals (.new "--WORK".toList
      ⟨0, 0, 0⟩))).connected ⟨[], false, 2, false, ⟨1, .failed⟩⟩) (.error 0))
        (.tick ⟨1, .pending⟩ fun _ => .ok)).replies = [1] := by
    obtain ⟨v, hpublish⟩ := ((machine.next ((new (countSignals (.new "--WORK".toList
      ⟨0, 0, 0⟩))).connected ⟨[], false, 2, false, ⟨1, .failed⟩⟩) (.error 0)).polled
        ⟨1, .pending⟩).publish_eq fun _ => .ok
    exact congrArg Session.replies hpublish
  have hreply := hnext ▸ List.mem_singleton_self 1
  have hrun := (runs_iff [.error 0, .tick ⟨1, .pending⟩ fun _ => .ok, .finished 1 .otherError,
    .tick ⟨0, .pending⟩ fun _ => .error] (start_owned hs)).mpr
      ⟨⟨rfl, trivial, hreply, trivial, trivial⟩, rfl⟩
  exact ⟨_, _, hs, hrun, connects_once hs hrun⟩

end Session

end GateRasu
