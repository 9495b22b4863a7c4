import GateRasu.Gateway.Mirror
import GateRasu.Session.Objects

/-!
# The session and the gateway

A polling session does what the mirror does.  What is seen of its acts (`Act.view`) are the
requests, the replies and the puts.  An error of the client is not seen and stands for no
event.  The session refines the gateway (`session_simulates`), the gateway refines the mirror,
and `session_mirrors` chains the two from the start of the session on.  A run of slots is a run
of this machine (`runs_iff`).
-/

namespace GateRasu

open Lifecycle (Op)
open Attempts (halts)

/-! ## Polling -/

/-- What is seen of an act. -/
def Act.view : Act → List Obs
  | .op (.call (.client _) (.sendReadRequest (.holdingRegisters startAddress count) serverAdr)) =>
      [.request startAddress count serverAdr]
  | .op (.call (.reply _) (.error r)) => [.received r]
  | .op _ => []
  | .put v => [.put v]
  | .printLogs .readError => [.notSent]
  | .printLogs _ => []

/-- What happens to a polling session. -/
inductive PollEvent where
  | tick : SendAnswer → (Nat → PutRet) → PollEvent
  /-- The end of a reply. -/
  | finished : Nat → Reply → PollEvent
  /-- An error of a client. -/
  | error : Nat → PollEvent

namespace PollEvent

/-- The slot that is called. -/
def slot : PollEvent → Slot
  | tick a o => .emitTime a o
  | finished k r => .readReady (some k) r
  | error n => .errorOccurred n

/-- The event without the objects.  An error is none. -/
def event : PollEvent → List Event
  | tick a o => [.tick a.sent o]
  | finished _ r => [.reply r]
  | error _ => []

end PollEvent

namespace Session

/-- The acts of the request for the registers of the connector. -/
def pollActs (s : Session) (n : Nat) (a : SendAnswer) : List Act :=
  s.sendActs n (readRequest s.conn.mStartReg s.conn.mNumHoldRegs) a

/-- A session with its acts one event at a time. -/
def machine : Transducer Session PollEvent Act where
  next s
    | .tick a o => s.ticked a o
    | .finished k r => s.endReply k r
    | .error _ => s.mModbusClient.elim s fun n => s.emit (errorActs n 1)
  out s
    | .tick a o => s.mModbusClient.elim [] (s.pollActs · a) ++ publishActs o s.conn.puts
    | .finished k r => [.op (.call (.reply k) (.error r)), .op (.delete (.reply k))]
    | .error _ => s.mModbusClient.elim [] (errorActs · 1)

/-- The end of a reply needs the reply, and an error the client. -/
def HasObject (s : Session) : PollEvent → Prop
  | .tick _ _ => True
  | .finished k _ => k ∈ s.replies
  | .error n => s.mModbusClient = some n

/-- A request of the session. -/
theorem polled_eq {s : Session} {n : Nat} (h : s.mModbusClient = some n) (a : SendAnswer) :
    ∃ replies made, s.polled a = { s with made := made, replies := replies }.emit (s.pollActs n a) ∧
      replies.length = s.replies.length + a.sent.waits := by
  rw [polled, prepared_some h, requested, pollActs]
  obtain ⟨errors, sent⟩ := a
  cases sent with
  | failed => exact ⟨_, _, rfl, rfl⟩
  | pending =>
      refine ⟨_, _, rfl, ?_⟩
      rw [List.length_append]
      rfl
  | finished => exact ⟨_, _, rfl, rfl⟩

theorem ticked_eq {s : Session} {n : Nat} (h : s.mModbusClient = some n) (a : SendAnswer)
    (o : Nat → PutRet) : ∃ replies made v, s.ticked a o =
        { s with
          made := made
          replies := replies
          value := v
          acts := s.acts ++ machine.out s (.tick a o) } ∧
      replies.length = s.replies.length + a.sent.waits := by
  obtain ⟨replies, made, hread, hlen⟩ := polled_eq h a
  obtain ⟨v, hpublish⟩ := (s.polled a).publish_eq o
  refine ⟨replies, made, v, ?_, hlen⟩
  rw [ticked, hpublish, hread]
  simp [emit, machine, h]

theorem machine_acts {s : Session} {n : Nat} (h : s.mModbusClient = some n) (e : PollEvent) :
    (machine.next s e).acts = s.acts ++ machine.out s e ∧
      (machine.next s e).mModbusClient = some n := by
  cases e with
  | tick a o =>
      obtain ⟨replies, made, v, htick, -⟩ := ticked_eq h a o
      have hnext : machine.next s (.tick a o) = s.ticked a o := rfl
      rw [hnext, htick]
      exact ⟨rfl, h⟩
  | finished k r => exact ⟨rfl, h⟩
  | error m => simp [machine, h, emit]

/-- The acts of a run are what the machine emits. -/
theorem run_acts (events : List PollEvent) {s : Session} {n : Nat} (h : s.mModbusClient = some n) :
    (machine.stateAfter s events).acts = s.acts ++ machine.outputs s events := by
  induction events generalizing s with
  | nil => simp
  | cons e events ih =>
      obtain ⟨hacts, hclient⟩ := machine_acts h e
      rw [Transducer.stateAfter_cons, ih hclient, hacts, Transducer.outputs_cons, List.append_assoc]

/-- What can happen to a polling session is what its objects can do. -/
theorem possible_slot {s : Session} (hs : s.Owned) (e : PollEvent) :
    s.Possible e.slot ↔ HasObject s e := by
  cases e with
  | tick a o => exact Iff.rfl
  | finished k r =>
      refine ⟨And.right, fun hk => ⟨?_, hk⟩⟩
      exact hs.live ▸ Or.inr ⟨k, hk, rfl⟩
  | error n =>
      refine (Set.ext_iff.mp hs.live (.client n)).trans ?_
      simp [held, HasObject]

/-- A slot of a polling session is a step of the machine. -/
theorem step_slot {s : Session} {e : PollEvent} (h : HasObject s e) :
    s.step e.slot = .ok (machine.next s e) := by
  cases e with
  | tick a o => exact s.emitTime_eq a o
  | finished k r => exact readReady_eq s k r
  | error n =>
      have hn : s.mModbusClient = some n := h
      have hnext : machine.next s (.error n) = s.emit (errorActs n 1) := by
        simp [machine, hn]
      exact (errorOccurred_eq hn).trans (congrArg Except.ok hnext.symm)

/-- The runs of the slots are those of the machine. -/
theorem runs_iff (events : List PollEvent) {s s' : Session} (hs : s.Owned) :
    Runs s (events.map PollEvent.slot) s' ↔
      machine.Legal HasObject s events ∧ s' = machine.stateAfter s events := by
  induction events generalizing s with
  | nil =>
      constructor
      · intro h
        cases h
        exact ⟨trivial, rfl⟩
      · rintro ⟨-, rfl⟩
        exact .nil _
  | cons e events ih =>
      constructor
      · intro h
        cases h with
        | cons hx hstep hrest =>
            have hok := (possible_slot hs e).mp hx
            have howned := hs.step hx hstep
            cases (step_slot hok).symm.trans hstep
            obtain ⟨hlegal, hs'⟩ := (ih howned).mp hrest
            exact ⟨⟨hok, hlegal⟩, hs'⟩
      · rintro ⟨⟨hok, hlegal⟩, rfl⟩
        have hx := (possible_slot hs e).mpr hok
        exact .cons hx (step_slot hok) ((ih (hs.step hx (step_slot hok))).mpr ⟨hlegal, rfl⟩)

/-- A polling session and the gateway without its objects. -/
structure Shows (s : Session) (g : Gateway) : Prop where
  client : ∃ n, s.mModbusClient = some n
  conn : s.conn = g.conn
  polling : g.polling = true
  pending : s.replies.length = g.pending

/-- Nothing is seen of the errors of a client. -/
theorem view_errorActs (n k : Nat) : (errorActs n k).flatMap Act.view = [] := by
  induction k with
  | zero => rfl
  | succ k ih => exact ih

theorem view_pollActs (s : Session) (n : Nat) (a : SendAnswer) :
    (s.pollActs n a).flatMap Act.view = s.conn.setup.request a.sent := by
  obtain ⟨errors, sent⟩ := a
  cases sent <;>
    simp [pollActs, sendActs, view_errorActs, Act.view, readRequest, Setup.request, Connector.setup]

theorem view_putActs (o : Nat → PutRet) (n : Nat) (v : Value) :
    (putActs o n v).flatMap Act.view = [.put v] := by
  cases v <;> cases h : o n <;> simp [putActs, Value.message, Act.view, h]

theorem view_sentActs (o : Nat → PutRet) (vs : List Value) :
    (sentActs o vs).flatMap Act.view = vs.map Obs.put := by
  rw [sentActs, List.flatMap_assoc]
  simp only [view_putActs]
  conv_rhs => rw [← List.zipIdx_map_fst 0 vs, List.map_map]
  exact List.map_eq_flatMap.symm

/-- The puts are seen of a publication. -/
theorem view_publishActs (o : Nat → PutRet) (vs : List Value) :
    (publishActs o vs).flatMap Act.view = publishObs o vs := by
  have hend : (if halts (endsPlace o) 0 vs then [] else [Act.printLogs .ok]).flatMap Act.view =
      [] := by
    cases halts (endsPlace o) 0 vs <;> rfl
  rw [publishActs, List.flatMap_append, hend, List.append_nil, view_sentActs]
  rfl

/-- **The session refines the gateway.** -/
theorem session_simulates :
    Transducer.Simulates machine Gateway.machine PollEvent.event Act.view HasObject Shows where
  out := by
    intro s g e h hok
    obtain ⟨n, hn⟩ := h.client
    cases e with
    | tick a o =>
        have hout : Gateway.machine.out g (.tick a.sent o) =
            g.conn.setup.request a.sent ++ publishObs o g.conn.puts := if_pos h.polling
        have hacts : machine.out s (.tick a o) = s.pollActs n a ++ publishActs o s.conn.puts := by
          simp [machine, hn]
        rw [PollEvent.event, hacts, List.flatMap_append, view_pollActs, view_publishActs, h.conn,
          Transducer.outputs_cons, hout, Transducer.outputs_nil, List.append_nil]
    | finished k r =>
        have hpending : 0 < g.pending := h.pending ▸ List.length_pos_of_mem hok
        have hout : Gateway.machine.out g (.reply r) = [.received r] :=
          if_pos ⟨h.polling, hpending⟩
        rw [PollEvent.event, Transducer.outputs_cons, hout]
        rfl
    | error m =>
        have hacts : machine.out s (.error m) = errorActs n 1 := by
          simp [machine, hn]
        rw [hacts, view_errorActs]
        rfl
  next := by
    intro s g e h hok
    obtain ⟨n, hn⟩ := h.client
    cases e with
    | tick a o =>
        obtain ⟨replies, made, v, htick, hlen⟩ := ticked_eq hn a o
        obtain ⟨w, hgtick⟩ := g.emitTime_eq a.sent o
        have hnext : machine.next s (.tick a o) = s.ticked a o := rfl
        have hgnext : Gateway.machine.next g (.tick a.sent o) = g.emitTime a.sent o :=
          if_pos h.polling
        rw [PollEvent.event, Transducer.stateAfter_cons, hnext, hgnext, htick, hgtick]
        exact ⟨⟨n, hn⟩, h.conn, h.polling, hlen.trans (congrArg (· + a.sent.waits) h.pending)⟩
    | finished k r =>
        have hmem : k ∈ s.replies := hok
        have hpending : 0 < g.pending := h.pending ▸ List.length_pos_of_mem hmem
        have hgnext : Gateway.machine.next g (.reply r) = _ := if_pos ⟨h.polling, hpending⟩
        rw [PollEvent.event, Transducer.stateAfter_cons, hgnext]
        refine ⟨h.client, congrArg (Connector.afterReply · r) h.conn, h.polling, ?_⟩
        exact (List.length_erase_of_mem hmem).trans (congrArg (· - 1) h.pending)
    | error m =>
        have hnext : machine.next s (.error m) = s.emit (errorActs n 1) := by
          simp [machine, hn]
        rw [hnext]
        exact ⟨⟨n, hn⟩, h.conn, h.polling, h.pending⟩

/-! ## The start -/

/-- The session that polls with a loaded connector, when `Init` has called `connectOn`. -/
def start (c : Connector) (a : ConnectAnswers) : Except Fault Session :=
  (new (countSignals c)).connectOn a

/-- The acts of the first client. -/
def startActs (c : Connector) (a : ConnectAnswers) : List Act :=
  .op (.new (.client 0)) ::
    ((parameters c).map (fun k => Act.op (.call (.client 0) k)) ++ connectActs 0 a)

theorem start_eq {c : Connector} {a : ConnectAnswers} {s : Session} (h : start c a = .ok s) :
    ∃ s₀ replies made, s = ⟨countSignals c, some 0, replies, made, .noType,
        startActs c a ++ pollActs s₀ 0 a.send⟩ ∧ s₀.conn = countSignals c ∧
      replies.length = a.send.sent.waits := by
  have hclient : ((new (countSignals c)).connectClient a).mModbusClient = some 0 := rfl
  obtain ⟨replies, made, hread, hlen⟩ := polled_eq hclient a.send
  refine ⟨(new (countSignals c)).connectClient a, replies, made, ?_, rfl,
    hlen.trans (Nat.zero_add _)⟩
  cases ((new (countSignals c)).connectOn_eq a).symm.trans h
  exact hread

theorem view_connectActs (n : Nat) (a : ConnectAnswers) :
    (connectActs n a).flatMap Act.view = [] := by
  obtain ⟨aborted, connected, errors, connects, send⟩ := a
  cases connected <;> cases connects <;> simp [connectActs, view_errorActs, Act.view]

/-- Nothing is seen of a new client. -/
theorem view_startActs (c : Connector) (a : ConnectAnswers) :
    (startActs c a).flatMap Act.view = [] := by
  rw [startActs, List.flatMap_cons, List.flatMap_append, view_connectActs]
  rfl

section

variable {c : Connector} {a : ConnectAnswers} {s : Session}

theorem start_client (h : start c a = .ok s) : s.mModbusClient = some 0 := by
  obtain ⟨s₀, replies, made, rfl, -, -⟩ := start_eq h
  rfl

theorem start_owned (h : start c a = .ok s) : s.Owned := by
  cases ((new (countSignals c)).connectOn_eq a).symm.trans h
  exact (owned_new _).connected a

/-- All that is seen of the start is its request. -/
theorem view_start (h : start c a = .ok s) :
    s.acts.flatMap Act.view = c.setup.request a.send.sent := by
  obtain ⟨s₀, replies, made, rfl, hconn, -⟩ := start_eq h
  rw [List.flatMap_append, view_startActs, List.nil_append, view_pollActs, hconn]
  rfl

/-- From the start on, the session simulates the gateway, and that matches the mirror. -/
theorem start_outputs {env : Env} {params : QString} {u : Uninit} {lines : List QString}
    (hc : readLines env (.new params u) lines = .ok c) (h : start c a = .ok s)
    {events : List PollEvent} (hevents : machine.Legal HasObject s events) :
    (machine.outputs s events).flatMap Act.view =
      (mirror c.setup).outputs ⟨[], a.send.sent.waits⟩ (events.flatMap PollEvent.event) := by
  obtain ⟨s₀, replies, made, rfl, -, hlen⟩ := start_eq h
  have hfresh := (readLines_fresh hc).countSignals
  have hshows : Shows ⟨countSignals c, some 0, replies, made, .noType,
      startActs c a ++ pollActs s₀ 0 a.send⟩ (c.polling a.send.sent) :=
    ⟨⟨0, rfl⟩, rfl, rfl, hlen⟩
  have hmirrors : Mirrors (countSignals c) (c.polling a.send.sent) ⟨[], a.send.sent.waits⟩ :=
    ⟨rfl, rfl, rfl⟩
  have hrun := (session_simulates.comp (machine_matches hfresh) fun _ _ _ _ _ =>
    Transducer.legal_of_forall _ (fun _ _ => trivial) _).outputs_eq events hevents
      ⟨_, hshows, hmirrors⟩
  simp only [List.flatMap_singleton'] at hrun
  exact hrun

end

/-- **The session mirrors its replies.**  What is seen of a polling session, whatever becomes of
its connection, is what the mirror emits. -/
theorem session_mirrors {env : Env} {params : QString} {u : Uninit} {lines : List QString}
    {c : Connector} (hc : readLines env (.new params u) lines = .ok c) {a : ConnectAnswers}
    {s s' : Session} (hs : start c a = .ok s) {events : List PollEvent}
    (h : Runs s (events.map PollEvent.slot) s') :
    s'.acts.flatMap Act.view = c.setup.request a.send.sent ++
      (mirror c.setup).outputs ⟨[], a.send.sent.waits⟩ (events.flatMap PollEvent.event) := by
  obtain ⟨hevents, rfl⟩ := (runs_iff events (start_owned hs)).mp h
  rw [run_acts events (start_client hs), List.flatMap_append, view_start hs,
    start_outputs hc hs hevents]

/-- The device does not answer the connection, and then the second request ends before the first,
with an error of the client between them. -/
theorem session_mirrors_order :
    ∃ c s s', readLines ⟨fun _ => 0, fun _ => ⟨0, 0, 0, 0⟩⟩ (.new "--WORK".toList ⟨0, 0, 0⟩)
        ["analog".toList, "Signal1=Level,5199,5259,1".toList] = .ok c ∧
      start c ⟨[], false, 1, false, ⟨0, .pending⟩⟩ = .ok s ∧
      Runs s ([.tick ⟨0, .pending⟩ fun _ => .ok, .finished 2 (.noError [7, 8]), .error 0,
        .finished 1 .otherError, .tick ⟨1, .failed⟩ fun _ => .ok].map PollEvent.slot) s' ∧
      s'.acts.flatMap Act.view = c.setup.request .pending ++ (mirror c.setup).outputs ⟨[], 1⟩
        [.tick .pending fun _ => .ok, .reply (.noError [7, 8]), .reply .otherError,
          .tick .failed fun _ => .ok] := by
  obtain ⟨c, hc⟩ : ∃ c, readLines ⟨fun _ => 0, fun _ => ⟨0, 0, 0, 0⟩⟩
      (.new "--WORK".toList ⟨0, 0, 0⟩) ["analog".toList, "Signal1=Level,5199,5259,1".toList] =
        .ok c := ⟨_, rfl⟩
  have hs := (new (countSignals c)).connectOn_eq ⟨[], false, 1, false, ⟨0, .pending⟩⟩
  obtain ⟨replies, made, v, htick, hreplies⟩ : ∃ replies made v,
      ((new (countSignals c)).connected ⟨[], false, 1, false, ⟨0, .pending⟩⟩).ticked ⟨0, .pending⟩
          (fun _ => .ok) = ⟨countSignals c, some 0, replies, made, v, _⟩ ∧ replies = [1, 2] := by
    obtain ⟨v, hpublish⟩ := (((new (countSignals c)).connected
      ⟨[], false, 1, false, ⟨0, .pending⟩⟩).polled ⟨0, .pending⟩).publish_eq fun _ => .ok
    exact ⟨_, _, v, hpublish, rfl⟩
  have hrun := (runs_iff [.tick ⟨0, .pending⟩ fun _ => .ok, .finished 2 (.noError [7, 8]), .error 0,
    .finished 1 .otherError, .tick ⟨1, .failed⟩ fun _ => .ok] (start_owned hs)).mpr ⟨?_, rfl⟩
  · exact ⟨c, _, _, hc, hs, hrun, session_mirrors hc hs hrun⟩
  · have hnext : machine.next ((new (countSignals c)).connected
        ⟨[], false, 1, false, ⟨0, .pending⟩⟩) (.tick ⟨0, .pending⟩ fun _ => .ok) = _ := htick
    have hsecond : 2 ∈ [1, 2] := by decide
    have hfirst : 1 ∈ [1, 2].erase 2 := by decide
    refine ⟨trivial, ?_⟩
    rw [hnext, hreplies]
    exact ⟨hsecond, rfl, hfirst, trivial, trivial⟩

end Session

end GateRasu
