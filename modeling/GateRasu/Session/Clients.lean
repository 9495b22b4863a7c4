import GateRasu.Session.Objects

/-!
# The clients of a session

A client is configured before it is used.  Whatever the order of the slots, the first calls
to a client are its four parameters, they are those of the connector, and no later call
sets one again.  So a request goes through a client that has them (`request_configured`).
-/

namespace GateRasu

open Lifecycle (Op)

/-- The parameters of a connection. -/
def QCall.isParameter : QCall → Bool
  | setNetworkPort _ => true
  | setNetworkAddress _ => true
  | setTimeout _ => true
  | setNumberOfRetries _ => true
  | state => false
  | connectDevice => false
  | errorString => false
  | sendReadRequest _ _ => false
  | disconnectDevice => false
  | isFinished => false
  | error _ => false

namespace Session

/-! ## Parameters -/

/-- The calls to an object. -/
def callsOf (x : QObject) (as : List Act) : List QCall :=
  as.filterMap fun
    | .op (.call y k) => if y = x then some k else none
    | .op (.new _) => none
    | .op (.delete _) => none
    | .put _ => none
    | .printLogs _ => none

@[simp] theorem callsOf_nil (x : QObject) : callsOf x [] = [] := rfl

@[simp] theorem callsOf_call (x y : QObject) (k : QCall) (as : List Act) :
    callsOf x (.op (.call y k) :: as) = if y = x then k :: callsOf x as else callsOf x as := by
  rw [callsOf, List.filterMap_cons]
  by_cases h : y = x <;> simp [h, callsOf]

@[simp] theorem callsOf_new (x y : QObject) (as : List Act) :
    callsOf x (.op (.new y) :: as) = callsOf x as := rfl

@[simp] theorem callsOf_delete (x y : QObject) (as : List Act) :
    callsOf x (.op (.delete y) :: as) = callsOf x as := rfl

@[simp] theorem callsOf_printLogs (x : QObject) (m : Message) (as : List Act) :
    callsOf x (.printLogs m :: as) = callsOf x as := rfl

@[simp] theorem callsOf_append (x : QObject) (as as' : List Act) :
    callsOf x (as ++ as') = callsOf x as ++ callsOf x as' := List.filterMap_append

@[simp] theorem callsOf_publishActs (x : QObject) (o : Nat → PutRet) (vs : List Value) :
    callsOf x (publishActs o vs) = [] := by
  refine List.filterMap_eq_nil_iff.mpr fun y hy => ?_
  rcases eq_put_or_printLogs hy with ⟨v, rfl⟩ | ⟨m, rfl⟩ <;> rfl

/-- The calls to an object are among the operations. -/
theorem callsOf_eq (x : QObject) (as : List Act) : callsOf x as = (opsOf as).filterMap fun
    | .call y k => if y = x then some k else none
    | .new _ => none
    | .delete _ => none := by
  rw [callsOf, opsOf, List.filterMap_filterMap]
  congr 1
  funext a
  cases a with
  | op o => cases o <;> rfl
  | put v => rfl
  | printLogs m => rfl

section

variable {x : QObject} {as : List Act} {ks : List QCall}

theorem callsOf_of_calls (h : opsOf as = ks.map (Op.call x)) : callsOf x as = ks := by
  rw [callsOf_eq, h, List.filterMap_map]
  simp

theorem callsOf_of_other {y : QObject} (h : opsOf as = ks.map (Op.call y)) (hy : y ≠ x) :
    callsOf x as = [] := by
  rw [callsOf_eq, h, List.filterMap_map]
  simp [hy]

end

/-- The calls to a client are its parameters, once, and then others. -/
def HasParameters (c : Connector) (n : Nat) (as : List Act) : Prop :=
  ∃ ks, callsOf (.client n) as = parameters c ++ ks ∧ ∀ k ∈ ks, k.isParameter = false

/-- The clients of a session have the parameters of the connector `c`. -/
structure Configured (c : Connector) (s : Session) : Prop where
  conn : parameters s.conn = parameters c
  client : ∀ n, s.mModbusClient = some n → HasParameters c n s.acts
  calls : ∀ n, callsOf (.client n) s.acts = [] ∨ HasParameters c n s.acts
  made : ∀ n, s.made ≤ n → callsOf (.client n) s.acts = []

theorem configured_new (c : Connector) : Configured c (new c) where
  conn := rfl
  client n h := by cases h
  calls _ := Or.inl rfl
  made _ _ := rfl

theorem HasParameters.append {c : Connector} {n : Nat} {as as' : List Act}
    (h : HasParameters c n as) (has' : ∀ k ∈ callsOf (.client n) as', k.isParameter = false) :
    HasParameters c n (as ++ as') := by
  obtain ⟨ks, hks, hother⟩ := h
  refine ⟨ks ++ callsOf (.client n) as', ?_, fun k hk => ?_⟩
  · rw [callsOf_append, hks, List.append_assoc]
  · rcases List.mem_append.mp hk with hk | hk
    · exact hother k hk
    · exact has' k hk

/-- Acts that call no client but that of the pointer, and set no parameter. -/
theorem Configured.append {c : Connector} {s s' : Session} (h : Configured c s) {as : List Act}
    (hacts : s'.acts = s.acts ++ as)
    (has : ∀ n, ∀ k ∈ callsOf (.client n) as, k.isParameter = false ∧ s.mModbusClient = some n)
    (hclient : ∀ n, s'.mModbusClient = some n → s.mModbusClient = some n)
    (hmade : s.made ≤ s'.made) (hlt : ∀ n, s.mModbusClient = some n → n < s.made)
    (hconn : parameters s'.conn = parameters s.conn) : Configured c s' := by
  have hgrow : ∀ n, HasParameters c n s.acts → HasParameters c n s'.acts := fun n hn =>
    hacts ▸ hn.append fun k hk => (has n k hk).1
  refine ⟨hconn.trans h.conn, fun n hn => hgrow n (h.client n (hclient n hn)), fun n => ?_,
    fun n hn => ?_⟩
  · rcases h.calls n with hnil | hparams
    · cases has' : callsOf (.client n) as with
      | nil => exact Or.inl (by rw [hacts, callsOf_append, hnil, has', List.append_nil])
      | cons k ks =>
          have hk := has n k (has' ▸ List.mem_cons_self ..)
          exact Or.inr (hgrow n (h.client n hk.2))
    · exact Or.inr (hgrow n hparams)
  · have hnil := h.made n (hmade.trans hn)
    cases has' : callsOf (.client n) as with
    | nil => rw [hacts, callsOf_append, hnil, has', List.append_nil]
    | cons k ks =>
        have hk := hlt n (has n k (has' ▸ List.mem_cons_self ..)).2
        omega

/-- The pointer is to an object that was made. -/
theorem Owned.client_lt {s : Session} (h : s.Owned) (n : Nat) (hn : s.mModbusClient = some n) :
    n < s.made :=
  h.made (.client n) (Or.inl (h.live ▸ Or.inl ⟨n, hn, rfl⟩))

/-- Calls to the client of the pointer that set no parameter. -/
theorem Configured.ownCalls {c : Connector} {s s' : Session} (h : Configured c s) (howned : s.Owned)
    {n : Nat} (hn : s.mModbusClient = some n) {as : List Act} (hacts : s'.acts = s.acts ++ as)
    (hself : ∀ k ∈ callsOf (.client n) as, k.isParameter = false)
    (hother : ∀ m, n ≠ m → callsOf (.client m) as = [])
    (hclient : ∀ m, s'.mModbusClient = some m → s.mModbusClient = some m)
    (hmade : s.made ≤ s'.made) (hconn : s'.conn = s.conn) : Configured c s' := by
  refine h.append hacts (fun m k hk => ?_) hclient hmade howned.client_lt
    (congrArg parameters hconn)
  by_cases hm : n = m
  · subst hm
    exact ⟨hself k hk, hn⟩
  · rw [hother m hm] at hk
    cases hk

theorem Configured.prepared {c : Connector} {s : Session} (h : Configured c s)
    (howned : s.Owned) (unit : QModbusDataUnit) (a : SendAnswer) :
    Configured c (s.prepared unit a) := by
  cases hn : s.mModbusClient with
  | none =>
      rw [Session.prepared, hn]
      exact h
  | some n =>
      rw [prepared_some hn]
      obtain ⟨errors, sent⟩ := a
      have herrors := callsOf_of_calls (opsOf_errorActs n errors)
      have hself : ∀ k ∈ callsOf (.client n) (s.sendActs n unit ⟨errors, sent⟩),
          k.isParameter = false := by
        cases sent <;> simp +contextual [sendActs, herrors, QCall.isParameter, or_imp]
      have hother : ∀ m, n ≠ m → callsOf (.client m) (s.sendActs n unit ⟨errors, sent⟩) = [] := by
        intro m hm
        have hne : QObject.client n ≠ .client m := fun heq => hm (QObject.client.inj heq)
        have hnone := callsOf_of_other (opsOf_errorActs n errors) hne
        cases sent <;> simp [sendActs, hm, hnone]
      have hacts := s.requested_acts n unit ⟨errors, sent⟩
      cases sent with
      | failed => exact h.ownCalls howned hn hacts hself hother (fun _ hm => hm) le_rfl rfl
      | pending | finished =>
          exact h.ownCalls howned hn hacts hself hother (fun _ hm => hm) (Nat.le_succ _) rfl

theorem parameters_afterReply (c : Connector) (r : Reply) :
    parameters (c.afterReply r) = parameters c := by
  cases r <;> rfl

/-- The end of a reply calls no client. -/
theorem Configured.endReply {c : Connector} {s : Session} (h : Configured c s) (howned : s.Owned)
    (k : Nat) (r : Reply) : Configured c (s.endReply k r) := by
  refine h.append rfl (fun n k' hk => ?_) (fun _ hn => hn) le_rfl howned.client_lt
    (parameters_afterReply s.conn r)
  simp at hk

theorem Configured.dropped {c : Connector} {s : Session} (h : Configured c s)
    (howned : s.Owned) (aborted : List (Nat × Reply)) : Configured c (s.dropped aborted) := by
  cases hn : s.mModbusClient with
  | none =>
      rw [Session.dropped, hn]
      exact h
  | some n =>
      have hcall : Configured c (s.call (.client n) .disconnectDevice) := by
        refine h.ownCalls howned hn rfl ?_ (fun m hm => ?_) (fun _ hm => hm) le_rfl rfl
        · simp [QCall.isParameter]
        · simp [hm]
      have howned' : (s.call (.client n) .disconnectDevice).Owned :=
        howned.calls hn [.disconnectDevice] rfl rfl rfl rfl rfl
      obtain ⟨hends, hends'⟩ := endReplies_inv (P := fun s => Configured c s ∧ s.Owned)
        (fun _ k r hk hs => ⟨hs.1.endReply hs.2 k r, hs.2.endReply hk r⟩) aborted
        ⟨hcall, howned'⟩
      rw [Session.dropped, hn]
      refine hends.append rfl (fun m k hk => ?_) (fun _ hm => by cases hm) le_rfl
        hends'.client_lt rfl
      simp at hk

theorem connectCalls_isParameter (a : ConnectAnswers) :
    ∀ k ∈ connectCalls a, k.isParameter = false := by
  obtain ⟨aborted, connected, errors, connects, send⟩ := a
  cases connected <;> cases connects <;> simp +contextual [connectCalls, QCall.isParameter, or_imp]

/-- The client that `connectOn` makes gets its parameters first. -/
theorem Configured.connectClient {c : Connector} {s : Session} (h : Configured c s)
    (a : ConnectAnswers) : Configured c (s.connectClient a) := by
  have hops : opsOf ((parameters s.conn).map (fun k => Act.op (.call (.client s.made) k)) ++
      connectActs s.made a) = (parameters s.conn ++ connectCalls a).map
        (Op.call (.client s.made)) := by
    rw [opsOf_append, opsOf_calls, opsOf_connectActs, List.map_append]
  have hself : HasParameters c s.made (s.connectClient a).acts := by
    refine ⟨connectCalls a, ?_, connectCalls_isParameter a⟩
    rw [Session.connectClient, emit, callsOf_append, h.made s.made le_rfl, callsOf_new,
      callsOf_of_calls hops, h.conn, List.nil_append]
  have hother : ∀ n, n ≠ s.made →
      callsOf (.client n) (s.connectClient a).acts = callsOf (.client n) s.acts := by
    intro n hn
    have hne : QObject.client s.made ≠ .client n := fun heq => hn (QObject.client.inj heq).symm
    rw [Session.connectClient, emit, callsOf_append, callsOf_new, callsOf_of_other hops hne,
      List.append_nil]
  refine ⟨h.conn, fun n hn => ?_, fun n => ?_, fun n hn => ?_⟩
  · cases hn
    exact hself
  · by_cases hn : n = s.made
    · exact Or.inr (hn ▸ hself)
    · rw [HasParameters, hother n hn]
      exact h.calls n
  · have hn : s.made + 1 ≤ n := hn
    rw [hother n (by omega)]
    exact h.made n (by omega)

/-- **One slot.** -/
theorem Configured.step {c : Connector} {s s' : Session} (h : Configured c s) (howned : s.Owned)
    {x : Slot} (hstep : s.step x = .ok s') : Configured c s' := by
  cases step_cases hstep with
  | connectOn a =>
      have hdrop := howned.dropped a.aborted
      have hclient := hdrop.connectClient (dropped_client s a.aborted) a
      exact ((h.dropped howned a.aborted).connectClient a).prepared hclient _ _
  | prepareRead startAddress count a => exact h.prepared howned _ a
  | emitTime a o =>
      have hconf : Configured c (s.polled a) := h.prepared howned _ a
      have howned' : (s.polled a).Owned := howned.prepared _ a
      obtain ⟨v, hpublish⟩ := (s.polled a).publish_eq o
      rw [Session.ticked, hpublish]
      refine hconf.append rfl (fun n k hk => ?_) (fun _ hn => hn) le_rfl howned'.client_lt rfl
      rw [callsOf_publishActs] at hk
      cases hk
  | noSender r => exact h
  | readReady k r => exact h.endReply howned k r
  | errorOccurred m hm =>
      refine h.ownCalls howned hm rfl ?_ (fun n hn => ?_) (fun _ hn => hn) le_rfl rfl
      · simp [QCall.isParameter]
      · simp [hn]

theorem Configured.run {c : Connector} {s s' : Session} (h : Configured c s) (howned : s.Owned)
    {xs : List Slot} (hrun : Runs s xs s') : Configured c s' :=
  (hrun.inv (P := fun s => Configured c s ∧ s.Owned)
    (fun _ _ _ hs hx hstep => ⟨hs.1.step hs.2 hstep, hs.2.step hx hstep⟩) ⟨h, howned⟩).1

/-- Before a request, the client of it has its parameters. -/
theorem Configured.request {c : Connector} {s : Session} (h : Configured c s)
    {pre post : List Act} {n : Nat} {unit : QModbusDataUnit} {serverAdr : BitVec 16}
    (hacts : s.acts = pre ++ .op (.call (.client n) (.sendReadRequest unit serverAdr)) :: post) :
    HasParameters c n pre := by
  have hcalls : callsOf (.client n) s.acts = callsOf (.client n) pre ++
      .sendReadRequest unit serverAdr :: callsOf (.client n) post := by
    rw [hacts, callsOf_append, callsOf_call, if_pos rfl]
  rcases h.calls n with hnil | ⟨ks, hks, hother⟩
  · rw [hnil] at hcalls
    simp at hcalls
  · rw [hks] at hcalls
    rcases List.append_eq_append_iff.mp hcalls with ⟨ks', hpre, hrest⟩ | ⟨ks', hparams, hrest⟩
    · refine ⟨ks', hpre, fun k hk => hother k ?_⟩
      rw [hrest]
      exact List.mem_append_left _ hk
    · cases ks' with
      | nil => exact ⟨[], by simp [hparams], by simp⟩
      | cons k ks' =>
          obtain ⟨rfl, -⟩ := List.cons.inj hrest
          have hmem : QCall.sendReadRequest unit serverAdr ∈ parameters c :=
            hparams ▸ List.mem_append_right _ (List.mem_cons_self ..)
          simp [parameters] at hmem

/-- **Requests go through configured clients.**  In any run, before a request the client of it has
got the parameters of the connector, and no other. -/
theorem request_configured {c : Connector} {xs : List Slot} {s : Session} (h : Runs (new c) xs s)
    {pre post : List Act} {n : Nat} {unit : QModbusDataUnit} {serverAdr : BitVec 16}
    (hacts : s.acts = pre ++ .op (.call (.client n) (.sendReadRequest unit serverAdr)) :: post) :
    HasParameters c n pre := ((configured_new c).run (owned_new c) h).request hacts

/-- The request of the second of two clients, which is not sent. -/
theorem request_configured_reconnect : ∃ s, Runs (new (.new "--WORK".toList ⟨0, 0, 0⟩))
      [.connectOn ⟨[], true, 0, true, ⟨1, .failed⟩⟩,
        .connectOn ⟨[], true, 0, true, ⟨1, .failed⟩⟩] s ∧
    ∃ pre, s.acts = pre ++ [.op (.call (.client 1) (.sendReadRequest (readRequest 5199 66) 1)),
        .op (.call (.client 1) .errorString), .printLogs .errorOccurred,
        .op (.call (.client 1) .errorString), .printLogs .readError] ∧
      HasParameters (.new "--WORK".toList ⟨0, 0, 0⟩) 1 pre := by
  obtain ⟨s, hrun, hacts⟩ : ∃ s, Runs (new (.new "--WORK".toList ⟨0, 0, 0⟩))
      [.connectOn ⟨[], true, 0, true, ⟨1, .failed⟩⟩,
        .connectOn ⟨[], true, 0, true, ⟨1, .failed⟩⟩] s ∧
      s.acts = s.acts.take 19 ++
        .op (.call (.client 1) (.sendReadRequest (readRequest 5199 66) 1)) ::
          [.op (.call (.client 1) .errorString), .printLogs .errorOccurred,
            .op (.call (.client 1) .errorString), .printLogs .readError] :=
    ⟨_, .cons trivial rfl (.cons trivial rfl (.nil _)), rfl⟩
  exact ⟨s, hrun, _, hacts, request_configured hrun hacts⟩

end Session

end GateRasu
