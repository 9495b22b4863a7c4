import GateRasu.Session.Steps

/-!
# The objects of a session

A session makes and deletes its objects in order, however its slots are called.  The
invariant is `Owned`: the objects that are there are the client of the pointer and the
replies that are connected, and none is made twice.

`session_safe` draws the conclusions.  No slot follows a null pointer, no operation is on
an object that is deleted or not made yet, and what is left after the destructor is the
replies whose end has not come.
-/

namespace GateRasu

open Lifecycle (Op Heap Safe Leads Life)

namespace Session

/-! ## Acts -/

@[simp] theorem opsOf_nil : opsOf [] = [] := rfl

@[simp] theorem opsOf_append (as as' : List Act) : opsOf (as ++ as') = opsOf as ++ opsOf as' :=
  List.filterMap_append

@[simp] theorem opsOf_publishActs (o : Nat → PutRet) (vs : List Value) :
    opsOf (publishActs o vs) = [] := by
  refine List.filterMap_eq_nil_iff.mpr fun x hx => ?_
  rcases eq_put_or_printLogs hx with ⟨v, rfl⟩ | ⟨m, rfl⟩ <;> rfl

@[simp] theorem opsOf_op (x : Op QObject QCall) (as : List Act) :
    opsOf (.op x :: as) = x :: opsOf as := rfl

@[simp] theorem opsOf_printLogs (m : Message) (as : List Act) :
    opsOf (.printLogs m :: as) = opsOf as := rfl

@[simp] theorem opsOf_errorActs (n k : Nat) :
    opsOf (errorActs n k) = (List.replicate k QCall.errorString).map (Op.call (.client n)) := by
  induction k with
  | zero => rfl
  | succ k ih => simp [errorActs, ih, List.replicate_succ]

@[simp] theorem opsOf_calls (x : QObject) (ks : List QCall) :
    opsOf (ks.map fun k => Act.op (.call x k)) = ks.map (Op.call x) := by
  induction ks with
  | nil => rfl
  | cons k ks ih => exact congrArg (Op.call x k :: ·) ih

/-- The calls of a connection. -/
def connectCalls (a : ConnectAnswers) : List QCall :=
  .state :: if a.connected then []
    else .connectDevice :: (List.replicate a.errors .errorString ++
      if a.connects then [.state] else [.errorString])

theorem opsOf_connectActs (n : Nat) (a : ConnectAnswers) :
    opsOf (connectActs n a) = (connectCalls a).map (Op.call (.client n)) := by
  obtain ⟨aborted, connected, errors, connects, send⟩ := a
  cases connected <;> cases connects <;> simp [connectActs, connectCalls]

/-- The calls of a request before the reply. -/
def sendCalls (s : Session) (unit : QModbusDataUnit) (a : SendAnswer) : List QCall :=
  .sendReadRequest unit s.conn.mServerAdr :: List.replicate a.errors .errorString

theorem heap_of_acts {s s' : Session} {as : List Act} (h : s'.acts = s.acts ++ as) :
    s'.heap = s.heap.afterAll (opsOf as) := by
  rw [heap, h, opsOf_append, Heap.afterAll_append]
  rfl

/-! ## The invariant -/

/-- The number of an object. -/
def number : QObject → Nat
  | .client n => n
  | .reply k => k

/-- The objects that a session has pointers to. -/
def held (s : Session) : Set QObject :=
  {x | (∃ n, s.mModbusClient = some n ∧ x = .client n) ∨ ∃ k ∈ s.replies, x = .reply k}

/-- A session has pointers to the objects that are there, and to no others. -/
structure Owned (s : Session) : Prop where
  safe : Safe Heap.empty (opsOf s.acts)
  live : s.heap.live = s.held
  made : ∀ x, x ∈ s.heap.live ∨ x ∈ s.heap.dead → number x < s.made
  nodup : s.replies.Nodup

theorem owned_new (c : Connector) : (new c).Owned where
  safe := trivial
  live := by simp [heap, held, new, opsOf, Heap.empty]
  made := by
    rintro x (h | h) <;> cases h
  nodup := List.nodup_nil

/-- Acts that lead to another heap. -/
theorem Owned.acts {s s' : Session} (h : s.Owned) {as : List Act} {heap' : Heap QObject}
    (hacts : s'.acts = s.acts ++ as) (hleads : Leads s.heap (opsOf as) heap')
    (hlive : heap'.live = s'.held)
    (hmade : ∀ x, x ∈ heap'.live ∨ x ∈ heap'.dead → number x < s'.made)
    (hnodup : s'.replies.Nodup) : s'.Owned := by
  have hheap : s'.heap = heap' := (heap_of_acts hacts).trans hleads.heap
  refine ⟨?_, hheap ▸ hlive, fun x hx => hmade x (hheap ▸ hx), hnodup⟩
  rw [hacts, opsOf_append]
  exact Lifecycle.safe_append.mpr ⟨h.safe, hleads.safe⟩

/-- Acts without an operation. -/
theorem Owned.quiet {s s' : Session} (h : s.Owned) {as : List Act} (hacts : s'.acts = s.acts ++ as)
    (hops : opsOf as = []) (hclient : s'.mModbusClient = s.mModbusClient)
    (hreplies : s'.replies = s.replies) (hmade : s'.made = s.made) : s'.Owned := by
  have hheld : s'.held = s.held := by rw [held, hclient, hreplies, held]
  refine h.acts hacts (hops ▸ Leads.nil s.heap) (h.live.trans hheld.symm) ?_ (hreplies ▸ h.nodup)
  rw [hmade]
  exact h.made

/-- Calls to the client. -/
theorem Owned.calls {s s' : Session} (h : s.Owned) {n : Nat} (hn : s.mModbusClient = some n)
    {as : List Act} (ks : List QCall) (hacts : s'.acts = s.acts ++ as)
    (hops : opsOf as = ks.map (Op.call (.client n))) (hclient : s'.mModbusClient = s.mModbusClient)
    (hreplies : s'.replies = s.replies) (hmade : s'.made = s.made) : s'.Owned := by
  have hheld : s'.held = s.held := by rw [held, hclient, hreplies, held]
  have hlive : QObject.client n ∈ s.heap.live := h.live ▸ Or.inl ⟨n, hn, rfl⟩
  refine h.acts hacts (hops ▸ Leads.calls hlive ks) (h.live.trans hheld.symm) ?_
    (hreplies ▸ h.nodup)
  rw [hmade]
  exact h.made

theorem Owned.not_made {s : Session} (h : s.Owned) {x : QObject} (hx : number x = s.made) :
    x ∉ s.heap.live ∧ x ∉ s.heap.dead := by
  constructor
  · intro hl
    have := h.made x (Or.inl hl)
    omega
  · intro hd
    have := h.made x (Or.inr hd)
    omega

/-- The objects that there are or were have numbers below `n`. -/
def Below (heap : Heap QObject) (n : ℕ) : Prop := ∀ x, x ∈ heap.live ∨ x ∈ heap.dead → number x < n

/-- A new object. -/
theorem Below.new {heap : Heap QObject} {x : QObject} (h : Below heap (number x)) :
    Below ⟨insert x heap.live, heap.dead⟩ (number x + 1) := by
  rintro y (hy | hy)
  · rcases Set.mem_insert_iff.mp hy with rfl | hy
    · exact Nat.lt_succ_self _
    · exact Nat.lt_succ_of_lt (h y (Or.inl hy))
  · exact Nat.lt_succ_of_lt (h y (Or.inr hy))

/-- An object that is deleted. -/
theorem Below.delete {heap : Heap QObject} {x : QObject} {n : ℕ} (h : Below heap n)
    (hx : x ∈ heap.live) : Below ⟨heap.live \ {x}, insert x heap.dead⟩ n := by
  rintro y (hy | hy)
  · exact h y (Or.inl hy.1)
  · rcases Set.mem_insert_iff.mp hy with rfl | hy
    · exact h _ (Or.inl hx)
    · exact h y (Or.inr hy)

/-! ## Slots -/

theorem Owned.requested {s : Session} (h : s.Owned) {n : Nat} (hn : s.mModbusClient = some n)
    (unit : QModbusDataUnit) (a : SendAnswer) : (s.requested n unit a).Owned := by
  have hclient : QObject.client n ∈ s.heap.live := h.live ▸ Or.inl ⟨n, hn, rfl⟩
  obtain ⟨hnew, hnew'⟩ := h.not_made (x := .reply s.made) rfl
  have hsend := Leads.calls hclient (s.sendCalls unit a)
  have hreply := hsend.append (Leads.new hnew hnew')
  have hfinished := hreply.append (Leads.calls (Set.mem_insert _ _) [QCall.isFinished])
  have hmade : Below ⟨insert (.reply s.made) s.heap.live, s.heap.dead⟩ (s.made + 1) :=
    Below.new (x := .reply s.made) h.made
  have hacts : (s.requested n unit a).acts = s.acts ++ s.sendActs n unit a := requested_acts ..
  obtain ⟨errors, sent⟩ := a
  cases sent with
  | failed =>
      refine h.calls hn (s.sendCalls unit ⟨errors, .failed⟩ ++ [.errorString]) hacts ?_ rfl rfl rfl
      simp [sendActs, sendCalls]
  | pending =>
      have hops : opsOf (s.sendActs n unit ⟨errors, .pending⟩) =
          (s.sendCalls unit ⟨errors, .pending⟩).map (Op.call (.client n)) ++
            [Op.new (QObject.reply s.made)] ++
              [QCall.isFinished].map (Op.call (.reply s.made)) := by
        simp [sendActs, sendCalls]
      rw [← hops] at hfinished
      refine h.acts hacts hfinished ?_ hmade ?_
      · rw [h.live]
        ext x
        simp only [held, emit, Session.requested, Set.mem_insert_iff, Set.mem_ofPred_eq,
          List.mem_append, List.mem_singleton]
        grind
      · refine List.nodup_append.mpr ⟨h.nodup, List.nodup_singleton _, ?_⟩
        rintro a ha b hb rfl
        rw [List.mem_singleton.mp hb] at ha
        exact hnew (h.live ▸ Or.inr ⟨_, ha, rfl⟩)
  | finished =>
      have hops : opsOf (s.sendActs n unit ⟨errors, .finished⟩) =
          (s.sendCalls unit ⟨errors, .finished⟩).map (Op.call (.client n)) ++
            [Op.new (QObject.reply s.made)] ++
              [QCall.isFinished].map (Op.call (.reply s.made)) ++
                [Op.delete (QObject.reply s.made)] := by
        simp [sendActs, sendCalls]
      have hdeleted := hfinished.append (Leads.delete (Set.mem_insert _ _))
      rw [← hops] at hdeleted
      refine h.acts hacts hdeleted ?_ (hmade.delete (Set.mem_insert _ _)) h.nodup
      have hback : (insert (QObject.reply s.made) s.heap.live) \ {.reply s.made} =
          s.heap.live := by
        simp [hnew]
      exact hback.trans h.live

theorem Owned.prepared {s : Session} (h : s.Owned) (unit : QModbusDataUnit) (a : SendAnswer) :
    (s.prepared unit a).Owned := by
  cases hn : s.mModbusClient with
  | none =>
      rw [Session.prepared, hn]
      exact h
  | some n =>
      rw [prepared_some hn]
      exact h.requested hn unit a

/-- The end of a reply that is connected. -/
theorem Owned.endReply {s : Session} (h : s.Owned) {k : Nat} (hk : k ∈ s.replies) (r : Reply) :
    (s.endReply k r).Owned := by
  have hreply : QObject.reply k ∈ s.heap.live := h.live ▸ Or.inr ⟨k, hk, rfl⟩
  refine h.acts rfl ((Leads.calls hreply [QCall.error r]).append (Leads.delete hreply)) ?_
    (Below.delete h.made hreply) (h.nodup.erase k)
  rw [h.live]
  ext x
  simp only [held, emit, Session.endReply, Set.mem_sdiff, Set.mem_ofPred_eq,
    Set.mem_singleton_iff, h.nodup.mem_erase_iff]
  grind

/-- The client of the pointer is deleted. -/
theorem Owned.deleteClient {s : Session} (h : s.Owned) {n : Nat} (hn : s.mModbusClient = some n) :
    ({ s.emit [.op (.delete (.client n))] with mModbusClient := none } : Session).Owned := by
  have hclient : QObject.client n ∈ s.heap.live := h.live ▸ Or.inl ⟨n, hn, rfl⟩
  refine h.acts rfl (Leads.delete hclient) ?_ (Below.delete h.made hclient) h.nodup
  rw [h.live]
  ext x
  simp only [held, emit, hn, Set.mem_sdiff, Set.mem_ofPred_eq, Set.mem_singleton_iff]
  grind

theorem Owned.dropped {s : Session} (h : s.Owned) (aborted : List (Nat × Reply)) :
    (s.dropped aborted).Owned := by
  cases hn : s.mModbusClient with
  | none =>
      rw [Session.dropped, hn]
      exact h
  | some n =>
      have hcall : (s.call (.client n) .disconnectDevice).Owned :=
        h.calls hn [.disconnectDevice] rfl rfl rfl rfl rfl
      have hends := endReplies_inv (fun _ _ r hk h => Owned.endReply h hk r) aborted hcall
      rw [Session.dropped, hn]
      exact hends.deleteClient ((endReplies_client _ aborted).trans hn)

/-- The client that `connectOn` makes. -/
theorem Owned.newClient {s : Session} (h : s.Owned) (hn : s.mModbusClient = none) :
    ({ s with mModbusClient := some s.made, made := s.made + 1 }.emit
      [.op (.new (.client s.made))]).Owned := by
  obtain ⟨hnew, hnew'⟩ := h.not_made (x := .client s.made) rfl
  refine h.acts rfl (Leads.new hnew hnew') ?_ (Below.new (x := .client s.made) h.made) h.nodup
  rw [h.live]
  ext x
  simp only [held, emit, hn, Set.mem_insert_iff, Set.mem_ofPred_eq]
  grind

theorem Owned.connectClient {s : Session} (h : s.Owned) (hn : s.mModbusClient = none)
    (a : ConnectAnswers) : (s.connectClient a).Owned := by
  have hacts : (s.connectClient a).acts = s.acts ++ [Act.op (.new (.client s.made))] ++
      ((parameters s.conn).map (fun k => Act.op (.call (.client s.made) k)) ++
        connectActs s.made a) := by
    simp [Session.connectClient, emit]
  refine (h.newClient hn).calls (n := s.made) rfl (parameters s.conn ++ connectCalls a) hacts ?_
    rfl rfl rfl
  rw [opsOf_append, opsOf_calls, opsOf_connectActs, List.map_append]

theorem Owned.connected {s : Session} (h : s.Owned) (a : ConnectAnswers) :
    (s.connected a).Owned :=
  ((h.dropped a.aborted).connectClient (dropped_client s a.aborted) a).prepared _ _

theorem Owned.ticked {s : Session} (h : s.Owned) (a : SendAnswer) (o : Nat → PutRet) :
    (s.ticked a o).Owned := by
  have hread : (s.polled a).Owned := h.prepared _ a
  obtain ⟨v, hpublish⟩ := (s.polled a).publish_eq o
  rw [Session.ticked, hpublish]
  exact hread.quiet rfl (opsOf_publishActs o _) rfl rfl rfl

/-- A possible slot does not stop. -/
theorem Owned.step_ok {s : Session} (h : s.Owned) {x : Slot} (hx : s.Possible x) :
    ∃ s', s.step x = .ok s' := by
  cases x with
  | connectOn a => exact ⟨_, s.connectOn_eq a⟩
  | prepareRead startAddress count a => exact ⟨_, s.prepareRead_eq startAddress count a⟩
  | emitTime a o => exact ⟨_, s.emitTime_eq a o⟩
  | readReady sender r =>
      cases sender with
      | none => exact ⟨s, rfl⟩
      | some k => exact ⟨_, readReady_eq s k r⟩
  | errorOccurred m =>
      have hlive : QObject.client m ∈ s.heap.live := hx
      rw [h.live] at hlive
      obtain ⟨n, hn, -⟩ | ⟨k, -, hk⟩ := hlive
      · exact ⟨_, errorOccurred_eq hn⟩
      · cases hk

/-- **One slot.** -/
theorem Owned.step {s s' : Session} (h : s.Owned) {x : Slot} (hx : s.Possible x)
    (hstep : s.step x = .ok s') : s'.Owned := by
  cases step_cases hstep with
  | connectOn a => exact h.connected a
  | prepareRead startAddress count a => exact h.prepared _ a
  | emitTime a o => exact h.ticked a o
  | noSender r => exact h
  | readReady k r => exact h.endReply hx.2 r
  | errorOccurred m hn => exact h.calls hn [.errorString] rfl rfl rfl rfl rfl

theorem Owned.run {s s' : Session} (h : s.Owned) {xs : List Slot} (hrun : Runs s xs s') :
    s'.Owned :=
  hrun.inv (fun _ _ _ h hx hstep => Owned.step h hx hstep) h

/-! ## The conclusions -/

/-- The life of a client that ends with the session. -/
def ClientLife (n : Nat) (ops : List (Op QObject QCall)) : Prop :=
  ops = [] ∨ ∃ ks : List QCall, ops =
    .new (.client n) :: (ks.map (Op.call (.client n)) ++ [.delete (.client n)])

/-- **Objects.**  After any run, no possible slot stops, and after the destructor every operation
was on an object that was there, every client was made, called and deleted once, and the only
objects left are the replies whose end has not come. -/
theorem session_safe {c : Connector} {xs : List Slot} {s : Session} (h : Runs (new c) xs s) :
    (∀ x, s.Possible x → ∃ s', s.step x = .ok s') ∧
      ∀ aborted, ∃ s', s.destroy aborted = .ok s' ∧ Safe Heap.empty (opsOf s'.acts) ∧
        (∀ n, ClientLife n (Lifecycle.ofObject (.client n) (opsOf s'.acts))) ∧
        ∀ x, x ∈ s'.heap.live ↔ ∃ k ∈ s'.replies, x = .reply k := by
  have howned := (owned_new c).run h
  refine ⟨fun x hx => howned.step_ok hx, fun aborted => ⟨_, s.dropClient_eq aborted, ?_⟩⟩
  have hend := howned.dropped aborted
  have hheld : ∀ x, x ∈ (s.dropped aborted).heap.live ↔
      ∃ k ∈ (s.dropped aborted).replies, x = .reply k := by
    intro x
    rw [hend.live, held, dropped_client]
    simp
  refine ⟨hend.safe, fun n => ?_, hheld⟩
  have hdead : QObject.client n ∉ (s.dropped aborted).heap.live := by
    rw [hheld]
    rintro ⟨k, -, hk⟩
    cases hk
  generalize hops : Lifecycle.ofObject (.client n) (opsOf (s.dropped aborted).acts) = ops
  have hlife := hend.safe.life (.client n)
  rw [hops] at hlife
  cases hlife with
  | unborn _ _ => exact Or.inl rfl
  | alive ks hl _ => exact absurd hl hdead
  | deleted ks _ _ => exact Or.inr ⟨ks, rfl⟩

/-- The device does not answer, and the session connects again: the reply of the first client is
aborted then, and the one of the second in the destructor. -/
theorem session_safe_reconnect : ∃ s, Runs (new (.new "--WORK".toList ⟨0, 0, 0⟩))
      [.connectOn ⟨[], false, 1, true, ⟨0, .pending⟩⟩,
        .connectOn ⟨[(1, .otherError)], false, 2, false, ⟨1, .pending⟩⟩] s ∧
    s.replies = [3] ∧ ∃ s', s.destroy [(3, .otherError)] = .ok s' ∧
      Safe Heap.empty (opsOf s'.acts) ∧
      (∀ n, ClientLife n (Lifecycle.ofObject (.client n) (opsOf s'.acts))) ∧
        ∀ x, x ∈ s'.heap.live ↔ ∃ k ∈ s'.replies, x = .reply k := by
  obtain ⟨s, hrun, hreplies⟩ : ∃ s, Runs (new (.new "--WORK".toList ⟨0, 0, 0⟩))
      [.connectOn ⟨[], false, 1, true, ⟨0, .pending⟩⟩,
        .connectOn ⟨[(1, .otherError)], false, 2, false, ⟨1, .pending⟩⟩] s ∧ s.replies = [3] :=
    ⟨_, .cons trivial rfl (.cons trivial rfl (.nil _)), rfl⟩
  exact ⟨s, hrun, hreplies, (session_safe hrun).2 _⟩

end Session

end GateRasu
