import GateRasu.Session.Refines

/-!
# What the log tells

A publication ends with a message, and with one only: `Ok!`, or the message about the put
that ended it.  So the log of a polling session has one such message for each tick, in the
order of the ticks.  An `Ok!` comes right after the puts of the whole plan, another message
after those up to the put it is about, and after either nothing is put before the next event
(`log_tells`).
-/

namespace GateRasu

open Attempts (upTo halts)

/-! ## The end of a publication -/

/-- A message at the end of a publication. -/
def Message.ends : Message → Bool
  | failedToConnect => false
  | state => false
  | readError => false
  | errorOccurred => false
  | analogPutError => true
  | analogPutWarning => false
  | binaryPutError => true
  | binaryPutWarning => false
  | integerPutError => true
  | integerPutWarning => false
  | groupPutError => true
  | ok => true

/-- The act of such a message. -/
def Act.ends : Act → Bool
  | .op _ => false
  | .put _ => false
  | .printLogs m => m.ends

/-- A message about a put ends the publication exactly when the put does. -/
theorem Value.message_ends {o : Nat → PutRet} {n : Nat} {v : Value} (hv : v ≠ .noType) :
    (putActs o n v).countP Act.ends = if endsPlace o n v then 1 else 0 := by
  cases v <;> cases h : o n <;>
    simp [putActs, Value.message, endsPlace, Act.ends, Message.ends, h] at hv ⊢

/-- Puts that do not end a publication. -/
theorem countP_sentActs {o : Nat → PutRet} {vs : List Value}
    (hv : ∀ v ∈ vs, v ≠ .noType) (h : ∀ k v, vs[k]? = some v → endsPlace o k v = false) :
    (sentActs o vs).countP Act.ends = 0 := by
  refine List.countP_eq_zero.mpr fun x hx => ?_
  obtain ⟨⟨v, n⟩, hmem, hx⟩ := List.mem_flatMap.mp hx
  have hget : vs[n]? = some v := by
    simpa using List.mem_zipIdx_iff_getElem?.mp hmem
  have hcount := Value.message_ends (o := o) (n := n) (hv v (List.mem_of_getElem? hget))
  rw [h n v hget, if_neg Bool.false_ne_true] at hcount
  exact List.countP_eq_zero.mp hcount x hx

/-- A planned put has a type. -/
theorem Connector.puts_ne_noType (c : Connector) : ∀ v ∈ c.puts, v ≠ .noType := by
  intro v hv
  have hsignal : ∀ (g : Kind) (l : List WSSignal), v ∈ l.mapIdx (WSSignal.put g) → v ≠ .noType := by
    intro g l hmem
    obtain ⟨i, hi, rfl⟩ := List.mem_mapIdx.mp hmem
    cases g <;> rintro ⟨⟩
  rcases List.mem_append.mp hv with hv | hv
  · exact hsignal .ana _ hv
  rcases List.mem_append.mp hv with hv | hv
  · exact hsignal .dis _ hv
  rcases List.mem_append.mp hv with hv | hv
  · exact hsignal .int _ hv
  · obtain ⟨i, hi, rfl⟩ := List.mem_mapIdx.mp hv
    rintro ⟨⟩

/-- The acts of a publication of the plan `vs` before its last message, with a channel that
answers the puts with `o`. -/
inductive EndsWith (o : Nat → PutRet) (vs : List Value) (as : List Act) : Message → Prop
  /-- All of the plan has been put, and no put ends it. -/
  | ok : (∀ k v, vs[k]? = some v → endsPlace o k v = false) →
      as.flatMap Act.view = vs.map Obs.put → EndsWith o vs as .ok
  /-- The message is about the last put, that of the value with number `k`.  The values before
  it have been put. -/
  | error (k : Nat) (as' : List Act) (v : Value) (m : Message) : m ≠ .ok → vs[k]? = some v →
      as = as' ++ [.put v] → as'.flatMap Act.view = (vs.take k).map Obs.put →
        v.message (o k) = some m → EndsWith o vs as m

/-- A position behind acts that end no publication. -/
theorem split_of_countP {as bs pre post : List Act} {m : Message} (has : as.countP Act.ends = 0)
    (h : as ++ bs = pre ++ .printLogs m :: post) (hm : m.ends = true) :
    ∃ pre', pre = as ++ pre' ∧ bs = pre' ++ .printLogs m :: post := by
  rcases List.append_eq_append_iff.mp h with ⟨pre', hpre, hbs⟩ | ⟨cs, has', hcs⟩
  · exact ⟨pre', hpre, hbs⟩
  · cases cs with
    | nil =>
        rw [List.append_nil] at has'
        exact ⟨[], by rw [has', List.append_nil], hcs.symm⟩
    | cons x cs =>
        obtain ⟨rfl, -⟩ := List.cons.inj hcs
        have hmem : Act.printLogs m ∈ as := has' ▸ List.mem_append_right _ (List.mem_cons_self ..)
        exact absurd hm (List.countP_eq_zero.mp has _ hmem)

theorem Value.exists_message {o : Nat → PutRet} {n : Nat} {v : Value} (hv : v ≠ .noType)
    (h : endsPlace o n v = true) :
    ∃ m, v.message (o n) = some m ∧ m.ends = true ∧ m ≠ .ok := by
  cases v <;> cases ho : o n <;> simp [endsPlace, Value.message, Message.ends, ho] at h hv ⊢

theorem publishActs_ends (o : Nat → PutRet) {vs : List Value} (hv : ∀ v ∈ vs, v ≠ .noType) :
    ∃ as m, publishActs o vs = as ++ [.printLogs m] ∧ as.countP Act.ends = 0 ∧ m.ends = true ∧
      EndsWith o vs as m := by
  rcases Attempts.upTo_cases (endsPlace o) vs 0 with
    ⟨hhalts, hall, hplain⟩ | ⟨hhalts, cs, v, hall, hstop, hplain⟩
  · simp only [Nat.zero_add] at hplain
    refine ⟨sentActs o vs, .ok, ?_, countP_sentActs hv hplain, rfl,
      .ok hplain (Session.view_sentActs o vs)⟩
    rw [publishActs, hhalts, hall]
    rfl
  · simp only [Nat.zero_add] at hstop hplain
    obtain ⟨rest, rfl⟩ : cs ++ [v] <+: vs := hall ▸ Attempts.upTo_prefix (endsPlace o) vs 0
    have hmem : ∀ w ∈ cs ++ [v], w ≠ .noType := fun w hw => hv w (List.mem_append_left _ hw)
    obtain ⟨m, hm, hends, hok⟩ := Value.exists_message (hmem v (by simp)) hstop
    have hcount := countP_sentActs (fun w hw => hmem w (List.mem_append_left _ hw)) hplain
    refine ⟨sentActs o cs ++ [.put v], m, ?_, ?_, hends,
      .error cs.length _ v m hok (by simp) rfl ?_ hm⟩
    · rw [publishActs, hhalts, hall, sentActs_append_singleton, putActs, hm]
      simp
    · rw [List.countP_append, hcount]
      rfl
    · rw [Session.view_sentActs, List.append_assoc, List.take_left]

/-! ## Runs -/

/-- What the channel answers to the puts of an event. -/
def PollEvent.answers : PollEvent → List (Nat → PutRet)
  | tick _ o => [o]
  | finished _ _ => []
  | error _ => []

namespace Session

theorem countP_errorActs (n k : Nat) : (errorActs n k).countP Act.ends = 0 := by
  induction k with
  | zero => rfl
  | succ k ih => exact ih

theorem countP_pollActs (s : Session) (n : Nat) (a : SendAnswer) :
    (s.pollActs n a).countP Act.ends = 0 := by
  obtain ⟨errors, sent⟩ := a
  cases sent <;> simp [pollActs, sendActs, countP_errorActs, Act.ends, Message.ends]

theorem countP_startActs (c : Connector) (a : ConnectAnswers) :
    (startActs c a).countP Act.ends = 0 := by
  obtain ⟨aborted, connected, errors, connects, send⟩ := a
  cases connected <;> cases connects <;>
    simp [startActs, connectActs, parameters, countP_errorActs, Act.ends, Message.ends]

/-- The start prints no such message. -/
theorem countP_start {c : Connector} {a : ConnectAnswers} {s : Session} (h : start c a = .ok s) :
    s.acts.countP Act.ends = 0 := by
  obtain ⟨s₀, replies, made, rfl, -, -⟩ := start_eq h
  rw [List.countP_append, countP_startActs, countP_pollActs]

theorem out_tick {s : Session} {n : Nat} (h : s.mModbusClient = some n) (a : SendAnswer)
    (o : Nat → PutRet) :
    machine.out s (.tick a o) = s.pollActs n a ++ publishActs o s.conn.puts := by
  simp [machine, h]

theorem out_error {s : Session} {n : Nat} (h : s.mModbusClient = some n) (m : Nat) :
    machine.out s (.error m) = errorActs n 1 := by
  simp [machine, h]

/-- No reply is handled in a request. -/
theorem received_request (P : Setup) (r : Sent) : received (P.request r) = [] := by
  cases r <;> rfl

theorem received_pollActs (s : Session) (n : Nat) (a : SendAnswer) :
    received ((s.pollActs n a).flatMap Act.view) = [] := by
  rw [view_pollActs, received_request]

theorem received_publishActs (o : Nat → PutRet) (vs : List Value) :
    received ((publishActs o vs).flatMap Act.view) = [] := by
  rw [view_publishActs, publishObs, received_puts]

/-- The replies that a run has handled are those that are seen. -/
theorem run_conn (events : List PollEvent) {s : Session} {n : Nat} (h : s.mModbusClient = some n) :
    (machine.stateAfter s events).conn =
      s.conn.afterReplies (received ((machine.outputs s events).flatMap Act.view)) := by
  induction events generalizing s with
  | nil => rfl
  | cons e events ih =>
      rw [Transducer.stateAfter_cons, ih (machine_acts h e).2, Transducer.outputs_cons,
        List.flatMap_append, received_append]
      cases e with
      | tick a o =>
          obtain ⟨replies, made, v, htick, -⟩ := ticked_eq h a o
          have hnext : machine.next s (.tick a o) = s.ticked a o := rfl
          rw [hnext, htick, out_tick h, List.flatMap_append, received_append, received_pollActs,
            view_publishActs, publishObs, received_puts]
          rfl
      | finished k r => rfl
      | error m =>
          have hnext : machine.next s (.error m) = s.emit (errorActs n 1) := by
            simp [machine, h]
          rw [hnext, out_error h, view_errorActs]
          rfl

theorem run_client (events : List PollEvent) {s : Session} {n : Nat}
    (h : s.mModbusClient = some n) : (machine.stateAfter s events).mModbusClient = some n :=
  Transducer.stateAfter_inv (P := fun s : Session => s.mModbusClient = some n) machine
    (fun _ e h => (machine_acts h e).2) events h

/-- Every event begins with an operation. -/
theorem outputs_head (events : List PollEvent) {s : Session} {n : Nat}
    (h : s.mModbusClient = some n) {x : Act} {post : List Act}
    (hout : machine.outputs s events = x :: post) : ∃ y, x = .op y := by
  cases events with
  | nil => cases hout
  | cons e events =>
      rw [Transducer.outputs_cons] at hout
      cases e with
      | tick a o =>
          rw [out_tick h] at hout
          exact ⟨_, (List.cons.inj hout).1.symm⟩
      | finished k r => exact ⟨_, (List.cons.inj hout).1.symm⟩
      | error m =>
          rw [out_error h] at hout
          exact ⟨_, (List.cons.inj hout).1.symm⟩

/-- The last message of a publication ends its tick. -/
theorem tick_ends {s : Session} {n : Nat} (h : s.mModbusClient = some n) {a : SendAnswer}
    {o : Nat → PutRet} {p q : List Act} {m : Message} (hm : m.ends = true)
    (hout : machine.out s (.tick a o) = p ++ .printLogs m :: q) :
    q = [] ∧ p.countP Act.ends = 0 ∧ ∃ as, p = s.pollActs n a ++ as ∧
      EndsWith o s.conn.puts as m ∧ received (p.flatMap Act.view) = [] := by
  obtain ⟨as, m', hpublish, hcount, -, hends⟩ := publishActs_ends o s.conn.puts_ne_noType
  have hreceived := received_publishActs o s.conn.puts
  rw [hpublish, List.flatMap_append, received_append, List.append_eq_nil_iff] at hreceived
  rw [out_tick h, hpublish] at hout
  obtain ⟨p₁, rfl, hlast⟩ := split_of_countP (countP_pollActs s n a) hout hm
  obtain ⟨p₂, rfl, hlast⟩ := split_of_countP hcount hlast hm
  obtain ⟨rfl, rfl, rfl⟩ : p₂ = [] ∧ m' = m ∧ q = [] := by
    cases p₂ with
    | nil => simpa using hlast
    | cons x p₂ => simp at hlast
  rw [List.append_nil]
  refine ⟨rfl, ?_, as, rfl, hends, ?_⟩
  · rw [List.countP_append, countP_pollActs, hcount]
  · rw [List.flatMap_append, received_append, received_pollActs, hreceived.1]
    rfl

/-- The plan of a polling session is that of the replies that are seen. -/
theorem run_puts {env : Env} {params : QString} {u : Uninit} {lines : List QString}
    {c : Connector} (hc : readLines env (.new params u) lines = .ok c) {a : ConnectAnswers}
    {s : Session} (hs : start c a = .ok s) (events : List PollEvent) :
    (machine.stateAfter s events).conn.puts =
      c.setup.plan (received ((machine.outputs s events).flatMap Act.view)) := by
  have hclient := start_client hs
  obtain ⟨s₀, replies, made, rfl, -, -⟩ := start_eq hs
  rw [run_conn events hclient, (readLines_fresh hc).countSignals.afterReplies_puts]
  rfl

/-- How many publications have ended after some events. -/
theorem countP_run {s : Session} {n : Nat} (h : s.mModbusClient = some n)
    (events : List PollEvent) :
    (machine.outputs s events).countP Act.ends = (events.flatMap PollEvent.answers).length := by
  rw [List.length_flatMap]
  refine Transducer.countP_outputs (P := fun s : Session => s.mModbusClient = some n) machine
    (fun _ e h => (machine_acts h e).2) (fun s e h => ?_) events h
  cases e with
  | tick a o =>
      obtain ⟨as, m, hpublish, hcount, hends, -⟩ := publishActs_ends o s.conn.puts_ne_noType
      rw [out_tick h, List.countP_append, countP_pollActs, hpublish, List.countP_append, hcount]
      simp [Act.ends, hends, PollEvent.answers]
  | finished k r => rfl
  | error m => exact out_error h m ▸ countP_errorActs n 1

/-- What the log of a session with the setup `P` tells after ticks whose puts are answered with
`answers`. -/
structure LogTells (P : Setup) (answers : List (Nat → PutRet)) (as : List Act) : Prop where
  /-- There is one last message of a publication for each tick. -/
  count : as.countP Act.ends = answers.length
  /-- It tells how the publication of the plan at its tick has ended, and then comes another
  event. -/
  tells : ∀ pre m post, as = pre ++ .printLogs m :: post → m.ends = true →
    (∃ o pre' as', answers[pre.countP Act.ends]? = some o ∧ pre = pre' ++ as' ∧
      EndsWith o (P.plan (received (pre.flatMap Act.view))) as' m) ∧
    ∀ x post', post = x :: post' → ∃ y, x = .op y

/-- **The log.**  In every polling session. -/
theorem log_tells {env : Env} {params : QString} {u : Uninit} {lines : List QString}
    {c : Connector} (hc : readLines env (.new params u) lines = .ok c) {a : ConnectAnswers}
    {s s' : Session} (hs : start c a = .ok s) {events : List PollEvent}
    (h : Runs s (events.map PollEvent.slot) s') :
    LogTells c.setup (events.flatMap PollEvent.answers) s'.acts := by
  have hclient := start_client hs
  obtain ⟨-, rfl⟩ := (runs_iff events (start_owned hs)).mp h
  rw [run_acts events hclient]
  constructor
  · rw [List.countP_append, countP_start hs, Nat.zero_add, countP_run hclient]
  · intro pre m post hacts hends
    obtain ⟨pre₁, rfl, hrun⟩ := split_of_countP (countP_start hs) hacts hends
    obtain ⟨es₁, e, es₂, p, q, rfl, hout, rfl, rfl⟩ := Transducer.exists_of_outputs machine hrun
    have hbefore := run_client es₁ hclient
    cases e with
    | finished k r =>
        have hmem : Act.printLogs m ∈ machine.out (machine.stateAfter s es₁) (.finished k r) :=
          hout ▸ List.mem_append_right _ (List.mem_cons_self ..)
        simp [machine] at hmem
    | error k =>
        have hmem : Act.printLogs m ∈ machine.out (machine.stateAfter s es₁) (.error k) :=
          hout ▸ List.mem_append_right _ (List.mem_cons_self ..)
        have hnone := countP_errorActs 0 1
        rw [← out_error hbefore k] at hnone
        exact absurd hends (List.countP_eq_zero.mp hnone _ hmem)
    | tick a o =>
        obtain ⟨rfl, hcount, as, rfl, hendsWith, hreceived⟩ := tick_ends hbefore hends hout
        have hafter := run_client (es₁ ++ [.tick a o]) hclient
        refine ⟨⟨o, _, as, ?_, by simp only [← List.append_assoc]; rfl, ?_⟩, fun x post' hpost =>
          outputs_head es₂ hafter hpost⟩
        · rw [List.countP_append, List.countP_append, countP_start hs, hcount, countP_run hclient,
            Nat.zero_add, Nat.add_zero, List.flatMap_append, List.getElem?_append_right le_rfl,
            Nat.sub_self]
          rfl
        have hstart : received (s.acts.flatMap Act.view) = [] := by
          rw [view_start hs, received_request]
        rw [List.flatMap_append, List.flatMap_append, received_append, received_append, hstart,
          hreceived, List.nil_append, List.append_nil, ← run_puts hc hs]
        exact hendsWith

/-- The channel warns of the first signal and fails at the second one, and then it recovers, while
the client reports errors. -/
theorem log_tells_recovery :
    ∃ c s s', readLines ⟨fun _ => 0, fun _ => ⟨0, 0, 0, 0⟩⟩ (.new "--WORK".toList ⟨0, 0, 0⟩)
        ["analog".toList, "Signal1=Level,5199,5259,1".toList, "integer".toList,
          "Signal2=Pump,5239,5262,1".toList] = .ok c ∧
      start c ⟨[], false, 1, false, ⟨1, .failed⟩⟩ = .ok s ∧
      Runs s ([.tick ⟨2, .failed⟩ fun n => if n = 0 then .warning else .error, .error 0,
        .tick ⟨0, .pending⟩ fun _ => .ok].map PollEvent.slot) s' ∧ LogTells c.setup
        [fun n => if n = 0 then .warning else .error, fun _ => .ok] s'.acts := by
  obtain ⟨c, hc⟩ : ∃ c, readLines ⟨fun _ => 0, fun _ => ⟨0, 0, 0, 0⟩⟩
      (.new "--WORK".toList ⟨0, 0, 0⟩) ["analog".toList, "Signal1=Level,5199,5259,1".toList,
        "integer".toList, "Signal2=Pump,5239,5262,1".toList] = .ok c := ⟨_, rfl⟩
  have hs := (new (countSignals c)).connectOn_eq ⟨[], false, 1, false, ⟨1, .failed⟩⟩
  have hrun := (runs_iff [.tick ⟨2, .failed⟩ fun n => if n = 0 then .warning else .error, .error 0,
    .tick ⟨0, .pending⟩ fun _ => .ok] (start_owned hs)).mpr
      ⟨⟨trivial, (machine_acts (start_client hs) _).2, trivial, trivial⟩, rfl⟩
  exact ⟨c, _, _, hc, hs, hrun, log_tells hc hs hrun⟩

end Session

end GateRasu
