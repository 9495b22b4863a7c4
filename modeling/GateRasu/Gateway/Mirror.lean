import GateRasu.Gateway.Shown
import GateRasu.Lib.Transducer

/-!
# The gateway as a mirror of its replies

What a polling gateway is for: it repeats what the replies said.  The machine `mirror`
does just that.  Its memory is the list of the replies and the number of requests that
wait for one, and it has no signals.  A tick sends the request of the ini file and
publishes what the replies leave (`Setup.plan`).

`gateway_mirrors` is the refinement: in every run, what crosses the border of the
program is what the mirror emits.
-/

namespace GateRasu

open Attempts (upTo)

/-! ## The mirror -/

/-- What a run does not change. -/
structure Setup where
  layout : Layout
  startAddress : BitVec 16
  count : BitVec 16
  serverAdr : BitVec 16
  groups : Nat

namespace Setup

/-- What is observed of a request. -/
def request (P : Setup) : Sent → List Obs
  | .failed => [.request P.startAddress P.count P.serverAdr, .notSent]
  | .finished => [.request P.startAddress P.count P.serverAdr]
  | .pending => [.request P.startAddress P.count P.serverAdr]

/-- What is meant to be published after the replies `rs`. -/
def plan (P : Setup) (rs : List Reply) : List Value :=
  P.layout.plan P.groups fun g k => (shownQuality P.layout k rs g, shownValue P.layout k rs g)

end Setup

/-- The number of replies a request waits for. -/
def Sent.waits : Sent → Nat
  | .failed => 0
  | .finished => 0
  | .pending => 1

/-- The memory of the mirror. -/
structure Mirror where
  replies : List Reply
  pending : Nat

/-- What a publication of the plan `vs` emits. -/
def publishObs (o : Nat → PutRet) (vs : List Value) : List Obs :=
  (upTo (endsPlace o) 0 vs).map Obs.put

/-- A gateway that remembers replies and nothing else. -/
def mirror (P : Setup) : Transducer Mirror Event Obs where
  next m
    | .tick r _ => { m with pending := m.pending + r.waits }
    | .reply r => if 0 < m.pending then ⟨m.replies ++ [r], m.pending - 1⟩ else m
  out m
    | .tick r o => P.request r ++ publishObs o (P.plan m.replies)
    | .reply r => if 0 < m.pending then [.received r] else []

/-! ## The gateway -/

/-- The setup of a connector. -/
def Connector.setup (c : Connector) : Setup where
  layout := c.layout
  startAddress := c.mStartReg
  count := c.mNumHoldRegs
  serverAdr := c.mServerAdr
  groups := c.maGrSignals.length

theorem Connector.setup_congr {c c' : Connector}
    (hsignals : ∀ g, (c.signals g).length = (c'.signals g).length)
    (hstart : c.mStartReg = c'.mStartReg) (hhold : c.mNumHoldRegs = c'.mNumHoldRegs)
    (hqual : c.mStartQualReg = c'.mStartQualReg) (hserver : c.mServerAdr = c'.mServerAdr)
    (hgroups : c.maGrSignals.length = c'.maGrSignals.length) : c.setup = c'.setup := by
  simp only [setup, layout, qualOffset, funext hsignals, hstart, hhold, hqual, hserver, hgroups]

namespace Gateway

/-- The gateway with its observations one event at a time. -/
def machine : Transducer Gateway Event Obs where
  next := after
  out g
    | .tick r o => if g.polling then g.conn.setup.request r ++ publishObs o g.conn.puts else []
    | .reply r => if g.polling ∧ 0 < g.pending then [.received r] else []

theorem poll_eq (g : Gateway) (r : Sent) : g.poll r =
    { g with pending := g.pending + r.waits, trace := g.trace ++ g.conn.setup.request r } := by
  cases r <;> simp [poll, prepareRead, sendReadRequest, Setup.request, Connector.setup, Sent.waits]

/-- A tick of a polling gateway. -/
theorem emitTime_eq (g : Gateway) (r : Sent) (o : Nat → PutRet) : ∃ v, g.emitTime r o =
    { g with
      pending := g.pending + r.waits
      value := v
      trace := g.trace ++ (g.conn.setup.request r ++ publishObs o g.conn.puts) } := by
  obtain ⟨v, hpublish⟩ := (g.poll r).publish_eq o
  refine ⟨v, hpublish.trans ?_⟩
  rw [poll_eq, List.append_assoc]
  rfl

theorem after_trace (g : Gateway) (e : Event) :
    (g.after e).trace = g.trace ++ machine.out g e := by
  cases e with
  | tick r o =>
      obtain ⟨v, htick⟩ := g.emitTime_eq r o
      cases hp : g.polling <;> simp [after, machine, hp, htick]
  | reply r =>
      by_cases h : g.polling ∧ 0 < g.pending
      · simp [after, machine, h]
      · simp only [after, machine, if_neg h, List.append_nil]

/-- The trace of a run is what the machine emits. -/
theorem run_trace (events : List Event) (g : Gateway) :
    (events.foldl after g).trace = g.trace ++ machine.outputs g events := by
  induction events generalizing g with
  | nil => simp
  | cons e events ih =>
      rw [List.foldl_cons, ih, after_trace, Transducer.outputs_cons, List.append_assoc]
      rfl

end Gateway

/-! ## The refinement -/

theorem afterReplies_setup (rs : List Reply) (c : Connector) :
    (c.afterReplies rs).setup = c.setup := by
  refine Checked.foldl_frame Connector.setup (fun c r => ?_) rs c
  have hlayout := c.afterReply_layout r
  cases r with
  | noError values =>
      rw [Connector.setup, hlayout]
      simp [Connector.setup, Connector.afterReply, Connector.afterUnit, Connector.mapSignals,
        Connector.withStaging]
  | protocolError | otherError => rfl

/-- A polling gateway that started from the connector `c`, and a mirror with its replies. -/
structure Mirrors (c : Connector) (g : Gateway) (m : Mirror) : Prop where
  conn : g.conn = c.afterReplies m.replies
  polling : g.polling = true
  pending : g.pending = m.pending

/-- **One event.**  The gateway does what the mirror does. -/
theorem machine_matches {c : Connector} (hc : c.Fresh) :
    Transducer.Matches Gateway.machine (mirror c.setup) (fun _ _ => True) (Mirrors c) := by
  refine Transducer.Matches.of_step ?_ ?_
  · intro g m e h _
    cases e with
    | tick r o =>
        have hplan : g.conn.puts = c.setup.plan m.replies := by
          rw [h.conn, hc.afterReplies_puts]
          rfl
        simp only [Gateway.machine, h.polling, if_true, hplan]
        rw [h.conn, afterReplies_setup]
        rfl
    | reply r => simp [Gateway.machine, mirror, h.polling, h.pending]
  · intro g m e h _
    cases e with
    | tick r o =>
        obtain ⟨v, htick⟩ := g.emitTime_eq r o
        have hafter : Gateway.machine.next g (.tick r o) = g.emitTime r o := if_pos h.polling
        rw [hafter, htick]
        exact ⟨h.conn, h.polling, congrArg (· + r.waits) h.pending⟩
    | reply r =>
        by_cases hp : 0 < m.pending
        · have hafter : Gateway.machine.next g (.reply r) = _ :=
            if_pos ⟨h.polling, h.pending.symm ▸ hp⟩
          rw [hafter]
          refine ⟨?_, ?_, ?_⟩ <;> simp [mirror, hp, h.polling, h.pending, h.conn,
            Connector.afterReplies]
        · have hafter : Gateway.machine.next g (.reply r) = g :=
            if_neg fun hn => hp (h.pending ▸ hn.2)
          rw [hafter]
          simpa [mirror, hp] using h

theorem value_signal (env : Env) (n : Nat) (f : Fields) (g : Kind) :
    WSSignal.value g (f.signal env n g) = 0 := by
  cases g <;> rfl

/-- A connector that has read its file has decoded nothing. -/
theorem readLines_fresh {env : Env} {params : QString} {u : Uninit} {lines : List QString}
    {c : Connector} (h : readLines env (.new params u) lines = .ok c) : c.Fresh where
  staging := by
    refine readLines_inv (P := fun c => c.maAIntValue = []) ?_ ?_ ?_ rfl h
    · intro c v s hc
      cases s <;> exact hc
    · exact fun _ _ hc => hc
    · intro c f g hc
      cases g <;> exact hc
  value := by
    refine readLines_forall_signals (fun n f g => value_signal env n f g) ?_ h
    intro g s hs
    cases g <;> cases hs
  quality := readLines_sigQualValue h

theorem Connector.Fresh.countSignals {c : Connector} (h : c.Fresh) : (countSignals c).Fresh := by
  have hsame : ∀ g, (GateRasu.countSignals c).signals g = c.signals g := by
    intro g
    cases g <;> rfl
  exact ⟨h.staging, fun g => (hsame g).symm ▸ h.value g, fun g => (hsame g).symm ▸ h.quality g⟩

/-- The gateway that polls with a loaded connector. -/
def Connector.polling (c : Connector) (r : Sent) : Gateway :=
  ⟨countSignals c, true, r.waits, .noType, c.setup.request r⟩

/-- A run reads the file and folds over its events. -/
theorem gateway_ok {env : Env} {params : QString} {u : Uninit} {f : IniFile} {r : Sent}
    {o : Nat → PutRet} {events : List Event} {g : Gateway} :
    gateway env params u f r o events = .ok g ↔
      ∃ c, readLines env (.new params u) f.lines = .ok c ∧
        g = events.foldl Gateway.after (c.start f.ret r o) := by
  rw [gateway_eq]
  cases readLines env (.new params u) f.lines with
  | error e =>
      constructor
      · intro h
        cases h
      · rintro ⟨c, hc, -⟩
        cases hc
  | ok c =>
      constructor
      · intro h
        exact ⟨c, rfl, (Except.ok.inj h).symm⟩
      · rintro ⟨c', hc, rfl⟩
        cases hc
        rfl

theorem Connector.start_polling {c : Connector} (hparams : c.mParams ≠ simul) (r : Sent)
    (o : Nat → PutRet) : c.start .success r o = c.polling r := by
  refine (if_neg hparams).trans ((Gateway.poll_eq _ r).trans ?_)
  rw [Nat.zero_add, List.nil_append]
  rfl

/-- Outside the simulation, a run is one of a polling gateway or of an idle one. -/
theorem gateway_start {env : Env} {params : QString} {u : Uninit} {f : IniFile} {r : Sent}
    {o : Nat → PutRet} {events : List Event} {g : Gateway} (hmode : params ≠ simul)
    (h : gateway env params u f r o events = .ok g) :
    ∃ c, readLines env (.new params u) f.lines = .ok c ∧
      (f.ret = .success → g = events.foldl Gateway.after (c.polling r)) ∧
      (f.ret = .failure → g = events.foldl Gateway.after ⟨c, false, 0, .noType, []⟩) := by
  obtain ⟨c, hc, rfl⟩ := gateway_ok.mp h
  have hparams : c.mParams ≠ simul := (readLines_mParams hc).trans_ne hmode
  refine ⟨c, hc, fun hret => ?_, fun hret => ?_⟩
  · rw [hret, c.start_polling hparams]
  · rw [hret]
    rfl

/-- A run of a gateway that polls with a loaded connector. -/
theorem Connector.Fresh.polling_run {c : Connector} (hc : c.Fresh) (r : Sent)
    (events : List Event) {g : Gateway} (hg : g = events.foldl Gateway.after (c.polling r)) :
    Mirrors (GateRasu.countSignals c) g ((mirror c.setup).stateAfter ⟨[], r.waits⟩ events) ∧
      g.trace = c.setup.request r ++ (mirror c.setup).outputs ⟨[], r.waits⟩ events := by
  have hmatch := machine_matches hc.countSignals
  have hlegal : Gateway.machine.Legal (fun _ _ => True) (c.polling r) events :=
    Transducer.legal_of_forall _ (fun _ _ => trivial) _
  have hstart : Mirrors (GateRasu.countSignals c) (c.polling r) ⟨[], r.waits⟩ := ⟨rfl, rfl, rfl⟩
  constructor
  · rw [hg]
    exact hmatch.stateAfter events hlegal hstart
  · rw [hg, Gateway.run_trace]
    exact congrArg (c.setup.request r ++ ·) (hmatch.outputs_eq events hlegal hstart)

/-- The setup of a gateway that mirrors its replies. -/
theorem Mirrors.setup {c : Connector} {g : Gateway} {m : Mirror}
    (h : Mirrors (countSignals c) g m) : g.conn.setup = c.setup := by
  rw [h.conn, afterReplies_setup]
  rfl

/-- A run outside the simulation, in the setup of its end. -/
theorem gateway_polling_success {env : Env} {params : QString} {u : Uninit} {f : IniFile}
    {r : Sent} {o : Nat → PutRet} {events : List Event} {g : Gateway} (hmode : params ≠ simul)
    (h : gateway env params u f r o events = .ok g) (hret : f.ret = .success) :
    g.trace = g.conn.setup.request r ++
      (mirror g.conn.setup).outputs ⟨[], r.waits⟩ events := by
  obtain ⟨c, hc, hpolls, -⟩ := gateway_start hmode h
  obtain ⟨hmirrors, htrace⟩ := (readLines_fresh hc).polling_run r events (hpolls hret)
  rw [htrace, hmirrors.setup]

/-- **The gateway mirrors its replies.**  In every run outside the simulation, with a file that
`Init` goes on with, the trace is the request of the start and what the mirror emits. -/
theorem gateway_mirrors {env : Env} {params : QString} {u : Uninit} {f : IniFile} {r : Sent}
    {o : Nat → PutRet} {events : List Event} {g : Gateway} (hmode : params ≠ simul)
    (hret : f.ret = .success) (h : gateway env params u f r o events = .ok g) :
    ∃ c, readLines env (.new params u) f.lines = .ok c ∧
      g.trace = c.setup.request r ++ (mirror c.setup).outputs ⟨[], r.waits⟩ events := by
  obtain ⟨c, hc, hpolls, -⟩ := gateway_start hmode h
  exact ⟨c, hc, ((readLines_fresh hc).polling_run r events (hpolls hret)).2⟩

/-- A failed reply, a short one and a whole one. -/
theorem gateway_mirrors_replies :
    ∃ g c, oneSignal [.reply .otherError, .tick .pending fun _ => .ok, .reply (.noError [7]),
        .tick .failed fun _ => .error] = .ok g ∧
      readLines ⟨fun _ => 0, fun _ => ⟨0, 0, 0, 0⟩⟩ (.new "--WORK".toList ⟨0, 0, 0⟩)
        ["[analog]".toList, "Signal1=Level,5199,5259,1".toList] = .ok c ∧
      g.trace = c.setup.request .pending ++ (mirror c.setup).outputs ⟨[], 1⟩
        [.reply .otherError, .tick .pending fun _ => .ok, .reply (.noError [7]),
          .tick .failed fun _ => .error] := by
  obtain ⟨g, hrun⟩ : ∃ g, oneSignal [.reply .otherError, .tick .pending fun _ => .ok,
      .reply (.noError [7]), .tick .failed fun _ => .error] = .ok g := ⟨_, rfl⟩
  obtain ⟨c, hc, htrace⟩ := gateway_mirrors (by decide) rfl hrun
  exact ⟨g, c, hrun, hc, htrace⟩

end GateRasu
