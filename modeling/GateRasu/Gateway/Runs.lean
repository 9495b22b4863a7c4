import GateRasu.Gateway

/-!
# Runs of the gateway

A run never makes an access out of range, so it is a pure fold (`run_ok`).  Two facts
hold in every state of a run.  The connector is the loaded one after the replies in the
trace, whatever ticks and failures lie between them.  And every put in the trace is a
put of the connector as it was then (`Gateway.Traced`).
-/

namespace GateRasu

open Attempts (upTo)

/-- The replies of a trace. -/
def received : List Obs → List Reply
  | [] => []
  | .received r :: trace => r :: received trace
  | .request _ _ _ :: trace => received trace
  | .notSent :: trace => received trace
  | .put _ :: trace => received trace

theorem received_append : ∀ (t₁ t₂ : List Obs),
    received (t₁ ++ t₂) = received t₁ ++ received t₂
  | [], _ => rfl
  | .received r :: t₁, t₂ => congrArg (r :: ·) (received_append t₁ t₂)
  | .request _ _ _ :: t₁, t₂ => received_append t₁ t₂
  | .notSent :: t₁, t₂ => received_append t₁ t₂
  | .put _ :: t₁, t₂ => received_append t₁ t₂

theorem received_puts : ∀ vs : List Value, received (vs.map Obs.put) = []
  | [] => rfl
  | _ :: vs => received_puts vs

/-- An entry of a trace that has grown is an old one or a new one. -/
theorem append_eq_append_cons {t new pre post : List Obs} {x : Obs}
    (h : t ++ new = pre ++ x :: post) :
    (∃ post', t = pre ++ x :: post') ∨ ∃ pre', pre = t ++ pre' ∧ new = pre' ++ x :: post := by
  rcases List.append_eq_append_iff.mp h with ⟨pre', hpre, hnew⟩ | ⟨bs, ht, hpost⟩
  · exact Or.inr ⟨pre', hpre, hnew⟩
  · cases bs with
    | nil =>
        rw [List.append_nil] at ht
        exact Or.inr ⟨[], by rw [ht, List.append_nil], hpost.symm⟩
    | cons y bs =>
        obtain ⟨rfl, -⟩ := List.cons.inj hpost
        exact Or.inl ⟨bs, ht⟩

namespace Gateway

/-! ## Steps -/

theorem poll_conn (g : Gateway) (r : Sent) : (g.poll r).conn = g.conn := by
  cases r <;> rfl

/-- A request adds no reply and no put. -/
theorem poll_trace (g : Gateway) (r : Sent) :
    ∃ new, (g.poll r).trace = g.trace ++ new ∧ received new = [] ∧ ∀ v, .put v ∉ new := by
  cases r with
  | failed =>
      exact ⟨[.request g.conn.mStartReg g.conn.mNumHoldRegs g.conn.mServerAdr, .notSent],
        List.append_assoc .., rfl, fun v => by simp⟩
  | finished | pending =>
      exact ⟨[.request g.conn.mStartReg g.conn.mNumHoldRegs g.conn.mServerAdr], rfl, rfl,
        fun v => by simp⟩

/-- A publication appends the attempted puts to the trace and changes nothing else but the
buffer. -/
theorem publish_eq (g : Gateway) (o : Nat → PutRet) :
    ∃ v, g.publish o = { g with
      value := v
      trace := g.trace ++ (upTo (endsPlace o) 0 g.conn.puts).map Obs.put } := by
  obtain ⟨ch, hsent, hrun⟩ := placeInPPD_emits o g.conn ⟨g.value, []⟩
  refine ⟨ch.value, ?_⟩
  have hsent' : ch.sent = upTo (endsPlace o) 0 g.conn.puts := hsent
  rw [publish, hrun, ← hsent']
  cases Attempts.halts (endsPlace o) 0 g.conn.puts <;> rfl

/-- The gateway after an event. -/
def after (g : Gateway) : Event → Gateway
  | .tick r o => if g.polling then g.emitTime r o else g
  | .reply r =>
      if g.polling ∧ 0 < g.pending then
        { g with
          conn := g.conn.afterReply r
          pending := g.pending - 1
          trace := g.trace ++ [.received r] }
      else g

theorem step_ok (g : Gateway) (e : Event) : g.step e = .ok (g.after e) := by
  cases e with
  | tick r o => rfl
  | reply r =>
      rw [step, after]
      split
      · rw [finish, Connector.readReady_ok]
        rfl
      · rfl

theorem run_ok (events : List Event) (g : Gateway) :
    g.run events = .ok (events.foldl after g) := by
  induction events generalizing g with
  | nil => rfl
  | cons e events ih =>
      rw [run, List.foldlM_cons, step_ok]
      exact ih (g.after e)

/-! ## The invariant of a run -/

/-- The state of a run from a gateway with the connector `c`. -/
structure Traced (c : Connector) (g : Gateway) : Prop where
  conn : g.conn = c.afterReplies (received g.trace)
  put : ∀ pre v post, g.trace = pre ++ .put v :: post →
    v ∈ (c.afterReplies (received pre)).puts

/-- A step that adds to the trace. -/
theorem Traced.append {c : Connector} {g g' : Gateway} (h : g.Traced c) (new : List Obs)
    (htrace : g'.trace = g.trace ++ new)
    (hconn : g'.conn = c.afterReplies (received g.trace ++ received new))
    (hput : ∀ pre v post, new = pre ++ .put v :: post →
      v ∈ (c.afterReplies (received g.trace ++ received pre)).puts) : g'.Traced c := by
  constructor
  · rw [hconn, htrace, received_append]
  · intro pre v post hsplit
    rw [htrace] at hsplit
    rcases append_eq_append_cons hsplit with ⟨post', hold⟩ | ⟨pre', hpre, hnew⟩
    · exact h.put pre v post' hold
    · rw [hpre, received_append]
      exact hput pre' v post hnew

theorem Traced.poll {c : Connector} {g : Gateway} (h : g.Traced c) (r : Sent) :
    (g.poll r).Traced c := by
  obtain ⟨new, htrace, hreceived, hput⟩ := g.poll_trace r
  refine h.append new htrace ?_ fun pre v post hnew => ?_
  · rw [poll_conn, hreceived, List.append_nil]
    exact h.conn
  · exact absurd (hnew ▸ List.mem_append_right pre (List.mem_cons_self ..)) (hput v)

theorem Traced.publish {c : Connector} {g : Gateway} (h : g.Traced c) (o : Nat → PutRet) :
    (g.publish o).Traced c := by
  obtain ⟨v, hpublish⟩ := g.publish_eq o
  rw [hpublish]
  refine h.append _ rfl ?_ ?_
  · rw [received_puts, List.append_nil]
    exact h.conn
  · intro pre v post hnew
    obtain ⟨us, ws, husws, rfl, hws⟩ := List.map_eq_append_iff.mp hnew
    obtain ⟨w, ws', rfl, hw, -⟩ := List.map_eq_cons_iff.mp hws
    cases hw
    rw [received_puts, List.append_nil, ← h.conn]
    refine (Attempts.upTo_prefix (endsPlace o) g.conn.puts 0).subset ?_
    rw [husws]
    exact List.mem_append_right _ (List.mem_cons_self ..)

/-- One event. -/
theorem Traced.after {c : Connector} {g : Gateway} (h : g.Traced c) (e : Event) :
    (g.after e).Traced c := by
  cases e with
  | tick r o =>
      rw [Gateway.after]
      split
      · exact (h.poll r).publish o
      · exact h
  | reply r =>
      rw [Gateway.after]
      split
      · refine h.append [.received r] rfl ?_ ?_
        · rw [received, received, Connector.afterReplies, List.foldl_append]
          exact congrArg (Connector.afterReply · r) h.conn
        · intro pre v post hnew
          cases pre with
          | nil => cases hnew
          | cons x pre => cases pre <;> cases hnew
      · exact h

/-- **Every run.** -/
theorem Traced.run {c : Connector} : ∀ {g : Gateway} (events : List Event), g.Traced c →
    (events.foldl Gateway.after g).Traced c
  | _, [], h => h
  | _, e :: events, h => Traced.run events (h.after e)

end Gateway

/-! ## The start -/

/-- The lines of a file that reach the reader. -/
def IniFile.lines : IniFile → List QString
  | .notOpened => []
  | .failed lines => lines
  | .complete lines => lines

/-- The return code for a file. -/
def IniFile.ret : IniFile → ReadRet
  | .notOpened => .success
  | .failed _ => .failure
  | .complete _ => .success

theorem readSignalsFile_eq (env : Env) (c : Connector) (f : IniFile) :
    readSignalsFile env c "signals.ini".toList f =
      (readLines env c f.lines).map fun c => (c, f.ret) := by
  have hname : ("signals.ini".toList : QString) ≠ [] := by decide
  unfold readSignalsFile
  rw [if_pos hname]
  cases f with
  | notOpened => rfl
  | failed lines => cases readLines env c lines <;> rfl
  | complete lines => cases readLines env c lines <;> rfl

/-- The gateway that `Init` leaves, for a connector that has read its file. -/
def Connector.start (c : Connector) (ret : ReadRet) (r : Sent) (o : Nat → PutRet) : Gateway :=
  match ret with
  | .failure => ⟨c, false, 0, .noType, []⟩
  | .success =>
      if c.mParams = simul then
        Gateway.publish ⟨testSignals (countSignals c), false, 0, .noType, []⟩ o
      else Gateway.poll ⟨countSignals c, true, 0, .noType, []⟩ r

theorem Connector.init_eq (env : Env) (c : Connector) (f : IniFile) (r : Sent)
    (o : Nat → PutRet) :
    c.init env f r o = (readLines env c f.lines).map fun c => c.start f.ret r o := by
  rw [Connector.init, readSignalsFile_eq]
  cases readLines env c f.lines with
  | error e => rfl
  | ok c =>
      cases f with
      | failed lines => rfl
      | notOpened | complete =>
          by_cases hmode : c.mParams = simul
          · exact (if_pos hmode).trans (congrArg Except.ok (if_pos hmode).symm)
          · exact (if_neg hmode).trans (congrArg Except.ok (if_neg hmode).symm)

/-- A run is the reading of the file and a fold over the events. -/
theorem gateway_eq (env : Env) (params : QString) (u : Uninit) (f : IniFile) (r : Sent)
    (o : Nat → PutRet) (events : List Event) :
    gateway env params u f r o events =
      (readLines env (.new params u) f.lines).map fun c =>
        events.foldl Gateway.after (c.start f.ret r o) := by
  rw [gateway, Connector.init_eq]
  cases readLines env (.new params u) f.lines with
  | error e => rfl
  | ok c => exact Gateway.run_ok events (c.start f.ret r o)

theorem readLines_mParams {env : Env} {lines : List QString} {c c' : Connector}
    (h : readLines env c lines = .ok c') : c'.mParams = c.mParams := by
  refine readLines_inv (P := fun c' => c'.mParams = c.mParams) ?_ ?_ ?_ rfl h
  · intro c₁ v s hc
    cases s <;> exact hc
  · exact fun _ _ hc => hc
  · intro c₁ f g hc
    cases g <;> exact hc

theorem traced_start (c : Connector) (polling : Bool) :
    Gateway.Traced c ⟨c, polling, 0, .noType, []⟩ := by
  refine ⟨rfl, fun pre v post h => ?_⟩
  cases pre <;> cases h

/-- Outside the simulation, the trace of a run is that of the loaded connector. -/
theorem gateway_traced {env : Env} {params : QString} {u : Uninit} {f : IniFile} {r : Sent}
    {o : Nat → PutRet} {events : List Event} {g : Gateway} (hmode : params ≠ simul)
    (h : gateway env params u f r o events = .ok g) :
    ∃ c c₀, readLines env (.new params u) f.lines = .ok c ∧ (c₀ = c ∨ c₀ = countSignals c) ∧
      g.Traced c₀ := by
  rw [gateway_eq] at h
  cases hc : readLines env (.new params u) f.lines with
  | error e =>
      rw [hc] at h
      cases h
  | ok c =>
      rw [hc] at h
      cases h
      have hparams : c.mParams ≠ simul := (readLines_mParams hc).trans_ne hmode
      cases f with
      | failed lines => exact ⟨c, c, rfl, Or.inl rfl, (traced_start c false).run events⟩
      | notOpened | complete =>
          refine ⟨c, countSignals c, rfl, Or.inr rfl, Gateway.Traced.run events ?_⟩
          have hstart : c.start .success r o = _ := if_neg hparams
          refine Eq.subst (motive := Gateway.Traced (countSignals c)) hstart.symm ?_
          exact (traced_start (countSignals c) true).poll r

end GateRasu
