import GateRasu.Gateway.Runs

/-!
# The start

`Init` gives up when `readSignalsFile` returns a failure, and goes on otherwise.  A file
whose stream fails is a failure.  A file that cannot be opened is not: `readSignalsFile`
then falls through to its last line, and the gateway polls with the settings it was built
with (`starts_when_read_iff`).
-/

namespace GateRasu

open Attempts (upTo)

/-- What `Init` leaves when it goes on with the connector `c`. -/
structure Connector.Started (c : Connector) (r : Sent) (o : Nat → PutRet) (g : Gateway) :
    Prop where
  /-- In the simulation it has published the simulated signals once. -/
  publishes : c.mParams = simul → g.conn = testSignals (countSignals c) ∧ g.polling = false ∧
    g.pending = 0 ∧ g.trace = (upTo (endsPlace o) 0 (testSignals (countSignals c)).puts).map .put
  /-- Otherwise it has sent the request for the registers of the file, and the timer runs. -/
  polls : c.mParams ≠ simul → g.conn = countSignals c ∧ g.polling = true ∧
    g.pending = (if r = .pending then 1 else 0) ∧
    g.trace = .request c.mStartReg c.mNumHoldRegs c.mServerAdr ::
      (if r = .failed then [.notSent] else [])

/-- `Init` goes on past `readSignalsFile`, with the connector `c'`. -/
structure GoesOn (env : Env) (c : Connector) (f : IniFile) (r : Sent) (o : Nat → PutRet)
    (c' : Connector) : Prop where
  read : readSignalsFile env c "signals.ini".toList f = .ok (c', .success)
  started : ∃ g, c.init env f r o = .ok g ∧ c'.Started r o g

/-- The file is opened, and every line of it is read once and in order. -/
def ReadWhole (env : Env) (c : Connector) (f : IniFile) (c' : Connector) : Prop :=
  ∃ lines, f = .complete lines ∧ lines.foldlM (readIniSection env) c = .ok c'

/-- A gateway that has no timer, has sent no request and has put no value. -/
structure Gateway.Idle (g : Gateway) : Prop where
  polling : g.polling = false
  pending : g.pending = 0
  trace : g.trace = []

/-- `Init` goes on with a file that is read whole, and leaves an idle gateway otherwise. -/
structure StartsWhenRead (env : Env) (c : Connector) (f : IniFile) (r : Sent)
    (o : Nat → PutRet) : Prop where
  goesOn : ∀ c', GoesOn env c f r o c' ↔ ReadWhole env c f c'
  idle : ∀ g, c.init env f r o = .ok g → (∀ c', ¬ ReadWhole env c f c') → g.Idle

/-! ## The two ways of `Init` -/

theorem started_start (c : Connector) (r : Sent) (o : Nat → PutRet) :
    c.Started r o (c.start .success r o) := by
  constructor
  case publishes =>
      intro hmode
      obtain ⟨v, hpublish⟩ := Gateway.publish_eq
        ⟨testSignals (countSignals c), false, 0, .noType, []⟩ o
      have hstart : c.start .success r o = _ := (if_pos hmode).trans hpublish
      rw [hstart]
      exact ⟨rfl, rfl, rfl, rfl⟩
  case polls =>
      intro hmode
      have hstart : c.start .success r o = _ := if_neg hmode
      rw [hstart]
      cases r <;> exact ⟨rfl, rfl, rfl, rfl⟩

theorem goesOn_iff (env : Env) (c : Connector) (f : IniFile) (r : Sent) (o : Nat → PutRet)
    (c' : Connector) :
    GoesOn env c f r o c' ↔ f.ret = .success ∧ readLines env c f.lines = .ok c' := by
  constructor
  · rintro ⟨hread, -⟩
    rw [readSignalsFile_eq] at hread
    cases hlines : readLines env c f.lines with
    | error e =>
        rw [hlines] at hread
        cases hread
    | ok c₁ =>
        rw [hlines] at hread
        obtain ⟨rfl, hret⟩ := Prod.mk.inj (Except.ok.inj hread)
        exact ⟨hret, rfl⟩
  · rintro ⟨hret, hlines⟩
    refine ⟨?_, c'.start .success r o, ?_, started_start c' r o⟩
    · rw [readSignalsFile_eq, hlines, hret]
      rfl
    · rw [Connector.init_eq, hlines, hret]
      rfl

/-- `Init` goes on, or it leaves an idle gateway. -/
theorem init_cases {env : Env} {c : Connector} {f : IniFile} {r : Sent} {o : Nat → PutRet}
    {g : Gateway} (h : c.init env f r o = .ok g) :
    (∃ c', GoesOn env c f r o c') ∨ f.ret = .failure ∧ g.Idle := by
  rw [Connector.init_eq] at h
  cases hread : readLines env c f.lines with
  | error e =>
      rw [hread] at h
      cases h
  | ok c' =>
      rw [hread] at h
      cases hret : f.ret with
      | success => exact Or.inl ⟨c', (goesOn_iff env c f r o c').mpr ⟨hret, hread⟩⟩
      | failure =>
          rw [hret] at h
          cases h
          exact Or.inr ⟨rfl, rfl, rfl, rfl⟩

/-- A file that can be opened is either read whole or a failure. -/
theorem goesOn_iff_readWhole {f : IniFile} (hf : f ≠ .notOpened) (env : Env) (c : Connector)
    (r : Sent) (o : Nat → PutRet) (c' : Connector) :
    GoesOn env c f r o c' ↔ ReadWhole env c f c' := by
  rw [goesOn_iff]
  cases f with
  | notOpened => exact absurd rfl hf
  | failed lines =>
      refine iff_of_false (fun h => ?_) ?_
      · cases h.1
      · rintro ⟨lines', h, -⟩
        cases h
  | complete lines =>
      constructor
      · rintro ⟨-, h⟩
        exact ⟨lines, rfl, h⟩
      · rintro ⟨lines', h, hread⟩
        cases h
        exact ⟨rfl, hread⟩

theorem not_readWhole_notOpened (env : Env) (c c' : Connector) :
    ¬ ReadWhole env c .notOpened c' := by
  rintro ⟨lines, h, -⟩
  cases h

/-- **The start.**  `Init` goes on with a file that is read whole and with no other, exactly
when the file can be opened. -/
theorem starts_when_read_iff (env : Env) (c : Connector) (f : IniFile) (r : Sent)
    (o : Nat → PutRet) : StartsWhenRead env c f r o ↔ f ≠ .notOpened := by
  constructor
  · rintro ⟨hgoes, -⟩ rfl
    refine not_readWhole_notOpened env c c ((hgoes c).mp ?_)
    exact (goesOn_iff env c .notOpened r o c).mpr ⟨rfl, rfl⟩
  · intro hf
    refine ⟨goesOn_iff_readWhole hf env c r o, fun g hg hnot => ?_⟩
    rcases init_cases hg with ⟨c', hgoes⟩ | ⟨-, hidle⟩
    · exact absurd ((goesOn_iff_readWhole hf env c r o c').mp hgoes) (hnot c')
    · exact hidle

/-- Without its file the gateway asks the default server for the default registers. -/
theorem not_starts_notOpened :
    ¬ StartsWhenRead ⟨fun _ => 0, fun _ => ⟨0, 0, 0, 0⟩⟩ (.new [] ⟨0, 0, 0⟩) .notOpened .pending
      (fun _ => .ok) := by
  rintro ⟨-, hidle⟩
  have hinit : ∃ g, (Connector.new [] ⟨0, 0, 0⟩).init ⟨fun _ => 0, fun _ => ⟨0, 0, 0, 0⟩⟩
      .notOpened .pending (fun _ => .ok) = .ok g ∧ g.trace = [.request 5199 66 1] :=
    ⟨_, rfl, rfl⟩
  obtain ⟨g, hg, htrace⟩ := hinit
  have hempty := (hidle g hg fun c' => not_readWhole_notOpened _ _ c').trace
  rw [htrace] at hempty
  cases hempty

end GateRasu
