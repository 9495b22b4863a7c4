import GateRasu.Ini.RoundTrip
import GateRasu.Session.Clients
import GateRasu.Session.Refines

/-!
# From the configuration to the wire

What a configuration asks for, and that any text of it gets it.  A configuration has a
setup and connection parameters of its own.  A session that loads a text of the
configuration sets these parameters, sends the requests of this setup, and mirrors the
replies in it (`renders_session`).  So nothing else of the text matters, neither the order
of its lines nor its blanks.
-/

namespace GateRasu

open Lifecycle (Op)

/-! ## Configurations -/

namespace Config

/-- The number of signals of a kind. -/
def count (cfg : Config) : Kind → Nat
  | .ana => cfg.ana.length
  | .dis => cfg.dis.length
  | .int => cfg.int.length

/-- The setup a configuration asks for. -/
def setup (cfg : Config) : Setup where
  layout := {
    numHold := cfg.numHldRegstr.toNat
    qualOffset := (cfg.firstQualRegstr.toNat : Int) - cfg.firstRegstr.toNat
    num := cfg.count
    numHold_lt := cfg.numHldRegstr.isLt
    qualOffset_bounds := by
      have h₁ := cfg.firstQualRegstr.isLt
      have h₂ := cfg.firstRegstr.isLt
      omega }
  startAddress := cfg.firstRegstr
  count := cfg.numHldRegstr
  serverAdr := cfg.serverAdr.setWidth 16
  groups := cfg.grp.length

/-- The connection parameters a configuration asks for. -/
def parameters (cfg : Config) : List QCall :=
  [.setNetworkPort cfg.port, .setNetworkAddress cfg.ip.text, .setTimeout cfg.respTime,
    .setNumberOfRetries cfg.numOfRetr]

end Config

/-- The signal lists of a connector have the lengths the configuration asks for. -/
theorem Config.Items.count {cfg : Config} {items : List Item} (h : cfg.Items items) (env : Env)
    {c : Connector} (hana : c.maASignals = []) (hdis : c.maDSignals = [])
    (hint : c.maIntSignals = []) (hgrp : c.maGrSignals = []) :
    (fun k => ((items.foldl (Item.apply env) c).signals k).length) = cfg.count ∧
      (items.foldl (Item.apply env) c).maGrSignals.length = cfg.grp.length := by
  have hclosed := Config.foldl_items h env c
  rw [pushSection_ana, pushSection_dis, pushSection_int, pushSection_group] at hclosed
  have hlists := cfg.assign_signals c
  dsimp only [Connector.closed] at hclosed
  refine ⟨funext fun k => ?_, ?_⟩
  · cases k with
    | ana =>
        refine (congrArg (fun c => c.maASignals.length) hclosed).trans ?_
        simp only [hlists, hana, Config.sectionFields, Config.count, List.length_append,
          List.length_mapIdx, List.length_map, List.length_nil, Nat.zero_add]
    | dis =>
        refine (congrArg (fun c => c.maDSignals.length) hclosed).trans ?_
        simp only [hlists, hdis, Config.sectionFields, Config.count, List.length_append,
          List.length_map, List.length_nil, Nat.zero_add]
    | int =>
        refine (congrArg (fun c => c.maIntSignals.length) hclosed).trans ?_
        simp only [hlists, hint, Config.sectionFields, Config.count, List.length_append,
          List.length_map, List.length_nil, Nat.zero_add]
  · refine (congrArg (fun c => c.maGrSignals.length) hclosed).trans ?_
    simp only [hlists, hgrp, Config.sectionFields, List.length_append, List.length_map,
      List.length_nil, Nat.zero_add]

/-- A text of a configuration loads its setup and its parameters. -/
theorem readLines_setup {cfg : Config} {lines : List QString} (h : cfg.Renders lines) (env : Env)
    (params : QString) (u : Uninit) : ∃ c, readLines env (.new params u) lines = .ok c ∧
      c.setup = cfg.setup ∧ Session.parameters c = cfg.parameters := by
  obtain ⟨items, hitems, hlines⟩ := h
  refine ⟨_, readLines_good hitems.good hlines env _, ?_⟩
  obtain ⟨hnum, hgroups⟩ := hitems.count env (c := Connector.new params u) rfl rfl rfl rfl
  have hclosed := Config.foldl_items hitems env (.new params u)
  rw [pushSection_ana, pushSection_dis, pushSection_int, pushSection_group] at hclosed
  dsimp only [Connector.closed] at hclosed
  have h16 : 16 ≤ 32 := by decide
  have h8 : 8 ≤ 32 := by decide
  constructor
  · have hstart := (congrArg Connector.mStartReg hclosed).trans
      (toUInt_setWidth h16 cfg.firstRegstr)
    have hhold := (congrArg Connector.mNumHoldRegs hclosed).trans
      (toUInt_setWidth h16 cfg.numHldRegstr)
    have hqual := (congrArg Connector.mStartQualReg hclosed).trans
      (toUInt_setWidth h16 cfg.firstQualRegstr)
    have hserver := (congrArg Connector.mServerAdr hclosed).trans
      (congrArg (BitVec.setWidth 16) (toUInt_setWidth h8 cfg.serverAdr))
    dsimp only at hstart hhold hqual hserver
    simp only [Connector.setup, Connector.layout, Connector.qualOffset, hnum, hstart, hhold, hqual,
      hserver, hgroups]
    rfl
  · have hport := (congrArg Connector.mPlcPort hclosed).trans (toUInt_setWidth h16 cfg.port)
    have hhost : _ = cfg.ip.text := congrArg Connector.mPlcHost hclosed
    have htime := (congrArg Connector.mResponseTime hclosed).trans
      (toUInt_setWidth h16 cfg.respTime)
    have hretries := (congrArg Connector.mNumOfRetries hclosed).trans
      (toUInt_setWidth h8 cfg.numOfRetr)
    dsimp only at hport hhost htime hretries
    rw [Session.parameters, hport, hhost, htime, hretries]
    rfl

/-! ## Sessions -/

theorem request_eq {P : Setup} {r : Sent} {a k s : BitVec 16}
    (h : Obs.request a k s ∈ P.request r) : a = P.startAddress ∧ k = P.count ∧ s = P.serverAdr := by
  cases r <;> simpa [Setup.request] using h

/-- A request of the mirror is the one of the setup. -/
theorem mirror_requests {P : Setup} (events : List Event) (m : Mirror) :
    ∀ x ∈ (mirror P).outputs m events, ∀ a k s, x = .request a k s →
      a = P.startAddress ∧ k = P.count ∧ s = P.serverAdr := by
  refine Transducer.forall_mem_outputs (P := fun _ => True) (mirror P) (fun _ _ _ => trivial) ?_
    events trivial
  rintro m e - x hx a k s rfl
  cases e with
  | tick r o =>
      rcases List.mem_append.mp hx with hx | hx
      · exact request_eq hx
      · obtain ⟨v, -, hv⟩ := List.mem_map.mp hx
        cases hv
  | reply r =>
      by_cases hp : 0 < m.pending <;> simp [mirror, hp] at hx

/-- What a session owes to a configuration. -/
structure Config.Serves (cfg : Config) (a : ConnectAnswers) (events : List PollEvent)
    (s : Session) : Prop where
  /-- It mirrors the replies in the setup of the configuration. -/
  trace : s.acts.flatMap Act.view = cfg.setup.request a.send.sent ++
    (mirror cfg.setup).outputs ⟨[], a.send.sent.waits⟩ (events.flatMap PollEvent.event)
  /-- A request is for the registers of the configuration, and goes through a client that has
  got the parameters of the configuration first. -/
  request : ∀ pre n unit serverAdr post,
    s.acts = pre ++ .op (.call (.client n) (.sendReadRequest unit serverAdr)) :: post →
      unit = .holdingRegisters cfg.firstRegstr cfg.numHldRegstr ∧
        serverAdr = cfg.serverAdr.setWidth 16 ∧
          ∃ ks, Session.callsOf (.client n) pre = cfg.parameters ++ ks ∧
            ∀ k ∈ ks, k.isParameter = false

/-- **From the configuration to the wire.**  Any text of a configuration is loaded, and a session
that polls with it serves the configuration, whatever the module and the channel answer. -/
theorem renders_session {cfg : Config} {lines : List QString} (h : cfg.Renders lines) (env : Env)
    (params : QString) (u : Uninit) : ∃ c, readLines env (.new params u) lines = .ok c ∧
      ∀ a, ∃ s, Session.start c a = .ok s ∧ ∀ events s',
        Session.Runs s (events.map PollEvent.slot) s' → cfg.Serves a events s' := by
  obtain ⟨c, hc, hsetup, hparameters⟩ := readLines_setup h env params u
  refine ⟨c, hc, fun a => ⟨_, Session.connectOn_eq _ a, fun events s' hrun => ?_⟩⟩
  have hs := (Session.new (countSignals c)).connectOn_eq a
  obtain ⟨hevents, hs'⟩ := (Session.runs_iff events (Session.start_owned hs)).mp hrun
  have htrace : s'.acts.flatMap Act.view = cfg.setup.request a.send.sent ++
      (mirror cfg.setup).outputs ⟨[], a.send.sent.waits⟩ (events.flatMap PollEvent.event) := by
    rw [hs', Session.run_acts events (Session.start_client hs), List.flatMap_append,
      Session.view_start hs, Session.start_outputs hc hs hevents, hsetup]
  refine ⟨htrace, fun pre n unit serverAdr post hpre => ?_⟩
  have hwhole : Session.Runs (.new (countSignals c))
      (.connectOn a :: events.map PollEvent.slot) s' := .cons trivial hs hrun
  have hconf := (Session.configured_new _).run (Session.owned_new _) hwhole
  have hparams : Session.parameters (countSignals c) = cfg.parameters := hparameters
  obtain ⟨startAddress, count⟩ := unit
  have hmem : Obs.request startAddress count serverAdr ∈ s'.acts.flatMap Act.view := by
    refine List.mem_flatMap.mpr ⟨_, hpre ▸ List.mem_append_right _ (List.mem_cons_self ..), ?_⟩
    exact List.mem_singleton_self _
  have hrequest : startAddress = cfg.setup.startAddress ∧ count = cfg.setup.count ∧
      serverAdr = cfg.setup.serverAdr := by
    rw [htrace] at hmem
    rcases List.mem_append.mp hmem with hmem | hmem
    · exact request_eq hmem
    · exact mirror_requests _ _ _ hmem _ _ _ rfl
  obtain ⟨rfl, rfl, rfl⟩ := hrequest
  obtain ⟨ks, hks, hother⟩ := hconf.request hpre
  exact ⟨rfl, rfl, ks, hparams ▸ hks, hother⟩

/-- The sessions of the sample. -/
theorem renders_session_sample :
    ∃ c, readLines sampleEnv (.new "--WORK".toList ⟨0, 0, 0⟩) sampleText = .ok c ∧
      ∀ a, ∃ s, Session.start c a = .ok s ∧ ∀ events s',
        Session.Runs s (events.map PollEvent.slot) s' → sampleConfig.Serves a events s' :=
  renders_session sampleConfig_renders _ _ _

end GateRasu
