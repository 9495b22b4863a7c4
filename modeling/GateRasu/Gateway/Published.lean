import GateRasu.Gateway.Mirror

/-!
# What a run publishes

The puts of a run, whatever the replies say, in whatever order the events come, and
however the channel answers.

* `put_domain`: a put is one of a signal of the file or of a group, its quality is made of
  the two flags of a quality register, and its value is one of its kind.
* `gateway_simul`: a simulation is one publication of fixed values, and no event adds to it.
* `analog_frozen`: an analog signal has a single value besides zero in the whole run.
* `dead_iff`: a signal is zero in every run exactly when no register writes it.
-/

namespace GateRasu

open Latest (latest)
open Attempts (upTo halts)

/-! ## Qualities -/

/-- `GOOD_QUAL`. -/
def goodQual : BitVec 32 := 0

/-- `DEV_FAIL_QUAL`. -/
def devFailQual : BitVec 32 := 0x0001

/-- `CHNL_FAIL_QUAL`. -/
def chnlFailQual : BitVec 32 := 0x0002

/-- `IMIT_DATA_QUAL`. -/
def imitDataQual : BitVec 32 := 0x0100

/-- The qualities of a quality register. -/
def registerQualities : List (BitVec 32) :=
  [goodQual, devFailQual, imitDataQual, devFailQual ||| imitDataQual]

/-- The qualities of the simulation. -/
def simulQualities : List (BitVec 32) := [devFailQual ||| chnlFailQual]

theorem wordQuality_mem (k : Nat) (v : BitVec 16) : wordQuality k v ∈ registerQualities := by
  have hquality := wordQuality_toNat k v
  have hlo : v.toNat / 2 ^ (k % 8) % 2 < 2 := Nat.mod_lt _ (by decide)
  have hhi : v.toNat / 2 ^ (k % 8 + 8) % 2 < 2 := Nat.mod_lt _ (by decide)
  have hcases : (wordQuality k v).toNat = 0 ∨ (wordQuality k v).toNat = 1 ∨
      (wordQuality k v).toNat = 256 ∨ (wordQuality k v).toNat = 257 := by omega
  simp only [registerQualities, List.mem_cons, List.not_mem_nil, or_false]
  rcases hcases with h | h | h | h
  · exact Or.inl (BitVec.eq_of_toNat_eq h)
  · exact Or.inr (Or.inl (BitVec.eq_of_toNat_eq h))
  · exact Or.inr (Or.inr (Or.inl (BitVec.eq_of_toNat_eq h)))
  · exact Or.inr (Or.inr (Or.inr (BitVec.eq_of_toNat_eq h)))

theorem shownQuality_mem (L : Layout) (k : Nat) (rs : List Reply) (g : Kind) :
    shownQuality L k rs g ∈ registerQualities := by
  refine Latest.getD_latest (List.mem_cons_self ..) fun r _ q hr => ?_
  rw [decodedQuality] at hr
  split at hr
  · obtain ⟨v, -, rfl⟩ := Option.map_eq_some_iff.mp hr
    exact wordQuality_mem k v
  · cases hr

/-! ## Values -/

/-- The values of a kind. -/
def Kind.InRange : Kind → BitVec 32 → Prop
  | .ana, _ => True
  | .dis, x => x = 0 ∨ x = 1
  | .int, x => x.toNat < 2 ^ 16

theorem shownValue_inRange (L : Layout) (k : Nat) (rs : List Reply) (g : Kind) :
    g.InRange (shownValue L k rs g) := by
  cases g with
  | ana => trivial
  | dis =>
      refine Latest.getD_latest (Or.inl rfl) fun r _ x hr => ?_
      rw [decodedDis] at hr
      split at hr
      · obtain ⟨v, -, rfl⟩ := Option.map_eq_some_iff.mp hr
        have hbit := bitAt_toNat v (Nat.mod_lt k (by decide : 0 < 16))
        rcases Nat.mod_two_eq_zero_or_one (v.toNat / 2 ^ (k % 16)) with h0 | h1
        · exact Or.inl (BitVec.eq_of_toNat_eq (hbit.trans h0))
        · exact Or.inr (BitVec.eq_of_toNat_eq (hbit.trans h1))
      · cases hr
  | int =>
      have hzero : Kind.int.InRange 0 := by simp [Kind.InRange]
      refine Latest.getD_latest hzero fun r _ x hr => ?_
      rw [decodedInt] at hr
      split at hr
      · obtain ⟨v, -, rfl⟩ := Option.map_eq_some_iff.mp hr
        have hv := v.isLt
        rw [Kind.InRange, BitVec.toNat_setWidth]
        omega
      · cases hr

/-! ## Plans -/

theorem Value.ofSignal_inj {g g' : Kind} {k k' : Nat} {x x' : BitVec 32 × BitVec 32}
    (h : Value.ofSignal g k x = Value.ofSignal g' k' x') : g = g' ∧ k = k' ∧ x = x' := by
  obtain ⟨q, y⟩ := x
  obtain ⟨q', y'⟩ := x'
  cases g <;> cases g' <;> cases h <;> exact ⟨rfl, rfl, rfl⟩

theorem Value.ofSignal_ne_grp {g : Kind} {k i t : Nat} {x : BitVec 32 × BitVec 32}
    {data : List (BitVec 8)} : Value.ofSignal g k x ≠ .grp i t data := by
  cases g <;> rintro ⟨⟩

/-- A plan has one put for each signal. -/
theorem Layout.ofSignal_mem_plan {L : Layout} {groups : Nat}
    {cell : Kind → Nat → BitVec 32 × BitVec 32} {g : Kind} {k : Nat} {x : BitVec 32 × BitVec 32} :
    Value.ofSignal g k x ∈ L.plan groups cell ↔ k < L.num g ∧ x = cell g k := by
  rw [Layout.mem_plan]
  constructor
  · rintro (⟨g', k', hk, h⟩ | ⟨i, -, h⟩)
    · obtain ⟨rfl, rfl, rfl⟩ := Value.ofSignal_inj h
      exact ⟨hk, rfl⟩
    · exact absurd h Value.ofSignal_ne_grp
  · rintro ⟨hk, rfl⟩
    exact Or.inl ⟨g, k, hk, rfl⟩

/-- The puts of a gateway with a layout and a number of groups. -/
inductive Value.InDomain (qualities : List (BitVec 32)) (L : Layout) (groups : Nat) : Value → Prop
  | signal (g : Kind) (k : Nat) (q x : BitVec 32) : k < L.num g → q ∈ qualities → g.InRange x →
      InDomain qualities L groups (.ofSignal g k (q, x))
  | group (i : Nat) : i < groups → InDomain qualities L groups (.grp 0 13 (groupData i))

theorem Layout.inDomain_of_mem_plan {L : Layout} {groups : Nat}
    {cell : Kind → Nat → BitVec 32 × BitVec 32} {qualities : List (BitVec 32)}
    (hq : ∀ g k, (cell g k).1 ∈ qualities) (hx : ∀ (g : Kind) k, g.InRange (cell g k).2) {v : Value}
    (hv : v ∈ L.plan groups cell) : v.InDomain qualities L groups := by
  rcases Layout.mem_plan.mp hv with ⟨g, k, hk, rfl⟩ | ⟨i, hi, rfl⟩
  · exact .signal g k _ _ hk (hq g k) (hx g k)
  · exact .group i hi

/-- What is put is planned. -/
theorem mem_of_publishObs {o : Nat → PutRet} {vs : List Value} {v : Value}
    (h : Obs.put v ∈ publishObs o vs) : v ∈ vs := by
  obtain ⟨w, hw, hput⟩ := List.mem_map.mp h
  cases hput
  exact (Attempts.upTo_prefix (endsPlace o) vs 0).subset hw

/-! ## The simulation -/

/-- The quality and the value of a signal of the simulation. -/
def simCell : Kind → Nat → BitVec 32 × BitVec 32
  | .ana, _ => (devFailQual ||| chnlFailQual, 1124420813)
  | .dis, i => (devFailQual ||| chnlFailQual, if i % 2 = 0 then 1 else 0)
  | .int, _ => (devFailQual ||| chnlFailQual, 123)

theorem testSignals_layout (c : Connector) : (testSignals c).layout = c.layout := by
  have hnum : ∀ g, ((testSignals c).signals g).length = (c.signals g).length := by
    intro g
    cases g <;> simp [testSignals, Connector.signals]
  simp only [Connector.layout, hnum]
  rfl

theorem testSignals_puts (c : Connector) :
    (testSignals c).puts = c.layout.plan c.maGrSignals.length simCell := by
  have hcell : ∀ g k s, ((testSignals c).signals g)[k]? = some s →
      (s.sigQualValue, WSSignal.value g s) = simCell g k := by
    intro g k s hs
    cases g <;> simp only [testSignals, Connector.signals, List.getElem?_map, List.getElem?_mapIdx,
      Option.map_eq_some_iff] at hs <;> obtain ⟨s, -, rfl⟩ := hs <;> rfl
  rw [Connector.puts_eq_plan simCell hcell, testSignals_layout]
  rfl

/-- Nothing happens to a gateway without a timer. -/
theorem Gateway.foldl_after_idle {g : Gateway} (h : g.polling = false) (events : List Event) :
    events.foldl Gateway.after g = g := by
  induction events with
  | nil => rfl
  | cons e events ih =>
      have hstep : g.after e = g := by
        cases e <;> simp [Gateway.after, h]
      rw [List.foldl_cons, hstep, ih]

theorem Connector.start_simul {c : Connector} (hparams : c.mParams = simul) (r : Sent)
    (o : Nat → PutRet) : ∃ v, c.start .success r o =
      ⟨testSignals (countSignals c), false, 0, v,
        publishObs o (c.layout.plan c.maGrSignals.length simCell)⟩ := by
  obtain ⟨v, hpublish⟩ :=
    Gateway.publish_eq ⟨testSignals (GateRasu.countSignals c), false, 0, .noType, []⟩ o
  refine ⟨v, (if_pos hparams).trans (hpublish.trans ?_)⟩
  rw [testSignals_puts, List.nil_append]
  rfl

/-- A run whose file is not read does nothing. -/
theorem gateway_failure {env : Env} {params : QString} {u : Uninit} {f : IniFile} {r : Sent}
    {o : Nat → PutRet} {events : List Event} {g : Gateway}
    (h : gateway env params u f r o events = .ok g) (hret : f.ret = .failure) : g.trace = [] := by
  obtain ⟨c, hc, rfl⟩ := gateway_ok.mp h
  rw [hret, Connector.start, Gateway.foldl_after_idle rfl]

/-- A run of the simulation is the publication at its start. -/
theorem gateway_simul_success {env : Env} {u : Uninit} {f : IniFile} {r : Sent} {o : Nat → PutRet}
    {events : List Event} {g : Gateway} (h : gateway env simul u f r o events = .ok g)
    (hret : f.ret = .success) :
    g.trace = publishObs o (g.conn.layout.plan g.conn.maGrSignals.length simCell) := by
  obtain ⟨c, hc, rfl⟩ := gateway_ok.mp h
  obtain ⟨v, hstart⟩ := c.start_simul (readLines_mParams hc) r o
  rw [hret, hstart, Gateway.foldl_after_idle rfl, testSignals_layout]
  rfl

/-- **The simulation.**  A run is one publication of the simulated values, if there is one.  It
sends no request, and no event adds to it. -/
theorem gateway_simul {env : Env} {u : Uninit} {f : IniFile} {r : Sent} {o : Nat → PutRet}
    {events : List Event} {g : Gateway} (h : gateway env simul u f r o events = .ok g) :
    g.trace = match f.ret with
      | .success => publishObs o (g.conn.layout.plan g.conn.maGrSignals.length simCell)
      | .failure => [] := by
  cases hret : f.ret with
  | success => exact gateway_simul_success h hret
  | failure => exact gateway_failure h hret

/-- A run keeps the setup of its file. -/
theorem gateway_setup {env : Env} {params : QString} {u : Uninit} {f : IniFile} {r : Sent}
    {o : Nat → PutRet} {events : List Event} {g : Gateway} {c : Connector}
    (h : gateway env params u f r o events = .ok g)
    (hc : readLines env (.new params u) f.lines = .ok c) : g.conn.setup = c.setup := by
  obtain ⟨c', hc', rfl⟩ := gateway_ok.mp h
  cases hc.symm.trans hc'
  cases f.ret with
  | failure =>
      rw [Connector.start, Gateway.foldl_after_idle rfl]
  | success =>
      by_cases hparams : c.mParams = simul
      · obtain ⟨v, hstart⟩ := c.start_simul hparams r o
        rw [hstart, Gateway.foldl_after_idle rfl, Connector.setup, testSignals_layout]
        rfl
      · rw [c.start_polling hparams]
        exact ((readLines_fresh hc).polling_run r events rfl).1.setup

/-- A file with a signal of each kind. -/
theorem gateway_simul_kinds :
    ∃ g, gateway ⟨fun _ => 0, fun _ => ⟨0, 0, 0, 0⟩⟩ simul ⟨0, 0, 0⟩
        (.complete ["analog".toList, "Signal1=A,5199,5259,1".toList, "discrete".toList,
          "Signal2=D,5249,5264,1".toList, "integer".toList, "Signal3=I,5239,5262,1".toList])
        .pending (fun _ => .ok) [.tick .pending fun _ => .ok, .reply .otherError] = .ok g ∧
      g.trace = publishObs (fun _ => .ok)
        (g.conn.layout.plan g.conn.maGrSignals.length simCell) := by
  obtain ⟨g, hrun⟩ : ∃ g, gateway ⟨fun _ => 0, fun _ => ⟨0, 0, 0, 0⟩⟩ simul ⟨0, 0, 0⟩
        (.complete ["analog".toList, "Signal1=A,5199,5259,1".toList, "discrete".toList,
          "Signal2=D,5249,5264,1".toList, "integer".toList, "Signal3=I,5239,5262,1".toList])
        .pending (fun _ => .ok) [.tick .pending fun _ => .ok, .reply .otherError] = .ok g :=
    ⟨_, rfl⟩
  exact ⟨g, hrun, gateway_simul hrun⟩

/-! ## Puts of a run -/

/-- A put outside the simulation is one of the plan that the earlier replies leave. -/
theorem put_mem_plan {env : Env} {params : QString} {u : Uninit} {f : IniFile} {r : Sent}
    {o : Nat → PutRet} {events : List Event} {g : Gateway} (hmode : params ≠ simul)
    (h : gateway env params u f r o events = .ok g) {pre post : List Obs} {v : Value}
    (hput : g.trace = pre ++ .put v :: post) : v ∈ g.conn.setup.plan (received pre) := by
  obtain ⟨c, c₀, hc, hc₀, htraced⟩ := gateway_traced hmode h
  have hfresh : c₀.Fresh := by
    rcases hc₀ with rfl | rfl
    · exact readLines_fresh hc
    · exact (readLines_fresh hc).countSignals
  have hmem := htraced.put pre v post hput
  rw [hfresh.afterReplies_puts] at hmem
  rw [htraced.conn, afterReplies_setup]
  exact hmem

/-- The qualities of a mode. -/
def modeQualities (params : QString) : List (BitVec 32) :=
  if params = simul then simulQualities else registerQualities

/-- **The domain of the puts.**  In every run and in every mode. -/
theorem put_domain {env : Env} {params : QString} {u : Uninit} {f : IniFile} {r : Sent}
    {o : Nat → PutRet} {events : List Event} {g : Gateway}
    (h : gateway env params u f r o events = .ok g) :
    ∀ v, Obs.put v ∈ g.trace →
      v.InDomain (modeQualities params) g.conn.layout g.conn.maGrSignals.length := by
  intro v hv
  by_cases hmode : params = simul
  · subst hmode
    cases hret : f.ret with
    | failure =>
        rw [gateway_failure h hret] at hv
        cases hv
    | success =>
        rw [gateway_simul_success h hret] at hv
        rw [modeQualities, if_pos rfl]
        refine Layout.inDomain_of_mem_plan ?_ ?_ (mem_of_publishObs hv)
        · intro g k
          cases g <;> exact List.mem_singleton_self _
        · intro g k
          cases g with
          | ana => trivial
          | dis =>
              rcases Nat.mod_two_eq_zero_or_one k with h0 | h1
              · exact Or.inr (if_pos h0)
              · exact Or.inl (if_neg (by omega))
          | int => exact (by decide : (123#32).toNat < 2 ^ 16)
  · obtain ⟨pre, post, htrace⟩ := List.append_of_mem hv
    rw [modeQualities, if_neg hmode]
    exact Layout.inDomain_of_mem_plan (fun g k => shownQuality_mem _ k _ g)
      (fun g k => shownValue_inRange _ k _ g) (put_mem_plan hmode h htrace)

/-- The device has failed, and the value is simulated. -/
theorem put_domain_flags :
    ∃ g, oneSignal [.reply (.noError (List.replicate 66 0x0101)), .tick .pending fun _ => .ok] =
        .ok g ∧
      Obs.put (.ana 0 (devFailQual ||| imitDataQual) 0x01010101) ∈ g.trace ∧
        ∀ v, Obs.put v ∈ g.trace →
          v.InDomain (modeQualities "--WORK".toList) g.conn.layout g.conn.maGrSignals.length := by
  obtain ⟨g, hrun, htrace⟩ : ∃ g, oneSignal [.reply (.noError (List.replicate 66 0x0101)),
        .tick .pending fun _ => .ok] = .ok g ∧
      g.trace = [.request 5199 66 1, .received (.noError (List.replicate 66 0x0101)),
        .request 5199 66 1, .put (.ana 0 0x0101 0x01010101)] :=
    ⟨_, rfl, rfl⟩
  refine ⟨g, hrun, ?_, put_domain hrun⟩
  rw [htrace]
  simp [devFailQual, imitDataQual]

/-- **Analog values are frozen.**  In every run outside the simulation there is one value of an
analog signal: each put has it if an earlier reply had the two registers of the signal, and zero
otherwise. -/
theorem analog_frozen {env : Env} {params : QString} {u : Uninit} {f : IniFile} {r : Sent}
    {o : Nat → PutRet} {events : List Event} {g : Gateway} (hmode : params ≠ simul)
    (h : gateway env params u f r o events = .ok g) (k : Nat) :
    ∃ x, ∀ pre q y post, g.trace = pre ++ .put (.ana k q y) :: post →
      y = if (received pre).any (coversAna g.conn.layout k) then x else 0 := by
  refine ⟨shownValue g.conn.layout k (received g.trace) .ana, fun pre q y post hput => ?_⟩
  have hmem : Value.ofSignal .ana k (q, y) ∈ g.conn.setup.plan (received pre) :=
    put_mem_plan hmode h hput
  obtain ⟨hk, hcell⟩ := Layout.ofSignal_mem_plan.mp hmem
  have hy : y = shownValue g.conn.layout k (received pre) .ana := congrArg Prod.snd hcell
  rw [hy]
  split
  · next hcov =>
      rw [hput, received_append]
      exact (shownValue_ana_append hk hcov _).symm
  · next hcov => exact if_neg hcov

/-- Two replies with different words for the signal. -/
theorem analog_frozen_replies :
    ∃ g, oneSignal [.tick .pending fun _ => .ok, .reply (.noError [7, 8]),
        .tick .pending fun _ => .ok, .reply (.noError [9, 9]), .tick .failed fun _ => .ok] = .ok g ∧
      ∃ x, ∀ pre q y post, g.trace = pre ++ .put (.ana 0 q y) :: post →
        y = if (received pre).any (coversAna g.conn.layout 0) then x else 0 := by
  obtain ⟨g, hrun⟩ : ∃ g, oneSignal [.tick .pending fun _ => .ok, .reply (.noError [7, 8]),
      .tick .pending fun _ => .ok, .reply (.noError [9, 9]), .tick .failed fun _ => .ok] = .ok g :=
    ⟨_, rfl⟩
  exact ⟨g, hrun, analog_frozen (by decide) hrun 0⟩

/-! ## Dead signals -/

/-- A reply with every bit set. -/
def Layout.allOnes (L : Layout) : Reply := .noError (List.replicate L.numHold 0xffff)

section

variable {L : Layout} {k : Nat}

theorem Layout.allOnes_getElem? {i : Nat} (h : i < L.numHold) :
    L.allOnes.values[i]? = some 0xffff := by
  simp [allOnes, Reply.values, h]

theorem Layout.allOnes_length : L.allOnes.values.length = L.numHold := by
  simp [allOnes, Reply.values]

/-- Every bit of a word of ones is set. -/
theorem bitAt_ones {i : Nat} (hi : i < 16) : bitAt ((0xffff#16).setWidth 32) i ≠ 0 := by
  have hall : ∀ j < 16, bitAt ((0xffff#16).setWidth 32) j ≠ 0 := by decide
  exact hall i hi

theorem wordQuality_ones : wordQuality k 0xffff ≠ 0 := by
  have hlt : k % 8 < 8 := Nat.mod_lt _ (by decide)
  have hall : ∀ j < 8, (65535 / 2 ^ j % 2 + 256 * (65535 / 2 ^ (j + 8) % 2)) ≠ 0 := by decide
  intro h
  have hquality := wordQuality_toNat k 0xffff
  rw [h] at hquality
  exact hall _ hlt hquality.symm

/-- A reply of ones shows the values that a register writes. -/
theorem shownValue_ones {g : Kind} {i : Nat} (hk : k < L.num g) (hw : L.writesValue g k i) :
    shownValue L k [L.allOnes] g ≠ 0 := by
  cases g with
  | ana =>
      obtain ⟨-, hhold⟩ : i = 2 * k + 1 ∧ 2 * k + 1 < L.numHold := hw
      have hcov : [L.allOnes].any (coversAna L k) = true := by
        simp [coversAna, Layout.allOnes_length, hhold]
      have hlo : (L.history [L.allOnes]).getD (2 * k) 0 = 0xffff := by
        have hk' : k < L.num .ana := hk
        have hlt : 2 * k < L.stagedNum := by
          rw [Layout.stagedNum]
          omega
        rw [Layout.history, List.flatMap_singleton, List.getD_eq_getElem?_getD, Layout.staged,
          List.getElem?_take_of_lt hlt, Layout.allOnes_getElem? (by omega)]
        rfl
      intro h
      rw [shownValue, if_pos hcov, hlo] at h
      have hn := congrArg BitVec.toNat h
      rw [joinWords_toNat] at hn
      exact absurd hn (by simp)
  | dis =>
      obtain ⟨⟨h50, h60, hnum⟩, hlast, hhold⟩ :
        (50 ≤ i ∧ i < 60 ∧ i ≤ 50 + L.num .dis / 16) ∧
          L.num .dis / 16 * 16 ≤ k ∧ i < L.numHold := hw
      have hend : 50 < L.disEnd L.numHold ∧ L.disEnd L.numHold ≤ L.numHold := by
        rw [Layout.disEnd]
        omega
      have hget : L.allOnes.values[L.disEnd L.numHold - 1]? = some 0xffff :=
        Layout.allOnes_getElem? (by omega)
      rw [shownValue, Latest.latest_cons, Latest.latest_nil, Option.none_or, decodedDis,
        Layout.allOnes_length, if_pos ⟨hend.1, hlast⟩, hget]
      exact bitAt_ones (Nat.mod_lt _ (by decide))
  | int =>
      obtain ⟨-, hcond⟩ : i = 40 + k ∧ (k < 10 ∧ 40 + k < L.numHold) := hw
      rw [shownValue, Latest.latest_cons, Latest.latest_nil, Option.none_or, decodedInt,
        if_pos hcond, Layout.allOnes_getElem? hcond.2]
      decide

theorem shownQuality_ones {g : Kind} {i : Nat} (hw : L.writesQuality g k i) :
    shownQuality L k [L.allOnes] g ≠ 0 := by
  obtain ⟨hreg, hcond⟩ := hw
  have hlt : (L.qualReg g k).toNat < L.numHold := by omega
  rw [shownQuality, Latest.latest_cons, Latest.latest_nil, Option.none_or, decodedQuality,
    if_pos hcond, Layout.allOnes_getElem? hlt]
  exact wordQuality_ones

/-- Values that no register writes are zero. -/
theorem shownValue_dead {g : Kind} (h : ∀ i, ¬ L.writesValue g k i) (rs : List Reply) :
    shownValue L k rs g = 0 := by
  cases g with
  | ana =>
      refine if_neg fun hcov => ?_
      obtain ⟨r, -, hr⟩ := List.any_eq_true.mp hcov
      exact h (2 * k + 1) ⟨rfl, (of_decide_eq_true hr).1⟩
  | dis =>
      have hnone : latest (decodedDis L k) rs = none := by
        refine Latest.latest_eq_none_iff.mpr fun r _ => if_neg ?_
        rintro ⟨hend, hlast⟩
        refine h 50 ⟨⟨le_rfl, by decide, Nat.le_add_right ..⟩, hlast, ?_⟩
        rw [Layout.disEnd] at hend
        omega
      rw [shownValue, hnone]
      rfl
  | int =>
      have hnone : latest (decodedInt L k) rs = none :=
        Latest.latest_eq_none_iff.mpr fun r _ => if_neg fun hcond => h (40 + k) ⟨rfl, hcond⟩
      rw [shownValue, hnone]
      rfl

theorem shownQuality_dead {g : Kind} (h : ∀ i, ¬ L.writesQuality g k i) (rs : List Reply) :
    shownQuality L k rs g = 0 := by
  have hnone : latest (decodedQuality L g k) rs = none := by
    refine Latest.latest_eq_none_iff.mpr fun r _ => if_neg fun hcond => ?_
    have hpos : 0 ≤ L.qualReg g k := by
      have hsec := Image.qualSection_eq g
      rw [Layout.qualReg, hsec]
      omega
    exact h (L.qualReg g k).toNat ⟨Int.toNat_of_nonneg hpos, hcond⟩
  rw [shownQuality, hnone]
  rfl

end

/-- A channel that answers every put with `OK_RET` gets all of them. -/
theorem publishObs_ok (vs : List Value) : publishObs (fun _ => .ok) vs = vs.map Obs.put := by
  have hends : halts (endsPlace fun _ => PutRet.ok) 0 vs = false := by
    refine Bool.eq_false_iff.mpr fun h => ?_
    obtain ⟨k, v, -, hv⟩ := (Attempts.halts_iff _).mp h
    cases v <;> cases hv
  rw [publishObs, Attempts.upTo_of_not_halts _ hends]

/-- In every run with the file, a member of the puts of a signal is zero. -/
def DeadIn (env : Env) (params : QString) (u : Uninit) (f : IniFile) (g : Kind) (k : Nat)
    (p : BitVec 32 × BitVec 32 → BitVec 32) : Prop :=
  ∀ r o events gw, gateway env params u f r o events = .ok gw →
    ∀ x, Obs.put (.ofSignal g k x) ∈ gw.trace → p x = 0

/-- A run that shows what a reply of ones leaves. -/
theorem exists_run_ones {env : Env} {params : QString} {u : Uninit} {f : IniFile} {c : Connector}
    (hmode : params ≠ simul) (hret : f.ret = .success)
    (hc : readLines env (.new params u) f.lines = .ok c) {g : Kind} {k : Nat}
    (hk : k < c.layout.num g) :
    ∃ r o events gw, gateway env params u f r o events = .ok gw ∧
      Obs.put (.ofSignal g k (shownQuality c.layout k [c.layout.allOnes] g,
        shownValue c.layout k [c.layout.allOnes] g)) ∈ gw.trace := by
  have hparams : c.mParams ≠ simul := (readLines_mParams hc).trans_ne hmode
  refine ⟨.pending, fun _ => .ok, [.reply c.layout.allOnes, .tick .failed fun _ => .ok], _,
    gateway_ok.mpr ⟨c, hc, rfl⟩, ?_⟩
  rw [hret, c.start_polling hparams, ((readLines_fresh hc).polling_run .pending _ rfl).2]
  refine List.mem_append_right _ ?_
  have hplan : Value.ofSignal g k (shownQuality c.layout k [c.layout.allOnes] g,
      shownValue c.layout k [c.layout.allOnes] g) ∈ c.setup.plan [c.layout.allOnes] :=
    Layout.ofSignal_mem_plan.mpr ⟨hk, rfl⟩
  have hput := publishObs_ok (c.setup.plan [c.layout.allOnes])
  simp [mirror, Sent.waits, hput, hplan]

/-- **Dead signals.**  The value of a signal is zero in every run with the file exactly when no
register writes it, and its quality is good in every run exactly when no register writes that. -/
theorem dead_iff {env : Env} {params : QString} {u : Uninit} {f : IniFile} {c : Connector}
    (hmode : params ≠ simul) (hret : f.ret = .success)
    (hc : readLines env (.new params u) f.lines = .ok c) {g : Kind} {k : Nat}
    (hk : k < c.layout.num g) :
    (DeadIn env params u f g k Prod.snd ↔ ∀ i, ¬ c.layout.writesValue g k i) ∧
      (DeadIn env params u f g k Prod.fst ↔ ∀ i, ¬ c.layout.writesQuality g k i) := by
  obtain ⟨r, o, events, gw, hrun, hput⟩ := exists_run_ones hmode hret hc hk
  have hcell : ∀ r o events gw, gateway env params u f r o events = .ok gw →
      ∀ x, Obs.put (.ofSignal g k x) ∈ gw.trace →
        ∃ rs, x = (shownQuality c.layout k rs g, shownValue c.layout k rs g) := by
    intro r o events gw hrun x hx
    obtain ⟨pre, post, htrace⟩ := List.append_of_mem hx
    have hmem := put_mem_plan hmode hrun htrace
    rw [gateway_setup hrun hc] at hmem
    exact ⟨received pre, (Layout.ofSignal_mem_plan.mp hmem).2⟩
  refine ⟨⟨fun hdead i hw => ?_, fun hnone r o events gw hrun x hx => ?_⟩,
    fun hdead i hw => ?_, fun hnone r o events gw hrun x hx => ?_⟩
  · exact shownValue_ones hk hw (hdead r o events gw hrun _ hput)
  · obtain ⟨rs, rfl⟩ := hcell r o events gw hrun x hx
    exact shownValue_dead hnone rs
  · exact shownQuality_ones hw (hdead r o events gw hrun _ hput)
  · obtain ⟨rs, rfl⟩ := hcell r o events gw hrun x hx
    exact shownQuality_dead hnone rs

/-- The second integer signal of a poll of `41` registers has no register. -/
theorem dead_second :
    DeadIn ⟨fun _ => 0, fun _ => ⟨0, 0, 0, 0⟩⟩ "--WORK".toList ⟨0, 0, 0⟩
      (.complete ["Num_rgstr=41".toList, "integer".toList, "Signal1=I,5239,5262,1".toList,
        "Signal2=J,5240,5262,1".toList]) .int 1 Prod.snd := by
  obtain ⟨c, hc, hint, hhold⟩ : ∃ c, readLines ⟨fun _ => 0, fun _ => ⟨0, 0, 0, 0⟩⟩
      (.new "--WORK".toList ⟨0, 0, 0⟩) ["Num_rgstr=41".toList, "integer".toList,
        "Signal1=I,5239,5262,1".toList, "Signal2=J,5240,5262,1".toList] = .ok c ∧
      c.layout.num .int = 2 ∧ c.layout.numHold = 41 :=
    ⟨_, rfl, rfl, rfl⟩
  refine (dead_iff (by decide) rfl hc (g := .int) (k := 1) (by omega)).1.mpr fun i hw => ?_
  obtain ⟨-, -, hlt⟩ : i = 40 + 1 ∧ (1 < 10 ∧ 40 + 1 < c.layout.numHold) := hw
  omega

end GateRasu
