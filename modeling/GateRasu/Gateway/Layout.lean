import GateRasu.Decode.Declared
import GateRasu.Gateway.Runs

/-!
# The layout of an ini file

`Init` polls with whatever an ini file declares.  Here the blocks and the places of the
decoder meet the numbers and the addresses of a file.  A loaded connector has an empty
staging vector, so its first reply is the case in which the results on blocks are
equivalences.
-/

namespace GateRasu

open WSSignal (value)

/-- A program with the ini file `f` polls with the connector `c`. -/
def Polls (f : IniFile) (c : Connector) : Prop :=
  ∃ env params u r o g, (Connector.new params u).init env f r o = .ok g ∧ g.polling = true ∧
    g.conn = c

/-- The start with an ini file, in a memory full of zeros and with no section open. -/
def startWith (lines : List QString) : Except Checked.OutOfRange Gateway :=
  (Connector.new [] ⟨-1, 0, 0⟩).init ⟨fun _ => 0, fun _ => ⟨0, 0, 0, 0⟩⟩ (.complete lines) .pending
    fun _ => .ok

theorem polls_of_startWith {lines : List QString} {g : Gateway} (h : startWith lines = .ok g)
    (hpolling : g.polling = true) : Polls (.complete lines) g.conn :=
  ⟨_, _, _, _, _, g, h, hpolling, rfl⟩

theorem readLines_maAIntValue {env : Env} {lines : List QString} {c c' : Connector}
    (h : readLines env c lines = .ok c') : c'.maAIntValue = c.maAIntValue := by
  refine readLines_inv (P := fun c' => c'.maAIntValue = c.maAIntValue) ?_ ?_ ?_ rfl h
  · intro c₁ v s hc
    cases s <;> exact hc
  · exact fun _ _ hc => hc
  · intro c₁ f g hc
    cases g <;> exact hc

theorem start_maAIntValue (c : Connector) (ret : ReadRet) (r : Sent) (o : Nat → PutRet) :
    (c.start ret r o).conn.maAIntValue = c.maAIntValue := by
  cases ret with
  | failure => rfl
  | success =>
      rw [Connector.start]
      split
      · obtain ⟨v, hpublish⟩ := Gateway.publish_eq
          ⟨testSignals (countSignals c), false, 0, .noType, []⟩ o
        rw [hpublish]
        rfl
      · rw [Gateway.poll_conn]
        rfl

/-- The first reply finds an empty staging vector. -/
theorem Polls.maAIntValue {f : IniFile} {c : Connector} (h : Polls f c) : c.maAIntValue = [] := by
  obtain ⟨env, params, u, r, o, g, hinit, -, rfl⟩ := h
  rw [Connector.init_eq] at hinit
  cases hread : readLines env (.new params u) f.lines with
  | error e =>
      rw [hread] at hinit
      cases hinit
  | ok c =>
      rw [hread] at hinit
      cases hinit
      rw [start_maAIntValue, readLines_maAIntValue hread]
      rfl

/-! ## Blocks -/

/-- **The layout.**  A polling connector keeps its kinds apart in every reply exactly when its
blocks are apart, and it covers a kind exactly when the signals of the kind fit. -/
theorem layout_iff {f : IniFile} {c : Connector} (h : Polls f c) :
    ((∀ replies c', readReplies c replies = .ok c' → c'.Separated) ↔ c.layout.Separate) ∧
      ∀ g, (g = .dis → c.maDSignals.length < 16) →
        (c.Covers g ↔ c.layout.FitsValue g ∧ c.layout.FitsQuality g) := by
  refine ⟨⟨fun hsep => ?_, fun hsep replies c' hrun => ?_⟩,
    fun g hdis => Connector.covers_iff h.maAIntValue hdis⟩
  · exact (Connector.separated_iff h.maAIntValue).mp (hsep [] c rfl)
  · rw [Connector.readReplies_eq] at hrun
    cases hrun
    refine Connector.separated_of_separate ?_
    rw [Connector.afterReplies_layout]
    exact hsep

/-- One integer signal in a poll of the default size. -/
theorem layout_default :
    ∃ c, Polls (.complete ["integer".toList, "Signal1=I,5239,5262,1".toList]) c ∧
      (∀ replies c', readReplies c replies = .ok c' → c'.Separated) ∧ c.Covers .int := by
  obtain ⟨g, hinit, hpolling, hana, hint, hoff, hhold⟩ : ∃ g,
      startWith ["integer".toList, "Signal1=I,5239,5262,1".toList] = .ok g ∧ g.polling = true ∧
        g.conn.layout.num .ana = 0 ∧ g.conn.layout.num .int = 1 ∧
          g.conn.layout.qualOffset = 60 ∧ g.conn.layout.numHold = 66 :=
    ⟨_, rfl, rfl, rfl, rfl, rfl, rfl⟩
  have hpolls := polls_of_startWith hinit hpolling
  obtain ⟨hsep, hcov⟩ := layout_iff hpolls
  refine ⟨g.conn, hpolls, hsep.mpr (Layout.separate_of_regions ?_ ?_ ?_),
    (hcov .int fun h => by cases h).mpr ⟨?_, ?_⟩⟩
  · omega
  · omega
  · omega
  · rw [Layout.FitsValue]
    omega
  · rw [Layout.FitsQuality, Layout.qualReg, hint, hoff, hhold]
    decide

/-- With the qualities at the start of the poll, register `3` is a word of the second analog
signal and has the quality of the integer signal.  A poll of ten registers does not reach the
integer values. -/
theorem layout_not_total :
    (∃ c, Polls (.complete ["1st_qual_rgstr=5199".toList, "analog".toList,
        "Signal1=A,5199,5199,1".toList, "Signal2=B,5201,5199,1".toList, "integer".toList,
        "Signal3=I,5239,5202,1".toList]) c ∧ ¬ c.Separated) ∧
      ∃ c, Polls (.complete ["Num_rgstr=10".toList, "integer".toList,
        "Signal1=I,5239,5262,1".toList]) c ∧ ¬ c.Covers .int := by
  constructor
  · obtain ⟨g, hinit, hpolling, hana, hint, hoff, hhold⟩ : ∃ g,
        startWith ["1st_qual_rgstr=5199".toList, "analog".toList, "Signal1=A,5199,5199,1".toList,
          "Signal2=B,5201,5199,1".toList, "integer".toList, "Signal3=I,5239,5202,1".toList] =
            .ok g ∧ g.polling = true ∧
          g.conn.layout.num .ana = 2 ∧ g.conn.layout.num .int = 1 ∧
            g.conn.layout.qualOffset = 0 ∧ g.conn.layout.numHold = 66 :=
      ⟨_, rfl, rfl, rfl, rfl, rfl, rfl⟩
    have hpolls := polls_of_startWith hinit hpolling
    have hvalue : 3 ∈ g.conn.layout.valueBlock .ana := by
      rw [Layout.valueBlock, hana, hhold]
      decide
    have hquality : 3 ∈ g.conn.layout.qualityBlock .int := by
      rw [Layout.qualityBlock, hint, hoff, hhold]
      decide
    refine ⟨g.conn, hpolls, fun hsep => ?_⟩
    have hapart := (Connector.separated_iff hpolls.maAIntValue).mp hsep .ana .int (by decide)
    exact Finset.disjoint_left.mp hapart.2.1 hvalue hquality
  · obtain ⟨g, hinit, hpolling, hint, hhold⟩ : ∃ g,
        startWith ["Num_rgstr=10".toList, "integer".toList, "Signal1=I,5239,5262,1".toList] =
          .ok g ∧ g.polling = true ∧ g.conn.layout.num .int = 1 ∧ g.conn.layout.numHold = 10 :=
      ⟨_, rfl, rfl, rfl, rfl⟩
    have hpolls := polls_of_startWith hinit hpolling
    refine ⟨g.conn, hpolls, fun hcov => ?_⟩
    have hfits := ((Connector.covers_iff hpolls.maAIntValue fun h => by cases h).mp hcov).1
    rw [Layout.FitsValue] at hfits
    omega

/-! ## Places -/

/-- **Declared registers.**  A polling connector shows a signal by its declared registers in the
first reply exactly when they are the registers of its place, or it does not show it at all. -/
theorem declared_iff {f : IniFile} {c : Connector} (h : Polls f c) {g : Kind} {k : Nat}
    {s : WSSignal} (hs : (c.signals g)[k]? = some s) :
    ((g = .dis → c.maDSignals.length < 16) →
      (c.Follows (value g) g k (s.declared g) ↔
        (c.layout.ReachesValue g k →
          s.sigHoldW.toNat = c.mStartReg.toNat + Layout.valueReg g k))) ∧
      (c.Follows WSSignal.sigQualValue g k [s.sigQualW.toNat] ↔
        (c.layout.ReachesQuality g k →
          (s.sigQualW.toNat : Int) = c.mStartReg.toNat + c.layout.qualReg g k)) :=
  ⟨fun hdis => Connector.follows_value_iff h.maAIntValue hs hdis,
    Connector.follows_quality_iff hs⟩

/-- The file declares every register inside the poll. -/
def InPoll (c : Connector) : Prop :=
  ∀ g, ∀ s ∈ c.signals g, ∀ a ∈ [s.sigHoldW, s.sigQualW],
    c.mStartReg.toNat ≤ a.toNat ∧ a.toNat < c.mStartReg.toNat + c.mNumHoldRegs.toNat

/-- An integer signal at the place of its declaration. -/
theorem declared_default :
    ∃ c s, Polls (.complete ["integer".toList, "Signal1=I,5239,5262,1".toList]) c ∧
      c.maIntSignals[0]? = some s ∧ c.Follows (value .int) .int 0 (s.declared .int) ∧
        c.Follows WSSignal.sigQualValue .int 0 [s.sigQualW.toNat] := by
  obtain ⟨g, s, hinit, hpolling, hs, hhold, hqual, hstart, hoff⟩ : ∃ g s,
      startWith ["integer".toList, "Signal1=I,5239,5262,1".toList] = .ok g ∧
        g.polling = true ∧ g.conn.maIntSignals[0]? = some s ∧ s.sigHoldW = 5239 ∧
          s.sigQualW = 5262 ∧ g.conn.mStartReg = 5199 ∧ g.conn.layout.qualOffset = 60 :=
    ⟨_, _, rfl, rfl, rfl, rfl, rfl, rfl, rfl⟩
  have hpolls := polls_of_startWith hinit hpolling
  obtain ⟨hvalue, hquality⟩ := declared_iff hpolls (g := .int) hs
  refine ⟨g.conn, s, hpolls, hs, (hvalue fun h => by cases h).mpr fun _ => ?_,
    hquality.mpr fun _ => ?_⟩
  · rw [hhold, hstart]
    rfl
  · rw [hqual, hstart, Layout.qualReg, hoff]
    rfl

/-- An integer signal that is declared at the first register of the poll. -/
theorem declared_not_followed :
    ∃ c s, Polls (.complete ["integer".toList, "Signal1=I,5199,5259,1".toList]) c ∧ InPoll c ∧
      c.maIntSignals[0]? = some s ∧ ¬ c.Follows (value .int) .int 0 (s.declared .int) := by
  obtain ⟨g, s, hinit, hpolling, hana, hdis, hint, hhold, hqual, hstart, hnum⟩ : ∃ g s,
      startWith ["integer".toList, "Signal1=I,5199,5259,1".toList] = .ok g ∧
        g.polling = true ∧ g.conn.signals .ana = [] ∧ g.conn.signals .dis = [] ∧
          g.conn.signals .int = [s] ∧ s.sigHoldW = 5199 ∧ s.sigQualW = 5259 ∧
            g.conn.mStartReg = 5199 ∧ g.conn.mNumHoldRegs = 66 :=
    ⟨_, _, rfl, rfl, rfl, rfl, rfl, rfl, rfl, rfl, rfl⟩
  have hpolls := polls_of_startWith hinit hpolling
  have hs : (g.conn.signals .int)[0]? = some s := by
    rw [hint]
    rfl
  refine ⟨g.conn, s, hpolls, ?_, hs, fun hfollows => ?_⟩
  · intro kind s' hs' a ha
    have hs'' : s' = s := by
      cases kind with
      | ana => exact absurd (hana ▸ hs') List.not_mem_nil
      | dis => exact absurd (hdis ▸ hs') List.not_mem_nil
      | int => exact List.mem_singleton.mp (hint ▸ hs')
    rw [hs'', hhold, hqual, List.mem_cons, List.mem_singleton] at ha
    rw [hstart, hnum]
    rcases ha with rfl | rfl
    · decide
    · decide
  · have hplace := (Connector.follows_int_iff hs _).mp hfollows
    have hnum' : g.conn.layout.numHold = 66 := congrArg BitVec.toNat hnum
    rw [hnum', hhold, hstart] at hplace
    revert hplace
    decide

end GateRasu
