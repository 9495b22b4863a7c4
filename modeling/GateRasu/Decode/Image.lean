import GateRasu.Decode.Reply

/-!
# The register image

What a reply is meant to say: the register image gives every signal a value and a
quality, as numbers, from the position of the signal alone.  An analog signal is
two registers, low half first.  An integer signal is one register, a discrete
signal one bit.  A quality is two bits, failure and simulation.

The decoder shows the image of a reply only in part.

* `discrete_unpacked_iff`: `readBit` writes the last word of the discrete vector
  and no other, so the signals of the full words keep what they had.
* `quality_map_iff`: the window of `readMessage` ends seven registers after the
  offset, so a discrete signal from the sixteenth on keeps its quality.
-/

namespace GateRasu

open Checked (OutOfRange)
open Scan (scanM)
open WSSignal (setQuality)

namespace Image

/-- The register `i` of a reply. -/
def word (values : List (BitVec 16)) (i : Nat) : Nat := (values.getD i 0).toNat

/-- Bit `b` of the register `i` of a reply. -/
def bit (values : List (BitVec 16)) (i b : Nat) : Nat := word values i / 2 ^ b % 2

/-- The value of a signal. -/
def value (values : List (BitVec 16)) : Kind → Nat → Nat
  | .ana, k => word values (2 * k) + 65536 * word values (2 * k + 1)
  | .dis, k => bit values (mSumAReg + mSumIntReg + k / 16) (k % 16)
  | .int, k => word values (mSumAReg + k)

/-- The number of registers before the quality registers of a kind. -/
def sectionStart : Kind → Nat
  | .ana => 0
  | .int => 3
  | .dis => 5

/-- The quality of a signal, with the quality registers from `off` on. -/
def quality (off : Nat) (values : List (BitVec 16)) (g : Kind) (k : Nat) : Nat :=
  bit values (off + sectionStart g + k / 8) (k % 8) +
    256 * bit values (off + sectionStart g + k / 8) (k % 8 + 8)

theorem qualSection_eq (g : Kind) : Layout.qualSection g = (sectionStart g : Int) := by
  cases g <;> rfl

theorem getD_of_getElem? {values : List (BitVec 16)} {i : Nat} {v : BitVec 16}
    (h : values[i]? = some v) : word values i = v.toNat := by
  rw [word, List.getD_eq_getElem?_getD, h]
  rfl

end Image

/-- The quality register of a signal lies within the sections. -/
theorem Image.sectionStart_lt {c : Connector} (hna : c.maASignals.length ≤ 20)
    (hnint : c.maIntSignals.length ≤ 10) {g : Kind} {k : Nat} (hk : k < (c.signals g).length) :
    sectionStart g + k / 8 < 5 + (c.maDSignals.length + 7) / 8 := by
  cases g with
  | ana =>
      have hk' : k < c.maASignals.length := hk
      show 0 + k / 8 < _
      omega
  | int =>
      have hk' : k < c.maIntSignals.length := hk
      show 3 + k / 8 < _
      omega
  | dis =>
      have hk' : k < c.maDSignals.length := hk
      show 5 + k / 8 < _
      omega

/-- Only discrete signals have a quality register beyond the window. -/
theorem Image.dis_of_beyond {c : Connector} (hna : c.maASignals.length ≤ 20)
    (hnint : c.maIntSignals.length ≤ 10) {g : Kind} {k : Nat} (hk : k < (c.signals g).length)
    (hwin : 7 ≤ sectionStart g + k / 8) : g = .dis ∧ 16 ≤ k := by
  cases g with
  | ana =>
      have hk' : k < c.maASignals.length := hk
      have hwin' : 7 ≤ 0 + k / 8 := hwin
      omega
  | int =>
      have hk' : k < c.maIntSignals.length := hk
      have hwin' : 7 ≤ 3 + k / 8 := hwin
      omega
  | dis =>
      have hwin' : 7 ≤ 5 + k / 8 := hwin
      exact ⟨rfl, by omega⟩

/-! ## Discrete values -/

/-- Every discrete signal shows its bit of the reply. -/
def DiscreteShown (values : List (BitVec 16)) (c : Connector) : Prop :=
  ∀ d s, c.maDSignals[d]? = some s → s.sigDValue.toNat = Image.value values .dis d

namespace Connector

/-- A signal of the last word takes its bit. -/
theorem sigDValue_of_last {c : Connector} {values : List (BitVec 16)} {d : Nat} {s s' : WSSignal}
    (hnd : c.maDSignals.length ≤ 160) (hlen : 60 ≤ values.length)
    (hhold : 60 ≤ c.mNumHoldRegs.toNat) (hd : c.maDSignals.length / 16 * 16 ≤ d)
    (hs : c.maDSignals[d]? = some s) (hs' : (c.afterUnit values).maDSignals[d]? = some s') :
    s'.sigDValue.toNat = Image.value values .dis d := by
  have hlt : d < c.maDSignals.length := (List.getElem?_eq_some_iff.mp hs).1
  have hreg : 50 + d / 16 < values.length := by omega
  have hcell := afterUnit_getElem? c values .dis d
  simp only [signals] at hcell
  rw [hs', hs, Option.map_some, Option.some.injEq] at hcell
  have hwrite : c.layout.writesValue .dis d (50 + d / 16) := by
    refine ⟨⟨by omega, by omega, ?_⟩, hd, ?_⟩
    · show 50 + d / 16 ≤ 50 + c.maDSignals.length / 16
      omega
    · show 50 + d / 16 < c.mNumHoldRegs.toNat
      omega
  have hlast : ∀ j, 50 + d / 16 < j → j < values.length → ¬ c.layout.writesValue .dis d j := by
    intro j hj _ hw
    have hw' : j ≤ 50 + c.maDSignals.length / 16 := hw.1.2.2
    omega
  have hval := value_dis_cellScan (H := c.maAIntValue ++ c.layout.staged values) s
    (List.getElem?_eq_getElem hreg) hwrite hlast
  rw [← hcell] at hval
  have hword : Image.word values (mSumAReg + mSumIntReg + d / 16) = values[50 + d / 16].toNat :=
    Image.getD_of_getElem? (List.getElem?_eq_getElem hreg)
  show (WSSignal.value .dis s').toNat = _
  rw [hval, bitAt_toNat _ (Nat.mod_lt _ (by decide)), Image.value, Image.bit, hword]

/-- A signal of a full word keeps its value. -/
theorem sigDValue_of_full {c : Connector} {values : List (BitVec 16)} {d : Nat} {s s' : WSSignal}
    (hd : d < c.maDSignals.length / 16 * 16) (hs : c.maDSignals[d]? = some s)
    (hs' : (c.afterUnit values).maDSignals[d]? = some s') : s'.sigDValue = s.sigDValue := by
  have hcell := afterUnit_getElem? c values .dis d
  simp only [signals] at hcell
  rw [hs', hs, Option.map_some, Option.some.injEq] at hcell
  rw [hcell]
  show WSSignal.value .dis (cellScan _ _ 0 values .dis d s) = WSSignal.value .dis s
  refine value_cellScan_of_not_writes s fun j _ _ hw => ?_
  have hw' : c.maDSignals.length / 16 * 16 ≤ d := hw.2.1
  omega

end Connector

/-- A reply that covers all data registers shows every discrete signal exactly when
the signals of the full words already had their bits.  With fewer than sixteen
discrete signals there are none of these. -/
theorem discrete_unpacked_iff {c : Connector} (values : List (BitVec 16))
    (hnd : c.maDSignals.length ≤ 16 * mSumDReg)
    (hlen : mSumAReg + mSumIntReg + mSumDReg ≤ values.length)
    (hhold : mSumAReg + mSumIntReg + mSumDReg ≤ c.mNumHoldRegs.toNat) :
    ∃ c', readReady c (.noError values) = .ok c' ∧
      c'.maDSignals.length = c.maDSignals.length ∧
      (DiscreteShown values c' ↔
        ∀ d s, d < c.maDSignals.length / 16 * 16 → c.maDSignals[d]? = some s →
          s.sigDValue.toNat = Image.value values .dis d) := by
  have hlength : (c.afterUnit values).maDSignals.length = c.maDSignals.length :=
    List.length_mapIdx
  refine ⟨c.afterUnit values, c.readUnit_ok values, hlength, ?_⟩
  constructor
  · intro hshown d s hd hs
    have hlt : d < (c.afterUnit values).maDSignals.length :=
      hlength.symm ▸ (List.getElem?_eq_some_iff.mp hs).1
    have hs' := List.getElem?_eq_getElem hlt
    rw [← Connector.sigDValue_of_full hd hs hs']
    exact hshown d _ hs'
  · intro hfull d s' hs'
    have hlt : d < c.maDSignals.length := hlength ▸ (List.getElem?_eq_some_iff.mp hs').1
    have hs := List.getElem?_eq_getElem hlt
    by_cases hd : d < c.maDSignals.length / 16 * 16
    · rw [Connector.sigDValue_of_full hd hs hs']
      exact hfull d _ hd hs
    · exact Connector.sigDValue_of_last hnd hlen hhold (Nat.le_of_not_lt hd) hs hs'

/-- Fifteen signals have no full word. -/
theorem discrete_unpacked_fifteen :
    ∃ c', readReady (.plain 0 15 0) (.noError (List.replicate 66 1)) = .ok c' ∧
      DiscreteShown (List.replicate 66 1) c' := by
  obtain ⟨c', hrun, -, hiff⟩ := discrete_unpacked_iff (c := .plain 0 15 0)
    (List.replicate 66 1) (by decide) (by decide) (by decide)
  exact ⟨c', hrun, hiff.mpr fun d s hd _ => absurd hd (Nat.not_lt_zero d)⟩

/-- Of sixteen signals none takes the bit of the only word set. -/
theorem discrete_not_unpacked :
    let values := (List.replicate 66 0).set 50 1
    ∃ c', readReady (.plain 0 16 0) (.noError values) = .ok c' ∧ ¬ DiscreteShown values c' := by
  refine ⟨(Connector.plain 0 16 0).afterUnit ((List.replicate 66 0).set 50 1),
    Connector.readUnit_ok _ _, fun hshown => ?_⟩
  have h := hshown 0 (.ofInt 255 [] 0 0 0) (by decide)
  revert h
  decide

/-! ## Qualities -/

/-- Every signal shows its quality in the reply. -/
def QualityShown (values : List (BitVec 16)) (c : Connector) : Prop :=
  ∀ (g : Kind) (k : Nat) s, (c.signals g)[k]? = some s →
    s.sigQualValue.toNat = Image.quality c.qualOffset.toNat values g k

/-- The second connector has the signals of the first, with other qualities. -/
def OnlyQualities (c c' : Connector) : Prop :=
  ∀ (g : Kind) (k : Nat), ∃ q, (c'.signals g)[k]? = ((c.signals g)[k]?).map (setQuality q)

namespace Connector

/-- The quality of a signal in the window of the decoder. -/
theorem sigQualValue_of_window {c : Connector} {values : List (BitVec 16)} {g : Kind} {k : Nat}
    {s s' : WSSignal} (hoff : 0 ≤ c.qualOffset) (hwin : Image.sectionStart g + k / 8 < 7)
    (hhold : c.qualOffset.toNat + Image.sectionStart g + k / 8 < c.mNumHoldRegs.toNat)
    (hlen : c.qualOffset.toNat + Image.sectionStart g + k / 8 < values.length)
    (hs : (c.signals g)[k]? = some s) (hs' : ((c.afterUnit values).signals g)[k]? = some s') :
    s'.sigQualValue.toNat = Image.quality c.qualOffset.toNat values g k := by
  have hcell := afterUnit_getElem? c values g k
  rw [hs', hs, Option.map_some, Option.some.injEq] at hcell
  have hreg : c.layout.qualReg g k = (c.qualOffset.toNat + Image.sectionStart g + k / 8 : Nat) := by
    have hq : c.layout.qualOffset = c.qualOffset := rfl
    rw [Layout.qualReg, Image.qualSection_eq, hq]
    omega
  have hguard : 0 ≤ c.layout.qualOffset ∧ c.layout.qualReg g k < c.layout.qualOffset + 7 ∧
      c.layout.qualReg g k < c.layout.numHold := by
    rw [hreg]
    have hq : c.layout.qualOffset = c.qualOffset := rfl
    have hn : c.layout.numHold = c.mNumHoldRegs.toNat := rfl
    omega
  rw [hcell, sigQualValue_cellScan_zero, if_pos hguard, hreg, Int.toNat_natCast,
    List.getElem?_eq_getElem hlen, Option.elim_some, wordQuality_toNat, Image.quality, Image.bit,
    Image.bit, Image.getD_of_getElem? (List.getElem?_eq_getElem hlen)]

/-- The quality of a signal beyond the window of the decoder. -/
theorem sigQualValue_of_beyond {c : Connector} {values : List (BitVec 16)} {g : Kind} {k : Nat}
    {s s' : WSSignal} (hwin : 7 ≤ Image.sectionStart g + k / 8)
    (hs : (c.signals g)[k]? = some s) (hs' : ((c.afterUnit values).signals g)[k]? = some s') :
    s'.sigQualValue = s.sigQualValue := by
  have hcell := afterUnit_getElem? c values g k
  rw [hs', hs, Option.map_some, Option.some.injEq] at hcell
  rw [hcell, sigQualValue_cellScan_zero]
  refine if_neg ?_
  rintro ⟨-, h, -⟩
  rw [Layout.qualReg, Image.qualSection_eq] at h
  omega

/-- The registers from the sixtieth on write no value of twenty analog signals. -/
theorem not_writesValue_of_ge {c : Connector} (hna : c.maASignals.length ≤ 20) {g : Kind}
    {k j : Nat} (hk : k < (c.signals g).length) (hj : 60 ≤ j) :
    ¬ c.layout.writesValue g k j := by
  intro hw
  cases g with
  | ana =>
      have hk' : k < c.maASignals.length := hk
      have hw' : j = 2 * k + 1 := hw.1
      omega
  | int =>
      have hw' : j = 40 + k ∧ k < 10 := ⟨hw.1, hw.2.1⟩
      omega
  | dis =>
      have hw' : j < 60 := hw.1.2.1
      omega

/-- The registers from the sixtieth on, in a state that has staged the registers before. -/
theorem onlyQualities_scanM {c : Connector} {off : Nat} (values : List (BitVec 16))
    (hstage : min off c.layout.stagedNum ≤ c.maAIntValue.length) (hoff : 60 ≤ off)
    (hna : c.maASignals.length ≤ 20) :
    ∃ c', scanM readValue c off values = .ok c' ∧ OnlyQualities c c' := by
  refine ⟨_, scanM_ok values c off hstage, fun g k => ?_⟩
  rw [mapSignals_getElem?, withStaging_signals]
  cases hs : (c.signals g)[k]? with
  | none => exact ⟨0, rfl⟩
  | some s =>
      have hk : k < (c.signals g).length := (List.getElem?_eq_some_iff.mp hs).1
      obtain ⟨q, hq⟩ := exists_setQuality_cellScan (L := c.layout)
        (H := c.maAIntValue ++ values.take (c.layout.stagedNum - off)) values s
        fun j hj (_ : j < off + values.length) =>
          not_writesValue_of_ge hna hk (Nat.le_trans hoff hj)
      exact ⟨q, congrArg some hq⟩

/-- The scan of a reply, stopped before the register `off`.  What follows changes qualities
only. -/
theorem readReady_split {c : Connector} (values : List (BitVec 16)) {off : Nat}
    (hoff : 60 ≤ off) (hlen : off ≤ values.length) (hna : c.maASignals.length ≤ 20) :
    ∃ c₁, scanM readValue c 0 (values.take off) = .ok c₁ ∧
      scanM readValue c₁ off (values.drop off) = .ok (c.afterUnit values) ∧
      OnlyQualities c₁ (c.afterUnit values) := by
  have hfirst := scanM_ok (values.take off) c 0 (by omega)
  rw [Nat.sub_zero] at hfirst
  have hnum : ∀ φ, ((c.withStaging (c.maAIntValue ++
      (values.take off).take c.layout.stagedNum)).mapSignals φ).maASignals.length ≤ 20 := fun φ =>
    (List.length_mapIdx (l := c.maASignals) (f := φ .ana)).trans_le hna
  have hstage : min off c.layout.stagedNum ≤
      (c.maAIntValue ++ (values.take off).take c.layout.stagedNum).length := by
    rw [List.length_append, List.length_take, List.length_take]
    omega
  obtain ⟨c₂, hsecond, honly⟩ := onlyQualities_scanM (values.drop off)
    (by rw [mapSignals_layout, withStaging_layout]; exact hstage) hoff
    (hnum (cellScan c.layout (c.maAIntValue ++ (values.take off).take c.layout.stagedNum) 0
      (values.take off)))
  have hwhole := Scan.scanM_append_ok hfirst (values.drop off)
  rw [List.take_append_drop, List.length_take, Nat.min_eq_left hlen, Nat.zero_add,
    hsecond] at hwhole
  have hafter : c₂ = c.afterUnit values :=
    Except.ok.inj (hwhole.symm.trans (c.readUnit_ok values))
  exact ⟨_, hfirst, hafter ▸ hsecond, hafter ▸ honly⟩

end Connector

/-- **The quality map.**  The registers from the offset on change qualities only.  Every
signal shows its quality exactly when the discrete signals from the sixteenth on already
had theirs: the window of `readMessage` is seven registers, five of them analog and
integer. -/
theorem quality_map_iff {c : Connector} (values : List (BitVec 16))
    (hna : c.maASignals.length ≤ 20) (hnint : c.maIntSignals.length ≤ 10)
    (hnd : c.maDSignals.length ≤ 160) (hoff : 60 ≤ c.qualOffset)
    (hlen : c.qualOffset.toNat + 5 + (c.maDSignals.length + 7) / 8 ≤ values.length)
    (hhold : c.qualOffset.toNat + 5 + (c.maDSignals.length + 7) / 8 ≤ c.mNumHoldRegs.toNat) :
    ∃ c₁ c₂, scanM readValue c 0 (values.take c.qualOffset.toNat) = .ok c₁ ∧
      scanM readValue c₁ c.qualOffset.toNat (values.drop c.qualOffset.toNat) = .ok c₂ ∧
      readReady c (.noError values) = .ok c₂ ∧
      (QualityShown values c₂ ∧ OnlyQualities c₁ c₂ ↔
        ∀ d s, 16 ≤ d → c.maDSignals[d]? = some s →
          s.sigQualValue.toNat = Image.quality c.qualOffset.toNat values .dis d) := by
  obtain ⟨c₁, hfirst, hsecond, honly⟩ :=
    Connector.readReady_split values (show 60 ≤ c.qualOffset.toNat by omega) (by omega) hna
  refine ⟨c₁, c.afterUnit values, hfirst, hsecond, c.readUnit_ok values, ?_⟩
  have hnum : ∀ g, ((c.afterUnit values).signals g).length = (c.signals g).length := by
    intro g
    exact congrFun (congrArg Layout.num (c.afterUnit_layout values)) g
  constructor
  · rintro ⟨hshown, -⟩ d s hd hs
    have hlt : d < ((c.afterUnit values).signals .dis).length :=
      (hnum .dis).symm ▸ (List.getElem?_eq_some_iff.mp hs).1
    have hs' := List.getElem?_eq_getElem hlt
    have hwin : 7 ≤ Image.sectionStart .dis + d / 8 := by
      show 7 ≤ 5 + d / 8
      omega
    rw [← Connector.sigQualValue_of_beyond hwin hs hs']
    exact hshown .dis d _ hs'
  · refine fun hbeyond => ⟨fun g k s' hs' => ?_, honly⟩
    have hlt : k < (c.signals g).length := hnum g ▸ (List.getElem?_eq_some_iff.mp hs').1
    have hs := List.getElem?_eq_getElem hlt
    show _ = Image.quality c.qualOffset.toNat values g k
    have hreg := Image.sectionStart_lt hna hnint hlt
    by_cases hwin : Image.sectionStart g + k / 8 < 7
    · exact Connector.sigQualValue_of_window (by omega) hwin (by omega) (by omega) hs hs'
    · rw [Connector.sigQualValue_of_beyond (Nat.le_of_not_lt hwin) hs hs']
      obtain ⟨rfl, hk⟩ := Image.dis_of_beyond hna hnint hlt (Nat.le_of_not_lt hwin)
      exact hbeyond k _ hk hs

/-- Sixteen discrete signals fit the window. -/
theorem quality_map_sixteen :
    let c : Connector := { Connector.plain 20 16 10 with mNumHoldRegs := 70 }
    ∃ c₁ c₂, scanM readValue c 0 ((List.replicate 70 0x0101).take 60) = .ok c₁ ∧
      readReady c (.noError (List.replicate 70 0x0101)) = .ok c₂ ∧
      QualityShown (List.replicate 70 0x0101) c₂ ∧ OnlyQualities c₁ c₂ := by
  intro c
  obtain ⟨c₁, c₂, hfirst, -, hrun, hiff⟩ := quality_map_iff (c := c)
    (List.replicate 70 0x0101) (by decide) (by decide) (by decide) (by decide)
    (by decide) (by decide)
  have hoff : c.qualOffset.toNat = 60 := by decide
  rw [hoff] at hfirst
  refine ⟨c₁, c₂, hfirst, hrun, hiff.mpr ?_⟩
  intro d s hd hs
  have hnone : c.maDSignals[d]? = none := List.getElem?_eq_none hd
  rw [hnone] at hs
  cases hs

/-- The seventeenth does not: its quality stays good. -/
theorem quality_not_mapped :
    let c : Connector := { Connector.plain 0 17 0 with mNumHoldRegs := 70 }
    let values := (List.replicate 70 0).set 67 0x0101
    ∃ c₂, readReady c (.noError values) = .ok c₂ ∧ ¬ QualityShown values c₂ := by
  intro c values
  refine ⟨c.afterUnit values, c.readUnit_ok _, fun hshown => ?_⟩
  have h := hshown .dis 16 (.ofInt 255 [] 0 0 0)
  revert h
  decide

end GateRasu
