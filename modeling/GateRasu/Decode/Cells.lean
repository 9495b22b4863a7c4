import GateRasu.Decode.Reader

/-!
# What one register does to one signal

`readMessage` is a program over vectors.  Here it becomes a function of single
signals: the register `i` writes the value of a signal or leaves it alone
(`writesValue`), and likewise its quality (`writesQuality`).  `readMessage_ok` is
the equation, and it is the only result of this module the later ones use.

The equation needs one fact about the staging vector: before register `i` it has
at least the words of the registers below `i` that the analog branch stages
(`StagedUpTo`).  Under it no access of `readMessage` is out of range.
-/

namespace GateRasu

open Checked (OutOfRange)

/-! ## Layouts -/

/-- What the decoder knows of a configuration: the number of registers polled, the
offset of the quality registers and the number of signals of each kind. -/
structure Layout where
  numHold : Nat
  qualOffset : Int
  num : Kind → Nat
  numHold_lt : numHold < 2 ^ 16
  qualOffset_bounds : -2 ^ 16 < qualOffset ∧ qualOffset < 2 ^ 16

namespace Connector

/-- The layout of a connector. -/
def layout (c : Connector) : Layout where
  numHold := c.mNumHoldRegs.toNat
  qualOffset := c.qualOffset
  num g := (c.signals g).length
  numHold_lt := c.mNumHoldRegs.isLt
  qualOffset_bounds := by
    have h₁ := c.mStartQualReg.isLt
    have h₂ := c.mStartReg.isLt
    unfold qualOffset
    omega

@[simp] theorem mapSignals_layout (c : Connector) (φ) : (c.mapSignals φ).layout = c.layout := by
  simp only [layout, mapSignals_mNumHoldRegs, mapSignals_qualOffset, mapSignals_length]

@[simp] theorem stage_layout (c : Connector) (v : BitVec 16) : (c.stage v).layout = c.layout := by
  have h : ∀ g, (c.stage v).signals g = c.signals g := by
    intro g
    cases g <;> rfl
  simp only [layout, h]
  rfl

end Connector

namespace Layout

/-- The number of registers the analog branch stages. -/
def stagedNum (L : Layout) : Nat := min L.numHold (2 * L.num .ana + 1)

/-- The first register of a section of `readQualityReg`, from the offset on. -/
def qualSection : Kind → Int
  | .ana => 0
  | .int => 3
  | .dis => 5

/-- The register with the quality of a signal. -/
def qualReg (L : Layout) (g : Kind) (k : Nat) : Int := L.qualOffset + qualSection g + (k / 8 : Nat)

/-- The registers that write the value of a signal. -/
def writesValue (L : Layout) (g : Kind) (k i : Nat) : Prop :=
  match g with
  | .ana => i = 2 * k + 1 ∧ 2 * k + 1 < L.numHold
  | .int => i = 40 + k ∧ (k < 10 ∧ 40 + k < L.numHold)
  | .dis => (50 ≤ i ∧ i < 60 ∧ i ≤ 50 + L.num .dis / 16) ∧
      L.num .dis / 16 * 16 ≤ k ∧ i < L.numHold

/-- The registers that write the quality of a signal. -/
def writesQuality (L : Layout) (g : Kind) (k i : Nat) : Prop :=
  (i : Int) = L.qualReg g k ∧
    (0 ≤ L.qualOffset ∧ L.qualReg g k < L.qualOffset + 7 ∧ L.qualReg g k < L.numHold)

instance (L : Layout) (g : Kind) (k : Nat) : DecidablePred (L.writesValue g k) := fun i =>
  match g with
  | .ana => inferInstanceAs (Decidable (i = 2 * k + 1 ∧ _))
  | .int => inferInstanceAs (Decidable (i = 40 + k ∧ _))
  | .dis => inferInstanceAs (Decidable ((50 ≤ i ∧ _) ∧ _))

instance (L : Layout) (g : Kind) (k : Nat) : DecidablePred (L.writesQuality g k) := fun i =>
  inferInstanceAs (Decidable ((i : Int) = _ ∧ _))

end Layout

/-! ## Signals as cells -/

namespace WSSignal

/-- The member with the value of a signal of a kind. -/
def value : Kind → WSSignal → BitVec 32
  | .ana, s => s.sigAValue
  | .dis, s => s.sigDValue
  | .int, s => s.sigINTValue

/-- Write the value of a signal of a kind. -/
def setValue (x : BitVec 32) : Kind → WSSignal → WSSignal
  | .ana, s => { s with sigAValue := x }
  | .dis, s => { s with sigDValue := x }
  | .int, s => { s with sigINTValue := x }

/-- Write the quality of a signal. -/
def setQuality (x : BitVec 32) (s : WSSignal) : WSSignal := { s with sigQualValue := x }

@[simp] theorem value_setValue (g : Kind) (x : BitVec 32) (s : WSSignal) :
    value g (setValue x g s) = x := by
  cases g <;> rfl

@[simp] theorem setValue_value (g : Kind) (s : WSSignal) : setValue (value g s) g s = s := by
  cases g <;> rfl

@[simp] theorem value_setQuality (g : Kind) (x : BitVec 32) (s : WSSignal) :
    value g (setQuality x s) = value g s := by
  cases g <;> rfl

@[simp] theorem sigQualValue_setValue (g : Kind) (x : BitVec 32) (s : WSSignal) :
    (setValue x g s).sigQualValue = s.sigQualValue := by
  cases g <;> rfl

@[simp] theorem sigQualValue_setQuality (x : BitVec 32) (s : WSSignal) :
    (setQuality x s).sigQualValue = x := rfl

end WSSignal

open WSSignal (setValue setQuality)

/-- What the word `v` means as the value of a signal, over the staging vector `H`. -/
def wordValue (H : List (BitVec 16)) (g : Kind) (k : Nat) (v : BitVec 16) : BitVec 32 :=
  match g with
  | .ana => joinWords (H.getD (2 * k + 1) 0) (H.getD (2 * k) 0)
  | .int => v.setWidth 32
  | .dis => bitAt (v.setWidth 32) (k % 16)

/-- What the word `v` means as the quality of a signal. -/
def wordQuality (k : Nat) (v : BitVec 16) : BitVec 32 := qualityAt (v.setWidth 32) (k % 8)

/-- The effect of a register on the value of a signal. -/
def valueStep (L : Layout) (H : List (BitVec 16)) (i : Nat) (v : BitVec 16) (g : Kind) (k : Nat)
    (s : WSSignal) : WSSignal :=
  if L.writesValue g k i then setValue (wordValue H g k v) g s else s

/-- The effect of a register on the quality of a signal. -/
def qualityStep (L : Layout) (i : Nat) (v : BitVec 16) (g : Kind) (k : Nat) (s : WSSignal) :
    WSSignal :=
  if L.writesQuality g k i then setQuality (wordQuality k v) s else s

/-- The effect of a register on a signal. -/
def cellStep (L : Layout) (H : List (BitVec 16)) (i : Nat) (v : BitVec 16) (g : Kind) (k : Nat)
    (s : WSSignal) : WSSignal :=
  qualityStep L i v g k (valueStep L H i v g k s)

/-! ## The branches of `readMessage` -/

namespace Connector

/-- The effect of bit `i` of a register on the qualities of a section. -/
def onQualityBit (g : Kind) (start : Int) (u : Nat) (v : BitVec 16) (i : Nat) :
    Kind → Nat → WSSignal → WSSignal :=
  fun g' k s =>
    if g' = g ∧ (u : Int) = start + (k / 8 : Nat) ∧ k % 8 = i then
      setQuality (wordQuality k v) s
    else s

theorem readQualityBit_ok {c : Connector} {g : Kind} {start : Int} {u : Nat} (v : BitVec 16)
    {i : Nat} (hi : i < 8) (hs : start ≤ u) :
    readQualityBit c g (u - start) (v.setWidth 32) i =
      .ok (c.mapSignals (onQualityBit g start u v i)) := by
  refine (guarded_modifySignal _ (by omega)).trans ?_
  congr 1
  refine mapSignals_congr fun g' k s _ => ?_
  by_cases h : g' = g ∧ (u : Int) = start + (k / 8 : Nat) ∧ k % 8 = i
  · have hk : g' = g ∧ k = (8 * ((u : Int) - start) + i).toNat := ⟨h.1, by omega⟩
    rw [onSignal, onQualityBit, if_pos hk, if_pos h, wordQuality, h.2.2]
    rfl
  · have hk : ¬ (g' = g ∧ k = (8 * ((u : Int) - start) + i).toNat) := by
      rintro ⟨hg, hk⟩
      exact h ⟨hg, by omega, by omega⟩
    rw [onSignal, onQualityBit, if_neg hk, if_neg h]

/-- One section of `readQualityReg`, whatever the test of its lower bound is. -/
theorem qualitySection_ok {c : Connector} {g : Kind} {start : Int} {u : Nat} (v : BitVec 16)
    {i : Nat} (hi : i < 8) {lower : Prop} [Decidable lower] (hlower : lower ↔ start ≤ u) :
    (if lower ∧ (u : Int) < start + ceilQuot (c.signals g).length 8 then
        readQualityBit c g (u - start) (v.setWidth 32) i
      else return c) = .ok (c.mapSignals (onQualityBit g start u v i)) := by
  by_cases h : lower ∧ (u : Int) < start + ceilQuot (c.signals g).length 8
  · rw [if_pos h, readQualityBit_ok v hi (hlower.mp h.1)]
  · rw [if_neg h]
    have hid : c.mapSignals (onQualityBit g start u v i) = c.mapSignals fun _ _ s => s := by
      refine mapSignals_congr fun g' k s hk => if_neg ?_
      rintro ⟨rfl, hu, -⟩
      refine h ⟨hlower.mpr (by omega), ?_⟩
      unfold ceilQuot
      omega
    rw [hid, mapSignals_id]
    rfl

theorem qualOffset_bounds (c : Connector) : -2 ^ 16 < c.qualOffset ∧ c.qualOffset < 2 ^ 16 :=
  c.layout.qualOffset_bounds

theorem readQualityAna_ok {c : Connector} {u : Nat} (v : BitVec 16) {i : Nat} (hi : i < 8)
    (hoff : 0 ≤ c.qualOffset) :
    readQualityAna c u (v.setWidth 32) i =
      .ok (c.mapSignals (onQualityBit .ana c.qualOffset u v i)) := by
  refine qualitySection_ok (g := .ana) v hi ?_
  have hb := c.qualOffset_bounds
  unfold toUint
  omega

theorem readQualityInt_ok {c : Connector} {u : Nat} (v : BitVec 16) {i : Nat} (hi : i < 8) :
    readQualityInt c u (v.setWidth 32) i =
      .ok (c.mapSignals (onQualityBit .int (c.qualOffset + ceilQuot mSumAReg (2 * 8)) u v i)) :=
  qualitySection_ok (g := .int) v hi Iff.rfl

theorem readQualityDis_ok {c : Connector} {u : Nat} (v : BitVec 16) {i : Nat} (hi : i < 8) :
    readQualityDis c u (v.setWidth 32) i =
      .ok (c.mapSignals (onQualityBit .dis
        (c.qualOffset + ceilQuot mSumAReg (2 * 8) + ceilQuot mSumIntReg 8) u v i)) :=
  qualitySection_ok (g := .dis) v hi Iff.rfl

theorem onQualityBit_other {g g' : Kind} (h : g' ≠ g) (start : Int) (u : Nat) (v : BitVec 16)
    (i k : Nat) (s : WSSignal) : onQualityBit g start u v i g' k s = s :=
  if_neg fun hn => h hn.1

/-- The effect of bit `i` of a register on every quality. -/
def onQualityBits (off : Int) (u : Nat) (v : BitVec 16) (i : Nat) :
    Kind → Nat → WSSignal → WSSignal :=
  fun g k s => onQualityBit g (off + Layout.qualSection g) u v i g k s

/-- The three sections write disjoint kinds, so together they write every kind. -/
theorem onQualityBits_eq (off : Int) (u : Nat) (v : BitVec 16) (i : Nat) (g : Kind) (k : Nat)
    (s : WSSignal) :
    onQualityBit .dis (off + ceilQuot mSumAReg (2 * 8) + ceilQuot mSumIntReg 8) u v i g k
        (onQualityBit .int (off + ceilQuot mSumAReg (2 * 8)) u v i g k
          (onQualityBit .ana off u v i g k s)) =
      onQualityBits off u v i g k s := by
  unfold onQualityBits
  cases g with
  | ana =>
      rw [onQualityBit_other (by decide), onQualityBit_other (by decide),
        show off + Layout.qualSection .ana = off from Int.add_zero off]
  | int =>
      rw [onQualityBit_other (by decide), onQualityBit_other (g := .ana) (by decide)]
      rfl
  | dis =>
      rw [onQualityBit_other (g := .int) (by decide), onQualityBit_other (g := .ana) (by decide),
        show off + ceilQuot mSumAReg (2 * 8) + ceilQuot mSumIntReg 8 = off + Layout.qualSection .dis
          from Int.add_assoc off 3 2]

/-- The three sections of `readQualityReg` at one bit. -/
theorem readQualityBits_ok {c : Connector} {u : Nat} (v : BitVec 16) {i : Nat} (hi : i < 8)
    (hoff : 0 ≤ c.qualOffset) :
    (do
      let c ← readQualityAna c u (v.setWidth 32) i
      let c ← readQualityInt c u (v.setWidth 32) i
      readQualityDis c u (v.setWidth 32) i) =
    .ok (c.mapSignals (onQualityBits c.qualOffset u v i)) := by
  rw [readQualityAna_ok v hi hoff]
  show (readQualityInt _ u (v.setWidth 32) i >>= _) = _
  rw [readQualityInt_ok v hi]
  show readQualityDis _ u (v.setWidth 32) i = _
  rw [readQualityDis_ok v hi, mapSignals_mapSignals, mapSignals_mapSignals]
  exact congrArg (fun φ => Except.ok (c.mapSignals φ))
    (funext fun g => funext fun k => funext fun s => onQualityBits_eq c.qualOffset u v i g k s)

/-- The effect of `readQualityReg`. -/
theorem readQualityReg_ok {c : Connector} {u : Nat} (v : BitVec 16) (hoff : 0 ≤ c.qualOffset) :
    readQualityReg c u (v.setWidth 32) = .ok (c.mapSignals fun g k s =>
      if (u : Int) = c.layout.qualReg g k then
        setQuality (wordQuality k v) s
      else s) := by
  rw [readQualityReg, foldlM_mapSignals (onQualityBits c.qualOffset u v) fun ψ i hi =>
    readQualityBits_ok (c := c.mapSignals ψ) v (List.mem_range.mp hi) hoff]
  congr 2
  funext g k s
  by_cases h : (u : Int) = c.layout.qualReg g k
  · rw [if_pos h]
    exact Checked.foldl_ite_unique (List.range 8) (x := k % 8)
      (f := fun _ => setQuality (wordQuality k v)) List.nodup_range (by simp; omega) ⟨rfl, h, rfl⟩
      (fun y hy => hy.2.2.symm) s
  · rw [if_neg h]
    exact Checked.foldl_ite_none (List.range 8) (f := fun _ => setQuality (wordQuality k v))
      (fun x _ hx => h hx.2.1) s

/-- The window of the quality branch, for a register number that is polled. -/
theorem window_iff {z : Int} (hz : -2 ^ 16 < z ∧ z < 2 ^ 16) {u : Nat} (hu : u < 2 ^ 16) :
    (toUint z ≤ u ∧ u < toUint (z + (mSumAReg / 8 : Nat) + (mSumDReg / 8 : Nat) +
      (mSumIntReg / 8 : Nat))) ↔ 0 ≤ z ∧ z ≤ u ∧ (u : Int) < z + 7 := by
  have hw : ((mSumAReg / 8 : Nat) : Int) + (mSumDReg / 8 : Nat) + (mSumIntReg / 8 : Nat) = 7 := by
    decide
  unfold toUint
  omega

/-- The effect of the quality branch. -/
theorem readQuality_ok {c : Connector} {u : Nat} (v : BitVec 16) (hu : u < c.layout.numHold) :
    readQuality c u (v.setWidth 32) = .ok (c.mapSignals (qualityStep c.layout u v)) := by
  have hw := window_iff c.qualOffset_bounds (lt_trans hu c.layout.numHold_lt)
  by_cases h : 0 ≤ c.qualOffset ∧ c.qualOffset ≤ u ∧ (u : Int) < c.qualOffset + 7
  · rw [readQuality, if_pos (hw.mpr h), readQualityReg_ok v h.1]
    congr 1
    refine mapSignals_congr fun g k s _ => ?_
    have hiff : (u : Int) = c.layout.qualReg g k ↔ c.layout.writesQuality g k u := by
      refine ⟨fun hq => ⟨hq, h.1, ?_, ?_⟩, fun hq => hq.1⟩
      · rw [← hq]
        exact h.2.2
      · rw [← hq]
        exact Int.ofNat_lt.mpr hu
    simp only [qualityStep, hiff]
  · rw [readQuality, if_neg (fun hn => h (hw.mp hn))]
    have hid : c.mapSignals (qualityStep c.layout u v) = c.mapSignals fun _ _ s => s := by
      refine mapSignals_congr fun g k s _ => if_neg ?_
      rintro ⟨hu, h0, h7, -⟩
      refine h ⟨h0, ?_, by rw [hu]; exact h7⟩
      have hsec : 0 ≤ Layout.qualSection g := by cases g <;> decide
      have hoff : c.layout.qualOffset = c.qualOffset := rfl
      unfold Layout.qualReg at hu
      omega
    rw [hid, mapSignals_id]
    rfl

/-- The effect of `readBit`: the signals of the last word take the bits of the register. -/
def onBits (t : Nat) (v : BitVec 16) : Kind → Nat → WSSignal → WSSignal :=
  fun g k s => if g = .dis ∧ t * 16 ≤ k then setValue (bitAt (v.setWidth 32) (k % 16)) .dis s else s

theorem readBits_ok {c : Connector} {t : Nat} (ht : t = c.maDSignals.length / 16)
    (v : BitVec 16) : readBits t (v.setWidth 32) c = .ok (c.mapSignals (onBits t v)) := by
  rw [readBits, foldlM_mapSignals
    (fun ii : Nat => onSignal .dis ((ii : Int) + t * 16).toNat
      fun s => { s with sigDValue := bitAt (v.setWidth 32) ii })
    fun ψ ii _ => guarded_modifySignal (c := c.mapSignals ψ) (g := .dis) _ (by omega)]
  congr 1
  refine mapSignals_congr fun g k s hk => ?_
  by_cases h : g = .dis ∧ t * 16 ≤ k
  · rw [onBits, if_pos h]
    obtain ⟨rfl, htk⟩ := h
    have hlt : k < c.maDSignals.length := hk
    refine Checked.foldl_ite_unique (List.range 16) (x := k % 16)
      (p := fun ii : Nat => Kind.dis = .dis ∧ k = ((ii : Int) + t * 16).toNat)
      (f := fun ii s => { s with sigDValue := bitAt (v.setWidth 32) ii })
      List.nodup_range (by simp; omega) ⟨rfl, by omega⟩ (fun y hy => ?_) s
    have hy' := hy.2
    omega
  · rw [onBits, if_neg h]
    refine Checked.foldl_ite_none (List.range 16)
      (p := fun ii : Nat => g = .dis ∧ k = ((ii : Int) + t * 16).toNat)
      (f := fun ii s => { s with sigDValue := bitAt (v.setWidth 32) ii }) (fun x _ hx => ?_) s
    exact h ⟨hx.1, by omega⟩

theorem onBits_idem (t : Nat) (v : BitVec 16) (g : Kind) (k : Nat) (s : WSSignal) :
    onBits t v g k (onBits t v g k s) = onBits t v g k s := by
  unfold onBits
  by_cases h : g = .dis ∧ t * 16 ≤ k
  · simp only [if_pos h]
    rfl
  · simp only [if_neg h]

theorem readBit_ok {c : Connector} (v : BitVec 16) :
    readBit c (v.setWidth 32) =
      .ok (c.mapSignals (onBits (c.maDSignals.length / 16) v)) := by
  rw [readBit, foldlM_mapSignals (fun _ => onBits (c.maDSignals.length / 16) v)
    fun ψ i _ => readBits_ok (c := c.mapSignals ψ) (by simp [mapSignals]) v]
  congr 2
  funext g k s
  refine Checked.foldl_const (onBits_idem _ v g k) ?_ s
  simp

/-- The effect of the discrete branch. -/
theorem readDiscrete_ok {c : Connector} {u : Nat} (v : BitVec 16) (H : List (BitVec 16))
    (hu : u < c.layout.numHold) :
    readDiscrete c u (v.setWidth 32) = .ok (c.mapSignals fun g k s =>
      if g = .dis then valueStep c.layout H u v .dis k s else s) := by
  have hiff : ∀ k, c.layout.writesValue .dis k u ↔
      (50 ≤ u ∧ u < 60 ∧ u ≤ 50 + c.maDSignals.length / 16) ∧
        c.maDSignals.length / 16 * 16 ≤ k := fun k =>
    ⟨fun h => ⟨h.1, h.2.1⟩, fun h => ⟨h.1, h.2, hu⟩⟩
  by_cases h : 50 ≤ u ∧ u < 60 ∧ u ≤ 50 + c.maDSignals.length / 16
  · have h₁ : mSumAReg + mSumIntReg ≤ u ∧ u < mSumAReg + mSumDReg + mSumIntReg := ⟨h.1, h.2.1⟩
    have h₂ : u ≤ mSumAReg + mSumIntReg + c.maDSignals.length / 16 := h.2.2
    rw [readDiscrete, if_pos h₁, if_pos h₂, readBit_ok]
    congr 2
    funext g k s
    cases g with
    | ana => rfl
    | int => rfl
    | dis =>
        simp only [onBits, valueStep, hiff, h, and_self, true_and, if_true]
        rfl
  · have hid : (c.mapSignals fun g k s =>
        if g = .dis then valueStep c.layout H u v .dis k s else s) =
          c.mapSignals fun _ _ s => s := by
      congr 1
      funext g k s
      cases g with
      | ana => rfl
      | int => rfl
      | dis => exact if_neg fun hn => h ((hiff k).mp hn).1
    rw [hid, mapSignals_id, readDiscrete]
    split
    next h₁ =>
      refine if_neg fun h₂ => h ⟨h₁.1, h₁.2, h₂⟩
    next => rfl

/-- The effect of the integer branch. -/
theorem readInteger_ok {c : Connector} {u : Nat} (v : BitVec 16) (H : List (BitVec 16))
    (hu : u < c.layout.numHold) :
    readInteger c u (v.setWidth 32) = .ok (c.mapSignals fun g k s =>
      if g = .int then valueStep c.layout H u v .int k s else s) := by
  have hiff : ∀ k, c.layout.writesValue .int k u ↔ u = 40 + k ∧ k < 10 := fun k =>
    ⟨fun h => ⟨h.1, h.2.1⟩, fun h => ⟨h.1, h.2, h.1 ▸ hu⟩⟩
  by_cases h : mSumAReg ≤ u ∧ u < mSumAReg + mSumIntReg
  · have hu' : 40 ≤ u ∧ u < 50 := h
    rw [readInteger, if_pos h]
    refine (guarded_modifySignal (g := .int) _ (Int.sub_nonneg.mpr (Int.ofNat_le.mpr h.1))).trans ?_
    congr 2
    funext g k s
    have hk : k = ((u : Int) - mSumAReg).toNat ↔ u = 40 + k ∧ k < 10 := by
      simp only [mSumAReg]
      omega
    by_cases hg : g = .int
    · simp only [onSignal, valueStep, hg, hk, hiff, true_and, if_true]
      rfl
    · simp only [onSignal, hg, false_and, if_false]
  · rw [readInteger, if_neg h]
    have hid : (c.mapSignals fun g k s =>
        if g = .int then valueStep c.layout H u v .int k s else s) =
          c.mapSignals fun _ _ s => s := by
      congr 1
      funext g k s
      by_cases hg : g = .int
      · rw [if_pos hg]
        refine if_neg fun hn => h ?_
        have hk := (hiff k).mp hn
        simp only [mSumAReg, mSumIntReg]
        omega
      · rw [if_neg hg]
    rw [hid, mapSignals_id]
    rfl

/-- Stage the word of a register, if the analog branch does. -/
def stageWord (c : Connector) (u : Nat) (v : BitVec 16) : Connector :=
  if u < c.layout.stagedNum then c.stage v else c

@[simp] theorem stageWord_layout (c : Connector) (u : Nat) (v : BitVec 16) :
    (c.stageWord u v).layout = c.layout := by
  unfold stageWord
  split
  · exact stage_layout c v
  · rfl

/-- A word that is staged already, in any staging vector `H` that continues. -/
theorem get_stage {c : Connector} {u : Nat} {v : BitVec 16} {H : List (BitVec 16)}
    (hlen : u ≤ c.maAIntValue.length) (hH : c.maAIntValue ++ [v] <+: H) {j : Nat} (hj : j ≤ u) :
    Checked.get (c.stage v).maAIntValue (j : Nat) = .ok (H.getD j 0) := by
  have hlt : j < (c.maAIntValue ++ [v]).length := by
    rw [List.length_append]
    exact Nat.lt_succ_of_le (hj.trans hlen)
  obtain ⟨t, rfl⟩ := hH
  rw [List.getD_eq_getElem?_getD, List.getElem?_append_left hlt, ← List.getD_eq_getElem?_getD]
  exact Checked.get_of_lt 0 hlt

/-- A register that is no second word of an analog signal changes no signal. -/
theorem mapSignals_ana_none {c : Connector} {L : Layout} {H : List (BitVec 16)} {u : Nat}
    (v : BitVec 16) (h : ∀ k < (c.signals .ana).length, u ≠ 2 * k + 1) :
    (c.mapSignals fun g k s => if g = .ana then valueStep L H u v .ana k s else s) = c := by
  refine Eq.trans (mapSignals_congr fun g k s hk => ?_) (mapSignals_id c)
  by_cases hg : g = .ana
  · subst hg
    show valueStep L H u v .ana k s = s
    exact if_neg fun hn => h k hk hn.1
  · exact if_neg hg

/-- The effect of the analog branch.  `H` is any staging vector that continues the
one the branch reads. -/
theorem readAnalog_ok {c : Connector} {u : Nat} (v : BitVec 16) (H : List (BitVec 16))
    (hu : u < c.layout.numHold) (hlen : u < c.layout.stagedNum → u ≤ c.maAIntValue.length)
    (hH : u < c.layout.stagedNum → c.maAIntValue ++ [v] <+: H) :
    readAnalog c u (v.setWidth 32) = .ok ((c.stageWord u v).mapSignals fun g k s =>
      if g = .ana then valueStep c.layout H u v .ana k s else s) := by
  have hiff : ∀ k, c.layout.writesValue .ana k u ↔ u = 2 * k + 1 := fun k =>
    ⟨fun h => h.1, fun h => ⟨h, h ▸ hu⟩⟩
  by_cases h : u ≤ 2 * c.maASignals.length
  · have hst : u < c.layout.stagedNum := Nat.lt_min.mpr ⟨hu, Nat.lt_succ_of_le h⟩
    have hword : (v.setWidth 32).setWidth 16 = v := by simp
    rw [readAnalog, if_pos h, hword, stageWord, if_pos hst]
    by_cases hodd : u % 2 ≠ 0 ∧ u ≠ 0
    · have hget := fun j hj => get_stage (j := j) (hlen hst) (hH hst) hj
      simp only [if_pos hodd, hget u le_rfl, hget (u - 1) (Nat.sub_le u 1)]
      refine (modifySignal_ok (g := .ana) _ (Int.natCast_nonneg _) ?_).trans ?_
      · show ((u / 2 : Nat) : Int) < (c.maASignals.length : Nat)
        omega
      congr 2
      funext g k s
      have hk : k = ((u / 2 : Nat) : Int).toNat ↔ u = 2 * k + 1 := by omega
      by_cases hg : g = .ana
      · by_cases hu2 : u = 2 * k + 1
        · subst hu2
          simp only [onSignal, valueStep, hg, hk, hiff, true_and, if_true]
          rfl
        · simp only [onSignal, valueStep, hg, hk, hiff, hu2, true_and, if_true, if_false]
      · simp only [onSignal, hg, false_and, if_false]
    · rw [mapSignals_ana_none v fun k _ => by omega]
      simp only [if_neg hodd]
      rfl
  · have hst : ¬ u < c.layout.stagedNum := fun hn =>
      h (Nat.le_of_lt_succ (lt_of_lt_of_le hn (Nat.min_le_right _ _)))
    rw [readAnalog, if_neg h, stageWord, if_neg hst, mapSignals_ana_none v fun k hk => ?_]
    · rfl
    · have hk' : k < c.maASignals.length := hk
      omega

theorem stageWord_ge {c : Connector} {u : Nat} (v : BitVec 16) (h : c.layout.numHold ≤ u) :
    c.stageWord u v = c :=
  if_neg fun hn => by
    have := lt_of_lt_of_le hn (Nat.min_le_left _ _)
    omega

/-- The three value branches write disjoint kinds. -/
theorem valueSteps_eq (L : Layout) (H : List (BitVec 16)) (u : Nat) (v : BitVec 16) (g : Kind)
    (k : Nat) (s : WSSignal) :
    (fun s => if g = .dis then valueStep L H u v .dis k s else s)
      ((fun s => if g = .int then valueStep L H u v .int k s else s)
        (if g = .ana then valueStep L H u v .ana k s else s)) = valueStep L H u v g k s := by
  cases g <;> rfl

/-- **One register, pointwise.**  `readMessage` stages the word and acts on every
signal by `cellStep`. -/
theorem readMessage_ok {c : Connector} {u : Nat} (v : BitVec 16) (H : List (BitVec 16))
    (hlen : u < c.layout.stagedNum → u ≤ c.maAIntValue.length)
    (hH : u < c.layout.stagedNum → c.maAIntValue ++ [v] <+: H) :
    readMessage c u (v.setWidth 32) =
      .ok ((c.stageWord u v).mapSignals (cellStep c.layout H u v)) := by
  by_cases hu : u < c.layout.numHold
  · have hu' : u < c.mNumHoldRegs.toNat := hu
    rw [readMessage, if_pos hu', readAnalog_ok v H hu hlen hH]
    show (readInteger _ u (v.setWidth 32) >>= _) = _
    rw [readInteger_ok v H (by simpa using hu)]
    show (readDiscrete _ u (v.setWidth 32) >>= _) = _
    rw [readDiscrete_ok v H (by simpa using hu)]
    show readQuality _ u (v.setWidth 32) = _
    rw [readQuality_ok v (by simpa using hu)]
    simp only [mapSignals_mapSignals, mapSignals_layout, stageWord_layout]
    exact congrArg (fun φ => Except.ok ((c.stageWord u v).mapSignals φ))
      (funext fun g => funext fun k => funext fun s =>
        congrArg (qualityStep c.layout u v g k) (valueSteps_eq c.layout H u v g k s))
  · have hu' : ¬ u < c.mNumHoldRegs.toNat := hu
    rw [readMessage, if_neg hu', stageWord_ge v (Nat.le_of_not_lt hu)]
    have hid : c.mapSignals (cellStep c.layout H u v) = c.mapSignals fun _ _ s => s := by
      congr 1
      funext g k s
      have hval : ¬ c.layout.writesValue g k u := by
        intro hn
        cases g with
        | ana => exact hu (hn.1 ▸ hn.2)
        | int => exact hu (hn.1 ▸ hn.2.2)
        | dis => exact hu hn.2.2
      have hqual : ¬ c.layout.writesQuality g k u := fun hn =>
        hu (Int.ofNat_lt.mp (hn.1 ▸ hn.2.2.2))
      rw [cellStep, valueStep, if_neg hval, qualityStep, if_neg hqual]
    rw [hid, mapSignals_id]
    rfl

end Connector

end GateRasu
