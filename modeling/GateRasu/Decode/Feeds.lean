import GateRasu.Decode.Polls

/-!
# The registers of a signal

A register feeds a member of a signal when two replies that differ in no other register
can leave the member different (`Feeds`).  The registers that feed the values of a kind
are a block of consecutive numbers, and so are those that feed its qualities
(`mem_valueBlock_iff`, `mem_qualityBlock_iff`).

So the question whether two kinds share a register is one about blocks
(`separated_iff`), and the question whether every signal has its registers one about the
ends of blocks (`covers_iff`).  Nothing in the decoder ties the number of signals to the
blocks.
-/

namespace GateRasu

open Scan (scan)
open WSSignal (value)

namespace Connector

/-- A member of a signal after a reply. -/
def decoded (c : Connector) (p : WSSignal → BitVec 32) (g : Kind) (k : Nat)
    (values : List (BitVec 16)) : Option (BitVec 32) :=
  match readReady c (.noError values) with
  | .ok c' => ((c'.signals g)[k]?).map p
  | .error _ => none

/-- The register `i` of a reply has an effect on a member of a signal. -/
def Feeds (c : Connector) (p : WSSignal → BitVec 32) (g : Kind) (k i : Nat) : Prop :=
  ∃ v₁ v₂ : List (BitVec 16), v₁.length = v₂.length ∧ (∀ j, j ≠ i → v₁[j]? = v₂[j]?) ∧
    c.decoded p g k v₁ ≠ c.decoded p g k v₂

theorem decoded_eq (c : Connector) (p : WSSignal → BitVec 32) (g : Kind) (k : Nat)
    (values : List (BitVec 16)) :
    c.decoded p g k values = ((c.signals g)[k]?).map fun s =>
      p (cellScan c.layout (c.maAIntValue ++ c.layout.staged values) 0 values g k s) := by
  rw [decoded, readReady_ok]
  show ((c.afterUnit values).signals g)[k]?.map p = _
  rw [afterUnit_getElem?, Option.map_map]
  rfl

theorem decoded_some {c : Connector} {g : Kind} {k : Nat} {s : WSSignal}
    (hs : (c.signals g)[k]? = some s) (p : WSSignal → BitVec 32) (values : List (BitVec 16)) :
    c.decoded p g k values = some
      (p (cellScan c.layout (c.maAIntValue ++ c.layout.staged values) 0 values g k s)) := by
  rw [decoded_eq, hs]
  rfl

/-- A register feeds only signals there are. -/
theorem Feeds.exists_signal {c : Connector} {p : WSSignal → BitVec 32} {g : Kind} {k i : Nat}
    (h : c.Feeds p g k i) : ∃ s, (c.signals g)[k]? = some s := by
  obtain ⟨v₁, v₂, -, -, hne⟩ := h
  rw [decoded_eq, decoded_eq] at hne
  cases hs : (c.signals g)[k]? with
  | some s => exact ⟨s, rfl⟩
  | none =>
      rw [hs, Option.map_none, Option.map_none] at hne
      exact absurd rfl hne

/-- A register that shows when it alone changes. -/
theorem Feeds.of_set {c : Connector} {p : WSSignal → BitVec 32} {g : Kind} {k i : Nat}
    (values : List (BitVec 16)) (x : BitVec 16)
    (h : c.decoded p g k values ≠ c.decoded p g k (values.set i x)) : c.Feeds p g k i :=
  ⟨values, values.set i x, List.length_set.symm, fun _ hj => (List.getElem?_set_ne hj.symm).symm, h⟩

/-- The registers of a member that every register in `P` overwrites. -/
theorem feeds_iff_write {c : Connector} {p : WSSignal → BitVec 32} {g : Kind} {k : Nat}
    {P : Nat → Prop} [DecidablePred P] {w : BitVec 16 → BitVec 32}
    (hp : ∀ H s values, p (cellScan c.layout H 0 values g k s) =
      scan (Scan.write P w) (p s) 0 values)
    (hw : w 0 ≠ w 0xFFFF) (i : Nat) : c.Feeds p g k i ↔ k < (c.signals g).length ∧ P i := by
  constructor
  · intro h
    obtain ⟨s, hs⟩ := h.exists_signal
    refine ⟨(List.getElem?_eq_some_iff.mp hs).1, ?_⟩
    obtain ⟨v₁, v₂, hlen, hagree, hne⟩ := h
    by_contra hi
    rw [decoded_some hs, decoded_some hs, hp, hp] at hne
    refine hne (congrArg some (Scan.scan_congr P ?_ hlen fun j hj => hagree j ?_))
    · intro x j b hj
      rw [Scan.write, if_neg hj]
    · rintro rfl
      exact hi (Nat.zero_add j ▸ hj)
  · rintro ⟨hk, hi⟩
    have hs := List.getElem?_eq_getElem hk
    -- the register is the last of the reply, so what it writes stays
    have hdecoded : ∀ values x, values.length = i + 1 → values[i]? = some x →
        c.decoded p g k values = some (w x) := by
      intro values x hlen hx
      rw [decoded_some hs, hp]
      refine congrArg some (Scan.scan_write_last P w hx ((Nat.zero_add i).symm ▸ hi) ?_)
      intro j hj hlt
      omega
    have hold := hdecoded (List.replicate (i + 1) 0) 0 List.length_replicate
      (List.getElem?_replicate_of_lt (Nat.lt_succ_self i))
    have hnew := hdecoded ((List.replicate (i + 1) 0).set i 0xFFFF) 0xFFFF
      (List.length_set.trans List.length_replicate) (List.getElem?_set_self (by simp))
    refine Feeds.of_set (List.replicate (i + 1) 0) 0xFFFF ?_
    rw [hold, hnew]
    exact fun h => hw (Option.some.inj h)

/-! ## Qualities, integer and discrete values -/

theorem wordQuality_ne (k : Nat) : wordQuality k 0 ≠ wordQuality k 0xFFFF := by
  have hall : ∀ n < 8, qualityAt 0 n ≠ qualityAt 0xFFFF n := by decide
  exact hall (k % 8) (Nat.mod_lt k (by decide))

theorem feeds_quality_iff (c : Connector) (g : Kind) (k i : Nat) :
    c.Feeds WSSignal.sigQualValue g k i ↔
      k < (c.signals g).length ∧ c.layout.writesQuality g k i :=
  feeds_iff_write (fun _ s values => sigQualValue_cellScan 0 values g k s) (wordQuality_ne k) i

theorem feeds_int_iff (c : Connector) (k i : Nat) :
    c.Feeds (value .int) .int k i ↔ k < c.maIntSignals.length ∧ c.layout.writesValue .int k i :=
  feeds_iff_write (w := fun v => v.setWidth 32)
    (fun _ s values => value_cellScan 0 values .int k s) (by decide) i

theorem feeds_dis_iff (c : Connector) (k i : Nat) :
    c.Feeds (value .dis) .dis k i ↔ k < c.maDSignals.length ∧ c.layout.writesValue .dis k i := by
  have hall : ∀ n < 16, bitAt 0 n ≠ bitAt 0xFFFF n := by decide
  exact feeds_iff_write (w := fun v => bitAt (v.setWidth 32) (k % 16))
    (fun _ s values => value_cellScan 0 values .dis k s)
    (hall (k % 16) (Nat.mod_lt k (by decide))) i

/-! ## Analog values -/

/-- Two replies that agree below a register, with any staging vector before them. -/
theorem getD_history_eq {c : Connector} {v₁ v₂ : List (BitVec 16)} {i j : Nat}
    (hagree : ∀ j, j ≠ i → v₁[j]? = v₂[j]?) (hj : j < i) :
    (c.maAIntValue ++ c.layout.staged v₁).getD j 0 =
      (c.maAIntValue ++ c.layout.staged v₂).getD j 0 := by
  rw [List.getD_eq_getElem?_getD, List.getD_eq_getElem?_getD, List.getElem?_append,
    List.getElem?_append, Layout.staged, Layout.staged, List.getElem?_take, List.getElem?_take,
    hagree (j - c.maAIntValue.length) (by omega)]

/-- In any state, a register that feeds an analog value is not above its second word. -/
theorem le_of_feeds_ana {c : Connector} {k i : Nat} (h : c.Feeds (value .ana) .ana k i) :
    k < c.maASignals.length ∧ 2 * k + 1 < c.layout.numHold ∧ i ≤ 2 * k + 1 := by
  obtain ⟨s, hs⟩ := h.exists_signal
  obtain ⟨v₁, v₂, hlen, hagree, hne⟩ := h
  rw [decoded_some hs, decoded_some hs, value_ana_cellScan, value_ana_cellScan, hlen] at hne
  have hk : k < (c.signals .ana).length := (List.getElem?_eq_some_iff.mp hs).1
  by_cases hcov : 2 * k + 1 < c.layout.numHold ∧ 2 * k + 1 < v₂.length
  · refine ⟨hk, hcov.1, Nat.le_of_not_lt fun hi => hne ?_⟩
    rw [getD_history_eq hagree hi, getD_history_eq hagree (Nat.lt_of_succ_lt hi)]
  · rw [if_neg hcov, if_neg hcov] at hne
    exact absurd rfl hne

/-- The analog values of the first reply. -/
theorem decoded_ana {c : Connector} (hfirst : c.maAIntValue = []) {k : Nat} {s : WSSignal}
    (hs : c.maASignals[k]? = some s) (values : List (BitVec 16)) :
    c.decoded (value .ana) .ana k values = some
      (if 2 * k + 1 < c.layout.numHold ∧ 2 * k + 1 < values.length then
        joinWords (values.getD (2 * k + 1) 0) (values.getD (2 * k) 0)
      else value .ana s) := by
  have hk : k < c.maASignals.length := (List.getElem?_eq_some_iff.mp hs).1
  have hnum : c.layout.num .ana = c.maASignals.length := rfl
  rw [decoded_some (g := .ana) hs, value_ana_cellScan, hfirst, List.nil_append]
  by_cases hcov : 2 * k + 1 < c.layout.numHold ∧ 2 * k + 1 < values.length
  · have hstaged : ∀ j, j ≤ 2 * k + 1 → (c.layout.staged values).getD j 0 = values.getD j 0 := by
      intro j hj
      rw [List.getD_eq_getElem?_getD, List.getD_eq_getElem?_getD, Layout.staged,
        List.getElem?_take_of_lt]
      rw [Layout.stagedNum, hnum]
      omega
    rw [if_pos hcov, if_pos hcov, hstaged _ le_rfl, hstaged _ (Nat.le_succ _)]
  · rw [if_neg hcov, if_neg hcov]

/-- In the first reply, both words of an analog signal feed it. -/
theorem feeds_ana_iff {c : Connector} (hfirst : c.maAIntValue = []) (k i : Nat) :
    c.Feeds (value .ana) .ana k i ↔
      k < c.maASignals.length ∧ 2 * k + 1 < c.layout.numHold ∧ (i = 2 * k ∨ i = 2 * k + 1) := by
  constructor
  · intro h
    obtain ⟨hk, hhold, -⟩ := le_of_feeds_ana h
    refine ⟨hk, hhold, ?_⟩
    obtain ⟨v₁, v₂, hlen, hagree, hne⟩ := h
    have hs := List.getElem?_eq_getElem hk
    rw [decoded_ana hfirst hs, decoded_ana hfirst hs, hlen] at hne
    by_contra hi
    rw [not_or] at hi
    rw [List.getD_eq_getElem?_getD, List.getD_eq_getElem?_getD, hagree _ (Ne.symm hi.1),
      hagree _ (Ne.symm hi.2), ← List.getD_eq_getElem?_getD, ← List.getD_eq_getElem?_getD] at hne
    exact hne rfl
  · rintro ⟨hk, hhold, hi⟩
    have hs := List.getElem?_eq_getElem hk
    have hdecoded : ∀ {values}, values.length = 2 * k + 2 → c.decoded (value .ana) .ana k values =
        some (joinWords (values.getD (2 * k + 1) 0) (values.getD (2 * k) 0)) := by
      intro values hlen
      rw [decoded_ana hfirst hs, if_pos ⟨hhold, hlen ▸ Nat.lt_succ_self _⟩]
    refine Feeds.of_set (List.replicate (2 * k + 2) 0) 0xFFFF ?_
    rw [hdecoded List.length_replicate, hdecoded (List.length_set.trans List.length_replicate)]
    intro h
    obtain ⟨hhi, hlo⟩ := joinWords_inj (Option.some.inj h)
    rcases hi with rfl | rfl
    · simp [List.getD_eq_getElem?_getD] at hlo
    · simp [List.getD_eq_getElem?_getD] at hhi

end Connector

/-! ## Blocks -/

namespace Layout

/-- The registers that feed the values of a kind. -/
def valueBlock (L : Layout) : Kind → Finset Nat
  | .ana => Finset.Ico 0 (2 * min (L.num .ana) (L.numHold / 2))
  | .int => Finset.Ico 40 (min (40 + min (L.num .int) 10) L.numHold)
  | .dis =>
      if L.num .dis % 16 = 0 then ∅
      else Finset.Ico 50 (min (min 60 (51 + L.num .dis / 16)) L.numHold)

/-- The registers that feed the qualities of a kind. -/
def qualityBlock (L : Layout) (g : Kind) : Finset Nat :=
  if 0 ≤ L.qualOffset then
    Finset.Ico (L.qualOffset + qualSection g).toNat
      (min (L.qualOffset + min (qualSection g + ((L.num g + 7) / 8 : Nat)) 7) L.numHold).toNat
  else ∅

/-- No register is in the blocks of two kinds. -/
def Separate (L : Layout) : Prop :=
  ∀ g g', g ≠ g' → Disjoint (L.valueBlock g) (L.valueBlock g') ∧
    Disjoint (L.valueBlock g) (L.qualityBlock g') ∧
    Disjoint (L.qualityBlock g) (L.qualityBlock g')

theorem qualSection_nonneg (g : Kind) : 0 ≤ qualSection g := by
  cases g <;> decide

theorem mem_qualityBlock_iff (L : Layout) (g : Kind) (i : Nat) :
    i ∈ L.qualityBlock g ↔ ∃ k < L.num g, L.writesQuality g k i := by
  have hsec := qualSection_nonneg g
  rw [qualityBlock]
  split
  next hoff =>
    rw [Finset.mem_Ico]
    constructor
    · intro h
      refine ⟨8 * ((i : Int) - L.qualOffset - qualSection g).toNat, by omega, ?_⟩
      rw [writesQuality, qualReg]
      omega
    · rintro ⟨k, hk, h⟩
      rw [writesQuality, qualReg] at h
      omega
  next hoff =>
    refine iff_of_false (Finset.notMem_empty i) ?_
    rintro ⟨k, -, -, h, -⟩
    exact hoff h

theorem mem_valueBlock_ana (L : Layout) (i : Nat) :
    i ∈ L.valueBlock .ana ↔
      ∃ k < L.num .ana, 2 * k + 1 < L.numHold ∧ (i = 2 * k ∨ i = 2 * k + 1) := by
  rw [valueBlock, Finset.mem_Ico]
  constructor
  · intro h
    exact ⟨i / 2, by omega, by omega, by omega⟩
  · rintro ⟨k, hk, hhold, hi⟩
    omega

theorem mem_valueBlock_int (L : Layout) (i : Nat) :
    i ∈ L.valueBlock .int ↔ ∃ k < L.num .int, L.writesValue .int k i := by
  rw [valueBlock, Finset.mem_Ico]
  constructor
  · intro h
    refine ⟨i - 40, by omega, ?_⟩
    rw [writesValue]
    omega
  · rintro ⟨k, hk, h⟩
    rw [writesValue] at h
    omega

theorem mem_valueBlock_dis (L : Layout) (i : Nat) :
    i ∈ L.valueBlock .dis ↔ ∃ k < L.num .dis, L.writesValue .dis k i := by
  rw [valueBlock]
  split
  next hfull =>
    refine iff_of_false (Finset.notMem_empty i) ?_
    rintro ⟨k, hk, -, h, -⟩
    omega
  next hfull =>
    rw [Finset.mem_Ico]
    constructor
    · intro h
      refine ⟨L.num .dis / 16 * 16, by omega, ?_⟩
      rw [writesValue]
      omega
    · rintro ⟨k, hk, h⟩
      rw [writesValue] at h
      omega

/-- The values of a kind stay in its region. -/
theorem valueBlock_region {L : Layout} (hana : L.num .ana ≤ 20) {g : Kind} {i : Nat}
    (h : i ∈ L.valueBlock g) : i < 60 ∧ (g = .ana ↔ i < 40) ∧ (g = .dis ↔ 50 ≤ i) := by
  cases g with
  | ana =>
      obtain ⟨k, hk, -, hi⟩ := (L.mem_valueBlock_ana i).mp h
      have hlt : i < 40 := by omega
      exact ⟨by omega, iff_of_true rfl hlt, iff_of_false (by decide) (by omega)⟩
  | int =>
      obtain ⟨k, -, rfl, h10, -⟩ := (L.mem_valueBlock_int i).mp h
      exact ⟨by omega, iff_of_false (by decide) (by omega), iff_of_false (by decide) (by omega)⟩
  | dis =>
      obtain ⟨k, -, ⟨h50, h60, -⟩, -⟩ := (L.mem_valueBlock_dis i).mp h
      exact ⟨h60, iff_of_false (by decide) (by omega), iff_of_true rfl h50⟩

/-- The qualities of a kind stay in its section. -/
theorem qualityBlock_region {L : Layout} (hana : L.num .ana ≤ 20) (hint : L.num .int ≤ 16)
    {g : Kind} {i : Nat} (h : i ∈ L.qualityBlock g) : L.qualOffset ≤ i ∧ 0 ≤ L.qualOffset ∧
      (g = .ana ↔ (i : Int) < L.qualOffset + 3) ∧ (g = .dis ↔ L.qualOffset + 5 ≤ i) := by
  obtain ⟨k, hk, hi, hoff, -⟩ := (L.mem_qualityBlock_iff g i).mp h
  cases g with
  | ana =>
      have hi' : (i : Int) = L.qualOffset + 0 + (k / 8 : Nat) := hi
      exact ⟨by omega, hoff, iff_of_true rfl (by omega), iff_of_false (by decide) (by omega)⟩
  | int =>
      have hi' : (i : Int) = L.qualOffset + 3 + (k / 8 : Nat) := hi
      exact ⟨by omega, hoff, iff_of_false (by decide) (by omega),
        iff_of_false (by decide) (by omega)⟩
  | dis =>
      have hi' : (i : Int) = L.qualOffset + 5 + (k / 8 : Nat) := hi
      exact ⟨by omega, hoff, iff_of_false (by decide) (by omega), iff_of_true rfl (by omega)⟩

/-- Two questions tell the kinds apart. -/
theorem kind_eq {g g' : Kind} (hana : g = .ana ↔ g' = .ana) (hdis : g = .dis ↔ g' = .dis) :
    g = g' := by
  cases g <;> cases g' <;> simp_all

/-- Up to the sizes of the regions, and with the qualities behind the values, the blocks are
apart. -/
theorem separate_of_regions {L : Layout} (hana : L.num .ana ≤ 20) (hint : L.num .int ≤ 16)
    (hoff : L.qualOffset < 0 ∨ 60 ≤ L.qualOffset) : L.Separate := by
  intro g g' hg
  refine ⟨Finset.disjoint_left.mpr fun i hi hi' => ?_, Finset.disjoint_left.mpr fun i hi hi' => ?_,
    Finset.disjoint_left.mpr fun i hi hi' => ?_⟩
  · have h := valueBlock_region hana hi
    have h' := valueBlock_region hana hi'
    exact hg (kind_eq (h.2.1.trans h'.2.1.symm) (h.2.2.trans h'.2.2.symm))
  · have h := valueBlock_region hana hi
    have h' := qualityBlock_region hana hint hi'
    omega
  · have h := qualityBlock_region hana hint hi
    have h' := qualityBlock_region hana hint hi'
    exact hg (kind_eq (h.2.2.1.trans h'.2.2.1.symm) (h.2.2.2.trans h'.2.2.2.symm))

end Layout

namespace Connector

/-- In any state, the registers that feed a value are in the block. -/
theorem Feeds.mem_valueBlock {c : Connector} {g : Kind} {k i : Nat}
    (h : c.Feeds (value g) g k i) : i ∈ c.layout.valueBlock g := by
  cases g with
  | ana =>
      obtain ⟨hk, hhold, hi⟩ := le_of_feeds_ana h
      exact (c.layout.mem_valueBlock_ana i).mpr ⟨i / 2, by
        show i / 2 < c.maASignals.length
        omega, by omega, by omega⟩
  | int => exact (c.layout.mem_valueBlock_int i).mpr ⟨k, (c.feeds_int_iff k i).mp h⟩
  | dis => exact (c.layout.mem_valueBlock_dis i).mpr ⟨k, (c.feeds_dis_iff k i).mp h⟩

/-- In the first reply, every register of the block feeds a value. -/
theorem exists_feeds_value {c : Connector} (hfirst : c.maAIntValue = []) {g : Kind} {i : Nat}
    (h : i ∈ c.layout.valueBlock g) : ∃ k, c.Feeds (value g) g k i := by
  cases g with
  | ana =>
      obtain ⟨k, hk⟩ := (c.layout.mem_valueBlock_ana i).mp h
      exact ⟨k, (feeds_ana_iff hfirst k i).mpr hk⟩
  | int =>
      obtain ⟨k, hk⟩ := (c.layout.mem_valueBlock_int i).mp h
      exact ⟨k, (c.feeds_int_iff k i).mpr hk⟩
  | dis =>
      obtain ⟨k, hk⟩ := (c.layout.mem_valueBlock_dis i).mp h
      exact ⟨k, (c.feeds_dis_iff k i).mpr hk⟩

/-- The registers that feed a quality are the block, in any state. -/
theorem exists_feeds_quality_iff (c : Connector) (g : Kind) (i : Nat) :
    (∃ k, c.Feeds WSSignal.sigQualValue g k i) ↔ i ∈ c.layout.qualityBlock g := by
  rw [Layout.mem_qualityBlock_iff]
  exact exists_congr fun k => c.feeds_quality_iff g k i

/-! ## Separation -/

/-- No register of a reply feeds two kinds. -/
def Separated (c : Connector) : Prop :=
  ∀ g g' k k' i, g ≠ g' →
    ¬ (c.Feeds (value g) g k i ∧ c.Feeds (value g') g' k' i) ∧
    ¬ (c.Feeds (value g) g k i ∧ c.Feeds WSSignal.sigQualValue g' k' i) ∧
    ¬ (c.Feeds WSSignal.sigQualValue g k i ∧ c.Feeds WSSignal.sigQualValue g' k' i)

/-- Blocks that are apart separate the kinds in any state. -/
theorem separated_of_separate {c : Connector} (h : c.layout.Separate) : c.Separated := by
  intro g g' k k' i hg
  obtain ⟨hvv, hvq, hqq⟩ := h g g' hg
  have hqual : ∀ {g k}, c.Feeds WSSignal.sigQualValue g k i → i ∈ c.layout.qualityBlock g :=
    fun hf => (c.exists_feeds_quality_iff _ i).mp ⟨_, hf⟩
  refine ⟨fun hf => ?_, fun hf => ?_, fun hf => ?_⟩
  · exact Finset.disjoint_left.mp hvv hf.1.mem_valueBlock hf.2.mem_valueBlock
  · exact Finset.disjoint_left.mp hvq hf.1.mem_valueBlock (hqual hf.2)
  · exact Finset.disjoint_left.mp hqq (hqual hf.1) (hqual hf.2)

/-- Before the first reply, nothing less separates them. -/
theorem separated_iff {c : Connector} (hfirst : c.maAIntValue = []) :
    c.Separated ↔ c.layout.Separate := by
  refine ⟨fun h g g' hg => ?_, separated_of_separate⟩
  refine ⟨Finset.disjoint_left.mpr fun i hi hi' => ?_, Finset.disjoint_left.mpr fun i hi hi' => ?_,
    Finset.disjoint_left.mpr fun i hi hi' => ?_⟩
  · obtain ⟨k, hk⟩ := exists_feeds_value hfirst hi
    obtain ⟨k', hk'⟩ := exists_feeds_value hfirst hi'
    exact (h g g' k k' i hg).1 ⟨hk, hk'⟩
  · obtain ⟨k, hk⟩ := exists_feeds_value hfirst hi
    obtain ⟨k', hk'⟩ := (c.exists_feeds_quality_iff g' i).mpr hi'
    exact (h g g' k k' i hg).2.1 ⟨hk, hk'⟩
  · obtain ⟨k, hk⟩ := (c.exists_feeds_quality_iff g i).mpr hi
    obtain ⟨k', hk'⟩ := (c.exists_feeds_quality_iff g' i).mpr hi'
    exact (h g g' k k' i hg).2.2 ⟨hk, hk'⟩

end Connector

/-! ## Coverage -/

namespace Layout

/-- Every value of a kind has a polled register.  The discrete signals are those of one word. -/
def FitsValue (L : Layout) : Kind → Prop
  | .ana => 2 * L.num .ana ≤ L.numHold
  | .int => L.num .int = 0 ∨ (L.num .int ≤ 10 ∧ 40 + L.num .int ≤ L.numHold)
  | .dis => L.num .dis = 0 ∨ 50 < L.numHold

/-- Every quality of a kind has a polled register in the window of the quality branch. -/
def FitsQuality (L : Layout) (g : Kind) : Prop :=
  L.num g = 0 ∨ (0 ≤ L.qualOffset ∧ L.qualReg g (L.num g - 1) < L.qualOffset + 7 ∧
    L.qualReg g (L.num g - 1) < L.numHold)

end Layout

namespace Connector

/-- Every signal of a kind has a polled register that feeds its value, and one that feeds its
quality. -/
def Covers (c : Connector) (g : Kind) : Prop :=
  ∀ k < (c.signals g).length, (∃ i < c.mNumHoldRegs.toNat, c.Feeds (value g) g k i) ∧
    ∃ i < c.mNumHoldRegs.toNat, c.Feeds WSSignal.sigQualValue g k i

theorem covers_ana_iff {c : Connector} (hfirst : c.maAIntValue = []) :
    (∀ k < c.maASignals.length, ∃ i < c.mNumHoldRegs.toNat, c.Feeds (value .ana) .ana k i) ↔
      2 * c.maASignals.length ≤ c.mNumHoldRegs.toNat := by
  have hhold : c.layout.numHold = c.mNumHoldRegs.toNat := rfl
  simp only [feeds_ana_iff hfirst, hhold]
  constructor
  · intro h
    by_contra hlt
    obtain ⟨i, -, -, hlast, -⟩ := h (c.maASignals.length - 1) (by omega)
    omega
  · intro h k hk
    exact ⟨2 * k, by omega, hk, by omega, Or.inl rfl⟩

theorem covers_int_iff (c : Connector) :
    (∀ k < c.maIntSignals.length, ∃ i < c.mNumHoldRegs.toNat, c.Feeds (value .int) .int k i) ↔
      c.maIntSignals.length = 0 ∨
        (c.maIntSignals.length ≤ 10 ∧ 40 + c.maIntSignals.length ≤ c.mNumHoldRegs.toNat) := by
  have hhold : c.layout.numHold = c.mNumHoldRegs.toNat := rfl
  simp only [feeds_int_iff, Layout.writesValue, hhold]
  constructor
  · intro h
    by_contra hlt
    obtain ⟨i, -, -, -, hlast⟩ := h (c.maIntSignals.length - 1) (by omega)
    omega
  · intro h k hk
    exact ⟨40 + k, by omega, hk, rfl, by omega⟩

theorem covers_dis_iff {c : Connector} (hdis : c.maDSignals.length < 16) :
    (∀ k < c.maDSignals.length, ∃ i < c.mNumHoldRegs.toNat, c.Feeds (value .dis) .dis k i) ↔
      c.maDSignals.length = 0 ∨ 50 < c.mNumHoldRegs.toNat := by
  have hhold : c.layout.numHold = c.mNumHoldRegs.toNat := rfl
  have hnum : c.layout.num .dis = c.maDSignals.length := rfl
  simp only [feeds_dis_iff, Layout.writesValue, hhold, hnum]
  constructor
  · intro h
    by_contra hlt
    obtain ⟨i, hi, -, hlow, -⟩ := h 0 (by omega)
    omega
  · intro h k hk
    exact ⟨50, by omega, hk, by omega, by omega, by omega⟩

theorem covers_value_iff {c : Connector} (hfirst : c.maAIntValue = []) {g : Kind}
    (hdis : g = .dis → c.maDSignals.length < 16) :
    (∀ k < (c.signals g).length, ∃ i < c.mNumHoldRegs.toNat, c.Feeds (value g) g k i) ↔
      c.layout.FitsValue g := by
  cases g with
  | ana => exact covers_ana_iff hfirst
  | int => exact c.covers_int_iff
  | dis => exact covers_dis_iff (hdis rfl)

theorem covers_quality_iff (c : Connector) (g : Kind) :
    (∀ k < (c.signals g).length,
      ∃ i < c.mNumHoldRegs.toNat, c.Feeds WSSignal.sigQualValue g k i) ↔
      c.layout.FitsQuality g := by
  have hhold : c.layout.numHold = c.mNumHoldRegs.toNat := rfl
  have hnum : c.layout.num g = (c.signals g).length := rfl
  have hsec := Layout.qualSection_nonneg g
  simp only [feeds_quality_iff, Layout.writesQuality, Layout.FitsQuality, Layout.qualReg, hhold,
    hnum]
  constructor
  · intro h
    by_contra hlt
    obtain ⟨i, -, -, -, hlast⟩ := h ((c.signals g).length - 1) (by omega)
    omega
  · intro h k hk
    refine ⟨(c.layout.qualOffset + Layout.qualSection g + (k / 8 : Nat)).toNat, ?_, hk, ?_⟩
    · omega
    · omega

/-- Before the first reply, a kind is covered exactly when its signals fit. -/
theorem covers_iff {c : Connector} (hfirst : c.maAIntValue = []) {g : Kind}
    (hdis : g = .dis → c.maDSignals.length < 16) :
    c.Covers g ↔ c.layout.FitsValue g ∧ c.layout.FitsQuality g := by
  rw [← covers_value_iff hfirst hdis, ← covers_quality_iff]
  exact forall₂_and

end Connector

end GateRasu
