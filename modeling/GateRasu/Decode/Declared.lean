import GateRasu.Decode.Feeds

/-!
# Declared registers

The ini file declares for every signal a register with its value and one with its
quality.  The decoder looks at neither: it reads a signal from the register that its
place in the list gives (`Layout.valueReg`, `Layout.qualReg`).

A signal follows the declared addresses when replies that agree there show it alike.
That is so exactly when the declared register is the one of its place, or when the
decoder does not reach the signal at all (`follows_value_iff`, `follows_quality_iff`).
-/

namespace GateRasu

open WSSignal (value)

/-- The addresses that the ini file declares for the value of a signal. -/
def WSSignal.declared : Kind → WSSignal → List Nat
  | .ana, s => [s.sigHoldW.toNat, s.sigHoldW.toNat + 1]
  | .dis, s => [s.sigHoldW.toNat]
  | .int, s => [s.sigHoldW.toNat]

namespace Layout

/-- The first register with the value of a signal, by its place. -/
def valueReg : Kind → Nat → Nat
  | .ana, k => 2 * k
  | .int, k => 40 + k
  | .dis, k => 50 + k / 16

/-- The decoder writes the value of a signal in a reply that is long enough. -/
def ReachesValue (L : Layout) : Kind → Nat → Prop
  | .ana, k => 2 * k + 1 < L.numHold
  | .int, k => k < 10 ∧ 40 + k < L.numHold
  | .dis, k => 50 + k / 16 < L.numHold

/-- The decoder writes the quality of a signal in a reply that is long enough. -/
def ReachesQuality (L : Layout) (g : Kind) (k : Nat) : Prop :=
  0 ≤ L.qualOffset ∧ L.qualReg g k < L.qualOffset + 7 ∧ L.qualReg g k < L.numHold

instance (L : Layout) (g : Kind) (k : Nat) : Decidable (L.ReachesQuality g k) :=
  inferInstanceAs (Decidable (_ ∧ _ ∧ _))

end Layout

namespace Connector

/-- The register at an address, in a reply to a request from `mStartReg` on. -/
def registerAt (c : Connector) (a : Nat) (values : List (BitVec 16)) : Option (BitVec 16) :=
  if c.mStartReg.toNat ≤ a then values[a - c.mStartReg.toNat]? else none

/-- Two replies that agree at the addresses `as` show a member of a signal alike. -/
def Follows (c : Connector) (p : WSSignal → BitVec 32) (g : Kind) (k : Nat) (as : List Nat) :
    Prop :=
  ∀ v₁ v₂ : List (BitVec 16), (∀ a ∈ as, c.registerAt a v₁ = c.registerAt a v₂) →
    c.decoded p g k v₁ = c.decoded p g k v₂

theorem registerAt_add (c : Connector) (i : Nat) (values : List (BitVec 16)) :
    c.registerAt (c.mStartReg.toNat + i) values = values[i]? := by
  rw [registerAt, if_pos (Nat.le_add_right ..), Nat.add_sub_cancel_left]

/-- The addresses that a member follows have all the registers that feed it. -/
theorem Follows.mem_of_feeds {c : Connector} {p : WSSignal → BitVec 32} {g : Kind} {k i : Nat}
    {as : List Nat} (h : c.Follows p g k as) (hf : c.Feeds p g k i) :
    c.mStartReg.toNat + i ∈ as := by
  by_contra hnot
  obtain ⟨v₁, v₂, -, hagree, hne⟩ := hf
  refine hne (h v₁ v₂ fun a ha => ?_)
  rw [registerAt, registerAt]
  split
  next hle =>
    refine hagree _ fun hi => hnot ?_
    rw [← hi, Nat.add_sub_cancel' hle]
    exact ha
  next => rfl

/-! ## Values -/

theorem follows_ana_iff {c : Connector} (hfirst : c.maAIntValue = []) {k : Nat} {s : WSSignal}
    (hs : c.maASignals[k]? = some s) :
    c.Follows (value .ana) .ana k (s.declared .ana) ↔
      (2 * k + 1 < c.layout.numHold → s.sigHoldW.toNat = c.mStartReg.toNat + 2 * k) := by
  have hk : k < c.maASignals.length := (List.getElem?_eq_some_iff.mp hs).1
  constructor
  · intro h hreach
    have hlo := h.mem_of_feeds ((feeds_ana_iff hfirst k _).mpr ⟨hk, hreach, Or.inl rfl⟩)
    have hhi := h.mem_of_feeds ((feeds_ana_iff hfirst k _).mpr ⟨hk, hreach, Or.inr rfl⟩)
    simp only [WSSignal.declared, List.mem_cons, List.not_mem_nil, or_false] at hlo hhi
    omega
  · intro hplace v₁ v₂ hagree
    rw [decoded_ana hfirst hs, decoded_ana hfirst hs]
    by_cases hreach : 2 * k + 1 < c.layout.numHold
    · have hlo := hagree (s.sigHoldW.toNat) (by simp [WSSignal.declared])
      have hhi := hagree (s.sigHoldW.toNat + 1) (by simp [WSSignal.declared])
      rw [hplace hreach, registerAt_add, registerAt_add] at hlo
      rw [hplace hreach, Nat.add_assoc, registerAt_add, registerAt_add] at hhi
      have hlen : 2 * k + 1 < v₁.length ↔ 2 * k + 1 < v₂.length := by
        rw [← not_iff_not, Nat.not_lt, Nat.not_lt, ← List.getElem?_eq_none_iff,
          ← List.getElem?_eq_none_iff, hhi]
      simp only [List.getD_eq_getElem?_getD, hlo, hhi, hlen]
    · rw [if_neg fun h => hreach h.1, if_neg fun h => hreach h.1]

/-- A member that is written at a single register. -/
theorem follows_iff_at {c : Connector} {p : WSSignal → BitVec 32} {g : Kind} {k r a : Nat}
    {s : WSSignal} {reach : Prop} [Decidable reach] {w : BitVec 16 → BitVec 32}
    (hdecoded : ∀ values, c.decoded p g k values =
      some (if reach then (values[r]?).elim (p s) w else p s))
    (hfeeds : reach → c.Feeds p g k r) :
    c.Follows p g k [a] ↔ (reach → a = c.mStartReg.toNat + r) := by
  constructor
  · intro h hreach
    exact (List.mem_singleton.mp (h.mem_of_feeds (hfeeds hreach))).symm
  · intro hplace v₁ v₂ hagree
    rw [hdecoded, hdecoded]
    by_cases hreach : reach
    · have hr := hagree a (List.mem_singleton_self a)
      rw [hplace hreach, registerAt_add, registerAt_add] at hr
      rw [hr]
    · rw [if_neg hreach, if_neg hreach]

theorem follows_int_iff {c : Connector} {k : Nat} {s : WSSignal}
    (hs : c.maIntSignals[k]? = some s) (a : Nat) :
    c.Follows (value .int) .int k [a] ↔
      (k < 10 ∧ 40 + k < c.layout.numHold → a = c.mStartReg.toNat + (40 + k)) := by
  have hk : k < c.maIntSignals.length := (List.getElem?_eq_some_iff.mp hs).1
  refine follows_iff_at (s := s) (w := fun v => v.setWidth 32) (fun values => ?_) fun hreach => ?_
  · rw [decoded_some (g := .int) hs, value_int_cellScan]
  · exact (c.feeds_int_iff k _).mpr ⟨hk, rfl, hreach⟩

theorem follows_dis_iff {c : Connector} (hdis : c.maDSignals.length < 16) {k : Nat} {s : WSSignal}
    (hs : c.maDSignals[k]? = some s) (a : Nat) :
    c.Follows (value .dis) .dis k [a] ↔
      (50 + k / 16 < c.layout.numHold → a = c.mStartReg.toNat + (50 + k / 16)) := by
  have hk : k < c.maDSignals.length := (List.getElem?_eq_some_iff.mp hs).1
  have hnum : c.layout.num .dis = c.maDSignals.length := rfl
  have hwrites : ∀ i, c.layout.writesValue .dis k i ↔
      i = 50 + k / 16 ∧ 50 + k / 16 < c.layout.numHold := by
    intro i
    rw [Layout.writesValue, hnum]
    omega
  refine follows_iff_at (s := s) (w := fun v => bitAt (v.setWidth 32) (k % 16)) (fun values => ?_)
    fun hreach => ?_
  · rw [decoded_some (g := .dis) hs, value_cellScan]
    exact congrArg some (Scan.scan_write_at hwrites _ values _)
  · exact (c.feeds_dis_iff k _).mpr ⟨hk, (hwrites _).mpr ⟨rfl, hreach⟩⟩

/-- **Values.** -/
theorem follows_value_iff {c : Connector} (hfirst : c.maAIntValue = []) {g : Kind} {k : Nat}
    {s : WSSignal} (hs : (c.signals g)[k]? = some s)
    (hdis : g = .dis → c.maDSignals.length < 16) :
    c.Follows (value g) g k (s.declared g) ↔
      (c.layout.ReachesValue g k →
        s.sigHoldW.toNat = c.mStartReg.toNat + Layout.valueReg g k) := by
  cases g with
  | ana => exact follows_ana_iff hfirst hs
  | int => exact follows_int_iff hs _
  | dis => exact follows_dis_iff (hdis rfl) hs _

/-! ## Qualities -/

/-- **Qualities.** -/
theorem follows_quality_iff {c : Connector} {g : Kind} {k : Nat} {s : WSSignal}
    (hs : (c.signals g)[k]? = some s) :
    c.Follows WSSignal.sigQualValue g k [s.sigQualW.toNat] ↔
      (c.layout.ReachesQuality g k →
        (s.sigQualW.toNat : Int) = c.mStartReg.toNat + c.layout.qualReg g k) := by
  have hk : k < (c.signals g).length := (List.getElem?_eq_some_iff.mp hs).1
  have hreg : c.layout.ReachesQuality g k →
      ((c.layout.qualReg g k).toNat : Int) = c.layout.qualReg g k := by
    rintro ⟨hoff, -⟩
    have hsec := Layout.qualSection_nonneg g
    unfold Layout.qualReg
    omega
  have hat : c.Follows WSSignal.sigQualValue g k [s.sigQualW.toNat] ↔
      (c.layout.ReachesQuality g k →
        s.sigQualW.toNat = c.mStartReg.toNat + (c.layout.qualReg g k).toNat) := by
    refine follows_iff_at (s := s) (w := wordQuality k) (fun values => ?_) fun hreach => ?_
    · rw [decoded_some hs, sigQualValue_cellScan_zero]
      rfl
    · exact (c.feeds_quality_iff g k _).mpr ⟨hk, hreg hreach, hreach⟩
  rw [hat]
  refine forall_congr' fun hreach => ?_
  have hreg' := hreg hreach
  omega

end Connector

end GateRasu
