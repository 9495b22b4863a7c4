import GateRasu.Decode.Words

/-!
# What one reply does

The scan of `readReady` over a reply, as a function of the state before it
(`readUnit_ok`).  The staging vector grows by the words the analog branch stages,
and every signal takes the effects of the registers in order.  The equation holds
in every state, so no reply of any length makes an access out of range.

The rest reads the new value and the new quality of a signal off the reply.  The
integer values and the qualities depend on the reply alone.  An analog value
depends on the whole staging vector, so also on the replies before.
-/

namespace GateRasu

open Checked (OutOfRange)
open Scan (scan scanM)
open WSSignal (value setValue setQuality)

/-- The words of a reply that the analog branch stages. -/
def Layout.staged (L : Layout) (values : List (BitVec 16)) : List (BitVec 16) :=
  values.take L.stagedNum

/-- The effect of the registers `values`, numbered from `i`, on a signal. -/
def cellScan (L : Layout) (H : List (BitVec 16)) (i : Nat) (values : List (BitVec 16)) (g : Kind)
    (k : Nat) (s : WSSignal) : WSSignal :=
  scan (fun s i v => cellStep L H i v g k s) s i values

namespace Connector

/-- Replace the staging vector. -/
def withStaging (c : Connector) (H : List (BitVec 16)) : Connector := { c with maAIntValue := H }

@[simp] theorem withStaging_signals (c : Connector) (H : List (BitVec 16)) (g : Kind) :
    (c.withStaging H).signals g = c.signals g := by
  cases g <;> rfl

@[simp] theorem withStaging_layout (c : Connector) (H : List (BitVec 16)) :
    (c.withStaging H).layout = c.layout := by
  simp only [layout, withStaging_signals]
  rfl

/-- The connector after a reply. -/
def afterUnit (c : Connector) (values : List (BitVec 16)) : Connector :=
  let H := c.maAIntValue ++ c.layout.staged values
  (c.withStaging H).mapSignals (cellScan c.layout H 0 values)

/-! ## The scan -/

/-- The staging vector after one register. -/
theorem stageWord_maAIntValue (c : Connector) (u : Nat) (v : BitVec 16) :
    (c.stageWord u v).maAIntValue =
      c.maAIntValue ++ [v].take (c.layout.stagedNum - u) := by
  unfold stageWord
  split
  next h =>
    obtain ⟨n, hn⟩ : ∃ n, c.layout.stagedNum - u = n + 1 := ⟨c.layout.stagedNum - u - 1, by omega⟩
    rw [hn, List.take_succ_cons, List.take_nil]
    rfl
  next h =>
    rw [Nat.sub_eq_zero_of_le (Nat.le_of_not_lt h), List.take_zero, List.append_nil]

/-- The staged words of a list are those of its head and those of its tail. -/
theorem take_cons_eq (n u : Nat) (v : BitVec 16) (values : List (BitVec 16)) :
    (v :: values).take (n - u) = [v].take (n - u) ++ values.take (n - (u + 1)) := by
  cases h : n - u with
  | zero =>
      have h' : n - (u + 1) = 0 := by omega
      rw [h', List.take_zero, List.take_zero, List.take_zero, List.append_nil]
  | succ m =>
      have h' : n - (u + 1) = m := by omega
      rw [h', List.take_succ_cons, List.take_succ_cons, List.take_nil, List.singleton_append]

/-- The scan of `readReady` from register `i` on, in a state that has staged the
registers below `i`. -/
theorem scanM_ok :
    ∀ (values : List (BitVec 16)) (c : Connector) (i : Nat),
      min i c.layout.stagedNum ≤ c.maAIntValue.length →
      scanM readValue c i values =
        .ok ((c.withStaging (c.maAIntValue ++ values.take (c.layout.stagedNum - i))).mapSignals
          (cellScan c.layout (c.maAIntValue ++ values.take (c.layout.stagedNum - i)) i values))
  | [], c, i, _ => by
      rw [List.take_nil, List.append_nil]
      exact congrArg Except.ok (mapSignals_id c).symm
  | v :: values, c, i, hlen => by
      have hH : c.maAIntValue ++ (v :: values).take (c.layout.stagedNum - i) =
          (c.stageWord i v).maAIntValue ++ values.take (c.layout.stagedNum - (i + 1)) := by
        rw [stageWord_maAIntValue, take_cons_eq, List.append_assoc]
      have hstep : readValue c i v = _ := readMessage_ok v
        (c.maAIntValue ++ (v :: values).take (c.layout.stagedNum - i))
        (fun hi => by omega)
        (fun hi => by
          obtain ⟨n, hn⟩ : ∃ n, c.layout.stagedNum - i = n + 1 :=
            ⟨c.layout.stagedNum - i - 1, by omega⟩
          rw [hn, List.take_succ_cons]
          exact ⟨values.take n, by simp⟩)
      have hlen' : min (i + 1) c.layout.stagedNum ≤ (c.stageWord i v).maAIntValue.length := by
        rw [stageWord_maAIntValue, List.length_append, List.length_take, List.length_singleton]
        omega
      rw [Scan.scanM_cons_ok hstep, scanM_ok values _ (i + 1) (by simpa using hlen')]
      simp only [mapSignals_layout, stageWord_layout, mapSignals_maAIntValue, ← hH]
      have hset : ∀ H, ((c.stageWord i v).mapSignals (cellStep c.layout
          (c.maAIntValue ++ (v :: values).take (c.layout.stagedNum - i)) i v)).withStaging H =
          (c.withStaging H).mapSignals (cellStep c.layout
            (c.maAIntValue ++ (v :: values).take (c.layout.stagedNum - i)) i v) := by
        intro H
        unfold stageWord
        split <;> rfl
      rw [hset, mapSignals_mapSignals]
      rfl

/-- **One reply.**  The scan never fails, in any state and for any reply. -/
theorem readUnit_ok (c : Connector) (values : List (BitVec 16)) :
    readUnit c values = .ok (c.afterUnit values) := by
  rw [readUnit, scanM_ok values c 0 (by rw [Nat.zero_min]; exact Nat.zero_le _)]
  rfl

@[simp] theorem afterUnit_layout (c : Connector) (values : List (BitVec 16)) :
    (c.afterUnit values).layout = c.layout := by
  rw [afterUnit, mapSignals_layout, withStaging_layout]

/-- The signals after a reply, one by one. -/
theorem afterUnit_getElem? (c : Connector) (values : List (BitVec 16)) (g : Kind) (k : Nat) :
    ((c.afterUnit values).signals g)[k]? = ((c.signals g)[k]?).map
      (cellScan c.layout (c.maAIntValue ++ c.layout.staged values) 0 values g k) := by
  rw [afterUnit, mapSignals_getElem?, withStaging_signals]

end Connector

/-! ## Values and qualities -/

section

variable {L : Layout} {H : List (BitVec 16)}

theorem value_cellScan (i : Nat) (values : List (BitVec 16)) (g : Kind) (k : Nat) (s : WSSignal) :
    value g (cellScan L H i values g k s) =
      scan (Scan.write (L.writesValue g k) (wordValue H g k)) (value g s) i values := by
  refine Scan.scan_proj (value g) (fun s i v => ?_) values s i
  rw [cellStep, qualityStep, valueStep, Scan.write]
  split <;> split <;> simp

theorem sigQualValue_cellScan (i : Nat) (values : List (BitVec 16)) (g : Kind) (k : Nat)
    (s : WSSignal) :
    (cellScan L H i values g k s).sigQualValue =
      scan (Scan.write (L.writesQuality g k) (wordQuality k)) s.sigQualValue i values := by
  refine Scan.scan_proj WSSignal.sigQualValue (fun s i v => ?_) values s i
  rw [cellStep, qualityStep, valueStep, Scan.write]
  split <;> split <;> simp

/-- A signal keeps every member but its value and its quality. -/
theorem cellScan_frame (values : List (BitVec 16)) (g : Kind) (k : Nat) :
    ∀ (s : WSSignal) (i : Nat), cellScan L H i values g k s =
      setQuality (cellScan L H i values g k s).sigQualValue
        (setValue (value g (cellScan L H i values g k s)) g s) := by
  induction values with
  | nil =>
      intro s i
      cases g <;> rfl
  | cons v values ih =>
      intro s i
      have hstep : ∀ x y, setQuality x (setValue y g (cellStep L H i v g k s)) =
          setQuality x (setValue y g s) := by
        intro x y
        rw [cellStep, qualityStep, valueStep]
        split <;> split <;> cases g <;> rfl
      have h := ih (cellStep L H i v g k s) (i + 1)
      rw [hstep] at h
      exact h

/-- The value of an integer signal after a reply. -/
theorem value_int_cellScan (values : List (BitVec 16)) (k : Nat) (s : WSSignal) :
    value .int (cellScan L H 0 values .int k s) =
      if k < 10 ∧ 40 + k < L.numHold then
        (values[40 + k]?).elim (value .int s) (·.setWidth 32)
      else value .int s := by
  rw [value_cellScan]
  exact Scan.scan_write_at (fun _ => Iff.rfl) _ values _

/-- The value of an analog signal after a reply. -/
theorem value_ana_cellScan (values : List (BitVec 16)) (k : Nat) (s : WSSignal) :
    value .ana (cellScan L H 0 values .ana k s) =
      if 2 * k + 1 < L.numHold ∧ 2 * k + 1 < values.length then
        joinWords (H.getD (2 * k + 1) 0) (H.getD (2 * k) 0)
      else value .ana s := by
  rw [value_cellScan]
  refine (Scan.scan_write_at (fun _ => Iff.rfl) _ values _).trans ?_
  by_cases hn : 2 * k + 1 < L.numHold
  · cases hv : values[2 * k + 1]? with
    | none =>
        have hlen : ¬ 2 * k + 1 < values.length := by
          rw [List.getElem?_eq_none_iff] at hv
          omega
        rw [if_pos hn, if_neg fun h => hlen h.2]
        rfl
    | some v =>
        have hlen : 2 * k + 1 < values.length := (List.getElem?_eq_some_iff.mp hv).1
        rw [if_pos hn, if_pos ⟨hn, hlen⟩]
        rfl
  · rw [if_neg hn, if_neg fun h => hn h.1]

/-- The quality of a signal after a reply. -/
theorem sigQualValue_cellScan_zero (values : List (BitVec 16)) (g : Kind) (k : Nat)
    (s : WSSignal) :
    (cellScan L H 0 values g k s).sigQualValue =
      if 0 ≤ L.qualOffset ∧ L.qualReg g k < L.qualOffset + 7 ∧ L.qualReg g k < L.numHold then
        (values[(L.qualReg g k).toNat]?).elim s.sigQualValue (wordQuality k)
      else s.sigQualValue := by
  have hsec : 0 ≤ Layout.qualSection g := by cases g <;> decide
  rw [sigQualValue_cellScan]
  refine Scan.scan_write_at (fun i => and_congr_left fun h => ?_) _ values _
  have hq : 0 ≤ L.qualReg g k := by
    unfold Layout.qualReg
    omega
  omega

/-- The value of a discrete signal after a reply. -/
theorem value_dis_cellScan {values : List (BitVec 16)} {k r : Nat} {v : BitVec 16}
    (s : WSSignal) (hv : values[r]? = some v) (hr : L.writesValue .dis k r)
    (hlast : ∀ j, r < j → j < values.length → ¬ L.writesValue .dis k j) :
    value .dis (cellScan L H 0 values .dis k s) = bitAt (v.setWidth 32) (k % 16) := by
  rw [value_cellScan]
  refine Scan.scan_write_last _ _ hv (by rwa [Nat.zero_add]) (fun j hj hlt => ?_)
  rw [Nat.zero_add] at hj hlt
  exact hlast j hj hlt

/-- A signal whose value no register of the scan writes. -/
theorem value_cellScan_of_not_writes {i : Nat} {values : List (BitVec 16)} {g : Kind} {k : Nat}
    (s : WSSignal) (h : ∀ j, i ≤ j → j < i + values.length → ¬ L.writesValue g k j) :
    value g (cellScan L H i values g k s) = value g s := by
  rw [value_cellScan]
  exact Scan.scan_write_none _ _ values _ i h

theorem exists_setQuality_cellScan {i : Nat} (values : List (BitVec 16)) {g : Kind} {k : Nat}
    (s : WSSignal) (h : ∀ j, i ≤ j → j < i + values.length → ¬ L.writesValue g k j) :
    ∃ q, cellScan L H i values g k s = setQuality q s := by
  have hframe := cellScan_frame (L := L) (H := H) values g k s i
  rw [value_cellScan_of_not_writes s h, WSSignal.setValue_value] at hframe
  exact ⟨_, hframe⟩

end

end GateRasu
