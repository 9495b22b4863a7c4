import GateRasu.Gateway.Quality
import GateRasu.Lib.Latest

/-!
# What the replies of a run leave

A loaded connector has values and qualities of zero and an empty staging vector
(`Fresh`).  What it holds after any replies is a function of the replies alone.

* A quality, an integer value and a discrete value are what the last reply decoded for
  them gave (`latest`).
* An analog value is made of two words of everything that was ever staged, looked up
  from the start (`history`).  It is the same ever after (`shownValue_ana_append`).

`afterReplies_puts` is the publication after the replies, with no signal left in it.
-/

namespace GateRasu

open Latest (latest)
open WSSignal (value)

/-! ## Values -/

/-- The end of the registers of a reply of `n` registers that write discrete values. -/
def Layout.disEnd (L : Layout) (n : Nat) : Nat :=
  min (min 60 (51 + L.num .dis / 16)) (min L.numHold n)

/-- The value a reply is decoded to for an integer signal, if it is. -/
def decodedInt (L : Layout) (k : Nat) (r : Reply) : Option (BitVec 32) :=
  if k < 10 ∧ 40 + k < L.numHold then (r.values[40 + k]?).map (·.setWidth 32) else none

/-- The value a reply is decoded to for a discrete signal, if it is. -/
def decodedDis (L : Layout) (k : Nat) (r : Reply) : Option (BitVec 32) :=
  if 50 < L.disEnd r.values.length ∧ L.num .dis / 16 * 16 ≤ k then
    (r.values[L.disEnd r.values.length - 1]?).map fun v => bitAt (v.setWidth 32) (k % 16)
  else none

/-- A reply is decoded for an analog signal. -/
def coversAna (L : Layout) (k : Nat) (r : Reply) : Bool :=
  2 * k + 1 < L.numHold ∧ 2 * k + 1 < r.values.length

/-- Everything the replies staged. -/
def Layout.history (L : Layout) (rs : List Reply) : List (BitVec 16) :=
  rs.flatMap fun r => L.staged r.values

/-- The value of a signal after the replies `rs`, from zero. -/
def shownValue (L : Layout) (k : Nat) (rs : List Reply) : Kind → BitVec 32
  | .ana =>
      if rs.any (coversAna L k) then
        joinWords ((L.history rs).getD (2 * k + 1) 0) ((L.history rs).getD (2 * k) 0)
      else 0
  | .dis => (latest (decodedDis L k) rs).getD 0
  | .int => (latest (decodedInt L k) rs).getD 0

/-- The quality of a signal after the replies `rs`, from zero. -/
def shownQuality (L : Layout) (k : Nat) (rs : List Reply) (g : Kind) : BitVec 32 :=
  (latest (decodedQuality L g k) rs).getD 0

/-! ## One reply -/

theorem value_int_afterReply (L : Layout) (H : List (BitVec 16)) (k : Nat) (r : Reply)
    (s : WSSignal) : value .int (cellScan L H 0 r.values .int k s) =
      (decodedInt L k r).getD (value .int s) := by
  rw [value_int_cellScan, decodedInt]
  split
  · cases r.values[40 + k]? <;> rfl
  · rfl

theorem sigQualValue_cell (L : Layout) (H : List (BitVec 16)) (g : Kind) (k : Nat) (r : Reply)
    (s : WSSignal) : (cellScan L H 0 r.values g k s).sigQualValue =
      (decodedQuality L g k r).getD s.sigQualValue := by
  rw [sigQualValue_cellScan_zero, decodedQuality]
  split
  · cases r.values[(L.qualReg g k).toNat]? <;> rfl
  · rfl

/-- The last register that writes a discrete value is the one before the end. -/
theorem value_dis_afterReply (L : Layout) (H : List (BitVec 16)) (k : Nat) (r : Reply)
    (s : WSSignal) : value .dis (cellScan L H 0 r.values .dis k s) =
      (decodedDis L k r).getD (value .dis s) := by
  have hend : ∀ j, j < r.values.length → (L.writesValue .dis k j ↔
      50 ≤ j ∧ j < L.disEnd r.values.length ∧ L.num .dis / 16 * 16 ≤ k) := by
    intro j hj
    rw [Layout.writesValue, Layout.disEnd]
    omega
  rw [decodedDis]
  split
  · next h =>
      have hlt : L.disEnd r.values.length - 1 < r.values.length := by
        have hle : L.disEnd r.values.length ≤ r.values.length := by
          rw [Layout.disEnd]
          omega
        omega
      rw [List.getElem?_eq_getElem hlt]
      refine value_dis_cellScan s (List.getElem?_eq_getElem hlt) ((hend _ hlt).mpr ?_) ?_
      · omega
      · intro j hj hjlt hw
        have := (hend j hjlt).mp hw
        omega
  · next h =>
      refine value_cellScan_of_not_writes s fun j _ hj hw => h ?_
      have := (hend j (by omega)).mp hw
      omega

theorem value_ana_afterReply (L : Layout) (H : List (BitVec 16)) (k : Nat) (r : Reply)
    (s : WSSignal) : value .ana (cellScan L H 0 r.values .ana k s) =
      if coversAna L k r then joinWords (H.getD (2 * k + 1) 0) (H.getD (2 * k) 0)
      else value .ana s := by
  simp [value_ana_cellScan, coversAna]

/-! ## Histories -/

theorem Layout.history_append (L : Layout) (rs rs' : List Reply) :
    L.history (rs ++ rs') = L.history rs ++ L.history rs' := List.flatMap_append

/-- The history of replies one of which covers a signal has both words of it. -/
theorem Layout.lt_length_history {L : Layout} {k : Nat} (hk : k < L.num .ana) {rs : List Reply}
    (h : rs.any (coversAna L k) = true) : 2 * k + 1 < (L.history rs).length := by
  obtain ⟨r, hr, hcov⟩ := List.any_eq_true.mp h
  have hcov : 2 * k + 1 < L.numHold ∧ 2 * k + 1 < r.values.length := by simpa [coversAna] using hcov
  have hlen : 2 * k + 1 < (L.staged r.values).length := by
    rw [Layout.staged, List.length_take, Layout.stagedNum]
    omega
  obtain ⟨before, after, rfl⟩ := List.append_of_mem hr
  rw [history, List.flatMap_append, List.flatMap_cons, List.length_append, List.length_append]
  omega

/-- **An analog value stays.**  Later replies do not change it, whatever they say. -/
theorem shownValue_ana_append {L : Layout} {k : Nat} (hk : k < L.num .ana) {rs : List Reply}
    (h : rs.any (coversAna L k) = true) (rs' : List Reply) :
    shownValue L k (rs ++ rs') .ana = shownValue L k rs .ana := by
  have hlen := Layout.lt_length_history hk h
  have hget : ∀ j, j ≤ 2 * k + 1 →
      (L.history (rs ++ rs')).getD j 0 = (L.history rs).getD j 0 := by
    intro j hj
    rw [L.history_append, List.getD_eq_getElem?_getD, List.getElem?_append_left (by omega),
      List.getD_eq_getElem?_getD]
  rw [shownValue, shownValue, List.any_append, h, Bool.true_or, hget _ le_rfl, hget _ (by omega)]

/-! ## Runs -/

/-- A connector that has decoded nothing. -/
structure Connector.Fresh (c : Connector) : Prop where
  staging : c.maAIntValue = []
  value : ∀ g, ∀ s ∈ c.signals g, WSSignal.value g s = 0
  quality : ∀ g, ∀ s ∈ c.signals g, s.sigQualValue = 0

namespace Connector

variable {c : Connector}

/-- A member that every reply overwrites or leaves alone. -/
theorem afterReplies_latest {p : WSSignal → BitVec 32} {f : Reply → Option (BitVec 32)} {g : Kind}
    {k : Nat} {L : Layout} (hp : ∀ H r s, p (cellScan L H 0 r.values g k s) = (f r).getD (p s))
    (hc : c.layout = L) (rs : List Reply) :
    ((c.afterReplies rs).signals g)[k]?.map p =
      ((c.signals g)[k]?.map p).map (latest f rs).getD := by
  refine Latest.foldl_act (f := f) (p := fun c : Connector => ((c.signals g)[k]?).map p)
    Latest.overwrites_map_getD (fun c : Connector => c.layout = L) ?_ ?_ rs hc
  · intro c r hc
    rw [afterReply_layout, hc]
  · intro c r hc
    rw [afterReply_getElem?, hc, Option.map_map, Option.map_map]
    exact congrArg (fun F => Option.map F _) (funext fun s => hp _ r s)

theorem afterReplies_ana (hc : c.maAIntValue = []) {k : Nat} {s : WSSignal}
    (hs : c.maASignals[k]? = some s) (hzero : value .ana s = 0) (rs : List Reply) :
    ((c.afterReplies rs).signals .ana)[k]?.map (value .ana) =
      some (shownValue c.layout k rs .ana) := by
  have hk : k < c.layout.num .ana := (List.getElem?_eq_some_iff.mp hs).1
  induction rs using List.reverseRecOn with
  | nil => exact (congrArg (Option.map (value .ana)) hs).trans (congrArg some hzero)
  | append_singleton rs r ih =>
      have hstage : (c.afterReplies rs).maAIntValue ++ c.layout.staged r.values =
          c.layout.history (rs ++ [r]) := by
        rw [afterReplies_maAIntValue, hc, List.nil_append, Layout.history_append]
        simp [Layout.history]
      have hstep : c.afterReplies (rs ++ [r]) = (c.afterReplies rs).afterReply r := by
        rw [afterReplies, List.foldl_append]
        rfl
      obtain ⟨s', hs', hvalue⟩ := Option.map_eq_some_iff.mp ih
      rw [hstep, afterReply_getElem?, afterReplies_layout, hstage, hs', Option.map_some,
        Option.map_some, value_ana_afterReply, hvalue]
      cases hcov : coversAna c.layout k r with
      | true => simp [shownValue, hcov]
      | false =>
          rw [if_neg Bool.false_ne_true]
          cases hany : rs.any (coversAna c.layout k) with
          | true => rw [shownValue_ana_append hk hany]
          | false => simp [shownValue, hcov, hany]

theorem Fresh.afterReplies_value (hc : c.Fresh) {g : Kind} {k : Nat} {s : WSSignal}
    (hs : (c.signals g)[k]? = some s) (rs : List Reply) :
    ((c.afterReplies rs).signals g)[k]?.map (WSSignal.value g) =
      some (shownValue c.layout k rs g) := by
  have hzero : WSSignal.value g s = 0 := hc.value g s (List.mem_of_getElem? hs)
  cases g with
  | ana => exact afterReplies_ana hc.staging hs hzero rs
  | dis =>
      rw [afterReplies_latest (fun H r s => value_dis_afterReply c.layout H k r s) rfl rs, hs,
        Option.map_some, hzero]
      rfl
  | int =>
      rw [afterReplies_latest (fun H r s => value_int_afterReply c.layout H k r s) rfl rs, hs,
        Option.map_some, hzero]
      rfl

theorem Fresh.afterReplies_quality (hc : c.Fresh) {g : Kind} {k : Nat} {s : WSSignal}
    (hs : (c.signals g)[k]? = some s) (rs : List Reply) :
    ((c.afterReplies rs).signals g)[k]?.map WSSignal.sigQualValue =
      some (shownQuality c.layout k rs g) := by
  rw [afterReplies_latest (fun H r s => sigQualValue_cell c.layout H g k r s) rfl rs, hs,
    Option.map_some, hc.quality g s (List.mem_of_getElem? hs)]
  rfl

end Connector

/-! ## Publications -/

/-- The put of a signal with a quality and a value. -/
def Value.ofSignal : Kind → Nat → BitVec 32 × BitVec 32 → Value
  | .ana, i, (q, x) => .ana i q x
  | .dis, i, (q, x) => .bin i q x
  | .int, i, (q, x) => .int i q x

theorem WSSignal.put_eq (g : Kind) (i : Nat) (s : WSSignal) :
    WSSignal.put g i s = Value.ofSignal g i (s.sigQualValue, value g s) := by
  cases g <;> rfl

/-- A publication of a layout, from the quality and the value of every signal. -/
def Layout.plan (L : Layout) (groups : Nat) (cell : Kind → Nat → BitVec 32 × BitVec 32) :
    List Value :=
  ([.ana, .dis, .int].flatMap fun g =>
      (List.range (L.num g)).map fun k => Value.ofSignal g k (cell g k)) ++
    (List.range groups).map fun i => .grp 0 13 (groupData i)

theorem Layout.plan_congr {L : Layout} {groups : Nat}
    {cell cell' : Kind → Nat → BitVec 32 × BitVec 32}
    (h : ∀ g, ∀ k < L.num g, cell g k = cell' g k) : L.plan groups cell = L.plan groups cell' := by
  have hkind : ∀ g, (List.range (L.num g)).map (fun k => Value.ofSignal g k (cell g k)) =
      (List.range (L.num g)).map fun k => Value.ofSignal g k (cell' g k) := fun g =>
    List.map_congr_left fun k hk => by rw [h g k (List.mem_range.mp hk)]
  simp only [plan, hkind]

/-- The puts of a plan are those of its signals and its groups. -/
theorem Layout.mem_plan {L : Layout} {groups : Nat} {cell : Kind → Nat → BitVec 32 × BitVec 32}
    {v : Value} : v ∈ L.plan groups cell ↔
      (∃ g, ∃ k < L.num g, v = Value.ofSignal g k (cell g k)) ∨
        ∃ i < groups, v = .grp 0 13 (groupData i) := by
  rw [plan, List.mem_append, List.mem_flatMap]
  refine or_congr ⟨?_, ?_⟩ ?_
  · rintro ⟨g, -, hv⟩
    obtain ⟨k, hk, rfl⟩ := List.mem_map.mp hv
    exact ⟨g, k, List.mem_range.mp hk, rfl⟩
  · rintro ⟨g, k, hk, rfl⟩
    refine ⟨g, by cases g <;> decide, List.mem_map.mpr ⟨k, List.mem_range.mpr hk, rfl⟩⟩
  · simp [eq_comm]

namespace Connector

theorem puts_eq_plan {c : Connector} (cell : Kind → Nat → BitVec 32 × BitVec 32)
    (h : ∀ g k s, (c.signals g)[k]? = some s → (s.sigQualValue, value g s) = cell g k) :
    c.puts = c.layout.plan c.maGrSignals.length cell := by
  have hkind : ∀ g, (c.signals g).mapIdx (WSSignal.put g) =
      (List.range (c.layout.num g)).map fun k => Value.ofSignal g k (cell g k) := by
    intro g
    refine List.ext_getElem (by simp [layout]) fun k hk _ => ?_
    rw [List.length_mapIdx] at hk
    rw [List.getElem_mapIdx, List.getElem_map, List.getElem_range, WSSignal.put_eq,
      h g k _ (List.getElem?_eq_getElem hk)]
  have hgroups : (c.maGrSignals.mapIdx fun i _ => Value.grp 0 13 (groupData i)) =
      (List.range c.maGrSignals.length).map fun i => .grp 0 13 (groupData i) :=
    List.ext_getElem (by simp) (by simp)
  have hana := hkind .ana
  have hdis := hkind .dis
  have hint := hkind .int
  simp only [signals] at hana hdis hint
  rw [puts, hana, hdis, hint, hgroups, Layout.plan]
  simp

theorem afterReplies_maGrSignals (rs : List Reply) (c : Connector) :
    (c.afterReplies rs).maGrSignals = c.maGrSignals := by
  refine Checked.foldl_frame Connector.maGrSignals (fun c r => ?_) rs c
  cases r <;> rfl

/-- **The publication after the replies of a run.** -/
theorem Fresh.afterReplies_puts {c : Connector} (hc : c.Fresh) (rs : List Reply) :
    (c.afterReplies rs).puts = c.layout.plan c.maGrSignals.length
      fun g k => (shownQuality c.layout k rs g, shownValue c.layout k rs g) := by
  rw [puts_eq_plan fun g k => (shownQuality c.layout k rs g, shownValue c.layout k rs g),
    afterReplies_layout, afterReplies_maGrSignals]
  intro g k s' hs'
  obtain ⟨s, hs⟩ := mem_afterReplies rs hs'
  have hvalue := hc.afterReplies_value hs rs
  have hquality := hc.afterReplies_quality hs rs
  rw [hs', Option.map_some, Option.some.injEq] at hvalue hquality
  rw [hvalue, hquality]

end Connector

end GateRasu
