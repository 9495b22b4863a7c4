import GateRasu.Connector
import GateRasu.Lib.Attempts

/-!
# Publication

`placeIn_PPD` publishes every signal through the channel of the client.  Four loops,
one for each vector, build a value in a shared buffer and put it.  A loop ends the
publication at a put that fails.  The loop over the groups compares the answer with
`0`, so for it a warning is a failure too.

`placeInPPD_emits` says what is put: the plan `Connector.puts` up to the first put that
ends the publication.  The messages of `printLogs` are left out.
-/

namespace GateRasu

open Attempts (Emits upTo halts)
open Scan (scanM)

/-! ## Values -/

/-- `Value`: a type, an index, and the data of that type.  The time is left out. -/
inductive Value where
  | noType
  | ana (idx : Nat) (quality value : BitVec 32)
  | bin (idx : Nat) (quality value : BitVec 32)
  | int (idx : Nat) (quality value : BitVec 32)
  | grp (idx : Nat) (groupType : Nat) (data : List (BitVec 8))
deriving DecidableEq, Repr

/-- `ERROR_RET`, `OK_RET` and `WARNING_RET`. -/
inductive PutRet where
  | error
  | ok
  | warning
deriving DecidableEq, Repr

/-- The buffer `value` and what the client was asked to put. -/
structure Channel where
  value : Value
  sent : List Value

namespace Channel

def makeAValue (ch : Channel) (idx : Nat) (quality value : BitVec 32) : Channel :=
  { ch with value := .ana idx quality value }

def makeBValue (ch : Channel) (idx : Nat) (quality value : BitVec 32) : Channel :=
  { ch with value := .bin idx quality value }

def makeIValue (ch : Channel) (idx : Nat) (quality value : BitVec 32) : Channel :=
  { ch with value := .int idx quality value }

def makeGValue (ch : Channel) (idx groupType : Nat) (data : List (BitVec 8)) : Channel :=
  { ch with value := .grp idx groupType data }

/-- `DTSClient::put` of the buffer.  The answer to the put with number `n` is `o n`. -/
def put (o : Nat → PutRet) (ch : Channel) : PutRet × Channel :=
  (o ch.sent.length, { ch with sent := ch.sent ++ [ch.value] })

end Channel

/-! ## The four loops -/

/-- The end of an analog, discrete or integer put. -/
def checkPut : PutRet × Channel → Except Channel Channel
  | (.error, ch) => .error ch
  | (.warning, ch) => .ok ch
  | (.ok, ch) => .ok ch

/-- The end of a group put. -/
def checkGrPut (r : PutRet × Channel) : Except Channel Channel :=
  if r.1 ≠ .ok then .error r.2 else .ok r.2

def placeAna (o : Nat → PutRet) (ch : Channel) (i : Nat) (s : WSSignal) : Except Channel Channel :=
  checkPut ((ch.makeAValue i s.sigQualValue s.sigAValue).put o)

def placeBin (o : Nat → PutRet) (ch : Channel) (i : Nat) (s : WSSignal) : Except Channel Channel :=
  checkPut ((ch.makeBValue i s.sigQualValue s.sigDValue).put o)

def placeInt (o : Nat → PutRet) (ch : Channel) (i : Nat) (s : WSSignal) : Except Channel Channel :=
  checkPut ((ch.makeIValue i s.sigQualValue s.sigINTValue).put o)

/-- `groupData` after `memset(groupData, i, sizeof(groupData))`. -/
def groupData (i : Nat) : List (BitVec 8) := List.replicate 128 (BitVec.ofNat 8 i)

def placeGrp (o : Nat → PutRet) (ch : Channel) (i : Nat) (_ : WSGrSignal) :
    Except Channel Channel :=
  checkGrPut ((ch.makeGValue 0 13 (groupData i)).put o)

/-- `PLC_connector::placeIn_PPD`.  An error is the return of `-1`. -/
def placeInPPD (o : Nat → PutRet) (c : Connector) (ch : Channel) : Except Channel Channel := do
  let ch ← scanM (placeAna o) ch 0 c.maASignals
  let ch ← scanM (placeBin o) ch 0 c.maDSignals
  let ch ← scanM (placeInt o) ch 0 c.maIntSignals
  scanM (placeGrp o) ch 0 c.maGrSignals

/-! ## The plan -/

/-- The put of a signal. -/
def WSSignal.put : Kind → Nat → WSSignal → Value
  | .ana, i, s => .ana i s.sigQualValue s.sigAValue
  | .dis, i, s => .bin i s.sigQualValue s.sigDValue
  | .int, i, s => .int i s.sigQualValue s.sigINTValue

/-- Everything a publication is meant to put. -/
def Connector.puts (c : Connector) : List Value :=
  c.maASignals.mapIdx (WSSignal.put .ana) ++ (c.maDSignals.mapIdx (WSSignal.put .dis) ++
    (c.maIntSignals.mapIdx (WSSignal.put .int) ++
      c.maGrSignals.mapIdx fun i _ => .grp 0 13 (groupData i)))

/-- Whether a put ends the publication. -/
def endsPlace (o : Nat → PutRet) (n : Nat) : Value → Bool
  | .grp _ _ _ => o n ≠ .ok
  | .noType | .ana _ _ _ | .bin _ _ _ | .int _ _ _ => o n = .error

/-- A program that puts values on the channel. -/
abbrev Puts (o : Nat → PutRet) (ch : Channel) (vs : List Value) (r : Except Channel Channel) :
    Prop :=
  Emits Channel.sent id (endsPlace o) ch vs r

theorem checkPut_emits (o : Nat → PutRet) (ch : Channel) {v : Value}
    (hv : ∀ n, endsPlace o n v = decide (o n = .error)) :
    Puts o ch [v] (checkPut (({ ch with value := v } : Channel).put o)) := by
  have hend : checkPut (({ ch with value := v } : Channel).put o) =
      if endsPlace o ch.sent.length v then .error (id ⟨v, ch.sent ++ [v]⟩)
      else .ok ⟨v, ch.sent ++ [v]⟩ := by
    rw [Channel.put, hv]
    cases o ch.sent.length <;> rfl
  exact Emits.single rfl hend

theorem checkGrPut_emits (o : Nat → PutRet) (ch : Channel) (i t : Nat) (data : List (BitVec 8)) :
    Puts o ch [.grp i t data] (checkGrPut ((ch.makeGValue i t data).put o)) := by
  have hend : checkGrPut ((ch.makeGValue i t data).put o) =
      if endsPlace o ch.sent.length (.grp i t data) then
        .error (id ⟨.grp i t data, ch.sent ++ [.grp i t data]⟩)
      else .ok ⟨.grp i t data, ch.sent ++ [.grp i t data]⟩ := by
    rw [Channel.put, Channel.makeGValue, endsPlace, checkGrPut]
    cases o ch.sent.length <;> rfl
  exact Emits.single rfl hend

theorem flatMap_zipIdx {α β : Type} (f : Nat → α → β) (xs : List α) :
    ((xs.zipIdx 0).flatMap fun x => [f x.2 x.1]) = xs.mapIdx f := by
  rw [List.mapIdx_eq_zipIdx_map, ← List.map_eq_flatMap]

theorem placeKind_emits {o : Nat → PutRet} {α : Type}
    {step : Channel → Nat → α → Except Channel Channel} {plan : Nat → α → Value}
    (h : ∀ ch i x, Puts o ch [plan i x] (step ch i x)) (xs : List α) (ch : Channel) :
    Puts o ch (xs.mapIdx plan) (scanM step ch 0 xs) := by
  have hscan := Emits.scanM (f := fun i x => [plan i x]) h xs 0 ch
  rw [flatMap_zipIdx] at hscan
  exact hscan

/-- **Publication.**  What is put is the plan up to the first put that ends it. -/
theorem placeInPPD_emits (o : Nat → PutRet) (c : Connector) (ch : Channel) :
    Puts o ch c.puts (placeInPPD o c ch) := by
  refine Emits.bind (placeKind_emits (fun ch i s => checkPut_emits o ch fun n => rfl) _ ch)
    fun ch _ => ?_
  refine Emits.bind (placeKind_emits (fun ch i s => checkPut_emits o ch fun n => rfl) _ ch)
    fun ch _ => ?_
  refine Emits.bind (placeKind_emits (fun ch i s => checkPut_emits o ch fun n => rfl) _ ch)
    fun ch _ => ?_
  exact placeKind_emits (fun ch i _ => checkGrPut_emits o ch 0 13 (groupData i)) _ ch

/-! ## The contract -/

/-- The contract of `placeIn_PPD`: it puts the plan up to the first error, and returns `-1`
exactly when there is one. -/
def Contract (o : Nat → PutRet) (c : Connector) (ch : Channel) : Prop :=
  Emits Channel.sent id (fun n _ => o n = .error) ch c.puts (placeInPPD o c ch)

/-- The number of puts before those of the groups. -/
def Connector.grBase (c : Connector) : Nat :=
  c.maASignals.length + c.maDSignals.length + c.maIntSignals.length

/-- A group put, counted from the put number `n`, that is answered with a warning comes
after a put that is answered with an error. -/
def WarningsAfterError (o : Nat → PutRet) (c : Connector) (n : Nat) : Prop :=
  ∀ i, i < c.maGrSignals.length → o (n + (c.grBase + i)) = .warning →
    ∃ j, j < c.grBase + i ∧ o (n + j) = .error

/-- The puts of the groups come last, and only an error ends the others. -/
theorem puts_split (c : Connector) :
    ∃ vs, c.puts = vs ++ c.maGrSignals.mapIdx (fun i _ => .grp 0 13 (groupData i)) ∧
      vs.length = c.grBase ∧ ∀ v ∈ vs, ∀ o n, endsPlace o n v = decide (o n = .error) := by
  refine ⟨c.maASignals.mapIdx (WSSignal.put .ana) ++ (c.maDSignals.mapIdx (WSSignal.put .dis) ++
    c.maIntSignals.mapIdx (WSSignal.put .int)), ?_, ?_, ?_⟩
  · rw [Connector.puts, List.append_assoc, List.append_assoc]
  · rw [List.length_append, List.length_append, List.length_mapIdx, List.length_mapIdx,
      List.length_mapIdx, Connector.grBase, Nat.add_assoc]
  · intro v hv o n
    have hkind : ∀ (g : Kind) (l : List WSSignal), v ∈ l.mapIdx (WSSignal.put g) →
        endsPlace o n v = decide (o n = .error) := by
      intro g l hmem
      obtain ⟨i, hi, rfl⟩ := List.mem_mapIdx.mp hmem
      cases g <;> rfl
    rcases List.mem_append.mp hv with hv | hv
    · exact hkind .ana _ hv
    rcases List.mem_append.mp hv with hv | hv
    · exact hkind .dis _ hv
    · exact hkind .int _ hv

theorem covered_iff (o : Nat → PutRet) (c : Connector) (n : Nat) :
    Attempts.Covered (endsPlace o) (fun n _ => o n = .error) n c.puts ↔
      WarningsAfterError o c n := by
  obtain ⟨vs, hputs, hlen, hvs⟩ := puts_split c
  have hgroup : ∀ i, i < c.maGrSignals.length →
      c.puts[c.grBase + i]? = some (.grp 0 13 (groupData i)) := by
    intro i hi
    rw [hputs, ← hlen, List.getElem?_append_right (Nat.le_add_right ..), Nat.add_sub_cancel_left,
      List.getElem?_mapIdx, List.getElem?_eq_getElem hi]
    rfl
  constructor
  · intro h i hi hwarning
    have hends : endsPlace o (n + (c.grBase + i)) (.grp 0 13 (groupData i)) = true := by
      rw [endsPlace, hwarning]
      rfl
    obtain ⟨j, v, hj, -, herror⟩ := (Attempts.halts_take_iff _).mp (h _ _ (hgroup i hi) hends)
    have herror : o (n + j) = .error := of_decide_eq_true herror
    refine ⟨j, Nat.lt_of_le_of_ne (Nat.le_of_lt_succ hj) ?_, herror⟩
    rintro rfl
    rw [hwarning] at herror
    cases herror
  · intro h k v hv hends
    rw [Attempts.halts_take_iff]
    cases hk : o (n + k) with
    | error => exact ⟨k, v, Nat.lt_succ_self k, hv, decide_eq_true hk⟩
    | ok => cases v <;> rw [endsPlace, hk] at hends <;> cases hends
    | warning =>
        have hlt : k < c.puts.length := (List.getElem?_eq_some_iff.mp hv).1
        rw [hputs, List.length_append, List.length_mapIdx, hlen] at hlt
        have hbase : c.grBase ≤ k := by
          by_contra hplain
          have hmem : v ∈ vs := by
            rw [hputs, List.getElem?_append_left (by omega)] at hv
            exact List.mem_of_getElem? hv
          rw [hvs v hmem, hk] at hends
          cases hends
        obtain ⟨i, rfl⟩ := Nat.exists_eq_add_of_le hbase
        obtain ⟨j, hj, herror⟩ := h i (by omega) hk
        have hjlt : j < c.puts.length := hj.trans (List.getElem?_eq_some_iff.mp hv).1
        exact ⟨j, _, hj.trans (Nat.lt_succ_self _), List.getElem?_eq_getElem hjlt,
          decide_eq_true herror⟩

/-- **The contract of a publication** is met exactly when no group put is answered with a
warning before the first error. -/
theorem contract_iff (o : Nat → PutRet) (c : Connector) (ch : Channel) :
    Contract o c ch ↔ WarningsAfterError o c ch.sent.length := by
  have hle : ∀ n v, decide (o n = .error) = true → endsPlace o n v = true := by
    intro n v herror
    have ho : o n = .error := of_decide_eq_true herror
    cases v <;> rw [endsPlace, ho] <;> rfl
  rw [Contract, (placeInPPD_emits o c ch).agree_iff Function.injective_id,
    Attempts.upTo_agree_iff hle, covered_iff]

/-- Two groups and a channel that answers with warnings: the second group is not put. -/
theorem not_contract_warning :
    ¬ Contract (fun _ => .warning) { Connector.plain 0 0 0 with maGrSignals := [{}, {}] }
      ⟨.noType, []⟩ := by
  rintro ⟨ch, -, hr⟩
  cases hr

end GateRasu
