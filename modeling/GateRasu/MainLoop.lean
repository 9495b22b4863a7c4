import GateRasu.Publish

/-!
# The loop of `main`

`main` publishes random values in an endless loop.  A cycle puts analog values, and
then binary and integer values that share a draw.  The draws wait in two vectors, which
the cycle resizes before it writes to them.

`Draws.plan` is what a cycle is meant to put.  The second loop of a cycle does its part
(`testInts_emits`).  The first loop runs to `16` on a vector of size `16`, so a cycle
that no put ends makes an access out of range (`follows_iff`).
-/

namespace GateRasu

open Attempts (Emits upTo halts)
open Checked (OutOfRange)

/-! ## Draws -/

/-- A draw from `lower_bound` to `upper_bound`. -/
structure Draw where
  val : Nat
  lower : 1 ≤ val
  upper : val ≤ 100

namespace Draw

/-- The result of `testVector_int`. -/
def int (d : Draw) : BitVec 32 := BitVec.ofNat 32 d.val

/-- The result of `testVector_float`.  A number below `2 ^ 24` has an exact `float`. -/
def float (d : Draw) : BitVec 32 :=
  let e := Nat.log2 d.val
  BitVec.ofNat 32 ((127 + e) * 2 ^ 23 + (d.val - 2 ^ e) * 2 ^ (23 - e))

/-- The parity of a draw. -/
def parity (d : Draw) : BitVec 32 := BitVec.ofNat 32 (d.val % 2)

end Draw

/-- The draws of a cycle, by their index in the two vectors. -/
structure Draws where
  testVectorFloat : Nat → Draw
  testVectorInt : Nat → Draw

/-! ## The loop -/

/-- `QVector::resize`.  A new element is zero. -/
def resize (l : List (BitVec 32)) (n : Nat) : List (BitVec 32) :=
  l.take n ++ List.replicate (n - l.length) 0

theorem resize_length (l : List (BitVec 32)) (n : Nat) : (resize l n).length = n := by
  rw [resize, List.length_append, List.length_take, List.length_replicate]
  omega

/-- The static variables of `main` and its client. -/
structure Main where
  tTestFloat : List (BitVec 32)
  tTestInt : List (BitVec 32)
  channel : Channel

/-- The end of the loop. -/
inductive Halt where
  /-- A put has failed, and `main` returns `a.exec()`. -/
  | exec : Main → Halt
  /-- An access out of range. -/
  | fault : OutOfRange → Main → Halt

namespace Main

/-- An access to a vector. -/
def access {α : Type} (m : Main) (r : Except OutOfRange α) : Except Halt α :=
  r.mapError fun e => .fault e m

/-- The `switch` over the answer to a put. -/
def afterPut (m : Main) : PutRet × Channel → Except Halt Main
  | (.error, ch) => .error (.exec { m with channel := ch })
  | (.warning, ch) => .ok { m with channel := ch }
  | (.ok, ch) => .ok { m with channel := ch }

/-- The first loop at an index. -/
def testAna (o : Nat → PutRet) (d : Draws) (m : Main) (i : Nat) : Except Halt Main := do
  let m := { m with tTestFloat := resize m.tTestFloat 16 }
  let l ← m.access (Checked.modify m.tTestFloat i fun _ => (d.testVectorFloat i).float)
  let m := { m with tTestFloat := l }
  let x ← m.access (Checked.get m.tTestFloat i)
  m.afterPut ((m.channel.makeAValue i 0 x).put o)

/-- The binary value of the second loop. -/
def testBin (o : Nat → PutRet) (m : Main) (i : Nat) : Except Halt Main :=
  if i < 5 then do
    let x ← m.access (Checked.get m.tTestInt i)
    m.afterPut ((m.channel.makeBValue i 0 (x.srem 2)).put o)
  else return m

/-- The integer value of the second loop. -/
def testInt (o : Nat → PutRet) (m : Main) (i : Nat) : Except Halt Main := do
  let x ← m.access (Checked.get m.tTestInt i)
  m.afterPut ((m.channel.makeIValue i 1 x).put o)

/-- The second loop at an index. -/
def testBinInt (o : Nat → PutRet) (d : Draws) (m : Main) (i : Nat) : Except Halt Main := do
  let m := { m with tTestInt := resize m.tTestInt 8 }
  let l ← m.access (Checked.modify m.tTestInt i fun _ => (d.testVectorInt i).int)
  let m ← testBin o { m with tTestInt := l } i
  testInt o m i

/-- One turn of `for(;;sleep(1))`. -/
def cycle (o : Nat → PutRet) (m : Main) (d : Draws) : Except Halt Main := do
  let m ← (List.range 17).foldlM (testAna o d) m
  (List.range 8).foldlM (testBinInt o d) m

end Main

/-- The loop of `main`, for the draws of any number of cycles. -/
def mainLoop (o : Nat → PutRet) (cycles : List Draws) : Except Halt Main :=
  cycles.foldlM (Main.cycle o) ⟨[], [], ⟨.noType, []⟩⟩

/-! ## The plan -/

namespace Draws

/-- The analog puts of a cycle. -/
def anas (d : Draws) (i : Nat) : List Value := [.ana i 0 (d.testVectorFloat i).float]

/-- The binary and integer puts of a cycle at an index. -/
def binInts (d : Draws) (i : Nat) : List Value :=
  (if i < 5 then [.bin i 0 (d.testVectorInt i).parity] else []) ++
    [.int i 1 (d.testVectorInt i).int]

/-- What a cycle is meant to put. -/
def plan (d : Draws) : List Value :=
  (List.range 17).flatMap d.anas ++ (List.range 8).flatMap d.binInts

end Draws

/-- Whether a put ends the loop. -/
def endsMain (o : Nat → PutRet) (n : Nat) (_ : Value) : Bool := o n = .error

/-- The state in which the loop is left or goes on. -/
def mainState : Except Halt Main → Main
  | .ok m => m
  | .error (.exec m) => m
  | .error (.fault _ m) => m

/-- The loop makes no access out of range, and it puts its plan up to the first put that
fails. -/
structure FollowsPlan (o : Nat → PutRet) (cycles : List Draws) : Prop where
  inRange : ∀ e m, mainLoop o cycles ≠ .error (.fault e m)
  sent : (mainState (mainLoop o cycles)).channel.sent =
    upTo (endsMain o) 0 (cycles.flatMap Draws.plan)

/-! ## Steps -/

namespace Main

/-- A part of the loop that puts values. -/
abbrev Puts (o : Nat → PutRet) (m : Main) (vs : List Value) (r : Except Halt Main) : Prop :=
  Emits (fun m : Main => m.channel.sent) Halt.exec (endsMain o) m vs r

theorem afterPut_eq (o : Nat → PutRet) (m : Main) (v : Value) :
    m.afterPut (({ m.channel with value := v } : Channel).put o) =
      if endsMain o m.channel.sent.length v then
        .error (.exec { m with channel := ⟨v, m.channel.sent ++ [v]⟩ })
      else .ok { m with channel := ⟨v, m.channel.sent ++ [v]⟩ } := by
  rw [Channel.put, endsMain]
  cases o m.channel.sent.length <;> rfl

/-- A write to a resized vector, in range. -/
theorem modify_resize {n i : Nat} (h : i < n) (l : List (BitVec 32)) (x : BitVec 32) :
    ∃ l', Checked.modify (resize l n) (i : Nat) (fun _ => x) = .ok l' ∧
      Checked.get l' (i : Nat) = .ok x := by
  have hlen : i < (resize l n).length := by rwa [resize_length]
  refine ⟨_, Checked.modify_of_lt _ (Int.natCast_nonneg i) (Int.ofNat_lt.mpr hlen), ?_⟩
  refine Checked.get_of_getElem? ?_
  rw [Int.toNat_natCast, List.getElem?_modify, List.getElem?_eq_getElem hlen]
  exact congrArg some (if_pos rfl)

/-- The first loop puts its value below `16`. -/
theorem testAna_emits (o : Nat → PutRet) (d : Draws) (m : Main) {i : Nat} (h : i < 16) :
    Puts o m (d.anas i) (testAna o d m i) := by
  obtain ⟨l', hmodify, hget⟩ := modify_resize h m.tTestFloat (d.testVectorFloat i).float
  simp only [testAna, hmodify, access]
  show Emits _ _ _ _ _ (Except.mapError _ (Checked.get l' (i : Nat)) >>= _)
  rw [hget]
  exact Emits.single rfl (afterPut_eq o { m with tTestFloat := l' } _)

/-- At `16` it does not. -/
theorem testAna_fault (o : Nat → PutRet) (d : Draws) (m : Main) :
    testAna o d m 16 =
      .error (.fault ⟨16, 16⟩ { m with tTestFloat := resize m.tTestFloat 16 }) := by
  have hmodify : Checked.modify (resize m.tTestFloat 16) ((16 : Nat) : Int)
      (fun _ => (d.testVectorFloat 16).float) = .error ⟨16, 16⟩ := by
    rw [Checked.modify_of_ge _ (Int.ofNat_le.mpr (resize_length m.tTestFloat 16).le), resize_length]
    rfl
  simp only [testAna, hmodify, access]
  rfl

/-- The first loop below `16`. -/
theorem testAnas_emits (o : Nat → PutRet) (d : Draws) (m : Main) :
    Puts o m ((List.range 16).flatMap d.anas) ((List.range 16).foldlM (testAna o d) m) :=
  Emits.foldlM _ m fun m _ hi => testAna_emits o d m (List.mem_range.mp hi)

/-- A cycle ends among its first `16` puts or makes an access out of range. -/
theorem cycle_eq (o : Nat → PutRet) (m : Main) (d : Draws) :
    ∃ m', cycle o m d =
        (if halts (endsMain o) m.channel.sent.length ((List.range 16).flatMap d.anas) then
          .error (.exec m')
        else .error (.fault ⟨16, 16⟩ m')) ∧
      m'.channel.sent = m.channel.sent ++
        upTo (endsMain o) m.channel.sent.length ((List.range 16).flatMap d.anas) := by
  obtain ⟨m', hsent, hrun⟩ := testAnas_emits o d m
  have hrange : List.range 17 = List.range 16 ++ [16] := List.range_succ
  rw [cycle, hrange, List.foldlM_append, hrun]
  split
  · exact ⟨m', rfl, hsent⟩
  · refine ⟨{ m' with tTestFloat := resize m'.tTestFloat 16 }, ?_, hsent⟩
    show ((testAna o d m' 16 >>= pure) >>= _) = _
    rw [testAna_fault]
    rfl

end Main

/-! ## Runs -/

theorem halts_anas (o : Nat → PutRet) (d : Draws) :
    halts (endsMain o) 0 ((List.range 16).flatMap d.anas) = true ↔ ∃ k < 16, o k = .error := by
  have hmap : (List.range 16).flatMap d.anas =
      (List.range 16).map fun i => .ana i 0 (d.testVectorFloat i).float := List.map_eq_flatMap.symm
  rw [hmap, Attempts.halts_iff]
  constructor
  · rintro ⟨k, v, hv, hend⟩
    rw [Nat.zero_add] at hend
    have hk := (List.getElem?_eq_some_iff.mp hv).1
    rw [List.length_map, List.length_range] at hk
    exact ⟨k, hk, of_decide_eq_true hend⟩
  · rintro ⟨k, hk, herror⟩
    refine ⟨k, .ana k 0 (d.testVectorFloat k).float, ?_, ?_⟩
    · rw [List.getElem?_map, List.getElem?_range hk]
      rfl
    · rw [Nat.zero_add]
      exact decide_eq_true herror

/-- A loop with a cycle ends in the first loop of that cycle. -/
theorem mainLoop_cons (o : Nat → PutRet) (d : Draws) (cycles : List Draws) :
    ∃ m, m.channel.sent = upTo (endsMain o) 0 ((List.range 16).flatMap d.anas) ∧
      ((∃ k < 16, o k = .error) → mainLoop o (d :: cycles) = .error (.exec m)) ∧
      ((¬ ∃ k < 16, o k = .error) → mainLoop o (d :: cycles) = .error (.fault ⟨16, 16⟩ m)) := by
  obtain ⟨m, hcycle, hsent⟩ := Main.cycle_eq o ⟨[], [], ⟨.noType, []⟩⟩ d
  refine ⟨m, hsent, fun herror => ?_, fun herror => ?_⟩
  · rw [mainLoop, List.foldlM_cons, hcycle.trans (if_pos ((halts_anas o d).mpr herror))]
    rfl
  · rw [mainLoop, List.foldlM_cons, hcycle.trans (if_neg fun h => herror ((halts_anas o d).mp h))]
    rfl

/-- **The loop.**  It follows its plan exactly when there is no cycle or one of the first `16`
puts fails. -/
theorem follows_iff (o : Nat → PutRet) (cycles : List Draws) :
    FollowsPlan o cycles ↔ cycles = [] ∨ ∃ k < 16, o k = .error := by
  cases cycles with
  | nil =>
      refine iff_of_true ⟨fun e m h => ?_, rfl⟩ (Or.inl rfl)
      cases h
  | cons d cycles =>
      obtain ⟨m, hsent, hexec, hfault⟩ := mainLoop_cons o d cycles
      by_cases herror : ∃ k < 16, o k = .error
      · have hrun := hexec herror
        refine iff_of_true ⟨fun e m' h => ?_, ?_⟩ (Or.inr herror)
        · rw [hrun] at h
          cases h
        · have hhalts := (halts_anas o d).mpr herror
          have hrange : List.range 17 = List.range 16 ++ [16] := List.range_succ
          rw [hrun, List.flatMap_cons, Draws.plan, hrange, List.flatMap_append,
            List.append_assoc, List.append_assoc, Attempts.upTo_append_of_halts _ hhalts]
          exact hsent
      · refine iff_of_false (fun h => h.inRange _ m (hfault herror)) ?_
        rintro (h | h)
        · cases h
        · exact herror h

/-- One cycle whose puts all succeed. -/
theorem not_follows_cycle :
    ¬ FollowsPlan (fun _ => .ok)
      [⟨fun _ => ⟨1, by decide, by decide⟩, fun _ => ⟨1, by decide, by decide⟩⟩] := by
  intro h
  obtain ⟨m, -, -, hfault⟩ := mainLoop_cons (fun _ => .ok)
    ⟨fun _ => ⟨1, by decide, by decide⟩, fun _ => ⟨1, by decide, by decide⟩⟩ []
  exact h.inRange _ m (hfault fun ⟨_, _, herror⟩ => by cases herror)

end GateRasu
