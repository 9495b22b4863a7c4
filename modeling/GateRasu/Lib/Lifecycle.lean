import Mathlib

/-!
# Objects that are made and deleted

A program makes objects, calls them and deletes them, and what it does is a list of
operations.  A heap says which objects there are and which there were.  A list of
operations is `Safe` when every operation is allowed in the heap before it: an object is
made once, and called and deleted only while it is there.  `Leads` composes the parts of a
program.

`Safe.life` is what safety means for one object: it is made, called, and deleted at most
once, in this order.
-/

namespace Lifecycle

variable {ι κ : Type}

/-- An operation on objects `ι` with calls `κ`. -/
inductive Op (ι κ : Type) where
  | new : ι → Op ι κ
  | call : ι → κ → Op ι κ
  | delete : ι → Op ι κ

/-- The object of an operation. -/
def Op.object : Op ι κ → ι
  | new x => x
  | call x _ => x
  | delete x => x

/-- The objects that there are, and those that there were. -/
@[ext] structure Heap (ι : Type) where
  live : Set ι
  dead : Set ι

namespace Heap

/-- No object yet. -/
def empty : Heap ι := ⟨∅, ∅⟩

/-- An operation is allowed. -/
def Allows (h : Heap ι) : Op ι κ → Prop
  | .new x => x ∉ h.live ∧ x ∉ h.dead
  | .call x _ => x ∈ h.live
  | .delete x => x ∈ h.live

/-- The heap after an operation. -/
def after (h : Heap ι) : Op ι κ → Heap ι
  | .new x => { h with live := insert x h.live }
  | .call _ _ => h
  | .delete x => ⟨h.live \ {x}, insert x h.dead⟩

/-- The heap after some operations. -/
def afterAll (h : Heap ι) (ops : List (Op ι κ)) : Heap ι := ops.foldl after h

@[simp] theorem afterAll_nil (h : Heap ι) : h.afterAll ([] : List (Op ι κ)) = h := rfl

@[simp] theorem afterAll_cons (h : Heap ι) (op : Op ι κ) (ops : List (Op ι κ)) :
    h.afterAll (op :: ops) = (h.after op).afterAll ops := rfl

theorem afterAll_append (h : Heap ι) (ops ops' : List (Op ι κ)) :
    h.afterAll (ops ++ ops') = (h.afterAll ops).afterAll ops' := List.foldl_append

end Heap

/-- Every operation is allowed in the heap before it. -/
def Safe : Heap ι → List (Op ι κ) → Prop
  | _, [] => True
  | h, op :: ops => h.Allows op ∧ Safe (h.after op) ops

theorem safe_append {h : Heap ι} {ops ops' : List (Op ι κ)} :
    Safe h (ops ++ ops') ↔ Safe h ops ∧ Safe (h.afterAll ops) ops' := by
  induction ops generalizing h with
  | nil => exact ⟨fun hs => ⟨trivial, hs⟩, And.right⟩
  | cons op ops ih => exact (and_congr_right fun _ => ih).trans and_assoc.symm

/-- Some operations are safe in a heap, and leave another. -/
structure Leads (h : Heap ι) (ops : List (Op ι κ)) (h' : Heap ι) : Prop where
  safe : Safe h ops
  heap : h.afterAll ops = h'

namespace Leads

variable {h h' h'' : Heap ι} {ops ops' : List (Op ι κ)} {x : ι}

theorem nil (h : Heap ι) : Leads h ([] : List (Op ι κ)) h := ⟨trivial, rfl⟩

theorem append (h₁ : Leads h ops h') (h₂ : Leads h' ops' h'') : Leads h (ops ++ ops') h'' where
  safe := safe_append.mpr ⟨h₁.safe, h₁.heap.symm ▸ h₂.safe⟩
  heap := by rw [Heap.afterAll_append, h₁.heap, h₂.heap]

theorem new (hl : x ∉ h.live) (hd : x ∉ h.dead) :
    Leads h [(.new x : Op ι κ)] ⟨insert x h.live, h.dead⟩ := ⟨⟨⟨hl, hd⟩, trivial⟩, rfl⟩

theorem delete (hx : x ∈ h.live) :
    Leads h [(.delete x : Op ι κ)] ⟨h.live \ {x}, insert x h.dead⟩ := ⟨⟨hx, trivial⟩, rfl⟩

/-- Calls to an object that is there. -/
theorem calls (hx : x ∈ h.live) (ks : List κ) : Leads h (ks.map (Op.call x)) h := by
  induction ks with
  | nil => exact nil h
  | cons k ks ih => exact ⟨⟨hx, ih.safe⟩, ih.heap⟩

end Leads

/-- What can have happened to an object, with where it is. -/
inductive Life (h : Heap ι) (x : ι) : List (Op ι κ) → Prop
  | unborn : x ∉ h.live → x ∉ h.dead → Life h x []
  | alive (ks : List κ) : x ∈ h.live → x ∉ h.dead → Life h x (.new x :: ks.map (Op.call x))
  | deleted (ks : List κ) : x ∉ h.live → x ∈ h.dead →
      Life h x (.new x :: (ks.map (Op.call x) ++ [.delete x]))

/-- An operation on another object. -/
theorem Life.other {h : Heap ι} {x : ι} {ops : List (Op ι κ)} {op : Op ι κ} (hx : op.object ≠ x)
    (hlife : Life h x ops) : Life (h.after op) x ops := by
  have hsame : (x ∈ (h.after op).live ↔ x ∈ h.live) ∧ (x ∈ (h.after op).dead ↔ x ∈ h.dead) := by
    cases op with
    | new y =>
        have hy : x ≠ y := Ne.symm hx
        simp [Heap.after, hy]
    | call y k => exact ⟨Iff.rfl, Iff.rfl⟩
    | delete y =>
        have hy : x ≠ y := Ne.symm hx
        simp [Heap.after, hy]
  obtain ⟨hlive, hdead⟩ := hsame
  cases hlife with
  | unborn hl hd => exact .unborn (hlive.not.mpr hl) (hdead.not.mpr hd)
  | alive ks hl hd => exact .alive ks (hlive.mpr hl) (hdead.not.mpr hd)
  | deleted ks hl hd => exact .deleted ks (hlive.not.mpr hl) (hdead.mpr hd)

/-- An allowed operation on the object. -/
theorem Life.same {h : Heap ι} {ops : List (Op ι κ)} {op : Op ι κ} (hop : h.Allows op)
    (hlife : Life h op.object ops) : Life (h.after op) op.object (ops ++ [op]) := by
  cases op with
  | new x =>
      obtain ⟨hl, hd⟩ := hop
      cases hlife with
      | unborn _ _ => exact .alive [] (Set.mem_insert x h.live) hd
      | alive ks hl' _ => exact absurd hl' hl
      | deleted ks _ hd' => exact absurd hd' hd
  | call x k =>
      cases hlife with
      | unborn hl _ => exact absurd hop hl
      | alive ks _ hd =>
          have hlife := Life.alive (ks ++ [k]) hop hd
          rw [List.map_append] at hlife
          exact hlife
      | deleted ks hl _ => exact absurd hop hl
  | delete x =>
      cases hlife with
      | unborn hl _ => exact absurd hop hl
      | alive ks _ hd =>
          have hnot : x ∉ (h.after (κ := κ) (.delete x)).live := by simp [Heap.after]
          have hin : x ∈ (h.after (κ := κ) (.delete x)).dead := Set.mem_insert x h.dead
          exact Life.deleted ks hnot hin
      | deleted ks hl _ => exact absurd hop hl

section

variable [DecidableEq ι]

/-- The operations on one object. -/
def ofObject (x : ι) (ops : List (Op ι κ)) : List (Op ι κ) := ops.filter (·.object = x)

theorem ofObject_append (x : ι) (ops ops' : List (Op ι κ)) :
    ofObject x (ops ++ ops') = ofObject x ops ++ ofObject x ops' := List.filter_append ..

/-- **The life of an object** under safe operations. -/
theorem Safe.life {ops : List (Op ι κ)} (hs : Safe Heap.empty ops) (x : ι) :
    Life (Heap.empty.afterAll ops) x (ofObject x ops) := by
  induction ops using List.reverseRecOn with
  | nil => exact .unborn (Set.notMem_empty x) (Set.notMem_empty x)
  | append_singleton ops op ih =>
      obtain ⟨hops, hop, -⟩ := safe_append.mp hs
      have hlife := ih hops
      rw [Heap.afterAll_append, ofObject_append]
      by_cases hx : op.object = x
      · subst hx
        have hone : ofObject op.object [op] = [op] := by simp [ofObject]
        rw [hone]
        exact hlife.same hop
      · have hnone : ofObject x [op] = [] := by simp [ofObject, hx]
        rw [hnone, List.append_nil]
        exact hlife.other hx

end

end Lifecycle
