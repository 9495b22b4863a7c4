import Mathlib

/-!
# Checked vectors

An access to a vector names an index, and the index may lie outside.  Here such
an access is an error that records the index and the size of the vector at that
moment, so a computation that ends in `.ok` has made no access out of range.

`Checked.foldlM_eq` is the rule for loops: under an invariant that every step keeps,
and under which every step is `.ok` with a known result, the whole loop is `.ok` and
its result is the fold of those results.
-/

namespace Checked

variable {α β ε σ : Type}

/-- An access outside a vector. -/
structure OutOfRange where
  /-- The index of the access. -/
  index : Int
  /-- The size of the vector at that moment. -/
  size : Nat
deriving DecidableEq, Repr

/-! ## Accesses -/

/-- The element at a signed index. -/
def get (l : List α) (i : Int) : Except OutOfRange α :=
  if h : 0 ≤ i ∧ i.toNat < l.length then .ok (l.get ⟨i.toNat, h.2⟩) else .error ⟨i, l.length⟩

/-- The vector with the element at a signed index changed. -/
def modify (l : List α) (i : Int) (f : α → α) : Except OutOfRange (List α) :=
  if 0 ≤ i ∧ i.toNat < l.length then .ok (l.modify i.toNat f) else .error ⟨i, l.length⟩

theorem get_of_getElem? {l : List α} {n : Nat} {a : α} (h : l[n]? = some a) :
    get l (n : Int) = .ok a := by
  obtain ⟨hn, rfl⟩ := List.getElem?_eq_some_iff.mp h
  have hr : 0 ≤ (n : Int) ∧ (n : Int).toNat < l.length := by omega
  simp [get, hn]

theorem get_of_lt {l : List α} {n : Nat} (d : α) (h : n < l.length) :
    get l (n : Int) = .ok (l.getD n d) := by
  refine get_of_getElem? ?_
  simp [List.getD, List.getElem?_eq_getElem h]

theorem modify_of_lt {l : List α} {i : Int} (f : α → α) (h0 : 0 ≤ i) (h : i < l.length) :
    modify l i f = .ok (l.modify i.toNat f) := by
  have hr : 0 ≤ i ∧ i.toNat < l.length := by omega
  simp only [modify, if_pos hr]

theorem modify_of_ge {l : List α} {i : Int} (f : α → α) (h : (l.length : Int) ≤ i) :
    modify l i f = .error ⟨i, l.length⟩ := by
  have hr : ¬ (0 ≤ i ∧ i.toNat < l.length) := by omega
  simp only [modify, if_neg hr]

/-! ## Pointwise changes -/

theorem mapIdx_id (l : List α) : (l.mapIdx fun _ a => a) = l := by
  refine List.ext_getElem? fun i => ?_
  rw [List.getElem?_mapIdx, Option.map_id']

/-- The change of one element changes every element by a function of its index. -/
theorem modify_eq_mapIdx (l : List α) (i : Nat) (f : α → α) :
    l.modify i f = l.mapIdx fun k a => if k = i then f a else a := by
  refine List.ext_getElem? fun k => ?_
  rw [List.getElem?_modify, List.getElem?_mapIdx]
  by_cases h : k = i
  · simp [h]
  · simp [h, Ne.symm h]

/-! ## Loops -/

theorem foldlM_eq {step : σ → β → Except ε σ} (pure : σ → β → σ) (Inv : σ → Prop) {xs : List β}
    (hstep : ∀ s, ∀ x ∈ xs, Inv s → step s x = .ok (pure s x))
    (hinv : ∀ s, ∀ x ∈ xs, Inv s → Inv (pure s x)) {s : σ} (h : Inv s) :
    xs.foldlM step s = .ok (xs.foldl pure s) := by
  induction xs generalizing s with
  | nil => rfl
  | cons x xs ih =>
      rw [List.foldlM_cons, hstep s x (List.mem_cons_self ..) h]
      exact ih (fun t y hy => hstep t y (List.mem_cons_of_mem _ hy))
        (fun t y hy => hinv t y (List.mem_cons_of_mem _ hy)) (hinv s x (List.mem_cons_self ..) h)

/-- What no step of a loop changes. -/
theorem foldl_frame {τ : Type} {f : σ → β → σ} (F : σ → τ) (h : ∀ s x, F (f s x) = F s) :
    ∀ (xs : List β) (s : σ), F (xs.foldl f s) = F s
  | [], _ => rfl
  | x :: xs, s => by rw [List.foldl_cons, foldl_frame F h xs, h]

/-! ## Loops that act once -/

section

variable {p : β → Prop} [DecidablePred p] {f : β → σ → σ}

theorem foldl_ite_none (xs : List β) (h : ∀ x ∈ xs, ¬ p x) (s : σ) :
    xs.foldl (fun s x => if p x then f x s else s) s = s := by
  induction xs with
  | nil => rfl
  | cons x xs ih =>
      rw [List.foldl_cons, if_neg (h x (List.mem_cons_self ..))]
      exact ih fun y hy => h y (List.mem_cons_of_mem _ hy)

/-- A loop that acts at a single element of its list. -/
theorem foldl_ite_unique (xs : List β) {x : β} (hnd : xs.Nodup) (hx : x ∈ xs) (hp : p x)
    (huniq : ∀ y, p y → y = x) (s : σ) :
    xs.foldl (fun s x => if p x then f x s else s) s = f x s := by
  obtain ⟨ys, zs, rfl⟩ := List.append_of_mem hx
  have hnot : x ∉ ys ++ zs := (List.nodup_cons.mp (List.nodup_middle.mp hnd)).1
  have hys : ∀ y ∈ ys, ¬ p y := fun y hy hpy =>
    hnot (List.mem_append_left _ (huniq y hpy ▸ hy))
  have hzs : ∀ y ∈ zs, ¬ p y := fun y hy hpy =>
    hnot (List.mem_append_right _ (huniq y hpy ▸ hy))
  rw [List.foldl_append, foldl_ite_none ys hys, List.foldl_cons, if_pos hp, foldl_ite_none zs hzs]

/-- A loop that runs at least once and whose step is idempotent. -/
theorem foldl_const {g : σ → σ} (hg : ∀ s, g (g s) = g s) :
    ∀ {xs : List β}, xs ≠ [] → ∀ s, xs.foldl (fun s _ => g s) s = g s
  | [], h, _ => absurd rfl h
  | [x], _, s => rfl
  | x :: y :: xs, _, s => by
      rw [List.foldl_cons, foldl_const hg (List.cons_ne_nil y xs), hg]

end

end Checked
