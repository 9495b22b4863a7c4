import GateRasu.Lib.Checked

/-!
# Numbered scans

A scan hands a list of words to a step function one by one, each with its
number.  `scanM` is the fallible scan and `scan` the pure one.

A step that writes a cell at some numbers and leaves it alone at the others is
the common case.  The results about it say what the cell holds after the scan:
the word of the last number that writes it, or the old content if no number of
the scan does (`scan_write_last`, `scan_write_none`, `scan_write_at`).
-/

namespace Scan

variable {σ τ β ε : Type}

/-- Feed the words `bs`, numbered from `i`, to a fallible step. -/
def scanM (step : σ → Nat → β → Except ε σ) : σ → Nat → List β → Except ε σ
  | s, _, [] => .ok s
  | s, i, b :: bs => do
      let s' ← step s i b
      scanM step s' (i + 1) bs

/-- Feed the words `bs`, numbered from `i`, to a step. -/
def scan (step : σ → Nat → β → σ) : σ → Nat → List β → σ
  | s, _, [] => s
  | s, i, b :: bs => scan step (step s i b) (i + 1) bs

@[simp] theorem scan_cons (step : σ → Nat → β → σ) (s : σ) (i : Nat) (b : β) (bs : List β) :
    scan step s i (b :: bs) = scan step (step s i b) (i + 1) bs := rfl

theorem scanM_cons_ok {step : σ → Nat → β → Except ε σ} {s s' : σ} {i : Nat} {b : β}
    (h : step s i b = .ok s') (bs : List β) :
    scanM step s i (b :: bs) = scanM step s' (i + 1) bs := by
  rw [scanM, h]
  rfl

/-- A scan of two lists is a scan of the first followed by a scan of the second,
numbered on. -/
theorem scanM_append_ok {step : σ → Nat → β → Except ε σ} :
    ∀ {bs : List β} {s s' : σ} {i : Nat}, scanM step s i bs = .ok s' →
      ∀ cs, scanM step s i (bs ++ cs) = scanM step s' (i + bs.length) cs
  | [], s, s', i, h, cs => by
      cases h
      rfl
  | b :: bs, s, s', i, h, cs => by
      cases hb : step s i b with
      | error e =>
          rw [scanM, hb] at h
          cases h
      | ok t =>
          rw [scanM_cons_ok hb] at h
          rw [List.cons_append, scanM_cons_ok hb, scanM_append_ok h cs, List.length_cons,
            Nat.add_right_comm, Nat.add_assoc]

/-! ## Scans of other states -/

/-- The same result in another state, whether it is an error or not. -/
def both (f : σ → τ) : Except σ σ → Except τ τ
  | .error s => .error (f s)
  | .ok s => .ok (f s)

theorem both_bind {f : σ → τ} {g : σ → Except σ σ} {g' : τ → Except τ τ}
    (h : ∀ s, g' (f s) = both f (g s)) (r : Except σ σ) :
    (both f r >>= g') = both f (r >>= g) := by
  cases r with
  | error s => rfl
  | ok s => exact h s

/-- A scan whose steps do the same in another state does the same in that state. -/
theorem scanM_both {step : σ → Nat → β → Except σ σ} {step' : τ → Nat → β → Except τ τ}
    {f : σ → τ} (h : ∀ s i b, step' (f s) i b = both f (step s i b)) (bs : List β) (s : σ)
    (i : Nat) : scanM step' (f s) i bs = both f (scanM step s i bs) := by
  induction bs generalizing s i with
  | nil => rfl
  | cons b bs ih =>
      rw [scanM, scanM, h]
      exact both_bind (fun s => ih s (i + 1)) _

/-- A scan and then a program. -/
theorem scanM_both_bind {step : σ → Nat → β → Except σ σ} {step' : τ → Nat → β → Except τ τ}
    {f : σ → τ} {g : σ → Except σ σ} {g' : τ → Except τ τ}
    (h : ∀ s i b, step' (f s) i b = both f (step s i b)) (hg : ∀ s, g' (f s) = both f (g s))
    (bs : List β) (s : σ) (i : Nat) :
    (scanM step' (f s) i bs >>= g') = both f (scanM step s i bs >>= g) := by
  rw [scanM_both h]
  exact both_bind hg _

/-! ## What a cell holds after a scan -/

/-- A scan seen through a projection that the step respects. -/
theorem scan_proj {step : σ → Nat → β → σ} {step' : τ → Nat → β → τ} (f : σ → τ)
    (h : ∀ s i b, f (step s i b) = step' (f s) i b) :
    ∀ (bs : List β) (s : σ) (i : Nat), f (scan step s i bs) = scan step' (f s) i bs
  | [], _, _ => rfl
  | b :: bs, s, i => by
      rw [scan_cons, scan_cons, scan_proj f h bs, h]

theorem scan_append (step : σ → Nat → β → σ) :
    ∀ (bs cs : List β) (s : σ) (i : Nat),
      scan step s i (bs ++ cs) = scan step (scan step s i bs) (i + bs.length) cs
  | [], _, _, _ => rfl
  | b :: bs, cs, s, i => by
      rw [List.cons_append, scan_cons, scan_cons, scan_append step bs cs, List.length_cons,
        Nat.add_right_comm, Nat.add_assoc]

/-- Two scans of as many words agree when they agree on every word that is not
ignored. -/
theorem scan_congr {step : σ → Nat → β → σ} (p : Nat → Prop)
    (hskip : ∀ s i b, ¬ p i → step s i b = s) :
    ∀ {bs cs : List β} {s : σ} {i : Nat}, bs.length = cs.length →
      (∀ j, p (i + j) → bs[j]? = cs[j]?) → scan step s i bs = scan step s i cs
  | [], [], _, _, _, _ => rfl
  | [], _ :: _, _, _, hl, _ => by cases hl
  | _ :: _, [], _, _, hl, _ => by cases hl
  | b :: bs, c :: cs, s, i, hl, h => by
      have htail : ∀ j, p (i + 1 + j) → bs[j]? = cs[j]? := by
        intro j hj
        have := h (j + 1) (by rwa [Nat.add_comm j 1, ← Nat.add_assoc])
        simpa using this
      have hhead : step s i b = step s i c := by
        by_cases hp : p i
        · have hb : b = c := by simpa using h 0 (by simpa using hp)
          rw [hb]
        · rw [hskip s i b hp, hskip s i c hp]
      rw [scan_cons, scan_cons, hhead]
      exact scan_congr p hskip (Nat.succ.inj hl) htail

section Writes

variable (p : Nat → Prop) [DecidablePred p] (w : β → τ)

/-- Overwrite a cell with a function of the word at the numbers `p` holds of. -/
def write (a : τ) (i : Nat) (b : β) : τ := if p i then w b else a

/-- A cell that no number of the scan writes keeps its content. -/
theorem scan_write_none :
    ∀ (bs : List β) (a : τ) (i : Nat), (∀ j, i ≤ j → j < i + bs.length → ¬ p j) →
      scan (write p w) a i bs = a
  | [], _, _, _ => rfl
  | b :: bs, a, i, h => by
      have hi : ¬ p i := h i (Nat.le_refl _) (by simp)
      rw [scan_cons, write, if_neg hi]
      refine scan_write_none bs a (i + 1) (fun j hj hlt => h j (by omega) ?_)
      rw [List.length_cons]
      omega

/-- A cell holds the word of the last number that writes it. -/
theorem scan_write_last {bs : List β} {a : τ} {i r : Nat} {b : β} (hb : bs[r]? = some b)
    (hp : p (i + r)) (hlast : ∀ j, i + r < j → j < i + bs.length → ¬ p j) :
    scan (write p w) a i bs = w b := by
  obtain ⟨hr, hget⟩ := List.getElem?_eq_some_iff.mp hb
  have hsplit : bs = bs.take r ++ b :: bs.drop (r + 1) := by simp [← hget]
  have hlen : (bs.take r).length = r := by rw [List.length_take]; omega
  rw [hsplit, scan_append, hlen, scan_cons, write, if_pos hp]
  refine scan_write_none p w _ _ _ (fun j hj hlt => hlast j (by omega) ?_)
  rw [List.length_drop] at hlt
  omega

end Writes

/-- A cell that a single number writes. -/
theorem scan_write_at {p : Nat → Prop} [DecidablePred p] {r : Nat} {q : Prop} [Decidable q]
    (hp : ∀ i, p i ↔ i = r ∧ q) (w : β → τ) (bs : List β) (a : τ) :
    scan (write p w) a 0 bs = if q then (bs[r]?).elim a w else a := by
  by_cases hq : q
  · rw [if_pos hq]
    cases hb : bs[r]? with
    | none =>
        have hr : bs.length ≤ r := List.getElem?_eq_none_iff.mp hb
        refine scan_write_none p w bs a 0 fun j _ hj hjr => ?_
        have := ((hp j).mp hjr).1
        omega
    | some b =>
        refine scan_write_last p w hb ((hp _).mpr ⟨Nat.zero_add r, hq⟩) fun j hj _ hjr => ?_
        have := ((hp j).mp hjr).1
        omega
  · rw [if_neg hq]
    exact scan_write_none p w bs a 0 fun j _ _ hj => hq ((hp j).mp hj).2

end Scan
