import Mathlib

/-!
# Words in texts

A text is a list of letters.  `contains` looks for a word anywhere in a text, and
`removeMatches` deletes what a matcher recognises, from left to right and without
looking back over what it has deleted.

Two facts decide most questions about where a word can occur.  A word that does
not use a letter cannot lie across an occurrence of it (`contains_sep`), and a
word that uses a letter the text does not have is not there (`not_contains_of_mem`).
-/

namespace Text

variable {α : Type}

/-- A word without the letter `x` occurs on one side of it. -/
theorem infix_sep {w a b : List α} {x : α} (hx : x ∉ w) (h : w <:+: a ++ x :: b) :
    w <:+: a ∨ w <:+: b := by
  obtain ⟨u, v, huv⟩ := h
  rw [List.append_assoc] at huv
  rcases List.append_eq_append_iff.mp huv with ⟨t, ha, ht⟩ | ⟨t, hu, ht⟩
  · -- The word starts inside `a`, so it ends there: the next letter is `x`.
    rcases List.append_eq_append_iff.mp ht with ⟨r, hr, -⟩ | ⟨r, hw, hr⟩
    · exact Or.inl ⟨u, r, by rw [ha, hr, List.append_assoc]⟩
    · cases r with
      | nil =>
          refine Or.inl ⟨u, [], ?_⟩
          rw [ha, hw]
          simp
      | cons y r =>
          rw [List.cons_append, List.cons.injEq] at hr
          exact absurd (by rw [hw, ← hr.1]; simp) hx
  · cases t with
    | nil =>
        rw [List.nil_append] at ht
        cases w with
        | nil => exact Or.inl ⟨[], a, by simp⟩
        | cons y w =>
            rw [List.cons_append, List.cons.injEq] at ht
            exact absurd (by rw [← ht.1]; simp) hx
    | cons y t =>
        rw [List.cons_append, List.cons.injEq] at ht
        exact Or.inr ⟨t, v, by rw [ht.2, List.append_assoc]⟩

/-! ## Deletion of matches -/

/-- Delete what the matcher `m` recognises: `m s` is the length of the match at
the head of `s`, and `0` if there is none.  The number is how many letters of a
match are still to be deleted. -/
def removeMatches (m : List α → Nat) : Nat → List α → List α
  | _, [] => []
  | 0, a :: s =>
      match m (a :: s) with
      | 0 => a :: removeMatches m 0 s
      | k + 1 => removeMatches m k s
  | k + 1, _ :: s => removeMatches m k s

theorem removeMatches_drop (m : List α → Nat) :
    ∀ (u s : List α), removeMatches m u.length (u ++ s) = removeMatches m 0 s
  | [], _ => rfl
  | a :: u, s => by
      rw [List.length_cons, List.cons_append, removeMatches]
      exact removeMatches_drop m u s

/-- A match at the head is deleted whole. -/
theorem removeMatches_append {m : List α → Nat} {u s : List α} (hu : u ≠ [])
    (hm : m (u ++ s) = u.length) : removeMatches m 0 (u ++ s) = removeMatches m 0 s := by
  cases u with
  | nil => exact absurd rfl hu
  | cons a u =>
      rw [List.cons_append, List.length_cons] at hm
      rw [List.cons_append, removeMatches, hm]
      exact removeMatches_drop m u s

/-- A text without a match is unchanged. -/
theorem removeMatches_eq_self {m : List α → Nat} :
    ∀ {s : List α}, (∀ t, t <:+ s → m t = 0) → removeMatches m 0 s = s
  | [], _ => rfl
  | a :: s, h => by
      rw [removeMatches, h _ List.suffix_rfl]
      exact congrArg (a :: ·)
        (removeMatches_eq_self fun t ht => h t (ht.trans (List.suffix_cons a s)))

/-! ## Occurrences -/

variable [DecidableEq α]

/-- A deletion keeps a letter that no match has. -/
theorem count_removeMatches {m : List α → Nat} {x : α} (hm : ∀ s : List α, x ∉ s.take (m s)) :
    ∀ (s : List α) (k : Nat), (removeMatches m k s).count x = (s.drop k).count x
  | [], k => by rw [removeMatches, List.drop_nil]
  | a :: s, k + 1 => by
      rw [removeMatches, List.drop_succ_cons]
      exact count_removeMatches hm s k
  | a :: s, 0 => by
      rw [removeMatches]
      cases hk : m (a :: s) with
      | zero =>
          have ih := count_removeMatches hm s 0
          show (a :: removeMatches m 0 s).count x = (a :: s).count x
          rw [List.count_cons, List.count_cons, ih]
          rfl
      | succ k =>
          have hnot := hm (a :: s)
          rw [hk] at hnot
          have hsplit := congrArg (List.count x) (List.take_append_drop (k + 1) (a :: s))
          rw [List.count_append, List.count_eq_zero_of_not_mem hnot, Nat.zero_add] at hsplit
          exact (count_removeMatches hm s k).trans hsplit

/-- Whether the word `w` occurs in a text. -/
def contains (w : List α) : List α → Bool
  | [] => w.isEmpty
  | a :: s => w.isPrefixOf (a :: s) || contains w s

theorem contains_iff (w : List α) : ∀ s : List α, contains w s = true ↔ w <:+: s
  | [] => by simp [contains, List.isEmpty_iff]
  | a :: s => by
      rw [contains, Bool.or_eq_true, List.isPrefixOf_iff_prefix, contains_iff w s,
        List.infix_cons_iff]

theorem contains_eq_false_iff (w s : List α) : contains w s = false ↔ ¬ w <:+: s := by
  rw [← contains_iff, Bool.not_eq_true]

/-- A word with a letter the text lacks. -/
theorem not_contains_of_mem {w s : List α} {a : α} (hw : a ∈ w) (hs : a ∉ s) :
    contains w s = false :=
  (contains_eq_false_iff w s).mpr fun h => hs (h.subset hw)

theorem contains_sep {w : List α} {x : α} (hx : x ∉ w) (a b : List α) :
    contains w (a ++ x :: b) = (contains w a || contains w b) := by
  rw [Bool.eq_iff_iff, Bool.or_eq_true, contains_iff, contains_iff, contains_iff]
  constructor
  · exact infix_sep hx
  · rintro (h | h)
    · exact h.trans (List.prefix_append a (x :: b)).isInfix
    · exact h.trans ((List.suffix_cons x b).isInfix.trans (List.suffix_append a (x :: b)).isInfix)

/-- A word that ends at the last separator of a text lies before it. -/
theorem not_contains_snoc {w a b : List α} {x : α} (hb : x ∉ b) (h : contains w a = false) :
    contains (w ++ [x]) (a ++ x :: b) = false := by
  rw [contains_eq_false_iff] at h ⊢
  rintro ⟨u, v, huv⟩
  have hsplit : (u ++ w) ++ x :: v = a ++ x :: b := by
    rw [← huv, List.append_assoc, List.append_assoc, List.append_assoc]
    rfl
  rcases List.append_eq_append_iff.mp hsplit with ⟨t, ha, -⟩ | ⟨t, huw, ht⟩
  · exact h ⟨u, t, ha.symm⟩
  · cases t with
    | nil =>
        rw [List.append_nil] at huw
        exact h ⟨u, [], by rw [List.append_nil, huw]⟩
    | cons y t =>
        rw [List.cons_append, List.cons.injEq] at ht
        exact hb (by rw [ht.2]; simp)

theorem isPrefixOf_map {f : α → α} : ∀ {w : List α}, (∀ c ∈ w, ∀ d, f d = c ↔ d = c) →
    ∀ s : List α, w.isPrefixOf (s.map f) = w.isPrefixOf s
  | [], _, _ => rfl
  | _ :: _, _, [] => rfl
  | c :: w, hf, a :: s => by
      have htail := isPrefixOf_map (fun d hd => hf d (List.mem_cons_of_mem _ hd)) s
      have hhead : (c == f a) = (c == a) := by
        rw [Bool.eq_iff_iff, beq_iff_eq, beq_iff_eq, eq_comm, hf c (List.mem_cons_self ..) a,
          eq_comm]
      rw [List.map_cons, List.isPrefixOf, List.isPrefixOf, hhead, htail]

/-- A change of letters that does not touch those of a word. -/
theorem contains_map {f : α → α} {w : List α} (hf : ∀ c ∈ w, ∀ d, f d = c ↔ d = c)
    (s : List α) : contains w (s.map f) = contains w s := by
  induction s with
  | nil => rfl
  | cons a s ih =>
      have hprefix := isPrefixOf_map hf (a :: s)
      rw [List.map_cons] at hprefix
      rw [List.map_cons, contains, contains, hprefix, ih]

/-! ## Deletion of a word -/

/-- The matcher of a fixed word. -/
def literal (w s : List α) : Nat := if w.isPrefixOf s then w.length else 0

/-- Delete the occurrences of a word. -/
def remove (w s : List α) : List α := removeMatches (literal w) 0 s

theorem literal_eq_zero {w s : List α} (h : contains w s = false) : literal w s = 0 := by
  rw [literal, if_neg]
  intro hp
  exact (contains_eq_false_iff w s).mp h (List.isPrefixOf_iff_prefix.mp hp).isInfix

theorem count_remove {w : List α} {x : α} (hx : x ∉ w) (s : List α) :
    (remove w s).count x = s.count x := by
  refine count_removeMatches (fun s hmem => ?_) s 0
  unfold literal at hmem
  split at hmem
  · next hprefix =>
      rw [(List.prefix_iff_eq_take.mp (List.isPrefixOf_iff_prefix.mp hprefix)).symm] at hmem
      exact hx hmem
  · rw [List.take_zero] at hmem
    cases hmem

theorem remove_eq_self {w s : List α} (h : contains w s = false) : remove w s = s := by
  refine removeMatches_eq_self fun t ht => literal_eq_zero ?_
  rw [contains_eq_false_iff] at h ⊢
  exact fun hw => h (hw.trans ht.isInfix)

/-- A word at the head of a text that does not have it elsewhere. -/
theorem remove_append {w s : List α} (hw : w ≠ []) (h : contains w s = false) :
    remove w (w ++ s) = s := by
  rw [remove, removeMatches_append hw, ← remove, remove_eq_self h]
  rw [literal, if_pos (List.isPrefixOf_iff_prefix.mpr (List.prefix_append w s))]

/-- Deleting a single letter. -/
theorem remove_singleton (a : α) : ∀ s : List α, remove [a] s = s.filter (· ≠ a)
  | [] => rfl
  | b :: s => by
      have ih := remove_singleton a s
      rw [remove] at ih ⊢
      by_cases h : b = a
      · have hm : literal [a] (b :: s) = 1 := by simp [literal, h]
        rw [removeMatches, hm, List.filter_cons_of_neg (by simpa using h)]
        exact ih
      · have hm : literal [a] (b :: s) = 0 := by simp [literal, Ne.symm h]
        rw [removeMatches, hm, List.filter_cons_of_pos (by simpa using h)]
        exact congrArg (b :: ·) ih

/-! ## Splitting -/

/-- The first field of a text ends at the first separator. -/
theorem splitOn_append_cons {a s : List α} {x : α} (ha : x ∉ a) :
    (a ++ x :: s).splitOn x = a :: s.splitOn x := by
  induction a with
  | nil => simp [List.splitOn, List.splitOnP_cons_eq_if_modifyHead]
  | cons b a ih =>
      have hb : (b == x) = false := by
        rw [beq_eq_false_iff_ne]
        exact fun h => ha (h ▸ List.mem_cons_self ..)
      have ih' := ih fun h => ha (List.mem_cons_of_mem _ h)
      simp only [List.splitOn] at ih' ⊢
      rw [List.cons_append, List.splitOnP_cons_eq_if_modifyHead, hb, ih']
      rfl

/-- A text without a separator is one field. -/
theorem splitOn_of_not_mem {a : List α} {x : α} (ha : x ∉ a) : a.splitOn x = [a] := by
  induction a with
  | nil => rfl
  | cons b a ih =>
      have hb : (b == x) = false := by
        rw [beq_eq_false_iff_ne]
        exact fun h => ha (h ▸ List.mem_cons_self ..)
      have ih' := ih fun h => ha (List.mem_cons_of_mem _ h)
      simp only [List.splitOn] at ih' ⊢
      rw [List.splitOnP_cons_eq_if_modifyHead, hb, ih']
      rfl

/-- A text has one field more than it has separators. -/
theorem length_splitOn (x : α) (s : List α) : (s.splitOn x).length = s.count x + 1 := by
  induction s with
  | nil => rfl
  | cons a s ih =>
      simp only [List.splitOn] at ih ⊢
      rw [List.splitOnP_cons_eq_if_modifyHead, List.count_cons]
      split
      · rw [List.length_cons, ih]
      · rw [List.length_modifyHead, ih, Nat.add_zero]

end Text
