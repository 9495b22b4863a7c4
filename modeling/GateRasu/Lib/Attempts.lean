import GateRasu.Lib.Scan

/-!
# Attempts until one stops the run

A program makes attempts one after the other and keeps a log of them.  The answer to
an attempt may stop the program (`stop`), and the attempt that does is still logged.
`upTo` is the part of a plan that is attempted.

`Emits` is the specification of such a program: its log grows by the attempted part of
the plan, and it stops exactly when the plan has a stop.  Its rules follow the shape of
the program: an attempt, a sequence, a numbered loop.  A program that stops too often
still follows its strict specification when it has stopped before (`upTo_agree_iff`).
-/

namespace Attempts

variable {σ β ε : Type}

/-! ## Plans -/

section

variable (stop : Nat → β → Bool)

/-- The part of a plan up to its first stop, the attempts numbered from `n`. -/
def upTo : Nat → List β → List β
  | _, [] => []
  | n, b :: bs => if stop n b then [b] else b :: upTo (n + 1) bs

/-- Whether an attempt of a plan stops. -/
def halts : Nat → List β → Bool
  | _, [] => false
  | n, b :: bs => stop n b || halts (n + 1) bs

theorem upTo_prefix : ∀ (bs : List β) (n : Nat), upTo stop n bs <+: bs
  | [], _ => List.prefix_rfl
  | b :: bs, n => by
      rw [upTo]
      split
      · exact ⟨bs, rfl⟩
      · exact List.cons_prefix_cons.mpr ⟨rfl, upTo_prefix bs (n + 1)⟩

theorem upTo_eq_nil {bs : List β} {n : Nat} (h : upTo stop n bs = []) : bs = [] := by
  cases bs with
  | nil => rfl
  | cons b bs =>
      rw [upTo] at h
      split at h <;> cases h

theorem upTo_of_not_halts : ∀ {bs : List β} {n : Nat}, halts stop n bs = false →
    upTo stop n bs = bs
  | [], _, _ => rfl
  | b :: bs, n, h => by
      rw [halts, Bool.or_eq_false_iff] at h
      rw [upTo, h.1, upTo_of_not_halts h.2]
      rfl

theorem halts_append (bs cs : List β) (n : Nat) :
    halts stop n (bs ++ cs) = (halts stop n bs || halts stop (n + bs.length) cs) := by
  induction bs generalizing n with
  | nil => rfl
  | cons b bs ih =>
      rw [List.cons_append, halts, halts, ih, List.length_cons, Bool.or_assoc, Nat.add_right_comm,
        Nat.add_assoc]

theorem halts_iff {bs : List β} {n : Nat} :
    halts stop n bs = true ↔ ∃ k b, bs[k]? = some b ∧ stop (n + k) b = true := by
  induction bs generalizing n with
  | nil =>
      refine iff_of_false Bool.false_ne_true ?_
      rintro ⟨k, b, hb, -⟩
      cases hb
  | cons b bs ih =>
      rw [halts, Bool.or_eq_true, ih]
      constructor
      · rintro (h | ⟨k, c, hc, h⟩)
        · exact ⟨0, b, rfl, h⟩
        · exact ⟨k + 1, c, hc, by rwa [Nat.add_comm k 1, ← Nat.add_assoc]⟩
      · rintro ⟨k, c, hc, h⟩
        cases k with
        | zero =>
            cases hc
            exact Or.inl h
        | succ k => exact Or.inr ⟨k, c, hc, by rwa [Nat.add_assoc, Nat.add_comm 1 k]⟩

theorem halts_take_iff {bs : List β} {n k : Nat} :
    halts stop n (bs.take k) = true ↔
      ∃ j b, j < k ∧ bs[j]? = some b ∧ stop (n + j) b = true := by
  rw [halts_iff]
  constructor
  · rintro ⟨j, b, hb, h⟩
    rw [List.getElem?_take] at hb
    split at hb
    · exact ⟨j, b, ‹_›, hb, h⟩
    · cases hb
  · rintro ⟨j, b, hj, hb, h⟩
    exact ⟨j, b, by rw [List.getElem?_take_of_lt hj, hb], h⟩

/-- A plan is attempted to its end, or its last attempt is the first one that stops. -/
theorem upTo_cases (bs : List β) (n : Nat) :
    (halts stop n bs = false ∧ upTo stop n bs = bs ∧
      ∀ k b, bs[k]? = some b → stop (n + k) b = false) ∨
    (halts stop n bs = true ∧ ∃ cs b, upTo stop n bs = cs ++ [b] ∧
      stop (n + cs.length) b = true ∧ ∀ k b', cs[k]? = some b' → stop (n + k) b' = false) := by
  induction bs generalizing n with
  | nil => exact Or.inl ⟨rfl, rfl, fun k b h => by cases h⟩
  | cons b bs ih =>
      cases hb : stop n b with
      | true =>
          refine Or.inr ⟨by rw [halts, hb]; rfl, [], b, ?_, hb, fun k b' h => by cases h⟩
          rw [upTo, if_pos hb]
          rfl
      | false =>
          have hcons : ∀ cs : List β, (∀ k b', cs[k]? = some b' → stop (n + 1 + k) b' = false) →
              ∀ k b', (b :: cs)[k]? = some b' → stop (n + k) b' = false := by
            intro cs hcs k b' hk
            cases k with
            | zero =>
                cases hk
                exact hb
            | succ k =>
                rw [Nat.add_comm k 1, ← Nat.add_assoc]
                exact hcs k b' hk
          rw [upTo, halts, hb, Bool.false_or]
          rcases ih (n + 1) with ⟨hhalts, hall, hplain⟩ | ⟨hhalts, cs, b', hall, hstop, hplain⟩
          · exact Or.inl ⟨hhalts, congrArg (b :: ·) hall, hcons bs hplain⟩
          · refine Or.inr ⟨hhalts, b :: cs, b', congrArg (b :: ·) hall, ?_, hcons cs hplain⟩
            rw [List.length_cons, Nat.add_comm cs.length 1, ← Nat.add_assoc]
            exact hstop

theorem upTo_append_of_halts : ∀ {bs : List β} {n : Nat}, halts stop n bs = true →
    ∀ cs, upTo stop n (bs ++ cs) = upTo stop n bs
  | [], _, h, _ => by cases h
  | b :: bs, n, h, cs => by
      cases hb : stop n b with
      | true => rw [List.cons_append, upTo, upTo, if_pos hb, if_pos hb]
      | false =>
          rw [halts, hb, Bool.false_or] at h
          rw [List.cons_append, upTo, upTo, hb, upTo_append_of_halts h cs]

theorem upTo_append : ∀ {bs : List β} {n : Nat}, halts stop n bs = false →
    ∀ cs, upTo stop n (bs ++ cs) = bs ++ upTo stop (n + bs.length) cs
  | [], _, _, _ => rfl
  | b :: bs, n, h, cs => by
      rw [halts, Bool.or_eq_false_iff] at h
      rw [List.cons_append, upTo, h.1, upTo_append h.2 cs, List.length_cons, Nat.add_right_comm,
        Nat.add_assoc]
      rfl

end

/-! ## Two ways to stop -/

/-- Wherever a plan stops in one way, it has stopped in the other. -/
def Covered (stop strict : Nat → β → Bool) (n : Nat) (bs : List β) : Prop :=
  ∀ k b, bs[k]? = some b → stop (n + k) b = true → halts strict n (bs.take (k + 1)) = true

section

variable {stop strict : Nat → β → Bool}

theorem covered_of_strict {b : β} {n : Nat} (h : strict n b = true) (bs : List β) :
    Covered stop strict n (b :: bs) := by
  intro k c _ _
  rw [List.take_succ_cons, halts, h]
  rfl

/-- A first attempt that does not stop leaves the question to the others. -/
theorem covered_cons {b : β} {n : Nat} (hstop : stop n b = false) (hstrict : strict n b = false)
    (bs : List β) : Covered stop strict n (b :: bs) ↔ Covered stop strict (n + 1) bs := by
  constructor
  · intro h k c hc hk
    have hnext := h (k + 1) c hc (by rwa [Nat.add_comm k 1, ← Nat.add_assoc])
    rw [List.take_succ_cons, halts, hstrict, Bool.false_or] at hnext
    exact hnext
  · intro h k c hc hk
    cases k with
    | zero =>
        cases hc
        rw [Nat.add_zero, hstop] at hk
        cases hk
    | succ k =>
        rw [List.take_succ_cons, halts, hstrict, Bool.false_or]
        exact h k c hc (by rwa [Nat.add_assoc, Nat.add_comm 1 k])

/-- Two ways to stop, one of them stricter, cut a plan alike exactly when the strict one
covers the other. -/
theorem upTo_agree_iff (hle : ∀ n b, strict n b = true → stop n b = true) (bs : List β)
    (n : Nat) : (upTo stop n bs = upTo strict n bs ∧ halts stop n bs = halts strict n bs) ↔
      Covered stop strict n bs := by
  induction bs generalizing n with
  | nil =>
      refine iff_of_true ⟨rfl, rfl⟩ fun k b hb => ?_
      cases hb
  | cons b bs ih =>
      cases hstrict : strict n b with
      | true =>
          refine iff_of_true ?_ (covered_of_strict hstrict bs)
          rw [upTo, upTo, halts, halts, hstrict, hle n b hstrict]
          exact ⟨rfl, rfl⟩
      | false =>
          cases hstop : stop n b with
          | true =>
              refine iff_of_false ?_ fun h => ?_
              · rintro ⟨hupTo, hhalts⟩
                rw [upTo, upTo, hstop, hstrict, if_pos rfl, if_neg Bool.false_ne_true] at hupTo
                have hbs : bs = [] := upTo_eq_nil strict (List.cons.inj hupTo).2.symm
                simp [hbs, halts, hstop, hstrict] at hhalts
              · have hhead := h 0 b rfl hstop
                rw [List.take_succ_cons, List.take_zero, halts, hstrict] at hhead
                cases hhead
          | false =>
              rw [covered_cons hstop hstrict, ← ih (n + 1), upTo, upTo, halts, halts, hstop,
                hstrict, Bool.false_or, Bool.false_or, if_neg Bool.false_ne_true,
                if_neg Bool.false_ne_true, List.cons_inj_right]

end

/-! ## Programs -/

/-- The result `r` of a program from the state `s` that attempts the plan `bs`. -/
def Emits (log : σ → List β) (exit : σ → ε) (stop : Nat → β → Bool) (s : σ) (bs : List β)
    (r : Except ε σ) : Prop :=
  ∃ s', log s' = log s ++ upTo stop (log s).length bs ∧
    r = if halts stop (log s).length bs then .error (exit s') else .ok s'

section

variable {log : σ → List β} {exit : σ → ε} {stop : Nat → β → Bool}

theorem Emits.nil (s : σ) : Emits log exit stop s [] (.ok s) :=
  ⟨s, (List.append_nil (log s)).symm, rfl⟩

/-- A single attempt. -/
theorem Emits.single {s s' : σ} {b : β} {r : Except ε σ} (hlog : log s' = log s ++ [b])
    (hr : r = if stop (log s).length b then .error (exit s') else .ok s') :
    Emits log exit stop s [b] r := by
  refine ⟨s', ?_, ?_⟩
  · rw [hlog, upTo, upTo, ite_self]
  · rw [hr, halts, halts, Bool.or_false]

/-- A single attempt, and then a program. -/
theorem Emits.cons {s s' : σ} {b : β} {cs : List β} {r : Except ε σ} {f : σ → Except ε σ}
    (hlog : log s' = log s ++ [b])
    (hr : r = if stop (log s).length b then .error (exit s') else .ok s')
    (hf : Emits log exit stop s' cs (f s')) : Emits log exit stop s (b :: cs) (r >>= f) := by
  obtain ⟨s'', hlog', hf'⟩ := hf
  have hlen : (log s').length = (log s).length + 1 := by
    rw [hlog, List.length_append, List.length_singleton]
  rw [hlen] at hlog' hf'
  cases hb : stop (log s).length b with
  | true =>
      refine ⟨s', ?_, ?_⟩
      · rw [hlog, upTo, if_pos hb]
      · rw [hr, halts, hb]
        rfl
  | false =>
      refine ⟨s'', ?_, ?_⟩
      · rw [hlog', hlog, upTo, hb, List.append_assoc]
        rfl
      · rw [hr, halts, hb, Bool.false_or, ← hf']
        rfl

/-- A sequence of two programs. -/
theorem Emits.bind {s : σ} {bs cs : List β} {r : Except ε σ} {f : σ → Except ε σ}
    (hr : Emits log exit stop s bs r)
    (hf : ∀ s', log s' = log s ++ bs → Emits log exit stop s' cs (f s')) :
    Emits log exit stop s (bs ++ cs) (r >>= f) := by
  obtain ⟨s', hlog, rfl⟩ := hr
  cases hh : halts stop (log s).length bs with
  | true =>
      refine ⟨s', ?_, ?_⟩
      · rw [hlog, upTo_append_of_halts stop hh]
      · rw [halts_append, hh]
        rfl
  | false =>
      rw [upTo_of_not_halts stop hh] at hlog
      obtain ⟨s'', hlog', hf'⟩ := hf s' hlog
      rw [hlog, List.length_append] at hlog' hf'
      refine ⟨s'', ?_, ?_⟩
      · rw [hlog', upTo_append stop hh, List.append_assoc]
      · rw [halts_append, hh, Bool.false_or, ← hf']
        rfl

/-- A program also follows another way to stop exactly when the two cut its plan alike. -/
theorem Emits.agree_iff {stop' : Nat → β → Bool} {s : σ} {bs : List β} {r : Except ε σ}
    (hexit : Function.Injective exit) (h : Emits log exit stop s bs r) :
    Emits log exit stop' s bs r ↔
      upTo stop (log s).length bs = upTo stop' (log s).length bs ∧
        halts stop (log s).length bs = halts stop' (log s).length bs := by
  obtain ⟨t, hlog, hr⟩ := h
  constructor
  · rintro ⟨t', hlog', hr'⟩
    rw [hr] at hr'
    have hsame : t = t' ∧ halts stop (log s).length bs = halts stop' (log s).length bs := by
      cases hs : halts stop (log s).length bs <;> cases hs' : halts stop' (log s).length bs <;>
        rw [hs, hs'] at hr'
      · exact ⟨Except.ok.inj hr', rfl⟩
      · cases hr'
      · cases hr'
      · exact ⟨hexit (Except.error.inj hr'), rfl⟩
    obtain ⟨rfl, hhalts⟩ := hsame
    exact ⟨List.append_cancel_left (hlog.symm.trans hlog'), hhalts⟩
  · rintro ⟨hupTo, hhalts⟩
    exact ⟨t, by rw [hlog, hupTo], by rw [hr, hhalts]⟩

/-- A numbered loop whose every step is a program. -/
theorem Emits.scanM {α : Type} {step : σ → Nat → α → Except ε σ} {f : Nat → α → List β} :
    (∀ s i x, Emits log exit stop s (f i x) (step s i x)) → ∀ (xs : List α) (i : Nat) (s : σ),
      Emits log exit stop s ((xs.zipIdx i).flatMap fun x => f x.2 x.1)
        (Scan.scanM step s i xs)
  | _, [], _, s => Emits.nil s
  | h, x :: xs, i, s => by
      rw [List.zipIdx_cons, List.flatMap_cons, Scan.scanM]
      exact Emits.bind (h s i x) fun s' _ => Emits.scanM h xs (i + 1) s'

/-- A loop whose every step is a program. -/
theorem Emits.foldlM {α : Type} {step : σ → α → Except ε σ} {f : α → List β} :
    ∀ (xs : List α) (s : σ), (∀ s, ∀ x ∈ xs, Emits log exit stop s (f x) (step s x)) →
      Emits log exit stop s (xs.flatMap f) (xs.foldlM step s)
  | [], s, _ => Emits.nil s
  | x :: xs, s, h => by
      rw [List.flatMap_cons, List.foldlM_cons]
      refine Emits.bind (h s x (List.mem_cons_self ..)) fun s' _ => ?_
      exact Emits.foldlM xs s' fun s y hy => h s y (List.mem_cons_of_mem _ hy)

end

end Attempts
