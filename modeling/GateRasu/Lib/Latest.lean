import Mathlib

/-!
# The latest result

A history is a list of events, and a partial function gives some of them a result.
`latest` is the result of the last event that has one.

A component of a state that every step overwrites or leaves alone holds the latest
result after a run (`foldl_act`).  So what it holds comes from one event of the history.
-/

namespace Latest

variable {α β γ σ : Type}

/-- The result of the last event that has one. -/
def latest (f : α → Option β) (xs : List α) : Option β := xs.reverse.findSome? f

section

variable {f : α → Option β} {xs : List α}

@[simp] theorem latest_nil : latest f [] = none := rfl

@[simp] theorem latest_cons (x : α) : latest f (x :: xs) = (latest f xs).or (f x) := by
  simp [latest, List.findSome?_append]

@[simp] theorem latest_singleton (x : α) : latest f [x] = f x := by
  simp

theorem latest_append (ys : List α) :
    latest f (xs ++ ys) = (latest f ys).or (latest f xs) := by
  simp [latest, List.findSome?_append]

@[simp] theorem latest_concat (x : α) : latest f (xs ++ [x]) = (f x).or (latest f xs) := by
  simp [latest_append]

theorem latest_eq_none_iff : latest f xs = none ↔ ∀ x ∈ xs, f x = none := by
  simp [latest, List.findSome?_eq_none_iff]

/-- The latest result is that of an event with no result after it. -/
theorem latest_eq_some_iff {b : β} : latest f xs = some b ↔
    ∃ before x after, xs = before ++ x :: after ∧ f x = some b ∧ ∀ y ∈ after, f y = none := by
  rw [latest, List.findSome?_eq_some_iff]
  constructor
  · rintro ⟨after, x, before, hxs, hx, hafter⟩
    refine ⟨before.reverse, x, after.reverse, ?_, hx, fun y hy => ?_⟩
    · rw [← List.reverse_reverse xs, hxs]
      simp
    · exact hafter y (List.mem_reverse.mp hy)
  · rintro ⟨before, x, after, rfl, hx, hafter⟩
    refine ⟨after.reverse, x, before.reverse, by simp, hx, fun y hy => ?_⟩
    exact hafter y (List.mem_reverse.mp hy)

theorem exists_of_latest {b : β} (h : latest f xs = some b) : ∃ x ∈ xs, f x = some b := by
  obtain ⟨before, x, after, rfl, hx, -⟩ := latest_eq_some_iff.mp h
  exact ⟨x, by simp, hx⟩

/-- What holds of a default and of every result holds of the latest result. -/
theorem getD_latest {P : β → Prop} {b : β} (hb : P b)
    (hf : ∀ x ∈ xs, ∀ c, f x = some c → P c) : P ((latest f xs).getD b) := by
  cases h : latest f xs with
  | none => exact hb
  | some c =>
      obtain ⟨x, hx, hc⟩ := exists_of_latest h
      exact hf x hx c hc

/-- A result that is a function of what some events carry comes from the last that carries it. -/
theorem latest_eq_getLast? {δ : Type} {g : α → Option δ} {h : δ → β}
    (hf : ∀ x ∈ xs, f x = (g x).map h) : latest f xs = (xs.filterMap g).getLast?.map h := by
  induction xs using List.reverseRecOn with
  | nil => rfl
  | append_singleton xs x ih =>
      have hx := hf x (by simp)
      rw [latest_concat, ih fun y hy => hf y (by simp [hy]), hx, List.filterMap_append]
      cases hg : g x <;> simp [hg]

end

/-! ## Components that are overwritten -/

/-- An action of results on a component: no result leaves it alone, and a result hides the
results before it. -/
structure Overwrites (act : Option β → γ → γ) : Prop where
  none : ∀ c, act none c = c
  some : ∀ b o c, act (some b) (act o c) = act (some b) c

theorem overwrites_getD : Overwrites fun (o : Option β) c => o.getD c :=
  ⟨fun _ => rfl, fun _ _ _ => rfl⟩

/-- A component that may be missing. -/
theorem overwrites_map_getD : Overwrites fun (o : Option β) (c : Option β) => c.map o.getD where
  none := fun c => by cases c <;> rfl
  some := fun b o c => by cases c <;> rfl

section

variable {f : α → Option β} {act : Option β → γ → γ} {step : σ → α → σ} {p : σ → γ}

/-- A component that every step overwrites or leaves alone holds the latest result. -/
theorem foldl_act (hact : Overwrites act) (Inv : σ → Prop)
    (hinv : ∀ s x, Inv s → Inv (step s x)) (hstep : ∀ s x, Inv s → p (step s x) = act (f x) (p s))
    (xs : List α) {s : σ} (h : Inv s) : p (xs.foldl step s) = act (latest f xs) (p s) := by
  induction xs generalizing s with
  | nil => exact (hact.none (p s)).symm
  | cons x xs ih =>
      rw [List.foldl_cons, ih (hinv s x h), hstep s x h, latest_cons]
      cases latest f xs with
      | none => rw [hact.none, Option.none_or]
      | some b => rw [hact.some, Option.some_or]

end

end Latest
