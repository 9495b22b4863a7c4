import Mathlib

/-!
# Transducers

A transducer reads events and emits observations, and its state is not observed.  Two
transducers with different states are compared by what they emit.

`Simulates` is the condition on single events under which one transducer does what
another does: a relation of their states that every event keeps, and under which both
emit the same.  The first may have events and observations of its own.  An event is read
through `ρ`, as the events it stands for, and an observation through `view`.  Only the
events `ok` in a state count.  `Simulates.outputs_eq` carries the condition to the runs of
such events (`Legal`), and `Simulates.comp` chains two levels.
-/

/-- A machine with states `σ`, events `ε` and observations `ω`. -/
structure Transducer (σ ε ω : Type) where
  next : σ → ε → σ
  out : σ → ε → List ω

namespace Transducer

variable {σ τ υ ε ε' ε'' ω ω' ω'' : Type}

/-! ## Runs -/

section

variable (M : Transducer σ ε ω)

/-- The state after a run. -/
def stateAfter (s : σ) (es : List ε) : σ := es.foldl M.next s

/-- What a run emits. -/
def outputs : σ → List ε → List ω
  | _, [] => []
  | s, e :: es => M.out s e ++ outputs (M.next s e) es

@[simp] theorem outputs_nil (s : σ) : M.outputs s [] = [] := rfl

@[simp] theorem outputs_cons (s : σ) (e : ε) (es : List ε) :
    M.outputs s (e :: es) = M.out s e ++ M.outputs (M.next s e) es := rfl

@[simp] theorem stateAfter_nil (s : σ) : M.stateAfter s [] = s := rfl

@[simp] theorem stateAfter_cons (s : σ) (e : ε) (es : List ε) :
    M.stateAfter s (e :: es) = M.stateAfter (M.next s e) es := rfl

theorem stateAfter_append (s : σ) (es es' : List ε) :
    M.stateAfter s (es ++ es') = M.stateAfter (M.stateAfter s es) es' := List.foldl_append

theorem outputs_append (s : σ) (es es' : List ε) :
    M.outputs s (es ++ es') = M.outputs s es ++ M.outputs (M.stateAfter s es) es' := by
  induction es generalizing s with
  | nil => rfl
  | cons e es ih =>
      rw [List.cons_append, outputs_cons, ih, outputs_cons, List.append_assoc, stateAfter_cons]

/-- What every event keeps holds after a run. -/
theorem stateAfter_inv {P : σ → Prop} (h : ∀ s e, P s → P (M.next s e)) (es : List ε) {s : σ}
    (hs : P s) : P (M.stateAfter s es) := by
  induction es generalizing s with
  | nil => exact hs
  | cons e es ih => exact ih (h s e hs)

/-- A run emits only what some event of it emits, in a state of the run. -/
theorem forall_mem_outputs {P : σ → Prop} {Q : ω → Prop} (hnext : ∀ s e, P s → P (M.next s e))
    (hout : ∀ s e, P s → ∀ o ∈ M.out s e, Q o) (es : List ε) {s : σ} (hs : P s) :
    ∀ o ∈ M.outputs s es, Q o := by
  induction es generalizing s with
  | nil => simp
  | cons e es ih =>
      intro o ho
      rcases List.mem_append.mp ho with ho | ho
      · exact hout s e hs o ho
      · exact ih (hnext s e hs) o ho

/-- An observation of a run is one of an event, and the run before the event has emitted the
observations before those of the event. -/
theorem exists_of_outputs {es : List ε} {s : σ} {pre post : List ω} {x : ω}
    (h : M.outputs s es = pre ++ x :: post) : ∃ es₁ e es₂ p q, es = es₁ ++ e :: es₂ ∧
      M.out (M.stateAfter s es₁) e = p ++ x :: q ∧ pre = M.outputs s es₁ ++ p ∧
        post = q ++ M.outputs (M.stateAfter s (es₁ ++ [e])) es₂ := by
  induction es generalizing s pre with
  | nil => simp at h
  | cons e es ih =>
      have hrest : ∀ p, M.outputs (M.next s e) es = p ++ x :: post → pre = M.out s e ++ p →
          ∃ es₁ e' es₂ p q, e :: es = es₁ ++ e' :: es₂ ∧
            M.out (M.stateAfter s es₁) e' = p ++ x :: q ∧ pre = M.outputs s es₁ ++ p ∧
              post = q ++ M.outputs (M.stateAfter s (es₁ ++ [e'])) es₂ := by
        intro p hp hpre
        obtain ⟨es₁, e', es₂, p', q, rfl, hout, rfl, hpost⟩ := ih hp
        refine ⟨e :: es₁, e', es₂, p', q, rfl, hout, ?_, hpost⟩
        rw [hpre, outputs_cons, List.append_assoc]
      rw [outputs_cons] at h
      rcases List.append_eq_append_iff.mp h with ⟨p, hpre, hp⟩ | ⟨p, hout, hp⟩
      · exact hrest p hp hpre
      · cases p with
        | nil => exact hrest [] hp.symm (by rw [hout, List.append_nil, List.append_nil])
        | cons y p =>
            obtain ⟨rfl, hpost⟩ := List.cons.inj hp
            exact ⟨[], e, es, pre, p, rfl, hout, rfl, hpost⟩

/-- The observations of a kind in a run are those of its events. -/
theorem countP_outputs {P : σ → Prop} {p : ω → Bool} {f : ε → ℕ}
    (hnext : ∀ s e, P s → P (M.next s e)) (hout : ∀ s e, P s → (M.out s e).countP p = f e)
    (es : List ε) {s : σ} (hs : P s) : (M.outputs s es).countP p = (es.map f).sum := by
  induction es generalizing s with
  | nil => rfl
  | cons e es ih =>
      rw [outputs_cons, List.countP_append, hout s e hs, ih (hnext s e hs), List.map_cons,
        List.sum_cons]

/-- Every event of a run is `ok` in its state. -/
def Legal (ok : σ → ε → Prop) : σ → List ε → Prop
  | _, [] => True
  | s, e :: es => ok s e ∧ Legal ok (M.next s e) es

/-- What every `ok` event keeps holds after a run of such events. -/
theorem Legal.stateAfter_inv {M : Transducer σ ε ω} {ok : σ → ε → Prop} {P : σ → Prop}
    (h : ∀ s e, P s → ok s e → P (M.next s e)) {es : List ε} {s : σ} (hes : M.Legal ok s es)
    (hs : P s) : P (M.stateAfter s es) := by
  induction es generalizing s with
  | nil => exact hs
  | cons e es ih => exact ih hes.2 (h s e hs hes.1)

/-- A condition on events alone. -/
theorem legal_of_forall {ok : ε → Prop} {es : List ε} (h : ∀ e ∈ es, ok e) (s : σ) :
    M.Legal (fun _ => ok) s es := by
  induction es generalizing s with
  | nil => trivial
  | cons e es ih =>
      exact ⟨h e (List.mem_cons_self ..), ih (fun e' he' => h e' (List.mem_cons_of_mem _ he')) _⟩

end

/-! ## Simulation -/

/-- The events `ok` keep the relation `R`, and under `R` both emit the same. -/
structure Simulates (M : Transducer σ ε ω) (N : Transducer τ ε' ω') (ρ : ε → List ε')
    (view : ω → List ω') (ok : σ → ε → Prop) (R : σ → τ → Prop) : Prop where
  out : ∀ s t e, R s t → ok s e → (M.out s e).flatMap view = N.outputs t (ρ e)
  next : ∀ s t e, R s t → ok s e → R (M.next s e) (N.stateAfter t (ρ e))

namespace Simulates

variable {M : Transducer σ ε ω} {N : Transducer τ ε' ω'} {ρ : ε → List ε'} {view : ω → List ω'}
  {ok : σ → ε → Prop} {R : σ → τ → Prop}

/-- Runs of related states end in related states. -/
theorem stateAfter (h : Simulates M N ρ view ok R) (es : List ε) {s : σ} {t : τ}
    (hes : M.Legal ok s es) (hst : R s t) :
    R (M.stateAfter s es) (N.stateAfter t (es.flatMap ρ)) := by
  induction es generalizing s t with
  | nil => exact hst
  | cons e es ih =>
      rw [List.flatMap_cons, stateAfter_append]
      exact ih hes.2 (h.next s t e hst hes.1)

/-- **Simulation.**  Runs of related states emit the same. -/
theorem outputs_eq (h : Simulates M N ρ view ok R) (es : List ε) {s : σ} {t : τ}
    (hes : M.Legal ok s es) (hst : R s t) :
    (M.outputs s es).flatMap view = N.outputs t (es.flatMap ρ) := by
  induction es generalizing s t with
  | nil => rfl
  | cons e es ih =>
      have hrest := ih hes.2 (h.next s t e hst hes.1)
      rw [outputs_cons, List.flatMap_append, h.out s t e hst hes.1, hrest, List.flatMap_cons,
        outputs_append]

/-- Two levels, one above the other. -/
theorem comp {P : Transducer υ ε'' ω''} {ρ' : ε' → List ε''} {view' : ω' → List ω''}
    {ok' : τ → ε' → Prop} {R' : τ → υ → Prop} (h : Simulates M N ρ view ok R)
    (h' : Simulates N P ρ' view' ok' R') (hok : ∀ s t e, R s t → ok s e → N.Legal ok' t (ρ e)) :
    Simulates M P (fun e => (ρ e).flatMap ρ') (fun o => (view o).flatMap view') ok
      (fun s u => ∃ t, R s t ∧ R' t u) where
  out := by
    rintro s u e ⟨t, hst, htu⟩ he
    rw [← List.flatMap_assoc, h.out s t e hst he]
    exact h'.outputs_eq (ρ e) (hok s t e hst he) htu
  next := by
    rintro s u e ⟨t, hst, htu⟩ he
    exact ⟨_, h.next s t e hst he, h'.stateAfter (ρ e) (hok s t e hst he) htu⟩

end Simulates

/-- Two machines with the same events and observations. -/
abbrev Matches (M : Transducer σ ε ω) (N : Transducer τ ε ω) (ok : σ → ε → Prop)
    (R : σ → τ → Prop) : Prop :=
  Simulates M N (fun e => [e]) (fun o => [o]) ok R

theorem Matches.of_step {M : Transducer σ ε ω} {N : Transducer τ ε ω} {ok : σ → ε → Prop}
    {R : σ → τ → Prop} (hout : ∀ s t e, R s t → ok s e → M.out s e = N.out t e)
    (hnext : ∀ s t e, R s t → ok s e → R (M.next s e) (N.next t e)) : Matches M N ok R where
  out := fun s t e h he => by
    rw [List.flatMap_singleton', hout s t e h he, outputs_cons, outputs_nil, List.append_nil]
  next := hnext

section

variable {M : Transducer σ ε ω} {N : Transducer τ ε ω} {ok : σ → ε → Prop} {R : σ → τ → Prop}

theorem Matches.outputs_eq (h : Matches M N ok R) (es : List ε) {s : σ} {t : τ}
    (hes : M.Legal ok s es) (hst : R s t) : M.outputs s es = N.outputs t es := by
  have hrun := Simulates.outputs_eq h es hes hst
  rw [List.flatMap_singleton', List.flatMap_singleton'] at hrun
  exact hrun

theorem Matches.stateAfter (h : Matches M N ok R) (es : List ε) {s : σ} {t : τ}
    (hes : M.Legal ok s es) (hst : R s t) : R (M.stateAfter s es) (N.stateAfter t es) := by
  have hrun := Simulates.stateAfter h es hes hst
  rw [List.flatMap_singleton'] at hrun
  exact hrun

end

end Transducer
