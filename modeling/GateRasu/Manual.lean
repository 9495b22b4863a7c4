import GateRasu.Publish

/-!
# The manual publication

`placeIn_PPD_2_manual` makes the values of `17` analog, `5` discrete and `8` integer
signals, and puts the buffer after each kind.  The buffer holds one value, so of all these
values only the last one of a kind is put.  The vectors are not asked for their sizes.

`manual_iff` says when no access is out of range, and what is put in any case.
-/

namespace GateRasu

open Checked (OutOfRange)

/-- Why the manual publication does not return `0`. -/
inductive ManualEnd where
  | fault : OutOfRange → Channel → ManualEnd
  /-- The return of `-1`. -/
  | failed : Channel → ManualEnd

/-- The value of the signal at an index. -/
def makeSignal (c : Connector) (g : Kind) (ch : Channel) (i : Nat) : Except ManualEnd Channel :=
  match Checked.get (c.signals g) (i : Nat) with
  | .error e => .error (.fault e ch)
  | .ok s => .ok { ch with value := s.put g i }

/-- The values of the signals with an index below `n`, one after the other. -/
def makeBelow (c : Connector) (g : Kind) (n : Nat) (ch : Channel) : Except ManualEnd Channel :=
  (List.range n).foldlM (makeSignal c g) ch

def putManual (o : Nat → PutRet) (ch : Channel) : Except ManualEnd Channel :=
  (checkPut (ch.put o)).mapError .failed

/-- `PLC_connector::placeIn_PPD_2_manual`. -/
def placeInPPD2Manual (o : Nat → PutRet) (c : Connector) (ch : Channel) :
    Except ManualEnd Channel := do
  let ch ← makeBelow c .ana 17 ch
  let ch ← putManual o ch
  let ch ← makeBelow c .dis 5 ch
  let ch ← putManual o ch
  let ch ← makeBelow c .int 8 ch
  putManual o ch

/-! ## One kind -/

/-- The channel at the end. -/
def endChannel : Except ManualEnd Channel → Channel
  | .ok ch => ch
  | .error (.fault _ ch) => ch
  | .error (.failed ch) => ch

section

variable {c : Connector} {g : Kind}

theorem makeSignal_some {i : Nat} {s : WSSignal} (h : (c.signals g)[i]? = some s) (ch : Channel) :
    makeSignal c g ch i = .ok { ch with value := s.put g i } := by
  rw [makeSignal, Checked.get_of_getElem? h]

theorem makeSignal_none {i : Nat} (h : (c.signals g)[i]? = none) (ch : Channel) :
    ∃ e, makeSignal c g ch i = .error (.fault e ch) := by
  have hlen : (c.signals g).length ≤ i := List.getElem?_eq_none_iff.mp h
  have hget : Checked.get (c.signals g) (i : Nat) = .error ⟨i, (c.signals g).length⟩ := by
    rw [Checked.get, dif_neg]
    omega
  exact ⟨_, by rw [makeSignal, hget]⟩

theorem makeBelow_succ_eq (n : Nat) (ch : Channel) :
    makeBelow c g (n + 1) ch = makeBelow c g n ch >>= fun ch => makeSignal c g ch n := by
  rw [makeBelow, List.range_succ, List.foldlM_append]
  simp only [List.foldlM_cons, List.foldlM_nil, bind_pure]
  rfl

/-- The value of the last signal is left in the buffer. -/
theorem makeBelow_some {n : Nat} {s : WSSignal} (h : (c.signals g)[n]? = some s) (ch : Channel) :
    makeBelow c g (n + 1) ch = .ok { ch with value := s.put g n } := by
  induction n generalizing s with
  | zero => exact (makeBelow_succ_eq 0 ch).trans (makeSignal_some h ch)
  | succ n ih =>
      have hlt : n + 1 < (c.signals g).length := (List.getElem?_eq_some_iff.mp h).1
      rw [makeBelow_succ_eq, ih (List.getElem?_eq_getElem (Nat.lt_of_succ_lt hlt))]
      exact makeSignal_some h _

/-- Nothing is put before the access out of range. -/
theorem makeBelow_none {n : Nat} (h : (c.signals g)[n]? = none) (ch : Channel) :
    ∃ e v, makeBelow c g (n + 1) ch = .error (.fault e { ch with value := v }) := by
  induction n with
  | zero =>
      obtain ⟨e, he⟩ := makeSignal_none h ch
      exact ⟨e, ch.value, (makeBelow_succ_eq 0 ch).trans he⟩
  | succ n ih =>
      rw [makeBelow_succ_eq]
      cases hn : (c.signals g)[n]? with
      | none =>
          obtain ⟨e, v, he⟩ := ih hn
          exact ⟨e, v, by rw [he]; rfl⟩
      | some s =>
          rw [makeBelow_some hn]
          obtain ⟨e, he⟩ := makeSignal_none h { ch with value := s.put g n }
          exact ⟨e, s.put g n, he⟩

end

/-! ## The publication -/

/-- The signals up to an index and their put, for some kinds one after the other. -/
def placeKinds (o : Nat → PutRet) (c : Connector) :
    List (Kind × Nat) → Channel → Except ManualEnd Channel
  | [], ch => .ok ch
  | (g, n) :: gs, ch => do
      let ch ← makeBelow c g (n + 1) ch
      let ch ← putManual o ch
      placeKinds o c gs ch

/-- No access is out of range, the puts numbered from `k`. -/
def KindsInRange (o : Nat → PutRet) (c : Connector) : List (Kind × Nat) → Nat → Prop
  | [], _ => True
  | (g, n) :: gs, k => n < (c.signals g).length ∧ (o k = .error ∨ KindsInRange o c gs (k + 1))

/-- One value of a kind. -/
def kindsPlan (c : Connector) (gs : List (Kind × Nat)) : List Value :=
  gs.filterMap fun x => (c.signals x.1)[x.2]?.map (WSSignal.put x.1 x.2)

section

variable {o : Nat → PutRet} {c : Connector} {g : Kind} {n : Nat}

/-- A kind without enough signals. -/
theorem placeKinds_none (h : (c.signals g)[n]? = none) (gs : List (Kind × Nat)) (ch : Channel) :
    ∃ e v, placeKinds o c ((g, n) :: gs) ch = .error (.fault e { ch with value := v }) := by
  obtain ⟨e, v, he⟩ := makeBelow_none h ch
  refine ⟨e, v, ?_⟩
  rw [placeKinds, he]
  rfl

theorem placeKinds_some {s : WSSignal} (h : (c.signals g)[n]? = some s) (gs : List (Kind × Nat))
    (ch : Channel) : placeKinds o c ((g, n) :: gs) ch =
      putManual o { ch with value := s.put g n } >>= placeKinds o c gs := by
  rw [placeKinds, makeBelow_some h]
  rfl

theorem putManual_error (ch : Channel) (h : o ch.sent.length = .error) :
    putManual o ch = .error (.failed ⟨ch.value, ch.sent ++ [ch.value]⟩) := by
  rw [putManual, Channel.put, h]
  rfl

theorem putManual_ok (ch : Channel) (h : o ch.sent.length ≠ .error) :
    putManual o ch = .ok ⟨ch.value, ch.sent ++ [ch.value]⟩ := by
  rw [putManual, Channel.put]
  cases ho : o ch.sent.length with
  | error => exact absurd ho h
  | ok | warning => rfl

end

theorem placeKinds_iff (o : Nat → PutRet) (c : Connector) (gs : List (Kind × Nat)) (ch : Channel) :
    ((∀ e ch', placeKinds o c gs ch ≠ .error (.fault e ch')) ↔
      KindsInRange o c gs ch.sent.length) ∧
    ∃ vs, (endChannel (placeKinds o c gs ch)).sent = ch.sent ++ vs ∧ vs <+: kindsPlan c gs := by
  induction gs generalizing ch with
  | nil => exact ⟨by simp [placeKinds, KindsInRange], [], by simp [placeKinds, endChannel], by simp⟩
  | cons x gs ih =>
      obtain ⟨g, n⟩ := x
      cases hn : (c.signals g)[n]? with
      | none =>
          have hlen : (c.signals g).length ≤ n := List.getElem?_eq_none_iff.mp hn
          obtain ⟨e, v, hrun⟩ := placeKinds_none (o := o) hn gs ch
          rw [hrun]
          refine ⟨iff_of_false (fun h => h _ _ rfl) fun h => ?_, [], ?_, List.nil_prefix⟩
          · exact absurd h.1 (Nat.not_lt.mpr hlen)
          · exact (List.append_nil _).symm
      | some s =>
          have hlen : n < (c.signals g).length := (List.getElem?_eq_some_iff.mp hn).1
          have hplan : kindsPlan c ((g, n) :: gs) = s.put g n :: kindsPlan c gs := by
            simp [kindsPlan, hn]
          rw [placeKinds_some hn, hplan]
          by_cases ho : o ch.sent.length = .error
          · rw [putManual_error { ch with value := s.put g n } ho]
            refine ⟨iff_of_true (fun e ch' h => ?_) ⟨hlen, Or.inl ho⟩, [s.put g n], rfl, ?_⟩
            · cases h
            · exact List.cons_prefix_cons.mpr ⟨rfl, List.nil_prefix⟩
          · rw [putManual_ok { ch with value := s.put g n } ho]
            obtain ⟨hiff, vs, hsent, hvs⟩ := ih ⟨s.put g n, ch.sent ++ [s.put g n]⟩
            refine ⟨hiff.trans ?_, s.put g n :: vs, ?_, List.cons_prefix_cons.mpr ⟨rfl, hvs⟩⟩
            · rw [KindsInRange, List.length_append]
              simp [hlen, ho]
            · refine hsent.trans ?_
              rw [List.append_assoc]
              rfl

/-- What is planned is the put of a signal. -/
theorem kindsPlan_subset (c : Connector) (gs : List (Kind × Nat)) :
    ∀ v ∈ kindsPlan c gs, v ∈ c.puts := by
  intro v hv
  obtain ⟨⟨g, n⟩, -, hv⟩ := List.mem_filterMap.mp hv
  obtain ⟨s, hs, rfl⟩ := Option.map_eq_some_iff.mp hv
  have hmem : s.put g n ∈ (c.signals g).mapIdx (WSSignal.put g) := by
    obtain ⟨hn, rfl⟩ := List.getElem?_eq_some_iff.mp hs
    exact List.mem_mapIdx.mpr ⟨n, hn, rfl⟩
  cases g <;> simp only [Connector.puts, List.mem_append] <;> tauto

/-- **The manual publication.**  It makes no access out of range exactly when a kind that is
reached has enough signals.  It puts at most one value of a kind, and one that `placeIn_PPD` would
put. -/
theorem manual_iff (o : Nat → PutRet) (c : Connector) (ch : Channel) :
    ((∀ e ch', placeInPPD2Manual o c ch ≠ .error (.fault e ch')) ↔
      16 < c.maASignals.length ∧ (o ch.sent.length = .error ∨
        4 < c.maDSignals.length ∧ (o (ch.sent.length + 1) = .error ∨
          7 < c.maIntSignals.length))) ∧
    ∃ vs, (endChannel (placeInPPD2Manual o c ch)).sent = ch.sent ++ vs ∧
      vs <+: kindsPlan c [(.ana, 16), (.dis, 4), (.int, 7)] ∧ ∀ v ∈ vs, v ∈ c.puts := by
  have hkinds : placeInPPD2Manual o c ch =
      placeKinds o c [(.ana, 16), (.dis, 4), (.int, 7)] ch := by
    have hlast : ∀ ch, (putManual o ch >>= fun ch => .ok ch) = putManual o ch := fun ch =>
      bind_pure _
    simp only [placeInPPD2Manual, placeKinds, hlast]
  obtain ⟨hiff, vs, hsent, hvs⟩ := placeKinds_iff o c [(.ana, 16), (.dis, 4), (.int, 7)] ch
  rw [hkinds]
  refine ⟨hiff.trans ?_, vs, hsent, hvs, fun v hv => kindsPlan_subset c _ v (hvs.subset hv)⟩
  simp [KindsInRange, Connector.signals]

end GateRasu
