import GateRasu.Gateway.Runs

/-!
# Where a quality comes from

The quality of a put is the one the last reply with the quality register of the signal
gave it (`put_quality`).  Before the first such reply it is the quality of the
constructors, which is `0`, a good one.
-/

namespace GateRasu

/-- The quality that a reply is decoded to for a signal, if it is. -/
def decodedQuality (L : Layout) (g : Kind) (k : Nat) (r : Reply) : Option (BitVec 32) :=
  if 0 ≤ L.qualOffset ∧ L.qualReg g k < L.qualOffset + 7 ∧ L.qualReg g k < L.numHold then
    (r.values[(L.qualReg g k).toNat]?).map (wordQuality k)
  else none

/-- The replies `rs` leave the quality `q` of a signal, which started with `0`: the last one
decoded for it gave `q`, or none was. -/
def QualityFrom (L : Layout) (g : Kind) (k : Nat) (rs : List Reply) (q : BitVec 32) : Prop :=
  (∃ before r after, rs = before ++ r :: after ∧ decodedQuality L g k r = some q ∧
    ∀ r' ∈ after, decodedQuality L g k r' = none) ∨
  (∀ r ∈ rs, decodedQuality L g k r = none) ∧ q = 0

/-! ## Replies -/

theorem sigQualValue_afterReply {c : Connector} {r : Reply} {g : Kind} {k : Nat} {s s' : WSSignal}
    (hs : (c.signals g)[k]? = some s) (hs' : ((c.afterReply r).signals g)[k]? = some s') :
    s'.sigQualValue = (decodedQuality c.layout g k r).getD s.sigQualValue := by
  rw [c.afterReply_getElem?, hs, Option.map_some, Option.some.injEq] at hs'
  rw [← hs', sigQualValue_cellScan_zero, decodedQuality]
  split
  · cases r.values[(c.layout.qualReg g k).toNat]? <;> rfl
  · rfl

/-- One reply more. -/
theorem QualityFrom.append {L : Layout} {g : Kind} {k : Nat} {rs : List Reply} {q : BitVec 32}
    (h : QualityFrom L g k rs q) (r : Reply) :
    QualityFrom L g k (rs ++ [r]) ((decodedQuality L g k r).getD q) := by
  cases hr : decodedQuality L g k r with
  | some q' => exact Or.inl ⟨rs, r, [], rfl, hr, fun _ h => by cases h⟩
  | none =>
      rcases h with ⟨before, r', after, rfl, hr', hafter⟩ | ⟨hnone, rfl⟩
      · refine Or.inl ⟨before, r', after ++ [r], by simp, hr', fun r'' h => ?_⟩
        rcases List.mem_append.mp h with h | h
        · exact hafter r'' h
        · rw [List.mem_singleton.mp h, hr]
      · refine Or.inr ⟨fun r' h => ?_, rfl⟩
        rcases List.mem_append.mp h with h | h
        · exact hnone r' h
        · rw [List.mem_singleton.mp h, hr]

/-- The quality of a signal after the replies of a run. -/
theorem qualityFrom_afterReplies {c : Connector} {g : Kind} {k : Nat} :
    ∀ (rs before : List Reply) {c' : Connector} {s s' : WSSignal}, c'.layout = c.layout →
      (c'.signals g)[k]? = some s → QualityFrom c.layout g k before s.sigQualValue →
      ((c'.afterReplies rs).signals g)[k]? = some s' →
      QualityFrom c.layout g k (before ++ rs) s'.sigQualValue
  | [], before, c', s, s', _, hs, hq, hs' => by
      have heq : s = s' := Option.some.inj (hs.symm.trans hs')
      rw [List.append_nil, ← heq]
      exact hq
  | r :: rs, before, c', s, s', hl, hs, hq, hs' => by
      obtain ⟨s₁, hs₁⟩ : ∃ s₁, ((c'.afterReply r).signals g)[k]? = some s₁ := by
        rw [c'.afterReply_getElem?, hs]
        exact ⟨_, rfl⟩
      have hq₁ := hq.append r
      rw [← hl, ← sigQualValue_afterReply hs hs₁, hl] at hq₁
      have hrun := qualityFrom_afterReplies rs (before ++ [r])
        ((c'.afterReply_layout r).trans hl) hs₁ hq₁ hs'
      rw [List.append_assoc] at hrun
      exact hrun

/-! ## Puts -/

/-- The signal a put is about, with its quality. -/
def Value.quality? : Value → Option (Kind × Nat × BitVec 32)
  | .ana i q _ => some (.ana, i, q)
  | .bin i q _ => some (.dis, i, q)
  | .int i q _ => some (.int, i, q)
  | .grp _ _ _ => none
  | .noType => none

theorem WSSignal.quality?_put (g : Kind) (i : Nat) (s : WSSignal) :
    (WSSignal.put g i s).quality? = some (g, i, s.sigQualValue) := by
  cases g <;> rfl

theorem mem_mapIdx_put {g g' : Kind} {l : List WSSignal} {v : Value} {k : Nat} {q : BitVec 32}
    (hv : v ∈ l.mapIdx (WSSignal.put g)) (hq : v.quality? = some (g', k, q)) :
    g' = g ∧ ∃ s, l[k]? = some s ∧ s.sigQualValue = q := by
  obtain ⟨i, hi, rfl⟩ := List.mem_mapIdx.mp hv
  rw [WSSignal.quality?_put] at hq
  cases hq
  exact ⟨rfl, l[k], List.getElem?_eq_getElem hi, rfl⟩

/-- A put with a quality is the put of a signal. -/
theorem mem_puts {c : Connector} {v : Value} {g : Kind} {k : Nat} {q : BitVec 32}
    (hv : v ∈ c.puts) (hq : v.quality? = some (g, k, q)) :
    ∃ s, (c.signals g)[k]? = some s ∧ s.sigQualValue = q := by
  rcases List.mem_append.mp hv with hv | hv
  · obtain ⟨rfl, h⟩ := mem_mapIdx_put hv hq
    exact h
  rcases List.mem_append.mp hv with hv | hv
  · obtain ⟨rfl, h⟩ := mem_mapIdx_put hv hq
    exact h
  rcases List.mem_append.mp hv with hv | hv
  · obtain ⟨rfl, h⟩ := mem_mapIdx_put hv hq
    exact h
  · obtain ⟨i, hi, rfl⟩ := List.mem_mapIdx.mp hv
    cases hq

/-! ## Runs -/

/-- A new signal has a good quality. -/
theorem sigQualValue_signal (env : Env) (n : Nat) (f : Fields) (g : Kind) :
    (f.signal env n g).sigQualValue = 0 := by
  cases g <;> rfl

/-- The constructors leave a good quality. -/
theorem readLines_sigQualValue {env : Env} {params : QString} {u : Uninit} {lines : List QString}
    {c : Connector} (h : readLines env (.new params u) lines = .ok c) :
    ∀ g, ∀ s ∈ c.signals g, s.sigQualValue = 0 := by
  refine readLines_inv (P := fun c => ∀ g, ∀ s ∈ c.signals g, s.sigQualValue = 0) ?_ ?_ ?_ ?_ h
  · intro c v s hc
    have hsame : ∀ g, (s.write c v).signals g = c.signals g := by
      intro g
      cases s <;> cases g <;> rfl
    intro g
    rw [hsame]
    exact hc g
  · intro c t hc g
    have hsame : (openSection c (some t)).signals g = c.signals g := by
      cases g <;> rfl
    rw [hsame]
    exact hc g
  · intro c f t hc g s hs
    rw [pushSignal_signals] at hs
    rcases List.mem_append.mp hs with hs | hs
    · exact hc g s hs
    · split at hs
      · rw [List.mem_singleton.mp hs, sigQualValue_signal]
      · cases hs
  · intro g s hs
    cases g <;> cases hs

theorem mem_afterReplies {g : Kind} {k : Nat} {s' : WSSignal} (rs : List Reply) {c : Connector}
    (h : ((c.afterReplies rs).signals g)[k]? = some s') : ∃ s, (c.signals g)[k]? = some s := by
  induction rs generalizing c with
  | nil => exact ⟨s', h⟩
  | cons r rs ih =>
      obtain ⟨s₁, hs₁⟩ := ih h
      rw [c.afterReply_getElem?, Option.map_eq_some_iff] at hs₁
      obtain ⟨s, hs, -⟩ := hs₁
      exact ⟨s, hs⟩

/-- **Qualities have a source.**  In every run outside the simulation, the quality of a put is
what the last earlier reply decoded for the signal gave it.  If there is none it is `0`. -/
theorem put_quality {env : Env} {params : QString} {u : Uninit} {f : IniFile} {r : Sent}
    {o : Nat → PutRet} {events : List Event} {g : Gateway} (hmode : params ≠ simul)
    (h : gateway env params u f r o events = .ok g) (pre post : List Obs) {v : Value}
    (hput : g.trace = pre ++ .put v :: post) {kind : Kind} {k : Nat} {q : BitVec 32}
    (hq : v.quality? = some (kind, k, q)) :
    QualityFrom g.conn.layout kind k (received pre) q := by
  obtain ⟨c, c₀, hread, hc₀, htraced⟩ := gateway_traced hmode h
  have hsame : ∀ kind, c₀.signals kind = c.signals kind := by
    intro kind
    rcases hc₀ with rfl | rfl
    · rfl
    · cases kind <;> rfl
  have hlayout : g.conn.layout = c₀.layout := by
    rw [htraced.conn, Connector.afterReplies_layout]
  obtain ⟨s', hs', rfl⟩ := mem_puts (htraced.put pre v post hput) hq
  obtain ⟨s, hs⟩ := mem_afterReplies (received pre) hs'
  have hzero : s.sigQualValue = 0 :=
    readLines_sigQualValue hread kind s (hsame kind ▸ List.mem_of_getElem? hs)
  have hstart : QualityFrom c₀.layout kind k [] s.sigQualValue :=
    Or.inr ⟨fun _ h => absurd h List.not_mem_nil, hzero⟩
  rw [hlayout]
  exact qualityFrom_afterReplies (received pre) [] rfl hs hstart hs'

/-- A gateway with one analog signal. -/
def oneSignal (events : List Event) : Except Checked.OutOfRange Gateway :=
  gateway ⟨fun _ => 0, fun _ => ⟨0, 0, 0, 0⟩⟩ "--WORK".toList ⟨0, 0, 0⟩
    (.complete ["[analog]".toList, "Signal1=Level,5199,5259,1".toList]) .pending (fun _ => .ok)
    events

/-- The reply to the first request says that the device has failed. -/
theorem put_quality_failed :
    ∃ g, oneSignal [.reply (.noError (List.replicate 66 1)), .tick .pending fun _ => .ok] = .ok g ∧
      QualityFrom g.conn.layout .ana 0 [.noError (List.replicate 66 1)] 1 := by
  have hmode : ("--WORK".toList : QString) ≠ simul := by decide
  obtain ⟨g, hrun, htrace⟩ : ∃ g,
      oneSignal [.reply (.noError (List.replicate 66 1)), .tick .pending fun _ => .ok] = .ok g ∧
        g.trace = [.request 5199 66 1, .received (.noError (List.replicate 66 1)),
          .request 5199 66 1, .put (.ana 0 1 0x10001)] :=
    ⟨_, rfl, rfl⟩
  exact ⟨g, hrun,
    put_quality hmode hrun [.request 5199 66 1, .received (.noError (List.replicate 66 1)),
      .request 5199 66 1] [] htrace rfl⟩

/-- The first tick puts a good quality before any reply. -/
theorem put_good_without_reply :
    ∃ g, oneSignal [.tick .pending fun _ => .ok] = .ok g ∧
      g.trace = [.request 5199 66 1, .request 5199 66 1, .put (.ana 0 0 0)] ∧
        received g.trace = [] :=
  ⟨_, rfl, rfl, rfl⟩

end GateRasu
