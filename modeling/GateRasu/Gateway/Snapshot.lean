import GateRasu.Decode.Feeds
import GateRasu.Gateway.Mirror

/-!
# The memory of the gateway

With a configuration that fits its registers, and replies of the length that was asked
for, the gateway needs to remember two replies: the first and the last.  The machine
`snapshot` does, and publishes their register images.  The integer values, the discrete
values and the qualities are those of the last reply.  The analog values are those of
the first, for ever.

`gateway_snapshot` is the refinement, through the mirror.
-/

namespace GateRasu

open Latest (latest)

/-! ## The machine -/

/-- The registers of a reply without an error. -/
def Reply.unit? : Reply → Option (List (BitVec 16))
  | .noError values => some values
  | .protocolError => none
  | .otherError => none

/-- Two replies, and the number of requests that wait for one. -/
structure Snapshot where
  first : Option (List (BitVec 16))
  last : Option (List (BitVec 16))
  pending : Nat

namespace Snapshot

/-- The end of a pending request. -/
def receive (s : Snapshot) (r : Reply) : Snapshot where
  first := s.first.or r.unit?
  last := r.unit?.or s.last
  pending := s.pending - 1

/-- The reply that the values of a kind come from. -/
def source (s : Snapshot) : Kind → Option (List (BitVec 16))
  | .ana => s.first
  | .dis => s.last
  | .int => s.last

def value (s : Snapshot) (g : Kind) (k : Nat) : BitVec 32 :=
  (s.source g).elim 0 fun values => BitVec.ofNat 32 (Image.value values g k)

def quality (s : Snapshot) (off : Nat) (g : Kind) (k : Nat) : BitVec 32 :=
  s.last.elim 0 fun values => BitVec.ofNat 32 (Image.quality off values g k)

/-- What is meant to be published. -/
def plan (P : Setup) (s : Snapshot) : List Value :=
  P.layout.plan P.groups fun g k => (s.quality P.layout.qualOffset.toNat g k, s.value g k)

end Snapshot

/-- A gateway that remembers two replies. -/
def snapshot (P : Setup) : Transducer Snapshot Event Obs where
  next s
    | .tick r _ => { s with pending := s.pending + r.waits }
    | .reply r => if 0 < s.pending then s.receive r else s
  out s
    | .tick r o => P.request r ++ publishObs o (s.plan P)
    | .reply r => if 0 < s.pending then [.received r] else []

/-! ## Whole replies -/

/-- Every signal has its registers, and the discrete signals are those of one word. -/
structure Layout.Fits (L : Layout) : Prop where
  value : ∀ g, L.FitsValue g
  quality : ∀ g, L.FitsQuality g
  discrete : L.num .dis < 16

/-- A reply without an error has `n` registers. -/
def Reply.Whole (n : Nat) (r : Reply) : Prop := ∀ values, r.unit? = some values → values.length = n

/-- The replies of a run are whole. -/
def Event.Whole (n : Nat) : Event → Prop
  | .tick _ _ => True
  | .reply r => r.Whole n

theorem eq_ofNat {x : BitVec 32} {n : Nat} (h : x.toNat = n) : x = BitVec.ofNat 32 n := by
  rw [← h, BitVec.ofNat_toNat, BitVec.setWidth_eq]

section

variable {L : Layout} {k : Nat}

theorem decodedInt_whole (hL : L.FitsValue .int) (hk : k < L.num .int) {r : Reply}
    (hr : r.Whole L.numHold) : decodedInt L k r =
      r.unit?.map fun values => BitVec.ofNat 32 (Image.value values .int k) := by
  have hfits : L.num .int = 0 ∨ (L.num .int ≤ 10 ∧ 40 + L.num .int ≤ L.numHold) := hL
  cases r with
  | noError values =>
      have hlen : values.length = L.numHold := hr values rfl
      have hlt : 40 + k < values.length := by omega
      have hcond : k < 10 ∧ 40 + k < L.numHold := by omega
      have hword : Image.word values (mSumAReg + k) = values[40 + k].toNat :=
        Image.getD_of_getElem? (List.getElem?_eq_getElem hlt)
      simp [decodedInt, hcond, Reply.values, Reply.unit?, Image.value, hword, hlt]
  | protocolError | otherError => simp [decodedInt, Reply.values, Reply.unit?]

theorem decodedDis_whole (hL : L.Fits) (hk : k < L.num .dis) {r : Reply}
    (hr : r.Whole L.numHold) : decodedDis L k r =
      r.unit?.map fun values => BitVec.ofNat 32 (Image.value values .dis k) := by
  have hfits : L.num .dis = 0 ∨ 50 < L.numHold := hL.value .dis
  have hone := hL.discrete
  cases r with
  | noError values =>
      have hlen : values.length = L.numHold := hr values rfl
      have hend : L.disEnd values.length = 51 := by
        rw [Layout.disEnd]
        omega
      have hlt : 50 < values.length := by omega
      have hcond : L.num .dis / 16 * 16 ≤ k := by omega
      have hdiv : mSumAReg + mSumIntReg + k / 16 = 50 := by
        rw [mSumAReg, mSumIntReg]
        omega
      have hbit : bitAt (values[50].setWidth 32) (k % 16) =
          BitVec.ofNat 32 (Image.value values .dis k) := by
        refine eq_ofNat ?_
        rw [bitAt_toNat _ (Nat.mod_lt _ (by decide)), Image.value, Image.bit, hdiv,
          Image.getD_of_getElem? (List.getElem?_eq_getElem hlt)]
      simp [decodedDis, Reply.values, Reply.unit?, hend, hcond, hlt, hbit]
  | protocolError | otherError => simp [decodedDis, Reply.values, Reply.unit?]

theorem decodedQuality_whole {g : Kind} (hL : L.FitsQuality g) (hk : k < L.num g) {r : Reply}
    (hr : r.Whole L.numHold) : decodedQuality L g k r =
      r.unit?.map fun values =>
        BitVec.ofNat 32 (Image.quality L.qualOffset.toNat values g k) := by
  have hsec := Image.qualSection_eq g
  have hfits : L.num g = 0 ∨ (0 ≤ L.qualOffset ∧ L.qualReg g (L.num g - 1) < L.qualOffset + 7 ∧
    L.qualReg g (L.num g - 1) < L.numHold) := hL
  have hreg : L.qualReg g k = L.qualOffset + Image.sectionStart g + (k / 8 : Nat) := by
    rw [Layout.qualReg, hsec]
  rw [Layout.qualReg, hsec] at hfits
  cases r with
  | noError values =>
      have hlen : values.length = L.numHold := hr values rfl
      have hcond : 0 ≤ L.qualOffset ∧ L.qualReg g k < L.qualOffset + 7 ∧
          L.qualReg g k < L.numHold := by
        rw [hreg]
        omega
      have hnat : (L.qualReg g k).toNat = L.qualOffset.toNat + Image.sectionStart g + k / 8 := by
        rw [hreg]
        omega
      have hlt : L.qualOffset.toNat + Image.sectionStart g + k / 8 < values.length := by omega
      have hword := Image.getD_of_getElem? (List.getElem?_eq_getElem hlt)
      have hquality : wordQuality k values[L.qualOffset.toNat + Image.sectionStart g + k / 8] =
          BitVec.ofNat 32 (Image.quality L.qualOffset.toNat values g k) := by
        refine eq_ofNat ?_
        rw [wordQuality_toNat, Image.quality, Image.bit, Image.bit, hword]
      rw [decodedQuality, if_pos hcond, hnat, Reply.values, List.getElem?_eq_getElem hlt,
        Option.map_some, hquality]
      rfl
  | protocolError | otherError =>
      rw [decodedQuality, Reply.values]
      split <;> rfl

/-- Failed replies are not in the history. -/
theorem Layout.history_eq (L : Layout) (rs : List Reply) :
    L.history rs = (rs.filterMap Reply.unit?).flatMap L.staged := by
  induction rs with
  | nil => rfl
  | cons r rs ih =>
      have hcons : L.history (r :: rs) = L.staged r.values ++ L.history rs := rfl
      rw [hcons, ih]
      cases r <;> simp [Reply.unit?, Reply.values, List.filterMap_cons]

theorem coversAna_iff (r : Reply) : coversAna L k r = true ↔
    ∃ values, r.unit? = some values ∧ 2 * k + 1 < L.numHold ∧ 2 * k + 1 < values.length := by
  rw [coversAna, decide_eq_true_iff]
  cases r <;> simp [Reply.values, Reply.unit?]

/-- The words of an analog signal are those of the first reply. -/
theorem shownValue_ana_whole (hL : L.FitsValue .ana) (hk : k < L.num .ana) {rs : List Reply}
    (hrs : ∀ r ∈ rs, r.Whole L.numHold) : shownValue L k rs .ana =
      (rs.filterMap Reply.unit?).head?.elim 0 fun values =>
        BitVec.ofNat 32 (Image.value values .ana k) := by
  have hfits : 2 * L.num .ana ≤ L.numHold := hL
  rw [shownValue, L.history_eq]
  cases hgood : rs.filterMap Reply.unit? with
  | nil =>
      have hnone : rs.any (coversAna L k) = false := by
        refine List.any_eq_false.mpr fun r hr hcov => ?_
        obtain ⟨values, hvalues, -⟩ := (coversAna_iff r).mp hcov
        have hmem := List.mem_filterMap.mpr ⟨r, hr, hvalues⟩
        rw [hgood] at hmem
        cases hmem
      rw [hnone]
      rfl
  | cons values rest =>
      have hmem : values ∈ rs.filterMap Reply.unit? := hgood ▸ List.mem_cons_self ..
      obtain ⟨r, hr, hvalues⟩ := List.mem_filterMap.mp hmem
      have hlen : values.length = L.numHold := hrs r hr values hvalues
      have hany : rs.any (coversAna L k) = true :=
        List.any_eq_true.mpr ⟨r, hr, (coversAna_iff r).mpr ⟨values, hvalues, by omega, by omega⟩⟩
      have hword : ∀ j, j ≤ 2 * k + 1 →
          (((values :: rest).flatMap L.staged).getD j 0).toNat = Image.word values j := by
        intro j hj
        have hlt : j < (L.staged values).length := by
          rw [Layout.staged, List.length_take, Layout.stagedNum]
          omega
        rw [Image.word, List.flatMap_cons, List.getD_eq_getElem?_getD,
          List.getElem?_append_left hlt, Layout.staged, List.getElem?_take_of_lt,
          List.getD_eq_getElem?_getD]
        rw [Layout.stagedNum]
        omega
      rw [if_pos hany, List.head?_cons, Option.elim_some]
      refine eq_ofNat ?_
      rw [joinWords_toNat, hword _ le_rfl, hword _ (by omega), Image.value]

end

/-! ## The refinement -/

/-- A mirror and a snapshot of its replies. -/
structure Remembers (L : Layout) (m : Mirror) (s : Snapshot) : Prop where
  whole : ∀ r ∈ m.replies, r.Whole L.numHold
  first : s.first = (m.replies.filterMap Reply.unit?).head?
  last : s.last = (m.replies.filterMap Reply.unit?).getLast?
  pending : s.pending = m.pending

theorem Remembers.plan {P : Setup} {m : Mirror} {s : Snapshot} (hP : P.layout.Fits)
    (h : Remembers P.layout m s) : P.plan m.replies = s.plan P := by
  refine Layout.plan_congr fun g k hk => ?_
  have hquality : shownQuality P.layout k m.replies g =
      s.quality P.layout.qualOffset.toNat g k := by
    rw [shownQuality, Latest.latest_eq_getLast? fun r hr =>
      decodedQuality_whole (hP.quality g) hk (h.whole r hr), ← h.last, Snapshot.quality]
    cases s.last <;> rfl
  have hvalue : shownValue P.layout k m.replies g = s.value g k := by
    cases g with
    | ana =>
        rw [shownValue_ana_whole (hP.value .ana) hk h.whole, ← h.first]
        rfl
    | dis =>
        rw [shownValue, Latest.latest_eq_getLast? fun r hr => decodedDis_whole hP hk (h.whole r hr),
          ← h.last, Snapshot.value, Snapshot.source]
        cases s.last <;> rfl
    | int =>
        rw [shownValue, Latest.latest_eq_getLast? fun r hr =>
          decodedInt_whole (hP.value .int) hk (h.whole r hr), ← h.last, Snapshot.value,
          Snapshot.source]
        cases s.last <;> rfl
  rw [hquality, hvalue]

/-- **One event.**  With whole replies, the mirror does what the snapshot does. -/
theorem mirror_matches {P : Setup} (hP : P.layout.Fits) :
    Transducer.Matches (mirror P) (snapshot P) (fun _ => Event.Whole P.layout.numHold)
      (Remembers P.layout) := by
  refine Transducer.Matches.of_step ?_ ?_
  · intro m s e h _
    cases e with
    | tick r o => exact congrArg (fun vs => P.request r ++ publishObs o vs) (h.plan hP)
    | reply r => simp [mirror, snapshot, h.pending]
  · intro m s e h hwhole
    cases e with
    | tick r o => exact ⟨h.whole, h.first, h.last, congrArg (· + r.waits) h.pending⟩
    | reply r =>
        by_cases hp : 0 < m.pending
        · have hnext : (snapshot P).next s (.reply r) = s.receive r := if_pos (h.pending ▸ hp)
          have hmirror : (mirror P).next m (.reply r) = ⟨m.replies ++ [r], m.pending - 1⟩ :=
            if_pos hp
          rw [hnext, hmirror]
          refine ⟨?_, ?_, ?_, congrArg (· - 1) h.pending⟩
          · intro r' hr'
            rcases List.mem_append.mp hr' with hr' | hr'
            · exact h.whole r' hr'
            · rw [List.mem_singleton.mp hr']
              exact hwhole
          · rw [Snapshot.receive, h.first]
            cases hr : r.unit? <;> simp [hr, List.head?_append]
          · rw [Snapshot.receive, h.last]
            cases hr : r.unit? <;> simp [hr]
        · have hnext : (snapshot P).next s (.reply r) = s := if_neg fun hn => hp (h.pending ▸ hn)
          have hmirror : (mirror P).next m (.reply r) = m := if_neg hp
          rw [hnext, hmirror]
          exact h

/-- **The gateway remembers two replies.**  In every run outside the simulation, with signals
that fit their registers and whole replies, the trace is that of the snapshot. -/
theorem gateway_snapshot {env : Env} {params : QString} {u : Uninit} {f : IniFile} {r : Sent}
    {o : Nat → PutRet} {events : List Event} {g : Gateway} (hmode : params ≠ simul)
    (hret : f.ret = .success) (h : gateway env params u f r o events = .ok g)
    (hfits : g.conn.layout.Fits) (hwhole : ∀ e ∈ events, e.Whole g.conn.layout.numHold) :
    g.trace = g.conn.setup.request r ++
      (snapshot g.conn.setup).outputs ⟨none, none, r.waits⟩ events := by
  have hstart : Remembers g.conn.setup.layout ⟨[], r.waits⟩ ⟨none, none, r.waits⟩ :=
    ⟨by simp, rfl, rfl, rfl⟩
  rw [gateway_polling_success hmode h hret, (mirror_matches hfits).outputs_eq events
    (Transducer.legal_of_forall _ hwhole _) hstart]

/-- Two whole replies with a failed one between them. -/
theorem gateway_snapshot_replies :
    ∃ g, oneSignal [.reply (.noError (List.replicate 66 7)), .tick .pending fun _ => .ok,
        .reply .otherError, .tick .pending fun _ => .ok, .reply (.noError (List.replicate 66 8)),
        .tick .failed fun _ => .ok] = .ok g ∧
      g.trace = g.conn.setup.request .pending ++ (snapshot g.conn.setup).outputs ⟨none, none, 1⟩
        [.reply (.noError (List.replicate 66 7)), .tick .pending fun _ => .ok,
          .reply .otherError, .tick .pending fun _ => .ok, .reply (.noError (List.replicate 66 8)),
          .tick .failed fun _ => .ok] := by
  obtain ⟨g, hrun, hana, hdis, hint, hoff, hhold⟩ : ∃ g,
      oneSignal [.reply (.noError (List.replicate 66 7)), .tick .pending fun _ => .ok,
        .reply .otherError, .tick .pending fun _ => .ok, .reply (.noError (List.replicate 66 8)),
        .tick .failed fun _ => .ok] = .ok g ∧
      g.conn.layout.num .ana = 1 ∧ g.conn.layout.num .dis = 0 ∧ g.conn.layout.num .int = 0 ∧
        g.conn.layout.qualOffset = 60 ∧ g.conn.layout.numHold = 66 :=
    ⟨_, rfl, rfl, rfl, rfl, rfl, rfl⟩
  have hfits : g.conn.layout.Fits := by
    refine ⟨fun kind => ?_, fun kind => ?_, by omega⟩
    · cases kind <;> simp [Layout.FitsValue, hana, hdis, hint, hhold]
    · cases kind with
      | ana =>
          rw [Layout.FitsQuality, Layout.qualReg, hana, hoff, hhold]
          decide
      | dis => exact Or.inl hdis
      | int => exact Or.inl hint
  refine ⟨g, hrun, gateway_snapshot (by decide) rfl hrun hfits ?_⟩
  rw [hhold]
  simp [Event.Whole, Reply.Whole, Reply.unit?]

end GateRasu
