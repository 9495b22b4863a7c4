import GateRasu.Decode.Image

/-!
# Runs of replies

Any number of replies, one after the other.  No reply of a run makes an access out
of range (`readReplies_ok`), so the state after a run is a pure function of the
replies (`afterReply`).

The staging vector is never cleared: after a run it is the old vector followed by
what every reply staged (`afterReplies_maAIntValue`).  The analog branch looks the
words of a signal up by register number, so what it finds is the beginning of that
history and not the reply at hand (`analog_fresh_iff`).  For the same reason its length
has no bound (`staging_bounded_iff`).
-/

namespace GateRasu

/-- The values of a reply.  A failed reply has none. -/
def Reply.values : Reply → List (BitVec 16)
  | .noError values => values
  | .protocolError => []
  | .otherError => []

/-- The calls of `readReady` for the replies of a run. -/
def readReplies (c : Connector) (replies : List Reply) : Except Checked.OutOfRange Connector :=
  replies.foldlM readReady c

@[simp] theorem Layout.staged_nil (L : Layout) : L.staged [] = [] := List.take_nil

namespace Connector

/-- The connector after a reply of any kind. -/
def afterReply (c : Connector) (r : Reply) : Connector :=
  match r with
  | .noError values => c.afterUnit values
  | .protocolError => c
  | .otherError => c

theorem readReady_ok (c : Connector) (r : Reply) : readReady c r = .ok (c.afterReply r) := by
  cases r with
  | noError values => exact c.readUnit_ok values
  | protocolError => rfl
  | otherError => rfl

@[simp] theorem afterReply_layout (c : Connector) (r : Reply) :
    (c.afterReply r).layout = c.layout := by
  cases r with
  | noError values => exact c.afterUnit_layout values
  | protocolError => rfl
  | otherError => rfl

theorem afterReply_maAIntValue (c : Connector) (r : Reply) :
    (c.afterReply r).maAIntValue = c.maAIntValue ++ c.layout.staged r.values := by
  cases r with
  | noError values => rfl
  | protocolError => rw [Reply.values, Layout.staged_nil, List.append_nil]; rfl
  | otherError => rw [Reply.values, Layout.staged_nil, List.append_nil]; rfl

/-- The signals after a reply, one by one. -/
theorem afterReply_getElem? (c : Connector) (r : Reply) (g : Kind) (k : Nat) :
    ((c.afterReply r).signals g)[k]? = ((c.signals g)[k]?).map
      (cellScan c.layout (c.maAIntValue ++ c.layout.staged r.values) 0 r.values g k) := by
  cases r with
  | noError values => exact c.afterUnit_getElem? values g k
  | protocolError => exact Option.map_id'.symm
  | otherError => exact Option.map_id'.symm

/-- The connector after the replies of a run. -/
def afterReplies (c : Connector) (replies : List Reply) : Connector :=
  replies.foldl afterReply c

theorem readReplies_eq (replies : List Reply) (c : Connector) :
    readReplies c replies = .ok (c.afterReplies replies) := by
  induction replies generalizing c with
  | nil => rfl
  | cons r replies ih =>
      rw [readReplies, List.foldlM_cons, readReady_ok]
      exact ih (c.afterReply r)

@[simp] theorem afterReplies_layout (replies : List Reply) (c : Connector) :
    (c.afterReplies replies).layout = c.layout := by
  induction replies generalizing c with
  | nil => rfl
  | cons r replies ih =>
      rw [← afterReply_layout c r]
      exact ih (c.afterReply r)

/-- The staging vector after a run is the whole history. -/
theorem afterReplies_maAIntValue (replies : List Reply) (c : Connector) :
    (c.afterReplies replies).maAIntValue =
      c.maAIntValue ++ replies.flatMap fun r => c.layout.staged r.values := by
  induction replies generalizing c with
  | nil => exact (List.append_nil c.maAIntValue).symm
  | cons r replies ih =>
      have hrest := ih (c.afterReply r)
      rw [afterReply_layout, afterReply_maAIntValue, List.append_assoc] at hrest
      exact hrest

end Connector

/-- **Decoding stays in bounds.**  From any state, the replies of any run are decoded
without an access out of range. -/
theorem readReplies_ok (c : Connector) (replies : List Reply) :
    ∃ c', readReplies c replies = .ok c' :=
  ⟨c.afterReplies replies, Connector.readReplies_eq replies c⟩

/-! ## Fresh analog values -/

/-- The second connector shows the analog values of a reply that the first received, and
the other analog signals as the first had them. -/
def AnalogFresh (c₁ : Connector) (R : List (BitVec 16)) (c₂ : Connector) : Prop :=
  c₂.maASignals.length = c₁.maASignals.length ∧
  ∀ k s₁ s₂, c₁.maASignals[k]? = some s₁ → c₂.maASignals[k]? = some s₂ →
    (2 * k + 1 < R.length ∧ 2 * k + 1 < c₁.mNumHoldRegs.toNat →
      s₂.sigAValue.toNat = Image.value R .ana k) ∧
    (¬ (2 * k + 1 < R.length ∧ 2 * k + 1 < c₁.mNumHoldRegs.toNat) →
      s₂.sigAValue = s₁.sigAValue)

/-- The words staged by the replies of a run, from its start on. -/
def Connector.history (c : Connector) (replies : List (List (BitVec 16))) : List (BitVec 16) :=
  c.maAIntValue ++ replies.flatMap c.layout.staged

/-- The words of the reply `R` for the analog signals are the words of the same numbers in
the history that ends with `R`. -/
def HistoryAgrees (c : Connector) (replies : List (List (BitVec 16))) (R : List (BitVec 16)) :
    Prop :=
  ∀ k, k < c.maASignals.length → 2 * k + 1 < R.length ∧ 2 * k + 1 < c.mNumHoldRegs.toNat →
    (c.history (replies ++ [R]))[2 * k]? = R[2 * k]? ∧
      (c.history (replies ++ [R]))[2 * k + 1]? = R[2 * k + 1]?

namespace Connector

theorem afterReplies_noError_maAIntValue (c : Connector) (replies : List (List (BitVec 16)))
    (R : List (BitVec 16)) :
    (c.afterReplies (replies.map .noError)).maAIntValue ++ c.layout.staged R =
      c.history (replies ++ [R]) := by
  rw [afterReplies_maAIntValue, List.flatMap_map, history, List.flatMap_append,
    List.flatMap_singleton, List.append_assoc]
  rfl

/-- A signal covered by the reply takes its two words from the history. -/
theorem sigAValue_of_covered {c : Connector} {values : List (BitVec 16)} {k : Nat}
    {s s' : WSSignal} (hcov : 2 * k + 1 < values.length ∧ 2 * k + 1 < c.mNumHoldRegs.toNat)
    (hs : c.maASignals[k]? = some s) (hs' : (c.afterUnit values).maASignals[k]? = some s') :
    s'.sigAValue = joinWords ((c.maAIntValue ++ c.layout.staged values).getD (2 * k + 1) 0)
      ((c.maAIntValue ++ c.layout.staged values).getD (2 * k) 0) := by
  have hcell := afterUnit_getElem? c values .ana k
  simp only [signals] at hcell
  rw [hs', hs, Option.map_some, Option.some.injEq] at hcell
  have hval := value_ana_cellScan (L := c.layout)
    (H := c.maAIntValue ++ c.layout.staged values) values k s
  rw [← hcell, if_pos ⟨hcov.2, hcov.1⟩] at hval
  exact hval

/-- A signal that the reply does not cover keeps its value. -/
theorem sigAValue_of_not_covered {c : Connector} {values : List (BitVec 16)} {k : Nat}
    {s s' : WSSignal} (hcov : ¬ (2 * k + 1 < values.length ∧ 2 * k + 1 < c.mNumHoldRegs.toNat))
    (hs : c.maASignals[k]? = some s) (hs' : (c.afterUnit values).maASignals[k]? = some s') :
    s'.sigAValue = s.sigAValue := by
  have hcell := afterUnit_getElem? c values .ana k
  simp only [signals] at hcell
  rw [hs', hs, Option.map_some, Option.some.injEq] at hcell
  have hval := value_ana_cellScan (L := c.layout)
    (H := c.maAIntValue ++ c.layout.staged values) values k s
  rw [← hcell, if_neg fun h => hcov h.symm] at hval
  exact hval

/-- Two joined words are the value of a signal in the image exactly when they are its words. -/
theorem joinWords_eq_image {H values : List (BitVec 16)} {k : Nat}
    (hH : 2 * k + 1 < H.length) (hR : 2 * k + 1 < values.length) :
    (joinWords (H.getD (2 * k + 1) 0) (H.getD (2 * k) 0)).toNat = Image.value values .ana k ↔
      H[2 * k]? = values[2 * k]? ∧ H[2 * k + 1]? = values[2 * k + 1]? := by
  have hH0 : 2 * k < H.length := Nat.lt_of_succ_lt hH
  have hR0 : 2 * k < values.length := Nat.lt_of_succ_lt hR
  rw [joinWords_toNat, Image.value, Image.word, Image.word]
  simp only [List.getD_eq_getElem?_getD, List.getElem?_eq_getElem hH, List.getElem?_eq_getElem hH0,
    List.getElem?_eq_getElem hR, List.getElem?_eq_getElem hR0, Option.getD_some,
    Option.some.injEq]
  have h₁ := H[2 * k].isLt
  have h₂ := values[2 * k].isLt
  constructor
  · intro h
    exact ⟨BitVec.eq_of_toNat_eq (by omega), BitVec.eq_of_toNat_eq (by omega)⟩
  · rintro ⟨hlo, hhi⟩
    rw [hlo, hhi]

/-- The staging vector holds both words of a signal the reply covers. -/
theorem lt_length_staged {c : Connector} {values : List (BitVec 16)} {k : Nat}
    (hk : k < c.maASignals.length)
    (hcov : 2 * k + 1 < values.length ∧ 2 * k + 1 < c.mNumHoldRegs.toNat) :
    2 * k + 1 < (c.maAIntValue ++ c.layout.staged values).length := by
  have hstaged : c.layout.stagedNum = min c.mNumHoldRegs.toNat (2 * c.maASignals.length + 1) := rfl
  rw [List.length_append, Layout.staged, List.length_take, hstaged]
  omega

/-- One reply, in any state. -/
theorem analogFresh_afterUnit_iff (c : Connector) (R : List (BitVec 16)) :
    AnalogFresh c R (c.afterUnit R) ↔
      ∀ k, k < c.maASignals.length →
        2 * k + 1 < R.length ∧ 2 * k + 1 < c.mNumHoldRegs.toNat →
        (c.maAIntValue ++ c.layout.staged R)[2 * k]? = R[2 * k]? ∧
          (c.maAIntValue ++ c.layout.staged R)[2 * k + 1]? = R[2 * k + 1]? := by
  have hlen : (c.afterUnit R).maASignals.length = c.maASignals.length := List.length_mapIdx
  constructor
  · rintro ⟨-, hfresh⟩ k hk hcov
    have hs := List.getElem?_eq_getElem hk
    have hs' := List.getElem?_eq_getElem (hlen.symm ▸ hk)
    have hshown := (hfresh k _ _ hs hs').1 hcov
    rw [sigAValue_of_covered hcov hs hs'] at hshown
    exact (joinWords_eq_image (lt_length_staged hk hcov) hcov.1).mp hshown
  · intro hagree
    refine ⟨hlen, fun k s s' hs hs' => ⟨fun hcov => ?_, fun hcov => ?_⟩⟩
    · have hk : k < c.maASignals.length := (List.getElem?_eq_some_iff.mp hs).1
      rw [sigAValue_of_covered hcov hs hs']
      exact (joinWords_eq_image (lt_length_staged hk hcov) hcov.1).mpr (hagree k hk hcov)
    · exact sigAValue_of_not_covered hcov hs hs'

end Connector

/-- **Fresh analog values.**  After the replies of a run and one reply more, the analog
signals show the last reply exactly when it repeats the beginning of the history. -/
theorem analog_fresh_iff (c : Connector) (replies : List (List (BitVec 16)))
    (R : List (BitVec 16)) :
    ∃ c₁ c₂, readReplies c (replies.map .noError) = .ok c₁ ∧
      readReady c₁ (.noError R) = .ok c₂ ∧
      (AnalogFresh c₁ R c₂ ↔ HistoryAgrees c replies R) := by
  have hhist := c.afterReplies_noError_maAIntValue replies R
  have hlayout := Connector.afterReplies_layout (replies.map .noError) c
  have hnum : (c.afterReplies (replies.map .noError)).maASignals.length = c.maASignals.length :=
    congrArg (fun L => L.num .ana) hlayout
  have hhold : (c.afterReplies (replies.map .noError)).mNumHoldRegs.toNat = c.mNumHoldRegs.toNat :=
    congrArg Layout.numHold hlayout
  refine ⟨_, _, Connector.readReplies_eq _ c, Connector.readUnit_ok _ R, ?_⟩
  rw [Connector.analogFresh_afterUnit_iff, hlayout, hhist, hnum, hhold]
  rfl

/-- One analog signal and two replies: the second is decoded as the first. -/
theorem analog_not_fresh :
    ∃ c₁ c₂, readReplies (.plain 1 0 0) [.noError (List.replicate 66 1)] = .ok c₁ ∧
      readReady c₁ (.noError (List.replicate 66 2)) = .ok c₂ ∧
      ¬ AnalogFresh c₁ (List.replicate 66 2) c₂ := by
  refine ⟨_, _, Connector.readReplies_eq _ _, Connector.readUnit_ok _ _, fun hfresh => ?_⟩
  have h := (Connector.analogFresh_afterUnit_iff _ _).mp hfresh 0 (by decide) (by decide)
  revert h
  decide

/-! ## The length of the staging vector -/

/-- What the decoder has read at some moment of a run: whole replies, and then the first
registers of the next. -/
inductive SoFar : List (List (BitVec 16)) → List (List (BitVec 16)) → Prop where
  | start (replies : List (List (BitVec 16))) : SoFar [] replies
  | inReply {R' R : List (BitVec 16)} (replies : List (List (BitVec 16))) (h : R' <+: R) :
      SoFar [R'] (R :: replies)
  | next (R : List (BitVec 16)) {done replies : List (List (BitVec 16))}
      (h : SoFar done replies) : SoFar (R :: done) (R :: replies)

/-- At every moment of a run, the staging vector holds at most the registers of one reply. -/
def StagingBounded (c : Connector) (replies : List (List (BitVec 16))) : Prop :=
  ∀ done, SoFar done replies → ∀ c', readReplies c (done.map .noError) = .ok c' →
    c'.maAIntValue.length ≤ 2 * c'.maASignals.length + 1

namespace Connector

/-- The number of words of a reply that are staged. -/
def stagedLen (c : Connector) (R : List (BitVec 16)) : Nat :=
  min R.length (min c.mNumHoldRegs.toNat (2 * c.maASignals.length + 1))

theorem length_staged (c : Connector) (R : List (BitVec 16)) :
    (c.layout.staged R).length = c.stagedLen R := by
  rw [Layout.staged, List.length_take, Nat.min_comm]
  rfl

theorem afterReplies_length (c : Connector) (replies : List (List (BitVec 16))) :
    (c.afterReplies (replies.map .noError)).maAIntValue.length =
      c.maAIntValue.length + (replies.map c.stagedLen).sum := by
  rw [afterReplies_maAIntValue, List.length_append, List.flatMap_map, List.length_flatMap]
  exact congrArg (fun l => c.maAIntValue.length + List.sum l)
    (List.map_congr_left fun R _ => c.length_staged R)

/-- The staging vector only grows. -/
theorem sum_stagedLen_le (c : Connector) {done replies : List (List (BitVec 16))}
    (h : SoFar done replies) : (done.map c.stagedLen).sum ≤ (replies.map c.stagedLen).sum := by
  induction h with
  | start replies => exact Nat.zero_le _
  | inReply replies hprefix =>
      have hlen := hprefix.length_le
      simp only [List.map_cons, List.sum_cons, List.map_nil, List.sum_nil, stagedLen]
      omega
  | next R _ ih =>
      rw [List.map_cons, List.map_cons, List.sum_cons, List.sum_cons]
      exact Nat.add_le_add_left ih _

end Connector

theorem soFar_all : ∀ replies, SoFar replies replies
  | [] => .start []
  | R :: replies => .next R (soFar_all replies)

/-- Every reply with a register adds a word, so no bound holds for every run. -/
theorem length_le_staging {c : Connector} (hhold : 0 < c.mNumHoldRegs.toNat)
    {replies : List (List (BitVec 16))} (h : ∀ R ∈ replies, R ≠ []) :
    replies.length ≤ (c.afterReplies (replies.map .noError)).maAIntValue.length := by
  have hone : ∀ n ∈ replies.map c.stagedLen, 1 ≤ n := by
    intro n hn
    obtain ⟨R, hR, rfl⟩ := List.mem_map.mp hn
    have hpos : 0 < R.length := List.length_pos_iff.mpr (h R hR)
    rw [Connector.stagedLen]
    omega
  have hsum := List.length_le_sum_of_one_le _ hone
  rw [List.length_map] at hsum
  rw [Connector.afterReplies_length]
  omega

/-- **The length of the staging vector.**  It stays within the registers of one reply
exactly when all replies of the run together stage no more than that. -/
theorem staging_bounded_iff (c : Connector) (replies : List (List (BitVec 16))) :
    StagingBounded c replies ↔
      c.maAIntValue.length + (replies.map c.stagedLen).sum ≤ 2 * c.maASignals.length + 1 := by
  have hnum : ∀ rs, (c.afterReplies rs).maASignals.length = c.maASignals.length := fun rs =>
    congrArg (fun L => L.num .ana) (Connector.afterReplies_layout rs c)
  constructor
  · intro h
    have hend := h replies (soFar_all replies) _ (Connector.readReplies_eq _ c)
    rw [Connector.afterReplies_length, hnum] at hend
    exact hend
  · intro h done hdone c' hc'
    rw [Connector.readReplies_eq, Except.ok.injEq] at hc'
    have hle := c.sum_stagedLen_le hdone
    rw [← hc', Connector.afterReplies_length, hnum]
    omega

/-- One analog signal and two replies of 66 registers: six words are staged. -/
theorem not_staging_bounded :
    ¬ StagingBounded (.plain 1 0 0) [List.replicate 66 1, List.replicate 66 2] := by
  intro h
  have hend := h _ (soFar_all _) _ (Connector.readReplies_eq _ _)
  rw [Connector.afterReplies_length] at hend
  revert hend
  decide

end GateRasu
