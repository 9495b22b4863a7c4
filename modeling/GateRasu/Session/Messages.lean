import GateRasu.Session

/-!
# The messages of a publication

The publication of a session is the one of `Publish` with messages between the puts
(`placeInPPD_both`): its acts are a function of what the channel has got.  So it puts the
plan up to the first put that ends it, and what it prints tells how it ends
(`publishActs`).
-/

namespace GateRasu

open Attempts (upTo halts)
open Scan (both scanM)

/-! ## Puts -/

/-- The message about the answer to a put. -/
def Value.message : Value → PutRet → Option Message
  | .noType, _ => none
  | .ana _ _ _, .error => some .analogPutError
  | .ana _ _ _, .warning => some .analogPutWarning
  | .ana _ _ _, .ok => none
  | .bin _ _ _, .error => some .binaryPutError
  | .bin _ _ _, .warning => some .binaryPutWarning
  | .bin _ _ _, .ok => none
  | .int _ _ _, .error => some .integerPutError
  | .int _ _ _, .warning => some .integerPutWarning
  | .int _ _ _, .ok => none
  | .grp _ _ _, .error => some .groupPutError
  | .grp _ _ _, .warning => some .groupPutError
  | .grp _ _ _, .ok => none

/-- The acts of the put with number `n`. -/
def putActs (o : Nat → PutRet) (n : Nat) (v : Value) : List Act :=
  .put v :: (v.message (o n)).toList.map Act.printLogs

/-- The acts of puts. -/
def sentActs (o : Nat → PutRet) (vs : List Value) : List Act :=
  vs.zipIdx.flatMap fun x => putActs o x.2 x.1

/-- The acts of the publication of a plan. -/
def publishActs (o : Nat → PutRet) (vs : List Value) : List Act :=
  sentActs o (upTo (endsPlace o) 0 vs) ++
    if halts (endsPlace o) 0 vs then [] else [.printLogs .ok]

theorem sentActs_append_singleton (o : Nat → PutRet) (vs : List Value) (v : Value) :
    sentActs o (vs ++ [v]) = sentActs o vs ++ putActs o vs.length v := by
  simp [sentActs, List.zipIdx_append]

/-- A publication puts and prints, and that is all. -/
theorem eq_put_or_printLogs {o : Nat → PutRet} {vs : List Value} {x : Act}
    (h : x ∈ publishActs o vs) : (∃ v, x = .put v) ∨ ∃ m, x = .printLogs m := by
  rcases List.mem_append.mp h with h | h
  · obtain ⟨⟨v, n⟩, -, hx⟩ := List.mem_flatMap.mp h
    rcases List.mem_cons.mp hx with rfl | hx
    · exact Or.inl ⟨v, rfl⟩
    · obtain ⟨m, -, rfl⟩ := List.mem_map.mp hx
      exact Or.inr ⟨m, rfl⟩
  · cases hh : halts (endsPlace o) 0 vs <;> simp [hh] at h
    exact Or.inr ⟨.ok, h⟩

namespace Session

/-- The session whose channel has got the puts. -/
def placing (s : Session) (o : Nat → PutRet) (ch : Channel) : Placing :=
  ⟨{ s with value := ch.value, acts := s.acts ++ sentActs o ch.sent }, ch.sent.length⟩

section

variable (s : Session) (o : Nat → PutRet) (ch : Channel)

theorem placing_checkPut {v : Value} {error warning : Message}
    (herror : v.message .error = some error) (hwarning : v.message .warning = some warning)
    (hok : v.message .ok = none) :
    Placing.checkPut error warning (((s.placing o ch).make v).put o) =
      both (s.placing o) (checkPut (({ ch with value := v } : Channel).put o)) := by
  rw [Placing.put, Channel.put, placing]
  cases ho : o ch.sent.length <;>
    simp [Placing.checkPut, checkPut, both, placing, Placing.make, Placing.printLogs, Session.emit,
      sentActs_append_singleton, putActs, ho, herror, hwarning, hok]

theorem placing_placeGrp (i : Nat) (x : WSGrSignal) :
    Placing.placeGrp o (s.placing o ch) i x = both (s.placing o) (placeGrp o ch i x) := by
  rw [Placing.placeGrp, placeGrp, Placing.put, Channel.put, placing, Channel.makeGValue]
  cases ho : o ch.sent.length <;>
    simp [Placing.checkGrPut, checkGrPut, both, placing, Placing.make, Placing.printLogs,
      Session.emit, sentActs_append_singleton, putActs, ho, Value.message]

end

/-- **The refinement.**  The four loops do the same with messages as without. -/
theorem placeInPPD_both (s : Session) (o : Nat → PutRet) : s.placeInPPD o =
    (both (s.placing o) (GateRasu.placeInPPD o s.conn ⟨s.value, []⟩) >>=
      fun p => .ok (p.printLogs .ok)) := by
  have hstart : (⟨s, 0⟩ : Placing) = s.placing o ⟨s.value, []⟩ := by
    simp [placing, sentActs]
  have hgrp := fun ch => Scan.scanM_both (placing_placeGrp s o) s.conn.maGrSignals ch 0
  have hint : ∀ ch, (scanM (Placing.placeInt o) (s.placing o ch) 0 s.conn.maIntSignals >>=
      fun p => scanM (Placing.placeGrp o) p 0 s.conn.maGrSignals) =
        both (s.placing o) (scanM (placeInt o) ch 0 s.conn.maIntSignals >>=
          fun ch => scanM (placeGrp o) ch 0 s.conn.maGrSignals) := fun ch =>
    Scan.scanM_both_bind (fun ch i x => s.placing_checkPut o ch rfl rfl rfl) hgrp _ ch 0
  have hbin : ∀ ch, (scanM (Placing.placeBin o) (s.placing o ch) 0 s.conn.maDSignals >>=
      fun p => scanM (Placing.placeInt o) p 0 s.conn.maIntSignals >>=
        fun p => scanM (Placing.placeGrp o) p 0 s.conn.maGrSignals) =
        both (s.placing o) (scanM (placeBin o) ch 0 s.conn.maDSignals >>=
          fun ch => scanM (placeInt o) ch 0 s.conn.maIntSignals >>=
            fun ch => scanM (placeGrp o) ch 0 s.conn.maGrSignals) := fun ch =>
    Scan.scanM_both_bind (fun ch i x => s.placing_checkPut o ch rfl rfl rfl) hint _ ch 0
  have hana : (scanM (Placing.placeAna o) (s.placing o ⟨s.value, []⟩) 0 s.conn.maASignals >>=
      fun p => scanM (Placing.placeBin o) p 0 s.conn.maDSignals >>=
        fun p => scanM (Placing.placeInt o) p 0 s.conn.maIntSignals >>=
          fun p => scanM (Placing.placeGrp o) p 0 s.conn.maGrSignals) =
        both (s.placing o) (GateRasu.placeInPPD o s.conn ⟨s.value, []⟩) :=
    Scan.scanM_both_bind (fun ch i x => s.placing_checkPut o ch rfl rfl rfl) hbin _ _ 0
  rw [placeInPPD, hstart]
  refine Eq.trans ?_ (congrArg (· >>= fun p => Except.ok (p.printLogs .ok)) hana)
  simp only [bind_assoc]
  rfl

/-- A publication appends its acts and changes nothing else but the buffer. -/
theorem publish_eq (s : Session) (o : Nat → PutRet) : ∃ v, s.publish o =
    { s with
      value := v
      acts := s.acts ++ publishActs o s.conn.puts } := by
  obtain ⟨ch, hsent, hrun⟩ := placeInPPD_emits o s.conn ⟨s.value, []⟩
  refine ⟨ch.value, ?_⟩
  have hsent' : ch.sent = upTo (endsPlace o) 0 s.conn.puts := hsent
  rw [publish, placeInPPD_both, hrun, publishActs, ← hsent']
  cases halts (endsPlace o) 0 s.conn.puts with
  | true =>
      simp only [if_true, List.append_nil]
      rfl
  | false =>
      simp only [Bool.false_eq_true, if_false, ← List.append_assoc]
      rfl

end Session

end GateRasu
