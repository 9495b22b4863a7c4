import GateRasu.Gateway.Runs
import GateRasu.Ini.RoundTrip

/-!
# Members without an initial value

Two runs that find different memory.  The four members that the constructor of an
analog signal leaves out never reach a list or a put, and neither do the two counts of
`Init`.  `m_type_sig` does: a line with `Signal` before the first header goes to the
list that the memory names.

`independent_iff`: two runs agree, whatever they find, exactly when no line with
`Signal` comes before the first line that opens a section (`Typed`).
-/

namespace GateRasu

/-! ## Forgetting -/

/-- Forget what the constructor of an analog signal does not set. -/
def WSSignal.forget (s : WSSignal) : WSSignal :=
  { s with sigDValue := 0, sigINTValue := 0, sigSimD := 0, sigSimInt := 0 }

/-- Forget it in every analog signal, and the two counts of `Init`. -/
def Connector.forget (c : Connector) : Connector :=
  { c with maASignals := c.maASignals.map WSSignal.forget, mAllSigNum := 0, mSumQualReg := 0 }

/-- The reader in a cleared memory. -/
def Env.cleared (env : Env) : Env := ⟨env.toFloat, fun _ => ⟨0, 0, 0, 0⟩⟩

theorem pushSignal_forget (env : Env) (c : Connector) (f : Fields) (g : Option SigTypeUses) :
    (pushSignal env c f g).forget = pushSignal env.cleared c.forget f g := by
  cases g with
  | none => rfl
  | some g =>
      cases g with
      | sAna =>
          have hlist : (c.maASignals ++ [f.aSig env c.maASignals.length]).map WSSignal.forget =
              c.maASignals.map WSSignal.forget ++
                [f.aSig env.cleared (c.maASignals.map WSSignal.forget).length] := by
            rw [List.map_append, List.length_map]
            rfl
          exact congrArg (fun l => { c.forget with maASignals := l }) hlist
      | sDis | sInt | sGroup => rfl

theorem readSignal_forget (env : Env) (c : Connector) (b : QString) :
    (readSignal env c b).map Connector.forget = readSignal env.cleared c.forget b := by
  have htype : c.forget.mTypeSig = c.mTypeSig := rfl
  rw [readSignal_eq, readSignal_eq, htype]
  split
  · cases fieldsFor b (SigTypeUses.ofInt? c.mTypeSig) with
    | error e => rfl
    | ok f => exact congrArg Except.ok (pushSignal_forget env c f _)
  · rfl

theorem assign_forget (l : QString) (c : Connector) : assign l c.forget = (assign l c).forget :=
  assign_map (fun c v s => by cases s <;> rfl) l c

theorem openSection_forget (c : Connector) (g : Option SigTypeUses) :
    openSection c.forget g = (openSection c g).forget := by
  cases g <;> rfl

theorem readIniSection_forget (env : Env) (c : Connector) (l : QString) :
    (readIniSection env c l).map Connector.forget = readIniSection env.cleared c.forget l := by
  rw [readIniSection_eq, readIniSection_eq, readSignal_forget, assign_forget, openSection_forget]

/-- A file is read alike in every memory. -/
theorem readLines_forget (env : Env) (lines : List QString) (c : Connector) :
    (readLines env c lines).map Connector.forget = readLines env.cleared c.forget lines := by
  induction lines generalizing c with
  | nil => rfl
  | cons l lines ih =>
      rw [readLines, readLines, List.foldlM_cons, List.foldlM_cons, ← readIniSection_forget]
      cases readIniSection env c l with
      | error e => rfl
      | ok c' => exact ih c'

/-! ## The open section -/

/-- The file opens a section before its first line with `Signal`, or has no such line. -/
def Typed : List QString → Prop
  | [] => True
  | l :: lines => lineType (residue l) ≠ none ∨
      ((residue l).contains defaultSignalTitle = false ∧ Typed lines)

/-- The connector with another section open. -/
def Connector.withType (t : Int) (c : Connector) : Connector := { c with mTypeSig := t }

theorem assign_withType (t : Int) (l : QString) (c : Connector) :
    assign l (c.withType t) = (assign l c).withType t :=
  assign_map (fun c v s => by cases s <;> rfl) l c

/-- A typed file does not depend on the section that is open before it. -/
theorem readLines_typed (env : Env) (t₁ t₂ : Int) {lines : List QString} (c : Connector)
    (h : Typed lines) : (readLines env (c.withType t₁) lines).map Connector.closed =
      (readLines env (c.withType t₂) lines).map Connector.closed := by
  induction lines generalizing c with
  | nil => rfl
  | cons l lines ih =>
      rw [readLines, readLines, List.foldlM_cons, List.foldlM_cons, readIniSection_eq,
        readIniSection_eq, assign_withType, assign_withType]
      cases hg : lineType (residue l) with
      | some g => rfl
      | none =>
          rcases h with h | ⟨hsig, h⟩
          · exact absurd hg h
          · show (readSignal env _ _ >>= _).map _ = (readSignal env _ _ >>= _).map _
            rw [readSignal_none hsig, readSignal_none hsig]
            exact ih (assign l c) h

/-- Every line with `Signal` has its four fields. -/
def HasFields (lines : List QString) : Prop :=
  ∀ l ∈ lines, (residue l).contains defaultSignalTitle = true →
    4 ≤ (splitSignal (residue l)).length

/-- The number of analog signals that a file adds, with the section `t` open before it. -/
def anaLines : Int → List QString → Nat
  | _, [] => 0
  | t, l :: lines =>
      (if (residue l).contains defaultSignalTitle = true ∧ typeAfter t l = 0 then 1 else 0) +
        anaLines (typeAfter t l) lines

theorem pushSignal_length (env : Env) (c : Connector) (f : Fields) :
    (pushSignal env c f (SigTypeUses.ofInt? c.mTypeSig)).maASignals.length =
      c.maASignals.length + if c.mTypeSig = 0 then 1 else 0 := by
  cases hg : SigTypeUses.ofInt? c.mTypeSig with
  | none =>
      have hne : c.mTypeSig ≠ 0 := by
        intro h
        rw [h] at hg
        cases hg
      rw [if_neg hne]
      rfl
  | some g =>
      have htype := SigTypeUses.ofInt?_eq_some hg
      rw [htype]
      cases g with
      | sAna => exact List.length_append
      | sDis | sInt | sGroup => rfl

/-- A file with its fields is read, and adds so many analog signals. -/
theorem readLines_length (env : Env) {lines : List QString} (h : HasFields lines)
    (c : Connector) : ∃ c', readLines env c lines = .ok c' ∧
      c'.maASignals.length = c.maASignals.length + anaLines c.mTypeSig lines := by
  induction lines generalizing c with
  | nil => exact ⟨c, rfl, rfl⟩
  | cons l lines ih =>
      have htail : HasFields lines := fun l' hl' => h l' (List.mem_cons_of_mem _ hl')
      obtain ⟨htype, hana⟩ := openSection_frame l c
      rw [readLines, List.foldlM_cons, readIniSection_eq, anaLines]
      cases hsig : (residue l).contains defaultSignalTitle with
      | false =>
          obtain ⟨c', hrun, hlen⟩ := ih htail (openSection (assign l c) (lineType (residue l)))
          refine ⟨c', ?_, ?_⟩
          · rw [readSignal_none hsig]
            exact hrun
          · rw [hlen, htype, hana]
            simp
      | true =>
          obtain ⟨f, hf⟩ := (atFields_iff _).mpr (h l (List.mem_cons_self ..) hsig)
          obtain ⟨c', hrun, hlen⟩ := ih htail (pushSignal env
            (openSection (assign l c) (lineType (residue l))) f (SigTypeUses.ofInt?
              (openSection (assign l c) (lineType (residue l))).mTypeSig))
          refine ⟨c', ?_, ?_⟩
          · rw [readSignal_some hsig hf]
            exact hrun
          · have htype' : ∀ g, (pushSignal env (openSection (assign l c) (lineType (residue l))) f
                g).mTypeSig = typeAfter c.mTypeSig l := by
              intro g
              cases g with
              | none => exact htype
              | some g => exact (pushSignal_mTypeSig env _ f g).trans htype
            rw [hlen, pushSignal_length, htype', htype, hana, Nat.add_assoc]
            simp

theorem typeAfter_none {l : QString} (h : lineType (residue l) = none) (t : Int) :
    typeAfter t l = t := by
  rw [typeAfter, h]
  rfl

theorem new_length (env : Env) {lines : List QString} (h : HasFields lines) (t : Int) :
    ∃ c, readLines env (.new [] ⟨t, 0, 0⟩) lines = .ok c ∧
      c.maASignals.length = anaLines t lines := by
  obtain ⟨c, hread, hlen⟩ := readLines_length env h (.new [] ⟨t, 0, 0⟩)
  exact ⟨c, hread, hlen.trans (Nat.zero_add _)⟩

/-- The memory may add analog signals. -/
theorem anaLines_le : ∀ lines : List QString, anaLines (-1) lines ≤ anaLines 0 lines
  | [] => Nat.le_refl _
  | l :: lines => by
      rw [anaLines, anaLines]
      cases hg : lineType (residue l) with
      | some g =>
          have htype : typeAfter (-1) l = typeAfter 0 l := by
            rw [typeAfter, typeAfter, hg]
            rfl
          rw [htype]
      | none =>
          have ih := anaLines_le lines
          rw [typeAfter_none hg, typeAfter_none hg, if_neg fun h => absurd h.2 (by decide),
            Nat.zero_add]
          exact Nat.le_trans ih (Nat.le_add_left _ _)

theorem anaLines_lt {lines : List QString} (h : ¬ Typed lines) :
    anaLines (-1) lines < anaLines 0 lines := by
  induction lines with
  | nil => exact absurd trivial h
  | cons l lines ih =>
      rw [Typed, not_or, not_not] at h
      rw [anaLines, anaLines, typeAfter_none h.1, typeAfter_none h.1,
        if_neg fun h => absurd h.2 (by decide), Nat.zero_add]
      cases hsig : (residue l).contains defaultSignalTitle with
      | true =>
          rw [if_pos ⟨rfl, rfl⟩, Nat.add_comm]
          exact Nat.lt_succ_of_le (anaLines_le lines)
      | false =>
          have htail : ¬ Typed lines := fun ht => h.2 ⟨hsig, ht⟩
          exact Nat.lt_of_lt_of_le (ih htail) (Nat.le_add_left _ _)

/-! ## Runs -/

/-- The connector without what the memory may leave in it. -/
def Connector.blur (c : Connector) : Connector := c.forget.closed

theorem cellScan_forget (L : Layout) (H : List (BitVec 16)) (values : List (BitVec 16)) (k : Nat)
    (s : WSSignal) : cellScan L H 0 values .ana k s.forget =
      (cellScan L H 0 values .ana k s).forget := by
  have hvalue := value_cellScan (L := L) (H := H) 0 values .ana k
  have hqual := sigQualValue_cellScan (L := L) (H := H) 0 values .ana k
  rw [cellScan_frame values .ana k s.forget 0, cellScan_frame values .ana k s 0, hvalue, hvalue,
    hqual, hqual]
  rfl

theorem blur_layout (c : Connector) : c.blur.layout = c.layout := by
  have hnum : ∀ g, (c.blur.signals g).length = (c.signals g).length := by
    intro g
    cases g with
    | ana => exact List.length_map _
    | dis | int => rfl
  simp only [Connector.layout, hnum]
  rfl

theorem blur_mapSignals {φ : Kind → Nat → WSSignal → WSSignal}
    (h : ∀ k s, φ .ana k s.forget = (φ .ana k s).forget) (c : Connector) :
    (c.mapSignals φ).blur = c.blur.mapSignals φ := by
  have hana : (c.maASignals.mapIdx (φ .ana)).map WSSignal.forget =
      (c.maASignals.map WSSignal.forget).mapIdx (φ .ana) := by
    refine List.ext_getElem? fun i => ?_
    rw [List.getElem?_map, List.getElem?_mapIdx, List.getElem?_mapIdx, List.getElem?_map,
      Option.map_map, Option.map_map]
    exact congrArg (Option.map · _) (funext fun s => (h i s).symm)
  simp only [Connector.mapSignals, Connector.blur, Connector.closed, Connector.forget, hana]

theorem afterReply_blur (c : Connector) (r : Reply) :
    (c.afterReply r).blur = c.blur.afterReply r := by
  cases r with
  | protocolError | otherError => rfl
  | noError values =>
      rw [Connector.afterReply, Connector.afterReply, Connector.afterUnit, Connector.afterUnit,
        blur_layout, blur_mapSignals fun k s => cellScan_forget _ _ values k s]
      rfl

theorem puts_blur (c : Connector) : c.blur.puts = c.puts := by
  have hana : (c.maASignals.map WSSignal.forget).mapIdx (WSSignal.put .ana) =
      c.maASignals.mapIdx (WSSignal.put .ana) := by
    refine List.ext_getElem? fun i => ?_
    rw [List.getElem?_mapIdx, List.getElem?_mapIdx, List.getElem?_map, Option.map_map]
    rfl
  exact congrArg (· ++ _) hana

/-- Two gateways that differ only in what the memory left. -/
structure Gateway.Alike (g₁ g₂ : Gateway) : Prop where
  conn : g₁.conn.blur = g₂.conn.blur
  polling : g₁.polling = g₂.polling
  pending : g₁.pending = g₂.pending
  trace : g₁.trace = g₂.trace

namespace Gateway

theorem Alike.poll {g₁ g₂ : Gateway} (h : g₁.Alike g₂) (r : Sent) :
    (g₁.poll r).Alike (g₂.poll r) := by
  have hstart : g₁.conn.mStartReg = g₂.conn.mStartReg := congrArg (fun c => c.mStartReg) h.conn
  have hhold : g₁.conn.mNumHoldRegs = g₂.conn.mNumHoldRegs :=
    congrArg (fun c => c.mNumHoldRegs) h.conn
  have hserver : g₁.conn.mServerAdr = g₂.conn.mServerAdr :=
    congrArg (fun c => c.mServerAdr) h.conn
  have hrequest : g₁.trace ++ [.request g₁.conn.mStartReg g₁.conn.mNumHoldRegs g₁.conn.mServerAdr] =
      g₂.trace ++ [.request g₂.conn.mStartReg g₂.conn.mNumHoldRegs g₂.conn.mServerAdr] := by
    rw [h.trace, hstart, hhold, hserver]
  cases r with
  | failed => exact ⟨h.conn, h.polling, h.pending, congrArg (· ++ _) hrequest⟩
  | finished => exact ⟨h.conn, h.polling, h.pending, hrequest⟩
  | pending => exact ⟨h.conn, h.polling, congrArg (· + 1) h.pending, hrequest⟩

theorem Alike.publish {g₁ g₂ : Gateway} (h : g₁.Alike g₂) (o : Nat → PutRet) :
    (g₁.publish o).Alike (g₂.publish o) := by
  obtain ⟨v₁, h₁⟩ := g₁.publish_eq o
  obtain ⟨v₂, h₂⟩ := g₂.publish_eq o
  have hputs : g₁.conn.puts = g₂.conn.puts := by
    rw [← puts_blur, h.conn, puts_blur]
  rw [h₁, h₂, hputs, h.trace]
  exact ⟨h.conn, h.polling, h.pending, rfl⟩

theorem Alike.after {g₁ g₂ : Gateway} (h : g₁.Alike g₂) (e : Event) :
    (g₁.after e).Alike (g₂.after e) := by
  cases e with
  | tick r o =>
      rw [Gateway.after, Gateway.after, h.polling]
      split
      · exact (h.poll r).publish o
      · exact h
  | reply r =>
      rw [Gateway.after, Gateway.after, h.polling, h.pending]
      split
      · refine ⟨?_, rfl, rfl, congrArg (· ++ _) h.trace⟩
        show (g₁.conn.afterReply r).blur = (g₂.conn.afterReply r).blur
        rw [afterReply_blur, afterReply_blur, h.conn]
      · exact h

theorem Alike.run : ∀ {g₁ g₂ : Gateway} (events : List Event), g₁.Alike g₂ →
    (events.foldl Gateway.after g₁).Alike (events.foldl Gateway.after g₂)
  | _, _, [], h => h
  | _, _, e :: events, h => Alike.run events (h.after e)

end Gateway

/-! ## The start -/

theorem testSignals_blur (c : Connector) :
    (testSignals (countSignals c)).blur = testSignals c.blur := by
  have hana : (testSignals (countSignals c)).forget.maASignals =
      (testSignals c.blur).maASignals := by
    show ((c.maASignals.map _).map WSSignal.forget) = (c.maASignals.map WSSignal.forget).map _
    rw [List.map_map, List.map_map]
    rfl
  exact congrArg (fun l => { testSignals c.blur with maASignals := l }) hana

theorem Gateway.Alike.of_blur {c₁ c₂ : Connector} (h : c₁.blur = c₂.blur) (polling : Bool) :
    Gateway.Alike ⟨c₁, polling, 0, .noType, []⟩ ⟨c₂, polling, 0, .noType, []⟩ :=
  ⟨h, rfl, rfl, rfl⟩

/-- Connectors that differ only in what the memory left start alike. -/
theorem Connector.start_alike {c₁ c₂ : Connector} (h : c₁.blur = c₂.blur) (ret : ReadRet)
    (r : Sent) (o : Nat → PutRet) : (c₁.start ret r o).Alike (c₂.start ret r o) := by
  have hparams : c₁.mParams = c₂.mParams := congrArg (fun c => c.mParams) h
  cases ret with
  | failure => exact .of_blur h false
  | success =>
      have hsimul : (testSignals (countSignals c₁)).blur =
          (testSignals (countSignals c₂)).blur := by
        rw [testSignals_blur, testSignals_blur, h]
      have hcount : (countSignals c₁).blur = (countSignals c₂).blur := h
      rw [Connector.start, Connector.start, hparams]
      split
      · exact (Gateway.Alike.of_blur hsimul false).publish o
      · exact (Gateway.Alike.of_blur hcount true).poll r

/-! ## Independence -/

/-- What the ini file says of a signal. -/
def WSSignal.entry (s : WSSignal) : QString × BitVec 16 × BitVec 16 :=
  (s.sigName, s.sigHoldW, s.sigQualW)

/-- The same four lists, by their names and register numbers. -/
def SameLists (c₁ c₂ : Connector) : Prop :=
  (∀ g, (c₁.signals g).map WSSignal.entry = (c₂.signals g).map WSSignal.entry) ∧
    c₁.maGrSignals = c₂.maGrSignals

/-- The puts of a trace. -/
def putsOf (trace : List Obs) : List Value :=
  trace.filterMap fun
    | .put v => some v
    | .request _ _ _ => none
    | .received _ => none
    | .notSent => none

/-- Any two runs over a file, whatever their objects find in memory, load the same lists and
put the same values. -/
def Independent (f : IniFile) : Prop :=
  ∀ (toFloat : QString → BitVec 32) (fresh₁ fresh₂ : Nat → Garbage) (params : QString)
    (u₁ u₂ : Uninit) (r : Sent) (o : Nat → PutRet) (events : List Event),
    ∃ g₁ g₂, gateway ⟨toFloat, fresh₁⟩ params u₁ f r o events = .ok g₁ ∧
      gateway ⟨toFloat, fresh₂⟩ params u₂ f r o events = .ok g₂ ∧
      SameLists g₁.conn g₂.conn ∧ putsOf g₁.trace = putsOf g₂.trace

theorem sameLists_of_blur {c₁ c₂ : Connector} (h : c₁.blur = c₂.blur) : SameLists c₁ c₂ := by
  refine ⟨fun g => ?_, congrArg (fun c => c.maGrSignals) h⟩
  cases g with
  | ana =>
      have hana : (c₁.maASignals.map WSSignal.forget).map WSSignal.entry =
          (c₂.maASignals.map WSSignal.forget).map WSSignal.entry :=
        congrArg (fun c => c.maASignals.map WSSignal.entry) h
      rw [List.map_map, List.map_map] at hana
      exact hana
  | dis => exact congrArg (fun c => c.maDSignals.map WSSignal.entry) h
  | int => exact congrArg (fun c => c.maIntSignals.map WSSignal.entry) h

theorem gateway_of_readLines {env : Env} {params : QString} {u : Uninit} {f : IniFile}
    {c : Connector} (h : readLines env (.new params u) f.lines = .ok c) (r : Sent)
    (o : Nat → PutRet) (events : List Event) :
    gateway env params u f r o events = .ok (events.foldl Gateway.after (c.start f.ret r o)) := by
  rw [gateway_eq, h]
  rfl

/-- A typed file is loaded alike in every memory. -/
theorem readLines_blur {env₁ env₂ : Env} (henv : env₁.toFloat = env₂.toFloat) {params : QString}
    {u₁ u₂ : Uninit} {lines : List QString} (htyped : Typed lines) {c₁ c₂ : Connector}
    (h₁ : readLines env₁ (.new params u₁) lines = .ok c₁)
    (h₂ : readLines env₂ (.new params u₂) lines = .ok c₂) : c₁.blur = c₂.blur := by
  have hcleared : env₁.cleared = env₂.cleared := by
    rw [Env.cleared, Env.cleared, henv]
  have hread₁ := readLines_forget env₁ lines (.new params u₁)
  have hread₂ := readLines_forget env₂ lines (.new params u₂)
  have htype := readLines_typed env₂.cleared u₁.mTypeSig u₂.mTypeSig
    (Connector.new params ⟨0, 0, 0⟩) htyped
  have hnew : ∀ u : Uninit, (Connector.new params u).forget =
      (Connector.new params ⟨0, 0, 0⟩).withType u.mTypeSig := fun _ => rfl
  rw [h₁, hcleared, hnew] at hread₁
  rw [h₂, hnew] at hread₂
  rw [← hread₁, ← hread₂] at htype
  exact Except.ok.inj htype

/-- The memory shows in the list of analog signals. -/
theorem start_length {c : Connector} (hmode : c.mParams ≠ simul) (ret : ReadRet)
    (o : Nat → PutRet) :
    (c.start ret .finished o).conn.maASignals.length = c.maASignals.length := by
  cases ret with
  | failure => rfl
  | success =>
      rw [Connector.start, if_neg hmode]
      rfl

/-- **Independence.**  Two runs over a file agree, whatever they find in memory, exactly when
the file opens a section before its first line with `Signal`. -/
theorem independent_iff {f : IniFile} (hfields : HasFields f.lines) :
    Independent f ↔ Typed f.lines := by
  constructor
  · intro h
    by_contra htyped
    have hmode : ([] : QString) ≠ simul := by decide
    obtain ⟨c₁, hread₁, hlen₁⟩ := new_length ⟨fun _ => 0, fun _ => ⟨0, 0, 0, 0⟩⟩ hfields (-1)
    obtain ⟨c₂, hread₂, hlen₂⟩ := new_length ⟨fun _ => 0, fun _ => ⟨0, 0, 0, 0⟩⟩ hfields 0
    obtain ⟨g₁, g₂, h₁, h₂, ⟨hlists, -⟩, -⟩ := h (fun _ => 0) (fun _ => ⟨0, 0, 0, 0⟩)
      (fun _ => ⟨0, 0, 0, 0⟩) [] ⟨-1, 0, 0⟩ ⟨0, 0, 0⟩ .finished (fun _ => .ok) []
    rw [gateway_of_readLines hread₁] at h₁
    rw [gateway_of_readLines hread₂] at h₂
    cases h₁
    cases h₂
    have hsame := congrArg List.length (hlists .ana)
    have hmode₁ : c₁.mParams ≠ simul := (readLines_mParams hread₁).trans_ne hmode
    have hmode₂ : c₂.mParams ≠ simul := (readLines_mParams hread₂).trans_ne hmode
    rw [List.length_map, List.length_map] at hsame
    have hsame' : c₁.maASignals.length = c₂.maASignals.length := by
      rw [← start_length hmode₁ f.ret fun _ => .ok, ← start_length hmode₂ f.ret fun _ => .ok]
      exact hsame
    rw [hlen₁, hlen₂] at hsame'
    exact absurd hsame' (Nat.ne_of_lt (anaLines_lt htyped))
  · intro htyped toFloat fresh₁ fresh₂ params u₁ u₂ r o events
    obtain ⟨c₁, hread₁, -⟩ := readLines_length ⟨toFloat, fresh₁⟩ hfields (.new params u₁)
    obtain ⟨c₂, hread₂, -⟩ := readLines_length ⟨toFloat, fresh₂⟩ hfields (.new params u₂)
    have henv : (Env.mk toFloat fresh₁).toFloat = (Env.mk toFloat fresh₂).toFloat := rfl
    have hblur : c₁.blur = c₂.blur := readLines_blur henv htyped hread₁ hread₂
    have halike := Gateway.Alike.run events (Connector.start_alike hblur f.ret r o)
    have hrun₁ := gateway_of_readLines hread₁ r o events
    have hrun₂ := gateway_of_readLines hread₂ r o events
    refine ⟨_, _, hrun₁, hrun₂, sameLists_of_blur halike.conn, ?_⟩
    rw [halike.trace]

/-- A file that opens its section first. -/
theorem independent_header :
    Independent (.complete ["[analog]".toList, "Signal1=Level,5199,5259,1".toList]) := by
  refine (independent_iff ?_).mpr ?_
  · intro l hl hsig
    simp only [IniFile.lines, List.mem_cons, List.not_mem_nil, or_false] at hl
    rcases hl with rfl | rfl
    · exact absurd hsig (by decide)
    · decide
  · exact Or.inl (by decide)

/-- The line before every header adds a signal in one memory and none in another. -/
theorem not_independent_orphan :
    HasFields ["Signal1=Level,5199,5259,1".toList] ∧
      ¬ Independent (.complete ["Signal1=Level,5199,5259,1".toList]) := by
  refine ⟨?_, fun h => ?_⟩
  · intro l hl _
    rw [List.mem_singleton] at hl
    rw [hl]
    decide
  · obtain ⟨g₁, g₂, h₁, h₂, ⟨hlists, -⟩, -⟩ := h (fun _ => 0) (fun _ => ⟨0, 0, 0, 0⟩)
      (fun _ => ⟨0, 0, 0, 0⟩) [] ⟨-1, 0, 0⟩ ⟨0, 0, 0⟩ .finished (fun _ => .ok) []
    have hrun₁ : ∃ g, gateway ⟨fun _ => 0, fun _ => ⟨0, 0, 0, 0⟩⟩ [] ⟨-1, 0, 0⟩
        (.complete ["Signal1=Level,5199,5259,1".toList]) .finished (fun _ => .ok) [] = .ok g ∧
          (g.conn.signals .ana).length = 0 := ⟨_, rfl, rfl⟩
    have hrun₂ : ∃ g, gateway ⟨fun _ => 0, fun _ => ⟨0, 0, 0, 0⟩⟩ [] ⟨0, 0, 0⟩
        (.complete ["Signal1=Level,5199,5259,1".toList]) .finished (fun _ => .ok) [] = .ok g ∧
          (g.conn.signals .ana).length = 1 := ⟨_, rfl, rfl⟩
    obtain ⟨g₁', hg₁, hlen₁⟩ := hrun₁
    obtain ⟨g₂', hg₂, hlen₂⟩ := hrun₂
    cases h₁.symm.trans hg₁
    cases h₂.symm.trans hg₂
    have hsame := congrArg List.length (hlists .ana)
    rw [List.length_map, List.length_map, hlen₁, hlen₂] at hsame
    exact absurd hsame (by decide)

end GateRasu
