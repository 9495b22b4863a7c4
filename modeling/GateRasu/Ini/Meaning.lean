import GateRasu.Ini.Numbers
import GateRasu.Lib.Latest

/-!
# What a text assigns and declares

The reader works line by line, and every line edits itself on the way.  Seen from the whole
text it does three things that do not depend on the connector.

* A setting holds the last text that the lines assign to it.
* The open section is the one that the last line with a type word opens.
* The lists get the signals that the lines declare, in the order of the text, each in the
  section that is open on its line.

What is loaded depends on these only (`readLines_congr`), and so does a failure.  So the lines
of settings can be moved to the front (`readLines_settings_first`).
-/

namespace GateRasu

open Checked (OutOfRange)
open Latest (latest)

/-! ## Settings -/

/-- What a setting holds. -/
inductive Stored where
  | text : QString → Stored
  | number : Nat → Stored

namespace Setting

/-- What a setting of a connector holds. -/
def stored (c : Connector) (s : Setting) : Stored := (s.number? c).elim (.text c.mPlcHost) .number

/-- What the text of an assignment says. -/
def parse (s : Setting) (v : QString) : Stored :=
  s.width.elim (.text v) fun w => .number (QString.number v % 2 ^ w)

theorem stored_write_self (s : Setting) (c : Connector) (v : QString) :
    s.stored (s.write c v) = s.parse v := by
  rw [stored, number?_write, parse]
  cases s <;> rfl

theorem stored_write_other {s s' : Setting} (h : s' ≠ s) (c : Connector) (v : QString) :
    s.stored (s'.write c v) = s.stored c := by
  cases s' <;> cases s <;> first | rfl | exact absurd rfl h

/-- What an assignment says of a setting. -/
def assigned (s : Setting) (a : Setting × QString) : Option Stored :=
  if a.1 = s then some (s.parse a.2) else none

/-- The last assignment wins. -/
theorem stored_foldl (s : Setting) (as : List (Setting × QString)) (c : Connector) :
    s.stored (as.foldl (fun c a => a.1.write c a.2) c) =
      (latest s.assigned as).getD (s.stored c) := by
  refine Latest.foldl_act (p := s.stored) Latest.overwrites_getD (fun _ => True)
    (fun _ _ _ => trivial) (fun c a _ => ?_) as trivial
  rw [assigned]
  split
  · next h =>
      rw [h]
      exact s.stored_write_self c a.2
  · next h => exact stored_write_other h c a.2

theorem stored_pushSignal (s : Setting) (env : Env) (c : Connector) (f : Fields)
    (g : Option SigTypeUses) : s.stored (pushSignal env c f g) = s.stored c := by
  have hhost : (pushSignal env c f g).mPlcHost = c.mPlcHost := by
    cases g with
    | none => rfl
    | some g => cases g <;> rfl
  rw [stored, number?_pushSignal, hhost, stored]

theorem stored_openSection (s : Setting) (c : Connector) (g : Option SigTypeUses) :
    s.stored (openSection c g) = s.stored c := by
  cases g with
  | none => rfl
  | some g => cases s <;> rfl

end Setting

/-- The assignments of a line. -/
def assignments (l : QString) : List (Setting × QString) :=
  (Setting.scan Setting.all (l.removeChar ' ')).1

/-! ## Declarations -/

/-- What a line declares in an open section, from its text after the settings. -/
def declares (t : Int) (b : QString) : Except OutOfRange (List (SigTypeUses × Fields)) :=
  if b.contains defaultSignalTitle then
    match SigTypeUses.ofInt? t with
    | none => .ok []
    | some g => (fieldsFor b (some g)).map fun f => [(g, f)]
  else .ok []

/-- What a file declares. -/
def declared : Int → List QString → Except OutOfRange (List (SigTypeUses × Fields))
  | _, [] => .ok []
  | t, l :: lines => do
      let ds ← declares (typeAfter t l) (residue l)
      let ds' ← declared (typeAfter t l) lines
      return ds ++ ds'

/-- The declarations of a kind. -/
def ofKind (g : Kind) (ds : List (SigTypeUses × Fields)) : List Fields :=
  ds.filterMap fun d => if d.1.kind? = some g then some d.2 else none

/-- The groups of some declarations. -/
def groups (ds : List (SigTypeUses × Fields)) : List WSGrSignal :=
  ds.filterMap fun d => if d.1 = .sGroup then some {} else none

/-! ## The meaning -/

/-- What the members that no line writes hold. -/
structure SameMembers (c c' : Connector) : Prop where
  params : c'.mParams = c.mParams
  allSigNum : c'.mAllSigNum = c.mAllSigNum
  sumQualReg : c'.mSumQualReg = c.mSumQualReg
  staging : c'.maAIntValue = c.maAIntValue

theorem SameMembers.refl (c : Connector) : SameMembers c c := ⟨rfl, rfl, rfl, rfl⟩

theorem SameMembers.trans {c c' c'' : Connector} (h : SameMembers c c') (h' : SameMembers c' c'') :
    SameMembers c c'' :=
  ⟨h'.params.trans h.params, h'.allSigNum.trans h.allSigNum, h'.sumQualReg.trans h.sumQualReg,
    h'.staging.trans h.staging⟩

/-- The connector `c'` is `c` with what some lines say. -/
structure Denotes (env : Env) (c : Connector) (lines : List QString)
    (ds : List (SigTypeUses × Fields)) (c' : Connector) : Prop where
  members : SameMembers c c'
  setting : ∀ s : Setting, s.stored c' =
    (latest s.assigned (lines.flatMap assignments)).getD (s.stored c)
  opened : c'.mTypeSig = lines.foldl typeAfter c.mTypeSig
  signals : ∀ g, c'.signals g =
    c.signals g ++ (ofKind g ds).mapIdx fun n f => f.signal env ((c.signals g).length + n) g
  groups : c'.maGrSignals = c.maGrSignals ++ groups ds

theorem Denotes.nil (env : Env) (c : Connector) : Denotes env c [] [] c where
  members := .refl c
  setting _ := rfl
  opened := rfl
  signals _ := (List.append_nil _).symm
  groups := (List.append_nil _).symm

/-- The meaning of a file is made of those of its parts. -/
theorem Denotes.append {env : Env} {c c' c'' : Connector} {lines lines' : List QString}
    {ds ds' : List (SigTypeUses × Fields)} (h : Denotes env c lines ds c')
    (h' : Denotes env c' lines' ds' c'') : Denotes env c (lines ++ lines') (ds ++ ds') c'' where
  members := h.members.trans h'.members
  setting s := by
    rw [h'.setting, h.setting, List.flatMap_append, Latest.latest_append]
    cases latest s.assigned (lines'.flatMap assignments) <;> rfl
  opened := by rw [h'.opened, h.opened, List.foldl_append]
  signals g := by
    rw [h'.signals, h.signals, ofKind, ofKind, ofKind, List.filterMap_append, List.mapIdx_append,
      List.append_assoc]
    simp only [List.length_append, List.length_mapIdx, Nat.add_comm, Nat.add_left_comm]
  groups := by
    rw [h'.groups, h.groups, GateRasu.groups, GateRasu.groups, GateRasu.groups,
      List.filterMap_append, List.append_assoc]

/-! ## One line -/

/-- The line before its signal. -/
theorem denotes_opened (env : Env) (c : Connector) (l : QString) :
    Denotes env c [l] [] (openSection (assign l c) (lineType (residue l))) := by
  have hframe : SameMembers c (assign l c) ∧ (∀ g, (assign l c).signals g = c.signals g) ∧
      (assign l c).maGrSignals = c.maGrSignals := by
    refine assign_inv (P := fun c' => SameMembers c c' ∧ (∀ g, c'.signals g = c.signals g) ∧
      c'.maGrSignals = c.maGrSignals) ?_ l ⟨.refl c, fun _ => rfl, rfl⟩
    rintro c' v s ⟨hmembers, hsignals, hgroups⟩
    refine ⟨hmembers.trans ?_, fun g => (s.write_signals c' v g).trans (hsignals g), ?_⟩
    · cases s <;> exact ⟨rfl, rfl, rfl, rfl⟩
    · cases s <;> exact hgroups
  obtain ⟨hmembers, hsignals, hgroups⟩ := hframe
  constructor
  · refine hmembers.trans ?_
    cases lineType (residue l) with
    | none => exact .refl _
    | some g => exact ⟨rfl, rfl, rfl, rfl⟩
  · intro s
    rw [s.stored_openSection, assign, s.stored_foldl, List.flatMap_singleton]
    rfl
  · exact (openSection_frame l c).1
  · intro g
    rw [openSection_signals, hsignals]
    exact (List.append_nil _).symm
  · have hopen : (openSection (assign l c) (lineType (residue l))).maGrSignals =
        (assign l c).maGrSignals := by
      cases lineType (residue l) <;> rfl
    rw [hopen, hgroups]
    exact (List.append_nil _).symm

/-- The signal of a line. -/
theorem denotes_pushSignal (env : Env) (c : Connector) (f : Fields) (g : SigTypeUses) :
    Denotes env c [] [(g, f)] (pushSignal env c f (some g)) where
  members := by cases g <;> exact ⟨rfl, rfl, rfl, rfl⟩
  setting s := s.stored_pushSignal env c f (some g)
  opened := pushSignal_mTypeSig env c f g
  signals kind := by
    rw [pushSignal_signals, ofKind]
    by_cases h : g.kind? = some kind
    · simp [h]
    · simp [h]
  groups := by cases g <;> simp [pushSignal, GateRasu.groups]

/-- **One line.** -/
theorem readIniSection_denotes (env : Env) (c : Connector) (l : QString) :
    match declares (typeAfter c.mTypeSig l) (residue l) with
    | .ok ds => ∃ c', readIniSection env c l = .ok c' ∧ Denotes env c [l] ds c'
    | .error e => readIniSection env c l = .error e := by
  have hopened := denotes_opened env c l
  have htype := (openSection_frame l c).1
  rw [readIniSection_eq, readSignal_eq, htype, declares]
  by_cases hsignal : (residue l).contains defaultSignalTitle = true
  · rw [if_pos hsignal, if_pos hsignal]
    cases SigTypeUses.ofInt? (typeAfter c.mTypeSig l) with
    | none => exact ⟨_, rfl, hopened⟩
    | some g =>
        dsimp only
        cases fieldsFor (residue l) (some g) with
        | error e => rfl
        | ok f => exact ⟨_, rfl, hopened.append (denotes_pushSignal env _ f g)⟩
  · rw [if_neg hsignal, if_neg hsignal]
    exact ⟨_, rfl, hopened⟩

/-! ## Files -/

/-- A file whose signal lines can be read. -/
theorem readLines_of_declared (env : Env) {c : Connector} {lines : List QString}
    {ds : List (SigTypeUses × Fields)} (h : declared c.mTypeSig lines = .ok ds) :
    ∃ c', readLines env c lines = .ok c' ∧ Denotes env c lines ds c' := by
  induction lines generalizing c ds with
  | nil =>
      cases h
      exact ⟨c, rfl, .nil env c⟩
  | cons l lines ih =>
      have hline := readIniSection_denotes env c l
      rw [declared] at h
      cases hds : declares (typeAfter c.mTypeSig l) (residue l) with
      | error e =>
          rw [hds] at h
          cases h
      | ok ds₁ =>
          rw [hds] at hline h
          obtain ⟨c', hc', hdenotes⟩ := hline
          have htype : c'.mTypeSig = typeAfter c.mTypeSig l := hdenotes.opened
          cases hds₂ : declared (typeAfter c.mTypeSig l) lines with
          | error e =>
              rw [hds₂] at h
              cases h
          | ok ds₂ =>
              rw [hds₂] at h
              cases h
              obtain ⟨c'', hc'', hdenotes'⟩ := ih (htype ▸ hds₂)
              refine ⟨c'', ?_, hdenotes.append hdenotes'⟩
              rw [readLines, List.foldlM_cons, hc']
              exact hc''

/-- A file with a signal line that cannot be read. -/
theorem readLines_of_declared_error (env : Env) {c : Connector} {lines : List QString}
    {e : OutOfRange} (h : declared c.mTypeSig lines = .error e) :
    readLines env c lines = .error e := by
  induction lines generalizing c with
  | nil => cases h
  | cons l lines ih =>
      have hline := readIniSection_denotes env c l
      rw [declared] at h
      rw [readLines, List.foldlM_cons]
      cases hds : declares (typeAfter c.mTypeSig l) (residue l) with
      | error e' =>
          rw [hds] at hline h
          cases h
          rw [hline]
          rfl
      | ok ds =>
          rw [hds] at hline h
          obtain ⟨c', hc', hdenotes⟩ := hline
          have htype : c'.mTypeSig = typeAfter c.mTypeSig l := hdenotes.opened
          rw [hc']
          refine ih (htype ▸ ?_)
          cases hds' : declared (typeAfter c.mTypeSig l) lines with
          | error e' =>
              rw [hds'] at h
              cases h
              rfl
          | ok ds' =>
              rw [hds'] at h
              cases h

theorem Setting.stored_inj {c c' : Connector} (h : ∀ s : Setting, s.stored c = s.stored c') :
    c.mPlcHost = c'.mPlcHost ∧ c.mPlcPort = c'.mPlcPort ∧ c.mServerAdr = c'.mServerAdr ∧
      c.mStartReg = c'.mStartReg ∧ c.mNumHoldRegs = c'.mNumHoldRegs ∧
        c.mStartQualReg = c'.mStartQualReg ∧ c.mResponseTime = c'.mResponseTime ∧
          c.mNumOfRetries = c'.mNumOfRetries := by
  have hnumber : ∀ {n m : Nat}, Stored.number n = .number m → n = m := fun h => by
    cases h
    rfl
  exact ⟨Stored.text.inj (h .ip), BitVec.eq_of_toNat_eq (hnumber (h .port)),
    BitVec.eq_of_toNat_eq (hnumber (h .serverAdr)),
    BitVec.eq_of_toNat_eq (hnumber (h .firstRegstr)),
    BitVec.eq_of_toNat_eq (hnumber (h .numHldRegstr)),
    BitVec.eq_of_toNat_eq (hnumber (h .firstQualRegstr)),
    BitVec.eq_of_toNat_eq (hnumber (h .respTime)), BitVec.eq_of_toNat_eq (hnumber (h .numOfRetr))⟩

/-- Texts that say the same in a section. -/
structure SameMeaning (t : Int) (lines lines' : List QString) : Prop where
  settings : ∀ s : Setting, latest s.assigned (lines.flatMap assignments) =
    latest s.assigned (lines'.flatMap assignments)
  opened : lines.foldl typeAfter t = lines'.foldl typeAfter t
  declared : declared t lines = declared t lines'

/-- The meaning of a file is all that is loaded. -/
theorem Denotes.eq_of_same {env : Env} {c c₁ c₂ : Connector} {lines lines' : List QString}
    {ds : List (SigTypeUses × Fields)} (hsame : SameMeaning c.mTypeSig lines lines')
    (h₁ : Denotes env c lines ds c₁) (h₂ : Denotes env c lines' ds c₂) : c₁ = c₂ := by
  have hstored : ∀ s : Setting, s.stored c₁ = s.stored c₂ := fun s => by
    rw [h₁.setting, h₂.setting, hsame.settings]
  have hsignals : ∀ g, c₁.signals g = c₂.signals g := fun g => by
    rw [h₁.signals, h₂.signals]
  have hsettings := Setting.stored_inj hstored
  have hana : c₁.maASignals = c₂.maASignals := hsignals .ana
  have hdis : c₁.maDSignals = c₂.maDSignals := hsignals .dis
  have hint : c₁.maIntSignals = c₂.maIntSignals := hsignals .int
  have hgroups := h₁.groups.trans h₂.groups.symm
  have hopened := h₁.opened.trans (hsame.opened.trans h₂.opened.symm)
  have hparams := h₁.members.params.trans h₂.members.params.symm
  have hall := h₁.members.allSigNum.trans h₂.members.allSigNum.symm
  have hsum := h₁.members.sumQualReg.trans h₂.members.sumQualReg.symm
  have hstaging := h₁.members.staging.trans h₂.members.staging.symm
  cases c₁
  cases c₂
  simp only [Connector.mk.injEq]
  exact ⟨hparams, hopened, hall, hsum, hana, hdis, hint, hgroups, hstaging, hsettings.2.2.2.2.1,
    hsettings.2.2.2.1, hsettings.2.2.2.2.2.1, hsettings.2.1, hsettings.1, hsettings.2.2.1,
    hsettings.2.2.2.2.2.2.1, hsettings.2.2.2.2.2.2.2⟩

/-- **Texts with the same meaning load the same connector**, or fail with the same access. -/
theorem readLines_congr {env : Env} {c : Connector} {lines lines' : List QString}
    (h : SameMeaning c.mTypeSig lines lines') : readLines env c lines = readLines env c lines' := by
  have hdeclared := h.declared
  cases hds : declared c.mTypeSig lines with
  | error e =>
      rw [readLines_of_declared_error env hds,
        readLines_of_declared_error env (hdeclared.symm.trans hds)]
  | ok ds =>
      obtain ⟨c₁, hc₁, hd₁⟩ := readLines_of_declared env hds
      obtain ⟨c₂, hc₂, hd₂⟩ := readLines_of_declared env (hdeclared.symm.trans hds)
      rw [hc₁, hc₂, Denotes.eq_of_same h hd₁ hd₂]

/-! ## The order of the lines -/

/-- A line that opens no section and declares no signal. -/
def plainLine (l : QString) : Bool :=
  (lineType (residue l)).isNone && !(residue l).contains defaultSignalTitle

section

variable {l : QString}

theorem typeAfter_plain (h : plainLine l = true) (t : Int) : typeAfter t l = t := by
  rw [plainLine, Bool.and_eq_true, Option.isNone_iff_eq_none] at h
  rw [typeAfter, h.1]
  rfl

theorem declares_plain (h : plainLine l = true) (t : Int) : declares t (residue l) = .ok [] := by
  rw [plainLine, Bool.and_eq_true, Bool.not_eq_true'] at h
  rw [declares, h.2]
  rfl

variable {p : QString → Bool}

/-- Plain lines declare nothing, wherever they stand. -/
theorem declared_filter (hp : ∀ l, p l = true → plainLine l = true) (t : Int)
    (lines : List QString) : declared t (lines.filter (!p ·)) = declared t lines := by
  induction lines generalizing t with
  | nil => rfl
  | cons l lines ih =>
      cases h : p l with
      | true =>
          rw [List.filter_cons_of_neg (by simp [h]), ih, declared, declares_plain (hp l h),
            typeAfter_plain (hp l h)]
          cases declared t lines <;> rfl
      | false => rw [List.filter_cons_of_pos (by simp [h]), declared, declared, ih]

theorem foldl_typeAfter_filter (hp : ∀ l, p l = true → plainLine l = true) (t : Int)
    (lines : List QString) :
    (lines.filter (!p ·)).foldl typeAfter t = lines.foldl typeAfter t := by
  induction lines generalizing t with
  | nil => rfl
  | cons l lines ih =>
      cases h : p l with
      | true =>
          rw [List.filter_cons_of_neg (by simp [h]), ih, List.foldl_cons, typeAfter_plain (hp l h)]
      | false => rw [List.filter_cons_of_pos (by simp [h]), List.foldl_cons, ih, List.foldl_cons]

/-- Lines without assignments say nothing about the settings. -/
theorem flatMap_assignments_filter {lines : List QString}
    (hp : ∀ l ∈ lines, p l = false → assignments l = []) :
    (lines.filter p).flatMap assignments = lines.flatMap assignments := by
  induction lines with
  | nil => rfl
  | cons l lines ih =>
      have hrest := ih fun l' hl' => hp l' (List.mem_cons_of_mem _ hl')
      cases h : p l with
      | true => rw [List.filter_cons_of_pos h, List.flatMap_cons, hrest, List.flatMap_cons]
      | false =>
          rw [List.filter_cons_of_neg (by simp [h]), hrest, List.flatMap_cons,
            hp l (List.mem_cons_self ..) h, List.nil_append]

end

/-- **Settings first.**  If only plain lines write settings, they can be moved to the front of
the file in their order. -/
theorem readLines_settings_first (env : Env) (c : Connector) {lines : List QString}
    (h : ∀ l ∈ lines, plainLine l = false → assignments l = []) :
    readLines env c (lines.filter plainLine ++ lines.filter (!plainLine ·)) =
      readLines env c lines := by
  have hplain : (lines.filter plainLine ++ lines.filter (!plainLine ·)).filter (!plainLine ·) =
      lines.filter (!plainLine ·) := by
    simp [List.filter_append, List.filter_filter]
  have hrest : (lines.filter (!plainLine ·)).flatMap assignments = [] := by
    refine List.flatMap_eq_nil_iff.mpr fun l hl => ?_
    obtain ⟨hmem, hnot⟩ := List.mem_filter.mp hl
    exact h l hmem (by simpa using hnot)
  refine readLines_congr ⟨fun s => ?_, ?_, ?_⟩
  · rw [List.flatMap_append, hrest, List.append_nil, flatMap_assignments_filter h]
  · rw [← foldl_typeAfter_filter (fun _ => id), hplain, foldl_typeAfter_filter fun _ => id]
  · rw [← declared_filter fun _ => id, hplain, declared_filter fun _ => id]

/-- Two ports and a retry count between the signals. -/
theorem readLines_settings_first_ports :
    readLines ⟨fun _ => 0, fun _ => ⟨0, 0, 0, 0⟩⟩ (.new "--WORK".toList ⟨0, 0, 0⟩)
        (["[analog]", "Port=502", "Signal1=Level,5199,5259,1", "Port=503", "[discrete]",
            "Num_of_retries=5"].map String.toList |> fun lines =>
          lines.filter plainLine ++ lines.filter (!plainLine ·)) =
      readLines ⟨fun _ => 0, fun _ => ⟨0, 0, 0, 0⟩⟩ (.new "--WORK".toList ⟨0, 0, 0⟩)
        (["[analog]", "Port=502", "Signal1=Level,5199,5259,1", "Port=503", "[discrete]",
            "Num_of_retries=5"].map String.toList) :=
  readLines_settings_first _ _ (by decide)

end GateRasu
