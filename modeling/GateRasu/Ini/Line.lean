import GateRasu.Ini.Reader

/-!
# What one line does

A line of the ini file acts in three parts.  It writes some settings, it may open a
section, and it may add a signal to the list of the section that is open.  The text
that decides all this is the line without its blanks, and the settings edit it on the
way (`residue`).  None of the three parts looks at the lists or at the settings.

The words the reader looks for have no `=` and no comma, and every one has a letter.
So a word does not lie across two fields of a line, and digits never spell one.
-/

namespace GateRasu

open Checked (OutOfRange)

/-! ## Words -/

/-- The words `readIniSection` looks for, but for `Signal`. -/
def keywords : List QString := Setting.all.map Setting.title ++ maTypeSig

namespace SigTypeUses

/-- The type word of a section. -/
def word : SigTypeUses → QString
  | sAna => "analog".toList
  | sDis => "discrete".toList
  | sInt => "integer".toList
  | sGroup => "group".toList

theorem word_mem (g : SigTypeUses) : g.word ∈ maTypeSig := by
  cases g <;> decide

end SigTypeUses

theorem Setting.mem_all (s : Setting) : s ∈ Setting.all := by
  cases s <;> decide

theorem Setting.title_mem (s : Setting) : s.title ∈ keywords :=
  List.mem_append_left _ (List.mem_map_of_mem (Setting.mem_all s))

theorem SigTypeUses.word_mem_keywords (g : SigTypeUses) : g.word ∈ keywords :=
  List.mem_append_right _ g.word_mem

theorem not_mem_keyword {w : QString} (h : w ∈ defaultSignalTitle :: keywords) :
    '=' ∉ w ∧ ',' ∉ w ∧ ' ' ∉ w := by
  revert w
  decide

theorem dot_not_mem_keyword {w : QString} (h : w ∈ defaultSignalTitle :: keywords) : '.' ∉ w := by
  revert w
  decide

/-- Every word has a letter. -/
theorem exists_isAlpha {w : QString} (h : w ∈ defaultSignalTitle :: keywords) :
    ∃ c ∈ w, c.isAlpha = true := by
  have hall : (defaultSignalTitle :: keywords).all (List.any · Char.isAlpha) = true := by decide
  exact List.any_eq_true.mp (List.all_eq_true.mp hall w h)

theorem contains_eq_false_of_isAlpha {w b : QString} (h : w ∈ defaultSignalTitle :: keywords)
    (hb : ∀ c ∈ b, c.isAlpha = false) : b.contains w = false := by
  obtain ⟨c, hc, halpha⟩ := exists_isAlpha h
  refine Text.not_contains_of_mem hc fun hcb => ?_
  rw [hb c hcb] at halpha
  cases halpha

theorem title_not_contains {s s' : Setting} (h : s ≠ s') :
    s.title.contains s'.title = false := by
  revert h
  cases s <;> cases s' <;> decide

/-! ## Settings -/

namespace Setting

theorem read_of_not_contains {b : QString} {s : Setting} (h : b.contains s.title = false)
    (c : Connector) : read (c, b) s = (c, b) := by
  rw [read, h]
  rfl

theorem read_of_contains {b : QString} {s : Setting} (h : b.contains s.title = true)
    (c : Connector) : read (c, b) s = (s.write c (s.edit b), s.edit b) := by
  rw [read, if_pos h]

theorem foldl_read_none {b : QString} (c : Connector) {ss : List Setting}
    (h : ∀ s ∈ ss, b.contains s.title = false) : ss.foldl read (c, b) = (c, b) := by
  induction ss with
  | nil => rfl
  | cons s ss ih =>
      rw [List.foldl_cons, read_of_not_contains (h s (List.mem_cons_self ..))]
      exact ih fun s' hs' => h s' (List.mem_cons_of_mem _ hs')

/-- The assignments of the tests, with the texts assigned, and the line after them. -/
def scan : List Setting → QString → List (Setting × QString) × QString
  | [], b => ([], b)
  | s :: ss, b =>
      if b.contains s.title then
        ((s, s.edit b) :: (scan ss (s.edit b)).1, (scan ss (s.edit b)).2)
      else scan ss b

theorem foldl_read_eq (ss : List Setting) (c : Connector) (b : QString) :
    ss.foldl read (c, b) =
      ((scan ss b).1.foldl (fun c a => a.1.write c a.2) c, (scan ss b).2) := by
  induction ss generalizing c b with
  | nil => rfl
  | cons s ss ih =>
      cases hs : b.contains s.title with
      | false =>
          rw [List.foldl_cons, read_of_not_contains hs, scan, hs]
          exact ih c b
      | true =>
          rw [List.foldl_cons, read_of_contains hs, scan, if_pos hs]
          exact ih (s.write c (s.edit b)) (s.edit b)

/-- The settings with a number. -/
def numeric : List Setting :=
  [port, serverAdr, firstRegstr, numHldRegstr, firstQualRegstr, respTime, numOfRetr]

theorem ne_ip_of_mem_numeric {s : Setting} (h : s ∈ numeric) : s ≠ ip := by
  rintro rfl
  revert h
  decide

/-- The test for `Host_IP` comes first. -/
theorem scan_all (b : QString) : scan all b =
    if b.contains ip.title then
      ((ip, ip.edit b) :: (scan numeric (ip.edit b)).1, (scan numeric (ip.edit b)).2)
    else scan numeric b := rfl

end Setting

/-- A line without a title writes no setting. -/
theorem readSettings_none {b : QString} (h : ∀ s : Setting, b.contains s.title = false)
    (c : Connector) : readSettings c b = (c, b) :=
  Setting.foldl_read_none c fun s _ => h s

/-- A line with one title, whose edit leaves none. -/
theorem readSettings_one {b : QString} {s : Setting} (hs : b.contains s.title = true)
    (hother : ∀ s', s' ≠ s → b.contains s'.title = false)
    (hedit : ∀ s' : Setting, (s.edit b).contains s'.title = false) (c : Connector) :
    readSettings c b = (s.write c (s.edit b), s.edit b) := by
  obtain ⟨before, after, hall⟩ := List.append_of_mem (Setting.mem_all s)
  have hnodup : (before ++ s :: after).Nodup := hall ▸ (by decide : Setting.all.Nodup)
  have hbefore : ∀ s' ∈ before, b.contains s'.title = false := by
    intro s' hs'
    refine hother s' ?_
    rintro rfl
    exact (List.nodup_cons.mp (List.nodup_middle.mp hnodup)).1 (List.mem_append_left _ hs')
  rw [readSettings, hall, List.foldl_append, Setting.foldl_read_none c hbefore, List.foldl_cons,
    Setting.read_of_contains hs]
  exact Setting.foldl_read_none _ fun s' _ => hedit s'

/-- The text of a line without its blanks, after the settings. -/
def residue (l : QString) : QString := (Setting.scan Setting.all (l.removeChar ' ')).2

/-- The connector after the settings of a line. -/
def assign (l : QString) (c : Connector) : Connector :=
  (Setting.scan Setting.all (l.removeChar ' ')).1.foldl (fun c a => a.1.write c a.2) c

theorem readSettings_eq (c : Connector) (l : QString) :
    readSettings c (l.removeChar ' ') = (assign l c, residue l) :=
  Setting.foldl_read_eq Setting.all c (l.removeChar ' ')

/-- A change that no assignment sees. -/
theorem assign_map {f : Connector → Connector}
    (hf : ∀ c v (s : Setting), s.write (f c) v = f (s.write c v)) (l : QString) (c : Connector) :
    assign l (f c) = f (assign l c) := by
  rw [assign, assign]
  exact List.foldl_hom f fun c (a : Setting × QString) => hf c a.2 a.1

/-! ## Sections -/

/-- A type word in a text. -/
def opens (b : QString) (g : SigTypeUses) : Option SigTypeUses :=
  if b.contains g.word then some g else none

/-- The section a text opens: the last one whose word it has. -/
def lineType (b : QString) : Option SigTypeUses :=
  (opens b .sGroup).or ((opens b .sInt).or ((opens b .sDis).or (opens b .sAna)))

/-- Open a section. -/
def openSection (c : Connector) (g : Option SigTypeUses) : Connector :=
  g.elim c fun g => { c with mTypeSig := g.toNat }

theorem openSection_openSection (c : Connector) (g g' : Option SigTypeUses) :
    openSection (openSection c g) g' = openSection c (g'.or g) := by
  cases g' with
  | none => rfl
  | some g' => cases g <;> rfl

theorem idxOf_word (g : SigTypeUses) : maTypeSig.idxOf g.word = g.toNat := by
  cases g <;> decide

/-- The step of `FindTypeSignal`. -/
theorem findTypeSignal_step (c : Connector) (b : QString) (g : SigTypeUses) :
    (if b.contains g.word then { c with mTypeSig := maTypeSig.idxOf g.word } else c) =
      openSection c (opens b g) := by
  rw [idxOf_word, opens]
  split <;> rfl

theorem foldl_findTypeSignal (b : QString) (gs : List SigTypeUses) (c : Connector) :
    (gs.map SigTypeUses.word).foldl (fun c ma =>
      if b.contains ma then { c with mTypeSig := maTypeSig.idxOf ma } else c) c =
      gs.foldl (fun c g => openSection c (opens b g)) c := by
  induction gs generalizing c with
  | nil => rfl
  | cons g gs ih =>
      rw [List.map_cons, List.foldl_cons, List.foldl_cons, findTypeSignal_step]
      exact ih _

theorem findTypeSignal_eq (c : Connector) (b : QString) :
    findTypeSignal c b = openSection c (lineType b) := by
  have hfold := foldl_findTypeSignal b [.sAna, .sDis, .sInt, .sGroup] c
  simp only [List.foldl_cons, List.foldl_nil, openSection_openSection] at hfold
  exact hfold

/-- **One line.** -/
theorem readIniSection_eq (env : Env) (c : Connector) (l : QString) :
    readIniSection env c l =
      readSignal env (openSection (assign l c) (lineType (residue l))) (residue l) := by
  rw [readIniSection, QString.remove_singleton, readSettings_eq]
  exact congrArg (fun c => readSignal env c (residue l))
    (findTypeSignal_eq (assign l c) (residue l))

/-! ## Signals -/

/-- Add the signal of a line to the list of a section. -/
def pushSignal (env : Env) (c : Connector) (f : Fields) : Option SigTypeUses → Connector
  | some .sAna => { c with maASignals := c.maASignals ++ [f.aSig env c.maASignals.length] }
  | some .sDis => { c with maDSignals := c.maDSignals ++ [f.dSig] }
  | some .sInt => { c with maIntSignals := c.maIntSignals ++ [f.dSig] }
  | some .sGroup => { c with maGrSignals := c.maGrSignals ++ [{}] }
  | none => c

theorem pushSignal_mTypeSig (env : Env) (c : Connector) (f : Fields) (g : SigTypeUses) :
    (pushSignal env c f (some g)).mTypeSig = c.mTypeSig := by
  cases g <;> rfl

/-- The kind of the signals of a section. -/
def SigTypeUses.kind? : SigTypeUses → Option Kind
  | sAna => some .ana
  | sDis => some .dis
  | sInt => some .int
  | sGroup => none

/-- The signal of a line, in the list of a kind. -/
def Fields.signal (env : Env) (n : Nat) (f : Fields) : Kind → WSSignal
  | .ana => f.aSig env n
  | .dis => f.dSig
  | .int => f.dSig

theorem pushSignal_signals (env : Env) (c : Connector) (f : Fields) (t : SigTypeUses) (g : Kind) :
    (pushSignal env c f (some t)).signals g = c.signals g ++
      if t.kind? = some g then [f.signal env (c.signals g).length g] else [] := by
  cases t with
  | sAna | sDis | sInt => cases g <;> first | rfl | exact (List.append_nil _).symm
  | sGroup => cases g <;> exact (List.append_nil _).symm

/-- The fields that the section of a line needs. -/
def fieldsFor (b : QString) : Option SigTypeUses → Except OutOfRange Fields
  | some .sAna => atFields (splitSignal b)
  | some .sDis => atFields (splitSignal b)
  | some .sInt => atFields (splitSignal b)
  | some .sGroup => .ok ⟨[], [], [], []⟩
  | none => .ok ⟨[], [], [], []⟩

/-- The four fields are the first four of the list. -/
theorem atFields_eq_ok {t : List QString} {f : Fields} :
    atFields t = .ok f ↔ ∃ rest, t = f.name :: f.hold :: f.qual :: f.sim :: rest := by
  constructor
  · intro h
    match t, h with
    | [], h => cases h
    | [_], h => cases h
    | [_, _], h => cases h
    | [_, _, _], h => cases h
    | _ :: _ :: _ :: _ :: rest, h =>
        cases h
        exact ⟨rest, rfl⟩
  · rintro ⟨rest, rfl⟩
    rfl

theorem atFields_iff (t : List QString) : (∃ f, atFields t = .ok f) ↔ 4 ≤ t.length := by
  constructor
  · rintro ⟨f, hf⟩
    obtain ⟨rest, rfl⟩ := atFields_eq_ok.mp hf
    exact Nat.le_add_left 4 rest.length
  · intro h
    match t, h with
    | name :: hold :: qual :: sim :: rest, _ =>
        exact ⟨⟨name, hold, qual, sim⟩, atFields_eq_ok.mpr ⟨rest, rfl⟩⟩

theorem prepareDiffSigLists_eq (env : Env) (c : Connector) (t : Int) (b : QString) :
    prepareDiffSigLists env c t b = (fieldsFor b (SigTypeUses.ofInt? t)).map fun f =>
      pushSignal env c f (SigTypeUses.ofInt? t) := by
  unfold prepareDiffSigLists
  cases SigTypeUses.ofInt? t with
  | none => rfl
  | some g =>
      cases hf : atFields (splitSignal b) with
      | error e => cases g <;> simp only [fieldsFor, hf] <;> rfl
      | ok f => cases g <;> simp only [fieldsFor, hf] <;> rfl

/-- The signal of a line goes to the section that is open. -/
theorem readSignal_eq (env : Env) (c : Connector) (b : QString) :
    readSignal env c b =
      if b.contains defaultSignalTitle then
        (fieldsFor b (SigTypeUses.ofInt? c.mTypeSig)).map fun f =>
          pushSignal env c f (SigTypeUses.ofInt? c.mTypeSig)
      else .ok c := by
  rw [readSignal, prepareDiffSigLists_eq]
  by_cases hneg : 0 ≤ c.mTypeSig
  · rw [if_pos hneg]
    rfl
  · have hnone : SigTypeUses.ofInt? c.mTypeSig = none := by
      unfold SigTypeUses.ofInt?
      rw [if_neg (by omega), if_neg (by omega), if_neg (by omega), if_neg (by omega)]
    rw [if_neg hneg, hnone]
    rfl

/-- A line without `Signal` adds nothing. -/
theorem readSignal_none {b : QString} (h : b.contains defaultSignalTitle = false) (env : Env)
    (c : Connector) : readSignal env c b = .ok c := by
  rw [readSignal, h]
  rfl

/-- A line with `Signal` and four fields. -/
theorem readSignal_some {b : QString} {f : Fields} (h : b.contains defaultSignalTitle = true)
    (hf : atFields (splitSignal b) = .ok f) (env : Env) (c : Connector) :
    readSignal env c b = .ok (pushSignal env c f (SigTypeUses.ofInt? c.mTypeSig)) := by
  rw [readSignal_eq, if_pos h]
  cases SigTypeUses.ofInt? c.mTypeSig with
  | none => rfl
  | some g => cases g <;> simp only [fieldsFor, hf] <;> rfl

/-- What a line can add, whatever its text. -/
theorem readSignal_cases {env : Env} {c c' : Connector} {b : QString}
    (h : readSignal env c b = .ok c') : ∃ f g, c' = pushSignal env c f g := by
  rw [readSignal_eq] at h
  split at h
  · cases hf : fieldsFor b (SigTypeUses.ofInt? c.mTypeSig) with
    | error e =>
        rw [hf] at h
        cases h
    | ok f =>
        rw [hf] at h
        exact ⟨f, _, (Except.ok.inj h).symm⟩
  · exact ⟨⟨[], [], [], []⟩, none, (Except.ok.inj h).symm⟩

/-! ## Runs -/

theorem assign_inv {P : Connector → Prop} (hwrite : ∀ c v (s : Setting), P c → P (s.write c v))
    (l : QString) {c : Connector} (hc : P c) : P (assign l c) := by
  unfold assign
  induction (Setting.scan Setting.all (l.removeChar ' ')).1 generalizing c with
  | nil => exact hc
  | cons a as ih => exact ih (hwrite c a.2 a.1 hc)

/-- The section a line leaves open. -/
def typeAfter (t : Int) (l : QString) : Int := (lineType (residue l)).elim t fun g => g.toNat

theorem assign_frame (l : QString) (c : Connector) :
    (assign l c).mTypeSig = c.mTypeSig ∧ (assign l c).maASignals = c.maASignals := by
  refine assign_inv (P := fun c' => c'.mTypeSig = c.mTypeSig ∧ c'.maASignals = c.maASignals) ?_ l
    ⟨rfl, rfl⟩
  intro c' v s hc
  cases s <;> exact hc

theorem openSection_frame (l : QString) (c : Connector) :
    (openSection (assign l c) (lineType (residue l))).mTypeSig = typeAfter c.mTypeSig l ∧
      (openSection (assign l c) (lineType (residue l))).maASignals = c.maASignals := by
  obtain ⟨htype, hana⟩ := assign_frame l c
  unfold typeAfter
  cases lineType (residue l) with
  | none => exact ⟨htype, hana⟩
  | some g => exact ⟨rfl, hana⟩

/-- What every write of the reader keeps holds after any file that is read. -/
theorem readLines_inv {P : Connector → Prop} {env : Env}
    (hwrite : ∀ c v (s : Setting), P c → P (s.write c v))
    (hopen : ∀ c g, P c → P (openSection c (some g)))
    (hpush : ∀ c f g, P c → P (pushSignal env c f (some g)))
    {lines : List QString} {c c' : Connector} (hc : P c) (h : readLines env c lines = .ok c') :
    P c' := by
  induction lines generalizing c with
  | nil =>
      cases h
      exact hc
  | cons l lines ih =>
      have hassign : P (assign l c) := assign_inv hwrite l hc
      have hsection : P (openSection (assign l c) (lineType (residue l))) := by
        cases lineType (residue l) with
        | none => exact hassign
        | some g => exact hopen _ g hassign
      rw [readLines, List.foldlM_cons, readIniSection_eq] at h
      cases hl : readSignal env (openSection (assign l c) (lineType (residue l))) (residue l) with
      | error e =>
          rw [hl] at h
          cases h
      | ok c₁ =>
          rw [hl] at h
          refine ih ?_ h
          obtain ⟨f, g, rfl⟩ := readSignal_cases hl
          cases g with
          | none => exact hsection
          | some g => exact hpush _ f g hsection

@[simp] theorem Setting.write_signals (s : Setting) (c : Connector) (v : QString) (g : Kind) :
    (s.write c v).signals g = c.signals g := by
  cases s <;> cases g <;> rfl

@[simp] theorem openSection_signals (c : Connector) (t : Option SigTypeUses) (g : Kind) :
    (openSection c t).signals g = c.signals g := by
  cases t with
  | none => rfl
  | some t => cases g <;> rfl

/-- What holds of the signals of lines holds of all signals that are loaded. -/
theorem readLines_forall_signals {Q : Kind → WSSignal → Prop} {env : Env} {lines : List QString}
    {c c' : Connector} (hQ : ∀ n (f : Fields) g, Q g (f.signal env n g))
    (hc : ∀ g, ∀ s ∈ c.signals g, Q g s) (h : readLines env c lines = .ok c') :
    ∀ g, ∀ s ∈ c'.signals g, Q g s := by
  refine readLines_inv (P := fun c => ∀ g, ∀ s ∈ c.signals g, Q g s) ?_ ?_ ?_ hc h
  · intro c v s hc g
    rw [Setting.write_signals]
    exact hc g
  · intro c t hc g
    rw [openSection_signals]
    exact hc g
  · intro c f t hc g s hs
    rw [pushSignal_signals] at hs
    rcases List.mem_append.mp hs with hs | hs
    · exact hc g s hs
    · split at hs
      · rw [List.mem_singleton.mp hs]
        exact hQ _ f g
      · cases hs

end GateRasu
