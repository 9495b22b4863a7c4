import GateRasu.Ini.Item
import GateRasu.Ini.Safety

/-!
# The frame of a signal line

A line of a signal is meant to add one signal to the open section and to change nothing
else.  But the tests of the settings and of the sections look for their words anywhere in
the line, and the name of the signal can be any text.  What comes before the name and
after it has none of the words (`contains_line`).  So the words in the name decide.

A title in the name assigns to its setting a text that starts with `Signal`, which is no
number: the setting becomes `0`, or the host becomes the line.  `addsOnly_iff` says when
this, and a type word in the name, goes unnoticed.

The simulation value of a discrete or an integer signal goes through `toLong` and a cast, so
it is stored as it is written only if it fits (`SimFits`).
-/

namespace GateRasu

/-! ## Lines -/

/-- A text of digits, signs, points and exponents. -/
def NumberText (b : QString) : Prop :=
  ∀ c ∈ b, c.isDigit = true ∨ c ∈ ['+', '-', '.', 'e', 'E']

theorem numberText_of_decimal? {b : QString} {n : Nat} (h : Numeral.decimal? b = some n) :
    NumberText b := fun c hc => Or.inl (Numeral.isDigit_of_decimal? h c hc)

theorem numberText_of_natural? {b : QString} {n : Nat} (h : Numeral.natural? b = some n) :
    NumberText b := fun _ hc =>
  (Numeral.mem_natural? h hc).imp_right (List.mem_append_left ['.', 'e', 'E'])

theorem numberText_of_real? {b : QString} {q : ℚ} (h : Numeral.real? b = some q) :
    NumberText b := fun _ hc => Numeral.mem_real? h hc

namespace NumberText

variable {b : QString}

theorem not_mem (hb : NumberText b) {c : Char} (hdigit : c.isDigit = false)
    (hsign : c ∉ ['+', '-', '.', 'e', 'E']) : c ∉ b := by
  intro hc
  rcases hb c hc with h | h
  · rw [hdigit] at h
    cases h
  · exact hsign h

/-- Every word has a letter that no number has. -/
theorem not_contains (hb : NumberText b) {w : QString} (hw : w ∈ keywords) :
    b.contains w = false := by
  have hall : keywords.all (List.any · fun c => c.isDigit = false ∧
      c ∉ ['+', '-', '.', 'e', 'E']) = true := by
    decide
  obtain ⟨c, hc, hletter⟩ := List.any_eq_true.mp (List.all_eq_true.mp hall w hw)
  obtain ⟨hdigit, hsign⟩ := of_decide_eq_true hletter
  exact Text.not_contains_of_mem hc (hb.not_mem hdigit hsign)

theorem plain (hb : NumberText b) : Plain b :=
  ⟨fun _ hw => hb.not_contains hw, hb.not_mem rfl (by decide), hb.not_mem rfl (by decide),
    hb.not_mem rfl (by decide)⟩

end NumberText

/-- The fields of a signal line with any name: two registers and a number. -/
structure SignalText (f : Fields) (hold qual : BitVec 16) (q : ℚ) : Prop where
  nameComma : ',' ∉ f.name
  nameEqual : '=' ∉ f.name
  hold : Numeral.decimal? f.hold = some hold.toNat
  qual : Numeral.decimal? f.qual = some qual.toNat
  sim : Numeral.real? f.sim = some q

namespace SignalText

variable {f : Fields} {hold qual : BitVec 16} {q : ℚ}

theorem separated (hf : SignalText f hold qual q) : f.Separated := by
  have hhold := numberText_of_decimal? hf.hold
  have hqual := numberText_of_decimal? hf.qual
  have hsim := numberText_of_real? hf.sim
  have hequal : '=' ∉ f.text := by
    simp [Fields.text, hf.nameEqual, hhold.not_mem, hqual.not_mem, hsim.not_mem]
  exact ⟨hf.nameComma, hhold.not_mem rfl (by decide), hqual.not_mem rfl (by decide),
    hsim.not_mem rfl (by decide), hequal⟩

/-- The words of a line but `Signal` are those of its name. -/
theorem contains_line (hf : SignalText f hold qual q) {num : QString} (hnum : Item.GoodNumber num)
    {w : QString} (hw : w ∈ keywords) :
    (Item.signal num f).text.contains w = f.name.contains w := by
  rw [Item.contains_signal_text hnum f hw, f.contains_text hw,
    (numberText_of_decimal? hf.hold).not_contains hw,
    (numberText_of_decimal? hf.qual).not_contains hw,
    (numberText_of_real? hf.sim).not_contains hw]
  simp only [Bool.or_false]

end SignalText

/-- A text whose last `=` does not follow a title. -/
def Untitled (b : QString) : Prop :=
  ∃ h r, b = h ++ '=' :: r ∧ '=' ∉ r ∧ ∀ s : Setting, h.contains s.title = false

/-- A text with dots for commas. -/
def dotted (b : QString) : QString := b.replace ',' '.'

theorem contains_dotted (b : QString) {w : QString} (hw : w ∈ keywords) :
    (dotted b).contains w = b.contains w :=
  Setting.ip.contains_prepare b (List.mem_cons_of_mem _ hw)

theorem untitled_signal {num : QString} {f : Fields} (hnum : Item.GoodNumber num)
    (hf : '=' ∉ f.text) : Untitled (Item.signal num f).text :=
  ⟨defaultSignalTitle ++ num, f.text, by rw [Item.text, List.append_assoc], hf,
    fun s => contains_signal_number hnum.digit s.title_mem⟩

namespace Untitled

variable {b : QString}

theorem dotted (hb : Untitled b) : Untitled (dotted b) := by
  obtain ⟨h, r, rfl, hr, htitle⟩ := hb
  refine ⟨GateRasu.dotted h, GateRasu.dotted r, ?_, ?_, fun s => ?_⟩
  · rw [GateRasu.dotted, QString.replace, List.map_append, List.map_cons]
    rfl
  · intro hmem
    obtain ⟨c, hc, heq⟩ := List.mem_map.mp hmem
    split at heq
    · cases heq
    · exact hr (heq ▸ hc)
  · rw [contains_dotted h s.title_mem, htitle]

/-- No test deletes its title. -/
theorem remove (hb : Untitled b) (s : Setting) : QString.remove b (s.title ++ ['=']) = b := by
  obtain ⟨h, r, rfl, hr, htitle⟩ := hb
  exact Text.remove_eq_self (Text.not_contains_snoc hr (htitle s))

/-- The text is no number. -/
theorem toUInt (hb : Untitled b) : b.toUInt = 0 := by
  obtain ⟨h, r, rfl, -, -⟩ := hb
  have hequal : '=' ∈ QString.trimmed (h ++ '=' :: r) := QString.mem_trimmed (by simp) rfl
  rw [QString.toUInt, Numeral.natural?_eq_none hequal rfl (by decide)]

theorem edit_ip (hb : Untitled b) : Setting.ip.edit b = GateRasu.dotted b := hb.dotted.remove .ip

theorem edit (hb : Untitled b) {s : Setting} (hs : s ≠ .ip) : s.edit b = b := by
  cases s with
  | ip => exact absurd rfl hs
  | port | serverAdr | firstRegstr | numHldRegstr | firstQualRegstr | respTime | numOfRetr =>
      exact hb.remove _

end Untitled

/-! ## Assignments -/

namespace Setting

/-- What a line without a value makes of a setting: `0`, and `h` of the host. -/
def Holds (h : QString) (c : Connector) : Setting → Prop
  | ip => c.mPlcHost = h
  | port => c.mPlcPort = 0
  | serverAdr => c.mServerAdr = 0
  | firstRegstr => c.mStartReg = 0
  | numHldRegstr => c.mNumHoldRegs = 0
  | firstQualRegstr => c.mStartQualReg = 0
  | respTime => c.mResponseTime = 0
  | numOfRetr => c.mNumOfRetries = 0

/-- A text that has no value for a setting. -/
def NoValue (h : QString) (s : Setting) (v : QString) : Prop :=
  if s = ip then v = h else v.toUInt = 0

variable {h v : QString} {s : Setting}

theorem holds_write (hv : NoValue h s v) (c : Connector) : s.Holds h (s.write c v) := by
  cases s with
  | ip => exact hv
  | port | serverAdr | firstRegstr | numHldRegstr | firstQualRegstr | respTime | numOfRetr =>
      have hzero : v.toUInt = 0 := hv
      simp only [Holds, write, hzero]
      rfl

/-- An assignment that does not change its setting. -/
theorem write_of_holds (hv : NoValue h s v) {c : Connector} (hc : s.Holds h c) :
    s.write c v = c := by
  have hwrite := holds_write hv c
  cases s with
  | ip => exact congrArg (fun x => { c with mPlcHost := x }) (hwrite.trans hc.symm)
  | port => exact congrArg (fun x => { c with mPlcPort := x }) (hwrite.trans hc.symm)
  | serverAdr => exact congrArg (fun x => { c with mServerAdr := x }) (hwrite.trans hc.symm)
  | firstRegstr => exact congrArg (fun x => { c with mStartReg := x }) (hwrite.trans hc.symm)
  | numHldRegstr => exact congrArg (fun x => { c with mNumHoldRegs := x }) (hwrite.trans hc.symm)
  | firstQualRegstr =>
      exact congrArg (fun x => { c with mStartQualReg := x }) (hwrite.trans hc.symm)
  | respTime => exact congrArg (fun x => { c with mResponseTime := x }) (hwrite.trans hc.symm)
  | numOfRetr => exact congrArg (fun x => { c with mNumOfRetries := x }) (hwrite.trans hc.symm)

/-- What holds of a setting is kept by the other assignments. -/
theorem holds_keep (hv : NoValue h s v) {s' : Setting} {c : Connector} (hc : s'.Holds h c) :
    s'.Holds h (s.write c v) := by
  by_cases hs : s' = s
  · rw [hs]
    exact holds_write hv c
  · cases s <;> cases s' <;> first | exact hc | exact absurd rfl hs

/-- A text that no test of `ss` edits is assigned to each of them whose title it has. -/
theorem scan_of_edit {b : QString} {ss : List Setting} (h : ∀ s ∈ ss, s.edit b = b) :
    scan ss b = ((ss.filter fun s => b.contains s.title).map fun s => (s, b), b) := by
  induction ss with
  | nil => rfl
  | cons s ss ih =>
      have hss := ih fun s' hs' => h s' (List.mem_cons_of_mem _ hs')
      rw [scan, h s (List.mem_cons_self ..), hss]
      rw [List.filter_cons]
      cases b.contains s.title <;> rfl

/-- Assignments without a value, in some order. -/
theorem foldl_holds {as : List (Setting × QString)} (ha : ∀ a ∈ as, NoValue h a.1 a.2)
    {c : Connector} {s : Setting} (hs : s.Holds h c ∨ ∃ a ∈ as, a.1 = s) :
    s.Holds h (as.foldl (fun c a => a.1.write c a.2) c) := by
  induction as generalizing c with
  | nil =>
      rcases hs with hs | ⟨a, ha, -⟩
      · exact hs
      · cases ha
  | cons a as ih =>
      have hhead := ha a (List.mem_cons_self ..)
      rw [List.foldl_cons]
      refine ih (fun a' ha' => ha a' (List.mem_cons_of_mem _ ha')) ?_
      rcases hs with hs | ⟨a', ha', rfl⟩
      · exact Or.inl (holds_keep hhead hs)
      rcases List.mem_cons.mp ha' with rfl | ha'
      · exact Or.inl (holds_write hhead c)
      · exact Or.inr ⟨a', ha', rfl⟩

theorem foldl_eq_self {as : List (Setting × QString)} (ha : ∀ a ∈ as, NoValue h a.1 a.2)
    {c : Connector} (hc : ∀ a ∈ as, a.1.Holds h c) :
    as.foldl (fun c a => a.1.write c a.2) c = c := by
  induction as with
  | nil => rfl
  | cons a as ih =>
      have hhead : a.1.write c a.2 = c :=
        write_of_holds (ha a (List.mem_cons_self ..)) (hc a (List.mem_cons_self ..))
      rw [List.foldl_cons, hhead]
      exact ih (fun a' ha' => ha a' (List.mem_cons_of_mem _ ha'))
        fun a' ha' => hc a' (List.mem_cons_of_mem _ ha')

theorem mem_numeric {s : Setting} (hs : s ≠ ip) : s ∈ numeric :=
  (List.mem_cons.mp s.mem_all).resolve_left hs

/-- The assignments of the numeric settings. -/
theorem scan_numeric {b : QString} (hb : Untitled b) : ∃ as, scan numeric b = (as, b) ∧
    (∀ a ∈ as, NoValue h a.1 a.2) ∧
    ∀ s : Setting, (∃ a ∈ as, a.1 = s) ↔ s ≠ ip ∧ b.contains s.title = true := by
  refine ⟨_, scan_of_edit fun s hs => hb.edit (ne_ip_of_mem_numeric hs), ?_, fun s => ?_⟩
  · intro a ha
    obtain ⟨s, hs, rfl⟩ := List.mem_map.mp ha
    rw [NoValue, if_neg (ne_ip_of_mem_numeric (List.mem_filter.mp hs).1)]
    exact hb.toUInt
  · constructor
    · rintro ⟨a, ha, rfl⟩
      obtain ⟨s, hs, rfl⟩ := List.mem_map.mp ha
      obtain ⟨hs, htitle⟩ := List.mem_filter.mp hs
      exact ⟨ne_ip_of_mem_numeric hs, htitle⟩
    · rintro ⟨hs, htitle⟩
      exact ⟨(s, b), List.mem_map.mpr ⟨s, List.mem_filter.mpr ⟨mem_numeric hs, htitle⟩, rfl⟩, rfl⟩

/-- The assignments of a line that has titles and no value. -/
theorem scan_untitled {b : QString} (hb : Untitled b) :
    (∀ a ∈ (scan all b).1, NoValue (dotted b) a.1 a.2) ∧
      (∀ s : Setting, (∃ a ∈ (scan all b).1, a.1 = s) ↔ b.contains s.title = true) ∧
      (scan all b).2 = if b.contains ip.title then dotted b else b := by
  rw [scan_all, hb.edit_ip]
  cases hip : b.contains ip.title with
  | true =>
      obtain ⟨as, hscan, hvalue, hmem⟩ := scan_numeric (h := dotted b) hb.dotted
      rw [if_pos rfl, if_pos rfl, hscan]
      refine ⟨fun a ha => ?_, fun s => ?_, rfl⟩
      · rcases List.mem_cons.mp ha with rfl | ha
        · rw [NoValue, if_pos rfl]
        · exact hvalue a ha
      · by_cases hs : s = ip
        · rw [hs]
          exact iff_of_true ⟨_, List.mem_cons_self .., rfl⟩ hip
        · have hcons : (∃ a ∈ (ip, dotted b) :: as, a.1 = s) ↔ ∃ a ∈ as, a.1 = s := by
            simp [Ne.symm hs]
          rw [hcons, hmem, contains_dotted b s.title_mem]
          exact ⟨fun h => h.2, fun h => ⟨hs, h⟩⟩
  | false =>
      obtain ⟨as, hscan, hvalue, hmem⟩ := scan_numeric (h := dotted b) hb
      rw [if_neg Bool.false_ne_true, if_neg Bool.false_ne_true, hscan]
      refine ⟨hvalue, fun s => (hmem s).trans ⟨fun h => h.2, fun h => ⟨?_, h⟩⟩, rfl⟩
      rintro rfl
      rw [hip] at h
      cases h

end Setting

section Line

variable {l : QString} {c : Connector}

/-- Every title in the line leaves its setting without a value. -/
theorem holds_assign (hl : Untitled (l.removeChar ' ')) {s : Setting}
    (hs : (l.removeChar ' ').contains s.title = true) :
    s.Holds (dotted (l.removeChar ' ')) (assign l c) := by
  obtain ⟨hvalue, hmem, -⟩ := Setting.scan_untitled hl
  exact Setting.foldl_holds hvalue (Or.inr ((hmem s).mpr hs))

theorem assign_of_holds (hl : Untitled (l.removeChar ' '))
    (h : ∀ s : Setting, (l.removeChar ' ').contains s.title = true →
      s.Holds (dotted (l.removeChar ' ')) c) : assign l c = c := by
  obtain ⟨hvalue, hmem, -⟩ := Setting.scan_untitled hl
  exact Setting.foldl_eq_self hvalue fun a ha => h a.1 ((hmem a.1).mp ⟨a, ha, rfl⟩)

theorem residue_untitled (hl : Untitled (l.removeChar ' ')) :
    residue l = if (l.removeChar ' ').contains Setting.ip.title then
      dotted (l.removeChar ' ') else l.removeChar ' ' :=
  (Setting.scan_untitled hl).2.2

/-- The tests keep the words of the line. -/
theorem contains_residue (hl : Untitled (l.removeChar ' ')) {w : QString}
    (hw : w ∈ defaultSignalTitle :: keywords) :
    (residue l).contains w = (l.removeChar ' ').contains w := by
  rw [residue_untitled hl]
  split
  · exact Setting.ip.contains_prepare _ hw
  · rfl

end Line

theorem holds_pushSignal (env : Env) (h : QString) (s : Setting) (c : Connector) (f : Fields)
    (g : Option SigTypeUses) : s.Holds h (pushSignal env c f g) ↔ s.Holds h c := by
  cases g with
  | none => exact Iff.rfl
  | some g => cases g <;> cases s <;> exact Iff.rfl

theorem holds_openSection (h : QString) (s : Setting) (c : Connector) (g : Option SigTypeUses) :
    s.Holds h (openSection c g) ↔ s.Holds h c := by
  cases g with
  | none => exact Iff.rfl
  | some g => cases s <;> exact Iff.rfl

theorem lineType_congr {a b : QString} (h : ∀ w ∈ keywords, a.contains w = b.contains w) :
    lineType a = lineType b := by
  have hopens : ∀ g : SigTypeUses, opens a g = opens b g := fun g => by
    rw [opens, opens, h _ g.word_mem_keywords]
  rw [lineType, lineType, hopens, hopens, hopens, hopens]

/-! ## The frame -/

/-- The connector with one signal more in a section.  Its simulation value is the number of
the text `sim` in the analog section, and `v` in those of discrete and integer signals. -/
def Connector.addSignal (env : Env) (c : Connector) (name : QString) (hold qual : BitVec 16)
    (sim : QString) (v : BitVec 32) : SigTypeUses → Connector
  | .sAna => { c with
      maASignals := c.maASignals ++
        [loadedAna (env.fresh c.maASignals.length) name hold qual (env.toFloat sim)] }
  | .sDis => { c with maDSignals := c.maDSignals ++ [loadedInt name hold qual v] }
  | .sInt => { c with maIntSignals := c.maIntSignals ++ [loadedInt name hold qual v] }
  | .sGroup => { c with maGrSignals := c.maGrSignals ++ [{}] }

/-- The section has signals with an `int32_t`. -/
def SigTypeUses.HasInt (g : SigTypeUses) : Prop := g = .sDis ∨ g = .sInt

/-- The line adds its signal, with the number `q`, to the section `g` and changes nothing
else. -/
def AddsOnly (env : Env) (c : Connector) (g : SigTypeUses) (l : QString) (name : QString)
    (hold qual : BitVec 16) (sim : QString) (q : ℚ) : Prop :=
  ∃ v : BitVec 32, (g.HasInt → (v.toInt : ℚ) = q) ∧
    readIniSection env c l = .ok (c.addSignal env name hold qual sim v g)

/-- The words in a name go unnoticed, in a line whose text is `b`. -/
structure QuietName (c : Connector) (g : SigTypeUses) (b name : QString) : Prop where
  /-- The last type word of the name is that of the open section. -/
  type : ∀ g', lineType name = some g' → g' = g
  /-- A setting with its title in the name has the value the line gives it. -/
  setting : ∀ s : Setting, name.contains s.title = true → s.Holds (dotted b) c
  /-- A group is the only signal that needs no comma. -/
  host : name.contains Setting.ip.title = true → g = .sGroup

/-- A number of a discrete or integer signal is zero or the numeral of an `int32_t`. -/
def SimFits (g : SigTypeUses) (sim : QString) (q : ℚ) : Prop :=
  g.HasInt → q = 0 ∨ ∃ v : BitVec 32, Numeral.integer? sim = some v.toInt

/-- The signal of a line is added with the number that `toLong` makes of its text. -/
theorem addSignal_eq {f : Fields} {hold qual : BitVec 16} {q : ℚ} (hf : SignalText f hold qual q)
    (env : Env) (c : Connector) (g : SigTypeUses) :
    c.addSignal env f.name hold qual f.sim (f.sim.toLong.setWidth 32) g =
      pushSignal env c f (some g) := by
  have hhold := QString.toUInt_setWidth (by decide) (Numeral.natural?_of_decimal? hf.hold)
  have hqual := QString.toUInt_setWidth (by decide) (Numeral.natural?_of_decimal? hf.qual)
  cases g with
  | sAna =>
      rw [Connector.addSignal, pushSignal, Fields.aSig, hhold, hqual]
      rfl
  | sDis =>
      rw [Connector.addSignal, pushSignal, Fields.dSig, hhold, hqual]
      rfl
  | sInt =>
      rw [Connector.addSignal, pushSignal, Fields.dSig, hhold, hqual]
      rfl
  | sGroup => rfl

section

variable {env : Env} {c : Connector} {g : SigTypeUses} {num l : QString} {f : Fields}
  {hold qual : BitVec 16} {q : ℚ} {v : BitVec 32}

theorem addSignal_mTypeSig (name sim : QString) :
    (c.addSignal env name hold qual sim v g).mTypeSig = c.mTypeSig := by
  cases g <;> rfl

theorem holds_addSignal (h name sim : QString) (s : Setting) :
    s.Holds h (c.addSignal env name hold qual sim v g) ↔ s.Holds h c := by
  cases g <;> cases s <;> exact Iff.rfl

/-- The number is the one member that decides. -/
theorem addSignal_inj {name sim : QString} {v' : BitVec 32} (hg : g.HasInt)
    (h : c.addSignal env name hold qual sim v g = c.addSignal env name hold qual sim v' g) :
    v = v' := by
  rcases hg with rfl | rfl
  · have hlist := congrArg (fun c => c.maDSignals.getLast?.map WSSignal.sigSimD) h
    simpa [Connector.addSignal, loadedInt] using hlist
  · have hlist := congrArg (fun c => c.maIntSignals.getLast?.map WSSignal.sigSimD) h
    simpa [Connector.addSignal, loadedInt] using hlist

theorem untitled_line (hnum : Item.GoodNumber num) (hf : SignalText f hold qual q)
    (hl : l.removeChar ' ' = (Item.signal num f).text) : Untitled (l.removeChar ' ') :=
  hl ▸ untitled_signal hnum hf.separated.equal

theorem contains_name (hnum : Item.GoodNumber num) (hf : SignalText f hold qual q)
    (hl : l.removeChar ' ' = (Item.signal num f).text) {w : QString} (hw : w ∈ keywords) :
    (l.removeChar ' ').contains w = f.name.contains w := by
  rw [hl, hf.contains_line hnum hw]

theorem residue_contains_signal (hnum : Item.GoodNumber num) (hf : SignalText f hold qual q)
    (hl : l.removeChar ' ' = (Item.signal num f).text) :
    (residue l).contains defaultSignalTitle = true := by
  rw [contains_residue (untitled_line hnum hf hl) (List.mem_cons_self ..), hl]
  exact (Text.contains_iff _ _).mpr (List.prefix_append defaultSignalTitle _).isInfix

theorem lineType_residue (hnum : Item.GoodNumber num) (hf : SignalText f hold qual q)
    (hl : l.removeChar ' ' = (Item.signal num f).text) : lineType (residue l) = lineType f.name :=
  lineType_congr fun _ hw =>
    (contains_residue (untitled_line hnum hf hl) (List.mem_cons_of_mem _ hw)).trans
      (contains_name hnum hf hl hw)

/-- A line that adds one signal and changes nothing else has a quiet name. -/
theorem quietName_of_addSignal (hnum : Item.GoodNumber num) (hf : SignalText f hold qual q)
    (htype : c.mTypeSig = g.toNat) (hl : l.removeChar ' ' = (Item.signal num f).text)
    (h : readIniSection env c l = .ok (c.addSignal env f.name hold qual f.sim v g)) :
    QuietName c g (l.removeChar ' ') f.name := by
  have hafter : (g.toNat : Int) = typeAfter c.mTypeSig l := by
    rw [← readIniSection_mTypeSig h, addSignal_mTypeSig, htype]
  constructor
  case type =>
      intro g' hg'
      rw [typeAfter, lineType_residue hnum hf hl, hg'] at hafter
      have hsame := congrArg SigTypeUses.ofInt? hafter
      rw [Option.elim, SigTypeUses.ofInt?_toNat, SigTypeUses.ofInt?_toNat] at hsame
      exact (Option.some.inj hsame).symm
  case setting =>
      intro s hs
      rw [← contains_name hnum hf hl s.title_mem] at hs
      have hholds := holds_assign (c := c) (untitled_line hnum hf hl) hs
      rw [readIniSection_eq] at h
      obtain ⟨f', g', heq⟩ := readSignal_cases h
      rw [← holds_openSection _ _ _ (lineType (residue l)), ← holds_pushSignal env _ _ _ f' g',
        ← heq, holds_addSignal] at hholds
      exact hholds
  case host =>
      intro hip
      rw [← contains_name hnum hf hl Setting.ip.title_mem] at hip
      have hfields := (readIniSection_ok_iff env c l).mp ⟨_, h⟩
      by_contra hg
      have htakes : TakesFields c.mTypeSig l := by
        refine ⟨residue_contains_signal hnum hf hl, ?_⟩
        rw [← hafter]
        cases g with
        | sAna => exact Or.inl rfl
        | sDis => exact Or.inr (Or.inl rfl)
        | sInt => exact Or.inr (Or.inr rfl)
        | sGroup => exact absurd rfl hg
      rw [(hfields htakes).2] at hip
      cases hip

/-- A line with a quiet name adds its signal, with what `toLong` makes of its number. -/
theorem readIniSection_quiet (hnum : Item.GoodNumber num) (hf : SignalText f hold qual q)
    (htype : c.mTypeSig = g.toNat) (hl : l.removeChar ' ' = (Item.signal num f).text)
    (h : QuietName c g (l.removeChar ' ') f.name) : readIniSection env c l =
      .ok (c.addSignal env f.name hold qual f.sim (f.sim.toLong.setWidth 32) g) := by
  have hassign : assign l c = c := assign_of_holds (untitled_line hnum hf hl) fun s hs =>
    h.setting s (by rw [← contains_name hnum hf hl s.title_mem, hs])
  have hopen : openSection c (lineType (residue l)) = c := by
    rw [lineType_residue hnum hf hl]
    cases hname : lineType f.name with
    | none => rfl
    | some g' =>
        rw [h.type g' hname, openSection, Option.elim, ← htype]
  rw [addSignal_eq hf, readIniSection_eq, hassign, hopen]
  have hsignal := residue_contains_signal hnum hf hl
  by_cases hg : g = .sGroup
  · rw [readSignal_eq, if_pos hsignal, htype, SigTypeUses.ofInt?_toNat, hg]
    rfl
  · have hip : (l.removeChar ' ').contains Setting.ip.title = false := by
      rw [contains_name hnum hf hl Setting.ip.title_mem]
      exact Bool.eq_false_iff.mpr fun hip => hg (h.host hip)
    have hresidue : residue l = (Item.signal num f).text := by
      rw [residue_untitled (untitled_line hnum hf hl), hip, hl]
      rfl
    have hblank : ' ' ∉ (Item.signal num f).text := by
      rw [← hl, QString.mem_removeChar]
      exact fun h => h.2 rfl
    have hfields := Item.atFields_split hnum hf.separated hblank
    rw [← hresidue] at hfields
    rw [readSignal_some hsignal hfields, htype, SigTypeUses.ofInt?_toNat]

/-- **The frame of a signal line.**  A line of a signal adds that signal to the open section
and changes nothing else, exactly when the words in its name go unnoticed and its number
fits. -/
theorem addsOnly_iff (hnum : Item.GoodNumber num) (hf : SignalText f hold qual q)
    (htype : c.mTypeSig = g.toNat) (hl : l.removeChar ' ' = (Item.signal num f).text) :
    AddsOnly env c g l f.name hold qual f.sim q ↔
      QuietName c g (l.removeChar ' ') f.name ∧ SimFits g f.sim q := by
  constructor
  · rintro ⟨v, hv, h⟩
    have hquiet := quietName_of_addSignal hnum hf htype hl h
    refine ⟨hquiet, fun hg => (QString.toInt_toLong_iff hf.sim).mp ?_⟩
    rw [readIniSection_quiet hnum hf htype hl hquiet] at h
    rw [addSignal_inj hg (Except.ok.inj h)]
    exact hv hg
  · rintro ⟨hquiet, hfits⟩
    exact ⟨_, fun hg => (QString.toInt_toLong_iff hf.sim).mpr (hfits hg),
      readIniSection_quiet hnum hf htype hl hquiet⟩

end

/-- A name without words, in a new connector with the section of discrete signals open. -/
theorem addsOnly_pump :
    AddsOnly ⟨fun _ => 0, fun _ => ⟨0, 0, 0, 0⟩⟩ (.new [] ⟨1, 0, 0⟩) .sDis
      "Signal1=Pump 2, 5249, 5264, -7".toList "Pump2".toList 5249 5264 "-7".toList (-7) := by
  have hone : ∀ c ∈ "1".toList, c.isDigit = true := List.all_eq_true.mp rfl
  have hnum : Item.GoodNumber "1".toList := ⟨by decide, by decide, hone⟩
  have hsim : Numeral.integer? "-7".toList = some (-7 : BitVec 32).toInt := by decide
  have hf : SignalText ⟨"Pump2".toList, "5249".toList, "5264".toList, "-7".toList⟩ 5249 5264
      (-7) :=
    ⟨by decide, by decide, by decide, by decide, by simpa using Numeral.real?_of_integer? hsim⟩
  refine (addsOnly_iff hnum hf rfl (by decide)).mpr
    ⟨⟨fun g' hg' => ?_, fun s hs => ?_, fun hip => ?_⟩, fun _ => Or.inr ⟨-7, hsim⟩⟩
  · exact absurd hg' (by cases g' <;> decide)
  · cases s <;> exact absurd hs (by decide)
  · exact absurd hip (by decide)

/-- The title of the port in a name clears the port. -/
theorem not_addsOnly_port :
    ¬ AddsOnly ⟨fun _ => 0, fun _ => ⟨0, 0, 0, 0⟩⟩ (.new [] ⟨0, 0, 0⟩) .sAna
      "Signal1=Port 1, 5199, 5259, 1".toList "Port1".toList 5199 5259 "1".toList 1 := by
  rintro ⟨v, -, h⟩
  have hport : some (0 : BitVec 16) = some 502 :=
    congrArg (fun r => r.toOption.map Connector.mPlcPort) h
  exact absurd hport (by decide)

end GateRasu
