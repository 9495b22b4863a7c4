import GateRasu.Ini.Config

/-!
# What a good line does

The reader on the lines it is meant for: `readIniSection_good` gives its effect as a
total function of the item (`Item.apply`).  A line of a setting writes that setting
and nothing else, a header opens its section and writes nothing else, and a line of a
signal adds one signal to the open section.
-/

namespace GateRasu

namespace Item

/-- The effect of a line. -/
def apply (env : Env) (c : Connector) : Item → Connector
  | setting s v => s.write c (s.prepare v)
  | header g _ => openSection c (some g)
  | signal _ f => pushSignal env c f (SigTypeUses.ofInt? c.mTypeSig)

end Item

/-! ## Lines of settings -/

namespace Setting

theorem prepare_title (s : Setting) (v : QString) :
    s.prepare (s.title ++ '=' :: v) = s.title ++ '=' :: s.prepare v := by
  cases s with
  | ip =>
      have htitle : QString.replace defaultIpTitle ',' '.' = defaultIpTitle := by decide
      show QString.replace (defaultIpTitle ++ '=' :: v) ',' '.' = _
      rw [QString.replace, List.map_append]
      exact congrArg (· ++ _) htitle
  | port | serverAdr | firstRegstr | numHldRegstr | firstQualRegstr | respTime | numOfRetr => rfl

/-- The words of a value are those it has before the test. -/
theorem contains_prepare (s : Setting) (v : QString) {w : QString}
    (hw : w ∈ defaultSignalTitle :: keywords) : (s.prepare v).contains w = v.contains w := by
  cases s with
  | ip => exact QString.contains_replace (not_mem_keyword hw).2.1 (dot_not_mem_keyword hw) v
  | port | serverAdr | firstRegstr | numHldRegstr | firstQualRegstr | respTime | numOfRetr => rfl

theorem contains_append_equal {v w : QString} (h : v.contains w = false) :
    v.contains (w ++ ['=']) = false := by
  rw [QString.contains, Text.contains_eq_false_iff] at h ⊢
  exact fun hinfix => h ((List.prefix_append w ['=']).isInfix.trans hinfix)

/-- The edit of a line leaves the value. -/
theorem edit_title {s : Setting} {v : QString} (hv : v.contains s.title = false) :
    s.edit (s.title ++ '=' :: v) = s.prepare v := by
  have hsplit : s.title ++ '=' :: s.prepare v = (s.title ++ ['=']) ++ s.prepare v := by simp
  rw [← s.contains_prepare v (List.mem_cons_of_mem _ s.title_mem)] at hv
  rw [edit, prepare_title, hsplit]
  exact Text.remove_append (by simp) (contains_append_equal hv)

/-- The text of a setting has the title of that setting and the words of its value. -/
theorem contains_title {s : Setting} {v : QString} {w : QString}
    (hw : w ∈ defaultSignalTitle :: keywords) (hv : v.contains w = false) :
    QString.contains (s.title ++ '=' :: v) w = s.title.contains w := by
  rw [QString.contains, Text.contains_sep (not_mem_keyword hw).1]
  exact (congrArg (s.title.contains w || ·) hv).trans (Bool.or_false _)

theorem title_contains_self (s : Setting) : s.title.contains s.title = true :=
  (Text.contains_iff _ _).mpr List.infix_rfl

end Setting

/-- A setting whose value has no word but perhaps `Signal`. -/
theorem readSettings_title {s : Setting} {v : QString} (hv : ∀ w ∈ keywords, v.contains w = false)
    (c : Connector) :
    readSettings c (s.title ++ '=' :: v) = (s.write c (s.prepare v), s.prepare v) := by
  have hedit := Setting.edit_title (hv _ s.title_mem)
  have hone := readSettings_one (b := s.title ++ '=' :: v) (s := s)
    (by rw [Setting.contains_title (List.mem_cons_of_mem _ s.title_mem) (hv _ s.title_mem),
      s.title_contains_self])
    (fun s' hs' => by
      rw [Setting.contains_title (List.mem_cons_of_mem _ s'.title_mem) (hv _ s'.title_mem),
        title_not_contains hs'.symm])
    (fun s' => by
      rw [hedit, s.contains_prepare v (List.mem_cons_of_mem _ s'.title_mem), hv _ s'.title_mem]) c
  rw [hedit] at hone
  exact hone

theorem opens_eq_none {b : QString} {g : SigTypeUses} (h : b.contains g.word = false) :
    opens b g = none :=
  if_neg (by rw [h]; exact Bool.false_ne_true)

theorem lineType_none {b : QString} (h : ∀ g : SigTypeUses, b.contains g.word = false) :
    lineType b = none := by
  simp only [lineType, opens_eq_none (h _), Option.or_none]

/-- What is left of a line of a setting is its value. -/
theorem readIniSection_title {s : Setting} {v l : QString}
    (hv : ∀ w ∈ keywords, v.contains w = false) (hl : l.removeChar ' ' = s.title ++ '=' :: v)
    (env : Env) (c : Connector) :
    readIniSection env c l = readSignal env (s.write c (s.prepare v)) (s.prepare v) := by
  have hsettings := readSettings_title (s := s) hv c
  rw [← hl, readSettings_eq, Prod.mk.injEq] at hsettings
  have htype : lineType (s.prepare v) = none := lineType_none fun g => by
    rw [s.contains_prepare v (List.mem_cons_of_mem _ g.word_mem_keywords), hv _ g.word_mem_keywords]
  rw [readIniSection_eq, hsettings.1, hsettings.2, htype]
  rfl

/-- A line of a setting whose value has no letter. -/
theorem readIniSection_setting {s : Setting} {v l : QString} (hv : ∀ c ∈ v, c.isAlpha = false)
    (hl : l.removeChar ' ' = s.title ++ '=' :: v) (env : Env) (c : Connector) :
    readIniSection env c l = .ok (s.write c (s.prepare v)) := by
  have hsignal : (s.prepare v).contains defaultSignalTitle = false := by
    rw [s.contains_prepare v (List.mem_cons_self ..),
      contains_eq_false_of_isAlpha (List.mem_cons_self ..) hv]
  rw [readIniSection_title
    (fun w hw => contains_eq_false_of_isAlpha (List.mem_cons_of_mem _ hw) hv) hl]
  exact readSignal_none hsignal env _

/-- Digits, dots and commas are no letters. -/
theorem not_isAlpha_of_value {v : QString} (hv : ∀ c ∈ v, c.isDigit = true ∨ c = '.' ∨ c = ',') :
    ∀ c ∈ v, c.isAlpha = false := by
  intro c hc
  rcases hv c hc with h | rfl | rfl
  · exact Numeral.not_isAlpha_of_isDigit h
  · rfl
  · rfl

/-! ## Headers -/

theorem lineType_header {g : SigTypeUses} {h : QString} (hgood : Item.GoodHeader g h) :
    lineType h = some g := by
  have hself : opens h g = some g := if_pos hgood.word
  have hother : ∀ g', g' ≠ g → opens h g' = none := fun g' hg' =>
    opens_eq_none (hgood.other g' hg')
  cases g with
  | sAna => simp [lineType, hself, hother]
  | sDis => simp [lineType, hself, hother]
  | sInt => simp [lineType, hself, hother]
  | sGroup => simp [lineType, hself]

/-- A header of a section. -/
theorem readIniSection_header {g : SigTypeUses} {h l : QString} (hgood : Item.GoodHeader g h)
    (hl : l.removeChar ' ' = h) (env : Env) (c : Connector) :
    readIniSection env c l = .ok (openSection c (some g)) := by
  have hnone := readSettings_none hgood.title c
  rw [← hl, readSettings_eq, Prod.mk.injEq, hl] at hnone
  rw [readIniSection_eq, hnone.1, hnone.2, lineType_header hgood]
  exact readSignal_none hgood.signal env _

/-! ## Lines of signals -/

/-- A word of the fields is a word of one of them. -/
theorem Fields.contains_text (f : Fields) {w : QString} (hw : w ∈ keywords) :
    f.text.contains w =
      (f.name.contains w || (f.hold.contains w || (f.qual.contains w || f.sim.contains w))) := by
  have hcomma := (not_mem_keyword (List.mem_cons_of_mem _ hw)).2.1
  rw [QString.contains, Fields.text, Text.contains_sep hcomma, Text.contains_sep hcomma,
    Text.contains_sep hcomma]
  rfl

/-- `Signal` and digits spell no other word. -/
theorem contains_signal_number {num : QString} (hnum : ∀ c ∈ num, c.isDigit = true) {w : QString}
    (hw : w ∈ keywords) : Text.contains w (defaultSignalTitle ++ num) = false := by
  have hall : keywords.all (List.any · fun c => c ∉ defaultSignalTitle ∧ c.isDigit = false) =
      true := by
    decide
  obtain ⟨c, hc, hletter⟩ := List.any_eq_true.mp (List.all_eq_true.mp hall w hw)
  obtain ⟨hsig, hdigit⟩ := of_decide_eq_true hletter
  refine Text.not_contains_of_mem hc fun h => ?_
  rcases List.mem_append.mp h with h | h
  · exact hsig h
  · rw [hnum c h] at hdigit
    cases hdigit

/-- Fields whose commas and whose `=` are those between them. -/
structure Fields.Separated (f : Fields) : Prop where
  name : ',' ∉ f.name
  hold : ',' ∉ f.hold
  qual : ',' ∉ f.qual
  sim : ',' ∉ f.sim
  equal : '=' ∉ f.text

namespace Item

theorem GoodFields.separated {f : Fields} (hf : GoodFields f) : f.Separated where
  name := hf.name.comma
  hold := hf.hold.comma
  qual := hf.qual.comma
  sim := hf.sim.comma
  equal := by simp [Fields.text, hf.name.equal, hf.hold.equal, hf.qual.equal, hf.sim.equal]

/-- The words of the text of a signal but `Signal` are those of its fields. -/
theorem contains_signal_text {num : QString} (hnum : GoodNumber num) (f : Fields) {w : QString}
    (hw : w ∈ keywords) : (signal num f).text.contains w = f.text.contains w := by
  have hsplit : (signal num f).text = (defaultSignalTitle ++ num) ++ '=' :: f.text := by
    rw [text, List.append_assoc]
  rw [hsplit, QString.contains, Text.contains_sep (not_mem_keyword (List.mem_cons_of_mem _ hw)).1,
    contains_signal_number hnum.digit hw]
  rfl

/-- The text of a signal has no word but `Signal`. -/
theorem contains_signal {num : QString} {f : Fields} (hnum : GoodNumber num) (hf : GoodFields f)
    {w : QString} (hw : w ∈ keywords) : (signal num f).text.contains w = false := by
  rw [contains_signal_text hnum f hw, f.contains_text hw, hf.name.word w hw, hf.hold.word w hw,
    hf.qual.word w hw, hf.sim.word w hw]
  rfl

/-- A text without `=` has no match of the regular expression. -/
theorem matchSignal_eq_zero {s : QString} (h : '=' ∉ s) : matchSignal s = 0 := by
  unfold matchSignal
  split
  · refine if_neg ?_
    rintro ⟨-, -, heq⟩
    exact h (List.mem_of_mem_drop (List.mem_of_getElem? heq))
  · rfl

/-- The match at the head of the text of a signal. -/
theorem matchSignal_signal {num : QString} (hnum : GoodNumber num) (s : QString) :
    matchSignal (defaultSignalTitle ++ (num ++ '=' :: s)) =
      (defaultSignalTitle ++ (num ++ ['='])).length := by
  have hprefix : defaultSignalTitle.isPrefixOf (defaultSignalTitle ++ (num ++ '=' :: s)) = true :=
    List.isPrefixOf_iff_prefix.mpr (List.prefix_append _ _)
  have hdigits : (num ++ '=' :: s).takeWhile Char.isDigit = num := by
    rw [List.takeWhile_append_of_pos hnum.digit, List.takeWhile_cons_of_neg (by decide),
      List.append_nil]
  have hget : (num ++ '=' :: s)[num.length]? = some '=' := by simp
  rw [matchSignal, if_pos hprefix, List.drop_left]
  simp only [hdigits]
  rw [if_pos ⟨hnum.pos, hnum.le, hget⟩]
  simp [Nat.add_assoc]

/-- The fields of a signal are read back. -/
theorem atFields_split {num : QString} {f : Fields} (hnum : GoodNumber num) (hf : f.Separated)
    (hblank : ' ' ∉ (signal num f).text) : atFields (splitSignal (signal num f).text) = .ok f := by
  have hsplit : (signal num f).text = (defaultSignalTitle ++ (num ++ ['='])) ++ f.text := by
    rw [text, List.append_assoc, List.append_assoc]
    rfl
  have hne : defaultSignalTitle ++ (num ++ ['=']) ≠ [] :=
    List.append_ne_nil_of_left_ne_nil (by decide) _
  have hmatch : matchSignal ((defaultSignalTitle ++ (num ++ ['='])) ++ f.text) =
      (defaultSignalTitle ++ (num ++ ['='])).length := by
    rw [← hsplit]
    exact matchSignal_signal hnum f.text
  have hrest : Text.removeMatches matchSignal 0 f.text = f.text :=
    Text.removeMatches_eq_self fun t ht => matchSignal_eq_zero fun h =>
      hf.equal (ht.subset h)
  rw [splitSignal, QString.removeChar_eq_self hblank, hsplit,
    Text.removeMatches_append hne hmatch, hrest, QString.split,
    Fields.text, Text.splitOn_append_cons hf.name, Text.splitOn_append_cons hf.hold,
    Text.splitOn_append_cons hf.qual, Text.splitOn_of_not_mem hf.sim]
  rfl

end Item

/-- A line of a signal. -/
theorem readIniSection_signal {num : QString} {f : Fields} {l : QString}
    (hnum : Item.GoodNumber num) (hf : Item.GoodFields f)
    (hl : l.removeChar ' ' = (Item.signal num f).text) (env : Env) (c : Connector) :
    readIniSection env c l = .ok (pushSignal env c f (SigTypeUses.ofInt? c.mTypeSig)) := by
  have hnone := readSettings_none (b := (Item.signal num f).text)
    (fun s => Item.contains_signal hnum hf s.title_mem) c
  rw [← hl, readSettings_eq, Prod.mk.injEq, hl] at hnone
  have hblank : ' ' ∉ (Item.signal num f).text := by
    rw [← hl, QString.mem_removeChar]
    exact fun h => h.2 rfl
  have hsignal : (Item.signal num f).text.contains defaultSignalTitle = true :=
    (Text.contains_iff _ _).mpr (List.prefix_append defaultSignalTitle _).isInfix
  rw [readIniSection_eq, hnone.1, hnone.2,
    lineType_none fun g => Item.contains_signal hnum hf g.word_mem_keywords]
  exact readSignal_some hsignal (Item.atFields_split hnum hf.separated hblank) env c

/-- **A good line.** -/
theorem readIniSection_good {i : Item} {l : QString} (hgood : i.Good)
    (hl : l.removeChar ' ' = i.text) (env : Env) (c : Connector) :
    readIniSection env c l = .ok (i.apply env c) := by
  cases i with
  | setting s v => exact readIniSection_setting (not_isAlpha_of_value hgood) hl env c
  | header g h => exact readIniSection_header hgood hl env c
  | signal num f => exact readIniSection_signal hgood.1 hgood.2 hl env c

/-- The lines of good items. -/
theorem readLines_good {items : List Item} {lines : List QString} (hgood : ∀ i ∈ items, i.Good)
    (hlines : List.Forall₂ (fun l i => QString.removeChar l ' ' = i.text) lines items) (env : Env) :
    ∀ c : Connector, readLines env c lines = .ok (items.foldl (Item.apply env) c) := by
  induction hlines with
  | nil => exact fun _ => rfl
  | cons hl _ ih =>
      intro c
      rw [readLines, List.foldlM_cons,
        readIniSection_good (hgood _ (List.mem_cons_self ..)) hl env c]
      exact ih (fun i hi => hgood i (List.mem_cons_of_mem _ hi)) _

end GateRasu
