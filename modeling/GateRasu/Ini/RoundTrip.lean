import GateRasu.Ini.Frame

/-!
# The round trip of configurations

Reading a text of a configuration gives that configuration back
(`readLines_renders`): its eight settings and its four lists, in the order of the
text, whatever the order of the settings and of the sections.

Every line of the text is good, so the run is a fold of the effects of the items.
The settings commute with everything else, so they can be read first.  Two sections
of different types commute up to the section that is open at the end.
-/

namespace GateRasu

/-! ## Folds -/

/-- A fold whose steps of one sort commute with those of the other. -/
theorem foldl_filter {α β : Type} {f : β → α → β} {p : α → Bool}
    (hcomm : ∀ b x y, p x = true → p y = false → f (f b y) x = f (f b x) y) :
    ∀ (xs : List α) (b : β),
      xs.foldl f b = (xs.filter fun x => !p x).foldl f ((xs.filter p).foldl f b)
  | [], _ => rfl
  | x :: xs, b => by
      rw [List.foldl_cons, foldl_filter hcomm xs]
      cases hx : p x with
      | true =>
          rw [List.filter_cons_of_pos hx,
            List.filter_cons_of_neg (by rw [hx]; exact Bool.false_ne_true)]
          rfl
      | false =>
          rw [List.filter_cons_of_neg (by rw [hx]; exact Bool.false_ne_true),
            List.filter_cons_of_pos (by rw [hx]; rfl), List.foldl_cons]
          have hmove : ∀ (ys : List α) (b : β), (∀ y ∈ ys, p y = true) →
              ys.foldl f (f b x) = f (ys.foldl f b) x := by
            intro ys
            induction ys with
            | nil => exact fun _ _ => rfl
            | cons y ys ih =>
                intro b hys
                rw [List.foldl_cons, List.foldl_cons,
                  hcomm b y x (hys y (List.mem_cons_self ..)) hx]
                exact ih (f b y) fun z hz => hys z (List.mem_cons_of_mem _ hz)
          rw [hmove _ _ fun y hy => (List.mem_filter.mp hy).2]

/-- A fold whose every step appends to a list. -/
theorem foldl_push {α β γ : Type} (f : β → α → β) (put : List γ → β) (h : α → γ)
    (hstep : ∀ l x, f (put l) x = put (l ++ [h x])) (xs : List α) (l : List γ) :
    xs.foldl f (put l) = put (l ++ xs.map h) := by
  induction xs generalizing l with
  | nil => rw [List.map_nil, List.append_nil, List.foldl_nil]
  | cons x xs ih =>
      rw [List.foldl_cons, hstep, ih, List.map_cons, List.append_assoc, List.singleton_append]

theorem exists_of_mem_right {α β : Type} {R : α → β → Prop} {xs : List α} {ys : List β}
    (h : List.Forall₂ R xs ys) {y : β} (hy : y ∈ ys) : ∃ x ∈ xs, R x y := by
  induction h with
  | nil => cases hy
  | cons hab _ ih =>
      rcases List.mem_cons.mp hy with rfl | hy
      · exact ⟨_, List.mem_cons_self .., hab⟩
      · obtain ⟨x, hx, hr⟩ := ih hy
        exact ⟨x, List.mem_cons_of_mem _ hx, hr⟩

/-! ## The items of a configuration are good -/

theorem plain_numeral (n : Nat) : Plain (Numeral.numeral n) :=
  (numberText_of_decimal? (Numeral.decimal?_numeral n)).plain

theorem plain_int32Text (v : BitVec 32) : Plain (int32Text v) :=
  (numberText_of_real? (Numeral.real?_of_integer? (Numeral.integer?_intNumeral v.toInt))).plain

theorem SigDecl.goodFields {α : Type} {simText : α → QString} (hsim : ∀ a, Plain (simText a))
    (s : SigDecl α) : Item.GoodFields (s.fields simText) :=
  ⟨s.plain, plain_numeral _, plain_numeral _, hsim _⟩

/-- The text of a setting, whose value may have commas for dots. -/
theorem Setting.mem_of_prepare {s : Setting} {v t : QString} (hv : s.prepare v = t) {c : Char}
    (hc : c ∈ v) : c = ',' ∨ c ∈ t := by
  by_cases hcomma : c = ','
  · exact Or.inl hcomma
  · right
    rw [← hv]
    cases s with
    | ip => exact List.mem_map.mpr ⟨c, hc, if_neg hcomma⟩
    | port | serverAdr | firstRegstr | numHldRegstr | firstQualRegstr | respTime | numOfRetr =>
        exact hc

namespace Config

theorem goodFields {cfg : Config} {g : SigTypeUses} {f : Fields}
    (hf : f ∈ cfg.sectionFields g) : Item.GoodFields f := by
  cases g with
  | sAna =>
      obtain ⟨s, -, rfl⟩ := List.mem_map.mp hf
      exact s.goodFields FloatText.plain
  | sDis =>
      obtain ⟨s, -, rfl⟩ := List.mem_map.mp hf
      exact s.goodFields plain_int32Text
  | sInt =>
      obtain ⟨s, -, rfl⟩ := List.mem_map.mp hf
      exact s.goodFields plain_int32Text
  | sGroup =>
      obtain ⟨s, -, rfl⟩ := List.mem_map.mp hf
      exact s.goodFields FloatText.plain

theorem mem_ip_text {ip : IpAddress} {c : Char} (hc : c ∈ ip.text) :
    c.isDigit = true ∨ c = '.' := by
  simp only [IpAddress.text, List.mem_append, List.mem_cons] at hc
  rcases hc with hc | hc | hc | hc | hc | hc | hc
  · exact Or.inl (Numeral.isDigit_of_mem_numeral hc)
  · exact Or.inr hc
  · exact Or.inl (Numeral.isDigit_of_mem_numeral hc)
  · exact Or.inr hc
  · exact Or.inl (Numeral.isDigit_of_mem_numeral hc)
  · exact Or.inr hc
  · exact Or.inl (Numeral.isDigit_of_mem_numeral hc)

theorem mem_value {cfg : Config} {s : Setting} {c : Char} (hc : c ∈ cfg.value s) :
    c.isDigit = true ∨ c = '.' := by
  cases s with
  | ip => exact mem_ip_text hc
  | port | serverAdr | firstRegstr | numHldRegstr | firstQualRegstr | respTime | numOfRetr =>
      exact Or.inl (Numeral.isDigit_of_mem_numeral hc)

theorem IsSection.good {g : SigTypeUses} {fs : List Fields} {items : List Item}
    (h : Item.IsSection g fs items) (hfs : ∀ f ∈ fs, Item.GoodFields f) :
    ∀ i ∈ items, i.Good := by
  obtain ⟨header, sigs, rfl, hheader, hsigs⟩ := h
  intro i hi
  rcases List.mem_cons.mp hi with rfl | hi
  · exact hheader
  · obtain ⟨f, hf, num, hnum, rfl⟩ := exists_of_mem_right (List.Forall₂.flip hsigs) hi
    exact ⟨hnum, hfs f hf⟩

theorem Items.good {cfg : Config} {items : List Item} (h : cfg.Items items) :
    ∀ i ∈ items, i.Good := by
  obtain ⟨⟨v, hv, hperm⟩, order, secs, -, hsecs, hrest⟩ := h
  intro i hi
  cases hset : i.isSetting with
  | true =>
      have hmem := hperm.mem_iff.mp (List.mem_filter.mpr ⟨hi, hset⟩)
      obtain ⟨s, -, rfl⟩ := List.mem_map.mp hmem
      intro c hc
      rcases Setting.mem_of_prepare (hv s) hc with rfl | hmem
      · exact Or.inr (Or.inr rfl)
      · exact (mem_value hmem).imp_right Or.inl
  | false =>
      have hmem : i ∈ secs.flatten := by
        rw [← hrest]
        exact List.mem_filter.mpr ⟨hi, by rw [hset]; rfl⟩
      obtain ⟨sec, hsec, hisec⟩ := List.mem_flatten.mp hmem
      obtain ⟨g, -, hg⟩ := exists_of_mem_right hsecs hsec
      exact IsSection.good hg (fun f hf => goodFields hf) i hisec

end Config

/-! ## Settings -/

/-- Assignments of different settings commute. -/
theorem Setting.write_comm {s s' : Setting} (h : s ≠ s') (c : Connector) (v v' : QString) :
    s'.write (s.write c v) v' = s.write (s'.write c v') v := by
  cases s <;> cases s' <;> first | rfl | exact absurd rfl h

/-- An assignment of a setting commutes with a line of another sort. -/
theorem Item.apply_comm (env : Env) (c : Connector) (i j : Item) (hi : i.isSetting = true)
    (hj : j.isSetting = false) : (i.apply env (j.apply env c)) = j.apply env (i.apply env c) := by
  cases i with
  | header g h => cases hi
  | signal num f => cases hi
  | setting s v =>
      cases j with
      | setting s' v' => cases hj
      | header g h => cases s <;> rfl
      | signal num f =>
          have htype : (s.write c (s.prepare v)).mTypeSig = c.mTypeSig := by cases s <;> rfl
          simp only [apply, htype]
          cases SigTypeUses.ofInt? c.mTypeSig with
          | none => rfl
          | some g => cases g <;> cases s <;> rfl

/-- The connector with the settings of a configuration. -/
def Config.assign (cfg : Config) (c : Connector) : Connector :=
  Setting.all.foldl (fun c s => s.write c (cfg.value s)) c

theorem Config.foldl_settings {cfg : Config} {items : List Item} (h : cfg.Items items) (env : Env)
    (c : Connector) :
    (items.filter Item.isSetting).foldl (Item.apply env) c = cfg.assign c := by
  obtain ⟨v, hv, hperm⟩ := h.settings
  have hcomm : ∀ i ∈ items.filter Item.isSetting, ∀ j ∈ items.filter Item.isSetting, ∀ c,
      j.apply env (i.apply env c) = i.apply env (j.apply env c) := by
    intro i hi j hj c
    obtain ⟨s, -, rfl⟩ := List.mem_map.mp (hperm.mem_iff.mp hi)
    obtain ⟨s', -, rfl⟩ := List.mem_map.mp (hperm.mem_iff.mp hj)
    by_cases hs : s = s'
    · rw [hs]
    · exact Setting.write_comm hs c _ _
  rw [hperm.foldl_eq' hcomm, List.foldl_map, assign]
  exact congrArg (fun F => Setting.all.foldl F c)
    (funext fun c => funext fun s => congrArg (s.write c) (hv s))

/-! ## Sections -/

/-- Add the signals of a section. -/
def pushSection (env : Env) (g : SigTypeUses) (fs : List Fields) (c : Connector) : Connector :=
  fs.foldl (fun c f => pushSignal env c f (some g)) c

theorem foldl_signals {g : SigTypeUses} {sigs : List Item} {fs : List Fields}
    (h : List.Forall₂ (fun i f => ∃ num, Item.GoodNumber num ∧ i = Item.signal num f) sigs fs)
    (env : Env) : ∀ c : Connector, c.mTypeSig = g.toNat →
      sigs.foldl (Item.apply env) c = pushSection env g fs c := by
  induction h with
  | nil => exact fun _ _ => rfl
  | cons hif _ ih =>
      rintro c hc
      obtain ⟨num, -, rfl⟩ := hif
      rw [List.foldl_cons, Item.apply, hc, SigTypeUses.ofInt?_toNat]
      exact ih _ ((pushSignal_mTypeSig env c _ g).trans hc)

/-- The items of a section open it and add its signals. -/
theorem foldl_section {g : SigTypeUses} {fs : List Fields} {items : List Item}
    (h : Item.IsSection g fs items) (env : Env) (c : Connector) :
    items.foldl (Item.apply env) c = pushSection env g fs (openSection c (some g)) := by
  obtain ⟨header, sigs, rfl, -, hsigs⟩ := h
  exact foldl_signals hsigs env _ rfl

theorem foldl_sections {F : SigTypeUses → List Fields} {order : List SigTypeUses}
    {secs : List (List Item)} (h : List.Forall₂ (fun g => Item.IsSection g (F g)) order secs)
    (env : Env) : ∀ c : Connector, secs.flatten.foldl (Item.apply env) c =
      order.foldl (fun c g => pushSection env g (F g) (openSection c (some g))) c := by
  induction h with
  | nil => exact fun _ => rfl
  | cons hsec _ ih =>
      intro c
      rw [List.flatten_cons, List.foldl_append, foldl_section hsec env c]
      exact ih _

/-- Forget which section is open. -/
def Connector.closed (c : Connector) : Connector := { c with mTypeSig := 0 }

theorem closed_pushSection (env : Env) (g : SigTypeUses) (fs : List Fields) (c : Connector) :
    (pushSection env g fs (openSection c (some g))).closed = pushSection env g fs c.closed := by
  rw [pushSection, pushSection]
  refine (List.foldl_hom Connector.closed fun c f => ?_).symm
  cases g <;> rfl

/-- Sections of different types commute. -/
theorem pushSection_comm (env : Env) {g g' : SigTypeUses} (h : g ≠ g') (fs fs' : List Fields)
    (c : Connector) : pushSection env g' fs' (pushSection env g fs c) =
      pushSection env g fs (pushSection env g' fs' c) := by
  refine (List.foldl_hom (pushSection env g' fs') fun c f => ?_).symm
  refine (List.foldl_hom (fun c => pushSignal env c f (some g)) fun c f' => ?_).symm
  cases g <;> cases g' <;> first | rfl | exact absurd rfl h

theorem foldl_order {F : SigTypeUses → List Fields} {order : List SigTypeUses}
    (h : order.Perm [SigTypeUses.sAna, .sDis, .sInt, .sGroup]) (env : Env) (c : Connector) :
    (order.foldl (fun c g => pushSection env g (F g) (openSection c (some g))) c).closed =
      pushSection env .sGroup (F .sGroup) (pushSection env .sInt (F .sInt)
        (pushSection env .sDis (F .sDis) (pushSection env .sAna (F .sAna) c.closed))) := by
  have hhom : order.foldl (fun c g => pushSection env g (F g) c) c.closed =
      (order.foldl (fun c g => pushSection env g (F g) (openSection c (some g))) c).closed :=
    List.foldl_hom Connector.closed fun c g => (closed_pushSection env g (F g) c).symm
  rw [← hhom]
  refine h.foldl_eq' (fun g _ g' _ c => ?_) c.closed
  by_cases hg : g = g'
  · rw [hg]
  · exact pushSection_comm env hg (F g) (F g') c

/-! ## The round trip -/

theorem pushSection_ana (env : Env) : ∀ (fs : List Fields) (c : Connector),
    pushSection env .sAna fs c = { c with
      maASignals := c.maASignals ++ fs.mapIdx fun i f => f.aSig env (c.maASignals.length + i) }
  | [], c => by
      rw [List.mapIdx_nil, List.append_nil]
      rfl
  | f :: fs, c => by
      have ih := pushSection_ana env fs (pushSignal env c f (some .sAna))
      rw [pushSection, List.foldl_cons]
      refine ih.trans ?_
      simp only [pushSignal, List.mapIdx_cons, List.length_append, List.length_singleton,
        Nat.add_zero, List.append_assoc, List.singleton_append, Nat.add_assoc, Nat.add_comm 1]

theorem pushSection_dis (env : Env) (fs : List Fields) (c : Connector) :
    pushSection env .sDis fs c = { c with maDSignals := c.maDSignals ++ fs.map Fields.dSig } :=
  foldl_push (fun c f => pushSignal env c f (some .sDis)) (fun l => { c with maDSignals := l })
    Fields.dSig (fun _ _ => rfl) fs c.maDSignals

theorem pushSection_int (env : Env) (fs : List Fields) (c : Connector) :
    pushSection env .sInt fs c = { c with maIntSignals := c.maIntSignals ++ fs.map Fields.dSig } :=
  foldl_push (fun c f => pushSignal env c f (some .sInt)) (fun l => { c with maIntSignals := l })
    Fields.dSig (fun _ _ => rfl) fs c.maIntSignals

theorem pushSection_group (env : Env) (fs : List Fields) (c : Connector) :
    pushSection env .sGroup fs c =
      { c with maGrSignals := c.maGrSignals ++ fs.map fun _ => {} } :=
  foldl_push (fun c f => pushSignal env c f (some .sGroup)) (fun l => { c with maGrSignals := l })
    (fun _ => {}) (fun _ _ => rfl) fs c.maGrSignals

theorem Config.assign_signals (cfg : Config) (c : Connector) :
    (cfg.assign c).maASignals = c.maASignals ∧ (cfg.assign c).maDSignals = c.maDSignals ∧
      (cfg.assign c).maIntSignals = c.maIntSignals ∧
        (cfg.assign c).maGrSignals = c.maGrSignals := by
  refine ⟨Checked.foldl_frame Connector.maASignals ?_ Setting.all c,
    Checked.foldl_frame Connector.maDSignals ?_ Setting.all c,
    Checked.foldl_frame Connector.maIntSignals ?_ Setting.all c,
    Checked.foldl_frame Connector.maGrSignals ?_ Setting.all c⟩
  all_goals
    intro c s
    cases s <;> rfl

/-- The analog signal a declaration asks for. -/
def SigDecl.aSig (env : Env) (i : Nat) (s : SigDecl FloatText) : WSSignal :=
  loadedAna (env.fresh i) s.name s.hold s.qual (env.toFloat s.sim.text)

/-- The discrete or integer signal a declaration asks for. -/
def SigDecl.dSig (s : SigDecl (BitVec 32)) : WSSignal :=
  loadedInt s.name s.hold s.qual s.sim

theorem toUInt_setWidth {w : Nat} (hw : w ≤ 32) (x : BitVec w) :
    (QString.toUInt (Numeral.numeral x.toNat)).setWidth w = x :=
  QString.toUInt_setWidth hw (Numeral.natural?_of_decimal? (Numeral.decimal?_numeral x.toNat))

theorem fields_aSig (env : Env) (i : Nat) (s : SigDecl FloatText) :
    (s.fields FloatText.text).aSig env i = s.aSig env i := by
  simp only [Fields.aSig, SigDecl.fields, SigDecl.aSig, toUInt_setWidth (show 16 ≤ 32 by decide)]
  rfl

theorem fields_dSig (s : SigDecl (BitVec 32)) : (s.fields int32Text).dSig = s.dSig := by
  have hsim := QString.toLong_setWidth (Numeral.integer?_intNumeral s.sim.toInt)
  simp only [Fields.dSig, SigDecl.fields, SigDecl.dSig, toUInt_setWidth (show 16 ≤ 32 by decide),
    int32Text, hsim]
  rfl

/-- The connector holds the settings and the signals of a configuration. -/
structure Config.Loaded (env : Env) (cfg : Config) (c : Connector) : Prop where
  host : c.mPlcHost = cfg.ip.text
  port : c.mPlcPort = cfg.port
  serverAdr : c.mServerAdr = cfg.serverAdr.setWidth 16
  firstRegstr : c.mStartReg = cfg.firstRegstr
  numHldRegstr : c.mNumHoldRegs = cfg.numHldRegstr
  firstQualRegstr : c.mStartQualReg = cfg.firstQualRegstr
  respTime : c.mResponseTime = cfg.respTime
  numOfRetr : c.mNumOfRetries = cfg.numOfRetr
  ana : c.maASignals = cfg.ana.mapIdx (SigDecl.aSig env)
  dis : c.maDSignals = cfg.dis.map SigDecl.dSig
  int : c.maIntSignals = cfg.int.map SigDecl.dSig
  grp : c.maGrSignals = cfg.grp.map fun _ => {}

/-- The items of a configuration, with the section that is open at the end forgotten. -/
theorem Config.foldl_items {cfg : Config} {items : List Item} (h : cfg.Items items) (env : Env)
    (c : Connector) : (items.foldl (Item.apply env) c).closed =
      pushSection env .sGroup (cfg.sectionFields .sGroup)
        (pushSection env .sInt (cfg.sectionFields .sInt)
          (pushSection env .sDis (cfg.sectionFields .sDis)
            (pushSection env .sAna (cfg.sectionFields .sAna) (cfg.assign c).closed))) := by
  obtain ⟨order, secs, horder, hsecs, hrest⟩ := h.sections
  rw [foldl_filter (p := Item.isSetting) (fun c i j hi hj => Item.apply_comm env c i j hi hj),
    Config.foldl_settings h, hrest, foldl_sections hsecs, foldl_order horder]

/-- **The round trip.**  The lines of a text of a configuration, read in a state without
signals, give the settings and the signals of the configuration. -/
theorem readLines_renders {cfg : Config} {lines : List QString} (h : cfg.Renders lines) (env : Env)
    {c : Connector} (hana : c.maASignals = []) (hdis : c.maDSignals = [])
    (hint : c.maIntSignals = []) (hgrp : c.maGrSignals = []) :
    ∃ c', readLines env c lines = .ok c' ∧ cfg.Loaded env c' := by
  obtain ⟨items, hitems, hlines⟩ := h
  refine ⟨_, readLines_good hitems.good hlines env c, ?_⟩
  have hclosed := Config.foldl_items hitems env c
  rw [pushSection_ana, pushSection_dis, pushSection_int, pushSection_group] at hclosed
  have hlists := cfg.assign_signals c
  dsimp only [Connector.closed] at hclosed
  have h16 : 16 ≤ 32 := by decide
  have h8 : 8 ≤ 32 := by decide
  constructor
  case host => exact congrArg Connector.mPlcHost hclosed
  case port => exact (congrArg Connector.mPlcPort hclosed).trans (toUInt_setWidth h16 cfg.port)
  case serverAdr =>
      exact (congrArg Connector.mServerAdr hclosed).trans
        (congrArg (BitVec.setWidth 16) (toUInt_setWidth h8 cfg.serverAdr))
  case firstRegstr =>
      exact (congrArg Connector.mStartReg hclosed).trans (toUInt_setWidth h16 cfg.firstRegstr)
  case numHldRegstr =>
      exact (congrArg Connector.mNumHoldRegs hclosed).trans (toUInt_setWidth h16 cfg.numHldRegstr)
  case firstQualRegstr =>
      exact (congrArg Connector.mStartQualReg hclosed).trans
        (toUInt_setWidth h16 cfg.firstQualRegstr)
  case respTime =>
      exact (congrArg Connector.mResponseTime hclosed).trans (toUInt_setWidth h16 cfg.respTime)
  case numOfRetr =>
      exact (congrArg Connector.mNumOfRetries hclosed).trans (toUInt_setWidth h8 cfg.numOfRetr)
  case ana =>
      refine (congrArg Connector.maASignals hclosed).trans ?_
      simp only [hlists, hana, Config.sectionFields, List.nil_append, List.length_nil, Nat.zero_add]
      refine List.ext_getElem? fun i => ?_
      simp only [List.getElem?_mapIdx, List.getElem?_map, Option.map_map, Function.comp_def,
        fields_aSig]
  case dis =>
      refine (congrArg Connector.maDSignals hclosed).trans ?_
      simp only [hlists, hdis, Config.sectionFields, List.nil_append, List.map_map,
        Function.comp_def, fields_dSig]
  case int =>
      refine (congrArg Connector.maIntSignals hclosed).trans ?_
      simp only [hlists, hint, Config.sectionFields, List.nil_append, List.map_map,
        Function.comp_def, fields_dSig]
  case grp =>
      refine (congrArg Connector.maGrSignals hclosed).trans ?_
      simp only [hlists, hgrp, Config.sectionFields, List.nil_append, List.map_map,
        Function.comp_def]

/-! ## A sample -/

/-- A configuration with one analog and one discrete signal. -/
def sampleConfig : Config where
  ip := ⟨192, 168, 1, 233⟩
  port := 502
  serverAdr := 1
  firstRegstr := 5199
  numHldRegstr := 66
  firstQualRegstr := 5259
  respTime := 500
  numOfRetr := 3
  ana := [⟨"Level".toList, 5199, 5259, ⟨"1.5".toList, by constructor <;> decide⟩,
    by constructor <;> decide⟩]
  dis := [⟨"Pump".toList, 5249, 5264, -1, by constructor <;> decide⟩]
  int := []
  grp := []

/-- A text of `sampleConfig`, the sections before most of the settings. -/
def sampleText : List QString :=
  ["Host_IP = 192,168,1.233".toList, "[discrete]".toList,
    "Signal1 = Pump, 5249, 5264, -1".toList, "[ analog ]".toList,
    "Signal02=Level,5199,5259,1.5".toList, "Port = 502".toList, "[integer]".toList,
    "[group]".toList, "Server_adress = 1".toList, "1st_rgstr = 5199".toList,
    "Num_rgstr = 66".toList, "1st_qual_rgstr = 5259".toList, "Resposnse_time = 500".toList,
    "Num_of_retries = 3".toList]

/-- The sections of the sample. -/
def sampleSection (g : SigTypeUses) : List Item :=
  .header g ('[' :: (g.word ++ [']'])) :: match g with
    | .sAna => [.signal "02".toList ⟨"Level".toList, "5199".toList, "5259".toList, "1.5".toList⟩]
    | .sDis => [.signal "1".toList ⟨"Pump".toList, "5249".toList, "5264".toList, "-1".toList⟩]
    | .sInt => []
    | .sGroup => []

/-- The values of the settings as the sample writes them. -/
def sampleValue : Setting → QString
  | .ip => "192,168,1.233".toList
  | s => sampleConfig.value s

theorem goodHeader_brackets (g : SigTypeUses) :
    Item.GoodHeader g ('[' :: (g.word ++ [']'])) where
  word := by cases g <;> decide
  other := by
    intro g' h
    cases g <;> cases g' <;> first | decide | exact absurd rfl h
  title := by
    intro s
    cases g <;> cases s <;> decide
  signal := by cases g <;> decide

theorem sampleSection_isSection (g : SigTypeUses) :
    Item.IsSection g (sampleConfig.sectionFields g) (sampleSection g) := by
  refine ⟨_, _, rfl, goodHeader_brackets g, ?_⟩
  cases g with
  | sAna => exact .cons ⟨"02".toList, ⟨by decide, by decide, List.all_eq_true.mp rfl⟩, rfl⟩ .nil
  | sDis => exact .cons ⟨"1".toList, ⟨by decide, by decide, List.all_eq_true.mp rfl⟩, rfl⟩ .nil
  | sInt => exact .nil
  | sGroup => exact .nil

theorem sampleConfig_renders : sampleConfig.Renders sampleText := by
  have hsettings : ∀ s : Setting, s.prepare (sampleValue s) = sampleConfig.value s := by
    intro s
    cases s <;> decide
  refine ⟨[.setting .ip (sampleValue .ip)] ++ sampleSection .sDis ++ sampleSection .sAna ++
    [.setting .port (sampleValue .port)] ++ sampleSection .sInt ++ sampleSection .sGroup ++
    [Setting.serverAdr, .firstRegstr, .numHldRegstr, .firstQualRegstr, .respTime, .numOfRetr].map
      fun s => .setting s (sampleValue s), ⟨⟨sampleValue, hsettings, .refl _⟩,
      [.sDis, .sAna, .sInt, .sGroup], [.sDis, .sAna, .sInt, .sGroup].map sampleSection, by decide,
      ?_, rfl⟩, ?_⟩
  · exact .cons (sampleSection_isSection _) (.cons (sampleSection_isSection _)
      (.cons (sampleSection_isSection _) (.cons (sampleSection_isSection _) .nil)))
  · unfold sampleText
    repeat' first | exact .nil | refine .cons (by decide) ?_

/-- An environment that reads the one number of the sample. -/
def sampleEnv : Env := ⟨fun s => if s = "1.5".toList then 0x3fc00000 else 0, fun _ => ⟨0, 0, 0, 0⟩⟩

/-- The sample is read back. -/
theorem readLines_sample :
    ∃ c, readLines sampleEnv (.plain 0 0 0) sampleText = .ok c ∧ sampleConfig.Loaded sampleEnv c :=
  readLines_renders sampleConfig_renders _ rfl rfl rfl rfl

end GateRasu
