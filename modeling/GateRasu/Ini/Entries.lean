import GateRasu.Ini.RoundTrip
import GateRasu.Ini.Meaning

/-!
# Entries in any order

A text of a configuration has every setting and every section once.  A file may have them any
number of times and in any order, with signals before the first section and comments between
the lines.  An `Entry` is what a line is meant to say, and `Entry.Text` how it is written.

`readLines_says` tells what is loaded from the lines of entries, into any connector (`Says`).
The last entry of a setting counts, wherever it stands.  A signal goes to the section of the
last header above it, or to the one that was open before, and nothing is lost.

A comment has none of the words of the reader.  These are the only lines that can be dropped
from every file (`droppable_iff`).
-/

namespace GateRasu

open Latest (latest)

/-! ## Comments -/

/-- A text without the words of the reader. -/
def Wordless (b : QString) : Prop := ∀ w ∈ defaultSignalTitle :: keywords, b.contains w = false

instance (b : QString) : Decidable (Wordless b) :=
  inferInstanceAs (Decidable (∀ w ∈ defaultSignalTitle :: keywords, b.contains w = false))

/-- A comment does nothing. -/
theorem readIniSection_wordless {l : QString} (h : Wordless (l.removeChar ' ')) (env : Env)
    (c : Connector) : readIniSection env c l = .ok c := by
  have hnone := readSettings_none (fun s => h _ (List.mem_cons_of_mem _ s.title_mem)) c
  rw [readSettings_eq, Prod.mk.injEq] at hnone
  have htype : lineType (l.removeChar ' ') = none :=
    lineType_none fun g => h _ (List.mem_cons_of_mem _ g.word_mem_keywords)
  rw [readIniSection_eq, hnone.1, hnone.2, htype]
  exact readSignal_none (h _ (List.mem_cons_self ..)) env c

/-- A line without assignments has no title, and is not edited. -/
theorem Setting.of_scan_nil {ss : List Setting} {b : QString} (h : (scan ss b).1 = []) :
    (∀ s ∈ ss, b.contains s.title = false) ∧ (scan ss b).2 = b := by
  induction ss with
  | nil => exact ⟨fun s hs => (List.not_mem_nil hs).elim, rfl⟩
  | cons s ss ih =>
      cases hs : b.contains s.title with
      | true =>
          rw [scan, if_pos hs] at h
          cases h
      | false =>
          rw [scan, hs, if_neg Bool.false_ne_true] at h ⊢
          obtain ⟨hnone, hedit⟩ := ih h
          exact ⟨List.forall_mem_cons.mpr ⟨hs, hnone⟩, hedit⟩

/-- A setting can hold two things. -/
theorem Setting.exists_stored_ne (s : Setting) (v : Stored) (c : Connector) :
    ∃ t, s.stored (s.write c t) ≠ v := by
  by_contra! h
  have hsame := (h ['1']).trans (h ['2']).symm
  have hone : QString.number ['1'] = 1 := QString.number_of_natural? (by decide) (by decide)
  have htwo : QString.number ['2'] = 2 := QString.number_of_natural? (by decide) (by decide)
  rw [stored_write_self, stored_write_self] at hsame
  cases s <;> simp [parse, width, hone, htwo] at hsame

/-- A line that leaves every connector as it was assigns nothing. -/
theorem assignments_eq_nil {env : Env} {l : QString} (h : ∀ c, ∃ ds, Denotes env c [l] ds c) :
    assignments l = [] := by
  cases hl : assignments l with
  | nil => rfl
  | cons a as =>
      cases hv : latest a.1.assigned (assignments l) with
      | none =>
          have hnone := Latest.latest_eq_none_iff.mp hv a (hl ▸ List.mem_cons_self ..)
          rw [Setting.assigned, if_pos rfl] at hnone
          cases hnone
      | some v =>
          obtain ⟨t, ht⟩ := a.1.exists_stored_ne v (.plain 0 0 0)
          obtain ⟨ds, hd⟩ := h (a.1.write (.plain 0 0 0) t)
          have hsetting := hd.setting a.1
          rw [List.flatMap_singleton, hv] at hsetting
          exact absurd hsetting ht

theorem lineType_eq_none {b : QString} (h : lineType b = none) (g : SigTypeUses) :
    b.contains g.word = false := by
  have hopens : opens b g = none := by
    simp only [lineType, Option.or_eq_none_iff] at h
    cases g with
    | sAna => exact h.2.2.2
    | sDis => exact h.2.2.1
    | sInt => exact h.2.1
    | sGroup => exact h.1
  rw [opens] at hopens
  exact Bool.eq_false_iff.mpr fun hword => by simp [hword] at hopens

/-- A line that does nothing in any state is a comment. -/
theorem wordless_of_readIniSection (env : Env) {l : QString}
    (h : ∀ c, readIniSection env c l = .ok c) : Wordless (l.removeChar ' ') := by
  have hdenotes : ∀ c, ∃ ds, declares (typeAfter c.mTypeSig l) (residue l) = .ok ds ∧
      Denotes env c [l] ds c := by
    intro c
    have hline := readIniSection_denotes env c l
    cases hds : declares (typeAfter c.mTypeSig l) (residue l) with
    | error e =>
        rw [hds, h c] at hline
        cases hline
    | ok ds =>
        rw [hds] at hline
        obtain ⟨c', hc', hdenotes⟩ := hline
        cases (h c).symm.trans hc'
        exact ⟨ds, rfl, hdenotes⟩
  have hassigned := assignments_eq_nil fun c => (hdenotes c).imp fun _ => And.right
  obtain ⟨htitle, hresidue⟩ := Setting.of_scan_nil hassigned
  have hb : residue l = l.removeChar ' ' := hresidue
  -- a type word would open its section where none is open
  have htype : lineType (residue l) = none := by
    obtain ⟨ds, -, hd⟩ := hdenotes { Connector.plain 0 0 0 with mTypeSig := -1 }
    have hopened : (-1 : Int) = typeAfter (-1) l := hd.opened
    cases hg : lineType (residue l) with
    | none => rfl
    | some g =>
        rw [typeAfter, hg] at hopened
        cases g <;> cases hopened
  -- `Signal` would add a group, which needs no fields
  have hsignal : (residue l).contains defaultSignalTitle = false := by
    obtain ⟨ds, hds, hd⟩ := hdenotes { Connector.plain 0 0 0 with mTypeSig := 3 }
    refine Bool.eq_false_iff.mpr fun hcontains => ?_
    rw [typeAfter, htype, declares, if_pos hcontains] at hds
    cases hds
    have hgroups := congrArg List.length hd.groups
    simp [groups] at hgroups
  rw [hb] at htype hsignal
  refine List.forall_mem_cons.mpr ⟨hsignal, fun w hw => ?_⟩
  rcases List.mem_append.mp hw with hw | hw
  · obtain ⟨s, hs, rfl⟩ := List.mem_map.mp hw
    exact htitle s hs
  · have hwords : maTypeSig = [SigTypeUses.sAna, .sDis, .sInt, .sGroup].map SigTypeUses.word := rfl
    rw [hwords] at hw
    obtain ⟨g, -, rfl⟩ := List.mem_map.mp hw
    exact lineType_eq_none htype g

/-- **Comments.**  A line can be dropped from every file, read into any connector, exactly if it
has none of the words of the reader when its blanks are gone. -/
theorem droppable_iff (l : QString) :
    (∀ env c before after,
      readLines env c (before ++ l :: after) = readLines env c (before ++ after)) ↔
      Wordless (l.removeChar ' ') := by
  constructor
  · intro h
    refine wordless_of_readIniSection ⟨fun _ => 0, fun _ => ⟨0, 0, 0, 0⟩⟩ fun c => ?_
    have hline := h ⟨fun _ => 0, fun _ => ⟨0, 0, 0, 0⟩⟩ c [] []
    rw [List.nil_append, List.nil_append, readLines, List.foldlM_cons] at hline
    cases hl : readIniSection ⟨fun _ => 0, fun _ => ⟨0, 0, 0, 0⟩⟩ c l with
    | error e =>
        rw [hl] at hline
        cases hline
    | ok c' =>
        rw [hl] at hline
        exact hline
  · intro h env c before after
    rw [readLines, readLines, List.foldlM_append, List.foldlM_append]
    refine congrArg _ (funext fun c' => ?_)
    rw [List.foldlM_cons, readIniSection_wordless h]
    rfl

/-! ## Entries -/

/-- What a line of an ini file is meant to say. -/
inductive Entry where
  | host : IpAddress → Entry
  /-- The number of another setting. -/
  | number : Setting → Nat → Entry
  | header : SigTypeUses → Entry
  | signal : SigDecl FloatText → Entry
  | comment

namespace Entry

/-- The entry is written so when its blanks are gone. -/
inductive Text : Entry → QString → Prop
  /-- The address with commas for dots at will. -/
  | host {ip : IpAddress} {v : QString} : v.replace ',' '.' = ip.text →
      Text (.host ip) (Setting.ip.title ++ '=' :: v)
  | number {s : Setting} {w n : Nat} {v : QString} : s.width = some w → n < 2 ^ w →
      Numeral.natural? v = some n → Text (.number s n) (s.title ++ '=' :: v)
  | header {g : SigTypeUses} {h : QString} : Item.GoodHeader g h → Text (.header g) h
  | signal {num hold qual : QString} {d : SigDecl FloatText} : Item.GoodNumber num →
      Numeral.natural? hold = some d.hold.toNat → Numeral.natural? qual = some d.qual.toNat →
        Text (.signal d) (Item.signal num ⟨d.name, hold, qual, d.sim.text⟩).text
  | comment {b : QString} : Wordless b → Text .comment b

def host? : Entry → Option IpAddress
  | host ip => some ip
  | _ => none

def number? (s : Setting) : Entry → Option Nat
  | number s' n => if s' = s then some n else none
  | _ => none

def header? : Entry → Option SigTypeUses
  | header g => some g
  | _ => none

def signal? : Entry → Option (SigDecl FloatText)
  | signal d => some d
  | _ => none

end Entry

/-- What entries declare in a section, when the section `t` is open before them. -/
def declaredIn (g : SigTypeUses) : Option SigTypeUses → List Entry → List (SigDecl FloatText)
  | _, [] => []
  | t, e :: es =>
      (if t = some g then e.signal?.toList else []) ++ declaredIn g (e.header?.or t) es

/-- The section of the signals of a kind. -/
def Kind.section : Kind → SigTypeUses
  | ana => .sAna
  | dis => .sDis
  | int => .sInt

/-- The signal with the number `n` is loaded as it is declared.  The simulation value of a
discrete or integer signal is the one that is written if that is an `int32_t`. -/
def SigDecl.IsLoaded (d : SigDecl FloatText) (env : Env) (n : Nat) (s : WSSignal) : Kind → Prop
  | .ana => s = d.aSig env n
  | .dis | .int => ∃ sim, s = loadedInt d.name d.hold d.qual sim ∧
      ∀ v : BitVec 32, Numeral.integer? d.sim.text = some v.toInt → sim = v

/-- The second list is the first one with the signals of some declarations behind it. -/
inductive Loads (env : Env) (g : Kind) : List WSSignal → List (SigDecl FloatText) →
    List WSSignal → Prop
  | nil (l : List WSSignal) : Loads env g l [] l
  | cons {l l' : List WSSignal} {ds : List (SigDecl FloatText)} {d : SigDecl FloatText}
      {s : WSSignal} : d.IsLoaded env l.length s g → Loads env g (l ++ [s]) ds l' →
      Loads env g l (d :: ds) l'

theorem Loads.append {env : Env} {g : Kind} {l l' l'' : List WSSignal}
    {ds ds' : List (SigDecl FloatText)} (h : Loads env g l ds l') (h' : Loads env g l' ds' l'') :
    Loads env g l (ds ++ ds') l'' := by
  induction h with
  | nil l => exact h'
  | cons hd _ ih => exact .cons hd (ih h')

/-- The connector `c'` is `c` with what the entries say. -/
structure Says (env : Env) (es : List Entry) (c c' : Connector) : Prop where
  host : c'.mPlcHost = ((latest Entry.host? es).map IpAddress.text).getD c.mPlcHost
  number : ∀ s : Setting, s.number? c' = (latest (Entry.number? s) es).or (s.number? c)
  opened : c'.mTypeSig = ((latest Entry.header? es).map fun g => (g.toNat : Int)).getD c.mTypeSig
  signals : ∀ g : Kind, Loads env g (c.signals g)
    (declaredIn g.section (SigTypeUses.ofInt? c.mTypeSig) es) (c'.signals g)
  groups : c'.maGrSignals = c.maGrSignals ++
    (declaredIn .sGroup (SigTypeUses.ofInt? c.mTypeSig) es).map fun _ => ({} : WSGrSignal)
  members : SameMembers c c'

/-! ## Composition -/

theorem declaredIn_append (g : SigTypeUses) (t : Option SigTypeUses) (es es' : List Entry) :
    declaredIn g t (es ++ es') =
      declaredIn g t es ++ declaredIn g ((latest Entry.header? es).or t) es' := by
  induction es generalizing t with
  | nil => rfl
  | cons e es ih =>
      rw [List.cons_append, declaredIn, declaredIn, ih, Latest.latest_cons, Option.or_assoc,
        List.append_assoc]

namespace Says

variable {env : Env} {c c' c'' : Connector} {es es' : List Entry}

theorem refl (env : Env) (c : Connector) : Says env [] c c where
  host := rfl
  number _ := rfl
  opened := rfl
  signals _ := .nil _
  groups := (List.append_nil _).symm
  members := .refl c

theorem ofInt?_opened (h : Says env es c c') : SigTypeUses.ofInt? c'.mTypeSig =
    (latest Entry.header? es).or (SigTypeUses.ofInt? c.mTypeSig) := by
  rw [h.opened]
  cases latest Entry.header? es with
  | none => rfl
  | some g => exact SigTypeUses.ofInt?_toNat g

/-- Entries after other ones. -/
theorem append (h : Says env es c c') (h' : Says env es' c' c'') : Says env (es ++ es') c c'' where
  host := by
    rw [h'.host, h.host, Latest.latest_append]
    cases latest Entry.host? es' <;> rfl
  number s := by rw [h'.number, h.number, Latest.latest_append, Option.or_assoc]
  opened := by
    rw [h'.opened, h.opened, Latest.latest_append]
    cases latest Entry.header? es' <;> rfl
  signals g := by
    rw [declaredIn_append, ← h.ofInt?_opened]
    exact (h.signals g).append (h'.signals g)
  groups := by
    rw [h'.groups, h.groups, declaredIn_append, h.ofInt?_opened, List.map_append,
      List.append_assoc]
  members := h.members.trans h'.members

end Says

/-! ## One line -/

/-- A line that adds no signal. -/
theorem Says.of_signals_eq {env : Env} {e : Entry} {c c' : Connector} (he : e.signal? = none)
    (hhost : c'.mPlcHost = (e.host?.map IpAddress.text).getD c.mPlcHost)
    (hnumber : ∀ s : Setting, s.number? c' = (e.number? s).or (s.number? c))
    (hopened : c'.mTypeSig = (e.header?.map fun g => (g.toNat : Int)).getD c.mTypeSig)
    (hsignals : ∀ g, c'.signals g = c.signals g) (hgroups : c'.maGrSignals = c.maGrSignals)
    (hmembers : SameMembers c c') : Says env [e] c c' := by
  have hdeclared : ∀ g t, declaredIn g t [e] = [] := fun g t => by simp [declaredIn, he]
  refine ⟨by rwa [Latest.latest_singleton], fun s => by rw [Latest.latest_singleton, hnumber],
    by rwa [Latest.latest_singleton], fun g => ?_, ?_, hmembers⟩
  · rw [hdeclared, hsignals]
    exact .nil _
  · rw [hdeclared, hgroups]
    exact (List.append_nil _).symm

theorem Setting.number?_write_other {s s' : Setting} (h : s' ≠ s) (c : Connector) (v : QString) :
    s.number? (s'.write c v) = s.number? c := by
  cases s' <;> cases s <;> first | rfl | exact absurd rfl h

/-- What the write of a setting keeps. -/
theorem Setting.write_frame (s : Setting) (c : Connector) (v : QString) :
    (s.write c v).mTypeSig = c.mTypeSig ∧ (s.write c v).maGrSignals = c.maGrSignals ∧
      SameMembers c (s.write c v) := by
  cases s <;> exact ⟨rfl, rfl, rfl, rfl, rfl, rfl⟩

theorem says_host (env : Env) (c : Connector) (ip : IpAddress) :
    Says env [.host ip] c (Setting.ip.write c ip.text) := by
  obtain ⟨htype, hgroups, hmembers⟩ := Setting.ip.write_frame c ip.text
  exact .of_signals_eq rfl rfl (fun s => by cases s <;> rfl) htype
    (Setting.ip.write_signals c ip.text) hgroups hmembers

theorem says_number {s : Setting} {w n : Nat} {v : QString} (hw : s.width = some w) (hn : n < 2 ^ w)
    (hv : Numeral.natural? v = some n) (env : Env) (c : Connector) :
    Says env [.number s n] c (s.write c v) := by
  obtain ⟨htype, hgroups, hmembers⟩ := s.write_frame c v
  refine .of_signals_eq rfl ?_ (fun s' => ?_) htype (s.write_signals c v) hgroups hmembers
  · cases s <;> first | rfl | cases hw
  · by_cases h : s = s'
    · have h32 : n < 2 ^ 32 := by
        cases s <;> cases hw <;> omega
      cases h
      rw [s.number?_write, hw, QString.number_of_natural? hv h32, Option.map_some,
        Nat.mod_eq_of_lt hn, Entry.number?, if_pos rfl, Option.some_or]
    · rw [Setting.number?_write_other h, Entry.number?, if_neg h, Option.none_or]

theorem says_header (env : Env) (c : Connector) (g : SigTypeUses) :
    Says env [.header g] c (openSection c (some g)) :=
  .of_signals_eq rfl rfl (fun s => by cases s <;> rfl) rfl (openSection_signals c (some g)) rfl
    ⟨rfl, rfl, rfl, rfl⟩

/-- The signal of a line is the one that is declared. -/
theorem isLoaded_signal {d : SigDecl FloatText} {hold qual : QString}
    (hhold : Numeral.natural? hold = some d.hold.toNat)
    (hqual : Numeral.natural? qual = some d.qual.toNat) (env : Env) (n : Nat) (g : Kind) :
    d.IsLoaded env n (Fields.signal env n ⟨d.name, hold, qual, d.sim.text⟩ g) g := by
  have hhold' := QString.toUInt_setWidth (by decide) hhold
  have hqual' := QString.toUInt_setWidth (by decide) hqual
  cases g with
  | ana =>
      rw [SigDecl.IsLoaded, Fields.signal, Fields.aSig, hhold', hqual']
      rfl
  | dis | int =>
      rw [SigDecl.IsLoaded, Fields.signal, Fields.dSig, hhold', hqual']
      exact ⟨_, rfl, fun v hv => QString.toLong_setWidth hv⟩

theorem says_signal {d : SigDecl FloatText} {hold qual : QString}
    (hhold : Numeral.natural? hold = some d.hold.toNat)
    (hqual : Numeral.natural? qual = some d.qual.toNat) (env : Env) (c : Connector) :
    Says env [.signal d] c (pushSignal env c ⟨d.name, hold, qual, d.sim.text⟩
      (SigTypeUses.ofInt? c.mTypeSig)) := by
  cases ht : SigTypeUses.ofInt? c.mTypeSig with
  | none =>
      refine ⟨rfl, fun s => rfl, rfl, fun g => ?_, ?_, .refl c⟩
      · rw [ht]
        exact .nil _
      · rw [ht]
        exact (List.append_nil _).symm
  | some t =>
      refine ⟨?_, fun s => ?_, ?_, fun g => ?_, ?_, ?_⟩
      · cases t <;> rfl
      · exact s.number?_pushSignal env c _ (some t)
      · exact pushSignal_mTypeSig env c _ t
      · rw [ht, pushSignal_signals]
        by_cases h : t = g.section
        · have hkind : t.kind? = some g := by
            rw [h]
            cases g <;> rfl
          have hdeclared : declaredIn g.section (some t) [.signal d] = [d] := by
            simp [declaredIn, Entry.signal?, h]
          rw [if_pos hkind, hdeclared]
          exact .cons (isLoaded_signal hhold hqual env _ g) (.nil _)
        · have hkind : t.kind? ≠ some g := by
            cases t <;> cases g <;> first | exact absurd rfl h | rintro ⟨⟩
          have hdeclared : declaredIn g.section (some t) [.signal d] = [] := by
            simp [declaredIn, h]
          rw [if_neg hkind, hdeclared, List.append_nil]
          exact .nil _
      · rw [ht]
        cases t <;> simp [pushSignal, declaredIn, Entry.signal?]
      · cases t <;> exact ⟨rfl, rfl, rfl, rfl⟩

/-- **One line.** -/
theorem readIniSection_says {e : Entry} {l : QString} (h : e.Text (l.removeChar ' ')) (env : Env)
    (c : Connector) : ∃ c', readIniSection env c l = .ok c' ∧ Says env [e] c c' := by
  generalize hb : l.removeChar ' ' = b at h
  cases h with
  | @host ip v hv =>
      have hmem : ∀ x ∈ v, x.isDigit = true ∨ x = '.' ∨ x = ',' := by
        intro x hx
        rcases Setting.mem_of_prepare (s := .ip) hv hx with rfl | hmem
        · exact Or.inr (Or.inr rfl)
        · exact (Config.mem_ip_text hmem).imp_right Or.inl
      have hprepare : Setting.ip.prepare v = ip.text := hv
      exact ⟨_, readIniSection_setting (not_isAlpha_of_value hmem) hb env c,
        hprepare ▸ says_host env c ip⟩
  | @number s w n v hw hn hv =>
      have hsigns : ['+', '-'].all (!Char.isAlpha ·) = true := rfl
      have halpha : ∀ x ∈ v, x.isAlpha = false := by
        intro x hx
        rcases Numeral.mem_natural? hv hx with hdigit | hsign
        · exact Numeral.not_isAlpha_of_isDigit hdigit
        · simpa using List.all_eq_true.mp hsigns x hsign
      have hprepare : s.prepare v = v := by cases s <;> first | rfl | cases hw
      exact ⟨_, readIniSection_setting halpha hb env c,
        hprepare.symm ▸ says_number hw hn hv env c⟩
  | @header g b hgood =>
      exact ⟨_, readIniSection_header hgood hb env c, says_header env c g⟩
  | @signal num hold qual d hnum hhold hqual =>
      exact ⟨_, readIniSection_signal hnum ⟨d.plain, (numberText_of_natural? hhold).plain,
        (numberText_of_natural? hqual).plain, d.sim.plain⟩ hb env c,
        says_signal hhold hqual env c⟩
  | comment hwords =>
      exact ⟨c, readIniSection_wordless (hb ▸ hwords) env c,
        .of_signals_eq rfl rfl (fun _ => rfl) rfl (fun _ => rfl) rfl (.refl c)⟩

/-! ## Files -/

/-- **The meaning of entries.**  The lines of entries are read, in any order and from any state, and
what is loaded is what the entries say. -/
theorem readLines_says (env : Env) (c : Connector) {lines : List QString} {es : List Entry}
    (h : List.Forall₂ (fun l e => Entry.Text e (QString.removeChar l ' ')) lines es) :
    ∃ c', readLines env c lines = .ok c' ∧ Says env es c c' := by
  induction h generalizing c with
  | nil => exact ⟨c, rfl, .refl env c⟩
  | cons hl _ ih =>
      obtain ⟨c₁, hc₁, hsays⟩ := readIniSection_says hl env c
      obtain ⟨c', hc', hrest⟩ := ih c₁
      refine ⟨c', ?_, hsays.append hrest⟩
      rw [readLines, List.foldlM_cons, hc₁]
      exact hc'

theorem plain_level : Plain "Level".toList := by constructor <;> decide

theorem plain_levelSim : Plain "1.5".toList := by constructor <;> decide

theorem plain_pump : Plain "Pump".toList := by constructor <;> decide

theorem plain_pumpSim : Plain "-7".toList := by constructor <;> decide

/-- A level and a pump as they are declared. -/
def sampleLevel : SigDecl FloatText :=
  ⟨"Level".toList, 5199, 5259, ⟨"1.5".toList, plain_levelSim⟩, plain_level⟩

def samplePump : SigDecl FloatText :=
  ⟨"Pump".toList, 5239, 5262, ⟨"-7".toList, plain_pumpSim⟩, plain_pump⟩

/-- A comment, a signal that no section is open for, and two ports. -/
theorem readLines_says_ports :
    ∃ c, readLines sampleEnv (.plain 0 0 0) (["; the station", "Port = 502",
        "Signal1 = Pump, 5239, 5262, -7", "[analog]", "Port=+503",
        "Signal1=Level,05199,5259,1.5", "[integer]", "Signal02=Pump,5239,5262,-7",
        "Host_IP = 10,0.0,1"].map String.toList) = .ok c ∧
      Says sampleEnv [.comment, .number .port 502, .signal samplePump, .header .sAna,
        .number .port 503, .signal sampleLevel, .header .sInt, .signal samplePump,
        .host ⟨10, 0, 0, 1⟩] (.plain 0 0 0) c := by
  have hfirst : Entry.Text (.number .port 502) (QString.removeChar "Port = 502".toList ' ') :=
    .number (v := "502".toList) rfl (by decide) (by decide)
  have hsecond : Entry.Text (.number .port 503) (QString.removeChar "Port=+503".toList ' ') :=
    .number (v := "+503".toList) rfl (by decide) (by decide)
  have hpump : Entry.Text (.signal samplePump)
      (QString.removeChar "Signal1 = Pump, 5239, 5262, -7".toList ' ') :=
    @Entry.Text.signal "1".toList "5239".toList "5262".toList _
      ⟨by decide, by decide, List.all_eq_true.mp rfl⟩ (by decide) (by decide)
  have hlevel : Entry.Text (.signal sampleLevel)
      (QString.removeChar "Signal1=Level,05199,5259,1.5".toList ' ') :=
    @Entry.Text.signal "1".toList "05199".toList "5259".toList _
      ⟨by decide, by decide, List.all_eq_true.mp rfl⟩ (by decide) (by decide)
  have hpump' : Entry.Text (.signal samplePump)
      (QString.removeChar "Signal02=Pump,5239,5262,-7".toList ' ') :=
    @Entry.Text.signal "02".toList "5239".toList "5262".toList _
      ⟨by decide, by decide, List.all_eq_true.mp rfl⟩ (by decide) (by decide)
  have hhost : Entry.Text (.host ⟨10, 0, 0, 1⟩)
      (QString.removeChar "Host_IP = 10,0.0,1".toList ' ') :=
    .host (v := "10,0.0,1".toList) (by decide)
  exact readLines_says sampleEnv (.plain 0 0 0) (.cons (.comment (by decide)) (.cons hfirst
    (.cons hpump (.cons (.header (goodHeader_brackets .sAna)) (.cons hsecond (.cons hlevel
      (.cons (.header (goodHeader_brackets .sInt)) (.cons hpump' (.cons hhost .nil)))))))))

end GateRasu
