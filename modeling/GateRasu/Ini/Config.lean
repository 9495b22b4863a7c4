import GateRasu.Ini.Line

/-!
# Configurations and their text

What an ini file is meant to say, and how it is written.  A configuration is the eight
settings and four lists of signals.  A file is a list of items: lines of settings,
headers of sections and lines of signals.  `Renders` says that a list of lines is a
text of a configuration.  The settings stand anywhere and in any order, the sections in
any order, and blanks anywhere.

A name or a value is `Plain`: it has none of the words and separators of the format.
-/

namespace GateRasu

/-! ## Configurations -/

/-- A text without the words and the separators of the format. -/
structure Plain (s : QString) : Prop where
  word : ∀ w ∈ keywords, s.contains w = false
  blank : ' ' ∉ s
  comma : ',' ∉ s
  equal : '=' ∉ s

/-- A signal as the file declares it, with a simulation value of type `α`. -/
structure SigDecl (α : Type) where
  name : QString
  hold : BitVec 16
  qual : BitVec 16
  sim : α
  plain : Plain name

/-- An analog signal as it is loaded into the memory `g`. -/
def loadedAna (g : Garbage) (name : QString) (hold qual : BitVec 16) (sim : BitVec 32) :
    WSSignal where
  sigType := -1
  sigName := name
  sigHoldW := hold
  sigQualW := qual
  sigAValue := 0
  sigDValue := g.sigDValue
  sigINTValue := g.sigINTValue
  sigQualValue := 0
  sigSimA := sim
  sigSimD := g.sigSimD
  sigSimInt := g.sigSimInt

/-- A discrete or integer signal as it is loaded. -/
def loadedInt (name : QString) (hold qual : BitVec 16) (sim : BitVec 32) : WSSignal where
  sigType := -1
  sigName := name
  sigHoldW := hold
  sigQualW := qual
  sigAValue := 0
  sigDValue := 0
  sigINTValue := 0
  sigQualValue := 0
  sigSimA := 0
  sigSimD := sim
  sigSimInt := sim

/-- The text of a number that is not an integer. -/
structure FloatText where
  text : QString
  plain : Plain text

/-- An IPv4 address. -/
structure IpAddress where
  a : BitVec 8
  b : BitVec 8
  c : BitVec 8
  d : BitVec 8

/-- The address with dots. -/
def IpAddress.text (ip : IpAddress) : QString :=
  Numeral.numeral ip.a.toNat ++ '.' :: (Numeral.numeral ip.b.toNat ++ '.' ::
    (Numeral.numeral ip.c.toNat ++ '.' :: Numeral.numeral ip.d.toNat))

/-- What an ini file says. -/
structure Config where
  ip : IpAddress
  port : BitVec 16
  serverAdr : BitVec 8
  firstRegstr : BitVec 16
  numHldRegstr : BitVec 16
  firstQualRegstr : BitVec 16
  respTime : BitVec 16
  numOfRetr : BitVec 8
  ana : List (SigDecl FloatText)
  dis : List (SigDecl (BitVec 32))
  int : List (SigDecl (BitVec 32))
  grp : List (SigDecl FloatText)

/-- The value of a setting as it is written. -/
def Config.value (cfg : Config) : Setting → QString
  | .ip => cfg.ip.text
  | .port => Numeral.numeral cfg.port.toNat
  | .serverAdr => Numeral.numeral cfg.serverAdr.toNat
  | .firstRegstr => Numeral.numeral cfg.firstRegstr.toNat
  | .numHldRegstr => Numeral.numeral cfg.numHldRegstr.toNat
  | .firstQualRegstr => Numeral.numeral cfg.firstQualRegstr.toNat
  | .respTime => Numeral.numeral cfg.respTime.toNat
  | .numOfRetr => Numeral.numeral cfg.numOfRetr.toNat

/-- The fields of a signal as they are written. -/
def SigDecl.fields {α : Type} (simText : α → QString) (s : SigDecl α) : Fields where
  name := s.name
  hold := Numeral.numeral s.hold.toNat
  qual := Numeral.numeral s.qual.toNat
  sim := simText s.sim

/-- An `int32_t` as it is written. -/
def int32Text (v : BitVec 32) : QString := Numeral.intNumeral v.toInt

/-- The signals of a section as they are written. -/
def Config.sectionFields (cfg : Config) : SigTypeUses → List Fields
  | .sAna => cfg.ana.map (SigDecl.fields FloatText.text)
  | .sDis => cfg.dis.map (SigDecl.fields int32Text)
  | .sInt => cfg.int.map (SigDecl.fields int32Text)
  | .sGroup => cfg.grp.map (SigDecl.fields FloatText.text)

/-! ## Items -/

/-- The fields of a signal with commas between them. -/
def Fields.text (f : Fields) : QString :=
  f.name ++ ',' :: (f.hold ++ ',' :: (f.qual ++ ',' :: f.sim))

/-- A line of an ini file. -/
inductive Item where
  /-- The line of a setting, with its value. -/
  | setting : Setting → QString → Item
  /-- The header of a section. -/
  | header : SigTypeUses → QString → Item
  /-- The line of a signal, with its number. -/
  | signal : QString → Fields → Item

namespace Item

/-- The line without its blanks. -/
def text : Item → QString
  | setting s v => s.title ++ '=' :: v
  | header _ h => h
  | signal num f => defaultSignalTitle ++ (num ++ '=' :: f.text)

/-- The header of a section has its word and no other. -/
structure GoodHeader (g : SigTypeUses) (h : QString) : Prop where
  word : h.contains g.word = true
  other : ∀ g' : SigTypeUses, g' ≠ g → h.contains g'.word = false
  title : ∀ s : Setting, h.contains s.title = false
  signal : h.contains defaultSignalTitle = false

/-- One to three digits. -/
structure GoodNumber (num : QString) : Prop where
  pos : 1 ≤ num.length
  le : num.length ≤ 3
  digit : ∀ c ∈ num, c.isDigit = true

structure GoodFields (f : Fields) : Prop where
  name : Plain f.name
  hold : Plain f.hold
  qual : Plain f.qual
  sim : Plain f.sim

/-- The lines the reader is meant for. -/
def Good : Item → Prop
  | setting _ v => ∀ c ∈ v, c.isDigit = true ∨ c = '.' ∨ c = ','
  | header g h => GoodHeader g h
  | signal num f => GoodNumber num ∧ GoodFields f

/-- The line of a setting. -/
def isSetting : Item → Bool
  | setting _ _ => true
  | header _ _ => false
  | signal _ _ => false

/-- The section of a type with its signals. -/
def IsSection (g : SigTypeUses) (fs : List Fields) (items : List Item) : Prop :=
  ∃ h sigs, items = header g h :: sigs ∧ GoodHeader g h ∧
    List.Forall₂ (fun i f => ∃ num, GoodNumber num ∧ i = signal num f) sigs fs

end Item

/-- The items of a configuration, in some order. -/
structure Config.Items (cfg : Config) (items : List Item) : Prop where
  /-- One line for each setting, with commas for dots at will. -/
  settings : ∃ v : Setting → QString, (∀ s, s.prepare (v s) = cfg.value s) ∧
    (items.filter Item.isSetting).Perm (Setting.all.map fun s => Item.setting s (v s))
  /-- One section for each type. -/
  sections : ∃ order secs, order.Perm [SigTypeUses.sAna, .sDis, .sInt, .sGroup] ∧
    List.Forall₂ (fun g => Item.IsSection g (cfg.sectionFields g)) order secs ∧
    (items.filter fun i => !i.isSetting) = secs.flatten

/-- The lines are a text of the configuration. -/
def Config.Renders (cfg : Config) (lines : List QString) : Prop :=
  ∃ items, cfg.Items items ∧ List.Forall₂ (fun l i => QString.removeChar l ' ' = i.text) lines items

end GateRasu
