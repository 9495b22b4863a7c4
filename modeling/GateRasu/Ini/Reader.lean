import GateRasu.Connector

/-!
# Reading the ini file

`readSignalsFile` hands the lines of the file one by one to `readIniSection`.  A line
runs through eight tests, one for each setting, and a test that succeeds edits the
line for the tests that follow.  Then `FindTypeSignal` looks for the type words of the
sections, and a line with the word `Signal` goes to `PrepareDiffSigLists`.

`t.at(i)` is a checked access.  `Env` is what the code takes from elsewhere: the
conversion of a text to a `float`, and the memory a new object finds.
-/

namespace GateRasu

open Checked (OutOfRange)

/-- What the reader takes from elsewhere. -/
structure Env where
  /-- `QString::toFloat`, as a bit pattern. -/
  toFloat : QString → BitVec 32
  /-- What the memory of the analog signal with this number holds before its constructor. -/
  fresh : Nat → Garbage

/-! ## Titles -/

def defaultSignalTitle : QString := "Signal".toList
def defaultIpTitle : QString := "Host_IP".toList
def defaultPortTitle : QString := "Port".toList
def defaultServerAdrTitle : QString := "Server_adress".toList
def default1stRegstrTitle : QString := "1st_rgstr".toList
def defaultNumHldRegstrTitle : QString := "Num_rgstr".toList
def default1stQualRegstrTitle : QString := "1st_qual_rgstr".toList
def defaultRespTimeTitle : QString := "Resposnse_time".toList
def defaultNumOfRetrTitle : QString := "Num_of_retries".toList

/-- `ma_typeSig`, the type words of the sections. -/
def maTypeSig : List QString :=
  ["analog".toList, "discrete".toList, "integer".toList, "group".toList]

/-- `sig_type_uses`. -/
inductive SigTypeUses where
  | sAna
  | sDis
  | sInt
  | sGroup
deriving DecidableEq, Repr

namespace SigTypeUses

/-- The number of a type, its index in `maTypeSig`. -/
def toNat : SigTypeUses → Nat
  | sAna => 0
  | sDis => 1
  | sInt => 2
  | sGroup => 3

/-- The type with a number. -/
def ofInt? (z : Int) : Option SigTypeUses :=
  if z = 0 then some sAna
  else if z = 1 then some sDis
  else if z = 2 then some sInt
  else if z = 3 then some sGroup
  else none

@[simp] theorem ofInt?_toNat (g : SigTypeUses) : ofInt? g.toNat = some g := by
  cases g <;> rfl

theorem ofInt?_eq_some {z : Int} {g : SigTypeUses} (h : ofInt? z = some g) : z = g.toNat := by
  unfold ofInt? at h
  split at h
  · cases h
    assumption
  split at h
  · cases h
    assumption
  split at h
  · cases h
    assumption
  split at h
  · cases h
    assumption
  · cases h

end SigTypeUses

/-! ## Settings -/

/-- The eight settings, in the order of their tests. -/
inductive Setting where
  | ip
  | port
  | serverAdr
  | firstRegstr
  | numHldRegstr
  | firstQualRegstr
  | respTime
  | numOfRetr
deriving DecidableEq, Repr

namespace Setting

def all : List Setting :=
  [ip, port, serverAdr, firstRegstr, numHldRegstr, firstQualRegstr, respTime, numOfRetr]

def title : Setting → QString
  | ip => defaultIpTitle
  | port => defaultPortTitle
  | serverAdr => defaultServerAdrTitle
  | firstRegstr => default1stRegstrTitle
  | numHldRegstr => defaultNumHldRegstrTitle
  | firstQualRegstr => default1stQualRegstrTitle
  | respTime => defaultRespTimeTitle
  | numOfRetr => defaultNumOfRetrTitle

/-- What a test does to the line before it removes the title. -/
def prepare : Setting → QString → QString
  | ip, bufstr => bufstr.replace ',' '.'
  | _, bufstr => bufstr

/-- The assignment of a test, from the line without the title. -/
def write (c : Connector) (v : QString) : Setting → Connector
  | ip => { c with mPlcHost := v }
  | port => { c with mPlcPort := v.toUInt.setWidth 16 }
  | serverAdr => { c with mServerAdr := (v.toUInt.setWidth 8).setWidth 16 }
  | firstRegstr => { c with mStartReg := v.toUInt.setWidth 16 }
  | numHldRegstr => { c with mNumHoldRegs := v.toUInt.setWidth 16 }
  | firstQualRegstr => { c with mStartQualReg := v.toUInt.setWidth 16 }
  | respTime => { c with mResponseTime := v.toUInt.setWidth 16 }
  | numOfRetr => { c with mNumOfRetries := v.toUInt.setWidth 8 }

/-- The line after the test of a setting. -/
def edit (s : Setting) (bufstr : QString) : QString :=
  (s.prepare bufstr).remove (s.title ++ ['='])

/-- The test of a setting. -/
def read (st : Connector × QString) (s : Setting) : Connector × QString :=
  if st.2.contains s.title then
    (s.write st.1 (s.edit st.2), s.edit st.2)
  else st

end Setting

/-- The eight tests of `readIniSection`. -/
def readSettings (c : Connector) (bufstr : QString) : Connector × QString :=
  Setting.all.foldl Setting.read (c, bufstr)

/-! ## Signals -/

/-- `PLC_connector::FindTypeSignal`. -/
def findTypeSignal (c : Connector) (bufstr : QString) : Connector :=
  maTypeSig.foldl (fun c ma =>
    if bufstr.contains ma then { c with mTypeSig := maTypeSig.idxOf ma } else c) c

/-- The length of the match of `Signal[0-9]{1,3}\=` at the head of a text. -/
def matchSignal (s : QString) : Nat :=
  if defaultSignalTitle.isPrefixOf s then
    let t := s.drop defaultSignalTitle.length
    let n := (t.takeWhile Char.isDigit).length
    if 1 ≤ n ∧ n ≤ 3 ∧ t[n]? = some '=' then defaultSignalTitle.length + n + 1 else 0
  else 0

/-- The list `t` of `PrepareDiffSigLists`. -/
def splitSignal (bufstr : QString) : List QString :=
  QString.split (Text.removeMatches matchSignal 0 (bufstr.removeChar ' ')) ','

/-- The fields `t.at(0)` to `t.at(3)`. -/
structure Fields where
  name : QString
  hold : QString
  qual : QString
  sim : QString

def atFields (t : List QString) : Except OutOfRange Fields := do
  let name ← Checked.get t 0
  let hold ← Checked.get t 1
  let qual ← Checked.get t 2
  let sim ← Checked.get t 3
  return ⟨name, hold, qual, sim⟩

namespace Fields

/-- The analog signal of a line. -/
def aSig (env : Env) (n : Nat) (f : Fields) : WSSignal :=
  .ofFloat (env.fresh n) (-1) f.name (f.hold.toUInt.setWidth 16) (f.qual.toUInt.setWidth 16)
    (env.toFloat f.sim)

/-- The discrete or integer signal of a line. -/
def dSig (f : Fields) : WSSignal :=
  .ofInt (-1) f.name (f.hold.toUInt.setWidth 16) (f.qual.toUInt.setWidth 16)
    (f.sim.toLong.setWidth 32)

end Fields

/-- `PLC_connector::PrepareDiffSigLists`. -/
def prepareDiffSigLists (env : Env) (c : Connector) (typeSig : Int) (bufstr : QString) :
    Except OutOfRange Connector :=
  let t := splitSignal bufstr
  match SigTypeUses.ofInt? typeSig with
  | some .sAna => do
      let f ← atFields t
      return { c with maASignals := c.maASignals ++ [f.aSig env c.maASignals.length] }
  | some .sDis => do
      let f ← atFields t
      return { c with maDSignals := c.maDSignals ++ [f.dSig] }
  | some .sInt => do
      let f ← atFields t
      return { c with maIntSignals := c.maIntSignals ++ [f.dSig] }
  | some .sGroup => return { c with maGrSignals := c.maGrSignals ++ [{}] }
  | none => return c

/-! ## Lines and files -/

/-- The test for a signal line, at the end of `readIniSection`. -/
def readSignal (env : Env) (c : Connector) (bufstr : QString) : Except OutOfRange Connector :=
  if bufstr.contains defaultSignalTitle then
    if 0 ≤ c.mTypeSig then prepareDiffSigLists env c c.mTypeSig bufstr else return c
  else return c

/-- `PLC_connector::readIniSection`. -/
def readIniSection (env : Env) (c : Connector) (bufstr : QString) : Except OutOfRange Connector :=
  let (c, bufstr) := readSettings c (bufstr.remove [' '])
  let c := findTypeSignal c bufstr
  readSignal env c bufstr

/-- The loop of `readSignalsFile` over the lines of a file. -/
def readLines (env : Env) (c : Connector) (lines : List QString) : Except OutOfRange Connector :=
  lines.foldlM (readIniSection env) c

/-- What the operating system makes of the ini file. -/
inductive IniFile where
  /-- It cannot be opened. -/
  | notOpened
  /-- It is opened, and the stream fails after these lines. -/
  | failed : List QString → IniFile
  /-- It is opened and read to its end. -/
  | complete : List QString → IniFile

/-- The return code of `readSignalsFile`. -/
inductive ReadRet where
  | failure
  | success
deriving DecidableEq, Repr

/-- `PLC_connector::readSignalsFile`. -/
def readSignalsFile (env : Env) (c : Connector) (sigFileName : QString) (f : IniFile) :
    Except OutOfRange (Connector × ReadRet) :=
  if sigFileName ≠ [] then
    match f with
    | .notOpened => return (c, .success)
    | .failed lines => do
        let c ← readLines env c lines
        return (c, .failure)
    | .complete lines => do
        let c ← readLines env c lines
        return (c, .success)
  else return (c, .failure)

end GateRasu
