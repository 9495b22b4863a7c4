import GateRasu.Ini.Item

/-!
# The numbers of an ini file

Every number goes through `toUInt` and a cast.  `toUInt` makes `0` of a text that is no
numeral below `2 ^ 32`, and the cast reduces what is left to its width (`Setting.width`).
Neither is checked, so a number that does not fit is stored reduced
(`numbers_reduced`).
-/

namespace GateRasu

namespace Setting

/-- The number of a setting.  The host has none. -/
def number? (c : Connector) : Setting → Option Nat
  | ip => none
  | port => some c.mPlcPort.toNat
  | serverAdr => some c.mServerAdr.toNat
  | firstRegstr => some c.mStartReg.toNat
  | numHldRegstr => some c.mNumHoldRegs.toNat
  | firstQualRegstr => some c.mStartQualReg.toNat
  | respTime => some c.mResponseTime.toNat
  | numOfRetr => some c.mNumOfRetries.toNat

/-- The width of the cast of a setting. -/
def width : Setting → Option Nat
  | ip => none
  | port => some 16
  | serverAdr => some 8
  | firstRegstr => some 16
  | numHldRegstr => some 16
  | firstQualRegstr => some 16
  | respTime => some 16
  | numOfRetr => some 8

theorem number?_write (s : Setting) (c : Connector) (v : QString) :
    s.number? (s.write c v) = s.width.map fun w => QString.number v % 2 ^ w := by
  rw [← QString.toUInt_toNat]
  cases s with
  | ip => rfl
  | port | firstRegstr | numHldRegstr | firstQualRegstr | respTime | numOfRetr =>
      exact congrArg some (BitVec.toNat_setWidth ..)
  | serverAdr =>
      have hbyte : ((v.toUInt.setWidth 8).setWidth 16).toNat = v.toUInt.toNat % 2 ^ 8 := by
        rw [BitVec.toNat_setWidth, BitVec.toNat_setWidth]
        omega
      exact congrArg some hbyte

theorem number?_pushSignal (s : Setting) (env : Env) (c : Connector) (f : Fields)
    (g : Option SigTypeUses) : s.number? (pushSignal env c f g) = s.number? c := by
  cases g with
  | none => rfl
  | some g => cases g <;> rfl

end Setting

/-! ## Signals -/

/-- What a line adds to the list of a kind: nothing, or one signal with the numbers of the
second and the third field of the line, reduced. -/
def AddsReduced (b : QString) (before after : List WSSignal) : Prop :=
  after = before ∨ ∃ s hold qual, after = before ++ [s] ∧
    (splitSignal b)[1]? = some hold ∧ (splitSignal b)[2]? = some qual ∧
    s.sigHoldW.toNat = QString.number hold % 2 ^ 16 ∧
    s.sigQualW.toNat = QString.number qual % 2 ^ 16

theorem sigHoldW_signal (env : Env) (n : Nat) (f : Fields) (g : Kind) :
    (f.signal env n g).sigHoldW.toNat = QString.number f.hold % 2 ^ 16 := by
  rw [← QString.toUInt_toNat, ← BitVec.toNat_setWidth]
  cases g <;> rfl

theorem sigQualW_signal (env : Env) (n : Nat) (f : Fields) (g : Kind) :
    (f.signal env n g).sigQualW.toNat = QString.number f.qual % 2 ^ 16 := by
  rw [← QString.toUInt_toNat, ← BitVec.toNat_setWidth]
  cases g <;> rfl

theorem fieldsFor_kind {b : QString} {t : SigTypeUses} {g : Kind} (h : t.kind? = some g) :
    fieldsFor b (some t) = atFields (splitSignal b) := by
  cases t with
  | sAna | sDis | sInt => rfl
  | sGroup => cases h

theorem prepareDiffSigLists_reduced {env : Env} {c c' : Connector} {typeSig : Int} {b : QString}
    (h : prepareDiffSigLists env c typeSig b = .ok c') (g : Kind) :
    AddsReduced b (c.signals g) (c'.signals g) := by
  rw [prepareDiffSigLists_eq] at h
  cases hf : fieldsFor b (SigTypeUses.ofInt? typeSig) with
  | error e =>
      rw [hf] at h
      cases h
  | ok f =>
      rw [hf] at h
      cases h
      cases ht : SigTypeUses.ofInt? typeSig with
      | none => exact Or.inl rfl
      | some t =>
          rw [pushSignal_signals]
          by_cases hkind : t.kind? = some g
          · rw [ht, fieldsFor_kind hkind] at hf
            obtain ⟨rest, hsplit⟩ := atFields_eq_ok.mp hf
            rw [if_pos hkind]
            refine Or.inr ⟨_, f.hold, f.qual, rfl, ?_, ?_, sigHoldW_signal env _ f g,
              sigQualW_signal env _ f g⟩
            · rw [hsplit]
              rfl
            · rw [hsplit]
              rfl
          · rw [if_neg hkind, List.append_nil]
            exact Or.inl rfl

/-! ## Settings -/

/-- A line of a numeric setting stores the number of its value, reduced, and is read at least
when the value does not have `Signal`. -/
def SettingReduced (env : Env) (c : Connector) (s : Setting) (v l : QString) : Prop :=
  (v.contains defaultSignalTitle = false → ∃ c', readIniSection env c l = .ok c') ∧
    ∀ c', readIniSection env c l = .ok c' →
      s.number? c' = s.width.map fun w => QString.number v % 2 ^ w

theorem readIniSection_reduced {s : Setting} {v l : QString} (hs : s ≠ .ip)
    (hv : ∀ w ∈ keywords, v.contains w = false) (hl : l.removeChar ' ' = s.title ++ '=' :: v)
    (env : Env) (c : Connector) : SettingReduced env c s v l := by
  have hprepare : s.prepare v = v := by
    cases s with
    | ip => exact absurd rfl hs
    | port | serverAdr | firstRegstr | numHldRegstr | firstQualRegstr | respTime | numOfRetr => rfl
  have hline := readIniSection_title hv hl env c
  rw [hprepare] at hline
  refine ⟨fun hsignal => ⟨_, hline.trans (readSignal_none hsignal env _)⟩, fun c' h => ?_⟩
  rw [hline] at h
  obtain ⟨f, g, rfl⟩ := readSignal_cases h
  rw [s.number?_pushSignal, s.number?_write]

/-- **Numbers are reduced.**  The line of a numeric setting stores the number of its value
modulo the width of the cast, and a line of a signal stores the numbers of its second and
third field modulo `2 ^ 16`. -/
theorem numbers_reduced (env : Env) (c : Connector) :
    (∀ (s : Setting) (v l : QString), s ≠ .ip → (∀ w ∈ keywords, v.contains w = false) →
      l.removeChar ' ' = s.title ++ '=' :: v → SettingReduced env c s v l) ∧
    ∀ (t : Int) (b : QString) (c' : Connector) (g : Kind),
      prepareDiffSigLists env c t b = .ok c' → AddsReduced b (c.signals g) (c'.signals g) :=
  ⟨fun _ _ _ hs hv hl => readIniSection_reduced hs hv hl env c,
    fun _ _ _ g h => prepareDiffSigLists_reduced h g⟩

/-- A port and a holding register beyond `2 ^ 16`. -/
theorem numbers_reduced_beyond :
    SettingReduced ⟨fun _ => 0, fun _ => ⟨0, 0, 0, 0⟩⟩ (.new [] ⟨0, 0, 0⟩) .port "70000".toList
        "Port = 70000".toList ∧
      AddsReduced "Signal1=Level,70000,1,1".toList []
        [.ofFloat ⟨0, 0, 0, 0⟩ (-1) "Level".toList 4464 1 0] :=
  ⟨(numbers_reduced _ _).1 .port _ _ (by decide) (by decide) (by decide),
    (numbers_reduced ⟨fun _ => 0, fun _ => ⟨0, 0, 0, 0⟩⟩ (.new [] ⟨0, 0, 0⟩)).2 0
      "Signal1=Level,70000,1,1".toList
      { Connector.new [] ⟨0, 0, 0⟩ with
        maASignals := [.ofFloat ⟨0, 0, 0, 0⟩ (-1) "Level".toList 4464 1 0] } .ana rfl⟩

/-- The port `70000` is neither stored nor ignored. -/
theorem port_not_kept :
    ∃ c', readIniSection ⟨fun _ => 0, fun _ => ⟨0, 0, 0, 0⟩⟩ (.new [] ⟨0, 0, 0⟩)
        "Port=70000".toList = .ok c' ∧
      Numeral.decimal? "70000".toList = some 70000 ∧ Setting.port.number? c' ≠ some 70000 ∧
      Setting.port.number? c' ≠ Setting.port.number? (.new [] ⟨0, 0, 0⟩) :=
  ⟨_, rfl, by decide, by decide, by decide⟩

end GateRasu
