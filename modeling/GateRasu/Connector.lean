import GateRasu.Lib.Checked
import GateRasu.Signal

/-!
# The connector

The members of `PLC_connector` that its functions read and write.  The settings
have the values of their initialisers.  `mTypeSig`, `mAllSigNum` and `mSumQualReg`
have none, so a new connector takes them as they come (`Uninit`).

The three vectors of signals are indexed by `Kind`.  `mapSignals` changes every
signal by a function of its kind and index, and every write of the decoder is of
this form (`modifySignal_ok`).
-/

namespace GateRasu

open Checked (OutOfRange)

/-! ## State -/

/-- `PLC_connector`. -/
structure Connector where
  /-- The mode, the first argument of the program. -/
  mParams : QString
  /-- The type of the signals being read, an index of `maTypeSig`. -/
  mTypeSig : Int
  /-- The number of all signals. -/
  mAllSigNum : BitVec 32
  /-- The number of quality registers. -/
  mSumQualReg : BitVec 16
  maASignals : List WSSignal := []
  maDSignals : List WSSignal := []
  maIntSignals : List WSSignal := []
  maGrSignals : List WSGrSignal := []
  /-- The staging vector of analog words. -/
  maAIntValue : List (BitVec 16) := []
  mNumHoldRegs : BitVec 16 := 66
  mStartReg : BitVec 16 := 5199
  mStartQualReg : BitVec 16 := 5259
  mPlcPort : BitVec 16 := 502
  mPlcHost : QString := "192.168.1.233".toList
  mServerAdr : BitVec 16 := 1
  mResponseTime : BitVec 16 := 500
  mNumOfRetries : BitVec 8 := 3
deriving DecidableEq, Repr

/-- The members without an initial value. -/
structure Uninit where
  mTypeSig : Int
  mAllSigNum : BitVec 32
  mSumQualReg : BitVec 16

/-- A new connector. -/
def Connector.new (params : QString) (u : Uninit) : Connector where
  mParams := params
  mTypeSig := u.mTypeSig
  mAllSigNum := u.mAllSigNum
  mSumQualReg := u.mSumQualReg

/-- A connector with the initial settings and `na` analog, `nd` discrete and `nint`
integer signals as a constructor leaves them. -/
def Connector.plain (na nd nint : Nat) : Connector :=
  let s := WSSignal.ofInt 255 [] 0 0 0
  { Connector.new [] ⟨0, 0, 0⟩ with
    maASignals := List.replicate na s
    maDSignals := List.replicate nd s
    maIntSignals := List.replicate nint s }

/-- The number of registers of analog values. -/
def mSumAReg : Nat := 40

/-- The number of registers of discrete values. -/
def mSumDReg : Nat := 10

/-- The number of registers of integer values. -/
def mSumIntReg : Nat := 10

namespace Connector

/-- The vector of the signals of a kind. -/
def signals (c : Connector) : Kind → List WSSignal
  | .ana => c.maASignals
  | .dis => c.maDSignals
  | .int => c.maIntSignals

/-- `m_start_qual_reg - m_start_reg`, an `int`. -/
def qualOffset (c : Connector) : Int := (c.mStartQualReg.toNat : Int) - c.mStartReg.toNat

/-- Change every signal by a function of its kind and index. -/
def mapSignals (c : Connector) (φ : Kind → Nat → WSSignal → WSSignal) : Connector :=
  { c with
    maASignals := c.maASignals.mapIdx (φ .ana)
    maDSignals := c.maDSignals.mapIdx (φ .dis)
    maIntSignals := c.maIntSignals.mapIdx (φ .int) }

/-- Replace the vector of the signals of a kind. -/
def setSignals (c : Connector) (l : List WSSignal) : Kind → Connector
  | .ana => { c with maASignals := l }
  | .dis => { c with maDSignals := l }
  | .int => { c with maIntSignals := l }

/-- Change the signal of a kind at a signed index. -/
def modifySignal (c : Connector) (g : Kind) (i : Int) (f : WSSignal → WSSignal) :
    Except OutOfRange Connector := do
  let l ← Checked.modify (c.signals g) i f
  return c.setSignals l g

/-- Append a word to the staging vector. -/
def stage (c : Connector) (v : BitVec 16) : Connector :=
  { c with maAIntValue := c.maAIntValue ++ [v] }

/-! ## Pointwise changes -/

@[simp] theorem mapSignals_mNumHoldRegs (c : Connector) (φ) :
    (c.mapSignals φ).mNumHoldRegs = c.mNumHoldRegs := rfl

@[simp] theorem mapSignals_qualOffset (c : Connector) (φ) :
    (c.mapSignals φ).qualOffset = c.qualOffset := rfl

@[simp] theorem mapSignals_maAIntValue (c : Connector) (φ) :
    (c.mapSignals φ).maAIntValue = c.maAIntValue := rfl

theorem mapSignals_signals (c : Connector) (φ) (g : Kind) :
    (c.mapSignals φ).signals g = (c.signals g).mapIdx (φ g) := by
  cases g <;> rfl

@[simp] theorem mapSignals_length (c : Connector) (φ) (g : Kind) :
    ((c.mapSignals φ).signals g).length = (c.signals g).length := by
  rw [mapSignals_signals, List.length_mapIdx]

@[simp] theorem mapSignals_getElem? (c : Connector) (φ) (g : Kind) (k : Nat) :
    ((c.mapSignals φ).signals g)[k]? = ((c.signals g)[k]?).map (φ g k) := by
  rw [mapSignals_signals, List.getElem?_mapIdx]

@[simp] theorem mapSignals_mapSignals (c : Connector) (φ ψ : Kind → Nat → WSSignal → WSSignal) :
    (c.mapSignals φ).mapSignals ψ = c.mapSignals fun g k s => ψ g k (φ g k s) := by
  simp [mapSignals, List.mapIdx_mapIdx, Function.comp_def]

theorem mapSignals_id (c : Connector) : (c.mapSignals fun _ _ s => s) = c := by
  simp only [mapSignals, Checked.mapIdx_id]

/-- Two changes that agree on the signals there are. -/
theorem mapSignals_congr {c : Connector} {φ ψ : Kind → Nat → WSSignal → WSSignal}
    (h : ∀ g k s, k < (c.signals g).length → φ g k s = ψ g k s) :
    c.mapSignals φ = c.mapSignals ψ := by
  have hl : ∀ g, (c.signals g).mapIdx (φ g) = (c.signals g).mapIdx (ψ g) := by
    intro g
    refine List.ext_getElem (by simp) fun i hi _ => ?_
    rw [List.getElem_mapIdx, List.getElem_mapIdx]
    exact h g i _ (by simpa using hi)
  have ha := hl .ana
  have hd := hl .dis
  have hi := hl .int
  simp only [signals] at ha hd hi
  simp only [mapSignals, ha, hd, hi]

/-- The change of one signal. -/
def onSignal (g : Kind) (i : Nat) (f : WSSignal → WSSignal) : Kind → Nat → WSSignal → WSSignal :=
  fun g' k s => if g' = g ∧ k = i then f s else s

theorem onSignal_same (g : Kind) (i : Nat) (f : WSSignal → WSSignal) :
    onSignal g i f g = fun k s => if k = i then f s else s := by
  funext k s
  simp [onSignal]

theorem onSignal_other {g g' : Kind} (h : g' ≠ g) (i : Nat) (f : WSSignal → WSSignal) :
    onSignal g i f g' = fun _ s => s := by
  funext k s
  simp [onSignal, h]

/-- A write in range changes the one signal it names. -/
theorem modifySignal_ok {c : Connector} {g : Kind} {i : Int} (f : WSSignal → WSSignal)
    (h0 : 0 ≤ i) (h : i < (c.signals g).length) :
    c.modifySignal g i f = .ok (c.mapSignals (onSignal g i.toNat f)) := by
  have hset : c.setSignals ((c.signals g).mapIdx (onSignal g i.toNat f g)) g =
      c.mapSignals (onSignal g i.toNat f) := by
    cases g <;> simp [mapSignals, setSignals, signals, onSignal_other, Checked.mapIdx_id]
  rw [modifySignal, Checked.modify_of_lt f h0 h, Checked.modify_eq_mapIdx, ← hset, onSignal_same]
  rfl

/-- A write guarded by the size of the vector. -/
theorem guarded_modifySignal {c : Connector} {g : Kind} {i : Int} (f : WSSignal → WSSignal)
    (h0 : 0 ≤ i) :
    (if i < (c.signals g).length then c.modifySignal g i f else .ok c) =
      .ok (c.mapSignals (onSignal g i.toNat f)) := by
  by_cases h : i < (c.signals g).length
  · rw [if_pos h, modifySignal_ok f h0 h]
  · rw [if_neg h]
    have hid : c.mapSignals (onSignal g i.toNat f) = c.mapSignals fun _ _ s => s := by
      refine mapSignals_congr fun g' k s hk => if_neg ?_
      rintro ⟨rfl, rfl⟩
      omega
    rw [hid, mapSignals_id]

/-- A loop whose every step changes the signals pointwise. -/
theorem foldlM_mapSignals {β ε : Type} {step : Connector → β → Except ε Connector}
    (φ : β → Kind → Nat → WSSignal → WSSignal) {xs : List β} {c : Connector}
    (h : ∀ ψ, ∀ x ∈ xs, step (c.mapSignals ψ) x = .ok ((c.mapSignals ψ).mapSignals (φ x))) :
    xs.foldlM step c =
      .ok (c.mapSignals fun g k s => xs.foldl (fun s x => φ x g k s) s) := by
  have hfold : ∀ (ys : List β) (ψ), ys.foldl (fun c x => c.mapSignals (φ x)) (c.mapSignals ψ) =
      c.mapSignals fun g k s => ys.foldl (fun s x => φ x g k s) (ψ g k s) := by
    intro ys
    induction ys with
    | nil => intro ψ; rfl
    | cons y ys ih =>
        intro ψ
        rw [List.foldl_cons, mapSignals_mapSignals, ih]
        rfl
  have hstart := mapSignals_id c
  have hrun : xs.foldlM step c = .ok (xs.foldl (fun c x => c.mapSignals (φ x)) c) := by
    refine Checked.foldlM_eq _ (fun c' => ∃ ψ, c' = c.mapSignals ψ) ?_ ?_ ⟨_, hstart.symm⟩
    · rintro _ x hx ⟨ψ, rfl⟩
      exact h ψ x hx
    · rintro _ x _ ⟨ψ, rfl⟩
      exact ⟨_, mapSignals_mapSignals c ψ (φ x)⟩
  have hfold0 := hfold xs fun _ _ s => s
  rw [hstart] at hfold0
  rw [hrun, hfold0]

end Connector

end GateRasu
