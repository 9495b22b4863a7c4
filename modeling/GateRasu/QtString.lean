import GateRasu.Lib.Text
import GateRasu.Lib.Numeral

/-!
# Strings

The operations of `QString` that the gateway uses, on lists of characters.
Searching and removal are case sensitive.  `split` keeps empty fields.

A conversion to a number takes a sign and does not look at white space on either side.  It
gives `0` for any other text, and for a number out of the range of the result.
-/

/-- A `QString`. -/
abbrev QString := List Char

namespace QString

/-- `QString::contains`. -/
def contains (s w : QString) : Bool := Text.contains w s

/-- `QString::remove` of a string. -/
def remove (s w : QString) : QString := Text.remove w s

/-- `QString::remove` of a character. -/
def removeChar (s : QString) (c : Char) : QString := s.filter (· ≠ c)

/-- `QString::replace` of a character. -/
def replace (s : QString) (before after : Char) : QString :=
  s.map fun c => if c = before then after else c

/-- `QString::split`. -/
def split (s : QString) (sep : Char) : List QString := s.splitOn sep

/-- `QChar::isSpace`. -/
def isSpace (c : Char) : Bool :=
  (0x09 ≤ c.toNat && c.toNat ≤ 0x0d) || (0x2000 ≤ c.toNat && c.toNat ≤ 0x200a) ||
    [0x20, 0x85, 0xa0, 0x1680, 0x2028, 0x2029, 0x202f, 0x205f, 0x3000].contains c.toNat

/-- A text without the white space on either side. -/
def trimmed (s : QString) : QString := (s.dropWhile isSpace).rdropWhile isSpace

/-- `QString::toUInt`, an `unsigned int` of 32 bits. -/
def toUInt (s : QString) : BitVec 32 :=
  match Numeral.natural? s.trimmed with
  | some n => if n < 2 ^ 32 then BitVec.ofNat 32 n else 0
  | none => 0

/-- `QString::toLong`, a `long` of 64 bits. -/
def toLong (s : QString) : BitVec 64 :=
  match Numeral.integer? s.trimmed with
  | some z => if -2 ^ 63 ≤ z ∧ z < 2 ^ 63 then BitVec.ofInt 64 z else 0
  | none => 0

/-- The number of a text, `0` if it is no numeral below `2 ^ 32`. -/
def number (s : QString) : Nat :=
  match Numeral.natural? s.trimmed with
  | some n => if n < 2 ^ 32 then n else 0
  | none => 0

theorem trimmed_eq_self {s : QString} (h : ∀ c ∈ s, isSpace c = false) : s.trimmed = s := by
  have hdrop : ∀ t : QString, (∀ c ∈ t, isSpace c = false) → t.dropWhile isSpace = t := by
    intro t ht
    cases t with
    | nil => rfl
    | cons c t => exact List.dropWhile_cons_of_neg (by simp [ht c (List.mem_cons_self ..)])
  rw [trimmed, hdrop s h, List.rdropWhile, hdrop _ fun c hc => h c (List.mem_reverse.mp hc),
    List.reverse_reverse]

/-- Only white space is trimmed. -/
theorem mem_trimmed {s : QString} {c : Char} (hc : c ∈ s) (h : isSpace c = false) :
    c ∈ s.trimmed := by
  have hdrop : ∀ t : QString, c ∈ t → c ∈ t.dropWhile isSpace := by
    intro t ht
    rw [← List.takeWhile_append_dropWhile (p := isSpace) (l := t)] at ht
    refine (List.mem_append.mp ht).resolve_left fun htake => ?_
    rw [List.mem_takeWhile_imp htake] at h
    cases h
  exact List.mem_reverse.mpr (hdrop _ (List.mem_reverse.mpr (hdrop s hc)))

theorem isSpace_of_isDigit {c : Char} (h : c.isDigit = true) : isSpace c = false := by
  simp only [Char.isDigit, Bool.and_eq_true, decide_eq_true_eq, UInt32.le_iff_toNat_le] at h
  have hlow : 48 ≤ c.toNat := h.1
  have hhigh : c.toNat ≤ 57 := h.2
  simp [isSpace]
  omega

theorem isSpace_of_mem_sign {c : Char} (h : c ∈ ['+', '-', '.', 'e', 'E']) : isSpace c = false := by
  have hall : ['+', '-', '.', 'e', 'E'].all (!isSpace ·) = true := rfl
  simpa using List.all_eq_true.mp hall c h

/-- The text of a natural number has no white space. -/
theorem trimmed_of_natural? {s : QString} {n : Nat} (h : Numeral.natural? s = some n) :
    s.trimmed = s := by
  refine trimmed_eq_self fun c hc => ?_
  rcases Numeral.mem_natural? h hc with hdigit | hsign
  · exact isSpace_of_isDigit hdigit
  · exact isSpace_of_mem_sign (List.mem_append_left ['.', 'e', 'E'] hsign)

/-- The text of an integer has no white space. -/
theorem trimmed_of_integer? {s : QString} {z : Int} (h : Numeral.integer? s = some z) :
    s.trimmed = s := by
  refine trimmed_eq_self fun c hc => ?_
  rcases Numeral.mem_integer? h hc with hdigit | hsign
  · exact isSpace_of_isDigit hdigit
  · exact isSpace_of_mem_sign (List.mem_append_left ['.', 'e', 'E'] hsign)

theorem toUInt_toNat (s : QString) : s.toUInt.toNat = s.number := by
  unfold toUInt number
  cases Numeral.natural? s.trimmed with
  | none => rfl
  | some n =>
      dsimp only
      split
      · next hn => rw [BitVec.toNat_ofNat, Nat.mod_eq_of_lt hn]
      · rfl

theorem number_of_natural? {s : QString} {n : Nat} (h : Numeral.natural? s = some n)
    (hn : n < 2 ^ 32) : s.number = n := by
  rw [number, trimmed_of_natural? h, h]
  exact if_pos hn

/-- A numeral that fits is read as its number. -/
theorem toUInt_setWidth {w : Nat} (hw : w ≤ 32) {s : QString} {x : BitVec w}
    (h : Numeral.natural? s = some x.toNat) : s.toUInt.setWidth w = x := by
  have hlt : x.toNat < 2 ^ 32 := Nat.lt_of_lt_of_le x.isLt (Nat.pow_le_pow_right (by decide) hw)
  refine BitVec.eq_of_toNat_eq ?_
  rw [BitVec.toNat_setWidth, toUInt_toNat, number_of_natural? h hlt, Nat.mod_eq_of_lt x.isLt]

theorem toLong_of_integer? {s : QString} {z : Int} (h : Numeral.integer? s = some z)
    (hz : -2 ^ 63 ≤ z ∧ z < 2 ^ 63) : s.toLong = BitVec.ofInt 64 z := by
  rw [toLong, trimmed_of_integer? h, h]
  exact if_pos hz

/-- A numeral of an `int32_t` is read as its number. -/
theorem toLong_setWidth {s : QString} {v : BitVec 32} (h : Numeral.integer? s = some v.toInt) :
    s.toLong.setWidth 32 = v := by
  have hlt := v.toInt_lt
  have hle := v.le_toInt
  rw [toLong_of_integer? h ⟨by omega, by omega⟩]
  show (v.signExtend 64).setWidth 32 = v
  refine BitVec.eq_of_getLsbD_eq fun i hi => ?_
  simp [BitVec.getElem_signExtend, hi, Nat.lt_trans hi (show 32 < 64 by decide)]

/-- A number is read into an `int32_t` when it is zero or the numeral of one. -/
theorem toInt_toLong_iff {s : QString} {q : ℚ} (h : Numeral.real? s = some q) :
    ((s.toLong.setWidth 32).toInt : ℚ) = q ↔
      q = 0 ∨ ∃ v : BitVec 32, Numeral.integer? s = some v.toInt := by
  cases hz : Numeral.integer? s with
  | none =>
      have htrimmed : s.trimmed = s := trimmed_eq_self fun c hc => by
        rcases Numeral.mem_real? h hc with hdigit | hsign
        · exact isSpace_of_isDigit hdigit
        · exact isSpace_of_mem_sign hsign
      have hzero : s.toLong = 0 := by rw [toLong, htrimmed, hz]
      rw [hzero]
      simp [eq_comm]
  | some z =>
      obtain rfl : (z : ℚ) = q := by
        rw [Numeral.real?_of_integer? hz] at h
        exact Option.some.inj h
      rw [Int.cast_inj, Int.cast_eq_zero]
      by_cases hrange : -2 ^ 31 ≤ z ∧ z < 2 ^ 31
      · have hv : (BitVec.ofInt 32 z).toInt = z :=
          BitVec.toInt_ofInt_eq_self (by decide) hrange.1 hrange.2
        refine iff_of_true ?_ (Or.inr ⟨BitVec.ofInt 32 z, by rw [hv]⟩)
        rw [toLong_setWidth (hz.trans (congrArg some hv.symm)), hv]
      · refine iff_of_false (fun hv => hrange ?_) ?_
        · rw [← hv]
          exact ⟨BitVec.le_toInt _, BitVec.toInt_lt⟩
        rintro (rfl | ⟨v, hv⟩)
        · exact hrange (by decide)
        · cases hv
          exact hrange ⟨v.le_toInt, v.toInt_lt⟩

/-- A replacement of letters that a word does not have. -/
theorem contains_replace {w : QString} {a b : Char} (ha : a ∉ w) (hb : b ∉ w) (s : QString) :
    (s.replace a b).contains w = s.contains w := by
  refine Text.contains_map (fun c hc d => ?_) s
  have hca : c ≠ a := fun h => ha (h ▸ hc)
  have hcb : b ≠ c := fun h => hb (h ▸ hc)
  split
  · next h => exact iff_of_false hcb fun hdc => hca (hdc.symm.trans h)
  · exact Iff.rfl

theorem mem_removeChar {s : QString} {c d : Char} : d ∈ removeChar s c ↔ d ∈ s ∧ d ≠ c := by
  simp [removeChar]

theorem remove_singleton (s : QString) (c : Char) : s.remove [c] = s.removeChar c := by
  rw [remove, Text.remove_singleton]
  rfl

theorem removeChar_eq_self {s : QString} {c : Char} (h : c ∉ s) : removeChar s c = s := by
  rw [removeChar, List.filter_eq_self]
  intro d hd
  rw [decide_eq_true_eq]
  exact fun hdc => h (hdc ▸ hd)

end QString
