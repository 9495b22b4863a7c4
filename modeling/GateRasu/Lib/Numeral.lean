import Mathlib

/-!
# Decimal numerals

Reading and writing of natural numbers and integers in base ten.  Reading is the
left inverse of writing (`decimal?_numeral`, `integer?_intNumeral`).

`real?` reads numbers with a point and an exponent as well.  It agrees with the reader of
integers on the numerals of these (`real?_of_integer?`).
-/

namespace Numeral

/-- The number a nonempty run of digits denotes. -/
def decimal? (s : List Char) : Option Nat :=
  if s ≠ [] ∧ s.all Char.isDigit = true then some (Nat.ofDigitChars 10 s 0) else none

/-- The digits of a number. -/
def numeral (n : Nat) : List Char := Nat.toDigits 10 n

/-- The number a run of digits with an optional plus sign denotes. -/
def natural? : List Char → Option Nat
  | '+' :: s => decimal? s
  | s => decimal? s

/-- The number a run of digits with an optional sign denotes. -/
def integer? : List Char → Option Int
  | '-' :: s => (decimal? s).map fun n : Nat => -(n : Int)
  | s => (natural? s).map fun n : Nat => (n : Int)

/-- A letter that is not the point. -/
def beforePoint (c : Char) : Bool := c ≠ '.'

/-- The number that digits with an optional point denote. -/
def fraction? (s : List Char) : Option ℚ :=
  let part := (s.dropWhile beforePoint).drop 1
  (decimal? (s.takeWhile beforePoint ++ part)).map fun n : Nat => (n : ℚ) / 10 ^ part.length

/-- The number that digits with an optional sign and an optional point denote. -/
def mantissa? : List Char → Option ℚ
  | '-' :: s => (fraction? s).map fun q => -q
  | '+' :: s => fraction? s
  | s => fraction? s

/-- A letter that no exponent begins with. -/
def beforeExponent (c : Char) : Bool := c ≠ 'e' ∧ c ≠ 'E'

/-- The number that a mantissa with an optional exponent denotes. -/
def real? (s : List Char) : Option ℚ :=
  match s.dropWhile beforeExponent with
  | [] => mantissa? s
  | _ :: t => do
      let q ← mantissa? (s.takeWhile beforeExponent)
      let z ← integer? t
      return q * 10 ^ z

/-- The digits of a number, after a minus sign if it is negative. -/
def intNumeral (z : Int) : List Char :=
  if z < 0 then '-' :: numeral z.natAbs else numeral z.natAbs

theorem numeral_ne_nil (n : Nat) : numeral n ≠ [] := Nat.toDigits_ne_nil

theorem isDigit_of_mem_numeral {n : Nat} {c : Char} (h : c ∈ numeral n) : c.isDigit = true :=
  Nat.isDigit_of_mem_toDigits (by decide) (by decide) h

theorem isDigit_of_decimal? {s : List Char} {n : Nat} (h : decimal? s = some n) :
    ∀ c ∈ s, c.isDigit = true := by
  unfold decimal? at h
  split at h
  · next hs => exact List.all_eq_true.mp hs.2
  · cases h

theorem decimal?_eq_none {s : List Char} {c : Char} (hc : c ∈ s) (h : c.isDigit = false) :
    decimal? s = none := by
  cases hs : decimal? s with
  | none => rfl
  | some n =>
      rw [isDigit_of_decimal? hs c hc] at h
      cases h

/-- A digit is not a letter. -/
theorem not_isAlpha_of_isDigit {c : Char} (h : c.isDigit = true) : c.isAlpha = false := by
  simp only [Char.isDigit, Char.isAlpha, Char.isUpper, Char.isLower] at h ⊢
  grind

theorem decimal?_numeral (n : Nat) : decimal? (numeral n) = some n := by
  have hall : (numeral n).all Char.isDigit = true :=
    List.all_eq_true.mpr fun _ hc => isDigit_of_mem_numeral hc
  rw [decimal?, if_pos ⟨numeral_ne_nil n, hall⟩, numeral, Nat.ofDigitChars_ten_toDigits]

theorem ne_sign_of_decimal? {s t : List Char} {n : Nat} (h : decimal? s = some n) {c : Char}
    (hc : c.isDigit = false) : s ≠ c :: t := by
  rintro rfl
  rw [isDigit_of_decimal? h c (List.mem_cons_self ..)] at hc
  cases hc

theorem natural?_of_decimal? {s : List Char} {n : Nat} (h : decimal? s = some n) :
    natural? s = some n := by
  rw [natural?]
  · exact h
  · exact fun t => ne_sign_of_decimal? h rfl

theorem integer?_of_decimal? {s : List Char} {n : Nat} (h : decimal? s = some n) :
    integer? s = some (n : Int) := by
  rw [integer?]
  · rw [natural?_of_decimal? h]
    rfl
  · exact fun t => ne_sign_of_decimal? h rfl

/-- A letter that is neither a digit nor a sign. -/
theorem natural?_eq_none {s : List Char} {c : Char} (hc : c ∈ s) (h : c.isDigit = false)
    (hsign : c ≠ '+') : natural? s = none := by
  unfold natural?
  split
  · exact decimal?_eq_none ((List.mem_cons.mp hc).resolve_left hsign) h
  · exact decimal?_eq_none hc h

theorem integer?_intNumeral (z : Int) : integer? (intNumeral z) = some z := by
  by_cases hz : z < 0
  · rw [intNumeral, if_pos hz, integer?, decimal?_numeral, Option.map_some]
    congr 1
    omega
  · rw [intNumeral, if_neg hz, integer?_of_decimal? (decimal?_numeral _)]
    congr 1
    omega

theorem mem_natural? {s : List Char} {n : Nat} (h : natural? s = some n) {c : Char} (hc : c ∈ s) :
    c.isDigit = true ∨ c ∈ ['+', '-'] := by
  unfold natural? at h
  split at h
  · rcases List.mem_cons.mp hc with rfl | hc
    · exact Or.inr (by decide)
    · exact Or.inl (isDigit_of_decimal? h c hc)
  · exact Or.inl (isDigit_of_decimal? h c hc)

theorem mem_integer? {s : List Char} {z : Int} (h : integer? s = some z) {c : Char} (hc : c ∈ s) :
    c.isDigit = true ∨ c ∈ ['+', '-'] := by
  unfold integer? at h
  split at h
  · obtain ⟨n, hn, -⟩ := Option.map_eq_some_iff.mp h
    rcases List.mem_cons.mp hc with rfl | hc
    · exact Or.inr (by decide)
    · exact Or.inl (isDigit_of_decimal? hn c hc)
  · obtain ⟨n, hn, -⟩ := Option.map_eq_some_iff.mp h
    exact mem_natural? hn hc

/-! ## Points and exponents -/

/-- What follows the letters of a sort begins with another one. -/
theorem not_of_dropWhile {p : Char → Bool} {s t : List Char} {c : Char}
    (h : s.dropWhile p = c :: t) : p c = false := by
  have hhead := List.head?_dropWhile_not p s
  rw [h] at hhead
  simpa using hhead

theorem mem_fraction? {s : List Char} {q : ℚ} (h : fraction? s = some q) {c : Char} (hc : c ∈ s) :
    c.isDigit = true ∨ c = '.' := by
  obtain ⟨n, hn, -⟩ := Option.map_eq_some_iff.mp h
  have hdigit := isDigit_of_decimal? hn
  rw [← List.takeWhile_append_dropWhile (p := beforePoint) (l := s)] at hc
  rcases List.mem_append.mp hc with hc | hc
  · exact Or.inl (hdigit c (List.mem_append_left _ hc))
  cases hdrop : s.dropWhile beforePoint with
  | nil =>
      rw [hdrop] at hc
      cases hc
  | cons d t =>
      rw [hdrop] at hc hdigit
      rcases List.mem_cons.mp hc with rfl | hc
      · exact Or.inr (by simpa [beforePoint] using not_of_dropWhile hdrop)
      · exact Or.inl (hdigit c (List.mem_append_right _ hc))

theorem mem_mantissa? {s : List Char} {q : ℚ} (h : mantissa? s = some q) {c : Char} (hc : c ∈ s) :
    c.isDigit = true ∨ c ∈ ['+', '-', '.'] := by
  have hpoint : ∀ {t : List Char} {q : ℚ}, fraction? t = some q → c ∈ t →
      c.isDigit = true ∨ c ∈ ['+', '-', '.'] := fun ht hct =>
    (mem_fraction? ht hct).imp_right fun hc => by simp [hc]
  unfold mantissa? at h
  split at h
  · obtain ⟨q', hq', -⟩ := Option.map_eq_some_iff.mp h
    rcases List.mem_cons.mp hc with rfl | hc
    · exact Or.inr (by decide)
    · exact hpoint hq' hc
  · rcases List.mem_cons.mp hc with rfl | hc
    · exact Or.inr (by decide)
    · exact hpoint h hc
  · exact hpoint h hc

/-- The letters of a number. -/
theorem mem_real? {s : List Char} {q : ℚ} (h : real? s = some q) {c : Char} (hc : c ∈ s) :
    c.isDigit = true ∨ c ∈ ['+', '-', '.', 'e', 'E'] := by
  have hmantissa : c.isDigit = true ∨ c ∈ ['+', '-', '.'] →
      c.isDigit = true ∨ c ∈ ['+', '-', '.', 'e', 'E'] :=
    Or.imp_right fun h => (List.prefix_append ['+', '-', '.'] ['e', 'E']).subset h
  have hinteger : c.isDigit = true ∨ c ∈ ['+', '-'] →
      c.isDigit = true ∨ c ∈ ['+', '-', '.', 'e', 'E'] :=
    Or.imp_right fun h => (List.prefix_append ['+', '-'] ['.', 'e', 'E']).subset h
  unfold real? at h
  split at h
  · exact hmantissa (mem_mantissa? h hc)
  · next e t hdrop =>
      obtain ⟨q', hq', hrest⟩ := Option.bind_eq_some_iff.mp h
      obtain ⟨z, hz, -⟩ := Option.bind_eq_some_iff.mp hrest
      rw [← List.takeWhile_append_dropWhile (p := beforeExponent) (l := s), hdrop] at hc
      rcases List.mem_append.mp hc with hc | hc
      · exact hmantissa (mem_mantissa? hq' hc)
      rcases List.mem_cons.mp hc with rfl | hc
      · have hexponent := not_of_dropWhile hdrop
        rw [beforeExponent, decide_eq_false_iff_not, not_and_or, not_not, not_not] at hexponent
        rcases hexponent with rfl | rfl <;> exact Or.inr (by decide)
      · exact hinteger (mem_integer? hz hc)

theorem fraction?_of_decimal? {s : List Char} {n : Nat} (h : decimal? s = some n) :
    fraction? s = some (n : ℚ) := by
  have hpoint : ∀ c ∈ s, beforePoint c = true := by
    intro c hc
    rw [beforePoint, decide_eq_true_eq]
    rintro rfl
    cases isDigit_of_decimal? h _ hc
  rw [fraction?, List.takeWhile_eq_self_iff.mpr hpoint, List.dropWhile_eq_nil_iff.mpr hpoint,
    List.drop_nil, List.append_nil, h]
  simp

theorem mantissa?_of_integer? {s : List Char} {z : Int} (h : integer? s = some z) :
    mantissa? s = some (z : ℚ) := by
  unfold integer? at h
  split at h
  · obtain ⟨n, hn, rfl⟩ := Option.map_eq_some_iff.mp h
    rw [mantissa?, fraction?_of_decimal? hn]
    simp
  · next s hminus =>
      obtain ⟨n, hn, rfl⟩ := Option.map_eq_some_iff.mp h
      unfold natural? at hn
      split at hn
      · rw [mantissa?, fraction?_of_decimal? hn]
        simp
      · next s hplus =>
          rw [mantissa?, fraction?_of_decimal? hn]
          · simp
          · exact hminus
          · exact hplus

/-- An integer is a number without a point and an exponent. -/
theorem real?_of_integer? {s : List Char} {z : Int} (h : integer? s = some z) :
    real? s = some (z : ℚ) := by
  have hdrop : s.dropWhile beforeExponent = [] := by
    refine List.dropWhile_eq_nil_iff.mpr fun c hc => ?_
    rw [beforeExponent, decide_eq_true_eq]
    rcases mem_integer? h hc with hdigit | hsign
    · constructor <;> rintro rfl <;> cases hdigit
    · constructor <;> rintro rfl <;> exact absurd hsign (by decide)
  rw [real?, hdrop]
  exact mantissa?_of_integer? h

end Numeral
