import GateRasu.Ini.Line

/-!
# Which files are read without an access out of range

`PrepareDiffSigLists` takes four fields from a line and does not count them.  A line has
one field more than it has commas, and nothing that the reader removes has a comma.  Only
the test for `Host_IP` changes commas, and it changes them all.  So whether a file is
read depends on the commas of those of its lines whose fields are taken (`Complete`).
-/

namespace GateRasu

open Checked (OutOfRange)

/-! ## Commas -/

/-- A match of the regular expression has no comma. -/
theorem comma_not_mem_matchSignal (s : QString) : ',' ∉ s.take (matchSignal s) := by
  unfold matchSignal
  split
  · next hprefix =>
      obtain ⟨t, rfl⟩ := List.isPrefixOf_iff_prefix.mp hprefix
      rw [List.drop_left]
      dsimp only
      split
      · next hmatch =>
          obtain ⟨-, -, hequal⟩ := hmatch
          rw [Nat.add_assoc, List.take_length_add_append, List.take_add_one, hequal]
          intro hmem
          rcases List.mem_append.mp hmem with hmem | hmem
          · revert hmem
            decide
          rcases List.mem_append.mp hmem with hmem | hmem
          · rw [← List.prefix_iff_eq_take.mp (List.takeWhile_prefix Char.isDigit)] at hmem
            exact absurd (List.mem_takeWhile_imp hmem) (by decide)
          · revert hmem
            decide
      · rw [List.take_zero]
        exact List.not_mem_nil
  · rw [List.take_zero]
    exact List.not_mem_nil

/-- The fields of a line are counted by its commas. -/
theorem splitSignal_length (b : QString) : (splitSignal b).length = b.count ',' + 1 := by
  rw [splitSignal, QString.split, Text.length_splitOn,
    Text.count_removeMatches comma_not_mem_matchSignal, List.drop_zero, QString.removeChar,
    List.count_filter (by decide)]

namespace Setting

theorem comma_not_mem_title (s : Setting) : ',' ∉ s.title ++ ['='] := by
  cases s <;> decide

theorem edit_count (s : Setting) (b : QString) :
    (s.edit b).count ',' = (s.prepare b).count ',' :=
  Text.count_remove s.comma_not_mem_title _

/-- The test for `Host_IP` leaves no comma. -/
theorem edit_ip_count (b : QString) : (ip.edit b).count ',' = 0 := by
  rw [edit_count, List.count_eq_zero]
  intro hmem
  obtain ⟨c, -, hc⟩ := List.mem_map.mp hmem
  split at hc
  · cases hc
  · next hne => exact hne hc

theorem edit_count_of_ne {s : Setting} (h : s ≠ ip) (b : QString) :
    (s.edit b).count ',' = b.count ',' := by
  rw [edit_count]
  cases s with
  | ip => exact absurd rfl h
  | port | serverAdr | firstRegstr | numHldRegstr | firstQualRegstr | respTime | numOfRetr => rfl

/-- The other tests leave the commas alone. -/
theorem scan_count {ss : List Setting} (h : ∀ s ∈ ss, s ≠ ip) (b : QString) :
    (scan ss b).2.count ',' = b.count ',' := by
  induction ss generalizing b with
  | nil => rfl
  | cons s ss ih =>
      have hss : ∀ s' ∈ ss, s' ≠ ip := fun s' hs' => h s' (List.mem_cons_of_mem _ hs')
      rw [scan]
      split
      · exact (ih hss _).trans (edit_count_of_ne (h s (List.mem_cons_self ..)) b)
      · exact ih hss b

end Setting

/-- The commas of a line after the settings. -/
theorem residue_count (l : QString) :
    (residue l).count ',' =
      if (l.removeChar ' ').contains Setting.ip.title then 0 else l.count ',' := by
  have hnumeric : ∀ b, (Setting.scan Setting.numeric b).2.count ',' = b.count ',' :=
    Setting.scan_count fun _ => Setting.ne_ip_of_mem_numeric
  have hblank : (l.removeChar ' ').count ',' = l.count ',' := List.count_filter (by decide)
  rw [residue, Setting.scan_all, ← hblank]
  cases (l.removeChar ' ').contains Setting.ip.title with
  | true =>
      rw [if_pos rfl, if_pos rfl]
      exact (hnumeric _).trans (Setting.edit_ip_count _)
  | false =>
      rw [if_neg Bool.false_ne_true, if_neg Bool.false_ne_true]
      exact hnumeric _

/-! ## Lines -/

/-- The fields of a line are taken, with the section `t` open before it. -/
def TakesFields (t : Int) (l : QString) : Prop :=
  (residue l).contains defaultSignalTitle = true ∧
    (typeAfter t l = 0 ∨ typeAfter t l = 1 ∨ typeAfter t l = 2)

/-- The line has three commas that the test for `Host_IP` does not change. -/
def FourFields (l : QString) : Prop :=
  3 ≤ l.count ',' ∧ (l.removeChar ' ').contains Setting.ip.title = false

/-- Every line whose fields are taken has four, with the section `t` open before the lines. -/
def Complete : Int → List QString → Prop
  | _, [] => True
  | t, l :: lines => (TakesFields t l → FourFields l) ∧ Complete (typeAfter t l) lines

theorem fourFields_iff (l : QString) : FourFields l ↔ 4 ≤ (splitSignal (residue l)).length := by
  rw [splitSignal_length, residue_count, FourFields]
  cases (l.removeChar ' ').contains Setting.ip.title with
  | true =>
      rw [if_pos rfl]
      exact iff_of_false (fun h => by cases h.2) (by decide)
  | false =>
      rw [if_neg Bool.false_ne_true]
      exact ⟨fun h => Nat.succ_le_succ h.1, fun h => ⟨Nat.le_of_succ_le_succ h, rfl⟩⟩

theorem fieldsFor_iff (b : QString) (t : Int) :
    (∃ f, fieldsFor b (SigTypeUses.ofInt? t) = .ok f) ↔
      (t = 0 ∨ t = 1 ∨ t = 2 → 4 ≤ (splitSignal b).length) := by
  cases hg : SigTypeUses.ofInt? t with
  | none =>
      refine iff_of_true ⟨_, rfl⟩ ?_
      rintro (rfl | rfl | rfl) <;> cases hg
  | some g =>
      rw [SigTypeUses.ofInt?_eq_some hg]
      cases g with
      | sAna =>
          refine (atFields_iff _).trans ⟨fun h _ => h, fun h => h (Or.inl rfl)⟩
      | sDis =>
          refine (atFields_iff _).trans ⟨fun h _ => h, fun h => h (Or.inr (Or.inl rfl))⟩
      | sInt =>
          refine (atFields_iff _).trans ⟨fun h _ => h, fun h => h (Or.inr (Or.inr rfl))⟩
      | sGroup =>
          refine iff_of_true ⟨_, rfl⟩ ?_
          rintro (h | h | h) <;> cases h

/-- One line. -/
theorem readIniSection_ok_iff (env : Env) (c : Connector) (l : QString) :
    (∃ c', readIniSection env c l = .ok c') ↔ (TakesFields c.mTypeSig l → FourFields l) := by
  obtain ⟨htype, -⟩ := openSection_frame l c
  rw [readIniSection_eq, readSignal_eq, htype, TakesFields, fourFields_iff]
  cases (residue l).contains defaultSignalTitle with
  | false => exact iff_of_true ⟨_, rfl⟩ fun h => by cases h.1
  | true =>
      rw [if_pos rfl]
      have hfields := fieldsFor_iff (residue l) (typeAfter c.mTypeSig l)
      cases hf : fieldsFor (residue l) (SigTypeUses.ofInt? (typeAfter c.mTypeSig l)) with
      | error e =>
          rw [hf] at hfields
          refine iff_of_false ?_ fun h => ?_
          · rintro ⟨c', h⟩
            cases h
          · obtain ⟨f, hf⟩ := hfields.mpr fun ht => h ⟨rfl, ht⟩
            cases hf
      | ok f =>
          exact iff_of_true ⟨_, rfl⟩ fun h => hfields.mp ⟨f, hf⟩ h.2

/-- The section after a line. -/
theorem readIniSection_mTypeSig {env : Env} {c c' : Connector} {l : QString}
    (h : readIniSection env c l = .ok c') : c'.mTypeSig = typeAfter c.mTypeSig l := by
  rw [readIniSection_eq] at h
  obtain ⟨f, g, rfl⟩ := readSignal_cases h
  rw [← (openSection_frame l c).1]
  cases g with
  | none => rfl
  | some g => exact pushSignal_mTypeSig env _ f g

/-- **The reader is safe** on the files whose signals are complete, and on no others. -/
theorem readLines_ok_iff (env : Env) (c : Connector) (lines : List QString) :
    (∃ c', readLines env c lines = .ok c') ↔ Complete c.mTypeSig lines := by
  induction lines generalizing c with
  | nil => exact iff_of_true ⟨c, rfl⟩ trivial
  | cons l lines ih =>
      rw [Complete, ← readIniSection_ok_iff env c l, readLines, List.foldlM_cons]
      cases hl : readIniSection env c l with
      | error e =>
          refine iff_of_false ?_ ?_
          · rintro ⟨c', h⟩
            cases h
          · rintro ⟨⟨c', h⟩, -⟩
            cases h
      | ok c₁ =>
          have hrest := ih c₁
          rw [readIniSection_mTypeSig hl] at hrest
          constructor
          · intro h
            exact ⟨⟨c₁, rfl⟩, hrest.mp h⟩
          · rintro ⟨-, h⟩
            exact hrest.mpr h

/-- A signal without fields in the section of the analog signals. -/
theorem readLines_truncated :
    readLines ⟨fun _ => 0, fun _ => ⟨0, 0, 0, 0⟩⟩ (.new [] ⟨0, 0, 0⟩)
      ["[analog]".toList, "Signal1=x".toList] = .error ⟨1, 1⟩ := rfl

end GateRasu
