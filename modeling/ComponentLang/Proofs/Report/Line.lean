import ComponentLang.Report
import Mathlib.Data.List.Basic

/-!
# The line that a report names

* `Text.value_ofNat` : a number that was written is read again;
* `lineOfReport?_render` : so the text of a report names the line of the report;
* `lineOfReport?_render_of_neg`, `getD_lineOfReport?_render` : a line before the first is not named,
  and counts as none.
-/

namespace ComponentLang

namespace Text

/-- Of all the scripts, the digits 0 to 9 are looked up first. -/
theorem digit?_of_isDigit {c : Char} (h : c.isDigit) : digit? c = some (c.toNat - '0'.toNat) := by
  have hc : 0x30 ≤ c.toNat ∧ c.toNat < 0x30 + 10 := by
    have hrange := Char.isDigit_iff_toNat.1 h
    change 48 ≤ c.toNat ∧ c.toNat ≤ 57 at hrange
    omega
  have hfirst : zeros.find? (fun z => z ≤ c.toNat && c.toNat < z + 10) = some 0x30 :=
    List.find?_cons_of_pos (by simpa using hc)
  rw [digit?, hfirst]
  rfl

theorem digit?_of_mem_ofNat {n : Nat} {c : Char} (h : c ∈ ofNat n) :
    digit? c = some (c.toNat - '0'.toNat) :=
  digit?_of_isDigit (Nat.isDigit_of_mem_toDigits (by decide) (by decide) h)

theorem isDigit_of_mem_ofNat {n : Nat} {c : Char} (h : c ∈ ofNat n) : isDigit c := by
  rw [isDigit, digit?_of_mem_ofNat h]
  rfl

/-- **Decimal digits denote the number that they were written for.** -/
theorem value_ofNat (n : Nat) : value (ofNat n) = n := by
  have hfold : value (ofNat n) = Nat.ofDigitChars 10 (ofNat n) 0 := by
    rw [value, Nat.ofDigitChars_eq_foldl]
    apply List.foldl_ext
    intro m c hc
    rw [digit?_of_mem_ofNat hc, Option.getD_some]
  rw [hfold, ofNat, Nat.ofDigitChars_ten_toDigits]

end Text

theorem lineDigits?_atLine (n : Nat) (message : Text) :
    lineDigits? (atLine n message) = some (Text.ofNat n) := by
  have hdigits : ∀ c ∈ Text.ofNat n, Text.isDigit c := fun c hc => Text.isDigit_of_mem_ofNat hc
  have hcolon : Text.isDigit ':' = false := by decide
  have hne : Text.ofNat n ≠ [] := Nat.toDigits_ne_nil
  have hlead : ∀ lead sep : Text, Text.after? lead (lead ++ Text.ofNat n ++ sep ++ message) =
      some (Text.ofNat n ++ (sep ++ message)) := by
    intro lead sep
    rw [Text.after?_eq_some_iff, List.append_assoc, List.append_assoc]
  have hrest : Text.after? "Line ".toList (atLine n message) =
      some (Text.ofNat n ++ ':' :: ' ' :: message) := hlead "Line ".toList ": ".toList
  rw [lineDigits?, hrest]
  dsimp only
  rw [List.takeWhile_append_of_pos hdigits, List.dropWhile_append_of_pos hdigits]
  simp [hcolon, hne]

/-- **The text of a report names its line.** -/
theorem lineOfReport?_render {r : Report} {n : Nat} (h : r.line = n) :
    lineOfReport? r.render = some n := by
  rw [lineOfReport?, Report.render, h, lineDigits?_atLine, Option.map_some, Text.value_ofNat]

/-- A sign is no digit, so a line before the first is not named. -/
theorem lineOfReport?_render_of_neg {r : Report} (h : r.line < 0) : lineOfReport? r.render = none := by
  obtain ⟨n, hn⟩ := Int.eq_negSucc_of_lt_zero h
  have hsign : Text.isDigit '-' = false := by decide
  have hrest : Text.after? "Line ".toList r.render =
      some ('-' :: (Text.ofNat (n + 1) ++ ": ".toList ++ r.problem.message)) := by
    rw [Text.after?_eq_some_iff, Report.render, hn]
    rfl
  rw [lineOfReport?, lineDigits?, hrest]
  simp [hsign]

/-- The line that the text of a report names, and none if it names none, is that of the report. -/
theorem getD_lineOfReport?_render (r : Report) : (lineOfReport? r.render).getD 0 = r.line.toNat := by
  rcases Int.lt_or_le r.line 0 with h | h
  · rw [lineOfReport?_render_of_neg h, Int.toNat_of_nonpos (Int.le_of_lt h)]
    rfl
  · rw [lineOfReport?_render (Int.toNat_of_nonneg h).symm]
    rfl

end ComponentLang
