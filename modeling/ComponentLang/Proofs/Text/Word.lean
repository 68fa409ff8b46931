import ComponentLang.Text.Blank
import ComponentLang.Text.Word
import Mathlib.Data.List.TakeWhile
import Mathlib.Tactic.SplitIfs

/-!
# Blanks and words

* `exists_run_of_covers` : a code point in a set is in one of its runs;
* `not_isWord_of_isBlank`, `not_isBlank_of_isWord`, `not_isNameStart_of_isBlank` : blanks are apart from the characters of words
  and names;
* `forall_char_lt` : what holds of the first characters, one by one;
* `takeWhile_append_stop`, `dropWhile_append_stop` : a run of characters ends at one that fails the test;
* `IsName` : an identifier, which is read as a whole if no word goes on behind it;
* `afterSpaced?_append` : what stands behind a word and one space.
-/

namespace ComponentLang.Text

theorem exists_run_of_covers {rs : List Run} {n : Nat} (h : Run.covers rs n) :
    ∃ r ∈ rs, r.first ≤ n ∧ n ≤ r.last := by
  induction rs with
  | nil => cases h
  | cons r rs ih =>
    rw [Run.covers] at h
    split_ifs at h with hfirst hlast
    · exact ⟨r, List.mem_cons_self, by omega, hlast⟩
    · obtain ⟨r', hr', hn⟩ := ih h
      exact ⟨r', List.mem_cons_of_mem r hr', hn⟩

set_option maxRecDepth 10000 in
theorem not_isWord_of_isBlank {c : Char} (h : isBlank c) : isWord c = false := by
  have hapart : ∀ r ∈ blankRuns, ∀ w ∈ wordRuns, r.last < w.first ∨ w.last < r.first := by
    decide +kernel
  rw [Bool.eq_false_iff]
  intro hword
  obtain ⟨r, hr, hn⟩ := exists_run_of_covers h
  obtain ⟨w, hw, hn'⟩ := exists_run_of_covers hword
  rcases hapart r hr w hw with h | h <;> omega

theorem not_isBlank_of_isWord {c : Char} (h : isWord c) : ¬ isBlank c := by
  intro hblank
  rw [not_isWord_of_isBlank hblank] at h
  cases h

/-- A property of the characters up to a code point is checked one by one. -/
theorem forall_char_lt {b : Nat} {p : Char → Prop} (h : ∀ n < b, p (Char.ofNat n)) {c : Char}
    (hc : c.toNat < b) : p c := by
  have hp := h c.toNat hc
  rwa [Char.ofNat_toNat] at hp

theorem toNat_of_isLatinLetter {c : Char} (h : isLatinLetter c) : c.toNat < 123 := by
  simp only [isLatinLetter, Bool.or_eq_true, Bool.and_eq_true, decide_eq_true_eq, Char.le_def,
    UInt32.le_iff_toNat_le] at h
  rcases h with ⟨_, hz⟩ | ⟨_, hz⟩
  · exact Nat.lt_succ_of_le hz
  · exact Nat.lt_succ_of_le (Nat.le_trans hz (by decide))

/-- The letters and digits of names are among the first characters. -/
theorem toNat_of_isLatinLetter_or_digit {c : Char}
    (h : isLatinLetter c || ('0' ≤ c && c ≤ '9')) : c.toNat < 123 := by
  simp only [Bool.or_eq_true, Bool.and_eq_true, decide_eq_true_eq] at h
  rcases h with hletter | ⟨_, h9⟩
  · exact toNat_of_isLatinLetter hletter
  · exact Nat.lt_of_le_of_lt (m := '9'.toNat) h9 (by decide)

theorem not_isNameStart_of_isBlank {c : Char} (h : isBlank c) : isNameStart c = false := by
  have hstart : ∀ n < 123, isNameStart (Char.ofNat n) → ¬ isBlank (Char.ofNat n) := by decide
  rw [Bool.eq_false_iff]
  intro hc
  refine forall_char_lt (p := fun c => isNameStart c → ¬ isBlank c) hstart ?_ hc h
  rw [isNameStart, Bool.or_eq_true, decide_eq_true_eq] at hc
  rcases hc with hletter | rfl
  · exact toNat_of_isLatinLetter hletter
  · decide

theorem takeWhile_append_stop {f : Char → Bool} {c : Char} (hc : f c = false) (p rest : Text) :
    (p ++ c :: rest).takeWhile f = p.takeWhile f := by
  induction p with
  | nil => simp [hc]
  | cons d p ih =>
    rw [List.cons_append, List.takeWhile_cons, List.takeWhile_cons, ih]

theorem dropWhile_append_stop {f : Char → Bool} {c : Char} (hc : f c = false) (p rest : Text) :
    (p ++ c :: rest).dropWhile f = p.dropWhile f ++ c :: rest := by
  induction p with
  | nil => simp [hc]
  | cons d p ih =>
    rw [List.cons_append, List.dropWhile_cons, List.dropWhile_cons, ih]
    split_ifs <;> rfl

/-! ## Identifiers -/

/-- The text is an identifier. -/
def IsName (t : Text) : Prop := ∃ c r, t = c :: r ∧ isNameStart c ∧ ∀ d ∈ r, isWord d

theorem IsName.head?_append {id : Text} (h : IsName id) (rest : Text) :
    ∀ c ∈ (id ++ rest).head?, ¬ isBlank c := by
  obtain ⟨c, r, rfl, hstart, -⟩ := h
  rintro d ⟨⟩ hblank
  rw [not_isNameStart_of_isBlank hblank] at hstart
  cases hstart

theorem IsName.name?_append {id rest : Text} (h : IsName id)
    (hrest : ∀ c ∈ rest.head?, isWord c = false) : name? (id ++ rest) = some (id, rest) := by
  obtain ⟨c, r, rfl, hstart, hword⟩ := h
  rw [List.cons_append, name?, if_pos hstart]
  cases rest with
  | nil => rw [List.append_nil, List.takeWhile_eq_self_iff.2 hword, List.dropWhile_eq_nil_iff.2 hword]
  | cons d rest =>
    have hd := hrest d rfl
    rw [takeWhile_append_stop hd, dropWhile_append_stop hd, List.takeWhile_eq_self_iff.2 hword,
      List.dropWhile_eq_nil_iff.2 hword, List.nil_append]

theorem afterSpaced?_append (word : Text) {t : Text} (h : ∀ c ∈ t.head?, ¬ isBlank c) :
    afterSpaced? word (word ++ ' ' :: t) = some t := by
  have hspace : startsBlank (' ' :: t) := by rw [startsBlank]; decide
  have ht : trimStart t = t := by
    cases t with
    | nil => rfl
    | cons c t => exact List.dropWhile_cons_of_neg (h c rfl)
  rw [afterSpaced?, after?_eq_some_iff.2 rfl, Option.bind_some, afterBlanks?, if_pos hspace]
  exact congrArg some ht

end ComponentLang.Text
