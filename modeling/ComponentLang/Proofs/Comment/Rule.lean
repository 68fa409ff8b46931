import ComponentLang.Proofs.Comment.OnePass

/-!
# The rule for comments

The rule tells of a line from left to right what it keeps. A quote with an unescaped match further on
stays with the whole string, a quote without one stays alone, and the line is cut at the first two
slashes that are met besides.

* `Inside q s` : `s` can stand in a string between two quotes `q`;
* `Paired q t` : a quote `q` right before `t` has an unescaped match in `t`;
* `Keeps t k` : by the rule, `k` is kept of the line `t`;
* `closes_iff` : a reading asks at a quote for such a match;
* `read_of_keeps`, `exists_keeps` : the rule leaves no choice, and applies to every line;
* `strip_eq_iff` : the line without its comment is what the rule keeps of it;
* `strip_by_rule` : the search for it comes to an end, and a second search finds nothing more.
-/

namespace ComponentLang.Comment

/-- The text can stand in a string that `q` has opened. A backslash takes the next character with it,
and no other `q` occurs. -/
inductive Inside (q : Char) : Text → Prop where
  | nil : Inside q []
  | char {c : Char} {s : Text} (hq : c ≠ q) (hb : c ≠ '\\') (h : Inside q s) : Inside q (c :: s)
  | escaped (c : Char) {s : Text} (h : Inside q s) : Inside q ('\\' :: c :: s)

/-- A quote `q` right before the text has an unescaped match in it. -/
def Paired (q : Char) (t : Text) : Prop := ∃ s r, Inside q s ∧ t = s ++ q :: r

/-- What is kept of a line. -/
inductive Keeps : Text → Text → Prop where
  | nil : Keeps [] []
  /-- The comment starts here. -/
  | comment (r : Text) : Keeps ('/' :: '/' :: r) []
  /-- A quote with a match stays with its string, slashes and all. -/
  | string {q : Char} {s r k : Text} (hq : isMark q) (hs : Inside q s) (h : Keeps r k) :
      Keeps (q :: (s ++ q :: r)) (q :: (s ++ q :: k))
  /-- A quote without a match, like an apostrophe, stays alone. -/
  | lone {q : Char} {r k : Text} (hq : isMark q) (hr : ¬ Paired q r) (h : Keeps r k) :
      Keeps (q :: r) (q :: k)
  | char {c : Char} {r k : Text} (hc : ¬ isMark c) (hr : ¬ ['/', '/'] <+: c :: r) (h : Keeps r k) :
      Keeps (c :: r) (c :: k)

/-! ## Strings -/

theorem ne_backslash {q : Char} (hq : isMark q) : q ≠ '\\' := by
  rintro rfl
  exact absurd hq (by decide)

theorem ne_slash {q : Char} (hq : isMark q) : q ≠ '/' := by
  rintro rfl
  exact absurd hq (by decide)

theorem inside_of_forall {q : Char} {s : Text} (h : ∀ c ∈ s, c ≠ q ∧ c ≠ '\\') : Inside q s := by
  induction s with
  | nil => exact .nil
  | cons c s ih =>
    obtain ⟨hq, hb⟩ := h c List.mem_cons_self
    exact .char hq hb (ih fun d hd => h d (List.mem_cons_of_mem _ hd))

theorem Paired.of_isPrefix {q : Char} {t u : Text} (h : Paired q t) (htu : t <+: u) :
    Paired q u := by
  obtain ⟨s, r, hs, rfl⟩ := h
  obtain ⟨x, rfl⟩ := htu
  exact ⟨s, r ++ x, hs, by simp⟩

theorem Paired.char {q c : Char} (hq : c ≠ q) (hb : c ≠ '\\') {t : Text} (h : Paired q t) :
    Paired q (c :: t) := by
  obtain ⟨s, r, hs, rfl⟩ := h
  exact ⟨c :: s, r, .char hq hb hs, rfl⟩

theorem Paired.escaped {q : Char} (c : Char) {t : Text} (h : Paired q t) :
    Paired q ('\\' :: c :: t) := by
  obtain ⟨s, r, hs, rfl⟩ := h
  exact ⟨'\\' :: c :: s, r, .escaped c hs, rfl⟩

theorem paired_self (q : Char) (t : Text) : Paired q (q :: t) := ⟨[], t, .nil, rfl⟩

theorem paired_of_closes {q : Char} {t : Text} (h : closes q false t) : Paired q t := by
  cases t with
  | nil => cases h
  | cons c r =>
    rw [closes] at h
    split_ifs at h with hb
    · -- the backslash takes the next character with it
      subst hb
      cases r with
      | nil => cases h
      | cons d r => exact (paired_of_closes (t := r) h).escaped d
    · by_cases hc : c = q
      · subst hc
        exact paired_self c r
      · exact (paired_of_closes (t := r) (by simpa [hc] using h)).char hc hb

section

variable {q : Char} (hq : isMark q)
include hq

theorem Inside.closes {s : Text} (hs : Inside q s) (r : Text) :
    Comment.closes q false (s ++ q :: r) := by
  induction hs with
  | nil => simp [Comment.closes, ne_backslash hq]
  | char _ hb _ ih => simp [Comment.closes, hb, ih]
  | escaped c _ ih => simp [Comment.closes, ih]

/-- A string is closed if and only if its quote has a match. -/
theorem closes_iff {t : Text} : closes q false t ↔ Paired q t := by
  constructor
  · exact paired_of_closes
  · rintro ⟨s, r, hs, rfl⟩
    exact hs.closes hq r

/-- A reading goes through a string as a whole. -/
theorem read_inside {s : Text} (hs : Inside q s) (r : Text) :
    read (.string q) (s ++ q :: r) = s ++ q :: read .code r := by
  induction hs with
  | nil => simp [read, Place.cuts, Place.next, ne_backslash hq]
  | char hc hb _ ih => simp [read, Place.cuts, Place.next, hc, hb, ih]
  | escaped c _ ih => simp [read, Place.cuts, Place.next, ih]

end

/-! ## The rule and the reading -/

theorem starts_iff {t : Text} : starts t ↔ ['/', '/'] <+: t := Text.startsWith_iff

/-- What is kept is determined. -/
theorem read_of_keeps {t k : Text} (h : Keeps t k) : read .code t = k := by
  induction h with
  | nil => rfl
  | comment r =>
    rw [read, Place.cuts, if_pos (starts_slashes r)]
  | @string q s r k hq hs _ ih =>
    have hnext : Place.next (s ++ q :: r) .code q = .string q := by
      simp [Place.next, hq, hs.closes hq r]
    rw [read, Place.cuts, starts_of_isMark hq, if_neg Bool.false_ne_true, hnext,
      read_inside hq hs, ih]
  | @lone q r k hq hr _ ih =>
    have hnext : Place.next r .code q = .code := by
      simp [Place.next, hq, closes_iff hq, hr]
    rw [read, Place.cuts, starts_of_isMark hq, if_neg Bool.false_ne_true, hnext, ih]
  | @char c r k hc hr _ ih =>
    have hnext : Place.next r .code c = .code := by simp [Place.next, hc]
    rw [read, Place.cuts, if_neg (fun h => hr (starts_iff.1 h)), hnext, ih]

/-- Something is kept of every line. -/
theorem exists_keeps (t : Text) : ∃ k, Keeps t k := by
  cases t with
  | nil => exact ⟨[], .nil⟩
  | cons c r =>
    by_cases hc : isMark c
    · by_cases hr : Paired c r
      · obtain ⟨s, x, hs, rfl⟩ := hr
        obtain ⟨k, hk⟩ := exists_keeps x
        exact ⟨c :: (s ++ c :: k), .string hc hs hk⟩
      · obtain ⟨k, hk⟩ := exists_keeps r
        exact ⟨c :: k, .lone hc hr hk⟩
    · by_cases hr : ['/', '/'] <+: c :: r
      · obtain ⟨x, hx⟩ := hr
        exact ⟨[], hx ▸ .comment x⟩
      · obtain ⟨k, hk⟩ := exists_keeps r
        exact ⟨c :: k, .char hc hr hk⟩
termination_by t.length

/-- The line without its comment is what the rule keeps of it. -/
theorem strip_eq_iff {t k : Text} : strip t = k ↔ Keeps t k := by
  obtain ⟨k', hk'⟩ := exists_keeps t
  have hstrip : strip t = k' := by rw [strip_eq_read, read_of_keeps hk']
  constructor
  · intro h
    rw [← h, hstrip]
    exact hk'
  · intro h
    rw [strip_eq_read, read_of_keeps h]

theorem Keeps.isPrefix {t k : Text} (h : Keeps t k) : k <+: t := by
  rw [← strip_eq_iff.2 h]
  exact isPrefix_strip t

/-- What is kept is kept as it is. -/
theorem Keeps.self {t k : Text} (h : Keeps t k) : Keeps k k := by
  induction h with
  | nil => exact .nil
  | comment r => exact .nil
  | string hq hs _ ih => exact .string hq hs ih
  | lone hq hr h ih => exact .lone hq (fun hk => hr (hk.of_isPrefix h.isPrefix)) ih
  | char hc hr h ih =>
    exact .char hc (fun hk => hr (hk.trans (List.prefix_cons_inj _ |>.2 h.isPrefix))) ih

/-- A line that is read again after an unclosed quote is read from further on. -/
theorem strip_of_unclosed {t b a : Text} (h : sweep .code t = .unclosed b a) :
    strip t = b ++ strip a ∧ a.length < t.length := by
  obtain ⟨ht, hb⟩ := sweep_unclosed h
  constructor
  · rw [strip]
    split
    · next hs => rw [h] at hs; cases hs
    · next hs =>
      rw [h] at hs
      cases hs
      rfl
    · next hs => exact absurd h (hs b a)
  · have hpos := List.length_pos_iff.2 hb
    rw [ht, List.length_append]
    omega

/-- **A comment is found by the rule.** Each time that the search starts again after an unclosed
quote, less of the line is left, so that it comes to an end. It keeps what the rule says and nothing
else. This is a beginning of the line, and holds no comment any more. -/
theorem strip_by_rule (t : Text) :
    (∀ b a, sweep .code t = .unclosed b a → strip t = b ++ strip a ∧ a.length < t.length) ∧
    (∀ k, strip t = k ↔ Keeps t k) ∧
    strip t <+: t ∧
    strip (strip t) = strip t := by
  have hkeeps : Keeps t (strip t) := strip_eq_iff.1 rfl
  exact ⟨fun b a h => strip_of_unclosed h, fun k => strip_eq_iff, hkeeps.isPrefix,
    strip_eq_iff.2 hkeeps.self⟩

/-- A line with an apostrophe, a string with escaped quotes and slashes in it, and a comment. -/
def banter : Text := "p: Don't \x22say \\\x22//\\\x22\x22 // hint".toList

/-- The search starts again after the apostrophe, and cuts the line after the string. -/
theorem strip_by_rule_banter :
    let kept : Text := "p: Don't \x22say \\\x22//\\\x22\x22 ".toList
    (∃ b a, sweep .code banter = .unclosed b a ∧ a.length < banter.length) ∧
    Keeps banter kept ∧ kept <+: banter ∧ strip kept = kept := by
  intro kept
  obtain ⟨hagain, hrule, hprefix, htwice⟩ := strip_by_rule banter
  have hkept : strip banter = kept := by
    rw [strip_eq_read]
    decide +kernel
  have hsweep : sweep .code banter =
      .unclosed "p: Don'".toList "t \x22say \\\x22//\\\x22\x22 // hint".toList := rfl
  rw [hkept] at hprefix htwice
  exact ⟨⟨_, _, hsweep, (hagain _ _ hsweep).2⟩, (hrule kept).1 hkept, hprefix, htwice⟩

end ComponentLang.Comment
