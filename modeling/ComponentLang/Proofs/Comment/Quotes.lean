import ComponentLang.Nesting
import ComponentLang.Proofs.Comment.Rule

/-!
# Quotes before a comment and around slashes

Two slashes after a blank begin a comment, unless they stand in a string. Such a string is opened by a
quote of the code that has no match in the code, but one in the text after the slashes.

* `Loose q r` : `q` is a quote of the code `r`, outside its strings, that has no match in `r`;
* `inside_append` : the string that such a quote opens goes on behind the code;
* `keeps_remark` : slashes after a blank begin a comment if no loose quote has a match behind them;
* `exists_keeps_past` : otherwise the line goes on after them;
* `strip_remark_iff` : so this is what decides;
* `keeps_plain` : a text without quotes is kept up to its first two slashes;
* `keeps_quoted`, `not_slashes_of_keeps` : a quoted text is kept as a whole if its quotes open strings
  for a comment, or if there are no slashes in it;
* `quoted_isPrefix_strip_iff` : and only then.
-/

namespace ComponentLang.Comment

/-- A quote `q` stands in the text outside strings, and has no match there. -/
inductive Loose (q : Char) : Text → Prop where
  | here {r : Text} (hq : isMark q) (hr : ¬ Paired q r) : Loose q (q :: r)
  | lone {m : Char} {r : Text} (hm : isMark m) (hr : ¬ Paired m r) (h : Loose q r) : Loose q (m :: r)
  | string {m : Char} {s r : Text} (hm : isMark m) (hs : Inside m s) (h : Loose q r) :
      Loose q (m :: (s ++ m :: r))
  | char {c : Char} {r : Text} (hc : ¬ isMark c) (h : Loose q r) : Loose q (c :: r)

/-! ## Strings that go on -/

theorem Inside.append {q : Char} {s t : Text} (hs : Inside q s) (ht : Inside q t) :
    Inside q (s ++ t) := by
  induction hs with
  | nil => exact ht
  | char hq hb _ ih => exact .char hq hb ih
  | escaped c _ ih => exact .escaped c ih

/-- What is inside a string holds no match for its quote. -/
theorem Inside.paired_append {q : Char} (hq : isMark q) {s : Text} (hs : Inside q s) (t : Text) :
    Paired q (s ++ t) ↔ Paired q t := by
  have hcloses : Comment.closes q false (s ++ t) = Comment.closes q false t := by
    induction hs with
    | nil => rfl
    | char hc hb _ ih => simp [Comment.closes, hc, hb, ih]
    | escaped c _ ih => simp [Comment.closes, ih]
  rw [← closes_iff hq, ← closes_iff hq, hcloses]

/-- A text without a match is inside the string, together with a next character that a backslash at
its end may take with it. -/
theorem inside_append {q d : Char} (hd : d ≠ q ∧ d ≠ '\\') {t : Text} (ht : ¬ Paired q t) :
    Inside q (t ++ [d]) := by
  cases t with
  | nil => exact .char hd.1 hd.2 .nil
  | cons c r =>
    by_cases hb : c = '\\'
    · subst hb
      cases r with
      | nil => exact .escaped d .nil
      | cons e r => exact .escaped e (inside_append hd (t := r) fun hr => ht (hr.escaped e))
    · have hc : c ≠ q := by
        rintro rfl
        exact ht (paired_self c r)
      exact .char hc hb (inside_append hd (t := r) fun hr => ht (hr.char hc hb))

section

variable {q : Char} (hq : isMark q) {r : Text} (hr : ¬ Paired q r)
include hq hr

/-- The string that a loose quote opens goes on after the slashes. -/
theorem inside_remark : Inside q (r ++ [' ', '/', '/']) := by
  have hblank : ' ' ≠ q ∧ ' ' ≠ '\\' := by
    refine ⟨?_, by decide⟩
    rintro rfl
    exact absurd hq (by decide)
  have hslash : '/' ≠ q := (ne_slash hq).symm
  have hslashes : Inside q ['/', '/'] := .char hslash (by decide) (.char hslash (by decide) .nil)
  have hinside := (inside_append hblank hr).append hslashes
  rwa [List.append_assoc] at hinside

theorem paired_remark_iff (c : Text) :
    Paired q (r ++ ' ' :: '/' :: '/' :: c) ↔ Paired q c := by
  have hiff := (inside_remark hq hr).paired_append hq c
  rwa [List.append_assoc] at hiff

end

/-! ## Slashes -/

theorem slashes_prefix_cons {c : Char} {r : Text} :
    ['/', '/'] <+: c :: r ↔ c = '/' ∧ r.head? = some '/' := by
  rw [← starts_iff, starts_cons]
  simp

theorem not_slashes_append {c : Char} {r x : Text} (h : ¬ ['/', '/'] <+: c :: r)
    (hx : x.head? ≠ some '/') : ¬ ['/', '/'] <+: c :: (r ++ x) := by
  rw [slashes_prefix_cons] at h ⊢
  cases r with
  | nil => exact fun hc => hx hc.2
  | cons d r => exact h

theorem infix_string (q : Char) (s r : Text) : r <:+: q :: (s ++ q :: r) :=
  List.infix_cons ((List.suffix_cons q r).trans (List.suffix_append s (q :: r))).isInfix

/-! ## What a comment holds -/

/-- Slashes after a blank begin a comment, if no loose quote takes them into a string. -/
theorem keeps_remark {r c : Text} (hr : ¬ ['/', '/'] <:+: r) (h : ∀ q, Loose q r → ¬ Paired q c) :
    Keeps (r ++ ' ' :: '/' :: '/' :: c) (r ++ [' ']) := by
  obtain ⟨k, hk⟩ := exists_keeps r
  induction hk with
  | nil => exact .char (by decide) (by simp) (.comment c)
  | comment r => exact absurd (List.prefix_append ['/', '/'] r).isInfix hr
  | @string q s r k hq hs _ ih =>
    have hkeeps := ih (fun hslash => hr (hslash.trans (infix_string q s r)))
      fun m hm => h m (.string hq hs hm)
    simpa using Keeps.string hq hs hkeeps
  | @lone q r k hq hrest _ ih =>
    have hkeeps := ih (fun hslash => hr (List.infix_cons hslash)) fun m hm => h m (.lone hq hrest hm)
    have hremark : ¬ Paired q (r ++ ' ' :: '/' :: '/' :: c) := by
      rw [paired_remark_iff hq hrest]
      exact h q (.here hq hrest)
    exact .lone hq hremark hkeeps
  | @char d r k hd hslash _ ih =>
    have hkeeps := ih (fun hslash => hr (List.infix_cons hslash)) fun m hm => h m (.char hd hm)
    exact .char hd (not_slashes_append hslash (by simp)) hkeeps

/-- A quote without a match before the slashes and with one after them takes them into a string. -/
theorem exists_keeps_string {q : Char} (hq : isMark q) {r c : Text} (hr : ¬ Paired q r)
    (hc : Paired q c) :
    ∃ k ≠ [], Keeps (q :: (r ++ ' ' :: '/' :: '/' :: c)) (q :: (r ++ ' ' :: k)) := by
  obtain ⟨s, x, hs, rfl⟩ := hc
  obtain ⟨k, hk⟩ := exists_keeps x
  have hkeeps := Keeps.string hq ((inside_remark hq hr).append hs) hk
  exact ⟨'/' :: '/' :: (s ++ q :: k), by simp, by simpa using hkeeps⟩

/-- If a loose quote has a match after the slashes, then the line goes on after them. -/
theorem exists_keeps_past {q : Char} {r c : Text} (hr : ¬ ['/', '/'] <:+: r) (hq : Loose q r)
    (hc : Paired q c) :
    ∃ k ≠ [], Keeps (r ++ ' ' :: '/' :: '/' :: c) (r ++ ' ' :: k) := by
  induction hq with
  | here hq hrest => exact exists_keeps_string hq hrest hc
  | @lone m r hm hrest _ ih =>
    -- this quote may have a match after the slashes as well, and it comes first
    by_cases hmc : Paired m c
    · exact exists_keeps_string hm hrest hmc
    · obtain ⟨k, hk, hkeeps⟩ := ih fun hslash => hr (List.infix_cons hslash)
      rw [← paired_remark_iff hm hrest] at hmc
      exact ⟨k, hk, .lone hm hmc hkeeps⟩
  | @string m s r hm hs _ ih =>
    obtain ⟨k, hk, hkeeps⟩ := ih fun hslash => hr (hslash.trans (infix_string m s r))
    exact ⟨k, hk, by simpa using Keeps.string hm hs hkeeps⟩
  | @char d r hd _ ih =>
    obtain ⟨k, hk, hkeeps⟩ := ih fun hslash => hr (List.infix_cons hslash)
    have hslash : ¬ ['/', '/'] <+: d :: r := fun hslash => hr hslash.isInfix
    exact ⟨k, hk, .char hd (not_slashes_append hslash (by simp)) hkeeps⟩

/-- **A comment after a blank is cut off, unless a loose quote of the code has a match in it.** -/
theorem strip_remark_iff {r : Text} (hr : ¬ ['/', '/'] <:+: r) (c : Text) :
    strip (r ++ " //".toList ++ c) = r ++ " ".toList ↔ ∀ q, Loose q r → ¬ Paired q c := by
  have hline : r ++ " //".toList ++ c = r ++ ' ' :: '/' :: '/' :: c := by simp
  rw [hline, strip_eq_iff]
  constructor
  · intro h q hq hc
    obtain ⟨k, hk, hpast⟩ := exists_keeps_past hr hq hc
    have hsame := (read_of_keeps h).symm.trans (read_of_keeps hpast)
    have hnil := List.append_cancel_left hsame
    exact hk (List.cons.inj hnil).2.symm
  · exact keeps_remark hr

/-- The apostrophe is loose, and the quotes in the comment are of the other kind or escaped. -/
theorem strip_remark_dont :
    let r : Text := "Don't".toList
    let c : Text := " \x22so\x22 isn\\'t".toList
    ¬ ['/', '/'] <:+: r ∧ Loose '\x27' r ∧ ¬ Paired '\x27' c ∧ Paired '\x22' c ∧
      strip (r ++ " //".toList ++ c) = r ++ " ".toList := by
  intro r c
  have hr : ¬ ['/', '/'] <:+: r := by decide
  have hloose : Loose '\x27' r := by
    have hrest : ¬ Paired '\x27' ['t'] := by
      rw [← closes_iff (by decide)]
      decide
    exact .char (by decide) (.char (by decide) (.char (by decide) (.here (by decide) hrest)))
  have hstrip : strip (r ++ " //".toList ++ c) = r ++ " ".toList := by
    rw [strip_eq_read]
    decide +kernel
  have hpaired : Paired '\x22' c := (closes_iff (by decide)).1 (by decide)
  exact ⟨hr, hloose, (strip_remark_iff hr c).1 hstrip _ hloose, hpaired, hstrip⟩

/-- So what stands after the slashes can change what is code: here it closes a string. -/
theorem not_strip_remark_see :
    ¬ ∀ r c : Text, ¬ ['/', '/'] <:+: r → '\n' ∉ c →
      strip (r ++ " //".toList ++ c) = r ++ " ".toList := by
  intro h
  have hsee := h "p: \x22see".toList " here\x22".toList (by decide +kernel) (by decide +kernel)
  rw [strip_eq_read] at hsee
  exact absurd hsee (by decide +kernel)

/-! ## Quoted texts -/

/-- A text without quotes and slashes is kept, and the rule goes on behind it. -/
theorem keeps_plain {u x k : Text} (hu : ∀ c ∈ u, ¬ isMark c) (hslash : ¬ ['/', '/'] <:+: u)
    (hx : x.head? ≠ some '/') (h : Keeps x k) : Keeps (u ++ x) (u ++ k) := by
  induction u with
  | nil => exact h
  | cons c u ih =>
    rw [List.forall_mem_cons] at hu
    have hrest := ih hu.2 fun hslash' => hslash (List.infix_cons hslash')
    exact .char hu.1 (not_slashes_append (fun hslash' => hslash hslash'.isInfix) hx) hrest

/-- No slashes are kept in a text without quotes. -/
theorem not_slashes_of_keeps {t k b : Text} (h : Keeps t k) (hb : b <+: k)
    (hplain : ∀ c ∈ b, ¬ isMark c) : ¬ ['/', '/'] <:+: b := by
  induction b generalizing t k with
  | nil => simp
  | cons c b ih =>
    obtain ⟨hc, hrest⟩ := List.forall_mem_cons.1 hplain
    cases h with
    | nil => simp at hb
    | comment r => simp at hb
    | string hq hs h => exact absurd ((List.cons_prefix_cons.1 hb).1 ▸ hq) hc
    | lone hq hr h => exact absurd ((List.cons_prefix_cons.1 hb).1 ▸ hq) hc
    | char _ hr h =>
      obtain ⟨rfl, hbk⟩ := List.cons_prefix_cons.1 hb
      intro hslash
      rcases List.infix_cons_iff.1 hslash with hslash | hslash
      · exact hr (hslash.trans ((List.prefix_cons_inj c).2 (hbk.trans h.isPrefix)))
      · exact ih h hbk hrest hslash

/-- Every quote that opens strings for a comment opens strings for brackets and separators. -/
theorem isQuoteMark_of_isMark {c : Char} (h : isMark c) : isQuoteMark c := by
  rw [isQuoteMark, show (decide (c = '\x22') || decide (c = '\x27')) = true from h, Bool.true_or]

theorem not_isMark {c : Char} (h : ¬ isQuoteMark c) : ¬ isMark c :=
  fun hm => h (isQuoteMark_of_isMark hm)

section

variable {q : Char} (hq : isQuoteMark q)
include hq

theorem head?_ne_slash (x : Text) : (q :: x).head? ≠ some '/' := by
  intro h
  rw [Option.some.inj h] at hq
  exact absurd hq (by decide)

theorem not_slashes_quote (x : Text) : ¬ ['/', '/'] <+: q :: x :=
  fun h => head?_ne_slash hq x (congrArg some (slashes_prefix_cons.1 h).1)

/-- A quoted text stays if its quotes open strings, and also if it has no slashes. -/
theorem keeps_quoted {w : Text} (hw : ∀ c ∈ w, ¬ isQuoteMark c ∧ c ≠ '\\')
    (h : isMark q ∨ ¬ ['/', '/'] <:+: w) {v k : Text} (hk : Keeps v k) :
    Keeps (q :: (w ++ q :: v)) (q :: (w ++ q :: k)) := by
  by_cases hm : isMark q
  · have hinside : Inside q w := by
      refine inside_of_forall fun c hc => ⟨?_, (hw c hc).2⟩
      rintro rfl
      exact (hw c hc).1 hq
    exact .string hm hinside hk
  · have hplain : ∀ c ∈ w, ¬ isMark c := fun c hc => not_isMark (hw c hc).1
    have hrest : Keeps (q :: v) (q :: k) := .char hm (not_slashes_quote hq v) hk
    exact .char hm (not_slashes_quote hq _)
      (keeps_plain hplain (h.resolve_left hm) (head?_ne_slash hq v) hrest)

end

/-- **A quoted text before which there is no comment is kept as a whole if and only if its quotes open
strings for a comment or no slashes stand in it.** -/
theorem quoted_isPrefix_strip_iff {q : Char} (hq : isQuoteMark q) {u w : Text}
    (hu : ∀ c ∈ u, ¬ isQuoteMark c) (hw : ∀ c ∈ w, ¬ isQuoteMark c ∧ c ≠ '\\')
    (hslash : ¬ ['/', '/'] <:+: u) (v : Text) :
    u ++ [q] ++ w ++ [q] <+: strip (u ++ [q] ++ w ++ [q] ++ v) ↔
      isMark q ∨ ¬ ['/', '/'] <:+: w := by
  have hplain : ∀ c ∈ u, ¬ isMark c := fun c hc => not_isMark (hu c hc)
  constructor
  · intro hprefix
    by_contra hne
    obtain ⟨hm, hinfix⟩ := not_or.1 hne
    have hquoted : ∀ c ∈ u ++ [q] ++ w ++ [q], ¬ isMark c := by
      simp only [List.mem_append, List.mem_singleton]
      rintro c (((hc | rfl) | hc) | rfl)
      · exact hplain c hc
      · exact hm
      · exact not_isMark (hw c hc).1
      · exact hm
    refine not_slashes_of_keeps (strip_eq_iff.1 rfl) hprefix hquoted ?_
    exact (Classical.not_not.1 hinfix).trans ⟨u ++ [q], [q], by simp⟩
  · intro h
    obtain ⟨k, hk⟩ := exists_keeps v
    have hkeeps := keeps_plain hplain hslash (head?_ne_slash hq _) (keeps_quoted hq hw h hk)
    have hline : u ++ [q] ++ w ++ [q] ++ v = u ++ q :: (w ++ q :: v) := by simp
    rw [hline, strip_eq_iff.2 hkeeps]
    exact ⟨k, by simp⟩

/-- An address keeps its slashes in quotes, and loses them between two backticks. -/
theorem quoted_isPrefix_strip_iff_address :
    let u : Text := "a(href: ".toList
    let w : Text := "https://viand.dev".toList
    isQuoteMark '\x22' ∧ isQuoteMark '\x60' ∧ (∀ c ∈ u, ¬ isQuoteMark c) ∧
      (∀ c ∈ w, ¬ isQuoteMark c ∧ c ≠ '\\') ∧ ¬ ['/', '/'] <:+: u ∧
      u ++ ['\x22'] ++ w ++ ['\x22'] <+: strip (u ++ ['\x22'] ++ w ++ ['\x22'] ++ [')']) ∧
      ¬ u ++ ['\x60'] ++ w ++ ['\x60'] <+: strip (u ++ ['\x60'] ++ w ++ ['\x60'] ++ [')']) := by
  intro u w
  have hu : ∀ c ∈ u, ¬ isQuoteMark c := by
    have hall : u.all fun c => !isQuoteMark c := by decide +kernel
    simpa using hall
  have hw : ∀ c ∈ w, ¬ isQuoteMark c ∧ c ≠ '\\' := by
    have hall : w.all fun c => !isQuoteMark c && c ≠ '\\' := by decide +kernel
    simpa using hall
  have hslash : ¬ ['/', '/'] <:+: u := by decide +kernel
  have hquote := quoted_isPrefix_strip_iff (q := '\x22') (by decide) hu hw hslash [')']
  have hback := quoted_isPrefix_strip_iff (q := '\x60') (by decide) hu hw hslash [')']
  refine ⟨by decide, by decide, hu, hw, hslash, hquote.2 (Or.inl (by decide)), fun h => ?_⟩
  exact absurd (hback.1 h) (by decide +kernel)

/-- So it is not enough that the text is quoted. -/
theorem not_quoted_isPrefix_strip_address :
    ¬ ∀ (q : Char) (u w v : Text), isQuoteMark q →
      (∀ c ∈ u ++ w ++ v, ¬ isQuoteMark c ∧ c ≠ '\\') → ¬ ['/', '/'] <:+: u →
      u ++ [q] ++ w ++ [q] <+: strip (u ++ [q] ++ w ++ [q] ++ v) := by
  intro h
  let u : Text := "p: ".toList
  let w : Text := "https://viand.dev".toList
  have hplain : ∀ c ∈ u ++ w ++ [], ¬ isQuoteMark c ∧ c ≠ '\\' := by
    have hall : (u ++ w ++ []).all fun c => !isQuoteMark c && c ≠ '\\' := by decide +kernel
    exact fun c hc => by simpa using List.all_eq_true.1 hall c hc
  have haddress := h '\x60' u w [] (by decide) hplain (by decide +kernel)
  rw [strip_eq_read] at haddress
  exact absurd haddress (by decide +kernel)

end ComponentLang.Comment
