import ComponentLang.Comment
import ComponentLang.Proofs.Text.Basic

/-!
# Finding a comment in one pass

A line can be read once from left to right, if it may be asked of each quote whether its string is
closed anywhere later in the line.

* `closes q` : the string opened by `q` is closed, be it in the code or in the comment;
* `Place.next` : where the reading stands after one more character;
* `Place.cuts` : the comment starts here;
* `read` : the part of the line before the comment;
* `strip_eq_read` : this is the line without its comment;
* `pass` : the reading of a beginning of the line that meets no comment there;
* `read_append`, `exists_pass` : how a reading divides at such a beginning.
-/

namespace ComponentLang.Comment

/-- The string that `q` has opened is closed in the text; `escaped` tells if a backslash stands
right before it. -/
def closes (q : Char) : Bool → Text → Bool
  | _, [] => false
  | true, _ :: r => closes q false r
  | false, c :: r => if c = '\\' then closes q true r else c = q || closes q false r

namespace Place

/-- Where the reading stands after the character `c`, if `r` follows. -/
def next (r : Text) : Place → Char → Place
  | .code, c => if isMark c && closes c false r then .string c else .code
  | .string q, c => if c = '\\' then .escape q else if c = q then .code else .string q
  | .escape q, _ => .string q

/-- The comment starts here. -/
def cuts : Place → Text → Bool
  | .code, t => starts t
  | .string _, _ => false
  | .escape _, _ => false

/-- A string that is open at this place is closed in the text. -/
def Closed : Place → Text → Prop
  | .code, _ => True
  | .string q, t => closes q false t
  | .escape q, t => closes q true t

end Place

/-- The part of the text before the comment. -/
def read : Place → Text → Text
  | _, [] => []
  | p, c :: r => if p.cuts (c :: r) then [] else c :: read (p.next r c) r

/-! ## Slashes -/

theorem starts_cons (c : Char) (r : Text) : starts (c :: r) = (c = '/' && r.head? = some '/') := by
  by_cases hc : c = '/'
  · subst hc
    cases r with
    | nil => rfl
    | cons d r =>
      by_cases hd : d = '/'
      · subst hd
        rfl
      · simp [starts, Text.startsWith, Text.after?, hd, Ne.symm hd]
  · simp [starts, Text.startsWith, Text.after?, hc, Ne.symm hc]

theorem exists_slashes {z : Text} (h : starts z) : ∃ w, z = '/' :: '/' :: w := by
  obtain ⟨w, hw⟩ := Text.startsWith_iff.1 h
  exact ⟨w, hw.symm⟩

theorem starts_slashes (w : Text) : starts ('/' :: '/' :: w) := Text.startsWith_iff.2 ⟨w, rfl⟩

/-! ## The reading that starts again -/

theorem grow_eq_dangling {c : Char} {s : Sweep} : s.grow c = .dangling ↔ s = .dangling := by
  cases s <;> simp [Sweep.grow]

theorem sweep_code_ne (t : Text) : sweep .code t ≠ .dangling := by
  induction t with
  | nil => simp [sweep]
  | cons c r ih =>
    rw [sweep]
    split_ifs
    · split
      · simp
      · next hne => exact fun h => hne (grow_eq_dangling.1 h)
    · simp
    · exact fun h => ih (grow_eq_dangling.1 h)

/-- A string that is open stays so if and only if nothing closes it. -/
theorem closed_iff {p : Place} {t : Text} : p.Closed t ↔ sweep p t ≠ .dangling := by
  induction t generalizing p with
  | nil => cases p <;> simp [Place.Closed, closes, sweep]
  | cons c r ih =>
    cases p with
    | code => exact iff_of_true trivial (sweep_code_ne _)
    | string q =>
      rw [sweep, Place.Closed, closes]
      split_ifs with hc hq
      · rw [Ne, grow_eq_dangling]
        exact ih (p := .escape q)
      · rw [Ne, grow_eq_dangling]
        simp [hq, sweep_code_ne]
      · rw [Ne, grow_eq_dangling]
        have hstring := ih (p := .string q)
        simpa [Place.Closed, hq] using hstring
    | escape q =>
      rw [sweep, Ne, grow_eq_dangling]
      exact ih (p := .string q)

/-- What a pass keeps, told by one reading of the text. -/
def Sweep.kept (t : Text) : Sweep → Text
  | .comment before => before
  | .unclosed before after => before ++ read .code after
  | _ => t

theorem kept_grow (c : Char) (r : Text) (s : Sweep) :
    (s.grow c).kept (c :: r) = c :: s.kept r := by
  cases s <;> rfl

theorem starts_of_isMark {c : Char} (h : isMark c) (r : Text) : starts (c :: r) = false := by
  have hc : c ≠ '/' := by
    rintro rfl
    exact absurd h (by decide)
  simp [starts_cons, hc]

theorem read_eq_kept {p : Place} {t : Text} (h : p.Closed t) : read p t = (sweep p t).kept t := by
  induction t generalizing p with
  | nil => cases p <;> rfl
  | cons c r ih =>
    cases p with
    | code =>
      rw [read, sweep, Place.cuts]
      split_ifs with hs hc hc
      · rw [starts_of_isMark hc] at hs
        cases hs
      · rfl
      · -- at a quote that nothing closes, one reading goes on in code and the other starts again
        by_cases hclosed : (Place.string c).Closed r
        · have hnext : Place.next r .code c = .string c := by
            simp only [Place.next, hc, Bool.true_and]
            exact if_pos hclosed
          rw [hnext, ih hclosed]
          split
          · next hd => exact absurd hd (closed_iff.1 hclosed)
          · exact (kept_grow c r _).symm
        · have hnext : Place.next r .code c = .code := by
            simp only [Place.next, hc, Bool.true_and]
            exact if_neg hclosed
          have hd : sweep (.string c) r = .dangling :=
            Classical.not_not.1 fun h => hclosed (closed_iff.2 h)
          rw [hnext, hd]
          rfl
      · have hnext : Place.next r .code c = .code := by simp [Place.next, hc]
        rw [hnext, ih (p := .code) trivial, kept_grow]
    | string q =>
      rw [read, sweep, Place.cuts, if_neg Bool.false_ne_true]
      rw [Place.Closed, closes] at h
      rw [Place.next]
      split_ifs at h ⊢ with hc hq
      · rw [ih (p := .escape q) h, kept_grow]
      · rw [ih (p := .code) trivial, kept_grow]
      · have hclosed : closes q false r := by simpa [hq] using h
        rw [ih (p := .string q) hclosed, kept_grow]
    | escape q =>
      rw [read, sweep, Place.cuts, if_neg Bool.false_ne_true, Place.next,
        ih (p := .string q) h, kept_grow]

/-- **A comment is found in one pass.** -/
theorem strip_eq_read (t : Text) : strip t = read .code t := by
  fun_induction strip t with
  | case1 t before h => rw [read_eq_kept (p := .code) trivial, h]; rfl
  | case2 t before after h ih => rw [read_eq_kept (p := .code) trivial, h, ih]; rfl
  | case3 t h h' =>
    rw [read_eq_kept (p := .code) trivial]
    cases hs : sweep .code t with
    | comment before => exact absurd hs (h before)
    | unclosed before after => exact absurd hs (h' before after)
    | _ => rfl

/-- The text is what is kept of it, and then a comment if anything. -/
theorem exists_read (p : Place) (t : Text) : ∃ z, t = read p t ++ z ∧ (z = [] ∨ starts z) := by
  induction t generalizing p with
  | nil => exact ⟨[], rfl, Or.inl rfl⟩
  | cons c r ih =>
    rw [read]
    split_ifs with hcut
    · refine ⟨c :: r, rfl, Or.inr ?_⟩
      cases p with
      | code => exact hcut
      | string q => cases hcut
      | escape q => cases hcut
    · obtain ⟨z, hz, hstart⟩ := ih (p.next r c)
      exact ⟨z, by rw [List.cons_append, ← hz], hstart⟩

theorem isPrefix_strip (t : Text) : strip t <+: t := by
  obtain ⟨z, hz, _⟩ := exists_read .code t
  rw [strip_eq_read]
  exact ⟨z, hz.symm⟩

/-! ## Reading a beginning -/

/-- Where the reading stands after a text, before which `p` is the place and after which `x`
follows, if no comment starts in it. -/
def pass (x : Text) : Place → Text → Option Place
  | p, [] => some p
  | p, c :: r => if p.cuts (c :: (r ++ x)) then none else pass x (p.next (r ++ x) c) r

theorem read_append {x : Text} {p p' : Place} {t : Text} (h : pass x p t = some p') :
    read p (t ++ x) = t ++ read p' x := by
  induction t generalizing p with
  | nil =>
    cases h
    rfl
  | cons c r ih =>
    rw [pass] at h
    split_ifs at h with hcut
    rw [List.cons_append, read, if_neg hcut, ih h, List.cons_append]

/-- A beginning that is kept is passed. -/
theorem exists_pass {x : Text} {p : Place} {t : Text} (h : t.length ≤ (read p (t ++ x)).length) :
    ∃ p', pass x p t = some p' := by
  induction t generalizing p with
  | nil => exact ⟨p, rfl⟩
  | cons c r ih =>
    rw [List.cons_append, read] at h
    rw [pass]
    split_ifs at h ⊢ with hcut
    · cases h
    · exact ih (Nat.le_of_succ_le_succ h)

end ComponentLang.Comment
