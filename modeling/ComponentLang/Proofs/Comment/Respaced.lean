import ComponentLang.Proofs.Comment.OnePass
import ComponentLang.Proofs.Text.Trim

/-!
# Comments do not depend on the space around arrows

* `Neutral t` : `t` holds no quote, no backslash and no slash;
* `exists_read_append_neutral` : at the end of a line, such a text changes nothing;
* `Respaced u v` : the texts differ at most in runs of neutral characters, and there is such a run
  in both or in none;
* `closes_of_respaced` : then the same strings are closed;
* `pass_of_respaced` : and the reading of a line passes both alike.
-/

namespace ComponentLang.Comment

/-- The text holds nothing that a reading of the line heeds. -/
def Neutral (t : Text) : Prop := ∀ c ∈ t, ¬ isMark c ∧ c ≠ '\\' ∧ c ≠ '/'

theorem neutral_of_blank {t : Text} (h : Text.Blank t) : Neutral t := by
  intro c hc
  have hb := h c hc
  refine ⟨fun hm => ?_, ?_, ?_⟩
  · rcases Bool.or_eq_true_iff.1 hm with hm | hm <;> rw [of_decide_eq_true hm] at hb <;>
      exact absurd hb (by decide)
  · rintro rfl
    exact absurd hb (by decide)
  · rintro rfl
    exact absurd hb (by decide)

theorem Neutral.append {t u : Text} (ht : Neutral t) (hu : Neutral u) : Neutral (t ++ u) := by
  intro c hc
  rcases List.mem_append.1 hc with hc | hc
  · exact ht c hc
  · exact hu c hc

/-! ## Neutral characters -/

/-- Characters that are neither quotes nor backslashes close no string. -/
theorem closes_quiet {q : Char} (hq : isMark q) {b : Text} (hb : ∀ c ∈ b, ¬ isMark c ∧ c ≠ '\\')
    (hne : b ≠ []) (escaped : Bool) (r : Text) : closes q escaped (b ++ r) = closes q false r := by
  induction b generalizing escaped with
  | nil => exact absurd rfl hne
  | cons c b ih =>
    obtain ⟨hmark, hback⟩ := hb c List.mem_cons_self
    have hcq : c ≠ q := by
      rintro rfl
      exact hmark hq
    have hone : closes q escaped (c :: (b ++ r)) = closes q false (b ++ r) := by
      cases escaped <;> simp [closes, hback, hcq]
    rw [List.cons_append, hone]
    by_cases hnil : b = []
    · rw [hnil, List.nil_append]
    · exact ih (fun d hd => hb d (List.mem_cons_of_mem _ hd)) hnil false

theorem Neutral.quiet {b : Text} (hb : Neutral b) : ∀ c ∈ b, ¬ isMark c ∧ c ≠ '\\' :=
  fun c hc => ⟨(hb c hc).1, (hb c hc).2.1⟩

/-- Neutral characters at the end close no string. -/
theorem closes_append_neutral {q : Char} (hq : isMark q) {b : Text} (hb : Neutral b)
    (escaped : Bool) (t : Text) : closes q escaped (t ++ b) = closes q escaped t := by
  induction t generalizing escaped with
  | nil =>
    by_cases hnil : b = []
    · rw [hnil]
      rfl
    · have hend := closes_quiet hq hb.quiet hnil escaped []
      rw [List.append_nil] at hend
      rw [List.nil_append, hend]
      cases escaped <;> rfl
  | cons c t ih => cases escaped <;> simp [closes, ih]

namespace Place

/-- A string that is open was opened by a quote. -/
def Marked : Place → Prop
  | .code => True
  | .string q => isMark q
  | .escape q => isMark q

/-- The place after neutral characters. -/
def calm : Place → Place
  | .escape q => .string q
  | p => p

theorem Marked.next {p : Place} (hp : p.Marked) (r : Text) (c : Char) : (p.next r c).Marked := by
  cases p with
  | code =>
    rw [Place.next]
    split_ifs with h
    · exact (Bool.and_eq_true_iff.1 h).1
    · trivial
  | string q =>
    rw [Place.next]
    split_ifs
    · exact hp
    · trivial
    · exact hp
  | escape q => exact hp

theorem next_neutral {p : Place} (hp : p.Marked) {c : Char} (hc : ¬ isMark c ∧ c ≠ '\\' ∧ c ≠ '/')
    (r : Text) : p.next r c = p.calm := by
  obtain ⟨hmark, hback, _⟩ := hc
  cases p with
  | code => simp [Place.next, hmark, calm]
  | string q =>
    have hcq : c ≠ q := by
      rintro rfl
      exact hmark hp
    simp [Place.next, hback, hcq, calm]
  | escape q => rfl

theorem calm_calm (p : Place) : p.calm.calm = p.calm := by cases p <;> rfl

theorem cuts_of_ne {c : Char} (hc : c ≠ '/') (p : Place) (r : Text) : p.cuts (c :: r) = false := by
  cases p with
  | code => simp [Place.cuts, starts_cons, hc]
  | _ => rfl

theorem Marked.calm {p : Place} (hp : p.Marked) : p.calm.Marked := by cases p <;> exact hp

end Place

theorem pass_neutral {x : Text} {p : Place} (hp : p.Marked) {b : Text} (hb : Neutral b)
    (hne : b ≠ []) (t : Text) : pass x p (b ++ t) = pass x p.calm t := by
  induction b generalizing p with
  | nil => exact absurd rfl hne
  | cons c b ih =>
    have hc := hb c List.mem_cons_self
    rw [List.cons_append, pass, Place.cuts_of_ne hc.2.2, if_neg Bool.false_ne_true,
      Place.next_neutral hp hc]
    by_cases hnil : b = []
    · rw [hnil, List.nil_append]
    · rw [ih hp.calm (fun d hd => hb d (List.mem_cons_of_mem _ hd)) hnil, Place.calm_calm]

theorem pass_code_neutral {x b : Text} (hb : Neutral b) (t : Text) :
    pass x .code (b ++ t) = pass x .code t := by
  by_cases hnil : b = []
  · rw [hnil, List.nil_append]
  · exact pass_neutral (p := .code) trivial hb hnil t

theorem Place.Marked.pass {x : Text} {p p' : Place} (hp : p.Marked) {t : Text}
    (h : Comment.pass x p t = some p') : p'.Marked := by
  induction t generalizing p with
  | nil =>
    cases h
    exact hp
  | cons c t ih =>
    rw [Comment.pass] at h
    split_ifs at h
    exact ih (hp.next _ _) h

theorem read_code_append {b : Text} (hb : Neutral b) (t : Text) :
    read .code (b ++ t) = b ++ read .code t := by
  have hpass := pass_code_neutral (x := t) hb []
  rw [List.append_nil] at hpass
  exact read_append hpass

/-- In code, a comment after blanks is cut off. -/
theorem read_code_comment {b z : Text} (hb : Neutral b) (hz : starts z) :
    read .code (b ++ z) = b := by
  obtain ⟨w, rfl⟩ := exists_slashes hz
  rw [read_code_append hb, read, if_pos (show Place.code.cuts ('/' :: '/' :: w) from hz),
    List.append_nil]

theorem read_neutral {b : Text} (hb : Neutral b) (p : Place) : read p b = b := by
  induction b generalizing p with
  | nil => rfl
  | cons c b ih =>
    have hc := (hb c List.mem_cons_self).2.2
    rw [read, Place.cuts_of_ne hc, if_neg Bool.false_ne_true,
      ih (fun d hd => hb d (List.mem_cons_of_mem _ hd))]

/-- Neutral characters at the end are part of the code or of the comment, and change nothing else. -/
theorem exists_read_append_neutral {b : Text} (hb : Neutral b) (p : Place) (t : Text) :
    ∃ z, (z = [] ∨ z = b) ∧ read p (t ++ b) = read p t ++ z := by
  induction t generalizing p with
  | nil => exact ⟨b, Or.inr rfl, read_neutral hb p⟩
  | cons c t ih =>
    have hslash : (t ++ b).head? = some '/' ↔ t.head? = some '/' := by
      cases t with
      | nil =>
        refine iff_of_false (fun h => ?_) (by simp)
        exact (hb '/' (List.mem_of_head? h)).2.2 rfl
      | cons d t => rfl
    have hcuts : p.cuts (c :: (t ++ b)) = p.cuts (c :: t) := by
      cases p with
      | code => simp only [Place.cuts, starts_cons, hslash]
      | _ => rfl
    have hnext : p.next (t ++ b) c = p.next t c := by
      cases p with
      | code =>
        by_cases hm : isMark c
        · simp only [Place.next, closes_append_neutral hm hb]
        · simp [Place.next, hm]
      | _ => rfl
    rw [List.cons_append, read, read, hcuts, hnext]
    split_ifs
    · exact ⟨[], Or.inl rfl, rfl⟩
    · obtain ⟨z, hz, hread⟩ := ih (p.next t c)
      exact ⟨z, hz, by rw [hread, List.cons_append]⟩

/-- The returns at the end of a line do not matter for its code. -/
theorem trim_strip_dropReturns (l : Text) :
    Text.trim (strip (Text.dropReturns l)) = Text.trim (strip l) := by
  obtain ⟨returns, hreturns, hl⟩ := Text.exists_dropReturns l
  obtain ⟨z, hz, hread⟩ :=
    exists_read_append_neutral (neutral_of_blank hreturns) .code (Text.dropReturns l)
  have hblank : Text.Blank z := by
    rcases hz with rfl | rfl
    · exact Text.blank_nil
    · exact hreturns
  have hpad := Text.trim_append_blank hblank (read .code (Text.dropReturns l))
  rw [← hread, ← hl] at hpad
  rw [strip_eq_read, strip_eq_read, hpad]

/-- A comment starts after blanks only if no string is open before them. -/
theorem eq_code_of_read {p : Place} (hp : p.Marked) {b z : Text} (hb : Neutral b) (hz : z ≠ [])
    (h : read p (b ++ z) = b) : p = .code := by
  have hread : ∀ p' : Place, pass z p b = some p' → read p' z = [] := by
    intro p' hpass
    rw [read_append hpass] at h
    exact List.append_cancel_left (h.trans (List.append_nil b).symm)
  have hpass : pass z p b = some p ∨ pass z p b = some p.calm := by
    by_cases hnil : b = []
    · rw [hnil]
      exact Or.inl rfl
    · have := pass_neutral (x := z) hp hb hnil []
      rw [List.append_nil] at this
      exact Or.inr this
  obtain ⟨c, r, rfl⟩ := List.exists_cons_of_ne_nil hz
  -- inside a string the reading goes on
  cases p with
  | code => rfl
  | string q => rcases hpass with hpass | hpass <;> cases hread _ hpass
  | escape q => rcases hpass with hpass | hpass <;> cases hread _ hpass

/-! ## Respaced texts -/

/-- The texts differ at most in runs of neutral characters. -/
inductive Respaced : Text → Text → Prop where
  | nil : Respaced [] []
  | keep (c : Char) {u v : Text} (h : Respaced u v) : Respaced (c :: u) (c :: v)
  | run {b b' u v : Text} (hb : Neutral b) (hne : b ≠ []) (hb' : Neutral b') (hne' : b' ≠ [])
      (h : Respaced u v) : Respaced (b ++ u) (b' ++ v)

theorem respaced_refl (t : Text) : Respaced t t := by
  induction t with
  | nil => exact .nil
  | cons c t ih => exact .keep c ih

theorem Respaced.append_left {u v : Text} (h : Respaced u v) (t : Text) :
    Respaced (t ++ u) (t ++ v) := by
  induction t with
  | nil => exact h
  | cons c t ih => exact .keep c ih

section

variable {x y u v : Text}

/-- The same strings are closed, whatever stands before. -/
theorem closes_of_respaced {q : Char} (hq : isMark q)
    (hxy : ∀ escaped, closes q escaped x = closes q escaped y) (h : Respaced u v)
    (escaped : Bool) : closes q escaped (u ++ x) = closes q escaped (v ++ y) := by
  induction h generalizing escaped with
  | nil => exact hxy escaped
  | keep c h ih => cases escaped <;> simp [closes, ih]
  | run hb hne hb' hne' h ih =>
    rw [List.append_assoc, List.append_assoc, closes_quiet hq hb.quiet hne,
      closes_quiet hq hb'.quiet hne']
    exact ih false

/-- Only a slash that was there before comes to stand at the start. -/
theorem head?_of_respaced (hy : y.head? ≠ some '/') (h : Respaced u v)
    (hv : (v ++ y).head? = some '/') : (u ++ x).head? = some '/' := by
  cases h with
  | nil => exact absurd hv hy
  | keep c h => exact hv
  | run hb hne hb' hne' h =>
    next b b' u v =>
    cases b' with
    | nil => exact absurd rfl hne'
    | cons c b' => exact absurd (Option.some.inj hv) (hb' c List.mem_cons_self).2.2

/-- A reading that passes the one text passes the other, and stands where it stood. -/
theorem pass_of_respaced (hxy : ∀ q, isMark q → ∀ escaped, closes q escaped x = closes q escaped y)
    (hy : y.head? ≠ some '/') (h : Respaced u v) {p p' : Place} (hp : p.Marked)
    (hpass : pass x p u = some p') : pass y p v = some p' := by
  induction h generalizing p with
  | nil => exact hpass
  | @keep c u v h ih =>
    rw [pass] at hpass ⊢
    split_ifs at hpass with hcut
    have hcut' : ¬ p.cuts (c :: (v ++ y)) := by
      intro hv
      cases p with
      | code =>
        rw [Place.cuts, starts_cons, Bool.and_eq_true_iff, decide_eq_true_eq, decide_eq_true_eq] at hv
        refine hcut ?_
        rw [Place.cuts, starts_cons, Bool.and_eq_true_iff, decide_eq_true_eq, decide_eq_true_eq]
        exact ⟨hv.1, head?_of_respaced hy h hv.2⟩
      | string q => cases hv
      | escape q => cases hv
    have hnext : p.next (v ++ y) c = p.next (u ++ x) c := by
      cases p with
      | code =>
        by_cases hm : isMark c
        · simp only [Place.next, closes_of_respaced hm (hxy c hm) h false]
        · simp [Place.next, hm]
      | string q => rfl
      | escape q => rfl
    rw [if_neg hcut', hnext]
    exact ih (hp.next _ _) hpass
  | run hb hne hb' hne' h ih =>
    rw [pass_neutral hp hb hne] at hpass
    rw [pass_neutral hp hb' hne']
    exact ih hp.calm hpass

end

end ComponentLang.Comment
