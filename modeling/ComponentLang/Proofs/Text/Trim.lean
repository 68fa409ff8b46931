import ComponentLang.Proofs.Text.Basic
import ComponentLang.Text.Blank

/-!
# Texts without blanks at their ends

* `Blank t` : all of `t` is white space;
* `Trimmed t` : `t` neither begins nor ends with white space;
* `exists_pad`, `trim_eq` : a text is its trimmed part between blanks, and no other way;
* `trim_eq_nil` : nothing is left of a text that is blank, and of no other;
* `trim_infix` : what stands in a text, and is trimmed, stands in the trimmed text;
* `visible` : what is left of a text without its white space.
-/

namespace ComponentLang.Text

/-- All characters are white space. -/
def Blank (t : Text) : Prop := ∀ c ∈ t, isBlank c

/-- The text neither begins nor ends with white space. -/
def Trimmed (t : Text) : Prop := (∀ c ∈ t.head?, ¬ isBlank c) ∧ ∀ c ∈ t.getLast?, ¬ isBlank c

instance (t : Text) : Decidable (Trimmed t) :=
  decidable_of_iff ((t.head?.all (!isBlank ·) && t.getLast?.all (!isBlank ·)) = true)
    (by rw [Trimmed]; cases t.head? <;> cases t.getLast? <;> simp)

theorem ne_of_isBlank {c d : Char} (hc : isBlank c) (hd : isBlank d = false) : c ≠ d := by
  rintro rfl
  rw [hd] at hc
  cases hc

theorem blank_nil : Blank [] := fun c hc => by cases hc

theorem Blank.append {t u : Text} (ht : Blank t) (hu : Blank u) : Blank (t ++ u) := by
  intro c hc
  rcases List.mem_append.1 hc with hc | hc
  · exact ht c hc
  · exact hu c hc

theorem blank_replicate (n : Nat) : Blank (List.replicate n ' ') := by
  intro c hc
  rw [List.eq_of_mem_replicate hc]
  decide

theorem blank_takeWhile (t : Text) : Blank (t.takeWhile isBlank) :=
  fun _ hc => List.mem_takeWhile_imp hc

/-! ## Either end -/

theorem trimStart_append {lead : Text} (h : Blank lead) (t : Text) :
    trimStart (lead ++ t) = trimStart t := by
  unfold trimStart
  rw [List.dropWhile_append_of_pos h]

theorem trimStart_of_head {t : Text} (h : ∀ c ∈ t.head?, ¬ isBlank c) : trimStart t = t := by
  cases t with
  | nil => rfl
  | cons c t =>
    have hc := h c rfl
    simp [trimStart, hc]

theorem trimEnd_append {tail : Text} (h : Blank tail) (t : Text) :
    trimEnd (t ++ tail) = trimEnd t := dropEndWhile_append h t

theorem trimEnd_of_getLast {t : Text} (h : ∀ c ∈ t.getLast?, ¬ isBlank c) : trimEnd t = t := by
  have hrev : t.reverse.dropWhile isBlank = t.reverse :=
    trimStart_of_head (by rwa [List.head?_reverse])
  rw [trimEnd, dropEndWhile, hrev, List.reverse_reverse]

/-- What is cut at the start does not go beyond a visible character. -/
theorem trimStart_append_visible (t : Text) {u : Text} (h : ∀ c ∈ u.head?, ¬ isBlank c) :
    trimStart (t ++ u) = trimStart t ++ u := by
  have hu := trimStart_of_head h
  unfold trimStart at hu ⊢
  rw [List.dropWhile_append, hu]
  split
  · next hnil => rw [List.isEmpty_iff.1 hnil, List.nil_append]
  · rfl

/-- What is cut at the end does not go beyond a visible character. -/
theorem trimEnd_append_visible {t : Text} (h : ∀ c ∈ t.getLast?, ¬ isBlank c) (u : Text) :
    trimEnd (t ++ u) = t ++ trimEnd u := by
  have hrev := trimStart_append_visible u.reverse (u := t.reverse) (by rwa [List.head?_reverse])
  rw [trimStart, trimStart] at hrev
  rw [trimEnd, trimEnd, dropEndWhile, dropEndWhile, List.reverse_append, hrev, List.reverse_append,
    List.reverse_reverse]

/-- Cutting at the start leaves blanks before the rest. -/
theorem exists_trimStart (t : Text) : ∃ lead, Blank lead ∧ t = lead ++ trimStart t :=
  ⟨t.takeWhile isBlank, blank_takeWhile t, List.takeWhile_append_dropWhile.symm⟩

/-- Cutting at the end leaves blanks after the rest. -/
theorem exists_trimEnd (t : Text) : ∃ tail, Blank tail ∧ t = trimEnd t ++ tail :=
  exists_dropEndWhile isBlank t

theorem head?_trimStart (t : Text) : ∀ c ∈ (trimStart t).head?, ¬ isBlank c := by
  intro c hc
  have h := List.head?_dropWhile_not isBlank t
  rw [trimStart] at hc
  rw [Option.mem_def.1 hc] at h
  simpa using h

theorem getLast?_trimEnd (t : Text) : ∀ c ∈ (trimEnd t).getLast?, ¬ isBlank c := by
  intro c hc
  rw [trimEnd, dropEndWhile, List.getLast?_reverse] at hc
  exact head?_trimStart t.reverse c hc

/-! ## Both ends -/

theorem trimmed_trim (t : Text) : Trimmed (trim t) := by
  refine ⟨?_, getLast?_trimEnd _⟩
  -- what is cut at the end does not reach the start
  intro c hc
  obtain ⟨tail, _, ht⟩ := exists_trimEnd (trimStart t)
  obtain ⟨rest, hrest⟩ := List.head?_eq_some_iff.1 hc
  refine head?_trimStart t c ?_
  rw [ht, ← trim, hrest]
  rfl

theorem trimmed_nil : Trimmed [] := trimmed_trim []

theorem trimmed_of_visible {t : Text} (h : ∀ c ∈ t, ¬ isBlank c) : Trimmed t :=
  ⟨fun c hc => h c (List.mem_of_mem_head? hc), fun c hc => h c (List.mem_of_mem_getLast? hc)⟩

/-- Whatever stands between two visible texts. -/
theorem trimmed_append {t u : Text} (ht : Trimmed t) (hne : t ≠ []) (x : Text) (hu : Trimmed u)
    (hne' : u ≠ []) : Trimmed (t ++ (x ++ u)) := by
  constructor
  · obtain ⟨d, rest, rfl⟩ := List.exists_cons_of_ne_nil hne
    exact ht.1
  · obtain ⟨init, d, rfl⟩ := (List.eq_nil_or_concat u).resolve_left hne'
    have hlast := hu.2
    simpa using hlast

/-- A text is its trimmed part between blanks. -/
theorem exists_pad (t : Text) :
    ∃ lead tail, Blank lead ∧ Blank tail ∧ t = lead ++ (trim t ++ tail) := by
  obtain ⟨lead, hlead, ht⟩ := exists_trimStart t
  obtain ⟨tail, htail, hs⟩ := exists_trimEnd (trimStart t)
  exact ⟨lead, tail, hlead, htail, by rw [trim, ← hs, ← ht]⟩

/-- What stands trimmed between blanks is the trimmed part. -/
theorem trim_eq {lead core tail : Text} (hlead : Blank lead) (hcore : Trimmed core)
    (htail : Blank tail) : trim (lead ++ (core ++ tail)) = core := by
  rw [trim, trimStart_append hlead]
  cases core with
  | nil =>
    rw [List.nil_append, ← List.append_nil tail, trimStart_append htail]
    rfl
  | cons c core =>
    rw [trimStart_of_head (t := c :: core ++ tail) hcore.1, trimEnd_append htail,
      trimEnd_of_getLast hcore.2]

/-- Of a text that goes on after its first visible characters, these stay. -/
theorem trim_append {lead t : Text} (hlead : Blank lead) (ht : Trimmed t) (hne : t ≠ []) (u : Text) :
    trim (lead ++ (t ++ u)) = t ++ trimEnd u := by
  have hhead : ∀ c ∈ (t ++ u).head?, ¬ isBlank c := by
    obtain ⟨d, rest, rfl⟩ := List.exists_cons_of_ne_nil hne
    exact ht.1
  rw [trim, trimStart_append hlead, trimStart_of_head hhead, trimEnd_append_visible ht.2]

theorem Trimmed.trim {t : Text} (h : Trimmed t) : trim t = t := by
  have := trim_eq blank_nil h blank_nil
  rwa [List.nil_append, List.append_nil] at this

theorem trim_trim (t : Text) : trim (trim t) = trim t := (trimmed_trim t).trim

theorem trim_blank_append {lead : Text} (hlead : Blank lead) (t : Text) :
    trim (lead ++ t) = trim t := by
  obtain ⟨lead', tail, hlead', htail, ht⟩ := exists_pad t
  have hsplit : lead ++ t = (lead ++ lead') ++ (trim t ++ tail) := by rw [List.append_assoc, ← ht]
  rw [hsplit]
  exact trim_eq (hlead.append hlead') (trimmed_trim t) htail

theorem trim_append_blank {tail : Text} (htail : Blank tail) (t : Text) :
    trim (t ++ tail) = trim t := by
  obtain ⟨lead, tail', hlead, htail', ht⟩ := exists_pad t
  have hsplit : t ++ tail = lead ++ (trim t ++ (tail' ++ tail)) := by
    rw [← List.append_assoc, ← List.append_assoc, List.append_assoc lead, ← ht]
  rw [hsplit]
  exact trim_eq hlead (trimmed_trim t) (htail'.append htail)

theorem trim_trimStart (t : Text) : trim (trimStart t) = trim t := by
  obtain ⟨lead, hlead, ht⟩ := exists_trimStart t
  have := trim_blank_append hlead (trimStart t)
  rwa [← ht, eq_comm] at this

theorem trim_trimEnd (t : Text) : trim (trimEnd t) = trim t := by
  obtain ⟨tail, htail, ht⟩ := exists_trimEnd t
  have := trim_append_blank htail (trimEnd t)
  rwa [← ht, eq_comm] at this

theorem trim_eq_nil {t : Text} : trim t = [] ↔ Blank t := by
  constructor
  · intro h
    obtain ⟨lead, tail, hlead, htail, ht⟩ := exists_pad t
    rw [h, List.nil_append] at ht
    rw [ht]
    exact hlead.append htail
  · intro h
    have := trim_blank_append h []
    rwa [List.append_nil] at this

/-- What follows a colon is trimmed with the whole. -/
theorem exists_trim_colon {t : Text} (ht : Trimmed t) (v : Text) :
    ∃ r, trim (t ++ ':' :: v) = t ++ ':' :: r ∧ trim r = trim v := by
  have hcolon : Trimmed (t ++ [':']) := by
    refine ⟨fun c hc => ?_, fun c hc => ?_⟩
    · cases t with
      | nil =>
        cases hc
        decide
      | cons d t => exact ht.1 c hc
    · rw [List.getLast?_concat] at hc
      cases hc
      decide
  refine ⟨trimEnd v, ?_, trim_trimEnd v⟩
  have h := trim_append blank_nil hcolon (by simp) v
  simpa using h

theorem trim_subset (t : Text) : trim t ⊆ t := by
  obtain ⟨lead, tail, _, _, ht⟩ := exists_pad t
  intro c hc
  rw [ht]
  exact List.mem_append_right _ (List.mem_append_left _ hc)

theorem trimEnd_subset (t : Text) : trimEnd t ⊆ t := by
  obtain ⟨tail, _, ht⟩ := exists_trimEnd t
  intro c hc
  rw [ht]
  exact List.mem_append_left _ hc

/-- What is cut at either end does not reach a trimmed text in between. -/
theorem trim_append_trimmed {core : Text} (hcore : Trimmed core) (hne : core ≠ []) (a b : Text) :
    trim (a ++ (core ++ b)) = trimStart a ++ (core ++ trimEnd b) := by
  have hhead : ∀ c ∈ (core ++ b).head?, ¬ isBlank c := by
    obtain ⟨d, rest, rfl⟩ := List.exists_cons_of_ne_nil hne
    exact hcore.1
  have hlast : ∀ c ∈ (trimStart a ++ core).getLast?, ¬ isBlank c := by
    obtain ⟨init, d, rfl⟩ := (List.eq_nil_or_concat core).resolve_left hne
    have hlast := hcore.2
    simpa using hlast
  rw [trim, trimStart_append_visible a hhead, ← List.append_assoc, trimEnd_append_visible hlast,
    List.append_assoc]

/-- A text that stands in another, without the blanks at the ends of either. -/
theorem trim_infix {t u : Text} (h : t <:+: u) : trim t <:+: trim u := by
  by_cases hnil : trim t = []
  · rw [hnil]
    exact List.nil_infix
  obtain ⟨a, b, rfl⟩ := h
  obtain ⟨lead, tail, -, -, ht⟩ := exists_pad t
  have hsplit : a ++ t ++ b = (a ++ lead) ++ (trim t ++ (tail ++ b)) :=
    calc a ++ t ++ b = a ++ (lead ++ (trim t ++ tail)) ++ b := by rw [← ht]
      _ = (a ++ lead) ++ (trim t ++ (tail ++ b)) := by simp only [List.append_assoc]
  rw [hsplit, trim_append_trimmed (trimmed_trim t) hnil]
  exact ⟨trimStart (a ++ lead), trimEnd (tail ++ b), List.append_assoc _ _ _⟩

theorem count_trim {c : Char} (hc : ¬ isBlank c) (t : Text) : (trim t).count c = t.count c := by
  obtain ⟨lead, tail, hlead, htail, ht⟩ := exists_pad t
  have hleads : lead.count c = 0 := List.count_eq_zero.2 fun hmem => hc (hlead c hmem)
  have htails : tail.count c = 0 := List.count_eq_zero.2 fun hmem => hc (htail c hmem)
  have hcount := congrArg (List.count c) ht
  rw [List.count_append, List.count_append, hleads, htails, Nat.zero_add, Nat.add_zero] at hcount
  exact hcount.symm

/-! ## Visible characters -/

/-- The characters of the text that are not white space. -/
def visible (t : Text) : Text := t.filter (!isBlank ·)

theorem visible_append (t u : Text) : visible (t ++ u) = visible t ++ visible u :=
  List.filter_append _ _

theorem visible_eq_nil {t : Text} : visible t = [] ↔ Blank t := by
  simp [visible, Blank, List.filter_eq_nil_iff]

theorem visible_trim (t : Text) : visible (trim t) = visible t := by
  obtain ⟨lead, tail, hlead, htail, ht⟩ := exists_pad t
  have h := congrArg visible ht
  rw [visible_append, visible_append, visible_eq_nil.2 hlead, visible_eq_nil.2 htail,
    List.nil_append, List.append_nil] at h
  exact h.symm

theorem head?_visible {t : Text} (h : ∀ c ∈ t.head?, ¬ isBlank c) : (visible t).head? = t.head? := by
  cases t with
  | nil => rfl
  | cons c t => simp [visible, h c rfl]

theorem getLast?_visible {t : Text} (h : ∀ c ∈ t.getLast?, ¬ isBlank c) :
    (visible t).getLast? = t.getLast? := by
  rw [← List.head?_reverse] at h ⊢
  rw [← List.head?_reverse, visible, ← List.filter_reverse]
  exact head?_visible h

/-- A test that fails on blanks looks at visible characters alone. -/
theorem any_visible {f : Char → Bool} (hf : ∀ c, isBlank c → f c = false) (t : Text) :
    (visible t).any f = t.any f := by
  induction t with
  | nil => rfl
  | cons c t ih =>
    rw [List.any_cons, ← ih, visible, List.filter_cons]
    cases hc : isBlank c with
    | true => simp [hf c hc, visible]
    | false => simp [visible]

theorem isNone_nonempty?_trim (t : Text) : (nonempty? (trim t)).isNone = decide (visible t = []) := by
  rw [nonempty?]
  by_cases h : trim t = []
  · rw [if_pos h, decide_eq_true (visible_eq_nil.2 (trim_eq_nil.1 h))]
    rfl
  · rw [if_neg h, decide_eq_false fun hv => h (trim_eq_nil.2 (visible_eq_nil.1 hv))]
    rfl

theorem isSome_nonempty?_trim {t : Text} {c : Char} (h : c ∈ t) (hc : ¬ isBlank c) :
    (nonempty? (trim t)).isSome := by
  have hne : trim t ≠ [] := fun hnil => hc (trim_eq_nil.1 hnil c h)
  rw [nonempty?, if_neg hne]
  rfl

/-! ## Indentation -/

theorem indentWidth_append {lead core : Text} (hlead : Blank lead)
    (hcore : ∀ c ∈ core.head?, ¬ isBlank c) : indentWidth (lead ++ core) = lead.length := by
  have hnone : core.takeWhile isBlank = [] := by
    cases core with
    | nil => rfl
    | cons c core => simp [hcore c rfl]
  rw [indentWidth, List.takeWhile_append_of_pos hlead, hnone, List.append_nil]

/-- The indentation of a text is that of any beginning with a visible character in it. -/
theorem indentWidth_of_isPrefix {a t : Text} (h : a <+: t) (hne : trim a ≠ []) :
    indentWidth t = indentWidth a := by
  obtain ⟨rest, rfl⟩ := h
  obtain ⟨lead, hlead, ha⟩ := exists_trimStart a
  have hhead := head?_trimStart a
  have hcore : trimStart a ≠ [] := by
    intro hnil
    rw [trim, hnil] at hne
    exact hne rfl
  obtain ⟨c, core, hc⟩ := List.exists_cons_of_ne_nil hcore
  rw [hc] at ha hhead
  rw [ha, List.append_assoc, indentWidth_append hlead hhead]
  exact indentWidth_append hlead hhead

/-! ## Carriage returns -/

theorem dropReturns_of_trimmed {lead core : Text} (hcore : Trimmed core) (hne : core ≠ []) :
    dropReturns (lead ++ core) = lead ++ core := by
  obtain ⟨init, c, rfl⟩ := List.eq_nil_or_concat core |>.resolve_left hne
  have hc : ¬ isBlank c := hcore.2 c (by simp)
  have hr : c ≠ '\r' := by
    rintro rfl
    exact hc (by decide)
  simp [dropReturns, dropEndWhile, hr]

theorem dropReturns_of_not_endsWith {t : Text} (h : ¬ endsWith '\r' t) : dropReturns t = t := by
  rcases List.eq_nil_or_concat t with rfl | ⟨init, c, rfl⟩
  · rfl
  · have hc : c ≠ '\r' := by simpa [endsWith] using h
    simp [dropReturns, dropEndWhile, hc]

theorem exists_dropReturns (t : Text) : ∃ tail, Blank tail ∧ t = dropReturns t ++ tail := by
  obtain ⟨tail, htail, ht⟩ := exists_dropEndWhile (· = '\r') t
  refine ⟨tail, fun c hc => ?_, ht⟩
  rw [of_decide_eq_true (htail c hc)]
  decide

theorem trim_dropReturns (t : Text) : trim (dropReturns t) = trim t := by
  obtain ⟨tail, htail, ht⟩ := exists_dropReturns t
  have := trim_append_blank htail (dropReturns t)
  rwa [← ht, eq_comm] at this

theorem indentWidth_dropReturns {t : Text} (hne : trim t ≠ []) :
    indentWidth (dropReturns t) = indentWidth t := by
  obtain ⟨tail, _, ht⟩ := exists_dropReturns t
  rw [← trim_dropReturns] at hne
  exact (indentWidth_of_isPrefix ⟨tail, ht.symm⟩ hne).symm

theorem dropReturns_subset (t : Text) : dropReturns t ⊆ t := by
  obtain ⟨tail, _, ht⟩ := exists_dropReturns t
  intro c hc
  rw [ht]
  exact List.mem_append_left _ hc

end ComponentLang.Text
