import ComponentLang.Declaration
import ComponentLang.Header
import ComponentLang.Proofs.Nesting.Padding
import ComponentLang.Proofs.Text.Word

/-!
# Texts up to an arrow

Keywords and names are read from the start of a text. If an arrow follows, then what stands from there
on does not matter to such a reading, and the blanks before it matter only where they are asked for.

* `Tail x` : the text `x` begins with the dash of an arrow, or with blanks before one;
* `after?_tail`, `afterWord?_tail`, `name?_tail` : readings from the start of `p ++ x` are those of
  `p`, as long as they do not ask for blanks;
* `afterSpaced?_tail` : a keyword that asks for a blank finds one before an arrow, if the keyword is all
  that stands there, and the blank is;
* `cutFrom?_colon_append` : a top-level colon is looked for in the parts of a text one after the other.
-/

namespace ComponentLang

namespace Text

/-! ## Readings that ask for no blank -/

/-- The text begins with the dash of an arrow, or with blanks before one. -/
def Tail (x : Text) : Prop := ∃ b r, Blank b ∧ x = b ++ '-' :: r

theorem Tail.exists_cons {x : Text} (h : Tail x) :
    ∃ c rest, x = c :: rest ∧ (isBlank c ∨ c = '-') := by
  obtain ⟨b, r, hb, rfl⟩ := h
  cases b with
  | nil => exact ⟨'-', r, rfl, Or.inr rfl⟩
  | cons c b => exact ⟨c, b ++ '-' :: r, rfl, Or.inl (hb c List.mem_cons_self)⟩

theorem Tail.endsWord {x : Text} (h : Tail x) : endsWord x := by
  obtain ⟨c, rest, rfl, hc | rfl⟩ := h.exists_cons
  · simp [Text.endsWord, not_isWord_of_isBlank hc]
  · rfl

/-- The word holds neither blanks nor dashes. -/
def Solid (word : Text) : Prop := ∀ c ∈ word, isBlank c = false ∧ c ≠ '-'

instance (word : Text) : Decidable (Solid word) :=
  decidable_of_iff (word.all (fun c => !isBlank c && c != '-') = true) (by simp [Solid])

section

variable {word x : Text} (hword : Solid word) (hx : Tail x)
include hword hx

theorem after?_tail (p : Text) : after? word (p ++ x) = (after? word p).map (· ++ x) := by
  induction word generalizing p with
  | nil => rfl
  | cons c word ih =>
    have hrest : Solid word := fun d hd => hword d (List.mem_cons_of_mem c hd)
    cases p with
    | nil =>
      obtain ⟨d, rest, rfl, hd⟩ := hx.exists_cons
      have hc := hword c List.mem_cons_self
      have hcd : c ≠ d := by
        rcases hd with hd | rfl
        · exact (ne_of_isBlank hd hc.1).symm
        · exact hc.2
      simp [after?, hcd]
    | cons d p =>
      rw [List.cons_append, after?, after?]
      split_ifs
      · exact ih hrest p
      · rfl

theorem startsWith_tail (p : Text) : startsWith word (p ++ x) = startsWith word p := by
  rw [startsWith, startsWith, after?_tail hword hx, Option.isSome_map]

theorem dropLead_tail (p : Text) : dropLead word (p ++ x) = dropLead word p ++ x := by
  rw [dropLead, dropLead, after?_tail hword hx]
  cases after? word p <;> rfl

theorem afterWord?_tail (p : Text) :
    afterWord? word (p ++ x) = (afterWord? word p).map (· ++ x) := by
  rw [afterWord?, afterWord?, after?_tail hword hx]
  cases after? word p with
  | none => rfl
  | some q =>
    have hends : endsWord (q ++ x) = endsWord q := by
      cases q with
      | nil => exact hx.endsWord
      | cons c q => rfl
    rw [Option.map_some, Option.filter_some, Option.filter_some, hends]
    cases endsWord q <;> rfl

end

theorem name?_tail {x : Text} (hx : Tail x) (p : Text) :
    name? (p ++ x) = (name? p).map fun (name, rest) => (name, rest ++ x) := by
  obtain ⟨c, rest, rfl, hc⟩ := hx.exists_cons
  have hword : isWord c = false := hc.elim not_isWord_of_isBlank (by rintro rfl; decide)
  have hstart : isNameStart c = false := hc.elim not_isNameStart_of_isBlank (by rintro rfl; decide)
  cases p with
  | nil => simp [name?, hstart]
  | cons d p =>
    rw [List.cons_append, name?, name?]
    split_ifs
    · rw [takeWhile_append_stop hword, dropWhile_append_stop hword]
      rfl
    · rfl

/-! ## Readings that ask for a blank -/

theorem getLast_of_suffix {p q : Text} (h : q <:+ p) (hp : ∀ c ∈ p.getLast?, ¬ isBlank c) :
    ∀ c ∈ q.getLast?, ¬ isBlank c := by
  obtain ⟨u, rfl⟩ := h
  intro c hc
  exact hp c (by rw [List.getLast?_append, Option.mem_def.1 hc]; rfl)

theorem not_mem_of_suffix {c : Char} {p q x : Text} (hq : q <:+ p) (h : c ∉ p ++ x) : c ∉ q ++ x := by
  rw [List.mem_append, not_or] at h ⊢
  exact ⟨fun hc => h.1 (hq.subset hc), h.2⟩

/-- A text that ends with a visible character keeps it when blanks at its start are cut. -/
theorem trimStart_tail {q : Text} (hq : ∀ c ∈ q.getLast?, ¬ isBlank c) (hne : q ≠ []) (x : Text) :
    trimStart (q ++ x) = trimStart q ++ x := by
  have hvisible : ¬ Blank q := fun hblank =>
    hq (q.getLast hne) (List.getLast?_eq_some_getLast hne) (hblank _ (List.getLast_mem hne))
  unfold trimStart
  rw [List.dropWhile_append, if_neg]
  rw [List.isEmpty_iff, List.dropWhile_eq_nil_iff]
  exact hvisible

theorem afterBlanks?_tail {q : Text} (hq : ∀ c ∈ q.getLast?, ¬ isBlank c) (hne : q ≠ []) (x : Text) :
    afterBlanks? (q ++ x) = (afterBlanks? q).map (· ++ x) := by
  rw [afterBlanks?, afterBlanks?, trimStart_tail hq hne]
  cases q with
  | nil => exact absurd rfl hne
  | cons c q =>
    rw [List.cons_append, startsBlank, startsBlank]
    split_ifs <;> rfl

/-- The blanks right before the dash. -/
theorem afterBlanks?_dash {b : Text} (hb : Blank b) (r : Text) :
    afterBlanks? (b ++ '-' :: r) = if b = [] then none else some ('-' :: r) := by
  cases b with
  | nil => rfl
  | cons c b =>
    have hc : startsBlank (c :: b ++ '-' :: r) = true := hb c List.mem_cons_self
    rw [afterBlanks?, if_pos hc, trimStart_append hb, if_neg (List.cons_ne_nil c b)]
    rfl

section

variable {word p : Text} (hword : Solid word) (hp : ∀ c ∈ p.getLast?, ¬ isBlank c)
include hword

/-- A keyword that is all that stands before an arrow needs a blank there. -/
theorem afterSpaced?_self {b : Text} (hb : Blank b) (r : Text) :
    afterSpaced? word (word ++ (b ++ '-' :: r)) = if b = [] then none else some ('-' :: r) := by
  have hafter : after? word word = some [] := after?_eq_some_iff.2 (List.append_nil _).symm
  rw [afterSpaced?, after?_tail hword ⟨b, r, hb, rfl⟩, hafter]
  exact afterBlanks?_dash hb r

include hp

/-- A keyword after which more stands before an arrow finds its blank there, or not at all. -/
theorem afterSpaced?_tail {x : Text} (hx : Tail x) (hne : p ≠ word) :
    afterSpaced? word (p ++ x) = (afterSpaced? word p).map (· ++ x) := by
  rw [afterSpaced?, afterSpaced?, after?_tail hword hx]
  cases hafter : after? word p with
  | none => rfl
  | some q =>
    have hpq := after?_eq_some_iff.1 hafter
    have hq := getLast_of_suffix ⟨word, hpq.symm⟩ hp
    have hqne : q ≠ [] := by
      rintro rfl
      rw [List.append_nil] at hpq
      exact hne hpq
    exact afterBlanks?_tail hq hqne x

end

/-- A reading after blanks that needs more than an arrow is done before the arrow. -/
theorem bind_afterBlanks?_tail {α : Type} {f : Text → Option α} (hf : ∀ r, f ('-' :: r) = none)
    {x : Text} (hx : Tail x) {q : Text} (hq : ∀ c ∈ q.getLast?, ¬ isBlank c) :
    (afterBlanks? (q ++ x)).bind f = (afterBlanks? q).bind fun u => f (u ++ x) := by
  by_cases hne : q = []
  · obtain ⟨b, r, hb, rfl⟩ := hx
    rw [hne, List.nil_append, afterBlanks?_dash hb]
    split_ifs
    · rfl
    · exact hf r
  · rw [afterBlanks?_tail hq hne]
    cases afterBlanks? q <;> rfl

/-- A reading after a keyword and blanks that needs more than an arrow is done before the arrow. -/
theorem bind_afterSpaced?_tail {α : Type} {f : Text → Option α} (hf : ∀ r, f ('-' :: r) = none)
    {word p x : Text} (hword : Solid word) (hp : ∀ c ∈ p.getLast?, ¬ isBlank c) (hx : Tail x) :
    (afterSpaced? word (p ++ x)).bind f = (afterSpaced? word p).bind fun q => f (q ++ x) := by
  rw [afterSpaced?, afterSpaced?, after?_tail hword hx]
  cases hafter : after? word p with
  | none => rfl
  | some q =>
    exact bind_afterBlanks?_tail hf hx
      (getLast_of_suffix ⟨word, (after?_eq_some_iff.1 hafter).symm⟩ hp)

/-- What follows a keyword and blanks goes on to the arrow and beyond. -/
theorem dash_mem_of_afterSpaced? {word p x z : Text} (hword : Solid word)
    (hp : ∀ c ∈ p.getLast?, ¬ isBlank c) (hx : Tail x) (h : afterSpaced? word (p ++ x) = some z) :
    '-' ∈ z := by
  by_cases hself : p = word
  · obtain ⟨b, r, hb, rfl⟩ := hx
    rw [hself, afterSpaced?_self hword hb] at h
    split_ifs at h
    cases h
    exact List.mem_cons_self
  · rw [afterSpaced?_tail hword hp hx hself] at h
    obtain ⟨q, _, rfl⟩ := Option.map_eq_some_iff.1 h
    obtain ⟨b, r, _, rfl⟩ := hx
    simp

/-- What follows a keyword and blanks ends as the whole does. -/
theorem suffix_of_afterBlanks? {t q : Text} (h : afterBlanks? t = some q) : q <:+ t := by
  unfold afterBlanks? at h
  split_ifs at h
  cases h
  exact List.dropWhile_suffix _

theorem suffix_of_afterSpaced? {word t q : Text} (h : afterSpaced? word t = some q) : q <:+ t := by
  obtain ⟨r, hr, hq⟩ := Option.bind_eq_some_iff.1 h
  exact (suffix_of_afterBlanks? hq).trans ⟨word, (after?_eq_some_iff.1 hr).symm⟩

theorem suffix_of_name? {t name rest : Text} (h : name? t = some (name, rest)) : rest <:+ t := by
  cases t with
  | nil => cases h
  | cons c t =>
    rw [name?] at h
    split_ifs at h
    cases h
    exact (List.dropWhile_suffix _).trans (List.suffix_cons c t)

theorem suffix_dropLead (word t : Text) : dropLead word t <:+ t := by
  unfold dropLead
  cases h : after? word t with
  | none => exact List.suffix_refl t
  | some r => exact ⟨word, (after?_eq_some_iff.1 h).symm⟩

end Text

/-! ## Names and clauses -/

open Text (Tail Solid)

section

variable {p x : Text} (hp : ∀ c ∈ p.getLast?, ¬ Text.isBlank c) (hx : Tail x)
include hp hx

theorem headerName?_tail {keyword : Text} (hword : Solid keyword) :
    headerName? keyword (p ++ x) = headerName? keyword p := by
  rw [headerName?, headerName?, Text.bind_afterSpaced?_tail (fun r => rfl) hword hp hx]
  cases Text.afterSpaced? keyword p with
  | none => rfl
  | some q =>
    simp only [Option.bind_some, Text.name?_tail hx]
    cases Text.name? q <;> rfl

/-- A clause that goes on to an arrow is there if its keyword and a blank are. -/
theorem isSome_clause?_tail {keyword : Text} (hword : Solid keyword) (hline : '\n' ∉ p ++ x) :
    (clause? keyword (p ++ x)).isSome = (Text.afterSpaced? keyword (p ++ x)).isSome := by
  unfold clause?
  cases h : Text.afterSpaced? keyword (p ++ x) with
  | none => rfl
  | some z =>
    have hdash := Text.dash_mem_of_afterSpaced? hword hp hx h
    have hone : Text.onOneLine z = true := by
      rw [Text.onOneLine, List.all_eq_true]
      intro c hc
      have hmem := (Text.suffix_of_afterSpaced? h).subset hc
      rw [decide_eq_true_eq]
      rintro rfl
      exact hline hmem
    rw [Option.bind_some, if_pos hone, Text.isSome_nonempty?_trim hdash (by decide)]
    rfl

end

/-! ## Colons -/

namespace Nesting

open Text (Blank trim visible)

theorem cutFrom?_colon_cons (s : Nesting) (c : Char) (r : Text) :
    cutFrom? [':'] s (c :: r) =
      if s.atTop c && c = ':' then some ([], r)
      else (cutFrom? [':'] (s.next c) r).map fun (a, z) => (c :: a, z) := by
  have hmeets : s.meets [':'] (c :: r) = (s.atTop c && c = ':') := by
    rw [meets, Text.startsWith, Text.after?]
    by_cases hc : c = ':'
    · simp [hc, Text.after?]
    · simp [hc, Ne.symm hc]
  rw [cutFrom?, hmeets]
  rfl

/-- A colon is looked for in the first part of a text, and then in the rest. -/
theorem cutFrom?_colon_append (s : Nesting) (u v : Text) :
    cutFrom? [':'] s (u ++ v) =
      ((cutFrom? [':'] s u).map fun (a, z) => (a, z ++ v)).or
        ((cutFrom? [':'] (s.scan u) v).map fun (a, z) => (u ++ a, z)) := by
  induction u generalizing s with
  | nil =>
    rw [List.nil_append, cutFrom?]
    simp [scan]
  | cons c u ih =>
    rw [List.cons_append, cutFrom?_colon_cons, cutFrom?_colon_cons, ih, scan_cons]
    split_ifs
    · rfl
    · cases cutFrom? [':'] (s.next c) u with
      | some az => rfl
      | none => cases cutFrom? [':'] ((s.next c).scan u) v <;> rfl

theorem cutFrom?_colon_of_not_mem {t : Text} (h : ':' ∉ t) (s : Nesting) :
    cutFrom? [':'] s t = none := by
  induction t generalizing s with
  | nil => rfl
  | cons c t ih =>
    have hc : c ≠ ':' := fun hc => h (hc ▸ List.mem_cons_self)
    rw [cutFrom?_colon_cons, ih fun ht => h (List.mem_cons_of_mem c ht)]
    simp [hc]

theorem colon_not_mem_blank {b : Text} (hb : Blank b) : ':' ∉ b := fun h =>
  Text.ne_of_isBlank (hb _ h) (by decide) rfl

theorem eq_append_of_cutFrom?_colon {s : Nesting} {t a z : Text}
    (h : cutFrom? [':'] s t = some (a, z)) : t = a ++ ':' :: z := by
  induction t generalizing s a with
  | nil => cases h
  | cons c t ih =>
    rw [cutFrom?_colon_cons] at h
    split_ifs at h with hc
    · cases h
      rw [Bool.and_eq_true, decide_eq_true_eq] at hc
      rw [hc.2, List.nil_append]
    · obtain ⟨⟨a', z'⟩, hcut, heq⟩ := Option.map_eq_some_iff.1 h
      cases heq
      rw [ih hcut, List.cons_append]

end Nesting

end ComponentLang
