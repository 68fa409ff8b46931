import ComponentLang.Proofs.Reflow.Lead
import ComponentLang.Token.Rule

/-!
# Reading a line whose arrows were spaced

* `needsBlank` : what stands before an arrow ends in a keyword that asks for a blank;
* `Loosened p b b'` : before an arrow stands `p`, first with the blanks `b` after it and then with
  `b'`, and `p` asks for no blank that only one of the two gives;
* `isSome_afterSpaced?` and others : then keywords and headers are read alike.
-/

namespace ComponentLang

open Text (Blank Tail Solid trim isBlank afterSpaced? afterWord? afterBlanks? after? name?)

namespace Reflow

/-- The keywords at the start of a line that ask for a blank. -/
def spacedWords : List Text := [
  "must".toList, "sync".toList, "use".toList, "fn".toList, "each".toList, "if".toList,
  "match".toList, "case".toList]

/-- What stands between the name of a loop's item and the end, if a loop is begun. -/
def afterItem? (t : Text) : Option Text :=
  (((afterSpaced? "each".toList t).bind fun r => name? (Text.dropLead ['$'] r)).bind
    fun (_, rest) => afterBlanks? rest)

/-- The text ends in a keyword that asks for a blank. -/
def needsBlank (p : Text) : Bool :=
  spacedWords.contains p ||
    afterSpaced? "on".toList p = some "change".toList ||
    afterSpaced? "else".toList p = some "if".toList ||
    afterItem? p = some "in".toList

/-- Before an arrow stands `p`, with the blanks `b` after it or with `b'`. If this makes a difference
to `p`, then both times there are blanks, or both times none. -/
structure Loosened (p b b' : Text) : Prop where
  last : ∀ c ∈ p.getLast?, ¬ isBlank c
  blank : Blank b
  blank' : Blank b'
  apart : needsBlank p → (b = [] ↔ b' = [])

/-! ## Keywords -/

theorem isSome_bind_congr {α β γ : Type} {o : Option α} {f : α → Option β} {g : α → Option γ}
    (h : ∀ a, o = some a → (f a).isSome = (g a).isSome) : (o.bind f).isSome = (o.bind g).isSome := by
  cases o with
  | none => rfl
  | some a => exact h a rfl

section

variable {p b b' : Text} (h : Loosened p b b')
include h

theorem Loosened.tail (r : Text) : Tail (b ++ '-' :: r) := ⟨b, r, h.blank, rfl⟩

theorem Loosened.tail' (r : Text) : Tail (b' ++ '-' :: r) := ⟨b', r, h.blank', rfl⟩

/-- A keyword that asks for a blank finds it both times, or neither time. -/
theorem Loosened.isSome_afterSpaced? {word q : Text} (hword : Solid word) (hq : q <:+ p)
    (hneeds : q = word → needsBlank p) (r r' : Text) :
    (afterSpaced? word (q ++ (b' ++ '-' :: r'))).isSome =
      (afterSpaced? word (q ++ (b ++ '-' :: r))).isSome := by
  by_cases hself : q = word
  · have hiff := h.apart (hneeds hself)
    rw [hself, Text.afterSpaced?_self hword h.blank, Text.afterSpaced?_self hword h.blank']
    by_cases hb : b = []
    · rw [if_pos hb, if_pos (hiff.1 hb)]
    · rw [if_neg hb, if_neg fun hb' => hb (hiff.2 hb')]
      rfl
  · have hlast := Text.getLast_of_suffix hq h.last
    rw [Text.afterSpaced?_tail hword hlast (h.tail r) hself,
      Text.afterSpaced?_tail hword hlast (h.tail' r') hself, Option.isSome_map, Option.isSome_map]

theorem Loosened.isSome_spacedWord {word : Text} (hword : word ∈ spacedWords) (r r' : Text) :
    (afterSpaced? word (p ++ (b' ++ '-' :: r'))).isSome =
      (afterSpaced? word (p ++ (b ++ '-' :: r))).isSome := by
  have hsolid : ∀ w ∈ spacedWords, Solid w := by decide
  refine h.isSome_afterSpaced? (hsolid word hword) (List.suffix_refl p) ?_ r r'
  rintro rfl
  simp [needsBlank, hword]

theorem Loosened.isSome_afterWord? {word : Text} (hword : Solid word) (r r' : Text) :
    (afterWord? word (p ++ (b' ++ '-' :: r'))).isSome =
      (afterWord? word (p ++ (b ++ '-' :: r))).isSome := by
  rw [Text.afterWord?_tail hword (h.tail r), Text.afterWord?_tail hword (h.tail' r'),
    Option.isSome_map, Option.isSome_map]

theorem Loosened.startsWith {lead : Text} (hlead : Solid lead) (r r' : Text) :
    Text.startsWith lead (p ++ (b' ++ '-' :: r')) =
      Text.startsWith lead (p ++ (b ++ '-' :: r)) := by
  rw [Text.startsWith_tail hlead (h.tail r), Text.startsWith_tail hlead (h.tail' r')]

theorem Loosened.isSome_mount (r r' : Text) :
    ((afterOn? (p ++ (b' ++ '-' :: r'))).bind (afterWord? "mount".toList)).isSome =
      ((afterOn? (p ++ (b ++ '-' :: r))).bind (afterWord? "mount".toList)).isSome := by
  unfold afterOn?
  rw [Text.bind_afterSpaced?_tail (fun r => rfl) (by decide) h.last (h.tail r),
    Text.bind_afterSpaced?_tail (fun r => rfl) (by decide) h.last (h.tail' r')]
  refine isSome_bind_congr fun q _ => ?_
  rw [Text.afterWord?_tail (by decide) (h.tail r), Text.afterWord?_tail (by decide) (h.tail' r'),
    Option.isSome_map, Option.isSome_map]

theorem Loosened.isSome_change (r r' : Text) :
    ((afterOn? (p ++ (b' ++ '-' :: r'))).bind (afterSpaced? "change".toList)).isSome =
      ((afterOn? (p ++ (b ++ '-' :: r))).bind (afterSpaced? "change".toList)).isSome := by
  unfold afterOn?
  rw [Text.bind_afterSpaced?_tail (fun r => rfl) (by decide) h.last (h.tail r),
    Text.bind_afterSpaced?_tail (fun r => rfl) (by decide) h.last (h.tail' r')]
  refine isSome_bind_congr fun q hq => ?_
  refine h.isSome_afterSpaced? (by decide) (Text.suffix_of_afterSpaced? hq) ?_ r r'
  rintro rfl
  rw [needsBlank, hq]
  simp

theorem Loosened.isControl (r r' : Text) :
    isControl (p ++ (b' ++ '-' :: r')) = isControl (p ++ (b ++ '-' :: r)) := by
  unfold ComponentLang.isControl
  simp only [List.any_cons, List.any_nil]
  rw [h.isSome_spacedWord (by decide) r r', h.isSome_spacedWord (by decide) r r',
    h.isSome_spacedWord (by decide) r r', h.isSome_spacedWord (by decide) r r',
    h.isSome_afterWord? (by decide) r r', h.isSome_afterWord? (by decide) r r']

theorem Loosened.isLogicBlock (r r' : Text) :
    isLogicBlock (p ++ (b' ++ '-' :: r')) = isLogicBlock (p ++ (b ++ '-' :: r)) := by
  unfold ComponentLang.isLogicBlock
  rw [h.isSome_spacedWord (by decide) r r', h.isSome_afterWord? (by decide) r r']

/-! ## Headers -/

section

variable {r r' : Text} (hline : '\n' ∉ p ++ (b ++ '-' :: r)) (hline' : '\n' ∉ p ++ (b' ++ '-' :: r'))
include hline hline'

theorem Loosened.isSome_clause? {word q : Text} (hword : Solid word) (hq : q <:+ p)
    (hneeds : q = word → needsBlank p) :
    (clause? word (q ++ (b' ++ '-' :: r'))).isSome = (clause? word (q ++ (b ++ '-' :: r))).isSome := by
  have hlast := Text.getLast_of_suffix hq h.last
  rw [isSome_clause?_tail hlast (h.tail' r') hword (Text.not_mem_of_suffix hq hline'),
    isSome_clause?_tail hlast (h.tail r) hword (Text.not_mem_of_suffix hq hline)]
  exact h.isSome_afterSpaced? hword hq hneeds r r'

theorem Loosened.isSome_spacedClause {word : Text} (hword : word ∈ spacedWords) :
    (clause? word (p ++ (b' ++ '-' :: r'))).isSome =
      (clause? word (p ++ (b ++ '-' :: r))).isSome := by
  have hsolid : ∀ w ∈ spacedWords, Solid w := by decide
  refine h.isSome_clause? hline hline' (hsolid word hword) (List.suffix_refl p) ?_
  rintro rfl
  simp [needsBlank, hword]

end

end

/-! ### Loops -/

theorem each?_tail {p x : Text} (hp : ∀ c ∈ p.getLast?, ¬ isBlank c) (hx : Tail x) :
    (ViewHeader.each? (p ++ x)).isSome =
      ((afterItem? p).bind fun u => clause? "in".toList (u ++ x)).isSome := by
  unfold ViewHeader.each? afterItem?
  rw [Option.bind_assoc, Text.bind_afterSpaced?_tail (fun r => rfl) (by decide) hp hx]
  rw [Option.bind_assoc, Option.bind_assoc]
  cases hq : afterSpaced? "each".toList p with
  | none => rfl
  | some q =>
    simp only [Option.bind_some]
    rw [Text.dropLead_tail (by decide) hx, Text.name?_tail hx]
    cases hname : name? (Text.dropLead ['$'] q) with
    | none => rfl
    | some item =>
      obtain ⟨name, rest⟩ := item
      have hrest : rest <:+ p := (Text.suffix_of_name? hname).trans
        ((Text.suffix_dropLead _ q).trans (Text.suffix_of_afterSpaced? hq))
      simp only [Option.map_some, Option.bind_some]
      rw [Text.bind_afterBlanks?_tail (fun r => rfl) hx (Text.getLast_of_suffix hrest hp),
        Option.isSome_map]

theorem suffix_of_afterItem? {p u : Text} (h : afterItem? p = some u) : u <:+ p := by
  obtain ⟨⟨name, rest⟩, hname, hu⟩ := Option.bind_eq_some_iff.1 h
  obtain ⟨q, hq, hname⟩ := Option.bind_eq_some_iff.1 hname
  exact (Text.suffix_of_afterBlanks? hu).trans ((Text.suffix_of_name? hname).trans
    ((Text.suffix_dropLead _ q).trans (Text.suffix_of_afterSpaced? hq)))

/-! ### Alternates -/

theorem alternate?_tail {p x : Text} (hp : ∀ c ∈ p.getLast?, ¬ isBlank c) (hx : Tail x) :
    (ViewHeader.alternate? (p ++ x)).isSome =
      ((afterSpaced? "else".toList p).bind fun u => clause? "if".toList (u ++ x)).isSome := by
  unfold ViewHeader.alternate?
  rw [Text.after?_tail (by decide) hx, afterSpaced?]
  cases hq : after? "else".toList p with
  | none => rfl
  | some q =>
    have hlast := Text.getLast_of_suffix ⟨_, (Text.after?_eq_some_iff.1 hq).symm⟩ hp
    have hne : q ++ x ≠ [] := by
      obtain ⟨c, rest, rfl, _⟩ := hx.exists_cons
      simp
    simp only [Option.map_some, Option.bind_some]
    rw [if_neg hne, Text.bind_afterBlanks?_tail (fun r => rfl) hx hlast, Option.isSome_map]

section

variable {p b b' : Text} (h : Loosened p b b') {r r' : Text}
  (hline : '\n' ∉ p ++ (b ++ '-' :: r)) (hline' : '\n' ∉ p ++ (b' ++ '-' :: r'))
include h hline hline'

theorem Loosened.isSome_each? :
    (ViewHeader.each? (p ++ (b' ++ '-' :: r'))).isSome =
      (ViewHeader.each? (p ++ (b ++ '-' :: r))).isSome := by
  rw [each?_tail h.last (h.tail r), each?_tail h.last (h.tail' r')]
  refine isSome_bind_congr fun u hu => ?_
  refine h.isSome_clause? hline hline' (by decide) (suffix_of_afterItem? hu) ?_
  rintro rfl
  rw [needsBlank, hu]
  simp

theorem Loosened.isSome_alternate? :
    (ViewHeader.alternate? (p ++ (b' ++ '-' :: r'))).isSome =
      (ViewHeader.alternate? (p ++ (b ++ '-' :: r))).isSome := by
  rw [alternate?_tail h.last (h.tail r), alternate?_tail h.last (h.tail' r')]
  refine isSome_bind_congr fun u hu => ?_
  refine h.isSome_clause? hline hline' (by decide) (Text.suffix_of_afterSpaced? hu) ?_
  rintro rfl
  rw [needsBlank, hu]
  simp

theorem Loosened.isSome_case :
    (CaseHeader.parse? (p ++ (b' ++ '-' :: r'))).isSome =
      (CaseHeader.parse? (p ++ (b ++ '-' :: r))).isSome := by
  have hdefault : ∀ x y : Text, p ++ (x ++ '-' :: y) ≠ "default".toList := by
    intro x y heq
    have hmem : '-' ∈ "default".toList := by
      rw [← heq]
      simp
    revert hmem
    decide
  have hcase : (clause? "case".toList (p ++ (b' ++ '-' :: r'))).isSome =
      (clause? "case".toList (p ++ (b ++ '-' :: r))).isSome :=
    h.isSome_spacedClause hline hline' (by decide)
  unfold CaseHeader.parse?
  rw [if_neg (hdefault b r), if_neg (hdefault b' r'), Option.or_none, Option.or_none,
    Option.isSome_map, Option.isSome_map, hcase]

end

/-! ## Names -/

theorem trimStart_dash {b : Text} (hb : Blank b) (r : Text) :
    Text.trimStart (b ++ '-' :: r) = '-' :: r := by
  rw [Text.trimStart_append hb]
  rfl

theorem isSome_splitLast? (c : Char) (t : Text) : (Text.splitLast? c t).isSome = t.contains c := by
  induction t with
  | nil => rfl
  | cons d t ih =>
    rw [Text.splitLast?]
    by_cases hdc : d = c
    · cases Text.splitLast? c t <;> simp [hdc]
    · cases hlast : Text.splitLast? c t with
      | none =>
        rw [hlast] at ih
        simpa [hdc, Ne.symm hdc] using ih
      | some ab =>
        rw [hlast] at ih
        simpa [Ne.symm hdc] using ih

/-- The name of a function, given what closes its list of parameters. -/
theorem functionHeader?_tail {p x : Text} (hp : ∀ c ∈ p.getLast?, ¬ isBlank c) (hx : Tail x)
    (hline : '\n' ∉ p ++ x) :
    (functionHeader? (p ++ x)).map Prod.fst =
      (afterSpaced? "fn".toList p).bind fun q => (name? q).bind fun (name, rest) =>
        (after? ['('] (Text.trimStart rest)).bind fun z =>
          if (z ++ x).contains ')' then some name else none := by
  unfold functionHeader?
  rw [Option.bind_assoc, Text.bind_afterSpaced?_tail (fun r => rfl) (by decide) hp hx,
    Option.map_bind]
  cases hq : afterSpaced? "fn".toList p with
  | none => rfl
  | some q =>
    simp only [Option.bind_some, Function.comp_def]
    rw [Text.name?_tail hx]
    cases hname : name? q with
    | none => rfl
    | some named =>
      obtain ⟨name, rest⟩ := named
      have hrest : rest <:+ p :=
        (Text.suffix_of_name? hname).trans (Text.suffix_of_afterSpaced? hq)
      simp only [Option.map_some, Option.bind_some]
      by_cases hne : rest = []
      · obtain ⟨b, r, hb, rfl⟩ := hx
        rw [hne, List.nil_append, trimStart_dash hb]
        rfl
      · rw [Text.trimStart_tail (Text.getLast_of_suffix hrest hp) hne,
          Text.after?_tail (by decide) hx]
        cases hz : after? ['('] (Text.trimStart rest) with
        | none => rfl
        | some z =>
          have hzp : z <:+ p := ((List.suffix_append ['('] z).trans
            (Text.after?_eq_some_iff.1 hz ▸ List.dropWhile_suffix isBlank)).trans hrest
          have htake : (z ++ x).takeWhile (fun c => decide (c ≠ '\n')) = z ++ x := by
            rw [List.takeWhile_eq_self_iff]
            intro c hc
            rw [decide_eq_true_eq]
            rintro rfl
            exact Text.not_mem_of_suffix hzp hline hc
          simp only [Option.map_some, Option.bind_some, htake]
          have hsome := isSome_splitLast? ')' (z ++ x)
          cases hlast : Text.splitLast? ')' (z ++ x) with
          | none =>
            rw [hlast] at hsome
            rw [← hsome]
            rfl
          | some parts =>
            rw [hlast] at hsome
            rw [← hsome]
            rfl

theorem isSome_value? {t : Text} (h : '\n' ∉ t) : (Declaration.value? t).isSome := by
  have hone : Text.onOneLine (trim t) = true := by
    rw [Text.onOneLine, List.all_eq_true]
    intro c hc
    rw [decide_eq_true_eq]
    rintro rfl
    exact h (Text.trim_subset t hc)
  rw [Declaration.value?, if_pos hone]
  rfl

theorem mem_of_splitFirst? {c : Char} {t a z : Text} (h : Text.splitFirst? c t = some (a, z)) :
    ∀ d ∈ z, d ∈ t := by
  induction t generalizing a with
  | nil => cases h
  | cons d t ih =>
    rw [Text.splitFirst?] at h
    split_ifs at h
    · cases h
      exact fun e he => List.mem_cons_of_mem d he
    · obtain ⟨⟨a', z'⟩, hsplit, heq⟩ := Option.map_eq_some_iff.1 h
      cases heq
      exact fun e he => List.mem_cons_of_mem d (ih hsplit e he)

/-- After a colon stands a type, unless an equals sign comes first. -/
theorem isSome_typed? {t : Text} (hne : t ≠ []) (hline : '\n' ∉ t) :
    (Declaration.typed? t).isSome = !Text.startsWith ['='] t := by
  obtain ⟨c, t, rfl⟩ := List.exists_cons_of_ne_nil hne
  unfold Declaration.typed?
  by_cases hc : c = '='
  · subst hc
    rfl
  · have hstarts : Text.startsWith ['='] (c :: t) = false := by
      simp [Text.startsWith, after?, Ne.symm hc]
    rw [hstarts]
    cases hsplit : Text.splitFirst? '=' (c :: t) with
    | none => rfl
    | some parts =>
      obtain ⟨type, value⟩ := parts
      have htype : type ≠ [] := by
        rintro rfl
        rw [Text.splitFirst?, if_neg hc] at hsplit
        obtain ⟨_, _, heq⟩ := Option.map_eq_some_iff.1 hsplit
        cases heq
      have hvalue := isSome_value? fun hmem => hline (mem_of_splitFirst? hsplit _ hmem)
      simpa [htype] using hvalue

theorem annotation?_colon {t z : Text} (h : Text.trimStart t = ':' :: z) :
    Declaration.annotation? t = Declaration.typed? z := by
  rw [Declaration.annotation?, h]
  rfl

theorem annotation?_equals {t z : Text} (h : Text.trimStart t = '=' :: z) :
    Declaration.annotation? t = (Declaration.value? z).map fun v => (Declaration.anyType, v) := by
  rw [Declaration.annotation?, h]
  rfl

theorem annotation?_eq_none {t z : Text} {c : Char} (h : Text.trimStart t = c :: z) (hcolon : c ≠ ':')
    (hequals : c ≠ '=') : Declaration.annotation? t = none := by
  rw [Declaration.annotation?, h]
  split
  · next heq => cases heq
  · next heq => exact absurd (List.cons.inj heq).1 hcolon
  · next heq => exact absurd (List.cons.inj heq).1 hequals
  · rfl

/-- Whether a type or a value follows is seen before the arrow. -/
theorem isSome_annotation?_tail {q x x' : Text} (hq : ∀ c ∈ q.getLast?, ¬ isBlank c) (hx : Tail x)
    (hx' : Tail x') (hline : '\n' ∉ q ++ x) (hline' : '\n' ∉ q ++ x') :
    (Declaration.annotation? (q ++ x')).isSome = (Declaration.annotation? (q ++ x)).isSome := by
  by_cases hne : q = []
  · obtain ⟨b, r, hb, rfl⟩ := hx
    obtain ⟨b', r', hb', rfl⟩ := hx'
    rw [hne, List.nil_append, List.nil_append,
      annotation?_eq_none (trimStart_dash hb r) (by decide) (by decide),
      annotation?_eq_none (trimStart_dash hb' r') (by decide) (by decide)]
  · have hsuffix : Text.trimStart q <:+ q := List.dropWhile_suffix _
    cases hcz : Text.trimStart q with
    | nil =>
      exact absurd ((List.dropWhile_eq_nil_iff.1 hcz) _ (List.getLast_mem hne))
        (hq _ (List.getLast?_eq_some_getLast hne))
    | cons c z =>
      rw [hcz] at hsuffix
      have hstart : ∀ y, Text.trimStart (q ++ y) = c :: (z ++ y) := fun y => by
        rw [Text.trimStart_tail hq hne, hcz, List.cons_append]
      have hz : z <:+ q := (List.suffix_cons c z).trans hsuffix
      have hnil : ∀ {y : Text}, Tail y → z ++ y ≠ [] := fun hy => by
        obtain ⟨d, rest, rfl, _⟩ := hy.exists_cons
        simp
      by_cases hcolon : c = ':'
      · subst hcolon
        rw [annotation?_colon (hstart x), annotation?_colon (hstart x'),
          isSome_typed? (hnil hx') (Text.not_mem_of_suffix hz hline'),
          isSome_typed? (hnil hx) (Text.not_mem_of_suffix hz hline),
          Text.startsWith_tail (by decide) hx', Text.startsWith_tail (by decide) hx]
      · by_cases hequals : c = '='
        · subst hequals
          rw [annotation?_equals (hstart x), annotation?_equals (hstart x'), Option.isSome_map,
            Option.isSome_map, isSome_value? (Text.not_mem_of_suffix hz hline'),
            isSome_value? (Text.not_mem_of_suffix hz hline)]
        · rw [annotation?_eq_none (hstart x) hcolon hequals,
            annotation?_eq_none (hstart x') hcolon hequals]

/-- The name of a state is read before the arrow. -/
theorem id_parseState?_tail {p x x' : Text} (hp : ∀ c ∈ p.getLast?, ¬ isBlank c) (hx : Tail x)
    (hx' : Tail x') (hline : '\n' ∉ p ++ x) (hline' : '\n' ∉ p ++ x') (line : Int) :
    (Declaration.parseState? (p ++ x') line).map Declaration.id =
      (Declaration.parseState? (p ++ x) line).map Declaration.id := by
  unfold Declaration.parseState? Declaration.make?
  rw [Text.after?_tail (by decide) hx, Text.after?_tail (by decide) hx']
  cases hq : after? ['$'] p with
  | none => rfl
  | some q =>
    simp only [Option.map_some, Option.bind_some]
    rw [Text.name?_tail hx, Text.name?_tail hx']
    cases hname : name? q with
    | none => rfl
    | some named =>
      obtain ⟨id, rest⟩ := named
      have hrest : rest <:+ p :=
        (Text.suffix_of_name? hname).trans ⟨_, (Text.after?_eq_some_iff.1 hq).symm⟩
      have hsome := isSome_annotation?_tail (Text.getLast_of_suffix hrest hp) hx hx'
        (Text.not_mem_of_suffix hrest hline) (Text.not_mem_of_suffix hrest hline')
      simp only [Option.map_some, Option.bind_some, Option.map_map, Function.comp_def]
      cases hleft : Declaration.annotation? (rest ++ x') <;>
        cases hright : Declaration.annotation? (rest ++ x) <;>
        simp_all

end Reflow

end ComponentLang
