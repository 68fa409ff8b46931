import ComponentLang.Proofs.Reflow.Respacing
import ComponentLang.Proofs.Reflow.Tokens
import ComponentLang.Proofs.Scope.Sketch

/-!
# The program in a new layout

* `Respacing.colon_cases` : where the first top-level colon stands in two lines that differ in the
  blanks around their arrows;
* `Respacing.header` : what is asked of their headers has the same answer, if it is not about blanks
  before an arrow;
* `Respacing.gistOf` : the two lines do the same to a sketch;
* `program_reflow` : a source in which no keyword or tag is glued to an arrow compiles to the same name,
  states, functions and number of root nodes as its new layout;
* `view_reflow_button` : with a tag that is glued to an arrow the number of root nodes changes.
-/

namespace ComponentLang

open Text (Blank Trimmed Tail Solid trim isBlank afterSpaced?)

namespace Reflow

/-! ## Colons -/

theorem subset_of_cutColon? {t a z : Text} (h : Text.cutColon? t = some (a, z)) : a ⊆ t := by
  rw [Nesting.eq_append_of_cutFrom?_colon h]
  exact List.subset_append_left _ _

/-- In a text that comes back to the top level before an arrow, the first colon is looked for before
the arrow, and then after it. -/
theorem cutColon?_dash {p b : Text} (hp : Nesting.top.scan p = .top) (hb : Blank b) (r : Text) :
    Text.cutColon? (p ++ (b ++ '-' :: r)) =
      ((Text.cutColon? p).map fun (a, z) => (a, z ++ (b ++ '-' :: r))).or
        ((Text.cutColon? r).map fun (a, z) => (p ++ (b ++ '-' :: a), z)) := by
  unfold Text.cutColon? Text.cut?
  rw [Nesting.cutFrom?_colon_append, hp, Nesting.cutFrom?_colon_append .top b,
    Nesting.cutFrom?_colon_of_not_mem (Nesting.colon_not_mem_blank hb), Nesting.scan_blank hb,
    Nesting.cutFrom?_colon_cons, show Nesting.top.next '-' = .top from rfl]
  cases Nesting.cutFrom? [':'] .top p with
  | some az => rfl
  | none => cases Nesting.cutFrom? [':'] .top r <;> rfl

theorem dropFinal_dash (p b r : Text) :
    Text.dropFinal ':' (p ++ (b ++ '-' :: r)) = p ++ (b ++ '-' :: Text.dropFinal ':' r) := by
  rw [← List.append_assoc, ← List.append_assoc]
  generalize p ++ b = q
  unfold Text.dropFinal Text.endsWith
  cases r with
  | nil => simp
  | cons c r =>
    have hlast : (q ++ '-' :: c :: r).getLast? = (c :: r).getLast? := by
      rw [List.getLast?_append_of_ne_nil _ (by simp), List.getLast?_cons_cons]
    rw [hlast]
    split_ifs
    · rw [List.dropLast_append_of_ne_nil (by simp), List.dropLast_cons_of_ne_nil (by simp)]
    · rfl

/-- Blanks are cut at the end alone. -/
theorem trim_dash {p b r : Text} (ht : Trimmed (p ++ (b ++ '-' :: r))) (y : Text) :
    trim (p ++ (b ++ '-' :: y)) = p ++ (b ++ '-' :: Text.trimEnd y) := by
  have hassoc : ∀ u, p ++ (b ++ '-' :: u) = (p ++ b ++ ['-']) ++ u := by simp
  have hhead : ∀ c ∈ (p ++ (b ++ '-' :: y)).head?, ¬ isBlank c := by
    have hsame : (p ++ (b ++ '-' :: y)).head? = (p ++ (b ++ '-' :: r)).head? := by
      cases p <;> cases b <;> rfl
    rw [hsame]
    exact ht.1
  have hlast : ∀ c ∈ (p ++ b ++ ['-']).getLast?, ¬ isBlank c := by
    rw [List.getLast?_concat]
    rintro c ⟨⟩
    decide
  rw [trim, Text.trimStart_of_head hhead, hassoc, Text.trimEnd_append_visible hlast, hassoc]

theorem not_mem_dash {c : Char} {p b r y : Text} (h : c ∉ p ++ (b ++ '-' :: r)) (hy : y ⊆ r) :
    c ∉ p ++ (b ++ '-' :: y) := by
  simp only [List.mem_append, List.mem_cons, not_or] at h ⊢
  exact ⟨h.1, h.2.1, h.2.2.1, fun hmem => h.2.2.2 (hy hmem)⟩

section

variable {p b b' r r' : Text} (h : Respacing p b b' r r')
include h

/-- The first top-level colon stands before the arrow in both lines, or after it in both, or nowhere. -/
theorem Respacing.colon_cases :
    (∃ a z z', Text.cutColon? (p ++ (b ++ '-' :: r)) = some (a, z) ∧
      Text.cutColon? (p ++ (b' ++ '-' :: r')) = some (a, z') ∧ '-' ∈ z ∧ '-' ∈ z') ∨
    (∃ a a' z z', Text.cutColon? (p ++ (b ++ '-' :: r)) = some (p ++ (b ++ '-' :: a), z) ∧
      Text.cutColon? (p ++ (b' ++ '-' :: r')) = some (p ++ (b' ++ '-' :: a'), z') ∧
      a ⊆ r ∧ a' ⊆ r' ∧ Text.visible z' = Text.visible z) ∨
    (Text.cutColon? (p ++ (b ++ '-' :: r)) = none ∧
      Text.cutColon? (p ++ (b' ++ '-' :: r')) = none) := by
  have hcolon := h.colon
  rw [cutColon?_dash h.level h.blank, cutColon?_dash h.level h.blank']
  unfold afterColon? at hcolon
  cases Text.cutColon? p with
  | some az => exact Or.inl ⟨az.1, _, _, rfl, rfl, by simp, by simp⟩
  | none =>
    right
    cases hr : Text.cutColon? r with
    | none =>
      rw [hr, Option.map_none, Option.map_eq_none_iff] at hcolon
      rw [hcolon]
      exact Or.inr ⟨rfl, rfl⟩
    | some az =>
      rw [hr, Option.map_some] at hcolon
      obtain ⟨az', hr', hvisible⟩ := Option.map_eq_some_iff.1 hcolon
      rw [hr']
      exact Or.inl ⟨az.1, az'.1, az.2, az'.2, rfl, rfl, subset_of_cutColon? hr,
        subset_of_cutColon? hr', hvisible⟩

end

/-! ## Headers -/

/-- What a watcher depends on is there if its keywords and blanks are. -/
theorem isSome_dependency_tail {p x : Text} (hp : ∀ c ∈ p.getLast?, ¬ isBlank c) (hx : Tail x) :
    (((afterOn? (p ++ x)).bind (afterSpaced? "change".toList)).bind
        fun z => Text.nonempty? (trim z)).isSome =
      ((afterOn? (p ++ x)).bind (afterSpaced? "change".toList)).isSome := by
  unfold afterOn?
  rw [Text.bind_afterSpaced?_tail (fun r => rfl) (by decide) hp hx]
  cases hq : afterSpaced? "on".toList p with
  | none => rfl
  | some q =>
    rw [Option.bind_some]
    cases hz : afterSpaced? "change".toList (q ++ x) with
    | none => rfl
    | some z =>
      have hlast := Text.getLast_of_suffix (Text.suffix_of_afterSpaced? hq) hp
      have hdash := Text.dash_mem_of_afterSpaced? (by decide) hlast hx hz
      rw [Option.bind_some, Text.isSome_nonempty?_trim hdash (by decide)]
      rfl

section

variable {p b b' r r' : Text} (h : Respacing p b b' r r')
include h

/-- What is asked of the headers of both lines has the same answer, if it has where the headers go on
to the arrow. -/
theorem Respacing.header (f : Text → Bool)
    (hf : ∀ y y', '\n' ∉ p ++ (b ++ '-' :: y) → '\n' ∉ p ++ (b' ++ '-' :: y') →
      f (p ++ (b' ++ '-' :: y')) = f (p ++ (b ++ '-' :: y))) :
    f (splitInline (p ++ (b' ++ '-' :: r'))).1 = f (splitInline (p ++ (b ++ '-' :: r))).1 := by
  have hbeyond : ∀ y y', y ⊆ r → y' ⊆ r' →
      f (trim (p ++ (b' ++ '-' :: y'))) = f (trim (p ++ (b ++ '-' :: y))) := by
    intro y y' hy hy'
    rw [trim_dash h.trimmed, trim_dash h.trimmed']
    exact hf _ _ (not_mem_dash h.line fun c hc => hy (Text.trimEnd_subset y hc))
      (not_mem_dash h.line' fun c hc => hy' (Text.trimEnd_subset y' hc))
  unfold splitInline
  rcases h.colon_cases with ⟨a, z, z', hcut, hcut', _⟩ | ⟨a, a', z, z', hcut, hcut', hsub, hsub', _⟩ |
    ⟨hcut, hcut'⟩
  · rw [hcut, hcut']
  · rw [hcut, hcut']
    exact hbeyond a a' hsub hsub'
  · rw [hcut, hcut']
    dsimp only
    rw [h.trimmed.trim, h.trimmed'.trim, dropFinal_dash, dropFinal_dash]
    exact hbeyond _ _ (Text.dropFinal_subset ':' r) (Text.dropFinal_subset ':' r')

theorem Respacing.isNone_inline :
    (splitInline (p ++ (b' ++ '-' :: r'))).2.isNone =
      (splitInline (p ++ (b ++ '-' :: r))).2.isNone := by
  unfold splitInline
  rcases h.colon_cases with ⟨a, z, z', hcut, hcut', hdash, hdash'⟩ |
    ⟨a, a', z, z', hcut, hcut', _, _, hvisible⟩ | ⟨hcut, hcut'⟩
  · rw [hcut, hcut']
    dsimp only
    rw [← Option.not_isSome, ← Option.not_isSome, Text.isSome_nonempty?_trim hdash (by decide),
      Text.isSome_nonempty?_trim hdash' (by decide)]
  · rw [hcut, hcut']
    dsimp only
    rw [Text.isNone_nonempty?_trim, Text.isNone_nonempty?_trim, hvisible]
  · rw [hcut, hcut']

theorem Respacing.endsWith (c : Char) :
    Text.endsWith c (p ++ (b' ++ '-' :: r')) = Text.endsWith c (p ++ (b ++ '-' :: r)) := by
  unfold Text.endsWith
  rw [← Text.getLast?_visible h.trimmed.2, ← Text.getLast?_visible h.trimmed'.2, h.visible_eq]

/-- A watcher depends on something that goes on to the arrow. -/
theorem Respacing.isSome_watchDependency? :
    (watchDependency? (p ++ (b' ++ '-' :: r'))).isSome =
      (watchDependency? (p ++ (b ++ '-' :: r))).isSome := by
  have hbeyond : ∀ y y', (((afterOn? (p ++ (b' ++ '-' :: y'))).bind
        (afterSpaced? "change".toList)).bind fun z => Text.nonempty? (trim z)).isSome =
      (((afterOn? (p ++ (b ++ '-' :: y))).bind
        (afterSpaced? "change".toList)).bind fun z => Text.nonempty? (trim z)).isSome := by
    intro y y'
    rw [isSome_dependency_tail h.last (h.tail y), isSome_dependency_tail h.last (h.tail' y')]
    exact h.isSome_change y y'
  unfold watchDependency?
  rcases h.colon_cases with ⟨a, z, z', hcut, hcut', _⟩ | ⟨a, a', z, z', hcut, hcut', _⟩ |
    ⟨hcut, hcut'⟩
  · rw [hcut, hcut']
    rfl
  · rw [hcut, hcut']
    exact hbeyond a a'
  · rw [hcut, hcut']
    exact hbeyond r r'

theorem Respacing.functionName :
    (functionHeader? (p ++ (b' ++ '-' :: r'))).map Prod.fst =
      (functionHeader? (p ++ (b ++ '-' :: r))).map Prod.fst := by
  have hclosed : ∀ z : Text,
      (z ++ (b' ++ '-' :: r')).contains ')' = (z ++ (b ++ '-' :: r)).contains ')' := by
    intro z
    have hvisible : Text.visible (z ++ (b' ++ '-' :: r')) =
        Text.visible (z ++ (b ++ '-' :: r)) := by
      rw [visible_tail h.blank, visible_tail h.blank', h.visible]
    have hblank : ∀ c, isBlank c → (c == ')') = false := fun c hc =>
      beq_eq_false_iff_ne.2 (Text.ne_of_isBlank hc (by decide))
    rw [← List.any_beq', ← List.any_beq', ← Text.any_visible hblank, hvisible,
      Text.any_visible hblank]
  rw [functionHeader?_tail h.last (h.tail r) h.line, functionHeader?_tail h.last (h.tail' r') h.line']
  simp only [hclosed]

end

/-! ## Gists -/

theorem eq_each {t : Text} {h : ViewHeader} (hh : ViewHeader.each? t = some h) :
    ∃ list item, h = .each list item := by
  obtain ⟨⟨item, rest⟩, _, hh⟩ := Option.bind_eq_some_iff.1 hh
  obtain ⟨list, _, rfl⟩ := Option.map_eq_some_iff.1 hh
  exact ⟨_, _, rfl⟩

theorem eq_alternate {t : Text} {h : ViewHeader} (hh : ViewHeader.alternate? t = some h) :
    ∃ condition, h = .alternate condition := by
  obtain ⟨rest, _, hh⟩ := Option.bind_eq_some_iff.1 hh
  split_ifs at hh
  · cases hh
    exact ⟨none, rfl⟩
  · obtain ⟨c, _, rfl⟩ := Option.map_eq_some_iff.1 hh
    exact ⟨some c, rfl⟩

/-- A line of control flow, by the header that it has. -/
theorem controlGist_eq (t : Text) :
    controlGist t =
      if (ViewHeader.each? (splitInline t).1).isSome then .header false
      else if (clause? "if".toList (splitInline t).1).isSome then .header true
      else if (clause? "match".toList (splitInline t).1).isSome then .choice
      else if (ViewHeader.alternate? (splitInline t).1).isSome then .alternate
      else .stray := by
  unfold controlGist ViewHeader.parse?
  generalize (splitInline t).1 = header
  cases he : ViewHeader.each? header with
  | some h =>
    obtain ⟨list, item, rfl⟩ := eq_each he
    rfl
  | none =>
    cases clause? "if".toList header with
    | some c => rfl
    | none =>
      cases clause? "match".toList header with
      | some c => rfl
      | none =>
        cases ha : ViewHeader.alternate? header with
        | some h =>
          obtain ⟨c, rfl⟩ := eq_alternate ha
          rfl
        | none => rfl

/-- A line of markup, by what it is asked for. -/
theorem markupGist_eq {t : Text} (ht : Trimmed t) :
    markupGist t =
      if (Text.afterWord? "slot".toList (splitInline t).1).isSome then .leaf
      else if (splitInline t).2.isNone && Text.endsWith ':' t then .header false
      else .leaf := by
  unfold markupGist Markup.parse slotName?
  rw [ht.trim]
  dsimp only
  obtain ⟨header, inline⟩ := splitInline t
  cases Text.afterWord? "slot".toList header <;> rfl

section

variable {p b b' r r' : Text} (h : Respacing p b b' r r')
include h

theorem Respacing.controlGist :
    controlGist (p ++ (b' ++ '-' :: r')) = controlGist (p ++ (b ++ '-' :: r)) := by
  rw [controlGist_eq, controlGist_eq,
    h.header (fun t => (ViewHeader.each? t).isSome) fun y y' hy hy' => h.isSome_each? hy hy',
    h.header (fun t => (clause? "if".toList t).isSome) fun y y' hy hy' =>
      h.isSome_spacedClause hy hy' (by decide),
    h.header (fun t => (clause? "match".toList t).isSome) fun y y' hy hy' =>
      h.isSome_spacedClause hy hy' (by decide),
    h.header (fun t => (ViewHeader.alternate? t).isSome) fun y y' hy hy' =>
      h.isSome_alternate? hy hy']

theorem Respacing.markupGist :
    markupGist (p ++ (b' ++ '-' :: r')) = markupGist (p ++ (b ++ '-' :: r)) := by
  rw [markupGist_eq h.trimmed, markupGist_eq h.trimmed',
    h.header (fun t => (Text.afterWord? "slot".toList t).isSome) fun y y' _ _ =>
      h.isSome_afterWord? (by decide) y y',
    h.isNone_inline, h.endsWith]

/-- The two lines do the same to a sketch. -/
theorem Respacing.gistOf (category : Category) (depth : Int) :
    gistOf category depth (p ++ (b' ++ '-' :: r')) =
      gistOf category depth (p ++ (b ++ '-' :: r)) := by
  have hname : ∀ word, Solid word → headerName? word (p ++ (b' ++ '-' :: r')) =
      headerName? word (p ++ (b ++ '-' :: r)) := by
    intro word hword
    rw [headerName?_tail h.last (h.tail r) hword, headerName?_tail h.last (h.tail' r') hword]
  have hstate := id_parseState?_tail h.last (h.tail r) (h.tail' r') h.line h.line' 0
  have hpersona : Persona.ofTag? (p ++ (b' ++ '-' :: r')) = Persona.ofTag? (p ++ (b ++ '-' :: r)) := by
    rw [ofTag?_tail (h.tail r), ofTag?_tail (h.tail' r')]
  have hslot : Scope.isSlotLine (p ++ (b' ++ '-' :: r')) =
      Scope.isSlotLine (p ++ (b ++ '-' :: r)) := h.isSome_afterWord? (by decide) r r'
  have hcase := h.header (fun t => (CaseHeader.parse? t).isSome) fun y y' hy hy' =>
    h.isSome_case hy hy'
  unfold ComponentLang.gistOf
  rw [hname _ (by decide), hname _ (by decide), hstate, h.functionName, h.isSome_watchDependency?,
    hpersona, h.isLogicBlock r r', h.endsWith, hcase, h.controlGist, h.markupGist, hslot]

end

/-- **A line that is not glued does the same to a sketch in its new layout.** -/
theorem gist_codeText {t : Text} (ht : Trimmed t) (hline : '\n' ∉ t) (hglued : isGlued t = false)
    (depth : Int) :
    gistOf (classify Rule.standard builtinTags (codeText t)) depth (codeText t) =
      gistOf (classify Rule.standard builtinTags t) depth t := by
  rcases respacing_codeText ht hline hglued with hsame | ⟨p, b, b', r, r', htext, hcode, h⟩
  · rw [hsame]
  · rw [hcode, htext, h.classify, h.gistOf]

end Reflow

/-! ## Sources -/

/-- Every token holds the code of a line. -/
theorem exists_line_of_mem_readTokens {lex : Lexicon} {source : Text} {t : Token}
    (h : t ∈ readTokens lex source) :
    ∃ line ∈ Text.lines source, ∃ c, readLine? line = some c ∧ t.text = c.text ∧
      t.category = classify lex.rules lex.tags c.text := by
  have hmap : (readTokens lex source).map (fun t => (t.category, t.text)) =
      (lex.tokens source).map fun t => (t.category, t.text) := map_assign (fun _ _ => rfl) _
  have hmem := List.mem_map_of_mem (f := fun t : Token => (t.category, t.text)) h
  rw [hmap] at hmem
  obtain ⟨t₀, ht₀, heq⟩ := List.mem_map.1 hmem
  obtain ⟨hcategory, htext⟩ := Prod.mk.inj heq
  rw [← hcategory, ← htext]
  obtain ⟨line, hline, n, htoken⟩ := exists_line_of_mem_tokensFrom ht₀
  obtain ⟨c, hread, rfl⟩ := Option.map_eq_some_iff.1 htoken
  exact ⟨line, hline, c, hread, rfl, rfl⟩

/-- The texts of tokens are trimmed, on one line, and decide on the category. -/
theorem text_of_mem_readTokens {lex : Lexicon} {source : Text} {t : Token}
    (h : t ∈ readTokens lex source) :
    Trimmed t.text ∧ '\n' ∉ t.text ∧ t.category = classify lex.rules lex.tags t.text := by
  obtain ⟨line, hline, c, hread, htext, hcategory⟩ := exists_line_of_mem_readTokens h
  obtain ⟨lead, gap, tail, hlayout⟩ := Reflow.exists_layout hread
  rw [hcategory, htext]
  exact ⟨hlayout.text_trimmed, fun hn =>
    Text.not_mem_of_mem_pieces hline ((Reflow.readLine?_subset hread).1 hn), rfl⟩

/-- By default, no report makes a compilation fail. -/
theorem compile_default (c : Companions) (file source : Text) :
    compile {} c file source = .ok (analyse {} c file source) := rfl

/-- **A new layout keeps the program, if nothing is glued.** If in no line of a source the first arrow
stands right after a keyword or a tag that asks for a space, then the source and its new layout both
compile, and the component has the same name, the same states and functions in the same order, and the
same number of root nodes. -/
theorem program_reflow (c : Companions) (file source : Text)
    (h : ∀ t ∈ readTokens {} source, Reflow.isGlued t.text = false) :
    ∃ old new, compile {} c file source = .ok old ∧
      compile {} c file (reflow defaultUnit source) = .ok new ∧
      new.manifest.name = old.manifest.name ∧
      new.manifest.state.map Declaration.id = old.manifest.state.map Declaration.id ∧
      new.manifest.functions.map FunctionDecl.name =
        old.manifest.functions.map FunctionDecl.name ∧
      new.manifest.view.length = old.manifest.view.length := by
  have hrecast := recast_readTokens {} (show (0 : Int) < defaultUnit by decide) source
  have hgists : (readTokens {} (reflow defaultUnit source)).map (fun t => (t.depth, t.gist)) =
      (readTokens {} source).map fun t => (t.depth, t.gist) := by
    have hall := (List.forall₂_and_left _ _).2 ⟨fun t ht => And.intro ht (h t ht), hrecast⟩
    rw [eq_comm, ← List.forall₂_eq_eq_eq, List.forall₂_map_left_iff, List.forall₂_map_right_iff]
    refine hall.imp fun t t' ⟨⟨ht, hglued⟩, hr⟩ => ?_
    obtain ⟨htrimmed, hline, hcategory⟩ := text_of_mem_readTokens ht
    rw [Token.gist, Token.gist, hr.depth, hr.category, hr.text, hcategory]
    exact congrArg (t.depth, ·) (Reflow.gist_codeText htrimmed hline hglued t.depth).symm
  exact ⟨_, _, compile_default c file source, compile_default c file _,
    skeleton_buildManifest hgists c c⟩

/-- A component with arrows that have no space beside them, in markup, in logic and in a choice. -/
def counter : Text :=
  "component Counter\n$n: int=0\nfn go():\n  $n=$n->next\nview:\n".toList ++
    "  button->go(): 'Go'\n  if $n->odd:\n      p.hint -> save\n  match $n->kind:\n".toList ++
    "    case 1->x: 'one'\n".toList

/-- The new layout of the counter compiles to a counter. -/
theorem program_reflow_counter :
    (∀ t ∈ readTokens {} counter, Reflow.isGlued t.text = false) ∧
    ∃ new, compile {} {} memoryFile (reflow defaultUnit counter) = .ok new ∧
      new.manifest.name = "Counter".toList ∧
      new.manifest.state.map Declaration.id = ["n".toList] ∧
      new.manifest.functions.map FunctionDecl.name = ["go".toList] ∧
      new.manifest.view.length = 3 := by
  have hglued : ∀ t ∈ readTokens {} counter, Reflow.isGlued t.text = false := by decide +kernel
  obtain ⟨old, new, hold, hnew, hname, hstate, hfunctions, hview⟩ :=
    program_reflow {} memoryFile counter hglued
  rw [compile_default, Except.ok.injEq] at hold
  have hcounter : old.manifest.name = "Counter".toList ∧
      old.manifest.state.map Declaration.id = ["n".toList] ∧
      old.manifest.functions.map FunctionDecl.name = ["go".toList] ∧
      old.manifest.view.length = 3 := by
    subst hold
    decide +kernel
  exact ⟨hglued, new, hnew, hname.trans hcounter.1, hstate.trans hcounter.2.1,
    hfunctions.trans hcounter.2.2.1, hview.trans hcounter.2.2.2⟩

/-- A tag right before an arrow is no tag, and the line is dropped. In the new layout a space stands
after the tag, and the line is an element. -/
theorem view_reflow_button :
    ∃ old new, compile {} {} memoryFile "button->save".toList = .ok old ∧
      compile {} {} memoryFile (reflow defaultUnit "button->save".toList) = .ok new ∧
      old.manifest.view.length = 0 ∧ new.manifest.view.length = 1 :=
  ⟨_, _, compile_default {} memoryFile _, compile_default {} memoryFile _, by decide +kernel⟩

end ComponentLang
