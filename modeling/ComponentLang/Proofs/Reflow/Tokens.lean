import ComponentLang.Compile
import ComponentLang.Proofs.Reflow.Idempotent
import Mathlib.Data.List.Forall2

/-!
# The tokens of a new layout

* `Recast lex unit t t'` : the token `t'` stands in a new layout for the token `t` of the old one. It
  has the same depth, is indented evenly, and holds the same code with its arrows spaced;
* `recast_lines`, `recast_readTokens` : the tokens of the new layout stand, one by one and in order,
  for those of the old;
* `tokens_reflow` : so a new layout is evenly indented, and keeps the number of tokens, their order,
  depths and texts.
-/

namespace ComponentLang

open Text (Blank trim)

namespace Reflow

/-- The token `t'` stands for `t` in a layout by `unit`. -/
structure Recast (lex : Lexicon) (unit : Int) (t t' : Token) : Prop where
  depth : t'.depth = t.depth
  width : t'.width = t.depth * unit
  text : t'.text = codeText t.text
  category : t'.category = classify lex.rules lex.tags (codeText t.text)

/-! ## Lines -/

theorem tokensFrom_append (lex : Lexicon) (n : Nat) (ls rest : List Text) :
    lex.tokensFrom n (ls ++ rest) = lex.tokensFrom n ls ++ lex.tokensFrom (n + ls.length) rest := by
  induction ls generalizing n with
  | nil => rfl
  | cons l ls ih =>
    rw [List.cons_append, Lexicon.tokensFrom, Lexicon.tokensFrom, ih, List.length_cons,
      List.append_assoc, show n + 1 + ls.length = n + (ls.length + 1) by omega]

/-- Lines without code have no tokens. -/
theorem tokensFrom_eq_nil (lex : Lexicon) {ls : List Text} (h : ∀ l ∈ ls, readLine? l = none)
    (n : Nat) : lex.tokensFrom n ls = [] := by
  induction ls generalizing n with
  | nil => rfl
  | cons l ls ih =>
    rw [List.forall_mem_cons] at h
    rw [Lexicon.tokensFrom, ih h.2, Lexicon.token?, h.1]
    rfl

/-- Comments have no tokens. -/
theorem tokensFrom_remarks (lex : Lexicon) {lead : Text} (hlead : Blank lead) {remarks : List Text}
    (h : ∀ t ∈ remarks, Remark t) (n : Nat) (rest : List Text) :
    lex.tokensFrom n (remarks.map (lead ++ ·) ++ rest) =
      lex.tokensFrom (n + remarks.length) rest := by
  have hnone : ∀ l ∈ remarks.map (lead ++ ·), readLine? l = none := by
    intro l hl
    obtain ⟨t, ht, rfl⟩ := List.mem_map.1 hl
    exact (h t ht).noCode lead hlead
  rw [tokensFrom_append, tokensFrom_eq_nil lex hnone, List.length_map, List.nil_append]

theorem tokensFrom_end (lex : Lexicon) (n : Nat) : lex.tokensFrom n [[]] = [] := by
  rw [Lexicon.tokensFrom, Lexicon.token?, readLine?_nil]
  rfl

/-- **The tokens of the new lines stand for those of the old.** -/
theorem recast_lines (lex : Lexicon) {unit : Int} (hu : 0 < unit) (ls : List Text)
    (stack : List Int) (pending : List Text) (hpending : ∀ t ∈ pending, Remark t) (n n' : Nat) :
    List.Forall₂ (Recast lex unit) (Depth.assignFrom stack (lex.tokensFrom n ls))
      (Depth.assignFrom (rungs unit stack.length)
        (lex.tokensFrom n' (lines unit stack pending ls ++ [[]]))) := by
  induction ls generalizing stack pending n n' with
  | nil =>
    have hread := tokensFrom_remarks lex Text.blank_nil hpending n' [[]]
    simp only [List.nil_append, List.map_id'] at hread
    rw [lines, hread, tokensFrom_end]
    exact .nil
  | cons line rest ih =>
    rw [lines, Lexicon.tokensFrom, Lexicon.token?]
    cases hread : readLine? line with
    | none => exact ih stack _ (remark_pending hread hpending) (n + 1) n'
    | some c =>
      dsimp only
      have hdepth := Depth.length_settle_le stack c.width
      -- the comments before the line have no tokens, and then comes the line itself
      obtain ⟨c', hread', hwidth, htext, _⟩ :=
        readLine?_lineText hread (blank_indent unit (Depth.settle stack c.width).length)
      rw [List.map_append, List.append_assoc, List.append_assoc,
        tokensFrom_remarks lex (blank_indent unit _) hpending, List.map_singleton,
        List.singleton_append, Lexicon.tokensFrom, Lexicon.token?, hread']
      dsimp only [Option.map_some, Option.toList, List.singleton_append]
      rw [Depth.assignFrom, Depth.assignFrom]
      dsimp only
      rw [hwidth, settle_rungs unit hdepth]
      refine .cons ⟨?_, ?_, htext, by rw [htext]⟩ (ih _ [] (fun t ht => by cases ht) _ _)
      · dsimp only
        rw [rungs, if_pos hu, Depth.length_ladder]
      · dsimp only
        rw [length_indent, Int.toNat_of_nonneg (Int.mul_nonneg (by omega) (by omega))]

end Reflow

/-! ## Sources -/

open Reflow (Recast)

theorem lines_reflow (unit : Int) (source : Text) :
    Text.lines (reflow unit source) = Reflow.lines unit [] [] (Text.lines source) ++ [[]] := by
  rw [reflow, Text.lines_flatMap]
  exact Reflow.onOneLine_lines unit _ (fun l hl => Text.not_mem_of_mem_pieces hl) [] []
    (fun t ht => by cases ht)

/-- The tokens of the new source stand for those of the old. -/
theorem recast_readTokens (lex : Lexicon) {unit : Int} (hu : 0 < unit) (source : Text) :
    List.Forall₂ (Recast lex unit) (readTokens lex source)
      (readTokens lex (reflow unit source)) := by
  have h := Reflow.recast_lines lex hu (Text.lines source) [] [] (fun t ht => by cases ht) 1 1
  have hmargin : Reflow.rungs unit ([] : List Int).length = [] := by
    rw [Reflow.rungs, if_pos hu]
    rfl
  rw [hmargin] at h
  rw [readTokens, readTokens, Lexicon.tokens, Lexicon.tokens, lines_reflow]
  exact h

theorem exists_line_of_mem_tokensFrom {lex : Lexicon} {ls : List Text} {n : Nat} {t : Token}
    (h : t ∈ lex.tokensFrom n ls) : ∃ line ∈ ls, ∃ k, lex.token? line k = some t := by
  induction ls generalizing n with
  | nil => cases h
  | cons line ls ih =>
    rcases List.mem_append.1 h with h | h
    · exact ⟨line, List.mem_cons_self, n, Option.mem_toList.1 h⟩
    · obtain ⟨line', hline, htoken⟩ := ih h
      exact ⟨line', List.mem_cons_of_mem line hline, htoken⟩

/-- What does not depend on the depth of a token is the same before depths are assigned. -/
theorem map_assign {α : Type} {f : Token → α} (hf : ∀ t d, f { t with depth := d } = f t)
    (ts : List Token) : (Depth.assign ts).map f = ts.map f := by
  unfold Depth.assign
  generalize ([] : List Int) = stack
  induction ts generalizing stack with
  | nil => rfl
  | cons t ts ih => rw [Depth.assignFrom, List.map_cons, List.map_cons, ih, hf]

/-- Tokens do not depend on the unit of indentation. -/
theorem tokens_unit (unit unit' : Nat) (tags : List Text) (rules : List Rule) (source : Text) :
    Lexicon.tokens ⟨unit, tags, rules⟩ source = Lexicon.tokens ⟨unit', tags, rules⟩ source := by
  unfold Lexicon.tokens
  generalize 1 = n
  induction Text.lines source generalizing n with
  | nil => rfl
  | cons line rest ih =>
    rw [Lexicon.tokensFrom, Lexicon.tokensFrom, ih]
    rfl

/-- Where each new token tells what the old one does, so do all of them in order. -/
theorem map_eq_of_recast {lex : Lexicon} {unit : Int} {α : Type} {f g : Token → α}
    (hfg : ∀ t t', Recast lex unit t t' → g t' = f t) {ts ts' : List Token}
    (h : List.Forall₂ (Recast lex unit) ts ts') : ts'.map g = ts.map f := by
  induction h with
  | nil => rfl
  | cons ht _ ih => rw [List.map_cons, List.map_cons, hfg _ _ ht, ih]

theorem report?_of_recast {lex : Lexicon} {t t' : Token} (h : Recast lex lex.unit t t') :
    lex.report? t' = none := by
  rw [Lexicon.report?, h.width, Int.mul_emod_left, if_pos rfl]

/-- Nothing is to be reported on the indentation of a new layout. -/
theorem reports_reflow (lex : Lexicon) (hu : 0 < lex.unit) (source : Text) :
    lex.reports (lex.tokens (reflow lex.unit source)) = [] := by
  have hrecast := recast_readTokens lex (Int.natCast_pos.2 hu) source
  have hnone := map_eq_of_recast (f := fun _ => none) (fun _ _ h => report?_of_recast h) hrecast
  rw [readTokens, map_assign fun _ _ => rfl] at hnone
  rw [Lexicon.reports, List.filterMap_eq_nil_iff]
  intro t ht
  have hmem := List.mem_map_of_mem (f := lex.report?) ht
  rw [hnone] at hmem
  obtain ⟨_, _, h⟩ := List.mem_map.1 hmem
  exact h.symm

/-- **A new layout keeps the skeleton of the tokens.** It is indented evenly. It has as many tokens
as the old layout, in the same order and at the same depths, and each holds the old code with one
space on either side of its top-level arrows. -/
theorem tokens_reflow (u : Int) (hu : 1 ≤ u) (tags : List Text) (rules : List Rule)
    (source : Text) :
    let old : Lexicon := { tags := tags, rules := rules }
    let new : Lexicon := { unit := unitInForce u, tags := tags, rules := rules }
    new.reports (new.tokens (reflow u source)) = [] ∧
    (new.tokens (reflow u source)).length = (old.tokens source).length ∧
    (Depth.assign (new.tokens (reflow u source))).map Token.depth =
      (Depth.assign (old.tokens source)).map Token.depth ∧
    (new.tokens (reflow u source)).map Token.text =
      (old.tokens source).map fun t => Text.trim
        (List.intercalate " -> ".toList ((Text.split "->".toList t.text).map Text.trim)) := by
  intro old new
  have hunit : (new.unit : Int) = u := by
    show ((unitInForce u : Nat) : Int) = u
    rw [unitInForce, if_pos (by omega), Int.toNat_of_nonneg (by omega)]
  have hpos : 0 < new.unit := by omega
  have hold : old.tokens source = new.tokens source := tokens_unit _ _ _ _ _
  have hrecast := recast_readTokens new (Int.natCast_pos.2 hpos) source
  have hreports := reports_reflow new hpos source
  rw [hunit] at hrecast hreports
  rw [hold]
  have hdepths := map_eq_of_recast (fun _ _ h => h.depth) hrecast
  have htexts := map_eq_of_recast (fun _ _ h => h.text) hrecast
  rw [readTokens, readTokens, map_assign fun _ _ => rfl, map_assign fun _ _ => rfl] at htexts
  refine ⟨hreports, ?_, hdepths, htexts⟩
  have hlength := congrArg List.length htexts
  rwa [List.length_map, List.length_map] at hlength

/-- Lines that are indented unevenly and go back to a width between two open ones, with arrows, a
comment of their own, comments beside code, and slashes and arrows in strings. -/
def scrawl : Text :=
  "view:\n   # top\n     p->a->b  // x->y\n  'it->s'->'// z'\n\n don't -> (c->d)//e\n".toList

/-- The lines keep their depths, and the arrows in strings and brackets stay as they are. -/
theorem tokens_reflow_scrawl :
    (1 : Int) ≤ 2 ∧
    Lexicon.reports { unit := 2 } (Lexicon.tokens { unit := 2 } (reflow 2 scrawl)) = [] ∧
    (Depth.assign (Lexicon.tokens { unit := 2 } (reflow 2 scrawl))).map Token.depth =
      [0, 1, 0, 1] ∧
    (Lexicon.tokens { unit := 2 } (reflow 2 scrawl)).map Token.text =
      ["view:".toList, "p -> a -> b".toList, "'it->s' -> '// z'".toList,
        "don't -> (c->d)".toList] := by
  obtain ⟨hreports, _, hdepths, htexts⟩ :=
    tokens_reflow 2 (by decide) builtinTags Rule.standard scrawl
  refine ⟨by decide, hreports, hdepths.trans ?_, htexts.trans ?_⟩
  · decide +kernel
  · decide +kernel

end ComponentLang
