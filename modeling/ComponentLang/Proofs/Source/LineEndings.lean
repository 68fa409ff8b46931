import ComponentLang.Compile
import ComponentLang.Proofs.Text.Trim
import ComponentLang.Reflow

/-!
# Line endings

A line may end in a line feed alone, or in a carriage return and a line feed. All readers drop the
returns at the end of a line before they look at it, so the two cannot be told apart.

* `Text.crlf` : a return before each line feed. The text may have other returns already;
* `map_dropReturns_lines_crlf` : the lines without their returns stay;
* `tokens_congr`, `lines_map_dropReturns`, `withCompanions_crlf` : so do tokens, layouts and companions;
* `compile_crlf` : so do compilations.
-/

namespace ComponentLang

namespace Text

/-- The text with a carriage return before each line feed. -/
def crlf (t : Text) : Text := t.flatMap fun c => if c = '\n' then ['\r', '\n'] else [c]

theorem dropReturns_append {tail : Text} (h : ∀ c ∈ tail, c = '\r') (t : Text) :
    dropReturns (t ++ tail) = dropReturns t := by
  apply dropEndWhile_append
  intro c hc
  simp [h c hc]

theorem exists_returns (t : Text) : ∃ tail : Text, (∀ c ∈ tail, c = '\r') ∧ t = dropReturns t ++ tail := by
  obtain ⟨tail, htail, ht⟩ := exists_dropEndWhile (· = '\r') t
  exact ⟨tail, fun c hc => of_decide_eq_true (htail c hc), ht⟩

theorem dropReturns_dropReturns (t : Text) : dropReturns (dropReturns t) = dropReturns t := by
  obtain ⟨tail, htail, ht⟩ := exists_returns t
  have h := dropReturns_append htail (dropReturns t)
  rwa [← ht, eq_comm] at h

/-- Of what follows a character, the returns at the end do not matter. -/
theorem dropReturns_cons (c : Char) (t : Text) :
    dropReturns (c :: t) = dropReturns (c :: dropReturns t) := by
  obtain ⟨tail, htail, ht⟩ := exists_returns t
  have h := dropReturns_append htail (c :: dropReturns t)
  rwa [List.cons_append, ← ht] at h

theorem map_dropReturns_grow {c : Char} {ls ls' : List Text} (hne : ls ≠ []) (hne' : ls' ≠ [])
    (h : ls'.map dropReturns = ls.map dropReturns) :
    (grow c ls').map dropReturns = (grow c ls).map dropReturns := by
  obtain ⟨l, rest, rfl⟩ := List.exists_cons_of_ne_nil hne
  obtain ⟨l', rest', rfl⟩ := List.exists_cons_of_ne_nil hne'
  rw [List.map_cons, List.map_cons, List.cons.injEq] at h
  simp [grow, dropReturns_cons c l, dropReturns_cons c l', h.1, h.2]

/-- **A return before each line feed is dropped again.** -/
theorem map_dropReturns_lines_crlf (t : Text) :
    (lines (crlf t)).map dropReturns = (lines t).map dropReturns := by
  induction t with
  | nil => rfl
  | cons c t ih =>
    by_cases hc : c = '\n'
    · have hcrlf : lines (crlf (c :: t)) = ['\r'] :: lines (crlf t) := by
        rw [crlf, List.flatMap_cons, if_pos hc]
        exact pieces_append (p := ['\r']) (by decide) (crlf t)
      have hlf : lines (c :: t) = [] :: lines t := by
        rw [hc]
        exact pieces_append List.not_mem_nil t
      rw [hcrlf, hlf, List.map_cons, List.map_cons, ih]
      rfl
    · have hcrlf : lines (crlf (c :: t)) = grow c (lines (crlf t)) := by
        rw [crlf, List.flatMap_cons, if_neg hc]
        exact if_neg hc
      have hlf : lines (c :: t) = grow c (lines t) := if_neg hc
      rw [hcrlf, hlf]
      exact map_dropReturns_grow (pieces_ne_nil _ _) (pieces_ne_nil _ _) ih

end Text

/-! ## The source -/

theorem readLine?_dropReturns (line : Text) : readLine? (Text.dropReturns line) = readLine? line := by
  unfold readLine?
  rw [Text.dropReturns_dropReturns]

theorem tokensFrom_map_dropReturns (lex : Lexicon) (n : Nat) (ls : List Text) :
    lex.tokensFrom n (ls.map Text.dropReturns) = lex.tokensFrom n ls := by
  induction ls generalizing n with
  | nil => rfl
  | cons l ls ih =>
    rw [List.map_cons, Lexicon.tokensFrom, Lexicon.tokensFrom, ih, Lexicon.token?, Lexicon.token?,
      readLine?_dropReturns]

theorem tokens_congr {s s' : Text}
    (h : (Text.lines s').map Text.dropReturns = (Text.lines s).map Text.dropReturns) (lex : Lexicon) :
    lex.tokens s' = lex.tokens s := by
  rw [Lexicon.tokens, ← tokensFrom_map_dropReturns, h, tokensFrom_map_dropReturns, Lexicon.tokens]

namespace Reflow

theorem lines_map_dropReturns (unit : Int) (stack : List Int) (pending ls : List Text) :
    lines unit stack pending (ls.map Text.dropReturns) = lines unit stack pending ls := by
  induction ls generalizing stack pending with
  | nil => rfl
  | cons l ls ih =>
    rw [List.map_cons, lines, lines, readLine?_dropReturns, Text.trim_dropReturns]
    cases readLine? l with
    | none => exact ih _ _
    | some content =>
      dsimp only
      rw [ih]

end Reflow

theorem reflow_crlf (unit : Int) (s : Text) : reflow unit (Text.crlf s) = reflow unit s := by
  unfold reflow
  rw [← Reflow.lines_map_dropReturns, Text.map_dropReturns_lines_crlf, Reflow.lines_map_dropReturns]

/-! ## Companions -/

/-- All texts with a return before each line feed. -/
def Companions.crlf (c : Companions) : Companions :=
  ⟨Text.crlf c.queries, Text.crlf c.endpoints, Text.crlf c.phrases, Text.crlf c.head⟩

theorem withCompanions_crlf (m : Manifest) (c : Companions) :
    m.withCompanions c.crlf = m.withCompanions c := by
  simp only [Manifest.withCompanions, Companions.crlf, Query.parse, Endpoint.parse, Phrases.parse,
    Head.parse, Text.map_dropReturns_lines_crlf]

/-! ## Compilations -/

theorem analyse_crlf (settings : Settings) (c : Companions) (file s : Text) :
    analyse settings c.crlf file (Text.crlf s) = analyse settings c file s := by
  have htokens : settings.lexicon.tokens (Text.crlf s) = settings.lexicon.tokens s :=
    tokens_congr (Text.map_dropReturns_lines_crlf s) _
  simp only [analyse, readTokens, buildManifest, Scope.finish, htokens, withCompanions_crlf]

/-- **Line endings do not matter.** Manifest and reports stay, and so do those behind a failure under
strict settings, whose location alone quotes a line as it is. -/
theorem compile_crlf (settings : Settings) (c : Companions) (file s : Text) :
    analyse settings c.crlf file (Text.crlf s) = analyse settings c file s ∧
    (compile settings c.crlf file (Text.crlf s)).mapError Failure.reports =
      (compile settings c file s).mapError Failure.reports ∧
    ∀ unit, reflow unit (Text.crlf s) = reflow unit s := by
  have hanalyse := analyse_crlf settings c file s
  refine ⟨hanalyse, ?_, fun unit => reflow_crlf unit s⟩
  simp only [compile, hanalyse]
  split_ifs
  · rfl
  · rfl

end ComponentLang
