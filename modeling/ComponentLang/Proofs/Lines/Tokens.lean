import ComponentLang.Compile
import ComponentLang.Proofs.Scope.Resume

/-!
# Sources with renumbered lines

* `Token.renumber`, `Compilation.renumber` : a token and a compilation with new line numbers;
* `Lexicon.tokensFrom_add` : lines that are counted from further on;
* `assignFrom_renumber`, `Lexicon.reports_renumber` : depths and reports do not look at the numbers;
* `analyse_renumber`, `compile_renumber` : two sources whose tokens differ in their lines alone have
  compilations that differ in their lines alone. The numbers must keep their order, for reports are
  sorted by them.
-/

namespace ComponentLang

variable {g : Int → Int}

/-- The token with a new line number. -/
def Token.renumber (g : Int → Int) (t : Token) : Token := { t with line := g t.line }

theorem forall₂_alike (ts : List Token) :
    List.Forall₂ (Token.Alike g) ts (ts.map (Token.renumber g)) := by
  rw [List.forall₂_map_right_iff, List.forall₂_same]
  intro t _
  exact ⟨rfl, rfl, rfl, rfl⟩

/-- Lines further down have the same tokens further down. -/
theorem Lexicon.tokensFrom_add (lex : Lexicon) (n k : Nat) (ls : List Text) :
    lex.tokensFrom (n + k) ls = (lex.tokensFrom n ls).map (Token.renumber (· + k)) := by
  induction ls generalizing n with
  | nil => rfl
  | cons l ls ih =>
    rw [Lexicon.tokensFrom, Lexicon.tokensFrom, List.map_append, ← ih, Nat.add_right_comm,
      Lexicon.token?, Lexicon.token?]
    cases readLine? l with
    | none => rfl
    | some content =>
      simp only [Option.map_some, Int.natCast_add]
      rfl

theorem Depth.assignFrom_renumber (stack : List Int) (ts : List Token) :
    Depth.assignFrom stack (ts.map (Token.renumber g)) =
      (Depth.assignFrom stack ts).map (Token.renumber g) := by
  induction ts generalizing stack with
  | nil => rfl
  | cons t ts ih =>
    rw [List.map_cons, Depth.assignFrom, Depth.assignFrom, List.map_cons, ← ih]
    rfl

theorem Lexicon.reports_renumber (lex : Lexicon) (ts : List Token) :
    lex.reports (ts.map (Token.renumber g)) = (lex.reports ts).map (Report.renumber g) := by
  have hreport : ∀ t : Token, lex.report? (t.renumber g) = (lex.report? t).map (Report.renumber g) := by
    intro t
    by_cases hw : t.width % lex.unit = 0
    · simp [Lexicon.report?, Token.renumber, hw]
    · simp [Lexicon.report?, Token.renumber, hw, Report.renumber, Problem.renumber]
  unfold Lexicon.reports
  rw [List.filterMap_map, List.map_filterMap]
  exact congrArg (ts.filterMap ·) (funext hreport)

/-- The compilation with `g l` in the place of each line `l`. -/
def Compilation.renumber (g : Int → Int) (r : Compilation) : Compilation :=
  ⟨r.manifest.renumber g, r.reports.map (Report.renumber g), r.file⟩

section

variable {settings : Settings} {s s' : Text}

theorem analyse_renumber (hg : KeepsOrder g)
    (h : settings.lexicon.tokens s' = (settings.lexicon.tokens s).map (Token.renumber g))
    (c : Companions) (file : Text) :
    analyse settings c file s' = (analyse settings c file s).renumber g := by
  have hread : readTokens settings.lexicon s' =
      (readTokens settings.lexicon s).map (Token.renumber g) := by
    rw [readTokens, h]
    exact Depth.assignFrom_renumber [] _
  have hbuild := buildManifest_renumber (forall₂_alike (g := g) (readTokens settings.lexicon s)) c
  simp only [analyse, Compilation.renumber]
  rw [hread, hbuild, h, Lexicon.reports_renumber, Manifest.reports_renumber hg, List.map_append]

/-- Under strict settings the reports behind a failure have the new numbers too. -/
theorem compile_renumber (hg : KeepsOrder g)
    (h : settings.lexicon.tokens s' = (settings.lexicon.tokens s).map (Token.renumber g))
    (c : Companions) (file : Text) :
    (compile settings c file s').mapError Failure.reports =
      match compile settings c file s with
      | .ok result => .ok (result.renumber g)
      | .error _ =>
        .error ((analyse settings c file s).reports.map fun r => (r.renumber g).render) := by
  have hok : ((analyse settings c file s).renumber g).ok = (analyse settings c file s).ok := by
    simp [Compilation.ok, Compilation.renumber]
  simp only [compile, analyse_renumber hg h, hok]
  split_ifs
  · simp [Except.mapError, Failure.ofReports, Compilation.renumber, Function.comp_def]
  · rfl

end

end ComponentLang
