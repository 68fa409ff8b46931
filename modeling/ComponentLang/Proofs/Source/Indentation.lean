import ComponentLang.Proofs.Lines.Tokens
import ComponentLang.Proofs.Reflow.Tokens
import Mathlib.Order.Monotone.Basic

/-!
# Relative indentation

The blanks before a line matter only in comparison with those before other lines. Where `f` is
increasing and keeps the margin, `f w` spaces may stand for any `w` blanks.

* `reindent f s` : the source `s` with `f w` spaces in the place of `w` blanks before each line;
* `readLine?_reindentLine`, `tokens_reindent` : the code of a line stays;
* `Depth.settle_map`, `assignFrom_reindent` : so does its depth, also where the line goes back to a
  width between two open ones;
* `analyse_reindent` : so do manifests. Only the reports on the indentation itself change.
-/

namespace ComponentLang

open Text (trim trimStart indentWidth dropReturns Blank isBlank)

section

variable (f : Nat → Nat)

/-- The line with `f w` spaces in the place of the `w` blanks before it. -/
def reindentLine (l : Text) : Text := List.replicate (f (indentWidth l)) ' ' ++ trimStart l

/-- The source with `f w` spaces in the place of the `w` blanks before each line. -/
def reindent (s : Text) : Text := Text.unlines ((Text.lines s).map (reindentLine f))

def Token.reindent (t : Token) : Token :=
  { t with width := f t.width.toNat, raw := reindentLine f t.raw }

/-! ## Lines -/

variable {lead core : Text}

theorem reindentLine_append (hlead : Blank lead) (hcore : ∀ c ∈ core.head?, ¬ isBlank c) :
    reindentLine f (lead ++ core) = List.replicate (f lead.length) ' ' ++ core := by
  rw [reindentLine, Text.indentWidth_append hlead hcore, Text.trimStart_append hlead,
    Text.trimStart_of_head hcore]

theorem head?_dropReturns (hcore : ∀ c ∈ core.head?, ¬ isBlank c) :
    ∀ c ∈ (dropReturns core).head?, ¬ isBlank c := by
  intro c hc
  obtain ⟨tail, _, ht⟩ := Text.exists_dropReturns core
  apply hcore
  rw [ht, List.head?_append, Option.mem_def.1 hc]
  rfl

/-- Blanks before a line are all that it has more than the line without them. -/
theorem readLine?_append (hlead : Blank lead) (hne : core ≠ [])
    (hcore : ∀ c ∈ core.head?, ¬ isBlank c) :
    readLine? (lead ++ core) =
      (readLine? core).map fun c => ⟨lead.length, c.text, lead ++ dropReturns core⟩ := by
  have hraw : dropReturns (lead ++ core) = lead ++ dropReturns core := by
    obtain ⟨c, rest, rfl⟩ := List.exists_cons_of_ne_nil hne
    have hc : c ≠ '\r' := by
      rintro rfl
      exact hcore _ rfl (by decide)
    exact Text.dropEndWhile_append_of_mem List.mem_cons_self (by simpa using hc) lead
  have hstrip : Comment.strip (lead ++ dropReturns core) = lead ++ Comment.strip (dropReturns core) := by
    rw [Comment.strip_eq_read, Comment.strip_eq_read,
      Comment.read_code_append (Comment.neutral_of_blank hlead)]
  unfold readLine?
  dsimp only
  rw [hraw, hstrip, Text.trim_blank_append hlead, Text.trim_blank_append hlead, Text.indentWidth_append hlead (head?_dropReturns hcore)]
  split_ifs
  · rfl
  · rfl

theorem readLine?_reindentLine (l : Text) :
    readLine? (reindentLine f l) =
      (readLine? l).map fun c => ⟨f c.width, c.text, reindentLine f c.raw⟩ := by
  obtain ⟨lead, hlead, hl⟩ := Text.exists_trimStart l
  have hcore := Text.head?_trimStart l
  by_cases hne : trimStart l = []
  · rw [hne, List.append_nil] at hl
    have hblank : Blank (reindentLine f l) := by
      rw [reindentLine, hne, List.append_nil]
      exact Text.blank_replicate _
    rw [Reflow.readLine?_of_blank hblank, Reflow.readLine?_of_blank (hl ▸ hlead), Option.map_none]
  · have hspaces := Text.blank_replicate (f lead.length)
    rw [hl, reindentLine_append f hlead hcore, readLine?_append hspaces hne hcore,
      readLine?_append hlead hne hcore, Option.map_map]
    congr 1
    funext c
    simp [reindentLine_append f hlead (head?_dropReturns hcore)]

/-! ## Tokens -/

theorem lines_reindent (s : Text) :
    Text.lines (reindent f s) = (Text.lines s).map (reindentLine f) := by
  apply Text.lines_unlines_map
  intro l hl hmem
  rcases List.mem_append.1 hmem with hmem | hmem
  · exact absurd (List.eq_of_mem_replicate hmem) (by decide)
  · exact hl ((List.dropWhile_sublist _).subset hmem)

theorem tokens_reindent (lex : Lexicon) (s : Text) :
    lex.tokens (reindent f s) = (lex.tokens s).map (Token.reindent f) := by
  unfold Lexicon.tokens
  rw [lines_reindent]
  generalize 1 = n
  induction Text.lines s generalizing n with
  | nil => rfl
  | cons l ls ih =>
    rw [List.map_cons, Lexicon.tokensFrom, Lexicon.tokensFrom, List.map_append, ih, Lexicon.token?,
      Lexicon.token?, readLine?_reindentLine]
    cases readLine? l <;> rfl

end

/-! ## Depths -/

/-- Widths that keep their order open and close the same indentations. -/
theorem Depth.settle_map {g : Int → Int} (hg : KeepsOrder g) (stack : List Int) (w : Int) :
    settle (stack.map g) (g w) = (settle stack w).map g := by
  cases stack with
  | nil =>
    have hpos := hg.lt_iff 0 w
    rw [hg.zero] at hpos
    simp only [List.map_nil, settle, hpos]
    split_ifs
    · rfl
    · rfl
  | cons top rest =>
    simp only [List.map_cons, settle, hg.lt_iff]
    split_ifs
    · rfl
    · rw [← List.map_cons, List.dropWhile_map]
      simp only [Function.comp_def, hg.lt_iff]

section

variable {f : Nat → Nat}

/-- `f` on the widths, and nothing else left of the margin. -/
def spread (f : Nat → Nat) (i : Int) : Int := if 0 ≤ i then f i.toNat else i

theorem keepsOrder_spread (hf : StrictMono f) (h0 : f 0 = 0) : KeepsOrder (spread f) := by
  constructor
  · intro i j hij
    unfold spread
    split_ifs with hi hj hj
    · have hlt : f i.toNat < f j.toNat := hf (by omega)
      omega
    · omega
    · omega
    · exact hij
  · simp [spread, h0]

theorem assignFrom_reindent (hf : StrictMono f) (h0 : f 0 = 0) {ts : List Token}
    (hts : ∀ t ∈ ts, 0 ≤ t.width) (stack : List Int) :
    Depth.assignFrom (stack.map (spread f)) (ts.map (Token.reindent f)) =
      (Depth.assignFrom stack ts).map (Token.reindent f) := by
  induction ts generalizing stack with
  | nil => rfl
  | cons t ts ih =>
    rw [List.forall_mem_cons] at hts
    have hwidth : (t.reindent f).width = spread f t.width := (if_pos hts.1).symm
    have hsettle := Depth.settle_map (keepsOrder_spread hf h0) stack t.width
    rw [List.map_cons, Depth.assignFrom, hwidth, hsettle, ih hts.2, List.length_map, ← hwidth,
      Depth.assignFrom, List.map_cons]
    rfl

/-! ## Compilations -/

theorem width_nonneg {lex : Lexicon} {s : Text} {t : Token} (h : t ∈ lex.tokens s) : 0 ≤ t.width := by
  obtain ⟨line, _, n, htoken⟩ := exists_line_of_mem_tokensFrom h
  obtain ⟨content, _, rfl⟩ := Option.map_eq_some_iff.1 htoken
  exact Int.natCast_nonneg _

theorem buildManifest_reindent (hf : StrictMono f) (h0 : f 0 = 0) (lex : Lexicon) (c : Companions)
    (s : Text) :
    buildManifest (readTokens lex (reindent f s)) c = buildManifest (readTokens lex s) c := by
  have hread : readTokens lex (reindent f s) = (readTokens lex s).map (Token.reindent f) := by
    rw [readTokens, tokens_reindent]
    exact assignFrom_reindent hf h0 (fun t ht => width_nonneg ht) []
  have halike : List.Forall₂ (Token.Alike id) (readTokens lex s)
      (readTokens lex (reindent f s)) := by
    rw [hread, List.forall₂_map_right_iff, List.forall₂_same]
    intro t _
    exact ⟨rfl, rfl, rfl, rfl⟩
  rw [buildManifest_renumber halike, Manifest.renumber_id]

theorem reports_reindent (f : Nat → Nat) (lex : Lexicon) (s : Text) :
    lex.reports (lex.tokens (reindent f s)) =
      ((lex.tokens s).filter fun t => f t.width.toNat % lex.unit ≠ 0).map fun t =>
        ⟨t.line, .misaligned (f t.width.toNat) lex.unit⟩ := by
  rw [tokens_reindent, Lexicon.reports, List.filterMap_map, ← List.filterMap_eq_filter,
    List.map_filterMap]
  congr 1
  funext t
  have hmod : (f t.width.toNat : Int) % lex.unit = 0 ↔ f t.width.toNat % lex.unit = 0 := by omega
  by_cases h : f t.width.toNat % lex.unit = 0
  · simp [Lexicon.report?, Token.reindent, Option.guard, hmod, h]
  · simp [Lexicon.report?, Token.reindent, Option.guard, hmod, h]

/-- **Only relative indentation matters.** Where `f` is increasing and keeps the margin, a source that
is indented by `f w` spaces in the place of `w` blanks has the same manifest, with the same lines. The
reports on its indentation are those on the lines of code whose new width is no multiple of the unit,
and those on its declarations stay. -/
theorem analyse_reindent (hf : StrictMono f) (h0 : f 0 = 0) (settings : Settings) (c : Companions)
    (file s : Text) :
    let lex := settings.lexicon
    let uneven : List Report :=
      ((lex.tokens s).filter fun t => f t.width.toNat % lex.unit ≠ 0).map fun t =>
        ⟨t.line, .misaligned (f t.width.toNat) lex.unit⟩
    (analyse settings c file (reindent f s)).manifest = (analyse settings c file s).manifest ∧
    lex.reports (lex.tokens (reindent f s)) = uneven ∧
    (analyse settings c file (reindent f s)).reports =
      uneven ++ (analyse settings c file s).manifest.reports settings.warnRepeats := by
  have hmanifest := buildManifest_reindent hf h0 settings.lexicon c s
  have hreports := reports_reindent f settings.lexicon s
  simp only [analyse]
  refine ⟨hmanifest, hreports, ?_⟩
  rw [hmanifest, hreports]

end

/-- A line goes back to a width between two open ones, and the lines of a head are nested. -/
def stairs : Text := "view:\n   ul:\n      li:\n    p\nhead:\n\t\tlink:\n     rel: me".toList

/-- With the square of each width, nothing in the manifest moves, and two lines are now uneven. -/
theorem analyse_reindent_stairs :
    StrictMono (fun w : Nat => w * w) ∧ (fun w : Nat => w * w) 0 = 0 ∧
    (analyse {} {} memoryFile (reindent (fun w => w * w) stairs)).manifest =
      (analyse {} {} memoryFile stairs).manifest ∧
    (readTokens {} stairs).map Token.depth = [0, 1, 2, 1, 0, 1, 2] ∧
    (analyse {} {} memoryFile (reindent (fun w => w * w) stairs)).reports =
      [⟨2, .misaligned 9 4⟩, ⟨7, .misaligned 25 4⟩] := by
  have hmono : StrictMono (fun w : Nat => w * w) := fun a b hab => Nat.mul_self_lt_mul_self hab
  obtain ⟨hmanifest, _, hreports⟩ := analyse_reindent hmono rfl {} {} memoryFile stairs
  refine ⟨hmono, rfl, hmanifest, ?_, ?_⟩
  · decide +kernel
  · rw [hreports]
    decide +kernel

end ComponentLang
