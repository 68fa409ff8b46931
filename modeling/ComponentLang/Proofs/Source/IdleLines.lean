import ComponentLang.Proofs.Lines.Tokens
import ComponentLang.Proofs.Reflow.Tokens
import Mathlib.Algebra.Order.BigOperators.Group.Finset

/-!
# Blank lines and lines of comments

* `Idle` : a line that is blank or, apart from its indentation, begins with a hash or two slashes;
* `padded gap s` : the source `s` with the lines `gap k` after its line `k`, and `gap 0` before all;
* `newLine gap` : where each line of `s` is then. The lines keep their order (`keepsOrder_newLine`);
* `tokens_padded` : idle lines have no tokens, and move the others down;
* `compile_padded` : so the compilation of `s` is moved down.
-/

namespace ComponentLang

open Text (trim)

/-- A line that is blank, or only a comment. -/
def Idle (l : Text) : Prop :=
  '\n' ∉ l ∧ (trim l = [] ∨ Text.startsWith ['#'] (trim l) ∨ Text.startsWith ['/', '/'] (trim l))

instance (l : Text) : Decidable (Idle l) := inferInstanceAs (Decidable (_ ∧ _))

/-- An idle line has no code on it. -/
theorem Idle.readLine?_eq {l : Text} (h : Idle l) : readLine? l = none := by
  rcases h.2 with hblank | hhash | hslashes
  · exact Reflow.readLine?_of_blank (Text.trim_eq_nil.1 hblank)
  · simp [readLine?, Text.trim_dropReturns, hhash]
  · obtain ⟨lead, tail, hlead, _, hraw⟩ := Text.exists_pad (Text.dropReturns l)
    obtain ⟨w, hw⟩ := Comment.exists_slashes hslashes
    have hstrip := Reflow.trim_strip_of_starts hlead (Comment.starts_slashes (w ++ tail))
    rw [Text.trim_dropReturns, hw, List.cons_append, List.cons_append] at hraw
    rw [← hraw] at hstrip
    simp [readLine?, hstrip]

/-! ## Lines between lines -/

section

variable (gap : Nat → List Text)

/-- The lines of numbers from `n + 1` on, with those of the gaps after each, and those of the gap `n`
first. -/
def interleave : Nat → List Text → List Text
  | n, [] => gap n
  | n, l :: ls => gap n ++ l :: interleave (n + 1) ls

/-- The source with the lines `gap k` after its line `k`, and `gap 0` before its first. -/
def padded (s : Text) : Text := Text.unlines (interleave gap 0 (Text.lines s))

/-- Where the line `i` is in the new source: as many lines further down as there are in the gaps
before it. -/
def newLine (i : Int) : Int := i + (∑ k ∈ Finset.range i.toNat, (gap k).length : Nat)

theorem newLine_succ (n : Nat) :
    newLine gap ((n + 1 : Nat) : Int) = newLine gap n + 1 + (gap n).length := by
  unfold newLine
  rw [Int.toNat_natCast, Int.toNat_natCast, Finset.sum_range_succ]
  omega

theorem keepsOrder_newLine : KeepsOrder (newLine gap) := by
  refine ⟨?_, rfl⟩
  intro i j hij
  have hsum : ∑ k ∈ Finset.range i.toNat, (gap k).length ≤
      ∑ k ∈ Finset.range j.toNat, (gap k).length := by
    apply Finset.sum_le_sum_of_subset
    apply Finset.range_mono
    omega
  unfold newLine
  omega

theorem interleave_ne_nil {ls : List Text} (hne : ls ≠ []) (n : Nat) : interleave gap n ls ≠ [] := by
  obtain ⟨l, ls, rfl⟩ := List.exists_cons_of_ne_nil hne
  simp [interleave]

theorem mem_interleave {l : Text} {ls : List Text} {n : Nat} (h : l ∈ interleave gap n ls) :
    l ∈ ls ∨ ∃ k, l ∈ gap k := by
  induction ls generalizing n with
  | nil => exact .inr ⟨n, h⟩
  | cons l' ls ih =>
    rw [interleave, List.mem_append, List.mem_cons] at h
    rcases h with h | rfl | h
    · exact .inr ⟨n, h⟩
    · exact .inl List.mem_cons_self
    · rcases ih h with h | h
      · exact .inl (List.mem_cons_of_mem _ h)
      · exact .inr h

end

variable {gap : Nat → List Text} (hgap : ∀ k, ∀ l ∈ gap k, Idle l)

include hgap

theorem lines_padded (s : Text) : Text.lines (padded gap s) = interleave gap 0 (Text.lines s) := by
  apply Text.lines_unlines
  · exact interleave_ne_nil gap (Text.pieces_ne_nil _ _) 0
  · intro l hl
    rcases mem_interleave gap hl with hl | ⟨k, hl⟩
    · exact Text.not_mem_of_mem_pieces hl
    · exact (hgap k l hl).1

/-- The token on the line `n + 1` is found `newLine gap (n + 1)` lines down. -/
theorem tokensFrom_interleave (lex : Lexicon) {n m : Nat} (hm : (m : Int) = newLine gap n + 1)
    (ls : List Text) :
    lex.tokensFrom m (interleave gap n ls) =
      (lex.tokensFrom (n + 1) ls).map (Token.renumber (newLine gap)) := by
  have hnone : ∀ n, ∀ l ∈ gap n, readLine? l = none := fun n l hl => (hgap n l hl).readLine?_eq
  induction ls generalizing n m with
  | nil => exact Reflow.tokensFrom_eq_nil lex (hnone n) m
  | cons l ls ih =>
    -- the gap before the line has moved it to its new place
    have hline : ((m + (gap n).length : Nat) : Int) = newLine gap (n + 1 : Nat) := by
      rw [newLine_succ]
      omega
    have hnext := ih (n := n + 1) (m := m + (gap n).length + 1) (by omega)
    rw [interleave, Reflow.tokensFrom_append, Reflow.tokensFrom_eq_nil lex (hnone n), List.nil_append,
      Lexicon.tokensFrom, hnext, Lexicon.tokensFrom, List.map_append, Lexicon.token?, Lexicon.token?]
    cases readLine? l with
    | none => rfl
    | some content =>
      simp only [Option.map_some, hline]
      rfl

theorem tokens_padded (lex : Lexicon) (s : Text) :
    lex.tokens (padded gap s) = (lex.tokens s).map (Token.renumber (newLine gap)) := by
  rw [Lexicon.tokens, lines_padded hgap]
  exact tokensFrom_interleave hgap (n := 0) lex rfl _

/-- **Blank lines and comments are invisible.** Wherever such lines come between those of a source,
its compilation is the old one with each line number replaced by the new position of the line. -/
theorem compile_padded (settings : Settings) (c : Companions) (file s : Text) :
    analyse settings c file (padded gap s) =
      (analyse settings c file s).renumber (newLine gap) ∧
    (compile settings c file (padded gap s)).mapError Failure.reports =
      match compile settings c file s with
      | .ok result => .ok (result.renumber (newLine gap))
      | .error _ => .error
        ((analyse settings c file s).reports.map fun r => (r.renumber (newLine gap)).render) := by
  have htokens := tokens_padded hgap settings.lexicon s
  have hnew := keepsOrder_newLine gap
  exact ⟨analyse_renumber hnew htokens c file, compile_renumber hnew htokens c file⟩

omit hgap

/-- A state is declared twice, and between the two an alternate belongs to the condition before it. -/
def ledger : Text :=
  "component Ledger\n$sum = 0\nview:\n    if $sum:\n        p\n    else:\n        b\n$sum = 1".toList

/-- Lines before the first, after the second and inside the condition. -/
def ledgerNotes : List (List Text) :=
  [["// of accounts".toList], [], [[], "   # twice".toList], [], [], ["\t//p".toList]]

/-- The condition keeps its alternate, and the report names the new places of both declarations. -/
theorem compile_padded_ledger :
    (∀ k, ∀ l ∈ ledgerNotes.getD k [], Idle l) ∧
    padded (ledgerNotes.getD · []) ledger =
      ("// of accounts\ncomponent Ledger\n$sum = 0\n\n   # twice\nview:\n    if $sum:\n        p\n" ++
        "\t//p\n    else:\n        b\n$sum = 1").toList ∧
    (analyse {} {} memoryFile (padded (ledgerNotes.getD · []) ledger)).reports =
      [⟨12, .repeated .state "sum".toList 3⟩] ∧
    ((analyse {} {} memoryFile (padded (ledgerNotes.getD · []) ledger)).manifest.view.flatMap
      ViewNode.childLists).map (·.map ViewNode.line) = [[8], [11]] := by
  have hnotes : ∀ k, ∀ l ∈ ledgerNotes.getD k [], Idle l := by
    intro k l hl
    have hall : ∀ ls ∈ ledgerNotes, ∀ l ∈ ls, Idle l := by decide +kernel
    rw [List.getD_eq_getElem?_getD] at hl
    cases hk : ledgerNotes[k]? with
    | none =>
      rw [hk] at hl
      cases hl
    | some ls =>
      rw [hk] at hl
      exact hall ls (List.mem_of_getElem? hk) l hl
  have hanalyse := (compile_padded hnotes {} {} memoryFile ledger).1
  refine ⟨hnotes, ?_, ?_⟩
  · decide +kernel
  · rw [hanalyse]
    decide +kernel

end ComponentLang
