import ComponentLang.Proofs.Lines.Tokens
import ComponentLang.Proofs.Reflow.Visible
import ComponentLang.Proofs.Report.Line

/-!
# Strict compilations

Under strict settings a compilation with reports fails. The failure points to the line of the first
report, which it finds in the text of that report.

* `exists_line_of_mem_tokens` : the number of a token is that of a line of the source that is not blank;
* `renumber_buildManifest_eq` : numbers that stay on the tokens stay in the manifest;
* `exists_token_of_mem_reports` : so each report is on the line of a token;
* `compile_strict` : when a strict compilation fails, and where its failure points to.
-/

namespace ComponentLang

open Text (trim)

/-! ## Lines of tokens -/

theorem exists_index_of_mem_tokensFrom {lex : Lexicon} {ls : List Text} {n : Nat} {t : Token}
    (h : t ∈ lex.tokensFrom n ls) :
    ∃ i line, ls[i]? = some line ∧ t.line = (n + i : Nat) ∧ trim line ≠ [] := by
  induction ls generalizing n with
  | nil => cases h
  | cons line ls ih =>
    rcases List.mem_append.1 h with h | h
    · obtain ⟨c, hread, rfl⟩ := Option.map_eq_some_iff.1 (Option.mem_toList.1 h)
      exact ⟨0, line, rfl, rfl, Reflow.trim_ne_nil_of_readLine? hread⟩
    · obtain ⟨i, line', hline, hnumber, hne⟩ := ih h
      refine ⟨i + 1, line', hline, ?_, hne⟩
      rw [hnumber]
      congr 1
      omega

/-- The number of a token is that of a line that is not blank. -/
theorem exists_line_of_mem_tokens {lex : Lexicon} {source : Text} {t : Token}
    (h : t ∈ lex.tokens source) :
    ∃ (n : Nat) (line : Text), t.line = n ∧ 0 < n ∧ (Text.lines source)[n - 1]? = some line ∧
      trim line ≠ [] := by
  obtain ⟨i, line, hline, hnumber, hne⟩ := exists_index_of_mem_tokensFrom h
  refine ⟨1 + i, line, hnumber, by omega, ?_, hne⟩
  rw [Nat.add_sub_cancel_left, hline]

/-! ## Lines of reports -/

theorem renumber_buildManifest_eq {g : Int → Int} {ts : List Token}
    (h : ∀ t ∈ ts, g t.line = t.line) (c : Companions) :
    (buildManifest ts c).renumber g = buildManifest ts c := by
  have halike : List.Forall₂ (Token.Alike g) ts ts := by
    rw [List.forall₂_same]
    intro t ht
    exact ⟨(h t ht).symm, rfl, rfl, rfl⟩
  exact (buildManifest_renumber halike c).symm

/-- A repeated declaration is reported on the line of a token. The builder only passes numbers on, so a
number that is on no token could be replaced by any other. -/
theorem exists_token_of_mem_repeats {ts : List Token} {c : Companions} {r : Report}
    (h : r ∈ (buildManifest ts c).repeats) : ∃ t ∈ ts, t.line = r.line := by
  let g : Int → Int := fun l => if ∃ t ∈ ts, t.line = l then l else l + 1
  have hkept : ∀ t ∈ ts, g t.line = t.line := fun t ht => if_pos ⟨t, ht, rfl⟩
  have hmap := Manifest.repeats_renumber g (buildManifest ts c)
  rw [renumber_buildManifest_eq hkept, ← List.map_id (Manifest.repeats _), List.map_map] at hmap
  have hr : g r.line = r.line := congrArg Report.line (List.map_inj_left.1 hmap r h).symm
  by_contra hnone
  have hmoved : g r.line = r.line + 1 := if_neg hnone
  omega

theorem exists_token_of_mem_reports {settings : Settings} {c : Companions} {file source : Text}
    {r : Report} (h : r ∈ (analyse settings c file source).reports) :
    ∃ t ∈ settings.lexicon.tokens source, t.line = r.line := by
  rcases List.mem_append.1 h with h | h
  · obtain ⟨t, ht, hreport⟩ := List.mem_filterMap.1 h
    rw [Lexicon.report?] at hreport
    split_ifs at hreport
    cases hreport
    exact ⟨t, ht, rfl⟩
  · have hrepeat : r ∈ (buildManifest (readTokens settings.lexicon source) c).repeats := by
      change r ∈ Manifest.reports _ settings.warnRepeats at h
      rw [Manifest.reports] at h
      split_ifs at h
      · exact List.mem_mergeSort.1 h
      · cases h
    obtain ⟨t, ht, hline⟩ := exists_token_of_mem_repeats hrepeat
    -- depths are assigned without a look at the lines
    have hlines : (readTokens settings.lexicon source).map Token.line =
        (settings.lexicon.tokens source).map Token.line := map_assign (fun _ _ => rfl) _
    have hmem := List.mem_map_of_mem (f := Token.line) ht
    rw [hlines, hline] at hmem
    exact List.mem_map.1 hmem

/-! ## Failures -/

/-- A failure points to the line of its first report. -/
theorem location_ofReports {r : Report} {n : Nat} (hr : r.line = n) (hn : 0 < n) (rs : List Report)
    (file source : Text) :
    (Failure.ofReports ((r :: rs).map Report.render) file (some source)).location =
      some ⟨file, n, 1, (Text.lines source)[n - 1]?⟩ := by
  have hne : n ≠ 0 := by omega
  simp [Failure.ofReports, lineOfReport?_render hr, Failure.sourceLine?, hne]

/-- **Under strict settings, a compilation fails if and only if there is something to report.** If
there is not, its result is that of the same compilation under lax settings. If there is, the failure
has all the reports, in their order. Each of them names the line of a token, and the failure points to
the one that the first of them names: to its first column, with the line as it stands in the source,
which is not blank. -/
theorem compile_strict (settings : Settings) (c : Companions) (file source : Text) :
    let strict : Settings := { settings with strict := true }
    let lax : Settings := { settings with strict := false }
    ∃ result, compile lax c file source = .ok result ∧
      ((∃ failure, compile strict c file source = .error failure) ↔ result.reports ≠ []) ∧
      (result.reports = [] → compile strict c file source = .ok result) ∧
      ∀ failure, compile strict c file source = .error failure →
        failure.reports = result.reports.map Report.render ∧
        (∀ text ∈ failure.reports, ∃ t ∈ settings.lexicon.tokens source, ∃ n : Nat,
          t.line = n ∧ lineOfReport? text = some n) ∧
        ∃ (n : Nat) (snippet : Text), failure.reports.head?.bind lineOfReport? = some n ∧
          failure.location = some ⟨file, n, 1, some snippet⟩ ∧
          0 < n ∧ (Text.lines source)[n - 1]? = some snippet ∧ trim snippet ≠ [] := by
  intro strict lax
  have hreport : ∀ r ∈ (analyse settings c file source).reports,
      ∃ t ∈ settings.lexicon.tokens source, t.line = r.line :=
    fun r hr => exists_token_of_mem_reports hr
  have hstrict : compile strict c file source =
      if (analyse settings c file source).ok then .ok (analyse settings c file source)
      else .error (.ofReports ((analyse settings c file source).reports.map Report.render) file
        (some source)) := by
    show (if true && !(analyse settings c file source).ok then _ else _) = _
    cases (analyse settings c file source).ok <;> rfl
  refine ⟨analyse settings c file source, rfl, ?_⟩
  rw [hstrict, Compilation.ok]
  generalize analyse settings c file source = result at hreport ⊢
  cases hresult : result.reports with
  | nil => simp
  | cons r rs =>
    rw [hresult] at hreport
    have hlines : ∀ r' ∈ r :: rs, ∃ t ∈ settings.lexicon.tokens source, ∃ n : Nat,
        t.line = n ∧ lineOfReport? r'.render = some n := by
      intro r' hr'
      obtain ⟨t, ht, hline⟩ := hreport r' hr'
      obtain ⟨n, _, hn, _⟩ := exists_line_of_mem_tokens ht
      exact ⟨t, ht, n, hn, lineOfReport?_render (hline.symm.trans hn)⟩
    obtain ⟨t, ht, hline⟩ := hreport r List.mem_cons_self
    obtain ⟨n, snippet, hn, hpos, hsnippet, hne⟩ := exists_line_of_mem_tokens ht
    have hr : r.line = n := hline.symm.trans hn
    refine ⟨by simp, by simp, ?_⟩
    rintro failure ⟨⟩
    refine ⟨rfl, ?_, n, snippet, lineOfReport?_render hr, ?_, hpos, hsnippet, hne⟩
    · intro text htext
      obtain ⟨r', hr', rfl⟩ := List.mem_map.1 htext
      exact hlines r' hr'
    · rw [location_ofReports hr hpos, hsnippet]

/-- A state declared twice, with a line between that is indented by three. -/
def unevenTwice : Text := "$n = 1\n   p: x\n$n = 2".toList

/-- Two reports, and the failure points to the first. -/
theorem compile_strict_unevenTwice :
    ∃ failure, compile { strict := true } {} memoryFile unevenTwice = .error failure ∧
      failure.reports =
        ["Line 2: Indentation Error (used 3 spaces, must be multiple of 4)".toList,
          "Line 3: Duplicate state 'n' (first declared on line 1)".toList] ∧
      failure.location = some ⟨memoryFile, 2, 1, some "   p: x".toList⟩ := by
  obtain ⟨result, hlax, hfails, -, hfailure⟩ := compile_strict {} {} memoryFile unevenTwice
  have hreports : result.reports.map Report.render =
      ["Line 2: Indentation Error (used 3 spaces, must be multiple of 4)".toList,
        "Line 3: Duplicate state 'n' (first declared on line 1)".toList] := by
    cases hlax
    decide +kernel
  obtain ⟨failure, h⟩ := hfails.2 (by rintro hnil; rw [hnil] at hreports; cases hreports)
  obtain ⟨hall, -, n, snippet, hfirst, hlocation, -, hsnippet, -⟩ := hfailure failure h
  rw [hreports] at hall
  rw [hall] at hfirst
  have hn : 2 = n := Option.some.inj hfirst
  subst hn
  have hline : "   p: x".toList = snippet := Option.some.inj hsnippet
  subst hline
  exact ⟨failure, h, hall, hlocation⟩

end ComponentLang
