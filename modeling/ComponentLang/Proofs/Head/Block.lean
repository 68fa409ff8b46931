import ComponentLang.Proofs.Head.Merge
import ComponentLang.Proofs.Head.Outline
import ComponentLang.Proofs.Logic.Body
import ComponentLang.Proofs.Source.Indentation

/-!
# Head blocks

A head may be written as a block of the source or as a text of its own. Both are read alike, but for
comments: in a source, two slashes outside strings begin one.

* `headBlock h` : the source with the head `h` as a block;
* `bare h` : the head `h` without what would be comments in a source;
* `outline_bare` : of this, what is read of the lines in a source is the outline;
* `map_headText` : the lines that the block collects are those of that outline;
* `buildManifest_head` : a head block leaves nothing behind but its head;
* `compile_headBlock` : so the block gives the head that `bare h` gives.
-/

namespace ComponentLang

open Text (trim Blank indentWidth)

/-! ## Heads without comments -/

namespace Head

/-- The line without its comment. A line that begins with a hash is a comment in any case. -/
def bareLine (l : Text) : Text := if Text.startsWith ['#'] (trim l) then l else Comment.strip l

/-- The text without the comments on its lines. -/
def bare (t : Text) : Text := Text.unlines ((Text.lines t).map bareLine)

theorem isPrefix_bareLine (l : Text) : bareLine l <+: l := by
  unfold bareLine
  split_ifs
  · exact List.prefix_rfl
  · exact Comment.isPrefix_strip l

theorem lines_bare (t : Text) : Text.lines (bare t) = (Text.lines t).map bareLine := by
  apply Text.lines_unlines_map
  intro l hl hfeed
  exact hl ((isPrefix_bareLine l).subset hfeed)

/-- A text without comments stays as it is. -/
theorem bare_eq_self {t : Text}
    (h : ∀ l ∈ Text.lines t, Text.startsWith ['#'] (trim l) ∨ Comment.strip l = l) : bare t = t := by
  have hlines : (Text.lines t).map bareLine = Text.lines t := by
    apply (List.map_congr_left _).trans (List.map_id _)
    intro l hl
    unfold bareLine
    split_ifs with hhash
    · rfl
    · exact (h l hl).resolve_left hhash
  rw [bare, hlines]
  exact Text.intercalate_pieces '\n' t

/-- A line of a source on which there is no code says nothing in a head. -/
theorem isCode_bareLine_of_none {l : Text} (h : readLine? l = none) : ¬ isCode (bareLine l) := by
  unfold readLine? at h
  dsimp only at h
  split_ifs at h with hnone
  rw [Text.trim_dropReturns, Comment.trim_strip_dropReturns] at hnone
  unfold bareLine
  split_ifs with hhash
  · simp [isCode, hhash]
  · have hnil : trim (Comment.strip l) = [] := by simpa [hhash] using hnone
    simp [isCode, hnil]

/-- The code on a line of a source is what counts in a head, once the comment is gone. -/
theorem isCode_bareLine_of_some {l : Text} {c : Content} (h : readLine? l = some c) :
    isCode (bareLine l) ∧ indentWidth (bareLine l) = c.width ∧ trim (bareLine l) = c.text := by
  have hprefix := Reflow.isPrefix_text h
  unfold readLine? at h
  dsimp only at h
  split_ifs at h with hsome
  cases h
  rw [Comment.trim_strip_dropReturns] at hprefix
  rw [Text.trim_dropReturns, Comment.trim_strip_dropReturns, Bool.or_eq_true_iff, not_or,
    decide_eq_true_eq] at hsome
  obtain ⟨hhash, hcode⟩ := hsome
  have hline : trim l ≠ [] := by
    intro hnil
    rw [hnil, List.prefix_nil] at hprefix
    exact hcode hprefix
  have hwidth := Text.indentWidth_of_isPrefix (Comment.isPrefix_strip l) hcode
  rw [bareLine, if_neg hhash]
  refine ⟨isCode_iff.2 ⟨hcode, fun hstart => hhash ?_⟩, ?_, (Comment.trim_strip_dropReturns l).symm⟩
  · exact Text.startsWith_iff.2 ((Text.startsWith_iff.1 hstart).trans hprefix)
  · rw [← hwidth, Text.indentWidth_dropReturns hline]

theorem outline_bare (t : Text) :
    outline (bare t) = ((Text.lines t).filterMap readLine?).map fun c => (c.width, c.text) := by
  rw [outline, lines_bare]
  induction Text.lines t with
  | nil => rfl
  | cons l ls ih =>
    rw [List.map_cons, List.filterMap_cons]
    cases hread : readLine? l with
    | none =>
      rw [List.filter_cons_of_neg (isCode_bareLine_of_none hread)]
      exact ih
    | some c =>
      obtain ⟨hcode, hwidth, htext⟩ := isCode_bareLine_of_some hread
      rw [List.filter_cons_of_pos hcode, List.map_cons, ih, List.map_cons, hwidth, htext]

/-- Each line that is neither blank nor a comment stands at the margin or is indented by one level,
and the first of them stands at the margin. -/
structure TwoLevel (t : Text) : Prop where
  indented : ∀ e ∈ outline t, e.1 = 0 ∨ e.1 = Scope.headIndent
  first : ∀ e ∈ (outline t).head?, e.1 = 0

end Head

/-! ## Tokens of a head block -/

/-- The line with one level of indentation more. -/
def indented (l : Text) : Text := List.replicate Scope.headIndent ' ' ++ l

/-- The source that has nothing but a head block, with the lines of `h` in it. -/
def headBlock (h : Text) : Text :=
  "head:".toList ++ '\n' :: Text.unlines ((Text.lines h).map indented)

/-- The token on the first line of a head block. -/
def headOpener : Token := ⟨1, 0, .head, "head:".toList, "head:".toList, 0⟩

/-- The tokens on the other lines. -/
def headTokens (lex : Lexicon) (h : Text) : List Token :=
  lex.tokensFrom 2 ((Text.lines h).map indented)

theorem readLine?_indented (l : Text) :
    readLine? (indented l) =
      (readLine? l).map fun c => ⟨c.width + Scope.headIndent, c.text, indented c.raw⟩ := by
  have hspaces := Text.blank_replicate Scope.headIndent
  obtain ⟨lead, hlead, hl⟩ := Text.exists_trimStart l
  have hcore := Text.head?_trimStart l
  by_cases hne : Text.trimStart l = []
  · rw [hne, List.append_nil] at hl
    have hblank : Blank (indented l) := hspaces.append (hl ▸ hlead)
    rw [Reflow.readLine?_of_blank hblank, Reflow.readLine?_of_blank (hl ▸ hlead), Option.map_none]
  · have hassoc : indented l =
        (List.replicate Scope.headIndent ' ' ++ lead) ++ Text.trimStart l := by
      rw [List.append_assoc, ← hl]
      rfl
    rw [hassoc, readLine?_append (hspaces.append hlead) hne hcore]
    conv_rhs => rw [hl, readLine?_append hlead hne hcore]
    rw [Option.map_map]
    rfl

theorem map_headTokens (lex : Lexicon) (h : Text) :
    (headTokens lex h).map (fun t => (t.width, t.text)) =
      (Head.outline (Head.bare h)).map fun e => (((e.1 + Scope.headIndent : Nat) : Int), e.2) := by
  rw [Head.outline_bare, headTokens]
  generalize 2 = n
  induction Text.lines h generalizing n with
  | nil => rfl
  | cons l ls ih =>
    rw [List.map_cons, Lexicon.tokensFrom, List.map_append, ih, Lexicon.token?, readLine?_indented,
      List.filterMap_cons]
    cases readLine? l <;> rfl

theorem tokens_headBlock (settings : Settings) (h : Text) :
    settings.lexicon.tokens (headBlock h) =
      headOpener :: headTokens settings.lexicon h := by
  have hrest : Text.lines (Text.unlines ((Text.lines h).map indented)) =
      (Text.lines h).map indented := by
    apply Text.lines_unlines_map
    intro l hl hfeed
    rcases List.mem_append.1 hfeed with hfeed | hfeed
    · exact absurd (List.eq_of_mem_replicate hfeed) (by decide)
    · exact hl hfeed
  have hlines : Text.lines (headBlock h) = "head:".toList :: (Text.lines h).map indented := by
    apply (Text.lines_append _ _).trans
    rw [hrest]
    rfl
  have hread : readLine? "head:".toList = some ⟨0, "head:".toList, "head:".toList⟩ := by
    decide +kernel
  have hopener : settings.lexicon.token? "head:".toList 1 = some headOpener := by
    rw [Lexicon.token?, hread]
    rfl
  rw [Lexicon.tokens, hlines, Lexicon.tokensFrom, hopener]
  rfl

/-! ## The run over a head block -/

/-- The manifest with a head and nothing else. -/
def Manifest.ofHead (h : Head) : Manifest := { Manifest.empty with head := h }

theorem Manifest.reports_ofHead (h : Head) (warnRepeats : Bool) :
    (ofHead h).reports warnRepeats = [] := by
  cases warnRepeats with
  | false => rfl
  | true => exact List.mergeSort_nil

/-- **A head block leaves nothing behind but its head.** -/
theorem buildManifest_head {t : Token} (ht : t.category = .head) (hdepth : 0 ≤ t.depth)
    {ts : List Token} (hts : ∀ u ∈ ts, t.depth < u.depth) :
    buildManifest (t :: ts) {} =
      .ofHead (Head.parse (Text.unlines (ts.map (Scope.headText t.depth)))) := by
  have hopen : (Scope.start.step t).1 = Scope.start.push t (.head []) := by
    have hclose : Scope.start.closeTo t.depth = Scope.start := rfl
    have hdispatch : Scope.start.dispatch t = .ok (Scope.start.push t (.head [])) := by
      simp [Scope.dispatch, Scope.top?, Scope.start, Scope.route, ht]
    rw [Scope.step, hclose, hdispatch]
  have hclosed : ∀ lines, (Scope.start.push t (.head lines)).closeTo (-1) =
      Scope.publish ⟨t.depth, t.line, .head lines⟩ Scope.start := by
    intro lines
    rw [Scope.closeTo_of_le (show (Scope.start.push t (.head lines)).frames =
      [⟨t.depth, t.line, .head lines⟩] from rfl) (show -1 ≤ t.depth by omega)]
    rfl
  have hmerge : ∀ h : Head, (Head.empty.merge h).merge (Head.parse []) = h := by
    intro h
    rw [Head.empty_merge]
    exact Head.merge_empty h
  rw [buildManifest, Scope.run, hopen, Scope.run_inHead _ _ _ hts, Scope.finish, hclosed]
  exact congrArg Manifest.ofHead (hmerge _)

section

variable {lex : Lexicon} {h : Text} (hlevels : Head.TwoLevel (Head.bare h))

include hlevels

theorem width_headTokens {t : Token} (ht : t ∈ headTokens lex h) :
    t.width = (1 : Nat) * (Scope.headIndent : Int) ∨ t.width = (2 : Nat) * (Scope.headIndent : Int) := by
  have hmem := List.mem_map_of_mem (f := fun t : Token => (t.width, t.text)) ht
  rw [map_headTokens] at hmem
  obtain ⟨e, he, heq⟩ := List.mem_map.1 hmem
  have hwidth : ((e.1 + Scope.headIndent : Nat) : Int) = t.width := congrArg Prod.fst heq
  have hlevel := hlevels.indented e he
  simp only [Scope.headIndent] at hwidth hlevel ⊢
  omega

theorem width_head_headTokens {t : Token} (ht : t ∈ (headTokens lex h).head?) :
    t.width = Scope.headIndent := by
  have hhead := congrArg List.head? (map_headTokens lex h)
  rw [List.head?_map, List.head?_map, Option.mem_def.1 ht] at hhead
  obtain ⟨e, he, heq⟩ := Option.map_eq_some_iff.1 hhead.symm
  have hwidth : ((e.1 + Scope.headIndent : Nat) : Int) = t.width := congrArg Prod.fst heq
  rw [hlevels.first e he] at hwidth
  omega

/-- The depths of the lines in a head block are those that their widths show. -/
theorem assign_headBlock :
    Depth.assign (headOpener :: headTokens lex h) =
      headOpener :: (headTokens lex h).map (Depth.level Scope.headIndent) := by
  have hrest : Depth.assignFrom (Depth.ladder Scope.headIndent 0) (headTokens lex h) =
      (headTokens lex h).map (Depth.level Scope.headIndent) := by
    apply Depth.assignFrom_ladder (by decide) (e := 1)
    · exact fun t ht => width_headTokens hlevels ht
    · intro t ht
      rw [width_head_headTokens hlevels ht]
      decide
  rw [← hrest]
  rfl

theorem depth_headTokens {u : Token}
    (hu : u ∈ (headTokens lex h).map (Depth.level Scope.headIndent)) :
    headOpener.depth < u.depth := by
  obtain ⟨t, ht, rfl⟩ := List.mem_map.1 hu
  rcases width_headTokens hlevels ht with hwidth | hwidth
  · simp [hwidth, headOpener, Depth.level, Scope.headIndent]
  · simp [hwidth, headOpener, Depth.level, Scope.headIndent]

/-- The lines that a head block collects are those that a head is read from. -/
theorem map_headText :
    ((headTokens lex h).map (Depth.level Scope.headIndent)).map (Scope.headText headOpener.depth) =
      (Head.outline (Head.bare h)).map Head.cleanLine := by
  let line : Int × Text → Text := fun p =>
    List.replicate (Scope.headIndent * (p.1 / Scope.headIndent - headOpener.depth - 1).toNat) ' ' ++ p.2
  calc _ = ((headTokens lex h).map fun t => (t.width, t.text)).map line := by
        rw [List.map_map, List.map_map]
        rfl
    _ = (Head.outline (Head.bare h)).map Head.cleanLine := by
        rw [map_headTokens, List.map_map]
        apply List.map_congr_left
        intro e he
        have hlevel := hlevels.indented e he
        have hwidth : Scope.headIndent * (((e.1 + Scope.headIndent : Nat) : Int) /
            Scope.headIndent - headOpener.depth - 1).toNat = e.1 := by
          simp only [Scope.headIndent, headOpener] at hlevel ⊢
          omega
        simp only [line, Function.comp_apply, hwidth, Head.cleanLine]

theorem buildManifest_headBlock :
    buildManifest (Depth.assign (headOpener :: headTokens lex h)) {} =
      .ofHead (Head.parse (Head.bare h)) := by
  rw [assign_headBlock hlevels,
    buildManifest_head rfl (Int.le_refl 0) fun u hu => depth_headTokens hlevels hu,
    map_headText hlevels, Head.parse_unlines_cleanLine]

/-- There are no reports if the unit divides the indentation of the block. -/
theorem reports_headBlock (hunit : lex.unit ∣ Scope.headIndent) :
    lex.reports (headOpener :: headTokens lex h) = [] := by
  rw [Lexicon.reports, List.filterMap_eq_nil_iff]
  have hunit' : (lex.unit : Int) ∣ Scope.headIndent := Int.natCast_dvd_natCast.2 hunit
  intro t ht
  rw [Lexicon.report?, if_pos]
  apply Int.emod_eq_zero_of_dvd
  rcases List.mem_cons.1 ht with rfl | ht
  · exact Int.dvd_zero _
  · rcases width_headTokens hlevels ht with h | h
    · rw [h]
      exact Int.dvd_mul_of_dvd_right hunit'
    · rw [h]
      exact Int.dvd_mul_of_dvd_right hunit'

end

/-- **A head block is read as a head of its own, once comments are gone.** There is nothing else in the
manifest. Where there are no comments, the head is that of the lines as they are. -/
theorem compile_headBlock {settings : Settings}
    (hunit : settings.strict → settings.lexicon.unit ∣ Scope.headIndent) (file : Text) {h : Text}
    (hlevels : Head.TwoLevel (Head.bare h)) :
    ∃ r, compile settings {} file (headBlock h) = .ok r ∧
      r.manifest = .ofHead (Head.parse (Head.bare h)) ∧
      ((∀ l ∈ Text.lines h, Text.startsWith ['#'] (trim l) ∨ Comment.strip l = l) →
        r.manifest.head = Head.parse h) := by
  have hmanifest : (analyse settings {} file (headBlock h)).manifest =
      .ofHead (Head.parse (Head.bare h)) := by
    show buildManifest (readTokens settings.lexicon (headBlock h)) {} = _
    rw [readTokens, tokens_headBlock, buildManifest_headBlock hlevels]
  have hreports : settings.strict → (analyse settings {} file (headBlock h)).reports = [] := by
    intro hstrict
    show settings.lexicon.reports (settings.lexicon.tokens (headBlock h)) ++
      (analyse settings {} file (headBlock h)).manifest.reports settings.warnRepeats = []
    rw [hmanifest, Manifest.reports_ofHead, tokens_headBlock,
      reports_headBlock hlevels (hunit hstrict)]
    rfl
  have hok : compile settings {} file (headBlock h) =
      .ok (analyse settings {} file (headBlock h)) := by
    apply if_neg
    cases hstrict : settings.strict with
    | false => simp
    | true => simp [Compilation.ok, hreports hstrict]
  refine ⟨_, hok, hmanifest, fun hplain => ?_⟩
  rw [hmanifest, Head.bare_eq_self hplain]
  rfl

/-- A head with comments of both kinds, slashes in strings, and a quote that is never closed. -/
def storefront : Text :=
  "# all // of it\n\ntitle: 'A // B' // quoted\nmeta: // pairs\n    of: it's // me\r\n".toList ++
    "link:\n    icon: '//i.png'\n".toList

/-- Its strings are kept as they are, and its comments are not. -/
theorem compile_headBlock_storefront :
    let settings : Settings := { strict := true }
    let quoted : Text := "canonical: 'https://example.com'".toList
    (settings.strict → settings.lexicon.unit ∣ Scope.headIndent) ∧
    Head.TwoLevel (Head.bare storefront) ∧
    (∃ r, compile settings {} memoryFile (headBlock storefront) = .ok r ∧
      r.manifest.head.fields.entries = [("title".toList, "A // B".toList)] ∧
      r.manifest.head.sections.entries.map (fun s => (s.1, s.2.entries)) =
        [("meta".toList, [("of".toList, "it's".toList)])] ∧
      r.manifest.head.links = [⟨"icon".toList, "//i.png".toList⟩]) ∧
    ∃ r, compile settings {} memoryFile (headBlock quoted) = .ok r ∧
      r.manifest.head = Head.parse quoted := by
  intro settings quoted
  have hunit : settings.strict → settings.lexicon.unit ∣ Scope.headIndent := fun _ => by decide
  have hlevels : Head.TwoLevel (Head.bare storefront) := ⟨by decide +kernel, by decide +kernel⟩
  have hquoted : Head.TwoLevel (Head.bare quoted) := ⟨by decide +kernel, by decide +kernel⟩
  obtain ⟨r, hr, hmanifest, _⟩ := compile_headBlock hunit memoryFile hlevels
  obtain ⟨q, hq, _, hplain⟩ := compile_headBlock hunit memoryFile hquoted
  refine ⟨hunit, hlevels, ⟨r, hr, ?_⟩, q, hq, hplain (by decide +kernel)⟩
  rw [hmanifest]
  decide +kernel

/-- Two slashes of an address outside of strings make the rest of it a comment. -/
theorem head_headBlock_address :
    let h : Text := "canonical: https://example.com".toList
    Head.TwoLevel h ∧
    ∃ r, compile {} {} memoryFile (headBlock h) = .ok r ∧ r.manifest.head ≠ Head.parse h ∧
      r.manifest.head.fields.entries = [("canonical".toList, "https:".toList)] ∧
      (Head.parse h).fields.entries = [("canonical".toList, "https://example.com".toList)] := by
  refine ⟨⟨by decide +kernel, by decide +kernel⟩, _, rfl, ?_⟩
  decide +kernel

end ComponentLang
