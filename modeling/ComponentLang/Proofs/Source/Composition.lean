import ComponentLang.Proofs.Lines.Tokens
import ComponentLang.Proofs.Reflow.Program
import ComponentLang.Proofs.Scope.Naming

/-!
# One source after another

A source may go on with another one. If that begins at the margin and has no alternate, which could
belong to a condition before it, then nothing of the first leaks into the second: no width, no block
and no place in a list.

* `Depth.assignFrom_append` : at the margin no indentation is open;
* `Scope.closeTo_zero` : nor is any block;
* `buildManifest_append` : tokens after others make their manifest after that of the others;
* `not_alternate` : no line that begins otherwise is an alternate;
* `analyse_append` : the manifest of two sources.
-/

namespace ComponentLang

open Text (trim Trimmed)

/-! ## Depths -/

namespace Depth

theorem pos_of_mem_settle {stack : List Int} (h : ∀ w ∈ stack, 0 < w) (w : Int) :
    ∀ v ∈ settle stack w, 0 < v := by
  cases stack with
  | nil =>
    rw [settle]
    split_ifs with hw
    · simpa using hw
    · simp
  | cons top rest =>
    rw [settle]
    split_ifs with hw
    · rw [List.forall_mem_cons]
      refine ⟨?_, h⟩
      have htop := h top List.mem_cons_self
      omega
    · exact fun v hv => h v ((List.dropWhile_sublist _).subset hv)

theorem settle_zero {stack : List Int} (h : ∀ w ∈ stack, 0 < w) : settle stack 0 = [] := by
  cases stack with
  | nil => rfl
  | cons top rest =>
    have htop := h top List.mem_cons_self
    rw [settle, if_neg (by omega), List.dropWhile_eq_nil_iff]
    intro w hw
    simpa using h w hw

/-- A token at the margin finds no indentation open, whatever comes before it. -/
theorem assignFrom_append {stack : List Int} (h : ∀ w ∈ stack, 0 < w) (ts : List Token)
    {us : List Token} (hus : ∀ t ∈ us.head?, t.width = 0) :
    assignFrom stack (ts ++ us) = assignFrom stack ts ++ assign us := by
  induction ts generalizing stack with
  | nil =>
    cases us with
    | nil => rfl
    | cons u us =>
      have hu : u.width = 0 := hus u rfl
      have hempty : settle [] 0 = [] := rfl
      simp [assign, assignFrom, hu, settle_zero h, hempty]
  | cons t ts ih =>
    rw [List.cons_append, assignFrom, assignFrom, ih (pos_of_mem_settle h t.width), List.cons_append]

theorem depth_head_assign {us : List Token} (hus : ∀ t ∈ us.head?, t.width = 0) :
    ∀ t ∈ (assign us).head?, t.depth = 0 := by
  cases us with
  | nil => simp [assign, assignFrom]
  | cons u us =>
    have hu : u.width = 0 := hus u rfl
    have hempty : settle [] 0 = [] := rfl
    simp [assign, assignFrom, hu, hempty]

theorem depth_nonneg {stack : List Int} {ts : List Token} {t : Token} (h : t ∈ assignFrom stack ts) :
    0 ≤ t.depth := by
  induction ts generalizing stack with
  | nil => cases h
  | cons u ts ih =>
    rcases List.mem_cons.1 h with rfl | h
    · exact Int.natCast_nonneg _
    · exact ih h

end Depth

/-! ## Tokens -/

namespace Scope

theorem depth_nonneg_run {s : Scope} (hs : ∀ f ∈ s.outline, 0 ≤ f.depth) {ts : List Token}
    (hts : ∀ t ∈ ts, 0 ≤ t.depth) : ∀ f ∈ (s.run ts).outline, 0 ≤ f.depth := by
  induction ts generalizing s with
  | nil => exact hs
  | cons t ts ih =>
    rw [List.forall_mem_cons] at hts
    refine ih ?_ hts.2
    have hclosed : ∀ f ∈ (s.closeTo t.depth).outline, 0 ≤ f.depth := by
      rw [outline_closeTo]
      exact fun f hf => hs f ((List.dropWhile_sublist _).subset hf)
    rcases step_extends s t with heq | ⟨block, heq⟩
    · rwa [heq]
    · rw [heq, List.forall_mem_cons]
      exact ⟨hts.1, hclosed⟩

/-- At the margin, all blocks are closed as they are at the end. -/
theorem closeTo_zero {ts : List Token} (hts : ∀ t ∈ ts, 0 ≤ t.depth) :
    (start.run ts).closeTo 0 = ⟨((start.run ts).closeTo (-1)).manifest, []⟩ := by
  have hframes : ((start.run ts).closeTo 0).frames = [] := by
    rw [← outline_eq_nil, outline_closeTo, List.dropWhile_eq_nil_iff]
    intro f hf
    simpa using depth_nonneg_run (by simp [start, outline]) hts f hf
  have hclosed : (start.run ts).closeTo (-1) = (start.run ts).closeTo 0 := by
    rw [← closeTo_closeTo (show (-1 : Int) ≤ 0 by decide)]
    exact closeTo_of_lt (by simp [outline, hframes])
  rw [hclosed, ← hframes]

end Scope

theorem Manifest.followedBy_empty (g : Int → Int) (m : Manifest) :
    { m.followedBy (Manifest.empty.renumber g) with name := m.name } = m := by
  have hhead : m.head.merge .empty = m.head := Head.merge_empty m.head
  have hphrases : m.phrases.merge .empty = m.phrases := Table.merge_empty m.phrases
  unfold Manifest.empty
  -- the name is not looked at
  generalize "Component".toList = name
  simp only [Manifest.followedBy, Manifest.renumber, List.map_nil, List.filter_nil, List.append_nil,
    Bool.or_false, hhead, hphrases]

/-- Without companions, manifests follow each other as the scopes do. -/
theorem followedBy_withCompanions (g : Int → Int) (m m' : Manifest) (n : Text) :
    Manifest.withCompanions { m.followedBy (m'.renumber g) with name := n } {} =
      { (m.withCompanions {}).followedBy ((m'.withCompanions {}).renumber g) with name := n } := by
  have hhead (h : Head) : h.merge (Head.parse []) = h := Head.merge_empty h
  simp only [Manifest.withCompanions, Manifest.followedBy, Manifest.renumber, hhead]
  rfl

variable {g : Int → Int}

/-- **Tokens after others make their manifest after that of the others.** -/
theorem buildManifest_append {ts us us' : List Token} (hts : ∀ t ∈ ts, 0 ≤ t.depth)
    (h : List.Forall₂ (Token.Alike g) us us') (hus : ∀ t ∈ us'.head?, t.depth ≤ 0)
    (halternate : ∀ t ∈ us, controlGist t.text ≠ .alternate) :
    buildManifest (ts ++ us') {} =
      { (buildManifest ts {}).followedBy ((buildManifest us {}).renumber g) with
        name := if declaresName us then (buildManifest us {}).name else (buildManifest ts {}).name } := by
  set base := ((Scope.start.run ts).closeTo (-1)).manifest with hbase
  have hstart : (Scope.start.run ts).closeTo 0 = Scope.start.after base g base.name := by
    have hempty := Manifest.followedBy_empty g base
    rw [Scope.closeTo_zero hts, ← hbase]
    exact congrArg (fun m => (⟨m, []⟩ : Scope)) hempty.symm
  have hahead : ∀ t ∈ us, t.Ahead base := fun t ht => .inr (halternate t ht)
  have hrun := Scope.run_after (n := base.name) h hahead Scope.start
  unfold buildManifest Scope.finish
  rw [Scope.run_append, Scope.closeTo_run_eq (by decide) hus, hstart, hrun, Scope.closeTo_after,
    getLast_names us {}]
  exact followedBy_withCompanions g base _ _

/-! ## Sources -/

theorem tokens_append (lex : Lexicon) (s₁ s₂ : Text) :
    lex.tokens (s₁ ++ '\n' :: s₂) =
      lex.tokens s₁ ++ (lex.tokens s₂).map (Token.renumber (· + (Text.lines s₁).length)) := by
  unfold Lexicon.tokens
  rw [Text.lines_append, Reflow.tokensFrom_append, Lexicon.tokensFrom_add]

theorem readTokens_append (lex : Lexicon) (s₁ : Text) {s₂ : Text}
    (h : ∀ t ∈ (lex.tokens s₂).head?, t.width = 0) :
    readTokens lex (s₁ ++ '\n' :: s₂) =
      readTokens lex s₁ ++ (readTokens lex s₂).map (Token.renumber (· + (Text.lines s₁).length)) := by
  have hmargin : ∀ t ∈ ((lex.tokens s₂).map (Token.renumber (· + (Text.lines s₁).length))).head?,
      t.width = 0 := by
    intro t ht
    rw [List.head?_map] at ht
    obtain ⟨u, hu, rfl⟩ := Option.map_eq_some_iff.1 ht
    exact h u hu
  unfold readTokens
  rw [tokens_append]
  exact (Depth.assignFrom_append (by simp) _ hmargin).trans
    (congrArg _ (Depth.assignFrom_renumber [] _))

/-! ## Alternates -/

theorem isPrefix_trim {a t : Text} (ht : Trimmed t) (h : a <+: t) : trim a <+: t := by
  have hhead : Text.trimStart a = a := by
    apply Text.trimStart_of_head
    intro c hc
    obtain ⟨r, rfl⟩ := h
    apply ht.1
    rw [List.head?_append, Option.mem_def.1 hc]
    rfl
  obtain ⟨tail, _, htail⟩ := Text.exists_trimEnd a
  rw [trim, hhead]
  exact List.IsPrefix.trans ⟨tail, htail.symm⟩ h

/-- So does its header. -/
theorem isPrefix_header {t : Text} (ht : Trimmed t) : (splitInline t).1 <+: t := by
  unfold splitInline
  cases hcut : Text.cutColon? t with
  | none =>
    apply isPrefix_trim ht
    rw [ht.trim, Text.dropFinal]
    split_ifs
    · exact List.dropLast_prefix t
    · exact List.prefix_rfl
  | some parts =>
    apply isPrefix_trim ht
    exact ⟨_, (Nesting.eq_append_of_cutFrom?_colon hcut).symm⟩

theorem isPrefix_of_alternate {t : Text} (ht : Trimmed t) (h : controlGist t = .alternate) :
    "else".toList <+: t := by
  rw [Reflow.controlGist_eq] at h
  split_ifs at h with _ _ _ halternate
  obtain ⟨header, hheader⟩ := Option.isSome_iff_exists.1 halternate
  obtain ⟨r, hr, _⟩ := Option.bind_eq_some_iff.1 hheader
  refine List.IsPrefix.trans ?_ (isPrefix_header ht)
  exact ⟨r, (Text.after?_eq_some_iff.1 hr).symm⟩

/-- No line that begins otherwise is an alternate. -/
theorem not_alternate {lex : Lexicon} {s : Text}
    (h : ∀ l ∈ Text.lines s, ¬ Text.startsWith "else".toList (trim l)) :
    ∀ t ∈ readTokens lex s, controlGist t.text ≠ .alternate := by
  intro t ht halternate
  obtain ⟨line, hline, c, hread, htext, _⟩ := exists_line_of_mem_readTokens ht
  have hbegins := isPrefix_of_alternate (text_of_mem_readTokens ht).1 halternate
  rw [htext] at hbegins
  exact h line hline (Text.startsWith_iff.2 (hbegins.trans (Reflow.isPrefix_text hread)))

/-- **Sources at the margin do not leak into each other.** If the second source begins at the margin
and no line of it begins with `else`, then the manifest of the two is that of the first followed by
that of the second, further down by the lines of the first. The name is that of the second if it
declares one outside of logic and heads. -/
theorem analyse_append (settings : Settings) (file s₁ s₂ : Text)
    (hmargin : ∀ t ∈ (settings.lexicon.tokens s₂).head?, t.width = 0)
    (helse : ∀ l ∈ Text.lines s₂, ¬ Text.startsWith "else".toList (trim l)) :
    let m₁ := (analyse settings {} file s₁).manifest
    let m₂ := (analyse settings {} file s₂).manifest.renumber (· + (Text.lines s₁).length)
    (analyse settings {} file (s₁ ++ '\n' :: s₂)).manifest =
      { m₁.followedBy m₂ with
        name := if declaresName (readTokens settings.lexicon s₂) then m₂.name else m₁.name } := by
  intro m₁ m₂
  have hdepths : ∀ t ∈ readTokens settings.lexicon s₁, 0 ≤ t.depth := fun t ht => Depth.depth_nonneg ht
  have hhead : ∀ t ∈ ((readTokens settings.lexicon s₂).map
      (Token.renumber (· + (Text.lines s₁).length))).head?, t.depth ≤ 0 := by
    intro t ht
    rw [List.head?_map] at ht
    obtain ⟨u, hu, rfl⟩ := Option.map_eq_some_iff.1 ht
    exact Int.le_of_eq (Depth.depth_head_assign hmargin u hu)
  show buildManifest (readTokens settings.lexicon (s₁ ++ '\n' :: s₂)) {} = _
  rw [readTokens_append settings.lexicon s₁ hmargin]
  exact buildManifest_append hdepths (forall₂_alike _) hhead (not_alternate helse)

/-- A component that ends in a head, with a condition as the last node of its view. -/
def till : Text :=
  "component Till\n$sum = 0\nview:\n    if $sum:\n        p: paid\nhead:\n    title: Till".toList

/-- A second one, with a name of its own. -/
def shop : Text := "memory Shop\n$tax = 1\nview:\n    b: due\nhead:\n    title: Shop".toList

/-- The second component has the last word on the name and the title, and the rest stands in order. -/
theorem analyse_append_till :
    (∀ t ∈ (Lexicon.tokens ({} : Settings).lexicon shop).head?, t.width = 0) ∧
    (∀ l ∈ Text.lines shop, ¬ Text.startsWith "else".toList (trim l)) ∧
    let m := (analyse {} {} memoryFile (till ++ '\n' :: shop)).manifest
    m.name = "Shop".toList ∧ m.isSingleton = true ∧ m.state.map Declaration.line = [2, 9] ∧
      m.view.map ViewNode.line = [4, 11] ∧ m.head.title? = some "Shop".toList := by
  have hmargin : ∀ t ∈ (Lexicon.tokens ({} : Settings).lexicon shop).head?, t.width = 0 := by
    decide +kernel
  have helse : ∀ l ∈ Text.lines shop, ¬ Text.startsWith "else".toList (trim l) := by decide +kernel
  refine ⟨hmargin, helse, ?_⟩
  intro m
  have hm : m = _ := analyse_append {} memoryFile till shop hmargin helse
  rw [hm]
  decide +kernel

end ComponentLang
