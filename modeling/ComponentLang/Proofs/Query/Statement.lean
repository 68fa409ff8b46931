import ComponentLang.Proofs.Label.Marker
import ComponentLang.Query

/-!
# The lines of a statement

* `Query.unlabelled`, `Query.gather` : what a query gathers from the lines below its label, up to the
  next line with a marker;
* `Query.parseLines_split` : the queries of lines are those before a label, the one that it gathers,
  and those from the next marker on;
* `Query.lines_gather` : of the lines up to there, the routes are left out and no other line;
* `Query.statement_line_iff` : a line below a label is in the statement if and only if no marker stands
  in it or between the two, at the start of a line or inside.
-/

namespace ComponentLang

open Text (isBlank trim trimStart trimEnd)

/-! ## Lines without a marker in front -/

/-- A line that has no two dashes in front binds no route. -/
theorem route?_of_not_startsWith {l : Text} (h : ¬ Text.startsWith "--".toList (trim l)) :
    route? l = none := by
  have hafter : Text.after? "--".toList (trimStart l) = none := by
    cases hr : Text.after? "--".toList (trimStart l) with
    | none => rfl
    | some r =>
      have hdashes : ∀ c ∈ "--".toList.getLast?, ¬ isBlank c := by
        rintro c ⟨⟩
        decide
      have htrim : trim l = "--".toList ++ trimEnd r := by
        rw [trim, Text.after?_eq_some_iff.1 hr, Text.trimEnd_append_visible hdashes]
      exact absurd (Text.startsWith_iff.2 (htrim ▸ List.prefix_append _ _)) h
  rw [route?, hafter]
  rfl

namespace Query

/-! ## What a query gathers -/

/-- The line has no label marker. -/
def unlabelled (l : Text) : Bool := (label? l).isNone

/-- What a query with this label gathers from the lines below it. -/
def gather (label : Text) (ls : List Text) : Draft :=
  (ls.takeWhile unlabelled).foldl Draft.add ⟨label, none, []⟩

theorem foldl_add (ls : List Text) (d : Draft) :
    (ls.foldl Draft.add d).label = d.label ∧
      (ls.foldl Draft.add d).lines = d.lines ++ ls.filter fun l => (route? l).isNone := by
  induction ls generalizing d with
  | nil => exact ⟨rfl, (List.append_nil _).symm⟩
  | cons l ls ih =>
    obtain ⟨hlabel, hlines⟩ := ih (d.add l)
    rw [List.foldl_cons, hlabel, hlines, Draft.add, List.filter_cons]
    cases route? l <;> simp

theorem label_gather (label : Text) (ls : List Text) : (gather label ls).label = label :=
  (foldl_add _ _).1

theorem lines_gather (label : Text) (ls : List Text) :
    (gather label ls).lines = (ls.takeWhile unlabelled).filter fun l => (route? l).isNone := by
  rw [gather, (foldl_add _ _).2, List.nil_append]

/-- The lines up to the next marker are added to the draft, and it is finished there. -/
theorem parseLines_takeWhile (d : Option Draft) (ls : List Text) :
    parseLines d ls =
      finish (d.map fun d => (ls.takeWhile unlabelled).foldl Draft.add d) ++
        parseLines none (ls.dropWhile unlabelled) := by
  induction ls generalizing d with
  | nil => cases d <;> simp [parseLines, finish]
  | cons l ls ih =>
    rw [List.takeWhile_cons, List.dropWhile_cons, unlabelled, parseLines]
    cases hl : label? l with
    | none =>
      show parseLines (d.map (·.add l)) ls = _
      rw [ih, Option.map_map]
      rfl
    | some label =>
      show finish d ++ parseLines (some ⟨label, none, []⟩) ls =
        finish (d.map id) ++ parseLines none (l :: ls)
      rw [Option.map_id_apply, parseLines, hl]
      rfl

/-- The queries of lines are those before a label, its own, and those from the next marker on. -/
theorem parseLines_split {head label : Text} (h : label? head = some label) (d : Option Draft)
    (before rest : List Text) :
    parseLines d (before ++ head :: rest) =
      parseLines d before ++ (finish (some (gather label rest)) ++
        parseLines none (rest.dropWhile unlabelled)) := by
  induction before generalizing d with
  | nil =>
    rw [List.nil_append, parseLines, parseLines, h]
    exact congrArg (finish d ++ ·) (parseLines_takeWhile (some ⟨label, none, []⟩) rest)
  | cons l before ih =>
    rw [List.cons_append, parseLines, parseLines]
    cases label? l with
    | none => exact ih _
    | some label' =>
      show finish d ++ parseLines _ (before ++ head :: rest) = finish d ++ parseLines _ before ++ _
      rw [ih, List.append_assoc]

/-- A query with a visible line is not dropped, and its statement has what is visible of the line. -/
theorem finish_of_mem {d : Draft} {l : Text} (hl : l ∈ d.lines) (hvisible : trim l ≠ []) :
    ∃ q, finish (some d) = [q] ∧ q.label = d.label ∧ trim l <:+: q.statement := by
  have hinfix : trim l <:+: trim (Text.unlines d.lines) := Text.trim_infix (Text.infix_unlines hl)
  have hne : trim (Text.unlines d.lines) ≠ [] := fun hnil =>
    hvisible (List.infix_nil.1 (hnil ▸ hinfix))
  refine ⟨⟨d.label, trim (Text.unlines d.lines), d.route⟩, ?_, rfl, hinfix⟩
  rw [finish, Option.bind_some, Draft.finish?, Text.nonempty?, if_neg hne]
  rfl

/-! ## The lines of a statement -/

/-- What is gathered from lines without a marker goes on behind them. -/
theorem lines_gather_append {label : Text} {ls : List Text} (h : ∀ l ∈ ls, label? l = none)
    (rest : List Text) :
    (gather label (ls ++ rest)).lines = (gather label ls).lines ++ (gather label rest).lines := by
  have hall : ∀ l ∈ ls, unlabelled l := fun l hl => by rw [unlabelled, h l hl]; rfl
  rw [lines_gather, lines_gather, lines_gather, List.takeWhile_append_of_pos hall,
    List.takeWhile_eq_self_iff.2 hall, List.filter_append]

/-- Nothing is gathered from a marker on. -/
theorem gather_append_of_labelled {m : Text} (h : label? m ≠ none) (label : Text)
    (ls rest : List Text) : gather label (ls ++ m :: rest) = gather label ls := by
  have hstop : unlabelled m = false := by
    rw [unlabelled, Option.isNone_eq_false_iff, Option.isSome_iff_ne_none]
    exact h
  have htake : (ls ++ m :: rest).takeWhile unlabelled = ls.takeWhile unlabelled := by
    induction ls with
    | nil => simp [hstop]
    | cons l ls ih => rw [List.cons_append, List.takeWhile_cons, List.takeWhile_cons, ih]
  rw [gather, gather, htake]

/-- **A line below a label is in its statement if and only if no marker stands in it or between the
two.** The label `name` is on the line `head`, and `l` is any line below it that is not blank and has no
two dashes in front; `mid` is what stands between them. The query then is the one that is read between
those of the lines before `head` and those from the next marker on. -/
theorem statement_line_iff {t head l name : Text} {before mid after : List Text}
    (hlines : (Text.lines t).map Text.dropReturns = before ++ head :: (mid ++ l :: after))
    (hhead : heading? head = some name) (hvisible : trim l ≠ [])
    (hdashes : ¬ Text.startsWith "--".toList (trim l)) :
    let d := gather name (mid ++ l :: after)
    parse t = parseLines none before ++
        (finish (some d) ++ parseLines none ((mid ++ l :: after).dropWhile unlabelled)) ∧
      ((∃ rest, d.lines = (gather name mid).lines ++ l :: rest) ↔ ∀ m ∈ mid ++ [l], label? m = none) ∧
      ((∀ m ∈ mid ++ [l], label? m = none) →
        ∃ q, finish (some d) = [q] ∧ q.label = name ∧ trim l <:+: q.statement) := by
  have hassoc : mid ++ l :: after = (mid ++ [l]) ++ after := by simp
  -- without a marker, the line itself is gathered behind those before it
  have hkept : (∀ m ∈ mid ++ [l], label? m = none) →
      (gather name (mid ++ l :: after)).lines =
        (gather name mid).lines ++ l :: (gather name after).lines := by
    intro hfree
    have hmid : ∀ m ∈ mid, label? m = none := fun m hm => hfree m (List.mem_append_left _ hm)
    have hl : label? l = none := hfree l (List.mem_append_right _ List.mem_cons_self)
    have hline : (gather name [l]).lines = [l] := by
      simp [lines_gather, unlabelled, hl, route?_of_not_startsWith hdashes]
    rw [hassoc, lines_gather_append hfree, lines_gather_append hmid, hline, List.append_assoc,
      List.singleton_append]
  refine ⟨?_, ⟨?_, fun hfree => ⟨_, hkept hfree⟩⟩, fun hfree => ?_⟩
  · rw [parse, hlines]
    exact parseLines_split (label?_of_heading? hhead) none before _
  · -- a marker in `mid` or in the line ends the statement before the line is added
    rintro ⟨rest, hrest⟩ m hm
    by_contra hmarker
    have hstop : gather name (mid ++ l :: after) = gather name mid := by
      rcases List.mem_append.1 hm with hmid | hlast
      · obtain ⟨u, v, rfl⟩ := List.append_of_mem hmid
        rw [List.append_assoc, List.cons_append, gather_append_of_labelled hmarker,
          gather_append_of_labelled hmarker]
      · rw [List.mem_singleton.1 hlast] at hmarker
        exact gather_append_of_labelled hmarker name mid after
    rw [hstop] at hrest
    have hlength := congrArg List.length hrest
    rw [List.length_append, List.length_cons] at hlength
    omega
  · have hmem : l ∈ (gather name (mid ++ l :: after)).lines := by
      rw [hkept hfree]
      exact List.mem_append_right _ List.mem_cons_self
    obtain ⟨q, hq, hlabel, hinfix⟩ := finish_of_mem hmem hvisible
    exact ⟨q, hq, hlabel.trans (label_gather _ _), hinfix⟩

/-- Two queries, the second of which has a route and a remark at the end of a line. -/
def archive : Text :=
  "-- label: clear\nDELETE FROM old;\n  -- Label: latest\r\n-- route: get /x\nSELECT * -- label\n FROM posts;".toList

theorem statement_line_iff_archive :
    heading? "  -- Label: latest".toList = some "latest".toList ∧
      ∃ q, parse archive = [⟨"clear".toList, "DELETE FROM old;".toList, none⟩, q] ∧
        q.label = "latest".toList ∧ "FROM posts;".toList <:+: q.statement := by
  have hlines : (Text.lines archive).map Text.dropReturns =
      ["-- label: clear".toList, "DELETE FROM old;".toList] ++
        "  -- Label: latest".toList ::
          (["-- route: get /x".toList, "SELECT * -- label".toList] ++ " FROM posts;".toList :: []) := by
    decide
  have hhead : heading? "  -- Label: latest".toList = some "latest".toList := by decide
  obtain ⟨hparse, -, hq⟩ := statement_line_iff hlines hhead (by decide) (by decide)
  obtain ⟨q, hfinish, hlabel, hinfix⟩ := hq (by decide)
  have hbefore : parseLines none ["-- label: clear".toList, "DELETE FROM old;".toList] =
      [⟨"clear".toList, "DELETE FROM old;".toList, none⟩] := by decide
  rw [hfinish, hbefore] at hparse
  exact ⟨hhead, q, hparse, hlabel, hinfix⟩

/-- A marker inside a string ends the statement, and the line with it is in none. -/
theorem not_mem_statement_string :
    let t := "-- label: a\nSELECT '-- label: b';".toList
    let l := "SELECT '-- label: b';".toList
    (Text.lines t).map Text.dropReturns = ["-- label: a".toList, l] ∧
      heading? "-- label: a".toList = some "a".toList ∧ heading? l = none ∧
      trim l ≠ [] ∧ ¬ Text.startsWith "--".toList (trim l) ∧
      l ∉ (gather "a".toList [l]).lines ∧ parse t = [] := by
  decide

end Query

end ComponentLang
