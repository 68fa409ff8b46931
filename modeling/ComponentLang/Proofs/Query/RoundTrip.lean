import ComponentLang.Proofs.Label.Blocks

/-!
# Writing queries and reading them again

* `Route.text`, `Query.lines`, `Query.render` : the line of a route, the lines of a query, and a text
  of queries;
* `Route.IsWritable`, `Query.IsWritable` : nothing in a query would be taken for the start of another
  one or for a route;
* `route?_text`, `label?_text` : a route line gives the route, and no label;
* `finish_foldl_add` : a query is what its lines make, added one by one;
* `parse_render_queries` : a text of queries gives these queries.
-/

namespace ComponentLang

open Text (isBlank isWord trim trimStart Trimmed Blank)

/-! ## Routes -/

/-- A capital of the Latin alphabet. -/
def Text.isLatinCapital (c : Char) : Bool := 'A' ≤ c && c ≤ 'Z'

theorem Text.toNat_of_isLatinCapital {c : Char} (h : isLatinCapital c) : c.toNat < 123 := by
  have hletter : isLatinLetter c := by
    rw [isLatinLetter, Bool.or_eq_true]
    exact Or.inr h
  exact toNat_of_isLatinLetter hletter

/-- Capitals are letters, and stay as they are in capitals. -/
theorem Text.of_isLatinCapital {c : Char} (h : isLatinCapital c) :
    isCaselessLetter c ∧ latinUpper c = [c] ∧ ¬ isBlank c ∧ c ≠ '-' := by
  have hall : ∀ n < 123, isLatinCapital (Char.ofNat n) →
      isCaselessLetter (Char.ofNat n) ∧ latinUpper (Char.ofNat n) = [Char.ofNat n] ∧
        ¬ isBlank (Char.ofNat n) ∧ Char.ofNat n ≠ '-' := by decide
  exact forall_char_lt (p := fun c => isLatinCapital c →
    isCaselessLetter c ∧ latinUpper c = [c] ∧ ¬ isBlank c ∧ c ≠ '-') hall (toNat_of_isLatinCapital h) h

theorem Text.toLatinUpper_of_isLatinCapital {t : Text} (h : ∀ c ∈ t, isLatinCapital c) :
    toLatinUpper t = t := by
  induction t with
  | nil => rfl
  | cons c t ih =>
    rw [List.forall_mem_cons] at h
    rw [toLatinUpper, List.flatMap_cons, (of_isLatinCapital h.1).2.1, ← toLatinUpper, ih h.2,
      List.singleton_append]

namespace Route

/-- The line that binds a route. -/
def text (r : Route) : Text := "-- route: ".toList ++ (r.method ++ ' ' :: r.path)

/-- The method is in capitals, and the path is one visible run without a label marker. -/
structure IsWritable (r : Route) : Prop where
  method_ne_nil : r.method ≠ []
  method : ∀ c ∈ r.method, Text.isLatinCapital c
  path_ne_nil : r.path ≠ []
  path : ∀ c ∈ r.path, ¬ isBlank c
  unlabelled : label? r.path = none

theorem route?_text {r : Route} (h : r.IsWritable) : route? r.text = some r := by
  have hmethod : ∀ c ∈ (r.method ++ ' ' :: r.path).head?, ¬ isBlank c := by
    obtain ⟨c, method, hc⟩ := List.exists_cons_of_ne_nil h.method_ne_nil
    intro d hd
    rw [hc, List.cons_append] at hd
    cases hd
    exact (Text.of_isLatinCapital (h.method c (by rw [hc]; exact List.mem_cons_self))).2.2.1
  have hletters : r.method.takeWhile Text.isCaselessLetter = r.method :=
    List.takeWhile_eq_self_iff.2 fun c hc => (Text.of_isLatinCapital (h.method c hc)).1
  have hrest : r.method.dropWhile Text.isCaselessLetter = [] :=
    List.dropWhile_eq_nil_iff.2 fun c hc => (Text.of_isLatinCapital (h.method c hc)).1
  have hpath : trimStart (' ' :: r.path) = r.path :=
    (Text.trimStart_append (Text.blank_replicate 1) r.path).trans
      (Text.trimStart_of_head fun c hc => h.path c (List.mem_of_mem_head? hc))
  have htake : r.path.takeWhile (!isBlank ·) = r.path :=
    List.takeWhile_eq_self_iff.2 fun c hc => by simpa using h.path c hc
  have hread : route? r.text =
      let t := trimStart (r.method ++ ' ' :: r.path)
      let method := t.takeWhile Text.isCaselessLetter
      let rest := t.dropWhile Text.isCaselessLetter
      let path := (trimStart rest).takeWhile (!isBlank ·)
      if method ≠ [] && Text.startsBlank rest && path ≠ [] then
        some ⟨Text.toLatinUpper method, path⟩
      else none := rfl
  have hspace : Text.startsBlank (' ' :: r.path) = true := rfl
  rw [hread, Text.trimStart_of_head hmethod]
  dsimp only
  rw [Text.takeWhile_append_stop (by decide), Text.dropWhile_append_stop (by decide), hletters, hrest,
    List.nil_append, hpath, htake, hspace, Text.toLatinUpper_of_isLatinCapital h.method]
  simp [h.method_ne_nil, h.path_ne_nil]

theorem label?_text {r : Route} (h : r.IsWritable) : label? r.text = none := by
  -- the two dashes at the start are not followed by the word of a marker
  have hfirst : label? r.text = label? (" route: ".toList ++ (r.method ++ ' ' :: r.path)) := rfl
  have hmethod : '-' ∉ r.method := fun hmem => (Text.of_isLatinCapital (h.method _ hmem)).2.2.2 rfl
  have hspace : label? (' ' :: r.path) = label? r.path := label?_append (a := [' ']) (by decide) r.path
  rw [hfirst, label?_append (by decide), label?_append hmethod, hspace, h.unlabelled]

theorem line_text {r : Route} (h : r.IsWritable) :
    '\n' ∉ r.text ∧ Text.dropReturns r.text = r.text := by
  have hassoc : ∀ lead : Text,
      lead ++ (r.method ++ ' ' :: r.path) = (lead ++ (r.method ++ [' '])) ++ r.path := by simp
  have htext : r.text = ("-- route: ".toList ++ (r.method ++ [' '])) ++ r.path := hassoc _
  have hmethod : '\n' ∉ r.method := fun hmem => (Text.of_isLatinCapital (h.method _ hmem)).2.2.1 rfl
  rw [htext]
  refine Text.line_of_visible (fun hfeed => ?_) h.path h.path_ne_nil
  rcases List.mem_append.1 hfeed with hfeed | hfeed
  · exact absurd hfeed (by decide)
  · rcases List.mem_append.1 hfeed with hfeed | hfeed
    · exact hmethod hfeed
    · exact absurd hfeed (by decide)

end Route

/-! ## Queries -/

namespace Query

/-- The lines of a query: its label, its route if it has one, and its statement. -/
def lines (q : Query) : List Text :=
  labelLine q.label :: ((q.route.map Route.text).toList ++ Text.lines q.statement)

/-- A text of queries, one after the other. -/
def render (qs : List Query) : Text := Text.unlines (qs.flatMap lines)

/-- The label is a word, the statement is trimmed, and no line of it has a label, is a route or ends
in a carriage return. -/
structure IsWritable (q : Query) : Prop where
  label_ne_nil : q.label ≠ []
  label : ∀ c ∈ q.label, isWord c
  statement_ne_nil : q.statement ≠ []
  trimmed : Trimmed q.statement
  unlabelled : ∀ l ∈ Text.lines q.statement, label? l = none
  unrouted : ∀ l ∈ Text.lines q.statement, route? l = none
  unreturned : ∀ l ∈ Text.lines q.statement, ¬ Text.endsWith '\r' l
  route : ∀ r ∈ q.route, r.IsWritable

/-! ### The lines of a query -/

theorem foldl_add_statement (d : Draft) {ls : List Text} (h : ∀ l ∈ ls, route? l = none) :
    ls.foldl Draft.add d = { d with lines := d.lines ++ ls } := by
  induction ls generalizing d with
  | nil => rw [List.append_nil, List.foldl_nil]
  | cons l ls ih =>
    rw [List.forall_mem_cons] at h
    have hadd : d.add l = { d with lines := d.lines ++ [l] } := by rw [Draft.add, h.1]
    rw [List.foldl_cons, hadd, ih _ h.2, List.append_assoc, List.singleton_append]

theorem foldl_add_route {o : Option Route} (h : ∀ r ∈ o, r.IsWritable) (label : Text) :
    (o.map Route.text).toList.foldl Draft.add ⟨label, none, []⟩ = ⟨label, o, []⟩ := by
  cases o with
  | none => rfl
  | some r =>
    show Draft.add ⟨label, none, []⟩ r.text = _
    rw [Draft.add, Route.route?_text (h r rfl)]

/-- A query is what its lines make, added one by one. -/
theorem finish_foldl_add {q : Query} (h : q.IsWritable) :
    (((q.route.map Route.text).toList ++ Text.lines q.statement).foldl Draft.add
      ⟨q.label, none, []⟩).finish? = some q := by
  have htrim : trim (Text.unlines (Text.lines q.statement)) = q.statement := by
    rw [Text.unlines, Text.lines, Text.intercalate_pieces, h.trimmed.trim]
  rw [List.foldl_append, foldl_add_route h.route, foldl_add_statement _ h.unrouted, List.nil_append,
    Draft.finish?, htrim, Text.nonempty?, if_neg h.statement_ne_nil]
  rfl

/-- The lines below the label of a query have no label. -/
theorem IsWritable.label?_eq_none {q : Query} (h : q.IsWritable) {l : Text}
    (hl : l ∈ (q.route.map Route.text).toList ++ Text.lines q.statement) : label? l = none := by
  rcases List.mem_append.1 hl with hl | hl
  · obtain ⟨r, hr, rfl⟩ := List.mem_map.1 (Option.toList_map ▸ hl)
    exact Route.label?_text (h.route r (Option.mem_toList.1 hr))
  · exact h.unlabelled l hl

theorem parseLines_flatMap {qs : List Query} (h : ∀ q ∈ qs, q.IsWritable) (d : Option Draft) :
    parseLines d (qs.flatMap lines) = finish d ++ qs := by
  have hname : ∀ q ∈ qs, q.label ≠ [] ∧ ∀ c ∈ q.label, isWord c := fun q hq =>
    ⟨(h q hq).label_ne_nil, (h q hq).label⟩
  have hbody : ∀ q ∈ qs, ∀ l ∈ (q.route.map Route.text).toList ++ Text.lines q.statement,
      label? l = none := fun q hq _ hl => (h q hq).label?_eq_none hl
  have hfinish : ∀ q ∈ qs, (((q.route.map Route.text).toList ++ Text.lines q.statement).foldl Draft.add
      ⟨q.label, none, []⟩).finish?.toList = [q] := fun q hq => by rw [finish_foldl_add (h q hq)]; rfl
  rw [parseLines_eq_blocks, finish_eq_elim]
  exact blocks_flatMap hname hbody hfinish d

/-! ### A text of queries -/

/-- The lines of a query hold no line feed and end in no carriage return. -/
theorem IsWritable.line {q : Query} (h : q.IsWritable) {l : Text} (hl : l ∈ q.lines) :
    '\n' ∉ l ∧ Text.dropReturns l = l := by
  rw [lines, List.mem_cons, List.mem_append] at hl
  rcases hl with rfl | hl | hl
  · exact line_labelLine h.label_ne_nil h.label
  · obtain ⟨r, hr, rfl⟩ := List.mem_map.1 (Option.toList_map ▸ hl)
    exact Route.line_text (h.route r (Option.mem_toList.1 hr))
  · exact ⟨Text.not_mem_of_mem_pieces hl, Text.dropReturns_of_not_endsWith (h.unreturned l hl)⟩

theorem map_dropReturns_lines {qs : List Query} (h : ∀ q ∈ qs, q.IsWritable) :
    (Text.lines (render qs)).map Text.dropReturns =
      if qs = [] then [[]] else qs.flatMap lines := by
  have hnil : qs.flatMap lines = [] ↔ qs = [] := by cases qs <;> simp [lines]
  simp only [← hnil]
  refine Text.map_dropReturns_lines_unlines fun l hl => ?_
  obtain ⟨q, hq, hl⟩ := List.mem_flatMap.1 hl
  exact (h q hq).line hl

theorem unlines_concat_nil {ls : List Text} (h : ls ≠ []) :
    Text.unlines (ls ++ [[]]) = Text.unlines ls ++ ['\n'] := by
  induction ls with
  | nil => exact absurd rfl h
  | cons l ls ih =>
    cases ls with
    | nil => simp [Text.unlines]
    | cons l' ls =>
      rw [List.cons_append, List.cons_append, Text.unlines_cons_cons, ← List.cons_append,
        ih (List.cons_ne_nil l' ls), Text.unlines_cons_cons, List.append_assoc, List.cons_append]

theorem trim_unlines_concat_nil (ls : List Text) :
    trim (Text.unlines (ls ++ [[]])) = trim (Text.unlines ls) := by
  by_cases hnil : ls = []
  · rw [hnil]
    rfl
  · exact (congrArg trim (unlines_concat_nil hnil)).trans
      (Text.trim_append_blank (fun c hc => by rw [List.mem_singleton.1 hc]; decide) _)

/-- A line feed at the end of a text says nothing. -/
theorem parseLines_concat_nil (d : Option Draft) (ls : List Text) :
    parseLines d (ls ++ [[]]) = parseLines d ls := by
  have hadd : ∀ d : Draft, (d.add []).finish?.toList = d.finish?.toList := by
    intro d
    have hlines : d.add [] = { d with lines := d.lines ++ [[]] } := rfl
    rw [hlines, Draft.finish?, Draft.finish?, trim_unlines_concat_nil]
  rw [parseLines_eq_blocks, parseLines_eq_blocks]
  exact blocks_concat rfl hadd d ls

/-- **A text of queries gives these queries**, with a line feed at its end or without. -/
theorem parse_render_queries (qs : List Query) (h : ∀ q ∈ qs, q.IsWritable) :
    parse (render qs) = qs ∧ parse (render qs ++ ['\n']) = qs := by
  have hread : parseLines none ((Text.lines (render qs)).map Text.dropReturns) = qs := by
    rw [map_dropReturns_lines h]
    split_ifs with hnil
    · rw [hnil]
      rfl
    · exact parseLines_flatMap h none
  refine ⟨hread, ?_⟩
  rw [parse, Text.lines_append, List.map_append]
  exact (parseLines_concat_nil _ _).trans hread

/-- A query with a route, a remark at the end of a line and a blank line, and one that begins with a
remark. -/
def blog : List Query := [
  ⟨"latestPosts".toList, "SELECT *\nFROM posts -- by date\n\n  LIMIT 9;".toList,
    some ⟨"GET".toList, "/api/posts--new".toList⟩⟩,
  ⟨"add_2".toList, "-- route to come\nINSERT INTO posts;".toList, none⟩]

theorem parse_render_queries_blog :
    (∀ q ∈ blog, q.IsWritable) ∧ parse (render blog) = blog ∧ parse (render blog ++ ['\n']) = blog := by
  have hblog : ∀ q ∈ blog, q.IsWritable := by
    rw [blog, List.forall_mem_cons, List.forall_mem_singleton]
    constructor
    · refine ⟨by decide, List.all_eq_true.1 rfl, by decide, ⟨?_, ?_⟩, by decide, by decide, by decide, ?_⟩
      · rintro c ⟨⟩
        decide
      · rintro c ⟨⟩
        decide
      · rintro r ⟨⟩
        exact ⟨by decide, List.all_eq_true.1 rfl, by decide, List.any_eq_false.1 rfl, by decide⟩
    · refine ⟨by decide, List.all_eq_true.1 rfl, by decide, ⟨?_, ?_⟩, by decide, by decide, by decide, ?_⟩
      · rintro c ⟨⟩
        decide
      · rintro c ⟨⟩
        decide
      · rintro r ⟨⟩
  exact ⟨hblog, parse_render_queries blog hblog⟩

end Query

end ComponentLang
