import ComponentLang.Proofs.Label.Blocks
import ComponentLang.Proofs.Table.Merge
import Mathlib.Data.List.Basic

/-!
# Writing endpoints and reading them again

* `Endpoint.lines`, `Endpoint.render` : the lines of an endpoint, with its sections one after the other
  and their lines indented, and a text of endpoints;
* `Endpoint.IsWritable` : nothing in an endpoint would be taken for a label or for the start of a section;
* `section?_eq_some_iff`, `methodLine?_callLine` : what opens a section, and what is read from the line
  with the method, since no method is the beginning of another;
* `Draft.take` : what a draft takes up from one section (`IsWritable.foldl_addLine_section`);
* `IsWritable.finish_foldl_addLine` : an endpoint is what its lines make, added one by one;
* `parse_render_endpoints` : a text of endpoints gives these endpoints.
-/

namespace ComponentLang

open Text (isBlank isWord trim trimStart Trimmed Blank IsKey inset pairLine)

/-! ## Beginnings regardless of case -/

theorem Text.afterCaseless?_append_self (lead rest : Text) :
    afterCaseless? lead (lead ++ rest) = some rest := by
  induction lead with
  | nil => rfl
  | cons c lead ih => rw [List.cons_append, afterCaseless?, if_pos rfl, ih]

/-- Two texts are told apart where they differ in more than case. -/
theorem Text.afterCaseless?_append_of_apart {lead t : Text}
    (h : (lead.zip t).any fun p => caseFold p.1 ≠ caseFold p.2) (rest : Text) :
    afterCaseless? lead (t ++ rest) = none := by
  induction lead generalizing t with
  | nil => cases h
  | cons c lead ih =>
    cases t with
    | nil => cases h
    | cons d t =>
      rw [List.cons_append, afterCaseless?]
      split_ifs with hcd
      · rw [List.zip_cons_cons, List.any_cons, decide_eq_false (not_not_intro hcd), Bool.false_or] at h
        exact ih h
      · rfl

namespace Endpoint

/-! ## Written endpoints -/

/-- The line that opens a section. -/
def Section.opener (s : Section) : Text := s.label ++ [':']

/-- The lines of a section, if there is anything in it. -/
def Section.lines (s : Section) (content : List Text) : List Text :=
  if content = [] then [] else s.opener :: content

/-- The line with method and path. -/
def callLine (e : Endpoint) : Text := e.method ++ ' ' :: e.path

/-- The indented lines in a section of the endpoint. -/
def content (e : Endpoint) : Section → List Text
  | .headers => e.headers.entries.map pairLine
  | .query => e.query.entries.map pairLine
  | .body => (e.body.elim [] Text.lines).map inset
  | .mock => (e.mock.elim [] Text.lines).map inset

/-- The sections in the order in which they are written. -/
def sections : List Section := [.headers, .query, .body, .mock]

/-- The lines below the label of an endpoint. -/
def callLines (e : Endpoint) : List Text :=
  e.callLine :: sections.flatMap fun s => s.lines (e.content s)

/-- The lines of an endpoint. -/
def lines (e : Endpoint) : List Text := labelLine e.label :: e.callLines

/-- A text of endpoints, one after the other. -/
def render (es : List Endpoint) : Text := Text.unlines (es.flatMap lines)

/-- The label is a word, the path is trimmed, headers and query have keys without colons, and body and
mock answer have trimmed lines and none that is blank. Of the lines written, none but the first has a
label, and no indented one is the name of a section with a colon behind it. -/
structure IsWritable (e : Endpoint) : Prop where
  label_ne_nil : e.label ≠ []
  label : ∀ c ∈ e.label, isWord c
  method : e.method ∈ methods
  path_ne_nil : e.path ≠ []
  path : Trimmed e.path
  path_feed : '\n' ∉ e.path
  pairs : ∀ p ∈ e.headers.entries ++ e.query.entries, IsKey p.1 ∧ Trimmed p.2 ∧ '\n' ∉ p.2
  answers : ∀ t ∈ e.body.toList ++ e.mock.toList, ∀ l ∈ Text.lines t, Trimmed l ∧ l ≠ []
  unlabelled : ∀ l ∈ e.callLines, label? l = none
  unsectioned : ∀ s, ∀ l ∈ e.content s, ∀ (s' : Section) (gap : Text), Blank gap →
    trim l ≠ s'.label ++ (gap ++ [':'])

/-! ## What a line is taken for -/

/-- What opens a section is its name and a colon, with nothing but blanks between them. -/
theorem section?_eq_some_iff {t : Text} (ht : Trimmed t) {s : Section} : section? t = some s ↔
    ∃ gap, Blank gap ∧ t = s.label ++ (gap ++ [':']) := by
  constructor
  · intro h
    rw [section?] at h
    split_ifs at h with hcolon
    have hlabel : s.label = trim t.dropLast := by simpa using List.find?_some h
    obtain ⟨init, rfl⟩ : ∃ init, t = init ++ [':'] :=
      List.getLast?_eq_some_iff.1 (of_decide_eq_true hcolon)
    rw [List.dropLast_concat] at hlabel
    obtain ⟨lead, gap, hlead, hgap, hinit⟩ := Text.exists_pad init
    cases lead with
    | nil =>
      rw [List.nil_append] at hinit
      exact ⟨gap, hgap, by rw [hlabel, ← List.append_assoc, ← hinit]⟩
    | cons c lead =>
      -- the text would begin with a blank
      rw [hinit] at ht
      exact absurd (hlead c List.mem_cons_self) (ht.1 c rfl)
  · rintro ⟨gap, hgap, rfl⟩
    have hvisible : ∀ c ∈ s.label, ¬ isBlank c := by cases s <;> exact List.any_eq_false.1 rfl
    have htrim : trim (s.label ++ gap) = s.label :=
      Text.trim_eq Text.blank_nil (Text.trimmed_of_visible hvisible) hgap
    have hcolon : Text.endsWith ':' ((s.label ++ gap) ++ [':']) := by simp [Text.endsWith]
    rw [← List.append_assoc, section?, if_pos hcolon, List.dropLast_concat, htrim]
    cases s <;> rfl

/-- Method and path of a line that begins with the given method. -/
def callOf? (name t : Text) : Option (Text × Text) :=
  ((Text.afterCaseless? name t).bind Text.afterBlanks?).bind fun path =>
    (Text.nonempty? (trim path)).map fun path => (Text.toLatinUpper (t.take name.length), path)

theorem callOf?_callLine {e : Endpoint} (h : e.IsWritable) :
    callOf? e.method e.callLine = some (e.method, e.path) := by
  have hcapitals : ∀ method ∈ methods, Text.toLatinUpper method = method := by decide
  have hafter : (Text.afterCaseless? e.method e.callLine).bind Text.afterBlanks? =
      some (trimStart (' ' :: e.path)) := by
    rw [callLine, Text.afterCaseless?_append_self]
    rfl
  have hpath : trim (trimStart (' ' :: e.path)) = e.path :=
    calc trim (trimStart (' ' :: e.path)) = trim (' ' :: e.path) := Text.trim_trimStart _
      _ = trim e.path := Text.trim_blank_append (Text.blank_replicate 1) _
      _ = e.path := h.path.trim
  have htake : e.callLine.take e.method.length = e.method := List.take_left' rfl
  rw [callOf?, hafter, Option.bind_some, hpath, Text.nonempty?, if_neg h.path_ne_nil, Option.map_some,
    htake, hcapitals _ h.method]

/-- No method is the beginning of another. -/
theorem callOf?_of_ne {name method : Text} (hname : name ∈ methods) (hmethod : method ∈ methods)
    (hne : name ≠ method) (rest : Text) : callOf? name (method ++ rest) = none := by
  have happart : ∀ name ∈ methods, ∀ method ∈ methods, name ≠ method →
      (name.zip method).any fun p => Text.caseFold p.1 ≠ Text.caseFold p.2 := by decide
  rw [callOf?, Text.afterCaseless?_append_of_apart (happart name hname method hmethod hne)]
  rfl

theorem methodLine?_callLine {e : Endpoint} (h : e.IsWritable) :
    methodLine? e.callLine = some (e.method, e.path) := by
  have hself := callOf?_callLine h
  show methods.findSome? (callOf? · e.callLine) = _
  cases hfound : methods.findSome? (callOf? · e.callLine) with
  | none =>
    rw [List.findSome?_eq_none_iff.1 hfound _ h.method] at hself
    cases hself
  | some found =>
    obtain ⟨name, hname, hsome⟩ := List.exists_of_findSome?_eq_some hfound
    by_cases hne : name = e.method
    · rw [← hsome, hne, hself]
    · rw [callLine, callOf?_of_ne hname h.method hne] at hsome
      cases hsome

theorem trimmed_callLine {e : Endpoint} (h : e.IsWritable) : Trimmed e.callLine := by
  have hvisible : ∀ method ∈ methods, method.any isBlank = false := by decide
  have hne : ∀ method ∈ methods, method ≠ [] := by decide
  exact Text.trimmed_append (Text.trimmed_of_visible (List.any_eq_false.1 (hvisible _ h.method)))
    (hne _ h.method) [' '] h.path h.path_ne_nil

/-- A method is in capitals, and no section begins with one. -/
theorem section?_callLine {e : Endpoint} (h : e.IsWritable) : section? e.callLine = none := by
  have happart : ∀ method ∈ methods, method ≠ [] ∧ ∀ s ∈ sections, method.head? ≠ s.label.head? := by
    decide
  cases hs : section? e.callLine with
  | none => rfl
  | some s =>
    obtain ⟨hne, hhead⟩ := happart _ h.method
    obtain ⟨gap, _, hgap⟩ := (section?_eq_some_iff (trimmed_callLine h)).1 hs
    have hlabel : s.label ≠ [] ∧ s ∈ sections := by cases s <;> decide
    have heq := congrArg List.head? hgap
    rw [callLine, List.head?_append_of_ne_nil _ hne, List.head?_append_of_ne_nil _ hlabel.1] at heq
    exact absurd heq (hhead s hlabel.2)

/-! ## Lines added to a draft -/

theorem Draft.addLine_callLine {e : Endpoint} (h : e.IsWritable) (d : Draft) :
    d.addLine e.callLine = { d with method := e.method, path := e.path, current := none } := by
  have hne : ∀ method ∈ methods, method ≠ [] := by decide
  have hnil : e.callLine ≠ [] := List.append_ne_nil_of_left_ne_nil (hne _ h.method) _
  have htrimmed := trimmed_callLine h
  rw [addLine, htrimmed.trim, if_neg hnil, Draft.add, htrimmed.trim, section?_callLine h,
    htrimmed.startsBlank, methodLine?_callLine h]
  rfl

theorem Draft.addLine_opener (d : Draft) (s : Section) :
    d.addLine s.opener = { d with current := some s } := by
  cases s <;> rfl

theorem Draft.addLine_of_startsBlank {l : Text} (hblank : Text.startsBlank l) (hne : trim l ≠ [])
    (hsection : section? (trim l) = none) (d : Draft) : d.addLine l = d.addIndented (trim l) := by
  rw [addLine, if_neg hne, add, hsection]
  exact if_pos hblank

/-- What a draft takes up from one section of an endpoint. -/
def Draft.take (d : Draft) (e : Endpoint) : Section → Draft
  | .headers => { d with headers := d.headers.insertAll e.headers.entries }
  | .query => { d with query := d.query.insertAll e.query.entries }
  | .body => { d with body := d.body ++ e.body.elim [] Text.lines }
  | .mock => { d with mock := d.mock ++ e.mock.elim [] Text.lines }

/-- It makes no difference which section is open. -/
theorem Draft.take_current (d : Draft) (e : Endpoint) (s : Section) (c : Option Section) :
    { d with current := c }.take e s = { d.take e s with current := c } := by
  cases s <;> rfl

/-- Pairs go to the table of the section that is open, whichever it is. -/
theorem Draft.foldl_addIndented_pairs (put : Table Text → Draft)
    (hput : ∀ t line p, splitPair? line = some p → (put t).addIndented line = put (t.insert p.1 p.2))
    {ps : List (Text × Text)} (hps : ∀ p ∈ ps, IsKey p.1 ∧ Trimmed p.2) (t : Table Text) :
    (ps.map fun p => trim (pairLine p)).foldl addIndented (put t) = put (t.insertAll ps) := by
  induction ps generalizing t with
  | nil => rfl
  | cons p ps ih =>
    rw [List.forall_mem_cons] at hps
    rw [List.map_cons, List.foldl_cons, hput t _ p (Text.splitPair?_pairLine hps.1.1 hps.1.2),
      ih hps.2]
    rfl

/-- Lines go to the end of the section that is open, whichever it is. -/
theorem Draft.foldl_addIndented_lines (put : List Text → Draft)
    (hput : ∀ ls l, (put ls).addIndented l = put (ls ++ [l])) (ls ls' : List Text) :
    ls'.foldl addIndented (put ls) = put (ls ++ ls') := by
  induction ls' generalizing ls with
  | nil => rw [List.append_nil, List.foldl_nil]
  | cons l ls' ih => rw [List.foldl_cons, hput, ih, List.append_assoc, List.singleton_append]

/-! ## The lines of a section -/

/-- The lines in the sections are those of pairs and those of answers. -/
theorem mem_content {e : Endpoint} {s : Section} {l : Text} (hl : l ∈ e.content s) :
    (∃ p ∈ e.headers.entries ++ e.query.entries, pairLine p = l) ∨
      ∃ t ∈ e.body.toList ++ e.mock.toList, ∃ m ∈ Text.lines t, inset m = l := by
  have hanswer : ∀ {o : Option Text}, l ∈ (o.elim [] Text.lines).map inset →
      ∃ t ∈ o.toList, ∃ m ∈ Text.lines t, inset m = l := by
    rintro (_ | t) hl
    · cases hl
    · exact ⟨t, List.mem_cons_self, List.mem_map.1 hl⟩
  cases s with
  | headers =>
    obtain ⟨p, hp, hpl⟩ := List.mem_map.1 hl
    exact Or.inl ⟨p, List.mem_append_left _ hp, hpl⟩
  | query =>
    obtain ⟨p, hp, hpl⟩ := List.mem_map.1 hl
    exact Or.inl ⟨p, List.mem_append_right _ hp, hpl⟩
  | body =>
    obtain ⟨t, ht, hm⟩ := hanswer hl
    exact Or.inr ⟨t, List.mem_append_left _ ht, hm⟩
  | mock =>
    obtain ⟨t, ht, hm⟩ := hanswer hl
    exact Or.inr ⟨t, List.mem_append_right _ ht, hm⟩

section

variable {e : Endpoint} (h : e.IsWritable)

include h

/-- A line in a section is indented, it is not blank, and it opens no other section. -/
theorem IsWritable.of_mem_content {s : Section} {l : Text} (hl : l ∈ e.content s) :
    Text.startsBlank l ∧ trim l ≠ [] ∧ section? (trim l) = none := by
  have hsection : section? (trim l) = none := by
    cases hs : section? (trim l) with
    | none => rfl
    | some s' =>
      obtain ⟨gap, hgap, heq⟩ := (section?_eq_some_iff (Text.trimmed_trim l)).1 hs
      exact absurd heq (h.unsectioned s l hl s' gap hgap)
  rcases mem_content hl with ⟨p, hp, rfl⟩ | ⟨t, ht, m, hm, rfl⟩
  · obtain ⟨hkey, hvalue, _⟩ := h.pairs p hp
    exact ⟨Text.startsBlank_inset _, Text.trim_pairLine_ne_nil hkey.trimmed hvalue, hsection⟩
  · obtain ⟨htrimmed, hne⟩ := h.answers t ht m hm
    exact ⟨Text.startsBlank_inset m, by rwa [Text.trim_inset, htrimmed.trim], hsection⟩

theorem IsWritable.foldl_addLine_content {s : Section} {d : Draft} (hd : d.current = some s) :
    (e.content s).foldl Draft.addLine d = d.take e s := by
  have hindented : (e.content s).foldl Draft.addLine d =
      ((e.content s).map trim).foldl Draft.addIndented d := by
    rw [List.foldl_map]
    apply List.foldl_ext
    intro d l hl
    obtain ⟨hblank, hne, hsection⟩ := h.of_mem_content hl
    exact d.addLine_of_startsBlank hblank hne hsection
  have hpairs : ∀ p ∈ e.headers.entries ++ e.query.entries, IsKey p.1 ∧ Trimmed p.2 :=
    fun p hp => ⟨(h.pairs p hp).1, (h.pairs p hp).2.1⟩
  have hlines : ∀ o : Option Text, (∀ t ∈ o.toList, t ∈ e.body.toList ++ e.mock.toList) →
      ((o.elim [] Text.lines).map inset).map trim = o.elim [] Text.lines := by
    rintro (_ | t) ho
    · rfl
    · exact Text.map_trim_inset fun m hm => (h.answers t (ho t List.mem_cons_self) m hm).1
  rw [hindented]
  cases s with
  | headers =>
    rw [content, List.map_map]
    refine Draft.foldl_addIndented_pairs (fun t => { d with headers := t }) ?_
      (fun p hp => hpairs p (List.mem_append_left _ hp)) d.headers
    intro t line p hp
    rw [Draft.addIndented, hd, hp]
  | query =>
    rw [content, List.map_map]
    refine Draft.foldl_addIndented_pairs (fun t => { d with query := t }) ?_
      (fun p hp => hpairs p (List.mem_append_right _ hp)) d.query
    intro t line p hp
    rw [Draft.addIndented, hd, hp]
  | body =>
    rw [content, hlines _ fun t ht => List.mem_append_left _ ht]
    refine Draft.foldl_addIndented_lines (fun ls => { d with body := ls }) ?_ d.body _
    intro ls l
    rw [Draft.addIndented, hd]
  | mock =>
    rw [content, hlines _ fun t ht => List.mem_append_right _ ht]
    refine Draft.foldl_addIndented_lines (fun ls => { d with mock := ls }) ?_ d.mock _
    intro ls l
    rw [Draft.addIndented, hd]

/-! ## The lines of an endpoint -/

/-- The lines of a section leave what is in it, and some section open. -/
theorem IsWritable.foldl_addLine_section (s : Section) (d : Draft) :
    ∃ c, (s.lines (e.content s)).foldl Draft.addLine d = { d.take e s with current := c } := by
  have hopen := h.foldl_addLine_content (s := s) (d := { d with current := some s }) rfl
  rw [Draft.take_current] at hopen
  by_cases hnil : e.content s = []
  · -- there is nothing to take up, so the draft stays as it is
    rw [hnil, List.foldl_nil] at hopen
    refine ⟨d.current, ?_⟩
    rw [hnil, Section.lines, if_pos rfl, List.foldl_nil]
    exact congrArg (fun d' : Draft => { d' with current := d.current }) hopen
  · refine ⟨some s, ?_⟩
    rw [Section.lines, if_neg hnil, List.foldl_cons, Draft.addLine_opener, hopen]

theorem IsWritable.foldl_addLine_sections (ss : List Section) (d : Draft) :
    ∃ c, (ss.flatMap fun s => s.lines (e.content s)).foldl Draft.addLine d =
      { ss.foldl (fun d s => d.take e s) d with current := c } := by
  induction ss generalizing d with
  | nil => exact ⟨d.current, rfl⟩
  | cons s ss ih =>
    obtain ⟨c, hc⟩ := h.foldl_addLine_section s d
    obtain ⟨c', hc'⟩ := ih { d.take e s with current := c }
    have hrest : ss.foldl (fun d s => d.take e s) { d.take e s with current := c } =
        { ss.foldl (fun d s => d.take e s) (d.take e s) with current := c } :=
      List.foldl_hom (fun d : Draft => { d with current := c }) fun d s => d.take_current e s c
    refine ⟨c', ?_⟩
    rw [List.flatMap_cons, List.foldl_append, hc, hc', hrest, List.foldl_cons]

/-- **An endpoint is what its lines make**, added one by one. -/
theorem IsWritable.finish_foldl_addLine :
    (e.callLines.foldl Draft.addLine (.start e.label)).finish = e := by
  have hanswer : ∀ o : Option Text, (∀ t ∈ o.toList, t ∈ e.body.toList ++ e.mock.toList) →
      Text.nonempty? (Text.unlines (o.elim [] Text.lines)) = o := by
    rintro (_ | t) ho
    · rfl
    · have hne : t ≠ [] := by
        rintro rfl
        exact (h.answers [] (ho [] List.mem_cons_self) [] List.mem_cons_self).2 rfl
      have hlines : Text.unlines (Text.lines t) = t := Text.intercalate_pieces '\n' t
      rw [Option.elim, hlines, Text.nonempty?, if_neg hne]
  have hbody := hanswer e.body fun t ht => List.mem_append_left _ ht
  have hmock := hanswer e.mock fun t ht => List.mem_append_right _ ht
  have hheaders := Table.empty_merge e.headers
  have hquery := Table.empty_merge e.query
  rw [Table.merge] at hheaders hquery
  obtain ⟨c, hc⟩ := h.foldl_addLine_sections sections
    { Draft.start e.label with method := e.method, path := e.path, current := none }
  rw [callLines, List.foldl_cons, Draft.addLine_callLine h, hc]
  simp only [sections, List.foldl_cons, List.foldl_nil, Draft.take, Draft.start, Draft.finish,
    List.nil_append, hheaders, hquery, hbody, hmock]

/-! ## A text of endpoints -/

/-- The lines of an endpoint hold no line feed and end in no carriage return. -/
theorem IsWritable.line {l : Text} (hl : l ∈ e.lines) : '\n' ∉ l ∧ Text.dropReturns l = l := by
  rw [lines, callLines, List.mem_cons, List.mem_cons, List.mem_flatMap] at hl
  rcases hl with rfl | rfl | ⟨s, _, hl⟩
  · exact line_labelLine h.label_ne_nil h.label
  · have hmethod : ∀ method ∈ methods, '\n' ∉ method ++ [' '] := by decide
    have hassoc : e.callLine = (e.method ++ [' ']) ++ e.path := by simp [callLine]
    rw [hassoc]
    exact Text.line_of_trimmed (hmethod _ h.method) h.path_feed h.path h.path_ne_nil
  · rw [Section.lines] at hl
    split_ifs at hl with hnil
    · cases hl
    · rcases List.mem_cons.1 hl with rfl | hl
      · cases s <;> decide
      · rcases mem_content hl with ⟨p, hp, rfl⟩ | ⟨t, ht, m, hm, rfl⟩
        · obtain ⟨hkey, hvalue, hfeed⟩ := h.pairs p hp
          exact Text.line_pairLine hkey hvalue hfeed
        · obtain ⟨htrimmed, hne⟩ := h.answers t ht m hm
          exact Text.line_of_trimmed (by decide) (Text.not_mem_of_mem_pieces hm) htrimmed hne

end

theorem parseLines_flatMap {es : List Endpoint} (h : ∀ e ∈ es, e.IsWritable) :
    parseLines none (es.flatMap lines) = es := by
  have hname : ∀ e ∈ es, e.label ≠ [] ∧ ∀ c ∈ e.label, isWord c := fun e he =>
    ⟨(h e he).label_ne_nil, (h e he).label⟩
  rw [parseLines_eq_blocks]
  exact blocks_flatMap hname (fun e he => (h e he).unlabelled)
    (fun e he => congrArg (fun e => [e]) (h e he).finish_foldl_addLine) none

/-- A line feed at the end of a text says nothing. -/
theorem parseLines_concat_nil (d : Option Draft) (ls : List Text) :
    parseLines d (ls ++ [[]]) = parseLines d ls := by
  rw [parseLines_eq_blocks, parseLines_eq_blocks]
  exact blocks_concat rfl (fun _ => rfl) d ls

/-- **A text of endpoints gives these endpoints**, with a line feed at its end or without. -/
theorem parse_render_endpoints (es : List Endpoint) (h : ∀ e ∈ es, e.IsWritable) :
    parse (render es) = es ∧ parse (render es ++ ['\n']) = es := by
  have hline : ∀ l ∈ es.flatMap lines, '\n' ∉ l ∧ Text.dropReturns l = l := by
    intro l hl
    obtain ⟨e, he, hl⟩ := List.mem_flatMap.1 hl
    exact (h e he).line hl
  have hread : parse (render es) = es := by
    rw [parse, render, Text.map_dropReturns_lines_unlines hline]
    split_ifs with hnil
    · rw [← parseLines_flatMap h, hnil]
      rfl
    · exact parseLines_flatMap h
  refine ⟨hread, ?_⟩
  rw [parse, Text.lines_append, List.map_append]
  exact (parseLines_concat_nil _ _).trans hread

/-- Two endpoints: keys and values that are empty or have colons, a path that ends in one, and answers
with lines that would be something else at the margin. -/
def station : List Endpoint := [
  ⟨"weather".toList, "GET".toList, "https://api.example.com: now:".toList,
    ⟨[("Accept".toList, "text/plain; q=1:".toList), ([], "x: --".toList), ("body".toList, ":".toList),
      ("-- label".toList, [])], by decide⟩,
    ⟨[("city".toList, "$city".toList)], by decide⟩, some "GET /x\n\x7b\"query\":\t1\x7d".toList, none⟩,
  ⟨"ping_2".toList, "OPTIONS".toList, "*".toList, .empty, .empty, none, some "header :\n# mock::".toList⟩]

theorem parse_render_endpoints_station :
    (∀ e ∈ station, e.IsWritable) ∧ parse (render station) = station ∧
      parse (render station ++ ['\n']) = station := by
  have hsections : ∀ e ∈ station, ∀ s ∈ sections, ∀ l ∈ e.content s, section? (trim l) = none := by
    decide +kernel
  have hunsectioned : ∀ e ∈ station, ∀ s, ∀ l ∈ e.content s, ∀ (s' : Section) (gap : Text), Blank gap →
      trim l ≠ s'.label ++ (gap ++ [':']) := by
    intro e he s l hl s' gap hgap heq
    have hs : s ∈ sections := by cases s <;> decide
    have hsome := (section?_eq_some_iff (Text.trimmed_trim l)).2 ⟨gap, hgap, heq⟩
    rw [hsections e he s hs l hl] at hsome
    cases hsome
  have hpairs : ∀ e ∈ station, ∀ p ∈ e.headers.entries ++ e.query.entries,
      IsKey p.1 ∧ Trimmed p.2 ∧ '\n' ∉ p.2 := by decide +kernel
  have hanswers : ∀ e ∈ station, ∀ t ∈ e.body.toList ++ e.mock.toList, ∀ l ∈ Text.lines t,
      Trimmed l ∧ l ≠ [] := by decide +kernel
  have hlabels : ∀ e ∈ station, ∀ l ∈ e.callLines, label? l = none := by decide +kernel
  have hcall : ∀ e ∈ station, e.label ≠ [] ∧ e.label.all isWord = true ∧ e.method ∈ methods ∧
      e.path ≠ [] ∧ Trimmed e.path ∧ '\n' ∉ e.path := by decide +kernel
  have hstation : ∀ e ∈ station, e.IsWritable := by
    intro e he
    obtain ⟨hne, hlabel, hmethod, hpath, htrimmed, hfeed⟩ := hcall e he
    exact ⟨hne, List.all_eq_true.1 hlabel, hmethod, hpath, htrimmed, hfeed, hpairs e he, hanswers e he,
      hlabels e he, hunsectioned e he⟩
  exact ⟨hstation, parse_render_endpoints station hstation⟩

end Endpoint

end ComponentLang
