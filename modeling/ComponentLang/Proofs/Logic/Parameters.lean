import ComponentLang.Compile
import ComponentLang.Proofs.Logic.Openers
import ComponentLang.Proofs.Nesting.Rejoin
import ComponentLang.Proofs.Text.Trim
import ComponentLang.Proofs.Text.Word

/-!
# The parameters of a function

* `FunctionLine` : the line that declares a function, with whatever stands after its colon;
* `overrun` : how far the list of parameters goes on after the colon;
* `functionHeader?_text` : what is read from such a line;
* `count_parameters` : no character of a list is lost but commas and blanks;
* `parameters_buildManifest_iff` : a function has the parameters between its own brackets if and only
  if no closing bracket stands after its colon;
* `parameters_buildManifest_call` : with a call after the colon it has others.
-/

namespace ComponentLang

open Text (isBlank isWord isNameStart trim)

/-! ## Counting characters -/

theorem Text.count_intercalate {c : Char} {sep : Text} (h : c ∉ sep) (ps : List Text) :
    (List.intercalate sep ps).count c = ps.flatten.count c := by
  induction ps with
  | nil => rfl
  | cons p ps ih =>
    cases ps with
    | nil => rw [List.intercalate_singleton, List.flatten_singleton]
    | cons q ps =>
      have hflatten : (p :: q :: ps).flatten = p ++ (q :: ps).flatten := rfl
      rw [List.intercalate_cons_cons, List.count_append, List.count_append, List.count_eq_zero.2 h, ih,
        Nat.add_zero, hflatten, List.count_append]

/-- No character is lost with the parts that are left out. -/
theorem count_flatten_trimmed {c : Char} (hc : ¬ isBlank c) (ps : List Text) :
    ((ps.map trim).filter (· ≠ [])).flatten.count c = ps.flatten.count c := by
  induction ps with
  | nil => rfl
  | cons p ps ih =>
    rw [List.map_cons, List.filter_cons, List.flatten_cons, List.count_append, ← ih,
      ← Text.count_trim hc p]
    split_ifs with hp
    · rw [List.flatten_cons, List.count_append]
    · rw [decide_eq_true_eq, not_not] at hp
      rw [hp, List.count_nil, Nat.zero_add]

/-- Parameters have all characters of their list but commas and blanks. -/
theorem count_parameters {c : Char} (hcomma : c ≠ ',') (hc : ¬ isBlank c) (t : Text) :
    (parameters t).flatten.count c = t.count c := by
  have hjoin := (Nesting.splitFrom_spec Nesting.isSeparator_comma .top t).2
  have hsep : c ∉ [','] := fun hmem => hcomma (List.mem_singleton.1 hmem)
  rw [parameters, count_flatten_trimmed hc, ← Text.count_intercalate hsep, Text.split, hjoin]

/-! ## The line of a function -/

/-- A line that declares a function: its name, what stands between the brackets, and what stands
after the colon. -/
structure FunctionLine where
  name : Text
  inside : Text
  rest : Text

/-- How far the list of parameters goes on, given what stands after the colon: to the last closing
bracket, which is not part of it. -/
def overrun (rest : Text) : Text :=
  match Text.splitLast? ')' rest with
  | some (a, _) => ')' :: ':' :: a
  | none => []

theorem overrun_of_not_mem {rest : Text} (h : ')' ∉ rest) : overrun rest = [] := by
  rw [overrun, Text.splitLast?_of_not_mem h]

theorem overrun_append {b : Text} (h : ')' ∉ b) (a : Text) :
    overrun (a ++ ')' :: b) = ')' :: ':' :: a := by
  rw [overrun, Text.splitLast?_append h]

namespace FunctionLine

/-- The line as it is written. -/
def text (l : FunctionLine) : Text :=
  "fn ".toList ++ (l.name ++ '(' :: (l.inside ++ ')' :: ':' :: l.rest))

/-- The name is an identifier, and the line is one line. -/
structure IsValid (l : FunctionLine) : Prop where
  name : ∃ c r, l.name = c :: r ∧ isNameStart c ∧ ∀ d ∈ r, isWord d
  inside : '\n' ∉ l.inside
  rest : '\n' ∉ l.rest

/-- What is taken for the list of parameters. -/
def list (l : FunctionLine) : Text := l.inside ++ overrun l.rest

theorem exists_splitLast? (l : FunctionLine) :
    ∃ after, Text.splitLast? ')' (l.inside ++ ')' :: ':' :: l.rest) = some (l.list, after) := by
  rw [list]
  by_cases h : ')' ∈ l.rest
  · obtain ⟨a, b, hrest, hb⟩ := Text.exists_last h
    have hsplit : l.inside ++ ')' :: ':' :: (a ++ ')' :: b) =
        (l.inside ++ ')' :: ':' :: a) ++ ')' :: b := by simp
    rw [hrest, overrun_append hb, hsplit]
    exact ⟨b, Text.splitLast?_append hb _⟩
  · have hcolon : ')' ∉ ':' :: l.rest := fun hmem => h ((List.mem_cons.1 hmem).resolve_left (by decide))
    rw [overrun_of_not_mem h, List.append_nil]
    exact ⟨':' :: l.rest, Text.splitLast?_append hcolon _⟩

/-- The name and parameters that are read from the line. -/
theorem functionHeader?_text {l : FunctionLine} (h : l.IsValid) :
    functionHeader? l.text = some (l.name, parameters l.list) := by
  have hid : Text.IsName l.name := h.name
  have hkeyword : Text.afterSpaced? "fn".toList l.text =
      some (l.name ++ '(' :: (l.inside ++ ')' :: ':' :: l.rest)) :=
    Text.afterSpaced?_append "fn".toList (hid.head?_append _)
  have hname : ∀ t, Text.name? (l.name ++ '(' :: t) = some (l.name, '(' :: t) := fun t =>
    hid.name?_append (by rintro c ⟨⟩; decide)
  have hparen : ∀ t, Text.after? ['('] (Text.trimStart ('(' :: t)) = some t := fun t => rfl
  have hline : ∀ d ∈ l.inside ++ ')' :: ':' :: l.rest, decide (d ≠ '\n') := by
    intro d hd
    rw [decide_eq_true_eq]
    rintro rfl
    simp [h.inside, h.rest] at hd
  obtain ⟨after, hafter⟩ := l.exists_splitLast?
  rw [functionHeader?, hkeyword, Option.bind_some, hname, Option.bind_some]
  dsimp only
  rw [hparen, Option.bind_some, List.takeWhile_eq_self_iff.2 hline, hafter, Option.map_some]

/-- The parameters are those between the brackets of the line only if no bracket is closed after its
colon. -/
theorem parameters_list_iff (l : FunctionLine) :
    parameters l.list = parameters l.inside ↔ ')' ∉ l.rest := by
  constructor
  · -- a longer list has one closing bracket more, which is lost in no parameter
    intro heq hmem
    obtain ⟨a, b, hrest, hb⟩ := Text.exists_last hmem
    have hcount := congrArg (fun ps => ps.flatten.count ')') heq
    simp only [count_parameters (c := ')') (by decide) (by decide), list, hrest, overrun_append hb,
      List.count_append, List.count_cons_self] at hcount
    omega
  · intro h
    rw [list, overrun_of_not_mem h, List.append_nil]

end FunctionLine

/-! ## The functions of a manifest -/

/-- The functions of a manifest are those of the positions before one outside of logic and heads, of
this one, and of those after it. -/
theorem functions_buildManifest {ts : List Token} (hd : ∀ t ∈ ts, 0 ≤ t.depth) (c : Companions)
    {i : Nat} (hi : i < ts.length) :
    ∃ after, (buildManifest ts c).functions =
      ((List.range i).filterMap (entryAt? ts)).flatMap LogicEntry.functions ++
        ((entryAt? ts i).toList.flatMap LogicEntry.functions ++ after) := by
  have hstart : Scope.around ts 0 = Scope.start := Scope.closeTo_of_lt (by rintro f ⟨⟩)
  have hadds := Scope.adds_run (k := 0) hd (Nat.zero_add _) (by rw [hstart]; rintro f ⟨⟩)
  obtain ⟨n, hn⟩ : ∃ n, ts.length = i + (n + 1) := ⟨ts.length - (i + 1), by omega⟩
  have hrange : List.range ts.length = List.range i ++ i :: List.range' (i + 1) n := by
    rw [hn, List.range_eq_range', List.range_eq_range', ← List.range'_append_1, Nat.zero_add,
      List.range'_succ]
  rw [hstart, ← List.range_eq_range', hrange] at hadds
  rw [Scope.buildManifest_eq_around]
  refine ⟨((List.range' (i + 1) n).filterMap (entryAt? ts)).flatMap LogicEntry.functions, ?_⟩
  have hnone : Scope.start.manifest.functions = [] := rfl
  refine hadds.functions.trans ?_
  rw [hnone, List.nil_append, List.filterMap_append, List.flatMap_append, List.filterMap_cons]
  cases entryAt? ts i with
  | none => rfl
  | some entry => simp

/-- **A function has the parameters between its own brackets if and only if no bracket is closed after
its colon.** The line `l` declares a function outside of logic and heads, where any other tokens may
stand before and after it. The function is recorded after those of the positions before it. -/
theorem parameters_buildManifest_iff {ts : List Token} (hd : ∀ t ∈ ts, 0 ≤ t.depth) (c : Companions)
    {i : Nat} {t : Token} (ht : ts[i]? = some t) (hs : (Scope.around ts i).Outside)
    (hcategory : t.category = .function) {l : FunctionLine} (hl : l.IsValid) (htext : t.text = l.text) :
    ∃ params after, (buildManifest ts c).functions =
        ((List.range i).filterMap (entryAt? ts)).flatMap LogicEntry.functions ++
          ⟨l.name, params, logicItems (Scope.under t (ts.drop (i + 1))), t.line⟩ :: after ∧
      (params = parameters l.inside ↔ ')' ∉ l.rest) := by
  obtain ⟨hi, -⟩ := List.getElem?_eq_some_iff.1 ht
  obtain ⟨after, hafter⟩ := functions_buildManifest hd c hi
  have hopener : (Scope.around ts i).opener? t =
      some fun body => .function ⟨l.name, parameters l.list, body, t.line⟩ := by
    rw [Scope.opener?, hcategory, htext]
    simp only [FunctionLine.functionHeader?_text hl, Option.map_some]
  refine ⟨parameters l.list, after, ?_, l.parameters_list_iff⟩
  rw [hafter, Scope.entryAt?_of_outside ht hs, hopener]
  rfl

/-- A list with brackets and a string in it, and more on the line after the colon. -/
def searchLine : FunctionLine where
  name := "search".toList
  inside := " term, opts = \x7b by: [1, 2], sep: \x22,\x22 \x7d".toList
  rest := " $busy = true".toList

/-- A state, and a function with a line under it. -/
def searching : List Token := [
  ⟨1, 0, .state, "$busy = false".toList, "$busy = false".toList, 0⟩,
  ⟨2, 0, .function, searchLine.text, searchLine.text, 0⟩,
  ⟨3, 4, .expression, "load(term)".toList, "    load(term)".toList, 1⟩]

theorem parameters_buildManifest_iff_search :
    ∃ body after, (buildManifest searching {}).functions =
      ⟨"search".toList, ["term".toList, "opts = \x7b by: [1, 2], sep: \x22,\x22 \x7d".toList], body, 2⟩ ::
        after := by
  have hvalid : searchLine.IsValid :=
    ⟨⟨'s', "earch".toList, rfl, by decide, List.all_eq_true.1 rfl⟩, by decide, by decide⟩
  have ht : searching[1]? = some ⟨2, 0, .function, searchLine.text, searchLine.text, 0⟩ := rfl
  obtain ⟨params, after, hfunctions, hparams⟩ :=
    parameters_buildManifest_iff (by decide) {} ht (by decide) rfl hvalid rfl
  have hinside : parameters searchLine.inside =
      ["term".toList, "opts = \x7b by: [1, 2], sep: \x22,\x22 \x7d".toList] := by decide
  have hbefore : ((List.range 1).filterMap (entryAt? searching)).flatMap LogicEntry.functions = [] := rfl
  rw [hparams.2 (by decide), hinside, hbefore] at hfunctions
  exact ⟨_, after, hfunctions⟩

/-- A call after the colon lends its closing bracket to the list of parameters. -/
theorem parameters_buildManifest_call :
    (analyse {} {} memoryFile "fn add(a): go(a)".toList).manifest.functions.map
        (fun f => (f.name, f.params)) = [("add".toList, ["a): go(a".toList])] ∧
      parameters "a".toList = ["a".toList] := by
  decide +kernel

end ComponentLang
