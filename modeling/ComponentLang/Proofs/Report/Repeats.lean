import ComponentLang.Proofs.Report.Line
import ComponentLang.Repeats
import Mathlib.Data.List.Sort

/-!
# Which repeats are reported, and in which order

* `Manifest.declared` : the names that a manifest declares of one kind, with their lines;
* `repeatAt?` : the report on the item at a position, told by the items before it;
* `Manifest.dueReports` : all these reports, kind by kind and position by position;
* `Manifest.repeats_eq` : the one pass over the items, which remembers the names that it has met, finds
  just these;
* `filter_mergeSort` : sorting by a number keeps the order of what has the same number;
* `Manifest.reports_eq_mergeSort` : to sort by the number of a line is to sort by the line that the text
  of a report names;
* `Manifest.reports_inOrder` : the reports on a manifest are those that are due, by line.
-/

namespace ComponentLang

/-! ## Repeats by position -/

/-- The names that a manifest declares of one kind, with their lines and in order. -/
def Manifest.declared (m : Manifest) : DeclarationKind → List (Text × Int)
  | .prop => m.props.map fun d => (d.id, d.line)
  | .state => m.state.map fun d => (d.id, d.line)
  | .derived => m.derived.map fun d => (d.id, d.line)
  | .function => m.functions.map fun f => (f.name, f.line)

/-- All kinds, in the order in which their repeats are reported. -/
def DeclarationKind.all : List DeclarationKind := [.prop, .state, .derived, .function]

/-- The report on the item at a position: it is due if an earlier item has the same name, and names the
line of the item and that of the first of those. -/
def repeatAt? (kind : DeclarationKind) (items : List (Text × Int)) (i : Nat) : Option Report :=
  items[i]?.bind fun item =>
    ((items.take i).find? (·.1 = item.1)).map fun first => ⟨item.2, .repeated kind item.1 first.2⟩

/-- The reports on repeats, kind by kind and in the order of the items. -/
def Manifest.dueReports (m : Manifest) : List Report :=
  DeclarationKind.all.flatMap fun kind =>
    (List.range (m.declared kind).length).filterMap (repeatAt? kind (m.declared kind))

/-! ## One pass over the items -/

namespace Entries

theorem get?_concat (name k : Text) (v : Int) (es : List (Text × Int)) :
    get? name (es ++ [(k, v)]) = (get? name es).or (if k = name then some v else none) := by
  induction es with
  | nil => by_cases h : k = name <;> simp [get?, h]
  | cons e es ih =>
    rw [List.cons_append, get?, get?, ih]
    split_ifs <;> simp

end Entries

/-- What has been met so far holds for each name the line of the first item with it. -/
def Remembers (seen items : List (Text × Int)) : Prop :=
  ∀ name, Entries.get? name seen = (items.find? (·.1 = name)).map Prod.snd

theorem remembers_nil : Remembers [] [] := fun _ => rfl

/-- A new name is remembered with its line. -/
theorem Remembers.concat {seen items : List (Text × Int)} (h : Remembers seen items)
    (item : Text × Int) : Remembers (seen ++ [item]) (items ++ [item]) := by
  intro name
  rw [Entries.get?_concat, h name, List.find?_append]
  cases items.find? (·.1 = name) with
  | none => by_cases hname : item.1 = name <;> simp [hname]
  | some first => simp

/-- A name that is known already keeps its line. -/
theorem Remembers.skip {seen items : List (Text × Int)} (h : Remembers seen items)
    (item : Text × Int) {line : Int} (hitem : Entries.get? item.1 seen = some line) :
    Remembers seen (items ++ [item]) := by
  intro name
  rw [h name, List.find?_append]
  cases hfirst : items.find? (·.1 = name) with
  | none =>
    have hne : item.1 ≠ name := by
      rintro rfl
      rw [h item.1, hfirst] at hitem
      cases hitem
    simp [hne]
  | some first => simp

/-- The report on the next item, after the items `before`. -/
theorem repeatAt?_length (kind : DeclarationKind) (before rest : List (Text × Int))
    (item : Text × Int) :
    repeatAt? kind (before ++ item :: rest) before.length =
      (before.find? (·.1 = item.1)).map fun first =>
        ⟨item.2, .repeated kind item.1 first.2⟩ := by
  simp [repeatAt?]

theorem repeatsAfter_eq (kind : DeclarationKind) {seen before : List (Text × Int)}
    (h : Remembers seen before) (rest : List (Text × Int)) :
    repeatsAfter kind seen rest =
      (List.range' before.length rest.length).filterMap (repeatAt? kind (before ++ rest)) := by
  induction rest generalizing seen before with
  | nil => rfl
  | cons item rest ih =>
    have hnext : before ++ item :: rest = (before ++ [item]) ++ rest := by simp
    have hlength : (before ++ [item]).length = before.length + 1 := by simp
    rw [List.length_cons, List.range'_succ, List.filterMap_cons, repeatAt?_length, hnext, ← hlength]
    obtain ⟨name, line⟩ := item
    rw [repeatsAfter]
    cases hfirst : before.find? (·.1 = name) with
    | none =>
      have hnew : Entries.get? name seen = none := by rw [h name, hfirst]; rfl
      rw [hnew, ih (h.concat (name, line))]
      rfl
    | some first =>
      have hknown : Entries.get? name seen = some first.2 := by rw [h name, hfirst]; rfl
      rw [hknown, ih (h.skip (name, line) hknown)]
      rfl

/-- The repeats that one pass finds are those that are due by position. -/
theorem repeats_eq (kind : DeclarationKind) (items : List (Text × Int)) :
    repeats kind items = (List.range items.length).filterMap (repeatAt? kind items) := by
  rw [repeats, repeatsAfter_eq kind remembers_nil items, List.range_eq_range']
  rfl

theorem Manifest.repeats_eq (m : Manifest) : m.repeats = m.dueReports := by
  simp [Manifest.repeats, dueReports, DeclarationKind.all, ComponentLang.repeats_eq, declared]

theorem exists_declared_of_mem_dueReports {m : Manifest} {r : Report} (h : r ∈ m.dueReports) :
    ∃ kind, ∃ item ∈ m.declared kind, item.2 = r.line := by
  obtain ⟨kind, -, hr⟩ := List.mem_flatMap.1 h
  obtain ⟨i, -, hr⟩ := List.mem_filterMap.1 hr
  obtain ⟨item, hitem, hr⟩ := Option.bind_eq_some_iff.1 hr
  obtain ⟨first, -, rfl⟩ := Option.map_eq_some_iff.1 hr
  exact ⟨kind, item, List.mem_of_getElem? hitem, rfl⟩

/-! ## Sorting -/

section

variable {α : Type} (key : α → Nat) (l : List α)

theorem le_key_trans (a b c : α) :
    decide (key a ≤ key b) → decide (key b ≤ key c) → decide (key a ≤ key c) := by
  simp only [decide_eq_true_eq]
  omega

theorem le_key_total (a b : α) : decide (key a ≤ key b) || decide (key b ≤ key a) := by
  simp only [Bool.or_eq_true, decide_eq_true_eq]
  omega

theorem pairwise_mergeSort_key :
    (l.mergeSort fun a b => key a ≤ key b).Pairwise fun a b => key a ≤ key b := by
  have h := List.pairwise_mergeSort (le_key_trans key) (le_key_total key) l
  simpa using h

/-- What has the same number keeps its order. -/
theorem filter_mergeSort (n : Nat) :
    (l.mergeSort fun a b => key a ≤ key b).filter (key · = n) = l.filter (key · = n) := by
  have hsorted : (l.filter (key · = n)).Pairwise fun a b => decide (key a ≤ key b) := by
    rw [List.pairwise_iff_forall_sublist]
    intro a b hab
    have ha := List.of_mem_filter (hab.subset List.mem_cons_self)
    have hb := List.of_mem_filter (hab.subset (List.mem_cons_of_mem a List.mem_cons_self))
    rw [decide_eq_true_eq] at ha hb ⊢
    omega
  have hsub := List.sublist_mergeSort (le_key_trans key) (le_key_total key) hsorted
    List.filter_sublist
  have hfilter := hsub.filter (key · = n)
  rw [List.filter_filter] at hfilter
  simp only [Bool.and_self] at hfilter
  exact (hfilter.eq_of_length ((List.mergeSort_perm l _).filter _).length_eq.symm).symm

end

/-! ## Reports -/

/-- The line is read again, if it has no more digits than are read. -/
theorem readLine_render {r : Report} {n : Nat} (h : r.line = n) (hn : Text.isWritable r.line) :
    readLine r.render = .ok (some n) := by
  have hlength : (Text.ofNat n).length ≤ Text.maxDigits := by
    rw [h] at hn
    simpa [Text.isWritable] using hn
  rw [readLine, Report.render, h, lineDigits?_atLine]
  dsimp only
  rw [Text.read, if_pos hlength, Text.value_ofNat]
  rfl

/-- The order of the reports is that of the lines which their texts name, a text that names none
first. -/
theorem Manifest.reports_eq_mergeSort (m : Manifest) :
    m.reports true = m.repeats.mergeSort fun r r' =>
      (lineOfReport? r.render).getD 0 ≤ (lineOfReport? r'.render).getD 0 := by
  simp only [getD_lineOfReport?_render]
  exact if_pos rfl

/-- **Each repeat is reported once, and the reports come in the order of their lines.** For manifests
whose lines are not negative, the reports are those that are due. The text of each names its line, and
is read again within the limit on digits. Reports on the same line stay in the order in which they are
due: props, states, derived values and functions, and of one kind in the order of declaration. -/
theorem Manifest.reports_inOrder (m : Manifest)
    (hlines : ∀ kind, ∀ item ∈ m.declared kind, 0 ≤ item.2) :
    (m.reports true).Perm m.dueReports ∧
    (∀ r ∈ m.reports true, (lineOfReport? r.render).map Int.ofNat = some r.line ∧
      (Text.isWritable r.line → readLine r.render = .ok (some r.line.toNat))) ∧
    (m.reports true).Pairwise (fun r r' => r.line ≤ r'.line) ∧
    ∀ line, (m.reports true).filter (·.line = line) = m.dueReports.filter (·.line = line) := by
  have hsort : m.reports true =
      m.dueReports.mergeSort fun a b => a.line.toNat ≤ b.line.toNat := by
    rw [Manifest.reports, if_pos rfl, Manifest.repeats_eq]
  have hperm : (m.reports true).Perm m.dueReports := hsort ▸ List.mergeSort_perm _ _
  have hline : ∀ r ∈ m.reports true, r.line = r.line.toNat := by
    intro r hr
    obtain ⟨kind, item, hitem, heq⟩ := exists_declared_of_mem_dueReports (hperm.subset hr)
    have := hlines kind item hitem
    omega
  refine ⟨hperm, fun r hr => ⟨?_, readLine_render (hline r hr)⟩, ?_, fun line => ?_⟩
  · rw [lineOfReport?_render (hline r hr), Option.map_some]
    exact congrArg some (hline r hr).symm
  · have hsorted := pairwise_mergeSort_key (fun r : Report => r.line.toNat) m.dueReports
    rw [← hsort] at hsorted
    refine hsorted.imp_of_mem fun {r r'} hr hr' hle => ?_
    have := hline r hr
    have := hline r' hr'
    omega
  · -- reports on one line have one number, so their order is that of the number
    have hfilter := filter_mergeSort (fun r : Report => r.line.toNat) m.dueReports line.toNat
    rw [← hsort] at hfilter
    have hcut : ∀ reports : List Report, reports.filter (·.line = line) =
        (reports.filter (·.line.toNat = line.toNat)).filter (·.line = line) := by
      intro reports
      rw [List.filter_filter]
      refine List.filter_congr fun r _ => ?_
      by_cases hr : r.line = line <;> simp [hr]
    rw [hcut, hcut m.dueReports, hfilter]

/-- Two props, states and functions of one name each. -/
def homonyms : Manifest :=
  { Manifest.empty with
    props := [⟨"a".toList, "any".toList, none, 4⟩, ⟨"a".toList, "any".toList, none, 9⟩]
    state := [⟨"x".toList, "any".toList, none, 1⟩, ⟨"y".toList, "any".toList, none, 3⟩,
      ⟨"x".toList, "any".toList, none, 9⟩, ⟨"x".toList, "any".toList, none, 9⟩]
    functions := [⟨"go".toList, [], [], 2⟩, ⟨"go".toList, [], [], 5⟩] }

/-- On the last line, the prop comes before the states. -/
theorem reports_inOrder_homonyms :
    (∀ kind, ∀ item ∈ homonyms.declared kind, 0 ≤ item.2) ∧
    ((homonyms.reports true).filter (·.line = 9)).map Report.render =
      ["Line 9: Duplicate prop 'a' (first declared on line 4)".toList,
        "Line 9: Duplicate state 'x' (first declared on line 1)".toList,
        "Line 9: Duplicate state 'x' (first declared on line 1)".toList] ∧
    (homonyms.reports true).Perm homonyms.dueReports ∧
    homonyms.dueReports.map Report.line = [9, 9, 9, 5] := by
  have hlines : ∀ kind, ∀ item ∈ homonyms.declared kind, 0 ≤ item.2 := by
    intro kind
    cases kind <;> decide
  obtain ⟨hperm, -, -, hties⟩ := homonyms.reports_inOrder hlines
  refine ⟨hlines, ?_, hperm, by decide⟩
  rw [hties 9]
  decide

end ComponentLang
