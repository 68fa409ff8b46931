import ComponentLang.Endpoint
import ComponentLang.Proofs.Label.Marker
import ComponentLang.Query

/-!
# Texts in labelled blocks

Queries and endpoints are read alike: a line with a label finishes the block that is open and opens
another, and any other line is added to the block that is open.

* `label?_append_blank` : blanks at the end of a line make no difference to its label;
* `blocks` : the results of the blocks in lines, for blocks of any kind;
* `blocks_append` : nothing goes over from one block to the next;
* `blocks_flatMap` : what is written in blocks is read back, if each block is;
* `Query.parseLines_eq_blocks`, `Endpoint.parseLines_eq_blocks` : queries and endpoints are read so;
* `parse_labelled_append` : a text that begins with a label may be read on its own.
-/

namespace ComponentLang

open Text (isBlank isWord trimStart Blank)

/-! ## Blanks after a marker -/

theorem Text.after?_append_blank {lead tail : Text} (hlead : ∀ c ∈ lead, ¬ isBlank c)
    (htail : Blank tail) (t : Text) : after? lead (t ++ tail) = (after? lead t).map (· ++ tail) := by
  induction lead generalizing t with
  | nil => rfl
  | cons c lead ih =>
    rw [List.forall_mem_cons] at hlead
    cases t with
    | cons d t =>
      rw [List.cons_append, after?, after?, ih hlead.2]
      split_ifs <;> rfl
    | nil =>
      cases tail with
      | nil => rfl
      | cons d tail =>
        have hd : c ≠ d := fun hc => hlead.1 (hc ▸ htail d List.mem_cons_self)
        exact if_neg hd

/-- Blanks are no letters. -/
theorem Text.caseFold_of_isBlank {c : Char} (h : isBlank c) : caseFold c = c := by
  have hall : ∀ r ∈ blankRuns, ∀ n ∈ List.range' r.first (r.last + 1 - r.first),
      caseFold (Char.ofNat n) = Char.ofNat n := by decide
  obtain ⟨r, hr, hfirst, hlast⟩ := exists_run_of_covers h
  have hmem : c.toNat ∈ List.range' r.first (r.last + 1 - r.first) := by
    rw [List.mem_range'_1]
    omega
  have hfold := hall r hr c.toNat hmem
  rwa [Char.ofNat_toNat] at hfold

theorem Text.afterCaseless?_append_blank {lead tail : Text}
    (hlead : ∀ c ∈ lead, ¬ isBlank (caseFold c)) (htail : Blank tail) (t : Text) :
    afterCaseless? lead (t ++ tail) = (afterCaseless? lead t).map (· ++ tail) := by
  induction lead generalizing t with
  | nil => rfl
  | cons c lead ih =>
    rw [List.forall_mem_cons] at hlead
    cases t with
    | cons d t =>
      rw [List.cons_append, afterCaseless?, afterCaseless?, ih hlead.2]
      split_ifs <;> rfl
    | nil =>
      cases tail with
      | nil => rfl
      | cons d tail =>
        have hd := htail d List.mem_cons_self
        have hne : caseFold c ≠ caseFold d := fun hc =>
          hlead.1 (by rwa [hc, caseFold_of_isBlank hd])
        exact if_neg hne

/-- Blanks at the end stay if there is something before them. -/
theorem Text.trimStart_append_blank {tail : Text} (htail : Blank tail) (t : Text) :
    trimStart (t ++ tail) = if trimStart t = [] then [] else trimStart t ++ tail := by
  have hnil : trimStart tail = [] := List.dropWhile_eq_nil_iff.2 htail
  rw [trimStart] at hnil
  rw [trimStart, trimStart, List.dropWhile_append, hnil]
  simp only [List.isEmpty_iff]

theorem labelAt?_append_blank {tail : Text} (htail : Blank tail) (t : Text) :
    labelAt? (t ++ tail) = labelAt? t := by
  have hlabel : "label:".toList.any (fun c => isBlank (Text.caseFold c)) = false := rfl
  have hword : ∀ r, Text.afterCaseless? "label:".toList (trimStart (r ++ tail)) =
      (Text.afterCaseless? "label:".toList (trimStart r)).map (· ++ tail) := by
    intro r
    rw [Text.trimStart_append_blank htail]
    split_ifs with hr
    · rw [hr]
      rfl
    · exact Text.afterCaseless?_append_blank (List.any_eq_false.1 hlabel) htail _
  have hname : ∀ r, (trimStart (r ++ tail)).takeWhile isWord = (trimStart r).takeWhile isWord := by
    intro r
    rw [Text.trimStart_append_blank htail]
    split_ifs with hr
    · rw [hr]
    · cases htail' : tail with
      | nil => rw [List.append_nil]
      | cons c rest =>
        have hc : isBlank c := htail c (htail' ▸ List.mem_cons_self)
        exact Text.takeWhile_append_stop (Text.not_isWord_of_isBlank hc) _ _
  rw [labelAt?, labelAt?, Text.after?_append_blank (List.any_eq_false.1 rfl) htail, Option.bind_map]
  simp only [Function.comp_def, hword, Option.bind_assoc, Option.bind_map, hname]

theorem label?_append_blank {tail : Text} (htail : Blank tail) (t : Text) :
    label? (t ++ tail) = label? t := by
  induction t with
  | nil =>
    have hdash : '-' ∉ tail := fun hmem => absurd (htail _ hmem) (by decide)
    have h := label?_append hdash []
    rwa [List.append_nil] at h
  | cons c t ih =>
    rw [List.cons_append, label?, label?, ih, ← List.cons_append, labelAt?_append_blank htail]

theorem label?_dropReturns (l : Text) : label? (Text.dropReturns l) = label? l := by
  obtain ⟨tail, htail, hl⟩ := Text.exists_dropReturns l
  have h := label?_append_blank htail (Text.dropReturns l)
  rwa [← hl, eq_comm] at h

/-! ## Blocks -/

section

variable {δ ρ : Type} (start : Text → δ) (add : δ → Text → δ) (finish : δ → List ρ)

/-- The results of the blocks in lines, the first of which go on with an open block. A block starts
with its label, lines are added to it, and it is finished at the next label or at the end. -/
def blocks : Option δ → List Text → List ρ
  | d, [] => d.elim [] finish
  | d, l :: ls =>
    match label? l with
    | some name => d.elim [] finish ++ blocks (some (start name)) ls
    | none => blocks (d.map (add · l)) ls

variable {start add finish}

/-- **Nothing goes over from one block to the next.** -/
theorem blocks_append {m : Text} (h : label? m ≠ none) (d : Option δ) (ls ms : List Text) :
    blocks start add finish d (ls ++ m :: ms) =
      blocks start add finish d ls ++ blocks start add finish none (m :: ms) := by
  induction ls generalizing d with
  | nil =>
    obtain ⟨name, hname⟩ := Option.ne_none_iff_exists'.1 h
    rw [List.nil_append, blocks, blocks, blocks, hname]
    rfl
  | cons l ls ih =>
    rw [List.cons_append, blocks, blocks]
    cases label? l with
    | none => exact ih _
    | some name =>
      show _ ++ blocks start add finish (some (start name)) (ls ++ m :: ms) = _ ++ _ ++ _
      rw [ih, List.append_assoc]

/-- Lines without a label are added to the block that is open. -/
theorem blocks_some (d : δ) {ls : List Text} (h : ∀ l ∈ ls, label? l = none) (rest : List Text) :
    blocks start add finish (some d) (ls ++ rest) =
      blocks start add finish (some (ls.foldl add d)) rest := by
  induction ls generalizing d with
  | nil => rfl
  | cons l ls ih =>
    rw [List.forall_mem_cons] at h
    rw [List.cons_append, blocks, h.1]
    exact ih _ h.2

/-- **What is written in blocks is read back**, if each block begins with its label, has no other in it
and gives what it was written for. What was read before is finished first. -/
theorem blocks_flatMap {name : ρ → Text} {body : ρ → List Text} {xs : List ρ}
    (hname : ∀ x ∈ xs, name x ≠ [] ∧ ∀ c ∈ name x, isWord c)
    (hbody : ∀ x ∈ xs, ∀ l ∈ body x, label? l = none)
    (hfinish : ∀ x ∈ xs, finish ((body x).foldl add (start (name x))) = [x]) (d : Option δ) :
    blocks start add finish d (xs.flatMap fun x => labelLine (name x) :: body x) =
      d.elim [] finish ++ xs := by
  induction xs generalizing d with
  | nil => exact (List.append_nil _).symm
  | cons x xs ih =>
    rw [List.forall_mem_cons] at hname hbody hfinish
    rw [List.flatMap_cons, List.cons_append, blocks, label?_labelLine hname.1.1 hname.1.2]
    show d.elim [] finish ++ blocks start add finish (some (start (name x))) _ = _
    rw [blocks_some _ hbody.1, ih hname.2 hbody.2 hfinish.2, Option.elim, hfinish.1,
      List.singleton_append]

/-- A line at the end that makes no difference to a block. -/
theorem blocks_concat {l : Text} (hlabel : label? l = none) (hl : ∀ d, finish (add d l) = finish d)
    (d : Option δ) (ls : List Text) :
    blocks start add finish d (ls ++ [l]) = blocks start add finish d ls := by
  induction ls generalizing d with
  | nil =>
    rw [List.nil_append, blocks, blocks, hlabel]
    cases d with
    | none => rfl
    | some d => exact hl d
  | cons m ls ih =>
    rw [List.cons_append, blocks, blocks]
    cases label? m with
    | none => exact ih _
    | some name => exact congrArg _ (ih _)

end

theorem Query.finish_eq_elim (d : Option Draft) : finish d = d.elim [] fun d => d.finish?.toList := by
  cases d <;> rfl

theorem Query.parseLines_eq_blocks (d : Option Draft) (ls : List Text) :
    parseLines d ls = blocks (⟨·, none, []⟩) Draft.add (fun d => d.finish?.toList) d ls := by
  induction ls generalizing d with
  | nil => exact finish_eq_elim d
  | cons l ls ih =>
    rw [parseLines, blocks, ← finish_eq_elim]
    cases label? l with
    | none => exact ih _
    | some name => exact congrArg _ (ih _)

/-- Adds a line that has no label to an endpoint, unless it is blank. -/
def Endpoint.Draft.addLine (d : Draft) (l : Text) : Draft := if Text.trim l = [] then d else d.add l

theorem Endpoint.parseLines_eq_blocks (d : Option Draft) (ls : List Text) :
    parseLines d ls = blocks .start Draft.addLine (fun d => [d.finish]) d ls := by
  have hfinish : ∀ d : Option Draft, (d.map Draft.finish).toList = d.elim [] fun d => [d.finish] := by
    rintro (_ | d) <;> rfl
  induction ls generalizing d with
  | nil => exact hfinish d
  | cons l ls ih =>
    rw [parseLines, blocks, ← hfinish]
    cases label? l with
    | some name => exact congrArg _ (ih _)
    | none =>
      show (if Text.trim l = [] then _ else _) = _
      split_ifs with hblank
      · have hadd : d.map (·.addLine l) = d := by
          cases d with
          | none => rfl
          | some d => exact congrArg some (if_pos hblank)
        rw [ih, hadd]
      · have hadd : d.map (·.addLine l) = d.map (·.add l) := by
          cases d with
          | none => rfl
          | some d => exact congrArg some (if_neg hblank)
        rw [ih, hadd]

/-- **Labelled blocks are independent.** Whatever `a` is, a text `b` whose first line has a label gives
after it what it gives alone. -/
theorem parse_labelled_append (a : Text) {b l : Text} (hl : (Text.lines b).head? = some l)
    (hlabel : label? l ≠ none) :
    Query.parse (a ++ '\n' :: b) = Query.parse a ++ Query.parse b ∧
      Endpoint.parse (a ++ '\n' :: b) = Endpoint.parse a ++ Endpoint.parse b := by
  obtain ⟨ls, hls⟩ := List.head?_eq_some_iff.1 hl
  have hlabel' : label? (Text.dropReturns l) ≠ none := by rwa [label?_dropReturns]
  simp only [Query.parse, Endpoint.parse, Query.parseLines_eq_blocks, Endpoint.parseLines_eq_blocks,
    Text.lines_append, List.map_append, hls, List.map_cons]
  exact ⟨blocks_append hlabel' _ _ _, blocks_append hlabel' _ _ _⟩

/-- A text that ends in a route without a statement, in a section without lines. -/
def loose : Text := "GET /lost\n-- label: one\nSELECT 1\n-- label: two\n-- route: put /two\nbody:".toList

/-- A text whose first marker stands behind something else. -/
def patched : Text := "  1; --LABEL : x -- Label:\tthree\r\nPUT /three\n -- 3".toList

theorem parse_labelled_append_patched :
    (Text.lines patched).head? = some "  1; --LABEL : x -- Label:\tthree\r".toList ∧
      label? "  1; --LABEL : x -- Label:\tthree\r".toList ≠ none ∧
      Query.parse (loose ++ '\n' :: patched) =
        [⟨"one".toList, "SELECT 1".toList, none⟩,
          ⟨"two".toList, "body:".toList, some ⟨"PUT".toList, "/two".toList⟩⟩,
          ⟨"three".toList, "PUT /three\n -- 3".toList, none⟩] ∧
      (Endpoint.parse (loose ++ '\n' :: patched)).map (fun e => (e.label, e.method, e.path, e.body)) =
        [("one".toList, "GET".toList, "/".toList, none), ("two".toList, "GET".toList, "/".toList, none),
          ("three".toList, "PUT".toList, "/three".toList, none)] := by
  have hfirst : (Text.lines patched).head? = some "  1; --LABEL : x -- Label:\tthree\r".toList := by
    decide +kernel
  have hlabel : label? "  1; --LABEL : x -- Label:\tthree\r".toList ≠ none := by decide +kernel
  obtain ⟨hquery, hendpoint⟩ := parse_labelled_append loose hfirst hlabel
  refine ⟨hfirst, hlabel, ?_, ?_⟩
  · rw [hquery]
    decide +kernel
  · rw [hendpoint]
    decide +kernel

end ComponentLang
