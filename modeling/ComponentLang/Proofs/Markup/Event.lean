import ComponentLang.Markup.Event
import ComponentLang.Proofs.Nesting.Balance
import ComponentLang.Proofs.Text.Word
import Mathlib.Data.List.TakeWhile

/-!
# Event bindings and brackets

* `IsCall name inside t` : `t` is the name of an event and a text in brackets;
* `eventCall?_eq_some_iff` : these are the texts that are taken for calls;
* `IsCall.balanced_inside_iff` : the text in the brackets of a balanced call is balanced unless it closes
  the first of them;
* `balanced_handler_iff` : every binding gives a handler, and that of a balanced binding is balanced with
  the same exception.
-/

namespace ComponentLang

open Nesting
open Text (Blank Trimmed trim trimStart isBlank)

/-! ## Calls -/

/-- The text is a name, brackets after it, possibly after blanks, and `inside` between them, which stands
on one line. -/
structure IsCall (name inside t : Text) : Prop where
  ne_nil : name ≠ []
  chars : ∀ c ∈ name, isEventChar c
  line : '\n' ∉ inside
  eq_append : ∃ b, Blank b ∧ t = name ++ (b ++ '(' :: (inside ++ [')']))

theorem toNat_of_isEventChar {c : Char} (h : isEventChar c) : c.toNat < 123 := by
  rw [isEventChar, Bool.or_eq_true, Bool.or_eq_true, decide_eq_true_eq, decide_eq_true_eq] at h
  rcases h with (hlatin | rfl) | rfl
  · exact Text.toNat_of_isLatinLetter_or_digit hlatin
  · decide
  · decide

/-- The characters of names are neither blanks nor brackets nor quotes. -/
theorem isPlain_of_isEventChar {c : Char} (h : isEventChar c) : isPlain c ∧ ¬ isBlank c := by
  have hall : ∀ n < 123, isEventChar (Char.ofNat n) →
      isPlain (Char.ofNat n) ∧ ¬ isBlank (Char.ofNat n) := by decide
  exact Text.forall_char_lt (p := fun c => isEventChar c → isPlain c ∧ ¬ isBlank c) hall
    (toNat_of_isEventChar h) h

/-- The name of an event ends before blanks and a bracket. -/
theorem cut_name {name b : Text} (hname : ∀ c ∈ name, isEventChar c) (hb : Blank b) (x : Text) :
    (name ++ (b ++ '(' :: x)).takeWhile isEventChar = name ∧
      (name ++ (b ++ '(' :: x)).dropWhile isEventChar = b ++ '(' :: x := by
  have hstop : ∃ d rest, b ++ '(' :: x = d :: rest ∧ isEventChar d = false := by
    cases b with
    | nil => exact ⟨'(', x, rfl, rfl⟩
    | cons e b =>
      have he : isBlank e := hb e List.mem_cons_self
      exact ⟨e, _, rfl, Bool.eq_false_iff.2 fun hchar => (isPlain_of_isEventChar hchar).2 he⟩
  obtain ⟨d, rest, heq, hd⟩ := hstop
  rw [heq, Text.takeWhile_append_stop hd, Text.dropWhile_append_stop hd]
  exact ⟨List.takeWhile_eq_self_iff.2 hname, by rw [List.dropWhile_eq_nil_iff.2 hname, List.nil_append]⟩

theorem eventCall?_of_isCall {name inside t : Text} (h : IsCall name inside t) :
    eventCall? t = some (name, inside) := by
  obtain ⟨b, hb, rfl⟩ := h.eq_append
  obtain ⟨htake, hdrop⟩ := cut_name h.chars hb (inside ++ [')'])
  have htrim : trimStart (b ++ '(' :: (inside ++ [')'])) = '(' :: (inside ++ [')']) := by
    rw [Text.trimStart_append hb]
    exact Text.trimStart_of_head (by simp; decide)
  obtain ⟨c, name, rfl⟩ := List.exists_cons_of_ne_nil h.ne_nil
  have hline : Text.onOneLine inside = true := by
    simp only [Text.onOneLine, List.all_eq_true, decide_eq_true_eq]
    exact fun d hd hnl => h.line (hnl ▸ hd)
  rw [eventCall?, htake, hdrop, htrim]
  simp [Text.endsWith, hline]

theorem isCall_of_eventCall? {name inside t : Text} (h : eventCall? t = some (name, inside)) :
    IsCall name inside t := by
  rw [eventCall?] at h
  split at h
  · next c name' r hname hrest =>
    split_ifs at h with hlast
    cases h
    rw [Bool.and_eq_true, Text.endsWith, decide_eq_true_eq] at hlast
    obtain ⟨inside, rfl⟩ := List.getLast?_eq_some_iff.1 hlast.1
    rw [List.dropLast_concat] at hlast ⊢
    obtain ⟨b, hb, hdrop⟩ := Text.exists_trimStart (t.dropWhile isEventChar)
    refine ⟨List.cons_ne_nil _ _, ?_, ?_, b, hb, ?_⟩
    · rw [← hname]
      exact fun d hd => List.mem_takeWhile_imp hd
    · intro hmem
      have hline := List.all_eq_true.1 hlast.2 _ hmem
      simp at hline
    · rw [← hname, ← hrest, ← hdrop, List.takeWhile_append_dropWhile]
  · cases h

theorem eventCall?_eq_some_iff {name inside t : Text} :
    eventCall? t = some (name, inside) ↔ IsCall name inside t :=
  ⟨isCall_of_eventCall?, eventCall?_of_isCall⟩

theorem parseEvent_of_isCall {name inside side : Text} (h : IsCall name inside (trim side)) :
    parseEvent side =
      if trim inside = [] then (clickKey, handlerMark ++ (name ++ "()".toList))
      else (eventKey name, handlerMark ++ trim inside) := by
  rw [parseEvent, eventCall?_of_isCall h]
  cases htrim : trim inside with
  | nil => simp [htrim]
  | cons d handler => simp [htrim]

theorem parseEvent_of_not_call {side : Text} (h : eventCall? (trim side) = none) :
    parseEvent side = (clickKey, handlerMark ++
      if isHandlerName (trim side) then trim side ++ "()".toList else trim side) := by
  rw [parseEvent, h]
  by_cases hname : isHandlerName (trim side) <;> simp [hname]

/-! ## Balance -/

theorem IsCall.balanced_name {name inside t : Text} (h : IsCall name inside t) : Balanced name :=
  balanced_of_isPlain fun c hc => (isPlain_of_isEventChar (h.chars c hc)).1

/-- What stands between the brackets of a balanced call is balanced, unless it closes the first of
them. -/
theorem IsCall.balanced_inside_iff {name inside t : Text} (h : IsCall name inside t)
    (ht : Balanced t) : Balanced inside ↔ ¬ Overcloses inside := by
  obtain ⟨b, hb, rfl⟩ := h.eq_append
  have hbracketed := (balanced_blank hb).of_append (h.balanced_name.of_append ht)
  constructor
  · intro hinside ho
    exact ho.not_balanced hinside
  · exact balanced_of_bracketed hbracketed

theorem handlerCall?_mark (t : Text) : handlerCall? (handlerMark ++ t) = some t :=
  Text.after?_eq_some_iff.2 rfl

theorem balanced_call {name : Text} (h : Balanced name) : Balanced (name ++ "()".toList) :=
  h.append (by decide)

/-- **Every binding gives a handler. That of a balanced binding is balanced, unless the binding is a call
and what follows its first bracket closes this bracket before the end.** -/
theorem balanced_handler_iff {side : Text} (h : Balanced side) :
    ∃ handler, handlerCall? (parseEvent side).2 = some handler ∧
      (Balanced handler ↔
        ¬ ∃ name inside, IsCall name inside (trim side) ∧ Overcloses inside) := by
  have hside : Balanced (trim side) := balanced_trim.2 h
  cases hcall : eventCall? (trim side) with
  | none =>
    have hnone : ¬ ∃ name inside, IsCall name inside (trim side) ∧ Overcloses inside := by
      rintro ⟨name, inside, hc, _⟩
      rw [eventCall?_of_isCall hc] at hcall
      cases hcall
    rw [parseEvent_of_not_call hcall]
    refine ⟨_, handlerCall?_mark _, iff_of_true ?_ hnone⟩
    split_ifs
    · exact balanced_call hside
    · exact hside
  | some call =>
    obtain ⟨name, inside⟩ := call
    have hc := isCall_of_eventCall? hcall
    have honly : (∃ name inside, IsCall name inside (trim side) ∧ Overcloses inside) ↔
        Overcloses inside := by
      constructor
      · rintro ⟨name', inside', hc', ho⟩
        rw [eventCall?_of_isCall hc'] at hcall
        cases hcall
        exact ho
      · intro ho
        exact ⟨name, inside, hc, ho⟩
    rw [parseEvent_of_isCall hc, honly, ← hc.balanced_inside_iff hside]
    split_ifs with hempty
    · have hinside : Balanced inside := balanced_blank (Text.trim_eq_nil.1 hempty)
      exact ⟨_, handlerCall?_mark _, iff_of_true (balanced_call hc.balanced_name) hinside⟩
    · exact ⟨_, handlerCall?_mark _, balanced_trim⟩

/-- A bracket in quotes closes nothing, so the handler of this call is balanced. -/
theorem balanced_handler_iff_log :
    Balanced " keydown.enter (log(')', [a]))".toList ∧
      handlerCall? (parseEvent " keydown.enter (log(')', [a]))".toList).2 =
        some "log(')', [a])".toList ∧
      Balanced "log(')', [a])".toList ∧
      ¬ ∃ name inside,
        IsCall name inside (trim " keydown.enter (log(')', [a]))".toList) ∧ Overcloses inside := by
  have hside : Balanced " keydown.enter (log(')', [a]))".toList := by decide
  have hlog : handlerCall? (parseEvent " keydown.enter (log(')', [a]))".toList).2 =
      some "log(')', [a])".toList := by decide
  have hbalanced : Balanced "log(')', [a])".toList := by decide
  obtain ⟨handler, hhandler, hiff⟩ := balanced_handler_iff hside
  have heq : handler = "log(')', [a])".toList := Option.some.inj (hhandler.symm.trans hlog)
  rw [heq] at hiff
  exact ⟨hside, hlog, hbalanced, hiff.1 hbalanced⟩

/-- A choice between two calls begins and ends like one call. -/
theorem not_balanced_handler_choice :
    Balanced "save(a) || log(b)".toList ∧
      handlerCall? (parseEvent "save(a) || log(b)".toList).2 = some "a) || log(b".toList ∧
      ¬ Balanced "a) || log(b".toList := by
  decide

end ComponentLang
