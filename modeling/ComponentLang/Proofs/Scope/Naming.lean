import ComponentLang.Proofs.Scope.Enclosing
import ComponentLang.Proofs.Scope.Resume

/-!
# Which tokens name the component

* `Scope.Layered` : inside of logic and heads, only such blocks are open. Every run keeps this, so the
  innermost block tells whether a line is kept as it is (`Layered.outside_iff`);
* `nameAt?` : the name that a token gives to the component, told by the blocks around it;
* `names_start` : these are the names along a run;
* `declaresName`, `getLast_names` : some token gives a name, and the last one that does prevails.
-/

namespace ComponentLang

namespace Scope

/-- What is open inside of logic or a head keeps its lines as they are, too. -/
def Layered (s : Scope) : Prop :=
  s.outline.Pairwise fun inner outer => outer.block.isVerbatim → inner.block.isVerbatim

section

variable {s s' : Scope} {t : Token}

theorem layered_start : start.Layered := List.Pairwise.nil

theorem Layered.closeTo (h : s.Layered) (d : Int) : (s.closeTo d).Layered := by
  unfold Layered
  rw [outline_closeTo]
  exact List.Pairwise.sublist (List.dropWhile_sublist _) h

/-- The innermost block tells if any block keeps its lines. -/
theorem Layered.outside_iff (h : s.Layered) : s.Outside ↔ ¬ s.top?.any Block.isVerbatim := by
  rcases s with ⟨m, _ | ⟨f, rest⟩⟩
  · simp [Outside, top?]
  · have hrest : ∀ f' ∈ rest, f'.block.isVerbatim → f.block.isVerbatim := by
      intro f' hf' hverbatim
      have hbare := (List.pairwise_cons.1 h).1 f'.bare (List.mem_map_of_mem hf')
      rw [Frame.bare, Frame.bare, Block.isVerbatim_bare, Block.isVerbatim_bare] at hbare
      exact hbare hverbatim
    simp only [Outside, top?, List.forall_mem_cons, List.head?_cons, Option.map_some, Option.any_some,
      Bool.not_eq_true]
    -- a block further out that keeps its lines would make the innermost one keep them
    refine ⟨And.left, fun hf => ⟨hf, fun f' hf' => ?_⟩⟩
    rw [← Bool.not_eq_true] at hf ⊢
    exact fun hverbatim => hf (hrest f' hf' hverbatim)

/-- One more block, which keeps its lines or has none around it that does. -/
theorem Layered.push (h : s.Layered) {f : Frame} (hs' : s'.outline = f :: s.outline)
    (hf : s.Outside ∨ f.block.isVerbatim) : s'.Layered := by
  unfold Layered
  rw [hs', List.pairwise_cons]
  refine ⟨fun outer houter hverbatim => ?_, h⟩
  rcases hf with hout | hf
  · have hplain := (Scope.outside_iff s).1 hout outer houter
    rw [hplain] at hverbatim
    cases hverbatim
  · exact hf

theorem Layered.logicLine (h : s.Layered) (t : Token) : (s.logicLine t).Layered := by
  unfold Scope.logicLine
  split_ifs
  · exact h.push (by rw [outline_push, outline_appendItem]) (.inr rfl)
  · unfold Layered
    rwa [outline_appendItem]
  · unfold Layered
    rwa [outline_appendItem]

theorem Layered.dispatch (h : s.Layered) (hs' : s.dispatch t = .ok s') : s'.Layered := by
  by_cases hout : s.Outside
  · rcases dispatch_extends hs' with heq | ⟨block, heq⟩
    · unfold Layered
      rwa [heq]
    · exact h.push heq (.inl hout)
  · -- the innermost block is logic or a head, which opens logic or nothing
    rw [h.outside_iff, not_not] at hout
    unfold Scope.dispatch at hs'
    cases htop : s.top? with
    | none =>
      rw [htop] at hout
      cases hout
    | some block =>
      rw [htop] at hout hs'
      cases block with
      | mount | logic =>
        cases hs'
        exact h.logicLine t
      | head =>
        cases hs'
        unfold Layered
        rwa [outline_headLine]
      | _ => cases hout

theorem Layered.step (h : s.Layered) (t : Token) : (s.step t).1.Layered := by
  have hclosed := h.closeTo t.depth
  rw [step_eq_orKeep]
  cases hline : (s.closeTo t.depth).dispatch t with
  | ok s' => exact hclosed.dispatch hline
  | error reason => exact hclosed

theorem Layered.run (h : s.Layered) (ts : List Token) : (s.run ts).Layered := by
  induction ts generalizing s with
  | nil => exact h
  | cons t ts ih => exact ih (h.step t)

theorem Layered.givenName?_eq (h : s.Layered) (t : Token) :
    s.givenName? t = if s.Outside then t.declaredName? else none := by
  unfold givenName?
  by_cases hout : s.Outside
  · rw [if_pos hout, if_neg (h.outside_iff.1 hout)]
  · rw [if_neg hout, if_pos (not_not.1 (mt h.outside_iff.2 hout))]

theorem names_append (s : Scope) (ts us : List Token) :
    s.names (ts ++ us) = s.names ts ++ (s.run ts).names us := by
  induction ts generalizing s with
  | nil => rfl
  | cons t ts ih => rw [List.cons_append, names, names, ih, List.append_assoc, run]

end

end Scope

/-! ## Positions -/

/-- The name that the token at `i` gives to the component: it declares one well, outside of logic and
heads. -/
def nameAt? (ts : List Token) (i : Nat) : Option Text :=
  ts[i]?.bind fun t => if (Scope.around ts i).Outside then t.declaredName? else none

/-- Some token gives the component a name. -/
def declaresName (ts : List Token) : Bool := (List.range ts.length).any fun i => (nameAt? ts i).isSome

theorem names_start (ts : List Token) :
    Scope.start.names ts = (List.range ts.length).filterMap (nameAt? ts) := by
  have htake : ∀ k ≤ ts.length,
      Scope.start.names (ts.take k) = (List.range k).filterMap (nameAt? ts) := by
    intro k
    induction k with
    | zero => exact fun _ => rfl
    | succ k ih =>
      intro hk
      have ht : ts[k]? = some ts[k] := List.getElem?_eq_getElem (by omega)
      have hlayered : (Scope.around ts k).Layered :=
        (Scope.layered_start.run (ts.take k)).closeTo _
      have hname : ((Scope.before ts k).closeTo ts[k].depth).givenName? ts[k] = nameAt? ts k := by
        rw [← Scope.around_eq ht, hlayered.givenName?_eq, nameAt?, ht]
        rfl
      rw [List.take_add_one, ht, Option.toList, Scope.names_append, ih (by omega), filterMap_range_succ,
        ← hname]
      exact congrArg (_ ++ ·) (List.append_nil _)
  have hall := htake ts.length le_rfl
  rwa [List.take_length] at hall

/-- The name is that of the last token that gives one. -/
theorem getLast_names (ts : List Token) (c : Companions) (n : Text) :
    (Scope.start.names ts).getLast?.getD n =
      if declaresName ts then (buildManifest ts c).name else n := by
  have hname : (buildManifest ts c).name =
      (Scope.start.names ts).getLast?.getD Manifest.empty.name :=
    (Scope.name_closeTo (-1) _).trans (Scope.name_run ts)
  rw [hname]
  split_ifs with hdeclares
  · obtain ⟨i, hi, hsome⟩ := List.any_eq_true.1 hdeclares
    obtain ⟨name, hname⟩ := Option.isSome_iff_exists.1 hsome
    have hmem : name ∈ Scope.start.names ts := by
      rw [names_start]
      exact List.mem_filterMap.2 ⟨i, hi, hname⟩
    rw [List.getLast?_eq_some_getLast (List.ne_nil_of_mem hmem)]
    rfl
  · have hnil : Scope.start.names ts = [] := by
      rw [names_start, List.filterMap_eq_nil_iff]
      intro i hi
      rw [← Option.not_isSome_iff_eq_none]
      exact fun hsome => hdeclares (List.any_eq_true.2 ⟨i, hi, hsome⟩)
    rw [hnil]
    rfl

end ComponentLang
