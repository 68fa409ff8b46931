import ComponentLang.Text.Basic

/-!
# Line comments

A comment runs from two slashes outside strings to the end of the line. A quote that is never
closed, like the apostrophe of a short form, opens no string.

* `Comment.sweep` : one reading of a line, which ends at a comment, at the end of the line, or with
  a string still open;
* `Comment.strip` : the line without its comment. If a string stays open, the reading starts again
  right after its quote;
* `sweep_unclosed` : that place is in the line, and beyond its start.
-/

namespace ComponentLang.Comment

/-- The marks that open a string. -/
def isMark (c : Char) : Bool := c = '\x22' || c = '\x27'

/-- Where a reading stands: in code, in a string, or in a string right after a backslash. -/
inductive Place where
  | code
  | string (mark : Char)
  | escape (mark : Char)

/-- How a reading ends. -/
inductive Sweep where
  /-- There is no comment. -/
  | clean
  /-- A comment follows the part `before`. -/
  | comment (before : Text)
  /-- The string open at the start of the reading is never closed. -/
  | dangling
  /-- The quote at the end of `before` opens a string that is never closed. -/
  | unclosed (before after : Text)

/-- Takes one more character before what was read. -/
def Sweep.grow (c : Char) : Sweep → Sweep
  | .clean => .clean
  | .comment before => .comment (c :: before)
  | .dangling => .dangling
  | .unclosed before after => .unclosed (c :: before) after

/-- Two slashes stand here. -/
def starts (t : Text) : Bool := Text.startsWith ['/', '/'] t

/-- Reads the line from a given place on. -/
def sweep : Place → Text → Sweep
  | .code, [] => .clean
  | .code, c :: r =>
    if isMark c then
      match sweep (.string c) r with
      | .dangling => .unclosed [c] r
      | found => found.grow c
    else if starts (c :: r) then .comment []
    else (sweep .code r).grow c
  | .string _, [] => .dangling
  | .string q, c :: r =>
    if c = '\\' then (sweep (.escape q) r).grow c
    else if c = q then (sweep .code r).grow c
    else (sweep (.string q) r).grow c
  | .escape _, [] => .dangling
  | .escape q, c :: r => (sweep (.string q) r).grow c

theorem grow_eq_unclosed {c : Char} {s : Sweep} {b a : Text} (h : s.grow c = .unclosed b a) :
    ∃ b', b = c :: b' ∧ s = .unclosed b' a := by
  cases s <;> simp_all [Sweep.grow]

theorem sweep_unclosed {p : Place} {t b a : Text} (h : sweep p t = .unclosed b a) :
    t = b ++ a ∧ b ≠ [] := by
  fun_induction sweep p t generalizing b with
  | case1 => simp at h
  | case2 c r _ _ =>
    injection h with hb ha
    simp [← hb, ha]
  | case3 c r _ _ ih =>
    obtain ⟨b', rfl, h'⟩ := grow_eq_unclosed h
    simp [(ih h').1]
  | case4 => simp at h
  | case5 c r _ _ ih =>
    obtain ⟨b', rfl, h'⟩ := grow_eq_unclosed h
    simp [(ih h').1]
  | case6 => simp at h
  | case7 q r ih =>
    obtain ⟨b', rfl, h'⟩ := grow_eq_unclosed h
    simp [(ih h').1]
  | case8 c r _ ih =>
    obtain ⟨b', rfl, h'⟩ := grow_eq_unclosed h
    simp [(ih h').1]
  | case9 q c r _ _ ih =>
    obtain ⟨b', rfl, h'⟩ := grow_eq_unclosed h
    simp [(ih h').1]
  | case10 => simp at h
  | case11 q c r ih =>
    obtain ⟨b', rfl, h'⟩ := grow_eq_unclosed h
    simp [(ih h').1]

/-- The line without its comment. -/
def strip (t : Text) : Text :=
  match _h : sweep .code t with
  | .comment before => before
  | .unclosed before after => before ++ strip after
  | _ => t
termination_by t.length
decreasing_by
  obtain ⟨ht, hb⟩ := sweep_unclosed _h
  have := List.length_pos_iff.2 hb
  rw [ht, List.length_append]
  omega

end ComponentLang.Comment
