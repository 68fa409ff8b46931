import ComponentLang.Proofs.Reflow.Code

/-!
# A line and its new layout

* `Layout lead text gap comment tail` : a line of code and its comment, with blanks before, between
  and after them. The comment may be missing;
* `exists_layout` : every line with code on it is of this form;
* `readLine?_of_layout` : and a line of this form holds that code and that comment;
* `Layout.respace` : it stays of this form if its arrows are spaced and its blanks are redone;
* `readLine?_lineText` : so the new line holds the new code and the old comment;
* `readLine?_of_blank`, `readLine?_comment` : a blank line holds no code, and a line that is only a
  comment stays one.
-/

namespace ComponentLang.Reflow

open Text (Blank Trimmed trim isBlank trimmed_append)
open Comment (Place pass starts strip closes)

/-- A line of code and its comment. Unless the comment is missing, the reading of the line stands in
code before it. -/
structure Layout (lead text gap comment tail : Text) : Prop where
  lead_blank : Blank lead
  text_trimmed : Trimmed text
  text_ne_nil : text ≠ []
  text_head : text.head? ≠ some '#'
  gap_blank : Blank gap
  comment_trimmed : Trimmed comment
  comment_starts : comment = [] ∨ starts comment
  tail_blank : Blank tail
  passes : ∃ p, pass (gap ++ (comment ++ tail)) .code (lead ++ text) = some p ∧
    (comment ≠ [] → p = .code)

namespace Layout

variable {lead text gap comment tail : Text}

/-- The line without the blanks at its ends. -/
theorem trim_line (h : Layout lead text gap comment tail) :
    trim (lead ++ (text ++ (gap ++ (comment ++ tail)))) =
      if comment = [] then text else text ++ (gap ++ comment) := by
  split_ifs with hc
  · subst hc
    exact Text.trim_eq h.lead_blank h.text_trimmed (h.gap_blank.append h.tail_blank)
  · have hall := Text.trim_eq h.lead_blank
      (trimmed_append h.text_trimmed h.text_ne_nil gap h.comment_trimmed hc) h.tail_blank
    simpa only [List.append_assoc] using hall

theorem commentText_eq (h : Layout lead text gap comment tail) (width : Nat) :
    commentText ⟨width, text, lead ++ (text ++ (gap ++ (comment ++ tail)))⟩ = comment := by
  rw [commentText, h.trim_line]
  split_ifs with hc
  · rw [List.drop_length, hc]
    rfl
  · rw [List.drop_left]
    have hpad := Text.trim_eq h.gap_blank h.comment_trimmed Text.blank_nil
    rwa [List.append_nil] at hpad

theorem trimmed_line (h : Layout lead text gap comment tail) (hgap : comment = [] → gap = []) :
    Trimmed (text ++ (gap ++ comment)) := by
  by_cases hc : comment = []
  · rw [hgap hc, hc, List.append_nil, List.append_nil]
    exact h.text_trimmed
  · exact trimmed_append h.text_trimmed h.text_ne_nil gap h.comment_trimmed hc

/-- The code of such a line is what stands before the comment. -/
theorem trim_strip (h : Layout lead text gap comment []) :
    trim (strip (lead ++ (text ++ (gap ++ comment)))) = text := by
  obtain ⟨p, hpass, hcode⟩ := h.passes
  rw [List.append_nil] at hpass
  rw [Comment.strip_eq_read, ← List.append_assoc, Comment.read_append hpass, List.append_assoc]
  by_cases hc : comment = []
  · obtain ⟨z, hz, _⟩ := Comment.exists_read p (gap ++ comment)
    have hblank : Blank (Comment.read p (gap ++ comment)) := by
      intro c hmem
      have hall : c ∈ gap ++ comment := by
        rw [hz]
        exact List.mem_append_left _ hmem
      rw [hc, List.append_nil] at hall
      exact h.gap_blank c hall
    exact Text.trim_eq h.lead_blank h.text_trimmed hblank
  · rw [hcode hc, Comment.read_code_comment (Comment.neutral_of_blank h.gap_blank)
      (h.comment_starts.resolve_left hc)]
    exact Text.trim_eq h.lead_blank h.text_trimmed h.gap_blank

/-- A line of this form, without blanks at its end, holds its code. -/
theorem readLine?_eq (h : Layout lead text gap comment []) (hgap : comment = [] → gap = []) :
    readLine? (lead ++ (text ++ (gap ++ comment))) =
      some ⟨lead.length, text, lead ++ (text ++ (gap ++ comment))⟩ := by
  have hcore := h.trimmed_line hgap
  have hne : text ++ (gap ++ comment) ≠ [] := by simp [h.text_ne_nil]
  have htrim := Text.trim_eq h.lead_blank hcore Text.blank_nil
  rw [List.append_nil] at htrim
  have hhash : Text.startsWith ['#'] (text ++ (gap ++ comment)) = false := by
    rw [Bool.eq_false_iff, Ne, Text.startsWith_iff]
    rintro ⟨r, hr⟩
    obtain ⟨d, rest, rfl⟩ := List.exists_cons_of_ne_nil h.text_ne_nil
    exact h.text_head (congrArg some (List.cons.inj hr).1.symm)
  rw [readLine?, Text.dropReturns_of_trimmed hcore hne, h.trim_strip, htrim, hhash,
    Text.indentWidth_append h.lead_blank hcore.1]
  simp [h.text_ne_nil]

end Layout

theorem trimmed_slashes : Trimmed ['/', '/'] := by
  constructor
  all_goals
    rintro c ⟨⟩
    decide

/-- A comment without the blanks at its end is a comment. -/
theorem trimEnd_comment {z : Text} (hz : z = [] ∨ starts z) :
    Trimmed (Text.trimEnd z) ∧ (Text.trimEnd z = [] ∨ starts (Text.trimEnd z)) := by
  rcases hz with rfl | hz
  · exact ⟨Text.trimmed_nil, Or.inl rfl⟩
  · obtain ⟨w, rfl⟩ := Comment.exists_slashes hz
    have hslashes : Text.trimEnd ('/' :: '/' :: w) = '/' :: '/' :: Text.trimEnd w :=
      Text.trimEnd_append_visible trimmed_slashes.2 w
    refine ⟨⟨?_, Text.getLast?_trimEnd _⟩, Or.inr ?_⟩
    · rw [hslashes]
      rintro c ⟨⟩
      decide
    · rw [hslashes]
      exact Comment.starts_slashes _

/-- A line is made up of its code, and of a comment if anything. -/
theorem layout_of_strip {raw : Text} (hhash : ¬ Text.startsWith ['#'] (trim raw))
    (htext : trim (strip raw) ≠ []) :
    ∃ lead gap comment tail, Layout lead (trim (strip raw)) gap comment tail ∧
      raw = lead ++ (trim (strip raw) ++ (gap ++ (comment ++ tail))) := by
  obtain ⟨z, hz, hstarts⟩ := Comment.exists_read .code raw
  obtain ⟨lead, gap, hlead, hgap, hpad⟩ := Text.exists_pad (strip raw)
  obtain ⟨tail, htail, hend⟩ := Text.exists_trimEnd z
  rw [← Comment.strip_eq_read] at hz
  have htrimmed := Text.trimmed_trim (strip raw)
  generalize trim (strip raw) = text at *
  have hraw : raw = (lead ++ text) ++ (gap ++ z) := by
    rw [hz, hpad]
    simp only [List.append_assoc]
  have hread : Comment.read .code ((lead ++ text) ++ (gap ++ z)) = (lead ++ text) ++ gap := by
    rw [← hraw, ← Comment.strip_eq_read, hpad, List.append_assoc]
  have hhead : text.head? ≠ some '#' := by
    intro hh
    obtain ⟨rest, hrest⟩ := List.head?_eq_some_iff.1 hh
    refine hhash (Text.startsWith_iff.2 ?_)
    rw [hraw, List.append_assoc, Text.trim_append hlead htrimmed htext, hrest]
    exact ⟨rest ++ Text.trimEnd (gap ++ z), rfl⟩
  obtain ⟨p, hpass⟩ : ∃ p, pass (gap ++ z) .code (lead ++ text) = some p := by
    apply Comment.exists_pass
    rw [hread]
    exact (List.prefix_append _ gap).length_le
  have hcode : Text.trimEnd z ≠ [] → p = .code := by
    intro hne
    have hgapread := Comment.read_append hpass
    rw [hread] at hgapread
    refine Comment.eq_code_of_read (Place.Marked.pass (p := .code) trivial hpass)
      (Comment.neutral_of_blank hgap) ?_ (List.append_cancel_left hgapread).symm
    rintro rfl
    exact hne rfl
  rw [hend] at hpass
  refine ⟨lead, gap, Text.trimEnd z, tail, ⟨hlead, htrimmed, htext, hhead, hgap,
    (trimEnd_comment hstarts).1, (trimEnd_comment hstarts).2, htail, p, hpass, hcode⟩, ?_⟩
  rw [← hend, ← List.append_assoc, ← hraw]

/-- Every line that holds code is of this form. -/
theorem exists_layout {line : Text} {c : Content} (h : readLine? line = some c) :
    ∃ lead gap tail, Layout lead c.text gap (commentText c) tail := by
  unfold readLine? at h
  dsimp only at h
  split_ifs at h with hnone
  rw [Bool.or_eq_true_iff, not_or, decide_eq_true_eq] at hnone
  cases h
  obtain ⟨lead, gap, comment, tail, hlayout, hraw⟩ := layout_of_strip hnone.1 hnone.2
  have hcomment := hlayout.commentText_eq (Text.indentWidth (Text.dropReturns line))
  rw [← hraw] at hcomment
  exact ⟨lead, gap, tail, by rw [hcomment]; exact hlayout⟩

/-- The code of a line stands at its beginning. -/
theorem isPrefix_text {line : Text} {c : Content} (h : readLine? line = some c) :
    c.text <+: trim line := by
  unfold readLine? at h
  dsimp only at h
  split_ifs at h with hnone
  rw [Bool.or_eq_true_iff, not_or, decide_eq_true_eq] at hnone
  cases h
  obtain ⟨lead, gap, comment, tail, hlayout, hraw⟩ := layout_of_strip hnone.1 hnone.2
  have htrim := hlayout.trim_line
  rw [← hraw, Text.trim_dropReturns] at htrim
  rw [htrim]
  split_ifs
  · exact List.prefix_rfl
  · exact List.prefix_append _ _

/-- What a line holds are characters of the line. -/
theorem readLine?_subset {line : Text} {c : Content} (h : readLine? line = some c) :
    c.text ⊆ line ∧ c.raw ⊆ line := by
  unfold readLine? at h
  dsimp only at h
  split_ifs at h
  cases h
  have hraw := Text.dropReturns_subset line
  refine ⟨fun d hd => hraw ?_, hraw⟩
  obtain ⟨z, hz, _⟩ := Comment.exists_read .code (Text.dropReturns line)
  rw [hz, ← Comment.strip_eq_read]
  exact List.mem_append_left _ (Text.trim_subset _ hd)

/-! ## The new line -/

/-- The blank before the comment of a new line. -/
def newGap (comment : Text) : Text := if comment = [] then [] else [' ']

/-- Blanks around a comment do not matter for the strings before it. -/
theorem closes_comment {q : Char} (hq : Comment.isMark q) {gap comment tail : Text}
    (hgap : Blank gap) (hcomment : comment = [] ∨ starts comment) (htail : Blank tail)
    (escaped : Bool) :
    closes q escaped (gap ++ (comment ++ tail)) = closes q escaped (newGap comment ++ comment) := by
  rw [← List.append_assoc, Comment.closes_append_neutral hq (Comment.neutral_of_blank htail), newGap]
  split_ifs with hc
  · rw [hc, List.append_nil]
    exact Comment.closes_append_neutral hq (Comment.neutral_of_blank hgap) escaped []
  · obtain ⟨w, rfl⟩ := Comment.exists_slashes (hcomment.resolve_left hc)
    -- up to its first slash, nothing closes a string
    have hslash : ∀ b, Blank b →
        closes q escaped (b ++ '/' :: '/' :: w) = closes q false ('/' :: w) := by
      intro b hb
      have hquiet : ∀ c ∈ b ++ ['/'], ¬ Comment.isMark c ∧ c ≠ '\\' := by
        intro c hc
        rcases List.mem_append.1 hc with hc | hc
        · exact (Comment.neutral_of_blank hb).quiet c hc
        · rw [List.mem_singleton.1 hc]
          decide
      have hclose := Comment.closes_quiet hq hquiet (by simp) escaped ('/' :: w)
      rwa [List.append_assoc] at hclose
    rw [hslash gap hgap, hslash [' '] (Text.blank_replicate 1)]

/-- The form of a line is kept if its arrows are spaced and its blanks are redone. -/
theorem Layout.respace {lead text gap comment tail lead' : Text}
    (h : Layout lead text gap comment tail) (hlead : Blank lead') :
    Layout lead' (codeText text) (newGap comment) comment [] := by
  have hhead := head?_codeText h.text_trimmed
  have hne : codeText text ≠ [] := by
    intro hnil
    rw [hnil] at hhead
    exact h.text_ne_nil (List.head?_eq_none_iff.1 hhead.symm)
  have hgap : Blank (newGap comment) := by
    rw [newGap]
    split_ifs
    · exact Text.blank_nil
    · exact Text.blank_replicate 1
  have hfirst : (newGap comment ++ comment).head? ≠ some '/' := by
    rw [newGap]
    split_ifs with hc
    · simp [hc]
    · simp
  obtain ⟨p, hpass, hcode⟩ := h.passes
  refine ⟨hlead, trimmed_codeText text, hne, by rw [hhead]; exact h.text_head, hgap,
    h.comment_trimmed, h.comment_starts, Text.blank_nil, p, ?_, hcode⟩
  have hblank : Comment.Neutral [' '] := Comment.neutral_of_blank (Text.blank_replicate 1)
  rw [Comment.pass_code_neutral (Comment.neutral_of_blank h.lead_blank),
    ← Comment.pass_code_neutral hblank] at hpass
  rw [List.append_nil, Comment.pass_code_neutral (Comment.neutral_of_blank hlead),
    ← Comment.pass_code_neutral hblank]
  exact Comment.pass_of_respaced
    (fun q hq escaped => closes_comment hq h.gap_blank h.comment_starts h.tail_blank escaped)
    hfirst (respaced_codeText h.text_trimmed) (p := .code) trivial hpass

/-- The new line holds the new code and the old comment, and is laid out for good. -/
theorem readLine?_lineText {line : Text} {c : Content} (h : readLine? line = some c) {lead : Text}
    (hlead : Blank lead) :
    ∃ c', readLine? (lead ++ lineText c) = some c' ∧ c'.width = lead.length ∧
      c'.text = codeText c.text ∧ lineText c' = lineText c := by
  obtain ⟨lead₀, gap, tail, hlayout⟩ := exists_layout h
  have hnew := hlayout.respace hlead
  have hline : lineText c = codeText c.text ++ (newGap (commentText c) ++ commentText c) := by
    rw [lineText, newGap]
    split_ifs with hc
    · rw [hc, List.append_nil, List.append_nil]
    · rfl
  have hread := hnew.readLine?_eq fun hc => by rw [newGap, if_pos hc]
  have hcomment := hnew.commentText_eq lead.length
  rw [List.append_nil, ← hline] at hcomment
  rw [← hline] at hread
  refine ⟨_, hread, rfl, rfl, ?_⟩
  rw [lineText, hcomment, codeText_codeText]
  rfl

/-! ## Lines without code -/

theorem trim_strip_of_blank {t : Text} (h : Blank t) : trim (strip t) = [] := by
  obtain ⟨z, hz, _⟩ := Comment.exists_read .code t
  rw [Comment.strip_eq_read]
  apply Text.trim_eq_nil.2
  intro c hc
  apply h
  rw [hz]
  exact List.mem_append_left _ hc

theorem trim_strip_of_starts {lead z : Text} (hlead : Blank lead) (hz : starts z) :
    trim (strip (lead ++ z)) = [] := by
  rw [Comment.strip_eq_read, Comment.read_code_comment (Comment.neutral_of_blank hlead) hz]
  exact Text.trim_eq_nil.2 hlead

theorem readLine?_of_blank {line : Text} (h : Blank line) : readLine? line = none := by
  have hraw : Blank (Text.dropReturns line) := fun c hc => h c (Text.dropReturns_subset line hc)
  simp [readLine?, trim_strip_of_blank hraw]

/-- A line that is only a comment stays one, at any indentation. -/
theorem readLine?_comment {line : Text} (h : readLine? line = none) (hne : trim line ≠ [])
    {lead : Text} (hlead : Blank lead) : readLine? (lead ++ trim line) = none := by
  have htrimmed := Text.trimmed_trim line
  have htrim := Text.trim_eq hlead htrimmed Text.blank_nil
  rw [List.append_nil] at htrim
  unfold readLine? at h ⊢
  dsimp only at h ⊢
  rw [Text.dropReturns_of_trimmed htrimmed hne, htrim, if_pos]
  rw [Text.trim_dropReturns] at h
  split_ifs at h with hnone
  rw [Bool.or_eq_true_iff, decide_eq_true_eq] at hnone ⊢
  refine hnone.imp_right fun hblank => ?_
  -- the line begins with its comment, since only blanks stand before it
  obtain ⟨z, hz, hstarts⟩ := Comment.exists_read .code (Text.dropReturns line)
  rw [← Comment.strip_eq_read] at hz
  have htrimz : trim line = trim z := by
    have hpad := Text.trim_blank_append (Text.trim_eq_nil.1 hblank) z
    rwa [← hz, Text.trim_dropReturns] at hpad
  have hz : starts z := by
    refine hstarts.resolve_left fun hnil => hne ?_
    rw [htrimz, hnil]
    rfl
  have hcomment : starts (trim line) := by
    obtain ⟨w, rfl⟩ := Comment.exists_slashes hz
    have hslashes : trim ('/' :: '/' :: w) = '/' :: '/' :: Text.trimEnd w :=
      Text.trim_append Text.blank_nil trimmed_slashes (by simp) w
    rw [htrimz, hslashes]
    exact Comment.starts_slashes _
  exact trim_strip_of_starts hlead hcomment

end ComponentLang.Reflow
