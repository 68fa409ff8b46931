import ComponentLang.Text.Upper

/-!
# Letters regardless of case

* `caseFold` : the capital that a letter is compared as. The long s counts as S, the i without a
  dot and the capital i with one as I, and the Kelvin sign as K;
* `isCaselessLetter` : a letter that is compared as one of A to Z;
* `afterCaseless?` : what follows a given beginning, regardless of case.
-/

namespace ComponentLang.Text

/-- The capital that a character is compared as. -/
def caseFold (c : Char) : Char :=
  if 'a' ≤ c && c ≤ 'z' then Char.ofNat (c.toNat - 32)
  else match c.toNat with
    | 0x130 => 'I'
    | 0x131 => 'I'
    | 0x17F => 'S'
    | 0x212A => 'K'
    | _ => c

/-- A character that is compared as one of the letters A to Z. -/
def isCaselessLetter (c : Char) : Bool := 'A' ≤ caseFold c && caseFold c ≤ 'Z'

/-- What follows the beginning `lead`, if the text has it in any case. -/
def afterCaseless? : Text → Text → Option Text
  | [], t => some t
  | _ :: _, [] => none
  | c :: lead, d :: t => if caseFold c = caseFold d then afterCaseless? lead t else none

end ComponentLang.Text
