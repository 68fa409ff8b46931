import ComponentLang.Text.Decimal
import ComponentLang.Toml.Value

/-!
# Single TOML values

Each reader takes a text and gives what it read and the rest, or nothing if the text does not fit.

* `Fault` : why a document is not read;
* `skipBlanks`, `skipComment?`, `skipFiller?` : what may stand between values;
* `literalString?`, `basicString?`, `longString?` : strings;
* `dateTime?`, `localTime?` : dates and times. A date must exist in the calendar;
* `number?`, `specialFloat?` : numbers. An integer may have more digits than are read;
* `scalar` : any of these but strings.
-/

namespace ComponentLang.Toml

/-- Why a document is not read. -/
inductive Fault where
  /-- It is not TOML. -/
  | malformed
  /-- It has an integer that is not read. -/
  | number (e : Text.NumberError)
  /-- Its lists and inline tables are nested too deep. -/
  | tooDeep
deriving DecidableEq, Repr

/-- The fault in words. -/
def Fault.message : Fault → Text
  | .malformed => "Invalid TOML".toList
  | .number .tooManyDigits =>
    "An integer has more than ".toList ++ Text.ofNat Text.maxDigits ++ " digits".toList
  | .tooDeep => "Values are nested too deep".toList

/-- What a reader gives. -/
abbrev Read (α : Type) := Option (α × Text)

/-- What must be there. A text that does not fit is malformed. -/
def demand {α : Type} : Option α → Except Fault α
  | some a => .ok a
  | none => .error .malformed

/-! ## Between values -/

/-- A space or tab. -/
def isGap (c : Char) : Bool := c = ' ' || c = '\t'

/-- A space, a tab or the end of a line. -/
def isWideGap (c : Char) : Bool := isGap c || c = '\n'

/-- A control character other than the tab. -/
def isControlChar (c : Char) : Bool := (c.toNat < 0x20 || c.toNat = 0x7F) && c ≠ '\t'

/-- Skips spaces and tabs. -/
def skipBlanks (t : Text) : Text := t.dropWhile isGap

/-- Skips a comment, which has no control characters in it. -/
def skipComment? : Text → Option Text
  | '#' :: r =>
    if (r.takeWhile (· ≠ '\n')).any isControlChar then none else some (r.dropWhile (· ≠ '\n'))
  | t => some t

/-- Skips blanks, ends of lines and comments; `inComment` says that one has begun. -/
def skipFiller? : (inComment : Bool) → Text → Option Text
  | _, [] => some []
  | true, c :: r =>
    if c = '\n' then skipFiller? false r
    else if isControlChar c then none
    else skipFiller? true r
  | false, c :: r =>
    if isWideGap c then skipFiller? false r
    else if c = '#' then skipFiller? true r
    else some (c :: r)

/-! ## Strings -/

/-- The double quote. -/
def quote : Char := '\x22'

/-- The single quote. -/
def apostrophe : Char := '\x27'

/-- The value of a hexadecimal digit. -/
def hexDigit? (c : Char) : Option Nat :=
  if '0' ≤ c && c ≤ '9' then some (c.toNat - '0'.toNat)
  else if 'a' ≤ c && c ≤ 'f' then some (c.toNat - 'a'.toNat + 10)
  else if 'A' ≤ c && c ≤ 'F' then some (c.toNat - 'A'.toNat + 10)
  else none

/-- The number that digits in a base denote. -/
def ofDigits (base : Nat) (digits : List Nat) : Nat := digits.foldl (fun n d => base * n + d) 0

/-- The character with the code point that is written in so many hexadecimal digits. -/
def hexChar? (width : Nat) (t : Text) : Read Text :=
  match (t.take width).mapM hexDigit? with
  | none => none
  | some digits =>
    let n := ofDigits 16 digits
    if digits.length = width && (n < 0xD800 || (0xE000 ≤ n && n < 0x110000)) then
      some ([Char.ofNat n], t.drop width)
    else none

/-- Skips the end of a line and the blanks before and after it. -/
def lineBreak? (t : Text) : Read Text :=
  match skipBlanks t with
  | '\n' :: r => some ([], r.dropWhile isWideGap)
  | [] => some ([], [])
  | _ => none

/-- What is written after a backslash. In a long string the end of a line may be. -/
def escape? (long : Bool) : Text → Read Text
  | [] => none
  | c :: r =>
    if long && isWideGap c then lineBreak? (c :: r)
    else if c = 'u' then hexChar? 4 r
    else if c = 'U' then hexChar? 8 r
    else if c = 'b' then some (['\x08'], r)
    else if c = 't' then some (['\t'], r)
    else if c = 'n' then some (['\n'], r)
    else if c = 'f' then some (['\x0c'], r)
    else if c = 'r' then some (['\r'], r)
    else if c = quote then some ([quote], r)
    else if c = '\\' then some (['\\'], r)
    else none

/-- The rest of a string with escapes, up to its closing quotes. `fuel` bounds its length. -/
def basicBody? (long : Bool) : (fuel : Nat) → Text → Read Text
  | 0, _ => none
  | _, [] => none
  | fuel + 1, c :: r =>
    if c = quote && !long then some ([], r)
    else if c = quote && Text.startsWith [quote, quote] r then some ([], r.drop 2)
    else if c = '\\' then
      (escape? long r).bind fun (e, rest) =>
        (basicBody? long fuel rest).map fun (s, rest) => (e ++ s, rest)
    else if isControlChar c && !(long && c = '\n') then none
    else (basicBody? long fuel r).map fun (s, rest) => (c :: s, rest)

/-- The rest of a string with escapes, on one line. -/
def basicString? (t : Text) : Read Text := basicBody? false (t.length + 1) t

/-- The rest of a string without escapes, on one line. -/
def literalString? (t : Text) : Read Text :=
  (Text.splitFirst? apostrophe t).bind fun (s, rest) =>
    if s.any isControlChar then none else some (s, rest)

/-- The part before three single quotes, and the part after them. -/
def untilTriple? : Text → Read Text
  | [] => none
  | c :: r =>
    if c = apostrophe && Text.startsWith [apostrophe, apostrophe] r then some ([], r.drop 2)
    else (untilTriple? r).map fun (s, rest) => (c :: s, rest)

/-- The body of a long string, after its opening quotes. -/
def longBody? (literal : Bool) (t : Text) : Read Text :=
  if literal then
    (untilTriple? t).bind fun (s, rest) =>
      if s.any fun c => isControlChar c && c ≠ '\n' then none else some (s, rest)
  else basicBody? true (t.length + 1) t

/-- A long string, after its opening quotes. A line feed right after them is left out, and up to
two quotes more at the end belong to it. -/
def longString? (literal : Bool) (t : Text) : Read Text :=
  let mark := if literal then apostrophe else quote
  (longBody? literal (Text.dropLead ['\n'] t)).map fun (s, rest) =>
    let extra := (rest.take 2).takeWhile (· = mark)
    (s ++ extra, rest.drop extra.length)

/-! ## Dates and times -/

/-- One of the digits 0 to 9. -/
def isPlainDigit (c : Char) : Bool := '0' ≤ c && c ≤ '9'

/-- The number that plain digits denote. -/
def plainValue (t : Text) : Nat := ofDigits 10 (t.map fun c => c.toNat - '0'.toNat)

/-- A number of exactly so many digits, within bounds. -/
def fixed? (width least most : Nat) (t : Text) : Read Nat :=
  let digits := t.take width
  if digits.length = width && digits.all isPlainDigit && least ≤ plainValue digits &&
      plainValue digits ≤ most then
    some (plainValue digits, t.drop width)
  else none

/-- The number of days in a month. -/
def daysIn (year month : Nat) : Nat :=
  if month = 2 then
    if year % 4 = 0 && (year % 100 ≠ 0 || year % 400 = 0) then 29 else 28
  else if month = 4 || month = 6 || month = 9 || month = 11 then 30
  else 31

/-- A year, month and day in digits. -/
def dateDigits? (t : Text) : Read (Nat × Nat × Nat) :=
  (fixed? 4 0 9999 t).bind fun (year, r) =>
    ((Text.after? ['-'] r).bind (fixed? 2 1 12)).bind fun (month, r) =>
      ((Text.after? ['-'] r).bind (fixed? 2 1 31)).map fun (day, r) => ((year, month, day), r)

/-- Skips the fraction of a second. -/
def skipFraction (t : Text) : Text :=
  match t with
  | '.' :: c :: r => if isPlainDigit c then r.dropWhile isPlainDigit else t
  | _ => t

/-- What follows a time of day. -/
def afterTime? (t : Text) : Option Text :=
  (fixed? 2 0 23 t).bind fun (_, r) =>
    ((Text.after? [':'] r).bind (fixed? 2 0 59)).bind fun (_, r) =>
      ((Text.after? [':'] r).bind (fixed? 2 0 59)).map fun (_, r) => skipFraction r

/-- Skips the offset from universal time. -/
def skipOffset (t : Text) : Text :=
  match t with
  | [] => []
  | c :: r =>
    if c = 'Z' || c = 'z' then r
    else if c = '+' || c = '-' then
      match (fixed? 2 0 23 r).bind fun (_, r) => (Text.after? [':'] r).bind (fixed? 2 0 59) with
      | some (_, r) => r
      | none => t
    else t

/-- What follows a time of day that is joined to a date. -/
def afterJoinedTime? : Text → Option Text
  | [] => none
  | c :: r => if c = 'T' || c = 't' || c = ' ' then (afterTime? r).map skipOffset else none

/-- The part of `t` before its end `rest`. -/
def written (t rest : Text) : Text := t.take (t.length - rest.length)

/-- A date, with a time of day or without, if there is one at all. It fails if the date is not in
the calendar. -/
def dateTime? (t : Text) : Option (Read Value) :=
  (dateDigits? t).map fun ((year, month, day), r) =>
    if year = 0 || daysIn year month < day then none
    else
      match afterJoinedTime? r with
      | some rest => some (.moment .datetime (written t rest), rest)
      | none => some (.moment .date (written t r), r)

/-- A time of day. -/
def localTime? (t : Text) : Read Value :=
  (afterTime? t).map fun rest => (.moment .time (written t rest), rest)

/-! ## Numbers -/

/-- Puts a character in front of what was read. -/
def onto (c : Char) (answer : Text × Text) : Text × Text := (c :: answer.1, answer.2)

/-- More digits, between which single underscores may stand. -/
def moreDigits (p : Char → Bool) : Text → Text × Text
  | [] => ([], [])
  | '_' :: c :: r => if p c then onto c (moreDigits p r) else ([], '_' :: c :: r)
  | c :: r => if p c then onto c (moreDigits p r) else ([], c :: r)

/-- One digit at least, between which single underscores may stand. -/
def digits? (p : Char → Bool) : Text → Read Text
  | [] => none
  | c :: r => if p c then some (onto c (moreDigits p r)) else none

/-- The digits of a base up to sixteen. -/
def isBaseDigit (base : Nat) (c : Char) : Bool := (hexDigit? c).any (· < base)

/-- An integer in another base than ten. -/
def basedInteger? (t : Text) : Read Value :=
  let read (mark : Char) (base : Nat) : Read Value :=
    ((Text.after? ['0', mark] t).bind (digits? (isBaseDigit base))).map fun (ds, rest) =>
      (.integer (ofDigits base (ds.filterMap hexDigit?)), rest)
  (read 'x' 16).or ((read 'b' 2).or (read 'o' 8))

/-- The digits before the point: a zero alone, or any that do not begin with zero. -/
def wholeDigits? : Text → Read Text
  | '0' :: r => some (['0'], r)
  | t => digits? isPlainDigit t

/-- What follows a fraction, if there is one. -/
def skipPoint (t : Text) : Text :=
  match (Text.after? ['.'] t).bind (digits? isPlainDigit) with
  | some (_, rest) => rest
  | none => t

/-- Skips a sign. -/
def skipSign : Text → Text
  | '+' :: r => r
  | '-' :: r => r
  | t => t

/-- What follows an exponent, if there is one. -/
def skipExponent (t : Text) : Text :=
  match (Text.after? ['e'] t).or (Text.after? ['E'] t) with
  | none => t
  | some r =>
    match digits? isPlainDigit (skipSign r) with
    | some (_, rest) => rest
    | none => t

/-- An integer or float in base ten, if there is one at all. Of an integer the digits are
limited. -/
def decimalNumber? (t : Text) : Option (Except Fault (Value × Text)) :=
  (wholeDigits? (skipSign t)).map fun (ds, r) =>
    let rest := skipExponent (skipPoint r)
    if rest.length < r.length then .ok (.float (written t rest), rest)
    else
      match Text.read ds with
      | .ok n => .ok (.integer (if t.head? = some '-' then -(n : Int) else n), r)
      | .error e => .error (.number e)

/-- A number, if there is one at all. -/
def number? (t : Text) : Option (Except Fault (Value × Text)) :=
  ((basedInteger? t).map .ok).or (decimalNumber? t)

/-- A float that is no number or infinite. -/
def specialFloat? (t : Text) : Read Value :=
  let r := skipSign t
  ((Text.after? "inf".toList r).or (Text.after? "nan".toList r)).map fun rest =>
    (.float (written t rest), rest)

/-- A date, a time or a number. -/
def scalar (t : Text) : Except Fault (Value × Text) :=
  match dateTime? t with
  | some answer => demand answer
  | none =>
    (((localTime? t).map .ok).or ((number? t).or ((specialFloat? t).map .ok))).getD
      (.error .malformed)

end ComponentLang.Toml
