import BeanWiring.Decimal.Floating
import BeanWiring.Document.Hexadecimal
import BeanWiring.Document.Toml

/-!
Values in TOML documents that stand without quotes: truth values, whole numbers, floating-point
numbers, dates and times. Each is read from all of its characters at once.
-/
namespace BeanWiring.Toml

/-- Digits without the underscores between them, at least one. An underscore stands between two
digits. -/
def ungroup (isDigit : Char → Bool) : List Char → Option (List Char)
  | [] => none
  | [c] => if isDigit c then some [c] else none
  | c :: '_' :: rest => if isDigit c then (ungroup isDigit rest).map (c :: ·) else none
  | c :: rest => if isDigit c then (ungroup isDigit rest).map (c :: ·) else none

def wholeDigits? (text : List Char) : Option (List Char) :=
  match text with
  | '0' :: _ :: _ => none
  | _ => ungroup Char.isDigit text

def splitSign : List Char → Bool × List Char
  | '+' :: rest => (false, rest)
  | '-' :: rest => (true, rest)
  | text => (false, text)

/-- A whole number that fits into 128 bits. -/
def bounded (n : Int) : Option Toml :=
  if -(Nat.pow 2 127 : Int) ≤ n && n < (Nat.pow 2 128 : Int) then some (integer n) else none

/-- Reads a number to a base other than ten. It has no sign. -/
def readBased (base : Nat) (digits : List Char) : Option Toml :=
  ((ungroup (fun c => (Hexadecimal.digit? c).any (· < base)) digits).bind
    (Hexadecimal.value? base)).bind fun n => bounded n

def readInteger (text : List Char) : Option Toml :=
  match text with
  | '0' :: 'x' :: digits => readBased 16 digits
  | '0' :: 'o' :: digits => readBased 8 digits
  | '0' :: 'b' :: digits => readBased 2 digits
  | _ =>
    let (negative, unsigned) := splitSign text
    ((wholeDigits? unsigned).bind (Hexadecimal.value? 10)).bind fun n =>
      bounded (if negative then -n else n)

def splitAtFirst (p : Char → Bool) (text : List Char) : List Char × Option (List Char) :=
  match text.dropWhile (!p ·) with
  | [] => (text, none)
  | _ :: rest => (text.takeWhile (!p ·), some rest)

def markedDigits? (mark : Char) : Option (List Char) → Option (List Char)
  | none => some []
  | some digits => (ungroup Char.isDigit digits).map (mark :: ·)

def markedExponent? : Option (List Char) → Option (List Char)
  | some ('-' :: digits) => (ungroup Char.isDigit digits).map ('e' :: '-' :: ·)
  | some ('+' :: digits) => markedDigits? 'e' (some digits)
  | exponent => markedDigits? 'e' exponent

/-- Reads a floating-point number with a fraction, an exponent or both. One too great to be
finite is refused. -/
def readFinite (unsigned : List Char) : Option Float :=
  let (mantissa, exponent) := splitAtFirst (fun c => c == 'e' || c == 'E') unsigned
  let (whole, fraction) := splitAtFirst (· == '.') mantissa
  if exponent.isNone && fraction.isNone then none
  else
    match wholeDigits? whole, markedDigits? '.' fraction, markedExponent? exponent with
    | some whole, some fraction, some exponent =>
      match Decimal.readFloat (whole ++ fraction ++ exponent) with
      | .ok x => if x.isInf then none else some x
      | .error _ => none
    | _, _, _ => none

def readFloat (text : List Char) : Option Toml :=
  let (negative, unsigned) := splitSign text
  let magnitude :=
    match unsigned with
    | ['i', 'n', 'f'] => some (Float.ofBits 0x7ff0000000000000)
    | ['n', 'a', 'n'] => some (Float.ofBits 0x7ff8000000000000)
    | _ => readFinite unsigned
  magnitude.map fun x => float (if negative then -x else x)

def isLeapYear (year : Nat) : Bool := (year % 4 == 0 && year % 100 != 0) || year % 400 == 0

def daysInMonth (year month : Nat) : Nat :=
  match month with
  | 2 => if isLeapYear year then 29 else 28
  | 4 | 6 | 9 | 11 => 30
  | _ => 31

def fixedDigits? (count : Nat) (text : List Char) : Option (Nat × List Char) :=
  if (text.take count).length = count then
    (Hexadecimal.value? 10 (text.take count)).map (·, text.drop count)
  else none

def afterDate? (text : List Char) : Option (List Char) :=
  match fixedDigits? 4 text with
  | some (year, '-' :: rest) =>
    match fixedDigits? 2 rest with
    | some (month, '-' :: rest) =>
      match fixedDigits? 2 rest with
      | some (day, rest) =>
        if 1 ≤ month && month ≤ 12 && 1 ≤ day && day ≤ daysInMonth year month then some rest
        else none
      | none => none
    | _ => none
  | _ => none

def afterHours? (text : List Char) : Option (List Char) :=
  match fixedDigits? 2 text with
  | some (hour, ':' :: rest) =>
    match fixedDigits? 2 rest with
    | some (minute, rest) => if hour ≤ 23 && minute ≤ 59 then some rest else none
    | none => none
  | _ => none

/-- What follows the time at the start of a text. The seconds can be left out, and there are leap
seconds. -/
def afterTime? (text : List Char) : Option (List Char) :=
  match afterHours? text with
  | some (':' :: rest) =>
    match fixedDigits? 2 rest with
    | some (second, '.' :: d :: rest) =>
      if second ≤ 60 && d.isDigit then some (rest.dropWhile Char.isDigit) else none
    | some (second, rest) => if second ≤ 60 then some rest else none
    | none => none
  | rest? => rest?

def isOffset : List Char → Bool
  | [] | ['Z'] | ['z'] => true
  | '+' :: rest | '-' :: rest => afterHours? rest == some []
  | _ => false

def isMoment (text : List Char) : Bool :=
  match afterDate? text with
  | some [] => true
  | some (mark :: rest) =>
    (mark == 'T' || mark == 't' || mark == ' ') && (afterTime? rest).any isOffset
  | none => afterTime? text == some []

def readScalar (text : List Char) : Option Toml :=
  if text = ['t', 'r', 'u', 'e'] then some (truth true)
  else if text = ['f', 'a', 'l', 's', 'e'] then some (truth false)
  else if isMoment text then some (moment (String.ofList text))
  else
    match readInteger text with
    | some value => some value
    | none => readFloat text

def isScalarPart (c : Char) : Bool :=
  c.isAlphanum || c == '_' || c == '+' || c == '-' || c == '.' || c == ':'

/-- The characters of a value without quotes and what follows. A space in it stands between a date
and a time. -/
def takeScalar (text : List Char) : List Char × List Char :=
  let first := text.takeWhile isScalarPart
  match text.dropWhile isScalarPart with
  | ' ' :: d :: rest =>
    if d.isDigit && afterDate? first == some [] then
      (first ++ ' ' :: (d :: rest).takeWhile isScalarPart, (d :: rest).dropWhile isScalarPart)
    else (first, ' ' :: d :: rest)
  | rest => (first, rest)

end BeanWiring.Toml
