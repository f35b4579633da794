import MdxLocalization.Number.Binary64
import MdxLocalization.Text.Blank
import MdxLocalization.Text.Digit

/-!
# Numbers as settings write them

Settings give numbers as texts of ASCII digits. White space around them is ignored, single
underscores may stand between digits, and a whole number may have a point with zeros after it. A
real number may have an exponent, or be one of the words for infinity and for no number.
-/

namespace MdxLocalization.DecimalText

/-- White space around a number. -/
def isPadding (c : Char) : Bool := Text.isBlank c && !(0x1C ≤ c.toNat && c.toNat ≤ 0x1F)

/-- A text without white space around it. -/
def core (t : Text) : Text := Text.dropEndWhile isPadding (t.dropWhile isPadding)

/-- Splits off a sign; the result tells whether it is a minus. -/
def splitSign : Text → Bool × Text
  | '-' :: rest => (true, rest)
  | '+' :: rest => (false, rest)
  | t => (false, t)

/-- A text without underscores, each of which has to stand between two other characters. -/
def withoutUnderscores? (t : Text) : Option Text :=
  let pieces := Text.splitOn '_' t
  if pieces.any List.isEmpty then none else some pieces.flatten

/-- Reads digits, of which there has to be one. -/
def natural? (t : Text) : Option Nat :=
  if !t.isEmpty && t.all Char.isDigit then some (Text.natOfDigits t) else none

def readInteger? (t : Text) : Option Int := do
  let (negative, body) := splitSign (core t)
  let whole := body.takeWhile (· != '.')
  if !((body.drop (whole.length + 1)).all (· == '0')) then none
  let n : Int := (← natural? (← withoutUnderscores? whole) : Nat)
  return if negative then -n else n

/-- Reads an unsigned real number. -/
def readMagnitude? (negative : Bool) (t : Text) : Option Binary64 :=
  let word := Text.toString (t.map Char.toLower)
  if word = "inf" || word = "infinity" then some (.infinite negative)
  else if word = "nan" then some .nan
  else
    let whole := t.takeWhile Char.isDigit
    let rest := t.drop whole.length
    let (fraction, rest) :=
      match rest with
      | '.' :: rest => (rest.takeWhile Char.isDigit, rest.dropWhile Char.isDigit)
      | _ => ([], rest)
    let digits := whole ++ fraction
    let make := fun (exponent : Int) =>
      Binary64.ofDecimal negative (Text.natOfDigits digits) (exponent - fraction.length)
    if digits.isEmpty then none
    else
      match rest with
      | [] => some (make 0)
      | c :: rest =>
        if c = 'e' || c = 'E' then
          let (minus, rest) := splitSign rest
          (natural? rest).map fun n => make (if minus then -(n : Int) else n)
        else none

def readReal? (t : Text) : Option Binary64 :=
  let read := fun t =>
    let (negative, body) := splitSign t
    readMagnitude? negative body
  read (core t) <|> (withoutUnderscores? (core t)).bind read

end MdxLocalization.DecimalText
