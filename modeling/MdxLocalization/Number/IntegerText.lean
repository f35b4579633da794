import MdxLocalization.Text.Blank
import MdxLocalization.Text.Digit
import MdxLocalization.Text.Quoted

/-!
# Integers as people write them

An integer text has white space around it, an optional sign, and decimal digits of any script with
single underscores between them. Texts of more than 4300 digits are refused.

The white space here is that of `Text.isBlank` without the four information separators.
-/

namespace MdxLocalization

/-- Why a text is no integer. -/
inductive IntegerTextError where
  | invalid (t : Text)
  | tooLong (digits : Nat)
  deriving DecidableEq, Repr

namespace IntegerText

def maxDigits : Nat := 4300

/-- White space that may surround an integer. -/
def isPadding (c : Char) : Bool := Text.isBlank c && !(0x1C ≤ c.toNat && c.toNat ≤ 0x1F)

/-- The values of the digits of a text in which single underscores may stand between digits. -/
def digits? : Text → Option (List Nat)
  | [] => none
  | [c] => (Text.digitValue? c).map ([·])
  | c :: '_' :: rest => do
    let d ← Text.digitValue? c
    let ds ← digits? rest
    return d :: ds
  | c :: d :: rest => do
    let v ← Text.digitValue? c
    let ds ← digits? (d :: rest)
    return v :: ds

/-- The message of an error. -/
def message : IntegerTextError → Text
  | .invalid t =>
    Text.ofString "invalid literal for int() with base 10: " ++ (Text.quoted t).take 200
  | .tooLong n =>
    Text.ofString "Exceeds the limit (" ++ Text.ofNat maxDigits ++
      Text.ofString " digits) for integer string conversion: value has " ++ Text.ofNat n ++
      Text.ofString " digits; use sys.set_int_max_str_digits() to increase the limit"

/-- Reads an integer text. -/
def read (t : Text) : Except IntegerTextError Int :=
  let core := Text.dropEndWhile isPadding (t.dropWhile isPadding)
  let (negative, body) :=
    match core with
    | '-' :: rest => (true, rest)
    | '+' :: rest => (false, rest)
    | _ => (false, core)
  match digits? body with
  | none => .error (.invalid t)
  | some ds =>
    if maxDigits < ds.length then .error (.tooLong ds.length)
    else
      let n : Int := (ds.foldl (fun n d => n * 10 + d) 0 : Nat)
      .ok (if negative then -n else n)

end IntegerText

end MdxLocalization
