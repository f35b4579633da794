/-!
# Texts and positions in them

A text is the list of its characters, and every offset in this library counts characters. This
module holds the cuts that the rest of the library is written with: a slice between two natural
positions, a window between two signed positions, and the search for a piece of text.

Signed positions appear because offsets arrive from outside (a translated file, a tree built by a
caller) and may be negative or too large: a negative position counts from the end, and every
position is then cut to the length of the text.
-/

namespace MdxLocalization

abbrev Text := List Char

namespace Text

def ofString (s : String) : Text := s.toList

def toString (t : Text) : String := String.ofList t

/-- The characters at positions `start ≤ i < stop`; positions past the end select nothing. -/
def slice (t : Text) (start stop : Nat) : Text := (t.drop start).take (stop - start)

/-- A signed position in a text of `length` characters: a negative one counts from the end, and
what lies outside is cut to the nearest end. -/
def clamp (length : Nat) (position : Int) : Nat :=
  if position < 0 then (position + length).toNat else min position.toNat length

/-- The characters between two signed positions, none when they are out of order. -/
def window (t : Text) (start stop : Int) : Text :=
  slice t (clamp t.length start) (clamp t.length stop)

/-- The length of the longest initial run of characters that satisfy `p`. -/
def countWhile (p : Char → Bool) : Text → Nat
  | [] => 0
  | c :: rest => if p c then countWhile p rest + 1 else 0

/-- Whether `piece` stands at the start of `t`. -/
def startsWith (t piece : Text) : Bool := piece.isPrefixOf t

/-- Whether `piece` stands at the end of `t`. -/
def endsWith (t piece : Text) : Bool := piece.isSuffixOf t

/-- The position of the first occurrence of `piece` in `t`. -/
def find? (piece : Text) : Text → Option Nat
  | [] => if piece.isEmpty then some 0 else none
  | c :: rest =>
    if startsWith (c :: rest) piece then some 0 else (find? piece rest).map (· + 1)

/-- The position of the first character of `t` that satisfies `p`. -/
def findChar? (p : Char → Bool) : Text → Option Nat
  | [] => none
  | c :: rest => if p c then some 0 else (findChar? p rest).map (· + 1)

/-- The pieces of a text between the occurrences of `separator`. -/
def splitOn (separator : Char) : Text → List Text
  | [] => [[]]
  | c :: rest =>
    if c = separator then [] :: splitOn separator rest
    else
      match splitOn separator rest with
      | piece :: pieces => (c :: piece) :: pieces
      | [] => [[c]]

/-- The texts in order, with `separator` between neighbours. -/
def join (separator : Text) : List Text → Text
  | [] => []
  | [t] => t
  | t :: rest => t ++ separator ++ join separator rest

/-- The text without its trailing characters that satisfy `p`. -/
def dropEndWhile (p : Char → Bool) (t : Text) : Text := (t.reverse.dropWhile p).reverse

/-- Removes one line break, a carriage return with its line feed or a line feed alone, from the
end of a text. -/
def dropLineBreak (t : Text) : Text :=
  match t.reverse with
  | '\n' :: '\r' :: rest => rest.reverse
  | '\n' :: rest => rest.reverse
  | _ => t

/-- The line breaks of a text as single line feeds: a carriage return, with or without a line feed
after it, counts as one break. -/
def normalizeBreaks : Text → Text
  | [] => []
  | '\r' :: '\n' :: rest => '\n' :: normalizeBreaks rest
  | '\r' :: rest => '\n' :: normalizeBreaks rest
  | c :: rest => c :: normalizeBreaks rest

/-- The decimal digits of a natural number, as a text. -/
def ofNat (n : Nat) : Text := Nat.toDigits 10 n

/-- The decimal form of an integer, with a minus sign when it is negative. -/
def ofInt : Int → Text
  | .ofNat n => ofNat n
  | .negSucc n => '-' :: ofNat (n + 1)

end Text

end MdxLocalization
