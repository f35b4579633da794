import MdxLocalization.Text.Basic

/-!
# White space

`isBlank` is the white space of the Unicode standard together with the four information separators
U+001C to U+001F, which count as breaks between paragraphs and segments. Trimming a text removes
characters of this set; `isIndent` is the smaller set, space and tab, that may indent a line.
-/

namespace MdxLocalization.Text

/-- Whether a character is white space. -/
def isBlank (c : Char) : Bool :=
  let n := c.toNat
  (0x09 ≤ n && n ≤ 0x0D) || (0x1C ≤ n && n ≤ 0x20) || n == 0x85 || n == 0xA0 || n == 0x1680 ||
    (0x2000 ≤ n && n ≤ 0x200A) || n == 0x2028 || n == 0x2029 || n == 0x202F || n == 0x205F ||
    n == 0x3000

def isIndent (c : Char) : Bool := c == ' ' || c == '\t'

/-- The text without leading white space. -/
def trimStart (t : Text) : Text := t.dropWhile isBlank

/-- The text without trailing white space. -/
def trimEnd (t : Text) : Text := dropEndWhile isBlank t

/-- The text without white space at its ends. -/
def trim (t : Text) : Text := trimEnd (trimStart t)

/-- Whether a text has no character besides white space. -/
def isBlankText (t : Text) : Bool := t.all isBlank

/-- The pieces of a text between runs of white space, none of them empty. -/
def words (t : Text) : List Text :=
  let step := fun (c : Char) (state : Text × List Text) =>
    if isBlank c then
      (if state.1.isEmpty then state else ([], state.1 :: state.2))
    else (c :: state.1, state.2)
  let (word, rest) := t.foldr step ([], [])
  if word.isEmpty then rest else word :: rest

/-- Every character that core counts as white space is white space here. -/
theorem isBlank_of_isWhitespace {c : Char} (h : c.isWhitespace = true) : isBlank c = true := by
  simp only [Char.isWhitespace, Bool.or_eq_true, decide_eq_true_eq] at h
  rcases h with ((h | h) | h) | h <;> subst h <;> rfl

end MdxLocalization.Text
