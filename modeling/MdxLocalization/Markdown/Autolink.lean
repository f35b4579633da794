import MdxLocalization.Text.Basic

/-!
# Automatic links

An address or a mail address in angle brackets is a link. A line feed at the very end is tolerated
in both.
-/

namespace MdxLocalization.Markdown.Autolink

def isSchemeRest (c : Char) : Bool := c.isAlphanum || c == '+' || c == '.' || c == '-'

/-- Whether a text is an address: a scheme of two to 32 characters, a colon, and no blanks. -/
def isAddress (t : Text) : Bool :=
  match t with
  | c :: rest =>
    let scheme := rest.takeWhile isSchemeRest
    match rest.drop scheme.length with
    | ':' :: tail =>
      c.isAlpha && 1 ≤ scheme.length && scheme.length ≤ 31 &&
        tail.all fun c => 0x20 < c.toNat && c != '<' && c != '>'
    | _ => false
  | [] => false

/-- A character of the part of a mail address before the at sign. -/
def isMailboxChar (c : Char) : Bool :=
  c.isAlphanum || ".!#$%&'*+/=?^_\x60\x7b|\x7d~-".toList.contains c

def isDomainPart (t : Text) : Bool :=
  decide (1 ≤ t.length) && decide (t.length ≤ 63) && t.all (fun c => c.isAlphanum || c == '-') &&
    (t.head?.any Char.isAlphanum) && (t.getLast?.any Char.isAlphanum)

def isMail (t : Text) : Bool :=
  let mailbox := t.takeWhile isMailboxChar
  match t.drop mailbox.length with
  | '@' :: domain => !mailbox.isEmpty && (Text.splitOn '.' domain).all isDomainPart
  | _ => false

/-- Whether a text satisfies a test, with or without a line feed at its end. -/
def upToLineFeed (p : Text → Bool) (t : Text) : Bool :=
  p t || (t.getLast? == some '\n' && p t.dropLast)

/-- What an automatic link leads to, before it is normalised. -/
def target? (t : Text) : Option Text :=
  if upToLineFeed isAddress t then some t
  else if upToLineFeed isMail t then some (Text.ofString "mailto:" ++ t)
  else none

end MdxLocalization.Markdown.Autolink
