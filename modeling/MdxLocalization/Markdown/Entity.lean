import MdxLocalization.Text.Digit

/-!
# Character references

A character reference stands for a character by name or by number: an ampersand, the name or number,
and a semicolon. A number that is no character's code stands for nothing.
-/

namespace MdxLocalization.Markdown.Entity

/-- The named characters, by code point. -/
def names : List (String × Nat) :=
  [
    ("AElig", 0xC6), ("AMP", 0x26), ("Aacute", 0xC1), ("Acirc", 0xC2), ("Agrave", 0xC0),
    ("Alpha", 0x391), ("Aring", 0xC5), ("Atilde", 0xC3), ("Auml", 0xC4), ("Beta", 0x392),
    ("COPY", 0xA9), ("Ccedil", 0xC7), ("Chi", 0x3A7), ("Dagger", 0x2021), ("Delta", 0x394),
    ("ETH", 0xD0), ("Eacute", 0xC9), ("Ecirc", 0xCA), ("Egrave", 0xC8), ("Epsilon", 0x395),
    ("Eta", 0x397), ("Euml", 0xCB), ("GT", 0x3E), ("Gamma", 0x393), ("Hat", 0x5E),
    ("Iacute", 0xCD), ("Icirc", 0xCE), ("Igrave", 0xCC), ("Iota", 0x399), ("Iuml", 0xCF),
    ("Kappa", 0x39A), ("LT", 0x3C), ("Lambda", 0x39B), ("Mu", 0x39C), ("NewLine", 0xA),
    ("Ntilde", 0xD1), ("Nu", 0x39D), ("OElig", 0x152), ("Oacute", 0xD3), ("Ocirc", 0xD4),
    ("Ograve", 0xD2), ("Omega", 0x3A9), ("Omicron", 0x39F), ("Oslash", 0xD8), ("Otilde", 0xD5),
    ("Ouml", 0xD6), ("Phi", 0x3A6), ("Pi", 0x3A0), ("Prime", 0x2033), ("Psi", 0x3A8),
    ("QUOT", 0x22), ("REG", 0xAE), ("Rho", 0x3A1), ("Scaron", 0x160), ("Sigma", 0x3A3),
    ("THORN", 0xDE), ("TRADE", 0x2122), ("Tab", 0x9), ("Tau", 0x3A4), ("Theta", 0x398),
    ("Uacute", 0xDA), ("Ucirc", 0xDB), ("Ugrave", 0xD9), ("Upsilon", 0x3A5), ("Uuml", 0xDC),
    ("Xi", 0x39E), ("Yacute", 0xDD), ("Yuml", 0x178), ("Zeta", 0x396), ("aacute", 0xE1),
    ("acirc", 0xE2), ("acute", 0xB4), ("aelig", 0xE6), ("agrave", 0xE0), ("alefsym", 0x2135),
    ("alpha", 0x3B1), ("amp", 0x26), ("and", 0x2227), ("ang", 0x2220), ("apos", 0x27),
    ("aring", 0xE5), ("ast", 0x2A), ("asymp", 0x2248), ("atilde", 0xE3), ("auml", 0xE4),
    ("bdquo", 0x201E), ("beta", 0x3B2), ("brvbar", 0xA6), ("bsol", 0x5C), ("bull", 0x2022),
    ("cap", 0x2229), ("ccedil", 0xE7), ("cedil", 0xB8), ("cent", 0xA2), ("check", 0x2713),
    ("chi", 0x3C7), ("circ", 0x2C6), ("clubs", 0x2663), ("colon", 0x3A), ("comma", 0x2C),
    ("commat", 0x40), ("cong", 0x2245), ("copy", 0xA9), ("crarr", 0x21B5), ("cup", 0x222A),
    ("curren", 0xA4), ("dArr", 0x21D3), ("dagger", 0x2020), ("darr", 0x2193), ("deg", 0xB0),
    ("delta", 0x3B4), ("diams", 0x2666), ("divide", 0xF7), ("dollar", 0x24), ("eacute", 0xE9),
    ("ecirc", 0xEA), ("egrave", 0xE8), ("empty", 0x2205), ("emsp", 0x2003), ("ensp", 0x2002),
    ("epsilon", 0x3B5), ("equals", 0x3D), ("equiv", 0x2261), ("eta", 0x3B7), ("eth", 0xF0),
    ("euml", 0xEB), ("euro", 0x20AC), ("excl", 0x21), ("exist", 0x2203), ("fnof", 0x192),
    ("forall", 0x2200), ("frac12", 0xBD), ("frac14", 0xBC), ("frac34", 0xBE), ("frasl", 0x2044),
    ("gamma", 0x3B3), ("ge", 0x2265), ("grave", 0x60), ("gt", 0x3E), ("hArr", 0x21D4),
    ("harr", 0x2194), ("hearts", 0x2665), ("hellip", 0x2026), ("iacute", 0xED), ("icirc", 0xEE),
    ("iexcl", 0xA1), ("igrave", 0xEC), ("image", 0x2111), ("infin", 0x221E), ("int", 0x222B),
    ("iota", 0x3B9), ("iquest", 0xBF), ("isin", 0x2208), ("iuml", 0xEF), ("kappa", 0x3BA),
    ("lArr", 0x21D0), ("lambda", 0x3BB), ("lang", 0x27E8), ("laquo", 0xAB), ("larr", 0x2190),
    ("lbrace", 0x7B), ("lbrack", 0x5B), ("lceil", 0x2308), ("lcub", 0x7B), ("ldquo", 0x201C),
    ("le", 0x2264), ("lfloor", 0x230A), ("lowast", 0x2217), ("lowbar", 0x5F), ("loz", 0x25CA),
    ("lpar", 0x28), ("lrm", 0x200E), ("lsaquo", 0x2039), ("lsqb", 0x5B), ("lsquo", 0x2018),
    ("lt", 0x3C), ("macr", 0xAF), ("mdash", 0x2014), ("micro", 0xB5), ("middot", 0xB7),
    ("minus", 0x2212), ("mu", 0x3BC), ("nabla", 0x2207), ("nbsp", 0xA0), ("ndash", 0x2013),
    ("ne", 0x2260), ("ni", 0x220B), ("not", 0xAC), ("notin", 0x2209), ("nsub", 0x2284),
    ("ntilde", 0xF1), ("nu", 0x3BD), ("num", 0x23), ("oacute", 0xF3), ("ocirc", 0xF4),
    ("oelig", 0x153), ("ograve", 0xF2), ("oline", 0x203E), ("omega", 0x3C9), ("omicron", 0x3BF),
    ("oplus", 0x2295), ("or", 0x2228), ("ordf", 0xAA), ("ordm", 0xBA), ("oslash", 0xF8),
    ("otilde", 0xF5), ("otimes", 0x2297), ("ouml", 0xF6), ("para", 0xB6), ("part", 0x2202),
    ("percnt", 0x25), ("period", 0x2E), ("permil", 0x2030), ("perp", 0x22A5), ("phi", 0x3C6),
    ("phone", 0x260E), ("pi", 0x3C0), ("piv", 0x3D6), ("plus", 0x2B), ("plusmn", 0xB1),
    ("pound", 0xA3), ("prime", 0x2032), ("prod", 0x220F), ("prop", 0x221D), ("psi", 0x3C8),
    ("quest", 0x3F), ("quot", 0x22), ("rArr", 0x21D2), ("radic", 0x221A), ("rang", 0x27E9),
    ("raquo", 0xBB), ("rarr", 0x2192), ("rbrace", 0x7D), ("rbrack", 0x5D), ("rceil", 0x2309),
    ("rcub", 0x7D), ("rdquo", 0x201D), ("real", 0x211C), ("reg", 0xAE), ("rfloor", 0x230B),
    ("rho", 0x3C1), ("rlm", 0x200F), ("rpar", 0x29), ("rsaquo", 0x203A), ("rsqb", 0x5D),
    ("rsquo", 0x2019), ("sbquo", 0x201A), ("scaron", 0x161), ("sdot", 0x22C5), ("sect", 0xA7),
    ("semi", 0x3B), ("shy", 0xAD), ("sigma", 0x3C3), ("sigmaf", 0x3C2), ("sim", 0x223C),
    ("sol", 0x2F), ("spades", 0x2660), ("star", 0x2606), ("sub", 0x2282), ("sube", 0x2286),
    ("sum", 0x2211), ("sup", 0x2283), ("sup1", 0xB9), ("sup2", 0xB2), ("sup3", 0xB3),
    ("supe", 0x2287), ("szlig", 0xDF), ("tau", 0x3C4), ("there4", 0x2234), ("theta", 0x3B8),
    ("thetasym", 0x3D1), ("thinsp", 0x2009), ("thorn", 0xFE), ("tilde", 0x2DC), ("times", 0xD7),
    ("trade", 0x2122), ("uArr", 0x21D1), ("uacute", 0xFA), ("uarr", 0x2191), ("ucirc", 0xFB),
    ("ugrave", 0xF9), ("uml", 0xA8), ("upsih", 0x3D2), ("upsilon", 0x3C5), ("uuml", 0xFC),
    ("verbar", 0x7C), ("vert", 0x7C), ("weierp", 0x2118), ("xi", 0x3BE), ("yacute", 0xFD),
    ("yen", 0xA5), ("yuml", 0xFF), ("zeta", 0x3B6), ("zwj", 0x200D), ("zwnj", 0x200C)]

/-- Whether a code point may be written by number: no surrogate, no control other than white space,
no code point that is set aside for internal use. -/
def isValidCode (n : Nat) : Bool :=
  !(0xD800 ≤ n && n ≤ 0xDFFF) && !(0xFDD0 ≤ n && n ≤ 0xFDEF) && n % 0x10000 != 0xFFFF &&
    n % 0x10000 != 0xFFFE && !(n ≤ 0x08) && n != 0x0B && !(0x0E ≤ n && n ≤ 0x1F) &&
    !(0x7F ≤ n && n ≤ 0x9F) && n ≤ 0x10FFFF

def named? (name : Text) : Option Char := (names.lookup (Text.toString name)).map Char.ofNat

/-- The number written by hexadecimal digits. -/
def hexValue (t : Text) : Nat := t.foldl (fun n c => n * 16 + (Text.hexDigit? c).getD 0) 0

/-- The code in a numeric reference, which is decimal or hexadecimal with a bounded number of
digits. `t` is what stands between the number sign and the semicolon. -/
def numericCode? (maxDecimal maxHex : Nat) (t : Text) : Option Nat :=
  match t with
  | [] => none
  | c :: rest =>
    if c = 'x' || c = 'X' then
      if !rest.isEmpty && rest.length ≤ maxHex && rest.all (fun c => (Text.hexDigit? c).isSome) then
        some (hexValue rest)
      else none
    else if t.length ≤ maxDecimal && t.all Char.isDigit then some (Text.natOfDigits t)
    else none

/-- Whether a text has the form of the name of a reference. -/
def isName (t : Text) : Bool :=
  match t with
  | [] => false
  | c :: rest =>
    c.isAlpha && 1 ≤ rest.length && rest.length ≤ 31 && rest.all Char.isAlphanum

/-- What stands between the ampersand at the start of a text and the next semicolon, if it has the
form of a reference, and the text after it. -/
def body? (t : Text) : Option (Text × Text) :=
  match t with
  | '&' :: rest =>
    let body := rest.takeWhile fun c => c.isAlphanum || c == '#'
    match rest.drop body.length with
    | ';' :: tail => some (body, tail)
    | _ => none
  | _ => none

/-- The character that a reference in a destination or title stands for, and the text after it. -/
def inAttribute? (t : Text) : Option (Char × Text) :=
  match body? t with
  | none => none
  | some (body, tail) =>
    match body with
    | '#' :: digits =>
      match numericCode? 8 8 digits with
      | some code => if isValidCode code then some (Char.ofNat code, tail) else none
      | none => none
    | _ => (named? body).map fun c => (c, tail)

/-- The character that a reference in running text stands for, and the text after it. A number that
is no character's code stands for the replacement character. -/
def inText? (t : Text) : Option (Char × Text) :=
  match body? t with
  | none => none
  | some (body, tail) =>
    match body with
    | '#' :: digits =>
      (numericCode? 7 6 digits).map fun code =>
        (if isValidCode code then Char.ofNat code else '\uFFFD', tail)
    | _ => if isName body then (named? body).map fun c => (c, tail) else none

/-- Whether a backslash escapes a character: the ASCII punctuation. -/
def isEscapable (c : Char) : Bool :=
  let n := c.toNat
  (33 ≤ n && n ≤ 47) || (58 ≤ n && n ≤ 64) || (91 ≤ n && n ≤ 96) || (123 ≤ n && n ≤ 126)

/-- A text with its backslash escapes and character references resolved. The budget bounds the
number of steps. -/
def unescapeFrom : Nat → Text → Text
  | 0, t => t
  | _ + 1, [] => []
  | budget + 1, c :: rest =>
    match c, rest with
    | '\\', d :: tail =>
      if isEscapable d then d :: unescapeFrom budget tail
      else '\\' :: unescapeFrom budget (d :: tail)
    | _, _ =>
      match inAttribute? (c :: rest) with
      | some (d, tail) => d :: unescapeFrom budget tail
      | none => c :: unescapeFrom budget rest

/-- A text with its backslash escapes and character references resolved. -/
def unescape (t : Text) : Text := unescapeFrom t.length t

end MdxLocalization.Markdown.Entity
