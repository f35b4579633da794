import MdxLocalization.Text.Quoted

/-!
# Language tags

A language tag is a sequence of subtags: a language, then optional extended languages, a script, a
territory, variants and extensions, in this order. Case does not matter, and an underscore counts as
a hyphen. Some tags are obsolete and stand for another one, and a few irregular tags are languages
as a whole.

The shape of all subtags is checked before their order.
-/

namespace MdxLocalization

/-- What a subtag after the language stands for, in the order of their places. -/
inductive SubtagKind where
  | extlang
  | script
  | territory
  | variant
  | extension
  deriving DecidableEq, Repr

namespace SubtagKind

def place : SubtagKind → Nat
  | .extlang => 0
  | .script => 1
  | .territory => 2
  | .variant => 3
  | .extension => 4

def name : SubtagKind → String
  | .extlang => "extlang"
  | .script => "script"
  | .territory => "territory"
  | .variant => "variant"
  | .extension => "extension"

/-- What may stand at a place, in words. -/
def expectedAt (place : Nat) : String :=
  match (["extlang", "script", "territory", "variant", "extension"].drop place) with
  | [] => "end of string"
  | [kind] => kind ++ " or end of string"
  | kinds => ", ".intercalate kinds ++ ", or end of string"

end SubtagKind

/-- Why a text is no language tag. -/
inductive TagError where
  | malformedSubtag (subtag : Text)
  | noLanguage (subtag : Text)
  | invalidSubtag (subtag : Text)
  | unfinished (subtag : Text)
  | adjacentSingletons
  | privateUseAlone
  | notAscii
  | outOfPlace (kind : SubtagKind) (subtag : Text) (place : Nat)
  deriving DecidableEq, Repr

/-- The message of an error. -/
def TagError.message : TagError → Text
  | .malformedSubtag subtag =>
    Text.ofString "Expected 1-8 alphanumeric characters, got " ++ Text.quoted subtag
  | .noLanguage subtag => Text.ofString "Expected a language code, got " ++ Text.quoted subtag
  | .invalidSubtag subtag => Text.ofString "Expected a valid subtag, got " ++ Text.quoted subtag
  | .unfinished subtag =>
    Text.ofString "The subtag " ++ Text.quoted subtag ++
      Text.ofString " must be followed by something"
  | .adjacentSingletons =>
    Text.ofString "Tag extensions may not contain two singletons in a row"
  | .privateUseAlone => Text.ofString "'x' is not a language tag on its own"
  | .notAscii => Text.ofString "Language tags must be made of ASCII characters"
  | .outOfPlace kind subtag place =>
    Text.ofString "This " ++ Text.ofString kind.name ++ Text.ofString " subtag, " ++
      Text.quoted subtag ++ Text.ofString ", is out of place. Expected " ++
      Text.ofString (SubtagKind.expectedAt place) ++ ['.']

namespace LanguageTag

/-- The form of a tag in which tags are compared. -/
def normalize (tag : Text) : Text := tag.map fun c => if c = '_' then '-' else c.toLower

/-- Tags and languages that stand for another one. -/
def replacements : List (String × String) :=
  [("iw", "he"), ("in", "id"), ("ji", "yi"), ("jw", "jv"), ("mo", "ro"), ("sh", "sr-Latn"),
    ("eng", "en"), ("sgn-us", "ase"), ("zh-yue", "yue"), ("zh-min-nan", "nan"),
    ("i-klingon", "tlh"), ("en-gb-oed", "en-GB-oxendict"), ("root", "und")]

def replacement? (tag : Text) : Option Text :=
  (replacements.lookup (Text.toString tag)).map Text.ofString

/-- The irregular tags, which are languages as a whole. -/
def irregular : List String :=
  ["en-gb-oed", "i-ami", "i-bnn", "i-default", "i-enochian", "i-hak", "i-klingon", "i-lux",
    "i-mingo", "i-navajo", "i-pwn", "i-tao", "i-tay", "i-tsu", "sgn-be-fr", "sgn-be-nl",
    "sgn-ch-de", "art-lojban", "cel-gaulish", "no-bok", "no-nyn", "zh-guoyu", "zh-hakka",
    "zh-min", "zh-min-nan", "zh-xiang"]

/-- Whether a subtag has one to eight letters or digits; letters outside ASCII pass here. -/
def isWellShaped (subtag : Text) : Bool :=
  1 ≤ subtag.length && subtag.length ≤ 8 &&
    subtag.all fun c => c.isAlphanum || 128 ≤ c.toNat

/-- The kind that a subtag of at least two characters has by its shape. -/
def kindOf? (subtag : Text) : Option SubtagKind :=
  match subtag.length with
  | 2 => if subtag.all Char.isAlpha then some .territory else none
  | 3 =>
    if subtag.all Char.isAlpha then some .extlang
    else if subtag.all Char.isDigit then some .territory
    else none
  | 4 =>
    if subtag.all Char.isAlpha then some .script
    else if (subtag.take 1).all Char.isDigit then some .variant
    else none
  | _ => some .variant

/-- Reads the subtags after the language, of which the first may have the kind at `place` or a later
one. The result lists the extended languages. The budget bounds the number of steps. -/
def readSubtags : Nat → Nat → List Text → Except TagError (List Text)
  | 0, _, _ => .ok []
  | _ + 1, _, [] => .ok []
  | budget + 1, place, subtag :: rest =>
    if subtag.length = 1 then
      if rest.isEmpty then .error (.unfinished subtag)
      else if subtag = ['x'] then .ok []
      else
        let inner := rest.takeWhile fun s => s.length != 1
        if inner.isEmpty then .error .adjacentSingletons
        else readSubtags budget SubtagKind.extension.place (rest.drop inner.length)
    else
      match kindOf? subtag with
      | none => .error (.invalidSubtag subtag)
      | some .extlang =>
        if place ≤ SubtagKind.extlang.place then
          let extlangs := ((subtag :: rest).take 3).takeWhile fun s => s.length == 3
          (readSubtags budget SubtagKind.script.place ((subtag :: rest).drop extlangs.length)).map
            (extlangs ++ ·)
        else .error (.outOfPlace .extlang subtag place)
      | some kind =>
        if kind.place < place then .error (.outOfPlace kind subtag place)
        else
          let next := if kind = .variant then kind.place else kind.place + 1
          readSubtags budget next rest

/-- The language subtag of a normalised tag and its extended languages. -/
def parse (tag : Text) : Except TagError (Text × List Text) :=
  if irregular.contains (Text.toString tag) then .ok (tag, [])
  else
    let subtags := Text.splitOn '-' tag
    match subtags.find? fun s => !isWellShaped s with
    | some subtag => .error (.malformedSubtag subtag)
    | none =>
      if tag.any fun c => 128 ≤ c.toNat then .error .notAscii
      else
        match subtags with
        | [] => .ok ([], [])
        | first :: rest =>
          if first = ['x'] then
            if rest.isEmpty then .error .privateUseAlone else .ok (tag, [])
          else if 2 ≤ first.length && first.length ≤ 4 then
            (readSubtags (rest.length + 1) 0 rest).map fun extlangs => (first, extlangs)
          else .error (.noLanguage first)

def frontLanguage (tag : Text) : Option Text :=
  let language := tag.takeWhile (· != '-')
  if language = Text.ofString "und" then none else some language

/-- The language of a tag after replacement, which is absent for an undetermined language. An
extended language that has a replacement together with the language takes its place. -/
def language? (tag : Text) : Except TagError (Option Text) := do
  let tag := normalize ((replacement? (normalize tag)).getD tag)
  let (first, extlangs) ← parse tag
  let language :=
    if first = Text.ofString "und" then none
    else
      match replacement? first with
      | some other => frontLanguage other
      | none => some first
  return extlangs.foldl
    (fun language extlang =>
      match language with
      | none => none
      | some l =>
        match replacement? (l ++ '-' :: extlang) with
        | some other => frontLanguage other <|> language
        | none => language)
    language

/-- The short form of a locale: its language, or its first two characters when it has none. -/
def languageCode (locale : Text) : Except TagError Text :=
  (language? locale).map fun language => language.getD (locale.take 2)

end LanguageTag

/-- The failure of a code in a list of language codes. -/
inductive LanguageCodeReason where
  | tag (error : TagError)
  /-- The language is missing or has no two or three letters. -/
  | noShortLanguage
  deriving DecidableEq, Repr

/-- A code that is no language code, and why. -/
structure LanguageCodeError where
  code : Text
  reason : LanguageCodeReason
  deriving DecidableEq, Repr

namespace LanguageCodeError

/-- The message of an error. -/
def message (e : LanguageCodeError) : Text :=
  let reason :=
    match e.reason with
    | .tag error => error.message
    | .noShortLanguage =>
      Text.ofString "Tag '" ++ e.code ++
        Text.ofString "' lacks a valid 2-3 letter language subtag."
  Text.ofString "提供的语言代码 '" ++ e.code ++ Text.ofString "' 格式无效。原因: " ++ reason

end LanguageCodeError

namespace LanguageTag

/-- Checks that a code is a tag whose language has two or three letters. -/
def checkCode (code : Text) : Except LanguageCodeError Unit :=
  match language? code with
  | .error error => .error ⟨code, .tag error⟩
  | .ok none => .error ⟨code, .noShortLanguage⟩
  | .ok (some language) =>
    if (language.length = 2 || language.length = 3) && language.all Char.isAlpha then .ok ()
    else .error ⟨code, .noShortLanguage⟩

def checkCodes (codes : List Text) : Except LanguageCodeError Unit := codes.forM checkCode

end LanguageTag

end MdxLocalization
