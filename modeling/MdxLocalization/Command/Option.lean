import MdxLocalization.Text.Basic

/-!
# Options and operands

The words of a command line are options, their values, and operands. A long option starts with two
dashes and may have its value after an equals sign; short options start with one dash, may be
joined, and take the rest of their word as value, if there is one. Two dashes alone end the options.
Where operands come last, the first operand ends them as well.
-/

namespace MdxLocalization.Command

/-- An option of a command: its long name and its letter, if it has them, and whether it takes a
value. -/
structure OptionSpec (ι : Type) where
  option : ι
  long : Option String := none
  letter : Option Char := none
  takesValue : Bool := false

/-- What is wrong with a command line. -/
inductive UsageError where
  | unknownOption (name : Text)
  | missingValue
  | surplusValue (name : Text)
  | missingOperand
  | surplusOperand
  | missingCommand
  | unknownCommand (name : Text)
  /-- A path that does not lead to what the command needs. -/
  | badPath (path : Text)
  deriving DecidableEq, Repr

/-- The words for what is wrong. -/
def UsageError.message : UsageError → Text
  | .unknownOption name => Text.ofString "No such option: " ++ name
  | .missingValue => Text.ofString "An option requires an argument."
  | .surplusValue name => Text.ofString "Option does not take a value: " ++ name
  | .missingOperand => Text.ofString "Missing argument."
  | .surplusOperand => Text.ofString "Got unexpected extra argument."
  | .missingCommand => Text.ofString "Missing command."
  | .unknownCommand name => Text.ofString "No such command: " ++ name
  | .badPath path => Text.ofString "Invalid path: " ++ path

/-- Options with their values, in order, and operands. -/
structure Words (ι : Type) where
  options : List (ι × Text) := []
  operands : List Text := []

namespace Words

variable {ι : Type}

/-- What the options of a word yield: options with values, and perhaps one that still waits for its
value. -/
structure Found (ι : Type) where
  options : List (ι × Text) := []
  waiting : Option ι := none

/-- Reads a word of joined letters. -/
def letters (specs : List (OptionSpec ι)) : Text → Except UsageError (Found ι)
  | [] => .ok {}
  | c :: rest =>
    match specs.find? fun s => s.letter = some c with
    | none => .error (.unknownOption ['-', c])
    | some s =>
      if s.takesValue then
        .ok (if rest.isEmpty then { waiting := some s.option }
          else { options := [(s.option, rest)] })
      else
        (letters specs rest).map fun found =>
          { found with options := (s.option, []) :: found.options }

/-- Reads a word that starts with a dash. -/
def optionWord (specs : List (OptionSpec ι)) (word : Text) : Except UsageError (Found ι) :=
  let name := word.takeWhile (· != '=')
  let value := word.drop (name.length + 1)
  let hasValue := name.length < word.length
  match specs.find? fun s => s.long.any fun long => '-' :: '-' :: Text.ofString long = name with
  | some s =>
    if s.takesValue then
      .ok (if hasValue then { options := [(s.option, value)] } else { waiting := some s.option })
    else if hasValue then .error (.surplusValue name)
    else .ok { options := [(s.option, [])] }
  | none =>
    match word with
    | '-' :: '-' :: _ => .error (.unknownOption name)
    | _ => letters specs (word.drop 1)

/-- Reads the words of a command line. An option that waits for its value takes the next word, even
one that starts with a dash. -/
def read (specs : List (OptionSpec ι)) (operandsLast : Bool) (waiting : Option ι) :
    List Text → Except UsageError (Words ι)
  | [] => if waiting.isSome then .error .missingValue else .ok {}
  | word :: rest =>
    match waiting with
    | some option =>
      (read specs operandsLast none rest).map fun words =>
        { words with options := (option, word) :: words.options }
    | none =>
      if word = ['-', '-'] then .ok { operands := rest }
      else if word.head? = some '-' && word.length > 1 then
        match optionWord specs word with
        | .error e => .error e
        | .ok found =>
          (read specs operandsLast found.waiting rest).map fun words =>
            { words with options := found.options ++ words.options }
      else if operandsLast then .ok { operands := word :: rest }
      else
        (read specs operandsLast none rest).map fun words =>
          { words with operands := word :: words.operands }

/-- The value of an option; the last one counts. -/
def valueOf? [BEq ι] (words : Words ι) (option : ι) : Option Text :=
  words.options.reverse.lookup option

end Words

end MdxLocalization.Command
