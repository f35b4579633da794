import MdxLocalization.Inline.Scan

/-!
# Steps of the inline scanner

The scanner either collects a piece of plain text or cuts off a construct. A piece is a plain
character, a backslash with the character behind it, or a run of backticks that opens no code span;
so an escape is never divided between two pieces. `scanFrom_induction` is the induction over a text
that follows these steps.
-/

namespace MdxLocalization

/-- A run of one character, as counted, is that character over and over. -/
theorem Text.take_countWhile_eq (c : Char) (t : Text) :
    t.take (countWhile (· == c) t) = List.replicate (countWhile (· == c) t) c := by
  induction t with
  | nil =>
      rfl
  | cons d rest hypothesis =>
      rw [countWhile]
      split
      · rename_i same
        rw [List.take_succ_cons, hypothesis, List.replicate_succ, eq_of_beq same]
      · rfl

/-- A text that does not end inside an escape: read from its start, no backslash stands alone. -/
inductive Text.Whole : Text → Prop where
  | nil : Whole []
  | escape (c : Char) {rest : Text} (later : Whole rest) : Whole ('\\' :: c :: rest)
  | char {c : Char} {rest : Text} (plain : c ≠ '\\') (later : Whole rest) : Whole (c :: rest)

namespace Text.Whole

theorem singleton {c : Char} (plain : c ≠ '\\') : Whole [c] := .char plain .nil

theorem append {t other : Text} (first : Whole t) (second : Whole other) : Whole (t ++ other) := by
  induction first with
  | nil =>
      exact second
  | escape c later hypothesis =>
      exact .escape c hypothesis
  | char plain later hypothesis =>
      exact .char plain hypothesis

theorem of_not_mem {t : Text} (free : '\\' ∉ t) : Whole t := by
  induction t with
  | nil =>
      exact .nil
  | cons c rest hypothesis =>
      rw [List.mem_cons, not_or] at free
      exact .char (Ne.symm free.1) (hypothesis free.2)

theorem tail {c : Char} {rest : Text} (plain : c ≠ '\\') (whole : Whole (c :: rest)) :
    Whole rest := by
  generalize same : c :: rest = t at whole
  cases whole with
  | nil =>
      cases same
  | escape d later =>
      exact absurd (List.cons.inj same).1 plain
  | char _ later =>
      rwa [(List.cons.inj same).2]

theorem of_append {t other : Text} (first : Whole t) (both : Whole (t ++ other)) : Whole other := by
  induction first with
  | nil =>
      exact both
  | escape c later hypothesis =>
      cases both with
      | escape _ both =>
          exact hypothesis both
      | char plain both =>
          exact absurd rfl plain
  | char plain later hypothesis =>
      exact hypothesis (both.tail plain)

/-- No escape ends behind a character that is no backslash, unless it ends with that character. -/
theorem concat (t : Text) {c : Char} (plain : c ≠ '\\') : Whole (t ++ [c]) := by
  match t with
  | [] =>
      exact singleton plain
  | ['\\'] =>
      exact .escape c .nil
  | '\\' :: d :: rest =>
      exact .escape d (concat rest plain)
  | d :: rest =>
      by_cases escape : d = '\\'
      · subst escape
        cases rest with
        | nil =>
            exact .escape c .nil
        | cons d rest =>
            exact .escape d (concat rest plain)
      · exact .char escape (concat rest plain)

end Text.Whole

namespace Inline

variable {position : Nat} {pending rest : Text}

attribute [local simp] scanFrom

theorem scanFrom_nil : scanFrom position pending [] = flush position pending := by
  simp

/-! ### Plain text -/

theorem scanFrom_char {c : Char} (noEscape : c ≠ '\\') (noTick : c ≠ tick) (noMark : c ≠ '!')
    (noBracket : c ≠ '[') :
    scanFrom position pending (c :: rest) = scanFrom (position + 1) (c :: pending) rest := by
  rw [scanFrom.eq_def]
  dsimp only
  rw [if_neg noEscape, if_neg noTick, if_neg noMark, if_neg noBracket]

theorem scanFrom_backslash_end :
    scanFrom position pending ['\\'] = flush (position + 1) ('\\' :: pending) := by
  rw [scanFrom, if_pos rfl]
  exact scanFrom_nil

/-- A backslash takes the next character along, also when it does not escape it: then the character
begins no construct. -/
theorem scanFrom_escape (d : Char) :
    scanFrom position pending ('\\' :: d :: rest) =
      scanFrom (position + 2) (d :: '\\' :: pending) rest := by
  rw [scanFrom, if_pos rfl]
  by_cases escapable : isEscapable d = true
  · simp only [escapable, if_true]
  · have noMark (c : Char) (mark : isEscapable c = true) : d ≠ c := by
      rintro rfl
      exact escapable mark
    simp only [escapable]
    exact scanFrom_char (noMark _ (by decide)) (noMark _ (by decide)) (noMark _ (by decide))
      (noMark _ (by decide))

/-- The backticks of a run that opens no code span are plain. -/
theorem scanFrom_ticks (absent : codeSpan? (tick :: rest) = none) :
    scanFrom position pending (tick :: rest) =
      scanFrom (position + 1 + Text.countWhile (· == tick) rest)
        (List.replicate (Text.countWhile (· == tick) rest + 1) tick ++ pending)
        (rest.drop (Text.countWhile (· == tick) rest)) := by
  rw [scanFrom.eq_def]
  dsimp only
  rw [if_neg (by decide), if_pos rfl, absent]

/-! ### Constructs -/

/-- The link behind an exclamation mark, which makes it an image. -/
def imageLink? (rest : Text) : Option LinkSyntax :=
  if Text.startsWith rest ['['] then link? rest else none

theorem link?_of_imageLink? {parts : LinkSyntax} (found : imageLink? rest = some parts) :
    link? rest = some parts := by
  unfold imageLink? at found
  split at found
  · exact found
  · cases found

theorem exists_of_imageLink? {parts : LinkSyntax} (found : imageLink? rest = some parts) :
    ∃ inner, rest = '[' :: inner := by
  unfold imageLink? at found
  split at found
  · rename_i starts
    obtain ⟨inner, same⟩ := List.isPrefixOf_iff_prefix.mp starts
    exact ⟨inner, same.symm⟩
  · cases found

theorem scanFrom_code {value : Text} {length : Nat}
    (found : codeSpan? (tick :: rest) = some (value, length)) :
    scanFrom position pending (tick :: rest) =
      flush position pending ++ codeNode position value length ::
        scanFrom (position + length) [] (rest.drop (length - 1)) := by
  rw [scanFrom.eq_def]
  dsimp only
  rw [if_neg (by decide), if_pos rfl, found]

theorem scanFrom_image {parts : LinkSyntax} (found : imageLink? rest = some parts) :
    scanFrom position pending ('!' :: rest) =
      flush position pending ++
        imageNode position (rest.tail.take parts.labelLength) parts ::
          scanFrom (position + 1 + parts.length) [] (rest.drop parts.length) := by
  rw [scanFrom.eq_def]
  dsimp only
  rw [if_neg (by decide), if_neg (by decide), if_pos rfl, ← imageLink?, found]

theorem scanFrom_link {parts : LinkSyntax} (found : link? ('[' :: rest) = some parts) :
    scanFrom position pending ('[' :: rest) =
      flush position pending ++
        .mk (linkInfo position parts)
          (scanFrom (position + 1) [] (rest.take parts.labelLength)) ::
        scanFrom (position + parts.length) [] (rest.drop (parts.length - 1)) := by
  rw [scanFrom.eq_def]
  dsimp only
  rw [if_neg (by decide), if_neg (by decide), if_neg (by decide), if_pos rfl, found]

theorem scanFrom_noImage (absent : imageLink? rest = none) :
    scanFrom position pending ('!' :: rest) = scanFrom (position + 1) ('!' :: pending) rest := by
  rw [scanFrom.eq_def]
  dsimp only
  rw [if_neg (by decide), if_neg (by decide), if_pos rfl, ← imageLink?, absent]

theorem scanFrom_noLink (absent : link? ('[' :: rest) = none) :
    scanFrom position pending ('[' :: rest) = scanFrom (position + 1) ('[' :: pending) rest := by
  rw [scanFrom.eq_def]
  dsimp only
  rw [if_neg (by decide), if_neg (by decide), if_neg (by decide), if_pos rfl, absent]

/-! ### Regions -/

theorem scan_eq_ok {source : Text} {start stop : Nat} (within : stop ≤ source.length) :
    scan source start stop = .ok (scanFrom start [] (Text.slice source start stop)) := by
  rw [scan, if_neg (by simp [Nat.not_lt.mpr within])]

theorem eq_scanFrom_of_scan {source : Text} {start stop : Nat} {nodes : List Node}
    (scanned : scan source start stop = .ok nodes) :
    nodes = scanFrom start [] (Text.slice source start stop) := by
  unfold scan at scanned
  split at scanned
  · cases scanned
  · exact (Except.ok.inj scanned).symm

/-! ### Induction -/

/-- A piece that the scanner collects in front of a text, wherever it stands. -/
def Collects (piece rest : Text) : Prop :=
  ∀ position pending, scanFrom position pending (piece ++ rest) =
    scanFrom (position + piece.length) (piece.reverse ++ pending) rest

/-- What holds of a text when it holds behind every piece and every construct that the scanner may
find at the start, and for the label of a link, holds of every text. -/
@[elab_as_elim]
theorem scanFrom_induction {motive : Text → Prop} (nil : motive []) (backslash : motive ['\\'])
    (collects : ∀ piece rest, piece.Whole → Collects piece rest → motive rest →
      motive (piece ++ rest))
    (code : ∀ rest value length, codeSpan? (tick :: rest) = some (value, length) →
      motive (rest.drop (length - 1)) → motive (tick :: rest))
    (image : ∀ rest parts, imageLink? rest = some parts → motive (rest.drop parts.length) →
      motive ('!' :: rest))
    (link : ∀ rest parts, link? ('[' :: rest) = some parts →
      motive (rest.take parts.labelLength) → motive (rest.drop (parts.length - 1)) →
      motive ('[' :: rest))
    (t : Text) : motive t := by
  induction size : t.length using Nat.strongRecOn generalizing t with
  | ind n hypothesis =>
      subst size
      have shorter (rest : Text) (less : rest.length < t.length) : motive rest :=
        hypothesis _ less rest rfl
      have single (c : Char) (rest : Text) (same : t = c :: rest) (plain : c ≠ '\\')
          (collected : ∀ position pending,
            scanFrom position pending (c :: rest) = scanFrom (position + 1) (c :: pending) rest) :
          motive t := by
        subst same
        exact collects [c] rest (.singleton plain) collected (shorter _ (by simp))
      cases t with
      | nil =>
          exact nil
      | cons c rest =>
          have behind (n : Nat) : motive (rest.drop n) := by
            refine shorter _ ?_
            rw [List.length_drop, List.length_cons]
            omega
          have inside (n : Nat) : motive (rest.take n) := by
            refine shorter _ ?_
            rw [List.length_take, List.length_cons]
            omega
          by_cases escape : c = '\\'
          · subst escape
            cases rest with
            | nil =>
                exact backslash
            | cons d rest =>
                exact collects ['\\', d] rest (.escape d .nil) (fun _ _ => scanFrom_escape d)
                  (shorter _ (by simp only [List.length_cons]; omega))
          by_cases ticks : c = tick
          · subst ticks
            cases found : codeSpan? (tick :: rest) with
            | some span =>
                exact code rest span.1 span.2 found (behind _)
            | none =>
                have run : tick :: rest =
                    List.replicate (Text.countWhile (· == tick) rest + 1) tick ++
                      rest.drop (Text.countWhile (· == tick) rest) := by
                  rw [List.replicate_succ, ← Text.take_countWhile_eq, List.cons_append,
                    List.take_append_drop]
                rw [run]
                refine collects _ _ (.of_not_mem ?_) ?_ (behind _)
                · simp [tick]
                · intro position pending
                  rw [← run, scanFrom_ticks found, List.length_replicate, List.reverse_replicate,
                    Nat.add_assoc, Nat.add_comm 1]
          by_cases mark : c = '!'
          · subst mark
            cases found : imageLink? rest with
            | some parts =>
                exact image rest parts found (behind _)
            | none =>
                exact single _ _ rfl escape fun _ _ => scanFrom_noImage found
          by_cases bracket : c = '['
          · subst bracket
            cases found : link? ('[' :: rest) with
            | some parts =>
                exact link rest parts found (inside _) (behind _)
            | none =>
                exact single _ _ rfl escape fun _ _ => scanFrom_noLink found
          exact single _ _ rfl escape fun _ _ => scanFrom_char escape ticks mark bracket

end Inline

end MdxLocalization
