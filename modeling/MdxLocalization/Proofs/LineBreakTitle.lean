import MdxLocalization.Extract.Title
import MdxLocalization.Proofs.LineBreakSurvey
import MdxLocalization.Proofs.TextPieces

/-!
# The title with the other kind of line breaks

Front matter is cut into lines at its line feeds, so that a carriage return before a line feed is
the last character of its line. The value of a title loses it like a blank, as long as there is a
value: where nothing but blanks stands behind the colon, the carriage return becomes the title.
-/

namespace MdxLocalization

namespace Extract

open Text (splitOn)

/-! ### The title on a line -/

/-- Whether a character is skipped behind the colon. -/
def isTitleBlank (c : Char) : Bool := c == ' ' || c == '\t'

/-- A line behind whose `title:` something stands besides blanks. -/
def NamesTitle (line : Text) : Prop := ∃ c ∈ line.drop 6, isTitleBlank c = false

instance (line : Text) : Decidable (NamesTitle line) :=
  List.decidableBEx (fun c => isTitleBlank c = false) (line.drop 6)

/-- The title on a line, by what stands behind `title:`. -/
theorem titleOnLine?_eq (body : Text) :
    titleOnLine? (Text.ofString "title:" ++ body) =
      match body.dropWhile isTitleBlank with
      | [] =>
        if Text.countWhile isTitleBlank body = 0 then none
        else some (6 + Text.countWhile isTitleBlank body - 1,
          body.drop (Text.countWhile isTitleBlank body - 1))
      | c :: rest =>
        some (6 + Text.countWhile isTitleBlank body,
          c :: Text.dropEndWhile (fun c => isTitleBlank c || c == '\r') rest) := by
  have starts : Text.startsWith (Text.ofString "title:" ++ body) (Text.ofString "title:") = true :=
    List.isPrefixOf_iff_prefix.mpr (List.prefix_append _ _)
  rw [titleOnLine?, if_pos starts, Text.dropWhile_eq_drop_countWhile]
  rfl

theorem titleOnLine?_of_not_startsWith {line : Text}
    (other : Text.startsWith line (Text.ofString "title:") = false) : titleOnLine? line = none := by
  rw [titleOnLine?, other]
  rfl

/-- A line that names a title names the same one when it ends with a carriage return. -/
theorem titleOnLine?_return {line : Text}
    (named : Text.startsWith line (Text.ofString "title:") = true → NamesTitle line) :
    titleOnLine? (line ++ ['\r']) = titleOnLine? line := by
  cases starts : Text.startsWith line (Text.ofString "title:") with
  | false =>
      have startsToo : Text.startsWith (line ++ ['\r']) (Text.ofString "title:") = false := by
        rw [Bool.eq_false_iff] at starts ⊢
        intro part
        rcases List.prefix_concat_iff.mp (List.isPrefixOf_iff_prefix.mp part) with same | part
        · have member : '\r' ∈ Text.ofString "title:" := by simp [same]
          exact absurd member (by decide)
        · exact starts (List.isPrefixOf_iff_prefix.mpr part)
      rw [titleOnLine?_of_not_startsWith starts, titleOnLine?_of_not_startsWith startsToo]
  | true =>
      obtain ⟨c, inBody, filled⟩ := named starts
      obtain ⟨body, rfl⟩ := List.isPrefixOf_iff_prefix.mp starts
      change c ∈ body at inBody
      cases behind : body.dropWhile isTitleBlank with
      | nil =>
          rw [List.dropWhile_eq_nil_iff.mp behind c inBody] at filled
          cases filled
      | cons d rest =>
          have further : (body ++ ['\r']).dropWhile isTitleBlank = d :: (rest ++ ['\r']) := by
            rw [List.dropWhile_append, behind]
            rfl
          have lead := Text.countWhile_le_length isTitleBlank body
          have lead' := Text.countWhile_le_length isTitleBlank (body ++ ['\r'])
          have left := congrArg List.length behind
          have left' := congrArg List.length further
          rw [Text.dropWhile_eq_drop_countWhile, List.length_drop] at left left'
          simp only [List.length_append, List.length_cons, List.length_nil] at lead' left left'
          have counted : Text.countWhile isTitleBlank (body ++ ['\r']) =
              Text.countWhile isTitleBlank body := by
            omega
          rw [List.append_assoc, titleOnLine?_eq, titleOnLine?_eq, behind, further, counted]
          dsimp only
          rw [Text.dropEndWhile_concat, if_pos (by decide)]

theorem titleOnLine?_within {line value : Text} {start : Nat}
    (found : titleOnLine? line = some (start, value)) : start + value.length ≤ line.length := by
  cases starts : Text.startsWith line (Text.ofString "title:") with
  | false =>
      rw [titleOnLine?_of_not_startsWith starts] at found
      cases found
  | true =>
      obtain ⟨body, rfl⟩ := List.isPrefixOf_iff_prefix.mp starts
      have size : (Text.ofString "title:").length = 6 := rfl
      have lead := Text.countWhile_le_length isTitleBlank body
      rw [titleOnLine?_eq, Text.dropWhile_eq_drop_countWhile] at found
      rw [List.length_append, size]
      split at found
      · rename_i blank
        have all := congrArg List.length blank
        rw [List.length_drop, List.length_nil] at all
        split at found
        · cases found
        · cases found
          rw [List.length_drop]
          omega
      · rename_i c rest behind
        have all := congrArg List.length behind
        have shorter := Text.length_dropEndWhile_le (fun c => isTitleBlank c || c == '\r') rest
        rw [List.length_drop, List.length_cons] at all
        cases found
        rw [List.length_cons]
        omega

/-! ### The title in a block -/

/-- The first line for a title among those that end with a break, if any, has a value. -/
def NamesTitleFirst (lines : List Text) : Prop :=
  ∀ line ∈ lines.dropLast.find? (Text.startsWith · (Text.ofString "title:")), NamesTitle line

instance (lines : List Text) : Decidable (NamesTitleFirst lines) :=
  inferInstanceAs (Decidable (∀ line ∈ lines.dropLast.find? _, NamesTitle line))

/-- The place of a piece of a text in which no break stands. -/
def IsPiece (whole : Text) (found : Nat × Text) : Prop :=
  ∀ k ≤ found.2.length, found.1 + k ≤ whole.length ∧
    Text.moved whole (found.1 + k) = Text.moved whole found.1 + k

theorem isPiece_of_line (before after : Text) {line value : Text} {start : Nat}
    (noBreak : '\n' ∉ line)
    (found : titleOnLine? line = some (start, value)) :
    IsPiece (before ++ (line ++ after)) (before.length + start, value) ∧
      Text.moved (before ++ (line ++ after)) (before.length + start) =
        (Text.addReturns before).length + start := by
  have inLine := titleOnLine?_within found
  have place : ∀ n ≤ line.length,
      Text.moved (before ++ (line ++ after)) (before.length + n) =
        (Text.addReturns before).length + n := by
    intro n inside
    rw [Text.moved_add_of_not_mem, Text.moved_eq_length (by simp), List.take_left]
    rw [List.drop_left, List.take_append_of_le_length inside]
    exact fun member => noBreak (List.mem_of_mem_take member)
  refine ⟨fun k inside => ⟨?_, ?_⟩, place start (by omega)⟩
  · dsimp only at inside ⊢
    rw [List.length_append, List.length_append]
    omega
  · dsimp only at inside ⊢
    rw [Nat.add_assoc, place _ (by omega), place _ (by omega), Nat.add_assoc]

theorem exists_titleOnLine? {line : Text}
    (starts : Text.startsWith line (Text.ofString "title:") = true) (named : NamesTitle line) :
    ∃ found, titleOnLine? line = some found := by
  obtain ⟨c, inBody, filled⟩ := named
  obtain ⟨body, rfl⟩ := List.isPrefixOf_iff_prefix.mp starts
  change c ∈ body at inBody
  rw [titleOnLine?_eq]
  cases behind : body.dropWhile isTitleBlank with
  | nil =>
      rw [List.dropWhile_eq_nil_iff.mp behind c inBody] at filled
      cases filled
  | cons d rest =>
      exact ⟨_, rfl⟩

theorem namesTitleFirst_cons {line : Text} {lines : List Text} (filled : lines ≠ [])
    (named : NamesTitleFirst (line :: lines)) :
    (Text.startsWith line (Text.ofString "title:") = true → NamesTitle line) ∧
      (titleOnLine? line = none → NamesTitleFirst lines) := by
  unfold NamesTitleFirst at named
  rw [List.dropLast_cons_of_ne_nil filled, List.find?_cons] at named
  cases starts : Text.startsWith line (Text.ofString "title:") with
  | true =>
      rw [starts] at named
      have here := named line rfl
      refine ⟨fun _ => here, fun absent => ?_⟩
      obtain ⟨found, present⟩ := exists_titleOnLine? starts here
      rw [absent] at present
      cases present
  | false =>
      rw [starts] at named
      exact ⟨fun same => absurd same (by decide), fun _ => named⟩

/-- The lines of a block, from one of them on, name the same title in the two texts. -/
theorem titleInLines?_addReturns {whole before t : Text} (parts : whole = before ++ t)
    (named : NamesTitleFirst (splitOn '\n' t)) :
    titleInLines? (Text.addReturns before).length (splitOn '\n' (Text.addReturns t)) =
        (titleInLines? before.length (splitOn '\n' t)).map
          (fun found => (Text.moved whole found.1, found.2)) ∧
      ∀ found ∈ titleInLines? before.length (splitOn '\n' t), IsPiece whole found := by
  -- Each step takes a line away together with its break.
  induction size : t.length using Nat.strong_induction_on generalizing before t with
  | _ n hypothesis =>
      subst size
      by_cases broken : '\n' ∈ t
      · obtain ⟨line, rest, rfl, noBreak⟩ := List.eq_append_cons_of_mem broken
        have grown : Text.addReturns (line ++ '\n' :: rest) =
            (line ++ ['\r']) ++ '\n' :: Text.addReturns rest := by
          rw [Text.addReturns_append, Text.addReturns_eq_self noBreak, Text.addReturns_break,
            List.append_assoc]
          rfl
        have noBreak' : '\n' ∉ line ++ ['\r'] := by simp [noBreak]
        rw [Text.splitOn_append noBreak] at named ⊢
        obtain ⟨here, further⟩ := namesTitleFirst_cons (Text.splitOn_ne_nil '\n' rest) named
        rw [grown, Text.splitOn_append noBreak', titleInLines?, titleInLines?,
          titleOnLine?_return here]
        cases found : titleOnLine? line with
        | some result =>
            obtain ⟨start, value⟩ := result
            obtain ⟨piece, moved⟩ := isPiece_of_line before ('\n' :: rest) noBreak found
            rw [← parts] at piece moved
            dsimp only
            rw [Option.map_some, moved]
            refine ⟨rfl, ?_⟩
            rintro _ ⟨⟩
            exact piece
        | none =>
            have behind : whole = (before ++ (line ++ ['\n'])) ++ rest := by
              rw [parts]
              simp
            have later := hypothesis rest.length (by simp; omega) behind (further found) rfl
            rw [Text.addReturns_append, Text.addReturns_append, Text.addReturns_eq_self noBreak,
              List.length_append, List.length_append, List.length_append, List.length_append]
              at later
            dsimp only
            rw [List.length_append]
            exact later
      · rw [Text.addReturns_eq_self broken, Text.splitOn_of_not_mem broken, titleInLines?,
          titleInLines?, titleInLines?, titleInLines?]
        cases found : titleOnLine? t with
        | none =>
            exact ⟨rfl, by simp⟩
        | some result =>
            obtain ⟨start, value⟩ := result
            obtain ⟨piece, moved⟩ := isPiece_of_line before [] broken found
            rw [List.append_nil, ← parts] at piece moved
            dsimp only
            rw [Option.map_some, moved]
            refine ⟨rfl, ?_⟩
            rintro _ ⟨⟩
            exact piece

/-! ### Front matter -/

/-- The first line for a title in the front matter of a document has a value, unless it is the last
line there. -/
def TitleFilled (root : Node) : Prop :=
  ∀ block ∈ root.childOfKind? .yaml, NamesTitleFirst (splitOn '\n' (block.info.value.getD []))

instance (root : Node) : Decidable (TitleFilled root) :=
  inferInstanceAs (Decidable (∀ block ∈ root.childOfKind? .yaml, NamesTitleFirst _))

/-- Taking quotes away depends on the value only. -/
theorem exists_unquote (value : Text) :
    ∃ lead inner, lead + inner.length ≤ value.length ∧
      ∀ start, unquote start value = (start + lead, inner) := by
  unfold unquote
  cases value.head? with
  | none =>
      exact ⟨0, value, by omega, fun _ => rfl⟩
  | some first =>
      cases value.getLast? with
      | none =>
          exact ⟨0, value, by omega, fun _ => rfl⟩
      | some last =>
          dsimp only
          split
          · refine ⟨1, (value.drop 1).dropLast, ?_, fun _ => rfl⟩
            rename_i quoted
            rw [Bool.and_eq_true, Bool.and_eq_true, decide_eq_true_eq] at quoted
            rw [List.length_dropLast, List.length_drop]
            omega
          · exact ⟨0, value, by omega, fun _ => rfl⟩

theorem childOfKind?_mirrors {source : Text} {root root' : Node} (kind : NodeKind)
    (all : MirrorAll source root.children root'.children) :
    Option.Rel (Node.Mirrors source) (root.childOfKind? kind) (root'.childOfKind? kind) := by
  unfold Node.childOfKind?
  generalize root.children = nodes, root'.children = nodes' at all
  induction all with
  | nil =>
      exact .none
  | @cons node node' rest rest' first others hypothesis =>
      have same : node'.kind = node.kind := first.own.kind
      rw [List.find?_cons, List.find?_cons, same]
      split
      · exact .some first
      · exact hypothesis

/-- Where a part of the title of a block comes to lie. -/
theorem moved_titleSpan {source text : Text} {start stop n lead length : Nat}
    (piece : IsPiece (Text.slice source start stop) (n, text))
    (fits : lead + length ≤ text.length) :
    (⟨(Text.moved source start : Nat) + (Text.moved (Text.slice source start stop) n + lead : Nat),
        (Text.moved source start : Nat) +
          (Text.moved (Text.slice source start stop) n + lead : Nat) + (length : Nat)⟩ : Span) =
      Span.moved source ⟨(start : Nat) + (n + lead : Nat),
        (start : Nat) + (n + lead : Nat) + (length : Nat)⟩ := by
  obtain ⟨firstInside, first⟩ := piece lead (by dsimp only; omega)
  obtain ⟨lastInside, last⟩ := piece (lead + length) fits
  have places := Span.moved_ofNats source (start + (n + lead)) (start + (n + (lead + length)))
  rw [Text.moved_add_slice firstInside, Text.moved_add_slice lastInside, first, last] at places
  simp only [Span.ofNats, Nat.cast_add, add_assoc] at places ⊢
  exact places.symm

theorem frontMatterTitle_corresponds {s : Settings} {source : Text} {root root' : Node}
    (all : MirrorAll source root.children root'.children) (filled : TitleFilled root) :
    Corresponds s
      (fun title title' => List.Forall₂ (Change.Mirrors source) title.changes title'.changes)
      ((frontMatterTitle root).mapError .missingPosition)
      ((frontMatterTitle root').mapError .missingPosition) := by
  have blocks := childOfKind?_mirrors .yaml all
  unfold frontMatterTitle
  cases isBlock : root.childOfKind? .yaml with
  | none =>
      rw [isBlock] at blocks
      rw [eq_none_of_rel blocks]
      exact .nil
  | some block =>
      rw [isBlock] at blocks
      obtain ⟨block', isBlock', mirrors⟩ := exists_of_rel_some blocks
      have own := mirrors.own
      have kind : block.kind = .yaml := by
        simpa using List.find?_some isBlock
      obtain ⟨start, stop, value, data, value', data'⟩ := own.frontMatter kind
      have named := filled block isBlock
      rw [value] at named
      have titles :
          titleInLines? 0 (splitOn '\n' (Text.addReturns (Text.slice source start stop))) =
            (titleInLines? 0 (splitOn '\n' (Text.slice source start stop))).map
              (fun found => (Text.moved (Text.slice source start stop) found.1, found.2)) ∧
          ∀ found ∈ titleInLines? 0 (splitOn '\n' (Text.slice source start stop)),
            IsPiece (Text.slice source start stop) found :=
        titleInLines?_addReturns (List.nil_append _).symm named
      have recorded : block.info.dataField? "valueStart" = some (.integer start) := by
        rw [NodeInfo.dataField?, data]
        rfl
      have recorded' : block'.info.dataField? "valueStart" =
          some (.integer (Text.moved source start : Nat)) := by
        rw [NodeInfo.dataField?, data']
        rfl
      rw [isBlock']
      dsimp only
      rw [value, value', recorded, recorded', Option.getD_some, Option.getD_some, titles.1]
      cases found : titleInLines? 0 (splitOn '\n' (Text.slice source start stop)) with
      | none =>
          exact .nil
      | some result =>
          obtain ⟨n, text⟩ := result
          obtain ⟨lead, inner, fits, unquoted⟩ := exists_unquote text
          have piece := titles.2 _ found
          dsimp only [Option.map_some]
          rw [unquoted, unquoted]
          dsimp only
          split
          · exact .nil
          · unfold NodeInfo.spanOrFail
            rw [own.span, own.kind]
            cases block.info.span with
            | none =>
                exact rfl
            | some span =>
                exact .cons ⟨rfl, rfl, moved_titleSpan piece fits⟩ .nil

end Extract

end MdxLocalization
