import MdxLocalization.Proofs.LineCuts
import MdxLocalization.Proofs.ReadingOrder

/-!
# The lines that headings and tables are read from

A rule for blocks does not see the lines of a text but what the blocks around it have left of them:
a block quote and a list item take their marks away, and a line may merely continue a paragraph.
`Preserved` says which properties of lines survive this. Where all lines of a scope have such a
property, so has every line that a heading with number signs or a row of a table is read from, at
any depth.

The other rules take whatever lines they find, so all that has to be said of them is that they give
no such heading and no table.
-/

namespace MdxLocalization.Markdown

namespace Line

theorem after_eq (l : Line) (position : Nat) : l.after position = l.chars.toList.drop position := by
  rw [after, slice, stop, Array.toList_extract, List.extract_eq_take_drop, ← Array.length_toList,
    ← List.length_drop, List.take_length]

theorem content_eq (l : Line) : l.content = l.chars.toList.drop l.first := after_eq l l.first

theorem head?_content (l : Line) : l.content.head? = l.chars[l.first]? := by
  rw [content_eq, List.head?_drop, Array.getElem?_toList]

end Line

/-- A property of lines and their numbers that entering blocks keeps. -/
structure Preserved (seen : Nat → Line → Prop) : Prop where
  absent : ∀ i, seen i Line.absent
  quote : ∀ i l, seen i l → l.chars[l.first]? = some '>' → seen i l.enterQuote
  continuation : ∀ i l, seen i l → seen i l.asContinuation
  item : ∀ i l mark, seen i l → ListMark.read? l.content = some mark →
    seen i (Scope.enterItem l mark).1

/-- What a block itself takes from lines: its text if it is a heading with number signs, and its
cells if it is a table. -/
def Block.Taken (seen : Nat → Line → Prop) : Block → Prop
  | .heading lines _ depth true content =>
    ∃ l, seen lines.first l ∧ atxHeading? l.content = some (depth, content)
  | .table _ _ header rows =>
    header.cells ≠ [] ∧
      (∃ l, seen header.line l ∧ header.cells = (rowCells l.content).map trimContent) ∧
      ∀ row ∈ rows, ∃ l, seen row.line l ∧ l.content ≠ [] ∧
        row.cells = fitCells header.cells.length (rowCells (trimContent l.content))
  | _ => True

/-- A block and all blocks in it take what they have from lines. -/
inductive Block.From (seen : Nat → Line → Prop) : Block → Prop where
  | mk {block : Block} (taken : block.Taken seen)
      (below : ∀ child ∈ block.children, From seen child) : From seen block

/-- A block is another one or stands in it, at any depth. -/
inductive Block.Holds (target : Block) : Block → Prop where
  | here : Holds target target
  | inside {block child : Block} (member : child ∈ block.children) (holds : Holds target child) :
      Holds target block

variable {seen : Nat → Line → Prop} {block target : Block}

theorem Block.From.taken (origin : block.From seen) : block.Taken seen := by
  obtain ⟨taken, -⟩ := origin
  exact taken

theorem Block.From.children (origin : block.From seen) :
    ∀ child ∈ block.children, child.From seen := by
  obtain ⟨-, below⟩ := origin
  exact below

theorem Block.From.taken_of_holds (origin : block.From seen) (holds : Block.Holds target block) :
    target.Taken seen := by
  induction holds with
  | here =>
      exact origin.taken
  | inside member holds hypothesis =>
      exact hypothesis (origin.children _ member)

theorem Block.From.leaf (taken : block.Taken seen) (leaf : block.children = []) :
    block.From seen :=
  .mk taken (by simp [leaf])

theorem from_tightenBlock (origin : block.From seen) : (Scope.tightenBlock block).From seen := by
  cases block with
  | paragraph lines tight content =>
      exact .leaf trivial rfl
  | _ =>
      exact origin

theorem from_tightenItem (origin : block.From seen) : (Scope.tightenItem block).From seen := by
  cases block with
  | item lines children =>
      exact .mk trivial (List.forall_mem_map.mpr fun child member =>
        from_tightenBlock (origin.children child member))
  | _ =>
      exact origin

/-- A rule gives nothing or a block that takes what it has from lines. -/
abbrev RuleTakes (seen : Nat → Line → Prop) (rule : Except PastEnd Found) : Prop :=
  Gives (fun found => ∀ result ∈ found, result.1.From seen) rule

theorem ruleTakes_none : RuleTakes seen (.ok none) := by
  simp [Settles]

theorem ruleTakes_some {next : Nat} (origin : block.From seen) :
    RuleTakes seen (.ok (some (block, next))) := by
  simpa [Settles] using origin

def Scope.Shows (seen : Nat → Line → Prop) (s : Scope) : Prop := ∀ i, seen i (s.line i)

/-- A reader gives blocks that take what they have from the lines of the scope. -/
def Reader.Takes (seen : Nat → Line → Prop) (reader : Reader) : Prop :=
  ∀ s start stop, s.Shows seen →
    Gives (fun parsed => ∀ block ∈ parsed.blocks, block.From seen) (reader s start stop)

namespace Scope

variable {s : Scope} {start stop : Nat} {reader inner innerItem : Reader} {later : List Nat}

theorem Shows.setLine (preserved : Preserved seen) (shows' : s.Shows seen) {i : Nat} {l : Line}
    (holds : seen i l) : (s.setLine i l).Shows seen := by
  intro j
  by_cases same : i = j
  · subst same
    rcases line_setLine_cases s i l with is | is
    · rw [is]
      exact holds
    · rw [is]
      exact preserved.absent i
  · rw [line_setLine_of_ne same]
    exact shows' j

/-! ### Blocks without blocks in them -/

theorem indentedCode?_takes : RuleTakes seen (s.indentedCode? start stop) := by
  unfold indentedCode?
  split
  · exact ruleTakes_none
  · exact Gives.then fun content => ruleTakes_some (.leaf trivial rfl)

theorem fencedCode?_takes : RuleTakes seen (s.fencedCode? start stop) := by
  unfold fencedCode?
  split
  · exact ruleTakes_none
  · exact Gives.then fun content => ruleTakes_some (.leaf trivial rfl)

theorem thematicBreak?_takes : RuleTakes seen (.ok (s.thematicBreak? start)) := by
  unfold thematicBreak?
  split
  · exact ruleTakes_some (.leaf trivial rfl)
  · exact ruleTakes_none

theorem htmlBlock?_takes : RuleTakes seen (s.htmlBlock? start stop) := by
  unfold htmlBlock?
  split
  · exact ruleTakes_none
  · exact Gives.then fun content => ruleTakes_some (.leaf trivial rfl)

theorem underlinedHeading?_takes : RuleTakes seen (s.underlinedHeading? start stop) := by
  unfold underlinedHeading?
  split
  · exact ruleTakes_none
  · refine Gives.then fun found => ?_
    split
    · exact ruleTakes_none
    · exact Gives.then fun content => ruleTakes_some (.leaf trivial rfl)

theorem definitionBlock?_takes : RuleTakes seen (s.definitionBlock? start) := by
  unfold definitionBlock?
  refine Gives.then fun found => ?_
  cases found with
  | none =>
      exact ruleTakes_none
  | some definition =>
      exact ruleTakes_some (.leaf trivial rfl)

theorem frontMatter?_takes : RuleTakes seen (s.frontMatter? start stop) := by
  unfold frontMatter?
  dsimp only
  split
  · exact ruleTakes_none
  · split
    · exact ruleTakes_none
    · refine Gives.then fun found => ?_
      split
      · exact ruleTakes_none
      · exact ruleTakes_some (.leaf trivial rfl)

theorem paragraph_takes : Gives (fun result => result.1.From seen) (s.paragraph start) := by
  unfold paragraph
  exact Gives.then fun last => Gives.then fun content => .leaf trivial rfl

theorem atxHeadingBlock?_takes (shows' : s.Shows seen) :
    RuleTakes seen (.ok (s.atxHeadingBlock? start)) := by
  unfold atxHeadingBlock? heading?
  split
  · exact ruleTakes_none
  · cases found : atxHeading? (s.line start).content with
    | none =>
        exact ruleTakes_none
    | some heading =>
        exact ruleTakes_some (.leaf ⟨s.line start, shows' start, found⟩ rfl)

theorem tableRows_takes (shows' : s.Shows seen) (width : Nat) (added : Int) :
    Gives (fun found => ∀ row ∈ found.1, ∃ l, seen row.line l ∧ l.content ≠ [] ∧
        row.cells = fitCells width (rowCells (trimContent l.content)))
      (s.tableRows width stop added later) := by
  induction later generalizing added with
  | nil =>
      exact List.forall_mem_nil _
  | cons i rest hypothesis =>
      rw [tableRows]
      split
      · exact List.forall_mem_nil _
      · refine Gives.then fun ends => ?_
        split
        · exact List.forall_mem_nil _
        · dsimp only
          split
          · exact List.forall_mem_nil _
          · rename_i filled
            split
            · exact List.forall_mem_nil _
            · refine (hypothesis _).bind fun found rows => ?_
              refine List.forall_mem_cons.mpr ⟨⟨s.line i, shows' i, fun empty => ?_, rfl⟩, rows⟩
              rw [empty] at filled
              exact filled rfl

theorem table?_takes (shows' : s.Shows seen) : RuleTakes seen (s.table? start stop) := by
  unfold table?
  split
  · exact ruleTakes_none
  · rename_i header isHeader
    refine (tableRows_takes shows' _ _).bind fun found rows => ruleTakes_some (.leaf ?_ rfl)
    unfold tableHeader? at isHeader
    split at isHeader
    · split at isHeader
      · dsimp only at isHeader
        split at isHeader
        · rename_i filled
          cases isHeader
          refine ⟨fun empty => ?_, ⟨s.line start, shows' start, rfl⟩, rows⟩
          simp [List.map_eq_nil_iff.mp empty] at filled
        · cases isHeader
      · cases isHeader
    · cases isHeader

/-! ### Blocks in blocks -/

theorem quoteLines_shows (preserved : Preserved seen) (shows' : s.Shows seen) {lastEmpty : Bool} :
    Gives (fun found => found.1.Shows seen) (s.quoteLines stop lastEmpty later) := by
  induction later generalizing s lastEmpty with
  | nil =>
      exact shows'
  | cons i rest hypothesis =>
      rw [quoteLines]
      dsimp only
      split
      · exact shows'
      · split
        · rename_i marked
          rw [Bool.and_eq_true, decide_eq_true_eq] at marked
          exact hypothesis (shows'.setLine preserved (preserved.quote i _ (shows' i) marked.1))
        · split
          · exact shows'
          · refine Gives.then fun ends => ?_
            split
            · exact shows'
            · exact hypothesis (shows'.setLine preserved (preserved.continuation i _ (shows' i)))

theorem quote?_takes (preserved : Preserved seen) (takes : reader.Takes seen)
    (shows' : s.Shows seen) : RuleTakes seen (s.quote? reader start stop) := by
  unfold quote?
  split
  · exact ruleTakes_none
  · rename_i isQuote
    dsimp only
    have marked : (s.line start).chars[(s.line start).first]? = some '>' := by
      simp only [Scope.isQuote, Bool.not_eq_true, Bool.not_eq_false', Bool.and_eq_true,
        beq_iff_eq] at isQuote
      rw [← Line.head?_content]
      exact isQuote.2
    have entered := shows'.setLine preserved (preserved.quote start _ (shows' start) marked)
    refine (quoteLines_shows preserved entered).bind fun found inner => ?_
    have read := takes { found.1 with indent := 0 } start found.2 inner
    exact read.bind fun parsed origins => ruleTakes_some (.mk trivial origins)

theorem directiveBlock?_takes (takes : reader.Takes seen) (shows' : s.Shows seen) :
    RuleTakes seen (s.directiveBlock? reader start stop) := by
  unfold directiveBlock?
  refine Gives.then fun found => ?_
  split
  · exact ruleTakes_none
  · refine Gives.then fun closing => ?_
    have read := takes { s with stop := closing.line } (start + 1) closing.line shows'
    exact read.bind fun parsed origins => ruleTakes_some (.mk trivial origins)

theorem item_takes (preserved : Preserved seen) (takes : reader.Takes seen)
    (shows' : s.Shows seen) {mark : ListMark}
    (marked : ListMark.read? (s.line start).content = some mark) :
    Gives (fun parsed => ∀ block ∈ parsed.blocks, block.From seen)
      (item reader s mark start stop) := by
  unfold item
  dsimp only
  split
  · exact List.forall_mem_nil _
  · exact takes _ start stop
      (shows'.setLine preserved (preserved.item start _ mark (shows' start) marked))

theorem items_takes (preserved : Preserved seen) (takes : reader.Takes seen)
    (shows' : s.Shows seen) {first mark : ListMark} {gap : Bool} (budget : Nat)
    (marked : ListMark.read? (s.line start).content = some mark) :
    Gives (fun parsed => ∀ block ∈ parsed.blocks, block.From seen)
      (s.items reader first gap stop budget mark start) := by
  induction budget generalizing start gap mark with
  | zero =>
      exact List.forall_mem_nil _
  | succ budget hypothesis =>
      rw [items]
      refine (item_takes preserved takes shows' marked).bind fun parsed origins => ?_
      have block : Block.From seen (.item ⟨start, parsed.line⟩ parsed.blocks) :=
        .mk trivial origins
      have alone := List.forall_mem_singleton.mpr block
      dsimp only
      split
      · exact alone
      · refine Gives.then fun ends => ?_
        split
        · exact alone
        · split
          · exact alone
          · rename_i next isNext
            split
            · exact alone
            · refine (hypothesis isNext).bind fun rest others => ?_
              exact List.forall_mem_cons.mpr ⟨block, others⟩

theorem list?_takes (preserved : Preserved seen) (takes : reader.Takes seen)
    (shows' : s.Shows seen) : RuleTakes seen (s.list? reader start stop) := by
  unfold list?
  cases found : s.listMark? start with
  | none =>
      exact ruleTakes_none
  | some mark =>
      have marked : ListMark.read? (s.line start).content = some mark := by
        unfold listMark? at found
        dsimp only at found
        split at found
        · cases found
        · exact found
      refine (items_takes preserved takes shows' _ marked).bind fun parsed origins => ?_
      refine ruleTakes_some (.mk trivial ?_)
      change ∀ child ∈ (if parsed.tight then parsed.blocks.map tightenItem else parsed.blocks), _
      split
      · exact List.forall_mem_map.mpr fun child member => from_tightenItem (origins child member)
      · exact origins

/-! ### Reading -/

theorem block_takes (preserved : Preserved seen) (takes : inner.Takes seen)
    (takesItem : innerItem.Takes seen) (shows' : s.Shows seen) :
    Gives (fun result => result.1.From seen) (s.block inner innerItem start stop) := by
  have found : RuleTakes seen (firstFound [
      fun _ => s.frontMatter? start stop, fun _ => s.table? start stop,
      fun _ => s.indentedCode? start stop, fun _ => s.directiveBlock? inner start stop,
      fun _ => s.fencedCode? start stop, fun _ => s.quote? inner start stop,
      fun _ => .ok (s.thematicBreak? start), fun _ => s.list? innerItem start stop,
      fun _ => s.definitionBlock? start, fun _ => s.htmlBlock? start stop,
      fun _ => .ok (s.atxHeadingBlock? start), fun _ => s.underlinedHeading? start stop]) := by
    apply firstFound_gives
    simp only [List.forall_mem_cons]
    exact ⟨frontMatter?_takes, table?_takes shows', indentedCode?_takes,
      directiveBlock?_takes takes shows', fencedCode?_takes, quote?_takes preserved takes shows',
      thematicBreak?_takes, list?_takes preserved takesItem shows', definitionBlock?_takes,
      htmlBlock?_takes, atxHeadingBlock?_takes shows', underlinedHeading?_takes, by simp⟩
  unfold block
  apply found.bind
  intro found origins
  cases found with
  | none =>
      exact paragraph_takes
  | some result =>
      exact origins result rfl

theorem blocksFrom_takes (preserved : Preserved seen) {deep : Bool}
    (below : deep = true ∨ inner.Takes seen ∧ innerItem.Takes seen) (shows' : s.Shows seen)
    (budget : Nat) (gap tight : Bool) (line : Nat) :
    Gives (fun parsed => ∀ block ∈ parsed.blocks, block.From seen)
      (blocksFrom inner innerItem deep s stop budget gap tight line) := by
  induction budget generalizing gap tight line with
  | zero =>
      exact List.forall_mem_nil _
  | succ budget hypothesis =>
      rw [blocksFrom]
      split
      · exact List.forall_mem_nil _
      · dsimp only
        split
        · exact List.forall_mem_nil _
        · split
          · exact List.forall_mem_nil _
          · rename_i shallow
            obtain ⟨takes, takesItem⟩ := below.resolve_left shallow
            refine (block_takes preserved takes takesItem shows').bind fun found origin => ?_
            refine (hypothesis _ _ _).bind fun rest others => ?_
            exact List.forall_mem_cons.mpr ⟨origin, others⟩

theorem readBlocks_takes (preserved : Preserved seen) (depth : Nat) :
    (readBlocks depth).Takes seen ∧ (readBlocks (depth + 1)).Takes seen := by
  have level {inner innerItem : Reader} {deep : Bool}
      (below : deep = true ∨ inner.Takes seen ∧ innerItem.Takes seen) :
      Reader.Takes seen fun s start stop =>
        blocksFrom inner innerItem deep s stop (stop - start + 1) false true start :=
    fun s start stop shows' => blocksFrom_takes preserved below shows' _ _ _ _
  induction depth with
  | zero =>
      have bottom : (readBlocks 0).Takes seen := level (Or.inl rfl)
      exact ⟨bottom, level (Or.inr ⟨bottom, bottom⟩)⟩
  | succ depth hypothesis =>
      obtain ⟨below, here⟩ := hypothesis
      exact ⟨here, level (Or.inr ⟨here, below⟩)⟩

end Scope

/-- The blocks of a text take what they have from its lines. -/
theorem blocks_take (preserved : Preserved seen) {t : Text}
    (shows' : (Scope.ofText (normalizeSource t)).Shows seen) :
    Gives (fun found => ∀ block ∈ found, block.From seen) (blocks t) := by
  unfold blocks
  dsimp only
  exact ((Scope.readBlocks_takes preserved maxDepth).1 _ _ _ shows').bind fun _ origins => origins

/-! ### What is left of the lines of a text -/

/-- Whether the marks of block quotes and list items may have a character, or a line may be indented
with it. -/
def isBlockMark (c : Char) : Bool :=
  isSpace c || c.isDigit || ['>', '*', '-', '+', '.', ')'].contains c

/-- A line has the characters of one of some pieces of a text, unless it has none, and marks alone
stand before its content. -/
structure LeftOf (pieces : List Text) (i : Nat) (l : Line) : Prop where
  chars : l.chars = #[] ∨ pieces[i]? = some l.chars.toList
  marks : ∀ c ∈ l.chars.toList.take l.first, isBlockMark c = true

theorem isBlockMark_of_isSpace {c : Char} (space : isSpace c = true) : isBlockMark c = true := by
  rw [isBlockMark, space]
  rfl

variable {t : Text} {n m : Nat}

theorem forall_mem_take_add {p : Char → Prop} (first : ∀ c ∈ t.take n, p c)
    (others : ∀ c ∈ (t.drop n).take m, p c) : ∀ c ∈ t.take (n + m), p c := by
  rw [List.take_add]
  exact List.forall_mem_append.mpr ⟨first, others⟩

theorem forall_mem_take_succ {p : Char → Prop} (first : ∀ c ∈ t.take n, p c)
    (next : ∀ c, t[n]? = some c → p c) : ∀ c ∈ t.take (n + 1), p c := by
  refine forall_mem_take_add first fun c member => next c ?_
  rw [List.take_one, List.head?_drop, Option.mem_toList] at member
  exact member

/-- Behind marks, the spaces and tabs up to the content belong to them. -/
theorem forall_mem_take_lead (first : ∀ c ∈ t.take n, isBlockMark c = true) :
    ∀ c ∈ t.take (n + ((t.drop n).takeWhile isSpace).length), isBlockMark c = true := by
  refine forall_mem_take_add first fun c member => ?_
  have lead := List.prefix_iff_eq_take.mp (List.takeWhile_prefix isSpace (l := t.drop n))
  rw [← lead] at member
  exact isBlockMark_of_isSpace (List.all_eq_true.mp List.all_takeWhile c member)

theorem ListMark.read?_marks {mark : ListMark} (found : read? t = some mark) :
    ∀ c ∈ t.take mark.length, isBlockMark c = true := by
  have digits : ∀ c ∈ t.take (t.takeWhile Char.isDigit).length, isBlockMark c = true := by
    intro c member
    rw [← List.prefix_iff_eq_take.mp (List.takeWhile_prefix Char.isDigit)] at member
    have isDigit : c.isDigit = true := List.all_eq_true.mp List.all_takeWhile c member
    simp [isBlockMark, isDigit]
  unfold read? at found
  dsimp only at found
  split at found
  · rename_i c rest behind
    have next : t[(t.takeWhile Char.isDigit).length]? = some c := by
      rw [← List.head?_drop, behind]
      rfl
    have upTo (isMark : isBlockMark c = true) :
        ∀ d ∈ t.take ((t.takeWhile Char.isDigit).length + 1), isBlockMark d = true := by
      refine forall_mem_take_succ digits fun d same => ?_
      cases next.symm.trans same
      exact isMark
    split at found
    · rename_i noDigits
      rw [List.isEmpty_iff.mp noDigits] at upTo
      split at found
      · rename_i bullet
        cases found
        simp only [Bool.and_eq_true, decide_eq_true_eq, Bool.or_eq_true] at bullet
        exact upTo (by rcases bullet.1 with (rfl | rfl) | rfl <;> rfl)
      · cases found
    · split at found
      · rename_i numbered
        cases found
        simp only [Bool.and_eq_true, decide_eq_true_eq, Bool.or_eq_true] at numbered
        exact upTo (by rcases numbered.1.2 with rfl | rfl <;> rfl)
      · cases found
  · cases found

theorem LeftOf.preserved (pieces : List Text) : Preserved (LeftOf pieces) where
  absent i := ⟨Or.inl rfl, by simp [Line.absent]⟩
  quote i l left marked := by
    refine ⟨left.chars, ?_⟩
    have mark : ∀ c ∈ l.chars.toList.take (l.first + 1), isBlockMark c = true := by
      refine forall_mem_take_succ left.marks fun c same => ?_
      rw [Array.getElem?_toList, marked] at same
      cases same
      rfl
    unfold Line.enterQuote Line.first
    dsimp only
    rw [Line.after_eq]
    refine forall_mem_take_lead ?_
    split
    · rename_i skipped
      refine forall_mem_take_succ mark fun c same => ?_
      rw [Array.getElem?_toList] at same
      rw [same] at skipped
      simp only [Bool.or_eq_true, Bool.and_eq_true, beq_iff_eq, Option.some.injEq] at skipped
      rcases skipped with rfl | ⟨rfl, -⟩ <;> rfl
    · exact mark
  continuation i l left := ⟨left.chars, left.marks⟩
  item i l mark left found := by
    refine ⟨left.chars, ?_⟩
    have upTo : ∀ c ∈ l.chars.toList.take (l.first + mark.length), isBlockMark c = true := by
      refine forall_mem_take_add left.marks ?_
      rw [← Line.content_eq]
      exact ListMark.read?_marks found
    unfold Scope.enterItem Line.first
    dsimp only
    rw [Line.after_eq]
    rw [Nat.add_sub_cancel' (by omega)]
    exact forall_mem_take_lead upTo

/-- The lines of a text are its pieces between line feeds, as they stand there. -/
theorem Line.exists_piece_of_listOfText {i : Nat} {l : Line}
    (isLine : (listOfText t)[i]? = some l) :
    ∃ piece terminated, (Text.splitOn '\n' t)[i]? = some piece ∧ l = ofText piece terminated := by
  obtain ⟨whole, last, parts⟩ :=
    (List.eq_nil_or_concat (Text.splitOn '\n' t)).resolve_left (Text.splitOn_ne_nil '\n' t)
  rw [List.concat_eq_append] at parts
  have complete {l : Line} (found : (whole.map fun piece => ofText piece true)[i]? = some l) :
      ∃ piece terminated, (whole ++ [last])[i]? = some piece ∧ l = ofText piece terminated := by
    rw [List.getElem?_map, Option.map_eq_some_iff] at found
    obtain ⟨piece, isPiece, rfl⟩ := found
    refine ⟨piece, true, ?_, rfl⟩
    rw [List.getElem?_append_left (List.getElem?_eq_some_iff.mp isPiece).1, isPiece]
  unfold listOfText at isLine
  rw [parts] at isLine ⊢
  simp only [List.dropLast_concat, List.getLast?_concat] at isLine
  split at isLine
  · exact complete isLine
  · rw [List.getElem?_append] at isLine
    split at isLine
    · exact complete isLine
    · rename_i behind
      rw [List.length_map, Nat.not_lt] at behind
      rw [List.getElem?_singleton] at isLine
      split at isLine
      · rename_i same
        cases isLine
        refine ⟨last, false, ?_, rfl⟩
        rw [List.length_map] at same
        rw [List.getElem?_append_right behind, same]
        rfl
      · cases isLine

theorem Scope.ofText_shows (t : Text) :
    (Scope.ofText t).Shows (LeftOf (Text.splitOn '\n' t)) := by
  intro i
  unfold Scope.line Scope.ofText
  dsimp only
  rw [List.getElem?_toArray]
  cases isLine : (Line.listOfText t)[i]? with
  | none =>
      exact (LeftOf.preserved _).absent i
  | some l =>
      obtain ⟨piece, terminated, isPiece, rfl⟩ := Line.exists_piece_of_listOfText isLine
      refine ⟨Or.inr isPiece, ?_⟩
      have lead := forall_mem_take_lead (t := piece) (n := 0) (by simp)
      exact lead

/-! ### The lines of a source -/

/-- A character as block rules see it. -/
def shownChar (c : Char) : Char := if c.toNat = 0 then '\uFFFD' else c

def shown (t : Text) : Text := t.map shownChar

theorem isBlockMark_of_shownChar {c : Char} (isMark : isBlockMark (shownChar c) = true) :
    isBlockMark c = true := by
  unfold shownChar at isMark
  split at isMark
  · cases isMark
  · exact isMark

theorem shownChar_eq_iff {c d : Char} (visible : d.toNat ≠ 0 ∧ d ≠ '\uFFFD') :
    shownChar c = d ↔ c = d := by
  unfold shownChar
  split
  · rename_i null
    refine iff_of_false (fun same => visible.2 same.symm) (fun same => ?_)
    subst same
    exact visible.1 null
  · rfl

theorem shown_eq_self (noNull : ∀ c ∈ t, c.toNat ≠ 0) : shown t = t :=
  (List.map_congr_left fun c member => if_neg (noNull c member)).trans (List.map_id t)

theorem splitOn_shown (t : Text) :
    Text.splitOn '\n' (shown t) = (Text.splitOn '\n' t).map shown := by
  induction t with
  | nil =>
      rfl
  | cons c t hypothesis =>
      change Text.splitOn '\n' (shownChar c :: shown t) = _
      rw [Text.splitOn, Text.splitOn, hypothesis]
      by_cases isBreak : c = '\n'
      · rw [if_pos isBreak, if_pos ((shownChar_eq_iff (by decide)).mpr isBreak)]
        rfl
      · rw [if_neg isBreak, if_neg ((shownChar_eq_iff (by decide)).not.mpr isBreak)]
        cases Text.splitOn '\n' t <;> rfl

/-- What is left of a line with content is the line of the source without the marks in front of
it. -/
theorem LeftOf.exists_marks (base : Nat) {i : Nat} {l : Line}
    (left : LeftOf (Text.splitOn '\n' (normalizeSource t)) i l) (filled : l.content ≠ []) :
    ∃ marks rest, (SourceLines.ofText t base).line i = marks ++ rest ∧
      (∀ c ∈ marks, isBlockMark c = true) ∧ l.content = shown rest := by
  have marks := left.marks
  rw [Line.content_eq] at filled ⊢
  rcases left.chars with none | isPiece
  · rw [none] at filled
    exact absurd List.drop_nil filled
  · change (Text.splitOn '\n' (shown (Text.normalizeBreaks t)))[i]? = _ at isPiece
    rw [splitOn_shown, List.getElem?_map, Option.map_eq_some_iff] at isPiece
    obtain ⟨piece, isLine, same⟩ := isPiece
    rw [← same] at marks ⊢
    refine ⟨piece.take l.first, piece.drop l.first, ?_, fun c member => ?_, ?_⟩
    · rw [SourceLines.line_eq_piece, isLine, Option.getD_some, List.take_append_drop]
    · apply isBlockMark_of_shownChar
      apply marks
      rw [shown, ← List.map_take]
      exact List.mem_map_of_mem member
    · rw [shown, ← List.map_drop]
      rfl

theorem length_fitCells (width : Nat) (cells : List Text) :
    (fitCells width cells).length = width := by
  rw [fitCells, List.length_take, List.length_append, List.length_replicate]
  omega

theorem fitCells_length (cells : List Text) :
    fitCells cells.length cells = cells.map trimContent := by
  rw [fitCells, List.take_left' (List.length_map trimContent)]

theorem rowCells_trimContent (t : Text) : rowCells (trimContent t) = rowCells t := by
  rw [rowCells, rowCells, trimContent_trimContent]

theorem LeftOf.exists_marks_of_cells {base : Nat} {row : TableRow} {l : Line}
    (left : LeftOf (Text.splitOn '\n' (normalizeSource t)) row.line l) (filled : l.content ≠ [])
    (something : row.cells ≠ [])
    (cells : row.cells = fitCells row.cells.length (rowCells l.content)) :
    ∃ marks rest, (SourceLines.ofText t base).line row.line = marks ++ rest ∧
      (∀ c ∈ marks, isBlockMark c = true) ∧ rest ≠ [] ∧ row.cells ≠ [] ∧
      row.cells = fitCells row.cells.length (rowCells (shown rest)) := by
  obtain ⟨marks, rest, line, areMarks, same⟩ := left.exists_marks base filled
  refine ⟨marks, rest, line, areMarks, ?_, something, same ▸ cells⟩
  rintro rfl
  exact filled same

section Sources

variable (base : Nat) {found : List Block} (read : blocks t = .ok found) (member : block ∈ found)

include read member

theorem taken_of_blocks (holds : Block.Holds target block) :
    target.Taken (LeftOf (Text.splitOn '\n' (normalizeSource t))) := by
  have taken := blocks_take (LeftOf.preserved _) (Scope.ofText_shows (normalizeSource t))
  rw [read] at taken
  exact (taken block member).taken_of_holds holds

/-- A heading with number signs has its text from its line of the source, behind marks. -/
theorem exists_marks_of_heading {lines inner : LineRange} {depth : Nat} {content : Text}
    (holds : Block.Holds (.heading lines inner depth true content) block) :
    ∃ marks rest, (SourceLines.ofText t base).line lines.first = marks ++ rest ∧
      (∀ c ∈ marks, isBlockMark c = true) ∧ atxHeading? (shown rest) = some (depth, content) := by
  obtain ⟨l, left, isHeading⟩ := taken_of_blocks read member holds
  have filled : l.content ≠ [] := by
    intro empty
    rw [empty] at isHeading
    cases isHeading
  obtain ⟨marks, rest, line, areMarks, same⟩ := left.exists_marks base filled
  exact ⟨marks, rest, line, areMarks, same ▸ isHeading⟩

/-- A row of a table has its cells from its line of the source, behind marks. -/
theorem exists_marks_of_row {lines : LineRange} {alignments : List Alignment}
    {header row : TableRow} {rows : List TableRow}
    (holds : Block.Holds (.table lines alignments header rows) block)
    (isRow : row ∈ header :: rows) :
    ∃ marks rest, (SourceLines.ofText t base).line row.line = marks ++ rest ∧
      (∀ c ∈ marks, isBlockMark c = true) ∧ rest ≠ [] ∧ row.cells ≠ [] ∧
      row.cells = fitCells row.cells.length (rowCells (shown rest)) := by
  obtain ⟨something, ⟨l, left, isHeader⟩, areRows⟩ := taken_of_blocks read member holds
  rcases List.mem_cons.mp isRow with rfl | isLater
  · refine left.exists_marks_of_cells ?_ something ?_
    · intro empty
      rw [empty] at isHeader
      exact something isHeader
    · rw [isHeader, List.length_map, fitCells_length]
  · obtain ⟨l, left, filled, cells⟩ := areRows row isLater
    rw [rowCells_trimContent] at cells
    have width : row.cells.length = header.cells.length := by
      rw [cells, length_fitCells]
    refine left.exists_marks_of_cells filled (fun none => ?_) (width ▸ cells)
    rw [none] at width
    exact something (List.length_eq_zero_iff.mp width.symm)

end Sources

end MdxLocalization.Markdown
