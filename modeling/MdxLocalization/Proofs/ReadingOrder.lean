import MdxLocalization.Proofs.BlockOrder

/-!
# Reading keeps the order of lines

Quotes, items and directives leave their content to a reader. A reader is orderly when it stays in
its scope, gives blocks that follow one another, and takes its first line unless the line belongs to
what is around it. With orderly readers the rules for blocks in blocks fit where they are tried, and
so reading is orderly one level further out. By induction on the depth, the blocks of a text are
nested.

A paragraph may run on behind the lines that a reader was asked for, so what is read ends where the
scope does and not where the lines do. The lines of a directive are made a scope of their own; the
lines of quotes and items grow with what is read in them.
-/

namespace MdxLocalization.Markdown

/-- What is read from a line on: nested blocks, one behind the other, and the line after them. -/
structure ReadIn (start limit : Nat) (parsed : Parsed) : Prop where
  forward : start ≤ parsed.line
  bounded : parsed.line ≤ limit
  between : Between start parsed.line parsed.blocks
  nested : ∀ block ∈ parsed.blocks, block.Nested

/-- A line starts something: it is blank, or it belongs to the innermost item. -/
def Scope.Begins (s : Scope) (line : Nat) : Prop :=
  s.isEmpty line = true ∨ s.isOutdented line = false

/-- A reader stays in its scope and takes a line that starts something. -/
def Reader.Orderly (reader : Reader) : Prop :=
  ∀ s start stop, start ≤ stop → stop ≤ s.stop → Gives
    (fun parsed => ReadIn start s.stop parsed ∧
      (start < stop → s.Begins start → start < parsed.line))
    (reader s start stop)

theorem readIn_nil {start line limit : Nat} (forward : start ≤ line) (bounded : line ≤ limit)
    (tight : Bool) : ReadIn start limit ⟨[], line, tight⟩ :=
  ⟨forward, bounded, forward, by simp⟩

/-- A block and what is read behind it. -/
theorem Fits.cons {start next line limit : Nat} {found : Block × Nat} {rest : List Block}
    {tight : Bool} (fits : Fits start limit found) (onward : found.2 ≤ next)
    (others : ReadIn next limit ⟨rest, line, tight⟩) (tight' : Bool) :
    ReadIn start limit ⟨found.1 :: rest, line, tight'⟩ where
  forward := Nat.le_trans (Nat.le_of_lt fits.forward) (Nat.le_trans onward others.forward)
  bounded := others.bounded
  between := by
    cases shown : found.1.lines? with
    | none =>
        exact (between_cons_none shown).mpr (others.between.mono
          (Nat.le_trans (Nat.le_of_lt fits.forward) onward) (Nat.le_refl _))
    | some lines =>
        obtain ⟨after, filled, ends⟩ := fits.covers lines shown
        exact (between_cons_some shown).mpr
          ⟨after, filled, others.between.mono (Nat.le_trans ends onward) (Nat.le_refl _)⟩
  nested := List.forall_mem_cons.mpr ⟨fits.nested, others.nested⟩

/-- A block whose lines are those that its content takes up. -/
theorem Fits.of_content {start line limit : Nat} {block : Block} {blocks : List Block}
    {tight : Bool} (read : ReadIn start limit ⟨blocks, line, tight⟩) (filled : start < line)
    (covers : block.lines? = some ⟨start, line⟩) (consistent : block.Consistent)
    (inside : block.inside? = some ⟨start, line⟩) (content : block.children = blocks) :
    Fits start limit (block, line) where
  forward := filled
  bounded := read.bounded
  covers := by
    intro lines same
    cases covers.symm.trans same
    exact ⟨Nat.le_refl _, filled, Nat.le_refl _⟩
  nested := by
    refine .mk consistent ?_ (content ▸ read.nested)
    intro lines same
    cases inside.symm.trans same
    exact content ▸ read.between

/-! ### Tight lists -/

theorem Between.map {f : Block → Block} {lower upper : Nat} {blocks : List Block}
    (between : Between lower upper blocks) (kept : ∀ block, (f block).lines? = block.lines?) :
    Between lower upper (blocks.map f) := by
  induction blocks generalizing lower with
  | nil =>
      exact between
  | cons block rest hypothesis =>
      rw [List.map_cons, Between, kept block]
      rw [Between] at between
      split at between
      · exact hypothesis between
      · exact ⟨between.1, between.2.1, hypothesis between.2.2⟩

namespace Scope

theorem lines?_tightenBlock (block : Block) : (tightenBlock block).lines? = block.lines? := by
  cases block <;> rfl

theorem nested_tightenBlock {block : Block} (nested : block.Nested) :
    (tightenBlock block).Nested := by
  cases block with
  | paragraph lines tight content =>
      exact .mk trivial (by simp [tightenBlock, Block.inside?])
        (by simp [tightenBlock, Block.children])
  | _ =>
      exact nested

theorem lines?_tightenItem (block : Block) : (tightenItem block).lines? = block.lines? := by
  cases block <;> rfl

theorem nested_tightenItem {block : Block} (nested : block.Nested) :
    (tightenItem block).Nested := by
  cases block with
  | item lines children =>
      obtain ⟨-, inside, below⟩ := nested
      refine .mk trivial ?_ ?_
      · intro inner same
        exact (inside inner same).map lines?_tightenBlock
      · exact List.forall_mem_map.mpr fun child member => nested_tightenBlock (below child member)
  | _ =>
      exact nested

variable {s : Scope} {reader inner innerItem : Reader} {start stop lower upper : Nat}
  {later : List Nat}

/-! ### Entering quotes and items -/

theorem line_setLine_of_ne {i j : Nat} (other : i ≠ j) (l : Line) :
    (s.setLine i l).line j = s.line j := by
  simp [setLine, line, Array.getElem?_setIfInBounds_ne other]

/-- The line that has been set is there, unless it is one past the end of the text. -/
theorem line_setLine_cases (s : Scope) (i : Nat) (l : Line) :
    (s.setLine i l).line i = l ∨ (s.setLine i l).line i = Line.absent := by
  unfold setLine line
  by_cases inside : i < s.lines.size
  · exact Or.inl (by simp [inside])
  · exact Or.inr (by simp [inside])

theorem begins_of_line {i : Nat} {l : Line} (is : s.line i = l ∨ s.line i = Line.absent)
    (starts : l.isEmpty = true ∨ s.indent ≤ l.indent) : s.Begins i := by
  unfold Begins isEmpty isOutdented
  rcases is with same | absent
  · rw [same]
    exact starts.imp_right fun le => decide_eq_false (Int.not_lt.mpr le)
  · rw [absent]
    exact Or.inl rfl

theorem le_columnFrom (origin column : Int) (t : Text) :
    column ≤ Line.columnFrom origin column t := by
  induction t generalizing column with
  | nil =>
      exact Int.le_refl _
  | cons c rest hypothesis =>
      rw [Line.columnFrom, List.foldl_cons]
      refine Int.le_trans ?_ (hypothesis _)
      split <;> omega

theorem enterQuote_indent (l : Line) : 0 ≤ l.enterQuote.indent := by
  unfold Line.enterQuote
  dsimp only
  exact Int.sub_nonneg_of_le (le_columnFrom _ _ _)

/-- Behind the mark of an item there is nothing, or its content starts where the item says. -/
theorem enterItem_begins (l : Line) (mark : ListMark) :
    (enterItem l mark).1.isEmpty = true ∨ (enterItem l mark).2 ≤ (enterItem l mark).1.indent := by
  have blank : (enterItem l mark).1.isEmpty = true ↔
      (enterItem l mark).1.stop ≤ (enterItem l mark).1.first := decide_eq_true_iff
  rw [blank]
  unfold enterItem Line.first Line.stop
  dsimp only
  generalize Line.columnFrom l.columns _ _ = column
  generalize (List.takeWhile isSpace (l.after (l.start + l.shift + mark.length))).length = lead
  by_cases empty : l.chars.size ≤ l.start + l.shift + mark.length + lead
  · left
    omega
  · right
    rw [if_neg empty]
    split <;> omega

/-! ### Quotes and directives -/

/-- The lines of a quote are found in the lines that are looked at, and no others are changed. -/
theorem quoteLines_bounds {lastEmpty : Bool} (bounds : lower ≤ stop ∧ stop ≤ s.stop)
    (inside : ∀ i ∈ later, lower ≤ i ∧ i < stop) :
    Gives (fun found => lower ≤ found.2 ∧ found.2 ≤ found.1.stop ∧ found.1.stop ≤ s.stop ∧
        ∀ i, i < lower → found.1.line i = s.line i)
      (s.quoteLines stop lastEmpty later) := by
  induction later generalizing s lastEmpty with
  | nil =>
      exact ⟨bounds.1, bounds.2, Nat.le_refl _, fun i _ => rfl⟩
  | cons i rest hypothesis =>
      obtain ⟨here, others⟩ := List.forall_mem_cons.mp inside
      have within : i ≤ s.stop := Nat.le_trans (Nat.le_of_lt here.2) bounds.2
      have further (l : Line) (lastEmpty : Bool) :
          Gives (fun found => lower ≤ found.2 ∧ found.2 ≤ found.1.stop ∧ found.1.stop ≤ s.stop ∧
            ∀ j, j < lower → found.1.line j = s.line j)
            ((s.setLine i l).quoteLines stop lastEmpty rest) := by
        have sameStop : stop ≤ (s.setLine i l).stop := bounds.2
        refine (hypothesis ⟨bounds.1, sameStop⟩ others).imp ?_
        rintro found ⟨after, stopped, contained, kept⟩
        refine ⟨after, stopped, contained, fun j before => ?_⟩
        rw [kept j before, line_setLine_of_ne (by omega)]
      rw [quoteLines]
      dsimp only
      split
      · exact ⟨here.1, within, Nat.le_refl _, fun j _ => rfl⟩
      · split
        · exact further _ _
        · split
          · exact ⟨here.1, within, Nat.le_refl _, fun j _ => rfl⟩
          · apply Gives.then
            intro ends
            split
            · exact ⟨here.1, Nat.le_refl _, within, fun j _ => rfl⟩
            · exact further _ _

theorem quote?_fits (orderly : reader.Orderly) (before : start < stop) (inScope : stop ≤ s.stop) :
    RuleFits s start (s.quote? reader start stop) := by
  unfold quote?
  split
  · exact ruleFits_none s start
  · dsimp only
    have opened : start + 1 ≤ max stop (start + 1) ∧
        max stop (start + 1) ≤ (s.setLine start (s.line start).enterQuote).stop :=
      ⟨Nat.le_max_right _ _, Nat.max_le.mpr ⟨inScope, Nat.le_trans before inScope⟩⟩
    have looked : ∀ i ∈ List.range' (start + 1) (stop - (start + 1)),
        start + 1 ≤ i ∧ i < max stop (start + 1) := by
      intro i member
      have bounds := bounds_of_mem_range' (start + 1) stop i member
      omega
    refine (quoteLines_bounds opened looked).bind ?_
    rintro ⟨inner, last⟩ ⟨after, stopped, contained, kept⟩
    dsimp only at after stopped contained kept ⊢
    have begins : ({ inner with indent := 0 } : Scope).Begins start := by
      refine begins_of_line (l := (s.line start).enterQuote) ?_ (Or.inr (enterQuote_indent _))
      change inner.line start = _ ∨ inner.line start = _
      rw [kept start (Nat.lt_succ_self start)]
      exact line_setLine_cases s start _
    have read := orderly { inner with indent := 0 } start last (Nat.le_of_succ_le after) stopped
    refine read.bind fun parsed ⟨found, taken⟩ => ruleFits_some ?_
    have inOuter : ReadIn start s.stop parsed :=
      ⟨found.forward, Nat.le_trans found.bounded contained, found.between, found.nested⟩
    exact .of_content inOuter (taken after begins) rfl trivial rfl rfl

theorem directiveClosing_bounds {mark : Rule} (bounds : lower ≤ stop ∧ stop ≤ upper)
    (inside : ∀ i ∈ later, lower ≤ i ∧ i < upper) :
    Gives (fun closing => lower ≤ closing.line ∧ closing.line ≤ closing.next ∧
        closing.next ≤ upper)
      (s.directiveClosing mark stop later) := by
  induction later with
  | nil =>
      exact ⟨bounds.1, Nat.le_refl _, bounds.2⟩
  | cons i rest hypothesis =>
      obtain ⟨here, others⟩ := List.forall_mem_cons.mp inside
      rw [directiveClosing]
      split
      · exact ⟨here.1, Nat.le_refl _, Nat.le_of_lt here.2⟩
      · apply Gives.then
        intro c
        split
        · exact ⟨here.1, Nat.le_succ i, here.2⟩
        · exact hypothesis others

/-- The content of a directive is read in a scope of its own, behind the first line. -/
theorem directiveBlock?_fits (orderly : reader.Orderly) (before : start < stop)
    (inScope : stop ≤ s.stop) : RuleFits s start (s.directiveBlock? reader start stop) := by
  unfold directiveBlock?
  apply Gives.then
  intro found
  split
  · exact ruleFits_none s start
  · rename_i mark
    have closed : Gives (fun closing => start + 1 ≤ closing.line ∧ closing.line ≤ closing.next ∧
        closing.next ≤ stop) (s.directiveClosing mark (max stop (start + 1))
          (List.range' (start + 1) (stop - (start + 1)))) :=
      directiveClosing_bounds (opened_bounds before) (bounds_of_mem_range' (start + 1) stop)
    refine closed.bind fun closing ⟨after, ends, within⟩ => ?_
    have read := orderly { s with stop := closing.line } (start + 1) closing.line after
      (Nat.le_refl _)
    refine read.bind fun parsed ⟨content, _⟩ => ruleFits_some ?_
    refine ⟨by dsimp only; omega, Nat.le_trans within inScope, ?_, .mk trivial ?_ content.nested⟩
    · intro lines same
      cases same
      exact ⟨Nat.le_refl _, after, ends⟩
    · intro lines same
      cases same
      exact content.between.mono (Nat.le_refl _) content.bounded

/-! ### Lists -/

/-- An item takes the line at which it starts. -/
theorem item_readIn {mark : ListMark} (orderly : reader.Orderly) (before : start < stop)
    (inScope : stop ≤ s.stop) :
    Gives (fun parsed => ReadIn start s.stop parsed ∧ start < parsed.line)
      (item reader s mark start stop) := by
  unfold item
  dsimp only
  split
  · have after : start < min (start + 2) stop := by omega
    exact ⟨readIn_nil (Nat.le_of_lt after) (by omega) true, after⟩
  · generalize enteredEq : { s.setLine start (enterItem (s.line start) mark).1 with
      indent := (enterItem (s.line start) mark).2, listIndent := some s.indent } = entered
    have sameStop : entered.stop = s.stop := by
      rw [← enteredEq]
      rfl
    have begins : entered.Begins start := by
      rw [← enteredEq]
      exact begins_of_line (line_setLine_cases s start _) (enterItem_begins _ mark)
    have read := orderly entered start stop (Nat.le_of_lt before) (sameStop ▸ inScope)
    rw [sameStop] at read
    exact read.imp fun parsed ⟨found, taken⟩ => ⟨found, taken before begins⟩

/-- The items of a list follow one another, since the line after an item is one of the list. -/
theorem items_readIn {first : ListMark} (orderly : reader.Orderly) (budget : Nat) {gap : Bool}
    {mark : ListMark} (before : start < stop) (inScope : stop ≤ s.stop) :
    Gives (fun parsed => ReadIn start s.stop parsed ∧ (0 < budget → start < parsed.line))
      (s.items reader first gap stop budget mark start) := by
  induction budget generalizing start gap mark with
  | zero =>
      exact ⟨readIn_nil (Nat.le_refl _) (by omega) true, by simp⟩
  | succ budget hypothesis =>
      rw [items]
      apply (item_readIn orderly before inScope).bind
      rintro parsed ⟨read, taken⟩
      have block : Fits start s.stop
          (Block.item ⟨start, parsed.line⟩ parsed.blocks, parsed.line) :=
        .of_content read taken rfl trivial rfl rfl
      have alone : ReadIn start s.stop
          ⟨[.item ⟨start, parsed.line⟩ parsed.blocks], parsed.line, parsed.tight && !gap⟩ :=
        block.cons (Nat.le_refl _) (readIn_nil (Nat.le_refl _) read.bounded true) _
      dsimp only
      split
      · exact ⟨alone, fun _ => taken⟩
      · rename_i continues
        have within : parsed.line < stop := by
          simp only [Bool.or_eq_true, decide_eq_true_eq, not_or, Nat.not_le] at continues
          exact continues.1.1
        apply Gives.then
        intro ends
        split
        · exact ⟨alone, fun _ => taken⟩
        · split
          · exact ⟨alone, fun _ => taken⟩
          · split
            · exact ⟨alone, fun _ => taken⟩
            · refine (hypothesis within).bind fun rest ⟨others, _⟩ => ?_
              have joined := block.cons (Nat.le_refl _) others
                ((parsed.tight && !gap) && rest.tight)
              exact ⟨joined, fun _ => Nat.lt_of_lt_of_le taken others.forward⟩

theorem list?_fits (orderly : reader.Orderly) (before : start < stop) (inScope : stop ≤ s.stop) :
    RuleFits s start (s.list? reader start stop) := by
  unfold list?
  split
  · exact ruleFits_none s start
  · refine (items_readIn orderly _ before inScope).bind fun parsed ⟨read, taken⟩ =>
      ruleFits_some ?_
    have filled := taken (Nat.sub_pos_of_lt before)
    have content : ReadIn start s.stop
        { parsed with
          blocks := if parsed.tight then parsed.blocks.map tightenItem else parsed.blocks } := by
      refine ⟨read.forward, read.bounded, ?_, ?_⟩
      · dsimp only
        split
        · exact read.between.map lines?_tightenItem
        · exact read.between
      · dsimp only
        split
        · exact List.forall_mem_map.mpr fun item member =>
            nested_tightenItem (read.nested item member)
        · exact read.nested
    exact .of_content content filled rfl trivial rfl rfl

/-! ### Reading -/

theorem firstFound_gives {property : Block × Nat → Prop}
    {rules : List (Unit → Except PastEnd Found)}
    (each : ∀ rule ∈ rules, Gives (fun found => ∀ result ∈ found, property result) (rule ())) :
    Gives (fun found => ∀ result ∈ found, property result) (firstFound rules) := by
  induction rules with
  | nil =>
      simp [firstFound, Settles]
  | cons rule rest hypothesis =>
      obtain ⟨first, others⟩ := List.forall_mem_cons.mp each
      rw [firstFound]
      apply first.bind
      intro found holds
      cases found with
      | none =>
          exact hypothesis others
      | some result =>
          intro other same
          cases same
          exact holds _ rfl

theorem block_fits (innerOrderly : inner.Orderly) (itemOrderly : innerItem.Orderly)
    (before : start < stop) (inScope : stop ≤ s.stop) :
    Gives (Fits start s.stop) (s.block inner innerItem start stop) := by
  have beforeEnd : start < s.stop := Nat.lt_of_lt_of_le before inScope
  have found : RuleFits s start (firstFound [
      fun _ => s.frontMatter? start stop, fun _ => s.table? start stop,
      fun _ => s.indentedCode? start stop, fun _ => s.directiveBlock? inner start stop,
      fun _ => s.fencedCode? start stop, fun _ => s.quote? inner start stop,
      fun _ => .ok (s.thematicBreak? start), fun _ => s.list? innerItem start stop,
      fun _ => s.definitionBlock? start, fun _ => s.htmlBlock? start stop,
      fun _ => .ok (s.atxHeadingBlock? start), fun _ => s.underlinedHeading? start stop]) := by
    apply firstFound_gives
    simp only [List.forall_mem_cons]
    exact ⟨frontMatter?_fits inScope, table?_fits inScope, indentedCode?_fits before inScope,
      directiveBlock?_fits innerOrderly before inScope, fencedCode?_fits before inScope,
      quote?_fits innerOrderly before inScope, thematicBreak?_fits before inScope,
      list?_fits itemOrderly before inScope, definitionBlock?_fits beforeEnd,
      htmlBlock?_fits before inScope, atxHeadingBlock?_fits before inScope,
      underlinedHeading?_fits inScope, by simp⟩
  unfold block
  apply found.bind
  intro found fits
  cases found with
  | none =>
      exact paragraph_fits beforeEnd
  | some result =>
      exact fits result rfl

/-- Blank lines are skipped as far as the scope reaches. -/
theorem skipEmpty_bounds {line : Nat} (before : line < s.stop) :
    line ≤ s.skipEmpty line ∧ s.skipEmpty line ≤ s.stop ∧
      (s.isEmpty line = true → line < s.skipEmpty line) ∧
      (s.isEmpty line = false → s.skipEmpty line = line) := by
  have counted :=
    (List.takeWhile_sublist s.isEmpty (l := List.range' line (s.stop - line))).length_le
  rw [List.length_range'] at counted
  have parts : List.range' line (s.stop - line) =
      line :: List.range' (line + 1) (s.stop - line - 1) := by
    rw [← List.range'_succ]
    congr 1
    omega
  refine ⟨Nat.le_add_right _ _, by unfold skipEmpty; omega, ?_, ?_⟩
  · intro empty
    rw [skipEmpty, parts, List.takeWhile_cons, if_pos empty, List.length_cons]
    omega
  · intro filled
    rw [skipEmpty, parts, List.takeWhile_cons, filled]
    rfl

/-- Reading block after block goes forward, and the blocks follow one another. -/
theorem blocksFrom_readIn {deep : Bool}
    (below : deep = true ∨ inner.Orderly ∧ innerItem.Orderly) (budget : Nat) (gap tight : Bool)
    {line : Nat} (inScope : stop ≤ s.stop) (within : line ≤ s.stop) :
    Gives (fun parsed => ReadIn line s.stop parsed ∧
        (0 < budget → line < stop → s.Begins line → line < parsed.line))
      (blocksFrom inner innerItem deep s stop budget gap tight line) := by
  induction budget generalizing gap tight line with
  | zero =>
      exact ⟨readIn_nil (Nat.le_refl _) within tight, by simp⟩
  | succ budget hypothesis =>
      rw [blocksFrom]
      split
      · rename_i behind
        exact ⟨readIn_nil (Nat.le_refl _) within tight, fun _ before _ => by omega⟩
      · rename_i before
        obtain ⟨skipped, inside, blank, solid⟩ :=
          skipEmpty_bounds (Nat.lt_of_lt_of_le (Nat.not_le.mp before) inScope)
        dsimp only
        split
        · -- The lines are blank, or what follows belongs to an item further out.
          rename_i ended
          refine ⟨readIn_nil skipped inside tight, fun _ _ begins => ?_⟩
          cases empty : s.isEmpty line with
          | true =>
              exact blank empty
          | false =>
              exfalso
              rcases begins with isEmpty | belongs
              · rw [empty] at isEmpty
                cases isEmpty
              · rw [solid empty, belongs, Bool.or_false, decide_eq_true_eq] at ended
                exact before ended
        · rename_i starts
          have next : s.skipEmpty line < stop := by
            simp only [Bool.or_eq_true, decide_eq_true_eq, not_or, Nat.not_le] at starts
            exact starts.1
          split
          · have after : line < stop := Nat.lt_of_le_of_lt skipped next
            exact ⟨readIn_nil (Nat.le_of_lt after) inScope tight, fun _ _ _ => after⟩
          · rename_i shallow
            obtain ⟨innerOrderly, itemOrderly⟩ := below.resolve_left shallow
            apply (block_fits innerOrderly itemOrderly next inScope).bind
            rintro ⟨block, behind⟩ fits
            have forward : s.skipEmpty line < behind := fits.forward
            have bounded : behind ≤ s.stop := fits.bounded
            dsimp only
            generalize laterEq : (if (decide (behind < stop) && s.isEmpty behind) = true
              then behind + 1 else behind) = later
            have onward : behind ≤ later ∧ later ≤ s.stop := by
              rw [← laterEq]
              split
              · rename_i skips
                rw [Bool.and_eq_true, decide_eq_true_eq] at skips
                omega
              · omega
            refine (hypothesis _ _ onward.2).bind fun rest ⟨others, _⟩ => ?_
            have joined := fits.cons onward.1 others rest.tight
            refine ⟨⟨?_, joined.bounded, ?_, joined.nested⟩, fun _ _ _ => ?_⟩
            · exact Nat.le_trans skipped joined.forward
            · exact joined.between.mono skipped (Nat.le_refl _)
            · have rest := others.forward
              dsimp only
              omega

/-- Blocks are read in order at every depth. -/
theorem readBlocks_orderly (depth : Nat) :
    (readBlocks depth).Orderly ∧ (readBlocks (depth + 1)).Orderly := by
  have level {inner innerItem : Reader} {deep : Bool}
      (below : deep = true ∨ inner.Orderly ∧ innerItem.Orderly) :
      Reader.Orderly fun s start stop =>
        blocksFrom inner innerItem deep s stop (stop - start + 1) false true start := by
    intro s start stop inOrder inScope
    have read := blocksFrom_readIn below (stop - start + 1) false true inScope
      (Nat.le_trans inOrder inScope)
    exact read.imp fun parsed ⟨found, taken⟩ => ⟨found, taken (Nat.succ_pos _)⟩
  induction depth with
  | zero =>
      have bottom : (readBlocks 0).Orderly := level (Or.inl rfl)
      exact ⟨bottom, level (Or.inr ⟨bottom, bottom⟩)⟩
  | succ depth hypothesis =>
      obtain ⟨below, here⟩ := hypothesis
      exact ⟨here, level (Or.inr ⟨here, below⟩)⟩

end Scope

/-! ### The blocks of a text -/

/-- The blocks of a text are nested, and they cover lines of it, one behind the other. -/
theorem blocks_nested (t : Text) :
    Gives (fun found =>
        Between 0 (Scope.ofText (normalizeSource t)).lines.size found ∧
          ∀ block ∈ found, block.Nested)
      (blocks t) := by
  unfold blocks
  dsimp only
  have read := (Scope.readBlocks_orderly maxDepth).1 (Scope.ofText (normalizeSource t)) 0
    (Scope.ofText (normalizeSource t)).lines.size (Nat.zero_le _) (Nat.le_refl _)
  refine read.bind fun parsed ⟨found, _⟩ => ⟨?_, found.nested⟩
  exact found.between.mono (Nat.le_refl _) found.bounded

theorem blocks_sequence (t : Text) : Gives (Sequence 0) (blocks t) :=
  (blocks_nested t).imp fun _ ⟨between, nested⟩ => between.sequence nested

end MdxLocalization.Markdown
