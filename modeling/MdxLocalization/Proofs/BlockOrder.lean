import MdxLocalization.Markdown.Reading
import MdxLocalization.Proofs.LinePositions
import MdxLocalization.Proofs.TracedOutcome

/-!
# Blocks in the order of their lines

Reading goes forward: a rule that is tried at a line gives a block from that line on and a line
behind the block. So blocks cover lines that follow one another, and the blocks in a block cover
lines of it. A directive has its first line for itself.

The rules read texts, titles and lines on the way, which may fail but has no bearing on this; what
is said here is said of the blocks that come out.
-/

namespace MdxLocalization.Markdown

/-! ### Nested blocks -/

/-- The lines that a block covers. A definition is not shown. -/
def Block.lines? : Block → Option LineRange
  | .frontMatter lines | .heading lines _ _ _ _ | .paragraph lines _ _ | .indentedCode lines _
  | .fencedCode lines _ _ | .html lines _ | .thematicBreak lines | .blockquote lines _
  | .list lines _ _ | .item lines _ | .table lines _ _ _ | .directive lines _ _ => some lines
  | .definition _ _ _ => none

/-- The blocks directly in a block. -/
def Block.children : Block → List Block
  | .blockquote _ children => children
  | .list _ _ items => items
  | .item _ children => children
  | .directive _ _ children => children
  | _ => []

/-- The lines that the blocks in a block may cover. -/
def Block.inside? : Block → Option LineRange
  | .blockquote lines _ | .list lines _ _ | .item lines _ => some lines
  | .directive lines _ _ => some ⟨lines.first + 1, lines.last⟩
  | _ => none

/-- Blocks cover lines between two given ones, each behind the one before it. -/
def Between (lower upper : Nat) : List Block → Prop
  | [] => lower ≤ upper
  | block :: rest =>
    match block.lines? with
    | none => Between lower upper rest
    | some lines =>
      lower ≤ lines.first ∧ lines.first < lines.last ∧ Between lines.last upper rest

/-- A text has no space or tab at its ends. -/
def Trimmed (t : Text) : Prop :=
  (∀ c ∈ t.head?, isSpace c = false) ∧ ∀ c ∈ t.getLast?, isSpace c = false

/-- What a block says of the lines in it is right: front matter starts with the text, the content of
a heading has lines of the heading, and the rows of a table follow one another. -/
def Block.Consistent : Block → Prop
  | .frontMatter lines => lines.first = 0
  | .heading lines inner _ atx content =>
    inner.first = lines.first ∧ inner.first < inner.last ∧ inner.last ≤ lines.last ∧
      (atx = true → Trimmed content)
  | .table lines _ header rows =>
    header.line = lines.first ∧ rows.Pairwise (fun a b => a.line < b.line) ∧
      ∀ row ∈ rows, lines.first < row.line ∧ row.line < lines.last
  | _ => True

/-- At every depth the blocks in a block cover lines of it, one behind the other. -/
inductive Block.Nested : Block → Prop where
  | mk {block : Block} (consistent : block.Consistent)
      (inside : ∀ lines, block.inside? = some lines →
        Between lines.first lines.last block.children)
      (below : ∀ child ∈ block.children, Nested child) : Nested block

theorem between_cons_none {lower upper : Nat} {block : Block} {blocks : List Block}
    (hidden : block.lines? = none) :
    Between lower upper (block :: blocks) ↔ Between lower upper blocks := by
  rw [Between, hidden]

theorem between_cons_some {lower upper : Nat} {block : Block} {blocks : List Block}
    {lines : LineRange} (shown : block.lines? = some lines) :
    Between lower upper (block :: blocks) ↔
      lower ≤ lines.first ∧ lines.first < lines.last ∧ Between lines.last upper blocks := by
  rw [Between, shown]

theorem Between.mono {lower lower' upper upper' : Nat} {blocks : List Block}
    (between : Between lower upper blocks) (less : lower' ≤ lower) (more : upper ≤ upper') :
    Between lower' upper' blocks := by
  induction blocks generalizing lower lower' with
  | nil =>
      exact Nat.le_trans less (Nat.le_trans between more)
  | cons block rest hypothesis =>
      cases shown : block.lines? with
      | none =>
          have others := (between_cons_none shown).mp between
          exact (between_cons_none shown).mpr (hypothesis others less)
      | some lines =>
          obtain ⟨after, filled, others⟩ := (between_cons_some shown).mp between
          exact (between_cons_some shown).mpr
            ⟨Nat.le_trans less after, filled, hypothesis others (Nat.le_refl _)⟩

theorem Between.le {lower upper : Nat} {blocks : List Block}
    (between : Between lower upper blocks) : lower ≤ upper := by
  induction blocks generalizing lower with
  | nil =>
      exact between
  | cons block rest hypothesis =>
      cases shown : block.lines? with
      | none =>
          exact hypothesis ((between_cons_none shown).mp between)
      | some lines =>
          obtain ⟨after, filled, others⟩ := (between_cons_some shown).mp between
          have onward := hypothesis others
          omega

/-! ### Trimmed content -/

theorem isContentSpace_of_isSpace {c : Char} (space : isSpace c = true) :
    isContentSpace c = true := by
  simp only [isSpace, Bool.or_eq_true, beq_iff_eq] at space
  rcases space with rfl | rfl <;> rfl

theorem not_of_mem_head?_dropWhile {p : Char → Bool} {t : Text} {c : Char}
    (isHead : c ∈ (t.dropWhile p).head?) : p c = false := by
  have holds := List.head?_dropWhile_not p t
  rw [Option.mem_def.mp isHead] at holds
  exact holds

/-- A text is its content with white space around it. -/
theorem exists_trimContent (t : Text) :
    ∃ tail, t = t.takeWhile isContentSpace ++ (trimContent t ++ tail) ∧
      ∀ c ∈ tail, isContentSpace c = true := by
  obtain ⟨tail, parts, blank⟩ := Text.exists_dropped isContentSpace (t.dropWhile isContentSpace)
  refine ⟨tail, ?_, blank⟩
  rw [trimContent, parts, List.takeWhile_append_dropWhile]

/-- Content has no white space at its ends. -/
theorem solid_trimContent (t : Text) :
    (∀ c ∈ (trimContent t).head?, isContentSpace c = false) ∧
      ∀ c ∈ (trimContent t).getLast?, isContentSpace c = false := by
  constructor
  · intro c isHead
    obtain ⟨rest, same, -⟩ :=
      Text.exists_dropped isContentSpace (t.dropWhile isContentSpace)
    apply not_of_mem_head?_dropWhile (t := t)
    rw [trimContent, Option.mem_def] at isHead
    rw [← same, List.head?_append, isHead]
    rfl
  · exact Text.getLast?_dropEndWhile _ _

theorem trimmed_trimContent (t : Text) : Trimmed (trimContent t) := by
  have solid {c : Char} (other : isContentSpace c = false) : isSpace c = false := by
    by_contra space
    rw [Bool.not_eq_false] at space
    rw [isContentSpace_of_isSpace space] at other
    cases other
  obtain ⟨begins, ends⟩ := solid_trimContent t
  exact ⟨fun c isHead => solid (begins c isHead), fun c isLast => solid (ends c isLast)⟩

theorem trimContent_trimContent (t : Text) : trimContent (trimContent t) = trimContent t := by
  obtain ⟨begins, ends⟩ := solid_trimContent t
  generalize trimContent t = content at begins ends
  have start : content.dropWhile isContentSpace = content := by
    cases content with
    | nil =>
        rfl
    | cons c rest =>
        exact List.dropWhile_cons_of_neg (by simp [begins c rfl])
  have stop := Text.dropEndWhile_append ends (List.forall_mem_nil _)
  rw [List.append_nil] at stop
  rw [trimContent, start, stop]

theorem trimmed_of_atxHeading? {t content : Text} {depth : Nat}
    (found : atxHeading? t = some (depth, content)) : Trimmed content := by
  unfold atxHeading? at found
  dsimp only at found
  split at found
  · cases found
    exact trimmed_trimContent _
  · cases found

/-! ### Raw HTML among blocks -/

/-- The lines of a piece of raw HTML. -/
def Block.htmlLines? : Block → Option LineRange
  | .html lines _ => some lines
  | _ => none

/-- The pieces of raw HTML among blocks cover lines from a given one on, and each follows the one
before it. -/
def HtmlFrom (line : Nat) : List Block → Prop
  | [] => True
  | block :: rest =>
    match block.htmlLines? with
    | none => HtmlFrom line rest
    | some lines =>
      line ≤ lines.first ∧ lines.first < lines.last ∧ HtmlFrom lines.last rest

/-- Front matter starts with the text, and raw HTML follows the order of lines at every depth. -/
inductive Block.Orderly : Block → Prop where
  | mk {block : Block} (opening : ∀ lines, block = .frontMatter lines → lines.first = 0)
      (html : HtmlFrom 0 block.children) (below : ∀ child ∈ block.children, Orderly child) :
      Orderly block

/-- What reading the blocks from a line on gives. -/
structure Sequence (line : Nat) (blocks : List Block) : Prop where
  html : HtmlFrom line blocks
  orderly : ∀ block ∈ blocks, block.Orderly

theorem htmlFrom_cons_none {line : Nat} {block : Block} {blocks : List Block}
    (noHtml : block.htmlLines? = none) :
    HtmlFrom line (block :: blocks) ↔ HtmlFrom line blocks := by
  rw [HtmlFrom, noHtml]

theorem htmlFrom_cons_some {line : Nat} {block : Block} {blocks : List Block} {lines : LineRange}
    (html : block.htmlLines? = some lines) :
    HtmlFrom line (block :: blocks) ↔
      line ≤ lines.first ∧ lines.first < lines.last ∧ HtmlFrom lines.last blocks := by
  rw [HtmlFrom, html]

theorem Block.lines?_of_htmlLines? {block : Block} {lines : LineRange}
    (html : block.htmlLines? = some lines) : block.lines? = some lines := by
  cases block <;> cases html
  rfl

theorem Between.htmlFrom {lower lower' upper : Nat} {blocks : List Block}
    (between : Between lower upper blocks) (less : lower' ≤ lower) : HtmlFrom lower' blocks := by
  induction blocks generalizing lower lower' with
  | nil =>
      trivial
  | cons block rest hypothesis =>
      cases html : block.htmlLines? with
      | some lines =>
          obtain ⟨after, filled, others⟩ :=
            (between_cons_some (Block.lines?_of_htmlLines? html)).mp between
          exact (htmlFrom_cons_some html).mpr
            ⟨Nat.le_trans less after, filled, hypothesis others (Nat.le_refl _)⟩
      | none =>
          refine (htmlFrom_cons_none html).mpr ?_
          cases shown : block.lines? with
          | none =>
              exact hypothesis ((between_cons_none shown).mp between) less
          | some lines =>
              obtain ⟨after, filled, others⟩ := (between_cons_some shown).mp between
              exact hypothesis others (by omega)

theorem Block.children_eq_nil {block : Block} (none : block.inside? = none) :
    block.children = [] := by
  cases block <;> first | rfl | cases none

theorem Block.Nested.orderly {block : Block} (nested : block.Nested) : block.Orderly := by
  induction nested with
  | @mk block consistent inside below hypothesis =>
      refine .mk ?_ ?_ hypothesis
      · rintro lines rfl
        exact consistent
      · cases holds : block.inside? with
        | none =>
            rw [Block.children_eq_nil holds]
            trivial
        | some lines =>
            exact (inside lines holds).htmlFrom (Nat.zero_le _)

theorem Between.sequence {lower upper : Nat} {blocks : List Block}
    (between : Between lower upper blocks) (nested : ∀ block ∈ blocks, block.Nested) :
    Sequence lower blocks :=
  ⟨between.htmlFrom (Nat.le_refl _), fun block member => (nested block member).orderly⟩

/-! ### What rules give -/

/-- What a rule gives that is tried at a line: a block that covers lines from there on, and the line
behind it, which is not past the limit. -/
structure Fits (start limit : Nat) (found : Block × Nat) : Prop where
  forward : start < found.2
  bounded : found.2 ≤ limit
  covers : ∀ lines, found.1.lines? = some lines →
    start ≤ lines.first ∧ lines.first < lines.last ∧ lines.last ≤ found.2
  nested : found.1.Nested

/-- A block without blocks in it covers all lines up to the next one. -/
theorem Fits.of_leaf {start next limit : Nat} {block : Block} (forward : start < next)
    (bounded : next ≤ limit) (covers : block.lines? = some ⟨start, next⟩)
    (consistent : block.Consistent) (leaf : block.inside? = none) :
    Fits start limit (block, next) where
  forward := forward
  bounded := bounded
  covers := by
    intro lines same
    cases covers.symm.trans same
    exact ⟨Nat.le_refl _, forward, Nat.le_refl _⟩
  nested := by
    refine .mk consistent (by simp [leaf]) ?_
    rw [Block.children_eq_nil leaf]
    simp

/-- If a computation on blocks gives something, it has a property. -/
abbrev Gives {α : Type} (property : α → Prop) (x : Except PastEnd α) : Prop :=
  Settles property (fun _ => True) x

theorem Gives.then {α β : Type} {property : β → Prop} {x : Except PastEnd α}
    {f : α → Except PastEnd β} (rest : ∀ a, Gives property (f a)) :
    Gives property (x >>= f) := by
  cases x with
  | ok a =>
      exact rest a
  | error e =>
      trivial

/-- A rule that is tried at a line gives nothing or a block that fits there. -/
abbrev RuleFits (s : Scope) (start : Nat) (rule : Except PastEnd Found) : Prop :=
  Gives (fun found => ∀ block ∈ found, Fits start s.stop block) rule

theorem ruleFits_none (s : Scope) (start : Nat) : RuleFits s start (.ok none) := by
  simp [Settles]

theorem ruleFits_some {s : Scope} {start : Nat} {found : Block × Nat}
    (fits : Fits start s.stop found) : RuleFits s start (.ok (some found)) := by
  simpa [Settles] using fits

theorem bounds_of_mem_range' (first stop : Nat) :
    ∀ i ∈ List.range' first (stop - first), first ≤ i ∧ i < stop := by
  intro i member
  have bounds := List.mem_range'_1.mp member
  omega

/-- Where a block ends that is open up to the limit. -/
theorem opened_bounds {start stop : Nat} (before : start < stop) :
    start + 1 ≤ max stop (start + 1) ∧ max stop (start + 1) ≤ stop :=
  ⟨Nat.le_max_right _ _, Nat.max_le.mpr ⟨Nat.le_refl _, before⟩⟩

namespace Scope

variable {s : Scope} {start stop lower upper : Nat} {later : List Nat}

/-! ### Leaves -/

theorem codeStop_bounds {last : Nat} (bounds : lower ≤ last ∧ last ≤ upper)
    (inside : ∀ i ∈ later, lower ≤ i ∧ i < upper) :
    lower ≤ s.codeStop last later ∧ s.codeStop last later ≤ upper := by
  induction later generalizing last with
  | nil =>
      exact bounds
  | cons i rest hypothesis =>
      obtain ⟨here, others⟩ := List.forall_mem_cons.mp inside
      rw [codeStop]
      split
      · exact hypothesis bounds others
      · split
        · exact hypothesis ⟨Nat.le_succ_of_le here.1, here.2⟩ others
        · exact bounds

theorem indentedCode?_fits (before : start < stop) (inScope : stop ≤ s.stop) :
    RuleFits s start (s.indentedCode? start stop) := by
  unfold indentedCode?
  split
  · exact ruleFits_none s start
  · have bounds : start + 1 ≤
          s.codeStop (start + 1) (List.range' (start + 1) (stop - (start + 1))) ∧
        s.codeStop (start + 1) (List.range' (start + 1) (stop - (start + 1))) ≤ stop :=
      codeStop_bounds ⟨Nat.le_refl _, before⟩ (bounds_of_mem_range' _ _)
    refine Gives.then fun content => ruleFits_some ?_
    exact .of_leaf bounds.1 (Nat.le_trans bounds.2 inScope) rfl trivial rfl

theorem fenceClosing_bounds {fence : Rule} (bounds : lower ≤ stop ∧ stop ≤ upper)
    (inside : ∀ i ∈ later, lower ≤ i ∧ i < upper) :
    lower ≤ (s.fenceClosing fence stop later).next ∧
      (s.fenceClosing fence stop later).next ≤ upper := by
  induction later with
  | nil =>
      exact bounds
  | cons i rest hypothesis =>
      obtain ⟨here, others⟩ := List.forall_mem_cons.mp inside
      have missing : lower ≤ i ∧ i ≤ upper := ⟨here.1, Nat.le_of_lt here.2⟩
      rw [fenceClosing]
      split
      · exact missing
      · split
        · exact missing
        · split
          · exact ⟨Nat.le_succ_of_le here.1, here.2⟩
          · exact hypothesis others

theorem fencedCode?_fits (before : start < stop) (inScope : stop ≤ s.stop) :
    RuleFits s start (s.fencedCode? start stop) := by
  unfold fencedCode?
  split
  · exact ruleFits_none s start
  · rename_i fence opened
    have bounds : start + 1 ≤ (s.fenceClosing fence (max stop (start + 1))
          (List.range' (start + 1) (stop - (start + 1)))).next ∧
        (s.fenceClosing fence (max stop (start + 1))
          (List.range' (start + 1) (stop - (start + 1)))).next ≤ stop :=
      fenceClosing_bounds (opened_bounds before) (bounds_of_mem_range' (start + 1) stop)
    refine Gives.then fun content => ruleFits_some ?_
    exact .of_leaf bounds.1 (Nat.le_trans bounds.2 inScope) rfl trivial rfl

theorem thematicBreak?_fits (before : start < stop) (inScope : stop ≤ s.stop) :
    RuleFits s start (.ok (s.thematicBreak? start)) := by
  unfold thematicBreak?
  split
  · exact ruleFits_some (.of_leaf (Nat.lt_succ_self start) (Nat.le_trans before inScope) rfl trivial
      rfl)
  · exact ruleFits_none s start

theorem htmlStop_bounds {kind : HtmlTag.BlockKind} (bounds : lower ≤ stop ∧ stop ≤ upper)
    (inside : ∀ i ∈ later, lower ≤ i ∧ i < upper) :
    lower ≤ s.htmlStop kind stop later ∧ s.htmlStop kind stop later ≤ upper := by
  induction later with
  | nil =>
      exact bounds
  | cons i rest hypothesis =>
      obtain ⟨here, others⟩ := List.forall_mem_cons.mp inside
      have ends : lower ≤ i ∧ i ≤ upper := ⟨here.1, Nat.le_of_lt here.2⟩
      rw [htmlStop]
      split
      · exact ends
      · dsimp only
        split
        · split
          · exact ends
          · exact ⟨Nat.le_succ_of_le here.1, here.2⟩
        · exact hypothesis others

theorem htmlBlock?_fits (before : start < stop) (inScope : stop ≤ s.stop) :
    RuleFits s start (s.htmlBlock? start stop) := by
  unfold htmlBlock?
  split
  · exact ruleFits_none s start
  · rename_i kind opened
    refine Gives.then fun content => ruleFits_some ?_
    generalize lastEq : (if HtmlTag.endsBlock kind (s.line start).content then start + 1
      else s.htmlStop kind (max stop (start + 1))
        (List.range' (start + 1) (stop - (start + 1)))) = last
    have bounds : start + 1 ≤ last ∧ last ≤ stop := by
      rw [← lastEq]
      split
      · exact ⟨Nat.le_refl _, before⟩
      · exact htmlStop_bounds (opened_bounds before) (bounds_of_mem_range' (start + 1) stop)
    exact .of_leaf bounds.1 (Nat.le_trans bounds.2 inScope) rfl trivial rfl

theorem atxHeadingBlock?_fits (before : start < stop) (inScope : stop ≤ s.stop) :
    RuleFits s start (.ok (s.atxHeadingBlock? start)) := by
  unfold atxHeadingBlock?
  cases heading : s.heading? start with
  | none =>
      exact ruleFits_none s start
  | some found =>
      obtain ⟨depth, content⟩ := found
      have trimmed : Trimmed content := by
        unfold heading? at heading
        split at heading
        · cases heading
        · exact trimmed_of_atxHeading? heading
      refine ruleFits_some (.of_leaf (Nat.lt_succ_self start) (Nat.le_trans before inScope) rfl ?_
        rfl)
      exact ⟨rfl, Nat.lt_succ_self start, Nat.le_refl _, fun _ => trimmed⟩

theorem underlineAt?_mem :
    Gives (fun found => ∀ underline ∈ found, underline.1 ∈ later)
      (s.underlineAt? stop later) := by
  induction later with
  | nil =>
      simp [underlineAt?, Settles]
  | cons i rest hypothesis =>
      have others : Gives (fun found => ∀ underline ∈ found, underline.1 ∈ i :: rest)
          (s.underlineAt? stop rest) :=
        hypothesis.imp fun found inRest underline is =>
          List.mem_cons_of_mem i (inRest underline is)
      rw [underlineAt?]
      split
      · simp [Settles, pure, Except.pure]
      · split
        · exact others
        · split
          · simp [Settles, pure, Except.pure]
          · split
            · exact others
            · apply Gives.then
              intro ends
              split
              · simp [Settles, pure, Except.pure]
              · exact others

theorem underlinedHeading?_fits (inScope : stop ≤ s.stop) :
    RuleFits s start (s.underlinedHeading? start stop) := by
  unfold underlinedHeading?
  split
  · exact ruleFits_none s start
  · refine Settles.bind underlineAt?_mem fun found inRange => ?_
    split
    · exact ruleFits_none s start
    · rename_i line depth
      obtain ⟨after, inside⟩ := bounds_of_mem_range' _ _ line (inRange (line, depth) rfl)
      refine Gives.then fun content => ruleFits_some ?_
      refine .of_leaf (Nat.le_succ_of_le after) (Nat.le_trans inside inScope) rfl ?_ rfl
      exact ⟨rfl, after, Nat.le_succ line, by simp⟩

theorem paragraphStop_le (inside : ∀ i ∈ later, i < s.stop) :
    Gives (fun last => last ≤ s.stop) (s.paragraphStop later) := by
  induction later with
  | nil =>
      exact Nat.le_refl _
  | cons i rest hypothesis =>
      obtain ⟨here, others⟩ := List.forall_mem_cons.mp inside
      rw [paragraphStop]
      split
      · exact Nat.le_of_lt here
      · split
        · exact hypothesis others
        · apply Gives.then
          intro ends
          split
          · exact Nat.le_of_lt here
          · exact hypothesis others

theorem paragraph_fits (before : start < s.stop) :
    Gives (Fits start s.stop) (s.paragraph start) := by
  unfold paragraph
  have inScope : ∀ i ∈ List.range' (start + 1) (s.stop - (start + 1)), i < s.stop :=
    fun i member => (bounds_of_mem_range' (start + 1) s.stop i member).2
  refine (paragraphStop_le inScope).bind fun last le => Gives.then fun content => ?_
  exact .of_leaf (Nat.le_max_right last (start + 1)) (Nat.max_le.mpr ⟨le, before⟩) rfl trivial rfl

/-- The rows of a table stand in lines in which they are looked for, in the order of these, and the
table ends behind them. -/
theorem tableRows_bounds {width : Nat} {added : Int} (bounds : lower ≤ stop)
    (inside : ∀ i ∈ later, lower ≤ i ∧ i < stop) (inOrder : later.Pairwise (· < ·)) :
    Gives (fun found => lower ≤ found.2 ∧ found.2 ≤ stop ∧
        found.1.Pairwise (fun a b => a.line < b.line) ∧
        ∀ row ∈ found.1, row.line ∈ later ∧ row.line < found.2)
      (s.tableRows width stop added later) := by
  induction later generalizing lower added with
  | nil =>
      exact ⟨bounds, Nat.le_refl _, List.Pairwise.nil, by simp⟩
  | cons i rest hypothesis =>
      obtain ⟨here, others⟩ := List.forall_mem_cons.mp inside
      obtain ⟨behind, restInOrder⟩ := List.pairwise_cons.mp inOrder
      have ended : lower ≤ i ∧ i ≤ stop ∧
          ([] : List TableRow).Pairwise (fun a b => a.line < b.line) ∧
          ∀ row ∈ ([] : List TableRow), row.line ∈ i :: rest ∧ row.line < i :=
        ⟨here.1, Nat.le_of_lt here.2, List.Pairwise.nil, by simp⟩
      rw [tableRows]
      split
      · exact ended
      · apply Gives.then
        intro ends
        split
        · exact ended
        · dsimp only
          split
          · exact ended
          · split
            · exact ended
            · have behindRow : ∀ j ∈ rest, i + 1 ≤ j ∧ j < stop :=
                fun j member => ⟨behind j member, (others j member).2⟩
              apply (hypothesis here.2 behindRow restInOrder).bind
              rintro ⟨rows, last⟩ ⟨after, within, rowsInOrder, placed⟩
              refine ⟨by dsimp only at after ⊢; omega, within, ?_, ?_⟩
              · refine List.pairwise_cons.mpr ⟨fun row member => ?_, rowsInOrder⟩
                exact behind row.line (placed row member).1
              · refine List.forall_mem_cons.mpr ⟨⟨List.mem_cons_self, after⟩, fun row member => ?_⟩
                exact ⟨List.mem_cons_of_mem i (placed row member).1, (placed row member).2⟩

theorem le_of_tableHeader? {header : TableHeader}
    (found : tableHeader? s start stop = some header) : start + 2 ≤ stop := by
  unfold tableHeader? at found
  split at found
  · rename_i room
    simp only [Bool.and_eq_true, decide_eq_true_eq] at room
    exact room.1.1
  · cases found

theorem table?_fits (inScope : stop ≤ s.stop) : RuleFits s start (s.table? start stop) := by
  unfold table?
  split
  · exact ruleFits_none s start
  · rename_i header found
    have room := le_of_tableHeader? found
    refine (tableRows_bounds room (bounds_of_mem_range' (start + 2) stop)
      List.pairwise_lt_range').bind ?_
    rintro ⟨rows, last⟩ ⟨after, within, inOrder, placed⟩
    refine ruleFits_some (.of_leaf (by omega) (Nat.le_trans within inScope) rfl ?_ rfl)
    refine ⟨rfl, inOrder, fun row member => ⟨?_, (placed row member).2⟩⟩
    have behind := (bounds_of_mem_range' _ _ _ (placed row member).1).1
    dsimp only
    omega

theorem frontMatterStop?_bounds {length : Nat} (inside : ∀ i ∈ later, lower ≤ i ∧ i < upper) :
    Gives (fun found => ∀ last ∈ found, lower ≤ last ∧ last ≤ upper)
      (s.frontMatterStop? length later) := by
  induction later with
  | nil =>
      simp [frontMatterStop?, Settles]
  | cons i rest hypothesis =>
      obtain ⟨here, others⟩ := List.forall_mem_cons.mp inside
      have mark : lower ≤ i + 1 ∧ i + 1 ≤ upper := ⟨Nat.le_succ_of_le here.1, here.2⟩
      rw [frontMatterStop?]
      split
      · simpa [Settles, pure, Except.pure] using ⟨here.1, Nat.le_of_lt here.2⟩
      · split
        · simpa [Settles, pure, Except.pure] using mark
        · apply Gives.then
          intro c
          split
          · simpa [Settles, pure, Except.pure] using mark
          · exact hypothesis others

theorem frontMatter?_fits (inScope : stop ≤ s.stop) :
    RuleFits s start (s.frontMatter? start stop) := by
  unfold frontMatter?
  dsimp only
  split
  · exact ruleFits_none s start
  · rename_i opens
    have first : start = 0 := by
      by_contra other
      exact opens (by simp [other])
    subst first
    split
    · exact ruleFits_none s 0
    · refine (frontMatterStop?_bounds (bounds_of_mem_range' 1 stop)).bind fun found bounds => ?_
      split
      · exact ruleFits_none s 0
      · rename_i last
        obtain ⟨filled, within⟩ := bounds last rfl
        exact ruleFits_some (.of_leaf filled (Nat.le_trans within inScope) rfl rfl rfl)

end Scope

/-! ### Definitions -/

namespace DefinitionText

variable {s : Scope} {lower : Nat}

/-- Reading a definition has reached a line of the scope. -/
abbrev Reached (s : Scope) (lower line : Nat) : Prop := lower ≤ line ∧ line ≤ s.stop

theorem nextLine?_lt (line : Nat) :
    Gives (fun found => ∀ more ∈ found, line < s.stop) (nextLine? s line) := by
  unfold nextLine?
  split
  · simp [Settles, pure, Except.pure]
  · rename_i inside
    have before : line < s.stop := by
      simp only [Bool.or_eq_true, decide_eq_true_eq, not_or, Nat.not_le] at inside
      exact inside.1
    dsimp only
    split
    · apply Gives.then
      intro ends
      split
      · simp [Settles, pure, Except.pure]
      · exact fun _ _ => before
    · exact fun _ _ => before

theorem grow_bounds {t : DefinitionText} (read : Reached s lower t.line) :
    Gives (fun grown => Reached s lower grown.line) (grow s t) := by
  have taken : Gives (fun found => ∀ grown ∈ found, Reached s lower grown.line) (grow? s t) := by
    unfold grow?
    apply (nextLine?_lt t.line).bind
    intro found inScope
    cases found with
    | none =>
        simp [Settles, pure, Except.pure]
    | some more =>
        intro grown same
        cases same
        exact ⟨Nat.le_succ_of_le read.1, inScope more rfl⟩
  unfold grow
  apply taken.bind
  intro found bounds
  cases found with
  | none =>
      exact read
  | some grown =>
      exact bounds grown rfl

theorem label?_bounds {label : Text} (budget : Nat) {t : DefinitionText}
    (read : Reached s lower t.line) :
    Gives (fun found => ∀ result ∈ found, Reached s lower result.2.line)
      (label? s label budget t) := by
  induction budget generalizing label t with
  | zero =>
      simp [label?, Settles]
  | succ budget hypothesis =>
      -- A line break in the label takes in a line, every other step keeps the line.
      have step : ∀ taken rest : Text,
          Gives (fun found => ∀ result ∈ found, Reached s lower result.2.line)
            (grow s { t with rest } >>= label? s taken budget) := by
        intro taken rest
        have same : Reached s lower { t with rest }.line := read
        exact (grow_bounds same).bind fun grown bounds => hypothesis bounds
      rw [label?.eq_def]
      dsimp only
      split
      · simp [Settles]
      · simp [Settles]
      · simpa [Settles] using read
      · exact step _ _
      · exact hypothesis read
      · exact step _ _
      · exact hypothesis read

theorem skipSpace_bounds (budget : Nat) {t : DefinitionText} (read : Reached s lower t.line) :
    Gives (fun after => Reached s lower after.line) (skipSpace s budget t) := by
  induction budget generalizing t with
  | zero =>
      exact read
  | succ budget hypothesis =>
      rw [skipSpace]
      split
      · rename_i rest broken
        have same : Reached s lower { t with rest }.line := read
        exact (grow_bounds same).bind fun grown bounds => hypothesis bounds
      · split
        · exact hypothesis read
        · exact read
      · exact read

theorem finishTitle?_bounds {rest : Text} (budget : Nat) {line : Nat} (title : Destination.Title)
    (bounds : Reached s lower line) :
    Gives (fun found => ∀ result ∈ found, Reached s lower result.2.line)
      (finishTitle? s line rest budget title) := by
  induction budget generalizing line rest title with
  | zero =>
      cases title with
      | complete title length =>
          simpa [finishTitle?, Settles] using bounds
      | _ =>
          simp [finishTitle?, Settles]
  | succ budget hypothesis =>
      cases title with
      | absent =>
          simp [finishTitle?, Settles]
      | complete title length =>
          simpa [finishTitle?, Settles] using bounds
      | unfinished title closing =>
          rw [finishTitle?]
          apply (nextLine?_lt line).bind
          intro found inScope
          cases found with
          | none =>
              simp [Settles, pure, Except.pure]
          | some more =>
              exact hypothesis _ ⟨Nat.le_succ_of_le bounds.1, inScope more rfl⟩

end DefinitionText

namespace Scope

variable {s : Scope} {start stop lower : Nat}

open DefinitionText (Reached)

/-- What is behind the destination of a definition is behind the line at which it starts. -/
theorem definitionHead?_bounds (budget : Nat) (before : start < s.stop) :
    Gives (fun found => ∀ head ∈ found, Reached s (start + 1) head.rest.line)
      (s.definitionHead? budget start) := by
  unfold definitionHead?
  split
  · simp [Settles, pure, Except.pure]
  · split
    · rename_i rest opened
      have opening : Reached s (start + 1) (DefinitionText.mk rest (start + 1)).line :=
        ⟨Nat.le_refl _, before⟩
      refine (DefinitionText.label?_bounds _ opening).bind fun found labelled => ?_
      split
      · rename_i label afterLabel
        split
        · rename_i rest colon
          have same : Reached s (start + 1) { afterLabel with rest }.line :=
            labelled (label, afterLabel) rfl
          apply (DefinitionText.skipSpace_bounds _ same).bind
          intro begun bounds
          split
          · rename_i destination length read
            -- Whether the address is allowed does not matter, and it is not to be computed.
            dsimp only
            generalize Address.normalize destination = url
            generalize Address.isAllowed url = allowed
            cases allowed
            · simp [Settles, pure, Except.pure]
            · simpa [Settles, pure, Except.pure] using bounds
          · simp [Settles, pure, Except.pure]
        · simp [Settles, pure, Except.pure]
      · simp [Settles, pure, Except.pure]
    · simp [Settles, pure, Except.pure]

theorem DefinitionHead.conclude_bounds {head : DefinitionHead} {title : DefinitionText}
    {found : Option (Text × DefinitionText)} (headRead : Reached s lower head.rest.line)
    (titleRead : ∀ read ∈ found, Reached s lower read.2.line) :
    ∀ d ∈ head.conclude title found, Reached s lower d.line := by
  have finished : ∀ text line, Reached s lower line →
      ∀ d ∈ head.finish text line, Reached s lower d.line := by
    intro text line bounds d given
    unfold DefinitionHead.finish at given
    split at given
    · cases given
    · cases given
      exact bounds
  have bare : ∀ d ∈ head.finishBare, Reached s lower d.line := by
    intro d given
    unfold DefinitionHead.finishBare at given
    split at given
    · exact finished _ _ headRead d given
    · cases given
  intro d given
  unfold DefinitionHead.conclude at given
  split at given
  · exact bare d given
  · rename_i text after
    dsimp only at given
    split at given
    · exact finished _ _ (titleRead (text, after) rfl) d given
    · split at given
      · cases given
      · exact bare d given

theorem definitionBlock?_fits (before : start < s.stop) :
    RuleFits s start (s.definitionBlock? start) := by
  have bounds : Gives (fun found => ∀ d ∈ found, Reached s (start + 1) d.line)
      (s.definition? start) := by
    unfold definition?
    refine (definitionHead?_bounds _ before).bind fun found headRead => ?_
    split
    · rename_i head
      apply (DefinitionText.skipSpace_bounds _ (headRead head rfl)).bind
      intro title titleRead
      refine (DefinitionText.finishTitle?_bounds _ _ titleRead).bind fun read finished => ?_
      exact DefinitionHead.conclude_bounds (headRead head rfl) finished
    · simp [Settles, pure, Except.pure]
  unfold definitionBlock?
  apply bounds.bind
  intro found behind
  cases found with
  | none =>
      exact ruleFits_none s start
  | some d =>
      obtain ⟨forward, bounded⟩ := behind d rfl
      refine ruleFits_some ⟨forward, bounded, by simp [Block.lines?], ?_⟩
      exact .mk trivial (by simp [Block.inside?]) (by simp [Block.children])

end Scope

end MdxLocalization.Markdown
