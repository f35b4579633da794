import MdxLocalization.Proofs.ParseRange

/-!
# When parsing stays in range

A paragraph is located by the length of its last line of content. When that line is not the end of
a line of the source, because a tab of it has become spaces or a character has been replaced or
dropped, the region of the paragraph may end past the source. Inline content of such a region cannot
be scanned; a block of module statements is not scanned, and its span is wrong.

Parsing is compared here with parsing that refuses such regions. In fragments and inside other
blocks the two are the same computation, since scanning refuses the region anyway. At top level of a
document a block of module statements may slip through; its node then stays in the tree, for folding
moves nodes but loses none. It follows that parsing gives a tree in range exactly when no paragraph
overruns the source.
-/

namespace MdxLocalization.Document

open Markdown (Block LineRange)
open Traced (Leaves)

/-! ### Refusing regions that end past the source -/

/-- Locates the content of a paragraph, but refuses a region that ends past the source. -/
def Fragment.locateInside (f : Fragment) (lines : LineRange) (content : Text) :
    Traced ParseError (Option Region) := do
  match ← f.locateParagraph lines content with
  | none => return none
  | some region =>
    if f.source.length < region.2 then throw .regionPastEnd else return some region

/-- While the source is parsed, a paragraph is located whose region ends past the source. -/
def Overruns (source : Text) : Prop :=
  (parseWith Fragment.locateInside source).outcome.1 = .error .regionPastEnd

theorem locateInside_locates : LocatesInside (fun _ => True) Fragment.locateInside := by
  intro f lines content within
  apply (within.locateParagraph_starts lines content).bind
  intro region starts
  cases region with
  | none =>
      exact Traced.ends_pure (by simp)
  | some region =>
      dsimp only
      split
      · exact Traced.ends_throw trivial
      · rename_i inside
        apply Traced.ends_pure
        intro r located
        cases located
        exact ⟨(starts region rfl).1, Nat.not_lt.mp inside⟩

variable {f : Fragment}

/-- Locating a paragraph with and without refusal differs only in a region that starts in the source
and stops behind it. -/
inductive Compared (f : Fragment) (lines : LineRange) (content : Text) (events : List LogEvent) :
    Prop where
  | alike (same : (f.locateParagraph lines content : Traced ParseError _) events =
      f.locateInside lines content events)
  | past (region : Region) (after : List LogEvent) (filled : region.1 < region.2)
      (behind : f.source.length < region.2)
      (located : (f.locateParagraph lines content : Traced ParseError _) events =
        (.ok (some region), after))
      (refused : f.locateInside lines content events = (.error .regionPastEnd, after))

theorem locate_compared (within : f.Within) (lines : LineRange) (content : Text)
    (events : List LogEvent) : Compared f lines content events := by
  have starts : Settles _ (fun _ => False) _ :=
    within.locateParagraph_starts (ε := ParseError) lines content events
  have refusal : f.locateInside lines content events = _ := Traced.bind_apply _ _ _
  cases located : (f.locateParagraph lines content : Traced ParseError _) events with
  | mk result after =>
      rw [located] at starts
      cases result with
      | error e =>
          exact starts.elim
      | ok found =>
          cases found with
          | none =>
              apply Compared.alike
              rw [refusal, located]
              rfl
          | some region =>
              by_cases past : f.source.length < region.2
              · apply Compared.past region after (Nat.lt_of_le_of_lt (starts region rfl).2 past)
                  past located
                rw [refusal, located]
                dsimp only
                rw [if_pos past]
                rfl
              · apply Compared.alike
                rw [refusal, located]
                dsimp only
                rw [if_neg past]
                rfl

/-- A computation that fails for a region that is refused does the same with and without refusal. -/
theorem bind_locate_eq {α : Type} (within : f.Within) (lines : LineRange) (content : Text)
    {next : Option Region → Traced ParseError α}
    (fails : ∀ region : Region, region.1 < region.2 → f.source.length < region.2 →
      next (some region) = throw .regionPastEnd) :
    f.locateParagraph lines content >>= next = f.locateInside lines content >>= next := by
  funext events
  rw [Traced.bind_apply, Traced.bind_apply]
  cases locate_compared within lines content events with
  | alike same =>
      rw [same]
  | past region after filled behind located refused =>
      rw [located, refused]
      dsimp only
      rw [fails region filled behind]
      rfl

theorem inlineNodes_eq_throw {region : Region} (filled : region.1 < region.2)
    (past : f.source.length < region.2) : inlineNodes f region = throw .regionPastEnd := by
  unfold inlineNodes
  rw [Inline.scan_eq_error filled past]
  rfl

/-! ### Where refusal makes no difference -/

theorem headingNode_eq (within : f.Within) (lines inner : LineRange) (depth : Nat) (atx : Bool)
    (content : Text) :
    headingNode Fragment.locateParagraph f lines inner depth atx content =
      headingNode Fragment.locateInside f lines inner depth atx content := by
  cases atx with
  | true =>
      rfl
  | false =>
      apply bind_locate_eq within inner content
      intro region filled past
      dsimp only
      rw [inlineNodes_eq_throw filled past]
      rfl

theorem paragraphNode_eq (within : f.Within) {outermost : Bool}
    (inner : (f.whole && outermost) = false) (lines : LineRange) (content : Text) :
    paragraphNode Fragment.locateParagraph f outermost lines content =
      paragraphNode Fragment.locateInside f outermost lines content := by
  apply bind_locate_eq within lines content
  intro region filled past
  obtain ⟨start, stop⟩ := region
  dsimp only
  rw [inner, Bool.false_and, inlineNodes_eq_throw filled past]
  rfl

mutual

/-- Only a paragraph at top level of a document can tell the two apart. -/
theorem blockNodes_eq (within : f.Within) (fold : Folder) {outermost : Bool} :
    (block : Block) →
      ((f.whole && outermost) = false ∨ ∀ lines tight text, block ≠ .paragraph lines tight text) →
      blockNodes Fragment.locateParagraph f fold outermost block =
        blockNodes Fragment.locateInside f fold outermost block
  | .paragraph lines tight content, inner => by
      rcases inner with inner | other
      · rw [blockNodes, blockNodes, paragraphNode_eq within inner]
      · exact absurd rfl (other lines tight content)
  | .heading lines inner depth atx content, _ => by
      rw [blockNodes, blockNodes, headingNode_eq within]
  | .blockquote lines children, _ => by
      rw [blockNodes, blockNodes, nodesOfBlocks_eq within fold (Bool.and_false _) children]
  | .list lines start items, _ => by
      rw [blockNodes, blockNodes, nodesOfBlocks_eq within fold (Bool.and_false _) items]
  | .item lines children, _ => by
      rw [blockNodes, blockNodes, nodesOfBlocks_eq within fold (Bool.and_false _) children]
  | .directive lines info children, _ => by
      rw [blockNodes, blockNodes, nodesOfBlocks_eq within fold (Bool.and_false _) children]
  | .frontMatter _, _ | .indentedCode _ _, _ | .fencedCode _ _ _, _ | .html _ _, _
  | .thematicBreak _, _ | .table _ _ _ _, _ | .definition _ _ _, _ => by
      rw [blockNodes, blockNodes]

theorem nodesOfBlocks_eq (within : f.Within) (fold : Folder) {outermost : Bool}
    (inner : (f.whole && outermost) = false) :
    (blocks : List Block) → nodesOfBlocks Fragment.locateParagraph f fold outermost blocks =
      nodesOfBlocks Fragment.locateInside f fold outermost blocks
  | [] => by
      rw [nodesOfBlocks, nodesOfBlocks]
  | block :: rest => by
      rw [nodesOfBlocks, nodesOfBlocks, blockNodes_eq within fold block (Or.inl inner),
        nodesOfBlocks_eq within fold inner rest]

end

/-- Reading the text between tags does the same with and without refusal. -/
theorem foldElements_eq (source : Text) (budget : Nat) :
    foldElements Fragment.locateParagraph source budget =
      foldElements Fragment.locateInside source budget := by
  induction budget with
  | zero =>
      funext nodes
      rw [foldElements, foldElements]
  | succ budget hypothesis =>
      funext nodes
      rw [foldElements, foldElements, hypothesis]
      congr 1
      funext start stop
      split
      · rfl
      · rename_i filled
        have inside : start ≤ source.length := by
          by_contra outside
          apply filled
          have empty : Text.slice source start stop = [] := by
            rw [← List.length_eq_zero_iff, Text.length_slice]
            omega
          rw [empty]
          rfl
        have within := Fragment.between_within inside stop false
        unfold fragmentNodes
        simp only [nodesOfBlocks_eq within _ (Bool.false_and _)]

/-! ### Nodes out of range stay in the tree -/

/-- A node that is out of range and no raw HTML, so that folding does not take it apart. -/
def Broken (length : Nat) (node : Node) : Prop := ¬ node.InRange length ∧ htmlRegion? node = none

/-- One of several nodes is broken. -/
def AnyBroken (length : Nat) (nodes : List Node) : Prop := ∃ node ∈ nodes, Broken length node

variable {length : Nat} {node : Node} {nodes others : List Node}

theorem AnyBroken.cons (broken : AnyBroken length nodes) (node : Node) :
    AnyBroken length (node :: nodes) := by
  obtain ⟨bad, member, isBroken⟩ := broken
  exact ⟨bad, List.mem_cons_of_mem node member, isBroken⟩

theorem AnyBroken.append_right (broken : AnyBroken length nodes) (others : List Node) :
    AnyBroken length (nodes ++ others) := by
  obtain ⟨bad, member, isBroken⟩ := broken
  exact ⟨bad, List.mem_append_left others member, isBroken⟩

theorem AnyBroken.append_left (broken : AnyBroken length others) (nodes : List Node) :
    AnyBroken length (nodes ++ others) := by
  obtain ⟨bad, member, isBroken⟩ := broken
  exact ⟨bad, List.mem_append_right nodes member, isBroken⟩

theorem AnyBroken.not_inRange {info : NodeInfo} (broken : AnyBroken length nodes) :
    ¬ Node.InRange length (.mk info nodes) := by
  obtain ⟨bad, member, isBroken⟩ := broken
  intro inRange
  exact isBroken.1 (inRange.of_mem bad member)

variable {source : Text} {read : FragmentReader} {fold : Folder}

/-- An element takes a broken sibling in with it, or leaves it behind. -/
theorem element?_leaves (lasts : ∀ nodes, AnyBroken length nodes →
      Leaves (AnyBroken length) (fold nodes))
    {rest : List Node} (broken : AnyBroken length rest) :
    Leaves (fun found => ∀ result ∈ found,
        Broken length result.1 ∨ AnyBroken length (rest.drop result.2))
      (element? source read fold node rest) := by
  have left : ∀ {element : Node}, ∀ result ∈ some (element, 0),
      Broken length result.1 ∨ AnyBroken length (rest.drop result.2) := by
    intro element result same
    cases same
    exact Or.inr broken
  refine element?_ends_of (by simp) fun start stop tag html isTag => ⟨left, fun isOpen => ⟨?_, ?_⟩⟩
  · exact fun closing isClosing => Traced.ends_any.imp fun children _ => left
  · apply Traced.ends_any.imp
    intro before _ e isEnding
    obtain ⟨piece, further, pieceStop, parts, pieceHtml, -⟩ := ending?_among isEnding
    apply Traced.ends_any.imp
    intro after _
    obtain ⟨bad, member, isBroken⟩ := broken
    have content : AnyBroken length (before ++ e.between ++ after) ∨
        AnyBroken length further := by
      rw [parts] at member
      rcases List.mem_append.mp member with between | later
      · have among : AnyBroken length e.between := ⟨bad, between, isBroken⟩
        exact Or.inl ((among.append_left before).append_right after)
      · rcases List.mem_cons.mp later with same | behind
        · rw [← same, isBroken.2] at pieceHtml
          cases pieceHtml
        · exact Or.inr ⟨bad, behind, isBroken⟩
    rcases content with taken | behind
    · apply (lasts _ taken).imp
      intro children below result same
      cases same
      exact Or.inl ⟨below.not_inRange, rfl⟩
    · apply Traced.ends_any.imp
      intro children _ result same
      cases same
      apply Or.inr
      dsimp only
      rw [parts, ← List.drop_drop, List.drop_left]
      exact behind

/-- Folding keeps a broken node, be it among the siblings or in an element. -/
theorem foldFrom_leaves (lasts : ∀ nodes, AnyBroken length nodes →
      Leaves (AnyBroken length) (fold nodes))
    (skip : Nat) (broken : AnyBroken length (nodes.drop skip)) :
    Leaves (AnyBroken length) (foldFrom source read fold skip nodes) := by
  induction nodes generalizing skip with
  | nil =>
      rw [List.drop_nil] at broken
      exact Traced.ends_pure broken
  | cons node rest hypothesis =>
      cases skip with
      | succ skip =>
          exact hypothesis skip broken
      | zero =>
          rw [foldFrom]
          obtain ⟨bad, member, isBroken⟩ := broken
          rw [List.drop_zero] at member
          rcases List.mem_cons.mp member with here | later
          · -- A broken node opens no element.
            subst here
            have opens : element? source read fold bad rest = pure none := by
              unfold element?
              rw [isBroken.2]
            rw [opens, pure_bind]
            exact Traced.ends_any.map fun kept _ => ⟨bad, List.mem_cons_self .., isBroken⟩
          · have among : AnyBroken length rest := ⟨bad, later, isBroken⟩
            refine (element?_leaves lasts among).bind fun found left => ?_
            cases found with
            | none =>
                exact (hypothesis 0 among).map fun kept stays => stays.cons node
            | some result =>
                obtain ⟨element, consumed⟩ := result
                rcases left (element, consumed) rfl with taken | behind
                · exact Traced.ends_any.map fun kept _ => ⟨element, List.mem_cons_self .., taken⟩
                · exact (hypothesis consumed behind).map fun kept stays => stays.cons element

theorem foldElements_leaves (locate : ParagraphLocator) (source : Text) (budget : Nat)
    (nodes : List Node) (broken : AnyBroken length nodes) :
    Leaves (AnyBroken length) (foldElements locate source budget nodes) := by
  induction budget generalizing nodes with
  | zero =>
      rw [foldElements]
      exact Traced.ends_pure broken
  | succ budget hypothesis =>
      rw [foldElements]
      exact foldFrom_leaves hypothesis 0 broken

/-! ### Top level -/

/-- Parsing with refusal leads, or else something is spoiled. -/
abbrev SpoilsAs {α : Type} (spoiled : α → Prop) (x y : Traced ParseError α) : Prop :=
  Traced.Follows ParseError.regionPastEnd spoiled x y

theorem esmNode_broken {start stop : Nat} (past : f.source.length < stop) :
    Broken f.source.length (esmNode f start stop) := by
  refine ⟨?_, rfl⟩
  intro inRange
  have inside := inRange.own.span _ rfl
  have bound : (stop : Int) ≤ f.source.length := inside.2.2
  omega

theorem paragraphNode_follows (within : f.Within) (outermost : Bool) (lines : LineRange)
    (content : Text) :
    SpoilsAs (Broken f.source.length)
      (paragraphNode Fragment.locateParagraph f outermost lines content)
      (paragraphNode Fragment.locateInside f outermost lines content) := by
  intro events
  unfold paragraphNode
  rw [Traced.bind_apply, Traced.bind_apply]
  cases locate_compared within lines content events with
  | alike same =>
      rw [same]
      exact Or.inl rfl
  | past region after filled behind located refused =>
      obtain ⟨start, stop⟩ := region
      rw [located, refused]
      refine Or.inr ⟨rfl, ?_⟩
      dsimp only
      split
      · exact esmNode_broken behind
      · rw [inlineNodes_eq_throw filled behind]
        trivial

theorem blockNodes_follows (within : f.Within) (fold : Folder) (outermost : Bool) (block : Block) :
    SpoilsAs (AnyBroken f.source.length)
      (blockNodes Fragment.locateParagraph f fold outermost block)
      (blockNodes Fragment.locateInside f fold outermost block) := by
  cases block with
  | paragraph lines tight content =>
      rw [blockNodes, blockNodes]
      apply (paragraphNode_follows within outermost lines content).map
      intro node broken
      exact ⟨node, List.mem_singleton_self node, broken⟩
  | _ =>
      rw [blockNodes_eq within fold _ (Or.inr (by simp))]
      exact .refl _ _ _

theorem nodesOfBlocks_follows (within : f.Within) (fold : Folder) (outermost : Bool)
    (blocks : List Block) :
    SpoilsAs (AnyBroken f.source.length)
      (nodesOfBlocks Fragment.locateParagraph f fold outermost blocks)
      (nodesOfBlocks Fragment.locateInside f fold outermost blocks) := by
  induction blocks with
  | nil =>
      rw [nodesOfBlocks, nodesOfBlocks]
      exact .refl _ _ _
  | cons block rest hypothesis =>
      rw [nodesOfBlocks, nodesOfBlocks]
      refine (blockNodes_follows within fold outermost block).bind (fun nodes => ?_) ?_
      · exact hypothesis.map fun others broken => broken.append_left nodes
      · intro nodes broken
        exact Traced.ends_any.map fun others _ => broken.append_right others

/-- Parsing does as parsing with refusal does, unless that ends with a refusal; what it gives then
is out of range. -/
theorem parse_follows (source : Text) :
    SpoilsAs (fun root => ¬ root.InRange source.length) (parse source)
      (parseWith Fragment.locateInside source) := by
  have within : (Fragment.between source 0 source.length true).Within :=
    Fragment.between_within (Nat.zero_le _) source.length true
  have nodes : ∀ fold : Folder, (∀ nodes, AnyBroken source.length nodes →
        Leaves (AnyBroken source.length) (fold nodes)) →
      SpoilsAs (AnyBroken source.length)
        (fragmentNodes Fragment.locateParagraph (.between source 0 source.length true) fold)
        (fragmentNodes Fragment.locateInside (.between source 0 source.length true) fold) := by
    intro fold lasts
    refine (Traced.Follows.refl _ (fun _ => False) _).bind (fun blocks => ?_) (fun _ => False.elim)
    exact (nodesOfBlocks_follows within fold true blocks).bind (fun _ => .refl _ _ _) lasts
  unfold parse parseWith
  dsimp only
  rw [foldElements_eq]
  refine (nodes _ (foldElements_leaves _ source _)).bind (fun _ => .refl _ _ _) ?_
  intro children broken
  exact Traced.ends_any.bind fun _ _ => Traced.ends_pure broken.not_inRange

/-! ### The exact condition -/

/-- Parsing gives a tree in range exactly when no paragraph overruns the source, provided that the
rules for blocks find the characters that they look for. -/
theorem parse_inRange_iff (source : Text)
    (blocksRead : (parse source).outcome.1 ≠ .error .pastEnd) :
    (∃ root, (parse source).outcome.1 = .ok root ∧ root.InRange source.length) ↔
      ¬ Overruns source := by
  have ends := parseWith_ends locateInside_locates trivial source []
  constructor
  · rintro ⟨root, given, inRange⟩ overruns
    rcases parse_follows source [] with same | ⟨refused, spoiled⟩
    · have alike : (parse source).outcome.1 = .error .regionPastEnd :=
        (congrArg Prod.fst same).trans overruns
      rw [given] at alike
      cases alike
    · have out : Settles (fun root => ¬ Node.InRange source.length root) (fun _ => True)
          (parse source).outcome.1 := spoiled
      rw [given] at out
      exact out inRange
  · intro inside
    rcases parse_follows source [] with same | ⟨refused, spoiled⟩
    · have alike : (parse source).outcome.1 =
          (parseWith Fragment.locateInside source).outcome.1 := congrArg Prod.fst same
      have settled : Settles (Node.InRange source.length) (fun _ => True)
          (parseWith Fragment.locateInside source).outcome.1 := ends
      rw [← alike] at settled
      cases outcome : (parse source).outcome.1 with
      | ok root =>
          rw [outcome] at settled
          exact ⟨root, rfl, settled⟩
      | error e =>
          cases e with
          | pastEnd =>
              exact absurd outcome blocksRead
          | regionPastEnd =>
              exact absurd (alike.symm.trans outcome) inside
    · exact absurd refused inside

/-- A heading, an element around a link, and a list are parsed into a tree in range. -/
theorem parse_inRange_element :
    let source := Text.ofString "# a\n\n<B c=\"d\">\n\n[e](f)\n\n</B>\n\n- g\n  h"
    (parse source).outcome.1 ≠ .error .pastEnd ∧
      ∃ root, (parse source).outcome.1 = .ok root ∧ root.InRange source.length := by
  intro source
  have read : (parse source).outcome.1.isOk = true := by
    decide +kernel
  have checked : (parseWith Fragment.locateInside source).outcome.1.isOk = true := by
    decide +kernel
  have blocksRead : (parse source).outcome.1 ≠ .error .pastEnd := by
    intro failed
    rw [failed] at read
    cases read
  have inside : ¬ Overruns source := by
    intro overruns
    unfold Overruns at overruns
    rw [overruns] at checked
    cases checked
  exact ⟨blocksRead, (parse_inRange_iff source blocksRead).mpr inside⟩

/-- Not all sources are parsed into trees in range. The item of this list has two lines; the tab
that indents the second one takes it to the fourth column, of which the item leaves two. -/
theorem not_forall_parse_inRange :
    ¬ ∀ source, (parse source).outcome.1 ≠ .error .pastEnd →
      ∃ root, (parse source).outcome.1 = .ok root ∧ root.InRange source.length := by
  intro claim
  have refused : ((parse (Text.ofString "- a\n\tb")).outcome.1.map fun _ => ()) =
      .error .regionPastEnd := by
    decide +kernel
  have blocksRead : (parse (Text.ofString "- a\n\tb")).outcome.1 ≠ .error .pastEnd := by
    intro failed
    rw [failed] at refused
    cases refused
  obtain ⟨root, given, -⟩ := claim _ blocksRead
  rw [given] at refused
  cases refused

end MdxLocalization.Document
