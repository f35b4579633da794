import MdxLocalization.Proofs.LinkSpelling

/-!
# How a region is cut

A scanned region is cut into nodes end to end. Plain characters are gathered into one text as far as
they go, so that no text stands next to another, and a text holds the characters of its place. The
children of a link cut the label of the link in the same way, at every depth; the label is what
stands between the brackets in front of the destination.

The scanner works on a text of its own and counts positions beside it. What ties the two together is
that the plain characters read so far and the text still to be read stand in the source one behind
the other.
-/

namespace MdxLocalization

namespace Text

/-- A piece of a text stands at a position. -/
def StandsAt (t piece : Text) (position : Nat) : Prop :=
  ∃ before after, t = before ++ piece ++ after ∧ before.length = position

variable {t first second : Text} {position : Nat}

theorem StandsAt.left (stands : t.StandsAt (first ++ second) position) :
    t.StandsAt first position := by
  obtain ⟨before, after, rfl, placed⟩ := stands
  exact ⟨before, second ++ after, by simp, placed⟩

theorem StandsAt.right (stands : t.StandsAt (first ++ second) position) :
    t.StandsAt second (position + first.length) := by
  obtain ⟨before, after, rfl, placed⟩ := stands
  exact ⟨before ++ first, after, by simp, by rw [List.length_append, placed]⟩

theorem StandsAt.drop {n : Nat} (stands : t.StandsAt first position) (within : n ≤ first.length) :
    t.StandsAt (first.drop n) (position + n) := by
  rw [← List.take_append_drop n first] at stands
  simpa [List.length_take_of_le within] using stands.right

theorem StandsAt.take (stands : t.StandsAt first position) (n : Nat) :
    t.StandsAt (first.take n) position := by
  rw [← List.take_append_drop n first] at stands
  exact stands.left

theorem StandsAt.of_prefix (stands : t.StandsAt first position) (part : second <+: first) :
    t.StandsAt second position := by
  obtain ⟨rest, rfl⟩ := part
  exact stands.left

/-- What is left of a region stands at the end of it. -/
theorem StandsAt.suffix {start : Nat} (stands : t.StandsAt first start) (part : second <:+ first) :
    t.StandsAt second (start + first.length - second.length) := by
  obtain ⟨front, rfl⟩ := part
  rw [List.length_append, ← Nat.add_assoc, Nat.add_sub_cancel]
  exact stands.right

theorem StandsAt.tail {c : Char} {rest : Text} (stands : t.StandsAt (c :: rest) position) :
    t.StandsAt rest (position + 1) := by
  change t.StandsAt ([c] ++ rest) position at stands
  exact stands.right

/-- Characters of a class are cut off where one of another class follows. -/
theorem cut_append {p : Char → Bool} {name : Text} {c : Char} (all : ∀ d ∈ name, p d = true)
    (stops : p c = false) (rest : Text) :
    (name ++ c :: rest).takeWhile p = name ∧ (name ++ c :: rest).dropWhile p = c :: rest := by
  rw [List.takeWhile_append_of_pos all, List.dropWhile_append_of_pos all,
    List.takeWhile_cons_of_neg (by simp [stops]), List.dropWhile_cons_of_neg (by simp [stops]),
    List.append_nil]
  exact ⟨rfl, rfl⟩

/-- The plain characters so far stand directly in front of the text that is still to be read. -/
theorem StandsAt.unread {start : Nat} {pending rest : Text}
    (stands : t.StandsAt (pending.reverse ++ rest) start)
    (counted : start + pending.length = position) : t.StandsAt rest position := by
  rw [← counted, ← List.length_reverse]
  exact stands.right

/-- What follows a construct stands as far behind it as the construct is long. -/
theorem StandsAt.behind {c : Char} {rest : Text} {length : Nat}
    (stands : t.StandsAt (c :: rest) position) (positive : 0 < length)
    (within : length ≤ (c :: rest).length) :
    t.StandsAt (rest.drop (length - 1)) (position + length) := by
  have dropped := stands.drop within
  rwa [← Nat.sub_add_cancel positive, List.drop_succ_cons, Nat.sub_add_cancel positive] at dropped

theorem StandsAt.slice_eq (stands : t.StandsAt first position) :
    slice t position (position + first.length) = first := by
  obtain ⟨before, after, rfl, rfl⟩ := stands
  rw [slice, List.append_assoc, List.drop_left, Nat.add_sub_cancel_left, List.take_left]

theorem standsAt_slice {start stop : Nat} (within : start ≤ t.length) :
    t.StandsAt (slice t start stop) start := by
  refine ⟨t.take start, (t.drop start).drop (stop - start), ?_, List.length_take_of_le within⟩
  rw [slice, List.append_assoc, List.take_append_drop, List.take_append_drop]

theorem StandsAt.of_slice {start stop : Nat} (stands : (slice t start stop).StandsAt first position)
    (filled : first ≠ []) : t.StandsAt first (start + position) := by
  obtain ⟨before, after, whole, rfl⟩ := stands
  have within : start ≤ t.length := by
    by_contra past
    rw [slice, List.drop_of_length_le (by omega), List.take_nil] at whole
    simp [filled] at whole
  have place : t.StandsAt (slice t start stop) start := standsAt_slice within
  rw [whole] at place
  exact place.left.right

end Text

namespace Inline

/-! ### Cut regions -/

/-- No text directly follows another. -/
def TextsApart (nodes : List Node) : Prop :=
  nodes.IsChain fun left right => ¬ (left.kind = .text ∧ right.kind = .text)

/-- The spelling of a link between two positions of a source: the label, which ends at `labelStop`,
and the destination behind it. -/
structure Bracketed (source : Text) (start labelStop stop : Nat) (info : NodeInfo) : Prop where
  placed : info.span = some (Span.ofNats start stop)
  inside : start < labelStop ∧ labelStop + 2 < stop
  spelled : ∃ blanks angle url tail,
    Text.slice source start stop =
      '[' :: Text.slice source (start + 1) labelStop ++
        ']' :: '(' :: (blanks ++ opening angle ++ url ++ tail ++ [')']) ∧
    (∀ c ∈ blanks, isLinkSpace c = true) ∧ info.url = some url ∧
    (Text.ofString "url_span",
      (Span.ofNats (labelStop + 2 + blanks.length + (opening angle).length)
        (labelStop + 2 + blanks.length + (opening angle).length + url.length)).toJson) ∈ info.data

/-- A node that scanning cuts out of a source. -/
inductive Cut (source : Text) : Node → Prop where
  | text {info : NodeInfo} {start stop : Nat} (kind : info.kind = .text)
      (placed : info.span = some (Span.ofNats start stop))
      (literal : info.value = some (Text.slice source start stop)) : Cut source (.mk info [])
  | leaf {info : NodeInfo} (kind : info.kind ∈ [NodeKind.image, .inlineCode]) :
      Cut source (.mk info [])
  | link {info : NodeInfo} {children : List Node} {start labelStop stop : Nat}
      (kind : info.kind = .link) (bracketed : Bracketed source start labelStop stop info)
      (tiles : Tiles (start + 1) labelStop children) (apart : TextsApart children)
      (below : ∀ child ∈ children, Cut source child) : Cut source (.mk info children)

/-! ### Scanning -/

variable {source pending : Text} {start position : Nat}

theorem counted_append (counted : start + pending.length = position) (piece : Text) :
    start + (piece.reverse ++ pending).length = position + piece.length := by
  rw [List.length_append, List.length_reverse]
  omega

theorem flush_cut (counted : start + pending.length = position)
    (stands : source.StandsAt pending.reverse start) :
    TextsApart (flush position pending) ∧ ∀ node ∈ flush position pending, Cut source node := by
  unfold flush
  split
  · exact ⟨.nil, by simp⟩
  · have begins : position - pending.length = start := by
      omega
    have literal := stands.slice_eq
    rw [List.length_reverse, counted] at literal
    refine ⟨.singleton _, List.forall_mem_singleton.mpr ?_⟩
    rw [begins]
    exact .text rfl rfl (by rw [literal])

/-- The characters so far, a construct behind them, and what follows it. -/
theorem flush_cons_cut (counted : start + pending.length = position)
    (stands : source.StandsAt pending.reverse start) {node : Node} {nodes : List Node}
    (construct : node.kind ≠ .text) (cut : Cut source node)
    (rest : TextsApart nodes ∧ ∀ other ∈ nodes, Cut source other) :
    TextsApart (flush position pending ++ node :: nodes) ∧
      ∀ other ∈ flush position pending ++ node :: nodes, Cut source other := by
  obtain ⟨-, flushed⟩ := flush_cut counted stands
  refine ⟨?_, List.forall_mem_append.mpr ⟨flushed, List.forall_mem_cons.mpr ⟨cut, rest.2⟩⟩⟩
  have behind : TextsApart (node :: nodes) := by
    cases nodes with
    | nil =>
        exact .singleton node
    | cons next nodes =>
        exact .cons_cons (fun both => construct both.1) rest.1
  unfold flush
  split
  · exact behind
  · exact .cons_cons (fun both => construct both.2) behind

/-- A link that stands in a source is spelled there as its facts say. -/
theorem bracketed_of_link? {rest : Text} {parts : LinkSyntax}
    (stands : source.StandsAt ('[' :: rest) position) (found : link? ('[' :: rest) = some parts) :
    Bracketed source position (position + 1 + parts.labelLength) (position + parts.length)
      (linkInfo position parts) := by
  obtain ⟨label, blanks, tail, after, rfl, labelled, blank, urlStart, urlStop, size⟩ :=
    link?_spelled found
  obtain ⟨behind, isBehind⟩ :
      ∃ behind, behind = blanks ++ opening parts.angle ++ parts.url ++ tail ++ [')'] := ⟨_, rfl⟩
  rw [← isBehind] at stands size
  have written : source.StandsAt (['['] ++ (label ++ ']' :: '(' :: behind)) position := by
    change source.StandsAt ('[' :: (label ++ ']' :: '(' :: behind) ++ after) position at stands
    exact stands.left
  have inLabel : Text.slice source (position + 1) (position + 1 + parts.labelLength) = label := by
    rw [← labelled]
    exact written.right.left.slice_eq
  have length : ('[' :: (label ++ ']' :: '(' :: behind)).length = parts.length := by
    simp only [List.length_append, List.length_cons] at size ⊢
    omega
  have whole : Text.slice source position (position + parts.length) =
      '[' :: (label ++ ']' :: '(' :: behind) := by
    rw [← length]
    exact written.slice_eq
  have closed : 0 < behind.length := by
    rw [isBehind, List.length_append]
    exact Nat.succ_pos _
  refine ⟨rfl, ?_, blanks, parts.angle, parts.url, tail, ?_, blank, rfl, ?_⟩
  · simp only [List.length_append, List.length_cons] at length
    omega
  · rw [whole, inLabel, isBehind]
    rfl
  · refine List.mem_cons.mpr (.inl ?_)
    have begins : position + 1 + parts.labelLength + 2 + blanks.length +
        (opening parts.angle).length = position + parts.urlStart := by
      omega
    rw [urlSpanField, urlStop, begins, Nat.add_assoc]

/-- What scanning makes of a text cuts the source in which the text stands behind the plain
characters before it. -/
theorem Scans.cut {t : Text} {nodes : List Node} (scans : Scans position pending t nodes)
    (counted : start + pending.length = position)
    (stands : source.StandsAt (pending.reverse ++ t) start) :
    TextsApart nodes ∧ ∀ node ∈ nodes, Cut source node := by
  -- Along the text `start` is where the plain characters at hand begin; a construct sets it anew.
  induction scans generalizing start with
  | stops =>
      rw [List.append_nil] at stands
      exact flush_cut counted stands
  | collects count fits further hypothesis =>
      refine @hypothesis start ?_ (by simpa using stands)
      rw [counted_append counted, List.length_take_of_le fits]
  | @code position pending rest value _ length found further hypothesis =>
      have positive := codeSpan?_length_pos found
      have later := (stands.unread counted).behind positive (codeSpan?_length_le found)
      exact flush_cons_cut counted stands.left (by simp [codeNode, Node.kind, Node.info])
        (.leaf (by simp)) (hypothesis rfl later)
  | @image position pending rest label _ parts found further hypothesis =>
      have later := (stands.unread counted).tail.drop (link?_within found).1
      exact flush_cons_cut counted stands.left (by simp [imageNode, Node.kind, Node.info])
        (.leaf (by simp)) (hypothesis rfl later)
  | @link position pending rest children _ parts found label further labelHypothesis hypothesis =>
      have placed := stands.unread counted
      have positive := link?_label_lt found
      have bound := link?_within found
      rw [List.length_cons] at bound
      have later := placed.behind (Nat.zero_lt_of_lt positive) (link?_within found).1
      have labelled := placed.tail.take parts.labelLength
      have unread : position + 1 + ([] : Text).length = position + 1 := rfl
      have tiling := label.tiling unread rfl
      rw [List.length_take_of_le (by omega)] at tiling
      obtain ⟨apart, below⟩ := labelHypothesis rfl labelled
      have cut : Cut source (.mk (linkInfo position parts) children) :=
        .link rfl (bracketed_of_link? placed found) tiling.tiles apart below
      exact flush_cons_cut counted stands.left (by simp [linkInfo, Node.kind, Node.info]) cut
        (hypothesis rfl later)

/-- Every region of a source can be scanned. The nodes stand end to end from its start to its stop,
none of them empty and no two texts next to each other; each text holds the characters of its place,
and the children of a link cut the label of the link in the same way, at every depth. -/
theorem scan_cuts {source : Text} {start stop : Nat} (inOrder : start ≤ stop)
    (within : stop ≤ source.length) :
    ∃ nodes, scan source start stop = .ok nodes ∧ Tiles start stop nodes ∧ TextsApart nodes ∧
      ∀ node ∈ nodes, Cut source node := by
  have scanned : scan source start stop =
      .ok (scanFrom start [] (Text.slice source start stop)) := by
    rw [scan, if_neg (by simp [Nat.not_lt.mpr within])]
  have inside := Nat.le_trans inOrder within
  have tiling := scan_tiling inOrder inside scanned
  have unread : start + ([] : Text).length = start := rfl
  have cut := (scanFrom_scans start [] (Text.slice source start stop)).cut unread
    (Text.standsAt_slice inside)
  exact ⟨_, scanned, tiling.tiles, cut⟩

/-- Part of a line, with a link in the label of a link and a bracket in a code span there. -/
theorem scan_cuts_nested :
    let source := Text.ofString "- a [b [c](d) `]`](\t<e> 'f')![g](h)\\[ i"
    (2 ≤ 38 ∧ 38 ≤ source.length) ∧
      ∃ nodes, scan source 2 38 = .ok nodes ∧
        nodes.map (fun node => (node.kind, node.span, node.children.map Node.kind)) =
          [(.text, some ⟨2, 4⟩, []), (.link, some ⟨4, 28⟩, [.text, .link, .text, .inlineCode]),
            (.image, some ⟨28, 35⟩, []), (.text, some ⟨35, 38⟩, [])] ∧
        Tiles 2 38 nodes ∧ TextsApart nodes ∧ ∀ node ∈ nodes, Cut source node := by
  intro source
  have bounds : 2 ≤ 38 ∧ 38 ≤ source.length := by
    decide
  obtain ⟨nodes, scanned, cut⟩ := scan_cuts bounds.1 bounds.2
  have found : (scan source 2 38).toOption.map (List.map fun node =>
      (node.kind, node.span, node.children.map Node.kind)) =
        some [(.text, some ⟨2, 4⟩, []), (.link, some ⟨4, 28⟩, [.text, .link, .text, .inlineCode]),
          (.image, some ⟨28, 35⟩, []), (.text, some ⟨35, 38⟩, [])] := by
    decide +kernel
  rw [scanned] at found
  exact ⟨bounds, nodes, scanned, Option.some.inj found, cut⟩

end Inline

end MdxLocalization
