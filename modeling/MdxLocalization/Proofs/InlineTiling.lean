import MdxLocalization.Inline.Scan
import MdxLocalization.Proofs.InlineRange

/-!
# Scanned nodes tile their region

Scanning leaves nothing out and takes nothing twice: each node starts where the one before it stops,
and none of them is empty. The scanner collects plain characters until a construct begins, so the
invariant speaks of the region from the first of these characters on. The label of a link is tiled
in the same way, strictly inside the link.
-/

namespace MdxLocalization.Inline

/-- Nodes stand end to end between two positions, none of them empty. -/
def Tiles (start stop : Nat) : List Node → Prop
  | [] => start = stop
  | node :: rest =>
    ∃ next, node.span = some (Span.ofNats start next) ∧ start < next ∧ Tiles next stop rest

/-- A node of scanned content: a leaf, or a link whose label is tiled. -/
inductive Piece : Node → Prop where
  | leaf {info : NodeInfo} (kind : info.kind ∈ [NodeKind.text, .image, .inlineCode]) :
      Piece (.mk info [])
  | link {info : NodeInfo} {children : List Node} {start stop first last : Nat}
      (kind : info.kind = .link) (placed : info.span = some (Span.ofNats start stop))
      (inside : start < first ∧ last < stop) (tiles : Tiles first last children)
      (below : ∀ child ∈ children, Piece child) : Piece (.mk info children)

/-- Scanned content that tiles a region. -/
structure Tiling (start stop : Nat) (nodes : List Node) : Prop where
  tiles : Tiles start stop nodes
  pieces : ∀ node ∈ nodes, Piece node

theorem Tiles.le {start stop : Nat} {nodes : List Node} (tiles : Tiles start stop nodes) :
    start ≤ stop := by
  induction nodes generalizing start with
  | nil =>
      exact Nat.le_of_eq tiles
  | cons node rest hypothesis =>
      obtain ⟨next, -, filled, others⟩ := tiles
      exact Nat.le_trans (Nat.le_of_lt filled) (hypothesis others)

theorem Tiles.append {start middle stop : Nat} {nodes others : List Node}
    (first : Tiles start middle nodes) (second : Tiles middle stop others) :
    Tiles start stop (nodes ++ others) := by
  induction nodes generalizing start with
  | nil =>
      rw [show start = middle from first]
      exact second
  | cons node rest hypothesis =>
      obtain ⟨next, placed, filled, others⟩ := first
      exact ⟨next, placed, filled, hypothesis others⟩

/-! ### Lengths of constructs -/

theorem linkTail?_length_lt {t tail : Text} {title : Option Text}
    (found : linkTail? t = some (title, tail)) : tail.length < t.length := by
  unfold linkTail? at found
  split at found
  · cases found
  · rename_i c rest
    rw [List.length_cons]
    split at found
    · split at found
      · cases found
        exact Nat.lt_succ_self _
      · cases found
    · split at found
      · cases found
      · rename_i length titled
        split at found
        · rename_i after closed
          cases found
          have size := congrArg List.length closed
          have shorter := (List.dropWhile_sublist isLinkSpace
            (l := rest.drop (length + 1))).length_le
          unfold skipLinkSpace at size
          rw [List.length_cons] at size
          rw [List.length_drop] at shorter
          omega
        · cases found

theorem destination?_rest_le {t url after : Text} {before : Nat} {angle : Bool}
    (found : destination? t = some (url, before, angle, after)) : after.length ≤ t.length := by
  unfold destination? at found
  split at found
  · split at found
    · cases found
    · cases found
      rw [List.length_drop, List.length_cons]
      omega
  · cases found
    rw [List.length_drop]
    omega

/-- Both brackets of a label stand in the link, and so does the destination behind it. -/
theorem link?_label_lt {t : Text} {parts : LinkSyntax} (found : link? t = some parts) :
    parts.labelLength + 1 < parts.length := by
  unfold link? at found
  split at found
  · cases found
  · rename_i labelStop label
    split at found
    · rename_i inside opened
      have dropped := congrArg List.length opened
      rw [List.length_drop, List.length_cons] at dropped
      have skipped := (List.dropWhile_sublist isLinkSpace (l := inside)).length_le
      dsimp only at found
      split at found
      · cases found
      · rename_i url before angle afterUrl read
        have rest := destination?_rest_le read
        have skippedRest := (List.dropWhile_sublist isLinkSpace (l := afterUrl)).length_le
        split at found
        · cases found
        · rename_i title tail closed
          have shorter := linkTail?_length_lt closed
          cases found
          unfold skipLinkSpace at rest shorter
          dsimp only
          omega
    · cases found

theorem codeSpan?_length_pos {rest value : Text} {length : Nat}
    (found : codeSpan? (tick :: rest) = some (value, length)) : 0 < length := by
  have opening : 0 < Text.countWhile (· == tick) (tick :: rest) := by
    simp [Text.countWhile]
  rw [codeSpan?] at found
  split at found
  · cases found
  · cases found
    omega

/-! ### Scanning -/

section Steps

variable {start position next stop : Nat} {pending : Text} {node : Node} {nodes : List Node}

theorem flush_tiling (counted : start + pending.length = position) :
    Tiling start position (flush position pending) := by
  unfold flush
  split
  · rename_i empty
    rw [List.isEmpty_iff.mp empty, List.length_nil, Nat.add_zero] at counted
    exact ⟨counted, by simp⟩
  · rename_i filled
    have positive : 0 < pending.length := by
      rw [List.isEmpty_iff, ← List.length_eq_zero_iff] at filled
      omega
    have starts : position - pending.length = start := by omega
    refine ⟨⟨position, by rw [starts]; rfl, by omega, rfl⟩, ?_⟩
    exact List.forall_mem_singleton.mpr (.leaf (by simp))

/-- The characters so far, a construct behind them, and what follows it. -/
theorem Tiling.flush_cons (counted : start + pending.length = position)
    (placed : node.span = some (Span.ofNats position next)) (filled : position < next)
    (piece : Piece node) (rest : Tiling next stop nodes) :
    Tiling start stop (flush position pending ++ node :: nodes) := by
  obtain ⟨flushed, pieces⟩ := flush_tiling counted
  have behind : Tiles position stop (node :: nodes) := ⟨next, placed, filled, rest.tiles⟩
  refine ⟨flushed.append behind, ?_⟩
  exact List.forall_mem_append.mpr ⟨pieces, List.forall_mem_cons.mpr ⟨piece, rest.pieces⟩⟩

end Steps

/-- Scanning a text tiles it, together with the plain characters before it. -/
theorem Scans.tiling {start position stop : Nat} {pending t : Text} {nodes : List Node}
    (scans : Scans position pending t nodes) (counted : start + pending.length = position)
    (ends : position + t.length = stop) : Tiling start stop nodes := by
  induction scans generalizing start stop with
  | stops =>
      subst ends
      exact flush_tiling counted
  | collects count fits further hypothesis =>
      apply hypothesis
      · rw [List.length_append, List.length_reverse, List.length_take]
        omega
      · rw [List.length_drop]
        omega
  | code found further hypothesis =>
      have bound := codeSpan?_length_le found
      have positive := codeSpan?_length_pos found
      rw [List.length_cons] at bound ends
      refine .flush_cons counted rfl (by omega) (.leaf (by simp)) (hypothesis rfl ?_)
      rw [List.length_drop]
      omega
  | image found further hypothesis =>
      have bound := link?_within found
      rw [List.length_cons] at ends
      refine .flush_cons counted rfl (by omega) (.leaf (by simp)) (hypothesis rfl ?_)
      rw [List.length_drop]
      omega
  | @link position _ rest children _ parts found label further labelHypothesis hypothesis =>
      have bound := link?_within found
      have brackets := link?_label_lt found
      rw [List.length_cons] at bound ends
      have inner : Tiling (position + 1) (position + 1 + (rest.take parts.labelLength).length)
          children :=
        labelHypothesis rfl rfl
      have piece : Piece (.mk (linkInfo position parts) children) := by
        refine .link rfl rfl ?_ inner.tiles inner.pieces
        rw [List.length_take]
        omega
      refine .flush_cons counted rfl (by omega) piece (hypothesis rfl ?_)
      rw [List.length_drop]
      omega

/-- The nodes of a region that can be scanned tile it. -/
theorem scan_tiling {source : Text} {start stop : Nat} {nodes : List Node} (inOrder : start ≤ stop)
    (within : start ≤ source.length) (scanned : scan source start stop = .ok nodes) :
    Tiling start stop nodes := by
  unfold scan at scanned
  split at scanned
  · cases scanned
  · rename_i fits
    rw [Bool.and_eq_true, decide_eq_true_eq, decide_eq_true_eq] at fits
    cases scanned
    apply (scanFrom_scans _ _ _).tiling
    · rfl
    · rw [Text.length_slice]
      omega

end MdxLocalization.Inline
