import MdxLocalization.Inline.Scan
import MdxLocalization.Proofs.LinePositions
import MdxLocalization.Proofs.ScanSteps
import MdxLocalization.Proofs.TracedOutcome
import MdxLocalization.Proofs.TreeRange

/-!
# Inline nodes in range

The recognisers of inline content answer with lengths, and none of them answers with more than is
left of the text. So the nodes that scanning makes stand in the region that is scanned, and with it
in the source.

The relation `Inline.Scans` says what the scanner can do with a text. Facts about scanned nodes go
by induction on it, and do not look into the scanner.
-/

namespace MdxLocalization

/-! ### Pieces of a text -/

theorem Text.findChar?_lt_length {p : Char → Bool} {t : Text} {n : Nat}
    (found : findChar? p t = some n) : n < t.length := by
  induction t generalizing n with
  | nil =>
      cases found
  | cons c rest hypothesis =>
      rw [findChar?] at found
      rw [List.length_cons]
      split at found
      · cases found
        exact Nat.succ_pos _
      · obtain ⟨before, later, same⟩ := Option.map_eq_some_iff.mp found
        have bound := hypothesis later
        omega

namespace Inline

/-! ### Lengths of constructs -/

/-- The run of backticks that closes a code span stands in the text. -/
theorem closingRun?_le {run offset count : Nat} {t : Text} {position : Nat}
    (before : count ≤ offset) (found : closingRun? run offset count t = some position) :
    position + run ≤ offset + t.length := by
  induction offset, count, t using closingRun?.induct run generalizing position with
  | case1 offset =>
      rw [closingRun?, if_pos rfl, Option.some.injEq] at found
      omega
  | case2 offset count other =>
      rw [closingRun?, if_neg other] at found
      cases found
  | case3 offset count rest hypothesis =>
      rw [closingRun?, if_pos rfl] at found
      have bound := hypothesis (Nat.succ_le_succ before) found
      rw [List.length_cons]
      omega
  | case4 offset c rest noTick =>
      rw [closingRun?, if_neg noTick, if_pos rfl, Option.some.injEq] at found
      rw [List.length_cons]
      omega
  | case5 offset count c rest noTick other hypothesis =>
      rw [closingRun?, if_neg noTick, if_neg other] at found
      have bound := hypothesis (Nat.zero_le _) found
      rw [List.length_cons]
      omega

theorem codeSpan?_length_le {t value : Text} {length : Nat}
    (found : codeSpan? t = some (value, length)) : length ≤ t.length := by
  have opening := Text.countWhile_le_length (· == tick) t
  rw [codeSpan?] at found
  split at found
  · cases found
  · rename_i inner closing
    cases found
    have bound := closingRun?_le (Nat.le_refl 0) closing
    rw [List.length_drop] at bound
    omega

theorem destination?_length_le {t url after : Text} {before : Nat} {angle : Bool}
    (found : destination? t = some (url, before, angle, after)) :
    before + url.length ≤ t.length := by
  unfold destination? at found
  split at found
  · rename_i rest
    split at found
    · cases found
    · rename_i length closing
      cases found
      rw [List.length_take, List.length_cons]
      omega
  · cases found
    rw [List.length_take]
    omega

/-- A link, and the destination in it, stand in the text that the link starts. -/
theorem link?_within {t : Text} {parts : LinkSyntax} (found : link? t = some parts) :
    parts.length ≤ t.length ∧ parts.urlStart ≤ parts.urlStop ∧ parts.urlStop ≤ t.length := by
  unfold link? at found
  split at found
  · cases found
  · rename_i labelStop label
    split at found
    · rename_i inside opened
      have dropped := congrArg List.length opened
      rw [List.length_drop, List.length_cons] at dropped
      have skipped := (List.dropWhile_sublist isLinkSpace (l := inside)).length_le
      dsimp only at found
      split at found
      · cases found
      · rename_i url before angle afterUrl read
        have bound := destination?_length_le read
        split at found
        · cases found
        · rename_i title tail closed
          cases found
          unfold skipLinkSpace at bound ⊢
          dsimp only
          omega
    · cases found

/-! ### Nodes -/

variable {n position : Nat} {pending : Text}

theorem flush_inRange (within : position ≤ n) :
    ∀ node ∈ flush position pending, node.InRange n := by
  intro node member
  unfold flush at member
  split at member
  · cases member
  · rw [List.mem_singleton] at member
    subst member
    exact Node.inRange_of_offsets rfl (Nat.sub_le _ _) within rfl (by simp) (by simp)

theorem urlSpanField_inside {t : Text} {parts : LinkSyntax} (found : link? t = some parts)
    (within : position + t.length ≤ n) :
    ∃ s : Span, (urlSpanField position parts).2 = s.toJson ∧ s.Inside n := by
  have bounds := link?_within found
  exact ⟨_, rfl, Span.ofNats_inside (by omega) (by omega)⟩

theorem imageNode_inRange {t label : Text} {parts : LinkSyntax} (found : link? t = some parts)
    (within : position + 1 + t.length ≤ n) : (imageNode position label parts).InRange n := by
  have bounds := link?_within found
  refine .mk ⟨?_, by simp, ?_⟩ (by simp)
  · intro s placed
    cases placed
    exact Span.ofNats_inside (by omega) (by omega)
  · intro field member named
    rw [List.mem_singleton] at member
    subst member
    exact urlSpanField_inside found within

theorem linkInfo_inRange {t : Text} {parts : LinkSyntax} (found : link? t = some parts)
    (within : position + t.length ≤ n) : (linkInfo position parts).InRange n := by
  have bounds := link?_within found
  refine ⟨?_, by simp [linkInfo], ?_⟩
  · intro s placed
    cases placed
    exact Span.ofNats_inside (by omega) (by omega)
  · intro field member named
    simp only [linkInfo, List.mem_cons, List.not_mem_nil, or_false] at member
    rcases member with address | angle
    · subst address
      exact urlSpanField_inside found within
    · subst angle
      exact absurd named (by simp only; decide)

theorem codeNode_inRange {value : Text} {length : Nat} (within : position + length ≤ n) :
    (codeNode position value length).InRange n :=
  Node.inRange_of_offsets rfl (Nat.le_add_right _ _) within rfl (by simp) (by simp)

/-! ### Steps of the scanner -/

/-- How a text is scanned: it ends, plain characters are collected from it, or it begins with a
construct, in front of which the collected characters become a node. -/
inductive Scans : Nat → Text → Text → List Node → Prop where
  | stops {position : Nat} {pending : Text} :
      Scans position pending [] (flush position pending)
  | collects {position : Nat} {pending t : Text} {nodes : List Node} (count : Nat)
      (fits : count ≤ t.length)
      (further : Scans (position + count) ((t.take count).reverse ++ pending) (t.drop count) nodes) :
      Scans position pending t nodes
  | code {position : Nat} {pending rest value : Text} {nodes : List Node} {length : Nat}
      (found : codeSpan? (tick :: rest) = some (value, length))
      (further : Scans (position + length) [] (rest.drop (length - 1)) nodes) :
      Scans position pending (tick :: rest)
        (flush position pending ++ codeNode position value length :: nodes)
  | image {position : Nat} {pending rest label : Text} {nodes : List Node} {parts : LinkSyntax}
      (found : link? rest = some parts)
      (further : Scans (position + 1 + parts.length) [] (rest.drop parts.length) nodes) :
      Scans position pending ('!' :: rest)
        (flush position pending ++ imageNode position label parts :: nodes)
  | link {position : Nat} {pending rest : Text} {children nodes : List Node} {parts : LinkSyntax}
      (found : link? ('[' :: rest) = some parts)
      (label : Scans (position + 1) [] (rest.take parts.labelLength) children)
      (further : Scans (position + parts.length) [] (rest.drop (parts.length - 1)) nodes) :
      Scans position pending ('[' :: rest)
        (flush position pending ++ .mk (linkInfo position parts) children :: nodes)

theorem scanFrom_scans (position : Nat) (pending t : Text) :
    Scans position pending t (scanFrom position pending t) := by
  induction t using scanFrom_induction generalizing position pending with
  | nil =>
      rw [scanFrom_nil]
      exact .stops
  | backslash =>
      rw [scanFrom_backslash_end]
      exact .collects 1 (by simp) .stops
  | collects piece rest whole collected hypothesis =>
      rw [collected]
      refine .collects piece.length (by simp) ?_
      rw [List.take_left, List.drop_left]
      exact hypothesis _ _
  | code rest value length found hypothesis =>
      rw [scanFrom_code found]
      exact .code found (hypothesis _ _)
  | image rest parts found hypothesis =>
      rw [scanFrom_image found]
      exact .image (link?_of_imageLink? found) (hypothesis _ _)
  | link rest parts found labelHypothesis hypothesis =>
      rw [scanFrom_link found]
      exact .link found (labelHypothesis _ _) (hypothesis _ _)

/-- What is scanned at a position of a text gives nodes in range for the text. -/
theorem Scans.inRange {t : Text} {nodes : List Node} (scans : Scans position pending t nodes)
    (within : position + t.length ≤ n) : ∀ node ∈ nodes, node.InRange n := by
  induction scans with
  | stops =>
      exact flush_inRange within
  | collects count fits further hypothesis =>
      apply hypothesis
      rw [List.length_drop]
      omega
  | code found further hypothesis =>
      have bound := codeSpan?_length_le found
      rw [List.length_cons] at bound within
      refine List.forall_mem_append.mpr ⟨flush_inRange (by omega), ?_⟩
      refine List.forall_mem_cons.mpr ⟨codeNode_inRange (by omega), hypothesis ?_⟩
      rw [List.length_drop]
      omega
  | image found further hypothesis =>
      have bound := link?_within found
      rw [List.length_cons] at within
      refine List.forall_mem_append.mpr ⟨flush_inRange (by omega), ?_⟩
      refine List.forall_mem_cons.mpr ⟨imageNode_inRange found (by omega), hypothesis ?_⟩
      rw [List.length_drop]
      omega
  | link found label further labelHypothesis hypothesis =>
      have bound := link?_within found
      have info := linkInfo_inRange found within
      rw [List.length_cons] at bound within
      refine List.forall_mem_append.mpr ⟨flush_inRange (by omega), ?_⟩
      refine List.forall_mem_cons.mpr ⟨.mk info (labelHypothesis ?_), hypothesis ?_⟩
      · rw [List.length_take]
        omega
      · rw [List.length_drop]
        omega

/-- A region that ends in the source can be scanned, and its nodes are in range. -/
theorem scan_settles {failure : ParseError → Prop} {source : Text} {start stop : Nat}
    (within : stop ≤ source.length) :
    Settles (fun nodes => ∀ node ∈ nodes, node.InRange source.length) failure
      (scan source start stop) := by
  rw [scan_eq_ok within]
  by_cases inside : start ≤ source.length
  · apply (scanFrom_scans _ _ _).inRange
    rw [Text.length_slice]
    omega
  · have empty : Text.slice source start stop = [] := by
      rw [← List.length_eq_zero_iff, Text.length_slice]
      omega
    rw [empty, scanFrom]
    simp [Settles, flush]

theorem scan_eq_error {source : Text} {start stop : Nat} (filled : start < stop)
    (past : source.length < stop) : scan source start stop = .error .regionPastEnd := by
  rw [scan, if_pos (by simp [filled, past])]

end Inline

end MdxLocalization
