import MdxLocalization.Proofs.LinePositions
import MdxLocalization.Proofs.ScanSteps
import MdxLocalization.Proofs.TreeRange

/-!
# Scanning wherever the text stands

The scanner sees the region and nothing else of a source: the nodes of a region are those of its
text as a source of its own, with every offset moved to where the region starts. Offsets are the
spans of the nodes and, in the data of links and images, the spans of their addresses.
-/

namespace MdxLocalization

/-! ### Moving trees -/

/-- The numbers among the fields of an object, each with a distance added to it. -/
def Json.shiftNumbers (distance : Int) : Json → Json
  | .object fields =>
    .object (fields.map fun field =>
      match field.2 with
      | .integer n => (field.1, .integer (n + distance))
      | value => (field.1, value))
  | value => value

def JsxAttribute.shiftBy (distance : Int) (a : JsxAttribute) : JsxAttribute :=
  { a with
    span := a.span.map (Span.shiftBy · distance)
    valueSpan := a.valueSpan.map (Span.shiftBy · distance) }

/-- The facts of a node with a distance added to all of their offsets. -/
def NodeInfo.shiftBy (distance : Int) (info : NodeInfo) : NodeInfo :=
  { info with
    span := info.span.map (Span.shiftBy · distance)
    attributes := info.attributes.map (JsxAttribute.shiftBy distance)
    data := info.data.map fun field =>
      if field.1 = addressKey then (field.1, field.2.shiftNumbers distance) else field }

mutual

/-- A tree with a distance added to all of its offsets. -/
def Node.shiftBy (distance : Int) : Node → Node
  | .mk info children => .mk (info.shiftBy distance) (Node.shiftAll distance children)

def Node.shiftAll (distance : Int) : List Node → List Node
  | [] => []
  | node :: rest => node.shiftBy distance :: Node.shiftAll distance rest

end

variable {distance : Int} {k : Nat}

@[simp] theorem Node.shiftAll_eq_map (nodes : List Node) :
    Node.shiftAll distance nodes = nodes.map (Node.shiftBy distance) := by
  induction nodes with
  | nil =>
      rw [shiftAll, List.map_nil]
  | cons node rest hypothesis =>
      rw [shiftAll, List.map_cons, hypothesis]

theorem Span.toJson_shiftBy (s : Span) :
    (s.shiftBy distance).toJson = s.toJson.shiftNumbers distance :=
  rfl

theorem Span.ofNats_shiftBy (start stop : Nat) :
    (Span.ofNats start stop).shiftBy k = Span.ofNats (k + start) (k + stop) := by
  simp [Span.ofNats, Span.shiftBy, Int.add_comm]

namespace Inline

/-! ### Moving nodes of inline content -/

variable {position : Nat} {pending : Text}

theorem flush_shift (counted : pending.length ≤ position) :
    flush (k + position) pending = (flush position pending).map (Node.shiftBy k) := by
  unfold flush
  split
  · rfl
  · have begins : k + position - pending.length = k + (position - pending.length) := by
      omega
    simp [Node.shiftBy, NodeInfo.shiftBy, Span.ofNats_shiftBy, begins]

theorem urlSpanField_shift (parts : LinkSyntax) :
    urlSpanField (k + position) parts =
      (addressKey, (urlSpanField position parts).2.shiftNumbers k) := by
  rw [urlSpanField, urlSpanField, ← Span.toJson_shiftBy, Span.ofNats_shiftBy, Nat.add_assoc,
    Nat.add_assoc]
  rfl

theorem linkInfo_shift (parts : LinkSyntax) :
    linkInfo (k + position) parts = (linkInfo position parts).shiftBy k := by
  have field := @urlSpanField_shift k position parts
  have other : Text.ofString "angle" ≠ addressKey := by
    decide
  simp only [linkInfo, NodeInfo.shiftBy, field, List.map_cons, List.map_nil, if_neg other,
    Option.map_some, Span.ofNats_shiftBy, Nat.add_assoc]
  rfl

theorem imageNode_shift (label : Text) (parts : LinkSyntax) :
    imageNode (k + position) label parts = (imageNode position label parts).shiftBy k := by
  have field := @urlSpanField_shift k (position + 1) parts
  simp only [imageNode, Node.shiftBy, NodeInfo.shiftBy, Nat.add_assoc, field, List.map_cons,
    List.map_nil, Option.map_some, Span.ofNats_shiftBy, Node.shiftAll_eq_map]
  rfl

theorem codeNode_shift (value : Text) (length : Nat) :
    codeNode (k + position) value length = (codeNode position value length).shiftBy k := by
  simp [codeNode, Node.shiftBy, NodeInfo.shiftBy, Span.ofNats_shiftBy, Nat.add_assoc]

/-- Moving the text moves the nodes, and changes nothing else in them. The characters collected so
far have to stand in front of the text. -/
theorem scanFrom_shift (t : Text) (counted : pending.length ≤ position) :
    scanFrom (k + position) pending t = (scanFrom position pending t).map (Node.shiftBy k) := by
  have unread {position : Nat} : ([] : Text).length ≤ position := Nat.zero_le _
  induction t using scanFrom_induction generalizing position pending with
  | nil =>
      rw [scanFrom_nil, scanFrom_nil, flush_shift counted]
  | backslash =>
      rw [scanFrom_backslash_end, scanFrom_backslash_end, Nat.add_assoc,
        flush_shift (Nat.succ_le_succ counted)]
  | collects piece rest whole collected hypothesis =>
      rw [collected, collected, Nat.add_assoc]
      refine hypothesis ?_
      rw [List.length_append, List.length_reverse]
      omega
  | code rest value length found hypothesis =>
      rw [scanFrom_code found, scanFrom_code found, Nat.add_assoc, hypothesis unread,
        flush_shift counted, codeNode_shift, List.map_append, List.map_cons]
  | image rest parts found hypothesis =>
      rw [scanFrom_image found, scanFrom_image found, Nat.add_assoc, Nat.add_assoc,
        ← Nat.add_assoc position, hypothesis unread, flush_shift counted, imageNode_shift,
        List.map_append, List.map_cons]
  | link rest parts found labelHypothesis hypothesis =>
      rw [scanFrom_link found, scanFrom_link found, Nat.add_assoc, Nat.add_assoc,
        labelHypothesis unread, hypothesis unread, flush_shift counted, linkInfo_shift,
        List.map_append, List.map_cons, Node.shiftBy, Node.shiftAll_eq_map]

/-! ### Regions -/

theorem scan_eq_shift {source : Text} {start stop : Nat} (inOrder : start ≤ stop)
    (within : stop ≤ source.length) :
    scan source start stop =
      (scan (Text.slice source start stop) 0 (stop - start)).map
        (List.map (Node.shiftBy start)) := by
  have size : (Text.slice source start stop).length = stop - start := by
    rw [Text.length_slice]
    omega
  have whole : Text.slice (Text.slice source start stop) 0 (stop - start) =
      Text.slice source start stop := by
    rw [Text.slice, List.drop_zero, List.take_of_length_le (by omega)]
  rw [scan_eq_ok within, scan_eq_ok (Nat.le_of_eq size.symm), whole]
  have moved := @scanFrom_shift start 0 [] (Text.slice source start stop) (Nat.zero_le 0)
  exact congrArg Except.ok moved

/-- What is scanned depends on the characters of the region alone. The nodes of a region are those
of its text taken as a source of its own, with the start of the region added to every offset; and so
are the nodes of any other region, of this source or another one, that holds the same text. -/
theorem scan_local {source : Text} {start stop : Nat} (inOrder : start ≤ stop)
    (within : stop ≤ source.length) :
    ∃ nodes, scan (Text.slice source start stop) 0 (stop - start) = .ok nodes ∧
      scan source start stop = .ok (nodes.map (Node.shiftBy start)) ∧
      ∀ other first last, first ≤ last → last ≤ other.length →
        Text.slice other first last = Text.slice source start stop →
          scan other first last = .ok (nodes.map (Node.shiftBy first)) := by
  have size : (Text.slice source start stop).length = stop - start := by
    rw [Text.length_slice]
    omega
  obtain ⟨nodes, scanned⟩ :
      ∃ nodes, scan (Text.slice source start stop) 0 (stop - start) = .ok nodes :=
    ⟨_, scan_eq_ok (Nat.le_of_eq size.symm)⟩
  refine ⟨nodes, scanned, ?_, ?_⟩
  · rw [scan_eq_shift inOrder within, scanned]
    rfl
  · intro other first last ordered contained same
    have sameSize : last - first = stop - start := by
      rw [← size, ← same, Text.length_slice]
      omega
    rw [scan_eq_shift ordered contained, same, sameSize, scanned]
    rfl

/-- A cell of a table with a backtick that has its partner in the next cell, and the text of the
cell as a document. -/
theorem scan_local_cell :
    let source := Text.ofString "| `a [b](c) | `d |"
    let other := Text.ofString "`a [b](c)"
    (2 ≤ 11 ∧ 11 ≤ source.length) ∧
      (0 ≤ 9 ∧ 9 ≤ other.length ∧ Text.slice other 0 9 = Text.slice source 2 11) ∧
      ∃ nodes, scan (Text.slice source 2 11) 0 9 = .ok nodes ∧
        nodes.map (fun node => (node.kind, node.span)) =
          [(.text, some ⟨0, 3⟩), (.link, some ⟨3, 9⟩)] ∧
        scan source 2 11 = .ok (nodes.map (Node.shiftBy 2)) ∧
        scan other 0 9 = .ok (nodes.map (Node.shiftBy 0)) := by
  intro source other
  have bounds : 2 ≤ 11 ∧ 11 ≤ source.length := by
    decide
  have same : 0 ≤ 9 ∧ 9 ≤ other.length ∧ Text.slice other 0 9 = Text.slice source 2 11 := by
    decide
  obtain ⟨nodes, scanned, moved, elsewhere⟩ := scan_local bounds.1 bounds.2
  have found : (scan (Text.slice source 2 11) 0 9).toOption.map (List.map fun node =>
      (node.kind, node.span)) = some [(.text, some ⟨0, 3⟩), (.link, some ⟨3, 9⟩)] := by
    decide +kernel
  rw [scanned] at found
  exact ⟨bounds, same, nodes, scanned, Option.some.inj found, moved,
    elsewhere other 0 9 same.1 same.2.1 same.2.2⟩

end Inline

end MdxLocalization
