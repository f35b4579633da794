import Mathlib.Data.List.Basic
import MdxLocalization.Tree.Json

/-!
# Trees in range

A tree is in range for a text when every span that it records lies in the text: those of its nodes,
of their attributes and the values of these, and of the addresses of links and images. Unlike a
well-positioned tree it need not have a span anywhere, and its spans need not nest.
-/

namespace MdxLocalization

/-- A span lies in a text of `n` characters, with its ends in order. -/
def Span.Inside (s : Span) (n : Nat) : Prop := 0 ≤ s.start ∧ s.start ≤ s.stop ∧ s.stop ≤ n

theorem Span.ofNats_inside {start stop n : Nat} (inOrder : start ≤ stop) (within : stop ≤ n) :
    (ofNats start stop).Inside n :=
  ⟨Int.natCast_nonneg start, Int.ofNat_le.mpr inOrder, Int.ofNat_le.mpr within⟩

/-- The spans of an attribute lie in a text. -/
structure JsxAttribute.InRange (length : Nat) (a : JsxAttribute) : Prop where
  span : ∀ s, a.span = some s → s.Inside length
  valueSpan : ∀ s, a.valueSpan = some s → s.Inside length

/-- The key under which a link or an image records where its address stands. -/
def addressKey : Text := Text.ofString "url_span"

/-- The spans that a node itself records lie in a text. -/
structure NodeInfo.InRange (length : Nat) (info : NodeInfo) : Prop where
  span : ∀ s, info.span = some s → s.Inside length
  attributes : ∀ a ∈ info.attributes, a.InRange length
  address : ∀ field ∈ info.data, field.1 = addressKey →
    ∃ s : Span, field.2 = s.toJson ∧ s.Inside length

/-- All spans in a tree lie in a text of `length` characters. -/
inductive Node.InRange (length : Nat) : Node → Prop where
  | mk {info : NodeInfo} {children : List Node} (own : info.InRange length)
      (below : ∀ child ∈ children, InRange length child) : InRange length (.mk info children)

theorem NodeInfo.inRange_of_span {length : Nat} {info : NodeInfo}
    (span : ∀ s, info.span = some s → s.Inside length) (bare : info.attributes = [])
    (plain : ∀ field ∈ info.data, field.1 ≠ addressKey) : info.InRange length where
  span := span
  attributes := by simp [bare]
  address := fun field member same => absurd same (plain field member)

theorem Node.inRange_of_offsets {length start stop : Nat} {info : NodeInfo} {children : List Node}
    (placed : info.span = some (Span.ofNats start stop)) (inOrder : start ≤ stop)
    (within : stop ≤ length) (bare : info.attributes = [])
    (plain : ∀ field ∈ info.data, field.1 ≠ addressKey)
    (below : ∀ child ∈ children, Node.InRange length child) :
    Node.InRange length (.mk info children) := by
  refine .mk (NodeInfo.inRange_of_span ?_ bare plain) below
  intro s found
  rw [placed, Option.some.injEq] at found
  rw [← found]
  exact Span.ofNats_inside inOrder within

theorem Node.inRange_of_none {length : Nat} {info : NodeInfo} (absent : info.span = none)
    (bare : info.attributes = []) (plain : ∀ field ∈ info.data, field.1 ≠ addressKey) :
    Node.InRange length (.mk info []) := by
  refine .mk (NodeInfo.inRange_of_span ?_ bare plain) (by simp)
  simp [absent]

theorem Node.InRange.of_mem {length : Nat} {info : NodeInfo} {children : List Node}
    (inRange : Node.InRange length (.mk info children)) :
    ∀ child ∈ children, Node.InRange length child := by
  cases inRange with
  | mk own below =>
      exact below

theorem Node.InRange.own {length : Nat} {info : NodeInfo} {children : List Node}
    (inRange : Node.InRange length (.mk info children)) : info.InRange length := by
  cases inRange with
  | mk own below =>
      exact own

end MdxLocalization
