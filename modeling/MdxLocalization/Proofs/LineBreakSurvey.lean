import MdxLocalization.Proofs.LineBreakTree
import MdxLocalization.Proofs.SurveyCoverage
import MdxLocalization.Proofs.TreeNesting

/-!
# Surveys with the other kind of line breaks

Trees that mirror each other are surveyed alike: the same changes come of both, with their spans
moved. The one difference is in the addresses of links, which are read from the raw text. Whether
an address can be localised may depend on a break in it, so a survey that fails for an address says
nothing about the other one.
-/

namespace MdxLocalization

/-- A change of a text and the same change of the text with carriage returns. -/
structure Change.Mirrors (source : Text) (c c' : Change) : Prop where
  kind : c'.kind = c.kind
  notes : c'.notes = c.notes
  span : c'.span = c.span.moved source

/-- A label is marked in both trees. -/
theorem NodeInfo.Mirrors.flag_directiveLabel {source : Text} {info info' : NodeInfo}
    (own : info.Mirrors source info') :
    info'.flag "directiveLabel" = info.flag "directiveLabel" := by
  unfold NodeInfo.flag NodeInfo.dataField?
  by_cases block : info.kind = .yaml
  · obtain ⟨start, stop, -, data, -, data'⟩ := own.frontMatter block
    rw [data, data']
    rfl
  · rw [own.data block]

namespace Extract

/-- With these settings, addresses cannot be localised. -/
def Settings.Refuses (s : Settings) : Prop :=
  ∃ url e, Url.localize s.locale s.placeholder url = .error e

theorem not_refuses_english (source : Text) :
    ¬ Settings.Refuses ⟨source, Text.ofString "en", Text.ofString "locale"⟩ := by
  rintro ⟨url, e, failed⟩
  have code : LanguageTag.languageCode (Text.ofString "en") = .ok (Text.ofString "en") := by
    decide +kernel
  have template : Template.read ('/' :: Url.placeholder (Text.ofString "locale")) =
      .ok ((Text.ofString "/%%locale%%").map .char) := by
    decide +kernel
  simp [Url.localize, code, template, Except.mapError, bind, Except.bind, pure, Except.pure]
    at failed

/-- The outcomes of extraction from two texts correspond: results are related, and a missing
position is missing in both. Where addresses cannot be localised, an outcome may be the error that
says so, whatever the other one is. -/
def Corresponds {β γ : Type} (s : Settings) (related : β → γ → Prop) :
    Except ExtractError β → Except ExtractError γ → Prop
  | .ok b, .ok c => related b c
  | .error (.missingPosition e), .error (.missingPosition e') => e' = e
  | .error (.url _), _ => s.Refuses
  | _, .error (.url _) => s.Refuses
  | _, _ => False

section Outcomes

variable {β γ β' γ' : Type} {s : Settings} {related : β → γ → Prop} {other : β' → γ' → Prop}
  {x : Except ExtractError β} {y : Except ExtractError γ}

theorem corresponds_url_right (x : Except ExtractError β) (e : UrlError) :
    Corresponds s related x (.error (.url e)) ↔ s.Refuses := by
  rcases x with (_ | _) | _ <;> exact Iff.rfl

theorem corresponds_url_left (e : UrlError) (y : Except ExtractError γ) :
    Corresponds s related (.error (.url e)) y ↔ s.Refuses := by
  rcases y with (_ | _) | _ <;> exact Iff.rfl

theorem Corresponds.bind {f : β → Except ExtractError β'} {g : γ → Except ExtractError γ'}
    (first : Corresponds s related x y)
    (rest : ∀ b c, related b c → Corresponds s other (f b) (g c)) :
    Corresponds s other (x >>= f) (y >>= g) := by
  rcases y with (e' | e') | c
  · rcases x with (e | e) | b
    · exact first
    · exact (corresponds_url_left e _).mpr ((corresponds_url_left e _).mp first)
    · exact first.elim
  · exact (corresponds_url_right _ e').mpr ((corresponds_url_right _ e').mp first)
  · rcases x with (e | e) | b
    · exact first.elim
    · exact (corresponds_url_left e _).mpr ((corresponds_url_left e _).mp first)
    · exact rest b c first

theorem Corresponds.map {f : β → β'} {g : γ → γ'} (first : Corresponds s related x y)
    (carried : ∀ b c, related b c → other (f b) (g c)) :
    Corresponds s other (x.map f) (y.map g) := by
  rcases y with (e' | e') | c
  · rcases x with (e | e) | b
    · exact first
    · exact first
    · exact first.elim
  · exact (corresponds_url_right _ e').mpr ((corresponds_url_right _ e').mp first)
  · rcases x with (e | e) | b
    · exact first.elim
    · exact first
    · exact carried b c first

/-- Outcomes of which no position is missing correspond when all results are related. -/
theorem Yields.corresponds {left : β → Prop} {right : γ → Prop} (first : Yields s left x)
    (second : Yields s right y) (both : ∀ b c, left b → right c → related b c) :
    Corresponds s related x y := by
  rcases y with (e' | e') | c
  · exact second.elim
  · obtain ⟨url, failed⟩ := second
    exact (corresponds_url_right _ e').mpr ⟨url, e', failed⟩
  · rcases x with (e | e) | b
    · exact first.elim
    · obtain ⟨url, failed⟩ := first
      exact ⟨url, e, failed⟩
    · exact both b c first second

end Outcomes

/-- The settings for the text with carriage returns. -/
def Settings.withReturns (s : Settings) : Settings := { s with source := Text.addReturns s.source }

variable {s : Settings} {source : Text}

/-! ### Items of a block -/

/-- A part of a block in the two texts. -/
inductive BlockItem.Mirrors (source : Text) : BlockItem → BlockItem → Prop where
  | change {c c' : Change} (mirrors : c.Mirrors source c') : Mirrors source (.change c) (.change c')
  | stretch (text text' : Text) (span : Span) :
      Mirrors source (.stretch text span) (.stretch text' (span.moved source))

/-- The stretches that are being collected, if any, have corresponding spans. -/
abbrev StretchMirrors (source : Text) : Option Stretch → Option Stretch → Prop :=
  Option.Rel fun stretch stretch' => stretch'.span = stretch.span.moved source

theorem extend_mirrors {current current' : Option Stretch}
    (mirrors : StretchMirrors source current current') (text text' : Text) (span : Span) :
    StretchMirrors source (some (extend current text span))
      (some (extend current' text' (span.moved source))) := by
  cases mirrors with
  | none =>
      exact .some rfl
  | some same =>
      rename_i stretch stretch'
      refine .some ?_
      simp only [extend, same]
      rfl

theorem finish_mirrors {current current' : Option Stretch}
    (mirrors : StretchMirrors source current current') :
    List.Forall₂ (BlockItem.Mirrors source) (finish current) (finish current') := by
  cases mirrors with
  | none =>
      exact .nil
  | some same =>
      rename_i stretch stretch'
      refine .cons ?_ .nil
      rw [same]
      exact .stretch _ _ _

theorem Span.moved_filled (source : Text) (span : Span) :
    (span.moved source).start < (span.moved source).stop ↔ span.start < span.stop := by
  have counted : ∀ {a b : Int}, a ≤ b →
      (source.take a.toNat).count '\n' ≤ (source.take b.toNat).count '\n' :=
    fun le => (List.take_sublist_take_left (Int.toNat_le_toNat le)).count_le '\n'
  change span.start + _ < span.stop + _ ↔ _
  constructor
  · intro less
    by_contra past
    have := counted (Int.not_lt.mp past)
    omega
  · intro filled
    have := counted (Int.le_of_lt filled)
    omega

theorem changesOfItems_mirrors (withStretches : Bool) (notes : Text) {items items' : List BlockItem}
    (mirrors : List.Forall₂ (BlockItem.Mirrors source) items items') :
    List.Forall₂ (Change.Mirrors source) (changesOfItems withStretches notes items)
      (changesOfItems withStretches notes items') := by
  unfold changesOfItems
  refine List.rel_flatMap mirrors fun item item' mirrors => ?_
  cases mirrors with
  | change mirrors =>
      exact .cons mirrors .nil
  | stretch text text' span =>
      simp only [Span.moved_filled]
      split
      · exact .cons ⟨rfl, rfl, rfl⟩ .nil
      · exact .nil

/-! ### One step of a survey -/

section Steps

variable {info : NodeInfo} {node : Node} {rest : List Node}

theorem survey_after_spanOrFail (top : Bool) (node : Node) :
    (survey s top node).after.info.spanOrFail = node.info.spanOrFail := by
  have span : (survey s top node).after.info.span = node.info.span := survey_after_span top node
  have kind : (survey s top node).after.info.kind = node.info.kind := survey_after_kind top node
  rw [NodeInfo.spanOrFail, NodeInfo.spanOrFail, span, kind]

theorem surveyAll_cons_result (top : Bool) :
    (surveyAll s top (node :: rest)).result =
      (survey s top node).result >>= fun changes =>
        (surveyAll s top rest).result.map (changes ++ ·) := by
  rw [surveyAll]
  cases (survey s top node).result <;> rfl

theorem surveyTopLevel_cons_result :
    (surveyTopLevel s (node :: rest)).result =
      if isTopLevelKind node.kind then
        (survey s true node).result >>= fun changes =>
          (surveyTopLevel s rest).result.map (changes ++ ·)
      else (surveyTopLevel s rest).result := by
  rw [surveyTopLevel]
  split
  · dsimp only
    cases (survey s true node).result <;> rfl
  · rfl

theorem surveyBlock_cons_result (current : Option Stretch) :
    (surveyBlock s current (node :: rest)).result =
      (survey s false node).result >>= fun changes =>
        if !changes.isEmpty || node.kind = .list then
          (surveyBlock s none rest).result.map (finish current ++ changes.map .change ++ ·)
        else
          (node.info.spanOrFail.mapError .missingPosition) >>= fun span =>
            (surveyBlock s (some (extend current
              (childText s.source (survey s false node).after) span)) rest).result := by
  rw [surveyBlock]
  cases (survey s false node).result with
  | error e =>
      rfl
  | ok changes =>
      dsimp only
      rw [survey_after_kind, survey_after_spanOrFail]
      change _ = if _ then _ else _
      split
      · rfl
      · cases node.info.spanOrFail <;> rfl

theorem surveyDirective_label_result {label : NodeInfo} {inner : List Node}
    (labelled : label.flag "directiveLabel" = true) :
    (surveyDirective s info (.mk label inner :: rest)).result =
      (label.spanOrFail.mapError .missingPosition) >>= fun span =>
        (surveyAll s false inner).result >>= fun _ =>
          (surveyBlock s none rest).result.map fun items =>
            labelChange s.source info span (surveyAll s false inner).after ::
              changesOfItems true (directiveNotes "content" info) items := by
  rw [surveyDirective, if_pos labelled]
  cases label.spanOrFail with
  | error e =>
      rfl
  | ok span =>
      dsimp only
      cases (surveyAll s false inner).result <;> rfl

theorem surveyDirective_body_result
    (unlabelled : ∀ first ∈ rest.head?, first.info.flag "directiveLabel" = false) :
    (surveyDirective s info rest).result =
      (surveyBlock s none rest).result.map
        (changesOfItems true (directiveNotes "content" info)) := by
  cases rest with
  | nil =>
      rw [surveyDirective, surveyBlock]
      rfl
  | cons first rest =>
      obtain ⟨label, inner⟩ := first
      have other : label.flag "directiveLabel" = false := unlabelled _ rfl
      rw [surveyDirective, if_neg (by simp [other])]

end Steps

/-! ### Lists of nodes -/

/-- Surveying a node, or its children one by one, gives corresponding changes. -/
def SurveysAlike (s : Settings) (node node' : Node) : Prop :=
  (∀ top, Corresponds s (List.Forall₂ (Change.Mirrors s.source)) (survey s top node).result
      (survey s.withReturns top node').result) ∧
    Corresponds s (List.Forall₂ (Change.Mirrors s.source)) (surveyAll s false node.children).result
      (surveyAll s.withReturns false node'.children).result

variable {nodes nodes' : List Node}

theorem surveyAll_corresponds (top : Bool) (each : List.Forall₂ (SurveysAlike s) nodes nodes') :
    Corresponds s (List.Forall₂ (Change.Mirrors s.source)) (surveyAll s top nodes).result
      (surveyAll s.withReturns top nodes').result := by
  induction each with
  | nil =>
      rw [surveyAll, surveyAll]
      exact .nil
  | cons first others hypothesis =>
      rw [surveyAll_cons_result, surveyAll_cons_result]
      refine (first.1 top).bind fun changes changes' mirrors => ?_
      exact hypothesis.map fun later later' more => List.rel_append mirrors more

theorem spanOrFail_corresponds {info info' : NodeInfo} (own : info.Mirrors source info') :
    Corresponds s (fun span span' => span ∈ info.span ∧ span' = span.moved source)
      (info.spanOrFail.mapError .missingPosition) (info'.spanOrFail.mapError .missingPosition) := by
  unfold NodeInfo.spanOrFail
  rw [own.span, own.kind]
  cases info.span with
  | none =>
      exact rfl
  | some span =>
      exact ⟨rfl, rfl⟩

theorem surveyBlock_corresponds {current current' : Option Stretch}
    (mirrors : StretchMirrors s.source current current') (all : MirrorAll s.source nodes nodes')
    (each : List.Forall₂ (SurveysAlike s) nodes nodes') :
    Corresponds s (List.Forall₂ (BlockItem.Mirrors s.source)) (surveyBlock s current nodes).result
      (surveyBlock s.withReturns current' nodes').result := by
  induction all generalizing current current' with
  | nil =>
      rw [surveyBlock, surveyBlock]
      exact finish_mirrors mirrors
  | @cons node node' rest rest' here others hypothesis =>
      obtain ⟨first, later⟩ := List.forall₂_cons.mp each
      have own := here.own
      have kind : node'.kind = node.kind := own.kind
      rw [surveyBlock_cons_result, surveyBlock_cons_result, kind]
      refine (first.1 false).bind fun changes changes' same => ?_
      have empty : changes'.isEmpty = changes.isEmpty := by
        cases same <;> rfl
      rw [empty]
      split
      · refine (hypothesis .none later).map fun items items' more => ?_
        refine List.rel_append (List.rel_append (finish_mirrors mirrors) ?_) more
        refine List.forall₂_map_left_iff.mpr (List.forall₂_map_right_iff.mpr ?_)
        exact same.imp fun c c' => .change
      · refine (spanOrFail_corresponds own).bind ?_
        rintro span _ ⟨-, rfl⟩
        exact hypothesis (extend_mirrors mirrors _ _ _) later

theorem surveyDirective_corresponds {info info' : NodeInfo} (own : info.Mirrors s.source info')
    (all : MirrorAll s.source nodes nodes') (each : List.Forall₂ (SurveysAlike s) nodes nodes') :
    Corresponds s (List.Forall₂ (Change.Mirrors s.source)) (surveyDirective s info nodes).result
      (surveyDirective s.withReturns info' nodes').result := by
  have notes : ∀ part, directiveNotes part info' = directiveNotes part info := by
    intro part
    rw [directiveNotes, directiveNotes, own.name]
  cases all with
  | nil =>
      rw [surveyDirective, surveyDirective]
      exact .nil
  | @cons first first' rest rest' here others =>
      obtain ⟨alike, later⟩ := List.forall₂_cons.mp each
      have flag := here.own.flag_directiveLabel
      cases labelled : first.info.flag "directiveLabel" with
      | false =>
          have body := surveyBlock_corresponds .none (.cons here others) each
          rw [surveyDirective_body_result (by simp [labelled]),
            surveyDirective_body_result (by simp [flag, labelled]), notes]
          exact body.map fun items items' more => changesOfItems_mirrors true _ more
      | true =>
          obtain ⟨label, inner⟩ := first
          obtain ⟨label', inner'⟩ := first'
          change label.flag "directiveLabel" = true at labelled
          change label'.flag "directiveLabel" = label.flag "directiveLabel" at flag
          rw [surveyDirective_label_result labelled,
            surveyDirective_label_result (flag.trans labelled)]
          refine (spanOrFail_corresponds here.own).bind ?_
          rintro span _ ⟨placed, rfl⟩
          refine alike.2.bind fun _ _ _ => ?_
          refine (surveyBlock_corresponds .none others later).map fun items items' more => ?_
          refine .cons ⟨rfl, notes "title", (here.own.label labelled span placed).symm⟩ ?_
          rw [notes]
          exact changesOfItems_mirrors true _ more

/-! ### Nodes of each kind -/

section Kinds

variable {info info' : NodeInfo} {children children' : List Node}

theorem titleAttribute_mirrors (own : info.Mirrors source info') :
    List.Forall₂ (Change.Mirrors source) (titleAttribute info).1 (titleAttribute info').1 := by
  have named : info'.attributeNamed? (Text.ofString "title") =
      (info.attributeNamed? (Text.ofString "title")).map (JsxAttribute.moved source) := by
    unfold NodeInfo.attributeNamed?
    rw [own.attributes, List.find?_map]
    rfl
  unfold titleAttribute
  dsimp only
  rw [named, own.name]
  cases info.attributeNamed? (Text.ofString "title") with
  | none =>
      exact .nil
  | some a =>
      have empty : (Text.addReturns a.value).isEmpty = a.value.isEmpty := by
        rw [Bool.eq_iff_iff, List.isEmpty_iff, List.isEmpty_iff, Text.addReturns_eq_nil_iff]
      dsimp only [Option.map_some, JsxAttribute.moved]
      rw [empty]
      cases a.valueSpan with
      | none =>
          exact .nil
      | some span =>
          dsimp only [Option.map_some]
          split
          · exact .nil
          · exact .cons ⟨rfl, rfl, rfl⟩ .nil

/-- What a link yields, placed or not. -/
theorem linkResult_yields {s : Settings} (address : Option Text) (same : Node)
    (after : Text → Node) :
    Yields s (· = [])
      (match address with
        | none => ({ after := same, result := .ok [] } : Survey Node (List Change))
        | some url =>
          match Url.localize s.locale s.placeholder url with
          | .ok url => { after := after url, result := .ok [] }
          | .error e => { after := same, result := .error (.url e) }).result := by
  cases address with
  | none =>
      exact rfl
  | some url =>
      dsimp only
      cases localized : Url.localize s.locale s.placeholder url with
      | ok found =>
          exact rfl
      | error e =>
          exact ⟨url, localized⟩

/-- A node whose children are surveyed alike. -/
theorem survey_nested_corresponds (own : info.Mirrors s.source info')
    (all : MirrorAll s.source children children')
    (each : List.Forall₂ (SurveysAlike s) children children') (top : Bool) :
    Corresponds s (List.Forall₂ (Change.Mirrors s.source))
      (survey s top (.mk info children)).result
      (survey s.withReturns top (.mk info' children')).result := by
  have empty : children'.isEmpty = children.isEmpty := by
    cases all <;> rfl
  have absent : info'.span.isNone = info.span.isNone := by
    rw [own.span, Option.isNone_map]
  have inner := surveyAll_corresponds true each
  have items := (surveyBlock_corresponds .none all each).map
    fun items items' more => changesOfItems_mirrors top [] more
  have titles := titleAttribute_mirrors own
  rw [survey, survey, own.kind, empty, absent]
  split
  · exact .nil
  · split
    · exact rfl
    · cases kind : info.kind
      all_goals dsimp only
      case link =>
        -- The two addresses may differ; a link yields no change with either of them.
        refine Yields.corresponds (s := s) (linkResult_yields _ _ _)
          (linkResult_yields (s := s.withReturns) _ _ _) ?_
        rintro _ _ rfl rfl
        exact .nil
      case jsxElement =>
        rw [own.name]
        split
        · exact titles
        · split
          · exact inner.map fun changes changes' more => List.rel_append titles more
          · exact .nil
      case list => exact inner
      case listItem => exact inner
      case table => exact inner
      case tableRow => exact inner
      case heading => exact items
      case paragraph => exact items
      case tableCell => exact items
      case directive => exact surveyDirective_corresponds own all each
      all_goals exact .nil

end Kinds

/-! ### Scanned content -/

section Scanned

open Inline (Tiles Tiling)

variable {start stop : Nat} {children children' : List Node}

theorem silent_of_tiling (tiling : Tiling start stop children) :
    ∀ child ∈ children, Silent s child := by
  intro child member
  obtain ⟨first, last, placed, -⟩ := tiling.tiles.span_of_mem child member
  apply silent_of_inline (by simp [placed])
  cases tiling.pieces child member with
  | leaf kind =>
      simp only [List.mem_cons, List.not_mem_nil, or_false] at kind
      rcases kind with kind | kind | kind <;> simp [Node.kind, Node.info, kind]
  | link kind =>
      simp [Node.kind, Node.info, kind]

theorem surveyAll_silent (silent : ∀ child ∈ children, Silent s child) :
    Yields s (· = []) (surveyAll s false children).result := by
  induction children with
  | nil =>
      rw [surveyAll]
      exact rfl
  | cons child rest hypothesis =>
      obtain ⟨here, others⟩ := List.forall_mem_cons.mp silent
      refine Yields.surveyAll_cons here.nothing (hypothesis others) ?_
      rintro _ _ rfl rfl
      rfl

theorem surveyBlock_tiles {text : Text} {first : Int} (tiles : Tiles start stop children)
    (silent : ∀ child ∈ children, Silent s child) :
    Yields s (fun items => ∃ text, items = [.stretch text ⟨first, stop⟩])
      (surveyBlock s (some ⟨text, ⟨first, start⟩⟩) children).result := by
  induction children generalizing text start with
  | nil =>
      rw [show start = stop from tiles, surveyBlock]
      exact ⟨text, rfl⟩
  | cons child rest hypothesis =>
      obtain ⟨next, placed, -, others⟩ := tiles
      obtain ⟨here, silentRest⟩ := List.forall_mem_cons.mp silent
      exact Yields.surveyBlock_silent here placed fun _ => hypothesis others silentRest

/-- Scanned content makes up one stretch, for its whole region. -/
theorem surveyBlock_tiling (tiling : Tiling start stop children) :
    Yields s (fun items => (start = stop ∧ items = []) ∨
        (start < stop ∧ ∃ text, items = [.stretch text (Span.ofNats start stop)]))
      (surveyBlock s none children).result := by
  have silent := silent_of_tiling (s := s) tiling
  cases children with
  | nil =>
      rw [surveyBlock]
      exact Or.inl ⟨tiling.tiles, rfl⟩
  | cons child rest =>
      obtain ⟨next, placed, filled, others⟩ := tiling.tiles
      obtain ⟨here, silentRest⟩ := List.forall_mem_cons.mp silent
      refine Yields.surveyBlock_silent here placed fun text => ?_
      refine (surveyBlock_tiles others silentRest).imp fun items whole => Or.inr ⟨?_, whole⟩
      exact Nat.lt_of_lt_of_le filled others.le

theorem surveyBlock_tiling_corresponds (tiling : Tiling start stop children)
    (tiling' : Tiling (Text.moved s.source start) (Text.moved s.source stop) children') :
    Corresponds s (List.Forall₂ (BlockItem.Mirrors s.source)) (surveyBlock s none children).result
      (surveyBlock s.withReturns none children').result := by
  refine (surveyBlock_tiling tiling).corresponds
    (surveyBlock_tiling (s := s.withReturns) tiling') ?_
  rintro items items' (⟨rfl, rfl⟩ | ⟨filled, text, rfl⟩) (⟨empty, rfl⟩ | ⟨filled', text', rfl⟩)
  · exact .nil
  · exact absurd filled' (Nat.lt_irrefl _)
  · exact absurd empty (Nat.ne_of_lt (Text.moved_lt_iff.mpr filled))
  · rw [← Span.moved_ofNats]
    exact .cons (.stretch _ _ _) .nil

end Scanned

/-! ### Documents -/

theorem surveysAlike_of_mirrors {node node' : Node} (mirrors : node.Mirrors s.source node') :
    SurveysAlike s node node' := by
  induction mirrors with
  | @nested info info' children children' own size below hypothesis =>
      have all : MirrorAll s.source children children' :=
        List.forall₂_iff_zip.mpr ⟨size, fun member => below _ _ member⟩
      have each : List.Forall₂ (SurveysAlike s) children children' :=
        List.forall₂_iff_zip.mpr ⟨size, fun member => hypothesis _ _ member⟩
      exact ⟨survey_nested_corresponds own all each, surveyAll_corresponds false each⟩
  | @inline info info' children children' start stop own kind placed tiling tiling' =>
      -- The pieces may be cut differently in the two texts; the region that they tile is the same.
      have kinds : info.kind ∈ [NodeKind.heading, .paragraph, .tableCell] := by
        rcases kind with kind | kind | kind <;> simp [kind]
      have isPlaced : info.span.isSome := Option.isSome_iff_ne_none.mpr placed
      have isPlaced' : info'.span.isSome := by
        rw [own.span, Option.isSome_map]
        exact isPlaced
      constructor
      · intro top
        rw [survey_block kinds isPlaced, survey_block (own.kind ▸ kinds) isPlaced']
        exact (surveyBlock_tiling_corresponds tiling tiling').map
          fun items items' more => changesOfItems_mirrors top [] more
      · refine (surveyAll_silent (s := s) (silent_of_tiling tiling)).corresponds
          (surveyAll_silent (s := s.withReturns) (silent_of_tiling tiling')) ?_
        rintro _ _ rfl rfl
        exact .nil

theorem surveyTopLevel_corresponds {nodes nodes' : List Node}
    (all : MirrorAll s.source nodes nodes') :
    Corresponds s (List.Forall₂ (Change.Mirrors s.source)) (surveyTopLevel s nodes).result
      (surveyTopLevel s.withReturns nodes').result := by
  induction all with
  | nil =>
      rw [surveyTopLevel, surveyTopLevel]
      exact .nil
  | @cons node node' rest rest' first others hypothesis =>
      have kind : node'.kind = node.kind := first.own.kind
      rw [surveyTopLevel_cons_result, surveyTopLevel_cons_result, kind]
      split
      · refine ((surveysAlike_of_mirrors first).1 true).bind fun changes changes' mirrors => ?_
        exact hypothesis.map fun later later' more => List.rel_append mirrors more
      · exact hypothesis

end Extract

end MdxLocalization
