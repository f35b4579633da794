import MdxLocalization.Extract.ModuleAddress
import MdxLocalization.Proofs.LinkFates
import MdxLocalization.Proofs.PathSegments

/-!
# Localising what is localised

One pass puts the placeholder in the place of the first segment that is the language, and of no
other. The placeholder is not the language, and a segment is read up to the next slash only, so the
exchange neither makes nor hides another one: a pass takes one from the number of segments that are
the language, in the path, the query and the fragment alike. So a second pass changes nothing just
where there was at most one of them, and an extraction rewrites nothing in a document whose
addresses come from a first pass over such addresses.
-/

namespace MdxLocalization

/-- The addresses that an extraction localises: the literals of the import statements of a document,
and the addresses of the links that the survey comes to. -/
inductive Extract.HasAddress (root : Node) : Text → Prop where
  | declared {declaration : Node} (member : declaration ∈ declarations root) :
      HasAddress root (declaration.info.value.getD [])
  | linked {link : Node} {url : Text} (comes : ComesTo root link) (kind : link.kind = .link)
      (addressed : link.info.url = some url) : HasAddress root url

theorem Node.Every.of_holds {holds : NodeInfo → Prop} {node target : Node}
    (every : node.Every holds) (below : node.Holds target) : holds target.info := by
  induction below with
  | here =>
      cases every with
      | mk own => exact own
  | inside member _ hypothesis =>
      cases every with
      | mk _ each => exact hypothesis (each _ member)

theorem LanguageTag.exists_languageCode {locale : Text} (valid : checkCode locale = .ok ()) :
    ∃ segment, languageCode locale = .ok segment := by
  unfold checkCode at valid
  unfold languageCode
  cases found : language? locale with
  | error e =>
      rw [found] at valid
      cases valid
  | ok language =>
      exact ⟨_, rfl⟩

namespace Url

variable {segment s t url before after : Text}

/-! ### The segments that are the language -/

/-- Whether the text behind a slash starts with a whole segment. -/
def standsHere (segment t : Text) : Bool :=
  Text.startsWith t segment && endsSegment (t.drop segment.length)

/-- The number of slashes in an address behind which a segment stands. -/
def segmentCount (segment : Text) : Text → Nat
  | [] => 0
  | c :: rest =>
    if c = '/' && standsHere segment rest then segmentCount segment rest + 1
    else segmentCount segment rest

theorem segmentCount_cons (segment : Text) (c : Char) (rest : Text) :
    segmentCount segment (c :: rest) =
      if c = '/' && standsHere segment rest then segmentCount segment rest + 1
      else segmentCount segment rest := rfl

theorem splitAtSegment?_standsHere (segment : Text) (c : Char) (rest : Text) :
    splitAtSegment? segment (c :: rest) =
      if c = '/' && standsHere segment rest then some ([], rest.drop segment.length)
      else (splitAtSegment? segment rest).map fun found => (c :: found.1, found.2) := by
  rw [splitAtSegment?_cons, Bool.and_assoc]
  rfl

theorem splitAtSegment?_eq_none_iff :
    splitAtSegment? segment t = none ↔ segmentCount segment t = 0 := by
  induction t with
  | nil =>
      exact iff_of_true rfl rfl
  | cons c rest hypothesis =>
      rw [splitAtSegment?_standsHere, segmentCount_cons]
      split
      · exact iff_of_false nofun (Nat.succ_ne_zero _)
      · rw [Option.map_eq_none_iff, hypothesis]

/-- Before a slash it does not matter what stands behind it. -/
theorem standsHere_before_slash (noSlash : '/' ∉ segment) (front rest other : Text) :
    standsHere segment (front ++ '/' :: rest) = standsHere segment (front ++ '/' :: other) := by
  induction segment generalizing front with
  | nil =>
      cases front with
      | nil =>
          rfl
      | cons c front =>
          change endsSegment (c :: (front ++ '/' :: rest)) =
            endsSegment (c :: (front ++ '/' :: other))
          rw [endsSegment.eq_3 _ _ (by simp), endsSegment.eq_3 _ _ (by simp)]
  | cons d segment hypothesis =>
      rw [List.mem_cons, not_or] at noSlash
      cases front with
      | nil =>
          have different : (d == '/') = false := beq_eq_false_iff_ne.mpr (Ne.symm noSlash.1)
          simp only [standsHere, Text.startsWith, List.nil_append, List.isPrefixOf, different,
            Bool.false_and]
      | cons c front =>
          have further := hypothesis noSlash.2 front
          simp only [standsHere, Text.startsWith, List.cons_append, List.isPrefixOf,
            List.length_cons, List.drop_succ_cons, Bool.and_assoc] at further ⊢
          rw [further]

theorem segmentCount_of_no_slash (noSlash : '/' ∉ s) (rest : Text) :
    segmentCount segment (s ++ rest) = segmentCount segment rest := by
  induction s with
  | nil =>
      rfl
  | cons c s hypothesis =>
      rw [List.mem_cons, not_or] at noSlash
      have other : decide (c = '/') = false := decide_eq_false (Ne.symm noSlash.1)
      rw [List.cons_append, segmentCount_cons, other, Bool.false_and, if_neg Bool.false_ne_true,
        hypothesis noSlash.2]

theorem segmentCount_slash (segment rest : Text) :
    segmentCount segment ('/' :: rest) =
      segmentCount segment rest + (if standsHere segment rest then 1 else 0) := by
  rw [segmentCount_cons, decide_eq_true rfl, Bool.true_and]
  split <;> rfl

/-! ### One pass -/

theorem endsSegment_of_found (found : splitAtSegment? segment url = some (before, after)) :
    endsSegment after = true := by
  induction url generalizing before with
  | nil =>
      cases found
  | cons c rest hypothesis =>
      rw [splitAtSegment?_standsHere] at found
      split at found
      · rename_i here
        cases found
        exact (Bool.and_eq_true_iff.mp (Bool.and_eq_true_iff.mp here).2).2
      · obtain ⟨⟨front, behind⟩, later, same⟩ := Option.map_eq_some_iff.mp found
        cases same
        exact hypothesis later

/-- Before the first segment that is looked for stands none, whatever comes behind its slash. -/
theorem segmentCount_before (noSlash : '/' ∉ segment)
    (found : splitAtSegment? segment url = some (before, after)) (rest : Text) :
    segmentCount segment (before ++ '/' :: rest) = segmentCount segment ('/' :: rest) := by
  induction url generalizing before with
  | nil =>
      cases found
  | cons c url hypothesis =>
      rw [splitAtSegment?_standsHere] at found
      split at found
      · cases found
        rfl
      · rename_i notHere
        obtain ⟨⟨front, behind⟩, later, same⟩ := Option.map_eq_some_iff.mp found
        cases same
        rw [splitAtSegment?_eq_some later,
          standsHere_before_slash noSlash front _ rest] at notHere
        rw [List.cons_append, segmentCount_cons, if_neg notHere]
        exact hypothesis later

theorem segmentCount_of_found (noSlash : '/' ∉ segment)
    (found : splitAtSegment? segment url = some (before, after)) :
    segmentCount segment url = segmentCount segment after + 1 := by
  have stands : standsHere segment (segment ++ after) = true := by
    rw [standsHere, List.drop_left, endsSegment_of_found found, Bool.and_true]
    exact List.isPrefixOf_iff_prefix.mpr (List.prefix_append _ _)
  rw [splitAtSegment?_eq_some found, segmentCount_before noSlash found, segmentCount_slash,
    segmentCount_of_no_slash noSlash, if_pos stands]

/-- What takes the place of the first segment does not count if it is another one. -/
theorem segmentCount_exchanged {instead : Text} (noSlash : '/' ∉ segment)
    (found : splitAtSegment? segment url = some (before, after)) (plain : '/' ∉ instead)
    (other : standsHere segment (instead ++ after) = false) :
    segmentCount segment (before ++ '/' :: (instead ++ after)) = segmentCount segment after := by
  rw [segmentCount_before noSlash found, segmentCount_slash, segmentCount_of_no_slash plain, other]
  rfl

section Placeholder

variable {locale : Text} (language : LanguageTag.languageCode locale = .ok segment)
include language

theorem not_standsHere_placeholder (rest : Text) :
    standsHere segment (placeholder defaultPlaceholder ++ rest) = false := by
  cases segment with
  | nil =>
      rfl
  | cons c segment =>
      have tagged := List.all_eq_true.mp (LanguageTag.languageCode_all language) c (by simp)
      have different : (c == '%') = false := by
        refine beq_eq_false_iff_ne.mpr ?_
        rintro rfl
        cases tagged
      simp only [standsHere, Text.startsWith, placeholder, List.cons_append, List.isPrefixOf,
        different, Bool.false_and]

theorem ne_placeholder : segment ≠ placeholder defaultPlaceholder := by
  rintro rfl
  have tagged := List.all_eq_true.mp (LanguageTag.languageCode_all language) '%' (by decide)
  cases tagged

theorem localize_eq (url : Text) :
    localize locale defaultPlaceholder url =
      .ok (match splitAtSegment? segment url with
        | some (before, after) => before ++ '/' :: (placeholder defaultPlaceholder ++ after)
        | none => url) := by
  have template : Template.read ('/' :: placeholder defaultPlaceholder) =
      .ok (('/' :: placeholder defaultPlaceholder).map Template.Piece.char) :=
    Template.read_of_plain (by decide)
  rw [localize, language, template]
  change Except.ok (replaceSegment segment _ url) = _
  rw [replaceSegment]
  cases splitAtSegment? segment url with
  | none =>
      rfl
  | some parts =>
      dsimp only
      rw [Template.expand_map_char, List.append_assoc, List.cons_append]

/-- A pass takes one from the segments that are the language. -/
theorem exists_localize (url : Text) :
    ∃ once, localize locale defaultPlaceholder url = .ok once ∧
      segmentCount segment once = segmentCount segment url - 1 := by
  have noSlash := (isSegment_of_tag (LanguageTag.languageCode_all language)).slash_not_mem
  have run := localize_eq language url
  cases found : splitAtSegment? segment url with
  | none =>
      rw [found] at run
      refine ⟨url, run, ?_⟩
      rw [splitAtSegment?_eq_none_iff.mp found]
  | some parts =>
      rw [found] at run
      refine ⟨_, run, ?_⟩
      rw [segmentCount_of_found noSlash found, Nat.add_sub_cancel]
      exact segmentCount_exchanged noSlash found (by decide)
        (not_standsHere_placeholder language parts.2)

/-- An address stays as it is just where no segment is the language. -/
theorem localize_eq_self_iff (url : Text) :
    localize locale defaultPlaceholder url = .ok url ↔ segmentCount segment url = 0 := by
  rw [localize_eq language, ← splitAtSegment?_eq_none_iff]
  cases found : splitAtSegment? segment url with
  | none =>
      exact iff_of_true rfl rfl
  | some parts =>
      refine iff_of_false (fun same => ?_) nofun
      have kept := (Except.ok.inj same).trans (splitAtSegment?_eq_some found)
      have exchanged := (List.cons.inj (List.append_cancel_left kept)).2
      exact ne_placeholder language (List.append_cancel_right exchanged).symm

theorem localize_again_iff {url once : Text}
    (pass : localize locale defaultPlaceholder url = .ok once) :
    localize locale defaultPlaceholder once = .ok once ↔ segmentCount segment url ≤ 1 := by
  obtain ⟨outcome, run, fewer⟩ := exists_localize language url
  cases pass.symm.trans run
  rw [localize_eq_self_iff language, fewer, Nat.sub_eq_zero_iff_le]

end Placeholder

end Url

namespace Extract

open Url

variable {s : Settings} {root node link : Node} {fate : Fate} {locale address : Text}
  {nodes : List Node} {changes : List Change}

/-! ### Documents -/

mutual

/-- What a survey that rewrites no link leaves of a node: directives lose their label. -/
def unlabelled : Node → Node
  | .mk info children =>
    if leadsOn info then .mk info (keptOf info (unlabelledAll children)) else .mk info children

def unlabelledAll : List Node → List Node
  | [] => []
  | node :: rest => unlabelled node :: unlabelledAll rest

end

theorem unlabelledAll_eq_map (nodes : List Node) : unlabelledAll nodes = nodes.map unlabelled := by
  induction nodes with
  | nil =>
      rfl
  | cons node rest hypothesis =>
      rw [unlabelledAll, hypothesis, List.map_cons]

theorem unlabelled_info (node : Node) : (unlabelled node).info = node.info := by
  obtain ⟨info, children⟩ := node
  rw [unlabelled]
  split <;> rfl

theorem keptOf_map_unlabelled (info : NodeInfo) (children : List Node) :
    keptOf info (children.map unlabelled) = (keptOf info children).map unlabelled := by
  unfold keptOf
  split_ifs
  · cases children with
    | nil =>
        rfl
    | cons first rest =>
        rw [List.map_cons, bodyOf, bodyOf, unlabelled_info]
        split_ifs <;> rfl
  · rfl

/-- The survey rewrites none of the links that it comes to. -/
def LeavesLinks (s : Settings) (fate : Fate) (node : Node) : Prop :=
  ∀ result link, Stands fate node result link → result ≠ .ignored → link.kind = .link →
    localizedInfo s link.info = link.info

theorem localized_eq_unlabelled (reached : fate ≠ .ignored) (leaves : LeavesLinks s fate node) :
    localized s node = unlabelled node := by
  induction node using Node.induction with
  | step info children hypothesis =>
      by_cases leads : leadsOn info = true
      · rw [localized_of_leadsOn leads, keptOf_map_localized, unlabelled, if_pos leads,
          unlabelledAll_eq_map, keptOf_map_unlabelled]
        refine congrArg (Node.mk info) (List.map_congr_left fun child member => ?_)
        exact hypothesis child (mem_of_mem_keptOf member) fun result link stands =>
          leaves result link (.kept reached leads member stands)
      · rw [localized_of_shut (by simpa using leads), unlabelled, if_neg leads]
        by_cases kind : info.kind = .link
        · exact congrArg (Node.mk · children) (leaves fate (.mk info children) .here reached kind)
        · rw [localizedInfo_of_not_link kind]

theorem localizedInfo_eq_self {info : NodeInfo}
    (same : ∀ url, info.url = some url → Url.localize s.locale s.placeholder url = .ok url) :
    localizedInfo s info = info := by
  unfold localizedInfo
  split
  · rename_i addressed
    rw [same _ addressed]
    dsimp only
    rw [← addressed]
  · rfl

/-- Surveying a link leaves it as it is if localising leaves its address as it is. -/
theorem survey_link_after (kind : link.kind = .link)
    (same : ∀ url, link.info.url = some url →
      Url.localize s.locale s.placeholder url = .ok url) (top : Bool) :
    (survey s top link).after = link := by
  obtain ⟨⟨linkKind, span, value, name, attributes, address, title, depth, data⟩, children⟩ := link
  cases show linkKind = .link from kind
  rw [survey]
  split
  · rfl
  · split
    · rfl
    · cases address with
      | none =>
          rfl
      | some url =>
          dsimp only
          rw [same url rfl]

theorem references_of_same {locale placeholder : Text}
    (same : ∀ declaration ∈ declarations root,
      Url.localize locale placeholder (declaration.info.value.getD []) =
        .ok (declaration.info.value.getD [])) :
    ∃ events, references locale placeholder root = .ok ([], events) := by
  have nothing : referencesOf locale placeholder (declarations root) = .ok ([], []) := by
    generalize declarations root = nodes at same
    induction nodes with
    | nil =>
        rfl
    | cons declaration rest hypothesis =>
        obtain ⟨here, others⟩ := List.forall_mem_cons.mp same
        have none : reference? locale placeholder declaration = .ok none := by
          rw [reference?, here]
          exact if_pos rfl
        rw [referencesOf, none, hypothesis others]
        rfl
  rw [references, nothing]
  exact ⟨_, rfl⟩

/-- For every locale that is a language code, localising gives an address in which one segment less
is the language. So a second pass changes nothing just where at most one segment was. A document
whose addresses come from a pass over such addresses is extracted without a change for a reference
and with all its links as they are. -/
theorem localize_twice_iff (valid : LanguageTag.checkCode locale = .ok ()) :
    ∃ segment, LanguageTag.languageCode locale = .ok segment ∧
      (∀ url, ∃ once, localize locale defaultPlaceholder url = .ok once ∧
        segmentCount segment once = segmentCount segment url - 1 ∧
        (localize locale defaultPlaceholder once = .ok once ↔ segmentCount segment url ≤ 1)) ∧
      ∀ source root,
        (∀ address, HasAddress root address →
          ∃ url, segmentCount segment url ≤ 1 ∧
            localize locale defaultPlaceholder url = .ok address) →
        (∃ events, references locale defaultPlaceholder root = .ok ([], events)) ∧
        (∀ link top, ComesTo root link → link.kind = .link →
          (survey ⟨source, locale, defaultPlaceholder⟩ top link).after = link) ∧
        ∀ changes, (surveyDocument ⟨source, locale, defaultPlaceholder⟩ root).result = .ok changes →
          (surveyDocument ⟨source, locale, defaultPlaceholder⟩ root).after =
            .mk root.info (root.children.map fun node =>
              if isTopLevelKind node.kind then unlabelled node else node) := by
  obtain ⟨segment, language⟩ := LanguageTag.exists_languageCode valid
  refine ⟨segment, language, fun url => ?_, fun source root localized => ?_⟩
  · obtain ⟨once, pass, fewer⟩ := exists_localize language url
    exact ⟨once, pass, fewer, localize_again_iff language pass⟩
  have same {address : Text} (known : HasAddress root address) :
      localize locale defaultPlaceholder address = .ok address := by
    obtain ⟨url, single, pass⟩ := localized address known
    exact (localize_again_iff language pass).mpr single
  have sameLink {link : Node} (comes : ComesTo root link) (kind : link.kind = .link) (url : Text)
      (addressed : link.info.url = some url) :
      localize locale defaultPlaceholder url = .ok url :=
    same (.linked comes kind addressed)
  refine ⟨references_of_same fun declaration member => same (.declared member),
    fun link top comes kind => ?_, fun changes surveyed => ?_⟩
  · apply survey_link_after kind
    exact sameLink comes kind
  refine congrArg (Node.mk root.info) ((surveyTopLevel_after surveyed).trans ?_)
  refine List.map_congr_left fun node member => ?_
  split
  · rename_i kind
    have surveyed : Fate.surveyed ≠ .ignored := nofun
    refine localized_eq_unlabelled surveyed fun result link stands reached isLink => ?_
    refine localizedInfo_eq_self (sameLink ⟨result, reached, node, member, ?_⟩ isLink)
    rwa [if_pos kind]
  · rfl

/-- A link whose first segment is the placeholder. A later one only starts like the language. -/
def localizedLink (start stop : Int) : Node :=
  .mk { kind := .link, span := some ⟨start, stop⟩,
        url := some (Text.ofString "/%%locale%%/b?from=/english") } []

/-- The label of a directive, which is the link. -/
def localizedLabel : Node :=
  .mk { kind := .paragraph, span := some ⟨44, 78⟩,
        data := [(Text.ofString "directiveLabel", .bool true)] } [localizedLink 45 77]

/-- An import statement, and a directive with the link in its label and in its text. -/
def localizedPage : Node :=
  .mk { kind := .root, span := some ⟨0, 115⟩ }
    [ .mk { kind := .esm, span := some ⟨0, 35⟩ }
        [.mk { kind := .importDeclaration, span := some ⟨14, 35⟩,
               value := some (Text.ofString "'../%%locale%%/a.mdx'") } []],
      .mk { kind := .directive, span := some ⟨37, 115⟩, name := some (Text.ofString "note") }
        [localizedLabel, .mk { kind := .paragraph, span := some ⟨79, 111⟩ }
          [localizedLink 79 111]] ]

theorem every_localizedPage :
    localizedPage.Every fun info => info.kind = .link →
      info.url = some (Text.ofString "/%%locale%%/b?from=/english") := by
  have link (start stop : Int) : (localizedLink start stop).Every fun info =>
      info.kind = .link → info.url = some (Text.ofString "/%%locale%%/b?from=/english") :=
    .mk (fun _ => rfl) nofun
  have block {info : NodeInfo} {children : List Node} (other : info.kind ≠ .link)
      (below : ∀ child ∈ children, child.Every fun info =>
        info.kind = .link → info.url = some (Text.ofString "/%%locale%%/b?from=/english")) :
      (Node.mk info children).Every fun info =>
        info.kind = .link → info.url = some (Text.ofString "/%%locale%%/b?from=/english") :=
    .mk (fun kind => absurd kind other) below
  have label : localizedLabel.Every _ := block nofun (List.forall_mem_singleton.mpr (link 45 77))
  have body := List.forall_mem_singleton.mpr (link 79 111)
  refine block nofun (List.forall_mem_cons.mpr ⟨?_, List.forall_mem_singleton.mpr ?_⟩)
  · exact block nofun (List.forall_mem_singleton.mpr (block nofun (List.forall_mem_nil _)))
  · exact block nofun
      (List.forall_mem_cons.mpr ⟨label, List.forall_mem_singleton.mpr (block nofun body)⟩)

theorem hasAddress_localizedPage (known : HasAddress localizedPage address) :
    address = Text.ofString "'../%%locale%%/a.mdx'" ∨
      address = Text.ofString "/%%locale%%/b?from=/english" := by
  cases known with
  | declared member =>
      cases List.mem_singleton.mp member
      exact Or.inl rfl
  | linked comes kind addressed =>
      obtain ⟨fate, -, node, member, stands⟩ := comes
      have holds : localizedPage.Holds _ := .inside member stands.holds
      have url := every_localizedPage.of_holds holds kind
      rw [addressed] at url
      exact Or.inr (Option.some.inj url)

/-- One segment is the language in each address that the page had before. -/
theorem localize_twice_iff_localizedPage :
    LanguageTag.checkCode (Text.ofString "en-US") = .ok () ∧
      localize (Text.ofString "en-US") defaultPlaceholder (Text.ofString "/en/b?from=/english") =
        .ok (Text.ofString "/%%locale%%/b?from=/english") ∧
      localize (Text.ofString "en-US") defaultPlaceholder
          (Text.ofString "/%%locale%%/b?from=/english") =
        .ok (Text.ofString "/%%locale%%/b?from=/english") ∧
      (∃ events, references (Text.ofString "en-US") defaultPlaceholder localizedPage =
        .ok ([], events)) ∧
      (surveyDocument ⟨[], Text.ofString "en-US", defaultPlaceholder⟩ localizedPage).after =
        .mk localizedPage.info (localizedPage.children.map fun node =>
          if isTopLevelKind node.kind then unlabelled node else node) := by
  have valid : LanguageTag.checkCode (Text.ofString "en-US") = .ok () := by
    decide +kernel
  have language : LanguageTag.languageCode (Text.ofString "en-US") = .ok (Text.ofString "en") := by
    decide +kernel
  have linkPass : localize (Text.ofString "en-US") defaultPlaceholder
      (Text.ofString "/en/b?from=/english") =
        .ok (Text.ofString "/%%locale%%/b?from=/english") := by
    decide +kernel
  have literalPass : localize (Text.ofString "en-US") defaultPlaceholder
      (Text.ofString "'../en/a.mdx'") = .ok (Text.ofString "'../%%locale%%/a.mdx'") := by
    decide +kernel
  obtain ⟨segment, known, pass, extraction⟩ := localize_twice_iff valid
  have isEnglish : segment = Text.ofString "en" := Except.ok.inj (known.symm.trans language)
  subst isEnglish
  obtain ⟨once, first, -, again⟩ := pass (Text.ofString "/en/b?from=/english")
  have isOnce : once = Text.ofString "/%%locale%%/b?from=/english" :=
    Except.ok.inj (first.symm.trans linkPass)
  subst isOnce
  obtain ⟨references, -, after⟩ := extraction [] localizedPage fun address known => by
    rcases hasAddress_localizedPage known with rfl | rfl
    · exact ⟨_, by decide, literalPass⟩
    · exact ⟨_, by decide, linkPass⟩
  have success : (surveyDocument ⟨[], Text.ofString "en-US", defaultPlaceholder⟩
      localizedPage).result.toOption.isSome = true := by
    cbv
  refine ⟨valid, linkPass, again.mpr (by decide), references, ?_⟩
  cases surveyed : (surveyDocument ⟨[], Text.ofString "en-US", defaultPlaceholder⟩
      localizedPage).result with
  | error e =>
      rw [surveyed] at success
      cases success
  | ok changes =>
      exact after changes surveyed

/-- Localising is not idempotent: the second pass replaces the next segment. -/
theorem not_forall_localize_idempotent :
    ¬ ∀ locale url once, LanguageTag.checkCode locale = .ok () →
      localize locale defaultPlaceholder url = .ok once →
      localize locale defaultPlaceholder once = .ok once := by
  intro claim
  have valid : LanguageTag.checkCode (Text.ofString "en-US") = .ok () := by
    decide +kernel
  have first : localize (Text.ofString "en-US") defaultPlaceholder (Text.ofString "/en/a/en/b") =
      .ok (Text.ofString "/%%locale%%/a/en/b") := by
    decide +kernel
  have second : localize (Text.ofString "en-US") defaultPlaceholder
      (Text.ofString "/%%locale%%/a/en/b") ≠ .ok (Text.ofString "/%%locale%%/a/en/b") := by
    decide +kernel
  exact second (claim _ _ _ valid first)

end Extract

end MdxLocalization
