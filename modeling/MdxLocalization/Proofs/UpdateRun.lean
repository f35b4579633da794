import MdxLocalization.Proofs.Encoding
import MdxLocalization.Proofs.ExtractionSteps
import MdxLocalization.Proofs.Patching
import MdxLocalization.Proofs.PayloadRoundTrip
import MdxLocalization.Proofs.Validation
import MdxLocalization.Workflow.Update

/-!
# An extracted document can be updated

Extraction checks its changes before it hands them out, a payload comes back as it was sent, and a
patch that passes the check of the extraction passes that of the update. Put together, a translation
of an extracted document always goes back into the document, and only the extracted spans change.
-/

namespace MdxLocalization

/-! ### What an extraction guarantees -/

/-- The changes of an extraction have passed the check against the text of the document. -/
theorem Extraction.of_ofFile_ok {config : Config} {path : Path} {w w' : Workspace}
    {e : Extraction} (extracted : ofFile config path w = (.ok e, w')) :
    ∃ bytes, w.files.read path = .ok bytes ∧ Utf8.decode bytes = .ok e.source ∧
      Patch.validate e.changes e.source = .ok () := by
  obtain ⟨rfl, root, _, _, drawn, -⟩ := drawn_of_ofFile_ok extracted
  obtain ⟨bytes, found, decoded⟩ := drawn.legible
  exact ⟨bytes, found, decoded, drawn.valid⟩

/-! ### Updating with changes that fit -/

namespace Patch

theorem ascending_map_span {changes others : List Change}
    (same : changes.map Change.span = others.map Change.span) :
    (ascending changes).map Change.span = (ascending others).map Change.span := by
  let before (a b : Span) : Bool :=
    decide (a.start < b.start ∨ a.start = b.start ∧ a.stop ≤ b.stop)
  have sorted (list : List Change) :
      (ascending list).map Change.span = (list.map Change.span).mergeSort before :=
    List.map_mergeSort fun _ _ _ _ => rfl
  rw [sorted, sorted, same]

theorem InOrder.of_map_span {changes others : List Change} (inOrder : InOrder changes)
    (same : others.map Change.span = changes.map Change.span) : InOrder others := by
  have spans : (changes.map Change.span).Pairwise fun a b => a.stop ≤ b.start :=
    List.pairwise_map.mpr inOrder
  rw [← same] at spans
  exact List.pairwise_map.mp spans

theorem InOrder.starts_nodup {changes : List Change} (inOrder : InOrder changes)
    (proper : ∀ c ∈ changes, c.span.start < c.span.stop) :
    (changes.map fun c => c.span.start).Nodup := by
  refine List.pairwise_map.mpr (List.Pairwise.imp_of_mem ?_ inOrder)
  intro a b inA inB apart
  have aProper := proper a inA
  omega

theorem apply_of_validate {changes others : List Change} {source : Text}
    (checked : validate changes source = .ok ())
    (same : others.map Change.span = changes.map Change.span) (transform : Text → Text) :
    (∀ c ∈ others, c.span.Fits source.length) ∧ InOrder (ascending others) ∧
      apply transform source others = .ok (weave transform source 0 (ascending others)) := by
  obtain ⟨fits, inOrder⟩ := validate_ok_iff.mp checked
  have othersFit : ∀ c ∈ others, c.span.Fits source.length := by
    intro c member
    have listed : c.span ∈ changes.map Change.span := same ▸ List.mem_map_of_mem member
    obtain ⟨original, inChanges, sameSpan⟩ := List.mem_map.mp listed
    exact sameSpan ▸ fits original inChanges
  have othersInOrder := inOrder.of_map_span (ascending_map_span same)
  exact ⟨othersFit, othersInOrder,
    apply_of_inOrder (ascending_perm others) othersFit othersInOrder⟩

end Patch

namespace Update

/-- A run that finds its files and a list of changes that applies writes the patched document. -/
theorem run_ok {config : Config} {r : Request} {w : Workspace} {original carried : Bytes}
    {source translated result : Text} {changes : List Change}
    (found : w.files.read r.source = .ok original) (decoded : Utf8.decode original = .ok source)
    (brought : w.files.read r.translated = .ok carried)
    (legible : Utf8.decode carried = .ok translated)
    (read : Payload.read (Text.normalizeBreaks translated) = .ok changes)
    (applied : Patch.apply (Patch.textTransform (r.emphasize.getD config.emphasize)) source
      changes = .ok result)
    (writable : w.files.Writable (r.output.getD r.source)) :
    ∃ w', run config r w = (.ok (r.output.getD r.source), w') ∧
      w'.files.read (r.output.getD r.source) = .ok (Utf8.encode result) := by
  obtain ⟨made, written, directories, file, stored⟩ :=
    Run.makeDirectories_writeFile_ok writable result
  unfold run
  rw [Run.bind_of_ok (Run.readText_ok found decoded)]
  rw [Run.bind_of_ok (Run.readText_ok brought legible)]
  rw [Run.bind_of_ok (Run.ofExcept_mapError_ok read)]
  rw [Run.bind_of_ok (Run.ofExcept_mapError_ok applied)]
  rw [Run.bind_of_ok (Run.mapError_ok directories), Run.bind_of_ok (Run.mapError_ok file)]
  exact ⟨_, rfl, stored⟩

/-- Whatever texts the changes of an extracted document are given, the payload with these texts goes
back into the document: the update gives a result, and the file written is the document with each
extracted span replaced and all else, line breaks included, as it was. The changes carry different
start positions, by which the payload names them.

The bound on the length, which no text in a memory reaches, is that of the integers in a payload. -/
theorem run_of_extraction {extractConfig : Config} (updateConfig : Config) {document : Path}
    {before after now : Workspace} {e : Extraction} {original : Bytes} {r : Request}
    {replaced : List Change} {layout : Json.Layout}
    (extracted : Extraction.ofFile extractConfig document before = (.ok e, after))
    (content : before.files.read document = .ok original)
    (sameSource : now.files.read r.source = .ok original)
    (spansKept : replaced.map Change.span = e.changes.map Change.span)
    (carried : now.files.read r.translated = .ok (Utf8.encode (Payload.write layout replaced)))
    (writable : ∀ output, r.output = some output → now.files.Writable output)
    (addressable : e.source.length < 10 ^ IntegerText.maxDigits) :
    (∃ now', run updateConfig r now = (.ok (r.output.getD r.source), now') ∧
      now'.files.read (r.output.getD r.source) =
        .ok (Utf8.encode (Patch.weave
          (Patch.textTransform (r.emphasize.getD updateConfig.emphasize)) e.source 0
          (Patch.ascending replaced)))) ∧
      Utf8.decode original = .ok e.source ∧
      (∀ c ∈ replaced, c.span.Fits e.source.length) ∧ Patch.InOrder (Patch.ascending replaced) ∧
      (e.changes.map fun c => c.span.start).Nodup := by
  obtain ⟨bytes, found, decoded, checked⟩ := Extraction.of_ofFile_ok extracted
  rw [content] at found
  cases found
  obtain ⟨fits, inOrder, applied⟩ := Patch.apply_of_validate checked spansKept
    (Patch.textTransform (r.emphasize.getD updateConfig.emphasize))
  have readable : ∀ c ∈ replaced, c.Readable := by
    intro c member
    obtain ⟨nonneg, nonempty, inside⟩ := fits c member
    constructor <;> omega
  have returned : Payload.read (Text.normalizeBreaks (Payload.write layout replaced)) =
      .ok replaced := by
    rw [Payload.normalizeBreaks_write readable, Payload.read_write readable]
  have target : now.files.Writable (r.output.getD r.source) := by
    cases output : r.output with
    | none =>
        exact FileStore.writable_of_read sameSource
    | some path =>
        exact writable path output
  have startsDistinct : (e.changes.map fun c => c.span.start).Nodup := by
    obtain ⟨sourceFits, sourceInOrder⟩ := Patch.validate_ok_iff.mp checked
    have same := Patch.ascending_perm e.changes
    have distinct := sourceInOrder.starts_nodup
      fun c member => (sourceFits c (same.mem_iff.mp member)).2.1
    exact (same.map _).nodup_iff.mp distinct
  exact ⟨run_ok sameSource decoded carried (Utf8.decode_encode _) returned applied target,
    decoded, fits, inOrder, startsDistinct⟩

/-- A titled document with line breaks of two kinds; the new title has a quote and a carriage return
and is made to stand out in a file of another directory. -/
theorem run_of_extraction_title :
    let config : Config := ⟨['e', 'n'], [], [], false, none, .standard, .standard⟩
    let source : Text := Text.ofString "---\ntitle: ab\n---\n\r\n"
    let document : Path := ⟨.relative, [['d']]⟩
    let translated : Path := ⟨.relative, [['t']]⟩
    let output : Path := ⟨.relative, [['o'], ['d']]⟩
    let replaced : List Change := [⟨.title, ['x', ' ', '"', '\r'], ⟨11, 13⟩, []⟩]
    let before : Workspace :=
      { files := { files := [([['d']], Utf8.encode source)] }, respond := fun _ => ⟨200, []⟩ }
    let now : Workspace :=
      { files := { files := [([['d']], Utf8.encode source),
          ([['t']], Utf8.encode (Payload.write (.indented 2) replaced))] }
        respond := fun _ => ⟨200, []⟩ }
    ∃ e after now', Extraction.ofFile config document before = (.ok e, after) ∧
      e.changes.map Change.span = [⟨11, 13⟩] ∧
      run config ⟨document, translated, some output, some true⟩ now = (.ok output, now') ∧
      now'.files.read output =
        .ok (Utf8.encode (Text.ofString "---\ntitle: X..\"\r\n---\n\r\n")) := by
  intro config source document translated output replaced before now
  let found : Except Failure Extraction × Workspace := Extraction.ofFile config document before
  have outcome : found.1.toOption.map (fun e => (e.source, e.changes.map Change.span)) =
      some (source, [⟨11, 13⟩]) := by
    decide +kernel
  cases ran : found with
  | mk result after =>
      rw [ran] at outcome
      cases result with
      | error failure =>
          cases outcome
      | ok e =>
          have extracted : (e.source, e.changes.map Change.span) = (source, [⟨11, 13⟩]) :=
            Option.some.inj outcome
          obtain ⟨sameSource, spans⟩ := Prod.mk.inj extracted
          have writable : now.files.Writable output := by
            refine ⟨{ now.files with directories := [[['o']]] }, [['o'], ['d']], rfl, ?_, ?_⟩ <;>
              decide +kernel
          let r : Request := ⟨document, translated, some output, some true⟩
          have content : before.files.read document = .ok (Utf8.encode source) := by
            decide +kernel
          have kept : now.files.read r.source = .ok (Utf8.encode source) := by
            decide +kernel
          have carried : now.files.read r.translated =
              .ok (Utf8.encode (Payload.write (.indented 2) replaced)) := by
            decide +kernel
          have spansKept : replaced.map Change.span = e.changes.map Change.span := by
            rw [spans]
            rfl
          have short : e.source.length < 10 ^ IntegerText.maxDigits := by
            rw [sameSource]
            exact Nat.lt_of_lt_of_le (by decide : source.length < 10 ^ 2)
              (Nat.pow_le_pow_right (by decide) (by decide))
          obtain ⟨⟨now', updated, written⟩, -⟩ := run_of_extraction config ran content kept
            spansKept carried (by rintro path ⟨⟩; exact writable) short
          have woven : Patch.weave (Patch.textTransform true) source 0 (Patch.ascending replaced) =
              Text.ofString "---\ntitle: X..\"\r\n---\n\r\n" := by
            decide +kernel
          rw [sameSource] at written
          refine ⟨e, after, now', ran, spans, updated, ?_⟩
          rw [← woven]
          exact written

end Update

end MdxLocalization
