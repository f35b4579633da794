import MdxLocalization.Payload
import MdxLocalization.Proofs.JsonReading

/-!
# Payloads come back as they were sent

A list of changes that goes out as a payload and comes back unaltered is read as the same list, in
every layout and also after its line breaks were brought to one form. The only limit is that of
integer texts, which must not have too many digits.
-/

namespace MdxLocalization

theorem Json.Faithful.record {fields : List (String × Json)}
    (distinct : (fields.map fun field => Text.ofString field.1).Nodup)
    (each : ∀ field ∈ fields, Faithful field.2) : Faithful (.record fields) := by
  refine .object ?_ ?_
  · rw [List.map_map]
    exact distinct
  · intro field member
    obtain ⟨named, listed, rfl⟩ := List.mem_map.mp member
    exact each named listed

/-! ### One change -/

theorem ChangeKind.ofName_name (kind : ChangeKind) :
    ofName? (Text.ofString kind.name) = some kind := by
  cases kind <;> decide

theorem ChangeKind.name_not_empty (kind : ChangeKind) :
    (Json.ofString kind.name).isEmpty = false := by
  cases kind <;> decide

namespace Change

/-- The offsets of a change are short enough to be read back. -/
def Readable (c : Change) : Prop :=
  c.span.start.natAbs < 10 ^ IntegerText.maxDigits ∧
    c.span.stop.natAbs < 10 ^ IntegerText.maxDigits

theorem faithful_toJson {c : Change} (readable : c.Readable) : Json.Faithful c.toJson := by
  refine .record ?_ ?_
  · simp only [List.map_cons, List.map_nil]
    decide
  · simp only [List.forall_mem_cons]
    exact ⟨.text _, .text _, .integer readable.1, .integer readable.2, .text _,
      fun _ none => nomatch none⟩

theorem ofJson_toJson (c : Change) : ofJson c.toJson = .ok c := by
  obtain ⟨kind, text, ⟨start, stop⟩, notes⟩ := c
  have kindRead : ∀ rest, readKind ((Text.ofString "type", .ofString kind.name) :: rest) =
      .ok kind := by
    intro rest
    have found := ChangeKind.ofName_name kind
    have present := ChangeKind.name_not_empty kind
    rw [Json.ofString] at present ⊢
    simp [readKind, Json.fieldOf?, found, present]
  have notesRead : (if (Json.text notes).isEmpty then Json.text [] else .text notes) =
      .text notes := by
    cases notes <;> rfl
  simp only [toJson, Json.record, List.map_cons, List.map_nil, ofJson, kindRead]
  simp [requireField, Json.fieldOf?, Text.ofString, notesField, List.lookup_cons, readOffset,
    notesRead]
  rfl

end Change

namespace Payload

/-- A payload is written without loss. -/
theorem faithful_toJson {changes : List Change} (readable : ∀ c ∈ changes, c.Readable) :
    (toJson changes).Faithful := by
  have strings : (Json.array (changes.map Change.toJson)).Faithful := by
    refine .array ?_
    intro item member
    obtain ⟨c, listed, rfl⟩ := List.mem_map.mp member
    exact Change.faithful_toJson (readable c listed)
  have instructions : directives.Faithful := by
    refine .record (by decide) ?_
    simp only [List.forall_mem_cons]
    refine ⟨.array ?_, .text _, fun _ none => nomatch none⟩
    simp only [List.forall_mem_cons]
    refine ⟨.record (by decide) ?_, fun _ none => nomatch none⟩
    simp only [List.forall_mem_cons]
    exact ⟨.text _, .text _, .text _, .text _, fun _ none => nomatch none⟩
  refine .record ?_ ?_
  · simp only [List.map_cons, List.map_nil]
    decide
  · simp only [List.forall_mem_cons]
    exact ⟨instructions, strings, fun _ none => nomatch none⟩

theorem ofJson_toJson (changes : List Change) : ofJson (toJson changes) = .ok changes := by
  have each : (changes.map Change.toJson).mapM
      (fun item => (Change.ofJson item).mapError PayloadError.change) = .ok changes := by
    induction changes with
    | nil =>
        rfl
    | cons c changes hypothesis =>
        rw [List.map_cons, List.mapM_cons, hypothesis, Change.ofJson_toJson]
        rfl
  exact each

/-- Changes that were written as a payload in any layout are read back, whether or not the line
breaks of the text are brought to one form in between. -/
theorem read_write {changes : List Change} (readable : ∀ c ∈ changes, c.Readable)
    (layout : Json.Layout) : read (write layout changes) = .ok changes := by
  unfold read write
  rw [Json.read_write (faithful_toJson readable)]
  exact ofJson_toJson changes

theorem normalizeBreaks_write {changes : List Change} (readable : ∀ c ∈ changes, c.Readable)
    (layout : Json.Layout) :
    Text.normalizeBreaks (write layout changes) = write layout changes :=
  Json.normalizeBreaks_write (faithful_toJson readable) layout

end Payload

end MdxLocalization
