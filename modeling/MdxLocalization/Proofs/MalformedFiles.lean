import Mathlib.Data.List.Basic
import MdxLocalization.Payload

/-!
# Which files are reported as malformed

A text that is no list of changes is a malformed file, and callers are told so. Two faults of an
item of the list slip through: the item is no object, so that no field of it can be looked up, or
one of its offsets is an infinite number. Since reading stops at the first item that fails, they
slip through exactly when every item before is a change.
-/

namespace MdxLocalization

/-- Going through a list fails as its first failing item does. -/
theorem mapM_eq_error_iff {α β ε : Type} {f : α → Except ε β} {items : List α} {e : ε} :
    items.mapM f = .error e ↔
      ∃ before item after, items = before ++ item :: after ∧
        (∀ earlier ∈ before, ∃ b, f earlier = .ok b) ∧ f item = .error e := by
  induction items with
  | nil =>
      simp [pure, Except.pure]
  | cons first rest hypothesis =>
      rw [List.mapM_cons]
      cases outcome : f first with
      | error fault =>
          constructor
          · intro failed
            cases failed
            exact ⟨[], first, rest, rfl, by simp, outcome⟩
          · rintro ⟨before, item, after, parts, read, failed⟩
            cases before with
            | nil =>
                cases parts
                rw [outcome] at failed
                cases failed
                rfl
            | cons other before =>
                cases parts
                obtain ⟨b, succeeded⟩ := read _ List.mem_cons_self
                rw [outcome] at succeeded
                cases succeeded
      | ok b =>
          have later : (do let b ← (.ok b : Except ε β); let bs ← rest.mapM f; pure (b :: bs)) =
              .error e ↔ rest.mapM f = .error e := by
            cases rest.mapM f <;> simp [bind, Except.bind, pure, Except.pure]
          refine later.trans (hypothesis.trans ?_)
          constructor
          · rintro ⟨before, item, after, parts, read, failed⟩
            refine ⟨first :: before, item, after, by rw [parts]; rfl, ?_, failed⟩
            exact List.forall_mem_cons.mpr ⟨⟨b, outcome⟩, read⟩
          · rintro ⟨before, item, after, parts, read, failed⟩
            cases before with
            | nil =>
                cases parts
                rw [outcome] at failed
                cases failed
            | cons other before =>
                cases parts
                exact ⟨before, item, after, rfl, (List.forall_mem_cons.mp read).2, failed⟩

namespace Change

variable {α β : Type} {fields : List (Text × Json)}

/-! ### Items that fail unforeseen -/

/-- Reading an item, or a part of it, fails with an error that is not that of a malformed file. -/
def Escapes (x : Except ChangeError α) : Prop :=
  ∃ e, x = .error e ∧ (PayloadError.change e).isMalformedFile = false

/-- The faults of an item that are not those of a malformed file: it is no object, or all that is
read of it before an infinite offset is right. -/
inductive Unforeseen : Json → Prop where
  | notAnObject {item : Json} (other : ∀ fields, item ≠ .object fields) : Unforeseen item
  | infiniteStart {fields : List (Text × Json)} {kind : ChangeKind} {text : Json} {negative : Bool}
      (kindRead : readKind fields = .ok kind) (present : Json.fieldOf? fields "text" = some text)
      (start : Json.fieldOf? fields "start" = some (.real (.infinite negative))) :
      Unforeseen (.object fields)
  | infiniteStop {fields : List (Text × Json)} {kind : ChangeKind} {text offset : Json} {n : Int}
      {negative : Bool} (kindRead : readKind fields = .ok kind)
      (present : Json.fieldOf? fields "text" = some text)
      (start : Json.fieldOf? fields "start" = some offset) (startRead : readOffset offset = .ok n)
      (stop : Json.fieldOf? fields "end" = some (.real (.infinite negative))) :
      Unforeseen (.object fields)

theorem escapes_bind_iff {x : Except ChangeError α} {f : α → Except ChangeError β} :
    Escapes (x >>= f) ↔ Escapes x ∨ ∃ a, x = .ok a ∧ Escapes (f a) := by
  cases x <;> simp [Escapes, bind, Except.bind]

theorem not_escapes_readKind : ¬ Escapes (readKind fields) := by
  rintro ⟨e, failed, unforeseen⟩
  unfold readKind at failed
  split at failed
  · cases failed
  · split at failed
    · cases failed
    · split at failed
      · split at failed <;> cases failed
        cases unforeseen
      · cases failed
        cases unforeseen

theorem requireField_eq_ok_iff {name : String} {value : Json} :
    requireField fields name = .ok value ↔ Json.fieldOf? fields name = some value := by
  unfold requireField
  split <;> simp_all

theorem not_escapes_requireField {name : String} : ¬ Escapes (requireField fields name) := by
  rintro ⟨e, failed, unforeseen⟩
  unfold requireField at failed
  split at failed <;> cases failed
  cases unforeseen

theorem escapes_readOffset_iff {offset : Json} :
    Escapes (readOffset offset) ↔ ∃ negative, offset = .real (.infinite negative) := by
  unfold Escapes
  cases offset with
  | text t =>
      simp only [readOffset]
      cases IntegerText.read t <;> simp [Except.mapError, PayloadError.isMalformedFile]
  | real x =>
      cases x <;> simp [readOffset, PayloadError.isMalformedFile]
  | _ =>
      simp [readOffset, PayloadError.isMalformedFile]

theorem escapes_requireOffset_iff {name : String} :
    Escapes (requireField fields name >>= readOffset) ↔
      ∃ negative, Json.fieldOf? fields name = some (.real (.infinite negative)) := by
  simp only [escapes_bind_iff, not_escapes_requireField, false_or, escapes_readOffset_iff,
    requireField_eq_ok_iff]
  constructor
  · rintro ⟨offset, found, negative, rfl⟩
    exact ⟨negative, found⟩
  · rintro ⟨negative, found⟩
    exact ⟨_, found, negative, rfl⟩

/-- Once kind and offsets are read, only a malformed file can come to light. -/
theorem not_escapes_assemble {kind : ChangeKind} {text notes : Json} {span : Span} :
    ¬ Escapes (match text, notes with
      | .text text, .text notes => (pure { kind, text, span, notes } : Except ChangeError Change)
      | .text _, _ => throw (.notText ["notes"])
      | _, .text _ => throw (.notText ["text"])
      | _, _ => throw (.notText ["text", "notes"])) := by
  rintro ⟨e, failed, unforeseen⟩
  split at failed <;> cases failed <;> cases unforeseen

theorem requireOffset_eq_ok_iff {name : String} {n : Int} :
    (requireField fields name >>= readOffset) = .ok n ↔
      ∃ offset, Json.fieldOf? fields name = some offset ∧ readOffset offset = .ok n := by
  unfold requireField
  split <;> simp_all [bind, Except.bind]

/-- An item fails unforeseen in these ways only. -/
theorem escapes_ofJson_iff {item : Json} : Escapes (ofJson item) ↔ Unforeseen item := by
  cases item with
  | object fields =>
      unfold ofJson
      constructor
      · intro escapes
        rcases escapes_bind_iff.mp escapes with unread | ⟨kind, kindRead, escapes⟩
        · exact absurd unread not_escapes_readKind
        rcases escapes_bind_iff.mp escapes with absent | ⟨text, present, escapes⟩
        · exact absurd absent not_escapes_requireField
        rw [requireField_eq_ok_iff] at present
        rcases escapes_bind_iff.mp escapes with infinite | ⟨n, startRead, escapes⟩
        · obtain ⟨negative, start⟩ := escapes_requireOffset_iff.mp infinite
          exact .infiniteStart kindRead present start
        obtain ⟨offset, start, startRead⟩ := requireOffset_eq_ok_iff.mp startRead
        rcases escapes_bind_iff.mp escapes with infinite | ⟨m, stopRead, escapes⟩
        · obtain ⟨negative, stop⟩ := escapes_requireOffset_iff.mp infinite
          exact .infiniteStop kindRead present start startRead stop
        · exact absurd escapes not_escapes_assemble
      · intro unforeseen
        cases unforeseen with
        | notAnObject other =>
            exact absurd rfl (other fields)
        | infiniteStart kindRead present start =>
            refine escapes_bind_iff.mpr (.inr ⟨_, kindRead, ?_⟩)
            refine escapes_bind_iff.mpr (.inr ⟨_, requireField_eq_ok_iff.mpr present, ?_⟩)
            exact escapes_bind_iff.mpr (.inl (escapes_requireOffset_iff.mpr ⟨_, start⟩))
        | infiniteStop kindRead present start startRead stop =>
            refine escapes_bind_iff.mpr (.inr ⟨_, kindRead, ?_⟩)
            refine escapes_bind_iff.mpr (.inr ⟨_, requireField_eq_ok_iff.mpr present, ?_⟩)
            refine escapes_bind_iff.mpr
              (.inr ⟨_, requireOffset_eq_ok_iff.mpr ⟨_, start, startRead⟩, ?_⟩)
            exact escapes_bind_iff.mpr (.inl (escapes_requireOffset_iff.mpr ⟨_, stop⟩))
  | _ =>
      constructor
      · exact fun _ => .notAnObject (by simp)
      · exact fun _ => ⟨.notAnObject, rfl, rfl⟩

end Change

namespace Payload

/-! ### Files -/

/-- The items that a parsed file lists: those of its top level or, of an object, those under
`strings`. -/
inductive Lists : Json → List Json → Prop where
  | bare {j : Json} {items : List Json} (noObject : ∀ fields, j ≠ .object fields)
      (listed : Payload.items j = .ok items) : Lists j items
  | enclosed {fields : List (Text × Json)} {strings : Json} {items : List Json}
      (found : Json.fieldOf? fields "strings" = some strings)
      (listed : Payload.items strings = .ok items) : Lists (.object fields) items

theorem Lists.ofJson_eq {j : Json} {items : List Json} (lists : Lists j items) :
    ofJson j = items.mapM fun item => (Change.ofJson item).mapError .change := by
  cases lists with
  | bare noObject listed =>
      cases j with
      | object fields =>
          exact absurd rfl (noObject fields)
      | _ =>
          simp only [ofJson, pure_bind, listed]
          rfl
  | enclosed found listed =>
      simp only [ofJson, found, pure_bind, listed]
      rfl

/-- A parsed file lists items, or it is malformed. -/
theorem lists_or_isMalformedFile (j : Json) :
    (∃ items, Lists j items) ∨ ∃ e, ofJson j = .error e ∧ e.isMalformedFile = true := by
  have listed (strings : Json) :
      (∃ items, Payload.items strings = .ok items) ∨ Payload.items strings = .error .notAList := by
    cases strings <;> simp [items]
  cases j with
  | object fields =>
      cases found : Json.fieldOf? fields "strings" with
      | none =>
          refine .inr ⟨.missingStrings, ?_, rfl⟩
          simp only [ofJson, found]
          rfl
      | some strings =>
          rcases listed strings with ⟨items, given⟩ | refused
          · exact .inl ⟨items, .enclosed found given⟩
          · refine .inr ⟨.notAList, ?_, rfl⟩
            simp only [ofJson, found, pure_bind, refused]
            rfl
  | _ =>
      rcases listed _ with ⟨items, given⟩ | refused
      · exact .inl ⟨items, .bare (by simp) given⟩
      · refine .inr ⟨.notAList, ?_, rfl⟩
        simp only [ofJson, pure_bind, refused]
        rfl

theorem mapError_change_eq_ok_iff {item : Json} :
    (∃ change, (Change.ofJson item).mapError PayloadError.change = .ok change) ↔
      ∃ change, Change.ofJson item = .ok change := by
  cases Change.ofJson item <;> simp [Except.mapError]

/-- A parsed file fails unforeseen exactly when the first failing item does. -/
theorem ofJson_unreported_iff (j : Json) :
    (∃ e, ofJson j = .error e ∧ e.isMalformedFile = false) ↔
      ∃ before item after, Lists j (before ++ item :: after) ∧
        (∀ earlier ∈ before, ∃ change, Change.ofJson earlier = .ok change) ∧
        Change.Unforeseen item := by
  constructor
  · rintro ⟨e, failed, unreported⟩
    rcases lists_or_isMalformedFile j with ⟨items, lists⟩ | ⟨other, refused, reported⟩
    · rw [lists.ofJson_eq] at failed
      obtain ⟨before, item, after, rfl, read, itemFailed⟩ := mapM_eq_error_iff.mp failed
      refine ⟨before, item, after, lists, ?_, Change.escapes_ofJson_iff.mp ?_⟩
      · exact fun earlier member => mapError_change_eq_ok_iff.mp (read earlier member)
      · cases outcome : Change.ofJson item with
        | error fault =>
            rw [outcome] at itemFailed
            cases itemFailed
            exact ⟨fault, rfl, unreported⟩
        | ok change =>
            rw [outcome] at itemFailed
            cases itemFailed
    · rw [refused] at failed
      cases failed
      rw [reported] at unreported
      cases unreported
  · rintro ⟨before, item, after, lists, read, unforeseen⟩
    obtain ⟨fault, itemFailed, unreported⟩ := Change.escapes_ofJson_iff.mpr unforeseen
    refine ⟨.change fault, ?_, unreported⟩
    rw [lists.ofJson_eq]
    refine mapM_eq_error_iff.mpr ⟨before, item, after, rfl, ?_, by rw [itemFailed]; rfl⟩
    exact fun earlier member => mapError_change_eq_ok_iff.mpr (read earlier member)

/-- Reading a text ends with changes or with the error of a malformed file, unless the first item
that fails is one of those that fail unforeseen. -/
theorem read_reported_iff (t : Text) :
    ((∃ changes, read t = .ok changes) ∨ ∃ e, read t = .error e ∧ e.isMalformedFile = true) ↔
      ¬ ∃ j before item after, Json.read t = .ok j ∧ Lists j (before ++ item :: after) ∧
        (∀ earlier ∈ before, ∃ change, Change.ofJson earlier = .ok change) ∧
        Change.Unforeseen item := by
  cases parsed : Json.read t with
  | error fault =>
      have failed : read t = .error (.json fault) := by
        unfold read
        rw [parsed]
        rfl
      constructor
      · rintro - ⟨j, -, -, -, impossible, -⟩
        cases impossible
      · exact fun _ => .inr ⟨_, failed, rfl⟩
  | ok j =>
      have same : read t = ofJson j := by
        unfold read
        rw [parsed]
        rfl
      have unreported := ofJson_unreported_iff j
      simp only [Except.ok.injEq, exists_and_left, exists_eq_left'] at unreported ⊢
      rw [same, ← unreported]
      cases ofJson j <;> simp

/-- An item of the list that is a text is reported in another way. -/
theorem not_forall_read_reported :
    ¬ ∀ t, (∃ changes, read t = .ok changes) ∨
      ∃ e, read t = .error e ∧ e.isMalformedFile = true := by
  intro claim
  have failed : read (Text.ofString "[\"a\"]") = .error (.change .notAnObject) := by
    cbv
  rcases claim (Text.ofString "[\"a\"]") with ⟨changes, given⟩ | ⟨e, given, reported⟩
  · rw [failed] at given
    cases given
  · rw [failed] at given
    cases given
    cases reported

end Payload

end MdxLocalization
