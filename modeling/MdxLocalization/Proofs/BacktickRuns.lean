import MdxLocalization.Inline.Scan
import MdxLocalization.Proofs.CodeSpans
import MdxLocalization.Proofs.FoldedContent
import MdxLocalization.Proofs.HeadingRegions

/-!
# Backtick runs and code spans

The backticks of a region fall into maximal runs, and a code span reaches from the run that opens it
to the next one of the same length. The search for that run reads the region once and counts the
backticks directly before it. `seekRun?` searches in another way: it goes from one place with as
many backticks as are looked for to the next, measures the run there and passes over it when it is
longer.

Both searches keep to one invariant, `Pending`: backticks have been read from the start of a run on,
and no run of the length looked for begins before them. When such a run is over and has another
length, nothing is missed by going on behind it.
-/

namespace MdxLocalization

namespace Text

variable {source : Text} {position upper : Nat} {c : Char}

theorem getElem?_slice_eq_some_iff {i : Nat} :
    (slice source position upper)[i]? = some c ↔
      position + i < upper ∧ source[position + i]? = some c := by
  by_cases inside : position + i < upper
  · rw [getElem?_slice source inside]
    exact (and_iff_right inside).symm
  · have size := length_slice source position upper
    rw [List.getElem?_eq_none (by omega)]
    simp [inside]

theorem drop_slice (n : Nat) :
    (slice source position upper).drop n = slice source (position + n) upper := by
  rw [slice, slice, List.drop_take, List.drop_drop, Nat.sub_sub]

theorem take_slice {distance : Nat} (before : position + distance ≤ upper) :
    (slice source position upper).take distance = slice source position (position + distance) := by
  rw [slice, slice, List.take_take]
  congr 1
  omega

theorem startsWith_singleton {t : Text} : startsWith t [c] = true ↔ t.head? = some c := by
  rw [startsWith, List.isPrefixOf_iff_prefix, List.prefix_iff_getElem?]
  simp [List.head?_eq_getElem?]

theorem endsWith_singleton {t : Text} : endsWith t [c] = true ↔ t.getLast? = some c := by
  rw [endsWith, List.isSuffixOf_iff_suffix, ← List.reverse_prefix, List.reverse_singleton,
    ← List.head?_reverse, ← startsWith_singleton, startsWith, List.isPrefixOf_iff_prefix]

theorem slice_eq_cons {rest : Text}
    (cut : slice source position upper = c :: rest) :
    position < upper ∧ source[position]? = some c ∧
      rest = slice source (position + 1) upper := by
  have here : (slice source position upper)[0]? = some c := by
    rw [cut]
    rfl
  have behind := congrArg (List.drop 1) cut
  rw [drop_slice] at behind
  obtain ⟨inside, isHere⟩ := getElem?_slice_eq_some_iff.mp here
  exact ⟨inside, isHere, behind.symm⟩

end Text

namespace Inline

/-- A maximal run of backticks of the region `lower ≤ i < upper`. -/
structure TickRun (source : Text) (lower upper start length : Nat) : Prop where
  filled : 0 < length
  after : lower ≤ start
  before : start + length ≤ upper
  ticks : ∀ i, start ≤ i → i < start + length → source[i]? = some tick
  opens : lower < start → source[start - 1]? ≠ some tick
  closes : start + length < upper → source[start + length]? ≠ some tick

/-- The first run of its length in the region. -/
structure FirstTickRun (source : Text) (lower upper start length : Nat) : Prop
    extends TickRun source lower upper start length where
  first : ∀ other, TickRun source lower upper other length → start ≤ other

/-- What a search of a region for a run of a given length has to answer with: the distance of the
first one, if there is any. -/
def Finds (source : Text) (lower upper run : Nat) : Option Nat → Prop
  | some distance => FirstTickRun source lower upper (lower + distance) run
  | none => ∀ start, ¬ TickRun source lower upper start run

variable {source t : Text} {lower upper start length count run position place : Nat}

theorem Finds.unique {found found' : Option Nat} (finds : Finds source lower upper run found)
    (finds' : Finds source lower upper run found') : found = found' := by
  cases found with
  | none =>
      cases found' with
      | none =>
          rfl
      | some distance =>
          exact absurd finds'.toTickRun (finds _)
  | some distance =>
      cases found' with
      | none =>
          exact absurd finds.toTickRun (finds' _)
      | some distance' =>
          have before := finds.first _ finds'.toTickRun
          have after := finds'.first _ finds.toTickRun
          congr 1
          omega

/-! ### Runs that may go on -/

/-- Backticks from the start of a run up to where the search has got to. No run of the length looked
for begins before them. -/
structure Pending (source : Text) (lower upper run start count : Nat) : Prop where
  after : lower ≤ start
  before : start + count ≤ upper
  ticks : ∀ i, start ≤ i → i < start + count → source[i]? = some tick
  opens : lower < start → source[start - 1]? ≠ some tick
  first : ∀ other, TickRun source lower upper other run → start ≤ other

/-- The run that is pending goes no further. -/
def Stops (source : Text) (upper position : Nat) : Prop :=
  position < upper → source[position]? ≠ some tick

/-- At the start of the region nothing has been read. -/
theorem Pending.atStart (inOrder : lower ≤ upper) : Pending source lower upper run lower 0 where
  after := Nat.le_refl _
  before := inOrder
  ticks := fun _ after before => absurd before (Nat.not_lt.mpr after)
  opens := fun before => absurd before (Nat.lt_irrefl _)
  first := fun _ isRun => isRun.after

namespace Pending

variable (pending : Pending source lower upper run start count)
include pending

theorem grow (inside : start + count < upper) (here : source[start + count]? = some tick) :
    Pending source lower upper run start (count + 1) where
  after := pending.after
  before := inside
  ticks := by
    intro i after before
    by_cases last : i = start + count
    · exact last ▸ here
    · exact pending.ticks i after (by omega)
  opens := pending.opens
  first := pending.first

theorem firstTickRun (stops : Stops source upper (start + count)) (filled : 0 < count)
    (closes : count = run) : FirstTickRun source lower upper start run where
  filled := closes ▸ filled
  after := pending.after
  before := closes ▸ pending.before
  ticks := closes ▸ pending.ticks
  opens := pending.opens
  closes := closes ▸ stops
  first := pending.first

/-- A run that is over and has another length is passed over as a whole. -/
theorem behind (stops : Stops source upper (start + count)) (other : count ≠ run)
    (isRun : TickRun source lower upper position run) : start + count < position := by
  have begun := pending.first position isRun
  have inRegion := isRun.before
  have filled := isRun.filled
  by_contra notBehind
  by_cases same : position = start
  · subst same
    rcases Nat.lt_or_gt_of_ne other with shorter | longer
    · exact stops (by omega) (isRun.ticks _ (by omega) (by omega))
    · have within := pending.before
      exact isRun.closes (by omega) (pending.ticks _ (by omega) (by omega))
  · have within := pending.after
    exact isRun.opens (by omega) (pending.ticks _ (by omega) (by omega))

theorem next (stops : Stops source upper (start + count)) (other : count ≠ run)
    (inside : start + count < upper) :
    Pending source lower upper run (start + count + 1) 0 where
  after := by
    have after := pending.after
    omega
  before := inside
  ticks := fun i after before => absurd before (Nat.not_lt.mpr after)
  opens := fun _ => stops inside
  first := fun _ isRun => pending.behind stops other isRun

end Pending

/-! ### Counting backticks -/

/-- Counting answers with the first run of the length looked for. -/
theorem closingRun?_finds (skipped : Nat) (positive : 0 < run)
    (pending : Pending source lower upper run (lower + skipped) count) :
    Finds source lower upper run
      (closingRun? run (skipped + count) count
        (Text.slice source (lower + skipped + count) upper)) := by
  generalize rest : Text.slice source (lower + skipped + count) upper = t
  induction t generalizing skipped count with
  | nil =>
      have ended (i : Nat) : Stops source upper (lower + skipped + count + i) := by
        intro inside ticks
        have here := Text.getElem?_slice_eq_some_iff.mpr ⟨inside, ticks⟩
        rw [rest] at here
        cases here
      rw [closingRun?]
      split
      · rename_i closes
        rw [Nat.add_sub_cancel]
        exact pending.firstTickRun (ended 0) (closes ▸ positive) closes
      · rename_i other
        intro start isRun
        have behind := pending.behind (ended 0) other isRun
        obtain ⟨gap, rfl⟩ := Nat.exists_eq_add_of_le (Nat.le_of_lt behind)
        have inRegion := isRun.before
        have filled := isRun.filled
        exact ended gap (by omega) (isRun.ticks _ (Nat.le_refl _) (by omega))
  | cons c t hypothesis =>
      obtain ⟨inside, here, rfl⟩ := Text.slice_eq_cons rest
      rw [closingRun?]
      split
      · rename_i ticks
        exact hypothesis skipped (pending.grow inside (ticks ▸ here)) rfl
      · rename_i noTick
        have stops : Stops source upper (lower + skipped + count) := by
          intro _ ticks
          exact noTick (Option.some.inj (here.symm.trans ticks))
        split
        · rename_i closes
          rw [Nat.add_sub_cancel]
          exact pending.firstTickRun stops (closes ▸ positive) closes
        · rename_i other
          have next := pending.next stops other inside
          have position : lower + skipped + count + 1 = lower + (skipped + count + 1) := by omega
          rw [position] at next
          exact hypothesis (skipped + count + 1) next (by rw [position]; rfl)

/-! ### Seeking places with enough backticks -/

theorem replicate_prefix_drop_iff {m : Nat} :
    List.replicate run tick <+: t.drop m ↔ ∀ i < run, t[m + i]? = some tick := by
  rw [List.prefix_iff_getElem?]
  simp

theorem openingRun_maximal (t : Text) :
    (∀ i < openingRun t, t[i]? = some tick) ∧ t[openingRun t]? ≠ some tick := by
  obtain ⟨rest, parts, solid⟩ := exists_openingRun t
  generalize openingRun t = n at parts ⊢
  subst parts
  constructor
  · intro i inside
    rw [List.getElem?_append_left (by simpa using inside), List.getElem?_replicate_of_lt inside]
  · rw [List.getElem?_append_right (by simp), List.length_replicate, Nat.sub_self,
      ← List.head?_eq_getElem?]
    exact fun ticks => solid tick ticks rfl

theorem ticks_of_find? (found : Text.find? (List.replicate run tick) t = some place) :
    ∀ i < run, t[place + i]? = some tick := by
  obtain ⟨rest, parts⟩ := Text.exists_drop_of_find? found
  exact replicate_prefix_drop_iff.mp ⟨rest, parts.symm⟩

theorem le_openingRun_of_find? (found : Text.find? (List.replicate run tick) t = some place) :
    run ≤ openingRun (t.drop place) := by
  obtain ⟨-, ends⟩ := openingRun_maximal (t.drop place)
  by_contra few
  have here := ticks_of_find? found _ (Nat.lt_of_not_le few)
  rw [List.getElem?_drop] at ends
  exact ends here

/-- With a backtick in front of it, the first place with enough backticks would not be the first. -/
theorem ne_tick_of_find? (found : Text.find? (List.replicate run tick) t = some (place + 1)) :
    t[place]? ≠ some tick := by
  intro ticks
  refine Text.not_prefix_of_find? found place (Nat.lt_succ_self place) ?_
  refine replicate_prefix_drop_iff.mpr fun i inside => ?_
  cases i with
  | zero =>
      exact ticks
  | succ i =>
      have next := ticks_of_find? found i (Nat.lt_of_succ_lt inside)
      rwa [Nat.add_right_comm, Nat.add_assoc] at next

theorem length_drop_lt_of_openingRun
    (found : Text.find? (List.replicate run tick) t = some place)
    (other : openingRun (t.drop place) ≠ run) :
    (t.drop (place + openingRun (t.drop place))).length < t.length := by
  have enough := le_openingRun_of_find? found
  have filled : 0 < openingRun (t.drop place) := by
    omega
  have inside : place < t.length := by
    by_contra past
    rw [List.drop_of_length_le (Nat.le_of_not_lt past)] at filled
    exact absurd filled (Nat.lt_irrefl 0)
  rw [List.length_drop]
  omega

/-- Seeks a run of backticks of a given length at the places with at least as many. A run that
proves longer is passed over. -/
def seekRun? (run : Nat) (t : Text) : Option Nat :=
  match _ : Text.find? (List.replicate run tick) t with
  | none => none
  | some place =>
    let count := openingRun (t.drop place)
    if _ : count ≠ run then (seekRun? run (t.drop (place + count))).map (place + count + ·)
    else some place
  termination_by t.length
  decreasing_by exact length_drop_lt_of_openingRun ‹_› ‹_›

theorem seekRun?_eq_none (absent : Text.find? (List.replicate run tick) t = none) :
    seekRun? run t = none := by
  rw [seekRun?]
  split
  · rfl
  · rename_i found
    rw [absent] at found
    cases found

theorem seekRun?_of_find?
    (found : Text.find? (List.replicate run tick) t = some place) :
    seekRun? run t =
      if openingRun (t.drop place) = run then some place
      else
        (seekRun? run (t.drop (place + openingRun (t.drop place)))).map
          (place + openingRun (t.drop place) + ·) := by
  rw [seekRun?]
  split
  · rename_i absent
    rw [found] at absent
    cases absent
  · rename_i same
    cases found.symm.trans same
    by_cases closes : openingRun (t.drop place) = run <;> simp [closes]

/-- A run of the length looked for begins at a place with as many backticks. -/
theorem TickRun.occurs {m : Nat} (isRun : TickRun source lower upper (position + m) run) :
    List.replicate run tick <+: (Text.slice source position upper).drop m := by
  refine replicate_prefix_drop_iff.mpr fun i inside => ?_
  have inRegion := isRun.before
  exact Text.getElem?_slice_eq_some_iff.mpr
    ⟨by omega, isRun.ticks _ (by omega) (by omega)⟩

theorem stops_of_openingRun (place : Nat) :
    Stops source upper
      (position + place + openingRun ((Text.slice source position upper).drop place)) := by
  obtain ⟨-, ends⟩ := openingRun_maximal ((Text.slice source position upper).drop place)
  rw [List.getElem?_drop] at ends
  intro inside ticks
  rw [Nat.add_assoc] at inside ticks
  exact ends (Text.getElem?_slice_eq_some_iff.mpr ⟨inside, ticks⟩)

theorem ticks_of_openingRun {i : Nat}
    (inside : i < openingRun ((Text.slice source position upper).drop place)) :
    position + place + i < upper ∧ source[position + place + i]? = some tick := by
  obtain ⟨ticks, -⟩ := openingRun_maximal ((Text.slice source position upper).drop place)
  have here := ticks i inside
  rw [List.getElem?_drop] at here
  rw [Nat.add_assoc]
  exact Text.getElem?_slice_eq_some_iff.mp here

/-- At the first place with enough backticks a run starts, and none of the length looked for starts
before it. -/
theorem pending_of_find? {skipped : Nat} (positive : 0 < run)
    (apart : 0 < skipped → Stops source upper (lower + skipped))
    (first : ∀ other, TickRun source lower upper other run → lower + skipped ≤ other)
    (found : Text.find? (List.replicate run tick) (Text.slice source (lower + skipped) upper) =
      some place) :
    Pending source lower upper run (lower + skipped + place)
      (openingRun ((Text.slice source (lower + skipped) upper).drop place)) := by
  have enough := le_openingRun_of_find? found
  have inRegion (i : Nat)
      (inside : i < openingRun ((Text.slice source (lower + skipped) upper).drop place)) :=
    ticks_of_openingRun inside
  generalize openingRun _ = count at enough inRegion ⊢
  have last := (inRegion (count - 1) (by omega)).1
  exact
    { after := by omega
      before := by omega
      ticks := by
        intro i after before
        obtain ⟨n, rfl⟩ := Nat.exists_eq_add_of_le after
        exact (inRegion n (by omega)).2
      opens := by
        intro behind ticks
        cases place with
        | zero =>
            have here := inRegion 0 (by omega)
            exact apart (by omega) here.1 here.2
        | succ place =>
            exact ne_tick_of_find? found
              (Text.getElem?_slice_eq_some_iff.mpr ⟨by omega, ticks⟩)
      first := by
        intro other isRun
        obtain ⟨m, rfl⟩ := Nat.exists_eq_add_of_le (first other isRun)
        by_contra before
        exact Text.not_prefix_of_find? found m (by omega) isRun.occurs }

/-- Seeking answers with the first run of the length looked for. -/
theorem seekRun?_finds (skipped : Nat) (positive : 0 < run)
    (apart : 0 < skipped → Stops source upper (lower + skipped))
    (first : ∀ other, TickRun source lower upper other run → lower + skipped ≤ other) :
    Finds source lower upper run
      ((seekRun? run (Text.slice source (lower + skipped) upper)).map (skipped + ·)) := by
  induction size : (Text.slice source (lower + skipped) upper).length using
    Nat.strong_induction_on generalizing skipped with
  | h size hypothesis =>
      cases found : Text.find? (List.replicate run tick)
          (Text.slice source (lower + skipped) upper) with
      | none =>
          rw [seekRun?_eq_none found]
          intro start isRun
          obtain ⟨m, rfl⟩ := Nat.exists_eq_add_of_le (first start isRun)
          obtain ⟨place, occurs⟩ := Text.exists_find?_of_occurs isRun.occurs
          rw [found] at occurs
          cases occurs
      | some place =>
          have pending := pending_of_find? positive apart first found
          have stops : Stops source upper (lower + skipped + place + _) := stops_of_openingRun place
          have shorter := length_drop_lt_of_openingRun found
          rw [seekRun?_of_find? found]
          generalize openingRun _ = count at pending stops shorter ⊢
          have next : lower + skipped + place + count = lower + (skipped + (place + count)) := by
            omega
          split
          · rename_i closes
            subst closes
            have isFirst := pending.firstTickRun stops positive rfl
            rwa [Nat.add_assoc] at isFirst
          · rename_i other
            have smaller := shorter other
            rw [Text.drop_slice, ← Nat.add_assoc, next, size] at smaller
            have passed (start : Nat) (isRun : TickRun source lower upper start run) :
                lower + (skipped + (place + count)) ≤ start :=
              next ▸ Nat.le_of_lt (pending.behind stops other isRun)
            have further := hypothesis _ smaller _ (fun _ => next ▸ stops) passed rfl
            have distances :
                (skipped + ·) ∘ (place + count + ·) = (skipped + (place + count) + ·) := by
              funext distance
              exact (Nat.add_assoc _ _ _).symm
            rwa [Text.drop_slice, ← Nat.add_assoc (lower + skipped), next, Option.map_map,
              distances]

/-- Counting and seeking find the same run. -/
theorem seekRun?_eq_closingRun? (positive : 0 < run) (t : Text) :
    seekRun? run t = closingRun? run 0 0 t := by
  have whole : Text.slice t 0 t.length = t := by
    simp [Text.slice]
  have sought : Finds t 0 t.length run
      ((seekRun? run (Text.slice t (0 + 0) t.length)).map (0 + ·)) :=
    seekRun?_finds 0 positive (fun skipped => absurd skipped (Nat.lt_irrefl 0))
      fun _ _ => Nat.zero_le _
  have counted : Finds t 0 t.length run
      (closingRun? run (0 + 0) 0 (Text.slice t (0 + 0 + 0) t.length)) :=
    closingRun?_finds 0 positive (.atStart (Nat.zero_le _))
  simp only [Nat.zero_add, Option.map_id', whole] at sought counted
  exact sought.unique counted

/-! ### The text of a code span -/

/-- A region with a space at both ends and something else than white space. -/
structure Padded (source : Text) (start stop : Nat) : Prop where
  opens : source[start]? = some ' '
  closes : source[stop - 1]? = some ' '
  filled : ∃ i c, start ≤ i ∧ i < stop ∧ source[i]? = some c ∧ Text.isBlank c = false

/-- The text of a region, less one space at each end when the region is padded. -/
def IsCodeText (source : Text) (start stop : Nat) (value : Text) : Prop :=
  (Padded source start stop → value = Text.slice source (start + 1) (stop - 1)) ∧
    (¬ Padded source start stop → value = Text.slice source start stop)

theorem padded_iff {stop : Nat} (within : stop ≤ source.length) :
    Padded source start stop ↔
      (Text.startsWith (Text.slice source start stop) [' '] &&
        Text.endsWith (Text.slice source start stop) [' '] &&
        !Text.isBlankText (Text.slice source start stop)) = true := by
  have size : (Text.slice source start stop).length = stop - start := by
    rw [Text.length_slice, Nat.min_eq_left (Nat.sub_le_sub_right within start)]
  have filled : Text.isBlankText (Text.slice source start stop) = false ↔
      ∃ i c, start ≤ i ∧ i < stop ∧ source[i]? = some c ∧ Text.isBlank c = false := by
    rw [← Bool.not_eq_true, Document.isBlankText_slice_iff]
    push Not
    simp only [ne_eq, Bool.not_eq_true]
  rw [Bool.and_eq_true, Bool.and_eq_true, Bool.not_eq_true', filled, Text.startsWith_singleton,
    Text.endsWith_singleton, List.head?_eq_getElem?, List.getLast?_eq_getElem?, size,
    Text.getElem?_slice_eq_some_iff, Text.getElem?_slice_eq_some_iff, Nat.add_zero]
  have last (nonempty : start < stop) : start + (stop - start - 1) = stop - 1 := by
    omega
  constructor
  · rintro ⟨opens, closes, inner⟩
    obtain ⟨i, c, after, before, -⟩ := id inner
    have nonempty := Nat.lt_of_le_of_lt after before
    rw [last nonempty]
    exact ⟨⟨⟨nonempty, opens⟩, Nat.sub_one_lt_of_lt nonempty, closes⟩, inner⟩
  · rintro ⟨⟨⟨nonempty, opens⟩, -, closes⟩, inner⟩
    rw [last nonempty] at closes
    exact ⟨opens, closes, inner⟩

theorem drop_dropLast_slice {stop : Nat} (within : stop ≤ source.length) :
    ((Text.slice source start stop).drop 1).dropLast =
      Text.slice source (start + 1) (stop - 1) := by
  have size := Text.length_slice source (start + 1) stop
  rw [Text.drop_slice, List.dropLast_eq_take, size, Text.slice, Text.slice, List.take_take]
  congr 1
  omega

theorem isCodeText_iff {stop : Nat} {value : Text} (within : stop ≤ source.length) :
    IsCodeText source start stop value ↔ value = codeValue (Text.slice source start stop) := by
  rw [IsCodeText, codeValue, padded_iff within, drop_dropLast_slice within]
  split <;> simp [*]

/-! ### Code spans -/

/-- The code span that starts at a position of a region. -/
def codeSpanNode? (source : Text) (position stop : Nat) : Option Node :=
  (codeSpan? (Text.slice source position stop)).map fun (value, length) =>
    codeNode position value length

/-- The scanner puts the code span where the region starts and goes on behind it. -/
theorem scanFrom_of_codeSpanNode? {stop : Nat} {pending : Text} {node : Node}
    (opens : TickRun source position stop position run)
    (found : codeSpanNode? source position stop = some node) :
    ∃ length, 0 < length ∧ scanFrom position pending (Text.slice source position stop) =
      flush position pending ++ node ::
        scanFrom (position + length) [] (Text.slice source (position + length) stop) := by
  have filled := opens.filled
  have inRegion := opens.before
  have here : (Text.slice source position stop)[0]? = some tick :=
    Text.getElem?_slice_eq_some_iff.mpr ⟨by omega, opens.ticks _ (Nat.le_refl _) (by omega)⟩
  rw [codeSpanNode?] at found
  cases cut : Text.slice source position stop with
  | nil =>
      rw [cut] at here
      cases here
  | cons c rest =>
      rw [cut] at here found
      cases here
      obtain ⟨⟨value, length⟩, isSpan, rfl⟩ := Option.map_eq_some_iff.mp found
      have positive := codeSpan?_length_pos isSpan
      obtain ⟨-, -, rfl⟩ := Text.slice_eq_cons cut
      refine ⟨length, positive, ?_⟩
      rw [scanFrom_code isSpan, Text.drop_slice, Nat.add_assoc, Nat.add_sub_cancel' positive]

theorem TickRun.openingRun_eq {stop : Nat} (opens : TickRun source position stop position run) :
    openingRun (Text.slice source position stop) = run := by
  obtain ⟨ticks, ends⟩ := openingRun_maximal (Text.slice source position stop)
  have inRegion := opens.before
  rcases Nat.lt_trichotomy (openingRun (Text.slice source position stop)) run with
    shorter | same | longer
  · refine absurd (Text.getElem?_slice_eq_some_iff.mpr ⟨?_, ?_⟩) ends
    · omega
    · exact opens.ticks _ (by omega) (by omega)
  · exact same
  · obtain ⟨inside, here⟩ := Text.getElem?_slice_eq_some_iff.mp (ticks run longer)
    exact absurd here (opens.closes inside)

/-- The code span that a run of backticks opens, by the search for the run that closes it. -/
theorem codeSpanNode?_opened {stop : Nat} (opens : TickRun source position stop position run) :
    codeSpanNode? source position stop =
      (closingRun? run 0 0 (Text.slice source (position + run) stop)).map fun distance =>
        codeNode position
          (codeValue ((Text.slice source (position + run) stop).take distance))
          (run + distance + run) := by
  have counted := opens.openingRun_eq
  unfold openingRun at counted
  rw [codeSpanNode?, codeSpan?, counted, Text.drop_slice]
  dsimp only
  cases closingRun? run 0 0 (Text.slice source (position + run) stop) <;> rfl

theorem TickRun.closing_le_length {stop closing : Nat}
    (closes : TickRun source lower stop closing run) : closing ≤ source.length := by
  have here := closes.ticks closing (Nat.le_refl _) (Nat.lt_add_of_pos_right closes.filled)
  exact Nat.le_of_lt (List.getElem?_eq_some_iff.mp here).1

/-- A run of backticks opens a code span exactly when a later run of the region has its length. The
first such run closes the span, which reaches from run to run and has for its value the text between
them, less one space at each end when it is padded. Seeking finds this run as counting does. -/
theorem codeSpanNode?_pairs_runs {source : Text} {position stop run : Nat}
    (opens : TickRun source position stop position run) :
    (∀ node, codeSpanNode? source position stop = some node ↔
      ∃ closing value, FirstTickRun source (position + run) stop closing run ∧
        IsCodeText source (position + run) closing value ∧
        node = .mk { kind := .inlineCode, value := some value,
                     span := some (Span.ofNats position (closing + run)) } []) ∧
      ((codeSpanNode? source position stop).isSome ↔
        ∃ closing, TickRun source (position + run) stop closing run) ∧
      codeSpanNode? source position stop =
        (seekRun? run (Text.slice source (position + run) stop)).map fun distance =>
          codeNode position
            (codeValue (Text.slice source (position + run) (position + run + distance)))
            (run + distance + run) := by
  have finds : Finds source (position + run) stop run
      (closingRun? run 0 0 (Text.slice source (position + run) stop)) :=
    closingRun?_finds 0 opens.filled (.atStart opens.before)
  rw [seekRun?_eq_closingRun? opens.filled, codeSpanNode?_opened opens]
  generalize closingRun? run 0 0 _ = found at finds ⊢
  cases found with
  | none =>
      refine ⟨fun node => ⟨nofun, ?_⟩, ⟨nofun, ?_⟩, rfl⟩
      · rintro ⟨closing, value, isFirst, -⟩
        exact absurd isFirst.toTickRun (finds closing)
      · rintro ⟨closing, isRun⟩
        exact absurd isRun (finds closing)
  | some distance =>
      have inRegion := finds.before
      have inSource := finds.toTickRun.closing_le_length
      have inside : position + run + distance ≤ stop := by
        omega
      have ends : position + (run + distance + run) = position + run + distance + run := by
        omega
      rw [Option.map_some, Option.map_some, Text.take_slice inside, codeNode, ends]
      refine ⟨fun node => ⟨?_, ?_⟩, ⟨fun _ => ⟨_, finds.toTickRun⟩, fun _ => rfl⟩, rfl⟩
      · rintro ⟨⟩
        exact ⟨_, _, finds, (isCodeText_iff inSource).mpr rfl, rfl⟩
      · rintro ⟨closing, value, isFirst, isText, rfl⟩
        obtain rfl := Nat.le_antisymm (isFirst.first _ finds.toTickRun)
          (finds.first _ isFirst.toTickRun)
        rw [(isCodeText_iff inSource).mp isText]

theorem codeSpanNode?_pairs_runs_tripleBetween :
    let source := Text.ofString "\x60\x60 a\x60 \x60\x60\x60 b \x60\x60 c\x60\x60"
    let node := codeNode 0 (Text.ofString "a\x60 \x60\x60\x60 b") 14
    TickRun source 0 18 0 2 ∧ codeSpanNode? source 0 18 = some node ∧
      ∃ closing value, FirstTickRun source (0 + 2) 18 closing 2 ∧
        IsCodeText source (0 + 2) closing value ∧
        node = .mk { kind := .inlineCode, value := some value,
                     span := some (Span.ofNats 0 (closing + 2)) } [] := by
  intro source node
  have opens : TickRun source 0 18 0 2 := by
    refine ⟨by decide, by decide, by decide, ?_, by decide, by decide⟩
    intro i _ before
    match i, before with
    | 0, _ => rfl
    | 1, _ => rfl
  have found : codeSpanNode? source 0 18 = some node := rfl
  exact ⟨opens, found, ((codeSpanNode?_pairs_runs opens).1 node).mp found⟩

end Inline

end MdxLocalization
