import MdxLocalization.Proofs.ScanSteps

/-!
# Where code spans end

A run of backticks opens a code span when a later run has the same length, and the first such run
closes it. `closingRun?` answers with the position of this run; here the end of the run is counted
from the start of the text, so that positions play no part. `tickRuns` lists the lengths of the runs
of a text: they alone decide what is a code span.
-/

namespace MdxLocalization.Inline

/-- How many characters of a text there are up to the end of the first maximal run of exactly `run`
backticks, when `count` backticks stand directly before the text. -/
def runEnd? (run count : Nat) : Text → Option Nat
  | [] => if count = run then some 0 else none
  | c :: rest =>
    if c = tick then (runEnd? run (count + 1) rest).map (· + 1)
    else if count = run then some 0
    else (runEnd? run 0 rest).map (· + 1)

/-- The run of `count` backticks that has just ended, if there are any. -/
def runOf (count : Nat) : List Nat := if count = 0 then [] else [count]

/-- The lengths of the maximal runs of backticks in a text in front of which stand `count` more. -/
def tickRuns (count : Nat) : Text → List Nat
  | [] => runOf count
  | c :: rest => if c = tick then tickRuns (count + 1) rest else runOf count ++ tickRuns 0 rest

variable {run count offset : Nat} {t : Text}

/-! ### Runs -/

theorem runEnd?_nil (run count : Nat) :
    runEnd? run count [] = if count = run then some 0 else none := rfl

theorem runEnd?_cons (run count : Nat) (c : Char) (rest : Text) :
    runEnd? run count (c :: rest) =
      if c = tick then (runEnd? run (count + 1) rest).map (· + 1)
      else if count = run then some 0
      else (runEnd? run 0 rest).map (· + 1) := rfl

theorem runEnd?_tick (rest : Text) :
    runEnd? run count (tick :: rest) = (runEnd? run (count + 1) rest).map (· + 1) := by
  rw [runEnd?_cons, if_pos rfl]

theorem runEnd?_char {c : Char} (noTick : c ≠ tick) (rest : Text) :
    runEnd? run count (c :: rest) =
      if count = run then some 0 else (runEnd? run 0 rest).map (· + 1) := by
  rw [runEnd?_cons, if_neg noTick]

theorem mem_runOf : run ∈ runOf count ↔ run = count ∧ run ≠ 0 := by
  unfold runOf
  split <;> simp <;> omega

theorem runOf_succ : runOf (count + 1) = [count + 1] := rfl

theorem tickRuns_nil (count : Nat) : tickRuns count [] = runOf count := rfl

theorem tickRuns_cons (count : Nat) (c : Char) (rest : Text) :
    tickRuns count (c :: rest) =
      if c = tick then tickRuns (count + 1) rest else runOf count ++ tickRuns 0 rest := rfl

theorem tickRuns_tick (rest : Text) :
    tickRuns count (tick :: rest) = tickRuns (count + 1) rest := by
  rw [tickRuns_cons, if_pos rfl]

theorem tickRuns_char {c : Char} (noTick : c ≠ tick) (rest : Text) :
    tickRuns count (c :: rest) = runOf count ++ tickRuns 0 rest := by
  rw [tickRuns_cons, if_neg noTick]

/-- The runs in front of a text that does not start with a backtick are over. -/
theorem tickRuns_solid (solid : ∀ c ∈ t.head?, c ≠ tick) :
    tickRuns count t = runOf count ++ tickRuns 0 t := by
  cases t with
  | nil =>
      rw [tickRuns_nil, tickRuns_nil]
      exact (List.append_nil _).symm
  | cons c rest =>
      have noTick := solid c rfl
      rw [tickRuns_char noTick, tickRuns_char noTick]
      rfl

theorem tickRuns_append {c : Char} (noTick : c ≠ tick) (before after : Text) :
    tickRuns count (before ++ c :: after) = tickRuns count before ++ tickRuns 0 after := by
  induction before generalizing count with
  | nil =>
      rw [List.nil_append, tickRuns_char noTick, tickRuns_nil]
  | cons d before hypothesis =>
      rw [List.cons_append]
      by_cases ticks : d = tick
      · subst ticks
        rw [tickRuns_tick, tickRuns_tick, hypothesis]
      · rw [tickRuns_char ticks, tickRuns_char ticks, hypothesis, List.append_assoc]

/-- Without backticks there are no runs. -/
theorem tickRuns_append_of_not_mem (free : tick ∉ t) (after : Text) :
    tickRuns 0 (t ++ after) = tickRuns 0 after := by
  induction t with
  | nil =>
      rfl
  | cons c rest hypothesis =>
      rw [List.mem_cons, not_or] at free
      rw [List.cons_append, tickRuns_char (Ne.symm free.1), hypothesis free.2]
      rfl

theorem tickRuns_le (member : run ∈ tickRuns count t) : run ≤ count + t.length := by
  induction t generalizing count with
  | nil =>
      exact Nat.le_of_eq (mem_runOf.mp member).1
  | cons c rest hypothesis =>
      rw [List.length_cons]
      by_cases ticks : c = tick
      · subst ticks
        rw [tickRuns_tick] at member
        have bound := hypothesis member
        omega
      · rw [tickRuns_char ticks, List.mem_append] at member
        rcases member with ended | later
        · have same := (mem_runOf.mp ended).1
          omega
        · have bound := hypothesis later
          omega

theorem closingRun?_eq (before : count ≤ offset) :
    closingRun? run offset count t = (runEnd? run count t).map (offset + · - run) := by
  induction t generalizing offset count with
  | nil =>
      rw [closingRun?, runEnd?_nil]
      split
      · rename_i closes
        rw [closes]
        rfl
      · rfl
  | cons c rest hypothesis =>
      have further (ahead : Option Nat) : (ahead.map (· + 1)).map (offset + · - run) =
          ahead.map (offset + 1 + · - run) := by
        rw [Option.map_map]
        congr 1
        funext n
        change offset + (n + 1) - run = offset + 1 + n - run
        omega
      rw [closingRun?, runEnd?_cons]
      split
      · rw [hypothesis (Nat.succ_le_succ before), further]
      · split
        · rename_i closes
          rw [closes]
          rfl
        · rw [hypothesis (Nat.zero_le _), further]

theorem runEnd?_eq_none_iff (positive : run ≠ 0) :
    runEnd? run count t = none ↔ run ∉ tickRuns count t := by
  induction t generalizing count with
  | nil =>
      rw [runEnd?_nil, tickRuns_nil, mem_runOf]
      simp [eq_comm, positive]
  | cons c rest hypothesis =>
      by_cases ticks : c = tick
      · subst ticks
        rw [runEnd?_tick, tickRuns_tick, Option.map_eq_none_iff, hypothesis]
      · rw [runEnd?_char ticks, tickRuns_char ticks, List.mem_append, mem_runOf, not_or]
        by_cases closes : count = run
        · simp [closes, positive]
        · rw [if_neg closes, Option.map_eq_none_iff, hypothesis]
          simp [Ne.symm closes]

/-- The run that was looked for is the first one of its length, ends with what was read, and no
backtick follows it. -/
theorem exists_of_runEnd? {length : Nat} (positive : run ≠ 0)
    (found : runEnd? run count t = some length) :
    (length = 0 ∧ count = run ∧ ∀ c ∈ t.head?, c ≠ tick) ∨
      ∃ before after runs, t = before ++ tick :: after ∧ length = before.length + 1 ∧
        (∀ c ∈ after.head?, c ≠ tick) ∧
        tickRuns count (before ++ [tick]) = runs ++ [run] ∧ run ∉ runs := by
  induction t generalizing count length with
  | nil =>
      rw [runEnd?_nil] at found
      split at found
      · rename_i closes
        cases found
        exact .inl ⟨rfl, closes, by simp⟩
      · cases found
  | cons c rest hypothesis =>
      by_cases ticks : c = tick
      · subst ticks
        rw [runEnd?_tick] at found
        obtain ⟨ahead, later, rfl⟩ := Option.map_eq_some_iff.mp found
        refine .inr ?_
        rcases hypothesis later with
          ⟨rfl, rfl, solid⟩ | ⟨before, after, runs, rfl, rfl, solid, last, first⟩
        · refine ⟨[], rest, [], rfl, rfl, solid, ?_, List.not_mem_nil⟩
          rw [List.nil_append, tickRuns_tick, tickRuns_nil]
          rfl
        · exact ⟨tick :: before, after, runs, rfl, rfl, solid, by rwa [List.cons_append, tickRuns_tick],
            first⟩
      · rw [runEnd?_char ticks] at found
        split at found
        · rename_i closes
          cases found
          exact .inl ⟨rfl, closes, by simpa using ticks⟩
        · rename_i other
          obtain ⟨ahead, later, rfl⟩ := Option.map_eq_some_iff.mp found
          refine .inr ?_
          rcases hypothesis later with
            ⟨-, same, -⟩ | ⟨before, after, runs, rfl, rfl, solid, last, first⟩
          · exact absurd same.symm positive
          · refine ⟨c :: before, after, runOf count ++ runs, rfl, rfl, solid, ?_, ?_⟩
            · rw [List.cons_append, tickRuns_char ticks, last, List.append_assoc]
            · rw [List.mem_append, mem_runOf, not_or]
              exact ⟨fun same => other same.1.symm, first⟩

theorem tickRuns_concat_ne_nil (count : Nat) (before : Text) :
    tickRuns count (before ++ [tick]) ≠ [] := by
  induction before generalizing count with
  | nil =>
      rw [List.nil_append, tickRuns_tick, tickRuns_nil, runOf_succ]
      exact List.cons_ne_nil _ _
  | cons c before hypothesis =>
      rw [List.cons_append, tickRuns_cons]
      split
      · exact hypothesis _
      · exact List.append_ne_nil_of_right_ne_nil _ (hypothesis 0)

theorem runEnd?_of_tickRuns {before after : Text} {runs : List Nat} (positive : run ≠ 0)
    (last : tickRuns count (before ++ [tick]) = runs ++ [run]) (first : run ∉ runs)
    (solid : ∀ c ∈ after.head?, c ≠ tick) :
    runEnd? run count (before ++ tick :: after) = some (before.length + 1) := by
  induction before generalizing count runs with
  | nil =>
      rw [List.nil_append, tickRuns_tick, tickRuns_nil, runOf_succ,
        ← List.nil_append [count + 1]] at last
      obtain ⟨-, ended⟩ := List.append_inj' last rfl
      cases ended
      rw [List.nil_append, runEnd?_tick]
      cases after with
      | nil =>
          rw [runEnd?_nil, if_pos rfl]
          rfl
      | cons c after =>
          rw [runEnd?_char (solid c rfl), if_pos rfl]
          rfl
  | cons c before hypothesis =>
      rw [List.cons_append] at last ⊢
      by_cases ticks : c = tick
      · subst ticks
        rw [tickRuns_tick] at last
        rw [runEnd?_tick, hypothesis last first]
        rfl
      · have same := List.dropLast_concat_getLast (tickRuns_concat_ne_nil 0 before)
        rw [tickRuns_char ticks, ← same, ← List.append_assoc] at last
        obtain ⟨rfl, ended⟩ := List.append_inj' last rfl
        cases ended
        rw [List.mem_append, mem_runOf, not_or] at first
        have other : count ≠ _ := fun closes => first.1 ⟨closes.symm, positive⟩
        rw [runEnd?_char ticks, if_neg other, hypothesis same.symm first.2]
        rfl

/-! ### Code spans -/

/-- The backticks at the start of a text. -/
def openingRun (t : Text) : Nat := Text.countWhile (· == tick) t

theorem openingRun_tick (rest : Text) : openingRun (tick :: rest) = openingRun rest + 1 := by
  rw [openingRun, Text.countWhile, if_pos (by simp)]
  rfl

theorem openingRun_solid (solid : ∀ c ∈ t.head?, c ≠ tick) : openingRun t = 0 := by
  cases t with
  | nil =>
      rfl
  | cons c rest =>
      simp [openingRun, Text.countWhile, solid c rfl]

/-- The text is its opening run and a text that starts with no backtick. -/
theorem exists_openingRun (t : Text) :
    ∃ rest, t = List.replicate (openingRun t) tick ++ rest ∧ ∀ c ∈ rest.head?, c ≠ tick := by
  induction t with
  | nil =>
      exact ⟨[], rfl, by simp⟩
  | cons c t hypothesis =>
      by_cases ticks : c = tick
      · subst ticks
        obtain ⟨rest, same, solid⟩ := hypothesis
        refine ⟨rest, ?_, solid⟩
        rw [openingRun_tick, List.replicate_succ, List.cons_append, ← same]
      · have solid : ∀ d ∈ (c :: t).head?, d ≠ tick := by
          simpa using ticks
        exact ⟨c :: t, by rw [openingRun_solid solid]; rfl, solid⟩

theorem openingRun_replicate_append (n : Nat) (solid : ∀ c ∈ t.head?, c ≠ tick) :
    openingRun (List.replicate n tick ++ t) = n := by
  induction n with
  | zero =>
      exact openingRun_solid solid
  | succ n hypothesis =>
      rw [List.replicate_succ, List.cons_append, openingRun_tick, hypothesis]

theorem tickRuns_replicate_append (n : Nat) :
    tickRuns count (List.replicate n tick ++ t) = tickRuns (count + n) t := by
  induction n generalizing count with
  | zero =>
      rfl
  | succ n hypothesis =>
      rw [List.replicate_succ, List.cons_append, tickRuns_tick, hypothesis, Nat.add_assoc,
        Nat.add_comm 1]

section Opened

variable {n : Nat} {s : Text} (positive : n ≠ 0) (solid : ∀ c ∈ s.head?, c ≠ tick)
include positive solid

theorem tickRuns_opened : tickRuns 0 (List.replicate n tick ++ s) = n :: tickRuns 0 s := by
  rw [tickRuns_replicate_append, Nat.zero_add, tickRuns_solid solid, runOf, if_neg positive]
  rfl

theorem codeSpan?_opened_eq_none_iff :
    codeSpan? (List.replicate n tick ++ s) = none ↔ n ∉ tickRuns 0 s := by
  have opens := openingRun_replicate_append n solid
  have behind : (List.replicate n tick ++ s).drop n = s := by
    simp
  unfold openingRun at opens
  rw [← runEnd?_eq_none_iff positive, codeSpan?, opens, behind, closingRun?_eq (Nat.le_refl 0)]
  cases runEnd? n 0 s <;> simp

/-- A code span is as long as the run that opens it and what there is up to the end of the run that
closes it. -/
theorem codeSpan?_opened_length_iff {length : Nat} :
    (∃ value, codeSpan? (List.replicate n tick ++ s) = some (value, length)) ↔
      ∃ before after runs, s = before ++ tick :: after ∧ length = n + (before.length + 1) ∧
        (∀ c ∈ after.head?, c ≠ tick) ∧ tickRuns 0 (before ++ [tick]) = runs ++ [n] ∧ n ∉ runs := by
  have opens := openingRun_replicate_append n solid
  have behind : (List.replicate n tick ++ s).drop n = s := by
    simp
  have closes_le {before : Text} {runs : List Nat}
      (last : tickRuns 0 (before ++ [tick]) = runs ++ [n]) : n ≤ before.length + 1 := by
    have member : n ∈ tickRuns 0 (before ++ [tick]) := by
      simp [last]
    simpa using tickRuns_le member
  unfold openingRun at opens
  rw [codeSpan?, opens, behind, closingRun?_eq (Nat.le_refl 0)]
  constructor
  · rintro ⟨value, found⟩
    cases ends : runEnd? n 0 s with
    | none =>
        simp [ends] at found
    | some size =>
        rcases exists_of_runEnd? positive ends with
          ⟨-, same, -⟩ | ⟨before, after, runs, rfl, rfl, solidAfter, last, first⟩
        · exact absurd same.symm positive
        · have reached := closes_le last
          refine ⟨before, after, runs, rfl, ?_, solidAfter, last, first⟩
          simp only [ends, Option.map_some, Option.some.injEq, Prod.mk.injEq] at found
          omega
  · rintro ⟨before, after, runs, rfl, rfl, solidAfter, last, first⟩
    have reached := closes_le last
    rw [runEnd?_of_tickRuns positive last first solidAfter]
    simp only [Option.map_some, Option.some.injEq, Prod.mk.injEq, exists_eq_left']
    omega

end Opened

/-- A text that starts with a backtick starts with a run of them. -/
theorem exists_opened (rest : Text) :
    ∃ n s, n ≠ 0 ∧ tick :: rest = List.replicate n tick ++ s ∧ ∀ c ∈ s.head?, c ≠ tick := by
  obtain ⟨s, same, solid⟩ := exists_openingRun (tick :: rest)
  refine ⟨_, s, ?_, same, solid⟩
  rw [openingRun_tick]
  exact Nat.succ_ne_zero _

/-- There is no code span when no run is as long as the first one. -/
theorem codeSpan?_eq_none_iff (rest : Text) :
    codeSpan? (tick :: rest) = none ↔
      ∃ first runs, tickRuns 0 (tick :: rest) = first :: runs ∧ first ∉ runs := by
  obtain ⟨n, s, positive, same, solid⟩ := exists_opened rest
  rw [same, codeSpan?_opened_eq_none_iff positive solid, tickRuns_opened positive solid]
  constructor
  · intro absent
    exact ⟨n, _, rfl, absent⟩
  · rintro ⟨first, runs, split, absent⟩
    cases split
    exact absent

/-- The text from a backtick up to another one is a code span in front of `after`. -/
def IsCode (inner after : Text) : Prop :=
  ∃ value, codeSpan? (tick :: (inner ++ tick :: after)) = some (value, inner.length + 2)

/-- A code span begins and ends with runs of one length, and no other run in it has this length. -/
theorem isCode_iff {inner after : Text} :
    IsCode inner after ↔ (∀ c ∈ after.head?, c ≠ tick) ∧
      ∃ run runs, tickRuns 0 (tick :: (inner ++ [tick])) = run :: (runs ++ [run]) ∧ run ∉ runs := by
  have starts (before after : Text) :
      (before ++ tick :: after).head? = (before ++ [tick]).head? := by
    cases before <;> rfl
  constructor
  · intro code
    obtain ⟨n, s, positive, same, solid⟩ := exists_opened (inner ++ tick :: after)
    rw [IsCode, same, codeSpan?_opened_length_iff positive solid] at code
    obtain ⟨before, behind, runs, rfl, size, solidBehind, last, first⟩ := code
    have split : (tick :: (inner ++ [tick])) ++ after =
        (List.replicate n tick ++ (before ++ [tick])) ++ behind := by
      simpa using same
    obtain ⟨whole, rfl⟩ := List.append_inj split (by simp; omega)
    rw [starts] at solid
    rw [whole, tickRuns_opened positive solid, last]
    exact ⟨solidBehind, n, runs, rfl, first⟩
  · rintro ⟨solidAfter, run, runs, spelled, first⟩
    obtain ⟨n, s, positive, same, solid⟩ := exists_opened (inner ++ [tick])
    rw [same, tickRuns_opened positive solid] at spelled
    obtain ⟨rfl, last⟩ := List.cons.inj spelled
    obtain ⟨before, rfl⟩ : ∃ before, s = before ++ [tick] := by
      have filled : s ≠ [] := by
        rintro rfl
        simp [tickRuns_nil, runOf] at last
      have ends := List.dropLast_concat_getLast filled
      refine ⟨s.dropLast, ?_⟩
      rw [← ends, ← List.append_assoc, ← List.cons_append] at same
      obtain ⟨-, final⟩ := List.append_inj' same rfl
      rw [← ends, ← final]
      simp
    have split : tick :: (inner ++ tick :: after) =
        List.replicate n tick ++ (before ++ tick :: after) := by
      simpa using congrArg (· ++ after) same
    rw [← starts before after] at solid
    rw [IsCode, split, codeSpan?_opened_length_iff positive solid]
    refine ⟨before, after, runs, rfl, ?_, solidAfter, last, first⟩
    have size := congrArg List.length same
    simp at size
    omega

theorem codeSpan?_cases (rest : Text) :
    codeSpan? (tick :: rest) = none ∨
      ∃ inner after, rest = inner ++ tick :: after ∧ IsCode inner after := by
  cases found : codeSpan? (tick :: rest) with
  | none =>
      exact .inl rfl
  | some span =>
      obtain ⟨value, length⟩ := span
      obtain ⟨n, s, positive, same, solid⟩ := exists_opened rest
      rw [same] at found
      obtain ⟨before, after, runs, rfl, size, -⟩ :=
        (codeSpan?_opened_length_iff positive solid).mp ⟨value, found⟩
      obtain ⟨m, rfl⟩ := Nat.exists_eq_succ_of_ne_zero positive
      rw [List.replicate_succ, List.cons_append] at same
      obtain ⟨-, rfl⟩ := List.cons.inj same
      refine .inr ⟨List.replicate m tick ++ before, after, by simp, value, ?_⟩
      rw [List.append_assoc, ← List.cons_append, ← List.replicate_succ, found, size]
      simp
      omega

theorem whole_code (inner : Text) : Text.Whole (tick :: inner ++ [tick]) :=
  .concat _ (by decide)

theorem whole_take_codeSpan? {rest value : Text} {length : Nat}
    (found : codeSpan? (tick :: rest) = some (value, length)) :
    Text.Whole ((tick :: rest).take length) := by
  rcases codeSpan?_cases rest with absent | ⟨inner, after, rfl, other, code⟩
  · rw [absent] at found
    cases found
  · rw [code] at found
    cases found
    have split : tick :: (inner ++ tick :: after) = (tick :: inner ++ [tick]) ++ after := by
      simp
    rw [split, List.take_left' (by simp)]
    exact whole_code inner

end MdxLocalization.Inline
