import MdxLocalization.Proofs.LinkSpelling

/-!
# Respelled labels

Where a label ends is told by its brackets, its escapes and its code spans. Other characters may be
exchanged, left out or added as long as no two runs of backticks meet: `Respells` is the relation of
two texts that differ in this way, and a respelled label is a label.

A code span may end at a run of backticks behind the label, in a text in which the label stands, so
what stands behind a respelled label must not bring runs of new lengths.
-/

namespace MdxLocalization.Inline

/-- Neither a square bracket nor a part of an escape or of a code span. -/
def Filler (c : Char) : Prop := c ∉ ['\\', '[', ']', tick]

theorem Filler.noTick {c : Char} (filler : Filler c) : c ≠ tick := by
  rintro rfl
  exact filler (by simp)

/-- The second text is the first one with other fillers outside of escapes, none of which is left
out or added directly in front of a backtick, and with backslashes in front of double quotes. -/
inductive Respells : Text → Text → Prop where
  | nil : Respells [] []
  | char {c : Char} {t other : Text} (plain : c ≠ '\\') (later : Respells t other) :
      Respells (c :: t) (c :: other)
  | escape (c : Char) {t other : Text} (later : Respells t other) :
      Respells ('\\' :: c :: t) ('\\' :: c :: other)
  | quote {t other : Text} (later : Respells t other) : Respells ('"' :: t) ('\\' :: '"' :: other)
  | exchange {c d : Char} {t other : Text} (filler : Filler c) (instead : Filler d)
      (later : Respells t other) : Respells (c :: t) (d :: other)
  | leaveOut {c d : Char} {t other : Text} (filler : Filler c) (apart : d ≠ tick)
      (later : Respells t (d :: other)) : Respells (c :: t) (d :: other)
  | add {c d : Char} {t other : Text} (filler : Filler d) (apart : c ≠ tick)
      (later : Respells (c :: t) other) : Respells (c :: t) (d :: other)

variable {t other : Text} {run count : Nat}

namespace Respells

theorem append {u v : Text} (first : Respells t other) (second : Respells u v) :
    Respells (t ++ u) (other ++ v) := by
  induction first with
  | nil =>
      exact second
  | char plain later hypothesis =>
      exact .char plain hypothesis
  | escape c later hypothesis =>
      exact .escape c hypothesis
  | quote later hypothesis =>
      exact .quote hypothesis
  | exchange filler instead later hypothesis =>
      exact .exchange filler instead hypothesis
  | leaveOut filler apart later hypothesis =>
      exact .leaveOut filler apart hypothesis
  | add filler apart later hypothesis =>
      exact .add filler apart hypothesis

theorem refl (whole : t.Whole) : Respells t t := by
  induction whole with
  | nil =>
      exact .nil
  | escape c later hypothesis =>
      exact .escape c hypothesis
  | char plain later hypothesis =>
      exact .char plain hypothesis

/-- Fillings of one or more characters give way to one character, even in front of a backtick. -/
theorem exchangeAll {d : Char} (piece : Text) (filled : piece ≠ [])
    (fillers : ∀ c ∈ piece, Filler c) (instead : Filler d) (later : Respells t other) : Respells (piece ++ t) (d :: other) := by
  induction piece with
  | nil =>
      exact absurd rfl filled
  | cons c piece hypothesis =>
      obtain ⟨filler, fillers⟩ := List.forall_mem_cons.mp fillers
      by_cases last : piece = []
      · rw [last]
        exact .exchange filler instead later
      · exact .leaveOut filler instead.noTick (hypothesis last fillers)

theorem exchangeAllByTwo {d e : Char} (piece : Text) (filled : piece ≠ [])
    (fillers : ∀ c ∈ piece, Filler c) (first : Filler d) (second : Filler e)
    (later : Respells t other) : Respells (piece ++ t) (d :: e :: other) := by
  have exchanged := exchangeAll piece filled fillers second later
  obtain ⟨c, rest, rfl⟩ := List.exists_cons_of_ne_nil filled
  exact .add first (fillers c List.mem_cons_self).noTick exchanged

/-! ### Runs of backticks -/

theorem to_tick {behind : Text} (respelled : Respells t (tick :: behind)) :
    ∃ rest, t = tick :: rest ∧ Respells rest behind := by
  generalize same : tick :: behind = other at respelled
  cases respelled with
  | nil =>
      cases same
  | char plain later =>
      cases same
      exact ⟨_, rfl, later⟩
  | escape c later =>
      cases same
  | quote later =>
      cases same
  | exchange filler instead later =>
      exact absurd (List.cons.inj same).1.symm instead.noTick
  | leaveOut filler apart later =>
      exact absurd (List.cons.inj same).1.symm apart
  | add filler apart later =>
      exact absurd (List.cons.inj same).1.symm filler.noTick

theorem solid (respelled : Respells t other) (starts : ∀ c ∈ t.head?, c ≠ tick) :
    ∀ c ∈ other.head?, c ≠ tick := by
  rintro c first rfl
  obtain ⟨behind, rfl⟩ := List.head?_eq_some_iff.mp first
  obtain ⟨rest, rfl, -⟩ := respelled.to_tick
  exact starts tick rfl rfl

/-- The runs of a respelled text have the same lengths. -/
theorem tickRuns_eq (respelled : Respells t other) (count : Nat) :
    tickRuns count other = tickRuns count t := by
  have cons_congr (c : Char) {count : Nat} {t other : Text}
      (later : ∀ count, tickRuns count other = tickRuns count t) :
      tickRuns count (c :: other) = tickRuns count (c :: t) := by
    rw [tickRuns_cons, tickRuns_cons, later, later]
  have starting {c : Char} (noTick : c ≠ tick) (rest : Text) :
      tickRuns 0 rest = tickRuns 0 (c :: rest) := by
    rw [tickRuns_char noTick]
    rfl
  induction respelled generalizing count with
  | nil =>
      rfl
  | char plain later hypothesis =>
      exact cons_congr _ hypothesis
  | escape c later hypothesis =>
      exact cons_congr _ fun _ => cons_congr _ hypothesis
  | quote later hypothesis =>
      have noTick : '\\' ≠ tick ∧ '"' ≠ tick := by
        decide
      rw [tickRuns_char noTick.1, ← starting noTick.2, tickRuns_char noTick.2, hypothesis]
  | exchange filler instead later hypothesis =>
      rw [tickRuns_char filler.noTick, tickRuns_char instead.noTick, hypothesis]
  | leaveOut filler apart later hypothesis =>
      rw [tickRuns_char filler.noTick, tickRuns_char apart, starting apart, hypothesis]
  | add filler apart later hypothesis =>
      rw [tickRuns_char filler.noTick, tickRuns_char apart, hypothesis, ← starting apart]

/-- A respelled text can be cut behind a backtick where the first one can. -/
theorem split {before after : Text} (respelled : Respells (before ++ tick :: after) other) :
    ∃ front behind, other = front ++ tick :: behind ∧
      Respells (before ++ [tick]) (front ++ [tick]) ∧ Respells after behind := by
  generalize same : before ++ tick :: after = t at respelled
  induction respelled generalizing before with
  | nil =>
      simp at same
  | @char c t other plain later hypothesis =>
      cases before with
      | nil =>
          obtain ⟨rfl, rfl⟩ := List.cons.inj same
          exact ⟨[], other, rfl, .char plain .nil, later⟩
      | cons d before =>
          obtain ⟨rfl, inner⟩ := List.cons.inj same
          obtain ⟨front, behind, rfl, first, second⟩ := hypothesis inner
          exact ⟨d :: front, behind, rfl, .char plain first, second⟩
  | @escape c t other later hypothesis =>
      match before with
      | [] =>
          cases same
      | [d] =>
          obtain ⟨rfl, inner⟩ := List.cons.inj same
          obtain ⟨rfl, rfl⟩ := List.cons.inj inner
          exact ⟨['\\'], other, rfl, .escape tick .nil, later⟩
      | d :: e :: before =>
          obtain ⟨rfl, inner⟩ := List.cons.inj same
          obtain ⟨rfl, deeper⟩ := List.cons.inj inner
          obtain ⟨front, behind, rfl, first, second⟩ := hypothesis deeper
          exact ⟨'\\' :: e :: front, behind, rfl, .escape e first, second⟩
  | quote later hypothesis =>
      cases before with
      | nil =>
          cases same
      | cons d before =>
          obtain ⟨rfl, inner⟩ := List.cons.inj same
          obtain ⟨front, behind, rfl, first, second⟩ := hypothesis inner
          exact ⟨'\\' :: '"' :: front, behind, rfl, .quote first, second⟩
  | @exchange c e t other filler instead later hypothesis =>
      cases before with
      | nil =>
          exact absurd (List.cons.inj same).1.symm filler.noTick
      | cons d before =>
          obtain ⟨rfl, inner⟩ := List.cons.inj same
          obtain ⟨front, behind, rfl, first, second⟩ := hypothesis inner
          exact ⟨e :: front, behind, rfl, .exchange filler instead first, second⟩
  | @leaveOut c e t other filler apart later hypothesis =>
      cases before with
      | nil =>
          exact absurd (List.cons.inj same).1.symm filler.noTick
      | cons d before =>
          obtain ⟨rfl, inner⟩ := List.cons.inj same
          obtain ⟨front, behind, split, first, second⟩ := hypothesis inner
          cases front with
          | nil =>
              exact absurd (List.cons.inj split).1 apart
          | cons f front =>
              obtain ⟨rfl, rfl⟩ := List.cons.inj split
              exact ⟨e :: front, behind, rfl, .leaveOut filler apart first, second⟩
  | @add c e t other filler apart later hypothesis =>
      obtain ⟨front, behind, rfl, first, second⟩ := hypothesis same
      cases before with
      | nil =>
          exact absurd (List.cons.inj same).1.symm apart
      | cons d before =>
          obtain ⟨rfl, -⟩ := List.cons.inj same
          exact ⟨e :: front, behind, rfl, .add filler apart first, second⟩

end Respells

/-! ### Labels -/

section Labels

variable {depth : Nat} {label behind : Text}

theorem isLabel_nil : IsLabel depth [] behind ↔ depth = 1 := by
  rw [IsLabel, List.nil_append, labelStop?_close]
  split
  · rename_i last
    simp [last]
  · rename_i inner
    rw [labelStop?_eq_map]
    simp [inner]

theorem isLabel_append (piece : Text) {inner : Nat}
    (passes : labelStop? depth 0 (piece ++ (label ++ ']' :: behind)) =
      labelStop? inner piece.length (label ++ ']' :: behind)) :
    IsLabel depth (piece ++ label) behind ↔ IsLabel inner label behind := by
  rw [IsLabel, IsLabel, List.append_assoc, passes, labelStop?_eq_map, List.length_append,
    Nat.add_comm piece.length]
  constructor
  · intro found
    obtain ⟨stop, read, same⟩ := Option.map_eq_some_iff.mp found
    rw [read, Nat.add_right_cancel same]
  · intro found
    rw [found]
    rfl

theorem isLabel_escape (c : Char) :
    IsLabel depth ('\\' :: c :: label) behind ↔ IsLabel depth label behind := by
  refine isLabel_append ['\\', c] ?_
  exact labelStop?_escape c

theorem isLabel_open : IsLabel depth ('[' :: label) behind ↔ IsLabel (depth + 1) label behind := by
  refine isLabel_append ['['] ?_
  exact labelStop?_open

theorem isLabel_close :
    IsLabel depth (']' :: label) behind ↔ depth ≠ 1 ∧ IsLabel (depth - 1) label behind := by
  by_cases last : depth = 1
  · subst last
    simp [IsLabel, labelStop?_close]
  · rw [and_iff_right last]
    refine isLabel_append [']'] ?_
    exact labelStop?_close.trans (if_neg last)

theorem isLabel_tick (absent : codeSpan? (tick :: (label ++ ']' :: behind)) = none) :
    IsLabel depth (tick :: label) behind ↔ IsLabel depth label behind := by
  refine isLabel_append [tick] ?_
  exact labelStop?_tick absent

theorem isLabel_filler {c : Char} (filler : Filler c) :
    IsLabel depth (c :: label) behind ↔ IsLabel depth label behind := by
  refine isLabel_append [c] ?_
  exact labelStop?_char filler

theorem isLabel_code {inner after : Text} (code : IsCode inner (after ++ ']' :: behind)) :
    IsLabel depth (tick :: (inner ++ tick :: after)) behind ↔ IsLabel depth after behind := by
  have passes := @labelStop?_code depth 0 _ _ code
  have shape : tick :: (inner ++ tick :: after) = (tick :: inner ++ [tick]) ++ after := by
    simp
  rw [shape]
  refine isLabel_append _ ?_
  simpa using passes

/-- A code span that begins in a label ends in it. -/
theorem IsLabel.code_inside (isLabel : IsLabel depth (tick :: label) behind) {inner rest : Text}
    (split : label ++ ']' :: behind = inner ++ tick :: rest) (code : IsCode inner rest) :
    ∃ after, label = inner ++ tick :: after ∧ rest = after ++ ']' :: behind := by
  rw [IsLabel, List.cons_append, split, labelStop?_code code, labelStop?_eq_map] at isLabel
  obtain ⟨stop, -, size⟩ := Option.map_eq_some_iff.mp isLabel
  have split' : label ++ ']' :: behind = (inner ++ [tick]) ++ rest := by
    simpa using split
  obtain ⟨after, same⟩ : ∃ after, label = inner ++ [tick] ++ after := by
    have inside : (inner ++ [tick]).length ≤ label.length := by
      simp at size ⊢
      omega
    exact (List.prefix_of_prefix_length_le ⟨rest, split'.symm⟩ ⟨']' :: behind, rfl⟩ inside).imp
      fun _ => Eq.symm
  rw [same, List.append_assoc] at split'
  exact ⟨after, by simpa using same, (List.append_cancel_left split').symm⟩

theorem IsCode.respelled {inner after front rest instead : Text}
    (code : IsCode inner (after ++ ']' :: behind))
    (first : Respells (inner ++ [tick]) (front ++ [tick])) (second : Respells after rest) :
    IsCode front (rest ++ ']' :: instead) := by
  have starts {t behind : Text} :
      (∀ c ∈ (t ++ ']' :: behind).head?, c ≠ tick) ↔ ∀ c ∈ t.head?, c ≠ tick := by
    cases t with
    | nil =>
        simp
        decide
    | cons c t =>
        rfl
  rw [isCode_iff, starts] at code ⊢
  obtain ⟨solid, run, runs, spelled, absent⟩ := code
  have spelledAlike : Respells (tick :: (inner ++ [tick])) (tick :: (front ++ [tick])) :=
    .char (by decide) first
  exact ⟨second.solid solid, run, runs, (spelledAlike.tickRuns_eq 0).trans spelled, absent⟩

theorem codeSpan?_eq_none_of_respells {rest instead : Text} (respelled : Respells label rest)
    (fewer : ∀ run ∈ tickRuns 0 instead, run ∈ tickRuns 0 behind)
    (absent : codeSpan? (tick :: (label ++ ']' :: behind)) = none) :
    codeSpan? (tick :: (rest ++ ']' :: instead)) = none := by
  have noTick : ']' ≠ tick := by
    decide
  obtain ⟨n, s, positive, opened, solid⟩ := exists_opened label
  have spelled := tickRuns_opened positive solid
  have spelledAlike : Respells (tick :: label) (tick :: rest) := .char (by decide) respelled
  rw [codeSpan?_eq_none_iff, ← List.cons_append, tickRuns_append noTick] at absent ⊢
  rw [spelledAlike.tickRuns_eq]
  rw [opened, spelled, List.cons_append] at absent ⊢
  obtain ⟨first, runs, split, unmatched⟩ := absent
  obtain ⟨rfl, rfl⟩ := List.cons.inj split
  refine ⟨n, _, rfl, ?_⟩
  rw [List.mem_append, not_or] at unmatched ⊢
  exact ⟨unmatched.1, fun member => unmatched.2 (fewer n member)⟩

/-- A respelled label is a label, in front of a text whose runs of backticks have the lengths of
runs that stood behind the label before. -/
theorem IsLabel.respelled {instead : Text} (isLabel : IsLabel depth label behind)
    (respelled : Respells label other)
    (fewer : ∀ run ∈ tickRuns 0 instead, run ∈ tickRuns 0 behind) :
    IsLabel depth other instead := by
  induction size : label.length + other.length using Nat.strongRecOn
    generalizing depth label other with
  | ind n hypothesis =>
      subst size
      cases respelled with
      | nil =>
          rw [isLabel_nil] at isLabel ⊢
          exact isLabel
      | @char c t rest plain later =>
          have inner {depth : Nat} (isLabel : IsLabel depth t behind) :
              IsLabel depth rest instead :=
            hypothesis _ (by simp only [List.length_cons]; omega) isLabel later rfl
          by_cases opens : c = '['
          · subst opens
            rw [isLabel_open] at isLabel ⊢
            exact inner isLabel
          by_cases closes : c = ']'
          · subst closes
            rw [isLabel_close] at isLabel ⊢
            exact ⟨isLabel.1, inner isLabel.2⟩
          by_cases ticks : c = tick
          · subst ticks
            rcases codeSpan?_cases (t ++ ']' :: behind) with absent | ⟨code, after, split, found⟩
            · rw [isLabel_tick absent] at isLabel
              rw [isLabel_tick (codeSpan?_eq_none_of_respells later fewer absent)]
              exact inner isLabel
            · obtain ⟨after, rfl, rfl⟩ := isLabel.code_inside split found
              obtain ⟨front, back, rfl, first, second⟩ := later.split
              rw [isLabel_code found] at isLabel
              rw [isLabel_code (found.respelled first second)]
              refine hypothesis _ ?_ isLabel second rfl
              simp only [List.length_cons, List.length_append]
              omega
          · have filler : Filler c := by
              simp [Filler, plain, opens, closes, ticks]
            rw [isLabel_filler filler] at isLabel ⊢
            exact inner isLabel
      | escape c later =>
          rw [isLabel_escape] at isLabel ⊢
          exact hypothesis _ (by simp only [List.length_cons]; omega) isLabel later rfl
      | quote later =>
          have filler : Filler '"' := by
            simp [Filler, tick]
          rw [isLabel_filler filler] at isLabel
          rw [isLabel_escape]
          exact hypothesis _ (by simp only [List.length_cons]; omega) isLabel later rfl
      | exchange filler instead later =>
          rw [isLabel_filler filler] at isLabel
          rw [isLabel_filler instead]
          exact hypothesis _ (by simp only [List.length_cons]; omega) isLabel later rfl
      | leaveOut filler apart later =>
          rw [isLabel_filler filler] at isLabel
          exact hypothesis _ (by simp only [List.length_cons]; omega) isLabel later rfl
      | add filler apart later =>
          rw [isLabel_filler filler]
          exact hypothesis _ (by simp only [List.length_cons]; omega) isLabel later rfl

end Labels

end MdxLocalization.Inline
