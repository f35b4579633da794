import Mathlib.Data.List.Basic
import MdxLocalization.Text.Basic

/-!
# Pieces of a text

What cutting a text at a character gives: at least one piece, pieces that joined are the text again,
a text without that character as its only piece, and no piece with that character in it.
-/

namespace MdxLocalization.Text

variable {separator : Char} {t line : Text}

theorem splitOn_nil (separator : Char) : splitOn separator [] = [[]] := rfl

theorem splitOn_cons (separator c : Char) (t : Text) :
    splitOn separator (c :: t) =
      if c = separator then [] :: splitOn separator t
      else
        match splitOn separator t with
        | piece :: pieces => (c :: piece) :: pieces
        | [] => [[c]] := rfl

theorem splitOn_ne_nil (separator : Char) (t : Text) : splitOn separator t ≠ [] := by
  cases t with
  | nil =>
      simp [splitOn_nil]
  | cons c t =>
      rw [splitOn_cons]
      split
      · simp
      · split <;> simp

theorem join_cons_cons (between t next : Text) (rest : List Text) :
    join between (t :: next :: rest) = t ++ between ++ join between (next :: rest) := rfl

theorem join_splitOn (separator : Char) (t : Text) :
    join [separator] (splitOn separator t) = t := by
  induction t with
  | nil =>
      rfl
  | cons c rest hypothesis =>
      rw [splitOn_cons]
      cases split : splitOn separator rest with
      | nil =>
          exact absurd split (splitOn_ne_nil separator rest)
      | cons first pieces =>
          rw [split] at hypothesis
          split
          · rename_i same
            rw [join_cons_cons, hypothesis, same]
            rfl
          · rw [← hypothesis]
            cases pieces with
            | nil =>
                rfl
            | cons next others =>
                rw [join_cons_cons, join_cons_cons, List.cons_append, List.cons_append]

theorem splitOn_of_not_mem (absent : separator ∉ t) : splitOn separator t = [t] := by
  induction t with
  | nil =>
      rfl
  | cons c t hypothesis =>
      rw [splitOn_cons, if_neg (List.ne_of_not_mem_cons absent).symm,
        hypothesis (List.not_mem_of_not_mem_cons absent)]

theorem splitOn_append (absent : separator ∉ line) (rest : Text) :
    splitOn separator (line ++ separator :: rest) = line :: splitOn separator rest := by
  induction line with
  | nil =>
      rw [List.nil_append, splitOn_cons, if_pos rfl]
  | cons c line hypothesis =>
      rw [List.cons_append, splitOn_cons, if_neg (List.ne_of_not_mem_cons absent).symm,
        hypothesis (List.not_mem_of_not_mem_cons absent)]

theorem splitOn_append_of_eq {piece : Text} {pieces : List Text} (absent : separator ∉ line)
    (cut : splitOn separator t = piece :: pieces) :
    splitOn separator (line ++ t) = (line ++ piece) :: pieces := by
  induction line with
  | nil =>
      exact cut
  | cons c line hypothesis =>
      rw [List.cons_append, splitOn_cons, if_neg (List.ne_of_not_mem_cons absent).symm,
        hypothesis (List.not_mem_of_not_mem_cons absent)]
      rfl

theorem takeWhile_append_of_not_mem (absent : separator ∉ line) (t : Text) :
    (line ++ t).takeWhile (· != separator) = line ++ t.takeWhile (· != separator) :=
  List.takeWhile_append_of_pos fun _ member => bne_iff_ne.mpr fun same => absent (same ▸ member)

/-- The first piece of a text is what stands before the first separator. -/
theorem exists_splitOn_eq (separator : Char) (t : Text) :
    ∃ pieces, splitOn separator t = t.takeWhile (· != separator) :: pieces := by
  by_cases member : separator ∈ t
  · obtain ⟨before, behind, rfl, absent⟩ := List.eq_append_cons_of_mem member
    refine ⟨splitOn separator behind, ?_⟩
    rw [splitOn_append absent, takeWhile_append_of_not_mem absent,
      List.takeWhile_cons_of_neg (by simp), List.append_nil]
  · refine ⟨[], ?_⟩
    have whole := takeWhile_append_of_not_mem member []
    rw [List.takeWhile_nil, List.append_nil] at whole
    rw [splitOn_of_not_mem member, whole]

theorem not_mem_of_mem_splitOn {piece : Text} (member : piece ∈ splitOn separator t) :
    separator ∉ piece := by
  induction t generalizing piece with
  | nil =>
      rw [List.mem_singleton.mp member]
      exact List.not_mem_nil
  | cons c t hypothesis =>
      rw [splitOn_cons] at member
      split at member
      · rcases List.mem_cons.mp member with rfl | later
        · exact List.not_mem_nil
        · exact hypothesis later
      · rename_i other
        split at member
        · rename_i first pieces cut
          rcases List.mem_cons.mp member with rfl | later
          · rw [List.mem_cons, not_or]
            exact ⟨Ne.symm other, hypothesis (cut ▸ List.mem_cons_self)⟩
          · exact hypothesis (cut ▸ List.mem_cons_of_mem _ later)
        · rw [List.mem_singleton.mp member, List.mem_singleton]
          exact Ne.symm other

/-- The characters of a text are the separators and the characters of its pieces. -/
theorem mem_iff_mem_splitOn {c : Char} (other : c ≠ separator) :
    c ∈ t ↔ ∃ piece ∈ splitOn separator t, c ∈ piece := by
  induction t with
  | nil =>
      simp [splitOn_nil]
  | cons d t hypothesis =>
      rw [splitOn_cons, List.mem_cons, hypothesis]
      split
      · rename_i same
        simp [same, other]
      · split
        · rename_i first pieces cut
          simp [cut, or_assoc]
        · rename_i empty
          exact absurd empty (splitOn_ne_nil separator t)

end MdxLocalization.Text
