import Mathlib.Algebra.Group.Nat.Defs
import Mathlib.Data.List.TakeWhile
import MdxLocalization.Json.Printer
import MdxLocalization.Json.Reader

/-!
# Reading JSON scalars

The reader takes a text from the front and has to find the end of each scalar by itself. A string
ends at its closing quote, because quotes inside are escaped. A number has no mark of its own at the
end; what follows it in a JSON text is white space, a comma, a closing bracket or nothing, and none
of these can continue a number.
-/

namespace MdxLocalization.Json

/-! ### Strings -/

theorem fourHex_hexPadded {n : Nat} (control : n < 32) :
    ∃ a b c d, Text.hexPadded 4 n = [a, b, c, d] ∧ fourHex? a b c d = some n := by
  have table : ∀ n < 32, (Text.hexPadded 4 n).length = 4 ∧
      fourHex? ((Text.hexPadded 4 n).getD 0 ' ') ((Text.hexPadded 4 n).getD 1 ' ')
        ((Text.hexPadded 4 n).getD 2 ' ') ((Text.hexPadded 4 n).getD 3 ' ') = some n := by
    decide
  obtain ⟨size, code⟩ := table n control
  generalize Text.hexPadded 4 n = digits at size code
  match digits, size with
  | [a, b, c, d], _ =>
      exact ⟨a, b, c, d, rfl, code⟩

/-- What the reader makes of the front of a string: the closing quote, a character that stands for
itself, an escape of one letter, or a code that is no half of a pair. The reader looks one character
ahead for the other half, so there has to be one after a code. -/
theorem readString_front (start : Nat) (rest : Text) :
    readString start ('"' :: rest) = .ok ([], rest) ∧
    (∀ c, c ≠ '"' → c ≠ '\\' → ¬ c.toNat < 32 →
      readString start (c :: rest) =
        (readString start rest).map fun (t, rest) => (c :: t, rest)) ∧
    (∀ letter c, letter ≠ 'u' → escaped? letter = some c →
      readString start ('\\' :: letter :: rest) =
        (readString start rest).map fun (t, rest) => (c :: t, rest)) ∧
    ∀ h₁ h₂ h₃ h₄ e code, fourHex? h₁ h₂ h₃ h₄ = some code → code < 0xD800 →
      readString start ('\\' :: 'u' :: h₁ :: h₂ :: h₃ :: h₄ :: e :: rest) =
        (readString start (e :: rest)).map fun (t, rest) => (codeChar code :: t, rest) := by
  refine ⟨?_, ?_, ?_, ?_⟩
  · exact readString.eq_2 start rest
  · intro c noQuote noEscape visible
    rw [readString.eq_7]
    · rw [if_neg visible]
    all_goals simp [noQuote, noEscape]
  · intro letter c noCode stands
    rw [readString.eq_6]
    · simp only [stands]
    all_goals simp [noCode]
  · intro h₁ h₂ h₃ h₄ e code digits low
    have noPair : ¬ 0xD800 ≤ code := Nat.not_le.mpr low
    rw [readString.eq_4]
    simp [digits, noPair]

theorem readString_code {start : Nat} {c e : Char} {rest : Text} (control : c.toNat < 32) :
    readString start ('\\' :: 'u' :: (Text.hexPadded 4 c.toNat ++ e :: rest)) =
      (readString start (e :: rest)).map fun (t, rest) => (c :: t, rest) := by
  obtain ⟨h₁, h₂, h₃, h₄, digits, code⟩ := fourHex_hexPadded control
  have plain : codeChar c.toNat = c := by
    have below : ¬ 0xD800 ≤ c.toNat := by omega
    simp [codeChar, below]
  rw [digits]
  have read := (readString_front start rest).2.2.2 h₁ h₂ h₃ h₄ e c.toNat code (by omega)
  rw [plain] at read
  exact read

/-- However a character is written in a string, it is read back. -/
theorem readString_escapeChar (start : Nat) (c e : Char) (rest : Text) :
    readString start (escapeChar c ++ e :: rest) =
      (readString start (e :: rest)).map fun (t, rest) => (c :: t, rest) := by
  obtain ⟨-, plain, escape, -⟩ := readString_front start (e :: rest)
  unfold escapeChar
  split_ifs with quote backslash lineFeed carriageReturn tab backspace formFeed control
  · subst quote
    exact escape _ _ (by decide) (by decide)
  · subst backslash
    exact escape _ _ (by decide) (by decide)
  · subst lineFeed
    exact escape _ _ (by decide) (by decide)
  · subst carriageReturn
    exact escape _ _ (by decide) (by decide)
  · subst tab
    exact escape _ _ (by decide) (by decide)
  · subst backspace
    exact escape _ _ (by decide) (by decide)
  · subst formFeed
    exact escape _ _ (by decide) (by decide)
  · exact readString_code control
  · exact plain c quote backslash control

theorem readString_written (start : Nat) (t rest : Text) :
    readString start (t.flatMap escapeChar ++ '"' :: rest) = .ok (t, rest) := by
  induction t with
  | nil =>
      exact (readString_front start rest).1
  | cons c t hypothesis =>
      have more : t.flatMap escapeChar ++ '"' :: rest ≠ [] := by simp
      obtain ⟨e, tail, split⟩ := List.exists_cons_of_ne_nil more
      rw [List.flatMap_cons, List.append_assoc, split, readString_escapeChar, ← split, hypothesis]
      rfl

/-! ### Integers -/

/-- What may follow a value: white space, a comma, a closing bracket, or the end of the text. -/
def Closes (rest : Text) : Prop :=
  ∀ c ∈ rest.head?, isSpace c = true ∨ c = ',' ∨ c = ']' ∨ c = '\x7d'

theorem closes_nil : Closes [] := by
  simp [Closes]

theorem closes_cons {c : Char} {rest : Text}
    (mark : isSpace c = true ∨ c = ',' ∨ c = ']' ∨ c = '\x7d') : Closes (c :: rest) := by
  intro d head
  cases head
  exact mark

theorem Closes.not_continues {c : Char} {rest : Text} (closes : Closes (c :: rest)) :
    c.isDigit = false ∧ c ≠ '.' ∧ c ≠ 'e' ∧ c ≠ 'E' := by
  have mark := closes c rfl
  simp only [isSpace, Bool.or_eq_true, beq_iff_eq] at mark
  rcases mark with ((((rfl | rfl) | rfl) | rfl) | rfl | rfl | rfl) <;> decide

theorem takeDigits_append {digits rest : Text} (all : ∀ c ∈ digits, c.isDigit = true)
    (closes : Closes rest) : takeDigits (digits ++ rest) = (digits, rest) := by
  have stop : rest.takeWhile Char.isDigit = [] ∧ rest.dropWhile Char.isDigit = rest := by
    cases rest with
    | nil =>
        exact ⟨rfl, rfl⟩
    | cons c rest =>
        have noDigit := closes.not_continues.1
        simp [noDigit]
  unfold takeDigits
  rw [List.takeWhile_append_of_pos all, List.dropWhile_append_of_pos all, stop.1, stop.2,
    List.append_nil]

theorem takeFraction_of_closes {rest : Text} (closes : Closes rest) :
    takeFraction rest = ([], rest) := by
  cases rest with
  | nil =>
      rfl
  | cons c rest =>
      rw [takeFraction.eq_2]
      intro rest' split
      exact closes.not_continues.2.1 (List.cons.inj split).1

theorem takeExponent_of_closes {rest : Text} (closes : Closes rest) : takeExponent rest = none := by
  cases rest with
  | nil =>
      rfl
  | cons c rest =>
      obtain ⟨-, -, lower, upper⟩ := closes.not_continues
      simp [takeExponent, lower, upper]

theorem natOfDigits_ofNat (n : Nat) : Text.natOfDigits (Text.ofNat n) = n := by
  have value : Nat.ofDigitChars 10 (Nat.toDigits 10 n) 0 = n := Nat.ofDigitChars_ten_toDigits
  rw [Nat.ofDigitChars_eq_foldl] at value
  simp only [Nat.mul_comm 10] at value
  exact value

theorem isDigit_of_mem_ofNat {n : Nat} {c : Char} (member : c ∈ Text.ofNat n) :
    c.isDigit = true :=
  Nat.isDigit_of_mem_toDigits (by decide) (by decide) member

theorem ofNat_leading (n : Nat) :
    ∃ c digits, Text.ofNat n = c :: digits ∧ (c = '0' → digits = []) := by
  induction n using Nat.strongRecOn with
  | ind n hypothesis =>
      by_cases small : n < 10
      · exact ⟨n.digitChar, [], Nat.toDigits_of_lt_base small, fun _ => rfl⟩
      · have split : Text.ofNat n = Text.ofNat (n / 10) ++ [(n % 10).digitChar] :=
          Nat.toDigits_of_base_le (by decide) (by omega)
        obtain ⟨c, digits, shorter, leading⟩ := hypothesis (n / 10) (by omega)
        refine ⟨c, digits ++ [(n % 10).digitChar], by rw [split, shorter]; rfl, ?_⟩
        intro zero
        have value := natOfDigits_ofNat (n / 10)
        rw [shorter, leading zero, zero] at value
        have none : n / 10 = 0 := value.symm
        omega

theorem ofNat_head (n : Nat) :
    ∃ c digits, Text.ofNat n = c :: digits ∧ c.isDigit = true := by
  obtain ⟨c, digits, written, -⟩ := ofNat_leading n
  have member : c ∈ Text.ofNat n := by
    rw [written]
    exact List.mem_cons_self
  exact ⟨c, digits, written, isDigit_of_mem_ofNat member⟩

theorem length_ofNat_le {n limit : Nat} (positive : 0 < limit) (small : n < 10 ^ limit) :
    (Text.ofNat n).length ≤ limit :=
  (Nat.length_toDigits_le_iff (by decide) positive).mpr small

/-- Digits without a needless leading zero are read as the number they write, and with a minus sign
before them as its negative. -/
theorem readNumber_digits {c : Char} {digits rest : Text}
    (all : ∀ d ∈ c :: digits, d.isDigit = true) (leading : c = '0' → digits = [])
    (short : (c :: digits).length ≤ IntegerText.maxDigits) (closes : Closes rest) :
    readNumber (c :: digits ++ rest) = .ok (.integer (Text.natOfDigits (c :: digits)), rest) ∧
      readNumber ('-' :: (c :: digits ++ rest)) =
        .ok (.integer (-(Text.natOfDigits (c :: digits) : Int)), rest) := by
  have taken : takeDigits (c :: (digits ++ rest)) = (c :: digits, rest) :=
    takeDigits_append all closes
  have fits : ¬ IntegerText.maxDigits < digits.length + 1 := Nat.not_lt.mpr short
  have noFraction := takeFraction_of_closes closes
  have noExponent := takeExponent_of_closes closes
  have unsigned : c ≠ '-' := by
    rintro rfl
    exact absurd (all '-' List.mem_cons_self) (by decide)
  by_cases zero : c = '0'
  · have single := leading zero
    subst zero single
    constructor <;> simp [readNumber, noFraction, noExponent] <;> decide
  · constructor <;>
      simp [readNumber, unsigned, zero, taken, noFraction, noExponent, fits]

/-- A written integer is read back, whatever may follow a value. -/
theorem readNumber_written {n : Int} {rest : Text}
    (short : n.natAbs < 10 ^ IntegerText.maxDigits) (closes : Closes rest) :
    readNumber (Text.ofInt n ++ rest) = .ok (.integer n, rest) := by
  have absolute : ∀ k : Nat, k < 10 ^ IntegerText.maxDigits →
      readNumber (Text.ofNat k ++ rest) = .ok (.integer k, rest) ∧
        readNumber ('-' :: (Text.ofNat k ++ rest)) = .ok (.integer (-(k : Int)), rest) := by
    intro k small
    have value := natOfDigits_ofNat k
    have length := length_ofNat_le (by decide) small
    have all : ∀ d ∈ Text.ofNat k, d.isDigit = true := fun d => isDigit_of_mem_ofNat
    obtain ⟨c, digits, written, leading⟩ := ofNat_leading k
    rw [written] at value length all ⊢
    have result := readNumber_digits all leading length closes
    rw [value] at result
    exact result
  cases n with
  | ofNat n =>
      exact (absolute n short).1
  | negSucc n =>
      exact (absolute (n + 1) short).2

theorem readConstant_ofInt (n : Int) (rest : Text) :
    readConstant? (Text.ofInt n ++ rest) = none := by
  have letter : ∀ {c d : Char}, c.isDigit = true → d.isDigit = false → d ≠ c := by
    rintro c d digit none rfl
    rw [digit] at none
    cases none
  cases n with
  | ofNat n =>
      obtain ⟨c, digits, written, digit⟩ := ofNat_head n
      simp [readConstant?, constants, Text.ofInt, written, Text.startsWith, Text.ofString,
        letter digit]
  | negSucc n =>
      obtain ⟨c, digits, written, digit⟩ := ofNat_head (n + 1)
      simp [readConstant?, constants, Text.ofInt, written, Text.startsWith, Text.ofString,
        letter digit]

end MdxLocalization.Json
