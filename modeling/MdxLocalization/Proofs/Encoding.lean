import Mathlib.Data.List.TakeWhile
import MdxLocalization.Text.Utf8

/-!
# Decoding what was encoded

Every text survives encoding and decoding. The bounds on the second byte of a sequence, which keep
out overlong forms and surrogates, are the only part that is not plain arithmetic on the bits of a
code point: they hold because no character is encoded with more bytes than it needs.
-/

namespace MdxLocalization.Utf8

theorem toNat_cases (c : Char) :
    c.toNat < 0xD800 ∨ (0xDFFF < c.toNat ∧ c.toNat < 0x110000) :=
  c.valid

theorem presentBytes_eq {first b : Nat} {more : List Nat} (rest : List Nat)
    (admitted : mayFollow first b = true) (continued : ∀ x ∈ more, isContinuation x = true) :
    presentBytes first (b :: more).length (b :: more ++ rest) = b :: more := by
  have kept : more.takeWhile isContinuation = more := List.takeWhile_eq_self_iff.mpr continued
  unfold presentBytes
  rw [List.take_left]
  simp only [admitted, if_true, kept]

/-- A first byte and the bytes behind it make up the sequence of a code point. -/
structure Carries (first : Nat) (tail : List Nat) (code : Nat) : Prop where
  owes : owed? first = some tail.length
  present : ∀ rest, presentBytes first tail.length (tail ++ rest) = tail
  value : tail.foldl (fun n b => n * 0x40 + (b - 0x80)) (leadBits first) = code

theorem decodeFrom_of_carries {first code : Nat} {tail : List Nat}
    (carries : Carries first tail code) (budget position : Nat) (rest : List Nat) :
    decodeFrom (budget + 1) position (first :: (tail ++ rest)) =
      (decodeFrom budget (position + tail.length + 1) rest).map (Char.ofNat code :: ·) := by
  simp only [decodeFrom, carries.owes, carries.present, if_true, List.drop_left, carries.value]

theorem isContinuation_of_lt {b : Nat} (small : b < 0x40) : isContinuation (0x80 + b) = true := by
  simp only [isContinuation, Bool.and_eq_true, decide_eq_true_eq]
  omega

theorem carries_one {n : Nat} (upper : n < 0x80) : Carries n [] n where
  owes := by simp [owed?, upper]
  present := fun _ => rfl
  value := by simp [leadBits, upper]

theorem carries_two {n : Nat} (lower : 0x80 ≤ n) (upper : n < 0x800) :
    Carries (0xC0 + n / 0x40) [0x80 + n % 0x40] n where
  owes := by
    unfold owed?
    rw [if_neg (by omega), if_pos (by simp only [Bool.and_eq_true, decide_eq_true_eq]; omega)]
    rfl
  present := by
    intro rest
    refine presentBytes_eq rest ?_ (by simp)
    unfold mayFollow
    rw [isContinuation_of_lt (by omega), if_neg (by omega), if_neg (by omega), if_neg (by omega),
      if_neg (by omega)]
    rfl
  value := by
    unfold leadBits
    rw [if_neg (by omega), if_pos (by omega)]
    simp only [List.foldl_cons, List.foldl_nil]
    omega

theorem carries_three {n : Nat} (lower : 0x800 ≤ n) (upper : n < 0x10000)
    (valid : n < 0xD800 ∨ 0xDFFF < n) :
    Carries (0xE0 + n / 0x1000) [0x80 + n / 0x40 % 0x40, 0x80 + n % 0x40] n where
  owes := by
    unfold owed?
    rw [if_neg (by omega), if_neg (by simp only [Bool.and_eq_true, decide_eq_true_eq]; omega),
      if_pos (by simp only [Bool.and_eq_true, decide_eq_true_eq]; omega)]
    rfl
  present := by
    intro rest
    apply presentBytes_eq rest
    · -- The second byte is bounded where the first one is that of the shortest or of the
      -- surrogate sequences.
      unfold mayFollow
      rw [isContinuation_of_lt (by omega), Bool.true_and]
      split
      · simp only [decide_eq_true_eq]
        omega
      · split
        · simp only [decide_eq_true_eq]
          omega
        · rw [if_neg (by omega), if_neg (by omega)]
    · simp only [List.mem_singleton, forall_eq]
      exact isContinuation_of_lt (by omega)
  value := by
    unfold leadBits
    rw [if_neg (by omega), if_neg (by omega), if_pos (by omega)]
    simp only [List.foldl_cons, List.foldl_nil]
    omega

theorem carries_four {n : Nat} (lower : 0x10000 ≤ n) (upper : n < 0x110000) :
    Carries (0xF0 + n / 0x40000)
      [0x80 + n / 0x1000 % 0x40, 0x80 + n / 0x40 % 0x40, 0x80 + n % 0x40] n where
  owes := by
    unfold owed?
    rw [if_neg (by omega), if_neg (by simp only [Bool.and_eq_true, decide_eq_true_eq]; omega),
      if_neg (by simp only [Bool.and_eq_true, decide_eq_true_eq]; omega),
      if_pos (by simp only [Bool.and_eq_true, decide_eq_true_eq]; omega)]
    rfl
  present := by
    intro rest
    apply presentBytes_eq rest
    · -- Here the bounds keep out what is too short and what lies past the last code point.
      unfold mayFollow
      rw [isContinuation_of_lt (by omega), Bool.true_and, if_neg (by omega), if_neg (by omega)]
      split
      · simp only [decide_eq_true_eq]
        omega
      · split
        · simp only [decide_eq_true_eq]
          omega
        · rfl
    · simp only [List.mem_cons, List.not_mem_nil, or_false, forall_eq_or_imp, forall_eq]
      exact ⟨isContinuation_of_lt (by omega), isContinuation_of_lt (by omega)⟩
  value := by
    unfold leadBits
    rw [if_neg (by omega), if_neg (by omega), if_neg (by omega)]
    simp only [List.foldl_cons, List.foldl_nil]
    omega

/-- The bytes of a character are the sequence of its code point. The cases are the four lengths. -/
theorem carries_encodeChar (c : Char) :
    ∃ first tail, encodeChar c = first :: tail ∧ Carries first tail c.toNat := by
  have valid := toNat_cases c
  unfold encodeChar
  by_cases one : c.toNat < 0x80
  · exact ⟨_, _, if_pos one, carries_one one⟩
  by_cases two : c.toNat < 0x800
  · refine ⟨_, _, ?_, carries_two (by omega) two⟩
    rw [if_neg one, if_pos two]
  by_cases three : c.toNat < 0x10000
  · refine ⟨_, _, ?_, carries_three (by omega) three (by omega)⟩
    rw [if_neg one, if_neg two, if_pos three]
  · refine ⟨_, _, ?_, carries_four (by omega) (by omega)⟩
    rw [if_neg one, if_neg two, if_neg three]

/-- A budget of as many characters as there are bytes is enough. -/
theorem decodeFrom_encode (t : Text) (budget position : Nat)
    (enough : (encode t).length ≤ budget) : decodeFrom budget position (encode t) = .ok t := by
  induction t generalizing budget position with
  | nil =>
      cases budget <;> rfl
  | cons c rest ih =>
      obtain ⟨first, tail, bytes, carries⟩ := carries_encodeChar c
      have split : encode (c :: rest) = first :: (tail ++ encode rest) := by
        rw [encode, List.flatMap_cons, bytes]
        rfl
      rw [split, List.length_cons, List.length_append] at enough
      cases budget with
      | zero =>
          omega
      | succ budget =>
          rw [split, decodeFrom_of_carries carries, ih budget _ (by omega), Char.ofNat_toNat]
          rfl

/-- Decoding undoes encoding. -/
theorem decode_encode (t : Text) : decode (encode t) = .ok t :=
  decodeFrom_encode t _ 0 (Nat.le_refl _)

theorem encode_injective {t t' : Text} (same : encode t = encode t') : t = t' := by
  have decoded := congrArg decode same
  rw [decode_encode, decode_encode] at decoded
  exact Except.ok.inj decoded

end MdxLocalization.Utf8
