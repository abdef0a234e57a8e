import Mathlib.Data.Nat.Digits.Defs
import Mathlib.Data.List.TakeWhile
import Mathlib.Tactic.Ring

/-!
Integers as text. A text denotes an integer when it is blanks, an optional sign, decimal
digits and blanks. The C conversions read only its longest beginning that is an integer.
-/

namespace AqMD3.NumberText

variable {text rest : List Char} {value : Int}

/-- The blanks of the C locale: tab, line feed, vertical tab, form feed, return and space. -/
def isspace (symbol : Char) : Bool :=
  symbol.toNat = 32 || (9 ≤ symbol.toNat && symbol.toNat ≤ 13)

def digitValue (symbol : Char) : Nat := symbol.toNat - 48

/-- Digits as a number, the last one counting least. -/
def numeral (digits : List Char) : Nat := Nat.ofDigits 10 (digits.map digitValue).reverse

/-- What stands before the digits, and the factor it gives them. -/
def signs : List (List Char × Int) := [([], 1), (['+'], 1), (['-'], -1)]

/-- The whole text is the numeral of an integer, with blanks around it at most. -/
def Denotes (text : List Char) (value : Int) : Prop :=
  ∃ before sign digits after factor,
    text = before ++ (sign ++ (digits ++ after)) ∧ (sign, factor) ∈ signs ∧
    (∀ symbol ∈ before, isspace symbol) ∧ (∀ symbol ∈ after, isspace symbol) ∧
    digits ≠ [] ∧ (∀ symbol ∈ digits, symbol.isDigit) ∧
    value = factor * numeral digits

def digitsPrefix (text : List Char) : Option (Nat × List Char) :=
  match text.takeWhile Char.isDigit with
  | [] => none
  | digits =>
      some (digits.foldl (fun sum symbol => 10 * sum + digitValue symbol) 0,
        text.dropWhile Char.isDigit)

/-- The factor the sign gives, and what follows the sign. -/
def signPrefix (text : List Char) : Int × List Char :=
  if text.head? = some '-' then (-1, text.tail)
  else if text.head? = some '+' then (1, text.tail)
  else (1, text)

/-- The longest beginning that is an integer, as `strtol` takes it, and what follows it. -/
def integerPrefix (text : List Char) : Option (Int × List Char) :=
  let signed := signPrefix (text.dropWhile isspace)
  (digitsPrefix signed.2).map fun found => (signed.1 * found.1, found.2)

theorem digit_not_blank (symbol : Char) (digit : symbol.isDigit = true) :
    isspace symbol = false := by
  simp only [Char.isDigit, Bool.and_eq_true, decide_eq_true_eq, UInt32.le_iff_toNat_le] at digit
  have code : 48 ≤ symbol.toNat := digit.1
  simp only [isspace, Bool.or_eq_false_iff, decide_eq_false_iff_not, Bool.and_eq_false_iff]
  omega

theorem fold_digits (digits : List Nat) (sum : Nat) :
    digits.foldl (fun sum digit => 10 * sum + digit) sum =
      sum * 10 ^ digits.length + Nat.ofDigits 10 digits.reverse := by
  induction digits generalizing sum with
  | nil => simp
  | cons digit digits ih =>
      rw [List.foldl_cons, ih, Nat.ofDigits_reverse_cons, List.length_cons, pow_succ']
      ring

section Runs

variable {inClass : Char → Bool} {body : List Char}

theorem run_exact (inside : ∀ symbol ∈ body, inClass symbol)
    (boundary : ∀ symbol, rest.head? = some symbol → inClass symbol = false) :
    (body ++ rest).takeWhile inClass = body ∧ (body ++ rest).dropWhile inClass = rest := by
  rw [List.takeWhile_append_of_pos inside, List.dropWhile_append_of_pos inside]
  cases rest with
  | nil => exact ⟨List.append_nil body, rfl⟩
  | cons symbol rest =>
      have outside := boundary symbol rfl
      constructor
      · rw [List.takeWhile_cons_of_neg (by simp [outside]), List.append_nil]
      · rw [List.dropWhile_cons_of_neg (by simp [outside])]

theorem run_boundary (inClass : Char → Bool) (text : List Char) (symbol : Char)
    (head : (text.dropWhile inClass).head? = some symbol) : inClass symbol = false := by
  have outside := List.head?_dropWhile_not inClass text
  rwa [head] at outside

end Runs

theorem digitsPrefix_digits {digits : List Char} (present : digits ≠ [])
    (allDigits : ∀ symbol ∈ digits, symbol.isDigit)
    (boundary : ∀ symbol, rest.head? = some symbol → symbol.isDigit = false) :
    digitsPrefix (digits ++ rest) =
      some (numeral digits, rest) := by
  obtain ⟨taken, left⟩ := run_exact allDigits boundary
  have sum := fold_digits (digits.map digitValue) 0
  rw [List.foldl_map, Nat.zero_mul, Nat.zero_add] at sum
  rw [digitsPrefix, taken, left]
  cases digits with
  | nil => exact absurd rfl present
  | cons symbol digits => simp only [sum, numeral]

theorem digitsPrefix_taken {number : Nat} (taken : digitsPrefix text = some (number, rest)) :
    ∃ digits, text = digits ++ rest ∧ digits ≠ [] ∧ (∀ symbol ∈ digits, symbol.isDigit) ∧
      number = numeral digits := by
  have whole := List.takeWhile_append_dropWhile (p := Char.isDigit) (l := text)
  have allDigits : ∀ symbol ∈ text.takeWhile Char.isDigit, symbol.isDigit := by
    intro symbol member
    exact List.mem_takeWhile_imp member
  have present : text.takeWhile Char.isDigit ≠ [] := by
    intro empty
    rw [digitsPrefix, empty] at taken
    cases taken
  have again := digitsPrefix_digits present allDigits (run_boundary Char.isDigit text)
  rw [whole, taken, Option.some.injEq, Prod.mk.injEq] at again
  refine ⟨text.takeWhile Char.isDigit, ?_, present, allDigits, again.1⟩
  rw [again.2, whole]

theorem mem_signs {sign : List Char} {factor : Int} : (sign, factor) ∈ signs ↔
    sign = [] ∧ factor = 1 ∨ sign = ['+'] ∧ factor = 1 ∨ sign = ['-'] ∧ factor = -1 := by
  simp [signs]

theorem signPrefix_taken (text : List Char) :
    ∃ sign, text = sign ++ (signPrefix text).2 ∧ (sign, (signPrefix text).1) ∈ signs := by
  unfold signPrefix
  cases text with
  | nil => exact ⟨[], rfl, by decide⟩
  | cons first rest =>
      by_cases minus : first = '-'
      · exact ⟨['-'], by simp [minus], by simp [minus, signs]⟩
      · by_cases plus : first = '+'
        · exact ⟨['+'], by simp [plus], by simp [plus, signs]⟩
        · exact ⟨[], by simp [minus, plus], by simp [minus, plus, signs]⟩

section Signed

variable {first : Char} {sign : List Char} {factor : Int} (digit : first.isDigit = true)
  (signed : (sign, factor) ∈ signs)
include digit signed

theorem signPrefix_signed :
    signPrefix (sign ++ first :: rest) = (factor, first :: rest) := by
  obtain ⟨rfl, rfl⟩ | ⟨rfl, rfl⟩ | ⟨rfl, rfl⟩ := mem_signs.mp signed
  · have notMinus : first ≠ '-' := by
      rintro rfl
      exact absurd digit (by decide)
    have notPlus : first ≠ '+' := by
      rintro rfl
      exact absurd digit (by decide)
    simp [signPrefix, notMinus, notPlus]
  · rfl
  · rfl

theorem signed_not_blank (symbol : Char)
    (head : (sign ++ first :: rest).head? = some symbol) : isspace symbol = false := by
  obtain ⟨rfl, -⟩ | ⟨rfl, -⟩ | ⟨rfl, -⟩ := mem_signs.mp signed
  · rw [← Option.some.inj head]
    exact digit_not_blank first digit
  · rw [← Option.some.inj head]
    rfl
  · rw [← Option.some.inj head]
    rfl

end Signed

theorem denotes_prefix (denoted : Denotes text value) :
    ∃ rest, integerPrefix text = some (value, rest) ∧ ∀ symbol ∈ rest, isspace symbol := by
  obtain ⟨before, sign, digits, after, factor, rfl, signed, blanksBefore, blanksAfter,
    present, allDigits, rfl⟩ := denoted
  have boundary : ∀ symbol, after.head? = some symbol → symbol.isDigit = false := by
    intro symbol head
    have blank := blanksAfter symbol (List.mem_of_head? head)
    by_contra digit
    rw [digit_not_blank symbol (by simpa using digit)] at blank
    cases blank
  have taken := digitsPrefix_digits present allDigits boundary
  obtain ⟨first, others, rfl⟩ := List.exists_cons_of_ne_nil present
  have digit : first.isDigit = true := allDigits first List.mem_cons_self
  rw [List.cons_append] at taken ⊢
  obtain ⟨-, body⟩ := run_exact blanksBefore (signed_not_blank digit signed)
  refine ⟨after, ?_, blanksAfter⟩
  rw [integerPrefix, body, signPrefix_signed digit signed]
  simp only [taken, Option.map_some]

theorem integerPrefix_taken (taken : integerPrefix text = some (value, rest)) :
    ∃ before sign digits factor,
      text = before ++ (sign ++ (digits ++ rest)) ∧ (sign, factor) ∈ signs ∧
      (∀ symbol ∈ before, isspace symbol) ∧ digits ≠ [] ∧
      (∀ symbol ∈ digits, symbol.isDigit) ∧
      value = factor * numeral digits := by
  have whole := List.takeWhile_append_dropWhile (p := isspace) (l := text)
  have blanks : ∀ symbol ∈ text.takeWhile isspace, isspace symbol := by
    intro symbol member
    exact List.mem_takeWhile_imp member
  obtain ⟨sign, body, signed⟩ := signPrefix_taken (text.dropWhile isspace)
  rw [integerPrefix] at taken
  obtain ⟨⟨number, behind⟩, digitsTaken, pair⟩ := Option.map_eq_some_iff.mp taken
  obtain ⟨digits, unsigned, present, allDigits, sum⟩ := digitsPrefix_taken digitsTaken
  rw [Prod.mk.injEq] at pair
  obtain ⟨product, rfl⟩ := pair
  refine ⟨_, sign, digits, _, ?_, signed, blanks, present, allDigits, ?_⟩
  · rw [← unsigned, ← body, whole]
  · exact sum ▸ product.symm

/-- A text denotes the integer at its beginning when only blanks follow that. -/
theorem denotes_iff : Denotes text value ↔
    ∃ rest, integerPrefix text = some (value, rest) ∧ ∀ symbol ∈ rest, isspace symbol := by
  constructor
  · exact denotes_prefix
  · rintro ⟨rest, taken, blanksAfter⟩
    obtain ⟨before, sign, digits, factor, cut, signed, blanksBefore, present, allDigits, sum⟩ :=
      integerPrefix_taken taken
    exact ⟨before, sign, digits, rest, factor, cut, signed, blanksBefore, blanksAfter, present,
      allDigits, sum⟩

theorem denoted_iff (text : List Char) : (∃ value, Denotes text value) ↔
    (integerPrefix text).any (fun found => found.2.all isspace) = true := by
  rw [Option.any_eq_true]
  constructor
  · rintro ⟨value, denoted⟩
    obtain ⟨rest, taken, blanks⟩ := denotes_iff.mp denoted
    exact ⟨(value, rest), taken, List.all_eq_true.mpr blanks⟩
  · rintro ⟨found, taken, blanks⟩
    exact ⟨found.1, denotes_iff.mpr ⟨found.2, taken, List.all_eq_true.mp blanks⟩⟩

instance (text : List Char) : Decidable (∃ value, Denotes text value) :=
  decidable_of_iff _ (denoted_iff text).symm

theorem denotes_symbols (denoted : Denotes text value) :
    text ≠ [] ∧ ∀ symbol ∈ text,
      isspace symbol ∨ symbol.isDigit ∨ symbol = '+' ∨ symbol = '-' := by
  obtain ⟨before, sign, digits, after, factor, rfl, signed, blanksBefore, blanksAfter,
    present, allDigits, rfl⟩ := denoted
  constructor
  · simp [present]
  · intro symbol member
    simp only [List.mem_append] at member
    obtain inBefore | inSign | inDigits | inAfter := member
    · exact Or.inl (blanksBefore symbol inBefore)
    · obtain ⟨rfl, -⟩ | ⟨rfl, -⟩ | ⟨rfl, -⟩ := mem_signs.mp signed
      · cases inSign
      · exact Or.inr (Or.inr (Or.inl (List.mem_singleton.mp inSign)))
      · exact Or.inr (Or.inr (Or.inr (List.mem_singleton.mp inSign)))
    · exact Or.inr (Or.inl (allDigits symbol inDigits))
    · exact Or.inl (blanksAfter symbol inAfter)

end AqMD3.NumberText
