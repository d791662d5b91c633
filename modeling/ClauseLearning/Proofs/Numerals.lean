import ClauseLearning.Text.Blank
import ClauseLearning.Text.Numeral

namespace ClauseLearning.Text

def IsNumeral (digits : List Char) (n : Nat) : Prop :=
  digits ≠ [] ∧ (∀ c ∈ digits, c.isDigit = true) ∧ Nat.ofDigitChars 10 digits 0 = n

def IsNatural (cs : List Char) (n : Nat) : Prop :=
  IsNumeral cs n ∨ ∃ digits, cs = '+' :: digits ∧ IsNumeral digits n

def IsInteger (cs : List Char) (i : Int) : Prop :=
  (∃ n : Nat, IsNatural cs n ∧ i = n) ∨
    ∃ digits, ∃ n : Nat, cs = '-' :: digits ∧ IsNumeral digits n ∧ i = -n

theorem readDigits?_eq_some {cs : List Char} {n : Nat} :
    readDigits? cs = some n ↔ IsNumeral cs n := by
  have value : digitsValue cs = Nat.ofDigitChars 10 cs 0 := Nat.ofDigitChars_eq_foldl.symm
  rw [readDigits?, value, IsNumeral]
  by_cases empty : cs = []
  · simp [empty]
  · by_cases digits : cs.all Char.isDigit = true
    · rw [if_neg (by simpa using empty), if_pos digits, Option.some.injEq]
      exact ⟨fun same => ⟨empty, List.all_eq_true.1 digits, same⟩, fun numeral => numeral.2.2⟩
    · rw [if_neg (by simpa using empty), if_neg digits]
      exact iff_of_false nofun fun numeral => digits (List.all_eq_true.2 numeral.2.1)

theorem IsNumeral.not_sign {sign : Char} {rest : List Char} {n : Nat}
    (noDigit : sign.isDigit = false) : ¬IsNumeral (sign :: rest) n := by
  rintro ⟨-, digits, -⟩
  rw [digits sign List.mem_cons_self] at noDigit
  cases noDigit

theorem readNat?_eq_some {greatest n : Nat} {cs : List Char} :
    readNat? greatest cs = some n ↔ IsNatural cs n ∧ n ≤ greatest := by
  unfold readNat?
  rw [Option.filter_eq_some_iff, readDigits?_eq_some, decide_eq_true_eq, IsNatural]
  split
  · simp [IsNumeral.not_sign]
  · rename_i noPlus
    have unsigned : ¬∃ digits, cs = '+' :: digits ∧ IsNumeral digits n :=
      fun ⟨digits, sign, _⟩ => noPlus digits sign
    rw [or_iff_left unsigned]

theorem readInt?_eq_some {least greatest i : Int} {cs : List Char} :
    readInt? least greatest cs = some i ↔ IsInteger cs i ∧ least ≤ i ∧ i ≤ greatest := by
  have positive (digits : List Char) : ((readDigits? digits).map fun n => (n : Int)) = some i ↔
      ∃ n : Nat, IsNumeral digits n ∧ i = n := by
    simp only [← readDigits?_eq_some]
    cases readDigits? digits <;> simp [eq_comm]
  have negative (digits : List Char) : ((readDigits? digits).map fun n => -(n : Int)) = some i ↔
      ∃ n : Nat, IsNumeral digits n ∧ i = -n := by
    simp only [← readDigits?_eq_some]
    cases readDigits? digits <;> simp [eq_comm]
  unfold readInt?
  rw [Option.filter_eq_some_iff, decide_eq_true_eq, IsInteger]
  refine and_congr_left' ?_
  split
  · rw [negative]
    simp [IsNatural, IsNumeral.not_sign]
  · rw [positive]
    simp [IsNatural, IsNumeral.not_sign]
  · rename_i noMinus noPlus
    have unsigned (n : Nat) : IsNatural cs n ↔ IsNumeral cs n :=
      or_iff_left fun ⟨digits, sign, _⟩ => noPlus digits sign
    have nonneg : ¬∃ digits, ∃ n : Nat, cs = '-' :: digits ∧ IsNumeral digits n ∧ i = -n :=
      fun ⟨digits, _, sign, _⟩ => noMinus digits sign
    rw [positive, or_iff_left nonneg]
    simp only [unsigned]

theorem isNumeral_toDigits (n : Nat) : IsNumeral (Nat.toDigits 10 n) n :=
  ⟨Nat.toDigits_ne_nil, fun _ => Nat.isDigit_of_mem_toDigits (by decide) (by decide),
    Nat.ofDigitChars_ten_toDigits⟩

theorem isNumeral_toString (n : Nat) : IsNumeral (toString n).toList n := by
  rw [Nat.toString_eq_repr, Nat.toList_repr]
  exact isNumeral_toDigits n

theorem toList_toString_int (i : Int) : (toString i).toList =
    if 0 ≤ i then Nat.toDigits 10 i.natAbs else '-' :: Nat.toDigits 10 i.natAbs := by
  rw [Int.toString_eq_repr, Int.repr_eq_if]
  split
  · have size : i.toNat = i.natAbs := by omega
    rw [Nat.toList_repr, size]
  · have size : (-i).toNat = i.natAbs := by omega
    rw [String.toList_append, Nat.toList_repr, size]
    rfl

theorem isInteger_toString (i : Int) : IsInteger (toString i).toList i := by
  have numeral := isNumeral_toDigits i.natAbs
  rw [toList_toString_int]
  split
  · exact .inl ⟨i.natAbs, .inl numeral, by omega⟩
  · exact .inr ⟨_, i.natAbs, rfl, numeral, by omega⟩

theorem isBlank_of_isDigit {c : Char} (digit : c.isDigit = true) : isBlank c = false := by
  have bounds : 48 ≤ c.toNat ∧ c.toNat ≤ 57 := by
    simp only [Char.isDigit, Bool.and_eq_true, decide_eq_true_eq, ge_iff_le,
      UInt32.le_iff_toNat_le] at digit
    exact digit
  simp only [isBlank, Bool.or_eq_false_iff, Bool.and_eq_false_iff, decide_eq_false_iff_not,
    beq_eq_false_iff_ne]
  omega

end ClauseLearning.Text
