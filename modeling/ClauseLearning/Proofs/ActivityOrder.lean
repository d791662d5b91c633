import ClauseLearning.Activity
import Mathlib.Data.Int.Order.Basic
import Mathlib.Data.Prod.Lex

namespace ClauseLearning

namespace Activity

open Float.Model (UnpackedFloat)

/-- Where a float that is a number stands among the others: by its sign and whether it is finite,
then by its exponent, then by its mantissa. -/
def placeOf? : UnpackedFloat → Option (Int ×ₗ Int ×ₗ Int)
  | .infinity sign => some (toLex (sign.apply 2, toLex (0, 0)))
  | .finite sign mantissa exponent _ =>
    some (toLex (sign.apply 1, toLex (sign.apply exponent, sign.apply mantissa)))
  | .zero _ => some (toLex (0, toLex (0, 0)))
  | .notANumber => none

def place? (a : Activity) : Option (Int ×ₗ Int ×ₗ Int) := placeOf? a.toFloat.toModel.unpack

section Places

variable (s : UnpackedFloat.Sign)

theorem placeOf?_infinity :
    placeOf? (.infinity s) = some (toLex (s.apply 2, toLex (0, 0))) := rfl

theorem placeOf?_finite (m : Nat) (e : Int) (positive : 0 < m) :
    placeOf? (.finite s m e positive) =
      some (toLex (s.apply 1, toLex (s.apply e, s.apply m))) := rfl

theorem placeOf?_zero : placeOf? (.zero s) = some (toLex (0, toLex (0, 0))) := rfl

theorem placeOf?_notANumber : placeOf? .notANumber = none := rfl

end Places

variable {a b c : Activity}

theorem unpacked_lt_iff (x y : UnpackedFloat) :
    x.lt y = true ↔ ∃ p ∈ placeOf? x, ∃ q ∈ placeOf? y, p < q := by
  have signs (s t : UnpackedFloat.Sign) :
      compare s t = .lt ↔ s = .negative ∧ t = .positive := by
    cases s <;> cases t <;> simp [compare]
  rw [UnpackedFloat.lt]
  rcases x with (_ | _) | _ | _ | ⟨_ | _, m, e, _⟩ <;>
    rcases y with (_ | _) | _ | _ | ⟨_ | _, m', e', _⟩ <;>
    -- A finite float holds a proof about its mantissa, so the comparison is computed as a whole
    -- and not rewritten from within.
    conv =>
      lhs
      rw [beq_iff_eq]
      lhs
      whnf
  all_goals
    simp [↓placeOf?_infinity, ↓placeOf?_finite, ↓placeOf?_zero, ↓placeOf?_notANumber, signs,
      UnpackedFloat.Sign.apply, Prod.Lex.toLex_lt_toLex,
      Ordering.then_eq_lt, Ordering.then_eq_gt, Int.compare_eq_lt, Int.compare_eq_gt,
      Nat.compare_eq_lt, Nat.compare_eq_gt]

theorem isNumber_iff : a.isNumber = true ↔ ∃ p, a.place? = some p := by
  have numbers (x : UnpackedFloat) : (!x.isNaN) = (placeOf? x).isSome := by
    rcases x with (_ | _) | _ | _ | ⟨_ | _, m, e, _⟩ <;> rfl
  rw [← Option.isSome_iff_exists, place?, ← numbers]
  rfl

theorem lt_iff : a < b ↔ ∃ p ∈ a.place?, ∃ q ∈ b.place?, p < q := by
  change decide (a.toFloat.toModel < b.toFloat.toModel) = true ↔ _
  rw [decide_eq_true_iff, place?, place?, ← unpacked_lt_iff]
  rfl

theorem lt_asymm (less : a < b) : ¬b < a := by
  rw [lt_iff] at less ⊢
  obtain ⟨p, first, q, second, less⟩ := less
  rintro ⟨q', second', p', first', more⟩
  obtain rfl := Option.some.inj (first.symm.trans first')
  obtain rfl := Option.some.inj (second.symm.trans second')
  exact less.asymm more

theorem lt_or_lt (between : b.isNumber = true) (less : a < c) : a < b ∨ b < c := by
  obtain ⟨p, first, r, last, less⟩ := lt_iff.1 less
  obtain ⟨q, middle⟩ := isNumber_iff.1 between
  rw [lt_iff, lt_iff]
  rcases lt_or_ge p q with low | high
  · exact .inl ⟨p, first, q, middle, low⟩
  · exact .inr ⟨q, middle, r, last, high.trans_lt less⟩

theorem isNumber_of_combine {operation : Float → Float → Float}
    (number : (combine operation a b).isNumber = true) : a.isNumber = true := by
  by_contra undefined
  simp only [combine, Bool.not_eq_true] at undefined number
  simp only [undefined, Bool.not_false, if_true] at number
  cases number

end Activity

end ClauseLearning
