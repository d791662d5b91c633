import Mathlib

/-!
What packing, rounding and arithmetic make of floats which are not below zero. Whether a result is a
number depends on the signs, and for products on how far from zero and infinity a factor is; no
bound on errors is needed.
-/

namespace ClauseLearning.Unpacked

open Float.Model (Format UnpackedFloat totalExponent)
open Float.Model.Format (binary64)
open Float.Model.UnpackedFloat

theorem ofBitVec_toBitVec (s : Sign) : Sign.ofBitVec s.toBitVec = s := by
  cases s <;> rfl

theorem unpackSign_packComponents {spec : Format} {s : Sign} {e : BitVec spec.exponentBits}
    {m : BitVec spec.mantissaBitsWithoutImplicit} :
    unpackSign (packComponents spec s e m) = s.toBitVec := by
  ext i inside
  obtain rfl : i = 0 := by omega
  simp [unpackSign, packComponents, BitVec.getLsbD_eq_getElem, BitVec.getLsbD_append,
    BitVec.getElem_append]

theorem toNat_withImplicit (m : BitVec 52) : (1#1 ++ m).toNat = 2 ^ 52 + m.toNat := by
  rw [BitVec.toNat_append, ← Nat.shiftLeft_add_eq_or_of_lt m.isLt]
  rfl

def repack (x : UnpackedFloat) : UnpackedFloat := unpack binary64 (pack binary64 x)

/-- What becomes of a finite float which is packed: the sign stays, and the rest unless it is out of
range. -/
inductive Repacked (s : Sign) (m : Nat) (e : Int) : UnpackedFloat → Prop
  | overflow (high : 971 < e) : Repacked s m e (.infinity s)
  | normal (positive : 0 < m) (wide : m.log2 = 52) (low : -1075 < e) (high : e ≤ 971) :
    Repacked s m e (.finite s m e positive)
  | subnormal (m' : Nat) (positive : 0 < m') (narrow : m' < 2 ^ 52)
      (below : m.log2 = 52 → e ≤ -1075) : Repacked s m e (.finite s m' (-1074) positive)
  | zero (below : m.log2 = 52 → e ≤ -1075) : Repacked s m e (.zero s)

theorem repack_infinity (s : Sign) : repack (.infinity s) = .infinity s := by
  cases s <;> rfl

theorem repack_zero (s : Sign) : repack (.zero s) = .zero s := by
  cases s <;> rfl

section Packing

variable {s : Sign} {m : Nat} {e : Int}

theorem repacked_subnormal (v : BitVec 52) (below : m.log2 = 52 → e ≤ -1075) :
    Repacked s m e (unpack binary64 (packComponents binary64 s 0#_ v)) := by
  unfold unpack
  simp only [unpackSign_packComponents, unpackExponent_packComponents,
    unpackMantissa_packComponents, ofBitVec_toBitVec]
  rw [if_neg (by decide), if_pos trivial]
  split
  · exact .zero below
  · exact .subnormal _ _ v.isLt below

theorem repacked_normal {biased : Nat} (positive : 0 < m) (wide : m.log2 = 52)
    (exponent : (biased : Int) = e + 1075) (low : -1075 < e) (high : e ≤ 971) :
    Repacked s m e (unpack binary64
      (packComponents binary64 s (BitVec.ofNat 11 biased) (BitVec.ofNat 52 m))) := by
  have back : (BitVec.ofNat 11 biased).toNat = biased := Nat.mod_eq_of_lt (by omega)
  have mantissa : (1#1 ++ BitVec.ofNat 52 m).toNat = m := by
    have least : 2 ^ 52 ≤ m := wide ▸ Nat.log2_self_le positive.ne'
    have greatest : m < 2 ^ 53 := (Nat.log2_lt positive.ne').1 (by omega)
    rw [toNat_withImplicit, BitVec.toNat_ofNat]
    omega
  have proper (x : BitVec 11) (apart : x.toNat = 0 ∨ x.toNat = 2047) :
      BitVec.ofNat 11 biased ≠ x := by
    rintro rfl
    omega
  unfold unpack
  simp only [unpackSign_packComponents, unpackExponent_packComponents,
    unpackMantissa_packComponents, ofBitVec_toBitVec]
  rw [if_neg (proper _ (.inr rfl)), if_neg (proper _ (.inl rfl))]
  have exponent' : (biased : Int) - (1023 + 52) = e := by omega
  simp only [mantissa, back]
  change Repacked s m e (.finite s m ((biased : Int) - (1023 + 52)) _)
  simp only [exponent']
  exact .normal positive wide low high

theorem repacked (s : Sign) (m : Nat) (e : Int) (positive : 0 < m) :
    Repacked s m e (repack (.finite s m e positive)) := by
  change Repacked s m e (unpack binary64
    (if 2048 ≤ (e + 1023 + 52).toNat + 1 then packedInfinity binary64 s
      else if m.log2 + 1 = 53 then
        packComponents binary64 s (BitVec.ofNat 11 (e + 1023 + 52).toNat) (BitVec.ofNat 52 m)
      else packComponents binary64 s 0#_ (BitVec.ofNat 52 m)))
  split_ifs with high wide
  · change Repacked s m e (repack (.infinity s))
    rw [repack_infinity]
    exact .overflow (by omega)
  · rcases le_or_gt e (-1075) with low | low
    · have zero : (e + 1023 + 52).toNat = 0 := by omega
      rw [zero]
      exact repacked_subnormal _ fun _ => low
    · exact repacked_normal positive (by omega) (by omega) low (by omega)
  · exact repacked_subnormal _ fun other => absurd other (by omega)

end Packing

section Rounding

theorem mantissa_shiftRight (em : ExtendedMantissa) (n : Nat) :
    (em >>> n).mantissa = em.mantissa / 2 ^ n := by
  change (n.repeat ExtendedMantissa.shiftRightOne em).mantissa = _
  induction n with
  | zero => simp [Nat.repeat]
  | succ n ih =>
    rw [Nat.repeat, ExtendedMantissa.shiftRightOne, ih, Nat.div_div_eq_div_mul, Nat.pow_succ]

theorem mantissa_ofMantissaAndAccuracy (m : Nat) (accuracy : Accuracy) :
    (ExtendedMantissa.ofMantissaAndAccuracy m accuracy).mantissa = m := by
  rcases accuracy with _ | _ | _ | _ <;> rfl

theorem roundToNearestEven_bounds (m : Nat) (accuracy : Accuracy) :
    m ≤ accuracy.roundToNearestEven m ∧ accuracy.roundToNearestEven m ≤ m + 1 := by
  rcases accuracy with _ | _ | _ | _ <;> simp only [Accuracy.roundToNearestEven] <;> omega

theorem roundedMantissa_bounds (m n : Nat) (accuracy : Accuracy) :
    let cut := ExtendedMantissa.ofMantissaAndAccuracy m accuracy >>> n
    m / 2 ^ n ≤ cut.roundedMantissa ∧ cut.roundedMantissa ≤ m / 2 ^ n + 1 := by
  intro cut
  have mantissa : cut.mantissa = m / 2 ^ n := by
    rw [mantissa_shiftRight, mantissa_ofMantissaAndAccuracy]
  rw [ExtendedMantissa.roundedMantissa, mantissa]
  exact roundToNearestEven_bounds ..

/-- A finite float above zero with a mantissa of full length and an exponent between two bounds. -/
inductive Normal (low high : Int) : UnpackedFloat → Prop
  | intro (m : Nat) (e : Int) (positive : 0 < m) (wide : m.log2 = 52) (least : low ≤ e)
    (greatest : e ≤ high) : Normal low high (.finite .positive m e positive)

theorem Normal.mono {x : UnpackedFloat} {low low' high high' : Int} (normal : Normal low high x)
    (below : low' ≤ low) (above : high ≤ high') : Normal low' high' x := by
  obtain ⟨m, e, positive, wide, least, greatest⟩ := normal
  exact .intro m e positive wide (by omega) (by omega)

theorem log2_eq {m n : Nat} (least : 2 ^ n ≤ m) (greatest : m < 2 ^ (n + 1)) : m.log2 = n := by
  have positive : m ≠ 0 := (Nat.lt_of_lt_of_le (Nat.two_pow_pos n) least).ne'
  have := (Nat.le_log2 positive).2 least
  have := (Nat.log2_lt positive).2 greatest
  omega

theorem log2_two_pow_sub {m n : Nat} (positive : 0 < m) (le : m ≤ 2 ^ n) :
    (2 ^ (n + 1) - m).log2 = n := by
  rw [Nat.pow_succ]
  exact log2_eq (by omega) (by rw [Nat.pow_succ]; omega)

variable {m n : Nat} {e : Int}

theorem pos_of_log2_eq (wide : m.log2 = 52 + n) : 0 < m := by
  by_contra zero
  obtain rfl : m = 0 := by omega
  rw [Nat.log2_zero] at wide
  omega

theorem targetExponent_eq (wide : m.log2 = 52 + n) (above : -1074 ≤ e + n) :
    binary64.targetExponent (totalExponent m e) = e + n := by
  change max ((m.log2 : Int) + 1 + e - 53) (-1074) = e + n
  omega

theorem shiftToTargetExponent_eq (accuracy : Accuracy) (wide : m.log2 = 52 + n)
    (above : -1074 ≤ e + n) :
    shiftToTargetExponent binary64 m e accuracy =
      (ExtendedMantissa.ofMantissaAndAccuracy m accuracy >>> n, e + n) := by
  rw [shiftToTargetExponent, targetExponent_eq wide above]
  simp only [shiftToExponent, add_sub_cancel_left, Int.toNat_natCast]

theorem normal_roundWithAccuracy (wide : m.log2 = 52 + n) (above : -1074 ≤ e + n)
    (accuracy : Accuracy) :
    Normal (e + n) (e + n + 1) (roundWithAccuracy binary64 .positive m e accuracy) := by
  have nonzero : m ≠ 0 := (pos_of_log2_eq wide).ne'
  have least : 2 ^ 52 ≤ m / 2 ^ n := by
    rw [Nat.le_div_iff_mul_le (Nat.two_pow_pos n), ← Nat.pow_add, ← wide]
    exact Nat.log2_self_le nonzero
  have greatest : m / 2 ^ n < 2 ^ 53 := by
    rw [Nat.div_lt_iff_lt_mul (Nat.two_pow_pos n), ← Nat.pow_add]
    exact (Nat.log2_lt nonzero).1 (by omega)
  have first := shiftToTargetExponent_eq accuracy wide above
  obtain ⟨low, high⟩ := roundedMantissa_bounds m n accuracy
  rcases Nat.lt_or_ge (ExtendedMantissa.ofMantissaAndAccuracy m accuracy >>> n).roundedMantissa
    (2 ^ 53) with stays | overflows
  · have wide' := log2_eq (n := 52) (by omega) stays
    have second := shiftToTargetExponent_eq (n := 0) (e := e + n) .exact wide' (by omega)
    simp only [roundWithAccuracy, first, second, mantissa_shiftRight,
      mantissa_ofMantissaAndAccuracy, Nat.pow_zero, Nat.div_one]
    rw [dif_neg (by omega)]
    exact .intro _ _ _ wide' (by omega) (by omega)
  · have doubled : (ExtendedMantissa.ofMantissaAndAccuracy m accuracy >>> n).roundedMantissa =
        2 ^ 53 := by omega
    have second := shiftToTargetExponent_eq (n := 1) (e := e + n) .exact
      (Nat.log2_two_pow (n := 53)) (by omega)
    simp only [roundWithAccuracy, first, doubled, second, mantissa_shiftRight,
      mantissa_ofMantissaAndAccuracy]
    rw [dif_neg (by decide)]
    exact .intro _ _ _ (by decide) (by omega) (by omega)

theorem normal_normalize (wide : m.log2 = 52 + n) (above : -1074 ≤ e + n) :
    Normal (e + n) (e + n + 1) (UnpackedFloat.normalize binary64 m e .positive) := by
  have gt : compare (m : Int) 0 = .gt :=
    Int.compare_eq_gt.2 (Int.natCast_pos.2 (pos_of_log2_eq wide))
  have none : (e - (e + n)).toNat = 0 := by omega
  rw [UnpackedFloat.normalize, gt]
  simp only [UnpackedFloat.round, targetExponent_eq wide above, decreaseExponent, none,
    Int.toNat_natCast, Nat.shiftLeft_zero]
  simp only [Int.natCast_zero, sub_zero]
  exact normal_roundWithAccuracy wide above .exact

end Rounding

section Classes

variable {x y : UnpackedFloat} {low high : Int}

/-- Zero of either sign, above zero, or infinite above. -/
def Nonnegative : UnpackedFloat → Prop
  | .infinity s | .finite s .. => s = .positive
  | .zero _ => True
  | .notANumber => False

def UpToHalf : UnpackedFloat → Prop
  | .infinity _ | .notANumber => False
  | .zero _ => True
  | .finite s m e _ => s = .positive ∧ m < 2 ^ 53 ∧ e ≤ -53 ∧ (e = -53 → m ≤ 2 ^ 52)

theorem Normal.nonnegative (normal : Normal low high x) : Nonnegative x := by
  cases normal
  rfl

theorem UpToHalf.nonnegative (half : UpToHalf x) : Nonnegative x := by
  cases x with
  | finite => exact half.1
  | zero => trivial
  | infinity | notANumber => exact half.elim

theorem Nonnegative.isNaN (nonnegative : Nonnegative x) : x.isNaN = false := by
  cases x with
  | notANumber => exact nonnegative.elim
  | infinity | zero | finite => rfl

theorem Nonnegative.repack (nonnegative : Nonnegative x) : Nonnegative (repack x) := by
  cases x with
  | notANumber => exact nonnegative.elim
  | infinity s => exact (repack_infinity s).symm ▸ nonnegative
  | zero s => exact (repack_zero s).symm ▸ trivial
  | finite s m e positive =>
    have kind := repacked s m e positive
    generalize Unpacked.repack (.finite s m e positive) = x at kind ⊢
    cases kind with
    | zero => trivial
    | overflow | normal | subnormal => exact nonnegative

theorem Normal.repack (normal : Normal low high x) (above : -1074 ≤ low) (below : high ≤ 971) :
    Normal low high (repack x) := by
  obtain ⟨m, e, positive, wide, least, greatest⟩ := normal
  have kind := repacked .positive m e positive
  generalize Unpacked.repack (.finite .positive m e positive) = x at kind ⊢
  cases kind with
  | normal => exact .intro m e positive wide least greatest
  | overflow => omega
  | subnormal _ _ _ narrow | zero narrow => exact absurd (narrow wide) (by omega)

theorem nonnegative_of_le (le : UnpackedFloat.le (.zero .positive) x = true) : Nonnegative x := by
  rcases x with (_ | _) | _ | _ | ⟨_ | _, m, e, positive⟩
  case infinity.negative | notANumber | finite.negative => exact (Bool.false_ne_true le).elim
  case infinity.positive | finite.positive => rfl
  case zero => trivial

theorem upToHalf_repack (nonnegative : Nonnegative x)
    (le : x.le (.finite .positive (2 ^ 52) (-53) (by decide)) = true) : UpToHalf (repack x) := by
  cases x with
  | notANumber => exact nonnegative.elim
  | infinity s =>
    obtain rfl : s = .positive := nonnegative
    exact (Bool.false_ne_true le).elim
  | zero s => exact (repack_zero s).symm ▸ trivial
  | finite s m e positive =>
    obtain rfl : s = .positive := nonnegative
    change ((compare e (-53)).then (compare m (2 ^ 52))).isLE = true at le
    rw [Ordering.isLE_then_iff_or, Int.compare_eq_lt, Int.compare_eq_eq, Nat.isLE_compare] at le
    have kind := repacked .positive m e positive
    generalize repack (.finite .positive m e positive) = x at kind ⊢
    cases kind with
    | overflow => omega
    | normal _ wide =>
      exact ⟨rfl, (Nat.log2_lt positive.ne').1 (by omega), by omega, by omega⟩
    | subnormal m' _ narrow => exact ⟨rfl, by omega, by omega, by omega⟩
    | zero => trivial

theorem nonnegative_roundWithAccuracy (m : Nat) (e : Int) (accuracy : Accuracy) :
    Nonnegative (roundWithAccuracy binary64 .positive m e accuracy) := by
  unfold roundWithAccuracy
  dsimp only
  split
  · trivial
  · rfl

theorem nonnegative_normalize {m : Int} (nonnegative : 0 ≤ m) (e : Int) :
    Nonnegative (UnpackedFloat.normalize binary64 m e .positive) := by
  unfold UnpackedFloat.normalize
  split
  next less => exact absurd (Int.compare_eq_lt.1 less) (by omega)
  next => trivial
  next => exact nonnegative_roundWithAccuracy ..

theorem nonnegative_add (first : Nonnegative x) (second : Nonnegative y) :
    Nonnegative (add binary64 x y) := by
  cases x with
  | notANumber => exact first.elim
  | infinity s =>
    obtain rfl : s = .positive := first
    cases y with
    | notANumber => exact second.elim
    | infinity t =>
      obtain rfl : t = .positive := second
      rfl
    | zero | finite => rfl
  | zero s =>
    cases y with
    | notANumber => exact second.elim
    | infinity | finite => exact second
    | zero t => cases s <;> cases t <;> trivial
  | finite s m e positive =>
    obtain rfl : s = .positive := first
    cases y with
    | notANumber => exact second.elim
    | infinity => exact second
    | zero => rfl
    | finite t m' e' positive' =>
      obtain rfl : t = .positive := second
      exact nonnegative_normalize (Int.add_nonneg (Int.natCast_nonneg _) (Int.natCast_nonneg _)) _

theorem nonnegative_mul (first : Nonnegative x) (second : Normal low high y) :
    Nonnegative (mul binary64 x y) := by
  obtain ⟨m, e, positive, -⟩ := second
  cases x with
  | notANumber => exact first.elim
  | infinity s => obtain rfl : s = .positive := first; rfl
  | zero s => trivial
  | finite s m' e' positive' =>
    obtain rfl : s = .positive := first
    exact nonnegative_roundWithAccuracy ..

theorem normal_one_sub (half : UpToHalf x) :
    Normal (-53) (-52) (sub binary64 (.finite .positive (2 ^ 52) (-52) (by decide)) x) := by
  cases x with
  | infinity | notANumber => exact half.elim
  | zero s => exact .intro _ _ _ (by decide) (by decide) (by decide)
  | finite s m e positive =>
    obtain ⟨rfl, wide, low, least⟩ := half
    obtain ⟨n, rfl⟩ : ∃ n : Nat, e = -53 - n := ⟨(-53 - e).toNat, by omega⟩
    have smaller : min (-52 : Int) (-53 - n) = -53 - n := by omega
    have shift : (-52 - (-53 - n) : Int).toNat = 1 + n := by omega
    have one : 2 ^ 52 <<< (1 + n) = 2 ^ (52 + n + 1) := by
      rw [Nat.shiftLeft_eq, ← Nat.pow_add, Nat.add_comm 1, ← Nat.add_assoc]
    have atMost : m ≤ 2 ^ (52 + n) := by
      rcases Nat.eq_zero_or_pos n with rfl | more
      · exact least (by omega)
      · exact wide.le.trans (Nat.pow_le_pow_right (by decide) (by omega))
    have less : 2 ^ (52 + n) ≤ 2 ^ (52 + n + 1) := Nat.pow_le_pow_right (by decide) (by omega)
    have rounded := normal_normalize (e := -53 - n) (log2_two_pow_sub positive atMost) (by omega)
    rw [Nat.cast_sub (atMost.trans less)] at rounded
    change Normal _ _ (UnpackedFloat.normalize binary64
      ((2 ^ 52 <<< (-52 - min (-52 : Int) (-53 - n)).toNat : Nat) -
        (m <<< (-53 - n - min (-52 : Int) (-53 - n)).toNat : Nat))
      (min (-52) (-53 - n)) .positive)
    rw [smaller, shift, sub_self, one]
    exact rounded.mono (by omega) (by omega)

theorem normal_one_div (normal : Normal low high x) (below : high ≤ 969) :
    Normal (-105 - high) (-103 - low)
      (div binary64 (.finite .positive (2 ^ 52) (-52) (by decide)) x) := by
  obtain ⟨m, e, positive, wide, least, greatest⟩ := normal
  have core : divCore binary64 (2 ^ 52) (-52) m e =
      (2 ^ 105 / m, -105 - e, accuracyOfFraction (2 ^ 105 % m) m) := by
    have target : binary64.targetExponent (totalExponent (2 ^ 52) (-52) - totalExponent m e) =
        -105 - e := by
      change max ((52 : Int) + 1 + -52 - (m.log2 + 1 + e) - 53) (-1074) = -105 - e
      omega
    have shift : ((-52 : Int) - e - (-105 - e)).toNat = 53 := by omega
    have smaller : min ((-52 : Int) - e) (-105 - e) = -105 - e := by omega
    rw [divCore, target]
    simp only [smaller, shift]
    rfl
  -- The quotient by a mantissa of full length fills a mantissa again, or is just above all of them.
  have atLeast : 2 ^ 52 ≤ 2 ^ 105 / m := by
    rw [Nat.le_div_iff_mul_le positive]
    have narrow : m < 2 ^ 53 := (Nat.log2_lt positive.ne').1 (by omega)
    exact (Nat.mul_le_mul_left _ narrow.le).trans (by decide)
  have atMost : 2 ^ 105 / m ≤ 2 ^ 53 :=
    Nat.div_le_of_le_mul ((by decide : 2 ^ 105 ≤ 2 ^ 52 * 2 ^ 53).trans
      (Nat.mul_le_mul_right _ (wide ▸ Nat.log2_self_le positive.ne')))
  change Normal _ _ (match divCore binary64 (2 ^ 52) (-52) m e with
    | (m, e, accuracy) => roundWithAccuracy binary64 .positive m e accuracy)
  rw [core]
  rcases Nat.lt_or_ge (2 ^ 105 / m) (2 ^ 53) with less | more
  · exact (normal_roundWithAccuracy (n := 0) (log2_eq atLeast less) (by omega) _).mono (by omega)
      (by omega)
  · have top : (2 ^ 105 / m).log2 = 52 + 1 := by
      rw [le_antisymm atMost more]
      exact Nat.log2_two_pow
    exact (normal_roundWithAccuracy top (by omega) _).mono (by omega) (by omega)

end Classes

end ClauseLearning.Unpacked
