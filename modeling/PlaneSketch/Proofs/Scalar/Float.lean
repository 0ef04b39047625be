import Mathlib
import PlaneSketch.Proofs.Scalar.Order

/-!
# Machine floats

The order of the floats, and what their operations do to NaN and to the infinities.

* `rank?`: a float that is not NaN as a triple of integers; floats are compared as their ranks are,
  so that they are `Ordered`.
* `isNumber_add`, `isNumber_mul`, …: a result that is not NaN has no NaN behind it.
-/

namespace PlaneSketch

namespace Scalar

open Float.Model
open UnpackedFloat (Sign)

/-! ## The order -/

/-- The place of a float among the others: by sign and kind, then by exponent, then by mantissa. -/
def rank? : UnpackedFloat → Option (ℤ ×ₗ ℤ ×ₗ ℤ)
  | .notANumber => none
  | .infinity s => some (toLex (s.apply 2, toLex (0, 0)))
  | .zero _ => some (toLex (0, toLex (0, 0)))
  | .finite s mantissa exponent _ =>
    some (toLex (s.apply 1, toLex (s.apply exponent, s.apply mantissa)))

theorem compare_neg (a b : ℤ) : compare (-a) (-b) = compare b a := by
  simp only [compare, compareOfLessAndEq, Int.neg_lt_neg_iff, Int.neg_inj, eq_comm]

theorem compare_natCast (m n : ℕ) : compare (m : ℤ) (n : ℤ) = compare m n := by
  simp only [compare, compareOfLessAndEq, Int.ofNat_lt, Int.natCast_inj]

theorem compare_toLex (a b c a' b' c' : ℤ) :
    compare (toLex (a, toLex (b, c))) (toLex (a', toLex (b', c'))) =
      (compare a a').then ((compare b b').then (compare c c')) := rfl

/-- Floats are compared as their ranks are. -/
theorem compare_eq_compare_rank (a b : UnpackedFloat) :
    a.compare b = (rank? a).bind fun r => (rank? b).map (compare r) := by
  cases a with
  | notANumber => rfl
  | infinity s =>
    cases b with
    | notANumber => cases s <;> rfl
    | infinity t => cases s <;> cases t <;> rfl
    | zero t => cases s <;> rfl
    | finite t m e hm => cases s <;> cases t <;> rfl
  | zero s =>
    cases b with
    | notANumber => rfl
    | infinity t => cases t <;> rfl
    | zero t => rfl
    | finite t m e hm => cases t <;> rfl
  | finite s m e hm =>
    cases b with
    | notANumber => cases s <;> rfl
    | infinity t => cases s <;> cases t <;> rfl
    | zero t => cases s <;> rfl
    | finite t m' e' hm' =>
      cases s with
      | negative =>
        cases t with
        | negative =>
          refine congrArg some ?_
          rw [compare_toLex, Ordering.swap_then, ← Std.OrientedOrd.eq_swap,
            ← Std.OrientedOrd.eq_swap, ← compare_natCast, ← compare_neg, ← compare_neg (m : ℤ)]
          rfl
        | positive => rfl
      | positive =>
        cases t with
        | negative => rfl
        | positive =>
          refine congrArg some ?_
          rw [compare_toLex, ← compare_natCast]
          rfl

/-- The rank of a machine float. -/
def floatRank? (a : Float) : Option (ℤ ×ₗ ℤ ×ₗ ℤ) := rank? a.toModel.unpack

theorem float_le_iff_compare {a b : Float} :
    a ≤ b ↔ a.toModel.unpack.le b.toModel.unpack = true := by
  change decide (a.toModel.unpack.le b.toModel.unpack = true) = true ↔ _
  rw [decide_eq_true_iff]

theorem float_lt_iff_compare {a b : Float} :
    a < b ↔ a.toModel.unpack.lt b.toModel.unpack = true := by
  change decide (a.toModel.unpack.lt b.toModel.unpack = true) = true ↔ _
  rw [decide_eq_true_iff]

theorem float_le_iff {a b : Float} :
    a ≤ b ↔ ∃ r s, floatRank? a = some r ∧ floatRank? b = some s ∧ r ≤ s := by
  rw [float_le_iff_compare, UnpackedFloat.le, compare_eq_compare_rank, floatRank?, floatRank?]
  cases rank? a.toModel.unpack with
  | none => simp
  | some r =>
    cases rank? b.toModel.unpack with
    | none => simp
    | some s => simp [Ordering.isLE_iff_ne_gt, compare_gt_iff_gt]

theorem float_lt_iff {a b : Float} :
    a < b ↔ ∃ r s, floatRank? a = some r ∧ floatRank? b = some s ∧ r < s := by
  rw [float_lt_iff_compare, UnpackedFloat.lt, compare_eq_compare_rank, floatRank?, floatRank?]
  cases rank? a.toModel.unpack with
  | none => simp
  | some r =>
    cases rank? b.toModel.unpack with
    | none => simp
    | some s => simp [compare_lt_iff_lt]

theorem isNumber_float_iff {a : Float} : IsNumber a ↔ ∃ r, floatRank? a = some r := by
  rw [IsNumber]
  refine float_le_iff.trans ⟨?_, ?_⟩
  · rintro ⟨r, -, h, -⟩
    exact ⟨r, h⟩
  · rintro ⟨r, h⟩
    exact ⟨r, r, h, h, le_refl r⟩

instance : Ordered Float where
  trans h h' := by
    obtain ⟨r, s, ha, hb, hLe⟩ := float_le_iff.mp h
    obtain ⟨s', t, hb', hc, hLe'⟩ := float_le_iff.mp h'
    obtain rfl := Option.some.inj (hb.symm.trans hb')
    exact float_le_iff.mpr ⟨r, t, ha, hc, hLe.trans hLe'⟩
  left h := by
    obtain ⟨r, s, ha, -, -⟩ := float_le_iff.mp h
    exact isNumber_float_iff.mpr ⟨r, ha⟩
  right h := by
    obtain ⟨r, s, -, hb, -⟩ := float_le_iff.mp h
    exact isNumber_float_iff.mpr ⟨s, hb⟩
  total ha hb := by
    obtain ⟨r, ha⟩ := isNumber_float_iff.mp ha
    obtain ⟨s, hb⟩ := isNumber_float_iff.mp hb
    rcases le_total r s with h | h
    · exact Or.inl (float_le_iff.mpr ⟨r, s, ha, hb, h⟩)
    · exact Or.inr (float_le_iff.mpr ⟨s, r, hb, ha, h⟩)
  lt_iff := by
    intro a b
    constructor
    · intro h
      obtain ⟨r, s, ha, hb, hLt⟩ := float_lt_iff.mp h
      refine ⟨float_le_iff.mpr ⟨r, s, ha, hb, hLt.le⟩, fun hBack => ?_⟩
      obtain ⟨s', r', hb', ha', hGe⟩ := float_le_iff.mp hBack
      rw [ha, Option.some.injEq] at ha'
      rw [hb, Option.some.injEq] at hb'
      subst ha' hb'
      exact hLt.not_ge hGe
    · rintro ⟨h, hNot⟩
      obtain ⟨r, s, ha, hb, -⟩ := float_le_iff.mp h
      refine float_lt_iff.mpr ⟨r, s, ha, hb, lt_of_not_ge fun hGe => ?_⟩
      exact hNot (float_le_iff.mpr ⟨s, r, hb, ha, hGe⟩)
  zero := show (0 : Float) ≤ 0 by decide +kernel

/-! ## NaN and the infinities -/

theorem isNaN_iff_rank? {u : UnpackedFloat} : u.isNaN = true ↔ rank? u = none := by
  cases u <;> simp [rank?, UnpackedFloat.isNaN]

theorem isNumber_iff_isNaN {a : Float} : IsNumber a ↔ a.toModel.unpack.isNaN = false := by
  rw [isNumber_float_iff, ← Option.isSome_iff_exists, ← Option.ne_none_iff_isSome,
    ← Bool.not_eq_true]
  exact not_congr isNaN_iff_rank?.symm

theorem isNaN_unpack_iff {b : BitVec Format.binary64.numBits} :
    (UnpackedFloat.unpack Format.binary64 b).isNaN = true ↔
      UnpackedFloat.unpackExponent b = -1#_ ∧ UnpackedFloat.unpackMantissa b ≠ 0#_ := by
  rw [UnpackedFloat.unpack]
  split_ifs <;> simp_all [UnpackedFloat.isNaN]

/-- Packing makes no NaN. -/
theorem isNaN_unpack_pack (u : UnpackedFloat) : (pack u).unpack.isNaN = u.isNaN := by
  cases u with
  | notANumber => decide +kernel
  | infinity s => cases s <;> decide +kernel
  | zero s => cases s <;> decide +kernel
  | finite s m e hm =>
    refine Bool.eq_false_iff.mpr ?_
    change ¬ (UnpackedFloat.unpack Format.binary64
      (UnpackedFloat.pack Format.binary64 _)).isNaN = true
    rw [isNaN_unpack_iff, not_and_not_right, UnpackedFloat.pack]
    simp only
    split_ifs with hOverflow hNormal
    · intro _
      exact UnpackedFloat.unpackMantissa_packComponents
    · rw [UnpackedFloat.unpackExponent_packComponents]
      intro hMax
      have hSize := congrArg BitVec.toNat hMax
      simp at hSize
      omega
    · rw [UnpackedFloat.unpackExponent_packComponents]
      intro hMax
      exact absurd hMax (by decide)

/-- What is finite after packing was so before. -/
theorem isFinite_of_isFinite_pack {u : UnpackedFloat} (h : (pack u).unpack.isFinite = true) :
    u.isFinite = true := by
  cases u with
  | notANumber => exact absurd h (by decide +kernel)
  | infinity s => cases s <;> exact absurd h (by decide +kernel)
  | zero s => rfl
  | finite s m e hm => rfl

/-! ### Unpacked floats -/

section Unpacked

open UnpackedFloat

variable {spec : Format} {u v : UnpackedFloat}

theorem isNaN_of_isFinite (h : u.isFinite = true) : u.isNaN = false := by
  cases u <;> simp_all [UnpackedFloat.isFinite, UnpackedFloat.isNaN]

theorem isNaN_roundWithAccuracy (s : Sign) (mantissa : ℕ) (exponent : ℤ) (accuracy : Accuracy) :
    (roundWithAccuracy spec s mantissa exponent accuracy).isNaN = false := by
  rw [roundWithAccuracy]
  simp only
  split <;> rfl

theorem isNaN_normalize (mantissa exponent : ℤ) (s : Sign) :
    (UnpackedFloat.normalize spec mantissa exponent s).isNaN = false := by
  rw [UnpackedFloat.normalize]
  split
  · exact isNaN_roundWithAccuracy ..
  · rfl
  · exact isNaN_roundWithAccuracy ..

theorem isNaN_of_isNaN_add (h : (UnpackedFloat.add spec u v).isNaN = false) :
    u.isNaN = false ∧ v.isNaN = false := by
  cases u <;> cases v <;> simp_all [UnpackedFloat.add, UnpackedFloat.isNaN]

theorem isNaN_of_isNaN_sub (h : (UnpackedFloat.sub spec u v).isNaN = false) :
    u.isNaN = false ∧ v.isNaN = false := by
  cases u <;> cases v <;> simp_all [UnpackedFloat.sub, UnpackedFloat.isNaN]

theorem isNaN_of_isNaN_mul (h : (UnpackedFloat.mul spec u v).isNaN = false) :
    u.isNaN = false ∧ v.isNaN = false := by
  cases u <;> cases v <;> simp_all [UnpackedFloat.mul, UnpackedFloat.isNaN]

theorem isNaN_of_isNaN_div (h : (UnpackedFloat.div spec u v).isNaN = false) :
    u.isNaN = false ∧ v.isNaN = false := by
  cases u <;> cases v <;> simp_all [UnpackedFloat.div, UnpackedFloat.isNaN]

theorem isFinite_of_isFinite_add (h : (UnpackedFloat.add spec u v).isFinite = true) :
    u.isFinite = true ∧ v.isFinite = true := by
  cases u with
  | notANumber => exact absurd h (by simp [UnpackedFloat.add, UnpackedFloat.isFinite])
  | infinity s =>
    cases v with
    | infinity t =>
      rw [UnpackedFloat.add] at h
      split at h <;> exact absurd h (by simp [UnpackedFloat.isFinite])
    | _ => exact absurd h (by simp [UnpackedFloat.add, UnpackedFloat.isFinite])
  | zero s => cases v <;> simp_all [UnpackedFloat.add, UnpackedFloat.isFinite]
  | finite s m e hm => cases v <;> simp_all [UnpackedFloat.add, UnpackedFloat.isFinite]

/-- A product with a factor that is finite and not zero is NaN only if the other factor is. -/
theorem isNaN_finite_mul {s : Sign} {m : ℕ} {e : ℤ} {hm : 0 < m} (h : u.isNaN = false) :
    (UnpackedFloat.mul spec (.finite s m e hm) u).isNaN = false := by
  cases u with
  | notANumber => exact absurd h (by simp [UnpackedFloat.isNaN])
  | infinity t => rfl
  | zero t => rfl
  | finite t m' e' hm' => exact isNaN_roundWithAccuracy ..

theorem isNaN_sub_of_isFinite (hu : u.isFinite = true) (hv : v.isNaN = false) :
    (UnpackedFloat.sub spec u v).isNaN = false := by
  cases u with
  | notANumber => exact absurd hu (by simp [UnpackedFloat.isFinite])
  | infinity s => exact absurd hu (by simp [UnpackedFloat.isFinite])
  | zero s =>
    cases v with
    | notANumber => exact absurd hv (by simp [UnpackedFloat.isNaN])
    | infinity t => rfl
    | zero t =>
      rw [UnpackedFloat.sub]
      split <;> rfl
    | finite t m e hm => rfl
  | finite s m e hm =>
    cases v with
    | notANumber => exact absurd hv (by simp [UnpackedFloat.isNaN])
    | infinity t => rfl
    | zero t => rfl
    | finite t m' e' hm' => exact isNaN_normalize ..

theorem eq_minusInfinity_of_not_lt (hNumber : u.isNaN = false)
    (h : ¬ (infinity .negative).lt u = true) : u = .infinity .negative := by
  cases u with
  | notANumber => exact absurd hNumber (by simp [UnpackedFloat.isNaN])
  | infinity s =>
    cases s with
    | negative => rfl
    | positive => exact absurd rfl h
  | zero s => exact absurd rfl h
  | finite s m e hm => exact absurd (by cases s <;> rfl) h

theorem eq_minusInfinity_of_not_pos (hNumber : u.isNaN = false) (hFinite : ¬ u.isFinite = true)
    (h : ¬ (zero .positive).lt u = true) : u = .infinity .negative := by
  cases u with
  | notANumber => exact absurd hNumber (by simp [UnpackedFloat.isNaN])
  | infinity s =>
    cases s with
    | negative => rfl
    | positive => exact absurd rfl h
  | zero s => exact absurd rfl hFinite
  | finite s m e hm => exact absurd rfl hFinite

/-- Nothing finite is up to what minus infinity leaves after a subtraction. -/
theorem not_le_minusInfinity_sub (hu : u.isFinite = true) (v : UnpackedFloat) :
    ¬ u.le (pack (UnpackedFloat.sub Format.binary64 (.infinity .negative) v)).unpack = true := by
  have hNaN : (pack .notANumber).unpack = .notANumber := rfl
  have hInfinity : (pack (.infinity .negative)).unpack = .infinity .negative := rfl
  have hNot : ∀ w, w = .notANumber ∨ w = .infinity .negative → ¬ u.le w = true := by
    rintro w (rfl | rfl)
    · cases u <;> simp [UnpackedFloat.le, UnpackedFloat.compare]
    · cases u with
      | notANumber => exact absurd hu (by simp [UnpackedFloat.isFinite])
      | infinity s => exact absurd hu (by simp [UnpackedFloat.isFinite])
      | zero s => simp [UnpackedFloat.le, UnpackedFloat.compare]
      | finite s m e hm => cases s <;> simp [UnpackedFloat.le, UnpackedFloat.compare]
  refine hNot _ ?_
  cases v with
  | notANumber => exact Or.inl hNaN
  | infinity t =>
    cases t with
    | negative => exact Or.inl hNaN
    | positive => exact Or.inr hInfinity
  | zero t => exact Or.inr hInfinity
  | finite t m e hm => exact Or.inr hInfinity

/-! The floats from zero on. -/

theorem cases_of_zero_le (h : (zero .positive).le u = true) :
    u = .infinity .positive ∨ (∃ s, u = .zero s) ∨ ∃ m e hm, u = .finite .positive m e hm := by
  have hNegative : ∀ {w : UnpackedFloat}, (zero .positive).compare w = some .gt →
      ¬ (zero .positive).le w = true := by
    intro w hw
    simp [UnpackedFloat.le, hw]
  cases u with
  | notANumber => exact absurd h (by simp [UnpackedFloat.le, UnpackedFloat.compare])
  | infinity s =>
    cases s with
    | negative => exact absurd h (hNegative rfl)
    | positive => exact Or.inl rfl
  | zero s => exact Or.inr (Or.inl ⟨s, rfl⟩)
  | finite s m e hm =>
    cases s with
    | negative => exact absurd h (hNegative rfl)
    | positive => exact Or.inr (Or.inr ⟨m, e, hm, rfl⟩)

theorem zero_le_roundWithAccuracy (mantissa : ℕ) (exponent : ℤ) (accuracy : Accuracy) :
    (zero .positive).le (roundWithAccuracy spec .positive mantissa exponent accuracy) = true := by
  rw [roundWithAccuracy]
  simp only
  split <;> rfl

theorem zero_le_normalize {mantissa : ℤ} (h : 0 ≤ mantissa) (exponent : ℤ) :
    (zero .positive).le (UnpackedFloat.normalize spec mantissa exponent .positive) = true := by
  rw [UnpackedFloat.normalize]
  split
  · next hLt => exact absurd (compare_lt_iff_lt.mp hLt) h.not_gt
  · rfl
  · exact zero_le_roundWithAccuracy ..

theorem zero_le_add_unpacked (hu : (zero .positive).le u = true)
    (hv : (zero .positive).le v = true) :
    (zero .positive).le (UnpackedFloat.add spec u v) = true := by
  rcases cases_of_zero_le hu with rfl | ⟨s, rfl⟩ | ⟨m, e, hm, rfl⟩
  · rcases cases_of_zero_le hv with rfl | ⟨t, rfl⟩ | ⟨m', e', hm', rfl⟩ <;> rfl
  · rcases cases_of_zero_le hv with rfl | ⟨t, rfl⟩ | ⟨m', e', hm', rfl⟩
    · rfl
    · cases s <;> cases t <;> rfl
    · rfl
  · rcases cases_of_zero_le hv with rfl | ⟨t, rfl⟩ | ⟨m', e', hm', rfl⟩
    · rfl
    · rfl
    · exact zero_le_normalize (by simp only [Sign.apply]; positivity) _

theorem zero_le_unpack {b : BitVec Format.binary64.numBits} (hSign : unpackSign b = 0#1)
    (hNaN : (UnpackedFloat.unpack Format.binary64 b).isNaN = false) :
    (zero .positive).le (UnpackedFloat.unpack Format.binary64 b) = true := by
  rw [UnpackedFloat.unpack] at hNaN ⊢
  simp only [hSign] at hNaN ⊢
  split_ifs at hNaN ⊢
  · rfl
  · exact absurd hNaN (by simp [UnpackedFloat.isNaN])
  · rfl
  · rfl
  · rfl

theorem zero_le_pack (h : (zero .positive).le u = true) :
    (zero .positive).le (Float.Model.pack u).unpack = true := by
  rcases cases_of_zero_le h with rfl | ⟨s, rfl⟩ | ⟨m, e, hm, rfl⟩
  · rfl
  · cases s <;> rfl
  · refine zero_le_unpack ?_ (isNaN_unpack_pack _)
    change unpackSign (UnpackedFloat.pack Format.binary64 _) = _
    rw [UnpackedFloat.pack]
    simp only
    split_ifs
    · exact unpackSign_packComponents ..
    · exact unpackSign_packComponents ..
    · exact unpackSign_packComponents ..

end Unpacked

/-! ### Machine floats -/

variable {a b : Float}

theorem unpack_add (a b : Float) : (a + b).toModel.unpack =
    (pack (UnpackedFloat.add Format.binary64 a.toModel.unpack b.toModel.unpack)).unpack := rfl

theorem unpack_sub (a b : Float) : (a - b).toModel.unpack =
    (pack (UnpackedFloat.sub Format.binary64 a.toModel.unpack b.toModel.unpack)).unpack := rfl

theorem unpack_mul (a b : Float) : (a * b).toModel.unpack =
    (pack (UnpackedFloat.mul Format.binary64 a.toModel.unpack b.toModel.unpack)).unpack := rfl

theorem unpack_div (a b : Float) : (a / b).toModel.unpack =
    (pack (UnpackedFloat.div Format.binary64 a.toModel.unpack b.toModel.unpack)).unpack := rfl

theorem isNumber_of_isFinite (h : Scalar.isFinite a = true) : IsNumber a :=
  isNumber_iff_isNaN.mpr (isNaN_of_isFinite h)

theorem isNumber_add (h : IsNumber (a + b)) : IsNumber a ∧ IsNumber b := by
  rw [isNumber_iff_isNaN, unpack_add, isNaN_unpack_pack] at h
  rw [isNumber_iff_isNaN, isNumber_iff_isNaN]
  exact isNaN_of_isNaN_add h

theorem isNumber_sub (h : IsNumber (a - b)) : IsNumber a ∧ IsNumber b := by
  rw [isNumber_iff_isNaN, unpack_sub, isNaN_unpack_pack] at h
  rw [isNumber_iff_isNaN, isNumber_iff_isNaN]
  exact isNaN_of_isNaN_sub h

theorem isFinite_add (h : Scalar.isFinite (a + b) = true) :
    Scalar.isFinite a = true ∧ Scalar.isFinite b = true :=
  isFinite_of_isFinite_add (isFinite_of_isFinite_pack h)

theorem isNumber_mul (h : IsNumber (a * b)) : IsNumber a ∧ IsNumber b := by
  rw [isNumber_iff_isNaN, unpack_mul, isNaN_unpack_pack] at h
  rw [isNumber_iff_isNaN, isNumber_iff_isNaN]
  exact isNaN_of_isNaN_mul h

theorem isNumber_div (h : IsNumber (a / b)) : IsNumber a ∧ IsNumber b := by
  rw [isNumber_iff_isNaN, unpack_div, isNaN_unpack_pack] at h
  rw [isNumber_iff_isNaN, isNumber_iff_isNaN]
  exact isNaN_of_isNaN_div h

/-- A sum that is not NaN has no NaN among what is added up. -/
theorem isNumber_of_isNumber_foldl {ι : Type} {f : ι → Float} {l : List ι} {sum : Float}
    (h : IsNumber (l.foldl (fun sum i => sum + f i) sum)) :
    IsNumber sum ∧ ∀ i ∈ l, IsNumber (f i) := by
  induction l generalizing sum with
  | nil => exact ⟨h, fun i hi => absurd hi List.not_mem_nil⟩
  | cons i l ih =>
    obtain ⟨hSum, hRest⟩ := ih h
    obtain ⟨hSum, hi⟩ := isNumber_add hSum
    exact ⟨hSum, List.forall_mem_cons.mpr ⟨hi, hRest⟩⟩

theorem isNumber_neg : IsNumber (-a) ↔ IsNumber a := by
  have hUnpack : (-a).toModel.unpack = (pack a.toModel.unpack.neg).unpack := rfl
  rw [isNumber_iff_isNaN, hUnpack, isNaN_unpack_pack, isNumber_iff_isNaN]
  cases a.toModel.unpack <;> rfl

theorem isNumber_abs : IsNumber (Scalar.abs a) ↔ IsNumber a := by
  have hUnpack : (Scalar.abs a).toModel.unpack = (pack a.toModel.unpack.abs).unpack := rfl
  rw [isNumber_iff_isNaN, hUnpack, isNaN_unpack_pack, isNumber_iff_isNaN]
  cases a.toModel.unpack <;> rfl

theorem float_zero_le_iff : 0 ≤ a ↔ (UnpackedFloat.zero .positive).le a.toModel.unpack = true :=
  float_le_iff_compare

theorem zero_le_add (ha : 0 ≤ a) (hb : 0 ≤ b) : 0 ≤ a + b := by
  rw [float_zero_le_iff] at *
  exact zero_le_pack (zero_le_add_unpacked ha hb)

theorem zero_le_abs (h : IsNumber a) : 0 ≤ Scalar.abs a := by
  rw [isNumber_iff_isNaN] at h
  rw [float_zero_le_iff]
  refine zero_le_pack ?_
  revert h
  cases a.toModel.unpack with
  | notANumber => exact fun h => absurd h (by simp [UnpackedFloat.isNaN])
  | _ => exact fun _ => rfl

/-- Whether a float is finite and not zero. -/
def isRegular (a : Float) : Bool :=
  match a.toModel.unpack with
  | .finite .. => true
  | _ => false

theorem isNumber_mul_of_isRegular (ha : isRegular a = true) (hb : IsNumber b) :
    IsNumber (a * b) := by
  rw [isRegular] at ha
  rw [isNumber_iff_isNaN] at hb ⊢
  rw [unpack_mul, isNaN_unpack_pack]
  split at ha
  · next s m e hm hUnpack =>
    rw [hUnpack]
    exact isNaN_finite_mul hb
  · exact absurd ha (by simp)

theorem isNumber_sub_of_isFinite (ha : Scalar.isFinite a = true) (hb : IsNumber b) :
    IsNumber (a - b) := by
  rw [isNumber_iff_isNaN] at hb ⊢
  rw [unpack_sub, isNaN_unpack_pack]
  exact isNaN_sub_of_isFinite ha hb

/-- Whether a float is minus infinity. -/
def IsMinusInfinity (a : Float) : Prop := a.toModel.unpack = .infinity .negative

theorem isMinusInfinity_of_not (h : IsNumber a)
    (hNot : ¬ (Scalar.isFinite a || decide (0 < a)) = true) : IsMinusInfinity a := by
  rw [Bool.or_eq_true, not_or, decide_eq_true_iff, float_lt_iff_compare] at hNot
  exact eq_minusInfinity_of_not_pos (isNumber_iff_isNaN.mp h) hNot.1 hNot.2

theorem IsMinusInfinity.of_not_lt (ha : IsMinusInfinity a) (hb : IsNumber b) (h : ¬ a < b) :
    IsMinusInfinity b := by
  rw [float_lt_iff_compare, show a.toModel.unpack = _ from ha] at h
  exact eq_minusInfinity_of_not_lt (isNumber_iff_isNaN.mp hb) h

theorem IsMinusInfinity.not_le_sub (hb : IsMinusInfinity b) (ha : Scalar.isFinite a = true)
    (c : Float) : ¬ a ≤ b - c := by
  rw [float_le_iff_compare, unpack_sub, show b.toModel.unpack = _ from hb]
  exact not_le_minusInfinity_sub ha _

end Scalar

end PlaneSketch
