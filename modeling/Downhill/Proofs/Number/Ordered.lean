import Downhill.Proofs.Number.Double
import Downhill.Proofs.Number.Extended
import Mathlib.Data.Prod.Lex

/-!
# Numbers in order

What holds of comparisons whether they are exact or rounded: they put in one order all
numbers, the infinities among them, and leave out what is not a number.  A statement that
needs no more than this holds over the extended reals and over doubles.

Two doubles compare like their signs, their exponents and their mantissas, in this order.
-/

namespace Downhill

/-- Numbers that their comparisons put in one order. -/
class OrderedScalar (α : Type) [Scalar α] : Prop where
  lt_asymm {a b : α} : a < b → ¬b < a
  lt_or_lt {a b c : α} : a < b → Scalar.belowInfinity c → a < c ∨ c < b
  belowInfinity_of_lt {a b : α} : a < b → Scalar.belowInfinity a

namespace Extended

theorem ne_undefined_of_belowInfinity {a : Extended} (h : Scalar.belowInfinity a) :
    a ≠ undefined := by
  rintro rfl
  rcases h with h | h
  · cases h
  · exact h

instance : OrderedScalar Extended where
  lt_asymm {a b} h := by
    match a, b, h with
    | real _, real _, h => exact lt_asymm (real_lt_real.mp h)
    | bot, real _, _ | bot, top, _ | real _, top, _ => exact id
  lt_or_lt {a b c} h hc := by
    match a, b, h, c with
    | real _, real _, h, real z =>
      exact (lt_or_ge _ z).imp_right fun hz => hz.trans_lt (real_lt_real.mp h)
    | _, _, _, undefined => exact absurd rfl (ne_undefined_of_belowInfinity hc)
    | real _, _, _, top | bot, _, _, top | bot, _, _, real _ => exact Or.inl trivial
    | _, real _, _, bot | _, top, _, bot | _, top, _, real _ => exact Or.inr trivial
  belowInfinity_of_lt {a b} h := by
    match a, b, h with
    | real _, _, _ => exact Or.inl rfl
    | bot, _, _ => exact Or.inr trivial

end Extended

namespace Double

open Float.Model

/-- The place of a double in the order.  What is not a number has none. -/
def rank? : UnpackedFloat → Option (ℤ ×ₗ ℤ ×ₗ ℤ)
  | .notANumber => none
  | .infinity .negative => some (toLex (-2, toLex (0, 0)))
  | .finite .negative m e _ => some (toLex (-1, toLex (-e, -m)))
  | .zero _ => some (toLex (0, toLex (0, 0)))
  | .finite .positive m e _ => some (toLex (1, toLex (e, m)))
  | .infinity .positive => some (toLex (2, toLex (0, 0)))

/-- Doubles compare like their places. -/
theorem compare_eq_lt_iff {a b : UnpackedFloat} :
    a.compare b = some .lt ↔ ∃ r s, rank? a = some r ∧ rank? b = some s ∧ r < s := by
  have hsign : compare UnpackedFloat.Sign.negative UnpackedFloat.Sign.positive = .lt := rfl
  -- The sign decides, unless both are finite and of one sign.
  rcases a with ⟨_ | _⟩ | _ | _ | ⟨_ | _, m, e, hm⟩ <;>
    rcases b with ⟨_ | _⟩ | _ | _ | ⟨_ | _, m', e', hm'⟩ <;>
    dsimp only [UnpackedFloat.compare, rank?] <;>
    simp [Prod.Lex.toLex_lt_toLex, Ordering.then_eq_lt, Ordering.then_eq_gt, compare_lt_iff_lt,
      compare_gt_iff_gt, hsign]

theorem lt_iff_rank {x y : Float} :
    x < y ↔ ∃ r s, rank? x.toModel.unpack = some r ∧ rank? y.toModel.unpack = some s ∧ r < s := by
  rw [lt_iff]
  exact beq_iff_eq.trans compare_eq_lt_iff

theorem exists_rank_of_isFinite {a : UnpackedFloat} (h : a.isFinite = true) :
    ∃ r, rank? a = some r := by
  cases a with
  | infinity sign | notANumber => cases h
  | zero sign => exact ⟨_, rfl⟩
  | finite sign m e hm => cases sign <;> exact ⟨_, rfl⟩

theorem exists_rank_of_belowInfinity {x : Float} (h : Scalar.belowInfinity x) :
    ∃ r, rank? x.toModel.unpack = some r := by
  rcases h with hfinite | hneg
  · exact exists_rank_of_isFinite hfinite
  · obtain ⟨r, -, hr, -, -⟩ := lt_iff_rank.mp hneg
    exact ⟨r, hr⟩

/-- Only the negative infinity lies below a number and is not finite. -/
theorem isFinite_or_lt_zero {a b : UnpackedFloat} (h : a.compare b = some .lt) :
    a.isFinite = true ∨ a.lt (.zero .positive) = true := by
  cases a with
  | infinity sign =>
    cases sign with
    | negative => exact Or.inr rfl
    | positive =>
      cases b with
      | infinity sign => cases sign <;> cases h
      | notANumber | zero sign | finite sign m e hm => cases h
  | notANumber => cases h
  | zero sign | finite sign m e hm => exact Or.inl rfl

instance : OrderedScalar Float where
  lt_asymm hab hba := by
    obtain ⟨r, s, ha, hb, hlt⟩ := lt_iff_rank.mp hab
    obtain ⟨s', r', hb', ha', hlt'⟩ := lt_iff_rank.mp hba
    rw [ha, Option.some.injEq] at ha'
    rw [hb, Option.some.injEq] at hb'
    rw [← ha', ← hb'] at hlt'
    exact lt_asymm hlt hlt'
  lt_or_lt hab hc := by
    obtain ⟨r, s, ha, hb, hlt⟩ := lt_iff_rank.mp hab
    obtain ⟨t, ht⟩ := exists_rank_of_belowInfinity hc
    rw [lt_iff_rank, lt_iff_rank]
    rcases lt_or_ge r t with hrt | htr
    · exact Or.inl ⟨r, t, ha, ht, hrt⟩
    · exact Or.inr ⟨t, s, ht, hb, htr.trans_lt hlt⟩
  belowInfinity_of_lt h := by
    rw [lt_iff] at h
    exact (isFinite_or_lt_zero (beq_iff_eq.mp h)).imp_right lt_iff.mpr

end Double

end Downhill
