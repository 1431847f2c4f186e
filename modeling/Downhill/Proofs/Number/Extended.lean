import Downhill.Proofs.Number.Numeral
import Downhill.Scalar
import Mathlib.Analysis.Real.Sqrt
import Mathlib.Data.Int.Log
import Mathlib.Tactic.Linarith

/-!
# Real numbers with values that are not finite

Exact arithmetic for methods that meet values which are not finite: the real
numbers, two infinities, and a value that is not a number.  Operations on real
numbers are exact, zero has no sign, and all others follow the rules of
floating-point arithmetic.  A comparison with what is not a number does not hold.

The lemmas on `real` push every operation on real numbers inside, so that a goal
about them becomes one of the real field.
-/

namespace Downhill

/-- A real number, an infinity, or no number at all. -/
inductive Extended
  | real (x : ℝ)
  | top
  | bot
  | undefined

noncomputable section

namespace Extended

/-- The infinity with the sign of a number.  Zero leaves the sign open. -/
def infinity (x : ℝ) : Extended := if 0 < x then top else if x < 0 then bot else undefined

def add : Extended → Extended → Extended
  | real x, real y => real (x + y)
  | undefined, _ | _, undefined => undefined
  | top, bot | bot, top => undefined
  | top, _ | _, top => top
  | bot, _ | _, bot => bot

def neg : Extended → Extended
  | real x => real (-x)
  | top => bot
  | bot => top
  | undefined => undefined

def mul : Extended → Extended → Extended
  | real x, real y => real (x * y)
  | undefined, _ | _, undefined => undefined
  | real x, top | top, real x => infinity x
  | real x, bot | bot, real x => infinity (-x)
  | top, top | bot, bot => top
  | top, bot | bot, top => bot

/-- Division by zero takes the sign of the dividend. -/
def div : Extended → Extended → Extended
  | real x, real y => if y = 0 then infinity x else real (x / y)
  | real _, top | real _, bot => real 0
  | top, real y => if y < 0 then bot else top
  | bot, real y => if y < 0 then top else bot
  | _, _ => undefined

def lt : Extended → Extended → Prop
  | real x, real y => x < y
  | bot, real _ | bot, top | real _, top => True
  | _, _ => False

def le : Extended → Extended → Prop
  | real x, real y => x ≤ y
  | bot, real _ | bot, top | real _, top | bot, bot | top, top => True
  | _, _ => False

def beq : Extended → Extended → Bool
  | real x, real y => decide (x = y)
  | top, top | bot, bot => true
  | _, _ => false

def abs : Extended → Extended
  | real x => real |x|
  | top | bot => top
  | undefined => undefined

def sqrt : Extended → Extended
  | real x => if x < 0 then undefined else real √x
  | top => top
  | bot | undefined => undefined

def isFinite : Extended → Bool
  | real _ => true
  | _ => false

def isNaN : Extended → Bool
  | undefined => true
  | _ => false

/-- The exponent of a real number.  What is not finite has none. -/
def binade : Extended → Int
  | real x => Int.log 2 |x|
  | _ => 0

instance : Add Extended := ⟨add⟩
instance : Sub Extended := ⟨fun a b => a.add b.neg⟩
instance : Mul Extended := ⟨mul⟩
instance : Div Extended := ⟨div⟩
instance : Neg Extended := ⟨neg⟩
instance : Zero Extended := ⟨real 0⟩
instance : One Extended := ⟨real 1⟩
instance : NatCast Extended := ⟨fun n => real n⟩
instance : OfScientific Extended := ⟨fun m s e => real (OfScientific.ofScientific m s e)⟩
instance : LT Extended := ⟨lt⟩
instance : LE Extended := ⟨le⟩
instance : BEq Extended := ⟨beq⟩

instance : Scalar Extended where
  decLt a b := Classical.propDecidable (a < b)
  decLe a b := Classical.propDecidable (a ≤ b)
  abs := abs
  sqrt := sqrt
  isFinite := isFinite
  isNaN := isNaN
  binade := binade

/-! ## Operations on real numbers -/

@[simp] theorem real_inj {x y : ℝ} : real x = real y ↔ x = y := ⟨real.inj, congrArg real⟩

theorem zero_eq : (0 : Extended) = real 0 := rfl

theorem one_eq : (1 : Extended) = real 1 := rfl

theorem ofScientific_eq (m : Nat) (s : Bool) (e : Nat) :
    (OfScientific.ofScientific m s e : Extended) = real (OfScientific.ofScientific m s e) := rfl

@[simp] theorem real_add (x y : ℝ) : real x + real y = real (x + y) := rfl

@[simp] theorem real_sub (x y : ℝ) : real x - real y = real (x - y) :=
  congrArg real (sub_eq_add_neg x y).symm

@[simp] theorem real_mul (x y : ℝ) : real x * real y = real (x * y) := rfl

@[simp] theorem real_neg (x : ℝ) : -real x = real (-x) := rfl

theorem two_mul_real (x : ℝ) : (2.0 : Extended) * real x = real (2 * x) := by
  rw [ofScientific_eq, real_mul]
  norm_num

theorem real_div (x : ℝ) {y : ℝ} (hy : y ≠ 0) : real x / real y = real (x / y) := if_neg hy

@[simp] theorem real_lt_real {x y : ℝ} : real x < real y ↔ x < y := Iff.rfl

@[simp] theorem real_le_real {x y : ℝ} : real x ≤ real y ↔ x ≤ y := Iff.rfl

@[simp] theorem real_beq_real (x y : ℝ) : (real x == real y) = decide (x = y) := rfl

@[simp] theorem abs_real (x : ℝ) : Scalar.abs (real x) = real |x| := rfl

@[simp] theorem isFinite_real (x : ℝ) : Scalar.isFinite (real x) = true := rfl

@[simp] theorem isNaN_real (x : ℝ) : Scalar.isNaN (real x) = false := rfl

@[simp] theorem binade_real (x : ℝ) : Scalar.binade (real x) = Int.log 2 |x| := rfl

@[simp] theorem larger_real (x y : ℝ) : Scalar.larger (real x) (real y) = real (max x y) := by
  unfold Scalar.larger
  rcases lt_or_ge x y with h | h
  · rw [if_pos (real_lt_real.mpr h), max_eq_right h.le]
  · rw [if_neg (mt real_lt_real.mp (not_lt.mpr h)), max_eq_left h]

@[simp] theorem smaller_real (x y : ℝ) : Scalar.smaller (real x) (real y) = real (min x y) := by
  unfold Scalar.smaller
  rcases lt_or_ge y x with h | h
  · rw [if_pos (real_lt_real.mpr h), min_eq_right h.le]
  · rw [if_neg (mt real_lt_real.mp (not_lt.mpr h)), min_eq_left h]

@[simp] theorem maximum_real (x y : ℝ) : Scalar.maximum (real x) (real y) = real (max x y) :=
  larger_real x y

@[simp] theorem minimum_real (x y : ℝ) : Scalar.minimum (real x) (real y) = real (min x y) :=
  smaller_real x y

/-- The length of a negative number would not be a real one. -/
theorem sqrt_real {x : ℝ} (hx : 0 ≤ x) : Scalar.sqrt (real x) = real √x :=
  if_neg (not_lt.mpr hx)

/-! ## Values that are not finite -/

@[simp] theorem maximum_bot (a : Extended) : Scalar.maximum a bot = a := by
  cases a with
  | undefined => rfl
  | real x | top | bot => exact if_neg id

@[simp] theorem minimum_top (a : Extended) : Scalar.minimum a top = a := by
  cases a with
  | undefined => rfl
  | real x | top | bot => exact if_neg id

theorem eq_real_of_isFinite {a : Extended} (h : Scalar.isFinite a = true) : ∃ x, a = real x := by
  cases a with
  | real x => exact ⟨x, rfl⟩
  | top | bot | undefined => cases h

theorem eq_real_of_le {a : Extended} {x y : ℝ} (hx : real x ≤ a) (hy : a ≤ real y) :
    ∃ z, a = real z ∧ x ≤ z ∧ z ≤ y := by
  cases a with
  | real z => exact ⟨z, rfl, hx, hy⟩
  | top => exact hy.elim
  | bot => exact hx.elim
  | undefined => exact hx.elim

theorem eq_real_of_lt {a : Extended} {x y : ℝ} (hx : real x < a) (hy : a < real y) :
    ∃ z, a = real z ∧ x < z ∧ z < y := by
  cases a with
  | real z => exact ⟨z, rfl, hx, hy⟩
  | top => exact hy.elim
  | bot => exact hx.elim
  | undefined => exact hx.elim

theorem le_refl_of_pos {a : Extended} (h : 0 < a) : a ≤ a := by
  cases a with
  | real x => exact le_rfl (a := x)
  | top => trivial
  | bot | undefined => exact h.elim

protected theorem le_of_lt {a b : Extended} (h : a < b) : a ≤ b := by
  match a, b, h with
  | real _, real _, h => exact (real_lt_real.mp h).le
  | bot, real _, _ | bot, top, _ | real _, top, _ => trivial

theorem eq_real_or_top_of_pos {a : Extended} (h : 0 < a) : (∃ x, a = real x ∧ 0 < x) ∨ a = top := by
  cases a with
  | real x => exact Or.inl ⟨x, rfl, h⟩
  | top => exact Or.inr rfl
  | bot | undefined => exact h.elim

theorem eq_real_of_pos_of_lt {a b : Extended} (ha : 0 < a) (hab : a < b) :
    ∃ x, a = real x ∧ 0 < x := by
  rcases eq_real_or_top_of_pos ha with h | rfl
  · exact h
  · cases b <;> exact hab.elim

/-- What is positive compares with every real number. -/
protected theorem le_of_not_lt {a : Extended} {x : ℝ} (ha : 0 < a) (h : ¬a < real x) :
    real x ≤ a := by
  rcases eq_real_or_top_of_pos ha with ⟨y, rfl, -⟩ | rfl
  · exact not_lt.mp (mt real_lt_real.mpr h)
  · trivial

protected theorem le_trans {a b c : Extended} (hab : a ≤ b) (hbc : b ≤ c) : a ≤ c := by
  cases b with
  | real y =>
    match a, c, hab, hbc with
    | real _, real _, hab, hbc => exact (real_le_real.mp hab).trans hbc
    | real _, top, _, _ | bot, real _, _, _ | bot, top, _, _ => trivial
  | top =>
    match c, hbc with
    | top, _ => exact hab
  | bot =>
    match a, hab with
    | bot, _ => exact hbc
  | undefined => exact hbc.elim

theorem eq_zero_of_le_of_ge {a : Extended} (hle : a ≤ 0) (hge : 0 ≤ a) : a = 0 := by
  match a, hle, hge with
  | real _, hle, hge => exact congrArg real (le_antisymm (real_le_real.mp hle) hge)

theorem isFinite_infinity (x : ℝ) : Scalar.isFinite (infinity x) = false := by
  show isFinite (infinity x) = false
  unfold infinity
  split_ifs <;> rfl

theorem isFinite_top_mul (a : Extended) : Scalar.isFinite (top * a) = false := by
  cases a with
  | real x => exact isFinite_infinity x
  | top | bot | undefined => rfl

theorem isFinite_of_sub {a b : Extended} (h : Scalar.isFinite (a - b) = true) :
    Scalar.isFinite a = true ∧ Scalar.isFinite b = true := by
  cases a <;> cases b <;> first | exact ⟨rfl, rfl⟩ | cases h

theorem isFinite_of_mul {a b : Extended} (h : Scalar.isFinite (a * b) = true) :
    Scalar.isFinite a = true ∧ Scalar.isFinite b = true := by
  cases a with
  | real x =>
    cases b with
    | real y => exact ⟨rfl, rfl⟩
    | top => exact absurd ((isFinite_infinity x).symm.trans h) Bool.false_ne_true
    | bot => exact absurd ((isFinite_infinity (-x)).symm.trans h) Bool.false_ne_true
    | undefined => cases h
  | top => exact absurd ((isFinite_top_mul b).symm.trans h) Bool.false_ne_true
  | bot =>
    cases b with
    | real y => exact absurd ((isFinite_infinity (-y)).symm.trans h) Bool.false_ne_true
    | top | bot | undefined => cases h
  | undefined => cases h

theorem isFinite_div {a : Extended} (h : Scalar.isFinite a = false) (b : Extended) :
    Scalar.isFinite (a / b) = false := by
  match a, b with
  | real _, _ => cases h
  | top, real y =>
    show isFinite (if y < 0 then bot else top) = false
    split_ifs <;> rfl
  | bot, real y =>
    show isFinite (if y < 0 then top else bot) = false
    split_ifs <;> rfl
  | top, top | top, bot | top, undefined | bot, top | bot, bot | bot, undefined
  | undefined, _ => rfl

theorem top_sub {a : Extended} (h : Scalar.isFinite a = false) :
    top - a = top ∨ top - a = undefined := by
  cases a with
  | real x => cases h
  | bot => exact Or.inl rfl
  | top | undefined => exact Or.inr rfl

protected theorem lt_irrefl (a : Extended) : ¬a < a := by
  cases a with
  | real x => exact lt_irrefl x
  | top | bot | undefined => exact id

theorem zero_add_mul_one (a : Extended) : 0 + a * 1 = a := by
  cases a with
  | real x => exact congrArg real (by rw [mul_one, zero_add])
  | top =>
    have h : top * 1 = top := if_pos one_pos
    rw [h]
    rfl
  | bot =>
    have h : bot * 1 = bot := by
      show infinity (-1) = bot
      rw [infinity, if_neg (by linarith), if_pos (by linarith)]
    rw [h]
    rfl
  | undefined => rfl

theorem nonneg_mul_pos {a : Extended} {x : ℝ} (hx : 0 < x) : 0 ≤ a * real x ↔ 0 ≤ a := by
  cases a with
  | real y => exact mul_nonneg_iff_of_pos_right hx
  | top =>
    have h : top * real x = top := if_pos hx
    rw [h]
  | bot =>
    have h : bot * real x = bot := by
      show infinity (-x) = bot
      rw [infinity, if_neg (by linarith), if_pos (by linarith)]
    rw [h]
  | undefined => exact Iff.rfl

theorem nonneg_mul_neg {a : Extended} {x : ℝ} (hx : x < 0) : 0 ≤ a * real x ↔ a ≤ 0 := by
  cases a with
  | real y =>
    exact ⟨fun h => nonpos_of_mul_nonneg_left h hx,
      fun h => mul_nonneg_of_nonpos_of_nonpos h hx.le⟩
  | top =>
    have h : top * real x = bot := by
      show infinity x = bot
      rw [infinity, if_neg (by linarith), if_pos hx]
    rw [h]
    exact iff_of_false id id
  | bot =>
    have h : bot * real x = top := by
      show infinity (-x) = top
      rw [infinity, if_pos (by linarith)]
    rw [h]
    exact iff_of_true trivial trivial
  | undefined => exact Iff.rfl

theorem nonneg_mul_congr {a : Extended} {x y : ℝ} (h : 0 < x * y) :
    0 ≤ a * real x ↔ 0 ≤ a * real y := by
  rcases pos_and_pos_or_neg_and_neg_of_mul_pos h with ⟨hx, hy⟩ | ⟨hx, hy⟩
  · rw [nonneg_mul_pos hx, nonneg_mul_pos hy]
  · rw [nonneg_mul_neg hx, nonneg_mul_neg hy]

/-- Equal by test is equal.  The converse fails for what is not a number. -/
theorem eq_of_beq {a b : Extended} (h : (a == b) = true) : a = b := by
  match a, b, h with
  | real _, real _, h => exact congrArg real (of_decide_eq_true h)
  | top, top, _ | bot, bot, _ => rfl

/-! ## Raising by a real number -/

/-- The number raised by a real one.  What is not finite stays as it is. -/
def raise (K : ℝ) (a : Extended) : Extended := a + real K

variable (K : ℝ) (a b : Extended)

@[simp] theorem raise_lt_raise : raise K a < raise K b ↔ a < b := by
  cases a <;> cases b <;> first | rfl | exact add_lt_add_iff_right K

@[simp] theorem raise_le_raise : raise K a ≤ raise K b ↔ a ≤ b := by
  cases a <;> cases b <;> first | rfl | exact add_le_add_iff_right K

@[simp] theorem raise_sub_raise : raise K a - raise K b = a - b := by
  cases a <;> cases b <;> first | rfl | exact congrArg real (by ring)

theorem raise_add : raise K a + b = raise K (a + b) := by
  cases a <;> cases b <;> first | rfl | exact congrArg real (by ring)

theorem add_raise : a + raise K b = raise K (a + b) := by
  cases a <;> cases b <;> first | rfl | exact congrArg real (by ring)

@[simp] theorem isFinite_raise : Scalar.isFinite (raise K a) = Scalar.isFinite a := by
  cases a <;> rfl

@[simp] theorem belowInfinity_raise :
    Scalar.belowInfinity (raise K a) ↔ Scalar.belowInfinity a := by
  cases a with
  | real x => exact iff_of_true (Or.inl rfl) (Or.inl rfl)
  | top | bot | undefined => rfl

end Extended

end

end Downhill
