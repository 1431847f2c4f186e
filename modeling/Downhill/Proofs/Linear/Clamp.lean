import Downhill.Proofs.Linear.Box

/-!
# Clamped points

Whatever is brought into an accepted box lies in it: every coordinate that is a number
is between the bounds that hold for it.  Bounds with a single entry hold for every
coordinate, and nothing is assumed about the size of the point.
-/

namespace Downhill

namespace Extended

variable {a b : Extended}

theorem le_self (h : Scalar.isNaN a = false) : a ≤ a := by
  cases a with
  | real x => exact le_rfl (a := x)
  | top | bot => trivial
  | undefined => cases h

theorem bot_le (h : Scalar.isNaN a = false) : bot ≤ a := by
  cases a with
  | real x | top | bot => trivial
  | undefined => cases h

theorem le_top (h : Scalar.isNaN a = false) : a ≤ top := by
  cases a with
  | real x | top | bot => trivial
  | undefined => cases h

/-- Numbers can be compared. -/
theorem le_of_not_gt (ha : Scalar.isNaN a = false) (hb : Scalar.isNaN b = false) (h : ¬a < b) :
    b ≤ a := by
  match a, b with
  | real x, real y => exact not_lt.mp (mt real_lt_real.mpr h)
  | real _, bot | top, real _ | top, bot | bot, bot | top, top => trivial
  | real _, top | bot, real _ | bot, top => exact absurd trivial h
  | undefined, _ => cases ha
  | real _, undefined | top, undefined | bot, undefined => cases hb

/-- The maximum with a number, if it is one, is at least that number. -/
theorem le_maximum (hb : Scalar.isNaN b = false)
    (hnumber : Scalar.isNaN (Scalar.maximum a b) = false) : b ≤ Scalar.maximum a b := by
  have ha : Scalar.isNaN a = false := by
    by_contra hnan
    have hnan := Bool.eq_true_of_not_eq_false hnan
    rw [Scalar.maximum, if_pos hnan, hnan] at hnumber
    cases hnumber
  have hlarger : Scalar.maximum a b = Scalar.larger a b := by
    rw [Scalar.maximum, if_neg (Bool.eq_false_iff.mp ha), if_neg (Bool.eq_false_iff.mp hb)]
  rw [hlarger, Scalar.larger]
  split_ifs with h
  · exact le_self hb
  · exact le_of_not_gt ha hb h

/-- The minimum with a number, if it is one, is at most that number, and one of the two. -/
theorem minimum_le (hb : Scalar.isNaN b = false)
    (hnumber : Scalar.isNaN (Scalar.minimum a b) = false) :
    Scalar.minimum a b ≤ b ∧ (Scalar.minimum a b = a ∨ Scalar.minimum a b = b) := by
  have ha : Scalar.isNaN a = false := by
    by_contra hnan
    have hnan := Bool.eq_true_of_not_eq_false hnan
    rw [Scalar.minimum, if_pos hnan, hnan] at hnumber
    cases hnumber
  have hsmaller : Scalar.minimum a b = Scalar.smaller a b := by
    rw [Scalar.minimum, if_neg (Bool.eq_false_iff.mp ha), if_neg (Bool.eq_false_iff.mp hb)]
  rw [hsmaller, Scalar.smaller]
  split_ifs with h
  · exact ⟨le_self hb, Or.inr rfl⟩
  · exact ⟨le_of_not_gt hb ha h, Or.inl rfl⟩

end Extended

/-! ## Entries of a combination -/

namespace Vec

variable {α : Type} {f : α → α → α} {x y z : Vec α} {i : Nat} {c : α}

theorem exists_of_combine (h : combine f x y = .ok z) (hc : z[i]? = some c) :
    ∃ a b, x[x.place i]? = some a ∧ y[y.place i]? = some b ∧ c = f a b := by
  unfold combine at h
  split at h
  case isTrue hlength =>
    cases h
    obtain ⟨a, b, ha, hb, rfl⟩ := List.getElem?_zipWith_eq_some.mp hc
    have hi : i < x.length := (List.getElem?_eq_some_iff.mp ha).1
    have hx : x.place i = i := by unfold place; split <;> omega
    have hy : y.place i = i := by unfold place; split <;> omega
    rw [hx, hy]
    exact ⟨a, b, ha, hb, rfl⟩
  case isFalse hlength =>
    split at h
    · cases h
      rw [List.getElem?_map, Option.map_eq_some_iff] at hc
      obtain ⟨b, hb, rfl⟩ := hc
      have hy : y.place i = i := if_neg fun hone => hlength hone.symm
      rw [hy]
      exact ⟨_, b, rfl, hb, rfl⟩
    · cases h
      rw [List.getElem?_map, Option.map_eq_some_iff] at hc
      obtain ⟨a, ha, rfl⟩ := hc
      have hx : x.place i = i := if_neg hlength
      rw [hx]
      exact ⟨a, _, ha, rfl, rfl⟩
    · cases h

/-- A combination has a single entry only if both operands have. -/
theorem length_eq_one_of_combine (h : combine f x y = .ok z) (hz : z.length = 1) :
    y.length = 1 := by
  unfold combine at h
  split at h
  case isTrue hlength =>
    cases h
    rw [List.length_zipWith] at hz
    omega
  case isFalse =>
    split at h
    · cases h
      rw [List.length_map] at hz
      exact hz
    · rfl
    · cases h

end Vec

/-! ## Points in a box -/

namespace Box

open Extended

variable {box : Box Extended} {x y : Vec Extended} {i : Nat} {a l u : Extended}

/-- Every coordinate that is a number lies between its bounds. -/
def Holds (box : Box Extended) (x : Vec Extended) : Prop :=
  ∀ i a, x[i]? = some a → Scalar.isNaN a = false →
    entryAt box.lower bot i ≤ a ∧ a ≤ entryAt box.upper top i

theorem entryAt_of_getElem? {entries : Vec Extended} {default : Extended}
    (h : entries[entries.place i]? = some a) : entryAt (some entries) default i = a := by
  show entries.getD (entries.place i) default = a
  rw [List.getD_eq_getElem?_getD, h]
  rfl

/-- An entry of a bound is one of the listed ones or the default. -/
theorem entryAt_cases (bound : Option (Vec Extended)) (default : Extended) (i : Nat) :
    (∃ entries a, bound = some entries ∧ entries[entries.place i]? = some a ∧
      entryAt bound default i = a) ∨ entryAt bound default i = default := by
  cases bound with
  | none => exact Or.inr rfl
  | some entries =>
    cases h : entries[entries.place i]? with
    | some a => exact Or.inl ⟨entries, a, rfl, h, entryAt_of_getElem? h⟩
    | none =>
      refine Or.inr ?_
      show entries.getD (entries.place i) default = default
      rw [List.getD_eq_getElem?_getD, h]
      rfl

/-- A box as it is accepted from bounds that are written down. -/
def Accepted (box : Box Extended) : Prop := ∃ lower upper, ofBounds lower upper = .ok box

namespace Accepted

theorem isNaN_lower (h : box.Accepted) (i : Nat) :
    Scalar.isNaN (entryAt box.lower bot i) = false := by
  obtain ⟨lower, upper, h⟩ := h
  obtain ⟨listed, hlower, h⟩ := Fault.bind_eq_ok_iff.mp h
  obtain ⟨_, -, h⟩ := Fault.bind_eq_ok_iff.mp h
  obtain ⟨_, -, h⟩ := Fault.bind_eq_ok_iff.mp h
  cases h
  rcases entryAt_cases listed bot i with ⟨entries, a, rfl, ha, heq⟩ | heq
  · rw [heq]
    exact not_isNaN_of_readBound hlower a (List.mem_of_getElem? ha)
  · rw [heq]
    rfl

theorem isNaN_upper (h : box.Accepted) (i : Nat) :
    Scalar.isNaN (entryAt box.upper top i) = false := by
  obtain ⟨lower, upper, h⟩ := h
  obtain ⟨_, -, h⟩ := Fault.bind_eq_ok_iff.mp h
  obtain ⟨listed, hupper, h⟩ := Fault.bind_eq_ok_iff.mp h
  obtain ⟨_, -, h⟩ := Fault.bind_eq_ok_iff.mp h
  cases h
  rcases entryAt_cases listed top i with ⟨entries, a, rfl, ha, heq⟩ | heq
  · rw [heq]
    exact not_isNaN_of_readBound hupper a (List.mem_of_getElem? ha)
  · rw [heq]
    rfl

theorem not_lt (h : box.Accepted) (i : Nat) :
    ¬entryAt box.upper top i < entryAt box.lower bot i := by
  obtain ⟨lower, upper, h⟩ := h
  obtain ⟨lo, -, h⟩ := Fault.bind_eq_ok_iff.mp h
  obtain ⟨up, -, h⟩ := Fault.bind_eq_ok_iff.mp h
  obtain ⟨_, horder, h⟩ := Fault.bind_eq_ok_iff.mp h
  cases h
  rcases entryAt_cases lo bot i with ⟨lo, l, rfl, hl, heq⟩ | heq
  · rcases entryAt_cases up top i with ⟨up, u, rfl, hu, heq'⟩ | heq'
    · obtain ⟨_, -, hcrosses⟩ := Fault.bind_eq_ok_iff.mp horder
      rw [heq, heq']
      exact not_lt_of_not_crosses_at (Fault.refuse_eq_ok_iff.mp hcrosses) hl hu
    · rw [heq']
      exact not_top_lt _
  · rw [heq]
    exact not_lt_bot _

theorem le (h : box.Accepted) (i : Nat) :
    entryAt box.lower bot i ≤ entryAt box.upper top i :=
  le_of_not_gt (h.isNaN_upper i) (h.isNaN_lower i) (h.not_lt i)

end Accepted

/-! ## Clamping -/

theorem le_of_raise (h : box.Accepted) (hraise : box.raise x = .ok y) (ha : y[i]? = some a)
    (hnumber : Scalar.isNaN a = false) : entryAt box.lower bot i ≤ a := by
  have hlower := h.isNaN_lower i
  unfold raise at hraise
  cases hbound : box.lower with
  | none => exact bot_le hnumber
  | some bound =>
    rw [hbound] at hraise hlower
    obtain ⟨b, l, -, hl, rfl⟩ := Vec.exists_of_combine hraise ha
    rw [entryAt_of_getElem? hl] at hlower ⊢
    exact le_maximum hlower hnumber

/-- The bound that holds for an entry before it is lowered also holds for it after that. -/
theorem entryAt_of_raise (hraise : box.raise x = .ok y) (hy : y.length = 1) (default : Extended)
    (i : Nat) : entryAt box.lower default 0 = entryAt box.lower default i := by
  unfold raise at hraise
  cases hbound : box.lower with
  | none => rfl
  | some bound =>
    rw [hbound] at hraise
    have hone := Vec.length_eq_one_of_combine hraise hy
    unfold entryAt
    dsimp only
    rw [if_pos hone, if_pos hone]

theorem holds_of_clamp (h : box.Accepted) (hclamp : box.clamp x = .ok y) : box.Holds y := by
  intro i a ha hnumber
  obtain ⟨raised, hraise, hcap⟩ := Fault.bind_eq_ok_iff.mp hclamp
  unfold cap at hcap
  have hupper := h.isNaN_upper i
  have hle := h.le i
  cases hbound : box.upper with
  | none =>
    rw [hbound] at hcap
    obtain rfl := Except.ok.inj hcap
    exact ⟨le_of_raise h hraise ha hnumber, le_top hnumber⟩
  | some bound =>
    rw [hbound] at hcap hupper hle
    obtain ⟨r, u, hr, hu, rfl⟩ := Vec.exists_of_combine hcap ha
    rw [entryAt_of_getElem? hu] at hupper hle ⊢
    obtain ⟨hlowered, hkept | hcut⟩ := minimum_le hupper hnumber
    · refine ⟨?_, hlowered⟩
      rw [hkept] at hnumber ⊢
      have hlow := le_of_raise h hraise hr hnumber
      -- A single raised entry is repeated over the upper bounds, so its place is another one.
      unfold Vec.place at hlow
      split at hlow
      · next hone => rwa [entryAt_of_raise hraise hone bot i] at hlow
      · exact hlow
    · refine ⟨?_, hlowered⟩
      rw [hcut]
      exact hle

end Box

end Downhill
