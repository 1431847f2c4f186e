import Downhill.Box
import Downhill.Proofs.Linear.Reals

/-!
# Boxes around vectors of real numbers

Every coordinate of a point is bounded by a number from below and by one from above,
which may be infinite.  Bringing the point into the box moves each coordinate to the
nearest number between its bounds.
-/

namespace Downhill

/-- The number of a set that is nearest to a given one: it lies between that and every
number of the set. -/
structure Nearest (set : Set ℝ) (w y : ℝ) : Prop where
  mem : y ∈ set
  side : ∀ z ∈ set, (w ≤ y ∧ y ≤ z) ∨ (z ≤ y ∧ y ≤ w)

theorem Nearest.eq_of_mem {set : Set ℝ} {w y : ℝ} (h : Nearest set w y) (hw : w ∈ set) : y = w := by
  rcases h.side w hw with ⟨hwy, hyw⟩ | ⟨hwy, hyw⟩
  · exact le_antisymm hyw hwy
  · exact le_antisymm hyw hwy

/-- Where an entry is found that may be repeated. -/
def Vec.place {α : Type} (x : Vec α) (i : Nat) : Nat := if x.length = 1 then 0 else i

namespace Box

open Extended

variable {n : Nat}

/-- The entry of a bound for a coordinate, if there is a bound. -/
def entryAt (bound : Option (Vec Extended)) (default : Extended) (i : Nat) : Extended :=
  match bound with
  | none => default
  | some entries => entries.getD (if entries.length = 1 then 0 else i) default

/-- The numbers that a coordinate of a point in the box can take. -/
def between (box : Box Extended) (i : Nat) : Set ℝ :=
  {z | entryAt box.lower bot i ≤ real z ∧ real z ≤ entryAt box.upper top i}

/-- The real points of the box. -/
def region (box : Box Extended) (n : Nat) : Set (Fin n → ℝ) :=
  {z | ∀ i : Fin n, z i ∈ box.between i}

/-! ## The nearest number -/

theorem exists_raised {l : Extended} {z₀ : ℝ} (w : ℝ) (hl : l ≤ real z₀) :
    ∃ m, Scalar.maximum (real w) l = real m ∧ w ≤ m ∧ l ≤ real m ∧
      (m = w ∨ ∀ z, l ≤ real z → m ≤ z) := by
  cases l with
  | real l =>
    refine ⟨max w l, maximum_real w l, le_max_left w l, le_max_right w l, ?_⟩
    rcases le_total w l with h | h
    · rw [max_eq_right h]
      exact Or.inr fun z hz => hz
    · exact Or.inl (max_eq_left h)
  | bot => exact ⟨w, maximum_bot _, le_rfl, trivial, Or.inl rfl⟩
  | top | undefined => exact hl.elim

theorem exists_capped {u : Extended} {z₀ : ℝ} (m : ℝ) (hu : real z₀ ≤ u) :
    ∃ y, Scalar.minimum (real m) u = real y ∧ y ≤ m ∧ real y ≤ u ∧
      (y = m ∨ ∀ z, real z ≤ u → z ≤ y) := by
  cases u with
  | real u =>
    refine ⟨min m u, minimum_real m u, min_le_left m u, min_le_right m u, ?_⟩
    rcases le_total u m with h | h
    · rw [min_eq_right h]
      exact Or.inr fun z hz => hz
    · exact Or.inl (min_eq_left h)
  | top => exact ⟨m, minimum_top _, le_rfl, trivial, Or.inl rfl⟩
  | bot | undefined => exact hu.elim

/-- Raising to a lower bound and then lowering to an upper one leads to the nearest
number between them, if there is any. -/
theorem exists_nearest {l u : Extended} {z₀ : ℝ} (w : ℝ) (hl : l ≤ real z₀) (hu : real z₀ ≤ u) :
    ∃ y, Scalar.minimum (Scalar.maximum (real w) l) u = real y ∧
      Nearest {z | l ≤ real z ∧ real z ≤ u} w y := by
  obtain ⟨m, hraised, hwm, hlm, hlowest⟩ := exists_raised w hl
  obtain ⟨y, hcapped, hym, hyu, hhighest⟩ := exists_capped m hu
  rw [hraised]
  refine ⟨y, hcapped, ?_⟩
  rcases hhighest with rfl | hhighest
  · refine ⟨⟨hlm, hyu⟩, fun z ⟨hlz, hzu⟩ => ?_⟩
    rcases hlowest with rfl | hlowest
    · exact (le_total y z).imp (fun h => ⟨le_rfl, h⟩) fun h => ⟨h, le_rfl⟩
    · exact Or.inl ⟨hwm, hlowest z hlz⟩
  · have hz₀ : z₀ ≤ y := hhighest z₀ hu
    refine ⟨⟨Extended.le_trans hl (real_le_real.mpr hz₀), hyu⟩, fun z ⟨hlz, hzu⟩ => ?_⟩
    rcases hlowest with rfl | hlowest
    · exact Or.inr ⟨hhighest z hzu, hym⟩
    · -- Only one number lies between the bounds.
      have hy : y = m := le_antisymm hym ((hlowest z₀ hl).trans hz₀)
      rw [hy]
      exact Or.inl ⟨hwm, hlowest z hlz⟩

/-! ## Points -/

theorem combine_bound (f : Extended → Extended → Extended) (w : Fin n → Extended)
    {bound : Vec Extended} (default : Extended) (h : bound.length = 1 ∨ bound.length = n) :
    Vec.combine f (List.ofFn w) bound =
      .ok (List.ofFn fun i => f (w i) (entryAt (some bound) default i)) := by
  have hlength : (List.ofFn w).length = n := List.length_ofFn
  by_cases hn : bound.length = n
  · rw [Vec.combine_of_length_eq f (hlength.trans hn.symm)]
    refine congrArg Except.ok (List.ext_getElem (by simp [hn]) fun i hi _ => ?_)
    rw [List.getElem_zipWith, List.getElem_ofFn, List.getElem_ofFn]
    have hentry : entryAt (some bound) default i = bound.getD i default := by
      unfold entryAt
      dsimp only
      split
      · congr 1
        rw [List.length_zipWith] at hi
        omega
      · rfl
    rw [hentry, List.getD_eq_getElem]
  · obtain ⟨b, rfl⟩ := List.length_eq_one_iff.mp (h.resolve_right hn)
    have hentry : ∀ i, entryAt (some [b]) default i = b := fun _ => rfl
    simp only [hentry]
    unfold Vec.combine
    rw [if_neg (by rw [hlength]; exact Ne.symm hn)]
    split
    · next heq =>
      rw [heq] at hlength
      exact absurd hlength hn
    · next heq _ =>
      cases heq
      rw [List.map_ofFn]
      rfl
    · next hother => exact (hother b rfl).elim

theorem fits_of_checkSize {name : String} {bound : Option (Vec Extended)}
    (h : checkSize n name bound = .ok ()) {entries : Vec Extended} (hb : bound = some entries) :
    entries.length = 1 ∨ entries.length = n := by
  subst hb
  have hfits := Fault.refuse_eq_ok_iff.mp h
  omega

theorem raise_ofFn {box : Box Extended} (hsize : checkSize n "lower_bound" box.lower = .ok ())
    (w : Fin n → Extended) : box.raise (List.ofFn w) =
      .ok (List.ofFn fun i : Fin n => Scalar.maximum (w i) (entryAt box.lower bot i)) := by
  unfold raise
  cases hlower : box.lower with
  | none =>
    show Except.ok (List.ofFn w) = .ok (List.ofFn fun i : Fin n => Scalar.maximum (w i) bot)
    simp only [maximum_bot]
  | some bound => exact combine_bound _ _ bot (fits_of_checkSize hsize hlower)

theorem cap_ofFn {box : Box Extended} (hsize : checkSize n "upper_bound" box.upper = .ok ())
    (w : Fin n → Extended) : box.cap (List.ofFn w) =
      .ok (List.ofFn fun i : Fin n => Scalar.minimum (w i) (entryAt box.upper top i)) := by
  unfold cap
  cases hupper : box.upper with
  | none =>
    show Except.ok (List.ofFn w) = .ok (List.ofFn fun i : Fin n => Scalar.minimum (w i) top)
    simp only [minimum_top]
  | some bound => exact combine_bound _ _ top (fits_of_checkSize hsize hupper)

/-- Every coordinate is raised to its lower bound and then lowered to its upper one. -/
theorem clamp_ofFn {box : Box Extended} (hsize : box.checkDimension n = .ok ())
    (w : Fin n → Extended) : box.clamp (List.ofFn w) =
      .ok (List.ofFn fun i : Fin n => Scalar.minimum
        (Scalar.maximum (w i) (entryAt box.lower bot i)) (entryAt box.upper top i)) := by
  obtain ⟨_, hlower, hupper⟩ := Fault.bind_eq_ok_iff.mp hsize
  unfold clamp
  rw [raise_ofFn hlower]
  exact cap_ofFn hupper _

/-- A box with a real point brings every real point to the nearest one. -/
theorem exists_clamp {box : Box Extended} (hsize : box.checkDimension n = .ok ())
    (hregion : (box.region n).Nonempty) (w : Fin n → ℝ) :
    ∃ y : Fin n → ℝ, box.clamp (Vec.reals w) = .ok (Vec.reals y) ∧
      ∀ i : Fin n, Nearest (box.between i) (w i) (y i) := by
  obtain ⟨z₀, hz₀⟩ := hregion
  choose y hy hnearest using fun i : Fin n => exists_nearest (w i) (hz₀ i).1 (hz₀ i).2
  refine ⟨y, ?_, hnearest⟩
  unfold Vec.reals
  rw [clamp_ofFn hsize]
  simp only [hy]

/-! ## Accepted boxes -/

/-- No bound is beyond all real numbers. -/
structure Proper (box : Box Extended) : Prop where
  lower : ∀ entries, box.lower = some entries → top ∉ entries
  upper : ∀ entries, box.upper = some entries → bot ∉ entries

theorem getElem?_place {entries : Vec Extended} (default : Extended)
    (h : entries.length = 1 ∨ entries.length = n) (i : Fin n) :
    entries[entries.place i]? = some (entryAt (some entries) default i) := by
  have hi : entries.place i < entries.length := by
    have := i.isLt
    unfold Vec.place
    split <;> omega
  show _ = some (entries.getD (entries.place i) default)
  rw [List.getElem?_eq_getElem hi, List.getD_eq_getElem _ _ hi]

theorem entryAt_mem {entries : Vec Extended} (default : Extended)
    (h : entries.length = 1 ∨ entries.length = n) (i : Fin n) :
    entryAt (some entries) default i ∈ entries :=
  List.mem_of_getElem? (getElem?_place default h i)

theorem not_isNaN_of_readBound {name : String} {bound : Option (Nested Extended)}
    {entries : Vec Extended} (h : readBound name bound = .ok (some entries)) :
    ∀ b ∈ entries, Scalar.isNaN b = false := by
  cases bound with
  | none => cases h
  | some bound =>
    unfold readBound at h
    obtain ⟨_, -, h⟩ := Fault.bind_eq_ok_iff.mp h
    obtain ⟨_, -, h⟩ := Fault.bind_eq_ok_iff.mp h
    obtain ⟨_, -, h⟩ := Fault.bind_eq_ok_iff.mp h
    obtain ⟨_, hnumbers, h⟩ := Fault.bind_eq_ok_iff.mp h
    cases h
    have hnumbers := Fault.refuse_eq_ok_iff.mp hnumbers
    intro b hb
    by_contra hnan
    exact hnumbers (List.any_eq_true.mpr ⟨b, hb, Bool.eq_true_of_not_eq_false hnan⟩)

theorem entryAt_of_readBound {name : String} {bound : Option (Nested Extended)}
    {entries : Option (Vec Extended)} {default beyond : Extended}
    (hread : readBound name bound = .ok entries) (hsize : checkSize n name entries = .ok ())
    (hdefault : default ≠ beyond) (hdefault' : Scalar.isNaN default = false)
    (hbeyond : ∀ listed, entries = some listed → beyond ∉ listed) (i : Fin n) :
    entryAt entries default i ≠ beyond ∧ Scalar.isNaN (entryAt entries default i) = false := by
  cases entries with
  | none => exact ⟨hdefault, hdefault'⟩
  | some listed =>
    have hmem := entryAt_mem default (fits_of_checkSize hsize rfl) i
    constructor
    · intro heq
      rw [heq] at hmem
      exact hbeyond listed rfl hmem
    · exact not_isNaN_of_readBound hread _ hmem

/-- Bounds that do not cross do so nowhere, the repeated entries included. -/
theorem not_lt_of_not_crosses_at {lower upper : Vec Extended} {i : Nat} {l u : Extended}
    (h : ¬crosses lower upper = true) (hl : lower[lower.place i]? = some l)
    (hu : upper[upper.place i]? = some u) : ¬u < l := by
  intro hlt
  apply h
  unfold crosses
  split
  · obtain rfl : _ = l := Option.some.inj hl
    exact List.any_eq_true.mpr ⟨u, List.mem_of_getElem? hu, decide_eq_true hlt⟩
  · obtain rfl : _ = u := Option.some.inj hu
    exact List.any_eq_true.mpr ⟨l, List.mem_of_getElem? hl, decide_eq_true hlt⟩
  · next hone hone' =>
    have hlower : lower.place i = i := if_neg fun hlength =>
      (List.length_eq_one_iff.mp hlength).elim fun a ha => hone a ha
    have hupper : upper.place i = i := if_neg fun hlength =>
      (List.length_eq_one_iff.mp hlength).elim fun b hb => hone' b hb
    rw [hlower] at hl
    rw [hupper] at hu
    refine List.any_eq_true.mpr ⟨true, List.mem_of_getElem? (i := i) ?_, rfl⟩
    rw [List.getElem?_zipWith_eq_some]
    exact ⟨l, u, hl, hu, decide_eq_true hlt⟩

theorem not_lt_of_not_crosses {lower upper : Vec Extended}
    (hlower : lower.length = 1 ∨ lower.length = n) (hupper : upper.length = 1 ∨ upper.length = n)
    (h : ¬crosses lower upper = true) (i : Fin n) :
    ¬entryAt (some upper) top i < entryAt (some lower) bot i :=
  not_lt_of_not_crosses_at h (getElem?_place bot hlower i) (getElem?_place top hupper i)

theorem not_lt_bot (u : Extended) : ¬u < bot := by
  cases u with
  | real x | top | bot | undefined => exact id

theorem not_top_lt (l : Extended) : ¬top < l := by
  cases l with
  | real x | top | bot | undefined => exact id

theorem exists_between {l u : Extended} (hl : l ≠ top) (hl' : Scalar.isNaN l = false)
    (hu : u ≠ bot) (hu' : Scalar.isNaN u = false) (h : ¬u < l) :
    ∃ z, l ≤ real z ∧ real z ≤ u := by
  cases l with
  | top => exact absurd rfl hl
  | undefined => cases hl'
  | real l =>
    cases u with
    | bot => exact absurd rfl hu
    | undefined => cases hu'
    | top => exact ⟨l, le_rfl (a := l), trivial⟩
    | real u => exact ⟨l, le_rfl (a := l), not_lt.mp (mt real_lt_real.mpr h)⟩
  | bot =>
    cases u with
    | bot => exact absurd rfl hu
    | undefined => cases hu'
    | top => exact ⟨0, trivial, trivial⟩
    | real u => exact ⟨u, trivial, le_rfl (a := u)⟩

/-- An accepted box whose bounds are not beyond all real numbers has a real point. -/
theorem region_nonempty {lower upper : Option (Nested Extended)} {box : Box Extended}
    (h : ofBounds lower upper = .ok box) (hsize : box.checkDimension n = .ok ())
    (hproper : box.Proper) : (box.region n).Nonempty := by
  unfold ofBounds at h
  obtain ⟨lower, hlower, h⟩ := Fault.bind_eq_ok_iff.mp h
  obtain ⟨upper, hupper, h⟩ := Fault.bind_eq_ok_iff.mp h
  obtain ⟨_, horder, h⟩ := Fault.bind_eq_ok_iff.mp h
  cases h
  obtain ⟨_, hlow, hupp⟩ := Fault.bind_eq_ok_iff.mp hsize
  have hbot : bot ≠ top := fun heq => nomatch heq
  have hbetween : ∀ i : Fin n, ∃ z : ℝ,
      entryAt lower bot i ≤ real z ∧ real z ≤ entryAt upper top i := by
    intro i
    obtain ⟨hl, hl'⟩ := entryAt_of_readBound hlower hlow hbot rfl hproper.lower i
    obtain ⟨hu, hu'⟩ := entryAt_of_readBound hupper hupp hbot.symm rfl hproper.upper i
    refine exists_between hl hl' hu hu' ?_
    cases lower with
    | none => exact not_lt_bot _
    | some lower =>
      cases upper with
      | none => exact not_top_lt _
      | some upper =>
        obtain ⟨_, -, hcrosses⟩ := Fault.bind_eq_ok_iff.mp horder
        exact not_lt_of_not_crosses (fits_of_checkSize hlow rfl) (fits_of_checkSize hupp rfl)
          (Fault.refuse_eq_ok_iff.mp hcrosses) i
  choose z hz using hbetween
  exact ⟨z, hz⟩

end Box

end Downhill
