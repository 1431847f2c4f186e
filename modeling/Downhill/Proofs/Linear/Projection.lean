import Downhill.Proofs.Linear.Clamp
import Downhill.Proofs.Linear.Sizes

/-!
# Projection onto a box

Bounds make a box exactly if they fit and nowhere cross, whether an entry stands for one
coordinate or for all of them.  In such a box a coordinate is moved to the bound that it has
passed or not at all, and so no point of the box is farther from the coordinate afterwards than
it was before.
-/

namespace Downhill

/-! ## One coordinate -/

namespace Extended

variable {a b l u : Extended} {z : ℝ}

theorem isNaN_of_le (h : a ≤ b) : Scalar.isNaN a = false ∧ Scalar.isNaN b = false := by
  match a, b with
  | real _, real _ | bot, real _ | bot, top | real _, top | bot, bot | top, top => exact ⟨rfl, rfl⟩
  | undefined, _ | real _, undefined | top, undefined | bot, undefined => exact h.elim
  | real _, bot | top, real _ | top, bot => exact h.elim

theorem not_lt_of_le (h : a ≤ b) : ¬b < a := by
  match a, b with
  | real x, real y => exact not_lt.mpr (real_le_real.mp h)
  | bot, real _ | bot, top | real _, top | bot, bot | top, top => exact id
  | undefined, _ | real _, undefined | top, undefined | bot, undefined => exact h.elim
  | real _, bot | top, real _ | top, bot => exact h.elim

theorem maximum_of_numbers (ha : Scalar.isNaN a = false) (hb : Scalar.isNaN b = false) :
    Scalar.maximum a b = if a < b then b else a := by
  unfold Scalar.maximum Scalar.larger
  rw [if_neg (by rw [ha]; exact Bool.false_ne_true), if_neg (by rw [hb]; exact Bool.false_ne_true)]

theorem minimum_of_numbers (ha : Scalar.isNaN a = false) (hb : Scalar.isNaN b = false) :
    Scalar.minimum a b = if b < a then b else a := by
  unfold Scalar.minimum Scalar.smaller
  rw [if_neg (by rw [ha]; exact Bool.false_ne_true), if_neg (by rw [hb]; exact Bool.false_ne_true)]

theorem maximum_of_le (h : l ≤ a) : Scalar.maximum a l = a := by
  obtain ⟨hl, ha⟩ := isNaN_of_le h
  rw [maximum_of_numbers ha hl, if_neg (not_lt_of_le h)]

theorem maximum_of_lt (h : a < l) : Scalar.maximum a l = l := by
  obtain ⟨ha, hl⟩ := isNaN_of_le (Extended.le_of_lt h)
  rw [maximum_of_numbers ha hl, if_pos h]

theorem minimum_of_le (h : a ≤ u) : Scalar.minimum a u = a := by
  obtain ⟨ha, hu⟩ := isNaN_of_le h
  rw [minimum_of_numbers ha hu, if_neg (not_lt_of_le h)]

theorem minimum_of_lt (h : u < a) : Scalar.minimum a u = u := by
  obtain ⟨hu, ha⟩ := isNaN_of_le (Extended.le_of_lt h)
  rw [minimum_of_numbers ha hu, if_pos h]

theorem moved_of_mem (hl : l ≤ a) (hu : a ≤ u) : Scalar.minimum (Scalar.maximum a l) u = a := by
  rw [maximum_of_le hl, minimum_of_le hu]

/-- A number is moved to the bound that it has passed, if it has passed one. -/
theorem moved_cases (hbounds : l ≤ u) (ha : Scalar.isNaN a = false) :
    (a ≤ l ∧ Scalar.minimum (Scalar.maximum a l) u = l) ∨
    (u ≤ a ∧ Scalar.minimum (Scalar.maximum a l) u = u) ∨
    ((l ≤ a ∧ a ≤ u) ∧ Scalar.minimum (Scalar.maximum a l) u = a) := by
  obtain ⟨hl, hu⟩ := isNaN_of_le hbounds
  by_cases hlow : a < l
  · refine Or.inl ⟨Extended.le_of_lt hlow, ?_⟩
    rw [maximum_of_lt hlow, minimum_of_le hbounds]
  · have hle := le_of_not_gt ha hl hlow
    by_cases hhigh : u < a
    · refine Or.inr (Or.inl ⟨Extended.le_of_lt hhigh, ?_⟩)
      rw [maximum_of_le hle, minimum_of_lt hhigh]
    · have hle' := le_of_not_gt hu ha hhigh
      exact Or.inr (Or.inr ⟨⟨hle, hle'⟩, moved_of_mem hle hle'⟩)

theorem moved_mem (hbounds : l ≤ u) (ha : Scalar.isNaN a = false) :
    l ≤ Scalar.minimum (Scalar.maximum a l) u ∧ Scalar.minimum (Scalar.maximum a l) u ≤ u := by
  obtain ⟨hl, hu⟩ := isNaN_of_le hbounds
  rcases moved_cases hbounds ha with ⟨-, h⟩ | ⟨-, h⟩ | ⟨hmem, h⟩
  · rw [h]
    exact ⟨le_self hl, hbounds⟩
  · rw [h]
    exact ⟨hbounds, le_self hu⟩
  · rw [h]
    exact hmem

theorem abs_sub_le_of_le (hab : a ≤ b) (hbz : b ≤ real z) :
    Scalar.abs (b - real z) ≤ Scalar.abs (a - real z) := by
  match a, b with
  | real x, real y =>
    have hxy : x ≤ y := hab
    have hyz : y ≤ z := hbz
    rw [real_sub, real_sub, abs_real, abs_real, real_le_real, abs_of_nonpos (by linarith),
      abs_of_nonpos (by linarith)]
    linarith
  | bot, real _ | bot, bot => trivial
  | _, top | _, undefined => exact hbz.elim
  | real _, bot | top, real _ | top, bot | undefined, _ => exact hab.elim

theorem abs_sub_le_of_ge (hba : b ≤ a) (hzb : real z ≤ b) :
    Scalar.abs (b - real z) ≤ Scalar.abs (a - real z) := by
  match a, b with
  | real x, real y =>
    have hyx : y ≤ x := hba
    have hzy : z ≤ y := hzb
    rw [real_sub, real_sub, abs_real, abs_real, real_le_real, abs_of_nonneg (by linarith),
      abs_of_nonneg (by linarith)]
    linarith
  | top, real _ | top, top => trivial
  | _, bot | _, undefined => exact hzb.elim
  | real _, top | bot, real _ | bot, top | undefined, real _ | undefined, top => exact hba.elim

/-- Moving a number between two bounds takes it no farther from what lies between them. -/
theorem abs_moved_sub_le (ha : Scalar.isNaN a = false) (hlz : l ≤ real z) (hzu : real z ≤ u) :
    Scalar.abs (Scalar.minimum (Scalar.maximum a l) u - real z) ≤ Scalar.abs (a - real z) := by
  rcases moved_cases (Extended.le_trans hlz hzu) ha with ⟨hle, h⟩ | ⟨hge, h⟩ | ⟨-, h⟩
  · rw [h]
    exact abs_sub_le_of_le hle hlz
  · rw [h]
    exact abs_sub_le_of_ge hge hzu
  · rw [h]
    refine le_self ?_
    cases a with
    | real x | top | bot => rfl
    | undefined => cases ha

end Extended

/-! ## Lists of numbers as they are written down -/

namespace Nested

variable {α : Type}

theorem shape_ofVec (x : Vec α) : (ofVec x).shape = .ok [x.length] := by
  unfold shape
  rw [shape?_ofVec]
  rfl

theorem at?_ofVec (x : Vec α) (i : Nat) : (ofVec x).at? [i] = x[i]? := by
  unfold ofVec at?
  rw [List.getElem?_map]
  cases x[i]? with
  | none => rfl
  | some a => rfl

theorem at?_repeatedPosition (x : Vec α) (i : Nat) :
    (ofVec x).at? (repeatedPosition [x.length] [i]) = x[x.place i]? := at?_ofVec x _

theorem commonAxes_singleton (m n : Nat) : commonAxes [m] [n] =
    if m = n ∨ n = 1 then some [m] else if m = 1 then some [n] else none := rfl

theorem commonAxes_of_combine {f : α → α → α} {x y z : Vec α} (h : Vec.combine f x y = .ok z) :
    commonAxes [x.length] [y.length] = some [z.length] := by
  rw [commonAxes_singleton]
  unfold Vec.combine at h
  split at h
  case isTrue hlength =>
    cases h
    rw [if_pos (Or.inl hlength), List.length_zipWith, hlength, Nat.min_self]
  case isFalse hlength =>
    split at h
    · cases h
      have hone : ¬y.length = 1 := Ne.symm hlength
      rw [if_neg (not_or.mpr ⟨hlength, hone⟩), List.length_map]
      rfl
    · cases h
      rw [if_pos (Or.inr List.length_singleton), List.length_map]
    · cases h

theorem eq_none_of_combine {f : α → α → α} {x y : Vec α} {fault : Fault}
    (h : Vec.combine f x y = .error fault) :
    commonAxes [x.length] [y.length] = none ∧ fault = .shapeMismatch := by
  rw [commonAxes_singleton]
  unfold Vec.combine at h
  split at h
  case isTrue => cases h
  case isFalse hlength =>
    split at h
    · cases h
    · cases h
    · next hx hy =>
      cases h
      have hx' : x.length ≠ 1 := fun hone =>
        (List.length_eq_one_iff.mp hone).elim fun a ha => hx a ha
      have hy' : y.length ≠ 1 := fun hone =>
        (List.length_eq_one_iff.mp hone).elim fun b hb => hy b hb
      rw [if_neg (not_or.mpr ⟨hlength, hy'⟩), if_neg hx']
      exact ⟨rfl, rfl⟩

variable [Zero α]

/-- Lists of numbers are combined as vectors. -/
theorem combine_ofVec (f : α → α → α) (x y : Vec α) :
    (ofVec x).combine f (ofVec y) = ofVec <$> Vec.combine f x y := by
  unfold combine
  rw [shape_ofVec, shape_ofVec]
  show (Fault.orElse .shapeMismatch (commonAxes [x.length] [y.length]) >>= fun axes => _) = _
  cases h : Vec.combine f x y with
  | error fault =>
    obtain ⟨hnone, rfl⟩ := eq_none_of_combine h
    rw [hnone]
    rfl
  | ok z =>
    rw [commonAxes_of_combine h]
    refine congrArg Except.ok (congrArg row ?_)
    refine List.ext_getElem (by simp) fun i hi hi' => ?_
    rw [List.getElem_map, List.getElem_map, List.getElem_range]
    rw [List.length_map] at hi'
    obtain ⟨a, b, ha, hb, hab⟩ := Vec.exists_of_combine h (List.getElem?_eq_getElem hi')
    show entry (f (((ofVec x).at? (repeatedPosition [x.length] [i])).getD 0)
      (((ofVec y).at? (repeatedPosition [y.length] [i])).getD 0)) = entry z[i]
    rw [at?_repeatedPosition, at?_repeatedPosition, ha, hb, hab]
    rfl

end Nested

/-! ## Boxes -/

namespace Box

open Extended

variable {n : Nat} {box : Box Extended} {lower upper : Option (Nested Extended)}
  {l u : Option (Vec Extended)} {x y : Fin n → Extended}

/-- Points written down as lists are brought into the box as vectors. -/
theorem clampNested_ofVec (box : Box Extended) (x : Vec Extended) :
    box.clampNested (Nested.ofVec x) = Nested.ofVec <$> box.clamp x := by
  have hraise : combineBound Scalar.maximum box.lower (Nested.ofVec x) =
      Nested.ofVec <$> box.raise x := by
    unfold combineBound raise
    cases box.lower with
    | none => rfl
    | some bound => exact Nested.combine_ofVec Scalar.maximum x bound
  have hcap (y : Vec Extended) : combineBound Scalar.minimum box.upper (Nested.ofVec y) =
      Nested.ofVec <$> box.cap y := by
    unfold combineBound cap
    cases box.upper with
    | none => rfl
    | some bound => exact Nested.combine_ofVec Scalar.minimum y bound
  unfold clampNested clamp
  rw [Nested.shape_ofVec]
  show (combineBound Scalar.maximum box.lower (Nested.ofVec x) >>= _) = _
  rw [hraise]
  cases box.raise x with
  | error fault => rfl
  | ok raised => exact hcap raised

/-! ### Bounds -/

/-- A bound as it is written down, and its entries: one or more, each a number. -/
inductive Lists : Option (Nested Extended) → Option (Vec Extended) → Prop
  | absent : Lists none none
  | single {a : Extended} (number : Scalar.isNaN a = false) : Lists (some (.entry a)) (some [a])
  | row {entries : Vec Extended} (nonempty : entries ≠ [])
      (numbers : ∀ a ∈ entries, Scalar.isNaN a = false) :
      Lists (some (Nested.ofVec entries)) (some entries)

theorem Lists.readBound_eq {bound : Option (Nested Extended)} {entries : Option (Vec Extended)}
    (h : Lists bound entries) (name : String) : readBound name bound = .ok entries := by
  have hread : ∀ {a : Nested Extended} {axes : List Nat} {entries : Vec Extended},
      a.shape = .ok axes → axes.length ≤ 1 → a.flatten = entries → entries ≠ [] →
      (∀ a ∈ entries, Scalar.isNaN a = false) → readBound name (some a) = .ok (some entries) := by
    intro a axes entries hshape haxes hflatten hnonempty hnumbers
    unfold readBound
    refine Fault.bind_eq_ok_iff.mpr ⟨axes, hshape, ?_⟩
    refine Fault.bind_eq_ok_iff.mpr ⟨(), Fault.refuse_eq_ok_iff.mpr (not_lt.mpr haxes), ?_⟩
    rw [hflatten]
    refine Fault.bind_eq_ok_iff.mpr ⟨(), Fault.refuse_eq_ok_iff.mpr ?_, ?_⟩
    · exact fun h => hnonempty (List.eq_nil_of_length_eq_zero h)
    refine Fault.bind_eq_ok_iff.mpr ⟨(), Fault.refuse_eq_ok_iff.mpr ?_, rfl⟩
    intro hany
    obtain ⟨b, hb, hnan⟩ := List.any_eq_true.mp hany
    rw [hnumbers b hb] at hnan
    cases hnan
  cases h with
  | absent => rfl
  | single number =>
    refine hread rfl (Nat.zero_le 1) rfl (List.cons_ne_nil _ _) fun b hb => ?_
    rw [List.mem_singleton.mp hb]
    exact number
  | row nonempty numbers =>
    exact hread (Nested.shape_ofVec _) le_rfl (Nested.flatten_ofVec _) nonempty numbers

theorem eq_of_ofBounds (hlower : Lists lower l) (hupper : Lists upper u)
    (h : ofBounds lower upper = .ok box) : box = ⟨l, u⟩ := by
  obtain ⟨_, hl, h⟩ := Fault.bind_eq_ok_iff.mp h
  obtain ⟨_, hu, h⟩ := Fault.bind_eq_ok_iff.mp h
  obtain ⟨_, -, h⟩ := Fault.bind_eq_ok_iff.mp h
  cases h
  rw [hlower.readBound_eq] at hl
  rw [hupper.readBound_eq] at hu
  cases hl
  cases hu
  rfl

theorem getElem?_place_of_getElem? {α : Type} {entries : Vec α} {i : Nat} {a : α}
    (h : entries[i]? = some a) : entries[entries.place i]? = some a := by
  obtain ⟨hi, -⟩ := List.getElem?_eq_some_iff.mp h
  unfold Vec.place
  split
  · rwa [show 0 = i by omega]
  · exact h

/-- Bounds that are in order at every coordinate do not cross. -/
theorem not_crosses_of_le {lower upper : Vec Extended}
    (h : ∀ i, entryAt (some lower) bot i ≤ entryAt (some upper) top i) :
    ¬crosses lower upper = true := by
  have hplaces : ∀ {i : Nat} {a b : Extended}, lower[lower.place i]? = some a →
      upper[upper.place i]? = some b → ¬b < a := by
    intro i a b ha hb
    have hlow : entryAt (some lower) bot i = a := entryAt_of_getElem? ha
    have hupp : entryAt (some upper) top i = b := entryAt_of_getElem? hb
    rw [← hlow, ← hupp]
    exact not_lt_of_le (h i)
  intro hcrosses
  unfold crosses at hcrosses
  split at hcrosses
  · obtain ⟨b, hb, hlt⟩ := List.any_eq_true.mp hcrosses
    obtain ⟨i, hi⟩ := List.mem_iff_getElem?.mp hb
    exact hplaces rfl (getElem?_place_of_getElem? hi) (of_decide_eq_true hlt)
  · obtain ⟨a, ha, hlt⟩ := List.any_eq_true.mp hcrosses
    obtain ⟨i, hi⟩ := List.mem_iff_getElem?.mp ha
    exact hplaces (getElem?_place_of_getElem? hi) rfl (of_decide_eq_true hlt)
  · obtain ⟨crossed, hcrossed, hlt⟩ := List.any_eq_true.mp hcrosses
    obtain ⟨i, hi⟩ := List.mem_iff_getElem?.mp hcrossed
    obtain ⟨a, b, ha, hb, rfl⟩ := List.getElem?_zipWith_eq_some.mp hi
    exact hplaces (getElem?_place_of_getElem? ha) (getElem?_place_of_getElem? hb)
      (of_decide_eq_true hlt)

theorem Lists.isNaN_entryAt {bound : Option (Nested Extended)} {entries : Option (Vec Extended)}
    {default : Extended} (h : Lists bound entries) (hdefault : Scalar.isNaN default = false)
    (i : Nat) : Scalar.isNaN (entryAt entries default i) = false := by
  rcases entryAt_cases entries default i with ⟨listed, a, rfl, ha, heq⟩ | heq
  · rw [heq]
    cases h with
    | single number => rwa [List.mem_singleton.mp (List.mem_of_getElem? ha)]
    | row nonempty numbers => exact numbers a (List.mem_of_getElem? ha)
  · rwa [heq]

/-- Beyond the coordinates a bound has its only entry still, or none. -/
theorem entryAt_beyond {bound : Option (Vec Extended)} (default : Extended)
    (h : ∀ entries, bound = some entries → entries.length = 1 ∨ entries.length = n) {i : Nat}
    (hi : n ≤ i) : entryAt bound default i = entryAt bound default 0 ∨
      entryAt bound default i = default := by
  cases bound with
  | none => exact Or.inr rfl
  | some entries =>
    unfold entryAt
    dsimp only
    split
    · exact Or.inl rfl
    · next hlength =>
      have hn := (h entries rfl).resolve_left hlength
      exact Or.inr (List.getD_eq_default _ _ (by omega))

/-- Bounds that are in order at every coordinate are so beyond them. -/
theorem entryAt_le_of_lt (hlower : Lists lower l) (hupper : Lists upper u) (hfits : Fits ⟨l, u⟩ n)
    (h : ∀ i < max 1 n, entryAt l bot i ≤ entryAt u top i) (i : Nat) :
    entryAt l bot i ≤ entryAt u top i := by
  by_cases hi : i < max 1 n
  · exact h i hi
  · have hni : n ≤ i := by omega
    rcases entryAt_beyond bot hfits.lower hni with hl | hl
    · rcases entryAt_beyond top hfits.upper hni with hu | hu
      · rw [hl, hu]
        exact h 0 (by omega)
      · rw [hu]
        exact le_top (hlower.isNaN_entryAt rfl i)
    · rw [hl]
      exact bot_le (hupper.isNaN_entryAt rfl i)

theorem accepted_iff (hlower : Lists lower l) (hupper : Lists upper u) (n : Nat) :
    (∃ box, ofBounds lower upper = .ok box ∧ box.checkDimension n = .ok ()) ↔
      Fits ⟨l, u⟩ n ∧ ∀ i < max 1 n, entryAt l bot i ≤ entryAt u top i := by
  constructor
  · rintro ⟨box, hbox, hsize⟩
    have haccepted : box.Accepted := ⟨lower, upper, hbox⟩
    obtain rfl := eq_of_ofBounds hlower hupper hbox
    obtain ⟨_, hlow, hupp⟩ := Fault.bind_eq_ok_iff.mp hsize
    exact ⟨⟨fun _ => fits_of_checkSize hlow, fun _ => fits_of_checkSize hupp⟩,
      fun i _ => haccepted.le i⟩
  · rintro ⟨hfits, hbelow⟩
    have hle := entryAt_le_of_lt hlower hupper hfits hbelow
    refine ⟨⟨l, u⟩, ?_, hfits.checkDimension⟩
    refine Fault.bind_eq_ok_iff.mpr ⟨l, hlower.readBound_eq _, ?_⟩
    refine Fault.bind_eq_ok_iff.mpr ⟨u, hupper.readBound_eq _, ?_⟩
    refine Fault.bind_eq_ok_iff.mpr ⟨(), ?_, rfl⟩
    match l, u with
    | none, _ | some _, none => rfl
    | some lo, some up =>
      have hlo := hfits.lower lo rfl
      have hup := hfits.upper up rfl
      refine Fault.bind_eq_ok_iff.mpr ⟨(), Fault.refuse_eq_ok_iff.mpr (by omega), ?_⟩
      exact Fault.refuse_eq_ok_iff.mpr (not_crosses_of_le hle)

/-! ### Points -/

/-- Each coordinate lies between its bounds. -/
def Contains (box : Box Extended) (x : Fin n → Extended) : Prop :=
  ∀ i : Fin n, entryAt box.lower bot i ≤ x i ∧ x i ≤ entryAt box.upper top i

theorem clamp_of_contains (hsize : box.checkDimension n = .ok ()) (hx : box.Contains x) :
    box.clamp (List.ofFn x) = .ok (List.ofFn x) := by
  rw [clamp_ofFn hsize]
  simp only [fun i => moved_of_mem (hx i).1 (hx i).2]

/-- Bounds are accepted exactly if they have one entry each or one per coordinate and are in
order at every coordinate, and then clamping is the projection onto the box.  Entries that
stand for every coordinate have to be in order even where there are no coordinates. -/
theorem clamp_projects (hlower : Lists lower l) (hupper : Lists upper u) (n : Nat) :
    ((∃ box, ofBounds lower upper = .ok box ∧ box.checkDimension n = .ok ()) ↔
      Fits ⟨l, u⟩ n ∧ ∀ i < max 1 n, entryAt l bot i ≤ entryAt u top i) ∧
    ∀ box : Box Extended, ofBounds lower upper = .ok box → box.checkDimension n = .ok () →
      ∀ x : Fin n → Extended, (∀ i, Scalar.isNaN (x i) = false) →
        ∃ y : Fin n → Extended,
          box.clamp (List.ofFn x) = .ok (List.ofFn y) ∧
          box.clampNested (Nested.ofVec (List.ofFn x)) = .ok (Nested.ofVec (List.ofFn y)) ∧
          (⟨l, u⟩ : Box Extended).Contains y ∧
          (∀ z : Fin n → ℝ, (⟨l, u⟩ : Box Extended).Contains (fun i => real (z i)) →
            ∀ i, Scalar.abs (y i - real (z i)) ≤ Scalar.abs (x i - real (z i))) ∧
          ((⟨l, u⟩ : Box Extended).Contains x → y = x) ∧
          box.clamp (List.ofFn y) = .ok (List.ofFn y) := by
  refine ⟨accepted_iff hlower hupper n, fun box hbox hsize x hx => ?_⟩
  have haccepted : box.Accepted := ⟨lower, upper, hbox⟩
  obtain rfl := eq_of_ofBounds hlower hupper hbox
  have hclamp := clamp_ofFn hsize x
  have hmem : (⟨l, u⟩ : Box Extended).Contains fun i : Fin n =>
      Scalar.minimum (Scalar.maximum (x i) (entryAt l bot i)) (entryAt u top i) :=
    fun i => moved_mem (haccepted.le i) (hx i)
  refine ⟨_, hclamp, ?_, hmem, fun z hz i => abs_moved_sub_le (hx i) (hz i).1 (hz i).2, ?_,
    clamp_of_contains hsize hmem⟩
  · rw [clampNested_ofVec, hclamp]
    rfl
  · exact fun hinside => funext fun i => moved_of_mem (hinside i).1 (hinside i).2

/-- One coordinate is bounded on both sides and the other from above only, by the entry that
stands for both. -/
theorem clamp_projects_corner : ∃ (box : Box Extended) (y : Fin 2 → Extended),
    ofBounds (some (Nested.ofVec [real (-1), bot])) (some (.entry (real 1))) = .ok box ∧
    box.checkDimension (2 : Nat) = .ok () ∧
    box.clamp (List.ofFn ![real (-3), top]) = .ok (List.ofFn y) ∧
    (⟨some [real (-1), bot], some [real 1]⟩ : Box Extended).Contains y ∧
    box.clamp (List.ofFn y) = .ok (List.ofFn y) := by
  have hlower : Lists (some (Nested.ofVec [real (-1), bot])) (some [real (-1), bot]) :=
    .row (List.cons_ne_nil _ _) (by simp [Scalar.isNaN, Extended.isNaN])
  have hupper : Lists (some (.entry (real 1))) (some [real 1]) := .single rfl
  have hfits : Fits ⟨some [real (-1), bot], some [real 1]⟩ 2 := by
    constructor
    · rintro _ ⟨⟩
      exact Or.inr rfl
    · rintro _ ⟨⟩
      exact Or.inl rfl
  have horder : ∀ i < max 1 2, entryAt (some [real (-1), bot]) bot i ≤
      entryAt (some [real 1]) top i := by
    intro i hi
    match i with
    | 0 => exact real_le_real.mpr (by norm_num)
    | 1 => trivial
    | i + 2 => omega
  obtain ⟨haccepted, hprojects⟩ := clamp_projects hlower hupper 2
  obtain ⟨box, hbox, hsize⟩ := haccepted.mpr ⟨hfits, horder⟩
  have hnumbers : ∀ i, Scalar.isNaN (![real (-3), top] i) = false := by
    intro i
    match i with
    | 0 | 1 => rfl
  obtain ⟨y, hclamp, -, hmem, -, -, hagain⟩ := hprojects box hbox hsize ![real (-3), top] hnumbers
  exact ⟨box, y, hbox, hsize, hclamp, hmem, hagain⟩

end Box
end Downhill
