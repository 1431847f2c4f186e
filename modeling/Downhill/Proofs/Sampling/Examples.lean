import Downhill.Problem
import Downhill.Proofs.Linear.Sizes

/-!
# The gradients of examples

Examples that are written down as a matrix have features of one length.  At a point of
that length each of them has a gradient, and all these gradients are of that length.
-/

namespace Downhill

variable {α : Type}

namespace Nested

theorem shape?_of_allShaped {inner : List Nat} {parts : List (Nested α)}
    (h : allShaped inner parts = true) : ∀ part ∈ parts, part.shape? = some inner := by
  induction parts with
  | nil => exact List.forall_mem_nil _
  | cons part parts ih =>
    unfold allShaped at h
    obtain ⟨hpart, hparts⟩ := Bool.and_eq_true_iff.mp h
    exact List.forall_mem_cons.mpr ⟨eq_of_beq hpart, ih hparts⟩

/-- A list that has a shape is as long as the shape says, and its parts share a shape. -/
theorem exists_shape_of_row {parts : List (Nested α)} {axes : List Nat}
    (h : (row parts).shape? = some axes) :
    ∃ inner, axes = parts.length :: inner ∧ ∀ part ∈ parts, part.shape? = some inner := by
  cases parts with
  | nil => exact ⟨[], (Option.some.inj h).symm, List.forall_mem_nil _⟩
  | cons part parts =>
    unfold shape? at h
    obtain ⟨inner, hpart, h⟩ := Option.bind_eq_some_iff.mp h
    split at h
    · next hall =>
      exact ⟨inner, (Option.some.inj h).symm,
        List.forall_mem_cons.mpr ⟨hpart, shape?_of_allShaped hall⟩⟩
    · cases h

theorem length_flattenAll {parts : List (Nested α)} (h : ∀ part ∈ parts, part.shape? = some []) :
    (flattenAll parts).length = parts.length := by
  induction parts with
  | nil => rfl
  | cons part parts ih =>
    have hparts := ih fun p hp => h p (List.mem_cons_of_mem part hp)
    cases part with
    | entry x => exact congrArg (· + 1) hparts
    | row inner =>
      obtain ⟨_, haxes, -⟩ := exists_shape_of_row (h _ List.mem_cons_self)
      cases haxes

theorem length_toRows {a : Nested α} {rows columns : Nat} (h : a.shape? = some [rows, columns]) :
    a.toRows.length = rows := by
  cases a with
  | entry x => cases h
  | row parts =>
    obtain ⟨inner, haxes, -⟩ := exists_shape_of_row h
    cases haxes
    exact List.length_map _

/-- The rows of a matrix have one entry per column. -/
theorem length_of_mem_toRows {a : Nested α} {rows columns : Nat}
    (h : a.shape? = some [rows, columns]) : ∀ x ∈ a.toRows, x.length = columns := by
  intro x hx
  cases a with
  | entry x => cases h
  | row parts =>
    obtain ⟨inner, haxes, hparts⟩ := exists_shape_of_row h
    cases haxes
    obtain ⟨part, hpart, rfl⟩ := List.mem_map.mp hx
    have hshape := hparts part hpart
    cases part with
    | entry y => cases hshape
    | row entries =>
      obtain ⟨_, haxes, hentries⟩ := exists_shape_of_row hshape
      cases haxes
      exact length_flattenAll hentries

theorem shape?_of_shape {a : Nested α} {axes : List Nat} (h : a.shape = .ok axes) :
    a.shape? = some axes := by
  unfold shape at h
  obtain ⟨found, hfound, h⟩ := Fault.bind_eq_ok_iff.mp h
  split at h
  · cases h
  · cases h
    exact Fault.orElse_eq_ok_iff.mp hfound

end Nested

namespace Empirical

/-- At a point every example has a gradient, and all of them are of one length. -/
structure HasRows (e : Empirical α) (p : Vec α) (width : Nat) : Prop where
  size : p.length = e.dimension
  row : ∀ term ∈ e.terms, ∃ row, term.gradient p = .ok row ∧ row.length = width

/-- Every term is that of a feature row and a number. -/
theorem exists_of_mem_terms {term : Vec α → α → Objective α} {features : Nested α}
    {rows columns : Nat} (hshape : features.shape = .ok [rows, columns]) {numbers : Vec α}
    {t : Objective α} (ht : t ∈ List.zipWith term features.toRows numbers) :
    ∃ x y, x.length = columns ∧ t = term x y := by
  obtain ⟨i, hi, rfl⟩ := List.getElem_of_mem ht
  rw [List.length_zipWith] at hi
  have hx := Nested.length_of_mem_toRows (Nested.shape?_of_shape hshape) features.toRows[i]
    (List.getElem_mem (by omega))
  exact ⟨features.toRows[i], numbers[i], hx, List.getElem_zipWith⟩

variable [Scalar α]

/-- A kind of term whose gradient is a multiple of the features of the example. -/
def ScalesFeatures (term : Vec α → α → Objective α) : Prop :=
  ∀ x y, ∃ factor : α → α, ∀ p, (term x y).gradient p = do
    let product ← Vec.dot x p
    return x.scale (factor product)

theorem ScalesFeatures.exists_row {term : Vec α → α → Objective α} (h : ScalesFeatures term)
    {x p : Vec α} (y : α) (hp : x.length = p.length) :
    ∃ row, (term x y).gradient p = .ok row ∧ row.length = x.length := by
  obtain ⟨factor, hgradient⟩ := h x y
  obtain ⟨product, hdot⟩ := Vec.exists_dot hp rfl
  refine ⟨x.scale (factor product), ?_, Vec.length_scale _ _⟩
  rw [hgradient, hdot]
  rfl

theorem hasRows_of_ofRows {term : Vec α → α → Objective α} (hterm : ScalesFeatures term)
    {features numbers : Nested α} {mismatch : Invalid} {check : Vec α → Except Fault Unit}
    {e : Empirical α} (h : ofRows term features numbers mismatch check = .ok e) {p : Vec α}
    (hp : p.length = e.dimension) : e.HasRows p e.dimension := by
  refine ⟨hp, ?_⟩
  unfold ofRows at h
  obtain ⟨shape, hshape, h⟩ := Fault.bind_eq_ok_iff.mp h
  obtain ⟨labels, -, h⟩ := Fault.bind_eq_ok_iff.mp h
  split at h
  · next rows columns =>
    obtain ⟨_, -, h⟩ := Fault.bind_eq_ok_iff.mp h
    obtain ⟨_, -, h⟩ := Fault.bind_eq_ok_iff.mp h
    obtain ⟨_, -, h⟩ := Fault.bind_eq_ok_iff.mp h
    cases h
    intro t ht
    obtain ⟨x, y, hx, rfl⟩ := exists_of_mem_terms hshape ht
    obtain ⟨row, hrow, hlength⟩ := hterm.exists_row y (hx.trans hp.symm)
    exact ⟨row, hrow, hlength.trans hx⟩
  · cases h

theorem hasRows_leastSquares {features targets : Nested α} {e : Empirical α}
    (h : leastSquares features targets = .ok e) {p : Vec α} (hp : p.length = e.dimension) :
    e.HasRows p e.dimension :=
  hasRows_of_ofRows (fun _ y => ⟨fun product => 2.0 * (product - y), fun _ => rfl⟩) h hp

theorem hasRows_logistic {β : Type} [Elementary β] {features labels : Nested β} {e : Empirical β}
    (h : logistic features labels = .ok e) {p : Vec β} (hp : p.length = e.dimension) :
    e.HasRows p e.dimension :=
  hasRows_of_ofRows (fun _ y => ⟨fun margin => Logistic.sigmoid margin - y, fun _ => rfl⟩) h hp

end Empirical

end Downhill
