import Downhill.Proofs.Linear.Coordinates
import Downhill.Proofs.Number.Elementary
import Downhill.Proofs.Sampling.Examples
import Downhill.Proofs.Sampling.Passes

/-!
# Estimates of a gradient

The gradient of an empirical objective is the mean of one row per example, and an
estimate is the mean over a mini-batch.  Where mini-batches of one size run through
whole arrangements of the examples, every example is met equally often, so the estimates
average to the gradient.  Batches need not end where an arrangement does: as many draws
as there are examples end with an arrangement, whatever the size of a batch.
-/

namespace Downhill

/-! ## Means of rows -/

namespace Vec

variable {m : Nat}

theorem foldlM_add_ofFn (a : Fin m → ℝ) (rows : List (Fin m → ℝ)) :
    (rows.map List.ofFn).foldlM add (List.ofFn a) = .ok (List.ofFn (a + rows.sum)) := by
  induction rows generalizing a with
  | nil =>
    rw [List.sum_nil, add_zero]
    rfl
  | cons row rows ih =>
    rw [List.map_cons, List.foldlM_cons, add_ofFn, List.sum_cons, ← add_assoc]
    exact ih (a + row)

theorem meanRows_ofFn {rows : List (Fin m → ℝ)} (h : rows ≠ []) :
    meanRows (rows.map List.ofFn) = .ok (List.ofFn ((rows.length : ℝ)⁻¹ • rows.sum)) := by
  have hsum : sumRows (rows.map List.ofFn) = .ok (List.ofFn rows.sum) := by
    cases rows with
    | nil => exact absurd rfl h
    | cons row rows =>
      rw [List.sum_cons]
      exact foldlM_add_ofFn row rows
  unfold meanRows
  rw [hsum]
  show Except.ok ((List.ofFn rows.sum).map _) = _
  rw [List.map_ofFn, List.length_map]
  congr 2
  funext i
  exact div_eq_inv_mul _ _

end Vec

/-! ## Batches that cover the examples -/

namespace Empirical

variable {e : Empirical ℝ} {p : Vec ℝ} {width : Nat}

/-- The gradient of an example. -/
noncomputable def rowAt (e : Empirical ℝ) (p : Vec ℝ) (width i : Nat) : Fin width → ℝ :=
  match e.terms[i]? with
  | none => 0
  | some term => Vec.coordinates width ((term.gradient p).toOption.getD [])

theorem gradient_eq_batchGradient :
    e.gradient p = e.batchGradient p (List.range e.terms.length) := rfl

theorem term_ofNat {i : Nat} (h : i < e.terms.length) : e.term (Int.ofNat i) = .ok e.terms[i] := by
  have hsign : ¬Int.ofNat i < 0 := Int.not_lt.mpr (Int.natCast_nonneg i)
  unfold term
  simp only [if_neg hsign]
  exact Fault.orElse_eq_ok_iff.mpr (List.getElem?_eq_getElem h)

theorem gradient_getElem (h : e.HasRows p width) {i : Nat} (hi : i < e.terms.length) :
    e.terms[i].gradient p = .ok (List.ofFn (e.rowAt p width i)) := by
  obtain ⟨row, hrow, hlength⟩ := h.row _ (List.getElem_mem hi)
  have hat : e.rowAt p width i = row.coordinates width := by
    unfold rowAt
    simp only [List.getElem?_eq_getElem hi, hrow]
    rfl
  rw [hrow, hat, Vec.ofFn_coordinates hlength]

theorem exampleGradients_eq (h : e.HasRows p width) {batch : List Nat}
    (hbatch : ∀ i ∈ batch, i < e.terms.length) :
    e.exampleGradients p (batch.map Int.ofNat) =
      .ok (batch.map fun i => List.ofFn (e.rowAt p width i)) := by
  have hterms : ∃ terms, (batch.map Int.ofNat).mapM e.term = .ok terms ∧
      terms.mapM (·.gradient p) = .ok (batch.map fun i => List.ofFn (e.rowAt p width i)) := by
    induction batch with
    | nil => exact ⟨[], rfl, rfl⟩
    | cons i batch ih =>
      have hi := hbatch i List.mem_cons_self
      obtain ⟨terms, hterms, hrows⟩ := ih fun j hj => hbatch j (List.mem_cons_of_mem i hj)
      refine ⟨e.terms[i] :: terms, ?_, ?_⟩
      · rw [List.map_cons, List.mapM_cons, term_ofNat hi, hterms]
        rfl
      · rw [List.mapM_cons, gradient_getElem h hi, hrows]
        rfl
  obtain ⟨terms, hterms, hrows⟩ := hterms
  unfold exampleGradients select
  rw [hterms]
  show (if p.length = e.dimension then _ else _ : Except Fault _) >>= _ = _
  rw [if_pos h.size]
  exact hrows

theorem batchGradient_eq (h : e.HasRows p width) {batch : List Nat} (hne : batch ≠ [])
    (hbatch : ∀ i ∈ batch, i < e.terms.length) :
    e.batchGradient p batch =
      .ok (List.ofFn ((batch.length : ℝ)⁻¹ • (batch.map (e.rowAt p width)).sum)) := by
  have hne' : batch.map (e.rowAt p width) ≠ [] := fun hnil => hne (List.map_eq_nil_iff.mp hnil)
  have hmean := Vec.meanRows_ofFn hne'
  rw [List.map_map, List.length_map] at hmean
  unfold batchGradient
  rw [exampleGradients_eq h hbatch]
  exact hmean

theorem sum_rows_of_orders {n : Nat} (row : Nat → Fin width → ℝ) {orders : List (List Nat)}
    (h : ∀ order ∈ orders, order.Perm (List.range n)) :
    (orders.flatten.map row).sum = (orders.length : ℝ) • ((List.range n).map row).sum := by
  induction orders with
  | nil => simp
  | cons order orders ih =>
    have hsum := ((h order List.mem_cons_self).map row).sum_eq
    rw [List.flatten_cons, List.map_append, List.sum_append, hsum,
      ih fun o ho => h o (List.mem_cons_of_mem order ho), List.length_cons, Nat.cast_succ,
      add_smul, one_smul, add_comm]

theorem length_flatten_of_length {size : Nat} {lists : List (List Nat)}
    (h : ∀ xs ∈ lists, xs.length = size) : lists.flatten.length = lists.length * size := by
  rw [List.length_flatten, List.map_congr_left h, List.map_const', List.sum_replicate, smul_eq_mul]

/-- Batches of one size that together hold whole arrangements of the examples have means
that average to the mean over all examples. -/
theorem meanRows_of_batches (h : e.HasRows p width) {batches orders : List (List Nat)}
    {size : Nat} (hne : batches ≠ []) (hsize : 0 < size)
    (hlength : ∀ batch ∈ batches, batch.length = size)
    (horders : ∀ order ∈ orders, order.Perm (List.range e.terms.length))
    (hflatten : batches.flatten = orders.flatten) :
    ∃ g found, e.gradient p = .ok g ∧ batches.map (e.batchGradient p) = found.map .ok ∧
      Vec.meanRows found = .ok g := by
  let row := e.rowAt p width
  let mean := fun batch : List Nat => (size : ℝ)⁻¹ • (batch.map row).sum
  have hcount : batches.length * size = orders.length * e.terms.length := by
    have hwhole : ∀ order ∈ orders, order.length = e.terms.length := fun order horder =>
      (horders order horder).length_eq.trans List.length_range
    rw [← length_flatten_of_length hlength, hflatten, length_flatten_of_length hwhole]
  have hpos : 0 < orders.length * e.terms.length := by
    rw [← hcount]
    exact Nat.mul_pos (List.length_pos_iff.mpr hne) hsize
  have hexamples : List.range e.terms.length ≠ [] := by
    intro hnil
    rw [List.range_eq_nil.mp hnil, Nat.mul_zero] at hpos
    exact lt_irrefl 0 hpos
  have hindex : ∀ batch ∈ batches, ∀ i ∈ batch, i < e.terms.length := by
    intro batch hbatch i hi
    have hmem : i ∈ orders.flatten := hflatten ▸ List.mem_flatten_of_mem hbatch hi
    obtain ⟨order, horder, hi⟩ := List.mem_flatten.mp hmem
    exact List.mem_range.mp ((horders order horder).mem_iff.mp hi)
  have hmeans : ∀ batch ∈ batches, e.batchGradient p batch = .ok (List.ofFn (mean batch)) := by
    intro batch hbatch
    have hbatchNe : batch ≠ [] := by
      intro hnil
      have := hlength batch hbatch
      rw [hnil, List.length_nil] at this
      omega
    rw [batchGradient_eq h hbatchNe (hindex batch hbatch), hlength batch hbatch]
  have hsum : (batches.map mean).sum = (size : ℝ)⁻¹ • (batches.flatten.map row).sum := by
    rw [List.map_flatten, List.sum_flatten, List.map_map, List.smul_sum, List.map_map]
    rfl
  have hgradient := batchGradient_eq h hexamples fun i hi => List.mem_range.mp hi
  rw [List.length_range] at hgradient
  refine ⟨_, (batches.map mean).map List.ofFn, hgradient, ?_, ?_⟩
  · rw [List.map_congr_left hmeans, List.map_map, List.map_map]
    rfl
  · have hmeansNe : batches.map mean ≠ [] := fun hnil => hne (List.map_eq_nil_iff.mp hnil)
    rw [Vec.meanRows_ofFn hmeansNe, hsum, hflatten, sum_rows_of_orders row horders,
      List.length_map, smul_smul, smul_smul]
    congr 3
    have hratio : (batches.length : ℝ) * size = orders.length * e.terms.length := by
      exact_mod_cast hcount
    have hcopies : (orders.length : ℝ) ≠ 0 := by
      exact_mod_cast (Nat.pos_of_mul_pos_right hpos).ne'
    rw [← mul_inv, hratio, mul_inv, mul_right_comm, inv_mul_cancel₀ hcopies, one_mul]

end Empirical

/-! ## Calls in a row -/

namespace Problem

variable {α G : Type} [Scalar α] [IndexSource G] {s : Sampler G} {batch : Nat}

/-- The estimates of so many calls in a row, all with batches of one size. -/
def estimates (e : Empirical α) (p : Vec α) (batch : Nat) :
    Nat → Sampler G → List (Except Fault (Vec α)) × Sampler G
  | 0, s => ([], s)
  | calls + 1, s =>
    let (first, s) := estimate e s p batch
    let (rest, s) := estimates e p batch calls s
    (first :: rest, s)

variable (e : Empirical α) (p : Vec α)

theorem length_estimates (batch calls : Nat) (s : Sampler G) :
    (estimates e p batch calls s).1.length = calls := by
  induction calls generalizing s with
  | zero => rfl
  | succ calls ih => exact congrArg (· + 1) (ih _)

theorem estimate_without (hreplacement : s.withReplacement = false) (hbatch : 0 < batch) :
    estimate e s p batch =
      if s.size ≤ batch then (e.batchGradient p (List.range s.size), s)
      else (e.batchGradient p (s.continuePass batch).1, (s.continuePass batch).2) := by
  unfold estimate
  rw [Sampler.draw_without hreplacement hbatch]
  by_cases hfull : s.size ≤ batch
  · rw [if_pos hfull, if_pos hfull]
  · rw [if_neg hfull, if_neg hfull]

/-- A batch that holds every example leaves the sampler as it is. -/
theorem estimates_of_full (hreplacement : s.withReplacement = false) (hbatch : 0 < batch)
    (hfull : s.size ≤ batch) (calls : Nat) : (estimates e p batch calls s).1 =
      (List.replicate calls (List.range s.size)).map (e.batchGradient p) := by
  induction calls with
  | zero => rfl
  | succ calls ih =>
    unfold estimates
    rw [estimate_without e p hreplacement hbatch, if_pos hfull, List.replicate_succ,
      List.map_cons, ← ih]

/-- Smaller batches have the size that is asked for.  With what remains after them they
are what remained before, and whole arrangements after that. -/
theorem exists_batches [LawfulIndexSource G] (hreplacement : s.withReplacement = false)
    (hbatch : 0 < batch) (hpart : batch < s.size) (calls : Nat) :
    ∃ batches orders : List (List Nat),
      (estimates e p batch calls s).1 = batches.map (e.batchGradient p) ∧
      (∀ indices ∈ batches, indices.length = batch) ∧
      (∀ order ∈ orders, order.Perm (List.range s.size)) ∧
      batches.flatten ++ (estimates e p batch calls s).2.remaining =
        s.remaining ++ orders.flatten := by
  induction calls generalizing s with
  | zero => exact ⟨[], [], rfl, List.forall_mem_nil _, List.forall_mem_nil _,
      (List.append_nil _).symm⟩
  | succ calls ih =>
    have hdraw := s.draw_without hreplacement hbatch
    have hestimate := estimate_without e p hreplacement hbatch
    obtain ⟨hlength, first, hfirst, hshare⟩ := s.continuePass_spec hpart
    rw [if_neg (Nat.not_le.mpr hpart)] at hdraw hestimate
    generalize s.continuePass batch = pass at hdraw hestimate hlength hshare
    obtain ⟨indices, next⟩ := pass
    obtain ⟨hsize, hkeeps⟩ := Sampler.setting_of_draw hdraw
    obtain ⟨batches, orders, hestimates, hlengths, horders, hflatten⟩ :=
      ih (hkeeps.trans hreplacement) (hsize.symm ▸ hpart)
    rw [hsize] at horders
    unfold estimates
    rw [hestimate]
    refine ⟨indices :: batches, first ++ orders, ?_, ?_, ?_, ?_⟩
    · rw [List.map_cons, ← hestimates]
    · exact List.forall_mem_cons.mpr ⟨hlength, hlengths⟩
    · exact List.forall_mem_append.mpr ⟨hfirst, horders⟩
    · rw [List.flatten_cons, List.append_assoc, hflatten, ← List.append_assoc, hshare,
        List.append_assoc, ← List.flatten_append]

end Problem

namespace Empirical

variable {G : Type} [IndexSource G] [LawfulIndexSource G] {e : Empirical ℝ} {p : Vec ℝ}
  {width batch : Nat} {s : Sampler G}

open Problem

theorem take_flatten {size count : Nat} {lists : List (List Nat)}
    (h : ∀ xs ∈ lists, xs.length = size) (hcount : count ≤ lists.length) :
    lists.flatten.take (count * size) = (lists.take count).flatten := by
  have hlength : (lists.take count).flatten.length = count * size := by
    rw [length_flatten_of_length fun xs hxs => h xs (List.mem_of_mem_take hxs),
      List.length_take_of_le hcount]
  have hparts : lists.flatten = (lists.take count).flatten ++ (lists.drop count).flatten := by
    rw [← List.flatten_append, List.take_append_drop]
  rw [hparts]
  exact List.take_left' hlength

/-- From a new pass, as many calls as there are examples end with an arrangement. -/
theorem exists_batches_of_reset (hreplacement : s.withReplacement = false) (hbatch : 0 < batch)
    (hsome : 0 < s.size) :
    ∃ (size : Nat) (batches orders : List (List Nat)), 0 < size ∧
      (estimates e p batch s.size s.reset).1 = batches.map (e.batchGradient p) ∧
      (∀ indices ∈ batches, indices.length = size) ∧
      (∀ order ∈ orders, order.Perm (List.range s.size)) ∧
      batches.flatten = orders.flatten := by
  have hreset : s.reset.withReplacement = false := hreplacement
  by_cases hpart : batch < s.size
  · obtain ⟨batches, orders, hestimates, hlengths, horders, hflatten⟩ :=
      exists_batches e p hreset hbatch hpart s.size
    have hwhole : ∀ order ∈ orders, order.length = s.size := fun order horder =>
      (horders order horder).length_eq.trans List.length_range
    have hcalls : batches.length = s.size := by
      rw [← List.length_map (e.batchGradient p), ← hestimates, length_estimates]
    have htotal : batches.flatten.length = batch * s.size := by
      rw [length_flatten_of_length hlengths, hcalls, Nat.mul_comm]
    have hbegins : batches.flatten <+: orders.flatten := ⟨_, hflatten⟩
    have henough : batch ≤ orders.length := by
      have hle := hbegins.length_le
      rw [htotal, length_flatten_of_length hwhole] at hle
      exact Nat.le_of_mul_le_mul_right hle hsome
    refine ⟨batch, batches, orders.take batch, hbatch, hestimates, hlengths, ?_, ?_⟩
    · intro order horder
      exact horders order (List.mem_of_mem_take horder)
    · rw [← take_flatten hwhole henough, ← htotal]
      exact List.prefix_iff_eq_take.mp hbegins
  · have hestimates := estimates_of_full e p hreset hbatch (not_lt.mp hpart) s.size
    refine ⟨s.size, _, List.replicate s.size (List.range s.size), hsome, hestimates, ?_, ?_, rfl⟩
    · intro indices hindices
      rw [List.eq_of_mem_replicate hindices]
      exact List.length_range
    · intro order horder
      rw [List.eq_of_mem_replicate horder]

theorem exists_mean_estimates (hrows : e.HasRows p width) (hsize : s.size = e.terms.length)
    (hreplacement : s.withReplacement = false) (hbatch : 0 < batch) :
    ∃ g found, e.gradient p = .ok g ∧
      (estimates e p batch e.terms.length s.reset).1 = found.map .ok ∧
      Vec.meanRows found = .ok g := by
  rcases Nat.eq_zero_or_pos e.terms.length with hnone | hsome
  · rw [gradient_eq_batchGradient, hnone]
    refine ⟨[], [], ?_, rfl, rfl⟩
    unfold batchGradient
    rw [List.range_zero, exampleGradients_eq hrows (List.forall_mem_nil _)]
    rfl
  · rw [← hsize] at hsome ⊢
    obtain ⟨size, batches, orders, hpos, hestimates, hlengths, horders, hflatten⟩ :=
      exists_batches_of_reset (e := e) (p := p) hreplacement hbatch hsome
    rw [hsize] at horders
    have hne : batches ≠ [] := by
      intro hnil
      have hlength := length_estimates e p batch s.size s.reset
      rw [hestimates, hnil, List.map_nil, List.length_nil] at hlength
      omega
    obtain ⟨g, found, hgradient, hfound, hmean⟩ :=
      meanRows_of_batches hrows hne hpos hlengths horders hflatten
    exact ⟨g, found, hgradient, hestimates.trans hfound, hmean⟩

/-- Without replacement and from a new pass, the estimates of as many calls in a row as
there are examples average to the gradient, whatever the size of a batch.  Each of them is
the gradient if a batch holds every example. -/
theorem estimates_average (hrows : e.HasRows p width) (hsize : s.size = e.terms.length)
    (hreplacement : s.withReplacement = false) (hbatch : 0 < batch) :
    ∃ g found, e.gradient p = .ok g ∧
      (estimates e p batch e.terms.length s.reset).1 = found.map .ok ∧
      found.length = e.terms.length ∧ Vec.meanRows found = .ok g ∧
      (e.terms.length ≤ batch → ∀ estimate ∈ found, estimate = g) := by
  have hreset : s.reset.withReplacement = false := hreplacement
  obtain ⟨g, found, hgradient, hfound, hmean⟩ :=
    exists_mean_estimates hrows hsize hreplacement hbatch
  refine ⟨g, found, hgradient, hfound, ?_, hmean, ?_⟩
  · rw [← List.length_map (Except.ok : Vec ℝ → Except Fault (Vec ℝ)), ← hfound, length_estimates]
  · intro hfull estimate hmem
    have hall := estimates_of_full e p hreset hbatch (hsize ▸ hfull) e.terms.length
    have hone : Except.ok estimate ∈ found.map (Except.ok : Vec ℝ → Except Fault (Vec ℝ)) :=
      List.mem_map_of_mem hmem
    rw [← hfound, hall, List.map_replicate] at hone
    have hsame := List.eq_of_mem_replicate hone
    rw [show s.reset.size = e.terms.length from hsize, ← gradient_eq_batchGradient,
      hgradient] at hsame
    exact Except.ok.inj hsame

/-- Three examples of a line through the origin. -/
noncomputable def line : Empirical ℝ where
  dimension := 1
  terms := [LeastSquares.term [1] 0, LeastSquares.term [2] 1, LeastSquares.term [3] 1]

theorem leastSquares_line :
    leastSquares (.row [.ofVec [1], .ofVec [2], .ofVec [3]]) (.ofVec [0, 1, 1]) = .ok line := by
  rfl

/-- Batches of two among three examples straddle the arrangements. -/
theorem estimates_average_line :
    let s : Sampler Congruential := ⟨3, false, .ofSeed 7, [1]⟩
    ∃ g found, line.gradient [1] = .ok g ∧
      (estimates line [1] 2 3 s.reset).1 = found.map .ok ∧ found.length = 3 ∧
      Vec.meanRows found = .ok g := by
  intro s
  have hrows := hasRows_leastSquares (p := [1]) leastSquares_line rfl
  obtain ⟨g, found, hgradient, hfound, hlength, hmean, -⟩ :=
    estimates_average (s := s) hrows rfl rfl two_pos
  exact ⟨g, found, hgradient, hfound, hlength, hmean⟩

end Empirical

end Downhill
