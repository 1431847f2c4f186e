import Downhill.Proofs.LineSearch.Ascent
import Downhill.Proofs.LineSearch.Trials
import Downhill.Proofs.Number.Ordered

/-!
# Zooms that stall

An iteration of the zoom is idle if the value at its trial step is not smaller than the
smallest trial value before.  Once a trial value lies below infinity, a zoom stalls after
eleven idle iterations in a row.  As long as none does, it stalls after ten of them, because
the count of idle trials starts at one.

Slopes and values may be anything, and the order of the numbers is all that is used of them:
the statements hold over doubles as they hold in exact arithmetic.
-/

namespace Downhill

open Extended (real)

namespace Wolfe

section

variable {α : Type} [Scalar α] (w : Wolfe α) (phi slope : α → α) (proposal : α)

/-- The values at the trial steps of the zoom, by iteration.  The first iteration is number
one. -/
inductive TrialValue : Nat → α → Prop
  | ofReached {i : Nat} {z : Zoom α} (hz : w.Reached phi slope proposal i z)
    (hi : i < w.zoomLimit) :
    TrialValue (i + 1) (phi (Cubic.plainTrial phi slope z.low z.high))

/-- The value is smaller than the smallest trial value of the first `k` iterations.  That is
infinity, unless one of these values lies below it. -/
structure Undercuts (k : Nat) (v : α) : Prop where
  below : Scalar.belowInfinity v
  lt {j : Nat} {u : α} (hj : j ≤ k) (hu : w.TrialValue phi slope proposal j u)
    (hbelow : Scalar.belowInfinity u) : v < u

/-- The trials of the iterations after `k`, up to `i`, are not smaller than the smallest one
before them. -/
def Idle (k i : Nat) : Prop :=
  ∀ j, k < j → j ≤ i →
    ∃ v, w.TrialValue phi slope proposal j v ∧ ¬w.Undercuts phi slope proposal k v

/-- What the zoom remembers of its first `i` iterations, if `k` is the last of them that
undercut all before it, or zero if none did. -/
structure Records (k i : Nat) (z : Zoom α) : Prop where
  improves_iff (v : α) : z.improves v ↔ w.Undercuts phi slope proposal k v
  idle : w.Idle phi slope proposal k i
  count : k = 0 ∧ z.idle = i + 1 ∨
    ∃ j v, k = j + 1 ∧ i = k + z.idle ∧ w.TrialValue phi slope proposal k v ∧
      w.Undercuts phi slope proposal j v
  patient : z.idle ≤ Zoom.patience

variable {w phi slope proposal}

theorem TrialValue.pos {i : Nat} {v : α} (h : w.TrialValue phi slope proposal i v) : 0 < i := by
  cases h with
  | ofReached => exact Nat.succ_pos _

theorem TrialValue.unique {i : Nat} {u v : α} (hu : w.TrialValue phi slope proposal i u)
    (hv : w.TrialValue phi slope proposal i v) : u = v := by
  cases hu with
  | ofReached hz =>
    cases hv with
    | ofReached hz' => rw [hz.unique hz']

theorem undercuts_zero_iff {v : α} :
    w.Undercuts phi slope proposal 0 v ↔ Scalar.belowInfinity v := by
  refine ⟨Undercuts.below, fun h => ⟨h, fun hj hu _ => ?_⟩⟩
  exact absurd hu.pos (not_lt.mpr hj)

theorem Idle.succ {k i : Nat} {v : α} (h : w.Idle phi slope proposal k i)
    (hv : w.TrialValue phi slope proposal (i + 1) v)
    (hidle : ¬w.Undercuts phi slope proposal k v) : w.Idle phi slope proposal k (i + 1) := by
  intro j hkj hj
  rcases Nat.le_succ_iff_eq_or_le.mp hj with rfl | hj
  · exact ⟨v, hv, hidle⟩
  · exact h j hkj hj

theorem records_start (low high : α) :
    w.Records phi slope proposal 0 0 (Zoom.start low high) where
  improves_iff _ := undercuts_zero_iff.symm
  idle j hj hj' := absurd hj' (not_le.mpr hj)
  count := Or.inl ⟨rfl, rfl⟩
  patient := (by decide : 1 ≤ Zoom.patience)

theorem plainZoomStep_inl {start : Start α} {i : Nat} {z z' : Zoom α}
    (h : w.plainZoomStep phi slope start i z = .inl z') :
    (z.improves (phi (Cubic.plainTrial phi slope z.low z.high)) ∧
      z'.best = some (phi (Cubic.plainTrial phi slope z.low z.high)) ∧ z'.idle = 0) ∨
    (¬z.improves (phi (Cubic.plainTrial phi slope z.low z.high)) ∧
      z'.best = z.best ∧ z'.idle = z.idle + 1 ∧ z'.idle ≤ Zoom.patience) := by
  rw [plainZoomStep_eq] at h
  dsimp only at h
  split at h
  · cases h
  · split_ifs at h with himproves hpatience
    · cases h
      exact Or.inl ⟨himproves, rfl, rfl⟩
    · cases h
      exact Or.inr ⟨himproves, rfl, rfl, not_lt.mp hpatience⟩

/-- The doubling phase does not stall. -/
theorem not_stalled_of_plainExpand {start : Start α} {left : Nat} {previous : Option α}
    {step : α} {outcome : Outcome α}
    (h : w.plainExpand phi slope start left previous step = .outcome outcome) (i : Nat) :
    outcome.exit ≠ .stalled i := by
  induction left generalizing previous step with
  | zero =>
    cases h
    nofun
  | succ left ih =>
    rw [plainExpand_succ] at h
    split_ifs at h
    · cases h
      nofun
    · cases h
      nofun
    · exact ih h

variable [OrderedScalar α]

/-- Idle iterations leave the smallest trial value as it is. -/
theorem Undercuts.of_idle {k i : Nat} {v : α} (h : w.Undercuts phi slope proposal k v)
    (hidle : w.Idle phi slope proposal k i) : w.Undercuts phi slope proposal i v := by
  refine ⟨h.below, fun {j u} hj hu hbelow => ?_⟩
  by_cases hjk : j ≤ k
  · exact h.lt hjk hu hbelow
  obtain ⟨u', hu', hnot⟩ := hidle j (not_le.mp hjk) hj
  rw [hu'.unique hu] at hnot
  by_contra hge
  -- What lies between `v` and the first trial values would undercut these too.
  refine hnot ⟨hbelow, fun hj' hfirst hbelow' => ?_⟩
  exact (OrderedScalar.lt_or_lt (h.lt hj' hfirst hbelow') hbelow).resolve_left hge

/-- The trial value that undercuts all before it is the smallest from then on. -/
theorem undercuts_succ_iff {k : Nat} {u v : α} (hv : w.TrialValue phi slope proposal (k + 1) v)
    (hlow : w.Undercuts phi slope proposal k v) :
    w.Undercuts phi slope proposal (k + 1) u ↔ u < v := by
  refine ⟨fun h => h.lt le_rfl hv hlow.below, fun hlt => ?_⟩
  refine ⟨OrderedScalar.belowInfinity_of_lt hlt, fun {j u'} hj hu' hbelow => ?_⟩
  rcases Nat.le_succ_iff_eq_or_le.mp hj with rfl | hj
  · rwa [hu'.unique hv]
  · have hafter : v < u' := hlow.lt hj hu' hbelow
    exact (OrderedScalar.lt_or_lt hlt hbelow).resolve_right (OrderedScalar.lt_asymm hafter)

/-- An iteration that goes on either has the smallest trial value, or is one more idle one. -/
theorem Records.step {k i : Nat} {z z' : Zoom α} (h : w.Records phi slope proposal k i z)
    (hz : w.Reached phi slope proposal i z) (hi : i < w.zoomLimit)
    (hstep : w.plainZoomStep phi slope ⟨phi 0, slope 0⟩ (i + 1) z = .inl z') :
    ∃ k', w.Records phi slope proposal k' (i + 1) z' := by
  have hv : w.TrialValue phi slope proposal (i + 1) _ := .ofReached hz hi
  rcases plainZoomStep_inl hstep with ⟨himproves, hbest, hcount⟩ | ⟨hidle, hbest, hcount, hle⟩
  · have hlow := ((h.improves_iff _).mp himproves).of_idle h.idle
    refine ⟨i + 1, fun u => ?_, fun j hj hj' => ?_, Or.inr ⟨i, _, rfl, ?_, hv, hlow⟩, ?_⟩
    · rw [undercuts_succ_iff hv hlow]
      unfold Zoom.improves
      rw [hbest]
    · omega
    · rw [hcount]
    · rw [hcount]
      exact Nat.zero_le _
  · rw [h.improves_iff] at hidle
    refine ⟨k, fun u => ?_, h.idle.succ hv hidle, ?_, hle⟩
    · rw [← h.improves_iff]
      unfold Zoom.improves
      rw [hbest]
    · rcases h.count with ⟨hk, hidles⟩ | ⟨j, v, hk, hidles, hlast⟩
      · exact Or.inl ⟨hk, by omega⟩
      · exact Or.inr ⟨j, v, hk, by omega, hlast⟩

theorem exists_records {i : Nat} {z : Zoom α} (h : w.Reached phi slope proposal i z) :
    ∃ k, w.Records phi slope proposal k i z := by
  induction h with
  | start => exact ⟨0, records_start _ _⟩
  | step hz hi hstep ih =>
    obtain ⟨k, hrecords⟩ := ih
    exact hrecords.step hz hi hstep

/-- What a search has behind it when it stalls: eleven idle iterations after the one with the
smallest trial value, or ten iterations without a trial value below infinity. -/
theorem of_stalled {step : α} {i : Nat}
    (h : w.plainSearch phi slope proposal = ⟨step, .stalled i⟩) :
    w.TrialValue phi slope proposal i (phi step) ∧
      ((∃ k v, i = k + 1 + 11 ∧ w.TrialValue phi slope proposal (k + 1) v ∧
          w.Undercuts phi slope proposal k v ∧ w.Idle phi slope proposal (k + 1) i) ∨
        i = 10 ∧ w.Idle phi slope proposal 0 i) := by
  rcases w.plainSearch_cases phi slope proposal with
    ⟨-, huphill⟩ | ⟨-, hbracketing⟩ | ⟨j, z, hz, hj, hstep⟩ | ⟨z, -, hexhausted⟩
  · rw [h] at huphill
    cases huphill
  · rw [h] at hbracketing
    exact absurd rfl (not_stalled_of_plainExpand hbracketing i)
  · rw [h] at hstep
    obtain ⟨htrial, ⟨hexit, -⟩ | ⟨hexit, hpatience, hidle⟩⟩ := plainZoomStep_inr hstep
    · cases hexit
    cases hexit
    have hv : w.TrialValue phi slope proposal (j + 1) (phi step) := by
      rw [show step = Cubic.plainTrial phi slope z.low z.high from htrial]
      exact .ofReached hz hj
    obtain ⟨k, hrecords⟩ := exists_records hz
    have hspan := hrecords.idle.succ hv (mt (hrecords.improves_iff _).mpr hidle)
    have hten : z.idle = 10 := le_antisymm hrecords.patient (Nat.le_of_lt_succ hpatience)
    refine ⟨hv, ?_⟩
    rcases hrecords.count with ⟨rfl, hcount⟩ | ⟨k, v, rfl, hcount, hlast, hlow⟩
    · exact Or.inr ⟨by omega, hspan⟩
    · exact Or.inl ⟨k, v, by omega, hlast, hlow, hspan⟩
  · rw [h] at hexhausted
    cases hexhausted

/-- A search that stalls has gone through more than ten idle iterations, one after the other up
to the last, exactly if some trial value lies below infinity.  These are then the eleven
iterations after the one with the smallest trial value.  Otherwise all trial values are infinite
or not numbers, and the search stalls in iteration ten. -/
theorem stalled_after_idle {step : α} {i : Nat}
    (h : w.plainSearch phi slope proposal = ⟨step, .stalled i⟩) :
    w.TrialValue phi slope proposal i (phi step) ∧
      ((∃ k, k + 10 < i ∧ w.Idle phi slope proposal k i) ↔
        ∃ j v, j ≤ i ∧ w.TrialValue phi slope proposal j v ∧ Scalar.belowInfinity v) ∧
      ((∃ k v, i = k + 1 + 11 ∧ w.TrialValue phi slope proposal (k + 1) v ∧
          w.Undercuts phi slope proposal k v ∧ w.Idle phi slope proposal (k + 1) i) ∨
        i = 10 ∧ w.Idle phi slope proposal 0 i) := by
  obtain ⟨hv, hcases⟩ := of_stalled h
  refine ⟨hv, ⟨?_, ?_⟩, hcases⟩
  · rintro ⟨k, hk, -⟩
    rcases hcases with ⟨k, v, hi, hlast, hlow, -⟩ | ⟨hi, -⟩
    · exact ⟨k + 1, v, by omega, hlast, hlow.below⟩
    · omega
  · rintro ⟨j, u, hj, hu, hbelow⟩
    rcases hcases with ⟨k, v, hi, -, -, hidle⟩ | ⟨-, hidle⟩
    · exact ⟨k + 1, by omega, hidle⟩
    · obtain ⟨u', hu', hnot⟩ := hidle j hu.pos hj
      rw [hu'.unique hu, undercuts_zero_iff] at hnot
      exact absurd hbelow hnot

end

/-- The constants that a search over doubles has by default. -/
def usualDoubles : Wolfe Float := ⟨1e-4, 0.9, 10.0, 100⟩

/-- A parabola that ends at an infinite wall, where it is lowest. -/
def wall (a : Float) : Float := if a ≤ 0.0005 then a * a - 0.001 * a else 1.0 / 0.0

def wallSlope (a : Float) : Float := 2.0 * a - 0.001

def wallRay : Ray Float where
  objective := ⟨fun x => .ok (wall (x.headD 0)), fun x => .ok [wallSlope (x.headD 0)]⟩
  origin := [0]
  direction := [1]

theorem plainSearch_wall :
    usualDoubles.plainSearch wall wallSlope 1.0 = ⟨0.0009765625, .stalled 10⟩ := by
  decide +kernel

/-- On the plateau the first trial of the zoom has the smallest value, and iteration twelve is
the eleventh idle one.  In front of the wall there are only ten iterations, all of them idle. -/
theorem stalled_after_idle_plateau :
    (usual.plainSearch plateau plateauSlope (real 1) = ⟨real (1 / 4096), .stalled 12⟩ ∧
      ∃ k, k + 10 < 12 ∧ usual.Idle plateau plateauSlope (real 1) k 12) ∧
    usualDoubles.plainSearch wall wallSlope 1.0 = ⟨0.0009765625, .stalled 10⟩ ∧
      usualDoubles.Idle wall wallSlope 1.0 0 10 := by
  have hvalue : plateau (real (1 / 4096)) = 1 := plateau_above (by norm_num)
  obtain ⟨hlast, hmore, -⟩ := stalled_after_idle plainSearch_plateau
  obtain ⟨-, -, ⟨k, v, hi, -⟩ | ⟨-, hidle⟩⟩ := stalled_after_idle plainSearch_wall
  · omega
  rw [hvalue] at hlast
  exact ⟨⟨plainSearch_plateau, hmore.mpr ⟨12, 1, le_rfl, hlast, Or.inl rfl⟩⟩,
    plainSearch_wall, hidle⟩

/-- In front of the wall the search stalls in iteration ten, at a step of infinite value.  Half
that step satisfies both conditions. -/
theorem stalled_too_early :
    checkConstants usualDoubles.c1 usualDoubles.c2 usualDoubles.maxStep = .ok () ∧
      wallSlope 0 < 0 ∧
      usualDoubles.plainSearch wall wallSlope 1.0 = ⟨0.0009765625, .stalled 10⟩ ∧
      (Ray.explore (usualDoubles.search wallRay.value wallRay.slope 1.0)).journaled.1.toOption =
        some ⟨0.0009765625, .stalled 10⟩ ∧
      (¬∃ k, k + 10 < 10 ∧ usualDoubles.Idle wall wallSlope 1.0 k 10) ∧
      Scalar.isFinite (wall 0.0009765625) = false ∧
      ¬usualDoubles.exceeds ⟨wall 0, wallSlope 0⟩ 0.00048828125 (wall 0.00048828125) ∧
      usualDoubles.flat ⟨wall 0, wallSlope 0⟩ (wallSlope 0.00048828125) := by
  refine ⟨rfl, ?_, plainSearch_wall, ?_, fun ⟨k, hk, _⟩ => absurd hk (by omega), ?_⟩
  · decide
  · decide +kernel
  · decide +kernel

end Wolfe

end Downhill
