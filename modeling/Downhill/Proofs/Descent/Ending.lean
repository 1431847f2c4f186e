import Downhill.Proofs.Descent.Loop

/-!
# Reasons to stop

A declarative rule says at which entry of a course a run has to stop and why: the
gradient is short, the rule of the caller's own holds, the limit is reached, or the
last changes of the point or of the value have all been small.  Several reasons can
hold at one entry, and the first of them is the one that is reported.
-/

namespace Downhill

/-! ## Idle entries -/

/-- So many entries up to a given one are idle, the very first entry not among them. -/
def Stalled (idle : Nat → Prop) (patience k : Nat) : Prop :=
  patience ≤ k ∧ ∀ i < patience, idle (k - i)

theorem stalled_congr {idle idle' : Nat → Prop} {p k : Nat} (h : ∀ j ≤ k, idle j ↔ idle' j) :
    Stalled idle p k ↔ Stalled idle' p k :=
  and_congr_right fun _ => forall₂_congr fun i _ => h (k - i) (Nat.sub_le k i)

theorem stalled_succ_iff {idle : Nat → Prop} {p k : Nat} :
    Stalled idle (p + 1) (k + 1) ↔ idle (k + 1) ∧ Stalled idle p k := by
  constructor
  · rintro ⟨hle, hall⟩
    refine ⟨hall 0 p.succ_pos, Nat.le_of_succ_le_succ hle, fun i hi => ?_⟩
    have hidle := hall (i + 1) (Nat.succ_lt_succ hi)
    rw [Nat.add_sub_add_right] at hidle
    exact hidle
  · rintro ⟨hidle, hle, hall⟩
    refine ⟨Nat.succ_le_succ hle, fun i hi => ?_⟩
    cases i with
    | zero => exact hidle
    | succ i =>
      rw [Nat.add_sub_add_right]
      exact hall i (Nat.lt_of_succ_lt_succ hi)

/-- A count of the idle entries in a row up to a given one. -/
def CountsIdle (idle : Nat → Prop) (k count : Nat) : Prop :=
  ∀ patience, patience ≤ count ↔ Stalled idle patience k

theorem countsIdle_zero (idle : Nat → Prop) : CountsIdle idle 0 0 := by
  intro patience
  constructor
  · intro h
    exact ⟨h, fun i hi => by omega⟩
  · exact And.left

theorem CountsIdle.succ {α : Type} [Scalar α] {idle : Nat → Prop} {k count : Nat}
    {change tolerance : α} (h : CountsIdle idle k count)
    (hidle : idle (k + 1) ↔ change ≤ tolerance) :
    CountsIdle idle (k + 1) (Descent.idleAfter count change tolerance) := by
  intro patience
  cases patience with
  | zero => exact iff_of_true (Nat.zero_le _) ⟨Nat.zero_le _, fun i hi => absurd hi i.not_lt_zero⟩
  | succ p =>
    rw [stalled_succ_iff, hidle]
    unfold Descent.idleAfter
    by_cases hsmall : change ≤ tolerance
    · rw [if_pos hsmall, Nat.succ_le_succ_iff, h p]
      exact (and_iff_right hsmall).symm
    · rw [if_neg hsmall]
      exact iff_of_false (Nat.not_succ_le_zero p) fun hboth => hsmall hboth.1

/-! ## The rule -/

/-- What can end a run, in the order in which it is looked for. -/
inductive Ending
  | gradient
  | custom
  | limit
  | point
  | value
  deriving DecidableEq, Repr

/-- The place in the order. -/
def Ending.place : Ending → Nat
  | gradient => 0
  | custom => 1
  | limit => 2
  | point => 3
  | value => 4

namespace Course

open Descent DescentM

variable {R S α : Type} [Scalar α] [DirectionRule R α] (c : Course R α)
  (settings : DescentSettings α) (k : Nat)

/-- How far the point of an entry is from the one before. -/
def pointChange : Option α := ((c.point k).sub (c.point (k - 1))).toOption.map Vec.norm

/-- How far the value of an entry is from the one before. -/
def valueChange : α := Scalar.abs (c.value k - c.value (k - 1))

def pointPatience : Nat := max settings.pointPatience (DirectionRule.patience (c.rule k))

def valuePatience : Nat := max settings.valuePatience (DirectionRule.patience (c.rule k))

def PointIdle : Prop := ∃ change, c.pointChange k = some change ∧ change ≤ settings.pointTolerance

def ValueIdle : Prop := c.valueChange k ≤ settings.valueTolerance

/-- Whether there is a reason of the given kind to stop at an entry. -/
def Ends : Ending → Prop
  | .gradient => settings.checksGradient = true ∧
      Vec.norm (c.gradient k) ≤ Scalar.larger settings.gradientTolerance Descent.gradientFloor
  | .custom => ∃ predicate, settings.predicate = some predicate ∧
      predicate (c.point k) = .ok true
  | .limit => settings.maxIterations ≤ k
  | .point => settings.checksPoint = true ∧ 0 < k ∧
      Stalled (c.PointIdle settings) (c.pointPatience settings k) k
  | .value => settings.checksValue = true ∧ 0 < k ∧
      Stalled (c.ValueIdle settings) (c.valuePatience settings k) k

/-- The first reason to stop at an entry. -/
def EndsFirst (e : Ending) : Prop :=
  c.Ends settings k e ∧ ∀ e', c.Ends settings k e' → e.place ≤ e'.place

/-- A run gets to an entry if there is no reason to stop before it. -/
def Reaches : Prop := ∀ j < k, ∀ e, ¬c.Ends settings j e

/-- How a reason to stop is reported. -/
def verdict : Ending → Verdict α
  | .gradient => .gradient
  | .custom => .custom
  | .limit => .limit
  | .point => .point (c.pointChange k) settings.pointTolerance (c.pointPatience settings k)
  | .value => .value (some (c.valueChange k)) settings.valueTolerance (c.valuePatience settings k)

/-- A solver that has stopped at an entry for a reason.  When point and value have both
been idle for long enough, both are marked, and the point is reported. -/
structure StoppedBy (e : Ending) (s : Descent R S α) : Prop where
  current : s.current = c.iterate k
  gradientConverged : s.gradientConverged = true ↔ e = .gradient
  customConverged : s.customConverged = true ↔ e = .custom
  pointConverged : s.pointConverged = true ↔ e = .point
  valueConverged : s.valueConverged = true ↔
    (e = .point ∨ e = .value) ∧ c.Ends settings k .value
  verdict : s.verdict = c.verdict settings k e
  success : s.summary.success = false ↔ e = .limit

variable {c settings k} {m : Nat} {objective : Objective α} {search : S} {s t : Descent R S α}

theorem Ends.limit_of_unchecked {e : Ending} (hends : c.Ends settings k e)
    (h : settings.Unchecked) : settings.maxIterations ≤ k := by
  cases e with
  | gradient => simp [Ends, h.checksGradient] at hends
  | custom => simp [Ends, h.predicate] at hends
  | limit => exact hends
  | point => simp [Ends, h.checksPoint] at hends
  | value => simp [Ends, h.checksValue] at hends

theorem Reaches.not_ends_pred (h : c.Reaches settings k) {e : Ending}
    (he : e = .point ∨ e = .value) : ¬c.Ends settings (k - 1) e := by
  cases k with
  | zero => rcases he with rfl | rfl <;> exact fun hends => absurd hends.2.1 (Nat.lt_irrefl 0)
  | succ k => exact h k k.lt_succ_self e

theorem Reaches.succ (h : c.Reaches settings k) (hk : ∀ e, ¬c.Ends settings k e) :
    c.Reaches settings (k + 1) := by
  intro j hj
  rcases Nat.lt_succ_iff_lt_or_eq.mp hj with hj | rfl
  · exact h j hj
  · exact hk

theorem Describes.pointPatience (hs : c.Describes k s) (hsettings : s.settings = settings) :
    s.pointPatience = c.pointPatience settings k := by
  unfold Descent.pointPatience
  rw [hsettings, hs.rule]
  rfl

theorem Describes.valuePatience (hs : c.Describes k s) (hsettings : s.settings = settings) :
    s.valuePatience = c.valuePatience settings k := by
  unfold Descent.valuePatience
  rw [hsettings, hs.rule]
  rfl

/-- The flags of a solver tell why it has stopped. -/
theorem StoppedBy.of_flags {e : Ending} (hends : c.Ends settings k e) (hs : c.Describes k s)
    (hsettings : s.settings = settings)
    (hgradient : s.gradientConverged = true ↔ e = .gradient)
    (hcustom : s.customConverged = true ↔ e = .custom)
    (hpoint : s.pointConverged = true ↔ e = .point)
    (hvalue : s.valueConverged = true ↔ (e = .point ∨ e = .value) ∧ c.Ends settings k .value)
    (hpointChange : e = .point → s.pointChange = c.pointChange k)
    (hvalueChange : e = .value → s.valueChange = some (c.valueChange k)) :
    c.StoppedBy settings k e s := by
  refine ⟨hs.current, hgradient, hcustom, hpoint, hvalue, ?_, ?_⟩
  · unfold Descent.verdict
    rw [hs.pointPatience hsettings, hs.valuePatience hsettings, hsettings]
    cases e with
    | gradient => rw [if_pos (hgradient.mpr rfl)]; rfl
    | custom => simp_all; rfl
    | limit => simp_all; rfl
    | point => simp_all; rfl
    | value => simp_all; rfl
  · show s.converged = false ↔ _
    unfold Descent.converged
    cases e with
    | gradient | custom | limit | point | value => simp_all

theorem StoppedBy.of_early {e : Ending} (hpoint : e ≠ .point) (hvalue : e ≠ .value)
    (hends : c.Ends settings k e) (hs : c.Describes k s) (hsettings : s.settings = settings)
    (hgradient : s.gradientConverged = true ↔ e = .gradient)
    (hcustom : s.customConverged = true ↔ e = .custom)
    (hpointConverged : s.pointConverged = false) (hvalueConverged : s.valueConverged = false) :
    c.StoppedBy settings k e s := by
  refine .of_flags hends hs hsettings hgradient hcustom ?_ ?_ (absurd · hpoint) (absurd · hvalue)
  · exact iff_of_false (Bool.eq_false_iff.mp hpointConverged) hpoint
  · exact iff_of_false (Bool.eq_false_iff.mp hvalueConverged) fun h => h.1.elim hpoint hvalue

end Course

end Downhill
