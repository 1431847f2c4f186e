import Downhill.Direction.Coordinate

/-!
# The order of coordinate directions

Every order repeats itself after a period.  A stretch of headings that is as long as the
period has every coordinate in it, wherever it begins, and a shorter one can miss the
first coordinate.  The period is the number of coordinates for the cyclic order only:
going back and forth takes nearly twice as long, and a joining step adds one.
-/

namespace Downhill

variable {P : Type}

namespace CoordinateOrder

/-- After so many headings an order begins again. -/
def period (order : CoordinateOrder) (n : Nat) : Nat :=
  match order with
  | cycle => n
  | backAndForth => if n = 1 then 1 else 2 * n - 2
  | cycleAndJoin => n + 1

/-- The heading at a place in the order, counted from the start of a period. -/
def headingAt (order : CoordinateOrder) (n m : Nat) : Heading :=
  match order with
  | cycle => .axis m
  | backAndForth => if m < n then .axis m else .axis (2 * n - 2 - m)
  | cycleAndJoin => if m < n then .axis m else .join

/-- The heading of an iteration. -/
def heading (order : CoordinateOrder) (n k : Nat) : Heading :=
  headingAt order n (k % order.period n)

@[simp] theorem period_cycle (n : Nat) : cycle.period n = n := rfl

@[simp] theorem period_cycleAndJoin (n : Nat) : cycleAndJoin.period n = n + 1 := rfl

theorem period_backAndForth (n : Nat) : backAndForth.period n = if n = 1 then 1 else 2 * n - 2 :=
  rfl

variable {order : CoordinateOrder} {n : Nat}

theorem period_pos (hn : 0 < n) : 0 < order.period n := by
  cases order with
  | cycle => exact hn
  | backAndForth =>
    rw [period_backAndForth]
    split <;> omega
  | cycleAndJoin => exact n.succ_pos

theorem le_period (hn : 0 < n) : n ≤ order.period n := by
  cases order with
  | cycle => exact Nat.le_refl n
  | backAndForth =>
    rw [period_backAndForth]
    split <;> omega
  | cycleAndJoin => exact n.le_succ

theorem headingAt_of_lt {i : Nat} (hi : i < n) : headingAt order n i = .axis i := by
  cases order with
  | cycle => rfl
  | backAndForth => exact if_pos hi
  | cycleAndJoin => exact if_pos hi

/-- Within a period the first coordinate comes up once. -/
theorem headingAt_eq_first {m : Nat} (hm : m < order.period n)
    (h : headingAt order n m = .axis 0) : m = 0 := by
  cases order with
  | cycle => exact Heading.axis.inj h
  | backAndForth =>
    rw [period_backAndForth] at hm
    unfold headingAt at h
    dsimp only at h
    split at h
    · exact Heading.axis.inj h
    · have hzero := Heading.axis.inj h
      split at hm <;> omega
  | cycleAndJoin =>
    unfold headingAt at h
    dsimp only at h
    split at h
    · exact Heading.axis.inj h
    · cases h

/-- No order turns to a coordinate that there is not. -/
theorem lt_of_heading {k i : Nat} (hn : 0 < n) (h : order.heading n k = .axis i) : i < n := by
  have hplace := Nat.mod_lt k (order.period_pos hn)
  unfold heading headingAt at h
  cases order with
  | cycle =>
    obtain rfl := Heading.axis.inj h
    exact hplace
  | backAndForth =>
    dsimp only at h
    split at h
    · cases h
      assumption
    · have hi := Heading.axis.inj h
      omega
  | cycleAndJoin =>
    dsimp only at h
    split at h
    · cases h
      assumption
    · cases h

/-- A stretch of headings has every coordinate in it, wherever it begins, just when it is
as long as the period. -/
theorem covers_iff (hn : 0 < n) (p : Nat) :
    (∀ s, ∀ i < n, ∃ j, s ≤ j ∧ j < s + p ∧ order.heading n j = .axis i) ↔
      order.period n ≤ p := by
  have hpos := order.period_pos hn
  constructor
  · intro hcovers
    obtain ⟨j, hlow, hhigh, hheading⟩ := hcovers 1 0 hn
    have hstart : j % order.period n = 0 := headingAt_eq_first (Nat.mod_lt j hpos) hheading
    -- After the first heading the next one of its kind is a period away.
    have hle := Nat.le_of_dvd hlow (Nat.dvd_of_mod_eq_zero hstart)
    omega
  · intro hp s i hi
    have hlt : i < order.period n := Nat.lt_of_lt_of_le hi (le_period hn)
    let q := order.period n
    let j := s + (i + q - s % q) % q
    have hshort : (i + q - s % q) % q < q := Nat.mod_lt _ hpos
    have hs : s % q < q := Nat.mod_lt s hpos
    have hj : j % q = i := by
      have hsum : (s + (i + q - s % q)) % q = i := by
        have hsplit := Nat.div_add_mod s q
        have heq : s + (i + q - s % q) = i + q * (s / q + 1) := by
          rw [Nat.mul_add, Nat.mul_one]
          omega
        rw [heq, Nat.add_mul_mod_self_left, Nat.mod_eq_of_lt hlt]
      rw [Nat.add_mod, Nat.mod_mod, ← Nat.add_mod]
      exact hsum
    refine ⟨j, Nat.le_add_right _ _, by omega, ?_⟩
    show headingAt order n (j % q) = .axis i
    rw [hj]
    exact headingAt_of_lt hi

end CoordinateOrder

namespace Coordinate

/-- Where a rule stands in its order after so many directions. -/
def AtPlace (c : Coordinate P) (n k : Nat) : CoordinateOrder → Prop
  | .cycle => c.current = k % n
  | .backAndForth => n = 1 ∨ c.current ≤ 2 * n - 2 ∧ c.current % (2 * n - 2) = k % (2 * n - 2)
  | .cycleAndJoin => c.current = k % (n + 1) ∧ c.completed = decide (c.current = n)

/-- A rule that has given so many directions. -/
structure HasGiven (c : Coordinate P) (order : CoordinateOrder) (n k : Nat) : Prop where
  order_eq : c.order = order
  dimension_eq : c.dimension = n
  place : c.AtPlace n k order

variable {c : Coordinate P} {order : CoordinateOrder} {n k : Nat}

theorem hasGiven_start (hn : 0 < n) (point : P) : (start order n point).HasGiven order n 0 := by
  refine ⟨rfl, rfl, ?_⟩
  cases order with
  | cycle => exact (Nat.zero_mod n).symm
  | backAndForth => exact Or.inr ⟨Nat.zero_le _, rfl⟩
  | cycleAndJoin =>
    refine ⟨(Nat.zero_mod _).symm, ?_⟩
    exact (decide_eq_false (Nat.ne_of_lt hn)).symm

theorem HasGiven.moved (h : c.HasGiven order n k) (point : P) :
    (c.moved point).HasGiven order n k := by
  have hplace := h.place
  unfold Coordinate.moved
  split
  · split
    · refine ⟨h.order_eq, h.dimension_eq, ?_⟩
      cases order <;> exact hplace
    · split
      · refine ⟨h.order_eq, h.dimension_eq, ?_⟩
        cases order <;> exact hplace
      · exact h
  · exact h

theorem HasGiven.turnCycle (h : c.HasGiven .cycle n k) :
    c.turnCycle.1 = CoordinateOrder.cycle.heading n k ∧
      c.turnCycle.2.HasGiven .cycle n (k + 1) := by
  have hcurrent : c.current = k % n := h.place
  refine ⟨congrArg Heading.axis hcurrent, h.order_eq, h.dimension_eq, ?_⟩
  show (c.current + 1) % c.dimension = (k + 1) % n
  rw [h.dimension_eq, hcurrent, Nat.mod_add_mod]

theorem HasGiven.turnBackAndForth (h : c.HasGiven .backAndForth n k) (hn : 0 < n) :
    c.turnBackAndForth.1 = CoordinateOrder.backAndForth.heading n k ∧
      c.turnBackAndForth.2.HasGiven .backAndForth n (k + 1) := by
  unfold Coordinate.turnBackAndForth CoordinateOrder.heading CoordinateOrder.headingAt
  rw [h.dimension_eq, CoordinateOrder.period_backAndForth]
  by_cases hone : n = 1
  · rw [if_pos hone, if_pos hone, Nat.mod_one]
    dsimp only
    rw [if_pos hn]
    exact ⟨rfl, h.order_eq, h.dimension_eq, Or.inl hone⟩
  · obtain ⟨hle, hmod⟩ := h.place.resolve_left hone
    have hnext : (c.current + 1) % (2 * n - 2) = (k + 1) % (2 * n - 2) := by
      rw [Nat.add_mod, hmod, ← Nat.add_mod]
    rw [if_neg hone, if_neg hone, ← hmod]
    dsimp only
    by_cases hforth : c.current < n
    · have hsame : c.current % (2 * n - 2) = c.current := Nat.mod_eq_of_lt (by omega)
      rw [if_pos hforth, hsame, if_pos hforth]
      exact ⟨rfl, h.order_eq, rfl, Or.inr ⟨by simp only; omega, hnext⟩⟩
    · rw [if_neg hforth]
      by_cases hend : c.current = 2 * n - 2
      · -- The way back ends at the first coordinate, and the next count is one.
        have hback : c.current % (2 * n - 2) = 0 := by rw [hend, Nat.mod_self]
        rw [hback, if_pos hn, if_pos (Nat.le_of_eq hend.symm)]
        refine ⟨congrArg Heading.axis (by omega), h.order_eq, rfl, Or.inr ⟨?_, ?_⟩⟩
        · simp only
          omega
        · rw [hend] at hnext
          rw [← hnext, Nat.add_mod_left]
      · have hsame : c.current % (2 * n - 2) = c.current := Nat.mod_eq_of_lt (by omega)
        rw [hsame, if_neg hforth, if_neg (by omega)]
        refine ⟨congrArg Heading.axis (by omega), h.order_eq, rfl, Or.inr ⟨?_, hnext⟩⟩
        simp only
        omega

theorem HasGiven.turnCycleAndJoin (h : c.HasGiven .cycleAndJoin n k) (hn : 0 < n) :
    c.turnCycleAndJoin.1 = CoordinateOrder.cycleAndJoin.heading n k ∧
      c.turnCycleAndJoin.2.HasGiven .cycleAndJoin n (k + 1) := by
  obtain ⟨hcurrent, hcompleted⟩ := h.place
  have hlt : k % (n + 1) < n + 1 := Nat.mod_lt k n.succ_pos
  have hnext : (c.current + 1) % (n + 1) = (k + 1) % (n + 1) := by rw [hcurrent, Nat.mod_add_mod]
  unfold Coordinate.turnCycleAndJoin CoordinateOrder.heading CoordinateOrder.headingAt
  rw [CoordinateOrder.period_cycleAndJoin, ← hcurrent, hcompleted]
  by_cases hfull : c.current = n
  · rw [if_pos (decide_eq_true hfull)]
    dsimp only
    rw [if_neg (by omega)]
    refine ⟨rfl, h.order_eq, h.dimension_eq, ?_, ?_⟩
    · rw [hfull, Nat.mod_self] at hnext
      exact hnext
    · exact (decide_eq_false (Nat.ne_of_lt hn)).symm
  · rw [if_neg (by rw [decide_eq_false hfull]; exact Bool.false_ne_true)]
    dsimp only
    rw [if_pos (by omega)]
    refine ⟨rfl, h.order_eq, h.dimension_eq, ?_, ?_⟩
    · rw [Nat.mod_eq_of_lt (by omega)] at hnext
      exact hnext
    · dsimp only
      rw [h.dimension_eq]
      exact decide_eq_decide.mpr ⟨fun hle => by omega, fun heq => by omega⟩

/-- A turn leaves the ends of the cycle as they are. -/
theorem ends_turn (c : Coordinate P) :
    c.turn.2.cycleStart = c.cycleStart ∧ c.turn.2.cycleEnd = c.cycleEnd := by
  unfold Coordinate.turn
  cases c.order with
  | cycle => exact ⟨rfl, rfl⟩
  | backAndForth =>
    unfold Coordinate.turnBackAndForth
    dsimp only
    split
    · exact ⟨rfl, rfl⟩
    · split <;> exact ⟨rfl, rfl⟩
  | cycleAndJoin =>
    unfold Coordinate.turnCycleAndJoin
    dsimp only
    split <;> exact ⟨rfl, rfl⟩

/-- Whatever the order, the heading is that of the iteration, and the rule moves on. -/
theorem HasGiven.turn (h : c.HasGiven order n k) (hn : 0 < n) :
    c.turn.1 = order.heading n k ∧ c.turn.2.HasGiven order n (k + 1) := by
  unfold Coordinate.turn
  rw [h.order_eq]
  cases order with
  | cycle => exact h.turnCycle
  | backAndForth => exact h.turnBackAndForth hn
  | cycleAndJoin => exact h.turnCycleAndJoin hn

end Coordinate

end Downhill
