import Downhill.Proofs.Coordinate.Stall

/-!
# Directions in the order they are asked for

A coordinate rule hands out one direction for each request.  What its caller does in
between leaves the rule at its place in the order: the points it is told about only move
the ends of a cycle, and orienting a direction puts a question to the objective and none
to the rule.  So a direction depends on nothing but how many were handed out before it.
-/

namespace Downhill

variable {α : Type} [Scalar α]

/-- The unit vector of a coordinate. -/
def Vec.axis {n : Nat} (i : Fin n) : Vec α := List.ofFn fun j => if j = i then 1 else 0

theorem Vec.unit_eq_axis {n : Nat} (i : Fin n) :
    (Vec.unit n i : Except Fault (Vec α)) = .ok (Vec.axis i) := by
  unfold Vec.unit Vec.zeros Vec.axis
  rw [if_pos i.isLt]
  refine congrArg Except.ok (List.ext_getElem (by simp) fun j hj _ => ?_)
  rw [List.getElem_set, List.getElem_ofFn]
  simp [Fin.ext_iff, eq_comm]

namespace CoordinateOrder

theorem heading_cycle (n k : Nat) : cycle.heading n k = .axis (k % n) := rfl

theorem heading_backAndForth_one (k : Nat) : backAndForth.heading 1 k = .axis 0 := by
  simp [heading, headingAt, period_backAndForth, Nat.mod_one]

theorem heading_backAndForth {n : Nat} (hn : 2 ≤ n) (k : Nat) :
    backAndForth.heading n k =
      .axis (if k % (2 * n - 2) < n then k % (2 * n - 2) else 2 * n - 2 - k % (2 * n - 2)) := by
  have hperiod : backAndForth.period n = 2 * n - 2 := if_neg (by omega)
  unfold heading headingAt
  rw [hperiod]
  by_cases hforth : k % (2 * n - 2) < n
  · simp only [hforth, if_true]
  · simp only [hforth, if_false]

end CoordinateOrder

namespace Coordinate

/-! ## Calls in any order -/

/-- What a caller does with a rule: ask for the next direction, tell it the point that was
reached, or have a direction oriented. -/
inductive Call (α : Type)
  | next
  | moved (point : Vec α)
  | orient (f : Objective α) (point : Vec α) (value : α) (direction : Vec α)

/-- A request for the next direction. -/
def Call.isNext : Call α → Bool
  | next => true
  | moved _ => false
  | orient _ _ _ _ => false

/-- The vector that a call is answered with, if any, and the rule after it. -/
def answer (c : Coordinate (Vec α)) : Call α → Except Fault (Option (Vec α)) × Coordinate (Vec α)
  | .next => (c.next.1.map some, c.next.2)
  | .moved point => (.ok none, c.moved point)
  | .orient f point value direction =>
    ((orient f point value direction).journaled.1.map some, c)

/-- The answers to calls in a row. -/
def answers (c : Coordinate (Vec α)) : List (Call α) → List (Except Fault (Option (Vec α)))
  | [] => []
  | call :: calls => (c.answer call).1 :: answers (c.answer call).2 calls

variable {c : Coordinate (Vec α)} {order : CoordinateOrder} {n k : Nat}

/-- Only a request for a direction moves the rule on in its order. -/
theorem HasGiven.answer (h : c.HasGiven order n k) (hn : 0 < n) (call : Call α) :
    (c.answer call).2.HasGiven order n (k + if call.isNext then 1 else 0) := by
  cases call with
  | next => exact (h.next hn).1
  | moved point => exact h.moved point
  | orient f point value direction => exact h

/-- Whatever was called before, a request is answered with the direction whose number is the
number of requests before it. -/
theorem HasGiven.answers (h : c.HasGiven order n k) (hn : 0 < n) {calls : List (Call α)} {i : Nat}
    (hi : calls[i]? = some .next) {a : Fin n}
    (ha : order.heading n (k + (calls.take i).countP Call.isNext) = .axis a) :
    (c.answers calls)[i]? = some (.ok (some (Vec.axis a))) := by
  induction calls generalizing c k i with
  | nil => simp at hi
  | cons call calls ih =>
    cases i with
    | zero =>
      obtain rfl : call = .next := by simpa using hi
      have hnext := (h.next hn).2 a (by simpa using ha)
      show some (c.next.1.map some) = _
      rw [hnext, Vec.unit_eq_axis]
      rfl
    | succ i =>
      have hcount : k + ((call :: calls).take (i + 1)).countP Call.isNext =
          (k + if call.isNext then 1 else 0) + (calls.take i).countP Call.isNext := by
        rw [List.take_succ_cons, List.countP_cons]
        omega
      rw [hcount] at ha
      exact ih (h.answer hn call) (by simpa using hi) ha

/-- A rule that is new answers every request with a unit vector, whatever it is called for
in between.  In cyclic order the coordinate is the number of requests before, counted around
the coordinates.  Back and forth it goes up to the last coordinate and down again. -/
theorem answers_axis (hn : 0 < n) (point : Vec α) {calls : List (Call α)} {i : Nat}
    (hi : calls[i]? = some .next) :
    ∃ k, k = (calls.take i).countP Call.isNext ∧
      (∃ a : Fin n, (a : Nat) = k % n ∧
        ((start .cycle n point).answers calls)[i]? = some (.ok (some (Vec.axis a)))) ∧
      ∃ a : Fin n, (n = 1 → (a : Nat) = 0) ∧
        (2 ≤ n → (a : Nat) =
          if k % (2 * n - 2) < n then k % (2 * n - 2) else 2 * n - 2 - k % (2 * n - 2)) ∧
        ((start .backAndForth n point).answers calls)[i]? = some (.ok (some (Vec.axis a))) := by
  have hanswer : ∀ (order : CoordinateOrder) (a : Fin n),
      order.heading n ((calls.take i).countP Call.isNext) = .axis a →
      ((start order n point).answers calls)[i]? = some (.ok (some (Vec.axis a))) := by
    intro order a ha
    apply (hasGiven_start hn point).answers hn hi
    rw [Nat.zero_add]
    exact ha
  refine ⟨_, rfl, ?_, ?_⟩
  · exact ⟨⟨_, Nat.mod_lt _ hn⟩, rfl, hanswer .cycle _ (CoordinateOrder.heading_cycle n _)⟩
  · by_cases hone : n = 1
    · subst hone
      refine ⟨0, fun _ => rfl, by omega, hanswer .backAndForth _ ?_⟩
      exact CoordinateOrder.heading_backAndForth_one _
    · have hheading := CoordinateOrder.heading_backAndForth (n := n) (by omega)
        ((calls.take i).countP Call.isNext)
      refine ⟨⟨_, CoordinateOrder.lt_of_heading hn hheading⟩, fun h => absurd h hone,
        fun _ => rfl, hanswer .backAndForth _ hheading⟩

/-- The fourth request, when three coordinates are used up: the cyclic order begins again, and
back and forth is on the way back. -/
theorem answers_axis_three :
    let calls : List (Call ℝ) := [.next, .moved [1, 0, 0], .next,
      .orient (Objective.linear [1, 1, 1] 0) [1, 0, 0] 1 [0, 1, 0], .next, .moved [1, -1, 0], .next]
    0 < 3 ∧ calls[6]? = some .next ∧
      ((start .cycle 3 [0, 0, 0]).answers calls)[6]? = some (.ok (some [1, 0, 0])) ∧
      ((start .backAndForth 3 [0, 0, 0]).answers calls)[6]? = some (.ok (some [0, 1, 0])) := by
  intro calls
  have hasked : calls[6]? = some .next := rfl
  obtain ⟨k, hk, ⟨a, ha, hcycle⟩, b, -, hb, hback⟩ :=
    answers_axis (show 0 < 3 by decide) [0, 0, 0] hasked
  have hthree : k = 3 := hk
  subst hthree
  have hfirst : a = 0 := Fin.ext ha
  have hsecond : b = 1 := Fin.ext (hb (by decide))
  subst hfirst hsecond
  refine ⟨by decide, hasked, ?_, ?_⟩
  · rw [hcycle]
    simp [Vec.axis]
  · rw [hback]
    simp [Vec.axis]

end Coordinate

end Downhill
