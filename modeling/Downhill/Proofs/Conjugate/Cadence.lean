import Downhill.Proofs.Conjugate.Safeguard

/-!
# What a conjugate gradient rule promises

A rule may be called with any vectors.  It answers with a direction that goes on from the
one it is given, by the value of its formula, and counts it; or it begins anew with steepest
descent, and so does its count.  The second happens for three reasons: the history is
incomplete, the policy asks, or the direction that goes on would not descend.  Under the
periodic policy the count stays below the dimension.  So restarts are never further apart
than that, and they are exactly so far apart where the policy is the reason.
-/

namespace Downhill

open Matrix

variable {m : Nat}

namespace Conjugate

/-- What a rule is asked about: a gradient, and the gradient and the direction before it as
far as they are known. -/
structure Call (m : Nat) where
  gradient : Fin m → ℝ
  previousGradient : Option (Fin m → ℝ)
  previousDirection : Option (Fin m → ℝ)

/-- The gradient and the direction before are known. -/
def Call.HasHistory (call : Call m) : Prop :=
  call.previousGradient ≠ none ∧ call.previousDirection ≠ none

/-- The direction for a call, and the rule after it. -/
noncomputable def answer (c : Conjugate ℝ) (call : Call m) :
    Except Fault (Vec ℝ × Conjugate ℝ) :=
  c.next (List.ofFn call.gradient) (call.previousGradient.map List.ofFn)
    (call.previousDirection.map List.ofFn)

/-- The policy lets the direction go on, but that direction would not descend. -/
def SafeguardFires (c : Conjugate ℝ) (call : Call m) : Prop :=
  ∃ g' d beta, call.previousGradient = some g' ∧ call.previousDirection = some d ∧
    ¬c.Asks call.gradient g' ∧
    c.formula.beta (List.ofFn call.gradient) (List.ofFn g') (List.ofFn d) = .ok beta ∧
    ¬call.gradient ⬝ᵥ (-call.gradient + beta • d) < 0

/-- The three reasons for a restart. -/
inductive RestartReason (c : Conjugate ℝ) (call : Call m) : Prop
  | history (h : ¬call.HasHistory)
  | policy {g' : Fin m → ℝ} (hg' : call.previousGradient = some g') (h : c.Asks call.gradient g')
  | safeguard (h : c.SafeguardFires call)

/-- The two ways to a direction, with the rule that each of them leaves. -/
inductive Directed (c : Conjugate ℝ) (call : Call m) : (Fin m → ℝ) → Conjugate ℝ → Prop
  | restarted (reason : c.RestartReason call) :
    Directed c call (-call.gradient) { c with steps := 0, restarted := true, lastBeta := 0 }
  | continued {g' d : Fin m → ℝ} {beta : ℝ} (hg' : call.previousGradient = some g')
      (hd : call.previousDirection = some d) (hasks : ¬c.Asks call.gradient g')
      (hbeta : c.formula.beta (List.ofFn call.gradient) (List.ofFn g') (List.ofFn d) = .ok beta)
      (hdescends : call.gradient ⬝ᵥ (-call.gradient + beta • d) < 0) :
    Directed c call (-call.gradient + beta • d)
      { c with steps := c.steps + 1, restarted := false, lastBeta := beta }

/-- Every call is answered in one of the two ways. -/
theorem exists_answer (c : Conjugate ℝ) (call : Call m) :
    ∃ d c', c.answer call = .ok (List.ofFn d, c') ∧ c.Directed call d c' := by
  obtain ⟨g, previousGradient, previousDirection⟩ := call
  by_cases hmissing : previousGradient = none ∨ previousDirection = none
  · refine ⟨-g, _, c.next_of_missing g hmissing, .restarted (.history fun h => ?_)⟩
    rcases hmissing with hnone | hnone
    · exact h.1 hnone
    · exact h.2 hnone
  obtain ⟨hgradient, hdirection⟩ := not_or.mp hmissing
  obtain ⟨g', rfl⟩ := Option.ne_none_iff_exists'.mp hgradient
  obtain ⟨d, rfl⟩ := Option.ne_none_iff_exists'.mp hdirection
  obtain ⟨beta, hbeta, ⟨hasks, hdescends, hnext⟩ | ⟨hreason, hnext⟩⟩ := c.next_cases g g' d
  · exact ⟨_, _, hnext, .continued rfl rfl hasks hbeta hdescends⟩
  · refine ⟨_, _, hnext, .restarted ?_⟩
    by_cases hasks : c.Asks g g'
    · exact .policy rfl hasks
    · exact .safeguard ⟨g', d, beta, rfl, rfl, hasks, hbeta, hreason.resolve_left hasks⟩

theorem asks_periodic {c : Conjugate ℝ} (h : c.policy = .periodic) (g g' : Fin m → ℝ) :
    c.Asks g g' ↔ c.dimension ≤ c.steps + 1 := by
  unfold Asks
  rw [h]
  show Except.ok (decide _) = Except.ok true ↔ _
  simp
  omega

namespace Directed

variable {c c' : Conjugate ℝ} {call : Call m} {d : Fin m → ℝ}

theorem descends (h : c.Directed call d c') (hg : call.gradient ≠ 0) : call.gradient ⬝ᵥ d < 0 := by
  cases h with
  | restarted reason =>
    rw [dotProduct_neg]
    exact neg_neg_of_pos (dotProduct_self_pos hg)
  | continued hg' hd hasks hbeta hdescends => exact hdescends

theorem setting (h : c.Directed call d c') :
    c'.formula = c.formula ∧ c'.policy = c.policy ∧ c'.dimension = c.dimension := by
  cases h with
  | restarted reason => exact ⟨rfl, rfl, rfl⟩
  | continued hg' hd hasks hbeta hdescends => exact ⟨rfl, rfl, rfl⟩

/-- The count is zero after a restart, and one more after any other direction. -/
theorem steps_eq (h : c.Directed call d c') :
    c'.steps = if c'.restarted = true then 0 else c.steps + 1 := by
  cases h with
  | restarted reason => rfl
  | continued hg' hd hasks hbeta hdescends => rfl

theorem reason (h : c.Directed call d c') (hrestarted : c'.restarted = true) :
    c.RestartReason call := by
  cases h with
  | restarted reason => exact reason
  | continued hg' hd hasks hbeta hdescends => cases hrestarted

theorem steps_lt (h : c.Directed call d c') (hpolicy : c.policy = .periodic)
    (hn : 0 < c.dimension) : c'.steps < c.dimension := by
  cases h with
  | restarted reason => exact hn
  | continued hg' hd hasks hbeta hdescends =>
    rw [asks_periodic hpolicy] at hasks
    exact not_le.mp hasks

end Directed

/-! ## Calls in a row -/

/-- The directions for calls in a row, and the rule before each of them. -/
structure Answers (c : Conjugate ℝ) (calls : Nat → Call m) (d : Nat → Fin m → ℝ)
    (s : Nat → Conjugate ℝ) : Prop where
  first : s 0 = c
  answer : ∀ k, (s k).answer (calls k) = .ok (List.ofFn (d k), s (k + 1))

/-- No call is refused. -/
theorem exists_answers (c : Conjugate ℝ) (calls : Nat → Call m) : ∃ d s, c.Answers calls d s := by
  have hanswer : ∀ (c : Conjugate ℝ) (call : Call m), ∃ next : (Fin m → ℝ) × Conjugate ℝ,
      c.answer call = .ok (List.ofFn next.1, next.2) := by
    intro c call
    obtain ⟨d, c', hd, -⟩ := c.exists_answer call
    exact ⟨(d, c'), hd⟩
  choose next hnext using hanswer
  let s : Nat → Conjugate ℝ := fun k => Nat.rec c (fun k last => (next last (calls k)).2) k
  exact ⟨fun k => (next (s k) (calls k)).1, s, rfl, fun k => hnext (s k) (calls k)⟩

namespace Answers

variable {c : Conjugate ℝ} {calls : Nat → Call m} {d : Nat → Fin m → ℝ} {s : Nat → Conjugate ℝ}

theorem directed (h : c.Answers calls d s) (k : Nat) :
    (s k).Directed (calls k) (d k) (s (k + 1)) := by
  obtain ⟨found, c', hanswer, hdirected⟩ := (s k).exists_answer (calls k)
  have heq := Except.ok.inj (hanswer.symm.trans (h.answer k))
  obtain rfl : found = d k := List.ofFn_injective (congrArg Prod.fst heq)
  obtain rfl : c' = s (k + 1) := congrArg Prod.snd heq
  exact hdirected

theorem setting (h : c.Answers calls d s) (k : Nat) :
    (s k).formula = c.formula ∧ (s k).policy = c.policy ∧ (s k).dimension = c.dimension := by
  induction k with
  | zero => rw [h.first]; exact ⟨rfl, rfl, rfl⟩
  | succ k ih =>
    obtain ⟨hformula, hpolicy, hdimension⟩ := (h.directed k).setting
    exact ⟨hformula.trans ih.1, hpolicy.trans ih.2.1, hdimension.trans ih.2.2⟩

/-- Between restarts the count is that of the directions. -/
theorem steps_add (h : c.Answers calls d s) {i count : Nat}
    (hcontinued : ∀ l, i ≤ l → l < i + count → (s (l + 1)).restarted = false) :
    (s (i + count)).steps = (s i).steps + count := by
  induction count with
  | zero => rfl
  | succ count ih =>
    have hbefore := ih fun l hi hl => hcontinued l hi (by omega)
    have hlast := hcontinued (i + count) (by omega) (by omega)
    have hsteps := (h.directed (i + count)).steps_eq
    rw [hlast, if_neg Bool.false_ne_true, hbefore] at hsteps
    exact hsteps

/-- The count before a restart is that of the calls since the last one. -/
theorem steps_before (h : c.Answers calls d s) {i j : Nat} (hij : i < j)
    (hi : (s (i + 1)).restarted = true)
    (hbetween : ∀ l, i < l → l < j → (s (l + 1)).restarted = false) :
    i + 1 + (s j).steps = j := by
  have hzero := (h.directed i).steps_eq
  rw [if_pos hi] at hzero
  have hcontinued : ∀ l, i + 1 ≤ l → l < i + 1 + (j - (i + 1)) →
      (s (l + 1)).restarted = false := by
    intro l hl hlj
    exact hbetween l (by omega) (by omega)
  have hsteps := h.steps_add hcontinued
  rw [Nat.add_sub_cancel' hij, hzero] at hsteps
  omega

section Periodic

variable (h : c.Answers calls d s) (hpolicy : c.policy = .periodic) (hn : 0 < c.dimension)
include h hpolicy hn

theorem steps_lt (k : Nat) : (s (k + 1)).steps < c.dimension := by
  obtain ⟨-, hsame, hdimension⟩ := h.setting k
  rw [← hdimension]
  exact (h.directed k).steps_lt (hsame.trans hpolicy) (by omega)

/-- Among as many calls in a row as there are coordinates there is a restart. -/
theorem exists_restart (i : Nat) :
    ∃ j, i ≤ j ∧ j < i + c.dimension ∧ (s (j + 1)).restarted = true := by
  by_contra hnone
  have hcontinued : ∀ l, i ≤ l → l < i + c.dimension → (s (l + 1)).restarted = false := by
    intro l hi hl
    by_contra hrestarted
    exact hnone ⟨l, hi, hl, Bool.eq_true_of_not_eq_false hrestarted⟩
  have hsteps := h.steps_add hcontinued
  have hlt := h.steps_lt hpolicy hn (i + c.dimension - 1)
  rw [Nat.sub_add_cancel (by omega)] at hlt
  omega

theorem apart_le {i j : Nat} (hij : i < j) (hi : (s (i + 1)).restarted = true)
    (hbetween : ∀ l, i < l → l < j → (s (l + 1)).restarted = false) : j ≤ i + c.dimension := by
  have hsteps := h.steps_before hij hi hbetween
  have hlt := h.steps_lt hpolicy hn (j - 1)
  rw [Nat.sub_add_cancel (by omega)] at hlt
  omega

/-- With the history known and the safeguard idle, only the policy is left as the reason. -/
theorem apart_eq {i j : Nat} (hij : i < j) (hi : (s (i + 1)).restarted = true)
    (hj : (s (j + 1)).restarted = true)
    (hbetween : ∀ l, i < l → l < j → (s (l + 1)).restarted = false)
    (hhistory : (calls j).HasHistory) (hidle : ¬(s j).SafeguardFires (calls j)) :
    j = i + c.dimension := by
  have hle := h.apart_le hpolicy hn hij hi hbetween
  have hsteps := h.steps_before hij hi hbetween
  obtain ⟨-, hsame, hdimension⟩ := h.setting j
  cases (h.directed j).reason hj with
  | history hmissing => exact absurd hhistory hmissing
  | safeguard hfires => exact absurd hfires hidle
  | policy hg' hasks =>
    rw [asks_periodic (hsame.trans hpolicy)] at hasks
    omega

end Periodic

end Answers

/-- Every call is answered, whatever the vectors.  For a gradient that is not zero the
direction descends.  It is a restart, which clears the count and the remembered value, or it
goes on from the given direction with the value of the formula and is counted.  Under the
periodic policy every `dimension` calls in a row have a restart, so neighbouring restarts are
at most that far apart, and exactly so if the history is known and the safeguard idle up to
the second one. -/
theorem directions_contract (c : Conjugate ℝ) (hn : 0 < c.dimension) (calls : Nat → Call m) :
    (∃ d s, c.Answers calls d s) ∧ ∀ d s, c.Answers calls d s →
      (∀ k, ((calls k).gradient ≠ 0 → (calls k).gradient ⬝ᵥ d k < 0) ∧
        ((s (k + 1)).restarted = true ∧ (s (k + 1)).steps = 0 ∧ (s (k + 1)).lastBeta = 0 ∧
            d k = -(calls k).gradient ∨
          (s (k + 1)).restarted = false ∧ (s (k + 1)).steps = (s k).steps + 1 ∧
            ∃ g' direction, (calls k).previousGradient = some g' ∧
              (calls k).previousDirection = some direction ∧
              c.formula.beta (List.ofFn (calls k).gradient) (List.ofFn g')
                (List.ofFn direction) = .ok (s (k + 1)).lastBeta ∧
              d k = -(calls k).gradient + (s (k + 1)).lastBeta • direction)) ∧
      (c.policy = .periodic →
        (∀ i, ∃ j, i ≤ j ∧ j < i + c.dimension ∧ (s (j + 1)).restarted = true) ∧
        ∀ i j, i < j → (s (i + 1)).restarted = true → (s (j + 1)).restarted = true →
          (∀ l, i < l → l < j → (s (l + 1)).restarted = false) →
          j ≤ i + c.dimension ∧
          ((∀ l, i < l → l ≤ j → (calls l).HasHistory ∧ ¬(s l).SafeguardFires (calls l)) →
            j = i + c.dimension)) := by
  refine ⟨c.exists_answers calls, fun d s h => ⟨fun k => ⟨(h.directed k).descends, ?_⟩, ?_⟩⟩
  · have hformula := (h.setting k).1
    have hdirected := h.directed k
    generalize s (k + 1) = c' at hdirected ⊢
    generalize d k = found at hdirected ⊢
    cases hdirected with
    | restarted reason => exact Or.inl ⟨rfl, rfl, rfl, rfl⟩
    | continued hg' hd hasks hbeta hdescends =>
      rw [hformula] at hbeta
      exact Or.inr ⟨rfl, rfl, _, _, hg', hd, hbeta, rfl⟩
  · intro hpolicy
    refine ⟨h.exists_restart hpolicy hn, fun i j hij hi hj hbetween => ?_⟩
    refine ⟨h.apart_le hpolicy hn hij hi hbetween, fun hclear => ?_⟩
    obtain ⟨hhistory, hidle⟩ := hclear j hij (Nat.le_refl j)
    exact h.apart_eq hpolicy hn hij hi hj hbetween hhistory hidle

/-- Two coordinates and a gradient that stays: after the first call, which has no history, the
formula of Fletcher and Reeves makes the direction longer until the policy asks. -/
noncomputable def staying (k : Nat) : Call 2 :=
  if k = 0 then ⟨![1, 0], none, none⟩ else ⟨![1, 0], some ![1, 0], some ![-1, 0]⟩

theorem staying_idle {c : Conjugate ℝ} (hformula : c.formula = .fletcherReeves) {k : Nat}
    (hk : k ≠ 0) : ¬c.SafeguardFires (staying k) := by
  have hcall : staying k = ⟨![1, 0], some ![1, 0], some ![-1, 0]⟩ := if_neg hk
  rw [hcall]
  rintro ⟨g', d, beta, hg', hd, -, hbeta, hup⟩
  obtain rfl := Option.some.inj hg'
  obtain rfl := Option.some.inj hd
  rw [hformula, BetaFormula.beta_fletcherReeves,
    BetaFormula.ratio_of_ne_zero (by norm_num)] at hbeta
  obtain rfl := Except.ok.inj hbeta
  apply hup
  norm_num [Matrix.vecHead, Matrix.vecTail]

/-- The second restart comes two calls after the first. -/
theorem directions_contract_staying :
    0 < (start .fletcherReeves .periodic 2 : Conjugate ℝ).dimension ∧
      ∃ d s, (start .fletcherReeves .periodic 2).Answers staying d s ∧
        (s 1).restarted = true ∧ (s 2).restarted = false ∧ (s 3).restarted = true ∧
        ![1, 0] ⬝ᵥ d 1 < 0 := by
  obtain ⟨⟨d, s, h⟩, hall⟩ := directions_contract (start .fletcherReeves .periodic 2)
    (by decide) staying
  obtain ⟨hcontract, hcadence⟩ := hall d s h
  obtain ⟨hevery, hapart⟩ := hcadence rfl
  have hfirst : (s 1).restarted = true := by
    rcases (hcontract 0).2 with ⟨hrestarted, -⟩ | ⟨-, -, g', direction, hg', -⟩
    · exact hrestarted
    · cases hg'
  have hclear : ∀ l, 0 < l → (staying l).HasHistory ∧ ¬(s l).SafeguardFires (staying l) := by
    intro l hl
    refine ⟨?_, staying_idle (h.setting l).1 (Nat.ne_of_gt hl)⟩
    unfold staying
    rw [if_neg (Nat.ne_of_gt hl)]
    exact ⟨Option.some_ne_none _, Option.some_ne_none _⟩
  have hsecond : (s 2).restarted = false := by
    by_contra hrestarted
    have hearly := (hapart 0 1 Nat.one_pos hfirst (Bool.eq_true_of_not_eq_false hrestarted)
      (by omega)).2 fun l hl _ => hclear l hl
    cases hearly
  have hthird : (s 3).restarted = true := by
    obtain ⟨j, hlow, hhigh, hj⟩ := hevery 1
    have hcases : j = 1 ∨ j = 2 := by
      have hdimension : (start .fletcherReeves .periodic 2 : Conjugate ℝ).dimension = 2 := rfl
      omega
    rcases hcases with rfl | rfl
    · rw [hsecond] at hj
      cases hj
    · exact hj
  refine ⟨by decide, d, s, h, hfirst, hsecond, hthird, (hcontract 1).1 ?_⟩
  intro hzero
  exact one_ne_zero (congrFun hzero 0)

end Conjugate

end Downhill
