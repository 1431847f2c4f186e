import Downhill.Proofs.LineSearch.Memory
import Downhill.Proofs.Sequence

/-!
# What a search asks for

A search along a ray remembers the steps whose value or slope it has asked for, and looks up
what it knows.  The requests in its journal belong to questions about steps, and no question
is asked twice.

How many questions a computation asks follows from those it knows the answer to: a question
that is known costs nothing, and a new one costs one value or one slope.  The rules below put
such bounds together along a sequence.  They hold of a computation that fails as well, which
leaves the requests it has made until then.
-/

namespace Downhill

open Extended (real)

/-- A question about the objective at a step along a ray. -/
inductive Question
  | value (step : ℝ)
  | slope (step : ℝ)

namespace Question

def isValue : Question → Bool
  | value _ => true
  | slope _ => false

noncomputable instance : DecidableEq Question := Classical.decEq _

/-- No more values and no more slopes than these have been asked for. -/
structure Within (asked : List Question) (values slopes : ℕ) : Prop where
  values_le : asked.countP (·.isValue) ≤ values
  slopes_le : asked.countP (!·.isValue) ≤ slopes

variable {asked : List Question} {v s v' s' : ℕ}

theorem Within.mono (h : Within asked v s) (hv : v ≤ v') (hs : s ≤ s') : Within asked v' s' :=
  ⟨h.values_le.trans hv, h.slopes_le.trans hs⟩

theorem within_nil (v s : ℕ) : Within [] v s := ⟨Nat.zero_le v, Nat.zero_le s⟩

theorem Within.of_insert {q : Question} (h : Within (asked.insert q) v s) : Within asked v s :=
  have hsub : asked.Sublist (asked.insert q) := List.sublist_insert q asked
  ⟨hsub.countP_le.trans h.values_le, hsub.countP_le.trans h.slopes_le⟩

/-- A new question costs one of its kind, and nothing if it is known. -/
theorem countP_insert_le (p : Question → Bool) (q : Question) :
    (asked.insert q).countP p ≤ asked.countP p + if p q then 1 else 0 := by
  by_cases hmem : q ∈ asked
  · rw [List.insert_of_mem hmem]
    exact Nat.le_add_right _ _
  · rw [List.insert_of_not_mem hmem, List.countP_cons]

theorem Within.insert_value (h : Within asked v s) (t : ℝ) :
    Within (asked.insert (.value t)) (v + 1) s :=
  ⟨(countP_insert_le _ _).trans (Nat.succ_le_succ h.values_le),
    (countP_insert_le _ _).trans h.slopes_le⟩

theorem Within.insert_slope (h : Within asked v s) (t : ℝ) :
    Within (asked.insert (.slope t)) v (s + 1) :=
  ⟨(countP_insert_le _ _).trans h.values_le,
    (countP_insert_le _ _).trans (Nat.succ_le_succ h.slopes_le)⟩

end Question

/-- The request that a question about a step makes. -/
def Ray.Poses (ray : Ray Extended) : Question → Request Extended → Prop
  | .value t, request => ∃ x, ray.pointAt (real t) = .ok x ∧ request = .value x
  | .slope t, request => ∃ x, ray.pointAt (real t) = .ok x ∧ request = .gradient x

/-- The journal holds the requests of different questions, the latest first. -/
structure Ray.AskedOnce (ray : Ray Extended) (asked : List Question)
    (journal : Journal Extended) : Prop where
  nodup : asked.Nodup
  poses : List.Forall₂ ray.Poses asked journal

/-- What is remembered are the answers to the questions. -/
structure Ray.Knows (ray : Ray Extended) (asked : List Question) (memo : Memo Extended)
    (journal : Journal Extended) : Prop extends ray.AskedOnce asked journal where
  values (t : ℝ) : (memo.values.lookup (real t)).isSome ↔ .value t ∈ asked
  slopes (t : ℝ) : (memo.slopes.lookup (real t)).isSome ↔ .slope t ∈ asked

section

variable {ray : Ray Extended} {asked : List Question} {memo : Memo Extended}
  {journal : Journal Extended} {q : Question} {request : Request Extended} {answer : Extended}

theorem Ray.Poses.isValue_eq (h : ray.Poses q request) : request.isValue = q.isValue := by
  cases q with
  | value t | slope t =>
    obtain ⟨x, -, rfl⟩ := h
    rfl

theorem Ray.AskedOnce.insert (h : ray.AskedOnce asked journal) (hnew : q ∉ asked)
    (hposes : ray.Poses q request) : ray.AskedOnce (asked.insert q) (request :: journal) := by
  rw [List.insert_of_not_mem hnew]
  exact ⟨h.nodup.cons hnew, .cons hposes h.poses⟩

/-- The questions are as many as the requests in the journal, of either kind. -/
theorem Ray.AskedOnce.countP_eq (h : ray.AskedOnce asked journal) (p : Bool → Bool) :
    journal.countP (fun request => p request.isValue) = asked.countP fun q => p q.isValue := by
  have hposes := h.poses
  clear h
  induction hposes with
  | nil => rfl
  | cons hhead _ ih => rw [List.countP_cons, List.countP_cons, ih, hhead.isValue_eq]

/-- When different steps have different points, no request stands in the journal twice. -/
theorem Ray.AskedOnce.nodup_journal (h : ray.AskedOnce asked journal)
    (hpoints : ∀ t u, ray.pointAt (real t) = ray.pointAt (real u) → t = u) : journal.Nodup := by
  have hleft : Relator.LeftUnique ray.Poses := by
    rintro (t | t) (u | u) _ ⟨x, hx, rfl⟩ ⟨y, hy, heq⟩
    · cases heq
      rw [hpoints t u (hx.trans hy.symm)]
    · cases heq
    · cases heq
    · cases heq
      rw [hpoints t u (hx.trans hy.symm)]
  have hright : Relator.RightUnique ray.Poses := by
    rintro (t | t) _ _ ⟨x, hx, rfl⟩ ⟨y, hy, rfl⟩
    · rw [Except.ok.inj (hx.symm.trans hy)]
    · rw [Except.ok.inj (hx.symm.trans hy)]
  exact (List.rel_nodup ⟨hleft, hright⟩ h.poses).mp h.nodup

theorem Ray.knows_empty (ray : Ray Extended) : ray.Knows [] Memo.empty [] where
  nodup := List.nodup_nil
  poses := .nil
  values t := by simp [Memo.empty]
  slopes t := by simp [Memo.empty]

theorem isSome_lookup_cons (known : List (Extended × Extended)) (t u : ℝ) (answer : Extended) :
    (((real t, answer) :: known).lookup (real u)).isSome ↔
      u = t ∨ (known.lookup (real u)).isSome := by
  rw [List.lookup_cons, Extended.real_beq_real]
  by_cases h : u = t
  · simp [h]
  · simp [h]

/-- A new value is remembered with its step, and its request is in the journal. -/
theorem Ray.Knows.insert_value {t : ℝ} (h : ray.Knows asked memo journal)
    (hnew : .value t ∉ asked) (hposes : ray.Poses (.value t) request) :
    ray.Knows (asked.insert (.value t)) { memo with values := (real t, answer) :: memo.values }
      (request :: journal) where
  toAskedOnce := h.toAskedOnce.insert hnew hposes
  values u := by
    rw [isSome_lookup_cons, h.values, List.mem_insert_iff, Question.value.injEq]
  slopes u := by
    rw [h.slopes, List.mem_insert_iff]
    exact ⟨Or.inr, fun hmem => hmem.resolve_left nofun⟩

theorem Ray.Knows.insert_slope {t : ℝ} (h : ray.Knows asked memo journal)
    (hnew : .slope t ∉ asked) (hposes : ray.Poses (.slope t) request) :
    ray.Knows (asked.insert (.slope t)) { memo with slopes := (real t, answer) :: memo.slopes }
      (request :: journal) where
  toAskedOnce := h.toAskedOnce.insert hnew hposes
  values u := by
    rw [h.values, List.mem_insert_iff]
    exact ⟨Or.inr, fun hmem => hmem.resolve_left nofun⟩
  slopes u := by
    rw [isSome_lookup_cons, h.slopes, List.mem_insert_iff, Question.slope.injEq]

/-- An answer is asked for with the request of the question, if its step has a point. -/
def Ray.Asks (ray : Ray Extended) (q : Question) (ask : EvalM Extended Extended) : Prop :=
  ∀ journal, Ensures journal ask
    (fun _ journal' => ∃ request, ray.Poses q request ∧ journal' = request :: journal)
    fun _ journal' => journal' = journal ∨
      ∃ request, ray.Poses q request ∧ journal' = request :: journal

theorem Ray.asks_of_point {t : ℝ} {f : Vec Extended → EvalM Extended Extended}
    {make : Vec Extended → Request Extended}
    (hposes : ∀ x, ray.pointAt (real t) = .ok x → ray.Poses q (make x))
    (hf : ∀ x journal, Ensures journal (f x) (fun _ journal' => journal' = make x :: journal)
      fun _ journal' => journal' = make x :: journal) :
    ray.Asks q (EvalM.answer (ray.pointAt (real t)) >>= f) := by
  intro journal
  have hpoint : Ensures journal (EvalM.answer (ray.pointAt (real t)))
      (fun x journal' => ray.pointAt (real t) = .ok x ∧ journal' = journal)
      fun _ journal' => journal' = journal ∨
        ∃ request, ray.Poses q request ∧ journal' = request :: journal :=
    Ensures.answer (fun _ hx => ⟨hx, rfl⟩) fun _ _ => Or.inl rfl
  refine hpoint.bind ?_
  rintro x _ ⟨hx, rfl⟩
  exact (hf x _).mono (fun _ _ hmade => ⟨_, hposes x hx, hmade⟩)
    fun _ _ hmade => Or.inr ⟨_, hposes x hx, hmade⟩

theorem Ray.asks_value (ray : Ray Extended) (t : ℝ) :
    ray.Asks (.value t) (ray.askValue (real t)) :=
  Ray.asks_of_point (fun x hx => ⟨x, hx, rfl⟩) fun _ _ =>
    Ensures.modify_bind (Ensures.answer (fun _ _ => rfl) fun _ _ => rfl)

theorem Ray.asks_slope (ray : Ray Extended) (t : ℝ) :
    ray.Asks (.slope t) (ray.askSlope (real t)) :=
  Ray.asks_of_point (fun x hx => ⟨x, hx, rfl⟩) fun x journal => by
    refine Ensures.bind (Ensures.modify_bind
      (Ensures.answer (fun _ _ => rfl) fun _ _ => rfl)) ?_
    rintro gradient _ rfl
    exact Ensures.answer (fun _ _ => rfl) fun _ _ => rfl

end

/-! ## The questions of a computation -/

/-- After the questions asked so far, a computation asks no question twice and leaves no more
values and slopes asked for than these, also if it fails.  Of its result and of all questions
asked by then, the condition holds. -/
def Ray.Spends {β : Type} (ray : Ray Extended) (v s : ℕ) (asked : List Question)
    (x : RayM Extended β) (post : β → List Question → Prop) : Prop :=
  Question.Within asked v s → ∀ memo journal, ray.Knows asked memo journal →
    Ensures journal (x.run memo)
      (fun known journal => ∃ asked, Question.Within asked v s ∧
        ray.Knows asked known.2 journal ∧ post known.1 asked)
      fun _ journal => ∃ asked, Question.Within asked v s ∧ ray.AskedOnce asked journal

namespace Ray.Spends

variable {β γ : Type} {ray : Ray Extended} {v s v' s' : ℕ} {asked : List Question} {t : ℝ}
  {x : RayM Extended β} {f : β → RayM Extended γ} {post : β → List Question → Prop}
  {next : γ → List Question → Prop}

theorem pure {b : β} (h : post b asked) : ray.Spends v s asked (Pure.pure b) post :=
  fun hwithin _ _ hknows => ⟨asked, hwithin, hknows, h⟩

theorem bind (hx : ray.Spends v s asked x post)
    (hf : ∀ b asked, post b asked → ray.Spends v s asked (f b) next) :
    ray.Spends v s asked (x >>= f) next := by
  intro hwithin memo journal hknows
  rw [StateT.run_bind]
  refine Ensures.bind (hx hwithin memo journal hknows) ?_
  rintro ⟨b, memo⟩ journal ⟨asked, hwithin, hknows, hpost⟩
  exact hf b asked hpost hwithin memo journal hknows

/-- What keeps its own bounds keeps larger ones. -/
theorem widen (h : ray.Spends v s asked x post) (hwithin : Question.Within asked v s)
    (hv : v ≤ v') (hs : s ≤ s') : ray.Spends v' s' asked x fun b asked =>
      Question.Within asked v s ∧ post b asked := by
  intro _ memo journal hknows
  refine (h hwithin memo journal hknows).mono ?_ ?_
  · rintro ⟨b, memo⟩ journal ⟨asked, hwithin, hknows, hb⟩
    exact ⟨asked, hwithin.mono hv hs, hknows, hwithin, hb⟩
  · rintro _ journal ⟨asked, hwithin, honce⟩
    exact ⟨asked, hwithin.mono hv hs, honce⟩

/-- From a ray of which nothing is known, no question is asked twice. -/
theorem explore {search : RayM Extended β} (h : ray.Spends v s [] search post) :
    ∃ asked, Question.Within asked v s ∧
      ray.AskedOnce asked (Ray.explore search).journaled.2 := by
  have hrun := h (Question.within_nil v s) Memo.empty [] ray.knows_empty
  refine Ensures.state (Ensures.bind hrun ?_)
  rintro ⟨b, memo⟩ journal ⟨asked, hwithin, hknows, -⟩
  exact Ensures.pure ⟨asked, hwithin, hknows.toAskedOnce⟩

/-- An answer that is looked up, or asked for and remembered. -/
theorem remembered {q : Question} {x : RayM Extended Extended}
    {look : Memo Extended → Option Extended} {ask : EvalM Extended Extended}
    {put : Extended → Memo Extended → Memo Extended}
    (hlook : ∀ {memo journal}, ray.Knows asked memo journal → ((look memo).isSome ↔ q ∈ asked))
    (hask : ray.Asks q ask)
    (hput : ∀ {memo journal request answer}, ray.Knows asked memo journal → q ∉ asked →
      ray.Poses q request → ray.Knows (asked.insert q) (put answer memo) (request :: journal))
    (hsome : ∀ {memo known}, look memo = some known → x.run memo = Pure.pure (known, memo))
    (hnone : ∀ {memo}, look memo = none →
      x.run memo = ask >>= fun answer => Pure.pure (answer, put answer memo))
    (hbound : q ∉ asked → Question.Within (asked.insert q) v s) :
    ray.Spends v s asked x fun _ asked' => asked' = asked.insert q := by
  intro hwithin memo journal hknows
  cases hlookup : look memo with
  | some known =>
    have hmem : q ∈ asked := by
      rw [← hlook hknows, hlookup]
      rfl
    rw [hsome hlookup]
    exact Ensures.pure ⟨asked, hwithin, hknows, (List.insert_of_mem hmem).symm⟩
  | none =>
    have hnew : q ∉ asked := by
      rw [← hlook hknows, hlookup]
      exact Bool.false_ne_true
    rw [hnone hlookup]
    refine ((hask journal).mono (fun _ _ h => h) ?_).bind ?_
    · rintro _ journal' (rfl | ⟨request, hposes, rfl⟩)
      · exact ⟨asked, hwithin, hknows.toAskedOnce⟩
      · exact ⟨_, hbound hnew, hknows.toAskedOnce.insert hnew hposes⟩
    · rintro answer journal' ⟨request, hposes, rfl⟩
      exact Ensures.pure ⟨_, hbound hnew, hput hknows hnew hposes, rfl⟩

theorem value (hbound : .value t ∉ asked → Question.Within (asked.insert (.value t)) v s) :
    ray.Spends v s asked (ray.value (real t)) fun _ asked' => asked' = asked.insert (.value t) :=
  remembered (fun hknows => hknows.values t) (ray.asks_value t) Knows.insert_value
    ray.run_value_of_some ray.run_value_of_none hbound

theorem slope (hbound : .slope t ∉ asked → Question.Within (asked.insert (.slope t)) v s) :
    ray.Spends v s asked (ray.slope (real t)) fun _ asked' => asked' = asked.insert (.slope t) :=
  remembered (fun hknows => hknows.slopes t) (ray.asks_slope t) Knows.insert_slope
    ray.run_slope_of_some ray.run_slope_of_none hbound

section Bind

variable {f : Extended → RayM Extended γ}

theorem bind_value (hbound : Question.Within (asked.insert (.value t)) v s)
    (hf : ∀ answer, ray.Spends v s (asked.insert (.value t)) (f answer) next) :
    ray.Spends v s asked (ray.value (real t) >>= f) next := by
  refine (value fun _ => hbound).bind ?_
  rintro answer _ rfl
  exact hf answer

theorem bind_slope (hbound : Question.Within (asked.insert (.slope t)) v s)
    (hf : ∀ answer, ray.Spends v s (asked.insert (.slope t)) (f answer) next) :
    ray.Spends v s asked (ray.slope (real t) >>= f) next := by
  refine (slope fun _ => hbound).bind ?_
  rintro answer _ rfl
  exact hf answer

/-- A value that is known costs nothing. -/
theorem bind_value_of_mem (hmem : .value t ∈ asked)
    (hf : ∀ answer, ray.Spends v s asked (f answer) next) :
    ray.Spends v s asked (ray.value (real t) >>= f) next := by
  refine (value fun hnew => absurd hmem hnew).bind ?_
  rintro answer _ rfl
  rw [List.insert_of_mem hmem]
  exact hf answer

theorem bind_slope_of_mem (hmem : .slope t ∈ asked)
    (hf : ∀ answer, ray.Spends v s asked (f answer) next) :
    ray.Spends v s asked (ray.slope (real t) >>= f) next := by
  refine (slope fun hnew => absurd hmem hnew).bind ?_
  rintro answer _ rfl
  rw [List.insert_of_mem hmem]
  exact hf answer

end Bind

end Ray.Spends

end Downhill
