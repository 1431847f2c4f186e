import Downhill.Sampling.Congruential
import Downhill.Sampling.Sampler
import Mathlib.Data.List.Infix

/-!
# Passes of a sampler

Draws without replacement hand out one arrangement of all indices after the other.
What has been handed out and what remains of the current arrangement are together a
sequence of whole arrangements.  A draw with replacement takes nothing from them, and
neither does a batch that holds every index.
-/

namespace Downhill

namespace Sampler

variable {G : Type}

/-- What can be asked of a sampler between two resets.  The choice how batches are drawn
does not start a new pass. -/
inductive Demand
  | sample (batch : Nat)
  | choose (withReplacement : Bool)
  deriving DecidableEq, Repr

/-- The batches that demands ask for, and how each is to be drawn. -/
def Demand.batches (withReplacement : Bool) : List Demand → List (Nat × Bool)
  | [] => []
  | .choose withReplacement :: demands => batches withReplacement demands
  | .sample batch :: demands => (batch, withReplacement) :: batches withReplacement demands

/-- A batch that has been asked for, how it was to be drawn, and the answer. -/
structure Drawn where
  batch : Nat
  withReplacement : Bool
  answer : Except Fault (List Nat)

namespace Drawn

/-- The part of a batch in the passes over the indices. -/
def share (size : Nat) (d : Drawn) : List Nat :=
  if d.withReplacement = false ∧ d.batch < size then d.answer.toOption.getD [] else []

/-- The passes over the indices, in the order of the batches. -/
def stream (size : Nat) (drawn : List Drawn) : List Nat := drawn.flatMap (share size)

end Drawn

/-- A block of so many entries. -/
def block (size i : Nat) (xs : List Nat) : List Nat := (xs.drop (i * size)).take size

theorem block_flatten {size : Nat} {orders : List (List Nat)}
    (h : ∀ order ∈ orders, order.length = size) (i : Nat) :
    block size i orders.flatten = orders[i]?.getD [] := by
  unfold block
  induction orders generalizing i with
  | nil => simp
  | cons order orders ih =>
    have hlength := h order List.mem_cons_self
    cases i with
    | zero =>
      rw [Nat.zero_mul, List.drop_zero, List.flatten_cons, List.take_left' hlength]
      rfl
    | succ i =>
      rw [Nat.succ_mul, Nat.add_comm, List.flatten_cons, ← hlength, List.drop_length_add_append,
        hlength, ih fun order horder => h order (List.mem_cons_of_mem _ horder)]
      rfl

theorem block_begins (size i : Nat) {xs ys : List Nat} (h : xs <+: ys) :
    block size i xs <+: block size i ys :=
  List.IsPrefix.take (List.IsPrefix.drop h _) _

variable [IndexSource G]

/-- Answer demands one after the other.  A draw that fails leaves the sampler as it is. -/
def serve (s : Sampler G) : List Demand → List Drawn × Sampler G
  | [] => ([], s)
  | .choose withReplacement :: demands => serve { s with withReplacement } demands
  | .sample batch :: demands =>
    match s.draw batch with
    | .error fault =>
      let (drawn, last) := serve s demands
      (⟨batch, s.withReplacement, .error fault⟩ :: drawn, last)
    | .ok (indices, next) =>
      let (drawn, last) := serve next demands
      (⟨batch, s.withReplacement, .ok indices⟩ :: drawn, last)

/-- The passes over the indices that demands lead to after a reset. -/
def passes (s : Sampler G) (demands : List Demand) : List Nat :=
  Drawn.stream s.size (s.reset.serve demands).1

/-! ## A draw -/

theorem draw_without {s : Sampler G} (h : s.withReplacement = false) {batch : Nat}
    (hbatch : 0 < batch) :
    s.draw batch =
      .ok (if s.size ≤ batch then (List.range s.size, s) else s.continuePass batch) := by
  unfold draw
  rw [if_neg (Nat.ne_of_gt hbatch), h, if_neg Bool.false_ne_true]
  by_cases hfull : s.size ≤ batch
  · rw [if_pos hfull, if_pos hfull]
  · rw [if_neg hfull, if_neg hfull]

theorem batch_pos_of_draw {s t : Sampler G} {batch : Nat} {indices : List Nat}
    (hdraw : s.draw batch = .ok (indices, t)) : 0 < batch := by
  by_contra hzero
  unfold draw at hdraw
  rw [if_pos (Nat.eq_zero_of_not_pos hzero)] at hdraw
  cases hdraw

/-- A draw with replacement changes nothing but the source. -/
theorem eq_of_draw_with {s t : Sampler G} {batch : Nat} {indices : List Nat}
    (h : s.withReplacement = true) (hdraw : s.draw batch = .ok (indices, t)) :
    t = { s with source := t.source } := by
  unfold draw at hdraw
  split at hdraw
  · cases hdraw
  split at hdraw
  · obtain ⟨_, -, hdraw⟩ := Fault.bind_eq_ok_iff.mp hdraw
    cases hdraw
    rfl
  · cases hdraw

theorem setting_of_draw {s t : Sampler G} {batch : Nat} {indices : List Nat}
    (hdraw : s.draw batch = .ok (indices, t)) :
    t.size = s.size ∧ t.withReplacement = s.withReplacement := by
  have hpass : ∀ batch, (s.continuePass batch).2.size = s.size ∧
      (s.continuePass batch).2.withReplacement = s.withReplacement := by
    intro batch
    unfold continuePass
    split
    · exact ⟨rfl, rfl⟩
    · exact ⟨rfl, rfl⟩
  cases hreplacement : s.withReplacement with
  | true =>
    rw [eq_of_draw_with hreplacement hdraw]
    exact ⟨rfl, hreplacement⟩
  | false =>
    rw [draw_without hreplacement (batch_pos_of_draw hdraw)] at hdraw
    split at hdraw
    · cases hdraw
      exact ⟨rfl, hreplacement⟩
    · have ht := hpass batch
      rw [Except.ok.inj hdraw, hreplacement] at ht
      exact ht

theorem batches_of_serve (s : Sampler G) (demands : List Demand) :
    (s.serve demands).1.map (fun d => (d.batch, d.withReplacement)) =
      Demand.batches s.withReplacement demands := by
  induction demands generalizing s with
  | nil => rfl
  | cons demand demands ih =>
    cases demand with
    | choose withReplacement => exact ih { s with withReplacement }
    | sample batch =>
      unfold serve
      cases hdraw : s.draw batch with
      | error fault => exact congrArg (_ :: ·) (ih s)
      | ok drawn =>
        obtain ⟨indices, next⟩ := drawn
        have hnext := ih next
        rw [(setting_of_draw hdraw).2] at hnext
        exact congrArg (_ :: ·) hnext

section Lawful

variable [LawfulIndexSource G]

/-- A batch of a pass is as long as asked for.  With what remains after it, it is what
remained before, and maybe one more arrangement. -/
theorem continuePass_spec (s : Sampler G) {batch : Nat} (h : batch < s.size) :
    (s.continuePass batch).1.length = batch ∧
      ∃ orders : List (List Nat), (∀ order ∈ orders, order.Perm (List.range s.size)) ∧
        (s.continuePass batch).1 ++ (s.continuePass batch).2.remaining =
          s.remaining ++ orders.flatten := by
  unfold continuePass
  by_cases hlong : batch ≤ s.remaining.length
  · rw [if_pos hlong]
    refine ⟨List.length_take_of_le hlong, [], List.forall_mem_nil _, ?_⟩
    rw [List.flatten_nil, List.append_nil]
    exact List.take_append_drop batch s.remaining
  · rw [if_neg hlong]
    have hperm := LawfulIndexSource.shuffle_perm s.size s.source
    generalize IndexSource.shuffle s.size s.source = shuffled at hperm ⊢
    obtain ⟨order, source⟩ := shuffled
    have hlength : order.length = s.size := hperm.length_eq.trans List.length_range
    refine ⟨?_, [order], fun o ho => List.mem_singleton.mp ho ▸ hperm, ?_⟩
    · rw [List.length_append, List.length_take]
      omega
    · rw [List.flatten_singleton, List.append_assoc, List.take_append_drop]

/-- The share of a draw in the passes, with what remains after it, is what remained before
it with whole arrangements added. -/
theorem share_of_draw {s t : Sampler G} {batch : Nat} {indices : List Nat}
    (hdraw : s.draw batch = .ok (indices, t)) :
    ∃ orders : List (List Nat), (∀ order ∈ orders, order.Perm (List.range s.size)) ∧
      Drawn.share s.size ⟨batch, s.withReplacement, .ok indices⟩ ++ t.remaining =
        s.remaining ++ orders.flatten := by
  unfold Drawn.share
  cases hreplacement : s.withReplacement with
  | true =>
    rw [eq_of_draw_with hreplacement hdraw, if_neg fun h => nomatch h.1]
    exact ⟨[], List.forall_mem_nil _, (List.append_nil _).symm⟩
  | false =>
    rw [draw_without hreplacement (batch_pos_of_draw hdraw)] at hdraw
    by_cases hfull : s.size ≤ batch
    · rw [if_pos hfull] at hdraw
      cases hdraw
      rw [if_neg fun h => absurd h.2 (Nat.not_lt_of_le hfull)]
      exact ⟨[], List.forall_mem_nil _, (List.append_nil _).symm⟩
    · rw [if_neg hfull] at hdraw
      have hbatch := Nat.lt_of_not_le hfull
      obtain ⟨-, orders, horders, hspec⟩ := continuePass_spec s hbatch
      rw [Except.ok.inj hdraw] at hspec
      rw [if_pos ⟨rfl, hbatch⟩]
      exact ⟨orders, horders, hspec⟩

/-! ## A sequence of draws -/

theorem serve_stream (s : Sampler G) (demands : List Demand) :
    ∃ orders : List (List Nat), (∀ order ∈ orders, order.Perm (List.range s.size)) ∧
      Drawn.stream s.size (s.serve demands).1 ++ (s.serve demands).2.remaining =
        s.remaining ++ orders.flatten := by
  induction demands generalizing s with
  | nil => exact ⟨[], List.forall_mem_nil _, (List.append_nil _).symm⟩
  | cons demand demands ih =>
    cases demand with
    | choose withReplacement => exact ih { s with withReplacement }
    | sample batch =>
      unfold serve
      cases hdraw : s.draw batch with
      | error fault =>
        have hshare : Drawn.share s.size ⟨batch, s.withReplacement, .error fault⟩ = [] := by
          unfold Drawn.share
          split <;> rfl
        obtain ⟨orders, horders, hstream⟩ := ih s
        refine ⟨orders, horders, ?_⟩
        unfold Drawn.stream at hstream ⊢
        rw [List.flatMap_cons, hshare, List.nil_append]
        exact hstream
      | ok drawn =>
        obtain ⟨indices, next⟩ := drawn
        obtain ⟨orders, horders, hshare⟩ := share_of_draw hdraw
        obtain ⟨later, hlater, hstream⟩ := ih next
        rw [(setting_of_draw hdraw).1] at hlater hstream
        refine ⟨orders ++ later, ?_, ?_⟩
        · intro order horder
          exact (List.mem_append.mp horder).elim (horders order) (hlater order)
        · unfold Drawn.stream at hstream ⊢
          rw [List.flatMap_cons, List.append_assoc, List.flatten_append]
          dsimp only
          rw [hstream, ← List.append_assoc, hshare, List.append_assoc]

/-- A batch without replacement that is not empty always comes, and it is as long as asked
for or holds every index in order. -/
theorem answer_of_serve {s : Sampler G} {demands : List Demand} {d : Drawn}
    (hd : d ∈ (s.serve demands).1) (hreplacement : d.withReplacement = false)
    (hbatch : 0 < d.batch) :
    ∃ indices, d.answer = .ok indices ∧
      if d.batch < s.size then indices.length = d.batch else indices = List.range s.size := by
  induction demands generalizing s with
  | nil => exact nomatch hd
  | cons demand demands ih =>
    cases demand with
    | choose withReplacement => exact ih (s := { s with withReplacement }) hd
    | sample batch =>
      unfold serve at hd
      cases hdraw : s.draw batch with
      | error fault =>
        rw [hdraw] at hd
        rcases List.mem_cons.mp hd with rfl | hd
        · rw [draw_without hreplacement hbatch] at hdraw
          cases hdraw
        · exact ih hd
      | ok drawn =>
        obtain ⟨indices, next⟩ := drawn
        rw [hdraw] at hd
        rcases List.mem_cons.mp hd with rfl | hd
        · refine ⟨indices, rfl, ?_⟩
          rw [draw_without hreplacement hbatch] at hdraw
          by_cases hfull : s.size ≤ batch
          · rw [if_pos hfull] at hdraw
            cases hdraw
            rw [if_neg (Nat.not_lt_of_le hfull)]
          · rw [if_neg hfull] at hdraw
            have hlength := (continuePass_spec s (Nat.lt_of_not_le hfull)).1
            rw [Except.ok.inj hdraw] at hlength
            rw [if_pos (Nat.lt_of_not_le hfull)]
            exact hlength
        · have hnext := ih hd
          rw [(setting_of_draw hdraw).1] at hnext
          exact hnext

/-! ## Passes -/

/-- Every block of the passes is the beginning of an arrangement, or empty. -/
theorem exists_order (s : Sampler G) (demands : List Demand) (i : Nat) :
    ∃ order : List Nat, (order = [] ∨ order.Perm (List.range s.size)) ∧
      block s.size i (s.passes demands) <+: order := by
  obtain ⟨orders, horders, hstream⟩ := s.reset.serve_stream demands
  have hlength : ∀ order ∈ orders, order.length = s.size := fun order horder =>
    (horders order horder).length_eq.trans List.length_range
  have hbegins : s.passes demands <+: orders.flatten := ⟨_, hstream⟩
  have hblock := block_begins s.size i hbegins
  rw [block_flatten hlength] at hblock
  refine ⟨_, ?_, hblock⟩
  cases horder : orders[i]? with
  | none => exact Or.inl rfl
  | some order => exact Or.inr (horders order (List.mem_of_getElem? horder))

/-- After a reset the batches without replacement run through the indices pass by pass,
whatever is drawn or chosen between them. -/
theorem passes_covered (s : Sampler G) (demands : List Demand) :
    (∀ i, (i + 1) * s.size ≤ (s.passes demands).length →
      (block s.size i (s.passes demands)).Perm (List.range s.size)) ∧
    (∀ i, (block s.size i (s.passes demands)).Nodup ∧
      ∀ x ∈ block s.size i (s.passes demands), x < s.size) ∧
    (s.reset.serve demands).1.map (fun d => (d.batch, d.withReplacement)) =
      Demand.batches s.withReplacement demands ∧
    ∀ d ∈ (s.reset.serve demands).1, d.withReplacement = false → 0 < d.batch →
      ∃ indices, d.answer = .ok indices ∧
        if d.batch < s.size then indices.length = d.batch else indices = List.range s.size := by
  refine ⟨fun i hcomplete => ?_, fun i => ?_, s.reset.batches_of_serve demands,
    fun d hd => answer_of_serve (s := s.reset) hd⟩
  · obtain ⟨order, horder, hbegins⟩ := s.exists_order demands i
    have hlength : (block s.size i (s.passes demands)).length = s.size := by
      rw [Nat.succ_mul] at hcomplete
      unfold block
      rw [List.length_take, List.length_drop]
      omega
    rcases horder with rfl | hperm
    · have hempty := List.prefix_nil.mp hbegins
      rw [hempty] at hlength ⊢
      rw [← show 0 = s.size from hlength]
      exact .refl _
    · rw [hbegins.eq_of_length (hlength.trans (hperm.length_eq.trans List.length_range).symm)]
      exact hperm
  · obtain ⟨order, horder, hbegins⟩ := s.exists_order demands i
    rcases horder with rfl | hperm
    · rw [List.prefix_nil.mp hbegins]
      exact ⟨List.nodup_nil, List.forall_mem_nil _⟩
    · refine ⟨hbegins.sublist.nodup (hperm.nodup_iff.mpr List.nodup_range), fun x hx => ?_⟩
      exact List.mem_range.mp (hperm.mem_iff.mp (hbegins.sublist.subset hx))

end Lawful

theorem passes_covered_five :
    let s : Sampler Congruential := ⟨5, false, .ofSeed 7, [4]⟩
    let demands : List Demand :=
      [.sample 3, .choose true, .sample 2, .choose false, .sample 9, .sample 4, .sample 1]
    (s.passes demands).length = 8 ∧ (block 5 0 (s.passes demands)).Perm (List.range 5) ∧
      (block 5 1 (s.passes demands)).Nodup := by
  intro s demands
  obtain ⟨hcomplete, hpartial, -, -⟩ := passes_covered s demands
  have hlength : (s.passes demands).length = 8 := by decide +kernel
  exact ⟨hlength, hcomplete 0 (by rw [hlength]; decide), (hpartial 1).1⟩

end Sampler

end Downhill
