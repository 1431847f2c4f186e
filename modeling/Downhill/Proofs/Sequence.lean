import Downhill.Fault

/-!
# Sequences of parts that may fail

A part of a run changes a state and gives a result or a fault.  A sequence of two parts
succeeds exactly when both do, the second one on the state that the first one leaves.

What holds after a part, and what holds if it fails, is put together for a sequence from
its parts.

One part mirrors another one when it does the same on the image of every state.  Sequences
of parts that mirror each other do so as well.
-/

namespace Downhill

variable {σ β γ : Type} {x : ExceptT Fault (StateM σ) β} {f : β → ExceptT Fault (StateM σ) γ}
  {s t u : σ} {b : β} {c : γ}

/-- A part that succeeds hands its result and its state to the next one. -/
theorem run_bind_of_ok (h : (ExceptT.run x).run s = (.ok b, t)) :
    (ExceptT.run (x >>= f)).run s = (ExceptT.run (f b)).run t := by
  rw [ExceptT.run_bind, StateT.run_bind]
  show (let p := (ExceptT.run x).run s; _) = _
  rw [h]
  rfl

/-- A part that fails ends the sequence. -/
theorem run_bind_of_error {fault : Fault} (h : (ExceptT.run x).run s = (.error fault, t)) :
    (ExceptT.run (x >>= f)).run s = (.error fault, t) := by
  rw [ExceptT.run_bind, StateT.run_bind]
  show (let p := (ExceptT.run x).run s; _) = _
  rw [h]
  rfl

/-- When a sequence of two parts succeeds, both do. -/
theorem exists_of_run_bind (h : (ExceptT.run (x >>= f)).run s = (.ok c, u)) :
    ∃ b t, (ExceptT.run x).run s = (.ok b, t) ∧ (ExceptT.run (f b)).run t = (.ok c, u) := by
  rcases hx : (ExceptT.run x).run s with ⟨result, t⟩
  cases result with
  | error fault =>
    rw [run_bind_of_error hx] at h
    cases h
  | ok b =>
    rw [run_bind_of_ok hx] at h
    exact ⟨b, t, rfl, h⟩

/-! ## What parts leave -/

/-- From a state, a part leaves a result and a state of which the first condition holds, or
it ends in a fault and a state of which the second one does. -/
def Ensures (s : σ) (x : ExceptT Fault (StateM σ) β) (post : β → σ → Prop)
    (fails : Fault → σ → Prop) : Prop :=
  match (ExceptT.run x).run s with
  | (.ok b, t) => post b t
  | (.error fault, t) => fails fault t

namespace Ensures

variable {post post' : β → σ → Prop} {next : γ → σ → Prop} {fails fails' : Fault → σ → Prop}

theorem of_ok (h : Ensures s x post fails) (hrun : (ExceptT.run x).run s = (.ok b, t)) :
    post b t := by
  unfold Ensures at h
  rw [hrun] at h
  exact h

theorem of_error {fault : Fault} (h : Ensures s x post fails)
    (hrun : (ExceptT.run x).run s = (.error fault, t)) : fails fault t := by
  unfold Ensures at h
  rw [hrun] at h
  exact h

theorem exists_run (h : Ensures s x post fun _ _ => False) :
    ∃ b t, (ExceptT.run x).run s = (.ok b, t) ∧ post b t := by
  rcases hrun : (ExceptT.run x).run s with ⟨result, t⟩
  cases result with
  | error fault => exact (h.of_error hrun).elim
  | ok b => exact ⟨b, t, rfl, h.of_ok hrun⟩

/-- What holds of the state after a part and after its failure holds of the state it leaves. -/
theorem state {kept : σ → Prop} (h : Ensures s x (fun _ => kept) fun _ => kept) :
    kept ((ExceptT.run x).run s).2 := by
  rcases hrun : (ExceptT.run x).run s with ⟨result, t⟩
  cases result with
  | error fault => exact h.of_error hrun
  | ok b => exact h.of_ok hrun

theorem mono (h : Ensures s x post fails) (hpost : ∀ b t, post b t → post' b t)
    (hfails : ∀ fault t, fails fault t → fails' fault t) : Ensures s x post' fails' := by
  unfold Ensures at h ⊢
  split
  · rename_i hrun
    rw [hrun] at h
    exact hpost _ _ h
  · rename_i hrun
    rw [hrun] at h
    exact hfails _ _ h

theorem pure (h : post b s) : Ensures s (Pure.pure b) post fails := h

theorem bind (hx : Ensures s x post fails) (hf : ∀ b t, post b t → Ensures t (f b) next fails) :
    Ensures s (x >>= f) next fails := by
  rcases hrun : (ExceptT.run x).run s with ⟨result, t⟩
  unfold Ensures
  cases result with
  | error fault =>
    rw [run_bind_of_error hrun]
    exact hx.of_error hrun
  | ok b =>
    rw [run_bind_of_ok hrun]
    exact hf b t (hx.of_ok hrun)

theorem get_bind {f : σ → ExceptT Fault (StateM σ) γ} (h : Ensures s (f s) next fails) :
    Ensures s (MonadState.get >>= f) next fails := h

theorem set {post : PUnit → σ → Prop} (h : post ⟨⟩ t) :
    Ensures s (MonadStateOf.set t) post fails := h

theorem modify_bind {g : σ → σ} {f : PUnit → ExceptT Fault (StateM σ) γ}
    (h : Ensures (g s) (f ⟨⟩) next fails) :
    Ensures s ((modify g : ExceptT Fault (StateM σ) PUnit) >>= f) next fails := h

theorem modify {post : PUnit → σ → Prop} {g : σ → σ} (h : post ⟨⟩ (g s)) :
    Ensures s (modify g) post fails := h

theorem answer {result : Except Fault β} (hok : ∀ b, result = .ok b → post b s)
    (herror : ∀ fault, result = .error fault → fails fault s) :
    Ensures s (ExceptT.mk (Pure.pure result)) post fails := by
  cases result with
  | error fault => exact herror fault rfl
  | ok b => exact hok b rfl

end Ensures

/-- From every state a part gives a result with the property, and it never fails. -/
def Returns (x : ExceptT Fault (StateM σ) β) (post : β → Prop) : Prop :=
  ∀ s, Ensures s x (fun b _ => post b) fun _ _ => False

namespace Returns

variable {post : β → Prop} {next : γ → Prop}

theorem pure (h : post b) : Returns (Pure.pure b : ExceptT Fault (StateM σ) β) post := fun _ => h

theorem bind (hx : Returns x post) (hf : ∀ b, post b → Returns (f b) next) :
    Returns (x >>= f) next :=
  fun s => Ensures.bind (hx s) fun b t h => hf b h t

theorem answer {result : Except Fault β} (h : ∃ b, result = .ok b ∧ post b) :
    Returns (ExceptT.mk (Pure.pure result) : ExceptT Fault (StateM σ) β) post := by
  obtain ⟨b, rfl, hb⟩ := h
  exact fun _ => hb

end Returns

/-! ## Mirrored parts -/

/-- On the image of a state the second part leaves the image of the state that the first part
leaves, and gives the image of its result or the same fault. -/
def Mirrors {δ : Type} (onState : σ → σ) (onResult : β → δ) (x : ExceptT Fault (StateM σ) β)
    (y : ExceptT Fault (StateM σ) δ) : Prop :=
  ∀ s, (ExceptT.run y).run (onState s) =
    (((ExceptT.run x).run s).1.map onResult, onState ((ExceptT.run x).run s).2)

namespace Mirrors

variable {β' γ' : Type} {onState : σ → σ} {onResult : β → β'} {onNext : γ → γ'}

theorem pure (onResult : β → β') (b : β) :
    Mirrors onState onResult (Pure.pure b) (Pure.pure (onResult b)) := fun _ => rfl

theorem bind {x : ExceptT Fault (StateM σ) β} {y : ExceptT Fault (StateM σ) β'}
    {f : β → ExceptT Fault (StateM σ) γ} {g : β' → ExceptT Fault (StateM σ) γ'}
    (hx : Mirrors onState onResult x y) (hf : ∀ b, Mirrors onState onNext (f b) (g (onResult b))) :
    Mirrors onState onNext (x >>= f) (y >>= g) := by
  intro s
  have hy := hx s
  rcases hrun : (ExceptT.run x).run s with ⟨result, t⟩
  rw [hrun] at hy
  cases result with
  | error fault => rw [run_bind_of_error hrun, run_bind_of_error hy]; rfl
  | ok b =>
    rw [run_bind_of_ok hrun, run_bind_of_ok hy]
    exact hf b t

theorem get : Mirrors onState onState (MonadState.get : ExceptT Fault (StateM σ) σ)
    MonadState.get := fun _ => rfl

theorem set (s : σ) : Mirrors onState id (MonadStateOf.set s : ExceptT Fault (StateM σ) PUnit)
    (MonadStateOf.set (onState s)) := fun _ => rfl

theorem modify {f g : σ → σ} (h : ∀ s, g (onState s) = onState (f s)) :
    Mirrors onState id (modify f : ExceptT Fault (StateM σ) PUnit) (modify g) :=
  fun s => Prod.ext rfl (h s)

end Mirrors

end Downhill
