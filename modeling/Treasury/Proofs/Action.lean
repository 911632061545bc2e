import Mathlib.Order.Defs.Unbundled
import Treasury.Game.Table

/-!
# Actions that may fail

Everything that changes a game is an action of one shape: it takes a state, may fail, and leaves a
state in either case. `exec` carries such an action out, and the equations below say what it makes
of each way to put actions together, so that no proof has to open the monad.

* `exec_bind`: an action goes on from where the one before it ended, unless that one failed.
* `Keeps` is the frame of an action: a relation that holds between the state before and the state
  after, whether or not the action failed. `Keeps.bind` and its companions carry a frame through an
  action as a whole.
* `Answers` and `Leaves` say what an action answers, and what it leaves where it answers.
* `Throws` says which errors an action may end with, and `Reverts` what holds between the two states
  where it ends with an error of a certain sort.
-/

namespace Treasury

variable {ε σ α β : Type}

/-- Carries an action out from a state: its answer or error, and the state it leaves. -/
def exec (x : ExceptT ε (StateM σ) α) (s : σ) : Except ε α × σ := x.run.run s

/-- Actions that do the same from every state are the same. -/
theorem exec_ext {x y : ExceptT ε (StateM σ) α} (h : ∀ s, exec x s = exec y s) : x = y :=
  funext h

@[simp]
theorem exec_pure (a : α) (s : σ) : exec (pure a : ExceptT ε (StateM σ) α) s = (.ok a, s) := rfl

@[simp]
theorem exec_throw (e : ε) (s : σ) :
    exec (throw e : ExceptT ε (StateM σ) α) s = (.error e, s) := rfl

@[simp]
theorem exec_get (s : σ) : exec (get : ExceptT ε (StateM σ) σ) s = (.ok s, s) := rfl

@[simp]
theorem exec_set (s t : σ) :
    exec (set t : ExceptT ε (StateM σ) PUnit) s = (.ok ⟨⟩, t) := rfl

@[simp]
theorem exec_modify (f : σ → σ) (s : σ) :
    exec (modify f : ExceptT ε (StateM σ) PUnit) s = (.ok ⟨⟩, f s) := rfl

/-- An action goes on from where the one before it ended, unless that one failed. -/
@[simp]
theorem exec_bind (x : ExceptT ε (StateM σ) α) (f : α → ExceptT ε (StateM σ) β) (s : σ) :
    exec (x >>= f) s = match exec x s with
      | (.ok a, t) => exec (f a) t
      | (.error e, t) => (.error e, t) := by
  change (match x.run.run s with | (a, t) => (ExceptT.bindCont f a).run t) = _
  unfold exec
  rcases x.run.run s with ⟨_ | _, _⟩ <;> rfl

theorem exec_get_bind (f : σ → ExceptT ε (StateM σ) β) (s : σ) :
    exec (get >>= f) s = exec (f s) s := rfl

theorem exec_set_bind (t : σ) (f : PUnit → ExceptT ε (StateM σ) β) (s : σ) :
    exec (set t >>= f) s = exec (f ⟨⟩) t := rfl

theorem exec_modify_bind (g : σ → σ) (f : PUnit → ExceptT ε (StateM σ) β) (s : σ) :
    exec (modify g >>= f) s = exec (f ⟨⟩) (g s) := rfl

/-- A change of the answer leaves the state. -/
@[simp]
theorem exec_map (x : ExceptT ε (StateM σ) α) (f : α → β) (s : σ) :
    exec (f <$> x) s = ((exec x s).1.map f, (exec x s).2) := by
  rw [map_eq_pure_bind, exec_bind]
  rcases exec x s with ⟨_ | _, _⟩ <;> rfl

/-- An action whose answer is discarded leaves the state that it leaves. -/
@[simp]
theorem exec_discard (x : ExceptT ε (StateM σ) α) (s : σ) :
    exec (Functor.discard x) s = ((exec x s).1.map fun _ => ⟨⟩, (exec x s).2) :=
  exec_map x (fun _ => PUnit.unit) s

@[simp]
theorem exec_ite (p : Prop) [Decidable p] (x y : ExceptT ε (StateM σ) α) (s : σ) :
    exec (if p then x else y) s = if p then exec x s else exec y s := by
  split <;> rfl

/-- Of an action that may be stood in for, the other one is carried out where it fails. -/
@[simp]
theorem exec_tryCatch (x : ExceptT ε (StateM σ) α) (f : ε → ExceptT ε (StateM σ) α) (s : σ) :
    exec (tryCatch x f) s = match exec x s with
      | (.ok a, t) => (.ok a, t)
      | (.error e, t) => exec (f e) t := by
  change (match x.run.run s with | (a, t) => ((match a with
    | .ok a => pure (.ok a) | .error e => f e : StateM σ (Except ε α))).run t) = _
  unfold exec
  rcases x.run.run s with ⟨_ | _, _⟩ <;> rfl

/-- An action fails from a state. -/
def Fails (x : ExceptT ε (StateM σ) α) (s : σ) : Prop :=
  ∃ e, (exec x s).1 = .error e

theorem not_fails_pure (a : α) (s : σ) : ¬ Fails (pure a : ExceptT ε (StateM σ) α) s :=
  fun ⟨_, h⟩ => nomatch h

/-- An action fails in its first part or, after that, in its second. -/
theorem fails_bind_iff (x : ExceptT ε (StateM σ) α) (f : α → ExceptT ε (StateM σ) β) (s : σ) :
    Fails (x >>= f) s ↔ Fails x s ∨ match exec x s with
      | (.ok a, t) => Fails (f a) t
      | (.error _, _) => False := by
  unfold Fails
  rw [exec_bind]
  rcases exec x s with ⟨e | a, t⟩
  · exact ⟨fun _ => .inl ⟨e, rfl⟩, fun _ => ⟨e, rfl⟩⟩
  · refine ⟨.inr, fun h => h.resolve_left ?_⟩
    rintro ⟨_, h⟩
    cases h

/-- An action fails in its first part if the second part never fails. -/
theorem fails_bind_iff_left {x : ExceptT ε (StateM σ) α} {f : α → ExceptT ε (StateM σ) β}
    (h : ∀ a t, ¬ Fails (f a) t) (s : σ) : Fails (x >>= f) s ↔ Fails x s := by
  rw [fails_bind_iff]
  refine or_iff_left ?_
  rcases exec x s with ⟨e | a, t⟩
  · exact id
  · exact h a t

/-- An action whose second part fails by the state alone fails there if it comes to it. -/
theorem fails_bind_iff_of_state {x : ExceptT ε (StateM σ) α} {f : α → ExceptT ε (StateM σ) β}
    {P : σ → Prop} (h : ∀ a t, Fails (f a) t ↔ P t) (s : σ) :
    Fails (x >>= f) s ↔ Fails x s ∨ P (exec x s).2 := by
  rw [fails_bind_iff]
  unfold Fails
  rcases exec x s with ⟨e | a, t⟩
  · exact ⟨fun _ => .inl ⟨e, rfl⟩, fun _ => .inl ⟨e, rfl⟩⟩
  · exact or_congr_right (h a t)

/-- Whatever an action answers satisfies a statement. -/
def Answers (P : α → Prop) (x : ExceptT ε (StateM σ) α) : Prop :=
  ∀ s a, (exec x s).1 = .ok a → P a

namespace Answers

variable {P : α → Prop} {x y : ExceptT ε (StateM σ) α}

theorem pure {a : α} (h : P a) : Answers P (Pure.pure a : ExceptT ε (StateM σ) α) := by
  intro s b hb
  cases hb
  exact h

/-- The last part of an action answers for the whole. -/
theorem bind {z : ExceptT ε (StateM σ) β} {f : β → ExceptT ε (StateM σ) α}
    (h : ∀ b, Answers P (f b)) : Answers P (z >>= f) := by
  intro s a ha
  rw [exec_bind] at ha
  rcases hz : exec z s with ⟨e | b, t⟩ <;> rw [hz] at ha
  · cases ha
  · exact h b t a ha

theorem ite {p : Prop} [Decidable p] (hx : Answers P x) (hy : Answers P y) :
    Answers P (if p then x else y) := by
  split
  · exact hx
  · exact hy

end Answers

/-- Where an action answers, the state that it leaves satisfies a statement. -/
def Leaves (P : σ → Prop) (x : ExceptT ε (StateM σ) α) : Prop :=
  ∀ s a, (exec x s).1 = .ok a → P (exec x s).2

namespace Leaves

variable {P : σ → Prop} {x y : ExceptT ε (StateM σ) α}

theorem throw (e : ε) : Leaves P (MonadExcept.throw e : ExceptT ε (StateM σ) α) :=
  fun _ _ h => nomatch h

/-- The last part of an action leaves what the whole does. -/
theorem bind {z : ExceptT ε (StateM σ) β} {f : β → ExceptT ε (StateM σ) α}
    (h : ∀ b, Leaves P (f b)) : Leaves P (z >>= f) := by
  intro s a ha
  rw [exec_bind] at ha ⊢
  rcases hz : exec z s with ⟨e | b, t⟩ <;> rw [hz] at ha
  · cases ha
  · exact h b t a ha

theorem ite {p : Prop} [Decidable p] (hx : Leaves P x) (hy : Leaves P y) :
    Leaves P (if p then x else y) := by
  split
  · exact hx
  · exact hy

end Leaves

/-- Whatever error an action ends with satisfies a statement. -/
def Throws (P : ε → Prop) (x : ExceptT ε (StateM σ) α) : Prop :=
  ∀ s e, (exec x s).1 = .error e → P e

namespace Throws

variable {P : ε → Prop} {x : ExceptT ε (StateM σ) α}

/-- An action that always answers throws nothing. -/
theorem of_ok (h : ∀ s, ∃ a, (exec x s).1 = .ok a) : Throws P x := by
  intro s e he
  obtain ⟨a, ha⟩ := h s
  rw [ha] at he
  cases he

theorem pure (a : α) : Throws P (Pure.pure a : ExceptT ε (StateM σ) α) := of_ok fun _ => ⟨a, rfl⟩

theorem get : Throws P (MonadState.get : ExceptT ε (StateM σ) σ) := of_ok fun s => ⟨s, rfl⟩

/-- An error of an action is one of its first part or one of its second part. -/
theorem bind {f : α → ExceptT ε (StateM σ) β} (hx : Throws P x) (hf : ∀ a, Throws P (f a)) :
    Throws P (x >>= f) := by
  intro s e he
  rw [exec_bind] at he
  rcases hdone : exec x s with ⟨e' | a, t⟩ <;> rw [hdone] at he
  · cases he
    exact hx s e (congrArg Prod.fst hdone)
  · exact hf a t e he

theorem map (hx : Throws P x) (g : α → β) : Throws P (g <$> x) := by
  rw [map_eq_pure_bind]
  exact hx.bind fun a => pure (g a)

theorem ite {p : Prop} [Decidable p] {y : ExceptT ε (StateM σ) α} (hx : Throws P x)
    (hy : Throws P y) : Throws P (if p then x else y) := by
  split
  · exact hx
  · exact hy

theorem forM {body : β → ExceptT ε (StateM σ) PUnit} (h : ∀ b, Throws P (body b)) :
    ∀ bs : List β, Throws P (bs.forM body)
  | [] => pure _
  | b :: bs => bind (h b) fun _ => forM h bs

end Throws

/-- A frame of an action: the state that it leaves is related to the one it started from, whether
or not it failed. -/
def Keeps (R : σ → σ → Prop) (x : ExceptT ε (StateM σ) α) : Prop := ∀ s, R s (exec x s).2

namespace Keeps

variable {R : σ → σ → Prop} {x : ExceptT ε (StateM σ) α} {f : α → ExceptT ε (StateM σ) β}

/-- An action that leaves the state keeps every reflexive relation. -/
theorem of_fixed [Std.Refl R] (h : ∀ s, (exec x s).2 = s) : Keeps R x := fun s => by
  rw [h s]
  exact Std.Refl.refl s

/-- A frame may be loosened. -/
theorem mono {S : σ → σ → Prop} (hx : Keeps R x) (h : ∀ s t, R s t → S s t) : Keeps S x :=
  fun s => h s _ (hx s)

theorem pure [Std.Refl R] (a : α) : Keeps R (Pure.pure a : ExceptT ε (StateM σ) α) :=
  of_fixed fun _ => rfl

theorem throw [Std.Refl R] (e : ε) : Keeps R (MonadExcept.throw e : ExceptT ε (StateM σ) α) :=
  of_fixed fun _ => rfl

theorem get [Std.Refl R] : Keeps R (MonadState.get : ExceptT ε (StateM σ) σ) :=
  of_fixed fun _ => rfl

/-- If a relation leads up to where the first part of an action ends, and the second part keeps it
from there, it leads up to where the whole ends. -/
theorem bind_of_exec [IsTrans σ R] {s₀ s : σ} (hx : R s₀ (exec x s).2)
    (hf : ∀ a t, exec x s = (.ok a, t) → R t (exec (f a) t).2) : R s₀ (exec (x >>= f) s).2 := by
  rw [exec_bind]
  rcases hdone : exec x s with ⟨e | a, t⟩ <;> rw [hdone] at hx
  · exact hx
  · exact IsTrans.trans s₀ t _ hx (hf a t hdone)

/-- If the first part of an action keeps a relation from where it starts, and the second part from
everywhere, the whole keeps it from there. -/
theorem bind_from [IsTrans σ R] {s : σ} (hx : R s (exec x s).2) (hf : ∀ a, Keeps R (f a)) :
    R s (exec (x >>= f) s).2 := bind_of_exec hx fun a t _ => hf a t

/-- What the second part of an action keeps relates where the first part ends to where the whole
ends. -/
theorem of_first [Std.Refl R] (x : ExceptT ε (StateM σ) α) (hf : ∀ a, Keeps R (f a)) (s : σ) :
    R (exec x s).2 (exec (x >>= f) s).2 := by
  rw [exec_bind]
  rcases exec x s with ⟨e | a, t⟩
  · exact Std.Refl.refl t
  · exact hf a t

/-- What both parts of an action keep, the whole keeps. -/
theorem bind [IsTrans σ R] (hx : Keeps R x) (hf : ∀ a, Keeps R (f a)) : Keeps R (x >>= f) :=
  fun s => bind_from (hx s) hf

theorem map (hx : Keeps R x) (g : α → β) : Keeps R (g <$> x) := fun s => by
  rw [exec_map]
  exact hx s

theorem ite {p : Prop} [Decidable p] {y : ExceptT ε (StateM σ) α} (hx : Keeps R x)
    (hy : Keeps R y) : Keeps R (if p then x else y) := by
  split
  · exact hx
  · exact hy

/-- An action keeps what every round of it keeps. -/
theorem forM [Std.Refl R] [IsTrans σ R] {body : β → ExceptT ε (StateM σ) PUnit}
    (h : ∀ b, Keeps R (body b)) : ∀ bs : List β, Keeps R (bs.forM body)
  | [] => pure _
  | b :: bs => bind (h b) fun _ => forM h bs

end Keeps

/-- Where an action ends with an error of the given sort, the state that it leaves is related to the
one it started from. -/
def Reverts (P : ε → Prop) (R : σ → σ → Prop) (x : ExceptT ε (StateM σ) α) : Prop :=
  ∀ s e, (exec x s).1 = .error e → P e → R s (exec x s).2

namespace Reverts

variable {P : ε → Prop} {R : σ → σ → Prop} {x : ExceptT ε (StateM σ) α}
  {f : α → ExceptT ε (StateM σ) β}

/-- What an action keeps it keeps where it fails. -/
theorem of_keeps (h : Keeps R x) : Reverts P R x := fun s _ _ _ => h s

/-- An action without such errors. -/
theorem of_throws (h : Throws (¬ P ·) x) : Reverts P R x := fun s e he hP => absurd hP (h s e he)

/-- An action may fail in its second part if its first part keeps the relation. -/
theorem bind [IsTrans σ R] (hx : Keeps R x) (hf : ∀ a, Reverts P R (f a)) :
    Reverts P R (x >>= f) := by
  intro s e he hP
  rw [exec_bind] at he ⊢
  have hfirst := hx s
  rcases hdone : exec x s with ⟨e' | a, t⟩ <;> rw [hdone] at he hfirst
  · exact hfirst
  · exact IsTrans.trans s t _ hfirst (hf a t e he hP)

/-- An action may change what it likes in its first part if it does not fail after that. -/
theorem bind_of_throws (hx : Reverts P R x) (hf : ∀ a, Throws (¬ P ·) (f a)) :
    Reverts P R (x >>= f) := by
  intro s e he hP
  rw [exec_bind] at he ⊢
  rcases hdone : exec x s with ⟨e' | a, t⟩ <;> rw [hdone] at he
  · cases he
    have hrelated := hx s e (congrArg Prod.fst hdone) hP
    rwa [hdone] at hrelated
  · exact absurd hP (hf a t e he)

theorem map (hx : Reverts P R x) (g : α → β) : Reverts P R (g <$> x) := by
  rw [map_eq_pure_bind]
  exact hx.bind_of_throws fun a => .pure (g a)

theorem ite {p : Prop} [Decidable p] {y : ExceptT ε (StateM σ) α} (hx : Reverts P R x)
    (hy : Reverts P R y) : Reverts P R (if p then x else y) := by
  split
  · exact hx
  · exact hy

end Reverts

end Treasury
