import Mathlib.Data.List.Forall2
import Scenario.Action

/-!
# What actions yield

`bind_eq_ok_iff` and `bind_eq_error_iff` take a run of two actions apart, `mapM_eq_error_iff` a row
of actions that fails. On the first two rests `Action.Yields`: in whatever world an action runs, its
result has one property and its failure another. Each way to build an action has its rule
(`Yields.pure`, `Yields.bind`, `Yields.mapM` and so on), so what a composed action yields follows
from what its parts yield, without a look at the worlds in between.
-/

namespace Scenario.Action

variable {α β : Type}

theorem map_apply (g : α → β) (a : Action α) (w : World) :
    (g <$> a) w =
      match a w with
      | (.ok x, w') => (.ok (g x), w')
      | (.error e, w') => (.error e, w') := rfl

theorem map_world (g : α → β) (a : Action α) (w : World) : ((g <$> a) w).2 = (a w).2 := by
  rw [map_apply]
  rcases a w with ⟨_ | _, _⟩ <;> rfl

theorem bind_eq_ok_iff {a : Action α} {f : α → Action β} {w w' : World} {y : β} :
    (a >>= f) w = (.ok y, w') ↔ ∃ x w₁, a w = (.ok x, w₁) ∧ f x w₁ = (.ok y, w') := by
  rw [bind_apply]
  rcases a w with ⟨e | x, w₁⟩
  · simp
  · refine ⟨fun h => ⟨x, w₁, rfl, h⟩, ?_⟩
    rintro ⟨_, _, ⟨⟩, h⟩
    exact h

theorem bind_eq_error_iff {a : Action α} {f : α → Action β} {w w' : World} {e : Failure} :
    (a >>= f) w = (.error e, w') ↔
      a w = (.error e, w') ∨ ∃ x w₁, a w = (.ok x, w₁) ∧ f x w₁ = (.error e, w') := by
  rw [bind_apply]
  rcases a w with ⟨e' | x, w₁⟩
  · simp
  · refine ⟨fun h => .inr ⟨x, w₁, rfl, h⟩, ?_⟩
    rintro (h | ⟨_, _, ⟨⟩, h⟩)
    · cases h
    · exact h

theorem map_eq_ok_iff {g : α → β} {a : Action α} {w w' : World} {y : β} :
    (g <$> a) w = (.ok y, w') ↔ ∃ x, a w = (.ok x, w') ∧ g x = y := by
  rw [map_apply]
  rcases a w with ⟨e | x, w₁⟩ <;> simp [and_comm]

theorem map_eq_error_iff {g : α → β} {a : Action α} {w w' : World} {e : Failure} :
    (g <$> a) w = (.error e, w') ↔ a w = (.error e, w') := by
  rw [map_apply]
  rcases a w with ⟨e' | x, w₁⟩ <;> simp

/-- A row of actions fails at the first of them that does, and those after it are not run. -/
theorem mapM_eq_error_iff {g : α → Action β} {l : List α} {w w' : World} {e : Failure} :
    l.mapM g w = (.error e, w') ↔ ∃ before x after ys w₁, l = before ++ x :: after ∧
      before.mapM g w = (.ok ys, w₁) ∧ g x w₁ = (.error e, w') := by
  induction l generalizing w with
  | nil => simp [pure_apply]
  | cons y l ih =>
    rcases hy : g y w with ⟨e' | z, w₁⟩
    · rw [List.mapM_cons, bind_apply, hy]
      constructor
      · rintro ⟨⟩
        exact ⟨[], y, l, [], w, rfl, rfl, hy⟩
      · rintro ⟨before, x, after, ys, w₂, heq, hbefore, hx⟩
        rcases List.cons_eq_append_iff.mp heq with ⟨rfl, heq⟩ | ⟨before, rfl, -⟩
        · cases hbefore
          cases heq
          rw [← hy, hx]
        · rw [List.mapM_cons, bind_apply, hy] at hbefore
          cases hbefore
    · have hrow (ms : List α) : (y :: ms).mapM g w = ((z :: ·) <$> ms.mapM g) w₁ := by
        rw [List.mapM_cons, bind_apply, hy, map_eq_pure_bind]
      rw [hrow, map_eq_error_iff, ih]
      constructor
      · rintro ⟨before, x, after, ys, w₂, rfl, hbefore, hx⟩
        refine ⟨y :: before, x, after, z :: ys, w₂, rfl, ?_, hx⟩
        rw [hrow]
        exact map_eq_ok_iff.mpr ⟨ys, hbefore, rfl⟩
      · rintro ⟨before, x, after, ys, w₂, heq, hbefore, hx⟩
        rcases List.cons_eq_append_iff.mp heq with ⟨rfl, heq⟩ | ⟨before, rfl, rfl⟩
        · cases hbefore
          cases heq
          rw [hy] at hx
          cases hx
        · rw [hrow] at hbefore
          obtain ⟨zs, hzs, -⟩ := map_eq_ok_iff.mp hbefore
          exact ⟨before, x, after, zs, w₂, rfl, hzs, hx⟩

/-- In whatever world an action runs, its result satisfies `P` and its failure `Q`. -/
structure Yields (a : Action α) (P : α → Prop) (Q : Failure → Prop) : Prop where
  result {w w' : World} {x : α} : a w = (.ok x, w') → P x
  failure {w w' : World} {e : Failure} : a w = (.error e, w') → Q e

namespace Yields

variable {P P' : α → Prop} {R : β → Prop} {Q Q' : Failure → Prop}

theorem mono {a : Action α} (h : a.Yields P Q) (hp : ∀ x, P x → P' x)
    (hq : ∀ e, Q e → Q' e) : a.Yields P' Q' :=
  ⟨fun hr => hp _ (h.result hr), fun hr => hq _ (h.failure hr)⟩

theorem pure {x : α} (h : P x) : (pure x : Action α).Yields P Q where
  result hr := by
    cases hr
    exact h
  failure hr := by cases hr

theorem fail {e : Failure} (h : Q e) : (fail e : Action α).Yields P Q where
  result hr := by cases hr
  failure hr := by
    cases hr
    exact h

theorem ofExcept {r : Except Failure α} (hok : ∀ x, r = .ok x → P x)
    (herror : ∀ e, r = .error e → Q e) : (ofExcept r).Yields P Q where
  result hr := hok _ (congrArg Prod.fst hr)
  failure hr := herror _ (congrArg Prod.fst hr)

theorem bind {a : Action α} {f : α → Action β} (ha : a.Yields P Q)
    (hf : ∀ x, P x → (f x).Yields R Q) : (a >>= f).Yields R Q where
  result hr := by
    obtain ⟨x, w₁, h₁, h₂⟩ := bind_eq_ok_iff.mp hr
    exact (hf x (ha.result h₁)).result h₂
  failure hr := by
    rcases bind_eq_error_iff.mp hr with h | ⟨x, w₁, h₁, h₂⟩
    · exact ha.failure h
    · exact (hf x (ha.result h₁)).failure h₂

/-- What follows a look at the world has to do for every world. -/
theorem world_bind {f : World → Action α} (h : ∀ w, (f w).Yields P Q) :
    (Action.world >>= f).Yields P Q where
  result hr := (h _).result hr
  failure hr := (h _).failure hr

theorem ok_bind {x : α} {f : α → Action β} (h : (f x).Yields R Q) :
    (Action.ofExcept (.ok x) >>= f).Yields R Q := h

theorem map {a : Action α} {g : α → β} (ha : a.Yields (fun x => R (g x)) Q) :
    (g <$> a).Yields R Q where
  result hr := by
    obtain ⟨x, h, rfl⟩ := map_eq_ok_iff.mp hr
    exact ha.result h
  failure hr := ha.failure (map_eq_error_iff.mp hr)

/-- Running an action to its result or failure does not fail. -/
theorem attempt {a : Action α} (ha : a.Yields P Q) :
    a.attempt.Yields
      (fun r => match r with
        | .ok x => P x
        | .error e => Q e) Q' where
  result := by
    intro w w' r hr
    rw [Action.attempt] at hr
    rcases hw : a w with ⟨e | x, w₁⟩
    · rw [hw] at hr
      cases hr
      exact ha.failure hw
    · rw [hw] at hr
      cases hr
      exact ha.result hw
  failure hr := by
    rw [Action.attempt] at hr
    cases hr

/-- A row of actions, one for each member of a list. -/
theorem mapM {γ : Type} {f : γ → Action α} {l : List γ} {P : γ → α → Prop}
    (h : ∀ c ∈ l, (f c).Yields (P c) Q) :
    (l.mapM f).Yields (fun xs => List.Forall₂ P l xs) Q := by
  induction l with
  | nil =>
    rw [List.mapM_nil]
    exact .pure .nil
  | cons c l ih =>
    rw [List.forall_mem_cons] at h
    rw [List.mapM_cons]
    exact h.1.bind fun x hx => (ih h.2).bind fun xs hxs => .pure (.cons hx hxs)

theorem mapM_all {γ : Type} {f : γ → Action α} {l : List γ}
    (h : ∀ c ∈ l, (f c).Yields P Q) : (l.mapM f).Yields (fun xs => ∀ x ∈ xs, P x) Q := by
  refine (mapM h).mono (fun xs hxs => ?_) fun _ hq => hq
  induction hxs with
  | nil => simp
  | cons hx _ ih => exact List.forall_mem_cons.mpr ⟨hx, ih fun c hc => h c (.tail _ hc)⟩

end Yields

end Scenario.Action
