import Mathlib.Data.List.Forall2
import Scenario.Action

/-!
# Two runs that end alike

`Action.Coupled` compares two actions that run in related worlds: both have results, which are
related, or both fail, with related failures, and the worlds they leave are related again. What
counts as related worlds and failures is a `Comparison`. Each way to build an action has its
rule, as for what one action yields, so composed actions are coupled if their parts are.

The worlds of a comparison decide what a coupling says. With equality it is that the two actions
are the same (`Coupled.eq`), with one world on both sides that they leave it unchanged
(`Coupled.world_eq`), and with worlds that differ in some respect that this makes no difference.
With one world and equal failures, `Action.Matches` says that two actions do the same in that world
and what is known of their result.
-/

namespace Scenario

/-- What is related in two runs: their worlds, and the failures they end with. Rejections are
related if their causes are. -/
structure Comparison where
  worlds : World → World → Prop
  failures : Failure → Failure → Prop
  failures_refl : ∀ f, failures f f
  failures_rejected : ∀ voc name e signatures f f', failures f f' →
    failures (.rejected voc name e signatures f) (.rejected voc name e signatures f')

namespace Comparison

variable {α β : Type}

/-- Failures are related if they are the same. -/
def ofWorlds (worlds : World → World → Prop) : Comparison where
  worlds
  failures := Eq
  failures_refl _ := rfl
  failures_rejected _ _ _ _ _ _ h := by rw [h]

/-- Only the world `w` is related, to itself; all failures are. -/
def inWorld (w : World) : Comparison where
  worlds w₁ w₂ := w₁ = w ∧ w₂ = w
  failures _ _ := True
  failures_refl _ := trivial
  failures_rejected _ _ _ _ _ _ _ := trivial

/-- Only the world `w` is related, to itself, and only equal failures are. -/
def exactlyIn (w : World) : Comparison :=
  ofWorlds fun w₁ w₂ => w₁ = w ∧ w₂ = w

/-- Two ways to end: with results that `P` relates, or with related failures. -/
inductive Ends (K : Comparison) (P : α → β → Prop) :
    Except Failure α → Except Failure β → Prop where
  | ok {x : α} {y : β} (h : P x y) : K.Ends P (.ok x) (.ok y)
  | error {f g : Failure} (h : K.failures f g) : K.Ends P (.error f) (.error g)

theorem Ends.mono {K : Comparison} {P P' : α → β → Prop} {r : Except Failure α}
    {r' : Except Failure β} (h : K.Ends P r r') (hp : ∀ x y, P x y → P' x y) : K.Ends P' r r' := by
  cases h with
  | ok hxy => exact .ok (hp _ _ hxy)
  | error hfg => exact .error hfg

theorem Ends.refl (K : Comparison) (r : Except Failure α) : K.Ends Eq r r := by
  cases r with
  | ok x => exact .ok rfl
  | error f => exact .error (K.failures_refl f)

theorem Ends.of_ok (K : Comparison) {P : α → Prop} {r : Except Failure α}
    (h : ∀ x, r = .ok x → P x) : K.Ends (fun x y => x = y ∧ P x) r r := by
  cases r with
  | ok x => exact .ok ⟨rfl, h x rfl⟩
  | error f => exact .error (K.failures_refl f)

theorem Ends.eq {worlds : World → World → Prop} {r r' : Except Failure α}
    (h : (ofWorlds worlds).Ends Eq r r') : r = r' := by
  cases h with
  | ok h => rw [h]
  | error h => rw [show _ = _ from h]

end Comparison

namespace Action

variable {α α' β β' : Type} {K : Comparison}

/-- Two actions that, run in related worlds, end alike and leave related worlds. -/
structure Coupled (K : Comparison) (P : α → β → Prop) (a : Action α) (b : Action β) : Prop where
  ends : ∀ {w w' : World}, K.worlds w w' → K.Ends P (a w).1 (b w').1
  worlds : ∀ {w w' : World}, K.worlds w w' → K.worlds (a w).2 (b w').2

namespace Coupled

variable {P : α → β → Prop} {R : α' → β' → Prop}

theorem eq {a b : Action α} (h : Coupled (.ofWorlds Eq) Eq a b) : a = b :=
  funext fun _ => Prod.ext (h.ends rfl).eq (h.worlds rfl)

theorem refl (a : Action α) : Coupled (.ofWorlds Eq) Eq a a where
  ends := by
    rintro w _ rfl
    exact .refl _ _
  worlds := by
    rintro w _ rfl
    rfl

theorem world_eq {a : Action α} {b : Action β} {w : World} (h : Coupled (.inWorld w) P a b) :
    (a w).2 = w :=
  (h.worlds ⟨rfl, rfl⟩).1

/-- An action that keeps a world is coupled with itself there. -/
theorem of_world_eq {a : Action α} {w : World} (h : (a w).2 = w) :
    Coupled (.inWorld w) Eq a a where
  ends := by
    rintro _ _ ⟨rfl, rfl⟩
    exact .refl _ _
  worlds := by
    rintro _ _ ⟨rfl, rfl⟩
    exact ⟨h, h⟩

/-- In one world, only what the actions do there counts. -/
theorem of_apply {a a' : Action α} {b b' : Action β} {w : World} (ha : a w = a' w)
    (hb : b w = b' w) (h : Coupled (.inWorld w) P a' b') : Coupled (.inWorld w) P a b where
  ends := by
    rintro _ _ ⟨rfl, rfl⟩
    rw [ha, hb]
    exact h.ends ⟨rfl, rfl⟩
  worlds := by
    rintro _ _ ⟨rfl, rfl⟩
    rw [ha, hb]
    exact h.worlds ⟨rfl, rfl⟩

theorem mono {a : Action α} {b : Action β} {P' : α → β → Prop} (h : Coupled K P a b)
    (hp : ∀ x y, P x y → P' x y) : Coupled K P' a b where
  ends hw := (h.ends hw).mono hp
  worlds hw := h.worlds hw

theorem pure {x : α} {y : β} (h : P x y) : Coupled K P (pure x : Action α) (pure y) where
  ends _ := .ok h
  worlds hw := hw

theorem fail {f g : Failure} (h : K.failures f g) : Coupled K P (fail f) (fail g) where
  ends _ := .error h
  worlds hw := hw

theorem ofExcept {r : Except Failure α} {r' : Except Failure β} (h : K.Ends P r r') :
    Coupled K P (ofExcept r) (ofExcept r') where
  ends _ := h
  worlds hw := hw

theorem ofExcept_refl (r : Except Failure α) :
    Coupled K Eq (Action.ofExcept r) (Action.ofExcept r) :=
  .ofExcept (.refl K r)

theorem bind {a : Action α} {b : Action β} {f : α → Action α'} {g : β → Action β'}
    (h : Coupled K P a b) (hf : ∀ x y, P x y → Coupled K R (f x) (g y)) :
    Coupled K R (a >>= f) (b >>= g) := by
  have key {w w' : World} (hw : K.worlds w w') :
      K.Ends R ((a >>= f) w).1 ((b >>= g) w').1 ∧ K.worlds ((a >>= f) w).2 ((b >>= g) w').2 := by
    have hends := h.ends hw
    have hworlds := h.worlds hw
    rw [bind_apply, bind_apply]
    revert hends hworlds
    rcases a w with ⟨r, w₁⟩
    rcases b w' with ⟨r', w₂⟩
    intro hends hworlds
    cases hends with
    | ok hxy => exact ⟨(hf _ _ hxy).ends hworlds, (hf _ _ hxy).worlds hworlds⟩
    | error hfg => exact ⟨.error hfg, hworlds⟩
  exact ⟨fun hw => (key hw).1, fun hw => (key hw).2⟩

theorem map {a : Action α} {b : Action β} {f : α → α'} {g : β → β'}
    (h : Coupled K (fun x y => R (f x) (g y)) a b) : Coupled K R (f <$> a) (g <$> b) := by
  rw [map_eq_pure_bind, map_eq_pure_bind]
  exact h.bind fun _ _ hxy => .pure hxy

theorem world_bind {f : World → Action α} {g : World → Action β}
    (h : ∀ w w', K.worlds w w' → Coupled K P (f w) (g w')) :
    Coupled K P (Action.world >>= f) (Action.world >>= g) where
  ends hw := (h _ _ hw).ends hw
  worlds hw := (h _ _ hw).worlds hw

theorem ok_bind {x : α} {y : β} {f : α → Action α'} {g : β → Action β'}
    (h : Coupled K R (f x) (g y)) :
    Coupled K R (Action.ofExcept (.ok x) >>= f) (Action.ofExcept (.ok y) >>= g) := h

theorem attempt {a : Action α} {b : Action β} (h : Coupled K P a b) :
    Coupled K (K.Ends P) a.attempt b.attempt where
  ends hw := .ok (h.ends hw)
  worlds hw := h.worlds hw

theorem mapM {γ δ : Type} {E : γ → δ → Prop} {f : γ → Action α} {g : δ → Action β} {l : List γ}
    {l' : List δ} (hl : List.Forall₂ E l l') (h : ∀ x y, E x y → Coupled K P (f x) (g y)) :
    Coupled K (List.Forall₂ P) (l.mapM f) (l'.mapM g) := by
  induction hl with
  | nil =>
    rw [List.mapM_nil, List.mapM_nil]
    exact .pure .nil
  | cons hxy _ ih =>
    rw [List.mapM_cons, List.mapM_cons]
    exact (h _ _ hxy).bind fun _ _ hv => ih.bind fun _ _ hvs => .pure (.cons hv hvs)

end Coupled

/-- Two actions that do the same in the world `w`, which they leave as it is; if they have a result,
it satisfies `P`. -/
abbrev Matches (w : World) (P : α → Prop) (a b : Action α) : Prop :=
  a.Coupled (.exactlyIn w) (fun x y => x = y ∧ P x) b

namespace Matches

variable {w : World} {P : α → Prop} {a b : Action α}

theorem apply_eq (h : a.Matches w P b) : a w = b w := by
  have hends : (a w).1 = (b w).1 := ((h.ends ⟨rfl, rfl⟩).mono fun _ _ hxy => hxy.1).eq
  obtain ⟨ha, hb⟩ : (a w).2 = w ∧ (b w).2 = w := h.worlds ⟨rfl, rfl⟩
  exact Prod.ext hends (ha.trans hb.symm)

theorem result (h : a.Matches w P b) {x : α} (hx : (b w).1 = .ok x) : P x := by
  have hends := h.ends ⟨rfl, rfl⟩
  rw [h.apply_eq, hx] at hends
  cases hends with
  | ok hxy => exact hxy.2

theorem world_bind {f g : World → Action α} (h : (f w).Matches w P (g w)) :
    (Action.world >>= f).Matches w P (Action.world >>= g) := by
  refine Coupled.world_bind ?_
  rintro _ _ ⟨rfl, rfl⟩
  exact h

/-- What follows on one side only makes no difference if it returns what it is given. -/
theorem bind_left {f : α → Action α} (h : a.Matches w P b) (hf : ∀ x, P x → f x = pure x) :
    (a >>= f).Matches w P b := by
  rw [← bind_pure b]
  refine Coupled.bind h ?_
  rintro x _ ⟨rfl, hx⟩
  rw [hf x hx]
  exact .pure ⟨rfl, hx⟩

end Matches

end Action

end Scenario
