import Mathlib.Tactic.SplitIfs
import Scenario.Proofs.Command.Binding

/-!
# Which vocabularies are built

A vocabulary is built if every command is well formed (`Command.WellFormed`), which is said of the
command as a whole. The check goes through the parameters once and remembers the names and the
defaults it has seen; `faultAfter?_cons` says that at each parameter this comes to looking at the
parameters before and after it (`Param.faultAt?`). So a row of parameters is found without fault if
no place in it has one (`faultAfter?_eq_none_iff`), and otherwise the first place that has one is
reported (`faultAfter?_eq_some_iff`).

`build_wellFormed` puts this together: the vocabularies that are built, and the fault that is
reported for the others.
-/

namespace Scenario

/-- The rules for a parameter between those before and after it, in the order in which they are
reported: whether it breaks the rule, and the fault that this is. -/
def Param.rules (before : List Param) (p : Param) (after : List Param) :
    List (Bool × CommandFault) :=
  [ (before.any (·.name == p.name), .repeatedParam p.name),
    (p.rest && !after.isEmpty, .restNotLast p.name),
    (p.rest && p.default?.isSome, .restWithDefault p.name),
    (before.any (·.default?.isSome) && p.required, .requiredAfterDefault p.name) ]

/-- The fault of a parameter between those before and after it: the first rule that it breaks. -/
def Param.faultAt? (before : List Param) (p : Param) (after : List Param) : Option CommandFault :=
  ((p.rules before after).find? (·.1)).map (·.2)

namespace Command

/-- The conditions on a command: it has a name, its parameters are told apart by theirs, only the
last of them may take the rest and has no default then, and of the others those with a default come
last. -/
structure WellFormed (c : Command) : Prop where
  named : Text.isBlankText c.name = false
  distinct : (c.params.map Param.name).Nodup
  restLast : ∀ p ∈ c.params.dropLast, p.rest = false
  restPlain : ∀ p ∈ c.params, p.rest = true → p.default? = none
  defaultsLast : (c.params.filter (!·.rest)).Pairwise fun p q =>
    p.default?.isSome = true → q.default?.isSome = true

/-- The fault that a command is reported with: its blank name, or else that of the first parameter
which has one. -/
inductive FirstFault (c : Command) : CommandFault → Prop where
  | blankName (h : Text.isBlankText c.name = true) : FirstFault c .blankName
  | param {before after : List Param} {p : Param} {f : CommandFault}
      (hname : Text.isBlankText c.name = false) (hparams : c.params = before ++ p :: after)
      (hbefore : ∀ b q a, before = b ++ q :: a → q.faultAt? b (a ++ p :: after) = none)
      (hp : p.faultAt? before after = some f) : FirstFault c f

/-! ## One parameter -/

variable {ps before after : List Param} {p : Param} {f : CommandFault}

theorem faultAt?_eq_none_iff : p.faultAt? before after = none ↔
    (∀ q ∈ before, q.name ≠ p.name) ∧ (p.rest = true → after = []) ∧
      (p.rest = true → p.default? = none) ∧
      ∀ q ∈ before, q.default?.isSome = true → p.rest = false → p.default?.isSome = true := by
  simp [Param.faultAt?, Param.rules, Param.required]

theorem firstBroken_cons (broken : Bool) (f : CommandFault) (rules : List (Bool × CommandFault)) :
    (((broken, f) :: rules).find? (·.1)).map (·.2) =
      if broken then some f else (rules.find? (·.1)).map (·.2) := by
  cases broken <;> rfl

/-- The first fault of a row of parameters that follows others: the check remembers their names and
whether one of them has a default. -/
def faultAfter? (before ps : List Param) : Option CommandFault :=
  paramFault? (before.map Param.name).reverse (before.any (·.default?.isSome)) ps

/-- What the check remembers of the parameters before is what matters of them. -/
theorem faultAfter?_cons (before : List Param) (p : Param) (ps : List Param) :
    faultAfter? before (p :: ps) = (p.faultAt? before ps).or (faultAfter? (before ++ [p]) ps) := by
  have hseen : (before.map Param.name).reverse.contains p.name =
      before.any (·.name == p.name) := by
    rw [Bool.eq_iff_iff]
    simp
  have hnext : faultAfter? (before ++ [p]) ps = paramFault?
      (p.name :: (before.map Param.name).reverse)
      (before.any (·.default?.isSome) || p.default?.isSome) ps := by
    simp [faultAfter?]
  rw [faultAfter?, paramFault?, hnext, hseen]
  simp only [Param.faultAt?, Param.rules, firstBroken_cons]
  split_ifs <;> rfl

/-! ## A row of parameters -/

theorem faultAfter?_eq_none_iff : faultAfter? before ps = none ↔
    ∀ b p a, ps = b ++ p :: a → p.faultAt? (before ++ b) a = none := by
  induction ps generalizing before with
  | nil => simp [faultAfter?, paramFault?]
  | cons p ps ih =>
    rw [faultAfter?_cons, Option.or_eq_none_iff, ih]
    constructor
    · rintro ⟨hp, hps⟩ b q a heq
      rcases List.cons_eq_append_iff.mp heq with ⟨rfl, heq⟩ | ⟨b, rfl, rfl⟩
      · cases heq
        rwa [List.append_nil]
      · rw [List.append_cons]
        exact hps b q a rfl
    · intro h
      refine ⟨?_, fun b q a heq => ?_⟩
      · simpa using h [] p ps rfl
      · rw [← List.append_cons]
        exact h (p :: b) q a (by rw [heq]; rfl)

theorem faultAfter?_eq_some_iff : faultAfter? before ps = some f ↔
    ∃ b p a, ps = b ++ p :: a ∧
      (∀ b' q a', b = b' ++ q :: a' → q.faultAt? (before ++ b') (a' ++ p :: a) = none) ∧
      p.faultAt? (before ++ b) a = some f := by
  induction ps generalizing before with
  | nil => simp [faultAfter?, paramFault?]
  | cons p ps ih =>
    rw [faultAfter?_cons, Option.or_eq_some_iff, ih]
    constructor
    · rintro (hp | ⟨hp, b, q, a, rfl, hb, hq⟩)
      · exact ⟨[], p, ps, rfl, by simp, by rwa [List.append_nil]⟩
      · refine ⟨p :: b, q, a, rfl, fun b' r a' heq => ?_, by rwa [List.append_cons]⟩
        rcases List.cons_eq_append_iff.mp heq with ⟨rfl, heq⟩ | ⟨b', rfl, rfl⟩
        · cases heq
          rwa [List.append_nil]
        · rw [List.append_cons]
          exact hb b' r a' rfl
    · rintro ⟨b, q, a, heq, hb, hq⟩
      rcases List.cons_eq_append_iff.mp heq with ⟨rfl, heq⟩ | ⟨b, rfl, rfl⟩
      · cases heq
        rw [List.append_nil] at hq
        exact .inl hq
      · refine .inr ⟨?_, b, q, a, rfl, fun b' r a' heq => ?_, by rwa [← List.append_cons]⟩
        · simpa using hb [] p b rfl
        · rw [← List.append_cons]
          exact hb (p :: b') r a' (by rw [heq]; rfl)

/-! ## The command as a whole -/

theorem pairwise_iff_split {R : Param → Param → Prop} :
    ps.Pairwise R ↔ ∀ b p a, ps = b ++ p :: a → ∀ q ∈ b, R q p := by
  constructor
  · rintro h b p a rfl q hq
    exact (List.pairwise_append.mp h).2.2 q hq p List.mem_cons_self
  · intro h
    induction ps with
    | nil => exact .nil
    | cons p ps ih =>
      refine List.pairwise_cons.mpr ⟨fun q hq => ?_, ih fun b q a heq r hr => ?_⟩
      · obtain ⟨b, a, rfl⟩ := List.append_of_mem hq
        exact h (p :: b) q a rfl p List.mem_cons_self
      · exact h (p :: b) q a (by rw [heq]; rfl) r (.tail _ hr)

theorem mem_dropLast_iff : p ∈ ps.dropLast ↔ ∃ b a, ps = b ++ p :: a ∧ a ≠ [] := by
  constructor
  · intro h
    rcases ps.eq_nil_or_concat with rfl | ⟨qs, q, rfl⟩
    · cases h
    · rw [List.concat_eq_append, List.dropLast_concat] at h
      obtain ⟨b, a, rfl⟩ := List.append_of_mem h
      exact ⟨b, a ++ [q], by simp, by simp⟩
  · rintro ⟨b, a, rfl, ha⟩
    rw [List.dropLast_append_of_ne_nil (List.cons_ne_nil p a), List.dropLast_cons_of_ne_nil ha]
    exact List.mem_append_right _ List.mem_cons_self

/-- No place in a row of parameters has a fault exactly if the row as a whole has none. -/
theorem faultAt?_eq_none_everywhere_iff :
    (∀ b p a, ps = b ++ p :: a → p.faultAt? b a = none) ↔
      (ps.map Param.name).Nodup ∧ (∀ p ∈ ps.dropLast, p.rest = false) ∧
        (∀ p ∈ ps, p.rest = true → p.default? = none) ∧
        (ps.filter (!·.rest)).Pairwise fun p q =>
          p.default?.isSome = true → q.default?.isSome = true := by
  rw [List.Nodup, List.pairwise_map, pairwise_iff_split, List.pairwise_filter, pairwise_iff_split]
  simp only [faultAt?_eq_none_iff, Bool.not_eq_true', mem_dropLast_iff]
  constructor
  · intro h
    refine ⟨fun b p a heq => (h b p a heq).1, ?_, fun p hp => ?_, ?_⟩
    · rintro p ⟨b, a, heq, ha⟩
      by_contra hrest
      exact ha ((h b p a heq).2.1 (by simpa using hrest))
    · obtain ⟨b, a, heq⟩ := List.append_of_mem hp
      exact (h b p a heq).2.2.1
    · intro b p a heq q hq _ hp hdefault
      exact (h b p a heq).2.2.2 q hq hdefault hp
  · rintro ⟨hdistinct, hlast, hplain, hdefaults⟩ b p a heq
    refine ⟨hdistinct b p a heq, fun hrest => ?_, hplain p (by simp [heq]),
      fun q hq hdefault hrest => ?_⟩
    · by_contra ha
      rw [hlast p ⟨b, a, heq, ha⟩] at hrest
      cases hrest
    · -- one that takes the rest has no default, so this one does not take it
      have hq' : q.rest = false := by
        by_contra hq'
        rw [hplain q (by simp [heq, hq]) (by simpa using hq')] at hdefault
        cases hdefault
      exact hdefaults b p a heq q hq hq' hrest hdefault

theorem fault?_eq_none_iff {c : Command} : c.fault? = none ↔ c.WellFormed := by
  have hparams : paramFault? [] false c.params = faultAfter? [] c.params := rfl
  rw [fault?, hparams]
  split
  · rename_i hblank
    simp only [reduceCtorEq, false_iff]
    intro h
    rw [h.named] at hblank
    cases hblank
  · rename_i hblank
    simp only [faultAfter?_eq_none_iff, List.nil_append, faultAt?_eq_none_everywhere_iff]
    constructor
    · rintro ⟨hdistinct, hlast, hplain, hdefaults⟩
      exact ⟨by simpa using hblank, hdistinct, hlast, hplain, hdefaults⟩
    · intro h
      exact ⟨h.distinct, h.restLast, h.restPlain, h.defaultsLast⟩

theorem fault?_eq_some_iff {c : Command} : c.fault? = some f ↔ c.FirstFault f := by
  have hparams : paramFault? [] false c.params = faultAfter? [] c.params := rfl
  rw [fault?, hparams]
  constructor
  · intro h
    split at h
    · cases h
      exact .blankName ‹_›
    · rename_i hblank
      obtain ⟨b, p, a, heq, hb, hp⟩ := faultAfter?_eq_some_iff.mp h
      exact .param (by simpa using hblank) heq hb hp
  · intro h
    cases h with
    | blankName hblank => rw [if_pos hblank]
    | param hname heq hb hp =>
      rw [hname]
      exact faultAfter?_eq_some_iff.mpr ⟨_, _, _, heq, hb, hp⟩

end Command

namespace Vocabulary

variable {name : String} {cs : List Command} {f : VocabularyFault}

theorem fault?_eq_findSome? (name : String) (cs : List Command) :
    fault? name cs = cs.findSome? fun c => c.fault?.map (⟨name, c.name, ·⟩) := by
  induction cs with
  | nil => rfl
  | cons c cs ih =>
    rw [fault?, List.findSome?_cons, ih]
    cases c.fault? <;> rfl

theorem fault?_eq_none_iff : fault? name cs = none ↔ ∀ c ∈ cs, c.WellFormed := by
  rw [fault?_eq_findSome?, List.findSome?_eq_none_iff]
  simp only [Option.map_eq_none_iff, Command.fault?_eq_none_iff]

theorem fault?_eq_some_iff : fault? name cs = some f ↔
    ∃ before c after fault, cs = before ++ c :: after ∧ (∀ d ∈ before, d.WellFormed) ∧
      c.FirstFault fault ∧ f = ⟨name, c.name, fault⟩ := by
  rw [fault?_eq_findSome?, List.findSome?_eq_some_iff]
  simp only [Option.map_eq_some_iff, Option.map_eq_none_iff, Command.fault?_eq_none_iff,
    Command.fault?_eq_some_iff]
  constructor
  · rintro ⟨before, c, after, rfl, ⟨fault, hc, rfl⟩, hbefore⟩
    exact ⟨before, c, after, fault, rfl, hbefore, hc, rfl⟩
  · rintro ⟨before, c, after, fault, rfl, hbefore, hc, rfl⟩
    exact ⟨before, c, after, rfl, ⟨fault, hc, rfl⟩, hbefore⟩

theorem build_eq_error_iff : build name cs = .error f ↔ fault? name cs = some f := by
  unfold build
  split
  · rename_i h
    simp [h]
  · rename_i h
    simp [h]

/-- A vocabulary is built exactly if all of its commands are well formed, and it has these commands
then. Otherwise the first command that is not well formed is reported: with its blank name, or else
with the first of its parameters that breaks a rule and the first rule that this breaks. -/
theorem build_wellFormed (name : String) (commands : List Command) :
    ((∃ v, build name commands = .ok v ∧ v.name = name ∧ v.commands = commands) ↔
      ∀ c ∈ commands, c.WellFormed) ∧
    ∀ f, build name commands = .error f ↔
      ∃ before c after fault, commands = before ++ c :: after ∧ (∀ d ∈ before, d.WellFormed) ∧
        c.FirstFault fault ∧ f = ⟨name, c.name, fault⟩ := by
  refine ⟨?_, fun f => build_eq_error_iff.trans fault?_eq_some_iff⟩
  constructor
  · rintro ⟨v, hv, -⟩ c hc
    exact Command.fault?_eq_none_iff.mp (faultless_of_build hv c hc)
  · intro h
    exact ⟨_, build_of_fault? (fault?_eq_none_iff.mpr h), rfl, rfl⟩

/-- A parameter that takes the rest, has a default and is not the last breaks two rules; one that
repeats a name breaks the rule before them. -/
example :
    let taking (name : String) : Param :=
      { name, reading := fun e => pure (.event e), rest := true, default? := some .nothing }
    let c : Command := {
      name := "Pick"
      params := [taking "x", taking "x", taking "y"]
      body := fun _ => pure .nothing }
    fault? "Test" [c] = some ⟨"Test", "Pick", .restNotLast "x"⟩ ∧
      (taking "x").faultAt? [taking "x"] [taking "y"] = some (.repeatedParam "x") := by
  decide

end Vocabulary

end Scenario
