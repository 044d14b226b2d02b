import Scenario.Proofs.Evaluate.Coupling
import Scenario.Proofs.Vocabulary.Overloads

/-!
# Effects follow the order of the text

In a vocabulary that evaluates its operands by itself, and in which every command adds its name to
a log, the log tells in which order commands ran. `Action.Logs` says by how much a log grows in the
run of an action, and each way to build an action has its rule (`Logs.bind`, `Logs.mapM`). So the
operands of a command log what they have to, one after the other (`Command.bind_logs`), and then
the command logs itself (`evaluate_logs_of_operands`). By induction on the depth of the expression,
the log grows by the commands of the expression in post-order, or up to where a failure stopped the
run (`evaluate_logs`).

That such a vocabulary exists is not plain, as it has to be given its own evaluation to read
operands with. `letters` is one: the recursion that ties it (`spell`) goes to operands only.
-/

namespace Scenario

variable {α β γ : Type} {log : World → List String}

/-! ## Actions that add to a log -/

/-- In whatever world an action runs, it succeeds exactly if `ok`. The log then grows by `done`, and
otherwise by a part of `upTo` from its beginning. -/
structure Action.Logs (log : World → List String) (ok : Prop) (done upTo : List String)
    (a : Action α) : Prop where
  result {w w' : World} {x : α} : a w = (.ok x, w') → ok ∧ log w' = log w ++ done
  failure {w w' : World} {f : Failure} : a w = (.error f, w') →
    ¬ok ∧ ∃ before, before <+: upTo ∧ log w' = log w ++ before

namespace Action.Logs

variable {a : Action α} {p q : Prop} {ns ns' ms ms' : List String}

theorem mono (h : a.Logs log p ns ns') (hpq : p ↔ q) (hns : ns' <+: ms') : a.Logs log q ns ms' where
  result hr := (h.result hr).imp_left hpq.mp
  failure hr := by
    obtain ⟨hp, before, hbefore, hlog⟩ := h.failure hr
    exact ⟨fun hq => hp (hpq.mpr hq), before, hbefore.trans hns, hlog⟩

theorem pure (x : α) : (pure x : Action α).Logs log True [] [] where
  result hr := by
    cases hr
    exact ⟨trivial, (List.append_nil _).symm⟩
  failure hr := by cases hr

theorem fail (f : Failure) (hp : ¬p) : (fail f : Action α).Logs log p ns ns' where
  result hr := by cases hr
  failure hr := by
    cases hr
    exact ⟨hp, [], List.nil_prefix, (List.append_nil _).symm⟩

/-- What follows adds to what there is, and does so only after a success. -/
theorem bind {f : α → Action β} (ha : a.Logs log p ns ns) (hf : ∀ x, (f x).Logs log q ms ms') :
    (a >>= f).Logs log (p ∧ q) (ns ++ ms) (ns ++ ms') where
  result hr := by
    obtain ⟨x, w₁, h₁, h₂⟩ := bind_eq_ok_iff.mp hr
    obtain ⟨hp, hlog₁⟩ := ha.result h₁
    obtain ⟨hq, hlog₂⟩ := (hf x).result h₂
    exact ⟨⟨hp, hq⟩, by rw [hlog₂, hlog₁, List.append_assoc]⟩
  failure hr := by
    rcases bind_eq_error_iff.mp hr with h | ⟨x, w₁, h₁, h₂⟩
    · obtain ⟨hp, before, hbefore, hlog⟩ := ha.failure h
      exact ⟨fun hpq => hp hpq.1, before, hbefore.trans (List.prefix_append _ _), hlog⟩
    · obtain ⟨hq, before, hbefore, hlog⟩ := (hf x).failure h₂
      refine ⟨fun hpq => hq hpq.2, ns ++ before, (List.prefix_append_right_inj ns).mpr hbefore, ?_⟩
      rw [hlog, (ha.result h₁).2, List.append_assoc]

theorem map {g : α → β} (ha : a.Logs log p ns ns') : (g <$> a).Logs log p ns ns' where
  result hr := by
    obtain ⟨x, h, -⟩ := map_eq_ok_iff.mp hr
    exact ha.result h
  failure hr := ha.failure (map_eq_error_iff.mp hr)

theorem cons {b : Action (List α)} (ha : a.Logs log p ns ns) (hb : b.Logs log q ms ms) :
    Logs log (p ∧ q) (ns ++ ms) (ns ++ ms) do
      let x ← a
      let xs ← b
      return x :: xs := by
  refine ha.bind fun x => ?_
  rw [bind_pure_comp]
  exact hb.map

/-- A row of actions adds to the log from left to right. -/
theorem mapM {f : γ → Action α} {l : List γ} {ok : γ → Prop} {names : γ → List String}
    (h : ∀ x ∈ l, (f x).Logs log (ok x) (names x) (names x)) :
    (l.mapM f).Logs log (∀ x ∈ l, ok x) (l.flatMap names) (l.flatMap names) := by
  induction l with
  | nil =>
    rw [List.mapM_nil]
    exact (pure _).mono (by simp) (List.prefix_refl _)
  | cons x l ih =>
    rw [List.forall_mem_cons] at h
    rw [List.mapM_cons, List.forall_mem_cons, List.flatMap_cons]
    exact h.1.cons (ih h.2)

end Action.Logs

/-! ## The commands of an expression -/

theorem Vocabulary.split?_eq_some_iff {e : Expr} {name : String} {operands : List Expr} :
    split? e = some (name, operands) ↔
      e = .atom name ∧ operands = [] ∨ e = .list (.atom name :: operands) := by
  unfold split?
  split
  · simp [eq_comm]
  · simp
  · rename_i hhead
    simpa using hhead name operands

namespace Expr

mutual

/-- The commands of an expression in the order in which they run: the operands of each from left to
right, and then the command itself. A list without a name at its head is no command. -/
def postOrder : Expr → List String
  | .atom name => [name]
  | .list (.atom name :: operands) => postOrders operands ++ [name]
  | .list _ => []

/-- The commands of a row of expressions. -/
def postOrders : List Expr → List String
  | [] => []
  | e :: es => postOrder e ++ postOrders es

end

variable {e x : Expr} {name : String} {operands : List Expr}

theorem postOrders_eq_flatMap (es : List Expr) : postOrders es = es.flatMap postOrder := by
  induction es with
  | nil => rw [postOrders, List.flatMap_nil]
  | cons e es ih => rw [postOrders, List.flatMap_cons, ih]

theorem postOrder_of_split (h : Vocabulary.split? e = some (name, operands)) :
    e.postOrder = operands.flatMap postOrder ++ [name] := by
  rcases Vocabulary.split?_eq_some_iff.mp h with ⟨rfl, rfl⟩ | rfl
  · rw [postOrder, List.flatMap_nil, List.nil_append]
  · rw [postOrder, postOrders_eq_flatMap]

theorem depth_lt_of_split (h : Vocabulary.split? e = some (name, operands)) (hx : x ∈ operands) :
    x.depth < e.depth := by
  rcases Vocabulary.split?_eq_some_iff.mp h with ⟨rfl, rfl⟩ | rfl
  · cases hx
  · exact depth_lt_of_mem (.tail _ hx)

end Expr

/-- A parameter whose operands are evaluated by a vocabulary: one that it cannot go without, or each
of all that remain. -/
structure Param.EvaluatedBy (p : Param) (v : Vocabulary) : Prop where
  reading_eq : p.reading = v.evaluate
  shape : p.rest = false ∧ p.each = false ∧ p.default? = none ∨ p.rest = true ∧ p.each = true

theorem Param.EvaluatedBy.of_not_rest {p : Param} {v : Vocabulary} (h : p.EvaluatedBy v)
    (hp : p.rest = false) : p.each = false ∧ p.default? = none :=
  (h.shape.resolve_right fun hrest => Bool.false_ne_true (hp.symm.trans hrest.1)).2

theorem Param.EvaluatedBy.of_rest {p : Param} {v : Vocabulary} (h : p.EvaluatedBy v)
    (hp : p.rest = true) : p.each = true :=
  (h.shape.resolve_left fun hone => Bool.false_ne_true (hone.1.symm.trans hp)).2

namespace Vocabulary

/-- Whether a command of some name takes so many operands. -/
def fits (v : Vocabulary) (name : String) (given : Nat) : Bool :=
  (v.overloads name).any (·.arity.fits given)

mutual

/-- Whether all commands of an expression are there and take as many operands as they have. -/
def takes (v : Vocabulary) : Expr → Bool
  | .atom name => v.fits name 0
  | .list (.atom name :: operands) => v.fits name operands.length && takesAll v operands
  | .list _ => false

/-- Whether all commands of a row of expressions are there and take as many operands as they
have. -/
def takesAll (v : Vocabulary) : List Expr → Bool
  | [] => true
  | e :: es => takes v e && takesAll v es

end

/-- The name under which a command is declared, whatever the case it is written in. A name without
a command is left as it is. -/
def declared (v : Vocabulary) (name : String) : String :=
  ((v.overloads name).head?.map Command.name).getD name

/-- A vocabulary without overloads whose commands evaluate all their operands by the vocabulary
itself and then add their name to a log. -/
structure KeepsLog (v : Vocabulary) (log : World → List String) : Prop where
  single : ∀ name, (v.overloads name).length ≤ 1
  params : ∀ c ∈ v.commands, ∀ p ∈ c.params, p.EvaluatedBy v
  body : ∀ c ∈ v.commands, ∀ args w, ∃ x w', c.body args w = (.ok x, w') ∧
    log w' = log w ++ [c.name]

variable {v : Vocabulary} {e : Expr} {name : String} {operands : List Expr}

theorem takesAll_iff {es : List Expr} : v.takesAll es = true ↔ ∀ x ∈ es, v.takes x = true := by
  induction es with
  | nil => simp [takesAll]
  | cons e es ih => simp [takesAll, ih]

theorem takes_iff_of_split (h : split? e = some (name, operands)) :
    v.takes e = true ↔ v.fits name operands.length = true ∧ ∀ x ∈ operands, v.takes x = true := by
  rcases split?_eq_some_iff.mp h with ⟨rfl, rfl⟩ | rfl
  · simp [takes]
  · rw [takes, Bool.and_eq_true, takesAll_iff]

theorem takes_of_not_split (h : split? e = none) : v.takes e = false := by
  unfold split? at h
  split at h
  · cases h
  · cases h
  · rename_i hhead
    rw [takes]
    exact hhead

end Vocabulary

/-! ## One command -/

namespace Command

variable {v : Vocabulary} {ok : Expr → Prop} {names : Expr → List String}

/-- Operands log from left to right, whichever parameters they are for. -/
theorem Distributed.readShares_logs {ps : List Param} {es : List Expr} {ss : List Share}
    (h : Distributed ps es ss) (hps : ∀ p ∈ ps, p.EvaluatedBy v)
    (hes : ∀ x ∈ es, (v.evaluate x).Logs log (ok x) (names x) (names x)) :
    (readShares ps ss).Logs log (∀ x ∈ es, ok x) (es.flatMap names) (es.flatMap names) := by
  induction h with
  | nil => exact (Action.Logs.pure _).mono (by simp) (List.prefix_refl _)
  | @rest p hp es =>
    rw [List.forall_mem_singleton] at hps
    have hread : (Share.rest es).read p = .several <$> es.mapM v.evaluate := by
      rw [Share.read, Share.readWhole, if_pos (hps.of_rest hp), hps.reading_eq]
    have hnil : (readShares [] []).Logs log True [] [] := .pure _
    rw [readShares_cons, hread]
    simpa using (Action.Logs.mapM hes).map.cons hnil
  | @operand p ps es ss hp e _ ih =>
    rw [List.forall_mem_cons] at hps hes
    have hread : (Share.operand e).read p = .one <$> v.evaluate e := by
      rw [← readOne_eq_read, readOne, (hps.1.of_not_rest hp).1, hps.1.reading_eq]
      rfl
    rw [readShares_cons, hread, List.forall_mem_cons, List.flatMap_cons]
    exact hes.1.map.cons (ih hps.2 hes.2)
  | absent hp hv _ ih =>
    -- A parameter with a default is none of these.
    rw [List.forall_mem_cons] at hps
    rw [(hps.1.of_not_rest hp).2] at hv
    cases hv

theorem bind_logs {c : Command} (hc : c.fault? = none) (hps : ∀ p ∈ c.params, p.EvaluatedBy v)
    {operands : List Expr}
    (hoperands : ∀ x ∈ operands, (v.evaluate x).Logs log (ok x) (names x) (names x)) :
    (c.bind operands).Logs log
      (c.arity.fits operands.length = true ∧ ∀ x ∈ operands, ok x)
      (operands.flatMap names) (operands.flatMap names) := by
  cases hfit : c.arity.fits operands.length with
  | false =>
    rw [bind_of_not_fits hfit]
    exact .fail _ fun h => Bool.false_ne_true h.1
  | true =>
    obtain ⟨ss, hss⟩ := exists_distributed_of_fits hc hfit
    rw [hss.bind_eq hfit]
    exact (hss.readShares_logs hps hoperands).map.mono (by simp) (List.prefix_refl _)

end Command

namespace Vocabulary

variable {v : Vocabulary} {e : Expr} {name : String} {operands : List Expr}

/-- A command logs what its operands log and then its own name. It fails before that, if at all. -/
theorem evaluate_logs_of_operands (h : v.KeepsLog log) {ok : Expr → Prop}
    {names : Expr → List String} (he : split? e = some (name, operands))
    (hoperands : ∀ x ∈ operands, (v.evaluate x).Logs log (ok x) (names x) (names x)) :
    (v.evaluate e).Logs log (v.fits name operands.length = true ∧ ∀ x ∈ operands, ok x)
      (operands.flatMap names ++ [v.declared name]) (operands.flatMap names) := by
  have hsingle := h.single name
  cases hover : v.overloads name with
  | nil =>
    simp only [evaluate, he, hover]
    exact .fail _ fun hfit => by simp [fits, hover] at hfit
  | cons c others =>
    obtain rfl : others = [] := by simpa [hover] using hsingle
    have hmem : c ∈ v.commands := (List.mem_filter.mp (hover ▸ List.mem_singleton_self c)).1
    have hfits : v.fits name operands.length = c.arity.fits operands.length := by
      simp [fits, hover]
    have hdeclared : v.declared name = c.name := by simp [declared, hover]
    have hbind := Command.bind_logs (v.faultless c hmem) (h.params c hmem) hoperands
    rw [hfits, hdeclared]
    refine ⟨fun {w w' x} hr => ?_, fun {w w' f} hr => ?_⟩
    · rcases hargs : c.bind operands w with ⟨f | args, w₁⟩
      · rw [evaluate_of_bind_error he hover hargs] at hr
        cases hr
      · obtain ⟨y, w₂, hbody, hlog⟩ := h.body c hmem args w₁
        rw [evaluate_of_bind_ok he hover hargs, hbody] at hr
        cases hr
        obtain ⟨hok, hlog₁⟩ := hbind.result hargs
        exact ⟨hok, by rw [hlog, hlog₁, List.append_assoc]⟩
    · rcases hargs : c.bind operands w with ⟨f' | args, w₁⟩
      · rw [evaluate_of_bind_error he hover hargs] at hr
        cases hr
        exact hbind.failure hargs
      · obtain ⟨y, w₂, hbody, -⟩ := h.body c hmem args w₁
        rw [evaluate_of_bind_ok he hover hargs, hbody] at hr
        cases hr

/-! ## A whole expression -/

theorem evaluate_logs (h : v.KeepsLog log) (e : Expr) :
    (v.evaluate e).Logs log (v.takes e = true) (e.postOrder.map v.declared)
      (e.postOrder.map v.declared).dropLast := by
  cases he : split? e with
  | none =>
    simp only [evaluate, he]
    exact .fail _ (by simp [takes_of_not_split he])
  | some head =>
    obtain ⟨name, operands⟩ := head
    have hoperands : ∀ x ∈ operands, (v.evaluate x).Logs log (v.takes x = true)
        (x.postOrder.map v.declared) (x.postOrder.map v.declared) := by
      intro x hx
      have hdepth := Expr.depth_lt_of_split he hx
      exact (evaluate_logs h x).mono Iff.rfl (List.dropLast_prefix _)
    have hlogs := evaluate_logs_of_operands h he hoperands
    rw [Expr.postOrder_of_split he, takes_iff_of_split he, List.map_append, List.map_singleton,
      List.dropLast_concat, List.map_flatMap]
    exact hlogs
termination_by e.depth

/-! ## A vocabulary that keeps a log -/

/-- A command that adds its name to the text on record. -/
def spelling (name : String) (params : List Param) : Command where
  name
  params
  body _ := do
    Action.modify fun w => w.recordContract (w.lastContract.getD "" ++ name)
    return .nothing

/-- Three such commands: for no operands, for two, and for any number of them. -/
def letterCommands (reading : Reading) : List Command :=
  [spelling "N" [], spelling "P" [{ name := "x", reading }, { name := "y", reading }],
    spelling "R" [{ name := "xs", reading, rest := true, each := true }]]

theorem fault?_letterCommands (reading : Reading) :
    fault? "Letters" (letterCommands reading) = none := by
  simp [letterCommands, spelling, fault?, Command.fault?, Command.paramFault?, Param.required,
    Text.isBlankText]
  decide

/-- The vocabulary of these commands, when operands are read in a given way. -/
def letters (reading : Reading) : Vocabulary :=
  ⟨"Letters", letterCommands reading, faultless_of_fault? (fault?_letterCommands reading)⟩

/-- Evaluates an expression by these commands, and their operands in the same way. -/
def spell (e : Expr) : Action Value :=
  let within : Reading := fun x =>
    if x.depth < e.depth then spell x else .fail (.headless "Letters" x)
  (letters within).evaluate e
termination_by e.depth

/-- The letters of the text on record. -/
def spelled (w : World) : List String :=
  (w.lastContract.getD "").toList.map String.singleton

/-- The recursion goes on wherever an operand is read. -/
theorem letters_spell (e : Expr) : (letters spell).evaluate e = spell e := by
  refine Action.Coupled.eq ?_
  rw [spell]
  cases he : split? e with
  | none =>
    simp only [evaluate, he]
    exact .refl _
  | some head =>
    obtain ⟨name, operands⟩ := head
    let within : Reading := fun x =>
      if x.depth < e.depth then spell x else .fail (.headless "Letters" x)
    let E (x y : Expr) : Prop := x = y ∧ x.depth < e.depth
    have hread : ∀ x y, E x y → (spell x).Coupled (.ofWorlds Eq) Eq (within y) := by
      rintro x _ ⟨rfl, hx⟩
      simp only [within, hx, if_true]
      exact .refl _
    have hoperands : List.Forall₂ E operands operands :=
      List.forall₂_same.mpr fun x hx => ⟨rfl, Expr.depth_lt_of_split he hx⟩
    have hcommand {name : String} {ps ps' : List Param}
        (hsignature : (spelling name ps).signature = (spelling name ps').signature)
        (harity : (spelling name ps).arity = (spelling name ps').arity)
        (hps : List.Forall₂ (Param.Coupled (.ofWorlds Eq) E) ps ps') :
        Command.Coupled (.ofWorlds Eq) E Eq (spelling name ps) (spelling name ps') :=
      .of_params hsignature harity hps fun _ => .refl _
    have hname : (letters spell).name = (letters within).name := rfl
    refine evaluate_coupled hname he he hoperands (overloads_forall₂ ?_) fun _ _ _ hf =>
      (Comparison.ofWorlds Eq).failures_rejected _ _ _ _ _ _ hf
    refine .cons ⟨rfl, fun _ => ?_⟩ (.cons ⟨rfl, fun _ => ?_⟩ (.cons ⟨rfl, fun _ => ?_⟩ .nil))
    · exact hcommand rfl rfl .nil
    · exact hcommand rfl rfl (.cons (.plain "x" hread) (.cons (.plain "y" hread) .nil))
    · exact hcommand rfl rfl (.cons (.restEach "xs" hread) .nil)

theorem letters_keepsLog : (letters spell).KeepsLog spelled := by
  have hreading : spell = (letters spell).evaluate := funext fun e => (letters_spell e).symm
  have hbody {name letter : String} (hletter : name.toList.map String.singleton = [letter])
      (w : World) : spelled (w.recordContract (w.lastContract.getD "" ++ name)) =
        spelled w ++ [letter] := by
    rw [← hletter, spelled, spelled, ← List.map_append, ← String.toList_append]
    rfl
  refine ⟨length_overloads_le_one (by decide), ?_, ?_⟩
  · intro c hc p hp
    simp only [letters, letterCommands, List.mem_cons, List.not_mem_nil, or_false] at hc
    rcases hc with rfl | rfl | rfl
    · cases hp
    · simp only [spelling, List.mem_cons, List.not_mem_nil, or_false] at hp
      rcases hp with rfl | rfl
      · exact ⟨hreading, .inl ⟨rfl, rfl, rfl⟩⟩
      · exact ⟨hreading, .inl ⟨rfl, rfl, rfl⟩⟩
    · simp only [spelling, List.mem_singleton] at hp
      subst hp
      exact ⟨hreading, .inr ⟨rfl, rfl⟩⟩
  · intro c hc args w
    simp only [letters, letterCommands, List.mem_cons, List.not_mem_nil, or_false] at hc
    rcases hc with rfl | rfl | rfl
    all_goals exact ⟨_, _, rfl, hbody rfl w⟩

/-! ## The order of effects -/

/-- If an evaluation succeeds, the log has grown by the commands of the expression in post-order:
the operands from left to right, each once, before their command. If it fails, the log has grown by
a part of these from the beginning, without the command of the expression itself. It succeeds if
all commands are there and take their operands. -/
theorem evaluate_in_order (v : Vocabulary) (log : World → List String) (h : v.KeepsLog log)
    (e : Expr) (w : World) :
    (∀ x w', v.evaluate e w = (.ok x, w') → log w' = log w ++ e.postOrder.map v.declared) ∧
    (∀ f w', v.evaluate e w = (.error f, w') → ∃ before,
      before <+: (e.postOrder.map v.declared).dropLast ∧ log w' = log w ++ before) ∧
    ((∃ x w', v.evaluate e w = (.ok x, w')) ↔ v.takes e = true) := by
  have hlogs := evaluate_logs h e
  refine ⟨fun x w' hr => (hlogs.result hr).2, fun f w' hr => (hlogs.failure hr).2, ?_, ?_⟩
  · rintro ⟨x, w', hr⟩
    exact (hlogs.result hr).1
  · intro htakes
    rcases hr : v.evaluate e w with ⟨f | x, w'⟩
    · exact absurd htakes (hlogs.failure hr).1
    · exact ⟨x, w', rfl⟩

/-- Lists within lists, in any case of letters, and a run that stops at an operand too few. -/
theorem evaluate_in_order_letters :
    let v := letters spell
    let e : Expr := .list [.atom "p", .atom "N",
      .list [.atom "R", .atom "n", .list [.atom "P", .atom "N", .atom "N"]]]
    let e' : Expr := .list [.atom "P", .list [.atom "R", .atom "N"], .list [.atom "P", .atom "N"]]
    let w := World.offline "test"
    v.KeepsLog spelled ∧
      (∃ x w', v.evaluate e w = (.ok x, w') ∧
        spelled w' = ["N", "N", "N", "N", "P", "R", "P"]) ∧
      ∃ f w', v.evaluate e' w = (.error f, w') ∧ spelled w' <+: ["N", "R", "N", "P"] := by
  intro v e e' w
  have htakes : v.takes e = true := by decide
  have hrejects : v.takes e' = false := by decide
  obtain ⟨hok, -, hsucceeds⟩ := evaluate_in_order v spelled letters_keepsLog e w
  obtain ⟨-, herror, hsucceeds'⟩ := evaluate_in_order v spelled letters_keepsLog e' w
  refine ⟨letters_keepsLog, ?_, ?_⟩
  · obtain ⟨x, w', hr⟩ := hsucceeds.mpr htakes
    refine ⟨x, w', hr, ?_⟩
    rw [hok x w' hr]
    decide
  · rcases hr : v.evaluate e' w with ⟨f | x, w'⟩
    · refine ⟨f, w', rfl, ?_⟩
      obtain ⟨before, hbefore, hlog⟩ := herror f w' hr
      rw [hlog]
      exact hbefore
    · rw [hsucceeds'.mp ⟨x, w', hr⟩] at hrejects
      cases hrejects

end Vocabulary

end Scenario
