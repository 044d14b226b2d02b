import Scenario.Proofs.Decimal.Plain
import Scenario.Proofs.Evaluate.Coupling
import Scenario.Proofs.Evaluate.Observed
import Scenario.Proofs.Expr.Extent
import Scenario.Proofs.Settings.Limits

/-!
# The scales of an evaluation

Which scales come up in the evaluation of an expression, and that they fit into signed 64 bits.

Evaluation under an observer that is quiet within limits is compared with evaluation itself, command
by command: both do the same with operands that come to the same, and the value stays within the
limits that are grown by one command (`Observer.Stage.commands_alike`,
`Observer.Stage.queries_alike`). By recursion along the rank, as evaluation itself goes, the limits
are grown once for each level of nesting (`Observer.evaluate_matches`).

`evaluate_scales` says this of worlds that settings describe, for an observer of scales: none is out
of range, whatever the texts. Roundings to significant figures have a range of their own, which goes
down by the digits of what is rounded (`Decimal.RoundsInRange`), and they do leave the range of the
other numbers (`evaluate_scales_rounding`). For what is read from a text of less than `2 ^ 32`
characters, the reach of the limits is less than `2 ^ 63` (`Limits.reach_nested_lt`).
-/

namespace Scenario

theorem Value.Within.of_content {l : Limits} {v : Value} {e : Expr} {n : Decimal}
    (hv : v.Within l) (hn : Operand.content e v = .ok n) : n.Within l := by
  rw [Operand.content] at hn
  split at hn
  · cases hn
    exact hv.number? ‹_›
  · cases hn

namespace Observer

/-- Two commands that come to the same if their operands do, with a value within limits. -/
abbrev Alike (w : World) (D : Expr → Prop) (l : Limits) (c c' : Command) : Prop :=
  Command.Coupled (.exactlyIn w) (fun x y => x = y ∧ D x) (fun v v' => v = v' ∧ v.Within l) c c'

namespace Alike

variable {o : Observer} {w : World} {D : Expr → Prop} {l : Limits} {c c' : Command}
variable {core : Reading} {param : String}

theorem of_body?_none (hnone : o.body? core c.name = none) (h : Alike w D l c c') :
    Alike w D l (o.command core c) c' := by
  rw [command, hnone]
  exact h

theorem of_reading {r r' : Reading} {P : Value → Prop} (hname : c.name = c'.name)
    (hc : c.params = [{ name := param, reading := r }])
    (hc' : c'.params = [{ name := param, reading := r' }])
    (hread : ∀ x, D x → (r x).Matches w P (r' x))
    (hbody : ∀ x v, D x → P v → (c.body [(param, .one v)]).Matches w (Value.Within l)
      (c'.body [(param, .one v)])) : Alike w D l c c' := by
  have hsignature : c.signature = c'.signature := by
    rw [Command.signature, Command.signature, hname, hc, hc']
    rfl
  refine .of_one_param hsignature hc hc' rfl rfl rfl rfl ?_
  rintro x _ ⟨rfl, hx⟩
  refine .map ((hread x hx).mono ?_)
  rintro v _ ⟨rfl, hv⟩
  exact hbody x v hx hv

theorem of_event (hname : c.name = c'.name)
    (hc : c.params = [{ name := param, reading := Operand.event }])
    (hc' : c'.params = [{ name := param, reading := Operand.event }])
    (hbody : ∀ x, D x → (c.body [(param, .one (.event x))]).Matches w (Value.Within l)
      (c'.body [(param, .one (.event x))])) : Alike w D l c c' := by
  refine of_reading (P := fun v => ∃ x, v = .event x ∧ D x) hname hc hc' (fun x hx => ?_) ?_
  · exact .pure ⟨rfl, x, rfl, hx⟩
  · rintro _ _ _ ⟨x, rfl, hx⟩
    exact hbody x hx

theorem constant (name description : String) {v : Value} (hv : v.Within l) :
    Alike w D l (Core.constant name description v) (Core.constant name description v) :=
  .of_params rfl rfl .nil fun _ => .pure ⟨rfl, hv⟩

theorem deferred (name description param : String) {reading reading' : Reading}
    (hread : ∀ x, D x → (reading x).Matches w (Value.Within l) (reading' x)) :
    Alike w D l (Core.deferred name description param reading)
      (Core.deferred name description param reading') := by
  refine of_event rfl rfl rfl fun x hx => ?_
  have hevent : Arguments.event [(param, .one (.event x))] param = .ok x :=
    Arguments.content_eq_ok (v := .event x) (by simp [Entries.get?]) rfl
  simp only [Core.deferred, hevent]
  exact .ok_bind (hread x hx)

end Alike

/-- The situation in which an observed command is compared with the command itself: what operands
there are, the limits `l` of their values, the limits `l'` that the value of the command should
stay within, and an observer that is quiet within these. -/
structure Stage (o : Observer) (w : World) (text : Nat) (D : Expr → Prop) (l l' : Limits) :
    Prop where
  world : w.Within (.base text)
  quiet : o.Quiet l'
  atoms : ∀ s, D (.atom s) → s.length ≤ text
  items : ∀ es, D (.list es) → ∀ x ∈ es, D x
  text_le : l.text ≤ text
  base_le : .base text ≤ l
  base_le' : .base text ≤ l'
  grown_le : ∀ x, D x → l.grown w.mantissaDecimals ≤ l'

namespace Stage

variable {o : Observer} {w : World} {text : Nat} {D : Expr → Prop} {l l' : Limits}
variable {core core' erc20 erc20' : Reading} {x : Expr}
variable (h : o.Stage w text D l l')
include h

theorem le_of_operand (hx : D x) : l ≤ l' :=
  Limits.le_trans (l.le_grown _) (h.grown_le x hx)

/-! ## Operands -/

section operands

variable (hcore : ∀ x, D x → (core x).Matches w (Value.Within l) (core' x))
include hcore

theorem number_matches (hx : D x) :
    (Operand.number core x).Matches w (Value.Within l) (Operand.number core' x) := by
  refine Operand.readAs_coupled (fun _ _ hv => hv.1) ?_ (hcore x hx)
  rintro w₁ w₂ - s rfl
  refine .of_ok _ fun v hv => ?_
  unfold Operand.numberLiteral at hv
  split at hv
  · rename_i n hn
    cases hv
    exact .of_leaf ((Decimal.readNumber_within hn (h.atoms s hx)).mono h.base_le) rfl
  · cases hv

theorem text_matches (hx : D x) :
    (Operand.text core x).Matches w (Value.Within l) (Operand.text core' x) := by
  refine Operand.readAs_coupled (fun _ _ hv => hv.1) ?_ (hcore x hx)
  rintro w₁ w₂ - s rfl
  refine .of_ok _ fun v hv => ?_
  cases hv
  exact .of_leaf (Nat.le_trans (h.atoms s hx) h.base_le.1) rfl

theorem address_matches (hx : D x) :
    (Operand.address core x).Matches w (Value.Within l) (Operand.address core' x) := by
  refine Operand.readAs_coupled (fun _ _ hv => hv.1) ?_ (.map ((hcore x hx).mono ?_))
  · rintro _ _ ⟨rfl, rfl⟩ s rfl
    refine .of_ok _ fun v hv => ?_
    unfold Operand.addressLiteral at hv
    split at hv
    · cases hv
      exact .of_leaf trivial rfl
    · cases hv
  · rintro v _ ⟨rfl, hv⟩
    refine ⟨rfl, ?_⟩
    unfold Operand.asAddress
    split
    · exact .of_leaf trivial rfl
    · exact hv

theorem core_matches (hx : D x) : (core x).Matches w (Value.Within l') (core' x) :=
  (hcore x hx).mono fun _ _ hv => ⟨hv.1, hv.2.mono (h.le_of_operand hx)⟩

theorem readEach_matches {es : List Expr} (hes : ∀ x ∈ es, D x) :
    (Command.readEach core es).Matches w (fun vs => ∀ v ∈ vs, v.Within l')
      (Command.readEach core' es) := by
  rw [Command.readEach_eq_mapM, Command.readEach_eq_mapM]
  have hrow : List.Forall₂ (fun x y => x = y ∧ D x) es es :=
    List.forall₂_same.mpr fun x hx => ⟨rfl, hes x hx⟩
  have hread (x y : Expr) (hxy : x = y ∧ D x) : (core x).Matches w (Value.Within l') (core' y) := by
    obtain ⟨rfl, hx⟩ := hxy
    exact h.core_matches hcore hx
  refine (Action.Coupled.mapM hrow hread).mono fun vs vs' hvs => ?_
  induction hvs with
  | nil => simp
  | cons hv _ ih =>
    obtain ⟨rfl, hv⟩ := hv
    obtain ⟨rfl, hvs⟩ := ih
    exact ⟨rfl, List.forall_mem_cons.mpr ⟨hv, hvs⟩⟩

theorem map_matches {es : List Expr} (hes : ∀ x ∈ es, D x) :
    (Operand.map core (.list es)).Matches w (Value.Within l') (Operand.map core' (.list es)) := by
  have htext (s : String) (hs : D (.atom s)) : (Value.text s).Within l' :=
    .of_leaf (Nat.le_trans (h.atoms s hs) h.base_le'.1) rfl
  have hpairs := Operand.readPairs_coupled htext (fun x hx => h.core_matches hcore hx) h.items
    (.list es) hes (List.forall_mem_nil _)
  refine .map (hpairs.mono ?_)
  rintro r _ ⟨rfl, hr⟩
  exact ⟨rfl, .map hr⟩

theorem scaledNumber_matches (hx : D x) :
    (o.scaledNumber core x).Matches w (Decimal.Within l') (Operand.scaledNumber core' x) := by
  refine (h.number_matches hcore hx).bind ?_
  rintro v _ ⟨rfl, hv⟩
  refine (Action.Coupled.ofExcept (.of_ok _ fun n => hv.of_content)).bind ?_
  rintro n _ ⟨rfl, hn⟩
  rw [h.quiet.shown_eq (hn.mono (h.le_of_operand hx)), pure_bind]
  refine Action.Matches.world_bind ?_
  rw [h.quiet.scaledBy_eq (h.grown_le x hx) hn]
  exact .pure ⟨rfl, (hn.scaledBy _).mono (h.grown_le x hx)⟩

theorem negated_matches (hx : D x) :
    (o.negated core x).Matches w (Value.Within l') (Core.negated core' x) := by
  refine (h.number_matches hcore hx).bind ?_
  rintro v _ ⟨rfl, hv⟩
  refine (Action.Coupled.ofExcept (.of_ok _ fun n => hv.of_content)).bind ?_
  rintro n _ ⟨rfl, hn⟩
  have hn' := hn.mono (h.le_of_operand hx)
  rw [h.quiet.shown_eq hn', pure_bind, h.quiet.shown_eq hn'.neg, pure_bind]
  exact .pure ⟨rfl, .of_leaf hn'.neg rfl⟩

end operands

/-! ## Bodies -/

variable {v : Value} {param : String}

/-- The number of the one parameter. -/
theorem operand_matches (hx : D x) (hv : v.Within l) :
    (o.operand [(param, .one v)] param).Matches w (Decimal.Within l)
      (.ofExcept (Arguments.number [(param, .one v)] param)) := by
  have hnumber (n : Decimal) (hn : Arguments.number [(param, .one v)] param = .ok n) :
      n.Within l := hv.number? (Arguments.of_content_eq_ok (by simp [Entries.get?]) hn)
  exact Action.Matches.bind_left (.ofExcept (.of_ok _ hnumber)) fun n hn =>
    h.quiet.shown_eq (hn.mono (h.le_of_operand hx))

theorem span_matches (hx : D x) (hv : v.Within l) {name description : String} {unit : Nat}
    (hunit : unit < 10 ^ (l.low + 1)) :
    (o.span param unit [(param, .one v)]).Matches w (Value.Within l')
      ((Core.span core' name description param unit).body [(param, .one v)]) := by
  refine (h.operand_matches hx hv).bind ?_
  rintro n _ ⟨rfl, hn⟩
  have hprod := (hn.mul_ofInt hunit w.mantissaDecimals).mono (h.grown_le x hx)
  have hfactor : (Decimal.ofInt unit).Within l' :=
    (Decimal.Within.ofInt_unit hunit w.mantissaDecimals).mono (h.grown_le x hx)
  rw [h.quiet.shown_eq hfactor, pure_bind,
    h.quiet.mul_ofInt_eq (hn.mono (h.le_of_operand hx)) hprod, pure_bind,
    h.quiet.roundWhole_eq hprod, pure_bind]
  exact .pure ⟨rfl, .of_leaf hprod.roundWhole rfl⟩

theorem span_alike (hcore : ∀ x, D x → (core x).Matches w (Value.Within l) (core' x))
    {name : String} {unit : Nat} (hbody : o.body? core name = some (o.span param unit))
    (description : String) (hunit : unit < 10 ^ (l.low + 1)) :
    Alike w D l' (o.command core (Core.span core name description param unit))
      (Core.span core' name description param unit) := by
  have hcommand : (o.command core (Core.span core name description param unit)).body =
      o.span param unit := congrArg (Option.getD · _) hbody
  refine .of_reading rfl rfl rfl (fun x hx => h.number_matches hcore hx) fun x v hx hv => ?_
  rw [hcommand]
  exact h.span_matches hx hv hunit

theorem fromNow_matches (hx : D x) (hv : v.Within l) :
    (o.fromNow [("seconds", .one v)]).Matches w (Value.Within l')
      (Core.fromNow [("seconds", .one v)]) := by
  refine (h.operand_matches hx hv).bind ?_
  rintro n _ ⟨rfl, hn⟩
  refine Action.Matches.world_bind ?_
  have hnow : w.now.natAbs < 10 ^ l.digits :=
    Nat.lt_of_lt_of_le h.world.now (Nat.pow_le_pow_right (by decide) h.base_le.2.2)
  have hsum := (hn.add_ofInt h.base_le.2.1 hnow w.mantissaDecimals).mono (h.grown_le x hx)
  have htime := (Decimal.Within.ofInt hnow).mono (h.le_of_operand hx)
  rw [h.quiet.shown_eq htime, pure_bind,
    h.quiet.add_ofInt_eq (hn.mono (h.le_of_operand hx)) hsum, pure_bind,
    h.quiet.roundWhole_eq hsum, pure_bind]
  exact .pure ⟨rfl, .of_leaf hsum.roundWhole rfl⟩

theorem digits_pos : 0 < l'.digits := by
  have hdigits : 2 * text + 80 ≤ l'.digits := h.base_le'.2.2
  omega

theorem equal_matches {a b : Value} (ha : a.Within l') (hb : b.Within l') :
    (o.equal (Entries.put "expected" (.one b) [("given", .one a)])).Matches w (Value.Within l')
      (.ofExcept (Core.equal (Entries.put "expected" (.one b) [("given", .one a)]))) := by
  have hgiven := Core.value_given a b
  have hexpected := Core.value_expected a b
  have hagrees : o.agrees b a = pure (b.agrees a) := h.quiet.agrees_eq h.digits_pos hb ha
  have hobserved : o.equal (Entries.put "expected" (.one b) [("given", .one a)]) =
      o.agrees b a >>= fun r => pure (.bool r) := by
    rw [equal, hgiven, hexpected]
    rfl
  rw [hobserved, hagrees, pure_bind, Core.equal, hgiven, hexpected]
  exact Action.Coupled.pure ⟨rfl, .of_leaf trivial rfl⟩

theorem precise_matches (hx : D x) (hv : v.Within l) :
    (Action.ofExcept (do Core.precisely (← Arguments.text [(param, .one v)] param))).Matches w
      (Value.Within l')
      (.ofExcept (do Core.precisely (← Arguments.text [(param, .one v)] param))) := by
  refine .ofExcept (.of_ok _ fun r hr => ?_)
  cases hs : Arguments.text [(param, .one v)] param with
  | error f =>
    rw [hs] at hr
    cases hr
  | ok s =>
    have hlength : s.length ≤ l.text := by
      have hcontent := Arguments.of_content_eq_ok (v := v) (by simp [Entries.get?]) hs
      split at hcontent
      · cases hcontent
        exact hv.fits
      · cases hcontent
    have hprecise : Core.precisely s = .ok r := by
      rw [hs] at hr
      exact hr
    rw [Core.precisely] at hprecise
    split at hprecise
    · cases hprecise
      have hread := Decimal.readDecimal_within ‹_› (Nat.le_trans hlength h.text_le)
      refine .of_leaf ⟨hread.mono h.base_le', ?_⟩ rfl
      exact Nat.le_trans (Decimal.figures_le s) (Nat.le_trans hlength (h.le_of_operand hx).1)
    · cases hprecise

/-! ## The core commands -/

section table

variable (hcore : ∀ x, D x → (core x).Matches w (Value.Within l) (core' x))
variable (herc20 : ∀ es, (∀ x ∈ es, D x) →
  (erc20 (.list es)).Matches w (Value.Within (.base text)) (erc20' (.list es)))
include hcore herc20

theorem commands_alike (m m' : Manual) :
    List.Forall₂ (fun c c' => c.name = c'.name ∧ Alike w D l' c c')
      ((Core.commands core erc20 m).map (o.command core)) (Core.commands core' erc20' m') := by
  have hvalue (x : Expr) (hx : D x) {r r' : Reading}
      (hr : (r x).Matches w (Value.Within l) (r' x)) : (r x).Matches w (Value.Within l') (r' x) :=
    hr.mono fun _ _ hv => ⟨hv.1, hv.2.mono (h.le_of_operand hx)⟩
  have hsame {es es' : List Expr} (hes : List.Forall₂ (fun x y => x = y ∧ D x) es es') :
      es = es' ∧ ∀ x ∈ es, D x :=
    (Core.eq_of_forall₂ (fun _ _ hx => hx.1) hes).imp_right fun hmem x hx => (hmem x hx).2
  have hnumber := fun x (hx : D x) => hvalue x hx (h.number_matches hcore hx)
  have htext := fun x (hx : D x) => hvalue x hx (h.text_matches hcore hx)
  have hscaled (kind : Decimal → Value) (hkind : ∀ n, n.Within l' → (kind n).Within l') (x : Expr)
      (hx : D x) : (kind <$> o.scaledNumber core x).Matches w (Value.Within l')
        (kind <$> Operand.scaledNumber core' x) :=
    .map ((h.scaledNumber_matches hcore hx).mono fun n _ hn =>
      ⟨congrArg kind hn.1, hkind n hn.2⟩)
  have hconstant {n : Decimal} (hscale : n.scale.natAbs ≤ Decimal.maxExponent)
      (hint : n.int.natAbs < 10 ^ 80) : (Value.number n).Within l' :=
    .of_leaf ((Decimal.within_base hscale hint (by omega)).mono h.base_le') rfl
  have hunit {u : Nat} (hu : u < 10 ^ 8) : u < 10 ^ (l.low + 1) := by
    have hlow : 10000 ≤ l.low := h.base_le.2.1
    exact Nat.lt_of_lt_of_le hu (Nat.pow_le_pow_right (by decide) (by omega))
  simp only [Core.commands, List.map_cons, List.map_nil, List.forall₂_cons]
  refine ⟨⟨rfl, .of_body?_none rfl (.constant _ _ (.of_leaf trivial rfl))⟩,
    ⟨rfl, .of_body?_none rfl (.constant _ _ (.of_leaf trivial rfl))⟩,
    ⟨rfl, .of_body?_none rfl (.constant _ _ (hconstant (by decide) (by decide)))⟩,
    ⟨rfl, .of_body?_none rfl (.constant _ _ (hconstant (by decide) (by decide)))⟩,
    ⟨rfl, .of_body?_none rfl (.constant _ _ (hconstant (by decide) (by decide)))⟩,
    ⟨rfl, .of_body?_none rfl (.constant _ _ (hconstant (by decide) (by decide)))⟩,
    ⟨rfl, .of_body?_none rfl (.deferred _ _ _ hnumber)⟩,
    ⟨rfl, .of_body?_none rfl (.deferred _ _ _ htext)⟩,
    ⟨rfl, .of_body?_none rfl (.deferred _ _ _ htext)⟩,
    ⟨rfl, .of_event rfl rfl rfl (hscaled .scaled fun _ hn => .of_leaf hn rfl)⟩,
    ⟨rfl, .of_event rfl rfl rfl (hscaled .percent fun _ hn => .of_leaf hn rfl)⟩,
    ⟨rfl, .of_event rfl rfl rfl fun x hx => h.negated_matches hcore hx⟩,
    ⟨rfl, .of_body?_none rfl (.of_reading rfl rfl rfl (fun x hx => h.text_matches hcore hx)
      fun x v hx hv => h.precise_matches hx hv)⟩,
    ⟨rfl, .of_body?_none rfl (.constant _ _ (.of_leaf trivial rfl))⟩,
    ⟨rfl, .of_body?_none rfl (.constant _ _ (.of_leaf trivial rfl))⟩,
    ⟨rfl, .of_body?_none rfl (.of_reading rfl rfl rfl
      (fun x hx => hvalue x hx (h.address_matches hcore hx)) fun x v _ hv => .pure ⟨rfl, hv⟩)⟩,
    ⟨rfl, .of_body?_none rfl (.of_params rfl rfl .nil fun _ => ?lastContract)⟩,
    ⟨rfl, .of_body?_none rfl (.of_params rfl rfl .nil fun _ => ?lastGas)⟩,
    ⟨rfl, .of_body?_none rfl ?list⟩,
    ⟨rfl, .of_body?_none rfl ?map⟩,
    ⟨rfl, .of_body?_none rfl ?default⟩,
    ⟨rfl, h.span_alike hcore rfl _ (hunit (by decide))⟩,
    ⟨rfl, h.span_alike hcore rfl _ (hunit (by decide))⟩,
    ⟨rfl, h.span_alike hcore rfl _ (hunit (by decide))⟩,
    ⟨rfl, h.span_alike hcore rfl _ (hunit (by decide))⟩,
    ⟨rfl, h.span_alike hcore rfl _ (hunit (by decide))⟩,
    ⟨rfl, .of_reading rfl rfl rfl (fun x hx => h.number_matches hcore hx)
      fun x v hx hv => h.fromNow_matches hx hv⟩,
    ⟨rfl, .of_body?_none rfl (.of_params rfl rfl .nil fun _ => ?network)⟩,
    ⟨rfl, .of_body?_none rfl ?etherBalance⟩,
    ⟨rfl, ?equal⟩,
    ⟨rfl, .of_body?_none rfl ?erc20⟩, .nil⟩
  case lastContract =>
    refine Action.Matches.world_bind (.ofExcept (.of_ok _ fun v hv => ?_))
    unfold Core.lastContract at hv
    split at hv
    · cases hv
      exact .of_leaf trivial rfl
    · cases hv
  case lastGas =>
    refine Action.Matches.world_bind (.ofExcept (.of_ok _ fun v hv => ?_))
    unfold Core.lastGas at hv
    split at hv
    · cases hv
    · rename_i i hi
      split at hv
      · cases hv
        exact .of_leaf ((h.world.gas i _ hi ‹_›).mono h.base_le') rfl
      · cases hv
  case list =>
    refine .of_rest_param rfl rfl rfl rfl rfl fun es es' hrow => ?_
    obtain ⟨rfl, hes⟩ := hsame hrow
    refine .map ((h.readEach_matches hcore hes).mono ?_)
    rintro vs _ ⟨rfl, hvs⟩
    exact .pure ⟨rfl, .list hvs⟩
  case map =>
    refine .of_rest_param rfl rfl rfl rfl rfl fun es es' hrow => ?_
    obtain ⟨rfl, hes⟩ := hsame hrow
    refine .map ((h.map_matches hcore hes).mono ?_)
    rintro v _ hv
    exact .pure hv
  case default =>
    refine .of_two_params rfl rfl rfl (by simp) ?_
    rintro x _ y _ ⟨rfl, hx⟩ ⟨rfl, hy⟩
    refine .map ((h.core_matches hcore hx).mono ?_)
    rintro v _ ⟨rfl, hv⟩
    refine .map (.pure ?_)
    dsimp only
    exact Core.firstTrue_coupled (h.core_matches hcore hy) ⟨rfl, hv⟩ rfl
  case network =>
    refine Action.Matches.world_bind (.pure ⟨rfl, .of_leaf ?_ rfl⟩)
    exact Nat.le_trans h.world.network h.base_le'.1
  case etherBalance =>
    refine .of_reading rfl rfl rfl (fun x hx => h.address_matches hcore hx) fun x v hx _ => ?_
    refine (Action.Coupled.ofExcept_refl _).bind ?_
    rintro a _ rfl
    have hbalance (n : Decimal) (hn : Core.answer (w.client.balance a) = .ok n) :
        n.Within l' := by
      unfold Core.answer at hn
      cases hanswer : w.client.balance a with
      | error f =>
        rw [hanswer] at hn
        cases hn
      | ok b =>
        rw [hanswer] at hn
        cases hn
        exact (h.world.balance a _ hanswer).mono h.base_le'
    refine Action.Matches.world_bind ((Action.Coupled.ofExcept (.of_ok _ hbalance)).bind ?_)
    rintro n _ ⟨rfl, hn⟩
    exact .pure ⟨rfl, .of_leaf hn rfl⟩
  case equal =>
    refine .of_two_params rfl rfl rfl (by simp) ?_
    rintro x _ y _ ⟨rfl, hx⟩ ⟨rfl, hy⟩
    refine .map ((h.core_matches hcore hx).mono ?_)
    rintro a _ ⟨rfl, ha⟩
    refine .map ((h.core_matches hcore hy).mono ?_)
    rintro b _ ⟨rfl, hb⟩
    dsimp only
    exact h.equal_matches ha hb
  case erc20 =>
    refine .of_rest_param rfl rfl rfl rfl rfl fun es es' hrow => ?_
    obtain ⟨rfl, hes⟩ := hsame hrow
    refine .map ((herc20 es hes).mono ?_)
    rintro v _ ⟨rfl, hv⟩
    exact .pure ⟨rfl, hv.mono h.base_le'⟩

end table

/-! ## The queries of tokens -/

theorem query_matches (token method : String) (args : List String) :
    (Erc20.query token method args).Matches w (fun s => s.length ≤ text)
      (Erc20.query token method args) := by
  refine Action.Matches.world_bind (.ofExcept (.of_ok _ fun s hs => ?_))
  cases hcall : w.client.call token method args with
  | error f =>
    rw [hcall] at hs
    cases hs
  | ok r =>
    rw [hcall] at hs
    cases hs
    exact h.world.call _ _ _ _ hcall

theorem queryNumber_matches (token method : String) (args : List String) :
    (Erc20.queryNumber token method args).Matches w (Value.Within (.base text))
      (Erc20.queryNumber token method args) := by
  refine (h.query_matches token method args).bind ?_
  rintro s _ ⟨rfl, hs⟩
  cases hn : Decimal.readNumber s with
  | error f => exact .fail rfl
  | ok n => exact .pure ⟨rfl, .of_leaf (Decimal.readNumber_within hn hs) rfl⟩

theorem queries_alike (hcore : ∀ x, D x → (core x).Matches w (Value.Within l) (core' x)) :
    List.Forall₂ (fun c c' => c.name = c'.name ∧ Alike w D (.base text) c c')
      (Erc20.commands core) (Erc20.commands core') := by
  refine Erc20.commands_coupled h.queryNumber_matches (fun token method args => ?_)
    (fun _ => ⟨rfl, .of_leaf trivial rfl⟩) ?_
  · refine .map ((h.query_matches token method args).mono ?_)
    rintro s _ ⟨rfl, hs⟩
    exact ⟨rfl, .of_leaf hs rfl⟩
  · rintro x _ ⟨rfl, hx⟩
    exact (h.address_matches hcore hx).mono fun _ _ hv => hv.1

end Stage

end Observer

/-! ## Evaluation -/

namespace Dialect

/-- How deep the operands of an expression can be nested, themselves included. -/
def level (d : Dialect) (e : Expr) : Nat :=
  (d.rank e - 1) / 2

/-- What the values of a dialect stay within: those of the core commands within `l`; the answer to a
query is an address, or it is read from a text of up to `text` characters. -/
def limits (text : Nat) (l : Limits) : Dialect → Limits
  | core => l
  | erc20 => .base text

theorem level_core (e : Expr) : core.level e = e.depth := by
  rw [level, rank]
  omega

theorem level_erc20 (es : List Expr) : erc20.level (.list es) = Expr.height es := by
  rw [level, rank]
  omega

theorem depth_lt_level (d : Dialect) {e x : Expr} (hx : x ∈ e.operands) : x.depth < d.level e := by
  have hrank := d.rank_operand hx
  rw [rank] at hrank
  rw [level]
  omega

end Dialect

/-- An expression that is not as deep as `k`, with atoms of up to `text` characters. -/
structure Expr.Small (text k : Nat) (e : Expr) : Prop where
  depth : e.depth < k
  atoms : ∀ s ∈ e.atoms, s.length ≤ text

namespace Observer

/-- Vocabularies whose commands come to the same evaluate alike. -/
theorem evaluate_alike {w : World} {D : Expr → Prop} {l : Limits} {v v' : Vocabulary}
    (hname : v.name = v'.name)
    (h : List.Forall₂ (fun c c' => c.name = c'.name ∧ Alike w D l c c') v.commands v'.commands)
    {e : Expr} (hoperands : ∀ x ∈ e.operands, D x) :
    (v.evaluate e).Matches w (Value.Within l) (v'.evaluate e) := by
  cases hsplit : Vocabulary.split? e with
  | none =>
    simp only [Vocabulary.evaluate, hsplit, hname]
    exact Action.Coupled.fail rfl
  | some head =>
    obtain ⟨name, es⟩ := head
    rw [Expr.operands, hsplit] at hoperands
    have hes : List.Forall₂ (fun x y => x = y ∧ D x) es es :=
      List.forall₂_same.mpr fun x hx => ⟨rfl, hoperands x hx⟩
    refine Vocabulary.evaluate_coupled hname hsplit hsplit hes ?_ fun signatures f f' hf =>
      (Comparison.exactlyIn w).failures_rejected _ _ _ _ f f' hf
    exact Vocabulary.overloads_forall₂ (h.imp fun c c' hc => ⟨hc.1, fun _ => hc.2⟩)

/-- One round of evaluation, the nested ones being known to come to the same. -/
theorem Stage.vocabulary_matches {o : Observer} {w : World} {text : Nat} {D : Expr → Prop}
    {l l' : Limits} {core core' erc20 erc20' : Reading} (h : o.Stage w text D l l') (d : Dialect)
    {e : Expr}
    (hcore : ∀ x, D x → (core x).Matches w (Value.Within l) (core' x))
    (herc20 : d = .core → ∀ es, (∀ x ∈ es, D x) →
      (erc20 (.list es)).Matches w (Value.Within (.base text)) (erc20' (.list es)))
    (hoperands : ∀ x ∈ e.operands, D x) :
    ((o.vocabulary core erc20 d).evaluate e).Matches w (Value.Within (d.limits text l'))
      ((d.vocabulary core' erc20').evaluate e) := by
  cases d with
  | core =>
    have hcommands := h.commands_alike hcore (herc20 rfl) (Erc20.vocabulary core).manual
      (Erc20.vocabulary core').manual
    exact evaluate_alike (by rfl) hcommands hoperands
  | erc20 =>
    exact evaluate_alike (by rfl) (h.queries_alike hcore) hoperands

theorem stage_of_small {o : Observer} {w : World} {text k : Nat} (hw : w.Within (.base text))
    (ho : o.Quiet (.nested text w.mantissaDecimals k)) :
    o.Stage w text (Expr.Small text k) (.nested text w.mantissaDecimals (k - 1))
      (.nested text w.mantissaDecimals k) where
  world := hw
  quiet := ho
  atoms s hs := hs.atoms s (by simp [Expr.atoms])
  items es hes x hx :=
    { depth := Nat.lt_trans (Expr.depth_lt_of_mem hx) hes.depth
      atoms := fun s hs => hes.atoms s (by
        rw [Expr.atoms]
        exact Expr.mem_itemAtoms.mpr ⟨x, hx, hs⟩) }
  text_le := Nat.le_of_eq (Limits.nested_text _)
  base_le := Limits.base_le_nested _
  base_le' := Limits.base_le_nested _
  grown_le x hx := by
    have hk : k = k - 1 + 1 := by
      have := hx.depth
      omega
    rw [hk]
    exact Limits.le_refl _

/-- Evaluation under an observer is evaluation, if the observer is quiet within the limits that the
depth of the expression sets, and the value stays within them. -/
theorem evaluate_matches {o : Observer} {w : World} {text k : Nat} (hw : w.Within (.base text))
    (ho : o.Quiet (.nested text w.mantissaDecimals k)) (d : Dialect) (e : Expr)
    (hatoms : ∀ s ∈ e.atoms, s.length ≤ text) (hlevel : d.level e ≤ k) :
    (o.evaluate d e).Matches w
      (Value.Within (d.limits text (.nested text w.mantissaDecimals (d.level e))))
      (d.evaluate e) := by
  have hquiet := ho.mono (Limits.nested_mono hlevel)
  have hoperands (x : Expr) (hx : x ∈ e.operands) : x.Small text (d.level e) :=
    ⟨d.depth_lt_level hx, fun s hs => hatoms s (Expr.mem_atoms_of_operand hx hs)⟩
  rw [evaluate, Dialect.evaluate]
  refine Action.Matches.bind_left
    ((stage_of_small hw hquiet).vocabulary_matches d ?core ?erc20 hoperands) fun v hv => ?shown
  case core =>
    intro x hx
    dsimp only
    split
    · have hdepth := hx.depth
      rw [← Dialect.level_core] at hdepth
      refine (evaluate_matches hw ho .core x hx.atoms (by omega)).mono fun v v' hv => ?_
      exact ⟨hv.1, hv.2.mono (Limits.nested_mono (by omega))⟩
    · exact .fail rfl
  case erc20 =>
    rintro rfl es hes
    dsimp only
    split
    · have hheight : Expr.height es ≤ Dialect.core.level e :=
        Dialect.height_le fun x hx => (hes x hx).depth
      rw [← Dialect.level_erc20] at hheight
      have hitems (s : String) (hs : s ∈ (Expr.list es).atoms) : s.length ≤ text := by
        obtain ⟨x, hx, hs⟩ := Expr.mem_itemAtoms.mp hs
        exact (hes x hx).atoms s hs
      exact evaluate_matches hw ho .erc20 (.list es) hitems (by omega)
    · exact .fail rfl
  case shown =>
    refine hquiet.valueShown_eq (hv.mono ?_)
    cases d with
    | core => exact Limits.le_refl _
    | erc20 => exact Limits.base_le_nested _
termination_by d.rank e

end Observer

/-! ## Worlds that settings describe -/

/-- Room for the texts of settings, for the atoms of an expression and for the time. -/
structure Settings.Room (s : Settings) (t : Int) (e : Expr) (text : Nat) : Prop where
  texts : ∀ x ∈ s.texts, x.length ≤ text
  atoms : ∀ x ∈ e.atoms, x.length ≤ text
  now : (s.now.getD t).natAbs < 10 ^ (Limits.base text).digits

namespace Settings.Room

variable {s : Settings} {w : World} {t : Int} {e : Expr} {text : Nat}

theorem exists_text (s : Settings) (t : Int) (e : Expr) : ∃ text, s.Room t e text := by
  have hlength (x : String) (hx : x ∈ s.texts ++ e.atoms) :
      x.length ≤ ((s.texts ++ e.atoms).map String.length).sum :=
    List.le_sum_of_mem (List.mem_map_of_mem hx)
  refine ⟨((s.texts ++ e.atoms).map String.length).sum + (s.now.getD t).natAbs, ?_, ?_, ?_⟩
  · intro x hx
    exact Nat.le_add_right_of_le (hlength x (List.mem_append_left _ hx))
  · intro x hx
    exact Nat.le_add_right_of_le (hlength x (List.mem_append_right _ hx))
  · refine Nat.lt_of_lt_of_le (Nat.lt_pow_self (by decide : 1 < 10)) ?_
    refine Nat.pow_le_pow_right (by decide) ?_
    simp only [Limits.base]
    omega

theorem of_sized (hs : s.Sized) (ht : fitsSigned 64 t = true) {src : String}
    (hsrc : src.length < 2 ^ 32) (he : ReadFrom src e) (htext : 2 ^ 32 ≤ text) :
    s.Room t e text where
  texts x hx := Nat.le_trans (Nat.le_of_lt (hs.texts x hx)) htext
  atoms x hx := Nat.le_trans (he.length_le hx) (Nat.le_trans (Nat.le_of_lt hsrc) htext)
  now := by
    have hnow : fitsSigned 64 (s.now.getD t) = true := by
      cases hnow : s.now with
      | none => exact ht
      | some t' => exact hs.now t' hnow
    rw [Decimal.fitsSigned_iff] at hnow
    have hlt : (s.now.getD t).natAbs < 10 ^ 80 := by omega
    refine Nat.lt_of_lt_of_le hlt (Nat.pow_le_pow_right (by decide) ?_)
    simp only [Limits.base]
    omega

theorem evaluate_matches (h : s.Room t e text) (hw : s.toWorld = .ok w) {o : Observer}
    (ho : o.Quiet (.nested text s.mantissaDecimals e.depth)) :
    (o.evaluate .core e).Matches { w with hostNow := t }
      (Value.Within (.nested text s.mantissaDecimals e.depth)) (evaluate e) := by
  have hwithin := toWorld_within hw h.texts h.now
  rw [← toWorld_mantissaDecimals hw, ← Dialect.level_core] at ho ⊢
  exact Observer.evaluate_matches hwithin ho .core e h.atoms (Nat.le_refl _)

end Settings.Room

theorem Limits.reach_nested_lt {text m k : Nat} (htext : text ≤ 2 ^ 32) (hm : m < 2 ^ 32)
    (hk : k ≤ 257) : (nested text m k).reach < 2 ^ 63 := by
  have hshift : m * k ≤ 2 ^ 32 * 257 := Nat.mul_le_mul (Nat.le_of_lt hm) hk
  have hdigits : (nested text m k).digits ≤ _ := nested_digits_le k
  have hgrown : k * (Decimal.maxExponent + m * k + 1) ≤
      257 * (Decimal.maxExponent + 2 ^ 32 * 257 + 1) :=
    Nat.mul_le_mul hk (by omega)
  rw [reach, nested_low, nested_text]
  simp only [Decimal.maxExponent] at hdigits hgrown ⊢
  omega

/-- The scales that commands nested `d` deep can lead to, the fixed point being at `m`. -/
def Decimal.InRange (m d : Nat) (n : Decimal) : Prop :=
  -(10000 + m * d : Int) ≤ n.scale ∧ n.scale ≤ 10000

instance (m d : Nat) (n : Decimal) : Decidable (n.InRange m d) :=
  inferInstanceAs (Decidable (_ ∧ _))

theorem Decimal.Within.inRange {text m d : Nat} {n : Decimal} (h : n.Within (.nested text m d)) :
    n.InRange m d := by
  have hlow := h.low
  rw [Limits.nested_low] at hlow
  refine ⟨?_, h.high⟩
  simpa [maxExponent] using hlow

/-- The scales that roundings to significant figures of a number can lead to, the number being in
range: each digit that is left out is one step below the scale of the number, and one digit at least
is kept. -/
def Decimal.RoundsInRange (m d : Nat) (n r : Decimal) : Prop :=
  -(10000 + m * d : Int) < r.scale + n.digits.length ∧ r.scale ≤ 10000

instance (m d : Nat) (n r : Decimal) : Decidable (n.RoundsInRange m d r) :=
  inferInstanceAs (Decidable (_ ∧ _))

theorem Decimal.InRange.roundFigures {m d : Nat} {n : Decimal} (h : n.InRange m d) (k : Nat) :
    n.RoundsInRange m d (n.roundFigures k) := by
  obtain ⟨hlow, hhigh⟩ := h
  have hdigits : 0 < n.digits.length := Nat.length_toDigits_pos
  have hgrown : (0 : Int) ≤ m * d := by positivity
  rw [Decimal.roundFigures, RoundsInRange]
  split
  · simp only [ofInt]
    omega
  · rename_i hfigures
    have hk : k ≠ 0 := by
      rintro rfl
      simp at hfigures
    rw [Decimal.roundTo]
    split
    · omega
    · dsimp only
      omega

/-- In a world that settings describe, the numbers that the evaluation of an expression comes to,
and those that it comes upon, have scales between `-(10000 + m * d)` and `10000`, where `m` is the
exponent of the fixed point and `d` the depth of the expression: an observer that is silent about
such numbers makes no difference. The roundings to significant figures, which are for a comparison
only, go further down, by less than the number that is rounded has digits. What is read is at most
257 deep. If it is read from a text of less than `2 ^ 32` characters, and the settings hold such
texts and words of their width, it makes no difference either what becomes of scales that do not
fit into signed 64 bits, as none is computed. -/
theorem evaluate_scales (s : Settings) {w₀ : World} (hw : s.toWorld = .ok w₀) (t : Int) (e : Expr) :
    let w := { w₀ with hostNow := t }
    (∀ v, (evaluate e w).1 = .ok v →
      ∀ n ∈ v.numbers, n.InRange s.mantissaDecimals e.depth) ∧
    (∀ src, ReadFrom src e → e.depth ≤ 257) ∧
    ∀ o : Observer, (∀ n, n.InRange s.mantissaDecimals e.depth → o.number n = pure ()) →
      (∀ n r, n.InRange s.mantissaDecimals e.depth →
        n.RoundsInRange s.mantissaDecimals e.depth r → o.rounded n r = pure ()) →
      ((∀ k, o.scale k = pure k) → o.evaluate .core e w = evaluate e w) ∧
      (s.Sized → fitsSigned 64 t = true → ∀ src : String, src.length < 2 ^ 32 → ReadFrom src e →
        (∀ k, fitsSigned 64 k = true → o.scale k = pure k) →
        o.evaluate .core e w = evaluate e w) := by
  intro w
  obtain ⟨room, hroom⟩ := Settings.Room.exists_text s t e
  refine ⟨fun v hv n hn => ?_, fun _ he => he.depth_le, fun o hnumber hrounded => ?_⟩
  · have hmatches := hroom.evaluate_matches hw (o := ⟨fun _ => pure (), pure, fun _ _ => pure ()⟩)
      ⟨fun _ _ => rfl, fun _ _ => rfl, fun _ _ _ => rfl⟩
    exact ((hmatches.result hv).numbers n hn).inRange
  have hquiet (text : Nat) (hscale : ∀ k : Int,
      k.natAbs ≤ (Limits.nested text s.mantissaDecimals e.depth).reach → o.scale k = pure k) :
      o.Quiet (.nested text s.mantissaDecimals e.depth) :=
    ⟨fun n hn => hnumber n hn.inRange, hscale, fun n k hn =>
      hrounded n _ hn.inRange (hn.inRange.roundFigures k)⟩
  refine ⟨fun hscale => ?_, ?_⟩
  · exact (hroom.evaluate_matches hw (hquiet room fun k _ => hscale k)).apply_eq
  · intro hs ht src hsrc he hscale
    -- The bound gets a name, as ten to the power of such a number is not to be computed.
    obtain ⟨text, htext⟩ : ∃ text, text = 2 ^ 32 := ⟨_, rfl⟩
    have hreach : (Limits.nested text s.mantissaDecimals e.depth).reach < 2 ^ 63 :=
      Limits.reach_nested_lt (Nat.le_of_eq htext) hs.mantissaDecimals he.depth_le
    have hfits (k : Int) (hk : k.natAbs ≤ (Limits.nested text s.mantissaDecimals e.depth).reach) :
        o.scale k = pure k := by
      refine hscale k ?_
      rw [Decimal.fitsSigned_iff]
      omega
    have hroom := Settings.Room.of_sized hs ht hsrc he (Nat.le_of_eq htext.symm)
    exact (hroom.evaluate_matches hw (hquiet text hfits)).apply_eq

/-- With the fixed point as far up as its 32 bits allow, `1.5` is moved up twice, and a number that
was moved up once is compared with a precise one. The observer lets scales wrap around at 64 bits,
and fails at a number or a rounding that is out of range. Scales that wrap around at 32 bits lead to
another number. -/
theorem evaluate_scales_widest :
    let s : Settings := { Settings.default with mantissaDecimals := 4294967295 }
    let exp (x : Expr) := Expr.list [.atom "Exp", x]
    let e := Expr.list [.atom "List", exp (exp (.atom "1.5")),
      .list [.atom "Equal", exp (.atom "1.5"), .list [.atom "Precisely", .atom "2"]]]
    let check (p : Prop) [Decidable p] : Action Unit :=
      if p then pure () else .fail (.headless "" e)
    let o : Observer :=
      { number n := check (n.InRange s.mantissaDecimals e.depth)
        scale k := pure (k.bmod (2 ^ 64))
        rounded n r := check (n.RoundsInRange s.mantissaDecimals e.depth r) }
    let narrow : Observer :=
      { number _ := pure (), scale k := pure (k.bmod (2 ^ 32)), rounded _ _ := pure () }
    ∃ w₀, s.toWorld = .ok w₀ ∧
      let w := { w₀ with hostNow := 1700000000 }
      (∃ v, (evaluate e w).1 = .ok v ∧ v.numbers = [⟨15, -8589934589⟩] ∧
        ∀ n ∈ v.numbers, n.InRange 4294967295 3) ∧
      readCommand "(List (Exp (Exp 1.5)) (Equal (Exp 1.5) (Precisely 2)))" = .ok e ∧
      o.evaluate .core e w = evaluate e w ∧
      (narrow.evaluate .core e w).1.toOption.map Value.numbers = some [⟨15, 3⟩] := by
  intro s exp e check o narrow
  refine ⟨_, rfl, ?_⟩
  intro w
  obtain ⟨hvalue, -, hobserver⟩ := evaluate_scales s rfl 1700000000 e
  have hread : readCommand "(List (Exp (Exp 1.5)) (Equal (Exp 1.5) (Precisely 2)))" = .ok e :=
    readCommand_text (e := e) (by decide)
  have hsized : s.Sized := ⟨by decide, nofun, by decide⟩
  have hwrapped (k : Int) (hk : fitsSigned 64 k = true) : o.scale k = pure k := by
    rw [Decimal.fitsSigned_iff] at hk
    exact congrArg pure (Int.bmod_eq_of_le (by omega) (by omega))
  have hnumbers : (evaluate e w).1.toOption.map Value.numbers = some [⟨15, -8589934589⟩] := by
    decide +kernel
  refine ⟨?_, hread, ?_, by decide +kernel⟩
  · cases hv : (evaluate e w).1 with
    | error f =>
      rw [hv] at hnumbers
      cases hnumbers
    | ok v =>
      rw [hv] at hnumbers
      exact ⟨v, rfl, Option.some.inj hnumbers, hvalue v hv⟩
  · exact (hobserver o (fun n hn => if_pos hn) fun n r _ hr => if_pos hr).2 hsized (by decide) _
      (by decide) (.command hread) hwrapped

/-- A number of six digits at the least scale that is read is compared to one figure. Its rounding
is out of the range of the other numbers: an observer that fails at numbers out of range, roundings
included, fails where evaluation has a value. -/
theorem evaluate_scales_rounding :
    let s : Settings := { Settings.default with mantissaDecimals := 0 }
    let e := Expr.list [.atom "Equal", .list [.atom "Exactly", .atom "123456e10000"],
      .list [.atom "Precisely", .atom "1"]]
    let check (n : Decimal) : Action Unit :=
      if n.InRange s.mantissaDecimals e.depth then pure () else .fail (.headless "" e)
    let o : Observer := { number := check, scale k := pure k, rounded _ r := check r }
    readCommand "(Equal (Exactly 123456e10000) (Precisely 1))" = .ok e ∧
    ∃ w, s.toWorld = .ok w ∧ (evaluate e w).1.isOk = true ∧
      (⟨123456, -10000⟩ : Decimal).roundFigures 1 = ⟨1, -10005⟩ ∧
      ¬(⟨1, -10005⟩ : Decimal).InRange s.mantissaDecimals e.depth ∧
      (o.evaluate .core e w).1.isOk = false := by
  intro s e check o
  exact ⟨readCommand_text (e := e) (by decide), _, rfl, by decide +kernel, by decide +kernel,
    by decide, by decide +kernel⟩

end Scenario
