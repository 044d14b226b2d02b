import Scenario.Evaluate
import Scenario.Proofs.Command.Arguments
import Scenario.Proofs.Command.Binding
import Scenario.Proofs.Operand

/-!
# Why evaluation fails

A command is served (`Command.Served`) if its parameters are read as what its body looks up:
under the names, and of the kinds, that the body asks for. Every command of the two vocabularies
is (`Core.commands_served`, `Erc20.commands_served`), so a vocabulary fails for external reasons
only (`Vocabulary.evaluate_gives`) if the evaluations that it goes on to do, and by induction on
the rank of expressions all evaluation does (`Dialect.evaluate_gives`).
-/

namespace Scenario

/-! ## Commands -/

namespace Arguments

theorem Hold.one {args : Arguments} {ps : List Param} {P : Param → Value → Prop}
    (h : args.Hold ps P) {p : Param} (hp : p ∈ ps) (he : p.each = false) :
    ∃ v, args.get? p.name = some (.one v) ∧ P p v := by
  obtain ⟨a, ha, hold⟩ := h p hp
  cases a with
  | one v => exact ⟨v, ha, hold⟩
  | several vs => exact absurd hold.1 (by simp [he])

end Arguments

namespace Command

/-- A command whose parameters are read as what its body looks up: values that satisfy `P`. -/
structure Served (c : Command) (P : Param → Value → Prop) : Prop where
  reading : ∀ p ∈ c.params, p.reading.Gives (P p)
  no_default : ∀ p ∈ c.params, p.default? = none
  body : ∀ args : Arguments, args.Hold c.params P →
    (c.body args).Yields (fun _ => True) Failure.External

theorem Served.of_no_params {c : Command} (hps : c.params = [])
    (hbody : ∀ args, (c.body args).Yields (fun _ => True) Failure.External) :
    c.Served fun _ _ => True := by
  refine ⟨?_, ?_, fun args _ => hbody args⟩
  · simp [hps]
  · simp [hps]

theorem Served.of_one_param {c : Command} {p : Param} {P : Value → Prop} (hps : c.params = [p])
    (hread : p.reading.Gives P) (hdefault : p.default? = none) (heach : p.each = false)
    (hbody : ∀ (args : Arguments) (v : Value), args.get? p.name = some (.one v) → P v →
      (c.body args).Yields (fun _ => True) Failure.External) :
    c.Served fun _ => P := by
  refine ⟨?_, ?_, fun args hold => ?_⟩
  · rw [hps, List.forall_mem_singleton]
    exact hread
  · rw [hps, List.forall_mem_singleton]
    exact hdefault
  · rw [hps] at hold
    obtain ⟨v, hv, hp⟩ := hold.one (List.mem_singleton_self p) heach
    exact hbody args v hv hp

/-- On the arguments that a served command was bound to, its body fails for external reasons
only. -/
theorem Served.bind_yields {c : Command} {P : Param → Value → Prop} (h : c.Served P)
    (hc : c.fault? = none) (operands : List Expr) :
    (c.bind operands).Yields
      (fun args => (c.body args).Yields (fun _ => True) Failure.External) Failure.Rejecting := by
  cases hfit : c.arity.fits operands.length with
  | false =>
    rw [bind_of_not_fits hfit]
    exact .fail (.inr ⟨_, _, rfl⟩)
  | true =>
    have hbind : (c.bind operands).Yields (fun args => args.Hold c.params P) Failure.External := by
      refine Command.bind_yields hc hfit h.reading fun p hp v hv => ?_
      rw [h.no_default p hp] at hv
      cases hv
    exact hbind.mono h.body fun _ hf => .inl hf

end Command

/-! ## Vocabularies -/

namespace Vocabulary

theorem bindFirst_yields {operands : List Expr} {R : Command → Arguments → Prop}
    {Q : Failure → Prop} {c : Command} {others : List Command}
    (h : ∀ c' ∈ c :: others, (c'.bind operands).Yields (R c') Q) :
    (bindFirst operands c others).Yields
      (fun r => match r with
        | .ok (chosen, args) => R chosen args
        | .error f => Q f)
      fun _ => False := by
  induction others generalizing c with
  | nil =>
    rw [bindFirst]
    refine (h c (.head _)).attempt.bind fun r hr => ?_
    cases r with
    | ok args => exact .pure hr
    | error f => exact .pure hr
  | cons c' others ih =>
    rw [bindFirst]
    refine (h c (.head _)).attempt.bind fun r hr => ?_
    cases r with
    | ok args => exact .pure hr
    | error f => exact ih fun d hd => h d (.tail _ hd)

theorem evaluate_gives {v : Vocabulary} (h : ∀ c ∈ v.commands, ∃ P, c.Served P) :
    Reading.Gives v.evaluate fun _ => True := by
  intro e
  rw [evaluate]
  cases split? e with
  | none => exact .fail (.headless ..)
  | some call =>
    obtain ⟨name, operands⟩ := call
    dsimp only
    cases hover : v.overloads name with
    | nil => exact .fail (.unknownCommand ..)
    | cons c others =>
      have hbind : ∀ c' ∈ c :: others, (c'.bind operands).Yields
          (fun args => (c'.body args).Yields (fun _ => True) Failure.External)
          Failure.Rejecting := by
        intro c' hc'
        rw [← hover] at hc'
        have hmem := (List.mem_filter.mp hc').1
        obtain ⟨P, hP⟩ := h c' hmem
        exact hP.bind_yields (v.faultless c' hmem) operands
      refine ((bindFirst_yields hbind).mono (fun _ hr => hr) fun _ hf => hf.elim).bind
        fun r hr => ?_
      cases r with
      | ok chosen => exact hr
      | error f => exact .fail (hr.external ..)

end Vocabulary

/-! ## The queries of tokens -/

theorem external_of_client {α : Type} {r : Except ClientFailure α} {f : Failure}
    (h : r.mapError Failure.client = .error f) : f.External := by
  cases r with
  | ok x => cases h
  | error g =>
    cases h
    exact .client g

namespace Erc20

variable {core : Reading}

theorem query_yields (token method : String) (args : List String) :
    (query token method args).Yields (fun _ => True) Failure.External :=
  .world_bind fun _ => .ofExcept (fun _ _ => trivial) fun _ => external_of_client

theorem queryNumber_yields (token method : String) (args : List String) :
    (queryNumber token method args).Yields (fun _ => True) Failure.External := by
  refine (query_yields token method args).bind fun raw _ => ?_
  cases Decimal.readNumber raw with
  | ok v => exact .pure trivial
  | error f => exact .fail (.client _)

theorem exists_addresses {args : Arguments} {names : List String}
    (h : ∀ name ∈ names, ∃ a, args.address name = .ok a) : ∃ as, addresses args names = .ok as := by
  induction names with
  | nil => exact ⟨[], rfl⟩
  | cons name names ih =>
    rw [List.forall_mem_cons] at h
    obtain ⟨⟨a, ha⟩, hnames⟩ := h
    obtain ⟨as, has⟩ := ih hnames
    exact ⟨a :: as, by rw [addresses, ha, has]; rfl⟩

theorem command_served (h : core.Gives fun _ => True) {name description : String}
    {others : List String} {ask : String → List String → Action Value}
    (hask : ∀ token args, (ask token args).Yields (fun _ => True) Failure.External) :
    (command core name description others ask).Served fun _ v => ∃ s, v = .address s := by
  refine ⟨?_, ?_, fun args hold => ?_⟩
  · simp only [command, List.forall_mem_map]
    exact fun _ _ => Operand.address_gives h
  · simp [command]
  · have haddress : ∀ name ∈ "token" :: others, ∃ a, args.address name = .ok a := by
      intro name hname
      obtain ⟨v, hv, a, rfl⟩ := hold.one (List.mem_map_of_mem hname) rfl
      exact ⟨a, Arguments.content_eq_ok hv rfl⟩
    rw [List.forall_mem_cons] at haddress
    obtain ⟨⟨token, htoken⟩, hothers⟩ := haddress
    obtain ⟨as, has⟩ := exists_addresses hothers
    simp only [command, htoken, has]
    exact .ok_bind (.ok_bind (hask token as))

theorem commands_served (h : core.Gives fun _ => True) : ∀ c ∈ commands core, ∃ P, c.Served P := by
  simp only [commands, List.forall_mem_cons]
  refine ⟨⟨_, command_served h fun _ _ => queryNumber_yields ..⟩,
    ⟨_, command_served h fun _ _ => queryNumber_yields ..⟩,
    ⟨_, command_served h fun _ _ => queryNumber_yields ..⟩,
    ⟨_, command_served h fun _ _ => .map (query_yields ..)⟩,
    ⟨_, command_served h fun _ _ => .map (query_yields ..)⟩,
    ⟨_, command_served h fun _ _ => queryNumber_yields ..⟩,
    ⟨_, command_served h fun _ _ => .pure trivial⟩, List.forall_mem_nil _⟩

end Erc20

/-! ## The core commands -/

namespace Core

variable {core erc20 : Reading}

theorem constant_served (name description : String) (v : Value) :
    ∃ P, (constant name description v).Served P :=
  ⟨_, Command.Served.of_no_params rfl fun _ => .pure trivial⟩

theorem deferred_served (name description param : String) {reading : Reading}
    {P : Value → Prop} (h : reading.Gives P) :
    ∃ P, (deferred name description param reading).Served P := by
  refine ⟨_, Command.Served.of_one_param rfl Operand.event_gives rfl rfl fun args v hv hp => ?_⟩
  obtain ⟨e, rfl⟩ := hp
  have hevent : args.event param = .ok e := Arguments.content_eq_ok hv rfl
  simp only [deferred, hevent]
  exact .ok_bind ((h e).mono (fun _ _ => trivial) fun _ hf => hf)

theorem span_served (h : core.Gives fun _ => True) (name description param : String)
    (unit : Nat) : ∃ P, (span core name description param unit).Served P := by
  refine ⟨_, Command.Served.of_one_param rfl (Operand.number_gives h) rfl rfl
    fun args v hv hp => ?_⟩
  obtain ⟨n, hn⟩ := Option.isSome_iff_exists.mp hp
  have hnumber : args.number param = .ok n := Arguments.content_eq_ok hv hn
  simp only [span, hnumber]
  exact .ok_bind (.pure trivial)

theorem negated_gives (h : core.Gives fun _ => True) : (negated core).Gives fun _ => True := by
  refine fun e => (Operand.number_gives h e).bind fun v hv => ?_
  obtain ⟨n, hn⟩ := Operand.exists_content hv e
  rw [hn]
  exact .ok_bind (.pure trivial)

theorem argument_yields {name : String} {args : Arguments} {a : Argument}
    (ha : args.get? name = some a) :
    (argument name args).Yields (fun _ => True) Failure.External := by
  obtain ⟨v, hv⟩ := Arguments.exists_take ha
  rw [argument, hv]
  exact .ok_bind (.pure trivial)

theorem firstTrue_yields (h : core.Gives fun _ => True) {args : Arguments} {a : Argument}
    {e : Expr} (ha : args.get? "val" = some a)
    (he : args.get? "def" = some (.one (.event e))) :
    (firstTrue core args).Yields (fun _ => True) Failure.External := by
  obtain ⟨v, hv⟩ := Arguments.exists_take ha
  have hevent : Arguments.event (args.erase "val") "def" = .ok e := by
    refine Arguments.content_eq_ok (v := .event e) ?_ rfl
    rw [Entries.get?_erase_of_ne (by decide), he]
  rw [firstTrue, hv]
  refine .ok_bind ?_
  dsimp only
  split
  · exact .pure trivial
  · rw [hevent]
    exact .ok_bind (h e)

theorem equal_yields {args : Arguments} {given expected : Value}
    (hgiven : args.get? "given" = some (.one given))
    (hexpected : args.get? "expected" = some (.one expected)) :
    (Action.ofExcept (equal args)).Yields (fun _ => True) Failure.External := by
  rw [equal, Arguments.value_eq_ok hgiven, Arguments.value_eq_ok hexpected]
  exact .pure trivial

theorem fromNow_yields {args : Arguments} {n : Decimal} (h : args.number "seconds" = .ok n) :
    (fromNow args).Yields (fun _ => True) Failure.External := by
  rw [fromNow, h]
  exact .ok_bind (.world_bind fun _ => .pure trivial)

theorem lastContract_external {w : World} {f : Failure} (h : lastContract w = .error f) :
    f.External := by
  rw [lastContract] at h
  split at h
  · cases h
  · cases h
    exact .precondition _

theorem lastGas_external {w : World} {f : Failure} (h : lastGas w = .error f) : f.External := by
  rw [lastGas] at h
  split at h
  · cases h
    exact .precondition _
  · split at h
    · cases h
    · cases h
      exact .precondition _

theorem precisely_external {s : String} {f : Failure} (h : precisely s = .error f) :
    f.External := by
  rw [precisely] at h
  split at h
  · cases h
  · cases h
    exact .literal ..

theorem commands_served (h : core.Gives fun _ => True) (herc20 : erc20.Gives fun _ => True)
    (m : Manual) : ∀ c ∈ commands core erc20 m, ∃ P, c.Served P := by
  simp only [commands, List.forall_mem_cons]
  -- One row for each command, in the order of the table.
  refine ⟨constant_served .., constant_served .., constant_served .., constant_served ..,
    constant_served .., constant_served .., deferred_served _ _ _ (Operand.number_gives h),
    deferred_served _ _ _ (Operand.text_gives h), deferred_served _ _ _ (Operand.text_gives h),
    deferred_served _ _ _ (Operand.scaled_gives h),
    deferred_served _ _ _ (Operand.percent_gives h), deferred_served _ _ _ (negated_gives h),
    ⟨_, .of_one_param rfl (Operand.text_gives h) rfl rfl ?precisely⟩,
    constant_served .., constant_served ..,
    ⟨_, .of_one_param rfl (Operand.address_gives h) rfl rfl
      fun _ _ hv _ => argument_yields hv⟩,
    ⟨_, .of_no_params rfl ?lastContract⟩, ⟨_, .of_no_params rfl ?lastGas⟩,
    ⟨fun _ _ => True, ?list⟩,
    ⟨_, .of_one_param rfl (Operand.map_gives h) rfl rfl fun _ _ hv _ => argument_yields hv⟩,
    ⟨fun p v => p.name = "def" → ∃ e, v = .event e, ?default⟩, span_served h ..,
    span_served h .., span_served h .., span_served h .., span_served h ..,
    ⟨_, .of_one_param rfl (Operand.number_gives h) rfl rfl ?fromNow⟩,
    ⟨_, .of_no_params rfl ?network⟩,
    ⟨_, .of_one_param rfl (Operand.address_gives h) rfl rfl ?etherBalance⟩,
    ⟨fun _ _ => True, ?equal⟩,
    ⟨_, .of_one_param rfl herc20 rfl rfl fun _ _ hv _ => argument_yields hv⟩,
    List.forall_mem_nil _⟩
  case precisely =>
    rintro args v hv ⟨s, rfl⟩
    have htext : args.text "amt" = .ok s := Arguments.content_eq_ok hv rfl
    simp only [htext]
    exact .ofExcept (fun _ _ => trivial) fun _ => precisely_external
  case lastContract =>
    refine fun _ => .world_bind fun w => ?_
    exact .ofExcept (fun _ _ => trivial) fun _ => lastContract_external
  case lastGas =>
    refine fun _ => .world_bind fun w => ?_
    exact .ofExcept (fun _ _ => trivial) fun _ => lastGas_external
  case list =>
    refine ⟨by simpa using h, by simp, fun args hold => ?_⟩
    obtain ⟨a, ha, -⟩ := hold _ (.head _)
    exact argument_yields ha
  case default =>
    -- Only the second argument has to be of a kind: it is left unread for the body to evaluate.
    refine ⟨?_, by simp, fun args hold => ?_⟩
    · simp only [List.forall_mem_cons]
      refine ⟨fun e => (h e).mono ?_ fun _ hf => hf,
        fun e => (Operand.event_gives e).mono ?_ fun _ hf => hf, List.forall_mem_nil _⟩
      · exact fun _ _ hname => absurd hname (by decide)
      · exact fun _ hv _ => hv
    · obtain ⟨a, ha, -⟩ := hold _ (.head _)
      obtain ⟨v, hv, hevent⟩ := hold.one (.tail _ (.head _)) rfl
      obtain ⟨e, rfl⟩ := hevent rfl
      exact firstTrue_yields h ha hv
  case fromNow =>
    intro args v hv hp
    obtain ⟨n, hn⟩ := Option.isSome_iff_exists.mp hp
    exact fromNow_yields (Arguments.content_eq_ok hv hn)
  case network => exact fun _ => .world_bind fun _ => .pure trivial
  case etherBalance =>
    rintro args v hv ⟨s, rfl⟩
    have haddress : args.address "address" = .ok s := Arguments.content_eq_ok hv rfl
    simp only [haddress]
    refine .ok_bind (.world_bind fun w => ?_)
    exact (Action.Yields.ofExcept (fun _ _ => trivial) fun _ => external_of_client).bind
      fun _ _ => .pure trivial
  case equal =>
    refine ⟨by simpa using h, by simp, fun args hold => ?_⟩
    obtain ⟨given, hgiven, -⟩ := hold.one (.head _) rfl
    obtain ⟨expected, hexpected, -⟩ := hold.one (.tail _ (.head _)) rfl
    exact equal_yields hgiven hexpected

end Core

/-! ## Evaluation -/

namespace Dialect

theorem vocabulary_served {core erc20 : Reading} (h : core.Gives fun _ => True)
    (herc20 : erc20.Gives fun _ => True) (d : Dialect) :
    ∀ c ∈ (d.vocabulary core erc20).commands, ∃ P, c.Served P := by
  cases d with
  | core => exact Core.commands_served h herc20 _
  | erc20 => exact Erc20.commands_served h

/-- Evaluation fails for external reasons only. -/
theorem evaluate_gives (d : Dialect) : Reading.Gives d.evaluate fun _ => True := by
  intro e
  rw [Dialect.evaluate]
  have hwithin (d' : Dialect) : Reading.Gives (fun e' =>
      if d'.rank e' < d.rank e then d'.evaluate e' else .fail (.headless d'.name e'))
      fun _ => True := by
    intro e'
    dsimp only
    split
    · exact evaluate_gives d' e'
    · exact .fail (.headless ..)
  exact Vocabulary.evaluate_gives (vocabulary_served (hwithin .core) (hwithin .erc20) d) e
termination_by e => d.rank e

theorem commands_served (d : Dialect) : ∀ c ∈ d.commands.commands, ∃ P, c.Served P :=
  vocabulary_served core.evaluate_gives erc20.evaluate_gives d

end Dialect

/-- Whatever an expression fails for in whatever world, it is not for an internal reason: what is
read as a number carries one, and the arguments that a command was bound to are what its body
looks up. -/
theorem evaluate_explained :
    (∀ w e f w', evaluate e w = (.error f, w') → f.Explained) ∧
    (∀ w e v w', Operand.number evaluate e w = (.ok v, w') →
      ∃ n, v.number? = some n ∧ Operand.content e v = .ok n) ∧
    (∀ d : Dialect, ∀ c ∈ d.commands.commands, ∀ operands w args w',
      c.bind operands w = (.ok args, w') →
        ∀ w₁ f w₂, c.body args w₁ = (.error f, w₂) → f.Explained) := by
  refine ⟨fun w e f w' h => ?_, fun w e v w' h => ?_, ?_⟩
  · exact ((Dialect.core.evaluate_gives e).failure h).explained
  · have hv := (Operand.number_gives Dialect.core.evaluate_gives e).result h
    obtain ⟨n, hn⟩ := Option.isSome_iff_exists.mp hv
    exact ⟨n, hn, by rw [Operand.content, hn]⟩
  · intro d c hc operands w args w' hbind w₁ f w₂ hbody
    obtain ⟨P, hP⟩ := d.commands_served c hc
    have hyields := (hP.bind_yields (d.commands.faultless c hc) operands).result hbind
    exact (hyields.failure hbody).explained

theorem overloads_exactly (core erc20 : Reading) (m : Manual) :
    (Core.vocabulary core erc20 m).overloads "Exactly" =
      [Core.deferred "Exactly" "The given number, e.g. `Exactly 1.5`." "amt"
        (Operand.number core)] := by
  simp only [Vocabulary.overloads, Core.vocabulary, Core.commands, Command.isNamed, Core.constant,
    Core.deferred, Core.span]
  simp +decide only [List.filter_cons]
  rfl

/-- A command without its operand, a number, and a command without a record to read. -/
theorem evaluate_explained_offline :
    (∃ f, evaluate (.list [.atom "Exactly"]) (World.offline "test") =
      (.error f, World.offline "test") ∧ f.chain.length = 2 ∧ f.Explained) ∧
    (∃ n, Operand.content (.atom "7") (.number ⟨7, 0⟩) = .ok n) ∧
    ∃ c ∈ Dialect.core.commands.commands, ∃ f, c.name = "LastContract" ∧
      c.body [] (World.offline "test") = (.error f, World.offline "test") ∧ f.Explained := by
  refine ⟨?_, ?_, ?_⟩
  · have hexactly : ∃ signatures, evaluate (.list [.atom "Exactly"]) (World.offline "test") =
        (.error (.rejected "Core" "Exactly" (.list [.atom "Exactly"]) signatures
          (.arity ⟨1, some 1⟩ 0)), World.offline "test") := by
      rw [evaluate, Dialect.evaluate]
      simp only [Dialect.vocabulary, Vocabulary.evaluate, Vocabulary.split?, overloads_exactly,
        Vocabulary.bindFirst]
      exact ⟨_, rfl⟩
    obtain ⟨signatures, h⟩ := hexactly
    exact ⟨_, h, rfl, evaluate_explained.1 _ _ _ _ h⟩
  · have hseven : Operand.number evaluate (.atom "7") (World.offline "test") =
        (.ok (.number ⟨7, 0⟩), World.offline "test") := rfl
    obtain ⟨n, -, hn⟩ := evaluate_explained.2.1 _ _ _ _ hseven
    exact ⟨n, hn⟩
  · have hmem := List.getElem_mem (l := Dialect.core.commands.commands) (n := 16) (by decide)
    have hbody : Dialect.core.commands.commands[16].body [] (World.offline "test") =
        (.error (.precondition .lastContract), World.offline "test") := rfl
    have hbind : Dialect.core.commands.commands[16].bind [] (World.offline "test") =
        (.ok [], World.offline "test") := rfl
    exact ⟨_, hmem, _, rfl, hbody, evaluate_explained.2.2 _ _ hmem _ _ _ _ hbind _ _ _ hbody⟩

end Scenario
