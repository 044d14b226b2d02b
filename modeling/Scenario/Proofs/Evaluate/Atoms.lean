import Scenario.Proofs.Evaluate.Substitution
import Scenario.Proofs.Vocabulary.Overloads

/-!
# What atoms are read as

An atom that is no literal of the kind asked for is run as a command without operands, and its
failure as a literal is reported unless that command has a value (`Operand.readAs_atom_eq_ok_iff`,
`Operand.readAs_atom_eq_error_iff`).

The core commands differ in more than the case of their names (`Core.nodup_names`), so an atom names
one of them at most, and its value is what that command makes of no operands
(`Vocabulary.evaluate_atom_eq_ok_iff`). `Core.commands_alone` goes through their table: most ask for
operands, the last contract and the last gas may not be on record, and `Erc20` passes on an empty
expression. What is left is `Core.alone`, with the numbers and the addresses in it for
`atom_readings`. The numbers that are constants are those that literals of them are read as, in the
same form (`Core.numbers_eq_read`).
-/

namespace Scenario

variable {w : World} {s : String} {v : Value} {f : Failure}

/-! ## Two ways to read an atom -/

namespace Operand

variable {kind : Kind} {literal : Literal} {core : Reading}

theorem readAs_of_literal (h : literal w s = .ok v) :
    readAs kind literal core (.atom s) w = (.ok v, w) := by
  simp only [readAs, Action.bind_apply, Action.world, h, Action.pure_apply]

/-- If an atom fails both ways, its failure as a literal is reported. -/
theorem readAs_of_error {g : Failure} {w' : World} (hliteral : literal w s = .error f)
    (h : core (.atom s) w = (.error g, w')) :
    readAs kind literal core (.atom s) w = (.error f, w') := by
  have hattempt : (core (.atom s)).attempt w = (.ok (.error g), w') := by
    rw [Action.attempt, h]
  simp only [readAs, Action.bind_apply, Action.world, hliteral, hattempt, Action.fail]

theorem expect_apply (kind : Kind) (e : Expr) (v : Value) (w : World) :
    expect kind e v w =
      (if kind.accepts v then .ok v else .error (.kindMismatch kind (.expr e) (.value v)), w) := by
  rw [expect]
  split <;> rfl

/-- An atom is read as a literal, or else as a command whose value is of the kind asked for. -/
theorem readAs_atom_eq_ok_iff : (readAs kind literal core (.atom s) w).1 = .ok v ↔
    literal w s = .ok v ∨
      (∃ f, literal w s = .error f) ∧ (core (.atom s) w).1 = .ok v ∧ kind.accepts v = true := by
  cases hliteral : literal w s with
  | ok u => simp [readAs_of_literal hliteral]
  | error g =>
    rcases hcore : core (.atom s) w with ⟨g' | u, w'⟩
    · simp [readAs_of_error hliteral hcore]
    · have hread : readAs kind literal core (.atom s) w = expect kind (.atom s) u w' :=
        readAs_of_ok hcore fun _ h => ⟨g, by cases h; exact hliteral⟩
      rw [hread, expect_apply]
      split
      · rename_i haccepts
        have hkind : u = v → kind.accepts v = true := fun h => h ▸ haccepts
        simpa using hkind
      · rename_i haccepts
        have hkind : u = v → ¬kind.accepts v = true := fun h => h ▸ haccepts
        simpa using hkind

/-- An atom fails as a command of another kind, or as the literal that it is not. -/
theorem readAs_atom_eq_error_iff : (readAs kind literal core (.atom s) w).1 = .error f ↔
    ∃ g, literal w s = .error g ∧
      ((∃ v, (core (.atom s) w).1 = .ok v ∧ kind.accepts v = false ∧
          f = .kindMismatch kind (.expr (.atom s)) (.value v)) ∨
        (∃ g', (core (.atom s) w).1 = .error g') ∧ f = g) := by
  cases hliteral : literal w s with
  | ok u => simp [readAs_of_literal hliteral]
  | error g =>
    rcases hcore : core (.atom s) w with ⟨g' | u, w'⟩
    · simp [readAs_of_error hliteral hcore, eq_comm (a := f)]
    · have hread : readAs kind literal core (.atom s) w = expect kind (.atom s) u w' :=
        readAs_of_ok hcore fun _ h => ⟨g, by cases h; exact hliteral⟩
      rw [hread, expect_apply]
      split
      · rename_i haccepts
        simp [haccepts]
      · rename_i haccepts
        simp [haccepts, eq_comm (a := f)]

end Operand

/-! ## Commands on their own -/

/-- A command run on no operands. -/
def Command.alone (c : Command) : Action Value := do
  c.body (← c.bind [])

/-- Where no two commands go by one name, an atom has the value of the command that it names. -/
theorem Vocabulary.evaluate_atom_eq_ok_iff {voc : Vocabulary}
    (hnames : (voc.commands.map (Text.fold ·.name)).Nodup) :
    (voc.evaluate (.atom s) w).1 = .ok v ↔
      ∃ c ∈ voc.commands, c.isNamed s = true ∧ (c.alone w).1 = .ok v := by
  by_cases hnamed : ∃ c ∈ voc.commands, c.isNamed s = true
  · obtain ⟨c, hc, hs⟩ := hnamed
    have hover := overloads_eq_singleton hnames hc hs
    have hvalue : (voc.evaluate (.atom s) w).1 = .ok v ↔ (c.alone w).1 = .ok v := by
      rw [Command.alone, Action.bind_apply]
      rcases hbind : c.bind [] w with ⟨f | args, w'⟩
      · rw [evaluate_of_bind_error rfl hover hbind]
        simp
      · rw [evaluate_of_bind_ok rfl hover hbind]
    rw [hvalue]
    refine ⟨fun h => ⟨c, hc, hs, h⟩, ?_⟩
    rintro ⟨c', hc', hs', h⟩
    have hover' := overloads_eq_singleton hnames hc' hs'
    obtain rfl : c = c' := by simpa [hover] using hover'
    exact h
  · have hover : voc.overloads s = [] := by
      simpa [overloads, List.filter_eq_nil_iff] using hnamed
    simp only [evaluate, split?, hover, Action.fail, reduceCtorEq, false_iff]
    rintro ⟨c, hc, hs, -⟩
    exact hnamed ⟨c, hc, hs⟩

/-- A command whose only parameter takes all operands reads an empty list of them. -/
theorem Command.alone_rest {c : Command} {p : Param} (hparams : c.params = [p])
    (hrest : p.rest = true) :
    c.alone = (readRest p [] >>= fun a => c.body [(p.name, a)]) := by
  have hfits : c.arity.fits 0 = true := by
    simp [arity, hparams, hrest, Param.required, Arity.fits]
  simp [alone, bind, hfits, hparams, bindParams, hrest, Entries.put]

/-- The gas that the last invocation has used, if there is one and it has a receipt. -/
def World.lastGas? (w : World) : Option Decimal :=
  w.lastInvocation.bind (·.gasUsed)

namespace Core

/-- The core commands that are numbers on their own, with the number if there is one. -/
def numbers (w : World) : List (String × Option Decimal) :=
  [("Zero", some ⟨0, 0⟩), ("Max", some ⟨maxWord, 0⟩), ("Some", some ⟨100, -18⟩),
    ("Little", some ⟨100, -10⟩), ("LastGas", w.lastGas?)]

/-- The core commands that are the same number in every world, with the text of that number. -/
def numberTexts : List (String × String) :=
  [("Zero", "0"),
    ("Max", "115792089237316195423570985008687907853269984665640564039457584007913129639935"),
    ("Some", "100e18"), ("Little", "100e10")]

/-- These commands have the form of the number that their text is read as. -/
theorem numbers_eq_read (w : World) :
    numbers w = numberTexts.map (fun x => (x.1, (Decimal.readNumber x.2).toOption)) ++
      [("LastGas", w.lastGas?)] := by
  have htexts : numberTexts.map (fun x => (x.1, (Decimal.readNumber x.2).toOption)) =
      [("Zero", some ⟨0, 0⟩), ("Max", some ⟨maxWord, 0⟩), ("Some", some ⟨100, -18⟩),
        ("Little", some ⟨100, -10⟩)] := by
    decide +kernel
  rw [htexts]
  rfl

/-- The core commands that count as addresses on their own, with the address if there is one. -/
def addresses (w : World) : List (String × Option String) :=
  [("LastContract", w.lastContract), ("Network", some w.network)]

/-- The core commands that can do without operands, with their value if they have one. -/
def alone (w : World) : List (String × Option Value) :=
  [("True", some (.bool true)), ("False", some (.bool false)), ("Zero", some (.number ⟨0, 0⟩)),
    ("Max", some (.number ⟨maxWord, 0⟩)), ("Some", some (.number ⟨100, -18⟩)),
    ("Little", some (.number ⟨100, -10⟩)), ("Anything", some .anything),
    ("Nothing", some .nothing), ("LastContract", w.lastContract.map .address),
    ("LastGas", w.lastGas?.map .number), ("List", some (.list [])),
    ("Map", some (.map [])), ("Network", some (.text w.network))]

theorem toOption_lastContract (w : World) :
    (lastContract w).toOption = w.lastContract.map .address := by
  rw [lastContract]
  split <;> rename_i h <;> rw [h] <;> rfl

theorem toOption_lastGas (w : World) :
    (lastGas w).toOption = w.lastGas?.map .number := by
  rw [lastGas, World.lastGas?]
  split
  · rename_i h
    rw [h]
    rfl
  · rename_i i h
    rw [h, Option.bind_some]
    split <;> rename_i hgas <;> rw [hgas] <;> rfl

theorem nodup_names (core erc20 : Reading) (m : Manual) :
    ((commands core erc20 m).map (Text.fold ·.name)).Nodup := by
  simp only [commands, constant, deferred, span, List.map_cons, List.map_nil]
  decide

variable {core erc20 : Reading} {w' : World}

/-- What each core command makes of no operands. -/
theorem commands_alone (m : Manual) (herc20 : erc20 (.list []) w = (.error f, w')) :
    (commands core erc20 m).map (fun c => (c.name, (c.alone w).1.toOption)) =
      [("True", some (.bool true)), ("False", some (.bool false)), ("Zero", some (.number ⟨0, 0⟩)),
        ("Max", some (.number ⟨maxWord, 0⟩)), ("Some", some (.number ⟨100, -18⟩)),
        ("Little", some (.number ⟨100, -10⟩)), ("Exactly", none), ("Hex", none), ("String", none),
        ("Exp", none), ("Percent", none), ("Neg", none), ("Precisely", none),
        ("Anything", some .anything), ("Nothing", some .nothing), ("Address", none),
        ("LastContract", (lastContract w).toOption), ("LastGas", (lastGas w).toOption),
        ("List", some (.list [])), ("Map", some (.map [])), ("Default", none), ("Minutes", none),
        ("Hours", none), ("Days", none), ("Weeks", none), ("Years", none), ("FromNow", none),
        ("Network", some (.text w.network)), ("EtherBalance", none), ("Equal", none),
        ("Erc20", none)] := by
  simp only [commands, List.map_cons, List.map_nil, List.cons.injEq, Prod.mk.injEq, and_true]
  repeat' constructor
  -- Only `Erc20` is left, whose operands are for another vocabulary to evaluate.
  have hres : (Argument.one <$> erc20 (.list [])) w = (.error f, w') := by
    rw [Action.map_apply, herc20]
  rw [Command.alone_rest rfl rfl]
  simp [Command.readRest, Action.bind_apply, hres, Except.toOption]

theorem mem_commands_alone_iff (m : Manual) (herc20 : erc20 (.list []) w = (.error f, w')) :
    (∃ c ∈ commands core erc20 m, c.isNamed s = true ∧ (c.alone w).1 = .ok v) ↔
      ∃ name, (name, some v) ∈ alone w ∧ Text.sameFold name s = true := by
  have htable : ∀ name, (name, some v) ∈ alone w ↔
      (name, some v) ∈ (commands core erc20 m).map (fun c => (c.name, (c.alone w).1.toOption)) := by
    intro name
    rw [commands_alone m herc20, toOption_lastContract, toOption_lastGas]
    simp [alone]
  have hok : ∀ c : Command, (c.alone w).1.toOption = some v ↔ (c.alone w).1 = .ok v := by
    intro c
    cases (c.alone w).1 <;> simp [Except.toOption]
  simp only [htable, List.mem_map, Prod.mk.injEq, hok]
  constructor
  · rintro ⟨c, hc, hs, hv⟩
    exact ⟨c.name, ⟨c, hc, rfl, hv⟩, hs⟩
  · rintro ⟨name, ⟨c, hc, rfl, hv⟩, hs⟩
    exact ⟨c, hc, hs, hv⟩

/-- The values that count as numbers are those of `numbers`. -/
theorem mem_alone_number_iff {name : String} :
    (name, some v) ∈ alone w ∧ Kind.number.accepts v = true ↔
      ∃ n, v = .number n ∧ (name, some n) ∈ numbers w := by
  have hnumber : ∀ x ∈ alone w, ∀ u, x.2 = some u → Kind.number.accepts u = true →
      ∃ n, u = .number n := by
    simp [alone, Kind.accepts, Value.number?]
  have hnumbers : ∀ n, (name, some (.number n)) ∈ alone w ↔ (name, some n) ∈ numbers w := by
    intro n
    simp [alone, numbers, eq_comm (b := w.lastGas?)]
  constructor
  · rintro ⟨hname, hv⟩
    obtain ⟨n, rfl⟩ := hnumber _ hname v rfl hv
    exact ⟨n, rfl, (hnumbers n).mp hname⟩
  · rintro ⟨n, rfl, hname⟩
    exact ⟨(hnumbers n).mpr hname, rfl⟩

/-- The values that count as addresses are those of `addresses`. -/
theorem mem_alone_address_iff {name : String} :
    (∃ u, (name, some u) ∈ alone w ∧ Operand.asAddress u = v) ∧ Kind.address.accepts v = true ↔
      ∃ a, v = .address a ∧ (name, some a) ∈ addresses w := by
  have haddress : ∀ x ∈ alone w, ∀ u, x.2 = some u →
      Kind.address.accepts (Operand.asAddress u) = true →
      ∃ a, Operand.asAddress u = .address a ∧ (x.1, some a) ∈ addresses w := by
    simp [alone, addresses, Kind.accepts, Value.kind, Operand.asAddress,
      eq_comm (b := w.lastContract)]
  constructor
  · rintro ⟨⟨u, hname, rfl⟩, hv⟩
    exact haddress _ hname u rfl hv
  · rintro ⟨a, rfl, hname⟩
    refine ⟨?_, rfl⟩
    simp only [addresses, List.mem_cons, Prod.mk.injEq, List.not_mem_nil, or_false] at hname
    rcases hname with ⟨rfl, ha⟩ | ⟨rfl, ha⟩
    · refine ⟨.address a, ?_, rfl⟩
      simp [alone, ← ha]
    · refine ⟨.text a, ?_, rfl⟩
      simp [alone, Option.some.inj ha]

end Core

/-- An atom has the value of the core command that it names, if that has one on its own. -/
theorem evaluate_atom_eq_ok_iff : (evaluate (.atom s) w).1 = .ok v ↔
    ∃ name, (name, some v) ∈ Core.alone w ∧ Text.sameFold name s = true := by
  have herc20 : Dialect.erc20.evaluate (.list []) w =
      (.error (.headless "Erc20" (.list [])), w) := by
    rw [Dialect.evaluate_eq]
    rfl
  rw [evaluate, Dialect.evaluate_eq, Vocabulary.evaluate_atom_eq_ok_iff (Core.nodup_names _ _ _)]
  exact Core.mem_commands_alone_iff _ herc20

/-! ## Numbers and addresses -/

/-- How an atom fails to be read as some kind: it is no literal for that `reason`, and if it names a
command with a value on its own, that value is not of the kind. -/
def AtomFails (w : World) (s : String) (kind : Kind) (reason : LiteralReason) (f : Failure) :
    Prop :=
  (∃ name v, (name, some v) ∈ Core.alone w ∧ Text.sameFold name s = true ∧
      f = .kindMismatch kind (.expr (.atom s)) (.value v)) ∨
    (∀ name v, (name, some v) ∈ Core.alone w → Text.sameFold name s = false) ∧
      f = .literal kind s reason

theorem forall_sameFold_eq_false (h : ∀ v, (evaluate (.atom s) w).1 ≠ .ok v) :
    ∀ name v, (name, some v) ∈ Core.alone w → Text.sameFold name s = false := by
  intro name v hname
  rw [Bool.eq_false_iff]
  intro hs
  exact h v (evaluate_atom_eq_ok_iff.mpr ⟨name, hname, hs⟩)

namespace Operand

theorem numberLiteral_eq_ok_iff :
    numberLiteral w s = .ok v ↔ ∃ n, v = .number n ∧ Decimal.readNumber s = .ok n := by
  rw [numberLiteral]
  split <;> rename_i h <;> simp [h, eq_comm (a := v)]

theorem numberLiteral_eq_error_iff : numberLiteral w s = .error f ↔
    ∃ fault, Decimal.readNumber s = .error fault ∧ f = .literal .number s (.number fault) := by
  rw [numberLiteral]
  split <;> rename_i h <;> simp [h, eq_comm (a := f)]

theorem addressLiteral_eq_ok_iff :
    addressLiteral w s = .ok v ↔ ∃ a, v = .address a ∧ w.resolve? s = some a := by
  rw [addressLiteral]
  split <;> rename_i h <;> simp [h, eq_comm (a := v)]

theorem addressLiteral_eq_error_iff : addressLiteral w s = .error f ↔
    w.resolve? s = none ∧ f = .literal .address s .unknownAddress := by
  rw [addressLiteral]
  split <;> rename_i h <;> simp [h, eq_comm (a := f)]

theorem number_atom_eq_ok_iff : (number evaluate (.atom s) w).1 = .ok v ↔
    ∃ n, v = .number n ∧ (Decimal.readNumber s = .ok n ∨
      ∃ name, (name, some n) ∈ Core.numbers w ∧ Text.sameFold name s = true) := by
  rw [number, readAs_atom_eq_ok_iff, numberLiteral_eq_ok_iff]
  constructor
  · rintro (⟨n, rfl, h⟩ | ⟨-, h, hv⟩)
    · exact ⟨n, rfl, .inl h⟩
    · obtain ⟨name, hname, hs⟩ := evaluate_atom_eq_ok_iff.mp h
      obtain ⟨n, rfl, hn⟩ := Core.mem_alone_number_iff.mp ⟨hname, hv⟩
      exact ⟨n, rfl, .inr ⟨name, hn, hs⟩⟩
  · rintro ⟨n, rfl, h | ⟨name, hn, hs⟩⟩
    · exact .inl ⟨n, rfl, h⟩
    · obtain ⟨hname, hv⟩ := Core.mem_alone_number_iff.mpr ⟨n, rfl, hn⟩
      have h := evaluate_atom_eq_ok_iff.mpr ⟨name, hname, hs⟩
      exact .inr ⟨⟨_, numberLiteral_eq_error_iff.mpr ⟨_, readNumber_of_evaluate_ok h, rfl⟩⟩, h, hv⟩

theorem atomFails_of_number_error (h : (number evaluate (.atom s) w).1 = .error f) :
    ∃ fault, Decimal.readNumber s = .error fault ∧ AtomFails w s .number (.number fault) f := by
  rw [number, readAs_atom_eq_error_iff] at h
  obtain ⟨g, hg, h⟩ := h
  obtain ⟨fault, hfault, rfl⟩ := numberLiteral_eq_error_iff.mp hg
  refine ⟨fault, hfault, ?_⟩
  rcases h with ⟨v, hv, -, rfl⟩ | ⟨⟨g', hg'⟩, rfl⟩
  · obtain ⟨name, hname, hs⟩ := evaluate_atom_eq_ok_iff.mp hv
    exact .inl ⟨name, v, hname, hs, rfl⟩
  · exact .inr ⟨forall_sameFold_eq_false (by simp [hg']), rfl⟩

theorem asAddress_of_not_accepts (h : Kind.address.accepts (asAddress v) = false) :
    asAddress v = v := by
  cases v <;> first | rfl | cases h

/-- An atom has the value of a command as an address, too. -/
theorem asAddress_evaluate_eq_ok_iff : ((asAddress <$> evaluate (.atom s)) w).1 = .ok v ↔
    ∃ name u, ((name, some u) ∈ Core.alone w ∧ asAddress u = v) ∧ Text.sameFold name s = true := by
  have hmap : ((asAddress <$> evaluate (.atom s)) w).1 = .ok v ↔
      ∃ u, (evaluate (.atom s) w).1 = .ok u ∧ asAddress u = v := by
    rw [Action.map_apply]
    rcases evaluate (.atom s) w with ⟨g | u, w'⟩ <;> simp
  rw [hmap]
  constructor
  · rintro ⟨u, hu, huv⟩
    obtain ⟨name, hname, hs⟩ := evaluate_atom_eq_ok_iff.mp hu
    exact ⟨name, u, ⟨hname, huv⟩, hs⟩
  · rintro ⟨name, u, ⟨hname, huv⟩, hs⟩
    exact ⟨u, evaluate_atom_eq_ok_iff.mpr ⟨name, hname, hs⟩, huv⟩

theorem address_atom_eq_ok_iff : (address evaluate (.atom s) w).1 = .ok v ↔
    ∃ a, v = .address a ∧ (w.resolve? s = some a ∨ w.resolve? s = none ∧
      ∃ name, (name, some a) ∈ Core.addresses w ∧ Text.sameFold name s = true) := by
  rw [address, readAs_atom_eq_ok_iff, addressLiteral_eq_ok_iff, asAddress_evaluate_eq_ok_iff]
  constructor
  · rintro (⟨a, rfl, h⟩ | ⟨⟨f, hf⟩, ⟨name, u, hu, hs⟩, hv⟩)
    · exact ⟨a, rfl, .inl h⟩
    · obtain ⟨a, rfl, ha⟩ := Core.mem_alone_address_iff.mp ⟨⟨u, hu⟩, hv⟩
      exact ⟨a, rfl, .inr ⟨(addressLiteral_eq_error_iff.mp hf).1, name, ha, hs⟩⟩
  · rintro ⟨a, rfl, h | ⟨hnone, name, ha, hs⟩⟩
    · exact .inl ⟨a, rfl, h⟩
    · obtain ⟨⟨u, hu⟩, hv⟩ := Core.mem_alone_address_iff.mpr ⟨a, rfl, ha⟩
      exact .inr ⟨⟨_, addressLiteral_eq_error_iff.mpr ⟨hnone, rfl⟩⟩, ⟨name, u, hu, hs⟩, hv⟩

theorem atomFails_of_address_error (h : (address evaluate (.atom s) w).1 = .error f) :
    w.resolve? s = none ∧ AtomFails w s .address .unknownAddress f := by
  rw [address, readAs_atom_eq_error_iff] at h
  obtain ⟨g, hg, h⟩ := h
  obtain ⟨hnone, rfl⟩ := addressLiteral_eq_error_iff.mp hg
  refine ⟨hnone, ?_⟩
  rcases h with ⟨v, hv, hkind, rfl⟩ | ⟨⟨g', hg'⟩, rfl⟩
  · obtain ⟨name, u, ⟨hname, rfl⟩, hs⟩ := asAddress_evaluate_eq_ok_iff.mp hv
    rw [asAddress_of_not_accepts hkind]
    exact .inl ⟨name, u, hname, hs, rfl⟩
  · refine .inr ⟨forall_sameFold_eq_false fun v hv => ?_, rfl⟩
    rw [Action.map_apply, evaluate_eq_pure hv] at hg'
    cases hg'

end Operand

/-- An atom is a number if it is written as one, or names a command that is one in this world; it is
an address if it resolves to one, or else names a command that is one. Otherwise its failure is
that of the literal, unless it names a command that has a value of another kind on its own. -/
theorem atom_readings (w : World) (s : String) :
    (∀ v, (Operand.number evaluate (.atom s) w).1 = .ok v ↔
      ∃ n, v = .number n ∧ (Decimal.readNumber s = .ok n ∨
        ∃ name, (name, some n) ∈ Core.numbers w ∧ Text.sameFold name s = true)) ∧
    (∀ f, (Operand.number evaluate (.atom s) w).1 = .error f →
      ∃ fault, Decimal.readNumber s = .error fault ∧ AtomFails w s .number (.number fault) f) ∧
    (∀ v, (Operand.address evaluate (.atom s) w).1 = .ok v ↔
      ∃ a, v = .address a ∧ (w.resolve? s = some a ∨ w.resolve? s = none ∧
        ∃ name, (name, some a) ∈ Core.addresses w ∧ Text.sameFold name s = true)) ∧
    (∀ f, (Operand.address evaluate (.atom s) w).1 = .error f →
      w.resolve? s = none ∧ AtomFails w s .address .unknownAddress f) ∧
    (∀ v, (evaluate (.atom s) w).1 = .ok v ↔
      ∃ name, (name, some v) ∈ Core.alone w ∧ Text.sameFold name s = true) :=
  ⟨fun _ => Operand.number_atom_eq_ok_iff, fun _ => Operand.atomFails_of_number_error,
    fun _ => Operand.address_atom_eq_ok_iff, fun _ => Operand.atomFails_of_address_error,
    fun _ => evaluate_atom_eq_ok_iff⟩

/-- A command that is no number, and one that counts as an address only once there is a contract. -/
theorem atom_readings_offline :
    let w := World.offline "goerli"
    (Operand.number evaluate (.atom "true") w).1 =
        .error (.kindMismatch .number (.expr (.atom "true")) (.value (.bool true))) ∧
      (Operand.address evaluate (.atom "lastContract") w).1 =
        .error (.literal .address "lastContract" .unknownAddress) := by
  intro w
  have hnames : ∀ name ∈ (Core.alone w).map Prod.fst,
      (Text.sameFold name "true" = true → name = "True") ∧
        (Text.sameFold name "lastContract" = true → name = "LastContract") := by decide
  constructor
  · obtain ⟨hok, herror, -⟩ := atom_readings w "true"
    cases h : (Operand.number evaluate (.atom "true") w).1 with
    | ok v =>
      obtain ⟨n, -, hn | ⟨name, hname, hs⟩⟩ := (hok v).mp h
      · have hnumber : Decimal.readNumber "true" = .error .notNumber := by decide
        rw [hnumber] at hn
        cases hn
      · have halone := (Core.mem_alone_number_iff.mpr ⟨n, rfl, hname⟩).1
        obtain rfl := (hnames name (List.mem_map_of_mem halone)).1 hs
        simp [Core.numbers] at hname
    | error f =>
      obtain ⟨-, -, ⟨name, v, hname, hs, rfl⟩ | ⟨hnone, -⟩⟩ := herror f h
      · obtain rfl := (hnames name (List.mem_map_of_mem hname)).1 hs
        obtain rfl : v = .bool true := by simpa [Core.alone] using hname
        rfl
      · exact absurd (hnone "True" (.bool true) (.head _)) (by decide)
  · obtain ⟨-, -, hok, herror, -⟩ := atom_readings w "lastContract"
    cases h : (Operand.address evaluate (.atom "lastContract") w).1 with
    | ok v =>
      obtain ⟨a, -, ha | ⟨-, name, hname, hs⟩⟩ := (hok v).mp h
      · have hnone : w.resolve? "lastContract" = none := by decide
        rw [hnone] at ha
        cases ha
      · obtain ⟨⟨u, halone, -⟩, -⟩ := Core.mem_alone_address_iff.mpr ⟨a, rfl, hname⟩
        obtain rfl := (hnames name (List.mem_map_of_mem halone)).2 hs
        simp [Core.addresses, w, World.offline] at hname
    | error f =>
      obtain ⟨-, ⟨name, v, hname, hs, rfl⟩ | ⟨-, rfl⟩⟩ := herror f h
      · obtain rfl := (hnames name (List.mem_map_of_mem hname)).2 hs
        simp [Core.alone, w, World.offline] at hname
      · rfl

end Scenario
