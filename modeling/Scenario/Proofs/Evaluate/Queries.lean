import Scenario.Proofs.Command.Arguments
import Scenario.Proofs.Evaluate.Coupling
import Scenario.Proofs.Vocabulary.Namespaces

/-!
# What queries ask the client

Operands that resolve in the address book are read as the addresses they stand for
(`bind_addresses`), so a query written with such atoms puts those addresses to the client:
`evaluate_etherBalance` for the balance of an account, `evaluate_numberQuery` and
`evaluate_textQuery` for the methods of a token. The token queries are reached through `Erc20`
(`gateway_erc20`), which passes a value on as it is and a failure as the cause of its own
(`evaluate_erc20`).
-/

namespace Scenario

variable {core : Reading} {w w' : World} {e : Expr} {name token : String} {v : Value}
variable {f : Failure} {args : Arguments} {names xs as : List String}

/-! ## Operands that resolve -/

theorem Operand.address_of_resolve? {s a : String} (h : w.resolve? s = some a) :
    address core (.atom s) w = (.ok (.address a), w) := by
  simp only [address, readAs, Action.bind_apply, Action.world, addressLiteral, h]
  rfl

namespace Command

/-- Addresses as the arguments of the parameters that they are for. -/
def addressArguments (names as : List String) : List (String × Argument) :=
  (names.zip as).map fun x => (x.1, .one (.address x.2))

theorem bindParams_addresses (h : xs.map w.resolve? = as.map some)
    (hlen : names.length = xs.length) (args : Arguments) :
    bindParams (names.map fun p => { name := p, reading := Operand.address core })
        (xs.map .atom) args w =
      (.ok ((addressArguments names as).foldl (fun args x => args.put x.1 x.2) args), w) := by
  induction names generalizing xs as args with
  | nil => rfl
  | cons name names ih =>
    obtain ⟨x, xs, rfl⟩ := List.exists_cons_of_length_eq_add_one hlen.symm
    obtain ⟨a, as, rfl⟩ := List.exists_cons_of_ne_nil (l := as) (by rintro rfl; simp at h)
    simp only [List.map_cons, List.cons.injEq] at h
    have hread : readOne { name := name, reading := Operand.address core } (.atom x) w =
        (.ok (.one (.address a)), w) := by
      simp only [readOne, Bool.false_eq_true, if_false, Action.map_apply,
        Operand.address_of_resolve? h.1]
    simp only [List.map_cons, bindParams, Bool.false_eq_true, if_false, Action.bind_apply, hread]
    exact ih h.2 (by simpa using hlen) _

/-- A command whose parameters are all addresses finds under their names what the operands stand
for. -/
theorem bind_addresses {c : Command} (hc : c.fault? = none)
    (hps : c.params = names.map fun p => { name := p, reading := Operand.address core })
    (h : xs.map w.resolve? = as.map some) (hlen : names.length = xs.length) :
    ∃ args, c.bind (xs.map .atom) w = (.ok args, w) ∧
      ∀ x ∈ names.zip as, args.get? x.1 = some (.one (.address x.2)) := by
  have hlen' : names.length = as.length := by
    have hlength := congrArg List.length h
    simp only [List.length_map] at hlength
    omega
  have hfit : c.arity.fits (xs.map Expr.atom).length = true := by
    simp [arity, hps, Arity.fits, Param.required, List.countP_map, Function.comp_def, hlen]
  have hnodup : names.Nodup := by
    have hnames := (names_nodup (paramFault?_of_fault? hc)).1
    rw [hps, List.map_map] at hnames
    simpa [Function.comp_def] using hnames
  refine ⟨.ofList (addressArguments names as), ?_, fun x hx => ?_⟩
  · rw [bind, if_pos hfit, hps]
    exact bindParams_addresses h hlen []
  · refine Entries.get?_ofList ?_ (List.mem_map_of_mem hx)
    rwa [addressArguments, List.map_map, Function.comp_def, List.map_fst_zip hlen'.le]

end Command

/-! ## Queries of a token -/

namespace Erc20

/-- The commands that ask a token for a number, each with the method it calls and how many addresses
it takes besides that of the token. -/
def numberQueries : List (String × String × Nat) :=
  [("TotalSupply", "totalSupply", 0), ("Decimals", "decimals", 0), ("TokenBalance", "balanceOf", 1),
    ("Allowance", "allowance", 2)]

/-- The commands that ask a token for a text. -/
def textQueries : List (String × String × Nat) :=
  [("Name", "name", 0), ("Symbol", "symbol", 0)]

/-- A query as it is written, with an atom for each operand. -/
def queryExpr (command token : String) (args : List String) : Expr :=
  .list (.atom "Erc20" :: .atom command :: .atom token :: args.map .atom)

variable {method description : String} {others : List String} {n : Nat}
variable {ask : String → List String → Action Value}

theorem addresses_eq_ok (hlen : names.length = as.length)
    (h : ∀ x ∈ names.zip as, args.get? x.1 = some (.one (.address x.2))) :
    addresses args names = .ok as := by
  induction names generalizing as with
  | nil =>
    rw [List.length_nil, eq_comm, List.length_eq_zero_iff] at hlen
    rw [hlen]
    rfl
  | cons name names ih =>
    obtain ⟨a, as, rfl⟩ := List.exists_cons_of_length_eq_add_one hlen.symm
    rw [List.zip_cons_cons, List.forall_mem_cons] at h
    have hname : args.address name = .ok a := Arguments.content_eq_ok h.1 rfl
    rw [addresses, hname, ih (by simpa using hlen) h.2]
    rfl

/-- A query puts to the token what its operands stand for. -/
theorem evaluate_of_overloads
    (hover : (vocabulary core).overloads name = [command core name description others ask])
    {s : String} (hs : w.resolve? s = some token) (h : xs.map w.resolve? = as.map some)
    (hlen : others.length = xs.length) :
    (vocabulary core).evaluate (.list (.atom name :: .atom s :: xs.map .atom)) w =
      ask token as w := by
  have hmem : command core name description others ask ∈ (vocabulary core).commands :=
    (List.mem_filter.mp (hover ▸ List.mem_singleton_self _ :
      command core name description others ask ∈ (vocabulary core).overloads name)).1
  have hrow : (s :: xs).map w.resolve? = (token :: as).map some := by
    rw [List.map_cons, List.map_cons, hs, h]
  have hlength : ("token" :: others).length = (s :: xs).length := by
    rw [List.length_cons, List.length_cons, hlen]
  obtain ⟨args, hbind, hget⟩ :=
    Command.bind_addresses ((vocabulary core).faultless _ hmem) rfl hrow hlength
  rw [List.zip_cons_cons, List.forall_mem_cons] at hget
  have htoken : args.address "token" = .ok token := Arguments.content_eq_ok hget.1 rfl
  have hothers : addresses args others = .ok as := by
    refine addresses_eq_ok ?_ hget.2
    rw [hlen]
    simpa using congrArg List.length h
  rw [Vocabulary.evaluate_of_bind_ok rfl hover hbind]
  simp only [command, htoken, hothers]
  rfl

theorem overloads_of_numberQuery (core : Reading) (h : (name, method, n) ∈ numberQueries) :
    ∃ description others, others.length = n ∧ (vocabulary core).overloads name =
      [command core name description others (queryNumber · method ·)] := by
  simp only [numberQueries, List.mem_cons, Prod.mk.injEq, List.not_mem_nil, or_false] at h
  rcases h with ⟨rfl, rfl, rfl⟩ | ⟨rfl, rfl, rfl⟩ | ⟨rfl, rfl, rfl⟩ | ⟨rfl, rfl, rfl⟩
  all_goals
    simp only [Vocabulary.overloads, vocabulary, commands, Command.isNamed, command]
    simp +decide only [List.filter_cons]
  · exact ⟨_, [], rfl, rfl⟩
  · exact ⟨_, [], rfl, rfl⟩
  · exact ⟨_, ["owner"], rfl, rfl⟩
  · exact ⟨_, ["owner", "spender"], rfl, rfl⟩

theorem overloads_of_textQuery (core : Reading) (h : (name, method, n) ∈ textQueries) :
    ∃ description others, others.length = n ∧ (vocabulary core).overloads name =
      [command core name description others fun t xs => .text <$> query t method xs] := by
  simp only [textQueries, List.mem_cons, Prod.mk.injEq, List.not_mem_nil, or_false] at h
  rcases h with ⟨rfl, rfl, rfl⟩ | ⟨rfl, rfl, rfl⟩
  all_goals
    simp only [Vocabulary.overloads, vocabulary, commands, Command.isNamed, command]
    simp +decide only [List.filter_cons]
    exact ⟨_, [], rfl, rfl⟩

theorem query_of_call_ok {r : String} (h : w.client.call token method as = .ok r) :
    query token method as w = (.ok r, w) := by
  simp only [query, Action.bind_apply, Action.world, h]
  rfl

theorem queryNumber_of_call_ok {r : String} (h : w.client.call token method as = .ok r) :
    queryNumber token method as w =
      (match Decimal.readNumber r with
        | .ok v => .ok (.number v)
        | .error _ => .error (.client (.malformed method r)), w) := by
  simp only [queryNumber, Action.bind_apply, query_of_call_ok h]
  cases Decimal.readNumber r <;> rfl

end Erc20

/-! ## Evaluation -/

theorem overloads_etherBalance :
    ∃ c, Dialect.core.commands.overloads "EtherBalance" = [c] ∧
      c.params = ["address"].map (fun p => { name := p, reading := Operand.address evaluate }) ∧
      c.body = fun args => do
        let a ← .ofExcept (args.address "address")
        return .number (← .ofExcept (Core.answer ((← Action.world).client.balance a))) := by
  simp only [Vocabulary.overloads, Dialect.commands, Dialect.vocabulary, Core.vocabulary,
    Core.commands, Command.isNamed, Core.constant, Core.deferred, Core.span]
  simp +decide only [List.filter_cons]
  exact ⟨_, rfl, rfl, rfl⟩

theorem overloads_erc20 :
    ∃ c, Dialect.core.commands.overloads "Erc20" = [c] ∧
      c.params = [{ name := "res", reading := Dialect.erc20.evaluate, rest := true }] ∧
      c.body = Core.argument "res" ∧ c.signature = "Erc20 ...res" := by
  simp only [Vocabulary.overloads, Dialect.commands, Dialect.vocabulary, Core.vocabulary,
    Core.commands, Command.isNamed, Core.constant, Core.deferred, Core.span]
  simp +decide only [List.filter_cons]
  refine ⟨_, rfl, rfl, rfl, ?_⟩
  simp only [Command.signature, Param.shown, List.map_cons, List.map_nil, if_true]
  decide

/-- The balance of an account is what the client says of the address that the operand stands for. -/
theorem evaluate_etherBalance {a : String} (h : w.resolve? name = some a) :
    evaluate (.list [.atom "EtherBalance", .atom name]) w =
      ((Core.answer (w.client.balance a)).map .number, w) := by
  obtain ⟨c, hover, hps, hbody⟩ := overloads_etherBalance
  have hmem : c ∈ Dialect.core.commands.commands :=
    (List.mem_filter.mp (hover ▸ List.mem_singleton_self _)).1
  have hrow : [name].map w.resolve? = [a].map some := by rw [List.map_singleton, h]; rfl
  obtain ⟨args, hbind, hget⟩ :=
    Command.bind_addresses (Dialect.core.commands.faultless _ hmem) hps hrow rfl
  have haddress : args.address "address" = .ok a :=
    Arguments.content_eq_ok (hget _ (.head _)) rfl
  rw [evaluate, Dialect.evaluate_eq, Vocabulary.evaluate_of_bind_ok rfl hover hbind, hbody]
  simp only [haddress, Action.bind_apply, Action.ofExcept, Action.world]
  cases Core.answer (w.client.balance a) <;> rfl

/-- The token queries are reached through a command of the core vocabulary. -/
theorem gateway_erc20 : ∃ c p,
    Vocabulary.Gateway Dialect.core.commands Dialect.erc20.commands "Erc20" c p ∧
      c.signature = "Erc20 ...res" := by
  obtain ⟨c, hover, hps, hbody, hsignature⟩ := overloads_erc20
  refine ⟨c, _, ⟨hover, hps, rfl, rfl, ?_, ?_⟩, hsignature⟩
  · funext e
    exact Dialect.evaluate_eq .erc20 e
  · rw [hbody]
    exact fun x => rfl

theorem evaluate_erc20 (operands : List Expr) (w : World) :
    evaluate (.list (.atom "Erc20" :: operands)) w =
      ((Dialect.erc20.evaluate (.list operands) w).1.mapError
        (.rejected "Core" "Erc20" (.list (.atom "Erc20" :: operands)) ["Erc20 ...res"]),
        (Dialect.erc20.evaluate (.list operands) w).2) := by
  obtain ⟨c, p, hgate, hsignature⟩ := gateway_erc20
  rw [evaluate, Dialect.evaluate_eq, Dialect.evaluate_eq, hgate.evaluate_eq, hsignature]
  rfl

theorem evaluate_erc20_of_ok {operands : List Expr}
    (h : Dialect.erc20.evaluate (.list operands) w = (.ok v, w')) :
    evaluate (.list (.atom "Erc20" :: operands)) w = (.ok v, w') := by
  rw [evaluate_erc20, h]
  rfl

theorem evaluate_erc20_of_error {operands : List Expr}
    (h : Dialect.erc20.evaluate (.list operands) w = (.error f, w')) :
    evaluate (.list (.atom "Erc20" :: operands)) w =
      (.error (.rejected "Core" "Erc20" (.list (.atom "Erc20" :: operands)) ["Erc20 ...res"] f),
        w') := by
  rw [evaluate_erc20, h]
  rfl

section Query

variable {s method r : String} (hs : w.resolve? s = some token)
  (hxs : xs.map w.resolve? = as.map some) (hcall : w.client.call token method as = .ok r)
include hs hxs hcall

theorem evaluate_numberQuery (hquery : (name, method, xs.length) ∈ Erc20.numberQueries) :
    Dialect.erc20.evaluate (.list (.atom name :: .atom s :: xs.map .atom)) w =
      (match Decimal.readNumber r with
        | .ok n => .ok (.number n)
        | .error _ => .error (.client (.malformed method r)), w) := by
  obtain ⟨_, _, hlen, hover⟩ := Erc20.overloads_of_numberQuery evaluate hquery
  rw [Dialect.evaluate_eq, ← Erc20.queryNumber_of_call_ok hcall]
  exact Erc20.evaluate_of_overloads hover hs hxs hlen

/-- The value is the number that the client's answer reads as. -/
theorem evaluate_numberQuery_of_ok (hquery : (name, method, xs.length) ∈ Erc20.numberQueries)
    {n : Decimal} (hn : Decimal.readNumber r = .ok n) :
    evaluate (Erc20.queryExpr name s xs) w = (.ok (.number n), w) := by
  apply evaluate_erc20_of_ok
  rw [evaluate_numberQuery hs hxs hcall hquery, hn]

/-- An answer that is no number is the cause of the failure. -/
theorem evaluate_numberQuery_of_error (hquery : (name, method, xs.length) ∈ Erc20.numberQueries)
    {fault : Decimal.LiteralFault} (hn : Decimal.readNumber r = .error fault) :
    evaluate (Erc20.queryExpr name s xs) w =
      (.error (.rejected "Core" "Erc20" (Erc20.queryExpr name s xs) ["Erc20 ...res"]
        (.client (.malformed method r))), w) := by
  apply evaluate_erc20_of_error
  rw [evaluate_numberQuery hs hxs hcall hquery, hn]

/-- The value is the client's answer as it stands. -/
theorem evaluate_textQuery (hquery : (name, method, xs.length) ∈ Erc20.textQueries) :
    evaluate (Erc20.queryExpr name s xs) w = (.ok (.text r), w) := by
  obtain ⟨_, _, hlen, hover⟩ := Erc20.overloads_of_textQuery evaluate hquery
  apply evaluate_erc20_of_ok
  rw [Dialect.evaluate_eq]
  refine (Erc20.evaluate_of_overloads hover hs hxs hlen).trans ?_
  rw [Action.map_apply, Erc20.query_of_call_ok hcall]

end Query

end Scenario
