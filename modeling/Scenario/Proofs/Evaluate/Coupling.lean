import Scenario.Evaluate
import Scenario.Proofs.Command.Arguments
import Scenario.Proofs.Command.Coupling
import Scenario.Proofs.Operand.Coupling

/-!
# Evaluations that go alike

Two runs of a command go alike if its operands do and if the worlds agree in what the command
reads there, which is little: `World.Field.readers` names, for each part of a world, the core
commands that read it. `Core.commands_coupled` says so row by row for the table of core commands,
`Erc20.commands_coupled` for the queries of tokens. A run of a vocabulary rests on those
(`Dialect.vocabulary_coupled`), and by induction on the rank of expressions all evaluation does
(`Dialect.evaluate_coupled`). In one world, that says that evaluation leaves the world as it is
(`evaluate_world`).

The same table shows that a command goes on to evaluations of smaller rank only
(`Dialect.vocabulary_evaluate_congr`). So the recursion of evaluation stops nowhere short of the
operands, and evaluation is what the vocabulary makes of an expression (`Dialect.evaluate_eq`).

The commands in `Core.evaluating` do nothing with an operand but evaluate it or read it as a
number, so their operands need not even be the same expressions.
-/

namespace Scenario

/-! ## Parts of a world -/

/-- The parts of a world that evaluation can tell apart. -/
inductive World.Field where
  | network
  | addressBook
  | lastContract
  | lastInvocation
  | client
  | mantissa
  | clock
deriving DecidableEq, Repr

namespace World.Field

/-- Whether two worlds have this part in common. The clock is the time at which it is stopped and
the time of the host. -/
def Same : Field → World → World → Prop
  | network, w, w' => w.network = w'.network
  | addressBook, w, w' => w.addresses = w'.addresses
  | lastContract, w, w' => w.lastContract = w'.lastContract
  | lastInvocation, w, w' => w.lastInvocation = w'.lastInvocation
  | client, w, w' => w.client = w'.client
  | mantissa, w, w' => w.mantissaDecimals = w'.mantissaDecimals
  | clock, w, w' => w.pinnedNow = w'.pinnedNow ∧ w.hostNow = w'.hostNow

/-- The core commands that read this part. -/
def readers : Field → List String
  | network => ["Network"]
  | addressBook => ["Address", "EtherBalance", "Erc20"]
  | lastContract => ["LastContract"]
  | lastInvocation => ["LastGas"]
  | client => ["EtherBalance", "Erc20"]
  | mantissa => ["Exp", "Percent"]
  | clock => ["FromNow"]

end World.Field

/-- Whether related worlds always have a part in common. -/
def Comparison.Keeps (K : Comparison) (F : World.Field) : Prop :=
  ∀ w w', K.worlds w w' → F.Same w w'

theorem World.Field.same_refl (F : World.Field) (w : World) : F.Same w w := by
  cases F with
  | clock => exact ⟨rfl, rfl⟩
  | _ => rfl

theorem Comparison.inWorld_keeps (w : World) (F : World.Field) : (inWorld w).Keeps F := by
  rintro _ _ ⟨rfl, rfl⟩
  exact F.same_refl _

/-! ## The core commands -/

namespace Core

/-- The commands that evaluate their operands, or read them as numbers, and do nothing else with
them. -/
def evaluating : List String :=
  ["List", "Equal", "Default", "Exactly", "Neg", "Exp", "Percent", "Minutes", "Hours", "Days",
    "Weeks", "Years", "FromNow"]

/-- What two runs of a command need: worlds that agree in what it reads there, and the same
operands unless it only evaluates them. -/
structure Needs (K : Comparison) (E : Expr → Expr → Prop) (name : String) : Prop where
  keeps : ∀ F : World.Field, name ∈ F.readers → K.Keeps F
  same : (∀ n ∈ evaluating, Text.sameFold n name = false) → ∀ e e', E e e' → e = e'

/-- Two commands of one name that are coupled if two runs of them have what they need. -/
inductive Row (K : Comparison) (E : Expr → Expr → Prop) (c c' : Command) : Prop where
  | mk (name : String) (hc : c.name = name) (hc' : c'.name = name)
      (h : Needs K E name → Command.Coupled K E Eq c c')

variable {K : Comparison} {E : Expr → Expr → Prop} {core core' erc20 erc20' : Reading}

theorem constant_coupled (name description : String) (v : Value) :
    Command.Coupled K E Eq (constant name description v) (constant name description v) :=
  .of_params rfl rfl .nil fun _ => .pure rfl

theorem deferred_coupled {R : Value → Value → Prop} (name description param : String)
    {reading reading' : Reading} (h : ∀ e e', E e e' → (reading e).Coupled K R (reading' e')) :
    Command.Coupled K E R (deferred name description param reading)
      (deferred name description param reading') := by
  refine .of_one_param rfl rfl rfl rfl rfl rfl rfl fun e e' he => .map (.pure ?_)
  have hevent (x : Expr) : Arguments.event [(param, .one (.event x))] param = .ok x :=
    Arguments.content_eq_ok (v := .event x) (by simp [Entries.get?]) rfl
  simp only [deferred, hevent]
  exact .ok_bind (h e e' he)

theorem span_coupled (name description param : String) (unit : Nat)
    (h : ∀ e e', E e e' → (Operand.number core e).Coupled K Eq (Operand.number core' e')) :
    Command.Coupled K E Eq (span core name description param unit)
      (span core' name description param unit) := by
  refine .of_params rfl rfl (.cons (.plain param h) .nil) fun args => ?_
  refine (Action.Coupled.ofExcept_refl _).bind ?_
  rintro n _ rfl
  exact .pure rfl

theorem negated_coupled {e e' : Expr}
    (h : (Operand.number core e).Coupled K Eq (Operand.number core' e'))
    (hf : ∀ v, K.failures (.kindMismatch .number (.expr e) (.value v))
      (.kindMismatch .number (.expr e') (.value v))) :
    (negated core e).Coupled K Eq (negated core' e') := by
  refine h.bind ?_
  rintro v _ rfl
  refine (Action.Coupled.ofExcept (Operand.content_ends v (hf v))).bind ?_
  rintro n _ rfl
  exact .pure rfl

theorem argument_coupled (name : String) (args : Arguments) :
    (argument name args).Coupled K Eq (argument name args) := by
  refine (Action.Coupled.ofExcept_refl _).bind ?_
  rintro x _ rfl
  exact .pure rfl

theorem firstTrue_coupled {R : Value → Value → Prop} {e e' : Expr}
    (h : (core e).Coupled K R (core' e')) {v v' : Value} (hv : R v v')
    (htruthy : v.truthy = v'.truthy) :
    (firstTrue core (Entries.put "def" (.one (.event e)) [("val", .one v)])).Coupled K R
      (firstTrue core' (Entries.put "def" (.one (.event e')) [("val", .one v')])) := by
  have htake (x : Expr) (v : Value) :
      Arguments.take (Entries.put "def" (.one (.event x)) [("val", .one v)]) "val" =
        .ok (v, Entries.erase "val" (Entries.put "def" (.one (.event x)) [("val", .one v)])) := by
    simp only [Arguments.take, Arguments.argument, Entries.get?_put]
    rfl
  have hevent (x : Expr) (v : Value) :
      Arguments.event
        (Entries.erase "val" (Entries.put "def" (.one (.event x)) [("val", .one v)])) "def" =
          .ok x := by
    refine Arguments.content_eq_ok (v := .event x) ?_ rfl
    rw [Entries.get?_erase_of_ne (by decide), Entries.get?_put, if_pos rfl]
  rw [firstTrue, firstTrue, htake, htake]
  refine .ok_bind ?_
  simp only [htruthy]
  split
  · exact .pure hv
  · rw [hevent, hevent]
    exact .ok_bind h

theorem value_given (a b : Value) :
    Arguments.value (Entries.put "expected" (.one b) [("given", .one a)]) "given" = .ok a :=
  Arguments.value_eq_ok (by simp [Entries.get?_put, Entries.get?])

theorem value_expected (a b : Value) :
    Arguments.value (Entries.put "expected" (.one b) [("given", .one a)]) "expected" = .ok b :=
  Arguments.value_eq_ok (by simp [Entries.get?_put])

theorem eq_of_forall₂ (hsame : ∀ e e', E e e' → e = e') {es es' : List Expr}
    (h : List.Forall₂ E es es') : es = es' ∧ ∀ x ∈ es, E x x := by
  induction h with
  | nil => simp
  | cons he _ ih =>
    obtain rfl := hsame _ _ he
    obtain ⟨rfl, hes⟩ := ih
    exact ⟨rfl, List.forall_mem_cons.mpr ⟨he, hes⟩⟩

section table

variable (hcore : ∀ e e', E e e' → (core e).Coupled K Eq (core' e'))
variable (hnumber : ∀ e e', E e e' → (Operand.number core e).Coupled K Eq (Operand.number core' e'))
variable (hcontent : ∀ e e', E e e' → ∀ v,
  K.failures (.kindMismatch .number (.expr e) (.value v))
    (.kindMismatch .number (.expr e') (.value v)))
variable (hitems : ∀ es, E (.list es) (.list es) → ∀ x ∈ es, E x x)
variable (herc20 : K.Keeps .client → K.Keeps .addressBook → (∀ e e', E e e' → e = e') →
  ∀ es, (∀ x ∈ es, E x x) → (erc20 (.list es)).Coupled K Eq (erc20' (.list es)))
include hcore hnumber hcontent hitems herc20

theorem commands_coupled (m m' : Manual) :
    List.Forall₂ (Row K E) (commands core erc20 m) (commands core' erc20' m') := by
  have htext : (∀ e e', E e e' → e = e') → ∀ e e', E e e' →
      (Operand.text core e).Coupled K Eq (Operand.text core' e') := by
    intro hsame e e' he
    obtain rfl := hsame e e' he
    exact Operand.text_coupled (hcore e e he)
  have haddress : K.Keeps .addressBook → (∀ e e', E e e' → e = e') → ∀ e e', E e e' →
      (Operand.address core e).Coupled K Eq (Operand.address core' e') := by
    intro hbook hsame e e' he
    obtain rfl := hsame e e' he
    exact Operand.address_coupled hbook (hcore e e he)
  -- One row for each command, in the order of the table.
  simp only [commands, List.forall₂_cons]
  refine ⟨.mk "True" rfl rfl fun _ => constant_coupled ..,
    .mk "False" rfl rfl fun _ => constant_coupled ..,
    .mk "Zero" rfl rfl fun _ => constant_coupled ..,
    .mk "Max" rfl rfl fun _ => constant_coupled ..,
    .mk "Some" rfl rfl fun _ => constant_coupled ..,
    .mk "Little" rfl rfl fun _ => constant_coupled ..,
    .mk "Exactly" rfl rfl fun _ => deferred_coupled _ _ _ hnumber,
    .mk "Hex" rfl rfl fun h => deferred_coupled _ _ _ (htext (h.same (by decide))),
    .mk "String" rfl rfl fun h => deferred_coupled _ _ _ (htext (h.same (by decide))),
    .mk "Exp" rfl rfl fun h => deferred_coupled _ _ _ fun e e' he =>
      Operand.scaled_coupled (hnumber e e' he) (hcontent e e' he) (h.keeps .mantissa (by decide)),
    .mk "Percent" rfl rfl fun h => deferred_coupled _ _ _ fun e e' he =>
      Operand.percent_coupled (hnumber e e' he) (hcontent e e' he) (h.keeps .mantissa (by decide)),
    .mk "Neg" rfl rfl fun _ => deferred_coupled _ _ _ fun e e' he =>
      negated_coupled (hnumber e e' he) (hcontent e e' he),
    .mk "Precisely" rfl rfl fun h => .of_params rfl rfl
      (.cons (.plain _ (htext (h.same (by decide)))) .nil) fun _ => .ofExcept_refl _,
    .mk "Anything" rfl rfl fun _ => constant_coupled ..,
    .mk "Nothing" rfl rfl fun _ => constant_coupled ..,
    .mk "Address" rfl rfl fun h => .of_params rfl rfl (.cons (.plain _
      (haddress (h.keeps .addressBook (by decide)) (h.same (by decide)))) .nil)
      fun _ => argument_coupled ..,
    .mk "LastContract" rfl rfl fun h => .of_params rfl rfl .nil fun _ =>
      .world_bind fun w w' hw => ?lastContract,
    .mk "LastGas" rfl rfl fun h => .of_params rfl rfl .nil fun _ =>
      .world_bind fun w w' hw => ?lastGas,
    .mk "List" rfl rfl fun _ => .of_params rfl rfl (.cons (.restEach _ hcore) .nil) fun _ =>
      argument_coupled ..,
    .mk "Map" rfl rfl fun h => .of_params rfl rfl (.cons (.restWhole _ ?map) .nil) fun _ =>
      argument_coupled ..,
    .mk "Default" rfl rfl fun _ => .of_two_params rfl rfl rfl (by simp)
      fun e₁ e₁' e₂ e₂' he₁ he₂ => ?default,
    .mk "Minutes" rfl rfl fun _ => span_coupled _ _ _ _ hnumber,
    .mk "Hours" rfl rfl fun _ => span_coupled _ _ _ _ hnumber,
    .mk "Days" rfl rfl fun _ => span_coupled _ _ _ _ hnumber,
    .mk "Weeks" rfl rfl fun _ => span_coupled _ _ _ _ hnumber,
    .mk "Years" rfl rfl fun _ => span_coupled _ _ _ _ hnumber,
    .mk "FromNow" rfl rfl fun h => .of_params rfl rfl (.cons (.plain _ hnumber) .nil)
      fun args => ?fromNow,
    .mk "Network" rfl rfl fun h => .of_params rfl rfl .nil fun _ =>
      .world_bind fun w w' hw => ?network,
    .mk "EtherBalance" rfl rfl fun h => .of_params rfl rfl (.cons (.plain _
      (haddress (h.keeps .addressBook (by decide)) (h.same (by decide)))) .nil)
      fun args => ?etherBalance,
    .mk "Equal" rfl rfl fun _ => .of_params rfl rfl
      (.cons (.plain _ hcore) (.cons (.plain _ hcore) .nil)) fun _ => .ofExcept_refl _,
    .mk "Erc20" rfl rfl fun h => .of_params rfl rfl (.cons (.restWhole _ ?erc20) .nil)
      fun _ => argument_coupled .., .nil⟩
  case lastContract =>
    have hfield : w.lastContract = w'.lastContract := h.keeps .lastContract (by decide) w w' hw
    rw [lastContract, lastContract, hfield]
    exact .ofExcept_refl _
  case lastGas =>
    have hfield : w.lastInvocation = w'.lastInvocation :=
      h.keeps .lastInvocation (by decide) w w' hw
    rw [lastGas, lastGas, hfield]
    exact .ofExcept_refl _
  case map =>
    intro es es' hes
    obtain ⟨rfl, hmem⟩ := eq_of_forall₂ (h.same (by decide)) hes
    exact Operand.map_coupled hitems (fun x hx => hcore x x hx) hmem
  case default =>
    refine .map ((hcore e₁ e₁' he₁).mono ?_)
    rintro v _ rfl
    refine .map (.pure ?_)
    dsimp only
    exact firstTrue_coupled (hcore e₂ e₂' he₂) rfl rfl
  case fromNow =>
    refine (Action.Coupled.ofExcept_refl _).bind ?_
    rintro n _ rfl
    refine .world_bind fun w w' hw => ?_
    obtain ⟨hpinned, hhost⟩ := h.keeps .clock (by decide) w w' hw
    rw [World.now, World.now, hpinned, hhost]
    exact .pure rfl
  case network =>
    have hfield : w.network = w'.network := h.keeps .network (by decide) w w' hw
    rw [hfield]
    exact .pure rfl
  case etherBalance =>
    refine (Action.Coupled.ofExcept_refl _).bind ?_
    rintro a _ rfl
    refine .world_bind fun w w' hw => ?_
    have hfield : w.client = w'.client := h.keeps .client (by decide) w w' hw
    rw [hfield]
    refine (Action.Coupled.ofExcept_refl _).bind ?_
    rintro n _ rfl
    exact .pure rfl
  case erc20 =>
    intro es es' hes
    have hsame := h.same (by decide)
    obtain ⟨rfl, hmem⟩ := eq_of_forall₂ hsame hes
    exact herc20 (h.keeps .client (by decide)) (h.keeps .addressBook (by decide)) hsame es hmem

end table

end Core

/-! ## The queries of tokens -/

namespace Erc20

variable {K : Comparison} {E : Expr → Expr → Prop} {core core' : Reading}

theorem query_coupled (hclient : K.Keeps .client) (token method : String) (args : List String) :
    (query token method args).Coupled K Eq (query token method args) := by
  refine .world_bind fun w w' hw => ?_
  rw [show w.client = w'.client from hclient w w' hw]
  exact .ofExcept_refl _

theorem queryNumber_coupled (hclient : K.Keeps .client) (token method : String)
    (args : List String) :
    (queryNumber token method args).Coupled K Eq (queryNumber token method args) := by
  refine (query_coupled hclient token method args).bind ?_
  rintro raw _ rfl
  cases Decimal.readNumber raw with
  | ok v => exact .pure rfl
  | error _ => exact .fail (K.failures_refl _)

theorem queryText_coupled (hclient : K.Keeps .client) (token method : String)
    (args : List String) :
    (Value.text <$> query token method args).Coupled K Eq
      (Value.text <$> query token method args) :=
  .map ((query_coupled hclient token method args).mono fun _ _ h => by rw [h])

theorem command_coupled
    (haddress : ∀ e e', E e e' → (Operand.address core e).Coupled K Eq (Operand.address core' e'))
    (name description : String) (others : List String)
    {ask : String → List String → Action Value} {R : Value → Value → Prop}
    (hask : ∀ token args, (ask token args).Coupled K R (ask token args)) :
    Command.Coupled K E R (command core name description others ask)
      (command core' name description others ask) := by
  refine .of_params ?_ ?_ ?_ fun args => ?_
  · simp [Command.signature, command, Param.shown, Function.comp_def]
  · simp [Command.arity, command, Param.required, Function.comp_def, List.countP_map]
  · simp only [command, List.forall₂_map_left_iff, List.forall₂_map_right_iff, List.forall₂_same]
    exact fun p _ => .plain p haddress
  · refine (Action.Coupled.ofExcept_refl _).bind ?_
    rintro token _ rfl
    refine (Action.Coupled.ofExcept_refl _).bind ?_
    rintro as _ rfl
    exact hask token as

theorem commands_coupled {R : Value → Value → Prop}
    (hnumber : ∀ token method args,
      (queryNumber token method args).Coupled K R (queryNumber token method args))
    (htext : ∀ token method args, (Value.text <$> query token method args).Coupled K R
      (Value.text <$> query token method args))
    (hself : ∀ token, R (.address token) (.address token))
    (haddress : ∀ e e', E e e' → (Operand.address core e).Coupled K Eq (Operand.address core' e')) :
    List.Forall₂ (fun c c' => c.name = c'.name ∧ Command.Coupled K E R c c')
      (commands core) (commands core') := by
  refine .cons ⟨rfl, command_coupled haddress _ _ _ fun _ _ => hnumber ..⟩ <|
    .cons ⟨rfl, command_coupled haddress _ _ _ fun _ _ => hnumber ..⟩ <|
    .cons ⟨rfl, command_coupled haddress _ _ _ fun _ _ => hnumber ..⟩ <|
    .cons ⟨rfl, command_coupled haddress _ _ _ fun _ _ => htext ..⟩ <|
    .cons ⟨rfl, command_coupled haddress _ _ _ fun _ _ => htext ..⟩ <|
    .cons ⟨rfl, command_coupled haddress _ _ _ fun _ _ => hnumber ..⟩ <|
    .cons ⟨rfl, command_coupled haddress _ _ _ fun token _ => .pure (hself token)⟩ .nil

end Erc20

/-! ## Evaluation -/

namespace Vocabulary

theorem overloads_forall₂ {S : Command → Command → Prop} {v v' : Vocabulary} {name : String}
    (h : List.Forall₂ (fun c c' => c.name = c'.name ∧ (c.isNamed name = true → S c c'))
      v.commands v'.commands) :
    List.Forall₂ S (v.overloads name) (v'.overloads name) := by
  rw [overloads, overloads]
  generalize v.commands = cs, v'.commands = cs' at h
  induction h with
  | nil => exact .nil
  | @cons c c' _ _ hc _ ih =>
    have hname : c'.isNamed name = c.isNamed name := by
      rw [Command.isNamed, Command.isNamed, hc.1]
    simp only [List.filter_cons, hname]
    split
    · exact .cons (hc.2 ‹_›) ih
    · exact ih

theorem overloads_coupled {K : Comparison} {E : Expr → Expr → Prop} {v v' : Vocabulary}
    {name : String} (h : List.Forall₂ (Core.Row K E) v.commands v'.commands)
    (hneeds : ∀ n, Text.sameFold n name = true → Core.Needs K E n) :
    List.Forall₂ (Command.Coupled K E Eq) (v.overloads name) (v'.overloads name) := by
  refine overloads_forall₂ (h.imp ?_)
  rintro c c' ⟨n, hc, hc', hrow⟩
  refine ⟨hc.trans hc'.symm, fun hnamed => hrow (hneeds n ?_)⟩
  rw [← hc]
  exact hnamed

end Vocabulary

namespace Expr

/-- The operands of an expression that has a command's name for its head. -/
def operands (e : Expr) : List Expr :=
  match Vocabulary.split? e with
  | some (_, es) => es
  | none => []

/-- Whether the head of an expression is one of some names, whatever the case of its letters. -/
def HeadIn (e : Expr) (names : List String) : Prop :=
  ∃ name es, Vocabulary.split? e = some (name, es) ∧ ∃ n ∈ names, Text.sameFold n name = true

mutual

/-- The texts of all atoms of an expression. -/
def atoms : Expr → List String
  | atom s => [s]
  | list xs => itemAtoms xs

/-- The texts of all atoms of a row of expressions. -/
def itemAtoms : List Expr → List String
  | [] => []
  | x :: xs => atoms x ++ itemAtoms xs

end

theorem mem_itemAtoms {s : String} {xs : List Expr} :
    s ∈ itemAtoms xs ↔ ∃ x ∈ xs, s ∈ x.atoms := by
  induction xs with
  | nil => simp [itemAtoms]
  | cons x xs ih => simp [itemAtoms, ih]

/-- Whether no atom of an expression is one of some names, whatever the case of its letters. -/
def Avoids (e : Expr) (names : List String) : Prop :=
  ∀ s ∈ e.atoms, ∀ n ∈ names, Text.sameFold n s = false

instance (e : Expr) (names : List String) : Decidable (e.Avoids names) :=
  inferInstanceAs (Decidable (∀ s ∈ e.atoms, ∀ n ∈ names, Text.sameFold n s = false))

theorem avoids_list {xs : List Expr} {names : List String} :
    (list xs).Avoids names ↔ ∀ x ∈ xs, x.Avoids names := by
  simp only [Avoids, atoms, mem_itemAtoms]
  exact ⟨fun h x hx s hs => h s ⟨x, hx, hs⟩, fun h s ⟨x, hx, hs⟩ => h x hx s hs⟩

theorem mem_atoms_of_operand {e x : Expr} (hx : x ∈ e.operands) {s : String} (hs : s ∈ x.atoms) :
    s ∈ e.atoms := by
  match e with
  | .atom _ => simp [Expr.operands, Vocabulary.split?] at hx
  | .list [] => simp [Expr.operands, Vocabulary.split?] at hx
  | .list (.list _ :: _) => simp [Expr.operands, Vocabulary.split?] at hx
  | .list (.atom name :: es) =>
    rw [atoms]
    exact mem_itemAtoms.mpr ⟨x, .tail _ hx, hs⟩

theorem Avoids.operands {e : Expr} {names : List String} (h : e.Avoids names) :
    ∀ x ∈ e.operands, x.Avoids names :=
  fun _ hx s hs => h s (mem_atoms_of_operand hx hs)

theorem Avoids.not_headIn {e : Expr} {names : List String} (h : e.Avoids names) :
    ¬e.HeadIn names := by
  rintro ⟨name, es, hsplit, n, hn, hsame⟩
  have hname : name ∈ e.atoms := by
    match e with
    | .atom _ =>
      cases hsplit
      simp [atoms]
    | .list (.atom _ :: _) =>
      cases hsplit
      simp [atoms, itemAtoms]
  rw [h name hname n hn] at hsame
  cases hsame

end Expr

namespace Dialect

variable {K : Comparison} {D : Expr → Prop} {core core' erc20 erc20' : Reading} {e : Expr}

theorem vocabulary_coupled (d : Dialect) (hD : ∀ es, D (.list es) → ∀ x ∈ es, D x)
    (hcore : ∀ x, D x → (core x).Coupled K Eq (core' x))
    (herc20 : d = .core → K.Keeps .client → K.Keeps .addressBook →
      ∀ es, (∀ x ∈ es, D x) → (erc20 (.list es)).Coupled K Eq (erc20' (.list es)))
    (hoperands : ∀ x ∈ e.operands, D x)
    (hkeeps : ∀ F : World.Field, e.HeadIn F.readers → K.Keeps F)
    (hquery : d = .erc20 → K.Keeps .client ∧ K.Keeps .addressBook) :
    ((d.vocabulary core erc20).evaluate e).Coupled K Eq
      ((d.vocabulary core' erc20').evaluate e) := by
  let E (x y : Expr) : Prop := x = y ∧ D x
  have hname : (d.vocabulary core erc20).name = (d.vocabulary core' erc20').name := by
    cases d <;> rfl
  cases hsplit : Vocabulary.split? e with
  | none =>
    simp only [Vocabulary.evaluate, hsplit, hname]
    exact .fail (K.failures_refl _)
  | some head =>
    obtain ⟨name, es⟩ := head
    have hes : List.Forall₂ E es es := by
      rw [Expr.operands, hsplit] at hoperands
      exact List.forall₂_same.mpr fun x hx => ⟨rfl, hoperands x hx⟩
    refine Vocabulary.evaluate_coupled hname hsplit hsplit hes ?_ fun signatures f f' hf =>
      K.failures_rejected _ _ _ _ f f' hf
    cases d with
    | core =>
      refine Vocabulary.overloads_coupled (Core.commands_coupled ?_ ?_ ?_ ?_ ?_ _ _) fun n hn =>
        ⟨fun F hF => hkeeps F ⟨name, es, hsplit, n, hF, hn⟩, fun _ _ _ he => he.1⟩
      · rintro x _ ⟨rfl, hx⟩
        exact hcore x hx
      · rintro x _ ⟨rfl, hx⟩
        exact Operand.number_coupled (hcore x hx)
      · rintro x _ ⟨rfl, -⟩ v
        exact K.failures_refl _
      · rintro xs ⟨-, hxs⟩ x hx
        exact ⟨rfl, hD xs hxs x hx⟩
      · exact fun hclient hbook _ xs hxs => herc20 rfl hclient hbook xs fun x hx => (hxs x hx).2
    | erc20 =>
      obtain ⟨hclient, hbook⟩ := hquery rfl
      have haddress : ∀ x y, E x y →
          (Operand.address core x).Coupled K Eq (Operand.address core' y) := by
        rintro x _ ⟨rfl, hx⟩
        exact Operand.address_coupled hbook (hcore x hx)
      refine Vocabulary.overloads_forall₂ ((Erc20.commands_coupled
        (Erc20.queryNumber_coupled hclient) (Erc20.queryText_coupled hclient) (fun _ => rfl)
        haddress).imp ?_)
      exact fun c c' hc => ⟨hc.1, fun _ => hc.2⟩

/-- An evaluation goes alike in two worlds if they agree in all that its expression names a
reader of. -/
theorem evaluate_coupled (d : Dialect) (e : Expr)
    (hkeeps : ∀ F : World.Field, K.Keeps F ∨ e.Avoids F.readers)
    (hquery : d = .erc20 → K.Keeps .client ∧ K.Keeps .addressBook) :
    (d.evaluate e).Coupled K Eq (d.evaluate e) := by
  -- What is assumed of `e` holds of all that is evaluated on the way, which is of smaller rank.
  let D (x : Expr) : Prop := ∀ F : World.Field, K.Keeps F ∨ x.Avoids F.readers
  rw [Dialect.evaluate]
  refine vocabulary_coupled (D := D) d ?items ?core ?erc20 ?operands ?keeps hquery
  case items =>
    exact fun es hes x hx F => (hes F).imp_right fun h => Expr.avoids_list.mp h x hx
  case core =>
    intro x hx
    dsimp only
    split
    · exact evaluate_coupled .core x hx nofun
    · exact .fail (K.failures_refl _)
  case erc20 =>
    intro _ hclient hbook es hes
    dsimp only
    split
    · refine evaluate_coupled .erc20 (.list es) (fun F => ?_) fun _ => ⟨hclient, hbook⟩
      by_cases hF : K.Keeps F
      · exact .inl hF
      · exact .inr (Expr.avoids_list.mpr fun x hx => (hes x hx F).resolve_left hF)
    · exact .fail (K.failures_refl _)
  case operands =>
    exact fun x hx F => (hkeeps F).imp_right fun h => h.operands x hx
  case keeps =>
    exact fun F hF => (hkeeps F).resolve_right fun h => h.not_headIn hF
termination_by d.rank e

theorem height_le {es : List Expr} {n : Nat} (h : ∀ x ∈ es, x.depth < n) : Expr.height es ≤ n := by
  cases es with
  | nil => exact Nat.zero_le n
  | cons x xs =>
    have hdeepest : Expr.deepest (x :: xs) ≤ n - 1 :=
      Expr.deepest_le_iff.mpr fun y hy => Nat.le_sub_one_of_lt (h y hy)
    have hx := h x (.head _)
    rw [Expr.height]
    omega

theorem rank_operand (d : Dialect) {e x : Expr} (hx : x ∈ e.operands) :
    Dialect.core.rank x < d.rank e := by
  match e with
  | .atom _ => simp [Expr.operands, Vocabulary.split?] at hx
  | .list [] => simp [Expr.operands, Vocabulary.split?] at hx
  | .list (.list _ :: _) => simp [Expr.operands, Vocabulary.split?] at hx
  | .list (.atom name :: es) =>
    have hdepth : x.depth < (Expr.list (.atom name :: es)).depth :=
      Expr.depth_lt_of_mem (.tail _ hx)
    cases d with
    | core =>
      simp only [rank]
      omega
    | erc20 =>
      rw [Expr.depth] at hdepth
      simp only [rank, Expr.height]
      omega

/-- What the vocabulary of a dialect makes of an expression rests on evaluations of smaller rank
only. -/
theorem vocabulary_evaluate_congr (d : Dialect) (e : Expr)
    (hcore : ∀ x, Dialect.core.rank x < d.rank e → core x = core' x)
    (herc20 : ∀ x, Dialect.erc20.rank x < d.rank e → erc20 x = erc20' x) :
    (d.vocabulary core erc20).evaluate e = (d.vocabulary core' erc20').evaluate e := by
  have hkeeps (F : World.Field) : (Comparison.ofWorlds Eq).Keeps F := by
    rintro w _ rfl
    exact F.same_refl w
  refine Action.Coupled.eq ?_
  refine vocabulary_coupled (D := fun x => Dialect.core.rank x < d.rank e) d ?items ?core ?erc20
    (fun x hx => rank_operand d hx) (fun F _ => hkeeps F) fun _ => ⟨hkeeps _, hkeeps _⟩
  case items =>
    intro es hes x hx
    have hdepth := Expr.depth_lt_of_mem hx
    simp only [rank] at hes ⊢
    omega
  case core =>
    intro x hx
    rw [hcore x hx]
    exact .refl _
  case erc20 =>
    -- The queries get the operands as one list, of no larger depth than the expression.
    rintro rfl - - es hes
    have hheight : Expr.height es ≤ e.depth := by
      refine height_le fun x hx => ?_
      have hrank := hes x hx
      simp only [rank] at hrank
      omega
    have hrank : Dialect.erc20.rank (.list es) < Dialect.core.rank e := by
      simp only [rank]
      omega
    rw [herc20 _ hrank]
    exact .refl _

/-- Evaluation stops nowhere short of the operands: it is what the vocabulary of the dialect makes
of the expression. -/
theorem evaluate_eq (d : Dialect) (e : Expr) : d.evaluate e = d.commands.evaluate e := by
  rw [Dialect.evaluate, commands]
  exact vocabulary_evaluate_congr d e (fun _ hx => if_pos hx) fun _ hx => if_pos hx

theorem evaluate_coupled_inWorld (d : Dialect) (e : Expr) (w : World) :
    (d.evaluate e).Coupled (.inWorld w) Eq (d.evaluate e) := by
  have hkeeps := Comparison.inWorld_keeps w
  exact d.evaluate_coupled e (fun F => .inl (hkeeps F)) fun _ => ⟨hkeeps _, hkeeps _⟩

end Dialect

/-- Evaluation leaves the world as it is. -/
theorem evaluate_world (e : Expr) (w : World) : (evaluate e w).2 = w :=
  (Dialect.core.evaluate_coupled_inWorld e w).world_eq

end Scenario
