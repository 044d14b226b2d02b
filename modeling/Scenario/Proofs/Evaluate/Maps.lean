import Scenario.Proofs.Entries
import Scenario.Proofs.Evaluate.Atoms
import Scenario.Proofs.Vocabulary.Namespaces

/-!
# Written maps

`Map` takes its operands as one list of pairs and puts them one after the other. Evaluation leaves
the world as it is, so what a pair comes to can be said of it alone (`pair?`), whatever pairs stand
before it. The pairs are read exactly if each of them comes to something, and the entries are those
that they come to, put in their order (`Operand.readPairs_eq_ok_iff`). This goes through the command
unchanged (`evaluate_map_eq_ok_iff`), so what is said of keys, of repeated keys and of the order of
the pairs follows from what is known of putting entries.
-/

namespace Scenario

/-- The key of a pair. -/
def Expr.key? : Expr → Option String
  | .list [.atom key, _] => some key
  | _ => none

/-- What stands for the value of a pair comes to this in a world: an atom is text, and a list is
evaluated. -/
def pairValue? (w : World) : Expr → Option Value
  | .atom s => some (.text s)
  | .list es => (evaluate (.list es) w).1.toOption

/-- What a pair comes to in a world: its key and its value. -/
def pair? (w : World) : Expr → Option (String × Value)
  | .list [.atom key, value] => (pairValue? w value).map (key, ·)
  | _ => none

variable {w w' : World} {p e whole : Expr} {ps qs : List Expr} {name : String} {v : Value}
  {es es' : Entries Value}

theorem pair?_eq_some_iff {x : String × Value} : pair? w p = some x ↔
    ∃ value, p = .list [.atom x.1, value] ∧ pairValue? w value = some x.2 := by
  constructor
  · intro h
    rw [pair?.eq_def] at h
    split at h
    · obtain ⟨v, hv, rfl⟩ := Option.map_eq_some_iff.mp h
      exact ⟨_, rfl, hv⟩
    · cases h
  · rintro ⟨value, rfl, hv⟩
    rw [pair?, hv]
    rfl

theorem isSome_pair?_iff : (pair? w p).isSome = true ↔
    ∃ key value, p = .list [.atom key, value] ∧ (pairValue? w value).isSome = true := by
  simp only [Option.isSome_iff_exists, pair?_eq_some_iff, Prod.exists]
  constructor
  · rintro ⟨key, v, value, hp, hv⟩
    exact ⟨key, value, hp, v, hv⟩
  · rintro ⟨key, value, hp, v, hv⟩
    exact ⟨key, v, value, hp, hv⟩

/-- A pair that comes to something has the key that is written in it. -/
theorem map_fst_pair? (h : (pair? w p).isSome = true) : (pair? w p).map Prod.fst = p.key? := by
  obtain ⟨key, value, rfl, hv⟩ := isSome_pair?_iff.mp h
  obtain ⟨v, hv⟩ := Option.isSome_iff_exists.mp hv
  rw [pair?, hv]
  rfl

theorem map_fst_filterMap_pair? (h : ∀ p ∈ ps, (pair? w p).isSome = true) :
    (ps.filterMap (pair? w)).map Prod.fst = ps.filterMap Expr.key? := by
  rw [List.map_filterMap]
  exact List.filterMap_congr fun p hp => map_fst_pair? (h p hp)

/-! ## Reading the pairs -/

theorem Operand.pairValue_eq_ok_iff : Operand.pairValue evaluate e w = (.ok v, w') ↔
    w' = w ∧ pairValue? w e = some v := by
  cases e with
  | atom s =>
    simp only [Operand.pairValue, pairValue?, Action.pure_apply, Prod.mk.injEq, Except.ok.injEq,
      Option.some.injEq]
    tauto
  | list es =>
    rw [Operand.pairValue, pairValue?, Prod.ext_iff, evaluate_world, and_comm, eq_comm]
    cases (evaluate (.list es) w).1 <;> simp [Except.toOption]

/-- Pairs are read if each of them comes to something, and this is put in their order. -/
theorem Operand.readPairs_eq_ok_iff : Operand.readPairs evaluate whole ps es w = (.ok es', w') ↔
    w' = w ∧ (∀ p ∈ ps, (pair? w p).isSome = true) ∧
      es' = (ps.filterMap (pair? w)).foldl (fun es x => es.put x.1 x.2) es := by
  fun_induction Operand.readPairs evaluate whole ps es with
  | case1 es =>
    simp [Action.pure_apply]
    tauto
  | case2 key value ps es ih =>
    cases hv : pairValue? w value with
    | none =>
      have hread (x : Value) (w₁ : World) :
          Operand.pairValue evaluate value w ≠ (.ok x, w₁) := by
        simp [pairValue_eq_ok_iff, hv]
      simp [Action.bind_eq_ok_iff, hread, pair?, hv]
    | some x =>
      -- the pairs after this one are read in the same world
      have hread : Operand.pairValue evaluate value w = (.ok x, w) :=
        pairValue_eq_ok_iff.mpr ⟨rfl, hv⟩
      simp [Action.bind_apply, hread, ih x, pair?, hv]
  | case3 p ps es hp =>
    have hnone : pair? w p = none := by
      rw [Option.eq_none_iff_forall_ne_some]
      rintro x hx
      obtain ⟨value, rfl, -⟩ := pair?_eq_some_iff.mp hx
      exact hp _ _ rfl
    simp [Action.fail, hnone]

/-! ## The command -/

theorem exists_map_mem : ∃ c ∈ Dialect.core.commands.commands, c.name = "Map" ∧
    c.params = [{ name := "pairs", reading := Operand.map evaluate, rest := true }] ∧
    c.body = Core.argument "pairs" := by
  simp [Dialect.commands, Dialect.vocabulary, Core.vocabulary, Core.commands, Core.constant,
    Core.deferred, Core.span, evaluate]

theorem Operand.map_eq_ok_iff : Operand.map evaluate (.list ps) w = (.ok v, w') ↔
    w' = w ∧ (∀ p ∈ ps, (pair? w p).isSome = true) ∧
      v = .map (Entries.ofList (ps.filterMap (pair? w))) := by
  rw [Operand.map, Action.map_eq_ok_iff]
  simp only [readPairs_eq_ok_iff, Expr.items]
  constructor
  · rintro ⟨es, ⟨hw, hps, rfl⟩, rfl⟩
    exact ⟨hw, hps, rfl⟩
  · rintro ⟨hw, hps, rfl⟩
    exact ⟨_, ⟨hw, hps, rfl⟩, rfl⟩

theorem evaluate_map_eq_ok_iff (hname : Text.sameFold "Map" name = true) :
    evaluate (.list (.atom name :: ps)) w = (.ok v, w') ↔
      w' = w ∧ (∀ p ∈ ps, (pair? w p).isSome = true) ∧
        v = .map (Entries.ofList (ps.filterMap (pair? w))) := by
  obtain ⟨c, hc, hcname, hparams, hbody⟩ := exists_map_mem
  have hnamed : c.isNamed name = true := by
    rw [Command.isNamed, hcname]
    exact hname
  have hover : Dialect.core.commands.overloads name = [c] :=
    Vocabulary.overloads_eq_singleton (Core.nodup_names _ _ _) hc hnamed
  have hreturns (x : Value) : c.body [("pairs", .one x)] = pure x := by
    rw [hbody]
    rfl
  rw [evaluate, Dialect.evaluate_eq, ← Operand.map_eq_ok_iff]
  exact Vocabulary.evaluate_of_rest_eq_ok_iff hover hparams rfl rfl hreturns

/-! ## The map -/

/-- The entries of a written map: the keys are those of its pairs, each of them once, and a key has
the value of the last pair that it is written in. -/
structure MapOf (w : World) (ps : List Expr) (es : Entries Value) : Prop where
  ascending : es.Ascending
  keys : ∀ key, key ∈ es.map Prod.fst ↔ key ∈ ps.filterMap Expr.key?
  last : ∀ before key value after, ps = before ++ .list [.atom key, value] :: after →
    key ∉ after.filterMap Expr.key? →
    ∃ x, pairValue? w value = some x ∧ es.get? key = some x

theorem mapOf_ofList (h : ∀ p ∈ ps, (pair? w p).isSome = true) :
    MapOf w ps (Entries.ofList (ps.filterMap (pair? w))) where
  ascending := Entries.ascending_ofList _
  keys key := by rw [Entries.mem_keys_ofList, map_fst_filterMap_pair? h]
  last before key value after := by
    rintro rfl hafter
    rw [List.forall_mem_append, List.forall_mem_cons] at h
    obtain ⟨x, hx⟩ := Option.isSome_iff_exists.mp h.2.1
    obtain ⟨_, ⟨⟩, hvalue⟩ := pair?_eq_some_iff.mp hx
    refine ⟨x.2, hvalue, ?_⟩
    rw [List.filterMap_append, List.filterMap_cons_some hx]
    exact Entries.get?_ofList_append (by rwa [map_fst_filterMap_pair? h.2.2])

/-- Pairs of distinct keys make the same map in every order. -/
theorem ofList_pairs_eq_of_perm (hperm : ps.Perm qs)
    (hps : ∀ p ∈ ps, (pair? w p).isSome = true) (h : (ps.filterMap Expr.key?).Nodup) :
    Entries.ofList (ps.filterMap (pair? w)) = Entries.ofList (qs.filterMap (pair? w)) :=
  Entries.ofList_eq_of_perm (hperm.filterMap _) (by rwa [map_fst_filterMap_pair? hps])

/-- A map has a value exactly if its operands are pairs of an atom and something that comes to a
value. The world is then as it was, and the map has the written keys with the values of their last
pairs. Pairs of distinct keys may change places. -/
theorem evaluate_map (hname : Text.sameFold "Map" name = true) (w : World) (ps : List Expr) :
    ((∃ v w', evaluate (.list (.atom name :: ps)) w = (.ok v, w')) ↔
      ∀ p ∈ ps, ∃ key value, p = .list [.atom key, value] ∧
        (pairValue? w value).isSome = true) ∧
    (∀ v w', evaluate (.list (.atom name :: ps)) w = (.ok v, w') →
      w' = w ∧ ∃ es, v = .map es ∧ MapOf w ps es) ∧
    ∀ qs, ps.Perm qs → (ps.filterMap Expr.key?).Nodup → ∀ v w',
      evaluate (.list (.atom name :: ps)) w = (.ok v, w') ↔
        evaluate (.list (.atom name :: qs)) w = (.ok v, w') := by
  simp only [evaluate_map_eq_ok_iff hname, ← isSome_pair?_iff]
  refine ⟨?_, ?_, fun qs hperm hnodup v w' => ?_⟩
  · constructor
    · rintro ⟨v, w', -, hps, -⟩
      exact hps
    · intro hps
      exact ⟨_, _, rfl, hps, rfl⟩
  · rintro v w' ⟨hw, hps, rfl⟩
    exact ⟨hw, _, rfl, mapOf_ofList hps⟩
  · have hall : (∀ p ∈ ps, (pair? w p).isSome = true) ↔ ∀ p ∈ qs, (pair? w p).isSome = true := by
      simp only [hperm.mem_iff]
    rw [← hall]
    refine and_congr_right fun _ => and_congr_right fun hps => ?_
    rw [ofList_pairs_eq_of_perm hperm hps hnodup]

/-- A key that is written twice, a map within the map, and two pairs that change places. -/
theorem evaluate_map_repeated :
    let w := World.offline "test"
    let inner : Expr := .list [.atom "map", .list [.atom "c", .atom "d"]]
    let first : Expr := .list [.atom "b", inner]
    let second : Expr := .list [.atom "a", .atom "x"]
    let third : Expr := .list [.atom "a", .atom "y"]
    Text.sameFold "Map" "MAP" = true ∧
      (∃ es : Entries Value,
        evaluate (.list [.atom "MAP", first, second, third]) w = (.ok (.map es), w) ∧
        (∀ key, key ∈ es.map Prod.fst ↔ key = "b" ∨ key = "a") ∧
        es.get? "a" = some (.text "y") ∧
        es.get? "b" = some (.map [("c", .text "d")])) ∧
      ∀ v w', evaluate (.list [.atom "MAP", first, second]) w = (.ok v, w') ↔
        evaluate (.list [.atom "MAP", second, first]) w = (.ok v, w') := by
  intro w inner first second third
  have hinner : evaluate inner w = (.ok (.map [("c", .text "d")]), w) :=
    (evaluate_map_eq_ok_iff (by decide)).mpr ⟨rfl, by simp [pair?, pairValue?], rfl⟩
  have hname : Text.sameFold "Map" "MAP" = true := by decide
  have hvalue : pairValue? w inner = some (.map [("c", .text "d")]) := by
    simp only [inner, pairValue?, hinner, Except.toOption]
  obtain ⟨hok, hmap, -⟩ := evaluate_map hname w [first, second, third]
  obtain ⟨-, -, hperm⟩ := evaluate_map hname w [first, second]
  refine ⟨hname, ?_, hperm _ (.swap _ _ _) (by decide)⟩
  obtain ⟨v, w', heval⟩ : ∃ v w',
      evaluate (.list [.atom "MAP", first, second, third]) w = (.ok v, w') := by
    rw [hok, List.forall_mem_cons, List.forall_mem_cons, List.forall_mem_singleton]
    exact ⟨⟨_, _, rfl, Option.isSome_of_eq_some hvalue⟩, ⟨_, _, rfl, rfl⟩, ⟨_, _, rfl, rfl⟩⟩
  obtain ⟨rfl, es, rfl, hes⟩ := hmap v w' heval
  refine ⟨es, heval, fun key => ?_, ?_, ?_⟩
  · rw [hes.keys]
    simp [Expr.key?, first, second, third]
  · obtain ⟨x, ⟨⟩, hget⟩ := hes.last [first, second] "a" (.atom "y") [] rfl (by decide)
    exact hget
  · obtain ⟨x, hx, hget⟩ := hes.last [] "b" inner [second, third] rfl (by decide)
    rw [hvalue] at hx
    cases hx
    exact hget

end Scenario
