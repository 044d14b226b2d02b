import Scenario.Proofs.Action
import Scenario.Proofs.Entries
import Scenario.Vocabulary

/-!
# What each parameter gets

A command without faults gives each of its parameters a share of the operands: one operand,
all that remain, or none, in which case its default stands in. `Distributed` is that
distribution as it is made, parameter by parameter; `exists_distributed` says that a number of
operands that fits the command's arity can always be distributed, and `Distributed.share?`
says in closed form who gets what.

`Distributed.bindParams_eq` then makes of binding a row of readings, one for each share. What
the arguments hold (`bind_yields`) and where a failure comes from follow from it.
-/

namespace Scenario

/-- What a parameter gets of the operands. -/
inductive Share where
  | operand (e : Expr)
  | rest (es : List Expr)
  /-- No operand, but the default of the parameter. -/
  | absent (default : Value)

namespace Share

/-- The operands in a share. -/
def operands : Share → List Expr
  | operand e => [e]
  | rest es => es
  | absent _ => []

/-- The argument that a parameter makes of an expression, or with `each` of its items. -/
def readWhole (p : Param) (whole : Expr) (items : List Expr) : Action Argument :=
  if p.each then .several <$> items.mapM p.reading else .one <$> p.reading whole

/-- The argument that a parameter makes of its share. An atom is its own only item, and remaining
operands are one list of them. -/
def read (p : Param) : Share → Action Argument
  | operand (.atom s) => readWhole p (.atom s) [.atom s]
  | operand (.list es) => readWhole p (.list es) es
  | rest es => readWhole p (.list es) es
  | absent v => pure (.one v)

end Share

/-- The share of the parameter in place `i`, when the command has so many `positional` parameters
before its `rest`: the operands past those, or the operand in its own place, or its default. -/
def Param.share? (p : Param) (positional : Nat) (operands : List Expr) (i : Nat) : Option Share :=
  if p.rest then some (.rest (operands.drop positional))
  else
    match operands[i]? with
    | some e => some (.operand e)
    | none => p.default?.map .absent

namespace Command

/-- How many parameters of the command take one operand at most. -/
def positional (c : Command) : Nat :=
  c.params.countP (!Param.rest ·)

/-- Operands given out to parameters from left to right. -/
inductive Distributed : List Param → List Expr → List Share → Prop where
  | nil : Distributed [] [] []
  | rest {p : Param} (hp : p.rest = true) (es : List Expr) : Distributed [p] es [.rest es]
  | operand {p : Param} {ps : List Param} {es : List Expr} {ss : List Share}
      (hp : p.rest = false) (e : Expr) (h : Distributed ps es ss) :
      Distributed (p :: ps) (e :: es) (.operand e :: ss)
  | absent {p : Param} {ps : List Param} {ss : List Share} {v : Value}
      (hp : p.rest = false) (hv : p.default? = some v) (h : Distributed ps [] ss) :
      Distributed (p :: ps) [] (.absent v :: ss)

/-! ## Parameters without faults -/

theorem paramFault?_cons_eq_none {seen : List String} {defaulted : Bool} {p : Param}
    {ps : List Param} (h : paramFault? seen defaulted (p :: ps) = none) :
    p.name ∉ seen ∧ (p.rest = true → ps = []) ∧ (defaulted = true → p.required = false) ∧
      paramFault? (p.name :: seen) (defaulted || p.default?.isSome) ps = none := by
  simp only [paramFault?] at h
  split at h
  · cases h
  · split at h
    · cases h
    · split at h
      · cases h
      · split at h
        · cases h
        · rename_i hseen hrest _ hreq
          exact ⟨by simpa using hseen, by simpa using hrest, by simpa using hreq, h⟩

/-- Past a default no parameter needs an operand. -/
theorem countP_required_of_defaulted {seen : List String} {ps : List Param}
    (h : paramFault? seen true ps = none) : ps.countP Param.required = 0 := by
  induction ps generalizing seen with
  | nil => rfl
  | cons p ps ih =>
    obtain ⟨-, -, hreq, hps⟩ := paramFault?_cons_eq_none h
    rw [Bool.true_or] at hps
    rw [List.countP_cons_of_neg (by simp [hreq rfl]), ih hps]

theorem names_nodup {seen : List String} {defaulted : Bool} {ps : List Param}
    (h : paramFault? seen defaulted ps = none) :
    (ps.map Param.name).Nodup ∧ ∀ n ∈ seen, n ∉ ps.map Param.name := by
  induction ps generalizing seen defaulted with
  | nil => simp
  | cons p ps ih =>
    obtain ⟨hp, -, -, hps⟩ := paramFault?_cons_eq_none h
    obtain ⟨hnodup, hseen⟩ := ih hps
    rw [List.forall_mem_cons] at hseen
    refine ⟨List.nodup_cons.mpr ⟨hseen.1, hnodup⟩, fun n hn => ?_⟩
    rw [List.map_cons, List.mem_cons, not_or]
    exact ⟨fun e => hp (e ▸ hn), hseen.2 n hn⟩

/-! ## Distributing operands -/

theorem exists_distributed {seen : List String} {defaulted : Bool} {ps : List Param}
    (h : paramFault? seen defaulted ps = none) {es : List Expr}
    (hleast : ps.countP Param.required ≤ es.length)
    (hmost : ps.any Param.rest = true ∨ es.length ≤ ps.countP (!Param.rest ·)) :
    ∃ ss, Distributed ps es ss := by
  induction ps generalizing seen defaulted es with
  | nil =>
    obtain rfl : es = [] := by simpa using hmost
    exact ⟨[], .nil⟩
  | cons p ps ih =>
    obtain ⟨-, hlast, -, hps⟩ := paramFault?_cons_eq_none h
    cases hp : p.rest with
    | true =>
      obtain rfl := hlast hp
      exact ⟨[.rest es], .rest hp es⟩
    | false =>
      rw [List.any_cons, hp, Bool.false_or, List.countP_cons_of_pos (by simp [hp])] at hmost
      cases hd : p.default? with
      | none =>
        -- A parameter that needs an operand gets the next one.
        rw [List.countP_cons_of_pos (by simp [Param.required, hp, hd])] at hleast
        cases es with
        | nil => simp at hleast
        | cons e es =>
          obtain ⟨ss, hss⟩ := ih hps (by simpa using hleast) (by simpa using hmost)
          exact ⟨.operand e :: ss, .operand hp e hss⟩
      | some v =>
        -- Nor does any parameter after a default need one, so none can be lacking.
        rw [hd, Option.isSome_some, Bool.or_true] at hps
        have hreq := countP_required_of_defaulted hps
        cases es with
        | nil =>
          have hnone : ps.countP Param.required ≤ ([] : List Expr).length := by simp [hreq]
          obtain ⟨ss, hss⟩ := ih hps hnone (by simp)
          exact ⟨.absent v :: ss, .absent hp hd hss⟩
        | cons e es =>
          obtain ⟨ss, hss⟩ := ih hps (by simp [hreq]) (by simpa using hmost)
          exact ⟨.operand e :: ss, .operand hp e hss⟩

namespace Distributed

variable {ps : List Param} {es : List Expr} {ss : List Share}

theorem length_eq (h : Distributed ps es ss) : ss.length = ps.length := by
  induction h with
  | nil => rfl
  | rest hp es => rfl
  | operand hp e _ ih => simp [ih]
  | absent hp hv _ ih => simp [ih]

/-- Every operand is in one share, and the shares keep the operands in order. -/
theorem flatMap_operands (h : Distributed ps es ss) : ss.flatMap Share.operands = es := by
  induction h with
  | nil => rfl
  | rest hp es => simp [Share.operands]
  | operand hp e _ ih => simp [Share.operands, ih]
  | absent hp hv _ ih => simp [Share.operands, ih]

theorem share? (h : Distributed ps es ss) {i : Nat} {p : Param} (hi : ps[i]? = some p) :
    ss[i]? = p.share? (ps.countP (!Param.rest ·)) es i := by
  induction h generalizing i with
  | nil => simp at hi
  | rest hq es =>
    cases i with
    | zero =>
      obtain rfl : _ = p := by simpa using hi
      simp [Param.share?, hq]
    | succ i => simp at hi
  | operand hq e _ ih =>
    rw [List.countP_cons_of_pos (by simp [hq])]
    cases i with
    | zero =>
      obtain rfl : _ = p := by simpa using hi
      simp [Param.share?, hq]
    | succ i =>
      rw [List.getElem?_cons_succ] at hi
      simp [ih hi, Param.share?]
  | absent hq hv _ ih =>
    rw [List.countP_cons_of_pos (by simp [hq])]
    cases i with
    | zero =>
      obtain rfl : _ = p := by simpa using hi
      simp [Param.share?, hq, hv]
    | succ i =>
      rw [List.getElem?_cons_succ] at hi
      simp [ih hi, Param.share?]

end Distributed

/-! ## Binding as a row of readings -/

theorem readEach_eq_mapM (reading : Reading) (es : List Expr) :
    readEach reading es = es.mapM reading := by
  induction es with
  | nil => rw [readEach, List.mapM_nil]
  | cons e es ih => rw [readEach, List.mapM_cons, ih]

theorem readOne_eq_read (p : Param) (e : Expr) : readOne p e = (Share.operand e).read p := by
  cases e <;> rw [readOne, readEach_eq_mapM] <;> rfl

theorem readRest_eq_read (p : Param) (es : List Expr) :
    readRest p es = (Share.rest es).read p := by
  rw [readRest, readEach_eq_mapM]
  rfl

/-- The arguments that a row of parameters makes of their shares, in order. -/
def readShares (ps : List Param) (ss : List Share) : Action (List Argument) :=
  (ps.zip ss).mapM fun (p, s) => s.read p

theorem readShares_cons (p : Param) (ps : List Param) (s : Share) (ss : List Share) :
    readShares (p :: ps) (s :: ss) = do
      let a ← s.read p
      let as ← readShares ps ss
      return a :: as := by
  rw [readShares, List.zip_cons_cons, List.mapM_cons]
  rfl

theorem Distributed.bindParams_eq {ps : List Param} {es : List Expr} {ss : List Share}
    (h : Distributed ps es ss) (args : Arguments) :
    bindParams ps es args =
      (fun as => ((ps.map Param.name).zip as).foldl (fun args x => args.put x.1 x.2) args) <$>
        readShares ps ss := by
  induction h generalizing args with
  | nil => simp [bindParams, readShares]
  | rest hp es =>
    simp [bindParams, hp, readRest_eq_read, readShares]
  | operand hp e _ ih =>
    simp [bindParams, hp, readOne_eq_read, readShares_cons, ih, map_bind]
  | absent hp hv _ ih =>
    simp [bindParams, hp, hv, readShares_cons, Share.read, ih]

end Command

/-! ## What the arguments hold -/

/-- Whether all values of an argument satisfy `P`; several of them are for a parameter with `each`
only. -/
def Param.Holds (p : Param) (P : Value → Prop) : Argument → Prop
  | .one v => P v
  | .several vs => p.each = true ∧ ∀ v ∈ vs, P v

/-- Whether each of a row of parameters has an argument under its name, with values that satisfy
`P` of that parameter. -/
def Arguments.Hold (args : Arguments) (ps : List Param) (P : Param → Value → Prop) : Prop :=
  ∀ p ∈ ps, ∃ a, args.get? p.name = some a ∧ p.Holds (P p) a

theorem Share.readWhole_yields {p : Param} {P : Value → Prop} {Q : Failure → Prop}
    (h : ∀ e, (p.reading e).Yields P Q) (whole : Expr) (items : List Expr) :
    (readWhole p whole items).Yields (p.Holds P) Q := by
  rw [readWhole]
  split
  · rename_i heach
    have hitems : (items.mapM p.reading).Yields (fun vs => ∀ v ∈ vs, P v) Q :=
      .mapM_all fun e _ => h e
    exact .map (hitems.mono (fun vs hvs => ⟨heach, hvs⟩) fun _ hq => hq)
  · exact .map (h whole)

theorem Share.read_yields {p : Param} {P : Value → Prop} {Q : Failure → Prop}
    (h : ∀ e, (p.reading e).Yields P Q) {s : Share} (hs : ∀ v, s = .absent v → P v) :
    (s.read p).Yields (p.Holds P) Q := by
  unfold Share.read
  split
  · exact readWhole_yields h _ _
  · exact readWhole_yields h _ _
  · exact readWhole_yields h _ _
  · exact .pure (hs _ rfl)

namespace Command

theorem Distributed.readShares_yields {P : Param → Value → Prop} {Q : Failure → Prop}
    {ps : List Param} {es : List Expr} {ss : List Share} (h : Distributed ps es ss)
    (hread : ∀ p ∈ ps, ∀ e, (p.reading e).Yields (P p) Q)
    (hdefault : ∀ p ∈ ps, ∀ v, p.default? = some v → P p v) :
    (readShares ps ss).Yields (List.Forall₂ (fun p a => p.Holds (P p) a) ps) Q := by
  induction h with
  | nil => exact .pure .nil
  | rest hp es =>
    rw [List.forall_mem_cons] at hread
    rw [readShares_cons]
    exact (Share.read_yields hread.1 (by simp)).bind fun a ha => .pure (.cons ha .nil)
  | operand hp e _ ih =>
    rw [List.forall_mem_cons] at hread hdefault
    rw [readShares_cons]
    exact (Share.read_yields hread.1 (by simp)).bind fun a ha =>
      (ih hread.2 hdefault.2).bind fun as has => .pure (.cons ha has)
  | absent hp hv _ ih =>
    rw [List.forall_mem_cons] at hread hdefault
    rw [readShares_cons]
    refine (Share.read_yields hread.1 ?_).bind fun a ha =>
      (ih hread.2 hdefault.2).bind fun as has => .pure (.cons ha has)
    intro v' hv'
    cases hv'
    exact hdefault.1 _ hv

theorem exists_mem_zip_of_forall₂ {R : Param → Argument → Prop} {ps : List Param}
    {as : List Argument} (h : List.Forall₂ R ps as) {p : Param} (hp : p ∈ ps) :
    ∃ a, (p.name, a) ∈ (ps.map Param.name).zip as ∧ R p a := by
  induction h with
  | nil => cases hp
  | cons hr _ ih =>
    rcases List.mem_cons.mp hp with rfl | hp
    · exact ⟨_, .head _, hr⟩
    · obtain ⟨a, hm, ha⟩ := ih hp
      exact ⟨a, .tail _ hm, ha⟩

theorem paramFault?_of_fault? {c : Command} (hc : c.fault? = none) :
    paramFault? [] false c.params = none := by
  rw [fault?] at hc
  split at hc
  · cases hc
  · exact hc

theorem exists_distributed_of_fits {c : Command} (hc : c.fault? = none) {operands : List Expr}
    (hfit : c.arity.fits operands.length = true) : ∃ ss, Distributed c.params operands ss := by
  rw [Arity.fits, Bool.and_eq_true, decide_eq_true_eq] at hfit
  refine exists_distributed (paramFault?_of_fault? hc) hfit.1 ?_
  by_cases hrest : c.params.any Param.rest = true
  · exact .inl hrest
  · exact .inr (by simpa [arity, hrest] using hfit.2)

theorem bind_of_not_fits {c : Command} {operands : List Expr}
    (hfit : c.arity.fits operands.length = false) :
    c.bind operands = .fail (.arity c.arity operands.length) := by
  rw [bind, if_neg (by simp [hfit])]

theorem Distributed.bind_eq {c : Command} {operands : List Expr} {ss : List Share}
    (h : Distributed c.params operands ss) (hfit : c.arity.fits operands.length = true) :
    c.bind operands =
      (fun as => Entries.ofList ((c.params.map Param.name).zip as)) <$> readShares c.params ss := by
  rw [bind, if_pos hfit, h.bindParams_eq]
  rfl

theorem Distributed.length_readShares {ps : List Param} {es : List Expr} {ss : List Share}
    (h : Distributed ps es ss) {w w' : World} {as : List Argument}
    (hr : readShares ps ss w = (.ok as, w')) : as.length = ps.length := by
  have hall : (readShares ps ss).Yields (List.Forall₂ (fun _ _ => True) (ps.zip ss))
      fun _ => True := .mapM fun _ _ => ⟨fun _ => trivial, fun _ => trivial⟩
  rw [← (hall.result hr).length_eq, List.length_zip, h.length_eq, Nat.min_self]

/-- A command whose only parameter takes the rest takes any number of operands. -/
theorem bind_readRest {c : Command} {p : Param} (hc : c.params = [p]) (hrest : p.rest = true)
    (es : List Expr) : c.bind es = (fun a => [(p.name, a)]) <$> readRest p es := by
  have hfit : c.arity.fits es.length = true := by
    simp [arity, hc, hrest, Arity.fits, Param.required]
  rw [bind, if_pos hfit, hc]
  simp only [bindParams, hrest, if_true, bind_pure_comp]
  rfl

/-- Every parameter of a command finds its argument under its name, read the way it says. -/
theorem bind_yields {c : Command} (hc : c.fault? = none) {operands : List Expr}
    (hfit : c.arity.fits operands.length = true) {P : Param → Value → Prop} {Q : Failure → Prop}
    (hread : ∀ p ∈ c.params, ∀ e, (p.reading e).Yields (P p) Q)
    (hdefault : ∀ p ∈ c.params, ∀ v, p.default? = some v → P p v) :
    (c.bind operands).Yields (fun args => args.Hold c.params P) Q := by
  obtain ⟨ss, hss⟩ := exists_distributed_of_fits hc hfit
  rw [hss.bind_eq hfit]
  refine .map ((hss.readShares_yields hread hdefault).mono (fun as has p hp => ?_) fun _ hq => hq)
  obtain ⟨a, hm, ha⟩ := exists_mem_zip_of_forall₂ has hp
  refine ⟨a, Entries.get?_ofList ?_ hm, ha⟩
  rw [List.map_fst_zip (by simp [has.length_eq])]
  exact (names_nodup (paramFault?_of_fault? hc)).1

/-! ## No operand is lost, and no parameter goes without -/

/-- What binding makes of operands that the parameters of a command share. -/
structure Shared (c : Command) (operands : List Expr) (ss : List Share) : Prop where
  length_eq : ss.length = c.params.length
  share_eq : ∀ (i : Nat) (p : Param), c.params[i]? = some p →
    ss[i]? = p.share? c.positional operands i
  /-- Every operand is in one share, and the shares keep the operands in order. -/
  operands_eq : ss.flatMap Share.operands = operands
  /-- The arguments are what was read from the shares, one after the other, each under the name
  of its parameter. -/
  arguments : ∀ w w' args, c.bind operands w = (.ok args, w') →
    ∃ as, readShares c.params ss w = (.ok as, w') ∧ as.length = c.params.length ∧
      args.Perm ((c.params.map Param.name).zip as)
  /-- A failure is one of reading the shares, where it is that of a parameter's own reading. -/
  failure : ∀ w w' f, c.bind operands w = (.error f, w') →
    readShares c.params ss w = (.error f, w') ∧
      ∃ p ∈ c.params, ∃ e w₁ w₂, p.reading e w₁ = (.error f, w₂)

theorem bind_failure_of_reading {c : Command} (hc : c.fault? = none) {operands : List Expr}
    (hfit : c.arity.fits operands.length = true) {w w' : World} {f : Failure}
    (h : c.bind operands w = (.error f, w')) :
    ∃ p ∈ c.params, ∃ e w₁ w₂, p.reading e w₁ = (.error f, w₂) := by
  have hread (p : Param) (hp : p ∈ c.params) (e : Expr) :
      (p.reading e).Yields (fun _ => True)
        fun f => ∃ p ∈ c.params, ∃ e w₁ w₂, p.reading e w₁ = (.error f, w₂) :=
    ⟨fun _ => trivial, fun hr => ⟨p, hp, e, _, _, hr⟩⟩
  exact (bind_yields hc hfit hread fun _ _ _ _ => trivial).failure h

theorem exists_shared {c : Command} (hc : c.fault? = none) {operands : List Expr}
    (hfit : c.arity.fits operands.length = true) : ∃ ss, c.Shared operands ss := by
  obtain ⟨ss, hss⟩ := exists_distributed_of_fits hc hfit
  refine ⟨ss, hss.length_eq, fun i p => hss.share?, hss.flatMap_operands, ?_, ?_⟩
  · intro w w' args h
    rw [hss.bind_eq hfit] at h
    obtain ⟨as, has, rfl⟩ := Action.map_eq_ok_iff.mp h
    have hlen := hss.length_readShares has
    refine ⟨as, has, hlen, Entries.ofList_perm ?_⟩
    rw [List.map_fst_zip (by simp [hlen])]
    exact (names_nodup (paramFault?_of_fault? hc)).1
  · intro w w' f h
    refine ⟨?_, bind_failure_of_reading hc hfit h⟩
    rw [hss.bind_eq hfit] at h
    exact Action.map_eq_error_iff.mp h

theorem bind_ok_iff_fits {c : Command} (hc : c.fault? = none) {operands : List Expr}
    (hread : ∀ p ∈ c.params, ∀ e w, ∃ x w', p.reading e w = (.ok x, w')) (w : World) :
    (∃ args w', c.bind operands w = (.ok args, w')) ↔
      c.arity.fits operands.length = true := by
  cases hfit : c.arity.fits operands.length with
  | false =>
    rw [bind_of_not_fits hfit]
    simp [Action.fail]
  | true =>
    rcases h : c.bind operands w with ⟨f | args, w'⟩
    · obtain ⟨p, hp, e, w₁, w₂, hr⟩ := bind_failure_of_reading hc hfit h
      obtain ⟨x, w₃, hx⟩ := hread p hp e w₁
      rw [hx] at hr
      cases hr
    · simp

end Command

namespace Vocabulary

theorem build_of_fault? {name : String} {cs : List Command} (h : fault? name cs = none) :
    build name cs = .ok ⟨name, cs, faultless_of_fault? h⟩ := by
  unfold build
  split
  · rename_i h'
    rw [h] at h'
    cases h'
  · rfl

theorem faultless_of_build {name : String} {cs : List Command} {v : Vocabulary}
    (h : build name cs = .ok v) : ∀ c ∈ cs, c.fault? = none := by
  unfold build at h
  split at h
  · cases h
  · exact faultless_of_fault? ‹_›

end Vocabulary

/-- A command of a vocabulary turns down a number of operands outside its arity before it reads
any of them. Otherwise each parameter gets its own share of the operands and its argument is
read from that share, so that only the parameters' readings can fail. -/
theorem Command.bind_shares {name : String} {cs : List Command} {v : Vocabulary}
    (hv : Vocabulary.build name cs = .ok v) {c : Command} (hc : c ∈ cs) (operands : List Expr) :
    (c.arity.fits operands.length = false →
      ∀ w, c.bind operands w = (.error (.arity c.arity operands.length), w)) ∧
    (c.params.map Param.name).Nodup ∧
    (c.arity.fits operands.length = true → ∃ ss, c.Shared operands ss) ∧
    ((∀ p ∈ c.params, ∀ e w, ∃ x w', p.reading e w = (.ok x, w')) →
      ∀ w, (∃ args w', c.bind operands w = (.ok args, w')) ↔
        c.arity.fits operands.length = true) := by
  have hfault := Vocabulary.faultless_of_build hv c hc
  refine ⟨fun hfit w => ?_, ?_, exists_shared hfault, bind_ok_iff_fits hfault⟩
  · rw [bind_of_not_fits hfit]
    rfl
  · exact (names_nodup (paramFault?_of_fault? hfault)).1

theorem Command.bind_shares_transfer :
    let echo : Reading := fun e => pure (.text e.text)
    let c : Command := {
      name := "Transfer"
      params := [
        { name := "to", reading := echo },
        { name := "notes", reading := echo, each := true },
        { name := "gas", reading := echo, default? := some (.number ⟨0, 0⟩) },
        { name := "more", reading := echo, rest := true }]
      body := fun _ => pure .nothing }
    let operands : List Expr := [.atom "Alice", .list [.atom "a", .atom "b"]]
    c.bind [] (World.offline "test") = (.error (.arity ⟨2, none⟩ 0), World.offline "test") ∧
      (∃ ss, c.Shared operands ss) ∧
      ∃ args w', c.bind operands (World.offline "test") = (.ok args, w') := by
  intro echo c operands
  have hv := Vocabulary.build_of_fault? (show Vocabulary.fault? "Token" [c] = none by decide)
  have hshares := bind_shares hv (List.mem_singleton_self c)
  have hread : ∀ p ∈ c.params, ∀ e w, ∃ x w', p.reading e w = (.ok x, w') := by
    intro p hp e w
    simp only [c, List.mem_cons, List.not_mem_nil, or_false] at hp
    rcases hp with rfl | rfl | rfl | rfl <;> exact ⟨_, _, rfl⟩
  exact ⟨(hshares []).1 (by decide) _, (hshares operands).2.2.1 (by decide),
    ((hshares operands).2.2.2 hread _).mpr (by decide)⟩

end Scenario
