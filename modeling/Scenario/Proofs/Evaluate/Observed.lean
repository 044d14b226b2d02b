import Scenario.Evaluate
import Scenario.Proofs.Value.Limits

/-!
# Evaluation under observation

An observer sees the numbers that come up in an evaluation, and every scale that is computed in it:
of a product, of a power of ten, the distance between two scales, the count of digits and the
position to which a number is rounded. It answers with the scale that is used from there on, so it
can as well stand for arithmetic of a limited width, which wraps around or stops. What it does can
also change the world or fail, so that it shows whether an observer acts at all.

`Observer.evaluate` is evaluation with the commands that compute with numbers replaced by their
observed form (`Observer.body?`). It does what evaluation does as long as the observer lets pass
what it is shown: `Observer.Quiet` says so of all that is within given limits, and the lemmas after
it, one for each operation, that a quiet observer makes no difference to operands within them.

The numbers that `Equal` makes for a moment, by rounding both sides to the same figures, are shown
apart from the others and together with what they are rounded from: the fewer the figures, the
further below the scale of the number is that of its rounding.
-/

namespace Scenario

/-- What is done with each number that comes up, and which scale is used for each that is
computed. -/
structure Observer where
  number : Decimal → Action Unit
  scale : Int → Action Int
  /-- What is done with a number and its rounding to significant figures. -/
  rounded : Decimal → Decimal → Action Unit

namespace Observer

variable (o : Observer)

/-! ## Observed arithmetic -/

/-- A number, once it is shown. -/
def shown (n : Decimal) : Action Decimal := do
  o.number n
  return n

/-- The product. -/
def mul (a b : Decimal) : Action Decimal := do
  let s ← o.scale (a.scale + b.scale)
  o.shown ⟨a.int * b.int, s⟩

/-- The number times ten to the power `k`. -/
def scaledBy (n : Decimal) (k : Nat) : Action Decimal := do
  let s ← o.scale (-k)
  o.mul n (← o.shown ⟨1, s⟩)

/-- The integer that stands for `n` at the scale `s`. -/
def intAt (n : Decimal) (s : Int) : Action Int := do
  let d ← o.scale (s - n.scale)
  return n.int * Decimal.power d.toNat

/-- The sum. -/
def add (a b : Decimal) : Action Decimal := do
  let s := max a.scale b.scale
  let i ← o.intAt a s
  let j ← o.intAt b s
  o.shown ⟨i + j, s⟩

/-- Rounds to the scale `s`; what the rounding is for says how it is shown. -/
def roundTo (n : Decimal) (s : Int) : Action Decimal :=
  if n.scale ≤ s then return n
  else do
    let d ← o.scale (n.scale - s)
    return ⟨Decimal.nearest n.int (Decimal.power d.toNat), s⟩

/-- Rounds to a whole number. -/
def roundWhole (n : Decimal) : Action Decimal := do
  o.shown (← o.roundTo n 0)

/-- A rounding of `n` to figures, once it is shown. -/
def roundingShown (n r : Decimal) : Action Decimal := do
  o.rounded n r
  return r

/-- Rounds to `k` significant figures. -/
def roundFigures (n : Decimal) (k : Nat) : Action Decimal :=
  if n.isZero || k == 0 then o.roundingShown n (.ofInt 0)
  else do
    let digits ← o.scale n.digits.length
    let surplus ← o.scale (digits - k)
    let s ← o.scale (n.scale - surplus)
    o.roundingShown n (← o.roundTo n s)

/-- Whether two decimals are the same number. -/
def same (a b : Decimal) : Action Bool :=
  if a.scale ≤ b.scale then do
    let d ← o.scale (b.scale - a.scale)
    return Decimal.shiftsTo a.int d.toNat b.int
  else do
    let d ← o.scale (a.scale - b.scale)
    return Decimal.shiftsTo b.int d.toNat a.int

/-- Whether two numbers round to the same number at `k` significant figures. -/
def agreesTo (k : Nat) (v w : Decimal) : Action Bool := do
  let v' ← o.roundFigures v k
  let w' ← o.roundFigures w k
  o.same v' w'

/-- Whether there is a decimal, and a comparison with it succeeds. -/
def any (v? : Option Decimal) (compare : Decimal → Action Bool) : Action Bool :=
  match v? with
  | some v => compare v
  | none => return false

mutual

/-- Whether two values agree. -/
def agrees : Value → Value → Action Bool
  | .anything, _ => return true
  | _, .anything => return true
  | .nothing, _ => return false
  | _, .nothing => return false
  | .precise v n, .precise w m => o.agreesTo (min n m) v w
  | .precise v n, b => any b.number? (o.agreesTo n v)
  | a, .precise w m => any a.number? (o.agreesTo m w)
  | .bool x, .bool y => return x == y
  | .text x, .text y => return x == y
  | .address x, .address y => return Text.sameFold x y
  | .list xs, .list ys => agreeItems xs ys
  | .map xs, .map ys => agreeEntries xs ys
  | .event x, .event y => return x == y
  | a, b => any a.number? fun v => any b.number? (o.same v)

/-- Whether two rows of values agree one by one. -/
def agreeItems : List Value → List Value → Action Bool
  | [], [] => return true
  | x :: xs, y :: ys => do if ← agrees x y then agreeItems xs ys else return false
  | _, _ => return false

/-- Whether two rows of entries have the same keys, with values that agree. -/
def agreeEntries : List (String × Value) → List (String × Value) → Action Bool
  | [], [] => return true
  | (k, x) :: xs, (l, y) :: ys =>
    if k == l then do if ← agrees x y then agreeEntries xs ys else return false
    else return false
  | _, _ => return false

end

/-! ## Observed commands -/

/-- The number of a parameter. -/
def operand (args : Arguments) (name : String) : Action Decimal := do
  o.shown (← .ofExcept (args.number name))

/-- A number multiplied by the fixed-point scale of the world. -/
def scaledNumber (core : Reading) (e : Expr) : Action Decimal := do
  let v ← Operand.number core e
  let n ← o.shown (← .ofExcept (Operand.content e v))
  o.scaledBy n (← Action.world).mantissaDecimals

/-- A number of either sign. -/
def negated (core : Reading) (e : Expr) : Action Value := do
  let v ← Operand.number core e
  let n ← o.shown (← .ofExcept (Operand.content e v))
  return .number (← o.shown n.neg)

/-- A span of time in whole seconds. -/
def span (param : String) (unit : Nat) (args : Arguments) : Action Value := do
  let n ← o.operand args param
  let product ← o.mul n (← o.shown (.ofInt unit))
  return .number (← o.roundWhole product)

/-- The unix time so many seconds from now. -/
def fromNow (args : Arguments) : Action Value := do
  let n ← o.operand args "seconds"
  let sum ← o.add n (← o.shown (.ofInt (← Action.world).now))
  return .number (← o.roundWhole sum)

/-- Whether the two arguments agree. -/
def equal (args : Arguments) : Action Value := do
  let given ← .ofExcept (args.value "given")
  let expected ← .ofExcept (args.value "expected")
  return .bool (← o.agrees expected given)

/-- The observed bodies of the core commands that compute with numbers. -/
def body? (core : Reading) : String → Option (Arguments → Action Value)
  | "Exp" => some fun args => do .scaled <$> o.scaledNumber core (← .ofExcept (args.event "amt"))
  | "Percent" => some fun args => do
    .percent <$> o.scaledNumber core (← .ofExcept (args.event "amt"))
  | "Neg" => some fun args => do o.negated core (← .ofExcept (args.event "amt"))
  | "Minutes" => some (o.span "minutes" 60)
  | "Hours" => some (o.span "hours" 3600)
  | "Days" => some (o.span "days" 86400)
  | "Weeks" => some (o.span "weeks" 604800)
  | "Years" => some (o.span "years" 31536000)
  | "FromNow" => some o.fromNow
  | "Equal" => some o.equal
  | _ => none

/-- A core command with its body observed. -/
def command (core : Reading) (c : Command) : Command :=
  { c with body := (o.body? core c.name).getD c.body }

theorem command_faultless (core erc20 : Reading) :
    ∀ c ∈ (Dialect.core.vocabulary core erc20).commands.map (o.command core),
      c.fault? = none := by
  rw [List.forall_mem_map]
  exact (Dialect.core.vocabulary core erc20).faultless

/-- The vocabulary of a dialect with the core commands observed. -/
def vocabulary (core erc20 : Reading) : Dialect → Vocabulary
  | .core => ⟨"Core", _, o.command_faultless core erc20⟩
  | .erc20 => Dialect.erc20.vocabulary core erc20

/-- A value, once all numbers in it are shown. -/
def valueShown (v : Value) : Action Value := do
  v.numbers.forM o.number
  return v

/-- Evaluates an expression in a dialect. Each value is shown, those of nested evaluations
included. -/
def evaluate (d : Dialect) (e : Expr) : Action Value :=
  let within (d' : Dialect) : Reading := fun e' =>
    if d'.rank e' < d.rank e then evaluate d' e' else .fail (.headless d'.name e')
  do o.valueShown (← (o.vocabulary (within .core) (within .erc20) d).evaluate e)
termination_by d.rank e

/-! ## Observers that let pass what is within limits -/

/-- An observer that does nothing with numbers within limits and with their roundings to figures,
and uses the scales as they are up to the reach of these. -/
structure Quiet (l : Limits) : Prop where
  number : ∀ n : Decimal, n.Within l → o.number n = pure ()
  scale : ∀ k : Int, k.natAbs ≤ l.reach → o.scale k = pure k
  rounded : ∀ (n : Decimal) (k : Nat), n.Within l → o.rounded n (n.roundFigures k) = pure ()

namespace Quiet

variable {o} {l L : Limits} {n v w : Decimal} (h : o.Quiet L)
include h

theorem shown_eq (hn : n.Within L) : o.shown n = pure n := by
  rw [shown, h.number n hn, pure_bind]

theorem mul_ofInt_eq (hn : n.Within L) {u : Int} (hprod : (n.mul (.ofInt u)).Within L) :
    o.mul n (.ofInt u) = pure (n.mul (.ofInt u)) := by
  have hlow := hn.low
  have hhigh := hn.high
  have hscale : (n.scale + (Decimal.ofInt u).scale).natAbs ≤ L.reach := by
    simp only [Decimal.ofInt, Limits.reach]
    omega
  rw [mul, h.scale _ hscale, pure_bind]
  exact h.shown_eq hprod

theorem scaledBy_eq {m : Nat} (hl : l.grown m ≤ L) (hn : n.Within l) :
    o.scaledBy n m = pure (n.scaledBy m) := by
  have hlow := hn.low
  have hhigh := hn.high
  have hgrown : l.low + m ≤ L.low := hl.2.1
  have hpower : (-(m : Int)).natAbs ≤ L.reach := by
    simp only [Limits.reach]
    omega
  have hscale : (n.scale + -(m : Int)).natAbs ≤ L.reach := by
    simp only [Limits.reach]
    omega
  have hfactor : (Decimal.tenTo m).Within L := (Decimal.Within.tenTo l m).mono hl
  rw [scaledBy, h.scale _ hpower, pure_bind, ← Decimal.tenTo, h.shown_eq hfactor, pure_bind, mul,
    Decimal.tenTo, h.scale _ hscale, pure_bind]
  exact h.shown_eq ((hn.scaledBy m).mono hl)

theorem intAt_eq {s : Int} (hs : (s - n.scale).natAbs ≤ L.reach) :
    o.intAt n s = pure (n.intAt s) := by
  rw [intAt, h.scale _ hs, pure_bind]
  rfl

theorem add_ofInt_eq (hn : n.Within L) {i : Int} (hsum : (n.add (.ofInt i)).Within L) :
    o.add n (.ofInt i) = pure (n.add (.ofInt i)) := by
  have hlow := hn.low
  have hhigh := hn.high
  have hleft : (max n.scale 0 - n.scale).natAbs ≤ L.reach := by
    simp only [Limits.reach]
    omega
  have hright : (max n.scale 0 - (Decimal.ofInt i).scale).natAbs ≤ L.reach := by
    simp only [Decimal.ofInt, Limits.reach]
    omega
  simp only [add, Decimal.ofInt] at hleft hright ⊢
  rw [h.intAt_eq hleft, pure_bind, h.intAt_eq hright, pure_bind]
  exact h.shown_eq hsum

theorem roundTo_eq {s : Int} (hs : (n.scale - s).natAbs ≤ L.reach) :
    o.roundTo n s = pure (n.roundTo s) := by
  rw [roundTo, Decimal.roundTo]
  split
  · rfl
  · rw [h.scale _ hs, pure_bind]

theorem roundWhole_eq (hn : n.Within L) : o.roundWhole n = pure n.roundWhole := by
  have hlow := hn.low
  have hhigh := hn.high
  have hzero : (n.scale - 0).natAbs ≤ L.reach := by
    simp only [Limits.reach]
    omega
  rw [roundWhole, h.roundTo_eq hzero, pure_bind]
  exact h.shown_eq hn.roundWhole

theorem roundingShown_eq (hn : n.Within L) (k : Nat) :
    o.roundingShown n (n.roundFigures k) = pure (n.roundFigures k) := by
  rw [roundingShown, h.rounded n k hn, pure_bind]

/-- The position to which a number is rounded is off its scale by as many digits as it has more than
the figures, or fewer. -/
theorem roundFigures_eq (hn : n.Within L) {k : Nat} (hk : k ≤ L.text) (hdigits : 0 < L.digits) :
    o.roundFigures n k = pure (n.roundFigures k) := by
  have hlow := hn.low
  have hhigh := hn.high
  have hlength := hn.length_digits_le hdigits
  have hreach : L.reach = 2 * (Decimal.maxExponent + L.low + L.digits + L.text) := rfl
  have hresult : o.roundFigures n k = o.roundingShown n (n.roundFigures k) := by
    rw [roundFigures, Decimal.roundFigures]
    split
    · rfl
    · rw [h.scale _ (by omega), pure_bind, h.scale _ (by omega), pure_bind, h.scale _ (by omega),
        pure_bind, h.roundTo_eq (by omega), pure_bind]
  rw [hresult, h.roundingShown_eq hn]

theorem same_eq (hd : (v.scale - w.scale).natAbs ≤ L.reach) : o.same v w = pure (v.same w) := by
  rw [same, Decimal.same]
  split
  · rw [h.scale _ (by omega), pure_bind]
  · rw [h.scale _ hd, pure_bind]

end Quiet

theorem Quiet.mono {o : Observer} {l L : Limits} (h : o.Quiet L) (hl : l ≤ L) : o.Quiet l where
  number n hn := h.number n (hn.mono hl)
  scale k hk := h.scale k (Nat.le_trans hk (Limits.reach_mono hl))
  rounded n k hn := h.rounded n k (hn.mono hl)

theorem Quiet.valueShown_eq {o : Observer} {l : Limits} (h : o.Quiet l) {v : Value}
    (hv : v.Within l) : o.valueShown v = pure v := by
  have hnumbers : ∀ ns : List Decimal, (∀ n ∈ ns, n.Within l) → ns.forM o.number = pure () := by
    intro ns hns
    induction ns with
    | nil => rfl
    | cons n ns ih =>
      rw [List.forall_mem_cons] at hns
      rw [List.forM, h.number n hns.1, pure_bind, ih hns.2]
  rw [valueShown, hnumbers _ hv.numbers, pure_bind]

/-- Rounding to figures takes the scale no further than the digits and the figures. -/
theorem natAbs_scale_roundFigures_le {l : Limits} {n : Decimal} (hn : n.Within l) {k : Nat}
    (hk : k ≤ l.text) (hdigits : 0 < l.digits) :
    2 * (n.roundFigures k).scale.natAbs ≤ l.reach := by
  have hlow := hn.low
  have hhigh := hn.high
  have hlength := hn.length_digits_le hdigits
  rw [Decimal.roundFigures, Limits.reach]
  split
  · simp [Decimal.ofInt]
  · rw [Decimal.roundTo]
    split
    · omega
    · dsimp only
      omega

theorem any_eq {v? : Option Decimal} {f : Decimal → Action Bool} {g : Decimal → Bool}
    (h : ∀ v, v? = some v → f v = pure (g v)) : any v? f = pure (v?.any g) := by
  cases v? with
  | none => rfl
  | some v => exact h v rfl

theorem agreeItems_eq {xs ys : List Value}
    (h : ∀ x ∈ xs, ∀ y ∈ ys, o.agrees x y = pure (x.agrees y)) :
    o.agreeItems xs ys = pure (Value.agreeItems xs ys) := by
  induction xs generalizing ys with
  | nil => cases ys <;> simp [agreeItems, Value.agreeItems]
  | cons x xs ih =>
    cases ys with
    | nil => simp [agreeItems, Value.agreeItems]
    | cons y ys =>
      have hrest := ih fun x' hx y' hy => h x' (.tail _ hx) y' (.tail _ hy)
      rw [agreeItems, Value.agreeItems, h x (.head _) y (.head _), pure_bind, hrest]
      cases x.agrees y <;> rfl

theorem agreeEntries_eq {xs ys : Entries Value}
    (h : ∀ x ∈ xs, ∀ y ∈ ys, o.agrees x.2 y.2 = pure (x.2.agrees y.2)) :
    o.agreeEntries xs ys = pure (Value.agreeEntries xs ys) := by
  induction xs generalizing ys with
  | nil => cases ys <;> simp [agreeEntries, Value.agreeEntries]
  | cons x xs ih =>
    cases ys with
    | nil => simp [agreeEntries, Value.agreeEntries]
    | cons y ys =>
      have hrest := ih fun x' hx y' hy => h x' (.tail _ hx) y' (.tail _ hy)
      rw [agreeEntries, Value.agreeEntries, h x (.head _) y (.head _), pure_bind, hrest]
      cases x.1 == y.1 <;> cases x.2.agrees y.2 <;> rfl

namespace Quiet

variable {o} {l L : Limits} {n v w : Decimal} (h : o.Quiet L) (hdigits : 0 < L.digits)
include h hdigits

theorem agreesTo_eq (hv : v.Within L) (hw : w.Within L) {k : Nat} (hk : k ≤ L.text) :
    o.agreesTo k v w = pure (Value.agreesTo k v w) := by
  have hv' := natAbs_scale_roundFigures_le hv hk hdigits
  have hw' := natAbs_scale_roundFigures_le hw hk hdigits
  rw [agreesTo, h.roundFigures_eq hv hk hdigits, pure_bind, h.roundFigures_eq hw hk hdigits,
    pure_bind]
  exact h.same_eq (by omega)

theorem agrees_eq {a b : Value} (ha : a.Within L) (hb : b.Within L) :
    o.agrees a b = pure (a.agrees b) := by
  induction a using Value.induction_children generalizing b with
  | h a ih =>
    fun_cases Value.agrees a b
    all_goals rw [agrees]
    all_goals try assumption
    case case5 v n w m =>
      exact h.agreesTo_eq hdigits ha.fits.1 hb.fits.1 (Nat.le_trans (min_le_left n m) ha.fits.2)
    case case6 v n _ _ _ =>
      exact any_eq fun w hw => h.agreesTo_eq hdigits ha.fits.1 (hb.number? hw) ha.fits.2
    case case7 w m _ _ _ =>
      exact any_eq fun v hv => h.agreesTo_eq hdigits hb.fits.1 (ha.number? hv) hb.fits.2
    case case11 xs ys =>
      exact o.agreeItems_eq fun x hx y hy => ih x hx (ha.parts x hx) (hb.parts y hy)
    case case12 xs ys =>
      refine o.agreeEntries_eq fun x hx y hy => ?_
      have hx : x.2 ∈ (Value.map xs).children := List.mem_map_of_mem hx
      have hy : y.2 ∈ (Value.map ys).children := List.mem_map_of_mem hy
      exact ih _ hx (ha.parts _ hx) (hb.parts _ hy)
    case case14 =>
      refine any_eq fun v hv => any_eq fun w hw => h.same_eq ?_
      have hvl := (ha.number? hv).low
      have hvh := (ha.number? hv).high
      have hwl := (hb.number? hw).low
      have hwh := (hb.number? hw).high
      rw [Limits.reach]
      omega

end Quiet

end Observer

end Scenario
