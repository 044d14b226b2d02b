import Scenario.Expr.Reader

/-!
# The grammar of expressions

To the grammar a token is a piece (`Token.piece`): a text, whether it was quoted or not, or one
of the parentheses. An expression has one linear form (`Expr.linear`), and a row of pieces
starts with the linear form of at most one expression (`Expr.linear_append_inj`).

`nesting` counts how many lists a row of pieces leaves open. The linear form of an expression
opens as many lists as it closes and never closes more than it has opened
(`Expr.balanced_linear`).
-/

namespace Scenario

/-- What a token is to the grammar: a text, quoted or not, or a parenthesis. -/
inductive Piece where
  | text (content : String)
  | opening
  | closing
deriving DecidableEq, Inhabited, Repr

/-- The piece that a token stands for. -/
def Token.piece : Token → Piece
  | word s => .text s
  | quoted s => .text s
  | opening => .opening
  | closing => .closing

theorem Token.piece_eq_opening {t : Token} : t.piece = .opening ↔ t = opening := by
  cases t <;> simp [piece]

theorem Token.piece_eq_closing {t : Token} : t.piece = .closing ↔ t = closing := by
  cases t <;> simp [piece]

/-- The pieces of a row of tokens. -/
def pieces (ts : List Located) : List Piece :=
  ts.map (·.token.piece)

@[simp]
theorem pieces_nil : pieces [] = [] := rfl

@[simp]
theorem pieces_cons (t : Located) (ts : List Located) :
    pieces (t :: ts) = t.token.piece :: pieces ts := rfl

@[simp]
theorem pieces_append (ts us : List Located) : pieces (ts ++ us) = pieces ts ++ pieces us :=
  List.map_append

namespace Expr

mutual

/-- The linear form of an expression: an atom is its text, a list its items in parentheses. -/
def linear : Expr → List Piece
  | atom s => [.text s]
  | list xs => .opening :: (linearItems xs ++ [.closing])

/-- The linear forms of a row of expressions, one after the other. -/
def linearItems : List Expr → List Piece
  | [] => []
  | x :: xs => linear x ++ linearItems xs

end

theorem linearItems_append (xs ys : List Expr) :
    linearItems (xs ++ ys) = linearItems xs ++ linearItems ys := by
  induction xs with
  | nil => rfl
  | cons x xs ih => simp only [List.cons_append, linearItems, ih, List.append_assoc]

theorem linear_ne_nil (e : Expr) : linear e ≠ [] := by
  cases e <;> simp [linear]

theorem linear_ne_closing (e : Expr) (ps qs : List Piece) : linear e ++ ps ≠ .closing :: qs := by
  cases e <;> simp [linear]

mutual

/-- A row of pieces starts with the linear form of one expression only. -/
theorem linear_append_inj : ∀ (x y : Expr) {ps qs : List Piece},
    linear x ++ ps = linear y ++ qs → x = y ∧ ps = qs
  | atom s, atom t, ps, qs, h => by
    simp only [linear, List.cons_append, List.nil_append, List.cons.injEq, Piece.text.injEq] at h
    rw [h.1]
    exact ⟨rfl, h.2⟩
  | atom _, list _, _, _, h => by simp [linear] at h
  | list _, atom _, _, _, h => by simp [linear] at h
  | list xs, list ys, ps, qs, h => by
    simp only [linear, List.cons_append, List.append_assoc, List.nil_append, List.cons.injEq,
      true_and] at h
    obtain ⟨rfl, rfl⟩ := linearItems_append_inj xs ys h
    exact ⟨rfl, rfl⟩

/-- The items before a closing parenthesis are those of one row only. -/
theorem linearItems_append_inj : ∀ (xs ys : List Expr) {ps qs : List Piece},
    linearItems xs ++ .closing :: ps = linearItems ys ++ .closing :: qs → xs = ys ∧ ps = qs
  | [], [], ps, qs, h => by
    simp only [linearItems, List.nil_append, List.cons.injEq, true_and] at h
    exact ⟨rfl, h⟩
  | [], y :: ys, ps, qs, h => by
    rw [linearItems, linearItems, List.nil_append, List.append_assoc] at h
    exact absurd h.symm (linear_ne_closing y _ _)
  | x :: xs, [], ps, qs, h => by
    rw [linearItems, linearItems, List.nil_append, List.append_assoc] at h
    exact absurd h (linear_ne_closing x _ _)
  | x :: xs, y :: ys, ps, qs, h => by
    rw [linearItems, linearItems, List.append_assoc, List.append_assoc] at h
    obtain ⟨rfl, h'⟩ := linear_append_inj x y h
    obtain ⟨rfl, rfl⟩ := linearItems_append_inj xs ys h'
    exact ⟨rfl, rfl⟩

end

/-- The only row of expressions with the linear form of one expression is that expression. -/
theorem linearItems_eq_linear {es : List Expr} {e : Expr} (h : linearItems es = linear e) :
    es = [e] := by
  cases es with
  | nil => exact absurd h.symm (linear_ne_nil e)
  | cons x xs =>
    rw [linearItems, ← List.append_nil (linear e)] at h
    obtain ⟨rfl, hx⟩ := linear_append_inj x e h
    cases xs with
    | nil => rfl
    | cons y ys =>
      rw [linearItems, List.append_eq_nil_iff] at hx
      exact absurd hx.1 (linear_ne_nil y)

theorem deepest_append (xs ys : List Expr) :
    deepest (xs ++ ys) = max (deepest xs) (deepest ys) := by
  induction xs with
  | nil => simp [deepest]
  | cons x xs ih => rw [List.cons_append, deepest, deepest, ih, Nat.max_assoc]

theorem deepest_reverse (xs : List Expr) : deepest xs.reverse = deepest xs := by
  induction xs with
  | nil => rfl
  | cons x xs ih =>
    rw [List.reverse_cons, deepest_append, ih, deepest, deepest, deepest]
    omega

theorem deepest_le_iff {xs : List Expr} {n : Nat} : deepest xs ≤ n ↔ ∀ x ∈ xs, depth x ≤ n := by
  induction xs with
  | nil => simp [deepest]
  | cons x xs ih => rw [deepest, Nat.max_le, ih, List.forall_mem_cons]

end Expr

/-! ## Nesting -/

/-- How many more lists a row of pieces opens than it closes. -/
def nesting (ps : List Piece) : Int :=
  (ps.count .opening : Int) - (ps.count .closing : Int)

@[simp]
theorem nesting_nil : nesting [] = 0 := rfl

theorem nesting_append (ps qs : List Piece) : nesting (ps ++ qs) = nesting ps + nesting qs := by
  simp only [nesting, List.count_append]
  omega

@[simp]
theorem nesting_text (s : String) (ps : List Piece) : nesting (.text s :: ps) = nesting ps := by
  simp [nesting]

@[simp]
theorem nesting_opening (ps : List Piece) : nesting (.opening :: ps) = 1 + nesting ps := by
  simp only [nesting, List.count_cons_self,
    List.count_cons_of_ne (show Piece.opening ≠ .closing by decide)]
  omega

@[simp]
theorem nesting_closing (ps : List Piece) : nesting (.closing :: ps) = -1 + nesting ps := by
  simp only [nesting, List.count_cons_self,
    List.count_cons_of_ne (show Piece.closing ≠ .opening by decide)]
  omega

/-- A row of pieces that closes every list it opens, and no other. -/
structure Balanced (ps : List Piece) : Prop where
  nesting_eq : nesting ps = 0
  nesting_nonneg {qs rs : List Piece} : ps = qs ++ rs → 0 ≤ nesting qs

namespace Balanced

theorem nil : Balanced [] where
  nesting_eq := rfl
  nesting_nonneg h := by
    rw [List.nil_eq, List.append_eq_nil_iff] at h
    rw [h.1]
    exact Int.le_refl 0

theorem text (s : String) : Balanced [.text s] where
  nesting_eq := by simp
  nesting_nonneg := by
    intro qs rs h
    cases qs with
    | nil => simp
    | cons q qs =>
      rw [List.cons_append, List.cons.injEq, List.nil_eq, List.append_eq_nil_iff] at h
      simp [← h.1, h.2.1]

theorem append {ps qs : List Piece} (hp : Balanced ps) (hq : Balanced qs) :
    Balanced (ps ++ qs) where
  nesting_eq := by rw [nesting_append, hp.nesting_eq, hq.nesting_eq]; rfl
  nesting_nonneg h := by
    rcases List.append_eq_append_iff.mp h with ⟨as, rfl, hq'⟩ | ⟨bs, hp', -⟩
    · rw [nesting_append, hp.nesting_eq, Int.zero_add]
      exact hq.nesting_nonneg hq'
    · exact hp.nesting_nonneg hp'

/-- A balanced row in parentheses is balanced. -/
theorem enclosed {ps : List Piece} (hp : Balanced ps) :
    Balanced (.opening :: (ps ++ [.closing])) where
  nesting_eq := by simp [nesting_append, hp.nesting_eq]
  nesting_nonneg := by
    intro qs rs h
    cases qs with
    | nil => simp
    | cons q qs =>
      rw [List.cons_append, List.cons.injEq] at h
      rw [← h.1, nesting_opening]
      rcases List.append_eq_append_iff.mp h.2 with ⟨as, rfl, hc⟩ | ⟨bs, hp', -⟩
      · -- only the last parenthesis can follow the inner row
        rw [nesting_append, hp.nesting_eq]
        cases as with
        | nil => simp
        | cons a as =>
          rw [List.cons_append, List.cons.injEq, List.nil_eq, List.append_eq_nil_iff] at hc
          simp [← hc.1, hc.2.1]
      · have := hp.nesting_nonneg hp'
        omega

end Balanced

namespace Expr

mutual

/-- The linear form of an expression is balanced. -/
theorem balanced_linear : ∀ e : Expr, Balanced (linear e)
  | atom s => Balanced.text s
  | list xs => (balanced_linearItems xs).enclosed

theorem balanced_linearItems : ∀ xs : List Expr, Balanced (linearItems xs)
  | [] => Balanced.nil
  | x :: xs => (balanced_linear x).append (balanced_linearItems xs)

end

end Expr

end Scenario
