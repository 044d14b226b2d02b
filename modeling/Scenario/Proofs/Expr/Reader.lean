import Scenario.Proofs.Expr.Grammar

/-!
# What the reader accepts

The reader is a machine that takes one token at a time. What it has taken is the linear form of
its state (`ReaderState.run_linear`), so the items it ends with are the only ones with these
tokens, and it accepts every row of items that is not nested too deep
(`readItems_eq_ok_iff`).

The open lists of a state are the parentheses that the tokens so far have left open
(`Opens`), so the machine stops at the first token that breaks the nesting
(`run_start_eq_ok_iff`), and a list that is never closed is reported at the innermost
parenthesis left open. `FirstViolation` says this without the machine, and
`readCommand_grammar` puts the parts together.
-/

namespace Scenario

namespace ReaderState

open Scenario.Expr (linearItems deepest)

/-! ## Steps and runs -/

/-- All that a token can do to a state. -/
theorem step_eq_ok {s s' : ReaderState} {t : Located} (h : s.step t = .ok s') :
    (∃ w, t.token.piece = .text w ∧ s' = s.push (.atom w)) ∨
    (t.token = .opening ∧ s.opened.length < maxDepth ∧
      s' = { s with opened := ⟨t.line, []⟩ :: s.opened }) ∨
    (∃ o outer, t.token = .closing ∧ s.opened = o :: outer ∧
      s' = push ⟨outer, s.done⟩ (.list o.items.reverse)) := by
  unfold step at h
  split at h
  · rename_i w ht
    cases h
    exact .inl ⟨w, by rw [ht, Token.piece], rfl⟩
  · rename_i w ht
    cases h
    exact .inl ⟨w, by rw [ht, Token.piece], rfl⟩
  · rename_i ht
    split at h
    · cases h
    · rename_i hd
      cases h
      exact .inr (.inl ⟨ht, Nat.lt_of_not_le hd, rfl⟩)
  · rename_i ht
    split at h
    · cases h
    · rename_i o outer ho
      cases h
      exact .inr (.inr ⟨o, outer, ht, ho, rfl⟩)

/-- The two ways in which a token is refused. -/
theorem step_eq_error {s : ReaderState} {t : Located} {e : ReadError} (h : s.step t = .error e) :
    (t.token = .closing ∧ s.opened = [] ∧ e = ⟨t.line, .strayClosing⟩) ∨
    (t.token = .opening ∧ maxDepth ≤ s.opened.length ∧ e = ⟨t.line, .tooDeep⟩) := by
  unfold step at h
  split at h
  · cases h
  · cases h
  · rename_i ht
    split at h
    · rename_i hd
      cases h
      exact .inr ⟨ht, hd, rfl⟩
    · cases h
  · rename_i ht
    split at h
    · rename_i ho
      cases h
      exact .inl ⟨ht, ho, rfl⟩
    · cases h

theorem step_text {s : ReaderState} {t : Located} {w : String} (h : t.token.piece = .text w) :
    s.step t = .ok (s.push (.atom w)) := by
  unfold step
  cases ht : t.token <;> simp only [ht, Token.piece, Piece.text.injEq, reduceCtorEq] at h <;>
    rw [h]

theorem step_opening {s : ReaderState} {t : Located} (ht : t.token = .opening)
    (hd : s.opened.length < maxDepth) :
    s.step t = .ok { s with opened := ⟨t.line, []⟩ :: s.opened } := by
  simp only [step, ht]
  rw [if_neg (Nat.not_le_of_lt hd)]

theorem step_closing {s : ReaderState} {t : Located} {o : OpenList} {outer : List OpenList}
    (ht : t.token = .closing) (ho : s.opened = o :: outer) :
    s.step t = .ok (push ⟨outer, s.done⟩ (.list o.items.reverse)) := by
  simp only [step, ht, ho]

theorem run_cons {s s' : ReaderState} {t : Located} (ts : List Located)
    (h : s.step t = .ok s') : s.run (t :: ts) = s'.run ts := by
  rw [run, h]

/-- A run over two rows of tokens is a run over the first and then over the second. -/
theorem run_append {s s' : ReaderState} {ts : List Located} (us : List Located)
    (h : s.run ts = .ok s') : s.run (ts ++ us) = s'.run us := by
  induction ts generalizing s with
  | nil =>
    cases h
    rfl
  | cons t ts ih =>
    rw [run] at h
    rw [List.cons_append, run]
    split at h
    · cases h
    · exact ih h

theorem run_append_error {s : ReaderState} {ts : List Located} {e : ReadError}
    (us : List Located) (h : s.run ts = .error e) : s.run (ts ++ us) = .error e := by
  induction ts generalizing s with
  | nil => cases h
  | cons t ts ih =>
    rw [run] at h
    rw [List.cons_append, run]
    split at h
    · exact h
    · exact ih h

/-- What a run takes, it takes up to every point on its way. -/
theorem run_prefix {s s' : ReaderState} {ts us : List Located} (h : s.run (ts ++ us) = .ok s') :
    ∃ s₁, s.run ts = .ok s₁ ∧ s₁.run us = .ok s' := by
  cases hr : s.run ts with
  | error e => rw [run_append_error us hr] at h; cases h
  | ok s₁ => exact ⟨s₁, rfl, by rw [← run_append us hr, h]⟩

/-- A run that fails does so at one token, after a run that does not. -/
theorem run_eq_error {s : ReaderState} {ts : List Located} {e : ReadError}
    (h : s.run ts = .error e) :
    ∃ pre t post s', ts = pre ++ t :: post ∧ s.run pre = .ok s' ∧ s'.step t = .error e := by
  induction ts generalizing s with
  | nil => cases h
  | cons t ts ih =>
    cases hs : s.step t with
    | error e' =>
      rw [run, hs] at h
      cases h
      exact ⟨[], t, ts, s, rfl, rfl, hs⟩
    | ok s₁ =>
      rw [run_cons ts hs] at h
      obtain ⟨pre, t', post, s', rfl, hr, hs'⟩ := ih h
      exact ⟨t :: pre, t', post, s', rfl, by rw [run_cons pre hs, hr], hs'⟩

/-! ## The tokens behind a state -/

/-- The linear form of the open lists of a state, from the outermost on. -/
def linearOpened : List OpenList → List Piece
  | [] => []
  | o :: outer => linearOpened outer ++ .opening :: linearItems o.items.reverse

/-- The pieces of all tokens that led to a state. -/
def linear (s : ReaderState) : List Piece :=
  linearItems s.done.reverse ++ linearOpened s.opened

theorem linear_push (s : ReaderState) (e : Expr) : (s.push e).linear = s.linear ++ e.linear := by
  unfold push
  split
  · rename_i ho
    simp [linear, ho, linearOpened, Expr.linearItems_append, linearItems]
  · rename_i o outer ho
    simp [linear, ho, linearOpened, Expr.linearItems_append, linearItems]

theorem step_linear {s s' : ReaderState} {t : Located} (h : s.step t = .ok s') :
    s'.linear = s.linear ++ [t.token.piece] := by
  obtain ⟨w, ht, rfl⟩ | ⟨ht, -, rfl⟩ | ⟨o, outer, ht, ho, rfl⟩ := step_eq_ok h
  · rw [linear_push, ht, Expr.linear]
  · simp [linear, linearOpened, linearItems, ht, Token.piece]
  · rw [linear_push]
    simp [linear, ho, linearOpened, Expr.linear, ht, Token.piece]

/-- What a run has taken is added to the linear form of the state. -/
theorem run_linear {s s' : ReaderState} {ts : List Located} (h : s.run ts = .ok s') :
    s'.linear = s.linear ++ pieces ts := by
  induction ts generalizing s with
  | nil =>
    cases h
    simp
  | cons t ts ih =>
    rw [run] at h
    split at h
    · cases h
    · rename_i s₁ hs
      rw [ih h, step_linear hs, pieces_cons, List.append_assoc, List.singleton_append]

/-- Open lists that, with the items they hold, stay within the depth that is read. -/
def Shallow : List OpenList → Prop
  | [] => True
  | o :: outer => deepest o.items + (outer.length + 1) ≤ maxDepth ∧ Shallow outer

/-- A state that holds nothing nested deeper than is read. -/
structure Bounded (s : ReaderState) : Prop where
  done : deepest s.done ≤ maxDepth
  opened : Shallow s.opened

theorem Bounded.start : Bounded start :=
  ⟨Nat.zero_le _, trivial⟩

theorem Bounded.push {s : ReaderState} {e : Expr} (hs : s.Bounded)
    (he : e.depth + s.opened.length ≤ maxDepth) : (s.push e).Bounded := by
  obtain ⟨opened, done⟩ := s
  cases opened with
  | nil =>
    refine ⟨?_, trivial⟩
    have := hs.done
    simp only [ReaderState.push, deepest, List.length_nil] at this he ⊢
    omega
  | cons o outer =>
    have := hs.opened.1
    refine ⟨hs.done, ?_, hs.opened.2⟩
    simp only [deepest, List.length_cons] at this he ⊢
    omega

/-- A token keeps a state within the depth that is read: opening is refused in time, and closing
turns the depth of an open list into that of an item. -/
theorem step_bounded {s s' : ReaderState} {t : Located} (hs : s.Bounded)
    (h : s.step t = .ok s') : s'.Bounded := by
  obtain ⟨w, -, rfl⟩ | ⟨-, hd, rfl⟩ | ⟨o, outer, -, ho, rfl⟩ := step_eq_ok h
  · refine hs.push ?_
    rw [Expr.depth, Nat.zero_add]
    have := hs.opened
    cases hc : s.opened with
    | nil => exact Nat.zero_le _
    | cons o outer =>
      rw [hc] at this
      have := this.1
      simp only [List.length_cons]
      omega
  · refine ⟨hs.done, ?_, hs.opened⟩
    simp only [deepest]
    omega
  · have hso := hs.opened
    rw [ho] at hso
    refine Bounded.push ⟨hs.done, hso.2⟩ ?_
    have := hso.1
    rw [Expr.depth, Expr.deepest_reverse]
    simp only
    omega

theorem run_bounded {s s' : ReaderState} {ts : List Located} (hs : s.Bounded)
    (h : s.run ts = .ok s') : s'.Bounded := by
  induction ts generalizing s with
  | nil =>
    cases h
    exact hs
  | cons t ts ih =>
    rw [run] at h
    split at h
    · cases h
    · rename_i s₁ h₁
      exact ih (step_bounded hs h₁) h

/-! ## Reading a linear form -/

theorem foldl_push_opened (xs : List Expr) (o : OpenList) (outer : List OpenList)
    (done : List Expr) :
    xs.foldl push ⟨o :: outer, done⟩ =
      ⟨{ o with items := xs.reverse ++ o.items } :: outer, done⟩ := by
  induction xs generalizing o with
  | nil => rfl
  | cons x xs ih => simp [push, ih]

theorem foldl_push_top (xs done : List Expr) :
    xs.foldl push ⟨[], done⟩ = ⟨[], xs.reverse ++ done⟩ := by
  induction xs generalizing done with
  | nil => rfl
  | cons x xs ih => simp [push, ih]

theorem length_opened_push (s : ReaderState) (e : Expr) :
    (s.push e).opened.length = s.opened.length := by
  obtain ⟨opened, done⟩ := s
  cases opened <;> rfl

mutual

/-- The tokens of an expression add the expression, if the depth allows it. -/
theorem run_of_linear : ∀ (e : Expr) {s : ReaderState} {ts : List Located},
    pieces ts = e.linear → s.opened.length + e.depth ≤ maxDepth → s.run ts = .ok (s.push e)
  | .atom w, s, ts, h, _ => by
    rw [Expr.linear, pieces, List.map_eq_cons_iff] at h
    obtain ⟨t, us, rfl, ht, hus⟩ := h
    rw [List.map_eq_nil_iff] at hus
    rw [hus, run_cons [] (step_text ht), run]
  | .list xs, s, ts, h, hd => by
    rw [Expr.linear, pieces, List.map_eq_cons_iff] at h
    obtain ⟨t, us, rfl, ht, hus⟩ := h
    obtain ⟨inner, vs, rfl, hin, hvs⟩ := List.map_eq_append_iff.mp hus
    obtain ⟨c, ws, rfl, hc, hws⟩ := List.map_eq_cons_iff.mp hvs
    rw [List.map_eq_nil_iff] at hws
    rw [Expr.depth] at hd
    rw [hws, run_cons _ (step_opening (Token.piece_eq_opening.mp ht) (by omega))]
    have hr := run_of_linearItems xs (s := { s with opened := ⟨t.line, []⟩ :: s.opened }) hin
      (by simp only [List.length_cons]; omega)
    rw [run_append _ hr, foldl_push_opened,
      run_cons [] (step_closing (Token.piece_eq_closing.mp hc) rfl), run]
    simp

theorem run_of_linearItems : ∀ (es : List Expr) {s : ReaderState} {ts : List Located},
    pieces ts = linearItems es → s.opened.length + deepest es ≤ maxDepth →
      s.run ts = .ok (es.foldl push s)
  | [], s, ts, h, _ => by
    rw [linearItems, pieces, List.map_eq_nil_iff] at h
    rw [h]
    rfl
  | e :: es, s, ts, h, hd => by
    rw [linearItems, pieces, List.map_eq_append_iff] at h
    obtain ⟨us, vs, rfl, hu, hv⟩ := h
    rw [deepest] at hd
    rw [run_append vs (run_of_linear e hu (by omega)), List.foldl_cons]
    exact run_of_linearItems es hv (by rw [length_opened_push]; omega)

end

end ReaderState

open Scenario.Expr (linearItems)

/-- The reader accepts exactly the rows of items that are not nested too deep. -/
theorem readItems_eq_ok_iff {ts : List Located} {es : List Expr} :
    readItems ts = .ok es ↔ pieces ts = linearItems es ∧ ∀ e ∈ es, e.depth ≤ maxDepth := by
  constructor
  · intro h
    unfold readItems at h
    split at h
    · cases h
    · rename_i s hs
      have hl := ReaderState.run_linear hs
      have hb := (ReaderState.run_bounded ReaderState.Bounded.start hs).done
      unfold ReaderState.finish at h
      split at h
      · rename_i ho
        cases h
        rw [ReaderState.linear, ho] at hl
        rw [← Expr.deepest_le_iff, Expr.deepest_reverse]
        exact ⟨by simpa [ReaderState.linearOpened, ReaderState.linear, ReaderState.start,
          linearItems] using hl.symm, hb⟩
      · cases h
  · rintro ⟨hp, hd⟩
    have hr := ReaderState.run_of_linearItems es (s := .start) hp (by
      rw [ReaderState.start, List.length_nil, Nat.zero_add]
      exact Expr.deepest_le_iff.mpr hd)
    rw [readItems, hr, ReaderState.start, ReaderState.foldl_push_top]
    simp [ReaderState.finish]

/-! ## Where the nesting breaks -/

/-- Whether a piece after a row of others breaks the nesting: it closes a list when none is open,
or opens one when as many are open as are read. -/
def Breaks (before : List Piece) (p : Piece) : Prop :=
  (p = .closing ∧ nesting before = 0) ∨ (p = .opening ∧ nesting before = maxDepth)

/-- A row of pieces none of which breaks the nesting. -/
def Orderly (ps : List Piece) : Prop :=
  ∀ (qs : List Piece) (p : Piece) (rs : List Piece), ps = qs ++ p :: rs → ¬Breaks qs p

/-- The lists that a row of tokens leaves open, by the lines of their parentheses, innermost
first: what follows each of them, up to the next one, is balanced. -/
def Opens : List Line → List Located → Prop
  | [], ts => Balanced (pieces ts)
  | line :: lines, ts => ∃ pre post, ts = pre ++ ⟨.opening, line⟩ :: post ∧
      Balanced (pieces post) ∧ Opens lines pre

namespace Opens

theorem append {lines : List Line} {ts us : List Located} (h : Opens lines ts)
    (hu : Balanced (pieces us)) : Opens lines (ts ++ us) := by
  cases lines with
  | nil =>
    rw [Opens, pieces_append]
    exact Balanced.append h hu
  | cons line lines =>
    obtain ⟨pre, post, rfl, hp, ho⟩ := h
    refine ⟨pre, post ++ us, by rw [List.append_assoc, List.cons_append], ?_, ho⟩
    rw [pieces_append]
    exact hp.append hu

/-- As many lists are open as the nesting says. -/
theorem nesting_eq {lines : List Line} {ts : List Located} (h : Opens lines ts) :
    nesting (pieces ts) = lines.length := by
  induction lines generalizing ts with
  | nil => exact Balanced.nesting_eq h
  | cons line lines ih =>
    obtain ⟨pre, post, rfl, hp, ho⟩ := h
    rw [pieces_append, pieces_cons, Token.piece, nesting_append, nesting_opening, ih ho,
      hp.nesting_eq, List.length_cons]
    omega

/-- The innermost open list is the only one that balanced pieces follow. -/
theorem line_eq {lines : List Line} {pre post : List Located} {line line' : Line}
    (h : Opens (line :: lines) (pre ++ ⟨.opening, line'⟩ :: post))
    (hp : Balanced (pieces post)) : line = line' := by
  obtain ⟨pre₁, post₁, he, hp₁, -⟩ := h
  -- the parenthesis that stands first would be closed by what follows the other
  rcases List.append_eq_append_iff.mp he with ⟨as, -, ha⟩ | ⟨as, -, ha⟩
  · cases as with
    | nil =>
      simp only [List.nil_append, List.cons.injEq, Located.mk.injEq, true_and] at ha
      exact ha.1.symm
    | cons a as =>
      rw [List.cons_append, List.cons.injEq] at ha
      have h₀ := hp.nesting_eq
      have h₁ : 0 ≤ nesting (pieces as) := hp.nesting_nonneg (by rw [ha.2, pieces_append])
      rw [ha.2, pieces_append, nesting_append, pieces_cons, Token.piece, nesting_opening,
        hp₁.nesting_eq] at h₀
      omega
  · cases as with
    | nil =>
      simp only [List.nil_append, List.cons.injEq, Located.mk.injEq, true_and] at ha
      exact ha.1
    | cons a as =>
      rw [List.cons_append, List.cons.injEq] at ha
      have h₀ := hp₁.nesting_eq
      have h₁ : 0 ≤ nesting (pieces as) := hp₁.nesting_nonneg (by rw [ha.2, pieces_append])
      rw [ha.2, pieces_append, nesting_append, pieces_cons, Token.piece, nesting_opening,
        hp.nesting_eq] at h₀
      omega

end Opens

namespace ReaderState

/-- The lines of the open lists. -/
abbrev lines (s : ReaderState) : List Line :=
  s.opened.map OpenList.line

theorem lines_push (s : ReaderState) (e : Expr) : (s.push e).lines = s.lines := by
  obtain ⟨opened, done⟩ := s
  cases opened <;> rfl

theorem step_opens {s s' : ReaderState} {t : Located} {us : List Located}
    (hu : Opens s.lines us) (h : s.step t = .ok s') : Opens s'.lines (us ++ [t]) := by
  obtain ⟨w, ht, rfl⟩ | ⟨ht, -, rfl⟩ | ⟨o, outer, ht, ho, rfl⟩ := step_eq_ok h
  · rw [lines_push]
    refine hu.append ?_
    rw [pieces_cons, ht]
    exact Balanced.text w
  · refine ⟨us, [], ?_, Balanced.nil, hu⟩
    rw [← ht]
  · rw [lines_push]
    rw [lines, ho, List.map_cons] at hu
    obtain ⟨pre, post, rfl, hp, hpre⟩ := hu
    rw [List.append_assoc]
    refine hpre.append ?_
    simp only [List.cons_append, pieces_cons, pieces_append, ht]
    exact hp.enclosed

theorem run_opens {s s' : ReaderState} {ts us : List Located} (hu : Opens s.lines us)
    (h : s.run ts = .ok s') : Opens s'.lines (us ++ ts) := by
  induction ts generalizing s us with
  | nil =>
    cases h
    rw [List.append_nil]
    exact hu
  | cons t ts ih =>
    rw [run] at h
    split at h
    · cases h
    · rename_i s₁ h₁
      have := ih (step_opens hu h₁) h
      rwa [List.append_assoc, List.singleton_append] at this

/-- The open lists of a state are those that the tokens so far have left open. -/
theorem opens_of_run {s : ReaderState} {ts : List Located} (h : start.run ts = .ok s) :
    Opens s.lines ts :=
  run_opens (show Opens start.lines [] from Balanced.nil) h

theorem nesting_of_run {s : ReaderState} {ts : List Located} (h : start.run ts = .ok s) :
    nesting (pieces ts) = s.opened.length := by
  rw [(opens_of_run h).nesting_eq, lines, List.length_map]

theorem breaks_of_step_eq_error {s : ReaderState} {ts : List Located} {t : Located}
    {e : ReadError} (h : start.run ts = .ok s) (he : s.step t = .error e) :
    Breaks (pieces ts) t.token.piece := by
  have hn := nesting_of_run h
  have hb := (run_bounded Bounded.start h).opened
  rcases step_eq_error he with ⟨ht, ho, -⟩ | ⟨ht, hd, -⟩
  · rw [ho] at hn
    exact .inl ⟨Token.piece_eq_closing.mpr ht, hn⟩
  · refine .inr ⟨Token.piece_eq_opening.mpr ht, ?_⟩
    cases hc : s.opened with
    | nil => rw [hc] at hd; cases hd
    | cons o outer =>
      rw [hc] at hb hd hn
      have := hb.1
      rw [List.length_cons] at hd hn
      omega

theorem not_breaks_of_step_eq_ok {s s' : ReaderState} {ts : List Located} {t : Located}
    (h : start.run ts = .ok s) (hs : s.step t = .ok s') : ¬Breaks (pieces ts) t.token.piece := by
  have hn := nesting_of_run h
  intro hb
  obtain ⟨w, ht, -⟩ | ⟨ht, hd, -⟩ | ⟨o, outer, ht, ho, -⟩ := step_eq_ok hs
  · rcases hb with ⟨hp, -⟩ | ⟨hp, -⟩ <;> rw [ht] at hp <;> cases hp
  · rcases hb with ⟨hp, -⟩ | ⟨-, hm⟩
    · rw [ht] at hp; cases hp
    · omega
  · rcases hb with ⟨-, hz⟩ | ⟨hp, -⟩
    · rw [ho, List.length_cons] at hn
      omega
    · rw [ht] at hp; cases hp

/-- The machine takes a row of tokens exactly if none of them breaks the nesting. -/
theorem run_start_eq_ok_iff {ts : List Located} :
    (∃ s, start.run ts = .ok s) ↔ Orderly (pieces ts) := by
  constructor
  · rintro ⟨s, h⟩ qs p rs hq
    obtain ⟨pre, us, rfl, rfl, hu⟩ := List.map_eq_append_iff.mp hq
    obtain ⟨t, post, rfl, rfl, -⟩ := List.map_eq_cons_iff.mp hu
    obtain ⟨s₁, h₁, h₂⟩ := run_prefix h
    rw [run] at h₂
    split at h₂
    · cases h₂
    · rename_i s₂ hs
      exact not_breaks_of_step_eq_ok h₁ hs
  · intro ho
    cases h : start.run ts with
    | ok s => exact ⟨s, rfl⟩
    | error e =>
      obtain ⟨pre, t, post, s', rfl, h₁, h₂⟩ := run_eq_error h
      exact absurd (breaks_of_step_eq_error h₁ h₂) (ho _ _ _ (by rw [pieces_append, pieces_cons]))

end ReaderState

/-- The first violation of the grammar in a row of tokens: the line it is on and what is wrong. -/
inductive FirstViolation (ts : List Located) : Line → String → Prop
  /-- A closing parenthesis with no list open. -/
  | strayClosing {pre post : List Located} {line : Line}
    (split : ts = pre ++ ⟨.closing, line⟩ :: post) (before : Orderly (pieces pre))
    (none_open : nesting (pieces pre) = 0) :
    FirstViolation ts line "unexpected ')'"
  /-- An opening parenthesis with as many lists open as are read. -/
  | tooDeep {pre post : List Located} {line : Line}
    (split : ts = pre ++ ⟨.opening, line⟩ :: post) (before : Orderly (pieces pre))
    (all_open : nesting (pieces pre) = 256) :
    FirstViolation ts line "lists nested deeper than 256"
  /-- A list that is open at the end, and nothing opened after it is. -/
  | unclosed {pre post : List Located} {line : Line} (orderly : Orderly (pieces ts))
    (split : ts = pre ++ ⟨.opening, line⟩ :: post) (after : Balanced (pieces post)) :
    FirstViolation ts line "unclosed '(' opened here"
  | empty (no_token : ts = []) : FirstViolation ts 1 "empty command"

theorem message_tooDeep : ReadFault.tooDeep.message = "lists nested deeper than 256" := by decide

theorem readItems_of_run_error {ts : List Located} {e : ReadError}
    (h : ReaderState.start.run ts = .error e) : readItems ts = .error e := by
  rw [readItems, h]

theorem readItems_of_run_ok {ts : List Located} {s : ReaderState}
    (h : ReaderState.start.run ts = .ok s) : readItems ts = s.finish := by
  rw [readItems, h]

theorem readCommand_eq_ok_iff {src : String} {ts : Tokens} {e : Expr}
    (h : tokens src = .ok ts) :
    readCommand src = .ok e ↔ ∃ es, readItems ts.items = .ok es ∧ command? es = some e := by
  cases hi : readItems ts.items with
  | error err => simp [readCommand, h, hi]
  | ok es => cases hc : command? es <;> simp [readCommand, h, hi, hc]

theorem readCommand_of_readItems_error {src : String} {ts : Tokens} {err : ReadError}
    (h : tokens src = .ok ts) (he : readItems ts.items = .error err) :
    readCommand src = .error err := by
  simp only [readCommand, h, he]

theorem readCommand_of_no_items {src : String} {ts : Tokens} (h : tokens src = .ok ts)
    (hn : ts.items = []) : readCommand src = .error ⟨1, .emptyCommand⟩ := by
  have he : readItems ts.items = .ok [] :=
    readItems_eq_ok_iff.mpr ⟨by rw [hn, pieces_nil, linearItems], nofun⟩
  simp only [readCommand, h, he, command?]

/-- Every error of the reader is that of the first violation. -/
theorem firstViolation_of_error {src : String} {ts : Tokens} {err : ReadError}
    (h : tokens src = .ok ts) (he : readCommand src = .error err) :
    FirstViolation ts.items err.line err.fault.message := by
  cases hr : ReaderState.start.run ts.items with
  | error err' =>
    rw [readCommand_of_readItems_error h (readItems_of_run_error hr)] at he
    cases he
    obtain ⟨pre, ⟨token, line⟩, post, s, hts, h₁, h₂⟩ := ReaderState.run_eq_error hr
    have ho := ReaderState.run_start_eq_ok_iff.mp ⟨s, h₁⟩
    have hb := ReaderState.breaks_of_step_eq_error h₁ h₂
    rcases ReaderState.step_eq_error h₂ with ⟨rfl, -, rfl⟩ | ⟨rfl, -, rfl⟩
    · rcases hb with ⟨-, hz⟩ | ⟨hp, -⟩
      · exact .strayClosing hts ho hz
      · cases hp
    · rcases hb with ⟨hp, -⟩ | ⟨-, hm⟩
      · cases hp
      · rw [message_tooDeep]
        exact .tooDeep hts ho hm
  | ok s =>
    have hf := readItems_of_run_ok hr
    unfold ReaderState.finish at hf
    split at hf
    · -- nothing is left open, so only the absence of items can be wrong
      rename_i ho
      have hp := (readItems_eq_ok_iff.mp hf).1
      cases hd : s.done.reverse with
      | nil =>
        rw [hd, linearItems, pieces, List.map_eq_nil_iff] at hp
        rw [readCommand_of_no_items h hp] at he
        cases he
        exact .empty hp
      | cons x xs =>
        have hc : ∃ e, command? (x :: xs) = some e := by
          cases xs <;> exact ⟨_, rfl⟩
        obtain ⟨e, hc⟩ := hc
        rw [(readCommand_eq_ok_iff h).mpr ⟨_, hf, by rw [hd, hc]⟩] at he
        cases he
    · rename_i o outer ho
      rw [readCommand_of_readItems_error h hf] at he
      cases he
      have hopen := ReaderState.opens_of_run hr
      rw [ReaderState.lines, ho, List.map_cons] at hopen
      obtain ⟨pre, post, hts, hp, -⟩ := hopen
      exact .unclosed (ReaderState.run_start_eq_ok_iff.mp ⟨s, hr⟩) hts hp

/-- Every first violation is reported. -/
theorem error_of_firstViolation {src : String} {ts : Tokens} {line : Line} {message : String}
    (h : tokens src = .ok ts) (hv : FirstViolation ts.items line message) :
    ∃ err, readCommand src = .error err ∧ err.line = line ∧ err.fault.message = message := by
  cases hv with
  | strayClosing split before none_open =>
    obtain ⟨s, hs⟩ := ReaderState.run_start_eq_ok_iff.mpr before
    rw [ReaderState.nesting_of_run hs] at none_open
    have ho : s.opened = [] := List.length_eq_zero_iff.mp (by omega)
    refine ⟨⟨line, .strayClosing⟩, readCommand_of_readItems_error h (readItems_of_run_error ?_),
      rfl, rfl⟩
    rw [split, ReaderState.run_append _ hs]
    simp only [ReaderState.run, ReaderState.step, ho]
  | tooDeep split before all_open =>
    obtain ⟨s, hs⟩ := ReaderState.run_start_eq_ok_iff.mpr before
    rw [ReaderState.nesting_of_run hs] at all_open
    have hd : maxDepth ≤ s.opened.length := by rw [maxDepth]; omega
    refine ⟨⟨line, .tooDeep⟩, readCommand_of_readItems_error h (readItems_of_run_error ?_), rfl,
      message_tooDeep⟩
    rw [split, ReaderState.run_append _ hs]
    simp only [ReaderState.run, ReaderState.step, hd, if_true]
  | unclosed orderly split after =>
    obtain ⟨s, hs⟩ := ReaderState.run_start_eq_ok_iff.mpr orderly
    have hopen := ReaderState.opens_of_run hs
    cases hc : s.opened with
    | nil =>
      -- the list that is said to be open would be closed before it is opened
      rw [ReaderState.lines, hc, split] at hopen
      have h₀ := Balanced.nesting_eq hopen
      have h₁ := Balanced.nesting_nonneg hopen (pieces_append _ _)
      rw [pieces_append, nesting_append, pieces_cons, Token.piece, nesting_opening,
        after.nesting_eq] at h₀
      omega
    | cons o outer =>
      rw [ReaderState.lines, hc, List.map_cons, split] at hopen
      have hl := hopen.line_eq after
      refine ⟨⟨o.line, .unclosed⟩, readCommand_of_readItems_error h ?_, hl, rfl⟩
      rw [readItems_of_run_ok hs]
      simp only [ReaderState.finish, hc]
  | empty no_token => exact ⟨_, readCommand_of_no_items h no_token, rfl, rfl⟩

/-! ## One item -/

namespace ReaderState

theorem push_done {s : ReaderState} {x e : Expr} {r : List Expr} (hd : s.done = [])
    (h : (s.push x).done = e :: r) : s.push x = ⟨[], [e]⟩ := by
  obtain ⟨opened, done⟩ := s
  cases hd
  cases opened with
  | nil =>
    simp only [push, List.cons.injEq] at h
    rw [push, h.1]
  | cons o outer => cases h

/-- The first item is complete when no list is open. -/
theorem step_done {s s' : ReaderState} {t : Located} {e : Expr} {r : List Expr}
    (h : s.step t = .ok s') (hd : s.done = []) (he : s'.done = e :: r) : s' = ⟨[], [e]⟩ := by
  obtain ⟨w, -, rfl⟩ | ⟨-, -, rfl⟩ | ⟨o, outer, -, -, rfl⟩ := step_eq_ok h
  · exact push_done hd he
  · rw [hd] at he
    cases he
  · exact push_done (s := ⟨outer, s.done⟩) hd he

/-- Reading one item ends with the first item that the tokens complete, with the error that
reading all items ends with, or with nothing read. -/
theorem runItem_cases {pre : List Located} {s : ReaderState} (n : Line) (ts : List Located)
    (hs : start.run pre = .ok s) (hd : s.done = []) :
    (∃ e us post, ts = us ++ post ∧ readItems (pre ++ us) = .ok [e] ∧
      s.runItem n ts = .ok (e, post)) ∨
    (∃ err, readItems (pre ++ ts) = .error err ∧ s.runItem n ts = .error err) ∨
    (pre ++ ts = [] ∧ s.runItem n ts = .error ⟨n, .endOfInput⟩) := by
  induction ts generalizing pre s with
  | nil =>
    rw [List.append_nil]
    cases ho : s.opened with
    | nil =>
      have hl := run_linear hs
      rw [linear, hd, ho, linearOpened, List.reverse_nil, linearItems, List.append_nil] at hl
      refine .inr (.inr ⟨List.map_eq_nil_iff.mp (List.nil_eq.mp hl), ?_⟩)
      simp only [runItem, ho]
    | cons o outer =>
      refine .inr (.inl ⟨⟨o.line, .unclosed⟩, ?_, ?_⟩)
      · rw [readItems_of_run_ok hs]
        simp only [finish, ho]
      · simp only [runItem, ho]
  | cons t ts ih =>
    cases ht : s.step t with
    | error err =>
      refine .inr (.inl ⟨err, readItems_of_run_error ?_, ?_⟩)
      · rw [run_append _ hs, run, ht]
      · simp only [runItem, ht]
    | ok s' =>
      have hs' : start.run (pre ++ [t]) = .ok s' := by rw [run_append _ hs, run_cons [] ht, run]
      cases hd' : s'.done with
      | nil =>
        have hr : s.runItem n (t :: ts) = s'.runItem n ts := by simp only [runItem, ht, hd']
        rw [hr]
        rcases ih hs' hd' with ⟨e, us, post, rfl, hi, h⟩ | ⟨err, hi, h⟩ | ⟨hn, -⟩
        · exact .inl ⟨e, t :: us, post, rfl, by simpa using hi, h⟩
        · exact .inr (.inl ⟨err, by simpa using hi, h⟩)
        · simp at hn
      | cons e r =>
        refine .inl ⟨e, [t], ts, rfl, ?_, by simp only [runItem, ht, hd']⟩
        rw [readItems_of_run_ok hs', step_done ht hd hd']
        rfl

end ReaderState

theorem readExpression_eq_of_error {src : String} {ts : Tokens} {err : ReadError}
    (h : tokens src = .ok ts)
    (hr : ReaderState.start.runItem ts.lastLine ts.items = .error err) :
    readExpression src = .error err := by
  simp only [readExpression, h, hr]

theorem readExpression_eq_of_ok {src : String} {ts : Tokens} {e : Expr} (h : tokens src = .ok ts)
    (hr : ReaderState.start.runItem ts.lastLine ts.items = .ok (e, [])) :
    readExpression src = .ok e := by
  simp only [readExpression, h, hr]

/-- Reading one expression is reading a command unless the text is empty or a token follows the
first complete item. -/
theorem readExpression_eq_readCommand {src : String} {ts : Tokens} (h : tokens src = .ok ts)
    (hne : ts.items ≠ [])
    (hone : ∀ us post e, ts.items = us ++ post → pieces us = Expr.linear e → post = []) :
    readExpression src = readCommand src := by
  have h₀ : ReaderState.start.run [] = .ok .start := rfl
  rcases ReaderState.runItem_cases ts.lastLine ts.items h₀ rfl with
    ⟨e, us, post, hts, hi, hr⟩ | ⟨err, hi, hr⟩ | ⟨hn, -⟩
  · have hp : pieces us = Expr.linear e := by
      have := (readItems_eq_ok_iff.mp hi).1
      rwa [List.nil_append, linearItems, linearItems, List.append_nil] at this
    have hnil := hone us post e hts hp
    rw [hnil, List.append_nil] at hts
    rw [hnil] at hr
    rw [List.nil_append, ← hts] at hi
    rw [readExpression_eq_of_ok h hr, (readCommand_eq_ok_iff h).mpr ⟨[e], hi, rfl⟩]
  · rw [readExpression_eq_of_error h hr, readCommand_of_readItems_error h hi]
  · exact absurd hn hne

/-- On the tokens of one expression, reading an expression is reading a command. -/
theorem readExpression_eq_of_linear {src : String} {ts : Tokens} {e : Expr}
    (h : tokens src = .ok ts) (he : pieces ts.items = Expr.linear e) :
    readExpression src = readCommand src := by
  refine readExpression_eq_readCommand h ?_ fun us post x hts hx => ?_
  · intro hn
    rw [hn, pieces_nil] at he
    exact Expr.linear_ne_nil e he.symm
  · rw [hts, pieces_append, hx, ← List.append_nil (Expr.linear e)] at he
    exact List.map_eq_nil_iff.mp (Expr.linear_append_inj x e he).2

theorem command?_eq_some_iff {es : List Expr} {e : Expr} :
    command? es = some e ↔ es = [e] ∨ (2 ≤ es.length ∧ e = .list es) := by
  match es with
  | [] => simp [command?]
  | [x] => simp [command?]
  | x :: y :: zs => simp [command?, eq_comm]

/-- A command is read exactly if its tokens are the linear forms of one or more expressions, none
nested too deep, and it is then that expression or the list of them. Otherwise the first violation
is reported. Reading an expression is the same, on one expression and wherever there is a token and
none follows a complete first item, so that violations are reported alike. -/
theorem readCommand_grammar {src : String} {ts : Tokens} (h : tokens src = .ok ts) :
    (∀ e, readCommand src = .ok e ↔
      ∃ es, pieces ts.items = linearItems es ∧ (∀ x ∈ es, x.depth ≤ 256) ∧
        (es = [e] ∨ (2 ≤ es.length ∧ e = .list es))) ∧
    (∀ line message,
      (∃ err, readCommand src = .error err ∧ err.line = line ∧ err.fault.message = message) ↔
        FirstViolation ts.items line message) ∧
    (∀ e, pieces ts.items = Expr.linear e → readExpression src = readCommand src) ∧
    (ts.items ≠ [] →
      (∀ us post e, ts.items = us ++ post → pieces us = Expr.linear e → post = []) →
      readExpression src = readCommand src) := by
  refine ⟨fun e => ?_, fun line message => ⟨?_, error_of_firstViolation h⟩,
    fun e he => readExpression_eq_of_linear h he, readExpression_eq_readCommand h⟩
  · rw [readCommand_eq_ok_iff h]
    simp only [readItems_eq_ok_iff, command?_eq_some_iff, and_assoc]
    rfl
  · rintro ⟨err, he, rfl, rfl⟩
    exact firstViolation_of_error h he

/-- Two items on two lines, one of them a list, are read as a list of the two. -/
theorem readCommand_grammar_two_items :
    tokens "(a b) -- c\nd" = .ok ⟨[⟨.opening, 1⟩, ⟨.word "a", 1⟩, ⟨.word "b", 1⟩, ⟨.closing, 1⟩,
      ⟨.word "d", 2⟩], 2⟩ ∧
    readCommand "(a b) -- c\nd" = .ok (.list [.list [.atom "a", .atom "b"], .atom "d"]) := by
  have h : tokens "(a b) -- c\nd" = .ok ⟨[⟨.opening, 1⟩, ⟨.word "a", 1⟩, ⟨.word "b", 1⟩,
      ⟨.closing, 1⟩, ⟨.word "d", 2⟩], 2⟩ := by
    simp +decide [tokens, Token.scan, Except.map, Tokens.cons]
  refine ⟨h, ((readCommand_grammar h).1 _).mpr ⟨[.list [.atom "a", .atom "b"], .atom "d"], rfl,
    ?_, .inr ⟨by decide, rfl⟩⟩⟩
  decide

end Scenario
