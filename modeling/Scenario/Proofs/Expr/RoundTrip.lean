import Scenario.Proofs.Expr.Reader
import Scenario.Proofs.Expr.Token

/-!
# Reading what is written

The written form of an expression is cut into the tokens of its linear form, all on one line
(`Expr.tokens_text`). Written forms hold no newline and do not end in a carriage return
(`Expr.oneLine_written`), so a script of them has one line for each.

`read_text` says that what is written is read back: one expression as an expression and as a
command, and a row of them, one on each line, as a script, unless a list is nested too deep.
-/

namespace Scenario

open Text (isBlank)

namespace Expr

mutual

/-- The tokens of the written form of an expression that stands on one line. -/
def writtenTokens (line : Line) : Expr → List Located
  | atom s => [⟨if isBare s.toList then .word s else .quoted s, line⟩]
  | list xs => ⟨.opening, line⟩ :: (writtenItemTokens line xs ++ [⟨.closing, line⟩])

/-- The tokens of the written forms of a row of expressions. -/
def writtenItemTokens (line : Line) : List Expr → List Located
  | [] => []
  | x :: xs => writtenTokens line x ++ writtenItemTokens line xs

end

mutual

theorem pieces_writtenTokens (line : Line) : ∀ e : Expr, pieces (writtenTokens line e) = linear e
  | atom s => by
    simp only [writtenTokens, linear, pieces_cons, pieces_nil]
    split <;> rfl
  | list xs => by
    simp only [writtenTokens, linear, pieces_cons, pieces_append, pieces_nil,
      pieces_writtenItemTokens line xs, Token.piece]

theorem pieces_writtenItemTokens (line : Line) : ∀ xs : List Expr,
    pieces (writtenItemTokens line xs) = linearItems xs
  | [] => rfl
  | x :: xs => by
    rw [writtenItemTokens, linearItems, pieces_append, pieces_writtenTokens line x,
      pieces_writtenItemTokens line xs]

end

mutual

theorem line_of_mem_writtenTokens (line : Line) : ∀ (e : Expr) {t : Located},
    t ∈ writtenTokens line e → t.line = line
  | atom s, t, h => by
    rw [writtenTokens, List.mem_singleton] at h
    rw [h]
  | list xs, t, h => by
    rw [writtenTokens, List.mem_cons, List.mem_append, List.mem_singleton] at h
    rcases h with rfl | h | rfl
    · rfl
    · exact line_of_mem_writtenItemTokens line xs h
    · rfl

theorem line_of_mem_writtenItemTokens (line : Line) : ∀ (xs : List Expr) {t : Located},
    t ∈ writtenItemTokens line xs → t.line = line
  | [], t, h => by cases h
  | x :: xs, t, h => by
    rw [writtenItemTokens, List.mem_append] at h
    rcases h with h | h
    · exact line_of_mem_writtenTokens line x h
    · exact line_of_mem_writtenItemTokens line xs h

end

theorem inWord_of_not_needsQuotes {c : Char} (h : needsQuotes c = false) :
    Token.inWord c = true := by
  simp only [needsQuotes, Bool.or_eq_false_iff] at h
  simp only [Token.inWord, h, Bool.or_false, Bool.not_false]

/-- An atom written without quotes has no character that would need them. -/
theorem not_needsQuotes_of_isBare {cs : List Char} (h : isBare cs = true) {c : Char}
    (hc : c ∈ cs) : needsQuotes c = false := by
  unfold isBare at h
  split at h
  · cases h
  · cases h
  · rw [Bool.not_eq_true', List.any_eq_false] at h
    exact Bool.eq_false_iff.mpr (h c hc)

theorem isWord_of_isBare {cs : List Char} (h : isBare cs = true) : Token.isWord cs = true := by
  have hall : cs.all Token.inWord = true :=
    List.all_eq_true.mpr fun c hc => inWord_of_not_needsQuotes (not_needsQuotes_of_isBare h hc)
  have hs : Token.startsComment cs = false := by
    unfold Token.startsComment
    split
    · simp [isBare] at h
    · rfl
  have he : cs.isEmpty = false := by
    cases cs with
    | nil => cases h
    | cons c r => rfl
  rw [Token.isWord, hall, hs, he]
  rfl

mutual

/-- A written expression is cut into its tokens, and what follows it is left, if it does not go
on with the last word. -/
theorem scan_written (line : Line) : ∀ (e : Expr) {rest : List Char},
    Token.endsWord rest = true → Token.scan line (written e ++ rest) =
      (Token.scan line rest).map (Tokens.prepend (writtenTokens line e))
  | atom s, rest, hr => by
    rw [written, writtenAtom, writtenTokens]
    split
    · rename_i hb
      rw [Token.scan_word line (isWord_of_isBare hb) hr, String.ofList_toList]
      rfl
    · rw [Token.scan_quotedAtom, String.ofList_toList]
      rfl
  | list xs, rest, hr => by
    rw [written, writtenTokens, List.cons_append, List.append_assoc, List.singleton_append,
      Token.scan_opening, scan_writtenItems line xs (Token.endsWord_closing rest),
      Token.scan_closing, ← Tokens.map_cons_map_prepend]
    cases Token.scan line rest with
    | error e => rfl
    | ok ts => simp [Except.map, Tokens.prepend, Tokens.cons]

theorem scan_writtenItems (line : Line) : ∀ (xs : List Expr) {rest : List Char},
    Token.endsWord rest = true → Token.scan line (writtenItems xs ++ rest) =
      (Token.scan line rest).map (Tokens.prepend (writtenItemTokens line xs))
  | [], rest, _ => by
    rw [writtenItems, writtenItemTokens, List.nil_append]
    cases Token.scan line rest <;> rfl
  | [x], rest, hr => by
    rw [writtenItems, writtenItemTokens, writtenItemTokens, List.append_nil]
    exact scan_written line x hr
  | x :: y :: ys, rest, hr => by
    rw [writtenItems, writtenItemTokens, List.append_assoc, List.cons_append,
      scan_written line x (Token.endsWord_space _), Token.scan_space,
      scan_writtenItems line (y :: ys) hr, Tokens.map_prepend_map_prepend]
    exact nofun

end

/-- The tokens of a written expression. -/
theorem tokens_text (e : Expr) : tokens e.text = .ok ⟨writtenTokens 1 e, 1⟩ := by
  have h := scan_written 1 e (show Token.endsWord [] = true from rfl)
  rw [List.append_nil, Token.scan_nil] at h
  rw [tokens, toList_text, h]
  simp [Except.map, Tokens.prepend]

/-! ## Lines -/

/-- A text that is a line of a script, whatever comes after it. -/
structure OneLine (cs : List Char) : Prop where
  ne_nil : cs ≠ []
  no_newline : '\n' ∉ cs
  no_return : cs.getLast? ≠ some '\r'

theorem oneLine_of_last {cs : List Char} {c : Char} (hc : c ≠ '\n') (hr : c ≠ '\r')
    (h : '\n' ∉ cs) : OneLine (cs ++ [c]) where
  ne_nil := by simp
  no_newline := by
    rw [List.mem_append, List.mem_singleton]
    rintro (hm | rfl)
    · exact h hm
    · exact hc rfl
  no_return := by simpa using hr

theorem newline_not_mem_escaped (c : Char) : '\n' ∉ escaped c := by
  unfold escaped
  split
  · decide
  · decide
  · decide
  · decide
  · rename_i hn _
    simpa using fun h => hn h.symm

theorem newline_not_mem_quotedAtom (cs : List Char) : '\n' ∉ '"' :: cs.flatMap escaped := by
  rw [List.mem_cons, List.mem_flatMap]
  rintro (h | ⟨c, -, hc⟩)
  · exact absurd h (by decide)
  · exact newline_not_mem_escaped c hc

theorem not_mem_of_isBare {cs : List Char} {c : Char} (h : isBare cs = true)
    (hc : isBlank c = true) : c ∉ cs := by
  intro hm
  have := not_needsQuotes_of_isBare h hm
  simp [needsQuotes, hc] at this

mutual

/-- A written expression stands on one line. -/
theorem oneLine_written : ∀ e : Expr, OneLine (written e)
  | atom s => by
    rw [written, writtenAtom]
    split
    · rename_i hb
      refine ⟨fun hn => ?_, not_mem_of_isBare hb (by decide), fun hr => ?_⟩
      · rw [hn] at hb
        cases hb
      · exact not_mem_of_isBare hb (by decide) (List.mem_of_getLast? hr)
    · exact oneLine_of_last (by decide) (by decide) (newline_not_mem_quotedAtom s.toList)
  | list xs => by
    rw [written, ← List.cons_append]
    refine oneLine_of_last (by decide) (by decide) ?_
    rw [List.mem_cons]
    rintro (h | h)
    · exact absurd h (by decide)
    · exact newline_not_mem_writtenItems xs h

theorem newline_not_mem_writtenItems : ∀ xs : List Expr, '\n' ∉ writtenItems xs
  | [] => by simp [writtenItems]
  | [x] => by
    rw [writtenItems]
    exact (oneLine_written x).no_newline
  | x :: y :: ys => by
    rw [writtenItems, List.mem_append, List.mem_cons]
    · rintro (h | h | h)
      · exact (oneLine_written x).no_newline h
      · exact absurd h (by decide)
      · exact newline_not_mem_writtenItems (y :: ys) h
    · exact nofun

end

end Expr

namespace Text

theorem lines_cons {c : Char} {r : List Char} (hn : c ≠ '\n')
    (hr : c = '\r' → ∀ r', r ≠ '\n' :: r') : lines (c :: r) = consFirst c (lines r) := by
  rw [lines]
  · exact hn
  · rintro r' rfl rfl
    exact hr rfl r' rfl

theorem lines_last {cs : List Char} (h : '\n' ∉ cs) (hne : cs ≠ []) : lines cs = [cs] := by
  induction cs with
  | nil => exact absurd rfl hne
  | cons c cs ih =>
    rw [List.mem_cons, not_or] at h
    rw [lines_cons (Ne.symm h.1) fun _ r' hr => h.2 (by rw [hr]; exact List.mem_cons_self)]
    cases cs with
    | nil => rfl
    | cons d ds =>
      rw [ih h.2 (List.cons_ne_nil d ds)]
      rfl

theorem lines_append {cs : List Char} (h : '\n' ∉ cs) (hr : cs.getLast? ≠ some '\r')
    (rest : List Char) : lines (cs ++ '\n' :: rest) = cs :: lines rest := by
  induction cs with
  | nil => rfl
  | cons c cs ih =>
    rw [List.mem_cons, not_or] at h
    cases cs with
    | nil =>
      have hc : c ≠ '\r' := by simpa using hr
      rw [List.cons_append, lines_cons (Ne.symm h.1) fun he => absurd he hc]
      rfl
    | cons d ds =>
      rw [List.cons_append, lines_cons (Ne.symm h.1), ih h.2 (by simpa using hr)]
      · rfl
      · intro _ r' he
        rw [List.cons_append, List.cons.injEq] at he
        exact h.2 (by rw [he.1]; exact List.mem_cons_self)

end Text

/-- The lines of a script of written expressions. -/
theorem lines_script (es : List Expr) :
    Text.lines ("\n".intercalate (es.map Expr.text)).toList = es.map Expr.written := by
  induction es with
  | nil => rfl
  | cons e es ih =>
    have he := Expr.oneLine_written e
    cases es with
    | nil =>
      rw [List.map_singleton, String.intercalate_singleton, Expr.toList_text,
        Text.lines_last he.no_newline he.ne_nil]
      rfl
    | cons x xs =>
      rw [List.map_cons, List.map_cons, String.intercalate_cons_cons, ← List.map_cons,
        String.toList_append, String.toList_append, Expr.toList_text, List.append_assoc,
        show "\n".toList = ['\n'] from rfl, List.singleton_append,
        Text.lines_append he.no_newline he.no_return, ih]
      rfl

/-! ## Reading back -/

theorem readItems_written {e : Expr} (h : e.depth ≤ maxDepth) :
    readItems (e.writtenTokens 1) = .ok [e] := by
  refine readItems_eq_ok_iff.mpr ⟨?_, by simpa using h⟩
  rw [Expr.pieces_writtenTokens, Expr.linearItems, Expr.linearItems, List.append_nil]

theorem readCommand_text {e : Expr} (h : e.depth ≤ maxDepth) : readCommand e.text = .ok e :=
  (readCommand_eq_ok_iff e.tokens_text).mpr ⟨[e], readItems_written h, rfl⟩

theorem readExpression_text (e : Expr) : readExpression e.text = readCommand e.text :=
  readExpression_eq_of_linear e.tokens_text (e.pieces_writtenTokens 1)

/-- An expression that is nested too deep is refused for that reason: its parentheses match, so
nothing else can be wrong with its written form. -/
theorem readCommand_text_tooDeep {e : Expr} (h : maxDepth < e.depth) :
    ∃ err, readCommand e.text = .error err ∧ err.line = 1 ∧
      err.fault.message = "lists nested deeper than 256" := by
  have hp := e.pieces_writtenTokens 1
  have hb := e.balanced_linear
  cases hr : readCommand e.text with
  | ok x =>
    obtain ⟨es, hi, -⟩ := (readCommand_eq_ok_iff e.tokens_text).mp hr
    obtain ⟨hl, hd⟩ := readItems_eq_ok_iff.mp hi
    rw [Expr.linearItems_eq_linear (hl.symm.trans hp)] at hd
    exact absurd (hd e (List.mem_singleton_self e)) (Nat.not_le_of_lt h)
  | error err =>
    refine ⟨err, rfl, ?_⟩
    obtain ⟨line, fault⟩ := err
    have hv := firstViolation_of_error e.tokens_text hr
    simp only at hv ⊢
    generalize fault.message = message at hv ⊢
    cases hv with
    | strayClosing split before none_open =>
      rw [split, pieces_append, pieces_cons, List.append_cons] at hp
      have h₁ := hb.nesting_nonneg hp.symm
      rw [nesting_append, none_open, Token.piece, nesting_closing, nesting_nil] at h₁
      omega
    | @tooDeep pre post line split =>
      have hm : (⟨.opening, line⟩ : Located) ∈ e.writtenTokens 1 := by
        rw [split]
        exact List.mem_append_right _ List.mem_cons_self
      exact ⟨e.line_of_mem_writtenTokens 1 hm, rfl⟩
    | unclosed orderly split after =>
      have h₀ := hb.nesting_eq
      rw [split, pieces_append] at hp
      have h₁ := hb.nesting_nonneg hp.symm
      rw [← hp, pieces_cons, nesting_append, Token.piece, nesting_opening, after.nesting_eq] at h₀
      omega
    | empty no_token =>
      rw [no_token, pieces_nil] at hp
      exact absurd hp.symm e.linear_ne_nil

theorem readLine_written {e : Expr} (h : e.depth ≤ maxDepth) (line : Line) :
    readLine line e.written = .ok (some e) := by
  have ht := e.tokens_text
  rw [tokens, Expr.toList_text] at ht
  simp only [readLine, ht, readItems_written h, command?]

theorem readLines_written {es : List Expr} (h : ∀ e ∈ es, e.depth ≤ maxDepth) (line : Line) :
    readLines line (es.map Expr.written) = .ok es := by
  induction es generalizing line with
  | nil => rfl
  | cons e es ih =>
    rw [List.forall_mem_cons] at h
    rw [List.map_cons, readLines, readLine_written h.1, ih h.2]
    rfl

/-- What is written is read back. An expression within the depth that is read is read back from its
text, as an expression and as a command; a deeper one is refused. A script of expressions, one on
each line, is read back as these expressions. -/
theorem read_text :
    (∀ e : Expr, e.depth ≤ 256 → readExpression e.text = .ok e ∧ readCommand e.text = .ok e) ∧
    (∀ e : Expr, 256 < e.depth → ∃ err, readExpression e.text = .error err ∧ err.line = 1 ∧
      err.fault.message = "lists nested deeper than 256") ∧
    (∀ es : List Expr, (∀ e ∈ es, e.depth ≤ 256) →
      readScript ("\n".intercalate (es.map Expr.text)) = .ok es) := by
  refine ⟨fun e h => ?_, fun e h => ?_, fun es h => ?_⟩
  · rw [readExpression_text]
    exact ⟨readCommand_text h, readCommand_text h⟩
  · rw [readExpression_text]
    exact readCommand_text_tooDeep h
  · rw [readScript, lines_script]
    exact readLines_written h 1

/-- Atoms that are written in quotes for each of the reasons there are and an empty list, alone and
in a script, and a list that is one level too deep. -/
theorem read_text_quoted :
    let e := Expr.list [.atom "", .atom "--a", .atom "\"\\\n\t\r", .list []]
    let deep := Nat.repeat (fun e => Expr.list [e]) 257 (.atom "a")
    readExpression e.text = .ok e ∧
      readScript ("\n".intercalate ([e, .atom "b", e].map Expr.text)) = .ok [e, .atom "b", e] ∧
      ∃ err, readExpression deep.text = .error err ∧ err.line = 1 := by
  intro e deep
  obtain ⟨hread, hdeep, hscript⟩ := read_text
  obtain ⟨err, herr, hline, -⟩ := hdeep deep (by decide +kernel)
  exact ⟨(hread e (by decide)).1, hscript [e, .atom "b", e] (by decide), err, herr, hline⟩

end Scenario
