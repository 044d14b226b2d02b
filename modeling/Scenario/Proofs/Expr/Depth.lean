import Scenario.Proofs.Expr.RoundTrip

/-!
# How deep what is read is nested

The reader refuses the parenthesis that would open one list too many, so every item that it
completes is within the depth that is read. Reading one expression returns such an item
(`readExpression_eq_ok_iff`). A command of several items is the list of them, which has no
parenthesis in the text and is not counted: it is within the depth as well, or one of the items is
as deep as can be and the list is one level deeper (`depth_of_command?`).

`read_depth` says what this means for reading back: what is returned is read back from its written
form, but for these lists, which are refused. They do occur (`readCommand_deepestRow`).
-/

namespace Scenario

open Scenario.Expr (linearItems writtenItems)

/-! ## Items and the list of them -/

/-- One expression is read exactly if it is the only item. -/
theorem readExpression_eq_ok_iff {src : String} {ts : Tokens} {e : Expr}
    (h : tokens src = .ok ts) :
    readExpression src = .ok e ↔ readItems ts.items = .ok [e] := by
  constructor
  · intro he
    have h₀ : ReaderState.start.run [] = .ok .start := rfl
    rcases ReaderState.runItem_cases ts.lastLine ts.items h₀ rfl with
      ⟨x, us, post, hts, hi, hr⟩ | ⟨err, -, hr⟩ | ⟨-, hr⟩
    · cases post with
      | nil =>
        rw [readExpression_eq_of_ok h hr] at he
        cases he
        rw [hts, List.append_nil]
        exact hi
      | cons t post =>
        simp only [readExpression, h, hr] at he
        cases he
    · rw [readExpression_eq_of_error h hr] at he
      cases he
    · rw [readExpression_eq_of_error h hr] at he
      cases he
  · intro hi
    have hp : pieces ts.items = e.linear := by
      have hl := (readItems_eq_ok_iff.mp hi).1
      rwa [linearItems, linearItems, List.append_nil] at hl
    rw [readExpression_eq_of_linear h hp]
    exact (readCommand_eq_ok_iff h).mpr ⟨[e], hi, rfl⟩

theorem exists_tokens_of_readExpression {src : String} {e : Expr}
    (h : readExpression src = .ok e) : ∃ ts, tokens src = .ok ts := by
  cases ht : tokens src with
  | ok ts => exact ⟨ts, rfl⟩
  | error err =>
    simp only [readExpression, ht] at h
    cases h

theorem exists_tokens_of_readCommand {src : String} {e : Expr} (h : readCommand src = .ok e) :
    ∃ ts, tokens src = .ok ts := by
  cases ht : tokens src with
  | ok ts => exact ⟨ts, rfl⟩
  | error err =>
    simp only [readCommand, ht] at h
    cases h

theorem readLine_eq_some {line : Line} {cs : List Char} {e : Expr}
    (h : readLine line cs = .ok (some e)) :
    ∃ ts es, Token.scan 1 cs = .ok ts ∧ readItems ts.items = .ok es ∧ command? es = some e := by
  unfold readLine at h
  split at h
  · cases h
  · rename_i ts hts
    split at h
    · cases h
    · rename_i es hes
      exact ⟨ts, es, hts, hes, Except.ok.inj h⟩

/-- Every command of a script is that of one of its lines. -/
theorem exists_line_of_mem_readLines {line : Line} {ls : List (List Char)} {es : List Expr}
    (h : readLines line ls = .ok es) {e : Expr} (he : e ∈ es) :
    ∃ l ∈ ls, ∃ n, readLine n l = .ok (some e) := by
  induction ls generalizing line es with
  | nil =>
    cases h
    cases he
  | cons l ls ih =>
    rw [readLines] at h
    split at h
    · cases h
    · rename_i e? hl
      cases hr : readLines (line + 1) ls with
      | error err =>
        rw [hr] at h
        cases h
      | ok rest =>
        rw [hr] at h
        cases h
        rcases List.mem_append.mp he with hm | hm
        · rw [Option.mem_toList] at hm
          exact ⟨l, .head _, line, hm ▸ hl⟩
        · obtain ⟨l', hl', hread⟩ := ih hr hm
          exact ⟨l', .tail _ hl', hread⟩

/-- A text of several items, each within the depth that is read and one of them that deep, and the
list of them. -/
def DeepRow (cs : List Char) (e : Expr) : Prop :=
  ∃ ts es, Token.scan 1 cs = .ok ts ∧ pieces ts.items = linearItems es ∧ 2 ≤ es.length ∧
    (∀ x ∈ es, x.depth ≤ 256) ∧ (∃ x ∈ es, x.depth = 256) ∧ e = .list es

theorem DeepRow.depth_eq {cs : List Char} {e : Expr} (h : DeepRow cs e) : e.depth = 257 := by
  obtain ⟨ts, es, -, -, -, hle, ⟨x, hx, hdepth⟩, rfl⟩ := h
  have h₁ := Expr.deepest_le_iff.mpr hle
  have h₂ := Expr.depth_le_deepest hx
  rw [Expr.depth]
  omega

/-- A command is within the depth that is read, or it is the list of several items that are. -/
theorem depth_of_command? {cs : List Char} {ts : Tokens} {es : List Expr} {e : Expr}
    (hts : Token.scan 1 cs = .ok ts) (hes : readItems ts.items = .ok es)
    (he : command? es = some e) : e.depth ≤ 256 ∨ DeepRow cs e := by
  obtain ⟨hpieces, hle⟩ := readItems_eq_ok_iff.mp hes
  rcases command?_eq_some_iff.mp he with rfl | ⟨hlen, rfl⟩
  · exact .inl (hle e (List.mem_singleton_self e))
  · by_cases hdeep : ∃ x ∈ es, x.depth = 256
    · exact .inr ⟨ts, es, hts, hpieces, hlen, hle, hdeep, rfl⟩
    · -- no item is as deep as can be, so there is room for one more list around them
      left
      have hlt : Expr.deepest es ≤ 255 := by
        refine Expr.deepest_le_iff.mpr fun x hx => ?_
        have h₁ : x.depth ≤ 256 := hle x hx
        have h₂ : x.depth ≠ 256 := fun heq => hdeep ⟨x, hx, heq⟩
        omega
      rw [Expr.depth]
      omega

/-! ## Reading back as a script -/

theorem lines_text (e : Expr) : Text.lines e.text.toList = [e.written] := by
  have he := Expr.oneLine_written e
  rw [Expr.toList_text, Text.lines_last he.no_newline he.ne_nil]

theorem readScript_text {e : Expr} (h : e.depth ≤ maxDepth) : readScript e.text = .ok [e] := by
  rw [readScript, lines_text]
  exact readLines_written (List.forall_mem_singleton.mpr h) 1

/-- What is refused as a command is refused as an item: it has tokens. -/
theorem readItems_written_tooDeep {e : Expr} (h : maxDepth < e.depth) :
    ∃ err, readItems (e.writtenTokens 1) = .error err ∧
      err.fault.message = "lists nested deeper than 256" := by
  obtain ⟨err, hread, -, hmessage⟩ := readCommand_text_tooDeep h
  cases hi : readItems (e.writtenTokens 1) with
  | error err' =>
    rw [readCommand_of_readItems_error e.tokens_text hi] at hread
    cases hread
    exact ⟨err, rfl, hmessage⟩
  | ok es =>
    obtain ⟨hl, hd⟩ := readItems_eq_ok_iff.mp hi
    rw [Expr.linearItems_eq_linear (hl.symm.trans (e.pieces_writtenTokens 1))] at hd
    exact absurd (hd e (List.mem_singleton_self e)) (Nat.not_le_of_lt h)

theorem readScript_text_tooDeep {e : Expr} (h : maxDepth < e.depth) :
    ∃ err, readScript e.text = .error err ∧ err.line = 1 ∧
      err.fault.message = "lists nested deeper than 256" := by
  obtain ⟨err, hi, hmessage⟩ := readItems_written_tooDeep h
  have ht := e.tokens_text
  rw [tokens, Expr.toList_text] at ht
  refine ⟨⟨1, err.fault⟩, ?_, rfl, hmessage⟩
  rw [readScript, lines_text]
  simp only [readLines, readLine, ht, hi]

/-! ## A row of items -/

theorem Expr.text_list (xs : List Expr) :
    (list xs).text = "(" ++ String.ofList (writtenItems xs) ++ ")" := by
  rw [← String.toList_inj, toList_text, written]
  simp

theorem tokens_writtenItems (es : List Expr) :
    tokens (String.ofList (writtenItems es)) = .ok ⟨Expr.writtenItemTokens 1 es, 1⟩ := by
  have h := Expr.scan_writtenItems 1 es (show Token.endsWord [] = true from rfl)
  rw [List.append_nil, Token.scan_nil] at h
  rw [tokens, String.toList_ofList, h]
  simp [Except.map, Tokens.prepend]

/-- Several items, written one after the other, are read as the list of them. -/
theorem readCommand_writtenItems {es : List Expr} (hlen : 2 ≤ es.length)
    (h : ∀ e ∈ es, e.depth ≤ maxDepth) :
    readCommand (String.ofList (writtenItems es)) = .ok (.list es) := by
  have hitems : readItems (Expr.writtenItemTokens 1 es) = .ok es :=
    readItems_eq_ok_iff.mpr ⟨Expr.pieces_writtenItemTokens 1 es, h⟩
  have hcommand : command? es = some (.list es) := command?_eq_some_iff.mpr (.inr ⟨hlen, rfl⟩)
  exact (readCommand_eq_ok_iff (tokens_writtenItems es)).mpr ⟨es, hitems, hcommand⟩

/-! ## What is returned -/

/-- What is read is read back from its written form if it is nested at most 256 deep. One expression
always is. A command, alone or in a script, is so too unless it was written as several items without
parentheses around them, one of which is 256 deep: their list is one level deeper than what is read,
and its written form is refused. -/
theorem read_depth (src : String) :
    (∀ e, readExpression src = .ok e → e.depth ≤ 256 ∧ readExpression e.text = .ok e) ∧
    (∀ e, readCommand src = .ok e →
      (e.depth ≤ 256 ∧ readCommand e.text = .ok e) ∨
      (DeepRow src.toList e ∧ e.depth = 257 ∧ ∃ err, readCommand e.text = .error err ∧
        err.line = 1 ∧ err.fault.message = "lists nested deeper than 256")) ∧
    (∀ es, readScript src = .ok es → ∀ e ∈ es,
      (e.depth ≤ 256 ∧ readScript e.text = .ok [e]) ∨
      ((∃ l ∈ Text.lines src.toList, DeepRow l e) ∧ e.depth = 257 ∧
        ∃ err, readScript e.text = .error err ∧ err.line = 1 ∧
          err.fault.message = "lists nested deeper than 256")) := by
  refine ⟨fun e he => ?_, fun e he => ?_, fun es hes e he => ?_⟩
  · obtain ⟨ts, hts⟩ := exists_tokens_of_readExpression he
    have hi := (readExpression_eq_ok_iff hts).mp he
    have hdepth : e.depth ≤ maxDepth := (readItems_eq_ok_iff.mp hi).2 e (List.mem_singleton_self e)
    refine ⟨hdepth, ?_⟩
    rw [readExpression_text, readCommand_text hdepth]
  · obtain ⟨ts, hts⟩ := exists_tokens_of_readCommand he
    obtain ⟨items, hitems, hcommand⟩ := (readCommand_eq_ok_iff hts).mp he
    rcases depth_of_command? hts hitems hcommand with hdepth | hrow
    · exact .inl ⟨hdepth, readCommand_text hdepth⟩
    · have hdepth := hrow.depth_eq
      exact .inr ⟨hrow, hdepth, readCommand_text_tooDeep (by rw [maxDepth]; omega)⟩
  · obtain ⟨l, hl, n, hread⟩ := exists_line_of_mem_readLines hes he
    obtain ⟨ts, items, hts, hitems, hcommand⟩ := readLine_eq_some hread
    rcases depth_of_command? hts hitems hcommand with hdepth | hrow
    · exact .inl ⟨hdepth, readScript_text hdepth⟩
    · have hdepth := hrow.depth_eq
      exact .inr ⟨⟨l, hl, hrow⟩, hdepth, readScript_text_tooDeep (by rw [maxDepth]; omega)⟩

/-! ## A row that is too deep -/

/-- An empty list in `n` lists. -/
def Expr.nested : Nat → Expr
  | 0 => .list []
  | n + 1 => .list [nested n]

theorem Expr.depth_nested (n : Nat) : (nested n).depth = n + 1 := by
  induction n with
  | zero => rfl
  | succ n ih => rw [nested, depth, deepest, deepest, ih, Nat.max_zero, Nat.add_comm]

theorem Expr.written_nested (n : Nat) :
    (nested n).written = List.replicate (n + 1) '(' ++ List.replicate (n + 1) ')' := by
  induction n with
  | zero => rfl
  | succ n ih =>
    rw [nested, written, writtenItems, ih, List.replicate_succ (n := n + 1),
      List.replicate_succ' (n := n + 1), List.append_assoc, List.cons_append]

/-- A word before a list that is as deep as is read. -/
def deepestRow : List Expr :=
  [.atom "a", .nested 255]

theorem depth_le_of_mem_deepestRow : ∀ e ∈ deepestRow, e.depth ≤ maxDepth := by
  rw [deepestRow, List.forall_mem_cons, List.forall_mem_singleton, Expr.depth_nested]
  exact ⟨Nat.zero_le maxDepth, Nat.le_refl 256⟩

theorem depth_list_deepestRow : (Expr.list deepestRow).depth = 257 := by
  simp only [deepestRow, Expr.depth, Expr.deepest, Expr.depth_nested]
  rfl

theorem readCommand_writtenItems_deepestRow :
    readCommand (String.ofList (writtenItems deepestRow)) = .ok (.list deepestRow) :=
  readCommand_writtenItems (Nat.le_refl 2) depth_le_of_mem_deepestRow

/-- An item with a comment inside, a row of items on the second line of a script, and a row of two
items the second of which is as deep as can be. -/
theorem read_depth_rows :
    let e := Expr.list [.atom "a", .atom "b"]
    let x := Expr.list [.list [.atom "b"], .atom "c"]
    let src := String.ofList (writtenItems deepestRow)
    (readExpression "(a --(\nb)" = .ok e ∧ e.depth ≤ 256 ∧ readExpression e.text = .ok e) ∧
    (readScript "a\n(b) c" = .ok [.atom "a", x] ∧ x.depth ≤ 256 ∧ readScript x.text = .ok [x]) ∧
    (readCommand src = .ok (.list deepestRow) ∧ DeepRow src.toList (.list deepestRow) ∧
      ∃ err, readCommand (Expr.list deepestRow).text = .error err ∧ err.line = 1) := by
  intro e x src
  have he : readExpression "(a --(\nb)" = .ok e := by
    have hts : tokens "(a --(\nb)" =
        .ok ⟨[⟨.opening, 1⟩, ⟨.word "a", 1⟩, ⟨.word "b", 2⟩, ⟨.closing, 2⟩], 2⟩ := by
      simp +decide [tokens, Token.scan, Except.map, Tokens.cons]
    exact (readExpression_eq_ok_iff hts).mpr rfl
  have hx : readScript "a\n(b) c" = .ok [.atom "a", x] := by
    have hlines : Text.lines "a\n(b) c".toList = ["a".toList, "(b) c".toList] := by decide
    have hfirst : Token.scan 1 "a".toList = .ok ⟨[⟨.word "a", 1⟩], 1⟩ := by
      simp +decide [Token.scan, Except.map, Tokens.cons]
    have hsecond : Token.scan 1 "(b) c".toList =
        .ok ⟨[⟨.opening, 1⟩, ⟨.word "b", 1⟩, ⟨.closing, 1⟩, ⟨.word "c", 1⟩], 1⟩ := by
      simp +decide [Token.scan, Except.map, Tokens.cons]
    rw [readScript, hlines]
    simp only [readLines, readLine, hfirst, hsecond]
    rfl
  have hrow : readCommand src = .ok (.list deepestRow) := readCommand_writtenItems_deepestRow
  refine ⟨⟨he, (read_depth _).1 e he⟩, ⟨hx, ?_⟩, hrow, ?_⟩
  · rcases (read_depth _).2.2 _ hx x (by decide) with h | ⟨-, hdepth, -⟩
    · exact h
    · exact absurd hdepth (by decide)
  · rcases (read_depth _).2.1 _ hrow with ⟨hdepth, -⟩ | ⟨hdeep, -, err, herr, hline, -⟩
    · rw [depth_list_deepestRow] at hdepth
      exact absurd hdepth (by decide)
    · exact ⟨hdeep, err, herr, hline⟩

/-- Without parentheses around the two of them, a word and a list that is 256 deep are read, and
with them they are not. So a command can be nested deeper than what is read, and its written form is
refused. -/
theorem readCommand_deepestRow :
    let src := String.ofList ("a ".toList ++ (List.replicate 256 '(' ++ List.replicate 256 ')'))
    ∃ e, readCommand src = .ok e ∧ e.text = "(" ++ src ++ ")" ∧ ¬e.depth ≤ 256 ∧
      readCommand e.text ≠ .ok e := by
  have hrow : writtenItems deepestRow =
      "a ".toList ++ (List.replicate 256 '(' ++ List.replicate 256 ')') := by
    rw [deepestRow, writtenItems, writtenItems, Expr.written_nested]
    · rfl
    · exact nofun
  have hdepth : ¬(Expr.list deepestRow).depth ≤ 256 := by
    rw [depth_list_deepestRow]
    decide
  rw [← hrow]
  refine ⟨.list deepestRow, readCommand_writtenItems_deepestRow, Expr.text_list deepestRow, hdepth,
    fun h => ?_⟩
  obtain ⟨err, herr, -⟩ := readCommand_text_tooDeep (Nat.lt_of_not_le hdepth)
  rw [herr] at h
  cases h

end Scenario
