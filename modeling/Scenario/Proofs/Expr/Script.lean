import Scenario.Proofs.Expr.RoundTrip

/-!
# Scripts line by line

A text is cut at its newlines: what follows one is cut on its own (`Text.lines_append_newline`), and
a text that ends with one has a line for each of them (`Text.length_lines_newline`). The lines are
read one after the other (`readLines_append`), and the number of the first makes a difference to the
lines of errors only (`readLines_later`).

So a script can be read in two parts that meet at a newline (`readScript_append`). A newline at the
end of the first part ends its last line or adds an empty one, which has no command
(`readLines_lines_newline`). A carriage return there would be lost to the line end, which is the one
case that is left out. An error is on one of the lines that are read (`line_of_readLines`), so its
number is exact as long as 32 bits hold the number of lines.
-/

namespace Scenario

/-! ## Lines of a text -/

namespace Text

theorem consFirst_append (c : Char) {ls : List (List Char)} (h : ls ≠ [])
    (ms : List (List Char)) : consFirst c (ls ++ ms) = consFirst c ls ++ ms := by
  cases ls with
  | nil => exact absurd rfl h
  | cons l ls => rfl

theorem length_consFirst (c : Char) {ls : List (List Char)} (h : ls ≠ []) :
    (consFirst c ls).length = ls.length := by
  cases ls with
  | nil => exact absurd rfl h
  | cons l ls => rfl

theorem lines_ne_nil {cs : List Char} (h : cs ≠ []) : lines cs ≠ [] := by
  fun_cases lines cs with
  | case1 => exact absurd rfl h
  | case2 r => exact List.cons_ne_nil _ _
  | case3 r => exact List.cons_ne_nil _ _
  | case4 c r => cases lines r <;> exact List.cons_ne_nil _ _

/-- A character in front of a text with a newline later on belongs to the first line, unless it is
the carriage return just before that newline. -/
theorem lines_cons_append {c : Char} {r : List Char} (hn : c ≠ '\n')
    (hr : ∀ r', c = '\r' → r ≠ '\n' :: r') (hend : ¬(c = '\r' ∧ r = [])) (rest : List Char) :
    lines (c :: (r ++ '\n' :: rest)) = consFirst c (lines (r ++ '\n' :: rest)) := by
  refine lines_cons hn fun hc r' heq => ?_
  cases r with
  | nil => exact hend ⟨hc, rfl⟩
  | cons d ds =>
    rw [List.cons_append, List.cons.injEq] at heq
    exact hr ds hc (by rw [heq.1])

/-- What follows a newline is cut into lines on its own. -/
theorem lines_append_newline (cs rest : List Char) :
    lines (cs ++ '\n' :: rest) = lines (cs ++ ['\n']) ++ lines rest := by
  induction cs using lines.induct with
  | case1 => rfl
  | case2 r ih => simp only [List.cons_append, lines, ih]
  | case3 r ih => simp only [List.cons_append, lines, ih]
  | case4 c r hn hr ih =>
    by_cases hend : c = '\r' ∧ r = []
    · obtain ⟨rfl, rfl⟩ := hend
      rfl
    · have hne : lines (r ++ ['\n']) ≠ [] := lines_ne_nil (by simp)
      rw [List.cons_append, List.cons_append, lines_cons_append hn hr hend,
        lines_cons_append hn hr hend, ih, consFirst_append c hne]

/-- A text that is ended by a newline has one line for each newline. -/
theorem length_lines_newline (cs : List Char) :
    (lines (cs ++ ['\n'])).length = 1 + cs.count '\n' := by
  induction cs using lines.induct with
  | case1 => rfl
  | case2 r ih =>
    simp only [List.cons_append, lines, List.length_cons, List.count_cons_self, ih]
    omega
  | case3 r ih =>
    simp only [List.cons_append, lines, List.length_cons, ih,
      List.count_cons_of_ne (show '\r' ≠ '\n' by decide), List.count_cons_self]
    omega
  | case4 c r hn hr ih =>
    by_cases hend : c = '\r' ∧ r = []
    · obtain ⟨rfl, rfl⟩ := hend
      rfl
    · have hne : lines (r ++ ['\n']) ≠ [] := lines_ne_nil (by simp)
      rw [List.cons_append, lines_cons_append hn hr hend, length_consFirst c hne, ih,
        List.count_cons_of_ne hn]

/-- Ending a text by a newline ends its last line, or adds an empty one where there is none. A
carriage return at the end of the text would be lost. -/
theorem lines_newline {cs : List Char} (h : cs.getLast? ≠ some '\r') :
    lines (cs ++ ['\n']) = lines cs ∨ lines (cs ++ ['\n']) = lines cs ++ [[]] := by
  have htail {c : Char} {r : List Char} (hc : (c :: r).getLast? ≠ some '\r') :
      r.getLast? ≠ some '\r' := by
    cases r with
    | nil => exact nofun
    | cons d ds => rwa [List.getLast?_cons_cons] at hc
  induction cs using lines.induct with
  | case1 => exact .inr rfl
  | case2 r ih =>
    simp only [List.cons_append, lines, List.cons.injEq, true_and]
    exact ih (htail h)
  | case3 r ih =>
    simp only [List.cons_append, lines, List.cons.injEq, true_and]
    exact ih (htail (htail h))
  | case4 c r hn hr ih =>
    have hend : ¬(c = '\r' ∧ r = []) := by
      rintro ⟨rfl, rfl⟩
      exact h rfl
    rw [List.cons_append, lines_cons_append hn hr hend, lines_cons hn fun hc r' => hr r' hc]
    rcases ih (htail h) with heq | heq
    · exact .inl (by rw [heq])
    · rw [heq]
      cases r with
      | nil => exact .inl rfl
      | cons d ds =>
        exact .inr (consFirst_append c (lines_ne_nil (List.cons_ne_nil d ds)) [[]])

theorem length_le_of_mem_lines {cs l : List Char} (h : l ∈ lines cs) :
    l.length ≤ cs.length := by
  fun_induction lines cs generalizing l with
  | case1 => cases h
  | case2 r ih =>
    rcases List.mem_cons.mp h with rfl | h
    · exact Nat.zero_le _
    · exact Nat.le_succ_of_le (ih h)
  | case3 r ih =>
    rcases List.mem_cons.mp h with rfl | h
    · exact Nat.zero_le _
    · exact Nat.le_succ_of_le (Nat.le_succ_of_le (ih h))
  | case4 c r _ _ ih =>
    cases hr : lines r with
    | nil =>
      rw [hr, consFirst, List.mem_singleton] at h
      simp [h]
    | cons first rest =>
      rw [hr] at ih
      rw [hr, consFirst] at h
      rcases List.mem_cons.mp h with rfl | h
      · exact Nat.succ_le_succ (ih (.head _))
      · exact Nat.le_succ_of_le (ih (.tail _ h))

end Text

/-! ## Lines one after the other -/

/-- Two rows of lines are read one after the other, the second only if the first is read. -/
theorem readLines_append (line : Line) (ls ms : List (List Char)) :
    readLines line (ls ++ ms) =
      (readLines line ls).bind fun es =>
        (readLines (line + .ofNat ls.length) ms).map (es ++ ·) := by
  induction ls generalizing line with
  | nil =>
    simp only [List.nil_append, readLines, Except.bind, List.length_nil, Line.add_zero]
    exact (id_map _).symm
  | cons l ls ih =>
    rw [List.cons_append, readLines, readLines, List.length_cons, ← Line.succ_add]
    cases readLine line l with
    | error e => rfl
    | ok e? =>
      simp only [ih]
      cases readLines (line + 1) ls with
      | error e => rfl
      | ok es =>
        cases readLines (line + 1 + .ofNat ls.length) ms <;> simp [Except.bind, Except.map]

/-- An error that is reported so many lines later. -/
def ReadError.later (n : Nat) (e : ReadError) : ReadError :=
  ⟨e.line + .ofNat n, e.fault⟩

theorem readLine_later (n : Nat) (line : Line) (l : List Char) :
    readLine (line + .ofNat n) l = (readLine line l).mapError (.later n) := by
  rw [readLine, readLine]
  cases Token.scan 1 l with
  | error e => rfl
  | ok ts =>
    dsimp only
    cases readItems ts.items <;> rfl

/-- Where a row of lines starts makes a difference to the lines of its errors only. -/
theorem readLines_later (n : Nat) (line : Line) (ls : List (List Char)) :
    readLines (line + .ofNat n) ls = (readLines line ls).mapError (.later n) := by
  induction ls generalizing line with
  | nil => rfl
  | cons l ls ih =>
    rw [readLines, readLines, readLine_later]
    cases readLine line l with
    | error e => rfl
    | ok e? =>
      have hnext : line + .ofNat n + 1 = line + 1 + .ofNat n := by
        rw [UInt32.add_assoc, UInt32.add_comm (.ofNat n), UInt32.add_assoc]
      change (readLines (line + .ofNat n + 1) ls).map _ =
        ((readLines (line + 1) ls).map _).mapError _
      rw [hnext, ih]
      cases readLines (line + 1) ls <;> rfl

theorem line_of_readLine {line : Line} {l : List Char} {e : ReadError}
    (h : readLine line l = .error e) : e.line = line := by
  rw [readLine] at h
  cases hscan : Token.scan 1 l with
  | error e' =>
    rw [hscan] at h
    cases h
    rfl
  | ok ts =>
    simp only [hscan] at h
    cases hitems : readItems ts.items <;> rw [hitems] at h <;> cases h
    rfl

/-- An error is on one of the lines that are read. -/
theorem line_of_readLines {line : Line} {ls : List (List Char)} {e : ReadError}
    (h : readLines line ls = .error e) : ∃ i < ls.length, e.line = line + .ofNat i := by
  induction ls generalizing line with
  | nil => cases h
  | cons l ls ih =>
    rw [readLines] at h
    cases hline : readLine line l with
    | error e' =>
      rw [hline] at h
      cases h
      exact ⟨0, Nat.succ_pos _, by rw [line_of_readLine hline, Line.add_zero]⟩
    | ok e? =>
      simp only [hline] at h
      cases hrest : readLines (line + 1) ls with
      | ok es =>
        rw [hrest] at h
        cases h
      | error e' =>
        rw [hrest] at h
        cases h
        obtain ⟨i, hi, hline⟩ := ih hrest
        exact ⟨i + 1, Nat.succ_lt_succ hi, by rw [hline, Line.succ_add]⟩

/-- An empty line at the end has no command. -/
theorem readLines_append_empty (line : Line) (ls : List (List Char)) :
    readLines line (ls ++ [[]]) = readLines line ls := by
  have hempty (n : Line) : readLines n [[]] = .ok [] := by
    simp only [readLines, readLine, Token.scan_nil]
    rfl
  rw [readLines_append, hempty]
  cases readLines line ls <;> simp [Except.bind, Except.map]

/-- Ending a text by a newline makes no difference to its commands and its errors. -/
theorem readLines_lines_newline (line : Line) {cs : List Char} (h : cs.getLast? ≠ some '\r') :
    readLines line (Text.lines (cs ++ ['\n'])) = readLines line (Text.lines cs) := by
  rcases Text.lines_newline h with heq | heq
  · rw [heq]
  · rw [heq, readLines_append_empty]

theorem length_lines_append (a b : List Char) :
    (Text.lines (a ++ '\n' :: b)).length = 1 + a.count '\n' + (Text.lines b).length := by
  rw [Text.lines_append_newline, List.length_append, Text.length_lines_newline]

/-- The line of an error is exact, and `n` lines further down it is, if 32 bits hold all lines. -/
theorem toNat_line_later {cs : List Char} {e : ReadError} {n : Nat}
    (h : readLines 1 (Text.lines cs) = .error e) (hn : n + (Text.lines cs).length < UInt32.size) :
    (e.line + .ofNat n).toNat = e.line.toNat + n := by
  obtain ⟨i, hi, hline⟩ := line_of_readLines h
  rw [hline, Line.add_add, Line.one_add, Line.one_add, Line.toNat_ofNat (by omega),
    Line.toNat_ofNat (by omega)]
  omega

/-- A script of two parts that meet at a newline is read part by part. If the first part has an
error, that is the error. Otherwise its commands come before those of the second part, and an error
of the second part is as many lines further down as the first part has: in 32 bits, and so exactly
if there are less than `2 ^ 32 - 1` lines in all. -/
theorem readScript_append (a b : String) (h : a.toList.getLast? ≠ some '\r') :
    readScript (a ++ "\n" ++ b) =
      (match readScript a, readScript b with
      | .error e, _ => .error e
      | .ok es, .ok fs => .ok (es ++ fs)
      | .ok _, .error e => .error ⟨e.line + .ofNat (1 + a.toList.count '\n'), e.fault⟩) ∧
    ((Text.lines (a ++ "\n" ++ b).toList).length < UInt32.size - 1 →
      ∀ es e, readScript a = .ok es → readScript b = .error e →
        ∃ line : Line, readScript (a ++ "\n" ++ b) = .error ⟨line, e.fault⟩ ∧
          line.toNat = e.line.toNat + (1 + a.toList.count '\n')) := by
  have hchars : (a ++ "\n" ++ b).toList = a.toList ++ '\n' :: b.toList := by simp
  have happend : readScript (a ++ "\n" ++ b) =
      (readScript a).bind fun es =>
        ((readScript b).mapError (.later (1 + a.toList.count '\n'))).map (es ++ ·) := by
    rw [readScript, hchars, Text.lines_append_newline, readLines_append, readLines_later,
      Text.length_lines_newline, readLines_lines_newline 1 h]
    rfl
  refine ⟨?_, fun hlines es e hes he => ?_⟩
  · rw [happend]
    cases readScript a with
    | error e => rfl
    | ok es => cases readScript b <;> rfl
  · rw [hchars, length_lines_append] at hlines
    refine ⟨e.line + .ofNat (1 + a.toList.count '\n'), ?_, toNat_line_later he (by omega)⟩
    rw [happend, hes, he]
    rfl

/-- A first part with an empty line and a comment at its end, in which a parenthesis does not count,
and a second part whose own third line is at fault. -/
theorem readScript_append_comment :
    let a := "x\n\n-- ("
    let b := "\r\n(y)\n)"
    a.toList.getLast? ≠ some '\r' ∧ readScript a = .ok [.atom "x"] ∧
      readScript b = .error ⟨3, .strayClosing⟩ ∧
      readScript (a ++ "\n" ++ b) = .error ⟨6, .strayClosing⟩ ∧
      (Text.lines (a ++ "\n" ++ b).toList).length < UInt32.size - 1 ∧
      ∃ line : Line, readScript (a ++ "\n" ++ b) = .error ⟨line, .strayClosing⟩ ∧
        line.toNat = 3 + (1 + a.toList.count '\n') := by
  intro a b
  have hend : a.toList.getLast? ≠ some '\r' := by decide
  have hx : Token.scan 1 "x".toList = .ok ⟨[⟨.word "x", 1⟩], 1⟩ := by
    simp +decide [Token.scan, Except.map, Tokens.cons]
  have hcomment : Token.scan 1 "-- (".toList = .ok ⟨[], 1⟩ := by
    simp +decide [Token.scan]
  have hy : Token.scan 1 "(y)".toList =
      .ok ⟨[⟨.opening, 1⟩, ⟨.word "y", 1⟩, ⟨.closing, 1⟩], 1⟩ := by
    simp +decide [Token.scan, Except.map, Tokens.cons]
  have hclosing : Token.scan 1 ")".toList = .ok ⟨[⟨.closing, 1⟩], 1⟩ := by
    simp +decide [Token.scan, Except.map, Tokens.cons]
  have ha : readScript a = .ok [.atom "x"] := by
    have hlines : Text.lines a.toList = ["x".toList, [], "-- (".toList] := by decide
    rw [readScript, hlines]
    simp only [readLines, readLine, hx, Token.scan_nil, hcomment]
    rfl
  have hb : readScript b = .error ⟨3, .strayClosing⟩ := by
    have hlines : Text.lines b.toList = [[], "(y)".toList, ")".toList] := by decide
    rw [readScript, hlines]
    simp only [readLines, readLine, Token.scan_nil, hy, hclosing]
    rfl
  have hcount : a.toList.count '\n' = 2 := by decide
  have hlines : (Text.lines (a ++ "\n" ++ b).toList).length < UInt32.size - 1 := by decide
  obtain ⟨happend, hexact⟩ := readScript_append a b hend
  have hline := hexact hlines _ _ ha hb
  rw [ha, hb, hcount] at happend
  exact ⟨hend, ha, hb, happend, hlines, hline⟩

end Scenario
