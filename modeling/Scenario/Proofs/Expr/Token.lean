import Scenario.Expr.Token

/-!
# Tokens, one at a time

What cutting a text into tokens does at the start of a text: a blank is passed over
(`Token.scan_blank`), a parenthesis is a token (`Token.scan_opening`, `Token.scan_closing`), a
word is a token if what follows it ends the word (`Token.scan_word`), and so is a text in the
quotes and with the escapes that it is written with (`Token.scan_quotedAtom`).
-/

namespace Scenario

/-! ## Lines -/

namespace Line

theorem add_zero (line : Line) : line + .ofNat 0 = line :=
  UInt32.add_zero line

theorem one_add (n : Nat) : (1 : Line) + .ofNat n = .ofNat (1 + n) :=
  (UInt32.ofNat_add 1 n).symm

theorem add_add (line : Line) (m n : Nat) :
    line + .ofNat m + .ofNat n = line + .ofNat (m + n) := by
  rw [UInt32.ofNat_add, UInt32.add_assoc]

theorem succ_add (line : Line) (n : Nat) : line + 1 + .ofNat n = line + .ofNat (n + 1) := by
  rw [Nat.add_comm, ← one_add, UInt32.add_assoc]

/-- Below `2 ^ 32`, the size of 32 bits, the number of a line is what it counts. -/
theorem toNat_ofNat {n : Nat} (h : n < UInt32.size) : (UInt32.ofNat n : Line).toNat = n :=
  UInt32.toNat_ofNat_of_lt' h

/-- The line of a place with `n` newlines before it, of which `m` are not counted. -/
theorem toNat_add {k m n : Nat} (h : k + m = n) (hn : n < UInt32.size - 1) :
    (UInt32.ofNat (1 + k) : Line).toNat + m = 1 + n := by
  rw [toNat_ofNat (by omega)]
  omega

end Line

/-- Puts a row of tokens in front of those that follow it. -/
def Tokens.prepend (us : List Located) (ts : Tokens) : Tokens :=
  { ts with items := us ++ ts.items }

theorem Tokens.map_cons_map_prepend (t : Located) (us : List Located)
    (r : Except ReadError Tokens) :
    (r.map (prepend us)).map (cons t) = r.map (prepend (t :: us)) := by
  cases r <;> rfl

theorem Tokens.map_prepend_map_prepend (us vs : List Located) (r : Except ReadError Tokens) :
    (r.map (prepend vs)).map (prepend us) = r.map (prepend (us ++ vs)) := by
  cases r with
  | error e => rfl
  | ok ts => simp [Except.map, prepend]

namespace Token

open Text (isBlank)

/-- Whether a word that stands before this text ends there. -/
def endsWord : List Char → Bool
  | [] => true
  | c :: _ => !inWord c

theorem endsWord_closing (r : List Char) : endsWord (')' :: r) = true := rfl

theorem endsWord_space (r : List Char) : endsWord (' ' :: r) = true := rfl

/-- Whether a text is one word: not empty, no comment, and nothing in it ends a word. -/
def isWord (cs : List Char) : Bool :=
  !cs.isEmpty && !startsComment cs && cs.all inWord

theorem not_startsComment {c : Char} (h : c ≠ '-') (r : List Char) :
    startsComment (c :: r) = false := by
  unfold startsComment
  split
  · rename_i he
    cases he
    exact absurd rfl h
  · rfl

theorem startsComment_cons_cons (c d : Char) (r : List Char) :
    startsComment (c :: d :: r) = (c == '-' && d == '-') := by
  unfold startsComment
  split <;> simp_all

theorem scan_nil (line : Line) : scan line [] = .ok ⟨[], line⟩ := by
  rw [scan]

theorem scan_blank {c : Char} (h : isBlank c = true) (line : Line) (r : List Char) :
    scan line (c :: r) = scan (if c = '\n' then line + 1 else line) r := by
  have hc : c ≠ '-' := by rintro rfl; exact absurd h (by decide)
  rw [scan, not_startsComment hc, if_neg (by decide), if_pos h]

theorem scan_space (line : Line) (r : List Char) : scan line (' ' :: r) = scan line r :=
  scan_blank (by decide) line r

theorem scan_opening (line : Line) (r : List Char) :
    scan line ('(' :: r) = (scan line r).map (Tokens.cons ⟨opening, line⟩) := by
  rw [scan, not_startsComment (by decide), if_neg (by decide), if_neg (by decide),
    if_neg (by decide), if_pos rfl]

theorem scan_closing (line : Line) (r : List Char) :
    scan line (')' :: r) = (scan line r).map (Tokens.cons ⟨closing, line⟩) := by
  rw [scan, not_startsComment (by decide), if_neg (by decide), if_neg (by decide),
    if_neg (by decide), if_neg (by decide), if_pos rfl]

/-! ## Words -/

theorem takeWhile_inWord {cs rest : List Char} (h : ∀ c ∈ cs, inWord c = true)
    (hr : endsWord rest = true) : (cs ++ rest).takeWhile inWord = cs := by
  rw [List.takeWhile_append_of_pos h]
  cases rest with
  | nil => simp
  | cons c r =>
    rw [List.takeWhile_cons_of_neg (by simpa [endsWord] using hr), List.append_nil]

theorem dropWhile_inWord {cs rest : List Char} (h : ∀ c ∈ cs, inWord c = true)
    (hr : endsWord rest = true) : (cs ++ rest).dropWhile inWord = rest := by
  rw [List.dropWhile_append_of_pos h]
  cases rest with
  | nil => rfl
  | cons c r => rw [List.dropWhile_cons_of_neg (by simpa [endsWord] using hr)]

/-- What ends a word does not turn it into a comment. -/
theorem startsComment_append {c : Char} {cs rest : List Char}
    (h : startsComment (c :: cs) = false) (hr : endsWord rest = true) :
    startsComment (c :: cs ++ rest) = false := by
  cases cs with
  | nil =>
    cases rest with
    | nil => exact h
    | cons d r =>
      have hd : d ≠ '-' := by
        rintro rfl
        exact absurd (show (!inWord '-') = true from hr) (by decide)
      simp [startsComment_cons_cons, hd]
  | cons d ds =>
    rw [startsComment_cons_cons] at h
    rw [List.cons_append, List.cons_append, startsComment_cons_cons, h]

/-- A word is one token if the text after it ends the word. -/
theorem scan_word {cs rest : List Char} (line : Line) (h : isWord cs = true)
    (hr : endsWord rest = true) :
    scan line (cs ++ rest) =
      (scan line rest).map (Tokens.cons ⟨word (String.ofList cs), line⟩) := by
  cases cs with
  | nil => cases h
  | cons c cs =>
    simp only [isWord, List.isEmpty_cons, Bool.not_false, Bool.true_and, Bool.and_eq_true,
      Bool.not_eq_true', List.all_cons, List.all_eq_true] at h
    obtain ⟨hs, hc, hcs⟩ := h
    have hc' := hc
    simp only [inWord, Bool.not_eq_true', Bool.or_eq_false_iff, beq_eq_false_iff_ne] at hc'
    rw [List.cons_append, scan, ← List.cons_append, startsComment_append hs hr,
      if_neg (by decide), hc'.1.1.1, if_neg (by decide), if_neg hc'.2, if_neg hc'.1.1.2,
      if_neg hc'.1.2, takeWhile_inWord hcs hr, dropWhile_inWord hcs hr]

/-! ## Quoted texts -/

theorem quotedBody_plain {c : Char} {r : List Char} (hq : c ≠ '"') (hb : c ≠ '\\')
    (hn : c ≠ '\n') :
    quotedBody (c :: r) = (quotedBody r).map fun (body, rest) => (c :: body, rest) := by
  rw [quotedBody, if_neg hn]
  · exact hq
  · rintro rfl _
    exact hb rfl
  · rintro _ _ rfl
    exact absurd rfl hb

/-- A text is read back from its quoted form, up to the quote that closes it. -/
theorem quotedBody_escaped (cs rest : List Char) :
    quotedBody (cs.flatMap Expr.escaped ++ '"' :: rest) = .ok (cs, rest) := by
  induction cs with
  | nil => rfl
  | cons c cs ih =>
    rw [List.flatMap_cons, List.append_assoc]
    by_cases hq : c = '"'
    · subst hq
      simp [Expr.escaped, quotedBody, ih, unescaped, Except.map]
    by_cases hb : c = '\\'
    · subst hb
      simp [Expr.escaped, quotedBody, ih, unescaped, Except.map]
    by_cases hn : c = '\n'
    · subst hn
      simp [Expr.escaped, quotedBody, ih, unescaped, Except.map]
    by_cases ht : c = '\t'
    · subst ht
      simp [Expr.escaped, quotedBody, ih, unescaped, Except.map]
    have he : Expr.escaped c = [c] := by
      unfold Expr.escaped
      split <;> simp_all
    rw [he, List.singleton_append, quotedBody_plain hq hb hn, ih]
    rfl

/-- What is read up to a closing quote is one token. -/
theorem scan_quote (line : Line) (cs : List Char) :
    scan line ('"' :: cs) =
      match quotedBody cs with
      | .error f => .error ⟨line, f⟩
      | .ok (body, rest) =>
        (scan line rest).map (Tokens.cons ⟨quoted (String.ofList body), line⟩) := by
  rw [scan, not_startsComment (by decide), if_neg (by decide), if_neg (by decide), if_pos rfl]
  split
  · rename_i f hf
    rw [hf]
  · rename_i body rest hf
    rw [hf]

/-- An atom in quotes is one token. -/
theorem scan_quotedAtom (line : Line) (cs rest : List Char) :
    scan line (Expr.quotedAtom cs ++ rest) =
      (scan line rest).map (Tokens.cons ⟨quoted (String.ofList cs), line⟩) := by
  rw [Expr.quotedAtom, List.cons_append, List.append_assoc, List.singleton_append, scan_quote,
    quotedBody_escaped]

end Token

end Scenario
