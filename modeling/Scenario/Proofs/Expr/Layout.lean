import Mathlib.Data.List.Chain
import Scenario.Proofs.Expr.Token

/-!
# Layout

Tokens may be laid out in many ways: what stands between them (`Gap`) is made of blanks and of
comments, each with the newline that ends it. It is passed over, and only its newlines count
(`scan_gap`). A token is then cut off at its end (`scan_token`), for which a word needs a gap that
starts with a blank, or a neighbour that is no word (`LaidOut.between`).

`tokens_laidOut` puts the two together for a whole text: it is cut into the tokens that it was made
from, each on the line that the gaps before it lead to. The count of lines has 32 bits. It is the
number of lines up to there in a text of less than `2 ^ 32 - 1` newlines, and starts over in a
longer one (`tokens_laidOut_wraps`).
-/

namespace Scenario.Token

open Text (isBlank)

/-! ## Gaps -/

/-- Text that separates tokens: blanks and comments, each up to the end of its line. -/
inductive Gap : List Char → Prop where
  | nil : Gap []
  | blank {c : Char} {cs : List Char} (hc : isBlank c = true) (h : Gap cs) : Gap (c :: cs)
  | comment {body cs : List Char} (hbody : '\n' ∉ body) (h : Gap cs) :
      Gap ('-' :: '-' :: (body ++ '\n' :: cs))

/-- Text after the last token: a gap, or one with a comment behind it that ends with the text. -/
inductive LastGap : List Char → Prop where
  | gap {cs : List Char} (h : Gap cs) : LastGap cs
  | comment {cs body : List Char} (h : Gap cs) (hbody : '\n' ∉ body) :
      LastGap (cs ++ '-' :: '-' :: body)

/-- A comment is passed over up to the newline that ends it. -/
theorem scan_comment (line : Line) {body rest : List Char} (hbody : '\n' ∉ body)
    (hrest : ∀ c ∈ rest.head?, c = '\n') :
    scan line ('-' :: '-' :: (body ++ rest)) = scan line rest := by
  have hall : ∀ c ∈ '-' :: body, (c != '\n') = true := by
    intro c hc
    rw [bne_iff_ne]
    rintro rfl
    rcases List.mem_cons.mp hc with h | h
    · exact absurd h (by decide)
    · exact hbody h
  have hdrop : ('-' :: (body ++ rest)).dropWhile (· != '\n') = rest := by
    rw [← List.cons_append, List.dropWhile_append_of_pos hall]
    cases rest with
    | nil => rfl
    | cons c r =>
      obtain rfl : c = '\n' := hrest c rfl
      rw [List.dropWhile_cons_of_neg (by decide)]
  rw [scan, startsComment_cons_cons, if_pos (by decide), hdrop]

theorem scan_newline (line : Line) (r : List Char) : scan line ('\n' :: r) = scan (line + 1) r :=
  scan_blank (by decide) line r

theorem scan_gap {gap : List Char} (h : Gap gap) (line : Line) (rest : List Char) :
    scan line (gap ++ rest) = scan (line + .ofNat (gap.count '\n')) rest := by
  induction h generalizing line with
  | nil => rw [List.nil_append, List.count_nil, Line.add_zero]
  | @blank c cs hc _ ih =>
    rw [List.cons_append, scan_blank hc, ih, List.count_cons]
    by_cases hn : c = '\n'
    · subst hn
      rw [if_pos rfl, if_pos (by decide), Line.succ_add]
    · rw [if_neg hn, if_neg (by simpa using hn), Nat.add_zero]
  | @comment body cs hbody _ ih =>
    have hcount : ('-' :: '-' :: (body ++ '\n' :: cs)).count '\n' = cs.count '\n' + 1 := by
      simp [List.count_eq_zero_of_not_mem hbody]
    rw [List.cons_append, List.cons_append, List.append_assoc, List.cons_append,
      scan_comment line hbody (by simp), scan_newline, ih, hcount, Line.succ_add]

theorem scan_lastGap {gap : List Char} (h : LastGap gap) (line : Line) :
    scan line gap = .ok ⟨[], line + .ofNat (gap.count '\n')⟩ := by
  cases h with
  | gap h =>
    have hscan := scan_gap h line []
    rwa [List.append_nil, scan_nil] at hscan
  | @comment cs body h hbody =>
    have hcount : (cs ++ '-' :: '-' :: body).count '\n' = cs.count '\n' := by
      simp [List.count_eq_zero_of_not_mem hbody]
    have hend : ∀ c ∈ ([] : List Char).head?, c = '\n' := by simp
    have hscan := scan_comment (line + .ofNat (cs.count '\n')) hbody hend
    rw [List.append_nil] at hscan
    rw [scan_gap h, hscan, scan_nil, hcount]

/-! ## Tokens in a text -/

/-- The text of a token, with the escapes of an atom in quotes. -/
def written : Token → List Char
  | word s => s.toList
  | quoted s => Expr.quotedAtom s.toList
  | opening => ['(']
  | closing => [')']

/-- Whether a token is a word. -/
def isBareWord : Token → Bool
  | word _ => true
  | _ => false

/-- Whether a token can be written: what stands for a word must be one. -/
def writable : Token → Bool
  | word s => isWord s.toList
  | _ => true

/-- Whether a gap ends a word before it, when `next` is the token that follows: it starts with a
blank, or it is empty and no word follows. -/
def endsBareWord (next : Option Token) : List Char → Bool
  | [] => !next.any isBareWord
  | c :: _ => isBlank c

theorem endsWord_of_isBlank {c : Char} (h : isBlank c = true) (r : List Char) :
    endsWord (c :: r) = true := by
  rw [endsWord, inWord, h]
  rfl

/-- A token that is no word does not go on with one. -/
theorem endsWord_written {t : Token} (h : t.isBareWord = false) (rest : List Char) :
    endsWord (t.written ++ rest) = true := by
  cases t with
  | word s => cases h
  | quoted s => rfl
  | opening => rfl
  | closing => rfl

theorem scan_token {t : Token} {rest : List Char} (line : Line) (ht : t.writable = true)
    (hrest : t.isBareWord = true → endsWord rest = true) :
    scan line (t.written ++ rest) = (scan line rest).map (Tokens.cons ⟨t, line⟩) := by
  cases t with
  | word s => rw [written, scan_word line ht (hrest rfl), String.ofList_toList]
  | quoted s => rw [written, scan_quotedAtom, String.ofList_toList]
  | opening => exact scan_opening line rest
  | closing => exact scan_closing line rest

/-! ## Tokens laid out -/

/-- A row of tokens, each behind a gap, and the gap behind the last of them. -/
structure LaidOut (row : List (List Char × Token)) (last : List Char) : Prop where
  gaps : ∀ x ∈ row, Gap x.1
  lastGap : LastGap last
  writable : ∀ x ∈ row, x.2.writable = true
  /-- A word ends where the next gap begins. -/
  between : row.IsChain fun x y => x.2.isBareWord = true → endsBareWord (some y.2) y.1 = true
  atEnd : ∀ x ∈ row.getLast?, x.2.isBareWord = true → endsBareWord none last = true

/-- How many newlines there are in the gaps of a row up to that of token `i`. -/
def newlinesTo (row : List (List Char × Token)) (i : Nat) : Nat :=
  ((row.take (i + 1)).flatMap Prod.fst).count '\n'

/-- The text of a row of tokens with their gaps. -/
def laidText (row : List (List Char × Token)) (last : List Char) : List Char :=
  row.flatMap (fun x => x.1 ++ x.2.written) ++ last

theorem laidText_cons (x : List Char × Token) (row : List (List Char × Token)) (last : List Char) :
    laidText (x :: row) last = x.1 ++ (x.2.written ++ laidText row last) := by
  simp [laidText]

namespace LaidOut

variable {x : List Char × Token} {row : List (List Char × Token)} {last : List Char}

theorem tail (h : LaidOut (x :: row) last) : LaidOut row last where
  gaps y hy := h.gaps y (.tail _ hy)
  lastGap := h.lastGap
  writable y hy := h.writable y (.tail _ hy)
  between := h.between.tail
  atEnd y hy := by
    refine h.atEnd y ?_
    rw [List.getLast?_cons, Option.mem_def.mp hy]
    rfl

/-- What follows a word ends it. -/
theorem endsWord_laidText (h : LaidOut (x :: row) last) (hx : x.2.isBareWord = true) :
    endsWord (laidText row last) = true := by
  cases row with
  | nil =>
    have hend := h.atEnd x rfl hx
    cases last with
    | nil => rfl
    | cons c r => exact endsWord_of_isBlank hend r
  | cons y row =>
    have hend := (List.isChain_cons_cons.mp h.between).1 hx
    obtain ⟨gap, t⟩ := y
    rw [laidText_cons]
    cases gap with
    | nil =>
      have ht : t.isBareWord = false := by simpa [endsBareWord] using hend
      exact endsWord_written ht _
    | cons c r => exact endsWord_of_isBlank hend _

/-- A text that starts on `line` is cut into its tokens, each on the line to which the newlines of
the gaps before it lead. -/
theorem scan_laidText (h : LaidOut row last) (line : Line) :
    scan line (laidText row last) = .ok {
      items := row.mapIdx fun i x => ⟨x.2, line + .ofNat (newlinesTo row i)⟩
      lastLine := line + .ofNat ((row.flatMap Prod.fst ++ last).count '\n') } := by
  induction row generalizing line with
  | nil => exact scan_lastGap h.lastGap line
  | cons x row ih =>
    rw [laidText_cons, scan_gap (h.gaps x (.head _)),
      scan_token _ (h.writable x (.head _)) h.endsWord_laidText, ih h.tail]
    simp [Except.map, Tokens.cons, List.mapIdx_cons, newlinesTo, UInt32.add_assoc]

end LaidOut

theorem newlinesTo_le (row : List (List Char × Token)) (last : List Char) (i : Nat) :
    newlinesTo row i ≤ (row.flatMap Prod.fst ++ last).count '\n' := by
  have htake : (row.take (i + 1)).flatMap Prod.fst <+: row.flatMap Prod.fst := by
    refine ⟨(row.drop (i + 1)).flatMap Prod.fst, ?_⟩
    rw [← List.flatMap_append, List.take_append_drop]
  exact (htake.trans (List.prefix_append _ last)).sublist.count_le _

/-- Whatever stands between the tokens of a text, it is cut into these tokens. The line of each is
the 32-bit number of one more than the newlines in the gaps before it, and that of the end is one
more than all of them. These are the lines themselves in a text of less than `2 ^ 32 - 1`
newlines. -/
theorem tokens_laidOut {row : List (List Char × Token)} {last : List Char}
    (h : LaidOut row last) :
    ∃ ts, tokens (String.ofList (row.flatMap (fun x => x.1 ++ x.2.written) ++ last)) = .ok ts ∧
      ts.items = (row.mapIdx fun i x => ⟨x.2, .ofNat (1 + newlinesTo row i)⟩) ∧
      ts.lastLine = .ofNat (1 + (row.flatMap Prod.fst ++ last).count '\n') ∧
      ((row.flatMap Prod.fst ++ last).count '\n' < UInt32.size - 1 →
        (ts.items.map fun t => (t.token, t.line.toNat)) =
          (row.mapIdx fun i x => (x.2, 1 + newlinesTo row i)) ∧
        ts.lastLine.toNat = 1 + (row.flatMap Prod.fst ++ last).count '\n') := by
  have hscan := h.scan_laidText 1
  simp only [Line.one_add] at hscan
  refine ⟨_, by rw [tokens, String.toList_ofList]; exact hscan, rfl, rfl, fun hbound => ⟨?_, ?_⟩⟩
  · refine List.ext_getElem? fun i => ?_
    have hle := newlinesTo_le row last i
    have hline : (UInt32.ofNat (1 + newlinesTo row i)).toNat = 1 + newlinesTo row i :=
      Line.toNat_ofNat (by omega)
    simp only [List.getElem?_map, List.getElem?_mapIdx, Option.map_map, Function.comp_def, hline]
  · exact Line.toNat_ofNat (by omega)

/-- A comment that holds a quote and a parenthesis, dashes within a word and alone, a text glued to
the words on both sides of it, and a last comment that ends with the text. -/
theorem tokens_laidOut_glued :
    let row : List (List Char × Token) :=
      [(['-', '-', '(', '"', '\n', ' '], .opening), ([], .word "Pick"),
        ([' ', '-', '-', 'x', '\n', '\t'], .word "a--b"), ([], .quoted "q\""), ([], .word "-"),
        ([], .closing)]
    let last := ['-', '-', 'e', 'n', 'd']
    LaidOut row last ∧ tokens "--(\"\n (Pick --x\n\ta--b\"q\\\"\"-)--end" = .ok {
      items := [⟨.opening, 2⟩, ⟨.word "Pick", 2⟩, ⟨.word "a--b", 3⟩, ⟨.quoted "q\"", 3⟩,
        ⟨.word "-", 3⟩, ⟨.closing, 3⟩]
      lastLine := 3 } := by
  intro row last
  have hfirst : Gap ['-', '-', '(', '"', '\n', ' '] :=
    .comment (show '\n' ∉ ['(', '"'] by decide) (.blank (by decide) .nil)
  have hthird : Gap [' ', '-', '-', 'x', '\n', '\t'] :=
    .blank (by decide) (.comment (show '\n' ∉ ['x'] by decide) (.blank (by decide) .nil))
  have h : LaidOut row last := {
    gaps := by simp [row, hfirst, hthird, Gap.nil]
    lastGap := .comment .nil (show '\n' ∉ ['e', 'n', 'd'] by decide)
    writable := by decide
    between := by decide
    atEnd := by decide }
  have htext : row.flatMap (fun x => x.1 ++ x.2.written) ++ last =
      "--(\"\n (Pick --x\n\ta--b\"q\\\"\"-)--end".toList := by decide
  obtain ⟨⟨items, lastLine⟩, htokens, rfl, rfl, -⟩ := tokens_laidOut h
  rw [htext, String.ofList_toList] at htokens
  have hitems : (row.mapIdx fun i x => (⟨x.2, .ofNat (1 + newlinesTo row i)⟩ : Located)) =
      [⟨.opening, 2⟩, ⟨.word "Pick", 2⟩, ⟨.word "a--b", 3⟩, ⟨.quoted "q\"", 3⟩, ⟨.word "-", 3⟩,
        ⟨.closing, 3⟩] := by decide
  rw [hitems] at htokens
  exact ⟨h, htokens⟩

theorem gap_replicate_newline (n : Nat) : Gap (List.replicate n '\n') := by
  induction n with
  | zero => exact .nil
  | succ n ih => exact .blank (by decide) ih

/-- A row of one word behind `n` newlines. -/
def wordBehind (n : Nat) : List (List Char × Token) :=
  [(List.replicate n '\n', .word "a")]

theorem laidOut_wordBehind (n : Nat) : LaidOut (wordBehind n) [] where
  gaps := by simpa [wordBehind] using gap_replicate_newline n
  lastGap := .gap .nil
  writable := by simpa [wordBehind] using (by decide : (word "a").writable = true)
  between := .singleton _
  atEnd := by simp [endsBareWord]

theorem newlinesTo_wordBehind (n : Nat) : newlinesTo (wordBehind n) 0 = n := by
  simp [wordBehind, newlinesTo]

theorem tokens_wordBehind (n : Nat) :
    tokens (String.ofList ((wordBehind n).flatMap (fun x => x.1 ++ x.2.written) ++ [])) =
      .ok ⟨[⟨.word "a", .ofNat (1 + n)⟩], .ofNat (1 + n)⟩ := by
  have hitems : (wordBehind n).mapIdx (fun i x =>
      (⟨x.2, 1 + .ofNat (newlinesTo (wordBehind n) i)⟩ : Located)) =
      [⟨.word "a", 1 + .ofNat (newlinesTo (wordBehind n) 0)⟩] := rfl
  have hall : ((wordBehind n).flatMap Prod.fst ++ []).count '\n' = n := by simp [wordBehind]
  have hscan := (laidOut_wordBehind n).scan_laidText 1
  rw [hitems, hall, newlinesTo_wordBehind, Line.one_add] at hscan
  rw [tokens, String.toList_ofList]
  exact hscan

/-- The word behind `2 ^ 32 - 1` newlines is not on the line that they lead to, but on line 0. -/
theorem tokens_laidOut_wraps :
    let row := wordBehind (UInt32.size - 1)
    LaidOut row [] ∧
      tokens (String.ofList (row.flatMap (fun x => x.1 ++ x.2.written) ++ [])) =
        .ok ⟨[⟨.word "a", 0⟩], 0⟩ ∧
      (0 : Line).toNat ≠ 1 + newlinesTo row 0 := by
  refine ⟨laidOut_wordBehind _, tokens_wordBehind _, ?_⟩
  rw [newlinesTo_wordBehind]
  decide

end Scenario.Token
