import Scenario.Proofs.Expr.Layout

/-!
# Lexemes and their lines

A text that is cut into tokens is a row of lexemes, each behind a gap, and a gap at the end (`Cut`).
A lexeme is a token as it stands in the text (`Lexeme`); between the quotes of a quoted text any
character may stand behind a backslash (`QuotedForm`). Cutting succeeds on these texts and on no
other (`Cut.scan_eq`, `Cut.exists_of_scan`), and the newlines that it counts are those of the gaps.

So the line of a token falls short of the newlines before it by those that earlier quoted texts
span (`spanned`). A newline that a quoted text spans stands behind a backslash
(`Lexeme.escaped_newline`), and without any of these the lines are right, as long as 32 bits hold
them (`tokens_line`).
-/

namespace Scenario.Token

open Text (isBlank)

theorem exists_of_map_eq_ok {ε α β : Type} {r : Except ε α} {f : α → β} {b : β}
    (h : r.map f = .ok b) : ∃ a, r = .ok a ∧ f a = b := by
  cases r with
  | error e => cases h
  | ok a => exact ⟨a, rfl, Except.ok.inj h⟩

/-! ## Quoted texts -/

/-- What stands between the quotes of a quoted text, and the text that it is a form of. -/
inductive QuotedForm : List Char → List Char → Prop where
  | nil : QuotedForm [] []
  | plain {c : Char} {form content : List Char} (hquote : c ≠ '"') (hbackslash : c ≠ '\\')
      (hnewline : c ≠ '\n') (h : QuotedForm form content) : QuotedForm (c :: form) (c :: content)
  | escape (c : Char) {form content : List Char} (h : QuotedForm form content) :
      QuotedForm ('\\' :: c :: form) (unescaped c ++ content)

namespace QuotedForm

variable {form content : List Char}

theorem quotedBody_eq (h : QuotedForm form content) (rest : List Char) :
    quotedBody (form ++ '"' :: rest) = .ok (content, rest) := by
  induction h with
  | nil => rfl
  | plain hquote hbackslash hnewline _ ih =>
    rw [List.cons_append, quotedBody_plain hquote hbackslash hnewline, ih]
    rfl
  | escape c _ ih =>
    rw [List.cons_append, List.cons_append, quotedBody, ih]
    rfl

/-- A quoted text that is read has a form of its content before the quote that closes it. -/
theorem exists_of_quotedBody {cs rest : List Char} (h : quotedBody cs = .ok (content, rest)) :
    ∃ form, QuotedForm form content ∧ cs = form ++ '"' :: rest := by
  fun_induction quotedBody cs generalizing content with
  | case1 => cases h
  | case2 r =>
    cases h
    exact ⟨[], .nil, rfl⟩
  | case3 => cases h
  | case4 c r ih =>
    obtain ⟨p, hr, hp⟩ := exists_of_map_eq_ok h
    cases hp
    obtain ⟨form, hform, hcs⟩ := ih hr
    exact ⟨'\\' :: c :: form, .escape c hform, by rw [hcs]; rfl⟩
  | case5 => cases h
  | case6 c r hquote hlast hescape hnewline ih =>
    obtain ⟨p, hr, hp⟩ := exists_of_map_eq_ok h
    cases hp
    obtain ⟨form, hform, hcs⟩ := ih hr
    have hbackslash : c ≠ '\\' := by
      rintro rfl
      cases r with
      | nil => exact hlast rfl rfl
      | cons d r => exact hescape d r rfl rfl
    exact ⟨c :: form, .plain hquote hbackslash hnewline hform, by rw [hcs]; rfl⟩

theorem escaped_newline (h : QuotedForm form content) (hmem : '\n' ∈ form) :
    ['\\', '\n'] <:+: form := by
  induction h with
  | nil => cases hmem
  | plain _ _ hnewline _ ih =>
    rcases List.mem_cons.mp hmem with rfl | hmem
    · exact absurd rfl hnewline
    · exact List.infix_cons (ih hmem)
  | @escape c form content _ ih =>
    rcases List.mem_cons.mp hmem with hbackslash | hmem
    · exact absurd hbackslash (by decide)
    · rcases List.mem_cons.mp hmem with rfl | hmem
      · exact ⟨[], form, rfl⟩
      · exact List.infix_cons (List.infix_cons (ih hmem))

end QuotedForm

/-! ## Lexemes -/

/-- A token and what it looks like in a text. -/
inductive Lexeme : Token → List Char → Prop where
  | word {cs : List Char} (h : isWord cs = true) : Lexeme (.word (String.ofList cs)) cs
  | quoted {form content : List Char} (h : QuotedForm form content) :
      Lexeme (.quoted (String.ofList content)) ('"' :: (form ++ ['"']))
  | opening : Lexeme .opening ['(']
  | closing : Lexeme .closing [')']

namespace Lexeme

variable {t : Token} {form : List Char}

/-- A lexeme is cut off as its token; a word must end where the rest begins. -/
theorem scan_append (h : Lexeme t form) (line : Line) {rest : List Char}
    (hrest : t.isBareWord = true → endsWord rest = true) :
    scan line (form ++ rest) = (scan line rest).map (Tokens.cons ⟨t, line⟩) := by
  cases h with
  | word hword => exact scan_word line hword (hrest rfl)
  | quoted hform =>
    rw [List.cons_append, List.append_assoc, List.singleton_append, scan_quote,
      hform.quotedBody_eq]
  | opening => exact scan_opening line rest
  | closing => exact scan_closing line rest

theorem ne_nil (h : Lexeme t form) : form ≠ [] := by
  cases h with
  | word hword =>
    rintro rfl
    cases hword
  | quoted hform => exact List.cons_ne_nil _ _
  | opening => exact List.cons_ne_nil _ _
  | closing => exact List.cons_ne_nil _ _

/-- A newline in a lexeme is one in a quoted text, and a backslash stands before it. -/
theorem escaped_newline (h : Lexeme t form) (hmem : '\n' ∈ form) :
    (∃ s, t = .quoted s) ∧ ['\\', '\n'] <:+: form := by
  cases h with
  | word hword =>
    simp only [isWord, Bool.and_eq_true, List.all_eq_true] at hword
    exact absurd (hword.2 '\n' hmem) (by decide)
  | quoted hform =>
    refine ⟨⟨_, rfl⟩, ?_⟩
    rcases List.mem_cons.mp hmem with hquote | hmem
    · exact absurd hquote (by decide)
    · rcases List.mem_append.mp hmem with hmem | hquote
      · exact List.infix_cons ((hform.escaped_newline hmem).trans (List.prefix_append ..).isInfix)
      · exact absurd hquote (by decide)
  | opening => exact absurd hmem (by decide)
  | closing => exact absurd hmem (by decide)

end Lexeme

/-! ## The head of a text -/

/-- What a text can begin with. -/
inductive Head : List Char → Prop where
  | last {cs : List Char} (h : LastGap cs) : Head cs
  | gap {gap rest : List Char} (hne : gap ≠ []) (h : Gap gap) : Head (gap ++ rest)
  | lexeme {t : Token} {form rest : List Char} (h : Lexeme t form)
      (hend : t.isBareWord = true → endsWord rest = true) : Head (form ++ rest)
  | unclosed {r : List Char} {f : ReadFault} (h : quotedBody r = .error f) : Head ('"' :: r)

theorem head_of_startsComment {cs : List Char} (h : startsComment cs = true) : Head cs := by
  unfold startsComment at h
  split at h
  · rename_i r
    have hbody : '\n' ∉ r.takeWhile (· != '\n') := by
      intro hmem
      have hall := List.all_eq_true.mp (List.all_takeWhile (p := (· != '\n')) (l := r))
      exact absurd (hall '\n' hmem) (by decide)
    rw [← List.takeWhile_append_dropWhile (p := (· != '\n')) (l := r)]
    cases hrest : r.dropWhile (· != '\n') with
    | nil =>
      rw [List.append_nil]
      exact .last (.comment .nil hbody)
    | cons c rest =>
      obtain rfl : c = '\n' := by
        have hhead := List.head?_dropWhile_not (· != '\n') r
        rw [hrest] at hhead
        simpa using hhead
      -- the newline belongs to the comment
      rw [List.append_cons, ← List.cons_append, ← List.cons_append]
      exact .gap (List.cons_ne_nil _ _) (.comment hbody .nil)
  · cases h

theorem endsWord_dropWhile (r : List Char) : endsWord (r.dropWhile inWord) = true := by
  cases hrest : r.dropWhile inWord with
  | nil => rfl
  | cons c rest =>
    have hhead := List.head?_dropWhile_not inWord r
    rw [hrest] at hhead
    simpa [endsWord] using hhead

/-- A character of a word begins a word, unless a comment starts there. -/
theorem head_of_inWord {c : Char} {r : List Char} (hcomment : startsComment (c :: r) = false)
    (hc : inWord c = true) : Head (c :: r) := by
  have hword : isWord (c :: r.takeWhile inWord) = true := by
    have hstart : startsComment (c :: r.takeWhile inWord) = false := by
      cases r with
      | nil => exact hcomment
      | cons d r =>
        by_cases hd : inWord d = true
        · rw [List.takeWhile_cons_of_pos hd, startsComment_cons_cons]
          rwa [startsComment_cons_cons] at hcomment
        · rw [List.takeWhile_cons_of_neg hd]
          simp [startsComment]
    simp [isWord, hstart, hc]
  have htext : c :: r = c :: r.takeWhile inWord ++ r.dropWhile inWord := by
    rw [List.cons_append, List.takeWhile_append_dropWhile]
  rw [htext]
  exact .lexeme (.word hword) fun _ => endsWord_dropWhile r

theorem head_of_quote (r : List Char) : Head ('"' :: r) := by
  cases hr : quotedBody r with
  | error f => exact .unclosed hr
  | ok p =>
    obtain ⟨form, hform, rfl⟩ := QuotedForm.exists_of_quotedBody hr
    rw [List.append_cons, ← List.cons_append]
    exact .lexeme (.quoted hform) (absurd · Bool.false_ne_true)

theorem head_cases (cs : List Char) : Head cs := by
  cases cs with
  | nil => exact .last (.gap .nil)
  | cons c r =>
    by_cases hcomment : startsComment (c :: r) = true
    · exact head_of_startsComment hcomment
    by_cases hc : inWord c = true
    · exact head_of_inWord (Bool.eq_false_iff.mpr hcomment) hc
    · -- the characters that are not in words
      simp only [inWord, Bool.not_eq_true', Bool.not_eq_false, Bool.or_eq_true, beq_iff_eq] at hc
      rcases hc with ((hblank | rfl) | rfl) | rfl
      · rw [← List.singleton_append]
        exact .gap (List.cons_ne_nil _ _) (.blank hblank .nil)
      · exact .lexeme .opening (absurd · Bool.false_ne_true)
      · exact .lexeme .closing (absurd · Bool.false_ne_true)
      · exact head_of_quote r

/-! ## Texts cut into lexemes -/

/-- A token in its place: the gap before it and its form in the text. -/
structure Placed where
  gap : List Char
  token : Token
  form : List Char

/-- The text of a row of tokens in their places. -/
def placedText (row : List Placed) : List Char :=
  row.flatMap fun x => x.gap ++ x.form

/-- How many newlines the forms of a row of tokens span. -/
def spanned (row : List Placed) : Nat :=
  (row.flatMap Placed.form).count '\n'

/-- The tokens of a row in a text that starts on `line`: the newlines of the gaps count. -/
def located (line : Line) : List Placed → List Located
  | [] => []
  | x :: row =>
    ⟨x.token, line + .ofNat (x.gap.count '\n')⟩ :: located (line + .ofNat (x.gap.count '\n')) row

/-- A text as a row of tokens in their places and what follows the last of them. -/
inductive Cut : List Placed → List Char → Prop where
  | last {gap : List Char} (h : LastGap gap) : Cut [] gap
  | token {x : Placed} {row : List Placed} {rest : List Char} (hgap : Gap x.gap)
      (hform : Lexeme x.token x.form) (hend : x.token.isBareWord = true → endsWord rest = true)
      (h : Cut row rest) : Cut (x :: row) (x.gap ++ (x.form ++ rest))

theorem Gap.append {gap gap' : List Char} (h : Gap gap) (h' : Gap gap') : Gap (gap ++ gap') := by
  induction h with
  | nil => exact h'
  | blank hc _ ih => exact .blank hc ih
  | comment hbody _ ih =>
    rw [List.cons_append, List.cons_append, List.append_assoc, List.cons_append]
    exact .comment hbody ih

theorem LastGap.append {gap last : List Char} (h : Gap gap) (h' : LastGap last) :
    LastGap (gap ++ last) := by
  cases h' with
  | gap hlast => exact .gap (h.append hlast)
  | comment hlast hbody =>
    rw [← List.append_assoc]
    exact .comment (h.append hlast) hbody

namespace Cut

variable {row : List Placed} {cs : List Char}

/-- A gap in front of a text goes to its first token. -/
theorem append {gap : List Char} (hgap : Gap gap) (h : Cut row cs) :
    ∃ row', Cut row' (gap ++ cs) := by
  cases h with
  | last hlast => exact ⟨[], .last (hlast.append hgap)⟩
  | @token x row rest hfirst hform hend hrest =>
    refine ⟨{ x with gap := gap ++ x.gap } :: row, ?_⟩
    rw [← List.append_assoc]
    exact .token (x := { x with gap := gap ++ x.gap }) (hgap.append hfirst) hform hend hrest

/-- A text from which tokens are cut is such a row: what is at its head is passed over or cut off,
and the rest is shorter. -/
theorem exists_of_scan {line : Line} {ts : Tokens} (h : scan line cs = .ok ts) :
    ∃ row, Cut row cs := by
  induction hn : cs.length using Nat.strong_induction_on generalizing line cs ts with
  | _ n ih =>
    subst hn
    cases head_cases cs with
    | last hlast => exact ⟨[], .last hlast⟩
    | @gap gap rest hne hgap =>
      rw [scan_gap hgap] at h
      have hlt : rest.length < (gap ++ rest).length := by
        have := List.length_pos_iff.mpr hne
        rw [List.length_append]
        omega
      obtain ⟨row, hrow⟩ := ih _ hlt h rfl
      exact hrow.append hgap
    | @lexeme t form rest hform hend =>
      rw [hform.scan_append line hend] at h
      have hlt : rest.length < (form ++ rest).length := by
        have := List.length_pos_iff.mpr hform.ne_nil
        rw [List.length_append]
        omega
      obtain ⟨ts', hts, -⟩ := exists_of_map_eq_ok h
      obtain ⟨row, hrow⟩ := ih _ hlt hts rfl
      exact ⟨⟨[], t, form⟩ :: row, .token (x := ⟨[], t, form⟩) .nil hform hend hrow⟩
    | unclosed hbody =>
      rw [scan_quote, hbody] at h
      cases h

/-- What is cut off are the tokens of the row. The newlines that are counted fall short of those of
the text by the ones that are spanned. -/
theorem scan_eq (h : Cut row cs) (line : Line) :
    ∃ n, scan line cs = .ok ⟨located line row, line + .ofNat n⟩ ∧
      n + spanned row = cs.count '\n' := by
  induction h generalizing line with
  | last hlast => exact ⟨_, scan_lastGap hlast line, rfl⟩
  | @token x row rest hgap hform hend _ ih =>
    obtain ⟨n, hscan, hn⟩ := ih (line + .ofNat (x.gap.count '\n'))
    refine ⟨x.gap.count '\n' + n, ?_, ?_⟩
    · rw [scan_gap hgap, hform.scan_append _ hend, hscan, located, Line.add_add]
      rfl
    · simp only [spanned, List.flatMap_cons, List.count_append] at hn ⊢
      omega

theorem exists_tokens_eq {src : String} (h : Cut row src.toList) :
    ∃ n, tokens src = .ok ⟨located 1 row, .ofNat (1 + n)⟩ ∧
      n + spanned row = src.toList.count '\n' := by
  obtain ⟨n, hscan, hn⟩ := h.scan_eq 1
  rw [Line.one_add] at hscan
  exact ⟨n, hscan, hn⟩

theorem tokens_eq {src : String} {n : Nat} (h : Cut row src.toList)
    (hn : n + spanned row = src.toList.count '\n') :
    tokens src = .ok ⟨located 1 row, .ofNat (1 + n)⟩ := by
  obtain ⟨k, htokens, hk⟩ := h.exists_tokens_eq
  obtain rfl : n = k := by omega
  exact htokens

/-- The row up to the form of a token is at the head of the text. -/
theorem placed_prefix {before after : List Placed} {x : Placed}
    (h : Cut (before ++ x :: after) cs) :
    placedText before ++ x.gap ++ x.form <+: cs := by
  induction before generalizing cs with
  | nil =>
    cases h with
    | @token _ _ rest _ _ _ _ =>
      rw [placedText, List.flatMap_nil, List.nil_append, ← List.append_assoc]
      exact List.prefix_append ..
  | cons y before ih =>
    cases h with
    | @token _ _ rest _ _ _ hrest =>
      have := ih hrest
      rw [placedText, List.flatMap_cons]
      simp only [List.append_assoc, List.prefix_append_right_inj]
      simpa [placedText] using this

theorem lexeme_of_mem (h : Cut row cs) {x : Placed} (hx : x ∈ row) : Lexeme x.token x.form := by
  induction h with
  | last => cases hx
  | token _ hform _ _ ih =>
    rcases List.mem_cons.mp hx with rfl | hx
    · exact hform
    · exact ih hx

end Cut

/-! ## Lines -/

theorem spanned_eq_zero {row : List Placed} (h : ∀ x ∈ row, '\n' ∉ x.form) : spanned row = 0 := by
  rw [spanned, List.count_eq_zero, List.mem_flatMap]
  rintro ⟨x, hx, hmem⟩
  exact h x hx hmem

theorem map_token_located (line : Line) (row : List Placed) :
    (located line row).map Located.token = row.map Placed.token := by
  induction row generalizing line with
  | nil => rfl
  | cons x row ih => rw [located, List.map_cons, List.map_cons, ih]

/-- The newlines that are counted before a token and those spanned before it are all newlines before
it. -/
theorem getElem?_located (line : Line) (before after : List Placed) (x : Placed) :
    ∃ n, (located line (before ++ x :: after))[before.length]? = some ⟨x.token, line + .ofNat n⟩ ∧
      n + spanned before = (placedText before ++ x.gap).count '\n' := by
  induction before generalizing line with
  | nil => exact ⟨_, rfl, rfl⟩
  | cons y before ih =>
    obtain ⟨n, hget, hn⟩ := ih (line + .ofNat (y.gap.count '\n'))
    refine ⟨y.gap.count '\n' + n, ?_, ?_⟩
    · rw [← Line.add_add]
      exact hget
    · simp only [placedText, spanned, List.flatMap_cons, List.count_append] at hn ⊢
      omega

namespace Cut

variable {before after row : List Placed} {x : Placed} {cs : List Char}

theorem getElem?_items (before after : List Placed) (x : Placed) :
    ∃ n, (located 1 (before ++ x :: after))[before.length]? = some ⟨x.token, .ofNat (1 + n)⟩ ∧
      n + spanned before = (placedText before ++ x.gap).count '\n' := by
  obtain ⟨n, hget, hn⟩ := getElem?_located 1 before after x
  rw [Line.one_add] at hget
  exact ⟨n, hget, hn⟩

theorem newlines_le (h : Cut (before ++ x :: after) cs) :
    (placedText before ++ x.gap).count '\n' ≤ cs.count '\n' :=
  ((List.prefix_append _ x.form).trans h.placed_prefix).sublist.count_le _

/-- Where 32 bits hold all lines, the line of a token is exact but for what is spanned before it. -/
theorem toNat_line (h : Cut (before ++ x :: after) cs) (hbound : cs.count '\n' < UInt32.size - 1) :
    ∃ line, (located 1 (before ++ x :: after))[before.length]? = some ⟨x.token, line⟩ ∧
      line.toNat + spanned before = 1 + (placedText before ++ x.gap).count '\n' := by
  obtain ⟨n, hget, hn⟩ := getElem?_items before after x
  exact ⟨_, hget, Line.toNat_add hn (Nat.lt_of_le_of_lt h.newlines_le hbound)⟩

theorem escaped_newline (h : Cut row cs) (hx : x ∈ row) (hmem : '\n' ∈ x.form) :
    (∃ s, x.token = .quoted s) ∧ ['\\', '\n'] <:+: x.form :=
  (h.lexeme_of_mem hx).escaped_newline hmem

end Cut

/-- A text is cut into tokens exactly if it is a row of lexemes between gaps, and these are its
tokens. The newlines that are counted up to a token and those that earlier quoted texts span are
together the newlines before its first character, and so it is at the end for all newlines of the
text; the line is the 32-bit number of one more than those that are counted, and this number itself
in a text of less than `2 ^ 32 - 1` newlines. A newline in a lexeme is one behind a backslash in a
quoted text, so without these no quoted text spans a newline and every line is one more than the
newlines before. -/
theorem tokens_line (src : String) :
    ((∃ ts, tokens src = .ok ts) ↔ ∃ row, Cut row src.toList) ∧
    ∀ ts row, tokens src = .ok ts → Cut row src.toList →
      ts.items.map Located.token = row.map Placed.token ∧
      (∀ before x after, row = before ++ x :: after →
        placedText before ++ x.gap ++ x.form <+: src.toList ∧
        ∃ n, ts.items[before.length]? = some ⟨x.token, .ofNat (1 + n)⟩ ∧
          n + spanned before = (placedText before ++ x.gap).count '\n') ∧
      (∃ n, ts.lastLine = .ofNat (1 + n) ∧ n + spanned row = src.toList.count '\n') ∧
      (src.toList.count '\n' < UInt32.size - 1 →
        (∀ before x after, row = before ++ x :: after →
          ∃ line, ts.items[before.length]? = some ⟨x.token, line⟩ ∧
            line.toNat + spanned before = 1 + (placedText before ++ x.gap).count '\n') ∧
        ts.lastLine.toNat + spanned row = 1 + src.toList.count '\n') ∧
      (∀ x ∈ row, '\n' ∈ x.form → (∃ s, x.token = .quoted s) ∧ ['\\', '\n'] <:+: x.form) ∧
      ((∀ x ∈ row, ¬['\\', '\n'] <:+: x.form) →
        (∀ x ∈ row, '\n' ∉ x.form) ∧
        (src.toList.count '\n' < UInt32.size - 1 →
          (∀ before x after, row = before ++ x :: after →
            ∃ line, ts.items[before.length]? = some ⟨x.token, line⟩ ∧
              line.toNat = 1 + (placedText before ++ x.gap).count '\n') ∧
          ts.lastLine.toNat = 1 + src.toList.count '\n')) := by
  refine ⟨⟨?_, ?_⟩, fun ts row hts hrow => ?_⟩
  · rintro ⟨ts, hts⟩
    exact Cut.exists_of_scan hts
  · rintro ⟨row, hrow⟩
    obtain ⟨n, htokens, -⟩ := hrow.exists_tokens_eq
    exact ⟨_, htokens⟩
  · obtain ⟨n, htokens, hn⟩ := hrow.exists_tokens_eq
    rw [htokens] at hts
    cases hts
    refine ⟨map_token_located 1 row, ?_, ⟨n, rfl, hn⟩, fun hbound => ⟨?_, Line.toNat_add hn hbound⟩,
      fun x hx => hrow.escaped_newline hx, fun hnone => ?_⟩
    · rintro before x after rfl
      exact ⟨hrow.placed_prefix, Cut.getElem?_items before after x⟩
    · rintro before x after rfl
      exact hrow.toNat_line hbound
    have hforms (x : Placed) (hx : x ∈ row) : '\n' ∉ x.form :=
      fun hmem => hnone x hx (hrow.escaped_newline hx hmem).2
    refine ⟨hforms, fun hbound => ⟨?_, ?_⟩⟩
    · rintro before x after rfl
      have hbefore : spanned before = 0 :=
        spanned_eq_zero fun y hy => hforms y (List.mem_append_left _ hy)
      obtain ⟨line, hget, hline⟩ := hrow.toNat_line hbound
      rw [hbefore, Nat.add_zero] at hline
      exact ⟨line, hget, hline⟩
    · have hlast := Line.toNat_add hn hbound
      rwa [spanned_eq_zero hforms, Nat.add_zero] at hlast

/-- A comment that ends in a backslash, and a quoted text that holds one: the newline is not in the
quoted text. -/
theorem tokens_line_comment :
    let src := "a --\\\n\"b\\\"\"\n"
    let x : Placed := ⟨[], .word "a", ['a']⟩
    let y : Placed :=
      ⟨[' ', '-', '-', '\\', '\n'], .quoted "b\"", ['"', 'b', '\\', '"', '"']⟩
    let ts : Tokens := ⟨[⟨x.token, 1⟩, ⟨y.token, 2⟩], 3⟩
    tokens src = .ok ts ∧ Cut [x, y] src.toList ∧ (∀ z ∈ [x, y], ¬['\\', '\n'] <:+: z.form) ∧
      (∀ z ∈ [x, y], '\n' ∉ z.form) ∧ src.toList.count '\n' < UInt32.size - 1 ∧
      ts.lastLine.toNat = 1 + src.toList.count '\n' := by
  intro src x y ts
  have hlast : LastGap ['\n'] := .gap (.blank (by decide) .nil)
  have hcomment : Gap y.gap := .blank (by decide) (.comment (show '\n' ∉ ['\\'] by decide) .nil)
  have hquoted : Lexeme y.token y.form :=
    .quoted (.plain (by decide) (by decide) (by decide) (.escape '"' .nil))
  have hword : Lexeme x.token x.form := .word (by decide)
  have hy : Cut [y] (y.gap ++ (y.form ++ ['\n'])) :=
    .token hcomment hquoted (absurd · Bool.false_ne_true) (.last hlast)
  have htext : src.toList = x.gap ++ (x.form ++ (y.gap ++ (y.form ++ ['\n']))) := by decide
  have hcut : Cut [x, y] src.toList := by
    rw [htext]
    exact .token .nil hword (fun _ => by decide) hy
  have hts : tokens src = .ok ts := hcut.tokens_eq (n := 2) (by decide)
  have hnone : ∀ z ∈ [x, y], ¬['\\', '\n'] <:+: z.form := by decide
  have hbound : src.toList.count '\n' < UInt32.size - 1 := by decide
  obtain ⟨-, -, -, -, -, hlines⟩ := (tokens_line src).2 ts [x, y] hts hcut
  obtain ⟨hforms, hexact⟩ := hlines hnone
  exact ⟨hts, hcut, hnone, hforms, hbound, (hexact hbound).2⟩

/-- A newline behind a backslash does not end a quoted text, and it is not counted: the word after
this one is on the second line of the text, and so is the end. -/
theorem tokens_line_spanned :
    let src := "\"a\\\nb\" c"
    let x : Placed := ⟨[], .quoted "a\\\nb", ['"', 'a', '\\', '\n', 'b', '"']⟩
    let y : Placed := ⟨[' '], .word "c", ['c']⟩
    let ts : Tokens := ⟨[⟨x.token, 1⟩, ⟨y.token, 1⟩], 1⟩
    tokens src = .ok ts ∧ Cut [x, y] src.toList ∧ '\n' ∈ x.form ∧
      ts.items[1]? = some ⟨y.token, 1⟩ ∧
      (1 : Line).toNat ≠ 1 + (placedText [x] ++ y.gap).count '\n' ∧
      ts.lastLine.toNat ≠ 1 + src.toList.count '\n' := by
  intro src x y ts
  have hquoted : Lexeme x.token x.form :=
    .quoted (.plain (by decide) (by decide) (by decide)
      (.escape '\n' (.plain (by decide) (by decide) (by decide) .nil)))
  have hblank : Gap y.gap := .blank (by decide) .nil
  have hword : Lexeme y.token y.form := .word (by decide)
  have hy : Cut [y] (y.gap ++ (y.form ++ [])) :=
    .token hblank hword (fun _ => rfl) (.last (.gap .nil))
  have htext : src.toList = x.gap ++ (x.form ++ (y.gap ++ (y.form ++ []))) := by decide
  have hcut : Cut [x, y] src.toList := by
    rw [htext]
    exact .token .nil hquoted (absurd · Bool.false_ne_true) hy
  have hts : tokens src = .ok ts := hcut.tokens_eq (n := 0) (by decide)
  exact ⟨hts, hcut, by decide, rfl, by decide, by decide⟩

end Scenario.Token
