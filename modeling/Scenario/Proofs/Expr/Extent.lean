import Scenario.Proofs.Evaluate.Coupling
import Scenario.Proofs.Expr.Depth
import Scenario.Proofs.Expr.Lexeme
import Scenario.Proofs.Expr.Script

/-!
# The extent of what is read

However an expression is read from a text (`ReadFrom`), it is the command that the items of some
stretch of it stand for, of the whole text or of one of its lines (`ReadFrom.exists_items`). So it
is nested at most 257 deep (`ReadFrom.depth_le`). Each of its atoms comes from one lexeme, which is
a part of the text and no shorter than the atom, as an escape stands for no more characters than it
is written with (`ReadFrom.length_le`).
-/

namespace Scenario

/-! ## Texts of tokens -/

namespace Token

variable {cs form content : List Char} {t : Token} {s : String}

theorem QuotedForm.length_le (h : QuotedForm form content) : content.length ≤ form.length := by
  induction h with
  | nil => exact Nat.le_refl _
  | plain _ _ _ _ ih => exact Nat.succ_le_succ ih
  | escape c _ ih =>
    have hescape : (unescaped c).length ≤ 2 := by
      unfold unescaped
      split <;> simp
    simp only [List.length_append, List.length_cons]
    omega

theorem Lexeme.length_le (h : Lexeme t form) (ht : t.piece = .text s) :
    s.length ≤ form.length := by
  cases h with
  | word _ =>
    cases ht
    simp
  | quoted hform =>
    cases ht
    have hlength := hform.length_le
    simp only [String.length_ofList, List.length_cons, List.length_append]
    omega
  | opening => cases ht
  | closing => cases ht

theorem Cut.length_form_le {row : List Placed} (h : Cut row cs) {x : Placed} (hx : x ∈ row) :
    x.form.length ≤ cs.length := by
  obtain ⟨before, after, rfl⟩ := List.append_of_mem hx
  have hprefix := h.placed_prefix.length_le
  rw [List.length_append] at hprefix
  omega

/-- The text of a token is no longer than the text that it is cut from. -/
theorem length_le_of_scan {line : Line} {ts : Tokens} (h : scan line cs = .ok ts)
    (hs : .text s ∈ pieces ts.items) : s.length ≤ cs.length := by
  obtain ⟨row, hrow⟩ := Cut.exists_of_scan h
  obtain ⟨n, hscan, -⟩ := hrow.scan_eq line
  rw [h] at hscan
  cases hscan
  obtain ⟨t, ht, hpiece⟩ := List.mem_map.mp hs
  have htoken : t.token ∈ row.map Placed.token := by
    rw [← map_token_located line row]
    exact List.mem_map_of_mem ht
  obtain ⟨x, hx, hxt⟩ := List.mem_map.mp htoken
  rw [← hxt] at hpiece
  exact Nat.le_trans ((hrow.lexeme_of_mem hx).length_le hpiece) (hrow.length_form_le hx)

end Token

/-! ## Atoms -/

namespace Expr

mutual

/-- An atom is a piece of the linear form. -/
theorem text_mem_linear : ∀ (e : Expr) {s : String}, s ∈ e.atoms → .text s ∈ e.linear
  | atom t, s, h => by
    rw [atoms, List.mem_singleton] at h
    rw [linear, h]
    exact .head _
  | list xs, s, h => by
    rw [atoms] at h
    rw [linear]
    exact .tail _ (List.mem_append_left _ (text_mem_linearItems xs h))

theorem text_mem_linearItems : ∀ (xs : List Expr) {s : String},
    s ∈ itemAtoms xs → .text s ∈ linearItems xs
  | x :: xs, s, h => by
    rw [itemAtoms] at h
    rw [linearItems]
    rcases List.mem_append.mp h with h | h
    · exact List.mem_append_left _ (text_mem_linear x h)
    · exact List.mem_append_right _ (text_mem_linearItems xs h)

end

end Expr

/-- The atoms of a command are those of its items. -/
theorem mem_itemAtoms_of_command? {es : List Expr} {e : Expr} (h : command? es = some e)
    {s : String} (hs : s ∈ e.atoms) : s ∈ Expr.itemAtoms es := by
  rcases command?_eq_some_iff.mp h with rfl | ⟨-, rfl⟩
  · exact Expr.mem_itemAtoms.mpr ⟨e, List.mem_singleton_self e, hs⟩
  · rwa [Expr.atoms] at hs

/-! ## What is read from a text -/

/-- What is read from a text: its one expression, its command, or a command of the script that it
is. -/
inductive ReadFrom (src : String) (e : Expr) : Prop where
  | expression (h : readExpression src = .ok e)
  | command (h : readCommand src = .ok e)
  | script {es : List Expr} (h : readScript src = .ok es) (he : e ∈ es)

namespace ReadFrom

variable {src : String} {e : Expr}

/-- The text or one of its lines has items that the expression stands for. -/
theorem exists_items (h : ReadFrom src e) :
    ∃ cs ts es, cs.length ≤ src.length ∧ Token.scan 1 cs = .ok ts ∧ readItems ts.items = .ok es ∧
      command? es = some e := by
  have hlength : src.toList.length ≤ src.length := by rw [String.length_toList]
  cases h with
  | expression h =>
    obtain ⟨ts, hts⟩ := exists_tokens_of_readExpression h
    exact ⟨_, ts, [e], hlength, hts, (readExpression_eq_ok_iff hts).mp h, rfl⟩
  | command h =>
    obtain ⟨ts, hts⟩ := exists_tokens_of_readCommand h
    obtain ⟨es, hes, hcommand⟩ := (readCommand_eq_ok_iff hts).mp h
    exact ⟨_, ts, es, hlength, hts, hes, hcommand⟩
  | script h he =>
    obtain ⟨l, hl, n, hread⟩ := exists_line_of_mem_readLines h he
    obtain ⟨ts, es, hts, hes, hcommand⟩ := readLine_eq_some hread
    exact ⟨l, ts, es, Nat.le_trans (Text.length_le_of_mem_lines hl) hlength, hts, hes, hcommand⟩

theorem depth_le (h : ReadFrom src e) : e.depth ≤ 257 := by
  obtain ⟨cs, ts, es, -, hts, hes, hcommand⟩ := h.exists_items
  rcases depth_of_command? hts hes hcommand with hdepth | hrow
  · exact Nat.le_succ_of_le hdepth
  · exact Nat.le_of_eq hrow.depth_eq

theorem length_le (h : ReadFrom src e) {s : String} (hs : s ∈ e.atoms) : s.length ≤ src.length := by
  obtain ⟨cs, ts, es, hlength, hts, hes, hcommand⟩ := h.exists_items
  have hpiece := Expr.text_mem_linearItems es (mem_itemAtoms_of_command? hcommand hs)
  rw [← (readItems_eq_ok_iff.mp hes).1] at hpiece
  exact Nat.le_trans (Token.length_le_of_scan hts hpiece) hlength

end ReadFrom

end Scenario
