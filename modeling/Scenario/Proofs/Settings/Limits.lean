import Scenario.Proofs.Decimal.Limits
import Scenario.Proofs.Settings.Acceptance
import Scenario.Width

/-!
# Limits of worlds

A world stays within limits if the numbers and the texts that it can answer with do
(`World.Within`). In a world that settings describe, these are read from the texts of the settings.
Fixing one more answer that is within limits leaves all answers within them
(`Fixtures.Within.withBalance`, `Fixtures.Within.withCall`), so a whole row does
(`Settings.fixBalances_within`, `Settings.fixCalls_within`), and the world has no others
(`Settings.toWorld_within`).
-/

namespace Scenario

/-- A world whose numbers and texts stay within limits. -/
structure World.Within (l : Limits) (w : World) : Prop where
  network : w.network.length ≤ l.text
  gas : ∀ i n, w.lastInvocation = some i → i.gasUsed = some n → n.Within l
  balance : ∀ a n, w.client.balance a = .ok n → n.Within l
  call : ∀ a method args s, w.client.call a method args = .ok s → s.length ≤ l.text
  now : w.now.natAbs < 10 ^ l.digits

namespace Fixtures

/-- Fixed answers that stay within limits. -/
structure Within (l : Limits) (f : Fixtures) : Prop where
  balance : ∀ a n, f.balance? a = some n → n.Within l
  call : ∀ a method args s, f.call? a method args = some s → s.length ≤ l.text

variable {l : Limits} {f : Fixtures}

namespace Within

theorem empty (l : Limits) : Fixtures.empty.Within l :=
  ⟨nofun, nofun⟩

theorem withBalance (h : f.Within l) (a : String) {v : Decimal} (hv : v.Within l) :
    (f.withBalance a v).Within l where
  balance a' n hn := by
    rw [balance?_withBalance] at hn
    split at hn
    · cases hn
      exact hv
    · exact h.balance a' n hn
  call := h.call

theorem withCall (h : f.Within l) (a method : String) (args : List String) {r : String}
    (hr : r.length ≤ l.text) : (f.withCall a method args r).Within l where
  balance := h.balance
  call a' method' args' s hs := by
    rw [call?_withCall] at hs
    split at hs
    · cases hs
      exact hr
    · exact h.call a' method' args' s hs

end Within

end Fixtures

namespace Settings

variable {s : Settings} {w : World} {f f' : Fixtures} {text : Nat}

theorem fixBalances_within {row : Entries String} (hrow : ∀ e ∈ row, e.2.length ≤ text)
    (hf : f.Within (.base text)) (h : fixBalances w row f = .ok f') : f'.Within (.base text) := by
  induction row generalizing f with
  | nil =>
    cases h
    exact hf
  | cons e row ih =>
    obtain ⟨a, v, -, hv, h⟩ := fixBalances_cons_eq_ok_iff.mp h
    rw [List.forall_mem_cons] at hrow
    exact ih hrow.2 (hf.withBalance a (Decimal.readNumber_within hv hrow.1)) h

theorem fixCalls_within {row : List CallSetting} (hrow : ∀ c ∈ row, c.result.length ≤ text)
    (hf : f.Within (.base text)) (h : fixCalls w row f = .ok f') : f'.Within (.base text) := by
  induction row generalizing f with
  | nil =>
    cases h
    exact hf
  | cons c row ih =>
    obtain ⟨a, -, h⟩ := fixCalls_cons_eq_ok_iff.mp h
    rw [List.forall_mem_cons] at hrow
    exact ih hrow.2 (hf.withCall a c.method _ hrow.1) h

/-- The texts of settings that the numbers and the texts of the world come from. -/
def texts (s : Settings) : List String :=
  s.network :: (s.balances.map Prod.snd ++ s.calls.map CallSetting.result)

/-- Settings whose numbers fit into the words that hold them, and whose texts are shorter than
`2 ^ 32` characters. -/
structure Sized (s : Settings) : Prop where
  mantissaDecimals : s.mantissaDecimals < 2 ^ 32
  now : ∀ t, s.now = some t → fitsSigned 64 t = true
  texts : ∀ x ∈ s.texts, x.length < 2 ^ 32

theorem toWorld_mantissaDecimals (h : s.toWorld = .ok w) :
    w.mantissaDecimals = s.mantissaDecimals := by
  obtain ⟨_, _, _, hbook, -, -, rfl⟩ := exists_parts_of_toWorld h
  obtain ⟨-, rfl⟩ := enterAddresses_blank_eq_ok_iff.mp hbook
  rfl

/-- The world that settings describe stays within limits that have room for their texts and for the
time. -/
theorem toWorld_within (h : s.toWorld = .ok w) (htexts : ∀ x ∈ s.texts, x.length ≤ text) {t : Int}
    (hnow : (s.now.getD t).natAbs < 10 ^ (Limits.base text).digits) :
    { w with hostNow := t }.Within (.base text) := by
  obtain ⟨book, f₁, f₂, hbook, hf₁, hf₂, rfl⟩ := exists_parts_of_toWorld h
  obtain ⟨-, rfl⟩ := enterAddresses_blank_eq_ok_iff.mp hbook
  rw [texts, List.forall_mem_cons, List.forall_mem_append, List.forall_mem_map,
    List.forall_mem_map] at htexts
  obtain ⟨hnetwork, hbalances, hcalls⟩ := htexts
  have hfixed := fixCalls_within hcalls (fixBalances_within hbalances (.empty _) hf₁) hf₂
  refine ⟨hnetwork, nofun, fun a n hn => ?_, fun a method args r hr => ?_, hnow⟩
  · simp only [Fixtures.client] at hn
    split at hn
    · cases hn
      exact hfixed.balance a _ ‹_›
    · cases hn
  · simp only [Fixtures.client] at hr
    split at hr
    · cases hr
      exact hfixed.call a method args _ ‹_›
    · cases hr

end Settings

end Scenario
