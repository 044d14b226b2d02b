import Scenario.Proofs.AddressBook.Aliases
import Scenario.Proofs.Settings

/-!
# The address book of every world

A world starts out with an empty address book or is set up from settings, and then takes steps
(`World.Reachable`). Every entry that is made has a folded key and a canonical address, so an entry
of a book was made that way (`World.BookKept`): one step keeps this (`World.BookKept.run`), and the
worlds that settings describe start out with it (`Settings.toWorld_bookKept`).

`World.Reachable.addressBook` adds what follows for names: they stand for canonical addresses, their
case and the blanks around them make no difference, and a canonical address stands for itself.
-/

namespace Scenario

/-! ## The form of canonical addresses -/

/-- Whether a text is `0x` and forty hexadecimal digits in lower case. -/
def IsLowerAddress (a : String) : Prop :=
  ∃ digits : List Char, digits.length = 40 ∧
    (∀ d ∈ digits, '0' ≤ d ∧ d ≤ '9' ∨ 'a' ≤ d ∧ d ≤ 'f') ∧ a = "0x" ++ String.ofList digits

namespace Text

theorem isLowerDigit_iff {c : Char} : ('0' ≤ c ∧ c ≤ '9' ∨ 'a' ≤ c ∧ c ≤ 'f') ↔
    isHexDigit c = true ∧ c.toLower = c := by
  have hle (a b : Char) : a ≤ b ↔ a.toNat ≤ b.toNat := UInt32.le_iff_toNat_le
  rw [isHexDigit_iff, ← Char.toNat_inj, toNat_toLower]
  simp only [hle, Char.reduceToNat]
  split <;> omega

end Text

theorem canonical_iff {a : String} : Canonical a ↔ IsLowerAddress a := by
  constructor
  · intro h
    obtain ⟨r, -, hlen, hhex, ha⟩ := canonicalAddress?_eq_some_iff.mp h
    refine ⟨r.map Char.toLower, by rw [List.length_map, hlen], ?_, ?_⟩
    · intro d hd
      obtain ⟨c, hc, rfl⟩ := List.mem_map.mp hd
      rw [Text.isLowerDigit_iff, Text.isHexDigit_toLower]
      exact ⟨hhex c hc, Text.toLower_toLower c⟩
    · rw [ha, ← String.toList_inj]
      simp
  · rintro ⟨digits, hlen, hdigits, rfl⟩
    have hlower : digits.map Char.toLower = digits :=
      (List.map_congr_left fun d hd => (Text.isLowerDigit_iff.mp (hdigits d hd)).2).trans
        (List.map_id digits)
    refine canonicalAddress?_eq_some_iff.mpr ⟨digits, ?_, hlen, ?_, ?_⟩
    · refine Text.afterHexMark?_eq_some_iff.mpr (.inl ?_)
      simp
    · exact fun d hd => (Text.isLowerDigit_iff.mp (hdigits d hd)).1
    · rw [hlower, ← String.toList_inj]
      simp

/-! ## Address books -/

namespace World

/-- Whether every entry of the address book has a folded key and a canonical address. -/
structure BookKept (w : World) : Prop where
  key : ∀ e ∈ w.addresses, Text.fold e.1 = e.1
  address : ∀ e ∈ w.addresses, Canonical e.2

namespace BookKept

variable {w w' : World}

theorem of_addresses_eq (h : w.BookKept) (heq : w'.addresses = w.addresses) : w'.BookKept :=
  ⟨heq ▸ h.key, heq ▸ h.address⟩

theorem of_addresses_nil (h : w.addresses = []) : w.BookKept := by
  constructor <;> rw [h] <;> exact nofun

theorem put (h : w.BookKept) {name a : String} (ha : Canonical a)
    (heq : w'.addresses = w.addresses.put (Text.fold name) a) : w'.BookKept := by
  constructor
  · intro e he
    rw [heq] at he
    rcases Entries.mem_put he with rfl | he
    · exact Text.fold_fold name
    · exact h.key e he
  · intro e he
    rw [heq] at he
    rcases Entries.mem_put he with rfl | he
    · exact ha
    · exact h.address e he

theorem addAddress {name address : String} (hadd : w.addAddress name address = .ok w')
    (h : w.BookKept) : w'.BookKept := by
  obtain ⟨a, ha, rfl⟩ := addAddress_eq_ok_iff.mp hadd
  exact h.put (canonical_of_eq_some ha) rfl

theorem run (h : w.BookKept) (s : Step) : (s.run w).2.BookKept := by
  have hrun := s.run_addresses w
  cases hentry : s.entry? with
  | none =>
    rw [hentry] at hrun
    exact h.of_addresses_eq hrun
  | some e =>
    rw [hentry] at hrun
    obtain ⟨name, a, rfl, ha⟩ := Step.exists_of_entry? hentry
    exact h.put ha hrun

theorem bookCanonical (h : w.BookKept) : w.BookCanonical :=
  fun _ _ hget => h.address _ (Entries.mem_of_get? hget)

end BookKept

end World

theorem Settings.toWorld_bookKept {s : Settings} {w : World} (h : s.toWorld = .ok w) :
    w.BookKept := by
  obtain ⟨book, f₁, f₂, hbook, -, -, rfl⟩ := exists_parts_of_toWorld h
  have hkept : book.BookKept :=
    enterAddresses_keeps World.BookKept.addAddress hbook (.of_addresses_nil rfl)
  exact hkept.of_addresses_eq rfl

namespace World

/-- The worlds that can be reached: from a new world or one set up from settings, by steps, while
the clock of the host goes on. -/
inductive Reachable : World → Prop where
  | new (network : String) (client : Client) : Reachable { offline network with client := client }
  | configured {s : Settings} {w : World} (h : s.toWorld = .ok w) : Reachable w
  | step (s : Step) {w : World} (h : Reachable w) : Reachable (s.run w).2
  | hostClock (now : Int) {w : World} (h : Reachable w) : Reachable { w with hostNow := now }

namespace Reachable

theorem bookKept {w : World} (h : w.Reachable) : w.BookKept := by
  induction h with
  | new network client => exact .of_addresses_nil rfl
  | configured h => exact Settings.toWorld_bookKept h
  | step s _ ih => exact ih.run s
  | hostClock now _ ih => exact ih.of_addresses_eq rfl

/-- In every world the keys of the address book are folded and its addresses are canonical, which is
to say in lower case throughout; a registration that fails leaves the world as it is. A name stands
for a canonical address if for any. Names that differ only in case and in the blanks around them
stand for the same, and a canonical address stands for itself. -/
theorem addressBook {w : World} (h : w.Reachable) :
    (∀ a, Canonical a ↔ IsLowerAddress a) ∧
    (∀ e ∈ w.addresses, Text.fold e.1 = e.1 ∧ Canonical e.2) ∧
    (∀ name address failure w', (Step.addAddress name address).run w = (.error failure, w') →
      w' = w) ∧
    (∀ name a, w.resolve? name = some a → Canonical a) ∧
    (∀ name name' l r l' r' : String, Text.fold name = Text.fold name' →
      (∀ blanks ∈ [l, r, l', r'], Text.isBlankText blanks = true) →
      w.resolve? (l ++ name ++ r) = w.resolve? (l' ++ name' ++ r')) ∧
    (∀ a, Canonical a → w.resolve? a = some a) := by
  have hkept := h.bookKept
  refine ⟨fun a => canonical_iff, fun e he => ⟨hkept.key e he, hkept.address e he⟩, ?_,
    fun name a => resolve?_canonical hkept.bookCanonical, ?_, fun a ha => w.resolve?_address ha⟩
  · intro name address failure w' hrun
    simp only [Step.run, Prod.mk.injEq] at hrun
    obtain ⟨hanswer, rfl⟩ := hrun
    cases hregister : (w.register name address).1 with
    | error f => exact register_world hregister
    | ok _ =>
      rw [hregister] at hanswer
      cases hanswer
  · intro name name' l r l' r' hfold hblank
    simp only [List.forall_mem_cons] at hblank
    obtain ⟨hl, hr, hl', hr', -⟩ := hblank
    apply w.resolve?_congr
    rw [Text.trim_append hl hr, Text.trim_append hl' hr', Text.fold_trim, Text.fold_trim, hfold]

/-- One registration in capitals, and names in other spellings with blanks around them. -/
theorem addressBook_bob :
    let address := "0X00000000000000000000000000000000000000BB"
    let canonical := "0x00000000000000000000000000000000000000bb"
    let w := ((Step.addAddress "BOB" address).run (offline "test")).2
    w.Reachable ∧ w.addresses = [("bob", canonical)] ∧ Canonical canonical ∧
      w.resolve? ("\t" ++ "Bob" ++ " ") = some canonical ∧
      w.resolve? ("\t" ++ "Bob" ++ " ") = w.resolve? ("" ++ "bOB" ++ "\n") ∧
      w.resolve? canonical = some canonical := by
  intro address canonical w
  have hw : w.Reachable := .step _ (.new "test" (offline "test").client)
  have haddresses : w.addresses = [("bob", canonical)] := by decide
  obtain ⟨-, hentries, -, -, hspelling, hself⟩ := hw.addressBook
  have hcanonical : Canonical canonical := (hentries ("bob", canonical) (by rw [haddresses]; simp)).2
  exact ⟨hw, haddresses, hcanonical, by decide,
    hspelling "Bob" "bOB" "\t" " " "" "\n" (by decide) (by decide), hself canonical hcanonical⟩

end Reachable

end World

end Scenario
