import Scenario.Proofs.AddressBook
import Scenario.Proofs.Session

/-!
# Aliases

Neither the case of a name nor the blanks around it make a difference to the address that it stands
for: trimming and folding commute (`Text.fold_trim`), so a name is looked up by its trimmed and
folded form only (`World.resolve?_congr`).

Of the steps of a session only a registration changes the address book, and it changes one entry
(`Step.get?_run`). So a session leaves the last address that it registered under an alias
(`Session.get?_run`), and `World.resolve?_registered` says what this means for names: an alias
stands for the last address registered for it, unless it is `zero` or written like an address, which
stand for themselves in every world.
-/

namespace Scenario

namespace Text

theorem isBlank_toLower (c : Char) : isBlank c.toLower = isBlank c := by
  rw [Bool.eq_iff_iff]
  simp only [isBlank, blankRanges, List.any_cons, List.any_nil, Bool.or_false, Bool.or_eq_true,
    Bool.and_eq_true, decide_eq_true_eq, toNat_toLower]
  split <;> omega

theorem dropWhile_isBlank_map_toLower (cs : List Char) :
    (cs.map Char.toLower).dropWhile isBlank = (cs.dropWhile isBlank).map Char.toLower := by
  rw [List.dropWhile_map]
  congr 2
  funext c
  exact isBlank_toLower c

theorem trimChars_map_toLower (cs : List Char) :
    trimChars (cs.map Char.toLower) = (trimChars cs).map Char.toLower := by
  rw [trimChars, trimChars, dropWhile_isBlank_map_toLower, ← List.map_reverse,
    dropWhile_isBlank_map_toLower, ← List.map_reverse]

theorem fold_trim (s : String) : fold (trim s) = trim (fold s) := by
  rw [← String.toList_inj, toList_fold, trim, trim, String.toList_ofList, String.toList_ofList,
    toList_fold, trimChars_map_toLower]

theorem trim_append {l r : String} (hl : isBlankText l = true) (hr : isBlankText r = true)
    (s : String) : trim (l ++ s ++ r) = trim s := by
  rw [trim, trim, String.toList_append, String.toList_append,
    trimChars_append (List.all_eq_true.mp hl) (List.all_eq_true.mp hr)]

end Text

/-! ## Looking up a name -/

/-- What is written like an address is its canonical form up to case. -/
theorem fold_eq_of_canonicalAddress? {s a : String} (h : canonicalAddress? s = some a) :
    Text.fold s = a := by
  obtain ⟨r, hr, -, -, rfl⟩ := canonicalAddress?_eq_some_iff.mp h
  rw [← String.toList_inj, Text.toList_fold, String.toList_ofList]
  rcases Text.afterHexMark?_eq_some_iff.mp hr with hs | hs <;> rw [hs] <;> rfl

namespace World

/-- A name is looked up by its trimmed and folded form. -/
theorem resolve?_congr (w : World) {name name' : String}
    (h : Text.fold (Text.trim name) = Text.fold (Text.trim name')) :
    w.resolve? name = w.resolve? name' := by
  simp only [resolve?, Text.sameFold, h, ← canonicalAddress?_fold (Text.trim name),
    ← canonicalAddress?_fold (Text.trim name')]

theorem resolve?_of_fold_eq (w : World) {name name' : String}
    (h : Text.fold name = Text.fold name') : w.resolve? name = w.resolve? name' := by
  apply w.resolve?_congr
  rw [Text.fold_trim, Text.fold_trim, h]

/-- Every spelling of `zero` stands for the zero address. -/
theorem resolve?_zero (w : World) {name : String} (h : Text.sameFold name "zero" = true) :
    w.resolve? name = some zeroAddress := by
  rw [w.resolve?_of_fold_eq (Text.sameFold_iff.mp h)]
  rfl

/-- Every spelling of an address stands for its canonical form. -/
theorem resolve?_address (w : World) {name a : String} (h : canonicalAddress? name = some a) :
    w.resolve? name = some a := by
  obtain rfl := fold_eq_of_canonicalAddress? h
  exact w.resolve?_of_canonical_fold (canonical_of_eq_some h)

/-- Whether a text can be looked up as an alias: it has no blanks at its ends, it is not `zero` and
it is not written like an address. -/
structure IsAlias (name : String) : Prop where
  trim_eq : Text.trim name = name
  not_zero : Text.sameFold name "zero" = false
  not_address : canonicalAddress? name = none

theorem IsAlias.resolve?_eq {name : String} (h : IsAlias name) (w : World) :
    w.resolve? name = w.addresses.get? (Text.fold name) := by
  simp [resolve?, h.trim_eq, h.not_zero, h.not_address]

theorem addAddress_eq_ok_iff {w w' : World} {name address : String} :
    w.addAddress name address = .ok w' ↔ ∃ a, canonicalAddress? address = some a ∧
      w' = { w with addresses := w.addresses.put (Text.fold name) a } := by
  rw [addAddress_eq]
  cases canonicalAddress? address <;> simp [eq_comm]

end World

/-! ## Registrations -/

namespace Step

/-- The entry that a step makes in the address book. -/
def entry? : Step → Option (String × String)
  | addAddress name address => (canonicalAddress? address).map (Text.fold name, ·)
  | _ => none

theorem exists_of_entry? {s : Step} {e : String × String} (h : s.entry? = some e) :
    ∃ name a, e = (Text.fold name, a) ∧ Canonical a := by
  cases s with
  | addAddress name address =>
    obtain ⟨a, ha, rfl⟩ := Option.map_eq_some_iff.mp h
    exact ⟨name, a, rfl, canonical_of_eq_some ha⟩
  | _ => cases h

/-- All that a step can do to the address book. -/
theorem run_addresses (s : Step) (w : World) :
    (s.run w).2.addresses = s.entry?.elim w.addresses fun e => w.addresses.put e.1 e.2 := by
  cases s with
  | addAddress name address =>
    simp only [run, entry?, World.register]
    cases canonicalAddress? address <;> rfl
  | evaluate e =>
    rw [run_world_of_isEvaluation rfl]
    rfl
  | evaluateText src =>
    rw [run_world_of_isEvaluation rfl]
    rfl
  | _ => rfl

/-- The address that a step registers under a name, in any spelling. -/
def registered? (name : String) : Step → Option String
  | addAddress spelling address =>
    if Text.sameFold spelling name then canonicalAddress? address else none
  | _ => none

theorem registered?_eq (name : String) (s : Step) :
    s.registered? name =
      s.entry?.elim none fun e => if e.1 = Text.fold name then some e.2 else none := by
  cases s with
  | addAddress spelling address =>
    rw [registered?, entry?]
    simp only [Text.sameFold_iff]
    cases canonicalAddress? address <;> simp
  | _ => rfl

theorem get?_run (s : Step) (w : World) (name : String) :
    (s.run w).2.addresses.get? (Text.fold name) =
      (s.registered? name).or (w.addresses.get? (Text.fold name)) := by
  rw [run_addresses, registered?_eq]
  cases s.entry? with
  | none => rfl
  | some e =>
    rw [Option.elim_some, Option.elim_some, Entries.get?_put]
    by_cases hkey : e.1 = Text.fold name
    · rw [if_pos hkey.symm, if_pos hkey, Option.some_or]
    · rw [if_neg (Ne.symm hkey), if_neg hkey, Option.none_or]

end Step

/-- Over a session the last registration of a name counts. -/
theorem Session.get?_run (steps : List Step) (w : World) (name : String) :
    (Session.run steps w).2.addresses.get? (Text.fold name) =
      (steps.filterMap (Step.registered? name)).getLast?.or
        (w.addresses.get? (Text.fold name)) := by
  induction steps generalizing w with
  | nil => rfl
  | cons s steps ih =>
    rw [run_cons, ih, Step.get?_run, List.filterMap_cons]
    cases s.registered? name with
    | none => rfl
    | some a =>
      -- this registration is seen unless a later one of the name is
      rw [List.getLast?_cons]
      cases (steps.filterMap (Step.registered? name)).getLast? <;> rfl

namespace World

/-- A registration is accepted exactly if what it gives is written like an address. From then on
every spelling of the alias stands for that address, in canonical form, until the alias is
registered again: in every session an alias stands for the last address registered for it, and for
what it stood for before if there is none. The names that are no aliases do not depend on the
address book: every spelling of `zero` stands for the zero address, and every address for itself. -/
theorem resolve?_registered :
    (∀ (w : World) (name address : String),
      (∃ w', w.addAddress name address = .ok w') ↔ ∃ a, canonicalAddress? address = some a) ∧
    (∀ name, IsAlias name → ∀ spelling, Text.sameFold spelling name = true →
      (∀ (w w' : World) (address : String), w.addAddress name address = .ok w' → ∀ steps,
        (Session.run steps w').2.resolve? spelling =
          (steps.filterMap (Step.registered? name)).getLast?.or (canonicalAddress? address)) ∧
      (∀ (w : World) (steps : List Step),
        (Session.run steps w).2.resolve? spelling =
          (steps.filterMap (Step.registered? name)).getLast?.or (w.resolve? name))) ∧
    (∀ (w : World) (name : String), Text.sameFold name "zero" = true →
      w.resolve? name = some zeroAddress) ∧
    (∀ (w : World) (name a : String), canonicalAddress? name = some a →
      w.resolve? name = some a) := by
  refine ⟨fun w name address => ?_, fun name hname spelling hspelling => ?_,
    fun w name h => w.resolve?_zero h, fun w name a h => w.resolve?_address h⟩
  · simp [addAddress_eq_ok_iff]
  · have hsession (w : World) (steps : List Step) :
        (Session.run steps w).2.resolve? spelling =
          (steps.filterMap (Step.registered? name)).getLast?.or
            (w.addresses.get? (Text.fold name)) := by
      rw [resolve?_of_fold_eq _ (Text.sameFold_iff.mp hspelling), hname.resolve?_eq,
        Session.get?_run]
    refine ⟨fun w w' address hadd steps => ?_, fun w steps => ?_⟩
    · obtain ⟨a, ha, rfl⟩ := addAddress_eq_ok_iff.mp hadd
      rw [hsession, ha, Entries.get?_put, if_pos rfl]
    · rw [hsession, hname.resolve?_eq]

/-- An alias that is registered twice, the second time in another case, with a registration that is
refused and one of another alias in between and after. -/
theorem resolve?_registered_twice :
    let first := "0x00000000000000000000000000000000000000aa"
    let second := "0X00000000000000000000000000000000000000BB"
    let steps : List Step :=
      [.addAddress "bOB" second, .addAddress "Bob" "0x12", .addAddress "Rob" first]
    ∃ w, (offline "test").addAddress "Bob" first = .ok w ∧ IsAlias "Bob" ∧
      w.resolve? "BOB" = some first ∧
      (Session.run steps w).2.resolve? "BOB" =
        some "0x00000000000000000000000000000000000000bb" := by
  intro first second steps
  have hname : IsAlias "Bob" := ⟨by decide, by decide, by decide⟩
  obtain ⟨haccepted, halias, -⟩ := resolve?_registered
  have hfirst : canonicalAddress? first = some first := by decide
  obtain ⟨w, hw⟩ := (haccepted (offline "test") "Bob" first).mpr ⟨_, hfirst⟩
  have hsession := (halias "Bob" hname "BOB" (by decide)).1 _ w first hw
  have hregistered : steps.filterMap (Step.registered? "Bob") =
      ["0x00000000000000000000000000000000000000bb"] := by decide
  refine ⟨w, hw, hname, ?_, ?_⟩
  · exact (hsession []).trans hfirst
  · rw [hsession steps, hregistered]
    rfl

/-- A registration of `zero`, of an address or of a name with blanks around it is accepted, and the
name does not stand for the address that was registered for it. -/
theorem resolve?_not_registered :
    let address := "0x00000000000000000000000000000000000000aa"
    ∀ name ∈ ["Zero", "0x00000000000000000000000000000000000000bb", " Bob"],
      ∃ w, (offline "test").addAddress name address = .ok w ∧
        w.resolve? name ≠ canonicalAddress? address := by
  intro address name hname
  have haddress : canonicalAddress? address = some address := by decide
  refine ⟨_, addAddress_eq_ok_iff.mpr ⟨address, haddress, rfl⟩, ?_⟩
  revert name
  decide

end World

end Scenario
