import Scenario.Proofs.Text
import Scenario.World

/-!
# Canonical addresses

Case makes no difference to the canonical form of an address (`canonicalAddress?_fold`), and that
form is its own (`Canonical`). In a world whose address book holds canonical addresses only
(`World.BookCanonical`), as all that are entered are, every name that resolves stands for one
(`resolve?_canonical`), and a text that is a canonical address up to case resolves to it
(`resolve?_of_canonical_fold`).
-/

namespace Scenario

/-- Whether a text is an address in canonical form. -/
def Canonical (a : String) : Prop :=
  canonicalAddress? a = some a

theorem canonicalAddress?_fold (s : String) :
    canonicalAddress? (Text.fold s) = canonicalAddress? s := by
  rw [canonicalAddress?, canonicalAddress?, Text.toList_fold, Text.afterHexMark?_map_toLower]
  cases Text.afterHexMark? s.toList with
  | none => rfl
  | some r =>
    simp only [Option.map_some, List.length_map, List.all_map, List.map_map, Function.comp_def,
      Text.isHexDigit_toLower, Text.toLower_toLower]

theorem canonicalAddress?_eq_some_iff {s a : String} :
    canonicalAddress? s = some a ↔ ∃ r, Text.afterHexMark? s.toList = some r ∧ r.length = 40 ∧
      (∀ c ∈ r, Text.isHexDigit c = true) ∧
      a = String.ofList ('0' :: 'x' :: r.map Char.toLower) := by
  rw [canonicalAddress?]
  cases Text.afterHexMark? s.toList with
  | none => simp
  | some r =>
    simp only [List.all_eq_true, Option.ite_none_right_eq_some, Option.some.injEq, and_assoc,
      exists_eq_left', eq_comm (a := a)]

theorem Canonical.fold_eq {a : String} (h : Canonical a) : Text.fold a = a := by
  obtain ⟨r, -, -, -, ha⟩ := canonicalAddress?_eq_some_iff.mp h
  rw [ha, ← String.toList_inj, Text.toList_fold, String.toList_ofList]
  simp only [List.map_cons, List.map_map, Function.comp_def, Text.toLower_toLower]
  rfl

theorem canonical_of_eq_some {s a : String} (h : canonicalAddress? s = some a) : Canonical a := by
  obtain ⟨r, -, hlen, hhex, rfl⟩ := canonicalAddress?_eq_some_iff.mp h
  refine canonicalAddress?_eq_some_iff.mpr ⟨r.map Char.toLower, ?_, ?_, ?_, ?_⟩
  · rw [String.toList_ofList]
    rfl
  · rw [List.length_map, hlen]
  · simpa [Text.isHexDigit_toLower] using hhex
  · simp only [List.map_map, Function.comp_def, Text.toLower_toLower]

theorem canonical_zeroAddress : Canonical zeroAddress := by
  rw [Canonical]
  decide

namespace World

/-- Whether the address book of a world holds canonical addresses only. -/
def BookCanonical (w : World) : Prop :=
  ∀ k a, w.addresses.get? k = some a → Canonical a

theorem addAddress_eq (w : World) (name address : String) :
    w.addAddress name address =
      match canonicalAddress? address with
      | none => .error (.invalidAddress name address)
      | some a => .ok { w with addresses := w.addresses.put (Text.fold name) a } := by
  rw [addAddress, register]
  cases canonicalAddress? address <;> rfl

/-- A registration that fails leaves the world as it is. -/
theorem register_world {w : World} {name address : String} {f : ConfigFault}
    (h : (w.register name address).1 = .error f) : (w.register name address).2 = w := by
  rw [register] at h ⊢
  cases ha : canonicalAddress? address with
  | none => rfl
  | some a =>
    rw [ha] at h
    cases h

theorem addAddress_bookCanonical {w w' : World} {name address : String}
    (h : w.addAddress name address = .ok w') (hw : w.BookCanonical) : w'.BookCanonical := by
  rw [addAddress_eq] at h
  split at h
  · cases h
  · rename_i a ha
    cases h
    intro k b hb
    simp only [Entries.get?_put] at hb
    split at hb
    · cases hb
      exact canonical_of_eq_some ha
    · exact hw k b hb

theorem resolve?_canonical {w : World} {name a : String} (hw : w.BookCanonical)
    (h : w.resolve? name = some a) : Canonical a := by
  simp only [resolve?] at h
  split at h
  · cases h
    exact canonical_zeroAddress
  · rcases Option.or_eq_some_iff.mp h with hwritten | ⟨-, halias⟩
    · exact canonical_of_eq_some hwritten
    · exact hw _ a halias

theorem exists_map_resolve?_eq {w : World} {names : List String}
    (h : ∀ name ∈ names, (w.resolve? name).isSome = true) :
    ∃ as : List String, names.map w.resolve? = as.map some := by
  refine ⟨names.map fun name => (w.resolve? name).getD name, ?_⟩
  rw [List.map_map]
  refine List.map_congr_left fun name hname => ?_
  obtain ⟨a, ha⟩ := Option.isSome_iff_exists.mp (h name hname)
  simp [ha]

theorem canonical_of_map_resolve?_eq {w : World} {names as : List String} (hw : w.BookCanonical)
    (h : names.map w.resolve? = as.map some) : ∀ a ∈ as, Canonical a := by
  intro a ha
  have hmem : some a ∈ names.map w.resolve? := by
    rw [h]
    exact List.mem_map_of_mem ha
  obtain ⟨name, -, hname⟩ := List.mem_map.mp hmem
  exact resolve?_canonical hw hname

/-- A text that is a canonical address up to case has no blanks and is not `zero`. -/
theorem resolve?_of_canonical_fold (w : World) {name : String}
    (h : Canonical (Text.fold name)) : w.resolve? name = some (Text.fold name) := by
  have hname : canonicalAddress? name = some (Text.fold name) := by
    rw [← canonicalAddress?_fold]
    exact h
  have htrim : Text.trim name = name := by
    obtain ⟨r, hr, -, hhex, -⟩ := canonicalAddress?_eq_some_iff.mp hname
    have hblank : ∀ c ∈ name.toList, Text.isBlank c = false := by
      have hdigits : ∀ c ∈ r, Text.isBlank c = false :=
        fun c hc => Text.isBlank_of_isHexDigit (hhex c hc)
      rcases Text.afterHexMark?_eq_some_iff.mp hr with hcs | hcs
      · rw [hcs]
        simpa using ⟨by decide, by decide, hdigits⟩
      · rw [hcs]
        simpa using ⟨by decide, by decide, hdigits⟩
    rw [Text.trim, Text.trimChars_of_not_blank hblank, String.ofList_toList]
  have hzero : Text.sameFold name "zero" = false := by
    rw [Bool.eq_false_iff, Ne, Text.sameFold_iff]
    intro heq
    have hnone : canonicalAddress? (Text.fold "zero") = none := by decide
    rw [heq, Canonical, hnone] at h
    cases h
  simp [resolve?, htrim, hzero, hname]

end World

end Scenario
