import Scenario.Proofs.Settings

/-!
# Which settings describe a world

The entries of settings are taken one after the other (`Settings.items`): the addresses, then the
balances and the calls. What is wrong with an entry can be said of it alone and the aliases of the
settings (`Settings.fault?`), as the book that its name is looked up in has these aliases and no
others (`resolve?_isSome_iff_knows`). Each of the three rows fails with the fault of its first entry
that has one, so the settings do (`toWorld_eq_error_iff`).

The address book that comes of the addresses is that of their folded aliases, put in their order
(`enterAddresses_eq_ok_iff`). In settings the aliases ascend, so the last of those that are folded
to one key is the greatest of them (`get?_book`).
-/

namespace Scenario

namespace Settings

/-- An entry of settings. -/
inductive Item where
  | address (entry : String × String)
  | balance (entry : String × String)
  | call (setting : CallSetting)

/-- The entries of settings in the order in which they are taken. -/
def items (s : Settings) : List Item :=
  s.addresses.map .address ++ (s.balances.map .balance ++ s.calls.map .call)

/-- Whether a name stands for an address: blanks around it apart, it is `zero` or one of the aliases
in letters of either case, or it is written like an address. -/
def Knows (s : Settings) (name : String) : Prop :=
  Text.sameFold (Text.trim name) "zero" = true ∨
    (canonicalAddress? (Text.trim name)).isSome = true ∨
    ∃ e ∈ s.addresses, Text.sameFold e.1 (Text.trim name) = true

instance (s : Settings) (name : String) : Decidable (s.Knows name) :=
  inferInstanceAs (Decidable (_ ∨ _ ∨ _))

/-- What is wrong with an entry. -/
def fault? (s : Settings) : Item → Option ConfigFault
  | .address (name, address) =>
    if (canonicalAddress? address).isSome then none else some (.invalidAddress name address)
  | .balance (name, amount) =>
    if s.Knows name then
      match Decimal.readNumber amount with
      | .ok _ => none
      | .error f => some (.invalidBalance name f)
    else some (.unknownAddress name)
  | .call c => if s.Knows c.address then none else some (.unknownAddress c.address)

variable {s : Settings} {w w' : World} {row : Entries String} {f : ConfigFault} {name : String}

/-! ## The address book -/

/-- The entry of the address book that an alias makes with its address. -/
def entered? (e : String × String) : Option (String × String) :=
  (canonicalAddress? e.2).map (Text.fold e.1, ·)

/-- The address book of settings. -/
def book (s : Settings) : Entries String :=
  .ofList (s.addresses.filterMap entered?)

theorem enterAddresses_cons (e : String × String) (row : Entries String) (w : World) :
    enterAddresses (e :: row) w =
      match canonicalAddress? e.2 with
      | none => .error (.invalidAddress e.1 e.2)
      | some a => enterAddresses row { w with addresses := w.addresses.put (Text.fold e.1) a } := by
  rw [enterAddresses, World.addAddress_eq]
  cases canonicalAddress? e.2 <;> rfl

theorem enterAddresses_eq_ok_iff : enterAddresses row w = .ok w' ↔
    (∀ e ∈ row, (canonicalAddress? e.2).isSome = true) ∧
      w' = { w with addresses :=
        (row.filterMap entered?).foldl (fun es x => es.put x.1 x.2) w.addresses } := by
  induction row generalizing w with
  | nil =>
    simp only [enterAddresses, Except.ok.injEq, List.filterMap_nil, List.foldl_nil]
    simpa using eq_comm
  | cons e row ih =>
    rw [enterAddresses_cons]
    cases he : canonicalAddress? e.2 with
    | none => simp [he]
    | some a => simp [he, ih, entered?]

theorem enterAddresses_eq_error_iff : enterAddresses row w = .error f ↔
    (row.map Item.address).findSome? s.fault? = some f := by
  induction row generalizing w with
  | nil => simp [enterAddresses]
  | cons e row ih =>
    rw [enterAddresses_cons, List.map_cons, List.findSome?_cons, fault?]
    cases he : canonicalAddress? e.2 with
    | none => simp
    | some a => simpa using ih

/-- The world before any balance and call is fixed. -/
theorem enterAddresses_blank_eq_ok_iff :
    enterAddresses s.addresses
        { World.offline s.network with mantissaDecimals := s.mantissaDecimals } = .ok w ↔
      (∀ e ∈ s.addresses, (canonicalAddress? e.2).isSome = true) ∧
        w = { World.offline s.network with
          mantissaDecimals := s.mantissaDecimals, addresses := s.book } :=
  enterAddresses_eq_ok_iff

theorem mem_keys_book (h : ∀ e ∈ s.addresses, (canonicalAddress? e.2).isSome = true)
    (key : String) : key ∈ s.book.map Prod.fst ↔ ∃ e ∈ s.addresses, Text.fold e.1 = key := by
  rw [book, Entries.mem_keys_ofList, List.mem_map]
  constructor
  · rintro ⟨x, hx, rfl⟩
    obtain ⟨e, he, hentry⟩ := List.mem_filterMap.mp hx
    obtain ⟨a, -, rfl⟩ := Option.map_eq_some_iff.mp hentry
    exact ⟨e, he, rfl⟩
  · rintro ⟨e, he, rfl⟩
    obtain ⟨a, ha⟩ := Option.isSome_iff_exists.mp (h e he)
    exact ⟨(Text.fold e.1, a), List.mem_filterMap.mpr ⟨e, he, by rw [entered?, ha]; rfl⟩, rfl⟩

/-- A name is found in the book of the settings exactly if they know it. -/
theorem resolve?_isSome_iff_knows
    (h : ∀ e ∈ s.addresses, (canonicalAddress? e.2).isSome = true) (hw : w.addresses = s.book)
    (name : String) : (w.resolve? name).isSome = true ↔ s.Knows name := by
  rw [World.resolve?, Knows, hw]
  simp only [Text.sameFold_iff]
  split
  · rename_i hzero
    simp [hzero]
  · rename_i hzero
    rw [Option.isSome_or, Bool.or_eq_true, Entries.get?_isSome_iff, mem_keys_book h]
    simp [hzero]

/-- Of the aliases that are folded to one key the greatest gives it its address. -/
theorem get?_book (hs : s.addresses.Ascending) {e : String × String} (he : e ∈ s.addresses)
    (hlast : ∀ e' ∈ s.addresses, Text.fold e'.1 = Text.fold e.1 → e'.1 ≤ e.1) {a : String}
    (ha : canonicalAddress? e.2 = some a) : s.book.get? (Text.fold e.1) = some a := by
  obtain ⟨before, after, hsplit⟩ := List.append_of_mem he
  have hentry : entered? e = some (Text.fold e.1, a) := by rw [entered?, ha]; rfl
  have hafter : Text.fold e.1 ∉ (after.filterMap entered?).map Prod.fst := by
    intro hmem
    obtain ⟨x, hx, hkey⟩ := List.mem_map.mp hmem
    obtain ⟨e', he', hx'⟩ := List.mem_filterMap.mp hx
    obtain ⟨a', -, rfl⟩ := Option.map_eq_some_iff.mp hx'
    have hle := hlast e' (by simp [hsplit, he']) hkey
    have hlt : e.1 < e'.1 := by
      have hpairs : s.addresses.Pairwise fun x y => x.1 < y.1 := List.pairwise_map.mp hs
      rw [hsplit, List.pairwise_append, List.pairwise_cons] at hpairs
      exact hpairs.2.1.1 e' he'
    exact String.not_lt.mpr hle hlt
  rw [book, hsplit, List.filterMap_append, List.filterMap_cons_some hentry]
  exact Entries.get?_ofList_append hafter

/-! ## Balances and calls -/

section Rows

variable (hknows : ∀ name, (w.resolve? name).isSome = true ↔ s.Knows name)
include hknows

theorem resolve_eq_ite (name : String) :
    resolve w name = if s.Knows name then .ok ((w.resolve? name).getD name)
      else .error (.unknownAddress name) := by
  rw [resolve]
  cases h : w.resolve? name with
  | none => simp [← hknows, h]
  | some a => simp [← hknows, h]

theorem fixBalances_eq_error_iff (fixed : Fixtures) : fixBalances w row fixed = .error f ↔
    (row.map Item.balance).findSome? s.fault? = some f := by
  induction row generalizing fixed with
  | nil => simp [fixBalances]
  | cons e row ih =>
    rw [fixBalances, resolve_eq_ite hknows, List.map_cons, List.findSome?_cons, fault?]
    by_cases hname : s.Knows e.1
    · rw [if_pos hname, if_pos hname]
      cases Decimal.readNumber e.2 with
      | error g => simp [bind, Except.bind, Except.mapError]
      | ok v => exact ih _
    · rw [if_neg hname, if_neg hname]
      simp [bind, Except.bind]

theorem fixCalls_eq_error_iff {row : List CallSetting} (fixed : Fixtures) :
    fixCalls w row fixed = .error f ↔ (row.map Item.call).findSome? s.fault? = some f := by
  induction row generalizing fixed with
  | nil => simp [fixCalls]
  | cons c row ih =>
    rw [fixCalls, resolve_eq_ite hknows, List.map_cons, List.findSome?_cons, fault?]
    by_cases hname : s.Knows c.address
    · rw [if_pos hname, if_pos hname]
      exact ih _
    · rw [if_neg hname, if_neg hname]
      simp [bind, Except.bind]

end Rows

/-- Of two steps that may fail, the second is at fault only if the first is not. -/
theorem bind_eq_error_iff_or {α β : Type} {r : Except ConfigFault α}
    {g : α → Except ConfigFault β} {first second : Option ConfigFault}
    (hr : ∀ f, r = .error f ↔ first = some f)
    (hg : ∀ x, r = .ok x → ∀ f, g x = .error f ↔ second = some f) (f : ConfigFault) :
    r >>= g = .error f ↔ first.or second = some f := by
  cases r with
  | error e =>
    rw [(hr e).mp rfl, Option.some_or]
    simp [bind, Except.bind]
  | ok x =>
    have hnone : first = none := by
      cases first with
      | none => rfl
      | some e => cases (hr e).mpr rfl
    rw [hnone, Option.none_or]
    exact hg x rfl f

/-- Settings fail with the fault of their first entry that has one. -/
theorem toWorld_eq_error_iff : s.toWorld = .error f ↔ s.items.findSome? s.fault? = some f := by
  rw [items, List.findSome?_append, List.findSome?_append, toWorld]
  refine bind_eq_error_iff_or (fun f => enterAddresses_eq_error_iff) (fun w hw => ?_) f
  obtain ⟨haddresses, hbook⟩ := enterAddresses_blank_eq_ok_iff.mp hw
  have hknows : ∀ name, (w.resolve? name).isSome = true ↔ s.Knows name :=
    resolve?_isSome_iff_knows haddresses (by rw [hbook])
  refine bind_eq_error_iff_or (fun f => fixBalances_eq_error_iff hknows _) fun f₁ _ f => ?_
  rw [← fixCalls_eq_error_iff hknows f₁]
  cases fixCalls w s.calls f₁ <;> simp [bind, Except.bind, pure, Except.pure]

/-- The world that settings set up, but for its client. -/
structure SetsUp (s : Settings) (w : World) : Prop where
  network : w.network = s.network
  mantissaDecimals : w.mantissaDecimals = s.mantissaDecimals
  pinnedNow : w.pinnedNow = s.now
  lastContract : w.lastContract = none
  lastInvocation : w.lastInvocation = none
  /-- The keys of the address book are the folded aliases, each of them once. -/
  keys : w.addresses.Ascending ∧
    ∀ key, key ∈ w.addresses.map Prod.fst ↔ ∃ e ∈ s.addresses, Text.fold e.1 = key
  /-- A key has the address of the last alias that is folded to it. -/
  address : ∀ e ∈ s.addresses,
    (∀ e' ∈ s.addresses, Text.fold e'.1 = Text.fold e.1 → e'.1 ≤ e.1) →
    ∃ a, canonicalAddress? e.2 = some a ∧ w.addresses.get? (Text.fold e.1) = some a

theorem setsUp_of_toWorld (hs : s.addresses.Ascending) (h : s.toWorld = .ok w) : s.SetsUp w := by
  obtain ⟨_, f₁, f₂, hbook, -, -, rfl⟩ := exists_parts_of_toWorld h
  obtain ⟨haddresses, rfl⟩ := enterAddresses_blank_eq_ok_iff.mp hbook
  refine ⟨rfl, rfl, rfl, rfl, rfl, ⟨Entries.ascending_ofList _, mem_keys_book haddresses⟩,
    fun e he hlast => ?_⟩
  obtain ⟨a, ha⟩ := Option.isSome_iff_exists.mp (haddresses e he)
  exact ⟨a, ha, get?_book hs he hlast ha⟩

theorem items_faultless_iff : (∀ x ∈ s.items, s.fault? x = none) ↔
    (∀ e ∈ s.addresses, (canonicalAddress? e.2).isSome = true) ∧
      (∀ e ∈ s.balances, s.Knows e.1 ∧ ∃ v, Decimal.readNumber e.2 = .ok v) ∧
      ∀ c ∈ s.calls, s.Knows c.address := by
  have haddress (e : String × String) : s.fault? (.address e) = none ↔
      (canonicalAddress? e.2).isSome = true := by
    rw [fault?]
    split <;> simp_all
  have hbalance (e : String × String) : s.fault? (.balance e) = none ↔
      s.Knows e.1 ∧ ∃ v, Decimal.readNumber e.2 = .ok v := by
    rw [fault?]
    by_cases hname : s.Knows e.1 <;> cases Decimal.readNumber e.2 <;> simp [hname]
  have hcall (c : CallSetting) : s.fault? (.call c) = none ↔ s.Knows c.address := by
    rw [fault?]
    split <;> simp_all
  simp only [items, List.forall_mem_append, List.forall_mem_map, haddress, hbalance, hcall]

/-- Settings describe a world exactly if their addresses are written like addresses, the names of
their balances and calls stand for addresses and their amounts are numbers. The world is then as
they say, and the address book has their aliases. Otherwise the fault is that of the first entry
which has one, the addresses coming before the balances and these before the calls. -/
theorem toWorld_accepted (s : Settings) (hs : s.addresses.Ascending) :
    ((∃ w, s.toWorld = .ok w) ↔
      (∀ e ∈ s.addresses, (canonicalAddress? e.2).isSome = true) ∧
        (∀ e ∈ s.balances, s.Knows e.1 ∧ ∃ v, Decimal.readNumber e.2 = .ok v) ∧
        ∀ c ∈ s.calls, s.Knows c.address) ∧
    (∀ w, s.toWorld = .ok w → s.SetsUp w) ∧
    ∀ f, s.toWorld = .error f ↔ ∃ before x after, s.items = before ++ x :: after ∧
      (∀ y ∈ before, s.fault? y = none) ∧ s.fault? x = some f := by
  refine ⟨?_, fun w => setsUp_of_toWorld hs, fun f => ?_⟩
  · rw [← items_faultless_iff, ← List.findSome?_eq_none_iff]
    constructor
    · rintro ⟨w, hw⟩
      by_contra hfault
      obtain ⟨f, hf⟩ := Option.ne_none_iff_exists'.mp hfault
      rw [toWorld_eq_error_iff.mpr hf] at hw
      cases hw
    · intro hnone
      cases hw : s.toWorld with
      | ok w => exact ⟨w, rfl⟩
      | error f =>
        rw [toWorld_eq_error_iff.mp hw] at hnone
        cases hnone
  · rw [toWorld_eq_error_iff, List.findSome?_eq_some_iff]
    simp only [and_comm]

/-- Two aliases that are folded to one key, the second of which gives it its address; and settings
with two faults, of which the balance comes before the call. -/
theorem toWorld_accepted_aliases :
    let first := "0x00000000000000000000000000000000000000aa"
    let second := "0X00000000000000000000000000000000000000BB"
    let s : Settings := { Settings.default with
      addresses := [("Bob", first), ("bob", second)]
      balances := [(" BOB", "1")]
      calls := [⟨"Zero", "totalSupply", ["eve"], "1"⟩] }
    let t : Settings := { s with
      balances := [("bob", "1"), ("eve", "x")]
      calls := [⟨"mallory", "totalSupply", [], "1"⟩] }
    s.addresses.Ascending ∧
      (∃ w, s.toWorld = .ok w ∧ (∀ key, key ∈ w.addresses.map Prod.fst ↔ key = "bob") ∧
        w.addresses.get? "bob" = some "0x00000000000000000000000000000000000000bb") ∧
      t.toWorld = .error (.unknownAddress "eve") := by
  intro first second s t
  have hs : s.addresses.Ascending := by decide
  obtain ⟨haccepted, hsetsUp, -⟩ := toWorld_accepted s hs
  obtain ⟨-, -, hfault⟩ := toWorld_accepted t hs
  refine ⟨hs, ?_, ?_⟩
  · have hamount : Decimal.readNumber "1" = .ok ⟨1, 0⟩ := by decide
    obtain ⟨w, hw⟩ := haccepted.mpr
      ⟨by decide, List.forall_mem_singleton.mpr ⟨by decide, _, hamount⟩, by decide⟩
    have hfold : Text.fold "Bob" = "bob" ∧ Text.fold "bob" = "bob" := by decide
    refine ⟨w, hw, fun key => ?_, ?_⟩
    · rw [(hsetsUp w hw).keys.2 key]
      simp [s, hfold, eq_comm]
    · obtain ⟨a, ha, hget⟩ := (hsetsUp w hw).address ("bob", second) (by decide) (by decide)
      have hsecond : canonicalAddress? second =
          some "0x00000000000000000000000000000000000000bb" := by decide
      rw [hsecond] at ha
      cases ha
      rw [hfold.2] at hget
      exact hget
  · refine (hfault _).mpr ⟨[.address _, .address _, .balance _], .balance ("eve", "x"),
      [.call _], rfl, ?_, ?_⟩
    · decide
    · decide

end Settings

end Scenario
