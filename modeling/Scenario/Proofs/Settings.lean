import Scenario.Proofs.AddressBook
import Scenario.Proofs.Evaluate.Queries
import Scenario.Settings

/-!
# Settings read back

The world that settings describe answers queries with what they say. Of several entries for one
question the last one counts, and entries are for one question if the world's address book gives
the same addresses for their names, however these are spelled.

Balances and calls are fixed one entry after the other. A step that fixes an answer leaves the
answers to other questions as they are (`balance?_withBalance`, `call?_withCall`), so after a whole
row the answer is that of the last entry for the question (`balance?_of_fixBalances`,
`call?_of_fixCalls`). Names and addresses meet in the canonical form: the key of an entry is that of
a query exactly if its names stand for the addresses of the query (`key?_eq_some_iff`).
-/

namespace Scenario

variable {w w' : World} {a name : String} {f f' : Fixtures}

/-! ## Fixed answers -/

namespace Fixtures

theorem balance?_withBalance (f : Fixtures) (a a' : String) (v : Decimal) :
    (f.withBalance a v).balance? a' =
      if Text.fold a' = Text.fold a then some v else f.balance? a' :=
  Entries.get?_put ..

theorem call?_withCall (f : Fixtures) (a m : String) (as : List String) (r a' m' : String)
    (as' : List String) :
    (f.withCall a m as r).call? a' m' as' =
      if CallKey.of a m as = CallKey.of a' m' as' then some r else f.call? a' m' as' := by
  simp only [call?, withCall, List.find?_cons]
  split
  · rename_i h
    rw [if_pos (by simpa using h)]
    rfl
  · rename_i h
    rw [if_neg (by simpa using h)]

end Fixtures

theorem normalArg_of_canonical (h : Canonical a) : normalArg a = a := by
  rw [normalArg, h.fold_eq, ite_self]

/-- An argument of a call is kept as an address exactly if it stands for it. -/
theorem normalArg_getD_resolve? (hw : w.BookCanonical) (ha : Canonical a) (x : String) :
    normalArg ((w.resolve? x).getD x) = a ↔ w.resolve? x = some a := by
  cases hx : w.resolve? x with
  | some b =>
    rw [Option.getD_some, normalArg_of_canonical (World.resolve?_canonical hw hx),
      Option.some.injEq]
  | none =>
    -- A text with the normal form of an address is that address up to case, so it resolves.
    simp only [Option.getD_none, reduceCtorEq, iff_false]
    intro heq
    have hfold : Text.fold x = a := by
      rw [normalArg] at heq
      split at heq
      · exact heq
      · rw [heq, ha.fold_eq]
    rw [World.resolve?_of_canonical_fold w (hfold ▸ ha)] at hx
    cases hx

theorem map_normalArg_eq_iff (hw : w.BookCanonical) {as : List String}
    (has : ∀ a ∈ as, Canonical a) (xs : List String) :
    xs.map (fun x => normalArg ((w.resolve? x).getD x)) = as ↔
      xs.map w.resolve? = as.map some := by
  induction xs generalizing as with
  | nil => cases as <;> simp
  | cons x xs ih =>
    cases as with
    | nil => simp
    | cons a as =>
      rw [List.forall_mem_cons] at has
      simp only [List.map_cons, List.cons.injEq, ih has.2, normalArg_getD_resolve? hw has.1]

namespace CallSetting

/-- The key under which a setting is kept, if its address is known. -/
def key? (c : CallSetting) (w : World) : Option CallKey :=
  (w.resolve? c.address).map fun a =>
    .of a c.method (c.args.map fun arg => (w.resolve? arg).getD arg)

theorem key?_eq_some_iff (hw : w.BookCanonical) (c : CallSetting) (ha : Canonical a) (m : String)
    {as : List String} (has : ∀ a ∈ as, Canonical a) :
    c.key? w = some (.of a m as) ↔
      w.resolve? c.address = some a ∧ c.method = m ∧ c.args.map w.resolve? = as.map some := by
  have has' : as.map normalArg = as :=
    (List.map_congr_left fun a h => normalArg_of_canonical (has a h)).trans (List.map_id as)
  rw [key?, Option.map_eq_some_iff]
  simp only [CallKey.of, CallKey.mk.injEq, List.map_map, Function.comp_def, has', ha.fold_eq,
    map_normalArg_eq_iff hw has]
  constructor
  · rintro ⟨b, hb, hfold, hrest⟩
    rw [(World.resolve?_canonical hw hb).fold_eq] at hfold
    exact ⟨hfold ▸ hb, hrest⟩
  · rintro ⟨hb, hrest⟩
    exact ⟨a, hb, ha.fold_eq, hrest⟩

/-- Whether two settings are about the same call: by the address book of the world, they are about
the same method of the same address and give it the same addresses. -/
def SameIn (w : World) (c c' : CallSetting) : Prop :=
  w.resolve? c.address = w.resolve? c'.address ∧ c.method = c'.method ∧
    c.args.map w.resolve? = c'.args.map w.resolve?

instance (w : World) (c c' : CallSetting) : Decidable (c.SameIn w c') :=
  inferInstanceAs (Decidable (_ ∧ _ ∧ _))

end CallSetting

/-! ## The last entry counts -/

/-- What an answer is after one more entry at the head of a row, when the last entry counts. -/
theorem getLast?_filter_cons_elim {α β : Type} (p : α → Bool) (x : α) (xs : List α) (b : β)
    (g : α → β) :
    ((x :: xs).filter p).getLast?.elim b g =
      (xs.filter p).getLast?.elim (if p x then g x else b) g := by
  rw [List.filter_cons]
  split
  · rw [List.getLast?_cons]
    cases (xs.filter p).getLast? <;> rfl
  · rfl

theorem getLast?_filter_of_mem {α : Type} {p : α → Bool} {x : α} {xs : List α} (hx : x ∈ xs)
    (hp : p x = true) : ∃ last, (xs.filter p).getLast? = some last ∧ last ∈ xs := by
  have hne : xs.filter p ≠ [] := List.ne_nil_of_mem (List.mem_filter.mpr ⟨hx, hp⟩)
  exact ⟨_, List.getLast?_eq_some_getLast hne, (List.mem_filter.mp (List.getLast_mem hne)).1⟩

namespace Settings

theorem resolve_eq_ok_iff : resolve w name = .ok a ↔ w.resolve? name = some a := by
  rw [resolve]
  cases w.resolve? name <;> simp

theorem fixBalances_cons_eq_ok_iff {amount : String} {rest : Entries String} :
    fixBalances w ((name, amount) :: rest) f = .ok f' ↔
      ∃ a v, w.resolve? name = some a ∧ Decimal.readNumber amount = .ok v ∧
        fixBalances w rest (f.withBalance a v) = .ok f' := by
  rw [fixBalances]
  simp only [← resolve_eq_ok_iff]
  cases resolve w name with
  | error _ => simp [bind, Except.bind]
  | ok a =>
    cases Decimal.readNumber amount <;> simp [bind, Except.bind, Except.mapError]

theorem fixCalls_cons_eq_ok_iff {c : CallSetting} {rest : List CallSetting} :
    fixCalls w (c :: rest) f = .ok f' ↔
      ∃ a, w.resolve? c.address = some a ∧
        fixCalls w rest (f.withCall a c.method
          (c.args.map fun arg => (w.resolve? arg).getD arg) c.result) = .ok f' := by
  rw [fixCalls]
  simp only [← resolve_eq_ok_iff]
  cases resolve w c.address <;> simp [bind, Except.bind]

theorem exists_of_mem_balances {row : Entries String} (h : fixBalances w row f = .ok f') :
    ∀ e ∈ row, (∃ a, w.resolve? e.1 = some a) ∧ ∃ v, Decimal.readNumber e.2 = .ok v := by
  induction row generalizing f with
  | nil => exact List.forall_mem_nil _
  | cons e row ih =>
    obtain ⟨a, v, ha, hv, hrow⟩ := fixBalances_cons_eq_ok_iff.mp h
    exact List.forall_mem_cons.mpr ⟨⟨⟨a, ha⟩, v, hv⟩, ih hrow⟩

theorem exists_of_mem_calls {row : List CallSetting} (h : fixCalls w row f = .ok f') :
    ∀ c ∈ row, ∃ a, w.resolve? c.address = some a := by
  induction row generalizing f with
  | nil => exact List.forall_mem_nil _
  | cons c row ih =>
    obtain ⟨a, ha, hrow⟩ := fixCalls_cons_eq_ok_iff.mp h
    exact List.forall_mem_cons.mpr ⟨⟨a, ha⟩, ih hrow⟩

theorem balance?_of_fixBalances (hw : w.BookCanonical) (ha : Canonical a) {row : Entries String}
    (h : fixBalances w row f = .ok f') :
    f'.balance? a = (row.filter fun e => w.resolve? e.1 = some a).getLast?.elim (f.balance? a)
      fun e => (Decimal.readNumber e.2).toOption := by
  induction row generalizing f with
  | nil =>
    cases h
    rfl
  | cons e row ih =>
    obtain ⟨b, v, hb, hv, hrow⟩ := fixBalances_cons_eq_ok_iff.mp h
    have hsame : Text.fold a = Text.fold b ↔ b = a := by
      rw [ha.fold_eq, (World.resolve?_canonical hw hb).fold_eq, eq_comm]
    rw [ih hrow, getLast?_filter_cons_elim, Fixtures.balance?_withBalance]
    simp only [hb, hv, hsame, Option.some.injEq, decide_eq_true_eq]
    rfl

theorem call?_of_fixCalls {row : List CallSetting} (h : fixCalls w row f = .ok f') (a m : String)
    (as : List String) :
    f'.call? a m as =
      (row.filter fun c => c.key? w = some (.of a m as)).getLast?.elim (f.call? a m as)
        fun c => some c.result := by
  induction row generalizing f with
  | nil =>
    cases h
    rfl
  | cons c row ih =>
    obtain ⟨b, hb, hrow⟩ := fixCalls_cons_eq_ok_iff.mp h
    rw [ih hrow, getLast?_filter_cons_elim, Fixtures.call?_withCall]
    simp only [CallSetting.key?, hb, Option.map_some, Option.some.injEq, decide_eq_true_eq]

theorem balance?_of_fixCalls {row : List CallSetting} (h : fixCalls w row f = .ok f') (a : String) :
    f'.balance? a = f.balance? a := by
  induction row generalizing f with
  | nil =>
    cases h
    rfl
  | cons c row ih =>
    obtain ⟨b, -, hrow⟩ := fixCalls_cons_eq_ok_iff.mp h
    rw [ih hrow]
    rfl

/-- What every registration keeps, a row of them keeps. -/
theorem enterAddresses_keeps {P : World → Prop} {row : Entries String}
    (hadd : ∀ {w w' : World} {name address : String},
      w.addAddress name address = .ok w' → P w → P w')
    (h : enterAddresses row w = .ok w') (hw : P w) : P w' := by
  induction row generalizing w with
  | nil =>
    cases h
    exact hw
  | cons e row ih =>
    rw [enterAddresses] at h
    cases hw₁ : w.addAddress e.1 e.2 with
    | error _ => simp [hw₁, bind, Except.bind] at h
    | ok w₁ =>
      rw [hw₁] at h
      exact ih h (hadd hw₁ hw)

/-- The parts that a world is put together from. -/
theorem exists_parts_of_toWorld {s : Settings} (h : s.toWorld = .ok w) :
    ∃ book f₁ f₂, enterAddresses s.addresses
        { World.offline s.network with mantissaDecimals := s.mantissaDecimals } = .ok book ∧
      fixBalances book s.balances .empty = .ok f₁ ∧ fixCalls book s.calls f₁ = .ok f₂ ∧
      w = { book with client := f₂.client, pinnedNow := s.now } := by
  simp only [toWorld, bind, Except.bind] at h
  split at h
  · cases h
  · rename_i book hbook
    split at h
    · cases h
    · rename_i f₁ hf₁
      split at h
      · cases h
      · rename_i f₂ hf₂
        cases h
        exact ⟨book, f₁, f₂, hbook, hf₁, hf₂, rfl⟩

/-- The address book of the world is the one that the balances and the calls are fixed with. -/
theorem exists_of_toWorld_eq_ok {s : Settings} (h : s.toWorld = .ok w) :
    ∃ book f₁ f₂, book.BookCanonical ∧ book.resolve? = w.resolve? ∧
      fixBalances book s.balances .empty = .ok f₁ ∧ fixCalls book s.calls f₁ = .ok f₂ ∧
      w.client = f₂.client := by
  obtain ⟨book, f₁, f₂, hbook, hf₁, hf₂, rfl⟩ := exists_parts_of_toWorld h
  have hcanonical : book.BookCanonical :=
    enterAddresses_keeps World.addAddress_bookCanonical hbook (by rintro k a ⟨⟩)
  exact ⟨book, f₁, f₂, hcanonical, rfl, hf₁, hf₂, rfl⟩

variable {s : Settings}

theorem balance_of_toWorld (h : s.toWorld = .ok w) {e : String × String} (he : e ∈ s.balances) :
    ∃ a last v, w.resolve? e.1 = some a ∧
      (s.balances.filter fun e' => w.resolve? e'.1 = some a).getLast? = some last ∧
      Decimal.readNumber last.2 = .ok v ∧ w.client.balance a = .ok v := by
  obtain ⟨book, f₁, f₂, hcanonical, hbook, hf₁, hf₂, hclient⟩ := exists_of_toWorld_eq_ok h
  rw [← hbook, hclient]
  obtain ⟨⟨a, ha⟩, -⟩ := exists_of_mem_balances hf₁ e he
  obtain ⟨last, hlast, hmem⟩ := getLast?_filter_of_mem
    (p := fun e' => book.resolve? e'.1 = some a) he (by simpa using ha)
  obtain ⟨-, v, hv⟩ := exists_of_mem_balances hf₁ last hmem
  have hbalance : f₂.balance? a = some v := by
    rw [balance?_of_fixCalls hf₂,
      balance?_of_fixBalances hcanonical (World.resolve?_canonical hcanonical ha) hf₁, hlast,
      Option.elim_some, hv]
    rfl
  exact ⟨a, last, v, ha, hlast, hv, by simp only [Fixtures.client, hbalance]⟩

theorem call_of_toWorld (h : s.toWorld = .ok w) {c : CallSetting} (hc : c ∈ s.calls)
    (hargs : ∀ arg ∈ c.args, (w.resolve? arg).isSome = true) :
    ∃ a as last, w.resolve? c.address = some a ∧ c.args.map w.resolve? = as.map some ∧
      (s.calls.filter fun c' => c'.SameIn w c).getLast? = some last ∧
      w.client.call a c.method as = .ok last.result := by
  obtain ⟨book, f₁, f₂, hcanonical, hbook, hf₁, hf₂, hclient⟩ := exists_of_toWorld_eq_ok h
  obtain ⟨a, ha⟩ := exists_of_mem_calls hf₂ c hc
  obtain ⟨as, has⟩ := World.exists_map_resolve?_eq hargs
  obtain ⟨last, hlast, -⟩ := getLast?_filter_of_mem (p := fun c' => c'.SameIn w c) hc
    (by simp [CallSetting.SameIn])
  have hbooked : c.args.map book.resolve? = as.map some := by rw [hbook, has]
  have hcanonicals : ∀ b ∈ as, Canonical b :=
    World.canonical_of_map_resolve?_eq hcanonical hbooked
  -- In the tables a setting has the key of the query exactly if it is about the same call.
  have hsame (c' : CallSetting) : c'.key? book = some (.of a c.method as) ↔ c'.SameIn w c := by
    rw [CallSetting.key?_eq_some_iff hcanonical c' (World.resolve?_canonical hcanonical ha)
      c.method hcanonicals, CallSetting.SameIn, ← hbook, ha, hbook, has]
  have hcall : f₂.call? a c.method as = some last.result := by
    rw [call?_of_fixCalls hf₂]
    simp only [hsame]
    rw [hlast, Option.elim_some]
  refine ⟨a, as, last, hbook ▸ ha, has, hlast, ?_⟩
  rw [hclient]
  simp only [Fixtures.client, hcall]

/-! ## Queries -/

/-- A world that answers queries with what settings say. Their balances stand in the order of the
names, their calls in the order they were written in. -/
structure ReadBackIn (s : Settings) (w : World) : Prop where
  /-- The last entry for the address that a name stands for has its balance. -/
  balance : ∀ name amount, (name, amount) ∈ s.balances → ∃ a last v,
    w.resolve? name = some a ∧
      (s.balances.filter fun e => w.resolve? e.1 = some a).getLast? = some last ∧
      Decimal.readNumber last.2 = .ok v ∧
      evaluate (.list [.atom "EtherBalance", .atom name]) w = (.ok (.number v), w)
  /-- The last entry for a call has its result: the number that it is, or else the cause of a
  failure that shows it. -/
  number : ∀ c ∈ s.calls, (∀ arg ∈ c.args, (w.resolve? arg).isSome = true) →
    ∀ command, (command, c.method, c.args.length) ∈ Erc20.numberQueries →
      ∃ last, (s.calls.filter fun c' => c'.SameIn w c).getLast? = some last ∧
        let e := Erc20.queryExpr command c.address c.args
        (∀ v, Decimal.readNumber last.result = .ok v → evaluate e w = (.ok (.number v), w)) ∧
        ∀ fault, Decimal.readNumber last.result = .error fault →
          evaluate e w = (.error (.rejected "Core" "Erc20" e ["Erc20 ...res"]
            (.client (.malformed c.method last.result))), w)
  text : ∀ c ∈ s.calls, (∀ arg ∈ c.args, (w.resolve? arg).isSome = true) →
    ∀ command, (command, c.method, c.args.length) ∈ Erc20.textQueries →
      ∃ last, (s.calls.filter fun c' => c'.SameIn w c).getLast? = some last ∧
        evaluate (Erc20.queryExpr command c.address c.args) w = (.ok (.text last.result), w)

/-- The world that settings describe answers with what they say, under every spelling of the names
that they say it under. -/
theorem toWorld_readBackIn (h : s.toWorld = .ok w) : s.ReadBackIn w where
  balance name amount hmem := by
    obtain ⟨a, last, v, ha, hlast, hv, hbalance⟩ := balance_of_toWorld h hmem
    refine ⟨a, last, v, ha, hlast, hv, ?_⟩
    rw [evaluate_etherBalance ha, hbalance]
    rfl
  number c hc hargs command hquery := by
    obtain ⟨a, as, last, ha, has, hlast, hcall⟩ := call_of_toWorld h hc hargs
    exact ⟨last, hlast, fun v => evaluate_numberQuery_of_ok ha has hcall hquery,
      fun fault => evaluate_numberQuery_of_error ha has hcall hquery⟩
  text c hc hargs command hquery := by
    obtain ⟨a, as, last, ha, has, hlast, hcall⟩ := call_of_toWorld h hc hargs
    exact ⟨last, hlast, evaluate_textQuery ha has hcall hquery⟩

/-- An account and a token, each under its alias and under its address in letters of either case.
The entries under other spellings are about the same questions, and the last of them counts. -/
theorem toWorld_readBackIn_aliases :
    let account := "0x000000000000000000000000000000000000bEEf"
    let token := "0X00000000000000000000000000000000000000aA"
    let s : Settings := { Settings.default with
      addresses := [("Geoff", account), ("ZRX", token)]
      balances := [(account, "1"), ("geoff", "2.50")]
      calls := [⟨"ZRX", "balanceOf", [" Geoff"], "7"⟩, ⟨token, "balanceOf", [account], "8e2"⟩,
        ⟨"zrx", "totalSupply", [], "many"⟩, ⟨"ZRX", "symbol", [], "Z"⟩] }
    let supply := Erc20.queryExpr "TotalSupply" "zrx" []
    ∃ w, s.toWorld = .ok w ∧
      evaluate (.list [.atom "EtherBalance", .atom account]) w = (.ok (.number ⟨250, 2⟩), w) ∧
      evaluate (Erc20.queryExpr "TokenBalance" "ZRX" [" Geoff"]) w = (.ok (.number ⟨8, -2⟩), w) ∧
      evaluate supply w = (.error (.rejected "Core" "Erc20" supply ["Erc20 ...res"]
        (.client (.malformed "totalSupply" "many"))), w) ∧
      evaluate (Erc20.queryExpr "Symbol" "ZRX" []) w = (.ok (.text "Z"), w) := by
  intro account token s supply
  have hfacts : (match s.toWorld with
    | .error _ => false
    | .ok w => decide (
      (s.balances.filter fun e => w.resolve? e.1 = w.resolve? account).getLast? =
        some ("geoff", "2.50") ∧
      (w.resolve? " Geoff").isSome = true ∧
      (s.calls.filter fun c => c.SameIn w ⟨"ZRX", "balanceOf", [" Geoff"], "7"⟩).getLast? =
        some ⟨token, "balanceOf", [account], "8e2"⟩ ∧
      (s.calls.filter fun c => c.SameIn w ⟨"zrx", "totalSupply", [], "many"⟩).getLast? =
        some ⟨"zrx", "totalSupply", [], "many"⟩ ∧
      (s.calls.filter fun c => c.SameIn w ⟨"ZRX", "symbol", [], "Z"⟩).getLast? =
        some ⟨"ZRX", "symbol", [], "Z"⟩)) = true := by
    decide +kernel
  cases hw : s.toWorld with
  | error f => simp [hw] at hfacts
  | ok w =>
    simp only [hw, decide_eq_true_eq] at hfacts
    obtain ⟨hbalance, hgeoff, howned, hsupply, hsymbol⟩ := hfacts
    have hread := toWorld_readBackIn hw
    obtain ⟨a, last, v, ha, hlast, hv, heval⟩ := hread.balance account "1" (by decide)
    rw [ha, hlast] at hbalance
    cases hbalance
    obtain ⟨c, hc, hnumber, -⟩ := hread.number ⟨"ZRX", "balanceOf", [" Geoff"], "7"⟩ (by decide)
      (by simpa using hgeoff) "TokenBalance" (by decide)
    rw [howned] at hc
    cases hc
    obtain ⟨c', hc', -, hmalformed⟩ := hread.number ⟨"zrx", "totalSupply", [], "many"⟩ (by decide)
      (by simp) "TotalSupply" (by decide)
    rw [hsupply] at hc'
    cases hc'
    obtain ⟨c'', hc'', htext⟩ := hread.text ⟨"ZRX", "symbol", [], "Z"⟩ (by decide) (by simp)
      "Symbol" (by decide)
    rw [hsymbol] at hc''
    cases hc''
    have hv' : v = ⟨250, 2⟩ := by
      have hsame : Decimal.readNumber "2.50" = .ok ⟨250, 2⟩ := by decide
      rw [hv] at hsame
      cases hsame
      rfl
    exact ⟨w, rfl, hv' ▸ heval, hnumber _ (by decide), hmalformed .notNumber (by decide), htext⟩

end Settings

end Scenario
