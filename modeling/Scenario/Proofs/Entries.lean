import Mathlib.Data.List.Forall2
import Mathlib.Data.List.Sort
import Scenario.Entries

/-!
# Entries of distinct keys

Entries under distinct keys are kept as they are: `ofList_perm` says that putting them one
after the other only changes their order, `get?_ofList` that each is then found under its key,
and `get?_erase_of_ne` that taking one out leaves the others. Of several values that are put under
one key the last is found (`get?_ofList_append`).

In a row in key order (`Ascending`) the keys are distinct, and the order is that of the keys
alone. So two such rows can be compared by looking the entries of one up in the other
(`forall₂_iff_get?`). Rows that are made by putting entries are in key order
(`ascending_ofList`), so the order in which entries of distinct keys are put makes no difference
(`ofList_eq_of_perm`).
-/

namespace Scenario.Entries

variable {α β : Type}

theorem put_perm {k : String} {v : α} {es : Entries α} (h : k ∉ es.map Prod.fst) :
    (put k v es).Perm ((k, v) :: es) := by
  induction es with
  | nil => rfl
  | cons e es ih =>
    obtain ⟨k', v'⟩ := e
    simp only [List.map_cons, List.mem_cons, not_or] at h
    rw [put, if_neg h.1]
    split
    · rfl
    · exact ((ih h.2).cons _).trans (.swap _ _ _)

theorem foldl_put_perm {xs es : Entries α} (h : ((xs ++ es).map Prod.fst).Nodup) :
    (xs.foldl (fun es x => put x.1 x.2 es) es).Perm (xs ++ es) := by
  induction xs generalizing es with
  | nil => rfl
  | cons x xs ih =>
    have hx : x.1 ∉ (xs ++ es).map Prod.fst := (List.nodup_cons.mp h).1
    have hput : (put x.1 x.2 es).Perm (x :: es) :=
      put_perm fun hm => hx (by rw [List.map_append]; exact List.mem_append_right _ hm)
    have hall : (xs ++ put x.1 x.2 es).Perm (x :: (xs ++ es)) :=
      (hput.append_left xs).trans List.perm_middle
    exact (ih ((hall.map Prod.fst).nodup_iff.mpr h)).trans hall

/-- Entries of distinct keys, put one after the other, are all there and nothing else is. -/
theorem ofList_perm {xs : Entries α} (h : (xs.map Prod.fst).Nodup) : (ofList xs).Perm xs := by
  rw [← List.append_nil xs] at h
  simpa only [ofList, List.append_nil] using foldl_put_perm h

theorem get?_of_mem {k : String} {v : α} {es : Entries α} (h : (es.map Prod.fst).Nodup)
    (hm : (k, v) ∈ es) : es.get? k = some v := by
  induction es with
  | nil => cases hm
  | cons e es ih =>
    rw [List.map_cons, List.nodup_cons] at h
    rcases List.mem_cons.mp hm with rfl | hm
    · simp [get?]
    · have hne : k ≠ e.1 := by
        rintro rfl
        exact h.1 (List.mem_map.mpr ⟨_, hm, rfl⟩)
      rw [get?, if_neg hne]
      exact ih h.2 hm

theorem get?_ofList {k : String} {v : α} {xs : Entries α} (h : (xs.map Prod.fst).Nodup)
    (hm : (k, v) ∈ xs) : (ofList xs).get? k = some v := by
  have hperm := ofList_perm h
  exact get?_of_mem ((hperm.map Prod.fst).nodup_iff.mpr h) (hperm.mem_iff.mpr hm)

theorem mem_put {k : String} {v : α} {es : Entries α} {e : String × α}
    (h : e ∈ put k v es) : e = (k, v) ∨ e ∈ es := by
  induction es with
  | nil => exact .inl (List.mem_singleton.mp h)
  | cons x es ih =>
    rw [put] at h
    split at h
    · rcases List.mem_cons.mp h with rfl | h
      · exact .inl rfl
      · exact .inr (.tail _ h)
    · split at h
      · rcases List.mem_cons.mp h with rfl | h
        · exact .inl rfl
        · exact .inr h
      · rcases List.mem_cons.mp h with rfl | h
        · exact .inr (.head _)
        · exact (ih h).imp_right (.tail _)

theorem mem_keys_put {k k' : String} {v : α} {es : Entries α} :
    k' ∈ (put k v es).map Prod.fst ↔ k' = k ∨ k' ∈ es.map Prod.fst := by
  induction es with
  | nil => simp [put]
  | cons e es ih =>
    rw [put]
    split
    · rename_i h
      simp [h]
    · split
      · simp
      · rw [List.map_cons, List.mem_cons, ih, List.map_cons, List.mem_cons]
        exact or_left_comm

theorem mem_keys_foldl_put {k : String} {xs es : Entries α} :
    k ∈ (xs.foldl (fun es x => put x.1 x.2 es) es).map Prod.fst ↔
      k ∈ xs.map Prod.fst ∨ k ∈ es.map Prod.fst := by
  induction xs generalizing es with
  | nil => simp
  | cons x xs ih =>
    rw [List.foldl_cons, ih, mem_keys_put, List.map_cons, List.mem_cons]
    exact or_left_comm.trans or_assoc.symm

theorem mem_keys_ofList {k : String} {xs : Entries α} :
    k ∈ (ofList xs).map Prod.fst ↔ k ∈ xs.map Prod.fst := by
  rw [ofList, mem_keys_foldl_put]
  simp

theorem get?_isSome_iff {k : String} {es : Entries α} :
    (es.get? k).isSome = true ↔ k ∈ es.map Prod.fst := by
  induction es with
  | nil => simp [get?]
  | cons e es ih =>
    rw [get?, List.map_cons, List.mem_cons, ← ih]
    split
    · rename_i h
      simp [h]
    · rename_i h
      simp [h]

/-- Of the values that are put under a key the last one is found. -/
theorem get?_ofList_append {k : String} {v : α} {xs ys : Entries α} (h : k ∉ ys.map Prod.fst) :
    (ofList (xs ++ (k, v) :: ys)).get? k = some v := by
  rw [ofList, List.foldl_append, List.foldl_cons]
  -- what is put after it has other keys
  refine List.foldlRecOn (motive := fun es => get? k es = some v) ys _ ?_ fun es hes x hx => ?_
  · rw [get?_put, if_pos rfl]
  · have hne : k ≠ x.1 := by
      rintro rfl
      exact h (List.mem_map_of_mem hx)
    rw [get?_put, if_neg hne, hes]

theorem get?_erase_of_ne {k k' : String} (h : k' ≠ k) (es : Entries α) :
    get? k' (erase k es) = get? k' es := by
  induction es with
  | nil => rfl
  | cons e es ih =>
    rw [erase]
    split
    · rename_i hk
      rw [get?, if_neg (hk ▸ h)]
    · rw [get?, get?, ih]

/-! ## Key order -/

/-- Whether the keys of a row ascend. -/
def Ascending (es : Entries α) : Prop :=
  (es.map Prod.fst).Pairwise (· < ·)

instance (es : Entries α) : Decidable es.Ascending :=
  inferInstanceAs (Decidable ((es.map Prod.fst).Pairwise (· < ·)))

theorem Ascending.nodup {es : Entries α} (h : es.Ascending) : (es.map Prod.fst).Nodup := by
  refine List.Pairwise.imp ?_ h
  rintro k _ hlt rfl
  exact String.lt_irrefl k hlt

theorem Ascending.put {es : Entries α} (h : es.Ascending) (k : String) (v : α) :
    (put k v es).Ascending := by
  induction es with
  | nil => exact List.pairwise_singleton _ _
  | cons e es ih =>
    obtain ⟨hhead, htail⟩ := List.pairwise_cons.mp h
    rw [Entries.put]
    split
    · rename_i heq
      exact heq ▸ h
    · split
      · rename_i hlt
        refine List.pairwise_cons.mpr ⟨fun x hx => ?_, h⟩
        rcases List.mem_cons.mp hx with rfl | hx
        · exact hlt
        · exact String.lt_trans hlt (hhead x hx)
      · rename_i hne hlt
        refine List.pairwise_cons.mpr ⟨fun x hx => ?_, ih htail⟩
        rcases mem_keys_put.mp hx with rfl | hx
        · -- the new key is neither this one nor before it
          by_contra hge
          exact hne (String.le_antisymm (String.not_lt.mp hge) (String.not_lt.mp hlt))
        · exact hhead x hx

theorem ascending_ofList (xs : Entries α) : (ofList xs).Ascending :=
  List.foldlRecOn xs _ List.Pairwise.nil fun _ h x _ => h.put x.1 x.2

/-- The order in which values are put under distinct keys makes no difference. -/
theorem ofList_eq_of_perm {xs ys : Entries α} (hperm : xs.Perm ys)
    (h : (xs.map Prod.fst).Nodup) : ofList xs = ofList ys := by
  have hy : (ys.map Prod.fst).Nodup := (hperm.map Prod.fst).nodup_iff.mp h
  have hrows : (ofList xs).Perm (ofList ys) :=
    (ofList_perm h).trans (hperm.trans (ofList_perm hy).symm)
  have hx₁ : (ofList xs).Pairwise fun x y => x.1 < y.1 :=
    List.pairwise_map.mp (ascending_ofList xs)
  have hy₁ : (ofList ys).Pairwise fun x y => x.1 < y.1 :=
    List.pairwise_map.mp (ascending_ofList ys)
  exact hrows.eq_of_pairwise (fun _ _ _ _ hab hba => absurd hba (String.lt_asymm hab)) hx₁ hy₁

/-- Of two rows in key order that are equally long, one cannot have keys besides the other's. -/
theorem Ascending.keys_eq {xs : Entries α} {ys : Entries β} (hx : xs.Ascending)
    (hy : ys.Ascending) (hlen : ys.length ≤ xs.length)
    (hsub : xs.map Prod.fst ⊆ ys.map Prod.fst) : xs.map Prod.fst = ys.map Prod.fst := by
  have hperm : (xs.map Prod.fst).Perm (ys.map Prod.fst) :=
    (List.subperm_of_subset hx.nodup hsub).perm_of_length_le (by simpa using hlen)
  exact hperm.eq_of_pairwise (fun _ _ _ _ hab hba => absurd hba (String.lt_asymm hab)) hx hy

theorem mem_of_get? {k : String} {v : α} {es : Entries α} (h : es.get? k = some v) :
    (k, v) ∈ es := by
  induction es with
  | nil => cases h
  | cons e es ih =>
    rw [get?] at h
    split at h
    · rename_i hk
      cases h
      rw [hk]
      exact .head _
    · exact .tail _ (ih h)

/-- Two rows in key order go together key by key if they are equally long and every entry of the
first finds its like under its key in the second. -/
theorem forall₂_iff_get? {R : α → β → Prop} {xs : Entries α} {ys : Entries β}
    (hx : xs.Ascending) (hy : ys.Ascending) :
    List.Forall₂ (fun x y => x.1 = y.1 ∧ R x.2 y.2) xs ys ↔
      xs.length = ys.length ∧ ∀ x ∈ xs, ∃ w, ys.get? x.1 = some w ∧ R x.2 w := by
  rw [List.forall₂_iff_get]
  refine and_congr_right fun hlen => ⟨fun h x hxs => ?_, fun h i hi hi' => ?_⟩
  · obtain ⟨i, rfl⟩ := List.get_of_mem hxs
    obtain ⟨hkey, hR⟩ := h i i.2 (hlen ▸ i.2)
    exact ⟨_, get?_of_mem hy.nodup (hkey ▸ List.get_mem _ _), hR⟩
  · have hkeys : xs.map Prod.fst = ys.map Prod.fst := by
      refine hx.keys_eq hy hlen.ge fun k hk => ?_
      obtain ⟨x, hxs, rfl⟩ := List.mem_map.mp hk
      obtain ⟨w, hw, -⟩ := h x hxs
      exact List.mem_map.mpr ⟨_, mem_of_get? hw, rfl⟩
    have hkey : (xs.get ⟨i, hi⟩).1 = (ys.get ⟨i, hi'⟩).1 := by
      have hi? := congrArg (·[i]?) hkeys
      simpa [hi, hi'] using hi?
    obtain ⟨w, hw, hR⟩ := h _ (List.get_mem xs ⟨i, hi⟩)
    rw [hkey, get?_of_mem hy.nodup (List.get_mem ys ⟨i, hi'⟩)] at hw
    cases hw
    exact ⟨hkey, hR⟩

end Scenario.Entries
