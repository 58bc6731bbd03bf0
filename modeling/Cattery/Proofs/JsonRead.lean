import Cattery.Proofs.JsonText

namespace Cattery

namespace Assoc

variable {α : Type} {key : String} {value : α} {map entries : List (String × α)}
  {entry : String × α}

theorem mem_insert (h : entry ∈ insert key value map) : entry = (key, value) ∨ entry ∈ map := by
  induction map with
  | nil => exact Or.inl (List.mem_singleton.mp h)
  | cons first rest ih =>
    rw [insert] at h
    split at h
    · exact List.mem_cons.mp h
    · split at h
      · exact (List.mem_cons.mp h).imp_right (List.mem_cons_of_mem first)
      · rcases List.mem_cons.mp h with rfl | h
        · exact Or.inr List.mem_cons_self
        · exact (ih h).imp_right (List.mem_cons_of_mem first)

theorem mem_of_mem_ofEntries (h : entry ∈ ofEntries entries) : entry ∈ entries := by
  induction entries using List.reverseRecOn with
  | nil => exact h
  | append_singleton entries last ih =>
    rw [ofEntries_concat] at h
    rw [List.mem_append, List.mem_singleton]
    exact (mem_insert h).symm.imp_left ih

theorem pairwise_insert (h : (map.map Prod.fst).Pairwise (· < ·)) :
    ((insert key value map).map Prod.fst).Pairwise (· < ·) := by
  induction map with
  | nil => exact List.pairwise_singleton _ _
  | cons first rest ih =>
    obtain ⟨k, v⟩ := first
    rw [List.map_cons, List.pairwise_cons] at h
    obtain ⟨hfirst, hrest⟩ := h
    rw [insert]
    by_cases hlt : key < k
    · -- the new key comes before the first one, and so before all of them
      rw [if_pos hlt, List.map_cons, List.map_cons, List.pairwise_cons, List.forall_mem_cons]
      refine ⟨⟨hlt, ?_⟩, List.pairwise_cons.mpr ⟨hfirst, hrest⟩⟩
      intro other hother
      exact String.lt_trans hlt (hfirst other hother)
    rw [if_neg hlt]
    by_cases hkey : key = k
    · subst hkey
      rw [if_pos rfl, List.map_cons, List.pairwise_cons]
      exact ⟨hfirst, hrest⟩
    · have hafter : k < key := by
        by_contra hnot
        exact hkey (String.le_antisymm (String.not_lt.mp hnot) (String.not_lt.mp hlt))
      rw [if_neg hkey, List.map_cons, List.pairwise_cons]
      refine ⟨?_, ih hrest⟩
      intro other hother
      obtain ⟨entry, hentry, rfl⟩ := List.mem_map.mp hother
      rcases mem_insert hentry with rfl | hentry
      · exact hafter
      · exact hfirst entry.1 (List.mem_map_of_mem hentry)

/-- A map made from entries has ascending keys. -/
theorem pairwise_ofEntries (entries : List (String × α)) :
    ((ofEntries entries).map Prod.fst).Pairwise (· < ·) := by
  induction entries using List.reverseRecOn with
  | nil => exact List.Pairwise.nil
  | append_singleton entries last ih =>
    rw [ofEntries_concat]
    exact pairwise_insert ih

end Assoc

namespace Json

open Cattery.Tree

structure Fits (limit : Nat) (value : Json) : Prop where
  depth_le : value.depth ≤ limit
  all_ascending : value.all ascending = true

section Fits

variable {limit : Nat} {items : List Json} {members : List (String × Json)}

theorem fits_array_iff :
    Fits (limit + 1) (.array items) ↔ ∀ item ∈ items, Fits limit item := by
  constructor
  · rintro ⟨hdepth, hall⟩ item hitem
    rw [depth, Nat.add_le_add_iff_right, itemsDepth_le_iff] at hdepth
    rw [all, Bool.and_eq_true, allItems_iff] at hall
    exact ⟨hdepth item hitem, hall.2 item hitem⟩
  · intro h
    constructor
    · rw [depth, Nat.add_le_add_iff_right, itemsDepth_le_iff]
      exact fun item hitem => (h item hitem).depth_le
    · rw [all, Bool.and_eq_true, allItems_iff]
      exact ⟨rfl, fun item hitem => (h item hitem).all_ascending⟩

theorem fits_object_iff :
    Fits (limit + 1) (.object members) ↔
      (members.map Prod.fst).Pairwise (· < ·) ∧ ∀ entry ∈ members, Fits limit entry.2 := by
  constructor
  · rintro ⟨hdepth, hall⟩
    rw [depth, Nat.add_le_add_iff_right, membersDepth_le_iff] at hdepth
    rw [all, Bool.and_eq_true, allMembers_iff, ascending, decide_eq_true_eq] at hall
    exact ⟨hall.1, fun entry hentry => ⟨hdepth entry hentry, hall.2 entry hentry⟩⟩
  · rintro ⟨hkeys, h⟩
    constructor
    · rw [depth, Nat.add_le_add_iff_right, membersDepth_le_iff]
      exact fun entry hentry => (h entry hentry).depth_le
    · rw [all, Bool.and_eq_true, allMembers_iff, ascending, decide_eq_true_eq]
      exact ⟨hkeys, fun entry hentry => (h entry hentry).all_ascending⟩

end Fits

mutual

/-- The value of a tree fits the limit that the tree was read with. -/
theorem fits_of_value?_eq_some : (tree : Tree) → {limit : Nat} → {value : Json} →
    tree.value? limit = some value → Fits limit value
  | .null, limit, value, h => by
    rw [value?] at h
    obtain rfl := Option.some_inj.mp h
    exact ⟨Nat.zero_le limit, rfl⟩
  | .bool b, limit, value, h => by
    rw [value?] at h
    obtain rfl := Option.some_inj.mp h
    exact ⟨Nat.zero_le limit, rfl⟩
  | .numeral x, limit, value, h => by
    rw [value?] at h
    obtain ⟨number, -, rfl⟩ := Option.map_eq_some_iff.mp h
    exact ⟨Nat.zero_le limit, rfl⟩
  | .string marks, limit, value, h => by
    rw [value?] at h
    obtain ⟨text, -, rfl⟩ := Option.map_eq_some_iff.mp h
    exact ⟨Nat.zero_le limit, rfl⟩
  | .array trees, limit, value, h => by
    rw [value?] at h
    split at h
    · cases h
    · rename_i hlimit
      obtain ⟨less, rfl⟩ := Nat.exists_eq_succ_of_ne_zero hlimit
      obtain ⟨items, hitems, rfl⟩ := Option.map_eq_some_iff.mp h
      exact fits_array_iff.mpr (fits_of_itemValues?_eq_some trees hitems)
  | .object trees, limit, value, h => by
    rw [value?] at h
    split at h
    · cases h
    · rename_i hlimit
      obtain ⟨less, rfl⟩ := Nat.exists_eq_succ_of_ne_zero hlimit
      -- the map of the members holds none that was not read
      obtain ⟨members, hmembers, rfl⟩ := Option.map_eq_some_iff.mp h
      have hfits := fits_of_memberValues?_eq_some trees hmembers
      exact fits_object_iff.mpr ⟨Assoc.pairwise_ofEntries members,
        fun entry hentry => hfits entry (Assoc.mem_of_mem_ofEntries hentry)⟩

theorem fits_of_itemValues?_eq_some : (trees : List Tree) → {limit : Nat} → {items : List Json} →
    itemValues? limit trees = some items → ∀ item ∈ items, Fits limit item
  | [], limit, items, h => by
    rw [itemValues?] at h
    obtain rfl := Option.some_inj.mp h
    simp
  | tree :: trees, limit, items, h => by
    rw [itemValues?] at h
    split at h
    · rename_i first rest hfirst hrest
      obtain rfl := Option.some_inj.mp h
      exact List.forall_mem_cons.mpr
        ⟨fits_of_value?_eq_some tree hfirst, fits_of_itemValues?_eq_some trees hrest⟩
    · cases h

theorem fits_of_memberValues?_eq_some : (trees : List (List Mark × Tree)) → {limit : Nat} →
    {members : List (String × Json)} → memberValues? limit trees = some members →
    ∀ entry ∈ members, Fits limit entry.2
  | [], limit, members, h => by
    rw [memberValues?] at h
    obtain rfl := Option.some_inj.mp h
    simp
  | (marks, tree) :: trees, limit, members, h => by
    rw [memberValues?] at h
    split at h
    · rename_i key first rest _ hfirst hrest
      obtain rfl := Option.some_inj.mp h
      exact List.forall_mem_cons.mpr
        ⟨fits_of_value?_eq_some tree hfirst, fits_of_memberValues?_eq_some trees hrest⟩
    · cases h

end

/-- Whatever is read from a text fits the limit of the reader. -/
theorem fits_of_parse?_eq_some {text : String} {value : Json} (h : parse? text = some value) :
    Fits deepest value := by
  obtain ⟨tree, -, hvalue⟩ := Option.bind_eq_some_iff.mp h
  exact fits_of_value?_eq_some tree hvalue

/-- A value that fits the limit of the reader is read back from its indented text. -/
theorem Fits.parse?_indented {value : Json} (h : Fits deepest value)
    (hint : value.all notDouble = true) : parse? value.indented = some value :=
  Json.parse?_indented h.depth_le hint h.all_ascending

end Json

end Cattery
