import Cattery.Proofs.JsonLayout
import Cattery.Proofs.JsonScalars
import Mathlib.Data.List.Induction

namespace Cattery

/-! ## The shape of values -/

namespace Json

mutual

def depth : Json → Nat
  | .array items => itemsDepth items + 1
  | .object members => membersDepth members + 1
  | _ => 0

def itemsDepth : List Json → Nat
  | [] => 0
  | item :: rest => max (depth item) (itemsDepth rest)

def membersDepth : List (String × Json) → Nat
  | [] => 0
  | (_, value) :: rest => max (depth value) (membersDepth rest)

end

mutual

def all (test : Json → Bool) : Json → Bool
  | .array items => test (.array items) && allItems test items
  | .object members => test (.object members) && allMembers test members
  | value => test value

def allItems (test : Json → Bool) : List Json → Bool
  | [] => true
  | item :: rest => all test item && allItems test rest

def allMembers (test : Json → Bool) : List (String × Json) → Bool
  | [] => true
  | (_, value) :: rest => all test value && allMembers test rest

end

theorem allMembers_iff (test : Json → Bool) (members : List (String × Json)) :
    allMembers test members = true ↔ ∀ entry ∈ members, entry.2.all test = true := by
  induction members with
  | nil => simp [allMembers]
  | cons entry rest ih => simp [allMembers, ih]

theorem allItems_iff (test : Json → Bool) (items : List Json) :
    allItems test items = true ↔ ∀ item ∈ items, item.all test = true := by
  induction items with
  | nil => simp [allItems]
  | cons item rest ih => simp [allItems, ih]

theorem itemsDepth_le_iff (items : List Json) (limit : Nat) :
    itemsDepth items ≤ limit ↔ ∀ item ∈ items, item.depth ≤ limit := by
  induction items with
  | nil => simp [itemsDepth]
  | cons item rest ih => rw [itemsDepth, Nat.max_le, ih, List.forall_mem_cons]

theorem membersDepth_le_iff (members : List (String × Json)) (limit : Nat) :
    membersDepth members ≤ limit ↔ ∀ entry ∈ members, entry.2.depth ≤ limit := by
  induction members with
  | nil => simp [membersDepth]
  | cons entry rest ih => rw [membersDepth, Nat.max_le, ih, List.forall_mem_cons]

def notDouble : Json → Bool
  | .number (.double _) => false
  | _ => true

def ascending : Json → Bool
  | .object members => (members.map Prod.fst).Pairwise (· < ·)
  | _ => true

end Json

/-! ## Reading one level -/

namespace Tree

variable {fuel : Nat} {space text rest after : List Char}

/-! White space before a value, an element or a member is skipped. -/

theorem skipSpace_append (hspace : ∀ c ∈ space, isSpace c = true) (text : List Char) :
    skipSpace (space ++ text) = skipSpace text :=
  List.dropWhile_append_of_pos hspace

theorem readValue_append (hspace : ∀ c ∈ space, isSpace c = true) (text : List Char) :
    readValue fuel (space ++ text) = readValue fuel text := by
  cases fuel with
  | zero => rfl
  | succ fuel => rw [readValue, readValue, skipSpace_append hspace]

theorem readItems_append (hspace : ∀ c ∈ space, isSpace c = true) (text : List Char) :
    readItems fuel (space ++ text) = readItems fuel text := by
  cases fuel with
  | zero => rfl
  | succ fuel => rw [readItems, readItems, readValue_append hspace]

theorem readMembers_append (hspace : ∀ c ∈ space, isSpace c = true) (text : List Char) :
    readMembers fuel (space ++ text) = readMembers fuel text := by
  cases fuel with
  | zero => rfl
  | succ fuel => rw [readMembers, readMembers, skipSpace_append hspace]

theorem skipSpace_cons {c : Char} (h : isSpace c = false) (rest : List Char) :
    skipSpace (c :: rest) = c :: rest :=
  List.dropWhile_cons_of_neg (by simp [h])

theorem readValue_string {marks : List Mark} (h : readMarks rest = some (marks, after)) :
    readValue (fuel + 1) ('"' :: rest) = some (.string marks, after) := by
  rw [readValue, skipSpace_cons rfl]
  simp only [h, Option.map_some]

theorem readValue_array (hne : ∀ after, skipSpace rest ≠ ']' :: after) :
    readValue (fuel + 1) ('[' :: rest) =
      (readItems fuel rest).map fun (items, after) => (.array items, after) := by
  rw [readValue, skipSpace_cons rfl]
  simp only

theorem readValue_object (hne : ∀ after, skipSpace rest ≠ '\x7d' :: after) :
    readValue (fuel + 1) ('\x7b' :: rest) =
      (readMembers fuel rest).map fun (members, after) => (.object members, after) := by
  rw [readValue, skipSpace_cons rfl]
  simp only

theorem readValue_numeral {c : Char} (hc : c = '-' ∨ c.isDigit = true) (rest : List Char) :
    readValue (fuel + 1) (c :: rest) =
      (readNumeral? (c :: rest)).map fun (value, after) => (.numeral value, after) := by
  have hne {d : Char} (hd : ¬ (d = '-' ∨ d.isDigit = true)) : c ≠ d := by
    rintro rfl
    exact hd hc
  have hspace : isSpace c = false := by
    simp [isSpace, hne (d := ' ') (by decide), hne (d := '\n') (by decide),
      hne (d := '\r') (by decide), hne (d := '\t') (by decide)]
  rw [readValue, skipSpace_cons hspace]
  -- no other kind of value starts with a sign or a digit
  split
  case h_7 => rfl
  all_goals
    rename_i h
    exact absurd (List.cons.inj h).1 (hne (by decide))

theorem readItems_last {item : Tree} (hspace : ∀ c ∈ space, isSpace c = true)
    (h : readValue fuel text = some (item, space ++ ']' :: after)) :
    readItems (fuel + 1) text = some ([item], after) := by
  rw [readItems, h]
  simp only [skipSpace_append hspace, skipSpace_cons (c := ']') rfl]

theorem readItems_more {item : Tree} (hspace : ∀ c ∈ space, isSpace c = true)
    (h : readValue fuel text = some (item, space ++ ',' :: rest)) :
    readItems (fuel + 1) text =
      (readItems fuel rest).map fun (items, after) => (item :: items, after) := by
  rw [readItems, h]
  simp only [skipSpace_append hspace, skipSpace_cons (c := ',') rfl]

variable {marks : List Mark} {value : Tree} {gap inner : List Char}

theorem readMembers_last (hgap : ∀ c ∈ gap, isSpace c = true)
    (hspace : ∀ c ∈ space, isSpace c = true)
    (hkey : readMarks text = some (marks, gap ++ ':' :: inner))
    (hvalue : readValue fuel inner = some (value, space ++ '\x7d' :: after)) :
    readMembers (fuel + 1) ('"' :: text) = some ([(marks, value)], after) := by
  rw [readMembers, skipSpace_cons rfl]
  simp only [hkey, skipSpace_append hgap, skipSpace_cons (c := ':') rfl, hvalue,
    skipSpace_append hspace, skipSpace_cons (c := '\x7d') rfl]

theorem readMembers_more (hgap : ∀ c ∈ gap, isSpace c = true)
    (hspace : ∀ c ∈ space, isSpace c = true)
    (hkey : readMarks text = some (marks, gap ++ ':' :: inner))
    (hvalue : readValue fuel inner = some (value, space ++ ',' :: rest)) :
    readMembers (fuel + 1) ('"' :: text) =
      (readMembers fuel rest).map fun (members, after) => ((marks, value) :: members, after) := by
  rw [readMembers, skipSpace_cons rfl]
  simp only [hkey, skipSpace_append hgap, skipSpace_cons (c := ':') rfl, hvalue,
    skipSpace_append hspace, skipSpace_cons (c := ',') rfl]

end Tree

/-! ## Members -/

namespace Assoc

variable {α : Type} {key : String} {value : α}

theorem insert_last {map : List (String × α)} (h : ∀ k ∈ map.map Prod.fst, k < key) :
    insert key value map = map ++ [(key, value)] := by
  induction map with
  | nil => rfl
  | cons entry rest ih =>
    obtain ⟨k, v⟩ := entry
    have hlt : k < key := h k List.mem_cons_self
    have hne : key ≠ k := by
      rintro rfl
      exact String.lt_irrefl key hlt
    have hrest : insert key value rest = rest ++ [(key, value)] :=
      ih fun k' hk' => h k' (List.mem_cons_of_mem k hk')
    rw [insert, if_neg (String.lt_asymm hlt), if_neg hne, hrest, List.cons_append]

theorem ofEntries_concat (entries : List (String × α)) (entry : String × α) :
    ofEntries (entries ++ [entry]) = insert entry.1 entry.2 (ofEntries entries) := by
  rw [ofEntries, ofEntries, List.foldl_append]
  rfl

/-- Entries in ascending order are a map already. -/
theorem ofEntries_eq_self {entries : List (String × α)}
    (h : (entries.map Prod.fst).Pairwise (· < ·)) : ofEntries entries = entries := by
  induction entries using List.reverseRecOn with
  | nil => rfl
  | append_singleton entries entry ih =>
    rw [List.map_append, List.pairwise_append] at h
    have hbelow : ∀ k ∈ entries.map Prod.fst, k < entry.1 := by
      intro k hk
      exact h.2.2 k hk entry.1 List.mem_cons_self
    rw [ofEntries_concat, ih h.1, insert_last hbelow]

theorem lookup_cons_eq_ite (k : String) (entry : String × α) (rest : List (String × α)) :
    List.lookup k (entry :: rest) = if k = entry.1 then some entry.2 else rest.lookup k := by
  rw [List.lookup_cons]
  by_cases h : k = entry.1
  · rw [if_pos h, beq_iff_eq.mpr h]
  · rw [if_neg h, beq_eq_false_iff_ne.mpr h]

theorem lookup_insert (k : String) (map : List (String × α)) :
    (insert key value map).lookup k = if k = key then some value else map.lookup k := by
  induction map with
  | nil => rw [insert, lookup_cons_eq_ite]
  | cons entry rest ih =>
    obtain ⟨k', v⟩ := entry
    rw [insert, lookup_cons_eq_ite]
    by_cases hlt : key < k'
    · rw [if_pos hlt, lookup_cons_eq_ite, lookup_cons_eq_ite]
    by_cases hkey : key = k'
    · subst hkey
      rw [if_neg hlt, if_pos rfl, lookup_cons_eq_ite]
      by_cases h : k = key <;> simp [h]
    · -- the entry passed over has another key
      rw [if_neg hlt, if_neg hkey, lookup_cons_eq_ite, ih]
      by_cases h : k = key
      · have hk : ¬ k = k' := by rwa [h]
        rw [if_neg hk, if_pos h, if_pos h]
      · rw [if_neg h, if_neg h]

/-- The last entry of a key counts. -/
theorem lookup_ofEntries (k : String) (entries : List (String × α)) :
    (ofEntries entries).lookup k = entries.reverse.lookup k := by
  induction entries using List.reverseRecOn with
  | nil => rfl
  | append_singleton entries entry ih =>
    rw [ofEntries_concat, lookup_insert, ih, List.reverse_append, List.reverse_singleton,
      List.singleton_append, lookup_cons_eq_ite]

/-- No entry is lost where no key comes twice. -/
theorem lookup_ofEntries_of_mem {entries : List (String × α)} (hnodup : (entries.map Prod.fst).Nodup)
    (h : (key, value) ∈ entries) : (ofEntries entries).lookup key = some value := by
  obtain ⟨before, after, rfl⟩ := List.append_of_mem h
  rw [lookup_ofEntries, List.lookup_eq_some_iff]
  refine ⟨after.reverse, before.reverse, by simp, ?_⟩
  -- the same key again would be a second one
  intro entry hentry
  rw [List.map_append, List.map_cons, List.nodup_append, List.nodup_cons] at hnodup
  have hkey : entry.1 ∈ after.map Prod.fst :=
    List.mem_map_of_mem (List.mem_reverse.mp hentry)
  have hne : key ≠ entry.1 := by
    rintro rfl
    exact hnodup.2.1.1 hkey
  simpa using hne

end Assoc

/-! ## The tree of a value -/

namespace Json

open Cattery.Tree

/-- A tree that every layout of a value is read as, and that has this value. -/
structure IsTree (value : Json) (tree : Tree) : Prop where
  start (layout : Layout) (level : Nat) :
    ∃ c text, laidChars layout level value = c :: text ∧ isSpace c = false ∧ c ≠ ']'
  -- every character is worth two levels: that of a value and that of the list it stands in
  read {layout : Layout} {level fuel : Nat} {rest : List Char}
    (hfuel : 2 * (laidChars layout level value).length ≤ fuel + 1) (hrest : Ends rest) :
    readValue fuel (laidChars layout level value ++ rest) = some (tree, rest)
  meaning {limit : Nat} (hdepth : value.depth ≤ limit) (hall : value.all ascending = true) :
    tree.value? limit = some value

structure IsItems (items : List Json) (trees : List Tree) : Prop where
  start (hne : items ≠ []) (layout : Layout) (level : Nat) :
    ∃ c text, laidItems layout level items = c :: text ∧ isSpace c = false ∧ c ≠ ']'
  read {layout : Layout} {level fuel : Nat} {space rest : List Char} (hne : items ≠ [])
    (hfuel : 2 * (laidItems layout level items).length ≤ fuel)
    (hspace : ∀ c ∈ space, isSpace c = true) :
    readItems fuel (laidItems layout level items ++ (space ++ ']' :: rest)) = some (trees, rest)
  meaning {limit : Nat} (hdepth : itemsDepth items ≤ limit)
    (hall : allItems ascending items = true) : itemValues? limit trees = some items

structure IsMembers (members : List (String × Json)) (trees : List (List Mark × Tree)) : Prop where
  read {layout : Layout} {level fuel : Nat} {space rest : List Char} (hne : members ≠ [])
    (hfuel : 2 * (laidMembers layout level members).length ≤ fuel)
    (hspace : ∀ c ∈ space, isSpace c = true) :
    readMembers fuel (laidMembers layout level members ++ (space ++ '\x7d' :: rest)) =
      some (trees, rest)
  meaning {limit : Nat} (hdepth : membersDepth members ≤ limit)
    (hall : allMembers ascending members = true) : memberValues? limit trees = some members

/-- Fuel for the first character, and enough for what comes after it. -/
theorem exists_fuel {fuel : Nat} {text : List Char} {c : Char}
    (h : 2 * (c :: text).length ≤ fuel + 1) : ∃ less, fuel = less + 1 ∧ 2 * text.length ≤ less := by
  rw [List.length_cons] at h
  exact ⟨fuel - 1, by omega, by omega⟩

theorem isTree_null : IsTree .null .null where
  start layout level := ⟨'n', ['u', 'l', 'l'], rfl, rfl, by decide⟩
  read {layout level fuel rest} hfuel hrest := by
    obtain ⟨fuel, rfl, -⟩ := exists_fuel hfuel
    rw [laidChars, List.cons_append, readValue, skipSpace_cons rfl]
    rfl
  meaning hdepth hall := by rw [value?]

theorem isTree_bool (b : Bool) : IsTree (.bool b) (.bool b) where
  start layout level := by
    cases b with
    | false => exact ⟨'f', ['a', 'l', 's', 'e'], rfl, rfl, by decide⟩
    | true => exact ⟨'t', ['r', 'u', 'e'], rfl, rfl, by decide⟩
  read {layout level fuel rest} hfuel hrest := by
    cases b with
    | false =>
      obtain ⟨fuel, rfl, -⟩ := exists_fuel hfuel
      rw [laidChars, List.cons_append, readValue, skipSpace_cons rfl]
      rfl
    | true =>
      obtain ⟨fuel, rfl, -⟩ := exists_fuel hfuel
      rw [laidChars, List.cons_append, readValue, skipSpace_cons rfl]
      rfl
  meaning hdepth hall := by rw [value?]

theorem exists_toString_int_cons (value : Int) :
    ∃ c text, (toString value).toList = c :: text ∧ (c = '-' ∨ c.isDigit = true) := by
  obtain ⟨d, digits, hdigits⟩ := List.exists_cons_of_ne_nil (Nat.toDigits_ne_nil (n := value.natAbs))
  rw [toList_toString_int, hdigits]
  by_cases hsign : value < 0
  · rw [if_pos hsign]
    exact ⟨'-', d :: digits, rfl, Or.inl rfl⟩
  · have hd : d.isDigit = true := isDigit_of_mem_toDigits (by rw [hdigits]; exact List.mem_cons_self)
    rw [if_neg hsign]
    exact ⟨d, digits, rfl, Or.inr hd⟩

theorem isTree_int (value : Int) (fits : FitsWord value) :
    IsTree (.number (.int value fits)) (.numeral (Numeral.ofInt value)) where
  start layout level := by
    obtain ⟨c, text, htext, hc⟩ := exists_toString_int_cons value
    refine ⟨c, text, by rw [laidChars, numberChars, htext], ?_, ?_⟩
    · rcases hc with rfl | hc
      · rfl
      · cases hspace : isSpace c with
        | false => rfl
        | true =>
          simp only [isSpace, Bool.or_eq_true, beq_iff_eq] at hspace
          rcases hspace with ((rfl | rfl) | rfl) | rfl <;> exact absurd hc (by decide)
    · rintro rfl
      exact absurd hc (by decide)
  read {layout level fuel rest} hfuel hrest := by
    obtain ⟨c, text, htext, hc⟩ := exists_toString_int_cons value
    rw [laidChars, numberChars, htext] at hfuel ⊢
    obtain ⟨fuel, rfl, -⟩ := exists_fuel hfuel
    rw [List.cons_append, readValue_numeral hc, ← List.cons_append, ← htext,
      readNumeral?_toString value hrest, Option.map_some]
  meaning hdepth hall := by
    rw [value?, Numeral.number?, int?_ofInt fits]
    simp only [dif_pos fits, Option.map_some]

theorem quotedChars_append (text : String) (rest : List Char) :
    quotedChars text ++ rest = '"' :: (text.toList.flatMap escapedChar ++ '"' :: rest) := by
  simp [quotedChars]

theorem isTree_string (text : String) :
    IsTree (.string text) (.string (text.toList.map Mark.ofChar)) where
  start layout level := ⟨'"', _, rfl, rfl, by decide⟩
  read {layout level fuel rest} hfuel hrest := by
    obtain ⟨fuel, rfl, -⟩ := exists_fuel hfuel
    rw [laidChars, quotedChars_append,
      readValue_string (readMarks_flatMap_escapedChar text.toList rest)]
  meaning hdepth hall := by rw [value?, text?_map_ofChar, Option.map_some]

section Elements

variable {items : List Json} {trees : List Tree} {item : Json} {tree : Tree}

theorem isTree_array_nil : IsTree (.array []) (.array []) where
  start layout level := ⟨'[', _, rfl, rfl, by decide⟩
  read {layout level fuel rest} hfuel hrest := by
    obtain ⟨fuel, rfl, -⟩ := exists_fuel hfuel
    rw [laidChars, List.cons_append, List.singleton_append, readValue, skipSpace_cons rfl]
    simp only [skipSpace_cons (c := ']') rfl]
  meaning {limit} hdepth hall := by
    have hlimit : limit ≠ 0 := by
      rw [depth] at hdepth
      omega
    rw [value?, if_neg hlimit, itemValues?, Option.map_some]

theorem isTree_array (hne : items ≠ []) (h : IsItems items trees) :
    IsTree (.array items) (.array trees) where
  start layout level := ⟨'[', _, laidChars_array hne, rfl, by decide⟩
  read {layout level fuel rest} hfuel hrest := by
    rw [laidChars_array hne] at hfuel ⊢
    obtain ⟨fuel, rfl, hless⟩ := exists_fuel hfuel
    rw [List.length_append, List.length_append] at hless
    have htext : '[' :: (layout.line (level + 1) ++ (laidItems layout (level + 1) items ++
        (layout.line level ++ [']']))) ++ rest =
        '[' :: (layout.line (level + 1) ++ (laidItems layout (level + 1) items ++
          (layout.line level ++ ']' :: rest))) := by
      simp only [List.cons_append, List.append_assoc, List.nil_append]
    -- the bracket is not closed at once, since an element follows
    obtain ⟨c, text, hitems, hspace, hc⟩ := h.start hne layout (level + 1)
    have hopen : ∀ after, skipSpace (layout.line (level + 1) ++ (laidItems layout (level + 1) items ++
        (layout.line level ++ ']' :: rest))) ≠ ']' :: after := by
      intro after hafter
      rw [skipSpace_append (layout.isSpace_line _), hitems, List.cons_append,
        skipSpace_cons hspace] at hafter
      exact hc (List.cons.inj hafter).1
    rw [htext, readValue_array hopen, readItems_append (layout.isSpace_line _),
      h.read hne (by omega) (layout.isSpace_line _), Option.map_some]
  meaning {limit} hdepth hall := by
    rw [depth] at hdepth
    rw [all, Bool.and_eq_true] at hall
    have hlimit : limit ≠ 0 := by omega
    rw [value?, if_neg hlimit, h.meaning (by omega) hall.2, Option.map_some]

theorem isItems_nil : IsItems [] [] where
  start hne := absurd rfl hne
  read hne := absurd rfl hne
  meaning hdepth hall := by rw [itemValues?]

theorem isItems_singleton (hitem : IsTree item tree) : IsItems [item] [tree] where
  start _ layout level := by
    rw [laidItems]
    exact hitem.start layout level
  read {layout level fuel space rest} _ hfuel hspace := by
    obtain ⟨c, text, htext, -⟩ := hitem.start layout level
    rw [laidItems] at hfuel ⊢
    have hpos : 0 < (laidChars layout level item).length := by simp [htext]
    obtain ⟨fuel, rfl⟩ := Nat.exists_eq_succ_of_ne_zero (n := fuel) (by omega)
    have hends : Ends (space ++ ']' :: rest) := Ends.append hspace (by simp [Ends])
    exact readItems_last hspace (hitem.read (by omega) hends)
  meaning {limit} hdepth hall := by
    rw [itemsDepth] at hdepth
    rw [allItems, Bool.and_eq_true] at hall
    rw [itemValues?, hitem.meaning (by omega) hall.1, itemValues?]

theorem isItems_cons (hne : items ≠ []) (hitem : IsTree item tree) (h : IsItems items trees) :
    IsItems (item :: items) (tree :: trees) where
  start _ layout level := by
    obtain ⟨c, text, htext, hc⟩ := hitem.start layout level
    exact ⟨c, _, by rw [laidItems_cons hne, htext, List.cons_append], hc⟩
  read {layout level fuel space rest} _ hfuel hspace := by
    rw [laidItems_cons hne] at hfuel ⊢
    simp only [List.length_append, List.length_cons] at hfuel
    obtain ⟨fuel, rfl⟩ := Nat.exists_eq_succ_of_ne_zero (n := fuel) (by omega)
    -- the item ends at the comma after it
    have hfirst : readValue fuel (laidChars layout level item ++
        ',' :: (layout.line level ++ (laidItems layout level items ++ (space ++ ']' :: rest)))) =
        some (tree,
          ',' :: (layout.line level ++ (laidItems layout level items ++ (space ++ ']' :: rest)))) :=
      hitem.read (by omega) (by simp [Ends])
    simp only [List.append_assoc, List.cons_append]
    rw [readItems_more (List.forall_mem_nil _) hfirst, readItems_append (layout.isSpace_line _),
      h.read hne (by omega) hspace, Option.map_some]
  meaning {limit} hdepth hall := by
    rw [itemsDepth] at hdepth
    rw [allItems, Bool.and_eq_true] at hall
    rw [itemValues?, hitem.meaning (by omega) hall.1, h.meaning (by omega) hall.2]

end Elements

section Members

variable {members : List (String × Json)} {trees : List (List Mark × Tree)} {key : String}
  {value : Json} {tree : Tree}

theorem isMembers_nil : IsMembers [] [] where
  read hne := absurd rfl hne
  meaning hdepth hall := by rw [memberValues?]

theorem isMembers_singleton (hvalue : IsTree value tree) :
    IsMembers [(key, value)] [(key.toList.map Mark.ofChar, tree)] where
  read {layout level fuel space rest} _ hfuel hspace := by
    rw [laidMembers_singleton] at hfuel ⊢
    simp only [List.length_append, List.length_cons] at hfuel
    obtain ⟨fuel, rfl⟩ := Nat.exists_eq_succ_of_ne_zero (n := fuel) (by omega)
    have hends : Ends (space ++ '\x7d' :: rest) := Ends.append hspace (by simp [Ends])
    have hinner : readValue fuel (layout.gap ++ (laidChars layout level value ++
        (space ++ '\x7d' :: rest))) = some (tree, space ++ '\x7d' :: rest) := by
      rw [readValue_append layout.isSpace_gap]
      exact hvalue.read (by omega) hends
    simp only [List.append_assoc, List.cons_append, quotedChars_append]
    exact readMembers_last (List.forall_mem_nil _) hspace (readMarks_flatMap_escapedChar key.toList _)
      hinner
  meaning {limit} hdepth hall := by
    rw [membersDepth] at hdepth
    rw [allMembers, Bool.and_eq_true] at hall
    rw [memberValues?, text?_map_ofChar, hvalue.meaning (by omega) hall.1, memberValues?]

theorem isMembers_cons (hne : members ≠ []) (hvalue : IsTree value tree)
    (h : IsMembers members trees) :
    IsMembers ((key, value) :: members) ((key.toList.map Mark.ofChar, tree) :: trees) where
  read {layout level fuel space rest} _ hfuel hspace := by
    rw [laidMembers_cons hne] at hfuel ⊢
    simp only [List.length_append, List.length_cons] at hfuel
    obtain ⟨fuel, rfl⟩ := Nat.exists_eq_succ_of_ne_zero (n := fuel) (by omega)
    have hinner : readValue fuel (layout.gap ++ (laidChars layout level value ++
        ',' :: (layout.line level ++
          (laidMembers layout level members ++ (space ++ '\x7d' :: rest))))) =
        some (tree, ',' :: (layout.line level ++
          (laidMembers layout level members ++ (space ++ '\x7d' :: rest)))) := by
      rw [readValue_append layout.isSpace_gap]
      exact hvalue.read (by omega) (by simp [Ends])
    have hkey := readMarks_flatMap_escapedChar key.toList (':' :: (layout.gap ++
      (laidChars layout level value ++ ',' :: (layout.line level ++
        (laidMembers layout level members ++ (space ++ '\x7d' :: rest))))))
    simp only [List.append_assoc, List.cons_append, quotedChars_append]
    rw [readMembers_more (List.forall_mem_nil _) (List.forall_mem_nil _) hkey hinner,
      readMembers_append (layout.isSpace_line _), h.read hne (by omega) hspace, Option.map_some]
  meaning {limit} hdepth hall := by
    rw [membersDepth] at hdepth
    rw [allMembers, Bool.and_eq_true] at hall
    rw [memberValues?, text?_map_ofChar, hvalue.meaning (by omega) hall.1,
      h.meaning (by omega) hall.2]

theorem exists_laidMembers_eq (hne : members ≠ []) (layout : Layout) (level : Nat) :
    ∃ text, laidMembers layout level members = '"' :: text := by
  obtain ⟨⟨key, value⟩, rest, rfl⟩ := List.exists_cons_of_ne_nil hne
  by_cases hrest : rest = []
  · subst hrest
    exact ⟨_, by rw [laidMembers_singleton, quotedChars_append]⟩
  · exact ⟨_, by rw [laidMembers_cons hrest, quotedChars_append]⟩

theorem isTree_object_nil : IsTree (.object []) (.object []) where
  start layout level := ⟨'\x7b', _, rfl, rfl, by decide⟩
  read {layout level fuel rest} hfuel hrest := by
    obtain ⟨fuel, rfl, -⟩ := exists_fuel hfuel
    rw [laidChars, List.cons_append, List.singleton_append, readValue, skipSpace_cons rfl]
    simp only [skipSpace_cons (c := '\x7d') rfl]
  meaning {limit} hdepth hall := by
    have hlimit : limit ≠ 0 := by
      rw [depth] at hdepth
      omega
    rw [value?, if_neg hlimit, memberValues?, Option.map_some]
    rfl

/-- The text of an object is read whatever order its members have. -/
theorem readValue_laidMembers (hne : members ≠ []) (h : IsMembers members trees) {layout : Layout}
    {level fuel : Nat} {rest : List Char}
    (hfuel : 2 * (laidChars layout level (.object members)).length ≤ fuel + 1) :
    readValue fuel (laidChars layout level (.object members) ++ rest) =
      some (.object trees, rest) := by
  rw [laidChars_object hne] at hfuel ⊢
  obtain ⟨fuel, rfl, hless⟩ := exists_fuel hfuel
  rw [List.length_append, List.length_append] at hless
  have hbrace : '\x7b' :: (layout.line (level + 1) ++ (laidMembers layout (level + 1) members ++
      (layout.line level ++ ['\x7d']))) ++ rest =
      '\x7b' :: (layout.line (level + 1) ++ (laidMembers layout (level + 1) members ++
        (layout.line level ++ '\x7d' :: rest))) := by
    simp only [List.cons_append, List.append_assoc, List.nil_append]
  -- the brace is not closed at once, since a key follows
  obtain ⟨text, htext⟩ := exists_laidMembers_eq hne layout (level + 1)
  have hopen : ∀ after, skipSpace (layout.line (level + 1) ++
      (laidMembers layout (level + 1) members ++ (layout.line level ++ '\x7d' :: rest))) ≠
        '\x7d' :: after := by
    intro after hafter
    rw [skipSpace_append (layout.isSpace_line _), htext, List.cons_append,
      skipSpace_cons rfl] at hafter
    exact absurd (List.cons.inj hafter).1 (by decide)
  rw [hbrace, readValue_object hopen, readMembers_append (layout.isSpace_line _),
    h.read hne (by omega) (layout.isSpace_line _), Option.map_some]

theorem value?_object (h : IsMembers members trees) {limit : Nat}
    (hdepth : membersDepth members < limit) (hall : allMembers ascending members = true) :
    (Tree.object trees).value? limit = some (.object (Assoc.ofEntries members)) := by
  have hlimit : limit ≠ 0 := by omega
  rw [value?, if_neg hlimit, h.meaning (by omega) hall, Option.map_some]

theorem isTree_object (hne : members ≠ []) (h : IsMembers members trees) :
    IsTree (.object members) (.object trees) where
  start layout level := ⟨'\x7b', _, laidChars_object hne, rfl, by decide⟩
  read hfuel hrest := readValue_laidMembers hne h hfuel
  meaning {limit} hdepth hall := by
    rw [depth] at hdepth
    rw [all, Bool.and_eq_true, ascending, decide_eq_true_eq] at hall
    rw [value?_object h (by omega) hall.2, Assoc.ofEntries_eq_self hall.1]

end Members

/-! ## Compact text is one line -/

theorem newline_not_mem_escapedChar (c : Char) : '\n' ∉ escapedChar c := by
  unfold escapedChar
  split
  iterate 7 decide
  rename_i hn _ _
  split
  · have hdigit : ∀ m < 16, '\n' ≠ Hex.digit m := by decide
    have hmod (m : Nat) : '\n' ≠ Hex.digit (m % 16) := hdigit _ (Nat.mod_lt m (by decide))
    rw [Hex.digits_four]
    simp [hmod]
  · simpa using Ne.symm hn

theorem newline_not_mem_quotedChars (text : String) : '\n' ∉ quotedChars text := by
  simp [quotedChars, newline_not_mem_escapedChar]

theorem newline_not_mem_toString_int (value : Int) : '\n' ∉ (toString value).toList := by
  intro h
  rw [toList_toString_int, List.mem_append] at h
  rcases h with h | h
  · split at h <;> simp at h
  · exact absurd (isDigit_of_mem_toDigits h) (by decide)

mutual

theorem newline_not_mem_compactChars : (value : Json) → value.all notDouble = true →
    '\n' ∉ compactChars value
  | .null, _ => by decide
  | .bool true, _ => by decide
  | .bool false, _ => by decide
  | .number (.int value _), _ => newline_not_mem_toString_int value
  | .number (.double _), h => absurd h (by simp [all, notDouble])
  | .string text, _ => newline_not_mem_quotedChars text
  | .array items, h => by
    rw [all, Bool.and_eq_true] at h
    have hitems := newline_not_mem_compactItems items h.2
    simp [compactChars, hitems]
  | .object members, h => by
    rw [all, Bool.and_eq_true] at h
    have hmembers := newline_not_mem_compactMembers members h.2
    simp [compactChars, hmembers]

theorem newline_not_mem_compactItems : (items : List Json) → allItems notDouble items = true →
    '\n' ∉ compactItems items
  | [], _ => List.not_mem_nil
  | item :: rest, h => by
    rw [allItems, Bool.and_eq_true] at h
    have hitem := newline_not_mem_compactChars item h.1
    have hrest := newline_not_mem_compactItems rest h.2
    by_cases hne : rest = []
    · subst hne
      rwa [compactItems]
    · simp [compactItems_cons hne, hitem, hrest]

theorem newline_not_mem_compactMembers : (members : List (String × Json)) →
    allMembers notDouble members = true → '\n' ∉ compactMembers members
  | [], _ => List.not_mem_nil
  | (key, value) :: rest, h => by
    rw [allMembers, Bool.and_eq_true] at h
    have hkey := newline_not_mem_quotedChars key
    have hvalue := newline_not_mem_compactChars value h.1
    have hrest := newline_not_mem_compactMembers rest h.2
    by_cases hne : rest = []
    · subst hne
      simp [compactMembers, hkey, hvalue]
    · simp [compactMembers_cons hne, hkey, hvalue, hrest]

end

/-! ## Values are read back -/

mutual

theorem exists_isTree : (value : Json) → value.all notDouble = true → ∃ tree, IsTree value tree
  | .null, _ => ⟨_, isTree_null⟩
  | .bool b, _ => ⟨_, isTree_bool b⟩
  | .number (.int value fits), _ => ⟨_, isTree_int value fits⟩
  | .number (.double _), h => absurd h (by simp [all, notDouble])
  | .string text, _ => ⟨_, isTree_string text⟩
  | .array items, h => by
    rw [all, Bool.and_eq_true] at h
    obtain ⟨trees, hitems⟩ := exists_isItems items h.2
    by_cases hne : items = []
    · subst hne
      exact ⟨_, isTree_array_nil⟩
    · exact ⟨_, isTree_array hne hitems⟩
  | .object members, h => by
    rw [all, Bool.and_eq_true] at h
    obtain ⟨trees, hmembers⟩ := exists_isMembers members h.2
    by_cases hne : members = []
    · subst hne
      exact ⟨_, isTree_object_nil⟩
    · exact ⟨_, isTree_object hne hmembers⟩

theorem exists_isItems : (items : List Json) → allItems notDouble items = true →
    ∃ trees, IsItems items trees
  | [], _ => ⟨_, isItems_nil⟩
  | item :: rest, h => by
    rw [allItems, Bool.and_eq_true] at h
    obtain ⟨tree, hitem⟩ := exists_isTree item h.1
    obtain ⟨trees, hrest⟩ := exists_isItems rest h.2
    by_cases hne : rest = []
    · subst hne
      exact ⟨_, isItems_singleton hitem⟩
    · exact ⟨_, isItems_cons hne hitem hrest⟩

theorem exists_isMembers : (members : List (String × Json)) →
    allMembers notDouble members = true → ∃ trees, IsMembers members trees
  | [], _ => ⟨_, isMembers_nil⟩
  | (key, value) :: rest, h => by
    rw [allMembers, Bool.and_eq_true] at h
    obtain ⟨tree, hvalue⟩ := exists_isTree value h.1
    obtain ⟨trees, hrest⟩ := exists_isMembers rest h.2
    by_cases hne : rest = []
    · subst hne
      exact ⟨_, isMembers_singleton hvalue⟩
    · exact ⟨_, isMembers_cons hne hvalue hrest⟩

end

theorem ofChars?_eq {text : List Char} {tree : Tree}
    (h : readValue (2 * text.length + 2) (text ++ []) = some (tree, [])) :
    ofChars? text = some tree := by
  rw [List.append_nil] at h
  rw [ofChars?, h]
  rfl

/-- An object is read back as the map of its members, in whatever order they were written. -/
theorem parseChars?_compactChars_object {members : List (String × Json)} (hne : members ≠ [])
    (hdepth : membersDepth members < deepest) (hint : allMembers notDouble members = true)
    (hall : allMembers ascending members = true) :
    parseChars? (compactChars (.object members)) = some (.object (Assoc.ofEntries members)) := by
  obtain ⟨trees, h⟩ := exists_isMembers members hint
  rw [← laidChars_tight 0]
  have htree : ofChars? (laidChars .tight 0 (.object members)) = some (.object trees) :=
    ofChars?_eq (readValue_laidMembers hne h (by omega))
  rw [parseChars?, htree, Option.bind_some, value?_object h hdepth hall]

/-- A value is read back from any layout of its text. -/
theorem parseChars?_laidChars (layout : Layout) {value : Json} (hdepth : value.depth ≤ deepest)
    (hint : value.all notDouble = true) (hall : value.all ascending = true) :
    parseChars? (laidChars layout 0 value) = some value := by
  obtain ⟨tree, h⟩ := exists_isTree value hint
  have htree : ofChars? (laidChars layout 0 value) = some tree :=
    ofChars?_eq (h.read (by omega) (by simp [Ends]))
  rw [parseChars?, htree, Option.bind_some, h.meaning hdepth hall]

/-- A value is read back from its compact text. -/
theorem parse?_compact {value : Json} (hdepth : value.depth ≤ deepest)
    (hint : value.all notDouble = true) (hall : value.all ascending = true) :
    parse? value.compact = some value := by
  rw [parse?, compact, String.toList_ofList, ← laidChars_tight 0]
  exact parseChars?_laidChars .tight hdepth hint hall

/-- A value is read back from its indented text. -/
theorem parse?_indented {value : Json} (hdepth : value.depth ≤ deepest)
    (hint : value.all notDouble = true) (hall : value.all ascending = true) :
    parse? value.indented = some value := by
  rw [parse?, indented, String.toList_ofList, ← laidChars_lines]
  exact parseChars?_laidChars .lines hdepth hint hall

end Json

end Cattery
