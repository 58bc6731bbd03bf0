import Cattery.Proofs.JsonGrammar

/-! Which JSON text has a value. The reader sets three limits to text that follows the grammar: how deep
it is nested, that the halves of surrogate pairs come together, and that its numbers are not too
large for a double. The nesting is that of the text, so it counts members that a later one with
the same key replaces. -/

namespace Cattery

/-- Marks whose code units are characters, alone or as a high surrogate with a low one after it. -/
inductive Mark.Paired : List Mark → Prop
  | nil : Paired []
  | char {c : Char} {marks : List Mark} (rest : Paired marks) : Paired (.char c :: marks)
  | unit {n : Nat} {marks : List Mark} (hn : n < 0xD800 ∨ 0xE000 ≤ n) (rest : Paired marks) :
      Paired (.unit n :: marks)
  | pair {n m : Nat} {marks : List Mark} (hhigh : 0xD800 ≤ n ∧ n < 0xDC00)
      (hlow : 0xDC00 ≤ m ∧ m < 0xE000) (rest : Paired marks) :
      Paired (.unit n :: .unit m :: marks)

theorem Mark.isSome_text?_iff {marks : List Mark} : (Mark.text? marks).isSome ↔ Paired marks := by
  rw [Mark.text?, Option.isSome_map]
  induction marks using Mark.spell?.induct with
  | case1 => exact iff_of_true rfl .nil
  | case2 c rest ih =>
    rw [spell?, Option.isSome_map, ih]
    refine ⟨.char, ?_⟩
    rintro ⟨⟩
    assumption
  | case3 n rest hn ih =>
    have halone : n < 0xD800 ∨ 0xE000 ≤ n := by simpa using hn
    rw [spell?.eq_def]
    simp only [hn, if_true, Option.isSome_map, ih]
    refine ⟨.unit halone, ?_⟩
    intro h
    cases h with
    | unit _ rest => exact rest
    | pair hhigh hlow rest => omega
  | case4 n hn m rest hm ih =>
    have hhigh : 0xD800 ≤ n ∧ n < 0xE000 := by simpa using hn
    have hlow : (n < 0xDC00 ∧ 0xDC00 ≤ m) ∧ m < 0xE000 := by simpa using hm
    rw [spell?.eq_def]
    simp only [hn, hm, Bool.false_eq_true, if_false, if_true, Option.isSome_map, ih]
    refine ⟨.pair ⟨hhigh.1, hlow.1.1⟩ ⟨hlow.1.2, hlow.2⟩, ?_⟩
    intro h
    cases h with
    | unit hn rest => omega
    | pair _ _ rest => exact rest
  | case5 n hn m rest hm =>
    -- two units that are no pair: the first one is half of a character without the other half
    have hhigh : 0xD800 ≤ n ∧ n < 0xE000 := by simpa using hn
    rw [spell?.eq_def]
    simp only [hn, hm, Bool.false_eq_true, if_false, Option.isSome_none, false_iff]
    intro h
    cases h with
    | unit hn rest => omega
    | pair hhigh hlow rest => simp [hhigh.2, hlow.1, hlow.2] at hm
  | case6 n rest hn hlow =>
    have hhigh : 0xD800 ≤ n ∧ n < 0xE000 := by simpa using hn
    -- no unit follows at all
    have hnone : spell? (.unit n :: rest) = none := by
      rw [spell?.eq_def]
      simp only [hn, Bool.false_eq_true, if_false]
    rw [hnone]
    refine iff_of_false (by simp) ?_
    intro h
    cases h with
    | unit hn rest => omega
    | pair _ _ rest => exact hlow _ _ rfl

namespace Tree

mutual

def depth : Tree → Nat
  | .array items => itemsDepth items + 1
  | .object members => membersDepth members + 1
  | _ => 0

def itemsDepth : List Tree → Nat
  | [] => 0
  | item :: rest => max (depth item) (itemsDepth rest)

def membersDepth : List (List Mark × Tree) → Nat
  | [] => 0
  | (_, value) :: rest => max (depth value) (membersDepth rest)

end

mutual

def Meant : Tree → Prop
  | .numeral x => x.number? ≠ none
  | .string marks => Mark.Paired marks
  | .array items => ItemsMeant items
  | .object members => MembersMeant members
  | _ => True

def ItemsMeant : List Tree → Prop
  | [] => True
  | item :: rest => Meant item ∧ ItemsMeant rest

def MembersMeant : List (List Mark × Tree) → Prop
  | [] => True
  | (key, value) :: rest => Mark.Paired key ∧ Meant value ∧ MembersMeant rest

end

mutual

/-- A tree has a value within the limits of the reader, and only there. -/
theorem isSome_value?_iff : (tree : Tree) → (limit : Nat) →
    ((tree.value? limit).isSome ↔ tree.depth ≤ limit ∧ tree.Meant)
  | .null, limit => by simp [value?, depth, Meant]
  | .bool b, limit => by simp [value?, depth, Meant]
  | .numeral x, limit => by simp [value?, depth, Meant, Option.isSome_iff_ne_none]
  | .string marks, limit => by
    rw [value?, Option.isSome_map, Mark.isSome_text?_iff]
    simp [depth, Meant]
  | .array items, limit => by
    -- the elements stand one level deeper, so the limit for them is smaller by one
    rw [value?, depth, Meant]
    by_cases hlimit : limit = 0
    · simp [hlimit]
    · rw [if_neg hlimit, Option.isSome_map, isSome_itemValues?_iff items]
      constructor <;> (rintro ⟨hdepth, hmeant⟩; exact ⟨by omega, hmeant⟩)
  | .object members, limit => by
    rw [value?, depth, Meant]
    by_cases hlimit : limit = 0
    · simp [hlimit]
    · rw [if_neg hlimit, Option.isSome_map, isSome_memberValues?_iff members]
      constructor <;> (rintro ⟨hdepth, hmeant⟩; exact ⟨by omega, hmeant⟩)

theorem isSome_itemValues?_iff : (items : List Tree) → (limit : Nat) →
    ((itemValues? limit items).isSome ↔ itemsDepth items ≤ limit ∧ ItemsMeant items)
  | [], limit => by simp [itemValues?, itemsDepth, ItemsMeant]
  | item :: rest, limit => by
    have hitem := isSome_value?_iff item limit
    have hrest := isSome_itemValues?_iff rest limit
    have hboth : (itemValues? limit (item :: rest)).isSome ↔
        (value? limit item).isSome ∧ (itemValues? limit rest).isSome := by
      rw [itemValues?]
      cases value? limit item <;> cases itemValues? limit rest <;> simp
    rw [hboth, hitem, hrest, itemsDepth, ItemsMeant, Nat.max_le]
    exact and_and_and_comm

theorem isSome_memberValues?_iff : (members : List (List Mark × Tree)) → (limit : Nat) →
    ((memberValues? limit members).isSome ↔
      membersDepth members ≤ limit ∧ MembersMeant members)
  | [], limit => by simp [memberValues?, membersDepth, MembersMeant]
  | (key, value) :: rest, limit => by
    -- a member counts whether or not a later one has its key
    have hvalue := isSome_value?_iff value limit
    have hrest := isSome_memberValues?_iff rest limit
    have hall : (memberValues? limit ((key, value) :: rest)).isSome ↔
        (Mark.text? key).isSome ∧ (value? limit value).isSome ∧
          (memberValues? limit rest).isSome := by
      rw [memberValues?]
      cases Mark.text? key <;> cases value? limit value <;> cases memberValues? limit rest <;> simp
    rw [hall, Mark.isSome_text?_iff, hvalue, hrest, membersDepth, MembersMeant, Nat.max_le]
    tauto

end

mutual

/-- The value of a tree does not depend on a limit that it keeps. -/
theorem value?_eq_of_depth_le : (tree : Tree) → {limit other : Nat} → tree.depth ≤ limit →
    tree.depth ≤ other → tree.value? limit = tree.value? other
  | .null, limit, other, _, _ => by rw [value?, value?]
  | .bool b, limit, other, _, _ => by rw [value?, value?]
  | .numeral x, limit, other, _, _ => by rw [value?, value?]
  | .string marks, limit, other, _, _ => by rw [value?, value?]
  | .array items, limit, other, hlimit, hother => by
    rw [depth] at hlimit hother
    have hitems : itemValues? (limit - 1) items = itemValues? (other - 1) items :=
      itemValues?_eq_of_depth_le items (by omega) (by omega)
    rw [value?, value?, if_neg (by omega), if_neg (by omega), hitems]
  | .object members, limit, other, hlimit, hother => by
    rw [depth] at hlimit hother
    have hmembers : memberValues? (limit - 1) members = memberValues? (other - 1) members :=
      memberValues?_eq_of_depth_le members (by omega) (by omega)
    rw [value?, value?, if_neg (by omega), if_neg (by omega), hmembers]

theorem itemValues?_eq_of_depth_le : (items : List Tree) → {limit other : Nat} →
    itemsDepth items ≤ limit → itemsDepth items ≤ other →
    itemValues? limit items = itemValues? other items
  | [], limit, other, _, _ => by rw [itemValues?, itemValues?]
  | item :: rest, limit, other, hlimit, hother => by
    rw [itemsDepth, Nat.max_le] at hlimit hother
    rw [itemValues?, itemValues?, value?_eq_of_depth_le item hlimit.1 hother.1,
      itemValues?_eq_of_depth_le rest hlimit.2 hother.2]

theorem memberValues?_eq_of_depth_le : (members : List (List Mark × Tree)) → {limit other : Nat} →
    membersDepth members ≤ limit → membersDepth members ≤ other →
    memberValues? limit members = memberValues? other members
  | [], limit, other, _, _ => by rw [memberValues?, memberValues?]
  | (key, value) :: rest, limit, other, hlimit, hother => by
    rw [membersDepth, Nat.max_le] at hlimit hother
    rw [memberValues?, memberValues?, value?_eq_of_depth_le value hlimit.1 hother.1,
      memberValues?_eq_of_depth_le rest hlimit.2 hother.2]

end

end Tree

namespace Json

open Cattery.Tree

/-- Text that follows the grammar of JSON and stays within the limits of the reader. -/
def Readable (text : List Char) : Prop :=
  ∃ tree, Padded tree text ∧ tree.depth ≤ deepest ∧ tree.Meant

/-- Exactly that text has a value. -/
theorem isSome_parseChars?_iff {text : List Char} : (parseChars? text).isSome ↔ Readable text := by
  rw [parseChars?, Option.isSome_bind, Option.any_eq_true]
  constructor
  · rintro ⟨tree, htree, hvalue⟩
    exact ⟨tree, ofChars?_eq_some_iff.mp htree, (isSome_value?_iff tree deepest).mp hvalue⟩
  · rintro ⟨tree, hpadded, hlimits⟩
    exact ⟨tree, ofChars?_eq_some_iff.mpr hpadded, (isSome_value?_iff tree deepest).mpr hlimits⟩

def Spells (text : List Char) (value : Json) : Prop :=
  ∃ tree, Padded tree text ∧ tree.value? deepest = some value

theorem parse?_eq_some_iff {text : String} {value : Json} :
    parse? text = some value ↔ Spells text.toList value := by
  rw [parse?, parseChars?, Option.bind_eq_some_iff]
  apply exists_congr
  intro tree
  rw [ofChars?_eq_some_iff]

end Json

end Cattery
