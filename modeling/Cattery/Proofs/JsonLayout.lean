import Cattery.Json.Printer
import Cattery.Json.Tree
import Mathlib.Data.List.Basic

namespace Cattery

structure Layout where
  line : Nat → List Char
  gap : List Char
  isSpace_line : ∀ level, ∀ c ∈ line level, Tree.isSpace c = true
  isSpace_gap : ∀ c ∈ gap, Tree.isSpace c = true

def Layout.tight : Layout where
  line _ := []
  gap := []
  isSpace_line := by simp
  isSpace_gap := by simp

def Layout.lines : Layout where
  line := Json.newline
  gap := [' ']
  isSpace_line level c hc := by
    rcases List.mem_cons.mp hc with rfl | hc
    · rfl
    · rw [List.eq_of_mem_replicate hc]
      rfl
  isSpace_gap := List.forall_mem_singleton.mpr rfl

namespace Json

mutual

def laidChars (layout : Layout) (level : Nat) : Json → List Char
  | .null => ['n', 'u', 'l', 'l']
  | .bool true => ['t', 'r', 'u', 'e']
  | .bool false => ['f', 'a', 'l', 's', 'e']
  | .number value => numberChars value
  | .string text => quotedChars text
  | .array [] => ['[', ']']
  | .array items =>
    '[' :: layout.line (level + 1) ++ laidItems layout (level + 1) items ++ layout.line level ++
      [']']
  | .object [] => ['\x7b', '\x7d']
  | .object members =>
    '\x7b' :: layout.line (level + 1) ++ laidMembers layout (level + 1) members ++
      layout.line level ++ ['\x7d']

def laidItems (layout : Layout) (level : Nat) : List Json → List Char
  | [] => []
  | [item] => laidChars layout level item
  | item :: rest =>
    laidChars layout level item ++ ',' :: layout.line level ++ laidItems layout level rest

def laidMembers (layout : Layout) (level : Nat) : List (String × Json) → List Char
  | [] => []
  | [(key, value)] => quotedChars key ++ ':' :: layout.gap ++ laidChars layout level value
  | (key, value) :: rest =>
    quotedChars key ++ ':' :: layout.gap ++ laidChars layout level value ++
      ',' :: layout.line level ++ laidMembers layout level rest

end

section Layout

variable {layout : Layout} {level : Nat} {items : List Json} {members : List (String × Json)}

theorem laidChars_array (hne : items ≠ []) :
    laidChars layout level (.array items) =
      '[' :: (layout.line (level + 1) ++ (laidItems layout (level + 1) items ++
        (layout.line level ++ [']']))) := by
  rw [laidChars]
  · simp only [List.append_assoc, List.cons_append]
  · exact hne

theorem laidChars_object (hne : members ≠ []) :
    laidChars layout level (.object members) =
      '\x7b' :: (layout.line (level + 1) ++ (laidMembers layout (level + 1) members ++
        (layout.line level ++ ['\x7d']))) := by
  rw [laidChars]
  · simp only [List.append_assoc, List.cons_append]
  · exact hne

theorem laidItems_cons (hne : items ≠ []) (item : Json) :
    laidItems layout level (item :: items) =
      laidChars layout level item ++ ',' :: (layout.line level ++ laidItems layout level items) := by
  rw [laidItems]
  · simp only [List.append_assoc, List.cons_append]
  · exact hne

theorem laidMembers_singleton (key : String) (value : Json) :
    laidMembers layout level [(key, value)] =
      quotedChars key ++ ':' :: (layout.gap ++ laidChars layout level value) := by
  rw [laidMembers]
  simp only [List.append_assoc, List.cons_append]

theorem laidMembers_cons (hne : members ≠ []) (key : String) (value : Json) :
    laidMembers layout level ((key, value) :: members) =
      quotedChars key ++ ':' :: (layout.gap ++ (laidChars layout level value ++
        ',' :: (layout.line level ++ laidMembers layout level members))) := by
  rw [laidMembers]
  · simp only [List.append_assoc, List.cons_append]
  · exact hne

theorem compactItems_cons (hne : items ≠ []) (item : Json) :
    compactItems (item :: items) = compactChars item ++ ',' :: compactItems items := by
  rw [compactItems]
  exact hne

theorem compactMembers_cons (hne : members ≠ []) (key : String) (value : Json) :
    compactMembers ((key, value) :: members) =
      quotedChars key ++ ':' :: compactChars value ++ ',' :: compactMembers members := by
  rw [compactMembers]
  exact hne

end Layout

mutual

theorem laidChars_tight (level : Nat) :
    (value : Json) → laidChars .tight level value = compactChars value
  | .null => rfl
  | .bool true => rfl
  | .bool false => rfl
  | .number _ => rfl
  | .string _ => rfl
  | .array [] => rfl
  | .array (item :: rest) => by
    rw [laidChars_array (List.cons_ne_nil item rest), laidItems_tight, compactChars]
    simp [Layout.tight]
  | .object [] => rfl
  | .object (entry :: rest) => by
    rw [laidChars_object (List.cons_ne_nil entry rest), laidMembers_tight, compactChars]
    simp [Layout.tight]

theorem laidItems_tight (level : Nat) :
    (items : List Json) → laidItems .tight level items = compactItems items
  | [] => rfl
  | [item] => by rw [laidItems, compactItems, laidChars_tight]
  | item :: next :: rest => by
    rw [laidItems_cons (List.cons_ne_nil next rest), laidChars_tight, laidItems_tight,
      compactItems_cons (List.cons_ne_nil next rest)]
    rfl

theorem laidMembers_tight (level : Nat) :
    (members : List (String × Json)) → laidMembers .tight level members = compactMembers members
  | [] => rfl
  | [(key, value)] => by
    rw [laidMembers_singleton, compactMembers, laidChars_tight]
    simp [Layout.tight]
  | (key, value) :: next :: rest => by
    rw [laidMembers_cons (List.cons_ne_nil next rest), laidChars_tight, laidMembers_tight,
      compactMembers_cons (List.cons_ne_nil next rest)]
    simp [Layout.tight]

end

mutual

theorem laidChars_lines (level : Nat) :
    (value : Json) → laidChars .lines level value = indentedChars level value
  | .null => rfl
  | .bool true => rfl
  | .bool false => rfl
  | .number _ => rfl
  | .string _ => rfl
  | .array [] => rfl
  | .array (item :: rest) => by
    -- the equations for lists with elements ask that there are some
    rw [laidChars, indentedChars, laidItems_lines]
    · rfl
    · exact List.cons_ne_nil item rest
    · exact List.cons_ne_nil item rest
  | .object [] => rfl
  | .object (entry :: rest) => by
    rw [laidChars, indentedChars, laidMembers_lines]
    · rfl
    · exact List.cons_ne_nil entry rest
    · exact List.cons_ne_nil entry rest

theorem laidItems_lines (level : Nat) :
    (items : List Json) → laidItems .lines level items = indentedItems level items
  | [] => rfl
  | [item] => by rw [laidItems, indentedItems, laidChars_lines]
  | item :: next :: rest => by
    rw [laidItems, indentedItems, laidChars_lines, laidItems_lines]
    · rfl
    · exact List.cons_ne_nil next rest
    · exact List.cons_ne_nil next rest

theorem laidMembers_lines (level : Nat) :
    (members : List (String × Json)) → laidMembers .lines level members =
      indentedMembers level members
  | [] => rfl
  | [(key, value)] => by
    rw [laidMembers_singleton, indentedMembers, laidChars_lines]
    rfl
  | (key, value) :: next :: rest => by
    rw [laidMembers_cons (List.cons_ne_nil next rest), indentedMembers, laidChars_lines,
      laidMembers_lines]
    · simp [Layout.lines]
    · exact List.cons_ne_nil next rest

end

end Json

end Cattery
