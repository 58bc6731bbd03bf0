import Cattery.Text.Search
import Mathlib.Data.List.Infix
import Mathlib.Logic.Relation

namespace Cattery

variable {α : Type}

theorem filterMap_eq_self {f : α → Option α} {list : List α} (h : ∀ a ∈ list, f a = some a) :
    list.filterMap f = list := by
  calc list.filterMap f
      = list.filterMap some := List.filterMap_congr h
    _ = list := List.filterMap_some

/-- What one edit keeps is kept by any number of edits, made or undone. -/
theorem eq_of_eqvGen {β : Type} {edit : α → α → Prop} {f : α → β}
    (h : ∀ a b, edit a b → f a = f b) {a b : α} (hedits : Relation.EqvGen edit a b) : f a = f b := by
  induction hedits with
  | rel a b hedit => exact h a b hedit
  | refl a => rfl
  | symm a b _ ih => exact ih.symm
  | trans a b c _ _ ihab ihbc => exact ihab.trans ihbc

/-! ## Occurrences in texts that are put together -/

/-- An element that a mark does not have separates the places where the mark may stand. -/
theorem infix_append_cons_iff {a : α} {mark : List α} (ha : a ∉ mark) (x y : List α) :
    mark <:+: x ++ a :: y ↔ mark <:+: x ∨ mark <:+: y := by
  constructor
  · rintro ⟨s, t, h⟩
    rcases List.append_eq_append_iff.mp h with ⟨u, hx, -⟩ | ⟨u, hs, ht⟩
    · exact Or.inl ⟨s, u, hx.symm⟩
    · rcases List.cons_eq_append_iff.mp ht with ⟨rfl, -⟩ | ⟨u, rfl, rfl⟩
      · exact Or.inl ⟨s, [], by simpa using hs⟩
      · rcases List.append_eq_append_iff.mp hs with ⟨v, -, hv⟩ | ⟨v, -, hv⟩
        -- the separator would stand inside the mark
        · exact absurd (hv ▸ by simp) ha
        · rcases List.cons_eq_append_iff.mp hv with ⟨rfl, rfl⟩ | ⟨v, rfl, rfl⟩
          · exact absurd List.mem_cons_self ha
          · exact Or.inr ⟨v, t, rfl⟩
  · rintro (h | h)
    · exact h.trans (List.prefix_append x (a :: y)).isInfix
    · exact h.trans ((List.suffix_cons a y).trans (List.suffix_append x (a :: y))).isInfix

/-- What stands around a text does not matter for a mark that does not have it. -/
theorem infix_padded_iff {a : α} {mark : List α} (ha : a ∉ mark) (hmark : mark ≠ [])
    (x : List α) : mark <:+: [a] ++ x ++ [a] ↔ mark <:+: x := by
  rw [infix_append_cons_iff ha, List.singleton_append, ← List.nil_append (a :: x),
    infix_append_cons_iff ha, List.infix_nil]
  simp only [hmark, false_or, or_false]

/-- Text without the first element of a mark does not matter before the mark. -/
theorem cons_infix_append_iff {m : α} {ms x : List α} (hm : m ∉ x) (y : List α) :
    m :: ms <:+: x ++ y ↔ m :: ms <:+: y := by
  induction x with
  | nil => rfl
  | cons a x ih =>
    have hne : m ≠ a := fun h => hm (h ▸ List.mem_cons_self)
    rw [List.cons_append, List.infix_cons_iff, List.cons_prefix_cons,
      ih fun h => hm (List.mem_cons_of_mem a h)]
    exact or_iff_right fun h => hne h.1

theorem cons_suffix_append_iff {m : α} {ms x : List α} (hm : m ∉ x) (y : List α) :
    m :: ms <:+ x ++ y ↔ m :: ms <:+ y := by
  induction x with
  | nil => rfl
  | cons a x ih =>
    have hne : m ≠ a := fun h => hm (h ▸ List.mem_cons_self)
    rw [List.cons_append, List.suffix_cons_iff, ih fun h => hm (List.mem_cons_of_mem a h)]
    exact or_iff_right fun h => hne (List.cons.inj h).1

/-- A mark that cannot run over the ends of lines stands in one of the lines. -/
theorem infix_intercalate_iff {a : α} {mark : List α} (ha : a ∉ mark) (hmark : mark ≠ [])
    (lines : List (List α)) :
    mark <:+: [a].intercalate lines ↔ ∃ line ∈ lines, mark <:+: line := by
  induction lines with
  | nil => simpa using hmark
  | cons line lines ih =>
    cases lines with
    | nil => simp
    | cons next lines =>
      rw [List.intercalate_cons_cons, List.append_assoc, List.singleton_append,
        infix_append_cons_iff ha, ih]
      simp

/-- A mark that does not stand in a text does not start in it either, when the text goes on with
the first element of the mark. -/
theorem not_isPrefix_append {m : α} {ms x : List α} (hm : m ∉ ms) (hx : ¬ m :: ms <:+: x)
    (hne : x ≠ []) (rest : List α) : ¬ m :: ms <+: x ++ m :: rest := by
  rintro ⟨t, ht⟩
  rcases List.append_eq_append_iff.mp ht with ⟨u, hu, -⟩ | ⟨u, hu, htail⟩
  · exact hx ⟨[], u, by simpa using hu.symm⟩
  · obtain ⟨a, x, rfl⟩ := List.exists_cons_of_ne_nil hne
    cases u with
    | nil => exact hx ⟨[], [], by simpa using hu⟩
    | cons b u =>
      -- the element after the text would stand inside the mark
      obtain ⟨rfl, -⟩ : m = b ∧ _ := by simpa using htail
      obtain ⟨-, rfl⟩ : m = a ∧ ms = x ++ m :: u := by simpa using hu
      exact hm (by simp)

/-- No occurrence of a mark runs over the place where another one may start. -/
theorem infix_append_first_iff {m : α} {ms : List α} (hm : m ∉ ms) (x y : List α) :
    m :: ms <:+: x ++ m :: y ↔ m :: ms <:+: x ∨ m :: ms <:+: m :: y := by
  induction x with
  | nil => simp
  | cons a x ih =>
    rw [List.cons_append, List.infix_cons_iff, ih, ← or_assoc]
    refine or_congr_left ⟨?_, ?_⟩
    · rintro (hpre | hin)
      · by_contra hnot
        exact not_isPrefix_append hm hnot (List.cons_ne_nil a x) y hpre
      · exact hin.trans (List.suffix_cons a x).isInfix
    · intro h
      rcases List.infix_cons_iff.mp h with hpre | hin
      · exact Or.inl (hpre.trans (List.prefix_append (a :: x) (m :: y)))
      · exact Or.inr hin

/-- No occurrence of a mark runs over the place where another one may end. -/
theorem infix_append_last_iff {m : α} {ms : List α} (hm : m ∉ ms) (x y : List α) :
    ms ++ [m] <:+: x ++ m :: y ↔ ms ++ [m] <:+: x ++ [m] ∨ ms ++ [m] <:+: y := by
  -- read from the end, this is the case of a mark that starts with the element
  have hrev : m ∉ ms.reverse := by simpa using hm
  calc ms ++ [m] <:+: x ++ m :: y
      ↔ (ms ++ [m]).reverse <:+: (x ++ m :: y).reverse := List.reverse_infix.symm
    _ ↔ m :: ms.reverse <:+: y.reverse ++ m :: x.reverse := by simp
    _ ↔ m :: ms.reverse <:+: y.reverse ∨ m :: ms.reverse <:+: m :: x.reverse :=
      infix_append_first_iff hrev y.reverse x.reverse
    _ ↔ (ms ++ [m]).reverse <:+: (x ++ [m]).reverse ∨ (ms ++ [m]).reverse <:+: y.reverse := by
      rw [or_comm]
      simp
    _ ↔ ms ++ [m] <:+: x ++ [m] ∨ ms ++ [m] <:+: y := by
      rw [List.reverse_infix, List.reverse_infix]

/-! ## Cutting at the first occurrence -/

variable [BEq α] [LawfulBEq α]

theorem isPrefixOf?_eq_some_iff (mark list after : List α) :
    mark.isPrefixOf? list = some after ↔ list = mark ++ after := by
  induction mark generalizing list with
  | nil => simp [List.isPrefixOf?]
  | cons m ms ih =>
    cases list with
    | nil => simp [List.isPrefixOf?]
    | cons a rest =>
      by_cases h : m = a
      · simp [List.isPrefixOf?, h, ih]
      · simp [List.isPrefixOf?, h, Ne.symm h]

theorem isPrefixOf?_eq_none_iff (mark list : List α) :
    mark.isPrefixOf? list = none ↔ ¬ mark <+: list := by
  rw [Option.eq_none_iff_forall_ne_some]
  constructor
  · rintro h ⟨after, rfl⟩
    exact h after ((isPrefixOf?_eq_some_iff mark _ after).mpr rfl)
  · intro h after hafter
    exact h ⟨after, ((isPrefixOf?_eq_some_iff mark list after).mp hafter).symm⟩

theorem cut?_eq_none_iff (mark list : List α) : cut? mark list = none ↔ ¬ mark <:+: list := by
  induction list with
  | nil => cases mark <;> simp [cut?]
  | cons a rest ih =>
    rw [List.infix_cons_iff, not_or, ← isPrefixOf?_eq_none_iff, ← ih, cut?]
    cases mark.isPrefixOf? (a :: rest) <;> simp

theorem occurs_iff_isInfix (mark list : List α) : occurs mark list = true ↔ mark <:+: list := by
  rw [occurs, Option.isSome_iff_ne_none, ne_eq, cut?_eq_none_iff, not_not]

/-- What is cut off before and after a mark is the whole list, and the mark does not stand before
the place of the cut. -/
theorem eq_of_cut?_eq_some {m : α} {ms list before after : List α}
    (h : cut? (m :: ms) list = some (before, after)) :
    list = before ++ (m :: ms) ++ after ∧ ¬ m :: ms <:+: before := by
  induction list generalizing before with
  | nil => simp [cut?] at h
  | cons a rest ih =>
    rw [cut?] at h
    split at h
    · rename_i found hfound
      obtain ⟨rfl, rfl⟩ : [] = before ∧ found = after := by simpa using h
      exact ⟨by simpa using (isPrefixOf?_eq_some_iff _ _ _).mp hfound, by simp⟩
    · rename_i hnone
      obtain ⟨⟨front, back⟩, hcut, heq⟩ := Option.map_eq_some_iff.mp h
      obtain ⟨rfl, rfl⟩ : a :: front = before ∧ back = after := by simpa using heq
      obtain ⟨rfl, hfirst⟩ := ih hcut
      refine ⟨by simp, fun hin => ?_⟩
      rcases List.infix_cons_iff.mp hin with hpre | hin
      · refine (isPrefixOf?_eq_none_iff _ _).mp hnone (hpre.trans ?_)
        simp
      · exact hfirst hin

/-- A cut is made at the first occurrence, and only there. -/
theorem cut?_eq_some_iff {m : α} {ms : List α} (hm : m ∉ ms) (list before after : List α) :
    cut? (m :: ms) list = some (before, after) ↔
      list = before ++ (m :: ms) ++ after ∧ ¬ m :: ms <:+: before := by
  refine ⟨eq_of_cut?_eq_some, ?_⟩
  rintro ⟨rfl, hfirst⟩
  induction before with
  | nil =>
    have hpre := (isPrefixOf?_eq_some_iff (m :: ms) ((m :: ms) ++ after) after).mpr rfl
    simp only [List.cons_append, List.nil_append] at hpre ⊢
    rw [cut?, hpre]
  | cons a before ih =>
    -- the mark does not start here, so that the search goes on
    have hnone := (isPrefixOf?_eq_none_iff _ _).mpr
      (not_isPrefix_append hm hfirst (List.cons_ne_nil a before) (ms ++ after))
    have hrest := ih fun h => hfirst (h.trans (List.suffix_cons a before).isInfix)
    simp only [List.append_assoc, List.cons_append] at hnone hrest ⊢
    rw [cut?, hnone, hrest]
    rfl

theorem cut?_singleton_eq_some_iff (m : α) (list before after : List α) :
    cut? [m] list = some (before, after) ↔ list = before ++ m :: after ∧ m ∉ before := by
  rw [cut?_eq_some_iff (by simp), List.singleton_infix_iff]
  simp

/-- A cut is made no later than where the mark stands. -/
theorem exists_cut?_append (mark before after : List α) :
    ∃ front back, cut? mark (before ++ (mark ++ after)) = some (front, back) ∧ after <:+ back := by
  induction before with
  | nil =>
    cases hlist : mark ++ after with
    | nil =>
      obtain ⟨rfl, rfl⟩ := List.append_eq_nil_iff.mp hlist
      exact ⟨[], [], rfl, List.suffix_refl []⟩
    | cons a rest =>
      have hpre : mark.isPrefixOf? (a :: rest) = some after :=
        (isPrefixOf?_eq_some_iff _ _ _).mpr hlist.symm
      refine ⟨[], after, ?_, List.suffix_refl after⟩
      rw [List.nil_append, cut?, hpre]
  | cons a before ih =>
    rw [List.cons_append, cut?]
    cases hpre : mark.isPrefixOf? (a :: (before ++ (mark ++ after))) with
    | none =>
      obtain ⟨front, back, hcut, hback⟩ := ih
      exact ⟨a :: front, back, by rw [hcut]; rfl, hback⟩
    | some found =>
      refine ⟨[], found, rfl, ?_⟩
      have hlist := (isPrefixOf?_eq_some_iff _ _ _).mp hpre
      -- both are what the list ends with, and the longer one ends with the other
      have hfound : found <:+ a :: (before ++ (mark ++ after)) := hlist ▸ List.suffix_append mark found
      have hafter : after <:+ a :: (before ++ (mark ++ after)) :=
        ⟨a :: (before ++ mark), by simp⟩
      have hlength := congrArg List.length hlist
      simp only [List.length_cons, List.length_append] at hlength
      exact List.suffix_of_suffix_length_le hafter hfound (by omega)

/-! ## The first entry of a key -/

namespace Assoc

variable {κ β : Type} [BEq κ] [LawfulBEq κ] {key : κ} {value : β} {map map' : List (κ × β)}

/-- Where no key comes twice, a value is found when its entry is there. -/
theorem lookup_eq_some_iff_mem (hnodup : (map.map Prod.fst).Nodup) :
    map.lookup key = some value ↔ (key, value) ∈ map := by
  rw [List.lookup_eq_some_iff]
  constructor
  · intro h
    obtain ⟨front, back, rfl, -⟩ := h
    simp
  · intro h
    obtain ⟨front, back, rfl⟩ := List.append_of_mem h
    refine ⟨front, back, rfl, ?_⟩
    intro entry hentry
    rw [bne_iff_ne]
    intro heq
    rw [List.map_append, List.map_cons, List.nodup_append] at hnodup
    exact hnodup.2.2 entry.1 (List.mem_map_of_mem hentry) key List.mem_cons_self heq.symm

/-- There the order of the entries does not matter. -/
theorem lookup_eq_of_perm (hperm : map.Perm map') (hnodup : (map'.map Prod.fst).Nodup)
    (key : κ) : map.lookup key = map'.lookup key := by
  have hnodup' : (map.map Prod.fst).Nodup := (hperm.map Prod.fst).nodup_iff.mpr hnodup
  apply Option.ext
  intro value
  rw [lookup_eq_some_iff_mem hnodup', lookup_eq_some_iff_mem hnodup, hperm.mem_iff]

/-- An entry does not matter to other keys, nor after another one of its key. -/
theorem lookup_append_cons {front back : List (κ × β)} {entry : κ × β}
    (h : key = entry.1 → key ∈ front.map Prod.fst) :
    (front ++ entry :: back).lookup key = (front ++ back).lookup key := by
  rw [List.lookup_append, List.lookup_append]
  cases hfront : front.lookup key with
  | some value => rfl
  | none =>
    -- no entry before this one has the key, so this one has another key
    have hne : key ≠ entry.1 := by
      intro heq
      obtain ⟨other, hother, hkey⟩ := List.mem_map.mp (h heq)
      have hnone := List.lookup_eq_none_iff.mp hfront other hother
      rw [bne_iff_ne] at hnone
      exact hnone hkey.symm
    have hbeq : (key == entry.1) = false := beq_eq_false_iff_ne.mpr hne
    rw [List.lookup_cons, hbeq]

end Assoc

end Cattery
