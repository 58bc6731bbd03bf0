import Cattery.Text.Blank
import Mathlib.Data.List.DropRight
import Mathlib.Data.List.Infix

theorem Cattery.isBlank_of_isDigit {c : Char} (h : c.isDigit = true) : isBlank c = false := by
  rw [Char.isDigit_iff_toNat] at h
  have hlow : 48 ≤ c.toNat := h.1
  have hhigh : c.toNat ≤ 57 := h.2
  simp [isBlank]
  omega

namespace Cattery.Chars

theorem trimStart_isSuffix (text : List Char) : trimStart text <:+ text :=
  List.dropWhile_suffix isBlank

theorem trimEnd_isPrefix (text : List Char) : trimEnd text <+: text :=
  List.rdropWhile_prefix isBlank text

theorem trim_isInfix (text : List Char) : trim text <:+: text :=
  (trimEnd_isPrefix (trimStart text)).isInfix.trans (trimStart_isSuffix text).isInfix

theorem head?_trimStart_not_blank (text : List Char) :
    ∀ c ∈ (trimStart text).head?, isBlank c = false := by
  intro c hc
  have hhead := List.head?_dropWhile_not isBlank text
  rw [trimStart, Option.mem_def] at hc
  rwa [hc] at hhead

theorem getLast?_trimEnd_not_blank (text : List Char) :
    ∀ c ∈ (trimEnd text).getLast?, isBlank c = false := by
  intro c hc
  rw [trimEnd, List.getLast?_reverse] at hc
  exact head?_trimStart_not_blank text.reverse c hc

theorem head?_trim_not_blank (text : List Char) :
    ∀ c ∈ (trim text).head?, isBlank c = false := by
  intro c hc
  -- dropping at the end keeps the first character of what is not empty
  obtain ⟨dropped, hdropped⟩ := trimEnd_isPrefix (trimStart text)
  apply head?_trimStart_not_blank text
  rw [← hdropped, List.head?_append, Option.mem_def]
  exact Option.or_eq_some_iff.mpr (Or.inl hc)

theorem getLast?_trim_not_blank (text : List Char) :
    ∀ c ∈ (trim text).getLast?, isBlank c = false :=
  getLast?_trimEnd_not_blank (trimStart text)

theorem trimStart_eq_self {text : List Char} (h : ∀ c ∈ text.head?, isBlank c = false) :
    trimStart text = text := by
  cases text with
  | nil => rfl
  | cons c rest => exact List.dropWhile_cons_of_neg (by simp [h c rfl])

theorem trimEnd_eq_self {text : List Char} (h : ∀ c ∈ text.getLast?, isBlank c = false) :
    trimEnd text = text := by
  have hstart : trimStart text.reverse = text.reverse :=
    trimStart_eq_self (by rwa [List.head?_reverse])
  rw [trimEnd, ← trimStart, hstart, List.reverse_reverse]

/-- The texts that trimming keeps. -/
theorem trim_eq_self_iff (text : List Char) :
    trim text = text ↔
      (∀ c ∈ text.head?, isBlank c = false) ∧ ∀ c ∈ text.getLast?, isBlank c = false := by
  constructor
  · intro h
    rw [← h]
    exact ⟨head?_trim_not_blank text, getLast?_trim_not_blank text⟩
  · rintro ⟨hhead, hlast⟩
    rw [trim, trimStart_eq_self hhead, trimEnd_eq_self hlast]

/-- A text between two characters that are not blank is trimmed. -/
theorem trim_eq_self_of_ends {text : List Char} {c d : Char} (hhead : text.head? = some c)
    (hlast : text.getLast? = some d) (hc : isBlank c = false) (hd : isBlank d = false) :
    trim text = text := by
  rw [trim_eq_self_iff, hhead, hlast]
  constructor
  · rintro _ ⟨⟩
    exact hc
  · rintro _ ⟨⟩
    exact hd

@[simp] theorem trim_trim (text : List Char) : trim (trim text) = trim text :=
  (trim_eq_self_iff _).mpr ⟨head?_trim_not_blank text, getLast?_trim_not_blank text⟩

/-- Blank characters around a text are dropped. -/
theorem trim_pad {front back : List Char} (hfront : ∀ c ∈ front, isBlank c = true)
    (hback : ∀ c ∈ back, isBlank c = true) (text : List Char) :
    trim (front ++ text ++ back) = trim text := by
  have hend (x : List Char) : trimEnd (x ++ back) = trimEnd x := by
    rw [trimEnd, List.reverse_append, List.dropWhile_append_of_pos (by simpa using hback)]
    rfl
  rw [trim, trimStart, List.append_assoc, List.dropWhile_append_of_pos hfront,
    List.dropWhile_append]
  split
  · rename_i hnil
    rw [List.dropWhile_eq_nil_iff.mpr hback, trim, trimStart, List.isEmpty_iff.mp hnil]
  · rw [hend]
    rfl

/-- Nothing is left of blank characters, and something of everything else. -/
theorem trim_eq_nil_iff (text : List Char) :
    trim text = [] ↔ ∀ c ∈ text, isBlank c = true := by
  constructor
  · intro h
    have hall : ∀ c ∈ trimStart text, isBlank c = true := by
      rw [trim, trimEnd, List.reverse_eq_nil_iff, List.dropWhile_eq_nil_iff] at h
      exact fun c hc => h c (List.mem_reverse.mpr hc)
    -- the first character left after trimming the start would not be blank
    cases hstart : trimStart text with
    | nil => exact List.dropWhile_eq_nil_iff.mp hstart
    | cons c rest =>
      have hhead := head?_trimStart_not_blank text c (by simp [hstart])
      rw [hall c (by simp [hstart])] at hhead
      cases hhead
  · intro h
    rw [trim, trimStart, List.dropWhile_eq_nil_iff.mpr h]
    rfl

theorem mem_trimStart {text : List Char} {c : Char} (hc : isBlank c = false) (h : c ∈ text) :
    c ∈ trimStart text := by
  rw [← List.takeWhile_append_dropWhile (p := isBlank) (l := text), List.mem_append] at h
  rcases h with hblank | hin
  · rw [List.mem_takeWhile_imp hblank] at hc
    cases hc
  · exact hin

/-- Trimming drops no character that is not blank. -/
theorem mem_trim {text : List Char} {c : Char} (hc : isBlank c = false) (h : c ∈ text) :
    c ∈ trim text :=
  List.mem_reverse.mpr (mem_trimStart hc (List.mem_reverse.mpr (mem_trimStart hc h)))

theorem filter_trimStart {text : List Char} {p : Char → Bool}
    (h : ∀ c ∈ text, isBlank c = true → p c = false) : (trimStart text).filter p = text.filter p := by
  have hdropped : (text.takeWhile isBlank).filter p = [] := by
    rw [List.filter_eq_nil_iff]
    intro c hc
    simp [h c ((List.takeWhile_sublist isBlank).subset hc) (List.mem_takeWhile_imp hc)]
  rw [← List.takeWhile_append_dropWhile (p := isBlank) (l := text), List.filter_append, hdropped,
    List.takeWhile_append_dropWhile]
  rfl

/-- What is picked out of a text is picked out of the trimmed text when no blank character is. -/
theorem filter_trim {text : List Char} {p : Char → Bool}
    (h : ∀ c ∈ text, isBlank c = true → p c = false) : (trim text).filter p = text.filter p := by
  have hstart : ∀ c ∈ (trimStart text).reverse, isBlank c = true → p c = false := fun c hc =>
    h c ((trimStart_isSuffix text).subset (List.mem_reverse.mp hc))
  calc (trim text).filter p
      = ((trimStart (trimStart text).reverse).filter p).reverse := List.filter_reverse
    _ = ((trimStart text).reverse.filter p).reverse := by rw [filter_trimStart hstart]
    _ = (trimStart text).filter p := by rw [List.filter_reverse, List.reverse_reverse]
    _ = text.filter p := filter_trimStart h

theorem trim_newlines (text : List Char) : trim (['\n'] ++ text ++ ['\n']) = trim text :=
  trim_pad (List.forall_mem_singleton.mpr rfl) (List.forall_mem_singleton.mpr rfl) text

end Cattery.Chars

namespace Cattery.Text

@[simp] theorem toList_trim (text : String) : (trim text).toList = Chars.trim text.toList :=
  String.toList_ofList

@[simp] theorem trim_trim (text : String) : trim (trim text) = trim text := by
  rw [← String.toList_inj]
  simp

theorem trim_eq_empty_iff (text : String) : trim text = "" ↔ isBlank text = true := by
  rw [← String.toList_inj, toList_trim, isBlank, List.all_eq_true]
  exact Chars.trim_eq_nil_iff text.toList

theorem nonBlank?_eq_none_iff (text : String) : nonBlank? text = none ↔ isBlank text = true := by
  rw [nonBlank?]
  cases isBlank text <;> simp

/-- A text that is not blank is kept as far as it is not trimmed. -/
theorem nonBlank?_eq_some_iff (text kept : String) :
    nonBlank? text = some kept ↔ trim text = kept ∧ kept ≠ "" := by
  rw [nonBlank?]
  cases hblank : isBlank text with
  | true =>
    have hempty : trim text = "" := (trim_eq_empty_iff text).mpr hblank
    simp [hempty, eq_comm]
  | false =>
    have hne : trim text ≠ "" := fun hempty => by
      rw [trim_eq_empty_iff, hblank] at hempty
      cases hempty
    constructor
    · intro h
      obtain rfl : trim text = kept := Option.some_inj.mp h
      exact ⟨rfl, hne⟩
    · rintro ⟨rfl, -⟩
      rfl

/-- What is kept of a text is kept again. -/
theorem nonBlank?_of_eq_some {text kept : String} (h : nonBlank? text = some kept) :
    nonBlank? kept = some kept := by
  obtain ⟨rfl, hne⟩ := (nonBlank?_eq_some_iff text kept).mp h
  exact (nonBlank?_eq_some_iff _ _).mpr ⟨trim_trim text, hne⟩

theorem trim_of_nonBlank? {text kept : String} (h : nonBlank? text = some kept) :
    trim kept = kept ∧ kept ≠ "" := by
  obtain ⟨rfl, hne⟩ := (nonBlank?_eq_some_iff text kept).mp h
  exact ⟨trim_trim text, hne⟩

end Cattery.Text
