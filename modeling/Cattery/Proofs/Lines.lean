import Cattery.Event.LineBuffer
import Mathlib.Data.List.Basic

namespace Cattery

section Split

variable {α : Type} [BEq α]

theorem splitOn_ne_nil (separator : α) (list : List α) : splitOn separator list ≠ [] := by
  fun_cases splitOn separator list <;> simp

variable [LawfulBEq α]

theorem splitOn_of_not_mem {separator : α} {piece : List α} (h : separator ∉ piece) :
    splitOn separator piece = [piece] := by
  induction piece with
  | nil => rfl
  | cons a rest ih =>
    have hne : a ≠ separator := fun heq => h (heq ▸ List.mem_cons_self)
    have hrest : separator ∉ rest := fun hmem => h (List.mem_cons_of_mem a hmem)
    simp [splitOn, hne, ih hrest]

theorem splitOn_append_cons {separator : α} {piece : List α} (h : separator ∉ piece)
    (rest : List α) :
    splitOn separator (piece ++ separator :: rest) = piece :: splitOn separator rest := by
  induction piece with
  | nil => simp [splitOn]
  | cons a piece ih =>
    have hne : a ≠ separator := fun heq => h (heq ▸ List.mem_cons_self)
    have hpiece : separator ∉ piece := fun hmem => h (List.mem_cons_of_mem a hmem)
    simp [splitOn, hne, ih hpiece]

/-- A separator parts what stands on its two sides. -/
theorem splitOn_append (separator : α) (front back : List α) :
    splitOn separator (front ++ separator :: back) =
      splitOn separator front ++ splitOn separator back := by
  induction front with
  | nil => simp [splitOn]
  | cons a front ih =>
    rw [List.cons_append, splitOn, splitOn, ih]
    split
    · rfl
    · cases hpieces : splitOn separator front with
      | nil => exact absurd hpieces (splitOn_ne_nil separator front)
      | cons piece pieces => rfl

/-- Pieces without separators are found between those that are put there. -/
theorem splitOn_intercalate {separator : α} {pieces : List (List α)} (hne : pieces ≠ [])
    (h : ∀ piece ∈ pieces, separator ∉ piece) :
    splitOn separator ([separator].intercalate pieces) = pieces := by
  induction pieces with
  | nil => exact absurd rfl hne
  | cons piece rest ih =>
    obtain ⟨hpiece, hrest⟩ := List.forall_mem_cons.mp h
    cases rest with
    | nil => rw [List.intercalate_singleton, splitOn_of_not_mem hpiece]
    | cons next rest =>
      rw [List.intercalate_cons_cons, List.append_assoc, List.singleton_append,
        splitOn_append_cons hpiece, ih (List.cons_ne_nil next rest) hrest]

theorem intercalate_splitOn (separator : α) (list : List α) :
    [separator].intercalate (splitOn separator list) = list := by
  induction list with
  | nil => rfl
  | cons a rest ih =>
    cases hpieces : splitOn separator rest with
    | nil => exact absurd hpieces (splitOn_ne_nil separator rest)
    | cons piece pieces =>
      rw [hpieces] at ih
      rw [splitOn, hpieces]
      split
      · rename_i heq
        rw [List.intercalate_cons_cons, ih, eq_of_beq heq]
        rfl
      · cases pieces with
        | nil => rw [List.intercalate_singleton, ← ih, List.intercalate_singleton]
        | cons next pieces =>
          rw [List.intercalate_cons_cons] at ih ⊢
          rw [← ih]
          rfl

theorem not_mem_of_mem_splitOn {separator : α} {list piece : List α}
    (h : piece ∈ splitOn separator list) : separator ∉ piece := by
  induction list generalizing piece with
  | nil =>
    rw [List.mem_singleton.mp h]
    exact List.not_mem_nil
  | cons a rest ih =>
    rw [splitOn] at h
    split at h
    · rcases List.mem_cons.mp h with rfl | hmem
      · exact List.not_mem_nil
      · exact ih hmem
    · rename_i hne
      cases hpieces : splitOn separator rest with
      | nil => exact absurd hpieces (splitOn_ne_nil separator rest)
      | cons first pieces =>
        rw [hpieces] at h ih
        rcases List.mem_cons.mp h with rfl | hmem
        · have hhead : separator ≠ a := by
            rintro rfl
            exact hne (beq_self_eq_true separator)
          exact List.not_mem_cons_of_ne_of_not_mem hhead (ih List.mem_cons_self)
        · exact ih (List.mem_cons_of_mem first hmem)

end Split

namespace LineBuffer

structure Lines (bytes : List UInt8) (lines : List (List UInt8)) (tail : List UInt8) : Prop where
  bytes_eq : bytes = lines.flatMap (· ++ [newline]) ++ tail
  lines_free : ∀ line ∈ lines, newline ∉ line
  tail_free : newline ∉ tail

theorem Lines.of_not_mem {tail : List UInt8} (h : newline ∉ tail) : Lines tail [] tail :=
  ⟨rfl, by simp, h⟩

theorem Lines.cons {line bytes : List UInt8} (hline : newline ∉ line) {lines : List (List UInt8)}
    {tail : List UInt8} (h : Lines bytes lines tail) :
    Lines (line ++ newline :: bytes) (line :: lines) tail where
  bytes_eq := by simp [h.bytes_eq]
  lines_free := by
    intro line' hmem
    rcases List.mem_cons.mp hmem with rfl | hmem
    · exact hline
    · exact h.lines_free line' hmem
  tail_free := h.tail_free

/-- Lines of a first part stay lines; the tail of the first part goes on in the second. -/
theorem Lines.append {bytes tail : List UInt8} {lines : List (List UInt8)}
    (h : Lines bytes lines tail) {bytes' tail' : List UInt8} {lines' : List (List UInt8)}
    (h' : Lines (tail ++ bytes') lines' tail') :
    Lines (bytes ++ bytes') (lines ++ lines') tail' where
  bytes_eq := by
    rw [h.bytes_eq, List.append_assoc, h'.bytes_eq, List.flatMap_append, List.append_assoc]
  lines_free := by
    intro line hmem
    rcases List.mem_append.mp hmem with hmem | hmem
    · exact h.lines_free line hmem
    · exact h'.lines_free line hmem
  tail_free := h'.tail_free

theorem exists_lines (bytes : List UInt8) : ∃ lines tail, Lines bytes lines tail := by
  induction bytes with
  | nil => exact ⟨[], [], Lines.of_not_mem List.not_mem_nil⟩
  | cons b rest ih =>
    obtain ⟨lines, tail, h⟩ := ih
    by_cases hb : b = newline
    · subst hb
      exact ⟨[] :: lines, tail, h.cons List.not_mem_nil⟩
    · -- the byte belongs to the first line, or to the tail when there is no line
      cases lines with
      | nil =>
        obtain rfl : rest = tail := by simpa using h.bytes_eq
        exact ⟨[], b :: rest, Lines.of_not_mem (by simp [Ne.symm hb, h.tail_free])⟩
      | cons line lines =>
        have hline : newline ∉ b :: line := by
          simp [Ne.symm hb, h.lines_free line List.mem_cons_self]
        refine ⟨(b :: line) :: lines, tail, by simp [h.bytes_eq], ?_, h.tail_free⟩
        intro line' hmem
        rcases List.mem_cons.mp hmem with rfl | hmem
        · exact hline
        · exact h.lines_free line' (List.mem_cons_of_mem line hmem)

theorem Lines.splitOn_eq {bytes tail : List UInt8} {lines : List (List UInt8)}
    (h : Lines bytes lines tail) : splitOn newline bytes = lines ++ [tail] := by
  obtain ⟨rfl, hlines, htail⟩ := h
  induction lines with
  | nil => exact splitOn_of_not_mem htail
  | cons line lines ih =>
    have hrest := ih fun line' hmem => hlines line' (List.mem_cons_of_mem line hmem)
    rw [List.flatMap_cons, List.append_assoc, List.append_assoc, List.singleton_append,
      splitOn_append_cons (hlines line List.mem_cons_self), hrest]
    rfl

/-- Bytes fall into lines in one way only. -/
theorem Lines.unique {bytes tail tail' : List UInt8} {lines lines' : List (List UInt8)}
    (h : Lines bytes lines tail) (h' : Lines bytes lines' tail') :
    lines = lines' ∧ tail = tail' := by
  have heq := h.splitOn_eq.symm.trans h'.splitOn_eq
  simpa using List.append_inj' heq rfl

def pushAll (buffer : LineBuffer) : List (List UInt8) → LineBuffer × List String
  | [] => (buffer, [])
  | bytes :: rest =>
    let (buffer, lines) := buffer.push bytes
    let (buffer, more) := buffer.pushAll rest
    (buffer, lines ++ more)

theorem push_eq {buffer : LineBuffer} {bytes tail : List UInt8} {lines : List (List UInt8)}
    (h : Lines (buffer.pending ++ bytes) lines tail) :
    buffer.push bytes = (⟨tail⟩, lines.map Utf8.decodeLossy) := by
  rw [push, h.splitOn_eq]
  simp

/-- However the stream is cut, its pieces complete the lines of the whole of it. The pending bytes
hold no newline, so that they are the start of the next line. -/
theorem pushAll_eq {buffer : LineBuffer} (hpending : newline ∉ buffer.pending)
    {pieces : List (List UInt8)} {tail : List UInt8} {lines : List (List UInt8)}
    (h : Lines (buffer.pending ++ pieces.flatten) lines tail) :
    buffer.pushAll pieces = (⟨tail⟩, lines.map Utf8.decodeLossy) := by
  induction pieces generalizing buffer lines with
  | nil =>
    rw [List.flatten_nil, List.append_nil] at h
    obtain ⟨rfl, rfl⟩ := h.unique (Lines.of_not_mem hpending)
    rfl
  | cons bytes rest ih =>
    -- the lines of the first piece, and those of the others after what it left pending
    obtain ⟨first, pending, hfirst⟩ := exists_lines (buffer.pending ++ bytes)
    obtain ⟨others, tail', hothers⟩ := exists_lines (pending ++ rest.flatten)
    have hall := hfirst.append hothers
    rw [List.append_assoc, ← List.flatten_cons] at hall
    obtain ⟨rfl, rfl⟩ := h.unique hall
    have hrest : (⟨pending⟩ : LineBuffer).pushAll rest =
        (⟨tail⟩, others.map Utf8.decodeLossy) := ih hfirst.tail_free hothers
    rw [pushAll, push_eq hfirst]
    simp [hrest]

theorem pushAll_empty {bytes tail : List UInt8} {lines : List (List UInt8)}
    (h : Lines bytes lines tail) {pieces : List (List UInt8)} (hpieces : pieces.flatten = bytes) :
    empty.pushAll pieces = (⟨tail⟩, lines.map Utf8.decodeLossy) := by
  rw [← hpieces] at h
  exact pushAll_eq List.not_mem_nil h

/-- The tail is given as text when it is not blank, and only then. -/
theorem tail?_eq_some_iff (tail : List UInt8) (text : String) :
    (⟨tail⟩ : LineBuffer).tail? = some text ↔
      text = Utf8.decodeLossy tail ∧ Text.isBlank text = false := by
  rw [tail?]
  split
  -- a blank tail is not given, and no text is both its decoding and not blank
  · rename_i hblank
    refine iff_of_false (by simp) ?_
    rintro ⟨rfl, hfree⟩
    rw [hblank] at hfree
    exact absurd hfree (by decide)
  · rename_i hblank
    rw [Bool.not_eq_true] at hblank
    constructor
    · rintro h
      obtain rfl : Utf8.decodeLossy tail = text := Option.some_inj.mp h
      exact ⟨rfl, hblank⟩
    · rintro ⟨rfl, -⟩
      rfl

end LineBuffer

end Cattery
