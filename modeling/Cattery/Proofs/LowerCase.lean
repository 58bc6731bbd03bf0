import Cattery.Text.Lowercase
import Cattery.Proofs.Trim

namespace Cattery

namespace CaseTable

/-! ## The images of the table

Sets of code points are written as the bits of a number. That two of them have nothing in common
is then one conjunction of large numbers, instead of a comparison of every run with every other. -/

def bits (start stride : Nat) : Nat → Nat
  | 0 => 0
  | count + 1 => 1 <<< (start + stride * count) ||| bits start stride count

def mapped : List (Nat × Nat × Nat × Nat) → Nat
  | [] => 0
  | (first, last, stride, _) :: runs =>
    bits first stride ((last - first) / stride + 1) ||| mapped runs

def images : List (Nat × Nat × Nat × Nat) → Nat
  | [] => 0
  | (first, last, stride, image) :: runs =>
    bits image stride ((last - first) / stride + 1) ||| images runs

theorem testBit_bits (start stride : Nat) {count k : Nat} (h : k < count) :
    (bits start stride count).testBit (start + stride * k) = true := by
  induction count with
  | zero => omega
  | succ count ih =>
    rw [bits, Nat.testBit_or, Bool.or_eq_true]
    rcases Nat.lt_succ_iff_lt_or_eq.mp h with h | rfl
    · exact Or.inr (ih h)
    · exact Or.inl (by rw [Nat.one_shiftLeft, Nat.testBit_two_pow_self])

theorem exists_step_of_inRun {n first last stride image : Nat}
    (h : inRun n (first, last, stride, image) = true) :
    ∃ k < (last - first) / stride + 1, n = first + stride * k := by
  simp only [inRun, Bool.and_eq_true, decide_eq_true_eq, beq_iff_eq] at h
  obtain ⟨⟨hfirst, hlast⟩, hstep⟩ := h
  -- the distance from the start of the run is a multiple of the stride
  refine ⟨(n - first) / stride, Nat.lt_succ_iff.mpr (Nat.div_le_div_right (by omega)), ?_⟩
  have hdiv := Nat.div_add_mod (n - first) stride
  omega

theorem testBit_mapped {n : Nat} {run : Nat × Nat × Nat × Nat} (hn : inRun n run = true)
    {runs : List (Nat × Nat × Nat × Nat)} (h : run ∈ runs) :
    (mapped runs).testBit n = true := by
  induction runs with
  | nil => simp at h
  | cons other runs ih =>
    rw [mapped, Nat.testBit_or, Bool.or_eq_true]
    rcases List.mem_cons.mp h with rfl | h
    · obtain ⟨k, hk, rfl⟩ := exists_step_of_inRun hn
      exact Or.inl (testBit_bits _ _ hk)
    · exact Or.inr (ih h)

theorem testBit_images {n : Nat} {run : Nat × Nat × Nat × Nat} (hn : inRun n run = true)
    {runs : List (Nat × Nat × Nat × Nat)} (h : run ∈ runs) :
    (images runs).testBit (shift n run) = true := by
  induction runs with
  | nil => simp at h
  | cons other runs ih =>
    rw [images, Nat.testBit_or, Bool.or_eq_true]
    rcases List.mem_cons.mp h with rfl | h
    · obtain ⟨k, hk, rfl⟩ := exists_step_of_inRun hn
      rw [shift, Nat.add_sub_cancel_left]
      exact Or.inl (testBit_bits _ _ hk)
    · exact Or.inr (ih h)

/-- Runs of which no code point is an image. -/
theorem not_inRun_shift {runs : List (Nat × Nat × Nat × Nat)}
    (hruns : images lowerRuns &&& mapped runs = 0) {n : Nat} {run run' : Nat × Nat × Nat × Nat}
    (h : run ∈ lowerRuns) (hn : inRun n run = true) (h' : run' ∈ runs) :
    inRun (shift n run) run' = false := by
  rw [← Bool.not_eq_true]
  intro hn'
  -- the image would be a bit of both numbers
  have hand := Nat.testBit_and (images lowerRuns) (mapped runs) (shift n run)
  rw [hruns, testBit_images hn h, testBit_mapped hn' h', Nat.zero_testBit] at hand
  exact Bool.false_ne_true hand

/-- Code points that only themselves become: white space, the quotation mark and the closing
bracket. -/
def unmade : List (Nat × Nat × Nat × Nat) :=
  [(9, 13, 1, 9), (32, 32, 1, 32), (34, 34, 1, 34), (93, 93, 1, 93), (133, 133, 1, 133),
    (160, 160, 1, 160), (5760, 5760, 1, 5760), (8192, 8202, 1, 8192), (8232, 8233, 1, 8232),
    (8239, 8239, 1, 8239), (8287, 8287, 1, 8287), (12288, 12288, 1, 12288)]

def special : List (Nat × Nat × Nat × Nat) :=
  [(0x130, 0x130, 1, 0x130), (0x3A3, 0x3A3, 1, 0x3A3)]

theorem images_disjoint : images lowerRuns &&& mapped (special ++ lowerRuns ++ unmade) = 0 := by
  decide +kernel

theorem inRun_single_eq_false {n m : Nat} (image : Nat) (h : n ≠ m) :
    inRun n (m, m, 1, image) = false := by
  simp only [inRun, Nat.mod_one, Bool.and_eq_false_iff, decide_eq_false_iff_not]
  omega

theorem isValidChar_shift {n : Nat} {run : Nat × Nat × Nat × Nat} (h : run ∈ lowerRuns)
    (hn : inRun n run = true) : (shift n run).isValidChar := by
  -- the images of a run lie between its first and its last one, on one side of the surrogates
  have hall : (lowerRuns.all fun run => run.2.2.2 + (run.2.1 - run.1) < 0xD800 ||
      (0xDFFF < run.2.2.2 && run.2.2.2 + (run.2.1 - run.1) < 0x110000)) = true := by
    decide +kernel
  obtain ⟨first, last, stride, image⟩ := run
  have hrun := List.all_eq_true.mp hall _ h
  simp only [Bool.or_eq_true, Bool.and_eq_true, decide_eq_true_eq] at hrun
  simp only [inRun, Bool.and_eq_true, decide_eq_true_eq] at hn
  simp only [shift, Nat.isValidChar]
  omega

/-- The first run is the ASCII letters, and the others lie beyond ASCII. -/
theorem lowerRuns_eq_cons :
    ∃ runs, lowerRuns = (65, 90, 1, 97) :: runs ∧ ∀ run ∈ runs, 128 ≤ run.1 := by
  refine ⟨lowerRuns.tail, rfl, ?_⟩
  have hall : (lowerRuns.tail.all fun run => decide (128 ≤ run.1)) = true := by decide +kernel
  simpa using hall

theorem exists_inRun_unmade_of_isBlank {c : Char} (h : isBlank c = true) :
    ∃ run ∈ unmade, inRun c.toNat run = true := by
  simp only [isBlank, Bool.or_eq_true, Bool.and_eq_true, decide_eq_true_eq, beq_iff_eq] at h
  rw [← List.any_eq_true]
  simp only [unmade, inRun, List.any_cons, List.any_nil, Nat.mod_one, Bool.or_eq_true,
    Bool.and_eq_true, decide_eq_true_eq, beq_self_eq_true, and_true]
  omega

end CaseTable

/-! ## Single characters -/

namespace Chars

open CaseTable

theorem simpleLower_cases (c : Char) :
    ((∀ run ∈ lowerRuns, inRun c.toNat run = false) ∧ simpleLower c = c) ∨
      ∃ run ∈ lowerRuns, inRun c.toNat run = true ∧
        simpleLower c = Char.ofNat (shift c.toNat run) := by
  obtain ⟨runs, hruns, hbeyond⟩ := lowerRuns_eq_cons
  rw [simpleLower]
  -- ASCII is mapped without the table, as the first run says
  by_cases hascii : c.toNat < 128
  · have hletter : inRun c.toNat (65, 90, 1, 97) = ('A' ≤ c && c ≤ 'Z') := by
      have hle (a b : Char) : decide (a ≤ b) = decide (a.toNat ≤ b.toNat) := rfl
      simp [inRun, Nat.mod_one, hle]
    simp only [hascii, if_true, asciiLower]
    by_cases hc : ('A' ≤ c && c ≤ 'Z') = true
    · refine Or.inr ⟨_, hruns ▸ List.mem_cons_self, hletter.trans hc, ?_⟩
      simp only [inRun, Bool.and_eq_true, decide_eq_true_eq, hc] at hletter
      rw [if_pos hc, shift]
      congr 1
      omega
    · refine Or.inl ⟨fun run hrun => ?_, if_neg hc⟩
      rw [hruns] at hrun
      rcases List.mem_cons.mp hrun with rfl | hrun
      · simpa [hletter] using hc
      · have hfirst := hbeyond run hrun
        obtain ⟨first, last, stride, image⟩ := run
        simp only [inRun, Bool.and_eq_false_iff, decide_eq_false_iff_not]
        exact Or.inl (Or.inl (by omega))
  · simp only [hascii, if_false]
    split
    · rename_i run hfind
      exact Or.inr ⟨run, List.mem_of_find?_eq_some hfind, List.find?_some hfind, rfl⟩
    · rename_i hfind
      exact Or.inl ⟨by simpa using hfind, rfl⟩

theorem simpleLower_eq_self {c : Char} (h : ∀ run ∈ lowerRuns, inRun c.toNat run = false) :
    simpleLower c = c := by
  rcases simpleLower_cases c with ⟨-, hkept⟩ | ⟨run, hrun, hin, -⟩
  · exact hkept
  · rw [h run hrun] at hin
    exact absurd hin Bool.false_ne_true

/-- The image of a run is not mapped again, and is no character that only itself becomes. -/
theorem not_inRun_ofNat_shift {n : Nat} {run run' : Nat × Nat × Nat × Nat}
    (h : run ∈ lowerRuns) (hn : inRun n run = true)
    (h' : run' ∈ special ++ lowerRuns ++ unmade) :
    inRun (Char.ofNat (shift n run)).toNat run' = false := by
  have hvalid := isValidChar_shift h hn
  have htoNat : (Char.ofNat (shift n run)).toNat = shift n run := by
    rw [Char.ofNat, dif_pos hvalid]
    rfl
  rw [htoNat]
  exact not_inRun_shift images_disjoint h hn h'

def Settled (c : Char) : Prop :=
  ∀ before rest, lowerImage before c rest = [c]

theorem settled_of_not_inRun {c : Char}
    (h : ∀ run ∈ special ++ lowerRuns, inRun c.toNat run = false) : Settled c := by
  have hsigma : c.toNat ≠ 0x3A3 := by
    intro heq
    have hfree := h (0x3A3, 0x3A3, 1, 0x3A3) (by simp [special])
    simp [heq, inRun] at hfree
  have hdot : c.toNat ≠ 0x130 := by
    intro heq
    have hfree := h (0x130, 0x130, 1, 0x130) (by simp [special])
    simp [heq, inRun] at hfree
  have hkept : simpleLower c = c := simpleLower_eq_self fun run hrun => h run (by simp [hrun])
  intro before rest
  simp [lowerImage, hsigma, hdot, hkept]

theorem mem_lowerImage_cases {before rest : List Char} {c d : Char}
    (h : d ∈ lowerImage before c rest) :
    d ∈ [Char.ofNat 0x3C2, Char.ofNat 0x3C3, 'i', Char.ofNat 0x307] ∨
      (c.toNat ≠ 0x3A3 ∧ c.toNat ≠ 0x130 ∧ d = simpleLower c) := by
  rw [lowerImage] at h
  split at h
  -- the sigma becomes one of two letters, and the dotted capital a letter and a dot
  · left
    split at h <;> simp_all
  · rename_i hsigma
    split at h
    · left
      rcases List.mem_cons.mp h with rfl | h <;> simp_all
    · rename_i hdot
      exact Or.inr ⟨by simpa using hsigma, by simpa using hdot, by simpa using h⟩

theorem settled_of_mem_lowerImage {before rest : List Char} {c d : Char}
    (h : d ∈ lowerImage before c rest) : Settled d := by
  -- an image lies in no run, be it made by a special case, kept or shifted
  apply settled_of_not_inRun
  rcases mem_lowerImage_cases h with hd | ⟨hsigma, hdot, rfl⟩
  · have hall : ([Char.ofNat 0x3C2, Char.ofNat 0x3C3, 'i', Char.ofNat 0x307].all fun d =>
        (special ++ lowerRuns).all fun run => !inRun d.toNat run) = true := by decide +kernel
    intro run hrun
    simpa using List.all_eq_true.mp (List.all_eq_true.mp hall d hd) run hrun
  · rcases simpleLower_cases c with ⟨hfree, hkept⟩ | ⟨run, hrun, hin, himage⟩
    · rw [hkept]
      intro run hrun
      rcases List.mem_append.mp hrun with hspecial | hrun
      · rcases List.mem_pair.mp hspecial with rfl | rfl
        · exact inRun_single_eq_false _ hdot
        · exact inRun_single_eq_false _ hsigma
      · exact hfree run hrun
    · rw [himage]
      exact fun run' hrun' => not_inRun_ofNat_shift hrun hin (List.mem_append_left _ hrun')

/-- White space, quotation marks and closing brackets are the image of themselves alone. -/
theorem eq_of_mem_lowerImage {before rest : List Char} {c d : Char}
    (hd : ∃ run ∈ unmade, inRun d.toNat run = true) (h : d ∈ lowerImage before c rest) :
    d = c := by
  obtain ⟨run', hrun', hin'⟩ := hd
  rcases mem_lowerImage_cases h with hmade | ⟨-, -, rfl⟩
  · have hall : ([Char.ofNat 0x3C2, Char.ofNat 0x3C3, 'i', Char.ofNat 0x307].all fun d =>
        unmade.all fun run => !inRun d.toNat run) = true := by decide +kernel
    have hfree := List.all_eq_true.mp (List.all_eq_true.mp hall d hmade) run' hrun'
    simp [hin'] at hfree
  · rcases simpleLower_cases c with ⟨-, hkept⟩ | ⟨run, hrun, hin, himage⟩
    · exact hkept
    · rw [himage, not_inRun_ofNat_shift hrun hin (List.mem_append_right _ hrun')] at hin'
      exact absurd hin' Bool.false_ne_true

theorem lowerImage_ne_nil (before : List Char) (c : Char) (rest : List Char) :
    lowerImage before c rest ≠ [] := by
  rw [lowerImage]
  split
  · simp
  · split <;> simp

/-! ## Texts -/

theorem exists_mem_lowerImage {before text : List Char} {d : Char}
    (h : d ∈ lowerFrom before text) :
    ∃ c ∈ text, ∃ before rest, d ∈ lowerImage before c rest := by
  induction text generalizing before with
  | nil => simp [lowerFrom] at h
  | cons c rest ih =>
    rw [lowerFrom] at h
    rcases List.mem_append.mp h with h | h
    · exact ⟨c, List.mem_cons_self, before, rest, h⟩
    · obtain ⟨c', hc', himage⟩ := ih h
      exact ⟨c', List.mem_cons_of_mem c hc', himage⟩

theorem lowerFrom_eq_self {text : List Char} (h : ∀ c ∈ text, Settled c) (before : List Char) :
    lowerFrom before text = text := by
  induction text generalizing before with
  | nil => rfl
  | cons c rest ih =>
    rw [lowerFrom, h c List.mem_cons_self before rest,
      ih (fun c' hc' => h c' (List.mem_cons_of_mem c hc'))]
    rfl

@[simp] theorem lowercase_lowercase (text : List Char) :
    lowercase (lowercase text) = lowercase text := by
  apply lowerFrom_eq_self
  intro d hd
  obtain ⟨c, -, before, rest, himage⟩ := exists_mem_lowerImage hd
  exact settled_of_mem_lowerImage himage

/-- Lower case brings no white space, quotation mark or closing bracket into a text. -/
theorem mem_of_mem_lowercase {text : List Char} {d : Char}
    (hd : ∃ run ∈ unmade, inRun d.toNat run = true) (h : d ∈ lowercase text) : d ∈ text := by
  obtain ⟨c, hc, before, rest, himage⟩ := exists_mem_lowerImage h
  rwa [eq_of_mem_lowerImage hd himage]

theorem lowerFrom_concat (before text : List Char) (c : Char) :
    ∃ front, lowerFrom before (text ++ [c]) =
      front ++ lowerImage (text.reverse ++ before) c [] := by
  induction text generalizing before with
  | nil => exact ⟨[], by simp [lowerFrom]⟩
  | cons a text ih =>
    obtain ⟨front, hfront⟩ := ih (a :: before)
    refine ⟨lowerImage before a (text ++ [c]) ++ front, ?_⟩
    -- the characters before the last one pile up in reverse
    rw [List.cons_append, lowerFrom, hfront]
    simp

/-- Lower case keeps a text trimmed. -/
theorem trim_lowercase {text : List Char} (h : trim text = text) :
    trim (lowercase text) = lowercase text := by
  obtain ⟨hhead, hlast⟩ := (trim_eq_self_iff text).mp h
  -- a blank image is the character itself
  have hkept {before rest : List Char} {c d : Char} (hc : isBlank c = false)
      (hd : d ∈ lowerImage before c rest) : isBlank d = false := by
    rw [← Bool.not_eq_true]
    intro hblank
    rw [eq_of_mem_lowerImage (exists_inRun_unmade_of_isBlank hblank) hd] at hblank
    simp [hc] at hblank
  rw [trim_eq_self_iff, lowercase]
  constructor
  · intro d hd
    cases text with
    | nil => simp [lowerFrom] at hd
    | cons c rest =>
      rw [lowerFrom, List.head?_append_of_ne_nil _ (lowerImage_ne_nil [] c rest)] at hd
      exact hkept (hhead c rfl) (List.mem_of_mem_head? hd)
  · intro d hd
    rcases List.eq_nil_or_concat' text with rfl | ⟨init, c, rfl⟩
    · simp [lowerFrom] at hd
    · obtain ⟨front, hfront⟩ := lowerFrom_concat [] init c
      rw [hfront, List.getLast?_append_of_ne_nil _ (lowerImage_ne_nil _ c [])] at hd
      exact hkept (hlast c (by simp)) (List.mem_of_mem_getLast? hd)

/-! ## ASCII letters -/

theorem toNat_asciiLower (c : Char) :
    (asciiLower c).toNat = if 65 ≤ c.toNat ∧ c.toNat ≤ 90 then c.toNat + 32 else c.toNat := by
  have hcapital : ('A' ≤ c && c ≤ 'Z') = true ↔ 65 ≤ c.toNat ∧ c.toNat ≤ 90 := by
    rw [Bool.and_eq_true, decide_eq_true_eq, decide_eq_true_eq]
    exact Iff.rfl
  rw [asciiLower]
  by_cases h : 65 ≤ c.toNat ∧ c.toNat ≤ 90
  · have hvalid : (c.toNat + 32).isValidChar := Or.inl (by omega)
    rw [if_pos (hcapital.mpr h), if_pos h, Char.ofNat, dif_pos hvalid]
    rfl
  · rw [if_neg (mt hcapital.mp h), if_neg h]

theorem isBlank_asciiLower (c : Char) : isBlank (asciiLower c) = isBlank c := by
  have hnat := toNat_asciiLower c
  split_ifs at hnat with hcapital
  · -- no letter is blank, in either case
    have hsmall : isBlank (asciiLower c) = false := by
      simp [isBlank, hnat]
      omega
    have hlarge : isBlank c = false := by
      simp [isBlank]
      omega
    rw [hsmall, hlarge]
  · rw [isBlank, hnat, ← isBlank]

theorem trim_map_asciiLower (text : List Char) :
    trim (text.map asciiLower) = (trim text).map asciiLower := by
  have hblank : isBlank ∘ asciiLower = isBlank := funext isBlank_asciiLower
  simp only [trim, trimStart, trimEnd, List.dropWhile_map, ← List.map_reverse, hblank]

end Chars

@[simp] theorem Text.toList_lowercase (text : String) :
    (Text.lowercase text).toList = Chars.lowercase text.toList :=
  String.toList_ofList

end Cattery
