import Cattery.Json.Meaning
import Cattery.Json.Printer
import Cattery.Proofs.Decimal
import Mathlib.Data.List.Basic

namespace Cattery

def Numeral.ofInt (value : Int) : Numeral :=
  { negative := value < 0
    whole := (Nat.toDigits 10 value.natAbs).map fun c => c.toNat - 48
    fraction := []
    exponent := none }

def Ends (rest : List Char) : Prop :=
  ∀ c ∈ rest.head?, Tree.isSpace c = true ∨ c = ',' ∨ c = ']' ∨ c = '\x7d'

theorem isSpace_cases {c : Char} (h : Tree.isSpace c = true) :
    c = ' ' ∨ c = '\n' ∨ c = '\r' ∨ c = '\t' := by
  simpa [Tree.isSpace, or_assoc] using h

theorem Ends.not_isDigit {rest : List Char} (h : Ends rest) :
    ∀ c ∈ rest.head?, c.isDigit = false := by
  intro c hc
  rcases h c hc with hspace | rfl | rfl | rfl
  · rcases isSpace_cases hspace with rfl | rfl | rfl | rfl <;> rfl
  · rfl
  · rfl
  · rfl

theorem Ends.append {space rest : List Char} (hspace : ∀ c ∈ space, Tree.isSpace c = true)
    (h : Ends rest) : Ends (space ++ rest) := by
  intro c hc
  cases space with
  | nil => exact h c hc
  | cons d space =>
    obtain rfl : d = c := by simpa using hc
    exact Or.inl (hspace d List.mem_cons_self)

theorem toDigits_head_ne_zero {n : Nat} (hn : n ≠ 0) {c : Char}
    (hc : c ∈ (Nat.toDigits 10 n).head?) : c ≠ '0' := by
  -- the first digit is that of the number without its last digit
  induction n using Nat.strongRecOn with
  | _ n ih =>
    by_cases hsmall : n < 10
    · rw [Nat.toDigits_of_lt_base hsmall, List.head?_cons, Option.mem_some_iff] at hc
      have hdigit : ∀ m < 10, m ≠ 0 → m.digitChar ≠ '0' := by decide
      rw [← hc]
      exact hdigit n hsmall hn
    · have hle : 10 ≤ n := Nat.not_lt.mp hsmall
      rw [Nat.toDigits_of_base_le (by decide) hle, List.head?_append_of_ne_nil _ (by simp)] at hc
      exact ih (n / 10) (by omega) (by omega) hc

theorem whole_ofInt_ne_zero_cons (value : Int) (d : Nat) (digits : List Nat) :
    (Numeral.ofInt value).whole ≠ 0 :: d :: digits := by
  intro h
  have hzero : value.natAbs ≠ 0 := by
    intro hzero
    simp [Numeral.ofInt, hzero] at h
  obtain ⟨c, tail, hdigits, hc, -⟩ := List.map_eq_cons_iff.mp h
  have hne : c ≠ '0' := toDigits_head_ne_zero hzero (by simp [hdigits])
  have hdigit : c.isDigit = true := isDigit_of_mem_toDigits (by rw [hdigits]; exact List.mem_cons_self)
  -- a digit of value zero is the character zero
  rw [Char.isDigit_iff_toNat] at hdigit
  apply hne
  apply Char.toNat_inj.mp
  have hval : '0'.toNat = 48 := rfl
  omega

theorem toList_toString_int (value : Int) :
    (toString value).toList =
      (if value < 0 then ['-'] else []) ++ Nat.toDigits 10 value.natAbs := by
  cases value with
  | ofNat n =>
    have hsign : ¬ Int.ofNat n < 0 := by simp
    rw [if_neg hsign, List.nil_append]
    exact String.toList_ofList
  | negSucc n =>
    have hsign : Int.negSucc n < 0 := Int.negSucc_lt_zero n
    have htext : toString (Int.negSucc n) = "-" ++ Nat.repr (n + 1) := rfl
    rw [if_pos hsign, htext, String.toList_append, Nat.toList_repr]
    rfl

theorem readNumeral?_whole {text rest : List Char} {whole : List Nat}
    (hdigits : takeDigits text = (whole, rest)) (hne : whole ≠ [])
    (hzero : ∀ d digits, whole ≠ 0 :: d :: digits) (hrest : Ends rest) :
    readNumeral? ('-' :: text) = some (⟨true, whole, [], none⟩, rest) ∧
      (text.head? ≠ some '-' →
        readNumeral? text = some (⟨false, whole, [], none⟩, rest)) := by
  -- neither a point nor an exponent follows the digits
  have hpoint : ∀ after, rest ≠ '.' :: after := by
    rintro after rfl
    exact absurd (hrest '.' rfl) (by decide)
  have hlower : ∀ after, rest ≠ 'e' :: after := by
    rintro after rfl
    exact absurd (hrest 'e' rfl) (by decide)
  have hupper : ∀ after, rest ≠ 'E' :: after := by
    rintro after rfl
    exact absurd (hrest 'E' rfl) (by decide)
  constructor
  · simp [readNumeral?, hdigits, hne, hzero]
  · intro hhead
    have hsign : ∀ after, text ≠ '-' :: after := by
      rintro after rfl
      simp at hhead
    simp [readNumeral?, hdigits, hne, hzero]

/-- The numeral of an integer is read from its text. -/
theorem readNumeral?_toString (value : Int) {rest : List Char} (hrest : Ends rest) :
    readNumeral? ((toString value).toList ++ rest) = some (Numeral.ofInt value, rest) := by
  have hdigits : takeDigits (Nat.toDigits 10 value.natAbs ++ rest) =
      ((Numeral.ofInt value).whole, rest) :=
    takeDigits_append (fun c hc => isDigit_of_mem_toDigits hc) hrest.not_isDigit
  have hne : (Numeral.ofInt value).whole ≠ [] := by simp [Numeral.ofInt]
  obtain ⟨hminus, hplain⟩ :=
    readNumeral?_whole hdigits hne (whole_ofInt_ne_zero_cons value) hrest
  rw [toList_toString_int]
  by_cases hsign : value < 0
  · rw [if_pos hsign, List.append_assoc, List.singleton_append, hminus]
    simp [Numeral.ofInt, hsign]
  · have hhead : (Nat.toDigits 10 value.natAbs ++ rest).head? ≠ some '-' := by
      rw [List.head?_append_of_ne_nil _ Nat.toDigits_ne_nil]
      intro hhead
      have hdigit := isDigit_of_mem_toDigits (List.mem_of_mem_head? hhead)
      exact absurd hdigit (by decide)
    rw [if_neg hsign, List.nil_append, hplain hhead]
    simp [Numeral.ofInt, hsign]

theorem int?_ofInt {value : Int} (h : FitsWord value) :
    (Numeral.ofInt value).int? = some value := by
  have hbounds : -9223372036854775808 ≤ value ∧ value < 18446744073709551616 := h
  have hnat : natOfDigits (Numeral.ofInt value).whole = value.natAbs := by
    rw [Numeral.ofInt, natOfDigits_map, Nat.ofDigitChars_ten_toDigits]
  have hlimit : Numeral.limit = 18446744073709551616 := rfl
  have hhalf : UInt64.size / 2 = 9223372036854775808 := rfl
  have hplain : ((Numeral.ofInt value).fraction.isEmpty &&
      (Numeral.ofInt value).exponent.isNone) = true := rfl
  unfold Numeral.int?
  simp only [hnat, hlimit, hhalf]
  by_cases hsign : value < 0
  · have hnegative : (Numeral.ofInt value).negative = true := decide_eq_true hsign
    have hlow : 0 < value.natAbs := by omega
    have hhigh : value.natAbs ≤ 9223372036854775808 := by omega
    have habs : -(value.natAbs : Int) = value := by omega
    simp only [hplain, hnegative, hlow, hhigh, habs, decide_true, Bool.and_self, if_true]
  · have hpositive : (Numeral.ofInt value).negative = false := decide_eq_false hsign
    have hhigh : value.natAbs < 18446744073709551616 := by omega
    have habs : (value.natAbs : Int) = value := by omega
    simp only [hplain, hpositive, hhigh, habs, if_true, Bool.false_eq_true, if_false]

namespace Hex

theorem digitValue?_digit {n : Nat} (h : n < 16) : digitValue? (digit n) = some n := by
  have hall : ∀ m < 16, digitValue? (digit m) = some m := by decide
  exact hall n h

theorem digits_four (n : Nat) :
    digits 4 n =
      [digit (n / 4096 % 16), digit (n / 256 % 16), digit (n / 16 % 16), digit (n % 16)] := by
  have hplaces : List.range 4 = [0, 1, 2, 3] := rfl
  have hlast : n / Nat.pow 16 (4 - 1 - 3) = n := Nat.div_one n
  rw [digits, hplaces, List.map_cons, List.map_cons, List.map_cons, List.map_cons, List.map_nil,
    hlast]

theorem wordValue?_digits {n : Nat} (h : n < 65536) :
    wordValue? (digit (n / 4096 % 16)) (digit (n / 256 % 16)) (digit (n / 16 % 16))
      (digit (n % 16)) = some n := by
  have hlt (m : Nat) : m % 16 < 16 := Nat.mod_lt m (by decide)
  have hsum : ((n / 4096 % 16 * 16 + n / 256 % 16) * 16 + n / 16 % 16) * 16 + n % 16 = n := by
    omega
  rw [wordValue?, digitValue?_digit (hlt _), digitValue?_digit (hlt _), digitValue?_digit (hlt _),
    digitValue?_digit (hlt _)]
  exact congrArg some hsum

end Hex

def Mark.ofChar (c : Char) : Mark :=
  if c.toNat < 0x20 ∧ c ∉ ['\x08', '\x0c', '\n', '\r', '\t'] then .unit c.toNat else .char c

theorem readMarks_escape {e c : Char} (he : e ≠ 'u') (h : Tree.escape? e = some c)
    (rest : List Char) :
    Tree.readMarks ('\\' :: e :: rest) =
      (Tree.readMarks rest).map fun (marks, after) => (.char c :: marks, after) := by
  rw [Tree.readMarks, h]
  · cases Tree.readMarks rest <;> rfl
  · rintro a b c d rest rfl
    exact absurd rfl he

theorem readMarks_plain {c : Char} (hquote : c ≠ '"') (hslash : c ≠ '\\')
    (hcontrol : ¬ c.toNat < 0x20) (rest : List Char) :
    Tree.readMarks (c :: rest) =
      (Tree.readMarks rest).map fun (marks, after) => (.char c :: marks, after) := by
  rw [Tree.readMarks, if_neg hcontrol]
  · exact hquote
  · rintro a b c d e rfl
    exact absurd rfl hslash
  · rintro e rest rfl
    exact absurd rfl hslash

theorem readMarks_unit {a b c d : Char} {n : Nat} (h : Hex.wordValue? a b c d = some n)
    (rest : List Char) :
    Tree.readMarks ('\\' :: 'u' :: a :: b :: c :: d :: rest) =
      (Tree.readMarks rest).map fun (marks, after) => (.unit n :: marks, after) := by
  rw [Tree.readMarks, h]
  cases Tree.readMarks rest <;> rfl

/-- Every character of a string is read as its mark. -/
theorem readMarks_escapedChar (c : Char) (rest : List Char) :
    Tree.readMarks (Json.escapedChar c ++ rest) =
      (Tree.readMarks rest).map fun (marks, after) => (Mark.ofChar c :: marks, after) := by
  unfold Json.escapedChar
  split
  · exact readMarks_escape (by decide) rfl rest
  · exact readMarks_escape (by decide) rfl rest
  · exact readMarks_escape (by decide) rfl rest
  · exact readMarks_escape (by decide) rfl rest
  · exact readMarks_escape (by decide) rfl rest
  · exact readMarks_escape (by decide) rfl rest
  · exact readMarks_escape (by decide) rfl rest
  · rename_i hquote hslash hb hf hn hr ht
    by_cases hcontrol : c.toNat < 0x20
    · have hplain : c ∉ ['\x08', '\x0c', '\n', '\r', '\t'] := by
        simp only [List.mem_cons, List.not_mem_nil, or_false, not_or]
        exact ⟨hb, hf, hn, hr, ht⟩
      have hmark : Mark.ofChar c = .unit c.toNat := if_pos ⟨hcontrol, hplain⟩
      have hword := Hex.wordValue?_digits (n := c.toNat) (by omega)
      rw [if_pos hcontrol, Hex.digits_four, hmark]
      exact readMarks_unit hword rest
    · have hmark : Mark.ofChar c = .char c := if_neg fun h => hcontrol h.1
      rw [if_neg hcontrol, hmark]
      exact readMarks_plain hquote hslash hcontrol rest

theorem spell?_ofChar_cons (c : Char) (marks : List Mark) :
    Mark.spell? (Mark.ofChar c :: marks) = (Mark.spell? marks).map (c :: ·) := by
  unfold Mark.ofChar
  split
  · rename_i hcontrol
    have hunit : c.toNat < 0xD800 := by omega
    rw [Mark.spell?.eq_def]
    simp only [hunit, decide_true, Bool.true_or, if_true, Char.ofNat_toNat]
  · rw [Mark.spell?]

theorem readMarks_flatMap_escapedChar (text after : List Char) :
    Tree.readMarks (text.flatMap Json.escapedChar ++ '"' :: after) =
      some (text.map Mark.ofChar, after) := by
  induction text with
  | nil => rfl
  | cons c text ih =>
    rw [List.flatMap_cons, List.append_assoc, readMarks_escapedChar, ih]
    rfl

theorem text?_map_ofChar (text : String) :
    Mark.text? (text.toList.map Mark.ofChar) = some text := by
  have hspell (chars : List Char) : Mark.spell? (chars.map Mark.ofChar) = some chars := by
    induction chars with
    | nil => rfl
    | cons c chars ih => rw [List.map_cons, spell?_ofChar_cons, ih, Option.map_some]
  rw [Mark.text?, hspell, Option.map_some, String.ofList_toList]

end Cattery
