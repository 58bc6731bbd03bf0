import Cattery.Proofs.JsonText
import Mathlib.Data.List.TakeWhile

/-! The grammar of JSON text, apart from the reader. A derivation says that a text spells a tree; the
reader finds the tree of every text that has one, and no other. Derivations compose, so what is
known of a text is known of it inside a larger one. -/

namespace Cattery

/-- A reader that builds on what another one found leaves the same rest. -/
theorem exists_of_map_eq_some {α β γ : Type} {build : α → β} {found : Option (α × γ)} {result : β}
    {rest : γ} (h : (found.map fun pair => (build pair.1, pair.2)) = some (result, rest)) :
    ∃ part, found = some (part, rest) ∧ build part = result := by
  obtain ⟨⟨part, after⟩, hfound, heq⟩ := Option.map_eq_some_iff.mp h
  obtain ⟨hresult, rfl⟩ := Prod.mk.inj heq
  exact ⟨part, hfound, hresult⟩

/-! ## Digits -/

structure Digits (digits : List Nat) (text : List Char) : Prop where
  ne_nil : text ≠ []
  isDigit : ∀ c ∈ text, c.isDigit = true
  eq_map : digits = text.map fun c => c.toNat - 48

namespace Digits

variable {digits : List Nat} {text rest : List Char}

theorem digits_ne_nil (h : Digits digits text) : digits ≠ [] := by
  rw [h.eq_map]
  simpa using h.ne_nil

theorem isDigit_head? (h : Digits digits text) (rest : List Char) :
    ∀ c ∈ (text ++ rest).head?, c.isDigit = true := by
  intro c hc
  rw [List.head?_append_of_ne_nil _ h.ne_nil] at hc
  exact h.isDigit c (List.mem_of_mem_head? hc)

theorem takeDigits_eq (h : Digits digits text) (hrest : ∀ c ∈ rest.head?, c.isDigit = false) :
    takeDigits (text ++ rest) = (digits, rest) := by
  rw [takeDigits_append h.isDigit hrest, ← h.eq_map]

end Digits

theorem exists_digits {text rest : List Char} {digits : List Nat}
    (h : takeDigits text = (digits, rest)) (hne : digits ≠ []) :
    ∃ before, Digits digits before ∧ text = before ++ rest := by
  suffices ∃ before, (∀ c ∈ before, c.isDigit = true) ∧
      digits = before.map (fun c => c.toNat - 48) ∧ text = before ++ rest by
    obtain ⟨before, hdigit, hmap, rfl⟩ := this
    refine ⟨before, ⟨?_, hdigit, hmap⟩, rfl⟩
    rintro rfl
    exact hne hmap
  clear hne
  induction text generalizing digits with
  | nil =>
    obtain ⟨rfl, rfl⟩ := Prod.mk.inj h
    exact ⟨[], by simp, rfl, rfl⟩
  | cons c text ih =>
    rw [takeDigits, decimalDigit?_eq] at h
    by_cases hc : c.isDigit = true
    · rw [if_pos hc] at h
      obtain ⟨rfl, rfl⟩ := Prod.mk.inj h
      obtain ⟨before, hdigit, hmap, htext⟩ := ih rfl
      refine ⟨c :: before, List.forall_mem_cons.mpr ⟨hc, hdigit⟩, ?_, ?_⟩
      · rw [List.map_cons, ← hmap]
      · rw [List.cons_append, ← htext]
    · rw [if_neg hc] at h
      obtain ⟨rfl, rfl⟩ := Prod.mk.inj h
      exact ⟨[], by simp, rfl, rfl⟩

namespace Numeral

/-! ## Numerals -/

inductive Fraction : List Nat → List Char → Prop
  | none : Fraction [] []
  | point {digits : List Nat} {text : List Char} (h : Digits digits text) :
      Fraction digits ('.' :: text)

inductive Power : Int → List Char → Prop
  | plain {digits : List Nat} {text : List Char} (h : Digits digits text) :
      Power (natOfDigits digits) text
  | plus {digits : List Nat} {text : List Char} (h : Digits digits text) :
      Power (natOfDigits digits) ('+' :: text)
  | minus {digits : List Nat} {text : List Char} (h : Digits digits text) :
      Power (-natOfDigits digits) ('-' :: text)

inductive Tail : Option Int → List Char → Prop
  | none : Tail none []
  | lower {k : Int} {text : List Char} (h : Power k text) : Tail (some k) ('e' :: text)
  | upper {k : Int} {text : List Char} (h : Power k text) : Tail (some k) ('E' :: text)

inductive Sign : Bool → List Char → Prop
  | minus : Sign true ['-']
  | none : Sign false []

structure Written (x : Numeral) (text : List Char) : Prop where
  parts : ∃ sign whole fraction tail, Sign x.negative sign ∧ Digits x.whole whole ∧
    Fraction x.fraction fraction ∧ Tail x.exponent tail ∧
    text = sign ++ (whole ++ (fraction ++ tail))
  -- a zero in front stands alone
  leading (d : Nat) (digits : List Nat) : x.whole ≠ 0 :: d :: digits

/-! The reader goes through the parts in order. -/

def readSign (text : List Char) : Bool × List Char :=
  match text with
  | '-' :: rest => (true, rest)
  | _ => (false, text)

def readWhole? (text : List Char) : Option (List Nat × List Char) :=
  match takeDigits text with
  | ([], _) => none
  | (0 :: _ :: _, _) => none
  | found => some found

def readFraction? (text : List Char) : Option (List Nat × List Char) :=
  match text with
  | '.' :: rest =>
    match takeDigits rest with
    | ([], _) => none
    | found => some found
  | _ => some ([], text)

def readTail? (text : List Char) : Option (Option Int × List Char) :=
  match text with
  | 'e' :: rest | 'E' :: rest => (readExponent? rest).map fun (k, after) => (some k, after)
  | _ => some (none, text)

theorem readNumeral?_eq (text : List Char) :
    readNumeral? text =
      (readWhole? (readSign text).2).bind fun whole =>
        (readFraction? whole.2).bind fun fraction =>
          (readTail? fraction.2).bind fun tail =>
            some (⟨(readSign text).1, whole.1, fraction.1, tail.1⟩, tail.2) := by
  -- what comes after a part stands in each of its branches
  have hwhole (text : List Char) (f : List Nat × List Char → Option (Numeral × List Char)) :
      (readWhole? text).bind f = match takeDigits text with
        | ([], _) => none.bind f
        | (0 :: _ :: _, _) => none.bind f
        | found => (some found).bind f := by
    unfold readWhole?
    split <;> rfl
  have hfraction (text : List Char) (f : List Nat × List Char → Option (Numeral × List Char)) :
      (readFraction? text).bind f = match text with
        | '.' :: rest =>
          match takeDigits rest with
          | ([], _) => none.bind f
          | found => (some found).bind f
        | _ => (some ([], text)).bind f := by
    unfold readFraction?
    split
    · split <;> rfl
    · rfl
  have htail (text : List Char) (f : Option Int × List Char → Option (Numeral × List Char)) :
      (readTail? text).bind f = match text with
        | 'e' :: rest => ((readExponent? rest).map fun (k, after) => (some k, after)).bind f
        | 'E' :: rest => ((readExponent? rest).map fun (k, after) => (some k, after)).bind f
        | _ => (some (none, text)).bind f := by
    unfold readTail?
    split <;> rfl
  simp only [hwhole, hfraction, htail]
  rfl

section Parts

variable {digits : List Nat} {text rest : List Char} {k : Int} {exponent : Option Int}

theorem readSign_of_head?_ne (h : text.head? ≠ some '-') : readSign text = (false, text) := by
  unfold readSign
  split
  · exact absurd rfl h
  · rfl

theorem exists_sign (text : List Char) :
    ∃ sign, Sign (readSign text).1 sign ∧ text = sign ++ (readSign text).2 := by
  unfold readSign
  split
  · exact ⟨_, .minus, rfl⟩
  · exact ⟨_, .none, rfl⟩

theorem readWhole?_eq_some_iff :
    readWhole? text = some (digits, rest) ↔
      takeDigits text = (digits, rest) ∧ digits ≠ [] ∧ ∀ d more, digits ≠ 0 :: d :: more := by
  unfold readWhole?
  split
  · rename_i h
    simp only [h, Prod.mk.injEq, reduceCtorEq, false_iff]
    rintro ⟨⟨rfl, -⟩, hne, -⟩
    exact hne rfl
  · rename_i h
    simp only [h, Prod.mk.injEq, reduceCtorEq, false_iff]
    rintro ⟨⟨rfl, -⟩, -, hzero⟩
    exact hzero _ _ rfl
  · rename_i hnil hzero
    rw [Option.some_inj]
    refine ⟨fun h => ⟨h, ?_, ?_⟩, And.left⟩
    · rintro rfl
      exact hnil _ h
    · rintro d more rfl
      exact hzero _ _ _ h

theorem Fraction.readFraction?_eq (h : Fraction digits text)
    (hrest : ∀ c ∈ rest.head?, c.isDigit = false ∧ c ≠ '.') :
    readFraction? (text ++ rest) = some (digits, rest) := by
  cases h with
  | none =>
    rw [List.nil_append]
    unfold readFraction?
    split
    · exact absurd rfl (hrest '.' rfl).2
    · rfl
  | point h =>
    rw [List.cons_append, readFraction?, h.takeDigits_eq fun c hc => (hrest c hc).1]
    split
    · rename_i hnil
      exact absurd (Prod.mk.inj hnil).1 h.digits_ne_nil
    · rfl

theorem exists_fraction (h : readFraction? text = some (digits, rest)) :
    ∃ before, Fraction digits before ∧ text = before ++ rest := by
  unfold readFraction? at h
  split at h
  · split at h
    · cases h
    · rename_i hne
      obtain ⟨before, hdigits, rfl⟩ := exists_digits (Option.some_inj.mp h) (by
        rintro rfl
        exact hne _ (Option.some_inj.mp h))
      exact ⟨_, .point hdigits, rfl⟩
  · obtain ⟨rfl, rfl⟩ := Prod.mk.inj (Option.some_inj.mp h)
    exact ⟨_, .none, rfl⟩

theorem Power.readExponent?_eq (h : Power k text) (hrest : ∀ c ∈ rest.head?, c.isDigit = false) :
    readExponent? (text ++ rest) = some (k, rest) := by
  cases h with
  | plain h =>
    -- without a sign the first character is a digit, so the branches for signs do not apply
    have hsign : ∀ c ∈ (text ++ rest).head?, c ≠ '-' ∧ c ≠ '+' := by
      intro c hc
      have hdigit := h.isDigit_head? rest c hc
      constructor <;> (rintro rfl; exact absurd hdigit (by decide))
    unfold readExponent?
    split
    rename_i hmatch
    split at hmatch
    · rename_i heq
      exact absurd rfl (hsign '-' (by rw [heq]; rfl)).1
    · rename_i heq
      exact absurd rfl (hsign '+' (by rw [heq]; rfl)).2
    · obtain ⟨rfl, rfl⟩ := Prod.mk.inj hmatch
      simp [h.takeDigits_eq hrest, h.digits_ne_nil]
  | plus h => simp [readExponent?, h.takeDigits_eq hrest, h.digits_ne_nil]
  | minus h => simp [readExponent?, h.takeDigits_eq hrest, h.digits_ne_nil]

theorem exists_power (h : readExponent? text = some (k, rest)) :
    ∃ before, Power k before ∧ text = before ++ rest := by
  unfold readExponent? at h
  split at h
  rename_i negative inner hsign
  split at h
  · cases h
  · rename_i digits after hne hdigits
    obtain ⟨hk, rfl⟩ := Prod.mk.inj (Option.some_inj.mp h)
    obtain ⟨before, hbefore, rfl⟩ := exists_digits hdigits hne
    subst hk
    split at hsign
    · obtain ⟨rfl, rfl⟩ := Prod.mk.inj hsign
      exact ⟨_, .minus hbefore, rfl⟩
    · obtain ⟨rfl, rfl⟩ := Prod.mk.inj hsign
      exact ⟨_, .plus hbefore, rfl⟩
    · obtain ⟨rfl, rfl⟩ := Prod.mk.inj hsign
      exact ⟨_, .plain hbefore, rfl⟩

theorem Tail.readTail?_eq (h : Tail exponent text) (hrest : Ends rest) :
    readTail? (text ++ rest) = some (exponent, rest) := by
  cases h with
  | none =>
    rw [List.nil_append]
    unfold readTail?
    split
    · exact absurd (hrest 'e' rfl) (by decide)
    · exact absurd (hrest 'E' rfl) (by decide)
    · rfl
  | lower h => rw [List.cons_append, readTail?, h.readExponent?_eq hrest.not_isDigit, Option.map_some]
  | upper h => rw [List.cons_append, readTail?, h.readExponent?_eq hrest.not_isDigit, Option.map_some]

theorem exists_tail (h : readTail? text = some (exponent, rest)) :
    ∃ before, Tail exponent before ∧ text = before ++ rest := by
  unfold readTail? at h
  split at h
  · obtain ⟨k, hk, rfl⟩ := exists_of_map_eq_some h
    obtain ⟨before, hpower, rfl⟩ := exists_power hk
    exact ⟨_, .lower hpower, rfl⟩
  · obtain ⟨k, hk, rfl⟩ := exists_of_map_eq_some h
    obtain ⟨before, hpower, rfl⟩ := exists_power hk
    exact ⟨_, .upper hpower, rfl⟩
  · obtain ⟨rfl, rfl⟩ := Prod.mk.inj (Option.some_inj.mp h)
    exact ⟨_, .none, rfl⟩

end Parts

theorem Tail.head?_append {exponent : Option Int} {text rest : List Char} (h : Tail exponent text)
    (hrest : Ends rest) : ∀ c ∈ (text ++ rest).head?, c.isDigit = false ∧ c ≠ '.' := by
  intro c hc
  cases h with
  | none =>
    refine ⟨hrest.not_isDigit c hc, ?_⟩
    rintro rfl
    exact absurd (hrest '.' hc) (by decide)
  | lower h =>
    obtain rfl : 'e' = c := Option.some_inj.mp hc
    decide
  | upper h =>
    obtain rfl : 'E' = c := Option.some_inj.mp hc
    decide

theorem Fraction.head?_append {digits : List Nat} {text rest : List Char} (h : Fraction digits text)
    (hrest : ∀ c ∈ rest.head?, c.isDigit = false) :
    ∀ c ∈ (text ++ rest).head?, c.isDigit = false := by
  intro c hc
  cases h with
  | none => exact hrest c hc
  | point h =>
    obtain rfl : '.' = c := Option.some_inj.mp hc
    rfl

/-- A numeral is read up to what ends it. -/
theorem Written.readNumeral?_eq {x : Numeral} {text rest : List Char} (h : x.Written text)
    (hrest : Ends rest) : readNumeral? (text ++ rest) = some (x, rest) := by
  obtain ⟨sign, whole, fraction, tail, hsign, hwhole, hfraction, htail, rfl⟩ := h.parts
  -- each part ends where the next one starts, which is never with a digit
  have hafter := htail.head?_append hrest
  have hbehind := hfraction.head?_append fun c hc => (hafter c hc).1
  have hread : readSign (sign ++ (whole ++ (fraction ++ tail)) ++ rest) =
      (x.negative, whole ++ (fraction ++ (tail ++ rest))) := by
    simp only [List.append_assoc]
    generalize x.negative = negative at hsign
    cases hsign with
    | minus => rfl
    | none =>
      apply readSign_of_head?_ne
      intro hminus
      exact absurd (hwhole.isDigit_head? _ '-' hminus) (by decide)
  have hdigits : readWhole? (whole ++ (fraction ++ (tail ++ rest))) =
      some (x.whole, fraction ++ (tail ++ rest)) :=
    readWhole?_eq_some_iff.mpr ⟨hwhole.takeDigits_eq hbehind, hwhole.digits_ne_nil, h.leading⟩
  rw [Numeral.readNumeral?_eq, hread]
  simp only [hdigits, Option.bind_some, hfraction.readFraction?_eq hafter, htail.readTail?_eq hrest]

/-- What is read as a numeral spells it. -/
theorem exists_written {x : Numeral} {text rest : List Char}
    (h : readNumeral? text = some (x, rest)) : ∃ before, x.Written before ∧ text = before ++ rest := by
  rw [Numeral.readNumeral?_eq] at h
  obtain ⟨⟨digits, text'⟩, hwhole, h⟩ := Option.bind_eq_some_iff.mp h
  obtain ⟨⟨decimals, text''⟩, hfraction, h⟩ := Option.bind_eq_some_iff.mp h
  obtain ⟨⟨exponent, text'''⟩, htail, h⟩ := Option.bind_eq_some_iff.mp h
  obtain ⟨rfl, rfl⟩ := Prod.mk.inj (Option.some_inj.mp h)
  obtain ⟨htake, hne, hleading⟩ := readWhole?_eq_some_iff.mp hwhole
  obtain ⟨sign, hsign, htext⟩ := exists_sign text
  obtain ⟨whole, hdigits, hinner⟩ := exists_digits htake hne
  obtain ⟨fraction, hpoint, rfl⟩ := exists_fraction hfraction
  obtain ⟨tail, he, rfl⟩ := exists_tail htail
  refine ⟨sign ++ (whole ++ (fraction ++ tail)),
    ⟨⟨sign, whole, fraction, tail, hsign, hdigits, hpoint, he, rfl⟩, hleading⟩, ?_⟩
  rw [htext, hinner]
  simp only [List.append_assoc]

end Numeral

/-! ## Strings -/

namespace Mark

inductive Written : List Mark → List Char → Prop
  | nil : Written [] []
  | plain {c : Char} {marks : List Mark} {text : List Char} (hquote : c ≠ '"') (hslash : c ≠ '\\')
      (hcontrol : ¬ c.toNat < 0x20) (rest : Written marks text) :
      Written (.char c :: marks) (c :: text)
  | escape {e c : Char} {marks : List Mark} {text : List Char} (h : Tree.escape? e = some c)
      (rest : Written marks text) : Written (.char c :: marks) ('\\' :: e :: text)
  | unit {a b c d : Char} {n : Nat} {marks : List Mark} {text : List Char}
      (h : Hex.wordValue? a b c d = some n) (rest : Written marks text) :
      Written (.unit n :: marks) ('\\' :: 'u' :: a :: b :: c :: d :: text)

theorem Written.readMarks_eq {marks : List Mark} {text : List Char} (h : Written marks text)
    (after : List Char) : Tree.readMarks (text ++ '"' :: after) = some (marks, after) := by
  induction h with
  | nil => rfl
  | plain hquote hslash hcontrol _ ih =>
    rw [List.cons_append, readMarks_plain hquote hslash hcontrol, ih, Option.map_some]
  | @escape e c _ _ h _ ih =>
    -- `u` is not among the short escapes, so the reader does not take this for a code unit
    have he : e ≠ 'u' := by
      rintro rfl
      cases h
    rw [List.cons_append, List.cons_append, readMarks_escape he h, ih, Option.map_some]
  | unit h _ ih =>
    rw [List.cons_append, List.cons_append, List.cons_append, List.cons_append, List.cons_append,
      List.cons_append, readMarks_unit h, ih, Option.map_some]

theorem exists_written {text after : List Char} {marks : List Mark}
    (h : Tree.readMarks text = some (marks, after)) :
    ∃ inner, Written marks inner ∧ text = inner ++ '"' :: after := by
  induction text using Tree.readMarks.induct generalizing marks with
  | case1 => cases h
  | case2 rest =>
    obtain ⟨rfl, rfl⟩ := Prod.mk.inj (Option.some_inj.mp h)
    exact ⟨[], .nil, rfl⟩
  | case3 a b c d rest n _ _ _ hword ih =>
    rw [readMarks_unit hword] at h
    obtain ⟨marks, hmarks, rfl⟩ := exists_of_map_eq_some h
    obtain ⟨before, hwritten, rfl⟩ := ih hmarks
    exact ⟨_, .unit hword hwritten, rfl⟩
  | case4 a b c d rest hnone =>
    rw [Tree.readMarks] at h
    split at h
    · rename_i hword hmarks
      exact absurd hmarks (hnone _ _ _ hword)
    · cases h
  | case5 e rest _ c _ _ _ hescape ih =>
    have he : e ≠ 'u' := by
      rintro rfl
      cases hescape
    rw [readMarks_escape he hescape] at h
    obtain ⟨marks, hmarks, rfl⟩ := exists_of_map_eq_some h
    obtain ⟨before, hwritten, rfl⟩ := ih hmarks
    exact ⟨_, .escape hescape hwritten, rfl⟩
  | case6 e rest hunit hnone =>
    rw [Tree.readMarks.eq_4 _ _ hunit] at h
    split at h
    · rename_i hescape hmarks
      exact absurd hmarks (hnone _ _ _ hescape)
    · cases h
  | case7 c rest hquote hunit hslash hcontrol =>
    rw [Tree.readMarks.eq_5 _ _ hquote hunit hslash, if_pos hcontrol] at h
    cases h
  | case8 c rest hquote hunit hslash hcontrol ih =>
    by_cases hc : c = '\\'
    · -- a single backslash ends the text
      subst hc
      cases rest with
      | nil => cases h
      | cons d rest => exact absurd rfl (hslash d rest rfl)
    · rw [readMarks_plain hquote hc hcontrol] at h
      obtain ⟨marks, hmarks, rfl⟩ := exists_of_map_eq_some h
      obtain ⟨before, hwritten, rfl⟩ := ih hmarks
      exact ⟨_, .plain hquote hc hcontrol hwritten, rfl⟩

end Mark

/-! ## Trees -/

namespace Tree

abbrev Space (text : List Char) : Prop :=
  ∀ c ∈ text, isSpace c = true

mutual

inductive Written : Tree → List Char → Prop
  | null : Written .null ['n', 'u', 'l', 'l']
  | boolTrue : Written (.bool true) ['t', 'r', 'u', 'e']
  | boolFalse : Written (.bool false) ['f', 'a', 'l', 's', 'e']
  | numeral {x : Numeral} {text : List Char} (h : x.Written text) : Written (.numeral x) text
  | string {marks : List Mark} {text : List Char} (h : Mark.Written marks text) :
      Written (.string marks) ('"' :: (text ++ ['"']))
  | emptyArray {space : List Char} (hspace : Space space) :
      Written (.array []) ('[' :: (space ++ [']']))
  | array {items : List Tree} {text : List Char} (h : WrittenItems items text) :
      Written (.array items) ('[' :: (text ++ [']']))
  | emptyObject {space : List Char} (hspace : Space space) :
      Written (.object []) ('\x7b' :: (space ++ ['\x7d']))
  | object {members : List (List Mark × Tree)} {text : List Char}
      (h : WrittenMembers members text) : Written (.object members) ('\x7b' :: (text ++ ['\x7d']))

inductive Padded : Tree → List Char → Prop
  | pad {tree : Tree} {left text right : List Char} (hleft : Space left) (h : Written tree text)
      (hright : Space right) : Padded tree (left ++ (text ++ right))

inductive WrittenItems : List Tree → List Char → Prop
  | last {item : Tree} {text : List Char} (h : Padded item text) : WrittenItems [item] text
  | more {item : Tree} {items : List Tree} {text others : List Char} (h : Padded item text)
      (rest : WrittenItems items others) : WrittenItems (item :: items) (text ++ ',' :: others)

inductive WrittenMember : List Mark × Tree → List Char → Prop
  | member {key : List Mark} {value : Tree} {left chars gap text : List Char} (hleft : Space left)
      (hkey : Mark.Written key chars) (hgap : Space gap) (h : Padded value text) :
      WrittenMember (key, value) (left ++ '"' :: (chars ++ '"' :: (gap ++ ':' :: text)))

inductive WrittenMembers : List (List Mark × Tree) → List Char → Prop
  | last {member : List Mark × Tree} {text : List Char} (h : WrittenMember member text) :
      WrittenMembers [member] text
  | more {member : List Mark × Tree} {members : List (List Mark × Tree)} {text others : List Char}
      (h : WrittenMember member text) (rest : WrittenMembers members others) :
      WrittenMembers (member :: members) (text ++ ',' :: others)

end

variable {fuel : Nat} {tree : Tree} {text rest space : List Char}

theorem exists_head_numeral {x : Numeral} (h : x.Written text) :
    ∃ c after, text = c :: after ∧ (c = '-' ∨ c.isDigit = true) := by
  obtain ⟨sign, whole, fraction, tail, hsign, hwhole, -, -, rfl⟩ := h.parts
  generalize x.negative = negative at hsign
  cases hsign with
  | minus => exact ⟨_, _, rfl, Or.inl rfl⟩
  | none =>
    obtain ⟨d, digits, rfl⟩ := List.exists_cons_of_ne_nil hwhole.ne_nil
    exact ⟨_, _, rfl, Or.inr (hwhole.isDigit d List.mem_cons_self)⟩

/-- No value starts with white space or with a bracket that closes. -/
theorem Written.exists_head (h : Written tree text) :
    ∃ c after, text = c :: after ∧ isSpace c = false ∧ c ≠ ']' ∧ c ≠ '\x7d' := by
  cases h with
  | numeral h =>
    obtain ⟨c, after, rfl, hc⟩ := exists_head_numeral h
    refine ⟨c, after, rfl, ?_, ?_, ?_⟩
    · cases hspace : isSpace c with
      | false => rfl
      | true =>
        rcases isSpace_cases hspace with rfl | rfl | rfl | rfl <;> exact absurd hc (by decide)
    · rintro rfl
      exact absurd hc (by decide)
    · rintro rfl
      exact absurd hc (by decide)
  | _ => exact ⟨_, _, rfl, rfl, by decide, by decide⟩

/-! ## The reader finds the tree -/

theorem skipSpace_ne_of_written {c : Char} (hspace : Space space) (h : Written tree text)
    (hc : c = ']' ∨ c = '\x7d') (after : List Char) :
    skipSpace (space ++ (text ++ rest)) ≠ c :: after := by
  obtain ⟨d, inner, rfl, hd, hbracket, hbrace⟩ := h.exists_head
  rw [skipSpace_append hspace, List.cons_append, skipSpace_cons hd]
  rintro heq
  obtain rfl := (List.cons.inj heq).1
  rcases hc with rfl | rfl
  · exact hbracket rfl
  · exact hbrace rfl

theorem WrittenItems.skipSpace_ne {items : List Tree} (h : WrittenItems items text)
    (rest after : List Char) : skipSpace (text ++ rest) ≠ ']' :: after := by
  cases h with
  | last h =>
    cases h with
    | pad hleft h hright =>
      rw [List.append_assoc, List.append_assoc]
      exact skipSpace_ne_of_written hleft h (Or.inl rfl) after
  | more h others =>
    cases h with
    | pad hleft h hright =>
      rw [List.append_assoc, List.append_assoc, List.append_assoc]
      exact skipSpace_ne_of_written hleft h (Or.inl rfl) after

theorem WrittenMember.skipSpace_ne {member : List Mark × Tree} (h : WrittenMember member text)
    (rest after : List Char) : skipSpace (text ++ rest) ≠ '\x7d' :: after := by
  cases h with
  | member hleft hkey hgap h =>
    rw [List.append_assoc, skipSpace_append hleft, List.cons_append, skipSpace_cons rfl]
    intro heq
    exact absurd (List.cons.inj heq).1 (by decide)

theorem WrittenMembers.skipSpace_ne {members : List (List Mark × Tree)}
    (h : WrittenMembers members text) (rest after : List Char) :
    skipSpace (text ++ rest) ≠ '\x7d' :: after := by
  cases h with
  | last h => exact h.skipSpace_ne rest after
  | more h others =>
    rw [List.append_assoc]
    exact h.skipSpace_ne _ after

def Reads (tree : Tree) : Prop :=
  ∀ {fuel : Nat} {text rest : List Char}, Written tree text → 2 * text.length ≤ fuel + 1 →
    Ends rest → readValue fuel (text ++ rest) = some (tree, rest)

theorem Reads.readValue_pad (hread : Reads tree) {left right : List Char} (hleft : Space left)
    (h : Written tree text) (hright : Space right) (hfuel : 2 * text.length ≤ fuel + 1)
    (hrest : Ends rest) :
    readValue fuel (left ++ (text ++ (right ++ rest))) = some (tree, right ++ rest) := by
  rw [readValue_append hleft]
  exact hread h hfuel (Ends.append hright hrest)

theorem exists_fuel_of_written (h : Written tree text) (hfuel : 2 * text.length ≤ fuel + 1) :
    ∃ less, fuel = less + 1 := by
  obtain ⟨c, after, rfl, -⟩ := h.exists_head
  rw [List.length_cons] at hfuel
  exact ⟨fuel - 1, by omega⟩

theorem WrittenMember.readMembers_eq {key : List Mark} {value : Tree}
    (h : WrittenMember (key, value) text) (hread : Reads value) (hfuel : 2 * text.length ≤ fuel) :
    ∃ less, fuel = less + 1 ∧
      (∀ rest, readMembers fuel (text ++ '\x7d' :: rest) = some ([(key, value)], rest)) ∧
      ∀ rest, readMembers fuel (text ++ ',' :: rest) =
        (readMembers less rest).map fun (members, after) => ((key, value) :: members, after) := by
  cases h with
  | @member _ _ left chars gap _ hleft hkey hgap h =>
    cases h with
    | @pad _ before inner behind hbefore h hbehind =>
      simp only [List.length_append, List.length_cons] at hfuel
      obtain ⟨less, rfl⟩ : ∃ less, fuel = less + 1 := ⟨fuel - 1, by omega⟩
      have hvalue {rest : List Char} (hrest : Ends rest) :
          readValue less (before ++ (inner ++ (behind ++ rest))) = some (value, behind ++ rest) :=
        hread.readValue_pad hbefore h hbehind (by omega) hrest
      refine ⟨less, rfl, ?_, ?_⟩
      · intro rest
        simp only [List.append_assoc, List.cons_append]
        rw [readMembers_append hleft]
        exact readMembers_last hgap hbehind (hkey.readMarks_eq _) (hvalue (by simp [Ends]))
      · intro rest
        simp only [List.append_assoc, List.cons_append]
        rw [readMembers_append hleft]
        exact readMembers_more hgap hbehind (hkey.readMarks_eq _) (hvalue (by simp [Ends]))

theorem Padded.readItems_eq {item : Tree} (h : Padded item text) (hread : Reads item)
    (hfuel : 2 * text.length ≤ fuel) :
    ∃ less, fuel = less + 1 ∧
      (∀ rest, readItems fuel (text ++ ']' :: rest) = some ([item], rest)) ∧
      ∀ rest, readItems fuel (text ++ ',' :: rest) =
        (readItems less rest).map fun (items, after) => (item :: items, after) := by
  cases h with
  | @pad _ before inner behind hbefore h hbehind =>
    simp only [List.length_append] at hfuel
    have hinner : 2 * inner.length ≤ fuel + 1 := by omega
    obtain ⟨less, rfl⟩ := exists_fuel_of_written h hinner
    have hvalue {rest : List Char} (hrest : Ends rest) :
        readValue less (before ++ (inner ++ (behind ++ rest))) = some (item, behind ++ rest) :=
      hread.readValue_pad hbefore h hbehind (by omega) hrest
    refine ⟨less, rfl, ?_, ?_⟩
    · intro rest
      rw [List.append_assoc, List.append_assoc]
      exact readItems_last hbehind (hvalue (by simp [Ends]))
    · intro rest
      rw [List.append_assoc, List.append_assoc]
      exact readItems_more hbehind (hvalue (by simp [Ends]))

mutual

theorem reads : (tree : Tree) → Reads tree
  | .null, fuel, text, rest, h, hfuel, _ => by
    obtain ⟨fuel, rfl⟩ := exists_fuel_of_written h hfuel
    cases h
    rw [List.cons_append, readValue, skipSpace_cons rfl]
    rfl
  | .bool b, fuel, text, rest, h, hfuel, _ => by
    obtain ⟨fuel, rfl⟩ := exists_fuel_of_written h hfuel
    cases h with
    | boolTrue =>
      rw [List.cons_append, readValue, skipSpace_cons rfl]
      rfl
    | boolFalse =>
      rw [List.cons_append, readValue, skipSpace_cons rfl]
      rfl
  | .numeral x, fuel, text, rest, h, hfuel, hrest => by
    obtain ⟨fuel, rfl⟩ := exists_fuel_of_written h hfuel
    cases h with
    | numeral h =>
      have hread := h.readNumeral?_eq hrest
      obtain ⟨c, after, rfl, hc⟩ := exists_head_numeral h
      rw [List.cons_append] at hread ⊢
      rw [readValue_numeral hc, hread, Option.map_some]
  | .string marks, fuel, text, rest, h, hfuel, _ => by
    obtain ⟨fuel, rfl⟩ := exists_fuel_of_written h hfuel
    cases h with
    | string h =>
      rw [List.cons_append, List.append_assoc, List.singleton_append]
      exact readValue_string (h.readMarks_eq rest)
  | .array items, fuel, text, rest, h, hfuel, _ => by
    obtain ⟨fuel, rfl⟩ := exists_fuel_of_written h hfuel
    cases h with
    | emptyArray hspace =>
      rw [List.cons_append, List.append_assoc, List.singleton_append, readValue, skipSpace_cons rfl]
      simp only [skipSpace_append hspace, skipSpace_cons (c := ']') rfl]
    | array h =>
      simp only [List.length_append, List.length_cons, List.length_nil] at hfuel
      rw [List.cons_append, List.append_assoc, List.singleton_append,
        readValue_array (h.skipSpace_ne _), readItems_written items h (by omega), Option.map_some]
  | .object members, fuel, text, rest, h, hfuel, _ => by
    obtain ⟨fuel, rfl⟩ := exists_fuel_of_written h hfuel
    cases h with
    | emptyObject hspace =>
      rw [List.cons_append, List.append_assoc, List.singleton_append, readValue, skipSpace_cons rfl]
      simp only [skipSpace_append hspace, skipSpace_cons (c := '\x7d') rfl]
    | object h =>
      simp only [List.length_append, List.length_cons, List.length_nil] at hfuel
      rw [List.cons_append, List.append_assoc, List.singleton_append,
        readValue_object (h.skipSpace_ne _), readMembers_written members h (by omega),
        Option.map_some]

theorem readItems_written : (items : List Tree) → {fuel : Nat} → {text rest : List Char} →
    WrittenItems items text → 2 * text.length ≤ fuel →
    readItems fuel (text ++ ']' :: rest) = some (items, rest)
  | [], fuel, text, rest, h, hfuel => by cases h
  | item :: items, fuel, text, rest, h, hfuel => by
    have hitem : Reads item := reads item
    -- an element spends fuel, but its text and the comma are longer than what it spends
    cases h with
    | last h =>
      obtain ⟨less, -, hlast, -⟩ := h.readItems_eq hitem hfuel
      exact hlast rest
    | @more _ _ first _ h others =>
      rw [List.length_append, List.length_cons] at hfuel
      have hfirst : 2 * first.length ≤ fuel := by omega
      obtain ⟨less, rfl, -, hmore⟩ := h.readItems_eq hitem hfirst
      rw [List.append_assoc, List.cons_append, hmore, readItems_written items others (by omega),
        Option.map_some]

theorem readMembers_written : (members : List (List Mark × Tree)) → {fuel : Nat} →
    {text rest : List Char} → WrittenMembers members text → 2 * text.length ≤ fuel →
    readMembers fuel (text ++ '\x7d' :: rest) = some (members, rest)
  | [], fuel, text, rest, h, hfuel => by cases h
  | (key, value) :: members, fuel, text, rest, h, hfuel => by
    have hvalue : Reads value := reads value
    cases h with
    | last h =>
      obtain ⟨less, -, hlast, -⟩ := h.readMembers_eq hvalue hfuel
      exact hlast rest
    | @more _ _ first _ h others =>
      rw [List.length_append, List.length_cons] at hfuel
      have hfirst : 2 * first.length ≤ fuel := by omega
      obtain ⟨less, rfl, -, hmore⟩ := h.readMembers_eq hvalue hfirst
      rw [List.append_assoc, List.cons_append, hmore, readMembers_written members others (by omega),
        Option.map_some]

end

/-! ## What the reader finds spells the text -/

theorem exists_space (text : List Char) : ∃ space, Space space ∧ text = space ++ skipSpace text :=
  ⟨text.takeWhile isSpace, fun _ hc => List.mem_takeWhile_imp hc,
    List.takeWhile_append_dropWhile.symm⟩

structure Sound (fuel : Nat) : Prop where
  value {tree : Tree} {text rest : List Char} (h : readValue fuel text = some (tree, rest)) :
    ∃ left inner, Space left ∧ Written tree inner ∧ text = left ++ (inner ++ rest)
  items {items : List Tree} {text rest : List Char} (h : readItems fuel text = some (items, rest)) :
    ∃ inner, WrittenItems items inner ∧ text = inner ++ ']' :: rest
  members {members : List (List Mark × Tree)} {text rest : List Char}
    (h : readMembers fuel text = some (members, rest)) :
    ∃ inner, WrittenMembers members inner ∧ text = inner ++ '\x7d' :: rest

theorem sound_zero : Sound 0 where
  value h := by cases h
  items h := by cases h
  members h := by cases h

/-- A value with the white space behind it, up to a character that is none. -/
theorem Sound.padded (hsound : Sound fuel) {c : Char} {after : List Char}
    (h : readValue fuel text = some (tree, rest)) (hrest : skipSpace rest = c :: after) :
    ∃ inner, Padded tree inner ∧ text = inner ++ c :: after := by
  obtain ⟨left, inner, hleft, hwritten, rfl⟩ := hsound.value h
  obtain ⟨right, hright, hsplit⟩ := exists_space rest
  refine ⟨left ++ (inner ++ right), .pad hleft hwritten hright, ?_⟩
  rw [hsplit, hrest]
  simp only [List.append_assoc]

theorem Sound.readValue_succ (hsound : Sound fuel) (h : readValue (fuel + 1) text = some (tree, rest)) :
    ∃ left inner, Space left ∧ Written tree inner ∧ text = left ++ (inner ++ rest) := by
  obtain ⟨left, hleft, hsplit⟩ := exists_space text
  refine ⟨left, ?_⟩
  -- one case for each branch of the reader, in its order
  suffices ∃ inner, Written tree inner ∧ skipSpace text = inner ++ rest by
    obtain ⟨inner, hwritten, heq⟩ := this
    exact ⟨inner, hleft, hwritten, by rw [hsplit, heq]⟩
  rw [readValue] at h
  split at h
  · rename_i hstart
    obtain ⟨marks, hmarks, rfl⟩ := exists_of_map_eq_some h
    obtain ⟨inner, hwritten, rfl⟩ := Mark.exists_written hmarks
    exact ⟨_, .string hwritten, by simp [hstart]⟩
  · rename_i inside hstart
    obtain ⟨space, hspace, hinside⟩ := exists_space inside
    split at h
    · rename_i hclose
      obtain ⟨rfl, rfl⟩ := Prod.mk.inj (Option.some_inj.mp h)
      exact ⟨_, .emptyArray hspace, by simp [hstart, ← hclose, ← hinside]⟩
    · obtain ⟨items, hitems, rfl⟩ := exists_of_map_eq_some h
      obtain ⟨inner, hwritten, rfl⟩ := hsound.items hitems
      exact ⟨_, .array hwritten, by simp [hstart]⟩
  · rename_i inside hstart
    obtain ⟨space, hspace, hinside⟩ := exists_space inside
    split at h
    · rename_i hclose
      obtain ⟨rfl, rfl⟩ := Prod.mk.inj (Option.some_inj.mp h)
      exact ⟨_, .emptyObject hspace, by simp [hstart, ← hclose, ← hinside]⟩
    · obtain ⟨members, hmembers, rfl⟩ := exists_of_map_eq_some h
      obtain ⟨inner, hwritten, rfl⟩ := hsound.members hmembers
      exact ⟨_, .object hwritten, by simp [hstart]⟩
  · rename_i hstart
    obtain ⟨rfl, rfl⟩ := Prod.mk.inj (Option.some_inj.mp h)
    exact ⟨_, .null, hstart⟩
  · rename_i hstart
    obtain ⟨rfl, rfl⟩ := Prod.mk.inj (Option.some_inj.mp h)
    exact ⟨_, .boolTrue, hstart⟩
  · rename_i hstart
    obtain ⟨rfl, rfl⟩ := Prod.mk.inj (Option.some_inj.mp h)
    exact ⟨_, .boolFalse, hstart⟩
  · obtain ⟨x, hx, rfl⟩ := exists_of_map_eq_some h
    obtain ⟨inner, hwritten, hsplit⟩ := Numeral.exists_written hx
    exact ⟨_, .numeral hwritten, hsplit⟩

theorem Sound.readItems_succ (hsound : Sound fuel) {items : List Tree}
    (h : readItems (fuel + 1) text = some (items, rest)) :
    ∃ inner, WrittenItems items inner ∧ text = inner ++ ']' :: rest := by
  rw [readItems] at h
  split at h
  · cases h
  · rename_i item behind hitem
    split at h
    · rename_i hclose
      obtain ⟨rfl, rfl⟩ := Prod.mk.inj (Option.some_inj.mp h)
      obtain ⟨inner, hpadded, rfl⟩ := hsound.padded hitem hclose
      exact ⟨inner, .last hpadded, rfl⟩
    · rename_i hcomma
      obtain ⟨others, hothers, rfl⟩ := exists_of_map_eq_some h
      obtain ⟨first, hpadded, rfl⟩ := hsound.padded hitem hcomma
      obtain ⟨inner, hwritten, rfl⟩ := hsound.items hothers
      exact ⟨_, .more hpadded hwritten, by simp⟩
    · cases h

theorem Sound.readMembers_succ (hsound : Sound fuel) {members : List (List Mark × Tree)}
    (h : readMembers (fuel + 1) text = some (members, rest)) :
    ∃ inner, WrittenMembers members inner ∧ text = inner ++ '\x7d' :: rest := by
  obtain ⟨left, hleft, hsplit⟩ := exists_space text
  rw [readMembers] at h
  split at h
  · rename_i afterQuote hquote
    split at h
    · cases h
    · rename_i key behind hkey
      obtain ⟨chars, hchars, rfl⟩ := Mark.exists_written hkey
      obtain ⟨gap, hgap, hbehind⟩ := exists_space behind
      split at h
      · rename_i afterColon hcolon
        split at h
        · cases h
        · rename_i value ending hvalue
          -- the key and the colon before the value
          have htext {inner : List Char} {c : Char} {after : List Char}
              (hinner : afterColon = inner ++ c :: after) : text =
              left ++ '"' :: (chars ++ '"' :: (gap ++ ':' :: inner)) ++ c :: after := by
            rw [hsplit, hquote, hbehind, hcolon, hinner]
            simp
          split at h
          · rename_i hclose
            obtain ⟨rfl, rfl⟩ := Prod.mk.inj (Option.some_inj.mp h)
            obtain ⟨inner, hpadded, hinner⟩ := hsound.padded hvalue hclose
            exact ⟨_, .last (.member hleft hchars hgap hpadded), htext hinner⟩
          · rename_i hcomma
            obtain ⟨others, hothers, rfl⟩ := exists_of_map_eq_some h
            obtain ⟨inner, hpadded, hinner⟩ := hsound.padded hvalue hcomma
            obtain ⟨more, hwritten, rfl⟩ := hsound.members hothers
            refine ⟨_, .more (.member hleft hchars hgap hpadded) hwritten, ?_⟩
            rw [htext hinner]
            simp only [List.append_assoc, List.cons_append]
          · cases h
      · cases h
  · cases h

theorem sound (fuel : Nat) : Sound fuel := by
  induction fuel with
  | zero => exact sound_zero
  | succ fuel ih => exact ⟨ih.readValue_succ, ih.readItems_succ, ih.readMembers_succ⟩

/-- The reader finds the tree of a text exactly when the text spells it. -/
theorem ofChars?_eq_some_iff : ofChars? text = some tree ↔ Padded tree text := by
  constructor
  · intro h
    rw [ofChars?] at h
    split at h
    · rename_i found after hread
      obtain ⟨right, hright, hsplit⟩ := exists_space after
      split at h
      · rename_i hempty
        obtain rfl := Option.some_inj.mp h
        obtain ⟨left, inner, hleft, hwritten, htext⟩ := (sound _).value hread
        rw [List.isEmpty_iff.mp hempty, List.append_nil] at hsplit
        rw [htext, hsplit]
        exact .pad hleft hwritten hright
      · cases h
    · cases h
  · intro h
    cases h with
    | @pad _ left inner right hleft h hright =>
      -- the fuel of the reader is enough for any tree that the text spells
      have hfuel : 2 * inner.length ≤ 2 * (left ++ (inner ++ right)).length + 2 + 1 := by
        simp only [List.length_append]
        omega
      have hends : Ends [] := by simp [Ends]
      have hread := Reads.readValue_pad (reads tree) hleft h hright hfuel hends
      rw [List.append_nil] at hread
      have hskip : skipSpace right = [] := List.dropWhile_eq_nil_iff.mpr hright
      rw [ofChars?, hread]
      simp only [hskip, List.isEmpty_nil, if_true]

end Tree

end Cattery
