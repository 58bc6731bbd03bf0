import Cattery.Document.Attributes
import Cattery.Proofs.Decimal
import Cattery.Proofs.Search
import Cattery.Proofs.Trim

namespace Cattery.Attributes

structure IsKey (key : List Char) : Prop where
  starts : ∃ c ∈ key.head?, startsKey c = true
  continues : ∀ c ∈ key, continuesKey c = true

theorem continuesKey_of_startsKey {c : Char} (h : startsKey c = true) :
    continuesKey c = true := by
  simp [continuesKey, h]

theorem isBlank_of_continuesKey {c : Char} (h : continuesKey c = true) : isBlank c = false := by
  -- both tests compare code points
  have hle (a b : Char) : decide (a ≤ b) = decide (a.toNat ≤ b.toNat) := rfl
  have heq (a : Char) : (c == a) = (c.toNat == a.toNat) := by
    rw [Bool.eq_iff_iff, beq_iff_eq, beq_iff_eq, Char.toNat_inj]
  simp only [continuesKey, startsKey, hle, heq, Bool.or_eq_true, Bool.and_eq_true,
    decide_eq_true_eq, beq_iff_eq, Char.reduceToNat] at h
  simp only [isBlank, Bool.or_eq_false_iff, Bool.and_eq_false_iff, decide_eq_false_iff_not,
    beq_eq_false_iff_ne]
  omega

theorem exists_blank_append_trimStart (text : List Char) :
    ∃ blanks, (∀ c ∈ blanks, isBlank c = true) ∧ text = blanks ++ Chars.trimStart text :=
  ⟨text.takeWhile isBlank, fun _ hc => List.mem_takeWhile_imp hc,
    List.takeWhile_append_dropWhile.symm⟩

theorem trimStart_append_cons {blanks : List Char} (h : ∀ c ∈ blanks, isBlank c = true)
    {c : Char} (hc : isBlank c = false) (rest : List Char) :
    Chars.trimStart (blanks ++ c :: rest) = c :: rest := by
  rw [Chars.trimStart, List.dropWhile_append_of_pos h, List.dropWhile_cons_of_neg (by simp [hc])]

/-- The pair at the start of a text is written there, with blank characters around the equals
sign, and its value ends at the first quotation mark. -/
theorem eq_of_pairAt?_eq_some {text key value after : List Char}
    (h : pairAt? text = some ((key, value), after)) :
    IsKey key ∧ '"' ∉ value ∧ ∃ front back, (∀ c ∈ front, isBlank c = true) ∧
      (∀ c ∈ back, isBlank c = true) ∧
      text = key ++ front ++ '=' :: back ++ '"' :: value ++ '"' :: after := by
  -- a pair is found when each part of it is found where the part before it ends
  rw [pairAt?.eq_def] at h
  split at h
  · simp at h
  · rename_i c rest
    split at h
    · rename_i hstart
      split at h
      · rename_i afterEquals hequals
        split at h
        · rename_i quoted hquote
          obtain ⟨⟨value', after'⟩, hcut, heq⟩ := Option.map_eq_some_iff.mp h
          obtain ⟨⟨rfl, rfl⟩, rfl⟩ :
              (c :: rest.takeWhile continuesKey = key ∧ value' = value) ∧ after' = after := by
            simpa using heq
          obtain ⟨rfl, hvalue⟩ := (cut?_singleton_eq_some_iff _ _ _ _).mp hcut
          obtain ⟨front, hfront, hrest⟩ :=
            exists_blank_append_trimStart (rest.dropWhile continuesKey)
          obtain ⟨back, hback, hafter⟩ := exists_blank_append_trimStart afterEquals
          refine ⟨⟨⟨c, rfl, hstart⟩, ?_⟩, hvalue, front, back, hfront, hback, ?_⟩
          · intro d hd
            rcases List.mem_cons.mp hd with rfl | hd
            · exact continuesKey_of_startsKey hstart
            · exact List.mem_takeWhile_imp hd
          · rw [hequals] at hrest
            rw [hquote] at hafter
            have hsplit := List.takeWhile_append_dropWhile (p := continuesKey) (l := rest)
            rw [hrest, hafter] at hsplit
            calc c :: rest
                = c :: (rest.takeWhile continuesKey ++
                    (front ++ '=' :: (back ++ '"' :: (value' ++ '"' :: after')))) := by rw [hsplit]
              _ = _ := by simp
        · simp at h
      · simp at h
    · simp at h

/-- A pair that is written at the start of a text is the pair that is found there. -/
theorem pairAt?_written {key front back value : List Char} (hkey : IsKey key)
    (hfront : ∀ c ∈ front, isBlank c = true) (hback : ∀ c ∈ back, isBlank c = true)
    (hvalue : '"' ∉ value) (after : List Char) :
    pairAt? (key ++ front ++ '=' :: back ++ '"' :: value ++ '"' :: after) =
      some ((key, value), after) := by
  obtain ⟨⟨c, hc, hstart⟩, hcontinues⟩ := hkey
  obtain ⟨rest, rfl⟩ : ∃ rest, key = c :: rest := by
    cases key with
    | nil => simp at hc
    | cons d rest => exact ⟨rest, by simpa using hc⟩
  have hrest : ∀ d ∈ rest, continuesKey d = true :=
    fun d hd => hcontinues d (List.mem_cons_of_mem c hd)
  -- the key ends where a blank character or the equals sign stands
  have htail :
      (front ++ '=' :: (back ++ '"' :: (value ++ '"' :: after))).takeWhile continuesKey = [] ∧
      (front ++ '=' :: (back ++ '"' :: (value ++ '"' :: after))).dropWhile continuesKey =
        front ++ '=' :: (back ++ '"' :: (value ++ '"' :: after)) := by
    cases front with
    | nil => exact ⟨rfl, rfl⟩
    | cons d front =>
      have hd : continuesKey d = false := by
        rw [← Bool.not_eq_true]
        intro hd
        have hblank := isBlank_of_continuesKey hd
        rw [hfront d List.mem_cons_self] at hblank
        exact absurd hblank.symm Bool.false_ne_true
      simp [hd]
  have hcut : cut? ['"'] (value ++ '"' :: after) = some (value, after) :=
    (cut?_singleton_eq_some_iff _ _ _ _).mpr ⟨rfl, hvalue⟩
  simp only [List.append_assoc, List.cons_append, pairAt?, hstart, if_true,
    List.takeWhile_append_of_pos hrest, List.dropWhile_append_of_pos hrest, htail]
  rw [trimStart_append_cons hfront (by decide)]
  simp only [trimStart_append_cons hback (show isBlank '"' = false by decide), hcut]
  simp

theorem length_lt_of_pairAt?_eq_some {text after : List Char} {pair : List Char × List Char}
    (h : pairAt? text = some (pair, after)) : after.length < text.length := by
  obtain ⟨key, value⟩ := pair
  obtain ⟨-, -, front, back, -, -, rfl⟩ := eq_of_pairAt?_eq_some h
  simp only [List.length_append, List.length_cons]
  omega

theorem pairsFrom_nil (fuel : Nat) : pairsFrom fuel [] = [] := by
  cases fuel <;> rfl

theorem pairsFrom_succ (fuel : Nat) (text : List Char) :
    pairsFrom (fuel + 1) text =
      match pairAt? text with
      | some (pair, after) => pair :: pairsFrom fuel after
      | none => pairsFrom fuel text.tail := by
  cases text with
  | nil => exact (pairsFrom_nil fuel).symm
  | cons c rest => rfl

/-- Any fuel that the text allows for gives the same pairs. -/
theorem pairsFrom_eq_pairs {fuel : Nat} {text : List Char} (h : text.length ≤ fuel) :
    pairsFrom fuel text = pairs text := by
  rw [pairs]
  -- a pair uses up many characters at once, so that the fuel that is left is not one less
  induction fuel using Nat.strong_induction_on generalizing text with
  | _ fuel ih =>
    cases text with
    | nil => rw [pairsFrom_nil, pairsFrom_nil]
    | cons c rest =>
      obtain ⟨fuel, rfl⟩ := Nat.exists_eq_succ_of_ne_zero (n := fuel) (by rintro rfl; simp at h)
      have hrest : rest.length ≤ fuel := Nat.le_of_succ_le_succ h
      rw [List.length_cons, Nat.succ_eq_add_one, pairsFrom_succ, pairsFrom_succ]
      split
      · rename_i pair after hpair
        have hlt := length_lt_of_pairAt?_eq_some hpair
        rw [List.length_cons] at hlt
        -- both fuels are enough for what follows the pair
        rw [ih fuel (by omega) (by omega), ih rest.length (by omega) (by omega)]
      · rw [List.tail_cons, ih fuel (by omega) hrest]

theorem pairs_of_pairAt?_eq_some {text after : List Char} {pair : List Char × List Char}
    (h : pairAt? text = some (pair, after)) : pairs text = pair :: pairs after := by
  have hlt := length_lt_of_pairAt?_eq_some h
  rw [← pairsFrom_eq_pairs (Nat.le_succ text.length), pairsFrom_succ, h]
  dsimp only
  rw [pairsFrom_eq_pairs (Nat.le_of_lt hlt)]

theorem pairs_of_pairAt?_eq_none {text : List Char} (h : pairAt? text = none) :
    pairs text = pairs text.tail := by
  rw [← pairsFrom_eq_pairs (Nat.le_succ text.length), pairsFrom_succ, h]
  dsimp only
  rw [pairsFrom_eq_pairs (by simp)]

theorem pairs_blank_append {blanks : List Char} (h : ∀ c ∈ blanks, isBlank c = true)
    (text : List Char) : pairs (blanks ++ text) = pairs text := by
  induction blanks with
  | nil => rfl
  | cons c blanks ih =>
    -- no key starts with a blank character
    have hstart : startsKey c = false := by
      rw [← Bool.not_eq_true]
      intro hstart
      have hblank := isBlank_of_continuesKey (continuesKey_of_startsKey hstart)
      rw [h c List.mem_cons_self] at hblank
      exact absurd hblank.symm Bool.false_ne_true
    rw [List.cons_append, pairs_of_pairAt?_eq_none (by simp [pairAt?, hstart]), List.tail_cons,
      ih fun d hd => h d (List.mem_cons_of_mem c hd)]

/-- Values come from the text and hold no quotation mark. -/
theorem mem_pairs {text key value : List Char} (h : (key, value) ∈ pairs text) :
    '"' ∉ value ∧ value ⊆ text := by
  rw [pairs] at h
  -- what is found comes from the text whatever the fuel
  generalize text.length = fuel at h
  induction fuel generalizing text with
  | zero => simp [pairsFrom] at h
  | succ fuel ih =>
    rw [pairsFrom_succ] at h
    split at h
    · rename_i pair after hpair
      obtain ⟨hkey, hvalue, front, back, -, -, rfl⟩ := eq_of_pairAt?_eq_some hpair
      rcases List.mem_cons.mp h with heq | h
      · obtain rfl : value = pair.2 := congrArg Prod.snd heq
        exact ⟨hvalue, fun c hc => by simp [hc]⟩
      · obtain ⟨hquote, hsub⟩ := ih h
        exact ⟨hquote, fun c hc => by simp [hsub hc]⟩
    · obtain ⟨hquote, hsub⟩ := ih h
      exact ⟨hquote, fun c hc => List.mem_of_mem_tail (hsub hc)⟩

theorem value?_eq_some {key : String} {text value : List Char}
    (h : value? key text = some value) : '"' ∉ value ∧ value ⊆ text := by
  obtain ⟨before, after, hpairs, -⟩ := List.lookup_eq_some_iff.mp h
  have hmem : (key.toList, value) ∈ pairs text := by
    rw [hpairs]
    simp
  exact mem_pairs hmem

/-- A printed number above zero that fits 32 bits is read as that number. -/
theorem index?_toDigits {n : Nat} (hpos : 0 < n) (hlt : n < UInt32.size) :
    index? (Nat.toDigits 10 n) = some (UInt32.ofNat n) := by
  have hdigit (c : Char) (hc : c ∈ Nat.toDigits 10 n) : c.isDigit = true :=
    isDigit_of_mem_toDigits hc
  have htrim : Chars.trim (Nat.toDigits 10 n) = Nat.toDigits 10 n := by
    rw [Chars.trim_eq_self_iff]
    exact ⟨fun c hc => isBlank_of_isDigit (hdigit c (List.mem_of_mem_head? hc)),
      fun c hc => isBlank_of_isDigit (hdigit c (List.mem_of_mem_getLast? hc))⟩
  -- a printed number starts with a digit and not with a sign
  have hplus : withoutPlus (Nat.toDigits 10 n) = Nat.toDigits 10 n := by
    rw [withoutPlus.eq_def]
    split
    · rename_i digits hdigits
      have hsign := hdigit '+' (by rw [hdigits]; exact List.mem_cons_self)
      exact absurd hsign (by decide)
    · rfl
  have hend : ∀ c ∈ ([] : List Char).head?, c.isDigit = false := by simp
  obtain ⟨digits, htake, hne, hvalue⟩ := takeDigits_toDigits n hend
  rw [List.append_nil] at htake
  have hvalid : (digits.isEmpty || natOfDigits digits == 0 ||
      decide (UInt32.size ≤ natOfDigits digits)) = false := by
    rw [hvalue, List.isEmpty_eq_false_iff.mpr hne, Bool.false_or, Bool.or_eq_false_iff]
    exact ⟨beq_eq_false_iff_ne.mpr (Nat.ne_of_gt hpos), decide_eq_false (Nat.not_le_of_lt hlt)⟩
  rw [index?, htrim, hplus, htake]
  dsimp only
  rw [hvalid, hvalue]
  rfl

theorem index?_ne_zero {text : List Char} {index : UInt32} (h : index? text = some index) :
    index ≠ 0 := by
  rw [index?] at h
  split at h
  · rename_i digits hdigits
    obtain ⟨⟨-, hne, hlt⟩, rfl⟩ :
        (digits ≠ [] ∧ natOfDigits digits ≠ 0 ∧ natOfDigits digits < UInt32.size) ∧
          UInt32.ofNat (natOfDigits digits) = index := by
      simpa [and_assoc] using h
    intro hzero
    -- the number fits 32 bits, so that it is zero itself when its remainder is
    have hmod := congrArg UInt32.toNat hzero
    rw [UInt32.toNat_ofNat_of_lt' hlt] at hmod
    exact hne hmod
  · simp at h

end Cattery.Attributes
