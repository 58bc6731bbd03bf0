import Cattery.Text.Utf8

namespace Cattery.Utf8

theorem toNat_ofNat_byte {n : Nat} (h : n < 256) : (UInt8.ofNat n).toNat = n :=
  UInt8.toNat_ofNat_of_lt' h

theorem lead_single {n : Nat} (h : n < 0x80) : lead (UInt8.ofNat n) = .single (Char.ofNat n) := by
  have hn := toNat_ofNat_byte (Nat.lt_trans h (by decide))
  rw [lead, hn, if_pos h]

theorem lead_two {n : Nat} (hlow : 0xC2 ≤ n) (hhigh : n < 0xE0) :
    lead (UInt8.ofNat n) = .opening ⟨0, 0x80, 0xBF, n - 0xC0⟩ := by
  have hn := toNat_ofNat_byte (Nat.lt_trans hhigh (by decide))
  have hsingle : ¬ n < 0x80 := by omega
  have htwo : ¬ n < 0xC2 := by omega
  rw [lead, hn, if_neg hsingle, if_neg htwo, if_pos hhigh]

theorem lead_three {n : Nat} (hlow : 0xE0 ≤ n) (hhigh : n < 0xF0) :
    lead (UInt8.ofNat n) =
      .opening ⟨1, if n == 0xE0 then 0xA0 else 0x80, if n == 0xED then 0x9F else 0xBF,
        n - 0xE0⟩ := by
  have hn := toNat_ofNat_byte (Nat.lt_trans hhigh (by decide))
  have hsingle : ¬ n < 0x80 := by omega
  have htwo : ¬ n < 0xC2 := by omega
  have hthree : ¬ n < 0xE0 := by omega
  rw [lead, hn, if_neg hsingle, if_neg htwo, if_neg hthree, if_pos hhigh]

theorem lead_four {n : Nat} (hlow : 0xF0 ≤ n) (hhigh : n < 0xF5) :
    lead (UInt8.ofNat n) =
      .opening ⟨2, if n == 0xF0 then 0x90 else 0x80, if n == 0xF4 then 0x8F else 0xBF,
        n - 0xF0⟩ := by
  have hn := toNat_ofNat_byte (Nat.lt_trans hhigh (by decide))
  have hsingle : ¬ n < 0x80 := by omega
  have htwo : ¬ n < 0xC2 := by omega
  have hthree : ¬ n < 0xE0 := by omega
  have hfour : ¬ n < 0xF0 := by omega
  rw [lead, hn, if_neg hsingle, if_neg htwo, if_neg hthree, if_neg hfour, if_pos hhigh]

section Reading

variable {b : UInt8} {rest : List UInt8}

theorem readFrom_single {c : Char} (h : lead b = .single c) :
    readFrom none (b :: rest) = some c :: readFrom none rest := by
  rw [readFrom, h]

theorem readFrom_opening {sequence : Unfinished} (h : lead b = .opening sequence) :
    readFrom none (b :: rest) = readFrom (some sequence) rest := by
  rw [readFrom, h]

variable {low high bits n : Nat}

theorem readFrom_last (hn : n < 256) (hlow : low ≤ n) (hhigh : n ≤ high) :
    readFrom (some ⟨0, low, high, bits⟩) (UInt8.ofNat n :: rest) =
      some (Char.ofNat (bits * 64 + (n - 0x80))) :: readFrom none rest := by
  rw [readFrom, toNat_ofNat_byte hn]
  simp only [hlow, hhigh, decide_true, Bool.and_self, if_true]

theorem readFrom_more {more : Nat} (hn : n < 256) (hlow : low ≤ n) (hhigh : n ≤ high) :
    readFrom (some ⟨more + 1, low, high, bits⟩) (UInt8.ofNat n :: rest) =
      readFrom (some ⟨more, 0x80, 0xBF, bits * 64 + (n - 0x80)⟩) rest := by
  rw [readFrom, toNat_ofNat_byte hn]
  simp only [hlow, hhigh, decide_true, Bool.and_self, if_true]

end Reading

/-- A character is read back from its bytes, whatever follows them. -/
theorem readFrom_utf8EncodeChar (c : Char) (rest : List UInt8) :
    readFrom none (String.utf8EncodeChar c ++ rest) = some c :: readFrom none rest := by
  have hvalid : c.toNat < 0xD800 ∨ 0xDFFF < c.toNat ∧ c.toNat < 0x110000 := c.valid
  have hchar : Char.ofNat c.toNat = c := Char.ofNat_toNat c
  have hval : c.val.toNat = c.toNat := rfl
  -- one case for every length; the bounds of the second byte leave out no character
  unfold String.utf8EncodeChar
  simp only [hval]
  generalize c.toNat = v at hvalid hchar
  split
  · rename_i hone
    rw [List.cons_append, List.nil_append, readFrom_single (lead_single (by omega)), hchar]
  split
  · rename_i hone htwo
    have hbits : (v / 64 % 32 + 192 - 0xC0) * 64 + (v % 64 + 128 - 0x80) = v := by omega
    rw [List.cons_append, readFrom_opening (lead_two (by omega) (by omega)), List.cons_append,
      List.nil_append, readFrom_last (by omega) (by omega) (by omega), hbits, hchar]
  split
  · rename_i hone htwo hthree
    have hbits : ((v / 4096 % 16 + 224 - 0xE0) * 64 + (v / 64 % 64 + 128 - 0x80)) * 64 +
        (v % 64 + 128 - 0x80) = v := by omega
    have hlow : (if (v / 4096 % 16 + 224 == 0xE0) = true then 0xA0 else 0x80) ≤
        v / 64 % 64 + 128 := by
      simp only [beq_iff_eq]
      split <;> omega
    have hhigh : v / 64 % 64 + 128 ≤
        (if (v / 4096 % 16 + 224 == 0xED) = true then 0x9F else 0xBF) := by
      simp only [beq_iff_eq]
      split <;> omega
    rw [List.cons_append, readFrom_opening (lead_three (by omega) (by omega)), List.cons_append,
      readFrom_more (by omega) hlow hhigh, List.cons_append, List.nil_append,
      readFrom_last (by omega) (by omega) (by omega), hbits, hchar]
  · rename_i hone htwo hthree
    have hbits : (((v / 262144 % 8 + 240 - 0xF0) * 64 + (v / 4096 % 64 + 128 - 0x80)) * 64 +
        (v / 64 % 64 + 128 - 0x80)) * 64 + (v % 64 + 128 - 0x80) = v := by omega
    have hlow : (if (v / 262144 % 8 + 240 == 0xF0) = true then 0x90 else 0x80) ≤
        v / 4096 % 64 + 128 := by
      simp only [beq_iff_eq]
      split <;> omega
    have hhigh : v / 4096 % 64 + 128 ≤
        (if (v / 262144 % 8 + 240 == 0xF4) = true then 0x8F else 0xBF) := by
      simp only [beq_iff_eq]
      split <;> omega
    rw [List.cons_append, readFrom_opening (lead_four (by omega) (by omega)), List.cons_append,
      readFrom_more (by omega) hlow hhigh, List.cons_append,
      readFrom_more (by omega) (by omega) (by omega), List.cons_append, List.nil_append,
      readFrom_last (by omega) (by omega) (by omega), hbits, hchar]

theorem read_encodeChars (text : List Char) : read (encodeChars text) = text.map some := by
  induction text with
  | nil => rfl
  | cons c rest ih =>
    rw [encodeChars, List.flatMap_cons, read, readFrom_utf8EncodeChar, List.map_cons]
    exact congrArg (some c :: ·) ih

theorem encodeChars_injective : Function.Injective encodeChars := by
  intro text other h
  have hread : text.map some = other.map some := by
    rw [← read_encodeChars, ← read_encodeChars, h]
  exact (List.map_inj_right fun _ _ => Option.some_inj.mp).mp hread

/-- A text is read back from its bytes. -/
theorem decodeLossy_encode (text : String) : decodeLossy (encode text) = text := by
  have hmap : (text.toList.map some).map (fun c => c.getD (Char.ofNat 0xFFFD)) = text.toList := by
    rw [List.map_map]
    exact List.map_id text.toList
  rw [decodeLossy, encode, read_encodeChars, hmap, String.ofList_toList]

@[simp] theorem encode_append (first second : String) :
    encode (first ++ second) = encode first ++ encode second := by
  rw [encode, encode, encode, String.toList_append]
  exact List.flatMap_append

/-- A byte below 128 stands only for the character with its number. -/
theorem toNat_eq_of_mem_utf8EncodeChar {c : Char} {b : UInt8} (hb : b.toNat < 0x80)
    (h : b ∈ String.utf8EncodeChar c) : c.toNat = b.toNat := by
  have hval : c.val.toNat = c.toNat := rfl
  -- all bytes of a longer sequence are 128 or more
  have hlong {n : Nat} (hlow : 0x80 ≤ n) (hhigh : n < 256) : b ≠ UInt8.ofNat n := by
    rintro rfl
    rw [toNat_ofNat_byte hhigh] at hb
    omega
  unfold String.utf8EncodeChar at h
  simp only [hval] at h
  generalize c.toNat = v at h
  split at h
  · rename_i hone
    obtain rfl := List.mem_singleton.mp h
    exact (toNat_ofNat_byte (by omega)).symm
  · exfalso
    split at h
    · simp only [List.mem_cons, List.not_mem_nil, or_false] at h
      rcases h with h | h <;> exact hlong (by omega) (by omega) h
    split at h
    · simp only [List.mem_cons, List.not_mem_nil, or_false] at h
      rcases h with h | h | h <;> exact hlong (by omega) (by omega) h
    · simp only [List.mem_cons, List.not_mem_nil, or_false] at h
      rcases h with h | h | h | h <;> exact hlong (by omega) (by omega) h

/-- The bytes of a text hold a byte below 128 only where the text holds its character. -/
theorem mem_of_mem_encode {text : String} {b : UInt8} (hb : b.toNat < 0x80)
    (h : b ∈ encode text) : Char.ofNat b.toNat ∈ text.toList := by
  obtain ⟨c, hc, hbyte⟩ := List.mem_flatMap.mp h
  rwa [← toNat_eq_of_mem_utf8EncodeChar hb hbyte, Char.ofNat_toNat]

end Cattery.Utf8
