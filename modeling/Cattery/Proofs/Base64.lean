import Cattery.Asset.Image
import Mathlib.Data.List.Infix

namespace Cattery.Base64

theorem digitValue?_digit : ∀ n < 64, digitValue? (digit n) = some n := by
  decide +kernel

theorem digit_ne_pad : ∀ n < 64, digit n ≠ '=' := by
  decide +kernel

/-- What holds of all digits and of the padding holds of all characters of base64 text. -/
theorem forall_mem_encodeChars {p : Char → Prop} (hpad : p '=') (hdigit : ∀ n < 64, p (digit n))
    (bytes : List UInt8) : ∀ c ∈ encodeChars bytes, p c := by
  fun_induction encodeChars bytes with
  | case1 => exact List.forall_mem_nil p
  | case2 a n =>
    have ha := a.toNat_lt
    simp only [List.forall_mem_cons]
    exact ⟨hdigit _ (by omega), hdigit _ (by omega), hpad, hpad, List.forall_mem_nil p⟩
  | case3 a b n =>
    have ha := a.toNat_lt
    have hb := b.toNat_lt
    simp only [List.forall_mem_cons]
    exact ⟨hdigit _ (by omega), hdigit _ (by omega), hdigit _ (by omega), hpad,
      List.forall_mem_nil p⟩
  | case4 a b c rest n ih =>
    have ha := a.toNat_lt
    have hb := b.toNat_lt
    have hc := c.toNat_lt
    simp only [List.forall_mem_cons]
    exact ⟨hdigit _ (by omega), hdigit _ (by omega), hdigit _ (by omega), hdigit _ (by omega), ih⟩

theorem encodeChars_ne_nil {bytes : List UInt8} (h : bytes ≠ []) : encodeChars bytes ≠ [] := by
  fun_cases encodeChars bytes with
  | case1 => exact absurd rfl h
  | case2 | case3 | case4 => exact List.cons_ne_nil _ _

/-- Two digits and padding are read as one byte. -/
theorem lastGroup?_one (a : UInt8) :
    lastGroup? (digit (a.toNat * 16 / 64)) (digit (a.toNat * 16 % 64)) '=' '=' = some [a] := by
  have ha := a.toNat_lt
  have hbyte : a.toNat * 16 / 64 * 4 + a.toNat * 16 % 64 / 16 = a.toNat := by omega
  have hrest : a.toNat * 16 % 64 % 16 = 0 := by omega
  rw [lastGroup?, digitValue?_digit _ (by omega), digitValue?_digit _ (by omega)]
  simp [hbyte, hrest]

/-- Three digits and padding are read as two bytes. -/
theorem lastGroup?_two (a b : UInt8) :
    lastGroup? (digit ((a.toNat * 256 + b.toNat) * 4 / 4096))
      (digit ((a.toNat * 256 + b.toNat) * 4 / 64 % 64)) (digit ((a.toNat * 256 + b.toNat) * 4 % 64))
      '=' = some [a, b] := by
  have ha := a.toNat_lt
  have hb := b.toNat_lt
  generalize hn : (a.toNat * 256 + b.toNat) * 4 = n
  have hwhole : (n / 4096 * 64 + n / 64 % 64) * 64 + n % 64 = n := by omega
  have hfirst : n / 1024 = a.toNat := by omega
  have hsecond : n / 4 % 256 = b.toNat := by omega
  have hrest : n % 64 % 4 = 0 := by omega
  rw [lastGroup?, digitValue?_digit _ (by omega), digitValue?_digit _ (by omega),
    digitValue?_digit _ (by omega)]
  simp [digit_ne_pad _ (Nat.mod_lt n (by decide)), hwhole, hfirst, hsecond, hrest]

/-- Four digits are read as three bytes. -/
theorem fullGroup?_three (a b c : UInt8) {n : Nat}
    (hn : n = (a.toNat * 256 + b.toNat) * 256 + c.toNat) :
    fullGroup? (digit (n / 262144)) (digit (n / 4096 % 64)) (digit (n / 64 % 64)) (digit (n % 64)) =
      some [a, b, c] := by
  have ha := a.toNat_lt
  have hb := b.toNat_lt
  have hc := c.toNat_lt
  have hwhole : ((n / 262144 * 64 + n / 4096 % 64) * 64 + n / 64 % 64) * 64 + n % 64 = n := by omega
  have hfirst : n / 65536 = a.toNat := by omega
  have hsecond : n / 256 % 256 = b.toNat := by omega
  have hthird : n % 256 = c.toNat := by omega
  rw [fullGroup?, digitValue?_digit _ (by omega), digitValue?_digit _ (by omega),
    digitValue?_digit _ (by omega), digitValue?_digit _ (by omega)]
  simp [hwhole, hfirst, hsecond, hthird]

/-- The last group is read like any other when it has no padding. -/
theorem lastGroup?_eq_fullGroup? {a b c d : Char} (hc : c ≠ '=') (hd : d ≠ '=') :
    lastGroup? a b c d = fullGroup? a b c d := by
  rw [lastGroup?, fullGroup?]
  cases digitValue? a <;> cases digitValue? b <;> cases digitValue? c <;> cases digitValue? d <;>
    simp [hc, hd]

/-- Bytes are read back from their text. -/
theorem decodeChars?_encodeChars (bytes : List UInt8) :
    decodeChars? (encodeChars bytes) = some bytes := by
  fun_induction encodeChars bytes with
  | case1 => rfl
  | case2 a n => exact lastGroup?_one a
  | case3 a b n => exact lastGroup?_two a b
  | case4 a b c rest n ih =>
    have hgroup := fullGroup?_three a b c (n := n) rfl
    have hthird := digit_ne_pad (n / 64 % 64) (Nat.mod_lt _ (by decide))
    have hfourth := digit_ne_pad (n % 64) (Nat.mod_lt _ (by decide))
    -- the reader tells the last group by what follows it
    cases hrest : encodeChars rest with
    | nil =>
      have hnil : rest = [] := not_ne_iff.mp fun hne => encodeChars_ne_nil hne hrest
      rw [decodeChars?, lastGroup?_eq_fullGroup? hthird hfourth, hgroup, hnil]
    | cons d more =>
      rw [hrest] at ih
      rw [decodeChars?, hgroup, ih]
      · rfl
      · exact fun h => List.cons_ne_nil d more h

theorem encodeChars_three_append (a b c : UInt8) (rest : List UInt8) :
    encodeChars (a :: b :: c :: rest) = encodeChars [a, b, c] ++ encodeChars rest := rfl

/-- A text starts with the digits of three bytes when these are the first three. -/
theorem encodeChars_three_isPrefix_iff (a b c : UInt8) (bytes : List UInt8) :
    encodeChars [a, b, c] <+: encodeChars bytes ↔ [a, b, c] <+: bytes := by
  constructor
  · intro h
    obtain ⟨tail, htail⟩ := h
    rcases bytes with _ | ⟨d, _ | ⟨e, _ | ⟨f, rest⟩⟩⟩
    · exact absurd htail (List.cons_ne_nil _ _)
    -- fewer bytes have padding among their four characters
    · have hpad := (List.cons.inj (List.cons.inj (List.cons.inj htail).2).2).1
      exact absurd hpad (digit_ne_pad _ (Nat.mod_lt _ (Nat.succ_pos 63)))
    · have hpad := (List.cons.inj (List.cons.inj (List.cons.inj (List.cons.inj htail).2).2).2).1
      exact absurd hpad (digit_ne_pad _ (Nat.mod_lt _ (Nat.succ_pos 63)))
    · rw [encodeChars_three_append d e f rest] at htail
      have hlength : (encodeChars [a, b, c]).length = (encodeChars [d, e, f]).length := by
        simp [encodeChars]
      have hdigits : encodeChars [a, b, c] = encodeChars [d, e, f] :=
        (List.append_inj htail hlength).1
      have hbytes : some [a, b, c] = some [d, e, f] := by
        rw [← decodeChars?_encodeChars [a, b, c], hdigits, decodeChars?_encodeChars]
      rw [Option.some_inj.mp hbytes]
      exact List.prefix_append [d, e, f] rest
  · rintro ⟨rest, rfl⟩
    exact ⟨encodeChars rest, rfl⟩

end Cattery.Base64
