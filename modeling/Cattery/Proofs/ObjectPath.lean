import Cattery.Asset.Job
import Cattery.Proofs.Decimal
import Cattery.Proofs.Search
import Cattery.Proofs.Trim

namespace Cattery

namespace Hex

theorem digits_succ (count n : Nat) :
    digits (count + 1) n = digits count (n / 16) ++ [digit (n % 16)] := by
  rw [digits, List.range_succ, List.map_append, digits]
  congr 1
  · apply List.map_congr_left
    intro place hplace
    have hlt : place < count := List.mem_range.mp hplace
    have hpower : count + 1 - 1 - place = count - 1 - place + 1 := by omega
    have hpow : Nat.pow 16 (count - 1 - place + 1) = 16 * Nat.pow 16 (count - 1 - place) :=
      Nat.mul_comm _ _
    rw [hpower, hpow, Nat.div_div_eq_div_mul]
  · simp

theorem digit_inj : ∀ n < 16, ∀ m < 16, digit n = digit m → n = m := by
  decide

/-- A number below a power of sixteen is known by as many digits. -/
theorem digits_inj {count n m : Nat} (hn : n < Nat.pow 16 count) (hm : m < Nat.pow 16 count)
    (h : digits count n = digits count m) : n = m := by
  induction count generalizing n m with
  | zero =>
    have hone : Nat.pow 16 0 = 1 := rfl
    omega
  | succ count ih =>
    -- the last digit is the remainder, and the others are those of the quotient
    rw [digits_succ, digits_succ] at h
    obtain ⟨hfront, hlast⟩ := List.append_inj' h rfl
    have hdigit : n % 16 = m % 16 :=
      digit_inj _ (Nat.mod_lt n (by decide)) _ (Nat.mod_lt m (by decide)) (List.singleton_inj.mp hlast)
    have hpower : Nat.pow 16 (count + 1) = 16 * Nat.pow 16 count := Nat.mul_comm _ _
    have hrest : n / 16 = m / 16 := by
      apply ih _ _ hfront
      · exact Nat.div_lt_of_lt_mul (hpower ▸ hn)
      · exact Nat.div_lt_of_lt_mul (hpower ▸ hm)
    omega

theorem mem_digits {count n : Nat} {c : Char} (h : c ∈ digits count n) : ∃ k < 16, c = digit k := by
  obtain ⟨place, -, hdigit⟩ := List.mem_map.mp h
  exact ⟨_, Nat.mod_lt _ (by decide), hdigit.symm⟩

theorem digit_ne_slash : ∀ n < 16, digit n ≠ '/' := by
  decide

end Hex

section Occurrences

variable {α : Type} [DecidableEq α] {a : α} {x y x' y' : List α}

/-- A list splits at the first occurrence of an element in one way. -/
theorem append_cons_inj_first (hx : a ∉ x) (hx' : a ∉ x') (h : x ++ a :: y = x' ++ a :: y') :
    x = x' ∧ y = y' := by
  have hcut : cut? [a] (x ++ a :: y) = some (x, y) :=
    (cut?_singleton_eq_some_iff a _ x y).mpr ⟨rfl, hx⟩
  have hcut' : cut? [a] (x ++ a :: y) = some (x', y') :=
    (cut?_singleton_eq_some_iff a _ x' y').mpr ⟨h, hx'⟩
  exact Prod.mk.inj (Option.some_inj.mp (hcut.symm.trans hcut'))

/-- A list splits at the last occurrence of an element in one way. -/
theorem append_cons_inj_last (hy : a ∉ y) (hy' : a ∉ y') (h : x ++ a :: y = x' ++ a :: y') :
    x = x' ∧ y = y' := by
  -- read from the end it is the first occurrence
  have hreverse : y.reverse ++ a :: x.reverse = y'.reverse ++ a :: x'.reverse := by
    have hlists := congrArg List.reverse h
    simpa using hlists
  obtain ⟨hback, hfront⟩ := append_cons_inj_first (by simpa using hy) (by simpa using hy') hreverse
  exact ⟨List.reverse_inj.mp hfront, List.reverse_inj.mp hback⟩

end Occurrences

theorem toDigits_inj {n m : Nat} (h : Nat.toDigits 10 n = Nat.toDigits 10 m) : n = m := by
  rw [← @Nat.ofDigitChars_ten_toDigits n, h, Nat.ofDigitChars_ten_toDigits]

namespace Asset

theorem RunToken.toList_text (token : RunToken) :
    token.text.toList = Hex.digits 32 token.bits.toNat :=
  String.toList_ofList

theorem RunToken.toNat_bits_lt (token : RunToken) : token.bits.toNat < Nat.pow 16 32 :=
  token.bits.isLt

theorem RunToken.text_inj {token other : RunToken} (h : token.text = other.text) :
    token = other := by
  have hdigits : Hex.digits 32 token.bits.toNat = Hex.digits 32 other.bits.toNat := by
    rw [← toList_text, ← toList_text, h]
  have hbits : token.bits.toNat = other.bits.toNat :=
    Hex.digits_inj token.toNat_bits_lt other.toNat_bits_lt hdigits
  cases token
  cases other
  exact congrArg RunToken.mk (BitVec.eq_of_toNat_eq hbits)

theorem RunToken.slash_not_mem_text (token : RunToken) : '/' ∉ token.text.toList := by
  rw [toList_text]
  intro hmem
  obtain ⟨k, hk, hslash⟩ := Hex.mem_digits hmem
  exact Hex.digit_ne_slash k hk hslash.symm

def objectName (index : UInt32) (extension : String) : List Char :=
  "step-".toList ++ (Nat.toDigits 10 index.toNat ++ '.' :: extension.toList)

theorem toList_objectPath (userId slug : String) (token : RunToken) (index : UInt32)
    (extension : String) :
    (objectPath userId slug token index extension).toList =
      ((userId.toList ++ '/' :: ((Text.nonBlank? slug).getD "cat").toList) ++
        '/' :: token.text.toList) ++ '/' :: objectName index extension := by
  have hslash : "/".toList = ['/'] := rfl
  have hstep : "/step-".toList = '/' :: "step-".toList := rfl
  have hdot : ".".toList = ['.'] := rfl
  unfold objectPath objectName
  simp only [String.toList_append, Nat.toString_eq_repr, Nat.toList_repr, hslash, hstep, hdot,
    List.append_assoc, List.cons_append, List.nil_append]

theorem slash_not_mem_objectName (index : UInt32) {extension : String}
    (hextension : '/' ∉ extension.toList) : '/' ∉ objectName index extension := by
  have hdigits : '/' ∉ Nat.toDigits 10 index.toNat := not_mem_toDigits (by decide) _
  simp [objectName, hdigits, hextension]

theorem objectName_inj {index index' : UInt32} {extension extension' : String}
    (h : objectName index extension = objectName index' extension') :
    index = index' ∧ extension = extension' := by
  have hdot (n : Nat) : '.' ∉ Nat.toDigits 10 n := not_mem_toDigits (by decide) n
  -- the digits end at the first dot
  rw [objectName, objectName, List.append_cancel_left_eq] at h
  obtain ⟨hdigits, hextension⟩ := append_cons_inj_first (hdot _) (hdot _) h
  exact ⟨UInt32.toNat_inj.mp (toDigits_inj hdigits), String.toList_inj.mp hextension⟩

/-- A path gives away its run, index and extension, whatever the user id and the slug contain, and
what stands before them as one text. -/
theorem objectPath_inj {userId userId' slug slug' extension extension' : String}
    {token token' : RunToken} {index index' : UInt32} (hextension : '/' ∉ extension.toList)
    (hextension' : '/' ∉ extension'.toList)
    (h : objectPath userId slug token index extension =
      objectPath userId' slug' token' index' extension') :
    userId.toList ++ '/' :: ((Text.nonBlank? slug).getD "cat").toList =
        userId'.toList ++ '/' :: ((Text.nonBlank? slug').getD "cat").toList ∧
      token = token' ∧ index = index' ∧ extension = extension' := by
  have hlists := congrArg String.toList h
  -- neither the last component nor the run token has a slash in it
  rw [toList_objectPath, toList_objectPath] at hlists
  obtain ⟨hdirectory, hname⟩ := append_cons_inj_last
    (slash_not_mem_objectName index hextension) (slash_not_mem_objectName index' hextension') hlists
  obtain ⟨hfront, htoken⟩ := append_cons_inj_last token.slash_not_mem_text
    token'.slash_not_mem_text hdirectory
  obtain ⟨hindex, hsame⟩ := objectName_inj hname
  exact ⟨hfront, RunToken.text_inj (String.toList_inj.mp htoken), hindex, hsame⟩

theorem slash_not_mem_extension (format : Image.Format) : '/' ∉ format.extension.toList := by
  cases format <;> decide

theorem objectPath_inj_of_format {userId userId' slug slug' : String} {token token' : RunToken}
    {index index' : UInt32} {format format' : Image.Format}
    (h : objectPath userId slug token index format.extension =
      objectPath userId' slug' token' index' format'.extension) :
    token = token' ∧ index = index' :=
  have hparts := objectPath_inj (slash_not_mem_extension format) (slash_not_mem_extension format') h
  ⟨hparts.2.1, hparts.2.2.1⟩

def slugComponent (slug : String) : String :=
  if Text.trim slug = "" then "cat" else Text.trim slug

theorem nonBlank?_getD_eq (slug : String) :
    (Text.nonBlank? slug).getD "cat" = slugComponent slug := by
  rw [slugComponent]
  split
  · rename_i hempty
    rw [(Text.nonBlank?_eq_none_iff slug).mpr ((Text.trim_eq_empty_iff slug).mp hempty)]
    rfl
  · rename_i hne
    rw [(Text.nonBlank?_eq_some_iff slug _).mpr ⟨rfl, hne⟩]
    rfl

def namespaceText (userId slug : String) : String :=
  userId ++ "/" ++ slugComponent slug

theorem toList_namespaceText (userId slug : String) :
    (namespaceText userId slug).toList =
      userId.toList ++ '/' :: ((Text.nonBlank? slug).getD "cat").toList := by
  have hslash : "/".toList = ['/'] := rfl
  rw [namespaceText, String.toList_append, String.toList_append, hslash, nonBlank?_getD_eq,
    List.append_assoc, List.singleton_append]

/-- User ids without a slash end where the slug begins. -/
theorem namespaceText_eq_iff {userId userId' slug slug' : String} (huser : '/' ∉ userId.toList)
    (huser' : '/' ∉ userId'.toList) : namespaceText userId slug = namespaceText userId' slug' ↔
      userId = userId' ∧ slugComponent slug = slugComponent slug' := by
  constructor
  · intro h
    have hlists := congrArg String.toList h
    rw [toList_namespaceText, toList_namespaceText, nonBlank?_getD_eq, nonBlank?_getD_eq] at hlists
    obtain ⟨hids, hslugs⟩ := append_cons_inj_first huser huser' hlists
    exact ⟨String.toList_inj.mp hids, String.toList_inj.mp hslugs⟩
  · rintro ⟨rfl, hslug⟩
    rw [namespaceText, hslug, namespaceText]

/-- Two objects have one path only when they are of the same step of the same run and in the same
format, and what stands before the run is one text. Where no slash stands in the user ids and the
slugs, they are the same one by one. -/
theorem objectPath_eq_iff {userId userId' slug slug' extension extension' : String}
    {token token' : RunToken} {index index' : UInt32} (hextension : extension ∈ ["png", "jpg"])
    (hextension' : extension' ∈ ["png", "jpg"]) :
    (objectPath userId slug token index extension =
        objectPath userId' slug' token' index' extension' ↔
      token = token' ∧ index = index' ∧ extension = extension' ∧
        namespaceText userId slug = namespaceText userId' slug') ∧
    ((∀ text ∈ [userId, slug, userId', slug'], '/' ∉ text.toList) →
      (namespaceText userId slug = namespaceText userId' slug' ↔
        userId = userId' ∧ slugComponent slug = slugComponent slug')) := by
  have hslash : ∀ text ∈ ["png", "jpg"], '/' ∉ text.toList := by decide
  refine ⟨⟨fun h => ?_, ?_⟩, fun hfree => ?_⟩
  · obtain ⟨hfront, htoken, hindex, hsame⟩ :=
      objectPath_inj (hslash extension hextension) (hslash extension' hextension') h
    rw [← toList_namespaceText, ← toList_namespaceText] at hfront
    exact ⟨htoken, hindex, hsame, String.toList_inj.mp hfront⟩
  · rintro ⟨rfl, rfl, rfl, hfront⟩
    apply String.toList_inj.mp
    rw [toList_objectPath, toList_objectPath, ← toList_namespaceText, ← toList_namespaceText, hfront]
  · exact namespaceText_eq_iff (hfree userId (by simp)) (hfree userId' (by simp))

/-- A slash may stand in the user id or in the slug; without slashes other slugs make other paths. -/
theorem objectPath_eq_iff_sharedPath :
    objectPath "a/b" "c" ⟨7⟩ 1 "png" = objectPath "a" "b/c" ⟨7⟩ 1 "png" ∧
      objectPath "local" " " ⟨7⟩ 1 "png" ≠ objectPath "local" "dog" ⟨7⟩ 1 "png" := by
  have hextension : "png" ∈ ["png", "jpg"] := by decide
  have hslugs : slugComponent " " ≠ slugComponent "dog" := by decide +kernel
  obtain ⟨hshared, -⟩ :=
    @objectPath_eq_iff "a/b" "a" "c" "b/c" "png" "png" ⟨7⟩ ⟨7⟩ 1 1 hextension hextension
  obtain ⟨hother, hfree⟩ :=
    @objectPath_eq_iff "local" "local" " " "dog" "png" "png" ⟨7⟩ ⟨7⟩ 1 1 hextension hextension
  refine ⟨hshared.mpr ⟨rfl, rfl, rfl, by decide +kernel⟩, fun h => ?_⟩
  obtain ⟨-, -, -, hnamespace⟩ := hother.mp h
  exact hslugs ((hfree (by decide)).mp hnamespace).2

end Asset

end Cattery
