import Cattery.Proofs.UrlReading
import Cattery.Proofs.Utf8
import Mathlib.Data.List.Infix

namespace Cattery.Url

/-! ## Bytes in hexadecimal -/

def startsByte : List Char → Bool
  | '%' :: a :: b :: _ => (Hex.digitValue? a).isSome && (Hex.digitValue? b).isSome
  | _ => false

def Unencoded (text : List Char) : Prop :=
  ∀ tail ∈ text.tails, startsByte tail = false

instance (text : List Char) : Decidable (Unencoded text) :=
  inferInstanceAs (Decidable (∀ tail ∈ text.tails, startsByte tail = false))

theorem startsByte_eq_true_iff (text : List Char) : startsByte text = true ↔
    ∃ a b rest, text = '%' :: a :: b :: rest ∧ (Hex.digitValue? a).isSome ∧
      (Hex.digitValue? b).isSome := by
  constructor
  · intro h
    fun_cases startsByte text with
    | case1 a b rest => exact ⟨a, b, rest, rfl, by simpa [startsByte] using h⟩
    | case2 => simp_all [startsByte]
  · rintro ⟨a, b, rest, rfl, ha, hb⟩
    rw [startsByte, ha, hb, Bool.and_self]

theorem unencoded_cons_iff (c : Char) (text : List Char) :
    Unencoded (c :: text) ↔ startsByte (c :: text) = false ∧ Unencoded text := by
  rw [Unencoded, List.tails_cons, List.forall_mem_cons, Unencoded]

theorem Unencoded.of_isInfix {piece text : List Char} (h : Unencoded text)
    (hpiece : piece <:+: text) : Unencoded piece := by
  intro tail htail
  obtain ⟨front, back, rfl⟩ := hpiece
  obtain ⟨start, rfl⟩ := (List.mem_tails _ _).mp htail
  rw [← Bool.not_eq_true]
  intro hbyte
  obtain ⟨a, b, rest, rfl, ha, hb⟩ := (startsByte_eq_true_iff tail).mp hbyte
  -- the byte stays one with what follows the piece behind it
  have htext := h ('%' :: a :: b :: rest ++ back)
    ((List.mem_tails _ _).mpr ⟨front ++ start, by simp⟩)
  rw [List.cons_append, List.cons_append, List.cons_append, startsByte, ha, hb] at htext
  cases htext

theorem unencoded_of_not_mem {text : List Char} (h : '%' ∉ text) : Unencoded text := by
  intro tail htail
  rw [← Bool.not_eq_true]
  intro hbyte
  obtain ⟨a, b, rest, rfl, -⟩ := (startsByte_eq_true_iff tail).mp hbyte
  exact h (((List.mem_tails _ _).mp htail).subset List.mem_cons_self)

theorem bytes_byte {a b : Char} {high low : Nat} (ha : Hex.digitValue? a = some high)
    (hb : Hex.digitValue? b = some low) (rest : List Char) :
    bytes ('%' :: a :: b :: rest) = UInt8.ofNat (16 * high + low) :: bytes rest := by
  rw [bytes, ha, hb]

theorem bytes_cons {c : Char} {rest : List Char} (h : startsByte (c :: rest) = false) :
    bytes (c :: rest) = String.utf8EncodeChar c ++ bytes rest := by
  rw [bytes.eq_def]
  split
  · rename_i a b more heq
    obtain ⟨rfl, rfl⟩ := List.cons.inj heq
    split
    · rename_i high low ha hb
      rw [startsByte, ha, hb] at h
      cases h
    · rfl
  · rename_i heq
    obtain ⟨rfl, rfl⟩ := List.cons.inj heq
    rfl
  · rename_i heq
    cases heq

theorem digitValue?_toUpper_digit :
    ∀ n < 16, Hex.digitValue? (Hex.digit n).toUpper = some n := by
  decide

/-- Bytes in hexadecimal are read back, whatever follows them. -/
theorem bytes_flatMap_append (raw : List UInt8) (rest : List Char) :
    bytes ((raw.flatMap fun b => '%' :: (Hex.byteDigits b).map Char.toUpper) ++ rest) =
      raw ++ bytes rest := by
  induction raw with
  | nil => rfl
  | cons b raw ih =>
    have hb : b.toNat < 256 := b.toNat_lt
    have hvalue : 16 * (b.toNat / 16) + b.toNat % 16 = b.toNat := Nat.div_add_mod b.toNat 16
    rw [List.flatMap_cons, List.append_assoc, Hex.byteDigits, List.map_cons, List.map_cons,
      List.map_nil, List.cons_append, List.cons_append, List.cons_append, List.nil_append,
      bytes_byte (digitValue?_toUpper_digit _ (by omega)) (digitValue?_toUpper_digit _ (by omega)),
      ih, hvalue, UInt8.ofNat_toNat, List.cons_append]

/-! ## Escaping -/

theorem escape_cons (isSpecial : Char → Bool) (c : Char) (text : List Char) :
    escape isSpecial (c :: text) =
      (if isSpecial c then percentEncoded c else [c]) ++ escape isSpecial text := by
  rw [escape, List.flatMap_cons, escape]

/-- An escaped character starts with a percent sign. -/
theorem exists_percentEncoded_eq (c : Char) : ∃ rest, percentEncoded c = '%' :: rest := by
  obtain ⟨b, more, hbytes⟩ := List.exists_cons_of_ne_nil (String.utf8EncodeChar_ne_nil (c := c))
  rw [percentEncoded, hbytes, List.flatMap_cons]
  exact ⟨_, rfl⟩

/-- A digit at the start of an escaped text was there before. -/
theorem exists_of_escape_eq_cons {isSpecial : Char → Bool} {text rest : List Char} {a : Char}
    (ha : (Hex.digitValue? a).isSome) (h : escape isSpecial text = a :: rest) :
    ∃ more, text = a :: more ∧ escape isSpecial more = rest := by
  cases text with
  | nil => cases h
  | cons c more =>
    rw [escape_cons] at h
    split at h
    · obtain ⟨digits, hdigits⟩ := exists_percentEncoded_eq c
      rw [hdigits, List.cons_append] at h
      obtain ⟨rfl, -⟩ := List.cons.inj h
      exact absurd ha (by decide)
    · obtain ⟨rfl, hrest⟩ := List.cons.inj h
      exact ⟨more, rfl, hrest⟩

/-- Escaping puts no byte where there was none. -/
theorem startsByte_escape {isSpecial : Char → Bool} {c : Char} {text : List Char}
    (h : startsByte (c :: text) = false) : startsByte (c :: escape isSpecial text) = false := by
  rw [← Bool.not_eq_true] at h ⊢
  intro hbyte
  obtain ⟨a, b, rest, heq, ha, hb⟩ := (startsByte_eq_true_iff _).mp hbyte
  obtain ⟨rfl, hrest⟩ := List.cons.inj heq
  -- no digit is a percent sign, so both digits stood there before
  obtain ⟨text, rfl, htext⟩ := exists_of_escape_eq_cons ha hrest
  obtain ⟨text, rfl, -⟩ := exists_of_escape_eq_cons hb htext
  exact h ((startsByte_eq_true_iff _).mpr ⟨a, b, text, rfl, ha, hb⟩)

/-- The bytes of a text are those of its escaped form. -/
theorem bytes_escape (isSpecial : Char → Bool) {text : List Char} (h : Unencoded text) :
    bytes (escape isSpecial text) = Utf8.encodeChars text := by
  induction text with
  | nil => rfl
  | cons c text ih =>
    obtain ⟨hbyte, htext⟩ := (unencoded_cons_iff c text).mp h
    rw [escape_cons, Utf8.encodeChars, List.flatMap_cons, ← Utf8.encodeChars, ← ih htext]
    split
    · rw [percentEncoded, bytes_flatMap_append]
    · rw [List.singleton_append, bytes_cons (startsByte_escape hbyte)]

theorem escape_inj {isSpecial : Char → Bool} {text other : List Char} (h : Unencoded text)
    (hother : Unencoded other) (heq : escape isSpecial text = escape isSpecial other) :
    text = other := by
  refine Utf8.encodeChars_injective ?_
  rw [← bytes_escape isSpecial h, ← bytes_escape isSpecial hother, heq]

theorem map_escape_inj {isSpecial : Char → Bool} {texts others : List (List Char)}
    (h : ∀ text ∈ texts, Unencoded text) (hothers : ∀ text ∈ others, Unencoded text)
    (heq : texts.map (escape isSpecial) = others.map (escape isSpecial)) : texts = others := by
  induction texts generalizing others with
  | nil => exact (List.map_eq_nil_iff.mp heq.symm).symm
  | cons text texts ih =>
    obtain ⟨other, others, rfl, htext, htexts⟩ := List.map_eq_cons_iff.mp heq.symm
    obtain ⟨hfirst, hrest⟩ := List.forall_mem_cons.mp h
    obtain ⟨hfirst', hrest'⟩ := List.forall_mem_cons.mp hothers
    rw [escape_inj hfirst' hfirst htext, ih hrest hrest' htexts.symm]

theorem escape_eq_self {isSpecial : Char → Bool} {text : List Char}
    (h : ∀ c ∈ text, isSpecial c = false) : escape isSpecial text = text := by
  induction text with
  | nil => rfl
  | cons c text ih =>
    obtain ⟨hc, htext⟩ := List.forall_mem_cons.mp h
    rw [escape_cons, hc, if_neg Bool.false_ne_true, ih htext, List.singleton_append]

/-- Without percent signs an escaped text is what it was before. -/
theorem eq_of_escape_eq {isSpecial : Char → Bool} {text plain : List Char} (hplain : '%' ∉ plain)
    (h : escape isSpecial text = plain) : text = plain := by
  induction text generalizing plain with
  | nil => exact h
  | cons c text ih =>
    rw [escape_cons] at h
    split at h
    · obtain ⟨digits, hdigits⟩ := exists_percentEncoded_eq c
      rw [← h, hdigits] at hplain
      exact absurd List.mem_cons_self hplain
    · subst h
      exact congrArg (c :: ·) (ih (fun hc => hplain (List.mem_cons_of_mem c hc)) rfl)

theorem escape_eq_nil_iff (isSpecial : Char → Bool) (text : List Char) :
    escape isSpecial text = [] ↔ text = [] := by
  cases text with
  | nil => exact iff_of_true rfl rfl
  | cons c text =>
    refine iff_of_false ?_ (List.cons_ne_nil c text)
    rw [escape_cons]
    obtain ⟨digits, hdigits⟩ := exists_percentEncoded_eq c
    split <;> simp [hdigits]

/-- No escaped character is a slash. -/
theorem slash_not_mem_percentEncoded (c : Char) : '/' ∉ percentEncoded c := by
  have hdigits : ∀ n < 16, (Hex.digit n).toUpper ≠ '/' := by decide
  intro hmem
  obtain ⟨b, -, hb⟩ := List.mem_flatMap.mp hmem
  have hlt : b.toNat < 256 := b.toNat_lt
  have hhigh := hdigits (b.toNat / 16) (by omega)
  have hlow := hdigits (b.toNat % 16) (by omega)
  simp [Hex.byteDigits, hhigh.symm, hlow.symm] at hb

theorem slash_not_mem_escape {isSpecial : Char → Bool} {text : List Char} (h : '/' ∉ text) :
    '/' ∉ escape isSpecial text := by
  intro hmem
  obtain ⟨c, hc, hin⟩ := List.mem_flatMap.mp hmem
  split at hin
  · exact slash_not_mem_percentEncoded c hin
  · rw [List.mem_singleton] at hin
    exact h (hin ▸ hc)

/-! ## Dot segments -/

/-- Dots that are not in hexadecimal are plain already. -/
theorem plainDots_eq_self {text : List Char} (h : Unencoded text) : plainDots text = text := by
  induction text with
  | nil => rfl
  | cons c text ih =>
    obtain ⟨hbyte, htext⟩ := (unencoded_cons_iff c text).mp h
    rw [plainDots.eq_def]
    split
    · rename_i heq
      cases heq
    · rename_i rest heq
      rw [heq] at hbyte
      cases hbyte
    · rename_i rest heq
      rw [heq] at hbyte
      cases hbyte
    · rename_i c' text' _ _ heq
      obtain ⟨rfl, rfl⟩ := List.cons.inj heq
      rw [ih htext]

theorem isSingleDot_iff {segment : List Char} (h : Unencoded segment) :
    isSingleDot segment = true ↔ segment = ['.'] := by
  rw [isSingleDot, plainDots_eq_self h, beq_iff_eq]

theorem isDoubleDot_iff {segment : List Char} (h : Unencoded segment) :
    isDoubleDot segment = true ↔ segment = ['.', '.'] := by
  rw [isDoubleDot, plainDots_eq_self h, beq_iff_eq]

def Level (segments : List (List Char)) : Prop :=
  ∀ segment ∈ segments, isDoubleDot segment = false

def isFilled (segment : List Char) : Bool :=
  !(segment.isEmpty || isSingleDot segment)

section Resolve

variable {segments : List (List Char)}

/-- Segments that do not go up come behind those that are there. -/
theorem resolve_eq_append (h : Level segments) (above : List (List Char)) :
    resolve above segments = above.reverse ++ resolve [] segments := by
  induction segments generalizing above with
  | nil => simp [resolve]
  | cons segment rest ih =>
    obtain ⟨hsegment, hrest⟩ := List.forall_mem_cons.mp h
    simp only [resolve, hsegment, Bool.false_eq_true, if_false]
    split
    · split
      · rw [ih hrest, ih hrest [[]]]
        simp
      · rw [ih hrest]
    · rw [ih hrest, ih hrest [_]]
      simp

/-- What a segment that does not go up comes to: a dot leaves an empty segment at the end. -/
theorem resolve_cons {segment : List Char} {rest : List (List Char)}
    (h : Level (segment :: rest)) : resolve [] (segment :: rest) =
      (if isSingleDot segment then if rest.isEmpty then [[]] else []
        else [escape isPathSpecial segment]) ++ resolve [] rest := by
  obtain ⟨hsegment, hrest⟩ := List.forall_mem_cons.mp h
  simp only [resolve, hsegment, Bool.false_eq_true, if_false]
  split
  · split
    · rw [resolve_eq_append hrest, List.reverse_singleton]
    · rw [List.nil_append]
  · rw [resolve_eq_append hrest, List.reverse_singleton]

theorem resolve_ne_nil (h : Level segments) (hne : segments ≠ []) : resolve [] segments ≠ [] := by
  induction segments with
  | nil => exact absurd rfl hne
  | cons segment rest ih =>
    rw [resolve_cons h]
    split
    · split
      · exact List.cons_ne_nil _ _
      · rename_i hmore
        exact ih (List.forall_mem_cons.mp h).2 (by simpa using hmore)
    · exact List.cons_ne_nil _ _

/-- The segments that are not empty are the filled ones, escaped. -/
theorem filter_resolve (h : Level segments) :
    (resolve [] segments).filter (fun segment => !segment.isEmpty) =
      (segments.filter isFilled).map (escape isPathSpecial) := by
  induction segments with
  | nil => rfl
  | cons segment rest ih =>
    rw [resolve_cons h, List.filter_append, ih (List.forall_mem_cons.mp h).2]
    -- a dot leaves nothing or an empty segment, and an empty segment leaves itself
    split
    · rename_i hdot
      have hempty : isFilled segment = false := by simp [isFilled, hdot]
      rw [List.filter_cons_of_neg (by simp [hempty])]
      split <;> simp
    · rename_i hdot
      cases segment with
      | nil => rfl
      | cons c segment =>
        have hfilled : isFilled (c :: segment) = true := by simp [isFilled, hdot]
        have hkept : escape isPathSpecial (c :: segment) ≠ [] := by simp [escape_eq_nil_iff]
        rw [List.filter_cons_of_pos hfilled, List.map_cons,
          List.filter_cons_of_pos (by simpa using hkept)]
        rfl

/-- Besides empty ones there are only escaped segments, none of which was a dot. -/
theorem mem_resolve_cases (h : Level segments) {name : List Char}
    (hname : name ∈ resolve [] segments) :
    name = [] ∨ ∃ segment ∈ segments, isSingleDot segment = false ∧ isDoubleDot segment = false ∧
      name = escape isPathSpecial segment := by
  induction segments with
  | nil => cases hname
  | cons segment rest ih =>
    obtain ⟨hsegment, hrest⟩ := List.forall_mem_cons.mp h
    rw [resolve_cons h] at hname
    rcases List.mem_append.mp hname with hfirst | hmore
    · split at hfirst
      · refine .inl ?_
        split at hfirst
        · exact List.mem_singleton.mp hfirst
        · cases hfirst
      · rename_i hdot
        exact .inr ⟨segment, List.mem_cons_self, by simpa using hdot, hsegment,
          List.mem_singleton.mp hfirst⟩
    · rcases ih hrest hmore with rfl | ⟨other, hother, hrest⟩
      · exact .inl rfl
      · exact .inr ⟨other, List.mem_cons_of_mem segment hother, hrest⟩

end Resolve

/-! ## Names in front of a text -/

def labelChars : List Char :=
  "abcdefghijklmnopqrstuvwxyz0123456789-".toList

structure Plain (c : Char) : Prop where
  isBreak : isBreak c = false
  isSlash : isSlash c = false
  isPathSpecial : isPathSpecial c = false
  unmarked : c ≠ '?' ∧ c ≠ '#'
  dot : c ≠ '.'
  percent : c ≠ '%'

theorem plain_of_mem_labelChars {c : Char} (h : c ∈ labelChars) : Plain c := by
  have hall : (labelChars.all fun c => !isBreak c && !isSlash c && !isPathSpecial c &&
      (c != '?' && c != '#') && c != '.' && c != '%') = true := by decide
  have hc := List.all_eq_true.mp hall c h
  simp only [Bool.and_eq_true, Bool.not_eq_true', bne_iff_ne] at hc
  obtain ⟨⟨⟨⟨⟨hbreak, hslash⟩, hspecial⟩, hmarks⟩, hdot⟩, hpercent⟩ := hc
  exact ⟨hbreak, hslash, hspecial, hmarks, hdot, hpercent⟩

def spelled (labels : List (List Char)) : List Char :=
  labels.flatMap (· ++ ['/'])

theorem spelled_cons_append (label : List Char) (labels : List (List Char)) (back : List Char) :
    spelled (label :: labels) ++ back = label ++ '/' :: (spelled labels ++ back) := by
  simp [spelled]

section Labels

variable {label : List Char} {labels : List (List Char)}

theorem segments_label (h : ∀ c ∈ label, Plain c) (back : List Char) :
    segments (label ++ '/' :: back) = label :: segments back := by
  have hkept : (label.filter fun c => !isBreak c) = label := by
    rw [List.filter_eq_self]
    intro c hc
    rw [(h c hc).isBreak, Bool.not_false]
  have hpiece : pieces label = [label] := by
    rw [pieces_eq_splitOn fun hc => absurd (h _ hc).isSlash (by decide),
      splitOn_of_not_mem fun hc => absurd (h _ hc).isSlash (by decide)]
  rw [segments, tidyEnd_append_slash, hkept, pathPart_append_slash fun c hc => (h c hc).unmarked,
    pieces_append_slash, hpiece, List.singleton_append, segments]

theorem resolve_label (h : ∀ c ∈ label, Plain c) (above rest : List (List Char)) :
    resolve above (label :: rest) = resolve (label :: above) rest := by
  have hplain : Unencoded label := unencoded_of_not_mem fun hc => (h _ hc).percent rfl
  have hdouble : isDoubleDot label = false := by
    rw [← Bool.not_eq_true, isDoubleDot_iff hplain]
    rintro rfl
    exact (h _ List.mem_cons_self).dot rfl
  have hsingle : isSingleDot label = false := by
    rw [← Bool.not_eq_true, isSingleDot_iff hplain]
    rintro rfl
    exact (h _ List.mem_cons_self).dot rfl
  rw [resolve, hdouble, hsingle, escape_eq_self fun c hc => (h c hc).isPathSpecial]
  rfl

theorem queryPart?_label (h : ∀ c ∈ label, Plain c) (back : List Char) :
    queryPart? (tidyEnd (label ++ '/' :: back)) = queryPart? (tidyEnd back) := by
  have hkept : ∀ c ∈ label.filter (fun c => !isBreak c), c ≠ '?' ∧ c ≠ '#' :=
    fun c hc => (h c (List.mem_of_mem_filter hc)).unmarked
  rw [tidyEnd_append_slash, queryPart?_append_slash hkept]

theorem segments_spelled (h : ∀ label ∈ labels, ∀ c ∈ label, Plain c) (back : List Char) :
    segments (spelled labels ++ back) = labels ++ segments back := by
  induction labels with
  | nil => rfl
  | cons label labels ih =>
    obtain ⟨hlabel, hlabels⟩ := List.forall_mem_cons.mp h
    rw [spelled_cons_append, segments_label hlabel, ih hlabels, List.cons_append]

theorem resolve_labels (h : ∀ label ∈ labels, ∀ c ∈ label, Plain c) (above rest : List (List Char)) :
    resolve above (labels ++ rest) = resolve (labels.reverse ++ above) rest := by
  induction labels generalizing above with
  | nil => rfl
  | cons label labels ih =>
    obtain ⟨hlabel, hlabels⟩ := List.forall_mem_cons.mp h
    rw [List.cons_append, resolve_label hlabel, ih hlabels, List.reverse_cons, List.append_assoc,
      List.singleton_append]

theorem queryPart?_spelled (h : ∀ label ∈ labels, ∀ c ∈ label, Plain c) (back : List Char) :
    queryPart? (tidyEnd (spelled labels ++ back)) = queryPart? (tidyEnd back) := by
  induction labels with
  | nil => rfl
  | cons label labels ih =>
    obtain ⟨hlabel, hlabels⟩ := List.forall_mem_cons.mp h
    rw [spelled_cons_append, queryPart?_label hlabel, ih hlabels]

end Labels

def added (text : String) : List String :=
  (resolve [] (segments text.toList)).map String.ofList

theorem added_ne_nil {text : String} (h : Level (segments text.toList)) : added text ≠ [] := by
  rw [added, ne_eq, List.map_eq_nil_iff]
  exact resolve_ne_nil h (segments_ne_nil _)

theorem slash_not_mem_of_mem_segments {text segment : List Char} (h : segment ∈ segments text) :
    '/' ∉ segment := by
  rw [segments, pieces] at h
  exact not_mem_of_mem_splitOn h

/-- What a text adds are segments, and no dot segments. -/
theorem mem_added {text : String} (h : Level (segments text.toList)) {name : String}
    (hname : name ∈ added text) : '/' ∉ name.toList ∧ name ≠ "." ∧ name ≠ ".." := by
  obtain ⟨chars, hchars, rfl⟩ := List.mem_map.mp hname
  rw [String.toList_ofList]
  rcases mem_resolve_cases h hchars with rfl | ⟨segment, hsegment, hsingle, hdouble, rfl⟩
  · decide
  · refine ⟨slash_not_mem_escape (slash_not_mem_of_mem_segments hsegment), ?_, ?_⟩
    · intro hdot
      have hplain := eq_of_escape_eq (by decide) (String.ofList_inj.mp hdot)
      rw [hplain] at hsingle
      cases hsingle
    · intro hdots
      have hplain := eq_of_escape_eq (by decide) (String.ofList_inj.mp hdots)
      rw [hplain] at hdouble
      cases hdouble

/-- A text that does not go up leads below the names in front of it. -/
theorem path_behind_spelled {labels : List (List Char)} (h : ∀ label ∈ labels, ∀ c ∈ label, Plain c)
    {text : String} (htext : Level (segments text.toList)) (base : Url) :
    (base.behind (String.ofList (spelled labels) ++ text)).path =
      base.path.dropLast ++ labels.map String.ofList ++ added text := by
  have hbase : (base.path.dropLast.map String.toList).map String.ofList = base.path.dropLast := by
    rw [List.map_map]
    exact List.map_id'' (fun name => String.ofList_toList) base.path.dropLast
  rw [behind]
  simp only [String.toList_append, String.toList_ofList]
  rw [segments_spelled h, resolve_labels h, resolve_eq_append htext, List.reverse_append,
    List.reverse_reverse, List.reverse_reverse, List.map_append, List.map_append, hbase, added]

theorem query_behind_spelled {labels : List (List Char)} (h : ∀ label ∈ labels, ∀ c ∈ label, Plain c)
    (text : String) (base : Url) : (base.behind (String.ofList (spelled labels) ++ text)).query =
      (base.behind text).query := by
  simp only [behind, String.toList_append, String.toList_ofList, queryPart?_spelled h]

theorem query_behind_eq_none_iff (text : String) (base : Url) :
    (base.behind text).query = none ↔ '?' ∉ text.toList.takeWhile (· != '#') := by
  rw [behind, Option.map_eq_none_iff, queryPart?_tidyEnd_eq_none_iff]

/-! ## Texts that are read as they stand -/

/-- A text that a URL spells in one way only: no mark in it means something else in a URL, and what
stands at its end is not dropped. -/
structure Verbatim (text : List Char) : Prop where
  unmarked : ∀ c ∈ text, c ≠ '?' ∧ c ≠ '#' ∧ c ≠ '\\' ∧ isBreak c = false
  ends : ∀ c ∈ text.getLast?, isPadding c = false
  unencoded : Unencoded text

theorem Verbatim.tidyEnd_eq {text : List Char} (h : Verbatim text) : tidyEnd text = text := by
  have hend : text.rdropWhile isPadding = text := by
    rw [List.rdropWhile_eq_self_iff]
    intro hne
    rw [h.ends _ (List.getLast?_eq_some_getLast hne)]
    exact Bool.false_ne_true
  rw [tidyEnd, hend, List.filter_eq_self]
  intro c hc
  rw [(h.unmarked c hc).2.2.2, Bool.not_false]

theorem Verbatim.pathPart_eq {text : List Char} (h : Verbatim text) : pathPart text = text := by
  rw [pathPart, List.takeWhile_eq_self_iff.mpr fun c hc => bne_iff_ne.mpr (h.unmarked c hc).2.1,
    List.takeWhile_eq_self_iff.mpr fun c hc => bne_iff_ne.mpr (h.unmarked c hc).1]

theorem Verbatim.segments_eq {text : List Char} (h : Verbatim text) :
    segments text = splitOn '/' text := by
  rw [segments, h.tidyEnd_eq, h.pathPart_eq, pieces_eq_splitOn]
  exact fun hc => (h.unmarked _ hc).2.2.1 rfl

theorem Verbatim.query_behind {text : String} (h : Verbatim text.toList) (base : Url) :
    (base.behind text).query = none := by
  rw [query_behind_eq_none_iff]
  exact fun hc => (h.unmarked _ ((List.takeWhile_sublist _).subset hc)).1 rfl

theorem Verbatim.unencoded_of_mem {text piece : List Char} (h : Verbatim text)
    (hpiece : piece ∈ splitOn '/' text) : Unencoded piece := by
  refine h.unencoded.of_isInfix ?_
  by_cases hne : piece = []
  · rw [hne]
    exact List.nil_infix
  · rw [← intercalate_splitOn '/' text]
    exact (infix_intercalate_iff (not_mem_of_mem_splitOn hpiece) hne _).mpr
      ⟨piece, hpiece, List.infix_rfl⟩

/-! ## The text that a request names -/

/-- URLs without queries that part behind some segments are told apart by their texts. -/
theorem eq_of_target_eq {url other : Url} {front names names' : List String}
    (hpath : url.path = front ++ names) (hpath' : other.path = front ++ names')
    (hfront : front ≠ []) (hnames : names ≠ []) (hnames' : names' ≠ [])
    (hslash : ∀ name ∈ names, '/' ∉ name.toList) (hslash' : ∀ name ∈ names', '/' ∉ name.toList)
    (hquery : url.query = none) (hquery' : other.query = none)
    (h : url.target = other.target) : names = names' := by
  -- the common segments and the slash behind them cancel, and slashes part the others
  rw [target, target, hquery, hquery', pathText, pathText, hpath, hpath',
    String.intercalate_append_of_ne_nil hfront hnames,
    String.intercalate_append_of_ne_nil hfront hnames'] at h
  have htexts : "/".intercalate names = "/".intercalate names' := by
    simpa [← String.toList_inj] using h
  have hchars : ['/'].intercalate (names.map String.toList) =
      ['/'].intercalate (names'.map String.toList) := by
    rw [← String.toList_inj, String.toList_intercalate, String.toList_intercalate] at htexts
    exact htexts
  have hsplit (list : List String) (hne : list ≠ []) (hfree : ∀ name ∈ list, '/' ∉ name.toList) :
      splitOn '/' (['/'].intercalate (list.map String.toList)) = list.map String.toList := by
    refine splitOn_intercalate (by simpa using hne) fun piece hpiece => ?_
    obtain ⟨name, hname, rfl⟩ := List.mem_map.mp hpiece
    exact hfree name hname
  have hmaps : names.map String.toList = names'.map String.toList := by
    rw [← hsplit names hnames hslash, ← hsplit names' hnames' hslash', hchars]
  exact (List.map_inj_right fun _ _ => String.toList_inj.mp).mp hmaps

end Cattery.Url
