import Cattery.Proofs.Base64
import Cattery.Proofs.Search
import Cattery.Proofs.Trim

namespace Cattery.Image

def asciiBlanks : List Char :=
  [' ', '\t', '\n', '\x0c', '\r']

inductive Strewn : List Char → List Char → Prop
  | nil : Strewn [] []
  | keep (c : Char) {text spread : List Char} (h : Strewn text spread) :
      Strewn (c :: text) (c :: spread)
  | blank {c : Char} (hc : c ∈ asciiBlanks) {text spread : List Char} (h : Strewn text spread) :
      Strewn text (c :: spread)

theorem isFiller_iff (c : Char) : isFiller c = true ↔ c ∈ asciiBlanks := by
  simp [isFiller, asciiBlanks, or_assoc]

/-- A character of base64 text is none of those that mean something else here. -/
theorem of_mem_encodeChars {bytes : List UInt8} {c : Char} (h : c ∈ Base64.encodeChars bytes) :
    isFiller c = false ∧ isBlank c = false ∧ c ≠ ':' :=
  Base64.forall_mem_encodeChars (p := fun c => isFiller c = false ∧ isBlank c = false ∧ c ≠ ':')
    (by decide) (by decide +kernel) bytes c h

variable {text spread : List Char}

theorem Strewn.mem (h : Strewn text spread) {c : Char} (hc : c ∈ spread) :
    c ∈ asciiBlanks ∨ c ∈ text := by
  induction h with
  | nil => cases hc
  | keep c' _ ih =>
    rcases List.mem_cons.mp hc with rfl | hc
    · exact Or.inr List.mem_cons_self
    · exact (ih hc).imp_right (List.mem_cons_of_mem c')
  | blank hblank _ ih =>
    rcases List.mem_cons.mp hc with rfl | hc
    · exact Or.inl hblank
    · exact ih hc

theorem Strewn.subset (h : Strewn text spread) : text ⊆ spread := by
  induction h with
  | nil => exact List.Subset.refl []
  | keep c _ ih => exact List.cons_subset_cons c ih
  | blank _ _ ih => exact List.subset_cons_of_subset _ ih

/-- Without white space a text is as it was. -/
theorem Strewn.filter_eq (h : Strewn text spread) (htext : ∀ c ∈ text, isFiller c = false) :
    spread.filter (fun c => !isFiller c) = text := by
  induction h with
  | nil => rfl
  | keep c _ ih =>
    obtain ⟨hc, hrest⟩ := List.forall_mem_cons.mp htext
    rw [List.filter_cons_of_pos (by simp [hc]), ih hrest]
  | blank hc _ ih =>
    rw [List.filter_cons_of_neg (by simp [(isFiller_iff _).mpr hc]), ih htext]

/-- White space is dropped from both ends first, which changes nothing. -/
theorem Strewn.filter_trim (h : Strewn text spread)
    (htext : ∀ c ∈ text, isFiller c = false ∧ isBlank c = false) :
    (Chars.trim spread).filter (fun c => !isFiller c) = text := by
  rw [Chars.filter_trim, h.filter_eq fun c hc => (htext c hc).1]
  intro c hc hblank
  rcases h.mem hc with hc | hc
  · simp [(isFiller_iff c).mpr hc]
  · rw [(htext c hc).2] at hblank
    cases hblank

inductive Heading : List Char → Prop
  | bare : Heading []
  | dataUrl {type : List Char} (h : ¬ ";base64,".toList <:+: type) :
      Heading ("data:".toList ++ type ++ ";base64,".toList)

theorem stripDataUrl_of_not_mem (h : ':' ∉ text) : stripDataUrl text = text := by
  have hnone : "data:".toList.isPrefixOf? text = none := by
    rw [isPrefixOf?_eq_none_iff]
    exact fun hstart => h (hstart.subset (by decide))
  rw [stripDataUrl, hnone]

theorem Heading.stripDataUrl_eq {heading : List Char} (h : Heading heading) (htext : ':' ∉ text) :
    stripDataUrl (heading ++ text) = text := by
  cases h with
  | bare => exact stripDataUrl_of_not_mem htext
  | @dataUrl type h =>
    have hstart : "data:".toList.isPrefixOf? ("data:".toList ++ type ++ ";base64,".toList ++ text) =
        some (type ++ ";base64,".toList ++ text) := by
      rw [isPrefixOf?_eq_some_iff]
      simp only [List.append_assoc]
    -- the mark starts with an element that does not come again in it, so it ends the type
    have hcut : cut? ";base64,".toList (type ++ ";base64,".toList ++ text) = some (type, text) :=
      (@cut?_eq_some_iff Char _ _ ';' "base64,".toList (by decide) _ _ _).mpr ⟨rfl, h⟩
    rw [stripDataUrl, hstart]
    simp only [hcut]

def payloadIn? (parsed : Json) (field : String) : Option String :=
  (parsed.text? field).bind fun text =>
    let payload := Chars.trim (stripDataUrl text.toList)
    if payload.isEmpty then none else some (String.ofList payload)

theorem find?_of_parsedJson {step : DebugStep} {parsed : Json} (h : step.parsedJson = some parsed) :
    find? step = fields.findSome? (payloadIn? parsed) := by
  rw [find?, h]
  rfl

/-- The image is in the first member that has one. -/
theorem find?_eq_some {step : DebugStep} {parsed : Json} {before after : List String}
    {field payload : String} (hparsed : step.parsedJson = some parsed)
    (hfields : fields = before ++ field :: after)
    (hbefore : ∀ preferred ∈ before, payloadIn? parsed preferred = none)
    (hfield : payloadIn? parsed field = some payload) : find? step = some payload := by
  rw [find?_of_parsedJson hparsed, hfields, List.findSome?_append,
    List.findSome?_eq_none_iff.mpr hbefore, List.findSome?_cons, hfield]
  rfl

variable {parsed : Json} {field : String}

theorem text?_eq_some_iff {held : String} :
    parsed.text? field = some held ↔ parsed.get? field = some (.string held) := by
  rw [Json.text?]
  cases parsed.get? field with
  | none => simp
  | some value => cases value <;> simp [Json.string?]

/-- A member has no image: it is absent, or no string, or blank behind what may stand before base64
text. -/
def Vacant (parsed : Json) (field : String) : Prop :=
  ∀ held, parsed.get? field = some (.string held) →
    ∃ heading rest, Heading heading ∧ (∀ c ∈ rest, isBlank c = true) ∧
      held.toList = heading ++ rest

theorem Vacant.payloadIn?_eq_none (h : Vacant parsed field) : payloadIn? parsed field = none := by
  rw [payloadIn?]
  cases hheld : parsed.text? field with
  | none => rfl
  | some held =>
    obtain ⟨heading, rest, hheading, hblank, htext⟩ := h held (text?_eq_some_iff.mp hheld)
    have hcolon : ':' ∉ rest := fun hmem => absurd (hblank ':' hmem) (by decide)
    rw [Option.bind_some, htext, hheading.stripDataUrl_eq hcolon,
      (Chars.trim_eq_nil_iff rest).mpr hblank]
    rfl

/-- A text has bytes in it: as base64 text with white space anywhere in it, behind the start of a
data URL or not. -/
def Embeds (held : String) (bytes : List UInt8) : Prop :=
  ∃ heading spread, Heading heading ∧ Strewn (Base64.encode bytes).toList spread ∧
    held.toList = heading ++ spread

theorem sniff_encodeChars (bytes : List UInt8) :
    Format.sniff (Base64.encodeChars bytes) = .jpeg ↔ [0xFF, 0xD8, 0xFF] <+: bytes := by
  have hdigits : "/9j/".toList = Base64.encodeChars [0xFF, 0xD8, 0xFF] := by decide +kernel
  rw [← Base64.encodeChars_three_isPrefix_iff, ← hdigits, ← List.isPrefixOf_iff_prefix,
    Format.sniff]
  split <;> simp_all

theorem Strewn.decode_trim {bytes : List UInt8} (h : Strewn (Base64.encodeChars bytes) spread)
    (hbytes : bytes ≠ []) : decode (String.ofList (Chars.trim spread)) =
      .ok (bytes, Format.sniff (Base64.encodeChars bytes)) := by
  have hdigits := h.filter_trim fun c hc =>
    ⟨(of_mem_encodeChars hc).1, (of_mem_encodeChars hc).2.1⟩
  obtain ⟨b, rest, rfl⟩ := List.exists_cons_of_ne_nil hbytes
  simp only [decode, String.toList_ofList, hdigits, Base64.decodeChars?_encodeChars]

theorem payloadIn?_of_embeds {held : String} {bytes : List UInt8}
    (hfield : parsed.get? field = some (.string held)) (h : Embeds held bytes)
    (hbytes : bytes ≠ []) : ∃ payload, payloadIn? parsed field = some payload ∧
      decode payload = .ok (bytes, Format.sniff (Base64.encodeChars bytes)) := by
  obtain ⟨heading, spread, hheading, hstrewn, htext⟩ := h
  rw [Base64.encode, String.toList_ofList] at hstrewn
  have hcolon : ':' ∉ spread := by
    intro hmem
    rcases hstrewn.mem hmem with hblank | hdigit
    · exact absurd hblank (by decide)
    · exact (of_mem_encodeChars hdigit).2.2 rfl
  -- the first digit is not blank, so something is left after trimming
  have hleft : Chars.trim spread ≠ [] := by
    obtain ⟨c, rest, hdigits⟩ :=
      List.exists_cons_of_ne_nil (Base64.encodeChars_ne_nil hbytes)
    have hc : c ∈ Base64.encodeChars bytes := hdigits ▸ List.mem_cons_self
    have hkept := Chars.mem_trim (of_mem_encodeChars hc).2.1 (hstrewn.subset hc)
    exact List.ne_nil_of_mem hkept
  refine ⟨String.ofList (Chars.trim spread), ?_, hstrewn.decode_trim hbytes⟩
  rw [payloadIn?, text?_eq_some_iff.mpr hfield, Option.bind_some, htext,
    hheading.stripDataUrl_eq hcolon]
  simp [hleft]

/-- Bytes that were put into a member of a record are found and read as they were, and their format
is that of their first bytes. -/
theorem decode_find?_of_embeds {step : DebugStep} {parsed : Json} {before after : List String}
    {field held : String} {bytes : List UInt8} (hparsed : step.parsedJson = some parsed)
    (hfields : fields = before ++ field :: after)
    (hvacant : ∀ preferred ∈ before, Vacant parsed preferred)
    (hfield : parsed.get? field = some (.string held)) (hheld : Embeds held bytes)
    (hbytes : bytes ≠ []) :
    ∃ payload format, find? step = some payload ∧ decode payload = .ok (bytes, format) ∧
      (format = .jpeg ↔ [0xFF, 0xD8, 0xFF] <+: bytes) := by
  obtain ⟨payload, hpayload, hdecode⟩ := payloadIn?_of_embeds hfield hheld hbytes
  have hbefore : ∀ preferred ∈ before, payloadIn? parsed preferred = none :=
    fun preferred hmem => (hvacant preferred hmem).payloadIn?_eq_none
  exact ⟨payload, _, find?_eq_some hparsed hfields hbefore hpayload, hdecode,
    sniff_encodeChars bytes⟩

def overlaid : Json :=
  .object [("image_base64", .string "data:image/png;base64, \n"), ("overlay_base64", .null),
    ("overlay_png_base64", .string "data:image/jpeg;base64, /9\nj/4A=\t=")]

theorem embeds_overlaid : Embeds "data:image/jpeg;base64, /9\nj/4A=\t=" [0xFF, 0xD8, 0xFF, 0xE0] := by
  have hdigits : (Base64.encode [0xFF, 0xD8, 0xFF, 0xE0]).toList =
      ['/', '9', 'j', '/', '4', 'A', '=', '='] := by decide +kernel
  refine ⟨"data:".toList ++ "image/jpeg".toList ++ ";base64,".toList,
    [' ', '/', '9', '\n', 'j', '/', '4', 'A', '=', '\t', '='], .dataUrl ?_, ?_, by decide +kernel⟩
  · rw [← occurs_iff_isInfix]
    decide +kernel
  · rw [hdigits]
    have hend : Strewn ['='] ['\t', '='] := .blank (by decide) (.keep '=' .nil)
    have hafter : Strewn ['j', '/', '4', 'A', '=', '='] ['\n', 'j', '/', '4', 'A', '=', '\t', '='] :=
      .blank (by decide) (.keep 'j' (.keep '/' (.keep '4' (.keep 'A' (.keep '=' hend)))))
    exact .blank (by decide) (.keep '/' (.keep '9' hafter))

theorem vacant_overlaid : ∀ preferred ∈ ["overlay_base64", "image_base64"],
    Vacant overlaid preferred := by
  rintro preferred hmem held hheld
  rcases List.mem_pair.mp hmem with rfl | rfl
  · cases hheld
  · obtain rfl : "data:image/png;base64, \n" = held := by simpa [overlaid, Json.get?] using hheld
    refine ⟨"data:".toList ++ "image/png".toList ++ ";base64,".toList, [' ', '\n'], .dataUrl ?_, ?_,
      by decide +kernel⟩
    · rw [← occurs_iff_isInfix]
      decide +kernel
    · intro c hc
      rcases List.mem_pair.mp hc with rfl | rfl <;> decide

theorem decode_find?_overlaid : ∃ payload format,
    find? ⟨1, "", "", 0, "", some overlaid⟩ = some payload ∧
      decode payload = .ok ([0xFF, 0xD8, 0xFF, 0xE0], format) ∧ format = .jpeg := by
  obtain ⟨payload, format, hfind, hdecode, hformat⟩ :=
    @decode_find?_of_embeds ⟨1, "", "", 0, "", some overlaid⟩ overlaid
      ["overlay_base64", "image_base64"] [] "overlay_png_base64" _ _ rfl rfl vacant_overlaid rfl
      embeds_overlaid (List.cons_ne_nil _ _)
  exact ⟨payload, format, hfind, hdecode, hformat.mpr (by decide)⟩

end Cattery.Image
