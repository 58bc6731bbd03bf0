import Cattery.Document.Codec
import Cattery.Proofs.Attributes
import Cattery.Proofs.LowerCase
import Cattery.Proofs.Scan

namespace Cattery.Directive

structure Normal (directive : Directive) : Prop where
  index_ne_zero : directive.index ≠ 0
  modelId_lower : Text.lowercase (Text.trim directive.modelId) = directive.modelId
  modelId_ne_empty : directive.modelId ≠ ""
  instructions_trimmed : Text.trim directive.instructions = directive.instructions
  instructions_ne_empty : directive.instructions ≠ ""

structure Readable (directive : Directive) : Prop where
  instructions_closed : ¬ Tag.stepClose <:+: directive.instructions.toList
  modelId_unquoted : '"' ∉ directive.modelId.toList
  modelId_closed : ']' ∉ directive.modelId.toList

instance (directive : Directive) : Decidable directive.Readable :=
  decidable_of_iff (¬ Tag.stepClose <:+: directive.instructions.toList ∧
      '"' ∉ directive.modelId.toList ∧ ']' ∉ directive.modelId.toList)
    ⟨fun h => ⟨h.1, h.2.1, h.2.2⟩, fun h =>
      ⟨h.instructions_closed, h.modelId_unquoted, h.modelId_closed⟩⟩

theorem lowercase_trim_lowercase_trim (text : List Char) :
    Chars.lowercase (Chars.trim (Chars.lowercase (Chars.trim text))) =
      Chars.lowercase (Chars.trim text) := by
  rw [Chars.trim_lowercase (Chars.trim_trim text), Chars.lowercase_lowercase]

theorem normal_of_sanitized?_eq_some {directive kept : Directive}
    (h : directive.sanitized? = some kept) : kept.Normal := by
  obtain ⟨⟨⟨hindex, hmodel⟩, hbody⟩, rfl⟩ :
      ((directive.index ≠ 0 ∧ Text.lowercase (Text.trim directive.modelId) ≠ "") ∧
        Text.trim directive.instructions ≠ "") ∧
        { directive with
          modelId := Text.lowercase (Text.trim directive.modelId)
          instructions := Text.trim directive.instructions } = kept := by
    simpa [sanitized?] using h
  refine ⟨hindex, ?_, hmodel, Text.trim_trim _, hbody⟩
  rw [← String.toList_inj]
  simp only [Text.toList_lowercase, Text.toList_trim, lowercase_trim_lowercase_trim]

theorem Normal.sanitized?_eq_some {directive : Directive} (h : directive.Normal) :
    directive.sanitized? = some directive := by
  simp [sanitized?, h.modelId_lower, h.instructions_trimmed, h.index_ne_zero, h.modelId_ne_empty,
    h.instructions_ne_empty]

theorem mem_sort {directive : Directive} {directives : List Directive} :
    directive ∈ sort directives ↔ directive ∈ directives :=
  List.mem_mergeSort

/-- The order of indices as the sort tests it. -/
theorem index_le_trans (a b c : Directive) (hab : decide (a.index ≤ b.index) = true)
    (hbc : decide (b.index ≤ c.index) = true) : decide (a.index ≤ c.index) = true :=
  decide_eq_true (UInt32.le_trans (of_decide_eq_true hab) (of_decide_eq_true hbc))

theorem index_le_total (a b : Directive) :
    (decide (a.index ≤ b.index) || decide (b.index ≤ a.index)) = true := by
  simpa using UInt32.le_total a.index b.index

theorem pairwise_sort (directives : List Directive) :
    (sort directives).Pairwise fun a b => a.index ≤ b.index :=
  (List.pairwise_mergeSort index_le_trans index_le_total directives).imp fun h =>
    of_decide_eq_true h

/-- Sorting leaves the directives of one index in the order they are in. -/
theorem filter_index_sort (index : UInt32) (directives : List Directive) :
    (sort directives).filter (fun directive => directive.index = index) =
      directives.filter fun directive => directive.index = index := by
  have hequal : (directives.filter fun directive => directive.index = index).Pairwise
      fun a b => decide (a.index ≤ b.index) = true := by
    apply List.pairwise_of_forall_mem_list
    intro a ha b hb
    have haindex : a.index = index := by simpa using (List.mem_filter.mp ha).2
    have hbindex : b.index = index := by simpa using (List.mem_filter.mp hb).2
    rw [haindex, hbindex]
    exact decide_eq_true (UInt32.le_refl index)
  -- in order they stay as they are, and sorting brings in no others
  have hsublist : (directives.filter fun directive => directive.index = index).Sublist
      (sort directives) :=
    List.sublist_mergeSort index_le_trans index_le_total hequal List.filter_sublist
  have hkept := hsublist.filter fun directive => directive.index = index
  rw [List.filter_filter] at hkept
  simp only [Bool.and_self] at hkept
  have hlength : ((sort directives).filter fun directive => directive.index = index).length =
      (directives.filter fun directive => directive.index = index).length :=
    ((List.mergeSort_perm directives _).filter _).length_eq
  exact (hkept.eq_of_length hlength.symm).symm

theorem sort_eq_self {directives : List Directive}
    (h : directives.Pairwise fun a b => a.index ≤ b.index) : sort directives = directives :=
  List.mergeSort_of_pairwise (h.imp fun hle => decide_eq_true hle)

theorem normal_of_mem_sanitize {directive : Directive} {directives : List Directive}
    (h : directive ∈ sanitize directives) : directive.Normal := by
  obtain ⟨written, -, hkept⟩ := List.mem_filterMap.mp (mem_sort.mp h)
  exact normal_of_sanitized?_eq_some hkept

/-- Sanitizing keeps normal directives that are in order. -/
theorem sanitize_eq_self {directives : List Directive} (hnormal : ∀ d ∈ directives, d.Normal)
    (hsorted : directives.Pairwise fun a b => a.index ≤ b.index) :
    sanitize directives = directives := by
  have hall : directives.filterMap sanitized? = directives :=
    filterMap_eq_self fun d hd => (hnormal d hd).sanitized?_eq_some
  rw [sanitize, hall, sort_eq_self hsorted]

def toBlock (directive : Directive) : Block :=
  { attributes := " index=\"".toList ++ (Nat.toDigits 10 directive.index.toNat ++
      ("\" model=\"".toList ++ (directive.modelId.toList ++ ['"'])))
    body := '\n' :: (directive.instructions.toList ++ ['\n']) }

theorem toBlock_attributes (directive : Directive) :
    directive.toBlock.attributes =
      [' '] ++ ("index".toList ++ [] ++ '=' :: [] ++
        '"' :: Nat.toDigits 10 directive.index.toNat ++ '"' :: ([' '] ++ ("model".toList ++ [] ++
          '=' :: [] ++ '"' :: directive.modelId.toList ++ '"' :: []))) := by
  have hindex : " index=\"".toList = ' ' :: ("index".toList ++ ['=', '"']) := rfl
  have hmodel : "\" model=\"".toList = '"' :: ' ' :: ("model".toList ++ ['=', '"']) := rfl
  have hattributes : directive.toBlock.attributes =
      " index=\"".toList ++ (Nat.toDigits 10 directive.index.toNat ++
        ("\" model=\"".toList ++ (directive.modelId.toList ++ ['"']))) := rfl
  rw [hattributes, hindex, hmodel]
  simp only [List.append_assoc, List.cons_append, List.nil_append]

theorem toBlock_body (directive : Directive) :
    directive.toBlock.body = ['\n'] ++ directive.instructions.toList ++ ['\n'] := rfl

theorem toList_blockText (directive : Directive) :
    (Document.blockText directive).toList =
      '\n' :: Segment.source (.block directive.toBlock) ++ ['\n'] := by
  -- the literals of the text, cut where the parts of the block begin
  have hopen : "\n[step index=\"".toList = '\n' :: (Tag.stepOpen ++ " index=\"".toList) := rfl
  have hend : "\"]\n".toList = ['"', ']', '\n'] := rfl
  have hclose : "\n[/step]\n".toList = '\n' :: (Tag.stepClose ++ ['\n']) := rfl
  have hsource : Segment.source (.block directive.toBlock) =
      Tag.stepOpen ++ (" index=\"".toList ++ (Nat.toDigits 10 directive.index.toNat ++
        ("\" model=\"".toList ++ (directive.modelId.toList ++ ['"'])))) ++
        ']' :: ('\n' :: (directive.instructions.toList ++ ['\n'])) ++ Tag.stepClose := rfl
  unfold Document.blockText
  rw [hsource]
  simp only [String.toList_append, Nat.toString_eq_repr, Nat.toList_repr, hopen, hend, hclose,
    List.append_assoc, List.cons_append, List.nil_append]

theorem Readable.wellFormed_toBlock {directive : Directive} (h : directive.Readable) :
    directive.toBlock.WellFormed where
  attributes_start := by
    rw [toBlock_attributes]
    simp [isBlank]
  attributes_closed := by
    have hdigits := not_mem_toDigits (c := ']') (by decide) directive.index.toNat
    rw [toBlock_attributes]
    simp [h.modelId_closed, hdigits]
  body_closed := by
    have hmark : '\n' ∉ Tag.stepClose := by decide
    rw [toBlock_body, infix_padded_iff hmark (by decide)]
    exact h.instructions_closed

theorem pairs_toBlock_attributes {directive : Directive} (h : '"' ∉ directive.modelId.toList) :
    Attributes.pairs directive.toBlock.attributes =
      [("index".toList, Nat.toDigits 10 directive.index.toNat),
        ("model".toList, directive.modelId.toList)] := by
  have hindex : Attributes.IsKey "index".toList :=
    ⟨⟨'i', rfl, by decide⟩, List.all_eq_true.mp (by decide)⟩
  have hmodel : Attributes.IsKey "model".toList :=
    ⟨⟨'m', rfl, by decide⟩, List.all_eq_true.mp (by decide)⟩
  have hdigits := not_mem_toDigits (c := '"') (by decide) directive.index.toNat
  have hblank : ∀ c ∈ [' '], isBlank c = true := List.forall_mem_singleton.mpr rfl
  have hnone : ∀ c ∈ ([] : List Char), isBlank c = true := by simp
  -- one blank, the index, one blank, the model, and nothing after it
  rw [toBlock_attributes, Attributes.pairs_blank_append hblank,
    Attributes.pairs_of_pairAt?_eq_some (Attributes.pairAt?_written hindex hnone hnone hdigits _),
    Attributes.pairs_blank_append hblank,
    Attributes.pairs_of_pairAt?_eq_some (Attributes.pairAt?_written hmodel hnone hnone h _)]
  rfl

/-- A normal directive is read back from its block. -/
theorem directive?_toBlock {directive : Directive} (hnormal : directive.Normal)
    (h : '"' ∉ directive.modelId.toList) :
    Document.directive? directive.toBlock = some directive := by
  have hindex : Attributes.value? "index" directive.toBlock.attributes =
      some (Nat.toDigits 10 directive.index.toNat) := by
    rw [Attributes.value?, pairs_toBlock_attributes h]
    rfl
  have hmodel : Attributes.value? "model" directive.toBlock.attributes =
      some directive.modelId.toList := by
    rw [Attributes.value?, pairs_toBlock_attributes h]
    rfl
  have hnumber : Attributes.index? (Nat.toDigits 10 directive.index.toNat) =
      some directive.index := by
    have hpos : 0 < directive.index.toNat :=
      Nat.pos_of_ne_zero fun hzero => hnormal.index_ne_zero (UInt32.toNat_inj.mp hzero)
    rw [Attributes.index?_toDigits hpos directive.index.toNat_lt, UInt32.ofNat_toNat]
  have hlower : Chars.lowercase (Chars.trim directive.modelId.toList) =
      directive.modelId.toList := by
    simpa using congrArg String.toList hnormal.modelId_lower
  have hbody : Chars.trim directive.toBlock.body = directive.instructions.toList := by
    rw [toBlock_body, Chars.trim_newlines]
    simpa using congrArg String.toList hnormal.instructions_trimmed
  simp [Document.directive?, hindex, hmodel, hnumber, hlower, hbody, hnormal.modelId_ne_empty,
    hnormal.instructions_ne_empty]

/-- What a block carries: an index above zero, the model in lower case and the trimmed body. -/
theorem eq_of_directive?_eq_some {block : Block} {directive : Directive}
    (h : Document.directive? block = some directive) :
    ∃ model, Attributes.value? "model" block.attributes = some model ∧
      directive.index ≠ 0 ∧ directive.modelId.toList = Chars.lowercase (Chars.trim model) ∧
      directive.instructions.toList = Chars.trim block.body ∧
      directive.modelId ≠ "" ∧ directive.instructions ≠ "" := by
  simp only [Document.directive?, Option.bind_eq_bind, Option.bind_eq_some_iff] at h
  obtain ⟨index, ⟨number, -, hindex⟩, model, hmodel, h⟩ := h
  obtain ⟨⟨hmodelId, hbody⟩, rfl⟩ :
      (Chars.lowercase (Chars.trim model) ≠ [] ∧ Chars.trim block.body ≠ []) ∧
        (⟨index, String.ofList (Chars.lowercase (Chars.trim model)),
          String.ofList (Chars.trim block.body)⟩ : Directive) = directive := by
    simpa using h
  refine ⟨model, hmodel, Attributes.index?_ne_zero hindex, String.toList_ofList,
    String.toList_ofList, ?_, ?_⟩
  · simpa [← String.toList_inj] using hmodelId
  · simpa [← String.toList_inj] using hbody

/-- Whatever is read off a block is normal. -/
theorem normal_of_directive?_eq_some {block : Block} {directive : Directive}
    (h : Document.directive? block = some directive) : directive.Normal := by
  obtain ⟨model, -, hindex, hmodel, hbody, hmodelId, hinstructions⟩ := eq_of_directive?_eq_some h
  refine ⟨hindex, ?_, hmodelId, ?_, hinstructions⟩
  · rw [← String.toList_inj, Text.toList_lowercase, Text.toList_trim, hmodel,
      lowercase_trim_lowercase_trim]
  · rw [← String.toList_inj, Text.toList_trim, hbody, Chars.trim_trim]

/-- Whatever is read off a well-formed block is readable: lower case and trimming bring no mark
into a text. -/
theorem readable_of_directive?_eq_some {block : Block} (hblock : block.WellFormed)
    {directive : Directive} (h : Document.directive? block = some directive) :
    directive.Readable := by
  obtain ⟨model, hvalue, -, hmodel, hbody, -, -⟩ := eq_of_directive?_eq_some h
  obtain ⟨hquote, hsub⟩ := Attributes.value?_eq_some hvalue
  -- the marks are characters that lower case makes of nothing else
  have hmem {c : Char} (hc : ∃ run ∈ CaseTable.unmade, CaseTable.inRun c.toNat run = true)
      (h : c ∈ directive.modelId.toList) : c ∈ model := by
    rw [hmodel] at h
    exact (Chars.trim_isInfix model).subset (Chars.mem_of_mem_lowercase hc h)
  refine ⟨?_, fun h => hquote (hmem (by decide) h), fun h => hblock.attributes_closed ?_⟩
  · rw [hbody]
    exact fun h => hblock.body_closed (h.trans (Chars.trim_isInfix block.body))
  · exact hsub (hmem (by decide) h)

end Cattery.Directive
