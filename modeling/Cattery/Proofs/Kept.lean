import Cattery.Proofs.Compile
import Cattery.Step.Normalize

namespace Cattery

theorem Text.lowercase_eq_empty_iff (text : String) : lowercase text = "" ↔ text = "" := by
  rw [← String.toList_inj, ← String.toList_inj, toList_lowercase, Chars.lowercase]
  cases text.toList with
  | nil => simp [Chars.lowerFrom]
  | cons c rest => simp [Chars.lowerFrom, Chars.lowerImage_ne_nil]

namespace Step

/-! ## Steps without a route -/

theorem modelId?_ne_some_empty (step : Step) : step.modelId? ≠ some "" := by
  have hblank (text : String) : Text.nonBlank? text ≠ some "" := by
    rw [Ne, Text.nonBlank?_eq_some_iff]
    exact fun h => h.2 rfl
  rw [modelId?.eq_def]
  split
  · exact hblank _
  · exact hblank _
  · intro h
    obtain ⟨named, -, hnamed⟩ := Option.bind_eq_some_iff.mp h
    exact hblank named hnamed
  · intro h
    cases h

/-- A step has no route when it names no model and its kind has no route of its own. -/
theorem route_eq_empty_iff (step : Step) :
    step.route = "" ↔ step.modelId? = none ∧ step.kind.fixedRoute = "" := by
  rw [route, Text.lowercase_eq_empty_iff]
  cases hmodel : step.modelId? with
  | none => simp
  | some modelId =>
    have hne : modelId ≠ "" := by
      rintro rfl
      exact modelId?_ne_some_empty step hmodel
    simp [hne]

/-- The route holds a character that only itself becomes where the model does. -/
theorem not_mem_route {step : Step} {c : Char}
    (hc : ∃ run ∈ CaseTable.unmade, CaseTable.inRun c.toNat run = true)
    (hfixed : ∀ route ∈ ["vision-http", "transform-js", "transform-py", ""], c ∉ route.toList)
    (h : ∀ modelId ∈ step.modelId?, c ∉ modelId.toList) : c ∉ step.route.toList := by
  intro hin
  rw [route, Text.toList_lowercase] at hin
  have hmem := Chars.mem_of_mem_lowercase hc hin
  cases hmodel : step.modelId? with
  | none =>
    rw [hmodel, Option.getD_none] at hmem
    refine hfixed step.kind.fixedRoute ?_ hmem
    rw [Kind.fixedRoute.eq_def]
    split <;> simp
  | some modelId =>
    rw [hmodel, Option.getD_some] at hmem
    exact h modelId hmodel hmem

theorem eq_of_looseText?_eq_some {keys : List String} {entry : Json} {text : String}
    (h : looseText? keys entry = some text) : Text.trim text = text ∧ text ≠ "" := by
  obtain ⟨key, -, hkey⟩ := List.exists_of_findSome?_eq_some h
  obtain ⟨found, -, hfound⟩ := Option.bind_eq_some_iff.mp hkey
  obtain ⟨rfl, hne⟩ := (Text.nonBlank?_eq_some_iff found text).mp hfound
  exact ⟨Text.trim_trim found, hne⟩

/-- A default is blank when nothing is left of it and no text was found in its place. -/
theorem nonBlank?_getD_trim_eq_none_iff {keys : List String} (entry : Json) (default : String) :
    Text.nonBlank? ((looseText? keys entry).getD (Text.trim default)) = none ↔
      looseText? keys entry = none ∧ Text.isBlank default = true := by
  rw [Text.nonBlank?_eq_none_iff, ← Text.trim_eq_empty_iff, ← Text.trim_eq_empty_iff]
  cases htext : looseText? keys entry with
  | none => simp
  | some text =>
    obtain ⟨htrim, hne⟩ := eq_of_looseText?_eq_some htext
    simp [htrim, hne]

theorem looseKind?_of_ofLoose? {defaults : Defaults} {newId : String} {entry : Json} {step : Step}
    (h : ofLoose? defaults newId entry = some step) :
    looseKind? defaults entry = some step.kind := by
  rw [ofLoose?.eq_def] at h
  split at h
  · obtain ⟨kind, hkind, rfl⟩ := Option.map_eq_some_iff.mp h
    exact hkind
  · cases h

theorem type_eq_imageGen_iff {entry : Json} {tag : String}
    (htag : (looseText? ["type"] entry).getD "model" = tag) :
    looseText? ["type"] entry = some "image_gen" ↔ tag = "image_gen" := by
  -- a missing type is that of a model
  subst htag
  cases looseText? ["type"] entry with
  | none => simp
  | some named => simp

/-- Of the entries that become a step, only one that generates an image without a model of its own
has no route, and only when the default for it is blank. -/
theorem route_ofLoose?_eq_empty_iff {defaults : Defaults} {newId : String} {entry : Json}
    {step : Step} (h : ofLoose? defaults newId entry = some step) :
    step.route = "" ↔ Text.isBlank defaults.imageModelId = true ∧
      looseText? ["type"] entry = some "image_gen" ∧
        looseText? ["model_id", "modelId"] entry = none := by
  have hkind := looseKind?_of_ofLoose? h
  -- the kinds that have a route of their own
  have hfixed {tag : String} {kind : Kind} (htype : (looseText? ["type"] entry).getD "model" = tag)
      (hne : tag ≠ "image_gen") (hstep : kind = step.kind) (hroute : kind.fixedRoute ≠ "") :
      step.route = "" ↔ Text.isBlank defaults.imageModelId = true ∧
        looseText? ["type"] entry = some "image_gen" ∧
          looseText? ["model_id", "modelId"] entry = none := by
    rw [route_eq_empty_iff, ← hstep, type_eq_imageGen_iff htype]
    exact iff_of_false (fun h => hroute h.2) fun h => hne h.2.1
  unfold looseKind? at hkind
  simp only at hkind
  split at hkind
  · -- a call of a model is left out when the default is blank
    rename_i htype
    split at hkind
    · cases hkind
    · rename_i hmodel
      have hstep := Option.some_inj.mp hkind
      rw [route_eq_empty_iff, modelId?, ← hstep, type_eq_imageGen_iff htype]
      refine iff_of_false ?_ fun h => absurd h.2.1 (by decide)
      rintro ⟨hblank, -⟩
      obtain ⟨hmissing, hdefault⟩ := (nonBlank?_getD_trim_eq_none_iff entry _).mp hblank
      rw [hmissing, Option.getD_none, (Text.trim_eq_empty_iff _).mpr hdefault] at hmodel
      exact hmodel rfl
  · rename_i htype
    obtain ⟨path, -, hstep⟩ := Option.map_eq_some_iff.mp hkind
    exact hfixed htype (by decide) hstep (by simp [Kind.fixedRoute])
  · -- an image is generated whatever the default is
    rename_i htype
    have hstep := Option.some_inj.mp hkind
    have himage := (type_eq_imageGen_iff htype).mpr rfl
    rw [route_eq_empty_iff, modelId?, ← hstep]
    constructor
    · rintro ⟨hblank, -⟩
      obtain ⟨hmissing, hdefault⟩ := (nonBlank?_getD_trim_eq_none_iff entry _).mp hblank
      exact ⟨hdefault, himage, hmissing⟩
    · rintro ⟨hdefault, -, hmissing⟩
      exact ⟨(nonBlank?_getD_trim_eq_none_iff entry _).mpr ⟨hmissing, hdefault⟩, rfl⟩
  · rename_i htype
    obtain ⟨code, -, hstep⟩ := Option.map_eq_some_iff.mp hkind
    exact hfixed htype (by decide) hstep (by simp [Kind.fixedRoute])
  · rename_i htype
    obtain ⟨code, -, hstep⟩ := Option.map_eq_some_iff.mp hkind
    exact hfixed htype (by decide) hstep (by simp [Kind.fixedRoute])
  · cases hkind

theorem exists_ofLoose?_of_imageGen {entry : Json}
    (h : looseText? ["type"] entry = some "image_gen") (defaults : Defaults) (newId : String) :
    ∃ step, ofLoose? defaults newId entry = some step := by
  obtain ⟨key, -, hkey⟩ := List.exists_of_findSome?_eq_some h
  -- an entry with a member is an object
  cases entry with
  | object members =>
    rw [ofLoose?, looseKind?, h]
    exact ⟨_, rfl⟩
  | null | bool _ | number _ | string _ | array _ => cases hkey

def made (defaults : Defaults) (newId : Nat → String) (entries : List Json) : List Step :=
  match normalize defaults newId entries with
  | [] => standard defaults newId
  | steps => steps

section Made

variable {defaults : Defaults} {newId : Nat → String} {entries : List Json}

theorem made_of_eq_nil (h : normalize defaults newId entries = []) :
    made defaults newId entries = standard defaults newId := by
  rw [made, h]

theorem made_of_ne_nil (h : normalize defaults newId entries ≠ []) :
    made defaults newId entries = normalize defaults newId entries := by
  rw [made]
  split
  · rename_i hnil
    exact absurd hnil h
  · rfl

theorem mem_normalize {step : Step} :
    step ∈ normalize defaults newId entries ↔
      ∃ place entry, entries[place]? = some entry ∧
        ofLoose? defaults (newId place) entry = some step := by
  rw [normalize, List.mem_filterMap]
  constructor
  · rintro ⟨⟨entry, place⟩, hmem, hstep⟩
    exact ⟨place, entry, List.mem_zipIdx_iff_getElem?.mp hmem, hstep⟩
  · rintro ⟨place, entry, hentry, hstep⟩
    exact ⟨(entry, place), List.mem_zipIdx_iff_getElem?.mpr hentry, hstep⟩

theorem exists_mem_normalize_of_imageGen {entry : Json} (hentry : entry ∈ entries)
    (htype : looseText? ["type"] entry = some "image_gen") :
    ∃ step ∈ normalize defaults newId entries,
      ∃ place, ofLoose? defaults (newId place) entry = some step := by
  obtain ⟨place, hplace⟩ := List.mem_iff_getElem?.mp hentry
  obtain ⟨step, hstep⟩ := exists_ofLoose?_of_imageGen htype defaults (newId place)
  exact ⟨step, mem_normalize.mpr ⟨place, entry, hplace, hstep⟩, place, hstep⟩

theorem route_standard_eq_empty_iff {step : Step} (h : step ∈ standard defaults newId) :
    step.route = "" ↔ Text.isBlank defaults.modelId = true := by
  obtain rfl := List.mem_singleton.mp h
  rw [route_eq_empty_iff, modelId?, Text.nonBlank?_eq_none_iff]
  exact and_iff_left rfl

/-- The two ways in which a step without a route is made. -/
theorem route_made_ne_empty_iff :
    (∀ step ∈ made defaults newId entries, step.route ≠ "") ↔
      (Text.isBlank defaults.imageModelId = true → ∀ entry ∈ entries,
        looseText? ["type"] entry = some "image_gen" →
          looseText? ["model_id", "modelId"] entry ≠ none) ∧
      (Text.isBlank defaults.modelId = true → normalize defaults newId entries ≠ []) := by
  by_cases hnil : normalize defaults newId entries = []
  · -- no entry generates an image, since such an entry becomes a step
    have hnone : ∀ entry ∈ entries, looseText? ["type"] entry ≠ some "image_gen" := by
      intro entry hentry htype
      obtain ⟨step, hmem, -⟩ :=
        @exists_mem_normalize_of_imageGen defaults newId entries entry hentry htype
      rw [hnil] at hmem
      cases hmem
    rw [made_of_eq_nil hnil]
    constructor
    · intro h
      have hroute := h _ List.mem_cons_self
      rw [Ne, route_standard_eq_empty_iff List.mem_cons_self] at hroute
      exact ⟨fun _ entry hentry htype => absurd htype (hnone entry hentry),
        fun hblank => absurd hblank hroute⟩
    · rintro ⟨-, hstandard⟩ step hstep
      rw [Ne, route_standard_eq_empty_iff hstep]
      exact fun hblank => hstandard hblank hnil
  · rw [made_of_ne_nil hnil]
    constructor
    · intro h
      refine ⟨fun hblank entry hentry htype hmissing => ?_, fun _ => hnil⟩
      obtain ⟨step, hmem, place, hstep⟩ := exists_mem_normalize_of_imageGen hentry htype
      exact h step hmem ((route_ofLoose?_eq_empty_iff hstep).mpr ⟨hblank, htype, hmissing⟩)
    · rintro ⟨himage, -⟩ step hmem hroute
      obtain ⟨place, entry, hplace, hstep⟩ := mem_normalize.mp hmem
      obtain ⟨hblank, htype, hmissing⟩ := (route_ofLoose?_eq_empty_iff hstep).mp hroute
      exact himage hblank entry (List.mem_of_getElem? hplace) htype hmissing

end Made

end Step

namespace Document

variable {name description : String} {steps : List Step}

theorem sanitized?_of_mem_directivesFrom {directive : Directive}
    (h : directive ∈ directivesFrom 1 steps) :
    directive.sanitized? =
      if directive.index = 0 ∨ directive.modelId = "" then none else some directive := by
  obtain ⟨i, hi, rfl⟩ := List.mem_iff_getElem.mp h
  obtain ⟨step, hstep, heq⟩ := getElem_directivesFrom hi
  rw [heq]
  simp [Directive.sanitized?, step.lowercase_trim_route, step.trim_body, step.body_ne_empty]

theorem mem_of_mem_sanitize {directive : Directive}
    (h : directive ∈ Directive.sanitize (directivesFrom 1 steps)) :
    directive ∈ directivesFrom 1 steps := by
  obtain ⟨written, hwritten, hkept⟩ := List.mem_filterMap.mp (Directive.mem_sort.mp h)
  rw [sanitized?_of_mem_directivesFrom hwritten] at hkept
  split at hkept
  · cases hkept
  · obtain rfl := Option.some_inj.mp hkept
    exact hwritten

theorem encode_sanitize (globalText : String) (directives : List Directive) :
    encode ⟨globalText, Directive.sanitize directives⟩ = encode ⟨globalText, directives⟩ := by
  have hkept : Directive.sanitize (Directive.sanitize directives) = Directive.sanitize directives :=
    Directive.sanitize_eq_self (fun d hd => Directive.normal_of_mem_sanitize hd)
      (Directive.pairwise_sort _)
  unfold encode
  simp only [hkept]

/-- The router reads the directives of a cat that can be written, and no others. -/
theorem decode_compile_eq (hname : Prose name) (hdescription : Prose description)
    (hroute : ∀ step ∈ steps, '"' ∉ step.route.toList ∧ ']' ∉ step.route.toList)
    (htexts : ∀ step ∈ steps, ∀ text ∈ step.texts, Step.KeepsBlock text) :
    decode (compile name description steps).instructions =
      { globalText := globalDirective name description
        steps := Directive.sanitize (directivesFrom 1 steps) } := by
  -- written again it would be the same text, and of that text everything is read back
  have hcanonical : Canonical
      { globalText := globalDirective name description
        steps := Directive.sanitize (directivesFrom 1 steps) } :=
    { globalText_trimmed := trim_globalDirective name description
      steps_normal := fun directive h => Directive.normal_of_mem_sanitize h
      steps_readable := fun directive h =>
        readable_of_mem_directivesFrom hroute htexts (mem_of_mem_sanitize h)
      steps_sorted := Directive.pairwise_sort _ }
  have hglobal := proseLine_globalDirective hname hdescription
  have hdecode := hcanonical.decode_encode hglobal.routerClose hglobal.opensStep
  rwa [encode_sanitize] at hdecode

/-- No directive is left out exactly when the indices fit and every step has a route. -/
theorem length_sanitize_directivesFrom :
    (Directive.sanitize (directivesFrom 1 steps)).length = steps.length ↔
      steps.length < UInt32.size ∧ ∀ step ∈ steps, step.route ≠ "" := by
  have hall : (Directive.sanitize (directivesFrom 1 steps)).length = steps.length ↔
      ∀ directive ∈ directivesFrom 1 steps, directive.sanitized?.isSome = true := by
    rw [← length_directivesFrom 1 steps, Directive.sanitize, Directive.sort,
      List.length_mergeSort, List.filterMap_length_eq_length]
  rw [hall]
  constructor
  · intro h
    have hkept {i : Nat} {step : Step} (hstep : steps[i]? = some step) :
        UInt32.ofNat (1 + i) ≠ 0 ∧ step.route ≠ "" := by
      have hget := getElem?_directivesFrom 1 steps i
      rw [hstep, Option.map_some] at hget
      have hmem := List.mem_of_getElem? hget
      have hsome := h _ hmem
      rw [sanitized?_of_mem_directivesFrom hmem] at hsome
      split at hsome
      · cases hsome
      · rename_i hfree
        exact not_or.mp hfree
    constructor
    · by_contra hlong
      -- the index after the largest one is zero
      have hlt : UInt32.size - 1 < steps.length := by
        have hpos : 0 < UInt32.size := by decide
        omega
      exact (hkept (List.getElem?_eq_getElem hlt)).1 (by decide)
    · intro step hstep
      obtain ⟨i, hi⟩ := List.mem_iff_getElem?.mp hstep
      exact (hkept hi).2
  · rintro ⟨hlength, hroute⟩ directive hmem
    rw [(normal_of_mem_directivesFrom hlength hroute hmem).sanitized?_eq_some]
    rfl

theorem Prose.of_not_mem {text : String} (h : '[' ∉ text.toList) : Prose text where
  routerClose hin := h (hin.subset (by decide))
  opensStep := Segment.not_opensStep_of_not_mem h
  stepOpen_end hin := h (hin.subset (by decide))

section Made

variable {defaults : Step.Defaults} {newId : Nat → String} {entries : List Json}

/-- Every step that is made from loosely shaped entries is in the document, unless the indices do
not fit, an image is to be generated by a model that neither the entry nor the settings name, or
the standard step has no model. -/
theorem length_decode_compile_made (hname : '[' ∉ name.toList)
    (hdescription : '[' ∉ description.toList)
    (htexts : ∀ step ∈ Step.made defaults newId entries, ∀ text ∈ step.texts, '[' ∉ text.toList)
    (hids : ∀ step ∈ Step.made defaults newId entries, ∀ id ∈ step.modelId?,
      '"' ∉ id.toList ∧ ']' ∉ id.toList) :
    (decode (compile name description (Step.made defaults newId entries)).instructions).steps.length =
        (Step.made defaults newId entries).length ↔
      (Step.made defaults newId entries).length < UInt32.size ∧
      (Text.isBlank defaults.imageModelId = true → ∀ entry ∈ entries,
        Step.looseText? ["type"] entry = some "image_gen" →
          Step.looseText? ["model_id", "modelId"] entry ≠ none) ∧
      (Text.isBlank defaults.modelId = true → Step.normalize defaults newId entries ≠ []) := by
  have hroute : ∀ step ∈ Step.made defaults newId entries,
      '"' ∉ step.route.toList ∧ ']' ∉ step.route.toList := by
    intro step hstep
    constructor
    · exact Step.not_mem_route (by decide) (by decide) fun id hid => (hids step hstep id hid).1
    · exact Step.not_mem_route (by decide) (by decide) fun id hid => (hids step hstep id hid).2
  have hkeeps : ∀ step ∈ Step.made defaults newId entries, ∀ text ∈ step.texts,
      Step.KeepsBlock text := fun step hstep text htext =>
    Step.KeepsBlock.of_not_mem (htexts step hstep text htext)
  rw [decode_compile_eq (Prose.of_not_mem hname) (Prose.of_not_mem hdescription) hroute hkeeps,
    length_sanitize_directivesFrom, Step.route_made_ne_empty_iff]

end Made

def drawing : List Json :=
  [.object [("id", .string "a"), ("model_id", .string "m"), ("name", .string "Write")],
    .object [("id", .string "b"), ("name", .string "Draw"), ("type", .string "image_gen")]]

theorem length_decode_compile_drawing :
    (decode (compile "x" "" (Step.made Step.Defaults.standard (fun _ => "") drawing)).instructions
      ).steps.length = 2 := by
  have hlength : (Step.made Step.Defaults.standard (fun _ => "") drawing).length = 2 := by
    decide +kernel
  have hkept := @length_decode_compile_made "x" "" Step.Defaults.standard (fun _ => "") drawing
    (by decide +kernel) (by decide +kernel) (by decide +kernel) (by decide +kernel)
  rw [hlength] at hkept
  exact hkept.mpr ⟨by decide, fun hblank => absurd hblank (by decide +kernel),
    fun hblank => absurd hblank (by decide +kernel)⟩

/-- With a blank default the image is missing from the document, and nothing in any text or model
is in its way. -/
theorem length_decode_compile_drawing_ne :
    (∀ step ∈ Step.made ⟨"gemini-3-flash", ""⟩ (fun _ => "") drawing,
      (∀ text ∈ step.texts, '[' ∉ text.toList) ∧
        ∀ id ∈ step.modelId?, '"' ∉ id.toList ∧ ']' ∉ id.toList) ∧
      (decode (compile "x" "" (Step.made ⟨"gemini-3-flash", ""⟩ (fun _ => "") drawing)).instructions
        ).steps.length ≠ (Step.made ⟨"gemini-3-flash", ""⟩ (fun _ => "") drawing).length := by
  have hmade : Step.made ⟨"gemini-3-flash", ""⟩ (fun _ => "") drawing =
      [⟨"a", "Write", .model "m" ""⟩, ⟨"b", "Draw", .imageGen .request "" "" ""⟩] := by
    decide +kernel
  rw [hmade]
  refine ⟨by decide +kernel, ?_⟩
  rw [decode_compile_eq (by decide +kernel) (by decide +kernel) (by decide +kernel)
    (by decide +kernel), Ne, length_sanitize_directivesFrom]
  rintro ⟨-, hroute⟩
  exact hroute ⟨"b", "Draw", .imageGen .request "" "" ""⟩ (by simp) (by decide +kernel)

end Document

end Cattery
