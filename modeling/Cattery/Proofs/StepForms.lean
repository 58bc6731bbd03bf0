import Cattery.Proofs.JsonText
import Cattery.Proofs.Kept
import Cattery.Step.Format
import Cattery.Text.Uuid

namespace Cattery

namespace Step

/-! ## The JSON form of a step -/

def members (step : Step) : List (String × Json) :=
  [("id", .string step.id), ("name", .string step.name), ("type", .string step.kind.tag)] ++
    step.kind.members

def IsForm (step : Step) (value : Json) : Prop :=
  ∃ written, value = .object written ∧ written.Perm step.members

theorem isForm_toJson (step : Step) : step.IsForm step.toJson :=
  ⟨step.members, rfl, List.Perm.refl _⟩

theorem nodup_keys_members (step : Step) : (step.members.map Prod.fst).Nodup := by
  obtain ⟨id, name, kind⟩ := step
  cases kind with
  | model modelId instructions => simp [members, Kind.members]
  | visionHttp path imageSource modelId instructions =>
    cases modelId <;> cases instructions <;> simp [members, Kind.members, optionalMember]
  | imageGen imageSource modelId systemInstructions instructions => simp [members, Kind.members]
  | transform language code => simp [members, Kind.members]

theorem ofName?_name (source : ImageSource) : ImageSource.ofName? source.name = some source := by
  cases source <;> rfl

theorem defaulted?_some {α β : Type} (read? : α → Option β) (default : β) (value : α) :
    Source.defaulted? read? default (some value) = read? value := rfl

theorem defaulted?_nullable?_map (text : Option String) :
    Source.defaulted? (Source.nullable? Json.string?) none (text.map Json.string) = some text := by
  cases text <;> rfl

section Form

variable {step : Step} {value : Json}

theorem IsForm.get? (h : step.IsForm value) (key : String) :
    value.get? key = step.members.lookup key := by
  obtain ⟨written, rfl, hperm⟩ := h
  exact Assoc.lookup_eq_of_perm hperm step.nodup_keys_members key

theorem IsForm.kindOfMembers? (h : step.IsForm value) :
    kindOfMembers? step.kind.tag value = some step.kind := by
  have hget := h.get?
  obtain ⟨id, name, kind⟩ := step
  cases kind with
  | model modelId instructions =>
    have hmodel : value.get? "model_id" = some (.string modelId) := hget "model_id"
    have hinstructions : value.get? "instructions" = some (.string instructions) :=
      hget "instructions"
    simp [Step.kindOfMembers?, Kind.tag, Json.string?, hmodel, hinstructions, defaulted?_some]
  | visionHttp path imageSource modelId instructions =>
    have hpath : value.get? "path" = some (.string path) := hget "path"
    have hsource : value.get? "image_source" = some (.string imageSource.name) :=
      hget "image_source"
    -- these two are left out when they are missing
    have hmodel : value.get? "model_id" = modelId.map .string := by
      rw [hget]
      cases modelId <;> cases instructions <;> rfl
    have hinstructions : value.get? "instructions" = instructions.map .string := by
      rw [hget]
      cases modelId <;> cases instructions <;> rfl
    simp [Step.kindOfMembers?, Kind.tag, Json.string?, hpath, hsource, hmodel, hinstructions,
      defaulted?_some, defaulted?_nullable?_map, imageSource?, ofName?_name]
  | imageGen imageSource modelId systemInstructions instructions =>
    have hsource : value.get? "image_source" = some (.string imageSource.name) :=
      hget "image_source"
    have hmodel : value.get? "model_id" = some (.string modelId) := hget "model_id"
    have hsystem : value.get? "system_instructions" = some (.string systemInstructions) :=
      hget "system_instructions"
    have hinstructions : value.get? "instructions" = some (.string instructions) :=
      hget "instructions"
    simp [Step.kindOfMembers?, Kind.tag, Json.string?, hsource, hmodel, hsystem, hinstructions,
      defaulted?_some, imageSource?, ofName?_name]
  | transform language code =>
    have hcode : value.get? "code" = some (.string code) := hget "code"
    cases language <;> simp [Step.kindOfMembers?, Kind.tag, Json.string?, hcode]

/-- A step is read back from an object with its members. -/
theorem IsForm.ofJson? (h : step.IsForm value) : ofJson? value = some step := by
  have hid : value.get? "id" = some (.string step.id) := h.get? "id"
  have hname : value.get? "name" = some (.string step.name) := h.get? "name"
  have htype : value.get? "type" = some (.string step.kind.tag) := h.get? "type"
  simp [Step.ofJson?, Json.text?, Json.string?, tag?, hid, hname, htype, h.kindOfMembers?]

end Form

/-! ## Steps that are at rest -/

def Kept (text : String) : Prop :=
  Text.nonBlank? text = some text

instance (text : String) : Decidable (Kept text) :=
  inferInstanceAs (Decidable (_ = _))

/-- What reading a kind of step loosely keeps: names are trimmed and not blank, free texts that may
be missing are not blank, and an image is generated by the default model when it names none. -/
def Kind.AtRest (defaults : Defaults) : Kind → Prop
  | .model modelId _ => Kept modelId
  | .visionHttp path _ modelId instructions =>
    Kept path ∧ (∀ id ∈ modelId, Kept id) ∧ ∀ text ∈ instructions, Text.isBlank text = false
  | .imageGen _ modelId _ _ =>
    (Text.nonBlank? modelId).getD (Text.trim defaults.imageModelId) = modelId
  | .transform _ code => Text.isBlank code = false

structure AtRest (defaults : Defaults) (step : Step) : Prop where
  id : Kept step.id
  name : Kept step.name
  kind : step.kind.AtRest defaults

theorem kept_iff (text : String) : Kept text ↔ Text.trim text = text ∧ text ≠ "" :=
  Text.nonBlank?_eq_some_iff text text

theorem kept_of_looseText?_eq_some {keys : List String} {entry : Json} {text : String}
    (h : looseText? keys entry = some text) : Kept text :=
  (kept_iff text).mpr (eq_of_looseText?_eq_some h)

theorem kept_looseText?_getD {keys : List String} (entry : Json) {default : String}
    (h : Kept default) : Kept ((looseText? keys entry).getD default) := by
  cases htext : looseText? keys entry with
  | none => exact h
  | some text => exact kept_of_looseText?_eq_some htext

theorem kept_looseText?_getD_trim {keys : List String} {entry : Json} {default : String}
    (h : (looseText? keys entry).getD (Text.trim default) ≠ "") :
    Kept ((looseText? keys entry).getD (Text.trim default)) := by
  cases htext : looseText? keys entry with
  | none =>
    rw [htext, Option.getD_none] at h
    exact (kept_iff _).mpr ⟨Text.trim_trim default, h⟩
  | some text => exact kept_of_looseText?_eq_some htext

theorem nonBlank?_getD_looseText?_getD {keys : List String} (entry : Json) (default : String) :
    (Text.nonBlank? ((looseText? keys entry).getD (Text.trim default))).getD (Text.trim default) =
      (looseText? keys entry).getD (Text.trim default) := by
  cases htext : looseText? keys entry with
  | none =>
    -- the default is left as it is when it is blank, and then put there again
    rw [Option.getD_none, Text.nonBlank?]
    split
    · rfl
    · rw [Option.getD_some, Text.trim_trim]
  | some text =>
    have hkept : Text.nonBlank? text = some text := kept_of_looseText?_eq_some htext
    rw [Option.getD_some, hkept, Option.getD_some]

theorem not_isBlank_of_looseCode?_eq_some {entry : Json} {code : String}
    (h : looseCode? entry = some code) : Text.isBlank code = false := by
  simpa using (Option.filter_eq_some_iff.mp h).2

/-- Whatever an entry is read as is at rest. -/
theorem atRest_of_looseKind?_eq_some {defaults : Defaults} {entry : Json} {kind : Kind}
    (h : looseKind? defaults entry = some kind) : kind.AtRest defaults := by
  -- one case for each type that an entry may name
  unfold looseKind? at h
  simp only at h
  split at h
  · split at h
    · cases h
    · rename_i hmodel
      obtain rfl := Option.some_inj.mp h
      exact kept_looseText?_getD_trim (by simpa using hmodel)
  · obtain ⟨path, hpath, rfl⟩ := Option.map_eq_some_iff.mp h
    refine ⟨kept_of_looseText?_eq_some hpath, fun id hid => kept_of_looseText?_eq_some hid, ?_⟩
    intro text htext
    simpa using (Option.filter_eq_some_iff.mp htext).2
  · obtain rfl := Option.some_inj.mp h
    exact nonBlank?_getD_looseText?_getD entry defaults.imageModelId
  · obtain ⟨code, hcode, rfl⟩ := Option.map_eq_some_iff.mp h
    exact not_isBlank_of_looseCode?_eq_some hcode
  · obtain ⟨code, hcode, rfl⟩ := Option.map_eq_some_iff.mp h
    exact not_isBlank_of_looseCode?_eq_some hcode
  · cases h

theorem atRest_of_ofLoose?_eq_some {defaults : Defaults} {newId : String} (hid : Kept newId)
    {entry : Json} {step : Step} (h : ofLoose? defaults newId entry = some step) :
    step.AtRest defaults := by
  have hkind := atRest_of_looseKind?_eq_some (looseKind?_of_ofLoose? h)
  have hstandard : Kept standardName := by decide +kernel
  rw [ofLoose?.eq_def] at h
  split at h
  · obtain ⟨kind, -, rfl⟩ := Option.map_eq_some_iff.mp h
    exact ⟨kept_looseText?_getD _ hid, kept_looseText?_getD _ hstandard, hkind⟩
  · cases h

section Form

variable {step : Step} {value : Json} {defaults : Defaults}

theorem looseText?_singleton (key : String) (entry : Json) :
    looseText? [key] entry = (entry.text? key).bind Text.nonBlank? := by
  rw [looseText?, List.findSome?_cons]
  cases (entry.text? key).bind Text.nonBlank? <;> rfl

theorem looseText?_of_get?_eq_some {key text : String} (h : value.get? key = some (.string text))
    (hkept : Kept text) : looseText? [key] value = some text := by
  rw [looseText?_singleton, Json.text?, h]
  exact hkept

theorem IsForm.looseText?_modelId (h : step.IsForm value) :
    looseText? ["model_id", "modelId"] value = (value.text? "model_id").bind Text.nonBlank? := by
  -- the second spelling is never written
  have hother : value.get? "modelId" = none := by
    rw [h.get?]
    obtain ⟨id, name, kind⟩ := step
    cases kind with
    | visionHttp path source modelId instructions =>
      cases modelId <;> cases instructions <;> rfl
    | model _ _ => rfl
    | imageGen _ _ _ _ => rfl
    | transform _ _ => rfl
  rw [looseText?, List.findSome?_cons]
  cases (value.text? "model_id").bind Text.nonBlank? with
  | some text => rfl
  | none => simp [Json.text?, hother]

theorem kept_tag (kind : Kind) : Kept kind.tag := by
  have htags : ∀ tag ∈ tags, Kept tag := by decide +kernel
  apply htags
  rw [Kind.tag.eq_def]
  split <;> simp [tags]

theorem looseImageSource_of_get?_eq_some {source : ImageSource}
    (h : value.get? "image_source" = some (.string source.name)) :
    looseImageSource value = source := by
  have htrim : Text.trim source.name = source.name := by
    cases source <;> decide +kernel
  rw [looseImageSource, h, Option.some_or, Option.bind_some, Json.string?, Option.map_some, htrim]
  cases source <;> rfl

/-- A kind of step that is at rest is what its object is read as. -/
theorem IsForm.looseKind? (h : step.IsForm value) (hrest : step.kind.AtRest defaults) :
    looseKind? defaults value = some step.kind := by
  have hget := h.get?
  have hmodelId := h.looseText?_modelId
  obtain ⟨id, name, kind⟩ := step
  have htype : looseText? ["type"] value = some kind.tag :=
    looseText?_of_get?_eq_some (hget "type") (kept_tag kind)
  unfold Step.looseKind?
  simp only [htype, Option.getD_some]
  cases kind with
  | model modelId instructions =>
    have hmodel : value.get? "model_id" = some (.string modelId) := hget "model_id"
    have hinstructions : value.get? "instructions" = some (.string instructions) :=
      hget "instructions"
    have hkept : Text.nonBlank? modelId = some modelId := hrest
    have hne : modelId ≠ "" := ((kept_iff modelId).mp hrest).2
    simp [Kind.tag, hmodelId, Json.text?, hmodel, hinstructions, hkept, hne, Json.string?]
  | visionHttp path imageSource modelId instructions =>
    obtain ⟨hpath, hmodels, htexts⟩ := hrest
    have hnamed : looseText? ["path"] value = some path :=
      looseText?_of_get?_eq_some (hget "path") hpath
    have hsource : looseImageSource value = imageSource :=
      looseImageSource_of_get?_eq_some (hget "image_source")
    -- what is missing from the object is missing again, and what is there is kept
    have hmodel : looseText? ["model_id", "modelId"] value = modelId := by
      rw [hmodelId, Json.text?, hget]
      cases modelId with
      | none => cases instructions <;> rfl
      | some id => exact hmodels id rfl
    have hinstructions : (value.text? "instructions").filter (fun text => !Text.isBlank text) =
        instructions := by
      have hmember : value.text? "instructions" = instructions := by
        rw [Json.text?, hget]
        cases modelId <;> cases instructions <;> rfl
      rw [hmember]
      cases instructions with
      | none => rfl
      | some text => rw [Option.filter_some, htexts text rfl, Bool.not_false, if_pos rfl]
    simp [Kind.tag, hnamed, hsource, hmodel, hinstructions]
  | imageGen imageSource modelId systemInstructions instructions =>
    have hmodel : value.get? "model_id" = some (.string modelId) := hget "model_id"
    have hsystem : value.get? "system_instructions" = some (.string systemInstructions) :=
      hget "system_instructions"
    have hinstructions : value.get? "instructions" = some (.string instructions) :=
      hget "instructions"
    have hkept : (Text.nonBlank? modelId).getD (Text.trim defaults.imageModelId) = modelId := hrest
    have hsource : looseImageSource value = imageSource :=
      looseImageSource_of_get?_eq_some (hget "image_source")
    simp [Kind.tag, hmodelId, Json.text?, hmodel, hinstructions, hsystem, hkept, hsource,
      Json.string?]
  | transform language code =>
    have hcode : value.get? "code" = some (.string code) := hget "code"
    have hblank : Text.isBlank code = false := hrest
    have hloose : looseCode? value = some code := by
      simp [looseCode?, Json.text?, hcode, Json.string?, hblank]
    cases language <;> simp [Kind.tag, hloose]

/-- A step that is at rest is what its object is read as, and no new id is taken for it. -/
theorem IsForm.ofLoose? (h : step.IsForm value) (hrest : step.AtRest defaults) (newId : String) :
    ofLoose? defaults newId value = some step := by
  have hkind := h.looseKind? hrest.kind
  have hid := looseText?_of_get?_eq_some (h.get? "id") hrest.id
  have hname := looseText?_of_get?_eq_some (h.get? "name") hrest.name
  obtain ⟨written, rfl, -⟩ := h
  rw [Step.ofLoose?, hkind, hid, hname]
  rfl

end Form

/-! ## New ids -/

end Step

theorem Hex.isBlank_digit {n : Nat} (h : n < 16) : isBlank (digit n) = false := by
  have hall : ∀ n < 16, isBlank (digit n) = false := by decide +kernel
  exact hall n h

theorem Hex.not_isBlank_of_mem_digits {count n : Nat} {c : Char} (h : c ∈ digits count n) :
    isBlank c = false := by
  obtain ⟨place, -, rfl⟩ := List.mem_map.mp h
  exact isBlank_digit (Nat.mod_lt _ (by decide))

namespace Uuid

theorem not_isBlank_of_mem_grouped {sizes : List Nat} {digits : List Char}
    (h : ∀ c ∈ digits, isBlank c = false) :
    ∀ group ∈ grouped sizes digits, ∀ c ∈ group.toList, isBlank c = false := by
  induction sizes generalizing digits with
  | nil => simp [grouped]
  | cons size sizes ih =>
    rw [grouped, List.forall_mem_cons, String.toList_ofList]
    exact ⟨fun c hc => h c (List.mem_of_mem_take hc),
      ih fun c hc => h c (List.mem_of_mem_drop hc)⟩

theorem not_isBlank_of_mem_intercalate {groups : List String}
    (h : ∀ group ∈ groups, ∀ c ∈ group.toList, isBlank c = false) :
    ∀ c ∈ ("-".intercalate groups).toList, isBlank c = false := by
  induction groups with
  | nil => simp
  | cons group groups ih =>
    obtain ⟨hgroup, hgroups⟩ := List.forall_mem_cons.mp h
    by_cases hnil : groups = []
    · rwa [hnil, String.intercalate_singleton]
    · have hdash : ∀ c ∈ "-".toList, isBlank c = false := List.forall_mem_singleton.mpr rfl
      rw [String.intercalate_cons_of_ne_nil hnil, String.toList_append, String.toList_append]
      exact List.forall_mem_append.mpr ⟨List.forall_mem_append.mpr ⟨hgroup, hdash⟩, ih hgroups⟩

theorem not_isBlank_of_mem_text (bits : BitVec 128) :
    ∀ c ∈ (text bits).toList, isBlank c = false :=
  not_isBlank_of_mem_intercalate
    (not_isBlank_of_mem_grouped fun _ hc => Hex.not_isBlank_of_mem_digits hc)

theorem text_ne_empty (bits : BitVec 128) : text bits ≠ "" := by
  rw [text, grouped, grouped, String.intercalate_cons_cons]
  simp [← String.toList_inj]

end Uuid

namespace Step

theorem kept_uuid (bits : BitVec 128) : Kept (Uuid.text bits) := by
  have htrim : Chars.trim (Uuid.text bits).toList = (Uuid.text bits).toList := by
    rw [Chars.trim_eq_self_iff]
    exact ⟨fun c hc => Uuid.not_isBlank_of_mem_text bits c (List.mem_of_mem_head? hc),
      fun c hc => Uuid.not_isBlank_of_mem_text bits c (List.mem_of_mem_getLast? hc)⟩
  rw [kept_iff, ← String.toList_inj, Text.toList_trim]
  exact ⟨htrim, Uuid.text_ne_empty bits⟩

/-! ## Normalizing twice -/

theorem normalize_of_forms {defaults : Defaults} {steps : List Step} {values : List Json}
    (h : List.Forall₂ IsForm steps values) (hrest : ∀ step ∈ steps, step.AtRest defaults)
    (newId : Nat → String) : normalize defaults newId values = steps := by
  rw [normalize]
  generalize 0 = place
  induction h generalizing place with
  | nil => rfl
  | @cons step value steps values hform _ ih =>
    have hstep := hform.ofLoose? (hrest step List.mem_cons_self) (newId place)
    have hsteps := ih (fun step hmem => hrest step (List.mem_cons_of_mem _ hmem)) (place + 1)
    simp only [List.zipIdx_cons, List.filterMap_cons, hstep, hsteps]

theorem map_ofJson?_of_forms {steps : List Step} {values : List Json}
    (h : List.Forall₂ IsForm steps values) : values.map ofJson? = steps.map some := by
  induction h with
  | nil => rfl
  | cons hform _ ih => rw [List.map_cons, List.map_cons, hform.ofJson?, ih]

/-- Steps made from loosely shaped entries are what they are written as: reading that loosely again
changes nothing and takes no new id, and reading it strictly gives the same steps. Read strictly,
any step is what it is written as. -/
theorem normalize_normalize (defaults : Defaults) (numbers : Nat → BitVec 128)
    (entries : List Json) :
    (∀ values,
      List.Forall₂ IsForm
        (normalize defaults (fun place => Uuid.text (Uuid.ofRandom (numbers place))) entries)
        values →
      (∀ newId, normalize defaults newId values =
        normalize defaults (fun place => Uuid.text (Uuid.ofRandom (numbers place))) entries) ∧
      values.map ofJson? =
        (normalize defaults (fun place => Uuid.text (Uuid.ofRandom (numbers place))) entries).map
          some) ∧
    ∀ step : Step, step.IsForm step.toJson ∧ ∀ value, step.IsForm value →
      ofJson? value = some step := by
  constructor
  · intro values hforms
    refine ⟨normalize_of_forms hforms ?_, map_ofJson?_of_forms hforms⟩
    intro step hmem
    obtain ⟨place, entry, -, hstep⟩ := mem_normalize.mp hmem
    exact atRest_of_ofLoose?_eq_some (kept_uuid _) hstep
  · exact fun step => ⟨isForm_toJson step, fun value hform => hform.ofJson?⟩

def handedOver : List Json :=
  [.object [("id", .string " a "), ("imageSource", .string " previous_overlay "),
      ("instructions", .string "\t"), ("modelId", .string " m\n"), ("model_id", .string " "),
      ("path", .string " /detect "), ("type", .string "vision_http")],
    .string "not a step",
    .object [("id", .null), ("instructions", .string " a cat "), ("name", .string " Draw "),
      ("type", .string " image_gen")],
    .object [("code", .string " 1 "), ("id", .string "c"), ("type", .string "transform_py")],
    .object [("id", .string "d"), ("name", .string "Write")]]

def handedOverSteps : List Step :=
  [⟨"a", "Kitten", .visionHttp "/detect" .previousOverlay (some "m") none⟩,
    ⟨"00000000-0000-4000-8000-000000000002", "Draw", .imageGen .request "" "" " a cat "⟩,
    ⟨"c", "Kitten", .transform .py " 1 "⟩]

def handedOverForms : List Json :=
  [.object [("id", .string "a"), ("image_source", .string "previous_overlay"),
      ("model_id", .string "m"), ("name", .string "Kitten"), ("path", .string "/detect"),
      ("type", .string "vision_http")],
    .object [("id", .string "00000000-0000-4000-8000-000000000002"),
      ("image_source", .string "original"), ("instructions", .string " a cat "),
      ("model_id", .string ""), ("name", .string "Draw"), ("system_instructions", .string ""),
      ("type", .string "image_gen")],
    .object [("code", .string " 1 "), ("id", .string "c"), ("name", .string "Kitten"),
      ("type", .string "transform_py")]]

theorem normalize_handedOverForms :
    normalize ⟨" ", "\t"⟩ (fun place => Uuid.text (Uuid.ofRandom (.ofNat 128 place))) handedOver =
        handedOverSteps ∧
      (∀ newId, normalize ⟨" ", "\t"⟩ newId handedOverForms = handedOverSteps) ∧
      handedOverForms.map ofJson? = handedOverSteps.map some := by
  have hsteps : normalize ⟨" ", "\t"⟩
      (fun place => Uuid.text (Uuid.ofRandom (.ofNat 128 place))) handedOver = handedOverSteps := by
    decide +kernel
  have hforms : List.Forall₂ IsForm handedOverSteps handedOverForms :=
    .cons ⟨_, rfl, by decide +kernel⟩ (.cons ⟨_, rfl, by decide +kernel⟩
      (.cons ⟨_, rfl, by decide +kernel⟩ .nil))
  have hrest := (normalize_normalize ⟨" ", "\t"⟩ (.ofNat 128) handedOver).1 handedOverForms
  rw [hsteps] at hrest
  exact ⟨hsteps, hrest hforms⟩

end Step

end Cattery
