import Cattery.Proofs.VisionSettings

namespace Cattery

namespace Vision

namespace Share

def nothing : Share :=
  ⟨false, [], []⟩

def append (first second : Share) : Share :=
  ⟨first.includeRaw || second.includeRaw, first.targets ++ second.targets,
    first.blocks ++ second.blocks⟩

def ofEntries (entries : List Json) : Share :=
  ⟨(entries.map ofEntry).any includeRaw, (entries.map ofEntry).flatMap targets,
    (entries.map ofEntry).flatMap blocks⟩

theorem ofEntries_append (entries more : List Json) :
    ofEntries (entries ++ more) = (ofEntries entries).append (ofEntries more) := by
  simp [ofEntries, append]

theorem ofEntries_cons (entry : Json) (entries : List Json) :
    ofEntries (entry :: entries) = (ofEntry entry).append (ofEntries entries) := by
  simp [ofEntries, append]

theorem nothing_append (share : Share) : nothing.append share = share := rfl

/-- Of an entry, only its contribution matters. -/
theorem ofEntries_replace {entry entry' : Json} (h : ofEntry entry = ofEntry entry')
    (front back : List Json) :
    ofEntries (front ++ entry :: back) = ofEntries (front ++ entry' :: back) := by
  rw [ofEntries_append, ofEntries_append, ofEntries_cons, ofEntries_cons, h]

end Share

def storedEntries (entries : List Json) : Json :=
  .object [("steps", .array entries)]

/-- The settings are what the entries contribute together. -/
theorem ofStored_storedEntries (entries : List Json) :
    Config.ofStored (storedEntries entries) =
      ⟨!(Share.ofEntries entries).targets.isEmpty, (Share.ofEntries entries).includeRaw,
        (Share.ofEntries entries).targets,
        (Json.array (Share.ofEntries entries).blocks).indented⟩ := rfl

theorem storedBlocks_storedEntries (entries : List Json) :
    storedBlocks (storedEntries entries) = (Share.ofEntries entries).blocks := rfl

variable {value entry entry' config config' : Json} {items items' : List Json} {key : String}

def Unknown (entry : Json) : Prop :=
  entry.get? "type" ≠ some (.string "vision_sam3") ∧
    entry.get? "type" ≠ some (.string "vision_postprocess")

theorem ofEntry_of_unknown (h : Unknown entry) : Share.ofEntry entry = .nothing := by
  have hkind : (entry.text? "type").bind EntryKind.ofTag? = none := by
    rw [Json.text?]
    cases htype : entry.get? "type" with
    | none => rfl
    | some type =>
      cases type with
      | string tag =>
        have hne : tag ≠ "vision_sam3" ∧ tag ≠ "vision_postprocess" := by
          simpa [Unknown, htype] using h
        simp [Json.string?, EntryKind.ofTag?, hne.1, hne.2]
      | null | bool _ | number _ | array _ | object _ => rfl
  rw [Share.ofEntry, hkind]
  rfl

structure Searchable (value : Json) : Prop where
  name : ∃ name, value.get? "name" = some (.string name) ∧ Text.isBlank name = false
  prompt : ∃ prompts prompt, value.get? "prompts" = some (.array prompts) ∧
    .string prompt ∈ prompts ∧ Text.isBlank prompt = false

theorem string?_eq_some_iff {text : String} : value.string? = some text ↔ value = .string text := by
  cases value <;> simp [Json.string?]

theorem array?_eq_some_iff : value.array? = some items ↔ value = .array items := by
  cases value <;> simp [Json.array?]

theorem isSome_sanitized?_iff (target : Target) :
    target.sanitized?.isSome = true ↔
      Text.isBlank target.name = false ∧ ∃ prompt ∈ target.prompts, Text.isBlank prompt = false := by
  rw [Target.sanitized?]
  cases hblank : Text.isBlank target.name with
  | true => simp [Text.nonBlank?, hblank]
  | false => simp [Text.nonBlank?, hblank, List.filterMap_eq_nil_iff]

/-- Exactly those targets are read. -/
theorem isSome_ofStored?_iff : (Target.ofStored? value).isSome = true ↔ Searchable value := by
  constructor
  · intro h
    obtain ⟨target, htarget⟩ := Option.isSome_iff_exists.mp h
    simp only [Target.ofStored?, Option.bind_eq_bind, Option.bind_eq_some_iff, Json.text?,
      string?_eq_some_iff, array?_eq_some_iff] at htarget
    obtain ⟨name, ⟨_, hname, rfl⟩, prompts, ⟨_, hprompts, rfl⟩, hkept⟩ := htarget
    obtain ⟨hblank, prompt, hprompt, hne⟩ :=
      (isSome_sanitized?_iff _).mp (Option.isSome_iff_exists.mpr ⟨target, hkept⟩)
    obtain ⟨item, hitem, hstring⟩ := List.mem_filterMap.mp hprompt
    rw [string?_eq_some_iff] at hstring
    exact ⟨⟨name, hname, hblank⟩, prompts, prompt, hprompts, hstring ▸ hitem, hne⟩
  · intro h
    obtain ⟨name, hname, hblank⟩ := h.name
    obtain ⟨prompts, prompt, hprompts, hmem, hne⟩ := h.prompt
    have hread : Target.ofStored? value =
        Target.sanitized? ⟨name, prompts.filterMap Json.string?⟩ := by
      simp [Target.ofStored?, Json.text?, hname, hprompts, Json.string?, Json.array?]
    rw [hread, isSome_sanitized?_iff]
    exact ⟨hblank, prompt, List.mem_filterMap.mpr ⟨_, hmem, rfl⟩, hne⟩

structure Differ (key : String) (items items' : List Json) (entry entry' : Json) : Prop where
  others : ∀ other, other ≠ "config" → entry.get? other = entry'.get? other
  configs : ∃ config config', entry.get? "config" = some config ∧
    entry'.get? "config" = some config' ∧ config.get? key = some (.array items) ∧
      config'.get? key = some (.array items') ∧
        ∀ other, other ≠ key → config.get? other = config'.get? other

theorem listMember_eq (h : config.get? key = some (.array items)) :
    listMember key config = items := by
  rw [listMember, h]
  rfl

/-- Two entries contribute the same when what counts of the two lists is the same. -/
theorem Differ.ofEntry_eq (h : Differ key items items' entry entry') (hraw : key ≠ "include_raw")
    (htargets : key = "targets" →
      items.filterMap Target.ofStored? = items'.filterMap Target.ofStored?)
    (hblocks : key = "blocks" → (items.filter fun block => block.object?.isSome) =
      items'.filter fun block => block.object?.isSome) :
    Share.ofEntry entry = Share.ofEntry entry' := by
  obtain ⟨config, config', hconfig, hconfig', hitems, hitems', hothers⟩ := h.configs
  have htype : entry.text? "type" = entry'.text? "type" := by
    rw [Json.text?, Json.text?, h.others "type" (by decide)]
  have htargets' : (listMember "targets" config).filterMap Target.ofStored? =
      (listMember "targets" config').filterMap Target.ofStored? := by
    by_cases hkey : key = "targets"
    · rw [← hkey, listMember_eq hitems, listMember_eq hitems', htargets hkey]
    · rw [listMember, listMember, hothers "targets" (Ne.symm hkey)]
  have hblocks' : ((listMember "blocks" config).filter fun block => block.object?.isSome) =
      (listMember "blocks" config').filter fun block => block.object?.isSome := by
    by_cases hkey : key = "blocks"
    · rw [← hkey, listMember_eq hitems, listMember_eq hitems', hblocks hkey]
    · rw [listMember, listMember, hothers "blocks" (Ne.symm hkey)]
  unfold Share.ofEntry
  rw [htype, hconfig, hconfig']
  simp only [Option.getD_some, hothers "include_raw" (Ne.symm hraw), htargets', hblocks']

inductive Edit (a b : List Json) : Prop
  | entry {front back : List Json} {entry : Json} (h : Unknown entry)
      (ha : a = front ++ back) (hb : b = front ++ entry :: back)
  | target {front back before after : List Json} {entry entry' target : Json}
      (h : ¬ Searchable target)
      (hentry : Differ "targets" (before ++ after) (before ++ target :: after) entry entry')
      (ha : a = front ++ entry :: back) (hb : b = front ++ entry' :: back)
  | block {front back before after : List Json} {entry entry' block : Json}
      (h : block.object? = none)
      (hentry : Differ "blocks" (before ++ after) (before ++ block :: after) entry entry')
      (ha : a = front ++ entry :: back) (hb : b = front ++ entry' :: back)

theorem Edit.ofEntries_eq {a b : List Json} (h : Edit a b) :
    Share.ofEntries a = Share.ofEntries b := by
  cases h with
  | entry h ha hb =>
    rw [ha, hb, Share.ofEntries_append, Share.ofEntries_append, Share.ofEntries_cons,
      ofEntry_of_unknown h, Share.nothing_append]
  | @target _ _ before after entry entry' target h hentry ha hb =>
    have hnone : Target.ofStored? target = none := by
      rwa [← Option.not_isSome_iff_eq_none, isSome_ofStored?_iff]
    have hshare : Share.ofEntry entry = Share.ofEntry entry' := by
      apply hentry.ofEntry_eq (by decide)
      · intro _
        rw [List.filterMap_append, List.filterMap_append, List.filterMap_cons_none hnone]
      · intro hkey
        exact absurd hkey (by decide)
    rw [ha, hb, Share.ofEntries_replace hshare]
  | @block _ _ before after entry entry' block h hentry ha hb =>
    have hshare : Share.ofEntry entry = Share.ofEntry entry' := by
      apply hentry.ofEntry_eq (by decide)
      · intro hkey
        exact absurd hkey (by decide)
      · intro _
        rw [List.filter_append, List.filter_append, List.filter_cons_of_neg (by simp [h])]
    rw [ha, hb, Share.ofEntries_replace hshare]

theorem ofStored_eq_of_edits {a b : List Json} (h : Relation.EqvGen Edit a b) :
    Config.ofStored (storedEntries a) = Config.ofStored (storedEntries b) := by
  have hshares : Share.ofEntries a = Share.ofEntries b :=
    eq_of_eqvGen (fun _ _ hedit => Edit.ofEntries_eq hedit) h
  rw [ofStored_storedEntries, ofStored_storedEntries, hshares]

theorem ofStored_string {text : String} (hparse : Json.parse? text = some value)
    (h : ∀ inner, value ≠ .string inner) :
    Config.ofStored (.string text) = Config.ofStored value := by
  have hspelled : Config.ofStored (.string text) = .ofEntries (listMember "steps" value) := by
    rw [Config.ofStored, hparse]
    rfl
  rw [hspelled]
  cases value with
  | string inner => exact absurd rfl (h inner)
  | null | bool _ | number _ | array _ | object _ => rfl

/-- Reading the entries of two lists one after the other is reading each and putting the results one
after the other; what contributes nothing does not matter wherever it stands; a text is read as
the value it spells, if that is no text; and what is read of a target is kept as it is. -/
theorem ofStored_homomorphic :
    (∀ entries more : List Json,
      (Config.ofStored (storedEntries (entries ++ more))).targets =
          (Config.ofStored (storedEntries entries)).targets ++
            (Config.ofStored (storedEntries more)).targets ∧
        (Config.ofStored (storedEntries (entries ++ more))).includeRaw =
          ((Config.ofStored (storedEntries entries)).includeRaw ||
            (Config.ofStored (storedEntries more)).includeRaw) ∧
        storedBlocks (storedEntries (entries ++ more)) =
          storedBlocks (storedEntries entries) ++ storedBlocks (storedEntries more)) ∧
    (∀ stored : Json,
      (Config.ofStored stored).blocksJson = (Json.array (storedBlocks stored)).indented ∧
        ((Config.ofStored stored).enabled = true ↔ (Config.ofStored stored).targets ≠ []) ∧
        ∀ target ∈ (Config.ofStored stored).targets, target.sanitized? = some target) ∧
    (∀ entries edited : List Json, Relation.EqvGen Edit entries edited →
      Config.ofStored (storedEntries entries) = Config.ofStored (storedEntries edited)) ∧
    ∀ (text : String) (value : Json), Json.parse? text = some value →
      (∀ inner, value ≠ .string inner) →
        Config.ofStored (.string text) = Config.ofStored value := by
  refine ⟨?_, ?_, fun entries edited => ofStored_eq_of_edits, fun text value => ofStored_string⟩
  · intro entries more
    have happend := Share.ofEntries_append entries more
    rw [storedBlocks_storedEntries, storedBlocks_storedEntries, storedBlocks_storedEntries,
      ofStored_storedEntries, ofStored_storedEntries, ofStored_storedEntries, happend]
    exact ⟨rfl, rfl, rfl⟩
  · intro stored
    refine ⟨blocksJson_ofStored stored, ?_, usable_of_mem_targets_ofStored⟩
    rw [enabled_ofStored]
    simp

def lookFor (targets : List Json) : Json :=
  .object [("config", .object [("include_raw", .bool true), ("targets", .array targets)]),
    ("type", .string "vision_sam3")]

def tabby : Json :=
  .object [("name", .string " cat"), ("prompts", .array [.null, .string "tabby "])]

def nameless : Json :=
  .object [("name", .string "\t"), ("prompts", .array [.string "x"])]

theorem not_searchable_nameless : ¬ Searchable nameless := by
  rw [← isSome_ofStored?_iff]
  decide +kernel

theorem differ_lookFor (targets targets' : List Json) :
    Differ "targets" targets targets' (lookFor targets) (lookFor targets') where
  others other hother := by simp [lookFor, Json.get?, List.lookup_cons, beq_false_of_ne hother]
  configs := by
    refine ⟨_, _, rfl, rfl, rfl, rfl, ?_⟩
    intro other hother
    simp [Json.get?, List.lookup_cons, beq_false_of_ne hother]

theorem ofStored_homomorphic_scattered :
    Config.ofStored (storedEntries [.null, lookFor [nameless, tabby]]) =
        ⟨true, true, [⟨"cat", ["tabby"]⟩], "[]"⟩ ∧
      Config.ofStored (.string "\x7b\"steps\":[null]\x7d") =
        Config.ofStored (storedEntries [.null]) := by
  obtain ⟨-, -, hedits, htext⟩ := ofStored_homomorphic
  constructor
  · have htarget : Edit [lookFor [tabby]] [lookFor [nameless, tabby]] :=
      @Edit.target _ _ [] [] [] [tabby] _ _ _ not_searchable_nameless (differ_lookFor _ _) rfl rfl
    have hentry : Edit [lookFor [nameless, tabby]] [.null, lookFor [nameless, tabby]] :=
      @Edit.entry _ _ [] _ _ ⟨by decide, by decide⟩ rfl rfl
    rw [← hedits _ _ (.trans _ _ _ (.rel _ _ htarget) (.rel _ _ hentry))]
    decide +kernel
  · exact htext _ _ (by decide +kernel) (by simp [storedEntries])

end Vision

end Cattery
