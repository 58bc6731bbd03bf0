import Cattery.Proofs.JsonRead
import Cattery.Proofs.Search
import Cattery.Proofs.Trim
import Cattery.Vision.Config

namespace Cattery

namespace Json

variable {test : Json → Bool} {value member : Json} {key : String}

theorem all_of_get?_eq_some (h : value.all test = true) (hmember : value.get? key = some member) :
    member.all test = true := by
  cases value with
  | object members =>
    rw [all, Bool.and_eq_true, allMembers_iff] at h
    obtain ⟨before, after, rfl, -⟩ := List.lookup_eq_some_iff.mp hmember
    exact h.2 (key, member) (by simp)
  | null | bool _ | number _ | string _ | array _ => cases hmember

theorem all_of_mem_listMember (h : value.all test = true) :
    ∀ item ∈ Vision.listMember key value, item.all test = true := by
  intro item hitem
  rw [Vision.listMember] at hitem
  cases hitems : (value.get? key).bind array? with
  | none =>
    rw [hitems] at hitem
    cases hitem
  | some items =>
    rw [hitems, Option.getD_some] at hitem
    obtain ⟨list, hlist, harray⟩ := Option.bind_eq_some_iff.mp hitems
    have hall := all_of_get?_eq_some h hlist
    cases list with
    | array found =>
      obtain rfl := Option.some_inj.mp harray
      rw [all, Bool.and_eq_true, allItems_iff] at hall
      exact hall.2 item hitem
    | null | bool _ | number _ | string _ | object _ => cases harray

end Json

namespace Vision

/-! ## Targets -/

def Target.Usable (target : Target) : Prop :=
  target.sanitized? = some target

theorem Target.usable_of_sanitized?_eq_some {target kept : Target}
    (h : target.sanitized? = some kept) : kept.Usable := by
  rw [sanitized?] at h
  cases hname : Text.nonBlank? target.name with
  | none => simp [hname] at h
  | some name =>
    obtain ⟨hprompts, rfl⟩ : target.prompts.filterMap Text.nonBlank? ≠ [] ∧
        (⟨name, target.prompts.filterMap Text.nonBlank?⟩ : Target) = kept := by
      simpa [hname] using h
    have hagain : (target.prompts.filterMap Text.nonBlank?).filterMap Text.nonBlank? =
        target.prompts.filterMap Text.nonBlank? := by
      apply filterMap_eq_self
      intro prompt hprompt
      obtain ⟨written, -, hkept⟩ := List.mem_filterMap.mp hprompt
      exact Text.nonBlank?_of_eq_some hkept
    simp [Usable, sanitized?, Text.nonBlank?_of_eq_some hname, hagain, hprompts]

theorem Target.ofStored?_toJson (target : Target) :
    ofStored? target.toJson = target.sanitized? := by
  have hname : target.toJson.text? "name" = some target.name := rfl
  have hprompts : (target.toJson.get? "prompts").bind Json.array? =
      some (target.prompts.map .string) := rfl
  have htexts : (target.prompts.map Json.string).filterMap Json.string? = target.prompts := by
    rw [List.filterMap_map]
    exact filterMap_eq_self fun _ _ => rfl
  simp [ofStored?, hname, hprompts, htexts]

theorem usable_of_mem_filterMap {targets : List Target} :
    ∀ target ∈ targets.filterMap Target.sanitized?, target.Usable := by
  intro target htarget
  obtain ⟨written, -, hkept⟩ := List.mem_filterMap.mp htarget
  exact Target.usable_of_sanitized?_eq_some hkept

/-! ## Blocks -/

theorem trim_indented_array (items : List Json) :
    Text.trim (Json.array items).indented = (Json.array items).indented := by
  rw [← String.toList_inj, Text.toList_trim, Json.indented, String.toList_ofList]
  cases items with
  | nil => decide
  | cons item rest =>
    apply Chars.trim_eq_self_of_ends (c := '[') (d := ']')
    · rw [Json.indentedChars]
      · rfl
      · exact List.cons_ne_nil item rest
    · rw [Json.indentedChars]
      · exact List.getLast?_concat
      · exact List.cons_ne_nil item rest
    · decide
    · decide

theorem isBlank_indented_array (items : List Json) :
    Text.isBlank (Json.array items).indented = false := by
  rw [← Bool.not_eq_true, ← Text.trim_eq_empty_iff, trim_indented_array, ← String.toList_inj,
    Json.indented, String.toList_ofList]
  cases items with
  | nil => decide
  | cons item rest =>
    rw [Json.indentedChars]
    · exact List.cons_ne_nil _ _
    · exact List.cons_ne_nil item rest

theorem findIdx?_object_eq_none_iff (blocks : List Json) :
    (blocks.findIdx? fun block => block.object?.isNone) = none ↔
      ∀ block ∈ blocks, block.object?.isSome = true := by
  simp [List.findIdx?_eq_none_iff, Option.isSome_iff_ne_none]

theorem readBlocks_indented {blocks : List Json} (hlength : blocks.length ≤ maxBlocks)
    (hobjects : ∀ block ∈ blocks, block.object?.isSome = true)
    (hparse : Json.parse? (Json.array blocks).indented = some (.array blocks)) :
    readBlocks (Json.array blocks).indented = .ok blocks := by
  have hfind := (findIdx?_object_eq_none_iff blocks).mpr hobjects
  rw [readBlocks, isBlank_indented_array, trim_indented_array, hparse]
  simp only [Bool.false_eq_true, if_false, if_neg (Nat.not_lt.mpr hlength), hfind]

theorem of_readBlocks_eq_ok {text : String} {blocks : List Json} (h : readBlocks text = .ok blocks) :
    blocks.length ≤ maxBlocks ∧ (∀ block ∈ blocks, block.object?.isSome = true) ∧
      Json.Fits Tree.deepest (.array blocks) := by
  rw [readBlocks] at h
  split at h
  · obtain rfl : [] = blocks := by simpa using h
    exact ⟨Nat.zero_le _, by simp, ⟨by decide, rfl⟩⟩
  · split at h
    · cases h
    · rename_i items hparse
      split at h
      · cases h
      · rename_i hlength
        split at h
        · cases h
        · rename_i hfind
          obtain rfl : items = blocks := by simpa using h
          exact ⟨Nat.not_lt.mp hlength, (findIdx?_object_eq_none_iff items).mp hfind,
            Json.fits_of_parse?_eq_some hparse⟩
    · cases h

/-! ## What is stored -/

def storedValue (includeRaw : Bool) (targets : List Target) (blocks : List Json) : Json :=
  .object [("steps", .array [
    entry .segmentation (.object [("include_raw", .bool includeRaw),
      ("targets", .array (targets.map Target.toJson))]),
    entry .postprocess (.object [("blocks", .array blocks)])])]

section Build

variable {config : Config} {value : Json} {includeRaw : Bool} {targets : List Target}
  {blocks : List Json}

/-- Settings are stored when they are enabled, have a target left and have blocks that may be
stored. -/
theorem build_eq_ok_some_iff :
    config.build = .ok (some value) ↔
      config.enabled = true ∧ config.targets.filterMap Target.sanitized? ≠ [] ∧
        ∃ blocks, readBlocks config.blocksJson = .ok blocks ∧
          value = storedValue config.includeRaw
            ((config.targets.filterMap Target.sanitized?).take maxTargets) blocks := by
  rw [Config.build]
  cases henabled : config.enabled with
  | false => simp
  | true =>
    by_cases htargets : config.targets.filterMap Target.sanitized? = []
    · simp [htargets]
    · have hkept : (config.targets.filterMap Target.sanitized?).isEmpty = false := by
        simpa using htargets
      simp only [Bool.not_true, Bool.false_eq_true, if_false, hkept]
      cases hblocks : readBlocks config.blocksJson with
      | error refusal =>
        constructor
        · intro h
          cases h
        · rintro ⟨-, -, blocks, hread, -⟩
          cases hread
      | ok blocks =>
        constructor
        · intro h
          obtain rfl := Option.some_inj.mp (Except.ok.inj h)
          exact ⟨trivial, htargets, blocks, rfl, rfl⟩
        · rintro ⟨-, -, found, hread, rfl⟩
          obtain rfl := Except.ok.inj hread
          rfl

theorem ofEntry_segmentation (includeRaw : Bool) (targets : List Target) :
    Share.ofEntry (entry .segmentation (.object [("include_raw", .bool includeRaw),
      ("targets", .array (targets.map Target.toJson))])) =
      ⟨includeRaw, targets.filterMap Target.sanitized?, []⟩ := by
  have htargets : (targets.map Target.toJson).filterMap Target.ofStored? =
      targets.filterMap Target.sanitized? := by
    rw [List.filterMap_map]
    exact List.filterMap_congr fun target _ => target.ofStored?_toJson
  rw [← htargets]
  rfl

theorem ofEntry_postprocess (blocks : List Json) :
    Share.ofEntry (entry .postprocess (.object [("blocks", .array blocks)])) =
      ⟨false, [], blocks.filter fun block => block.object?.isSome⟩ :=
  rfl

/-- What was stored is read as it was. -/
theorem ofStored_storedValue (hne : targets ≠ []) (husable : ∀ target ∈ targets, target.Usable)
    (hobjects : ∀ block ∈ blocks, block.object?.isSome = true) :
    Config.ofStored (storedValue includeRaw targets blocks) =
      ⟨true, includeRaw, targets, (Json.array blocks).indented⟩ := by
  have hshares : Config.ofStored (storedValue includeRaw targets blocks) = Config.ofEntries
      [entry .segmentation (.object [("include_raw", .bool includeRaw),
        ("targets", .array (targets.map Target.toJson))]),
      entry .postprocess (.object [("blocks", .array blocks)])] := rfl
  rw [hshares, Config.ofEntries]
  simp [ofEntry_segmentation, ofEntry_postprocess, filterMap_eq_self husable,
    List.filter_eq_self.mpr hobjects, hne]

end Build

/-! ## What is read from a stored value -/

def spelled : Json → Json
  | .string text => (Json.parse? text).getD .null
  | stored => stored

def shares (stored : Json) : List Share :=
  (listMember "steps" (spelled stored)).map Share.ofEntry

def storedBlocks (stored : Json) : List Json :=
  (shares stored).flatMap Share.blocks

section Stored

variable {stored : Json}

theorem targets_ofStored (stored : Json) :
    (Config.ofStored stored).targets = (shares stored).flatMap Share.targets := by
  cases stored <;> rfl

theorem enabled_ofStored (stored : Json) :
    (Config.ofStored stored).enabled = !(Config.ofStored stored).targets.isEmpty := by
  cases stored <;> rfl

theorem blocksJson_ofStored (stored : Json) :
    (Config.ofStored stored).blocksJson = (Json.array (storedBlocks stored)).indented := by
  cases stored <;> rfl

theorem usable_of_mem_targets {entry : Json} :
    ∀ target ∈ (Share.ofEntry entry).targets, target.Usable := by
  intro target htarget
  unfold Share.ofEntry at htarget
  dsimp only at htarget
  split at htarget
  · obtain ⟨value, -, hvalue⟩ := List.mem_filterMap.mp htarget
    simp only [Target.ofStored?, Option.bind_eq_bind, Option.bind_eq_some_iff] at hvalue
    obtain ⟨name, -, prompts, -, hkept⟩ := hvalue
    exact Target.usable_of_sanitized?_eq_some hkept
  · cases htarget
  · cases htarget

theorem usable_of_mem_targets_ofStored :
    ∀ target ∈ (Config.ofStored stored).targets, target.Usable := by
  intro target htarget
  rw [targets_ofStored] at htarget
  obtain ⟨share, hshare, hmem⟩ := List.mem_flatMap.mp htarget
  obtain ⟨entry, -, rfl⟩ := List.mem_map.mp hshare
  exact usable_of_mem_targets target hmem

theorem of_mem_blocks {test : Json → Bool} (hnull : test .null = true) {entry : Json}
    (h : entry.all test = true) :
    ∀ block ∈ (Share.ofEntry entry).blocks,
      block.object?.isSome = true ∧ block.all test = true := by
  intro block hblock
  have hconfig : ((entry.get? "config").getD .null).all test = true := by
    cases hmember : entry.get? "config" with
    | none => simpa [Json.all] using hnull
    | some config => exact Json.all_of_get?_eq_some h hmember
  unfold Share.ofEntry at hblock
  dsimp only at hblock
  split at hblock
  · cases hblock
  · obtain ⟨hmem, hobject⟩ := List.mem_filter.mp hblock
    exact ⟨hobject, Json.all_of_mem_listMember hconfig block hmem⟩
  · cases hblock

theorem all_ascending_spelled (h : stored.all Json.ascending = true) :
    (spelled stored).all Json.ascending = true := by
  cases stored with
  | string text =>
    rw [spelled]
    cases hparse : Json.parse? text with
    | none => rfl
    | some value => exact (Json.fits_of_parse?_eq_some hparse).all_ascending
  | null | bool _ | number _ | array _ | object _ => exact h

theorem of_mem_storedBlocks (h : stored.all Json.ascending = true) :
    ∀ block ∈ storedBlocks stored,
      block.object?.isSome = true ∧ block.all Json.ascending = true := by
  intro block hblock
  obtain ⟨share, hshare, hmem⟩ := List.mem_flatMap.mp hblock
  obtain ⟨entry, hentry, rfl⟩ := List.mem_map.mp hshare
  exact of_mem_blocks rfl (Json.all_of_mem_listMember (all_ascending_spelled h) entry hentry)
    block hmem

end Stored

/-! ## Building and reading -/

theorem parse?_indented_array {blocks : List Json} (hfits : Json.Fits Tree.deepest (.array blocks))
    (hint : ∀ block ∈ blocks, block.all Json.notDouble = true) :
    Json.parse? (Json.array blocks).indented = some (.array blocks) := by
  apply hfits.parse?_indented
  rw [Json.all, Bool.and_eq_true, Json.allItems_iff]
  exact ⟨rfl, hint⟩

/-- Building a value to be stored and reading it undo each other, up to the targets that are left
out. First a value that was built is read, then settings that were read are built. -/
theorem build_ofStored_ofStored_build :
    (∀ (config : Config) (value : Json), config.build = .ok (some value) →
      ∃ blocks, readBlocks config.blocksJson = .ok blocks ∧
        ((∀ block ∈ blocks, block.all Json.notDouble = true) →
          (Config.ofStored value).enabled = true ∧
          (Config.ofStored value).includeRaw = config.includeRaw ∧
          (Config.ofStored value).targets =
            (config.targets.filterMap Target.sanitized?).take maxTargets ∧
          Json.parse? (Config.ofStored value).blocksJson = some (.array blocks) ∧
          (Config.ofStored value).build = .ok (some value))) ∧
    ∀ stored : Json, stored.all Json.ascending = true → (Config.ofStored stored).enabled = true →
      (storedBlocks stored).length ≤ maxBlocks →
      (∀ block ∈ storedBlocks stored, block.depth ≤ 126 ∧ block.all Json.notDouble = true) →
      ∃ value, (Config.ofStored stored).build = .ok (some value) ∧
        Config.ofStored value =
          { Config.ofStored stored with
            targets := (Config.ofStored stored).targets.take maxTargets } := by
  constructor
  · intro config value hbuild
    obtain ⟨-, htargets, blocks, hread, rfl⟩ := build_eq_ok_some_iff.mp hbuild
    obtain ⟨hlength, hobjects, hfits⟩ := of_readBlocks_eq_ok hread
    refine ⟨blocks, hread, fun hint => ?_⟩
    have hparse := parse?_indented_array hfits hint
    have htake : (config.targets.filterMap Target.sanitized?).take maxTargets ≠ [] := by
      simp [htargets, maxTargets]
    have husable : ∀ target ∈ (config.targets.filterMap Target.sanitized?).take maxTargets,
        target.Usable := fun target htarget =>
      usable_of_mem_filterMap target (List.mem_of_mem_take htarget)
    rw [ofStored_storedValue htake husable hobjects]
    refine ⟨rfl, rfl, rfl, hparse, ?_⟩
    -- what is left of the targets and blocks is kept when it is built again
    rw [build_eq_ok_some_iff, filterMap_eq_self husable]
    refine ⟨rfl, htake, blocks, readBlocks_indented hlength hobjects hparse, ?_⟩
    rw [List.take_take, Nat.min_self]
  · intro stored hstored henabled hlength hblocks
    have husable : ∀ target ∈ (Config.ofStored stored).targets, target.Usable :=
      usable_of_mem_targets_ofStored
    have hne : (Config.ofStored stored).targets ≠ [] := by
      simpa [enabled_ofStored stored] using henabled
    have hobjects : ∀ block ∈ storedBlocks stored, block.object?.isSome = true :=
      fun block hblock => (of_mem_storedBlocks hstored block hblock).1
    have hfits : Json.Fits Tree.deepest (.array (storedBlocks stored)) :=
      Json.fits_array_iff.mpr fun block hblock =>
        ⟨(hblocks block hblock).1, (of_mem_storedBlocks hstored block hblock).2⟩
    have hparse := parse?_indented_array hfits fun block hblock => (hblocks block hblock).2
    have hread : readBlocks (Config.ofStored stored).blocksJson = .ok (storedBlocks stored) := by
      rw [blocksJson_ofStored]
      exact readBlocks_indented hlength hobjects hparse
    have htake : (Config.ofStored stored).targets.take maxTargets ≠ [] := by
      simp [hne, maxTargets]
    -- building leaves out the targets that are too many and changes nothing else
    have hbuild : (Config.ofStored stored).build = .ok (some (storedValue
        (Config.ofStored stored).includeRaw
        ((Config.ofStored stored).targets.take maxTargets) (storedBlocks stored))) := by
      rw [build_eq_ok_some_iff, filterMap_eq_self husable]
      exact ⟨henabled, hne, storedBlocks stored, hread, rfl⟩
    refine ⟨_, hbuild, ?_⟩
    rw [ofStored_storedValue htake
      (fun target htarget => husable target (List.mem_of_mem_take htarget)) hobjects]
    simp only [henabled, blocksJson_ofStored]

def cats : Config :=
  { enabled := true
    includeRaw := true
    targets := [⟨" cat ", [" tabby\n", "\t"]⟩, ⟨"dog", []⟩]
    blocksJson := " [\x7b\"op\":\"dilate\",\"by\":[-2, 18446744073709551615]\x7d,\x7b\x7d]\n" }

def catBlocks : List Json :=
  [.object [("by", .array [.number (.int (-2) (by decide)),
      .number (.int 18446744073709551615 (by decide))]), ("op", .string "dilate")],
    .object []]

theorem readBlocks_cats : readBlocks cats.blocksJson = .ok catBlocks := by
  have hblank : Text.isBlank cats.blocksJson = false := by decide +kernel
  have hparse : Json.parse? (Text.trim cats.blocksJson) = some (.array catBlocks) := by
    decide +kernel
  rw [readBlocks, hblank, hparse]
  rfl

def storedCats : Json :=
  .object [("steps", .array [
    .number (.int 0 (by decide)),
    .object [("config", .object [("blocks", .array [.array [], .object [("by", .bool true)]])]),
      ("type", .string "vision_postprocess")],
    .object [("config", .object [("targets", .array [.object [("name", .string " cat"),
        ("prompts", .array [.null, .string " tabby "])]])]),
      ("type", .string "vision_sam3")]])]

theorem build_ofStored_cats :
    (Config.ofStored (storedValue true [⟨"cat", ["tabby"]⟩] catBlocks)).build =
        .ok (some (storedValue true [⟨"cat", ["tabby"]⟩] catBlocks)) ∧
      ∃ value, (Config.ofStored storedCats).build = .ok (some value) ∧
        Config.ofStored value =
          { Config.ofStored storedCats with
            targets := (Config.ofStored storedCats).targets.take maxTargets } := by
  have htargets : cats.targets.filterMap Target.sanitized? = [⟨"cat", ["tabby"]⟩] := by
    decide +kernel
  have hbuild : cats.build = .ok (some (storedValue true [⟨"cat", ["tabby"]⟩] catBlocks)) := by
    rw [build_eq_ok_some_iff, htargets]
    exact ⟨rfl, List.cons_ne_nil _ _, catBlocks, readBlocks_cats, rfl⟩
  obtain ⟨blocks, hread, hbuilt⟩ := build_ofStored_ofStored_build.1 cats _ hbuild
  obtain rfl := Except.ok.inj (readBlocks_cats.symm.trans hread)
  refine ⟨(hbuilt (by decide +kernel)).2.2.2.2, ?_⟩
  exact build_ofStored_ofStored_build.2 storedCats rfl (by decide +kernel) (by decide +kernel)
    (by decide +kernel)

end Vision

end Cattery
