import Cattery.Proofs.JsonMeaning
import Cattery.Proofs.VisionSettings

namespace Cattery

namespace Vision

/-! ## Targets -/

def cleaned (targets : List Target) : List Target :=
  (targets.filter fun target =>
    !Text.isBlank target.name && target.prompts.any fun prompt => !Text.isBlank prompt).map
      fun target => ⟨Text.trim target.name,
        (target.prompts.filter fun prompt => !Text.isBlank prompt).map Text.trim⟩

theorem filterMap_nonBlank? (texts : List String) :
    texts.filterMap Text.nonBlank? = (texts.filter fun text => !Text.isBlank text).map Text.trim := by
  induction texts with
  | nil => rfl
  | cons text texts ih =>
    cases hblank : Text.isBlank text with
    | true => simp [Text.nonBlank?, hblank, ih]
    | false => simp [Text.nonBlank?, hblank, ih]

theorem filterMap_sanitized?_eq (targets : List Target) :
    targets.filterMap Target.sanitized? = cleaned targets := by
  induction targets with
  | nil => rfl
  | cons target targets ih =>
    rw [List.filterMap_cons, ih]
    cases hblank : Text.isBlank target.name with
    | true => simp [cleaned, Target.sanitized?, Text.nonBlank?, hblank]
    | false =>
      -- what is left of the prompts is empty when every one of them is blank
      cases hprompts : target.prompts.any fun prompt => !Text.isBlank prompt with
      | true =>
        have hne : target.prompts.filter (fun prompt => !Text.isBlank prompt) ≠ [] := by
          simpa [List.filter_eq_nil_iff] using hprompts
        simp [cleaned, Target.sanitized?, Text.nonBlank?, hblank, hprompts, filterMap_nonBlank?,
          hne]
      | false =>
        have hnil : target.prompts.filter (fun prompt => !Text.isBlank prompt) = [] := by
          simpa [List.filter_eq_nil_iff] using hprompts
        simp [cleaned, Target.sanitized?, Text.nonBlank?, hblank, hprompts, filterMap_nonBlank?,
          hnil]

/-! ## Blocks -/

/-- What is made of the text of the blocks, by the first rule that it violates. -/
inductive Reading (text : String) : Except Refusal (List Json) → Prop
  | blank (h : Text.trim text = "") : Reading text (.ok [])
  | notJson (hne : Text.trim text ≠ "") (h : ¬ Json.Readable (Text.trim text).toList) :
      Reading text (.error .blocksNotJson)
  | notArray {value : Json} (hspells : Json.Spells (Text.trim text).toList value)
      (h : value.array? = none) : Reading text (.error .blocksNotArray)
  | tooMany {items : List Json} (hspells : Json.Spells (Text.trim text).toList (.array items))
      (h : 25 < items.length) : Reading text (.error (.tooManyBlocks items.length))
  | notObject {front back : List Json} {item : Json}
      (hspells : Json.Spells (Text.trim text).toList (.array (front ++ item :: back)))
      (hlength : (front ++ item :: back).length ≤ 25)
      (hfront : ∀ block ∈ front, block.object?.isSome = true) (h : item.object? = none) :
      Reading text (.error (.blockNotObject (front.length + 1)))
  | blocks {items : List Json} (hspells : Json.Spells (Text.trim text).toList (.array items))
      (hlength : items.length ≤ 25) (h : ∀ block ∈ items, block.object?.isSome = true) :
      Reading text (.ok items)

section Blocks

variable {text : String} {value : Json} {items front back : List Json} {item : Json}
  {result : Except Refusal (List Json)}

theorem findIdx?_object_eq_length (hfront : ∀ block ∈ front, block.object?.isSome = true)
    (h : item.object? = none) :
    ((front ++ item :: back).findIdx? fun block => block.object?.isNone) = some front.length := by
  have hnone := (findIdx?_object_eq_none_iff front).mpr hfront
  simp [List.findIdx?_append, List.findIdx?_cons, hnone, h]

theorem exists_of_findIdx?_object {place : Nat}
    (h : (items.findIdx? fun block => block.object?.isNone) = some place) :
    ∃ front item back, items = front ++ item :: back ∧ front.length = place ∧
      (∀ block ∈ front, block.object?.isSome = true) ∧ item.object? = none := by
  obtain ⟨hlt, hitem, hfront⟩ := List.findIdx?_eq_some_iff_getElem.mp h
  refine ⟨items.take place, items[place], items.drop (place + 1), ?_, ?_, ?_, ?_⟩
  · rw [List.getElem_cons_drop, List.take_append_drop]
  · exact List.length_take_of_le (Nat.le_of_lt hlt)
  · intro block hblock
    obtain ⟨i, hi, rfl⟩ := List.mem_iff_getElem.mp hblock
    rw [List.length_take] at hi
    have hobject := hfront i (by omega)
    rw [List.getElem_take]
    cases hi : items[i].object? with
    | none => simp [hi] at hobject
    | some members => rfl
  · simpa using hitem

/-- Every text of blocks comes to what the rules say. -/
theorem reading_readBlocks (text : String) : Reading text (readBlocks text) := by
  rw [readBlocks]
  split
  · rename_i hblank
    exact .blank ((Text.trim_eq_empty_iff text).mpr hblank)
  · rename_i hblank
    rw [← Text.trim_eq_empty_iff] at hblank
    split
    · rename_i hnone
      apply Reading.notJson hblank
      rw [← Json.isSome_parseChars?_iff, ← Json.parse?, hnone]
      exact Bool.false_ne_true
    · rename_i items hitems
      have hspells := Json.parse?_eq_some_iff.mp hitems
      split
      · rename_i hlength
        exact .tooMany hspells hlength
      · rename_i hlength
        split
        · rename_i place hplace
          obtain ⟨front, item, back, rfl, rfl, hfront, hitem⟩ := exists_of_findIdx?_object hplace
          exact .notObject hspells (Nat.not_lt.mp hlength) hfront hitem
        · rename_i hobjects
          exact .blocks hspells (Nat.not_lt.mp hlength)
            ((findIdx?_object_eq_none_iff items).mp hobjects)
    · rename_i value hnot hvalue
      apply Reading.notArray (Json.parse?_eq_some_iff.mp hvalue)
      cases value with
      | array items => exact absurd rfl (hnot items)
      | null | bool _ | number _ | string _ | object _ => rfl

theorem isBlank_of_spells (h : Json.Spells (Text.trim text).toList value) :
    Text.isBlank text = false := by
  rw [← Bool.not_eq_true, ← Text.trim_eq_empty_iff]
  intro hempty
  rw [hempty] at h
  have hparse := Json.parse?_eq_some_iff.mpr h
  have hnone : Json.parse? "" = none := by decide
  rw [hnone] at hparse
  cases hparse

/-- The rules say what is made of a text, and nothing else is made of it. -/
theorem readBlocks_eq_iff : readBlocks text = result ↔ Reading text result := by
  constructor
  · rintro rfl
    exact reading_readBlocks text
  · intro h
    cases h with
    | blank h => rw [readBlocks, (Text.trim_eq_empty_iff text).mp h]; rfl
    | notJson hne h =>
      have hblank : Text.isBlank text = false := by
        rw [← Bool.not_eq_true, ← Text.trim_eq_empty_iff]
        exact hne
      rw [← Json.isSome_parseChars?_iff, ← Json.parse?, Option.not_isSome_iff_eq_none] at h
      rw [readBlocks, hblank, h]
      rfl
    | @notArray value hspells h =>
      rw [readBlocks, isBlank_of_spells hspells, Json.parse?_eq_some_iff.mpr hspells]
      cases value with
      | array items => cases h
      | null | bool _ | number _ | string _ | object _ => rfl
    | @tooMany items hspells h =>
      have hmany : maxBlocks < items.length := h
      rw [readBlocks, isBlank_of_spells hspells, Json.parse?_eq_some_iff.mpr hspells]
      simp only [Bool.false_eq_true, if_false, if_pos hmany]
    | @notObject front back item hspells hlength hfront h =>
      have hfew : ¬ maxBlocks < (front ++ item :: back).length := Nat.not_lt.mpr hlength
      rw [readBlocks, isBlank_of_spells hspells, Json.parse?_eq_some_iff.mpr hspells]
      simp only [Bool.false_eq_true, if_false, if_neg hfew, findIdx?_object_eq_length hfront h]
    | @blocks items hspells hlength h =>
      have hfew : ¬ maxBlocks < items.length := Nat.not_lt.mpr hlength
      rw [readBlocks, isBlank_of_spells hspells, Json.parse?_eq_some_iff.mpr hspells]
      simp only [Bool.false_eq_true, if_false, if_neg hfew,
        (findIdx?_object_eq_none_iff items).mpr h]

theorem reading_blocksNotJson_iff :
    Reading text (.error .blocksNotJson) ↔
      Text.trim text ≠ "" ∧ ¬ Json.Readable (Text.trim text).toList := by
  constructor
  · intro h
    cases h with
    | notJson hne h => exact ⟨hne, h⟩
  · intro h
    exact .notJson h.1 h.2

theorem reading_blocksNotArray_iff :
    Reading text (.error .blocksNotArray) ↔
      ∃ value, Json.Spells (Text.trim text).toList value ∧ value.array? = none := by
  constructor
  · intro h
    cases h with
    | notArray hspells h => exact ⟨_, hspells, h⟩
  · intro h
    obtain ⟨value, hspells, h⟩ := h
    exact .notArray hspells h

theorem reading_tooManyBlocks_iff {count : Nat} :
    Reading text (.error (.tooManyBlocks count)) ↔
      ∃ items, Json.Spells (Text.trim text).toList (.array items) ∧ items.length = count ∧
        25 < count := by
  constructor
  · intro h
    cases h with
    | tooMany hspells h => exact ⟨_, hspells, rfl, h⟩
  · intro h
    obtain ⟨items, hspells, rfl, h⟩ := h
    exact .tooMany hspells h

theorem reading_blockNotObject_iff {place : Nat} :
    Reading text (.error (.blockNotObject place)) ↔
      ∃ front item back, Json.Spells (Text.trim text).toList (.array (front ++ item :: back)) ∧
        (front ++ item :: back).length ≤ 25 ∧ (∀ block ∈ front, block.object?.isSome = true) ∧
          item.object? = none ∧ front.length + 1 = place := by
  constructor
  · intro h
    cases h with
    | notObject hspells hlength hfront h => exact ⟨_, _, _, hspells, hlength, hfront, h, rfl⟩
  · intro h
    obtain ⟨front, item, back, hspells, hlength, hfront, h, rfl⟩ := h
    exact .notObject hspells hlength hfront h

theorem reading_ok_iff :
    Reading text (.ok items) ↔
      (Text.trim text = "" ∧ items = [] ∨ Json.Spells (Text.trim text).toList (.array items)) ∧
        items.length ≤ 25 ∧ ∀ block ∈ items, block.object?.isSome = true := by
  constructor
  · intro h
    cases h with
    | blank h => exact ⟨Or.inl ⟨h, rfl⟩, Nat.zero_le _, by simp⟩
    | blocks hspells hlength h => exact ⟨Or.inr hspells, hlength, h⟩
  · intro h
    obtain ⟨htext, hlength, hobjects⟩ := h
    rcases htext with ⟨hblank, rfl⟩ | hspells
    · exact .blank hblank
    · exact .blocks hspells hlength hobjects

end Blocks

/-! ## Settings -/

section Settings

variable {config : Config} {refusal : Refusal}

theorem build_of_not_enabled (h : config.enabled = false) : config.build = .ok none := by
  rw [Config.build, h]
  rfl

theorem build_ne_ok_none (h : config.enabled = true) : config.build ≠ .ok none := by
  rw [Config.build, h]
  simp only [Bool.not_true, Bool.false_eq_true, if_false]
  split
  · intro hok
    cases hok
  · intro hok
    cases hread : readBlocks config.blocksJson with
    | error refusal =>
      rw [hread] at hok
      cases hok
    | ok blocks =>
      rw [hread] at hok
      cases hok

/-- Settings that are enabled are refused without a target, and else when their blocks are. -/
theorem build_eq_error_iff (h : config.enabled = true) :
    config.build = .error refusal ↔
      (cleaned config.targets = [] ∧ refusal = .noTargets) ∨
        (cleaned config.targets ≠ [] ∧ Reading config.blocksJson (.error refusal)) := by
  rw [Config.build, h, filterMap_sanitized?_eq, ← readBlocks_eq_iff]
  by_cases htargets : cleaned config.targets = []
  · simp [htargets, eq_comm]
  · have hkept : (cleaned config.targets).isEmpty = false := by simpa using htargets
    simp only [Bool.not_true, Bool.false_eq_true, if_false, hkept, htargets, false_and, false_or,
      ne_eq, not_false_eq_true, true_and]
    cases readBlocks config.blocksJson <;> simp [Except.map]

theorem build_eq_noTargets_iff (h : config.enabled = true) :
    config.build = .error .noTargets ↔ cleaned config.targets = [] := by
  rw [build_eq_error_iff h]
  constructor
  · intro hcases
    rcases hcases with ⟨hnone, -⟩ | ⟨-, hread⟩
    · exact hnone
    · cases hread
  · intro hnone
    exact Or.inl ⟨hnone, rfl⟩

theorem build_eq_error_iff_reading (h : config.enabled = true) (hrefusal : refusal ≠ .noTargets) :
    config.build = .error refusal ↔
      cleaned config.targets ≠ [] ∧ Reading config.blocksJson (.error refusal) := by
  rw [build_eq_error_iff h, or_iff_right fun hcase => hrefusal hcase.2]

/-- What becomes of settings. Those that are not enabled are not stored, whatever else they hold. The
others come to the first of their rules that is violated, and are stored when none is: with at
most 25 of their targets and with all of their blocks. -/
theorem build_outcome (config : Config) :
    (config.enabled = false → config.build = .ok none) ∧
    (config.enabled = true →
      config.build ≠ .ok none ∧
      (config.build = .error .noTargets ↔ cleaned config.targets = []) ∧
      (config.build = .error .blocksNotJson ↔ cleaned config.targets ≠ [] ∧
        Text.trim config.blocksJson ≠ "" ∧
          ¬ Json.Readable (Text.trim config.blocksJson).toList) ∧
      (config.build = .error .blocksNotArray ↔ cleaned config.targets ≠ [] ∧
        ∃ value, Json.Spells (Text.trim config.blocksJson).toList value ∧ value.array? = none) ∧
      (∀ count, config.build = .error (.tooManyBlocks count) ↔ cleaned config.targets ≠ [] ∧
        ∃ items, Json.Spells (Text.trim config.blocksJson).toList (.array items) ∧
          items.length = count ∧ 25 < count) ∧
      (∀ place, config.build = .error (.blockNotObject place) ↔ cleaned config.targets ≠ [] ∧
        ∃ front item back,
          Json.Spells (Text.trim config.blocksJson).toList (.array (front ++ item :: back)) ∧
            (front ++ item :: back).length ≤ 25 ∧
              (∀ block ∈ front, block.object?.isSome = true) ∧ item.object? = none ∧
                front.length + 1 = place) ∧
      ∀ value, config.build = .ok (some value) ↔ cleaned config.targets ≠ [] ∧
        ∃ blocks, ((Text.trim config.blocksJson = "" ∧ blocks = [] ∨
            Json.Spells (Text.trim config.blocksJson).toList (.array blocks)) ∧
          blocks.length ≤ 25 ∧ ∀ block ∈ blocks, block.object?.isSome = true) ∧
            value = storedValue config.includeRaw ((cleaned config.targets).take 25) blocks) := by
  refine ⟨build_of_not_enabled, fun h => ⟨build_ne_ok_none h, build_eq_noTargets_iff h, ?_⟩⟩
  refine ⟨?_, ?_, ?_, ?_, ?_⟩
  · exact (build_eq_error_iff_reading h (by simp)).trans
      (and_congr_right fun _ => reading_blocksNotJson_iff)
  · exact (build_eq_error_iff_reading h (by simp)).trans
      (and_congr_right fun _ => reading_blocksNotArray_iff)
  · intro count
    exact (build_eq_error_iff_reading h (by simp)).trans
      (and_congr_right fun _ => reading_tooManyBlocks_iff)
  · intro place
    exact (build_eq_error_iff_reading h (by simp)).trans
      (and_congr_right fun _ => reading_blockNotObject_iff)
  · intro value
    rw [build_eq_ok_some_iff, filterMap_sanitized?_eq, and_iff_right h]
    simp only [readBlocks_eq_iff, reading_ok_iff]
    rfl

def crowded : Config where
  enabled := true
  includeRaw := false
  targets := [⟨"", ["x"]⟩, ⟨" cat", ["\t", "tabby "]⟩]
  blocksJson := " [0,0,0,0,0,0,0,0,0,0,0,0,0,0,0,0,0,0,0,0,0,0,0,0,0,0] "

theorem build_outcome_crowded : crowded.build = .error (.tooManyBlocks 26) := by
  obtain ⟨-, henabled⟩ := build_outcome crowded
  obtain ⟨-, -, -, -, hmany, -⟩ := henabled rfl
  have htarget : cleaned crowded.targets ≠ [] := by
    decide +kernel
  have hparse : Json.parse? (Text.trim crowded.blocksJson) =
      some (.array (List.replicate 26 (.number (.int 0 (by decide))))) := by
    decide +kernel
  exact (hmany 26).mpr ⟨htarget, _, Json.parse?_eq_some_iff.mp hparse, rfl, by decide⟩

def oversized : Config where
  enabled := true
  includeRaw := false
  targets := [⟨"cat", ["tabby"]⟩]
  blocksJson := "[1e999]"

/-- Not all text that follows the grammar of JSON is read: these blocks are an array whose first
element is no object, and are reported as no JSON. -/
theorem build_oversized :
    oversized.enabled = true ∧ cleaned oversized.targets ≠ [] ∧
      (∃ number, Tree.Padded (.array [.numeral number])
        (Text.trim oversized.blocksJson).toList) ∧
      oversized.build = .error .blocksNotJson ∧
      oversized.build ≠ .error (.blockNotObject 1) := by
  have hchars : (Text.trim oversized.blocksJson).toList = ['[', '1', 'e', '9', '9', '9', ']'] := by
    decide +kernel
  have htree : Tree.ofChars? ['[', '1', 'e', '9', '9', '9', ']'] =
      some (.array [.numeral ⟨false, [1], [], some 999⟩]) := rfl
  have hbuild : oversized.build = .error .blocksNotJson := by
    decide +kernel
  have htarget : cleaned oversized.targets ≠ [] := by
    decide +kernel
  have hpadded := Tree.ofChars?_eq_some_iff.mp htree
  rw [← hchars] at hpadded
  refine ⟨rfl, htarget, ⟨_, hpadded⟩, hbuild, ?_⟩
  rw [hbuild]
  simp

end Settings

end Vision

end Cattery
