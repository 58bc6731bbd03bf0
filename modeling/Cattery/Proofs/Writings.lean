import Cattery.Proofs.Divisions
import Cattery.Proofs.NormalForm
import Mathlib.Logic.Relation

namespace Cattery

namespace Attributes

/-! ## Written attributes -/

structure Written where
  lead : List Char
  key : List Char
  front : List Char
  back : List Char
  value : List Char
  isKey : IsKey key
  unquoted : '"' ∉ value
  lead_blank : ∀ c ∈ lead, isBlank c = true
  front_blank : ∀ c ∈ front, isBlank c = true
  back_blank : ∀ c ∈ back, isBlank c = true

def Written.pair (written : Written) : List Char × List Char :=
  (written.key, written.value)

def Written.text (written : Written) : List Char :=
  written.lead ++ (written.key ++ written.front ++ '=' :: written.back ++
    '"' :: written.value ++ ['"'])

structure Writing where
  attributes : List Written
  tail : List Char
  tail_blank : ∀ c ∈ tail, isBlank c = true

def Writing.pairs (writing : Writing) : List (List Char × List Char) :=
  writing.attributes.map Written.pair

def Writing.text (writing : Writing) : List Char :=
  writing.attributes.flatMap Written.text ++ writing.tail

theorem pairs_written_append (written : Written) (rest : List Char) :
    Attributes.pairs (written.text ++ rest) = written.pair :: Attributes.pairs rest := by
  have htext : written.text ++ rest = written.lead ++ (written.key ++ written.front ++
      '=' :: written.back ++ '"' :: written.value ++ '"' :: rest) := by
    simp [Written.text]
  have hpair := pairAt?_written written.isKey written.front_blank written.back_blank
    written.unquoted rest
  rw [htext, pairs_blank_append written.lead_blank, pairs_of_pairAt?_eq_some hpair]
  rfl

/-- The pairs that are read are those that were written. -/
theorem pairs_text (writing : Writing) : Attributes.pairs writing.text = writing.pairs := by
  obtain ⟨attributes, tail, htail⟩ := writing
  show Attributes.pairs (attributes.flatMap Written.text ++ tail) = attributes.map Written.pair
  induction attributes with
  | nil =>
    have hblank := pairs_blank_append htail []
    rw [List.append_nil] at hblank
    exact hblank
  | cons written attributes ih =>
    rw [List.flatMap_cons, List.append_assoc, pairs_written_append, ih, List.map_cons]

theorem value?_text (writing : Writing) (key : String) :
    value? key writing.text = writing.pairs.lookup key.toList := by
  rw [value?, pairs_text]

/-- Only a value can bring a closing bracket into a tag. -/
theorem closing_not_mem_text {writing : Writing}
    (h : ∀ pair ∈ writing.pairs, ']' ∉ pair.2) : ']' ∉ writing.text := by
  have hblank {text : List Char} (htext : ∀ c ∈ text, isBlank c = true) : ']' ∉ text := by
    intro hmem
    exact absurd (htext ']' hmem) (by decide)
  rw [Writing.text, List.mem_append, List.mem_flatMap, not_or]
  refine ⟨?_, hblank writing.tail_blank⟩
  intro hmem
  obtain ⟨written, hwritten, hin⟩ := hmem
  have hkey : ']' ∉ written.key := by
    intro hin
    exact absurd (written.isKey.continues ']' hin) (by decide)
  have hvalue : ']' ∉ written.value := h written.pair (List.mem_map_of_mem hwritten)
  apply absurd hin
  simp [Written.text, hblank written.lead_blank, hblank written.front_blank,
    hblank written.back_blank, hkey, hvalue]

/-! ## Edits -/

inductive Edit (a b : Writing) : Prop
  | respace (h : a.pairs = b.pairs)
  | permute (hdistinct : (a.pairs.map Prod.fst).Nodup) (h : a.pairs.Perm b.pairs)
  | add {front back : List (List Char × List Char)} {pair : List Char × List Char}
      (hindex : pair.1 ≠ "index".toList) (hmodel : pair.1 ≠ "model".toList)
      (ha : a.pairs = front ++ back) (hb : b.pairs = front ++ pair :: back)
  | again {front back : List (List Char × List Char)} {pair : List Char × List Char}
      (hkey : pair.1 ∈ front.map Prod.fst)
      (ha : a.pairs = front ++ back) (hb : b.pairs = front ++ pair :: back)

variable {a b : Writing}

/-- One edit keeps the index and the model. -/
theorem Edit.value?_eq (h : Edit a b) {key : String} (hkey : key = "index" ∨ key = "model") :
    value? key a.text = value? key b.text := by
  rw [value?_text, value?_text]
  cases h with
  | respace h => rw [h]
  | permute hdistinct h => exact (Assoc.lookup_eq_of_perm h.symm hdistinct _).symm
  | add hindex hmodel ha hb =>
    rw [ha, hb, Assoc.lookup_append_cons]
    intro heq
    -- neither of the two keys is the new one
    cases hkey with
    | inl hkey => exact absurd (hkey ▸ heq).symm hindex
    | inr hkey => exact absurd (hkey ▸ heq).symm hmodel
  | again hmem ha hb =>
    rw [ha, hb, Assoc.lookup_append_cons]
    intro heq
    rwa [heq]

theorem value?_eq_of_edits (h : Relation.EqvGen Edit a b) {key : String}
    (hkey : key = "index" ∨ key = "model") : value? key a.text = value? key b.text := by
  have hedit (a b : Writing) (hedit : Edit a b) : value? key a.text = value? key b.text :=
    hedit.value?_eq hkey
  exact eq_of_eqvGen hedit h

end Attributes

/-! ## Blocks and texts -/

namespace Division

variable {front back : List (List Char × Block)} {before rest : List Char} {block other : Block}

theorem Lawful.replace (h : Lawful ⟨front ++ (before, block) :: back, rest⟩)
    (hother : other.WellFormed) : Lawful ⟨front ++ (before, other) :: back, rest⟩ := by
  obtain ⟨hbefore, hwellFormed, hrest⟩ := h
  dsimp only at hbefore hwellFormed
  rw [List.forall_mem_append, List.forall_mem_cons] at hbefore hwellFormed
  -- only the tag and the body of the one block are new
  constructor
  · dsimp only
    rw [List.forall_mem_append, List.forall_mem_cons]
    exact hbefore
  · dsimp only
    rw [List.forall_mem_append, List.forall_mem_cons]
    exact ⟨hwellFormed.1, hother, hwellFormed.2.2⟩
  · exact hrest

theorem Lawful.steps_decode {division : Division} (h : division.Lawful) :
    (Document.decode (String.ofList division.source)).steps =
      Directive.sort (division.blocks.filterMap Document.directive?) := by
  rw [Document.steps_decode, String.toList_ofList, Segment.blocks, h.scan_source,
    filterMap_block?_segments]

end Division

namespace Document

open Attributes

theorem directive?_congr {block other : Block}
    (hindex : value? "index" block.attributes = value? "index" other.attributes)
    (hmodel : value? "model" block.attributes = value? "model" other.attributes)
    (hbody : block.body = other.body) : directive? block = directive? other := by
  unfold directive?
  rw [hindex, hmodel, hbody]

theorem directive?_eq_of_edits {a b : Writing} (h : Relation.EqvGen Edit a b) (body : List Char) :
    directive? ⟨a.text, body⟩ = directive? ⟨b.text, body⟩ :=
  directive?_congr (value?_eq_of_edits h (Or.inl rfl)) (value?_eq_of_edits h (Or.inr rfl)) rfl

/-- Written attributes are read as a map from each key to its first value. So edits of a tag change
neither the directive of its block nor whether there is one. Nor do they change a directive of a
text in which the block stands, where what is written still is the tag of a step: it starts with
white space, and no value of it holds a closing bracket. -/
theorem directive_edits :
    (∀ (writing : Writing) (key : String) (value : List Char),
      value? key writing.text = some value ↔
        ∃ front back, writing.pairs = front ++ (key.toList, value) :: back ∧
          key.toList ∉ front.map Prod.fst) ∧
    ∀ a b : Writing, Relation.EqvGen Edit a b →
      (∀ body, directive? ⟨a.text, body⟩ = directive? ⟨b.text, body⟩) ∧
      ∀ front before body back rest,
        Division.Lawful ⟨front ++ (before, ⟨a.text, body⟩) :: back, rest⟩ →
        (∀ pair ∈ b.pairs, ']' ∉ pair.2) → (∀ c ∈ b.text.head?, isBlank c = true) →
        Division.Lawful ⟨front ++ (before, ⟨b.text, body⟩) :: back, rest⟩ ∧
        (decode (String.ofList
            (Division.source ⟨front ++ (before, ⟨b.text, body⟩) :: back, rest⟩))).steps =
          (decode (String.ofList
            (Division.source ⟨front ++ (before, ⟨a.text, body⟩) :: back, rest⟩))).steps := by
  constructor
  · intro writing key value
    rw [value?_text, List.lookup_eq_some_iff]
    have hne (front : List (List Char × List Char)) :
        (∀ pair ∈ front, (key.toList != pair.1) = true) ↔ key.toList ∉ front.map Prod.fst := by
      rw [List.mem_map, not_exists]
      apply forall_congr'
      intro pair
      rw [bne_iff_ne, not_and]
      exact imp_congr_right fun _ => ne_comm
    simp only [hne]
  · intro a b hedits
    refine ⟨directive?_eq_of_edits hedits, ?_⟩
    intro front before body back rest hlawful hclosed hstart
    have hblock := hlawful.wellFormed (before, ⟨a.text, body⟩)
      (List.mem_append_right _ List.mem_cons_self)
    have hedited : Block.WellFormed ⟨b.text, body⟩ :=
      { attributes_start := hstart
        attributes_closed := closing_not_mem_text hclosed
        body_closed := hblock.body_closed }
    refine ⟨hlawful.replace hedited, ?_⟩
    rw [(hlawful.replace hedited).steps_decode, hlawful.steps_decode]
    -- the two texts have the same blocks but for this one, and both carry the same directive
    simp [Division.blocks, List.filterMap_cons, directive?_eq_of_edits hedits]

/-! Two tags of one block: the second one has the attributes in another order, one that is not asked
for, an index that comes too late, and other white space. -/

def indexOne : Written where
  lead := [' ']
  key := "index".toList
  front := []
  back := []
  value := "1".toList
  isKey := ⟨⟨'i', rfl, by decide⟩, List.all_eq_true.mp (by decide)⟩
  unquoted := by decide
  lead_blank := List.forall_mem_singleton.mpr rfl
  front_blank := by simp
  back_blank := by simp

def modelM : Written where
  lead := ['\u00a0']
  key := "model".toList
  front := [' ']
  back := ['\n']
  value := "M".toList
  isKey := ⟨⟨'m', rfl, by decide⟩, List.all_eq_true.mp (by decide)⟩
  unquoted := by decide
  lead_blank := List.forall_mem_singleton.mpr rfl
  front_blank := List.forall_mem_singleton.mpr rfl
  back_blank := List.forall_mem_singleton.mpr rfl

def roleIndex : Written where
  lead := []
  key := "role".toList
  front := []
  back := []
  value := "index=7".toList
  isKey := ⟨⟨'r', rfl, by decide⟩, List.all_eq_true.mp (by decide)⟩
  unquoted := by decide
  lead_blank := by simp
  front_blank := by simp
  back_blank := by simp

def indexTwo : Written :=
  { indexOne with value := "2".toList, unquoted := by decide }

def closed (attributes : List Written) : Writing :=
  ⟨attributes, [], by simp⟩

theorem edits_shuffled : Relation.EqvGen Edit (closed [indexOne, modelM])
    (closed [modelM, roleIndex, indexOne, indexTwo]) := by
  have hdistinct : ((closed [indexOne, modelM]).pairs.map Prod.fst).Nodup := by decide
  have hswap : (closed [indexOne, modelM]).pairs.Perm (closed [modelM, indexOne]).pairs :=
    List.Perm.swap _ _ _
  have hadd : Edit (closed [modelM, indexOne]) (closed [modelM, roleIndex, indexOne]) :=
    @Edit.add _ _ [modelM.pair] [indexOne.pair] roleIndex.pair (by decide) (by decide) rfl rfl
  have hagain : Edit (closed [modelM, roleIndex, indexOne])
      (closed [modelM, roleIndex, indexOne, indexTwo]) :=
    @Edit.again _ _ [modelM.pair, roleIndex.pair, indexOne.pair] [] indexTwo.pair (by decide) rfl rfl
  apply Relation.EqvGen.trans _ _ _ (.rel _ _ (.permute hdistinct hswap))
  exact .trans _ _ _ (.rel _ _ hadd) (.rel _ _ hagain)

theorem directive_edits_shuffled :
    (decode "[step\u00a0model =\n\"M\"role=\"index=7\" index=\"1\" index=\"2\"]B[/step] end").steps =
      [⟨1, "m", "B"⟩] := by
  obtain ⟨-, hedits⟩ := directive_edits
  obtain ⟨-, htext⟩ := hedits _ _ edits_shuffled
  have hlawful : Division.Lawful
      ⟨[] ++ ([], ⟨(closed [indexOne, modelM]).text, "B".toList⟩) :: [], " end".toList⟩ :=
    { before := List.forall_mem_singleton.mpr (by decide +kernel)
      wellFormed := by
        rw [List.nil_append, List.forall_mem_singleton]
        refine ⟨?_, by decide +kernel, by decide +kernel⟩
        intro c hc
        obtain rfl : ' ' = c := Option.some_inj.mp hc
        rfl
      rest := (Segment.firstBlock?_eq_none_iff _).mp (by decide +kernel) }
  have hblank : ∀ c ∈ (closed [modelM, roleIndex, indexOne, indexTwo]).text.head?,
      isBlank c = true := by
    intro c hc
    obtain rfl : '\u00a0' = c := Option.some_inj.mp hc
    rfl
  obtain ⟨-, hsteps⟩ := htext _ _ _ _ _ hlawful (by decide +kernel) hblank
  have hplain : (decode (String.ofList (Division.source
      ⟨[] ++ ([], ⟨(closed [indexOne, modelM]).text, "B".toList⟩) :: [], " end".toList⟩))).steps =
        [⟨1, "m", "B"⟩] := by
    rw [hlawful.steps_decode]
    have hread : (Division.blocks ⟨[] ++ ([], ⟨(closed [indexOne, modelM]).text, "B".toList⟩) :: [],
        " end".toList⟩).filterMap directive? = [⟨1, "m", "B"⟩] := by
      decide +kernel
    rw [hread]
    exact Directive.sort_eq_self (List.pairwise_singleton _ _)
  rw [hplain] at hsteps
  exact hsteps

end Document

end Cattery
