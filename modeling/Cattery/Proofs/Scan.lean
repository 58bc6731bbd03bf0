import Cattery.Document.Block
import Cattery.Proofs.Search

namespace Cattery

structure Block.WellFormed (block : Block) : Prop where
  attributes_start : ∀ c ∈ block.attributes.head?, isBlank c = true
  attributes_closed : ']' ∉ block.attributes
  body_closed : ¬ Tag.stepClose <:+: block.body

namespace Segment

/-! ## Opening tags -/

theorem stepOpen_eq : Tag.stepOpen = '[' :: "step".toList := rfl

theorem stepClose_eq : Tag.stepClose = '[' :: "/step]".toList := rfl

/-- An opening tag of a step stands in a text: `[step` with a closing bracket or white space right
after it. -/
def OpensStep (text : List Char) : Prop :=
  ∃ c, (c = ']' ∨ isBlank c = true) ∧ Tag.stepOpen ++ [c] <:+: text

theorem endsName_iff (text : List Char) :
    endsName text = true ↔ ∃ c rest, text = c :: rest ∧ (c = ']' ∨ isBlank c = true) := by
  cases text with
  | nil => simp [endsName]
  | cons c rest => simp [endsName]

theorem OpensStep.mono {text text' : List Char} (h : OpensStep text) (hin : text <:+: text') :
    OpensStep text' := by
  obtain ⟨c, hc, htag⟩ := h
  exact ⟨c, hc, htag.trans hin⟩

theorem not_opensStep_of_not_mem {text : List Char} (h : '[' ∉ text) : ¬ OpensStep text := by
  rintro ⟨c, -, htag⟩
  exact h (htag.subset (by simp [Tag.stepOpen]))

theorem bracket_not_mem_tag {c : Char} (hc : c = ']' ∨ isBlank c = true) :
    '[' ∉ "step".toList ++ [c] := by
  have hne : c ≠ '[' := by
    rintro rfl
    exact absurd hc (by decide)
  simpa using Ne.symm hne

/-- Text without an opening bracket does not matter before an opening tag. -/
theorem opensStep_append_iff {text : List Char} (h : '[' ∉ text) (rest : List Char) :
    OpensStep (text ++ rest) ↔ OpensStep rest := by
  rw [OpensStep, OpensStep]
  exact exists_congr fun c => and_congr_right fun _ => cons_infix_append_iff h rest

/-- No opening tag runs over a bracket that opens another one. -/
theorem opensStep_append_bracket_iff (text rest : List Char) :
    OpensStep (text ++ '[' :: rest) ↔ OpensStep text ∨ OpensStep ('[' :: rest) := by
  rw [OpensStep, OpensStep, OpensStep, ← exists_or]
  refine exists_congr fun c => ?_
  rw [← and_or_left]
  refine and_congr_right fun hc => ?_
  rw [stepOpen_eq, List.cons_append]
  exact infix_append_first_iff (bracket_not_mem_tag hc) text rest

/-- No opening tag runs over a character that neither stands in its name nor ends it. -/
theorem opensStep_append_cons_iff {d : Char} (hname : d ∉ Tag.stepOpen)
    (hend : endsName [d] = false) (text rest : List Char) :
    OpensStep (text ++ d :: rest) ↔ OpensStep text ∨ OpensStep rest := by
  rw [OpensStep, OpensStep, OpensStep, ← exists_or]
  refine exists_congr fun c => ?_
  rw [← and_or_left]
  refine and_congr_right fun hc => ?_
  have hne : d ≠ c := by
    rintro rfl
    rw [(endsName_iff _).mpr ⟨d, [], rfl, hc⟩] at hend
    exact absurd hend (by decide)
  exact infix_append_cons_iff (by simp [hname, hne]) text rest

/-- An opening tag may end with a newline, but does not run over it. -/
theorem opensStep_append_newline_iff (text rest : List Char) :
    OpensStep (text ++ '\n' :: rest) ↔ OpensStep (text ++ ['\n']) ∨ OpensStep rest := by
  have hname : '\n' ∉ Tag.stepOpen := by decide
  rw [OpensStep, OpensStep, OpensStep, ← exists_or]
  refine exists_congr fun c => ?_
  rw [← and_or_left]
  refine and_congr_right fun _ => ?_
  by_cases hc : c = '\n'
  · subst hc
    exact infix_append_last_iff hname text rest
  · have hmark : '\n' ∉ Tag.stepOpen ++ [c] := by
      simpa [hname] using Ne.symm hc
    rw [infix_append_cons_iff hmark, infix_append_cons_iff hmark, or_assoc, List.infix_nil]
    simp

/-- A line opens a step when its text does, or when its text ends with the name of the tag. -/
theorem opensStep_line_iff (text : List Char) :
    OpensStep (text ++ ['\n']) ↔ OpensStep text ∨ Tag.stepOpen <:+ text := by
  constructor
  · rintro ⟨c, hc, htag⟩
    rcases List.infix_concat_iff.mp htag with hend | hin
    · rcases List.suffix_concat_iff.mp hend with hnil | ⟨front, heq, hfront⟩
      · simp at hnil
      · obtain ⟨rfl, -⟩ := List.append_inj' heq rfl
        exact Or.inr hfront
    · exact Or.inl ⟨c, hc, hin⟩
  · rintro (h | h)
    · exact h.mono (List.prefix_append text ['\n']).isInfix
    · obtain ⟨front, rfl⟩ := h
      exact ⟨'\n', Or.inr (by decide), front, [], by simp⟩

/-- Lines open a step when one of them does. -/
theorem opensStep_lines_iff {lines : List (List Char)} (h : lines ≠ []) :
    OpensStep (['\n'].intercalate lines ++ ['\n']) ↔
      ∃ line ∈ lines, OpensStep (line ++ ['\n']) := by
  induction lines with
  | nil => exact absurd rfl h
  | cons line lines ih =>
    cases lines with
    | nil => simp
    | cons next lines =>
      rw [List.intercalate_cons_cons, List.append_assoc, List.append_assoc, List.singleton_append,
        opensStep_append_newline_iff, ih (List.cons_ne_nil next lines)]
      simp

def StartsStep (text : List Char) : Prop :=
  ∃ after, text = Tag.stepOpen ++ after ∧ endsName after = true

theorem startsStep_iff (text : List Char) :
    StartsStep text ↔ ∃ c, (c = ']' ∨ isBlank c = true) ∧ Tag.stepOpen ++ [c] <+: text := by
  constructor
  · rintro ⟨after, rfl, hends⟩
    obtain ⟨c, rest, rfl, hc⟩ := (endsName_iff after).mp hends
    exact ⟨c, hc, rest, by simp⟩
  · rintro ⟨c, hc, rest, rfl⟩
    exact ⟨c :: rest, by simp, (endsName_iff _).mpr ⟨c, rest, rfl, hc⟩⟩

theorem opensStep_cons_iff (c : Char) (rest : List Char) :
    OpensStep (c :: rest) ↔ StartsStep (c :: rest) ∨ OpensStep rest := by
  rw [startsStep_iff, OpensStep, OpensStep, ← exists_or]
  exact exists_congr fun d => by rw [List.infix_cons_iff, and_or_left]

theorem openTag?_cons_of_startsStep {c : Char} {rest after : List Char}
    (h : c :: rest = Tag.stepOpen ++ after) (hends : endsName after = true) :
    openTag? (c :: rest) = some ([], after) := by
  rw [openTag?, (isPrefixOf?_eq_some_iff _ _ _).mpr h]
  exact if_pos hends

theorem openTag?_cons_of_not_startsStep {c : Char} {rest : List Char}
    (h : ¬ StartsStep (c :: rest)) :
    openTag? (c :: rest) = (openTag? rest).map fun (before, after) => (c :: before, after) := by
  rw [openTag?]
  split
  · rename_i after hopen
    exact if_neg fun hends => h ⟨after, (isPrefixOf?_eq_some_iff _ _ _).mp hopen, hends⟩
  · rfl

theorem openTag?_eq_none_iff (chars : List Char) : openTag? chars = none ↔ ¬ OpensStep chars := by
  induction chars with
  | nil => exact iff_of_true rfl (not_opensStep_of_not_mem List.not_mem_nil)
  | cons c rest ih =>
    rw [opensStep_cons_iff]
    by_cases h : StartsStep (c :: rest)
    · obtain ⟨after, htag, hends⟩ := id h
      simp [openTag?_cons_of_startsStep htag hends, h]
    · rw [openTag?_cons_of_not_startsStep h, Option.map_eq_none_iff, ih]
      simp [h]

instance (text : List Char) : Decidable (OpensStep text) :=
  decidable_of_iff (¬ openTag? text = none) (by rw [openTag?_eq_none_iff, not_not])

theorem eq_of_openTag?_eq_some {chars before after : List Char}
    (h : openTag? chars = some (before, after)) :
    chars = before ++ Tag.stepOpen ++ after ∧ endsName after = true ∧ ¬ OpensStep before := by
  -- the tag stands here, or the text before it is one character longer than for the rest
  induction chars generalizing before with
  | nil => simp [openTag?] at h
  | cons c rest ih =>
    by_cases hstart : StartsStep (c :: rest)
    · obtain ⟨after', htag, hends⟩ := hstart
      rw [openTag?_cons_of_startsStep htag hends] at h
      obtain ⟨rfl, rfl⟩ : [] = before ∧ after' = after := by simpa using h
      exact ⟨htag, hends, not_opensStep_of_not_mem List.not_mem_nil⟩
    · rw [openTag?_cons_of_not_startsStep hstart] at h
      obtain ⟨⟨front, back⟩, hfound, heq⟩ := Option.map_eq_some_iff.mp h
      obtain ⟨rfl, rfl⟩ : c :: front = before ∧ back = after := by simpa using heq
      obtain ⟨rfl, hends, hfirst⟩ := ih hfound
      refine ⟨by simp, hends, ?_⟩
      rw [opensStep_cons_iff, not_or]
      refine ⟨fun hstart' => hstart ?_, hfirst⟩
      obtain ⟨d, hd, hpre⟩ := (startsStep_iff _).mp hstart'
      exact (startsStep_iff _).mpr ⟨d, hd, hpre.trans (by simp)⟩

/-- The first opening tag is found where it stands, and nothing else is found. -/
theorem openTag?_eq_some_iff (chars before after : List Char) :
    openTag? chars = some (before, after) ↔
      chars = before ++ Tag.stepOpen ++ after ∧ endsName after = true ∧ ¬ OpensStep before := by
  refine ⟨eq_of_openTag?_eq_some, ?_⟩
  rintro ⟨rfl, hends, hfirst⟩
  induction before with
  | nil => exact openTag?_cons_of_startsStep rfl hends
  | cons c before ih =>
    have hstart : ¬ StartsStep (c :: (before ++ Tag.stepOpen ++ after)) := by
      rw [startsStep_iff]
      rintro ⟨d, hd, hpre⟩
      -- the tag would have to run over the bracket that opens the next one
      refine not_isPrefix_append (bracket_not_mem_tag hd) (fun hin => hfirst ⟨d, hd, hin⟩)
        (List.cons_ne_nil c before) ("step".toList ++ after) ?_
      simpa only [stepOpen_eq, List.cons_append, List.append_assoc] using hpre
    have hrest := ih fun h => hfirst (h.mono (List.suffix_cons c before).isInfix)
    rw [List.cons_append, List.cons_append, openTag?_cons_of_not_startsStep hstart, hrest]
    rfl

/-! ## Blocks -/

theorem endsName_append_bracket_iff {attributes : List Char} (hclosed : ']' ∉ attributes)
    (rest : List Char) :
    endsName (attributes ++ ']' :: rest) = true ↔ ∀ c ∈ attributes.head?, isBlank c = true := by
  cases attributes with
  | nil => simp [endsName]
  | cons c attributes =>
    have hc : c ≠ ']' := fun h => hclosed (h ▸ List.mem_cons_self)
    simp [endsName, hc]

/-- The first block is found where it is written, and nothing else is found. -/
theorem firstBlock?_eq_some_iff (chars before after : List Char) (found : Block) :
    firstBlock? chars = some (before, found, after) ↔
      chars = before ++ source (.block found) ++ after ∧ found.WellFormed ∧
        ¬ OpensStep before := by
  have hmark : '[' ∉ "/step]".toList := by decide
  -- the three searches one after the other, each by the place where it stops
  simp only [firstBlock?, Option.bind_eq_bind, Option.bind_eq_some_iff, Prod.exists,
    openTag?_eq_some_iff, cut?_singleton_eq_some_iff, stepClose_eq, cut?_eq_some_iff hmark]
  constructor
  · rintro ⟨_, rest, ⟨rfl, hends, hfirst⟩, attributes, _, ⟨rfl, hattributes⟩, body, _,
      ⟨rfl, hbody⟩, heq⟩
    obtain ⟨rfl, rfl, rfl⟩ : _ = before ∧ ⟨attributes, body⟩ = found ∧ _ = after := by
      simpa using heq
    refine ⟨by simp [source, stepClose_eq], ⟨?_, hattributes, hbody⟩, hfirst⟩
    exact (endsName_append_bracket_iff hattributes _).mp hends
  · rintro ⟨rfl, hfound, hfirst⟩
    refine ⟨before, _, ⟨?_, ?_, hfirst⟩, found.attributes, _, ⟨rfl, hfound.attributes_closed⟩,
      found.body, after, ⟨rfl, hfound.body_closed⟩, rfl⟩
    · simp [source, stepClose_eq]
    · exact (endsName_append_bracket_iff hfound.attributes_closed _).mpr hfound.attributes_start

theorem firstBlock?_eq_none {chars : List Char} (h : ¬ OpensStep chars) :
    firstBlock? chars = none := by
  rw [firstBlock?, (openTag?_eq_none_iff chars).mpr h]
  rfl

/-! ## The scan -/

theorem length_lt_of_firstBlock?_eq_some {chars before after : List Char} {found : Block}
    (h : firstBlock? chars = some (before, found, after)) : after.length < chars.length := by
  obtain ⟨rfl, -, -⟩ := (firstBlock?_eq_some_iff _ _ _ _).mp h
  simp only [source, List.length_append, List.length_cons]
  omega

theorem scanFrom_nil (fuel : Nat) : scanFrom fuel [] = [.text []] := by
  cases fuel <;> rfl

/-- Any fuel that the text allows for gives the same segments. -/
theorem scanFrom_eq_scan {fuel : Nat} {chars : List Char} (h : chars.length ≤ fuel) :
    scanFrom fuel chars = scan chars := by
  rw [scan]
  -- a block uses up many characters at once, so that the fuel that is left is not one less
  induction fuel using Nat.strong_induction_on generalizing chars with
  | _ fuel ih =>
    cases chars with
    | nil => rw [scanFrom_nil, scanFrom_nil]
    | cons c rest =>
      obtain ⟨fuel, rfl⟩ := Nat.exists_eq_succ_of_ne_zero (n := fuel) (by rintro rfl; simp at h)
      rw [List.length_cons, scanFrom, scanFrom]
      split
      · rfl
      · rename_i before found after hfound
        have hlt := length_lt_of_firstBlock?_eq_some hfound
        rw [List.length_cons] at h hlt
        -- both fuels are enough for what follows the block
        rw [ih fuel (by omega) (by omega), ih rest.length (by omega) (by omega)]

theorem scan_eq (chars : List Char) :
    scan chars =
      match firstBlock? chars with
      | none => [.text chars]
      | some (before, found, after) => .text before :: .block found :: scan after := by
  rw [← scanFrom_eq_scan (Nat.le_succ chars.length), scanFrom]
  cases hfirst : firstBlock? chars with
  | none => rfl
  | some first =>
    have hlt := length_lt_of_firstBlock?_eq_some hfirst
    dsimp only
    rw [scanFrom_eq_scan (Nat.le_of_lt hlt)]

/-- A written block is a segment of its own. -/
theorem scan_append_block {before : List Char} (hbefore : ¬ OpensStep before) {found : Block}
    (hfound : found.WellFormed) (after : List Char) :
    scan (before ++ source (.block found) ++ after) =
      .text before :: .block found :: scan after := by
  rw [scan_eq, (firstBlock?_eq_some_iff _ _ _ _).mpr ⟨rfl, hfound, hbefore⟩]

theorem scan_of_firstBlock?_eq_none {text : List Char} (h : firstBlock? text = none) :
    scan text = [.text text] := by
  rw [scan_eq, h]

theorem scan_of_not_opensStep {chars : List Char} (h : ¬ OpensStep chars) :
    scan chars = [.text chars] :=
  scan_of_firstBlock?_eq_none (firstBlock?_eq_none h)

/-- A text has no block, or it has a first one and a shorter text after it. -/
@[elab_as_elim]
theorem scan_induction {motive : List Char → Prop}
    (plain : ∀ text, firstBlock? text = none → motive text)
    (block : ∀ before found after, ¬ OpensStep before → found.WellFormed → motive after →
      motive (before ++ source (.block found) ++ after)) (text : List Char) : motive text := by
  -- what follows a block is shorter by all of the block, so the induction is on the length
  induction hlength : text.length using Nat.strong_induction_on generalizing text with
  | _ length ih =>
    cases hfirst : firstBlock? text with
    | none => exact plain text hfirst
    | some first =>
      obtain ⟨before, found, after⟩ := first
      have hlt := length_lt_of_firstBlock?_eq_some hfirst
      obtain ⟨rfl, hfound, hbefore⟩ := (firstBlock?_eq_some_iff _ _ _ _).mp hfirst
      exact block before found after hbefore hfound (ih after.length (hlength ▸ hlt) after rfl)

theorem scan_ne_nil (text : List Char) : scan text ≠ [] := by
  rw [scan_eq]
  split <;> exact List.cons_ne_nil _ _

/-- Everything the scan finds is well formed, whatever the text. -/
theorem wellFormed_of_mem_scan {chars : List Char} {found : Block}
    (h : .block found ∈ scan chars) : found.WellFormed := by
  induction chars using scan_induction with
  | plain text hnone =>
    rw [scan_of_firstBlock?_eq_none hnone] at h
    simp at h
  | block before first after hbefore hfirst ih =>
    rw [scan_append_block hbefore hfirst] at h
    rcases List.mem_cons.mp h with heq | h
    · simp at heq
    · rcases List.mem_cons.mp h with heq | h
      · obtain rfl : found = first := by simpa using heq
        exact hfirst
      · exact ih h

/-! ## The blocks of a text and what follows them -/

def blocks (text : List Char) : List Block :=
  (scan text).filterMap block?

def remainder (text : List Char) : List Char :=
  ((scan text).getLast?.map outside).getD []

section Blocks

variable {text before : List Char} {found : Block}

theorem blocks_of_firstBlock?_eq_none (h : firstBlock? text = none) : blocks text = [] := by
  rw [blocks, scan_of_firstBlock?_eq_none h]
  rfl

theorem remainder_of_firstBlock?_eq_none (h : firstBlock? text = none) : remainder text = text := by
  rw [remainder, scan_of_firstBlock?_eq_none h]
  rfl

theorem blocks_append_block (hbefore : ¬ OpensStep before) (hfound : found.WellFormed)
    (after : List Char) :
    blocks (before ++ source (.block found) ++ after) = found :: blocks after := by
  rw [blocks, scan_append_block hbefore hfound]
  rfl

theorem remainder_append_block (hbefore : ¬ OpensStep before) (hfound : found.WellFormed)
    (after : List Char) :
    remainder (before ++ source (.block found) ++ after) = remainder after := by
  rw [remainder, scan_append_block hbefore hfound, List.getLast?_cons_cons,
    List.getLast?_cons_of_ne_nil (scan_ne_nil after)]
  rfl

end Blocks

/-- The scan goes on after the last block as it does at the start of a text. -/
theorem blocks_append (text rest : List Char) :
    blocks (text ++ rest) = blocks text ++ blocks (remainder text ++ rest) := by
  induction text using scan_induction with
  | plain text hnone =>
    rw [blocks_of_firstBlock?_eq_none hnone, remainder_of_firstBlock?_eq_none hnone,
      List.nil_append]
  | block before found after hbefore hfound ih =>
    rw [remainder_append_block hbefore hfound, List.append_assoc,
      blocks_append_block hbefore hfound, blocks_append_block hbefore hfound, ih, List.cons_append]

theorem remainder_isSuffix (text : List Char) : remainder text <:+ text := by
  induction text using scan_induction with
  | plain text hnone => rw [remainder_of_firstBlock?_eq_none hnone]
  | block before found after hbefore hfound ih =>
    rw [remainder_append_block hbefore hfound]
    exact ih.trans (List.suffix_append _ _)

theorem firstBlock?_remainder (text : List Char) : firstBlock? (remainder text) = none := by
  induction text using scan_induction with
  | plain text hnone => rwa [remainder_of_firstBlock?_eq_none hnone]
  | block before found after hbefore hfound ih => rwa [remainder_append_block hbefore hfound]

theorem body_isInfix_of_mem_blocks {text : List Char} :
    ∀ block ∈ blocks text, block.body <:+: text := by
  induction text using scan_induction with
  | plain text hnone =>
    rw [blocks_of_firstBlock?_eq_none hnone]
    exact fun block h => absurd h List.not_mem_nil
  | block before found after hbefore hfound ih =>
    rw [blocks_append_block hbefore hfound, List.forall_mem_cons]
    constructor
    · exact ⟨before ++ (Tag.stepOpen ++ found.attributes ++ [']']), Tag.stepClose ++ after,
        by simp [source]⟩
    · exact fun block h => (ih block h).trans (List.suffix_append _ _).isInfix

end Segment

end Cattery
