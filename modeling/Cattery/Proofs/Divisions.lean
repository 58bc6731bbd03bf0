import Cattery.Proofs.RoundTrip

namespace Cattery

namespace Segment

/-- A text without a block: it has no opening tag, or its first one does not end, or the body after
that does not. -/
def Blockless (text : List Char) : Prop :=
  ¬ OpensStep text ∨
    ∃ before after, text = before ++ Tag.stepOpen ++ after ∧ endsName after = true ∧
      ¬ OpensStep before ∧
        (']' ∉ after ∨ ∃ attributes body, after = attributes ++ ']' :: body ∧ ']' ∉ attributes ∧
          ¬ Tag.stepClose <:+: body)

theorem firstBlock?_eq_none_iff (text : List Char) : firstBlock? text = none ↔ Blockless text := by
  constructor
  · intro h
    -- one of the three searches fails, and those before it say where
    cases htag : openTag? text with
    | none => exact Or.inl ((openTag?_eq_none_iff text).mp htag)
    | some found =>
      obtain ⟨before, after⟩ := found
      obtain ⟨htext, hends, hbefore⟩ := eq_of_openTag?_eq_some htag
      refine Or.inr ⟨before, after, htext, hends, hbefore, ?_⟩
      cases hcut : cut? [']'] after with
      | none =>
        left
        rwa [cut?_eq_none_iff, List.singleton_infix_iff] at hcut
      | some found =>
        obtain ⟨attributes, body⟩ := found
        obtain ⟨hafter, hattributes⟩ := (cut?_singleton_eq_some_iff _ _ _ _).mp hcut
        refine Or.inr ⟨attributes, body, hafter, hattributes, ?_⟩
        rw [← cut?_eq_none_iff]
        cases hclose : cut? Tag.stepClose body with
        | none => rfl
        | some found => simp [firstBlock?, htag, hcut, hclose] at h
  · rintro (h | ⟨before, after, htext, hends, hbefore, hend⟩)
    · exact firstBlock?_eq_none h
    have htag : openTag? text = some (before, after) :=
      (openTag?_eq_some_iff _ _ _).mpr ⟨htext, hends, hbefore⟩
    rcases hend with hopen | ⟨attributes, body, hafter, hattributes, hbody⟩
    · have hcut : cut? [']'] after = none := by
        rwa [cut?_eq_none_iff, List.singleton_infix_iff]
      simp [firstBlock?, htag, hcut]
    · have hcut : cut? [']'] after = some (attributes, body) :=
        (cut?_singleton_eq_some_iff _ _ _ _).mpr ⟨hafter, hattributes⟩
      have hclose : cut? Tag.stepClose body = none := (cut?_eq_none_iff _ _).mpr hbody
      simp [firstBlock?, htag, hcut, hclose]

end Segment

structure Division where
  pieces : List (List Char × Block)
  rest : List Char
deriving DecidableEq

namespace Division

def source (division : Division) : List Char :=
  (division.pieces.flatMap fun (before, block) => before ++ Segment.source (.block block)) ++
    division.rest

def segments (division : Division) : List Segment :=
  (division.pieces.flatMap fun (before, block) => [.text before, .block block]) ++
    [.text division.rest]

def blocks (division : Division) : List Block :=
  division.pieces.map Prod.snd

def outside (division : Division) : List Char :=
  division.pieces.flatMap Prod.fst ++ division.rest

/-- A division by the grammar: no opening tag stands before a block, every block ends where its
tags do, and no block is left. -/
structure Lawful (division : Division) : Prop where
  before : ∀ piece ∈ division.pieces, ¬ Segment.OpensStep piece.1
  wellFormed : ∀ piece ∈ division.pieces, piece.2.WellFormed
  rest : Segment.Blockless division.rest

variable {division other : Division} {piece : List Char × Block} {pieces : List (List Char × Block)}
  {rest : List Char}

theorem source_cons : source ⟨piece :: pieces, rest⟩ =
    piece.1 ++ Segment.source (.block piece.2) ++ source ⟨pieces, rest⟩ := by
  simp [source]

theorem segments_cons : segments ⟨piece :: pieces, rest⟩ =
    .text piece.1 :: .block piece.2 :: segments ⟨pieces, rest⟩ := rfl

theorem lawful_nil (h : Segment.Blockless rest) : Lawful ⟨[], rest⟩ :=
  ⟨by simp, by simp, h⟩

theorem lawful_cons_iff : Lawful ⟨piece :: pieces, rest⟩ ↔
    ¬ Segment.OpensStep piece.1 ∧ piece.2.WellFormed ∧ Lawful ⟨pieces, rest⟩ := by
  constructor
  · rintro ⟨hbefore, hblocks, hrest⟩
    rw [List.forall_mem_cons] at hbefore hblocks
    exact ⟨hbefore.1, hblocks.1, hbefore.2, hblocks.2, hrest⟩
  · rintro ⟨hbefore, hblock, h⟩
    exact ⟨List.forall_mem_cons.mpr ⟨hbefore, h.before⟩,
      List.forall_mem_cons.mpr ⟨hblock, h.wellFormed⟩, h.rest⟩

theorem segments_inj (h : division.segments = other.segments) : division = other := by
  obtain ⟨pieces, rest⟩ := division
  obtain ⟨pieces', rest'⟩ := other
  induction pieces generalizing pieces' with
  | nil =>
    cases pieces' with
    | nil =>
      obtain rfl : rest = rest' := by simpa [segments] using h
      rfl
    | cons piece' pieces' => simp [segments] at h
  | cons piece pieces ih =>
    cases pieces' with
    | nil => simp [segments] at h
    | cons piece' pieces' =>
      rw [segments_cons, segments_cons] at h
      obtain ⟨hbefore, hblock, hrest⟩ :
          piece.1 = piece'.1 ∧ piece.2 = piece'.2 ∧
            segments ⟨pieces, rest⟩ = segments ⟨pieces', rest'⟩ := by
        simpa using h
      obtain ⟨rfl, rfl⟩ := Division.mk.inj (ih pieces' hrest)
      rw [Prod.ext hbefore hblock]

theorem filterMap_block?_segments (division : Division) :
    division.segments.filterMap Segment.block? = division.blocks := by
  obtain ⟨pieces, rest⟩ := division
  induction pieces with
  | nil => rfl
  | cons piece pieces ih =>
    have hblock : Segment.block? (.block piece.2) = some piece.2 := rfl
    rw [segments_cons, List.filterMap_cons_none rfl, List.filterMap_cons_some hblock, ih]
    rfl

theorem flatMap_outside_segments (division : Division) :
    division.segments.flatMap Segment.outside = division.outside := by
  obtain ⟨pieces, rest⟩ := division
  induction pieces with
  | nil => simp [segments, outside, Segment.outside]
  | cons piece pieces ih =>
    rw [segments_cons, List.flatMap_cons, List.flatMap_cons, ih]
    simp [outside, Segment.outside]

/-- The scan finds every division by the grammar. -/
theorem Lawful.scan_source (h : division.Lawful) :
    Segment.scan division.source = division.segments := by
  obtain ⟨pieces, rest⟩ := division
  induction pieces with
  | nil =>
    exact Segment.scan_of_firstBlock?_eq_none ((Segment.firstBlock?_eq_none_iff rest).mpr h.rest)
  | cons piece pieces ih =>
    obtain ⟨hbefore, hblock, hpieces⟩ := lawful_cons_iff.mp h
    rw [source_cons, Segment.scan_append_block hbefore hblock, ih hpieces, segments_cons]

theorem exists_lawful (text : List Char) : ∃ division : Division,
    division.Lawful ∧ division.source = text := by
  induction text using Segment.scan_induction with
  | plain text hnone =>
    exact ⟨⟨[], text⟩, lawful_nil ((Segment.firstBlock?_eq_none_iff text).mp hnone), rfl⟩
  | block before found after hbefore hfound ih =>
    obtain ⟨⟨pieces, rest⟩, hlawful, rfl⟩ := ih
    exact ⟨⟨(before, found) :: pieces, rest⟩, lawful_cons_iff.mpr ⟨hbefore, hfound, hlawful⟩,
      source_cons⟩

theorem Lawful.unique (h : division.Lawful) (hother : other.Lawful)
    (hsource : division.source = other.source) : division = other := by
  apply segments_inj
  rw [← h.scan_source, ← hother.scan_source, hsource]

end Division

namespace Document

theorem router?_eq_none_iff (text : List Char) : router? text = none ↔
    ¬ ∃ before inner after,
      text = before ++ Tag.routerOpen ++ inner ++ Tag.routerClose ++ after := by
  constructor
  · rintro h ⟨before, inner, after, htext⟩
    -- the first opening tag stands no later than this one, so the closing tag comes after it too
    obtain ⟨front, back, hopen, hback⟩ :=
      exists_cut?_append Tag.routerOpen before (inner ++ Tag.routerClose ++ after)
    have hclose : Tag.routerClose <:+: back :=
      (List.infix_append inner Tag.routerClose after).trans hback.isInfix
    obtain ⟨⟨found, late⟩, hfound⟩ :=
      Option.ne_none_iff_exists'.mp fun hnone => (cut?_eq_none_iff _ _).mp hnone hclose
    have hcut : before ++ (Tag.routerOpen ++ (inner ++ Tag.routerClose ++ after)) = text := by
      rw [htext]
      simp only [List.append_assoc]
    rw [hcut] at hopen
    simp [router?, hopen, hfound] at h
  · intro h
    cases hopen : cut? Tag.routerOpen text with
    | none => simp [router?, hopen]
    | some found =>
      obtain ⟨before, rest⟩ := found
      cases hclose : cut? Tag.routerClose rest with
      | none => simp [router?, hopen, hclose]
      | some found =>
        obtain ⟨inner, after⟩ := found
        rw [routerOpen_eq] at hopen
        rw [routerClose_eq] at hclose
        obtain ⟨htext, -⟩ := eq_of_cut?_eq_some hopen
        obtain ⟨hrest, -⟩ := eq_of_cut?_eq_some hclose
        rw [← routerOpen_eq] at htext
        rw [← routerClose_eq] at hrest
        refine absurd ⟨before, inner, after, ?_⟩ h
        rw [htext, hrest]
        simp only [List.append_assoc]

/-- Without router tags the global text is all text outside the blocks. -/
theorem globalText_decode {raw : String} (h : router? raw.toList = none) :
    (decode raw).globalText =
      Text.trim (String.ofList ((Segment.scan raw.toList).flatMap Segment.outside)) := by
  rw [Text.trim, String.toList_ofList, decode, decodeChars]
  split
  · simp only [h, Option.getD_none]
  · rename_i hplain
    -- nothing that could open a block stands in a text without tags
    have hopen : ¬ Segment.OpensStep raw.toList := fun h => hplain (isTagged_of_opensStep h)
    rw [Segment.scan_of_not_opensStep hopen, List.flatMap_singleton]
    rfl

end Document

namespace Segment

/-- The scan ends with every text, whatever it is allowed to take, and finds the one division of the
text by the grammar: its blocks and the text between them. Without a pair of router tags, all text
outside the blocks is the global text. -/
theorem scan_division (raw : String) :
    (∀ fuel, raw.toList.length ≤ fuel → scanFrom fuel raw.toList = scan raw.toList) ∧
    ∃ division : Division,
      (division.Lawful ∧ division.source = raw.toList) ∧
      (∀ other : Division, other.Lawful → other.source = raw.toList → other = division) ∧
      (scan raw.toList).filterMap block? = division.blocks ∧
      (scan raw.toList).flatMap outside = division.outside ∧
      ((¬ ∃ before inner after,
          raw.toList = before ++ Tag.routerOpen ++ inner ++ Tag.routerClose ++ after) →
        (Document.decode raw).globalText = Text.trim (String.ofList division.outside)) := by
  obtain ⟨division, hlawful, hsource⟩ := Division.exists_lawful raw.toList
  have hscan : scan raw.toList = division.segments := by
    rw [← hsource, hlawful.scan_source]
  have houtside : (scan raw.toList).flatMap outside = division.outside := by
    rw [hscan, division.flatMap_outside_segments]
  refine ⟨fun fuel hfuel => scanFrom_eq_scan hfuel, division, ⟨hlawful, hsource⟩, ?_, ?_,
    houtside, ?_⟩
  · intro other hother hsame
    exact hother.unique hlawful (hsame.trans hsource.symm)
  · rw [hscan, division.filterMap_block?_segments]
  · intro hrouter
    rw [Document.globalText_decode ((Document.router?_eq_none_iff _).mpr hrouter), houtside]

def knotted : String :=
  "[steps] [step a][step b]c[/step] d[/router][step e] f"

def knottedDivision : Division where
  pieces := [("[steps] ".toList, ⟨" a".toList, "[step b]c".toList⟩)]
  rest := " d[/router][step e] f".toList

theorem lawful_knottedDivision : knottedDivision.Lawful where
  before := List.forall_mem_singleton.mpr (by decide +kernel)
  wellFormed := by
    rw [knottedDivision, List.forall_mem_singleton]
    refine ⟨?_, by decide +kernel, by decide +kernel⟩
    intro c hc
    obtain rfl : ' ' = c := Option.some_inj.mp hc
    rfl
  rest := (firstBlock?_eq_none_iff _).mp (by decide +kernel)

theorem scan_division_knotted :
    (scan knotted.toList).filterMap block? = [⟨" a".toList, "[step b]c".toList⟩] ∧
      (Document.decode knotted).globalText = "[steps]  d[/router][step e] f" := by
  obtain ⟨-, division, -, hunique, hblocks, -, hglobal⟩ := scan_division knotted
  obtain rfl : knottedDivision = division :=
    hunique knottedDivision lawful_knottedDivision (by decide +kernel)
  have hrouter : Document.router? knotted.toList = none := by decide +kernel
  refine ⟨hblocks, ?_⟩
  rw [hglobal ((Document.router?_eq_none_iff _).mp hrouter)]
  decide +kernel

end Segment

end Cattery
