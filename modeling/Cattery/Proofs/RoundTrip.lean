import Cattery.Proofs.Directives

namespace Cattery.Document

/-! ## The text of a document -/

def blocksText (steps : List Directive) : List Char :=
  ['\n', '\n'].intercalate (steps.map fun step => Segment.source (.block step.toBlock))

def routerText (globalText : List Char) : List Char :=
  Tag.routerOpen ++ (['\n'] ++ globalText ++ ['\n']) ++ Tag.routerClose ++ ['\n', '\n']

theorem blocksText_cons_cons (first second : Directive) (rest : List Directive) :
    blocksText (first :: second :: rest) =
      Segment.source (.block first.toBlock) ++ (['\n', '\n'] ++ blocksText (second :: rest)) := by
  rw [blocksText, blocksText, List.map_cons, List.map_cons, List.intercalate_cons_cons,
    List.append_assoc]

theorem blocksText_singleton (step : Directive) :
    blocksText [step] = Segment.source (.block step.toBlock) := by
  rw [blocksText, List.map_singleton, List.intercalate_singleton]

theorem toList_join_blockText {steps : List Directive} (h : steps ≠ []) :
    (String.join (steps.map blockText)).toList = '\n' :: blocksText steps ++ ['\n'] := by
  induction steps with
  | nil => exact absurd rfl h
  | cons first rest ih =>
    cases rest with
    | nil => simp [Directive.toList_blockText, blocksText_singleton]
    | cons second rest =>
      have hrest := ih (List.cons_ne_nil second rest)
      rw [String.toList_join] at hrest ⊢
      rw [List.map_cons, List.flatMap_cons, hrest, Directive.toList_blockText,
        blocksText_cons_cons]
      simp

theorem getLast?_blocksText {steps : List Directive} (h : steps ≠ []) :
    (blocksText steps).getLast? = some ']' := by
  have hsource (block : Block) : (Segment.source (.block block)).getLast? = some ']' := by
    have hclose : Tag.stepClose ≠ [] := by decide
    rw [Segment.source, List.getLast?_append_of_ne_nil _ hclose]
    rfl
  induction steps with
  | nil => exact absurd rfl h
  | cons first rest ih =>
    cases rest with
    | nil => rw [blocksText_singleton, hsource]
    | cons second rest =>
      have hrest := ih (List.cons_ne_nil second rest)
      have hne : blocksText (second :: rest) ≠ [] := by
        intro hnil
        simp [hnil] at hrest
      rw [blocksText_cons_cons, List.getLast?_append_of_ne_nil _ (by simp),
        List.getLast?_append_of_ne_nil _ hne, hrest]

theorem encode_of_sanitize_ne_nil {document : Document}
    (h : Directive.sanitize document.steps ≠ []) :
    encode document = Text.trim ("[router]\n" ++ Text.trim document.globalText ++ "\n[/router]\n" ++
      String.join ((Directive.sanitize document.steps).map blockText)) := by
  unfold encode
  split
  · rename_i hnil
    exact absurd hnil h
  · rfl

theorem encode_of_sanitize_eq_nil {document : Document}
    (h : Directive.sanitize document.steps = []) :
    encode document = Text.trim document.globalText := by
  unfold encode
  split
  · rfl
  · rename_i hne
    exact absurd h hne

/-- Trimming drops the last newline of an encoded document and nothing else. -/
theorem toList_encode {document : Document} (h : Directive.sanitize document.steps ≠ []) :
    (encode document).toList = routerText (Chars.trim document.globalText.toList) ++
      blocksText (Directive.sanitize document.steps) := by
  have hopen : "[router]\n".toList = Tag.routerOpen ++ ['\n'] := rfl
  have hclose : "\n[/router]\n".toList = '\n' :: (Tag.routerClose ++ ['\n']) := rfl
  have hlast := getLast?_blocksText h
  have hjoin := toList_join_blockText h
  rw [encode_of_sanitize_ne_nil h]
  -- only the blocks of the steps matter from here on
  generalize Directive.sanitize document.steps = steps at hlast hjoin ⊢
  have hnewline : ("[router]\n" ++ Text.trim document.globalText ++ "\n[/router]\n" ++
      String.join (steps.map blockText)).toList =
        [] ++ (routerText (Chars.trim document.globalText.toList) ++ blocksText steps) ++
          ['\n'] := by
    simp only [String.toList_append, hopen, hclose, hjoin, Text.toList_trim, routerText,
      List.append_assoc, List.cons_append, List.nil_append]
  have hne : blocksText steps ≠ [] := by
    intro hnil
    simp [hnil] at hlast
  rw [Text.toList_trim, hnewline, Chars.trim_pad (by simp) (List.forall_mem_singleton.mpr rfl)]
  apply Chars.trim_eq_self_of_ends (c := '[') (d := ']')
  · rfl
  · rw [List.getLast?_append_of_ne_nil _ hne, hlast]
  · decide
  · decide

/-! ## Reading the parts back -/

theorem routerOpen_eq : Tag.routerOpen = '[' :: "router]".toList := rfl

theorem routerClose_eq : Tag.routerClose = '[' :: "/router]".toList := rfl

/-- The lines around the global text open no block. -/
theorem opensStep_routerText_iff (globalText : List Char) :
    Segment.OpensStep (routerText globalText) ↔ Segment.OpensStep (globalText ++ ['\n']) := by
  have hopen : ¬ Segment.StartsStep ('[' :: ("router]\n".toList ++ (globalText ++ ['\n']))) := by
    rintro ⟨after, heq, -⟩
    simp [Tag.stepOpen] at heq
  have hrouter : '[' ∉ "router]\n".toList := by decide
  have hclose : ¬ Segment.OpensStep ('[' :: "/router]\n\n".toList) := by decide
  have htext : routerText globalText =
      '[' :: ("router]\n".toList ++ (globalText ++ ['\n'])) ++ '[' :: "/router]\n\n".toList := by
    have hfirst : "router]\n".toList = "router]".toList ++ ['\n'] := rfl
    have hlast : "/router]\n\n".toList = "/router]".toList ++ ['\n', '\n'] := rfl
    simp only [routerText, routerOpen_eq, routerClose_eq, hfirst, hlast, List.append_assoc,
      List.cons_append, List.nil_append]
  rw [htext, Segment.opensStep_append_bracket_iff, or_iff_left hclose, Segment.opensStep_cons_iff,
    or_iff_right hopen, Segment.opensStep_append_iff hrouter]

theorem cut?_routerOpen_routerText (globalText rest : List Char) :
    cut? Tag.routerOpen (routerText globalText ++ rest) =
      some ([], ['\n'] ++ globalText ++ ['\n'] ++ Tag.routerClose ++ (['\n', '\n'] ++ rest)) := by
  rw [routerOpen_eq, cut?_eq_some_iff (by decide)]
  refine ⟨?_, by simp⟩
  rw [← routerOpen_eq, routerText]
  simp only [List.append_assoc, List.nil_append]

/-- The global text is found between the router tags. -/
theorem router?_routerText {globalText : List Char} (h : ¬ Tag.routerClose <:+: globalText)
    (rest : List Char) :
    router? (routerText globalText ++ rest) = some (['\n'] ++ globalText ++ ['\n']) := by
  have hclose : cut? Tag.routerClose
      (['\n'] ++ globalText ++ ['\n'] ++ Tag.routerClose ++ (['\n', '\n'] ++ rest)) =
        some (['\n'] ++ globalText ++ ['\n'], ['\n', '\n'] ++ rest) := by
    have hmark : '\n' ∉ Tag.routerClose := by decide
    rw [routerClose_eq, cut?_eq_some_iff (by decide), ← routerClose_eq,
      infix_padded_iff hmark (by decide)]
    exact ⟨rfl, h⟩
  simp only [router?, cut?_routerOpen_routerText, hclose, Option.bind_eq_bind, Option.bind_some]

theorem exists_router?_routerText (globalText rest : List Char) :
    ∃ inner, router? (routerText globalText ++ rest) = some inner := by
  have hclose : cut? Tag.routerClose (['\n'] ++ globalText ++ ['\n'] ++ Tag.routerClose ++
      (['\n', '\n'] ++ rest)) ≠ none := by
    -- the closing tag stands there, though an earlier one may be found
    rw [ne_eq, cut?_eq_none_iff, not_not]
    exact ⟨['\n'] ++ globalText ++ ['\n'], ['\n', '\n'] ++ rest, rfl⟩
  obtain ⟨⟨inner, after⟩, hinner⟩ := Option.ne_none_iff_exists'.mp hclose
  refine ⟨inner, ?_⟩
  simp only [router?, cut?_routerOpen_routerText, hinner, Option.bind_eq_bind, Option.bind_some]

/-- What is found between router tags holds no closing tag, and nothing is found without one. -/
theorem router?_eq_some {text inner : List Char} (h : router? text = some inner) :
    inner <:+: text ∧ Tag.routerClose <:+: text ∧ ¬ Tag.routerClose <:+: inner := by
  simp only [router?, Option.bind_eq_bind, Option.bind_eq_some_iff, Prod.exists, routerOpen_eq,
    routerClose_eq] at h
  obtain ⟨before, rest, hopen, found, after, hclose, hinner⟩ := h
  obtain rfl : found = inner := Option.some_inj.mp hinner
  obtain ⟨rfl, -⟩ := eq_of_cut?_eq_some hopen
  obtain ⟨rfl, hfirst⟩ := eq_of_cut?_eq_some hclose
  rw [← routerClose_eq, ← routerOpen_eq] at *
  -- the found text stands right between its two tags
  refine ⟨⟨before ++ Tag.routerOpen, Tag.routerClose ++ after, by simp⟩,
    ⟨before ++ Tag.routerOpen ++ found, after, by simp⟩, hfirst⟩

/-- The blocks of a document are found in their order. -/
theorem filterMap_block?_scan {front : List Char} (hfront : ¬ Segment.OpensStep front)
    {steps : List Directive} (hsteps : ∀ step ∈ steps, step.toBlock.WellFormed) (hne : steps ≠ []) :
    (Segment.scan (front ++ blocksText steps)).filterMap Segment.block? =
      steps.map Directive.toBlock := by
  induction steps generalizing front with
  | nil => exact absurd rfl hne
  | cons first rest ih =>
    -- after a block the scan goes on with the empty line before the next one
    have hfirst := hsteps first List.mem_cons_self
    cases rest with
    | nil =>
      rw [blocksText_singleton, ← List.append_nil (front ++ _),
        Segment.scan_append_block hfront hfirst]
      rfl
    | cons second rest =>
      have hblank : ¬ Segment.OpensStep ['\n', '\n'] := by decide
      have hrest := ih hblank (fun step hstep => hsteps step (List.mem_cons_of_mem first hstep))
        (List.cons_ne_nil second rest)
      rw [blocksText_cons_cons, ← List.append_assoc, Segment.scan_append_block hfront hfirst]
      simp only [List.filterMap_cons, Segment.block?, hrest, List.map_cons]

/-! ## Decoding what was encoded -/

theorem isTagged_of_routerOpen {text : List Char} (h : Tag.routerOpen <:+: text) :
    isTagged text = true := by
  rw [isTagged, (occurs_iff_isInfix _ _).mpr h, Bool.true_or]

theorem isTagged_of_opensStep {text : List Char} (h : Segment.OpensStep text) :
    isTagged text = true := by
  obtain ⟨c, -, htag⟩ := h
  rw [isTagged, Bool.or_eq_true, occurs_iff_isInfix, occurs_iff_isInfix]
  exact Or.inr ((List.prefix_append Tag.stepOpen [c]).isInfix.trans htag)

theorem routerOpen_isInfix (globalText rest : List Char) :
    Tag.routerOpen <:+: routerText globalText ++ rest := by
  refine ⟨[], ['\n'] ++ globalText ++ ['\n'] ++ Tag.routerClose ++ ['\n', '\n'] ++ rest, ?_⟩
  simp only [routerText, List.append_assoc, List.nil_append]

theorem filterMap_directive?_toBlock {steps : List Directive}
    (hnormal : ∀ step ∈ steps, step.Normal) (hreadable : ∀ step ∈ steps, step.Readable) :
    (steps.map Directive.toBlock).filterMap directive? = steps := by
  rw [List.filterMap_map]
  apply filterMap_eq_self
  intro step hstep
  exact Directive.directive?_toBlock (hnormal step hstep) (hreadable step hstep).modelId_unquoted

/-- Normal and readable directives in order are read back with their global text. -/
theorem decodeChars_routerText {globalText : List Char} (htrim : Chars.trim globalText = globalText)
    (hrouter : ¬ Tag.routerClose <:+: globalText)
    (hopen : ¬ Segment.OpensStep (globalText ++ ['\n'])) {steps : List Directive}
    (hne : steps ≠ []) (hnormal : ∀ step ∈ steps, step.Normal)
    (hreadable : ∀ step ∈ steps, step.Readable)
    (hsorted : steps.Pairwise fun a b => a.index ≤ b.index) :
    decodeChars (routerText globalText ++ blocksText steps) =
      { globalText := String.ofList globalText, steps } := by
  have htagged := isTagged_of_routerOpen (routerOpen_isInfix globalText (blocksText steps))
  have hblocks := filterMap_block?_scan ((opensStep_routerText_iff globalText).not.mpr hopen)
    (fun step hstep => (hreadable step hstep).wellFormed_toBlock) hne
  have hdirectives := filterMap_directive?_toBlock hnormal hreadable
  have hglobal : Chars.trim (['\n'] ++ globalText ++ ['\n']) = globalText := by
    rw [Chars.trim_newlines, htrim]
  rw [decodeChars, if_pos htagged]
  simp only [router?_routerText hrouter, Option.getD_some, hglobal, hblocks, hdirectives,
    Directive.sort_eq_self hsorted]

/-- Global text alone is read back, also when it has tags that do not make a block. -/
theorem decodeChars_globalText {globalText : List Char} (htrim : Chars.trim globalText = globalText)
    (hrouter : ¬ Tag.routerClose <:+: globalText)
    (hopen : ¬ Segment.OpensStep (globalText ++ ['\n'])) :
    decodeChars globalText = plain (String.ofList globalText) := by
  -- without a closing tag the router tags do not count, and without a block all text is outside
  have hnone : router? globalText = none := by
    by_contra hsome
    obtain ⟨inner, hinner⟩ := Option.ne_none_iff_exists'.mp hsome
    exact hrouter (router?_eq_some hinner).2.1
  have hscan : Segment.scan globalText = [.text globalText] :=
    Segment.scan_of_not_opensStep fun h =>
      hopen (h.mono (List.prefix_append globalText ['\n']).isInfix)
  have hsort : Directive.sort [] = [] := Directive.sort_eq_self List.Pairwise.nil
  rw [decodeChars]
  split
  · simp only [hnone, hscan, Option.getD_none, List.flatMap_singleton, List.filterMap_cons,
      List.filterMap_nil, Segment.outside, Segment.block?, htrim, hsort, plain]
  · rw [htrim]

/-! ## What is decoded from any text -/

structure Canonical (document : Document) : Prop where
  globalText_trimmed : Text.trim document.globalText = document.globalText
  steps_normal : ∀ step ∈ document.steps, step.Normal
  steps_readable : ∀ step ∈ document.steps, step.Readable
  steps_sorted : document.steps.Pairwise fun a b => a.index ≤ b.index

theorem canonical_plain_trim (text : List Char) :
    (plain (String.ofList (Chars.trim text))).Canonical where
  globalText_trimmed := by
    rw [← String.toList_inj]
    simp [plain]
  steps_normal := by simp [plain]
  steps_readable := by simp [plain]
  steps_sorted := List.Pairwise.nil

theorem wellFormed_of_mem_blocks {text : List Char} {block : Block}
    (h : block ∈ (Segment.scan text).filterMap Segment.block?) : block.WellFormed := by
  obtain ⟨segment, hsegment, hfound⟩ := List.mem_filterMap.mp h
  cases segment with
  | text chars => simp [Segment.block?] at hfound
  | block found =>
    obtain rfl : found = block := Option.some_inj.mp hfound
    exact Segment.wellFormed_of_mem_scan hsegment

/-- Whatever the text, the document it stands for is canonical. -/
theorem canonical_decode (raw : String) : (decode raw).Canonical := by
  rw [decode, decodeChars]
  split
  -- every directive was read off a block that the scan found
  · have hmem {step : Directive} (h : step ∈ Directive.sort
        (((Segment.scan raw.toList).filterMap Segment.block?).filterMap directive?)) :
        ∃ block, block.WellFormed ∧ directive? block = some step := by
      obtain ⟨block, hblock, hstep⟩ := List.mem_filterMap.mp (Directive.mem_sort.mp h)
      exact ⟨block, wellFormed_of_mem_blocks hblock, hstep⟩
    refine ⟨?_, fun step hstep => ?_, fun step hstep => ?_, Directive.pairwise_sort _⟩
    · rw [← String.toList_inj]
      simp
    · obtain ⟨block, -, hread⟩ := hmem hstep
      exact Directive.normal_of_directive?_eq_some hread
    · obtain ⟨block, hwell, hread⟩ := hmem hstep
      exact Directive.readable_of_directive?_eq_some hwell hread
  · exact canonical_plain_trim raw.toList

/-- The global text between router tags holds no closing tag. -/
theorem routerClose_not_isInfix_globalText {text inner : List Char}
    (htagged : isTagged text = true) (h : router? text = some inner) :
    ¬ Tag.routerClose <:+: (decodeChars text).globalText.toList := by
  have hglobal : (decodeChars text).globalText.toList = Chars.trim inner := by
    rw [decodeChars, if_pos htagged, h]
    exact String.toList_ofList
  rw [hglobal]
  intro hin
  exact (router?_eq_some h).2.2 (hin.trans (Chars.trim_isInfix inner))

/-! ## Round trips -/

/-- A sanitized document is decoded from its text exactly when its texts hold no mark that ends
them. -/
theorem decode_encode_eq_iff {document : Document}
    (hsteps : Directive.sanitize document.steps ≠ [])
    (hopen : ¬ Segment.OpensStep ((Text.trim document.globalText).toList ++ ['\n'])) :
    decode (encode document) =
        { globalText := Text.trim document.globalText
          steps := Directive.sanitize document.steps } ↔
      ¬ Tag.routerClose <:+: (Text.trim document.globalText).toList ∧
        ∀ step ∈ Directive.sanitize document.steps, step.Readable := by
  constructor
  · intro h
    -- no decoded text holds a mark, so what is decoded unchanged held none before
    have hreadable := (canonical_decode (encode document)).steps_readable
    obtain ⟨inner, hinner⟩ := exists_router?_routerText (Chars.trim document.globalText.toList)
      (blocksText (Directive.sanitize document.steps))
    have htagged := isTagged_of_routerOpen (routerOpen_isInfix
      (Chars.trim document.globalText.toList) (blocksText (Directive.sanitize document.steps)))
    have hrouter := routerClose_not_isInfix_globalText htagged hinner
    rw [← toList_encode hsteps, ← decode, h] at hrouter
    rw [h] at hreadable
    exact ⟨hrouter, hreadable⟩
  · rintro ⟨hrouter, hreadable⟩
    rw [Text.toList_trim] at hopen hrouter
    rw [decode, toList_encode hsteps]
    exact decodeChars_routerText (Chars.trim_trim _) hrouter hopen hsteps
      (fun step hstep => Directive.normal_of_mem_sanitize hstep) hreadable
      (Directive.pairwise_sort _)

def lookalike : Document :=
  { globalText := " Use [router] and [steps]. \n"
    steps := [⟨2, " GPT ", "b"⟩, ⟨0, "m", "x"⟩, ⟨1, "m", "[router]\n\n[stepper] a]"⟩,
      ⟨2, "o", "c"⟩] }

theorem decode_encode_lookalike :
    decode (encode lookalike) =
      { globalText := "Use [router] and [steps]."
        steps := [⟨1, "m", "[router]\n\n[stepper] a]"⟩, ⟨2, "gpt", "b"⟩, ⟨2, "o", "c"⟩] } := by
  have hkept : lookalike.steps.filterMap Directive.sanitized? =
      [⟨2, "gpt", "b"⟩, ⟨1, "m", "[router]\n\n[stepper] a]"⟩, ⟨2, "o", "c"⟩] := by decide +kernel
  have hsteps : Directive.sanitize lookalike.steps =
      [⟨1, "m", "[router]\n\n[stepper] a]"⟩, ⟨2, "gpt", "b"⟩, ⟨2, "o", "c"⟩] := by
    rw [Directive.sanitize, hkept, Directive.sort]
    simp [List.mergeSort]
  have hglobal : Text.trim lookalike.globalText = "Use [router] and [steps]." := by decide +kernel
  have hne : Directive.sanitize lookalike.steps ≠ [] := by
    rw [hsteps]
    exact List.cons_ne_nil _ _
  have hopen : ¬ Segment.OpensStep ((Text.trim lookalike.globalText).toList ++ ['\n']) := by
    rw [hglobal]
    decide +kernel
  rw [← hsteps, ← hglobal, decode_encode_eq_iff hne hopen, hsteps, hglobal]
  decide +kernel

/-- A canonical document is decoded from its text, also when it has no directives left. -/
theorem Canonical.decode_encode {document : Document} (h : document.Canonical)
    (hrouter : ¬ Tag.routerClose <:+: document.globalText.toList)
    (hopen : ¬ Segment.OpensStep (document.globalText.toList ++ ['\n'])) :
    decode (encode document) = document := by
  have hchars : Chars.trim document.globalText.toList = document.globalText.toList := by
    rw [← Text.toList_trim, h.globalText_trimmed]
  have hkept := Directive.sanitize_eq_self h.steps_normal h.steps_sorted
  by_cases hsteps : document.steps = []
  -- then the text is the global text alone, which may look tagged
  · rw [encode_of_sanitize_eq_nil (hkept.trans hsteps), h.globalText_trimmed, decode,
      decodeChars_globalText hchars hrouter hopen, plain, String.ofList_toList, ← hsteps]
  · have hne : Directive.sanitize document.steps ≠ [] := by rwa [hkept]
    rw [decode, toList_encode hne, hkept, hchars,
      decodeChars_routerText hchars hrouter hopen hsteps h.steps_normal h.steps_readable
        h.steps_sorted, String.ofList_toList]

/-- What was decoded from any text is decoded again from the text it is encoded as. -/
theorem decode_encode_decode {raw : String}
    (hrouter : ¬ Tag.routerClose <:+: (decode raw).globalText.toList)
    (hopen : ¬ Segment.OpensStep ((decode raw).globalText.toList ++ ['\n'])) :
    decode (encode (decode raw)) = decode raw :=
  (canonical_decode raw).decode_encode hrouter hopen

def handEdited : String :=
  "Hi [step model = \"GPT\" index=\"+07\"] b [/step] [step index=\"3\"]c[/step] [router] [steps"

theorem decode_encode_decode_handEdited :
    (decode handEdited).globalText = "Hi   [router] [steps" ∧
      decode (encode (decode handEdited)) = decode handEdited := by
  have hglobal : (decode handEdited).globalText = "Hi   [router] [steps" := by
    decide +kernel
  refine ⟨hglobal, decode_encode_decode ?_ ?_⟩
  · rw [hglobal]
    decide +kernel
  · rw [hglobal]
    decide +kernel

end Cattery.Document
