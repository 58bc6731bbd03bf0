import Cattery.Document.Compile
import Cattery.Proofs.RoundTrip

namespace Cattery

section Literals

variable {text : String} {chars : List Char} {c : Char}

/-- The characters of a literal are those it is written with; its bytes need not be decoded. -/
theorem not_mem_toList (h : text = String.ofList chars) (hc : c ∉ chars) : c ∉ text.toList := by
  rwa [h, String.toList_ofList]

theorem getLast?_toList (h : text = String.ofList chars) (hc : chars.getLast? = some c) :
    text.toList.getLast? = some c := by
  rwa [h, String.toList_ofList]

end Literals

namespace Step

/-! ## Bodies -/

def Kind.texts : Kind → List String
  | .model _ instructions => [instructions]
  | .visionHttp path _ _ instructions => path :: instructions.toList
  | .imageGen _ _ systemInstructions instructions => [systemInstructions, instructions]
  | .transform _ code => [code]

def texts (step : Step) : List String :=
  step.name :: step.kind.texts

def KeepsBlock (text : String) : Prop :=
  ¬ Tag.stepClose <:+: text.toList

instance (text : String) : Decidable (KeepsBlock text) :=
  inferInstanceAs (Decidable (¬ _))

theorem KeepsBlock.trim {text : String} (h : KeepsBlock text) : KeepsBlock (Text.trim text) := by
  intro hin
  rw [Text.toList_trim] at hin
  exact h (hin.trans (Chars.trim_isInfix text.toList))

theorem KeepsBlock.of_not_mem {text : String} (h : '[' ∉ text.toList) : KeepsBlock text := by
  intro hin
  exact h (hin.subset (by decide))

theorem KeepsBlock.append {label text : String} (hlabel : '[' ∉ label.toList)
    (h : KeepsBlock text) : KeepsBlock (label ++ text) := by
  rw [KeepsBlock, Segment.stepClose_eq] at h ⊢
  rwa [String.toList_append, cons_infix_append_iff hlabel]

theorem KeepsBlock.newline {first second : String} (hfirst : KeepsBlock first)
    (hsecond : KeepsBlock second) : KeepsBlock (first ++ "\n" ++ second) := by
  have hmark : '\n' ∉ Tag.stepClose := by decide
  have htext : (first ++ "\n" ++ second).toList = first.toList ++ '\n' :: second.toList := by
    simp
  rw [KeepsBlock, htext, infix_append_cons_iff hmark, not_or]
  exact ⟨hfirst, hsecond⟩

theorem keepsBlock_intercalate {lines : List String} (h : ∀ line ∈ lines, KeepsBlock line) :
    KeepsBlock ("\n".intercalate lines) := by
  have hmark : '\n' ∉ Tag.stepClose := by decide
  have hne : Tag.stepClose ≠ [] := by decide
  have hnewline : "\n".toList = ['\n'] := rfl
  rw [KeepsBlock, String.toList_intercalate, hnewline, infix_intercalate_iff hmark hne]
  rintro ⟨_, hline, hin⟩
  obtain ⟨line, hmem, rfl⟩ := List.mem_map.mp hline
  exact h line hmem hin

theorem keepsBlock_of_mem_textLine {text line : String} (h : KeepsBlock text)
    (hline : line ∈ textLine text) : KeepsBlock line := by
  rw [textLine, Text.nonBlank?] at hline
  split at hline
  · simp at hline
  · obtain rfl : line = Text.trim text := by simpa using hline
    exact h.trim

theorem keepsBlock_imageSource (source : ImageSource) :
    KeepsBlock ("IMAGE_SOURCE: " ++ source.name) := by
  cases source <;> exact KeepsBlock.of_not_mem (by decide +kernel)

theorem keepsBlock_fence (language : Language) {code : String} (h : KeepsBlock code) :
    KeepsBlock ("```" ++ language.name ++ "\n" ++ Text.trim code ++ "\n```") := by
  have hopen : KeepsBlock ("```" ++ language.name) := by
    cases language <;> exact KeepsBlock.of_not_mem (by decide +kernel)
  have hclose : KeepsBlock "```" := KeepsBlock.of_not_mem (by decide)
  -- the fence is three lines, of which the code is the second
  have hfence : "\n```" = "\n" ++ "```" := by decide +kernel
  rw [hfence, ← String.append_assoc]
  exact (hopen.newline h.trim).newline hclose

/-- The lines of a kind of step end no block when its texts do not. -/
theorem keepsBlock_of_mem_lines {kind : Kind} (h : ∀ text ∈ kind.texts, KeepsBlock text)
    {line : String} (hline : line ∈ kind.lines) : KeepsBlock line := by
  -- a line is one of the texts, after a label that has no bracket
  cases kind with
  | model modelId instructions =>
    exact keepsBlock_of_mem_textLine (h instructions (by simp [Kind.texts])) hline
  | visionHttp path source modelId instructions =>
    have hpath : KeepsBlock path := h path (by simp [Kind.texts])
    have hinstructions : KeepsBlock (instructions.getD "") := by
      cases instructions with
      | none => exact KeepsBlock.of_not_mem (by simp)
      | some text => exact h text (by simp [Kind.texts])
    rcases List.mem_append.mp hline with hline | hline
    · rcases List.mem_cons.mp hline with rfl | hline
      · exact hpath.trim.append (by decide +kernel)
      · obtain rfl := List.mem_singleton.mp hline
        exact keepsBlock_imageSource source
    · exact keepsBlock_of_mem_textLine hinstructions hline
  | imageGen source modelId systemInstructions instructions =>
    have hsystem : KeepsBlock systemInstructions := h _ (by simp [Kind.texts])
    have hinstructions : KeepsBlock instructions := h _ (by simp [Kind.texts])
    rcases List.mem_append.mp hline with hline | hline
    · rcases List.mem_append.mp hline with hline | hline
      · obtain rfl := List.mem_singleton.mp hline
        exact keepsBlock_imageSource source
      · obtain ⟨text, htext, rfl⟩ := List.mem_map.mp hline
        exact (keepsBlock_of_mem_textLine hsystem htext).append (by decide +kernel)
    · exact keepsBlock_of_mem_textLine hinstructions hline
  | transform language code =>
    have hcode : KeepsBlock code := h code (by simp [Kind.texts])
    rcases List.mem_cons.mp hline with rfl | hline
    · cases language <;> exact KeepsBlock.of_not_mem (by decide +kernel)
    · obtain rfl := List.mem_singleton.mp hline
      exact keepsBlock_fence language hcode

def lastLine (isLast : Bool) : String :=
  if isLast then finalLine else passThroughLine

theorem body_eq (step : Step) (isLast : Bool) :
    step.body isLast =
      "\n".intercalate (("KITTEN_NAME: " ++ Text.trim step.name) :: step.kind.lines) ++ "\n" ++
        lastLine isLast := by
  unfold body
  rw [String.intercalate_append_of_ne_nil (by simp) (List.cons_ne_nil _ _),
    String.intercalate_singleton]
  rfl

theorem keepsBlock_body {step : Step} (h : ∀ text ∈ step.texts, KeepsBlock text) (isLast : Bool) :
    KeepsBlock (step.body isLast) := by
  have hname : KeepsBlock step.name := h step.name List.mem_cons_self
  have hfinal : '[' ∉ finalLine.toList := not_mem_toList rfl (by decide +kernel)
  have hpass : '[' ∉ passThroughLine.toList := not_mem_toList rfl (by decide +kernel)
  have hlast : KeepsBlock (lastLine isLast) := by
    cases isLast with
    | false => exact KeepsBlock.of_not_mem hpass
    | true => exact KeepsBlock.of_not_mem hfinal
  rw [body_eq]
  refine KeepsBlock.newline (keepsBlock_intercalate fun line hline => ?_) hlast
  rcases List.mem_cons.mp hline with rfl | hline
  · exact hname.trim.append (by decide +kernel)
  · exact keepsBlock_of_mem_lines (fun text htext => h text (List.mem_cons_of_mem _ htext)) hline

theorem toList_body (step : Step) (isLast : Bool) :
    ∃ middle, (step.body isLast).toList =
      'K' :: (middle ++ ('\n' :: (lastLine isLast).toList)) := by
  have hlabel : "KITTEN_NAME: ".toList = 'K' :: "ITTEN_NAME: ".toList := rfl
  have hnewline : "\n".toList = ['\n'] := rfl
  refine ⟨"ITTEN_NAME: ".toList ++
    ("\n".intercalate (Text.trim step.name :: step.kind.lines)).toList, ?_⟩
  rw [body_eq, String.intercalate_cons_append]
  simp only [String.toList_append, hlabel, hnewline, List.append_assoc, List.cons_append,
    List.nil_append]

theorem trim_body (step : Step) (isLast : Bool) :
    Text.trim (step.body isLast) = step.body isLast := by
  obtain ⟨middle, hbody⟩ := toList_body step isLast
  have hfinal : finalLine.toList.getLast? = some '.' := getLast?_toList rfl (by decide +kernel)
  have hpass : passThroughLine.toList.getLast? = some '.' := getLast?_toList rfl (by decide +kernel)
  have hlast : (lastLine isLast).toList.getLast? = some '.' := by
    cases isLast with
    | false => exact hpass
    | true => exact hfinal
  rw [← String.toList_inj, Text.toList_trim, hbody]
  -- the first label starts and the last line ends the body, and neither is blank there
  apply Chars.trim_eq_self_of_ends (c := 'K') (d := '.')
  · rfl
  · rw [← List.cons_append, List.getLast?_append_of_ne_nil _ (List.cons_ne_nil _ _),
      List.getLast?_cons, hlast]
    rfl
  · decide
  · decide

theorem body_ne_empty (step : Step) (isLast : Bool) : step.body isLast ≠ "" := by
  obtain ⟨middle, hbody⟩ := toList_body step isLast
  intro hempty
  simp [hempty] at hbody

theorem not_isSuffix_lastLine :
    ¬ '\n' :: (lastLine false).toList <:+ '\n' :: (lastLine true).toList ∧
      ¬ '\n' :: (lastLine true).toList <:+ '\n' :: (lastLine false).toList := by
  have hfinal : finalLine = String.ofList _ := rfl
  have hpass : passThroughLine = String.ofList _ := rfl
  change ¬ '\n' :: passThroughLine.toList <:+ '\n' :: finalLine.toList ∧
    ¬ '\n' :: finalLine.toList <:+ '\n' :: passThroughLine.toList
  rw [hfinal, hpass, String.toList_ofList, String.toList_ofList]
  decide +kernel

/-- A body ends with the line of its place and not with the other one. -/
theorem isSuffix_body_iff (step : Step) (isLast place : Bool) :
    '\n' :: (lastLine place).toList <:+ (step.body isLast).toList ↔ place = isLast := by
  obtain ⟨middle, hbody⟩ := toList_body step isLast
  have hown : '\n' :: (lastLine isLast).toList <:+ (step.body isLast).toList := by
    rw [hbody, ← List.cons_append]
    exact List.suffix_append _ _
  constructor
  · intro hend
    by_contra hne
    -- of two ends of one body the shorter one would end the longer one
    have hends := List.suffix_or_suffix_of_suffix hend hown
    obtain ⟨hpass, hfinal⟩ := not_isSuffix_lastLine
    cases place with
    | false =>
      cases isLast with
      | false => exact hne rfl
      | true => exact hends.elim hpass hfinal
    | true =>
      cases isLast with
      | false => exact hends.elim hfinal hpass
      | true => exact hne rfl
  · rintro rfl
    exact hown

/-! ## Routes -/

theorem trim_fixedRoute (kind : Kind) : Text.trim kind.fixedRoute = kind.fixedRoute := by
  have htrimmed : ∀ route ∈ ["vision-http", "transform-js", "transform-py", ""],
      Text.trim route = route := by decide +kernel
  apply htrimmed
  rw [Kind.fixedRoute.eq_def]
  split <;> simp

theorem trim_of_nonBlank?_eq_some {text kept : String} (h : Text.nonBlank? text = some kept) :
    Text.trim kept = kept := by
  rw [Text.nonBlank?] at h
  split at h
  · simp at h
  · obtain rfl : Text.trim text = kept := Option.some_inj.mp h
    exact Text.trim_trim text

theorem trim_modelId?_getD (step : Step) :
    Text.trim (step.modelId?.getD step.kind.fixedRoute) =
      step.modelId?.getD step.kind.fixedRoute := by
  cases hmodel : step.modelId? with
  | none => exact trim_fixedRoute step.kind
  | some modelId =>
    rw [Option.getD_some]
    -- the kinds that name a model, and the one that names none
    rw [modelId?.eq_def] at hmodel
    split at hmodel
    · exact trim_of_nonBlank?_eq_some hmodel
    · exact trim_of_nonBlank?_eq_some hmodel
    · obtain ⟨named, -, hnamed⟩ := Option.bind_eq_some_iff.mp hmodel
      exact trim_of_nonBlank?_eq_some hnamed
    · simp at hmodel

/-- Trimming and lower case keep the route of a step. -/
theorem lowercase_trim_route (step : Step) :
    Text.lowercase (Text.trim step.route) = step.route := by
  have htrim := congrArg String.toList (trim_modelId?_getD step)
  rw [Text.toList_trim] at htrim
  rw [← String.toList_inj, route, Text.toList_lowercase, Text.toList_trim, Text.toList_lowercase,
    Chars.trim_lowercase htrim, Chars.lowercase_lowercase]

end Step

namespace Document

/-! ## Directives -/

theorem getElem?_directivesFrom (index : Nat) (steps : List Step) (i : Nat) :
    (directivesFrom index steps)[i]? = steps[i]?.map fun step =>
      ⟨UInt32.ofNat (index + i), step.route, step.body (i + 1 == steps.length)⟩ := by
  induction steps generalizing index i with
  | nil => rfl
  | cons step rest ih =>
    cases i with
    | zero =>
      have hlast : rest.isEmpty = (0 + 1 == rest.length + 1) := by
        cases rest <;> simp
      simp [directivesFrom, hlast]
    | succ i =>
      have hindex : index + 1 + i = index + (i + 1) := by omega
      simp [directivesFrom, ih, hindex]

theorem length_directivesFrom (index : Nat) (steps : List Step) :
    (directivesFrom index steps).length = steps.length := by
  induction steps generalizing index with
  | nil => rfl
  | cons step rest ih => simp [directivesFrom, ih]

section Steps

variable {steps : List Step}

/-- The directive at a place is that of the step there. -/
theorem getElem_directivesFrom {i : Nat} (h : i < (directivesFrom 1 steps).length) :
    ∃ step ∈ steps, (directivesFrom 1 steps)[i] =
      ⟨UInt32.ofNat (i + 1), step.route, step.body (i + 1 == steps.length)⟩ := by
  rw [length_directivesFrom] at h
  have hget := getElem?_directivesFrom 1 steps i
  rw [List.getElem?_eq_getElem h, Option.map_some, Nat.add_comm 1 i] at hget
  exact ⟨steps[i], List.getElem_mem h, (List.getElem?_eq_some_iff.mp hget).2⟩

theorem toNat_index (hlength : steps.length < UInt32.size) {i : Nat} (h : i < steps.length) :
    (UInt32.ofNat (i + 1)).toNat = i + 1 :=
  UInt32.toNat_ofNat_of_lt' (Nat.lt_of_le_of_lt h hlength)

theorem pairwise_directivesFrom (hlength : steps.length < UInt32.size) :
    (directivesFrom 1 steps).Pairwise fun a b => a.index ≤ b.index := by
  rw [List.pairwise_iff_getElem]
  intro i j hi hj hij
  obtain ⟨_, _, hfirst⟩ := getElem_directivesFrom hi
  obtain ⟨_, _, hsecond⟩ := getElem_directivesFrom hj
  rw [length_directivesFrom] at hi hj
  rw [hfirst, hsecond, UInt32.le_iff_toNat_le, toNat_index hlength hi, toNat_index hlength hj]
  omega

theorem normal_of_mem_directivesFrom (hlength : steps.length < UInt32.size)
    (hroute : ∀ step ∈ steps, step.route ≠ "") {directive : Directive}
    (h : directive ∈ directivesFrom 1 steps) : directive.Normal := by
  obtain ⟨i, hi, rfl⟩ := List.mem_iff_getElem.mp h
  obtain ⟨step, hstep, heq⟩ := getElem_directivesFrom hi
  rw [length_directivesFrom] at hi
  have hindex := toNat_index hlength hi
  rw [heq]
  refine ⟨fun hzero => ?_, step.lowercase_trim_route, hroute step hstep, step.trim_body _,
    step.body_ne_empty _⟩
  rw [show UInt32.ofNat (i + 1) = 0 from hzero] at hindex
  exact absurd hindex.symm (Nat.succ_ne_zero i)

theorem readable_of_mem_directivesFrom
    (hroute : ∀ step ∈ steps, '"' ∉ step.route.toList ∧ ']' ∉ step.route.toList)
    (htexts : ∀ step ∈ steps, ∀ text ∈ step.texts, Step.KeepsBlock text) {directive : Directive}
    (h : directive ∈ directivesFrom 1 steps) : directive.Readable := by
  obtain ⟨i, hi, rfl⟩ := List.mem_iff_getElem.mp h
  obtain ⟨step, hstep, heq⟩ := getElem_directivesFrom hi
  rw [heq]
  exact ⟨Step.keepsBlock_body (htexts step hstep) _, (hroute step hstep).1, (hroute step hstep).2⟩

end Steps

/-! ## The global text -/

structure Prose (text : String) : Prop where
  routerClose : ¬ Tag.routerClose <:+: text.toList
  opensStep : ¬ Segment.OpensStep text.toList
  stepOpen_end : ¬ Tag.stepOpen <:+ text.toList

instance (text : String) : Decidable (Prose text) :=
  decidable_of_iff (¬ Tag.routerClose <:+: text.toList ∧ ¬ Segment.OpensStep text.toList ∧
      ¬ Tag.stepOpen <:+ text.toList)
    ⟨fun h => ⟨h.1, h.2.1, h.2.2⟩, fun h => ⟨h.routerClose, h.opensStep, h.stepOpen_end⟩⟩

structure ProseLine (line : String) : Prop where
  routerClose : ¬ Tag.routerClose <:+: line.toList
  opensStep : ¬ Segment.OpensStep (line.toList ++ ['\n'])

theorem Prose.proseLine {text : String} (h : Prose text) : ProseLine text where
  routerClose := h.routerClose
  opensStep := by
    rw [Segment.opensStep_line_iff, not_or]
    exact ⟨h.opensStep, h.stepOpen_end⟩

theorem ProseLine.of_not_mem {line : String} (h : '[' ∉ line.toList) : ProseLine line where
  routerClose := fun hin => h (hin.subset (by decide))
  opensStep := Segment.not_opensStep_of_not_mem (by simpa using h)

theorem proseLine_intercalate {lines : List String} (hne : lines ≠ [])
    (h : ∀ line ∈ lines, ProseLine line) : ProseLine ("\n".intercalate lines) := by
  have hmark : '\n' ∉ Tag.routerClose := by decide
  have hclose : Tag.routerClose ≠ [] := by decide
  have hnewline : "\n".toList = ['\n'] := rfl
  constructor
  · rw [String.toList_intercalate, hnewline, infix_intercalate_iff hmark hclose]
    rintro ⟨_, hline, hin⟩
    obtain ⟨line, hmem, rfl⟩ := List.mem_map.mp hline
    exact (h line hmem).routerClose hin
  · rw [String.toList_intercalate, hnewline, Segment.opensStep_lines_iff (by simpa using hne)]
    rintro ⟨_, hline, hopen⟩
    obtain ⟨line, hmem, rfl⟩ := List.mem_map.mp hline
    exact (h line hmem).opensStep hopen

/-- The quotation marks around the name stand in no tag. -/
theorem proseLine_quoted {name : String} (hrouter : ¬ Tag.routerClose <:+: name.toList)
    (hopen : ¬ Segment.OpensStep name.toList) :
    ProseLine ("You are running the cat \"" ++ name ++ "\".") := by
  have hlabel : "You are running the cat \"".toList =
      "You are running the cat ".toList ++ ['"'] := rfl
  have hend : "\".".toList = ['"', '.'] := rfl
  have hline : ("You are running the cat \"" ++ name ++ "\".").toList =
      "You are running the cat ".toList ++ '"' :: (name.toList ++ '"' :: ['.']) := by
    simp only [String.toList_append, hlabel, hend, List.append_assoc, List.cons_append,
      List.nil_append]
  have hbracket : '[' ∉ "You are running the cat ".toList := not_mem_toList rfl (by decide +kernel)
  constructor
  -- a quotation mark stands in neither tag, so that a tag stands on one side of it
  · have hmark : '"' ∉ Tag.routerClose := by decide
    rw [hline, infix_append_cons_iff hmark, infix_append_cons_iff hmark, not_or, not_or]
    exact ⟨fun hin => hbracket (hin.subset (by decide)), hrouter, by decide⟩
  · have hname : '"' ∉ Tag.stepOpen := by decide
    rw [hline, List.append_assoc, List.cons_append, List.append_assoc, List.cons_append,
      Segment.opensStep_append_cons_iff hname (by decide),
      Segment.opensStep_append_cons_iff hname (by decide), not_or, not_or]
    exact ⟨Segment.not_opensStep_of_not_mem hbracket, hopen, by decide⟩

theorem proseLine_name {name : String} (h : Prose name) :
    ProseLine
      ("You are running the cat \"" ++ (Text.nonBlank? name).getD "Untitled cat" ++ "\".") := by
  rw [Text.nonBlank?]
  split
  · have hfree : '[' ∉ "Untitled cat".toList := not_mem_toList rfl (by decide +kernel)
    exact proseLine_quoted (fun hin => hfree (hin.subset (by decide)))
      (Segment.not_opensStep_of_not_mem hfree)
  · have hin : (Text.trim name).toList <:+: name.toList := by
      rw [Text.toList_trim]
      exact Chars.trim_isInfix name.toList
    exact proseLine_quoted (fun hmark => h.routerClose (hmark.trans hin))
      (fun hopen => h.opensStep (hopen.mono hin))

/-- The global text of a cat ends itself nowhere and opens no step. -/
theorem proseLine_globalDirective {name description : String} (hname : Prose name)
    (hdescription : Prose description) : ProseLine (globalDirective name description) := by
  unfold globalDirective
  refine proseLine_intercalate (by simp) fun line hline => ?_
  rcases List.mem_append.mp hline with hline | hline
  · rcases List.mem_append.mp hline with hline | hline
    · obtain rfl := List.mem_singleton.mp hline
      exact proseLine_name hname
    · split at hline
      · simp at hline
      · obtain rfl := List.mem_singleton.mp hline
        exact hdescription.proseLine
  · rcases List.mem_cons.mp hline with rfl | hline
    · refine ProseLine.of_not_mem ?_
      rw [String.toList_append, List.mem_append, not_or]
      exact ⟨not_mem_toList rfl (by decide +kernel), not_mem_toList rfl (by decide +kernel)⟩
    · obtain rfl := List.mem_singleton.mp hline
      exact ProseLine.of_not_mem (not_mem_toList rfl (by decide +kernel))

theorem trim_globalDirective (name description : String) :
    Text.trim (globalDirective name description) = globalDirective name description := by
  have hlabel : "You are running the cat \"".toList =
      'Y' :: "ou are running the cat \"".toList := rfl
  rw [← String.toList_inj, Text.toList_trim]
  unfold globalDirective
  rw [String.intercalate_append_of_ne_nil (by simp) (List.cons_ne_nil _ _), String.toList_append]
  apply Chars.trim_eq_self_of_ends (c := 'Y') (d := '.')
  · rw [List.singleton_append, String.append_assoc, String.intercalate_cons_append,
      String.append_assoc, String.toList_append, hlabel]
    rfl
  -- the last two lines are always there, so that the text ends with a full stop
  · have hlast {first second : String} (h : second.toList.getLast? = some '.') :
        ("\n".intercalate [first, second]).toList.getLast? = some '.' := by
      rw [String.intercalate_cons_cons, String.intercalate_singleton, String.toList_append,
        List.getLast?_append, h]
      rfl
    rw [List.getLast?_append, hlast (getLast?_toList rfl (by decide +kernel))]
    rfl
  · decide
  · decide

/-! ## Compiling and decoding -/

/-- The router reads the global text and, in order, the route and body of every step; the body of
the last step ends with the final line and every other one with the line that passes on. -/
theorem decode_compile {name description : String} {steps : List Step}
    (hname : Prose name) (hdescription : Prose description) (hlength : steps.length < UInt32.size)
    (hroute : ∀ step ∈ steps,
      step.route ≠ "" ∧ '"' ∉ step.route.toList ∧ ']' ∉ step.route.toList)
    (htexts : ∀ step ∈ steps, ∀ text ∈ step.texts, Step.KeepsBlock text) :
    ∃ directives, decode (compile name description steps).instructions =
        { globalText := globalDirective name description, steps := directives } ∧
      directives.length = steps.length ∧
      ∀ i step, steps[i]? = some step → ∃ directive, directives[i]? = some directive ∧
        directive.index.toNat = i + 1 ∧ directive.modelId = step.route ∧
        directive.instructions = step.body (i + 1 == steps.length) ∧
        (("\n" ++ Step.finalLine).toList <:+ directive.instructions.toList ↔
          i + 1 = steps.length) ∧
        (("\n" ++ Step.passThroughLine).toList <:+ directive.instructions.toList ↔
          i + 1 ≠ steps.length) := by
  have hcanonical : (ofSteps name description steps).Canonical :=
    { globalText_trimmed := trim_globalDirective name description
      steps_normal := fun directive h =>
        normal_of_mem_directivesFrom hlength (fun step hstep => (hroute step hstep).1) h
      steps_readable := fun directive h =>
        readable_of_mem_directivesFrom (fun step hstep => (hroute step hstep).2) htexts h
      steps_sorted := pairwise_directivesFrom hlength }
  have hglobal := proseLine_globalDirective hname hdescription
  have hdecode : decode (compile name description steps).instructions =
      ofSteps name description steps :=
    hcanonical.decode_encode hglobal.routerClose hglobal.opensStep
  refine ⟨directivesFrom 1 steps, hdecode, length_directivesFrom 1 steps, fun i step hstep => ?_⟩
  -- the directive at a place is the one that was made for the step there
  have hi : i < steps.length := (List.getElem?_eq_some_iff.mp hstep).1
  have hget := getElem?_directivesFrom 1 steps i
  rw [hstep, Option.map_some, Nat.add_comm 1 i] at hget
  have hfinal : ("\n" ++ Step.finalLine).toList = '\n' :: (Step.lastLine true).toList :=
    String.toList_append
  have hpass : ("\n" ++ Step.passThroughLine).toList = '\n' :: (Step.lastLine false).toList :=
    String.toList_append
  refine ⟨_, hget, toNat_index hlength hi, rfl, rfl, ?_, ?_⟩
  · rw [hfinal, Step.isSuffix_body_iff, eq_comm, beq_iff_eq]
  · rw [hpass, Step.isSuffix_body_iff, eq_comm, beq_eq_false_iff_ne]

def oneOfEach : List Step :=
  [⟨"a", " Draft [step ", .model " GPT " "Write. [router]"⟩,
    ⟨"b", "", .visionHttp "/boxes" .request none (some "[/router]")⟩,
    ⟨"c", "Draw", .imageGen .previousOverlay "Banana" "" "[steps]"⟩,
    ⟨"d", "Cut", .transform .js "return input[0]"⟩,
    ⟨"e", "Sum", .transform .py "return [step for step in input]"⟩]

theorem decode_compile_oneOfEach :
    ∃ directives, decode (compile "Cat [steps]" "" oneOfEach).instructions =
        { globalText := globalDirective "Cat [steps]" "", steps := directives } ∧
      directives.length = 5 := by
  obtain ⟨directives, hdecode, hlength, -⟩ :=
    @decode_compile "Cat [steps]" "" oneOfEach (by decide +kernel) (by decide +kernel) (by decide)
      (by decide +kernel) (by decide +kernel)
  exact ⟨directives, hdecode, hlength⟩

end Document

end Cattery
