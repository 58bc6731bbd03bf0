import Cattery.Proofs.Transcript
import Cattery.Proofs.Verdicts

namespace Cattery

open Cattery.Tree

/-! ## The text inside the event -/

def Mark.isPlain (c : Char) : Bool :=
  c != '"' && c != '\\' && !decide (c.toNat < 0x20)

theorem Mark.written_plain {text : List Char} (h : text.all Mark.isPlain = true) :
    Written (text.map .char) text := by
  induction text with
  | nil => exact .nil
  | cons c text ih =>
    rw [List.all_cons, Bool.and_eq_true] at h
    have hc : (c ≠ '"' ∧ c ≠ '\\') ∧ ¬ c.toNat < 0x20 := by simpa [Mark.isPlain] using h.1
    exact .plain hc.1.1 hc.1.2 hc.2 (ih h.2)

theorem Mark.text?_plain (text : List Char) : Mark.text? (text.map .char) = some (String.ofList text) := by
  have hspell : Mark.spell? (text.map .char) = some text := by
    induction text with
    | nil => rfl
    | cons c text ih => rw [List.map_cons, Mark.spell?, ih, Option.map_some]
  rw [Mark.text?, hspell, Option.map_some]

def enveloped (text : String) : String :=
  "\x7b\"type\":\"complete\",\"data\":" ++ text ++ "\x7d"

theorem toList_between {first last : String} {front back : List Char} (hfirst : first.toList = front)
    (hlast : last.toList = back) (text : String) :
    (first ++ text ++ last).toList = front ++ (text.toList ++ back) := by
  rw [String.toList_append, String.toList_append, hfirst, hlast, List.append_assoc]

theorem toList_enveloped (text : String) :
    (enveloped text).toList =
      '\x7b' :: "\"type\":\"complete\",\"data\":".toList ++ (text.toList ++ ['\x7d']) := by
  have hopen : "\x7b\"type\":\"complete\",\"data\":".toList =
      '\x7b' :: "\"type\":\"complete\",\"data\":".toList := by
    decide +kernel
  have hclose : "\x7d".toList = ['\x7d'] := by decide +kernel
  exact toList_between hopen hclose text

def Tree.enveloped (tree : Tree) : Tree :=
  .object [("type".toList.map .char, .string ("complete".toList.map .char)),
    ("data".toList.map .char, tree)]

theorem written_enveloped {tree : Tree} {text : String} (h : Padded tree text.toList) :
    Written tree.enveloped (Cattery.enveloped text).toList := by
  have hnil : Space [] := List.forall_mem_nil _
  have htype : Mark.Written ("type".toList.map .char) "type".toList :=
    Mark.written_plain (by decide +kernel)
  have hcomplete : Mark.Written ("complete".toList.map .char) "complete".toList :=
    Mark.written_plain (by decide +kernel)
  have hdata : Mark.Written ("data".toList.map .char) "data".toList :=
    Mark.written_plain (by decide +kernel)
  have hfirst := WrittenMember.member hnil htype hnil (.pad hnil (.string hcomplete) hnil)
  have hsecond := WrittenMember.member hnil hdata hnil h
  have hobject := Written.object (.more hfirst (.last hsecond))
  have htext : '\x7b' :: ([] ++ '"' :: ("type".toList ++ '"' :: ([] ++ ':' ::
      ([] ++ (('"' :: ("complete".toList ++ ['"'])) ++ [])))) ++
      ',' :: ([] ++ '"' :: ("data".toList ++ '"' :: ([] ++ ':' :: text.toList))) ++ ['\x7d']) =
      '\x7b' :: "\"type\":\"complete\",\"data\":".toList ++ (text.toList ++ ['\x7d']) := rfl
  rw [toList_enveloped, ← htext]
  exact hobject

theorem value?_enveloped {tree : Tree} {value : Json} (hdepth : tree.depth ≤ 126)
    (h : tree.value? deepest = some value) :
    tree.enveloped.value? deepest =
      some (.object [("data", value), ("type", .string "complete")]) := by
  -- the payload has one level less to itself
  have hinner : tree.value? 126 = some value := by
    rw [← h]
    exact value?_eq_of_depth_le tree hdepth (Nat.le_trans hdepth (by decide))
  have hstring : (Tree.string ("complete".toList.map .char)).value? 126 =
      some (.string "complete") := by
    rw [value?, Mark.text?_plain]
    rfl
  have hmembers : memberValues? 126 [("type".toList.map .char, .string ("complete".toList.map .char)),
      ("data".toList.map .char, tree)] =
        some [("type", .string "complete"), ("data", value)] := by
    rw [memberValues?, memberValues?, memberValues?, Mark.text?_plain, Mark.text?_plain, hstring,
      hinner, String.ofList_toList, String.ofList_toList]
  rw [Tree.enveloped, value?, if_neg (by decide)]
  have hlimit : deepest - 1 = 126 := rfl
  rw [hlimit, hmembers]
  rfl

/-- Text that can stand as the payload of an event: it has no line break, is nested no deeper than
126 and has a value that is not null. -/
structure IsPayload (text : String) (value : Json) : Prop where
  newline_free : '\n' ∉ text.toList
  nested : ∃ tree, Padded tree text.toList ∧ tree.depth ≤ 126
  parse : Json.parse? text = some value
  ne_null : value ≠ .null

def eventLine (text : String) : String :=
  "data: " ++ enveloped text

section Payload

variable {text : String} {value : Json}

theorem toList_eventLine (text : String) :
    (eventLine text).toList = "data:".toList ++ (' ' :: (enveloped text).toList) := by
  have hmark : "data: ".toList = "data:".toList ++ [' '] := by decide +kernel
  rw [eventLine, String.toList_append, hmark, List.append_assoc, List.singleton_append]

theorem getLast?_enveloped (text : String) : (enveloped text).toList.getLast? = some '\x7d' := by
  rw [toList_enveloped, ← List.append_assoc]
  exact List.getLast?_concat

theorem IsPayload.parseChars?_enveloped (h : IsPayload text value) :
    Json.parseChars? ((enveloped text).toList) =
      some (.object [("data", value), ("type", .string "complete")]) := by
  obtain ⟨tree, hpadded, hdepth⟩ := h.nested
  have hparse := h.parse
  rw [Json.parse?, Json.parseChars?, ofChars?_eq_some_iff.mpr hpadded, Option.bind_some] at hparse
  have hnil : Space [] := List.forall_mem_nil _
  have hwhole : Padded tree.enveloped ([] ++ ((enveloped text).toList ++ [])) :=
    .pad hnil (written_enveloped hpadded) hnil
  rw [List.nil_append, List.append_nil] at hwhole
  rw [Json.parseChars?, ofChars?_eq_some_iff.mpr hwhole, Option.bind_some,
    value?_enveloped hdepth hparse]

theorem ofJson?_completion (hne : value ≠ .null) :
    Event.ofJson? (.object [("data", value), ("type", .string "complete")]) =
      some (.complete value) := by
  cases value with
  | null => exact absurd rfl hne
  | _ => rfl

/-- The line stands for the completion with the payload that its text says. -/
theorem IsPayload.ofLine?_eventLine (h : IsPayload text value) :
    Event.ofLine? (eventLine text) = some (.complete value) := by
  have hline : Chars.trim (eventLine text).toList = (eventLine text).toList := by
    apply Chars.trim_eq_self_of_ends (c := 'd') (d := '\x7d') _ _ rfl rfl
    · rw [toList_eventLine]
      rfl
    · rw [toList_eventLine, List.getLast?_append_of_ne_nil _ (List.cons_ne_nil _ _),
        List.getLast?_cons, getLast?_enveloped]
      rfl
  have hpayload : Chars.trim (' ' :: (enveloped text).toList) = (enveloped text).toList := by
    have hpad : Chars.trim ([' '] ++ (enveloped text).toList ++ []) =
        Chars.trim ((enveloped text).toList) :=
      Chars.trim_pad (List.forall_mem_singleton.mpr rfl) (List.forall_mem_nil _) _
    rw [List.append_nil, List.singleton_append] at hpad
    rw [hpad]
    have hhead : (enveloped text).toList.head? = some '\x7b' := by
      rw [toList_enveloped, List.cons_append, List.head?_cons]
    exact Chars.trim_eq_self_of_ends hhead (getLast?_enveloped text) rfl rfl
  rw [Event.ofLine?, hline, (isPrefixOf?_eq_some_iff _ _ _).mpr (toList_eventLine text)]
  simp only [hpayload, h.parseChars?_enveloped, Option.bind_some, ofJson?_completion h.ne_null]

theorem IsPayload.newline_not_mem_eventLine (h : IsPayload text value) :
    LineBuffer.newline ∉ Utf8.encode (eventLine text) := by
  apply Transcript.newline_not_mem_encode
  have hmark : '\n' ∉ "data:".toList := by decide +kernel
  have hopen : '\n' ∉ "\"type\":\"complete\",\"data\":".toList := by decide +kernel
  rw [toList_eventLine, toList_enveloped]
  simp only [List.mem_append, List.mem_cons, not_or]
  exact ⟨hmark, by decide, ⟨by decide, hopen⟩, h.newline_free, by decide, List.not_mem_nil⟩

end Payload

/-! ## The event inside the stream -/

/-- The body of a stream that says nothing but progress on some lines and then sends a completion,
with or without a newline at its end. -/
structure Carries (lines : List (List UInt8)) (text : String) (body : List UInt8) : Prop where
  lines_free : ∀ line ∈ lines, LineBuffer.newline ∉ line
  quiet : ∀ line ∈ lines, ∀ event, Event.ofLine? (Utf8.decodeLossy line) = some event →
    ∃ update, event = .progress update
  body_eq : ∃ ending, (ending = [] ∨ ending = [LineBuffer.newline]) ∧
    body = lines.flatMap (· ++ [LineBuffer.newline]) ++ (Utf8.encode (eventLine text) ++ ending)

def updatesOf (lines : List (List UInt8)) : List Progress :=
  (Event.ofLines (lines.map Utf8.decodeLossy)).filterMap Event.progress?

section Streamed

variable {lines : List (List UInt8)} {text : String} {value : Json} {body : List UInt8}

theorem Carries.exists_lines (h : Carries lines text body) (hpayload : IsPayload text value) :
    ∃ whole tail, LineBuffer.Lines body whole tail ∧
      whole.map Utf8.decodeLossy ++ (⟨tail⟩ : LineBuffer).tail?.toList =
        lines.map Utf8.decodeLossy ++ [eventLine text] := by
  obtain ⟨ending, hending, rfl⟩ := h.body_eq
  have hline := hpayload.newline_not_mem_eventLine
  rcases hending with rfl | rfl
  · -- without a newline the event stands in the tail, which is not blank
    have hblank : Text.isBlank (eventLine text) = false := by
      rw [← Bool.not_eq_true]
      intro hblank
      have hnone := Event.ofLine?_of_isBlank hblank
      rw [hpayload.ofLine?_eventLine] at hnone
      cases hnone
    have htail : (⟨Utf8.encode (eventLine text)⟩ : LineBuffer).tail? = some (eventLine text) :=
      (LineBuffer.tail?_eq_some_iff _ _).mpr ⟨(Utf8.decodeLossy_encode _).symm, hblank⟩
    refine ⟨lines, Utf8.encode (eventLine text), ⟨by simp, h.lines_free, hline⟩, ?_⟩
    rw [htail]
    rfl
  · refine ⟨lines ++ [Utf8.encode (eventLine text)], [], ⟨by simp, ?_, List.not_mem_nil⟩, ?_⟩
    · intro line hmem
      rcases List.mem_append.mp hmem with hmem | hmem
      · exact h.lines_free line hmem
      · rw [List.mem_singleton.mp hmem]
        exact hline
    · have htail : (⟨[]⟩ : LineBuffer).tail? = none := rfl
      rw [htail, List.map_append, List.map_singleton, Utf8.decodeLossy_encode]
      exact List.append_nil _

theorem Carries.events_quiet (h : Carries lines text body) :
    ∀ event ∈ Event.ofLines (lines.map Utf8.decodeLossy), ∃ update, event = .progress update := by
  intro event hevent
  obtain ⟨line, hline, hsome⟩ := List.mem_filterMap.mp hevent
  obtain ⟨bytes, hbytes, rfl⟩ := List.mem_map.mp hline
  exact h.quiet bytes hbytes event hsome

/-- The stream comes to the payload, and reports the progress of the lines before it. -/
theorem Carries.readStream_eq (h : Carries lines text body) (hpayload : IsPayload text value)
    {pieces : List (List UInt8)} (hpieces : pieces.flatten = body) :
    Run.readStream pieces true = (.ok value, updatesOf lines) := by
  obtain ⟨whole, tail, hlines, heq⟩ := h.exists_lines hpayload
  have hlast : Event.ofLines [eventLine text] = [.complete value] := by
    rw [Event.ofLines, List.filterMap_cons, hpayload.ofLine?_eventLine]
    rfl
  have hevents : Event.ofLines (lines.map Utf8.decodeLossy ++ [eventLine text]) =
      Event.ofLines (lines.map Utf8.decodeLossy) ++ [.complete value] := by
    rw [← hlast]
    exact List.filterMap_append
  have hfailures : (Event.ofLines (lines.map Utf8.decodeLossy)).filterMap Event.failure? = [] := by
    apply List.filterMap_eq_nil_iff.mpr
    intro event hevent
    obtain ⟨update, rfl⟩ := h.events_quiet event hevent
    rfl
  rw [Run.readStream_true hlines hpieces, heq, Stream.verdict, hevents, List.filterMap_append,
    List.filterMap_append, List.filterMap_append, hfailures]
  have hcompletion : ([.complete value] : List Event).filterMap Event.completion? = [value] := rfl
  rw [hcompletion, List.getLast?_concat]
  simp [Stream.finish, Event.failure?, Event.progress?, updatesOf, Except.mapError]

end Streamed

/-! ## Both ways of answering -/

namespace Run

open Program

structure SaySame (lines : List (List UInt8)) (text : String) (plain streamed : Http.Reply) :
    Prop where
  plain_status : 200 ≤ plain.status ∧ plain.status < 300
  plain_complete : plain.complete = true
  plain_type : ¬ NamesStream plain
  plain_body : plain.body = Utf8.encode text
  streamed_status : 200 ≤ streamed.status ∧ streamed.status < 300
  streamed_complete : streamed.complete = true
  streamed_type : NamesStream streamed
  streamed_body : Carries lines text streamed.body

section Replies

variable {endpoint : Endpoint} {token : Credential} {slug : String} {input : Input}
  {options : Options} {lines : List (List UInt8)} {text : String} {value : Json}
  {plain streamed : Http.Reply}

theorem ofReply_plain (h : SaySame lines text plain streamed) (hpayload : IsPayload text value) :
    Report.ofReply options (some plain) = ⟨.ok (Output.ofCompletion value), []⟩ := by
  have hstream : ¬ (NamesStream plain ∧ options.progress = true) := fun hboth => h.plain_type hboth.1
  rw [Report.ofReply, (conclude_of_body h.plain_status hstream).2 h.plain_complete, h.plain_body,
    Utf8.decodeLossy_encode, hpayload.parse]
  rfl

theorem ofReply_streamed (h : SaySame lines text plain streamed) (hpayload : IsPayload text value)
    (hprogress : options.progress = true) :
    Report.ofReply options (some streamed) =
      ⟨.ok (Output.ofCompletion value), updatesOf lines⟩ := by
  rw [Report.ofReply, conclude_of_stream h.streamed_status ⟨h.streamed_type, hprogress⟩,
    h.streamed_complete, h.streamed_body.readStream_eq hpayload List.flatten_singleton]
  rfl

/-- A run that asks for progress gives the same output for both replies, and for the stream it also
gives the progress of the lines before the completion. The stream may be cut anywhere. -/
theorem runs_plain_streamed (hadmitted : Admitted token slug input)
    (hprogress : options.progress = true) (h : SaySame lines text plain streamed)
    (hpayload : IsPayload text value) :
    (∀ request, (draftOf endpoint token slug input options).request? = some request →
      (∀ report, Runs (execute endpoint token slug input options) [⟨.send request, some plain⟩]
        report ↔ report = ⟨.ok (Output.ofCompletion value), []⟩) ∧
      ∀ report, Runs (execute endpoint token slug input options) [⟨.send request, some streamed⟩]
        report ↔ report = ⟨.ok (Output.ofCompletion value), updatesOf lines⟩) ∧
    ∀ pieces, pieces.flatten = streamed.body →
      (readStream pieces true).1.map Output.ofCompletion = .ok (Output.ofCompletion value) ∧
        (readStream pieces true).2 = updatesOf lines := by
  constructor
  · intro request hrequest
    constructor
    · intro report
      rw [runs_send_iff hadmitted hrequest, ofReply_plain h hpayload]
    · intro report
      rw [runs_send_iff hadmitted hrequest, ofReply_streamed h hpayload hprogress]
  · intro pieces hpieces
    rw [h.streamed_body.readStream_eq hpayload hpieces]
    exact ⟨rfl, rfl⟩

end Replies

def doneText : String :=
  " \x7b\"n\":1e2,\"choices\":[\x7b\"message\":\x7b\"content\":\"done\"\x7d\x7d],\"n\":[] \x7d"

def doneLines : List (List UInt8) :=
  [Utf8.encode "data: \x7b\"type\":\"progress\",\"step\":1\x7d\r", Utf8.encode ": ping", []]

def donePlain : Http.Reply where
  status := 200
  headers := [("Content-Type", "application/json")]
  body := Utf8.encode doneText
  complete := true

def doneStreamed : Http.Reply where
  status := 200
  headers := [("content-type", "Text/Event-Stream")]
  body := doneLines.flatMap (· ++ [LineBuffer.newline]) ++ Utf8.encode (eventLine doneText)
  complete := true

theorem isPayload_doneText : IsPayload doneText
    (.object [("choices", .array [.object [("message", .object [("content", .string "done")])]]),
      ("n", .array [])]) where
  newline_free := by decide +kernel
  nested := by
    have htree : ((ofChars? doneText.toList).any fun tree => tree.depth ≤ 126) = true := by
      decide +kernel
    obtain ⟨tree, htree, hdepth⟩ := (Option.any_eq_true _ _).mp htree
    exact ⟨tree, ofChars?_eq_some_iff.mp htree, of_decide_eq_true hdepth⟩
  parse := by decide +kernel
  ne_null := by decide

theorem saySame_done : SaySame doneLines doneText donePlain doneStreamed where
  plain_status := by decide
  plain_complete := rfl
  plain_type := isEventStream_iff.not.mp (by decide +kernel)
  plain_body := rfl
  streamed_status := by decide
  streamed_complete := rfl
  streamed_type := isEventStream_iff.mp (by decide +kernel)
  streamed_body := by
    refine ⟨by decide +kernel, ?_, [], Or.inl rfl, by rw [List.append_nil]; rfl⟩
    -- the first line is progress, the others are no events
    have hupdate : (doneLines.map fun line => Event.ofLine? (Utf8.decodeLossy line)) =
        [some (.progress ⟨1, 0, "", ""⟩), none, none] := by decide +kernel
    intro line hline event hevent
    have hmem : some event ∈ doneLines.map fun line => Event.ofLine? (Utf8.decodeLossy line) :=
      List.mem_map.mpr ⟨line, hline, hevent⟩
    rw [hupdate] at hmem
    simp only [List.mem_cons, Option.some.injEq, reduceCtorEq, List.not_mem_nil, or_self,
      or_false] at hmem
    exact ⟨_, hmem⟩

theorem runs_plain_streamed_done :
    ∃ request,
      Runs (execute nearby (.given "t") " my-cat " greeting ⟨false, false, true⟩)
        [⟨.send request, some donePlain⟩] ⟨.ok ⟨"done", none⟩, []⟩ ∧
      Runs (execute nearby (.given "t") " my-cat " greeting ⟨false, false, true⟩)
        [⟨.send request, some doneStreamed⟩] ⟨.ok ⟨"done", none⟩, [⟨1, 0, "", ""⟩]⟩ := by
  obtain ⟨request, hrequest⟩ := exists_request?_greeting
  obtain ⟨hplain, hstreamed⟩ := (@runs_plain_streamed nearby _ _ _ ⟨false, false, true⟩ _ _ _ _ _
    admitted_greeting rfl saySame_done isPayload_doneText).1 request hrequest
  have houtput : Output.ofCompletion (.object [("choices",
      .array [.object [("message", .object [("content", .string "done")])]]), ("n", .array [])]) =
        ⟨"done", none⟩ := by decide +kernel
  have hupdates : updatesOf doneLines = [⟨1, 0, "", ""⟩] := by decide +kernel
  rw [houtput] at hplain hstreamed
  rw [hupdates] at hstreamed
  exact ⟨request, (hplain _).mpr rfl, (hstreamed _).mpr rfl⟩

end Run

end Cattery
