import Cattery.Proofs.JsonText
import Cattery.Proofs.Search
import Cattery.Proofs.Streams
import Cattery.Proofs.Trim
import Cattery.Proofs.Utf8

namespace Cattery

namespace Event

/-! ## Events as JSON objects -/

def members : Event → List (String × Json)
  | .progress update =>
    [("type", .string "progress"), ("step", .ofUInt32 update.step),
      ("totalSteps", .ofUInt32 update.totalSteps), ("stepName", .string update.stepName),
      ("message", .string update.message)]
  | .complete payload => [("type", .string "complete"), ("data", payload)]
  | .failure message => [("type", .string "error"), ("message", .string message)]

/-- An event that can be sent: a payload is not null, not nested too deep, free of doubles and in
the order that values have; a message is trimmed and not empty. -/
def Sendable : Event → Prop
  | .progress _ => True
  | .complete payload =>
    payload ≠ .null ∧ payload.depth ≤ 126 ∧ payload.all Json.notDouble = true ∧
      payload.all Json.ascending = true
  | .failure message => Text.trim message = message ∧ message ≠ ""

instance : DecidablePred Sendable
  | .progress _ => inferInstanceAs (Decidable True)
  | .complete payload =>
    inferInstanceAs (Decidable (payload ≠ .null ∧ payload.depth ≤ 126 ∧
      payload.all Json.notDouble = true ∧ payload.all Json.ascending = true))
  | .failure message => inferInstanceAs (Decidable (Text.trim message = message ∧ message ≠ ""))

theorem members_ne_nil (event : Event) : event.members ≠ [] := by
  cases event <;> simp [members]

theorem nodup_keys_members (event : Event) : (event.members.map Prod.fst).Nodup := by
  cases event <;> simp [members]

structure IsMember (value : Json) : Prop where
  depth_le : value.depth ≤ 126
  no_double : value.all Json.notDouble = true
  ordered : value.all Json.ascending = true

theorem isMember_of_mem {event : Event} (h : event.Sendable) {key : String} {value : Json}
    (hmem : (key, value) ∈ event.members) : IsMember value := by
  have hstring (text : String) : IsMember (.string text) := ⟨Nat.zero_le 126, rfl, rfl⟩
  have hnumber (n : UInt32) : IsMember (.ofUInt32 n) := ⟨Nat.zero_le 126, rfl, rfl⟩
  cases event with
  | progress update =>
    simp only [members, List.mem_cons, Prod.mk.injEq, List.not_mem_nil, or_false] at hmem
    rcases hmem with ⟨-, rfl⟩ | ⟨-, rfl⟩ | ⟨-, rfl⟩ | ⟨-, rfl⟩ | ⟨-, rfl⟩
    · exact hstring _
    · exact hnumber _
    · exact hnumber _
    · exact hstring _
    · exact hstring _
  | complete payload =>
    simp only [members, List.mem_cons, Prod.mk.injEq, List.not_mem_nil, or_false] at hmem
    obtain ⟨-, hdepth, hdouble, horder⟩ := h
    rcases hmem with ⟨-, rfl⟩ | ⟨-, rfl⟩
    · exact hstring _
    · exact ⟨hdepth, hdouble, horder⟩
  | failure message =>
    simp only [members, List.mem_cons, Prod.mk.injEq, List.not_mem_nil, or_false] at hmem
    rcases hmem with ⟨-, rfl⟩ | ⟨-, rfl⟩ <;> exact hstring _

theorem count_ofUInt32 (n : UInt32) : count (some (.ofUInt32 n)) = n := by
  have hlt : n.toNat < UInt32.size := n.toNat_lt
  have hsaturated : count (some (.ofUInt32 n)) = saturated n.toNat := rfl
  rw [hsaturated, saturated, if_pos hlt, UInt32.ofNat_toNat]

section Written

variable {event : Event} {written : List (String × Json)}

theorem isMember_of_perm (h : event.Sendable) (hwritten : written.Perm event.members) :
    ∀ entry ∈ written, IsMember entry.2 := by
  intro entry hmem
  exact isMember_of_mem h (hwritten.mem_iff.mp hmem)

theorem parseChars?_written (h : event.Sendable) (hwritten : written.Perm event.members) :
    Json.parseChars? (Json.object written).compactChars =
      some (.object (Assoc.ofEntries written)) := by
  have hmember := isMember_of_perm h hwritten
  have hne : written ≠ [] := by
    rintro rfl
    exact members_ne_nil event hwritten.nil_eq.symm
  have hdepth : Json.membersDepth written ≤ 126 :=
    (Json.membersDepth_le_iff written 126).mpr fun entry hmem => (hmember entry hmem).depth_le
  apply Json.parseChars?_compactChars_object hne (Nat.lt_succ_of_le hdepth)
  · exact (Json.allMembers_iff _ written).mpr fun entry hmem => (hmember entry hmem).no_double
  · exact (Json.allMembers_iff _ written).mpr fun entry hmem => (hmember entry hmem).ordered

theorem get?_written (hwritten : written.Perm event.members) {key : String} {value : Json}
    (hmem : (key, value) ∈ event.members) :
    (Json.object (Assoc.ofEntries written)).get? key = some value := by
  have hnodup : (written.map Prod.fst).Nodup :=
    (hwritten.map Prod.fst).nodup_iff.mpr (nodup_keys_members event)
  exact Assoc.lookup_ofEntries_of_mem hnodup (hwritten.mem_iff.mpr hmem)

theorem ofJson?_written (h : event.Sendable) (hwritten : written.Perm event.members) :
    ofJson? (.object (Assoc.ofEntries written)) = some event := by
  have hget {key : String} {value : Json} (hmem : (key, value) ∈ event.members) :
      (Json.object (Assoc.ofEntries written)).get? key = some value :=
    get?_written hwritten hmem
  -- from here on only the members count, whatever their order was
  generalize Json.object (Assoc.ofEntries written) = read at hget ⊢
  unfold ofJson?
  cases event with
  | progress update =>
    have htype : read.get? "type" = some (.string "progress") := hget (by simp [members])
    have hstep : read.get? "step" = some (.ofUInt32 update.step) := hget (by simp [members])
    have htotal : read.get? "totalSteps" = some (.ofUInt32 update.totalSteps) :=
      hget (by simp [members])
    have hname : read.get? "stepName" = some (.string update.stepName) :=
      hget (by simp [members])
    have hmessage : read.get? "message" = some (.string update.message) :=
      hget (by simp [members])
    rw [Json.text?, htype, hstep, htotal, hname, hmessage]
    simp only [Option.bind_some, Json.string?, count_ofUInt32, label]
  | complete payload =>
    obtain ⟨hnull, -⟩ := h
    have htype : read.get? "type" = some (.string "complete") := hget (by simp [members])
    have hdata : read.get? "data" = some payload := hget (by simp [members])
    rw [Json.text?, htype, hdata]
    simp only [Option.bind_some, Json.string?]
  | failure message =>
    obtain ⟨htrim, hne⟩ := h
    have htype : read.get? "type" = some (.string "error") := hget (by simp [members])
    have hmessage : read.get? "message" = some (.string message) := hget (by simp [members])
    rw [Json.text?, htype, hmessage]
    have hkept : Text.nonBlank? message = some message :=
      (Text.nonBlank?_eq_some_iff message message).mpr ⟨htrim, hne⟩
    simp only [Option.bind_some, Json.string?, Option.some_or, hkept, Option.getD_some]

def line (written : List (String × Json)) : String :=
  "data: " ++ (Json.object written).compact

theorem toList_line (written : List (String × Json)) :
    (line written).toList = "data:".toList ++ (' ' :: (Json.object written).compactChars) := by
  have hcompact : (Json.object written).compact.toList = (Json.object written).compactChars :=
    String.toList_ofList
  rw [line, String.toList_append, hcompact]
  rfl

theorem trim_compactChars_object (written : List (String × Json)) :
    Chars.trim (Json.object written).compactChars = (Json.object written).compactChars := by
  -- the braces at the ends are not blank
  rw [Json.compactChars]
  exact Chars.trim_eq_self_of_ends (c := '\x7b') (d := '\x7d') rfl List.getLast?_concat rfl rfl

theorem trim_line (written : List (String × Json)) {mark : String}
    (hmark : ∀ c ∈ mark.toList, isBlank c = true) :
    Chars.trim (line written ++ mark).toList = (line written).toList := by
  have hlast : (line written).toList.getLast? = some '\x7d' := by
    rw [toList_line, Json.compactChars, ← List.cons_append, ← List.append_assoc,
      List.getLast?_concat]
  have hhead : (line written).toList.head? = some 'd' := by
    rw [toList_line]
    rfl
  calc Chars.trim (line written ++ mark).toList
      = Chars.trim ([] ++ (line written).toList ++ mark.toList) := by
        rw [String.toList_append, List.nil_append]
    _ = Chars.trim (line written).toList := Chars.trim_pad (by simp) hmark _
    _ = (line written).toList := Chars.trim_eq_self_of_ends hhead hlast rfl rfl

/-- The event on a line is the one that was written, also with blank characters after it. -/
theorem ofLine?_line (h : event.Sendable) (hwritten : written.Perm event.members) {mark : String}
    (hmark : ∀ c ∈ mark.toList, isBlank c = true) : ofLine? (line written ++ mark) = some event := by
  have hprefix : "data:".toList.isPrefixOf? (line written).toList =
      some (' ' :: (Json.object written).compactChars) :=
    (isPrefixOf?_eq_some_iff _ _ _).mpr (toList_line written)
  have hpayload : Chars.trim (' ' :: (Json.object written).compactChars) =
      (Json.object written).compactChars := by
    have hpad : Chars.trim ([' '] ++ (Json.object written).compactChars ++ []) =
        Chars.trim (Json.object written).compactChars :=
      Chars.trim_pad (List.forall_mem_singleton.mpr rfl) (by simp) _
    rwa [List.append_nil, trim_compactChars_object] at hpad
  rw [ofLine?, trim_line written hmark, hprefix]
  simp only [hpayload, parseChars?_written h hwritten, Option.bind_some, ofJson?_written h hwritten]

theorem newline_not_mem_line (h : event.Sendable) (hwritten : written.Perm event.members) :
    '\n' ∉ (line written).toList := by
  have hmembers : Json.allMembers Json.notDouble written = true :=
    (Json.allMembers_iff _ written).mpr fun entry hmem =>
      (isMember_of_perm h hwritten entry hmem).no_double
  have hvalue : (Json.object written).all Json.notDouble = true := by
    rw [Json.all, hmembers]
    rfl
  have hcompact := Json.newline_not_mem_compactChars _ hvalue
  have hstart : '\n' ∉ "data:".toList := by decide +kernel
  rw [toList_line, List.mem_append, List.mem_cons, not_or, not_or]
  exact ⟨hstart, by decide, hcompact⟩

end Written

theorem ofLine?_of_isBlank {text : String} (h : Text.isBlank text = true) : ofLine? text = none := by
  have hnil : Chars.trim text.toList = [] :=
    (Chars.trim_eq_nil_iff text.toList).mpr (List.all_eq_true.mp h)
  rw [ofLine?, hnil]
  rfl

theorem ofLine?_append_mark (text : String) {mark : String}
    (hmark : ∀ c ∈ mark.toList, isBlank c = true) : ofLine? (text ++ mark) = ofLine? text := by
  have htrim : Chars.trim (text.toList ++ mark.toList) = Chars.trim text.toList :=
    Chars.trim_pad (List.forall_mem_nil _) hmark text.toList
  rw [ofLine?, ofLine?, String.toList_append, htrim]

end Event

/-! ## Transcripts -/

inductive Item where
  | sent (event : Event) (written : List (String × Json))
  | junk (text : String)
deriving DecidableEq

namespace Item

def text : Item → String
  | sent _ written => Event.line written
  | junk text => text

def event? : Item → Option Event
  | sent event _ => some event
  | junk _ => none

def Valid : Item → Prop
  | sent event written => event.Sendable ∧ written.Perm event.members
  | junk text => '\n' ∉ text.toList ∧ Event.ofLine? text = none

instance : DecidablePred Valid
  | sent event written =>
    inferInstanceAs (Decidable (event.Sendable ∧ written.Perm event.members))
  | junk text => inferInstanceAs (Decidable ('\n' ∉ text.toList ∧ Event.ofLine? text = none))

theorem ofLine?_text {item : Item} (h : item.Valid) : Event.ofLine? item.text = item.event? := by
  cases item with
  | sent event written =>
    have hline : Event.ofLine? (Event.line written ++ "") = some event :=
      Event.ofLine?_line h.1 h.2 (by simp)
    rwa [String.append_empty] at hline
  | junk text => exact h.2

theorem newline_not_mem_text {item : Item} (h : item.Valid) : '\n' ∉ item.text.toList := by
  cases item with
  | sent event written => exact Event.newline_not_mem_line h.1 h.2
  | junk text => exact h.1

end Item

inductive Ending where
  | lf
  | crlf
deriving DecidableEq

def Ending.mark : Ending → String
  | lf => ""
  | crlf => "\r"

structure Transcript where
  lines : List (Item × Ending)
  last : Option Item
deriving DecidableEq

namespace Transcript

def items (transcript : Transcript) : List Item :=
  transcript.lines.map Prod.fst ++ transcript.last.toList

def events (transcript : Transcript) : List Event :=
  transcript.items.filterMap Item.event?

def lineText (line : Item × Ending) : String :=
  line.1.text ++ line.2.mark

def lastText (transcript : Transcript) : String :=
  (transcript.last.map Item.text).getD ""

def bytes (transcript : Transcript) : List UInt8 :=
  Utf8.encode (String.join (transcript.lines.map fun line => lineText line ++ "\n") ++
    transcript.lastText)

theorem isBlank_mark (ending : Ending) : ∀ c ∈ ending.mark.toList, isBlank c = true := by
  cases ending with
  | lf => exact List.forall_mem_nil _
  | crlf => exact List.forall_mem_singleton.mpr rfl

theorem ofLine?_lineText {line : Item × Ending} (h : line.1.Valid) :
    Event.ofLine? (lineText line) = line.1.event? := by
  rw [lineText, Event.ofLine?_append_mark _ (isBlank_mark line.2), Item.ofLine?_text h]

theorem newline_not_mem_lineText {line : Item × Ending} (h : line.1.Valid) :
    '\n' ∉ (lineText line).toList := by
  have hmark : '\n' ∉ line.2.mark.toList := by cases line.2 <;> decide +kernel
  rw [lineText, String.toList_append, List.mem_append, not_or]
  exact ⟨Item.newline_not_mem_text h, hmark⟩

theorem newline_not_mem_encode {text : String} (h : '\n' ∉ text.toList) :
    LineBuffer.newline ∉ Utf8.encode text := by
  intro hmem
  exact h (Utf8.mem_of_mem_encode (by decide) hmem)

theorem encode_join_lines (lines : List (Item × Ending)) :
    Utf8.encode (String.join (lines.map fun line => lineText line ++ "\n")) =
      (lines.map fun line => Utf8.encode (lineText line)).flatMap (· ++ [LineBuffer.newline]) := by
  induction lines with
  | nil => rfl
  | cons line rest ih =>
    have hnewline : Utf8.encode "\n" = [LineBuffer.newline] := by decide +kernel
    rw [List.map_cons, String.join_cons, Utf8.encode_append, Utf8.encode_append, hnewline, ih]
    simp

section Reading

variable {transcript : Transcript}

/-- The bytes of a transcript fall into its lines. -/
theorem lines_bytes (h : ∀ item ∈ transcript.items, item.Valid) :
    LineBuffer.Lines transcript.bytes
      (transcript.lines.map fun line => Utf8.encode (lineText line))
      (Utf8.encode transcript.lastText) where
  bytes_eq := by rw [bytes, Utf8.encode_append, encode_join_lines]
  lines_free := by
    intro bytes hmem
    obtain ⟨line, hline, rfl⟩ := List.mem_map.mp hmem
    have hvalid : line.1.Valid := h line.1 (List.mem_append_left _ (List.mem_map_of_mem hline))
    exact newline_not_mem_encode (newline_not_mem_lineText hvalid)
  tail_free := by
    apply newline_not_mem_encode
    rw [lastText]
    cases hlast : transcript.last with
    | none => exact List.not_mem_nil
    | some item =>
      have hvalid : item.Valid := h item (List.mem_append_right _ (by simp [hlast]))
      exact Item.newline_not_mem_text hvalid

theorem ofLines_tail? (text : String) :
    Event.ofLines ((⟨Utf8.encode text⟩ : LineBuffer).tail?.toList) =
      (Event.ofLine? text).toList := by
  -- a blank tail is not given, and it would stand for no event
  rw [LineBuffer.tail?, Utf8.decodeLossy_encode]
  cases hblank : Text.isBlank text with
  | true =>
    rw [Event.ofLine?_of_isBlank hblank]
    rfl
  | false => exact (Stream.ofLines_cons text []).trans (List.append_nil _)

theorem ofLine?_lastText (h : ∀ item ∈ transcript.items, item.Valid) :
    Event.ofLine? transcript.lastText = transcript.last.bind Item.event? := by
  rw [lastText]
  cases hlast : transcript.last with
  | none => exact Event.ofLine?_of_isBlank rfl
  | some item =>
    have hvalid : item.Valid := h item (List.mem_append_right _ (by simp [hlast]))
    exact Item.ofLine?_text hvalid

/-- The lines that are read have the events that were sent. -/
theorem ofLines_read (h : ∀ item ∈ transcript.items, item.Valid) :
    Event.ofLines ((transcript.lines.map fun line => Utf8.encode (lineText line)).map
        Utf8.decodeLossy ++ (⟨Utf8.encode transcript.lastText⟩ : LineBuffer).tail?.toList) =
      transcript.events := by
  have hlines : Event.ofLines ((transcript.lines.map fun line =>
      Utf8.encode (lineText line)).map Utf8.decodeLossy) =
        (transcript.lines.map Prod.fst).filterMap Item.event? := by
    rw [Event.ofLines, List.map_map, List.filterMap_map, List.filterMap_map]
    apply List.filterMap_congr
    intro line hline
    have hvalid : line.1.Valid := h line.1 (List.mem_append_left _ (List.mem_map_of_mem hline))
    simp only [Function.comp_apply, Utf8.decodeLossy_encode, ofLine?_lineText hvalid]
  have hlast : Event.ofLines ((⟨Utf8.encode transcript.lastText⟩ : LineBuffer).tail?.toList) =
      transcript.last.toList.filterMap Item.event? := by
    rw [ofLines_tail?, ofLine?_lastText h]
    cases transcript.last with
    | none => rfl
    | some item => cases hevent : item.event? <;> simp [hevent]
  rw [Event.ofLines] at hlines hlast ⊢
  rw [List.filterMap_append, hlines, hlast, events, items, List.filterMap_append]

/-- The reader of a transcript, however its bytes are cut, reports the progress that was sent in
its order. Then the last error that was sent decides, wherever it stands, or else the last
completion; a stream that sent neither is incomplete. -/
theorem readStream_bytes {pieces : List (List UInt8)}
    (hvalid : ∀ item ∈ transcript.items, item.Valid) (hpieces : pieces.flatten = transcript.bytes) :
    (Run.readStream pieces true).2 = transcript.events.filterMap Event.progress? ∧
      (Run.readStream pieces true).1 =
        match (transcript.events.filterMap Event.failure?).getLast?,
          (transcript.events.filterMap Event.completion?).getLast? with
        | some message, _ => .error (.pipeline message)
        | none, some payload => .ok payload
        | none, none => .error .streamIncomplete := by
  rw [Run.readStream_true (lines_bytes hvalid) hpieces, Stream.verdict, ofLines_read hvalid]
  refine ⟨rfl, ?_⟩
  cases (transcript.events.filterMap Event.failure?).getLast? with
  | some message => rfl
  | none => cases (transcript.events.filterMap Event.completion?).getLast? <;> rfl

end Reading

def mixed : Transcript where
  lines :=
    [(.sent (.progress ⟨1, 4294967295, "\u00e9", "one\ntwo\u0001"⟩)
        [("message", .string "one\ntwo\u0001"), ("step", .ofUInt32 1), ("stepName", .string "\u00e9"),
          ("totalSteps", .ofUInt32 4294967295), ("type", .string "progress")], .crlf),
      (.junk ": ping", .lf), (.junk "", .crlf),
      (.sent (.failure "no credit") [("type", .string "error"), ("message", .string "no credit")],
        .lf)]
  last := some (.sent (.complete (.array [.ofUInt64 18446744073709551615, .object [("a", .null)]]))
    [("data", .array [.ofUInt64 18446744073709551615, .object [("a", .null)]]),
      ("type", .string "complete")])

/-- The bytes are cut inside the character that takes two of them. -/
theorem readStream_bytes_mixed :
    (∀ item ∈ mixed.items, item.Valid) ∧
      (Run.readStream [mixed.bytes.take 56, [], mixed.bytes.drop 56] true).2 =
        [⟨1, 4294967295, "\u00e9", "one\ntwo\u0001"⟩] ∧
      (Run.readStream [mixed.bytes.take 56, [], mixed.bytes.drop 56] true).1 =
        .error (.pipeline "no credit") := by
  have hvalid : ∀ item ∈ mixed.items, item.Valid := by decide +kernel
  have hpieces (bytes : List UInt8) : [bytes.take 56, [], bytes.drop 56].flatten = bytes := by simp
  exact ⟨hvalid, readStream_bytes hvalid (hpieces mixed.bytes)⟩

end Transcript

end Cattery
