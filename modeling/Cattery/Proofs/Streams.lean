import Cattery.Proofs.Lines
import Cattery.Run.Basic

namespace Cattery

namespace Event

def progress? : Event → Option Progress
  | .progress update => some update
  | .complete _ => none
  | .failure _ => none

def completion? : Event → Option Json
  | .progress _ => none
  | .complete payload => some payload
  | .failure _ => none

def failure? : Event → Option String
  | .progress _ => none
  | .complete _ => none
  | .failure message => some message

def ofLines (lines : List String) : List Event :=
  lines.filterMap ofLine?

end Event

namespace Stream

/-- What one line changes is what its event says. -/
theorem observe_eq (stream : Stream) (line : String) :
    stream.observe line =
      (⟨((Event.ofLine? line).bind Event.completion?).or stream.completion,
        ((Event.ofLine? line).bind Event.failure?).or stream.failure⟩,
        (Event.ofLine? line).bind Event.progress?) := by
  rw [observe]
  cases Event.ofLine? line with
  | none => rfl
  | some event => cases event <;> rfl

theorem ofLines_cons (line : String) (rest : List String) :
    Event.ofLines (line :: rest) = (Event.ofLine? line).toList ++ Event.ofLines rest := by
  rw [Event.ofLines, List.filterMap_cons]
  cases Event.ofLine? line <;> rfl

theorem getLast?_filterMap_append_or {α β : Type} (f : α → Option β) (first : Option α)
    (rest : List α) (earlier : Option β) :
    ((first.toList ++ rest).filterMap f).getLast?.or earlier =
      (rest.filterMap f).getLast?.or ((first.bind f).or earlier) := by
  rw [List.filterMap_append, List.getLast?_append, Option.or_assoc]
  cases first with
  | none => rfl
  | some a => cases h : f a <;> simp [h]

/-- Of the events of one kind the last one counts, and progress is reported in the order of the
lines. -/
theorem observeAll_eq (stream : Stream) (lines : List String) :
    stream.observeAll lines =
      (⟨((Event.ofLines lines).filterMap Event.completion?).getLast?.or stream.completion,
        ((Event.ofLines lines).filterMap Event.failure?).getLast?.or stream.failure⟩,
        (Event.ofLines lines).filterMap Event.progress?) := by
  -- an earlier completion or failure counts only when no later line says another one
  induction lines generalizing stream with
  | nil => rfl
  | cons line rest ih =>
    have hprogress : ((Event.ofLine? line).toList ++ Event.ofLines rest).filterMap Event.progress? =
        ((Event.ofLine? line).bind Event.progress?).toList ++
          (Event.ofLines rest).filterMap Event.progress? := by
      rw [List.filterMap_append]
      cases Event.ofLine? line with
      | none => rfl
      | some event => cases event <;> rfl
    rw [ofLines_cons, getLast?_filterMap_append_or, getLast?_filterMap_append_or, hprogress]
    simp only [observeAll, observe_eq, ih]

theorem observeAll_append (stream : Stream) (first second : List String) :
    stream.observeAll (first ++ second) =
      (((stream.observeAll first).1.observeAll second).1,
        (stream.observeAll first).2 ++ ((stream.observeAll first).1.observeAll second).2) := by
  induction first generalizing stream with
  | nil => rfl
  | cons line rest ih => simp [observeAll, ih]

/-- What the events of some lines come to: the last failure, or else the last completion. -/
def verdict (lines : List String) : Except Fault Json :=
  finish ⟨((Event.ofLines lines).filterMap Event.completion?).getLast?,
    ((Event.ofLines lines).filterMap Event.failure?).getLast?⟩

theorem observeAll_start (lines : List String) :
    (start.observeAll lines).1.finish = verdict lines ∧
      (start.observeAll lines).2 = (Event.ofLines lines).filterMap Event.progress? := by
  rw [observeAll_eq, start, Option.or_none, Option.or_none]
  exact ⟨rfl, rfl⟩

namespace Reader

/-- A reader observes the lines that its buffer completes. -/
theorem pushAll_eq (reader : Reader) (pieces : List (List UInt8)) :
    reader.pushAll pieces =
      (⟨(reader.buffer.pushAll pieces).1,
        (reader.stream.observeAll (reader.buffer.pushAll pieces).2).1⟩,
        (reader.stream.observeAll (reader.buffer.pushAll pieces).2).2) := by
  induction pieces generalizing reader with
  | nil => rfl
  | cons bytes rest ih => simp [pushAll, LineBuffer.pushAll, push, ih, observeAll_append]

end Reader

end Stream

namespace Run

variable {bytes tail : List UInt8} {lines : List (List UInt8)} {pieces : List (List UInt8)}

theorem pushAll_start (h : LineBuffer.Lines bytes lines tail) (hpieces : pieces.flatten = bytes) :
    Stream.Reader.start.pushAll pieces =
      (⟨⟨tail⟩, (Stream.start.observeAll (lines.map Utf8.decodeLossy)).1⟩,
        (Stream.start.observeAll (lines.map Utf8.decodeLossy)).2) := by
  rw [Stream.Reader.pushAll_eq, Stream.Reader.start, LineBuffer.pushAll_empty h hpieces]

/-- A stream that ends comes to what all of its lines say, its tail among them. -/
theorem readStream_true (h : LineBuffer.Lines bytes lines tail) (hpieces : pieces.flatten = bytes) :
    readStream pieces true =
      ((Stream.verdict (lines.map Utf8.decodeLossy ++ (⟨tail⟩ : LineBuffer).tail?.toList)).mapError
          Failure.ofStream,
        (Event.ofLines (lines.map Utf8.decodeLossy ++
          (⟨tail⟩ : LineBuffer).tail?.toList)).filterMap Event.progress?) := by
  obtain ⟨hverdict, hprogress⟩ := Stream.observeAll_start
    (lines.map Utf8.decodeLossy ++ (⟨tail⟩ : LineBuffer).tail?.toList)
  rw [← hverdict, ← hprogress, Stream.observeAll_append, readStream, pushAll_start h hpieces]
  rfl

/-- A stream that breaks off is a failed transport whatever it said, and the progress of its whole
lines has been reported. -/
theorem readStream_false (h : LineBuffer.Lines bytes lines tail)
    (hpieces : pieces.flatten = bytes) :
    readStream pieces false =
      (.error .transport,
        (Event.ofLines (lines.map Utf8.decodeLossy)).filterMap Event.progress?) := by
  rw [← (Stream.observeAll_start _).2, readStream, pushAll_start h hpieces]
  rfl

/-- How a stream is cut does not matter: its lines are those of all of its bytes, its tail counts
when it is not blank, and both what it comes to and the progress it reports are the same. -/
theorem readStream_eq_of_flatten_eq {pieces' : List (List UInt8)} (hpieces : pieces.flatten = bytes)
    (hpieces' : pieces'.flatten = bytes) :
    ∃ lines tail, LineBuffer.Lines bytes lines tail ∧
      LineBuffer.empty.pushAll pieces = (⟨tail⟩, lines.map Utf8.decodeLossy) ∧
      LineBuffer.empty.pushAll pieces' = (⟨tail⟩, lines.map Utf8.decodeLossy) ∧
      (∀ text, (⟨tail⟩ : LineBuffer).tail? = some text ↔
        text = Utf8.decodeLossy tail ∧ Text.isBlank text = false) ∧
      (∀ complete, readStream pieces complete = readStream pieces' complete) ∧
      readStream pieces true =
        ((Stream.verdict (lines.map Utf8.decodeLossy ++
            (⟨tail⟩ : LineBuffer).tail?.toList)).mapError Failure.ofStream,
          (Event.ofLines (lines.map Utf8.decodeLossy ++
            (⟨tail⟩ : LineBuffer).tail?.toList)).filterMap Event.progress?) ∧
      readStream pieces false =
        (.error .transport,
          (Event.ofLines (lines.map Utf8.decodeLossy)).filterMap Event.progress?) := by
  -- the lines depend on the bytes alone, and everything else depends on the lines
  obtain ⟨lines, tail, h⟩ := LineBuffer.exists_lines bytes
  have hlines := LineBuffer.pushAll_empty h hpieces
  have hlines' := LineBuffer.pushAll_empty h hpieces'
  refine ⟨lines, tail, h, hlines, hlines', LineBuffer.tail?_eq_some_iff tail, ?_,
    readStream_true h hpieces, readStream_false h hpieces⟩
  intro complete
  cases complete with
  | false => rw [readStream_false h hpieces, readStream_false h hpieces']
  | true => rw [readStream_true h hpieces, readStream_true h hpieces']

def cutInside : List (List UInt8) :=
  [Utf8.encode "data: \x7b\"type\":\"progress\",\"stepName\":\"" ++ [0xC3], [],
    [0xA9] ++ Utf8.encode "\"\x7d\r", [10, 0x64]]

theorem readStream_cutInside :
    (readStream cutInside false).2 = [⟨0, 0, "\u00e9", ""⟩] := by
  obtain ⟨lines, tail, -, -, -, -, heq, -, -⟩ :=
    @readStream_eq_of_flatten_eq cutInside.flatten cutInside [cutInside.flatten] rfl
      List.flatten_singleton
  rw [heq false]
  decide +kernel

end Run

end Cattery
