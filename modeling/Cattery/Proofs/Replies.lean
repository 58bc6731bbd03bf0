import Cattery.Proofs.Decimal
import Cattery.Proofs.JsonMeaning
import Cattery.Proofs.Runs
import Cattery.Proofs.Search
import Cattery.Proofs.Streams
import Cattery.Proofs.Trim

namespace Cattery

namespace Run

variable {options : Options} {reply : Http.Reply}

/-- The first content type of a reply is visible ASCII text with the name of event streams in it, in
any case. -/
def NamesStream (reply : Http.Reply) : Prop :=
  ∃ value, reply.header? Http.contentTypeHeader = some value ∧
    eventStream.toList <:+: value.toList.map asciiLower

theorem isEventStream_iff : isEventStream reply = true ↔ NamesStream reply := by
  rw [isEventStream, NamesStream]
  cases reply.header? Http.contentTypeHeader <;> simp [occurs_iff_isInfix]

theorem isSuccess_iff : reply.isSuccess = true ↔ 200 ≤ reply.status ∧ reply.status < 300 := by
  simp [Http.Reply.isSuccess]

/-- The phrase for a status starts with a letter and ends with a digit. -/
theorem trim_statusPhrase (status : Nat) :
    Text.trim ("Request failed with status " ++ toString status) =
      "Request failed with status " ++ toString status := by
  have hdigits : (toString status).toList = Nat.toDigits 10 status := Nat.toList_repr
  have hne : (toString status).toList ≠ [] := by
    rw [hdigits]
    exact Nat.toDigits_ne_nil
  have hlast : ("Request failed with status " ++ toString status).toList.getLast? =
      some ((toString status).toList.getLast hne) := by
    rw [String.toList_append, List.getLast?_append_of_ne_nil _ hne, List.getLast?_eq_some_getLast hne]
  have hdigit : ((toString status).toList.getLast hne).isDigit = true := by
    apply isDigit_of_mem_toDigits (n := status)
    rw [← hdigits]
    exact List.getLast_mem hne
  have hhead : ("Request failed with status " ++ toString status).toList.head? = some 'R' := by
    rw [String.toList_append]
    rfl
  rw [Text.trim, Chars.trim_eq_self_of_ends hhead hlast rfl (isBlank_of_isDigit hdigit),
    String.ofList_toList]

theorem nonBlank?_of_reportedError? {body : Json} {message : String}
    (h : reportedError? body = some message) : ∃ text, Text.nonBlank? text = some message := by
  rw [reportedError?] at h
  obtain ⟨text, -, htext⟩ := Option.bind_eq_some_iff.mp h
  exact ⟨text, htext⟩

/-- The message of a refused request is trimmed and not blank. -/
theorem trim_refusalMessage (status : Nat) (body : String) :
    Text.trim (refusalMessage status body) = refusalMessage status body ∧
      refusalMessage status body ≠ "" := by
  rw [refusalMessage]
  cases hreported : (Json.parse? body).bind reportedError? with
  | some message =>
    obtain ⟨value, -, hvalue⟩ := Option.bind_eq_some_iff.mp hreported
    obtain ⟨text, htext⟩ := nonBlank?_of_reportedError? hvalue
    exact Text.trim_of_nonBlank? htext
  | none =>
    cases hbody : Text.nonBlank? body with
    | some message => exact Text.trim_of_nonBlank? hbody
    | none =>
      -- neither the body nor an error in it says anything, so the phrase stands in
      refine ⟨trim_statusPhrase status, ?_⟩
      intro hempty
      have hphrase : "Request failed with status " ++ toString status = "" := hempty
      have hnil := congrArg String.toList hphrase
      rw [String.toList_append] at hnil
      exact absurd (List.append_eq_nil_iff.mp hnil).1 (by decide)

theorem conclude_of_refused (h : ¬ (200 ≤ reply.status ∧ reply.status < 300)) :
    conclude options reply =
      (.error (.http reply.status (refusalMessage reply.status reply.textOrEmpty)), []) := by
  have hstatus : reply.isSuccess = false := by
    rw [← Bool.not_eq_true, isSuccess_iff]
    exact h
  rw [conclude, hstatus]
  rfl

theorem conclude_of_stream (h : 200 ≤ reply.status ∧ reply.status < 300)
    (hstream : NamesStream reply ∧ options.progress = true) :
    conclude options reply =
      ((readStream [reply.body] reply.complete).1.map Output.ofCompletion,
        (readStream [reply.body] reply.complete).2) := by
  rw [conclude, isSuccess_iff.mpr h, isEventStream_iff.mpr hstream.1, hstream.2]
  rfl

/-- The body of a reply that is not read as a stream is a completion if it is JSON text. -/
theorem conclude_of_body (h : 200 ≤ reply.status ∧ reply.status < 300)
    (hstream : ¬ (NamesStream reply ∧ options.progress = true)) :
    (reply.complete = false → conclude options reply = (.error .transport, [])) ∧
      (reply.complete = true → conclude options reply =
        ((Json.parse? (Utf8.decodeLossy reply.body)).elim (.error .invalidResponse)
          fun completion => .ok (Output.ofCompletion completion), [])) := by
  have hplain : (isEventStream reply && options.progress) = false := by
    rw [← Bool.not_eq_true, Bool.and_eq_true, isEventStream_iff]
    exact hstream
  rw [conclude, isSuccess_iff.mpr h, hplain, Http.Reply.text?]
  constructor
  · intro hcut
    rw [hcut]
    rfl
  · intro hcomplete
    rw [hcomplete]
    simp only [Bool.not_true, Bool.false_eq_true, if_false, if_true]
    cases Json.parse? (Utf8.decodeLossy reply.body) <;> rfl

/-- What a stream that arrived to its end can come to. -/
theorem readStream_true_cases (pieces : List (List UInt8)) :
    (∃ completion, (readStream pieces true).1 = .ok completion) ∨
      (∃ message, (readStream pieces true).1 = .error (.pipeline message)) ∨
      (readStream pieces true).1 = .error .streamIncomplete := by
  obtain ⟨lines, tail, h⟩ := LineBuffer.exists_lines pieces.flatten
  rw [readStream_true h rfl]
  cases Stream.verdict (lines.map Utf8.decodeLossy ++ (⟨tail⟩ : LineBuffer).tail?.toList) with
  | ok completion => exact Or.inl ⟨completion, rfl⟩
  | error fault =>
    cases fault with
    | pipeline message => exact Or.inr (Or.inl ⟨message, rfl⟩)
    | incomplete => exact Or.inr (Or.inr rfl)

structure Verdict (options : Options) (reply : Http.Reply) (report : Report) : Prop where
  refused (h : ¬ (200 ≤ reply.status ∧ reply.status < 300)) :
    report.progress = [] ∧ ∃ message, report.outcome = .error (.http reply.status message) ∧
      Text.trim message = message ∧ message ≠ ""
  cut (h : 200 ≤ reply.status ∧ reply.status < 300) (hcut : reply.complete = false) :
    report.outcome = .error .transport
  stream (h : 200 ≤ reply.status ∧ reply.status < 300) (hcomplete : reply.complete = true)
    (hstream : NamesStream reply ∧ options.progress = true) :
    (∃ output, report.outcome = .ok output) ∨
      (∃ message, report.outcome = .error (.pipeline message)) ∨
      report.outcome = .error .streamIncomplete
  body (h : 200 ≤ reply.status ∧ reply.status < 300) (hcomplete : reply.complete = true)
    (hstream : ¬ (NamesStream reply ∧ options.progress = true)) :
    report.progress = [] ∧
      ((∃ output, report.outcome = .ok output) ↔
        Json.Readable (Utf8.decodeLossy reply.body).toList) ∧
      (¬ Json.Readable (Utf8.decodeLossy reply.body).toList →
        report.outcome = .error .invalidResponse)

theorem verdict_ofReply (options : Options) (reply : Http.Reply) :
    Verdict options reply (.ofReply options (some reply)) where
  refused h := by
    rw [Report.ofReply, conclude_of_refused h]
    exact ⟨rfl, _, rfl, trim_refusalMessage _ _⟩
  cut h hcut := by
    -- a stream hands over its lines before it breaks off, a body nothing; both fail alike
    rw [Report.ofReply]
    by_cases hstream : NamesStream reply ∧ options.progress = true
    · obtain ⟨lines, tail, hlines⟩ := LineBuffer.exists_lines reply.body
      rw [conclude_of_stream h hstream, hcut, readStream_false hlines List.flatten_singleton]
      rfl
    · rw [(conclude_of_body h hstream).1 hcut]
  stream h hcomplete hstream := by
    rw [Report.ofReply, conclude_of_stream h hstream, hcomplete]
    rcases readStream_true_cases [reply.body] with ⟨completion, hread⟩ | ⟨message, hread⟩ | hread
    · exact Or.inl ⟨_, by rw [hread]; rfl⟩
    · exact Or.inr (Or.inl ⟨message, by rw [hread]; rfl⟩)
    · exact Or.inr (Or.inr (by rw [hread]; rfl))
  body h hcomplete hstream := by
    rw [Report.ofReply, (conclude_of_body h hstream).2 hcomplete]
    have hread : (Json.parse? (Utf8.decodeLossy reply.body)).isSome ↔
        Json.Readable (Utf8.decodeLossy reply.body).toList := Json.isSome_parseChars?_iff
    rw [← hread]
    cases Json.parse? (Utf8.decodeLossy reply.body) <;> simp

end Run

end Cattery
