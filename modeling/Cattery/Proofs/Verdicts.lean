import Cattery.Proofs.Admission

namespace Cattery.Run

open Program

variable {endpoint : Endpoint} {token : Credential} {slug : String} {input : Input}
  {options : Options} {log : List Performed} {report : Report}

/-- A run that was admitted sends at most one request. Without a reply its transport failed, and with
one it comes to what goes with the reply. Every reply may come. -/
theorem verdict_of_runs (hadmitted : Admitted token slug input) :
    (∀ log report, Runs (execute endpoint token slug input options) log report →
      (log = [] ∧ report = ⟨.error .transport, []⟩) ∨
        ∃ request reply, log = [⟨.send request, reply⟩] ∧
          ((reply = none ∧ report = ⟨.error .transport, []⟩) ∨
            ∃ answer, reply = some answer ∧ Verdict options answer report)) ∧
    ∀ request, (draftOf endpoint token slug input options).request? = some request →
      ∀ answer, ∃ report, Runs (execute endpoint token slug input options)
        [⟨.send request, some answer⟩] report := by
  constructor
  · intro log report h
    rcases (runs_iff_of_admitted hadmitted).mp h with ⟨-, rfl, rfl⟩ | ⟨request, reply, -, rfl, rfl⟩
    · exact Or.inl ⟨rfl, rfl⟩
    · refine Or.inr ⟨request, reply, rfl, ?_⟩
      cases reply with
      | none => exact Or.inl ⟨rfl, rfl⟩
      | some answer => exact Or.inr ⟨answer, rfl, verdict_ofReply options answer⟩
  · intro request hrequest answer
    exact ⟨_, (runs_send_iff hadmitted hrequest).mpr rfl⟩

def refusal : Http.Reply where
  status := 503
  headers := [("Content-Type", "text/event-stream")]
  body := Utf8.encode "\x7b\"error\":"
  complete := false

theorem verdict_of_runs_refusal :
    ∃ log report, Runs (execute nearby (.given "t") " my-cat " greeting ⟨false, false, true⟩) log
        report ∧ report.progress = [] ∧
      ∃ message, report.outcome = .error (.http 503 message) ∧ Text.trim message = message := by
  obtain ⟨request, hrequest⟩ := exists_request?_greeting
  obtain ⟨hverdict, hreply⟩ := @verdict_of_runs nearby _ _ _ ⟨false, false, true⟩ admitted_greeting
  obtain ⟨report, hruns⟩ := hreply request hrequest refusal
  refine ⟨_, report, hruns, ?_⟩
  -- the reply came, so the run is of the last of the three kinds
  rcases hverdict _ _ hruns with ⟨hlog, -⟩ | ⟨_, reply, hlog, hcases⟩
  · cases hlog
  cases hlog
  rcases hcases with ⟨hnone, -⟩ | ⟨answer, heq, hanswer⟩
  · cases hnone
  cases heq
  obtain ⟨hprogress, message, houtcome, htrim, -⟩ := hanswer.refused (by decide)
  exact ⟨hprogress, message, houtcome, htrim⟩

def umlautStream : Http.Reply where
  status := 200
  headers := [("Content-Type", "text/event-stream; charset=\u00fc")]
  body := Utf8.encode "data: \x7b\"type\":\"complete\",\"data\":1\x7d\n"
  complete := true

def largeNumber : Http.Reply where
  status := 200
  headers := []
  body := Utf8.encode "1e999"
  complete := true

theorem exists_report_unreadable {reply : Http.Reply}
    (h : 200 ≤ reply.status ∧ reply.status < 300) (hcomplete : reply.complete = true)
    (hstream : isEventStream reply = false)
    (hread : (Json.parse? (Utf8.decodeLossy reply.body)).isSome = false) :
    ∃ request report, Runs (execute nearby (.given "t") " my-cat " greeting ⟨false, false, true⟩)
      [⟨.send request, some reply⟩] report ∧ report.outcome = .error .invalidResponse := by
  obtain ⟨request, hrequest⟩ := exists_request?_greeting
  refine ⟨request, .ofReply ⟨false, false, true⟩ (some reply),
    (runs_send_iff admitted_greeting hrequest).mpr rfl, ?_⟩
  have hplain : ¬ (NamesStream reply ∧ (true : Bool) = true) := by
    rw [← isEventStream_iff, hstream]
    simp
  refine ((verdict_ofReply ⟨false, false, true⟩ reply).body h hcomplete hplain).2.2 ?_
  rw [← Json.isSome_parseChars?_iff]
  exact Bool.eq_false_iff.mp hread

/-- A content type that is not visible ASCII text names no stream to the reader, whatever it
contains, and not all text that follows the grammar of JSON is read. -/
theorem verdict_of_runs_unreadable :
    (∃ request report, Runs (execute nearby (.given "t") " my-cat " greeting ⟨false, false, true⟩)
        [⟨.send request, some umlautStream⟩] report ∧
      report.outcome = .error .invalidResponse ∧ umlautStream.status = 200 ∧
      umlautStream.complete = true ∧ ∃ value, ("Content-Type", value) ∈ umlautStream.headers ∧
        eventStream.toList <:+: value.toList.map asciiLower) ∧
    ∃ request report, Runs (execute nearby (.given "t") " my-cat " greeting ⟨false, false, true⟩)
        [⟨.send request, some largeNumber⟩] report ∧
      report.outcome = .error .invalidResponse ∧ largeNumber.status = 200 ∧
      largeNumber.complete = true ∧ largeNumber.headers = [] ∧
      ∃ tree, Tree.Padded tree (Utf8.decodeLossy largeNumber.body).toList := by
  constructor
  · obtain ⟨request, report, hruns, houtcome⟩ := @exists_report_unreadable umlautStream (by decide) rfl
      (by decide +kernel) (by decide +kernel)
    refine ⟨request, report, hruns, houtcome, rfl, rfl, _, List.mem_singleton_self _, ?_⟩
    rw [← occurs_iff_isInfix]
    decide +kernel
  · obtain ⟨request, report, hruns, houtcome⟩ := @exists_report_unreadable largeNumber (by decide) rfl
      (by decide +kernel) (by decide +kernel)
    have htree : (Tree.ofChars? (Utf8.decodeLossy largeNumber.body).toList).isSome := by
      decide +kernel
    obtain ⟨tree, htree⟩ := Option.isSome_iff_exists.mp htree
    exact ⟨request, report, hruns, houtcome, rfl, rfl, rfl, tree,
      Tree.ofChars?_eq_some_iff.mp htree⟩

end Cattery.Run
