import Cattery.Proofs.Envelopes
import Cattery.Proofs.Requests
import Cattery.Run.Watch

namespace Cattery

/-! ## What is received -/

namespace Channel

variable {channel : Channel}

/-- A receiver that stays receives everything, in order. -/
theorem sendAll_of_patience_eq_none (h : channel.patience = none) (updates : List Progress) :
    channel.sendAll updates = ⟨channel.received ++ updates, none⟩ := by
  induction updates generalizing channel with
  | nil => simp [← h]
  | cons update rest ih =>
    have hsend : (channel.send update).1 = ⟨channel.received ++ [update], none⟩ := by
      simp only [send, h]
    rw [sendAll, List.foldl_cons, ← sendAll, hsend, ih rfl, List.append_assoc]
    rfl

/-- A receiver that goes has received the first updates. -/
theorem sendAll_of_patience_eq_some {left : Nat} (h : channel.patience = some left)
    (updates : List Progress) :
    channel.sendAll updates =
      ⟨channel.received ++ updates.take left, some (left - updates.length)⟩ := by
  induction updates generalizing channel left with
  | nil => simp [← h]
  | cons update rest ih =>
    rw [sendAll, List.foldl_cons, ← sendAll]
    cases left with
    | zero =>
      have hsend : (channel.send update).1 = channel := by simp only [send, h]
      rw [hsend, ih h]
      simp
    | succ left =>
      have hsend : (channel.send update).1 = ⟨channel.received ++ [update], some left⟩ := by
        simp only [send, h]
      rw [hsend, ih rfl, List.append_assoc, List.take_succ_cons, List.length_cons,
        Nat.add_sub_add_right]
      rfl

theorem sendAll_live (updates : List Progress) : live.sendAll updates = ⟨updates, none⟩ :=
  sendAll_of_patience_eq_none rfl updates

theorem sendAll_dropped (updates : List Progress) : dropped.sendAll updates = dropped := by
  rw [sendAll_of_patience_eq_some rfl, List.take_zero, Nat.zero_sub]
  rfl

end Channel

/-! ## Streams -/

namespace Stream

/-- The channel gets the update that the line reports, and the stream does not see the channel. -/
theorem forward_eq (stream : Stream) (channel : Option Channel) (line : String) :
    stream.forward channel line =
      ((stream.observe line).1, Channel.post channel (stream.observe line).2.toList) := by
  rw [forward, observe]
  cases Event.ofLine? line with
  | none => simp
  | some event => cases event <;> simp

theorem forwardAll_eq (stream : Stream) (channel : Option Channel) (lines : List String) :
    stream.forwardAll channel lines =
      ((stream.observeAll lines).1, Channel.post channel (stream.observeAll lines).2) := by
  induction lines generalizing stream channel with
  | nil => simp [forwardAll, observeAll]
  | cons line rest ih => simp only [forwardAll, observeAll, forward_eq, ih, Channel.post_append]

namespace Reader

theorem forward_eq (reader : Reader) (channel : Option Channel) (bytes : List UInt8) :
    reader.forward channel bytes =
      ((reader.push bytes).1, Channel.post channel (reader.push bytes).2) := by
  simp only [forward, push, Stream.forwardAll_eq]

theorem forwardAll_eq (reader : Reader) (channel : Option Channel) (pieces : List (List UInt8)) :
    reader.forwardAll channel pieces =
      ((reader.pushAll pieces).1, Channel.post channel (reader.pushAll pieces).2) := by
  induction pieces generalizing reader channel with
  | nil => simp [forwardAll, pushAll]
  | cons bytes rest ih => simp only [forwardAll, pushAll, forward_eq, ih, Channel.post_append]

theorem close_eq (reader : Reader) (channel : Option Channel) :
    reader.close channel = (reader.finish.1, Channel.post channel reader.finish.2) := by
  simp only [close, finish, Stream.forwardAll_eq]

end Reader

end Stream

namespace Run

open Program

variable {endpoint : Endpoint} {token : Credential} {slug : String} {input : Input}
  {draft debug : Bool} {channel : Option Channel} {reply : Option Http.Reply}
  {requests : List Http.Request}

/-! ## Runs with a channel -/

theorem consume_eq (channel : Option Channel) (pieces : List (List UInt8)) (complete : Bool) :
    consume channel pieces complete =
      ((readStream pieces complete).1, Channel.post channel (readStream pieces complete).2) := by
  cases complete <;>
    simp [consume, readStream, Stream.Reader.forwardAll_eq, Stream.Reader.close_eq,
      Channel.post_append]

theorem resolve_eq (options : Options) (channel : Option Channel) (reply : Http.Reply) :
    resolve options channel reply =
      ((conclude options reply).1, Channel.post channel (conclude options reply).2) := by
  rw [resolve]
  by_cases hstream :
      (reply.isSuccess && (isEventStream reply && options.progress)) = true
  · rw [if_pos hstream, consume_eq]
    rw [Bool.and_eq_true, Bool.and_eq_true, isSuccess_iff, isEventStream_iff] at hstream
    rw [conclude_of_stream hstream.1 hstream.2]
  · rw [if_neg hstream]

/-- A run with a channel is a run whose progress went into the channel. -/
theorem watch_eq : watch endpoint token slug input draft debug channel =
    (execute endpoint token slug input (switches draft debug channel)).andThen fun report =>
      .done (report.outcome, Channel.post channel report.progress) := by
  rw [watch]
  cases h : prepare endpoint token slug input (switches draft debug channel) with
  | error failure =>
    rw [execute_eq_of_error h, andThen, Channel.post_nil]
    rfl
  | ok request =>
    cases hrequest : request.request? with
    | none =>
      rw [execute_eq_of_request?_eq_none h hrequest, andThen, Channel.post_nil]
      simp only [exchange, hrequest]
      rfl
    | some sent =>
      rw [execute_eq_of_request?_eq_some h hrequest, andThen]
      simp only [exchange, hrequest]
      refine congrArg (Program.act (.send sent)) (funext fun answer => ?_)
      cases answer with
      | none =>
        exact congrArg (fun seen => Program.done (Except.error Failure.transport, seen))
          (Channel.post_nil channel).symm
      | some answer => exact congrArg Program.done (resolve_eq _ channel answer)

theorem meets_watch_iff {result : Except Failure Output × Option Channel} :
    Meets (watch endpoint token slug input draft debug channel) reply requests result ↔
      requests = asked endpoint token slug input (switches draft debug channel) ∧
      result =
        ((reported endpoint token slug input (switches draft debug channel) reply).outcome,
          Channel.post channel
            (reported endpoint token slug input (switches draft debug channel) reply).progress) := by
  have hexecute (report : Report) := @meets_execute_iff endpoint token slug input
    (switches draft debug channel) report reply requests
  simp only [Meets] at hexecute
  rw [Meets, watch_eq, runs_andThen_done_iff]
  simp only [hexecute, and_assoc, exists_and_left, exists_eq_left]

theorem meets_watch_some_iff {channel : Channel} {result : Except Failure Output × Option Channel} :
    Meets (watch endpoint token slug input draft debug (some channel)) reply requests result ↔
      requests = asked endpoint token slug input ⟨draft, debug, true⟩ ∧
      result = ((reported endpoint token slug input ⟨draft, debug, true⟩ reply).outcome,
        some (channel.sendAll
          (reported endpoint token slug input ⟨draft, debug, true⟩ reply).progress)) :=
  meets_watch_iff

theorem meets_watch_none_iff {result : Except Failure Output × Option Channel} :
    Meets (watch endpoint token slug input draft debug none) reply requests result ↔
      requests = asked endpoint token slug input ⟨draft, debug, false⟩ ∧
      result = ((reported endpoint token slug input ⟨draft, debug, false⟩ reply).outcome, none) :=
  meets_watch_iff

/-! ## Two runs -/

/-- A reply that is no stream is read alike by every run, and reports no progress. -/
theorem conclude_of_not_namesStream {reply : Http.Reply} (h : ¬ NamesStream reply)
    (options other : Options) :
    conclude options reply = conclude other reply ∧ (conclude options reply).2 = [] := by
  by_cases hstatus : 200 ≤ reply.status ∧ reply.status < 300
  · have hstream (options : Options) : ¬ (NamesStream reply ∧ options.progress = true) :=
      fun hstream => h hstream.1
    cases hcomplete : reply.complete with
    | false =>
      rw [(conclude_of_body hstatus (hstream options)).1 hcomplete,
        (conclude_of_body hstatus (hstream other)).1 hcomplete]
      exact ⟨rfl, rfl⟩
    | true =>
      rw [(conclude_of_body hstatus (hstream options)).2 hcomplete,
        (conclude_of_body hstatus (hstream other)).2 hcomplete]
      exact ⟨rfl, rfl⟩
  · rw [conclude_of_refused hstatus, conclude_of_refused hstatus]
    exact ⟨rfl, rfl⟩

/-- Without a stream the switches do not decide on what a run comes to. -/
theorem reported_of_not_namesStream (h : ∀ answer ∈ reply, ¬ NamesStream answer)
    (options other : Options) :
    reported endpoint token slug input options reply =
        reported endpoint token slug input other reply ∧
      (reported endpoint token slug input options reply).progress = [] := by
  by_cases hadmitted : Admitted token slug input
  · rw [reported_of_admitted hadmitted, reported_of_admitted hadmitted, request?_draftOf,
      request?_draftOf]
    cases addressed? endpoint token with
    | none => exact ⟨rfl, rfl⟩
    | some found =>
      cases reply with
      | none => exact ⟨rfl, rfl⟩
      | some answer =>
        obtain ⟨hconclude, hprogress⟩ := conclude_of_not_namesStream (h answer rfl) options other
        exact ⟨congrArg (fun read => (⟨read.1, read.2⟩ : Report)) hconclude, hprogress⟩
  · obtain ⟨reason, hprepare⟩ := @prepare_of_not_admitted endpoint _ _ _ hadmitted
    rw [reported, reported, hprepare, hprepare]
    exact ⟨rfl, rfl⟩

/-- A reply that is no stream is read alike with a channel and without one: nothing is sent into the
channel, and the requests are twins. Whatever the reply, all runs with a channel send the same
requests, come to the same outcome and send the same updates, received or not. -/
theorem progress_advisory (endpoint : Endpoint) (token : Credential) (slug : String) (input : Input)
    (draft debug : Bool) (reply : Option Http.Reply) :
    ((∀ answer ∈ reply, ¬ NamesStream answer) →
      ∃ wanting plain outcome, List.Forall₂ Twin wanting plain ∧
        (∀ channel requests result,
          Meets (watch endpoint token slug input draft debug (some channel)) reply requests
            result ↔ requests = wanting ∧ result = (outcome, some channel)) ∧
        ∀ requests result,
          Meets (watch endpoint token slug input draft debug none) reply requests result ↔
            requests = plain ∧ result = (outcome, none)) ∧
    ∃ wanting outcome updates, ∀ channel requests result,
      Meets (watch endpoint token slug input draft debug (some channel)) reply requests result ↔
        requests = wanting ∧ result = (outcome, some (channel.sendAll updates)) := by
  refine ⟨fun hstream => ?_, asked endpoint token slug input ⟨draft, debug, true⟩,
    (reported endpoint token slug input ⟨draft, debug, true⟩ reply).outcome,
    (reported endpoint token slug input ⟨draft, debug, true⟩ reply).progress, ?_⟩
  · obtain ⟨heq, hnone⟩ := @reported_of_not_namesStream endpoint token slug input reply hstream
      ⟨draft, debug, true⟩ ⟨draft, debug, false⟩
    refine ⟨_, _, (reported endpoint token slug input ⟨draft, debug, false⟩ reply).outcome,
      forall₂_twin_asked endpoint token slug input draft debug, ?_, ?_⟩
    · intro channel requests result
      rw [meets_watch_some_iff, hnone, heq, Channel.sendAll_nil]
    · intro requests result
      rw [meets_watch_none_iff]
  · intro channel requests result
    rw [meets_watch_some_iff]

/-- A stream is read to its end also when nobody watches, and a plain reply is read alike with a
channel and without one. -/
theorem progress_advisory_done :
    ∃ request,
      Meets (watch nearby (.given "t") " my-cat " greeting false false (some .live))
        (some doneStreamed) [request] (.ok ⟨"done", none⟩, some ⟨[⟨1, 0, "", ""⟩], none⟩) ∧
      Meets (watch nearby (.given "t") " my-cat " greeting false false (some .dropped))
        (some doneStreamed) [request] (.ok ⟨"done", none⟩, some .dropped) ∧
      ∃ plain, Twin request plain ∧
        Meets (watch nearby (.given "t") " my-cat " greeting false false (some .live))
          (some donePlain) [request] (.ok ⟨"done", none⟩, some .live) ∧
        Meets (watch nearby (.given "t") " my-cat " greeting false false none)
          (some donePlain) [plain] (.ok ⟨"done", none⟩, none) := by
  obtain ⟨request, hrequest⟩ := exists_request?_greeting
  have houtput : Output.ofCompletion (.object [("choices",
      .array [.object [("message", .object [("content", .string "done")])]]), ("n", .array [])]) =
        ⟨"done", none⟩ := by decide +kernel
  have hupdates : updatesOf doneLines = [⟨1, 0, "", ""⟩] := by decide +kernel
  have hasked : asked nearby (.given "t") " my-cat " greeting ⟨false, false, true⟩ = [request] := by
    rw [asked_of_admitted admitted_greeting, hrequest, Option.toList_some]
  have hreported (reply : Option Http.Reply) :
      reported nearby (.given "t") " my-cat " greeting ⟨false, false, true⟩ reply =
        .ofReply ⟨false, false, true⟩ reply := by
    rw [reported_of_admitted admitted_greeting, hrequest, Option.bind_some]
  have hstreamed : Meets (watch nearby (.given "t") " my-cat " greeting false false (some .live))
      (some doneStreamed) [request] (.ok ⟨"done", none⟩, some ⟨[⟨1, 0, "", ""⟩], none⟩) := by
    rw [meets_watch_some_iff, hasked, hreported,
      ofReply_streamed saySame_done isPayload_doneText rfl, houtput, hupdates, Channel.sendAll_live]
    exact ⟨rfl, rfl⟩
  have hplain : Meets (watch nearby (.given "t") " my-cat " greeting false false (some .live))
      (some donePlain) [request] (.ok ⟨"done", none⟩, some .live) := by
    rw [meets_watch_some_iff, hasked, hreported, ofReply_plain saySame_done isPayload_doneText,
      houtput, Channel.sendAll_nil]
    exact ⟨rfl, rfl⟩
  -- one run with a channel says what all the others come to
  obtain ⟨-, wanting, outcome, updates, hwatched⟩ :=
    progress_advisory nearby (.given "t") " my-cat " greeting false false (some doneStreamed)
  obtain ⟨rfl, hresult⟩ := (hwatched _ _ _).mp hstreamed
  obtain rfl := congrArg Prod.fst hresult
  have hdropped := (hwatched .dropped _ _).mpr ⟨rfl, by rw [Channel.sendAll_dropped]⟩
  have hnot : ∀ answer ∈ some donePlain, ¬ NamesStream answer := by
    rintro _ ⟨⟩
    exact saySame_done.plain_type
  obtain ⟨wanting, plain, outcome, htwins, hlive, hwithout⟩ :=
    (progress_advisory nearby (.given "t") " my-cat " greeting false false (some donePlain)).1 hnot
  obtain ⟨rfl, hresult⟩ := (hlive _ _ _).mp hplain
  obtain rfl := congrArg Prod.fst hresult
  cases htwins with
  | cons htwin hrest =>
    cases hrest
    exact ⟨request, hstreamed, hdropped, _, htwin, hplain, (hwithout _ _).mpr ⟨rfl, rfl⟩⟩

end Run

end Cattery
