import Cattery.Proofs.LowerCase
import Cattery.Proofs.Requests
import Cattery.Proofs.UrlReading

/-! The headers of a run. The three headers that a run sets have one value each, whatever headers are
configured, and the configured headers of all other names are sent as they are. Only a user in the
URL adds a value, because the client logs this user in. The token stands in one header and decides
on nothing else. -/

namespace Cattery

/-! ## Names in any case -/

namespace Http

def lowered (name : String) : String :=
  String.ofList (name.toList.map asciiLower)

def Request.valuesOf (request : Request) (name : String) : List String :=
  (request.headers.filter fun header => header.1 == name).map Prod.snd

def Request.valuesSeen (request : Request) (name : String) : List String :=
  (request.received.filter fun header => header.1 == name).map Prod.snd

theorem Request.valuesSeen_eq (request : Request) (name : String) :
    request.valuesSeen name = (request.valuesOf name).map unpadded := by
  rw [valuesSeen, received, List.filter_map, List.map_map, valuesOf, List.map_map]
  rfl

/-- Headers that are set or left out when a request is put on the wire. -/
def managedHeaders : List String :=
  ["host", "connection", "content-length", "transfer-encoding", "user-agent"]

theorem headerName?_eq_lowered {text name : String} (h : headerName? text = some name) :
    name = lowered text :=
  (headerName?_eq_some_iff.mp h).2.2.symm

/-- Headers are kept as they are but for the case of their names. -/
theorem eq_map_of_mapM_header? {headers sent : List (String × String)}
    (h : headers.mapM (fun (name, value) => header? name value) = some sent) :
    sent = headers.map fun header => (lowered header.1, header.2) := by
  induction headers generalizing sent with
  | nil =>
    cases h
    rfl
  | cons header rest ih =>
    rw [List.mapM_cons] at h
    obtain ⟨first, hfirst, h⟩ := Option.bind_eq_some_iff.mp h
    obtain ⟨others, hothers, h⟩ := Option.bind_eq_some_iff.mp h
    cases h
    obtain ⟨-, hname, hvalue⟩ := header?_eq_some_iff.mp hfirst
    rw [List.map_cons, ← ih hothers]
    exact congrArg (· :: others) (Prod.ext (headerName?_eq_lowered hname) hvalue)

end Http

namespace Run

open Program Http

variable {endpoint : Endpoint} {token other : Credential} {slug : String} {input : Input}
  {options : Options} {configured : List (String × String)}

/-! ## One value for each header of the run -/

theorem isReserved_eq (name : String) :
    isReserved name = reservedHeaders.contains (Text.trim (lowered name)) := by
  rw [isReserved, Text.trim, lowered, String.toList_ofList, Chars.trim_map_asciiLower]

/-- A request with the headers that its run sets, and with the configured ones of all other names
that are not managed. -/
structure Intact (endpoint : Endpoint) (token : Credential) (options : Options)
    (request : Http.Request) : Prop where
  url : ∃ base slashes, endpoint.baseUrl = base ++ slashes ∧ (∀ c ∈ slashes.toList, c = '/') ∧
    base.toList.getLast? ≠ some '/' ∧ Url.parse? (base ++ "/chat/completions") = some request.url
  authorization : request.valuesOf "authorization" =
    (basic? request.url).toList.map Prod.snd ++ ["Bearer " ++ token.value]
  bearer_only : '@' ∉ endpoint.baseUrl.toList →
    request.valuesOf "authorization" = ["Bearer " ++ token.value]
  contentType : request.valuesOf "content-type" = ["application/json"]
  accept : request.valuesOf "accept" =
    [if options.progress then "text/event-stream, application/json" else "*/*"]
  configured : ∀ header ∈ endpoint.headers,
    Text.trim (lowered header.1) ∉ ["authorization", "content-type", "accept"] →
    lowered header.1 ∉ managedHeaders →
    request.valuesOf (lowered header.1) =
      (endpoint.headers.filter fun similar => lowered similar.1 == lowered header.1).map Prod.snd
  seen : ∀ name, request.valuesSeen name = (request.valuesOf name).map unpadded

def ownValues (url : Url) (token : Credential) (options : Options) (name : String) : List String :=
  if name = "authorization" then
    (basic? url).toList.map Prod.snd ++ ["Bearer " ++ token.value]
  else if name = "content-type" then ["application/json"]
  else if name = "accept" then
    [if options.progress then "text/event-stream, application/json" else "*/*"]
  else []

/-- A header is set by the run or by the configuration, never by both. -/
theorem valuesOf_sentHeaders (h : configured? endpoint = some configured) (url : Url)
    (body : List UInt8) (name : String) :
    (⟨url, sentHeaders url token options configured, body⟩ : Http.Request).valuesOf name =
      ownValues url token options name ++
        (configured.filter fun header => header.1 == name).map Prod.snd := by
  have hbearer : bearer token.value = ("authorization", "Bearer " ++ token.value) := rfl
  have htype : (contentTypeHeader, jsonType) = ("content-type", "application/json") := rfl
  have haccept : (acceptHeader, eventStream ++ ", " ++ jsonType) =
      ("accept", "text/event-stream, application/json") := by decide
  have hdefault : acceptHeader = "accept" := rfl
  have hnone (reserved : String) (hname : reserved ∈ reservedHeaders) :
      (configured.filter fun header => header.1 == reserved) = [] :=
    filter_configured_eq_nil h hname
  rw [Request.valuesOf, sentHeaders, ownValues, List.filter_append, filter_basic?, hbearer, htype,
    haccept, hdefault]
  by_cases hauthorization : name = "authorization"
  · subst hauthorization
    cases options.progress <;> simp [hnone "authorization" (by decide)]
  by_cases hcontent : name = "content-type"
  · subst hcontent
    cases options.progress <;> simp [hnone "content-type" (by decide)]
  by_cases hwanted : name = "accept"
  · subst hwanted
    cases options.progress <;> simp [hnone "accept" (by decide)]
  · cases options.progress <;>
      simp [hauthorization, hcontent, hwanted, Ne.symm hauthorization, Ne.symm hcontent,
        Ne.symm hwanted]

theorem valuesOf_of_mem_reservedHeaders (h : configured? endpoint = some configured) (url : Url)
    (body : List UInt8) {name : String} (hname : name ∈ reservedHeaders) :
    (⟨url, sentHeaders url token options configured, body⟩ : Http.Request).valuesOf name =
      ownValues url token options name := by
  rw [valuesOf_sentHeaders h, filter_configured_eq_nil h hname, List.map_nil, List.append_nil]

theorem exists_base (endpoint : Endpoint) : ∃ base slashes, endpoint.baseUrl = base ++ slashes ∧
    (∀ c ∈ slashes.toList, c = '/') ∧ base.toList.getLast? ≠ some '/' ∧
    completionsUrl endpoint = base ++ "/chat/completions" := by
  let backwards := endpoint.baseUrl.toList.reverse
  refine ⟨String.ofList (backwards.dropWhile (· == '/')).reverse,
    String.ofList (backwards.takeWhile (· == '/')).reverse, ?_, ?_, ?_, rfl⟩
  · rw [← String.ofList_append, ← List.reverse_append, List.takeWhile_append_dropWhile,
      List.reverse_reverse, String.ofList_toList]
  · intro c hc
    rw [String.toList_ofList, List.mem_reverse] at hc
    simpa using List.mem_takeWhile_imp hc
  · rw [String.toList_ofList, List.getLast?_reverse]
    intro hslash
    have hnot := List.head?_dropWhile_not (· == '/') backwards
    rw [hslash] at hnot
    cases hnot

theorem parse?_of_addressed? {found : Url × List (String × String)}
    (h : addressed? endpoint token = some found) :
    Url.parse? (completionsUrl endpoint) = some found.1 := by
  obtain ⟨_, -, h⟩ := Option.bind_eq_some_iff.mp h
  obtain ⟨configured, -, h⟩ := Option.bind_eq_some_iff.mp h
  obtain ⟨url, hurl, h⟩ := Option.bind_eq_some_iff.mp h
  cases h
  exact hurl

/-- What is put behind the address of an endpoint holds no at sign either. -/
theorem login_of_completionsUrl {url : Url} (h : Url.parse? (completionsUrl endpoint) = some url)
    (hsign : '@' ∉ endpoint.baseUrl.toList) : url.login = none := by
  obtain ⟨base, slashes, hbase, -, -, hcompletions⟩ := exists_base endpoint
  have hend : '@' ∉ "/chat/completions".toList := by decide
  refine Url.login_of_not_mem h ?_
  rw [hbase, String.toList_append, List.mem_append, not_or] at hsign
  rw [hcompletions, String.toList_append, List.mem_append, not_or]
  exact ⟨hsign.1, hend⟩

theorem ownValues_eq_nil {name : String} (h : Text.trim name ∉ reservedHeaders) (url : Url) :
    ownValues url token options name = [] := by
  have htrim : ∀ reserved ∈ reservedHeaders, Text.trim reserved = reserved := by decide
  have hne (reserved : String) (hreserved : reserved ∈ reservedHeaders) : name ≠ reserved := by
    rintro rfl
    rw [htrim name hreserved] at h
    exact h hreserved
  rw [ownValues, if_neg (hne _ (by decide)), if_neg (hne _ (by decide)), if_neg (hne _ (by decide))]

/-- Names that differ in case only are configured together. -/
theorem filter_configured (h : configured? endpoint = some configured) {name : String}
    (hname : Text.trim name ∉ reservedHeaders) :
    (configured.filter fun header => header.1 == name).map Prod.snd =
      (endpoint.headers.filter fun header => lowered header.1 == name).map Prod.snd := by
  rw [eq_map_of_mapM_header? h, List.filter_map, List.map_map, List.filter_filter]
  refine congrArg (List.map Prod.snd) (List.filter_congr fun header _ => ?_)
  show (lowered header.1 == name && !isReserved header.1) = (lowered header.1 == name)
  cases heq : lowered header.1 == name with
  | false => rfl
  | true =>
    have hfree : reservedHeaders.contains (Text.trim name) = false := by
      rw [← Bool.not_eq_true, List.contains_iff_mem]
      exact hname
    rw [isReserved_eq, beq_iff_eq.mp heq, hfree]
    rfl

theorem intact_of_request? {request : Http.Request}
    (h : (draftOf endpoint token slug input options).request? = some request) :
    Intact endpoint token options request := by
  rw [request?_draftOf] at h
  obtain ⟨⟨url, configured⟩, hfound, rfl⟩ := Option.map_eq_some_iff.mp h
  have hconfigured : configured? endpoint = some configured := configured?_of_addressed? hfound
  have hurl : Url.parse? (completionsUrl endpoint) = some url := parse?_of_addressed? hfound
  obtain ⟨base, slashes, hbase, hslashes, hlast, hcompletions⟩ := exists_base endpoint
  refine ⟨⟨base, slashes, hbase, hslashes, hlast, hcompletions ▸ hurl⟩,
    valuesOf_of_mem_reservedHeaders hconfigured url _ (by decide), fun hsign => ?_,
    valuesOf_of_mem_reservedHeaders hconfigured url _ (by decide),
    valuesOf_of_mem_reservedHeaders hconfigured url _ (by decide), fun header _ hfree _ => ?_,
    Request.valuesSeen_eq _⟩
  · rw [valuesOf_of_mem_reservedHeaders hconfigured url _ (by decide), ownValues, if_pos rfl, basic?,
      login_of_completionsUrl hurl hsign]
    rfl
  · rw [valuesOf_sentHeaders hconfigured, ownValues_eq_nil hfree url, List.nil_append,
      filter_configured hconfigured hfree]

/-! ## Two tokens -/

structure Legal (token : Credential) : Prop where
  ne_empty : token.value ≠ ""
  charset : ∀ c ∈ token.value.toList, c = '\t' ∨ (0x20 ≤ c.toNat ∧ c.toNat ≠ 0x7F)

structure Alike (token other : Credential) (request twin : Http.Request) : Prop where
  url : request.url = twin.url
  body : request.body = twin.body
  headers : ∃ rest, "authorization" ∉ rest.map Prod.fst ∧
    request.headers =
      (basic? request.url).toList ++ ("authorization", "Bearer " ++ token.value) :: rest ∧
    twin.headers =
      (basic? request.url).toList ++ ("authorization", "Bearer " ++ other.value) :: rest

theorem header?_bearer (h : Legal token) :
    header? (bearer token.value).1 (bearer token.value).2 = some (bearer token.value) := by
  have hbearer : ("Bearer ".toList.all isValueChar) = true := by decide
  have hname : headerName? "authorization" = some "authorization" := by decide
  refine header?_eq_some_iff.mpr ⟨fun c hc => ?_, hname, rfl⟩
  rcases List.mem_append.mp (String.toList_append ▸ hc) with hc | hc
  · exact List.all_eq_true.mp hbearer c hc
  · simpa [isValueChar] using h.charset c hc

theorem addressed?_congr (h : Legal token) (hother : Legal other) :
    addressed? endpoint token = addressed? endpoint other := by
  rw [addressed?, addressed?, header?_bearer h, header?_bearer hother]
  rfl

/-- The gates before the token do not look at it. -/
theorem prepare_congr (h : token.value ≠ "") (hother : other.value ≠ "") {failure : Failure}
    (hprepare : prepare endpoint token slug input options = .error failure) :
    prepare endpoint other slug input options = .error failure := by
  have htoken : token.isEmpty = false := by simpa [Credential.isEmpty] using h
  have hempty : other.isEmpty = false := by simpa [Credential.isEmpty] using hother
  unfold prepare at hprepare ⊢
  simp only [htoken, hempty] at hprepare ⊢
  by_cases hparts : input.parts.isEmpty = true
  · rwa [if_pos hparts] at hprepare ⊢
  · rw [if_neg hparts] at hprepare ⊢
    cases hcheck : Slug.check (Text.trim slug) with
    | error refusal => rwa [hcheck] at hprepare
    | ok slug =>
      rw [hcheck] at hprepare
      cases hprepare

theorem alike_sentHeaders (h : configured? endpoint = some configured) (url : Url)
    (body : List UInt8) :
    Alike token other ⟨url, sentHeaders url token options configured, body⟩
      ⟨url, sentHeaders url other options configured, body⟩ := by
  refine ⟨rfl, rfl, (contentTypeHeader, jsonType) ::
    if options.progress then (acceptHeader, eventStream ++ ", " ++ jsonType) :: configured
    else configured ++ [(acceptHeader, "*/*")], ?_, rfl, rfl⟩
  intro hmem
  obtain ⟨header, hheader, hname⟩ := List.mem_map.mp hmem
  have hconfigured : header ∉ configured := fun hmem =>
    not_mem_reservedHeaders h hmem (by rw [hname]; decide)
  have htype : contentTypeHeader ≠ "authorization" := by decide
  have haccept : acceptHeader ≠ "authorization" := by decide
  rcases List.mem_cons.mp hheader with rfl | hheader
  · exact htype hname
  split_ifs at hheader
  · rcases List.mem_cons.mp hheader with rfl | hheader
    · exact haccept hname
    · exact hconfigured hheader
  · rcases List.mem_append.mp hheader with hheader | hheader
    · exact hconfigured hheader
    · obtain rfl := List.mem_singleton.mp hheader
      exact haccept hname

/-- The token decides neither on whether a request is sent nor on what is made of the reply. -/
theorem alike_of_legal (h : Legal token) (hother : Legal other) (endpoint : Endpoint)
    (slug : String) (input : Input) (options : Options) (reply : Option Http.Reply) :
    List.Forall₂ (Alike token other) (asked endpoint token slug input options)
        (asked endpoint other slug input options) ∧
      reported endpoint token slug input options reply =
        reported endpoint other slug input options reply := by
  by_cases hadmitted : Admitted token slug input
  · have hadmitted' : Admitted other slug input :=
      ⟨hadmitted.parts, hadmitted.slug, hother.ne_empty⟩
    rw [asked_of_admitted hadmitted, asked_of_admitted hadmitted', reported_of_admitted hadmitted,
      reported_of_admitted hadmitted', request?_draftOf, request?_draftOf,
      addressed?_congr h hother]
    cases hfound : addressed? endpoint other with
    | none => exact ⟨.nil, rfl⟩
    | some found =>
      exact ⟨.cons (alike_sentHeaders (configured?_of_addressed? hfound) found.1 _) .nil, rfl⟩
  · obtain ⟨reason, hreason⟩ := @prepare_of_not_admitted endpoint _ _ _ hadmitted
    have hprepare := prepare_congr h.ne_empty hother.ne_empty (hreason options)
    rw [asked, asked, reported, reported, hreason options, hprepare]
    exact ⟨.nil, rfl⟩

/-- Whatever is configured, a run that sends a request sends an intact one. Runs with two tokens
send requests that are alike, and the same reply leads them to the same report. -/
theorem intact_of_runs (endpoint : Endpoint) (slug : String) (input : Input) (options : Options) :
    (∀ token log report request reply,
      Runs (execute endpoint token slug input options) log report →
      (⟨.send request, reply⟩ : Performed) ∈ log → Intact endpoint token options request) ∧
    ∀ token other, Legal token → Legal other → ∀ reply, ∃ requests twins outcome,
      List.Forall₂ (Alike token other) requests twins ∧
      (∀ sent report, Meets (execute endpoint token slug input options) reply sent report ↔
        sent = requests ∧ report = outcome) ∧
      ∀ sent report, Meets (execute endpoint other slug input options) reply sent report ↔
        sent = twins ∧ report = outcome := by
  refine ⟨fun token log report request reply hruns hmem => ?_,
    fun token other htoken hother reply => ?_⟩
  · by_cases hadmitted : Admitted token slug input
    · rcases (runs_iff_of_admitted hadmitted).mp hruns with
        ⟨-, rfl, -⟩ | ⟨sent, answer, hrequest, rfl, -⟩
      · cases hmem
      · cases List.mem_singleton.mp hmem
        exact intact_of_request? hrequest
    · obtain ⟨reason, hreason⟩ := @runs_iff_of_not_admitted endpoint _ _ _ options hadmitted
      obtain ⟨rfl, -⟩ := (hreason _ _).mp hruns
      cases hmem
  · obtain ⟨halike, hreported⟩ := alike_of_legal htoken hother endpoint slug input options reply
    refine ⟨_, _, reported endpoint token slug input options reply, halike,
      fun sent report => meets_execute_iff, fun sent report => ?_⟩
    rw [hreported]
    exact meets_execute_iff

def meddling : Endpoint where
  baseUrl := "http://127.0.0.1:80/v1//"
  accessTokenEnv := "TOKEN"
  timeoutSecs := none
  headers := [(" Authorization ", "Bearer x"), ("ACCEPT", "text/plain"), ("X-Cat", "a"),
    ("content-Type", "text/plain"), ("x-cat", "b")]

theorem intact_of_runs_meddling :
    ∃ request twin report,
      Meets (execute meddling (.given "t") " my-cat " greeting ⟨false, false, true⟩) none [request]
        report ∧
      Meets (execute meddling (.given "u v") " my-cat " greeting ⟨false, false, true⟩) none [twin]
        report ∧
      request.headers = [("authorization", "Bearer t"), ("content-type", "application/json"),
        ("accept", "text/event-stream, application/json"), ("x-cat", "a"), ("x-cat", "b")] ∧
      request.valuesOf "x-cat" = ["a", "b"] ∧ twin.valuesOf "authorization" = ["Bearer u v"] ∧
      Alike (.given "t") (.given "u v") request twin := by
  have hlegal (text : String) (hne : text ≠ "") (hall : (text.toList.all fun c =>
      c == '\t' || (0x20 ≤ c.toNat && c.toNat != 0x7F)) = true) : Legal (.given text) :=
    ⟨hne, fun c hc => by simpa using List.all_eq_true.mp hall c hc⟩
  have hheaders : ((draftOf meddling (.given "t") " my-cat " greeting
      ⟨false, false, true⟩).request?.map Http.Request.headers) =
        some [("authorization", "Bearer t"), ("content-type", "application/json"),
          ("accept", "text/event-stream, application/json"), ("x-cat", "a"), ("x-cat", "b")] := by
    decide +kernel
  obtain ⟨request, hrequest, hheaders⟩ := Option.map_eq_some_iff.mp hheaders
  obtain ⟨hintact, hpairs⟩ := intact_of_runs meddling " my-cat " greeting ⟨false, false, true⟩
  obtain ⟨requests, twins, report, halike, hfirst, hsecond⟩ :=
    hpairs (.given "t") (.given "u v") (hlegal "t" (by decide) (by decide))
      (hlegal "u v" (by decide) (by decide)) none
  have hmeets := (hfirst requests report).mpr ⟨rfl, rfl⟩
  have hasked : requests = [request] := by
    rw [(meets_execute_iff.mp hmeets).1, asked_of_admitted admitted_greeting, hrequest,
      Option.toList_some]
  subst hasked
  cases halike with
  | cons htwin hrest =>
    cases hrest
    have hmeets' := (hsecond _ report).mpr ⟨rfl, rfl⟩
    have hrequest := hintact _ _ _ request none hmeets (List.mem_singleton_self _)
    have htwin' := hintact _ _ _ _ none hmeets' (List.mem_singleton_self _)
    have hcat := hrequest.configured ("X-Cat", "a") (by decide) (by decide) (by decide)
    exact ⟨request, _, report, hmeets, hmeets', hheaders, hcat, htwin'.bearer_only (by decide),
      htwin⟩

def guarded : Endpoint where
  baseUrl := "http://u:p@127.0.0.1:80/v1"
  accessTokenEnv := "TOKEN"
  timeoutSecs := none
  headers := [("X-Cat", " maru ")]

/-- The client logs the user of the URL in beside the token, and the receiver sees no value with the
spaces at its ends. -/
theorem exists_two_authorizations :
    ∃ request report,
      Meets (execute guarded (.given "t ") " my-cat " greeting ⟨false, false, true⟩) none [request]
        report ∧
      request.valuesOf "authorization" = ["Basic dTpw", "Bearer t "] ∧
      request.valuesSeen "authorization" = ["Basic dTpw", "Bearer t"] ∧
      request.valuesOf "x-cat" = [" maru "] ∧ request.valuesSeen "x-cat" = ["maru"] := by
  have hadmitted : Admitted (.given "t ") " my-cat " greeting :=
    ⟨admitted_greeting.parts, admitted_greeting.slug, by decide⟩
  have hsent : ((draftOf guarded (.given "t ") " my-cat " greeting
      ⟨false, false, true⟩).request?.map fun request =>
        ["authorization", "x-cat"].map fun name =>
          (request.valuesOf name, request.valuesSeen name)) =
      some [(["Basic dTpw", "Bearer t "], ["Basic dTpw", "Bearer t"]),
        ([" maru "], ["maru"])] := by
    decide +kernel
  obtain ⟨request, hrequest, hvalues⟩ := Option.map_eq_some_iff.mp hsent
  simp only [List.map_cons, List.map_nil, List.cons.injEq, Prod.mk.injEq, and_true] at hvalues
  obtain ⟨⟨hauthorization, hbearer⟩, hcat, hseen⟩ := hvalues
  refine ⟨request, _, meets_execute_iff.mpr ⟨?_, rfl⟩, hauthorization, hbearer, hcat, hseen⟩
  rw [asked_of_admitted hadmitted, hrequest, Option.toList_some]

end Run

end Cattery
