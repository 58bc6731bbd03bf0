import Cattery.Proofs.Admission

namespace Cattery

/-! ## Header names -/

namespace Http

theorem toNat_of_isNameChar {c : Char} (h : isNameChar c = true) : 32 < c.toNat ∧ c.toNat < 127 := by
  simp only [isNameChar, Bool.or_eq_true, Bool.and_eq_true, decide_eq_true_eq, beq_iff_eq,
    List.contains_iff_mem] at h
  rcases h with (((⟨hlow, hhigh⟩ | ⟨hlow, hhigh⟩) | ⟨hlow, hhigh⟩) | hmem) | rfl
  · have hlow : 97 ≤ c.toNat := hlow
    have hhigh : c.toNat ≤ 122 := hhigh
    omega
  · have hlow : 65 ≤ c.toNat := hlow
    have hhigh : c.toNat ≤ 90 := hhigh
    omega
  · have hlow : 48 ≤ c.toNat := hlow
    have hhigh : c.toNat ≤ 57 := hhigh
    omega
  · have hmarks : ("!#$%&'*+-.^_|~".toList.all fun c => 32 < c.toNat && c.toNat < 127) = true := by
      decide
    simpa using List.all_eq_true.mp hmarks c hmem
  · decide

theorem isBlank_of_isNameChar {c : Char} (h : isNameChar c = true) : isBlank c = false := by
  obtain ⟨hlow, hhigh⟩ := toNat_of_isNameChar h
  simp [isBlank]
  omega

theorem headerName?_eq_some_iff {text name : String} : headerName? text = some name ↔
    text ≠ "" ∧ (∀ c ∈ text.toList, isNameChar c = true) ∧
      String.ofList (text.toList.map asciiLower) = name := by
  simp [headerName?, and_assoc]

/-- A header name has no white space around it. -/
theorem trim_of_headerName? {text name : String} (h : headerName? text = some name) :
    Chars.trim text.toList = text.toList := by
  obtain ⟨-, hchars, -⟩ := headerName?_eq_some_iff.mp h
  refine (Chars.trim_eq_self_iff _).mpr ⟨?_, ?_⟩
  · exact fun c hc => isBlank_of_isNameChar (hchars c (List.mem_of_mem_head? hc))
  · exact fun c hc => isBlank_of_isNameChar (hchars c (List.mem_of_mem_getLast? hc))

theorem header?_eq_some_iff {name value : String} {header : String × String} :
    header? name value = some header ↔
      (∀ c ∈ value.toList, isValueChar c = true) ∧ headerName? name = some header.1 ∧
        header.2 = value := by
  obtain ⟨sent, kept⟩ := header
  simp only [header?, Option.ite_none_right_eq_some, List.all_eq_true, Option.map_eq_some_iff,
    Prod.mk.injEq, and_congr_right_iff]
  grind

theorem addMissing_of_mem {name value kept : String} {headers : List (String × String)}
    (h : (name, kept) ∈ headers) : addMissing name value headers = headers :=
  if_pos (List.any_eq_true.mpr ⟨(name, kept), h, beq_self_eq_true name⟩)

theorem addMissing_of_not_mem {name value : String} {headers : List (String × String)}
    (h : ∀ header ∈ headers, header.1 ≠ name) :
    addMissing name value headers = headers ++ [(name, value)] := by
  refine if_neg ?_
  rintro hany
  obtain ⟨header, hmem, hname⟩ := List.any_eq_true.mp hany
  exact h header hmem (beq_iff_eq.mp hname)

end Http

theorem exists_of_mem_mapM {α β : Type} {f : α → Option β} {l : List α} {kept : List β} {b : β}
    (h : l.mapM f = some kept) (hb : b ∈ kept) : ∃ a ∈ l, f a = some b := by
  induction l generalizing kept with
  | nil =>
    cases h
    cases hb
  | cons a rest ih =>
    rw [List.mapM_cons] at h
    obtain ⟨first, hfirst, h⟩ := Option.bind_eq_some_iff.mp h
    obtain ⟨others, hothers, h⟩ := Option.bind_eq_some_iff.mp h
    cases h
    rcases List.mem_cons.mp hb with rfl | hb
    · exact ⟨a, List.mem_cons_self, hfirst⟩
    · obtain ⟨a', ha', hsome⟩ := ih hothers hb
      exact ⟨a', List.mem_cons_of_mem a ha', hsome⟩

namespace Run

variable {endpoint : Endpoint} {token : Credential} {slug : String} {input : Input}
  {options : Options} {configured : List (String × String)}

/-! ## Headers -/

theorem isReserved_of_headerName? {text name : String} (h : Http.headerName? text = some name) :
    isReserved text = reservedHeaders.contains name := by
  obtain ⟨-, -, hname⟩ := Http.headerName?_eq_some_iff.mp h
  rw [isReserved, Http.trim_of_headerName? h, hname]

def configured? (endpoint : Endpoint) : Option (List (String × String)) :=
  (endpoint.headers.filter fun (name, _) => !isReserved name).mapM fun (name, value) =>
    Http.header? name value

/-- No configured header takes the place of one that the run sets itself. -/
theorem not_mem_reservedHeaders (h : configured? endpoint = some configured)
    {header : String × String} (hheader : header ∈ configured) : header.1 ∉ reservedHeaders := by
  obtain ⟨⟨name, value⟩, hmem, hsent⟩ := exists_of_mem_mapM h hheader
  obtain ⟨-, hname, -⟩ := Http.header?_eq_some_iff.mp hsent
  have hfree := (List.mem_filter.mp hmem).2
  rw [Bool.not_eq_true', isReserved_of_headerName? hname] at hfree
  intro hreserved
  rw [List.contains_iff_mem.mpr hreserved] at hfree
  cases hfree

theorem filter_configured_eq_nil (h : configured? endpoint = some configured) {name : String}
    (hname : name ∈ reservedHeaders) : (configured.filter fun header => header.1 == name) = [] := by
  rw [List.filter_eq_nil_iff]
  intro header hheader heq
  refine not_mem_reservedHeaders h hheader ?_
  rwa [beq_iff_eq.mp heq]

/-- The headers of a request. A run that asks for progress says what it accepts before the configured
headers, and for any other that is filled in behind them. -/
def sentHeaders (url : Url) (token : Credential) (options : Options)
    (configured : List (String × String)) : List (String × String) :=
  (Http.basic? url).toList ++ Http.bearer token.value :: (Http.contentTypeHeader, Http.jsonType) ::
    if options.progress then
      (Http.acceptHeader, eventStream ++ ", " ++ Http.jsonType) :: configured
    else configured ++ [(Http.acceptHeader, "*/*")]

def addressed? (endpoint : Endpoint) (token : Credential) :
    Option (Url × List (String × String)) := do
  let _ ← Http.header? (Http.bearer token.value).1 (Http.bearer token.value).2
  let configured ← configured? endpoint
  let url ← Url.parse? (completionsUrl endpoint)
  some (url, configured)

theorem configured?_of_addressed? {found : Url × List (String × String)}
    (h : addressed? endpoint token = some found) : configured? endpoint = some found.2 := by
  obtain ⟨_, -, h⟩ := Option.bind_eq_some_iff.mp h
  obtain ⟨configured, hconfigured, h⟩ := Option.bind_eq_some_iff.mp h
  obtain ⟨url, -, h⟩ := Option.bind_eq_some_iff.mp h
  cases h
  exact hconfigured

theorem headers_draftOf :
    (draftOf endpoint token slug input options).headers = headers endpoint token options := by
  have hnamed : ((headers endpoint token options).any fun (name, _) =>
      Http.headerName? name == some Http.contentTypeHeader) = true :=
    List.any_eq_true.mpr ⟨("Content-Type", Http.jsonType), by simp [headers], by decide⟩
  simp only [draftOf, Http.Draft.withJson, hnamed, if_true]

theorem eq_bearer_of_header? {secret : String} {sent : String × String}
    (h : Http.header? (Http.bearer secret).1 (Http.bearer secret).2 = some sent) :
    sent = Http.bearer secret := by
  obtain ⟨-, hname, hvalue⟩ := Http.header?_eq_some_iff.mp h
  have hlower : Http.headerName? "authorization" = some "authorization" := by decide
  exact Prod.ext (Option.some_inj.mp (hname.symm.trans hlower)) hvalue

/-- The headers of a draft are well formed if the token and the configured ones are. -/
theorem mapM_headers : ((headers endpoint token options).mapM fun (name, value) =>
    Http.header? name value) =
      (Http.header? (Http.bearer token.value).1 (Http.bearer token.value).2).bind fun _ =>
        (configured? endpoint).map fun configured =>
          Http.bearer token.value :: (Http.contentTypeHeader, Http.jsonType) ::
            ((if options.progress then [(Http.acceptHeader, eventStream ++ ", " ++ Http.jsonType)]
              else []) ++ configured) := by
  have htype : Http.header? "Content-Type" Http.jsonType =
      some (Http.contentTypeHeader, Http.jsonType) := by decide
  have haccept : Http.header? "Accept" (eventStream ++ ", " ++ Http.jsonType) =
      some (Http.acceptHeader, eventStream ++ ", " ++ Http.jsonType) := by decide
  rw [headers, List.mapM_append, List.mapM_append, ← configured?]
  -- of the run's own headers only the one with the token can be malformed
  cases hbearer : Http.header? (Http.bearer token.value).1 (Http.bearer token.value).2 with
  | none => simp [List.mapM_cons, hbearer]
  | some sent =>
    obtain rfl : sent = Http.bearer token.value := eq_bearer_of_header? hbearer
    cases hprogress : options.progress <;> cases hconfigured : configured? endpoint <;>
      simp [List.mapM_cons, hbearer, htype, haccept]

theorem fst_of_mem_basic? {url : Url} {header : String × String}
    (h : header ∈ (Http.basic? url).toList) : header.1 = "authorization" := by
  rw [Option.mem_toList, Http.basic?, Option.map_eq_some_iff] at h
  obtain ⟨user, -, rfl⟩ := h
  rfl

theorem filter_basic? (url : Url) (name : String) :
    ((Http.basic? url).toList.filter fun header => header.1 == name) =
      if name = "authorization" then (Http.basic? url).toList else [] := by
  split
  · rename_i hname
    subst hname
    exact List.filter_eq_self.mpr fun header hheader =>
      beq_iff_eq.mpr (fst_of_mem_basic? hheader)
  · rename_i hname
    refine List.filter_eq_nil_iff.mpr fun header hheader heq => hname ?_
    rw [← beq_iff_eq.mp heq, fst_of_mem_basic? hheader]

/-- What is accepted is said once. -/
theorem completed_eq (h : configured? endpoint = some configured) (url : Url) :
    Http.completed url
        (Http.bearer token.value :: (Http.contentTypeHeader, Http.jsonType) ::
          ((if options.progress then [(Http.acceptHeader, eventStream ++ ", " ++ Http.jsonType)]
            else []) ++ configured)) =
      sentHeaders url token options configured := by
  rw [sentHeaders, Http.completed]
  cases options.progress with
  | true =>
    rw [if_pos rfl, if_pos rfl, List.singleton_append]
    exact Http.addMissing_of_mem (List.mem_append_right _
      (List.mem_cons_of_mem _ (List.mem_cons_of_mem _ List.mem_cons_self)))
  | false =>
    rw [if_neg Bool.false_ne_true, if_neg Bool.false_ne_true, List.nil_append,
      Http.addMissing_of_not_mem, List.append_assoc, List.cons_append, List.cons_append]
    intro header hheader
    rcases List.mem_append.mp hheader with hheader | hheader
    · rw [fst_of_mem_basic? hheader]
      decide
    rcases List.mem_cons.mp hheader with rfl | hheader
    · exact (by decide : "authorization" ≠ "accept")
    rcases List.mem_cons.mp hheader with rfl | hheader
    · decide
    · intro haccept
      refine not_mem_reservedHeaders h hheader ?_
      rw [haccept]
      decide

/-- The switches do not decide on whether there is a request, and in it on nothing but what it
accepts and its body. -/
theorem request?_draftOf : (draftOf endpoint token slug input options).request? =
    (addressed? endpoint token).map fun (url, configured) =>
      { url
        headers := sentHeaders url token options configured
        body := Utf8.encode
          (requestBody ("cat:" ++ Text.trim slug) input.parts options).compact } := by
  rw [Http.Draft.request?, headers_draftOf, mapM_headers, body_draftOf, addressed?]
  cases Http.header? (Http.bearer token.value).1 (Http.bearer token.value).2 with
  | none => rfl
  | some sent =>
    cases hconfigured : configured? endpoint with
    | none => rfl
    | some configured =>
      cases hurl : Url.parse? (completionsUrl endpoint) with
      | none => simp [draftOf, Http.Draft.withJson, hurl]
      | some url =>
        simp [draftOf, Http.Draft.withJson, hurl, completed_eq hconfigured]

/-! ## Admitted runs -/

theorem asked_of_admitted (h : Admitted token slug input) :
    asked endpoint token slug input options =
      (draftOf endpoint token slug input options).request?.toList := by
  rw [asked, prepare_of_admitted h]

theorem reported_of_admitted (h : Admitted token slug input) (reply : Option Http.Reply) :
    reported endpoint token slug input options reply =
      .ofReply options ((draftOf endpoint token slug input options).request?.bind fun _ => reply) := by
  rw [reported, prepare_of_admitted h]

/-! ## Requests for progress -/

/-- Two requests of which one asks for progress: to one address, with the same headers besides what
they accept, and with bodies that differ in one member. -/
structure Twin (asked plain : Http.Request) : Prop where
  url : asked.url = plain.url
  headers : asked.headers.filter (fun header => header.1 != Http.acceptHeader) =
    plain.headers.filter fun header => header.1 != Http.acceptHeader
  accept : (asked.headers.filter fun header => header.1 == Http.acceptHeader) =
    [(Http.acceptHeader, eventStream ++ ", " ++ Http.jsonType)]
  accept_plain : (plain.headers.filter fun header => header.1 == Http.acceptHeader) =
    [(Http.acceptHeader, "*/*")]
  body : ∃ before after : List (String × Json),
    "progress_updates" ∉ (before ++ after).map Prod.fst ∧
    asked.body =
      Utf8.encode (Json.object (before ++ ("progress_updates", .bool true) :: after)).compact ∧
    plain.body =
      Utf8.encode (Json.object (before ++ ("progress_updates", .bool false) :: after)).compact

/-- The body has one member that asks for progress. -/
theorem exists_requestBody_eq (model : String) (parts : List Part) (draft debug : Bool) :
    ∃ before after, "progress_updates" ∉ (before ++ after).map Prod.fst ∧
      ∀ progress, requestBody model parts ⟨draft, debug, progress⟩ =
        .object (before ++ ("progress_updates", .bool progress) :: after) := by
  refine ⟨[("model", .string model), ("stream", .bool false), ("cat_draft", .bool draft),
    ("debug_pipeline", .bool debug)], [("messages", .array [
      .object [("role", .string "user"), ("content", .array (parts.map Part.toJson))]])], ?_, ?_⟩
  · exact (by decide : "progress_updates" ∉
      ["model", "stream", "cat_draft", "debug_pipeline", "messages"])
  · exact fun _ => rfl

theorem twin_sentHeaders {url : Url} {configured : List (String × String)}
    (h : configured? endpoint = some configured) (token : Credential) (model : String)
    (parts : List Part) (draft debug : Bool) :
    Twin
      { url
        headers := sentHeaders url token ⟨draft, debug, true⟩ configured
        body := Utf8.encode (requestBody model parts ⟨draft, debug, true⟩).compact }
      { url
        headers := sentHeaders url token ⟨draft, debug, false⟩ configured
        body := Utf8.encode (requestBody model parts ⟨draft, debug, false⟩).compact } := by
  have hbearer : ((Http.bearer token.value).1 == Http.acceptHeader) = false :=
    (by decide : ("authorization" == "accept") = false)
  have htype : (Http.contentTypeHeader == Http.acceptHeader) = false := by decide
  have hconfigured : (configured.filter fun header => header.1 == Http.acceptHeader) = [] :=
    filter_configured_eq_nil h (by decide)
  have huser : ((Http.basic? url).toList.filter fun header => header.1 == Http.acceptHeader) =
      [] := by
    rw [filter_basic?, if_neg (by decide)]
  refine ⟨rfl, ?_, ?_, ?_, ?_⟩
  · simp [sentHeaders, bne, hbearer, htype]
  · simp [sentHeaders, hbearer, htype, hconfigured, huser]
  · simp [sentHeaders, hbearer, htype, hconfigured, huser]
  · obtain ⟨before, after, hnew, hbody⟩ := exists_requestBody_eq model parts draft debug
    exact ⟨before, after, hnew, by rw [hbody], by rw [hbody]⟩

theorem forall₂_twin_asked (endpoint : Endpoint) (token : Credential) (slug : String)
    (input : Input) (draft debug : Bool) :
    List.Forall₂ Twin (asked endpoint token slug input ⟨draft, debug, true⟩)
      (asked endpoint token slug input ⟨draft, debug, false⟩) := by
  by_cases hadmitted : Admitted token slug input
  · rw [asked_of_admitted hadmitted, asked_of_admitted hadmitted, request?_draftOf, request?_draftOf]
    cases hfound : addressed? endpoint token with
    | none => exact .nil
    | some found =>
      rw [Option.map_some, Option.map_some, Option.toList_some, Option.toList_some]
      refine .cons ?_ .nil
      exact twin_sentHeaders (configured?_of_addressed? hfound) token
        ("cat:" ++ Text.trim slug) input.parts draft debug
  · obtain ⟨reason, hprepare⟩ := @prepare_of_not_admitted endpoint _ _ _ hadmitted
    rw [asked, asked, hprepare, hprepare]
    exact .nil

end Run

end Cattery
