import Cattery.Proofs.Replies

namespace Cattery

/-! ## Slugs -/

namespace Slug

structure IsSlug (text : String) : Prop where
  ne_empty : text ≠ ""
  charset : ∀ c ∈ text.toList, ('a' ≤ c ∧ c ≤ 'z') ∨ ('0' ≤ c ∧ c ≤ '9') ∨ c = '-'
  head : text.toList.head? ≠ some '-'
  last : text.toList.getLast? ≠ some '-'

theorem isWordChar_or_hyphen_iff (c : Char) : (isWordChar c || c == '-') = true ↔
    ('a' ≤ c ∧ c ≤ 'z') ∨ ('0' ≤ c ∧ c ≤ '9') ∨ c = '-' := by
  simp [isWordChar, or_assoc]

theorem fault?_eq_none_iff (text : String) : fault? text = none ↔ IsSlug text := by
  rw [fault?, faultOfChars?]
  by_cases hempty : text = ""
  · subst hempty
    exact iff_of_false (by decide) fun h => h.ne_empty rfl
  have hne : text.toList.isEmpty = false := by simpa using hempty
  rw [hne, if_neg Bool.false_ne_true]
  cases hfind : text.toList.find? fun c => !(isWordChar c || c == '-') with
  | some c =>
    refine iff_of_false (by simp) ?_
    intro h
    have hc := (isWordChar_or_hyphen_iff c).mpr (h.charset c (List.mem_of_find?_eq_some hfind))
    have hbad := List.find?_some hfind
    rw [hc] at hbad
    cases hbad
  | none =>
    have hchars : ∀ c ∈ text.toList, ('a' ≤ c ∧ c ≤ 'z') ∨ ('0' ≤ c ∧ c ≤ '9') ∨ c = '-' := by
      intro c hc
      have hgood := List.find?_eq_none.mp hfind c hc
      rw [Bool.not_eq_true, Bool.not_eq_false'] at hgood
      exact (isWordChar_or_hyphen_iff c).mp hgood
    -- what is left of the check is about the hyphens
    simp only [ite_eq_right_iff, reduceCtorEq, imp_false, Bool.or_eq_true, beq_iff_eq, not_or]
    exact ⟨fun h => ⟨hempty, hchars, h.1, h.2⟩, fun h => ⟨h.head, h.last⟩⟩

theorem check_eq_ok_iff {text slug : String} : check text = .ok slug ↔ slug = text ∧ IsSlug text := by
  rw [check, ← fault?_eq_none_iff]
  cases fault? text <;> simp [eq_comm]

theorem exists_check_eq_error {text : String} (h : ¬ IsSlug text) :
    ∃ refusal, check text = .error refusal := by
  rw [check]
  cases hfault : fault? text with
  | none => exact absurd ((fault?_eq_none_iff text).mp hfault) h
  | some fault => exact ⟨_, rfl⟩

end Slug

namespace Run

open Program Slug

/-! ## The parts of a message -/

def Part.content : Part → String
  | .text content => content
  | .image url => url

structure Sendable (parts : List Part) : Prop where
  order : (∃ text, parts = [.text text]) ∨ (∃ url, parts = [.image url]) ∨
    ∃ text url, parts = [.text text, .image url]
  trimmed : ∀ part ∈ parts, Text.trim part.content = part.content ∧ part.content ≠ ""

variable {endpoint : Endpoint} {token : Credential} {slug : String} {input : Input}
  {options : Options}

structure Admitted (token : Credential) (slug : String) (input : Input) : Prop where
  parts : input.parts ≠ []
  slug : IsSlug (Text.trim slug)
  token : token.value ≠ ""

def draftOf (endpoint : Endpoint) (token : Credential) (slug : String) (input : Input)
    (options : Options) : Http.Draft :=
  ({ url := completionsUrl endpoint, headers := headers endpoint token options, body := [] } :
    Http.Draft).withJson (requestBody (modelName (Text.trim slug)) input.parts options)

theorem body_draftOf : (draftOf endpoint token slug input options).body =
    Utf8.encode (requestBody ("cat:" ++ Text.trim slug) input.parts options).compact := by
  rw [draftOf, Http.Draft.withJson, modelName]

theorem prepare_of_admitted (h : Admitted token slug input) :
    prepare endpoint token slug input options = .ok (draftOf endpoint token slug input options) := by
  have hcheck : check (Text.trim slug) = .ok (Text.trim slug) := check_eq_ok_iff.mpr ⟨rfl, h.slug⟩
  have hparts : input.parts.isEmpty = false := by simpa using h.parts
  have htoken : token.isEmpty = false := by simpa [Credential.isEmpty] using h.token
  unfold prepare
  simp only [hcheck, hparts, htoken, Bool.false_eq_true, if_false]
  rfl

theorem prepare_of_not_admitted (h : ¬ Admitted token slug input) :
    ∃ reason, ∀ options,
      prepare endpoint token slug input options = .error (.invalidInput reason) := by
  unfold prepare
  by_cases hparts : input.parts.isEmpty = true
  · exact ⟨_, fun _ => if_pos hparts⟩
  simp only [hparts, Bool.false_eq_true, if_false]
  by_cases hslug : IsSlug (Text.trim slug)
  · have hcheck : check (Text.trim slug) = .ok (Text.trim slug) := check_eq_ok_iff.mpr ⟨rfl, hslug⟩
    have htoken : token.isEmpty = true := by
      by_contra htoken
      exact h ⟨by simpa using hparts, hslug, by simpa [Credential.isEmpty] using htoken⟩
    simp only [hcheck, htoken, if_true]
    exact ⟨_, fun _ => rfl⟩
  · obtain ⟨refusal, hcheck⟩ := exists_check_eq_error hslug
    simp only [hcheck]
    exact ⟨_, fun _ => rfl⟩

theorem ofReply_ne_invalidInput (options : Options) (reply : Option Http.Reply) (reason : String) :
    (Report.ofReply options reply).outcome ≠ .error (.invalidInput reason) := by
  cases reply with
  | none => simp [Report.ofReply]
  | some reply =>
    -- the verdict names a failure for each kind of reply, and none of them is about the input
    have hverdict := verdict_ofReply options reply
    by_cases hstatus : 200 ≤ reply.status ∧ reply.status < 300
    · cases hcomplete : reply.complete with
      | false => simp [hverdict.cut hstatus hcomplete]
      | true =>
        by_cases hstream : NamesStream reply ∧ options.progress = true
        · rcases hverdict.stream hstatus hcomplete hstream with ⟨_, h⟩ | ⟨_, h⟩ | h <;> simp [h]
        · obtain ⟨-, hok, hinvalid⟩ := hverdict.body hstatus hcomplete hstream
          by_cases hread : Json.Readable (Utf8.decodeLossy reply.body).toList
          · obtain ⟨output, h⟩ := hok.mpr hread
            simp [h]
          · simp [hinvalid hread]
    · obtain ⟨-, message, h, -⟩ := hverdict.refused hstatus
      simp [h]

variable {log : List Performed} {report : Report}

/-- An admitted run finds no request to send, or sends one and reads the reply. -/
theorem runs_iff_of_admitted (h : Admitted token slug input) :
    Runs (execute endpoint token slug input options) log report ↔
      ((draftOf endpoint token slug input options).request? = none ∧ log = [] ∧
        report = ⟨.error .transport, []⟩) ∨
      ∃ request reply, (draftOf endpoint token slug input options).request? = some request ∧
        log = [⟨.send request, reply⟩] ∧ report = .ofReply options reply := by
  have hprepare : prepare endpoint token slug input options =
      .ok (draftOf endpoint token slug input options) := prepare_of_admitted h
  rw [runs_execute_iff, hprepare]
  simp only [reduceCtorEq, false_and, exists_false, false_or, Except.ok.injEq, exists_eq_left']

/-- A run that is not admitted does nothing but say why. -/
theorem runs_iff_of_not_admitted (h : ¬ Admitted token slug input) :
    ∃ reason, ∀ log report, Runs (execute endpoint token slug input options) log report ↔
      log = [] ∧ report = ⟨.error (.invalidInput reason), []⟩ := by
  obtain ⟨reason, hprepare⟩ := @prepare_of_not_admitted endpoint _ _ _ h
  refine ⟨reason, fun log report => ?_⟩
  rw [execute_eq_of_error (hprepare options), runs_done_iff]

theorem runs_send_iff (hadmitted : Admitted token slug input) {request : Http.Request}
    (hrequest : (draftOf endpoint token slug input options).request? = some request)
    {reply : Option Http.Reply} :
    Runs (execute endpoint token slug input options) [⟨.send request, reply⟩] report ↔
      report = .ofReply options reply := by
  rw [runs_iff_of_admitted hadmitted]
  constructor
  · rintro (⟨-, hlog, -⟩ | ⟨_, _, -, hlog, hreport⟩)
    · cases hlog
    · cases hlog
      exact hreport
  · intro hreport
    exact Or.inr ⟨request, reply, hrequest, rfl, hreport⟩

def nearby : Endpoint where
  baseUrl := "http://127.0.0.1:80/v1/"
  accessTokenEnv := "TOKEN"
  timeoutSecs := none
  headers := []

def greeting : Input where
  message := " hi "
  imageUrl := some "\n"

theorem admitted_greeting : Admitted (.given "t") " my-cat " greeting where
  parts := by decide +kernel
  slug := (fault?_eq_none_iff _).mp (by decide +kernel)
  token := by decide

theorem exists_request?_greeting :
    ∃ request, (draftOf nearby (.given "t") " my-cat " greeting ⟨false, false, true⟩).request? =
      some request :=
  Option.isSome_iff_exists.mp (by decide +kernel)

end Run

end Cattery
