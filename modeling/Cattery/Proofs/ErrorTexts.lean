import Cattery.Asset.Store
import Cattery.Proofs.Replies

namespace Cattery

/-! ## Candidates -/

namespace Json

def usable? (value : Json) : Option String :=
  value.string?.bind Text.nonBlank?

def eitherOf (first second : String) (value : Json) : List Json :=
  (value.get? first).toList ++ (value.get? second).toList

/-- A candidate without a usable text is taken although there is one with a usable text. -/
def Overshadowed (takes : Json → Bool) (candidates : List Json) : Prop :=
  ∃ taken text, candidates.find? takes = some taken ∧ taken.usable? = none ∧
    candidates.findSome? usable? = some text

/-- The text that is reported: the first usable one, or what stands in for it when there is none,
and also when it is overshadowed. -/
structure Reports (takes : Json → Bool) (candidates : List Json) (otherwise text : String) :
    Prop where
  first : ¬ Overshadowed takes candidates → text = (candidates.findSome? usable?).getD otherwise
  lost : Overshadowed takes candidates → text = otherwise

variable {takes : Json → Bool} {candidates : List Json} {value : Json}

/-- The taken candidate is the first usable one, or it has no text. -/
theorem find?_bind_usable? (h : ∀ value : Json, value.usable?.isSome = true → takes value = true) :
    (candidates.find? takes).bind usable? = candidates.findSome? usable? ∨
      (candidates.find? takes).bind usable? = none := by
  induction candidates with
  | nil => exact Or.inl rfl
  | cons value rest ih =>
    cases hvalue : value.usable? with
    | some text =>
      have htakes : takes value = true := h value (by rw [hvalue, Option.isSome_some])
      rw [List.find?_cons_of_pos htakes, Option.bind_some, List.findSome?_cons, hvalue]
      exact Or.inl rfl
    | none =>
      rw [List.findSome?_cons, hvalue]
      cases htakes : takes value with
      | true =>
        rw [List.find?_cons_of_pos htakes, Option.bind_some, hvalue]
        exact Or.inr rfl
      | false =>
        rw [List.find?_cons_of_neg (Bool.eq_false_iff.mp htakes)]
        exact ih

/-- A reader that takes every usable candidate reports the first one unless it takes another. -/
theorem reports_find? (h : ∀ value : Json, value.usable?.isSome = true → takes value = true)
    (candidates : List Json) (otherwise : String) :
    Reports takes candidates otherwise
      (((candidates.find? takes).bind usable?).getD otherwise) where
  first hclear := by
    rcases @find?_bind_usable? takes candidates h with heq | hnone
    · rw [heq]
    · -- without a text in what is taken there is none anywhere, or it would be overshadowed
      cases hfirst : candidates.findSome? usable? with
      | none => rw [hnone]
      | some text =>
        obtain ⟨value, hmem, hvalue⟩ := List.exists_of_findSome?_eq_some hfirst
        have htaken : (candidates.find? takes).isSome = true := by
          rw [List.find?_isSome]
          exact ⟨value, hmem, h value (by rw [hvalue, Option.isSome_some])⟩
        obtain ⟨taken, htaken⟩ := Option.isSome_iff_exists.mp htaken
        rw [htaken, Option.bind_some] at hnone
        exact absurd ⟨taken, text, htaken, hnone, hfirst⟩ hclear
  lost hover := by
    obtain ⟨taken, text, htaken, hnone, -⟩ := hover
    rw [htaken, Option.bind_some, hnone, Option.getD_none]

theorem not_overshadowed {taken : Json} {text : String}
    (htaken : candidates.find? takes = some taken) (htext : taken.usable? = some text) :
    ¬ Overshadowed takes candidates := by
  rintro ⟨other, _, hother, hnone, -⟩
  rw [htaken] at hother
  obtain rfl := Option.some_inj.mp hother
  rw [htext] at hnone
  cases hnone

def isString (value : Json) : Bool :=
  value.string?.isSome

theorem isString_of_isSome_usable? (h : value.usable?.isSome = true) : value.isString = true := by
  rw [usable?] at h
  rw [isString]
  cases htext : value.string? with
  | none => rw [htext] at h; cases h
  | some text => rfl

theorem find?_isString_bind (candidates : List Json) :
    (candidates.find? isString).bind string? = candidates.findSome? string? := by
  induction candidates with
  | nil => rfl
  | cons value rest ih =>
    rw [List.findSome?_cons]
    cases htext : value.string? with
    | some text =>
      have hstring : value.isString = true := by rw [isString, htext, Option.isSome_some]
      rw [List.find?_cons_of_pos hstring, Option.bind_some, htext]
    | none =>
      have hstring : ¬ value.isString = true := by simp [isString, htext]
      rw [List.find?_cons_of_neg hstring]
      exact ih

theorem findSome?_toList (f : Json → Option String) (found : Option Json) :
    found.toList.findSome? f = found.bind f := by
  cases found with
  | none => rfl
  | some value => cases hvalue : f value <;> simp [hvalue]

theorem findSome?_eitherOf (f : Json → Option String) (first second : String) (value : Json) :
    (value.eitherOf first second).findSome? f =
      ((value.get? first).bind f).or ((value.get? second).bind f) := by
  rw [eitherOf, List.findSome?_append, findSome?_toList, findSome?_toList]

theorem head?_eitherOf (first second : String) (value : Json) :
    (value.eitherOf first second).head? = (value.get? first).or (value.get? second) := by
  rw [eitherOf]
  cases value.get? first <;> cases value.get? second <;> rfl

theorem find?_always (candidates : List Json) :
    candidates.find? (fun _ => true) = candidates.head? := by
  cases candidates <;> rfl

end Json

open Json

/-! ## The three readers -/

/-- JSON text is not blank. -/
theorem Tree.Written.exists_not_blank {tree : Tree} {text : List Char}
    (h : Tree.Written tree text) : ∃ c ∈ text, isBlank c = false := by
  cases h with
  | numeral h =>
    obtain ⟨c, after, rfl, hc⟩ := exists_head_numeral h
    refine ⟨c, List.mem_cons_self, ?_⟩
    rcases hc with rfl | hc
    · rfl
    · exact isBlank_of_isDigit hc
  | _ => exact ⟨_, List.mem_cons_self, rfl⟩

theorem Json.nonBlank?_of_parse? {text : String} {value : Json} (h : parse? text = some value) :
    Text.nonBlank? text = some (Text.trim text) := by
  obtain ⟨tree, hpadded, -⟩ := parse?_eq_some_iff.mp h
  have hblank : ∃ c ∈ text.toList, isBlank c = false := by
    generalize text.toList = chars at hpadded
    cases hpadded with
    | pad _ hwritten _ =>
      obtain ⟨c, hc, hblank⟩ := hwritten.exists_not_blank
      exact ⟨c, List.mem_append_right _ (List.mem_append_left _ hc), hblank⟩
  obtain ⟨c, hc, hblank⟩ := hblank
  rw [Text.nonBlank?_eq_some_iff, ne_eq, Text.trim_eq_empty_iff, Text.isBlank, List.all_eq_true]
  refine ⟨rfl, fun hall => ?_⟩
  rw [hall c hc] at hblank
  cases hblank

theorem bind_usable? (found : Option Json) :
    (found.bind string?).bind Text.nonBlank? = found.bind usable? := by
  cases found <;> rfl

theorem Event.ofJson?_of_error {event : Json} (h : event.text? "type" = some "error") :
    Event.ofJson? event = some (.failure
      ((((event.eitherOf "message" "error").find? fun _ => true).bind usable?).getD
        standardFailure)) := by
  unfold ofJson?
  rw [h, find?_always, head?_eitherOf, ← bind_usable?]
  rfl

namespace Run

def errorCandidates (body : Json) : List Json :=
  ((body.get? "error").bind fun error => error.get? "message").toList ++
    body.eitherOf "error" "message"

theorem reportedError?_eq (body : Json) :
    reportedError? body = ((errorCandidates body).find? isString).bind usable? := by
  rw [← bind_usable?, find?_isString_bind, reportedError?]
  refine congrArg (Option.bind · Text.nonBlank?) ?_
  rw [errorCandidates, List.findSome?_append, findSome?_toList, findSome?_eitherOf]
  cases body.get? "error" with
  | none => rfl
  | some error => exact Option.or_assoc

theorem refusalMessage_eq {text : String} {body : Json} (h : parse? text = some body)
    (status : Nat) : refusalMessage status text =
      (((errorCandidates body).find? isString).bind usable?).getD (Text.trim text) := by
  rw [refusalMessage, h, Option.bind_some, reportedError?_eq, nonBlank?_of_parse? h]
  cases ((errorCandidates body).find? isString).bind usable? <;> rfl

end Run

namespace Asset.BucketStore

def detail (text : String) (body : Json) : String :=
  Text.trim ((((body.eitherOf "message" "error").find? fun _ => true).bind string?).getD text)

theorem failureText_eq {reply : Http.Reply} {body : Json}
    (h : parse? reply.textOrEmpty = some body) : failureText reply =
      "HTTP " ++ toString reply.status ++ ": " ++ detail reply.textOrEmpty body := by
  rw [failureText, h, detail, find?_always, head?_eitherOf]
  rfl

theorem detail_of_blank {body : Json} {blank : String}
    (hfirst : (body.eitherOf "message" "error").head? = some (.string blank))
    (hblank : Text.isBlank blank = true) (text : String) : detail text body = "" := by
  rw [detail, find?_always, hfirst]
  exact (Text.trim_eq_empty_iff blank).mpr hblank

theorem reports_detail {body : Json}
    (h : ∀ text, (body.eitherOf "message" "error").head? = some (.string text) →
      Text.isBlank text = false) (text : String) :
    Reports (fun _ => true) (body.eitherOf "message" "error") (Text.trim text)
      (detail text body) := by
  have hdetail : detail text body =
      (((body.eitherOf "message" "error").find? fun _ => true).bind usable?).getD
        (Text.trim text) := by
    rw [detail, find?_always]
    cases hfirst : (body.eitherOf "message" "error").head? with
    | none => rfl
    | some first =>
      cases first with
      | string named =>
        rw [Option.bind_some, Option.bind_some, usable?, string?, Option.bind_some, Text.nonBlank?,
          h named hfirst]
        rfl
      | null | bool _ | number _ | array _ | object _ => rfl
  rw [hdetail]
  exact reports_find? (fun _ _ => rfl) _ _

end Asset.BucketStore

open Asset BucketStore

/-- The first usable text is reported unless it is overshadowed: by a member of any kind in an event
and in the reply to a store, by a blank string in the reply to a run. A blank string that stands
first in the reply to a store is reported as it is. -/
theorem error_texts (event body : Json) (options : Run.Options) (store : BucketStore)
    (reply : Http.Reply) :
    (event.text? "type" = some "error" → ∃ text,
      Event.ofJson? event = some (.failure text) ∧
      Reports (fun _ => true) (event.eitherOf "message" "error") "pipeline failed" text) ∧
    (reply.isSuccess = false → parse? reply.textOrEmpty = some body →
      (∃ text, (Run.conclude options reply).1 = .error (.http reply.status text) ∧
        Reports isString (Run.errorCandidates body) (Text.trim reply.textOrEmpty) text) ∧
      ∃ detail,
        concludeUpload reply =
          .error (.upload ("HTTP " ++ toString reply.status ++ ": " ++ detail)) ∧
        concludeSign store reply =
          .error (.sign ("HTTP " ++ toString reply.status ++ ": " ++ detail)) ∧
        ((∃ blank, (body.eitherOf "message" "error").head? = some (.string blank) ∧
          Text.isBlank blank = true) → detail = "") ∧
        ((∀ text, (body.eitherOf "message" "error").head? = some (.string text) →
          Text.isBlank text = false) →
          Reports (fun _ => true) (body.eitherOf "message" "error") (Text.trim reply.textOrEmpty)
            detail)) := by
  refine ⟨fun htype => ?_, fun hrefused hbody => ⟨?_, ?_⟩⟩
  · exact ⟨_, Event.ofJson?_of_error htype, reports_find? (fun _ _ => rfl) _ _⟩
  · refine ⟨Run.refusalMessage reply.status reply.textOrEmpty, ?_, ?_⟩
    · rw [Run.conclude, hrefused]
      rfl
    · rw [Run.refusalMessage_eq hbody]
      exact reports_find? (fun _ => isString_of_isSome_usable?) _ _
  · refine ⟨detail reply.textOrEmpty body, ?_, ?_, ?_, ?_⟩
    · rw [concludeUpload, hrefused, failureText_eq hbody]
      rfl
    · rw [concludeSign, hrefused, failureText_eq hbody]
      rfl
    · rintro ⟨blank, hfirst, hblank⟩
      exact detail_of_blank hfirst hblank _
    · intro hfirst
      exact reports_detail hfirst _

def refusedWith (body : Json) : Http.Reply where
  status := 500
  headers := []
  body := Utf8.encode body.compact
  complete := true

def numbered : Json :=
  .object [("error", .object [("message", .ofUInt32 7)]), ("message", .string " busy ")]

def plain : Json :=
  .object [("error", .string " busy "), ("type", .string "error")]

def bare : Run.Options :=
  ⟨false, false, false⟩

def catStore : BucketStore :=
  ⟨"http://127.0.0.1:80/storage/v1", "cat-assets", .given "k"⟩

theorem error_texts_numbered :
    Event.ofJson? plain = some (.failure "busy") ∧
    (Run.conclude bare (refusedWith numbered)).1 = .error (.http 500 "busy") ∧
    concludeUpload (refusedWith plain) = .error (.upload "HTTP 500: busy") ∧
    concludeSign catStore (refusedWith plain) = .error (.sign "HTTP 500: busy") := by
  have htaken : (plain.eitherOf "message" "error").find? (fun _ => true) =
      some (.string " busy ") := by decide +kernel
  have hfirst : (plain.eitherOf "message" "error").findSome? usable? = some "busy" := by
    decide +kernel
  have husable : (Json.string " busy ").usable? = some "busy" := by decide +kernel
  have hplain : parse? (refusedWith plain).textOrEmpty = some plain := by decide +kernel
  have hnumbered : parse? (refusedWith numbered).textOrEmpty = some numbered := by decide +kernel
  have hclear := not_overshadowed htaken husable
  obtain ⟨hevents, hreplies⟩ := error_texts plain plain bare catStore (refusedWith plain)
  obtain ⟨-, hruns⟩ := error_texts plain numbered bare catStore (refusedWith numbered)
  obtain ⟨event, hevent, heventText⟩ := hevents (by decide)
  obtain ⟨message, hmessage, hmessageText⟩ := (hruns rfl hnumbered).1
  obtain ⟨detail, hupload, hsign, -, hdetail⟩ := (hreplies rfl hplain).2
  have heventEq : event = "busy" := by rw [heventText.first hclear, hfirst, Option.getD_some]
  have hmessageEq : message = "busy" := by
    have htaken : (Run.errorCandidates numbered).find? isString = some (.string " busy ") := by
      decide +kernel
    have hfirst : (Run.errorCandidates numbered).findSome? usable? = some "busy" := by
      decide +kernel
    rw [hmessageText.first (not_overshadowed htaken husable), hfirst, Option.getD_some]
  have hdetailEq : detail = "busy" := by
    have hhead : (plain.eitherOf "message" "error").head? = some (.string " busy ") := by
      decide +kernel
    have hreports := hdetail fun named hnamed => by
      rw [hhead] at hnamed
      obtain rfl := Json.string.inj (Option.some_inj.mp hnamed)
      decide
    rw [hreports.first hclear, hfirst, Option.getD_some]
  subst heventEq hmessageEq hdetailEq
  exact ⟨hevent, hmessage, hupload, hsign⟩

def nulled : Json :=
  .object [("error", .string "busy"), ("message", .null), ("type", .string "error")]

def blanked : Json :=
  .object [("error", .object [("message", .string " ")]), ("message", .string "busy")]

/-- A usable text is lost behind a member that is null or blank, and a blank message of a store is
reported in place of the body. -/
theorem error_texts_overshadowed :
    (nulled.eitherOf "message" "error").findSome? usable? = some "busy" ∧
    Event.ofJson? nulled = some (.failure "pipeline failed") ∧
    concludeUpload (refusedWith nulled) = .error (.upload ("HTTP 500: " ++ nulled.compact)) ∧
    (Run.errorCandidates blanked).findSome? usable? = some "busy" ∧
    (∀ options, (Run.conclude options (refusedWith blanked)).1 =
      .error (.http 500 blanked.compact)) ∧
    concludeUpload (refusedWith (.object [("message", .string " ")])) =
      .error (.upload "HTTP 500: ") := by
  refine ⟨by decide +kernel, by decide +kernel, by decide +kernel, by decide +kernel,
    fun options => ?_, by decide +kernel⟩
  have hmessage : Run.refusalMessage 500 (refusedWith blanked).textOrEmpty = blanked.compact := by
    decide +kernel
  exact congrArg (fun text => Except.error (Run.Failure.http 500 text)) hmessage

end Cattery
