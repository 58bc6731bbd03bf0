import Cattery.Proofs.Directories
import Cattery.Proofs.UrlSegments

/-! Buckets behind HTTP. A path is put behind the URL of a bucket as it is, so it is read twice: by
the components of its names before anything is sent, and as a part of a URL by whoever sends the
request. Where both readings agree the object lies in the bucket, and paths with different components
lead to different objects. -/

namespace Cattery

/-! ## Requests to a URL -/

namespace Http.Draft

def sentTo? (draft : Draft) (url : Url) : Option Request :=
  (draft.headers.mapM fun header => header? header.1 header.2).map fun headers =>
    { url, headers := completed url headers, body := draft.body }

theorem request?_eq_sentTo? {draft : Draft} {url : Url} (h : Url.parse? draft.url = some url) :
    draft.request? = draft.sentTo? url := by
  have hrequest : draft.request? =
      (draft.headers.mapM fun header => header? header.1 header.2).bind fun headers =>
        (Url.parse? draft.url).bind fun url =>
          some { url, headers := completed url headers, body := draft.body } := rfl
  rw [hrequest, h, sentTo?]
  cases draft.headers.mapM fun header => header? header.1 header.2 <;> rfl

end Http.Draft

namespace Asset

open Program

variable {α : Type}

/-- The runs of a program that sends one request and reads the reply. Nothing is sent when a header
is malformed, so that there is no request. -/
inductive Posts (request? : Option Http.Request) (conclude : Http.Reply → Except Failure α) :
    List Performed → Except Failure α → Prop
  | unsent (h : request? = none) : Posts request? conclude [] (.error .http)
  | unanswered (request : Http.Request) (h : request? = some request) :
      Posts request? conclude [⟨.send request, none⟩] (.error .http)
  | answered (request : Http.Request) (reply : Http.Reply) (h : request? = some request) :
      Posts request? conclude [⟨.send request, some reply⟩] (conclude reply)

def concluded (conclude : Http.Reply → Except Failure α) :
    Option Http.Reply → Except Failure α
  | none => .error .http
  | some reply => conclude reply

theorem runs_exchange_iff {draft : Http.Draft} {conclude : Http.Reply → Except Failure α}
    {log : List Performed} {result : Except Failure α} :
    Runs ((exchange draft).andThen fun reply => .done (concluded conclude reply)) log result ↔
      Posts draft.request? conclude log result := by
  rw [runs_andThen_done_iff, exchange]
  -- a draft that is no request is not sent, and counts as one without a reply
  cases hrequest : draft.request? with
  | none =>
    constructor
    · rintro ⟨reply, hruns, rfl⟩
      obtain ⟨rfl, rfl⟩ := runs_done_iff.mp hruns
      exact .unsent rfl
    · intro hposts
      cases hposts with
      | unsent h => exact ⟨none, .done none, rfl⟩
      | unanswered request h | answered request reply h => cases h
  | some request =>
    constructor
    · rintro ⟨reply, hruns, rfl⟩
      obtain ⟨answer, rest, rfl, hrest⟩ := runs_act_iff.mp hruns
      obtain ⟨rfl, rfl⟩ := runs_done_iff.mp hrest
      cases reply with
      | none => exact .unanswered request rfl
      | some reply => exact .answered request reply rfl
    · intro hposts
      cases hposts with
      | unsent h => cases h
      | unanswered request h =>
        cases h
        exact ⟨none, .act none (.done none), rfl⟩
      | answered request reply h =>
        cases h
        exact ⟨some reply, .act (some reply) (.done (some reply)), rfl⟩

namespace BucketStore

variable {store : BucketStore} {path : String} {base : Url} {log : List Performed}

theorem runs_upload_iff {content : List UInt8} {contentType : String}
    {result : Except Failure Unit} (h : checkPath path = .ok ()) :
    Runs (store.upload path content contentType) log result ↔
      Posts (store.uploadDraft path content contentType).request? concludeUpload log result := by
  have hprogram : store.upload path content contentType =
      (exchange (store.uploadDraft path content contentType)).andThen fun reply =>
        .done (concluded concludeUpload reply) := by
    rw [upload, h]
    refine congrArg (andThen _) (funext fun reply => ?_)
    cases reply <;> rfl
  rw [hprogram, runs_exchange_iff]

theorem runs_signedUrl_iff {ttlSecs : UInt64} {result : Except Failure String}
    (h : checkPath path = .ok ()) : Runs (store.signedUrl path ttlSecs) log result ↔
      Posts (store.signDraft path ttlSecs).request? store.concludeSign log result := by
  have hprogram : store.signedUrl path ttlSecs =
      (exchange (store.signDraft path ttlSecs)).andThen fun reply =>
        .done (concluded store.concludeSign reply) := by
    rw [signedUrl, h]
    refine congrArg (andThen _) (funext fun reply => ?_)
    cases reply <;> rfl
  rw [hprogram, runs_exchange_iff]

/-! ## Where requests lead -/

/-- A store whose storage has a URL, without query or fragment, and whose bucket has a plain name.
The URL is read with the slash that is put behind it. -/
structure Rooted (store : BucketStore) (base : Url) : Prop where
  unmarked : ∀ c ∈ store.baseUrl.toList, c ≠ '?' ∧ c ≠ '#'
  parse : Url.parse? (store.baseUrl ++ "/") = some base
  bucket : ∀ c ∈ store.bucket.toList, c ∈ Url.labelChars

def objectLabels (store : BucketStore) : List (List Char) :=
  ["object".toList, store.bucket.toList]

def signLabels (store : BucketStore) : List (List Char) :=
  ["object".toList, "sign".toList, store.bucket.toList]

theorem objectUrl_eq (store : BucketStore) (path : String) : store.objectUrl path =
    store.baseUrl ++ "/" ++ (String.ofList (Url.spelled store.objectLabels) ++ path) := by
  rw [objectUrl, ← String.toList_inj]
  simp [Url.spelled, objectLabels]

theorem signUrl_eq (store : BucketStore) (path : String) : store.signUrl path =
    store.baseUrl ++ "/" ++ (String.ofList (Url.spelled store.signLabels) ++ path) := by
  rw [signUrl, ← String.toList_inj]
  simp [Url.spelled, signLabels]

def objectAt (store : BucketStore) (base : Url) (path : String) : Url :=
  base.behind (String.ofList (Url.spelled store.objectLabels) ++ path)

def signAt (store : BucketStore) (base : Url) (path : String) : Url :=
  base.behind (String.ofList (Url.spelled store.signLabels) ++ path)

section Rooted

variable (hrooted : Rooted store base)
include hrooted

theorem Rooted.plain_bucket : ∀ c ∈ store.bucket.toList, Url.Plain c :=
  fun c hc => Url.plain_of_mem_labelChars (hrooted.bucket c hc)

theorem Rooted.plain_objectLabels : ∀ label ∈ store.objectLabels, ∀ c ∈ label, Url.Plain c := by
  have hobject : "object".toList ⊆ Url.labelChars := by decide
  rw [objectLabels, List.forall_mem_cons, List.forall_mem_singleton]
  exact ⟨fun c hc => Url.plain_of_mem_labelChars (hobject hc), hrooted.plain_bucket⟩

theorem Rooted.plain_signLabels : ∀ label ∈ store.signLabels, ∀ c ∈ label, Url.Plain c := by
  have hobject : "object".toList ⊆ Url.labelChars := by decide
  have hsign : "sign".toList ⊆ Url.labelChars := by decide
  rw [signLabels, List.forall_mem_cons, List.forall_mem_cons, List.forall_mem_singleton]
  exact ⟨fun c hc => Url.plain_of_mem_labelChars (hobject hc),
    fun c hc => Url.plain_of_mem_labelChars (hsign hc), hrooted.plain_bucket⟩

theorem Rooted.request?_uploadDraft (path : String) (content : List UInt8) (contentType : String) :
    (store.uploadDraft path content contentType).request? =
      (store.uploadDraft path content contentType).sentTo? (store.objectAt base path) := by
  refine Http.Draft.request?_eq_sentTo? ?_
  rw [uploadDraft, objectUrl_eq, Url.parse?_append hrooted.unmarked hrooted.parse, objectAt]

theorem Rooted.request?_signDraft (path : String) (ttlSecs : UInt64) :
    (store.signDraft path ttlSecs).request? =
      (store.signDraft path ttlSecs).sentTo? (store.signAt base path) := by
  refine Http.Draft.request?_eq_sentTo? ?_
  rw [signDraft, Http.Draft.withJson, signUrl_eq, Url.parse?_append hrooted.unmarked hrooted.parse,
    signAt]

theorem Rooted.path_objectAt (hlevel : Url.Level (Url.segments path.toList)) :
    (store.objectAt base path).path =
      base.path.dropLast ++ "object" :: store.bucket :: Url.added path := by
  rw [objectAt, Url.path_behind_spelled hrooted.plain_objectLabels hlevel]
  simp [objectLabels]

theorem Rooted.path_signAt (hlevel : Url.Level (Url.segments path.toList)) :
    (store.signAt base path).path =
      base.path.dropLast ++ "object" :: "sign" :: store.bucket :: Url.added path := by
  rw [signAt, Url.path_behind_spelled hrooted.plain_signLabels hlevel]
  simp [signLabels]

theorem Rooted.query_objectAt (path : String) :
    (store.objectAt base path).query = (base.behind path).query := by
  rw [objectAt, Url.query_behind_spelled hrooted.plain_objectLabels]

theorem Rooted.query_signAt (path : String) :
    (store.signAt base path).query = (base.behind path).query := by
  rw [signAt, Url.query_behind_spelled hrooted.plain_signLabels]

end Rooted

/-! ## Components and segments -/

section Components

variable {path' : String}

/-- The components of a path of names come from its pieces. -/
theorem parts_eq_filterMap (h : Resolves path) : Path.parts path =
    (splitOn '/' path.toList).filterMap (Path.component? ∘ String.ofList) := by
  rw [Path.parts, h.exists_names.1, List.nil_append, Path.pieces, List.filterMap_map]

/-- No segment of an accepted path goes up where a URL spells the path as it is. -/
theorem level_segments (h : Resolves path) (hverbatim : Url.Verbatim path.toList) :
    Url.Level (Url.segments path.toList) := by
  rw [hverbatim.segments_eq]
  intro segment hsegment
  rw [← Bool.not_eq_true, Url.isDoubleDot_iff (hverbatim.unencoded_of_mem hsegment)]
  rintro rfl
  have hparent : Path.Component.parent ∈ Path.parts path := by
    rw [parts_eq_filterMap h]
    exact List.mem_filterMap.mpr ⟨['.', '.'], hsegment, rfl⟩
  cases h.isNormal _ hparent

/-- The segments that are filled are those that are components. -/
theorem filterMap_filter_isFilled (hverbatim : Url.Verbatim path.toList) :
    ((splitOn '/' path.toList).filter Url.isFilled).filterMap (Path.component? ∘ String.ofList) =
      (splitOn '/' path.toList).filterMap (Path.component? ∘ String.ofList) := by
  rw [List.filterMap_filter]
  refine List.filterMap_congr fun segment hsegment => ?_
  have hplain := hverbatim.unencoded_of_mem hsegment
  by_cases hfilled : Url.isFilled segment = true
  · rw [if_pos hfilled]
  · rw [if_neg hfilled]
    have hvoid : segment = [] ∨ segment = ['.'] := by
      rw [Url.isFilled, Bool.not_eq_true', Bool.not_eq_false, Bool.or_eq_true, List.isEmpty_iff,
        Url.isSingleDot_iff hplain] at hfilled
      exact hfilled
    rcases hvoid with rfl | rfl <;> rfl

/-- An accepted path adds more than empty segments, because it has a name. -/
theorem exists_mem_added_ne (h : Resolves path) (hverbatim : Url.Verbatim path.toList) :
    ∃ name ∈ Url.added path, name ≠ "" := by
  obtain ⟨-, name, names, hparts⟩ := h.exists_names
  have hfilled : (splitOn '/' path.toList).filter Url.isFilled ≠ [] := by
    intro hnothing
    rw [parts_eq_filterMap h, ← filterMap_filter_isFilled hverbatim, hnothing] at hparts
    cases hparts
  have hkept : (Url.resolve [] (Url.segments path.toList)).filter (fun name => !name.isEmpty) ≠
      [] := by
    rw [Url.filter_resolve (level_segments h hverbatim), hverbatim.segments_eq, ne_eq,
      List.map_eq_nil_iff]
    exact hfilled
  obtain ⟨chars, hchars⟩ := List.exists_mem_of_ne_nil _ hkept
  obtain ⟨hmem, hne⟩ := List.mem_filter.mp hchars
  exact ⟨String.ofList chars, List.mem_map_of_mem hmem, by simpa using hne⟩

/-- Paths that add the same segments to a URL have the same components. -/
theorem parts_eq_of_added_eq (h : Resolves path) (h' : Resolves path')
    (hverbatim : Url.Verbatim path.toList) (hverbatim' : Url.Verbatim path'.toList)
    (heq : Url.added path' = Url.added path) : Path.parts path' = Path.parts path := by
  -- empty segments mean nothing in a path, and the others tell the filled ones
  have hresolved : Url.resolve [] (Url.segments path'.toList) =
      Url.resolve [] (Url.segments path.toList) :=
    (List.map_inj_right fun _ _ => String.ofList_inj.mp).mp heq
  have hescaped :
      ((Url.segments path'.toList).filter Url.isFilled).map (Url.escape Url.isPathSpecial) =
        ((Url.segments path.toList).filter Url.isFilled).map (Url.escape Url.isPathSpecial) := by
    rw [← Url.filter_resolve (level_segments h' hverbatim'),
      ← Url.filter_resolve (level_segments h hverbatim), hresolved]
  rw [hverbatim.segments_eq, hverbatim'.segments_eq] at hescaped
  have hfilled := Url.map_escape_inj
    (fun segment hsegment => hverbatim'.unencoded_of_mem (List.mem_of_mem_filter hsegment))
    (fun segment hsegment => hverbatim.unencoded_of_mem (List.mem_of_mem_filter hsegment)) hescaped
  rw [parts_eq_filterMap h', parts_eq_filterMap h, ← filterMap_filter_isFilled hverbatim', hfilled,
    filterMap_filter_isFilled hverbatim]

/-- The text of the target tells the segments of the path. -/
theorem Rooted.added_eq_of_target_eq (hrooted : Rooted store base) (h : Resolves path)
    (h' : Resolves path') (hverbatim : Url.Verbatim path.toList)
    (hverbatim' : Url.Verbatim path'.toList)
    (htarget : (store.objectAt base path').target = (store.objectAt base path).target) :
    Url.added path' = Url.added path := by
  have hlevel := level_segments h hverbatim
  have hlevel' := level_segments h' hverbatim'
  have hpath : (store.objectAt base path).path =
      (base.path.dropLast ++ ["object", store.bucket]) ++ Url.added path := by
    rw [hrooted.path_objectAt hlevel, List.append_assoc]
    rfl
  have hpath' : (store.objectAt base path').path =
      (base.path.dropLast ++ ["object", store.bucket]) ++ Url.added path' := by
    rw [hrooted.path_objectAt hlevel', List.append_assoc]
    rfl
  refine Url.eq_of_target_eq hpath' hpath (by simp) (Url.added_ne_nil hlevel')
    (Url.added_ne_nil hlevel) (fun name hname => (Url.mem_added hlevel' hname).1)
    (fun name hname => (Url.mem_added hlevel hname).1) ?_ ?_ htarget
  · rw [hrooted.query_objectAt, hverbatim'.query_behind]
  · rw [hrooted.query_objectAt, hverbatim.query_behind]

end Components

/-! ## Objects of a bucket -/

/-- Every accepted path is posted to one URL, which has a query exactly if a question mark stands
before the first number sign of the path. The URL lies in the bucket when no segment goes up, also
in hexadecimal, and the URL of the request to sign it lies at the same place below `sign`. Paths
that a URL spells as they are lead to a name there, and have different targets unless they have the
same components. -/
theorem runs_in_bucket (hrooted : Rooted store base) (hpath : Resolves path) :
    (∀ content contentType log result,
      Runs (store.upload path content contentType) log result ↔
        Posts ((store.uploadDraft path content contentType).sentTo? (store.objectAt base path))
          concludeUpload log result) ∧
    (∀ ttlSecs log result,
      Runs (store.signedUrl path ttlSecs) log result ↔
        Posts ((store.signDraft path ttlSecs).sentTo? (store.signAt base path))
          store.concludeSign log result) ∧
    ((store.objectAt base path).query = none ↔ '?' ∉ path.toList.takeWhile (· != '#')) ∧
    (Url.Level (Url.segments path.toList) → Url.added path ≠ [] ∧
      (∀ name ∈ Url.added path, '/' ∉ name.toList ∧ name ≠ "." ∧ name ≠ "..") ∧
      store.objectAt base path = { base with
        path := base.path.dropLast ++ "object" :: store.bucket :: Url.added path
        query := (store.objectAt base path).query } ∧
      store.signAt base path = { base with
        path := base.path.dropLast ++ "object" :: "sign" :: store.bucket :: Url.added path
        query := (store.objectAt base path).query }) ∧
    (Url.Verbatim path.toList → Url.Level (Url.segments path.toList) ∧
      (∃ name ∈ Url.added path, name ≠ "") ∧
      ∀ path', Resolves path' → Url.Verbatim path'.toList →
        (store.objectAt base path').target = (store.objectAt base path).target →
          Path.parts path' = Path.parts path) := by
  have hcheck := (checkPath_eq_ok_iff path).mpr hpath
  refine ⟨fun content contentType log result => ?_, fun ttlSecs log result => ?_, ?_, ?_, ?_⟩
  · rw [runs_upload_iff hcheck, hrooted.request?_uploadDraft]
  · rw [runs_signedUrl_iff hcheck, hrooted.request?_signDraft]
  · rw [hrooted.query_objectAt, Url.query_behind_eq_none_iff]
  · intro hlevel
    refine ⟨Url.added_ne_nil hlevel, fun name => Url.mem_added hlevel, ?_, ?_⟩
    · exact Url.behind_eq (hrooted.path_objectAt hlevel) rfl
    · exact Url.behind_eq (hrooted.path_signAt hlevel)
        ((hrooted.query_signAt path).trans (hrooted.query_objectAt path).symm)
  · intro hverbatim
    refine ⟨level_segments hpath hverbatim, exists_mem_added_ne hpath hverbatim,
      fun path' hpath' hverbatim' htarget => ?_⟩
    exact parts_eq_of_added_eq hpath hpath' hverbatim hverbatim'
      (hrooted.added_eq_of_target_eq hpath hpath' hverbatim hverbatim' htarget)

def shelter : BucketStore :=
  { baseUrl := "http://localhost/storage/v1", bucket := "cat-assets", key := .given "k" }

def shelterUrl : Url :=
  { secure := false, login := none, host := "localhost", portNumber := none
    path := ["storage", "v1", ""], query := none }

theorem rooted_shelter : Rooted shelter shelterUrl where
  unmarked := by
    have hall : (shelter.baseUrl.toList.all fun c => c != '?' && c != '#') = true := by
      decide +kernel
    intro c hc
    simpa using List.all_eq_true.mp hall c hc
  parse := by decide +kernel
  bucket := by
    have hall : shelter.bucket.toList.all Url.labelChars.contains = true := by decide +kernel
    exact fun c hc => List.contains_iff_mem.mp (List.all_eq_true.mp hall c hc)

/-- A space in a path is escaped; a percent sign that no digits follow stays. -/
theorem runs_in_bucket_spaced :
    (∀ content contentType log result,
      Runs (shelter.upload "tom/a cat/50%.png" content contentType) log result ↔
        Posts ((shelter.uploadDraft "tom/a cat/50%.png" content contentType).sentTo?
          { shelterUrl with
            path := ["storage", "v1", "object", "cat-assets", "tom", "a%20cat", "50%.png"] })
          concludeUpload log result) ∧
    ∀ path, Resolves path → Url.Verbatim path.toList →
      (shelter.objectAt shelterUrl path).target =
        "/storage/v1/object/cat-assets/tom/a%20cat/50%.png" →
      Path.parts path = [.normal "tom", .normal "a cat", .normal "50%.png"] := by
  have hresolves : Resolves "tom/a cat/50%.png" := ⟨by decide +kernel, by decide +kernel⟩
  have hverbatim : Url.Verbatim "tom/a cat/50%.png".toList := by
    have hall : ("tom/a cat/50%.png".toList.all fun c =>
        c != '?' && c != '#' && c != '\\' && !Url.isBreak c) = true := by decide +kernel
    have hlast : "tom/a cat/50%.png".toList.getLast? = some 'g' := by decide +kernel
    refine ⟨fun c hc => ?_, fun c hc => ?_, by decide +kernel⟩
    · simpa [and_assoc] using List.all_eq_true.mp hall c hc
    · rw [hlast] at hc
      obtain rfl : 'g' = c := Option.some_inj.mp hc
      decide
  have hobject : shelter.objectAt shelterUrl "tom/a cat/50%.png" = { shelterUrl with
      path := ["storage", "v1", "object", "cat-assets", "tom", "a%20cat", "50%.png"] } := by
    decide +kernel
  obtain ⟨hupload, -, -, -, happart⟩ := runs_in_bucket rooted_shelter hresolves
  have hparts : Path.parts "tom/a cat/50%.png" =
      [.normal "tom", .normal "a cat", .normal "50%.png"] := by decide +kernel
  have htarget : (shelter.objectAt shelterUrl "tom/a cat/50%.png").target =
      "/storage/v1/object/cat-assets/tom/a%20cat/50%.png" := by decide +kernel
  rw [hobject] at hupload
  refine ⟨hupload, fun path hpath hplain heq => ?_⟩
  rw [← hparts]
  exact (happart hverbatim).2.2 path hpath hplain (heq.trans htarget.symm)

def PostsTo (store : BucketStore) (path target : String) : Prop :=
  ∃ request, Runs (store.upload path [] "image/png") [⟨.send request, none⟩] (.error .http) ∧
    request.url.target = target

theorem postsTo_shelter {target : String} (h : checkPath path = .ok ())
    (htarget : (shelter.objectAt shelterUrl path).target = target) :
    PostsTo shelter path target := by
  have hwritten : ((shelter.keyHeaders ++
      [("Content-Type", "image/png"), ("x-upsert", "true")]).mapM
        fun header => Http.header? header.1 header.2).isSome = true := by decide +kernel
  obtain ⟨headers, hheaders⟩ := Option.isSome_iff_exists.mp hwritten
  let request : Http.Request :=
    { url := shelter.objectAt shelterUrl path
      headers := Http.completed (shelter.objectAt shelterUrl path) headers
      body := [] }
  have hrequest : (shelter.uploadDraft path [] "image/png").request? = some request := by
    rw [rooted_shelter.request?_uploadDraft, Http.Draft.sentTo?, uploadDraft, hheaders]
    rfl
  exact ⟨request, (runs_upload_iff h).mpr (.unanswered request hrequest), htarget⟩

/-- Accepted paths may leave the bucket, add a query, or share a target with other paths. -/
theorem postsTo_shelter_astray :
    PostsTo shelter "%2e%2e/x.png" "/storage/v1/object/x.png" ∧
    PostsTo shelter "a?b.png" "/storage/v1/object/cat-assets/a?b.png" ∧
    PostsTo shelter "a#b.png" "/storage/v1/object/cat-assets/a" ∧
    PostsTo shelter "a" "/storage/v1/object/cat-assets/a" ∧
    Path.parts "a#b.png" ≠ Path.parts "a" := by
  refine ⟨?_, ?_, ?_, ?_, by decide +kernel⟩ <;>
    exact postsTo_shelter (by decide +kernel) (by decide +kernel)

end BucketStore

end Asset

end Cattery
