import Cattery.Proofs.ObjectPath
import Cattery.Proofs.Outcomes
import Cattery.Proofs.Trails

/-! What becomes of a record whose store answers for one path without regard to the others. From
the moment a job takes the record it is settled how the record ends; the job only finds it out, call
by call, and nothing it finds out matters to another record. -/

namespace Cattery

namespace Assoc

variable {κ α : Type} [DecidableEq κ] {key : κ} {map : List (κ × α)}

theorem erase_eq_self (h : key ∉ map.map Prod.fst) : erase key map = map := by
  rw [erase]
  apply List.filter_eq_self.mpr
  intro entry hentry
  have hne : entry.1 ≠ key := by
    intro hkey
    exact h (List.mem_map.mpr ⟨entry, hentry, hkey⟩)
  exact decide_eq_true hne

theorem insert_perm [LT κ] [DecidableLT κ] (value : α) (h : key ∉ map.map Prod.fst) :
    (insert key value map).Perm ((key, value) :: map) := by
  induction map with
  | nil => exact List.Perm.refl _
  | cons entry rest ih =>
    rw [List.map_cons, List.mem_cons, not_or] at h
    rw [insert]
    -- the entry is put in front, or behind an entry with another key
    by_cases hlt : key < entry.1
    · rw [if_pos hlt]
    · rw [if_neg hlt, if_neg h.1]
      calc entry :: insert key value rest
          |>.Perm (entry :: (key, value) :: rest) := (ih h.2).cons entry
        _ |>.Perm ((key, value) :: entry :: rest) := List.Perm.swap _ _ _

end Assoc

namespace Asset

/-- A store as what it answers, where it may go by the calls that it answered earlier. -/
structure Keeper where
  upload (earlier : List Call) (path : String) (content : List UInt8) (contentType : String) :
    Except Failure Unit
  sign (earlier : List Call) (path : String) (ttlSecs : UInt64) : Except Failure String

def about (path : String) (calls : List Call) : List Call :=
  calls.filter fun call => call.path = path

def Answer.ofUpload : Except Failure Unit → Answer
  | .ok () => .stored
  | .error failure => .failed failure

def Answer.ofSign : Except Failure String → Answer
  | .ok url => .signed url
  | .error failure => .failed failure

theorem Answer.ofUpload_inj {result other : Except Failure Unit} (h : ofUpload result = ofUpload other) :
    result = other := by
  rcases result with failure | ⟨⟩ <;> rcases other with failure' | ⟨⟩
  · rw [Answer.failed.inj h]
  · cases h
  · cases h
  · rfl

theorem Answer.ofSign_inj {result other : Except Failure String} (h : ofSign result = ofSign other) :
    result = other := by
  rcases result with failure | url <;> rcases other with failure' | url'
  · rw [Answer.failed.inj h]
  · cases h
  · cases h
  · rw [Answer.signed.inj h]

namespace Keeper

def answer (keeper : Keeper) (earlier : List Call) : Call → Answer
  | .upload path content contentType => .ofUpload (keeper.upload earlier path content contentType)
  | .sign path ttlSecs => .ofSign (keeper.sign earlier path ttlSecs)

def Isolated (keeper : Keeper) : Prop :=
  ∀ earlier other call, about call.path earlier = about call.path other →
    keeper.answer earlier call = keeper.answer other call

def Takes (keeper : Keeper) (earlier : List Call) (path : String) (content : List UInt8)
    (contentType : String) (ttlSecs : UInt64) : Prop :=
  keeper.upload earlier path content contentType = .ok () ∧
    ∃ url, keeper.sign (earlier ++ [.upload path content contentType]) path ttlSecs = .ok url

variable {keeper : Keeper} {earlier other : List Call} {path : String}

theorem Isolated.upload_congr (h : keeper.Isolated) (hpath : about path earlier = about path other)
    (content : List UInt8) (contentType : String) :
    keeper.upload earlier path content contentType = keeper.upload other path content contentType :=
  Answer.ofUpload_inj (h earlier other (.upload path content contentType) hpath)

theorem Isolated.sign_congr (h : keeper.Isolated) (hpath : about path earlier = about path other)
    (ttlSecs : UInt64) : keeper.sign earlier path ttlSecs = keeper.sign other path ttlSecs :=
  Answer.ofSign_inj (h earlier other (.sign path ttlSecs) hpath)

end Keeper

section About

variable {path : String} {calls : List Call} {call : Call}

theorem about_append (path : String) (calls more : List Call) :
    about path (calls ++ more) = about path calls ++ about path more :=
  List.filter_append _ _

theorem about_singleton_of_ne (h : call.path ≠ path) : about path [call] = [] := by
  simp [about, h]

theorem about_eq_nil (h : ∀ call ∈ calls, call.path ≠ path) : about path calls = [] := by
  rw [about, List.filter_eq_nil_iff]
  intro call hcall
  simpa using h call hcall

end About

section Verdicts

variable (keeper : Keeper) (persister : Persister)

def signVerdict (earlier : List Call) (index : UInt32) (path : String) : Write :=
  match keeper.sign earlier path persister.signedUrlTtlSecs with
  | .ok url => .saved index ⟨url, path⟩
  | .error failure => .failed index failure.message

def uploadVerdict (earlier : List Call) (index : UInt32) (path : String) (content : List UInt8)
    (contentType : String) : Write :=
  match keeper.upload earlier path content contentType with
  | .ok () =>
    signVerdict keeper persister (earlier ++ [.upload path content contentType]) index path
  | .error failure => .failed index failure.message

def decodeVerdict (token : RunToken) (slug : String) (earlier : List Call) (index : UInt32)
    (payload : String) : Write :=
  match Image.decode payload with
  | .error fault => .failed index (Failure.decode fault).message
  | .ok (content, format) =>
    uploadVerdict keeper persister earlier index
      (objectPath persister.userId slug token index format.extension) content format.contentType

def judge? (token : RunToken) (slug : String) (record : DebugStep) : Option Write :=
  (Image.find? record).map fun payload =>
    decodeVerdict keeper persister token slug [] record.index payload

def Job.promise? (earlier : List Call) (job : Job) : Option Write :=
  match job.phase with
  | .scanning => none
  | .decoding index payload =>
    some (decodeVerdict keeper persister job.token job.slug earlier index payload)
  | .uploading index path content contentType =>
    some (uploadVerdict keeper persister earlier index path content contentType)
  | .signing index path => some (signVerdict keeper persister earlier index path)
  | .publishing index asset => some (.saved index asset)
  | .rejecting index message => some (.failed index message)
  | .finished => none

variable {keeper persister} {token : RunToken} {slug : String} {earlier other : List Call}
  {index : UInt32}

theorem index_signVerdict (path : String) :
    (signVerdict keeper persister earlier index path).index = index := by
  rw [signVerdict]
  split <;> rfl

theorem index_uploadVerdict (path : String) (content : List UInt8) (contentType : String) :
    (uploadVerdict keeper persister earlier index path content contentType).index = index := by
  rw [uploadVerdict]
  split
  · exact index_signVerdict path
  · rfl

theorem index_decodeVerdict (payload : String) :
    (decodeVerdict keeper persister token slug earlier index payload).index = index := by
  rw [decodeVerdict]
  split
  · rfl
  · exact index_uploadVerdict _ _ _

theorem index_of_judge? {record : DebugStep} {write : Write}
    (h : judge? keeper persister token slug record = some write) : write.index = record.index := by
  obtain ⟨payload, -, rfl⟩ := Option.map_eq_some_iff.mp h
  exact index_decodeVerdict payload

theorem uploadVerdict_of_takes {path contentType : String} {content : List UInt8}
    (h : keeper.Takes earlier path content contentType persister.signedUrlTtlSecs) :
    ∃ asset, uploadVerdict keeper persister earlier index path content contentType =
      .saved index asset := by
  obtain ⟨hupload, url, hsign⟩ := h
  refine ⟨⟨url, path⟩, ?_⟩
  simp only [uploadVerdict, hupload, signVerdict, hsign]

theorem uploadVerdict_of_not_takes {path contentType : String} {content : List UInt8}
    (h : ¬ keeper.Takes earlier path content contentType persister.signedUrlTtlSecs) :
    ∃ message, uploadVerdict keeper persister earlier index path content contentType =
      .failed index message := by
  rcases hupload : keeper.upload earlier path content contentType with failure | ⟨⟩
  · refine ⟨failure.message, ?_⟩
    simp only [uploadVerdict, hupload]
  rcases hsign : keeper.sign (earlier ++ [.upload path content contentType]) path
      persister.signedUrlTtlSecs with failure | url
  · refine ⟨failure.message, ?_⟩
    simp only [uploadVerdict, hupload, signVerdict, hsign]
  · exact absurd ⟨hupload, url, hsign⟩ h

theorem signVerdict_congr (h : keeper.Isolated) {path : String}
    (hpath : about path earlier = about path other) :
    signVerdict keeper persister earlier index path =
      signVerdict keeper persister other index path := by
  rw [signVerdict, signVerdict, h.sign_congr hpath]

theorem uploadVerdict_congr (h : keeper.Isolated) {path : String}
    (hpath : about path earlier = about path other) (content : List UInt8) (contentType : String) :
    uploadVerdict keeper persister earlier index path content contentType =
      uploadVerdict keeper persister other index path content contentType := by
  -- the upload is one more call about the path on both sides
  have happend : about path (earlier ++ [.upload path content contentType]) =
      about path (other ++ [.upload path content contentType]) := by
    rw [about_append, about_append, hpath]
  rw [uploadVerdict, uploadVerdict, h.upload_congr hpath, signVerdict_congr h happend]

theorem decodeVerdict_congr (h : keeper.Isolated)
    (hpath : ∀ format : Image.Format,
      about (objectPath persister.userId slug token index format.extension) earlier =
        about (objectPath persister.userId slug token index format.extension) other)
    (payload : String) :
    decodeVerdict keeper persister token slug earlier index payload =
      decodeVerdict keeper persister token slug other index payload := by
  rw [decodeVerdict, decodeVerdict]
  split
  · rfl
  · exact uploadVerdict_congr h (hpath _) _ _

end Verdicts

end Asset

end Cattery
