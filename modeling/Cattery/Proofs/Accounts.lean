import Cattery.Proofs.Keepers
import Mathlib.Data.List.Nodup

namespace Cattery.Asset

/-! ## What a job of the current run does -/

def hasImage (record : DebugStep) : Bool :=
  (Image.find? record).isSome

def Phase.index? : Phase → Option UInt32
  | .scanning => none
  | .decoding index _ => some index
  | .uploading index _ _ _ => some index
  | .signing index _ => some index
  | .publishing index _ => some index
  | .rejecting index _ => some index
  | .finished => none

def Phase.saving (phase : Phase) : List (UInt32 × Unit) :=
  (phase.index?.map fun index => (index, ())).toList

namespace Job

inductive Advance (persister : Persister) (board : Board) (job : Job) : Board → Job → Prop where
  | wait (hwait : job.canStep = false) : Advance persister board job board job
  | finish (hphase : job.phase = .scanning) (hremaining : job.remaining = []) :
    Advance persister board job board { job with phase := .finished }
  | skip {record : DebugStep} {rest : List DebugStep} (hphase : job.phase = .scanning)
    (hremaining : job.remaining = record :: rest) (hfind : Image.find? record = none) :
    Advance persister board job board
      { job with
        remaining := rest, summary := { job.summary with skipped := job.summary.skipped + 1 } }
  | mark {record : DebugStep} {rest : List DebugStep} {payload : String}
    (hphase : job.phase = .scanning) (hremaining : job.remaining = record :: rest)
    (hfind : Image.find? record = some payload) :
    Advance persister board job (board.apply (.saving record.index))
      { job with remaining := rest, phase := .decoding record.index payload }
  | spoil {index : UInt32} {payload : String} {fault : Image.Fault}
    (hphase : job.phase = .decoding index payload) (hdecode : Image.decode payload = .error fault) :
    Advance persister board job board
      { job with phase := .rejecting index (Failure.decode fault).message }
  | upload {index : UInt32} {payload : String} {content : List UInt8} {format : Image.Format}
    (hphase : job.phase = .decoding index payload)
    (hdecode : Image.decode payload = .ok (content, format)) :
    Advance persister board job board
      { job with
        phase := .uploading index
          (objectPath persister.userId job.slug job.token index format.extension) content
          format.contentType }
  | publish {index : UInt32} {asset : SavedAsset} (hphase : job.phase = .publishing index asset) :
    Advance persister board job (board.apply (.saved index asset))
      { job with
        phase := .scanning, summary := { job.summary with saved := job.summary.saved + 1 } }
  | reject {index : UInt32} {message : String} (hphase : job.phase = .rejecting index message) :
    Advance persister board job (board.apply (.failed index message))
      { job with
        phase := .scanning, summary := { job.summary with failed := job.summary.failed + 1 } }

variable {persister : Persister} {board board' : Board} {job job' : Job}

theorem advance_step (persister : Persister) (h : board.isCurrent job.token = true) :
    Advance persister board job (job.step persister board).1 (job.step persister board).2 := by
  obtain ⟨token, slug, remaining, phase, summary⟩ := job
  have hcommit (write : Write) : board.commit token write = (board.apply write, true) :=
    Board.commit_of_current h
  cases phase with
  | scanning =>
    cases remaining with
    | nil => exact .finish rfl rfl
    | cons record rest =>
      cases hfind : Image.find? record with
      | none =>
        simp only [step, hfind]
        exact .skip rfl rfl hfind
      | some payload =>
        simp only [step, hfind, hcommit]
        exact .mark rfl rfl hfind
  | decoding index payload =>
    cases hdecode : Image.decode payload with
    | error fault =>
      simp only [step, hdecode]
      exact .spoil rfl hdecode
    | ok image =>
      simp only [step, hdecode]
      exact .upload rfl hdecode
  | publishing index asset =>
    simp only [step, hcommit]
    exact .publish rfl
  | rejecting index message =>
    simp only [step, hcommit]
    exact .reject rfl
  | uploading index path content contentType => exact .wait rfl
  | signing index path => exact .wait rfl
  | finished => exact .wait rfl

theorem receive_of_call?_eq_none (h : job.call? persister = none) (answer : Answer) :
    job.receive answer = job := by
  obtain ⟨token, slug, remaining, phase, summary⟩ := job
  cases phase <;> first | rfl | cases h

/-- What an answer leaves as it was. -/
theorem receive_kept (job : Job) (answer : Answer) :
    (job.receive answer).remaining = job.remaining ∧ (job.receive answer).summary = job.summary ∧
      (job.receive answer).phase.index? = job.phase.index? ∧
      (job.receive answer).phase.inHand = job.phase.inHand := by
  obtain ⟨token, slug, remaining, phase, summary⟩ := job
  cases phase <;> cases answer <;> exact ⟨rfl, rfl, rfl, rfl⟩

/-! ## Counting -/

/-- What is counted and what is marked as being saved when a job with some records has come as far
as it has. -/
structure Tally (steps : List DebugStep) (board : Board) (job : Job) : Prop where
  total : job.done + job.phase.inHand + job.remaining.length = steps.length
  skipped : job.summary.skipped + job.remaining.countP (fun record => !hasImage record) =
    steps.countP fun record => !hasImage record
  cancelled : job.summary.cancelled = false
  remaining (hphase : job.phase = .finished) : job.remaining = []
  saving : board.saving = job.phase.saving

theorem tally_start (token : RunToken) (slug : String) (steps : List DebugStep) :
    Tally steps (Board.start token) (Job.start token slug steps) where
  total := Nat.zero_add _
  skipped := Nat.zero_add _
  cancelled := rfl
  remaining := by simp [start]
  saving := rfl

theorem Tally.advance {steps : List DebugStep} (h : Tally steps board job)
    (hadvance : Advance persister board job board' job') : Tally steps board' job' := by
  obtain ⟨htotal, hskipped, hcancelled, hremaining, hsaving⟩ := h
  unfold done at htotal
  cases hadvance with
  | wait _ => exact ⟨htotal, hskipped, hcancelled, hremaining, hsaving⟩
  | finish hphase hnil =>
    rw [hphase] at htotal hsaving
    exact ⟨htotal, hskipped, hcancelled, fun _ => hnil, hsaving⟩
  | @skip record rest hphase hcons hfind =>
    rw [hcons, List.countP_cons_of_pos (by simp [hasImage, hfind])] at hskipped
    rw [hcons, List.length_cons] at htotal
    refine ⟨?_, ?_, hcancelled, fun hfinished => ?_, hsaving⟩
    · simp only [done]
      omega
    · simp only
      omega
    · rw [hphase] at hfinished
      cases hfinished
  | @mark record rest payload hphase hcons hfind =>
    rw [hcons, List.countP_cons_of_neg (by simp [hasImage, hfind])] at hskipped
    rw [hphase, hcons, List.length_cons] at htotal
    refine ⟨?_, hskipped, hcancelled, by simp, ?_⟩
    · simp only [done, Phase.inHand] at htotal ⊢
      omega
    · -- nothing was in hand before
      have hnone : board.saving = [] := by rw [hsaving, hphase]; rfl
      change Assoc.insert record.index () board.saving = _
      rw [hnone]
      rfl
  | spoil hphase _ =>
    rw [hphase] at htotal hsaving
    exact ⟨htotal, hskipped, hcancelled, by simp, hsaving⟩
  | upload hphase _ =>
    rw [hphase] at htotal hsaving
    exact ⟨htotal, hskipped, hcancelled, by simp, hsaving⟩
  | @publish index asset hphase =>
    rw [hphase] at htotal
    refine ⟨?_, hskipped, hcancelled, by simp, ?_⟩
    · simp only [done, Phase.inHand] at htotal ⊢
      omega
    · change Assoc.erase index board.saving = _
      rw [hsaving, hphase]
      simp [Assoc.erase, Phase.saving, Phase.index?]
  | @reject index message hphase =>
    rw [hphase] at htotal
    refine ⟨?_, hskipped, hcancelled, by simp, ?_⟩
    · simp only [done, Phase.inHand] at htotal ⊢
      omega
    · change Assoc.erase index board.saving = _
      rw [hsaving, hphase]
      simp [Assoc.erase, Phase.saving, Phase.index?]

theorem receive_finished_iff (job : Job) (answer : Answer) :
    (job.receive answer).phase = .finished ↔ job.phase = .finished := by
  obtain ⟨token, slug, remaining, phase, summary⟩ := job
  cases phase <;> cases answer <;> simp [receive]

theorem Tally.receive {steps : List DebugStep} (h : Tally steps board job) (answer : Answer) :
    Tally steps board (job.receive answer) := by
  obtain ⟨hremaining, hsummary, hindex, hinHand⟩ := receive_kept job answer
  refine ⟨?_, ?_, ?_, ?_, ?_⟩
  · rw [done, hsummary, hinHand, hremaining]
    exact h.total
  · rw [hsummary, hremaining]
    exact h.skipped
  · rw [hsummary]
    exact h.cancelled
  · rw [receive_finished_iff, hremaining]
    exact h.remaining
  · rw [Phase.saving, hindex]
    exact h.saving

end Job

/-! ## Outcomes on the board -/

def Write.savedItem? : Write → Option (UInt32 × SavedAsset)
  | .saved index asset => some (index, asset)
  | _ => none

def Write.failedItem? : Write → Option (UInt32 × String)
  | .failed index message => some (index, message)
  | _ => none

theorem Write.index_of_savedItem? {write : Write} {entry : UInt32 × SavedAsset}
    (h : write.savedItem? = some entry) : entry.1 = write.index := by
  cases write <;> cases h
  rfl

theorem Write.index_of_failedItem? {write : Write} {entry : UInt32 × String}
    (h : write.failedItem? = some entry) : entry.1 = write.index := by
  cases write <;> cases h
  rfl

section Entries

variable {α : Type} {item? : Write → Option (UInt32 × α)} {map : List (UInt32 × α)}
  {judged : List Write} {write : Write}

theorem key_not_mem_of_perm (hitem : ∀ write entry, item? write = some entry → entry.1 = write.index)
    (hmap : map.Perm (judged.filterMap item?)) (h : write.index ∉ judged.map Write.index) :
    write.index ∉ map.map Prod.fst := by
  intro hkey
  obtain ⟨entry, hmem, hfst⟩ := List.mem_map.mp hkey
  obtain ⟨earlier, hearlier, hsome⟩ := List.mem_filterMap.mp (hmap.mem_iff.mp hmem)
  apply h
  rw [← hfst, hitem earlier entry hsome]
  exact List.mem_map_of_mem hearlier

/-- An entry that is put under a new key. -/
theorem insert_perm_filterMap {value : α}
    (hitem : ∀ write entry, item? write = some entry → entry.1 = write.index)
    (hmap : map.Perm (judged.filterMap item?)) (h : write.index ∉ judged.map Write.index)
    (hwrite : item? write = some (write.index, value)) :
    (Assoc.insert write.index value map).Perm ((judged ++ [write]).filterMap item?) := by
  have hlast : (judged ++ [write]).filterMap item? =
      judged.filterMap item? ++ [(write.index, value)] := by
    rw [List.filterMap_append]
    simp [hwrite]
  calc Assoc.insert write.index value map
      |>.Perm ((write.index, value) :: map) :=
        Assoc.insert_perm value (key_not_mem_of_perm hitem hmap h)
    _ |>.Perm ((write.index, value) :: judged.filterMap item?) := hmap.cons _
    _ |>.Perm (judged.filterMap item? ++ [(write.index, value)]) :=
        (List.perm_append_singleton _ _).symm
    _ |>.Perm ((judged ++ [write]).filterMap item?) := List.Perm.of_eq hlast.symm

/-- An entry that is not there. -/
theorem erase_perm_filterMap
    (hitem : ∀ write entry, item? write = some entry → entry.1 = write.index)
    (hmap : map.Perm (judged.filterMap item?)) (h : write.index ∉ judged.map Write.index)
    (hwrite : item? write = none) :
    (Assoc.erase write.index map).Perm ((judged ++ [write]).filterMap item?) := by
  rw [Assoc.erase_eq_self (key_not_mem_of_perm hitem hmap h), List.filterMap_append]
  simpa [hwrite] using hmap

end Entries

namespace Job

variable {keeper : Keeper} {persister : Persister} {steps : List DebugStep}
  {board board' : Board} {earlier : List Call} {job job' : Job} {judged : List Write}

def Addressed (persister : Persister) (job : Job) : Prop :=
  ∀ call, job.call? persister = some call →
    ∃ (index : UInt32) (format : Image.Format), job.phase.index? = some index ∧
      call.path = objectPath persister.userId job.slug job.token index format.extension

def verdicts (keeper : Keeper) (persister : Persister) (job : Job) (records : List DebugStep) :
    List Write :=
  records.filterMap (judge? keeper persister job.token job.slug)

/-- What a job with some records has found out of how they end, where `judged` are those it is done
with: the board shows just these, and the store was not called yet about the others. -/
structure Ledger (keeper : Keeper) (persister : Persister) (steps : List DebugStep) (board : Board)
    (earlier : List Call) (job : Job) (judged : List Write) : Prop where
  settled : judged ++ ((job.promise? keeper persister earlier).toList ++
    job.verdicts keeper persister job.remaining) = job.verdicts keeper persister steps
  saved : board.saved.Perm (judged.filterMap Write.savedItem?)
  errors : board.errors.Perm (judged.filterMap Write.failedItem?)
  savedCount : job.summary.saved = (judged.filterMap Write.savedItem?).length
  failedCount : job.summary.failed = (judged.filterMap Write.failedItem?).length
  fresh (record : DebugStep) (hrecord : record ∈ job.remaining) (himage : hasImage record = true)
    (call : Call) (hcall : call ∈ earlier) (format : Image.Format) :
    call.path ≠ objectPath persister.userId job.slug job.token record.index format.extension

theorem ledger_start (keeper : Keeper) (persister : Persister) (token : RunToken) (slug : String)
    (steps : List DebugStep) :
    Ledger keeper persister steps (Board.start token) [] (Job.start token slug steps) [] where
  settled := rfl
  saved := List.Perm.refl _
  errors := List.Perm.refl _
  savedCount := rfl
  failedCount := rfl
  fresh := by simp

theorem verdicts_cons_of_none {record : DebugStep} (hfind : Image.find? record = none)
    (rest : List DebugStep) :
    job.verdicts keeper persister (record :: rest) = job.verdicts keeper persister rest := by
  apply List.filterMap_cons_none
  rw [judge?, hfind, Option.map_none]

theorem verdicts_cons_of_some {record : DebugStep} {payload : String}
    (hfind : Image.find? record = some payload) (rest : List DebugStep) :
    job.verdicts keeper persister (record :: rest) =
      decodeVerdict keeper persister job.token job.slug [] record.index payload ::
        job.verdicts keeper persister rest := by
  apply List.filterMap_cons_some
  rw [judge?, hfind, Option.map_some]

theorem index_verdicts (keeper : Keeper) (persister : Persister) (job : Job)
    (records : List DebugStep) :
    (job.verdicts keeper persister records).map Write.index =
      (records.filter hasImage).map DebugStep.index := by
  induction records with
  | nil => rfl
  | cons record rest ih =>
    cases hfind : Image.find? record with
    | none =>
      rw [verdicts_cons_of_none hfind, List.filter_cons_of_neg (by simp [hasImage, hfind]), ih]
    | some payload =>
      rw [verdicts_cons_of_some hfind, List.filter_cons_of_pos (by simp [hasImage, hfind]),
        List.map_cons, List.map_cons, ih, index_decodeVerdict]

theorem index_promise? (keeper : Keeper) (persister : Persister) (earlier : List Call) (job : Job) :
    (job.promise? keeper persister earlier).map Write.index = job.phase.index? := by
  rw [promise?]
  cases hphase : job.phase with
  | scanning => rfl
  | decoding index payload => exact congrArg some (index_decodeVerdict payload)
  | uploading index path content contentType =>
    exact congrArg some (index_uploadVerdict path content contentType)
  | signing index path => exact congrArg some (index_signVerdict path)
  | publishing index asset => rfl
  | rejecting index message => rfl
  | finished => rfl

/-! ### The answers -/

/-- A job that gets the answer it waits for ends the record in hand as was settled. -/
theorem promise?_receive {call : Call} (hcall : job.call? persister = some call) :
    (job.receive (keeper.answer earlier call)).promise? keeper persister (earlier ++ [call]) =
      job.promise? keeper persister earlier := by
  obtain ⟨token, slug, remaining, phase, summary⟩ := job
  cases phase with
  | uploading index path content contentType =>
    obtain rfl : Call.upload path content contentType = call := Option.some_inj.mp hcall
    have hanswer : keeper.answer earlier (.upload path content contentType) =
        .ofUpload (keeper.upload earlier path content contentType) := rfl
    rw [hanswer]
    -- the verdict asked the store just this
    rcases hresult : keeper.upload earlier path content contentType with failure | ⟨⟩
    · simp only [Answer.ofUpload, receive, promise?, uploadVerdict, hresult]
    · simp only [Answer.ofUpload, receive, promise?, uploadVerdict, hresult]
  | signing index path =>
    obtain rfl : Call.sign path persister.signedUrlTtlSecs = call := Option.some_inj.mp hcall
    have hanswer : keeper.answer earlier (.sign path persister.signedUrlTtlSecs) =
        .ofSign (keeper.sign earlier path persister.signedUrlTtlSecs) := rfl
    rw [hanswer]
    rcases hresult : keeper.sign earlier path persister.signedUrlTtlSecs with failure | url
    · simp only [Answer.ofSign, receive, promise?, signVerdict, hresult]
    · simp only [Answer.ofSign, receive, promise?, signVerdict, hresult]
  | scanning => cases hcall
  | decoding index payload => cases hcall
  | publishing index asset => cases hcall
  | rejecting index message => cases hcall
  | finished => cases hcall

def Foreign (persister : Persister) (token : RunToken) (call : Call) : Prop :=
  ∀ (slug : String) (index : UInt32) (format : Image.Format),
    call.path ≠ objectPath persister.userId slug token index format.extension

/-- A call of another run does not matter to the record in hand. -/
theorem promise?_foreign {call : Call} (hisolated : keeper.Isolated)
    (haddressed : job.Addressed persister) (hforeign : Foreign persister job.token call) :
    job.promise? keeper persister (earlier ++ [call]) = job.promise? keeper persister earlier := by
  -- no path of this run sees the call
  have habout (slug : String) (index : UInt32) (format : Image.Format) :
      about (objectPath persister.userId slug job.token index format.extension) (earlier ++ [call]) =
        about (objectPath persister.userId slug job.token index format.extension) earlier := by
    rw [about_append, about_singleton_of_ne (hforeign slug index format), List.append_nil]
  rw [promise?, promise?]
  cases hphase : job.phase with
  | decoding index payload =>
    exact congrArg some (decodeVerdict_congr hisolated (habout job.slug index) payload)
  | uploading index path content contentType =>
    obtain ⟨named, format, -, hpath⟩ :=
      haddressed (.upload path content contentType) (by rw [call?, hphase])
    obtain rfl : path = _ := hpath
    exact congrArg some (uploadVerdict_congr hisolated (habout job.slug named format) _ _)
  | signing index path =>
    obtain ⟨named, format, -, hpath⟩ :=
      haddressed (.sign path persister.signedUrlTtlSecs) (by rw [call?, hphase])
    obtain rfl : path = _ := hpath
    exact congrArg some (signVerdict_congr hisolated (habout job.slug named format))
  | scanning => rfl
  | publishing index asset => rfl
  | rejecting index message => rfl
  | finished => rfl

theorem Ledger.foreign {call : Call} (h : Ledger keeper persister steps board earlier job judged)
    (hisolated : keeper.Isolated) (haddressed : job.Addressed persister)
    (hforeign : Foreign persister job.token call) :
    Ledger keeper persister steps board (earlier ++ [call]) job judged where
  settled := by
    rw [promise?_foreign hisolated haddressed hforeign]
    exact h.settled
  saved := h.saved
  errors := h.errors
  savedCount := h.savedCount
  failedCount := h.failedCount
  fresh := by
    intro record hrecord himage other hother format
    rcases List.mem_append.mp hother with hother | hother
    · exact h.fresh record hrecord himage other hother format
    · rw [List.mem_singleton.mp hother]
      exact hforeign job.slug record.index format

/-! ### What the job does by itself -/

/-- A job that comes nearer to how the record in hand ends. -/
theorem Ledger.rephase {phase : Phase} (h : Ledger keeper persister steps board earlier job judged)
    (hpromise : Job.promise? keeper persister earlier { job with phase } =
      job.promise? keeper persister earlier) :
    Ledger keeper persister steps board earlier { job with phase } judged where
  settled := by
    rw [hpromise]
    exact h.settled
  saved := h.saved
  errors := h.errors
  savedCount := h.savedCount
  failedCount := h.failedCount
  fresh := h.fresh

theorem Ledger.skip {record : DebugStep} {rest : List DebugStep}
    (h : Ledger keeper persister steps board earlier job judged)
    (hremaining : job.remaining = record :: rest) (hfind : Image.find? record = none) :
    Ledger keeper persister steps board earlier
      { job with
        remaining := rest, summary := { job.summary with skipped := job.summary.skipped + 1 } }
      judged where
  settled := by
    have hsettled := h.settled
    rw [hremaining, verdicts_cons_of_none hfind] at hsettled
    exact hsettled
  saved := h.saved
  errors := h.errors
  savedCount := h.savedCount
  failedCount := h.failedCount
  fresh := by
    intro other hother
    apply h.fresh other
    rw [hremaining]
    exact List.mem_cons_of_mem record hother

/-- The record a job takes ends as if it were persisted alone, since the store was not called
about it. -/
theorem Ledger.decodeVerdict_eq {record : DebugStep}
    (h : Ledger keeper persister steps board earlier job judged) (hisolated : keeper.Isolated)
    (hrecord : record ∈ job.remaining) (himage : hasImage record = true) (payload : String) :
    decodeVerdict keeper persister job.token job.slug earlier record.index payload =
      decodeVerdict keeper persister job.token job.slug [] record.index payload := by
  apply decodeVerdict_congr hisolated
  intro format
  apply about_eq_nil
  intro call hcall
  exact h.fresh record hrecord himage call hcall format

/-! ### Different indices -/

section Distinct

variable (hdistinct : ((steps.filter hasImage).map DebugStep.index).Nodup)
include hdistinct

/-- The records that are done with, the one in hand and the others have different indices. -/
theorem Ledger.nodup (h : Ledger keeper persister steps board earlier job judged) :
    (judged.map Write.index ++ (job.phase.index?.toList ++
      (job.remaining.filter hasImage).map DebugStep.index)).Nodup := by
  -- the indices of all verdicts are those of the images
  rw [← index_verdicts keeper persister job, ← h.settled, List.map_append, List.map_append,
    index_verdicts] at hdistinct
  have hpromise : (job.promise? keeper persister earlier).toList.map Write.index =
      job.phase.index?.toList := by
    rw [← index_promise? keeper persister earlier job]
    cases job.promise? keeper persister earlier <;> rfl
  rwa [hpromise] at hdistinct

theorem Ledger.index_not_mem (h : Ledger keeper persister steps board earlier job judged)
    {index : UInt32} (hindex : job.phase.index? = some index) : index ∉ judged.map Write.index := by
  have hnodup := h.nodup hdistinct
  rw [hindex] at hnodup
  intro hmem
  exact (List.nodup_append.mp hnodup).2.2 index hmem index
    (List.mem_append_left _ (List.mem_singleton_self index)) rfl

theorem Ledger.index_not_mem_of_mem (h : Ledger keeper persister steps board earlier job judged)
    {record : DebugStep} (hrecord : record ∈ job.remaining) (himage : hasImage record = true) :
    record.index ∉ judged.map Write.index ∧ job.phase.index? ≠ some record.index := by
  have hnodup := h.nodup hdistinct
  have hrest : record.index ∈ (job.remaining.filter hasImage).map DebugStep.index :=
    List.mem_map_of_mem (List.mem_filter.mpr ⟨hrecord, himage⟩)
  constructor
  · intro hmem
    exact (List.nodup_append.mp hnodup).2.2 _ hmem _ (List.mem_append_right _ hrest) rfl
  · intro hindex
    rw [hindex] at hnodup
    have hlater := (List.nodup_append.mp hnodup).2.1
    exact (List.nodup_append.mp hlater).2.2 _ (List.mem_singleton_self _) _ hrest rfl

theorem Ledger.receive {call : Call} (h : Ledger keeper persister steps board earlier job judged)
    (haddressed : job.Addressed persister) (hcall : job.call? persister = some call) :
    Ledger keeper persister steps board (earlier ++ [call])
      (job.receive (keeper.answer earlier call)) judged := by
  obtain ⟨hremaining, hsummary, -, -⟩ := receive_kept job (keeper.answer earlier call)
  obtain ⟨htoken, hslug⟩ :=
    (turn_receive persister true job (keeper.answer earlier call)).kept
  have hverdicts (records : List DebugStep) :
      (job.receive (keeper.answer earlier call)).verdicts keeper persister records =
        job.verdicts keeper persister records := by
    rw [Job.verdicts, htoken, hslug, Job.verdicts]
  refine ⟨?_, h.saved, h.errors, ?_, ?_, ?_⟩
  · rw [promise?_receive hcall, hverdicts, hverdicts, hremaining]
    exact h.settled
  · rw [hsummary]
    exact h.savedCount
  · rw [hsummary]
    exact h.failedCount
  · intro record hrecord himage other hother format
    rw [hremaining] at hrecord
    rw [htoken, hslug]
    rcases List.mem_append.mp hother with hother | hother
    · exact h.fresh record hrecord himage other hother format
    · -- the call is about the record in hand, which has another index
      obtain ⟨index, format', hindex, hpath⟩ := haddressed call hcall
      rw [List.mem_singleton.mp hother, hpath]
      intro hsame
      obtain ⟨-, rfl⟩ := objectPath_inj_of_format hsame
      exact (h.index_not_mem_of_mem hdistinct hrecord himage).2 hindex

theorem Ledger.mark {record : DebugStep} {rest : List DebugStep} {payload : String}
    (h : Ledger keeper persister steps board earlier job judged) (hisolated : keeper.Isolated)
    (hphase : job.phase = .scanning) (hremaining : job.remaining = record :: rest)
    (hfind : Image.find? record = some payload) :
    Ledger keeper persister steps (board.apply (.saving record.index)) earlier
      { job with remaining := rest, phase := .decoding record.index payload } judged := by
  have hrecord : record ∈ job.remaining := by rw [hremaining]; exact List.mem_cons_self
  have himage : hasImage record = true := by rw [hasImage, hfind, Option.isSome_some]
  have hnew : record.index ∉ judged.map Write.index :=
    (h.index_not_mem_of_mem hdistinct hrecord himage).1
  refine ⟨?_, h.saved, ?_, h.savedCount, h.failedCount, ?_⟩
  · have hsettled := h.settled
    rw [promise?, hphase, hremaining, verdicts_cons_of_some hfind,
      ← h.decodeVerdict_eq hisolated hrecord himage] at hsettled
    exact hsettled
  · -- there is no error to be cleared
    have hkey : record.index ∉ board.errors.map Prod.fst :=
      @key_not_mem_of_perm _ _ _ judged (.saving record.index)
        (fun _ _ => Write.index_of_failedItem?) h.errors hnew
    have hboard : (board.apply (.saving record.index)).errors = board.errors :=
      Assoc.erase_eq_self hkey
    rw [hboard]
    exact h.errors
  · intro other hother
    apply h.fresh other
    rw [hremaining]
    exact List.mem_cons_of_mem record hother

theorem Ledger.publish {index : UInt32} {asset : SavedAsset}
    (h : Ledger keeper persister steps board earlier job judged)
    (hphase : job.phase = .publishing index asset) :
    Ledger keeper persister steps (board.apply (.saved index asset)) earlier
      { job with
        phase := .scanning, summary := { job.summary with saved := job.summary.saved + 1 } }
      (judged ++ [.saved index asset]) := by
  have hnew : index ∉ judged.map Write.index := h.index_not_mem hdistinct (by rw [hphase]; rfl)
  refine ⟨?_, ?_, ?_, ?_, ?_, h.fresh⟩
  · have hsettled := h.settled
    rw [promise?, hphase] at hsettled
    rw [List.append_assoc]
    exact hsettled
  · exact @insert_perm_filterMap _ _ _ _ (.saved index asset) asset
      (fun _ _ => Write.index_of_savedItem?) h.saved hnew rfl
  · exact @erase_perm_filterMap _ _ _ _ (.saved index asset)
      (fun _ _ => Write.index_of_failedItem?) h.errors hnew rfl
  · rw [List.filterMap_append, List.length_append, ← h.savedCount]
    rfl
  · rw [List.filterMap_append, List.length_append, ← h.failedCount]
    rfl

theorem Ledger.reject {index : UInt32} {message : String}
    (h : Ledger keeper persister steps board earlier job judged)
    (hphase : job.phase = .rejecting index message) :
    Ledger keeper persister steps (board.apply (.failed index message)) earlier
      { job with
        phase := .scanning, summary := { job.summary with failed := job.summary.failed + 1 } }
      (judged ++ [.failed index message]) := by
  have hnew : index ∉ judged.map Write.index := h.index_not_mem hdistinct (by rw [hphase]; rfl)
  refine ⟨?_, ?_, ?_, ?_, ?_, h.fresh⟩
  · have hsettled := h.settled
    rw [promise?, hphase] at hsettled
    rw [List.append_assoc]
    exact hsettled
  · have hsaved : (judged ++ [Write.failed index message]).filterMap Write.savedItem? =
        judged.filterMap Write.savedItem? := by
      simp [List.filterMap_append, Write.savedItem?]
    rw [hsaved]
    exact h.saved
  · exact @insert_perm_filterMap _ _ _ _ (.failed index message) message
      (fun _ _ => Write.index_of_failedItem?) h.errors hnew rfl
  · rw [List.filterMap_append, List.length_append, ← h.savedCount]
    rfl
  · rw [List.filterMap_append, List.length_append, ← h.failedCount]
    rfl

/-- What is settled for the record in hand is what gets on the board. -/
theorem Ledger.advance (h : Ledger keeper persister steps board earlier job judged)
    (hisolated : keeper.Isolated) (hadvance : Advance persister board job board' job') :
    ∃ judged', Ledger keeper persister steps board' earlier job' judged' := by
  cases hadvance with
  | wait _ => exact ⟨judged, h⟩
  | finish hphase _ =>
    refine ⟨judged, h.rephase ?_⟩
    simp only [promise?, hphase]
  | skip hphase hremaining hfind => exact ⟨judged, h.skip hremaining hfind⟩
  | mark hphase hremaining hfind =>
    exact ⟨judged, h.mark hdistinct hisolated hphase hremaining hfind⟩
  | spoil hphase hdecode =>
    refine ⟨judged, h.rephase ?_⟩
    simp only [promise?, hphase, decodeVerdict, hdecode]
  | upload hphase hdecode =>
    refine ⟨judged, h.rephase ?_⟩
    simp only [promise?, hphase, decodeVerdict, hdecode]
  | publish hphase => exact ⟨_, h.publish hdistinct hphase⟩
  | reject hphase => exact ⟨_, h.reject hdistinct hphase⟩

end Distinct

end Job

end Cattery.Asset
