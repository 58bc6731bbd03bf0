import Cattery.Proofs.Hosting

namespace Cattery

theorem Assoc.find?_eq_some_iff {κ α : Type} [DecidableEq κ] {key : κ} {value : α}
    {map : List (κ × α)} (hnodup : (map.map Prod.fst).Nodup) :
    find? key map = some value ↔ (key, value) ∈ map := by
  induction map with
  | nil => simp [find?]
  | cons entry rest ih =>
    rw [List.map_cons, List.nodup_cons] at hnodup
    rw [find?_cons]
    by_cases h : key = entry.1
    · subst h
      have hrest : (entry.1, value) ∉ rest := by
        intro hmem
        exact hnodup.1 (List.mem_map.mpr ⟨_, hmem, rfl⟩)
      rw [if_pos rfl, List.mem_cons, or_iff_left hrest, Option.some_inj, Prod.ext_iff]
      simp [eq_comm]
    · rw [if_neg h, ih hnodup.2, List.mem_cons, or_iff_right]
      intro heq
      exact h (congrArg Prod.fst heq)

namespace Asset

/-! ## A board of outcomes -/

structure Board.Shows (board : Board) (verdicts : List Write) : Prop where
  saving : board.saving = []
  saved : board.saved.Perm (verdicts.filterMap Write.savedItem?)
  errors : board.errors.Perm (verdicts.filterMap Write.failedItem?)
  distinct : (verdicts.map Write.index).Nodup

section Entries

variable {α : Type} {item? : Write → Option (UInt32 × α)} {map : List (UInt32 × α)}
  {verdicts : List Write}

theorem map_fst_filterMap_sublist
    (hitem : ∀ write entry, item? write = some entry → entry.1 = write.index)
    (verdicts : List Write) :
    ((verdicts.filterMap item?).map Prod.fst).Sublist (verdicts.map Write.index) := by
  induction verdicts with
  | nil => exact List.Sublist.refl _
  | cons write rest ih =>
    cases hwrite : item? write with
    | none =>
      rw [List.filterMap_cons_none hwrite, List.map_cons]
      exact ih.cons _
    | some entry =>
      rw [List.filterMap_cons_some hwrite, List.map_cons, List.map_cons, hitem write entry hwrite]
      exact ih.cons_cons _

theorem nodup_keys_of_perm
    (hitem : ∀ write entry, item? write = some entry → entry.1 = write.index)
    (hmap : map.Perm (verdicts.filterMap item?)) (hdistinct : (verdicts.map Write.index).Nodup) :
    (map.map Prod.fst).Nodup :=
  (hmap.map Prod.fst).nodup_iff.mpr (hdistinct.sublist (map_fst_filterMap_sublist hitem verdicts))

theorem mem_filterMap_savedItem?_iff {index : UInt32} {asset : SavedAsset} :
    (index, asset) ∈ verdicts.filterMap Write.savedItem? ↔ .saved index asset ∈ verdicts := by
  rw [List.mem_filterMap]
  constructor
  · intro h
    obtain ⟨write, hmem, hwrite⟩ := h
    cases write <;> cases hwrite
    exact hmem
  · intro hmem
    exact ⟨.saved index asset, hmem, rfl⟩

theorem mem_filterMap_failedItem?_iff {index : UInt32} {message : String} :
    (index, message) ∈ verdicts.filterMap Write.failedItem? ↔ .failed index message ∈ verdicts := by
  rw [List.mem_filterMap]
  constructor
  · intro h
    obtain ⟨write, hmem, hwrite⟩ := h
    cases write <;> cases hwrite
    exact hmem
  · intro hmem
    exact ⟨.failed index message, hmem, rfl⟩

end Entries

namespace Board.Shows

variable {board : Board} {verdicts : List Write} {index : UInt32} {asset : SavedAsset}
  {message : String}

theorem nodup_saved (h : board.Shows verdicts) : (board.saved.map Prod.fst).Nodup :=
  nodup_keys_of_perm (fun _ _ => Write.index_of_savedItem?) h.saved h.distinct

theorem nodup_errors (h : board.Shows verdicts) : (board.errors.map Prod.fst).Nodup :=
  nodup_keys_of_perm (fun _ _ => Write.index_of_failedItem?) h.errors h.distinct

theorem find?_saved_iff (h : board.Shows verdicts) :
    Assoc.find? index board.saved = some asset ↔ .saved index asset ∈ verdicts := by
  rw [Assoc.find?_eq_some_iff h.nodup_saved, h.saved.mem_iff, mem_filterMap_savedItem?_iff]

theorem find?_errors_iff (h : board.Shows verdicts) :
    Assoc.find? index board.errors = some message ↔ .failed index message ∈ verdicts := by
  rw [Assoc.find?_eq_some_iff h.nodup_errors, h.errors.mem_iff, mem_filterMap_failedItem?_iff]

theorem mem_saved_iff (h : board.Shows verdicts) :
    index ∈ board.saved.map Prod.fst ↔ ∃ asset, .saved index asset ∈ verdicts := by
  constructor
  · intro hkey
    obtain ⟨⟨key, value⟩, hmem, rfl⟩ := List.mem_map.mp hkey
    exact ⟨value, mem_filterMap_savedItem?_iff.mp (h.saved.mem_iff.mp hmem)⟩
  · intro ⟨value, hmem⟩
    have hitem := h.saved.mem_iff.mpr (mem_filterMap_savedItem?_iff.mpr hmem)
    exact List.mem_map.mpr ⟨(index, value), hitem, rfl⟩

theorem mem_errors_iff (h : board.Shows verdicts) :
    index ∈ board.errors.map Prod.fst ↔ ∃ message, .failed index message ∈ verdicts := by
  constructor
  · intro hkey
    obtain ⟨⟨key, value⟩, hmem, rfl⟩ := List.mem_map.mp hkey
    exact ⟨value, mem_filterMap_failedItem?_iff.mp (h.errors.mem_iff.mp hmem)⟩
  · intro ⟨value, hmem⟩
    have hitem := h.errors.mem_iff.mpr (mem_filterMap_failedItem?_iff.mpr hmem)
    exact List.mem_map.mpr ⟨(index, value), hitem, rfl⟩

theorem not_saving (h : board.Shows verdicts) (index : UInt32) :
    ¬ (Assoc.find? index board.saving).isSome = true := by
  rw [h.saving]
  exact Bool.false_ne_true

theorem status_of_saved (h : board.Shows verdicts) (hmem : .saved index asset ∈ verdicts) :
    board.status index = .saved asset := by
  rw [Board.status, if_neg (h.not_saving index), h.find?_saved_iff.mpr hmem]

theorem status_of_failed (h : board.Shows verdicts) (hmem : .failed index message ∈ verdicts) :
    board.status index = .failed message := by
  have hsaved : Assoc.find? index board.saved = none := by
    apply Option.eq_none_iff_forall_ne_some.mpr
    intro asset hasset
    -- one index has one verdict
    have hsame := List.inj_on_of_nodup_map h.distinct (h.find?_saved_iff.mp hasset) hmem rfl
    cases hsame
  rw [Board.status, if_neg (h.not_saving index), hsaved, h.find?_errors_iff.mpr hmem]

theorem status_of_not_mem (h : board.Shows verdicts) (hindex : index ∉ verdicts.map Write.index) :
    board.status index = .idle := by
  have hsaved : Assoc.find? index board.saved = none := by
    apply Option.eq_none_iff_forall_ne_some.mpr
    intro asset hasset
    exact hindex (List.mem_map.mpr ⟨_, h.find?_saved_iff.mp hasset, rfl⟩)
  have herrors : Assoc.find? index board.errors = none := by
    apply Option.eq_none_iff_forall_ne_some.mpr
    intro message hmessage
    exact hindex (List.mem_map.mpr ⟨_, h.find?_errors_iff.mp hmessage, rfl⟩)
  rw [Board.status, if_neg (h.not_saving index), hsaved, herrors]

end Board.Shows

/-! ## Records that succeed -/

section Records

variable (keeper : Keeper) (persister : Persister) (token : RunToken) (slug : String)

def Succeeds (record : DebugStep) : Prop :=
  ∃ payload content format,
    Image.find? record = some payload ∧ Image.decode payload = .ok (content, format) ∧
      keeper.Takes [] (objectPath persister.userId slug token record.index format.extension) content
        format.contentType persister.signedUrlTtlSecs

variable {keeper persister token slug} {record : DebugStep}

theorem hasImage_of_judge? {write : Write}
    (h : judge? keeper persister token slug record = some write) : hasImage record = true := by
  obtain ⟨payload, hfind, -⟩ := Option.map_eq_some_iff.mp h
  rw [hasImage, hfind, Option.isSome_some]

theorem judge?_of_succeeds (h : Succeeds keeper persister token slug record) :
    ∃ asset, judge? keeper persister token slug record = some (.saved record.index asset) := by
  obtain ⟨payload, content, format, hfind, hdecode, htakes⟩ := h
  obtain ⟨asset, hasset⟩ := @uploadVerdict_of_takes _ _ _ record.index _ _ _ htakes
  refine ⟨asset, ?_⟩
  rw [judge?, hfind, Option.map_some, ← hasset]
  simp only [decodeVerdict, hdecode]

theorem judge?_of_not_succeeds (himage : hasImage record = true)
    (h : ¬ Succeeds keeper persister token slug record) :
    ∃ message, judge? keeper persister token slug record = some (.failed record.index message) := by
  obtain ⟨payload, hfind⟩ := Option.isSome_iff_exists.mp himage
  rcases hdecode : Image.decode payload with fault | ⟨content, format⟩
  · refine ⟨(Failure.decode fault).message, ?_⟩
    rw [judge?, hfind, Option.map_some]
    simp only [decodeVerdict, hdecode]
  · have htakes : ¬ keeper.Takes []
        (objectPath persister.userId slug token record.index format.extension) content
        format.contentType persister.signedUrlTtlSecs := by
      intro htakes
      exact h ⟨payload, content, format, hfind, hdecode, htakes⟩
    obtain ⟨message, hmessage⟩ := @uploadVerdict_of_not_takes _ _ _ record.index _ _ _ htakes
    refine ⟨message, ?_⟩
    rw [judge?, hfind, Option.map_some, ← hmessage]
    simp only [decodeVerdict, hdecode]

theorem exists_saved_iff {records : List DebugStep} {index : UInt32} :
    (∃ asset, .saved index asset ∈ records.filterMap (judge? keeper persister token slug)) ↔
      ∃ record ∈ records, record.index = index ∧ Succeeds keeper persister token slug record := by
  constructor
  · intro ⟨asset, hmem⟩
    obtain ⟨record, hrecord, hjudge⟩ := List.mem_filterMap.mp hmem
    have hindex : index = record.index := index_of_judge? hjudge
    refine ⟨record, hrecord, hindex.symm, ?_⟩
    by_contra hfails
    obtain ⟨message, hmessage⟩ := judge?_of_not_succeeds (hasImage_of_judge? hjudge) hfails
    rw [hjudge] at hmessage
    cases hmessage
  · intro ⟨record, hrecord, hindex, hsucceeds⟩
    obtain ⟨asset, hasset⟩ := judge?_of_succeeds hsucceeds
    rw [hindex] at hasset
    exact ⟨asset, List.mem_filterMap.mpr ⟨record, hrecord, hasset⟩⟩

theorem exists_failed_iff {records : List DebugStep} {index : UInt32} :
    (∃ message, .failed index message ∈ records.filterMap (judge? keeper persister token slug)) ↔
      ∃ record ∈ records, record.index = index ∧ hasImage record = true ∧
        ¬ Succeeds keeper persister token slug record := by
  constructor
  · intro ⟨message, hmem⟩
    obtain ⟨record, hrecord, hjudge⟩ := List.mem_filterMap.mp hmem
    have hindex : index = record.index := index_of_judge? hjudge
    refine ⟨record, hrecord, hindex.symm, hasImage_of_judge? hjudge, ?_⟩
    intro hsucceeds
    obtain ⟨asset, hasset⟩ := judge?_of_succeeds hsucceeds
    rw [hjudge] at hasset
    cases hasset
  · intro ⟨record, hrecord, hindex, himage, hfails⟩
    obtain ⟨message, hmessage⟩ := judge?_of_not_succeeds himage hfails
    rw [hindex] at hmessage
    exact ⟨message, List.mem_filterMap.mpr ⟨record, hrecord, hmessage⟩⟩

end Records

/-! ## Accounts -/

namespace Job

structure Account (keeper : Keeper) (persister : Persister) (slug : String)
    (steps : List DebugStep) (board : Board) (earlier : List Call) (job : Job) : Prop where
  slug : job.slug = slug
  tally : Tally steps board job
  ledger (hdistinct : ((steps.filter hasImage).map DebugStep.index).Nodup) :
    ∃ judged, Ledger keeper persister steps board earlier job judged

variable {keeper : Keeper} {persister : Persister} {token : RunToken} {slug : String}
  {steps : List DebugStep} {board board' : Board} {job job' : Job}

theorem Advance.slug_eq (h : Advance persister board job board' job') : job'.slug = job.slug := by
  cases h <;> rfl

theorem preserved_account (hisolated : keeper.Isolated) (token : RunToken) (slug : String)
    (steps : List DebugStep) :
    Session.Preserved keeper persister token (Account keeper persister slug steps) where
  guest board earlier job call hown haddressed hforeign h := by
    refine ⟨h.slug, h.tally, fun hdistinct => ?_⟩
    obtain ⟨judged, hledger⟩ := h.ledger hdistinct
    rw [← hown] at hforeign
    exact ⟨judged, hledger.foreign hisolated haddressed hforeign⟩
  advance board board' earlier job next hadvance h := by
    refine ⟨hadvance.slug_eq.trans h.slug, h.tally.advance hadvance, fun hdistinct => ?_⟩
    obtain ⟨judged, hledger⟩ := h.ledger hdistinct
    exact hledger.advance hdistinct hisolated hadvance
  receive board earlier job call haddressed hcall h := by
    have hslug := (turn_receive persister true job (keeper.answer earlier call)).kept.2
    refine ⟨hslug.trans h.slug, h.tally.receive _, fun hdistinct => ?_⟩
    obtain ⟨judged, hledger⟩ := h.ledger hdistinct
    exact ⟨judged, hledger.receive hdistinct haddressed hcall⟩

theorem account_start (keeper : Keeper) (persister : Persister) (token : RunToken) (slug : String)
    (steps : List DebugStep) :
    Account keeper persister slug steps (Board.start token) [] (Job.start token slug steps) where
  slug := rfl
  tally := tally_start token slug steps
  ledger _ := ⟨[], ledger_start keeper persister token slug steps⟩

end Job

/-! ## How much is left to do -/

def Phase.work : Phase → Nat
  | .scanning => 1
  | .decoding _ _ => 5
  | .uploading _ _ _ _ => 4
  | .signing _ _ => 3
  | .publishing _ _ => 2
  | .rejecting _ _ => 2
  | .finished => 0

namespace Job

variable {keeper : Keeper} {persister : Persister} {board board' : Board} {job job' : Job}

def work (job : Job) : Nat :=
  5 * job.remaining.length + job.phase.work

theorem Advance.work_lt (h : Advance persister board job board' job')
    (hphase : job.phase ≠ .finished) (hcall : job.call? persister = none) :
    job'.work < job.work := by
  unfold work
  cases h with
  | wait hwait =>
    -- a job that cannot go on waits for the store or is finished
    obtain ⟨token, slug, remaining, phase, summary⟩ := job
    cases phase with
    | uploading index path content contentType => cases hcall
    | signing index path => cases hcall
    | finished => exact absurd rfl hphase
    | scanning => cases hwait
    | decoding index payload => cases hwait
    | publishing index asset => cases hwait
    | rejecting index message => cases hwait
  | finish hscanning _ => simp [hscanning, Phase.work]
  | skip hscanning hremaining _ =>
    rw [hremaining, List.length_cons]
    simp only
    omega
  | mark hscanning hremaining _ =>
    rw [hscanning, hremaining, List.length_cons]
    simp only [Phase.work]
    omega
  | spoil hdecoding _ => simp [hdecoding, Phase.work]
  | upload hdecoding _ => simp [hdecoding, Phase.work]
  | publish hpublishing => simp [hpublishing, Phase.work]
  | reject hrejecting => simp [hrejecting, Phase.work]

theorem work_receive_lt {earlier : List Call} {call : Call}
    (hcall : job.call? persister = some call) :
    (job.receive (keeper.answer earlier call)).work < job.work := by
  obtain ⟨token, slug, remaining, phase, summary⟩ := job
  cases phase with
  | uploading index path content contentType =>
    obtain rfl : Call.upload path content contentType = call := Option.some_inj.mp hcall
    rw [Keeper.answer]
    rcases keeper.upload earlier path content contentType with failure | ⟨⟩ <;>
      simp [Answer.ofUpload, receive, work, Phase.work]
  | signing index path =>
    obtain rfl : Call.sign path persister.signedUrlTtlSecs = call := Option.some_inj.mp hcall
    rw [Keeper.answer]
    rcases keeper.sign earlier path persister.signedUrlTtlSecs with failure | url <;>
      simp [Answer.ofSign, receive, work, Phase.work]
  | scanning => cases hcall
  | decoding index payload => cases hcall
  | publishing index asset => cases hcall
  | rejecting index message => cases hcall
  | finished => cases hcall

end Job

/-! ## Runs -/

namespace Session

variable {keeper : Keeper} {persister : Persister} {token : RunToken} {slug : String}
  {steps : List DebugStep} {before after : List Move}

def opened (persister : Persister) (token : RunToken) (slug : String) (steps : List DebugStep)
    (before : List Move) : Session :=
  empty.moves persister (before ++ [.begin token, .start token slug steps])

def during (persister : Persister) (token : RunToken) (slug : String) (steps : List DebugStep)
    (before after : List Move) : Session :=
  (opened persister token slug steps before).moves persister after

def history (persister : Persister) (token : RunToken) (slug : String) (steps : List DebugStep)
    (before after : List Move) : List Call :=
  empty.answered persister before ++
    (opened persister token slug steps before).answered persister after

def seat (persister : Persister) (before : List Move) : Nat :=
  (empty.moves persister before).jobs.length

/-- A run begins after some moves, some records are persisted for it at once and by one job, and it
is the current run from then on; a store answers what the job asks. -/
structure Persists (keeper : Keeper) (persister : Persister) (token : RunToken) (slug : String)
    (steps : List DebugStep) (before after : List Move) : Prop where
  lasting : ∀ move ∈ after, move.supersedes = false
  sole : ∀ slug' steps', .start token slug' steps' ∉ before ++ after
  served : Served keeper persister (seat persister before) (opened persister token slug steps before)
    (empty.answered persister before) after

theorem opened_eq (persister : Persister) (token : RunToken) (slug : String)
    (steps : List DebugStep) (before : List Move) :
    opened persister token slug steps before =
      ⟨Board.start token,
        (empty.moves persister before).jobs ++ [Job.start token slug steps]⟩ := by
  rw [opened, moves_append]
  rfl

theorem strangers_empty {own : Nat → Prop} : empty.Strangers persister token own := by
  intro other guest hguest
  cases hguest

theorem Persists.strangers (h : Persists keeper persister token slug steps before after) :
    (empty.moves persister before).Strangers persister token (fun _ => False) ∧
      ∀ call ∈ empty.answered persister before, Job.Foreign persister token call :=
  strangers_empty.moves fun slug' steps' hmem => h.sole slug' steps' (List.mem_append_left _ hmem)

theorem Persists.hosts (h : Persists keeper persister token slug steps before after) :
    Hosts persister (seat persister before) token (opened persister token slug steps before)
      (Job.start token slug steps) := by
  rw [opened_eq]
  refine ⟨List.getElem?_concat_length, rfl, ?_, ?_⟩
  · rw [Board.isCurrent_start]
    exact decide_eq_true rfl
  · intro other guest hguest
    -- the jobs that were there are strangers, and the new one is at its own place
    by_cases hlt : other < (empty.moves persister before).jobs.length
    · obtain ⟨haddressed, hne⟩ :=
        h.strangers.1 other guest ((List.getElem?_append_left hlt).symm.trans hguest)
      exact ⟨haddressed, fun _ => hne not_false⟩
    · have hmem := List.mem_of_getElem?
        ((List.getElem?_append_right (Nat.not_lt.mp hlt)).symm.trans hguest)
      obtain rfl : guest = Job.start token slug steps := List.mem_singleton.mp hmem
      refine ⟨Job.addressed_of_call?_eq_none rfl, fun hother => absurd ?_ hother⟩
      have hbound := (List.getElem?_eq_some_iff.mp hguest).1
      rw [List.length_append, List.length_singleton] at hbound
      exact Nat.le_antisymm (Nat.le_of_lt_succ hbound) (Nat.not_lt.mp hlt)

/-- What is preserved holds at any time of a run. -/
theorem Persists.exists_preserved {P : Board → List Call → Job → Prop}
    (h : Persists keeper persister token slug steps before after)
    (hP : Preserved keeper persister token P)
    (hstart : P (Board.start token) [] (Job.start token slug steps)) :
    ∃ job, Hosts persister (seat persister before) token
        (during persister token slug steps before after) job ∧
      P (during persister token slug steps before after).board
        (history persister token slug steps before after) job := by
  have hhosts := h.hosts
  have hboard : (opened persister token slug steps before).board = Board.start token := by
    rw [opened_eq]
  -- the calls that were answered before the run began are those of other runs
  have hearlier (calls : List Call) (hcalls : ∀ call ∈ calls, Job.Foreign persister token call) :
      P (Board.start token) calls (Job.start token slug steps) := by
    induction calls using List.reverseRecOn with
    | nil => exact hstart
    | append_singleton calls last ih =>
      apply hP.guest _ _ _ last rfl (Job.addressed_of_call?_eq_none rfl)
      · exact hcalls last (List.mem_append_right _ (List.mem_singleton_self last))
      · exact ih fun call hmem => hcalls call (List.mem_append_left _ hmem)
  apply hP.moves h.lasting _ h.served hhosts
  · rw [hboard]
    exact hearlier _ h.strangers.2
  · intro slug' steps' hmem
    exact h.sole slug' steps' (List.mem_append_right _ hmem)

theorem Persists.exists_hosts (h : Persists keeper persister token slug steps before after) :
    ∃ job, Hosts persister (seat persister before) token
      (during persister token slug steps before after) job := by
  have hnothing : Preserved keeper persister token fun _ _ _ => True :=
    ⟨fun _ _ _ _ _ _ _ _ => trivial, fun _ _ _ _ _ _ _ => trivial, fun _ _ _ _ _ _ _ => trivial⟩
  obtain ⟨job, hhosts, -⟩ := h.exists_preserved hnothing trivial
  exact ⟨job, hhosts⟩

/-! ### Every run can be finished -/

theorem Persists.concat {move : Move}
    (h : Persists keeper persister token slug steps before after)
    (hlasting : move.supersedes = false) (hsole : ∀ slug' steps', move ≠ .start token slug' steps')
    (hserved : ∀ answer call, move = .receive (seat persister before) answer →
      (during persister token slug steps before after).call? persister
        (seat persister before) = some call →
      answer = keeper.answer (history persister token slug steps before after) call) :
    Persists keeper persister token slug steps before (after ++ [move]) where
  lasting := by
    intro other hmem
    rcases List.mem_append.mp hmem with hmem | hmem
    · exact h.lasting other hmem
    · rw [List.mem_singleton.mp hmem]
      exact hlasting
  sole := by
    intro slug' steps' hmem
    rw [← List.append_assoc] at hmem
    rcases List.mem_append.mp hmem with hmem | hmem
    · exact h.sole slug' steps' hmem
    · exact hsole slug' steps' (List.mem_singleton.mp hmem).symm
  served := h.served.concat hserved

theorem during_concat (persister : Persister) (token : RunToken) (slug : String)
    (steps : List DebugStep) (before after : List Move) (move : Move) :
    during persister token slug steps before (after ++ [move]) =
      (during persister token slug steps before after).move persister move := by
  rw [during, moves_append]
  rfl

/-- A job that is not finished can go on, and is nearer to the end then. -/
theorem Persists.exists_next {job : Job}
    (h : Persists keeper persister token slug steps before after)
    (hhosts : Hosts persister (seat persister before) token
      (during persister token slug steps before after) job)
    (hphase : job.phase ≠ .finished) :
    ∃ move next, Persists keeper persister token slug steps before (after ++ [move]) ∧
      Hosts persister (seat persister before) token
        (during persister token slug steps before (after ++ [move])) next ∧
      next.work < job.work := by
  -- a job that waits gets the answer of the store, and any other one goes on by itself
  cases hcall : job.call? persister with
  | none =>
    have hcurrent : (during persister token slug steps before after).board.isCurrent job.token =
        true := by
      rw [hhosts.own]
      exact hhosts.current
    refine ⟨.step (seat persister before), _, h.concat rfl (by simp) (by simp), ?_,
      (Job.advance_step persister hcurrent).work_lt hphase hcall⟩
    rw [during_concat]
    exact hhosts.next rfl (by simp) (jobs_step hhosts.held)
  | some call =>
    let answer := keeper.answer (history persister token slug steps before after) call
    refine ⟨.receive (seat persister before) answer, _, h.concat rfl (by simp) ?_, ?_,
      @Job.work_receive_lt keeper _ _ (history persister token slug steps before after) _ hcall⟩
    · intro given waited hmove hwaited
      rw [Session.call?, hhosts.held, Option.bind_some, hcall] at hwaited
      rw [← Option.some_inj.mp hwaited]
      exact (Move.receive.inj hmove).2.symm
    · rw [during_concat]
      exact hhosts.next rfl (by simp) (jobs_receive hhosts.held answer)

structure Leaves (keeper : Keeper) (persister : Persister) (token : RunToken) (slug : String)
    (steps : List DebugStep) (before after : List Move) (board : Board) (summary : Summary) :
    Prop where
  persists : Persists keeper persister token slug steps before after
  shown : (during persister token slug steps before after).board = board
  finished : ∃ job, (during persister token slug steps before after).jobs[
    seat persister before]? = some job ∧ job.phase = .finished ∧ job.summary = summary

/-- A run can be persisted to the end from wherever it stands. -/
theorem Persists.exists_leaves (h : Persists keeper persister token slug steps before after) :
    ∃ late board summary,
      Leaves keeper persister token slug steps before (after ++ late) board summary := by
  obtain ⟨job, hhosts⟩ := h.exists_hosts
  -- with every move less is left to do
  induction hwork : job.work using Nat.strong_induction_on generalizing after job with
  | _ work ih =>
    by_cases hphase : job.phase = .finished
    · refine ⟨[], _, job.summary, ?_, rfl, ?_⟩
      · rw [List.append_nil]
        exact h
      · rw [List.append_nil]
        exact ⟨job, hhosts.held, hphase, rfl⟩
    · obtain ⟨move, next, hnext, hhosts', hlt⟩ := h.exists_next hhosts hphase
      obtain ⟨late, board, summary, hleaves⟩ := ih next.work (hwork ▸ hlt) hnext next hhosts' rfl
      refine ⟨move :: late, board, summary, ?_⟩
      rw [List.append_assoc] at hleaves
      exact hleaves

/-! ### The end of a run -/

structure Accounted (steps : List DebugStep) (board : Board) (summary : Summary) : Prop where
  cancelled : summary.cancelled = false
  total : summary.saved + summary.failed + summary.skipped = steps.length
  skipped : summary.skipped = steps.countP fun record => !hasImage record
  saving : board.saving = []

/-- The indices on the board are those of the images, told apart by whether they could be saved, and
they are as many as the summary says. -/
structure Sorted (keeper : Keeper) (persister : Persister) (token : RunToken) (slug : String)
    (steps : List DebugStep) (board : Board) (summary : Summary) : Prop where
  saved (index : UInt32) : index ∈ board.saved.map Prod.fst ↔
    ∃ record ∈ steps, record.index = index ∧ Succeeds keeper persister token slug record
  savedCount : (board.saved.map Prod.fst).Nodup ∧ board.saved.length = summary.saved
  errors (index : UInt32) : index ∈ board.errors.map Prod.fst ↔
    ∃ record ∈ steps, record.index = index ∧ hasImage record = true ∧
      ¬ Succeeds keeper persister token slug record
  failedCount : (board.errors.map Prod.fst).Nodup ∧ board.errors.length = summary.failed
  idle (index : UInt32) (h : ∀ record ∈ steps, hasImage record = true → record.index ≠ index) :
    board.status index = .idle

section End

variable {board : Board} {summary : Summary}

theorem Leaves.exists_account (hisolated : keeper.Isolated)
    (h : Leaves keeper persister token slug steps before after board summary) :
    ∃ job, job.token = token ∧ job.phase = .finished ∧ job.summary = summary ∧
      Job.Account keeper persister slug steps board
        (history persister token slug steps before after) job := by
  obtain ⟨job, hjob, hphase, hsummary⟩ := h.finished
  obtain ⟨last, hhosts, haccount⟩ := h.persists.exists_preserved
    (Job.preserved_account hisolated token slug steps)
    (Job.account_start keeper persister token slug steps)
  obtain rfl : last = job := Option.some_inj.mp (hhosts.held.symm.trans hjob)
  rw [h.shown] at haccount
  exact ⟨last, hhosts.own, hphase, hsummary, haccount⟩

theorem Leaves.accounted (hisolated : keeper.Isolated)
    (h : Leaves keeper persister token slug steps before after board summary) :
    Accounted steps board summary := by
  obtain ⟨job, -, hphase, rfl, haccount⟩ := h.exists_account hisolated
  have hremaining : job.remaining = [] := haccount.tally.remaining hphase
  have htotal := haccount.tally.total
  have hskipped := haccount.tally.skipped
  have hsaving := haccount.tally.saving
  rw [hphase, hremaining] at htotal
  rw [hremaining] at hskipped
  rw [hphase] at hsaving
  exact ⟨haccount.tally.cancelled, htotal, hskipped, hsaving⟩

/-- The board shows how each record ends when it is persisted alone. -/
theorem Leaves.shows (hisolated : keeper.Isolated)
    (hdistinct : ((steps.filter hasImage).map DebugStep.index).Nodup)
    (h : Leaves keeper persister token slug steps before after board summary) :
    board.Shows (steps.filterMap (judge? keeper persister token slug)) ∧
      board.saved.length = summary.saved ∧ board.errors.length = summary.failed := by
  obtain ⟨job, htoken, hphase, rfl, haccount⟩ := h.exists_account hisolated
  obtain ⟨judged, hledger⟩ := haccount.ledger hdistinct
  have hremaining : job.remaining = [] := haccount.tally.remaining hphase
  -- nothing is in hand and nothing is left, so that all records are done with
  have hjudged : judged = steps.filterMap (judge? keeper persister token slug) := by
    have hsettled := hledger.settled
    rw [hremaining, Job.promise?, hphase, Job.verdicts, Job.verdicts, htoken, haccount.slug] at hsettled
    rw [← hsettled]
    exact (List.append_nil judged).symm
  have hindices : (judged.map Write.index).Nodup := by
    have hall := hledger.nodup hdistinct
    exact (List.nodup_append.mp hall).1
  have hsaved : board.saved.length = job.summary.saved := by
    rw [hledger.savedCount, hledger.saved.length_eq]
  have hfailed : board.errors.length = job.summary.failed := by
    rw [hledger.failedCount, hledger.errors.length_eq]
  refine ⟨?_, hsaved, hfailed⟩
  rw [← hjudged]
  exact ⟨(h.accounted hisolated).saving, hledger.saved, hledger.errors, hindices⟩

theorem Leaves.sorted (hisolated : keeper.Isolated)
    (hdistinct : ((steps.filter hasImage).map DebugStep.index).Nodup)
    (h : Leaves keeper persister token slug steps before after board summary) :
    Sorted keeper persister token slug steps board summary := by
  obtain ⟨hshows, hsaved, hfailed⟩ := h.shows hisolated hdistinct
  refine ⟨?_, ⟨hshows.nodup_saved, hsaved⟩, ?_, ⟨hshows.nodup_errors, hfailed⟩, ?_⟩
  · intro index
    rw [hshows.mem_saved_iff, exists_saved_iff]
  · intro index
    rw [hshows.mem_errors_iff, exists_failed_iff]
  · intro index hnone
    apply hshows.status_of_not_mem
    intro hmem
    obtain ⟨write, hwrite, hindex⟩ := List.mem_map.mp hmem
    obtain ⟨record, hrecord, hjudge⟩ := List.mem_filterMap.mp hwrite
    exact hnone record hrecord (hasImage_of_judge? hjudge)
      ((index_of_judge? hjudge).symm.trans hindex)

/-- The status of a record with an image is how it ends when it is persisted alone. -/
theorem Leaves.status_eq {record : DebugStep} {write : Write} (hisolated : keeper.Isolated)
    (hdistinct : ((steps.filter hasImage).map DebugStep.index).Nodup)
    (h : Leaves keeper persister token slug steps before after board summary)
    (hrecord : record ∈ steps) (hjudge : judge? keeper persister token slug record = some write) :
    board.status record.index = write.status := by
  obtain ⟨hshows, -⟩ := h.shows hisolated hdistinct
  have hmem : write ∈ steps.filterMap (judge? keeper persister token slug) :=
    List.mem_filterMap.mpr ⟨record, hrecord, hjudge⟩
  have himage := hasImage_of_judge? hjudge
  by_cases hsucceeds : Succeeds keeper persister token slug record
  · obtain ⟨asset, hasset⟩ := judge?_of_succeeds hsucceeds
    obtain rfl := Option.some_inj.mp (hasset.symm.trans hjudge)
    exact hshows.status_of_saved hmem
  · obtain ⟨message, hmessage⟩ := judge?_of_not_succeeds himage hsucceeds
    obtain rfl := Option.some_inj.mp (hmessage.symm.trans hjudge)
    exact hshows.status_of_failed hmem

theorem nodup_singleton_images (record : DebugStep) :
    (([record].filter hasImage).map DebugStep.index).Nodup := by
  cases himage : hasImage record <;> simp [himage]

/-- A record has the status it would have if it had been persisted alone, unless it has no image and
shares its index with one that has. -/
theorem Leaves.status_eq_alone {record : DebugStep} {before' after' : List Move} {board' : Board}
    {summary' : Summary} (hisolated : keeper.Isolated)
    (hdistinct : ((steps.filter hasImage).map DebugStep.index).Nodup)
    (h : Leaves keeper persister token slug steps before after board summary)
    (hrecord : record ∈ steps)
    (hown : hasImage record = true ∨ record.index ∉ (steps.filter hasImage).map DebugStep.index)
    (halone : Leaves keeper persister token slug [record] before' after' board' summary') :
    board.status record.index = board'.status record.index := by
  cases himage : hasImage record with
  | true =>
    -- both runs end the record in the same way
    have hjudge : ∃ write, judge? keeper persister token slug record = some write := by
      obtain ⟨payload, hfind⟩ := Option.isSome_iff_exists.mp himage
      rw [judge?, hfind]
      exact ⟨_, rfl⟩
    obtain ⟨write, hwrite⟩ := hjudge
    rw [h.status_eq hisolated hdistinct hrecord hwrite,
      halone.status_eq hisolated (nodup_singleton_images record) (List.mem_singleton_self record)
        hwrite]
  | false =>
    rw [(h.sorted hisolated hdistinct).idle, (halone.sorted hisolated (nodup_singleton_images record)).idle]
    -- no image has the index in either run
    · intro other hother hotherimage
      rw [List.mem_singleton.mp hother, himage] at hotherimage
      cases hotherimage
    · intro other hother hotherimage hindex
      rcases hown with hown | hown
      · rw [himage] at hown
        cases hown
      · apply hown
        rw [← hindex]
        exact List.mem_map_of_mem (List.mem_filter.mpr ⟨hother, hotherimage⟩)

end End

/-- A run that is persisted while it is the current one can always be finished. Then every record is
counted once and nothing is left marked as being saved. Where no two images share an index, the
board has the images that could be saved and those that could not, an index without an image stays
idle, and each record has the status it would have if it had been persisted alone; only a record
without an image that shares its index with an image shows the status of that. -/
theorem outcome_of_persists (hisolated : keeper.Isolated)
    (h : Persists keeper persister token slug steps before after) :
    (∃ late board summary,
      Leaves keeper persister token slug steps before (after ++ late) board summary) ∧
    ∀ board summary, Leaves keeper persister token slug steps before after board summary →
      Accounted steps board summary ∧
      (((steps.filter hasImage).map DebugStep.index).Nodup →
        Sorted keeper persister token slug steps board summary ∧
        ∀ record ∈ steps,
          (hasImage record = true ∨
            record.index ∉ (steps.filter hasImage).map DebugStep.index) →
          ∀ before' after' board' summary',
            Leaves keeper persister token slug [record] before' after' board' summary' →
              board.status record.index = board'.status record.index) := by
  refine ⟨h.exists_leaves, fun board summary hleaves => ?_⟩
  refine ⟨hleaves.accounted hisolated, fun hdistinct => ?_⟩
  refine ⟨hleaves.sorted hisolated hdistinct, ?_⟩
  intro record hrecord hown before' after' board' summary' halone
  exact hleaves.status_eq_alone hisolated hdistinct hrecord hown halone

theorem persists_nil (keeper : Keeper) (persister : Persister) (token : RunToken) (slug : String)
    (steps : List DebugStep) : Persists keeper persister token slug steps [] [] where
  lasting := by simp
  sole := by simp
  served := by
    intro mid answer late call hall
    cases mid <;> cases hall

def crowded (full : String) : Keeper where
  upload _ path _ _ := if path = full then .error (.upload "no room") else .ok ()
  sign _ path _ := .ok ("https://store/" ++ path)

theorem isolated_crowded (full : String) : (crowded full).Isolated := by
  intro earlier other call _
  cases call <;> rfl

def plain (index : UInt32) : DebugStep :=
  { pictured index with parsedJson := none }

theorem find?_pictured (index : UInt32) : Image.find? (pictured index) = some "iVBORw0KGgo=" := by
  have hfind : Image.find? (pictured 0) = some "iVBORw0KGgo=" := by decide +kernel
  exact hfind

theorem exists_decode_pictured :
    ∃ content, Image.decode "iVBORw0KGgo=" = .ok (content, .png) :=
  ⟨_, rfl⟩

theorem succeeds_pictured_iff (full : String) (persister : Persister) (token : RunToken)
    (slug : String) (index : UInt32) :
    Succeeds (crowded full) persister token slug (pictured index) ↔
      objectPath persister.userId slug token index "png" ≠ full := by
  obtain ⟨content, hdecode⟩ := exists_decode_pictured
  constructor
  · intro hsucceeds hfull
    obtain ⟨payload, content', format, hfind, hdecode', hupload, -⟩ := hsucceeds
    obtain rfl := Option.some_inj.mp ((find?_pictured index).symm.trans hfind)
    rw [hdecode] at hdecode'
    obtain ⟨-, rfl⟩ := Prod.mk.inj (Except.ok.inj hdecode')
    have hrefused : (crowded full).upload [] (objectPath persister.userId slug token index "png")
        content' "image/png" = .error (.upload "no room") := if_pos hfull
    cases hrefused.symm.trans hupload
  · intro hroom
    have htaken : (crowded full).upload [] (objectPath persister.userId slug token index "png")
        content "image/png" = .ok () := if_neg hroom
    exact ⟨_, content, .png, find?_pictured index, hdecode, htaken, _, rfl⟩

/-- The store has no room for the third record. The first is saved all the same, and the third fails
as it does alone. -/
theorem outcome_of_persists_crowded :
    ∃ late board summary,
      Leaves (crowded (objectPath "user" "cat" ⟨1⟩ 3 "png")) ⟨"user", 60⟩ ⟨1⟩ "cat"
        [pictured 1, plain 2, pictured 3] [] late board summary ∧
      summary.cancelled = false ∧ summary.saved + summary.failed + summary.skipped = 3 ∧
      summary.skipped = 1 ∧ board.saving = [] ∧ 1 ∈ board.saved.map Prod.fst ∧
      3 ∈ board.errors.map Prod.fst ∧ board.status 2 = .idle ∧
      ∃ late' board' summary',
        Leaves (crowded (objectPath "user" "cat" ⟨1⟩ 3 "png")) ⟨"user", 60⟩ ⟨1⟩ "cat"
          [pictured 3] [] late' board' summary' ∧ board.status 3 = board'.status 3 := by
  have hisolated := isolated_crowded (objectPath "user" "cat" ⟨1⟩ 3 "png")
  have hpersists := persists_nil (crowded (objectPath "user" "cat" ⟨1⟩ 3 "png")) ⟨"user", 60⟩ ⟨1⟩
    "cat"
  obtain ⟨⟨late, board, summary, hleaves⟩, -⟩ :=
    outcome_of_persists hisolated (hpersists [pictured 1, plain 2, pictured 3])
  obtain ⟨⟨late', board', summary', halone⟩, -⟩ :=
    outcome_of_persists hisolated (hpersists [pictured 3])
  obtain ⟨-, houtcome⟩ := outcome_of_persists hisolated hleaves.persists
  obtain ⟨haccounted, hrest⟩ := houtcome board summary hleaves
  obtain ⟨hsorted, hstatus⟩ := hrest (by decide +kernel)
  -- the paths of the two images differ, since their indices do
  have hpath : objectPath "user" "cat" ⟨1⟩ 1 "png" ≠ objectPath "user" "cat" ⟨1⟩ 3 "png" := by
    intro hsame
    have hindex := (@objectPath_inj_of_format _ _ _ _ _ _ _ _ .png .png hsame).2
    cases hindex
  have hfirst : Succeeds (crowded (objectPath "user" "cat" ⟨1⟩ 3 "png")) ⟨"user", 60⟩ ⟨1⟩ "cat"
      (pictured 1) := (succeeds_pictured_iff _ _ _ _ 1).mpr hpath
  have hthird : ¬ Succeeds (crowded (objectPath "user" "cat" ⟨1⟩ 3 "png")) ⟨"user", 60⟩ ⟨1⟩ "cat"
      (pictured 3) := fun hsucceeds => (succeeds_pictured_iff _ _ _ _ 3).mp hsucceeds rfl
  refine ⟨late, board, summary, hleaves, haccounted.cancelled, haccounted.total, ?_,
    haccounted.saving, ?_, ?_, ?_, late', board', summary', halone, ?_⟩
  · rw [haccounted.skipped]
    decide +kernel
  · exact (hsorted.saved 1).mpr ⟨pictured 1, by simp, rfl, hfirst⟩
  · exact (hsorted.errors 3).mpr ⟨pictured 3, by simp, rfl, by decide +kernel, hthird⟩
  · exact hsorted.idle 2 (by decide +kernel)
  · exact hstatus (pictured 3) (by simp) (.inl (by decide +kernel)) [] late' board' summary' halone

/-- A record without an image does not stay idle where it shares its index with an image. -/
theorem status_plain_ne_idle :
    (([pictured 0, plain 0].filter hasImage).map DebugStep.index).Nodup ∧
      hasImage (plain 0) = false ∧
      (∃ late board summary,
        Leaves (crowded "") ⟨"user", 60⟩ ⟨1⟩ "cat" [pictured 0, plain 0] [] late board summary) ∧
      ∀ late board summary,
        Leaves (crowded "") ⟨"user", 60⟩ ⟨1⟩ "cat" [pictured 0, plain 0] [] late board summary →
          board.status (plain 0).index ≠ .idle := by
  have hdistinct : (([pictured 0, plain 0].filter hasImage).map DebugStep.index).Nodup := by
    decide +kernel
  have hpersists := persists_nil (crowded "") ⟨"user", 60⟩ ⟨1⟩ "cat" [pictured 0, plain 0]
  refine ⟨hdistinct, by decide +kernel, hpersists.exists_leaves, ?_⟩
  intro late board summary hleaves
  have himage : hasImage (pictured 0) = true := by decide +kernel
  have hsorted := hleaves.sorted (isolated_crowded "") hdistinct
  intro hidle
  -- the image is either saved or failed, and idle is neither
  by_cases hsucceeds : Succeeds (crowded "") ⟨"user", 60⟩ ⟨1⟩ "cat" (pictured 0)
  · obtain ⟨asset, hasset⟩ := judge?_of_succeeds hsucceeds
    have hstatus := hleaves.status_eq (isolated_crowded "") hdistinct List.mem_cons_self hasset
    cases hidle.symm.trans hstatus
  · obtain ⟨message, hmessage⟩ := judge?_of_not_succeeds himage hsucceeds
    have hstatus := hleaves.status_eq (isolated_crowded "") hdistinct List.mem_cons_self hmessage
    cases hidle.symm.trans hstatus

end Session

end Asset

end Cattery
