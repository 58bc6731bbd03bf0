import Cattery.Proofs.Marks

/-! What a job does that others notice, in its order. A job calls the store for one record after the
other, and for those only that it could mark; once its run was superseded it ends at its next
write. -/

namespace Cattery.Asset

/-! ## Deeds -/

inductive Deed where
  | write (write : Write) (applied : Bool)
  | call (call : Call)
deriving DecidableEq

/-- The order of the deeds for one record: its image is marked as being saved, uploaded, given a
URL, and marked as saved or failed. -/
@[simp] def Deed.stage : Deed → Nat
  | .write (.saving _) _ => 0
  | .call (.upload _ _ _) => 1
  | .call (.sign _ _) => 2
  | .write (.saved _ _) _ => 3
  | .write (.failed _ _) _ => 3

def Deed.isUpload : Deed → Bool
  | .call (.upload _ _ _) => true
  | _ => false

def Deed.isSign : Deed → Bool
  | .call (.sign _ _) => true
  | _ => false

theorem Deed.of_isUpload {deed : Deed} (h : deed.isUpload = true) :
    (∃ call, deed = .call call) ∧ deed.stage = 1 := by
  cases deed with
  | write _ _ => cases h
  | call call =>
    cases call with
    | upload _ _ _ => exact ⟨⟨_, rfl⟩, rfl⟩
    | sign _ _ => cases h

theorem Deed.of_isSign {deed : Deed} (h : deed.isSign = true) :
    (∃ call, deed = .call call) ∧ deed.stage = 2 := by
  cases deed with
  | write _ _ => cases h
  | call call =>
    cases call with
    | upload _ _ _ => cases h
    | sign _ _ => exact ⟨⟨_, rfl⟩, rfl⟩

structure Entry where
  place : Nat
  deed : Deed
deriving DecidableEq

namespace Entry

def Before (entry later : Entry) : Prop :=
  entry.place < later.place ∨ entry.place = later.place ∧ entry.deed.stage < later.deed.stage

def rank (entry : Entry) : Nat :=
  4 * entry.place + entry.deed.stage

theorem stage_lt (deed : Deed) : deed.stage < 4 := by
  cases deed with
  | write write applied => cases write <;> simp [Deed.stage]
  | call call => cases call <;> simp [Deed.stage]

theorem before_iff (entry later : Entry) : entry.Before later ↔ entry.rank < later.rank := by
  have hentry := stage_lt entry.deed
  have hlater := stage_lt later.deed
  rw [Before, rank, rank]
  omega

/-- Of the entries of one rank there is one at most. -/
theorem countP_le_one {log : List Entry} {test : Entry → Bool} (bound : Nat)
    (h : log.Pairwise fun entry later => entry.rank < later.rank)
    (htest : ∀ entry ∈ log, test entry = true → entry.rank = bound) : log.countP test ≤ 1 := by
  induction h with
  | nil => exact Nat.zero_le 1
  | @cons entry rest hentry _ ih =>
    cases hfirst : test entry with
    | false =>
      rw [List.countP_cons_of_neg (by simp [hfirst])]
      exact ih fun later hlater => htest later (List.mem_cons_of_mem _ hlater)
    | true =>
      -- the rest is above the first, which has the rank already
      have hrest : rest.countP test = 0 := by
        refine List.countP_eq_zero.mpr fun later hlater hsecond => ?_
        have hlt := hentry later hlater
        rw [htest entry List.mem_cons_self hfirst,
          htest later (List.mem_cons_of_mem _ hlater) hsecond] at hlt
        exact Nat.lt_irrefl _ hlt
      exact Nat.le_of_eq (by rw [List.countP_cons_of_pos hfirst, hrest])

end Entry

@[simp] def Phase.stage : Phase → Nat
  | .scanning => 0
  | .decoding _ _ => 1
  | .uploading _ _ _ _ => 2
  | .signing _ _ => 3
  | .publishing _ _ => 3
  | .rejecting _ _ => 3
  | .finished => 4

@[simp] def Phase.inHand : Phase → Nat
  | .scanning => 0
  | .decoding _ _ => 1
  | .uploading _ _ _ _ => 1
  | .signing _ _ => 1
  | .publishing _ _ => 1
  | .rejecting _ _ => 1
  | .finished => 0

namespace Job

def done (job : Job) : Nat :=
  job.summary.saved + job.summary.failed + job.summary.skipped

def rank (job : Job) : Nat :=
  4 * job.done + job.phase.stage

def startedCall? (persister : Persister) (job next : Job) : Option Call :=
  if next.call? persister = job.call? persister then none else next.call? persister

@[simp] def close (applied : Bool) (job : Job) : Job :=
  if applied then { job with phase := .scanning } else job.abandon

/-- All that can happen to a job at once, with its deeds, where `current` says whether its run is
the current one. -/
inductive Turn (persister : Persister) (current : Bool) (job : Job) : List Deed → Job → Prop where
  | idle : Turn persister current job [] job
  | finish (hphase : job.phase = .scanning) (hremaining : job.remaining = []) :
    Turn persister current job [] { job with phase := .finished }
  | skip {record : DebugStep} {rest : List DebugStep} (hphase : job.phase = .scanning)
    (hremaining : job.remaining = record :: rest) (hfind : Image.find? record = none) :
    Turn persister current job []
      { job with
        remaining := rest, summary := { job.summary with skipped := job.summary.skipped + 1 } }
  | mark {record : DebugStep} {rest : List DebugStep} {payload : String}
    (hphase : job.phase = .scanning) (hremaining : job.remaining = record :: rest)
    (hfind : Image.find? record = some payload) (hcurrent : current = true) :
    Turn persister current job [.write (.saving record.index) true]
      { job with remaining := rest, phase := .decoding record.index payload }
  | refuse {record : DebugStep} {rest : List DebugStep} {payload : String}
    (hphase : job.phase = .scanning) (hremaining : job.remaining = record :: rest)
    (hfind : Image.find? record = some payload) (hcurrent : current = false) :
    Turn persister current job [.write (.saving record.index) false] job.abandon
  | upload {index : UInt32} {payload : String} {content : List UInt8} {format : Image.Format}
    (hphase : job.phase = .decoding index payload)
    (hdecode : Image.decode payload = .ok (content, format)) :
    Turn persister current job
      [.call (.upload (objectPath persister.userId job.slug job.token index format.extension)
        content format.contentType)]
      { job with
        phase := .uploading index
          (objectPath persister.userId job.slug job.token index format.extension) content
          format.contentType }
  | sign {index : UInt32} {path contentType : String} {content : List UInt8}
    (hphase : job.phase = .uploading index path content contentType) :
    Turn persister current job [.call (.sign path persister.signedUrlTtlSecs)]
      { job with phase := .signing index path }
  | signed {index : UInt32} {path url : String} (hphase : job.phase = .signing index path) :
    Turn persister current job [] { job with phase := .publishing index ⟨url, path⟩ }
  | fail {index : UInt32} {message : String}
    (hphase : (∃ payload, job.phase = .decoding index payload) ∨
      (∃ path content contentType, job.phase = .uploading index path content contentType) ∨
      ∃ path, job.phase = .signing index path) :
    Turn persister current job [] { job with phase := .rejecting index message }
  | publish {index : UInt32} {asset : SavedAsset} (hphase : job.phase = .publishing index asset) :
    Turn persister current job [.write (.saved index asset) current]
      (close current
        { job with summary := { job.summary with saved := job.summary.saved + 1 } })
  | reject {index : UInt32} {message : String} (hphase : job.phase = .rejecting index message) :
    Turn persister current job [.write (.failed index message) current]
      (close current
        { job with summary := { job.summary with failed := job.summary.failed + 1 } })

variable {persister : Persister} {board : Board} {job next : Job} {answer : Answer}

theorem startedCall?_self (persister : Persister) (job : Job) :
    job.startedCall? persister job = none :=
  if_pos rfl

theorem turn_receive (persister : Persister) (current : Bool) (job : Job) (answer : Answer) :
    Turn persister current job
      ((job.startedCall? persister (job.receive answer)).toList.map .call)
      (job.receive answer) := by
  -- an answer to something else
  have hidle : Turn persister current job
      ((job.startedCall? persister job).toList.map .call) job := by
    rw [startedCall?_self]
    exact .idle
  obtain ⟨token, slug, remaining, phase, summary⟩ := job
  cases phase with
  | uploading index path content contentType =>
    cases answer with
    | stored => exact .sign rfl
    | failed failure => exact .fail (.inr (.inl ⟨_, _, _, rfl⟩))
    | signed url => exact hidle
  | signing index path =>
    cases answer with
    | stored => exact hidle
    | failed failure => exact .fail (.inr (.inr ⟨_, rfl⟩))
    | signed url => exact .signed rfl
  | scanning => exact hidle
  | decoding index payload => exact hidle
  | publishing index asset => exact hidle
  | rejecting index message => exact hidle
  | finished => exact hidle

theorem turn_step (persister : Persister) (board : Board) (job : Job) :
    Turn persister (board.isCurrent job.token) job
      (job.write?.toList.map (fun write => .write write (board.isCurrent job.token)) ++
        (job.startedCall? persister (job.step persister board).2).toList.map .call)
      (job.step persister board).2 := by
  obtain ⟨token, slug, remaining, phase, summary⟩ := job
  cases phase with
  | scanning =>
    cases remaining with
    | nil => exact .finish rfl rfl
    | cons record rest =>
      cases hfind : Image.find? record with
      | none =>
        simp only [step, write?, hfind]
        exact .skip rfl rfl hfind
      | some payload =>
        simp only [step, write?, hfind]
        cases hcurrent : board.isCurrent token with
        | false =>
          rw [Board.commit_of_stale hcurrent]
          exact .refuse rfl rfl hfind rfl
        | true =>
          rw [Board.commit_of_current hcurrent]
          exact .mark rfl rfl hfind rfl
  | decoding index payload =>
    cases hdecode : Image.decode payload with
    | error fault =>
      simp only [step, hdecode]
      exact .fail (.inl ⟨_, rfl⟩)
    | ok image =>
      simp only [step, hdecode]
      exact .upload rfl hdecode
  | publishing index asset =>
    simp only [step]
    cases hcurrent : board.isCurrent token with
    | false =>
      rw [Board.commit_of_stale hcurrent]
      exact .publish rfl
    | true =>
      rw [Board.commit_of_current hcurrent]
      exact .publish rfl
  | rejecting index message =>
    simp only [step]
    cases hcurrent : board.isCurrent token with
    | false =>
      rw [Board.commit_of_stale hcurrent]
      exact .reject rfl
    | true =>
      rw [Board.commit_of_current hcurrent]
      exact .reject rfl
  | uploading index path content contentType =>
    simp only [step, startedCall?_self]
    exact .idle
  | signing index path =>
    simp only [step, startedCall?_self]
    exact .idle
  | finished => exact .idle

/-! ## The trail of one job -/

/-- A call that a job may make for a record: an upload of the image of this record, which was
marked before while the run was the current one, or a URL for what was uploaded. -/
def Backed (persister : Persister) (token : RunToken) (slug : String) (steps : List DebugStep)
    (log : List Entry) (place : Nat) : Call → Prop
  | .upload path content contentType =>
    ∃ record payload format, steps[place]? = some record ∧ Image.find? record = some payload ∧
      Image.decode payload = .ok (content, format) ∧
      path = objectPath persister.userId slug token record.index format.extension ∧
      contentType = format.contentType ∧ ⟨place, .write (.saving record.index) true⟩ ∈ log
  | .sign path ttlSecs =>
    ttlSecs = persister.signedUrlTtlSecs ∧
      ∃ content contentType, ⟨place, .call (.upload path content contentType)⟩ ∈ log

structure Stands (steps : List DebugStep) (log : List Entry) (job : Job) : Prop where
  rest (hphase : job.phase ≠ .finished) :
    steps.drop (job.done + job.phase.inHand) = job.remaining
  decoding {index : UInt32} {payload : String} (hphase : job.phase = .decoding index payload) :
    ∃ record, steps[job.done]? = some record ∧ record.index = index ∧
      Image.find? record = some payload ∧ ⟨job.done, .write (.saving index) true⟩ ∈ log
  uploading {index : UInt32} {path contentType : String} {content : List UInt8}
    (hphase : job.phase = .uploading index path content contentType) :
    ⟨job.done, .call (.upload path content contentType)⟩ ∈ log

structure Trail (persister : Persister) (steps : List DebugStep) (log : List Entry) (job : Job) :
    Prop where
  stands : job.Stands steps log
  ascending : log.Pairwise fun entry later => entry.rank < later.rank
  below : ∀ entry ∈ log, entry.rank < job.rank
  backed : ∀ place call, ⟨place, .call call⟩ ∈ log →
    Backed persister job.token job.slug steps log place call

theorem trail_start (persister : Persister) (token : RunToken) (slug : String)
    (steps : List DebugStep) : Trail persister steps [] (Job.start token slug steps) where
  stands := ⟨fun _ => rfl, nofun, nofun⟩
  ascending := List.Pairwise.nil
  below := by simp
  backed := by simp

section Turns

variable {current : Bool} {deeds : List Deed} {steps : List DebugStep} {log : List Entry}

theorem Turn.kept (h : Turn persister current job deeds next) :
    next.token = job.token ∧ next.slug = job.slug := by
  cases h with
  | publish hphase => cases current <;> exact ⟨rfl, rfl⟩
  | reject hphase => cases current <;> exact ⟨rfl, rfl⟩
  | idle | finish _ _ | skip _ _ _ | mark _ _ _ _ | refuse _ _ _ _ | upload _ _ | sign _ | signed _
  | fail _ => exact ⟨rfl, rfl⟩

/-- At most one thing is done at once, and it comes after everything before and before everything
after. -/
theorem Turn.rank (h : Turn persister current job deeds next) :
    job.rank ≤ next.rank ∧
      (deeds = [] ∨ ∃ deed, deeds = [deed] ∧ job.rank ≤ (Entry.mk job.done deed).rank ∧
        (Entry.mk job.done deed).rank < next.rank) := by
  -- the stage goes up in a record, and a record that is done with counts for all four stages
  unfold Job.rank done Entry.rank
  cases h with
  | idle => exact ⟨Nat.le_refl _, .inl rfl⟩
  | finish hphase _ => simp [hphase]
  | skip hphase _ _ =>
    refine ⟨?_, .inl rfl⟩
    simp only [hphase]
    omega
  | mark hphase _ _ _ => simp [hphase]
  | refuse hphase _ _ _ => simp [hphase, abandon]
  | upload hphase _ => simp [hphase]
  | sign hphase => simp [hphase]
  | signed hphase => simp [hphase]
  | fail hphase =>
    rcases hphase with ⟨_, hphase⟩ | ⟨_, _, _, hphase⟩ | ⟨_, hphase⟩ <;> simp [hphase]
  | publish hphase => cases current <;> simp [hphase, abandon] <;> omega
  | reject hphase => cases current <;> simp [hphase, abandon] <;> omega

theorem Backed.mono {token : RunToken} {slug : String} {more : List Entry} {place : Nat}
    {call : Call} (h : Backed persister token slug steps log place call) :
    Backed persister token slug steps (log ++ more) place call := by
  cases call with
  | upload path content contentType =>
    obtain ⟨record, payload, format, hrecord, hfind, hdecode, hpath, htype, hmark⟩ := h
    exact ⟨record, payload, format, hrecord, hfind, hdecode, hpath, htype,
      List.mem_append_left _ hmark⟩
  | sign path ttlSecs =>
    obtain ⟨httl, content, contentType, hupload⟩ := h
    exact ⟨httl, content, contentType, List.mem_append_left _ hupload⟩

theorem drop_eq_cons {place : Nat} {record : DebugStep} {rest : List DebugStep}
    (h : steps.drop place = record :: rest) :
    steps[place]? = some record ∧ steps.drop (place + 1) = rest := by
  have hhead : (steps.drop place)[0]? = some record := by
    rw [h]
    rfl
  constructor
  · rwa [List.getElem?_drop, Nat.add_zero] at hhead
  · rw [← List.tail_drop, h, List.tail_cons]

theorem Stands.drop_eq {phase : Phase} (h : job.Stands steps log) (hphase : job.phase = phase)
    (hne : phase ≠ .finished) : steps.drop (job.done + phase.inHand) = job.remaining := by
  subst hphase
  exact h.rest hne

theorem stands_close (hrest : steps.drop job.done = job.remaining) :
    (close current job).Stands steps log := by
  cases current with
  | false => exact ⟨fun h => absurd rfl h, nofun, nofun⟩
  | true => exact ⟨fun _ => hrest, nofun, nofun⟩

theorem Stands.turn (h : job.Stands steps log) (hturn : Turn persister current job deeds next) :
    next.Stands steps (log ++ deeds.map (Entry.mk job.done)) := by
  -- a record is either left, in hand, or counted in the summary
  cases hturn with
  | idle => rwa [List.map_nil, List.append_nil]
  | finish _ _ => exact ⟨fun h => absurd rfl h, nofun, nofun⟩
  | skip hphase hremaining _ =>
    have hrest := h.drop_eq hphase nofun
    rw [hremaining] at hrest
    refine ⟨fun _ => ?_, by simp [hphase], by simp [hphase]⟩
    simp only [hphase]
    exact (drop_eq_cons hrest).2
  | mark hphase hremaining hfind _ =>
    have hrest := h.drop_eq hphase nofun
    rw [hremaining] at hrest
    obtain ⟨hrecord, htail⟩ := drop_eq_cons hrest
    refine ⟨fun _ => htail, ?_, nofun⟩
    rintro _ _ ⟨⟩
    exact ⟨_, hrecord, rfl, hfind, List.mem_append_right _ List.mem_cons_self⟩
  | refuse _ _ _ _ => exact ⟨fun h => absurd rfl h, nofun, nofun⟩
  | upload hphase _ =>
    have hrest := h.drop_eq hphase nofun
    refine ⟨fun _ => hrest, nofun, ?_⟩
    rintro _ _ _ _ ⟨⟩
    exact List.mem_append_right _ List.mem_cons_self
  | sign hphase =>
    have hrest := h.drop_eq hphase nofun
    exact ⟨fun _ => hrest, nofun, nofun⟩
  | signed hphase =>
    have hrest := h.drop_eq hphase nofun
    exact ⟨fun _ => hrest, nofun, nofun⟩
  | fail hphase =>
    have hrest : steps.drop (job.done + 1) = job.remaining := by
      rcases hphase with ⟨_, hphase⟩ | ⟨_, _, _, hphase⟩ | ⟨_, hphase⟩ <;>
        exact h.drop_eq hphase nofun
    exact ⟨fun _ => hrest, nofun, nofun⟩
  | publish hphase =>
    apply stands_close
    rw [← h.drop_eq hphase nofun]
    exact congrArg (steps.drop ·) (by simp only [done, Phase.inHand]; omega)
  | reject hphase =>
    apply stands_close
    rw [← h.drop_eq hphase nofun]
    exact congrArg (steps.drop ·) (by simp only [done, Phase.inHand]; omega)

theorem Stands.backed (h : job.Stands steps log) (hturn : Turn persister current job deeds next)
    {call : Call} (hcall : .call call ∈ deeds) :
    Backed persister job.token job.slug steps log job.done call := by
  cases hturn with
  | upload hphase hdecode =>
    obtain rfl := Deed.call.inj (List.mem_singleton.mp hcall)
    obtain ⟨record, hrecord, rfl, hfind, hmark⟩ := h.decoding hphase
    exact ⟨record, _, _, hrecord, hfind, hdecode, rfl, rfl, hmark⟩
  | sign hphase =>
    obtain rfl := Deed.call.inj (List.mem_singleton.mp hcall)
    exact ⟨rfl, _, _, h.uploading hphase⟩
  | idle | finish _ _ | skip _ _ _ | mark _ _ _ _ | refuse _ _ _ _ | signed _ | fail _ | publish _
  | reject _ => simp at hcall

theorem Trail.turn (h : Trail persister steps log job)
    (hturn : Turn persister current job deeds next) :
    Trail persister steps (log ++ deeds.map (Entry.mk job.done)) next := by
  obtain ⟨hrank, hdeeds⟩ := hturn.rank
  obtain ⟨htoken, hslug⟩ := hturn.kept
  -- what is new comes after the log and before everything the job does next
  have hnew : ∀ entry ∈ deeds.map (Entry.mk job.done),
      job.rank ≤ entry.rank ∧ entry.rank < next.rank := by
    rcases hdeeds with rfl | ⟨deed, rfl, hlow, hhigh⟩
    · simp
    · intro entry hentry
      obtain rfl := List.mem_singleton.mp hentry
      exact ⟨hlow, hhigh⟩
  have hone : (deeds.map (Entry.mk job.done)).Pairwise
      fun entry later => entry.rank < later.rank := by
    rcases hdeeds with rfl | ⟨deed, rfl, -, -⟩
    · exact List.Pairwise.nil
    · exact List.pairwise_singleton _ _
  refine ⟨h.stands.turn hturn, ?_, ?_, ?_⟩
  · refine List.pairwise_append.mpr ⟨h.ascending, hone, ?_⟩
    intro entry hentry later hlater
    exact Nat.lt_of_lt_of_le (h.below entry hentry) (hnew later hlater).1
  · intro entry hentry
    rcases List.mem_append.mp hentry with hentry | hentry
    · exact Nat.lt_of_lt_of_le (h.below entry hentry) hrank
    · exact (hnew entry hentry).2
  · intro place call hentry
    rw [htoken, hslug]
    rcases List.mem_append.mp hentry with hentry | hentry
    · exact (h.backed place call hentry).mono
    · obtain ⟨deed, hdeed, hmk⟩ := List.mem_map.mp hentry
      obtain ⟨rfl, rfl⟩ := Entry.mk.inj hmk
      exact (h.stands.backed hturn hdeed).mono

end Turns

/-! ## Superseded jobs -/

/-- What a job did since its run was superseded: its writes were refused, and the first of them
ended it; its calls were for the record it had in hand. -/
structure Overtaken (origin : Nat) (log : List Entry) (job : Job) : Prop where
  refused : ∀ place write applied, ⟨place, .write write applied⟩ ∈ log →
    applied = false ∧ job.phase = .finished ∧ job.summary.cancelled = true
  calls : ∀ place call, ⟨place, .call call⟩ ∈ log → place = origin
  held : job.phase.inHand = 1 → job.done = origin

theorem overtaken_nil (job : Job) : Overtaken job.done [] job where
  refused := by simp
  calls := by simp
  held _ := rfl

section Stale

variable {deeds : List Deed} {log : List Entry} {origin : Nat}

theorem Turn.of_finished {current : Bool} (h : Turn persister current job deeds next)
    (hphase : job.phase = .finished) : deeds = [] ∧ next = job := by
  cases h with
  | idle => exact ⟨rfl, rfl⟩
  | finish h _ | skip h _ _ | mark h _ _ _ | refuse h _ _ _ | upload h _ | sign h | signed h
  | publish h | reject h => simp [hphase] at h
  | fail h => simp [hphase] at h

theorem Turn.of_write (h : Turn persister false job deeds next) {write : Write} {applied : Bool}
    (hwrite : .write write applied ∈ deeds) :
    applied = false ∧ next.phase = .finished ∧ next.summary.cancelled = true := by
  cases h with
  | refuse _ _ _ _ | publish _ | reject _ =>
    obtain ⟨-, rfl⟩ := Deed.write.inj (List.mem_singleton.mp hwrite)
    exact ⟨rfl, rfl, rfl⟩
  | mark _ _ _ hcurrent => cases hcurrent
  | idle | finish _ _ | skip _ _ _ | upload _ _ | sign _ | signed _ | fail _ => simp at hwrite

theorem Turn.of_call {current : Bool} (h : Turn persister current job deeds next) {call : Call}
    (hcall : .call call ∈ deeds) : job.phase.inHand = 1 := by
  cases h with
  | upload hphase _ | sign hphase => simp [hphase]
  | idle | finish _ _ | skip _ _ _ | mark _ _ _ _ | refuse _ _ _ _ | signed _ | fail _ | publish _
  | reject _ => simp at hcall

theorem Turn.of_inHand (h : Turn persister false job deeds next) (hnext : next.phase.inHand = 1) :
    job.phase.inHand = 1 ∧ next.done = job.done := by
  cases h with
  | idle => exact ⟨hnext, rfl⟩
  | upload hphase _ | sign hphase | signed hphase => exact ⟨by simp [hphase], rfl⟩
  | fail hphase =>
    refine ⟨?_, rfl⟩
    rcases hphase with ⟨_, hphase⟩ | ⟨_, _, _, hphase⟩ | ⟨_, hphase⟩ <;> simp [hphase]
  | skip hphase _ _ => simp [hphase] at hnext
  -- only a mark takes a record, and it is refused
  | mark _ _ _ hcurrent => cases hcurrent
  | finish _ _ | refuse _ _ _ _ | publish _ | reject _ => cases hnext

theorem Overtaken.turn (h : Overtaken origin log job)
    (hturn : Turn persister false job deeds next) :
    Overtaken origin (log ++ deeds.map (Entry.mk job.done)) next := by
  refine ⟨?_, ?_, ?_⟩
  · intro place write applied hentry
    rcases List.mem_append.mp hentry with hentry | hentry
    · -- a refused write ended the job, so that nothing changes any more
      obtain ⟨happlied, hphase, hcancelled⟩ := h.refused place write applied hentry
      obtain ⟨-, rfl⟩ := hturn.of_finished hphase
      exact ⟨happlied, hphase, hcancelled⟩
    · obtain ⟨deed, hdeed, hmk⟩ := List.mem_map.mp hentry
      obtain ⟨-, rfl⟩ := Entry.mk.inj hmk
      exact hturn.of_write hdeed
  · intro place call hentry
    rcases List.mem_append.mp hentry with hentry | hentry
    · exact h.calls place call hentry
    · obtain ⟨deed, hdeed, hmk⟩ := List.mem_map.mp hentry
      obtain ⟨rfl, rfl⟩ := Entry.mk.inj hmk
      exact h.held (hturn.of_call hdeed)
  · intro hnext
    obtain ⟨hheld, hdone⟩ := hturn.of_inHand hnext
    rw [hdone, h.held hheld]

theorem Overtaken.countP_le_one (h : Overtaken origin log job) {test : Deed → Bool} {stage : Nat}
    (hascending : log.Pairwise fun entry later => entry.rank < later.rank)
    (htest : ∀ deed, test deed = true → (∃ call, deed = .call call) ∧ deed.stage = stage) :
    log.countP (fun entry => test entry.deed) ≤ 1 := by
  -- the record and the kind of call make up the rank
  refine Entry.countP_le_one (4 * origin + stage) hascending ?_
  rintro ⟨place, deed⟩ hentry hdeed
  obtain ⟨⟨call, rfl⟩, rfl⟩ := htest deed hdeed
  obtain rfl := h.calls place call hentry
  rfl

section Marked

variable {steps : List DebugStep} {since : List Entry} {place : Nat}

theorem Overtaken.exists_mark_of_upload {path contentType : String} {content : List UInt8}
    (h : Overtaken origin since job) (htrail : Trail persister steps (log ++ since) job)
    (hupload : ⟨place, .call (.upload path content contentType)⟩ ∈ log ++ since) :
    ∃ record, steps[place]? = some record ∧
      ⟨place, .write (.saving record.index) true⟩ ∈ log := by
  obtain ⟨record, -, -, hrecord, -, -, -, -, hmark⟩ := htrail.backed _ _ hupload
  refine ⟨record, hrecord, ?_⟩
  -- the mark was applied, so that it is not one of those since
  rcases List.mem_append.mp hmark with hmark | hmark
  · exact hmark
  · cases (h.refused _ _ _ hmark).1

/-- The record that a superseded job calls the store for was marked before. -/
theorem Overtaken.exists_mark {call : Call} (h : Overtaken origin since job)
    (htrail : Trail persister steps (log ++ since) job)
    (hcall : ⟨place, .call call⟩ ∈ log ++ since) :
    ∃ record, steps[place]? = some record ∧
      ⟨place, .write (.saving record.index) true⟩ ∈ log := by
  cases call with
  | upload path content contentType => exact h.exists_mark_of_upload htrail hcall
  | sign path ttlSecs =>
    obtain ⟨-, content, contentType, hupload⟩ := htrail.backed _ _ hcall
    exact h.exists_mark_of_upload htrail hupload

end Marked

end Stale

end Job

/-! ## Trails in a session -/

namespace Session

def deeds (persister : Persister) (place : Nat) (session : Session) (move : Move) : List Entry :=
  match session.jobs[place]?, (session.move persister move).jobs[place]? with
  | some job, some next =>
    ((if move = Move.step place then
        job.write?.toList.map fun write => Deed.write write (session.board.isCurrent job.token)
      else []) ++ (job.startedCall? persister next).toList.map Deed.call).map (Entry.mk job.done)
  | _, _ => []

def trail (persister : Persister) (place : Nat) (session : Session) : List Move → List Entry
  | [] => []
  | move :: rest =>
    session.deeds persister place move ++ (session.move persister move).trail persister place rest

variable {persister : Persister} {session : Session} {place : Nat} {move : Move} {all : List Move}
  {job : Job}

theorem jobs_step (hjob : session.jobs[place]? = some job) :
    (session.move persister (.step place)).jobs[place]? =
      some (job.step persister session.board).2 := by
  simp only [Session.move, hjob]
  exact List.getElem?_set_self (List.getElem?_eq_some_iff.mp hjob).1

theorem jobs_step_of_ne {other : Nat} (h : other ≠ place) :
    (session.move persister (.step other)).jobs[place]? = session.jobs[place]? := by
  rw [Session.move]
  cases session.jobs[other]? with
  | none => rfl
  | some moved => exact List.getElem?_set_ne h

theorem jobs_receive (hjob : session.jobs[place]? = some job) (answer : Answer) :
    (session.move persister (.receive place answer)).jobs[place]? = some (job.receive answer) := by
  simp only [Session.move, hjob]
  exact List.getElem?_set_self (List.getElem?_eq_some_iff.mp hjob).1

theorem jobs_receive_of_ne {other : Nat} (h : other ≠ place) (answer : Answer) :
    (session.move persister (.receive other answer)).jobs[place]? = session.jobs[place]? := by
  rw [Session.move]
  cases session.jobs[other]? with
  | none => rfl
  | some moved => exact List.getElem?_set_ne h

/-- A move is a turn of every job. -/
theorem exists_turn (persister : Persister) (move : Move) (hjob : session.jobs[place]? = some job) :
    ∃ deeds next, (session.move persister move).jobs[place]? = some next ∧
      session.deeds persister place move = deeds.map (Entry.mk job.done) ∧
      Job.Turn persister (session.board.isCurrent job.token) job deeds next := by
  -- the other jobs do not move
  have hidle (hmove : (session.move persister move).jobs[place]? = some job)
      (hne : move ≠ .step place) :
      ∃ deeds next, (session.move persister move).jobs[place]? = some next ∧
        session.deeds persister place move = deeds.map (Entry.mk job.done) ∧
        Job.Turn persister (session.board.isCurrent job.token) job deeds next := by
    refine ⟨[], job, hmove, ?_, .idle⟩
    simp only [Session.deeds, hjob, hmove, if_neg hne, Job.startedCall?_self, Option.toList_none,
      List.map_nil, List.append_nil]
  cases move with
  | begin token => exact hidle hjob (by simp)
  | cancel => exact hidle hjob (by simp)
  | start token slug steps =>
    have hlt : place < session.jobs.length := (List.getElem?_eq_some_iff.mp hjob).1
    exact hidle ((List.getElem?_append_left hlt).trans hjob) (by simp)
  | step other =>
    by_cases hplace : other = place
    · subst hplace
      have hmove := @jobs_step persister _ _ _ hjob
      refine ⟨_, _, hmove, ?_, Job.turn_step persister session.board job⟩
      simp only [Session.deeds, hjob, hmove, if_true]
    · exact hidle ((jobs_step_of_ne hplace).trans hjob) fun h => hplace (Move.step.inj h)
  | receive other answer =>
    by_cases hplace : other = place
    · subst hplace
      have hmove := @jobs_receive persister _ _ _ hjob answer
      refine ⟨_, _, hmove, ?_, Job.turn_receive persister _ job answer⟩
      simp only [Session.deeds, hjob, hmove, reduceCtorEq, if_false, List.nil_append]
    · exact hidle ((jobs_receive_of_ne hplace answer).trans hjob) (by simp)

/-- The trail of a job stays in order as long as it goes on. -/
theorem exists_trail (all : List Move) {steps : List DebugStep} {log : List Entry}
    (hjob : session.jobs[place]? = some job) (h : Job.Trail persister steps log job) :
    ∃ next, (session.moves persister all).jobs[place]? = some next ∧ next.token = job.token ∧
      next.slug = job.slug ∧
      Job.Trail persister steps (log ++ session.trail persister place all) next := by
  -- the log grows by the deeds of one move at a time
  induction all generalizing session job log with
  | nil =>
    refine ⟨job, hjob, rfl, rfl, ?_⟩
    rwa [trail, List.append_nil]
  | cons move rest ih =>
    obtain ⟨deeds, next, hnext, hdeeds, hturn⟩ := exists_turn persister move hjob
    obtain ⟨htoken, hslug⟩ := hturn.kept
    obtain ⟨last, hlast, htoken', hslug', htrail⟩ := ih hnext (h.turn hturn)
    refine ⟨last, hlast, htoken'.trans htoken, hslug'.trans hslug, ?_⟩
    rwa [trail, hdeeds, ← List.append_assoc]

/-- The run of a superseded job stays superseded until it begins again. -/
theorem exists_turn_of_stale {rest : List Move} (hjob : session.jobs[place]? = some job)
    (hstale : session.board.isCurrent job.token = false) (hfresh : job.token ∉ begun (move :: rest)) :
    ∃ deeds next, (session.move persister move).jobs[place]? = some next ∧
      session.deeds persister place move = deeds.map (Entry.mk job.done) ∧
      Job.Turn persister false job deeds next ∧ next.token = job.token ∧
      (session.move persister move).board.isCurrent next.token = false ∧
      next.token ∉ begun rest := by
  obtain ⟨deeds, next, hnext, hdeeds, hturn⟩ := exists_turn persister move hjob
  rw [hstale] at hturn
  obtain ⟨htoken, -⟩ := hturn.kept
  have hmove : move ≠ .begin job.token := by
    rintro rfl
    exact hfresh (mem_begun.mpr List.mem_cons_self)
  refine ⟨deeds, next, hnext, hdeeds, hturn, htoken, ?_, ?_⟩
  · rw [htoken]
    exact isCurrent_move hstale hmove
  · rw [htoken]
    exact fun hmem => hfresh (mem_begun.mpr (List.mem_cons_of_mem _ (mem_begun.mp hmem)))

/-- A superseded job stays what it is until its run begins again. -/
theorem exists_overtaken (all : List Move) {origin : Nat} {log : List Entry}
    (hjob : session.jobs[place]? = some job) (h : Job.Overtaken origin log job)
    (hstale : session.board.isCurrent job.token = false) (hfresh : job.token ∉ begun all) :
    ∃ next, (session.moves persister all).jobs[place]? = some next ∧
      Job.Overtaken origin (log ++ session.trail persister place all) next := by
  induction all generalizing session job log with
  | nil =>
    refine ⟨job, hjob, ?_⟩
    rwa [trail, List.append_nil]
  | cons move rest ih =>
    obtain ⟨deeds, next, hnext, hdeeds, hturn, -, hstale', hrest⟩ :=
      @exists_turn_of_stale persister _ _ _ _ _ hjob hstale hfresh
    obtain ⟨last, hlast, hovertaken⟩ := ih hnext (h.turn hturn) hstale' hrest
    refine ⟨last, hlast, ?_⟩
    rwa [trail, hdeeds, ← List.append_assoc]

/-- A job that was superseded starts one more upload and one more request for a URL at most, both
for the record that it had marked; the first write it issues is refused and ends it. -/
theorem trail_of_stale {steps : List DebugStep} {log : List Entry}
    (hjob : session.jobs[place]? = some job) (h : Job.Trail persister steps log job)
    (hstale : session.board.isCurrent job.token = false) (hfresh : job.token ∉ begun all) :
    (∃ n, ∀ n' call, ⟨n', .call call⟩ ∈ session.trail persister place all →
      n' = n ∧ ∃ record, steps[n]? = some record ∧
        ⟨n, .write (.saving record.index) true⟩ ∈ log) ∧
    (session.trail persister place all).countP (·.deed.isUpload) ≤ 1 ∧
    (session.trail persister place all).countP (·.deed.isSign) ≤ 1 ∧
    ∀ n write applied, ⟨n, .write write applied⟩ ∈ session.trail persister place all →
      applied = false ∧ ∃ next, (session.moves persister all).jobs[place]? = some next ∧
        next.phase = .finished ∧ next.summary.cancelled = true := by
  obtain ⟨next, hnext, -, -, htrail⟩ := exists_trail all hjob h
  obtain ⟨next', hnext', hovertaken⟩ := exists_overtaken all hjob (Job.overtaken_nil job) hstale hfresh
  obtain rfl : next = next' := Option.some_inj.mp (hnext.symm.trans hnext')
  -- seen from this moment the log is empty, and the job has the record in hand or none
  rw [List.nil_append] at hovertaken
  have hascending := (List.pairwise_append.mp htrail.ascending).2.1
  refine ⟨⟨job.done, ?_⟩, hovertaken.countP_le_one hascending fun _ => Deed.of_isUpload,
    hovertaken.countP_le_one hascending fun _ => Deed.of_isSign, ?_⟩
  · intro n call hcall
    obtain rfl := hovertaken.calls n call hcall
    exact ⟨rfl, hovertaken.exists_mark htrail (List.mem_append_right _ hcall)⟩
  · intro n write applied hwrite
    obtain ⟨happlied, hphase, hcancelled⟩ := hovertaken.refused n write applied hwrite
    exact ⟨happlied, next, hnext, hphase, hcancelled⟩

/-- A started job calls the store for one record after the other, an upload before the URL of what
was uploaded, and for those records only that it marked while its run was the current one. From any
moment on at which its run has been superseded, it starts one more upload and one more request for a
URL at most, both for the record it had marked; if it issues a write at all, the write is refused,
and the job is finished and says that it was cancelled. -/
theorem trail_of_start {before : List Move} {token : RunToken} {slug : String}
    {steps : List DebugStep}
    (hsession : session = empty.moves persister (before ++ [.start token slug steps]))
    (hplace : place = (empty.moves persister before).jobs.length)
    (hfresh : (begun (before ++ .start token slug steps :: all)).Nodup) :
    (session.trail persister place all).Pairwise Entry.Before ∧
    (∀ n call, ⟨n, .call call⟩ ∈ session.trail persister place all →
      Job.Backed persister token slug steps (session.trail persister place all) n call) ∧
    ∀ mid late, all = mid ++ late → token ∈ begun (before ++ mid) →
      (session.moves persister mid).board.isCurrent token = false →
      (∃ n, ∀ n' call,
        ⟨n', .call call⟩ ∈ (session.moves persister mid).trail persister place late →
          n' = n ∧ ∃ record, steps[n]? = some record ∧
            ⟨n, .write (.saving record.index) true⟩ ∈ session.trail persister place mid) ∧
      ((session.moves persister mid).trail persister place late).countP (·.deed.isUpload) ≤ 1 ∧
      ((session.moves persister mid).trail persister place late).countP (·.deed.isSign) ≤ 1 ∧
      ∀ n write applied,
        ⟨n, .write write applied⟩ ∈ (session.moves persister mid).trail persister place late →
          applied = false ∧ ∃ job, (session.moves persister all).jobs[place]? = some job ∧
            job.phase = .finished ∧ job.summary.cancelled = true := by
  have hjob : session.jobs[place]? = some (Job.start token slug steps) := by
    rw [hsession, hplace, moves_append]
    exact List.getElem?_concat_length
  have hstart := Job.trail_start persister token slug steps
  refine ⟨?_, ?_, ?_⟩
  · obtain ⟨next, -, -, -, htrail⟩ := exists_trail all hjob hstart
    exact htrail.ascending.imp fun h => (Entry.before_iff _ _).mpr h
  · obtain ⟨next, -, htoken, hslug, htrail⟩ := exists_trail all hjob hstart
    intro n call hcall
    have hbacked := htrail.backed n call hcall
    rwa [htoken, hslug] at hbacked
  · rintro mid late rfl hbegun hstale
    -- no later run begins with the token of this one
    have hlate : token ∉ begun late := by
      have hsplit : begun (before ++ .start token slug steps :: (mid ++ late)) =
          begun (before ++ mid) ++ begun late := by
        simp [begun, List.filterMap_append]
      rw [hsplit, List.nodup_append] at hfresh
      exact fun hmem => hfresh.2.2 token hbegun token hmem rfl
    obtain ⟨job, hmid, htoken, -, htrail⟩ := exists_trail mid hjob hstart
    obtain rfl : job.token = token := htoken
    rw [moves_append]
    exact trail_of_stale hmid htrail hstale hlate

/-- The run is superseded during the upload: a URL is still asked for, and the last write is
refused. -/
theorem trail_of_start_overtaken :
    (begun overtaken).Nodup ∧
      ((empty.moves ⟨"user", 60⟩ (overtaken.take 5)).trail ⟨"user", 60⟩ 0
        (overtaken.drop 5)).map Entry.place = [0, 0] ∧
      ∃ job, (empty.moves ⟨"user", 60⟩ overtaken).jobs[0]? = some job ∧ job.phase = .finished ∧
        job.summary.cancelled = true := by
  have hfresh : (begun overtaken).Nodup := by decide
  obtain ⟨-, -, hlate⟩ := @trail_of_start ⟨"user", 60⟩ _ 0 (overtaken.drop 2) [.begin ⟨1⟩] ⟨1⟩ "cat"
    [pictured 1] rfl rfl hfresh
  obtain ⟨-, -, -, hwrites⟩ := hlate ((overtaken.drop 2).take 3) (overtaken.drop 5) rfl (by decide)
    (by decide +kernel)
  refine ⟨hfresh, by decide +kernel, ?_⟩
  have hwrite := hwrites 0
    (.saved 1 ⟨"https://store/1", "user/cat/00000000000000000000000000000001/step-1.png"⟩) false
    (by decide +kernel)
  exact hwrite.2

end Session

end Cattery.Asset
