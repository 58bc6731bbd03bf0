import Cattery.Proofs.Persistence

namespace Cattery.Asset

namespace Job

variable {persister : Persister} {board : Board} {job next : Job} {outcome : Summary}

def foretold (job : Job) : Summary :=
  { job.summary with
    skipped := job.summary.skipped +
      (job.remaining.takeWhile fun record => !hasImage record).length
    cancelled := job.summary.cancelled || job.remaining.any hasImage }

inductive Barred (outcome : Summary) (job : Job) : Prop where
  | scanning (hphase : job.phase = .scanning) (houtcome : job.foretold = outcome)
  | finished (hphase : job.phase = .finished) (houtcome : job.summary = outcome)

theorem foretold_of_remaining_eq_nil (h : job.remaining = []) : job.foretold = job.summary := by
  simp [foretold, h]

theorem foretold_skip {record : DebugStep} {rest : List DebugStep}
    (h : job.remaining = record :: rest) (hfind : Image.find? record = none) :
    job.foretold = foretold { job with
      remaining := rest, summary := { job.summary with skipped := job.summary.skipped + 1 } } := by
  simp only [foretold, h, hasImage, hfind, List.takeWhile_cons, List.any_cons, Option.isSome_none,
    Bool.not_false, if_true, List.length_cons, Bool.false_or, Nat.add_assoc, Nat.add_comm 1]

theorem foretold_refuse {record : DebugStep} {rest : List DebugStep} {payload : String}
    (h : job.remaining = record :: rest) (hfind : Image.find? record = some payload) :
    job.foretold = job.abandon.summary := by
  simp [foretold, abandon, h, hasImage, hfind]

/-- What a superseded job is going to get does not change from one turn to the next. -/
theorem Barred.turn {deeds : List Deed} (h : Barred outcome job)
    (hturn : Turn persister false job deeds next) : Barred outcome next := by
  cases h with
  | finished hphase houtcome =>
    obtain ⟨-, rfl⟩ := hturn.of_finished hphase
    exact .finished hphase houtcome
  | scanning hphase houtcome =>
    cases hturn with
    | idle => exact .scanning hphase houtcome
    | finish _ hremaining =>
      exact .finished rfl ((foretold_of_remaining_eq_nil hremaining).symm.trans houtcome)
    | skip _ hremaining hfind =>
      exact .scanning hphase ((foretold_skip hremaining hfind).symm.trans houtcome)
    | mark _ _ _ hcurrent => cases hcurrent
    | refuse _ hremaining hfind _ =>
      exact .finished rfl ((foretold_refuse hremaining hfind).symm.trans houtcome)
    | upload hdecoding _ => cases hphase.symm.trans hdecoding
    | sign huploading => cases hphase.symm.trans huploading
    | signed hsigning => cases hphase.symm.trans hsigning
    | fail hbusy =>
      rcases hbusy with ⟨_, hbusy⟩ | ⟨_, _, _, hbusy⟩ | ⟨_, hbusy⟩ <;>
        cases hphase.symm.trans hbusy
    | publish hpublishing => cases hphase.symm.trans hpublishing
    | reject hrejecting => cases hphase.symm.trans hrejecting

theorem Barred.counts_eq (h : Barred outcome job) :
    job.summary.saved = outcome.saved ∧ job.summary.failed = outcome.failed := by
  cases h with
  | scanning _ houtcome =>
    rw [← houtcome]
    exact ⟨rfl, rfl⟩
  | finished _ houtcome =>
    rw [houtcome]
    exact ⟨rfl, rfl⟩

theorem Barred.summary_eq (h : Barred outcome job) (hfinished : job.phase = .finished) :
    job.summary = outcome := by
  cases h with
  | scanning hphase _ => cases hphase.symm.trans hfinished
  | finished _ houtcome => exact houtcome

theorem Barred.call?_eq_none (h : Barred outcome job) : job.call? persister = none := by
  cases h with
  | scanning hphase _ => rw [call?, hphase]
  | finished hphase _ => rw [call?, hphase]

/-- The next thing a superseded job does by itself ends it, or takes one of the records left. -/
theorem step_of_stale (hphase : job.phase = .scanning)
    (hstale : board.isCurrent job.token = false) :
    (job.step persister board).2.phase = .finished ∨
      (job.step persister board).2.remaining.length < job.remaining.length := by
  cases hremaining : job.remaining with
  | nil =>
    left
    simp only [step, hphase, hremaining]
  | cons record rest =>
    cases hfind : Image.find? record with
    | none =>
      right
      simp only [step, hphase, hremaining, hfind, List.length_cons, Nat.lt_add_one]
    | some payload =>
      left
      simp only [step, hphase, hremaining, hfind, Board.commit_of_stale hstale, abandon]

end Job

namespace Session

variable {persister : Persister} {session : Session} {place : Nat} {all : List Move} {job : Job}
  {outcome : Summary} {token : RunToken} {slug : String} {steps : List DebugStep}

/-- A superseded job marks nothing, whatever happens around it. -/
theorem exists_barred (hjob : session.jobs[place]? = some job) (h : job.Barred outcome)
    (hstale : session.board.isCurrent job.token = false) (hfresh : job.token ∉ begun all) :
    ∃ last, (session.moves persister all).jobs[place]? = some last ∧ last.Barred outcome ∧
      (session.moves persister all).board.isCurrent last.token = false := by
  induction all generalizing session job with
  | nil => exact ⟨job, hjob, h, hstale⟩
  | cons move rest ih =>
    obtain ⟨deeds, next, hnext, -, hturn, -, hstale', hrest⟩ :=
      @exists_turn_of_stale persister _ _ _ _ _ hjob hstale hfresh
    exact ih hnext (h.turn hturn) hstale' hrest

/-- A superseded job gets to its end by itself. -/
theorem exists_finished_of_stale (hjob : session.jobs[place]? = some job) (h : job.Barred outcome)
    (hstale : session.board.isCurrent job.token = false) :
    ∃ n last, (session.moves persister (List.replicate n (.step place))).jobs[place]? = some last ∧
      last.Barred outcome ∧ last.phase = .finished := by
  induction hlength : job.remaining.length using Nat.strong_induction_on generalizing session job with
  | h length ih =>
    cases h with
    | finished hphase houtcome => exact ⟨0, job, hjob, .finished hphase houtcome, hphase⟩
    | scanning hphase houtcome =>
      -- one step ends the job, or takes one of the records left
      obtain ⟨deeds, next, hnext, -, hturn, -, hstale', -⟩ :=
        @exists_turn_of_stale persister _ _ (.step place) _ [] hjob hstale List.not_mem_nil
      have hbarred := (Job.Barred.scanning hphase houtcome).turn hturn
      obtain rfl := Option.some_inj.mp (hnext.symm.trans (jobs_step hjob))
      rcases @Job.step_of_stale persister _ _ hphase hstale with hfinished | hless
      · exact ⟨1, _, hnext, hbarred, hfinished⟩
      · obtain ⟨n, last, hlast, hrest⟩ := ih _ (by omega) hnext hbarred hstale' rfl
        exact ⟨n + 1, last, hlast, hrest⟩

/-- What is left for a superseded run to come to: the records before the first image are passed over,
and it is cancelled if there is an image. -/
def supersededSummary (steps : List DebugStep) : Summary where
  saved := 0
  failed := 0
  skipped := (steps.takeWhile fun record => !hasImage record).length
  cancelled := steps.any hasImage

theorem barred_start (token : RunToken) (slug : String) (steps : List DebugStep) :
    (Job.start token slug steps).Barred (supersededSummary steps) := by
  refine .scanning rfl ?_
  simp [Job.foretold, Job.start, supersededSummary]

theorem supersededSummary_cancelled_iff (steps : List DebugStep) :
    (supersededSummary steps).cancelled = true ↔ ∃ record ∈ steps, (Image.find? record).isSome :=
  List.any_eq_true

/-- A job whose run is not the current one when it starts, and does not begin again, never waits for
the store and counts nothing as saved or failed. From any moment on it gets to its end by itself;
then it has passed over the records before the first image, and says that it was cancelled exactly
if there is an image. -/
theorem summary_of_superseded (hstale : session.board.isCurrent token = false)
    (hfresh : token ∉ begun all) (slug : String) (steps : List DebugStep) :
    ∃ job,
      (session.moves persister (.start token slug steps :: all)).jobs[session.jobs.length]? =
        some job ∧
      job.call? persister = none ∧ job.summary.saved = 0 ∧ job.summary.failed = 0 ∧
      (job.phase = .finished → job.summary = supersededSummary steps) ∧
      ∃ n last,
        (session.moves persister (.start token slug steps ::
          (all ++ List.replicate n (.step session.jobs.length)))).jobs[session.jobs.length]? =
            some last ∧
        last.phase = .finished ∧ last.summary = supersededSummary steps ∧
        (last.summary.cancelled = true ↔ ∃ record ∈ steps, (Image.find? record).isSome) := by
  have hstart : (session.move persister (.start token slug steps)).jobs[session.jobs.length]? =
      some (Job.start token slug steps) := List.getElem?_concat_length
  -- whatever happened since the start, the job can be finished from there
  obtain ⟨job, hjob, hbarred, hstale'⟩ :=
    @exists_barred persister _ _ _ _ _ hstart (barred_start token slug steps) hstale hfresh
  obtain ⟨n, last, hlast, hlastBarred, hfinished⟩ := exists_finished_of_stale hjob hbarred hstale'
  have hsummary : last.summary = supersededSummary steps := hlastBarred.summary_eq hfinished
  refine ⟨job, hjob, hbarred.call?_eq_none, hbarred.counts_eq.1, hbarred.counts_eq.2,
    hbarred.summary_eq, n, last, ?_, hfinished, hsummary, ?_⟩
  · rwa [moves_cons, moves_append]
  · rw [hsummary]
    exact supersededSummary_cancelled_iff steps

/-- A run is superseded by the next one before its job starts. The job passes over the record without
an image and stops at the first of the two images. -/
theorem summary_of_superseded_begun :
    (empty.moves ⟨"user", 60⟩ [.begin ⟨1⟩, .begin ⟨2⟩]).board.isCurrent ⟨1⟩ = false ∧
      (⟨1⟩ : RunToken) ∉ begun [.step 0, .step 0] ∧
      ∃ job,
        (empty.moves ⟨"user", 60⟩ [.begin ⟨1⟩, .begin ⟨2⟩,
          .start ⟨1⟩ "cat" [plain 1, pictured 2, pictured 3], .step 0, .step 0]).jobs[0]? =
            some job ∧
        job.call? ⟨"user", 60⟩ = none ∧ job.summary = ⟨0, 0, 1, true⟩ := by
  have hstale : (empty.moves ⟨"user", 60⟩ [.begin ⟨1⟩, .begin ⟨2⟩]).board.isCurrent ⟨1⟩ = false := by
    decide
  obtain ⟨job, hjob, hcall, -, -, hsummary, -⟩ :=
    @summary_of_superseded ⟨"user", 60⟩ _ [.step 0, .step 0] _ hstale List.not_mem_nil "cat"
      [plain 1, pictured 2, pictured 3]
  have hfinished : (empty.moves ⟨"user", 60⟩ [.begin ⟨1⟩, .begin ⟨2⟩,
      .start ⟨1⟩ "cat" [plain 1, pictured 2, pictured 3], .step 0, .step 0]).jobs[0]?.map
        Job.phase = some .finished := by
    decide +kernel
  have houtcome : supersededSummary [plain 1, pictured 2, pictured 3] = ⟨0, 0, 1, true⟩ := by
    decide +kernel
  refine ⟨hstale, List.not_mem_nil, job, hjob, hcall, (hsummary ?_).trans houtcome⟩
  exact Option.some_inj.mp ((congrArg (Option.map Job.phase) hjob).symm.trans hfinished)

/-- A run is cancelled, and only then its job starts, on a record without an image: the job finishes
and does not say that it was cancelled. -/
theorem cancelled_eq_false_of_plain :
    ∃ token : RunToken, ∃ steps : List DebugStep, steps ≠ [] ∧
      (empty.moves ⟨"user", 60⟩ [.begin token, .cancel]).board.isCurrent token = false ∧
      ∃ job,
        (empty.moves ⟨"user", 60⟩ [.begin token, .cancel,
          .start token "cat" steps, .step 0, .step 0]).jobs[0]? = some job ∧
        job.phase = .finished ∧ job.summary.cancelled = false := by
  refine ⟨⟨1⟩, [plain 1], List.cons_ne_nil _ _, by decide, ?_⟩
  exact ⟨⟨⟨1⟩, "cat", [], .finished, ⟨0, 0, 1, false⟩⟩, by decide +kernel, rfl, rfl⟩

end Session

end Cattery.Asset
