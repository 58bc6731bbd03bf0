import Cattery.Proofs.Accounts

/-! One job among others. While its run is the current one, nothing that the other jobs do touches
the board or the paths of its images, so that what holds of the job, the board and the calls to the
store is found by following the job alone. -/

namespace Cattery.Asset

/-! ## The calls of a job -/

namespace Job

variable {persister : Persister} {job next : Job}

theorem addressed_of_call?_eq_none (h : job.call? persister = none) : job.Addressed persister := by
  intro call hcall
  rw [h] at hcall
  cases hcall

theorem Addressed.turn {current : Bool} {deeds : List Deed} (h : job.Addressed persister)
    (hturn : Turn persister current job deeds next) : next.Addressed persister := by
  cases hturn with
  | idle => exact h
  | upload hphase hdecode =>
    intro call hcall
    obtain rfl := Option.some_inj.mp hcall
    exact ⟨_, _, rfl, rfl⟩
  | sign hphase =>
    intro call hcall
    obtain rfl := Option.some_inj.mp hcall
    obtain ⟨index, format, hindex, hpath⟩ := h (.upload _ _ _) (by rw [call?, hphase])
    rw [hphase] at hindex
    exact ⟨index, format, hindex, hpath⟩
  | skip hphase _ _ =>
    apply addressed_of_call?_eq_none
    simp only [call?, hphase]
  | publish hphase =>
    apply addressed_of_call?_eq_none
    cases current <;> rfl
  | reject hphase =>
    apply addressed_of_call?_eq_none
    cases current <;> rfl
  | finish _ _ | mark _ _ _ _ | refuse _ _ _ _ | signed _ | fail _ =>
    exact addressed_of_call?_eq_none rfl

/-- The calls of a job are foreign to every other run. -/
theorem Addressed.foreign {token : RunToken} {call : Call} (h : job.Addressed persister)
    (hcall : job.call? persister = some call) (hne : job.token ≠ token) :
    Foreign persister token call := by
  intro slug index format hpath
  obtain ⟨index', format', -, haddress⟩ := h call hcall
  rw [haddress] at hpath
  exact hne (objectPath_inj_of_format hpath).1

end Job

namespace Session

variable {keeper : Keeper} {persister : Persister} {session : Session} {place : Nat} {move : Move}
  {all : List Move} {token : RunToken} {job : Job} {earlier : List Call}

/-! ## Answers -/

def answered? (persister : Persister) (session : Session) : Move → Option Call
  | .receive place _ => session.call? persister place
  | _ => none

def answered (persister : Persister) (session : Session) : List Move → List Call
  | [] => []
  | move :: rest =>
    (session.answered? persister move).toList ++ (session.move persister move).answered persister rest

def Served (keeper : Keeper) (persister : Persister) (place : Nat) (session : Session)
    (earlier : List Call) (all : List Move) : Prop :=
  ∀ mid answer late call, all = mid ++ .receive place answer :: late →
    (session.moves persister mid).call? persister place = some call →
      answer = keeper.answer (earlier ++ session.answered persister mid) call

theorem Served.tail (h : Served keeper persister place session earlier (move :: all)) :
    Served keeper persister place (session.move persister move)
      (earlier ++ (session.answered? persister move).toList) all := by
  intro mid answer late call hall hcall
  have hanswer := h (move :: mid) answer late call (by rw [hall]; rfl) hcall
  rw [hanswer, answered, List.append_assoc]

/-- A store goes on serving. -/
theorem Served.concat (h : Served keeper persister place session earlier all)
    (hmove : ∀ answer call, move = .receive place answer →
      (session.moves persister all).call? persister place = some call →
        answer = keeper.answer (earlier ++ session.answered persister all) call) :
    Served keeper persister place session earlier (all ++ [move]) := by
  intro mid answer late call hall hcall
  -- the answer is the last move, or it came earlier
  rcases List.eq_nil_or_concat late with rfl | ⟨late, last, rfl⟩
  · obtain ⟨rfl, hlast⟩ := List.append_inj' hall rfl
    exact hmove answer call (List.singleton_inj.mp hlast) hcall
  · rw [List.concat_eq_append, ← List.cons_append, ← List.append_assoc] at hall
    exact h mid answer late call (List.append_inj' hall rfl).1 hcall

/-! ## What holds of all jobs -/

theorem exists_start_of_new {next : Job}
    (hnext : (session.move persister move).jobs[place]? = some next)
    (hnone : session.jobs[place]? = none) :
    ∃ token slug steps, move = .start token slug steps ∧ next = Job.start token slug steps := by
  have hlength : session.jobs.length ≤ place := List.getElem?_eq_none_iff.mp hnone
  -- every other move leaves the number of jobs as it was
  have hother (h : (session.move persister move).jobs.length = session.jobs.length) : False := by
    rw [List.getElem?_eq_none_iff.mpr (by omega)] at hnext
    cases hnext
  cases move with
  | start token slug steps =>
    have hlast : [Job.start token slug steps][place - session.jobs.length]? = some next :=
      (List.getElem?_append_right hlength).symm.trans hnext
    have hmem := List.mem_of_getElem? hlast
    exact ⟨token, slug, steps, rfl, List.mem_singleton.mp hmem⟩
  | begin token => exact (hother rfl).elim
  | cancel => exact (hother rfl).elim
  | step other =>
    refine (hother ?_).elim
    rw [Session.move]
    cases session.jobs[other]? with
    | none => rfl
    | some guest => exact List.length_set
  | receive other answer =>
    refine (hother ?_).elim
    rw [Session.move]
    cases session.jobs[other]? with
    | none => rfl
    | some guest => exact List.length_set

/-- What holds of jobs that start and stays true in every turn holds of all jobs. -/
theorem jobs_move {P : Nat → Job → Prop}
    (hstart : ∀ place token slug steps, move = .start token slug steps →
      P place (Job.start token slug steps))
    (hturn : ∀ place current job deeds next, P place job →
      Job.Turn persister current job deeds next → P place next)
    (h : ∀ place job, session.jobs[place]? = some job → P place job) :
    ∀ place job, (session.move persister move).jobs[place]? = some job → P place job := by
  intro place next hnext
  cases hjob : session.jobs[place]? with
  | none =>
    obtain ⟨token, slug, steps, hmove, rfl⟩ := exists_start_of_new hnext hjob
    exact hstart place token slug steps hmove
  | some job =>
    obtain ⟨deeds, next', hnext', -, hjobturn⟩ := exists_turn persister move hjob
    obtain rfl : next = next' := Option.some_inj.mp (hnext.symm.trans hnext')
    exact hturn place _ job deeds next (h place job hjob) hjobturn

/-! ## A job and its guests -/

/-- Every job calls the store about its own images, and the jobs at other places than `own` belong to
other runs. -/
def Strangers (persister : Persister) (token : RunToken) (own : Nat → Prop) (session : Session) :
    Prop :=
  ∀ (other : Nat) (guest : Job), session.jobs[other]? = some guest →
    guest.Addressed persister ∧ (¬ own other → guest.token ≠ token)

structure Hosts (persister : Persister) (place : Nat) (token : RunToken) (session : Session)
    (job : Job) : Prop where
  held : session.jobs[place]? = some job
  own : job.token = token
  current : session.board.isCurrent token = true
  guests : session.Strangers persister token fun other => other = place

theorem Strangers.next {own : Nat → Prop} (h : session.Strangers persister token own)
    (hsole : ∀ slug steps, move ≠ .start token slug steps) :
    (session.move persister move).Strangers persister token own := by
  -- a job keeps its token in every turn, and a new one has another token
  apply jobs_move _ _ h
  · intro other token' slug steps hmove
    refine ⟨Job.addressed_of_call?_eq_none rfl, fun _ htoken => ?_⟩
    exact hsole slug steps (htoken ▸ hmove)
  · intro other current guest deeds next ⟨haddressed, hne⟩ hturn
    refine ⟨haddressed.turn hturn, fun hother => ?_⟩
    rw [hturn.kept.1]
    exact hne hother

/-- Where all jobs belong to other runs, so do all calls. -/
theorem Strangers.moves (h : session.Strangers persister token fun _ => False)
    (hsole : ∀ slug steps, .start token slug steps ∉ all) :
    (session.moves persister all).Strangers persister token (fun _ => False) ∧
      ∀ call ∈ session.answered persister all, Job.Foreign persister token call := by
  induction all generalizing session with
  | nil => exact ⟨h, by simp [answered]⟩
  | cons move rest ih =>
    have hmove (slug : String) (steps : List DebugStep) : move ≠ .start token slug steps := by
      intro heq
      exact hsole slug steps (heq ▸ List.mem_cons_self)
    obtain ⟨hstrangers, hforeign⟩ := ih (h.next hmove)
      (fun slug steps hmem => hsole slug steps (List.mem_cons_of_mem _ hmem))
    refine ⟨hstrangers, ?_⟩
    intro call hcall
    rw [answered, List.mem_append, Option.mem_toList] at hcall
    rcases hcall with hcall | hcall
    · -- the call is that of a job that was there before the move
      cases move with
      | receive other answer =>
        obtain ⟨guest, hguest, hguestcall⟩ := Option.bind_eq_some_iff.mp hcall
        obtain ⟨haddressed, hne⟩ := h other guest hguest
        exact haddressed.foreign hguestcall (hne not_false)
      | begin _ => cases hcall
      | cancel => cases hcall
      | start _ _ _ => cases hcall
      | step _ => cases hcall
    · exact hforeign call hcall

inductive Affects (persister : Persister) (place : Nat) (token : RunToken) (session : Session)
    (job : Job) : Move → Board → Job → Prop where
  /-- Something that does not concern the run. -/
  | guest {move : Move}
    (hforeign : ∀ call, session.answered? persister move = some call →
      Job.Foreign persister token call) :
    Affects persister place token session job move session.board job
  | advance {board : Board} {next : Job}
    (hadvance : Job.Advance persister session.board job board next) :
    Affects persister place token session job (.step place) board next
  | receive (answer : Answer) :
    Affects persister place token session job (.receive place answer) session.board
      (job.receive answer)

theorem isCurrent_of_ne {board : Board} {other : RunToken} (h : board.isCurrent token = true)
    (hne : other ≠ token) : board.isCurrent other = false := by
  have hrun : board.run = some token := by simpa [Board.isCurrent] using h
  rw [Board.isCurrent, hrun]
  simpa using Ne.symm hne

theorem Hosts.affects (h : Hosts persister place token session job)
    (hlasting : move.supersedes = false) :
    ∃ next, (session.move persister move).jobs[place]? = some next ∧
      Affects persister place token session job move (session.move persister move).board next := by
  cases move with
  | begin token => cases hlasting
  | cancel => cases hlasting
  | start token' slug steps =>
    refine ⟨job, ?_, .guest (by simp [answered?])⟩
    exact (List.getElem?_append_left (List.getElem?_eq_some_iff.mp h.held).1).trans h.held
  | step other =>
    by_cases hplace : other = place
    · subst hplace
      refine ⟨_, jobs_step h.held, ?_⟩
      have hboard : (session.move persister (.step other)).board =
          (job.step persister session.board).1 := by
        simp only [Session.move, h.held]
      rw [hboard]
      apply Affects.advance
      apply Job.advance_step
      rw [h.own]
      exact h.current
    · refine ⟨job, (jobs_step_of_ne hplace).trans h.held, ?_⟩
      -- the other job writes with a token that is not the current one
      have hboard : (session.move persister (.step other)).board = session.board := by
        rw [board_move hlasting]
        cases hmark : session.mark? (.step other) with
        | none => rfl
        | some mark =>
          obtain ⟨guest, hguest, hwrite⟩ := Option.bind_eq_some_iff.mp hmark
          obtain ⟨write, -, rfl⟩ := Option.map_eq_some_iff.mp hwrite
          have hstale := isCurrent_of_ne h.current ((h.guests other guest hguest).2 hplace)
          rw [Option.map_some, Option.getD_some, Board.commit_of_stale hstale]
      rw [hboard]
      exact .guest (by simp [answered?])
  | receive other answer =>
    have hboard : (session.move persister (.receive other answer)).board = session.board := by
      rw [Session.move]
      cases session.jobs[other]? <;> rfl
    rw [hboard]
    by_cases hplace : other = place
    · subst hplace
      exact ⟨_, jobs_receive h.held answer, .receive answer⟩
    · refine ⟨job, (jobs_receive_of_ne hplace answer).trans h.held, .guest ?_⟩
      intro call hcall
      obtain ⟨guest, hguest, hguestcall⟩ := Option.bind_eq_some_iff.mp hcall
      obtain ⟨haddressed, hne⟩ := h.guests other guest hguest
      exact haddressed.foreign hguestcall (hne hplace)

theorem Hosts.next {next : Job} (h : Hosts persister place token session job)
    (hlasting : move.supersedes = false) (hsole : ∀ slug steps, move ≠ .start token slug steps)
    (hnext : (session.move persister move).jobs[place]? = some next) :
    Hosts persister place token (session.move persister move) next where
  held := hnext
  own := by
    obtain ⟨deeds, next', hnext', -, hturn⟩ := exists_turn persister move h.held
    obtain rfl : next = next' := Option.some_inj.mp (hnext.symm.trans hnext')
    exact hturn.kept.1.trans h.own
  current := by
    rw [Board.isCurrent_congr (run_move hlasting)]
    exact h.current
  guests := h.guests.next hsole

/-- What holds of the board, the calls that were answered and the job is preserved when another run
calls the store, and when the job does its next thing or gets its answer. -/
structure Preserved (keeper : Keeper) (persister : Persister) (token : RunToken)
    (P : Board → List Call → Job → Prop) : Prop where
  guest (board : Board) (earlier : List Call) (job : Job) (call : Call) (hown : job.token = token)
    (haddressed : job.Addressed persister) (hforeign : Job.Foreign persister token call)
    (h : P board earlier job) : P board (earlier ++ [call]) job
  advance (board board' : Board) (earlier : List Call) (job next : Job)
    (hadvance : Job.Advance persister board job board' next) (h : P board earlier job) :
    P board' earlier next
  receive (board : Board) (earlier : List Call) (job : Job) (call : Call)
    (haddressed : job.Addressed persister) (hcall : job.call? persister = some call)
    (h : P board earlier job) :
    P board (earlier ++ [call]) (job.receive (keeper.answer earlier call))

section Invariants

variable {P : Board → List Call → Job → Prop}

theorem Preserved.affects {board : Board} {next : Job}
    (hP : Preserved keeper persister token P) (h : Hosts persister place token session job)
    (haffects : Affects persister place token session job move board next)
    (hserved : ∀ answer call, move = .receive place answer →
      session.call? persister place = some call → answer = keeper.answer earlier call)
    (hjob : P session.board earlier job) :
    P board (earlier ++ (session.answered? persister move).toList) next := by
  have haddressed : job.Addressed persister := (h.guests place job h.held).1
  have hcall : session.call? persister place = job.call? persister := by
    rw [Session.call?, h.held, Option.bind_some]
  cases haffects with
  | guest hforeign =>
    cases hanswered : session.answered? persister move with
    | none =>
      rw [Option.toList_none, List.append_nil]
      exact hjob
    | some call => exact hP.guest _ _ _ call h.own haddressed (hforeign call hanswered) hjob
  | advance hadvance =>
    have hnone : session.answered? persister (.step place) = none := rfl
    rw [hnone, Option.toList_none, List.append_nil]
    exact hP.advance _ _ _ _ _ hadvance hjob
  | receive answer =>
    rw [answered?, hcall]
    cases hwaits : job.call? persister with
    | none =>
      -- an answer to nothing
      rw [Job.receive_of_call?_eq_none hwaits, Option.toList_none, List.append_nil]
      exact hjob
    | some call =>
      rw [hserved answer call rfl (hcall.trans hwaits)]
      exact hP.receive _ _ _ call haddressed hwaits hjob

/-- What is preserved stays true as long as the run is the current one. -/
theorem Preserved.moves (hP : Preserved keeper persister token P)
    (hlasting : ∀ move ∈ all, move.supersedes = false)
    (hsole : ∀ slug steps, .start token slug steps ∉ all)
    (hserved : Served keeper persister place session earlier all)
    (h : Hosts persister place token session job) (hjob : P session.board earlier job) :
    ∃ last, Hosts persister place token (session.moves persister all) last ∧
      P (session.moves persister all).board (earlier ++ session.answered persister all) last := by
  induction all generalizing session earlier job with
  | nil =>
    refine ⟨job, h, ?_⟩
    rw [answered, List.append_nil]
    exact hjob
  | cons move rest ih =>
    have hmove : move.supersedes = false := hlasting move List.mem_cons_self
    have hother (slug : String) (steps : List DebugStep) : move ≠ .start token slug steps := by
      intro heq
      exact hsole slug steps (heq ▸ List.mem_cons_self)
    have hfirst (answer : Answer) (call : Call) (heq : move = .receive place answer)
        (hcall : session.call? persister place = some call) :
        answer = keeper.answer earlier call := by
      have hanswer := hserved [] answer rest call (by rw [heq]; rfl) hcall
      rwa [answered, List.append_nil] at hanswer
    obtain ⟨next, hnext, haffects⟩ := h.affects hmove
    have hstep := hP.affects h haffects hfirst hjob
    obtain ⟨last, hlast, hlater⟩ := ih (fun move hmem => hlasting move (List.mem_cons_of_mem _ hmem))
      (fun slug steps hmem => hsole slug steps (List.mem_cons_of_mem _ hmem)) hserved.tail
      (h.next hmove hother hnext) hstep
    refine ⟨last, hlast, ?_⟩
    rw [answered, ← List.append_assoc]
    exact hlater

end Invariants

end Session

end Cattery.Asset
