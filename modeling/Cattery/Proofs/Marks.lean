import Cattery.Asset.Session
import Mathlib.Data.List.Basic

namespace Cattery.Asset

/-! ## Writes -/

namespace Board

variable {board : Board} {token : RunToken} {write : Write}

@[simp] theorem run_apply (board : Board) (write : Write) :
    (board.apply write).run = board.run := by
  cases write <;> rfl

theorem commit_of_current (h : board.isCurrent token = true) :
    board.commit token write = (board.apply write, true) := by
  rw [commit, if_pos h]

theorem commit_of_stale (h : board.isCurrent token = false) :
    board.commit token write = (board, false) := by
  rw [commit, h, if_neg Bool.false_ne_true]

@[simp] theorem run_commit (board : Board) (token : RunToken) (write : Write) :
    (board.commit token write).1.run = board.run := by
  cases h : board.isCurrent token with
  | false => rw [commit_of_stale h]
  | true => rw [commit_of_current h, run_apply]

theorem isCurrent_congr {board board' : Board} (h : board.run = board'.run) (token : RunToken) :
    board.isCurrent token = board'.isCurrent token := by
  rw [isCurrent, isCurrent, h]

theorem isCurrent_empty (token : RunToken) : empty.isCurrent token = false :=
  rfl

theorem isCurrent_start (token other : RunToken) :
    (start token).isCurrent other = decide (other = token) := by
  by_cases h : other = token
  · simp [isCurrent, start, h]
  · simp [isCurrent, start, h, Ne.symm h]

end Board

namespace Job

def write? (job : Job) : Option Write :=
  match job.phase with
  | .scanning =>
    match job.remaining with
    | [] => none
    | record :: _ => (Image.find? record).map fun _ => .saving record.index
  | .publishing index asset => some (.saved index asset)
  | .rejecting index message => some (.failed index message)
  | _ => none

/-- The board changes by the write of the job and by nothing else. -/
theorem board_step (persister : Persister) (board : Board) (job : Job) :
    (job.step persister board).1 =
      (job.write?.map fun write => (board.commit job.token write).1).getD board := by
  -- whether a write is refused or not, the board is what the commit left
  obtain ⟨token, slug, remaining, phase, summary⟩ := job
  cases phase with
  | scanning =>
    cases remaining with
    | nil => rfl
    | cons record rest =>
      cases hfind : Image.find? record with
      | none => simp only [step, write?, hfind, Option.map_none, Option.getD_none]
      | some payload =>
        simp only [step, write?, hfind, Option.map_some, Option.getD_some]
        rcases board.commit token (.saving record.index) with ⟨_, _ | _⟩ <;> rfl
  | decoding index payload =>
    cases hdecode : Image.decode payload with
    | error fault => simp only [step, write?, hdecode, Option.map_none, Option.getD_none]
    | ok image => simp only [step, write?, hdecode, Option.map_none, Option.getD_none]
  | publishing index asset =>
    simp only [step, write?, Option.map_some, Option.getD_some]
    rcases board.commit token (.saved index asset) with ⟨_, _ | _⟩ <;> rfl
  | rejecting index message =>
    simp only [step, write?, Option.map_some, Option.getD_some]
    rcases board.commit token (.failed index message) with ⟨_, _ | _⟩ <;> rfl
  | uploading _ _ _ _ => rfl
  | signing _ _ => rfl
  | finished => rfl

end Job

/-! ## Marks -/

def Move.supersedes : Move → Bool
  | .begin _ => true
  | .cancel => true
  | .start .. => false
  | .step _ => false
  | .receive .. => false

def begun (all : List Move) : List RunToken :=
  all.filterMap fun
    | .begin token => some token
    | _ => none

namespace Session

def mark? (session : Session) : Move → Option (RunToken × Write)
  | .step place =>
    session.jobs[place]?.bind fun job => job.write?.map fun write => (job.token, write)
  | _ => none

def marks (persister : Persister) (session : Session) : List Move → List (RunToken × Write)
  | [] => []
  | move :: rest =>
    (session.mark? move).toList ++ (session.move persister move).marks persister rest

variable {persister : Persister} {session : Session} {move : Move} {all : List Move}

theorem moves_cons (persister : Persister) (session : Session) (move : Move) (rest : List Move) :
    session.moves persister (move :: rest) = (session.move persister move).moves persister rest :=
  rfl

theorem moves_append (persister : Persister) (session : Session) (first second : List Move) :
    session.moves persister (first ++ second) =
      (session.moves persister first).moves persister second := by
  rw [moves, List.foldl_append]
  rfl

/-- While a run goes on the board changes by marks alone. -/
theorem board_move (h : move.supersedes = false) :
    (session.move persister move).board =
      ((session.mark? move).map fun mark => (session.board.commit mark.1 mark.2).1).getD
        session.board := by
  cases move with
  | begin token => cases h
  | cancel => cases h
  | start token slug steps => rfl
  | step place =>
    rw [Session.move, mark?]
    cases session.jobs[place]? with
    | none => rfl
    | some job =>
      rw [Option.bind_some, Option.map_map]
      exact Job.board_step persister session.board job
  | receive place answer =>
    rw [Session.move]
    cases session.jobs[place]? <;> rfl

theorem run_move (h : move.supersedes = false) :
    (session.move persister move).board.run = session.board.run := by
  rw [board_move h]
  cases session.mark? move with
  | none => rfl
  | some mark => exact Board.run_commit session.board mark.1 mark.2

/-- As long as no run begins or is cancelled, the board takes the marks of its own run, in their
order, and none of the others. -/
theorem board_moves (h : ∀ move ∈ all, move.supersedes = false) :
    (session.moves persister all).board =
      ((session.marks persister all).filter fun mark => session.board.isCurrent mark.1).foldl
        (fun board mark => board.apply mark.2) session.board := by
  -- the current run is the same after every move, so that one test decides for all marks
  induction all generalizing session with
  | nil => rfl
  | cons move rest ih =>
    have hmove : move.supersedes = false := h move List.mem_cons_self
    have hrest := @ih (session.move persister move) fun move hmem =>
      h move (List.mem_cons_of_mem _ hmem)
    simp only [Board.isCurrent_congr (run_move hmove)] at hrest
    rw [moves_cons, hrest, marks, List.filter_append, List.foldl_append, board_move hmove]
    cases session.mark? move with
    | none => rfl
    | some mark =>
      cases hcurrent : session.board.isCurrent mark.1 <;>
        simp [hcurrent, Board.commit_of_stale, Board.commit_of_current]

theorem isCurrent_of_supersedes {token : RunToken} (hmove : move.supersedes = true)
    (h : move ≠ .begin token) : (session.move persister move).board.isCurrent token = false := by
  cases move with
  | begin other =>
    have hne : token ≠ other := by
      rintro rfl
      exact h rfl
    exact (Board.isCurrent_start other token).trans (decide_eq_false hne)
  | cancel => exact Board.isCurrent_empty token
  | start _ _ _ => cases hmove
  | step _ => cases hmove
  | receive _ _ => cases hmove

theorem isCurrent_move {token : RunToken} (hstale : session.board.isCurrent token = false)
    (h : move ≠ .begin token) : (session.move persister move).board.isCurrent token = false := by
  -- a run becomes current by its beginning only
  cases hmove : move.supersedes with
  | false => rwa [Board.isCurrent_congr (run_move hmove)]
  | true => exact isCurrent_of_supersedes hmove h

theorem mem_begun {token : RunToken} : token ∈ begun all ↔ .begin token ∈ all := by
  constructor
  · intro h
    obtain ⟨move, hmem, hmove⟩ := List.mem_filterMap.mp h
    cases move with
    | begin other =>
      obtain rfl : other = token := Option.some_inj.mp hmove
      exact hmem
    | cancel => cases hmove
    | start _ _ _ => cases hmove
    | step _ => cases hmove
    | receive _ _ => cases hmove
  · intro h
    exact List.mem_filterMap.mpr ⟨.begin token, h, rfl⟩

theorem isCurrent_moves {token : RunToken} (hstale : session.board.isCurrent token = false)
    (h : token ∉ begun all) : (session.moves persister all).board.isCurrent token = false := by
  induction all generalizing session with
  | nil => exact hstale
  | cons move rest ih =>
    have hmove : move ≠ .begin token := by
      rintro rfl
      exact h (mem_begun.mpr List.mem_cons_self)
    have hrest : token ∉ begun rest := fun hmem =>
      h (mem_begun.mpr (List.mem_cons_of_mem _ (mem_begun.mp hmem)))
    exact ih (isCurrent_move hstale hmove) hrest

/-- A mark with another token than that of the current run is refused and changes nothing. -/
theorem board_move_of_stale {token : RunToken} {write : Write}
    (hmark : session.mark? move = some (token, write))
    (hstale : session.board.isCurrent token = false) :
    session.board.commit token write = (session.board, false) ∧
      (session.move persister move).board = session.board := by
  have hcommit : session.board.commit token write = (session.board, false) :=
    Board.commit_of_stale hstale
  have hmove : move.supersedes = false := by
    cases move with
    | begin _ => cases hmark
    | cancel => cases hmark
    | start _ _ _ => rfl
    | step _ => rfl
    | receive _ _ => rfl
  refine ⟨hcommit, ?_⟩
  rw [board_move hmove, hmark, Option.map_some, Option.getD_some, hcommit]

theorem board_moves_of_empty (hboard : session.board = Board.empty)
    (h : ∀ move ∈ all, move.supersedes = false) :
    (session.moves persister all).board = Board.empty := by
  rw [board_moves h, hboard, List.filter_eq_nil_iff.mpr (by simp [Board.isCurrent_empty]),
    List.foldl_nil]

theorem board_moves_of_start {token : RunToken} (hboard : session.board = Board.start token)
    (h : ∀ move ∈ all, move.supersedes = false) :
    (session.moves persister all).board =
      ((session.marks persister all).filter fun mark => mark.1 = token).foldl
        (fun board mark => board.apply mark.2) (Board.start token) := by
  rw [board_moves h, hboard]
  simp only [Board.isCurrent_start]

/-- A run that was superseded is not current again, since no two runs begin with one token. -/
theorem isCurrent_of_superseded {early late : List Move} {closing : Move} {token : RunToken}
    (hfresh : (begun (early ++ closing :: late)).Nodup) (hclosing : closing.supersedes = true)
    (hbegun : token ∈ begun early) :
    (empty.moves persister (early ++ closing :: late)).board.isCurrent token = false := by
  rw [begun, List.filterMap_append, List.nodup_append] at hfresh
  have hlate : token ∉ begun (closing :: late) := fun hmem => hfresh.2.2 token hbegun token hmem rfl
  have hne : closing ≠ .begin token := by
    rintro rfl
    exact hlate (mem_begun.mpr List.mem_cons_self)
  have hrest : token ∉ begun late := fun hmem =>
    hlate (mem_begun.mpr (List.mem_cons_of_mem _ (mem_begun.mp hmem)))
  rw [moves_append, moves_cons]
  exact isCurrent_moves (isCurrent_of_supersedes hclosing hne) hrest

/-- What the board shows at every moment: nothing before the first run and after a cancel, and
otherwise what was marked with the token of the last run since it began. A mark with any other
token is refused and changes nothing, and the token of a superseded run is not current again. -/
theorem board_moves_empty (hfresh : (begun all).Nodup) :
    ((∀ move ∈ all, move.supersedes = false) →
      (empty.moves persister all).board = Board.empty) ∧
    (∀ before after, all = before ++ .cancel :: after →
      (∀ move ∈ after, move.supersedes = false) →
        (empty.moves persister all).board = Board.empty) ∧
    (∀ before token after, all = before ++ .begin token :: after →
      (∀ move ∈ after, move.supersedes = false) →
        (empty.moves persister all).board =
          (((empty.moves persister (before ++ [.begin token])).marks persister after).filter
            fun mark => mark.1 = token).foldl (fun board mark => board.apply mark.2)
              (Board.start token)) ∧
    (∀ move token write, (empty.moves persister all).mark? move = some (token, write) →
      (empty.moves persister all).board.isCurrent token = false →
        (empty.moves persister all).board.commit token write =
            ((empty.moves persister all).board, false) ∧
          (empty.moves persister (all ++ [move])).board = (empty.moves persister all).board) ∧
    (∀ early closing late token, all = early ++ closing :: late → closing.supersedes = true →
      token ∈ begun early → (empty.moves persister all).board.isCurrent token = false) := by
  refine ⟨board_moves_of_empty rfl, ?_, ?_, ?_, ?_⟩
  · rintro before after rfl hafter
    rw [moves_append, moves_cons]
    exact board_moves_of_empty rfl hafter
  · rintro before token after rfl hafter
    rw [moves_append, moves_append, moves_cons, moves_cons]
    exact board_moves_of_start rfl hafter
  · intro move token write hmark hstale
    rw [moves_append]
    exact board_move_of_stale hmark hstale
  · rintro early closing late token rfl hclosing hbegun
    exact isCurrent_of_superseded hfresh hclosing hbegun

def pictured (index : UInt32) : DebugStep :=
  { index, clientModel := "", providerModel := "", durationMs := 0, outputText := ""
    parsedJson := some (.object [("image_base64", .string "iVBORw0KGgo=")]) }

def overtaken : List Move :=
  [.begin ⟨1⟩, .start ⟨1⟩ "cat" [pictured 1], .step 0, .step 0,
    .begin ⟨2⟩, .start ⟨2⟩ "cat" [pictured 4], .step 1, .receive 0 .stored,
    .receive 0 (.signed "https://store/1"), .step 0]

theorem board_moves_overtaken :
    (begun overtaken).Nodup ∧
      (empty.moves ⟨"user", 60⟩ overtaken).board =
        { Board.start ⟨2⟩ with saving := [(4, ())] } ∧
      (empty.moves ⟨"user", 60⟩ overtaken).board.isCurrent ⟨1⟩ = false := by
  have hfresh : (begun overtaken).Nodup := by decide
  obtain ⟨-, -, hboard, -, hclosing⟩ := @board_moves_empty ⟨"user", 60⟩ overtaken hfresh
  refine ⟨hfresh, ?_, ?_⟩
  · rw [hboard (overtaken.take 4) ⟨2⟩ (overtaken.drop 5) rfl (by decide)]
    decide +kernel
  · exact hclosing (overtaken.take 4) (.begin ⟨2⟩) (overtaken.drop 5) ⟨1⟩ rfl rfl (by decide)

end Session

end Cattery.Asset
