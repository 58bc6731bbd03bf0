import Cattery.Proofs.Marks
import Mathlib.Data.List.DropRight
import Mathlib.Data.List.Induction
import Mathlib.Tactic.SplitIfs

/-! What the board shows of the writes it accepted. An index is shown as its latest write left it,
unless that was a failure after an image had been saved under the same index: then the old image
stays, and the failure behind it is not seen. -/

namespace Cattery

namespace Assoc

variable {κ α : Type} [DecidableEq κ] {key : κ} {value : α}

theorem find?_cons (k k' : κ) (v : α) (rest : List (κ × α)) :
    find? k ((k', v) :: rest) = if k = k' then some v else find? k rest := by
  rw [find?]
  exact if_congr eq_comm rfl rfl

theorem find?_insert [LT κ] [DecidableLT κ] (k : κ) (map : List (κ × α)) :
    find? k (insert key value map) = if k = key then some value else find? k map := by
  induction map with
  | nil => rw [insert, find?_cons]
  | cons entry rest ih =>
    obtain ⟨k', v⟩ := entry
    rw [insert]
    by_cases hlt : key < k'
    · rw [if_pos hlt, find?_cons]
    by_cases hkey : key = k'
    · subst hkey
      rw [if_neg hlt, if_pos rfl, find?_cons, find?_cons]
      split_ifs <;> rfl
    · -- the entry passed over has another key
      rw [if_neg hlt, if_neg hkey, find?_cons, find?_cons, ih]
      split_ifs with hk' hk
      · exact absurd (hk.symm.trans hk') hkey
      · rfl
      · rfl
      · rfl

theorem find?_erase (k : κ) (map : List (κ × α)) :
    find? k (erase key map) = if k = key then none else find? k map := by
  induction map with
  | nil => simp [erase, find?]
  | cons entry rest ih =>
    obtain ⟨k', v⟩ := entry
    rw [erase] at ih ⊢
    by_cases hkey : k' = key
    · subst hkey
      rw [List.filter_cons_of_neg (by simp), ih, find?_cons]
      split_ifs <;> rfl
    · rw [List.filter_cons_of_pos (by simpa using hkey), find?_cons, find?_cons, ih]
      split_ifs with hk' hk
      · exact absurd (hk'.symm.trans hk) hkey
      · rfl
      · rfl
      · rfl

end Assoc

namespace Asset

/-! ## What was accepted -/

inductive Act where
  | begin (token : RunToken)
  | cancel
  | mark (token : RunToken) (write : Write)
deriving DecidableEq, Repr

namespace Act

def supersedes : Act → Bool
  | .begin _ => true
  | .cancel => true
  | .mark .. => false

def writeOf? (token : RunToken) : Act → Option Write
  | .mark other write => if other = token then some write else none
  | _ => none

end Act

def currentRun (acts : List Act) : Option RunToken :=
  match (acts.rdropWhile fun act => !act.supersedes).getLast? with
  | some (.begin token) => some token
  | _ => none

/-- The writes that were made with the token of the current run since it began. -/
def accepted (acts : List Act) : List Write :=
  match currentRun acts with
  | some token => (acts.rtakeWhile fun act => !act.supersedes).filterMap (Act.writeOf? token)
  | none => []

section Concat

variable (acts : List Act) (token : RunToken) (write : Write)

theorem currentRun_concat_begin : currentRun (acts ++ [.begin token]) = some token := by
  rw [currentRun, List.rdropWhile_concat_neg _ _ _ (by simp [Act.supersedes]), List.getLast?_concat]

theorem currentRun_concat_cancel : currentRun (acts ++ [.cancel]) = none := by
  rw [currentRun, List.rdropWhile_concat_neg _ _ _ (by simp [Act.supersedes]), List.getLast?_concat]

theorem currentRun_concat_mark : currentRun (acts ++ [.mark token write]) = currentRun acts := by
  rw [currentRun, List.rdropWhile_concat_pos _ _ _ rfl, currentRun]

theorem accepted_concat_of_supersedes {act : Act} (h : act.supersedes = true) :
    accepted (acts ++ [act]) = [] := by
  rw [accepted, List.rtakeWhile_concat_neg _ _ _ (by simp [h])]
  split <;> rfl

theorem accepted_concat_mark :
    accepted (acts ++ [.mark token write]) =
      accepted acts ++ if currentRun acts = some token then [write] else [] := by
  rw [accepted, currentRun_concat_mark, List.rtakeWhile_concat_pos _ _ _ rfl, accepted]
  cases currentRun acts with
  | none => simp
  | some current =>
    by_cases h : token = current
    · simp [Act.writeOf?, h]
    · simp [Act.writeOf?, h, Ne.symm h]

end Concat

/-! ## The latest write for an index -/

namespace Write

def index : Write → UInt32
  | .saving index => index
  | .saved index _ => index
  | .failed index _ => index

def status : Write → Status
  | .saving _ => .saving
  | .saved _ asset => .saved asset
  | .failed _ message => .failed message

def asset? : Write → Option SavedAsset
  | .saved _ asset => some asset
  | _ => none

def message? : Write → Option String
  | .failed _ message => some message
  | _ => none

end Write

section Latest

variable (index : UInt32) (writes : List Write)

def latest? : Option Write :=
  (writes.filter fun write => write.index = index).getLast?

def latestAsset? : Option SavedAsset :=
  ((writes.filter fun write => write.index = index).filterMap Write.asset?).getLast?

theorem latest?_concat (write : Write) :
    latest? index (writes ++ [write]) =
      if write.index = index then some write else latest? index writes := by
  rw [latest?, latest?]
  split_ifs with h
  · simp [List.filter_append, h]
  · simp [List.filter_append, h]

theorem latestAsset?_concat (write : Write) :
    latestAsset? index (writes ++ [write]) =
      if write.index = index then write.asset?.or (latestAsset? index writes)
      else latestAsset? index writes := by
  rw [latestAsset?, latestAsset?]
  split_ifs with h
  · cases hasset : write.asset? <;> simp [List.filter_append, h, hasset]
  · simp [List.filter_append, h]

variable {index writes}

theorem index_of_latest? {write : Write} (h : latest? index writes = some write) :
    write.index = index := by
  have hmem := List.mem_of_getLast? h
  simpa using (List.mem_filter.mp hmem).2

theorem latestAsset?_of_latest?_eq_none (h : latest? index writes = none) :
    latestAsset? index writes = none := by
  rw [latest?, List.getLast?_eq_none_iff] at h
  rw [latestAsset?, h]
  rfl

theorem latestAsset?_of_latest?_eq_saved {other : UInt32} {asset : SavedAsset}
    (h : latest? index writes = some (.saved other asset)) :
    latestAsset? index writes = some asset := by
  obtain ⟨before, hbefore⟩ := List.getLast?_eq_some_iff.mp h
  rw [latestAsset?, hbefore, List.filterMap_append]
  exact List.getLast?_concat

end Latest

/-! ## What the board holds -/

namespace Board

def act (board : Board) : Act → Board
  | .begin token => start token
  | .cancel => empty
  | .mark token write => (board.commit token write).1

def after (acts : List Act) : Board :=
  acts.foldl act empty

section Apply

variable (board : Board) (write : Write)

theorem find?_saving_apply :
    Assoc.find? write.index (board.apply write).saving =
      if write.status = .saving then some () else none := by
  cases write <;> simp [Board.apply, Write.index, Write.status, Assoc.find?_insert, Assoc.find?_erase]

theorem find?_saved_apply :
    Assoc.find? write.index (board.apply write).saved =
      write.asset?.or (Assoc.find? write.index board.saved) := by
  cases write <;> simp [Board.apply, Write.index, Write.asset?, Assoc.find?_insert]

theorem find?_errors_apply :
    Assoc.find? write.index (board.apply write).errors = write.message? := by
  cases write <;> simp [Board.apply, Write.index, Write.message?, Assoc.find?_insert, Assoc.find?_erase]

/-- A write leaves every other index alone. -/
theorem find?_apply_of_ne {index : UInt32} (h : write.index ≠ index) :
    Assoc.find? index (board.apply write).saving = Assoc.find? index board.saving ∧
      Assoc.find? index (board.apply write).saved = Assoc.find? index board.saved ∧
      Assoc.find? index (board.apply write).errors = Assoc.find? index board.errors := by
  cases write <;>
    simp_all [Board.apply, Write.index, Assoc.find?_insert, Assoc.find?_erase, eq_comm]

end Apply

/-- What a board holds for an index when it took some writes: being saved and an error as the
latest one left them, but an asset until another one takes its place. -/
structure Holds (board : Board) (index : UInt32) (writes : List Write) : Prop where
  saving : (Assoc.find? index board.saving).isSome = true ↔
    (latest? index writes).map Write.status = some .saving
  saved : Assoc.find? index board.saved = latestAsset? index writes
  errors : Assoc.find? index board.errors = (latest? index writes).bind Write.message?

variable {board : Board} {index : UInt32} {writes : List Write}

theorem holds_nil (run : Option RunToken) : Holds { empty with run } index [] where
  saving := by simp [Assoc.find?, empty, latest?]
  saved := rfl
  errors := rfl

theorem Holds.apply (h : Holds board index writes) (write : Write) :
    Holds (board.apply write) index (writes ++ [write]) := by
  by_cases hindex : write.index = index
  · subst hindex
    refine ⟨?_, ?_, ?_⟩
    · rw [find?_saving_apply, latest?_concat, if_pos rfl, Option.map_some, Option.some_inj]
      split_ifs with hstatus <;> simp [hstatus]
    · rw [find?_saved_apply, latestAsset?_concat, if_pos rfl, h.saved]
    · rw [find?_errors_apply, latest?_concat, if_pos rfl, Option.bind_some]
  · obtain ⟨hsaving, hsaved, herrors⟩ := find?_apply_of_ne board write hindex
    refine ⟨?_, ?_, ?_⟩
    · rw [hsaving, latest?_concat, if_neg hindex, h.saving]
    · rw [hsaved, latestAsset?_concat, if_neg hindex, h.saved]
    · rw [herrors, latest?_concat, if_neg hindex, h.errors]

theorem after_concat (acts : List Act) (last : Act) :
    after (acts ++ [last]) = (after acts).act last := by
  rw [after, List.foldl_append]
  rfl

theorem run_after (acts : List Act) : (after acts).run = currentRun acts := by
  induction acts using List.reverseRecOn with
  | nil => rfl
  | append_singleton acts last ih =>
    rw [after_concat]
    cases last with
    | begin token => rw [currentRun_concat_begin, act, start]
    | cancel => rw [currentRun_concat_cancel, act, empty]
    | mark token write => rw [currentRun_concat_mark, act, run_commit, ih]

theorem isCurrent_after (acts : List Act) (token : RunToken) :
    (after acts).isCurrent token = decide (currentRun acts = some token) := by
  rw [isCurrent, run_after]
  by_cases h : currentRun acts = some token <;> simp [h]

/-- The writes that count as accepted are those the board says it applied. -/
theorem snd_commit_after_iff (acts : List Act) (token : RunToken) (write : Write) :
    ((after acts).commit token write).2 = true ↔
      accepted (acts ++ [.mark token write]) = accepted acts ++ [write] := by
  rw [accepted_concat_mark]
  by_cases h : currentRun acts = some token
  · rw [commit_of_current (by rw [isCurrent_after, decide_eq_true h]), if_pos h]
    exact iff_of_true rfl rfl
  · rw [commit_of_stale (by rw [isCurrent_after, decide_eq_false h]), if_neg h]
    simp

/-- After any acts the board holds what the accepted writes left. -/
theorem holds_after (acts : List Act) (index : UInt32) :
    Holds (after acts) index (accepted acts) := by
  induction acts using List.reverseRecOn with
  | nil => exact holds_nil none
  | append_singleton acts last ih =>
    rw [after_concat]
    cases last with
    | begin token =>
      rw [accepted_concat_of_supersedes acts rfl]
      exact holds_nil (some token)
    | cancel =>
      rw [accepted_concat_of_supersedes acts rfl]
      exact holds_nil none
    | mark token write =>
      rw [accepted_concat_mark, act]
      by_cases h : currentRun acts = some token
      · rw [commit_of_current (by rw [isCurrent_after, decide_eq_true h]), if_pos h]
        exact ih.apply write
      · rw [commit_of_stale (by rw [isCurrent_after, decide_eq_false h]), if_neg h,
          List.append_nil]
        exact ih

end Board

/-! ## What is shown -/

def outcome (index : UInt32) (writes : List Write) : Status :=
  ((latest? index writes).map Write.status).getD .idle

/-- The latest of some writes for an index is a failure, and an asset was saved for it before. -/
structure Masked (index : UInt32) (writes : List Write) : Prop where
  failed : ∃ message, latest? index writes = some (.failed index message)
  saved : ∃ asset, latestAsset? index writes = some asset

namespace Board

variable {board : Board} {index : UInt32} {writes : List Write}

theorem Holds.status_of_masked (h : Holds board index writes) (hmasked : Masked index writes) :
    ∃ asset, latestAsset? index writes = some asset ∧ board.status index = .saved asset := by
  obtain ⟨⟨message, hfailed⟩, ⟨asset, hasset⟩⟩ := hmasked
  have hsaving : ¬ (Assoc.find? index board.saving).isSome = true := by
    rw [h.saving, hfailed]
    simp [Write.status]
  refine ⟨asset, hasset, ?_⟩
  rw [status, if_neg hsaving, h.saved, hasset]

theorem Holds.status_of_not_masked (h : Holds board index writes)
    (hmasked : ¬ Masked index writes) : board.status index = outcome index writes := by
  have hsaving := h.saving
  rw [status, outcome, h.saved, h.errors]
  cases hlatest : latest? index writes with
  | none =>
    rw [hlatest] at hsaving
    rw [if_neg (by simp [hsaving]), latestAsset?_of_latest?_eq_none hlatest]
    rfl
  | some write =>
    have hindex := index_of_latest? hlatest
    rw [hlatest, Option.map_some, Option.some_inj] at hsaving
    cases write with
    | saving _ => rw [if_pos (hsaving.mpr rfl)]; rfl
    | saved _ asset =>
      rw [if_neg (by simp [hsaving, Write.status]), latestAsset?_of_latest?_eq_saved hlatest]
      rfl
    | failed other message =>
      obtain rfl : other = index := hindex
      -- no asset was saved, since the failure would hide behind it
      have hasset : latestAsset? other writes = none := by
        rw [Option.eq_none_iff_forall_ne_some]
        exact fun asset hsaved => hmasked ⟨⟨message, hlatest⟩, asset, hsaved⟩
      rw [if_neg (by simp [hsaving, Write.status]), hasset]
      rfl

/-- The board keeps an asset and an error for one index when the failure came last. -/
theorem Holds.masked_iff (h : Holds board index writes) :
    Masked index writes ↔
      Assoc.find? index board.saving = none ∧ Assoc.find? index board.saved ≠ none ∧
        Assoc.find? index board.errors ≠ none := by
  have hsaving := h.saving
  rw [h.saved, h.errors, ← Option.not_isSome_iff_eq_none, hsaving]
  constructor
  · rintro ⟨⟨message, hfailed⟩, ⟨asset, hasset⟩⟩
    rw [hfailed, hasset]
    simp [Write.status, Write.message?]
  · rintro ⟨-, hasset, herror⟩
    obtain ⟨asset, hasset⟩ := Option.ne_none_iff_exists'.mp hasset
    obtain ⟨message, herror⟩ := Option.ne_none_iff_exists'.mp herror
    obtain ⟨write, hlatest, hmessage⟩ := Option.bind_eq_some_iff.mp herror
    have hindex := index_of_latest? hlatest
    refine ⟨⟨message, ?_⟩, asset, hasset⟩
    -- only a failure has a message
    cases write with
    | saving _ => cases hmessage
    | saved _ _ => cases hmessage
    | failed other text =>
      obtain rfl : text = message := Option.some_inj.mp hmessage
      obtain rfl : other = index := hindex
      exact hlatest

/-- An index is shown as its latest accepted write left it, exactly unless that was a failure after
an asset was saved for it in the same run. Then the old asset is shown, and the board keeps it and
the error both, as it does in no other case for an index that is not being saved. -/
theorem status_after_eq_outcome_iff (acts : List Act) (index : UInt32) :
    ((after acts).status index = outcome index (accepted acts) ↔
        ¬ Masked index (accepted acts)) ∧
      (Masked index (accepted acts) → ∃ asset, latestAsset? index (accepted acts) = some asset ∧
        (after acts).status index = .saved asset) ∧
      (Masked index (accepted acts) ↔
        Assoc.find? index (after acts).saving = none ∧
          Assoc.find? index (after acts).saved ≠ none ∧
          Assoc.find? index (after acts).errors ≠ none) := by
  have hholds := holds_after acts index
  refine ⟨⟨fun hstatus hmasked => ?_, hholds.status_of_not_masked⟩, hholds.status_of_masked,
    hholds.masked_iff⟩
  -- the outcome of a failure is not an asset
  obtain ⟨message, hfailed⟩ := hmasked.failed
  obtain ⟨asset, -, hsaved⟩ := hholds.status_of_masked hmasked
  rw [hsaved, outcome, hfailed] at hstatus
  cases hstatus

def savedThenFailed : List Act :=
  [.begin ⟨1⟩, .mark ⟨1⟩ (.saving 0), .mark ⟨1⟩ (.saved 0 ⟨"https://store/0", "0.png"⟩),
    .mark ⟨1⟩ (.saving 0), .mark ⟨1⟩ (.failed 0 "upload failed")]

theorem status_savedThenFailed :
    Masked 0 (accepted savedThenFailed) ∧
      (after savedThenFailed).status 0 = .saved ⟨"https://store/0", "0.png"⟩ := by
  obtain ⟨-, hshown, -⟩ := status_after_eq_outcome_iff savedThenFailed 0
  have hmasked : Masked 0 (accepted savedThenFailed) :=
    ⟨⟨"upload failed", by decide +kernel⟩, ⟨"https://store/0", "0.png"⟩, by decide +kernel⟩
  obtain ⟨asset, hasset, hstatus⟩ := hshown hmasked
  have hlatest : latestAsset? 0 (accepted savedThenFailed) =
      some ⟨"https://store/0", "0.png"⟩ := by decide +kernel
  obtain rfl : ⟨"https://store/0", "0.png"⟩ = asset := Option.some_inj.mp (hlatest.symm.trans hasset)
  exact ⟨hmasked, hstatus⟩

/-- The failure that came last is not shown, and both its message and the old asset are kept. -/
theorem status_savedThenFailed_ne :
    outcome 0 (accepted savedThenFailed) = .failed "upload failed" ∧
      (after savedThenFailed).status 0 ≠ outcome 0 (accepted savedThenFailed) ∧
      Assoc.find? 0 (after savedThenFailed).saving = none ∧
      Assoc.find? 0 (after savedThenFailed).saved = some ⟨"https://store/0", "0.png"⟩ ∧
      Assoc.find? 0 (after savedThenFailed).errors = some "upload failed" := by
  decide +kernel

end Board

end Asset

end Cattery
