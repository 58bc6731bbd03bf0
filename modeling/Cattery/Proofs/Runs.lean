import Cattery.Run.Execute
import Cattery.World.Simulation
import Mathlib.Logic.Basic

/-! Runs of programs. A program decides what it does, and the world what it answers, so a run is the
list of the actions that were carried out with their answers, and the result they lead to. Every
answer of the right type is allowed: what holds of all runs holds in every world. -/

namespace Cattery

structure Performed where
  {kind : Type}
  action : Action kind
  answer : kind

namespace Program

variable {α : Type}

inductive Runs : Program α → List Performed → α → Prop
  | done (result : α) : Runs (.done result) [] result
  | act {β : Type} {action : Action β} {next : β → Program α} {log : List Performed} {result : α} (answer : β)
      (h : Runs (next answer) log result) : Runs (.act action next) (⟨action, answer⟩ :: log) result

theorem runs_done_iff {result other : α} {log : List Performed} :
    Runs (.done result) log other ↔ log = [] ∧ other = result := by
  constructor
  · rintro ⟨⟩
    exact ⟨rfl, rfl⟩
  · rintro ⟨rfl, rfl⟩
    exact .done other

theorem runs_act_iff {β : Type} {action : Action β} {next : β → Program α} {log : List Performed}
    {result : α} : Runs (.act action next) log result ↔
      ∃ answer rest, log = ⟨action, answer⟩ :: rest ∧ Runs (next answer) rest result := by
  constructor
  · intro h
    cases h with
    | act answer h => exact ⟨answer, _, rfl, h⟩
  · rintro ⟨answer, rest, rfl, h⟩
    exact .act answer h

/-- The same actions with the same answers lead to one result. -/
theorem Runs.unique {program : Program α} {log : List Performed} {result other : α}
    (h : Runs program log result) (hother : Runs program log other) : result = other := by
  induction h with
  | done result => exact (runs_done_iff.mp hother).2.symm
  | act answer _ ih =>
    -- both logs start with the same answer, so both go on with the same program
    obtain ⟨answer', rest, heq, hrest⟩ := runs_act_iff.mp hother
    cases heq
    exact ih hrest

/-- A program that ends with a function of another one's result runs as that one does. -/
theorem runs_andThen_done_iff {β : Type} {program : Program α} {f : α → β} {log : List Performed}
    {result : β} : Runs (program.andThen fun a => .done (f a)) log result ↔
      ∃ a, Runs program log a ∧ result = f a := by
  induction program generalizing log with
  | done a => simp [andThen, runs_done_iff, and_assoc]
  | act action next ih =>
    simp only [andThen, runs_act_iff, ih]
    constructor
    · rintro ⟨answer, rest, rfl, a, h, rfl⟩
      exact ⟨a, ⟨answer, rest, rfl, h⟩, rfl⟩
    · rintro ⟨a, ⟨answer, rest, rfl, h⟩, rfl⟩
      exact ⟨answer, rest, rfl, a, h, rfl⟩

theorem map_send_eq_singleton_iff {reply answer : Option Http.Reply} {request : Http.Request}
    {requests : List Http.Request} :
    requests.map (fun request => (⟨.send request, reply⟩ : Performed)) = [⟨.send request, answer⟩] ↔
      requests = [request] ∧ answer = reply := by
  constructor
  · intro h
    obtain ⟨other, rfl, hsend⟩ := List.map_eq_singleton_iff.mp h
    cases hsend
    exact ⟨rfl, rfl⟩
  · rintro ⟨rfl, rfl⟩
    rfl

/-- A program does nothing but send some requests, and comes to a result when all of them get the
same reply. -/
def Meets (program : Program α) (reply : Option Http.Reply) (requests : List Http.Request)
    (result : α) : Prop :=
  Runs program (requests.map fun request => ⟨.send request, reply⟩) result

/-- A program does something in every simulated world. -/
theorem exists_runs (program : Program α) (world : World) :
    ∃ log, Runs program log (world.run program).1 := by
  induction program generalizing world with
  | done result => exact ⟨[], .done result⟩
  | act action next ih =>
    obtain ⟨log, h⟩ := ih (world.carryOut action).1 (world.carryOut action).2
    exact ⟨_, .act _ h⟩

end Program

namespace Run

open Program

variable {endpoint : Endpoint} {token : Credential} {slug : String} {input : Input}
  {options : Options} {log : List Performed} {report : Report}

def Report.ofReply (options : Options) : Option Http.Reply → Report
  | none => ⟨.error .transport, []⟩
  | some reply => ⟨(conclude options reply).1, (conclude options reply).2⟩

theorem execute_eq_of_error {failure : Failure}
    (h : prepare endpoint token slug input options = .error failure) :
    execute endpoint token slug input options = .done ⟨.error failure, []⟩ := by
  rw [execute, h]
  rfl

theorem execute_eq_of_request?_eq_none {draft : Http.Draft}
    (h : prepare endpoint token slug input options = .ok draft) (hrequest : draft.request? = none) :
    execute endpoint token slug input options = .done ⟨.error .transport, []⟩ := by
  rw [execute, h]
  simp only [exchange, hrequest]
  rfl

theorem execute_eq_of_request?_eq_some {draft : Http.Draft} {request : Http.Request}
    (h : prepare endpoint token slug input options = .ok draft)
    (hrequest : draft.request? = some request) :
    execute endpoint token slug input options =
      .act (.send request) fun reply => .done (.ofReply options reply) := by
  rw [execute, h]
  simp only [exchange, hrequest]
  refine congrArg (Program.act (.send request)) (funext fun reply => ?_)
  cases reply <;> rfl

/-- A run is refused, or finds no request to send, or sends one and reads the reply. -/
theorem runs_execute_iff : Runs (execute endpoint token slug input options) log report ↔
    (∃ failure, prepare endpoint token slug input options = .error failure ∧ log = [] ∧
      report = ⟨.error failure, []⟩) ∨
    ∃ draft, prepare endpoint token slug input options = .ok draft ∧
      ((draft.request? = none ∧ log = [] ∧ report = ⟨.error .transport, []⟩) ∨
        ∃ request reply, draft.request? = some request ∧ log = [⟨.send request, reply⟩] ∧
          report = .ofReply options reply) := by
  cases h : prepare endpoint token slug input options with
  | error failure => simp [execute_eq_of_error h, runs_done_iff]
  | ok draft =>
    -- the draft may have a header or an address that no request can carry
    simp only [reduceCtorEq, false_and, exists_false, false_or, Except.ok.injEq, exists_eq_left']
    cases hrequest : draft.request? with
    | none => simp [execute_eq_of_request?_eq_none h hrequest, runs_done_iff]
    | some request =>
      rw [execute_eq_of_request?_eq_some h hrequest, runs_act_iff]
      simp only [runs_done_iff, reduceCtorEq, false_and, false_or, Option.some.injEq]
      constructor
      · rintro ⟨reply, _, rfl, rfl, hreport⟩
        exact ⟨request, reply, rfl, rfl, hreport⟩
      · rintro ⟨_, reply, rfl, hlog, hreport⟩
        exact ⟨reply, [], hlog, rfl, hreport⟩

def asked (endpoint : Endpoint) (token : Credential) (slug : String) (input : Input)
    (options : Options) : List Http.Request :=
  match prepare endpoint token slug input options with
  | .error _ => []
  | .ok draft => draft.request?.toList

def reported (endpoint : Endpoint) (token : Credential) (slug : String) (input : Input)
    (options : Options) (reply : Option Http.Reply) : Report :=
  match prepare endpoint token slug input options with
  | .error failure => ⟨.error failure, []⟩
  | .ok draft => Report.ofReply options (draft.request?.bind fun _ => reply)

/-- The reply decides what a run comes to. -/
theorem meets_execute_iff {reply : Option Http.Reply} {requests : List Http.Request} :
    Meets (execute endpoint token slug input options) reply requests report ↔
      requests = asked endpoint token slug input options ∧
        report = reported endpoint token slug input options reply := by
  rw [Meets, runs_execute_iff, asked, reported]
  cases h : prepare endpoint token slug input options with
  | error failure => simp
  | ok draft =>
    cases hrequest : draft.request? with
    | none => simp [hrequest, Report.ofReply]
    | some request =>
      simp only [reduceCtorEq, false_and, exists_false, false_or, Except.ok.injEq, exists_eq_left',
        hrequest, Option.some.injEq, Option.toList_some, Option.bind_some]
      constructor
      · rintro ⟨_, answer, rfl, hlog, rfl⟩
        obtain ⟨rfl, rfl⟩ := map_send_eq_singleton_iff.mp hlog
        exact ⟨rfl, rfl⟩
      · rintro ⟨rfl, rfl⟩
        exact ⟨request, reply, rfl, rfl, rfl⟩

end Run

end Cattery
