import Mathlib.Data.List.Basic

/-!
# Tasks

A task stops wherever it meets the world around it: it asks questions, acts on what it shares
with others, and leaves notes.  The answers do not depend on the shared data, and notes are never
read.
-/

namespace Mongres

universe u v

/-- What tasks can ask, do and note. -/
structure Interface where
  Question : Type
  Answer : Type
  Action : Type
  Outcome : Action → Type
  Note : Type

inductive Task (interface : Interface) (Result : Type u) where
  | done (result : Result)
  | ask (question : interface.Question) (next : interface.Answer → Task interface Result)
  | act (action : interface.Action) (next : interface.Outcome action → Task interface Result)
  | note (note : interface.Note) (next : Task interface Result)

namespace Task

variable {interface : Interface} {Result : Type u} {Value : Type v} {Shared : Type}

def bind (task : Task interface Value) (go : Value → Task interface Result) :
    Task interface Result :=
  match task with
  | done value => go value
  | ask question next => ask question fun answer => (next answer).bind go
  | act action next => act action fun outcome => (next outcome).bind go
  | note entry next => note entry (next.bind go)

section Serves

variable (performs : Shared → (action : interface.Action) → interface.Outcome action → Shared → Prop)

/-- A task on its own, with any answers to its questions: its result, its notes and the shared
data before and after. -/
inductive Serves : Task interface Result → Shared → Result → List interface.Note → Shared → Prop where
  | done {result : Result} {shared : Shared} : Serves (done result) shared result [] shared
  | ask {question : interface.Question} {next : interface.Answer → Task interface Result}
      {start finish : Shared} {result : Result} {notes : List interface.Note}
      (answer : interface.Answer) : Serves (next answer) start result notes finish →
      Serves (ask question next) start result notes finish
  | act {action : interface.Action} {next : interface.Outcome action → Task interface Result}
      {start middle finish : Shared} {outcome : interface.Outcome action} {result : Result}
      {notes : List interface.Note} : performs start action outcome middle →
      Serves (next outcome) middle result notes finish →
      Serves (act action next) start result notes finish
  | note {entry : interface.Note} {next : Task interface Result} {start finish : Shared}
      {result : Result} {notes : List interface.Note} : Serves next start result notes finish →
      Serves (note entry next) start result (entry :: notes) finish

end Serves

/-! ## Tasks that ask once and act once -/

/-- A task whose result is settled: it only leaves notes any more. -/
inductive Settles : Task interface Result → Result → List interface.Note → Prop where
  | done (result : Result) : Settles (done result) result []
  | note (entry : interface.Note) {next : Task interface Result} {result : Result}
      {notes : List interface.Note} : Settles next result notes →
      Settles (note entry next) result (entry :: notes)

/-- A task that asks nothing, and is settled once it has acted. -/
inductive Acts : Task interface Result → Prop where
  | done (result : Result) : Acts (done result)
  | act (action : interface.Action) {next : interface.Outcome action → Task interface Result} :
      (∀ outcome, ∃ result notes, Settles (next outcome) result notes) → Acts (act action next)
  | note (entry : interface.Note) {next : Task interface Result} :
      Acts next → Acts (note entry next)

/-- A task that does nothing, and is settled once it has its answer. -/
inductive Asks : Task interface Result → Prop where
  | done (result : Result) : Asks (done result)
  | ask (question : interface.Question) {next : interface.Answer → Task interface Result} :
      (∀ answer, ∃ result notes, Settles (next answer) result notes) → Asks (ask question next)
  | note (entry : interface.Note) {next : Task interface Result} :
      Asks next → Asks (note entry next)

/-- A task that asks at most once before it acts at most once. -/
inductive IsOrderly : Task interface Result → Prop where
  | acts {task : Task interface Result} : task.Acts → IsOrderly task
  | ask (question : interface.Question) {next : interface.Answer → Task interface Result} :
      (∀ answer, Acts (next answer)) → IsOrderly (ask question next)
  | note (entry : interface.Note) {next : Task interface Result} :
      IsOrderly next → IsOrderly (note entry next)

theorem Settles.bind {task : Task interface Value} {go : Value → Task interface Result}
    {value : Value} {notes : List interface.Note} (settles : task.Settles value notes)
    (each : ∀ value, ∃ result notes, (go value).Settles result notes) :
    ∃ result notes, (task.bind go).Settles result notes := by
  induction settles with
  | done value => exact each value
  | note entry _ inductionHypothesis =>
      obtain ⟨result, notes, settles⟩ := inductionHypothesis
      exact ⟨result, entry :: notes, .note entry settles⟩

theorem Settles.acts {task : Task interface Result} {result : Result}
    {notes : List interface.Note} (settles : task.Settles result notes) : task.Acts := by
  induction settles with
  | done result => exact .done result
  | note entry _ inductionHypothesis => exact .note entry inductionHypothesis

theorem Settles.bind_acts {task : Task interface Value} {go : Value → Task interface Result}
    {value : Value} {notes : List interface.Note} (settles : task.Settles value notes)
    (each : ∀ value, (go value).Acts) : (task.bind go).Acts := by
  induction settles with
  | done value => exact each value
  | note entry _ inductionHypothesis => exact .note entry inductionHypothesis

theorem Acts.bind {task : Task interface Value} {go : Value → Task interface Result}
    (acts : task.Acts) (each : ∀ value, ∃ result notes, (go value).Settles result notes) :
    (task.bind go).Acts := by
  induction acts with
  | done value =>
      obtain ⟨result, notes, settles⟩ := each value
      exact settles.acts
  | act action settled =>
      refine .act action fun outcome => ?_
      obtain ⟨value, notes, settles⟩ := settled outcome
      exact settles.bind each
  | note entry _ inductionHypothesis => exact .note entry inductionHypothesis

theorem Asks.bind {task : Task interface Value} {go : Value → Task interface Result}
    (asks : task.Asks) (each : ∀ value, (go value).Acts) : (task.bind go).IsOrderly := by
  induction asks with
  | done value => exact .acts (each value)
  | ask question settled =>
      refine .ask question fun answer => ?_
      obtain ⟨value, notes, settles⟩ := settled answer
      exact settles.bind_acts each
  | note entry _ inductionHypothesis => exact .note entry inductionHypothesis

theorem Settles.serves {task : Task interface Result} {result : Result}
    {notes : List interface.Note}
    {performs : Shared → (action : interface.Action) → interface.Outcome action → Shared → Prop}
    (settles : task.Settles result notes) (shared : Shared) :
    task.Serves performs shared result notes shared := by
  induction settles with
  | done result => exact .done
  | note entry _ inductionHypothesis => exact .note inductionHypothesis

/-! ## Tasks as functions -/

def run (answers : interface.Question → interface.Answer)
    (outcomes : (action : interface.Action) → interface.Outcome action) :
    Task interface Result → Result × List interface.Action × List interface.Note
  | done result => (result, [], [])
  | ask question next => (next (answers question)).run answers outcomes
  | act action next =>
      let (result, actions, notes) := (next (outcomes action)).run answers outcomes
      (result, action :: actions, notes)
  | note entry next =>
      let (result, actions, notes) := next.run answers outcomes
      (result, actions, entry :: notes)

section Run

variable {answers : interface.Question → interface.Answer}
  {outcomes : (action : interface.Action) → interface.Outcome action}

theorem run_bind (task : Task interface Value) (go : Value → Task interface Result) :
    (task.bind go).run answers outcomes =
      let (value, actions, notes) := task.run answers outcomes
      let (result, moreActions, moreNotes) := (go value).run answers outcomes
      (result, actions ++ moreActions, notes ++ moreNotes) := by
  induction task with
  | done value => rfl
  | ask question next inductionHypothesis => exact inductionHypothesis _
  | act action next inductionHypothesis =>
      rw [bind, run, inductionHypothesis]
      rfl
  | note entry next inductionHypothesis =>
      rw [bind, run, inductionHypothesis]
      rfl

theorem Settles.run_eq {task : Task interface Result} {result : Result}
    {notes : List interface.Note} (settles : task.Settles result notes) :
    task.run answers outcomes = (result, [], notes) := by
  induction settles with
  | done result => rfl
  | note entry _ inductionHypothesis => rw [run, inductionHypothesis]

variable {performs : Shared → (action : interface.Action) → interface.Outcome action → Shared → Prop}
  {start finish : Shared} {result : Result} {notes : List interface.Note}

/-- How a request is served: without an action, or by one. -/
inductive RunsTo (performs : Shared → (action : interface.Action) → interface.Outcome action →
    Shared → Prop) (task : Task interface Result)
    (answers : interface.Question → interface.Answer) (start : Shared) (result : Result)
    (notes : List interface.Note) : Shared → Prop where
  | unchanged : (∀ outcomes, task.run answers outcomes = (result, [], notes)) →
      RunsTo performs task answers start result notes start
  | performed {action : interface.Action} {outcome : interface.Outcome action} {finish : Shared} :
      performs start action outcome finish →
      (∀ outcomes, outcomes action = outcome →
        task.run answers outcomes = (result, [action], notes)) →
      RunsTo performs task answers start result notes finish

theorem RunsTo.note {task : Task interface Result} {entry : interface.Note}
    (runs : task.RunsTo performs answers start result notes finish) :
    (Task.note entry task).RunsTo performs answers start result (entry :: notes) finish := by
  cases runs with
  | unchanged runs => exact .unchanged fun outcomes => by rw [run, runs]
  | performed performed runs =>
      exact .performed performed fun outcomes same => by rw [run, runs outcomes same]

theorem Settles.of_serves {task : Task interface Result} {value : Result}
    {more : List interface.Note} (settles : task.Settles value more)
    (serves : task.Serves performs start result notes finish) :
    result = value ∧ notes = more ∧ finish = start := by
  induction settles generalizing notes with
  | done value =>
      cases serves
      exact ⟨rfl, rfl, rfl⟩
  | note entry _ inductionHypothesis =>
      cases serves with
      | note serves =>
          obtain ⟨rfl, rfl, rfl⟩ := inductionHypothesis serves
          exact ⟨rfl, rfl, rfl⟩

theorem Acts.runsTo {task : Task interface Result} (acts : task.Acts)
    (serves : task.Serves performs start result notes finish)
    (answers : interface.Question → interface.Answer) :
    task.RunsTo performs answers start result notes finish := by
  induction acts generalizing notes with
  | done value =>
      cases serves
      exact .unchanged fun _ => rfl
  | act action settled =>
      cases serves with
      | @act _ _ _ _ _ outcome _ _ performed serves =>
          obtain ⟨value, more, settles⟩ := settled outcome
          obtain ⟨rfl, rfl, rfl⟩ := settles.of_serves serves
          refine .performed performed fun outcomes same => ?_
          subst same
          rw [run, settles.run_eq]
  | note entry _ inductionHypothesis =>
      cases serves with
      | note serves => exact (inductionHypothesis serves).note

/-- An orderly task runs as it serves its request, for one answer to any question. -/
theorem IsOrderly.runsTo [Nonempty interface.Answer] {task : Task interface Result}
    (orderly : task.IsOrderly) (serves : task.Serves performs start result notes finish) :
    ∃ answer, task.RunsTo performs (fun _ => answer) start result notes finish := by
  induction orderly generalizing notes with
  | acts acts =>
      obtain ⟨answer⟩ := ‹Nonempty interface.Answer›
      exact ⟨answer, acts.runsTo serves _⟩
  | ask question each =>
      cases serves with
      | ask answer serves =>
          refine ⟨answer, ?_⟩
          cases (each answer).runsTo serves fun _ => answer with
          | unchanged runs => exact .unchanged runs
          | performed performed runs => exact .performed performed runs
  | note entry _ inductionHypothesis =>
      cases serves with
      | note serves =>
          obtain ⟨answer, runs⟩ := inductionHypothesis serves
          exact ⟨answer, runs.note⟩

end Run

/-! ## Tasks on their way -/

/-- What is left of a task that has not acted yet, and the notes it has made. -/
inductive Reaches (task : Task interface Result) : List interface.Note → Task interface Result →
    Prop where
  | start : Reaches task [] task
  | ask {question : interface.Question}
      {next : interface.Answer → Task interface Result} {notes : List interface.Note}
      (answer : interface.Answer) : Reaches task notes (ask question next) →
      Reaches task notes (next answer)
  | note {entry : interface.Note} {next : Task interface Result} {notes : List interface.Note} :
      Reaches task notes (note entry next) → Reaches task (notes ++ [entry]) next

theorem Reaches.serves {task rest : Task interface Result} {notes more : List interface.Note}
    {start finish : Shared} {result : Result}
    {performs : Shared → (action : interface.Action) → interface.Outcome action → Shared → Prop}
    (reaches : task.Reaches notes rest) (serves : rest.Serves performs start result more finish) :
    task.Serves performs start result (notes ++ more) finish := by
  induction reaches generalizing more with
  | start => exact serves
  | ask answer _ inductionHypothesis => exact inductionHypothesis (.ask answer serves)
  | note _ inductionHypothesis =>
      rw [List.append_assoc]
      exact inductionHypothesis (.note serves)

theorem Reaches.isOrderly {task rest : Task interface Result} {notes : List interface.Note}
    (reaches : task.Reaches notes rest) (orderly : task.IsOrderly) : rest.IsOrderly := by
  induction reaches with
  | start => exact orderly
  | ask answer _ inductionHypothesis =>
      cases inductionHypothesis with
      | acts acts => cases acts
      | ask _ each => exact .acts (each answer)
  | note _ inductionHypothesis =>
      cases inductionHypothesis with
      | acts acts =>
          cases acts with
          | note _ acts => exact .acts acts
      | note _ next => exact next

theorem IsOrderly.settles {action : interface.Action}
    {next : interface.Outcome action → Task interface Result}
    (orderly : IsOrderly (act action next)) (outcome : interface.Outcome action) :
    ∃ result notes, (next outcome).Settles result notes := by
  cases orderly with
  | acts acts =>
      cases acts with
      | act _ settled => exact settled outcome

end Task

end Mongres
