import Mathlib.Data.List.ReduceOption
import Mongres.Library.Linearization

/-!
# Calls that take time

Sessions whose tasks send their actions and wait for the outcomes, so that calls overlap.  Nothing
is said of what happens to a call meanwhile.  But where the calls are answered as if each was
performed at one moment, the requests are answered as if each was served at one moment.
-/

namespace Mongres.Linearization

open Labelled

variable {interface : Interface} {Session Request Result Shared : Type}

abbrev Answered (interface : Interface) : Type :=
  (action : interface.Action) × interface.Outcome action

/-- What is seen of sessions, and of the calls that they make. -/
inductive Occurrence (interface : Interface) (Session Request Result : Type) where
  | shown (event : Event Session Request Result)
  | call (event : Event Session interface.Action (Answered interface))
  | hidden

namespace Occurrence

def event? : Occurrence interface Session Request Result → Option (Event Session Request Result)
  | shown event => some event
  | call _ | hidden => none

def call? : Occurrence interface Session Request Result →
    Option (Event Session interface.Action (Answered interface))
  | call event => some event
  | shown _ | hidden => none

end Occurrence

/-- Sessions with what is left of their requests, some of which wait for an outcome. -/
structure Overlapping (interface : Interface) (Session Result : Type) where
  rest : Session → Option (Task interface Result)
  calling : Session → Bool
  notes : List (Session × interface.Note)

/-- A call that is performed at one moment, without notes. -/
inductive Performed
    (performs : Shared → (action : interface.Action) → interface.Outcome action → Shared → Prop) :
    interface.Action → Shared → Answered interface → List interface.Note → Shared → Prop where
  | once {action : interface.Action} {outcome : interface.Outcome action} {start finish : Shared} :
      performs start action outcome finish →
        Performed performs action start ⟨action, outcome⟩ [] finish

variable [DecidableEq Session]

namespace Overlapping

def proceed (state : Overlapping interface Session Result) (session : Session)
    (rest : Option (Task interface Result)) (calling : Bool) (notes : List interface.Note) :
    Overlapping interface Session Result where
  rest := Function.update state.rest session rest
  calling := Function.update state.calling session calling
  notes := state.notes ++ notes.map (session, ·)

theorem proceed_self (state : Overlapping interface Session Result) (session : Session) :
    state.proceed session (state.rest session) (state.calling session) [] = state := by
  unfold proceed
  rw [Function.update_eq_self, Function.update_eq_self, List.map_nil, List.append_nil]

variable (program : Request → Task interface Result)

inductive Step : Overlapping interface Session Result →
    Occurrence interface Session Request Result → Overlapping interface Session Result →
    Prop where
  | receive {state : Overlapping interface Session Result} {session : Session}
      (request : Request) : state.rest session = none →
      Step state (.shown (.received session request))
        (state.proceed session (some (program request)) false [])
  | ask {state : Overlapping interface Session Result} {session : Session}
      {question : interface.Question} {next : interface.Answer → Task interface Result}
      (answer : interface.Answer) : state.rest session = some (.ask question next) →
      Step state .hidden (state.proceed session (some (next answer)) false [])
  | send {state : Overlapping interface Session Result} {session : Session}
      {action : interface.Action} {next : interface.Outcome action → Task interface Result} :
      state.rest session = some (.act action next) → state.calling session = false →
      Step state (.call (.received session action))
        (state.proceed session (some (.act action next)) true [])
  | answer {state : Overlapping interface Session Result} {session : Session}
      {action : interface.Action} {next : interface.Outcome action → Task interface Result}
      (outcome : interface.Outcome action) :
      state.rest session = some (.act action next) → state.calling session = true →
      Step state (.call (.replied session ⟨action, outcome⟩))
        (state.proceed session (some (next outcome)) false [])
  | note {state : Overlapping interface Session Result} {session : Session}
      {entry : interface.Note} {next : Task interface Result} :
      state.rest session = some (.note entry next) →
      Step state .hidden (state.proceed session (some next) false [entry])
  | reply {state : Overlapping interface Session Result} {session : Session}
      {result : Result} : state.rest session = some (.done result) →
      Step state (.shown (.replied session result)) (state.proceed session none false [])

end Overlapping

/-! ## Calls and sessions together -/

/-- A session, its call, and the session with a call of one moment: it goes on as soon as the
call is performed. -/
inductive Joined : Option (Task interface Result) → Bool →
    Standing interface.Action (Answered interface) → Option (Task interface Result) → Prop where
  | apart {rest : Option (Task interface Result)} : Joined rest false .idle rest
  | sent {action : interface.Action} {next : interface.Outcome action → Task interface Result} :
      Joined (some (.act action next)) true (.waiting action) (some (.act action next))
  | performed {action : interface.Action} {next : interface.Outcome action → Task interface Result}
      {outcome : interface.Outcome action} :
      Joined (some (.act action next)) true (.served ⟨action, outcome⟩) (some (next outcome))

theorem Joined.of_rest {rest other : Option (Task interface Result)} {calling : Bool}
    {standing : Standing interface.Action (Answered interface)}
    (joined : Joined rest calling standing other)
    (acts : ∀ action next, rest ≠ some (.act action next)) :
    calling = false ∧ standing = .idle ∧ other = rest := by
  cases joined with
  | apart => exact ⟨rfl, rfl, rfl⟩
  | sent => exact absurd rfl (acts _ _)
  | performed => exact absurd rfl (acts _ _)

/-- Sessions whose calls take time, their calls at one moment each, and the sessions that make
such calls. -/
structure Merged (state : Overlapping interface Session Result)
    (calls : Atomic interface Session interface.Action (Answered interface) Shared)
    (other : Concurrent interface Session Result Shared) : Prop where
  shared : other.shared = calls.shared
  notes : other.notes = state.notes
  joined : ∀ session, Joined (state.rest session) (state.calling session) (calls.standing session)
    (other.rest session)

variable {program : Request → Task interface Result}
  {performs : Shared → (action : interface.Action) → interface.Outcome action → Shared → Prop}
  {state : Overlapping interface Session Result}
  {calls : Atomic interface Session interface.Action (Answered interface) Shared}
  {other : Concurrent interface Session Result Shared}

theorem Merged.proceed (merged : Merged state calls other) (session : Session)
    {rest otherRest : Option (Task interface Result)} {calling : Bool}
    {standing : Standing interface.Action (Answered interface)} (shared : Shared)
    (notes : List interface.Note) (joined : Joined rest calling standing otherRest) :
    Merged (state.proceed session rest calling notes) (calls.proceed session standing shared [])
      (other.proceed session otherRest shared notes) where
  shared := rfl
  notes := congrArg (· ++ _) merged.notes
  joined another := by
    dsimp only [Overlapping.proceed, Concurrent.proceed, Atomic.proceed]
    by_cases same : another = session
    · subst same
      rw [Function.update_self, Function.update_self, Function.update_self, Function.update_self]
      exact joined
    · rw [Function.update_of_ne same, Function.update_of_ne same, Function.update_of_ne same,
        Function.update_of_ne same]
      exact merged.joined another

theorem Merged.proceed_apart (merged : Merged state calls other) {session : Session}
    {rest : Option (Task interface Result)} (running : state.rest session = rest)
    (acts : ∀ action next, rest ≠ some (.act action next)) :
    other.rest session = rest ∧ ∀ next notes,
      Merged (state.proceed session next false notes) calls
        (other.proceed session next other.shared notes) := by
  have joined := merged.joined session
  rw [running] at joined
  obtain ⟨_, idle, same⟩ := joined.of_rest acts
  refine ⟨same, fun next notes => ?_⟩
  have apart : Joined next false (.idle : Standing interface.Action (Answered interface)) next :=
    .apart
  have proceeds := merged.proceed session calls.shared notes apart
  rw [← idle, Atomic.proceed_self, ← merged.shared] at proceeds
  exact proceeds

theorem Merged.step
    (performs : Shared → (action : interface.Action) → interface.Outcome action → Shared → Prop)
    (merged : Merged state calls other)
    {occurrence : Occurrence interface Session Request Result}
    {next : Overlapping interface Session Result}
    (step : Overlapping.Step program state occurrence next) (apart : occurrence.call? = none) :
    ∃ event otherNext, Concurrent.Step program performs other event otherNext ∧
      event = occurrence.event? ∧ Merged next calls otherNext := by
  cases step with
  | receive request free =>
      obtain ⟨same, proceeds⟩ := merged.proceed_apart free nofun
      exact ⟨_, _, .receive request same, rfl, proceeds _ _⟩
  | ask answer running =>
      obtain ⟨same, proceeds⟩ := merged.proceed_apart running nofun
      exact ⟨_, _, .ask answer same, rfl, proceeds _ _⟩
  | send running waits => cases apart
  | answer outcome running waits => cases apart
  | note running =>
      obtain ⟨same, proceeds⟩ := merged.proceed_apart running nofun
      exact ⟨_, _, .note same, rfl, proceeds _ _⟩
  | reply running =>
      obtain ⟨same, proceeds⟩ := merged.proceed_apart running nofun
      exact ⟨_, _, .reply same, rfl, proceeds _ _⟩

/-- A session with a call of one moment stands still while the call is sent or answered. -/
theorem Merged.call (merged : Merged state calls other)
    {event : Event Session interface.Action (Answered interface)}
    {next : Overlapping interface Session Result}
    {moment : Moment Session interface.Action (Answered interface)}
    {after : Atomic interface Session interface.Action (Answered interface) Shared}
    (step : Overlapping.Step program state (.call event) next)
    (called : Atomic.Step (Performed performs) calls moment after)
    (same : moment.event = some event) : Merged next after other := by
  have stays (session : Session) {rest : Option (Task interface Result)} {calling : Bool}
      {standing : Standing interface.Action (Answered interface)}
      (joined : Joined rest calling standing (other.rest session)) :
      Merged (state.proceed session rest calling [])
        (calls.proceed session standing calls.shared []) other := by
    have proceeds := merged.proceed session calls.shared [] joined
    rwa [← merged.shared, Concurrent.proceed_self, merged.shared] at proceeds
  cases step with
  | @send session action next running waits =>
      cases called with
      | receive request idle =>
          cases same
          have joined := merged.joined session
          rw [running, waits, idle] at joined
          apply stays
          generalize other.rest session = otherRest at joined
          cases joined
          exact .sent
      | serve => cases same
      | reply => cases same
  | @answer session action next outcome running waits =>
      cases called with
      | receive => cases same
      | serve => cases same
      | reply served =>
          cases same
          have joined := merged.joined session
          rw [running, waits, served] at joined
          apply stays
          generalize other.rest session = otherRest at joined
          cases joined
          exact .apart

/-- A session with a call of one moment goes on when the call is performed. -/
theorem Merged.perform (program : Request → Task interface Result)
    (merged : Merged state calls other)
    {moment : Moment Session interface.Action (Answered interface)}
    {after : Atomic interface Session interface.Action (Answered interface) Shared}
    (called : Atomic.Step (Performed performs) calls moment after)
    (unseen : moment.event = none) :
    ∃ otherNext, Concurrent.Step program performs other none otherNext ∧
      Merged state after otherNext := by
  cases called with
  | receive => cases unseen
  | reply => cases unseen
  | @serve session action answered notes shared waiting performed =>
      cases performed with
      | once performed =>
          rename_i outcome
          have joined := merged.joined session
          rw [waiting] at joined
          have acts : ∃ next, state.rest session = some (.act action next) ∧
              state.calling session = true ∧ other.rest session = some (.act action next) := by
            generalize state.rest session = rest, state.calling session = calling,
              other.rest session = otherRest at joined
            cases joined
            exact ⟨_, rfl, rfl, rfl⟩
          obtain ⟨next, running, waits, otherRunning⟩ := acts
          have proceeds := merged.proceed session shared []
            (.performed : Joined (some (.act action next)) true _ (some (next outcome)))
          rw [← running, ← waits, Overlapping.proceed_self] at proceeds
          rw [← merged.shared] at performed
          exact ⟨_, .act otherRunning performed, proceeds⟩

theorem Merged.performEach (program : Request → Task interface Result)
    (merged : Merged state calls other)
    {moments : List (Moment Session interface.Action (Answered interface))}
    {after : Atomic interface Session interface.Action (Answered interface) Shared}
    (called : Run (Atomic.Step (Performed performs)) calls moments after)
    (unseen : moments.filterMap Moment.event = []) :
    ∃ events otherNext, Run (Concurrent.Step program performs) other events otherNext ∧
      events.reduceOption = [] ∧ Merged state after otherNext := by
  induction called generalizing other with
  | done => exact ⟨[], other, .done other, rfl, merged⟩
  | @next _ _ _ moment moments first _ inductionHypothesis =>
      rw [List.filterMap_cons] at unseen
      cases shows : moment.event with
      | some event =>
          rw [shows] at unseen
          cases unseen
      | none =>
          rw [shows] at unseen
          obtain ⟨_, step, merged⟩ := merged.perform program first shows
          obtain ⟨events, last, run, silent, merged⟩ := inductionHypothesis merged unseen
          exact ⟨none :: events, last, .next step run, silent, merged⟩

/-- Sessions whose calls take time, and the calls at one moment each, are sessions whose calls
are performed at one moment. -/
theorem Merged.run {finish : Overlapping interface Session Result}
    {occurrences : List (Occurrence interface Session Request Result)}
    (run : Run (Overlapping.Step program) state occurrences finish)
    {moments : List (Moment Session interface.Action (Answered interface))}
    {after : Atomic interface Session interface.Action (Answered interface) Shared}
    (called : Run (Atomic.Step (Performed performs)) calls moments after)
    (same : moments.filterMap Moment.event = occurrences.filterMap Occurrence.call?)
    (merged : Merged state calls other) :
    ∃ events otherFinish, Run (Concurrent.Step program performs) other events otherFinish ∧
      events.reduceOption = occurrences.filterMap Occurrence.event? ∧
      Merged finish after otherFinish := by
  induction run generalizing calls moments other with
  | done => exact merged.performEach program called same
  | @next _ _ _ occurrence occurrences first _ inductionHypothesis =>
      cases occurrence with
      | call event =>
          obtain ⟨before, moment, later, _, _, rfl, early, unseen, called, shows, late, same⟩ :=
            called.split_shown same
          obtain ⟨_, _, run, silent, merged⟩ := merged.performEach program early unseen
          obtain ⟨_, last, rest, shown, merged⟩ :=
            inductionHypothesis late same (merged.call first called shows)
          refine ⟨_, last, run.append rest, ?_, merged⟩
          rw [List.reduceOption_append, silent, shown]
          rfl
      | shown event =>
          obtain ⟨_, _, step, rfl, merged⟩ := merged.step performs first rfl
          obtain ⟨_, last, rest, shown, merged⟩ := inductionHypothesis called same merged
          exact ⟨_, last, .next step rest, congrArg (event :: ·) shown, merged⟩
      | hidden =>
          obtain ⟨_, _, step, rfl, merged⟩ := merged.step performs first rfl
          obtain ⟨_, last, rest, shown, merged⟩ := inductionHypothesis called same merged
          exact ⟨_, last, .next step rest, shown, merged⟩

/-- If the calls of sessions are answered as if each was performed at one moment, then the
requests are answered as if each was served at one moment. -/
theorem linearizes_of_calls (orderly : ∀ request, (program request).IsOrderly)
    {start finish : Overlapping interface Session Result}
    {occurrences : List (Occurrence interface Session Request Result)}
    (run : Run (Overlapping.Step program) start occurrences finish)
    (free : ∀ session, start.rest session = none ∧ start.calling session = false) {shared : Shared}
    {calls : List (Moment Session interface.Action (Answered interface))}
    {called : Atomic interface Session interface.Action (Answered interface) Shared}
    (performed : Run (Atomic.Step (Performed performs))
      { standing := fun _ => .idle, shared, notes := [] } calls called)
    (same : calls.filterMap Moment.event = occurrences.filterMap Occurrence.call?) :
    ∃ moments after,
      Run (Atomic.Step fun request => (program request).Serves performs)
        { standing := fun _ => .idle, shared, notes := start.notes } moments after ∧
        moments.filterMap Moment.event = occurrences.filterMap Occurrence.event? ∧
        after.shared = called.shared ∧
        ∀ session, finish.rest session = none → after.standing session = .idle ∧
          notesOf session finish.notes = notesOf session after.notes := by
  have initially : Merged start
      { standing := fun _ => .idle, shared, notes := [] }
      { rest := fun _ => none, shared, notes := start.notes } := by
    refine ⟨rfl, rfl, fun session => ?_⟩
    rw [(free session).1, (free session).2]
    exact .apart
  obtain ⟨events, last, concurrent, shown, merged⟩ := Merged.run run performed same initially
  obtain ⟨moments, after, atomic, seen, final, idle⟩ :=
    linearizes orderly concurrent fun _ => rfl
  refine ⟨moments, after, atomic, seen.trans shown, final.trans merged.shared, ?_⟩
  intro session ended
  rw [← merged.notes]
  refine idle session ?_
  have joined := merged.joined session
  rw [ended] at joined
  exact (joined.of_rest nofun).2.2

end Mongres.Linearization
