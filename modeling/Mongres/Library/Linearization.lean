import Mongres.Library.Labelled
import Mongres.Library.Task

/-!
# Linearization

Sessions that serve their requests at the same time, each by a task that takes its steps between
those of the others.  If every task acts at most once, nobody can tell them from sessions that
serve each request at one moment between its arrival and its reply.
-/

namespace Mongres.Linearization

open Labelled

variable {interface : Interface} {Session Request Result Shared : Type}

inductive Event (Session Request Result : Type) where
  | received (session : Session) (request : Request)
  | replied (session : Session) (result : Result)

/-- Sessions with what is left of their requests, and the notes that they have made. -/
structure Concurrent (interface : Interface) (Session Result Shared : Type) where
  rest : Session → Option (Task interface Result)
  shared : Shared
  notes : List (Session × interface.Note)

inductive Standing (Request Result : Type) where
  | idle
  | waiting (request : Request)
  | served (result : Result)

/-- Sessions whose requests are served at one moment. -/
structure Atomic (interface : Interface) (Session Request Result Shared : Type) where
  standing : Session → Standing Request Result
  shared : Shared
  notes : List (Session × interface.Note)

inductive Moment (Session Request Result : Type) where
  | received (session : Session) (request : Request)
  | served (session : Session) (request : Request) (result : Result)
  | replied (session : Session) (result : Result)

def Moment.event : Moment Session Request Result → Option (Event Session Request Result)
  | received session request => some (.received session request)
  | served _ _ _ => none
  | replied session result => some (.replied session result)

def Moment.service : Moment Session Request Result → Option (Session × Request × Result)
  | served session request result => some (session, request, result)
  | received _ _ | replied _ _ => none

variable [DecidableEq Session]

def notesOf (session : Session) (notes : List (Session × interface.Note)) : List interface.Note :=
  (notes.filter fun entry => entry.1 = session).map Prod.snd

theorem notesOf_append_own (session : Session) (notes : List (Session × interface.Note))
    (more : List interface.Note) :
    notesOf session (notes ++ more.map (session, ·)) = notesOf session notes ++ more := by
  simp [notesOf, List.filter_map, Function.comp_def]

theorem notesOf_append_other {session other : Session} (distinct : other ≠ session)
    (notes : List (Session × interface.Note)) (more : List interface.Note) :
    notesOf session (notes ++ more.map (other, ·)) = notesOf session notes := by
  simp [notesOf, List.filter_map, Function.comp_def, distinct]

namespace Concurrent

def proceed (state : Concurrent interface Session Result Shared) (session : Session)
    (rest : Option (Task interface Result)) (shared : Shared) (notes : List interface.Note) :
    Concurrent interface Session Result Shared where
  rest := Function.update state.rest session rest
  shared
  notes := state.notes ++ notes.map (session, ·)

variable (program : Request → Task interface Result)
  (performs : Shared → (action : interface.Action) → interface.Outcome action → Shared → Prop)

inductive Step : Concurrent interface Session Result Shared →
    Option (Event Session Request Result) → Concurrent interface Session Result Shared → Prop where
  | receive {state : Concurrent interface Session Result Shared} {session : Session}
      (request : Request) : state.rest session = none →
      Step state (some (.received session request))
        (state.proceed session (some (program request)) state.shared [])
  | ask {state : Concurrent interface Session Result Shared} {session : Session}
      {question : interface.Question} {next : interface.Answer → Task interface Result}
      (answer : interface.Answer) : state.rest session = some (.ask question next) →
      Step state none (state.proceed session (some (next answer)) state.shared [])
  | act {state : Concurrent interface Session Result Shared} {session : Session}
      {action : interface.Action} {next : interface.Outcome action → Task interface Result}
      {outcome : interface.Outcome action} {after : Shared} :
      state.rest session = some (.act action next) →
      performs state.shared action outcome after →
      Step state none (state.proceed session (some (next outcome)) after [])
  | note {state : Concurrent interface Session Result Shared} {session : Session}
      {entry : interface.Note} {next : Task interface Result} :
      state.rest session = some (.note entry next) →
      Step state none (state.proceed session (some next) state.shared [entry])
  | reply {state : Concurrent interface Session Result Shared} {session : Session}
      {result : Result} : state.rest session = some (.done result) →
      Step state (some (.replied session result)) (state.proceed session none state.shared [])

end Concurrent

namespace Atomic

def proceed (state : Atomic interface Session Request Result Shared) (session : Session)
    (standing : Standing Request Result) (shared : Shared) (notes : List interface.Note) :
    Atomic interface Session Request Result Shared where
  standing := Function.update state.standing session standing
  shared
  notes := state.notes ++ notes.map (session, ·)

variable (serves : Request → Shared → Result → List interface.Note → Shared → Prop)

inductive Step : Atomic interface Session Request Result Shared → Moment Session Request Result →
    Atomic interface Session Request Result Shared → Prop where
  | receive {state : Atomic interface Session Request Result Shared} {session : Session}
      (request : Request) : state.standing session = .idle →
      Step state (.received session request)
        (state.proceed session (.waiting request) state.shared [])
  | serve {state : Atomic interface Session Request Result Shared} {session : Session}
      {request : Request} {result : Result} {notes : List interface.Note} {after : Shared} :
      state.standing session = .waiting request →
      serves request state.shared result notes after →
      Step state (.served session request result)
        (state.proceed session (.served result) after notes)
  | reply {state : Atomic interface Session Request Result Shared} {session : Session}
      {result : Result} : state.standing session = .served result →
      Step state (.replied session result) (state.proceed session .idle state.shared [])

end Atomic

/-! ## The simulation -/

/-- A session and its atomic counterpart, each with its notes.  Until a task has acted, the
counterpart waits; afterwards it has been served, and has made all the notes. -/
inductive Agrees (program : Request → Task interface Result) (notes : List interface.Note) :
    Option (Task interface Result) → Standing Request Result → List interface.Note → Prop where
  | idle {otherNotes : List interface.Note} : notes = otherNotes →
      Agrees program notes none .idle otherNotes
  | waiting {request : Request} {rest : Task interface Result}
      {otherNotes early : List interface.Note} : (program request).Reaches early rest →
      notes = otherNotes ++ early → Agrees program notes (some rest) (.waiting request) otherNotes
  | served {rest : Task interface Result} {result : Result} {otherNotes due : List interface.Note} :
      rest.Settles result due → otherNotes = notes ++ due →
      Agrees program notes (some rest) (.served result) otherNotes

structure Related (program : Request → Task interface Result)
    (state : Concurrent interface Session Result Shared)
    (other : Atomic interface Session Request Result Shared) : Prop where
  shared : state.shared = other.shared
  agrees : ∀ session, Agrees program (notesOf session state.notes) (state.rest session)
    (other.standing session) (notesOf session other.notes)

variable {program : Request → Task interface Result}
  {performs : Shared → (action : interface.Action) → interface.Outcome action → Shared → Prop}
  {state : Concurrent interface Session Result Shared}
  {other : Atomic interface Session Request Result Shared}

theorem Related.proceed (related : Related program state other) {session : Session}
    {rest : Option (Task interface Result)} {standing : Standing Request Result} (shared : Shared)
    {notes otherNotes : List interface.Note}
    (agrees : Agrees program (notesOf session state.notes ++ notes) rest standing
      (notesOf session other.notes ++ otherNotes)) :
    Related program (state.proceed session rest shared notes)
      (other.proceed session standing shared otherNotes) where
  shared := rfl
  agrees another := by
    dsimp only [Concurrent.proceed, Atomic.proceed]
    by_cases same : another = session
    · subst same
      rw [Function.update_self, Function.update_self, notesOf_append_own, notesOf_append_own]
      exact agrees
    · rw [Function.update_of_ne same, Function.update_of_ne same,
        notesOf_append_other (Ne.symm same), notesOf_append_other (Ne.symm same)]
      exact related.agrees another

theorem Concurrent.proceed_self (session : Session) :
    state.proceed session (state.rest session) state.shared [] = state := by
  unfold Concurrent.proceed
  rw [Function.update_eq_self, List.map_nil, List.append_nil]

theorem Atomic.proceed_self (session : Session) :
    other.proceed session (other.standing session) other.shared [] = other := by
  unfold Atomic.proceed
  rw [Function.update_eq_self, List.map_nil, List.append_nil]

theorem Related.proceed_alone (related : Related program state other) {session : Session}
    {rest : Option (Task interface Result)} {notes : List interface.Note}
    (agrees : Agrees program (notesOf session state.notes ++ notes) rest (other.standing session)
      (notesOf session other.notes)) :
    Related program (state.proceed session rest state.shared notes) other := by
  rw [← List.append_nil (notesOf session other.notes)] at agrees
  have proceeds := related.proceed other.shared agrees
  rw [Atomic.proceed_self, ← related.shared] at proceeds
  exact proceeds

theorem Related.proceed_other (related : Related program state other) {session : Session}
    {standing : Standing Request Result} {notes : List interface.Note}
    (agrees : Agrees program (notesOf session state.notes) (state.rest session) standing
      (notesOf session other.notes ++ notes)) :
    Related program state (other.proceed session standing other.shared notes) := by
  rw [← List.append_nil (notesOf session state.notes)] at agrees
  have proceeds := related.proceed other.shared agrees
  rw [← related.shared, Concurrent.proceed_self] at proceeds
  rw [← related.shared]
  exact proceeds

theorem Related.free (related : Related program state other) {session : Session}
    (free : state.rest session = none) :
    other.standing session = .idle ∧ notesOf session state.notes = notesOf session other.notes := by
  have agrees := related.agrees session
  rw [free] at agrees
  generalize other.standing session = standing at agrees ⊢
  cases agrees with
  | idle same => exact ⟨rfl, same⟩

theorem Related.running (related : Related program state other) {session : Session}
    {rest : Task interface Result} (running : state.rest session = some rest) :
    (∃ request early, other.standing session = .waiting request ∧
        (program request).Reaches early rest ∧
        notesOf session state.notes = notesOf session other.notes ++ early) ∨
      ∃ result due, other.standing session = .served result ∧ rest.Settles result due ∧
        notesOf session other.notes = notesOf session state.notes ++ due := by
  have agrees := related.agrees session
  rw [running] at agrees
  generalize other.standing session = standing at agrees ⊢
  cases agrees with
  | waiting reaches same => exact .inl ⟨_, _, rfl, reaches, same⟩
  | served settles same => exact .inr ⟨_, _, rfl, settles, same⟩

theorem Related.reply (related : Related program state other) {session : Session}
    {result : Result} (running : state.rest session = some (.done result))
    (served : other.standing session = .served result) :
    Related program (state.proceed session none state.shared [])
      (other.proceed session .idle other.shared []) := by
  rw [related.shared]
  apply related.proceed
  rcases related.running running with ⟨_, _, waiting, _⟩ | ⟨_, _, _, settles, same⟩
  · cases served.symm.trans waiting
  · cases settles
    exact .idle (congrArg (· ++ []) (same.trans (List.append_nil _)).symm)

/-- The atomic counterpart serves a request when its task acts, or replies without having
acted. -/
theorem Related.step (orderly : ∀ request, (program request).IsOrderly)
    (related : Related program state other) {event : Option (Event Session Request Result)}
    {next : Concurrent interface Session Result Shared}
    (step : Concurrent.Step program performs state event next) :
    ∃ moments after,
      Run (Atomic.Step fun request => (program request).Serves performs) other moments after ∧
        moments.filterMap Moment.event = event.toList ∧ Related program next after := by
  cases step with
  | @receive session request free =>
      obtain ⟨idle, same⟩ := related.free free
      refine ⟨_, _, .next (.receive request idle) (.done _), rfl, ?_⟩
      rw [related.shared]
      apply related.proceed
      rw [same]
      exact .waiting .start (List.append_nil _).symm
  | @ask session question next answer running =>
      refine ⟨[], other, .done other, rfl, related.proceed_alone ?_⟩
      rcases related.running running with ⟨request, early, waiting, reaches, same⟩ |
        ⟨result, due, _, settles, _⟩
      · rw [List.append_nil, waiting]
        exact .waiting (reaches.ask answer) same
      · cases settles
  | @act session action next outcome shared running performed =>
      rcases related.running running with ⟨request, early, waiting, reaches, same⟩ |
        ⟨result, due, _, settles, _⟩
      · obtain ⟨result, due, settles⟩ := (reaches.isOrderly (orderly request)).settles outcome
        rw [related.shared] at performed
        have serves := reaches.serves (.act performed (settles.serves shared))
        refine ⟨_, _, .next (.serve waiting serves) (.done _), rfl, related.proceed shared ?_⟩
        rw [List.append_nil, ← List.append_assoc, ← same]
        exact .served settles rfl
      · cases settles
  | @note session entry next running =>
      refine ⟨[], other, .done other, rfl, related.proceed_alone ?_⟩
      rcases related.running running with ⟨request, early, waiting, reaches, same⟩ |
        ⟨result, due, served, settles, same⟩
      · rw [waiting, same, List.append_assoc]
        exact .waiting reaches.note rfl
      · cases settles with
        | note _ settles =>
            rw [served, same]
            exact .served settles (List.append_cons _ _ _)
  | @reply session result running =>
      rcases related.running running with ⟨request, early, waiting, reaches, same⟩ |
        ⟨result, due, served, settles, same⟩
      · have serves := reaches.serves (@Task.Serves.done _ _ _ performs result other.shared)
        rw [List.append_nil] at serves
        have committed : Related program state
            (other.proceed session (.served result) other.shared early) := by
          apply related.proceed_other
          rw [running, ← same]
          exact .served (.done result) (List.append_nil _).symm
        have served : (other.proceed session (.served result) other.shared early).standing session =
            .served result := Function.update_self _ _ _
        exact ⟨_, _, .next (.serve waiting serves) (.next (.reply served) (.done _)), rfl,
          committed.reply running served⟩
      · cases settles
        exact ⟨_, _, .next (.reply served) (.done _), rfl, related.reply running served⟩

/-- Sessions whose tasks act at most once show what sessions show that serve each request at one
moment.  The shared data is the same, and a session without a request has made the same notes. -/
theorem linearizes (orderly : ∀ request, (program request).IsOrderly)
    {start finish : Concurrent interface Session Result Shared}
    {events : List (Option (Event Session Request Result))}
    (run : Run (Concurrent.Step program performs) start events finish)
    (free : ∀ session, start.rest session = none) :
    ∃ moments after,
      Run (Atomic.Step fun request => (program request).Serves performs)
        { standing := fun _ => .idle, shared := start.shared, notes := start.notes }
        moments after ∧
        moments.filterMap Moment.event = events.reduceOption ∧ after.shared = finish.shared ∧
        ∀ session, finish.rest session = none → after.standing session = .idle ∧
          notesOf session finish.notes = notesOf session after.notes := by
  have initially : Related program start
      { standing := fun _ => .idle, shared := start.shared, notes := start.notes } :=
    ⟨rfl, fun session => by
      rw [free session]
      exact .idle rfl⟩
  obtain ⟨moments, after, atomic, same, related⟩ := run.simulates_shown
    (fun _ _ _ _ related step => related.step orderly step) initially
  exact ⟨moments, after, atomic, same, related.shared.symm, fun session => related.free⟩

/-! ## The services in their order -/

def Service (serves : Request → Shared → Result → List interface.Note → Shared → Prop)
    (state : Shared × List (Session × interface.Note)) (service : Session × Request × Result)
    (next : Shared × List (Session × interface.Note)) : Prop :=
  ∃ notes, serves service.2.1 state.1 service.2.2 notes next.1 ∧
    next.2 = state.2 ++ notes.map (service.1, ·)

theorem services_of_moments
    {serves : Request → Shared → Result → List interface.Note → Shared → Prop}
    {start finish : Atomic interface Session Request Result Shared}
    {moments : List (Moment Session Request Result)}
    (run : Run (Atomic.Step serves) start moments finish) :
    Run (Service serves) (start.shared, start.notes) (moments.filterMap Moment.service)
      (finish.shared, finish.notes) := by
  apply run.shown (fun state => (state.shared, state.notes))
  · intro state moment next service shows step
    cases step with
    | receive | reply => cases shows
    | serve _ serves =>
        cases shows
        exact ⟨_, serves, rfl⟩
  · intro state moment next shows step
    cases step with
    | receive | reply => simp [Atomic.proceed]
    | serve => cases shows

end Mongres.Linearization
