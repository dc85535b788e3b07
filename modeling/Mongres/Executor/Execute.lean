import Mongres.Executor.Documents

/-!
# Deterministic execution

Each statement makes at most one driver call, built only from its typed plan.
-/

namespace Mongres

open Fallible

/-- A call of the database driver, with everything that is sent. -/
inductive DriverCall where
  | find (collection : String) (filter : Document) (projection : Option Document)
      (limit : Option Int64)
  | insertOne (collection : String) (document : Document)
  | insertMany (collection : String) (documents : List Document)
  | updateMany (collection : String) (filter update : Document)
  | deleteMany (collection : String) (filter : Document)

/-- What the driver answers, or its error message. -/
structure Driver where
  find : String → Document → Option Document → Option Int64 → Except String (List Document)
  insertOne : String → Document → Except String Unit
  insertMany : String → List Document → Except String UInt64
  updateMany : String → Document → Document → Except String (UInt64 × UInt64)
  deleteMany : String → Document → Except String UInt64

structure WriteOutcome where
  matched : UInt64 := 0
  modified : UInt64 := 0
  inserted : UInt64 := 0
  deleted : UInt64 := 0
  deriving DecidableEq

def databaseError (error : String) : ProxyError :=
  ⟨.database, s!"MongoDB operation failed: {error}"⟩

def writeError (error : String) : ProxyError :=
  ⟨.database,
    s!"MongoDB write failed and may have partially applied; inspect the database before retrying: {error}"⟩

def answer {α : Type} (describe : String → ProxyError) (calls : List DriverCall) (call : DriverCall)
    (reply : Except String α) : Result α × List DriverCall :=
  (reply.mapError describe, calls ++ [call])

def prepared {α β : Type} (calls : List DriverCall) (attempt : Result α)
    (next : α → Result β × List DriverCall) : Result β × List DriverCall :=
  match attempt with
  | .ok value => next value
  | .error error => (.error error, calls)

theorem answer_eq_ok_iff {α : Type} {describe : String → ProxyError} {calls : List DriverCall}
    {call : DriverCall} {reply : Except String α} {result : α} :
    (answer describe calls call reply).1 = .ok result ↔ reply = .ok result := by
  cases reply <;> simp [answer, Except.mapError]

theorem prepared_eq_ok_iff {α β : Type} {calls : List DriverCall} {attempt : Result α}
    {next : α → Result β × List DriverCall} {result : β} :
    (prepared calls attempt next).1 = .ok result ↔
      ∃ value, attempt = .ok value ∧ (next value).1 = .ok result := by
  cases attempt <;> simp [prepared]

def selectLimit (limit : UInt64) : Result Int64 :=
  if limit.toNat < 2 ^ 63 then .ok (Int64.ofNat limit.toNat)
  else .error (invalidInput "SELECT limit exceeds the MongoDB driver range")

def executeSelect (driver : Driver) (plan : SelectPlan) (calls : List DriverCall) :
    Result (List Document) × List DriverCall :=
  prepared calls (filterDocument plan.filter) fun filter =>
    prepared calls (projectionDocument plan.projection) fun projection =>
      prepared calls (transpose selectLimit plan.limit) fun limit =>
        answer databaseError calls (.find plan.collection filter projection limit)
          (driver.find plan.collection filter projection limit)

theorem executeSelect_eq_ok_iff {driver : Driver} {plan : SelectPlan} {calls : List DriverCall}
    {documents : List Document} :
    (executeSelect driver plan calls).1 = .ok documents ↔
      ∃ filter projection limit, filterDocument plan.filter = .ok filter ∧
        projectionDocument plan.projection = .ok projection ∧
        transpose selectLimit plan.limit = .ok limit ∧
        driver.find plan.collection filter projection limit = .ok documents := by
  simp only [executeSelect, prepared_eq_ok_iff, answer_eq_ok_iff, exists_and_left]

def executeInsert (driver : Driver) (plan : InsertPlan) (calls : List DriverCall) :
    Result WriteOutcome × List DriverCall :=
  prepared calls (collect (buildInsertDocument plan.columns) plan.rows) fun documents =>
    match documents with
    | [] => (.error (invalidInput "INSERT requires at least one row"), calls)
    | [document] =>
        answer writeError calls (.insertOne plan.collection document)
          ((driver.insertOne plan.collection document).map fun () => { inserted := 1 })
    | documents =>
        answer writeError calls (.insertMany plan.collection documents)
          ((driver.insertMany plan.collection documents).map fun inserted => { inserted })

def executeUpdate (driver : Driver) (plan : UpdatePlan) (calls : List DriverCall) :
    Result WriteOutcome × List DriverCall :=
  prepared calls (predicateDocument plan.filter) fun filter =>
    prepared calls (updateDocument plan.assignments) fun update =>
      answer writeError calls (.updateMany plan.collection filter update)
        ((driver.updateMany plan.collection filter update).map fun (matched, modified) =>
          { matched, modified })

def executeDelete (driver : Driver) (plan : DeletePlan) (calls : List DriverCall) :
    Result WriteOutcome × List DriverCall :=
  prepared calls (predicateDocument plan.filter) fun filter =>
    answer writeError calls (.deleteMany plan.collection filter)
      ((driver.deleteMany plan.collection filter).map fun deleted => { deleted })

def executeWrite (driver : Driver) (plan : StatementPlan) (calls : List DriverCall) :
    Result WriteOutcome × List DriverCall :=
  match plan with
  | .insert insert => executeInsert driver insert calls
  | .update update => executeUpdate driver update calls
  | .delete delete => executeDelete driver delete calls
  | .select _ => (.error ⟨.featureNotSupported, "SELECT plans must use the read executor"⟩, calls)

end Mongres
