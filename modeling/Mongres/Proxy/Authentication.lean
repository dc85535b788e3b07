import Mathlib
import Mongres.Common
import Mongres.Library.Fallible
import Mongres.Library.Text

/-!
# Startup authentication

The credential check is spread over the messages of a connection: a startup message
saves its parameters, and a later password message is compared with the saved user.
-/

namespace Mongres

open Fallible
open Std (TreeMap)

inductive ProxyAuthConfig where
  | trust
  | cleartextPassword (username password : String)
  deriving DecidableEq

def requiredSetting (name : String) (value : Option String) : Result String :=
  okOr (value.filter fun value => !value.isEmpty)
    (invalidInput s!"{name} is required when PROXY_AUTH_MODE=cleartext")

/-- Reads the authentication settings; cleartext authentication needs both credentials. -/
def ProxyAuthConfig.parse (mode : String) (username password : Option String) :
    Result ProxyAuthConfig :=
  let mode := Text.asciiLowercase mode
  if mode = "trust" then .ok .trust
  else if mode = "cleartext" then do
    let username ← requiredSetting "PROXY_AUTH_USER" username
    let password ← requiredSetting "PROXY_AUTH_PASSWORD" password
    .ok (.cleartextPassword username password)
  else .error (invalidInput "PROXY_AUTH_MODE must be 'trust' or 'cleartext'")

/-! ## The connection -/

/-- A message of the client.  A password message comes with what its decoding yields. -/
inductive FrontendMessage where
  | startup (parameters : List (String × String))
  | passwordMessageFamily (intoPassword : Except String String)
  | other

inductive BackendMessage where
  | authenticationCleartextPassword
  | errorResponse (severity code message : String)
  deriving DecidableEq

inductive PgWireConnectionState where
  | awaitingStartup
  | authenticationInProgress
  | readyForQuery
  deriving DecidableEq

/-- What the wire library keeps for a connection, and how often authentication was
finished. -/
structure Client where
  metadata : TreeMap String String := ∅
  state : PgWireConnectionState := .awaitingStartup
  sent : List BackendMessage := []
  closed : Bool := false
  authentications : Nat := 0

/-- How the socket answers while one message is handled. -/
structure Transport where
  send : Except String Unit := .ok ()
  feed : Except String Unit := .ok ()
  close : Except String Unit := .ok ()

namespace Client

/-- Saves startup parameters over those saved before. -/
def saveStartupParametersToMetadata (client : Client) (parameters : List (String × String)) :
    Client :=
  { client with metadata := client.metadata.insertMany parameters }

def setState (client : Client) (state : PgWireConnectionState) : Client := { client with state }

def send (client : Client) (message : BackendMessage) : Client :=
  { client with sent := client.sent ++ [message] }

def close (client : Client) : Client := { client with closed := true }

def finishAuthentication (client : Client) : Client :=
  { client with state := .readyForQuery, authentications := client.authentications + 1 }

end Client

/-! ## The handler -/

def trustStartup (client : Client) : FrontendMessage → Except String Unit × Client
  | .startup parameters =>
      (.ok (), (client.saveStartupParametersToMetadata parameters).finishAuthentication)
  | _ => (.ok (), client)

def passwordAuthenticationFailed : BackendMessage :=
  .errorResponse "FATAL" "28P01" "password authentication failed"

def cleartextStartup (transport : Transport) (client : Client)
    (expectedUsername expectedPassword : String) : FrontendMessage → Except String Unit × Client
  | .startup parameters =>
      let client := client.saveStartupParametersToMetadata parameters
      let client := client.setState .authenticationInProgress
      (transport.send, client.send .authenticationCleartextPassword)
  | .passwordMessageFamily (.error error) => (.error error, client)
  | .passwordMessageFamily (.ok receivedPassword) =>
      let usernameMatches := client.metadata["user"]?.any (· = expectedUsername)
      let passwordMatches := receivedPassword.toByteArray = expectedPassword.toByteArray
      if usernameMatches ∧ passwordMatches then (.ok (), client.finishAuthentication)
      else
        let client := client.send passwordAuthenticationFailed
        match transport.feed with
        | .error error => (.error error, client)
        | .ok () =>
            match transport.close with
            | .error error => (.error error, client)
            | .ok () => (.ok (), client.close)
  | .other => (.ok (), client)

def onStartup (config : ProxyAuthConfig) (transport : Transport) (client : Client)
    (message : FrontendMessage) : Except String Unit × Client :=
  match config with
  | .trust => trustStartup client message
  | .cleartextPassword username password =>
      cleartextStartup transport client username password message

/-! ## Runs of a connection -/

/-- A message of the client, with the behaviour of the socket while it is handled. -/
structure Delivery where
  message : FrontendMessage
  transport : Transport := {}

/-- Hands one message to the handler, unless the connection was closed.  An error is
reported to the client, and the next message is read. -/
def deliver (config : ProxyAuthConfig) (client : Client) (delivery : Delivery) : Client :=
  if client.closed then client
  else (onStartup config delivery.transport client delivery.message).2

def connection (config : ProxyAuthConfig) (deliveries : List Delivery) : Client :=
  deliveries.foldl (deliver config) {}

/-- Authentication is finished while the next message is handled. -/
def Finishes (config : ProxyAuthConfig) (deliveries : List Delivery) (next : Delivery) : Prop :=
  (connection config (deliveries ++ [next])).authentications ≠
    (connection config deliveries).authentications

def savedUser : FrontendMessage → Option String
  | .startup parameters => parameters.reverse.lookup "user"
  | _ => none

def lastSavedUser (deliveries : List Delivery) : Option String :=
  deliveries.foldl (fun saved delivery => (savedUser delivery.message).or saved) none

/-! ## What a run remembers -/

section Run

variable (username password : String)

theorem connection_append (config : ProxyAuthConfig) (deliveries : List Delivery)
    (next : Delivery) :
    connection config (deliveries ++ [next]) = deliver config (connection config deliveries) next :=
  List.foldl_concat _ _ _ _

theorem lastSavedUser_append (deliveries : List Delivery) (next : Delivery) :
    lastSavedUser (deliveries ++ [next]) =
      (savedUser next.message).or (lastSavedUser deliveries) :=
  List.foldl_concat _ _ _ _

theorem getElem?_insertMany_user (metadata : TreeMap String String)
    (parameters : List (String × String)) :
    (metadata.insertMany parameters)["user"]? =
      (parameters.reverse.lookup "user").or metadata["user"]? := by
  rw [TreeMap.getElem?_insertMany_list, List.lookup_eq_findSome?,
    List.findSomeRev?_eq_findSome?_reverse]
  congr
  funext parameter
  simp only [compare_eq_iff_eq, beq_iff_eq, @eq_comm _ parameter.1]

theorem getElem?_metadata_cleartextStartup (transport : Transport) (client : Client)
    (message : FrontendMessage) :
    (cleartextStartup transport client username password message).2.metadata["user"]? =
      (savedUser message).or client.metadata["user"]? := by
  cases message with
  | startup parameters => exact getElem?_insertMany_user client.metadata parameters
  | other => rfl
  | passwordMessageFamily intoPassword =>
      cases intoPassword with
      | error error => rfl
      | ok received =>
          unfold cleartextStartup
          dsimp only
          split_ifs
          · rfl
          · cases transport.feed with
            | error error => rfl
            | ok => cases transport.close <;> rfl

/-- Authentication is finished for the right password of the saved user alone. -/
theorem authentications_cleartextStartup (transport : Transport) (client : Client)
    (message : FrontendMessage) :
    (cleartextStartup transport client username password message).2.authentications ≠
        client.authentications ↔
      message = .passwordMessageFamily (.ok password) ∧
        client.metadata["user"]? = some username := by
  cases message with
  | startup parameters =>
      apply iff_of_false (not_not.mpr rfl)
      rintro ⟨⟨⟩, _⟩
  | other =>
      apply iff_of_false (not_not.mpr rfl)
      rintro ⟨⟨⟩, _⟩
  | passwordMessageFamily intoPassword =>
      cases intoPassword with
      | error error =>
          apply iff_of_false (not_not.mpr rfl)
          rintro ⟨⟨⟩, _⟩
      | ok received =>
          have matched : (client.metadata["user"]?.any (· = username) = true ∧
              received.toByteArray = password.toByteArray) ↔
              FrontendMessage.passwordMessageFamily (.ok received) =
                .passwordMessageFamily (.ok password) ∧
              client.metadata["user"]? = some username := by
            rw [String.toByteArray_inj, and_comm, Option.any_eq_true]
            simp
          unfold cleartextStartup
          dsimp only
          rw [← matched]
          split_ifs with accepted
          · exact iff_of_true (Nat.succ_ne_self _) accepted
          · refine iff_of_false (not_not.mpr ?_) accepted
            cases transport.feed with
            | error error => rfl
            | ok => cases transport.close <;> rfl

/-- An open connection keeps the user that was saved last. -/
theorem getElem?_metadata_connection (deliveries : List Delivery)
    (opened : (connection (.cleartextPassword username password) deliveries).closed = false) :
    (connection (.cleartextPassword username password) deliveries).metadata["user"]? =
      lastSavedUser deliveries := by
  induction deliveries using List.reverseRecOn with
  | nil => rfl
  | append_singleton deliveries next inductionHypothesis =>
      rw [connection_append, deliver] at opened ⊢
      split_ifs at opened ⊢ with closed
      · rw [closed] at opened
        cases opened
      · rw [onStartup, getElem?_metadata_cleartextStartup, lastSavedUser_append,
          inductionHypothesis (Bool.not_eq_true _ ▸ closed)]

/-- In every run, authentication is finished exactly while an open connection
handles the configured password, after the configured user was saved last. -/
theorem finishes_iff (deliveries : List Delivery) (next : Delivery) :
    Finishes (.cleartextPassword username password) deliveries next ↔
      (connection (.cleartextPassword username password) deliveries).closed = false ∧
        next.message = .passwordMessageFamily (.ok password) ∧
        lastSavedUser deliveries = some username := by
  rw [Finishes, connection_append, deliver]
  cases closed : (connection (.cleartextPassword username password) deliveries).closed with
  | true => simp
  | false =>
      rw [← getElem?_metadata_connection username password deliveries closed]
      simp only [Bool.false_eq_true, if_false, onStartup, true_and]
      exact authentications_cleartextStartup username password next.transport _ next.message

end Run

end Mongres
