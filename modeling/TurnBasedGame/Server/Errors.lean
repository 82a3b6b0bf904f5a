import Mathlib.Tactic

/-!
# Server errors

The error values of the server, their texts and status codes, and the JSON
object that is sent to a client whose request failed.
-/

namespace TurnBasedGame
namespace Server

section Errors

/-- The error variables declared by the server. -/
inductive ServerError
  -- packet
  | versionMismatch
  | packetLengthMismatch
  | clientIdGeneration
  -- server
  | noHandlerRegistered
  | serverTimeout
  -- auth
  | invalidAuthPkt
  | invalidAuthId
  | authTimeout
  -- game
  | invalidGameId
  | invalidGameJoinAttempt
  | invalidGameDisconnect
  | clientNotInGame
  | invalidCreateGameAttempt
  | invalidGameState
  -- test
  | invalidHqRes
deriving DecidableEq, Repr

/-- The text an error value was created with. -/
def ServerError.message : ServerError → String
  | .versionMismatch => "Version mismatch error"
  | .packetLengthMismatch => "Packet length mismatch error"
  | .clientIdGeneration => "Error generating random ID for client"
  | .noHandlerRegistered => "No handler registered for current packet type"
  | .serverTimeout =>
      "Error server timed out while attempting to complete request"
  | .invalidAuthPkt => "Invalid authentication packet"
  | .invalidAuthId => "Invalid authentication attempt"
  | .authTimeout => "Authentication attempt timed out"
  | .invalidGameId => "GameID is invalid"
  | .invalidGameJoinAttempt => "Cannot join game while currently in game"
  | .invalidGameDisconnect =>
      "Client attempted to disconnect from game that didn't exist"
  | .clientNotInGame => "Client not registered with game"
  | .invalidCreateGameAttempt => "Cannot create game while currently in game"
  | .invalidGameState => "Client game state is invalid"
  | .invalidHqRes => "Invalid health check response"

/-- Description of an error that is sent to the client. -/
def errorToString : ServerError → String
  | .versionMismatch => "Version mismatch"
  | .packetLengthMismatch => "Packet length mismatch"
  | .clientIdGeneration => "Failed to generate random ID for client"
  | .noHandlerRegistered => "No handler registered for current packet type"
  | .serverTimeout => "Server timed out while attempting to complete request"
  | .invalidAuthPkt => "Invalid authentication packet"
  | .invalidAuthId => "Invalid authentication attempt"
  | .authTimeout => "Authentication attempt timed out"
  | .invalidGameId => "Invalid game ID"
  | .invalidGameJoinAttempt =>
      "Cannot join game while currently in another game"
  | .invalidGameDisconnect =>
      "Attempted to disconnect from a game that doesn't exist"
  | .clientNotInGame => "Client is not registered with any game"
  | .invalidCreateGameAttempt =>
      "Cannot create a new game while already in one"
  | .invalidGameState => "Client's game state is invalid"
  | .invalidHqRes => "Invalid health check response"

/-- Status code of an error that is sent to the client. -/
def errorToStatusCode : ServerError → Nat
  | .versionMismatch => 400
  | .packetLengthMismatch => 400
  | .clientIdGeneration => 500
  | .noHandlerRegistered => 404
  | .serverTimeout => 504
  | .invalidAuthPkt => 401
  | .invalidAuthId => 403
  | .authTimeout => 408
  | .invalidGameId => 400
  | .invalidGameJoinAttempt => 403
  | .invalidGameDisconnect => 400
  | .clientNotInGame => 403
  | .invalidCreateGameAttempt => 403
  | .invalidGameState => 400
  | .invalidHqRes => 500

/-- Bytes of a text in UTF-8. -/
def textBytes (s : String) : List UInt8 :=
  s.toUTF8.toList

/-- Decimal rendering of a number, as bytes. -/
def decimalBytes (n : Nat) : List UInt8 :=
  (Nat.toDigits 10 n).map (fun c => UInt8.ofNat c.toNat)

/--
A JSON string.  None of the texts above contains a character that JSON
escapes, so the text stands between the quotes as it is.
-/
def jsonString (s : String) : List UInt8 :=
  textBytes "\"" ++ textBytes s ++ textBytes "\""

/-- The JSON object describing an error. -/
def constructErrorData (err : ServerError) : List UInt8 :=
  textBytes "\x7b\"code\":" ++ decimalBytes (errorToStatusCode err) ++
    textBytes ",\"error\":" ++ jsonString (errorToString err) ++
    textBytes ",\"message\":" ++ jsonString err.message ++
    textBytes "\x7d"

/-- Characters that a JSON encoder writes as an escape sequence. -/
def jsonEscaped (c : Char) : Bool :=
  c = '"' || c = '\\' || c = '<' || c = '>' || c = '&' ||
    c.toNat < 32 || 127 ≤ c.toNat

/-- No text of an error needs escaping in JSON. -/
theorem errorTexts_plain
    (err : ServerError) :
    (errorToString err).toList.all (fun c => !jsonEscaped c) = true ∧
      err.message.toList.all (fun c => !jsonEscaped c) = true := by
  cases err <;> decide +kernel

/-- Every error is reported as a client or a server error, never as success. -/
theorem errorToStatusCode_range
    (err : ServerError) :
    400 ≤ errorToStatusCode err ∧ errorToStatusCode err < 600 := by
  cases err <;> decide

end Errors

end Server
end TurnBasedGame
