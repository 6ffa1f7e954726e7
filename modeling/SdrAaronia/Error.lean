/-! # The crate's errors

The variants the modelled code can return, with the texts it gives them.
-/

namespace SdrAaronia

inductive Error where
  /-- Stream protocol parsing or formatting error. -/
  | protocol (message : String)
  /-- The sample stream ended and will produce no more data. -/
  | streamClosed (message : String)
  /-- RTSA capture file format or parsing error. -/
  | fileFormat (offset : Nat) (reason : String)
  /-- A read deadline passed with nothing to return. -/
  | timedOut (message : String)
  /-- The file ended inside a value. -/
  | unexpectedEof
  /-- A seek to a place no file can have. -/
  | invalidSeek
  /-- Invalid configuration parameters. -/
  | config (message : String)
  /-- Native SDK operation failed with a specific API error code. -/
  | sdkApi (operation : String) (code : Nat)
  /-- Native SDK operation failed. -/
  | sdk (message : String)
  deriving DecidableEq, Repr

end SdrAaronia
