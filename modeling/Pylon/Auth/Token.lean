import Mathlib.Data.String.Basic
import Pylon.Redis.Scripts

/-!
# Auth tokens

`auth/channel.rs` and `auth/user.rs`: a token is `<app key>:<signature>`, the
signature an HMAC of a message naming the socket. The HMAC is a parameter.
-/

namespace Pylon.Auth

open Pylon.Redis

inductive AuthError where
  | malformed
  | keyMismatch
  | badSignature
  deriving DecidableEq, Repr

def AuthError.message : AuthError → String
  | malformed => "Bad auth token"
  | keyMismatch => "Auth key mismatch"
  | badSignature => "Invalid signature"

/-- `str::split_once(':')`. -/
def splitOnce (token : String) : Option (String × String) :=
  if ':' ∈ token.toList then
    some (String.ofList (token.toList.takeWhile (· ≠ ':')),
      String.ofList ((token.toList.dropWhile (· ≠ ':')).drop 1))
  else none

/-- The message a channel token signs. -/
def channelMessage (socketId : Text) (channel : String) (channelData : Option String) : String :=
  match channelData with
  | some data => String.ofList socketId ++ ":" ++ channel ++ ":" ++ data
  | none => String.ofList socketId ++ ":" ++ channel

/-- The message a sign-in token signs. -/
def userMessage (socketId : Text) (userData : String) : String :=
  String.ofList socketId ++ "::user::" ++ userData

variable (hmac : String → String → String)

/-- Check a token for `message`. -/
def verify (appKey appSecret message token : String) : Except AuthError Unit :=
  match splitOnce token with
  | none => .error .malformed
  | some (key, sig) =>
    if key ≠ appKey then .error .keyMismatch
    else if sig = hmac appSecret message then .ok ()
    else .error .badSignature

/-- An accepted token is the key and the signature of its message. -/
theorem verify_ok_iff {appKey appSecret message token : String} :
    verify hmac appKey appSecret message token = .ok () ↔
      splitOnce token = some (appKey, hmac appSecret message) := by
  rw [verify]
  cases hsplit : splitOnce token with
  | none => simp
  | some parts =>
    obtain ⟨key, sig⟩ := parts
    by_cases hkey : key = appKey <;> by_cases hsig : sig = hmac appSecret message <;>
      simp [hkey, hsig]

/-- `auth::channel::verify`. -/
def verifyChannel (appKey appSecret : String) (socketId : Text) (channel : String)
    (channelData : Option String) (token : String) : Except AuthError Unit :=
  verify hmac appKey appSecret (channelMessage socketId channel channelData) token

/-- `auth::user::verify`. -/
def verifyUser (appKey appSecret : String) (socketId : Text) (userData token : String) :
    Except AuthError Unit :=
  verify hmac appKey appSecret (userMessage socketId userData) token

end Pylon.Auth
