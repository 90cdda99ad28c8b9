import Mathlib.Data.String.Basic

/-!
# Channel names

`channel/kind.rs`: the kind a channel name announces by its prefixes, and which
names are valid.
-/

namespace Pylon.Channel

/-- `str::strip_prefix`. -/
def stripPre (pre name : String) : Option String :=
  if pre.toList.isPrefixOf name.toList then
    some (String.ofList (name.toList.drop pre.length))
  else none

/-- Reserved namespace for server-to-user messages. -/
def serverToUserPre : String := "#server-to-user-"

inductive AuthKind where
  | pub
  | priv
  | presence
  | privateEncrypted
  deriving DecidableEq, Repr

structure ChannelInfo where
  auth : AuthKind
  cache : Bool
  deriving DecidableEq, Repr

/-- `ChannelInfo::of`. -/
def ChannelInfo.of (name : String) : ChannelInfo :=
  let (auth, rest) :=
    match stripPre "private-encrypted-" name, stripPre "presence-" name,
        stripPre "private-" name with
    | some r, _, _ => (AuthKind.privateEncrypted, r)
    | none, some r, _ => (AuthKind.presence, r)
    | none, none, some r => (AuthKind.priv, r)
    | none, none, none => (AuthKind.pub, name)
  { auth, cache := (stripPre "cache-" rest).isSome }

/-- The characters Pusher allows in a channel name. -/
def channelNameChar (c : Char) : Bool :=
  c.isAlphanum || c ∈ ['_', '-', '=', '@', ',', '.', ';']

def validateChannelName (name : String) (maxLen : Nat) : Bool :=
  name.utf8ByteSize ≠ 0 && decide (name.utf8ByteSize ≤ maxLen) && name.toList.all channelNameChar

end Pylon.Channel
