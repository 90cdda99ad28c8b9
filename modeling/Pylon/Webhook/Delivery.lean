import Pylon.Ws.Context

/-!
# Signed webhook deliveries

The webhook triggers as JSON objects (`webhook/event.rs`) and the envelope that
is signed and posted (`sort_keys` and `build_signed_delivery` of
`webhook/transport.rs`). Objects keep their fields in insertion order, and numbers
the text they are written as.
-/

namespace Pylon.Webhook

/-! ## JSON -/

inductive Json where
  | null
  | bool (b : Bool)
  | num (text : String)
  | str (s : String)
  | arr (items : List Json)
  | obj (fields : List (String × Json))

namespace Json

mutual

/-- `sort_keys`: object keys sorted at every depth. -/
def sortKeys : Json → Json
  | null => null
  | bool b => bool b
  | num text => num text
  | str s => str s
  | arr items => arr (sortItems items)
  | obj fields => obj ((sortFields fields).mergeSort fun a b => decide (a.1 ≤ b.1))

def sortItems : List Json → List Json
  | [] => []
  | item :: items => item.sortKeys :: sortItems items

def sortFields : List (String × Json) → List (String × Json)
  | [] => []
  | (key, value) :: fields => (key, value.sortKeys) :: sortFields fields

end

def hexDigit (n : Nat) : Char := Char.ofNat (if n < 10 then 48 + n else 87 + n)

/-- One character inside a string literal. -/
def escape (c : Char) : List Char :=
  if c = '"' then ['\\', '"']
  else if c = '\\' then ['\\', '\\']
  else if c = '\n' then ['\\', 'n']
  else if c = '\r' then ['\\', 'r']
  else if c = '\t' then ['\\', 't']
  else if c = '\x08' then ['\\', 'b']
  else if c = '\x0c' then ['\\', 'f']
  else if c.toNat < 32 then ['\\', 'u', '0', '0', hexDigit (c.toNat / 16), hexDigit (c.toNat % 16)]
  else [c]

/-- A string literal. -/
def quote (s : String) : List Char := '"' :: (s.toList.flatMap escape ++ ['"'])

mutual

/-- `serde_json::to_string`. -/
def text : Json → List Char
  | null => ['n', 'u', 'l', 'l']
  | bool b => if b then ['t', 'r', 'u', 'e'] else ['f', 'a', 'l', 's', 'e']
  | num text => text.toList
  | str s => quote s
  | arr items => '[' :: ([','].intercalate (textItems items) ++ [']'])
  | obj fields => '\x7b' :: ([','].intercalate (textFields fields) ++ ['\x7d'])

def textItems : List Json → List (List Char)
  | [] => []
  | item :: items => item.text :: textItems items

def textFields : List (String × Json) → List (List Char)
  | [] => []
  | (key, value) :: fields => (quote key ++ ':' :: value.text) :: textFields fields

end

end Json

/-! ## Events -/

open Pylon.Redis Pylon.Ws

abbrev Event := WebhookEvent Json

end Pylon.Webhook

namespace Pylon.Ws.WebhookEvent

open Pylon.Webhook

/-- The app a trigger is routed to; it is no part of the posted object. -/
def app : Event → String
  | channelOccupied key | channelVacated key | memberAdded key _ | memberRemoved key _
  | cacheMiss key | clientEvent key _ _ _ _ | subscriptionCount key _ => key.1

/-- The `name` of the posted object, also the `event_types` key. -/
def name : Event → String
  | channelOccupied _ => "channel_occupied"
  | channelVacated _ => "channel_vacated"
  | memberAdded _ _ => "member_added"
  | memberRemoved _ _ => "member_removed"
  | cacheMiss _ => "cache_miss"
  | clientEvent _ _ _ _ _ => "client_event"
  | subscriptionCount _ _ => "subscription_count"

/-- The JSON object of a trigger. -/
def toJson : Event → Json
  | channelOccupied key => .obj [("name", .str "channel_occupied"), ("channel", .str key.2)]
  | channelVacated key => .obj [("name", .str "channel_vacated"), ("channel", .str key.2)]
  | memberAdded key userId =>
    .obj [("name", .str "member_added"), ("channel", .str key.2), ("user_id", .str userId)]
  | memberRemoved key userId =>
    .obj [("name", .str "member_removed"), ("channel", .str key.2), ("user_id", .str userId)]
  | cacheMiss key => .obj [("name", .str "cache_miss"), ("channel", .str key.2)]
  | clientEvent key event data socketId userId =>
    -- text that is text already is not encoded twice
    let dataText := match data with
      | .str s => s
      | value => String.ofList value.text
    .obj ([("name", .str "client_event"), ("channel", .str key.2), ("event", .str event),
      ("data", .str dataText), ("socket_id", .str (String.ofList socketId))] ++
      userId.toList.map fun uid => ("user_id", .str uid))
  | subscriptionCount key count =>
    .obj [("name", .str "subscription_count"), ("channel", .str key.2),
      ("subscription_count", .num (toString count))]

end Pylon.Ws.WebhookEvent

namespace Pylon.Webhook

/-! ## The envelope -/

/-- A prepared POST. -/
structure WebhookDelivery where
  url : String
  body : String
  headers : Std.TreeMap String String

/-- Sign the envelope of the events; the Pusher headers overwrite custom ones. -/
def buildSignedDelivery (hmac : String → String → String) (url appKey secret : String)
    (timeMs : Nat) (events : List Json) (custom : Std.TreeMap String String) : WebhookDelivery :=
  let envelope := Json.obj [("time_ms", .num (toString timeMs)), ("events", .arr events)]
  let body := String.ofList envelope.sortKeys.text
  { url
    body
    headers := ((custom.insert "Content-Type" "application/json").insert "X-Pusher-Key"
      appKey).insert "X-Pusher-Signature" (hmac secret body) }

theorem buildSignedDelivery_signature (hmac : String → String → String)
    (url appKey secret : String) (timeMs : Nat) (events : List Json)
    (custom : Std.TreeMap String String) :
    let d := buildSignedDelivery hmac url appKey secret timeMs events custom
    d.headers["X-Pusher-Signature"]? = some (hmac secret d.body) := by
  simp [buildSignedDelivery]

theorem buildSignedDelivery_body_head (hmac : String → String → String)
    (url appKey secret : String) (timeMs : Nat) (events : List Json)
    (custom : Std.TreeMap String String) :
    (buildSignedDelivery hmac url appKey secret timeMs events custom).body.toList.head? =
      some '\x7b' := by
  simp [buildSignedDelivery, Json.sortKeys, Json.text]

end Pylon.Webhook
