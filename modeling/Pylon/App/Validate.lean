import Pylon.Webhook.Dispatcher

/-!
# Which apps are accepted

`App::validate` of `app/mod.rs`, run when the static file is loaded and on every
fetch from a database. It asks for an `id`, a `key` without a colon, a `secret`,
and endpoints that have a URL and list known event types; an `id` is any text that
is not blank.
-/

namespace Pylon.Webhook

/-- `char::is_whitespace`. -/
def whiteSpace (c : Char) : Bool :=
  let n := c.toNat
  (9 ≤ n && n ≤ 13) || n = 32 || n = 0x85 || n = 0xA0 || n = 0x1680 ||
    (0x2000 ≤ n && n ≤ 0x200A) || n = 0x2028 || n = 0x2029 || n = 0x202F || n = 0x205F ||
    n = 0x3000

/-- `s.trim().is_empty()`. -/
def blank (s : String) : Bool := s.toList.all whiteSpace

/-- `WEBHOOK_EVENT_TYPES`. -/
def webhookEventTypes : List String :=
  ["channel_occupied", "channel_vacated", "member_added", "member_removed", "client_event",
    "cache_miss", "subscription_count"]

/-- Fail with the message unless the check holds. -/
def require (ok : Bool) (message : String) : Except String Unit :=
  if ok then .ok () else .error message

/-- The check of one endpoint, number `i` of the app. -/
def WebhookConfig.validate (appId : String) (i : Nat) (w : WebhookConfig) : Except String Unit := do
  let here := "app '" ++ appId ++ "' webhook[" ++ toString i ++ "]: "
  require (!blank w.url) (here ++ "url is empty")
  require (!w.eventTypes.isEmpty) (here ++ "event_types must be non-empty")
  forM w.eventTypes fun t =>
    require (webhookEventTypes.contains t) (here ++ "unknown event_type '" ++ t ++ "'")

def App.validate (app : App) : Except String Unit := do
  require (!blank app.id) ("app '" ++ app.id ++ "': id is empty")
  require (!blank app.key) ("app '" ++ app.id ++ "': key is empty")
  require (!app.key.toList.contains ':')
    ("app '" ++ app.id ++ "': key must not contain ':' — the " ++
    "channel-auth and pusher:signin tokens are '<key>:<signature>' and split at the first " ++
    "colon, so such a key fails every websocket auth")
  require (!blank app.secret) ("app '" ++ app.id ++ "': secret is empty")
  forM app.webhooks.zipIdx fun (w, i) => w.validate app.id i

/-! ## What is accepted -/

theorem require_eq_ok_iff (ok : Bool) (message : String) :
    require ok message = .ok () ↔ ok = true := by
  cases ok <;> simp [require]

theorem require_bind_eq_ok_iff (ok : Bool) (message : String) (next : Except String Unit) :
    (require ok message >>= fun _ => next) = .ok () ↔ ok = true ∧ next = .ok () := by
  cases ok <;> simp [require, bind, Except.bind]

theorem forM_eq_ok_iff {α : Type} (l : List α) (f : α → Except String Unit) :
    forM l f = .ok () ↔ ∀ a ∈ l, f a = .ok () := by
  induction l with
  | nil => simp [pure, Except.pure]
  | cons a _ ih =>
    rw [List.forM_cons, List.forall_mem_cons, ← ih]
    cases f a <;> simp [bind, Except.bind]

/-- The URL is there, and every event type is one of the seven. -/
def WebhookConfig.Valid (w : WebhookConfig) : Prop :=
  ¬ blank w.url ∧ w.eventTypes ≠ [] ∧ ∀ t ∈ w.eventTypes, t ∈ webhookEventTypes

instance (w : WebhookConfig) : Decidable w.Valid := inferInstanceAs (Decidable (_ ∧ _ ∧ _))

theorem WebhookConfig.validate_eq_ok_iff (appId : String) (i : Nat) (w : WebhookConfig) :
    w.validate appId i = .ok () ↔ w.Valid := by
  simp [WebhookConfig.validate, WebhookConfig.Valid, require_bind_eq_ok_iff, forM_eq_ok_iff,
    require_eq_ok_iff]

/-- What `validate` accepts: of the `id` it asks only that it is not blank. -/
theorem App.validate_eq_ok_iff (app : App) :
    app.validate = .ok () ↔
      ¬ blank app.id ∧ ¬ blank app.key ∧ ':' ∉ app.key.toList ∧ ¬ blank app.secret ∧
        ∀ w ∈ app.webhooks, w.Valid := by
  have hzip : (∀ wi ∈ app.webhooks.zipIdx, wi.1.Valid) ↔ ∀ w ∈ app.webhooks, w.Valid := by
    conv_rhs => rw [← List.zipIdx_map_fst 0 app.webhooks]
    simp only [List.forall_mem_map]
  simp only [App.validate, require_bind_eq_ok_iff, forM_eq_ok_iff, WebhookConfig.validate_eq_ok_iff,
    hzip]
  simp

end Pylon.Webhook
