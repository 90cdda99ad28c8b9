import Pylon.App.Cache
import Pylon.Lib.Grouping
import Pylon.Webhook.Delivery

/-!
# The webhook dispatcher

`webhook/dispatcher.rs`: a batch of triggers is grouped by app; the removals of an
app (`channel_vacated`, `member_removed`) are put off by a grace, everything else
is delivered at once, one delivery for each endpoint that lists a type of it.

The app is looked up when there is something to deliver at once, and a lookup that
does not find it leaves the loop body before the removals are put off.

The app store, the clock and the occupancy are what a flush or a task finds of
them.
-/

namespace Pylon.Webhook

open Pylon.App Pylon.Channel Pylon.Lib Pylon.Ws

/-! ## Endpoints -/

/-- An endpoint. -/
structure WebhookConfig where
  url : String
  eventTypes : List String
  headers : Std.TreeMap String String := ∅

def WebhookConfig.lists (endpoint : WebhookConfig) (e : Event) : Bool :=
  endpoint.eventTypes.any (· == e.name)

/-- An app with its endpoints. -/
structure App extends Ws.App where
  webhooks : List WebhookConfig

/-- One call of the transport, by what its delivery is built from; `slot` is where the
app lists the endpoint. -/
structure Posted where
  appId : String
  app : App
  endpoint : WebhookConfig
  slot : Nat
  timeMs : Nat
  events : List Event

/-- The signed delivery. -/
def Posted.delivery (hmac : String → String → String) (d : Posted) : WebhookDelivery :=
  buildSignedDelivery hmac d.endpoint.url d.app.key d.app.secret d.timeMs
    (d.events.map WebhookEvent.toJson) d.endpoint.headers

/-- The loop body of `deliver_app_events`: an endpoint that lists nothing of the
events is skipped. -/
def postTo (appId : String) (app : App) (timeMs : Nat) (events : List Event)
    (listed : WebhookConfig × Nat) : Option Posted :=
  let selected := events.filter listed.1.lists
  if selected.isEmpty then none
  else some ⟨appId, app, listed.1, listed.2, timeMs, selected⟩

/-- `deliver_app_events`. -/
def deliverAppEvents (appId : String) (app : App) (timeMs : Nat) (events : List Event) :
    List Posted :=
  app.webhooks.zipIdx.filterMap (postTo appId app timeMs events)

/-! ## Flush -/

/-- The triggers a client's reconnect takes back. -/
def isRemoval : Event → Bool
  | .channelVacated _ | .memberRemoved _ _ => true
  | _ => false

/-- What a flush sets off. -/
inductive Issue where
  | deliver (d : Posted)
  | grace (e : Event)

def Issue.posted : Issue → Option Posted
  | deliver d => some d
  | grace _ => none

def Issue.deferred : Issue → Option Event
  | deliver _ => none
  | grace e => some e

section Issues

variable (ds : List Posted) (es : List Event)

theorem posted_map_deliver : (ds.map Issue.deliver).filterMap Issue.posted = ds := by
  rw [List.filterMap_map]
  exact List.filterMap_some

theorem posted_map_grace : (es.map Issue.grace).filterMap Issue.posted = [] := by
  rw [List.filterMap_map]
  exact List.filterMap_eq_nil_iff.mpr fun _ _ => rfl

theorem deferred_map_deliver : (ds.map Issue.deliver).filterMap Issue.deferred = [] := by
  rw [List.filterMap_map]
  exact List.filterMap_eq_nil_iff.mpr fun _ _ => rfl

theorem deferred_map_grace : (es.map Issue.grace).filterMap Issue.deferred = es := by
  rw [List.filterMap_map]
  exact List.filterMap_some

end Issues

section Flush

variable (graceMs : Nat)

/-- What the answer of the app store lets through at once. `none` is an answer
that skips the rest of the app's round. -/
def deliverImmediate (found : Option (AppLookup App)) (appId : String) (timeMs : Nat)
    (immediate : List Event) : Option (List Posted) :=
  match found with
  | some (.found app) =>
    some (if app.webhooks.isEmpty then [] else deliverAppEvents appId app timeMs immediate)
  | _ => none

/-- The loop body of `flush` for one app. -/
def flushApp (found : Option (AppLookup App)) (appId : String) (timeMs : Nat)
    (events : List Event) : List Issue :=
  let deferred := if 0 < graceMs then events.filter isRemoval else []
  let immediate := if 0 < graceMs then events.filter (fun e => !isRemoval e) else events
  if immediate.isEmpty then deferred.map .grace
  else
    match deliverImmediate found appId timeMs immediate with
    | some posted => posted.map .deliver ++ deferred.map .grace
    | none => []

/-- Flush a batch: `walk` is the order its groups are met in, `store` and `clock`
what the app store and the clock say in an app's round. -/
def flush (store : String → Option (AppLookup App)) (clock : String → Nat)
    (walk : List (String × List Event)) : List Issue :=
  walk.flatMap fun p => flushApp graceMs (store p.1) p.1 (clock p.1) p.2

end Flush

/-! ## The grace task -/

/-- The occupancy source. -/
structure Occupancy where
  subscriptionCount : Key → Nat
  isMemberPresent : Key → String → Bool

/-- The re-check: whether the channel or the user is back. Without an occupancy
source nobody is. -/
def isBack (occupancy : Option Occupancy) : Event → Bool
  | .channelVacated key => occupancy.any fun o => o.subscriptionCount key ≠ 0
  | .memberRemoved key userId => occupancy.any fun o => o.isMemberPresent key userId
  | _ => false

/-- A put-off removal when its grace is over. -/
def graceTask (occupancy : Option Occupancy) (found : Option (AppLookup App)) (timeMs : Nat)
    (e : Event) : List Posted :=
  if isBack occupancy e then []
  else (deliverImmediate found e.app timeMs [e]).getD []

/-! ## What one round does -/

variable {graceMs : Nat} {found : Option (AppLookup App)} {appId : String} {timeMs : Nat}
  {events : List Event}

theorem postTo_eq {app : App} {listed : WebhookConfig × Nat} :
    postTo appId app timeMs events listed =
      if events.any listed.1.lists then
        some ⟨appId, app, listed.1, listed.2, timeMs, events.filter listed.1.lists⟩
      else none := by
  unfold postTo
  by_cases hany : events.any listed.1.lists = true
  · have hsome : (events.filter listed.1.lists).isEmpty = false := by
      rw [List.isEmpty_eq_false_iff, ne_eq, List.filter_eq_nil_iff]
      simpa using hany
    simp only [hany, hsome, if_true, Bool.false_eq_true, if_false]
  · have hnone : (events.filter listed.1.lists).isEmpty = true := by
      rw [List.isEmpty_iff, List.filter_eq_nil_iff]
      simpa using hany
    simp only [hany, hnone, if_true, Bool.false_eq_true, if_false]

theorem mem_deliverAppEvents {app : App} {d : Posted}
    (hd : d ∈ deliverAppEvents appId app timeMs events) :
    d.appId = appId ∧ d.events = events.filter d.endpoint.lists := by
  obtain ⟨listed, -, hsome⟩ := List.mem_filterMap.mp hd
  rw [postTo_eq] at hsome
  split at hsome
  · cases hsome
    exact ⟨rfl, rfl⟩
  · cases hsome

/-- The endpoints posted to are those that list a type of the events. -/
theorem endpoints_deliverAppEvents (app : App) :
    (deliverAppEvents appId app timeMs events).map Posted.endpoint =
      app.webhooks.filter fun endpoint => events.any endpoint.lists := by
  have hround : ∀ listed : WebhookConfig × Nat,
      (postTo appId app timeMs events listed).map Posted.endpoint =
        Option.guard (fun endpoint => events.any endpoint.lists) listed.1 := by
    intro listed
    rw [postTo_eq, Option.guard]
    split <;> rfl
  rw [deliverAppEvents, List.map_filterMap, ← List.filterMap_eq_filter]
  simp only [hround]
  conv_rhs => rw [← List.zipIdx_map_fst 0 app.webhooks, List.filterMap_map]
  rfl

theorem filter_zipIdx {α : Type*} (l : List α) (i : Nat) :
    l.zipIdx.filter (fun p => decide (p.2 = i)) = ((l[i]?).map (·, i)).toList := by
  induction l using List.reverseRecOn with
  | nil => rfl
  | append_singleton l a ih =>
    rw [List.zipIdx_append, List.filter_append, ih]
    rcases Nat.lt_trichotomy i l.length with hi | rfl | hi
    · simp [List.getElem?_append_left hi, hi.ne']
    · simp
    · rw [List.getElem?_eq_none hi.le, List.getElem?_eq_none (by simp; omega)]
      simp [hi.ne]

/-- What the endpoint in one slot of the app's list gets: the events of a type it lists. -/
theorem slot_deliverAppEvents {app : App} {slot : Nat} {endpoint : WebhookConfig}
    (hslot : app.webhooks[slot]? = some endpoint) :
    ((deliverAppEvents appId app timeMs events).filter fun d => decide (d.slot = slot)).flatMap
      Posted.events = events.filter endpoint.lists := by
  have hround : ∀ listed : WebhookConfig × Nat,
      (postTo appId app timeMs events listed).filter (fun d => decide (d.slot = slot)) =
        if decide (listed.2 = slot) then postTo appId app timeMs events listed else none := by
    intro listed
    rw [postTo_eq]
    split
    · simp [Option.filter]
    · simp
  rw [deliverAppEvents, List.filter_filterMap]
  simp only [hround]
  rw [← List.filterMap_filter, filter_zipIdx, hslot]
  simp only [Option.map_some, Option.toList_some, List.filterMap_cons, List.filterMap_nil,
    postTo_eq]
  split
  · simp_all [List.filter_eq_nil_iff]
  · rename_i hsome
    split at hsome <;> cases hsome
    simp

theorem deliverAppEvents_nil (app : App) : deliverAppEvents appId app timeMs [] = [] :=
  List.filterMap_eq_nil_iff.mpr fun _ _ => rfl

/-- With a grace, a round delivers what is no removal, when the app is found. -/
theorem posted_flushApp (hgrace : 0 < graceMs) :
    (flushApp graceMs found appId timeMs events).filterMap Issue.posted =
      (deliverImmediate found appId timeMs (events.filter fun e => !isRemoval e)).getD [] := by
  unfold flushApp
  simp only [hgrace, if_true]
  split
  · rename_i hempty
    rw [posted_map_grace, List.isEmpty_iff.mp hempty]
    unfold deliverImmediate
    split
    · simp [deliverAppEvents_nil]
    · rfl
  · cases deliverImmediate found appId timeMs (events.filter fun e => !isRemoval e) with
    | none => rfl
    | some =>
      rw [List.filterMap_append, posted_map_deliver, posted_map_grace, List.append_nil]
      rfl

/-- The answer is an app. -/
def isFound : Option (AppLookup App) → Bool
  | some (.found _) => true
  | _ => false

theorem isFound_iff : isFound found = true ↔ ∃ app, found = some (.found app) := by
  constructor
  · intro h
    unfold isFound at h
    split at h
    · exact ⟨_, rfl⟩
    · cases h
  · rintro ⟨app, rfl⟩
    rfl

/-- With a grace, a round puts off its removals, unless it has something else to
deliver and does not find the app. -/
theorem deferred_flushApp (hgrace : 0 < graceMs) :
    (flushApp graceMs found appId timeMs events).filterMap Issue.deferred =
      if events.all isRemoval || isFound found then events.filter isRemoval else [] := by
  unfold flushApp
  simp only [hgrace, if_true]
  have hall : (events.filter fun e => !isRemoval e).isEmpty = events.all isRemoval := by
    rw [Bool.eq_iff_iff, List.isEmpty_iff, List.filter_eq_nil_iff, List.all_eq_true]
    simp
  rw [hall]
  cases events.all isRemoval with
  | true => exact deferred_map_grace _
  | false =>
    rw [Bool.false_or, if_neg Bool.false_ne_true]
    unfold deliverImmediate isFound
    split <;> rename_i hlookup
    · split at hlookup <;> cases hlookup
      rw [List.filterMap_append, deferred_map_deliver, deferred_map_grace, List.nil_append]
      rfl
    · split at hlookup <;> cases hlookup
      rfl

theorem mem_posted_flushApp (hgrace : 0 < graceMs) {d : Posted}
    (hd : d ∈ (flushApp graceMs found appId timeMs events).filterMap Issue.posted) :
    d.appId = appId ∧
      d.events = (events.filter fun e => !isRemoval e).filter d.endpoint.lists := by
  rw [posted_flushApp hgrace] at hd
  unfold deliverImmediate at hd
  split at hd
  · rw [Option.getD_some] at hd
    split at hd
    · exact absurd hd List.not_mem_nil
    · exact mem_deliverAppEvents hd
  · exact absurd hd List.not_mem_nil

/-! ## What a flush does -/

/-- The deliveries set off for an app. -/
def postedFor (appId : String) (issues : List Issue) : List Posted :=
  (issues.filterMap Issue.posted).filter fun d => decide (d.appId = appId)

/-- What an app's round has to deliver at once. -/
def immediateFor (appId : String) (batch : List Event) : List Event :=
  batch.filter fun e => decide (e.app = appId) && !isRemoval e

section Batch

variable {store : String → Option (AppLookup App)} {clock : String → Nat} {batch : List Event}
  {walk : List (String × List Event)}

theorem filter_having (appId : String) (batch : List Event) :
    (having WebhookEvent.app appId batch).filter (fun e => !isRemoval e) =
      immediateFor appId batch := by
  rw [having, List.filter_filter, immediateFor]
  exact List.filter_congr fun e _ => Bool.and_comm _ _

theorem mem_posted_flush (hgrace : 0 < graceMs)
    (hwalk : (group WebhookEvent.app batch).Enumerates walk) {d : Posted}
    (hd : d ∈ (flush graceMs store clock walk).filterMap Issue.posted) :
    d.events = (immediateFor d.appId batch).filter d.endpoint.lists := by
  rw [flush, List.filterMap_flatMap] at hd
  obtain ⟨p, hp, hd⟩ := List.mem_flatMap.mp hd
  obtain ⟨happ, hevents⟩ := mem_posted_flushApp hgrace hd
  rw [hevents, snd_of_mem_walk hwalk hp, filter_having, happ]

/-- An app's posts do not depend on the other groups of the batch. -/
theorem postedFor_flush (hgrace : 0 < graceMs)
    (hwalk : (group WebhookEvent.app batch).Enumerates walk) {app : App}
    (hfound : store appId = some (.found app)) :
    postedFor appId (flush graceMs store clock walk) =
      deliverAppEvents appId app (clock appId) (immediateFor appId batch) := by
  have hown : ∀ events, ((flushApp graceMs (store appId) appId (clock appId) events).filterMap
      Issue.posted).filter (fun d => decide (d.appId = appId)) =
        deliverAppEvents appId app (clock appId) (events.filter fun e => !isRemoval e) := by
    intro events
    rw [List.filter_eq_self.mpr fun d hd => by simpa using (mem_posted_flushApp hgrace hd).1,
      posted_flushApp hgrace, hfound, deliverImmediate, Option.getD_some]
    split
    · rename_i hnone
      rw [deliverAppEvents, List.isEmpty_iff.mp hnone]
      rfl
    · rfl
  rw [postedFor, flush, List.filterMap_flatMap, filter_flatMap_group hwalk appId, hown,
    filter_having]
  · intro q _ hq
    refine List.filter_eq_nil_iff.mpr fun d hd => ?_
    rw [(mem_posted_flushApp hgrace hd).1]
    simpa using hq
  · rw [hown]
    exact deliverAppEvents_nil app

/-- What a flush puts off for one app. -/
theorem deferredFor_flush (hgrace : 0 < graceMs)
    (hwalk : (group WebhookEvent.app batch).Enumerates walk) (appId : String) :
    ((flush graceMs store clock walk).filterMap Issue.deferred).filter
        (fun e => decide (e.app = appId)) =
      if (having WebhookEvent.app appId batch).all isRemoval || isFound (store appId) then
        (having WebhookEvent.app appId batch).filter isRemoval
      else [] := by
  have hround : ∀ (k : String) (events : List Event), ∀ e ∈ (flushApp graceMs (store k) k (clock k)
      events).filterMap Issue.deferred, e ∈ events := by
    intro k events e he
    rw [deferred_flushApp hgrace] at he
    split at he
    · exact List.mem_of_mem_filter he
    · cases he
  rw [flush, List.filterMap_flatMap, filter_flatMap_group hwalk appId]
  · rw [List.filter_eq_self.mpr fun e he => by simpa using (mem_having.mp (hround _ _ e he)).2,
      deferred_flushApp hgrace]
  · intro q hq hne
    refine List.filter_eq_nil_iff.mpr fun e he => ?_
    have hin := hround _ _ e he
    rw [snd_of_mem_walk hwalk hq] at hin
    simpa [(mem_having.mp hin).2] using hne
  · rw [deferred_flushApp hgrace]
    rfl

/-- A flush puts off exactly the removals of its batch just when every app with
something to deliver beside them is found. -/
theorem deferred_flush (hgrace : 0 < graceMs)
    (hwalk : (group WebhookEvent.app batch).Enumerates walk) :
    ((flush graceMs store clock walk).filterMap Issue.deferred).Perm (batch.filter isRemoval) ↔
      ∀ appId, (∃ e ∈ batch, e.app = appId ∧ isRemoval e = true) →
        (∃ e ∈ batch, e.app = appId ∧ isRemoval e = false) →
        ∃ app, store appId = some (.found app) := by
  constructor
  · -- the removals of an app that is missed are not put off, so none of them is in the batch
    rintro hperm appId ⟨e, he, rfl, hremoval⟩ ⟨e', he', happ, hother⟩
    rw [← isFound_iff]
    by_contra hmissing
    have hown := hperm.filter fun e₁ => decide (e₁.app = e.app)
    have hall : (having WebhookEvent.app e.app batch).all isRemoval = false :=
      List.all_eq_false.mpr ⟨e', mem_having.mpr ⟨he', happ⟩, by simp [hother]⟩
    rw [deferredFor_flush hgrace hwalk, hall, Bool.eq_false_iff.mpr hmissing, Bool.or_self,
      if_neg Bool.false_ne_true] at hown
    have hmem : e ∈ (batch.filter isRemoval).filter fun e₁ => decide (e₁.app = e.app) := by
      simp [he, hremoval]
    rw [← hown.nil_eq] at hmem
    exact absurd hmem List.not_mem_nil
  · intro hfound
    have hrounds : (flush graceMs store clock walk).filterMap Issue.deferred =
        (walk.flatMap Prod.snd).filter isRemoval := by
      rw [flush, List.filterMap_flatMap, List.filter_flatMap]
      refine List.flatMap_congr fun p hp => ?_
      have hin : ∀ e ∈ p.2, e ∈ batch ∧ e.app = p.1 := by
        intro e he
        rw [snd_of_mem_walk hwalk hp] at he
        exact mem_having.mp he
      rw [deferred_flushApp hgrace]
      split
      · rfl
      · rename_i hskip
        -- an app that is missed has something else in the batch, so it has no removal
        rw [Bool.or_eq_true, not_or, Bool.not_eq_true, List.all_eq_false, isFound_iff] at hskip
        obtain ⟨⟨e', he', hother⟩, hmissing⟩ := hskip
        symm
        refine List.filter_eq_nil_iff.mpr fun e he hremoval => hmissing (hfound p.1 ?_ ?_)
        · exact ⟨e, (hin e he).1, (hin e he).2, hremoval⟩
        · exact ⟨e', (hin e' he').1, (hin e' he').2, Bool.eq_false_iff.mpr hother⟩
    rw [hrounds]
    exact (walk_perm hwalk).filter _

/-- **Independence.** With a grace, each removal is put off once just when no app that
has something else to deliver is missing; and every other event of an app that is
found is posted once to each endpoint listing its type, in the order of the batch, and
nowhere else. -/
theorem webhook_events_independent (graceMs : Nat) (store : String → Option (AppLookup App))
    (clock : String → Nat) (hgrace : 0 < graceMs)
    (hwalk : (group WebhookEvent.app batch).Enumerates walk) :
    (((flush graceMs store clock walk).filterMap Issue.deferred).Perm (batch.filter isRemoval) ↔
      ∀ appId, (∃ e ∈ batch, e.app = appId ∧ isRemoval e = true) →
        (∃ e ∈ batch, e.app = appId ∧ isRemoval e = false) →
        ∃ app, store appId = some (.found app)) ∧
    (∀ appId app, store appId = some (.found app) →
      (postedFor appId (flush graceMs store clock walk)).map Posted.endpoint =
        app.webhooks.filter (fun endpoint => (immediateFor appId batch).any endpoint.lists) ∧
      ∀ d ∈ postedFor appId (flush graceMs store clock walk),
        d.events = (immediateFor appId batch).filter d.endpoint.lists) ∧
    ∀ d ∈ (flush graceMs store clock walk).filterMap Issue.posted,
      ∀ e ∈ d.events, e.app = d.appId := by
  refine ⟨deferred_flush hgrace hwalk, fun appId app happ => ⟨?_, fun d hd => ?_⟩, ?_⟩
  · rw [postedFor_flush hgrace hwalk happ, endpoints_deliverAppEvents]
  · obtain ⟨hd, hid⟩ := List.mem_filter.mp hd
    rw [mem_posted_flush hgrace hwalk hd, of_decide_eq_true hid]
  · intro d hd e he
    rw [mem_posted_flush hgrace hwalk hd, immediateFor] at he
    have hmem := (List.mem_filter.mp (List.mem_of_mem_filter he)).2
    exact of_decide_eq_true (Bool.and_eq_true_iff.mp hmem).1

end Batch

/-- One channel of an app becomes occupied, another vacated. -/
def mixedBatch : List Event := [.channelOccupied ("a", "c"), .channelVacated ("a", "d")]

theorem mixedBatch_walk : (group WebhookEvent.app mixedBatch).Enumerates [("a", mixedBatch)] := by
  refine ⟨by decide, by decide, fun p hp => ?_⟩
  rw [List.mem_singleton.mp hp]
  rfl

/-- An app with one endpoint, for occupied channels. -/
def hookedApp : App :=
  { id := "a", key := "k", secret := "x", webhooks := [⟨"hook", ["channel_occupied"], ∅⟩] }

theorem webhook_events_independent_found :
    ((flush 3000 (fun _ => some (.found hookedApp)) (fun _ => 0)
        [("a", mixedBatch)]).filterMap Issue.deferred).Perm [.channelVacated ("a", "d")] ∧
      (postedFor "a" (flush 3000 (fun _ => some (.found hookedApp)) (fun _ => 0)
        [("a", mixedBatch)])).map Posted.endpoint = hookedApp.webhooks := by
  have hparts := webhook_events_independent 3000 (fun _ => some (.found hookedApp)) (fun _ => 0)
    (by decide) mixedBatch_walk
  exact ⟨hparts.1.mpr fun _ _ _ => ⟨hookedApp, rfl⟩, (hparts.2.1 "a" hookedApp rfl).1.trans rfl⟩

/-- The app store fails while the occupied channel's app is looked up: the loop
goes on with the next app, and the vacated channel gets no grace task. -/
theorem removal_lost_with_lookup :
    (group WebhookEvent.app mixedBatch).Enumerates [("a", mixedBatch)] ∧
      mixedBatch.filter isRemoval = [.channelVacated ("a", "d")] ∧
      (flush 3000 (fun _ => none) (fun _ => 0) [("a", mixedBatch)]).filterMap Issue.deferred = [] :=
  ⟨mixedBatch_walk, rfl, rfl⟩

end Pylon.Webhook
