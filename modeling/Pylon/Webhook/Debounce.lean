import Pylon.Lib.Edge
import Pylon.Webhook.Dispatcher

/-!
# Debounced webhooks

What one endpoint gets of a channel, or of a user of a channel, over time. The
dispatcher's `run` takes events from its mailbox into a batch, which it flushes when
the window of the batch's first event is over. The flush delivers an arrival at once
and puts a departure into a grace task, which looks, when its grace is over, whether
the channel is occupied (the user present) again, and delivers the departure if not.

The task knows nothing of the arrivals and departures in between. When a departure is
flushed while the task of an earlier one still runs, both may find the channel empty
and both deliver, while the only arrival between them was delivered before either. As
long as a departure finds none of an earlier one anywhere on its way, departures are
separated by an arrival (`departures_separated`).
-/

namespace Pylon.Webhook

open Pylon.App Pylon.Channel Pylon.Lib Pylon.Ws

/-- What arrives and departs. -/
inductive Subject where
  | channel (key : Key)
  | member (key : Key) (userId : String)

namespace Subject

def app : Subject → String
  | channel key | member key _ => key.1

def arrival : Subject → Event
  | channel key => .channelOccupied key
  | member key userId => .memberAdded key userId

def departure : Subject → Event
  | channel key => .channelVacated key
  | member key userId => .memberRemoved key userId

/-- What an event says of the subject. -/
def sense (subject : Subject) (e : Event) : Option Edge :=
  match subject, e with
  | channel key, .channelOccupied key' => if key' = key then some .up else none
  | channel key, .channelVacated key' => if key' = key then some .down else none
  | member key userId, .memberAdded key' userId' =>
    if key' = key ∧ userId' = userId then some .up else none
  | member key userId, .memberRemoved key' userId' =>
    if key' = key ∧ userId' = userId then some .down else none
  | _, _ => none

variable (subject : Subject)

@[simp] theorem sense_arrival : subject.sense subject.arrival = some .up := by
  cases subject <;> simp [sense, arrival]

@[simp] theorem sense_departure : subject.sense subject.departure = some .down := by
  cases subject <;> simp [sense, departure]

@[simp] theorem app_arrival : WebhookEvent.app subject.arrival = subject.app := by
  cases subject <;> rfl

@[simp] theorem app_departure : WebhookEvent.app subject.departure = subject.app := by
  cases subject <;> rfl

@[simp] theorem isRemoval_arrival : isRemoval subject.arrival = false := by
  cases subject <;> rfl

@[simp] theorem isRemoval_departure : isRemoval subject.departure = true := by
  cases subject <;> rfl

variable {subject}

/-- The arrival and the departure are the only events that say something. -/
theorem sense_cases (e : Event) :
    subject.sense e = none ∨ e = subject.arrival ∨ e = subject.departure := by
  unfold sense
  split
  all_goals first | exact .inl rfl | split
  all_goals first | exact .inl rfl | simp_all [arrival, departure]

theorem eq_arrival_of_sense {e : Event} (he : subject.sense e = some .up) :
    e = subject.arrival := by
  rcases subject.sense_cases e with hnone | rfl | rfl
  · rw [hnone] at he
    cases he
  · rfl
  · rw [sense_departure] at he
    cases he

end Subject

/-! ## The system -/

/-- The subject and the dispatcher. A grace task stands with the instant it is due at. -/
structure Debounce where
  now : Nat := 0
  present : Bool
  mailbox : List Event := []
  batch : List Event := []
  deadline : Nat := 0
  due : List (Nat × Event) := []
  posted : List Posted := []

/-- `others` is what the app store answers for the other apps, `order` the order a flush
meets the apps in. -/
inductive DebounceAct where
  | edge
  | other (e : Event)
  | recv
  | flush (others : String → Option (AppLookup App)) (order : List String)
  | fire (i : Nat) (others : String → Option (AppLookup App))
  | pass (ms : Nat)

/-- Everything the endpoint in a slot of an app's list is sent, in order. -/
def received (appId : String) (slot : Nat) (posted : List Posted) : List Event :=
  (posted.filter fun d => decide (d.appId = appId) && decide (d.slot = slot)).flatMap Posted.events

section Debounce

variable (app : App) (occupancy : Bool → Occupancy) (subject : Subject) (batchMs graceMs : Nat)

/-- The app store always finds the subject's app. -/
def storeWith (others : String → Option (AppLookup App)) : String → Option (AppLookup App) :=
  Function.update others subject.app (some (.found app))

/-- A change of the subject goes into the mailbox. -/
def Debounce.edge (w : Debounce) : Debounce :=
  { w with
    present := !w.present
    mailbox := w.mailbox ++ [if w.present then subject.departure else subject.arrival] }

/-- So does an event of anything else. -/
def Debounce.other (w : Debounce) (e : Event) : Debounce :=
  if subject.sense e = none then { w with mailbox := w.mailbox ++ [e] } else w

/-- `run` takes the next event: the first of a batch opens the window, and once the
window is over none is taken before the flush. -/
def Debounce.recv (w : Debounce) : Debounce :=
  match w.mailbox with
  | [] => w
  | e :: rest =>
    if w.batch.isEmpty then
      { w with mailbox := rest, batch := [e], deadline := w.now + batchMs }
    else if w.now < w.deadline then { w with mailbox := rest, batch := w.batch ++ [e] }
    else w

/-- `run` flushes a batch whose window is over. -/
def Debounce.flush (w : Debounce) (others : String → Option (AppLookup App))
    (order : List String) : Debounce :=
  if w.batch.isEmpty = false ∧ w.deadline ≤ w.now ∧ order.Nodup ∧
      order.toFinset = (w.batch.map WebhookEvent.app).toFinset then
    let walk := order.map fun appId => (appId, having WebhookEvent.app appId w.batch)
    let issues := Webhook.flush graceMs (storeWith app subject others) (fun _ => w.now) walk
    { w with
      batch := []
      due := w.due ++ (issues.filterMap Issue.deferred).map fun e => (w.now + graceMs, e)
      posted := w.posted ++ issues.filterMap Issue.posted }
  else w

/-- A grace task that is due re-checks and ends. -/
def Debounce.fire (w : Debounce) (i : Nat) (others : String → Option (AppLookup App)) :
    Debounce :=
  match w.due[i]? with
  | some (t, e) =>
    if t ≤ w.now then
      { w with
        due := w.due.eraseIdx i
        posted := w.posted ++ graceTask (some (occupancy w.present))
          (storeWith app subject others e.app) w.now e }
    else w
  | none => w

def Debounce.step (w : Debounce) : DebounceAct → Debounce
  | .edge => w.edge subject
  | .other e => w.other subject e
  | .recv => w.recv batchMs
  | .flush others order => w.flush app subject graceMs others order
  | .fire i others => w.fire app occupancy subject i others
  | .pass ms => { w with now := w.now + ms }

/-- A departure finds none of an earlier one in the mailbox, in the batch or waiting for
its grace. -/
def Spaced (w : Debounce) (a : DebounceAct) : Prop :=
  match a with
  | .edge => w.present = true →
    ∀ e ∈ w.batch ++ w.mailbox ++ w.due.map Prod.snd, subject.sense e ≠ some .down
  | _ => True

instance (w : Debounce) (a : DebounceAct) : Decidable (Spaced subject w a) :=
  match a with
  | .edge => inferInstanceAs (Decidable (_ → ∀ _ ∈ _, _))
  | .other _ | .recv | .flush _ _ | .fire _ _ | .pass _ => isTrue trivial

end Debounce

/-! ## One endpoint

What a flush and a grace task mean for the edges the endpoint is told. -/

section Endpoint

variable {app : App} {endpoint : WebhookConfig} {subject : Subject} {graceMs slot : Nat}

@[simp] theorem received_append (appId : String) (ds ds' : List Posted) :
    received appId slot (ds ++ ds') = received appId slot ds ++ received appId slot ds' := by
  simp [received]

theorem received_deliverAppEvents (hslot : app.webhooks[slot]? = some endpoint) (appId : String)
    (timeMs : Nat) (events : List Event) :
    received appId slot (deliverAppEvents appId app timeMs events) =
      events.filter endpoint.lists := by
  have hown : ∀ d ∈ deliverAppEvents appId app timeMs events,
      (decide (d.appId = appId) && decide (d.slot = slot)) = decide (d.slot = slot) := by
    intro d hd
    simp [(mem_deliverAppEvents hd).1]
  rw [received, List.filter_congr hown, slot_deliverAppEvents hslot]

/-- Of a batch, the endpoint is told the arrivals at the flush. -/
theorem senses_flush (hgrace : 0 < graceMs) (hslot : app.webhooks[slot]? = some endpoint)
    (harrival : endpoint.lists subject.arrival = true) {batch : List Event}
    {walk : List (String × List Event)} (hwalk : (group WebhookEvent.app batch).Enumerates walk)
    (others : String → Option (AppLookup App)) (clock : String → Nat) :
    (received subject.app slot ((Webhook.flush graceMs (storeWith app subject others) clock
        walk).filterMap Issue.posted)).filterMap subject.sense =
      (batch.filterMap subject.sense).filter fun edge => decide (edge = .up) := by
  have hfound : storeWith app subject others subject.app = some (.found app) :=
    Function.update_self ..
  have hheard : received subject.app slot ((Webhook.flush graceMs (storeWith app subject others)
      clock walk).filterMap Issue.posted) =
        (immediateFor subject.app batch).filter endpoint.lists := by
    rw [← received_deliverAppEvents hslot subject.app (clock subject.app),
      ← postedFor_flush hgrace hwalk hfound, received, received, postedFor, List.filter_filter]
    simp only [Bool.and_right_comm _ _ (decide _), Bool.and_self]
  rw [hheard, immediateFor, List.filterMap_filter, List.filterMap_filter, List.filter_filterMap]
  refine List.filterMap_congr fun e _ => ?_
  rcases subject.sense_cases e with hnone | rfl | rfl
  · simp [hnone]
  · simp [harrival, Option.filter]
  · simp [Option.filter]

/-- The departures of a batch are put off. -/
theorem senses_deferred (hgrace : 0 < graceMs) {batch : List Event}
    {walk : List (String × List Event)} (hwalk : (group WebhookEvent.app batch).Enumerates walk)
    (others : String → Option (AppLookup App)) (clock : String → Nat) :
    ((Webhook.flush graceMs (storeWith app subject others) clock walk).filterMap
        Issue.deferred).filterMap subject.sense =
      (batch.filterMap subject.sense).filter fun edge => decide (edge = .down) := by
  have hfound : isFound (storeWith app subject others subject.app) = true := by
    rw [storeWith, Function.update_self]
    rfl
  -- the events of other apps say nothing of the subject
  have hown : ∀ l : List Event, l.filterMap subject.sense =
      (l.filter fun e => decide (e.app = subject.app)).filterMap subject.sense := by
    intro l
    rw [List.filterMap_filter]
    refine List.filterMap_congr fun e _ => ?_
    rcases subject.sense_cases e with hnone | rfl | rfl <;> simp [*]
  rw [hown, deferredFor_flush hgrace hwalk, hfound, Bool.or_true, if_pos rfl, having,
    List.filterMap_filter, List.filterMap_filter, List.filter_filterMap]
  refine List.filterMap_congr fun e _ => ?_
  rcases subject.sense_cases e with hnone | rfl | rfl <;> simp [*, Option.filter]

/-- A grace task tells nothing but its own event. -/
theorem mem_graceTask {occupancy : Option Occupancy} {found : Option (AppLookup App)}
    {timeMs : Nat} {e e' : Event} {d : Posted} (hd : d ∈ graceTask occupancy found timeMs e)
    (he' : e' ∈ d.events) : e' = e := by
  unfold graceTask deliverImmediate at hd
  split at hd
  · cases hd
  · split at hd
    · rw [Option.getD_some] at hd
      split at hd
      · cases hd
      · rw [(mem_deliverAppEvents hd).2] at he'
        exact List.mem_singleton.mp (List.mem_of_mem_filter he')
    · cases hd

/-- The departure's own task tells it to the endpoint, unless the subject is back. -/
theorem received_graceTask (hslot : app.webhooks[slot]? = some endpoint)
    (hdeparture : endpoint.lists subject.departure = true) (occupancy : Occupancy)
    (others : String → Option (AppLookup App)) (timeMs : Nat) :
    received subject.app slot (graceTask (some occupancy)
        (storeWith app subject others (WebhookEvent.app subject.departure)) timeMs
        subject.departure) =
      if isBack (some occupancy) subject.departure then [] else [subject.departure] := by
  rw [graceTask, Subject.app_departure, storeWith, Function.update_self]
  split
  · rfl
  · have hlisted : app.webhooks.isEmpty = false := by
      cases hwebhooks : app.webhooks with
      | nil => simp [hwebhooks] at hslot
      | cons => rfl
    rw [deliverImmediate, hlisted, if_neg Bool.false_ne_true, Option.getD_some,
      received_deliverAppEvents hslot]
    simp [hdeparture]

end Endpoint

/-! ## Separation -/

/-- No departure follows a departure in what the endpoint was told and is going to be
told at a flush. At most one departure is on its way, and while it waits for its grace
the last thing told was none. -/
structure Separated (told coming waiting : List Edge) (present : Bool) : Prop where
  apart : DownsApart (told ++ coming)
  single : (coming ++ waiting).count .down ≤ 1
  downs : ∀ e ∈ waiting, e = .down
  tasks : waiting ≠ [] → told.getLast? ≠ some .down
  level : present = true → (told ++ coming).getLast? ≠ some .down

namespace Separated

variable {told coming waiting : List Edge} {present : Bool}

theorem arrive (h : Separated told coming waiting present) :
    Separated told (coming ++ [.up]) waiting true where
  apart := by
    rw [← List.append_assoc]
    exact h.apart.snoc (by rintro ⟨⟩)
  single := by
    have hsingle := h.single
    simp only [List.count_append] at hsingle ⊢
    simpa using hsingle
  downs := h.downs
  tasks := h.tasks
  level _ := by simp [← List.append_assoc]

theorem depart (h : Separated told coming waiting true)
    (hnone : ∀ e ∈ coming ++ waiting, e ≠ .down) :
    Separated told (coming ++ [.down]) waiting false where
  apart := by
    rw [← List.append_assoc]
    exact h.apart.snoc fun _ => h.level rfl
  single := by
    have hzero : (coming ++ waiting).count .down = 0 :=
      List.count_eq_zero.mpr fun hmem => hnone _ hmem rfl
    simp only [List.count_append] at hzero ⊢
    simp [Nat.eq_zero_of_add_eq_zero_right hzero, Nat.eq_zero_of_add_eq_zero_left hzero]
  downs := h.downs
  tasks := h.tasks
  level hfalse := by cases hfalse

/-- An arrival is flushed. -/
theorem takeUp (h : Separated told (.up :: coming) waiting present) :
    Separated (told ++ [.up]) coming waiting present where
  apart := by simpa using h.apart
  single := by simpa using h.single
  downs := h.downs
  tasks _ := by simp
  level hpresent := by simpa using h.level hpresent

/-- A departure is flushed; it was the only one on its way. -/
theorem takeDown (h : Separated told (.down :: coming) waiting present) :
    Separated told coming (waiting ++ [.down]) present := by
  have hzero : (coming ++ waiting).count .down = 0 := by
    have hsingle := h.single
    rw [List.cons_append, List.count_cons_self] at hsingle
    omega
  have hups : ∀ e ∈ coming, e = .up := by
    intro e he
    cases e with
    | up => rfl
    | down => exact absurd (List.mem_append_left _ he) (List.count_eq_zero.mp hzero)
  refine ⟨DownsApart.append_ups (List.isChain_append.mp h.apart).1 hups, ?_, ?_,
    fun _ => h.apart.getLast_of_down, fun hpresent => ?_⟩
  · rw [← List.append_assoc, List.count_append, hzero]
    decide
  · intro e he
    rcases List.mem_append.mp he with he | he
    · exact h.downs e he
    · exact List.mem_singleton.mp he
  · -- the subject is present, so an arrival was announced behind the departure
    have hlevel := h.level hpresent
    cases coming using List.reverseRecOn with
    | nil => simp at hlevel
    | append_singleton coming e =>
      rw [hups e (by simp)]
      simp [← List.append_assoc]

/-- A batch is flushed, one event after the other. -/
theorem flush {batch : List Edge} (h : Separated told (batch ++ coming) waiting present) :
    Separated (told ++ batch.filter fun edge => decide (edge = .up)) coming
      (waiting ++ batch.filter fun edge => decide (edge = .down)) present := by
  induction batch generalizing told waiting with
  | nil => simpa using h
  | cons e batch ih =>
    cases e with
    | up => simpa using ih h.takeUp
    | down => simpa using ih h.takeDown

/-- The one task of the subject ends. -/
theorem fire {rest : List Edge} (h : Separated told coming waiting present)
    (hrest : waiting.length = rest.length + 1) :
    Separated (told ++ if present then [] else [.down]) coming rest present := by
  have hwaiting : waiting.count .down = waiting.length :=
    List.count_eq_length.mpr fun e he => (h.downs e he).symm
  have hsingle := h.single
  rw [List.count_append, hwaiting, hrest] at hsingle
  obtain rfl : rest = [] := List.eq_nil_of_length_eq_zero (by omega)
  have hups : ∀ e ∈ coming, e = .up := by
    intro e he
    cases e with
    | up => rfl
    | down => exact absurd he (List.count_eq_zero.mp (by omega))
  have hpending : waiting ≠ [] := by
    rintro rfl
    cases hrest
  cases present with
  | true =>
    refine ⟨by simpa using h.apart, by simp; omega, by simp, by simp, fun _ => ?_⟩
    simpa using h.level rfl
  | false =>
    have htold : DownsApart told := (List.isChain_append.mp h.apart).1
    exact ⟨(htold.snoc fun _ => h.tasks hpending).append_ups hups, by simp; omega, by simp,
      by simp, by rintro ⟨⟩⟩

end Separated

section Run

variable {app : App} {endpoint : WebhookConfig} {subject : Subject} {batchMs graceMs slot : Nat}
  {w : Debounce} {occupancy : Bool → Occupancy}

/-- The invariant, on what the system holds. -/
def Debounce.Separated (subject : Subject) (slot : Nat) (w : Debounce) : Prop :=
  Webhook.Separated ((received subject.app slot w.posted).filterMap subject.sense)
    ((w.batch ++ w.mailbox).filterMap subject.sense)
    ((w.due.map Prod.snd).filterMap subject.sense) w.present

theorem Debounce.Separated.edge (h : w.Separated subject slot)
    (hok : Spaced subject w .edge) : (w.edge subject).Separated subject slot := by
  unfold Debounce.Separated at h ⊢
  cases hpresent : w.present with
  | false =>
    simpa [Debounce.edge, hpresent, ← List.append_assoc] using h.arrive
  | true =>
    rw [hpresent] at h
    have hnone : ∀ e ∈ (w.batch ++ w.mailbox).filterMap subject.sense ++
        (w.due.map Prod.snd).filterMap subject.sense, e ≠ .down := by
      rintro e he rfl
      rw [← List.filterMap_append] at he
      obtain ⟨e', he', hdown⟩ := List.mem_filterMap.mp he
      exact hok hpresent e' he' hdown
    simpa [Debounce.edge, hpresent, ← List.append_assoc] using h.depart hnone

theorem Debounce.Separated.recv (h : w.Separated subject slot) :
    (w.recv batchMs).Separated subject slot := by
  have hcoming : (w.recv batchMs).batch ++ (w.recv batchMs).mailbox = w.batch ++ w.mailbox := by
    unfold Debounce.recv
    split
    · rfl
    · rename_i hmail
      split
      · simp_all
      · split <;> simp [hmail]
  have hrest : (w.recv batchMs).posted = w.posted ∧ (w.recv batchMs).due = w.due ∧
      (w.recv batchMs).present = w.present := by
    unfold Debounce.recv
    split
    · exact ⟨rfl, rfl, rfl⟩
    · split
      · exact ⟨rfl, rfl, rfl⟩
      · split <;> exact ⟨rfl, rfl, rfl⟩
  unfold Debounce.Separated at h ⊢
  rwa [hcoming, hrest.1, hrest.2.1, hrest.2.2]

theorem Debounce.Separated.flush (hgrace : 0 < graceMs)
    (hslot : app.webhooks[slot]? = some endpoint)
    (harrival : endpoint.lists subject.arrival = true) (h : w.Separated subject slot)
    (others : String → Option (AppLookup App)) (order : List String) :
    (w.flush app subject graceMs others order).Separated subject slot := by
  unfold Debounce.flush
  split
  · rename_i hready
    have hwalk := enumerates_group hready.2.2.1 hready.2.2.2
    unfold Debounce.Separated at h ⊢
    rw [List.filterMap_append] at h
    simp only [received_append, List.filterMap_append, List.map_append, List.map_map,
      senses_flush hgrace hslot harrival hwalk, List.nil_append]
    have hflush := h.flush
    rw [← @senses_deferred app subject graceMs hgrace _ _ hwalk others fun _ => w.now] at hflush
    simpa [Function.comp_def] using hflush
  · exact h

/-- A departure is posted only while its subject is away. -/
theorem Debounce.Separated.fire (hslot : app.webhooks[slot]? = some endpoint)
    (hdeparture : endpoint.lists subject.departure = true)
    (htruthful : ∀ present, isBack (some (occupancy present)) subject.departure = present)
    (h : w.Separated subject slot) (i : Nat) (others : String → Option (AppLookup App)) :
    (w.fire app occupancy subject i others).Separated subject slot := by
  unfold Debounce.fire
  split
  · rename_i t e hdue
    split
    · obtain ⟨hi, hget⟩ := List.getElem?_eq_some_iff.mp hdue
      have hsplit : w.due = w.due.take i ++ (t, e) :: w.due.drop (i + 1) := by
        rw [← hget, List.getElem_cons_drop, List.take_append_drop]
      unfold Debounce.Separated at h ⊢
      dsimp only
      rw [received_append, List.filterMap_append, List.eraseIdx_eq_take_drop_succ]
      by_cases hsense : subject.sense e = none
      · -- a task of something else
        have hsilent : (received subject.app slot (graceTask (some (occupancy w.present))
            (storeWith app subject others e.app) w.now e)).filterMap subject.sense = [] := by
          refine List.filterMap_eq_nil_iff.mpr fun e' he' => ?_
          obtain ⟨d, hd, he'⟩ := List.mem_flatMap.mp he'
          rw [mem_graceTask (List.mem_of_mem_filter hd) he', hsense]
        rw [hsplit] at h
        rw [hsilent]
        simpa [hsense] using h
      · -- the waiting events that say something of the subject are departures
        have hdown : e = subject.departure := by
          rcases subject.sense_cases e with hnone | rfl | rfl
          · exact absurd hnone hsense
          · have hin : Edge.up ∈ (w.due.map Prod.snd).filterMap subject.sense :=
              List.mem_filterMap.mpr ⟨_, List.mem_map_of_mem (hget ▸ List.getElem_mem hi),
                subject.sense_arrival⟩
            exact absurd (h.downs _ hin) (by decide)
          · rfl
        subst hdown
        rw [received_graceTask hslot hdeparture, htruthful]
        have hlen : ((w.due.map Prod.snd).filterMap subject.sense).length =
            (((w.due.take i ++ w.due.drop (i + 1)).map Prod.snd).filterMap
              subject.sense).length + 1 := by
          conv_lhs => rw [hsplit]
          simp [Nat.add_assoc]
        have hfire := h.fire hlen
        cases hpresent : w.present <;> simpa [hpresent] using hfire
    · exact h
  · exact h

/-- Every step of a spaced run keeps the endpoint's departures apart. -/
theorem Debounce.Separated.step (hgrace : 0 < graceMs)
    (hslot : app.webhooks[slot]? = some endpoint)
    (harrival : endpoint.lists subject.arrival = true)
    (hdeparture : endpoint.lists subject.departure = true)
    (htruthful : ∀ present, isBack (some (occupancy present)) subject.departure = present)
    (h : w.Separated subject slot) {a : DebounceAct} (hok : Spaced subject w a) :
    (w.step app occupancy subject batchMs graceMs a).Separated subject slot := by
  cases a with
  | edge => exact h.edge hok
  | other e =>
    simp only [Debounce.step, Debounce.other]
    split
    · rename_i hnone
      unfold Debounce.Separated at h ⊢
      simpa [hnone] using h
    · exact h
  | recv => exact h.recv
  | flush others order => exact h.flush hgrace hslot harrival others order
  | fire i others => exact h.fire hslot hdeparture htruthful i others
  | pass => exact h

end Run

/-- In every run whose departures find none of an earlier one on its way, any endpoint
that lists both types gets an arrival between any two departures. -/
theorem departures_separated (app : App) (occupancy : Bool → Occupancy) (subject : Subject)
    (batchMs graceMs slot : Nat) {endpoint : WebhookConfig} (hgrace : 0 < graceMs)
    (hslot : app.webhooks[slot]? = some endpoint)
    (harrival : endpoint.lists subject.arrival = true)
    (hdeparture : endpoint.lists subject.departure = true)
    (htruthful : ∀ present, isBack (some (occupancy present)) subject.departure = present)
    (present : Bool) (as : List DebounceAct)
    (has : Along (Debounce.step app occupancy subject batchMs graceMs) (Spaced subject)
      { present } as)
    {x y z : List Event}
    (hsent : received subject.app slot
        (run (Debounce.step app occupancy subject batchMs graceMs) { present } as).posted =
      x ++ subject.departure :: (y ++ subject.departure :: z)) : subject.arrival ∈ y := by
  have hinit : Debounce.Separated subject slot { present } :=
    ⟨List.isChain_nil, Nat.zero_le 1, by simp, by simp, by simp [received]⟩
  have hrun := has.invariant
    (fun w a h hok => Debounce.Separated.step hgrace hslot harrival hdeparture htruthful h hok)
    hinit
  have happart : DownsApart ((x ++ subject.departure :: (y ++ subject.departure :: z)).filterMap
      subject.sense) := hsent ▸ (List.isChain_append.mp hrun.apart).1
  simp only [List.filterMap_append, List.filterMap_cons, Subject.sense_departure] at happart
  obtain ⟨e, he, hup⟩ := List.mem_filterMap.mp happart.up_mem
  exact Subject.eq_arrival_of_sense hup ▸ he

/-! ## Runs -/

/-- A second endpoint is for both types of a channel. -/
def bothApp : App :=
  { id := "a", key := "k", secret := "x",
    webhooks := [⟨"members", ["member_added"], ∅⟩,
      ⟨"hook", ["channel_occupied", "channel_vacated"], ∅⟩] }

/-- One subscriber or none. -/
def oneOrNone (present : Bool) : Occupancy :=
  ⟨fun _ => if present then 1 else 0, fun _ _ => present⟩

/-- A change of the channel that is taken at once and flushed when its window is over. -/
def flushedEdge : List DebounceAct :=
  [.edge, .recv, .pass 50, .flush (fun _ => none) ["a"]]

/-- The names the endpoint gets of a channel that is occupied at first, with a window of
50 and a grace of 3000. -/
def delivered (as : List DebounceAct) : List String :=
  (received "a" 1 (run (Debounce.step bothApp oneOrNone (.channel ("a", "c")) 50 3000)
    { present := true } as).posted).map WebhookEvent.name

/-- Vacated, fired, occupied, vacated again, fired. -/
def spacedRun : List DebounceAct :=
  flushedEdge ++ [.pass 3000, .fire 0 fun _ => none] ++ flushedEdge ++ flushedEdge ++
    [.pass 3000, .fire 0 fun _ => none]

theorem departures_separated_spaced :
    delivered spacedRun = ["channel_vacated", "channel_occupied", "channel_vacated"] ∧
      (Subject.channel ("a", "c")).arrival ∈ [(Subject.channel ("a", "c")).arrival] := by
  refine ⟨by decide, ?_⟩
  exact departures_separated bothApp oneOrNone (.channel ("a", "c")) 50 3000 1 (by decide) rfl rfl
    rfl (fun present => by cases present <;> rfl) true spacedRun (by decide) (x := []) (z := []) rfl

/-- Vacated at 0, occupied at 1500 and vacated at 3020, a grace after the first: its task
is due at 3050, behind the window, and finds the channel empty, as the one due at 6070
does. -/
theorem departures_adjacent :
    delivered (flushedEdge ++ [.pass 1450] ++ flushedEdge ++ [.pass 1470, .edge, .recv, .pass 30,
      .fire 0 fun _ => none, .pass 20, .flush (fun _ => none) ["a"], .pass 3000,
      .fire 0 fun _ => none]) =
      ["channel_occupied", "channel_vacated", "channel_vacated"] := by
  decide

end Pylon.Webhook
