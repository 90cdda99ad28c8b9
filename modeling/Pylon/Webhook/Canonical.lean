import Mathlib.Data.List.Sort
import Mathlib.Data.String.Basic
import Pylon.Webhook.Delivery

/-!
# Webhook bodies are canonical

`serde_json` may keep the keys of an object in insertion order, so two equal
payloads can be written differently. `sort_keys` fixes the order at every depth
before the body is signed.

* **values** — JSON whose objects have unique keys, as a map guarantees;
* **alike** — equal up to the order of object keys at every depth;
* **canonical** — alike values have one sorted form, which is alike to both and
  sorted already, so their deliveries carry the same body and signature.
-/

namespace Pylon.Webhook

namespace Json

/-! ## Sorting by a unique key -/

section SortByKey

variable {α κ : Type*} [LinearOrder κ] (key : α → κ)

theorem pairwise_sortByKey (l : List α) :
    (l.mergeSort fun a b => decide (key a ≤ key b)).Pairwise fun a b => key a ≤ key b := by
  have htrans (a b c : α) : decide (key a ≤ key b) → decide (key b ≤ key c) →
      decide (key a ≤ key c) := by
    simpa only [decide_eq_true_eq] using le_trans
  have htotal (a b : α) : decide (key a ≤ key b) || decide (key b ≤ key a) := by
    simpa using le_total (key a) (key b)
  simpa using List.pairwise_mergeSort htrans htotal l

/-- With unique keys the sorted order does not depend on the order before. -/
theorem sortByKey_eq_of_perm {l l' : List α} (hperm : l.Perm l') (hunique : (l.map key).Nodup) :
    (l.mergeSort fun a b => decide (key a ≤ key b)) =
      l'.mergeSort fun a b => decide (key a ≤ key b) := by
  refine List.Perm.eq_of_pairwise (fun a b ha hb hab hba => ?_) (pairwise_sortByKey key l)
    (pairwise_sortByKey key l')
    ((List.mergeSort_perm l _).trans (hperm.trans (List.mergeSort_perm l' _).symm))
  have ha : a ∈ l := List.mem_mergeSort.mp ha
  have hb : b ∈ l := hperm.mem_iff.mpr (List.mem_mergeSort.mp hb)
  exact List.inj_on_of_nodup_map hunique ha hb (le_antisymm hab hba)

end SortByKey

/-! ## Values -/

mutual

/-- No object has a key twice. -/
def UniqueKeys : Json → Prop
  | null | bool _ | num _ | str _ => True
  | arr items => UniqueItems items
  | obj fields => (fields.map Prod.fst).Nodup ∧ UniqueFields fields

def UniqueItems : List Json → Prop
  | [] => True
  | item :: items => item.UniqueKeys ∧ UniqueItems items

def UniqueFields : List (String × Json) → Prop
  | [] => True
  | (_, value) :: fields => value.UniqueKeys ∧ UniqueFields fields

end

mutual

/-- Equal up to the order of object keys, at every depth. -/
inductive Alike : Json → Json → Prop
  | null : Alike null null
  | bool (b : Bool) : Alike (bool b) (bool b)
  | num (text : String) : Alike (num text) (num text)
  | str (s : String) : Alike (str s) (str s)
  | arr {items items' : List Json} (h : AlikeItems items items') : Alike (arr items) (arr items')
  | obj {fields mid fields' : List (String × Json)} (h : AlikeFields fields mid)
      (hperm : mid.Perm fields') : Alike (obj fields) (obj fields')

inductive AlikeItems : List Json → List Json → Prop
  | nil : AlikeItems [] []
  | cons {item item' : Json} {items items' : List Json} (h : Alike item item')
      (hs : AlikeItems items items') : AlikeItems (item :: items) (item' :: items')

/-- The same keys in the same order, with values that are alike. -/
inductive AlikeFields : List (String × Json) → List (String × Json) → Prop
  | nil : AlikeFields [] []
  | cons {key : String} {value value' : Json} {fields fields' : List (String × Json)}
      (h : Alike value value') (hs : AlikeFields fields fields') :
      AlikeFields ((key, value) :: fields) ((key, value') :: fields')

end

theorem uniqueFields_iff (fields : List (String × Json)) :
    UniqueFields fields ↔ ∀ field ∈ fields, field.2.UniqueKeys := by
  induction fields with
  | nil => simp [UniqueFields]
  | cons field _ ih =>
    obtain ⟨key, value⟩ := field
    simp [UniqueFields, ih]

theorem UniqueFields.perm {fields fields' : List (String × Json)} (h : UniqueFields fields)
    (hperm : fields.Perm fields') : UniqueFields fields' := by
  rw [uniqueFields_iff] at h ⊢
  intro field hfield
  exact h field (hperm.mem_iff.mpr hfield)

theorem sortFields_eq_map (fields : List (String × Json)) :
    sortFields fields = fields.map fun field => (field.1, field.2.sortKeys) := by
  induction fields with
  | nil => rfl
  | cons _ _ ih => simp [sortFields, ih]

theorem keys_sortFields (fields : List (String × Json)) :
    (sortFields fields).map Prod.fst = fields.map Prod.fst := by
  simp [sortFields_eq_map]

theorem AlikeFields.keys_eq {fields fields' : List (String × Json)}
    (h : AlikeFields fields fields') : fields.map Prod.fst = fields'.map Prod.fst := by
  induction fields generalizing fields' with
  | nil => cases h; rfl
  | cons _ _ ih =>
    cases h with
    | cons _ hs => simp [ih hs]

/-! ## The sorted form is alike -/

mutual

/-- Sorting changes nothing but the order of keys. -/
theorem alike_sortKeys : (j : Json) → Alike j j.sortKeys
  | .null => .null
  | .bool b => .bool b
  | .num text => .num text
  | .str s => .str s
  | .arr items => .arr (alikeItems_sortItems items)
  | .obj fields => .obj (alikeFields_sortFields fields) (List.mergeSort_perm _ _).symm

theorem alikeItems_sortItems : (items : List Json) → AlikeItems items (sortItems items)
  | [] => .nil
  | item :: items => .cons (alike_sortKeys item) (alikeItems_sortItems items)

theorem alikeFields_sortFields :
    (fields : List (String × Json)) → AlikeFields fields (sortFields fields)
  | [] => .nil
  | (_, value) :: fields => .cons (alike_sortKeys value) (alikeFields_sortFields fields)

end

/-! ## Alike values have one sorted form -/

mutual

theorem Alike.uniqueKeys {a b : Json} : Alike a b → a.UniqueKeys → b.UniqueKeys
  | .null, h | .bool _, h | .num _, h | .str _, h => h
  | .arr halike, h => halike.uniqueItems h
  | .obj halike hperm, h =>
    ⟨(hperm.map Prod.fst).nodup_iff.mp (halike.keys_eq ▸ h.1),
      (halike.uniqueFields h.2).perm hperm⟩

theorem AlikeItems.uniqueItems {xs ys : List Json} :
    AlikeItems xs ys → UniqueItems xs → UniqueItems ys
  | .nil, h => h
  | .cons halike hs, h => ⟨halike.uniqueKeys h.1, hs.uniqueItems h.2⟩

theorem AlikeFields.uniqueFields {xs ys : List (String × Json)} :
    AlikeFields xs ys → UniqueFields xs → UniqueFields ys
  | .nil, h => h
  | .cons halike hs, h => ⟨halike.uniqueKeys h.1, hs.uniqueFields h.2⟩

end

mutual

/-- The order of the keys is forgotten. -/
theorem Alike.sortKeys_eq {a b : Json} : Alike a b → a.UniqueKeys → a.sortKeys = b.sortKeys
  | .null, _ | .bool _, _ | .num _, _ | .str _, _ => rfl
  | .arr halike, h => by rw [sortKeys, sortKeys, halike.sortItems_eq h]
  | .obj halike hperm, h => by
    rw [sortKeys, sortKeys, halike.sortFields_eq h.2]
    refine congrArg Json.obj (sortByKey_eq_of_perm Prod.fst ?_ ?_)
    · simpa only [sortFields_eq_map] using hperm.map _
    · rw [keys_sortFields, ← halike.keys_eq]
      exact h.1

theorem AlikeItems.sortItems_eq {xs ys : List Json} :
    AlikeItems xs ys → UniqueItems xs → sortItems xs = sortItems ys
  | .nil, _ => rfl
  | .cons halike hs, h => by
    rw [sortItems, sortItems, halike.sortKeys_eq h.1, hs.sortItems_eq h.2]

theorem AlikeFields.sortFields_eq {xs ys : List (String × Json)} :
    AlikeFields xs ys → UniqueFields xs → sortFields xs = sortFields ys
  | .nil, _ => rfl
  | .cons halike hs, h => by
    rw [sortFields, sortFields, halike.sortKeys_eq h.1, hs.sortFields_eq h.2]

end

end Json

/-- JSON as a map-backed value holds it. -/
abbrev Value := { j : Json // j.UniqueKeys }

namespace Value

def sortKeys (v : Value) : Value := ⟨v.1.sortKeys, (Json.alike_sortKeys v.1).uniqueKeys v.2⟩

def Alike (v w : Value) : Prop := Json.Alike v.1 w.1

theorem sortKeys_eq {v w : Value} (h : v.Alike w) : v.sortKeys = w.sortKeys :=
  Subtype.ext (Json.Alike.sortKeys_eq h v.2)

theorem alike_sortKeys (v : Value) : v.Alike v.sortKeys := Json.alike_sortKeys v.1

theorem sortKeys_sortKeys (v : Value) : v.sortKeys.sortKeys = v.sortKeys :=
  (sortKeys_eq v.alike_sortKeys).symm

theorem sortItems_eq {vs ws : List Value} (h : List.Forall₂ Alike vs ws) :
    Json.sortItems (vs.map Subtype.val) = Json.sortItems (ws.map Subtype.val) := by
  induction h with
  | nil => rfl
  | cons hhead _ ih =>
    have hitem := congrArg Subtype.val (sortKeys_eq hhead)
    simp only [List.map_cons, Json.sortItems, ih]
    exact congrArg (· :: _) hitem

end Value

/-! ## Deliveries -/

/-- The body is a function of the sorted events. -/
theorem body_eq_of_sortItems {events events' : List Json}
    (h : Json.sortItems events = Json.sortItems events') (hmac : String → String → String)
    (url appKey secret : String) (timeMs : Nat) (custom : Std.TreeMap String String) :
    (buildSignedDelivery hmac url appKey secret timeMs events custom).body =
      (buildSignedDelivery hmac url appKey secret timeMs events' custom).body := by
  simp only [buildSignedDelivery, Json.sortKeys, Json.sortFields, h]

/-- Events that differ in the order of object keys only are posted with the same
body under the same signature, that of the body, since sorting picks one value among
those that are alike, and picks itself again. -/
theorem signed_body_canonical (hmac : String → String → String) (url appKey secret : String)
    (timeMs : Nat) (custom : Std.TreeMap String String) :
    (∀ events events' : List Value, List.Forall₂ Value.Alike events events' →
      let d := buildSignedDelivery hmac url appKey secret timeMs (events.map Subtype.val) custom
      let d' := buildSignedDelivery hmac url appKey secret timeMs (events'.map Subtype.val) custom
      d.body = d'.body ∧
        d.headers["X-Pusher-Signature"]? = some (hmac secret d.body) ∧
        d'.headers["X-Pusher-Signature"]? = some (hmac secret d.body)) ∧
    ∀ v : Value, v.sortKeys.sortKeys = v.sortKeys ∧ v.Alike v.sortKeys := by
  refine ⟨fun events events' h => ?_, fun v => ⟨v.sortKeys_sortKeys, v.alike_sortKeys⟩⟩
  have hbody := body_eq_of_sortItems (Value.sortItems_eq h) hmac url appKey secret timeMs custom
  refine ⟨hbody, buildSignedDelivery_signature .., ?_⟩
  rw [buildSignedDelivery_signature, hbody]

/-- An event with a nested object, in two orders. -/
def joined : Value :=
  ⟨.obj [("name", .str "member_added"), ("user", .obj [("id", .str "u"), ("age", .num "3")])],
    by simp [Json.UniqueKeys, Json.UniqueFields]⟩

def joinedTurned : Value :=
  ⟨.obj [("user", .obj [("age", .num "3"), ("id", .str "u")]), ("name", .str "member_added")],
    by simp [Json.UniqueKeys, Json.UniqueFields]⟩

theorem joined_alike : joined.Alike joinedTurned := by
  have huser : Json.Alike (.obj [("id", .str "u"), ("age", .num "3")])
      (.obj [("age", .num "3"), ("id", .str "u")]) :=
    .obj (.cons (.str "u") (.cons (.num "3") .nil)) (List.Perm.swap _ _ _)
  exact .obj (.cons (.str "member_added") (.cons huser .nil)) (List.Perm.swap _ _ _)

theorem signed_body_canonical_turned :
    let hmac := fun secret body => secret ++ body
    joined ≠ joinedTurned ∧
      (buildSignedDelivery hmac "https://e.test/wh" "k" "s" 1 [joined.1] {}).body =
        (buildSignedDelivery hmac "https://e.test/wh" "k" "s" 1 [joinedTurned.1] {}).body :=
  ⟨fun h => by simpa [joined, joinedTurned] using congrArg Subtype.val h,
    ((signed_body_canonical (fun secret body => secret ++ body) "https://e.test/wh" "k" "s" 1 {}).1
      [joined] [joinedTurned] (.cons joined_alike .nil)).1⟩

end Pylon.Webhook
