import Mathlib.Data.String.Basic
import Pylon.Lib.Hash
import Pylon.Lib.Separated

/-!
# Signed REST requests

`auth/rest.rs`. A request carries its signature among its query parameters; the
signature is an HMAC of `<METHOD>\n<path>\n<query>`, the query being the other
parameters with their keys in lower case, sorted, and joined `k=v&…`.

The checks of `verify` read the parameters as they came, and so do the handlers;
the signature covers the lowered and joined text, in which nothing is escaped.

* **the body** — the text carries no md5 but the body's exactly for a `BodyBound`
  request, each of whose parameters, as the text spells it, reads as no other md5;
* **the parameters** — two requests with one signature have the same parameters
  exactly when they have the same names, and values with as many `&`;
* **plain requests** — with keys in lower case and no separator in keys and values —
  are bound in both ways.

The digests and the case mappings of the standard library are parameters.
-/

namespace Pylon.Auth

open Pylon.Lib

/-! ## The check -/

inductive RestAuthError where
  | missingParam
  | badVersion
  | keyMismatch
  | expired
  | badBodyMd5
  | badSignature
  | caseCollidingParams
  deriving DecidableEq, Repr

/-- The library functions `verify` calls. -/
structure Primitives where
  hmac : String → String → String
  md5 : List UInt8 → String
  toLowercase : String → String
  toUppercase : String → String

/-- A request as `verify` gets it. `order` is the order its parameter map is
iterated in. -/
structure Request where
  method : String
  path : String
  params : Hash String String
  order : List (String × String)
  enumerates : params.Enumerates order
  body : List UInt8

/-- `str::parse::<u64>`: an optional plus sign and digits, below `2 ^ 64`. -/
def parseU64 (s : String) : Option Nat :=
  let digits := if s.toList.head? = some '+' then s.toList.tail else s.toList
  if digits = [] ∨ ¬ digits.all Char.isDigit then none
  else
    let n := digits.foldl (fun n c => n * 10 + (c.toNat - '0'.toNat)) 0
    if n < 2 ^ 64 then some n else none

/-- A parameter as the signed text spells it. -/
def chars (p : String × String) : List Char × List Char := (p.1.toList, p.2.toList)

theorem chars_injective : Function.Injective chars := by
  rintro ⟨k, v⟩ ⟨k', v'⟩ heq
  obtain ⟨hk, hv⟩ := Prod.mk.inj heq
  exact Prod.ext (String.toList_inj.mp hk) (String.toList_inj.mp hv)

theorem chars_ofList (entry : List Char × List Char) :
    chars (String.ofList entry.1, String.ofList entry.2) = entry := by
  simp [chars]

theorem ofList_chars (e : String × String) :
    String.ofList (chars e).1 = e.1 ∧ String.ofList (chars e).2 = e.2 := by
  simp [chars]

/-- The query part of the signed text. -/
def signingQuery (params : Std.TreeMap String String) : List Char :=
  Separated.join '&' '=' (params.toList.map chars)

/-- The exact string that is signed. -/
def signingString (p : Primitives) (method path : String) (params : Std.TreeMap String String) :
    String :=
  p.toUppercase method ++ "\n" ++ path ++ "\n" ++ String.ofList (signingQuery params)

theorem signingString_toList (p : Primitives) (method path : String)
    (params : Std.TreeMap String String) :
    (signingString p method path params).toList =
      (p.toUppercase method).toList ++ '\n' :: (path.toList ++ '\n' :: signingQuery params) := by
  simp [signingString]

/-- The loop that lowers the keys; two keys that differ only by case end it. -/
def lowered (toLowercase : String → String) :
    List (String × String) → Std.TreeMap String String → Option (Std.TreeMap String String)
  | [], signed => some signed
  | (k, v) :: rest, signed =>
    if signed.contains (toLowercase k) then none
    else lowered toLowercase rest (signed.insert (toLowercase k) v)

namespace Request

def get (req : Request) (k : String) : Option String := req.params.hget k

/-- The parameters the signature covers; `none` if two keys collide. -/
def signed (p : Primitives) (req : Request) : Option (Std.TreeMap String String) :=
  (lowered p.toLowercase req.order ∅).map (·.erase "auth_signature")

/-- The signature the request should carry. -/
def signature (p : Primitives) (appSecret : String) (req : Request)
    (signed : Std.TreeMap String String) : String :=
  p.hmac appSecret (signingString p req.method req.path signed)

/-- The query part of the text the signature covers. -/
def signedText (p : Primitives) (req : Request) : Option (List Char) :=
  (req.signed p).map signingQuery

end Request

/-- `auth::rest::verify`. -/
def verifyRest (p : Primitives) (appKey appSecret : String) (req : Request) (now window : Nat) :
    Except RestAuthError Unit :=
  if req.get "auth_version" ≠ some "1.0" then .error .badVersion
  else if (req.get "auth_key").getD "" ≠ appKey then .error .keyMismatch
  else
    match (req.get "auth_timestamp").bind parseU64 with
    | none => .error .missingParam
    | some ts =>
      if window < (now - ts) + (ts - now) then .error .expired
      -- a committed `body_md5` is checked against an empty body too
      else if (req.body ≠ [] ∨ (req.get "body_md5").isSome) ∧
          req.get "body_md5" ≠ some (p.md5 req.body) then .error .badBodyMd5
      else
        match req.get "auth_signature" with
        | none => .error .missingParam
        | some signature =>
          match req.signed p with
          | none => .error .caseCollidingParams
          | some signed =>
            if signature = req.signature p appSecret signed then .ok ()
            else .error .badSignature

/-- What an accepted request passed: the body check and the signature check. -/
theorem verifyRest_ok {p : Primitives} {appKey appSecret : String} {req : Request}
    {now window : Nat} (h : verifyRest p appKey appSecret req now window = .ok ()) :
    (req.body = [] ∧ req.get "body_md5" = none ∨ req.get "body_md5" = some (p.md5 req.body)) ∧
      ∃ signed, req.signed p = some signed ∧
        req.get "auth_signature" = some (req.signature p appSecret signed) := by
  unfold verifyRest at h
  iterate 5
    split at h
    · cases h
  rename_i hbody
  split at h
  · cases h
  · rename_i signature hsignature
    split at h
    · cases h
    · rename_i signed hsigned
      split_ifs at h with heq
      refine ⟨?_, signed, hsigned, hsignature.trans (congrArg some heq)⟩
      cases hmd5 : req.get "body_md5" with
      | none =>
        rw [hmd5] at hbody
        exact .inl ⟨by simpa using hbody, rfl⟩
      | some =>
        rw [hmd5] at hbody
        exact .inr (by simpa using hbody)

/-! ## What the signature covers -/

section Lowered

variable {toLowercase : String → String}

/-- The signed map holds every parameter under its lowered key. -/
theorem lowered_getElem {pairs : List (String × String)} {m signed : Std.TreeMap String String}
    (h : lowered toLowercase pairs m = some signed) (k v : String) :
    signed[k]? = some v ↔ m[k]? = some v ∨ ∃ raw, (raw, v) ∈ pairs ∧ toLowercase raw = k := by
  induction pairs generalizing m with
  | nil =>
    cases h
    simp
  | cons p _ ih =>
    obtain ⟨raw₀, v₀⟩ := p
    rw [lowered] at h
    split_ifs at h with hfree
    have hnone : m[toLowercase raw₀]? = none := by
      rw [Std.TreeMap.contains_eq_isSome_getElem?] at hfree
      exact Option.not_isSome_iff_eq_none.mp hfree
    rw [ih h, Std.TreeMap.getElem?_insert]
    constructor
    · rintro (hm | ⟨raw, hmem, hraw⟩)
      · split_ifs at hm with hk
        · obtain rfl : toLowercase raw₀ = k := Std.LawfulEqOrd.eq_of_compare hk
          obtain rfl : v₀ = v := Option.some.inj hm
          exact .inr ⟨raw₀, List.mem_cons_self, rfl⟩
        · exact .inl hm
      · exact .inr ⟨raw, List.mem_cons_of_mem _ hmem, hraw⟩
    · rintro (hm | ⟨raw, hmem, hraw⟩)
      · refine .inl ?_
        rw [if_neg]
        · exact hm
        · intro hk
          rw [Std.LawfulEqOrd.eq_of_compare hk, hm] at hnone
          cases hnone
      · rcases List.mem_cons.mp hmem with heq | hmem
        · obtain ⟨rfl, rfl⟩ := Prod.mk.inj heq
          exact .inl (by rw [if_pos (Std.LawfulEqOrd.compare_eq_iff_eq.mpr hraw)])
        · exact .inr ⟨raw, hmem, hraw⟩

/-- No two keys that were lowered are lowered to one. -/
theorem lowered_nodup {pairs : List (String × String)} {m signed : Std.TreeMap String String}
    (h : lowered toLowercase pairs m = some signed) :
    (pairs.map fun e => toLowercase e.1).Nodup ∧
      ∀ e ∈ pairs, m.contains (toLowercase e.1) = false := by
  induction pairs generalizing m with
  | nil => simp
  | cons e₀ pairs ih =>
    rw [lowered] at h
    split_ifs at h with hfree
    obtain ⟨hnodup, hrest⟩ := ih h
    simp only [Std.TreeMap.contains_insert, Bool.or_eq_false_iff] at hrest
    refine ⟨List.nodup_cons.mpr ⟨fun hmem => ?_, hnodup⟩, fun e he => ?_⟩
    · obtain ⟨e, he, heq⟩ := List.mem_map.mp hmem
      have hne := (hrest e he).1
      rw [heq] at hne
      simp at hne
    · rcases List.mem_cons.mp he with rfl | he
      · exact Bool.eq_false_iff.mpr hfree
      · exact (hrest e he).2

end Lowered

namespace Request

variable {p : Primitives} {req : Request} {signed : Std.TreeMap String String}

/-- The signed map holds every parameter but the signature, under its lowered key. -/
theorem signed_getElem (h : req.signed p = some signed) {k : String} (hk : k ≠ "auth_signature")
    (v : String) :
    signed[k]? = some v ↔ ∃ raw, req.get raw = some v ∧ p.toLowercase raw = k := by
  obtain ⟨all, hall, rfl⟩ := Option.map_eq_some_iff.mp h
  rw [Std.TreeMap.getElem?_erase, if_neg fun hcmp => hk (Std.LawfulEqOrd.eq_of_compare hcmp).symm,
    lowered_getElem hall]
  simp only [Std.TreeMap.getElem?_emptyc, reduceCtorEq, false_or, req.enumerates.mem_iff]
  rfl

/-- A name is found by its lowered form. -/
theorem eq_of_lowered (h : req.signed p = some signed) {k k' v v' : String}
    (hk : req.get k = some v) (hk' : req.get k' = some v')
    (heq : p.toLowercase k = p.toLowercase k') : k = k' := by
  obtain ⟨all, hall, -⟩ := Option.map_eq_some_iff.mp h
  have hpair := List.inj_on_of_nodup_map (lowered_nodup hall).1
    (req.enumerates.mem_iff.mpr hk) (req.enumerates.mem_iff.mpr hk') heq
  exact (Prod.mk.inj hpair).1

theorem signed_signature (h : req.signed p = some signed) : signed["auth_signature"]? = none := by
  obtain ⟨all, -, rfl⟩ := Option.map_eq_some_iff.mp h
  simp

/-- The signed text says what the parameters say: keys are in lower case, and no
key or value holds a separator. -/
structure Plain (toLowercase : String → String) (req : Request) : Prop where
  lower : ∀ k v, req.get k = some v → toLowercase k = k
  clean : ∀ k v, req.get k = some v → k ≠ "auth_signature" →
    Separated.Clean '&' '=' (chars (k, v))

namespace Plain

variable (hplain : req.Plain p.toLowercase) (h : req.signed p = some signed)

include hplain h

/-- The signed map is the parameter map without the signature. -/
theorem signed_eq {k : String} (hk : k ≠ "auth_signature") : signed[k]? = req.get k := by
  refine Option.ext fun v => ?_
  rw [signed_getElem h hk]
  constructor
  · rintro ⟨raw, hraw, rfl⟩
    rwa [hplain.lower raw v hraw]
  · intro hget
    exact ⟨k, hget, hplain.lower k v hget⟩

theorem clean_signed : ∀ e ∈ signed.toList.map chars, Separated.Clean '&' '=' e := by
  rintro _ he
  obtain ⟨⟨k, v⟩, hmem, rfl⟩ := List.mem_map.mp he
  have hget := Std.TreeMap.mem_toList_iff_getElem?_eq_some.mp hmem
  have hk : k ≠ "auth_signature" := by
    rintro rfl
    rw [signed_signature h] at hget
    cases hget
  exact hplain.clean k v ((hplain.signed_eq h hk).symm.trans hget) hk

end Plain

end Request

/-! ## The entries of the text -/

/-- Each parameter, as the text spells it, reads as no md5 but the body's. -/
def Request.BodyBound (p : Primitives) (req : Request) : Prop :=
  ∀ e ∈ req.order, p.toLowercase e.1 ≠ "auth_signature" →
    ∀ entry ∈ Separated.entries '&' '=' (Separated.pair '=' (chars (p.toLowercase e.1, e.2))),
      String.ofList entry.1 = "body_md5" → String.ofList entry.2 = p.md5 req.body

instance (p : Primitives) (req : Request) : Decidable (req.BodyBound p) :=
  inferInstanceAs (Decidable (∀ _ ∈ _, _ → ∀ _ ∈ _, _ → _))

/-- The text reads as the parameters do, one by one. -/
theorem mem_entries_signed {p : Primitives} {req : Request} {signed : Std.TreeMap String String}
    (h : req.signed p = some signed) {entry : List Char × List Char} :
    entry ∈ Separated.entries '&' '=' (signingQuery signed) ↔
      ∃ e ∈ req.order, p.toLowercase e.1 ≠ "auth_signature" ∧
        entry ∈ Separated.entries '&' '='
          (Separated.pair '=' (chars (p.toLowercase e.1, e.2))) := by
  rw [signingQuery, Separated.entries_join, List.flatMap_map, List.mem_flatMap]
  constructor
  · rintro ⟨⟨k, v⟩, hmem, hentry⟩
    have hget := Std.TreeMap.mem_toList_iff_getElem?_eq_some.mp hmem
    have hk : k ≠ "auth_signature" := by
      rintro rfl
      rw [Request.signed_signature h] at hget
      cases hget
    obtain ⟨raw, hraw, rfl⟩ := (Request.signed_getElem h hk v).mp hget
    exact ⟨(raw, v), req.enumerates.mem_iff.mpr hraw, hk, hentry⟩
  · rintro ⟨⟨raw, v⟩, hmem, hk, hentry⟩
    refine ⟨(p.toLowercase raw, v), Std.TreeMap.mem_toList_iff_getElem?_eq_some.mpr ?_, hentry⟩
    exact (Request.signed_getElem h hk v).mpr ⟨raw, req.enumerates.mem_iff.mp hmem, rfl⟩

/-! ## Requests on the wire -/

/-- A request's parameters are its `order`, so that plainness can be evaluated. -/
theorem Request.Plain.of_order {toLowercase : String → String} {req : Request}
    (h : ∀ e ∈ req.order, toLowercase e.1 = e.1 ∧ (e.1 ≠ "auth_signature" →
      '=' ∉ e.1.toList ∧ '&' ∉ e.1.toList ∧ '&' ∉ e.2.toList)) : req.Plain toLowercase where
  lower k v hget := (h (k, v) (req.enumerates.mem_iff.mpr hget)).1
  clean k v hget hk :=
    have hclean := (h (k, v) (req.enumerates.mem_iff.mpr hget)).2 hk
    ⟨hclean.1, hclean.2.1, hclean.2.2⟩

/-- Digests that keep their whole input, and the case mappings of ASCII. -/
def transparent : Primitives where
  hmac _ message := message
  md5 body := String.ofList (body.map fun b => Char.ofNat b.toNat)
  toLowercase s := String.ofList (s.toList.map Char.toLower)
  toUppercase s := String.ofList (s.toList.map Char.toUpper)

/-- The parameter map of a list of parameters. -/
def paramsOf (pairs : List (String × String)) : Hash String String :=
  pairs.foldl (fun h e => h.hset e.1 e.2) ∅

/-- The parameters of a trigger whose other parameters are `extra`, signed as
`text`. -/
def triggerParams (extra : List (String × String)) (text : String) : List (String × String) :=
  [("auth_key", "k"), ("auth_timestamp", "9"), ("auth_version", "1.0"),
    ("auth_signature",
      "POST\n/events\nauth_key=k&auth_timestamp=9&auth_version=1.0&" ++ text)] ++ extra

/-- `POST /events`. -/
def trigger (order : List (String × String)) (body : List UInt8)
    (enumerates : (paramsOf order).Enumerates order) : Request :=
  { method := "POST", path := "/events", params := paramsOf order, order, enumerates, body }

/-- A trigger with the body `{}`. -/
def captured : Request :=
  trigger (triggerParams [("body_md5", "\x7b\x7d")] "body_md5=\x7b\x7d") [0x7b, 0x7d] (by decide)

/-- The same without its body, the key of its md5 written in capitals. -/
def stripped : Request :=
  trigger (triggerParams [("BODY_MD5", "\x7b\x7d")] "body_md5=\x7b\x7d") [] (by decide)

/-- A trigger with two parameters in its query. -/
def twoParams : Request :=
  trigger (triggerParams [("info", "a"), ("name", "b")] "info=a&name=b") [] (by decide)

/-- The same request, its parameters met in another order. -/
def reordered : Request :=
  trigger (triggerParams [("name", "b"), ("info", "a")] "info=a&name=b") [] (by decide)

/-- The same text from one parameter. -/
def oneParam : Request :=
  trigger (triggerParams [("info", "a&name=b")] "info=a&name=b") [] (by decide)

/-! ## The body -/

/-- A signed text speaks for a body: it carries its md5, or no md5 and the body
is empty. -/
def Vouches (p : Primitives) (text : List Char) (body : List UInt8) : Prop :=
  (∀ md5, chars ("body_md5", md5) ∈ Separated.entries '&' '=' text → md5 = p.md5 body) ∧
    ((∀ md5, chars ("body_md5", md5) ∉ Separated.entries '&' '=' text) → body = [])

/-- A text speaks for one body, up to its md5. -/
theorem Vouches.md5_eq {p : Primitives} {text : List Char} {body body' : List UInt8}
    (h : Vouches p text body) (h' : Vouches p text body') : p.md5 body = p.md5 body' := by
  by_cases hentry : ∃ md5, chars ("body_md5", md5) ∈ Separated.entries '&' '=' text
  · obtain ⟨md5, hmem⟩ := hentry
    rw [← h.1 md5 hmem, ← h'.1 md5 hmem]
  · rw [not_exists] at hentry
    rw [h.2 hentry, h'.2 hentry]

variable {p : Primitives} {appKey appSecret : String} {req : Request} {now window : Nat}

/-- The body check: what `body_md5` is in an accepted request. -/
def BodyChecked (p : Primitives) (req : Request) : Prop :=
  req.body = [] ∧ req.get "body_md5" = none ∨ req.get "body_md5" = some (p.md5 req.body)

/-- Whatever value it is given, a clean name reads as an entry of that name. -/
theorem exists_entry {name : String} (heq : '=' ∉ name.toList) (hamp : '&' ∉ name.toList)
    (value : String) :
    ∃ v, chars (name, v) ∈
      Separated.entries '&' '=' (Separated.pair '=' (chars (name, value))) := by
  obtain ⟨v, hmem⟩ :=
    Separated.exists_mem_entries_pair (by decide : '&' ≠ '=') heq hamp value.toList
  have hentry : chars (name, String.ofList v) = (name.toList, v) := by simp [chars]
  exact ⟨String.ofList v, hentry ▸ hmem⟩

/-- The text speaks for the body received just when the request is bound to it. A text
without an md5 needs no condition: the body is empty then. -/
theorem vouches_iff (hlower : p.toLowercase "body_md5" = "body_md5")
    (hbody : BodyChecked p req) {signed : Std.TreeMap String String}
    (hsigned : req.signed p = some signed) :
    Vouches p (signingQuery signed) req.body ↔ req.BodyBound p := by
  constructor
  · rintro ⟨hentries, -⟩ e he hsig entry hentry hname
    refine hentries _ ?_
    rw [← hname, chars_ofList]
    exact (mem_entries_signed hsigned).mpr ⟨e, he, hsig, hentry⟩
  · intro hbound
    refine ⟨fun md5 hmem => ?_, fun hnone => ?_⟩
    · obtain ⟨e, he, hsig, hentry⟩ := (mem_entries_signed hsigned).mp hmem
      have hmd5 := hbound e he hsig _ hentry (ofList_chars _).1
      rwa [(ofList_chars _).2] at hmd5
    · rcases hbody with ⟨hempty, -⟩ | hpresent
      · exact hempty
      · obtain ⟨md5, hmem⟩ :=
          exists_entry (by decide : '=' ∉ "body_md5".toList) (by decide) (p.md5 req.body)
        refine absurd ((mem_entries_signed hsigned).mpr ?_) (hnone md5)
        refine ⟨("body_md5", p.md5 req.body), req.enumerates.mem_iff.mpr hpresent, ?_, ?_⟩
        · rw [hlower]
          decide
        · rwa [hlower]

/-- A plain request is bound to its body: only `body_md5` itself reads as an md5. -/
theorem Request.Plain.bodyBound (hplain : req.Plain p.toLowercase) (hbody : BodyChecked p req) :
    req.BodyBound p := by
  intro e he hsig entry hentry hname
  have hget := req.enumerates.mem_iff.mp he
  have hlower := hplain.lower e.1 e.2 hget
  rw [hlower] at hsig hentry
  rw [Separated.entries_pair (by decide) (hplain.clean e.1 e.2 hget hsig),
    List.mem_singleton] at hentry
  subst hentry
  rw [(ofList_chars e).1] at hname
  rw [(ofList_chars e).2]
  rw [hname] at hget
  rcases hbody with ⟨-, habsent⟩ | hpresent
  · cases habsent.symm.trans hget
  · exact Option.some.inj (hget.symm.trans hpresent)

/-- The text signed by an accepted request speaks for the body received exactly if the
request is bound to its body, as plain ones are. Every body it was signed with then has
the md5 of the one received. -/
theorem rest_body_integrity (hlower : p.toLowercase "body_md5" = "body_md5")
    (haccepted : verifyRest p appKey appSecret req now window = .ok ()) :
    ∃ text, req.signedText p = some text ∧
      (Vouches p text req.body ↔ req.BodyBound p) ∧
      (req.BodyBound p → ∀ captured, Vouches p text captured →
        p.md5 captured = p.md5 req.body) ∧
      (req.Plain p.toLowercase → req.BodyBound p) := by
  obtain ⟨hbody, signed, hsigned, -⟩ := verifyRest_ok haccepted
  have hiff := vouches_iff hlower hbody hsigned
  exact ⟨signingQuery signed, by rw [Request.signedText, hsigned]; rfl, hiff,
    fun hbound captured hcaptured => hcaptured.md5_eq (hiff.mpr hbound),
    fun hplain => hplain.bodyBound hbody⟩

theorem rest_body_integrity_captured :
    verifyRest transparent "k" "s" captured 9 600 = .ok () ∧ captured.BodyBound transparent ∧
      ∃ text, captured.signedText transparent = some text ∧
        Vouches transparent text captured.body ∧ ∀ body, Vouches transparent text body →
          transparent.md5 body = transparent.md5 captured.body := by
  have haccepted : verifyRest transparent "k" "s" captured 9 600 = .ok () := by decide
  have hbound : captured.BodyBound transparent := by decide
  obtain ⟨text, htext, hiff, hbodies, -⟩ := rest_body_integrity (by decide) haccepted
  exact ⟨haccepted, hbound, text, htext, hiff.mpr hbound, hbodies hbound⟩

/-- `body_md5` is looked up as it is spelled here, and signed in lower case: with
its key in capitals the md5 still covers the signature and no longer the body. -/
theorem rest_body_stripped :
    verifyRest transparent "k" "s" captured 9 600 = .ok () ∧
      verifyRest transparent "k" "s" stripped 9 600 = .ok () ∧
      stripped.signedText transparent = captured.signedText transparent ∧
      captured.body ≠ [] ∧ stripped.body = [] ∧
      ¬ ∃ text, stripped.signedText transparent = some text ∧
        Vouches transparent text stripped.body := by
  refine ⟨by decide, by decide, by decide, by decide, rfl, ?_⟩
  rintro ⟨text, htext, hvouches⟩
  have hentry : ∀ text ∈ stripped.signedText transparent,
      chars ("body_md5", "\x7b\x7d") ∈ Separated.entries '&' '=' text := by decide
  exact absurd (hvouches.1 _ (hentry text htext)) (by decide)

/-! ## The parameters -/

/-- One signature is one text. -/
theorem signingQuery_eq (hinj : Function.Injective (p.hmac appSecret)) {req' : Request}
    {signed signed' : Std.TreeMap String String} (hmethod : req.method = req'.method)
    (hpath : req.path = req'.path)
    (hsignature : req.signature p appSecret signed = req'.signature p appSecret signed') :
    signingQuery signed = signingQuery signed' := by
  have hmessage := hinj hsignature
  rwa [signingString, signingString, hmethod, hpath, String.append_right_inj, String.ofList_inj]
    at hmessage

/-- Two parameter maps with the same names, and values with as many ampersands. -/
def SameShape (req req' : Request) : Prop :=
  ∀ k, k ≠ "auth_signature" → (req.get k).map (fun v => v.toList.count '&') =
    (req'.get k).map fun v => v.toList.count '&'

/-- The signed maps have one shape too: a name is lowered alike in both. -/
theorem SameShape.signed_toList (hlower : p.toLowercase "auth_signature" = "auth_signature")
    {req' : Request} (h : SameShape req req') {signed signed' : Std.TreeMap String String}
    (hsigned : req.signed p = some signed) (hsigned' : req'.signed p = some signed') :
    signed.toList.map (fun e => (e.1, e.2.toList.count '&')) =
      signed'.toList.map fun e => (e.1, e.2.toList.count '&') := by
  have hhalf : ∀ {req req' : Request} {signed signed' : Std.TreeMap String String},
      SameShape req req' → req.signed p = some signed → req'.signed p = some signed' →
      ∀ (k : String) (n : Nat), (signed[k]?).map (fun v : String => v.toList.count '&') = some n →
        (signed'[k]?).map (fun v : String => v.toList.count '&') = some n := by
    intro req req' signed signed' h hsigned hsigned' k n hn
    obtain ⟨v, hv, rfl⟩ := Option.map_eq_some_iff.mp hn
    have hk : k ≠ "auth_signature" := by
      rintro rfl
      rw [Request.signed_signature hsigned] at hv
      cases hv
    obtain ⟨raw, hraw, rfl⟩ := (Request.signed_getElem hsigned hk v).mp hv
    have hshape := h raw (by rintro rfl; exact hk hlower)
    rw [hraw, Option.map_some] at hshape
    obtain ⟨v', hv', hcount⟩ := Option.map_eq_some_iff.mp hshape.symm
    rw [(Request.signed_getElem hsigned' hk v').mpr ⟨raw, hv', rfl⟩, Option.map_some, hcount]
  have hequiv : (signed.map fun _ v => v.toList.count '&').Equiv
      (signed'.map fun _ v => v.toList.count '&') := by
    refine Std.TreeMap.Equiv.of_forall_constGet?_eq fun k => ?_
    have hboth : (signed[k]?).map (fun v : String => v.toList.count '&') =
        (signed'[k]?).map fun v : String => v.toList.count '&' :=
      Option.ext fun n => ⟨hhalf h hsigned hsigned' k n,
        hhalf (fun k hk => (h k hk).symm) hsigned' hsigned k n⟩
    simpa using hboth
  have hlists := hequiv.toList_eq
  rwa [Std.TreeMap.toList_map, Std.TreeMap.toList_map] at hlists

/-- Two accepted requests with one signature carry the same parameters exactly if their
maps have one shape, as those of plain requests have. -/
theorem rest_parameters_bound (hinj : Function.Injective (p.hmac appSecret))
    (hlower : p.toLowercase "auth_signature" = "auth_signature") {req' : Request}
    {appKey' : String} {now' window' : Nat}
    (haccepted : verifyRest p appKey appSecret req now window = .ok ())
    (haccepted' : verifyRest p appKey' appSecret req' now' window' = .ok ())
    (hmethod : req.method = req'.method) (hpath : req.path = req'.path)
    (hsignature : req.get "auth_signature" = req'.get "auth_signature") :
    ((∀ k, k ≠ "auth_signature" → req.get k = req'.get k) ↔ SameShape req req') ∧
      (req.Plain p.toLowercase → req'.Plain p.toLowercase →
        ∀ k, k ≠ "auth_signature" → req.get k = req'.get k) := by
  obtain ⟨-, signed, hsigned, hsig⟩ := verifyRest_ok haccepted
  obtain ⟨-, signed', hsigned', hsig'⟩ := verifyRest_ok haccepted'
  have htext : signingQuery signed = signingQuery signed' :=
    signingQuery_eq hinj hmethod hpath (Option.some.inj (hsig.symm.trans (hsignature.trans hsig')))
  -- equal lists of signed parameters are equal maps
  have hmaps : signed.toList.map chars = signed'.toList.map chars →
      ∀ k : String, signed[k]? = signed'[k]? := by
    intro hlist k
    have heq := List.map_injective_iff.mpr chars_injective hlist
    refine Option.ext fun v => ?_
    rw [← Std.TreeMap.mem_toList_iff_getElem?_eq_some, heq,
      Std.TreeMap.mem_toList_iff_getElem?_eq_some]
  refine ⟨⟨fun hsame k hk => by rw [hsame k hk], fun hshape k hk => ?_⟩, ?_⟩
  · have hlist : signed.toList.map chars = signed'.toList.map chars := by
      refine Separated.join_inj_of_count ?_ htext
      have hspelled := congrArg (List.map fun e : String × Nat => (e.1.toList, e.2))
        (hshape.signed_toList hlower hsigned hsigned')
      simpa [Function.comp_def, chars] using hspelled
    have hvalue : ∀ v v', req.get k = some v → req'.get k = some v' → v = v' := by
      intro v v' hv hv'
      -- a name other than `auth_signature` is not lowered to it: that one is there already
      have hk' : p.toLowercase k ≠ "auth_signature" := by
        intro heq
        exact hk (Request.eq_of_lowered hsigned hv hsig (heq.trans hlower.symm))
      have hin := (Request.signed_getElem hsigned hk' v).mpr ⟨k, hv, rfl⟩
      have hin' := (Request.signed_getElem hsigned' hk' v').mpr ⟨k, hv', rfl⟩
      rw [hmaps hlist _, hin'] at hin
      exact (Option.some.inj hin).symm
    have hcount := hshape k hk
    cases hv : req.get k with
    | none =>
      rw [hv] at hcount
      exact (Option.map_eq_none_iff.mp hcount.symm).symm
    | some v =>
      rw [hv, Option.map_some] at hcount
      obtain ⟨v', hv', -⟩ := Option.map_eq_some_iff.mp hcount.symm
      rw [hv', hvalue v v' hv hv']
  · intro hplain hplain' k hk
    rw [← hplain.signed_eq hsigned hk, ← hplain'.signed_eq hsigned' hk]
    exact hmaps (Separated.join_inj (by decide) (hplain.clean_signed hsigned)
      (hplain'.clean_signed hsigned') htext) k

theorem rest_parameters_bound_trigger :
    verifyRest transparent "k" "s" twoParams 9 600 = .ok () ∧
      verifyRest transparent "k" "s" reordered 10 600 = .ok () ∧
      twoParams.get "name" = reordered.get "name" := by
  have haccepted : verifyRest transparent "k" "s" twoParams 9 600 = .ok () := by decide
  have haccepted' : verifyRest transparent "k" "s" reordered 10 600 = .ok () := by decide
  refine ⟨haccepted, haccepted', ?_⟩
  exact (rest_parameters_bound (fun _ _ h => h) (by decide) haccepted haccepted' rfl rfl
    (by decide)).2 (.of_order (by decide)) (.of_order (by decide)) "name" (by decide)

/-- Nothing in the text is escaped: one parameter holding a separator is signed
as two parameters are, and the handler finds no `name`. -/
theorem rest_parameters_merged :
    Function.Injective (transparent.hmac "s") ∧
      verifyRest transparent "k" "s" twoParams 9 600 = .ok () ∧
      verifyRest transparent "k" "s" oneParam 9 600 = .ok () ∧
      twoParams.method = oneParam.method ∧ twoParams.path = oneParam.path ∧
      twoParams.get "auth_signature" = oneParam.get "auth_signature" ∧
      twoParams.get "name" = some "b" ∧ oneParam.get "name" = none :=
  ⟨fun _ _ h => h, by decide, by decide, rfl, rfl, by decide, by decide, by decide⟩

end Pylon.Auth
