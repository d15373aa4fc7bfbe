import ProductCatalog.Proofs.Http.Effect
import ProductCatalog.Proofs.Json.Grammar
import ProductCatalog.Proofs.Text.Numeral

/-!
# The limits of a body

Three bounds apply to the body of a creation request: the configured limit,
the length that the request declares, and the limit of the reader.  A body
whose declared length is its own has to keep within the configured limit and
that of the reader, and nothing else.

A body beyond the configured limit is refused either way, but not with the
same words.  If its length is declared, the request is refused before it is
looked at, with the status 413.  If not, the body cannot be read, and the
answer is that of a body which is no JSON.

## Main definitions

* `Request.Truthful` — the declared length, if there is one, is the body's.
* `Request.Declares` — a request, and the same one with its length declared.
* `Creates` — the requests to create a product.

## Main results

* `bodyFits_iff` — which bodies can be read.
* `creations_limited_by_reader` — what becomes of a valid creation request
  within the configured limit.
* `declared_length_told` — what the declaration of a length changes.
-/

namespace ProductCatalog.Http

open Text

namespace Request

/-! ## Declared lengths -/

/-- The length that a request declares, if it declares one, is that of its body. -/
def Truthful (r : Request) : Prop :=
  ∀ value, r.header? "content-length" = some value → Digits.Spell value.toList r.body.length

theorem declaredLength?_of_header {r : Request} {value : String} {n : Nat}
    (hheader : r.header? "content-length" = some value) (hvalue : Digits.Spell value.toList n) :
    r.declaredLength? = if n < 2 ^ 64 then some n else none := by
  rw [declaredLength?, hheader, Option.bind_some, hvalue.unsigned?]

theorem declaredLength?_of_none {r : Request} (h : r.header? "content-length" = none) :
    r.declaredLength? = none := by
  rw [declaredLength?, h, Option.bind_none]

/-- What a truthful request declares is the length of its body, or nothing at all. -/
theorem Truthful.declaredLength? {r : Request} (h : r.Truthful) :
    r.declaredLength? = none ∨ r.declaredLength? = some r.body.length := by
  cases hheader : r.header? "content-length" with
  | none => exact .inl (declaredLength?_of_none hheader)
  | some value =>
      rw [declaredLength?_of_header hheader (h value hheader)]
      by_cases hbits : r.body.length < 2 ^ 64
      · exact .inr (if_pos hbits)
      · exact .inl (if_neg hbits)

theorem Truthful.of_none {r : Request} (h : r.header? "content-length" = none) : r.Truthful := by
  intro value hvalue
  rw [h] at hvalue
  cases hvalue

/-! ## A declaration added -/

/--
A request that declares no length, and the same request with a header that
declares the length of its body.  The header may stand anywhere among the
others, and its name be spelled with letters of any case.
-/
inductive Declares (streamed : Request) : Request → Prop
  | mk {before after : List (String × String)} {name value : String}
      (hheaders : streamed.headers = before ++ after)
      (hnone : streamed.header? "content-length" = none)
      (hname : name.toList.map Char.toLower = "content-length".toList)
      (hvalue : Digits.Spell value.toList streamed.body.length) :
      Declares streamed { streamed with headers := before ++ (name, value) :: after }

namespace Declares

variable {streamed declared : Request}

theorem method_eq (h : Declares streamed declared) : declared.method = streamed.method := by
  cases h
  rfl

theorem path_eq (h : Declares streamed declared) : declared.path = streamed.path := by
  cases h
  rfl

theorem body_eq (h : Declares streamed declared) : declared.body = streamed.body := by
  cases h
  rfl

theorem streamed_header? (h : Declares streamed declared) :
    streamed.header? "content-length" = none := by
  cases h with
  | mk _ hnone _ _ => exact hnone

/-- All other headers are as they were. -/
theorem header?_of_ne (h : Declares streamed declared) {name : String}
    (hne : name ≠ "content-length") : declared.header? name = streamed.header? name := by
  cases h with
  | @mk before after written value hheaders _ hname _ =>
      have hother : ¬ written.toList.map Char.toLower = name.toList := by
        rw [hname, String.toList_inj]
        exact hne.symm
      rw [header?, header?, hheaders, List.find?_append, List.find?_append, List.find?_cons_of_neg]
      simpa using hother

/-- The length of the body is declared. -/
theorem declared_header? (h : Declares streamed declared) :
    ∃ value, declared.header? "content-length" = some value ∧
      Digits.Spell value.toList streamed.body.length := by
  cases h with
  | @mk before after name value hheaders hnone hname hvalue =>
      refine ⟨value, ?_, hvalue⟩
      -- no header in front of the new one has its name
      have hbefore : before.find? (fun h => h.1.toList.map Char.toLower = "content-length".toList) =
          none := by
        rw [header?, hheaders, List.find?_append, Option.map_eq_none_iff] at hnone
        exact (Option.or_eq_none_iff.1 hnone).1
      rw [header?, List.find?_append, hbefore, Option.none_or, List.find?_cons_of_pos]
      · rfl
      · exact decide_eq_true hname

theorem declaresJson_eq (h : Declares streamed declared) :
    declared.declaresJson = streamed.declaresJson := by
  rw [declaresJson, declaresJson, h.header?_of_ne (by decide)]

theorem truthful (h : Declares streamed declared) : declared.Truthful := by
  obtain ⟨value, hheader, hspell⟩ := h.declared_header?
  intro other hother
  rw [hheader] at hother
  rw [h.body_eq, ← Option.some.inj hother]
  exact hspell

end Declares

/-- The request with the length of its body declared in front of its headers. -/
def declaring (r : Request) : Request :=
  { r with headers := ("content-length", .ofList (Digits.ofNat r.body.length)) :: r.headers }

/-- The length of every body can be declared. -/
theorem declares_declaring {r : Request} (h : r.header? "content-length" = none) :
    r.Declares r.declaring := by
  have hheaders : r.headers = [] ++ r.headers := rfl
  have hname : "content-length".toList.map Char.toLower = "content-length".toList := by
    decide
  refine .mk hheaders h hname ?_
  rw [String.toList_ofList]
  exact Digits.spell_ofNat r.body.length

end Request

namespace Products

open Catalog

/-! ## Bodies that can be read -/

/-- A body of which nothing false is declared can be read if it keeps within both limits. -/
theorem bodyFits_iff {r : Request} (h : r.Truthful) (limit : Nat) :
    bodyFits limit r = true ↔ r.body.length ≤ limit ∧ r.body.length ≤ readerLimit := by
  rw [bodyFits, decide_eq_true_iff]
  rcases h.declaredLength? with hlength | hlength
  · rw [hlength, Option.getD_none]
    omega
  · rw [hlength, Option.getD_some]
    omega

/-! ## Creation requests -/

/-- The requests to create a product, by their method and their path. -/
structure Creates (r : Request) : Prop where
  method : r.method = "POST"
  path : r.path = "/products-api/v1/products".toList

/-- The answer to a request whose declared length is above the limit. -/
def tooLong : Response := .text 413 "length limit exceeded"

theorem Creates.of_declares {streamed declared : Request} (hr : Creates streamed)
    (h : streamed.Declares declared) : Creates declared :=
  ⟨h.method_eq.trans hr.method, h.path_eq.trans hr.path⟩

/-- A creation request is looked at unless it declares a length above the limit. -/
theorem Creates.demand_eq {r : Request} (h : Creates r) (limit : Nat) :
    demand limit r =
      if limit < r.declaredLength?.getD 0 then .settled tooLong else creation limit r := by
  have hroute : Route.ofPath? r.path = some .products := by
    rw [h.path]
    decide
  rw [demand, hroute]
  dsimp only
  rw [h.method, if_neg (by decide : ¬ "POST" = "HEAD")]
  rfl

/-- A body above one of the two limits is refused, whatever is in it. -/
theorem creation_of_long {limit : Nat} {r : Request} (h : r.Truthful)
    (hlong : limit < r.body.length ∨ readerLimit < r.body.length) :
    creation limit r = .refused .invalidBody := by
  have hnot : bodyFits limit r = false := by
    rw [← Bool.not_eq_true, bodyFits_iff h]
    omega
  have hread : readCreation limit r = .error .invalidBody := by
    rw [readCreation, hnot, Bool.and_false, if_neg (by decide)]
  rw [creation, newProduct, hread]
  rfl

/-- A body that can be read, with a valid request in it, is one to create the product. -/
theorem creation_of_read {limit : Nat} {r : Request} {request : CreateRequest} {rest : Bytes}
    {input : NewProduct} (hfits : bodyFits limit r = true) (hjson : r.declaresJson = true)
    (hread : CreateRequest.read r.body = .ok (request, rest))
    (hinput : request.validate = .ok input) : creation limit r = .create input := by
  have hrequest : readCreation limit r = .ok request := by
    rw [readCreation, hfits, hjson, Bool.and_true, if_pos rfl, hread]
  have hproduct : newProduct limit r = .ok input := by
    rw [newProduct, hrequest]
    exact hinput
  rw [creation, hproduct]

/-- A truthful request within the limit is looked at. -/
theorem Creates.demand_of_le {r : Request} (h : Creates r) (hlength : r.Truthful) {limit : Nat}
    (hlimit : r.body.length ≤ limit) : demand limit r = creation limit r := by
  rw [h.demand_eq, if_neg]
  rcases hlength.declaredLength? with hdeclared | hdeclared
  · rw [hdeclared, Option.getD_none]
    omega
  · rw [hdeclared, Option.getD_some]
    omega

/-- The answer to a request whose body cannot be read. -/
def unreadable : Response := .error 400 "bad_request - invalid JSON body"

theorem respondUnder_of_refused {limit : Nat} {r : Request}
    (h : demand limit r = .refused .invalidBody) (plan : Plan) (c : Catalog) :
    respondUnder plan limit c r = (c, unreadable) := by
  have hmessage : CatalogError.invalidBody.message = "bad_request - invalid JSON body" := by
    decide
  rw [respondUnder, h]
  show (c, Response.error 400 CatalogError.invalidBody.message) = _
  rw [hmessage]
  rfl

/-- Blanks in front of a request are passed over. -/
theorem read_blanks {w : Bytes} (hw : Json.Blanks w) (bytes : Bytes) :
    CreateRequest.read (w ++ bytes) = CreateRequest.read bytes := by
  rw [CreateRequest.read, CreateRequest.read, Json.readRecord, Json.readRecord,
    Json.skipBlanks_append _ hw]

/-! ## The limit of the reader -/

/--
**The reader has a limit of its own.** A valid creation request, with a body
within the configured limit and no other declared length than its own, is
carried out if the body has at most `2097152` bytes.  If it has more, it is
refused as one that is no JSON, whatever limit is configured.
-/
theorem creations_limited_by_reader {limit : Nat} {r : Request} {request : CreateRequest}
    {rest : Bytes} {input : NewProduct} (hr : Creates r) (hjson : r.declaresJson = true)
    (hlength : r.Truthful) (hlimit : r.body.length ≤ limit)
    (hread : CreateRequest.read r.body = .ok (request, rest))
    (hinput : request.validate = .ok input) (plan : Plan) (c : Catalog) :
    (r.body.length ≤ 2097152 →
      respondUnder plan limit c r =
        reply (fun product => .json 201 product.json) (c.createUnder plan input)) ∧
    (2097152 < r.body.length →
      respondUnder plan limit c r = (c, .error 400 "bad_request - invalid JSON body")) := by
  have hdemand := hr.demand_of_le hlength hlimit
  constructor
  · intro hshort
    have hfits := (bodyFits_iff hlength limit).2 ⟨hlimit, hshort⟩
    rw [creation_of_read hfits hjson hread hinput] at hdemand
    rw [respondUnder, hdemand]
    rfl
  · intro hlong
    rw [creation_of_long hlength (.inr hlong)] at hdemand
    exact respondUnder_of_refused hdemand plan c

/-- A creation request by its headers and its body. -/
def posting (headers : List (String × String)) (body : Bytes) : Request :=
  { method := "POST", target := "/products-api/v1/products", headers, body }

theorem creates_posting (headers : List (String × String)) (body : Bytes) :
    Creates (posting headers body) := by
  have hpath : (posting [] []).path = "/products-api/v1/products".toList := by
    decide +kernel
  exact ⟨rfl, hpath⟩

/-- The header of a body that is JSON. -/
def jsonHeader : String × String := ("content-type", "application/json")

theorem declaresJson_posting (body : Bytes) :
    (posting [jsonHeader] body).declaresJson = true ∧
      (posting [jsonHeader] body).header? "content-length" = none := by
  have hjson : (posting [jsonHeader] []).declaresJson = true := by
    decide +kernel
  have hlength : (posting [jsonHeader] []).header? "content-length" = none := by
    decide +kernel
  exact ⟨hjson, hlength⟩

/-- The JSON of a request for a lamp. -/
def lampJson : Bytes :=
  encode "\x7b\"name\":\"Lamp\",\"vendor\":\"Acme\",\"price\":1\x7d"

/-- The lamp that is asked for. -/
def lamp : NewProduct := ⟨"Lamp", "Acme", "", .ofSmall 1 (by decide)⟩

/-- The request for a lamp, as it is read. -/
def lampRequest : CreateRequest := ⟨"Lamp", "Acme", none, some lamp.price⟩

theorem read_lamp : CreateRequest.read lampJson = .ok (lampRequest, []) ∧
    lampRequest.validate = .ok lamp := by
  decide +kernel

/-- A lamp is created although blanks and a member that nobody asks for are in its request. -/
theorem creations_limited_by_reader_of_padding :
    ∃ r : Request, Creates r ∧ r.declaresJson = true ∧ r.Truthful ∧
      r.declaredLength? = some 57 ∧ r.body.length = 57 ∧
      CreateRequest.read r.body = .ok (lampRequest, [0x0A]) ∧ lampRequest.validate = .ok lamp ∧
      ∀ (plan : Plan) (c : Catalog), respondUnder plan 57 c r =
        reply (fun product => .json 201 product.json) (c.createUnder plan lamp) := by
  let body := encode
    " \x7b\"name\":\"Lamp\",\"vendor\":\"Acme\",\"price\":1,\"colour\":null\x7d\n"
  let streamed := posting [jsonHeader] body
  obtain ⟨hjson, hnone⟩ := declaresJson_posting body
  have hdeclares := Request.declares_declaring hnone
  have hcreates := (creates_posting [jsonHeader] body).of_declares hdeclares
  rw [← hdeclares.declaresJson_eq] at hjson
  have hlength : streamed.declaring.body.length = 57 := by
    decide +kernel
  have hread : CreateRequest.read streamed.declaring.body = .ok (lampRequest, [0x0A]) := by
    decide +kernel
  have hdeclared : streamed.declaring.declaredLength? = some 57 := by
    obtain ⟨value, hheader, hspell⟩ := hdeclares.declared_header?
    rw [Request.declaredLength?_of_header hheader hspell]
    decide +kernel
  refine ⟨streamed.declaring, hcreates, hjson, hdeclares.truthful, hdeclared, hlength, hread,
    read_lamp.2, fun plan c => ?_⟩
  refine (creations_limited_by_reader hcreates hjson hdeclares.truthful hlength.le hread
    read_lamp.2 plan c).1 ?_
  rw [hlength]
  decide

/-- Two mebibytes of blanks in front of a valid request are too much, although the configured
limit is higher. -/
theorem creation_refused_within_limit :
    ∃ r : Request, Creates r ∧ r.declaresJson = true ∧ r.Truthful ∧ r.body.length ≤ 3000000 ∧
      CreateRequest.read r.body = .ok (lampRequest, []) ∧ lampRequest.validate = .ok lamp ∧
      ∀ (plan : Plan) (c : Catalog), respondUnder plan 3000000 c r =
        (c, .error 400 "bad_request - invalid JSON body") := by
  let w : Bytes := List.replicate 2097152 0x20
  obtain ⟨hjson, hnone⟩ := declaresJson_posting (w ++ lampJson)
  have hcreates := creates_posting [jsonHeader] (w ++ lampJson)
  have htruthful := Request.Truthful.of_none hnone
  have hlamp : lampJson.length = 41 := by
    decide +kernel
  have hlength : (posting [jsonHeader] (w ++ lampJson)).body.length = 2097193 := by
    show (w ++ lampJson).length = _
    rw [List.length_append, List.length_replicate, hlamp]
  have hblank : Json.Blanks w := fun b hb => by
    rw [List.eq_of_mem_replicate hb]
    decide
  have hlimit : (posting [jsonHeader] (w ++ lampJson)).body.length ≤ 3000000 := by
    rw [hlength]
    decide
  have hreader : readerLimit < (posting [jsonHeader] (w ++ lampJson)).body.length := by
    rw [hlength]
    decide
  have hdemand := hcreates.demand_of_le htruthful hlimit
  rw [creation_of_long htruthful (.inr hreader)] at hdemand
  refine ⟨_, hcreates, hjson, htruthful, hlimit, ?_, read_lamp.2,
    respondUnder_of_refused hdemand⟩
  exact (read_blanks hblank lampJson).trans read_lamp.1

/-! ## Declared and undeclared lengths -/

/-- As far as the body is looked at, the declaration of its length makes no difference. -/
theorem creation_of_declares {streamed declared : Request} (h : streamed.Declares declared)
    (limit : Nat) : creation limit declared = creation limit streamed := by
  have hfits : bodyFits limit declared = bodyFits limit streamed := by
    rw [Bool.eq_iff_iff, bodyFits_iff h.truthful,
      bodyFits_iff (Request.Truthful.of_none h.streamed_header?), h.body_eq]
  have hread : readCreation limit declared = readCreation limit streamed := by
    rw [readCreation, readCreation, h.declaresJson_eq, hfits, h.body_eq]
  rw [creation, creation, newProduct, newProduct, hread]

/-- A creation request that declares no length is looked at. -/
theorem demand_streamed {streamed declared : Request} (h : streamed.Declares declared)
    (hr : Creates streamed) (limit : Nat) : demand limit streamed = creation limit streamed := by
  rw [hr.demand_eq, Request.declaredLength?_of_none h.streamed_header?, Option.getD_none,
    if_neg (Nat.not_lt_zero limit)]

/-- If its length is declared, a body above the limit is not looked at. -/
theorem demand_declared {streamed declared : Request} (h : streamed.Declares declared)
    (hr : Creates streamed) (limit : Nat) :
    demand limit declared =
      if limit < streamed.body.length ∧ streamed.body.length < 2 ^ 64 then .settled tooLong
      else creation limit streamed := by
  obtain ⟨value, hheader, hspell⟩ := h.declared_header?
  rw [(hr.of_declares h).demand_eq, creation_of_declares h,
    Request.declaredLength?_of_header hheader hspell]
  by_cases hbits : streamed.body.length < 2 ^ 64
  · rw [if_pos hbits, Option.getD_some]
    simp only [hbits, and_true]
  · rw [if_neg hbits, Option.getD_none, if_neg (Nat.not_lt_zero limit), if_neg fun h => hbits h.2]

/--
**The declaration of a length is told by the answer, and by nothing else.** A
creation request and the same request with its length declared leave the same
catalog behind.  They are answered alike if the body is within the limit.  If
it is not, the catalog is as it was, and the answer is 413 if the length has
been declared, and otherwise the 400 of a body that is no JSON.  (A length of
`2 ^ 64` and more cannot be declared.)
-/
theorem declared_length_told {streamed declared : Request} (h : streamed.Declares declared)
    (hr : Creates streamed) (limit : Nat) (plan : Plan) (c : Catalog) :
    (respondUnder plan limit c declared).1 = (respondUnder plan limit c streamed).1 ∧
    (streamed.body.length ≤ limit →
      respondUnder plan limit c declared = respondUnder plan limit c streamed) ∧
    (limit < streamed.body.length →
      respondUnder plan limit c streamed = (c, .error 400 "bad_request - invalid JSON body") ∧
      (streamed.body.length < 2 ^ 64 →
        respondUnder plan limit c declared = (c, .text 413 "length limit exceeded"))) := by
  have hstreamed := demand_streamed h hr limit
  have hdeclared := demand_declared h hr limit
  have hrefused : limit < streamed.body.length →
      respondUnder plan limit c streamed = (c, unreadable) := fun hlong => by
    rw [creation_of_long (.of_none h.streamed_header?) (.inl hlong)] at hstreamed
    exact respondUnder_of_refused hstreamed plan c
  by_cases htold : limit < streamed.body.length ∧ streamed.body.length < 2 ^ 64
  · rw [if_pos htold] at hdeclared
    have hsettled : respondUnder plan limit c declared = (c, tooLong) := by
      rw [respondUnder, hdeclared]
      rfl
    refine ⟨?_, fun hle => absurd htold.1 (Nat.not_lt.2 hle), fun hlong =>
      ⟨hrefused hlong, fun _ => hsettled⟩⟩
    rw [hsettled, hrefused htold.1]
  · rw [if_neg htold, ← hstreamed] at hdeclared
    have hsame : respondUnder plan limit c declared = respondUnder plan limit c streamed := by
      rw [respondUnder, hdeclared, respondUnder]
    exact ⟨by rw [hsame], fun _ => hsame, fun hlong =>
      ⟨hrefused hlong, fun hbits => absurd ⟨hlong, hbits⟩ htold⟩⟩

/-- At the limit, the request for a lamp is answered alike with its length and without.  One byte
above it, the declared length is what is refused. -/
theorem declared_length_told_of_lamp :
    ∃ streamed declared : Request, streamed.Declares declared ∧ Creates streamed ∧
      streamed.body.length = 41 ∧
      ∀ (plan : Plan) (c : Catalog),
        respondUnder plan 41 c declared = respondUnder plan 41 c streamed ∧
        respondUnder plan 40 c declared = (c, .text 413 "length limit exceeded") := by
  have hdeclares := Request.declares_declaring (declaresJson_posting lampJson).2
  have hcreates := creates_posting [jsonHeader] lampJson
  have hlength : (posting [jsonHeader] lampJson).body.length = 41 := by
    decide +kernel
  refine ⟨_, _, hdeclares, hcreates, hlength, fun plan c => ⟨?_, ?_⟩⟩
  · exact (declared_length_told hdeclares hcreates 41 plan c).2.1 hlength.le
  · refine ((declared_length_told hdeclares hcreates 40 plan c).2.2 ?_).2 ?_
    · rw [hlength]
      decide
    · rw [hlength]
      decide

/-- Under a limit of ten bytes, the request for a lamp is refused with another status if its
length is declared. -/
theorem statuses_differ_of_declared_length :
    ∃ streamed declared : Request, streamed.Declares declared ∧ Creates streamed ∧
      streamed.body = lampJson ∧
      ∀ c : Catalog, (respond 10 c streamed).2.status = 400 ∧
        (respond 10 c declared).2.status = 413 := by
  have hdeclares := Request.declares_declaring (declaresJson_posting lampJson).2
  have hcreates := creates_posting [jsonHeader] lampJson
  have hlength : 10 < (posting [jsonHeader] lampJson).body.length ∧
      (posting [jsonHeader] lampJson).body.length < 2 ^ 64 := by
    decide +kernel
  refine ⟨_, _, hdeclares, hcreates, rfl, fun c => ?_⟩
  rw [respond, respond, demand_streamed hdeclares hcreates, demand_declared hdeclares hcreates,
    if_pos hlength, creation_of_long (.of_none hdeclares.streamed_header?) (.inl hlength.1)]
  exact ⟨rfl, rfl⟩

end Products

end ProductCatalog.Http
