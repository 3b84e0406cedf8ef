import Chttp2.Pool.Endpoint
import Chttp2.Protocol.HeaderValidation
import Chttp2.Session.Wire

/-!
# The client

`Client.Send` checks a request of the user, makes a wire request and an endpoint with a port of it,
and hands both to the connection manager.

`find_buildWireRequest` says what is in a wire request: the fields of the user, the last one where a
name is given twice, and default values for the names that the user does not give. Since a wire
request always has `:scheme` and `:path`, the protocol takes it unless its method is CONNECT
(`isValid_buildWireRequest`). The authority of a wire request names the host and the port, so that
two requests over TCP are filed under one endpoint if and only if they go to one origin
(`sameKey_iff_sameOrigin`). What a session sends for the client arrives as the user has given it
(`served_as_given`).
-/

set_option autoImplicit false

namespace Chttp2

/-! ## Header maps -/

instance byteTrichotomous : Std.Trichotomous (fun a b : UInt8 => a < b) where
  trichotomous _ _ hab hba := UInt8.le_antisymm (UInt8.not_lt.1 hba) (UInt8.not_lt.1 hab)

instance byteTrans : Trans (fun a b : UInt8 => a < b) (fun a b : UInt8 => a < b)
    (fun a b : UInt8 => a < b) where
  trans := UInt8.lt_trans

/-- `headers[key] = value` on the entries of a map. -/
def setEntry (key value : Bytes) : List (Bytes × Bytes) → List (Bytes × Bytes)
  | [] => [(key, value)]
  | e :: es =>
    if key < e.1 then (key, value) :: e :: es
    else if key = e.1 then (key, value) :: es
    else e :: setEntry key value es

section Maps

variable {key value k : Bytes} {es : List (Bytes × Bytes)} {e : Bytes × Bytes}

theorem mem_setEntry (h : e ∈ setEntry key value es) : e = (key, value) ∨ e ∈ es := by
  induction es with
  | nil => exact Or.inl (List.mem_singleton.1 h)
  | cons head es ih =>
    rw [setEntry] at h
    split at h
    · exact List.mem_cons.1 h
    split at h
    · exact (List.mem_cons.1 h).imp_right (List.mem_cons_of_mem _)
    · rcases List.mem_cons.1 h with rfl | h
      · exact Or.inr List.mem_cons_self
      · exact (ih h).imp_right (List.mem_cons_of_mem _)

/-- Keys that are neither equal nor in order are in the other order. -/
theorem lt_of_not_lt {a b : Bytes} (hlt : ¬ a < b) (hne : a ≠ b) : b < a := by
  rcases List.le_iff_lt_or_eq.1 (List.not_lt.1 hlt) with h | h
  · exact h
  · exact absurd h.symm hne

theorem sorted_setEntry (h : es.Pairwise fun a b => a.1 < b.1) :
    (setEntry key value es).Pairwise fun a b => a.1 < b.1 := by
  induction es with
  | nil => exact List.pairwise_singleton _ _
  | cons head es ih =>
    obtain ⟨hhead, hes⟩ := List.pairwise_cons.1 h
    rw [setEntry]
    split
    · rename_i hlt
      refine List.pairwise_cons.2 ⟨fun e he => ?_, h⟩
      rcases List.mem_cons.1 he with rfl | he
      · exact hlt
      · exact List.lt_trans hlt (hhead e he)
    split
    · rename_i heq
      refine List.pairwise_cons.2 ⟨fun e he => ?_, hes⟩
      rw [heq]
      exact hhead e he
    · rename_i hnot hne
      refine List.pairwise_cons.2 ⟨fun e he => ?_, ih hes⟩
      rcases mem_setEntry he with rfl | he
      · exact lt_of_not_lt hnot hne
      · exact hhead e he

theorem find?_setEntry (h : es.Pairwise fun a b => a.1 < b.1) :
    (setEntry key value es).find? (fun e => e.1 = k) =
      if k = key then some (key, value) else es.find? fun e => e.1 = k := by
  induction es with
  | nil =>
    by_cases hk : k = key
    · simp [setEntry, hk]
    · simp [setEntry, hk, Ne.symm hk]
  | cons head es ih =>
    obtain ⟨hhead, hes⟩ := List.pairwise_cons.1 h
    rw [setEntry]
    split
    · -- the new entry comes first
      by_cases hk : k = key
      · simp [hk]
      · simp [List.find?_cons, hk, Ne.symm hk]
    split
    · -- it takes the place of an entry with its key
      rename_i heq
      by_cases hk : k = key
      · simp [hk]
      · have hother : head.1 ≠ k := fun h => hk (h ▸ heq.symm)
        simp [hk, Ne.symm hk, hother]
    · rename_i hne
      by_cases hhere : head.1 = k
      · have hk : k ≠ key := fun h => hne (h ▸ hhere.symm)
        simp [hhere, hk]
      · rw [List.find?_cons_of_neg (by simpa using hhere), ih hes,
          List.find?_cons_of_neg (by simpa using hhere)]

end Maps

namespace HeaderMap

theorem sorted_nil : ([] : List (Bytes × Bytes)).Pairwise fun a b => a.1 < b.1 := .nil

/-- A map without a header. -/
def empty : HeaderMap := ⟨[], sorted_nil⟩

/-- `operator[]` with an assignment. -/
def set (m : HeaderMap) (key value : Bytes) : HeaderMap :=
  ⟨setEntry key value m.entries, sorted_setEntry m.sorted⟩

theorem find_set (m : HeaderMap) (key value k : Bytes) :
    (m.set key value).find k = if k = key then some value else m.find k := by
  rw [find, set, find?_setEntry m.sorted]
  split <;> rfl

end HeaderMap

/-- `Request::setHeader` of the protocol. -/
def Request.setHeader (r : Request) (key value : Bytes) : Request :=
  { r with headers := r.headers.set key value }

/-! ## Numbers in decimal -/

/-- `std::to_string` of an unsigned number. -/
def toDecimal (n : Nat) : Bytes := ascii (toString n)

section Decimals

theorem toDecimal_eq (n : Nat) :
    toDecimal n = (Nat.toDigits 10 n).map fun c => c.toNat.toUInt8 := by
  rw [toDecimal, ascii, Nat.toString_eq_ofList_toDigits, String.toList_ofList]

theorem toNat_byte_of_isDigit {c : Char} (h : c.isDigit = true) :
    c.toNat.toUInt8.toNat = c.toNat := by
  have hle : c.toNat ≤ 57 := (Char.isDigit_iff_toNat.1 h).2
  exact Nat.mod_eq_of_lt (by omega)

/-- Reading a number back. -/
theorem foldl_toDecimal (n : Nat) :
    (toDecimal n).foldl (fun n c => n * 10 + (c.toNat - 0x30)) 0 = n := by
  have hfold : ∀ (cs : List Char) (init : Nat), (∀ c ∈ cs, c.isDigit = true) →
      (cs.map fun c => c.toNat.toUInt8).foldl (fun n c => n * 10 + (c.toNat - 0x30)) init =
        Nat.ofDigitChars 10 cs init := by
    intro cs
    induction cs with
    | nil => exact fun _ _ => Nat.ofDigitChars_nil.symm
    | cons c cs ih =>
      intro init h
      rw [List.map_cons, List.foldl_cons, Nat.ofDigitChars_cons,
        ih _ fun c hc => h c (List.mem_cons_of_mem _ hc),
        toNat_byte_of_isDigit (h c List.mem_cons_self), Nat.mul_comm]
      rfl
  rw [toDecimal_eq, hfold _ _ fun c hc => Nat.isDigit_of_mem_toDigits (by decide) (by decide) hc]
  exact Nat.ofDigitChars_ten_toDigits

theorem toDecimal_injective {m n : Nat} (h : toDecimal m = toDecimal n) : m = n := by
  rw [← foldl_toDecimal m, h, foldl_toDecimal]

end Decimals

/-! ## Requests of the user -/

namespace Client

/-- The options of a request that `RequestValidation` and the wire request read. -/
structure Options where
  timeoutMs : Int := -1
  autoContentLength : Bool := true

/-- `Request` of the client: the endpoint, the method and path, and what the user set. -/
structure Request where
  endpoint : Endpoint
  method : Bytes := ascii "GET"
  target : Bytes := ascii "/"
  headers : List HeaderField := []
  body : Bytes := []
  options : Options := {}

/-- The `user-agent` of a request that sets none. -/
def userAgent : Bytes := ascii "chttp2/0.1"

/-- `validateRequest`: the response for a request that is rejected. -/
def validateRequest (request : Request) : Option Response :=
  let ep := request.endpoint
  if ep.host = [] ∧ ep.ip = [] ∧ ep.sockFile = [] then
    some (.customError (ascii "Request endpoint is empty"))
  else if request.method = [] then some (.customError (ascii "Request method is empty"))
  else if request.target = [] then some (.customError (ascii "Request target is empty"))
  else if request.target.head? ≠ some 0x2f then
    some (.customError (ascii "Request target must start with '/'"))
  else none

/-- The port that `:authority` leaves out. -/
def defaultPort (ep : Endpoint) : UInt16 := if ep.useSSL then 443 else 80

def scheme (ep : Endpoint) : Bytes := ascii (if ep.useSSL then "https" else "http")

/-- The host, with the port if it is not the default one. -/
def authority (ep : Endpoint) : Bytes :=
  let authority := if ep.host = [] then ep.ip else ep.host
  if ep.port ≠ 0 ∧ ep.port ≠ defaultPort ep then
    authority ++ ascii ":" ++ toDecimal ep.port.toNat
  else authority

/-- The headers before the content length. -/
def givenHeaders (request : Request) : Chttp2.Request :=
  let wire : Chttp2.Request := { headers := .empty }
  let ep := request.endpoint
  let wire := wire.setHeader (ascii ":method") request.method
  let wire := wire.setHeader (ascii ":scheme") (scheme ep)
  let wire := wire.setHeader (ascii ":authority") (authority ep)
  let wire := wire.setHeader (ascii ":path") request.target
  let wire := wire.setHeader (ascii "user-agent") userAgent
  let wire := wire.setHeader (ascii "accept") (ascii "*/*")
  -- headers of the user override the default ones
  request.headers.foldl (fun wire header => wire.setHeader header.name header.value) wire

/-- `buildWireRequest`: the user's headers and body, and the headers that the client adds. -/
def buildWireRequest (request : Request) : Chttp2.Request :=
  let wire := { givenHeaders request with body := request.body }
  if request.body ≠ [] ∧ request.options.autoContentLength = true then
    if (wire.headers.find (ascii "content-length")).isNone then
      wire.setHeader (ascii "content-length") (toDecimal request.body.length)
    else wire
  else wire

/-- The endpoint that `Send` passes on: with the default port of its scheme if it has none. -/
def withPort (ep : Endpoint) : Endpoint :=
  if ep.port = 0 then { ep with port := defaultPort ep } else ep

/-- `Send` with a callback: the response that the callback is called with at once, or the arguments of
`sendAsync`. -/
def send (request : Request) : Except Response (Chttp2.Request × Endpoint × Int) :=
  match validateRequest request with
  | some invalidResponse => .error invalidResponse
  | none =>
    .ok (buildWireRequest request, withPort request.endpoint, request.options.timeoutMs)

/-! ## What is in a wire request -/

/-- The value of the last header field of the user with a name. -/
def lastValue (headers : List HeaderField) (name : Bytes) : Option Bytes :=
  (headers.reverse.find? fun header => header.name = name).map HeaderField.value

/-- What stands in a wire request under a name that the user does not give. -/
def defaultValue (request : Request) (name : Bytes) : Option Bytes :=
  if name = ascii "accept" then some (ascii "*/*")
  else if name = ascii "user-agent" then some userAgent
  else if name = ascii ":path" then some request.target
  else if name = ascii ":authority" then some (authority request.endpoint)
  else if name = ascii ":scheme" then some (scheme request.endpoint)
  else if name = ascii ":method" then some request.method
  else if name = ascii "content-length" then
    if request.body ≠ [] ∧ request.options.autoContentLength = true then
      some (toDecimal request.body.length)
    else none
  else none

section Sent

variable {request : Request} {headers : List HeaderField} {name : Bytes}

theorem find_setHeader (wire : Chttp2.Request) (key value name : Bytes) :
    (wire.setHeader key value).headers.find name =
      if name = key then some value else wire.headers.find name :=
  HeaderMap.find_set _ _ _ _

/-- Setting the headers of the user one after the other leaves the last value of each name. -/
theorem find_foldl_setHeader (headers : List HeaderField) : ∀ wire : Chttp2.Request,
    (headers.foldl (fun wire header => wire.setHeader header.name header.value) wire).headers.find
      name = (lastValue headers name).or (wire.headers.find name) := by
  induction headers with
  | nil => exact fun _ => rfl
  | cons header headers ih =>
    intro wire
    rw [List.foldl_cons, ih, find_setHeader, lastValue, lastValue, List.reverse_cons,
      List.find?_append]
    by_cases hname : name = header.name
    · cases headers.reverse.find? (fun header => header.name = name) <;> simp [hname]
    · cases headers.reverse.find? (fun header => header.name = name) <;>
        simp [hname, Ne.symm hname]

theorem body_buildWireRequest (request : Request) :
    (buildWireRequest request).body = request.body := by
  unfold buildWireRequest
  dsimp only
  split
  · split <;> rfl
  · rfl

theorem find_givenHeaders (request : Request) (name : Bytes) :
    (givenHeaders request).headers.find name = (lastValue request.headers name).or
      (if name = ascii "accept" then some (ascii "*/*")
      else if name = ascii "user-agent" then some userAgent
      else if name = ascii ":path" then some request.target
      else if name = ascii ":authority" then some (authority request.endpoint)
      else if name = ascii ":scheme" then some (scheme request.endpoint)
      else if name = ascii ":method" then some request.method
      else none) := by
  rw [givenHeaders, find_foldl_setHeader]
  simp only [find_setHeader]
  rfl

/-- A name that is not the one of the content length. -/
theorem find_buildWireRequest_ne (hname : name ≠ ascii "content-length") :
    (buildWireRequest request).headers.find name = (givenHeaders request).headers.find name := by
  unfold buildWireRequest
  dsimp only
  split
  · split
    · rw [find_setHeader, if_neg hname]
    · rfl
  · rfl

/-- The content length is only written where the user has given none. -/
theorem find_contentLength (request : Request) :
    (buildWireRequest request).headers.find (ascii "content-length") =
      (lastValue request.headers (ascii "content-length")).or
        (if request.body ≠ [] ∧ request.options.autoContentLength = true then
          some (toDecimal request.body.length)
        else none) := by
  have hgiven : (givenHeaders request).headers.find (ascii "content-length") =
      lastValue request.headers (ascii "content-length") := by
    rw [find_givenHeaders, if_neg (by decide), if_neg (by decide), if_neg (by decide),
      if_neg (by decide), if_neg (by decide), if_neg (by decide), Option.or_none]
  unfold buildWireRequest
  dsimp only
  rw [hgiven]
  cases hlast : lastValue request.headers (ascii "content-length") with
  | none =>
    split
    · rw [Option.isNone_none, if_pos rfl, find_setHeader, if_pos rfl]
      rfl
    · exact hgiven.trans hlast
  | some value =>
    rw [Option.isNone_some, Option.some_or, ← hlast, ← hgiven]
    split <;> rfl

/-- Every field of a wire request. -/
theorem find_buildWireRequest (request : Request) (name : Bytes) :
    (buildWireRequest request).headers.find name =
      (lastValue request.headers name).or (defaultValue request name) := by
  by_cases hname : name = ascii "content-length"
  · subst hname
    have hdefault : defaultValue request (ascii "content-length") =
        if request.body ≠ [] ∧ request.options.autoContentLength = true then
          some (toDecimal request.body.length)
        else none := by
      rw [defaultValue, if_neg (by decide), if_neg (by decide), if_neg (by decide),
        if_neg (by decide), if_neg (by decide), if_neg (by decide), if_pos rfl]
    rw [find_contentLength, hdefault]
  · rw [find_buildWireRequest_ne hname, find_givenHeaders, defaultValue, if_neg hname]

theorem isSome_find_of_default (h : (defaultValue request name).isSome = true) :
    ((buildWireRequest request).headers.find name).isSome = true := by
  rw [find_buildWireRequest, Option.isSome_or, h, Bool.or_true]

/-- A map with an entry is not empty. -/
theorem entries_ne_nil {m : HeaderMap} (h : (m.find name).isSome = true) : m.entries ≠ [] := by
  intro hnil
  rw [HeaderMap.find, hnil] at h
  cases h

/-- A wire request always has a scheme and a path, so that only CONNECT makes it invalid. -/
theorem isValid_buildWireRequest (request : Request) : (buildWireRequest request).isValid = true ↔
    (lastValue request.headers (ascii ":method")).getD request.method ≠ ascii "CONNECT" := by
  have hmethod : (buildWireRequest request).headers.find (ascii ":method") =
      some ((lastValue request.headers (ascii ":method")).getD request.method) := by
    rw [find_buildWireRequest]
    cases lastValue request.headers (ascii ":method") <;> rfl
  have hscheme : ((buildWireRequest request).headers.find (ascii ":scheme")).isSome = true :=
    isSome_find_of_default rfl
  have hpath : ((buildWireRequest request).headers.find (ascii ":path")).isSome = true :=
    isSome_find_of_default rfl
  rw [Chttp2.Request.isValid, if_neg (entries_ne_nil hscheme), hmethod]
  dsimp only
  split
  · rename_i hconnect
    simp [hconnect, Option.isNone_eq_false_iff.2 hscheme]
  · rename_i hother
    simp [hother, hscheme, hpath]

/-! ## What the connection manager gets -/

theorem defaultPort_ne_zero (ep : Endpoint) : defaultPort ep ≠ 0 := by
  unfold defaultPort
  split <;> decide

/-- What `Send` passes on for a request that it does not answer itself: the method, the target and
every header of the user, with default values for the rest, the body, and an endpoint with a port. The
protocol takes the wire request unless its method is CONNECT. -/
theorem sent_request {wire : Chttp2.Request} {ep : Endpoint} {timeoutMs : Int}
    (h : send request = .ok (wire, ep, timeoutMs)) :
    (∀ name, wire.headers.find name =
      (lastValue request.headers name).or (defaultValue request name)) ∧
    wire.body = request.body ∧
    (wire.isValid = true ↔
      (lastValue request.headers (ascii ":method")).getD request.method ≠ ascii "CONNECT") ∧
    ep.port ≠ 0 ∧ request.method ≠ [] ∧ request.target.head? = some 0x2f := by
  unfold send at h
  cases hvalid : validateRequest request with
  | some invalidResponse =>
    rw [hvalid] at h
    cases h
  | none =>
    rw [hvalid] at h
    cases h
    have hport : (withPort request.endpoint).port ≠ 0 := by
      unfold withPort
      split
      · exact defaultPort_ne_zero request.endpoint
      · assumption
    have hchecked : request.method ≠ [] ∧ request.target.head? = some 0x2f := by
      simp only [validateRequest] at hvalid
      split at hvalid
      · cases hvalid
      split at hvalid
      · cases hvalid
      rename_i hmethod
      split at hvalid
      · cases hvalid
      split at hvalid
      · cases hvalid
      · rename_i htarget
        exact ⟨hmethod, not_not.1 htarget⟩
    exact ⟨find_buildWireRequest request, body_buildWireRequest request,
      isValid_buildWireRequest request, hport, hchecked⟩

/-- A POST request with a header of the user in place of a default one. -/
def samplePost : Request where
  endpoint := { host := ascii "a" }
  method := ascii "POST"
  headers := [{ name := ascii "accept", value := ascii "text/*" }]
  body := ascii "0123456789"

theorem sent_request_post : ∃ wire ep, send samplePost = .ok (wire, ep, -1) ∧
    wire.headers.find (ascii "accept") = some (ascii "text/*") ∧
    wire.headers.find (ascii "content-length") = some (ascii "10") ∧
    wire.body = ascii "0123456789" ∧ wire.isValid = true ∧ ep.port ≠ 0 := by
  have hsend : send samplePost =
      .ok (buildWireRequest samplePost, withPort samplePost.endpoint, -1) := rfl
  obtain ⟨hfields, hbody, hvalid, hport, -⟩ := sent_request hsend
  refine ⟨_, _, hsend, ?_, ?_, hbody, hvalid.2 (by decide), hport⟩
  · rw [hfields]
    decide
  · rw [hfields]
    decide

end Sent

/-! ## Origins -/

section Origins

variable {ep ep' : Endpoint}

/-- What stands behind the host in an authority. -/
def portSuffix (ep : Endpoint) : Bytes :=
  if ep.port ≠ 0 ∧ ep.port ≠ defaultPort ep then ascii ":" ++ toDecimal ep.port.toNat else []

theorem authority_eq (htype : ep.type = .tcp) : authority ep = ep.target ++ portSuffix ep := by
  have htarget : ep.target = if ep.host = [] then ep.ip else ep.host := by
    rw [Endpoint.target, if_neg (by rw [htype]; decide)]
  rw [authority, portSuffix, htarget]
  split
  · rw [List.append_assoc]
  · rw [List.append_nil]

/-- The host of an authority is what stands before the first colon. -/
theorem takeWhile_authority (htype : ep.type = .tcp) (hname : (0x3a : UInt8) ∉ ep.target) :
    (authority ep).takeWhile (fun c => c ≠ 0x3a) = ep.target := by
  have hsuffix : (portSuffix ep).takeWhile (fun c => c ≠ 0x3a) = [] := by
    unfold portSuffix
    split <;> rfl
  have hhost : ∀ c ∈ ep.target, decide (c ≠ 0x3a) = true := fun c hc =>
    decide_eq_true fun heq => hname (heq ▸ hc)
  rw [authority_eq htype, List.takeWhile_append_of_pos hhost, hsuffix, List.append_nil]

theorem scheme_inj : scheme ep = scheme ep' ↔ ep.useSSL = ep'.useSSL := by
  unfold scheme
  cases ep.useSSL <;> cases ep'.useSSL <;> decide

theorem port_withPort (ep : Endpoint) :
    (withPort ep).port = if ep.port = 0 then defaultPort ep else ep.port := by
  unfold withPort
  split <;> rfl

/-- For one scheme the suffix tells the port. -/
theorem portSuffix_inj (hssl : ep.useSSL = ep'.useSSL) :
    portSuffix ep = portSuffix ep' ↔ (withPort ep).port = (withPort ep').port := by
  have hdefault : defaultPort ep = defaultPort ep' := by rw [defaultPort, defaultPort, hssl]
  have hsuffix : ∀ ep : Endpoint, portSuffix ep =
      if (withPort ep).port = defaultPort ep then []
      else ascii ":" ++ toDecimal (withPort ep).port.toNat := by
    intro ep
    rw [portSuffix, port_withPort]
    -- a default port may be left out or written, and has no suffix either way
    by_cases hzero : ep.port = 0
    · rw [if_neg (by simp [hzero]), if_pos hzero, if_pos rfl]
    · by_cases hport : ep.port = defaultPort ep
      · rw [if_neg (by simp [hport]), if_neg hzero, if_pos hport]
      · rw [if_pos ⟨hzero, hport⟩, if_neg hzero, if_neg hport]
  constructor
  · intro h
    rw [hsuffix, hsuffix, hdefault] at h
    split at h
    · rename_i hport
      split at h
      · rename_i hport'
        exact hport.trans hport'.symm
      · cases h
    · split at h
      · cases h
      · have hdecimal := toDecimal_injective (List.append_cancel_left h)
        exact UInt16.toNat_inj.1 hdecimal
  · intro h
    rw [hsuffix, hsuffix, hdefault, h]

/-- Two requests over TCP to hosts without a colon are filed under one endpoint if and only if they
have the same scheme and the same authority. -/
theorem sameKey_iff_sameOrigin (htype : ep.type = .tcp) (htype' : ep'.type = .tcp)
    (hname : (0x3a : UInt8) ∉ ep.target) (hname' : (0x3a : UInt8) ∉ ep'.target) :
    (withPort ep).key = (withPort ep').key ↔
      scheme ep = scheme ep' ∧ authority ep = authority ep' := by
  have hkey : ∀ {ep : Endpoint}, ep.type = .tcp →
      (withPort ep).key = .tcp ep.target (withPort ep).port ep.useSSL := by
    intro ep htype
    obtain ⟨host, port, useSSL, certFile, ip, sockFile, type⟩ := ep
    cases htype
    unfold withPort
    split <;> rfl
  rw [hkey htype, hkey htype', EndpointKey.tcp.injEq, scheme_inj]
  constructor
  · rintro ⟨htarget, hport, hssl⟩
    refine ⟨hssl, ?_⟩
    rw [authority_eq htype, authority_eq htype', htarget, (portSuffix_inj hssl).2 hport]
  · rintro ⟨hssl, hauthority⟩
    have htarget : ep.target = ep'.target := by
      rw [← takeWhile_authority htype hname, hauthority, takeWhile_authority htype' hname']
    refine ⟨htarget, ?_, hssl⟩
    rw [authority_eq htype, authority_eq htype', htarget] at hauthority
    exact (portSuffix_inj hssl).1 (List.append_cancel_left hauthority)

theorem sameKey_of_default_port :
    (withPort { host := ascii "a" }).key = (withPort { ip := ascii "a", port := 80 }).key := by
  have hname : (0x3a : UInt8) ∉ ({ host := ascii "a" } : Endpoint).target := by decide
  have hname' : (0x3a : UInt8) ∉ ({ ip := ascii "a", port := 80 } : Endpoint).target := by decide
  exact (sameKey_iff_sameOrigin rfl rfl hname hname').2 ⟨rfl, rfl⟩

end Origins

/-! ## Through the session -/

section Served

open Http2Session

variable {κ : Type} {config : ClientConfig} {tr : List (Http2Session.Entry κ)} {y : Wire κ}

/-- The fields of a request that has arrived are found by their names. -/
theorem find_fields {wire : Chttp2.Request} {incoming : Server.Incoming}
    (h : incoming.Faithful wire) (name : Bytes) :
    (incoming.fields.find? fun field => field.name = name).map HeaderField.value =
      wire.headers.find name := by
  rw [h.fields, ProtocolState.buildRequestHeaderFields, List.find?_map, Option.map_map]
  rfl

/-- Along every run of a session that sends requests of the client over a byte stream, whatever the
server has of a request has been given by a user: under every name the value of the user, or the
default one, and a beginning of the body, which is all of it once END_STREAM has arrived. -/
theorem served_as_given (hconfig : config.Fits) (hwindow : config.initialWindowSize ≤ 65535)
    (h : Wired config tr y)
    (hclient : ∀ z ∈ submitted tr, ∃ request : Request, z.2 = buildWireRequest request)
    {id : StreamId} {incoming : Server.Incoming} (hfind : y.server.requests id = some incoming) :
    ∃ request, (id, buildWireRequest request) ∈ submitted tr ∧
      (∀ name, (incoming.fields.find? fun field => field.name = name).map HeaderField.value =
        (lastValue request.headers name).or (defaultValue request name)) ∧
      incoming.body <+: request.body ∧ (incoming.ended = true → incoming.body = request.body) := by
  obtain ⟨ptr, x, href⟩ := refines_of_wired hconfig hwindow h
  rw [← href.peer] at hfind
  obtain ⟨wire, hmem, hfaithful⟩ := faithful_of_linked hwindow href.tracks.linked hfind
  rw [href.submitted] at hmem
  obtain ⟨request, rfl⟩ := hclient _ hmem
  have hbody := body_buildWireRequest request
  refine ⟨request, hmem, fun name => ?_, hbody ▸ hfaithful.body, fun hended => ?_⟩
  · rw [find_fields hfaithful, find_buildWireRequest]
  · exact (hfaithful.ended hended).trans hbody

theorem served_as_given_post : ∃ tr, ∃ y : Wire Nat, ∃ incoming, Wired {} tr y ∧
    y.server.requests 1 = some incoming ∧
    ∃ request, (1, buildWireRequest request) ∈ submitted tr ∧
      (∀ name, (incoming.fields.find? fun field => field.name = name).map HeaderField.value =
        (lastValue request.headers name).or (defaultValue request name)) ∧
      incoming.body <+: request.body ∧ (incoming.ended = true → incoming.body = request.body) := by
  have hrun : (Machine.run apply (startSession {} : Http2Session Nat)
      [.submit (buildWireRequest samplePost) 7 false false (.id _) (.id _),
        .onWritable [.ok 24, .ok 39, .ok 20, .ok 18, .ok 19]]).map
        (fun x => sentCheck (buildWireRequest samplePost) x.1 x.2) = .ok true := by decide +kernel
  obtain ⟨tr, y, h, hsubmitted, hhealthy, hqueue, hserver, -⟩ := wired_of_request _ hrun
  obtain ⟨v, -, hserved, hall, -⟩ := h.served (by decide) (by decide) hhealthy hqueue hserver
  obtain ⟨incoming, hfind, -⟩ :=
    hall (1, buildWireRequest samplePost) (by rw [hsubmitted]; exact .head _)
  have hclient : ∀ z ∈ submitted tr, ∃ request : Request, z.2 = buildWireRequest request := by
    intro z hz
    rw [hsubmitted, List.mem_singleton] at hz
    exact ⟨samplePost, by rw [hz]⟩
  exact ⟨tr, _, incoming, hserved, hfind,
    served_as_given (by decide) (by decide) hserved hclient hfind⟩

end Served

end Client

end Chttp2
