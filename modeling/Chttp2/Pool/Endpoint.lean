import Chttp2.Bytes

/-!
# Endpoints

`Endpoint` says where a request goes. The connection manager files connections and waiting requests
under endpoints, which it compares by `operator==`, and `StreamTransportFactory::create` reads the
fields again when it dials.

Two endpoints are equal if and only if they have the same key (`equal_iff_key`), and equal endpoints
have equal hashes (`EndpointHash.congr`): an unordered map from endpoints is a table with the keys
`Endpoint.key`. What `create` makes of equal endpoints is the same if and only if they agree in the
fields that `operator==` leaves out and `create` reads (`create_eq_iff`).
-/

set_option autoImplicit false

namespace Chttp2

/-- The socket of an endpoint. -/
inductive SocketType where
  | tcp
  | unix
  deriving DecidableEq, Repr

/-- `Endpoint`. For a unix socket only `sockFile` is dialled. -/
structure Endpoint where
  host : Bytes := []
  port : UInt16 := 0
  useSSL : Bool := false
  certFile : Bytes := []
  ip : Bytes := []
  sockFile : Bytes := []
  type : SocketType := .tcp
  deriving DecidableEq, Repr

/-- What `operator==` compares. -/
inductive EndpointKey where
  | unix (sockFile : Bytes)
  | tcp (target : Bytes) (port : UInt16) (useSSL : Bool)
  deriving DecidableEq, Repr

namespace Endpoint

/-- The effective connection target: `sockFile` for UNIX, `host` or `ip` for TCP. -/
def target (ep : Endpoint) : Bytes :=
  if ep.type = .unix then ep.sockFile else if ep.host = [] then ep.ip else ep.host

/-- `operator==`. -/
def equal (ep other : Endpoint) : Bool :=
  if ep.type ≠ other.type then false
  else if ep.type = .unix then ep.sockFile = other.sockFile
  else ep.target = other.target && ep.port = other.port && ep.useSSL = other.useSSL

/-- `makeKey` as a value: what two endpoints have in common that share a connection. -/
def key (ep : Endpoint) : EndpointKey :=
  match ep.type with
  | .unix => .unix ep.sockFile
  | .tcp => .tcp ep.target ep.port ep.useSSL

theorem equal_iff_key {ep other : Endpoint} : ep.equal other = true ↔ ep.key = other.key := by
  unfold equal key
  cases htype : ep.type <;> cases hother : other.type <;> simp [and_assoc]

theorem key_congr {ep other : Endpoint} (h : ep.key = other.key) :
    ep.type = other.type ∧ ep.target = other.target := by
  unfold key at h
  cases htype : ep.type <;> cases hother : other.type <;> simp only [htype, hother] at h
  · exact ⟨rfl, (EndpointKey.tcp.inj h).1⟩
  · cases h
  · cases h
  · refine ⟨rfl, ?_⟩
    rw [target, target, if_pos htype, if_pos hother]
    exact EndpointKey.unix.inj h

end Endpoint

/-! ## Hashing -/

/-- The instances of `std::hash` that `EndpointHash` uses. -/
structure StdHash where
  string : Bytes → UInt64
  uint16 : UInt16 → UInt64
  bool : Bool → UInt64

/-- `h ^= value + 0x9e3779b9 + (h << 6) + (h >> 2)`. -/
def EndpointHash.mix (h value : UInt64) : UInt64 :=
  h ^^^ (value + 0x9e3779b9 + (h <<< (6 : UInt64)) + (h >>> (2 : UInt64)))

/-- `EndpointHash`, with a `std::size_t` of 64 bits. -/
def EndpointHash (hash : StdHash) (ep : Endpoint) : UInt64 :=
  let h := hash.string ep.target
  if ep.type = .unix then h
  else EndpointHash.mix (EndpointHash.mix h (hash.uint16 ep.port)) (hash.bool ep.useSSL)

/-- Equal endpoints have equal hashes. -/
theorem EndpointHash.congr (hash : StdHash) {ep other : Endpoint}
    (h : ep.equal other = true) : EndpointHash hash ep = EndpointHash hash other := by
  have hkey := Endpoint.equal_iff_key.1 h
  obtain ⟨htype, htarget⟩ := Endpoint.key_congr hkey
  unfold EndpointHash
  rw [← htype, ← htarget]
  split
  · rfl
  · rename_i hunix
    rw [Endpoint.equal, if_neg (not_not.2 htype), if_neg hunix] at h
    simp only [Bool.and_eq_true, decide_eq_true_eq] at h
    rw [h.1.2, h.2]

/-! ## Dialing -/

/-- The connection that `create` asks `Connector` for. -/
inductive Dial where
  | connectUnix (sockFile : Bytes)
  | connectIp (ip : Bytes) (port : UInt16)
  | connectDomain (domain : Bytes) (port : UInt16)
  deriving DecidableEq, Repr

/-- The arguments of `TlsStreamTransport` besides the socket. -/
structure TlsParams where
  domain : Bytes
  certFile : Bytes
  deriving DecidableEq, Repr

/-- The parameters from which a transport is made; a transport without TLS is a plain one. -/
structure TransportParams where
  dial : Dial
  tls : Option TlsParams
  deriving DecidableEq, Repr

namespace StreamTransportFactory

/-- The cases of `create` that choose the connection; `none` stands for `Missing endpoint`. -/
def dial (ep : Endpoint) : Option Dial :=
  if ep.type = .unix then some (.connectUnix ep.sockFile)
  else if ep.ip ≠ [] then some (.connectIp ep.ip ep.port)
  else if ep.host ≠ [] then some (.connectDomain ep.host ep.port)
  else none

/-- `create`, up to the socket and the connect timeout. -/
def create (ep : Endpoint) : Option TransportParams :=
  (dial ep).map fun dial =>
    { dial, tls := if ep.useSSL then some ⟨ep.host, ep.certFile⟩ else none }

end StreamTransportFactory

namespace Endpoint

open StreamTransportFactory

/-- There is nothing to dial. -/
def Missing (ep : Endpoint) : Prop := ep.type = .tcp ∧ ep.target = []

/-- The endpoints agree in what `create` reads besides the key. -/
structure AgreesWith (ep other : Endpoint) : Prop where
  ip : ep.type = .tcp → ep.ip = other.ip
  useSSL : ep.useSSL = other.useSSL
  host : ep.useSSL = true → ep.host = other.host
  certFile : ep.useSSL = true → ep.certFile = other.certFile

instance (ep other : Endpoint) : Decidable (ep.AgreesWith other) :=
  decidable_of_iff ((ep.type = .tcp → ep.ip = other.ip) ∧ ep.useSSL = other.useSSL ∧
      (ep.useSSL = true → ep.host = other.host) ∧ (ep.useSSL = true → ep.certFile = other.certFile))
    ⟨fun h => ⟨h.1, h.2.1, h.2.2.1, h.2.2.2⟩, fun h => ⟨h.ip, h.useSSL, h.host, h.certFile⟩⟩

instance (ep : Endpoint) : Decidable ep.Missing := inferInstanceAs (Decidable (_ ∧ _))

theorem missing_iff {ep : Endpoint} : ep.Missing ↔ ep.type = .tcp ∧ ep.host = [] ∧ ep.ip = [] := by
  unfold Missing target
  constructor
  · rintro ⟨htype, h⟩
    rw [if_neg (by simp [htype])] at h
    split at h
    · rename_i hhost
      exact ⟨htype, hhost, h⟩
    · contradiction
  · rintro ⟨htype, hhost, hip⟩
    exact ⟨htype, by rw [if_neg (by simp [htype]), if_pos hhost, hip]⟩

theorem dial_eq_none_iff {ep : Endpoint} : dial ep = none ↔ ep.Missing := by
  rw [missing_iff]
  unfold dial
  cases htype : ep.type
  · by_cases hip : ep.ip = [] <;> by_cases hhost : ep.host = [] <;> simp [hip, hhost]
  · simp

/-- Equal endpoints with a target are dialed in the same way if and only if a TCP endpoint has the
same literal ip. -/
theorem dial_eq_iff {ep other : Endpoint} (h : ep.key = other.key) (hmissing : ¬ ep.Missing) :
    dial ep = dial other ↔ (ep.type = .tcp → ep.ip = other.ip) := by
  obtain ⟨htype, htarget⟩ := key_congr h
  cases hep : ep.type with
  | unix =>
    rw [target, target, ← htype, if_pos hep] at htarget
    simp [dial, hep, ← htype, htarget]
  | tcp =>
    have hother : other.type = .tcp := htype.symm.trans hep
    have hport : ep.port = other.port := by
      simp only [key, hep, hother] at h
      exact (EndpointKey.tcp.inj h).2.1
    rw [missing_iff] at hmissing
    simp only [target, hep, hother, reduceCtorEq, if_false] at htarget
    simp only [dial, hep, hother, reduceCtorEq, if_false, ← hport]
    by_cases hip : ep.ip = [] <;> by_cases hip' : other.ip = []
    · -- both are dialed by name, and the target is the name
      have hhost : ep.host ≠ [] := fun hhost => hmissing ⟨hep, hhost, hip⟩
      have hhost' : other.host = ep.host := by
        by_cases hempty : other.host = []
        · rw [if_neg hhost, if_pos hempty, hip'] at htarget
          exact absurd htarget hhost
        · rw [if_neg hhost, if_neg hempty] at htarget
          exact htarget.symm
      simp [hip, hip', hhost, hhost']
    · by_cases hhost : ep.host = [] <;> simp [hip, hip', hhost, eq_comm]
    · by_cases hhost : other.host = [] <;> simp [hip, hip', hhost]
    · simp [hip, hip']

/-- For all endpoints that compare equal: `create` makes the same of both if and only if there is
nothing to dial or they agree in the ip of a TCP endpoint, the use of TLS and, under TLS, the host
and the CA file. -/
theorem create_eq_iff {ep other : Endpoint} (h : ep.equal other = true) :
    create ep = create other ↔ ep.Missing ∨ ep.AgreesWith other := by
  have hkey := equal_iff_key.1 h
  by_cases hmissing : ep.Missing
  · have hother : other.Missing := by
      obtain ⟨htype, htarget⟩ := key_congr hkey
      exact ⟨htype.symm.trans hmissing.1, htarget.symm.trans hmissing.2⟩
    rw [create, create, dial_eq_none_iff.2 hmissing, dial_eq_none_iff.2 hother]
    exact iff_of_true rfl (Or.inl hmissing)
  · have hdial := dial_eq_iff hkey hmissing
    obtain ⟨d, hd⟩ := Option.ne_none_iff_exists'.1 (mt dial_eq_none_iff.1 hmissing)
    constructor
    · intro heq
      have hdials : dial ep = dial other := by
        have hmap := congrArg (Option.map TransportParams.dial) heq
        simpa [create, Function.comp_def] using hmap
      rw [create, create, ← hdials, hd] at heq
      simp only [Option.map_some, Option.some.injEq, TransportParams.mk.injEq, true_and] at heq
      refine Or.inr ⟨hdial.1 hdials, ?_, ?_, ?_⟩
      all_goals
        cases hssl : ep.useSSL <;> cases hssl' : other.useSSL <;> simp_all
    · rintro (hm | hagrees)
      · exact absurd hm hmissing
      · rw [create, create, hdial.2 hagrees.ip, ← hagrees.useSSL]
        cases hssl : ep.useSSL with
        | false => rfl
        | true => rw [hagrees.host hssl, hagrees.certFile hssl]

end Endpoint

end Chttp2
