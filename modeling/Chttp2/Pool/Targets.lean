import Chttp2.Pool.Filing

/-!
# Which connections carry which requests

A request is handed only to a connection whose endpoint equals its own, in the sense of `operator==`
(`handedOver_equal`). Equal endpoints may be dialed differently: the transport of a request is that
of its connection if the endpoints of the run are unambiguous (`handedOver_same_transport`).
-/

set_option autoImplicit false

namespace Chttp2

namespace ConnectionManager

section Runs

open StreamTransportFactory

variable {S : Endpoint → Prop} {config : ConnectionConfig}
  {tr : List (Machine.Entry ConnectionManager Op Unit)} {m : ConnectionManager}

/-- The endpoints that `sendAsync` has been called with. -/
def sentEndpoints (tr : List (Machine.Entry ConnectionManager Op Unit)) : List Endpoint :=
  tr.filterMap fun e => e.input.endpoint

theorem sentEndpoints_eq (tr : List (Machine.Entry ConnectionManager Op Unit)) :
    sentEndpoints tr = (tr.map Machine.Entry.input).filterMap Op.endpoint := by
  rw [List.filterMap_map]
  rfl

/-- A run files everything under its key, for every set that holds the endpoints of its requests. -/
theorem runs_filed (hr : Machine.Runs step (.ofConfig config) tr m)
    (hS : ∀ ep ∈ sentEndpoints tr, S ep) : ∃ owner, Filed S owner m := by
  have hop : ∀ e ∈ tr, ∀ ep, e.input.endpoint = some ep → S ep :=
    fun e he ep hep => hS ep (List.mem_filterMap.2 ⟨e, he, hep⟩)
  refine hr.invariant_of (I := fun _ m => ∃ owner, Filed S owner m)
    ⟨fun _ => none, filed_ofConfig config⟩ ?_ hop
  rintro tr m op m' o - ⟨owner, h⟩ hC hstep
  obtain ⟨m₁, happly, hret⟩ := managed_bind_eq_ok.1 hstep
  cases hret
  exact h.apply hC happly

/-- In every run, a request is handed only to a connection that has been made for an equal
endpoint. -/
theorem handedOver_equal (hr : Machine.Runs step (.ofConfig config) tr m)
    {h : PendingRequest × Endpoint} (hmem : h ∈ m.handedOver) :
    h.1.endpoint ∈ sentEndpoints tr ∧ h.2 ∈ sentEndpoints tr ∧ h.1.endpoint.equal h.2 = true := by
  obtain ⟨owner, hfiled⟩ := runs_filed hr fun _ hep => hep
  obtain ⟨hconn, hpr, hkey⟩ := hfiled.handedOver h hmem
  exact ⟨hpr, hconn, Endpoint.equal_iff_key.2 hkey⟩

/-- Endpoints that compare equal have nothing to dial or agree in what `create` reads. -/
def Unambiguous (endpoints : List Endpoint) : Prop :=
  ∀ ep ∈ endpoints, ∀ other ∈ endpoints,
    ep.equal other = true → ep.Missing ∨ ep.AgreesWith other

instance (endpoints : List Endpoint) : Decidable (Unambiguous endpoints) :=
  inferInstanceAs (Decidable (∀ ep ∈ endpoints, _))

/-- For every configuration and every run whose requests go to unambiguous endpoints: dialing the
endpoint of a request uses the same parameters as dialing the endpoint of the connection that the
request is handed to. -/
theorem handedOver_same_transport (hr : Machine.Runs step (.ofConfig config) tr m)
    (hclear : Unambiguous (sentEndpoints tr)) :
    ∀ h ∈ m.handedOver, create h.1.endpoint = create h.2 := by
  intro h hmem
  obtain ⟨hpr, hconn, hequal⟩ := handedOver_equal hr hmem
  exact (Endpoint.create_eq_iff hequal).2 (hclear _ hpr _ hconn hequal)

/-- A request to an endpoint, over a new connection, and a request to another one. -/
def twoRequests (first second : Endpoint) : List Op :=
  [.sendAsync getRequest first (-1) true, .continueSend 1, .continueSend 1, .continueSend 1,
    .runTask true .none, .work .none, .work .none, .connect true, .runTask true .none,
    .work .none, .work .none, .work .none, .work .none, .sendAsync getRequest second (-1) true,
    .continueSend 2, .continueSend 2, .continueSend 2, .runTask true .none, .work .none]

/-- An endpoint that is dialed by name. -/
def namedEndpoint : Endpoint := { host := ascii "example.com", port := 443, useSSL := true }

/-- An endpoint without TLS, for which `certFile` is not read. -/
def plainEndpoint : Endpoint := { host := ascii "example.com", port := 80 }

/-- Two requests to endpoints that differ in a certificate share a connection without TLS. -/
theorem handedOver_same_transport_plain :
    ∃ tr, ∃ m : ConnectionManager, Machine.Runs step (.ofConfig {}) tr m ∧
      m.handedOver.map (fun h => (h.1.endpoint.certFile, h.2.certFile)) =
        [([], []), (ascii "ca.pem", [])] ∧
      ∀ h ∈ m.handedOver, create h.1.endpoint = create h.2 := by
  have hrun : (Machine.run step (.ofConfig {}) (twoRequests plainEndpoint
      { plainEndpoint with certFile := ascii "ca.pem" })).map
      (fun x => x.1.handedOver.map fun h => (h.1.endpoint.certFile, h.2.certFile)) =
      .ok [([], []), (ascii "ca.pem", [])] := by
    decide +kernel
  obtain ⟨m, tr, hr, hin, hendpoints⟩ := Machine.exists_runs_of_map hrun
  have hclear : Unambiguous (sentEndpoints tr) := by
    rw [sentEndpoints_eq, hin]
    decide
  exact ⟨tr, m, hr, hendpoints, handedOver_same_transport hr hclear⟩

/-- A request with a literal ip is handed to the connection that has been dialed by name. -/
theorem direct_ip_shares_named_connection :
    ∃ tr, ∃ m : ConnectionManager, Machine.Runs step (.ofConfig {}) tr m ∧
      ¬ ∀ h ∈ m.handedOver, create h.1.endpoint = create h.2 := by
  have hrun : (Machine.run step (.ofConfig {}) (twoRequests namedEndpoint
      { namedEndpoint with ip := ascii "93.184.216.34" })).map
      (fun x => decide (∀ h ∈ x.1.handedOver, create h.1.endpoint = create h.2)) = .ok false := by
    decide +kernel
  obtain ⟨m, tr, hr, -, hdiffers⟩ := Machine.exists_runs_of_map hrun
  exact ⟨tr, m, hr, of_decide_eq_false hdiffers⟩

end Runs

end ConnectionManager

end Chttp2
