import Chttp2.Protocol.Conveyance

/-!
# Requests arrive

A connection and its server are joined by two channels that deliver at any time (`ConnectionLinked`).
Every step of the connection makes the server receive what the step sends (`simulates`). Through the
channels this gives that everything passes the checks of the server (`peer_accepts`), that what it has
of a request is right at every moment (`requests_faithful`), and that nothing is lost once the channel
is empty (`requests_arrive`).
-/

set_option autoImplicit false

namespace Chttp2

open ProtocolState Channels

/-! ## The connection and the server -/

/-- A connection and its server. The server may send every frame but PRIORITY frames of a wrong
size, which the connection answers with RST_STREAM on whatever stream they name. -/
def connectionParties :
    Parties ProtocolState Action ProtocolStepResult Fault Server OutboundBuffer RawFrame where
  step := act
  out := ProtocolStepResult.outbound
  deliver := .receiveFrame
  -- frames come from the server only, and the length of a block is within the decoder's integers
  allowed := fun p a => match a with
    | .receiveFrame _ => False
    | .submitRequest request _ =>
      (p.hpack.encode (buildRequestHeaderFields request)).1.length < 2 ^ 31
    | _ => True
  recv := Server.Receives
  tell := Server.tell
  legal := fun f => f.header.type = .priority → f.header.payloadLength = 5

/-- A connection that has been started, and a new server. -/
def startLink (config : ClientConfig) : Link ProtocolState Server OutboundBuffer RawFrame where
  machine := (ofConfig config).start.1
  peer := {}
  toPeer := (ofConfig config).start.2.outbound
  toMachine := []

/-- The run of a client that is started and does no more. -/
def startTrace (config : ClientConfig) : List Entry :=
  [⟨ofConfig config, .start, (ofConfig config).start.2⟩]

/-- The connection and its server are linked. -/
abbrev ConnectionLinked (config : ClientConfig) (tr : List Entry)
    (x : Link ProtocolState Server OutboundBuffer RawFrame) : Prop :=
  Linked connectionParties (startTrace config) (startLink config) tr x

/-- The server has received all that a connection has sent along `tr`. -/
structure Conveys (config : ClientConfig) (tr : List Entry) (p : ProtocolState) (v : Server) :
    Prop where
  runs : Runs (ofConfig config) tr p
  started : p.started = true
  nodup : ((submissions tr).map Prod.fst).Nodup
  lt_next : ∀ x ∈ submissions tr, x.1 < p.nextStreamId
  conveyed : Server.Conveyed (submissions tr) v
  live : p.closed = true ∨ Server.Live (submissions tr) [] p v

section System

variable {config : ClientConfig} {tr : List Entry} {p p' : ProtocolState} {v v' : Server}
  {a : Action} {r : ProtocolStepResult}

theorem polite_connectionParties : Polite connectionParties where
  unique := Server.Receives.unique
  commutes := fun h f => h.tell f

/-- A step that opens no stream. -/
theorem Conveys.step (h : Conveys config tr p v) (hact : p.act a = .ok (p', r))
    (hnone : submission ⟨p, a, r⟩ = none) (hconveyed : Server.Conveyed (submissions tr) v')
    (hlive : p'.closed = true ∨ Server.Live (submissions tr) [] p' v') :
    Conveys config (tr ++ [⟨p, a, r⟩]) p' v' := by
  have hstep := actionStep_of_act (sound_of_runs h.runs) hact
  have hsame : submissions (tr ++ [⟨p, a, r⟩]) = submissions tr := submissions_snoc hnone
  refine ⟨.snoc h.runs hact, hstep.started_of_started h.started, ?_, ?_, ?_, ?_⟩
  · rw [hsame]
    exact h.nodup
  · rw [hsame]
    exact fun x hx => (h.lt_next x hx).trans_le hstep.next_le
  · rw [hsame]
    exact hconveyed
  · rw [hsame]
    exact hlive

/-- A step that opens a stream. -/
theorem Conveys.opened {request : Request} {rehash : Reorder Stream} (h : Conveys config tr p v)
    (hopen : p.closed = false)
    (hact : p.act (.submitRequest request rehash) = .ok (p', {
      outbound := p.requestHeaderFrames request ++ r.outbound
      events := .streamOpened p.nextStreamId :: r.events
      submittedStreamId := some p.nextStreamId }))
    (hbody : BodyStep ((p.opening request rehash).putStream (p.openedStream request))
      (p.openedStream request) p' r)
    (hshort : (p.hpack.encode (buildRequestHeaderFields request)).1.length < 2 ^ 31) :
    ∃ v', ReceivesAll Server.Receives v (p.requestHeaderFrames request ++ r.outbound) v' ∧
      Conveys config (tr ++ [⟨p, .submitRequest request rehash, {
        outbound := p.requestHeaderFrames request ++ r.outbound
        events := .streamOpened p.nextStreamId :: r.events
        submittedStreamId := some p.nextStreamId }⟩]) p' v' := by
  have hnot : ¬ p.closed = true := by simp [hopen]
  have hlive := h.live.resolve_left hnot
  have hmax : 0 < p.maxFrameSize :=
    lt_of_lt_of_le (by decide) ((maxFrameSize_of_runs h.runs).resolve_left hnot).2
  have hstep := actionStep_of_act (sound_of_runs h.runs) hact
  obtain ⟨v₁, hall₁, hlive₁⟩ := hlive.opening rehash (tidy_of_runs h.runs) hmax hshort
  have hfind : ((p.opening request rehash).putStream (p.openedStream request)).streams.find?
      (p.openedStream request).streamId = some (p.openedStream request) := by
    have hid : (p.openedStream request).streamId = p.nextStreamId := rfl
    rw [hid, find?_opening, if_pos rfl]
  obtain ⟨v', hall, hlive'⟩ := hlive₁.bodyStep hfind (stateOk_openedStream p request) hbody
  have hsubs : submissions (tr ++ [⟨p, .submitRequest request rehash, {
      outbound := p.requestHeaderFrames request ++ r.outbound
      events := .streamOpened p.nextStreamId :: r.events
      submittedStreamId := some p.nextStreamId }⟩]) =
      submissions tr ++ [(p.nextStreamId, request)] := submissions_snoc_some rfl
  have hnext : p.nextStreamId < p'.nextStreamId := by
    rw [(steady_bodyStep hbody).nextStreamId]
    exact Nat.lt_add_of_pos_right (by decide : 0 < 2)
  refine ⟨v', hall₁.append hall, .snoc h.runs hact, hstep.started_of_started h.started, ?_, ?_, ?_,
    Or.inr ?_⟩
  · rw [hsubs, List.map_append, List.nodup_append]
    refine ⟨h.nodup, by simp, fun k hk j hj => ?_⟩
    obtain ⟨x, hx, rfl⟩ := List.mem_map.1 hk
    obtain rfl : j = p.nextStreamId := by simpa using hj
    exact (h.lt_next x hx).ne
  · rw [hsubs]
    intro x hx
    rcases List.mem_append.1 hx with hx | hx
    · exact (h.lt_next x hx).trans hnext
    · rw [List.mem_singleton.1 hx]
      exact hnext
  · rw [hsubs]
    exact hlive'.conveyed
  · rw [hsubs]
    exact hlive'

/-- A closed connection sends nothing more. -/
theorem Conveys.closed (h : Conveys config tr p v) (hclosed : p.closed = true)
    (hact : p.act a = .ok (p', r)) (hrequests : v'.requests = v.requests) :
    r.outbound = [] ∧ Conveys config (tr ++ [⟨p, a, r⟩]) p' v' := by
  have hstep := actionStep_of_act (sound_of_runs h.runs) hact
  have hnone : submission ⟨p, a, r⟩ = none := by
    cases hstep with
    | opened request rehash hcan =>
      have hopen := canSubmitRequests_open hcan
      rw [hclosed] at hopen
      cases hopen
    | _ => rfl
  exact ⟨hstep.silent_of_closed hclosed h.started, h.step hact hnone
    (h.conveyed.of_requests hrequests) (Or.inl (hstep.closed_of_closed hclosed))⟩

/-- The server accepts every step of the connection. -/
theorem simulates (config : ClientConfig) : Simulates connectionParties (Conveys config) where
  acts := by
    intro tr p v a p' r h hallowed hact
    by_cases hclosed : p.closed = true
    · obtain ⟨hout, h'⟩ := h.closed hclosed hact (Eq.refl v.requests)
      refine ⟨v, ?_, h'⟩
      show ReceivesAll _ v r.outbound v
      rw [hout]
      exact .nil v
    have hstep := actionStep_of_act (sound_of_runs h.runs) hact
    have hlive := h.live.resolve_left hclosed
    have hframe : ∀ f, a ≠ .receiveFrame f := by
      rintro f rfl
      exact hallowed
    -- only `submitRequest` opens a stream
    have hother : r.submittedStreamId = none → ∃ v', ReceivesAll Server.Receives v r.outbound v' ∧
        Conveys config (tr ++ [⟨p, a, r⟩]) p' v' := by
      intro hnone
      obtain ⟨v', hall, hconveyed, hlive'⟩ := hlive.acts h.started hstep hframe hnone
      exact ⟨v', hall, h.step hact (submission_of_none hnone) hconveyed hlive'⟩
    cases hstep with
    | opened request rehash hcan hvalid hroom hpos hmax hbody =>
      exact h.opened (by simpa using hclosed) hact hbody hallowed
    | frame f => exact absurd rfl (hframe f)
    | _ => exact hother rfl
  hears := by
    intro tr p v f p' r h hlegal hs
    have hact : p.act (.receiveFrame f) = .ok (p', r) := hs
    obtain ⟨hrequests, -⟩ := v.same_tell f
    by_cases hclosed : p.closed = true
    · obtain ⟨hout, h'⟩ := h.closed hclosed hact hrequests
      refine ⟨v.tell f, ?_, h'⟩
      show ReceivesAll _ (v.tell f) r.outbound (v.tell f)
      rw [hout]
      exact .nil _
    have hstep := actionStep_of_act (sound_of_runs h.runs) hact
    cases hstep with
    | frameIgnored f hdown =>
      -- a connection that has lost its transport is closed
      exact absurd (hdown.elim id (closed_of_lost_transport h.runs)) hclosed
    | frame f hopen hup hframe =>
      obtain ⟨v', hall, hconveyed, hlive⟩ := (h.live.resolve_left hclosed).effect
        (stateOk_of_runs h.runs) (hframe.effect hlegal)
      exact ⟨v', hall, h.step hact rfl hconveyed hlive⟩

/-- The first two buffers make a new server ready. -/
theorem inFlight_start (hconfig : config.initialWindowSize ≤ 65535) :
    InFlight connectionParties (Conveys config) (startTrace config) (startLink config) := by
  have hsubs : submissions (startTrace config) = [] := rfl
  have hready : Server.Ready { greeting := .done } := ⟨rfl, rfl, rfl⟩
  have hconveyed : Server.Conveyed [] { greeting := .done } :=
    ⟨fun _ _ h => (Option.some_ne_none _ h.symm).elim, fun _ h => (List.not_mem_nil h).elim⟩
  have hstart : Server.Receives {} .preface { greeting := .settings } := .preface rfl
  have hsettings : Server.Receives { greeting := .settings }
      (.settings (ofConfig config).buildLocalSettingsFrame) { greeting := .done } :=
    .settings rfl rfl (by
      show ((0 : UInt8) &&& FrameFlag.ack.toByte != 0) = false
      decide)
  refine ⟨fun _ h => (List.not_mem_nil h).elim, { greeting := .done }, ⟨.single rfl, rfl, ?_, ?_, ?_,
    Or.inr ?_⟩, .cons hstart (.single hsettings)⟩
  · rw [hsubs]
    exact List.nodup_nil
  · rw [hsubs]
    exact fun _ h => (List.not_mem_nil h).elim
  · rw [hsubs]
    exact hconveyed
  · rw [hsubs]
    refine ⟨hready, rfl, rfl, ?_, ?_, ?_, ?_, fun _ h => (List.not_mem_nil h).elim, hconveyed⟩
    · have hwrap : wrapInt32 config.initialWindowSize ≤ config.initialWindowSize :=
        wrapInt32_le (by simp [int32Min])
      show wrapInt32 config.initialWindowSize ≤ ((65535 : Nat) : Int)
      omega
    · show (65535 : Int) + ((0 : Nat) : Int) ≤ 65535 + ((0 : Nat) : Int)
      omega
    · have hinit : Hpack.InStepWith ({} : Hpack) 4096 ⟨[], 4096, Nat.zero_le _⟩ :=
        Hpack.inStepWith_init
      exact (hinit.setEncodeTableSize (show 4096 < 2 ^ 63 + 31 by decide)).congr rfl rfl rfl
    · show 0 < 1
      exact Nat.one_pos

variable {x : Link ProtocolState Server OutboundBuffer RawFrame}

/-- The server at the end of the channel, which has sent what is on the way to the connection. -/
theorem conveys_of_linked (hconfig : config.initialWindowSize ≤ 65535)
    (h : ConnectionLinked config tr x) : ∃ v, Conveys config tr x.machine v ∧
      ReceivesAll Server.Receives x.peer x.toPeer (x.toMachine.foldl Server.tell v) := by
  obtain ⟨-, v, hv, hall⟩ :=
    h.inFlight polite_connectionParties (simulates config) (inFlight_start hconfig)
  exact ⟨v, hv, hall⟩

theorem requests_foldl_tell (fs : List RawFrame) :
    ∀ v : Server, (fs.foldl Server.tell v).requests = v.requests := by
  induction fs with
  | nil => exact fun _ => rfl
  | cons f fs ih => exact fun v => (ih _).trans (v.same_tell f).1

/-- The requests of a server that has received everything. -/
theorem Conveys.request (h : Conveys config tr p v) {y : StreamId × Request}
    (hy : y ∈ submissions tr) :
    ∃ incoming, v.requests y.1 = some incoming ∧ incoming.Faithful y.2 := by
  obtain ⟨incoming, hfind⟩ := h.conveyed.complete y hy
  obtain ⟨request, hmem, hfaithful⟩ := h.conveyed.sound y.1 incoming hfind
  -- the ids are distinct, so this is the request that was submitted
  have heq : (y.1, request) = y := List.inj_on_of_nodup_map h.nodup hmem hy rfl
  obtain rfl : request = y.2 := congrArg Prod.snd heq
  exact ⟨incoming, hfind, hfaithful⟩

/-- The peer of a link, with ids in order. -/
theorem numbered_of_linked (h : ConnectionLinked config tr x) : x.peer.Numbered := by
  refine h.peer_invariant (I := Server.Numbered) (fun hr hv => (hr.keeps hv).1) ?_ ?_
  · intro v f hv
    show (Server.tell v f).Numbered
    unfold Server.tell
    split
    · split
      · exact hv
      · exact ⟨hv.1, hv.2⟩
    · exact ⟨hv.1, hv.2⟩
    · exact hv
  · exact ⟨fun _ _ hi => (Option.some_ne_none _ hi.symm).elim,
      fun _ hb => (Option.some_ne_none _ hb.symm).elim⟩

/-- What the server has of a request is the beginning of a request that was submitted. -/
theorem faithful_of_linked {id : StreamId} {incoming : Server.Incoming}
    (hconfig : config.initialWindowSize ≤ 65535) (h : ConnectionLinked config tr x)
    (hfind : x.peer.requests id = some incoming) :
    ∃ request, (id, request) ∈ submissions tr ∧ incoming.Faithful request := by
  obtain ⟨v, hv, hall⟩ := conveys_of_linked hconfig h
  have hkeeps := (hall.relate (R := fun v v' => v.Numbered → v'.Numbered ∧ v.Keeps v')
    (fun v hv => ⟨hv, .refl v⟩)
    (fun hab hbc ha => ⟨(hbc (hab ha).1).1, (hab ha).2.trans (hbc (hab ha).1).2⟩)
    (fun hr hr' => hr.keeps hr')) (numbered_of_linked h)
  -- what is still on the way only adds to it
  obtain ⟨later, hlater, hgrows⟩ := hkeeps.2.2 id incoming hfind
  rw [requests_foldl_tell] at hlater
  obtain ⟨request, hmem, hfaithful⟩ := hv.conveyed.sound id later hlater
  refine ⟨request, hmem, hgrows.fields.symm.trans hfaithful.fields,
    hgrows.body.trans hfaithful.body, fun he => ?_⟩
  obtain ⟨hended, hbody⟩ := hgrows.ended he
  exact hbody.symm.trans (hfaithful.ended hended)

/-- Of the request of a live stream such a server has what the stream has sent. -/
theorem Conveys.stream (h : Conveys config tr p v) {s : Stream} (hs : s ∈ p.streams.entries) :
    (s.streamId, s.rqst) ∈ submissions tr ∧
      ∃ incoming, v.requests s.streamId = some incoming ∧ incoming.reset = false ∧
        incoming.body = s.rqst.body.take s.requestBodyOffset ∧
        incoming.ended = s.localEndStreamSent := by
  rcases h.live with hclosed | hlive
  · have hkey := KeyedTable.key_mem_keys hs
    rw [(tidy_of_runs h.runs).closed hclosed] at hkey
    exact (List.not_mem_nil hkey).elim
  · obtain ⟨hmem, incoming, hfind, harrived⟩ := hlive.streams s hs
    exact ⟨hmem, incoming, hfind, harrived.reset, harrived.body, harrived.ended⟩

/-- A link at which a request with a body has been sent and nothing has arrived. -/
theorem linked_post : ∃ tr x, ConnectionLinked {} tr x ∧ submissions tr = [(1, postRequest)] ∧
    x.toPeer ≠ [] := by
  have hallowed : connectionParties.allowed (startLink {}).machine
      (.submitRequest postRequest (.id _)) := by
    show (((startLink {}).machine.hpack.encode (buildRequestHeaderFields postRequest)).1).length < _
    decide +kernel
  have hresult : (act (startLink {}).machine (.submitRequest postRequest (.id _))).map
      (fun y => y.2.submittedStreamId) = .ok (some 1) := by decide +kernel
  cases hstep : act (startLink {}).machine (.submitRequest postRequest (.id _)) with
  | error e =>
    rw [hstep] at hresult
    cases hresult
  | ok y =>
    rw [hstep] at hresult
    have hid : y.2.submittedStreamId = some 1 := Except.ok.inj hresult
    have hstart : ConnectionLinked {} (startTrace {}) (startLink {}) := .start
    have hlink := hstart.acts hallowed hstep
    refine ⟨_, _, hlink, ?_, ?_⟩
    · rw [submissions_snoc_some (x := (1, postRequest))]
      · rfl
      · simp only [submission, hid]
    · exact List.append_ne_nil_of_left_ne_nil (List.cons_ne_nil OutboundBuffer.preface
        [.settings (ofConfig {}).buildLocalSettingsFrame]) _

/-! ## What the channels guarantee -/

/-- Every buffer passes the checks of the server that receives it. -/
theorem peer_accepts (hconfig : config.initialWindowSize ≤ 65535) (h : ConnectionLinked config tr x)
    {b : OutboundBuffer} {bs : List OutboundBuffer} (hb : x.toPeer = b :: bs) :
    ∃ v', Server.Receives x.peer b v' :=
  h.accepts polite_connectionParties (simulates config) (inFlight_start hconfig) hb

theorem peer_accepts_preface : ∃ tr x b bs v', ConnectionLinked {} tr x ∧ x.toPeer = b :: bs ∧
    Server.Receives x.peer b v' := by
  obtain ⟨tr, x, h, -, hne⟩ := linked_post
  obtain ⟨b, bs, hb⟩ := List.exists_cons_of_ne_nil hne
  obtain ⟨v', hv'⟩ := peer_accepts (by decide) h hb
  exact ⟨tr, x, b, bs, v', h, hb, hv'⟩

/-- At every moment the requests at the server are requests that were submitted, under the ids that
they were given: with their fields, with a beginning of their body, and with all of it once
END_STREAM has arrived. -/
theorem requests_faithful (hconfig : config.initialWindowSize ≤ 65535)
    (h : ConnectionLinked config tr x) : ((submissions tr).map Prod.fst).Nodup ∧
      ∀ id incoming, x.peer.requests id = some incoming →
        ∃ request, (id, request) ∈ submissions tr ∧ incoming.Faithful request := by
  obtain ⟨v, hv, -⟩ := conveys_of_linked hconfig h
  exact ⟨hv.nodup, fun id incoming => faithful_of_linked hconfig h⟩

theorem requests_faithful_after_post : ∃ tr x incoming, ConnectionLinked {} tr x ∧
    x.peer.requests 1 = some incoming ∧ ∃ request, (1, request) ∈ submissions tr ∧
      incoming.Faithful request := by
  obtain ⟨tr, x, h, hsubs, -⟩ := linked_post
  obtain ⟨v, hv, hall⟩ := conveys_of_linked (by decide) h
  obtain ⟨incoming, hfind, -⟩ := hv.request (y := (1, postRequest)) (by rw [hsubs]; simp)
  have hdrained := Linked.drain hall h rfl rfl
  have hfind' : ((x.toMachine.foldl Server.tell v).requests 1) = some incoming := by
    rw [requests_foldl_tell]
    exact hfind
  exact ⟨tr, _, incoming, hdrained, hfind', (requests_faithful (by decide) hdrained).2 1 incoming
    hfind'⟩

/-- Nothing is lost: the server that has received what is on the way to it has every request that was
submitted, and of the request of a live stream exactly the bytes that the stream has sent. -/
theorem requests_arrive (hconfig : config.initialWindowSize ≤ 65535)
    (h : ConnectionLinked config tr x) :
    ∃ v, ReceivesAll Server.Receives x.peer x.toPeer v ∧
      ConnectionLinked config tr { x with peer := v, toPeer := [] } ∧
      (∀ y ∈ submissions tr, ∃ incoming, v.requests y.1 = some incoming ∧
        incoming.Faithful y.2) ∧
      ∀ s ∈ x.machine.streams.entries, (s.streamId, s.rqst) ∈ submissions tr ∧
        ∃ incoming, v.requests s.streamId = some incoming ∧ incoming.reset = false ∧
          incoming.body = s.rqst.body.take s.requestBodyOffset ∧
          incoming.ended = s.localEndStreamSent := by
  obtain ⟨v, hv, hall⟩ := conveys_of_linked hconfig h
  refine ⟨_, hall, Linked.drain hall h rfl rfl, fun y hy => ?_, fun s hs => ?_⟩
  · rw [requests_foldl_tell]
    exact hv.request hy
  · rw [requests_foldl_tell]
    exact hv.stream hs

theorem requests_arrive_after_post : ∃ tr x v, ConnectionLinked {} tr x ∧
    submissions tr = [(1, postRequest)] ∧ ReceivesAll Server.Receives x.peer x.toPeer v ∧
    ConnectionLinked {} tr { x with peer := v, toPeer := [] } ∧
    ∃ incoming, v.requests 1 = some incoming ∧ incoming.Faithful postRequest := by
  obtain ⟨tr, x, h, hsubs, -⟩ := linked_post
  obtain ⟨v, hreceives, hv, hall, -⟩ := requests_arrive (by decide) h
  exact ⟨tr, x, v, h, hsubs, hreceives, hv, hall (1, postRequest) (by rw [hsubs]; simp)⟩

end System

end Chttp2
