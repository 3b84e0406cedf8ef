import Chttp2.Protocol.ByteStream
import Chttp2.Session.Outbound
import Chttp2.Session.Writing

/-!
# A session and its server across a byte stream

`Wired` is the system of a session, its server and the bytes in between: the session reads the bytes
from the server in arbitrary chunks and writes its queue in arbitrary parts, bytes reach the server at
any time, and the server uses a part of the stream whenever it has all of it.

`Tracks` relates a session to a link of `ConnectionLinked`, which knows no bytes: the bytes that the
session has yet to read are the frames in flight to it, and what the transport has accepted, what is
in the queue and what was dropped with a lost connection are the buffers in flight to the server.
Every operation of the session keeps it (`Tracks.apply`), so every state of the system refines a link
(`refines_of_wired`). Through the link every byte passes the checks of the server (`bytes_accepted`),
what it has of the requests is right at every moment (`bytes_faithful`), and nothing gets stuck between
the two (`bytes_arrive`).
-/

set_option autoImplicit false

namespace Chttp2

open ProtocolState Channels

namespace Http2Session

variable {κ : Type}

/-! ## Operations and bytes -/

/-- A session that has been started on its transport. -/
def startSession (config : ClientConfig) : Http2Session κ :=
  { (Http2Session.ofConfig config : Http2Session κ).consumeStepResult
      ⟨{}, (ProtocolState.ofConfig config).start.1⟩ (ProtocolState.ofConfig config).start.2 with
    started := true, healthy := true }

example (config : ClientConfig) :
    (Http2Session.ofConfig config : Http2Session κ).start true = .ok (startSession config, true) :=
  rfl

/-- The bytes that an operation takes from the transport. -/
def readBy (s : Http2Session κ) : Op κ → Bytes
  | .onReadable chunks _ => if s.isHealthy then (chunks.takeWhile (· ≠ [])).flatten else []
  | _ => []

/-- The request that an operation submits to the connection, with the id of its stream. -/
def submissionBy (s : Http2Session κ) : Op κ → Option (StreamId × Request)
  | .submit request _ _ _ rehash _ =>
    if !s.isHealthy then none
    else
      match s.protocol.apply (.submitRequest request rehash) with
      | .ok (_, r) => r.submittedStreamId.map fun id => (id, request)
      | .error _ => none
  | _ => none

/-- The header block of a request that is submitted is within the integers of a decoder. -/
def Encodable (s : Http2Session κ) : Op κ → Prop
  | .submit request _ _ _ _ _ =>
    (s.protocol.state.hpack.encode (buildRequestHeaderFields request)).1.length < 2 ^ 31
  | _ => True

instance decidableEncodable (s : Http2Session κ) (op : Op κ) : Decidable (s.Encodable op) :=
  match op with
  | .submit _ _ _ _ _ _ => inferInstanceAs (Decidable (_ < _))
  | .start _ | .cancelRequest _ | .sendPing | .onReadable _ _ | .onWritable _ | .close =>
    inferInstanceAs (Decidable True)

/-- The requests of a trace, with the ids of their streams. -/
def submitted (tr : List (Entry κ)) : List (StreamId × Request) :=
  tr.filterMap fun e => e.pre.submissionBy e.input

/-- What a transport accepts before it fails is taken from the front of the queue. -/
theorem sentOfChunk_isPrefix (writes : List WriteResult) :
    ∀ chunk : OutboundChunk, sentOfChunk chunk writes <+: chunk.unsent := by
  induction writes with
  | nil => exact fun _ => List.nil_prefix
  | cons write writes ih =>
    intro chunk
    by_cases hdone : chunk.offset ≥ chunk.data.length
    · rw [sentOfChunk_of_done hdone]
      exact List.nil_prefix
    cases write with
    | ok n =>
      have hrest := (List.prefix_append_right_inj (chunk.unsent.take n)).2
        (ih { chunk with offset := chunk.offset + n })
      rw [take_append_unsent] at hrest
      rw [sentOfChunk, if_neg hdone]
      exact hrest
    | wouldBlock | closed | err =>
      rw [sentOfChunk, if_neg hdone]
      exact List.nil_prefix

theorem sentBy_isPrefix (chunks : List OutboundChunk) : ∀ writes : List WriteResult,
    sentBy chunks writes <+: unsent chunks := by
  induction chunks with
  | nil => exact fun _ => List.nil_prefix
  | cons chunk chunks ih =>
    intro writes
    rw [sentBy, unsent_cons]
    cases hchunk : writeChunk chunk writes with
    | written rest =>
      dsimp only
      rw [(sentOfChunk_spec writes chunk).1 rest hchunk]
      exact (List.prefix_append_right_inj _).2 (ih rest)
    | blocked rest | failed =>
      dsimp only
      rw [List.append_nil]
      exact (sentOfChunk_isPrefix writes chunk).trans (List.prefix_append _ _)

/-! ## Flags -/

/-- Events that do not end the connection leave the session as healthy as it is. -/
theorem translateEvents_healthy (pes : List ProtocolEvent) : ∀ {s : Http2Session κ}, Harmless pes →
    (s.translateEvents pes).1.started = s.started ∧
      (s.translateEvents pes).1.healthy = s.healthy := by
  induction pes with
  | nil => exact fun _ => ⟨rfl, rfl⟩
  | cons pe pes ih =>
    intro s h
    obtain ⟨hpe, hpes⟩ := harmless_cons.1 h
    obtain ⟨hstarted, hhealthy⟩ := ih (s := (s.translateEvent pe).1) hpes
    have hone : (s.translateEvent pe).1.started = s.started ∧
        (s.translateEvent pe).1.healthy = s.healthy := by
      cases pe with
      | responseCompleted streamId response =>
        unfold translateEvent
        rw [finishStream_fst]
        exact ⟨rfl, rfl⟩
      | responseFailed streamId errorCode =>
        unfold translateEvent
        rw [finishStream_fst]
        exact ⟨rfl, rfl⟩
      | connectionError | connectionClosed | transportClosed => cases hpe
      | _ => exact ⟨rfl, rfl⟩
    exact ⟨hstarted.trans hone.1, hhealthy.trans hone.2⟩

/-! ## A session on its link -/

section Tracking

variable {config : ClientConfig} {ptr : List Chttp2.Entry} {s s' : Http2Session κ}
  {x x' : Link ProtocolState Server OutboundBuffer RawFrame} {before inp : Bytes}
  {protocol : Http2Protocol} {r : ProtocolStepResult} {events : List (SessionEvent κ)}

/-- A session in use: what the transport has accepted and what is in the queue are the buffers on the
way to the server. -/
structure Attached (config : ClientConfig) (ptr : List Chttp2.Entry)
    (x : Link ProtocolState Server OutboundBuffer RawFrame) (s : Http2Session κ)
    (before inp : Bytes) : Prop where
  carries : Carries config ptr x s.protocol inp
  started : s.started = true
  healthy : s.healthy = true
  sent : before ++ unsent s.outbound = x.toPeer.flatMap OutboundBuffer.toBytes

/-- The link stands for a session, of which the transport has accepted `before` and `inp` is still to
be read: the session is in use, or its connection is closed and the rest of the bytes may be lost. -/
structure Tracks (config : ClientConfig) (ptr : List Chttp2.Entry)
    (x : Link ProtocolState Server OutboundBuffer RawFrame) (s : Http2Session κ)
    (before inp : Bytes) : Prop where
  linked : ConnectionLinked config ptr x
  cancels : CancelsFit ptr
  reached : Reached config s.protocol.state
  started : s.protocol.state.started = true
  sent : before ++ unsent s.outbound <+: x.toPeer.flatMap OutboundBuffer.toBytes
  live : s.Shut ∨ Attached config ptr x s before inp

theorem Attached.tracks (h : Attached config ptr x s before inp) :
    Tracks config ptr x s before inp := by
  refine ⟨h.carries.linked, h.carries.cancels, h.carries.reached, ?_, h.sent ▸ List.prefix_rfl,
    Or.inr h⟩
  rw [← h.carries.machine]
  exact started_of_linked h.carries.linked

/-- A healthy session is in use. -/
theorem Tracks.attached (h : Tracks config ptr x s before inp) (hhealthy : s.isHealthy = true) :
    Attached config ptr x s before inp := by
  refine h.live.resolve_left fun hshut => ?_
  rw [hshut.isHealthy] at hhealthy
  cases hhealthy

/-- The link is about the protocol and the queue only. -/
theorem Attached.congr (h : Attached config ptr x s before inp) (hprotocol : s'.protocol = s.protocol)
    (hqueue : s'.outbound = s.outbound) (hstarted : s'.started = s.started)
    (hhealthy : s'.healthy = s.healthy) : Attached config ptr x s' before inp := by
  refine ⟨?_, hstarted.trans h.started, hhealthy.trans h.healthy, ?_⟩
  · rw [hprotocol]
    exact h.carries
  · rw [hqueue]
    exact h.sent

/-- Results of the protocol join the queue. -/
theorem Attached.consume (h : Attached config ptr x s before inp) {ptr' : List Chttp2.Entry}
    {inp' : Bytes} (hcarries : Carries config ptr' x' protocol inp')
    (hout : x'.toPeer = x.toPeer ++ r.outbound) :
    Attached config ptr' x' (s.consumeStepResult protocol r) before inp' := by
  refine ⟨hcarries, h.started, h.healthy, ?_⟩
  rw [hout, List.flatMap_append, ← h.sent, List.append_assoc, ← unsent_map_enqueued, ← unsent_append]
  rfl

theorem Attached.absorb (h : Attached config ptr x s before inp) {ptr' : List Chttp2.Entry}
    {inp' : Bytes} (hcarries : Carries config ptr' x' protocol inp')
    (hout : x'.toPeer = x.toPeer ++ r.outbound) (hevents : Harmless r.events) :
    Attached config ptr' x' (s.absorb protocol r).1 before inp' := by
  obtain ⟨hstarted, hhealthy⟩ := translateEvents_healthy r.events hevents
    (s := s.consumeStepResult protocol r)
  exact (h.consume hcarries hout).congr (translateEvents_protocol _ _)
    (translateEvents_outbound _ _) hstarted hhealthy

/-- A result that may close the connection. -/
theorem Attached.absorb_tracks (h : Attached config ptr x s before inp) {ptr' : List Chttp2.Entry}
    {inp' : Bytes} (hcarries : Carries config ptr' x' protocol inp')
    (hout : x'.toPeer = x.toPeer ++ r.outbound)
    (hevents : Harmless r.events ∨ protocol.state.closed = true) :
    Tracks config ptr' x' (s.absorb protocol r).1 before inp' := by
  rcases hevents with hevents | hclosed
  · exact (h.absorb hcarries hout hevents).tracks
  have hconsumed := (h.consume hcarries hout).tracks
  have hprotocol : (s.absorb protocol r).1.protocol = protocol := absorb_protocol _ _ _
  have hqueue : (s.absorb protocol r).1.outbound = (s.consumeStepResult protocol r).outbound :=
    translateEvents_outbound _ _
  refine ⟨hcarries.linked, hcarries.cancels, ?_, ?_, ?_, Or.inl ?_⟩
  · rw [hprotocol]
    exact hconsumed.reached
  · rw [hprotocol]
    exact hconsumed.started
  · rw [hqueue]
    exact hconsumed.sent
  · rw [Shut, hprotocol]
    exact hclosed

/-! ## Operations -/

/-- A state of the session that the link stands for after an operation: the server is as it was, and
the connection has been given the requests that the operation has submitted. -/
def Next (config : ClientConfig) (ptr : List Chttp2.Entry)
    (x : Link ProtocolState Server OutboundBuffer RawFrame) (subs : List (StreamId × Request))
    (s' : Http2Session κ) (before inp : Bytes) : Prop :=
  ∃ ptr' x', Tracks config ptr' x' s' before inp ∧ x'.peer = x.peer ∧
    submissions ptr' = submissions ptr ++ subs

theorem Tracks.next (h : Tracks config ptr x s before inp) : Next config ptr x [] s before inp :=
  ⟨ptr, x, h, rfl, (List.append_nil _).symm⟩

/-- Only the flags of the session change. -/
theorem Tracks.congr (h : Tracks config ptr x s before inp) (hprotocol : s'.protocol = s.protocol)
    (hqueue : s'.outbound = s.outbound) (hstarted : s.started = true → s'.started = true)
    (hhealthy : s.healthy = true → s'.healthy = true) : Tracks config ptr x s' before inp := by
  refine ⟨h.linked, h.cancels, ?_, ?_, ?_, ?_⟩
  · rw [hprotocol]
    exact h.reached
  · rw [hprotocol]
    exact h.started
  · rw [hqueue]
    exact h.sent
  · rw [Shut, hprotocol]
    refine h.live.imp_right fun hlive => hlive.congr hprotocol hqueue ?_ ?_
    · rw [hstarted hlive.started, hlive.started]
    · rw [hhealthy hlive.healthy, hlive.healthy]

/-- Where a session with a closed connection is in its input does not matter any more. -/
theorem Tracks.shut {inp' : Bytes} (h : Tracks config ptr x s before inp) (hshut : s.Shut) :
    Tracks config ptr x s before inp' :=
  { h with live := Or.inl hshut }

/-- The queue is dropped with the connection. -/
theorem Tracks.drop {a : Action} {sent inp' : Bytes} (h : Tracks config ptr x s before inp)
    (hop : s.protocol.lift (s.protocol.state.act a) = .ok (protocol, r))
    (hclosed : protocol.state.closed = true) (hsent : sent <+: unsent s.outbound)
    (hprotocol : s'.protocol = protocol) (hqueue : s'.outbound = []) :
    Tracks config ptr x s' (before ++ sent) inp' := by
  have hact := act_of_lift hop
  obtain ⟨tr, hr⟩ := h.reached
  refine ⟨h.linked, h.cancels, ?_, ?_, ?_, Or.inl ?_⟩
  · rw [hprotocol]
    exact ⟨_, .snoc hr hact⟩
  · rw [hprotocol]
    exact (h.reached.step hact).started_of_started h.started
  · rw [hqueue]
    show before ++ sent ++ [] <+: _
    rw [List.append_nil]
    exact ((List.prefix_append_right_inj _).2 hsent).trans h.sent
  · rw [Shut, hprotocol]
    exact hclosed

theorem Tracks.transportFailure {sent inp' : Bytes} (h : Tracks config ptr x s before inp)
    (hsent : sent <+: unsent s.outbound) (hhealthy : s.healthy = false → sent = [])
    (hop : s.handleTransportFailure = .ok (s', events)) :
    Tracks config ptr x s' (before ++ sent) inp' := by
  rcases handleTransportFailure_cases hop with ⟨hdown, rfl, -⟩ | ⟨-, protocol, r, happly, rfl, -⟩
  · -- the failure has been handled before
    have hshut : s'.Shut := h.live.resolve_right fun hlive => by
      rw [hlive.healthy] at hdown
      cases hdown
    rw [hhealthy hdown, List.append_nil]
    exact h.shut hshut
  · exact h.drop (a := .onTransportClosed) happly
      (closed_of_shutdown h.reached (Or.inr rfl) happly) hsent rfl rfl

/-- The steps that the owner asks for do not end the connection. -/
theorem harmless_of_request {a : Action} {p p' : ProtocolState} (hstep : ActionStep p a p' r)
    (ha : (∃ request rehash, a = .submitRequest request rehash) ∨
      (∃ id code, a = .cancelStream id code) ∨ a = .sendPing) : Harmless r.events := by
  cases hstep with
  | refused | cancelIgnored | pingIgnored | pinged => simp [Harmless, ProtocolEvent.fatal]
  | opened request rehash hcan hvalid hroom hpos hmax hbody =>
    exact harmless_cons.2 ⟨rfl, (harmless_bodyStep hbody :)⟩
  | cancelled id code => exact harmless_streamFailure _ id code true
  | _ => simp at ha

theorem Attached.act {a : Action} (h : Attached config ptr x s before inp)
    (hallowed : connectionParties.allowed s.protocol.state a)
    (hcancel : ∀ id code, a = .cancelStream id code → code.Fits)
    (ha : (∃ request rehash, a = .submitRequest request rehash) ∨
      (∃ id code, a = .cancelStream id code) ∨ a = .sendPing)
    (hop : s.protocol.lift (s.protocol.state.act a) = .ok (protocol, r)) :
    ∃ x', Attached config (ptr ++ [⟨s.protocol.state, a, r⟩]) x' (s.absorb protocol r).1 before inp ∧
      x'.peer = x.peer :=
  ⟨_, h.absorb (h.carries.act hallowed hcancel hop) rfl
    (harmless_of_request (h.carries.reached.step (act_of_lift hop)) ha), rfl⟩

theorem Attached.cancelStream {id : StreamId} (h : Attached config ptr x s before inp)
    (hop : s.cancelStream id = .ok (s', events)) :
    ∃ ptr' x', Attached config ptr' x' s' before inp ∧ x'.peer = x.peer ∧
      submissions ptr' = submissions ptr := by
  obtain ⟨protocol, r, happly, rfl, -⟩ := cancelStream_cases hop
  have hfits : ∀ id' code, Action.cancelStream id .cancel = .cancelStream id' code →
      code.Fits := fun id' code heq => by
    cases heq
    decide
  obtain ⟨x', hattached, hpeer⟩ := h.act (a := .cancelStream id .cancel) trivial hfits
    (Or.inr (Or.inl ⟨id, .cancel, rfl⟩)) happly
  refine ⟨ptr ++ [⟨s.protocol.state, .cancelStream id .cancel, r⟩], x', ?_, hpeer,
    submissions_snoc rfl⟩
  rw [finishStream_fst]
  exact hattached.congr rfl rfl rfl rfl

theorem Attached.submit {request : Request} {context : κ} {canceled finished : Bool}
    {rehash : Reorder Stream} {rehashContexts : Reorder (StreamId × κ)}
    (h : Attached config ptr x s before inp) (hhealthy : s.isHealthy = true)
    (hshort : s.Encodable (.submit request context canceled finished rehash rehashContexts))
    (hop : s.submit request context canceled finished rehash rehashContexts = .ok (s', events)) :
    ∃ ptr' x', Attached config ptr' x' s' before inp ∧ x'.peer = x.peer ∧
      submissions ptr' = submissions ptr ++ (s.submissionBy
        (.submit request context canceled finished rehash rehashContexts)).toList := by
  rw [Http2Session.submit, if_neg (by simp [hhealthy])] at hop
  obtain ⟨⟨protocol, r⟩, happly, hrest⟩ := bind_eq_ok.1 hop
  have hby : s.submissionBy (.submit request context canceled finished rehash rehashContexts) =
      submission ⟨s.protocol.state, .submitRequest request rehash, r⟩ := by
    rw [submissionBy, if_neg (by simp [hhealthy]), happly]
    dsimp only
    cases hid : r.submittedStreamId <;> simp only [submission, hid] <;> rfl
  have hsubs : submissions (ptr ++ [⟨s.protocol.state, .submitRequest request rehash, r⟩]) =
      submissions ptr ++ (s.submissionBy
        (.submit request context canceled finished rehash rehashContexts)).toList := by
    rw [hby]
    cases hone : submission ⟨s.protocol.state, .submitRequest request rehash, r⟩ with
    | none => rw [submissions_snoc hone, Option.toList_none, List.append_nil]
    | some y => rw [submissions_snoc_some hone, Option.toList_some]
  have hfits : ∀ id code, Action.submitRequest request rehash = .cancelStream id code →
      code.Fits := fun id code heq => by cases heq
  -- the context joins the table before the result is translated
  have habsorbed : ∀ t : ContextTable κ, ∃ x', Attached config
      (ptr ++ [⟨s.protocol.state, .submitRequest request rehash, r⟩]) x'
      (({ s with streamContexts := t } : Http2Session κ).absorb protocol r).1 before inp ∧
      x'.peer = x.peer := fun t =>
    have hregistered : Attached config ptr x { s with streamContexts := t } before inp :=
      h.congr rfl rfl rfl rfl
    hregistered.act (a := .submitRequest request rehash) hshort hfits
      (Or.inl ⟨request, rehash, rfl⟩) happly
  dsimp only at hrest
  -- the request is refused, or it has a stream, which a cancelled context gives up at once
  cases hid : r.submittedStreamId with
  | none =>
    rw [hid] at hrest
    have hs : s' = (s.absorb protocol r).1 := congrArg Prod.fst (Except.ok.inj hrest).symm
    obtain ⟨x', hattached, hpeer⟩ := habsorbed s.streamContexts
    exact ⟨_, x', hs ▸ hattached, hpeer, hsubs⟩
  | some id =>
    rw [hid] at hrest
    obtain ⟨x', hattached, hpeer⟩ :=
      habsorbed (s.streamContexts.insert rehashContexts (id, context))
    dsimp only at hrest
    split at hrest
    · obtain ⟨⟨s₁, more⟩, hcall, hrest⟩ := bind_eq_ok.1 hrest
      have hs : s' = s₁ := congrArg Prod.fst (Except.ok.inj hrest).symm
      obtain ⟨ptr', x'', hattached', hpeer', hsubs'⟩ := hattached.cancelStream hcall
      exact ⟨ptr', x'', hs ▸ hattached', hpeer'.trans hpeer, hsubs'.trans hsubs⟩
    · have hs : s' = _ := congrArg Prod.fst (Except.ok.inj hrest).symm
      exact ⟨_, x', hs ▸ hattached, hpeer, hsubs⟩

/-- The loop of `onReadable` takes its chunks from the stream, up to an empty one. -/
theorem Tracks.readLoop {last : ReadEnd} {rest : Bytes} (chunks : List Bytes) :
    ∀ {ptr : List Chttp2.Entry} {x : Link ProtocolState Server OutboundBuffer RawFrame}
      {s : Http2Session κ} {collected : List (SessionEvent κ)},
      Tracks config ptr x s before ((chunks.takeWhile (· ≠ [])).flatten ++ rest) →
      Http2Session.readLoop last chunks s collected = .ok (s', events) →
        Next config ptr x [] s' before rest := by
  induction chunks with
  | nil =>
    intro ptr x s collected h hop
    have hfailed : s.handleTransportFailure = .ok (s', events) →
        Next config ptr x [] s' before rest := by
      intro hop
      have htracks : Tracks config ptr x s' (before ++ []) rest :=
        h.transportFailure List.nil_prefix (fun _ => rfl) hop
      rw [List.append_nil] at htracks
      exact htracks.next
    cases last with
    | wouldBlock =>
      cases hop
      exact h.next
    | closed => exact hfailed hop
    | err => exact hfailed hop
  | cons data chunks ih =>
    intro ptr x s collected h hop
    rw [Http2Session.readLoop] at hop
    split at hop
    · rename_i hnil
      rw [List.takeWhile_cons_of_neg (by simp [hnil])] at h
      cases hop
      exact h.next
    rename_i hdata
    rw [List.takeWhile_cons_of_pos (by simp [hdata]), List.flatten_cons, List.append_assoc] at h
    obtain ⟨⟨protocol, r⟩, happly, hrest⟩ := bind_eq_ok.1 hop
    rcases h.live with hshut | hlive
    · -- a closed connection takes no more bytes
      have hsame : s.protocol.receiveBytes data = .ok (protocol, r) := happly
      rw [Http2Protocol.receiveBytes_closed hshut] at hsame
      cases hsame
      have hshut' : (s.absorb s.protocol {}).1.Shut := hshut
      have hqueue : (s.absorb s.protocol {}).1.outbound = s.outbound := List.append_nil _
      have htracks : Tracks config ptr x (s.absorb s.protocol {}).1 before _ :=
        h.congr rfl hqueue id id
      exact ih (htracks.shut hshut') hrest
    · obtain ⟨ptr₁, x₁, hcarries, hpeer, hout, hsubs, hend⟩ := hlive.carries.receiveBytes happly
      obtain ⟨ptr', x', h', hpeer', hsubs'⟩ := ih (hlive.absorb_tracks hcarries hout hend) hrest
      refine ⟨ptr', x', h', hpeer'.trans hpeer, ?_⟩
      rw [hsubs', hsubs]

/-- The protocol of a linked session has been started, so that a second start changes flags only. -/
theorem Tracks.start {ready result : Bool} (h : Tracks config ptr x s before inp)
    (hop : s.start ready = .ok (s', result)) : Tracks config ptr x s' before inp := by
  rcases start_cases hop with rfl | ⟨protocol, r, happly, rfl⟩
  · exact h
  have hsame : s.protocol.apply .start =
      .ok (s.protocol, { events := [.connectionError .protocolError] }) := by
    simp only [Http2Protocol.apply, ProtocolState.start, h.started, if_true]
    rfl
  rw [hsame] at happly
  cases happly
  exact h.congr rfl (List.append_nil _) (fun _ => rfl) fun _ => rfl

theorem Tracks.close (h : Tracks config ptr x s before inp) (hop : s.close = .ok (s', events)) :
    Tracks config ptr x s' before inp := by
  rcases close_cases hop with ⟨rfl, -⟩ | ⟨protocol, r, happly, heq⟩
  · exact h
  have hs : s' = _ := congrArg Prod.fst heq
  have hdropped : Tracks config ptr x s' (before ++ []) inp :=
    h.drop (a := .close) happly (closed_of_shutdown h.reached (Or.inl rfl) happly)
      List.nil_prefix (by rw [hs]; rfl) (by rw [hs]; rfl)
  rw [List.append_nil] at hdropped
  exact hdropped

theorem Attached.sendPing (h : Attached config ptr x s before inp)
    (hop : s.sendPing = .ok (s', events)) : Next config ptr x [] s' before inp := by
  obtain ⟨-, rfl | ⟨protocol, r, happly, rfl⟩⟩ := sendPing_cases hop
  · exact h.tracks.next
  have hcarries := h.carries.act (a := .sendPing) trivial (fun _ _ heq => by cases heq) happly
  exact ⟨_, _, (h.consume hcarries rfl).tracks, rfl,
    (submissions_snoc rfl).trans (List.append_nil _).symm⟩

theorem Attached.cancelRequest {id : StreamId} (h : Attached config ptr x s before inp)
    (hop : s.cancelRequest id = .ok (s', events)) : Next config ptr x [] s' before inp := by
  rcases cancelRequest_cases hop with ⟨rfl, -⟩ | hcall
  · exact h.tracks.next
  · obtain ⟨ptr', x', hattached, hpeer, hsubs⟩ := h.cancelStream hcall
    exact ⟨ptr', x', hattached.tracks, hpeer, hsubs.trans (List.append_nil _).symm⟩

/-- What the transport accepts moves from the queue to what it has accepted. -/
theorem Attached.onWritable {writes : List WriteResult} (h : Attached config ptr x s before inp)
    (hhealthy : s.isHealthy = true) (hop : s.onWritable writes = .ok s') :
    Tracks config ptr x s' (before ++ sentBy s.outbound writes) inp := by
  rw [Http2Session.onWritable, if_neg (by simp [hhealthy])] at hop
  cases hloop : writeLoop s.outbound writes with
  | some outbound =>
    rw [hloop] at hop
    cases hop
    have hsent : before ++ sentBy s.outbound writes ++ unsent outbound =
        x.toPeer.flatMap OutboundBuffer.toBytes := by
      rw [List.append_assoc, sentBy_append_unsent _ hloop]
      exact h.sent
    have hattached : Attached config ptr x { s with outbound }
        (before ++ sentBy s.outbound writes) inp := ⟨h.carries, h.started, h.healthy, hsent⟩
    exact hattached.tracks
  | none =>
    -- the transport has failed, and what it has not accepted is dropped
    rw [hloop] at hop
    obtain ⟨⟨s₁, events⟩, hfailure, hrest⟩ := bind_eq_ok.1 hop
    cases hrest
    refine h.tracks.transportFailure (sentBy_isPrefix _ _) (fun hdown => ?_) hfailure
    rw [h.healthy] at hdown
    cases hdown

/-- A session that is not healthy can be started and closed, and does nothing else. -/
theorem apply_unhealthy {op : Op κ} (hunhealthy : ¬ s.isHealthy = true)
    (hstart : ∀ ready, op ≠ .start ready) (hclose : op ≠ .close)
    (hop : s.apply op = .ok (s', events)) :
    s' = s ∧ s.submissionBy op = none ∧ s.readBy op = [] ∧ s.acceptedBy op = [] := by
  have hguard : (!s.isHealthy) = true := by simp [hunhealthy]
  cases op with
  | start ready => exact absurd rfl (hstart ready)
  | submit =>
    rw [Http2Session.apply, Http2Session.submit, if_pos hguard] at hop
    cases hop
    exact ⟨rfl, if_pos hguard, rfl, rfl⟩
  | cancelRequest =>
    rw [Http2Session.apply, Http2Session.cancelRequest, if_pos (by simp [hunhealthy])] at hop
    cases hop
    exact ⟨rfl, rfl, rfl, rfl⟩
  | sendPing =>
    rw [Http2Session.apply, Http2Session.sendPing, if_pos hguard] at hop
    cases hop
    exact ⟨rfl, rfl, rfl, rfl⟩
  | onReadable =>
    rw [Http2Session.apply, onReadable, if_pos hguard] at hop
    cases hop
    exact ⟨rfl, rfl, if_neg hunhealthy, rfl⟩
  | onWritable =>
    rw [Http2Session.apply, Http2Session.onWritable, if_pos hguard] at hop
    cases hop
    exact ⟨rfl, rfl, rfl, if_neg hunhealthy⟩
  | close => exact absurd rfl hclose

/-- The server uses the bytes of the next buffer. -/
theorem Tracks.receives {b : OutboundBuffer} {bs : List OutboundBuffer} {v : Server}
    {rest more : Bytes} (h : Tracks config ptr x s (b.toBytes ++ rest ++ more) inp)
    (hb : x.toPeer = b :: bs) (hv : Server.Receives x.peer b v) :
    Tracks config ptr { x with peer := v, toPeer := bs } s (rest ++ more) inp := by
  have hsent := h.sent
  rw [hb, List.flatMap_cons, List.append_assoc, List.append_assoc, List.prefix_append_right_inj,
    ← List.append_assoc] at hsent
  refine ⟨h.linked.receives hb hv, h.cancels, h.reached, h.started, hsent,
    h.live.imp_right fun hlive => ?_⟩
  refine ⟨hlive.carries.receives hb hv, hlive.started, hlive.healthy, ?_⟩
  have hequal := hlive.sent
  rw [hb, List.flatMap_cons, List.append_assoc, List.append_assoc, List.append_right_inj,
    ← List.append_assoc] at hequal
  exact hequal

/-- The server sends a frame. -/
theorem Tracks.tells {f : RawFrame} (h : Tracks config ptr x s before inp)
    (hlegal : connectionParties.legal f) (hf : f.header.type.Canonical) :
    Tracks config ptr { x with peer := x.peer.tell f, toMachine := x.toMachine ++ [f] } s before
      (inp ++ f.toBytes) :=
  ⟨h.linked.tells hlegal, h.cancels, h.reached, h.started, h.sent, h.live.imp_right fun hlive =>
    ⟨hlive.carries.tells hlegal hf, hlive.started, hlive.healthy, hlive.sent⟩⟩

/-- Every operation of the session is a series of steps of its link. -/
theorem Tracks.apply {op : Op κ} {rest : Bytes}
    (h : Tracks config ptr x s before (s.readBy op ++ rest)) (hencodable : s.Encodable op)
    (hop : s.apply op = .ok (s', events)) :
    Next config ptr x (s.submissionBy op).toList s' (before ++ s.acceptedBy op) rest := by
  have hquiet : s.acceptedBy op = [] → before ++ s.acceptedBy op = before := fun hnil => by
    rw [hnil, List.append_nil]
  -- starting and closing do not ask for a healthy session
  by_cases hup : (∃ ready, op = .start ready) ∨ op = .close
  · rcases hup with ⟨ready, rfl⟩ | rfl
    · obtain ⟨⟨s₁, result⟩, hstart, hrest⟩ := bind_eq_ok.1 hop
      cases hrest
      rw [hquiet rfl]
      exact (Tracks.start h hstart).next
    · rw [hquiet rfl]
      exact (Tracks.close h hop).next
  rw [not_or, not_exists] at hup
  by_cases hhealthy : s.isHealthy = true
  · have hattached := h.attached hhealthy
    cases op with
    | start ready => exact absurd rfl (hup.1 ready)
    | submit request context canceled finished rehash rehashContexts =>
      obtain ⟨ptr', x', hattached', hpeer, hsubs⟩ := hattached.submit hhealthy hencodable hop
      rw [hquiet rfl]
      exact ⟨ptr', x', hattached'.tracks, hpeer, hsubs⟩
    | cancelRequest id =>
      rw [hquiet rfl]
      exact hattached.cancelRequest hop
    | sendPing =>
      rw [hquiet rfl]
      exact hattached.sendPing hop
    | onReadable chunks last =>
      rw [hquiet rfl]
      rw [readBy, if_pos hhealthy] at h
      rw [Http2Session.apply, onReadable, if_neg (by simp [hhealthy])] at hop
      exact Tracks.readLoop chunks h hop
    | onWritable writes =>
      obtain ⟨s₁, hwrite, hrest⟩ := bind_eq_ok.1 hop
      cases hrest
      rw [acceptedBy, if_pos hhealthy]
      exact (hattached.onWritable hhealthy hwrite).next
    | close => exact absurd rfl hup.2
  · obtain ⟨rfl, hnone, hread, hsent⟩ := apply_unhealthy hhealthy hup.1 hup.2 hop
    rw [hnone, hquiet hsent]
    rw [hread] at h
    exact h.next

end Tracking

/-! ## The system -/

/-- A session and its server, with the bytes that the server has received and not used, and the bytes
on the way in both directions. -/
structure Wire (κ : Type) where
  session : Http2Session κ
  server : Server := {}
  buffer : Bytes := []
  toServer : Bytes := []
  toSession : Bytes := []

/-- The runs of a session, its server and the byte streams between them, from a session that has been
started. -/
inductive Wired (config : ClientConfig) : List (Entry κ) → Wire κ → Prop
  | start : Wired config [] { session := startSession config }
  /-- the owner and the transport of the session; what `onReadable` reads has arrived -/
  | operates {tr : List (Entry κ)} {y : Wire κ} {op : Op κ} {s' : Http2Session κ}
      {events : List (SessionEvent κ)} {rest : Bytes} (h : Wired config tr y)
      (hread : y.toSession = y.session.readBy op ++ rest) (hencodable : y.session.Encodable op)
      (hop : y.session.apply op = .ok (s', events)) :
      Wired config (tr ++ [⟨y.session, op, events⟩])
        { y with
          session := s', toServer := y.toServer ++ y.session.acceptedBy op, toSession := rest }
  /-- some of the bytes on the way reach the server -/
  | delivers {tr : List (Entry κ)} {y : Wire κ} {chunk rest : Bytes} (h : Wired config tr y)
      (hchunk : y.toServer = chunk ++ rest) :
      Wired config tr { y with buffer := y.buffer ++ chunk, toServer := rest }
  /-- the server uses the next part of what it has received -/
  | receives {tr : List (Entry κ)} {y : Wire κ} {b : OutboundBuffer} {v : Server} {rest : Bytes}
      (h : Wired config tr y)
      (hnext : Server.next y.server.greeting y.buffer = some (some b, rest))
      (hv : Server.Receives y.server b v) :
      Wired config tr { y with server := v, buffer := rest }
  /-- the server sends a frame -/
  | tells {tr : List (Entry κ)} {y : Wire κ} {f : RawFrame} (h : Wired config tr y)
      (hlegal : connectionParties.legal f) (hf : f.header.type.Canonical) :
      Wired config tr
        { y with server := y.server.tell f, toSession := y.toSession ++ f.toBytes }

section System

variable {config : ClientConfig} {tr : List (Entry κ)} {y : Wire κ}
  {x : Link ProtocolState Server OutboundBuffer RawFrame} {ptr : List Chttp2.Entry}

/-- The link stands for the state of the system. -/
structure Refines (config : ClientConfig) (ptr : List Chttp2.Entry)
    (x : Link ProtocolState Server OutboundBuffer RawFrame) (tr : List (Entry κ)) (y : Wire κ) :
    Prop where
  tracks : Tracks config ptr x y.session (y.buffer ++ y.toServer) y.toSession
  peer : x.peer = y.server
  submitted : submissions ptr = submitted tr

/-- What the server cuts from its bytes is the next buffer on the way to it, which it accepts. -/
theorem Refines.cut {m : Option OutboundBuffer} {rest : Bytes} (hconfig : config.Fits)
    (hwindow : config.initialWindowSize ≤ 65535) (h : Refines config ptr x tr y)
    (hnext : Server.next y.server.greeting y.buffer = some (m, rest)) :
    ∃ b bs v, m = some b ∧ x.toPeer = b :: bs ∧ Server.Receives x.peer b v ∧
      y.buffer = b.toBytes ++ rest := by
  obtain ⟨lost, hsent⟩ := h.tracks.sent
  cases hx : x.toPeer with
  | nil =>
    -- without a buffer on the way there is no byte to cut
    rw [hx, List.flatMap_nil, List.append_eq_nil_iff, List.append_eq_nil_iff,
      List.append_eq_nil_iff] at hsent
    rw [hsent.1.1.1, Server.next_nil] at hnext
    cases hnext
  | cons b bs =>
    obtain ⟨v, hv⟩ := h.tracks.linked.accepts polite_connectionParties (simulates config)
      (inFlight_start hwindow) hx
    have hframed :=
      framed_toPeer hconfig h.tracks.linked h.tracks.cancels b (by rw [hx]; exact .head _)
    rw [hx, List.flatMap_cons, List.append_assoc, List.append_assoc] at hsent
    rcases hv.next (fresh_of_linked h.tracks.linked) hframed hsent with
      ⟨rest', hbuffer, -, hread⟩ | ⟨hread, -⟩
    · rw [h.peer, hnext] at hread
      cases hread
      exact ⟨b, bs, v, rfl, rfl, hv, hbuffer⟩
    · rw [h.peer, hnext] at hread
      cases hread

theorem Refines.receives {b : OutboundBuffer} {v : Server} {rest : Bytes} (hconfig : config.Fits)
    (hwindow : config.initialWindowSize ≤ 65535) (h : Refines config ptr x tr y)
    (hnext : Server.next y.server.greeting y.buffer = some (some b, rest))
    (hv : Server.Receives y.server b v) :
    ∃ bs, x.toPeer = b :: bs ∧ Refines config ptr { x with peer := v, toPeer := bs } tr
      { y with server := v, buffer := rest } := by
  obtain ⟨b', bs, v', hb', hx, -, hbuffer⟩ := h.cut hconfig hwindow hnext
  cases hb'
  obtain ⟨htracks, hpeer, hsubs⟩ := h
  rw [hbuffer] at htracks
  rw [← hpeer] at hv
  exact ⟨bs, hx, htracks.receives hx hv, rfl, hsubs⟩

/-- Every state of the system refines a link. -/
theorem refines_of_wired (hconfig : config.Fits) (hwindow : config.initialWindowSize ≤ 65535)
    (h : Wired config tr y) : ∃ ptr x, Refines config ptr x tr y := by
  induction h with
  | start =>
    have hlinked : ConnectionLinked config (startTrace config) (startLink config) := .start
    have hcancels : CancelsFit (startTrace config) := by
      intro e he id code hinput
      rw [List.mem_singleton.1 he] at hinput
      cases hinput
    have hcarries : Carries config (startTrace config) (startLink config)
        (startSession config : Http2Session κ).protocol [] :=
      ⟨hlinked, rfl, fun _ hf => absurd hf List.not_mem_nil, fun _ => rfl, hcancels⟩
    have hattached : Attached config (startTrace config) (startLink config)
        (startSession config : Http2Session κ) [] [] := by
      refine ⟨hcarries, rfl, rfl, ?_⟩
      exact unsent_map_enqueued (ProtocolState.ofConfig config).start.2.outbound
    exact ⟨_, _, hattached.tracks, rfl, rfl⟩
  | @operates tr y op s' events rest _ hread hencodable hop ih =>
    obtain ⟨ptr, x, htracks, hpeer, hsubs⟩ := ih
    rw [hread] at htracks
    obtain ⟨ptr', x', htracks', hpeer', hsubs'⟩ := htracks.apply hencodable hop
    refine ⟨ptr', x', ?_, hpeer'.trans hpeer, ?_⟩
    · rw [← List.append_assoc]
      exact htracks'
    · rw [hsubs', hsubs, submitted, submitted, List.filterMap_append]
      cases hone : y.session.submissionBy op <;> simp [hone]
  | @delivers tr y chunk rest _ hchunk ih =>
    obtain ⟨ptr, x, htracks, hpeer, hsubs⟩ := ih
    refine ⟨ptr, x, ?_, hpeer, hsubs⟩
    rw [List.append_assoc, ← hchunk]
    exact htracks
  | receives _ hnext hv ih =>
    obtain ⟨ptr, x, h⟩ := ih
    obtain ⟨bs, -, h'⟩ := h.receives hconfig hwindow hnext hv
    exact ⟨ptr, _, h'⟩
  | @tells tr y f _ hlegal hf ih =>
    obtain ⟨ptr, x, htracks, hpeer, hsubs⟩ := ih
    rw [← hpeer]
    exact ⟨ptr, _, htracks.tells hlegal hf, rfl, hsubs⟩

/-- As long as there is something on the way, a server that has all the bytes can use the next of
them. -/
theorem Refines.ready (hconfig : config.Fits) (hwindow : config.initialWindowSize ≤ 65535)
    (h : Refines config ptr x tr y) (hbuffer : y.buffer = x.toPeer.flatMap OutboundBuffer.toBytes)
    (hx : x.toPeer ≠ []) :
    ∃ b v rest, Server.next y.server.greeting y.buffer = some (some b, rest) ∧
      Server.Receives y.server b v := by
  obtain ⟨b, bs, hx⟩ := List.exists_cons_of_ne_nil hx
  have hlinked := h.tracks.linked
  obtain ⟨v, hv⟩ := hlinked.accepts polite_connectionParties (simulates config)
    (inFlight_start hwindow) hx
  have hframed := framed_toPeer hconfig hlinked h.tracks.cancels b (by rw [hx]; exact .head _)
  have hbytes : y.buffer ++ [] = b.toBytes ++ bs.flatMap OutboundBuffer.toBytes := by
    rw [hbuffer, hx, List.append_nil, List.flatMap_cons]
  rw [← h.peer]
  rcases hv.next (fresh_of_linked hlinked) hframed hbytes with
    ⟨rest, -, -, hread⟩ | ⟨-, missing, hmissing, hshort⟩
  · exact ⟨b, v, rest, hread, hv⟩
  · -- all bytes of `b` are there
    have hlength := congrArg List.length hshort
    have htotal := congrArg List.length hbytes
    rw [List.length_append] at hlength
    rw [List.append_nil, List.length_append] at htotal
    have hpos := List.length_pos_of_ne_nil hmissing
    omega

/-- What a healthy session has written and the server has received is what the server can use. -/
theorem Refines.all_sent (h : Refines config ptr x tr y) (hhealthy : y.session.isHealthy = true)
    (hqueue : unsent y.session.outbound = []) (hserver : y.toServer = []) :
    y.buffer = x.toPeer.flatMap OutboundBuffer.toBytes := by
  have hsent := (h.tracks.attached hhealthy).sent
  rw [hqueue, hserver, List.append_nil, List.append_nil] at hsent
  exact hsent

/-- The server can use up the bytes that a healthy session has written. -/
theorem Refines.uses (hconfig : config.Fits) (hwindow : config.initialWindowSize ≤ 65535)
    (bs : List OutboundBuffer) :
    ∀ {x : Link ProtocolState Server OutboundBuffer RawFrame} {y : Wire κ},
      Refines config ptr x tr y → x.toPeer = bs → y.session.isHealthy = true →
      unsent y.session.outbound = [] → y.toServer = [] → ∃ v, Server.Uses y.server y.buffer v := by
  induction bs with
  | nil =>
    intro x y href hx hhealthy hqueue hserver
    have hbuffer := href.all_sent hhealthy hqueue hserver
    rw [hx, List.flatMap_nil] at hbuffer
    exact ⟨y.server, hbuffer ▸ .nil y.server⟩
  | cons b bs ih =>
    intro x y href hx hhealthy hqueue hserver
    -- all bytes of the first buffer are there
    have hne : x.toPeer ≠ [] := by simp [hx]
    obtain ⟨b', v, rest, hnext, hv⟩ :=
      href.ready hconfig hwindow (href.all_sent hhealthy hqueue hserver) hne
    obtain ⟨bs', hx', href'⟩ := href.receives hconfig hwindow hnext hv
    have htail : bs' = bs := (List.cons.inj (hx'.symm.trans hx)).2
    obtain ⟨w, hw⟩ := ih href' htail hhealthy hqueue hserver
    exact ⟨w, .cons hnext hv hw⟩

/-- What the server does with its bytes are steps of the system. -/
theorem Wired.uses {v w : Server} {bytes : Bytes} (hv : Server.Uses v bytes w) :
    ∀ {y : Wire κ}, Wired config tr y → y.server = v → y.buffer = bytes →
      Wired config tr { y with server := w, buffer := [] } := by
  induction hv with
  | nil v =>
    rintro y h rfl hbuffer
    rw [← hbuffer]
    exact h
  | cons hnext hv _ ih =>
    rintro y h rfl rfl
    have hdone := ih (h.receives hnext hv) rfl rfl
    exact hdone

/-- A server that has used all bytes of a healthy session has received everything that the connection
has sent. -/
theorem arrived_of_wired (hconfig : config.Fits) (hwindow : config.initialWindowSize ≤ 65535)
    (h : Wired config tr y) (hhealthy : y.session.isHealthy = true)
    (hqueue : unsent y.session.outbound = []) (hserver : y.toServer = []) (hbuffer : y.buffer = []) :
    ∃ ptr x v, Refines config ptr x tr y ∧ Conveys config ptr x.machine v ∧
      v.requests = y.server.requests := by
  obtain ⟨ptr, x, href⟩ := refines_of_wired hconfig hwindow h
  obtain ⟨v, hv, hall⟩ := conveys_of_linked hwindow href.tracks.linked
  have hnone : x.toPeer = [] := by
    by_contra hx
    obtain ⟨b, v', rest, hnext, -⟩ :=
      href.ready hconfig hwindow (href.all_sent hhealthy hqueue hserver) hx
    rw [hbuffer, Server.next_nil] at hnext
    cases hnext
  rw [hnone] at hall
  refine ⟨ptr, x, v, href, hv, ?_⟩
  rw [← requests_foldl_tell x.toMachine v, hall.eq_of_nil, href.peer]

/-- The server can go on until it has every request that was submitted, and of the request of a live
stream what the stream has sent. -/
theorem Wired.served (hconfig : config.Fits) (hwindow : config.initialWindowSize ≤ 65535)
    (h : Wired config tr y) (hhealthy : y.session.isHealthy = true)
    (hqueue : unsent y.session.outbound = []) (hserver : y.toServer = []) :
    ∃ v, Server.Uses y.server y.buffer v ∧ Wired config tr { y with server := v, buffer := [] } ∧
      (∀ z ∈ submitted tr, ∃ incoming, v.requests z.1 = some incoming ∧ incoming.Faithful z.2) ∧
      ∀ s ∈ y.session.protocol.state.streams.entries, (s.streamId, s.rqst) ∈ submitted tr ∧
        ∃ incoming, v.requests s.streamId = some incoming ∧ incoming.reset = false ∧
          incoming.body = s.rqst.body.take s.requestBodyOffset ∧
          incoming.ended = s.localEndStreamSent := by
  obtain ⟨ptr, x, href⟩ := refines_of_wired hconfig hwindow h
  obtain ⟨v, huses⟩ := Refines.uses hconfig hwindow x.toPeer href rfl hhealthy hqueue hserver
  have hdrained := Wired.uses huses h rfl rfl
  obtain ⟨ptr', x', w, href', hw, hrequests⟩ :=
    arrived_of_wired hconfig hwindow hdrained hhealthy hqueue hserver rfl
  have hmachine := (href'.tracks.attached hhealthy).carries.machine
  refine ⟨v, huses, hdrained, fun z hz => ?_, fun s hs => ?_⟩
  · rw [← href'.submitted] at hz
    exact hrequests ▸ hw.request hz
  · rw [← href'.submitted]
    exact hrequests ▸ hw.stream (hmachine ▸ hs)

/-- A session that only submits, cancels, sends PINGs and writes. -/
theorem wired_of_runs {s : Http2Session κ} (h : Machine.Runs apply (startSession config) tr s)
    (hquiet : ∀ e ∈ tr, e.pre.readBy e.input = [] ∧ e.pre.Encodable e.input) :
    Wired config tr { session := s, toServer := accepted tr } := by
  refine Machine.Runs.invariant_of
    (I := fun tr s => Wired config tr { session := s, toServer := accepted tr })
    (C := fun e => e.pre.readBy e.input = [] ∧ e.pre.Encodable e.input) .start ?_ h hquiet
  intro tr s op s' events _ ih hquiet hop
  have hread : [] = s.readBy op ++ [] := by rw [hquiet.1, List.append_nil]
  have hstep := ih.operates hread hquiet.2 hop
  rw [accepted, List.flatMap_append, List.flatMap_singleton]
  exact hstep

/-- What a session looks like after it has submitted and written a request. -/
def sentCheck (request : Request) (s : Http2Session Nat) (tr : List (Entry Nat)) : Bool :=
  decide (submitted tr = [(1, request)]) && s.isHealthy && decide (unsent s.outbound = []) &&
    tr.all (fun e => decide (e.pre.readBy e.input = [] ∧ e.pre.Encodable e.input)) &&
    (Server.next .preface (accepted tr)).isSome

/-- A request has been submitted and written, and its bytes have reached the server, which has used
none of them. -/
theorem wired_of_request {request : Request} (writes : List WriteResult)
    (hrun : (Machine.run apply (startSession {} : Http2Session Nat)
      [.submit request 7 false false (.id _) (.id _), .onWritable writes]).map
        (fun x => sentCheck request x.1 x.2) = .ok true) :
    ∃ tr, ∃ y : Wire Nat, Wired {} tr y ∧ submitted tr = [(1, request)] ∧
      y.session.isHealthy = true ∧ unsent y.session.outbound = [] ∧ y.toServer = [] ∧
      (Server.next y.server.greeting y.buffer).isSome = true := by
  obtain ⟨s, tr, hr, -, hresult⟩ := Machine.exists_runs_of_map hrun
  simp only [sentCheck, Bool.and_eq_true, decide_eq_true_eq, List.all_eq_true] at hresult
  obtain ⟨⟨⟨⟨hsubmitted, hhealthy⟩, hqueue⟩, hquiet⟩, hnext⟩ := hresult
  exact ⟨tr, _, (wired_of_runs hr hquiet).delivers (List.append_nil _).symm, hsubmitted, hhealthy,
    hqueue, rfl, hnext⟩

theorem wired_post : ∃ tr, ∃ y : Wire Nat, Wired {} tr y ∧ submitted tr = [(1, postRequest)] ∧
    y.session.isHealthy = true ∧ unsent y.session.outbound = [] ∧ y.toServer = [] ∧
    (Server.next y.server.greeting y.buffer).isSome = true :=
  wired_of_request [.ok 24, .ok 30, .ok 9, .ok 18, .ok 19] (by decide +kernel)

/-! ## What the system guarantees -/

/-- Whatever part the server cuts from its bytes, it is the bytes of a buffer that passes the checks of
the server, at every cut of the stream into chunks and after every loss of the connection. -/
theorem bytes_accepted (hconfig : config.Fits) (hwindow : config.initialWindowSize ≤ 65535)
    (h : Wired config tr y) {m : Option OutboundBuffer} {rest : Bytes}
    (hnext : Server.next y.server.greeting y.buffer = some (m, rest)) :
    ∃ b v, m = some b ∧ Server.Receives y.server b v ∧ y.buffer = b.toBytes ++ rest := by
  obtain ⟨ptr, x, href⟩ := refines_of_wired hconfig hwindow h
  obtain ⟨b, bs, v, hm, -, hv, hbuffer⟩ := href.cut hconfig hwindow hnext
  exact ⟨b, v, hm, href.peer ▸ hv, hbuffer⟩

theorem bytes_accepted_post : ∃ tr, ∃ y : Wire Nat, Wired {} tr y ∧
    ∃ b v rest, Server.next y.server.greeting y.buffer = some (some b, rest) ∧
      Server.Receives y.server b v ∧ y.buffer = b.toBytes ++ rest := by
  obtain ⟨tr, y, h, -, -, -, -, hnext⟩ := wired_post
  obtain ⟨⟨m, rest⟩, hnext⟩ := Option.isSome_iff_exists.1 hnext
  obtain ⟨b, v, rfl, hv, hbuffer⟩ := bytes_accepted (by decide) (by decide) h hnext
  exact ⟨tr, y, h, b, v, rest, hnext, hv, hbuffer⟩

/-- At every moment the ids of the submitted requests are distinct, and the requests at the server are
requests that the session has submitted, under the ids that they were given: with their fields, with a
beginning of their body, and with all of it once END_STREAM has arrived. -/
theorem bytes_faithful (hconfig : config.Fits) (hwindow : config.initialWindowSize ≤ 65535)
    (h : Wired config tr y) : ((submitted tr).map Prod.fst).Nodup ∧
      ∀ id incoming, y.server.requests id = some incoming →
        ∃ request, (id, request) ∈ submitted tr ∧ incoming.Faithful request := by
  obtain ⟨ptr, x, href⟩ := refines_of_wired hconfig hwindow h
  obtain ⟨v, hv, -⟩ := conveys_of_linked hwindow href.tracks.linked
  refine ⟨href.submitted ▸ hv.nodup, fun id incoming hfind => ?_⟩
  rw [← href.peer] at hfind
  rw [← href.submitted]
  exact faithful_of_linked hwindow href.tracks.linked hfind

theorem bytes_faithful_post : ∃ tr, ∃ y : Wire Nat, ∃ incoming, Wired {} tr y ∧
    submitted tr = [(1, postRequest)] ∧ y.server.requests 1 = some incoming ∧
      ∃ request, (1, request) ∈ submitted tr ∧ incoming.Faithful request := by
  obtain ⟨tr, y, h, hsubmitted, hhealthy, hqueue, hserver, -⟩ := wired_post
  obtain ⟨v, -, hserved, hall, -⟩ := h.served (by decide) (by decide) hhealthy hqueue hserver
  obtain ⟨incoming, hfind, -⟩ := hall (1, postRequest) (by rw [hsubmitted]; exact .head _)
  exact ⟨tr, _, incoming, hserved, hsubmitted, hfind,
    (bytes_faithful (by decide) (by decide) hserved).2 1 incoming hfind⟩

/-- Nothing gets stuck: once a healthy session has written its queue and the bytes have arrived, a
server that cannot cut a further part has used every byte, and the server can use up the bytes it
has. Then it has every request that was submitted, and of the request of a live stream what the
stream has sent. -/
theorem bytes_arrive (hconfig : config.Fits) (hwindow : config.initialWindowSize ≤ 65535)
    (h : Wired config tr y) (hhealthy : y.session.isHealthy = true)
    (hqueue : unsent y.session.outbound = []) (hserver : y.toServer = []) :
    (Server.next y.server.greeting y.buffer = none → y.buffer = []) ∧
    ∃ v, Server.Uses y.server y.buffer v ∧ Wired config tr { y with server := v, buffer := [] } ∧
      (∀ z ∈ submitted tr, ∃ incoming, v.requests z.1 = some incoming ∧ incoming.Faithful z.2) ∧
      ∀ s ∈ y.session.protocol.state.streams.entries, (s.streamId, s.rqst) ∈ submitted tr ∧
        ∃ incoming, v.requests s.streamId = some incoming ∧ incoming.reset = false ∧
          incoming.body = s.rqst.body.take s.requestBodyOffset ∧
          incoming.ended = s.localEndStreamSent := by
  obtain ⟨ptr, x, href⟩ := refines_of_wired hconfig hwindow h
  have hbuffer := href.all_sent hhealthy hqueue hserver
  refine ⟨fun hstuck => ?_, h.served hconfig hwindow hhealthy hqueue hserver⟩
  by_contra hne
  have hx : x.toPeer ≠ [] := fun hx => hne (by rw [hbuffer, hx, List.flatMap_nil])
  obtain ⟨b, v, rest, hnext, -⟩ := href.ready hconfig hwindow hbuffer hx
  rw [hnext] at hstuck
  cases hstuck

theorem bytes_arrive_post : ∃ tr, ∃ y : Wire Nat, ∃ v, submitted tr = [(1, postRequest)] ∧
    y.buffer ≠ [] ∧ Server.Uses y.server y.buffer v ∧
    Wired {} tr { y with server := v, buffer := [] } ∧
    ∃ incoming, v.requests 1 = some incoming ∧ incoming.Faithful postRequest := by
  obtain ⟨tr, y, h, hsubmitted, hhealthy, hqueue, hserver, hnext⟩ := wired_post
  have hne : y.buffer ≠ [] := fun hnil => by
    rw [hnil, Server.next_nil] at hnext
    cases hnext
  obtain ⟨-, v, huses, hdrained, hall, -⟩ :=
    bytes_arrive (by decide) (by decide) h hhealthy hqueue hserver
  exact ⟨tr, y, v, hsubmitted, hne, huses, hdrained,
    hall (1, postRequest) (by rw [hsubmitted]; exact .head _)⟩

end System

end Http2Session

end Chttp2
