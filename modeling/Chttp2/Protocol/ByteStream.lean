import Chttp2.Lib.Reader
import Chttp2.Protocol.Arrival
import Chttp2.Protocol.Awaited
import Chttp2.Protocol.Written

/-!
# Frames on a byte stream

The frame codec and the server are readers of a byte stream (`FrameCodec.reads_pop`,
`Server.reads_next`): the codec cuts frames from it, the server the connection preface and then
frames. So it does not matter how a stream is cut into chunks. `Carries` relates a protocol that
receives chunks to the link that delivers frames: what is in the codec and behind it are the frames
in flight, and `Carries.receiveBytes` is the step for one chunk.
-/

set_option autoImplicit false

namespace Chttp2

open ProtocolState Channels

/-! ## Readers -/

namespace FrameCodec

/-- `tryPop` as a reader of a stream. -/
def pop (bytes : Bytes) : Option (RawFrame × Bytes) :=
  match tryPop ⟨bytes⟩ with
  | .ok (some (frame, c)) => some (frame, c.buffer)
  | _ => none

/-- The bytes are those of a complete frame. -/
def Spells (part : Bytes) (frame : RawFrame) : Prop :=
  part.length = FrameHeader.encodedSize + frame.header.payloadLength ∧
    FrameHeader.decode (ByteSpan.ofBytes (part.take FrameHeader.encodedSize)) = .ok frame.header ∧
    part.drop FrameHeader.encodedSize = frame.data

theorem pop_eq_some {bytes rest : Bytes} {frame : RawFrame} :
    pop bytes = some (frame, rest) ↔ tryPop ⟨bytes⟩ = .ok (some (frame, ⟨rest⟩)) := by
  unfold pop
  split
  · rename_i f c heq
    obtain ⟨buffer⟩ := c
    rw [heq]
    simp
  · rename_i hne
    refine iff_of_false (fun h => by cases h) fun h => hne frame ⟨rest⟩ h

theorem reads_pop : Reader.Reads pop Spells := by
  intro bytes frame rest
  rw [pop_eq_some, tryPop_eq_some]
  dsimp only
  constructor
  · rintro ⟨hsize, hd, htotal, hdata, hrest⟩
    refine ⟨bytes.take (FrameHeader.encodedSize + frame.header.payloadLength), ?_, ?_, ?_, ?_⟩
    · rw [hrest, List.take_append_drop]
    · rw [List.length_take]
      omega
    · rw [List.take_take, Nat.min_eq_left (Nat.le_add_right _ _)]
      exact hd
    · rw [hdata, List.drop_take, Nat.add_sub_cancel_left]
  · rintro ⟨part, rfl, hlen, hd, hdata⟩
    have hle : FrameHeader.encodedSize ≤ part.length := by omega
    refine ⟨?_, ?_, ?_, ?_, ?_⟩
    · rw [List.length_append]
      omega
    · rw [List.take_append_of_le_length hle]
      exact hd
    · rw [List.length_append]
      omega
    · rw [List.drop_append_of_le_length hle, hdata]
      exact (List.take_left' frame.length_data).symm
    · exact (List.drop_left' hlen).symm

/-- A frame is spelled by the bytes that it is written as. -/
theorem spells_toBytes {frame : RawFrame} (ht : frame.header.type.Canonical) :
    Spells frame.toBytes frame := by
  have hpop : pop (frame.toBytes ++ []) = some (frame, []) :=
    pop_eq_some.2 (tryPop_toBytes ht [])
  obtain ⟨part, heq, hpart⟩ := (reads_pop _ _ _).1 hpop
  rw [List.append_nil, List.append_nil] at heq
  exact heq ▸ hpart

end FrameCodec

/-- The buffer with a frame that a client may send. -/
def OutboundBuffer.ofFrame : TypedFrame → Option OutboundBuffer
  | .data f => some (.data f)
  | .headers f => some (.headers f)
  | .rstStream f => some (.rstStream f)
  | .settings f => some (.settings f)
  | .ping f => some (.ping f)
  | .goAway f => some (.goAway f)
  | .windowUpdate f => some (.windowUpdate f)
  | .continuation f => some (.continuation f)
  | .pushPromise _ => none

theorem OutboundBuffer.ofFrame_of_frame {b : OutboundBuffer} {f : TypedFrame}
    (h : b.frame = some f) : ofFrame f = some b := by
  cases b <;> cases h <;> rfl

namespace Server

/-- What the server takes a frame for; `none` stands for a frame that no client may send. -/
def recognize (frame : RawFrame) : Option OutboundBuffer :=
  match TypedFrame.ofRaw frame with
  | .ok (some f) => OutboundBuffer.ofFrame f
  | _ => none

/-- What the server takes the first bytes for. -/
def greet (bytes : Bytes) : Option OutboundBuffer :=
  if bytes = http2ConnectionPreface then some .preface else none

/-- The next part of the stream, as soon as all of it is there: the connection preface, then frames.
The inner `none` stands for a part that the server has to reject. -/
def next (greeting : Greeting) (bytes : Bytes) : Option (Option OutboundBuffer × Bytes) :=
  match greeting with
  | .preface =>
    if bytes.length < http2ConnectionPreface.length then none
    else some (greet (bytes.take http2ConnectionPreface.length),
      bytes.drop http2ConnectionPreface.length)
  | .settings | .done => (FrameCodec.pop bytes).map fun x => (recognize x.1, x.2)

/-- The parts that the server reads. -/
def Part (greeting : Greeting) (part : Bytes) (b : Option OutboundBuffer) : Prop :=
  match greeting with
  | .preface => part.length = http2ConnectionPreface.length ∧ greet part = b
  | .settings | .done => ∃ frame, FrameCodec.Spells part frame ∧ recognize frame = b

theorem reads_next (greeting : Greeting) : Reader.Reads (next greeting) (Part greeting) := by
  cases greeting with
  | preface =>
    have hreads := Reader.reads_take http2ConnectionPreface.length fun part => some (greet part)
    intro bytes b rest
    exact (hreads bytes b rest).trans (exists_congr fun part => and_congr_right fun _ =>
      and_congr_right fun _ => Option.some_inj)
  | settings => exact FrameCodec.reads_pop.map recognize
  | done => exact FrameCodec.reads_pop.map recognize

variable {v v' : Server} {b : OutboundBuffer}

/-- A server that expects the preface has no open header block. -/
def Fresh (v : Server) : Prop := v.greeting = .preface → v.block = none

theorem Receives.fresh (h : Receives v b v') (hv : v.Fresh) : v'.Fresh := by
  have hready : ∀ {w : Server}, w.Ready → ∀ {w' : Server}, w'.greeting = w.greeting → w'.Fresh := by
    intro w hw w' heq hp
    rw [heq, hw.greeting] at hp
    cases hp
  cases h with
  | preface => exact fun hp => by cases hp
  | settings => exact fun hp => by cases hp
  | continuation => exact fun _ => rfl
  | continuationOpen hgone hblock =>
    intro hp
    rw [hv hp] at hblock
    cases hblock
  | _ h => exact hready h rfl

/-- The preface comes first, and only there. -/
theorem Receives.preface_iff (h : Receives v b v') (hv : v.Fresh) :
    b = .preface ↔ v.greeting = .preface := by
  have hlater : ∀ {g : Greeting}, v.greeting = g → g ≠ .preface → ¬ v.greeting = .preface :=
    fun hg hne hp => hne (hg.symm.trans hp)
  cases h with
  | preface h => exact iff_of_true rfl h
  | settings h => exact iff_of_false (fun h => by cases h) (hlater h (by decide))
  | continuation hgone hblock | continuationOpen hgone hblock =>
    refine iff_of_false (fun h => by cases h) fun hp => ?_
    rw [hv hp] at hblock
    cases hblock
  | settingsAck h | headers h | headersOpen h | data h | rstStream h | ping h | windowUpdate h
  | goAway h => exact iff_of_false (fun h => by cases h) (hlater h.greeting (by decide))

theorem tell_fresh (hv : v.Fresh) (f : RawFrame) : (v.tell f).Fresh := by
  unfold tell
  split
  · split <;> exact hv
  · exact hv
  · exact hv

/-- What the server accepts is a part of the stream for it. -/
theorem Receives.part (h : Receives v b v') (hv : v.Fresh) (hb : b.WellFormed) :
    Part v.greeting b.toBytes (some b) := by
  have hpreface := h.preface_iff hv
  cases hframe : b.frame with
  | none =>
    have hb' : b = .preface := by
      cases b with
      | preface => rfl
      | _ => cases hframe
    rw [hpreface.1 hb', hb']
    exact ⟨rfl, if_pos rfl⟩
  | some f =>
    have hne : ¬ v.greeting = .preface := fun hp => by
      rw [hpreface.2 hp] at hframe
      cases hframe
    have hf := hb f hframe
    have hspells : FrameCodec.Spells b.toBytes (f.raw hf) := by
      rw [OutboundBuffer.toBytes_of_frame hframe, ← TypedFrame.toBytes_raw hf]
      exact FrameCodec.spells_toBytes hf.canonical
    have hrecognize : recognize (f.raw hf) = some b := by
      unfold recognize
      rw [TypedFrame.ofRaw_raw hf]
      exact OutboundBuffer.ofFrame_of_frame hframe
    cases hg : v.greeting with
    | preface => exact absurd hg hne
    | settings => exact ⟨_, hspells, hrecognize⟩
    | done => exact ⟨_, hspells, hrecognize⟩

/-- The server reads a buffer that it accepts once all of its bytes are there, and nothing before. -/
theorem Receives.next (h : Receives v b v') (hv : v.Fresh) (hb : b.WellFormed)
    {bytes more tail : Bytes} (heq : bytes ++ more = b.toBytes ++ tail) :
    (∃ rest, bytes = b.toBytes ++ rest ∧ tail = rest ++ more ∧
        Server.next v.greeting bytes = some (some b, rest)) ∨
      (Server.next v.greeting bytes = none ∧
        ∃ missing, missing ≠ [] ∧ b.toBytes = bytes ++ missing) :=
  (reads_next v.greeting).front (h.part hv hb) heq

theorem next_nil (greeting : Greeting) : Server.next greeting [] = none := by
  cases greeting <;> rfl

/-- The server uses the bytes up: it cuts one buffer after the other from their front and accepts
it. -/
inductive Uses : Server → Bytes → Server → Prop
  | nil (v : Server) : Uses v [] v
  | cons {v v' v'' : Server} {b : OutboundBuffer} {bytes rest : Bytes}
      (hnext : Server.next v.greeting bytes = some (some b, rest)) (hv : Receives v b v')
      (hrest : Uses v' rest v'') : Uses v bytes v''

end Server

/-! ## A protocol that receives chunks -/

/-- The link stands for a protocol with `inp` still to come: the bytes in the codec and behind it are
the frames on the way, unless the connection is closed. -/
structure Carries (config : ClientConfig) (tr : List Entry)
    (x : Link ProtocolState Server OutboundBuffer RawFrame) (p : Http2Protocol) (inp : Bytes) :
    Prop where
  linked : ConnectionLinked config tr x
  machine : x.machine = p.state
  canonical : ∀ f ∈ x.toMachine, f.header.type.Canonical
  stream : p.state.closed = false →
    p.frameCodec.buffer ++ inp = x.toMachine.flatMap RawFrame.toBytes
  cancels : CancelsFit tr

section Carries

variable {config : ClientConfig} {tr : List Entry} {p p' : Http2Protocol} {inp data : Bytes}
  {x : Link ProtocolState Server OutboundBuffer RawFrame} {a : Action} {r : ProtocolStepResult}

theorem runs_of_linked (h : ConnectionLinked config tr x) : Runs (ofConfig config) tr x.machine :=
  Linked.runs h (.single rfl)

theorem started_of_linked (h : ConnectionLinked config tr x) : x.machine.started = true := by
  have hkeeps : ∀ {tr x a p r}, ConnectionLinked config tr x → x.machine.act a = .ok (p, r) →
      x.machine.started = true → p.started = true := fun h hs =>
    (actionStep_of_act (sound_of_runs (runs_of_linked h)) hs).started_of_started
  induction h with
  | start => rfl
  | acts h _ hs ih => exact hkeeps h hs ih
  | @hears tr x f fs r p h _ hs ih =>
    have hact : x.machine.act (.receiveFrame f) = .ok (p, r) := hs
    exact hkeeps h hact ih
  | tells _ _ ih => exact ih
  | receives _ _ _ ih => exact ih

theorem fresh_of_linked (h : ConnectionLinked config tr x) : x.peer.Fresh :=
  h.peer_invariant (I := Server.Fresh) (fun hr hv => Server.Receives.fresh hr hv)
    (fun hv => Server.tell_fresh hv _) fun _ => rfl

theorem CancelsFit.snoc (h : CancelsFit tr) {e : Entry}
    (he : ∀ id code, e.input = .cancelStream id code → code.Fits) : CancelsFit (tr ++ [e]) := by
  intro e' he'
  rcases List.mem_append.1 he' with hmem | hmem
  · exact h e' hmem
  · rw [List.mem_singleton.1 hmem]
    exact he

theorem Carries.reached (h : Carries config tr x p inp) : Reached config p.state :=
  ⟨tr, h.machine ▸ runs_of_linked h.linked⟩

/-- An open connection has its transport. -/
theorem Carries.transport_up (h : Carries config tr x p inp) (hopen : p.state.closed = false) :
    p.state.transportClosed = false := by
  by_contra hdown
  have hclosed := closed_of_lost_transport (h.machine ▸ runs_of_linked h.linked)
    (by simpa using hdown)
  rw [hopen] at hclosed
  cases hclosed

/-- The buffers on the way to the server hold well-formed frames. -/
theorem framed_toPeer (hconfig : config.Fits) (h : ConnectionLinked config tr x)
    (hcancels : CancelsFit tr) : Framed x.toPeer := by
  have hsuffix : x.toPeer <:+ outboundOf tr := h.toPeer_suffix (List.suffix_refl _)
  obtain ⟨-, hframed⟩ := framed_of_runs hconfig (runs_of_linked h) hcancels
  exact fun b hb => hframed b (hsuffix.subset hb)

/-- A call of the owner. -/
theorem Carries.act (h : Carries config tr x p inp)
    (hallowed : connectionParties.allowed p.state a)
    (hcancel : ∀ id code, a = .cancelStream id code → code.Fits)
    (hop : p.lift (p.state.act a) = .ok (p', r)) :
    Carries config (tr ++ [⟨p.state, a, r⟩])
      { x with machine := p'.state, toPeer := x.toPeer ++ r.outbound } p' inp := by
  have hact := act_of_lift hop
  have hcodec : p'.frameCodec = p.frameCodec := by
    unfold Http2Protocol.lift at hop
    obtain ⟨⟨state, r'⟩, -, hrest⟩ := bind_eq_ok.1 hop
    cases hrest
    rfl
  have hstep := h.reached.step hact
  have hlinked := h.linked.acts (h.machine ▸ hallowed) (h.machine ▸ hact)
  rw [h.machine] at hlinked
  refine ⟨hlinked, rfl, h.canonical, fun hopen => ?_, h.cancels.snoc hcancel⟩
  rw [hcodec]
  exact h.stream (hstep.open_of_open hopen)

/-- A frame of the server. -/
theorem Carries.tells (h : Carries config tr x p inp) {f : RawFrame}
    (hlegal : connectionParties.legal f) (hf : f.header.type.Canonical) :
    Carries config tr { x with peer := x.peer.tell f, toMachine := x.toMachine ++ [f] } p
      (inp ++ f.toBytes) := by
  refine ⟨h.linked.tells hlegal, h.machine, fun g hg => ?_, fun hopen => ?_, h.cancels⟩
  · rcases List.mem_append.1 hg with hg | hg
    · exact h.canonical g hg
    · rw [List.mem_singleton.1 hg]
      exact hf
  · rw [List.flatMap_append, List.flatMap_singleton, ← h.stream hopen, List.append_assoc]

/-- A buffer that arrives. -/
theorem Carries.receives (h : Carries config tr x p inp) {b : OutboundBuffer}
    {bs : List OutboundBuffer} {v : Server} (hb : x.toPeer = b :: bs)
    (hv : Server.Receives x.peer b v) :
    Carries config tr { x with peer := v, toPeer := bs } p inp :=
  ⟨h.linked.receives hb hv, h.machine, h.canonical, h.stream, h.cancels⟩

/-- Frames that are cut from the codec are the ones that arrive next. -/
theorem Carries.pop (h : Carries config tr x p inp) (hopen : p.state.closed = false)
    {frame : RawFrame} {codec : FrameCodec} (hpop : p.frameCodec.tryPop = .ok (some (frame, codec))) :
    ∃ frames, x.toMachine = frame :: frames ∧
      codec.buffer ++ inp = frames.flatMap RawFrame.toBytes := by
  have hmore : FrameCodec.pop (p.frameCodec.buffer ++ inp) = some (frame, codec.buffer ++ inp) :=
    FrameCodec.pop_eq_some.2 (FrameCodec.tryPop_feed hpop inp)
  obtain ⟨part, hbytes, hpart⟩ := (FrameCodec.reads_pop _ _ _).1 hmore
  rw [h.stream hopen] at hbytes
  cases hx : x.toMachine with
  | nil =>
    -- a frame has nine bytes at least
    rw [hx, List.flatMap_nil] at hbytes
    have hlen := hpart.1
    rw [(List.append_eq_nil_iff.1 hbytes.symm).1, FrameHeader.encodedSize, List.length_nil] at hlen
    omega
  | cons f frames =>
    have hcanonical : f.header.type.Canonical := h.canonical f (by rw [hx]; exact .head _)
    rw [hx, List.flatMap_cons] at hbytes
    obtain ⟨rfl, hrest⟩ :=
      FrameCodec.reads_pop.unique (FrameCodec.spells_toBytes hcanonical) hpart hbytes
    exact ⟨frames, rfl, hrest.symm⟩

/-- The loop of `receiveBytes` takes frames that are on the way, in order. -/
theorem Carries.receiveFrames (fuel : Nat) : ∀ {tr : List Entry} {p p' : Http2Protocol}
    {x : Link ProtocolState Server OutboundBuffer RawFrame} {r : ProtocolStepResult},
    Carries config tr x p inp → p.state.closed = false →
    Http2Protocol.receiveFrames fuel p = .ok (p', r) →
      ∃ tr' x', Carries config tr' x' p' inp ∧ x'.peer = x.peer ∧
        x'.toPeer = x.toPeer ++ r.outbound ∧ submissions tr' = submissions tr ∧
        (Harmless r.events ∨ p'.state.closed = true) := by
  have hidle : ∀ {tr : List Entry} {p : Http2Protocol}
      {x : Link ProtocolState Server OutboundBuffer RawFrame}, Carries config tr x p inp →
      ∃ tr' x', Carries config tr' x' p inp ∧ x'.peer = x.peer ∧
        x'.toPeer = x.toPeer ++ ({} : ProtocolStepResult).outbound ∧
        submissions tr' = submissions tr ∧
        (Harmless ({} : ProtocolStepResult).events ∨ p.state.closed = true) :=
    fun h => ⟨_, _, h, rfl, (List.append_nil _).symm, rfl, Or.inl harmless_nil⟩
  induction fuel with
  | zero =>
    intro tr p p' x r h _ hrun
    cases hrun
    exact hidle h
  | succ fuel ih =>
    intro tr p p' x r h hopen hrun
    rcases p.frameCodec.tryPop_cases with hpop | ⟨frame, codec, hpop, -⟩
    · rw [Http2Protocol.receiveFrames, hpop, ok_bind] at hrun
      cases hrun
      exact hidle h
    rw [Http2Protocol.receiveFrames, hpop, ok_bind] at hrun
    obtain ⟨⟨state, result⟩, hreceive, hrun⟩ := bind_eq_ok.1 hrun
    obtain ⟨frames, hx, hstream⟩ := h.pop hopen hpop
    have hup := h.transport_up hopen
    have hact : p.state.act (.receiveFrame frame) = .ok (state, result) := by
      simpa [ProtocolState.act, hopen, hup] using hreceive
    have hstep := h.reached.step hact
    have hharmless : Harmless result.events ∨ state.closed = true := by
      cases hstep with
      | frameIgnored => exact Or.inl harmless_nil
      | frame f hopen hup hframe => exact hframe.harmless_or_closed.imp_right And.left
    have hlinked := h.linked.hears hx (h.machine ▸ hact)
    rw [h.machine] at hlinked
    have h₁ : Carries config (tr ++ [⟨p.state, .receiveFrame frame, result⟩])
        { x with machine := state, toPeer := x.toPeer ++ result.outbound, toMachine := frames }
        ⟨codec, state⟩ inp := by
      refine ⟨hlinked, rfl, fun f hf => h.canonical f ?_, fun _ => hstream,
        h.cancels.snoc fun id code hinput => by cases hinput⟩
      rw [hx]
      exact .tail _ hf
    have hsubs : submissions (tr ++ [⟨p.state, .receiveFrame frame, result⟩]) = submissions tr :=
      submissions_snoc rfl
    dsimp only at hrun
    by_cases hclosed : state.closed = true
    · rw [if_pos hclosed] at hrun
      cases hrun
      exact ⟨_, _, h₁, rfl, rfl, hsubs, Or.inr hclosed⟩
    · rw [if_neg hclosed] at hrun
      obtain ⟨⟨q, more⟩, hmore, hrun⟩ := bind_eq_ok.1 hrun
      cases hrun
      obtain ⟨tr', x', h', hpeer, hout, hsubs', hend⟩ := ih h₁ (by simpa using hclosed) hmore
      refine ⟨tr', x', h', hpeer, ?_, hsubs'.trans hsubs, ?_⟩
      · rw [hout]
        exact List.append_assoc _ _ _
      · rcases hend with hmore | hend
        · exact Or.inl (harmless_append.2 ⟨hharmless.resolve_right hclosed, hmore⟩)
        · exact Or.inr hend

/-- A chunk of the stream. -/
theorem Carries.receiveBytes (h : Carries config tr x p (data ++ inp))
    (hop : p.receiveBytes data = .ok (p', r)) :
    ∃ tr' x', Carries config tr' x' p' inp ∧ x'.peer = x.peer ∧
      x'.toPeer = x.toPeer ++ r.outbound ∧ submissions tr' = submissions tr ∧
      (Harmless r.events ∨ p'.state.closed = true) := by
  by_cases hclosed : p.state.closed = true
  · rw [Http2Protocol.receiveBytes_closed hclosed] at hop
    cases hop
    refine ⟨tr, x, ⟨h.linked, h.machine, h.canonical, fun hopen => ?_, h.cancels⟩, rfl,
      (List.append_nil _).symm, rfl, Or.inr hclosed⟩
    rw [hclosed] at hopen
    cases hopen
  · have hopen : p.state.closed = false := by simpa using hclosed
    have hfed : Carries config tr x { p with frameCodec := p.frameCodec.feed data } inp := by
      refine ⟨h.linked, h.machine, h.canonical, fun _ => ?_, h.cancels⟩
      rw [← h.stream hopen]
      exact List.append_assoc _ _ _
    have hup := h.transport_up hopen
    rw [Http2Protocol.receiveBytes, if_neg (by simp [hopen, hup])] at hop
    exact hfed.receiveFrames _ hopen hop

end Carries

end Chttp2
