import Chttp2.Hpack.Peer
import Chttp2.Lib.Channels
import Chttp2.Protocol.Closing
import Chttp2.Protocol.Replies
import Chttp2.Protocol.RequestHeaders
import Chttp2.Protocol.Server

/-!
# A connection and what its server has received

`Live` relates an open connection to a server (`Server`) that has received all that the connection
has sent: the settings, both kinds of windows and the HPACK tables agree, every live stream is a
request at the server, with the bytes of its body up to the offset of the stream, and the requests at
the server are those submitted (`Conveyed`). What a local operation sends (`Live.acts`,
`Live.opening`) and what a received frame makes the connection send (`Live.effect`) is accepted by the
server, and `Live` goes on.
-/

set_option autoImplicit false

namespace Chttp2

open ProtocolState Channels

/-! ## Submissions -/

/-- The request that an entry opens a stream for. -/
def submission (e : Entry) : Option (StreamId × Request) :=
  match e.input, e.output.submittedStreamId with
  | .submitRequest request _, some id => some (id, request)
  | _, _ => none

/-- The requests of a trace, with the ids that they were given. -/
def submissions (tr : List Entry) : List (StreamId × Request) := tr.filterMap submission

@[simp] theorem submissions_nil : submissions [] = [] := rfl

/-- Only an entry that returns an id opens a stream. -/
theorem submission_of_none {p : ProtocolState} {a : Action} {r : ProtocolStepResult}
    (h : r.submittedStreamId = none) : submission ⟨p, a, r⟩ = none := by
  cases a <;> simp only [submission, h]

theorem submissions_snoc {tr : List Entry} {e : Entry} (h : submission e = none) :
    submissions (tr ++ [e]) = submissions tr := by
  rw [submissions, List.filterMap_append, List.filterMap_cons_none h, List.filterMap_nil,
    List.append_nil, submissions]

theorem submissions_snoc_some {tr : List Entry} {e : Entry} {x : StreamId × Request}
    (h : submission e = some x) : submissions (tr ++ [e]) = submissions tr ++ [x] := by
  rw [submissions, List.filterMap_append, List.filterMap_cons_some h, List.filterMap_nil,
    submissions]

/-! ## What the server has of the requests -/

namespace Server

/-- What has arrived is a part of the request from its start, and all of it after END_STREAM. -/
structure Incoming.Faithful (incoming : Incoming) (request : Request) : Prop where
  fields : incoming.fields = buildRequestHeaderFields request
  body : incoming.body <+: request.body
  ended : incoming.ended = true → incoming.body = request.body

/-- What has arrived of the request of a live stream: its fields, and its body up to the offset. The
stream may send until the body is as long as the credit of the server. -/
structure Arrived (credit : Int) (s : Stream) (incoming : Incoming) : Prop where
  fields : incoming.fields = buildRequestHeaderFields s.rqst
  body : incoming.body = s.rqst.body.take s.requestBodyOffset
  ended : incoming.ended = s.localEndStreamSent
  reset : incoming.reset = false
  window : s.outflow.window + s.requestBodyOffset ≤ credit

/-- The requests at the server are those submitted. -/
structure Conveyed (subs : List (StreamId × Request)) (v : Server) : Prop where
  sound : ∀ id incoming, v.requests id = some incoming →
    ∃ request, (id, request) ∈ subs ∧ incoming.Faithful request
  complete : ∀ x ∈ subs, ∃ incoming, v.requests x.1 = some incoming

/-- A live stream is a request that was submitted and has arrived. -/
def Present (subs : List (StreamId × Request)) (p : ProtocolState) (v : Server) (s : Stream) :
    Prop :=
  (s.streamId, s.rqst) ∈ subs ∧ ∃ incoming, v.requests s.streamId = some incoming ∧
    Arrived (v.credit s.streamId + wrapInt32 p.initialWindowSize) s incoming

/-- The server has received all that the open connection `p` has sent. Of the settings that the server
has announced, those of `pending` are applied and not yet acknowledged. -/
structure Live (subs : List (StreamId × Request)) (pending : List (List (Nat × Nat)))
    (p : ProtocolState) (v : Server) : Prop where
  ready : v.Ready
  announced : v.announced = pending
  maxFrameSize : p.maxFrameSize = settingOf .maxFrameSize pending.flatten v.maxFrameSize
  initialWindowSize : wrapInt32 p.initialWindowSize ≤
    (settingOf .initialWindowSize pending.flatten v.initialWindowSize : Nat)
  connection : p.connectionOutFlow.window + v.received ≤ 65535 + v.credit 0
  hpack : Hpack.InStepWith p.hpack (settingOf .headerTableSize pending.flatten v.tableLimit) v.table
  lastStreamId : v.lastStreamId < p.nextStreamId
  streams : ∀ s ∈ p.streams.entries, Present subs p v s
  conveyed : Conveyed subs v

section Theory

variable {subs : List (StreamId × Request)} {pending : List (List (Nat × Nat))}
  {p p' : ProtocolState} {v : Server} {s : Stream} {incoming : Incoming}

/-! ## Steps that send no request data -/

theorem Live.fits (h : Live subs pending p v) {n : Nat} (hn : n ≤ p.maxFrameSize) : v.Fits n :=
  ⟨pending, by rw [h.announced], h.maxFrameSize ▸ hn⟩

/-- A connection whose sending side is as it was. -/
theorem Live.sameSender (h : Live subs pending p v) (hsame : SameSender p p') :
    Live subs pending p' v where
  ready := h.ready
  announced := h.announced
  maxFrameSize := hsame.maxFrameSize ▸ h.maxFrameSize
  initialWindowSize := hsame.initialWindowSize ▸ h.initialWindowSize
  connection := hsame.connectionOutFlow ▸ h.connection
  hpack := h.hpack.congr hsame.encodeTable hsame.encodeTableDirty hsame.encodeMinSize
  lastStreamId := hsame.nextStreamId ▸ h.lastStreamId
  streams := by
    intro u hu
    obtain ⟨s, hs, hcontinues, hout⟩ := hsame.streams u hu
    obtain ⟨hmem, incoming, hfind, harrived⟩ := h.streams s hs
    rw [Present, hcontinues.streamId, hcontinues.rqst]
    refine ⟨hmem, incoming, hfind, ?_, ?_, ?_, harrived.reset, ?_⟩
    · rw [hcontinues.rqst]
      exact harrived.fields
    · rw [hcontinues.rqst, hcontinues.requestBodyOffset]
      exact harrived.body
    · rw [hcontinues.localEndStreamSent]
      exact harrived.ended
    · rw [hout, hcontinues.requestBodyOffset, hsame.initialWindowSize]
      exact harrived.window
  conveyed := h.conveyed

/-- A stream that has gone can be reset at the server. -/
theorem Live.reset (h : Live subs pending p v) {id : StreamId}
    (hfind : v.requests id = some incoming) (hgone : id ∉ p.streams.keys) :
    Live subs pending p (v.putRequest id { incoming with reset := true }) where
  ready := ⟨h.ready.1, h.ready.2, h.ready.3⟩
  announced := h.announced
  maxFrameSize := h.maxFrameSize
  initialWindowSize := h.initialWindowSize
  connection := h.connection
  hpack := h.hpack
  lastStreamId := h.lastStreamId
  streams := by
    intro s hs
    obtain ⟨hmem, i, hi, harrived⟩ := h.streams s hs
    have hne : s.streamId ≠ id := by
      rintro rfl
      exact hgone (KeyedTable.key_mem_keys hs)
    exact ⟨hmem, i, (Function.update_of_ne hne _ _).trans hi, harrived⟩
  conveyed := by
    refine ⟨fun k i hk => ?_, fun x hx => ?_⟩
    · by_cases hid : k = id
      · subst hid
        obtain rfl := Option.some.inj ((Function.update_self k _ _).symm.trans hk)
        obtain ⟨request, hmem, hfaithful⟩ := h.conveyed.sound k incoming hfind
        exact ⟨request, hmem, hfaithful.1, hfaithful.2, hfaithful.3⟩
      · exact h.conveyed.sound k i ((Function.update_of_ne hid _ _).symm.trans hk)
    · by_cases hid : x.1 = id
      · exact ⟨_, by rw [hid]; exact Function.update_self id _ _⟩
      · obtain ⟨i, hi⟩ := h.conveyed.complete x hx
        exact ⟨i, (Function.update_of_ne hid _ _).trans hi⟩

/-- The server accepts replies. -/
theorem Live.replies {out : List OutboundBuffer} (hreplies : Replies p p' out)
    (h : Live subs pending p v) (hsame : SameSender p p') :
    ∃ v', ReceivesAll Receives v out v' ∧ Live subs pending p' v' := by
  induction hreplies with
  | nil => exact ⟨v, .nil v, h.sameSender hsame⟩
  | reset g hlive hgone =>
    obtain ⟨s, hs, hid⟩ := KeyedTable.mem_keys.1 hlive
    obtain ⟨-, incoming, hfind, harrived⟩ := h.streams s hs
    rw [hid] at hfind
    exact ⟨_, .single (.rstStream h.ready hfind harrived.reset),
      (h.sameSender hsame).reset hfind hgone⟩
  | ping g hid _ ih =>
    obtain ⟨v', hall, hv'⟩ := ih
    exact ⟨v', .cons (.ping h.ready hid) hall, hv'⟩
  | windowUpdate g hpos hid _ ih =>
    obtain ⟨v', hall, hv'⟩ := ih
    refine ⟨v', .cons (.windowUpdate h.ready hpos (hid.imp_right fun hlive => ?_)) hall, hv'⟩
    obtain ⟨s, hs, hid⟩ := KeyedTable.mem_keys.1 hlive
    obtain ⟨-, incoming, hfind, harrived⟩ := h.streams s hs
    rw [hid] at hfind
    exact ⟨incoming, hfind, harrived.reset⟩

/-! ## Request bodies -/

theorem store_nil {id : StreamId} (hfind : v.requests id = some incoming) :
    v.store id incoming [] incoming.ended = v := by
  have hself : Function.update v.requests id (some incoming) = v.requests := by
    rw [← hfind, Function.update_eq_self]
  simp only [store, putRequest, List.append_nil, List.length_nil, Nat.add_zero, hself]

theorem store_store (v : Server) (id : StreamId) (incoming : Incoming) (a b : Bytes)
    (x y : Bool) :
    (v.store id incoming a x).store id { incoming with body := incoming.body ++ a, ended := x } b y =
      v.store id incoming (a ++ b) y := by
  simp only [store, putRequest, Function.update_idem, List.append_assoc, List.length_append,
    Nat.add_assoc]

/-- The frames carry the rest of a body or a beginning of it, and the last byte of the body has
END_STREAM. -/
theorem receivesAll_data {id : StreamId} {frames : List DataFrame} :
    ∀ {v : Server} {incoming : Incoming} {rest : Bytes}, v.Ready →
      v.requests id = some incoming → incoming.ended = false → incoming.reset = false →
      (∀ f ∈ frames, f.header.streamId = id ∧ 0 < f.data.length ∧ v.Fits f.data.length) →
      payload frames <+: rest →
      (∀ a f b, frames = a ++ f :: b →
        (f.header.hasEndStreamFlag = true ↔ payload (a ++ [f]) = rest)) →
      (frames ≠ [] → v.received + (payload frames).length ≤ 65535 + v.credit 0) →
      (frames ≠ [] → v.WithinWindow id incoming.body.length (payload frames).length) →
      ReceivesAll Receives v (frames.map .data) (v.store id incoming (payload frames)
        (decide (frames ≠ [] ∧ payload frames = rest))) := by
  induction frames with
  | nil =>
    intro v incoming rest _ hfind hended _ _ _ _ _ _
    have hnil := store_nil hfind
    rw [hended] at hnil
    simp only [payload_nil, ne_eq, not_true_eq_false, false_and, decide_false, hnil]
    exact .nil v
  | cons f frames ih =>
    intro v incoming rest hready hfind hended hreset hframes hpre hend hconn hwin
    obtain ⟨⟨hid, hpos, hfits⟩, hrest⟩ := List.forall_mem_cons.1 hframes
    have hc := hconn (List.cons_ne_nil _ _)
    obtain ⟨applied, happlied, hw⟩ := hwin (List.cons_ne_nil _ _)
    rw [payload_cons, List.length_append] at hc hw
    have hflag := hend [] f frames rfl
    simp only [List.nil_append, payload_cons, payload_nil, List.append_nil] at hflag
    have hfirst : Receives v (.data f) (v.store id incoming f.data f.header.hasEndStreamFlag) := by
      rw [← hid] at hfind ⊢
      refine .data hready hfind hended hreset hfits (by omega) ⟨applied, happlied, ?_⟩
      rw [hid]
      omega
    cases hframes' : frames with
    | nil =>
      have hlast : f.header.hasEndStreamFlag = decide (f.data = rest) := by
        rw [Bool.eq_iff_iff, hflag, decide_eq_true_iff]
      rw [hlast] at hfirst
      simpa using ReceivesAll.single hfirst
    | cons g more =>
      rw [← hframes']
      -- bytes follow, so this frame is not the last one
      have hmore : payload frames ≠ [] := by
        rw [hframes', payload_cons]
        exact List.append_ne_nil_of_left_ne_nil
          (List.length_pos_iff.1 (hrest g (by rw [hframes']; exact List.mem_cons_self)).2.1) _
      obtain ⟨tail, rfl⟩ := hpre
      rw [payload_cons, List.append_assoc] at hflag hend ⊢
      have hopen : f.header.hasEndStreamFlag = false := by
        rw [← Bool.not_eq_true, hflag, List.self_eq_append_right]
        exact fun hnil => hmore (List.append_eq_nil_iff.1 hnil).1
      rw [hopen] at hfirst
      have hnext := @ih (v.store id incoming f.data false)
        { incoming with body := incoming.body ++ f.data, ended := false }
        (payload frames ++ tail) ⟨hready.1, hready.2, hready.3⟩
        (Function.update_self _ _ _) rfl hreset hrest (List.prefix_append _ _)
        (fun a k b heq => ?_) (fun _ => ?_) (fun _ => ⟨applied, happlied, ?_⟩)
      · have hboth : (f :: frames ≠ [] ∧ f.data ++ payload frames =
            f.data ++ (payload frames ++ tail)) ↔
            frames ≠ [] ∧ payload frames = payload frames ++ tail := by
          rw [List.append_right_inj, hframes']
          simp
        rw [store_store] at hnext
        simp only [hboth]
        exact .cons hfirst hnext
      · rw [hend (f :: a) k b (by rw [heq]; rfl)]
        simp
      · show v.received + f.data.length + (payload frames).length ≤ 65535 + v.credit 0
        omega
      · show (incoming.body ++ f.data).length + (payload frames).length ≤ v.credit id +
          settingOf .initialWindowSize applied.flatten v.initialWindowSize
        rw [List.length_append]
        omega

/-- Body bytes of a request at the server. -/
theorem Conveyed.store (h : Conveyed subs v) {id : StreamId} {request : Request}
    (hmem : (id, request) ∈ subs) {data : Bytes} {endStream : Bool}
    (hfaithful : ({ incoming with body := incoming.body ++ data, ended := endStream } :
      Incoming).Faithful request) : Conveyed subs (v.store id incoming data endStream) := by
  refine ⟨fun k i hk => ?_, fun x hx => ?_⟩
  · by_cases hid : k = id
    · subst hid
      obtain rfl := Option.some.inj ((Function.update_self k _ _).symm.trans hk)
      exact ⟨request, hmem, hfaithful⟩
    · exact h.sound k i ((Function.update_of_ne hid _ _).symm.trans hk)
  · by_cases hid : x.1 = id
    · exact ⟨_, by rw [hid]; exact Function.update_self id _ _⟩
    · obtain ⟨i, hi⟩ := h.complete x hx
      exact ⟨i, (Function.update_of_ne hid _ _).trans hi⟩

/-- The server accepts the DATA frames of a stream. -/
theorem Live.bodySent {n : Nat} {frames : List DataFrame} (h : Live subs pending p v)
    (hfind : p.streams.find? s.streamId = some s) (hok : s.StateOk)
    (hopen : s.localEndStreamSent = false)
    (hsent : BodySent p.maxFrameSize s p.connectionOutFlow n frames) :
    ∃ v', ReceivesAll Receives v (frames.map .data) v' ∧ Live subs pending
      ({ p with connectionOutFlow := ⟨p.connectionOutFlow.window - n⟩ }.putStream
        (s.advanceBody n)) v' := by
  obtain ⟨hmem, incoming, hrequest, harrived⟩ := h.streams s (KeyedTable.mem_of_find? hfind)
  have hlength := hsent.length_payload
  have hoffset := hok.offset_le
  have hbody : incoming.body.length = s.requestBodyOffset := by
    rw [harrived.body, List.length_take]
    omega
  have hsum : incoming.body ++ payload frames = s.rqst.body.take (s.requestBodyOffset + n) := by
    rw [harrived.body, hsent.body, List.take_add]
  have hpos : frames ≠ [] ↔ 0 < n := by
    rw [← hlength]
    refine ⟨fun hne => ?_, fun hlt hnil => by rw [hnil] at hlt; exact lt_irrefl 0 hlt⟩
    obtain ⟨f, more, rfl⟩ := List.exists_cons_of_ne_nil hne
    have hf := (hsent.size f List.mem_cons_self).1
    rw [payload_cons, List.length_append]
    omega
  have hall : payload frames = s.rqst.body.drop s.requestBodyOffset ↔ n = s.remainingBodySize := by
    rw [hsent.body, List.take_eq_self_iff, List.length_drop]
    have hle := hsent.le
    unfold Stream.remainingBodySize at hle ⊢
    omega
  have hended : decide (frames ≠ [] ∧ payload frames = s.rqst.body.drop s.requestBodyOffset) =
      (s.advanceBody n).localEndStreamSent := by
    simp only [hpos, hall, Stream.advanceBody, hopen, Bool.false_or]
  -- the windows of the sender are within those of the server
  have hconnection := h.connection
  have hwindow := harrived.window
  have hinitial := h.initialWindowSize
  have havailable := OutFlow.available_le s.outflow p.connectionOutFlow
  have hn : 0 < n → (n : Int) ≤ s.outflow.available p.connectionOutFlow := fun hlt =>
    hsent.window.resolve_left (Nat.pos_iff_ne_zero.1 hlt)
  have hreceives := @receivesAll_data s.streamId frames _ _ _ h.ready hrequest
    (harrived.ended.trans hopen) harrived.reset
    (fun f hf => ⟨hsent.streamId f hf, (hsent.size f hf).1, h.fits (hsent.size f hf).2⟩)
    (by rw [hsent.body]; exact List.take_prefix _ _) hsent.endStream
    (fun hne => by have := hn (hpos.1 hne); omega)
    (fun hne => ⟨pending, by rw [h.announced], by have := hn (hpos.1 hne); omega⟩)
  rw [hended] at hreceives
  refine ⟨_, hreceives, ⟨h.ready.1, h.ready.2, h.ready.3⟩, h.announced, h.maxFrameSize,
    h.initialWindowSize, ?_, h.hpack, h.lastStreamId, fun u hu => ?_, ?_⟩
  · show p.connectionOutFlow.window - n + ((v.received + (payload frames).length : Nat) : Int) ≤ _
    rw [hlength]
    show _ ≤ 65535 + (v.credit 0 : Int)
    omega
  · rcases KeyedTable.mem_set.1 hu with ⟨rfl, -⟩ | ⟨hu, hne⟩
    · refine ⟨hmem, _, Function.update_self _ _ _, harrived.fields, hsum, rfl, harrived.reset, ?_⟩
      show s.outflow.window - n + ((s.requestBodyOffset + n : Nat) : Int) ≤
        v.credit s.streamId + wrapInt32 p.initialWindowSize
      omega
    · obtain ⟨hmem', i, hi, harrived'⟩ := h.streams u hu
      exact ⟨hmem', i, (Function.update_of_ne hne _ _).trans hi, harrived'⟩
  · refine h.conveyed.store hmem ⟨harrived.fields, ?_, fun he => ?_⟩
    · rw [hsum]
      exact List.take_prefix _ _
    · rw [← hended, decide_eq_true_iff, hall] at he
      rw [hsum, List.take_of_length_le]
      have := he.2
      unfold Stream.remainingBodySize at this
      omega

/-- A call of `emitPendingRequestBody`. -/
theorem Live.bodyStep {r : ProtocolStepResult} (h : Live subs pending p v)
    (hfind : p.streams.find? s.streamId = some s) (hok : s.StateOk) (hstep : BodyStep p s p' r) :
    ∃ v', ReceivesAll Receives v r.outbound v' ∧ Live subs pending p' v' := by
  cases hstep with
  | idle => exact ⟨v, .nil v, h⟩
  | partly n frames hopen hsent => exact h.bodySent hfind hok hopen hsent
  | wholly n frames hopen hsent hend =>
    obtain ⟨v', hall, hv'⟩ := h.bodySent hfind hok hopen hsent
    refine ⟨v', hall, hv'.sameSender ⟨rfl, rfl, rfl, rfl, rfl, rfl, rfl, fun u hu => ?_⟩⟩
    rcases KeyedTable.mem_set.1 hu with ⟨rfl, hkey⟩ | ⟨hu, hne⟩
    · exact ⟨s.advanceBody n, KeyedTable.mem_set.2 (Or.inl ⟨rfl, hkey⟩),
        ⟨rfl, rfl, rfl, rfl, fun _ => rfl⟩, rfl⟩
    · exact continues_of_mem (KeyedTable.mem_set.2 (Or.inr ⟨hu, hne⟩))
  | finished n frames hopen hsent =>
    obtain ⟨v', hall, hv'⟩ := h.bodySent hfind hok hopen hsent
    refine ⟨v', hall, hv'.sameSender ⟨rfl, rfl, rfl, rfl, rfl, rfl, rfl, fun u hu => ?_⟩⟩
    obtain ⟨hu, hne⟩ := KeyedTable.mem_erase.1 hu
    exact continues_of_mem (KeyedTable.mem_set.2 (Or.inr ⟨hu, hne⟩))

theorem Live.bodySteps {ids : List StreamId} {r : ProtocolStepResult}
    (hsteps : BodySteps ids p p' r) : ∀ {v : Server}, Live subs pending p v →
      AllStreams Stream.StateOk p.streams →
      ∃ v', ReceivesAll Receives v r.outbound v' ∧ Live subs pending p' v' := by
  induction hsteps with
  | nil => exact fun {v} h _ => ⟨v, .nil v, h⟩
  | gone _ _ ih => exact fun h hok => ih h hok
  | @cons id ids s p p₁ p' r₁ r hfind hstep _ ih =>
    intro v h hok
    have hid : s.streamId = id := KeyedTable.key_of_find? hfind
    obtain ⟨v₁, hall₁, hv₁⟩ := h.bodyStep (by rw [hid]; exact hfind) (hok.find hfind) hstep
    obtain ⟨v', hall, hv'⟩ := ih hv₁
      (AllStreams.bodyStep keptByEmission_stateOk hstep hok (hok.find hfind))
    exact ⟨v', hall₁.append hall, hv'⟩

/-! ## What the server sends -/

/-- Credit that the connection has not yet seen. -/
theorem Live.grant (h : Live subs pending p v) (id : StreamId) (n : Nat) :
    Live subs pending p (v.grant id n) where
  ready := ⟨h.ready.1, h.ready.2, h.ready.3⟩
  announced := h.announced
  maxFrameSize := h.maxFrameSize
  initialWindowSize := h.initialWindowSize
  connection := by
    have hle := v.credit_le_grant id n 0
    have hconnection := h.connection
    show p.connectionOutFlow.window + v.received ≤ 65535 + (v.grant id n).credit 0
    omega
  hpack := h.hpack
  lastStreamId := h.lastStreamId
  streams := by
    intro s hs
    obtain ⟨hmem, i, hi, harrived⟩ := h.streams s hs
    have hle := v.credit_le_grant id n s.streamId
    have hwindow := harrived.window
    exact ⟨hmem, i, hi, harrived.1, harrived.2, harrived.3, harrived.4, by omega⟩
  conveyed := ⟨h.conveyed.sound, h.conveyed.complete⟩

/-- A frame of the server that announces no settings. -/
theorem Live.tell (h : Live subs pending p v) {f : RawFrame}
    (hf : f.header.type = .settings → f.header.hasAckFlag = true) :
    Live subs pending p (v.tell f) := by
  unfold Server.tell
  split
  · rename_i ht
    rw [if_pos (hf ht)]
    exact h
  · exact h.grant _ _
  · exact h

/-- The connection takes over credit for all streams. -/
theorem Live.connectionGrant (h : Live subs pending p v) {n : Nat} {outflow : OutFlow}
    (hadd : p.connectionOutFlow.add n = some outflow) :
    Live subs pending { p with connectionOutFlow := outflow } (v.grant 0 n) := by
  obtain ⟨rfl, -, -⟩ := OutFlow.add_eq_some.1 hadd
  have hgrant := h.grant 0 n
  have hcredit : (v.grant 0 n).credit 0 = v.credit 0 + n := Function.update_self 0 _ v.credit
  have hconnection := h.connection
  refine ⟨hgrant.ready, hgrant.announced, hgrant.maxFrameSize, hgrant.initialWindowSize, ?_,
    hgrant.hpack, hgrant.lastStreamId, hgrant.streams, hgrant.conveyed⟩
  show p.connectionOutFlow.window + n + (v.received : Int) ≤ 65535 + (v.grant 0 n).credit 0
  omega

/-- The connection takes over credit for a stream. -/
theorem Live.streamGrant (h : Live subs pending p v) {n : Nat} {outflow : OutFlow}
    (hfind : p.streams.find? s.streamId = some s) (hadd : s.outflow.add n = some outflow) :
    Live subs pending (p.putStream (s.withOutflow outflow)) (v.grant s.streamId n) := by
  obtain ⟨rfl, -, -⟩ := OutFlow.add_eq_some.1 hadd
  have hgrant := h.grant s.streamId n
  have hcredit : (v.grant s.streamId n).credit s.streamId = v.credit s.streamId + n :=
    Function.update_self s.streamId _ v.credit
  refine ⟨hgrant.ready, hgrant.announced, hgrant.maxFrameSize, hgrant.initialWindowSize,
    hgrant.connection, hgrant.hpack, hgrant.lastStreamId, fun u hu => ?_, hgrant.conveyed⟩
  rcases KeyedTable.mem_set.1 hu with ⟨rfl, -⟩ | ⟨hu, -⟩
  · obtain ⟨hmem, i, hi, harrived⟩ := h.streams s (KeyedTable.mem_of_find? hfind)
    have hwindow := harrived.window
    refine ⟨hmem, i, hi, harrived.1, harrived.2, harrived.3, harrived.4, ?_⟩
    show s.outflow.window + n + (s.requestBodyOffset : Int) ≤
      (v.grant s.streamId n).credit s.streamId + wrapInt32 p.initialWindowSize
    omega
  · exact hgrant.streams u hu

/-! ## Settings -/

theorem value_lt_of_mem_settingsOf (n : Nat) : ∀ bs : Bytes, ∀ setting ∈ settingsOf n bs,
    setting.2 < 2 ^ 32 := by
  induction n with
  | zero => simp [settingsOf]
  | succ n ih =>
    intro bs
    rw [settingsOf, List.forall_mem_cons]
    have hlen : ((bs.drop 2).take 4).length ≤ 4 := by simp
    have hpow : 256 ^ ((bs.drop 2).take 4).length ≤ 256 ^ 4 := Nat.pow_le_pow_right (by decide) hlen
    exact ⟨(bigEndian_lt _).trans_le (hpow.trans (by decide)), ih _⟩

/-- The encoder follows the table sizes of a SETTINGS frame. -/
theorem inStepWith_of_settings {table : Hpack.Reference.Table}
    (settings : List (Nat × Nat)) : ∀ {p p₁ : ProtocolState} {limit : Nat},
      Hpack.InStepWith p.hpack limit table → (∀ setting ∈ settings, setting.2 < 2 ^ 32) →
      applyPeerSettings settings p = (p₁, none) →
      Hpack.InStepWith p₁.hpack (settingOf .headerTableSize settings limit) table := by
  induction settings with
  | nil =>
    intro p p₁ limit h _ happ
    cases happ
    exact h
  | cons setting settings ih =>
    intro p p₁ limit h hvalues happ
    obtain ⟨hvalue, hvalues⟩ := List.forall_mem_cons.1 hvalues
    simp only [applyPeerSettings] at happ
    split at happ
    · cases happ
    · rename_i q heq
      have hstep := settingStep_of_eq heq
      have hset : settingOf .headerTableSize (setting :: settings) limit =
          settingOf .headerTableSize settings
            (if Http2SettingParameter.ofNat setting.1 = .headerTableSize then setting.2
              else limit) := rfl
      rw [hset]
      refine ih ?_ hvalues happ
      generalize Http2SettingParameter.ofNat setting.1 = parameter at hstep
      cases hstep with
      | headerTableSize =>
        rw [if_pos rfl]
        exact h.setEncodeTableSize (by omega)
      | _ =>
        rw [if_neg (by simp)]
        exact h.congr rfl rfl rfl

/-- The last of several values is in force, or the old one if there is none. -/
theorem settingOf_cases (parameter : Http2SettingParameter) (settings : List (Nat × Nat)) :
    (∃ value, ∀ old, settingOf parameter settings old = value) ∨
      ∀ old, settingOf parameter settings old = old := by
  induction settings with
  | nil => exact Or.inr fun _ => rfl
  | cons setting settings ih =>
    have hset : ∀ old, settingOf parameter (setting :: settings) old =
        settingOf parameter settings
          (if Http2SettingParameter.ofNat setting.1 = parameter then setting.2 else old) :=
      fun _ => rfl
    rcases ih with ⟨value, hvalue⟩ | hsame
    · exact Or.inl ⟨value, fun old => by rw [hset, hvalue]⟩
    · by_cases hp : Http2SettingParameter.ofNat setting.1 = parameter
      · exact Or.inl ⟨setting.2, fun old => by rw [hset, hsame, if_pos hp]⟩
      · exact Or.inr fun old => by rw [hset, hsame, if_neg hp]

/-- The connection takes over settings that the server has announced. -/
theorem Live.announce (h : Live subs [] p v) {f : RawFrame} {p₁ : ProtocolState}
    (happ : applyPeerSettings f.settings p = (p₁, none)) :
    Live subs [f.settings] p₁ (v.announce f.settings) := by
  have hforce := inForce_of_settings _ happ
  have htuned := tuned_of_settings happ
  have hflat : [f.settings].flatten = f.settings := by simp
  have hwrap : ∀ n : Nat, wrapInt32 n ≤ n := fun n => wrapInt32_le (by simp [int32Min])
  refine ⟨⟨h.ready.1, h.ready.2, h.ready.3⟩, ?_, ?_, ?_, ?_, ?_, ?_, fun u hu => ?_,
    ⟨h.conveyed.sound, h.conveyed.complete⟩⟩
  · show v.announced ++ [f.settings] = [f.settings]
    rw [h.announced, List.nil_append]
  · rw [hflat, hforce.maxFrameSize, h.maxFrameSize]
    rfl
  · rw [hflat, hforce.initialWindowSize]
    have hinitial := h.initialWindowSize
    rcases settingOf_cases .initialWindowSize f.settings with ⟨value, hvalue⟩ | hsame
    · rw [hvalue, hvalue]
      exact hwrap value
    · rw [hsame, hsame]
      exact hinitial
  · have hconnection := h.connection
    have hout : p₁.connectionOutFlow = p.connectionOutFlow := by rw [htuned.eq]
    rw [hout]
    exact hconnection
  · rw [hflat]
    exact inStepWith_of_settings _ h.hpack (value_lt_of_mem_settingsOf _ _) happ
  · have hnext : p₁.nextStreamId = p.nextStreamId := by rw [htuned.eq]
    rw [hnext]
    exact h.lastStreamId
  · obtain ⟨s, hs, outflow, rfl, hle⟩ := hforce.window u hu
    obtain ⟨hmem, i, hi, harrived⟩ := h.streams s hs
    have hwindow := harrived.window
    refine ⟨hmem, i, hi, harrived.1, harrived.2, harrived.3, harrived.4, ?_⟩
    show outflow.window + s.requestBodyOffset ≤
      v.credit s.streamId + wrapInt32 p₁.initialWindowSize
    omega

/-- The server takes over the settings that the connection has acknowledged. -/
theorem Live.acknowledge {settings : List (Nat × Nat)} (h : Live subs [settings] p v) :
    Receives v (.settings settingsAck) (v.acknowledge settings []) ∧
      Live subs [] p (v.acknowledge settings []) := by
  have hflat : [settings].flatten = settings := by simp
  have hmax := h.maxFrameSize
  have hinitial := h.initialWindowSize
  have hhpack := h.hpack
  rw [hflat] at hmax hinitial hhpack
  exact ⟨.settingsAck h.ready rfl rfl rfl h.announced, ⟨h.ready.1, h.ready.2, h.ready.3⟩, rfl, hmax,
    hinitial, h.connection, hhpack, h.lastStreamId, h.streams,
    ⟨h.conveyed.sound, h.conveyed.complete⟩⟩

/-! ## Received frames -/

theorem tell_settings {f : RawFrame} (ht : f.header.type = .settings)
    (hack : f.header.hasAckFlag = false) : v.tell f = v.announce f.settings := by
  simp [Server.tell, ht, hack]

theorem tell_windowUpdate {f : RawFrame} (ht : f.header.type = .windowUpdate) :
    v.tell f = v.grant f.header.streamId f.windowIncrement := by
  simp [Server.tell, ht]

/-- Sending a frame changes neither the requests nor what the server expects. -/
theorem same_tell (v : Server) (f : RawFrame) : (v.tell f).requests = v.requests ∧
    (v.Ready → (v.tell f).Ready) := by
  unfold Server.tell
  split
  · split
    · exact ⟨rfl, id⟩
    · exact ⟨rfl, fun h => ⟨h.1, h.2, h.3⟩⟩
  · exact ⟨rfl, fun h => ⟨h.1, h.2, h.3⟩⟩
  · exact ⟨rfl, id⟩

theorem Conveyed.of_requests {v' : Server} (h : Conveyed subs v) (hv : v'.requests = v.requests) :
    Conveyed subs v' := by
  refine ⟨fun id i hi => h.sound id i (hv ▸ hi), fun x hx => ?_⟩
  obtain ⟨i, hi⟩ := h.complete x hx
  exact ⟨i, hv ▸ hi⟩

/-- The server accepts what a frame of it makes the connection send. -/
theorem Live.effect {f : RawFrame} {out : List OutboundBuffer} (h : Live subs [] p v)
    (hok : AllStreams Stream.StateOk p.streams) (heffect : FrameEffect p f p' out) :
    ∃ v', ReceivesAll Receives (v.tell f) out v' ∧ Conveyed subs v' ∧
      (p'.closed = true ∨ Live subs [] p' v') := by
  cases heffect with
  | replies hf hreplies hsame =>
    obtain ⟨v', hall, hv'⟩ := (h.tell hf).replies hreplies hsame
    exact ⟨v', hall, hv'.conveyed, Or.inr hv'⟩
  | closes hclosed hout =>
    obtain ⟨hrequests, hready⟩ := v.same_tell f
    have hconveyed : Conveyed subs (v.tell f) := h.conveyed.of_requests hrequests
    rcases hout with rfl | ⟨g, rfl, hid⟩
    · exact ⟨_, .nil _, hconveyed, Or.inl hclosed⟩
    · exact ⟨_, .single (.goAway (hready h.ready) hid), hconveyed.of_requests rfl, Or.inl hclosed⟩
  | @settings p₁ _ r ht hack happ hbodies =>
    rw [tell_settings ht hack]
    have hstart : Live subs [] { p with gotPeerSettings := true } v := h.sameSender
      ⟨rfl, rfl, rfl, rfl, rfl, rfl, rfl, allStreams_continues _⟩
    have hok₁ : AllStreams Stream.StateOk p₁.streams :=
      hok.sameButWindows (tuned_of_settings happ).streams fun _ _ hs => ⟨hs.1, hs.2, hs.3, hs.4⟩
    -- the bodies are sent under the new settings, and the acknowledgement follows them
    obtain ⟨v₁, hall, hv₁⟩ := (hstart.announce happ).bodySteps hbodies hok₁
    obtain ⟨hack', hv'⟩ := hv₁.acknowledge
    exact ⟨_, hall.append (.single hack'), hv'.conveyed, Or.inr hv'⟩
  | connectionWindow ht hid hadd hbodies =>
    rw [tell_windowUpdate ht, hid]
    obtain ⟨v', hall, hv'⟩ := (h.connectionGrant hadd).bodySteps hbodies hok
    exact ⟨v', hall, hv'.conveyed, Or.inr hv'⟩
  | @streamWindow s outflow _ r ht hid hfind hadd hbody =>
    have hkey : s.streamId = f.header.streamId := KeyedTable.key_of_find? hfind
    rw [tell_windowUpdate ht, ← hkey]
    rw [← hkey] at hfind
    have hs : (s.withOutflow outflow).StateOk := by
      have hs := hok.find hfind
      exact ⟨hs.1, hs.2, hs.3, hs.4⟩
    have hput : (p.putStream (s.withOutflow outflow)).streams.find? (s.withOutflow outflow).streamId =
        some (s.withOutflow outflow) :=
      KeyedTable.find?_set_self (KeyedTable.mem_keys_of_find? hfind)
    obtain ⟨v', hall, hv'⟩ := (h.streamGrant hfind hadd).bodyStep hput hs hbody
    exact ⟨v', hall, hv'.conveyed, Or.inr hv'⟩

/-! ## New requests -/

/-- CONTINUATION frames complete the open block. -/
theorem receivesAll_continuations {maxFrameSize : Nat} {id : StreamId} {fields : List HeaderField}
    {table : Hpack.Reference.Table} {frames : List ContinuationFrame} :
    ∀ {v : Server} {b : OpenBlock} {more : Bytes}, v.gone = false → v.block = some b →
      b.streamId = id → frames ≠ [] → Continuations maxFrameSize id more frames →
      (∀ n ≤ maxFrameSize, v.Fits n) → v.Decodes (b.bytes ++ more) fields table →
      ReceivesAll Receives v (frames.map .continuation)
        (v.accept b.streamId b.endStream fields table) := by
  induction frames with
  | nil => exact fun _ _ _ hne => absurd rfl hne
  | cons f frames ih =>
    intro v b more hgone hblock hid _ hframes hfits hdecodes
    have hf : f.header.streamId = b.streamId := (hframes.streamId f List.mem_cons_self).trans hid.symm
    have hsize := hfits _ (hframes.size f List.mem_cons_self).2
    have hlast := hframes.endHeaders [] f frames rfl
    have hmore := hframes.block
    rw [List.flatMap_cons] at hmore
    cases hrest : frames with
    | nil =>
      rw [hrest, List.flatMap_nil, List.append_nil] at hmore
      rw [← hmore] at hdecodes
      exact .single (.continuation hgone hblock hf hsize (hlast.2 hrest) hdecodes)
    | cons g others =>
      rw [← hrest]
      have hne : frames ≠ [] := by
        rw [hrest]
        exact List.cons_ne_nil _ _
      have hopen : f.header.hasEndHeadersFlag = false := by
        rw [← Bool.not_eq_true, hlast]
        exact hne
      have hcontinues : Continuations maxFrameSize id (frames.flatMap ContinuationFrame.data)
          frames := by
        refine ⟨fun k hk => hframes.streamId k (List.mem_cons_of_mem _ hk), rfl,
          fun k hk => hframes.size k (List.mem_cons_of_mem _ hk),
          fun k hk => hframes.payloadLength k (List.mem_cons_of_mem _ hk), fun a k c heq => ?_⟩
        exact hframes.endHeaders (f :: a) k c (by rw [heq]; rfl)
      have hdecodes' : v.Decodes ((b.bytes ++ f.data) ++ frames.flatMap ContinuationFrame.data)
          fields table := by
        rw [List.append_assoc, hmore]
        exact hdecodes
      have hall := ih (v := { v with block := some { b with bytes := b.bytes ++ f.data } })
        (b := { b with bytes := b.bytes ++ f.data }) hgone rfl hid hne hcontinues hfits hdecodes'
      exact .cons (.continuationOpen hgone hblock hf hsize hopen) hall

/-- HEADERS and CONTINUATION frames that carry a block open a request. -/
theorem receivesAll_block {maxFrameSize : Nat} {id : StreamId} {block : Bytes}
    {headers : HeadersFrame} {continuations : List ContinuationFrame} {fields : List HeaderField}
    {table : Hpack.Reference.Table} (hready : v.Ready) (hopens : v.Opens id)
    (hcarries : CarriesBlock maxFrameSize id block headers continuations)
    (hfits : ∀ n ≤ maxFrameSize, v.Fits n) (hdecodes : v.Decodes block fields table) :
    ReceivesAll Receives v (.headers headers :: continuations.map .continuation)
      (v.accept id headers.header.hasEndStreamFlag fields table) := by
  obtain ⟨more, hmore, hcontinues⟩ := hcarries.rest
  have hid := hcarries.streamId
  have hsize := hfits _ hcarries.size
  rw [← hid] at hopens ⊢
  cases hrest : continuations with
  | nil =>
    have hdata : headers.data = block := by
      have hnil := hcontinues.block
      rw [hrest, List.flatMap_nil] at hnil
      rw [← hmore, ← hnil, List.append_nil]
    rw [← hdata] at hdecodes
    exact .single (.headers hready hopens hsize (hcarries.endHeaders.2 hrest) hdecodes)
  | cons f frames =>
    rw [← hrest]
    have hne : continuations ≠ [] := by
      rw [hrest]
      exact List.cons_ne_nil _ _
    have hopen : headers.header.hasEndHeadersFlag = false := by
      rw [← Bool.not_eq_true, hcarries.endHeaders]
      exact hne
    rw [← hmore] at hdecodes
    have hall := receivesAll_continuations (v := { v with
        block := some ⟨headers.header.streamId, headers.header.hasEndStreamFlag, headers.data⟩ })
      hready.gone rfl hid hne hcontinues hfits hdecodes
    exact .cons (.headersOpen hready hopens hsize hopen) hall

/-- A request is written, and the server accepts it. -/
theorem Live.opening {request : Request} (h : Live subs [] p v) (rehash : Reorder Stream)
    (htidy : p.Tidy) (hmax : 0 < p.maxFrameSize)
    (hshort : (p.hpack.encode (buildRequestHeaderFields request)).1.length < 2 ^ 31) :
    ∃ v', ReceivesAll Receives v (p.requestHeaderFrames request) v' ∧
      Live (subs ++ [(p.nextStreamId, request)]) []
        ((p.opening request rehash).putStream (p.openedStream request)) v' := by
  obtain ⟨table, haccepts, hlimit, hstep⟩ := h.hpack.encode hshort
  obtain ⟨headers, continuations, hframes, hcarries, hwire, hrecord⟩ :=
    carriesBlock_emitRequestHeaders (p := p) (s := p.newStream request) hmax rfl
      (p.hpack.encode (buildRequestHeaderFields request)).1
  have hend : headers.header.hasEndStreamFlag = p.headersEndStream request := by
    rw [Bool.eq_iff_iff, hwire]
    exact hrecord.symm
  have hall := receivesAll_block h.ready ⟨htidy.next_odd, h.lastStreamId⟩ hcarries
    (fun n hn => h.fits hn) ⟨haccepts, hlimit⟩
  rw [hend] at hall
  refine ⟨v.accept p.nextStreamId (p.headersEndStream request) (buildRequestHeaderFields request)
    table, ?_, ⟨h.ready.1, rfl, h.ready.3⟩, h.announced, h.maxFrameSize, h.initialWindowSize,
    h.connection, hstep, ?_, fun u hu => ?_, ?_⟩
  · show ReceivesAll Receives v (p.emitRequestHeaders (p.newStream request)
      (p.hpack.encode (buildRequestHeaderFields request)).1).2 _
    rw [hframes]
    exact hall
  · show p.nextStreamId < p.nextStreamId + 2
    exact Nat.lt_add_of_pos_right (by decide)
  · rcases mem_opening hu with rfl | hu
    · have hwindow := openedStream_window p request
      refine ⟨List.mem_append_right _ List.mem_cons_self, _, Function.update_self _ _ _, rfl, rfl,
        rfl, rfl, ?_⟩
      show (p.openedStream request).outflow.window + ((0 : Nat) : Int) ≤
        v.credit p.nextStreamId + wrapInt32 p.initialWindowSize
      omega
    · obtain ⟨hmem, i, hi, harrived⟩ := h.streams u hu
      have hne : u.streamId ≠ p.nextStreamId := (htidy.lt_next _ (KeyedTable.key_mem_keys hu)).ne
      exact ⟨List.mem_append_left _ hmem, i, (Function.update_of_ne hne _ _).trans hi, harrived⟩
  · refine ⟨fun k i hk => ?_, fun x hx => ?_⟩
    · by_cases hid : k = p.nextStreamId
      · subst hid
        obtain rfl := Option.some.inj ((Function.update_self p.nextStreamId _ _).symm.trans hk)
        refine ⟨request, List.mem_append_right _ List.mem_cons_self, rfl, List.nil_prefix,
          fun he => (body_of_headersEndStream (p := p) he).symm⟩
      · obtain ⟨r, hmem, hr⟩ := h.conveyed.sound k i ((Function.update_of_ne hid _ _).symm.trans hk)
        exact ⟨r, List.mem_append_left _ hmem, hr⟩
    · by_cases hid : x.1 = p.nextStreamId
      · exact ⟨_, by rw [hid]; exact Function.update_self _ _ _⟩
      · rcases List.mem_append.1 hx with hx | hx
        · obtain ⟨i, hi⟩ := h.conveyed.complete x hx
          exact ⟨i, (Function.update_of_ne hid _ _).trans hi⟩
        · rw [List.mem_singleton.1 hx] at hid
          exact absurd rfl hid

/-- The server accepts what a local operation sends. -/
theorem Live.acts {a : Action} {r : ProtocolStepResult} (h : Live subs [] p v)
    (hstarted : p.started = true) (hstep : ActionStep p a p' r) (ha : ∀ f, a ≠ .receiveFrame f)
    (hnone : r.submittedStreamId = none) :
    ∃ v', ReceivesAll Receives v r.outbound v' ∧ Conveyed subs v' ∧
      (p'.closed = true ∨ Live subs [] p' v') := by
  have hsilent : p'.closed = true ∨ SameSender p p' → ∃ v', ReceivesAll Receives v [] v' ∧
      Conveyed subs v' ∧ (p'.closed = true ∨ Live subs [] p' v') := fun hp' =>
    ⟨v, .nil v, h.conveyed, hp'.imp_right h.sameSender⟩
  cases hstep with
  | started hnot =>
    rw [hstarted] at hnot
    cases hnot
  | opened => cases hnone
  | cancelled id code s hopen hfind =>
    have hid : s.streamId = id := KeyedTable.key_of_find? hfind
    have hgone := erased_removeStream p s
    rw [hid] at hgone
    obtain ⟨v', hall, hv'⟩ := h.replies
      (replies_streamFailure p code true (KeyedTable.mem_keys_of_find? hfind) hgone)
      (sameSender_removeStream p s)
    exact ⟨v', hall, hv'.conveyed, Or.inr hv'⟩
  | pinged frame hid =>
    have hsame : SameSender p { p with pingCounter := p.pingCounter + 1 } :=
      ⟨rfl, rfl, rfl, rfl, rfl, rfl, rfl, allStreams_continues _⟩
    exact ⟨v, .single (.ping h.ready hid), h.conveyed, Or.inr (h.sameSender hsame)⟩
  | closed =>
    rcases p.closeResult_outbound with hout | hout
    · rw [hout]
      exact ⟨v, .nil v, h.conveyed, Or.inl rfl⟩
    · rw [hout]
      exact ⟨_, .single (.goAway h.ready rfl), h.conveyed.of_requests rfl, Or.inl rfl⟩
  | transportLost => exact hsilent (Or.inl rfl)
  | transportLostAgain => exact hsilent (Or.inl rfl)
  | frameIgnored f => exact absurd rfl (ha f)
  | frame f => exact absurd rfl (ha f)
  | _ => exact hsilent (Or.inr (.refl p))

end Theory

end Server

end Chttp2
