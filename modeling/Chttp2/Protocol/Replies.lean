import Chttp2.Protocol.DeadStreams
import Chttp2.Protocol.Sending

/-!
# What a received frame makes the client send

`FrameEffect` sorts the cases of `FrameStep` by what leaves the connection: most frames are replied
to with PING, WINDOW_UPDATE and RST_STREAM frames only and leave everything that sending reads as it
was (`SameSender`), some close the connection, and SETTINGS and WINDOW_UPDATE frames drive request
bodies.
-/

set_option autoImplicit false

namespace Chttp2

namespace ProtocolState

variable {p p' : ProtocolState} {s : Stream} {f : RawFrame} {r : ProtocolStepResult}
  {out rest : List OutboundBuffer}

/-! ## The sending side -/

/-- All that the sending of requests reads is as it was. -/
structure SameSender (p p' : ProtocolState) : Prop where
  nextStreamId : p'.nextStreamId = p.nextStreamId
  maxFrameSize : p'.maxFrameSize = p.maxFrameSize
  initialWindowSize : p'.initialWindowSize = p.initialWindowSize
  connectionOutFlow : p'.connectionOutFlow = p.connectionOutFlow
  encodeTable : p'.hpack.encodeTable = p.hpack.encodeTable
  encodeTableDirty : p'.hpack.encodeTableDirty = p.hpack.encodeTableDirty
  encodeMinSize : p'.hpack.encodeMinSize = p.hpack.encodeMinSize
  streams : AllStreams (Continues p.streams) p'.streams

theorem SameSender.refl (p : ProtocolState) : SameSender p p :=
  ⟨rfl, rfl, rfl, rfl, rfl, rfl, rfl, allStreams_continues _⟩

theorem sameSender_removeStream (p : ProtocolState) (s : Stream) :
    SameSender p (p.removeStream s) :=
  ⟨rfl, rfl, rfl, rfl, rfl, rfl, rfl, (allStreams_continues _).erase _⟩

/-- The end of a frame for a stream whose record continues one of the table. -/
theorem sameSender_ending {b : Bool} (h : Ending p s b p' r) (hs : Continues p.streams s) :
    SameSender p p' := by
  have hstreams := AllStreams.ending h (allStreams_continues p.streams) hs
    ((keptByReceiving_continues p.streams).answered s hs)
  rw [h.eq_with] at hstreams ⊢
  exact ⟨rfl, rfl, rfl, rfl, rfl, rfl, rfl, hstreams⟩

theorem BlockStep.sameSender {b : Bool} (h : BlockStep p s b p' r) (hs : Continues p.streams s) :
    SameSender p p' := by
  have hstreams := AllStreams.blockStep (keptByReceiving_continues p.streams).toKeptByHeaders h
    (allStreams_continues p.streams) hs
  rw [h.eq_with] at hstreams ⊢
  exact ⟨rfl, rfl, rfl, rfl, rfl, rfl, rfl, hstreams⟩

/-! ## Replies -/

/-- PING frames, and WINDOW_UPDATE frames on the connection or on live streams; last, RST_STREAM on a
stream that is removed. -/
inductive Replies (p p' : ProtocolState) : List OutboundBuffer → Prop
  | nil : Replies p p' []
  | reset (g : RstStreamFrame) (hlive : g.header.streamId ∈ p.streams.keys)
      (hgone : g.header.streamId ∉ p'.streams.keys) : Replies p p' [.rstStream g]
  | ping {rest : List OutboundBuffer} (g : PingFrame) (hid : g.header.streamId = 0)
      (h : Replies p p' rest) : Replies p p' (.ping g :: rest)
  | windowUpdate {rest : List OutboundBuffer} (g : WindowUpdateFrame)
      (hpos : 0 < g.windowSizeIncrement)
      (hid : g.header.streamId = 0 ∨ g.header.streamId ∈ p.streams.keys)
      (h : Replies p p' rest) : Replies p p' (.windowUpdate g :: rest)

/-- A stream that fails is removed. -/
theorem replies_streamFailure (q : ProtocolState) {id : StreamId} (code : ErrorCode) (rst : Bool)
    (hlive : id ∈ p.streams.keys) (hgone : id ∉ p'.streams.keys) :
    Replies p p' (q.streamFailure id code rst).outbound := by
  rcases q.streamFailure_outbound id code rst with h | h
  · rw [h]
    exact .nil
  · rw [h]
    exact .reset _ hlive hgone

/-- The announced credit comes first. -/
theorem Replies.refreshFrames {id : StreamId} (hid : id = 0 ∨ id ∈ p.streams.keys) (n : Int)
    (h : Replies p p' rest) : Replies p p' (refreshFrames id n ++ rest) := by
  unfold ProtocolState.refreshFrames
  by_cases hpos : n > 0
  · rw [if_pos hpos]
    refine .windowUpdate _ ?_ hid h
    show 0 < n.toNat
    omega
  · rw [if_neg hpos]
    exact h

theorem erased_removeStream (p : ProtocolState) (s : Stream) :
    s.streamId ∉ (p.removeStream s).streams.keys :=
  KeyedTable.find?_eq_none_iff.1 (KeyedTable.find?_erase_self _ _)

theorem replies_ending {q : ProtocolState} {b : Bool} (h : Ending q s b p' r)
    (hlive : s.streamId ∈ p.streams.keys) : Replies p p' r.outbound := by
  cases h with
  | mismatch => exact replies_streamFailure q _ _ hlive (erased_removeStream q s)
  | _ => exact .nil

theorem BlockStep.replies {b : Bool} (h : BlockStep p s b p' r)
    {q : ProtocolState} (hlive : s.streamId ∈ q.streams.keys) : Replies q p' r.outbound := by
  cases h with
  | tooLarge => exact replies_streamFailure p _ _ hlive (erased_removeStream _ s)
  | rejected => exact replies_streamFailure p _ _ hlive (erased_removeStream _ s.clearBlock)
  | informational => exact .nil
  | headers headers cl hd hsize hv hfinal hend =>
    have hreplies := replies_ending (p := q) hend hlive
    exact hreplies
  | trailers headers cl hd hsize hv hfinal hconnect hend =>
    have hreplies := replies_ending (p := q) hend hlive
    exact hreplies

/-! ## The effect of a frame -/

/-- What a received frame does to the sending side, with the buffers that it makes the client send. -/
inductive FrameEffect (p : ProtocolState) (f : RawFrame) :
    ProtocolState → List OutboundBuffer → Prop
  | replies {p' : ProtocolState} {out : List OutboundBuffer}
      (hf : f.header.type = .settings → f.header.hasAckFlag = true) (h : Replies p p' out)
      (hsame : SameSender p p') : FrameEffect p f p' out
  | closes {p' : ProtocolState} {out : List OutboundBuffer} (hclosed : p'.closed = true)
      (h : out = [] ∨ ∃ g : GoAwayFrame, out = [.goAway g] ∧ g.header.streamId = 0) :
      FrameEffect p f p' out
  | settings {p₁ p' : ProtocolState} {r : ProtocolStepResult} (ht : f.header.type = .settings)
      (hack : f.header.hasAckFlag = false)
      (h : applyPeerSettings f.settings { p with gotPeerSettings := true } = (p₁, none))
      (hbodies : BodySteps p₁.streams.keys p₁ p' r) :
      FrameEffect p f p' (r.outbound ++ [.settings settingsAck])
  | connectionWindow {outflow : OutFlow} {p' : ProtocolState} {r : ProtocolStepResult}
      (ht : f.header.type = .windowUpdate) (hid : f.header.streamId = 0)
      (hadd : p.connectionOutFlow.add f.windowIncrement = some outflow)
      (hbodies : BodySteps p.streams.keys { p with connectionOutFlow := outflow } p' r) :
      FrameEffect p f p' r.outbound
  | streamWindow (s : Stream) {outflow : OutFlow} {p' : ProtocolState} {r : ProtocolStepResult}
      (ht : f.header.type = .windowUpdate) (hid : f.header.streamId ≠ 0)
      (hfind : p.streams.find? f.header.streamId = some s)
      (hadd : s.outflow.add f.windowIncrement = some outflow)
      (hbody : BodyStep (p.putStream (s.withOutflow outflow)) (s.withOutflow outflow) p' r) :
      FrameEffect p f p' r.outbound

/-- Every received frame but a PRIORITY frame of the wrong size has one of these effects. -/
theorem FrameStep.effect (hstep : FrameStep p f p' r)
    (hpriority : f.header.type = .priority → f.header.payloadLength = 5) :
    FrameEffect p f p' r.outbound := by
  have hself := allStreams_continues p.streams
  have hR := keptByReceiving_continues p.streams
  have hnot : ∀ {t : FrameType}, f.header.type = t → t ≠ .settings →
      f.header.type = .settings → f.header.hasAckFlag = true :=
    fun ht hne hs => absurd (ht.symm.trans hs) hne
  -- a stream of the table that fails
  have hfailed : ∀ {s : Stream} {t : FrameType} (q : ProtocolState) (code : ErrorCode) (rst : Bool),
      p.streams.find? f.header.streamId = some s → f.header.type = t → t ≠ .settings →
      p'.streams = p.streams.erase s.streamId → SameSender p p' →
      FrameEffect p f p' (q.streamFailure f.header.streamId code rst).outbound := by
    intro s t q code rst hfind ht hne hstreams hsame
    have hid : s.streamId = f.header.streamId := KeyedTable.key_of_find? hfind
    refine .replies (hnot ht hne)
      (replies_streamFailure q code rst (KeyedTable.mem_keys_of_find? hfind) ?_) hsame
    rw [hstreams, ← hid]
    exact erased_removeStream p s
  cases hstep with
  | reported h =>
    cases h with
    | priorityLength ht hlen => exact absurd (hpriority ht) hlen
    | ping ht hack frame hid => exact .replies (hnot ht (by decide)) (.ping frame hid .nil) (.refl p)
    | settingsAck ht hack => exact .replies (fun _ => hack) .nil (.refl p)
    | priority ht | lateReset ht | pushPromise ht | pingAck ht | lateZeroWindow ht | lateWindow ht =>
      exact .replies (hnot ht (by decide)) .nil (.refl p)
    | unknown ht => exact .replies (hnot ht (by simp)) .nil (.refl p)
  | @connectionFailed p₁ pre code text ghost hv hd hpre =>
    refine .closes rfl ?_
    have hout : (pre.merge (p₁.connectionFailure code text)).outbound =
        (p₁.connectionFailure code text).outbound := by
      rcases hpre with rfl | ⟨promised, rfl⟩ <;> rfl
    rw [hout]
    exact (p₁.connectionFailure_outbound code text).imp_right fun h => ⟨_, h, rfl⟩
  | dataRefused s ht hfind =>
    exact hfailed p _ _ hfind ht (by decide) rfl (sameSender_removeStream p s)
  | @dataOnRemoved inflow ht hnone hid htake =>
    refine .replies (hnot ht (by decide)) ?_ ⟨rfl, rfl, rfl, rfl, rfl, rfl, rfl, hself⟩
    rw [← List.append_nil (ProtocolStepResult.outbound _)]
    exact .refreshFrames (Or.inl rfl) _ .nil
  | dataOnBodiless s ht hfind =>
    exact hfailed p _ _ hfind ht (by decide) rfl
      ⟨rfl, rfl, rfl, rfl, rfl, rfl, rfl, hself.erase _⟩
  | @dataStored s conn inflow _ r' ht hfind hopen hfinal htake hbody hend =>
    have hs := hR.withData s _ _ _ _ f.dataFragment (hself.find hfind) hopen htake
    have hsame := sameSender_ending hend hs
    have hlive : f.header.streamId ∈ p.streams.keys := KeyedTable.mem_keys_of_find? hfind
    refine .replies (hnot ht (by decide)) ?_
      ⟨hsame.1, hsame.2, hsame.3, hsame.4, hsame.5, hsame.6, hsame.7, hsame.8⟩
    show Replies p p' ((ProtocolState.refreshFrames 0 _ ++ ProtocolState.refreshFrames _ _) ++
      r'.outbound)
    rw [List.append_assoc]
    have hkey : s.streamId ∈ p.streams.keys := mem_keys_of_find? hfind
    exact .refreshFrames (Or.inl rfl) _ (.refreshFrames (Or.inr hlive) _
      (replies_ending hend hkey))
  | headersRefused s ht hfind =>
    exact hfailed p _ _ hfind ht (by decide) rfl (sameSender_removeStream p s)
  | ghostHeaders ht | ghostHeadersOpen ht | ghostContinuationOpen ht | ghostContinuation ht =>
    exact .replies (hnot ht (by decide)) .nil ⟨rfl, rfl, rfl, rfl, rfl, rfl, rfl, hself⟩
  | headersOpen s ht hfind hopen =>
    exact .replies (hnot ht (by decide)) .nil ⟨rfl, rfl, rfl, rfl, rfl, rfl, rfl,
      hself.set (hR.openBlock s _ _ (hself.find hfind) hopen)⟩
  | headersBlock s ht hfind hopen hend h =>
    have hkey : s.streamId ∈ p.streams.keys := mem_keys_of_find? hfind
    exact .replies (hnot ht (by decide)) (h.replies hkey)
      (h.sameSender (hR.withFragment s _ (hself.find hfind)))
  | streamReset s code ht hfind =>
    have heffect := hfailed p code false hfind ht (by decide) rfl (sameSender_removeStream p s)
    exact heffect
  | settingsApplied ht hack h hbodies => exact .settings ht hack h hbodies
  | goAway ht =>
    exact .replies (hnot ht (by decide)) .nil
      ⟨rfl, rfl, rfl, rfl, rfl, rfl, rfl, hself.eraseAll _⟩
  | connectionWindow ht hid hadd hbodies =>
    have heffect := FrameEffect.connectionWindow ht hid hadd hbodies
    exact heffect
  | windowRefused s ht hid hfind =>
    exact hfailed p _ _ hfind ht (by decide) rfl (sameSender_removeStream p s)
  | streamWindow s ht hid hfind hadd hbody =>
    have heffect := FrameEffect.streamWindow s ht hid hfind hadd hbody
    exact heffect
  | continuationOpen s ht hexp hid hfind =>
    exact .replies (hnot ht (by decide)) .nil ⟨rfl, rfl, rfl, rfl, rfl, rfl, rfl,
      hself.set (hR.withFragment s _ (hself.find hfind))⟩
  | continuationBlock s ht hexp hid hfind hend h =>
    have hs : Continues p.streams (s.endBlock f.data) := hR.endBlock s _ (hself.find hfind)
    have hsame := h.sameSender hs
    have hkey : s.streamId ∈ p.streams.keys := mem_keys_of_find? hfind
    exact .replies (hnot ht (by decide)) (h.replies hkey)
      ⟨hsame.1, hsame.2, hsame.3, hsame.4, hsame.5, hsame.6, hsame.7, hsame.8⟩

end ProtocolState

end Chttp2
