import Chttp2.Protocol.ActionStep

/-!
# Properties of all streams

`AllStreams P` says that every stream of a table has the property `P`. `KeptByReceiving` and
`KeptByEmission` list what the protocol does to the record of a stream; a property with both is
kept by every step (`ActionStep.allStreams`).
-/

set_option autoImplicit false

namespace Chttp2

open ProtocolState

/-- Every stream of the table has the property. -/
def AllStreams (P : Stream → Prop) (t : StreamTable) : Prop := ∀ s ∈ t.entries, P s

/-- A property that sending a body keeps. -/
structure KeptByEmission (P : Stream → Prop) : Prop where
  partly : ∀ s n, P s → s.localEndStreamSent = false → n ≤ s.remainingBodySize →
    (s.advanceBody n).localEndStreamSent = false → P (s.advanceBody n)
  wholly : ∀ s n, P s → s.localEndStreamSent = false → n ≤ s.remainingBodySize →
    (s.advanceBody n).localEndStreamSent = true → s.remoteEndStreamReceived = false →
    P { s.advanceBody n with streamState := .halfClosedLocal }

/-- A property that receiving a frame other than DATA keeps. -/
structure KeptByHeaders (P : Stream → Prop) : Prop where
  answered : ∀ s, P s → s.localEndStreamSent = false → P s.answered
  openBlock : ∀ s fragment endStream, P s → ¬ s.Refuses → P (s.openBlock fragment endStream)
  withFragment : ∀ s fragment, P s → P (s.withFragment fragment)
  endBlock : ∀ s fragment, P s → P (s.endBlock fragment)
  withInformational : ∀ s cl, P s → P (s.withInformational cl)
  withHeaders : ∀ s cl headers, P s → s.finalResponseHeadersReceived = false →
    StatusFields headers → P (s.withHeaders cl headers)
  withTrailers : ∀ s cl headers, P s → s.finalResponseHeadersReceived = true →
    P (s.withTrailers cl headers)

/-- A property that receiving a frame keeps. -/
structure KeptByReceiving (P : Stream → Prop) : Prop extends KeptByHeaders P where
  withData : ∀ s conn conn' inflow n data, P s → ¬ s.Refuses →
    InFlow.takeInflows conn s.inflow n = some (conn', inflow) →
    P (s.withData (inflow.add n).2 data)

namespace AllStreams

variable {P : Stream → Prop} {t : StreamTable} {p p' : ProtocolState} {s : Stream}
  {r : ProtocolStepResult}

theorem empty : AllStreams P .empty := by
  intro s hs
  cases hs

theorem find (h : AllStreams P t) {id : StreamId} (hfind : t.find? id = some s) : P s :=
  h s (KeyedTable.mem_of_find? hfind)

theorem set (h : AllStreams P t) (hs : P s) : AllStreams P (t.set s) := by
  intro u hu
  rcases KeyedTable.mem_set.1 hu with ⟨rfl, -⟩ | ⟨hu, -⟩
  · exact hs
  · exact h u hu

theorem erase (h : AllStreams P t) (id : StreamId) : AllStreams P (t.erase id) :=
  fun u hu => h u (KeyedTable.mem_erase.1 hu).1

theorem eraseAll (h : AllStreams P t) (ids : List StreamId) : AllStreams P (t.eraseAll ids) :=
  fun u hu => h u (KeyedTable.mem_eraseAll.1 hu).1

/-- A property that does not speak about send windows survives their adjustment. -/
theorem sameButWindows {t' : StreamTable} (h : AllStreams P t) (hs : SameButWindows t t')
    (hP : ∀ s outflow, P s → P (s.withOutflow outflow)) : AllStreams P t' := by
  intro u hu
  rw [KeyedTable.mem_iff_find?] at hu
  obtain ⟨outflow, heq⟩ := hs.2 u.streamId
  rw [heq, Option.map_eq_some_iff] at hu
  obtain ⟨s, hfind, rfl⟩ := hu
  exact hP s outflow (h.find hfind)

theorem bodyStep (hP : KeptByEmission P) (hstep : BodyStep p s p' r) (h : AllStreams P p.streams)
    (hs : P s) : AllStreams P p'.streams := by
  cases hstep with
  | idle => exact h
  | partly n frames hopen hsent hend => exact h.set (hP.partly s n hs hopen hsent.le hend)
  | wholly n frames hopen hsent hend hremote =>
    exact h.set (hP.wholly s n hs hopen hsent.le hend hremote)
  | finished => exact h.erase _

theorem bodySteps {ids : List StreamId} (hP : KeptByEmission P) (hsteps : BodySteps ids p p' r)
    (h : AllStreams P p.streams) : AllStreams P p'.streams :=
  hsteps.invariant (I := fun p => AllStreams P p.streams)
    (fun hfind hstep hp => bodyStep hP hstep hp (hp.find hfind)) h

theorem ending {b : Bool} (hend : Ending p s b p' r) (h : AllStreams P p.streams) (hs : P s)
    (hanswered : s.localEndStreamSent = false → P s.answered) : AllStreams P p'.streams := by
  cases hend with
  | goesOn => exact h.set hs
  | mismatch => exact h.erase _
  | finished => exact h.erase _
  | answered _ hlocal => exact h.set (hanswered hlocal)

theorem blockStep {b : Bool} (hP : KeptByHeaders P) (hstep : BlockStep p s b p' r)
    (h : AllStreams P p.streams) (hs : P s) : AllStreams P p'.streams := by
  cases hstep with
  | tooLarge => exact h.erase _
  | rejected => exact h.erase _
  | informational headers cl => exact h.set (hP.withInformational s cl hs)
  | headers headers cl hd hsize hv hfinal hend =>
    have hs' := hP.withHeaders s cl headers hs hfinal (validate_accepted hv)
    exact ending hend h hs' (hP.answered _ hs')
  | trailers headers cl hd hsize hv hfinal hconnect hend =>
    have hs' := hP.withTrailers s cl headers hs hfinal
    exact ending hend h hs' (hP.answered _ hs')

/-- A received frame keeps a property of all streams that its own body bytes, if it is a DATA
frame, keep. -/
theorem frameStep_of_data {f : RawFrame} (hE : KeptByEmission P) (hR : KeptByHeaders P)
    (hW : ∀ s outflow, P s → P (s.withOutflow outflow))
    (hdata : f.header.type = .data → ∀ s conn inflow, P s → ¬ s.Refuses →
      InFlow.takeInflows p.connectionInflow s.inflow f.header.payloadLength =
        some (conn, inflow) →
      P (s.withData (inflow.add f.header.payloadLength).2 f.dataFragment))
    (hstep : FrameStep p f p' r) (h : AllStreams P p.streams) : AllStreams P p'.streams := by
  cases hstep with
  | reported => exact h
  | connectionFailed => exact .empty
  | dataRefused => exact h.erase _
  | dataOnRemoved => exact h
  | dataOnBodiless => exact h.erase _
  | dataStored s ht hfind hopen hfinal htake hbody hend =>
    have hs := hdata ht s _ _ (h.find hfind) hopen htake
    exact ending hend h hs (hR.answered _ hs)
  | headersRefused => exact h.erase _
  | ghostHeaders => exact h
  | ghostHeadersOpen => exact h
  | headersOpen s ht hfind hopen => exact h.set (hR.openBlock s _ _ (h.find hfind) hopen)
  | headersBlock s ht hfind hopen hend hblock =>
    exact blockStep hR hblock h (hR.withFragment s _ (h.find hfind))
  | streamReset => exact h.erase _
  | settingsApplied ht hack happ hbodies =>
    exact bodySteps hE hbodies (h.sameButWindows (tuned_of_settings happ).streams hW)
  | goAway => exact h.eraseAll _
  | connectionWindow ht hid hadd hbodies => exact bodySteps hE hbodies h
  | windowRefused => exact h.erase _
  | @streamWindow s outflow _ _ ht hid hfind hadd hbody =>
    have hs := hW s outflow (h.find hfind)
    exact bodyStep hE hbody (h.set hs) hs
  | ghostContinuationOpen => exact h
  | ghostContinuation => exact h
  | continuationOpen s ht hexp hid hfind => exact h.set (hR.withFragment s _ (h.find hfind))
  | continuationBlock s ht hexp hid hfind hend hblock =>
    exact blockStep hR hblock h (hR.endBlock s _ (h.find hfind))

/-- A received frame without header or body bytes keeps a property of all streams that sending
keeps. -/
theorem frameStep_other {f : RawFrame} (hE : KeptByEmission P)
    (hW : ∀ s outflow, P s → P (s.withOutflow outflow)) (hdata : f.header.type ≠ .data)
    (hheaders : f.header.type ≠ .headers) (hcontinuation : f.header.type ≠ .continuation)
    (hstep : FrameStep p f p' r) (h : AllStreams P p.streams) : AllStreams P p'.streams := by
  cases hstep with
  | reported => exact h
  | connectionFailed => exact .empty
  | streamReset => exact h.erase _
  | settingsApplied ht hack happ hbodies =>
    exact bodySteps hE hbodies (h.sameButWindows (tuned_of_settings happ).streams hW)
  | goAway => exact h.eraseAll _
  | connectionWindow ht hid hadd hbodies => exact bodySteps hE hbodies h
  | windowRefused => exact h.erase _
  | @streamWindow s outflow _ _ ht hid hfind hadd hbody =>
    have hs := hW s outflow (h.find hfind)
    exact bodyStep hE hbody (h.set hs) hs
  | _ => contradiction

/-- Every received frame keeps a property of all streams. -/
theorem frameStep {f : RawFrame} (hE : KeptByEmission P) (hR : KeptByReceiving P)
    (hW : ∀ s outflow, P s → P (s.withOutflow outflow)) (hstep : FrameStep p f p' r)
    (h : AllStreams P p.streams) : AllStreams P p'.streams :=
  frameStep_of_data hE hR.toKeptByHeaders hW
    (fun _ s _ _ hs hopen htake => hR.withData s _ _ _ _ _ hs hopen htake) hstep h

/-- Every step keeps a property of all streams that opened streams have. -/
theorem actionStep {a : Action} (hE : KeptByEmission P) (hR : KeptByReceiving P)
    (hW : ∀ s outflow, P s → P (s.withOutflow outflow))
    (hnew : ∀ request, P (p.openedStream request)) (hstep : ActionStep p a p' r)
    (h : AllStreams P p.streams) : AllStreams P p'.streams := by
  cases hstep with
  | startedAgain => exact h
  | started => exact h
  | refused => exact h
  | opened request rehash hcan hvalid hroom hpos hmax hbody =>
    refine bodyStep hE hbody (fun s hmem => ?_) (hnew request)
    rcases mem_opening hmem with rfl | hmem
    · exact hnew request
    · exact h s hmem
  | cancelIgnored => exact h
  | cancelled => exact h.erase _
  | pingIgnored => exact h
  | pinged => exact h
  | closedAgain => exact h
  | closed => exact .empty
  | transportLost => exact .empty
  | transportLostAgain => exact h
  | frameIgnored => exact h
  | frame f hopen hup hframe => exact frameStep hE hR hW hframe h

end AllStreams

end Chttp2
