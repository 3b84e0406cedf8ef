import Chttp2.Protocol.Sending

/-!
# Credit for received DATA

A DATA frame takes its payload length out of the window of the connection and gives it back, in a
WINDOW_UPDATE frame or in the credit that is held back. `FrameStep.credit` is the account of one
frame. A frame that fails its stream is not given back (`Forfeits`); a run without such frames has
given back or holds back all that it received, and no other run has (`credit_conserved_iff`).
-/

set_option autoImplicit false

namespace Chttp2

open ProtocolState

/-! ## What is received -/

/-- The payload length of the DATA frame that a step receives. -/
def receivedData (e : Entry) : Nat :=
  match e.input with
  | .receiveFrame f => if f.header.type = .data then f.header.payloadLength else 0
  | _ => 0

/-- The total payload length of the received DATA frames. -/
def received (tr : List Entry) : Nat := Machine.total receivedData tr

@[simp] theorem received_nil : received [] = 0 := rfl

@[simp] theorem received_snoc (tr : List Entry) (e : Entry) :
    received (tr ++ [e]) = received tr + receivedData e := by
  simp [received]

/-- A DATA frame with payload that fails the stream it arrives on. -/
def Forfeits (p : ProtocolState) (f : RawFrame) : Prop :=
  f.header.type = .data ∧ 0 < f.header.payloadLength ∧
    ∃ s, p.streams.find? f.header.streamId = some s ∧
      (s.Refuses ∨ s.finalResponseHeadersReceived = false ∨
        (f.dataFragment ≠ [] ∧ s.expectsNoBody = .ok true))

/-- The step receives a DATA frame that fails its stream. -/
def Entry.forfeits (e : Entry) : Prop := ∃ f, e.input = .receiveFrame f ∧ Forfeits e.pre f

theorem creditOn_refreshFrames (id k : StreamId) (n : Int) :
    creditOn id (refreshFrames k n) = if k = id then n.toNat else 0 := by
  unfold refreshFrames
  by_cases hn : n > 0
  · rw [if_pos hn]
    exact Nat.add_zero _
  · have h0 : n.toNat = 0 := Int.toNat_of_nonpos (not_lt.1 hn)
    rw [if_neg hn, h0, ite_self]
    rfl

/-! ## Results without WINDOW_UPDATE frames -/

namespace ProtocolState

variable {p p' : ProtocolState} {s : Stream} {r : ProtocolStepResult} {f : RawFrame}

theorem noCredit_bodyStep (h : BodyStep p s p' r) : NoCredit r.outbound := by
  obtain ⟨frames, hframes, -⟩ := h.outbound
  rw [hframes]
  exact noCredit_map_data frames

theorem noCredit_bodySteps {ids : List StreamId} (h : BodySteps ids p p' r) :
    NoCredit r.outbound := by
  obtain ⟨frames, hframes⟩ := h.outbound
  rw [hframes]
  exact noCredit_map_data frames

theorem noCredit_connectionFailed (q : ProtocolState) {pre : ProtocolStepResult} {code : ErrorCode}
    {text : Bytes} (hpre : pre = {} ∨ ∃ promised, pre =
      { events := [.pushPromiseReceived f.header.streamId promised] }) :
    NoCredit (pre.merge (q.connectionFailure code text)).outbound := by
  have hplain := (plain_connectionFailure q code text).noCredit
  rcases hpre with rfl | ⟨promised, rfl⟩ <;> exact hplain

/-- Only DATA frames are answered with WINDOW_UPDATE frames. -/
theorem FrameStep.noCredit (hstep : FrameStep p f p' r) (ht : f.header.type ≠ .data) :
    NoCredit r.outbound := by
  have hnil : NoCredit [] := Plain.nil.noCredit
  cases hstep with
  | reported h => exact h.plain.noCredit
  | connectionFailed hv hd hpre => exact noCredit_connectionFailed _ hpre
  | dataRefused s hdata => exact absurd hdata ht
  | dataOnRemoved hdata => exact absurd hdata ht
  | dataOnBodiless s hdata => exact absurd hdata ht
  | dataStored s hdata => exact absurd hdata ht
  | headersRefused => exact (plain_streamFailure _ _ _ _).noCredit
  | headersBlock s _ hfind hopen hend hblock => exact hblock.plain.noCredit
  | streamReset => exact hnil.append (plain_streamFailure _ _ _ _).noCredit
  | settingsApplied _ hack happ hbodies =>
    exact (noCredit_bodySteps hbodies).append (Plain.singleton rfl fun _ => rfl).noCredit
  | connectionWindow _ hid hadd hbodies => exact hnil.append (noCredit_bodySteps hbodies)
  | windowRefused => exact (plain_streamFailure _ _ _ _).noCredit
  | streamWindow s _ hid hfind hadd hbody => exact hnil.append (noCredit_bodyStep hbody)
  | continuationBlock s _ hexp hid hfind hend hblock => exact hblock.plain.noCredit
  | _ => exact hnil

/-- Only DATA frames change the window of the connection. -/
theorem FrameStep.connectionInflow_eq (hstep : FrameStep p f p' r) (ht : f.header.type ≠ .data) :
    p'.connectionInflow = p.connectionInflow := by
  cases hstep with
  | connectionFailed hv hd hpre => exact hd.connectionInflow
  | dataRefused s hdata => exact absurd hdata ht
  | dataOnRemoved hdata => exact absurd hdata ht
  | dataOnBodiless s hdata => exact absurd hdata ht
  | dataStored s hdata => exact absurd hdata ht
  | headersBlock s _ hfind hopen hend hblock =>
    exact (congrArg ProtocolState.connectionInflow hblock.eq_with :)
  | settingsApplied _ hack happ hbodies =>
    exact (congrArg ProtocolState.connectionInflow hbodies.eq_with :).trans
      (tuned_of_settings happ).disturbed.connectionInflow
  | connectionWindow _ hid hadd hbodies =>
    exact (congrArg ProtocolState.connectionInflow hbodies.eq_with :)
  | streamWindow s _ hid hfind hadd hbody =>
    exact (congrArg ProtocolState.connectionInflow hbody.eq_with :)
  | continuationBlock s _ hexp hid hfind hend hblock =>
    exact (congrArg ProtocolState.connectionInflow hblock.eq_with :)
  | _ => rfl

end ProtocolState

/-! ## The account of a step -/

/-- What `n` received bytes do to the window of the connection. They are announced or held back, but
for what is lost if the frame fails its stream; and the window shrinks by at most `n`, besides what
is announced. -/
structure CreditStep (f f' : InFlow) (out : List OutboundBuffer) (n : Nat) (lossy : Prop) :
    Prop where
  unsnt : ∃ lost : Nat, (lost = 0 ↔ ¬ lossy) ∧
    (creditOn 0 out : Int) + f'.unsnt + lost = f.unsnt + n
  avail : f.avail + creditOn 0 out - n ≤ f'.avail

namespace CreditStep

variable {f f' g : InFlow} {out : List OutboundBuffer} {n : Nat} {lossy : Prop}

theorem idle (hout : NoCredit out) (hlossy : ¬ lossy) : CreditStep f f out 0 lossy := by
  refine ⟨⟨0, by simp [hlossy], ?_⟩, ?_⟩
  · rw [hout.creditOn]
    simp
  · rw [hout.creditOn]
    simp

/-- The bytes are taken from the window or not, and not given back. -/
theorem forfeited (hout : NoCredit out) (hunsnt : f'.unsnt = f.unsnt)
    (havail : f.avail - n ≤ f'.avail) (hlossy : n = 0 ↔ ¬ lossy) : CreditStep f f' out n lossy := by
  refine ⟨⟨n, hlossy, ?_⟩, ?_⟩
  · rw [hout.creditOn, hunsnt]
    push_cast
    omega
  · rw [hout.creditOn]
    push_cast
    omega

/-- The bytes are taken from the window and given back. -/
theorem returned (hf : f.Ok) (hfit : n = 0 ∨ (n : Int) ≤ f.avail) (hlossy : ¬ lossy)
    (hg : g = { f with avail := f.avail - n })
    (hout : creditOn 0 out = (g.add n).1.toNat) : CreditStep f (g.add n).2 out n lossy := by
  subst hg
  obtain ⟨h1, h2, h3, -⟩ := InFlow.add_spec (f := { f with avail := f.avail - n }) (n := n)
    (by omega) hf.unsnt_nonneg (InFlow.add_of_take hf hfit)
  have hcredit : (creditOn 0 out : Int) =
      (({ f with avail := f.avail - n } : InFlow).add n).1 := by
    rw [hout, Int.toNat_of_nonneg h1]
  simp only at h2 h3
  refine ⟨⟨0, by simp [hlossy], ?_⟩, ?_⟩
  · rw [hcredit]
    push_cast
    omega
  · rw [hcredit, h3]
    omega

end CreditStep

namespace ProtocolState

variable {p p' : ProtocolState} {r : ProtocolStepResult} {f : RawFrame} {a : Action}

/-- Every frame that leaves the connection open keeps the account. -/
theorem FrameStep.credit (hstep : FrameStep p f p' r) (hp : p.Sound) (htidy : p.Tidy)
    (hopen : p'.closed = false) :
    CreditStep p.connectionInflow p'.connectionInflow r.outbound
      (receivedData ⟨p, .receiveFrame f, r⟩) (Forfeits p f) := by
  by_cases ht : f.header.type = .data
  · have hn : receivedData ⟨p, .receiveFrame f, r⟩ = f.header.payloadLength := if_pos ht
    rw [hn]
    -- a frame with an empty payload has nothing to forfeit
    have hempty : (∃ s, p.streams.find? f.header.streamId = some s ∧
        (s.Refuses ∨ s.finalResponseHeadersReceived = false ∨
          (f.dataFragment ≠ [] ∧ s.expectsNoBody = .ok true))) →
        (f.header.payloadLength = 0 ↔ ¬ Forfeits p f) := by
      intro hs
      constructor
      · rintro h0 ⟨-, hpos, -⟩
        rw [h0] at hpos
        exact lt_irrefl _ hpos
      · intro hnot
        exact Nat.eq_zero_of_not_pos fun hpos => hnot ⟨ht, hpos, hs⟩
    cases hstep with
    | reported h => cases h <;> simp_all
    | connectionFailed => cases hopen
    | dataRefused s _ hfind h =>
      refine .forfeited (plain_streamFailure _ _ _ _).noCredit rfl ?_ (hempty ⟨s, hfind, ?_⟩)
      · show p.connectionInflow.avail - _ ≤ p.connectionInflow.avail
        omega
      · rcases h with ⟨h, -⟩ | ⟨h, -⟩
        · exact Or.inl h
        · exact Or.inr (Or.inl h)
    | dataOnRemoved _ hnone hid htake =>
      obtain ⟨-, hle, rfl⟩ := InFlow.take_eq_some.1 htake
      refine .returned hp.connectionInflow (Or.inr hle) ?_ rfl ?_
      · rintro ⟨-, -, s, hfind, -⟩
        rw [hnone] at hfind
        cases hfind
      · rw [creditOn_refreshFrames, if_pos rfl]
    | dataOnBodiless s _ hfind hok hfinal htake hdata hno =>
      obtain ⟨-, rfl, -⟩ := InFlow.takeInflows_eq_some.1 htake
      exact .forfeited (plain_streamFailure _ _ _ _).noCredit rfl (le_refl _)
        (hempty ⟨s, hfind, Or.inr (Or.inr ⟨hdata, hno⟩)⟩)
    | dataStored s _ hfind hok hfinal htake hbody hend =>
      obtain ⟨hfit, rfl, rfl⟩ := InFlow.takeInflows_eq_some.1 htake
      rw [hend.eq_with]
      refine .returned hp.connectionInflow (by omega) ?_ rfl ?_
      · rintro ⟨-, -, u, hu, hbad⟩
        rw [hfind, Option.some.injEq] at hu
        subst hu
        rcases hbad with hbad | hbad | ⟨hdata, hno⟩
        · exact hok hbad
        · rw [hfinal] at hbad
          cases hbad
        · rcases hbody with hbody | hbody
          · exact hdata hbody
          · rw [hbody] at hno
            cases hno
      · -- the stream is not stream 0
        have hne : f.header.streamId ≠ 0 := by
          intro h0
          have hodd := htidy.odd _ (KeyedTable.mem_keys_of_find? hfind)
          rw [h0] at hodd
          cases hodd
        rw [ProtocolStepResult.outbound_merge, creditOn_append, creditOn_append,
          creditOn_refreshFrames, creditOn_refreshFrames, if_pos rfl, if_neg hne,
          (plain_ending hend).noCredit.creditOn]
        rfl
    | _ => simp_all
  · have hn : receivedData ⟨p, .receiveFrame f, r⟩ = 0 := if_neg ht
    rw [hn, hstep.connectionInflow_eq ht]
    exact .idle (hstep.noCredit ht) fun h => ht h.1

/-- Only received frames are answered with WINDOW_UPDATE frames. -/
theorem ActionStep.noCredit (hstep : ActionStep p a p' r) (ha : ∀ f, a ≠ .receiveFrame f) :
    NoCredit r.outbound := by
  cases hstep with
  | started =>
    exact ((Plain.singleton (b := .preface) rfl fun _ => rfl).append
      (Plain.singleton rfl fun _ => rfl)).noCredit
  | opened request rehash hcan hvalid hroom hpos hmax hbody =>
    exact (p.plain_requestHeaderFrames request).noCredit.append (noCredit_bodyStep hbody)
  | cancelled => exact (plain_streamFailure _ _ _ _).noCredit
  | pinged => exact (Plain.singleton rfl fun _ => rfl).noCredit
  | closed =>
    exact (plain_closeResult p).noCredit
  | frame f => exact absurd rfl (ha f)
  | _ => exact Plain.nil.noCredit

/-- Only received frames change the window of the connection. -/
theorem ActionStep.connectionInflow_eq (hstep : ActionStep p a p' r)
    (ha : ∀ f, a ≠ .receiveFrame f) : p'.connectionInflow = p.connectionInflow := by
  cases hstep with
  | opened request rehash hcan hvalid hroom hpos hmax hbody =>
    exact (congrArg ProtocolState.connectionInflow hbody.eq_with :)
  | frame f => exact absurd rfl (ha f)
  | _ => rfl

/-- Every step that leaves the connection open keeps the account. -/
theorem ActionStep.credit (hstep : ActionStep p a p' r) (hp : p.Sound) (htidy : p.Tidy)
    (hlost : p.transportClosed = true → p.closed = true) (hopen : p'.closed = false) :
    CreditStep p.connectionInflow p'.connectionInflow r.outbound (receivedData ⟨p, a, r⟩)
      (Entry.forfeits ⟨p, a, r⟩) := by
  have hother : (∀ f, a ≠ .receiveFrame f) →
      CreditStep p.connectionInflow p'.connectionInflow r.outbound 0
        (Entry.forfeits ⟨p, a, r⟩) := by
    intro ha
    rw [hstep.connectionInflow_eq ha]
    exact .idle (hstep.noCredit ha) fun ⟨f, hf, _⟩ => ha f hf
  cases a with
  | receiveFrame f =>
    cases hstep with
    | frameIgnored _ h =>
      rw [h.elim id hlost] at hopen
      cases hopen
    | frame _ hup hwas hframe =>
      have h := hframe.credit hp htidy hopen
      refine ⟨?_, h.avail⟩
      obtain ⟨lost, hiff, heq⟩ := h.unsnt
      refine ⟨lost, hiff.trans (not_congr ?_), heq⟩
      constructor
      · exact fun hf => ⟨f, rfl, hf⟩
      · rintro ⟨g, hg, hf⟩
        cases hg
        exact hf
  | _ => exact hother (by simp)

end ProtocolState

/-! ## Runs -/

section Runs

variable {config : ClientConfig} {tr : List Entry} {p : ProtocolState}

/-- While the connection is open, all received bytes have been announced or are held back, but for
those of the frames that failed their streams. -/
theorem credit_of_runs (h : Runs (ofConfig config) tr p) (hopen : p.closed = false) :
    ∃ lost : Nat, (lost = 0 ↔ ∀ e ∈ tr, ¬ e.forfeits) ∧
      (creditOn 0 (outboundOf tr) : Int) + p.connectionInflow.unsnt + lost = received tr := by
  refine runs_invariant_open (I := fun tr p => ∃ lost : Nat,
    (lost = 0 ↔ ∀ e ∈ tr, ¬ e.forfeits) ∧
      (creditOn 0 (outboundOf tr) : Int) + p.connectionInflow.unsnt + lost = received tr)
    ?_ ?_ h hopen
  · exact ⟨0, by simp, rfl⟩
  · rintro tr p a p' r hr - ⟨lost, hiff, heq⟩ hstep hopen
    obtain ⟨more, hmore, hstep'⟩ := (hstep.credit (sound_of_runs hr) (tidy_of_runs hr)
      (closed_of_lost_transport hr) hopen).unsnt
    refine ⟨lost + more, ?_, ?_⟩
    · rw [Nat.add_eq_zero_iff, hiff, hmore]
      simp [or_imp, forall_and]
    · simp only [outboundOf_append, outboundOf_cons, outboundOf_nil, List.append_nil,
        creditOn_append, received_snoc]
      push_cast
      omega

/-- While the connection is open, the received DATA equals the announced and the held back credit if
and only if no received DATA frame with payload has failed its stream. -/
theorem credit_conserved_iff (h : Runs (ofConfig config) tr p) (hopen : p.closed = false) :
    (received tr : Int) = creditOn 0 (outboundOf tr) + p.connectionInflow.unsnt ↔
      ∀ e ∈ tr, ¬ e.forfeits := by
  obtain ⟨lost, hiff, heq⟩ := credit_of_runs h hopen
  rw [← hiff]
  omega

end Runs

/-- Five bytes of a response are held back. -/
theorem credit_conserved_iff_of_response :
    ∃ tr p, Runs (ofConfig {}) tr p ∧ received tr = 5 ∧ p.connectionInflow.unsnt = 5 ∧
      ∀ e ∈ tr, ¬ e.forfeits := by
  have hrun : (Machine.run act (ofConfig {}) [.start, .receiveFrame emptySettingsFrame,
      .submitRequest getRequest (.id _), .receiveFrame (okResponseFrame 4),
      .receiveFrame dataOnFirstStream]).map
        (fun x => (x.1.closed, received x.2, creditOn 0 (outboundOf x.2),
          x.1.connectionInflow.unsnt)) = .ok (false, 5, 0, 5) := by decide +kernel
  obtain ⟨p, tr, hr, -, hresult⟩ := Machine.exists_runs_of_map hrun
  simp only [Prod.mk.injEq] at hresult
  obtain ⟨hopen, hreceived, hcredit, hunsnt⟩ := hresult
  refine ⟨tr, p, hr, hreceived, hunsnt, (credit_conserved_iff hr hopen).1 ?_⟩
  rw [hreceived, hcredit, hunsnt]
  rfl

/-- DATA before the response headers fails its stream, and its five bytes are lost. -/
theorem credit_lost_on_early_data :
    ∃ tr p, Runs (ofConfig {}) tr p ∧ p.closed = false ∧ received tr = 5 ∧
      creditOn 0 (outboundOf tr) = 0 ∧ p.connectionInflow.unsnt = 0 := by
  have hrun : (Machine.run act (ofConfig {}) [.start, .receiveFrame emptySettingsFrame,
      .submitRequest getRequest (.id _), .receiveFrame dataOnFirstStream]).map
        (fun x => (x.1.closed, received x.2, creditOn 0 (outboundOf x.2),
          x.1.connectionInflow.unsnt)) = .ok (false, 5, 0, 0) := by decide +kernel
  obtain ⟨p, tr, hr, -, hresult⟩ := Machine.exists_runs_of_map hrun
  simp only [Prod.mk.injEq] at hresult
  exact ⟨tr, p, hr, hresult⟩

end Chttp2
