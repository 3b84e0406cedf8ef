import Chttp2.Protocol.SettingsLoop
import Chttp2.Protocol.Verdicts

/-!
# Limits of the peer

Three settings bound what the client sends: MAX_CONCURRENT_STREAMS, MAX_FRAME_SIZE and
MAX_HEADER_LIST_SIZE (`isLimit`). Two SETTINGS frames that differ in these only lead to twins, hence
to the same verdicts on whatever follows, as long as the limits on header lists judge alike every
size that is checked (`peer_settings_neutral_iff`).

The member `maxHeaderListSize` begins as the limit that the client announces, and a received
MAX_HEADER_LIST_SIZE takes its place (`limitsInForce_of_runs`), as `localMaxFrameSize` does not.
-/

set_option autoImplicit false

namespace Chttp2

namespace ProtocolState

/-! ## SETTINGS frames that differ in limits -/

/-- The setting bounds what the client sends. -/
def isLimit (setting : Nat × Nat) : Bool :=
  match Http2SettingParameter.ofNat setting.1 with
  | .maxConcurrentStreams | .maxFrameSize | .maxHeaderListSize => true
  | _ => false

/-- The settings that bound nothing of that kind. -/
def otherSettings (settings : List (Nat × Nat)) : List (Nat × Nat) :=
  settings.filter fun setting => !isLimit setting

/-- A SETTINGS frame that a server may send to the client. -/
structure LegalSettings (p : ProtocolState) (f : RawFrame) : Prop where
  type : f.header.type = .settings
  carries : CarriesSettings f
  payloadLength : f.header.payloadLength ≤ p.localMaxFrameSize
  legal : ∀ setting ∈ f.settings, LegalSetting setting

/-- The frames differ in limits only. -/
def SameButLimits (f g : RawFrame) : Prop := otherSettings f.settings = otherSettings g.settings

instance (f g : RawFrame) : Decidable (SameButLimits f g) :=
  inferInstanceAs (Decidable (otherSettings f.settings = otherSettings g.settings))

section Limits

variable {p q : ProtocolState} {f g : RawFrame}

/-- A limit is accepted, and leads to a twin. -/
theorem twin_applyLimit (h : Twin False p q) {setting : Nat × Nat} (hlimit : isLimit setting = true)
    (hlegal : LegalSetting setting) :
    ∃ p₁, p.applyPeerSetting (Http2SettingParameter.ofNat setting.1) setting.2 = (p₁, none) ∧
      Twin False p₁ q := by
  obtain ⟨x, rfl, hx⟩ := h
  unfold isLimit at hlimit
  unfold LegalSetting at hlegal
  cases hparameter : Http2SettingParameter.ofNat setting.1 with
  | maxConcurrentStreams => exact ⟨_, rfl, x, rfl, hx.pos, hx.pos', False.elim⟩
  | maxHeaderListSize => exact ⟨_, rfl, x, rfl, hx.pos, hx.pos', False.elim⟩
  | maxFrameSize =>
    rw [hparameter] at hlegal
    obtain ⟨hmin, hmax⟩ := hlegal
    refine ⟨_, if_neg (not_or.2 ⟨not_lt.2 hmin, not_lt.2 hmax⟩), x, rfl, ?_, hx.pos', False.elim⟩
    exact lt_of_lt_of_le (by decide) hmin
  | headerTableSize => simp [hparameter] at hlimit
  | enablePush => simp [hparameter] at hlimit
  | initialWindowSize => simp [hparameter] at hlimit
  | other _ => simp [hparameter] at hlimit

/-- Leaving the limits out leads to a twin. -/
theorem twin_otherSettings (settings : List (Nat × Nat)) :
    ∀ {p q : ProtocolState}, (∀ setting ∈ settings, LegalSetting setting) → Twin False p q →
      Twin False (applyPeerSettings settings p).1
          (applyPeerSettings (otherSettings settings) q).1 ∧
        (applyPeerSettings (otherSettings settings) q).2 = (applyPeerSettings settings p).2 := by
  induction settings with
  | nil => exact fun _ h => ⟨h, rfl⟩
  | cons setting settings ih =>
    intro p q hlegal h
    obtain ⟨hfirst, hrest⟩ := List.forall_mem_cons.1 hlegal
    cases hlimit : isLimit setting with
    | true =>
      obtain ⟨p₁, heq, htwin⟩ := twin_applyLimit h hlimit hfirst
      have hskip : otherSettings (setting :: settings) = otherSettings settings := by
        simp [otherSettings, hlimit]
      rw [hskip, applyPeerSettings, heq]
      exact ih hrest htwin
    | false =>
      have hkeep : otherSettings (setting :: settings) = setting :: otherSettings settings := by
        simp [otherSettings, hlimit]
      have hone := twin_applyPeerSetting h (Http2SettingParameter.ofNat setting.1) setting.2
      rw [hkeep, applyPeerSettings, applyPeerSettings]
      cases hp : p.applyPeerSetting (Http2SettingParameter.ofNat setting.1) setting.2 with
      | mk p₁ code =>
        cases hq : q.applyPeerSetting (Http2SettingParameter.ofNat setting.1) setting.2 with
        | mk q₁ code' =>
          rw [hp, hq] at hone
          obtain ⟨htwin, rfl⟩ := hone
          cases code' with
          | some code => exact ⟨htwin, rfl⟩
          | none => exact ih hrest htwin

/-- What a legal SETTINGS frame is answered with. -/
theorem receiveFrame_legalSettings (hf : LegalSettings p f) :
    p.receiveFrame f =
      if p.expectingContinuation = true then
        .ok (p.failConnection .protocolError "expected CONTINUATION")
      else afterSettings (applyPeerSettings f.settings { p with gotPeerSettings := true }) := by
  obtain ⟨hid, hlen, hack⟩ := hf.carries
  unfold receiveFrame
  rw [if_neg (by simp [hf.type]), if_neg (not_lt.2 hf.payloadLength), hf.type]
  by_cases hexp : p.expectingContinuation = true
  · rw [if_pos (by simp [hexp]), if_pos hexp]
    rfl
  · rw [if_neg (by simp [hexp]), if_neg hexp]
    show p.processSettingFrame f = _
    unfold processSettingFrame
    rw [if_neg (not_not.2 hid), if_neg (not_not.2 hlen), if_neg (by simp [hack])]
    have hread : settingsOf (f.header.payloadLength / 6) f.data = f.settings := rfl
    simp only [SettingFrame.ofRaw_eq hlen, ok_bind, hread]
    obtain ⟨p₁, code⟩ := applyPeerSettings f.settings { p with gotPeerSettings := true }
    cases code <;> rfl

/-- SETTINGS frames that differ in limits only are answered alike. -/
theorem agree_receiveFrame_settings (hpos : 0 < p.maxFrameSize) (hf : LegalSettings p f)
    (hg : LegalSettings p g) (hsame : SameButLimits f g) :
    Agree (TwinResult False) (p.receiveFrame f) (p.receiveFrame g) := by
  rw [receiveFrame_legalSettings hf, receiveFrame_legalSettings hg]
  apply Agree.ite
  · intro _
    exact twin_failConnection (.refl False hpos) _ _
  · intro _
    have hself : Twin False { p with gotPeerSettings := true }
        { p with gotPeerSettings := true } := .refl False hpos
    -- both frames are compared with the frame without limits
    obtain ⟨htwin, hcode⟩ := twin_otherSettings f.settings hf.legal hself
    obtain ⟨htwin', hcode'⟩ := twin_otherSettings g.settings hg.legal hself
    rw [hsame] at htwin hcode
    exact agree_afterSettings ⟨htwin.trans htwin'.symm, hcode'.symm.trans hcode⟩

end Limits

/-! ## The limit on header lists -/

section ListLimit

variable {p p₁ p' : ProtocolState} {s : Stream} {f : RawFrame} {r : ProtocolStepResult}

theorem maxHeaderListSize_applyPeerSetting {setting : Nat × Nat}
    (h : p.applyPeerSetting (Http2SettingParameter.ofNat setting.1) setting.2 = (p₁, none)) :
    p₁.maxHeaderListSize = settingOf .maxHeaderListSize [setting] p.maxHeaderListSize := by
  have hset : settingOf .maxHeaderListSize [setting] p.maxHeaderListSize =
      if Http2SettingParameter.ofNat setting.1 = .maxHeaderListSize then setting.2
      else p.maxHeaderListSize := rfl
  rw [hset]
  have hstep := settingStep_of_eq h
  generalize Http2SettingParameter.ofNat setting.1 = parameter at hstep
  cases hstep <;> rfl

theorem maxHeaderListSize_applyPeerSettings (settings : List (Nat × Nat)) :
    ∀ {p p₁ : ProtocolState}, applyPeerSettings settings p = (p₁, none) →
      p₁.maxHeaderListSize = settingOf .maxHeaderListSize settings p.maxHeaderListSize := by
  induction settings with
  | nil =>
    intro p p₁ h
    cases h
    rfl
  | cons setting settings ih =>
    intro p p₁ h
    simp only [applyPeerSettings] at h
    split at h
    · cases h
    · rename_i q heq
      rw [ih h, maxHeaderListSize_applyPeerSetting heq, ← settingOf_append]
      rfl

/-- As long as the connection is not closed, the limit after a step is the last one that the peer
has announced in it, if any. -/
def Limited (p : ProtocolState) (e : Entry) (p' : ProtocolState) : Prop :=
  p'.closed = true ∨
    p'.maxHeaderListSize = settingOf .maxHeaderListSize (peerSettings e) p.maxHeaderListSize

theorem FrameStep.limited (hstep : FrameStep p f p' r) : Limited p ⟨p, .receiveFrame f, r⟩ p' := by
  have hother : f.header.type ≠ .settings → p'.maxHeaderListSize = p.maxHeaderListSize →
      Limited p ⟨p, .receiveFrame f, r⟩ p' := by
    intro hne heq
    rw [Limited, peerSettings_of_ne hne]
    exact Or.inr heq
  cases hstep with
  | reported h =>
    rw [Limited, peerSettings_of_not_mem h.noGrant.settings]
    exact Or.inr rfl
  | connectionFailed => exact Or.inl rfl
  | settingsApplied ht hack h hbodies =>
    rw [Limited, peerSettings_of_accepted ht hack (by simp)]
    refine Or.inr ((congrArg ProtocolState.maxHeaderListSize hbodies.eq_with :).trans ?_)
    exact (maxHeaderListSize_applyPeerSettings f.settings h :)
  | dataStored s ht hfind hopen hfinal htake hbody hend =>
    exact hother (by simp [ht]) (congrArg ProtocolState.maxHeaderListSize hend.eq_with :)
  | headersBlock s ht hfind hopen hend h =>
    exact hother (by simp [ht]) (congrArg ProtocolState.maxHeaderListSize h.eq_with :)
  | continuationBlock s ht hexp hid hfind hend h =>
    exact hother (by simp [ht]) (congrArg ProtocolState.maxHeaderListSize h.eq_with :)
  | connectionWindow ht hid hadd hbodies =>
    exact hother (by simp [ht]) (congrArg ProtocolState.maxHeaderListSize hbodies.eq_with :)
  | streamWindow s ht hid hfind hadd hbody =>
    exact hother (by simp [ht]) (congrArg ProtocolState.maxHeaderListSize hbody.eq_with :)
  | streamReset s code ht => exact hother (by simp [ht]) rfl
  | dataRefused s ht | dataOnBodiless s ht | headersRefused s ht | headersOpen s ht
    | windowRefused s ht | continuationOpen s ht => exact hother (by simp [ht]) rfl
  | dataOnRemoved ht | ghostHeaders ht | ghostHeadersOpen ht | goAway ht | ghostContinuationOpen ht
    | ghostContinuation ht => exact hother (by simp [ht]) rfl

theorem ActionStep.limited {a : Action} (hstep : ActionStep p a p' r) : Limited p ⟨p, a, r⟩ p' := by
  cases hstep with
  | frame f hopen hup h => exact h.limited
  | frameIgnored f h => exact Or.inr (by rw [peerSettings_of_not_mem (by simp)]; rfl)
  | opened request rehash hcan hvalid hroom hpos hmax hbody =>
    exact Or.inr (congrArg ProtocolState.maxHeaderListSize hbody.eq_with :)
  | _ => exact Or.inr rfl

theorem ActionStep.localMaxFrameSize {a : Action} (hstep : ActionStep p a p' r) :
    p'.localMaxFrameSize = p.localMaxFrameSize := by
  cases hstep with
  | frame f hopen hup h => exact h.steady.localMaxFrameSize
  | opened request rehash hcan hvalid hroom hpos hmax hbody =>
    exact (steady_bodyStep hbody).localMaxFrameSize
  | _ => rfl

end ListLimit

end ProtocolState

open ProtocolState

/-- The state in which the last connection of the trace began. -/
def connectionStart (config : ClientConfig) (tr : List OperationEntry) : ProtocolState :=
  tr.foldl (fun start e => match e.input with
    | .act _ => start
    | .reset => e.pre.reset) (ofConfig config)

/-- The settings that the peer has announced since then, in order. -/
def settingsSinceReset (tr : List OperationEntry) : List (Nat × Nat) :=
  tr.foldl (fun settings e => match e.input with
    | .act action => settings ++ peerSettings ⟨e.pre, action, e.output⟩
    | .reset => []) []

section Traces

variable {config : ClientConfig} {tr : List OperationEntry} {p : ProtocolState}
  {r : ProtocolStepResult}

@[simp] theorem connectionStart_act (action : Action) :
    connectionStart config (tr ++ [⟨p, .act action, r⟩]) = connectionStart config tr := by
  simp [connectionStart]

@[simp] theorem connectionStart_reset :
    connectionStart config (tr ++ [⟨p, .reset, r⟩]) = p.reset := by
  simp [connectionStart]

@[simp] theorem settingsSinceReset_act (action : Action) :
    settingsSinceReset (tr ++ [⟨p, .act action, r⟩]) =
      settingsSinceReset tr ++ peerSettings ⟨p, action, r⟩ := by
  simp [settingsSinceReset]

@[simp] theorem settingsSinceReset_reset : settingsSinceReset (tr ++ [⟨p, .reset, r⟩]) = [] := by
  simp [settingsSinceReset]

end Traces

/-- The limits on what is received: the frame size is the one that the connection began with, the
limit on header lists the last one that the peer has announced, if any. -/
structure LimitsInForce (config : ClientConfig) (tr : List OperationEntry) (p : ProtocolState) :
    Prop where
  frames : p.localMaxFrameSize = (connectionStart config tr).localMaxFrameSize
  lists : p.closed = true ∨ p.maxHeaderListSize =
    settingOf .maxHeaderListSize (settingsSinceReset tr) (connectionStart config tr).maxHeaderListSize

theorem limitsInForce_of_runs {config : ClientConfig} {tr : List OperationEntry} {p : ProtocolState}
    (h : Machine.Runs operate (ofConfig config) tr p) : LimitsInForce config tr p := by
  refine operations_invariant (I := LimitsInForce config) ?_ ?_ ?_ h
  · exact ⟨rfl, Or.inr rfl⟩
  · intro tr p a p' r _ hp hstep
    constructor
    · rw [connectionStart_act, hstep.localMaxFrameSize, hp.frames]
    · rw [connectionStart_act, settingsSinceReset_act, settingOf_append]
      rcases hp.lists with hclosed | hlists
      · exact Or.inl (hstep.closed_of_closed hclosed)
      · rw [← hlists]
        exact hstep.limited
  · intro tr p _
    constructor
    · rw [connectionStart_reset]
    · rw [connectionStart_reset, settingsSinceReset_reset, settingOf_nil]
      exact Or.inr rfl

/-! ## Peer settings and verdicts -/

/-- The client judges by the limits that the connection began with. -/
def OwnLimits (config : ClientConfig) (tr : List OperationEntry) (p : ProtocolState) : Prop :=
  p.localMaxFrameSize = (connectionStart config tr).localMaxFrameSize ∧
    p.maxHeaderListSize = (connectionStart config tr).maxHeaderListSize

/-- The MAX_HEADER_LIST_SIZE that the peer has announced last, if any, is the one of the client. -/
def KeepsOwnLimit (config : ClientConfig) (tr : List OperationEntry) : Prop :=
  settingOf .maxHeaderListSize (settingsSinceReset tr)
    (connectionStart config tr).maxHeaderListSize = (connectionStart config tr).maxHeaderListSize

instance (config : ClientConfig) (tr : List OperationEntry) : Decidable (KeepsOwnLimit config tr) :=
  inferInstanceAs (Decidable (_ = _))

/-- After either frame, the limits in force judge alike the sizes in the frames that follow. -/
def AlikeAfter (p : ProtocolState) (f g : RawFrame) (frames : List RawFrame) : Prop :=
  ∀ p₁ r q₁ r', p.receive f = .ok (p₁, r) → p.receive g = .ok (q₁, r') →
    Machine.Meets receive ReceiveAlike p₁ q₁ frames

theorem ownLimits_iff {config : ClientConfig} {tr : List OperationEntry} {p : ProtocolState}
    (h : Machine.Runs operate (ofConfig config) tr p) (hopen : p.closed = false) :
    OwnLimits config tr p ↔ KeepsOwnLimit config tr := by
  obtain ⟨hframes, hclosed | hlists⟩ := limitsInForce_of_runs h
  · rw [hopen] at hclosed
    cases hclosed
  · rw [OwnLimits, KeepsOwnLimit, ← hlists]
    exact and_iff_right hframes

theorem agree_receive_settings {p : ProtocolState} {f g : RawFrame}
    (hmin : p.closed = true ∨ Http2SettingInfo.minimumMaxFrameSize ≤ p.maxFrameSize)
    (hf : LegalSettings p f) (hg : LegalSettings p g) (hsame : SameButLimits f g) :
    Agree (fun a b => a = b ∨ TwinResult False a b) (p.receive f) (p.receive g) := by
  unfold receive act
  apply Agree.ite
  · exact fun _ => Or.inl rfl
  · intro hup
    have hopen : ¬ p.closed = true := fun hclosed => hup (by simp [hclosed])
    have hpos : 0 < p.maxFrameSize := lt_of_lt_of_le (by decide) (hmin.resolve_left hopen)
    exact (agree_receiveFrame_settings hpos hf hg hsame).mono fun _ _ => Or.inr

/-- SETTINGS frames that differ in limits only give the same verdicts on what follows if and only if
the limits on header lists that they leave in force judge alike. -/
theorem verdicts_after_settings_iff {p : ProtocolState} {f g : RawFrame} (hp : p.Sound)
    (hmin : p.closed = true ∨ Http2SettingInfo.minimumMaxFrameSize ≤ p.maxFrameSize)
    (hf : LegalSettings p f) (hg : LegalSettings p g) (hsame : SameButLimits f g)
    (frames : List RawFrame) :
    p.verdicts (f :: frames) = p.verdicts (g :: frames) ↔ AlikeAfter p f g frames := by
  have hone := agree_receive_settings hmin hf hg hsame
  have hverdict : Agree (fun a b => a.2.verdict = b.2.verdict) (p.receive f) (p.receive g) := by
    refine hone.mono fun a b hab => ?_
    rcases hab with rfl | ⟨-, halike⟩
    · rfl
    · exact halike.verdict
  have hrest : ∀ p₁ r q₁ r', p.receive f = .ok (p₁, r) → p.receive g = .ok (q₁, r') →
      (p₁.verdicts frames = q₁.verdicts frames ↔
        Machine.Meets receive ReceiveAlike p₁ q₁ frames) := by
    intro p₁ r q₁ r' hfr hgr
    rw [hfr, hgr] at hone
    rcases hone with heq | ⟨htwin, -⟩
    · cases heq
      exact iff_of_true rfl (Machine.meets_self (fun _ _ _ _ _ _ => rfl) frames p₁)
    · exact verdicts_eq_iff htwin ((actionStep_of_act hp hfr).sound hp) frames
  refine (Machine.observe_cons_eq_iff frames hverdict).trans ?_
  constructor
  · exact fun heq p₁ r q₁ r' hfr hgr => (hrest p₁ r q₁ r' hfr hgr).1 (heq p₁ r q₁ r' hfr hgr)
  · exact fun hmeets p₁ r q₁ r' hfr hgr =>
      (hrest p₁ r q₁ r' hfr hgr).2 (hmeets p₁ r q₁ r' hfr hgr)

/-- In every state that is reached, the limits on what is received are those that the connection
began with if and only if the peer has announced no other MAX_HEADER_LIST_SIZE, and legal SETTINGS
frames that differ in limits only are followed by the same verdicts if and only if the limits that
they leave in force judge alike. -/
theorem peer_settings_neutral_iff {config : ClientConfig} {tr : List OperationEntry}
    {p : ProtocolState} (h : Machine.Runs operate (ofConfig config) tr p) :
    (p.closed = false → (OwnLimits config tr p ↔ KeepsOwnLimit config tr)) ∧
      ∀ f g, LegalSettings p f → LegalSettings p g → SameButLimits f g → ∀ frames,
        (p.verdicts (f :: frames) = p.verdicts (g :: frames) ↔ AlikeAfter p f g frames) := by
  refine ⟨ownLimits_iff h, fun f g hf hg hsame frames => ?_⟩
  exact verdicts_after_settings_iff (tableInvariant_of_runs h).sound (minimum_le_maxFrameSize h) hf
    hg hsame frames

/-- A connection with a request that waits for its response. -/
def requested : List Operation :=
  [.act .start, .act (.receiveFrame emptySettingsFrame),
    .act (.submitRequest getRequest (.id _))]

theorem legalSettings_settingsFrame {p : ProtocolState} (value : Nat)
    (hmax : 6 ≤ p.localMaxFrameSize) (h : (settingsFrame 6 value).settings = [(6, value)]) :
    LegalSettings p (settingsFrame 6 value) where
  type := rfl
  carries := by
    refine ⟨rfl, by simp [settingsFrame, RawFrame.ofPayload], ?_⟩
    show ((0 : UInt8) &&& FrameFlag.ack.toByte != 0) = false
    decide
  payloadLength := hmax
  legal := by
    rw [h]
    intro setting hmem
    rw [List.mem_singleton.1 hmem]
    exact trivial

/-- A limit of a hundred bytes and one of a hundred thousand make no difference for a short
response. -/
theorem peer_settings_neutral_short_response :
    ∃ tr p, Machine.Runs operate (ofConfig {}) tr p ∧
      LegalSettings p (settingsFrame 6 100) ∧ LegalSettings p (settingsFrame 6 100000) ∧
      OwnLimits {} tr p ∧
      AlikeAfter p (settingsFrame 6 100) (settingsFrame 6 100000) [okResponseFrame 5] := by
  have hrun : (Machine.run operate (ofConfig {}) requested).map (fun x =>
      (x.1.closed, decide (KeepsOwnLimit {} x.2), decide (6 ≤ x.1.localMaxFrameSize),
        decide (x.1.verdicts [settingsFrame 6 100, okResponseFrame 5] =
          x.1.verdicts [settingsFrame 6 100000, okResponseFrame 5]))) =
      .ok (false, true, true, true) := by decide +kernel
  obtain ⟨p, tr, hr, -, hresult⟩ := Machine.exists_runs_of_map hrun
  simp only [Prod.mk.injEq, decide_eq_true_eq] at hresult
  obtain ⟨hopen, hkeeps, hmax, hverdicts⟩ := hresult
  have hf := legalSettings_settingsFrame 100 hmax (by decide +kernel)
  have hg := legalSettings_settingsFrame 100000 hmax (by decide +kernel)
  have hsame : SameButLimits (settingsFrame 6 100) (settingsFrame 6 100000) := by decide +kernel
  obtain ⟨hown, hneutral⟩ := peer_settings_neutral_iff hr
  exact ⟨tr, p, hr, hf, hg, (hown hopen).2 hkeeps, (hneutral _ _ hf hg hsame _).1 hverdicts⟩

/-- The same response is accepted after one of two SETTINGS frames that differ in
MAX_HEADER_LIST_SIZE only, and rejected after the other. -/
theorem peer_limit_rejects_response :
    ∃ tr p, Machine.Runs operate (ofConfig {}) tr p ∧
      LegalSettings p (settingsFrame 6 16) ∧ LegalSettings p (settingsFrame 6 100000) ∧
      SameButLimits (settingsFrame 6 16) (settingsFrame 6 100000) ∧
      p.verdicts [settingsFrame 6 16, okResponseFrame 5] =
        [.ok ([], []), .ok ([.responseFailed 1 .enhanceYourCalm],
          [.rstStream (buildRstStreamFrame 1 .enhanceYourCalm)])] ∧
      p.verdicts [settingsFrame 6 100000, okResponseFrame 5] ≠
        p.verdicts [settingsFrame 6 16, okResponseFrame 5] := by
  have hrun : (Machine.run operate (ofConfig {}) requested).map (fun x =>
      (decide (6 ≤ x.1.localMaxFrameSize),
        decide (x.1.verdicts [settingsFrame 6 16, okResponseFrame 5] =
          [.ok ([], []), .ok ([.responseFailed 1 .enhanceYourCalm],
            [.rstStream (buildRstStreamFrame 1 .enhanceYourCalm)])]),
        decide (x.1.verdicts [settingsFrame 6 100000, okResponseFrame 5] ≠
          x.1.verdicts [settingsFrame 6 16, okResponseFrame 5]))) =
      .ok (true, true, true) := by decide +kernel
  obtain ⟨p, tr, hr, -, hresult⟩ := Machine.exists_runs_of_map hrun
  simp only [Prod.mk.injEq, decide_eq_true_eq] at hresult
  obtain ⟨hmax, hrejected, hdiffer⟩ := hresult
  exact ⟨tr, p, hr, legalSettings_settingsFrame _ hmax (by decide +kernel),
    legalSettings_settingsFrame _ hmax (by decide +kernel), by decide +kernel, hrejected, hdiffer⟩

end Chttp2
