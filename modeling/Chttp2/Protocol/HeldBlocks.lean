import Chttp2.Protocol.HeaderBlocks
import Chttp2.Protocol.PeerSettings

/-!
# The bytes held for unfinished header blocks

An unfinished header block is held in the record of its stream or in the orphaned block, and both are
compared with MAX_HEADER_LIST_SIZE whenever a fragment is added to them, except when the block of a
stream that has left the table begins (`BeginsOverlong`). So the held bytes stay within the limit in
every state of a run if and only if no such beginning exceeds it (`held_bytes_bounded_iff`).
-/

set_option autoImplicit false

namespace Chttp2

open ProtocolState

/-- Only the stream that the connection waits for holds header bytes. -/
theorem HeaderState.pending_eq_nil {clean : Prop} {p : ProtocolState} {s : Stream}
    (hp : HeaderState clean p) (hs : s ∈ p.streams.entries)
    (h : ¬ (p.expectingContinuation = true ∧ p.continuationStreamId = s.streamId)) :
    s.pendingHeaderBlock = [] := by
  refine (hp.streams s hs).pending ?_
  by_contra hw
  exact h ((hp.streams s hs).waiting.1 (by simpa using hw))

namespace ProtocolState

/-- The bytes that are held for unfinished header blocks. -/
def heldHeaderBytes (p : ProtocolState) : Nat :=
  (p.streams.entries.map fun s => s.pendingHeaderBlock.length).sum + p.ghostHeaderBlock.length

/-- While the connection is not closed, a limit on header lists bounds the held bytes. -/
def HoldsWithinLimit (p : ProtocolState) : Prop :=
  p.closed = false → p.maxHeaderListSize ≠ 0 → p.heldHeaderBytes ≤ p.maxHeaderListSize

/-- A HEADERS frame begins, and does not end, the block of a stream that has left the table, with a
fragment that exceeds the limit. -/
structure BeginsOverlong (p : ProtocolState) (f : RawFrame) : Prop where
  opened : p.closed = false ∧ p.transportClosed = false
  dispatched : Dispatched p f
  idle : p.expectingContinuation = false
  type : f.header.type = .headers
  padding : f.PaddingOk f.priorityPrefix
  removed : p.streams.find? f.header.streamId = none ∧ ¬ p.NeverOpened f.header.streamId
  unfinished : f.header.hasEndHeadersFlag = false
  overlong : exceeds p.maxHeaderListSize f.headerFragment.length = true

theorem exceeds_eq_false {limit size : Nat} :
    exceeds limit size = false ↔ (limit ≠ 0 → size ≤ limit) := by
  unfold exceeds
  rw [Bool.and_eq_false_imp, decide_eq_true_eq, decide_eq_false_iff_not, not_lt]
  rw [gt_iff_lt, Nat.pos_iff_ne_zero]

section Held

variable {p p' : ProtocolState} {f : RawFrame} {a : Action} {r : ProtocolStepResult}

/-- What is held is the open block. -/
theorem heldHeaderBytes_eq (hp : HeaderState True p) :
    p.heldHeaderBytes = p.pendingBlock.length := by
  unfold heldHeaderBytes
  cases hfind : p.streams.find? p.continuationStreamId with
  | none =>
    have hnone : ∀ s ∈ p.streams.entries, s.pendingHeaderBlock.length = 0 := by
      intro s hs
      rw [hp.pending_eq_nil hs]
      · rfl
      · rintro ⟨-, hid⟩
        rw [hid, KeyedTable.mem_iff_find?.1 hs] at hfind
        cases hfind
    rw [pendingBlock_of_none hfind, List.map_congr_left hnone]
    simp
  | some s =>
    -- the orphaned block is empty while a stream holds the open one
    have hghost : p.ghostHeaderBlock = [] := by
      by_contra hne
      rw [(hp.ghost trivial hne).2] at hfind
      cases hfind
    have hothers : ∀ u ∈ (p.streams.erase p.continuationStreamId).entries,
        u.pendingHeaderBlock.length = 0 := by
      intro u hu
      obtain ⟨hu, hne⟩ := KeyedTable.mem_erase.1 hu
      rw [hp.pending_eq_nil hu fun h => hne h.2.symm]
      rfl
    rw [pendingBlock_of_find? hfind, hghost, ((KeyedTable.perm_erase hfind).map _).sum_eq,
      List.map_cons, List.map_congr_left hothers]
    simp

theorem pendingBlock_of_idle (hp : HeaderState True p) (hexp : p.expectingContinuation = false) :
    p.pendingBlock = [] := by
  cases hfind : p.streams.find? p.continuationStreamId with
  | none => rw [pendingBlock_of_none hfind, hp.ghost_nil hexp trivial]
  | some s =>
    rw [pendingBlock_of_find? hfind,
      hp.pending_eq_nil (KeyedTable.mem_of_find? hfind) (by simp [hexp])]

/-! ## The checks of a fragment -/

/-- A failed connection is not open. -/
theorem failConnection_ne {q : ProtocolState} {code : ErrorCode} {text : String}
    (hopen : p'.closed = false) : (pure (q.failConnection code text) : Step) ≠ .ok (p', r) := by
  intro h
  obtain ⟨ghost, hfail⟩ := failConnection_eq q code text
  cases (Except.ok.inj h).symm.trans hfail
  cases hopen

/-- A frame that leaves the connection open has passed the checks of `receiveFrame`. -/
theorem passes_of_open (heq : p.receiveFrame f = .ok (p', r)) (hopen : p'.closed = false) :
    (p.gotPeerSettings = true ∨ f.header.type = .settings) ∧
      f.header.payloadLength ≤ p.localMaxFrameSize ∧
      (p.expectingContinuation = true → f.header.type = .continuation) := by
  unfold receiveFrame at heq
  split at heq
  · exact absurd heq (failConnection_ne hopen)
  split at heq
  · exact absurd heq (failConnection_ne hopen)
  split at heq
  · exact absurd heq (failConnection_ne hopen)
  · rename_i hsettings hlength hexp
    refine ⟨?_, not_lt.1 hlength, ?_⟩
    · simpa [or_iff_not_imp_left] using hsettings
    · simpa using hexp

/-- The open block fits with every fragment that a CONTINUATION frame adds to it. -/
theorem fits_of_continuation (ht : f.header.type = .continuation)
    (heq : p.receiveFrame f = .ok (p', r)) (hopen : p'.closed = false) :
    exceeds p.maxHeaderListSize (p.pendingBlock ++ f.data).length = false := by
  obtain ⟨hsettings, hlength, -⟩ := passes_of_open heq hopen
  unfold receiveFrame at heq
  rw [if_neg (by simpa [ht] using hsettings), if_neg (not_lt.2 hlength), if_neg (by simp [ht]), ht]
    at heq
  dsimp only at heq
  unfold processContinuationFrame at heq
  split at heq
  · exact absurd heq (failConnection_ne hopen)
  split at heq
  · exact absurd heq (failConnection_ne hopen)
  rename_i hexp
  have hid : p.continuationStreamId = f.header.streamId := by
    simp at hexp
    exact hexp.2
  -- a block that is too long closes the connection, with or without a stream
  by_contra hlong
  cases hfind : p.streams.find? f.header.streamId with
  | none =>
    rw [pendingBlock_of_none (hid ▸ hfind), Bool.not_eq_false] at hlong
    simp only [hfind, processGhostContinuation] at heq
    obtain ⟨block, happend, heq⟩ := bind_eq_ok.1 heq
    obtain ⟨rfl, -⟩ := ByteBuffer.append_eq_ok.1 happend
    rw [if_pos (by exact hlong)] at heq
    exact failConnection_ne hopen heq
  | some s =>
    rw [pendingBlock_of_find? (hid ▸ hfind), Bool.not_eq_false] at hlong
    simp only [hfind] at heq
    obtain ⟨block, happend, heq⟩ := bind_eq_ok.1 heq
    obtain ⟨rfl, -⟩ := ByteBuffer.append_eq_ok.1 happend
    rw [if_pos (by exact hlong)] at heq
    exact failConnection_ne hopen heq

/-- A HEADERS frame that leaves the connection open has passed the checks of its handler. -/
theorem dispatched_headers (ht : f.header.type = .headers)
    (heq : p.receiveFrame f = .ok (p', r)) (hopen : p'.closed = false) :
    Dispatched p f ∧ p.expectingContinuation = false ∧ f.PaddingOk f.priorityPrefix := by
  obtain ⟨hsettings, hlength, hexp⟩ := passes_of_open heq hopen
  have hidle : p.expectingContinuation = false := by
    by_contra h
    cases ht.symm.trans (hexp (by simpa using h))
  unfold receiveFrame at heq
  rw [if_neg (by simpa [ht] using hsettings), if_neg (not_lt.2 hlength),
    if_neg (by simp [hidle]), ht] at heq
  dsimp only at heq
  unfold processHeadersFrame at heq
  split at heq
  · exact absurd heq (failConnection_ne hopen)
  rename_i hid
  obtain ⟨checked, hvalid, heq⟩ := bind_eq_ok.1 heq
  refine ⟨⟨hsettings.resolve_right (by simp [ht]), hlength, hid⟩, hidle, ?_⟩
  rcases validatePaddedPayload_cases f f.priorityPrefix with ⟨hpad, -⟩ | ⟨-, code, text, hbad, -⟩
  · exact hpad
  · cases hvalid.symm.trans hbad
    exact absurd heq (failConnection_ne hopen)

/-- The first fragment of a block fits if its stream is live. -/
theorem fits_of_headers {s : Stream} (ht : f.header.type = .headers)
    (heq : p.receiveFrame f = .ok (p', r)) (hopen : p'.closed = false)
    (hfind : p.streams.find? f.header.streamId = some s) (hok : ¬ s.Refuses) :
    exceeds p.maxHeaderListSize (s.pendingHeaderBlock ++ f.headerFragment).length = false := by
  obtain ⟨hf, hidle, hpad⟩ := dispatched_headers ht heq hopen
  obtain ⟨headersFrame, hread, -, hdata, -⟩ := HeadersFrame.ofRaw_eq hpad
  rw [receiveFrame_headers hf ht hidle] at heq
  unfold processHeadersFrame at heq
  rw [if_neg hf.streamId] at heq
  obtain ⟨checked, hvalid, heq⟩ := bind_eq_ok.1 heq
  cases checked with
  | some failure => exact absurd heq (failConnection_ne hopen)
  | none =>
    dsimp only at heq
    rw [hread, ok_bind, hfind] at heq
    dsimp only at heq
    rw [if_neg (by simpa [Stream.Refuses] using hok), hdata] at heq
    obtain ⟨block, happend, heq⟩ := bind_eq_ok.1 heq
    obtain ⟨rfl, -⟩ := ByteBuffer.append_eq_ok.1 happend
    by_contra hlong
    rw [if_pos (by exact Bool.not_eq_false _ ▸ hlong)] at heq
    exact failConnection_ne hopen heq

/-! ## One step -/

/-- The fragment of the exceptional frame is held without a check. -/
theorem BeginsOverlong.eq (h : p.BeginsOverlong f) (heq : p.receiveFrame f = .ok (p', r)) :
    p' = { p with
      ghostHeaderBlock := f.headerFragment
      expectingContinuation := true
      continuationStreamId := f.header.streamId } := by
  obtain ⟨hnone, hid⟩ := h.removed
  obtain ⟨heven, hknown⟩ := not_or.1 hid
  have hvalid : validatePaddedPayload f f.priorityPrefix = .ok none := by
    rcases validatePaddedPayload_cases f f.priorityPrefix with ⟨-, hvalid⟩ | ⟨hbad, -⟩
    · exact hvalid
    · exact absurd h.padding hbad
  obtain ⟨headersFrame, hread, hheader, hdata, -⟩ := HeadersFrame.ofRaw_eq h.padding
  rw [receiveFrame_headers h.dispatched h.type h.idle] at heq
  unfold processHeadersFrame at heq
  rw [if_neg h.dispatched.streamId] at heq
  change (validatePaddedPayload f f.priorityPrefix >>= _) = _ at heq
  rw [hvalid, ok_bind] at heq
  dsimp only at heq
  rw [hread, ok_bind, hnone] at heq
  dsimp only at heq
  unfold processGhostHeaders at heq
  rw [hheader, if_neg heven, if_neg hknown, if_neg (by simp [h.unfinished]), hdata] at heq
  obtain ⟨block, happend, heq⟩ := bind_eq_ok.1 heq
  obtain ⟨rfl, -⟩ := ByteBuffer.append_eq_ok.1 happend
  cases heq
  rfl

/-- The limit stays, except for a SETTINGS frame. -/
theorem ActionStep.maxHeaderListSize_eq (hstep : ActionStep p a p' r) (hopen : p'.closed = false)
    (ha : ∀ f, a = .receiveFrame f → f.header.type ≠ .settings) :
    p'.maxHeaderListSize = p.maxHeaderListSize := by
  have hnone : peerSettings ⟨p, a, r⟩ = [] := by
    cases a with
    | receiveFrame f => exact peerSettings_of_ne (ha f rfl)
    | _ => rfl
  rcases hstep.limited with hclosed | hlimit
  · rw [hopen] at hclosed
    cases hclosed
  · rw [hlimit, hnone, settingOf_nil]

/-- The block that a HEADERS frame leaves open fits, unless the frame is one of the exceptions. -/
theorem FrameStep.fits_headers (hframe : FrameStep p f p' r)
    (heq : p.receiveFrame f = .ok (p', r)) (ht : f.header.type = .headers)
    (hlost : p.transportClosed = false) (hwas : p.closed = false) (hopen : p'.closed = false)
    (hexp' : p'.expectingContinuation = true) (hnot : ¬ p.BeginsOverlong f) :
    exceeds p.maxHeaderListSize p'.pendingBlock.length = false := by
  obtain ⟨hf, hidle, hpad⟩ := dispatched_headers ht heq hopen
  cases hframe with
  | connectionFailed => cases hopen
  | headersRefused s _ hfind hbad => cases hidle.symm.trans hexp'
  | ghostHeaders _ hnone hid hend => cases hidle.symm.trans hexp'
  | headersBlock s _ hfind hok hend hblock =>
    have hsame : p'.expectingContinuation = p.expectingContinuation :=
      (congrArg ProtocolState.expectingContinuation hblock.eq_with :)
    cases (hidle.symm.trans hsame.symm).trans hexp'
  | ghostHeadersOpen _ hnone hid hend =>
    rw [pendingBlock_of_none (by exact hnone)]
    -- the one way past the check: the block of a removed stream
    by_contra hlong
    exact hnot ⟨⟨hwas, hlost⟩, hf, hidle, ht, hpad, ⟨hnone, hid⟩, hend, by simpa using hlong⟩
  | headersOpen s _ hfind hok hend =>
    have hlive : (p.streams.set (s.openBlock f.headerFragment
        f.header.hasEndStreamFlag)).find? f.header.streamId =
          some (s.openBlock f.headerFragment f.header.hasEndStreamFlag) := by
      have hkey : (s.openBlock f.headerFragment f.header.hasEndStreamFlag).streamId =
        f.header.streamId := (KeyedTable.key_of_find? hfind :)
      rw [KeyedTable.find?_set_of_find? hfind hkey, if_pos rfl]
    rw [pendingBlock_of_find? hlive]
    exact fits_of_headers ht heq hopen hfind hok
  | reported h => cases h <;> simp_all
  | _ => simp_all

/-- The same for every frame. -/
theorem FrameStep.fits (hframe : FrameStep p f p' r) (hp : HeaderState True p)
    (heq : p.receiveFrame f = .ok (p', r)) (hlost : p.transportClosed = false)
    (hwas : p.closed = false) (hopen : p'.closed = false)
    (hexp' : p'.expectingContinuation = true) (hnot : ¬ p.BeginsOverlong f) :
    exceeds p.maxHeaderListSize p'.pendingBlock.length = false ∧ f.header.type ≠ .settings := by
  have hnext : p.expectingContinuation = true → f.header.type ≠ .continuation →
      p'.closed = true := fun hexp ht => closed_of_interrupting hexp ht heq
  by_cases hheaders : f.header.type = .headers
  · exact ⟨hframe.fits_headers heq hheaders hlost hwas hopen hexp' hnot, by simp [hheaders]⟩
  by_cases hcontinuation : f.header.type = .continuation
  · refine ⟨?_, by simp [hcontinuation]⟩
    have haccount : BlockAccount p p' (some (p.continuationStreamId, p.pendingBlock))
        ⟨p, .receiveFrame f, r⟩ := hframe.blockAccount hp (fun _ => rfl) hnext hopen
    have hopened := haccount.opened hexp'
    simp only [Entry.openBlock, hcontinuation] at hopened
    split at hopened
    · cases hopened
    · have hblock : p.pendingBlock ++ f.data = p'.pendingBlock :=
        (Prod.mk.inj (Option.some.inj hopened)).2
      rw [← hblock]
      exact fits_of_continuation hcontinuation heq hopen
  -- another frame leaves no block open
  · have hexp := (hframe.decodes_nothing hopen hheaders hcontinuation).2
    rw [hnext (hexp ▸ hexp') hcontinuation] at hopen
    cases hopen

/-- A step keeps the held bytes within the limit, unless it takes one of the exceptional frames. -/
theorem holdsWithinLimit_act (hsound : p.Sound) (htidy : p.Tidy)
    (hp : p.closed = true ∨ HeaderState True p) (hwithin : p.HoldsWithinLimit)
    (hact : p.act a = .ok (p', r)) :
    p'.HoldsWithinLimit ↔ ∀ f, a = .receiveFrame f → ¬ p.BeginsOverlong f := by
  have hstep := actionStep_of_act hsound hact
  -- an open state has at most one unfinished block
  have hstate : p'.closed = false → p.closed = false ∧ HeaderState True p ∧ HeaderState True p' := by
    intro hopen
    have hwas : p.closed = false := hstep.open_of_open hopen
    have hp := hp.resolve_left (by simp [hwas])
    exact ⟨hwas, hp, (hstep.headerState hp htidy).resolve_left (by simp [hopen])⟩
  constructor
  · rintro hwithin' f rfl hbad
    obtain ⟨hwas, hlost⟩ := hbad.opened
    rw [act, if_neg (by simp [hwas, hlost])] at hact
    -- the frame leaves its whole block behind
    obtain rfl := hbad.eq hact
    obtain ⟨-, -, hp'⟩ := hstate hwas
    have hlong := hbad.overlong
    rw [exceeds_eq_false.2 fun hmax => ?_] at hlong
    · cases hlong
    · have hle := hwithin' hwas hmax
      rw [heldHeaderBytes_eq hp', pendingBlock_of_none (by exact hbad.removed.1)] at hle
      exact hle
  · intro hnot hopen hmax
    obtain ⟨hwas, hp, hp'⟩ := hstate hopen
    rw [heldHeaderBytes_eq hp']
    cases hexp' : p'.expectingContinuation with
    | false =>
      rw [pendingBlock_of_idle hp' hexp']
      exact Nat.zero_le _
    | true =>
      -- only a received frame makes the block longer or changes the limit
      have hlocal : (∀ f, a ≠ .receiveFrame f) → p'.pendingBlock.length ≤ p'.maxHeaderListSize := by
        intro ha
        obtain ⟨-, hexp, -, hblock⟩ := hstep.keepsBlock ha hp hopen
        have hlimit := hstep.maxHeaderListSize_eq hopen fun f hf => absurd hf (ha f)
        rw [hblock (hexp ▸ hexp'), ← heldHeaderBytes_eq hp, hlimit]
        exact hwithin hwas (hlimit ▸ hmax)
      cases a with
      | receiveFrame f =>
        cases hstep with
        | frameIgnored _ h =>
          rw [← heldHeaderBytes_eq hp]
          exact hwithin hwas hmax
        | frame _ _ hlost hframe hnext =>
          rw [act, if_neg (by simp [hwas, hlost])] at hact
          obtain ⟨hfits, ht⟩ := hframe.fits hp hact hlost hwas hopen hexp' (hnot f rfl)
          have hlimit := ActionStep.maxHeaderListSize_eq (.frame f hwas hlost hframe hnext) hopen
            fun g hg => by
              cases hg
              exact ht
          rw [hlimit]
          exact exceeds_eq_false.1 hfits (hlimit ▸ hmax)
      | _ => exact hlocal (by simp)

end Held

end ProtocolState

/-! ## Runs -/

/-- The step takes a frame that begins an overlong block. -/
def takesOverlong (e : OperationEntry) : Prop :=
  ∃ f, e.input = .act (.receiveFrame f) ∧ e.pre.BeginsOverlong f

section Runs

variable {config : ClientConfig} {tr : List OperationEntry} {p : ProtocolState}

/-- The step lemma along a run. -/
theorem holdsWithinLimit_operate {p' : ProtocolState} {r : ProtocolStepResult}
    (h : Machine.Runs operate (ofConfig config) tr p) (hresets : ResetsTidily tr)
    (hwithin : p.HoldsWithinLimit) {a : Action} (hact : p.act a = .ok (p', r)) :
    p'.HoldsWithinLimit ↔ ¬ takesOverlong ⟨p, .act a, r⟩ := by
  have hp := tableInvariant_of_runs h
  have hheaders : p.closed = true ∨ HeaderState True p :=
    hp.headers.imp_right fun hp => ⟨hp.streams, fun _ => hp.ghost hresets, hp.opened⟩
  rw [holdsWithinLimit_act hp.sound hp.tidy hheaders hwithin hact]
  constructor
  · rintro hnot ⟨f, hinput, hbad⟩
    exact hnot f (Operation.act.inj hinput) hbad
  · rintro hnot f rfl hbad
    exact hnot ⟨f, rfl, hbad⟩

theorem holdsWithinLimit_of_runs (h : Machine.Runs operate (ofConfig config) tr p)
    (hresets : ResetsTidily tr) (hnot : ∀ e ∈ tr, ¬ takesOverlong e) : p.HoldsWithinLimit := by
  refine h.invariant (I := fun tr p => ResetsTidily tr → (∀ e ∈ tr, ¬ takesOverlong e) →
    p.HoldsWithinLimit) ?_ ?_ hresets hnot
  · intro _ _ _ _
    exact Nat.zero_le _
  · intro tr p o p' r hr hI hstep hresets hnot
    have hwithin := hI (fun e he => hresets e (List.mem_append_left _ he))
      fun e he => hnot e (List.mem_append_left _ he)
    cases o with
    | act a =>
      exact (holdsWithinLimit_operate hr (fun e he => hresets e (List.mem_append_left _ he)) hwithin
        hstep).2 (hnot _ (by simp))
    | reset =>
      have hghost : p.ghostHeaderBlock = [] := hresets ⟨p, .reset, r⟩ (by simp) rfl
      cases hstep
      intro _ _
      show 0 + p.ghostHeaderBlock.length ≤ _
      rw [hghost]
      exact Nat.zero_le _

/-- As long as no `reset` leaves an orphaned block behind, the bytes that are held for unfinished
header blocks stay within the limit in every state of a run if and only if no frame begins an
overlong block of a stream that has left the table. -/
theorem held_bytes_bounded_iff (h : Machine.Runs operate (ofConfig config) tr p)
    (hresets : ResetsTidily tr) :
    (∀ tr₁ tr₂ q, tr = tr₁ ++ tr₂ → Machine.Runs operate (ofConfig config) tr₁ q →
      q.HoldsWithinLimit) ↔ ∀ e ∈ tr, ¬ takesOverlong e := by
  constructor
  · intro hwithin e he hbad
    obtain ⟨tr₁, tr₂, s', rfl, hr, hstep, -⟩ := h.entry he
    obtain ⟨f, hinput, hbegins⟩ := hbad
    obtain ⟨pre, input, output⟩ := e
    cases hinput
    have hresets₁ : ResetsTidily tr₁ := fun e he => hresets e (List.mem_append_left _ he)
    have hact : pre.act (.receiveFrame f) = .ok (s', output) := hstep
    refine (holdsWithinLimit_operate hr hresets₁ (hwithin tr₁ _ pre rfl hr) hact).1 ?_
      ⟨f, rfl, hbegins⟩
    exact hwithin (tr₁ ++ [⟨pre, .act (.receiveFrame f), output⟩]) tr₂ s' (by simp) (.snoc hr hstep)
  · rintro hnot tr₁ tr₂ q rfl hr
    exact holdsWithinLimit_of_runs hr (fun e he => hresets e (List.mem_append_left _ he))
      fun e he => hnot e (List.mem_append_left _ he)

end Runs

/-- A HEADERS frame on stream 1 with a fragment of `n` bytes. -/
def fragmentFrame (flags : UInt8) (n : Nat) (hn : n < 2 ^ 24) : RawFrame :=
  .ofPayload { type := .headers, flags, streamId := 1 } (List.replicate n 0x88)
    (by rwa [List.length_replicate]) first_streamId_lt

/-- With a limit of 64 bytes, a cancelled stream receives a block that begins with `n` bytes. -/
def lateBlock (n : Nat) (hn : n < 2 ^ 24) : List Operation :=
  [.act .start, .act (.receiveFrame emptySettingsFrame),
    .act (.submitRequest getRequest (.id _)), .act (.cancelStream 1 .cancel),
    .act (.receiveFrame (fragmentFrame 0 n hn))]

theorem noReset_lateBlock {n : Nat} {hn : n < 2 ^ 24} {tr : List OperationEntry}
    (hin : tr.map Machine.Entry.input = lateBlock n hn) : NoReset tr := by
  intro e he
  have hmem : e.input ∈ lateBlock n hn := hin ▸ List.mem_map_of_mem he
  simp only [lateBlock, List.mem_cons, List.not_mem_nil, or_false] at hmem
  rcases hmem with h | h | h | h | h <;> exact ⟨_, h⟩

/-- A first fragment of 64 bytes fits. -/
theorem held_bytes_bounded_of_short_fragment :
    ∃ tr p, Machine.Runs operate (ofConfig { maxHeaderListSize := 64 }) tr p ∧
      p.heldHeaderBytes = 64 ∧
      ∀ tr₁ tr₂ q, tr = tr₁ ++ tr₂ →
        Machine.Runs operate (ofConfig { maxHeaderListSize := 64 }) tr₁ q → q.HoldsWithinLimit := by
  have hrun : (Machine.run operate (ofConfig { maxHeaderListSize := 64 })
      (lateBlock 64 (by decide))).map (fun x => (x.1.heldHeaderBytes,
        decide (∀ e ∈ x.2, e.pre.maxHeaderListSize = 64))) = .ok (64, true) := by decide +kernel
  obtain ⟨p, tr, hr, hin, hresult⟩ := Machine.exists_runs_of_map hrun
  simp only [Prod.mk.injEq, decide_eq_true_eq] at hresult
  obtain ⟨hheld, hmax⟩ := hresult
  refine ⟨tr, p, hr, hheld,
    (held_bytes_bounded_iff hr (noReset_lateBlock hin).resetsTidily).2 ?_⟩
  rintro e he ⟨f, hinput, hbad⟩
  have hlong := hbad.overlong
  rw [hmax e he] at hlong
  have hmem : e.input ∈ lateBlock 64 (by decide) := hin ▸ List.mem_map_of_mem he
  rw [hinput] at hmem
  simp only [lateBlock, List.mem_cons, List.not_mem_nil, or_false, Operation.act.injEq,
    Action.receiveFrame.injEq, reduceCtorEq, false_or] at hmem
  rcases hmem with rfl | rfl
  · cases hbad.type
  · exact absurd hlong (by decide +kernel)

/-- The first fragment of a late block is held although it exceeds the limit. -/
theorem overlong_fragment_held :
    ∃ tr p, Machine.Runs operate (ofConfig { maxHeaderListSize := 64 }) tr p ∧ NoReset tr ∧
      p.closed = false ∧ p.maxHeaderListSize = 64 ∧ p.heldHeaderBytes = 65 := by
  have hrun : (Machine.run operate (ofConfig { maxHeaderListSize := 64 })
      (lateBlock 65 (by decide))).map (fun x =>
        (x.1.closed, x.1.maxHeaderListSize, x.1.heldHeaderBytes)) = .ok (false, 64, 65) := by
    decide +kernel
  obtain ⟨p, tr, hr, hin, hresult⟩ := Machine.exists_runs_of_map hrun
  simp only [Prod.mk.injEq] at hresult
  exact ⟨tr, p, hr, noReset_lateBlock hin, hresult⟩

end Chttp2
