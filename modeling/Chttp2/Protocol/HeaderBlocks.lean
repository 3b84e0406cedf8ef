import Chttp2.Protocol.HeaderState

/-!
# Decoding of header blocks

The decoder keeps its table in step with the peer's encoder only if it decodes every header block.
`headerBlocks` puts the blocks of a trace together from its HEADERS and CONTINUATION frames alone,
and `BlocksDecoded` relates them to the calls of `hpack.decode`.

A block that a HEADERS frame brings in full to a stream which refuses it is not decoded
(`Entry.skipsBlock`). A run without such frames has decoded all its blocks in order, and no other run
has (`blocks_decoded_iff`).
-/

set_option autoImplicit false

namespace Chttp2

open ProtocolState

/-! ## The blocks that the peer sends -/

/-- The header block, with its stream, that a step leaves open. -/
def Entry.openBlock (block : Option (StreamId × Bytes)) (e : Entry) : Option (StreamId × Bytes) :=
  match e.input with
  | .receiveFrame f =>
    match f.header.type with
    | .headers =>
      if f.header.hasEndHeadersFlag then none else some (f.header.streamId, f.headerFragment)
    | .continuation =>
      if f.header.hasEndHeadersFlag then none else block.map fun b => (b.1, b.2 ++ f.data)
    | _ => block
  | _ => block

/-- The header block that a step completes. -/
def Entry.completedBlock (block : Option (StreamId × Bytes)) (e : Entry) :
    Option (StreamId × Bytes) :=
  match e.input with
  | .receiveFrame f =>
    match f.header.type with
    | .headers =>
      if f.header.hasEndHeadersFlag then some (f.header.streamId, f.headerFragment) else none
    | .continuation =>
      if f.header.hasEndHeadersFlag then block.map fun b => (b.1, b.2 ++ f.data) else none
    | _ => none
  | _ => none

/-- The header block that is open after a trace. -/
def openBlock (tr : List Entry) : Option (StreamId × Bytes) := tr.foldl Entry.openBlock none

/-- The complete header blocks of a trace, in the order of their arrival. -/
def headerBlocks (tr : List Entry) : List (StreamId × Bytes) :=
  Machine.collect (fun before e => (Entry.completedBlock (openBlock before) e).toList) tr

@[simp] theorem openBlock_snoc (tr : List Entry) (e : Entry) :
    openBlock (tr ++ [e]) = Entry.openBlock (openBlock tr) e := by
  simp [openBlock]

@[simp] theorem headerBlocks_snoc (tr : List Entry) (e : Entry) :
    headerBlocks (tr ++ [e]) =
      headerBlocks tr ++ (Entry.completedBlock (openBlock tr) e).toList :=
  Machine.collect_snoc tr e

/-- A HEADERS frame with a complete block arrives on a live stream that refuses it. -/
def Entry.skipsBlock (e : Entry) : Prop :=
  match e.input with
  | .receiveFrame f => f.header.type = .headers ∧ f.header.hasEndHeadersFlag = true ∧
      ∃ s, e.pre.streams.find? f.header.streamId = some s ∧ s.Refuses
  | _ => False

/-- The block of a call of `hpack.decode`, with its stream. -/
def DecodeCall.received (c : DecodeCall) : StreamId × Bytes := (c.streamId, c.block)

/-- The table of a decoder that has decoded the blocks in order. -/
def Hpack.tableAfter (limit : Nat) (table : HpackTable) (blocks : List (StreamId × Bytes)) :
    HpackTable :=
  blocks.foldl (fun t b => (Hpack.decodeBlock limit t b.2).1) table

@[simp] theorem Hpack.tableAfter_append (limit : Nat) (table : HpackTable)
    (a b : List (StreamId × Bytes)) :
    Hpack.tableAfter limit table (a ++ b) =
      Hpack.tableAfter limit (Hpack.tableAfter limit table a) b :=
  List.foldl_append

/-! ## The decoder's part of a step -/

namespace ProtocolState

variable {p p' : ProtocolState} {s : Stream} {r : ProtocolStepResult} {f : RawFrame} {a : Action}

/-- The bytes of the open header block. -/
def pendingBlock (p : ProtocolState) : Bytes :=
  match p.streams.find? p.continuationStreamId with
  | some s => s.pendingHeaderBlock
  | none => p.ghostHeaderBlock

/-- The step has called the decoder with the given block, or not at all. -/
structure Decodes (p p' : ProtocolState) (call : Option (StreamId × Bytes)) : Prop where
  log : p'.decodeLog =
    p.decodeLog ++ call.toList.map fun c => ⟨c.1, c.2, (p.decodedBlock c.2).2⟩
  table : p'.hpack.decodeTable =
    call.elim p.hpack.decodeTable fun c => (p.decodedBlock c.2).1

theorem Decodes.nothing (hlog : p'.decodeLog = p.decodeLog)
    (htable : p'.hpack.decodeTable = p.hpack.decodeTable) : Decodes p p' none :=
  ⟨by simp [hlog], htable⟩

theorem decodes_ending {b : Bool} (h : Ending p s b p' r) : Decodes p p' none := by
  cases h <;> exact .nothing rfl rfl

/-- The complete block of a stream is decoded once. -/
theorem decodes_blockStep {b : Bool} (h : BlockStep p s b p' r) :
    Decodes p p' (some (s.streamId, s.pendingHeaderBlock)) := by
  have hend : ∀ {u : Stream} {b : Bool} {p' : ProtocolState} {r : ProtocolStepResult},
      Ending (p.afterDecode s.streamId s.pendingHeaderBlock) u b p' r →
        Decodes p p' (some (s.streamId, s.pendingHeaderBlock)) := by
    intro u b p' r hend
    obtain ⟨hlog, htable⟩ := decodes_ending hend
    exact ⟨by simpa [afterDecode] using hlog, htable⟩
  cases h with
  | headers headers cl hd hsize hv hfinal h => exact hend h
  | trailers headers cl hd hsize hv hfinal hconnect h => exact hend h
  | _ => exact ⟨rfl, rfl⟩

/-- Frames without header bytes do not reach the decoder. -/
theorem FrameStep.decodes_nothing (hstep : FrameStep p f p' r) (hopen : p'.closed = false)
    (hheaders : f.header.type ≠ .headers) (hcontinuation : f.header.type ≠ .continuation) :
    Decodes p p' none ∧ p'.expectingContinuation = p.expectingContinuation := by
  cases hstep with
  | reported => exact ⟨.nothing rfl rfl, rfl⟩
  | connectionFailed => cases hopen
  | dataStored s ht hfind hok hfinal htake hbody hend =>
    exact ⟨⟨(decodes_ending hend).log, (decodes_ending hend).table⟩,
      (congrArg ProtocolState.expectingContinuation hend.eq_with :)⟩
  | headersRefused s ht => exact absurd ht hheaders
  | ghostHeaders ht => exact absurd ht hheaders
  | ghostHeadersOpen ht => exact absurd ht hheaders
  | headersOpen s ht => exact absurd ht hheaders
  | headersBlock s ht => exact absurd ht hheaders
  | settingsApplied ht hack happ hbodies =>
    have htuned := tuned_of_settings happ
    have hsame := sameHeaders_bodySteps hbodies
    refine ⟨.nothing (hsame.decodeLog.trans ?_) (hsame.hpack.trans htuned.decodeTable),
      hsame.expectingContinuation.trans ?_⟩
    · rw [htuned.eq]
    · rw [htuned.eq]
  | connectionWindow ht hid hadd hbodies =>
    have hsame := sameHeaders_bodySteps hbodies
    exact ⟨.nothing hsame.decodeLog hsame.hpack, hsame.expectingContinuation⟩
  | streamWindow s ht hid hfind hadd hbody =>
    have hsame := sameHeaders_bodyStep hbody
    exact ⟨.nothing hsame.decodeLog hsame.hpack, hsame.expectingContinuation⟩
  | ghostContinuationOpen ht => exact absurd ht hcontinuation
  | ghostContinuation ht => exact absurd ht hcontinuation
  | continuationOpen s ht => exact absurd ht hcontinuation
  | continuationBlock s ht => exact absurd ht hcontinuation
  | _ => exact ⟨.nothing rfl rfl, rfl⟩

/-! ## The open block -/

theorem pendingBlock_of_find? (h : p.streams.find? p.continuationStreamId = some s) :
    p.pendingBlock = s.pendingHeaderBlock := by
  rw [pendingBlock, h]

theorem pendingBlock_of_none (h : p.streams.find? p.continuationStreamId = none) :
    p.pendingBlock = p.ghostHeaderBlock := by
  rw [pendingBlock, h]

/-- The stream that leaves in the middle of its block leaves the bytes behind. -/
theorem pendingBlock_removeStream (hp : HeaderState True p) {id : StreamId}
    (hfind : p.streams.find? id = some s) (hexp : p.expectingContinuation = true) :
    (p.removeStream s).pendingBlock = p.pendingBlock := by
  have hkey : s.streamId = id := KeyedTable.key_of_find? hfind
  have hok := hp.streams.find hfind
  by_cases hid : p.continuationStreamId = s.streamId
  · have hw : s.waitingForContinuation = true := hok.waiting.2 ⟨hexp, hid⟩
    have hgone : (p.removeStream s).streams.find? (p.removeStream s).continuationStreamId = none := by
      show (p.streams.erase s.streamId).find? p.continuationStreamId = none
      rw [hid, KeyedTable.find?_erase_self]
    have hlive : p.streams.find? p.continuationStreamId = some s := by
      rw [hid, hkey]
      exact hfind
    rw [pendingBlock_of_none hgone, pendingBlock_of_find? hlive]
    -- an empty part is not written to the orphaned block, which is empty already
    cases hpending : s.pendingHeaderBlock with
    | nil =>
      have hghost : p.ghostHeaderBlock = [] := by
        by_contra hne
        rw [(hp.ghost trivial hne).2] at hlive
        cases hlive
      simp [removeStream, hw, hpending, hghost]
    | cons b bs => simp [removeStream, hw, hpending]
  · have hw : s.waitingForContinuation = false := by
      by_contra hw
      exact hid (hok.waiting.1 (by simpa using hw)).2
    have hsame : (p.streams.erase s.streamId).find? p.continuationStreamId =
        p.streams.find? p.continuationStreamId := KeyedTable.find?_erase_ne _ hid
    simp only [pendingBlock, removeStream, hw, hsame, Bool.false_and, Bool.false_eq_true, if_false]

/-- Sending a body does not touch the open block of another stream. -/
theorem pendingBlock_bodyStep (h : BodyStep p s p' r) (hne : p.continuationStreamId ≠ s.streamId) :
    p'.pendingBlock = p.pendingBlock := by
  have hset : ∀ u : Stream, u.streamId = s.streamId →
      (p.streams.set u).find? p.continuationStreamId = p.streams.find? p.continuationStreamId := by
    intro u hu
    exact KeyedTable.find?_set_ne _ (hu ▸ hne)
  cases h with
  | idle => rfl
  | partly n => simp only [pendingBlock, putStream, hset (s.advanceBody n) rfl]
  | wholly n =>
    simp only [pendingBlock, putStream,
      hset { s.advanceBody n with streamState := .halfClosedLocal } rfl]
  | finished => simp only [pendingBlock, KeyedTable.find?_erase_ne _ hne]

/-- A local operation that leaves the connection open does not reach the decoder and leaves the open
block alone. -/
theorem ActionStep.keepsBlock (hstep : ActionStep p a p' r) (ha : ∀ f, a ≠ .receiveFrame f)
    (hp : HeaderState True p) (hopen : p'.closed = false) :
    Decodes p p' none ∧ p'.expectingContinuation = p.expectingContinuation ∧
      p'.continuationStreamId = p.continuationStreamId ∧
      (p.expectingContinuation = true → p'.pendingBlock = p.pendingBlock) := by
  cases hstep with
  | opened request rehash hcan hvalid hroom hpos hmax hbody =>
    have hsame := sameHeaders_bodyStep hbody
    refine ⟨.nothing hsame.decodeLog hsame.hpack, hsame.expectingContinuation,
      hsame.continuationStreamId, fun hexpecting => ?_⟩
    have hne : p.continuationStreamId ≠ p.nextStreamId := Nat.ne_of_lt (hp.opened hexpecting)
    rw [pendingBlock_bodyStep hbody hne]
    have hlookup := find?_opening p request rehash p.continuationStreamId
    rw [if_neg hne] at hlookup
    have hghost : ((p.opening request rehash).putStream (p.openedStream request)).ghostHeaderBlock =
      p.ghostHeaderBlock := rfl
    have hid : ((p.opening request rehash).putStream
        (p.openedStream request)).continuationStreamId = p.continuationStreamId := rfl
    rw [pendingBlock, pendingBlock, hid, hlookup, hghost]
  | cancelled id code s hwas hfind =>
    exact ⟨.nothing rfl rfl, rfl, rfl, pendingBlock_removeStream hp hfind⟩
  | closed => cases hopen
  | transportLost => cases hopen
  | transportLostAgain => cases hopen
  | frame f => exact absurd rfl (ha f)
  | frameIgnored f => exact absurd rfl (ha f)
  | _ => exact ⟨.nothing rfl rfl, rfl, rfl, fun _ => rfl⟩

/-- The calls of the decoder for a received frame, and the block that stays open, if `block` is the
/-- How a step changes the header block that is open. -/
open one before the frame. -/
structure BlockAccount (p p' : ProtocolState) (block : Option (StreamId × Bytes)) (e : Entry) :
    Prop where
  opened : p'.expectingContinuation = true →
    Entry.openBlock block e = some (p'.continuationStreamId, p'.pendingBlock)
  decoded : ¬ e.skipsBlock → Decodes p p' (Entry.completedBlock block e)
  skipped : e.skipsBlock → Decodes p p' none ∧ Entry.completedBlock block e ≠ none

theorem BlockAccount.of_idle {block : Option (StreamId × Bytes)} {e : Entry}
    (hexp : p'.expectingContinuation = false)
    (hdecoded : ¬ e.skipsBlock → Decodes p p' (Entry.completedBlock block e))
    (hskipped : e.skipsBlock → Decodes p p' none ∧ Entry.completedBlock block e ≠ none) :
    BlockAccount p p' block e := by
  refine ⟨fun h => ?_, hdecoded, hskipped⟩
  rw [hexp] at h
  cases h

/-- A HEADERS frame completes its block or leaves it open; only a stream that refuses it keeps a
complete block from the decoder. -/
theorem FrameStep.blockAccount_headers {block : Option (StreamId × Bytes)}
    (hstep : FrameStep p f p' r) (hp : HeaderState True p) (ht : f.header.type = .headers)
    (hexp : p.expectingContinuation = false) (hopen : p'.closed = false) :
    BlockAccount p p' block ⟨p, .receiveFrame f, r⟩ := by
  have hopened : Entry.openBlock block ⟨p, .receiveFrame f, r⟩ =
      if f.header.hasEndHeadersFlag then none else some (f.header.streamId, f.headerFragment) := by
    simp only [Entry.openBlock, ht]
  have hcompleted : Entry.completedBlock block ⟨p, .receiveFrame f, r⟩ =
      if f.header.hasEndHeadersFlag then some (f.header.streamId, f.headerFragment) else none := by
    simp only [Entry.completedBlock, ht]
  have hpending : ∀ {s : Stream}, p.streams.find? f.header.streamId = some s →
      s.pendingHeaderBlock = [] := fun hfind =>
    (hp.streams.find hfind).pending (hp.not_waiting hexp (KeyedTable.mem_of_find? hfind))
  -- the stream that refuses a skipped block
  have hrefuses : ∀ {s : Stream}, p.streams.find? f.header.streamId = some s → ¬ s.Refuses →
      ¬ Entry.skipsBlock ⟨p, .receiveFrame f, r⟩ := by
    rintro s hfind hok ⟨-, -, u, hu, hbad⟩
    exact hok (Option.some.inj (hfind.symm.trans hu) ▸ hbad)
  have hgone : p.streams.find? f.header.streamId = none →
      ¬ Entry.skipsBlock ⟨p, .receiveFrame f, r⟩ := by
    rintro hnone ⟨-, -, u, hu, -⟩
    rw [show p.streams.find? f.header.streamId = some u from hu] at hnone
    cases hnone
  cases hstep with
  | connectionFailed => cases hopen
  | headersRefused s _ hfind hbad =>
    refine .of_idle hexp (fun hnot => ?_) (fun hskip => ⟨.nothing rfl rfl, ?_⟩)
    · rw [hcompleted, if_neg fun hend => hnot ⟨ht, hend, s, hfind, hbad⟩]
      exact .nothing rfl rfl
    · rw [hcompleted, if_pos hskip.2.1]
      exact Option.some_ne_none _
  | ghostHeaders _ hnone hid hend =>
    refine .of_idle hexp (fun _ => ?_) fun hskip => absurd hskip (hgone hnone)
    rw [hcompleted, if_pos hend]
    exact ⟨rfl, rfl⟩
  | ghostHeadersOpen _ hnone hid hend =>
    refine ⟨fun _ => ?_, fun _ => ?_, fun hskip => absurd hskip (hgone hnone)⟩
    · rw [hopened, hend, pendingBlock_of_none hnone]
      rfl
    · rw [hcompleted, hend]
      exact .nothing rfl rfl
  | headersOpen s _ hfind hok hend =>
    refine ⟨fun _ => ?_, fun _ => ?_, fun hskip => absurd hskip (hrefuses hfind hok)⟩
    · have hlive : (p.streams.set (s.openBlock f.headerFragment
          f.header.hasEndStreamFlag)).find? f.header.streamId =
            some (s.openBlock f.headerFragment f.header.hasEndStreamFlag) := by
        have hkey : (s.openBlock f.headerFragment f.header.hasEndStreamFlag).streamId =
          f.header.streamId := (KeyedTable.key_of_find? hfind :)
        rw [KeyedTable.find?_set_of_find? hfind hkey, if_pos rfl]
      rw [hopened, hend, pendingBlock_of_find? hlive]
      show some (f.header.streamId, f.headerFragment) =
        some (f.header.streamId, s.pendingHeaderBlock ++ f.headerFragment)
      rw [hpending hfind, List.nil_append]
    · rw [hcompleted, hend]
      exact .nothing rfl rfl
  | headersBlock s _ hfind hok hend hblock =>
    have hidle := (congrArg ProtocolState.expectingContinuation hblock.eq_with :)
    refine .of_idle (hidle.trans hexp) (fun _ => ?_) fun hskip => absurd hskip (hrefuses hfind hok)
    have hdecodes := decodes_blockStep hblock
    have hkey : s.streamId = f.header.streamId := KeyedTable.key_of_find? hfind
    rw [show (s.withFragment f.headerFragment).streamId = f.header.streamId from hkey,
      show (s.withFragment f.headerFragment).pendingHeaderBlock = f.headerFragment by
        rw [Stream.withFragment, hpending hfind, List.nil_append]] at hdecodes
    rw [hcompleted, if_pos hend]
    exact hdecodes
  | reported h => cases h <;> simp_all
  | _ => simp_all

/-- A CONTINUATION frame extends the open block or completes it. -/
theorem FrameStep.blockAccount_continuation {block : Option (StreamId × Bytes)}
    (hstep : FrameStep p f p' r) (ht : f.header.type = .continuation)
    (hblock : p.expectingContinuation = true →
      block = some (p.continuationStreamId, p.pendingBlock))
    (hopen : p'.closed = false) : BlockAccount p p' block ⟨p, .receiveFrame f, r⟩ := by
  -- END_HEADERS tells whether the block stays open or is complete
  have hopened : Entry.openBlock block ⟨p, .receiveFrame f, r⟩ =
      if f.header.hasEndHeadersFlag then none else block.map fun b => (b.1, b.2 ++ f.data) := by
    simp only [Entry.openBlock, ht]
  have hcompleted : Entry.completedBlock block ⟨p, .receiveFrame f, r⟩ =
      if f.header.hasEndHeadersFlag then block.map fun b => (b.1, b.2 ++ f.data) else none := by
    simp only [Entry.completedBlock, ht]
  have hnot : ¬ Entry.skipsBlock ⟨p, .receiveFrame f, r⟩ := by
    rintro ⟨hheaders, -⟩
    rw [ht] at hheaders
    cases hheaders
  cases hstep with
  | connectionFailed => cases hopen
  | ghostContinuationOpen _ hexp hid hnone hend =>
    refine ⟨fun _ => ?_, fun _ => ?_, fun hskip => absurd hskip hnot⟩
    · rw [← hid] at hnone
      rw [hopened, hend, hblock hexp, pendingBlock_of_none hnone, pendingBlock_of_none (by exact hnone)]
      rfl
    · rw [hcompleted, hend]
      exact .nothing rfl rfl
  | ghostContinuation _ hexp hid hnone hend =>
    refine .of_idle rfl (fun _ => ?_) fun hskip => absurd hskip hnot
    rw [hcompleted, if_pos hend, hblock hexp, pendingBlock_of_none (hid ▸ hnone), hid]
    exact ⟨rfl, rfl⟩
  | continuationOpen s _ hexp hid hfind hend =>
    refine ⟨fun _ => ?_, fun _ => ?_, fun hskip => absurd hskip hnot⟩
    · have hlive : (p.streams.set (s.withFragment f.data)).find? p.continuationStreamId =
          some (s.withFragment f.data) := by
        have hkey : (s.withFragment f.data).streamId = f.header.streamId :=
          (KeyedTable.key_of_find? hfind :)
        rw [hid, KeyedTable.find?_set_of_find? hfind hkey, if_pos rfl]
      rw [hopened, hend, hblock hexp, pendingBlock_of_find? (hid ▸ hfind),
        pendingBlock_of_find? (by exact hlive)]
      rfl
    · rw [hcompleted, hend]
      exact .nothing rfl rfl
  | continuationBlock s _ hexp hid hfind hend hstep =>
    have hidle := (congrArg ProtocolState.expectingContinuation hstep.eq_with :)
    refine .of_idle hidle (fun _ => ?_) fun hskip => absurd hskip hnot
    obtain ⟨hlog, htable⟩ := decodes_blockStep hstep
    have hkey : (s.endBlock f.data).streamId = p.continuationStreamId :=
      (KeyedTable.key_of_find? hfind).trans hid.symm
    rw [hkey] at hlog htable
    rw [hcompleted, if_pos hend, hblock hexp, pendingBlock_of_find? (hid ▸ hfind)]
    exact ⟨hlog, htable⟩
  | reported h => cases h <;> simp_all
  | _ => simp_all

/-- Every received frame that leaves the connection open keeps the account of header blocks. -/
theorem FrameStep.blockAccount {block : Option (StreamId × Bytes)} (hstep : FrameStep p f p' r)
    (hp : HeaderState True p) (hblock : p.expectingContinuation = true →
      block = some (p.continuationStreamId, p.pendingBlock))
    (hnext : p.expectingContinuation = true → f.header.type ≠ .continuation → p'.closed = true)
    (hopen : p'.closed = false) : BlockAccount p p' block ⟨p, .receiveFrame f, r⟩ := by
  have hidle : f.header.type ≠ .continuation → p.expectingContinuation = false := by
    intro ht
    by_contra hexp
    rw [hnext (by simpa using hexp) ht] at hopen
    cases hopen
  by_cases hheaders : f.header.type = .headers
  · exact hstep.blockAccount_headers hp hheaders (hidle (by simp [hheaders])) hopen
  by_cases hcontinuation : f.header.type = .continuation
  · exact hstep.blockAccount_continuation hcontinuation hblock hopen
  · obtain ⟨hdecodes, hexp⟩ := hstep.decodes_nothing hopen hheaders hcontinuation
    have hcompleted : Entry.completedBlock block ⟨p, .receiveFrame f, r⟩ = none := by
      simp only [Entry.completedBlock]
    refine .of_idle (hexp.trans (hidle hcontinuation)) (fun _ => ?_) fun hskip => ?_
    · rw [hcompleted]
      exact hdecodes
    · exact absurd hskip.1 hheaders

/-- Every step that leaves the connection open keeps the account of header blocks. -/
theorem ActionStep.blockAccount {block : Option (StreamId × Bytes)} (hstep : ActionStep p a p' r)
    (hp : HeaderState True p) (hlost : p.transportClosed = true → p.closed = true)
    (hblock : p.expectingContinuation = true →
      block = some (p.continuationStreamId, p.pendingBlock))
    (hopen : p'.closed = false) : BlockAccount p p' block ⟨p, a, r⟩ := by
  have hlocal : (∀ f, a ≠ .receiveFrame f) → BlockAccount p p' block ⟨p, a, r⟩ := by
    intro ha
    obtain ⟨hdecodes, hexp, hid, hpending⟩ := hstep.keepsBlock ha hp hopen
    have hopened : Entry.openBlock block ⟨p, a, r⟩ = block := by
      cases a <;> first | rfl | exact absurd rfl (ha _)
    have hcompleted : Entry.completedBlock block ⟨p, a, r⟩ = none := by
      cases a <;> first | rfl | exact absurd rfl (ha _)
    refine ⟨fun h => ?_, fun _ => ?_, fun hskip => ?_⟩
    · rw [hexp] at h
      rw [hopened, hblock h, hid, hpending h]
    · rw [hcompleted]
      exact hdecodes
    · cases a <;> first | exact hskip.elim | exact absurd rfl (ha _)
  cases a with
  | receiveFrame f =>
    cases hstep with
    | frameIgnored _ h =>
      rw [h.elim id hlost] at hopen
      cases hopen
    | frame _ hwas hup hframe hnext => exact hframe.blockAccount hp hblock hnext hopen
  | _ => exact hlocal (by simp)

theorem ActionStep.decodeTableLimit_eq (hstep : ActionStep p a p' r) :
    p'.hpack.decodeTableLimit = p.hpack.decodeTableLimit := by
  cases hstep with
  | opened request rehash hcan hvalid hroom hpos hmax hbody =>
    exact (steady_bodyStep hbody).decodeTableLimit
  | frame f hopen hup hframe => exact hframe.steady.decodeTableLimit
  | _ => rfl

end ProtocolState

/-! ## Runs -/

/-- What holds of header blocks while a connection is open. -/
structure BlocksDecoded (config : ClientConfig) (tr : List Entry) (p : ProtocolState) : Prop where
  opened : p.expectingContinuation = true →
    openBlock tr = some (p.continuationStreamId, p.pendingBlock)
  log : (∀ e ∈ tr, ¬ e.skipsBlock) ∧ p.decodeLog.map DecodeCall.received = headerBlocks tr ∨
    (∃ e ∈ tr, e.skipsBlock) ∧ p.decodeLog.length < (headerBlocks tr).length
  limit : p.hpack.decodeTableLimit = (ofConfig config).hpack.decodeTableLimit
  table : p.hpack.decodeTable = Hpack.tableAfter (ofConfig config).hpack.decodeTableLimit
    (ofConfig config).hpack.decodeTable (p.decodeLog.map DecodeCall.received)

namespace BlocksDecoded

variable {config : ClientConfig} {tr : List Entry} {p p' : ProtocolState} {a : Action}
  {r : ProtocolStepResult} {call : Option (StreamId × Bytes)}

theorem received_of_decodes (h : Decodes p p' call) :
    p'.decodeLog.map DecodeCall.received = p.decodeLog.map DecodeCall.received ++ call.toList := by
  rw [h.log]
  cases call <;> simp [DecodeCall.received]

theorem table_of_decodes (hp : BlocksDecoded config tr p) (h : Decodes p p' call) :
    p'.hpack.decodeTable = Hpack.tableAfter (ofConfig config).hpack.decodeTableLimit
      (ofConfig config).hpack.decodeTable (p'.decodeLog.map DecodeCall.received) := by
  rw [received_of_decodes h, Hpack.tableAfter_append, ← hp.table, h.table, ← hp.limit]
  cases call <;> rfl

theorem step (hp : BlocksDecoded config tr p) (hstep : ActionStep p a p' r)
    (h : BlockAccount p p' (openBlock tr) ⟨p, a, r⟩) :
    BlocksDecoded config (tr ++ [⟨p, a, r⟩]) p' := by
  have hlimit := hstep.decodeTableLimit_eq.trans hp.limit
  have hopened : p'.expectingContinuation = true →
      openBlock (tr ++ [⟨p, a, r⟩]) = some (p'.continuationStreamId, p'.pendingBlock) := by
    intro hexp
    rw [openBlock_snoc]
    exact h.opened hexp
  by_cases hskip : Entry.skipsBlock ⟨p, a, r⟩
  · obtain ⟨hdecodes, hsome⟩ := h.skipped hskip
    refine ⟨hopened, Or.inr ⟨⟨_, by simp, hskip⟩, ?_⟩, hlimit, hp.table_of_decodes hdecodes⟩
    obtain ⟨block, hblock⟩ := Option.ne_none_iff_exists'.1 hsome
    have hlog := congrArg List.length (received_of_decodes hdecodes)
    have hle : p.decodeLog.length ≤ (headerBlocks tr).length := by
      rcases hp.log with ⟨-, heq⟩ | ⟨-, hlt⟩
      · rw [← heq, List.length_map]
      · exact hlt.le
    rw [headerBlocks_snoc, hblock]
    simp only [List.length_map, List.length_append, Option.toList_none, Option.toList_some,
      List.length_nil, List.length_singleton] at hlog ⊢
    omega
  · have hdecodes := h.decoded hskip
    refine ⟨hopened, ?_, hlimit, hp.table_of_decodes hdecodes⟩
    rcases hp.log with ⟨hnone, heq⟩ | ⟨⟨e, he, hbad⟩, hlt⟩
    · refine Or.inl ⟨fun e he => ?_, ?_⟩
      · rcases List.mem_append.1 he with he | he
        · exact hnone e he
        · rw [List.mem_singleton.1 he]
          exact hskip
      · rw [received_of_decodes hdecodes, heq, headerBlocks_snoc]
    · refine Or.inr ⟨⟨e, List.mem_append_left _ he, hbad⟩, ?_⟩
      have hlog := congrArg List.length (received_of_decodes hdecodes)
      rw [headerBlocks_snoc]
      simp only [List.length_map, List.length_append] at hlog ⊢
      omega

end BlocksDecoded

section Runs

variable {config : ClientConfig} {tr : List Entry} {p : ProtocolState}

theorem blocksDecoded_of_runs (h : Runs (ofConfig config) tr p) (hopen : p.closed = false) :
    BlocksDecoded config tr p := by
  refine runs_invariant_open (I := BlocksDecoded config) ?_ ?_ h hopen
  · exact ⟨(fun h => by cases h), Or.inl ⟨by simp, rfl⟩, rfl, rfl⟩
  · intro tr p a p' r hr hwas hI hstep hopen
    exact hI.step hstep (hstep.blockAccount (headerState_of_open hr hwas)
      (closed_of_lost_transport hr) hI.opened hopen)

/-- While the connection is open, the decoder has decoded exactly the header blocks that the peer has
sent, in order, and has the table of a decoder that decodes them all, if and only if no complete
block has arrived on a stream that refuses it. -/
theorem blocks_decoded_iff (h : Runs (ofConfig config) tr p) (hopen : p.closed = false) :
    (p.decodeLog.map DecodeCall.received = headerBlocks tr ∧
      p.hpack.decodeTable = Hpack.tableAfter (ofConfig config).hpack.decodeTableLimit
        (ofConfig config).hpack.decodeTable (headerBlocks tr)) ↔
      ∀ e ∈ tr, ¬ e.skipsBlock := by
  have hp := blocksDecoded_of_runs h hopen
  rcases hp.log with ⟨hnone, heq⟩ | ⟨⟨e, he, hskip⟩, hlt⟩
  · exact ⟨fun _ => hnone, fun _ => ⟨heq, heq ▸ hp.table⟩⟩
  · refine ⟨fun ⟨heq, _⟩ => ?_, fun hnone => absurd hskip (hnone e he)⟩
    rw [← heq, List.length_map] at hlt
    exact absurd hlt (lt_irrefl _)

end Runs

/-- A HEADERS frame on stream 1 whose block sets `x: y` with incremental indexing, or begins to. -/
def indexedFieldFrame (flags : UInt8) (n : Nat) : RawFrame :=
  .ofPayload { type := .headers, flags, streamId := 1 } ([0x40, 1, 0x78, 1, 0x79].take n)
    (lt_of_le_of_lt (List.length_take_le' _ _) (by decide)) first_streamId_lt

/-- The last CONTINUATION frame of such a block on stream 1. -/
def indexedFieldEnd (n : Nat) : RawFrame :=
  .ofPayload { type := .continuation, flags := 4, streamId := 1 } ([0x40, 1, 0x78, 1, 0x79].drop n)
    (lt_of_le_of_lt (by simp) (by decide : 5 < 2 ^ 24)) first_streamId_lt

/-- A block whose stream is cancelled in the middle of it is decoded. -/
theorem blocks_decoded_iff_of_cancel :
    ∃ tr p, Runs (ofConfig {}) tr p ∧ (headerBlocks tr).length = 2 ∧ ∀ e ∈ tr, ¬ e.skipsBlock := by
  have hrun : (Machine.run act (ofConfig {}) [.start, .receiveFrame emptySettingsFrame,
      .submitRequest getRequest (.id _), .receiveFrame (okResponseFrame 4),
      .receiveFrame (indexedFieldFrame 1 2), .cancelStream 1 .cancel,
      .receiveFrame (indexedFieldEnd 2)]).map (fun x => (x.1.closed, headerBlocks x.2,
        decide (x.1.decodeLog.map DecodeCall.received = headerBlocks x.2 ∧
          x.1.hpack.decodeTable = Hpack.tableAfter 4096 (ofConfig {}).hpack.decodeTable
            (headerBlocks x.2)))) =
      .ok (false, [(1, [0x88]), (1, [0x40, 1, 0x78, 1, 0x79])], true) := by decide +kernel
  obtain ⟨p, tr, hr, -, hresult⟩ := Machine.exists_runs_of_map hrun
  simp only [Prod.mk.injEq, decide_eq_true_eq] at hresult
  obtain ⟨hopen, hblocks, hdecoded⟩ := hresult
  exact ⟨tr, p, hr, by rw [hblocks]; rfl, (blocks_decoded_iff hr hopen).1 hdecoded⟩

/-- A second block on a stream whose response is complete, but whose request body is not yet sent, is
not decoded: its field is missing from the table. -/
theorem block_on_ended_stream_skipped :
    ∃ tr p, Runs (ofConfig {}) tr p ∧ p.closed = false ∧
      (headerBlocks tr).length = 2 ∧ p.decodeLog.length = 1 ∧
      p.hpack.decodeTable ≠ Hpack.tableAfter (ofConfig {}).hpack.decodeTableLimit
        (ofConfig {}).hpack.decodeTable (headerBlocks tr) := by
  have hrun : (Machine.run act (ofConfig {}) [.start, .receiveFrame (settingsFrame 4 0),
      .submitRequest postRequest (.id _), .receiveFrame (okResponseFrame 5),
      .receiveFrame (indexedFieldFrame 5 5)]).map (fun x => (x.1.closed, (headerBlocks x.2).length,
        x.1.decodeLog.length, decide (x.1.hpack.decodeTable ≠
          Hpack.tableAfter (ofConfig {}).hpack.decodeTableLimit (ofConfig {}).hpack.decodeTable
            (headerBlocks x.2)))) = .ok (false, 2, 1, true) := by decide +kernel
  obtain ⟨p, tr, hr, -, hresult⟩ := Machine.exists_runs_of_map hrun
  simp only [Prod.mk.injEq, decide_eq_true_eq] at hresult
  exact ⟨tr, p, hr, hresult⟩

end Chttp2
