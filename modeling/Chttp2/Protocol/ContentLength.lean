import Chttp2.Protocol.HeaderValidation
import Chttp2.Protocol.Reassembly
import Chttp2.Protocol.Twins

/-!
# Content lengths

The length that a response declares is recorded on its stream while a header block is validated, and
compared with the bytes received when the peer ends the stream. Informational blocks are validated by
the same loop, so a length that one of them declares is recorded as well, although nothing else of the
block is stored (`Stream.Measures`). `content_length_verdict_iff` says when the verdict is nevertheless
the one that the final response asks for: at the end of the stream, and when a block arrives that
declares another length than a block before it.
-/

set_option autoImplicit false

namespace Chttp2

open ProtocolState

/-! ## Declared lengths -/

/-- The block declares the length. -/
def DeclaresLength (fields : List HeaderField) (n : Nat) : Prop :=
  ∃ f ∈ fields, f.name = ascii "content-length" ∧ digitsValue f.value = n

/-- The recorded length is what the blocks declare; a negative number stands for none. -/
structure LengthRecorded (blocks : List (List HeaderField)) (recorded : Int) : Prop where
  agrees : ∀ fields ∈ blocks, ∀ n, DeclaresLength fields n → recorded = n
  source : 0 ≤ recorded → ∃ fields ∈ blocks, ∃ n, DeclaresLength fields n ∧ recorded = n

section Declared

variable {recorded : Int} {fields : List HeaderField} {blocks : List (List HeaderField)} {n : Nat}

/-- A length on record is not overwritten. -/
theorem lengthAfter_of_recorded (h : LengthsAgree recorded fields) (h0 : 0 ≤ recorded) :
    lengthAfter false recorded fields = recorded := by
  induction fields with
  | nil => rfl
  | cons field fields ih =>
    obtain ⟨hfield, hrest⟩ := lengthsAgree_cons.1 h
    have hsame : lengthAfterField false recorded field = recorded := by
      by_cases hname : field.name = ascii "content-length"
      · rw [lengthAfterField, if_pos (by simp [hname]), (hfield hname).agrees h0]
      · rw [lengthAfterField, if_neg (by simp [hname])]
    rw [hsame] at hrest
    rw [lengthAfter, hsame, ih hrest]

theorem lengthAfter_of_undeclared (h : ∀ n, ¬ DeclaresLength fields n) :
    lengthAfter false recorded fields = recorded := by
  induction fields with
  | nil => rfl
  | cons field fields ih =>
    have hname : field.name ≠ ascii "content-length" :=
      fun hname => h _ ⟨field, List.mem_cons_self, hname, rfl⟩
    rw [lengthAfter, lengthAfterField, if_neg (by simp [hname])]
    refine ih fun n hn => ?_
    obtain ⟨f, hf, hdeclares⟩ := hn
    exact h n ⟨f, List.mem_cons_of_mem _ hf, hdeclares⟩

theorem lengthAfter_of_declared (h : LengthsAgree recorded fields) (hn : DeclaresLength fields n) :
    lengthAfter false recorded fields = n := by
  induction fields generalizing recorded with
  | nil =>
    obtain ⟨f, hf, -⟩ := hn
    cases hf
  | cons field fields ih =>
    have hrest := (lengthsAgree_cons.1 h).2
    obtain ⟨f, hf, hname, rfl⟩ := hn
    by_cases hfield : field.name = ascii "content-length"
    · rw [lengthAfterField, if_pos (by simp [hfield])] at hrest
      rw [lengthAfter, lengthAfterField, if_pos (by simp [hfield]),
        lengthAfter_of_recorded hrest (Int.natCast_nonneg _),
        h.2 field List.mem_cons_self f hf hfield hname]
    · have hf : f ∈ fields := (List.mem_cons.1 hf).resolve_left fun heq => hfield (heq ▸ hname)
      exact ih hrest ⟨f, hf, hname, rfl⟩

/-- The record after one more block. -/
theorem LengthRecorded.snoc (h : LengthRecorded blocks recorded)
    (hagree : LengthsAgree recorded fields) :
    LengthRecorded (blocks ++ [fields]) (lengthAfter false recorded fields) where
  agrees block hblock n hn := by
    rcases List.mem_append.1 hblock with hblock | hblock
    · have hrecorded := h.agrees block hblock n hn
      rw [lengthAfter_of_recorded hagree (hrecorded ▸ Int.natCast_nonneg n), hrecorded]
    · rw [List.mem_singleton.1 hblock] at hn
      exact lengthAfter_of_declared hagree hn
  source h0 := by
    by_cases hn : ∃ n, DeclaresLength fields n
    · obtain ⟨n, hn⟩ := hn
      exact ⟨fields, by simp, n, hn, lengthAfter_of_declared hagree hn⟩
    · rw [lengthAfter_of_undeclared (not_exists.1 hn)] at h0 ⊢
      obtain ⟨block, hblock, hdeclares⟩ := h.source h0
      exact ⟨block, List.mem_append_left _ hblock, hdeclares⟩

/-- The length on record is in the way of a block, well formed by itself, that declares another
one. -/
theorem LengthRecorded.agree_iff (h : LengthRecorded blocks recorded)
    (halone : LengthsAgree (-1) fields) : LengthsAgree recorded fields ↔
      ((∃ n, DeclaresLength fields n) →
        ∀ block ∈ blocks, ∀ n, DeclaresLength block n → DeclaresLength fields n) := by
  constructor
  · rintro hagree ⟨-, f, hf, hname, -⟩ block hblock n hn
    have hrecorded : recorded = n := h.agrees block hblock n hn
    have hvalue := (hagree.1 f hf hname).agrees (hrecorded ▸ Int.natCast_nonneg n)
    rw [hrecorded, Int.natCast_inj] at hvalue
    exact ⟨f, hf, hname, hvalue.symm⟩
  · refine fun hall => ⟨fun f hf hname => ⟨(halone.1 f hf hname).wellFormed, fun h0 => ?_⟩, halone.2⟩
    obtain ⟨block, hblock, n, hn, hrecorded⟩ := h.source h0
    obtain ⟨g, hg, hgname, rfl⟩ := hall ⟨_, f, hf, hname, rfl⟩ block hblock n hn
    rw [hrecorded, halone.2 g hg f hf hgname hname]

theorem lengthRecorded_nil (h : recorded < 0) : LengthRecorded [] recorded :=
  ⟨fun _ hblock => absurd hblock List.not_mem_nil, fun h0 => absurd h (not_lt.2 h0)⟩

end Declared

/-! ## The record of a stream -/

/-- The header blocks among the parts. -/
def blocksOf (parts : List ResponsePart) : List (List HeaderField) :=
  parts.flatMap fun
    | .block fields => [fields]
    | .data _ => []

/-- The body bytes among the parts. -/
def bytesOf (parts : List ResponsePart) : Bytes :=
  parts.flatMap fun
    | .block _ => []
    | .data bytes => bytes

/-- The record holds the length that the blocks declare and the number of the body bytes. -/
structure Stream.Measured (parts : List ResponsePart) (s : Stream) : Prop where
  expected : LengthRecorded (blocksOf parts) s.expectedContentLength
  received : s.receivedContentLength = (bytesOf parts).length
  status : s.finalResponseHeadersReceived = true → ∃ code, statusOf s.resp.headers = some code

/-- What the record of a stream holds of the parts received on it, with their lengths. -/
def Stream.Measures (parts : List ResponsePart) (s : Stream) : Prop :=
  s.Collects parts ∧ (s.remoteEndStreamReceived = true ∨ s.Measured parts)

section Measures

variable {s u : Stream} {parts : List ResponsePart} {headers : List HeaderField} {cl : Int}
  {endStream : Bool}

theorem blocksOf_snoc : blocksOf (parts ++ [.block headers]) = blocksOf parts ++ [headers] := by
  simp [blocksOf]

theorem blocksOf_infos (infos : List (List HeaderField)) :
    blocksOf (infos.map .block) = infos := by
  simp [blocksOf, List.flatMap_map]

theorem bytesOf_snoc : bytesOf (parts ++ [.block headers]) = bytesOf parts := by
  simp [bytesOf]

/-- A block before the final response has a status, and goes without END_STREAM if that is an
informational one. -/
theorem ValidBlock.status (h : ValidBlock s headers endStream)
    (hfinal : s.finalResponseHeadersReceived = false) :
    ∃ code, statusOf headers = some code ∧ (code / 100 = 1 → endStream = false) := by
  obtain ⟨status, rest, code, rfl, hname, -, hvalue, -, hinfo⟩ := h.start hfinal
  refine ⟨code, ?_, hinfo⟩
  rw [statusOf, List.find?_cons_of_pos (by simpa using hname)]
  exact tryParseStatusCode_eq_some.2 hvalue

theorem ValidBlock.goesOn (h : ValidBlock s headers endStream)
    (hfinal : s.finalResponseHeadersReceived = false) (hinfo : Informational headers) :
    endStream = false := by
  obtain ⟨code, hstatus, hgoesOn⟩ := h.status hfinal
  obtain ⟨code', hstatus', hcode⟩ := hinfo
  rw [hstatus, Option.some.injEq] at hstatus'
  exact hgoesOn (hstatus' ▸ hcode)

theorem errorCode_validate_iff (s : Stream) (headers : List HeaderField) (endStream : Bool) :
    (validateResponseHeaderBlock s headers endStream).errorCode = .noError ↔
      ValidBlock s headers endStream := by
  cases hfinal : s.finalResponseHeadersReceived with
  | true =>
    refine ⟨fun h => ((validate_trailers_iff hfinal _).1 ⟨rfl, h⟩).1, fun h => ?_⟩
    have hrule := (validate_trailers_iff hfinal _).2 ⟨h, rfl⟩
    exact hrule.1 ▸ hrule.2
  | false =>
    refine ⟨fun h => ((validate_response_iff hfinal _).1 ⟨rfl, h⟩).1, fun h => ?_⟩
    by_cases hinfo : StatusInformational headers
    · have hrule := (validate_response_iff hfinal _).2 ⟨h, Or.inl ⟨hinfo, rfl⟩⟩
      exact hrule.1 ▸ hrule.2
    · have hrule := (validate_response_iff hfinal _).2 ⟨h, Or.inr ⟨hinfo, rfl⟩⟩
      exact hrule.1 ▸ hrule.2

/-- A block of a response that is not rejected has a status, and puts on record the length that it
declares. -/
theorem validate_length (hfinal : s.finalResponseHeadersReceived = false)
    (hv : validateResponseHeaderBlock s.clearBlock headers endStream = .informational cl ∨
      validateResponseHeaderBlock s.clearBlock headers endStream = .accepted cl) :
    LengthsAgree s.expectedContentLength headers ∧
      cl = lengthAfter false s.expectedContentLength headers ∧
      ∃ code, statusOf headers = some code := by
  have hfinal' : s.clearBlock.finalResponseHeadersReceived = false := hfinal
  have hrule : ValidBlock s.clearBlock headers endStream ∧
      cl = lengthAfter false s.expectedContentLength headers := by
    rcases hv with hv | hv
    · obtain ⟨hvalid, ⟨-, hcl⟩ | ⟨-, hcl⟩⟩ := (validate_response_iff hfinal' _).1 ⟨hv, rfl⟩
      · exact ⟨hvalid, HeaderVerdict.informational.inj hcl⟩
      · cases hcl
    · obtain ⟨hvalid, ⟨-, hcl⟩ | ⟨-, hcl⟩⟩ := (validate_response_iff hfinal' _).1 ⟨hv, rfl⟩
      · cases hcl
      · exact ⟨hvalid, HeaderVerdict.accepted.inj hcl⟩
  obtain ⟨hvalid, hcl⟩ := hrule
  obtain ⟨code, hstatus, -⟩ := hvalid.status hfinal'
  exact ⟨hvalid.lengths hfinal', hcl, code, hstatus⟩

theorem collecting_measures : Collecting fun parts s => s.Measures parts where
  congr h hsame := by
    refine ⟨h.1.congr hsame, ?_⟩
    rw [hsame.remote]
    refine h.2.imp_right fun hm => ⟨?_, ?_, ?_⟩
    · rw [hsame.expected]
      exact hm.expected
    · rw [hsame.received]
      exact hm.received
    · rw [hsame.final, hsame.resp]
      exact hm.status
  ended h := ⟨.ended h, Or.inl h⟩
  -- no length is recorded on a new stream
  opened p request :=
    ⟨collecting_collects.opened p request,
      Or.inr ⟨lengthRecorded_nil (by decide : (-1 : Int) < 0), rfl, fun h => by cases h⟩⟩
  withInformational h hremote hv := by
    have hm := h.2.resolve_left (by simp [hremote])
    obtain ⟨hagree, rfl, -⟩ := validate_length (validate_informational hv).1 (Or.inl hv)
    refine ⟨h.1.withInformational hremote hv, Or.inr ⟨?_, ?_, hm.status⟩⟩
    · rw [blocksOf_snoc]
      exact hm.expected.snoc hagree
    · rw [bytesOf_snoc]
      exact hm.received
  withHeaders h hremote hfinal hv := by
    have hm := h.2.resolve_left (by simp [hremote])
    obtain ⟨hresp, -⟩ := h.1.before hremote hfinal
    obtain ⟨hagree, rfl, hstatus⟩ := validate_length hfinal (Or.inr hv)
    refine ⟨h.1.withHeaders hremote hfinal hv, Or.inr ⟨?_, ?_, fun _ => ?_⟩⟩
    · rw [blocksOf_snoc]
      exact hm.expected.snoc hagree
    · rw [bytesOf_snoc]
      exact hm.received
    · rw [Stream.withHeaders, hresp]
      exact hstatus
  withData h hremote hfinal := by
    have hm := h.2.resolve_left (by simp [hremote])
    refine ⟨h.1.withData hremote hfinal, Or.inr ⟨?_, ?_, hm.status⟩⟩
    · simpa [blocksOf, Stream.withData] using hm.expected
    · simp [Stream.withData, bytesOf, hm.received]

/-- The record at the end of a response with the given blocks and body. -/
structure Stream.Totals (infos : List (List HeaderField)) (fields : List HeaderField)
    (chunks : List Bytes) (u : Stream) : Prop where
  expected : LengthRecorded (infos ++ [fields]) u.expectedContentLength
  received : u.receivedContentLength = chunks.flatten.length
  headers : u.resp.headers = fields
  status : ∃ code, statusOf fields = some code

/-- What has been measured at the end of a response. -/
theorem Completes.totals (h : Completes (fun parts s => s.Measures parts) parts u) :
    ∃ infos headers chunks, ∃ trailers : Option (List HeaderField), ∃ body,
      parts = body ++ trailers.toList.map .block ∧ BeginsResponse body infos headers chunks ∧
        u.Totals infos headers chunks := by
  obtain ⟨body, s, ⟨hs, hm⟩, hremote, hfinal, hrest⟩ := h
  have hm := hm.resolve_left (by simp [hremote])
  obtain ⟨infos, fields, chunks, hbegins, hresp⟩ := hs.after hremote hfinal
  have hblocks : blocksOf body = infos ++ [fields] := by
    rw [hbegins.parts_eq]
    simp [blocksOf, List.flatMap_map]
  have hbytes : bytesOf body = chunks.flatten := by
    rw [hbegins.parts_eq]
    simp [bytesOf, List.flatMap_map]
  have htotals : s.Totals infos fields chunks := by
    refine ⟨hblocks ▸ hm.expected, hbytes ▸ hm.received, by rw [hresp], ?_⟩
    have hstatus := hm.status hfinal
    rwa [hresp] at hstatus
  rcases hrest with ⟨rfl, rfl⟩ | ⟨trailers, endStream, cl, rfl, rfl, hv⟩
  · exact ⟨infos, fields, chunks, none, parts, by simp, hbegins, htotals⟩
  · -- trailers leave the length on record alone
    have hkept := ((validate_trailers_iff (by exact hfinal) _).1 ⟨hv, rfl⟩).2
    obtain rfl := HeaderVerdict.accepted.inj hkept
    exact ⟨infos, fields, chunks, some trailers, body, by simp, hbegins, htotals.expected,
      htotals.received, htotals.headers, htotals.status⟩

end Measures

/-! ## The end of a stream -/

/-- The record without a length. -/
def Stream.unmeasured (s : Stream) : Stream := { s with expectedContentLength := -1 }

/-- The response has no body, by its request or its status. -/
def Bodiless (s : Stream) (headers : List HeaderField) : Prop :=
  s.rqst.headers.find (ascii ":method") = some (ascii "HEAD") ∨
    statusOf headers = some 204 ∨ statusOf headers = some 304

namespace ProtocolState

/-- The complete header block of a stream is decoded, and accepted on a stream without a length on
record. -/
def AcceptsBlock (p : ProtocolState) (s : Stream) (endStream : Bool) : Prop :=
  ∃ fields, (p.decodedBlock s.pendingHeaderBlock).2 = some fields ∧
    ¬ p.HeaderListTooLarge fields ∧
    (validateResponseHeaderBlock s.clearBlock.unmeasured fields endStream).errorCode = .noError ∧
    ¬ (s.finalResponseHeadersReceived = true ∧ s.isConnectRequest = true)

/-- The frame meets every check but the one of lengths against the record: on a stream with the given
record it carries END_STREAM behind the response headers, or completes a header block that is well
formed by itself. The flag says that END_STREAM has arrived. -/
inductive MeetsChecks (p : ProtocolState) (f : RawFrame) (s : Stream) : Bool → Prop
  | data (hf : Dispatched p f) (hexp : p.expectingContinuation = false)
      (ht : f.header.type = .data) (hpad : f.PaddingOk 0)
      (hfind : p.streams.find? f.header.streamId = some s) (hopen : ¬ s.Refuses)
      (hfinal : s.finalResponseHeadersReceived = true)
      (htake : InFlow.takeInflows p.connectionInflow s.inflow f.header.payloadLength ≠ none)
      (hbody : f.dataFragment = [] ∨ s.expectsNoBody = .ok false)
      (hend : f.header.hasEndStreamFlag = true) : MeetsChecks p f s true
  | headers (hf : Dispatched p f) (hexp : p.expectingContinuation = false)
      (ht : f.header.type = .headers) (hpad : f.PaddingOk f.priorityPrefix)
      (hfind : p.streams.find? f.header.streamId = some s) (hopen : ¬ s.Refuses)
      (hfits : 0 < p.maxHeaderListSize →
        (s.pendingHeaderBlock ++ f.headerFragment).length ≤ p.maxHeaderListSize)
      (hlast : f.header.hasEndHeadersFlag = true)
      (haccepts : p.AcceptsBlock (s.withFragment f.headerFragment) f.header.hasEndStreamFlag) :
      MeetsChecks p f s f.header.hasEndStreamFlag
  | continuation (hf : Dispatched p f) (hexp : p.expectingContinuation = true)
      (hid : p.continuationStreamId = f.header.streamId) (ht : f.header.type = .continuation)
      (hfind : p.streams.find? f.header.streamId = some s)
      (hfits : 0 < p.maxHeaderListSize →
        (s.pendingHeaderBlock ++ f.data).length ≤ p.maxHeaderListSize)
      (hlast : f.header.hasEndHeadersFlag = true)
      (haccepts : p.AcceptsBlock (s.endBlock f.data) s.pendingHeaderEndStream) :
      MeetsChecks p f s s.pendingHeaderEndStream

section Ends

variable {p p' q : ProtocolState} {f : RawFrame} {s u : Stream} {r : ProtocolStepResult}
  {tr : List Entry} {parts : List ResponsePart} {C : List ResponsePart → Stream → Prop}
  {endStream : Bool}

/-- No check fails the connection. -/
theorem MeetsChecks.not_violation (h : MeetsChecks p f s endStream) (code : ErrorCode) :
    ¬ Violation p f code := by
  intro hv
  cases h with
  | data hf hexp ht hpad hfind hopen hfinal htake hbody hend =>
    have hsettings := hf.gotPeerSettings
    have hid := hf.streamId
    cases hv with
    | oversized hlong => exact absurd hf.payloadLength (not_le.2 hlong)
    | _ => simp_all [RawFrame.BadStreamId, RawFrame.BadLength, RawFrame.fixedPrefix]
  | headers hf hexp ht hpad hfind hopen hfits hlast haccepts =>
    have hsettings := hf.gotPeerSettings
    have hid := hf.streamId
    obtain ⟨fields, hd, -⟩ := haccepts
    cases hv with
    | oversized hlong => exact absurd hf.payloadLength (not_le.2 hlong)
    | headersTooLarge t _ hfind' _ hmax hlong =>
      obtain rfl := Option.some.inj (hfind.symm.trans hfind')
      exact absurd (hfits hmax) (not_le.2 hlong)
    | headersUndecodable t _ hfind' _ _ hnone =>
      obtain rfl := Option.some.inj (hfind.symm.trans hfind')
      cases hd.symm.trans hnone
    | _ => simp_all [RawFrame.BadStreamId, RawFrame.BadLength, RawFrame.fixedPrefix]
  | continuation hf hexp hid ht hfind hfits hlast haccepts =>
    have hsettings := hf.gotPeerSettings
    have hzero := hf.streamId
    obtain ⟨fields, hd, -⟩ := haccepts
    cases hv with
    | oversized hlong => exact absurd hf.payloadLength (not_le.2 hlong)
    | continuationTooLarge t _ hfind' hmax hlong =>
      obtain rfl := Option.some.inj (hfind.symm.trans hfind')
      exact absurd (hfits hmax) (not_le.2 hlong)
    | continuationUndecodable t _ hfind' _ hnone =>
      obtain rfl := Option.some.inj (hfind.symm.trans hfind')
      cases hd.symm.trans hnone
    | _ => simp_all [RawFrame.BadStreamId, RawFrame.BadLength, RawFrame.fixedPrefix]

/-- The peer has not ended the stream before. -/
theorem MeetsChecks.remote (h : MeetsChecks p f s endStream) (hstate : HeaderState True p) :
    s.remoteEndStreamReceived = false := by
  cases h with
  | data hf hexp ht hpad hfind hopen hfinal htake hbody hend => simpa using (not_or.1 hopen).2
  | headers hf hexp ht hpad hfind hopen hfits hlast haccepts => simpa using (not_or.1 hopen).2
  | continuation hf hexp hid ht hfind hfits hlast haccepts =>
    have hok := hstate.streams.find hfind
    exact hok.remote (hok.waiting.2 ⟨hexp, hid.trans (KeyedTable.key_of_find? hfind).symm⟩)

/-- The result tells the verdict on the length of a response whose record is given. -/
def Judges (u : Stream) (r : ProtocolStepResult) : Prop :=
  ((∃ resp, .responseCompleted u.streamId resp ∈ r.events) ↔ u.contentLengthMismatch = .ok false) ∧
    (u.contentLengthMismatch = .ok true → .responseFailed u.streamId .protocolError ∈ r.events)

theorem judges_ending (h : Ending q u true p' r) : Judges u r := by
  unfold Judges
  cases h with
  | mismatch hlength => simp [hlength, streamFailure, failureEvents]
  | finished hlength => simp [hlength]
  | answered hlength => simp [hlength]

theorem Judges.merge (h : Judges u r) {pre : ProtocolStepResult}
    (hpre : pre.events = [] ∨ ∃ id resp, pre.events = [.streamHeadersReceived id resp]) :
    Judges u (pre.merge r) := by
  unfold Judges at *
  rcases hpre with hpre | ⟨id, resp, hpre⟩
  · simpa [ProtocolStepResult.merge, hpre] using h
  · simpa [ProtocolStepResult.merge, hpre] using h

/-- How a frame that meets the checks is answered: it ends the response, whose record is then judged;
or its block comes before the final response, and the stream goes on or fails for a length. -/
inductive Answer (C : List ResponsePart → Stream → Prop) (s : Stream) (before after : List ResponsePart)
    (r : ProtocolStepResult) : Bool → Prop
  | judged (u : Stream) (hid : u.streamId = s.streamId) (hhead : u.isHeadRequest = s.isHeadRequest)
      (hcompletes : Completes C after u) (hjudges : Judges u r) : Answer C s before after r true
  | stored (headers : List HeaderField) (hfinal : s.finalResponseHeadersReceived = false)
      (hafter : after = before ++ [.block headers]) (halone : LengthsAgree (-1) headers)
      (hagree : LengthsAgree s.expectedContentLength headers)
      (hgoesOn : ∀ code, .responseFailed s.streamId code ∉ r.events) :
      Answer C s before after r false
  | refused (headers : List HeaderField) {endStream : Bool}
      (hfinal : s.finalResponseHeadersReceived = false)
      (hafter : after = before ++ [.block headers]) (halone : LengthsAgree (-1) headers)
      (hdisagree : ¬ LengthsAgree s.expectedContentLength headers)
      (hlast : endStream = true → ¬ Informational headers)
      (hfails : .responseFailed s.streamId .protocolError ∈ r.events)
      (hnever : ∀ resp, .responseCompleted s.streamId resp ∉ r.events) :
      Answer C s before after r endStream

/-- An answer looks at four members of the record. -/
theorem Answer.congr {t : Stream} {before after : List ResponsePart}
    (h : Answer C s before after r endStream) (hid : t.streamId = s.streamId)
    (hhead : t.isHeadRequest = s.isHeadRequest)
    (hfinal : t.finalResponseHeadersReceived = s.finalResponseHeadersReceived)
    (hexpected : t.expectedContentLength = s.expectedContentLength) :
    Answer C t before after r endStream := by
  cases h with
  | judged u hid' hhead' hcompletes hjudges =>
    exact .judged u (hid'.trans hid.symm) (hhead'.trans hhead.symm) hcompletes hjudges
  | stored headers hfinal' hafter halone hagree hgoesOn =>
    exact .stored headers (hfinal.trans hfinal') hafter halone (hexpected ▸ hagree) (hid ▸ hgoesOn)
  | refused headers hfinal' hafter halone hdisagree hlast hfails hnever =>
    exact .refused headers (hfinal.trans hfinal') hafter halone (hexpected ▸ hdisagree) hlast
      (hid ▸ hfails) (hid ▸ hnever)

/-- A block that is well formed by itself and rejected comes before the final response and declares
another length than the one on record. -/
theorem disagree_of_rejected {fields : List HeaderField} {code : ErrorCode}
    (halone : ValidBlock s.clearBlock.unmeasured fields endStream)
    (hrejected : validateResponseHeaderBlock s.clearBlock fields endStream = .rejected code)
    (hcode : code ≠ .noError) :
    s.finalResponseHeadersReceived = false ∧ ¬ LengthsAgree s.expectedContentLength fields := by
  have hinvalid : ¬ ValidBlock s.clearBlock fields endStream := by
    rw [← errorCode_validate_iff, hrejected]
    exact hcode
  have hlengths : ¬ (s.finalResponseHeadersReceived = false →
      LengthsAgree s.expectedContentLength fields) := fun hlengths =>
    hinvalid ⟨halone.nonempty, halone.fields, halone.start, hlengths, halone.trailers⟩
  exact Classical.not_imp.1 hlengths

/-- How a block is answered that is well formed by itself. -/
theorem blockStep_answer (hC : Collecting C) (h : BlockStep p s endStream p' r)
    (haccepts : p.AcceptsBlock s endStream) (hs : C parts s)
    (hremote : s.remoteEndStreamReceived = false) :
    Answer C s parts (parts ++ [.block ((p.decodedBlock s.pendingHeaderBlock).2.getD [])]) r
      endStream := by
  obtain ⟨fields, hd, hsize, hv, hconnect⟩ := haccepts
  have halone := (errorCode_validate_iff _ _ _).1 hv
  rw [hd]
  cases h with
  | tooLarge headers hd' h =>
    obtain rfl := Option.some.inj (hd.symm.trans hd')
    exact absurd h hsize
  | rejected headers hd' hsize' h =>
    obtain rfl := Option.some.inj (hd.symm.trans hd')
    obtain ⟨hfinal, hdisagree⟩ :=
      disagree_of_rejected halone (h.resolve_right hconnect) (by decide)
    refine .refused fields hfinal rfl (halone.lengths hfinal) hdisagree (fun hend hinfo => ?_) ?_ ?_
    · cases hend.symm.trans (halone.goesOn hfinal hinfo)
    · simp [streamFailure, failureEvents]
    · simp [streamFailure, failureEvents]
  | informational headers cl hd' hsize' hinfo =>
    obtain rfl := Option.some.inj (hd.symm.trans hd')
    obtain ⟨hfinal, hinformational⟩ := validate_informational hinfo
    obtain rfl := halone.goesOn hfinal hinformational
    exact .stored fields hfinal rfl (halone.lengths hfinal)
      (validate_length hfinal (Or.inl hinfo)).1 (by simp)
  | headers headers cl hd' hsize' hv' hfinal hend =>
    obtain rfl := Option.some.inj (hd.symm.trans hd')
    cases endStream with
    | true =>
      have hstored := hC.withHeaders hs hremote hfinal hv'
      exact .judged (s.withHeaders cl fields) rfl rfl
        ⟨_, _, hstored, hremote, rfl, Or.inl ⟨rfl, rfl⟩⟩
        ((judges_ending hend).merge (Or.inr ⟨_, _, rfl⟩))
    | false =>
      cases hend
      exact .stored fields hfinal rfl (halone.lengths hfinal)
        (validate_length hfinal (Or.inr hv')).1 (by simp [ProtocolStepResult.merge])
  | trailers headers cl hd' hsize' hv' hfinal hnot hend =>
    obtain rfl := Option.some.inj (hd.symm.trans hd')
    -- trailers without END_STREAM are not well formed
    obtain rfl := (halone.trailers hfinal).2
    exact .judged (s.withTrailers cl fields) rfl rfl
      ⟨parts, s, hs, hremote, hfinal, Or.inr ⟨fields, true, cl, rfl, rfl, hv'⟩⟩
      ((judges_ending hend).merge (Or.inr ⟨_, _, rfl⟩))

/-- How a frame is answered that meets the checks. -/
theorem FrameStep.answer (hC : Collecting C) (hstep : FrameStep p f p' r)
    (hmeets : MeetsChecks p f s endStream) (hs : C (partsOn s.streamId tr) s)
    (hstate : HeaderState True p)
    (hopened : p.expectingContinuation = true →
      openBlock tr = some (p.continuationStreamId, p.pendingBlock)) :
    Answer C s (partsOn s.streamId tr) (partsOn s.streamId (tr ++ [⟨p, .receiveFrame f, r⟩])) r
      endStream := by
  have hnot := hmeets.not_violation
  rw [partsOn_snoc]
  cases hmeets with
  | data hf hexp ht hpad hfind hopen hfinal htake hbody hflag =>
    have hremote : s.remoteEndStreamReceived = false := by simpa using (not_or.1 hopen).2
    rw [partsOn_data _ ht, if_pos (KeyedTable.key_of_find? hfind).symm]
    cases hstep with
    | connectionFailed hv => exact absurd hv (hnot _)
    | @dataStored t conn inflow _ _ _ hfind' hopen' hfinal' htake' hbody' hending =>
      obtain rfl := Option.some.inj (hfind.symm.trans hfind')
      rw [hflag] at hending
      -- the stored bytes are the last part of the response
      have hstored : C (partsOn s.streamId tr ++ [.data f.dataFragment])
          (s.withData (inflow.add f.header.payloadLength).2 f.dataFragment) :=
        hC.withData hs hremote hfinal
      exact .judged (s.withData (inflow.add f.header.payloadLength).2 f.dataFragment) rfl rfl
        ⟨_, _, hstored, hremote, hfinal, Or.inl ⟨rfl, rfl⟩⟩
        ((judges_ending hending).merge (Or.inl rfl))
    | dataRefused t _ hfind' h =>
      obtain rfl := Option.some.inj (hfind.symm.trans hfind')
      rcases h with ⟨hrefuses, -⟩ | ⟨hnone, -⟩
      · exact absurd hrefuses hopen
      · cases hfinal.symm.trans hnone
    | dataOnBodiless t _ hfind' _ _ _ hdata hno =>
      obtain rfl := Option.some.inj (hfind.symm.trans hfind')
      -- a frame without payload and a stream that expects a body are both fine
      rcases hbody with hnil | hbody
      · exact absurd hnil hdata
      · cases hbody.symm.trans hno
    | reported h => cases h <;> simp_all
    | _ => simp_all
  | headers hf hexp ht hpad hfind hopen hfits hlast haccepts =>
    have hremote : s.remoteEndStreamReceived = false := by simpa using (not_or.1 hopen).2
    have hkey : s.streamId = f.header.streamId := KeyedTable.key_of_find? hfind
    -- no block is open, so the frame alone is the block
    have hpending : s.pendingHeaderBlock = [] :=
      (hstate.streams.find hfind).pending (hstate.not_waiting hexp (KeyedTable.mem_of_find? hfind))
    rw [partsOn_headers _ ht hlast, if_pos hkey.symm]
    cases hstep with
    | connectionFailed hv => exact absurd hv (hnot _)
    | headersRefused t _ hfind' hrefuses =>
      obtain rfl := Option.some.inj (hfind.symm.trans hfind')
      exact absurd hrefuses hopen
    | headersBlock t _ hfind' hopen' hlast' hblock =>
      obtain rfl := Option.some.inj (hfind.symm.trans hfind')
      have hanswer := blockStep_answer hC hblock haccepts
        (hC.congr hs ⟨rfl, rfl, rfl, rfl, rfl⟩) hremote
      rw [show (s.withFragment f.headerFragment).pendingHeaderBlock = f.headerFragment by
        simp [Stream.withFragment, hpending]] at hanswer
      exact hanswer.congr rfl rfl rfl rfl
    | reported h => cases h <;> simp_all
    | _ => simp_all
  | continuation hf hexp hid ht hfind hfits hlast haccepts =>
    have hkey : s.streamId = p.continuationStreamId :=
      (KeyedTable.key_of_find? hfind).trans hid.symm
    have hok := hstate.streams.find hfind
    have hremote : s.remoteEndStreamReceived = false :=
      hok.remote (hok.waiting.2 ⟨hexp, hkey.symm⟩)
    -- the block is the one that the stream holds, and the frame ends it
    rw [partsOn_continuation _ ht hlast (hopened hexp), if_pos hkey.symm,
      pendingBlock_of_find? (hid ▸ hfind)]
    cases hstep with
    | connectionFailed hv => exact absurd hv (hnot _)
    | continuationBlock t _ hexp' hid' hfind' hlast' hblock =>
      obtain rfl := Option.some.inj (hfind.symm.trans hfind')
      exact (blockStep_answer hC hblock haccepts (hC.congr hs ⟨rfl, rfl, rfl, rfl, rfl⟩)
        hremote).congr rfl rfl rfl rfl
    | reported h => cases h <;> simp_all
    | _ => simp_all

end Ends

end ProtocolState

/-! ## The verdict -/

/-- The final response allows the received number of bytes: it declares no length, has no body, or
declares this length. -/
def LengthHonoured (s : Stream) (headers : List HeaderField) (received : Nat) : Prop :=
  (∀ n, ¬ DeclaresLength headers n) ∨ Bodiless s headers ∨ DeclaresLength headers received

/-- The frame is answered as the headers ask for: at the end of the stream with RESPONSE_COMPLETED if
they allow the received bytes, and with PROTOCOL_ERROR on the stream if they do not; before the end
the stream does not fail. -/
def VerdictByHeaders (s : Stream) (headers : List HeaderField) (received : Nat) (endStream : Bool)
    (r : ProtocolStepResult) : Prop :=
  if endStream = true then
    ((∃ resp, .responseCompleted s.streamId resp ∈ r.events) ↔ LengthHonoured s headers received) ∧
      (¬ LengthHonoured s headers received →
        .responseFailed s.streamId .protocolError ∈ r.events)
  else ∀ code, .responseFailed s.streamId code ∉ r.events

/-- The lengths that informational blocks declare do no harm: the headers after them declare the same
lengths, or the response fails anyway; if these declare none, then at the end of the stream the
response has no body, or the lengths are the number of the received bytes. -/
structure LengthsHarmless (s : Stream) (infos : List (List HeaderField))
    (headers : List HeaderField) (received : Nat) (endStream : Bool) : Prop where
  declared : (∃ n, DeclaresLength headers n) →
    (∀ fields ∈ infos, ∀ n, DeclaresLength fields n → DeclaresLength headers n) ∨
      endStream = true ∧ ¬ LengthHonoured s headers received
  undeclared : (∀ n, ¬ DeclaresLength headers n) → endStream = true → Bodiless s headers ∨
    ∀ fields ∈ infos, ∀ n, DeclaresLength fields n → n = received

/-- The parts received on a stream up to a frame: informational blocks, one more block, which holds
the headers of the final response if the stream ends, chunks of the body, and trailers. Before its
end the block is the last part. -/
structure PartsReceived (parts : List ResponsePart) (infos : List (List HeaderField))
    (headers : List HeaderField) (chunks : List Bytes) (trailers : Option (List HeaderField))
    (endStream : Bool) : Prop where
  parts_eq : parts = infos.map .block ++ .block headers :: chunks.map .data ++
    trailers.toList.map .block
  informational : ∀ fields ∈ infos, Informational fields
  final : endStream = true → ¬ Informational headers
  goesOn : endStream = false → chunks = [] ∧ trailers = none

section Verdict

variable {config : ClientConfig} {tr : List Entry} {p : ProtocolState} {s u : Stream}
  {infos : List (List HeaderField)} {headers : List HeaderField} {chunks : List Bytes}
  {r : ProtocolStepResult}

/-- The mark of HEAD requests. -/
theorem isHeadRequest_of_runs (h : Runs (ofConfig config) tr p) : AllStreams (fun s =>
    s.isHeadRequest = decide (s.rqst.headers.find (ascii ":method") = some (ascii "HEAD")))
      p.streams := by
  refine runs_invariant (I := fun _ p => AllStreams (fun s => s.isHeadRequest =
    decide (s.rqst.headers.find (ascii ":method") = some (ascii "HEAD"))) p.streams) .empty ?_ h
  intro tr p a p' r _ hp hstep
  exact hp.actionStep ⟨fun _ _ h _ _ _ => h, fun _ _ h _ _ _ _ => h⟩
    { answered := fun _ h _ => h
      openBlock := fun _ _ _ h _ => h
      withFragment := fun _ _ h => h
      endBlock := fun _ _ h => h
      withInformational := fun _ _ h => h
      withHeaders := fun _ _ _ h _ _ => h
      withTrailers := fun _ _ _ h _ => h
      withData := fun _ _ _ _ _ _ h _ _ => h } (fun _ _ h => h) (fun _ => rfl) hstep

/-- A response fails if a length is on record, a body is expected, and the lengths differ. -/
theorem contentLengthMismatch_of_totals (h : u.Totals infos headers chunks)
    (hhead : u.isHeadRequest =
      decide (s.rqst.headers.find (ascii ":method") = some (ascii "HEAD"))) :
    ∃ b, u.contentLengthMismatch = .ok b ∧ (b = true ↔ 0 ≤ u.expectedContentLength ∧
      ¬ Bodiless s headers ∧ u.expectedContentLength ≠ chunks.flatten.length) := by
  obtain ⟨code, hcode⟩ := h.status
  have hread : u.resp.getStatusCode = .ok (code : Int) := by
    obtain ⟨header, hfind, hparse⟩ := Option.bind_eq_some_iff.1 hcode
    rw [Response.getStatusCode, h.headers, hfind]
    exact stoi_of_tryParseStatusCode hparse
  have hbodiless : Bodiless s headers ↔ u.isHeadRequest = true ∨ code = 204 ∨ code = 304 := by
    rw [Bodiless, hcode, hhead, decide_eq_true_eq, Option.some.injEq, Option.some.injEq]
  unfold Stream.contentLengthMismatch
  by_cases h0 : u.expectedContentLength ≥ 0
  · rw [if_pos h0]
    refine ⟨_, by rw [Stream.expectsNoBody, hread]; rfl, ?_⟩
    have h204 : ((code : Int) = 204 ↔ code = 204) ∧ ((code : Int) = 304 ↔ code = 304) := by omega
    rw [hbodiless, h.received]
    simp only [Bool.and_eq_true, Bool.not_eq_true', Bool.or_eq_false_iff, decide_eq_false_iff_not,
      decide_eq_true_eq, h204, not_or, ne_comm (a := u.expectedContentLength), and_assoc,
      Bool.not_eq_true]
    exact ⟨fun h => ⟨h0, h⟩, fun h => h.2⟩
  · rw [if_neg h0]
    exact ⟨false, rfl, by simp [h0]⟩

/-- Headers that declare a length declare the one on record. -/
theorem lengthHonoured_of_declared (h : u.Totals infos headers chunks)
    (hdeclares : ∃ n, DeclaresLength headers n) :
    LengthHonoured s headers chunks.flatten.length ↔
      ¬ (0 ≤ u.expectedContentLength ∧ ¬ Bodiless s headers ∧
        u.expectedContentLength ≠ chunks.flatten.length) := by
  obtain ⟨n, hn⟩ := hdeclares
  have hrecorded : u.expectedContentLength = n := h.expected.agrees headers (by simp) n hn
  constructor
  · rintro (hnone | hbodiless | hreceived) ⟨-, hbody, hne⟩
    · exact hnone n hn
    · exact hbody hbodiless
    · exact hne (h.expected.agrees headers (by simp) _ hreceived)
  · intro hnot
    by_cases hbodiless : Bodiless s headers
    · exact Or.inr (Or.inl hbodiless)
    · have heq : u.expectedContentLength = chunks.flatten.length :=
        not_not.1 fun hne => hnot ⟨hrecorded ▸ Int.natCast_nonneg n, hbodiless, hne⟩
      rw [hrecorded, Int.natCast_inj] at heq
      exact Or.inr (Or.inr (heq ▸ hn))

/-- Without a length in the headers the one on record comes from an informational block. -/
theorem lengths_of_undeclared (h : u.Totals infos headers chunks)
    (hnone : ¬ ∃ n, DeclaresLength headers n) :
    ¬ (0 ≤ u.expectedContentLength ∧ ¬ Bodiless s headers ∧
        u.expectedContentLength ≠ chunks.flatten.length) ↔
      Bodiless s headers ∨
        ∀ fields ∈ infos, ∀ n, DeclaresLength fields n → n = chunks.flatten.length := by
  constructor
  · intro hnot
    by_cases hbodiless : Bodiless s headers
    · exact Or.inl hbodiless
    · refine Or.inr fun fields hfields n hn => ?_
      have hrecorded := h.expected.agrees fields (List.mem_append_left _ hfields) n hn
      have heq : u.expectedContentLength = chunks.flatten.length :=
        not_not.1 fun hne => hnot ⟨hrecorded ▸ Int.natCast_nonneg n, hbodiless, hne⟩
      rwa [hrecorded, Int.natCast_inj] at heq
  · rintro (hbodiless | hinfos) ⟨h0, hbody, hne⟩
    · exact hbody hbodiless
    · obtain ⟨fields, hfields, n, hn, hrecorded⟩ := h.expected.source h0
      rcases List.mem_append.1 hfields with hfields | hfields
      · rw [hrecorded, hinfos fields hfields n hn] at hne
        exact hne rfl
      · rw [List.mem_singleton.1 hfields] at hn
        exact hnone ⟨n, hn⟩

/-- A response that is judged by the length on record is judged by its headers if and only if the
lengths of informational blocks do no harm. -/
theorem verdict_of_judged (h : u.Totals infos headers chunks) (hid : u.streamId = s.streamId)
    (hhead : u.isHeadRequest =
      decide (s.rqst.headers.find (ascii ":method") = some (ascii "HEAD"))) (hr : Judges u r) :
    VerdictByHeaders s headers chunks.flatten.length true r ↔
      LengthsHarmless s infos headers chunks.flatten.length true := by
  obtain ⟨b, hb, hmismatch⟩ := contentLengthMismatch_of_totals h hhead
  unfold Judges at hr
  rw [hb, hid, Except.ok.injEq, Except.ok.injEq, ← Bool.not_eq_true, hmismatch] at hr
  obtain ⟨hcompleted, hfailed⟩ := hr
  rw [VerdictByHeaders, if_pos rfl, hcompleted]
  by_cases hdeclares : ∃ n, DeclaresLength headers n
  · have hhonoured := lengthHonoured_of_declared (s := s) h hdeclares
    refine iff_of_true ⟨hhonoured.symm, fun hnot => hfailed (not_not.1 (mt hhonoured.2 hnot))⟩
      ⟨fun _ => Or.inl fun fields hfields n hn => ?_, fun hnone => absurd hdeclares (not_exists.2 hnone)⟩
    -- both lengths are the one on record
    obtain ⟨m, hm⟩ := hdeclares
    have hn' := h.expected.agrees fields (List.mem_append_left _ hfields) n hn
    have hm' := h.expected.agrees headers (by simp) m hm
    rw [hn', Int.natCast_inj] at hm'
    exact hm' ▸ hm
  · have hhonoured : LengthHonoured s headers chunks.flatten.length :=
      Or.inl (not_exists.1 hdeclares)
    have hundeclared := lengths_of_undeclared (s := s) h hdeclares
    constructor
    · intro hverdict
      exact ⟨fun hn => absurd hn hdeclares, fun _ _ => hundeclared.1 (hverdict.1.2 hhonoured)⟩
    · intro hharmless
      have hcases := hharmless.undeclared (not_exists.1 hdeclares) rfl
      exact ⟨⟨fun _ => hhonoured, fun _ => hundeclared.2 hcases⟩, fun hnot => absurd hhonoured hnot⟩

/-- A block that is stored while the stream goes on declares no other length than the blocks before
it. -/
theorem verdict_of_stored (h : LengthRecorded infos s.expectedContentLength)
    (halone : LengthsAgree (-1) headers) (hagree : LengthsAgree s.expectedContentLength headers)
    (hgoesOn : ∀ code, .responseFailed s.streamId code ∉ r.events) :
    VerdictByHeaders s headers 0 false r ↔ LengthsHarmless s infos headers 0 false := by
  refine iff_of_true (fun _ => hgoesOn _) ⟨fun hn => Or.inl ((h.agree_iff halone).1 hagree hn), ?_⟩
  intro _ hend
  cases hend

/-- A block that is refused for its length declares another one than a block before it. The verdict
is the right one if the stream ends with the block and fails anyway. -/
theorem verdict_of_refused {endStream : Bool} (h : LengthRecorded infos s.expectedContentLength)
    (halone : LengthsAgree (-1) headers)
    (hdisagree : ¬ LengthsAgree s.expectedContentLength headers)
    (hfails : .responseFailed s.streamId .protocolError ∈ r.events)
    (hnever : ∀ resp, .responseCompleted s.streamId resp ∉ r.events) :
    VerdictByHeaders s headers 0 endStream r ↔ LengthsHarmless s infos headers 0 endStream := by
  rw [h.agree_iff halone, Classical.not_imp] at hdisagree
  obtain ⟨hdeclares, hother⟩ := hdisagree
  constructor
  · intro hverdict
    refine ⟨fun _ => Or.inr ?_, fun hnone => absurd hdeclares (not_exists.2 hnone)⟩
    cases endStream with
    | false => exact absurd hfails (hverdict _)
    | true =>
      refine ⟨rfl, fun hhonoured => ?_⟩
      obtain ⟨resp, hmem⟩ := hverdict.1.2 hhonoured
      exact hnever resp hmem
  · intro hharmless
    obtain ⟨rfl, hnot⟩ := (hharmless.declared hdeclares).resolve_left hother
    exact ⟨iff_of_false (fun ⟨resp, hmem⟩ => hnever resp hmem) hnot, fun _ => hfails⟩

/-- A frame that meets every other check is answered as the response headers ask for, if and only if
the lengths that informational blocks have declared do no harm. -/
theorem content_length_verdict_iff {before after : List Entry} {q : ProtocolState} {f : RawFrame}
    {endStream : Bool}
    (h : Runs (ofConfig config) (before ++ ⟨p, .receiveFrame f, r⟩ :: after) q)
    (hmeets : MeetsChecks p f s endStream) :
    ∃ infos headers chunks trailers,
      PartsReceived (partsOn s.streamId (before ++ [⟨p, .receiveFrame f, r⟩])) infos headers chunks
        trailers endStream ∧
      (VerdictByHeaders s headers chunks.flatten.length endStream r ↔
        LengthsHarmless s infos headers chunks.flatten.length endStream) := by
  obtain ⟨hr, p', hact⟩ := h.at_entry
  have hfind : p.streams.find? f.header.streamId = some s := by
    cases hmeets <;> assumption
  have hstep := actionStep_of_act (sound_of_runs hr) hact
  have hopen : p.closed = false := by
    by_contra hclosed
    have hmem := KeyedTable.mem_keys_of_find? hfind
    rw [(tidy_of_runs hr).closed (by simpa using hclosed)] at hmem
    exact List.not_mem_nil hmem
  cases hstep with
  | frameIgnored _ hignored =>
    have hclosed := hignored.elim id (closed_of_lost_transport hr)
    cases hopen.symm.trans hclosed
  | frame _ _ _ hframe _ =>
    -- the record measures what the run has received so far
    have hs := (collected_of_runs collecting_measures hr hopen).streams.find hfind
    have hremote : s.remoteEndStreamReceived = false :=
      hmeets.remote (headerState_of_open hr hopen)
    have hmeasured := hs.2.resolve_left (by simp [hremote])
    have hanswer := hframe.answer collecting_measures hmeets hs (headerState_of_open hr hopen)
      (blocksDecoded_of_runs hr hopen).opened
    cases hanswer with
    | judged u hid hhead hcompletes hjudges =>
      obtain ⟨infos, headers, chunks, trailers, body, hparts, hbegins, htotals⟩ :=
        hcompletes.totals
      rw [(isHeadRequest_of_runs hr).find hfind] at hhead
      exact ⟨infos, headers, chunks, trailers,
        ⟨by rw [hparts, hbegins.parts_eq], hbegins.informational, fun _ => hbegins.final, nofun⟩,
        verdict_of_judged htotals hid hhead hjudges⟩
    | stored headers hfinal hafter halone hagree hgoesOn =>
      obtain ⟨-, infos, hparts, hinfos⟩ := hs.1.before hremote hfinal
      have hexpected := hmeasured.expected
      rw [hparts, blocksOf_infos] at hexpected
      exact ⟨infos, headers, [], none,
        ⟨by simp [hafter, hparts], hinfos, nofun, fun _ => ⟨rfl, rfl⟩⟩,
        verdict_of_stored hexpected halone hagree hgoesOn⟩
    | refused headers hfinal hafter halone hdisagree hlast hfails hnever =>
      obtain ⟨-, infos, hparts, hinfos⟩ := hs.1.before hremote hfinal
      have hexpected := hmeasured.expected
      rw [hparts, blocksOf_infos] at hexpected
      exact ⟨infos, headers, [], none,
        ⟨by simp [hafter, hparts], hinfos, hlast, fun _ => ⟨rfl, rfl⟩⟩,
        verdict_of_refused hexpected halone hdisagree hfails hnever⟩

end Verdict

/-! ## A length in an informational block -/

/-- The status 100 with a content length of five. -/
def continueFields : List HeaderField :=
  [{ name := ascii ":status", value := ascii "100" },
    { name := ascii "content-length", value := ascii "5" }]

/-- A HEADERS frame on stream 1 with these fields. -/
def continueFrame : RawFrame :=
  .ofPayload { type := .headers, flags := 4, streamId := 1 }
    [0x08, 3, 0x31, 0x30, 0x30, 0x0f, 0x0d, 1, 0x35] (by decide) first_streamId_lt

/-- The status 200 with a content length of seven. -/
def sevenFields : List HeaderField :=
  [{ name := ascii ":status", value := ascii "200" },
    { name := ascii "content-length", value := ascii "7" }]

/-- A HEADERS frame on stream 1 with these fields. -/
def sevenFrame : RawFrame :=
  .ofPayload { type := .headers, flags := 4, streamId := 1 } [0x88, 0x0f, 0x0d, 1, 0x37] (by decide)
    first_streamId_lt

/-- A request is answered with the status 100, and then with the final response. -/
def continued (request : Request) (f : RawFrame) : List Action :=
  [.start, .receiveFrame emptySettingsFrame, .submitRequest request (.id _),
    .receiveFrame continueFrame, .receiveFrame f]

/-- A HEAD request: no response body, whatever `content-length` says. -/
def headRequest : Request where
  headers := { entries := [(ascii ":authority", ascii "a"), (ascii ":method", ascii "HEAD"),
    (ascii ":path", ascii "/"), (ascii ":scheme", ascii "http")] }

/-- A HEADERS frame on stream 1 that brings a whole block. -/
structure WholeBlock (f : RawFrame) : Prop where
  type : f.header.type = .headers
  streamId : f.header.streamId = 1
  short : f.header.payloadLength ≤ 16384
  padding : f.PaddingOk f.priorityPrefix
  last : f.header.hasEndHeadersFlag = true

theorem wholeBlock_okResponseFrame : WholeBlock (okResponseFrame 5) :=
  ⟨rfl, rfl, by decide, by unfold RawFrame.PaddingOk; decide, rfl⟩

theorem wholeBlock_sevenFrame : WholeBlock sevenFrame :=
  ⟨rfl, rfl, by decide, by unfold RawFrame.PaddingOk; decide, rfl⟩

/-- The block of the frame is well formed by itself on the stream of the request. -/
def Awaits (p : ProtocolState) (request : Request) (f : RawFrame) (fields : List HeaderField) :
    Prop :=
  p.gotPeerSettings = true ∧ p.localMaxFrameSize = 16384 ∧ p.expectingContinuation = false ∧
    p.maxHeaderListSize = 0 ∧ ∃ s ∈ p.streams.entries, s.streamId = 1 ∧ s.rqst = request ∧
      s.isClosed = false ∧ s.remoteEndStreamReceived = false ∧
      s.finalResponseHeadersReceived = false ∧
      (p.decodedBlock (s.withFragment f.headerFragment).pendingHeaderBlock).2 = some fields ∧
      (validateResponseHeaderBlock (s.withFragment f.headerFragment).clearBlock.unmeasured fields
        f.header.hasEndStreamFlag).errorCode = .noError

instance decidableAwaits (p : ProtocolState) (request : Request) (f : RawFrame)
    (fields : List HeaderField) : Decidable (Awaits p request f fields) :=
  inferInstanceAs (Decidable (_ ∧ _))

theorem Awaits.meetsChecks {p : ProtocolState} {request : Request} {f : RawFrame}
    {fields : List HeaderField} (h : Awaits p request f fields) (hf : WholeBlock f) :
    ∃ s, MeetsChecks p f s f.header.hasEndStreamFlag ∧ s.streamId = 1 ∧ s.rqst = request := by
  obtain ⟨hpeer, hmax, hexp, hlimit, s, hs, hid, hrequest, hclosed, hremote, hfinal, hd, hv⟩ := h
  have hfind : p.streams.find? f.header.streamId = some s := by
    have hmem := KeyedTable.mem_iff_find?.1 hs
    rwa [hid, ← hf.streamId] at hmem
  refine ⟨s, .headers ⟨hpeer, by rw [hmax]; exact hf.short, ?_⟩ hexp hf.type hf.padding hfind ?_ ?_
    hf.last ?_, hid, hrequest⟩
  · rw [hf.streamId]
    decide
  · simp [Stream.Refuses, hclosed, hremote]
  · simp [hlimit]
  · refine ⟨fields, hd, ?_, hv, fun h => ?_⟩
    · simp [HeaderListTooLarge, hlimit]
    · cases hfinal.symm.trans h.1

theorem not_declares_okResponse (n : Nat) : ¬ DeclaresLength okResponse.headers n := by
  rintro ⟨f, hf, hname, -⟩
  rw [List.mem_singleton.1 hf] at hname
  exact absurd hname (by decide)

theorem exists_continued {request : Request} {f : RawFrame} {fields : List HeaderField}
    {events : List ProtocolEvent} (hf : WholeBlock f)
    (hrun : (Machine.run act (ofConfig {}) (continued request f)).map (fun x =>
      (partsOn 1 x.2, x.2.getLast?.map fun e =>
        (decide (Awaits e.pre request f fields), e.output.events))) =
      .ok ([.block continueFields, .block fields], some (true, events))) :
    ∃ before p r q s, Runs (ofConfig {}) (before ++ [⟨p, .receiveFrame f, r⟩]) q ∧
      MeetsChecks p f s f.header.hasEndStreamFlag ∧ s.streamId = 1 ∧ s.rqst = request ∧
      partsOn 1 (before ++ [⟨p, .receiveFrame f, r⟩]) = [.block continueFields, .block fields] ∧
      r.events = events := by
  obtain ⟨q, tr, hr, hin, hresult⟩ := Machine.exists_runs_of_map hrun
  rcases List.eq_nil_or_concat tr with rfl | ⟨before, e, rfl⟩
  · cases hin
  · rw [List.concat_eq_append] at hr hin hresult
    simp only [List.getLast?_concat, Option.map_some, Prod.mk.injEq, Option.some.injEq,
      decide_eq_true_eq] at hresult
    obtain ⟨hparts, hawaits, hevents⟩ := hresult
    have hinput : e.input = .receiveFrame f := by
      have hlast := congrArg List.getLast? hin
      simpa [continued] using hlast
    obtain ⟨p, a, r⟩ := e
    cases hinput
    obtain ⟨s, hmeets, hid, hrequest⟩ := hawaits.meetsChecks hf
    exact ⟨before, p, r, q, s, hr, hmeets, hid, hrequest, hparts, hevents⟩

theorem informational_continueFields : Informational continueFields := ⟨100, by decide, by decide⟩

/-- The block of the status 100 comes before the headers of the response. -/
theorem received_continued {fields headers : List HeaderField} {infos : List (List HeaderField)}
    {chunks : List Bytes} {trailers : Option (List HeaderField)}
    (h : PartsReceived [.block continueFields, .block fields] infos headers chunks trailers true) :
    infos = [continueFields] ∧ headers = fields ∧ chunks = [] := by
  have hparts := h.parts_eq
  rcases infos with _ | ⟨info, _ | ⟨info', infos⟩⟩
  · obtain ⟨hheaders, -⟩ := List.cons.inj hparts
    cases hheaders
    exact absurd informational_continueFields (h.final rfl)
  · cases chunks <;> cases trailers <;> simp_all
  · simp at hparts

/-- The response to a HEAD request completes whatever the informational block declares. -/
theorem content_length_verdict_of_head :
    ∃ before p r q s,
      Runs (ofConfig {}) (before ++ [⟨p, .receiveFrame (okResponseFrame 5), r⟩]) q ∧
      MeetsChecks p (okResponseFrame 5) s true ∧ VerdictByHeaders s okResponse.headers 0 true r := by
  have hrun : (Machine.run act (ofConfig {}) (continued headRequest (okResponseFrame 5))).map
      (fun x => (partsOn 1 x.2, x.2.getLast?.map fun e =>
        (decide (Awaits e.pre headRequest (okResponseFrame 5) okResponse.headers),
          e.output.events))) =
      .ok ([.block continueFields, .block okResponse.headers],
        some (true, [.streamHeadersReceived 1 okResponse, .responseCompleted 1 okResponse,
          .streamClosed 1 .noError])) := by decide +kernel
  obtain ⟨before, p, r, q, s, hr, hmeets, hid, hrequest, hparts, -⟩ :=
    exists_continued wholeBlock_okResponseFrame hrun
  obtain ⟨infos, headers, chunks, trailers, hreceived, hiff⟩ :=
    content_length_verdict_iff hr hmeets
  rw [hid, hparts] at hreceived
  obtain ⟨rfl, rfl, rfl⟩ := received_continued hreceived
  refine ⟨before, p, r, q, s, hr, hmeets, hiff.2 ⟨fun hn => ?_, fun _ _ => Or.inl (Or.inl ?_)⟩⟩
  · obtain ⟨n, hn⟩ := hn
    exact absurd hn (not_declares_okResponse n)
  · rw [hrequest]
    decide

/-- A block of the status 100 declares five bytes. A response of status 200 that declares no length
and has no body then fails, and so does one that declares seven bytes, before any of them has
arrived. -/
theorem informational_length_fails_response :
    (∃ before p r q s,
      Runs (ofConfig {}) (before ++ [⟨p, .receiveFrame (okResponseFrame 5), r⟩]) q ∧
      MeetsChecks p (okResponseFrame 5) s true ∧ s.streamId = 1 ∧ s.rqst = getRequest ∧
      partsOn 1 (before ++ [⟨p, .receiveFrame (okResponseFrame 5), r⟩]) =
        [.block continueFields, .block okResponse.headers] ∧
      r.events = [.streamHeadersReceived 1 okResponse, .streamClosed 1 .protocolError,
        .responseFailed 1 .protocolError] ∧
      ¬ VerdictByHeaders s okResponse.headers 0 true r) ∧
    ∃ before p r q s,
      Runs (ofConfig {}) (before ++ [⟨p, .receiveFrame sevenFrame, r⟩]) q ∧
      MeetsChecks p sevenFrame s false ∧ s.streamId = 1 ∧ s.rqst = getRequest ∧
      partsOn 1 (before ++ [⟨p, .receiveFrame sevenFrame, r⟩]) =
        [.block continueFields, .block sevenFields] ∧
      r.events = [.streamClosed 1 .protocolError, .responseFailed 1 .protocolError] ∧
      ¬ VerdictByHeaders s sevenFields 0 false r := by
  constructor
  · have hrun : (Machine.run act (ofConfig {}) (continued getRequest (okResponseFrame 5))).map
        (fun x => (partsOn 1 x.2, x.2.getLast?.map fun e =>
          (decide (Awaits e.pre getRequest (okResponseFrame 5) okResponse.headers),
            e.output.events))) =
        .ok ([.block continueFields, .block okResponse.headers],
          some (true, [.streamHeadersReceived 1 okResponse, .streamClosed 1 .protocolError,
            .responseFailed 1 .protocolError])) := by decide +kernel
    obtain ⟨before, p, r, q, s, hr, hmeets, hid, hrequest, hparts, hevents⟩ :=
      exists_continued wholeBlock_okResponseFrame hrun
    refine ⟨before, p, r, q, s, hr, hmeets, hid, hrequest, hparts, hevents, fun hverdict => ?_⟩
    obtain ⟨resp, hmem⟩ := hverdict.1.2 (Or.inl not_declares_okResponse)
    rw [hevents] at hmem
    simp at hmem
  · have hrun : (Machine.run act (ofConfig {}) (continued getRequest sevenFrame)).map
        (fun x => (partsOn 1 x.2, x.2.getLast?.map fun e =>
          (decide (Awaits e.pre getRequest sevenFrame sevenFields), e.output.events))) =
        .ok ([.block continueFields, .block sevenFields],
          some (true, [.streamClosed 1 .protocolError, .responseFailed 1 .protocolError])) := by
      decide +kernel
    obtain ⟨before, p, r, q, s, hr, hmeets, hid, hrequest, hparts, hevents⟩ :=
      exists_continued wholeBlock_sevenFrame hrun
    refine ⟨before, p, r, q, s, hr, hmeets, hid, hrequest, hparts, hevents, fun hverdict => ?_⟩
    have hnot := hverdict .protocolError
    rw [hevents, hid] at hnot
    exact hnot (by simp)

end Chttp2
