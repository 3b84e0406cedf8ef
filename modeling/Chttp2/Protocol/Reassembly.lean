import Chttp2.Protocol.Awaited
import Chttp2.Protocol.HeaderBlocks

/-!
# Reassembly of responses

`partsOn` lists what the peer has sent on one stream: the fields of each header block and the
unpadded bytes of each DATA frame, in the order of their arrival. `Reassembles` says which response
such a list makes: informational blocks are dropped, the next block holds the headers, the bytes of
DATA are the body, and a last block holds the trailers.

A relation between the parts and the record of a stream that is `Collecting` holds in every state of
a run (`collected_of_runs`). `Stream.Collects` is such a relation, and so every completed response is
the one its parts make (`response_reassembled`).
-/

set_option autoImplicit false

namespace Chttp2

open ProtocolState

/-! ## Responses and their parts -/

/-- A part of a response: the fields of a header block, or bytes of the body. -/
inductive ResponsePart where
  | block (fields : List HeaderField)
  | data (bytes : Bytes)
  deriving DecidableEq

/-- What a step brings for the response on a stream. -/
def Entry.partsOn (id : StreamId) (before : List Entry) (e : Entry) : List ResponsePart :=
  match Entry.completedBlock (Chttp2.openBlock before) e with
  | some (k, block) => if k = id then [.block ((e.pre.decodedBlock block).2.getD [])] else []
  | none =>
    match e.input with
    | .receiveFrame f =>
      if f.header.type = .data ∧ f.header.streamId = id then [.data f.dataFragment] else []
    | _ => []

/-- What a trace has brought for the response on a stream. -/
def partsOn (id : StreamId) (tr : List Entry) : List ResponsePart :=
  Machine.collect (Entry.partsOn id) tr

@[simp] theorem partsOn_nil (id : StreamId) : partsOn id [] = [] := rfl

@[simp] theorem partsOn_snoc (id : StreamId) (tr : List Entry) (e : Entry) :
    partsOn id (tr ++ [e]) = partsOn id tr ++ Entry.partsOn id tr e :=
  Machine.collect_snoc tr e

/-- The status code of a header block. -/
def statusOf (fields : List HeaderField) : Option Nat :=
  (fields.find? fun header => header.name = ascii ":status").bind fun header =>
    tryParseStatusCode header.value

/-- The block of an informational response, with a status code 1xx. -/
def Informational (fields : List HeaderField) : Prop :=
  ∃ code, statusOf fields = some code ∧ code / 100 = 1

/-- The parts begin a final response: informational blocks, the block of the headers, and chunks of
the body. -/
structure BeginsResponse (parts : List ResponsePart) (infos : List (List HeaderField))
    (headers : List HeaderField) (chunks : List Bytes) : Prop where
  parts_eq : parts = infos.map .block ++ .block headers :: chunks.map .data
  informational : ∀ fields ∈ infos, Informational fields
  final : ¬ Informational headers

/-- The response that the parts make. -/
def Reassembles (parts : List ResponsePart) (resp : Response) : Prop :=
  ∃ infos headers chunks, ∃ trailers : Option (List HeaderField), ∃ body,
    parts = body ++ trailers.toList.map .block ∧ BeginsResponse body infos headers chunks ∧
      resp = { headers, body := chunks.flatten, trailers := trailers.getD [] }

/-- What the record of a stream holds of the parts received on it. Nothing is said once the peer has
ended the stream. -/
def Stream.Collects (parts : List ResponsePart) (s : Stream) : Prop :=
  s.remoteEndStreamReceived = true ∨
    (s.finalResponseHeadersReceived = false ∧ s.resp = {} ∧ ∃ infos : List (List HeaderField),
      parts = infos.map .block ∧ ∀ fields ∈ infos, Informational fields) ∨
    (s.finalResponseHeadersReceived = true ∧ ∃ infos headers chunks,
      BeginsResponse parts infos headers chunks ∧ s.resp = { headers, body := chunks.flatten })

/-- The records agree on what has been received. -/
structure Stream.SameResponse (s u : Stream) : Prop where
  remote : u.remoteEndStreamReceived = s.remoteEndStreamReceived
  final : u.finalResponseHeadersReceived = s.finalResponseHeadersReceived
  resp : u.resp = s.resp
  expected : u.expectedContentLength = s.expectedContentLength
  received : u.receivedContentLength = s.receivedContentLength

/-- A relation between the parts received on a stream and its record that every part keeps. It says
nothing once the peer has ended the stream. -/
structure Collecting (C : List ResponsePart → Stream → Prop) : Prop where
  congr : ∀ {parts s u}, C parts s → s.SameResponse u → C parts u
  ended : ∀ {parts s}, s.remoteEndStreamReceived = true → C parts s
  opened : ∀ p request, C [] (openedStream p request)
  withInformational : ∀ {parts s headers endStream cl}, C parts s →
    s.remoteEndStreamReceived = false →
    validateResponseHeaderBlock s.clearBlock headers endStream = .informational cl →
    C (parts ++ [.block headers]) (s.withInformational cl)
  withHeaders : ∀ {parts s headers endStream cl}, C parts s → s.remoteEndStreamReceived = false →
    s.finalResponseHeadersReceived = false →
    validateResponseHeaderBlock s.clearBlock headers endStream = .accepted cl →
    C (parts ++ [.block headers]) (s.withHeaders cl headers)
  withData : ∀ {parts s inflow data}, C parts s → s.remoteEndStreamReceived = false →
    s.finalResponseHeadersReceived = true → C (parts ++ [.data data]) (s.withData inflow data)

/-- The parts of a whole response, and the record that it ends with: trailers may follow what has
been collected. -/
def Completes (C : List ResponsePart → Stream → Prop) (parts : List ResponsePart) (u : Stream) :
    Prop :=
  ∃ (body : List ResponsePart) (s : Stream), C body s ∧ s.remoteEndStreamReceived = false ∧
    s.finalResponseHeadersReceived = true ∧ (parts = body ∧ u = s ∨
      ∃ headers endStream cl, parts = body ++ [.block headers] ∧ u = s.withTrailers cl headers ∧
        validateResponseHeaderBlock s.clearBlock headers endStream = .accepted cl)

/-! ## The status of a block -/

/-- A round of the scan either reads the status or leaves it alone. -/
theorem scanHeader_status {final : Bool} {scan scan' : HeaderScan} {field : HeaderField}
    (h : scanHeader final scan field = some scan') :
    (field.name = ascii ":status" ∧ scan.sawStatus = false ∧
        tryParseStatusCode field.value = some scan'.statusCode ∧ scan'.sawStatus = true) ∨
      (field.name ≠ ascii ":status" ∧ scan'.statusCode = scan.statusCode ∧
        scan'.sawStatus = scan.sawStatus) := by
  unfold scanHeader at h
  by_cases hcolon : field.name.headD 0 = 0x3a
  · simp only [hcolon, if_true] at h
    by_cases hname : field.name = ascii ":status"
    · cases hsaw : scan.sawStatus with
      | true => simp [hsaw] at h
      | false =>
        cases hparse : tryParseStatusCode field.value with
        | none => simp [hparse] at h
        | some code =>
          refine Or.inl ⟨hname, rfl, ?_⟩
          repeat' split at h
          all_goals simp_all
          all_goals exact ⟨by rw [← h], by rw [← h]⟩
    · exfalso
      simp [hname] at h
  · have hname : field.name ≠ ascii ":status" := by
      rintro hname
      rw [hname] at hcolon
      exact hcolon (by decide)
    refine Or.inr ⟨hname, ?_⟩
    simp only [hcolon, if_false] at h
    repeat' split at h
    all_goals cases h
    all_goals exact ⟨rfl, rfl⟩

/-- The status that the scan of a block without earlier status reads is the status of the block. -/
theorem scanHeaders_status {final : Bool} {headers : List HeaderField} :
    ∀ {scan scan' : HeaderScan}, scanHeaders final scan headers = some scan' →
      scan'.sawStatus = true → (scan.sawStatus = true ∧ scan'.statusCode = scan.statusCode) ∨
        (scan.sawStatus = false ∧ statusOf headers = some scan'.statusCode) := by
  induction headers with
  | nil =>
    intro scan scan' h hsaw
    cases h
    exact Or.inl ⟨hsaw, rfl⟩
  | cons field fields ih =>
    intro scan scan' h hsaw
    simp only [scanHeaders] at h
    cases hfield : scanHeader final scan field with
    | none => simp [hfield] at h
    | some scan₁ =>
      simp only [hfield] at h
      rcases scanHeader_status hfield with ⟨hname, hno, hparse, hyes⟩ | ⟨hname, hcode, hsame⟩
      · rcases ih h hsaw with ⟨-, heq⟩ | ⟨hno', -⟩
        · refine Or.inr ⟨hno, ?_⟩
          rw [statusOf, List.find?_cons_of_pos (by simpa using hname), heq]
          exact hparse
        · rw [hyes] at hno'
          cases hno'
      · have hskip : statusOf (field :: fields) = statusOf fields := by
          rw [statusOf, List.find?_cons_of_neg (by simpa using hname), statusOf]
        rw [hskip, ← hcode, ← hsame]
        exact ih h hsaw

theorem validate_informational {s : Stream} {headers : List HeaderField} {endStream : Bool}
    {cl : Int} (h : validateResponseHeaderBlock s headers endStream = .informational cl) :
    s.finalResponseHeadersReceived = false ∧ Informational headers := by
  unfold validateResponseHeaderBlock at h
  split at h
  · cases h
  · split at h
    · cases h
    · rename_i scan hscan
      split at h
      · rename_i hfinal
        split at h
        · cases h
        · rename_i hsaw
          split at h
          · rename_i hcode
            refine ⟨by simpa using hfinal, scan.statusCode, ?_, hcode⟩
            rcases scanHeaders_status hscan (by simpa using hsaw) with ⟨hno, -⟩ | ⟨-, hstatus⟩
            · cases hno
            · exact hstatus
          · cases h
      · repeat' split at h
        all_goals cases h

/-- An accepted block holds the headers of a final response, or trailers that end the stream. -/
theorem validate_accepted_cases {s : Stream} {headers : List HeaderField} {endStream : Bool}
    {cl : Int} (h : validateResponseHeaderBlock s headers endStream = .accepted cl) :
    (s.finalResponseHeadersReceived = false ∧ ¬ Informational headers) ∨
      (s.finalResponseHeadersReceived = true ∧ endStream = true) := by
  unfold validateResponseHeaderBlock at h
  split at h
  · cases h
  · split at h
    · cases h
    · rename_i scan hscan
      split at h
      · rename_i hfinal
        split at h
        · cases h
        · rename_i hsaw
          split at h
          · repeat' split at h
            all_goals cases h
          · rename_i hcode
            -- the status that the loop has kept is the one of the block
            refine Or.inl ⟨by simpa using hfinal, ?_⟩
            rintro ⟨code, hstatus, hinfo⟩
            rcases scanHeaders_status hscan (by simpa using hsaw) with ⟨hno, -⟩ | ⟨-, hread⟩
            · cases hno
            · rw [hread, Option.some.injEq] at hstatus
              exact hcode (hstatus ▸ hinfo)
      · rename_i hfinal
        split at h
        · cases h
        · split at h
          · cases h
          · rename_i hend
            exact Or.inr ⟨by simpa using hfinal, by simpa using hend⟩

/-! ## The record of a stream -/

namespace Stream.Collects

variable {s u : Stream} {parts : List ResponsePart} {headers : List HeaderField} {cl : Int}

/-- The response of the record has not changed. -/
theorem congr (h : s.Collects parts) (hsame : s.SameResponse u) : u.Collects parts := by
  unfold Stream.Collects
  rw [hsame.remote, hsame.final, hsame.resp]
  exact h

theorem ended (h : s.remoteEndStreamReceived = true) : s.Collects parts := Or.inl h

/-- The response before its headers. -/
theorem before (h : s.Collects parts) (hremote : s.remoteEndStreamReceived = false)
    (hfinal : s.finalResponseHeadersReceived = false) : s.resp = {} ∧
      ∃ infos : List (List HeaderField), parts = infos.map .block ∧
        ∀ fields ∈ infos, Informational fields := by
  rcases h with h | ⟨-, h⟩ | ⟨h, -⟩
  · rw [hremote] at h
    cases h
  · exact h
  · rw [hfinal] at h
    cases h

/-- The response after its headers. -/
theorem after (h : s.Collects parts) (hremote : s.remoteEndStreamReceived = false)
    (hfinal : s.finalResponseHeadersReceived = true) : ∃ infos headers chunks,
      BeginsResponse parts infos headers chunks ∧ s.resp = { headers, body := chunks.flatten } := by
  rcases h with h | ⟨h, -⟩ | ⟨-, h⟩
  · rw [hremote] at h
    cases h
  · rw [hfinal] at h
    cases h
  · exact h

theorem withInformational {endStream : Bool} (h : s.Collects parts)
    (hremote : s.remoteEndStreamReceived = false)
    (hv : validateResponseHeaderBlock s.clearBlock headers endStream = .informational cl) :
    (s.withInformational cl).Collects (parts ++ [.block headers]) := by
  obtain ⟨hfinal, hinfo⟩ := validate_informational hv
  obtain ⟨hresp, infos, rfl, hinfos⟩ := h.before hremote hfinal
  refine Or.inr (Or.inl ⟨hfinal, hresp, infos ++ [headers], by simp, fun fields hmem => ?_⟩)
  rcases List.mem_append.1 hmem with hmem | hmem
  · exact hinfos fields hmem
  · rw [List.mem_singleton.1 hmem]
    exact hinfo

theorem withHeaders {endStream : Bool} (h : s.Collects parts)
    (hremote : s.remoteEndStreamReceived = false)
    (hfinal : s.finalResponseHeadersReceived = false)
    (hv : validateResponseHeaderBlock s.clearBlock headers endStream = .accepted cl) :
    (s.withHeaders cl headers).Collects (parts ++ [.block headers]) := by
  obtain ⟨hresp, infos, rfl, hinfos⟩ := h.before hremote hfinal
  have hinfo : ¬ Informational headers := by
    rcases validate_accepted_cases hv with ⟨-, hinfo⟩ | ⟨hcontra, -⟩
    · exact hinfo
    · cases hfinal.symm.trans hcontra
  refine Or.inr (Or.inr ⟨rfl, infos, headers, [], ⟨by simp, hinfos, hinfo⟩, ?_⟩)
  rw [Stream.withHeaders, hresp]
  rfl

theorem withData {inflow : InFlow} {data : Bytes} (h : s.Collects parts)
    (hremote : s.remoteEndStreamReceived = false)
    (hfinal : s.finalResponseHeadersReceived = true) :
    (s.withData inflow data).Collects (parts ++ [.data data]) := by
  obtain ⟨infos, headers, chunks, ⟨rfl, hinfos, hinfo⟩, hresp⟩ := h.after hremote hfinal
  refine Or.inr (Or.inr ⟨hfinal, infos, headers, chunks ++ [data], ⟨by simp, hinfos, hinfo⟩, ?_⟩)
  rw [Stream.withData, hresp]
  simp

end Stream.Collects

theorem collecting_collects : Collecting fun parts s => s.Collects parts where
  congr h hsame := h.congr hsame
  ended h := .ended h
  opened _ _ := Or.inr (Or.inl ⟨rfl, rfl, [], rfl, by simp⟩)
  withInformational h := h.withInformational
  withHeaders h := h.withHeaders
  withData h := h.withData

/-- The parts of a response, with or without trailers, make what its record holds. -/
theorem Completes.reassembles {parts : List ResponsePart} {u : Stream}
    (h : Completes (fun parts s => s.Collects parts) parts u) : Reassembles parts u.resp := by
  obtain ⟨body, s, hs, hremote, hfinal, hrest⟩ := h
  obtain ⟨infos, fields, chunks, hbegins, hresp⟩ := hs.after hremote hfinal
  rcases hrest with ⟨rfl, rfl⟩ | ⟨headers, endStream, cl, rfl, rfl, -⟩
  · exact ⟨infos, fields, chunks, none, parts, by simp, hbegins, hresp⟩
  · refine ⟨infos, fields, chunks, some headers, body, by simp, hbegins, ?_⟩
    rw [Stream.withTrailers, hresp]
    rfl

/-! ## The parts that a frame brings -/

section Parts

variable {p : ProtocolState} {f : RawFrame} {r : ProtocolStepResult} {a : Action} {tr : List Entry}
  {block : Bytes} {k : StreamId}

theorem partsOn_data (id : StreamId) (ht : f.header.type = .data) :
    Entry.partsOn id tr ⟨p, .receiveFrame f, r⟩ =
      if f.header.streamId = id then [.data f.dataFragment] else [] := by
  simp only [Entry.partsOn, Entry.completedBlock, ht, true_and]

theorem partsOn_headers (id : StreamId) (ht : f.header.type = .headers)
    (hend : f.header.hasEndHeadersFlag = true) : Entry.partsOn id tr ⟨p, .receiveFrame f, r⟩ =
      if f.header.streamId = id then [.block ((p.decodedBlock f.headerFragment).2.getD [])]
      else [] := by
  simp only [Entry.partsOn, Entry.completedBlock, ht, hend, if_true]

theorem partsOn_continuation (id : StreamId) (ht : f.header.type = .continuation)
    (hend : f.header.hasEndHeadersFlag = true) (hopen : openBlock tr = some (k, block)) :
    Entry.partsOn id tr ⟨p, .receiveFrame f, r⟩ =
      if k = id then [.block ((p.decodedBlock (block ++ f.data)).2.getD [])] else [] := by
  simp only [Entry.partsOn, Entry.completedBlock, ht, hend, if_true, hopen, Option.map_some]

theorem partsOn_fragment (id : StreamId)
    (ht : f.header.type = .headers ∨ f.header.type = .continuation)
    (hend : f.header.hasEndHeadersFlag = false) :
    Entry.partsOn id tr ⟨p, .receiveFrame f, r⟩ = [] := by
  rcases ht with ht | ht <;> simp [Entry.partsOn, Entry.completedBlock, ht, hend]

theorem partsOn_other (id : StreamId) (hdata : f.header.type ≠ .data)
    (hheaders : f.header.type ≠ .headers) (hcontinuation : f.header.type ≠ .continuation) :
    Entry.partsOn id tr ⟨p, .receiveFrame f, r⟩ = [] := by
  simp [Entry.partsOn, Entry.completedBlock, hdata]

theorem partsOn_local (id : StreamId) (ha : ∀ f, a ≠ .receiveFrame f) :
    Entry.partsOn id tr ⟨p, a, r⟩ = [] := by
  cases a <;> first | rfl | exact absurd rfl (ha _)

end Parts

/-! ## One step -/

namespace ProtocolState

variable {p p' : ProtocolState} {s : Stream} {r : ProtocolStepResult} {f : RawFrame} {a : Action}
  {Q : Stream → Prop} {parts : List ResponsePart} {id : StreamId} {resp : Response}
  {C : List ResponsePart → Stream → Prop}

/-- The end of a frame puts only the record of its stream back. -/
theorem allStreams_ending {b : Bool} (hend : Ending p s b p' r)
    (hothers : ∀ u ∈ p.streams.entries, u.streamId ≠ s.streamId → Q u) (hs : b = false → Q s)
    (hanswered : Q s.answered) : AllStreams Q p'.streams := by
  cases hend with
  | goesOn =>
    intro u hu
    rcases KeyedTable.mem_set.1 hu with ⟨rfl, -⟩ | ⟨hu, hne⟩
    · exact hs rfl
    · exact hothers u hu hne
  | mismatch =>
    exact fun u hu => hothers u (KeyedTable.mem_erase.1 hu).1 (KeyedTable.mem_erase.1 hu).2
  | finished =>
    exact fun u hu => hothers u (KeyedTable.mem_erase.1 hu).1 (KeyedTable.mem_erase.1 hu).2
  | answered =>
    intro u hu
    rcases KeyedTable.mem_set.1 hu with ⟨rfl, -⟩ | ⟨hu, hne⟩
    · exact hanswered
    · exact hothers u hu hne

/-- A complete block adds its fields to the record of its stream. -/
theorem allStreams_blockStep (hC : Collecting C) {b : Bool} (h : BlockStep p s b p' r)
    (hs : C parts s) (hremote : s.remoteEndStreamReceived = false)
    (hothers : ∀ u ∈ p.streams.entries, u.streamId ≠ s.streamId → Q u)
    (hown : ∀ u : Stream, u.streamId = s.streamId →
      C (parts ++ [.block ((p.decodedBlock s.pendingHeaderBlock).2.getD [])]) u → Q u) :
    AllStreams Q p'.streams := by
  have hanswered : ∀ u : Stream, u.streamId = s.streamId → Q u.answered :=
    fun u hu => hown u.answered hu (hC.ended rfl)
  cases h with
  | tooLarge | rejected =>
    exact fun u hu => hothers u (KeyedTable.mem_erase.1 hu).1 (KeyedTable.mem_erase.1 hu).2
  | informational headers cl hd hsize hv =>
    rw [hd] at hown
    intro u hu
    rcases KeyedTable.mem_set.1 hu with ⟨rfl, -⟩ | ⟨hu, hne⟩
    · exact hown _ rfl (hC.withInformational hs hremote hv)
    · exact hothers u hu hne
  | headers headers cl hd hsize hv hfinal hend =>
    rw [hd] at hown
    have hstored : Q (s.withHeaders cl headers) :=
      hown _ rfl (hC.withHeaders hs hremote hfinal hv)
    exact allStreams_ending hend hothers (fun _ => hstored) (hanswered _ rfl)
  | trailers headers cl hd hsize hv hfinal hconnect hend =>
    -- trailers end the stream
    refine allStreams_ending hend hothers (fun hb => ?_) (hanswered _ rfl)
    rcases validate_accepted_cases hv with ⟨hcontra, -⟩ | ⟨-, hb'⟩
    · exact absurd (hfinal.symm.trans hcontra) (by decide)
    · exact absurd (hb.symm.trans hb') (by decide)

/-- A response that a block completes has the record that its parts lead to. -/
theorem completed_blockStep (hC : Collecting C) {b : Bool} (h : BlockStep p s b p' r)
    (hs : C parts s) (hremote : s.remoteEndStreamReceived = false)
    (hmem : ProtocolEvent.responseCompleted id resp ∈ r.events) : id = s.streamId ∧
      ∃ u : Stream, resp = u.resp ∧
        Completes C (parts ++ [.block ((p.decodedBlock s.pendingHeaderBlock).2.getD [])]) u := by
  cases h with
  | tooLarge => simp [streamFailure, failureEvents] at hmem
  | rejected => simp [streamFailure, failureEvents] at hmem
  | informational => simp at hmem
  | headers headers cl hd hsize hv hfinal hend =>
    obtain ⟨hid, hresp⟩ := completed_ending hend (by simpa using hmem)
    rw [hd]
    have hstored := hC.withHeaders hs hremote hfinal hv
    exact ⟨hid, _, hresp, _, _, hstored, hremote, rfl, Or.inl ⟨rfl, rfl⟩⟩
  | trailers headers cl hd hsize hv hfinal hconnect hend =>
    obtain ⟨hid, hresp⟩ := completed_ending hend (by simpa using hmem)
    rw [hd]
    exact ⟨hid, _, hresp, parts, s, hs, hremote, hfinal,
      Or.inr ⟨headers, b, cl, rfl, rfl, hv⟩⟩

/-- A stream that the step brings nothing for. -/
theorem collects_snoc {tr : List Entry} {e : Entry} (hs : C (partsOn s.streamId tr) s)
    (hnil : Entry.partsOn s.streamId tr e = []) : C (partsOn s.streamId (tr ++ [e])) s := by
  rw [partsOn_snoc, hnil, List.append_nil]
  exact hs

/-- What a step must establish: the records hold what has come so far, and so did those of the
responses that it completes. -/
structure CollectStep (C : List ResponsePart → Stream → Prop) (tr : List Entry) (e : Entry)
    (p' : ProtocolState) : Prop where
  streams : p'.closed = false →
    AllStreams (fun u => C (partsOn u.streamId (tr ++ [e])) u) p'.streams
  completed : ∀ id resp, .responseCompleted id resp ∈ e.output.events →
    ∃ u : Stream, resp = u.resp ∧ Completes C (partsOn id (tr ++ [e])) u

section Frames

variable {tr : List Entry}

theorem CollectStep.failed {q : ProtocolState} {pre : ProtocolStepResult} {code : ErrorCode}
    {text : Bytes} {e : Entry} (hclosed : p'.closed = true) (hpre : pre = {} ∨ ∃ promised, pre =
      { events := [.pushPromiseReceived f.header.streamId promised] })
    (he : e.output = pre.merge (q.connectionFailure code text)) : CollectStep C tr e p' := by
  refine ⟨fun hopen => ?_, fun id resp hmem => ?_⟩
  · rw [hclosed] at hopen
    cases hopen
  · have hno : .responseCompleted id resp ∉ (q.connectionFailure code text).events :=
      not_completed_connectionFailure q code text
    rw [he, ProtocolStepResult.events_merge, List.mem_append] at hmem
    rcases hpre with rfl | ⟨promised, rfl⟩
    · exact absurd (hmem.resolve_left (by simp)) hno
    · exact absurd (hmem.resolve_left (by simp)) hno

/-- DATA adds its bytes to the record of its stream. -/
theorem FrameStep.collects_data (hC : Collecting C) (hstep : FrameStep p f p' r)
    (ht : f.header.type = .data)
    (hp : AllStreams (fun s => C (partsOn s.streamId tr) s) p.streams) :
    CollectStep C tr ⟨p, .receiveFrame f, r⟩ p' := by
  have hparts : ∀ id, Entry.partsOn id tr ⟨p, .receiveFrame f, r⟩ =
      if f.header.streamId = id then [.data f.dataFragment] else [] := fun id => partsOn_data id ht
  -- nothing is received for the other streams
  have hothers : ∀ u ∈ p.streams.entries, u.streamId ≠ f.header.streamId →
      C (partsOn u.streamId (tr ++ [⟨p, .receiveFrame f, r⟩])) u := by
    intro u hu hne
    exact collects_snoc (hp u hu) ((hparts _).trans (if_neg (Ne.symm hne)))
  have herased : ∀ s : Stream, p.streams.find? f.header.streamId = some s →
      AllStreams (fun u => C (partsOn u.streamId (tr ++ [⟨p, .receiveFrame f, r⟩])) u)
        (p.streams.erase s.streamId) := by
    intro s hfind u hu
    have hkey : s.streamId = f.header.streamId := KeyedTable.key_of_find? hfind
    exact hothers u (KeyedTable.mem_erase.1 hu).1 (hkey ▸ (KeyedTable.mem_erase.1 hu).2)
  cases hstep with
  | connectionFailed hv hd hpre => exact .failed rfl hpre rfl
  | dataRefused s _ hfind =>
    exact ⟨fun _ => herased s hfind,
      fun _ _ hmem => absurd hmem (not_completed_streamFailure _ _ _ _)⟩
  | dataOnRemoved _ hnone =>
    refine ⟨fun _ u hu => hothers u hu fun hid => ?_, fun _ _ hmem => by cases hmem⟩
    rw [← hid, KeyedTable.mem_iff_find?.1 hu] at hnone
    cases hnone
  | dataOnBodiless s _ hfind =>
    exact ⟨fun _ => herased s hfind,
      fun _ _ hmem => absurd hmem (not_completed_streamFailure _ _ _ _)⟩
  | dataStored s _ hfind hok hfinal htake hbody hend =>
    have hkey : s.streamId = f.header.streamId := KeyedTable.key_of_find? hfind
    have hremote : s.remoteEndStreamReceived = false := by simpa using (not_or.1 hok).2
    have hs : ∀ inflow o, C (partsOn s.streamId (tr ++ [⟨p, .receiveFrame f, o⟩]))
        (s.withData inflow f.dataFragment) := by
      intro inflow o
      rw [partsOn_snoc, partsOn_data _ ht, if_pos hkey.symm]
      exact hC.withData (hp.find hfind) hremote hfinal
    refine ⟨fun _ => allStreams_ending hend (fun u hu hne => hothers u hu (hkey ▸ hne))
      (fun _ => hs _ _) (hC.ended rfl), fun id resp hmem => ?_⟩
    obtain ⟨rfl, hresp⟩ := completed_ending hend (by simpa using hmem)
    exact ⟨_, hresp, _, _, hs _ _, hremote, hfinal, Or.inl ⟨rfl, rfl⟩⟩
  | reported h => cases h <;> simp_all
  | _ => simp_all

/-- A frame that completes a block adds the fields to the record of the block's stream. -/
theorem FrameStep.collects_block (hC : Collecting C) {b : Bool} {q : ProtocolState} {e : Entry}
    (hblock : BlockStep q s b p' r) (he : e.output = r)
    (hp : AllStreams (fun s => C (partsOn s.streamId tr) s) q.streams)
    (hs : C (partsOn s.streamId tr) s) (hremote : s.remoteEndStreamReceived = false)
    (hparts : ∀ id, Entry.partsOn id tr e =
      if s.streamId = id then [.block ((q.decodedBlock s.pendingHeaderBlock).2.getD [])] else []) :
    CollectStep C tr e p' := by
  have hown : partsOn s.streamId (tr ++ [e]) = partsOn s.streamId tr ++
      [.block ((q.decodedBlock s.pendingHeaderBlock).2.getD [])] := by
    rw [partsOn_snoc, hparts, if_pos rfl]
  refine ⟨fun _ => ?_, fun id resp hmem => ?_⟩
  · refine allStreams_blockStep hC hblock hs hremote (fun u hu hne => ?_) (fun u hid hu => ?_)
    · exact collects_snoc (hp u hu) ((hparts _).trans (if_neg (Ne.symm hne)))
    · rw [hid, hown]
      exact hu
  · rw [he] at hmem
    obtain ⟨rfl, hcompletes⟩ := completed_blockStep hC hblock hs hremote hmem
    rw [hown]
    exact hcompletes

/-- A HEADERS frame. -/
theorem FrameStep.collects_headers (hC : Collecting C) (hstep : FrameStep p f p' r)
    (ht : f.header.type = .headers)
    (hp : AllStreams (fun s => C (partsOn s.streamId tr) s) p.streams)
    (hstate : HeaderState True p) (hexp : p'.closed = false → p.expectingContinuation = false)
    (hwas : p.closed = false) : CollectStep C tr ⟨p, .receiveFrame f, r⟩ p' := by
  -- nothing is received for the other streams
  have hothers : ∀ u ∈ p.streams.entries, u.streamId ≠ f.header.streamId →
      C (partsOn u.streamId (tr ++ [⟨p, .receiveFrame f, r⟩])) u := by
    intro u hu hne
    refine collects_snoc (hp u hu) ?_
    cases hend : f.header.hasEndHeadersFlag with
    | true => rw [partsOn_headers _ ht hend, if_neg (Ne.symm hne)]
    | false => exact partsOn_fragment _ (Or.inl ht) hend
  have hgone : p.streams.find? f.header.streamId = none →
      AllStreams (fun u => C (partsOn u.streamId (tr ++ [⟨p, .receiveFrame f, r⟩])) u)
        p.streams := by
    intro hnone u hu
    refine hothers u hu fun hid => ?_
    rw [← hid, KeyedTable.mem_iff_find?.1 hu] at hnone
    cases hnone
  cases hstep with
  | connectionFailed hv hd hpre => exact .failed rfl hpre rfl
  | headersRefused s _ hfind =>
    have hkey : s.streamId = f.header.streamId := KeyedTable.key_of_find? hfind
    refine ⟨fun _ u hu => ?_, fun _ _ hmem => absurd hmem (not_completed_streamFailure _ _ _ _)⟩
    exact hothers u (KeyedTable.mem_erase.1 hu).1 (hkey ▸ (KeyedTable.mem_erase.1 hu).2)
  | ghostHeaders _ hnone => exact ⟨fun _ => hgone hnone, fun _ _ hmem => by cases hmem⟩
  | ghostHeadersOpen _ hnone => exact ⟨fun _ => hgone hnone, fun _ _ hmem => by cases hmem⟩
  | headersOpen s _ hfind hok hend =>
    refine ⟨fun _ u hu => ?_, fun _ _ hmem => by cases hmem⟩
    have hnil : ∀ id, Entry.partsOn id tr ⟨p, .receiveFrame f, {}⟩ = [] :=
      fun id => partsOn_fragment id (Or.inl ht) hend
    rcases KeyedTable.mem_set.1 hu with ⟨rfl, -⟩ | ⟨hu, -⟩
    · exact collects_snoc (hC.congr (s := s) (hp.find hfind) ⟨rfl, rfl, rfl, rfl, rfl⟩) (hnil _)
    · exact collects_snoc (hp u hu) (hnil _)
  | headersBlock s _ hfind hok hend hblock =>
    have hkey : s.streamId = f.header.streamId := KeyedTable.key_of_find? hfind
    have hidle := hexp ((congrArg ProtocolState.closed hblock.eq_with :).trans hwas)
    -- no block is open, so the frame alone is the block
    have hpending : s.pendingHeaderBlock = [] :=
      (hstate.streams.find hfind).pending (hstate.not_waiting hidle (KeyedTable.mem_of_find? hfind))
    refine collects_block hC hblock rfl hp
      (hC.congr (s := s) (hp.find hfind) ⟨rfl, rfl, rfl, rfl, rfl⟩)
      (by simpa using (not_or.1 hok).2 : s.remoteEndStreamReceived = false) fun id => ?_
    rw [partsOn_headers id ht hend]
    simp only [Stream.withFragment, hpending, List.nil_append, hkey]
  | reported h => cases h <;> simp_all
  | _ => simp_all

/-- A CONTINUATION frame. -/
theorem FrameStep.collects_continuation (hC : Collecting C) (hstep : FrameStep p f p' r)
    (ht : f.header.type = .continuation)
    (hp : AllStreams (fun s => C (partsOn s.streamId tr) s) p.streams)
    (hstate : HeaderState True p) (hopened : p.expectingContinuation = true →
      openBlock tr = some (p.continuationStreamId, p.pendingBlock)) :
    CollectStep C tr ⟨p, .receiveFrame f, r⟩ p' := by
  cases hstep with
  | connectionFailed hv hd hpre => exact .failed rfl hpre rfl
  | ghostContinuationOpen _ hexp hid hnone hend =>
    refine ⟨fun _ u hu => ?_, fun _ _ hmem => by cases hmem⟩
    exact collects_snoc (hp u hu) (partsOn_fragment _ (Or.inr ht) hend)
  | ghostContinuation _ hexp hid hnone hend =>
    refine ⟨fun _ u hu => collects_snoc (hp u hu) ?_, fun _ _ hmem => by cases hmem⟩
    rw [partsOn_continuation _ ht hend (hopened hexp), if_neg]
    intro hkey
    change u ∈ p.streams.entries at hu
    rw [← hid, hkey, KeyedTable.mem_iff_find?.1 hu] at hnone
    cases hnone
  | continuationOpen s _ hexp hid hfind hend =>
    refine ⟨fun _ u hu => ?_, fun _ _ hmem => by cases hmem⟩
    have hnil : ∀ id, Entry.partsOn id tr ⟨p, .receiveFrame f, {}⟩ = [] :=
      fun id => partsOn_fragment id (Or.inr ht) hend
    rcases KeyedTable.mem_set.1 hu with ⟨rfl, -⟩ | ⟨hu, -⟩
    · exact collects_snoc (hC.congr (s := s) (hp.find hfind) ⟨rfl, rfl, rfl, rfl, rfl⟩) (hnil _)
    · exact collects_snoc (hp u hu) (hnil _)
  | continuationBlock s _ hexp hid hfind hend hblock =>
    have hkey : s.streamId = p.continuationStreamId :=
      (KeyedTable.key_of_find? hfind).trans hid.symm
    have hok := hstate.streams.find hfind
    have hremote : s.remoteEndStreamReceived = false :=
      hok.remote (hok.waiting.2 ⟨hexp, hkey.symm⟩)
    refine collects_block hC hblock rfl hp
      (hC.congr (s := s) (hp.find hfind) ⟨rfl, rfl, rfl, rfl, rfl⟩) hremote fun id => ?_
    rw [partsOn_continuation id ht hend (hopened hexp), pendingBlock_of_find? (hid ▸ hfind),
      ← hkey]
    rfl
  | reported h => cases h <;> simp_all
  | _ => simp_all

theorem Collecting.keptByEmission (hC : Collecting C) :
    KeptByEmission (fun s : Stream => C (partsOn s.streamId tr) s) :=
  ⟨fun _ _ h _ _ _ => hC.congr h ⟨rfl, rfl, rfl, rfl, rfl⟩,
    fun _ _ h _ _ _ _ => hC.congr h ⟨rfl, rfl, rfl, rfl, rfl⟩⟩

/-- Every received frame. -/
theorem FrameStep.collects (hC : Collecting C) (hstep : FrameStep p f p' r)
    (hp : AllStreams (fun s => C (partsOn s.streamId tr) s) p.streams)
    (hstate : HeaderState True p) (hopened : p.expectingContinuation = true →
      openBlock tr = some (p.continuationStreamId, p.pendingBlock))
    (hnext : p.expectingContinuation = true → f.header.type ≠ .continuation → p'.closed = true)
    (hwas : p.closed = false) : CollectStep C tr ⟨p, .receiveFrame f, r⟩ p' := by
  by_cases hdata : f.header.type = .data
  · exact hstep.collects_data hC hdata hp
  by_cases hheaders : f.header.type = .headers
  · refine hstep.collects_headers hC hheaders hp hstate (fun hopen => ?_) hwas
    by_contra hexp
    rw [hnext (by simpa using hexp) (by simp [hheaders])] at hopen
    cases hopen
  by_cases hcontinuation : f.header.type = .continuation
  · exact hstep.collects_continuation hC hcontinuation hp hstate hopened
  · refine ⟨fun _ u hu => ?_, fun id resp hmem => ?_⟩
    · refine collects_snoc ?_ (partsOn_other _ hdata hheaders hcontinuation)
      exact hp.frameStep_other (Collecting.keptByEmission hC)
        (fun _ _ h => hC.congr h ⟨rfl, rfl, rfl, rfl, rfl⟩) hdata hheaders hcontinuation hstep u hu
    · exact absurd hmem (hstep.not_completed hdata hheaders hcontinuation)

/-- A HEADERS or DATA frame that leaves the connection open is on a stream that has been opened. -/
theorem FrameStep.streamId_lt (hstep : FrameStep p f p' r) (htidy : p.Tidy)
    (ht : f.header.type = .data ∨ f.header.type = .headers) (hopen : p'.closed = false) :
    f.header.streamId < p.nextStreamId := by
  have hlive : ∀ s, p.streams.find? f.header.streamId = some s →
      f.header.streamId < p.nextStreamId := fun s hfind =>
    htidy.lt_next _ (KeyedTable.mem_keys_of_find? hfind)
  have hopened : ¬ p.NeverOpened f.header.streamId → f.header.streamId < p.nextStreamId :=
    fun hid => not_le.1 fun hle => hid (Or.inr hle)
  cases hstep with
  | reported h => cases h <;> simp_all
  | connectionFailed => cases hopen
  | dataRefused s _ hfind => exact hlive s hfind
  | dataOnRemoved _ hnone hid => exact hopened hid
  | dataOnBodiless s _ hfind => exact hlive s hfind
  | dataStored s _ hfind => exact hlive s hfind
  | headersRefused s _ hfind => exact hlive s hfind
  | ghostHeaders _ hnone hid => exact hopened hid
  | ghostHeadersOpen _ hnone hid => exact hopened hid
  | headersOpen s _ hfind => exact hlive s hfind
  | headersBlock s _ hfind => exact hlive s hfind
  | _ => simp_all

/-- Nothing arrives for a response on a stream that has not been opened. -/
theorem FrameStep.partsOn_unopened (hstep : FrameStep p f p' r) (htidy : p.Tidy)
    (hstate : HeaderState True p) (hopened : p.expectingContinuation = true →
      openBlock tr = some (p.continuationStreamId, p.pendingBlock))
    (hopen : p'.closed = false) (hid : p.nextStreamId ≤ id) :
    Entry.partsOn id tr ⟨p, .receiveFrame f, r⟩ = [] := by
  by_cases hdata : f.header.type = .data
  · have hlt := hstep.streamId_lt htidy (Or.inl hdata) hopen
    rw [partsOn_data id hdata, if_neg (Nat.ne_of_lt (Nat.lt_of_lt_of_le hlt hid))]
  by_cases hheaders : f.header.type = .headers
  · have hlt := hstep.streamId_lt htidy (Or.inr hheaders) hopen
    cases hend : f.header.hasEndHeadersFlag with
    | true =>
      rw [partsOn_headers id hheaders hend, if_neg (Nat.ne_of_lt (Nat.lt_of_lt_of_le hlt hid))]
    | false => exact partsOn_fragment id (Or.inl hheaders) hend
  by_cases hcontinuation : f.header.type = .continuation
  · cases hend : f.header.hasEndHeadersFlag with
    | true =>
      have hexp : p.expectingContinuation = true := by
        cases hstep with
        | connectionFailed => cases hopen
        | reported h => cases h <;> simp_all
        | _ => simp_all
      rw [partsOn_continuation id hcontinuation hend (hopened hexp),
        if_neg (Nat.ne_of_lt (Nat.lt_of_lt_of_le (hstate.opened hexp) hid))]
    | false => exact partsOn_fragment id (Or.inr hcontinuation) hend
  · exact partsOn_other id hdata hheaders hcontinuation

/-- A local operation leaves what the records hold. -/
theorem ActionStep.collects_local (hC : Collecting C) (hstep : ActionStep p a p' r)
    (ha : ∀ f, a ≠ .receiveFrame f)
    (hp : AllStreams (fun s => C (partsOn s.streamId tr) s) p.streams)
    (hnew : partsOn p.nextStreamId tr = []) :
    AllStreams (fun s => C (partsOn s.streamId tr) s) p'.streams := by
  cases hstep with
  | opened request rehash hcan hvalid hroom hpos hmax hbody =>
    have hopened : C (partsOn (p.openedStream request).streamId tr) (p.openedStream request) := by
      rw [show (p.openedStream request).streamId = p.nextStreamId from rfl, hnew]
      exact hC.opened p request
    refine AllStreams.bodyStep (Collecting.keptByEmission hC) hbody (fun s hs => ?_) hopened
    rcases mem_opening hs with rfl | hs
    · exact hopened
    · exact hp s hs
  | cancelled => exact hp.erase _
  | closed => exact .empty
  | transportLost => exact .empty
  | frame f => exact absurd rfl (ha f)
  | _ => exact hp

end Frames

end ProtocolState

/-! ## Runs -/

/-- What holds of responses while a connection is open. -/
structure Collected (C : List ResponsePart → Stream → Prop) (tr : List Entry) (p : ProtocolState) :
    Prop where
  streams : AllStreams (fun s => C (partsOn s.streamId tr) s) p.streams
  unopened : ∀ id, p.nextStreamId ≤ id → partsOn id tr = []

section Runs

variable {config : ClientConfig} {tr : List Entry} {p p' : ProtocolState} {a : Action}
  {r : ProtocolStepResult} {C : List ResponsePart → Stream → Prop}

/-- Every step that leaves the connection open keeps the records. -/
theorem Collected.step (hC : Collecting C) (hp : Collected C tr p) (hstep : ActionStep p a p' r)
    (htidy : p.Tidy)
    (hlost : p.transportClosed = true → p.closed = true) (hstate : HeaderState True p)
    (hopened : p.expectingContinuation = true →
      openBlock tr = some (p.continuationStreamId, p.pendingBlock)) (hopen : p'.closed = false) :
    Collected C (tr ++ [⟨p, a, r⟩]) p' := by
  -- a local action receives no part of any response
  have hlocal : (∀ f, a ≠ .receiveFrame f) → Collected C (tr ++ [⟨p, a, r⟩]) p' := by
    intro ha
    have hnone : ∀ id, partsOn id (tr ++ [⟨p, a, r⟩]) = partsOn id tr := by
      intro id
      rw [partsOn_snoc, partsOn_local id ha, List.append_nil]
    refine ⟨?_, fun id hid => ?_⟩
    · simp only [hnone]
      exact hstep.collects_local hC ha hp.streams (hp.unopened _ (Nat.le_refl _))
    · rw [hnone]
      exact hp.unopened id (Nat.le_trans hstep.next_le hid)
  cases a with
  | receiveFrame f =>
    cases hstep with
    | frameIgnored _ h =>
      rw [h.elim id hlost] at hopen
      cases hopen
    | frame _ hwas hup hframe hnext =>
      refine ⟨(hframe.collects hC hp.streams hstate hopened hnext hwas).streams hopen,
        fun id hid => ?_⟩
      -- on an id that is not given out nothing is received either
      have hid' : p.nextStreamId ≤ id := hframe.steady.nextStreamId ▸ hid
      rw [partsOn_snoc, hp.unopened id hid',
        hframe.partsOn_unopened htidy hstate hopened hopen hid', List.append_nil]
  | _ => exact hlocal (by simp)

/-- While the connection is open, the records hold what has been received. -/
theorem collected_of_runs (hC : Collecting C) (h : Runs (ofConfig config) tr p)
    (hopen : p.closed = false) : Collected C tr p := by
  refine runs_invariant_open (I := Collected C) ?_ ?_ h hopen
  · exact ⟨.empty, fun _ _ => rfl⟩
  · intro tr p a p' r hr hwas hI hstep hopen
    exact hI.step hC hstep (tidy_of_runs hr) (closed_of_lost_transport hr)
      (headerState_of_open hr hwas) (blocksDecoded_of_runs hr hwas).opened hopen

/-- Every completed response is the one that the parts received on its stream make. -/
theorem response_reassembled {before after : List Entry} {e : Entry} {id : StreamId}
    {resp : Response} (h : Runs (ofConfig config) (before ++ e :: after) p)
    (hmem : .responseCompleted id resp ∈ e.output.events) :
    Reassembles (partsOn id (before ++ [e])) resp := by
  obtain ⟨hr, p', hact⟩ := h.at_entry
  have hstep := actionStep_of_act (sound_of_runs hr) hact
  rcases e with ⟨p, a, r⟩
  cases a with
  | receiveFrame f =>
    cases hstep with
    | frameIgnored => cases hmem
    | frame _ hwas hup hframe hnext =>
      have hstreams := (collected_of_runs collecting_collects hr hwas).streams
      obtain ⟨u, rfl, hcompletes⟩ := (hframe.collects collecting_collects hstreams
        (headerState_of_open hr hwas) (blocksDecoded_of_runs hr hwas).opened hnext hwas).completed
          id resp hmem
      exact hcompletes.reassembles
  | _ => exact absurd hmem (hstep.not_completed (by simp))

end Runs

/-- A response with five bytes of body and a trailer. -/
theorem response_reassembled_of_trailers :
    ∃ before e p, Runs (ofConfig {}) (before ++ [e]) p ∧
      Reassembles (partsOn 1 (before ++ [e]))
        { okResponse with
          body := ascii "hello"
          trailers := [{ name := ascii "x", value := ascii "y" }] } := by
  have hrun : (Machine.run act (ofConfig {}) [.start, .receiveFrame emptySettingsFrame,
      .submitRequest getRequest (.id _), .receiveFrame (okResponseFrame 4),
      .receiveFrame dataOnFirstStream, .receiveFrame (indexedFieldFrame 5 5)]).map
        (fun x => x.2.getLast?.map fun e => decide (.responseCompleted 1 { okResponse with
          body := ascii "hello"
          trailers := [{ name := ascii "x", value := ascii "y" }] } ∈ e.output.events)) =
      .ok (some true) := by decide +kernel
  obtain ⟨p, tr, hr, -, hresult⟩ := Machine.exists_runs_of_map hrun
  rcases List.eq_nil_or_concat tr with rfl | ⟨before, e, rfl⟩
  · cases hresult
  · rw [List.concat_eq_append] at hr hresult
    simp only [List.getLast?_concat, Option.map_some, Option.some.injEq, decide_eq_true_eq]
      at hresult
    exact ⟨before, e, p, hr, response_reassembled hr hresult⟩

end Chttp2
