import Chttp2.Hpack.Refinement
import Chttp2.Protocol.FrameStep
import Mathlib.Logic.Function.Basic

/-!
# The server's side of a connection

`Server` is the receiving side of the peer of a client connection, in the terms of RFC 9113: it
expects the connection preface and SETTINGS, numbers requests by increasing odd ids, assembles header
blocks and decodes them with the reference decoder, and bounds every frame and every body by the
settings and the credit that it has given. `Server.Receives` says which buffers pass these checks. It
does not look at what a request says, so that a malformed one passes, nor at the values of the
client's SETTINGS or the number of open streams.

A server announces settings with a SETTINGS frame, and they bind the client when it acknowledges
them. In between a frame may follow the old settings or any of the new ones, so the limits on a
DATA or HEADERS frame are those after some beginning of the settings that are announced.
-/

set_option autoImplicit false

namespace Chttp2

open Hpack (Reference.Table Reference.Accepts)

namespace Server

/-- What has arrived of a request. -/
structure Incoming where
  fields : List HeaderField
  body : Bytes := []
  /-- END_STREAM has arrived. -/
  ended : Bool := false
  /-- RST_STREAM has arrived. -/
  reset : Bool := false

/-- A header block that CONTINUATION frames are expected for. -/
structure OpenBlock where
  streamId : StreamId
  endStream : Bool
  bytes : Bytes

/-- What the server expects first. -/
inductive Greeting where
  | preface
  | settings
  | done
  deriving DecidableEq, Repr

end Server

/-- The state of a server. -/
structure Server where
  greeting : Server.Greeting := .preface
  /-- the settings that have been announced and not acknowledged, one list for each frame -/
  announced : List (List (Nat × Nat)) := []
  maxFrameSize : Nat := 16384
  initialWindowSize : Nat := 65535
  tableLimit : Nat := 4096
  table : Reference.Table := ⟨[], 4096, Nat.zero_le _⟩
  block : Option Server.OpenBlock := none
  lastStreamId : StreamId := 0
  requests : StreamId → Option Server.Incoming := fun _ => none
  /-- the credit given on each stream, and on stream 0 for the connection -/
  credit : StreamId → Nat := fun _ => 0
  /-- the body bytes that have arrived on all streams -/
  received : Nat := 0
  /-- GOAWAY has arrived. -/
  gone : Bool := false

namespace Server

/-! ## Sending -/

/-- The server sends SETTINGS. -/
def announce (v : Server) (settings : List (Nat × Nat)) : Server :=
  { v with announced := v.announced ++ [settings] }

/-- The server sends a WINDOW_UPDATE. -/
def grant (v : Server) (streamId : StreamId) (increment : Nat) : Server :=
  { v with credit := Function.update v.credit streamId (v.credit streamId + increment) }

/-- The server has sent a frame. -/
def tell (v : Server) (f : RawFrame) : Server :=
  match f.header.type with
  | .settings => if f.header.hasAckFlag then v else v.announce f.settings
  | .windowUpdate => v.grant f.header.streamId f.windowIncrement
  | _ => v

/-! ## Receiving -/

/-- The oldest announced settings are in force. -/
def acknowledge (v : Server) (settings : List (Nat × Nat)) (rest : List (List (Nat × Nat))) :
    Server :=
  { v with
    announced := rest
    maxFrameSize := ProtocolState.settingOf .maxFrameSize settings v.maxFrameSize
    initialWindowSize := ProtocolState.settingOf .initialWindowSize settings v.initialWindowSize
    tableLimit := ProtocolState.settingOf .headerTableSize settings v.tableLimit }

/-- What has come of the request of a stream. -/
def putRequest (v : Server) (streamId : StreamId) (incoming : Incoming) : Server :=
  { v with requests := Function.update v.requests streamId (some incoming) }

/-- A complete header block opens a request. -/
def accept (v : Server) (streamId : StreamId) (endStream : Bool) (fields : List HeaderField)
    (table : Reference.Table) : Server :=
  { v.putRequest streamId { fields, ended := endStream } with
    table, block := none, lastStreamId := streamId }

/-- Body bytes arrive. -/
def store (v : Server) (streamId : StreamId) (incoming : Incoming) (data : Bytes)
    (endStream : Bool) : Server :=
  { v.putRequest streamId { incoming with body := incoming.body ++ data, ended := endStream } with
    received := v.received + data.length }

/-- Frames are expected, and no header block is open. -/
structure Ready (v : Server) : Prop where
  greeting : v.greeting = .done
  block : v.block = none
  gone : v.gone = false

/-- A payload of `n` bytes is within the frame size, with some of the announced settings in force. -/
def Fits (v : Server) (n : Nat) : Prop :=
  ∃ applied, applied <+: v.announced ∧
    n ≤ ProtocolState.settingOf .maxFrameSize applied.flatten v.maxFrameSize

/-- `n` body bytes are within the window of a stream on which `sent` bytes have arrived. -/
def WithinWindow (v : Server) (streamId : StreamId) (sent n : Nat) : Prop :=
  ∃ applied, applied <+: v.announced ∧ sent + n ≤ v.credit streamId +
    ProtocolState.settingOf .initialWindowSize applied.flatten v.initialWindowSize

/-- The decoder accepts the block, and the block leaves the dynamic table within its limit. -/
def Decodes (v : Server) (bytes : Bytes) (fields : List HeaderField) (table : Reference.Table) :
    Prop :=
  Reference.Accepts v.tableLimit v.table bytes fields table ∧ table.maxSize ≤ v.tableLimit

/-- The id may be that of a new request. -/
def Opens (v : Server) (streamId : StreamId) : Prop := streamId % 2 = 1 ∧ v.lastStreamId < streamId

/-- The buffers that the server accepts. -/
inductive Receives (v : Server) : OutboundBuffer → Server → Prop
  | preface (h : v.greeting = .preface) : Receives v .preface { v with greeting := .settings }
  | settings {f : SettingFrame} (h : v.greeting = .settings) (hid : f.header.streamId = 0)
      (hack : f.header.hasAckFlag = false) :
      Receives v (.settings f) { v with greeting := .done }
  | settingsAck {f : SettingFrame} {settings : List (Nat × Nat)} {rest : List (List (Nat × Nat))}
      (h : v.Ready) (hid : f.header.streamId = 0) (hack : f.header.hasAckFlag = true)
      (hempty : f.settings = []) (hannounced : v.announced = settings :: rest) :
      Receives v (.settings f) (v.acknowledge settings rest)
  | headers {f : HeadersFrame} {fields : List HeaderField} {table : Reference.Table} (h : v.Ready)
      (hid : v.Opens f.header.streamId) (hfits : v.Fits f.data.length)
      (hend : f.header.hasEndHeadersFlag = true) (hdecodes : v.Decodes f.data fields table) :
      Receives v (.headers f)
        (v.accept f.header.streamId f.header.hasEndStreamFlag fields table)
  | headersOpen {f : HeadersFrame} (h : v.Ready) (hid : v.Opens f.header.streamId)
      (hfits : v.Fits f.data.length) (hend : f.header.hasEndHeadersFlag = false) :
      Receives v (.headers f) { v with
        block := some ⟨f.header.streamId, f.header.hasEndStreamFlag, f.data⟩ }
  | continuation {f : ContinuationFrame} {b : OpenBlock} {fields : List HeaderField}
      {table : Reference.Table} (hgone : v.gone = false) (hblock : v.block = some b)
      (hid : f.header.streamId = b.streamId) (hfits : v.Fits f.data.length)
      (hend : f.header.hasEndHeadersFlag = true)
      (hdecodes : v.Decodes (b.bytes ++ f.data) fields table) :
      Receives v (.continuation f) (v.accept b.streamId b.endStream fields table)
  | continuationOpen {f : ContinuationFrame} {b : OpenBlock} (hgone : v.gone = false)
      (hblock : v.block = some b) (hid : f.header.streamId = b.streamId)
      (hfits : v.Fits f.data.length) (hend : f.header.hasEndHeadersFlag = false) :
      Receives v (.continuation f) { v with
        block := some { b with bytes := b.bytes ++ f.data } }
  | data {f : DataFrame} {incoming : Incoming} (h : v.Ready)
      (hfind : v.requests f.header.streamId = some incoming) (hended : incoming.ended = false)
      (hreset : incoming.reset = false) (hfits : v.Fits f.data.length)
      (hconnection : v.received + f.data.length ≤ 65535 + v.credit 0)
      (hstream : v.WithinWindow f.header.streamId incoming.body.length f.data.length) :
      Receives v (.data f) (v.store f.header.streamId incoming f.data f.header.hasEndStreamFlag)
  | rstStream {f : RstStreamFrame} {incoming : Incoming} (h : v.Ready)
      (hfind : v.requests f.header.streamId = some incoming) (hreset : incoming.reset = false) :
      Receives v (.rstStream f) (v.putRequest f.header.streamId { incoming with reset := true })
  | ping {f : PingFrame} (h : v.Ready) (hid : f.header.streamId = 0) : Receives v (.ping f) v
  | windowUpdate {f : WindowUpdateFrame} (h : v.Ready) (hpos : 0 < f.windowSizeIncrement)
      (hid : f.header.streamId = 0 ∨ ∃ incoming,
        v.requests f.header.streamId = some incoming ∧ incoming.reset = false) :
      Receives v (.windowUpdate f) v
  | goAway {f : GoAwayFrame} (h : v.Ready) (hid : f.header.streamId = 0) :
      Receives v (.goAway f) { v with gone := true }

/-! ## What the server sends does not change what it accepts -/

section Tell

variable {v v' : Server} {b : OutboundBuffer}

theorem Fits.announce {n : Nat} (h : v.Fits n) (settings : List (Nat × Nat)) :
    (v.announce settings).Fits n := by
  obtain ⟨applied, hprefix, hle⟩ := h
  exact ⟨applied, hprefix.trans (List.prefix_append _ _), hle⟩

theorem WithinWindow.announce {streamId : StreamId} {sent n : Nat}
    (h : v.WithinWindow streamId sent n) (settings : List (Nat × Nat)) :
    (v.announce settings).WithinWindow streamId sent n := by
  obtain ⟨applied, hprefix, hle⟩ := h
  exact ⟨applied, hprefix.trans (List.prefix_append _ _), hle⟩

/-- Credit only grows. -/
theorem credit_le_grant (v : Server) (id : StreamId) (n : Nat) (k : StreamId) :
    v.credit k ≤ (v.grant id n).credit k := by
  by_cases hk : k = id
  · subst hk
    exact (Nat.le_add_right _ n).trans (Function.update_self k _ v.credit).ge
  · exact (Function.update_of_ne hk _ v.credit).ge

theorem WithinWindow.grant {streamId : StreamId} {sent n : Nat}
    (h : v.WithinWindow streamId sent n) (id : StreamId) (increment : Nat) :
    (v.grant id increment).WithinWindow streamId sent n := by
  obtain ⟨applied, hprefix, hle⟩ := h
  have hcredit := v.credit_le_grant id increment streamId
  exact ⟨applied, hprefix, hle.trans (Nat.add_le_add_right hcredit _)⟩

theorem Receives.announce (h : Receives v b v') (settings : List (Nat × Nat)) :
    Receives (v.announce settings) b (v'.announce settings) := by
  cases h with
  | preface h => exact .preface h
  | settings h hid hack => exact .settings h hid hack
  | @settingsAck f oldest rest h hid hack hempty hannounced =>
    have hmore : (v.announce settings).announced = oldest :: (rest ++ [settings]) :=
      congrArg (· ++ [settings]) hannounced
    exact .settingsAck ⟨h.1, h.2, h.3⟩ hid hack hempty hmore
  | headers h hid hfits hend hdecodes =>
    exact .headers ⟨h.1, h.2, h.3⟩ hid (hfits.announce _) hend hdecodes
  | headersOpen h hid hfits hend => exact .headersOpen ⟨h.1, h.2, h.3⟩ hid (hfits.announce _) hend
  | continuation hgone hblock hid hfits hend hdecodes =>
    exact .continuation hgone hblock hid (hfits.announce _) hend hdecodes
  | continuationOpen hgone hblock hid hfits hend =>
    exact .continuationOpen hgone hblock hid (hfits.announce _) hend
  | data h hfind hended hreset hfits hconnection hstream =>
    exact .data ⟨h.1, h.2, h.3⟩ hfind hended hreset (hfits.announce _) hconnection
      (hstream.announce _)
  | rstStream h hfind hreset => exact .rstStream ⟨h.1, h.2, h.3⟩ hfind hreset
  | ping h hid => exact .ping ⟨h.1, h.2, h.3⟩ hid
  | windowUpdate h hpos hid => exact .windowUpdate ⟨h.1, h.2, h.3⟩ hpos hid
  | goAway h hid => exact .goAway ⟨h.1, h.2, h.3⟩ hid

theorem Receives.grant (h : Receives v b v') (id : StreamId) (increment : Nat) :
    Receives (v.grant id increment) b (v'.grant id increment) := by
  cases h with
  | preface h => exact .preface h
  | settings h hid hack => exact .settings h hid hack
  | settingsAck h hid hack hempty hannounced =>
    exact .settingsAck ⟨h.1, h.2, h.3⟩ hid hack hempty hannounced
  | headers h hid hfits hend hdecodes => exact .headers ⟨h.1, h.2, h.3⟩ hid hfits hend hdecodes
  | headersOpen h hid hfits hend => exact .headersOpen ⟨h.1, h.2, h.3⟩ hid hfits hend
  | continuation hgone hblock hid hfits hend hdecodes =>
    exact .continuation hgone hblock hid hfits hend hdecodes
  | continuationOpen hgone hblock hid hfits hend =>
    exact .continuationOpen hgone hblock hid hfits hend
  | data h hfind hended hreset hfits hconnection hstream =>
    have hcredit := v.credit_le_grant id increment 0
    exact .data ⟨h.1, h.2, h.3⟩ hfind hended hreset hfits
      (hconnection.trans (Nat.add_le_add_left hcredit _)) (hstream.grant _ _)
  | rstStream h hfind hreset => exact .rstStream ⟨h.1, h.2, h.3⟩ hfind hreset
  | ping h hid => exact .ping ⟨h.1, h.2, h.3⟩ hid
  | windowUpdate h hpos hid => exact .windowUpdate ⟨h.1, h.2, h.3⟩ hpos hid
  | goAway h hid => exact .goAway ⟨h.1, h.2, h.3⟩ hid

/-- A buffer that the server accepts, it accepts also after it has sent a frame, with the same
effect. -/
theorem Receives.tell (h : Receives v b v') (f : RawFrame) :
    Receives (v.tell f) b (v'.tell f) := by
  unfold Server.tell
  split
  · split
    · exact h
    · exact h.announce _
  · exact h.grant _ _
  · exact h

end Tell

/-! ## The server has no choice -/

theorem Decodes.unique {v : Server} {bytes : Bytes} {fields fields' : List HeaderField}
    {table table' : Reference.Table} (h : v.Decodes bytes fields table)
    (h' : v.Decodes bytes fields' table') : fields = fields' ∧ table = table' :=
  Hpack.Reference.Accepts.unique h.1 h'.1

/-- A buffer leads to one state. -/
theorem Receives.unique {v v₁ v₂ : Server} {b : OutboundBuffer} (h₁ : Receives v b v₁)
    (h₂ : Receives v b v₂) : v₁ = v₂ := by
  cases h₁ with
  | preface => cases h₂; rfl
  | settings h hid hack =>
    cases h₂ with
    | settings => rfl
    | settingsAck h' hid' hack' => exact absurd (hack.symm.trans hack') (by decide)
  | settingsAck h hid hack hempty hannounced =>
    cases h₂ with
    | settings h' hid' hack' => exact absurd (hack'.symm.trans hack) (by decide)
    | settingsAck h' hid' hack' hempty' hannounced' =>
      obtain ⟨rfl, rfl⟩ := List.cons.inj (hannounced.symm.trans hannounced')
      rfl
  | headers h hid hfits hend hdecodes =>
    cases h₂ with
    | headers h' hid' hfits' hend' hdecodes' =>
      obtain ⟨rfl, rfl⟩ := hdecodes.unique hdecodes'
      rfl
    | headersOpen h' hid' hfits' hend' => exact absurd (hend.symm.trans hend') (by decide)
  | headersOpen h hid hfits hend =>
    cases h₂ with
    | headers h' hid' hfits' hend' => exact absurd (hend.symm.trans hend') (by decide)
    | headersOpen => rfl
  | continuation hgone hblock hid hfits hend hdecodes =>
    cases h₂ with
    | continuation hgone' hblock' hid' hfits' hend' hdecodes' =>
      obtain rfl := Option.some.inj (hblock.symm.trans hblock')
      obtain ⟨rfl, rfl⟩ := hdecodes.unique hdecodes'
      rfl
    | continuationOpen hgone' hblock' hid' hfits' hend' =>
      exact absurd (hend.symm.trans hend') (by decide)
  | continuationOpen hgone hblock hid hfits hend =>
    cases h₂ with
    | continuation hgone' hblock' hid' hfits' hend' =>
      exact absurd (hend.symm.trans hend') (by decide)
    | continuationOpen hgone' hblock' =>
      obtain rfl := Option.some.inj (hblock.symm.trans hblock')
      rfl
  | data h hfind =>
    cases h₂ with
    | data h' hfind' =>
      obtain rfl := Option.some.inj (hfind.symm.trans hfind')
      rfl
  | rstStream h hfind =>
    cases h₂ with
    | rstStream h' hfind' =>
      obtain rfl := Option.some.inj (hfind.symm.trans hfind')
      rfl
  | ping => cases h₂; rfl
  | windowUpdate => cases h₂; rfl
  | goAway => cases h₂; rfl

/-! ## What has arrived stays -/

/-- `incoming'` is `incoming` after more frames: the fields stay, the body grows until END_STREAM. -/
structure Incoming.Grows (incoming incoming' : Incoming) : Prop where
  fields : incoming'.fields = incoming.fields
  body : incoming.body <+: incoming'.body
  ended : incoming.ended = true → incoming'.ended = true ∧ incoming'.body = incoming.body

theorem Incoming.Grows.refl (incoming : Incoming) : incoming.Grows incoming :=
  ⟨rfl, List.prefix_refl _, fun h => ⟨h, rfl⟩⟩

theorem Incoming.Grows.trans {a b c : Incoming} (h : a.Grows b) (h' : b.Grows c) : a.Grows c := by
  refine ⟨h'.fields.trans h.fields, h.body.trans h'.body, fun hended => ?_⟩
  obtain ⟨hb, hbody⟩ := h.ended hended
  exact ⟨(h'.ended hb).1, (h'.ended hb).2.trans hbody⟩

/-- Every request of `v` is one of `v'`, with all that had arrived of it. -/
def Keeps (v v' : Server) : Prop :=
  v.lastStreamId ≤ v'.lastStreamId ∧ ∀ id incoming, v.requests id = some incoming →
    ∃ incoming', v'.requests id = some incoming' ∧ incoming.Grows incoming'

theorem Keeps.refl (v : Server) : Keeps v v := ⟨le_rfl, fun _ incoming h => ⟨incoming, h, .refl _⟩⟩

theorem Keeps.trans {a b c : Server} (h : Keeps a b) (h' : Keeps b c) : Keeps a c := by
  refine ⟨h.1.trans h'.1, fun id incoming hfind => ?_⟩
  obtain ⟨i₁, h₁, hg₁⟩ := h.2 id incoming hfind
  obtain ⟨i₂, h₂, hg₂⟩ := h'.2 id i₁ h₁
  exact ⟨i₂, h₂, hg₁.trans hg₂⟩

/-- Writing a request that has grown. -/
theorem keeps_putRequest {v : Server} {id : StreamId} {incoming incoming' : Incoming}
    (hfind : v.requests id = some incoming) (hgrows : incoming.Grows incoming') :
    Keeps v (v.putRequest id incoming') := by
  refine ⟨le_rfl, fun k i hk => ?_⟩
  by_cases hid : k = id
  · subst hid
    obtain rfl := Option.some.inj (hfind.symm.trans hk)
    exact ⟨incoming', Function.update_self _ _ _, hgrows⟩
  · exact ⟨i, (Function.update_of_ne hid _ _).trans hk, .refl i⟩

/-- The requests have ids that are not above the last one. -/
def Numbered (v : Server) : Prop :=
  (∀ id incoming, v.requests id = some incoming → id ≤ v.lastStreamId) ∧
    ∀ b, v.block = some b → v.lastStreamId < b.streamId

theorem Numbered.accept {v : Server} (h : v.Numbered) {id : StreamId} (hid : v.lastStreamId < id)
    (endStream : Bool) (fields : List HeaderField) (table : Reference.Table) :
    (v.accept id endStream fields table).Numbered ∧
      Keeps v (v.accept id endStream fields table) := by
  refine ⟨⟨fun k i hk => ?_, fun b hb => by cases hb⟩, hid.le, fun k i hk => ?_⟩
  · by_cases hkid : k = id
    · exact hkid.le
    · have hold : v.requests k = some i := (Function.update_of_ne hkid _ _).symm.trans hk
      exact (h.1 k i hold).trans hid.le
  -- the id is new, so no request is overwritten
  · have hkid : k ≠ id := (lt_of_le_of_lt (h.1 k i hk) hid).ne
    exact ⟨i, (Function.update_of_ne hkid _ _).trans hk, .refl i⟩

/-- A request that is written again keeps the numbers. -/
theorem Numbered.putRequest {v : Server} (h : v.Numbered) {id : StreamId} {incoming : Incoming}
    (hfind : v.requests id = some incoming) (incoming' : Incoming) :
    (v.putRequest id incoming').Numbered := by
  refine ⟨fun k i hk => ?_, h.2⟩
  by_cases hkid : k = id
  · rw [hkid]
    exact h.1 id incoming hfind
  · exact h.1 k i ((Function.update_of_ne hkid _ _).symm.trans hk)

/-- A buffer keeps what has arrived. -/
theorem Receives.keeps {v v' : Server} {b : OutboundBuffer} (h : Receives v b v')
    (hv : v.Numbered) : v'.Numbered ∧ Keeps v v' := by
  cases h with
  | headers h hid hfits hend hdecodes => exact hv.accept hid.2 _ _ _
  | headersOpen h hid =>
    refine ⟨⟨hv.1, fun b hb => ?_⟩, .refl v⟩
    cases hb
    exact hid.2
  | continuation hgone hblock => exact hv.accept (hv.2 _ hblock) _ _ _
  | continuationOpen hgone hblock =>
    refine ⟨⟨hv.1, fun b' hb' => ?_⟩, .refl v⟩
    cases hb'
    exact (hv.2 _ hblock :)
  | @data f incoming h hfind hended =>
    have hgrows : incoming.Grows { incoming with
        body := incoming.body ++ f.data, ended := f.header.hasEndStreamFlag } :=
      ⟨rfl, List.prefix_append _ _, fun he => absurd (hended.symm.trans he) (by decide)⟩
    have hkeeps := keeps_putRequest hfind hgrows
    have hnumbered := hv.putRequest hfind { incoming with
      body := incoming.body ++ f.data, ended := f.header.hasEndStreamFlag }
    exact ⟨⟨hnumbered.1, hnumbered.2⟩, hkeeps.1, hkeeps.2⟩
  | @rstStream f incoming h hfind =>
    have hgrows : incoming.Grows { incoming with reset := true } :=
      ⟨rfl, List.prefix_refl _, fun he => ⟨he, rfl⟩⟩
    exact ⟨hv.putRequest hfind _, keeps_putRequest hfind hgrows⟩
  | _ => exact ⟨⟨hv.1, hv.2⟩, .refl _⟩

end Server

end Chttp2
