import Chttp2.Protocol.ActionStep
import Chttp2.Protocol.HeaderValidation

/-!
# The order of the request fields

`submitRequest` sends the fields of a request in the order of the header map, which is the byte
order of the names. The pseudo-header fields then stand first exactly where no name sorts before
`:`, that is, where no name is empty or begins with a byte below it (`sentInOrder_iff`).
`Request.isValid` does not look at the other names.
-/

set_option autoImplicit false

namespace Chttp2

/-- No field whose name begins with `:` stands behind one whose name does not. -/
def PseudoFirst (fields : List HeaderField) : Prop :=
  fields.Pairwise fun a b => isPseudoName b.name → isPseudoName a.name

/-- The name does not sort before `:`. -/
def FromColon (name : Bytes) : Prop := ∃ b bs, name = b :: bs ∧ 0x3a ≤ b

section Names

variable {m n : Bytes}

instance byteAsymm : Std.Asymm (fun a b : UInt8 => a < b) where
  asymm _ _ hab hba := absurd (UInt8.lt_iff_toNat_lt.1 hab) (UInt8.lt_iff_toNat_lt.1 hba).asymm

/-- No name sorts both before and behind another one. -/
theorem not_lt_of_lt (h : m < n) : ¬ n < m := List.lt_asymm h

theorem eq_cons_of_isPseudoName (h : isPseudoName n) : ∃ bs, n = 0x3a :: bs := by
  cases n with
  | nil => exact absurd h (by decide)
  | cons b bs => exact ⟨bs, by rw [show b = 0x3a from h]⟩

/-- A regular name that does not sort before `:` sorts behind every pseudo-header name. -/
theorem lt_of_fromColon (hm : isPseudoName m) (hn : ¬ isPseudoName n) (h : FromColon n) :
    m < n := by
  obtain ⟨as, rfl⟩ := eq_cons_of_isPseudoName hm
  obtain ⟨b, bs, rfl, hb⟩ := h
  have hne : (0x3a : UInt8) ≠ b := fun he => hn he.symm
  exact List.cons_lt_cons_iff.2 (Or.inl (UInt8.lt_of_le_of_ne hb hne))

/-- A name that sorts before `:` sorts before every pseudo-header name, and is none itself. -/
theorem lt_of_not_fromColon (hm : isPseudoName m) (h : ¬ FromColon n) :
    n < m ∧ ¬ isPseudoName n := by
  obtain ⟨as, rfl⟩ := eq_cons_of_isPseudoName hm
  cases n with
  | nil => exact ⟨List.nil_lt_cons _ _, by decide⟩
  | cons b bs =>
    have hb : b < 0x3a := UInt8.not_le.1 fun hle => h ⟨b, bs, rfl, hle⟩
    exact ⟨List.cons_lt_cons_iff.2 (Or.inl hb), UInt8.ne_of_lt hb⟩

end Names

/-- In a list sorted by names, a relation from each entry to the later ones relates an entry to those
with larger names. -/
theorem rel_of_pairwise_of_lt {β : Type} {R : Bytes × β → Bytes × β → Prop}
    {l : List (Bytes × β)} (hsorted : l.Pairwise fun a b => a.1 < b.1) (h : l.Pairwise R)
    {a b : Bytes × β} (ha : a ∈ l) (hb : b ∈ l) (hlt : a.1 < b.1) : R a b := by
  have key := (hsorted.and h).imp (S := fun a b => (a.1 < b.1 → R a b) ∧ (b.1 < a.1 → R b a))
    fun hab => ⟨fun _ => hab.2, fun hba => absurd hba (not_lt_of_lt hab.1)⟩
  have hsymm : Std.Symm fun a b : Bytes × β => (a.1 < b.1 → R a b) ∧ (b.1 < a.1 → R b a) :=
    ⟨fun _ _ hab => ⟨hab.2, hab.1⟩⟩
  have hall := key.forall_of_forall
    (fun x _ => ⟨fun hx => absurd hx (not_lt_of_lt hx), fun hx => absurd hx (not_lt_of_lt hx)⟩)
  exact (hall ha hb).1 hlt

namespace ProtocolState

/-- The fields that `submitRequest` encodes for a request are those of its header map, and the
pseudo-header fields come first. -/
structure SentInOrder (request : Request) : Prop where
  /-- An accepted request starts with the frames of its encoded fields. -/
  encoded : ∀ (p : ProtocolState) (rehash : Reorder Stream) (p' : ProtocolState)
    (r : ProtocolStepResult), p.submitRequest request rehash = .ok (p', r) →
      r.submittedStreamId ≠ none →
      (p.emitRequestHeaders (p.newStream request)
        (p.hpack.encode (buildRequestHeaderFields request)).1).2 <+: r.outbound
  entries : ((buildRequestHeaderFields request).map HeaderField.pair).Perm
    request.headers.entries
  once : ((buildRequestHeaderFields request).map HeaderField.name).Nodup
  pseudoFirst : PseudoFirst (buildRequestHeaderFields request)

variable {request : Request}

theorem prefix_outbound_of_submitted {p p' : ProtocolState} {rehash : Reorder Stream}
    {r : ProtocolStepResult} (h : p.submitRequest request rehash = .ok (p', r))
    (hid : r.submittedStreamId ≠ none) : p.requestHeaderFrames request <+: r.outbound := by
  rcases p.acted_submitRequest request rehash with ⟨q, s, heq, hstep⟩ | ⟨e, heq, -⟩
  · rw [h] at heq
    cases heq
    cases hstep with
    | refused => exact absurd rfl hid
    | opened => exact List.prefix_append _ _
  · rw [h] at heq
    cases heq

theorem map_pair_buildRequestHeaderFields (request : Request) :
    (buildRequestHeaderFields request).map HeaderField.pair = request.headers.entries := by
  rw [buildRequestHeaderFields, List.map_map]
  exact List.map_id _

theorem nodup_names (request : Request) :
    ((buildRequestHeaderFields request).map HeaderField.name).Nodup := by
  rw [buildRequestHeaderFields, List.map_map, List.Nodup, List.pairwise_map]
  refine request.headers.sorted.imp fun {a b} hlt heq => ?_
  have hname : a.1 = b.1 := heq
  rw [hname] at hlt
  exact not_lt_of_lt hlt hlt

theorem pseudoFirst_iff_entries : PseudoFirst (buildRequestHeaderFields request) ↔
    request.headers.entries.Pairwise fun a b => isPseudoName b.1 → isPseudoName a.1 := by
  rw [PseudoFirst, buildRequestHeaderFields, List.pairwise_map]

/-- A valid request has a method. -/
theorem exists_method (h : request.isValid = true) :
    ∃ value, (ascii ":method", value) ∈ request.headers.entries := by
  cases hfind : request.headers.find (ascii ":method") with
  | none => simp [Request.isValid, hfind] at h
  | some value =>
    obtain ⟨e, he, rfl⟩ := Option.map_eq_some_iff.1 hfind
    have hkey : e.1 = ascii ":method" := by simpa using List.find?_some he
    exact ⟨e.2, hkey ▸ List.mem_of_find?_eq_some he⟩

/-- A valid request is sent with its pseudo-header fields first if and only if no header name is
empty or begins with a byte below `:`. -/
theorem sentInOrder_iff (request : Request) (h : request.isValid = true) :
    SentInOrder request ↔ ∀ e ∈ request.headers.entries, FromColon e.1 := by
  constructor
  · intro hsent e he
    obtain ⟨value, hmethod⟩ := exists_method h
    by_contra hnot
    obtain ⟨hlt, hregular⟩ := lt_of_not_fromColon (m := ascii ":method") (by decide) hnot
    have hcolon : isPseudoName (ascii ":method") := by decide
    exact hregular (rel_of_pairwise_of_lt request.headers.sorted
      (pseudoFirst_iff_entries.1 hsent.pseudoFirst) he hmethod hlt hcolon)
  · intro hnames
    refine ⟨fun p rehash p' r heq hid => prefix_outbound_of_submitted heq hid,
      .of_eq (map_pair_buildRequestHeaderFields request), nodup_names request, ?_⟩
    rw [pseudoFirst_iff_entries]
    refine List.Pairwise.imp_of_mem ?_ request.headers.sorted
    intro a b ha hb hlt hpseudo
    by_contra hregular
    exact not_lt_of_lt hlt (lt_of_fromColon hpseudo hregular (hnames a ha))

/-- A GET request with the header `3gpp-sbi-target: a`. -/
def digitRequest : Request where
  headers := { entries := [(ascii "3gpp-sbi-target", ascii "a"), (ascii ":method", ascii "GET"),
    (ascii ":path", ascii "/"), (ascii ":scheme", ascii "http")] }

theorem not_sentInOrder_digitRequest : digitRequest.isValid = true ∧
    ¬ SentInOrder digitRequest := by
  refine ⟨by decide, fun h => ?_⟩
  have hbehind := (List.pairwise_cons.1 h.pseudoFirst).1 ⟨ascii ":method", ascii "GET", false⟩
    (by decide)
  exact absurd (hbehind (by decide)) (by decide)

/-- A GET request with the header `accept: a`. -/
def acceptRequest : Request where
  headers := { entries := [(ascii ":authority", ascii "a"), (ascii ":method", ascii "GET"),
    (ascii ":path", ascii "/"), (ascii ":scheme", ascii "http"), (ascii "accept", ascii "a")] }

/-- The regular field is sent behind the pseudo-header fields. -/
theorem sentInOrder_acceptRequest : SentInOrder acceptRequest := by
  refine (sentInOrder_iff acceptRequest (by decide)).2 ?_
  simp only [acceptRequest, List.forall_mem_cons]
  exact ⟨⟨_, _, rfl, by decide⟩, ⟨_, _, rfl, by decide⟩, ⟨_, _, rfl, by decide⟩,
    ⟨_, _, rfl, by decide⟩, ⟨_, _, rfl, by decide⟩, nofun⟩

end ProtocolState

end Chttp2
