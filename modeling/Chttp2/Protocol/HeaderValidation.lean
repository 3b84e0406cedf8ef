import Chttp2.Protocol.Stream

/-!
# Valid response header blocks

`validateResponseHeaderBlock` is one loop over the fields with several pieces of state and a check
behind it. `ValidBlock` says without reference to the loop which blocks are well formed, and
`validateResponseHeaderBlock_spec` that these are the blocks the source accepts.

A field is judged on its own first (`FieldOk`). Once a regular field or the status has been seen, or
if the block holds trailers, the rest of the loop accepts exactly regular fields whose content
lengths agree (`scanHeaders_regular`). Only the first field of a response may therefore be a
pseudo-header field.
-/

set_option autoImplicit false

namespace Chttp2

/-! ## Fields -/

/-- The name begins with `:`. -/
def isPseudoName (name : Bytes) : Prop := name.headD 0 = 0x3a

instance (name : Bytes) : Decidable (isPseudoName name) := inferInstanceAs (Decidable (_ = _))

/-- The bytes that a field name must not have. -/
def InvalidNameByte (c : UInt8) : Prop := c ≤ 0x20 ∨ (0x41 ≤ c ∧ c ≤ 0x5a) ∨ 0x7f ≤ c

/-- The names of the connection-specific fields. -/
def connectionSpecificNames : List Bytes := [ascii "connection", ascii "proxy-connection",
  ascii "keep-alive", ascii "upgrade", ascii "transfer-encoding", ascii "te"]

/-- No NUL, CR or LF, and no blank at either end. -/
structure ValueOk (value : Bytes) : Prop where
  bytes : ∀ c ∈ value, c ≠ 0x00 ∧ c ≠ 0x0a ∧ c ≠ 0x0d
  first : ∀ c, value.head? = some c → c ≠ 0x20 ∧ c ≠ 0x09
  last : ∀ c, value.getLast? = some c → c ≠ 0x20 ∧ c ≠ 0x09

/-- The rules for a field by itself. -/
structure FieldOk (field : HeaderField) : Prop where
  name_ne : field.name ≠ []
  nameBytes : ∀ c ∈ field.name, ¬ InvalidNameByte c
  general : field.name ∉ connectionSpecificNames
  value : ValueOk field.value
  colon : ¬ isPseudoName field.name → 0x3a ∉ field.name

/-- Three digits between 100 and 599. -/
structure StatusValue (value : Bytes) (code : Nat) : Prop where
  length : value.length = 3
  digits : ∀ c ∈ value, isDigit c = true
  denotes : digitsValue value = code
  lower : 100 ≤ code
  upper : code ≤ 599

/-- A digit string of bounded value. -/
structure ContentLengthValue (value : Bytes) : Prop where
  nonempty : value ≠ []
  digits : ∀ c ∈ value, isDigit c = true
  bound : digitsValue value ≤ 10 ^ 16 + 9

/-- A content length that agrees with the recorded one, where a negative number stands for none. -/
structure LengthOk (recorded : Int) (value : Bytes) : Prop where
  wellFormed : ContentLengthValue value
  agrees : 0 ≤ recorded → recorded = digitsValue value

/-- The content lengths of a block are well formed and agree with each other and with the recorded
one. -/
def LengthsAgree (recorded : Int) (fields : List HeaderField) : Prop :=
  (∀ f ∈ fields, f.name = ascii "content-length" → LengthOk recorded f.value) ∧
    ∀ f ∈ fields, ∀ g ∈ fields, f.name = ascii "content-length" →
      g.name = ascii "content-length" → digitsValue f.value = digitsValue g.value

/-! ## Blocks -/

/-- A block before the final response begins with its status, the only pseudo-header field. -/
structure ResponseStart (headers : List HeaderField) (endStream : Bool) (status : HeaderField)
    (rest : List HeaderField) (code : Nat) : Prop where
  headers_eq : headers = status :: rest
  name : status.name = ascii ":status"
  rest : ∀ f ∈ rest, ¬ isPseudoName f.name
  value : StatusValue status.value code
  not_switching : code ≠ 101
  informational : code / 100 = 1 → endStream = false

/-- The well-formed blocks of a stream. -/
structure ValidBlock (s : Stream) (headers : List HeaderField) (endStream : Bool) : Prop where
  nonempty : headers ≠ []
  fields : ∀ f ∈ headers, FieldOk f
  start : s.finalResponseHeadersReceived = false →
    ∃ status rest code, ResponseStart headers endStream status rest code
  lengths : s.finalResponseHeadersReceived = false →
    LengthsAgree s.expectedContentLength headers
  trailers : s.finalResponseHeadersReceived = true →
    (∀ f ∈ headers, ¬ isPseudoName f.name) ∧ endStream = true

/-- A status of the form 1xx stands in the block. -/
def StatusInformational (headers : List HeaderField) : Prop :=
  ∃ f ∈ headers, f.name = ascii ":status" ∧ digitsValue f.value / 100 = 1

/-- The returned error code. -/
def HeaderVerdict.errorCode : HeaderVerdict → ErrorCode
  | .rejected code => code
  | .informational _ => .noError
  | .accepted _ => .noError

/-- The flag `informationalHeaders`. -/
def HeaderVerdict.isInformational : HeaderVerdict → Bool
  | .informational _ => true
  | .rejected _ | .accepted _ => false

/-! ## The checks of a field -/

section Checks

variable {field : HeaderField}

theorem hasInvalidFieldNameChar_iff {name : Bytes} :
    hasInvalidFieldNameChar name = false ↔ ∀ c ∈ name, ¬ InvalidNameByte c := by
  simp [hasInvalidFieldNameChar, InvalidNameByte, List.any_eq_false, or_assoc]

theorem hasInvalidFieldValue_iff {value : Bytes} :
    hasInvalidFieldValue value = false ↔ ValueOk value := by
  unfold hasInvalidFieldValue
  by_cases hnil : value = []
  · subst hnil
    simp only [if_true, true_iff]
    exact ⟨by simp, by simp, by simp⟩
  · have hfirst : value.head? = some (value.headD 0) := by
      cases value with
      | nil => exact absurd rfl hnil
      | cons b bs => rfl
    have hlast : value.getLast? = some (value.getLastD 0) := by
      rw [List.getLastD_eq_getLast?, List.getLast?_eq_some_getLast hnil]
      rfl
    rw [if_neg hnil]
    dsimp only
    split
    · rename_i hblank
      simp only [Bool.true_eq_false, false_iff]
      intro hok
      obtain ⟨h1, h2⟩ := hok.first _ hfirst
      obtain ⟨h3, h4⟩ := hok.last _ hlast
      simp only [Bool.or_eq_true, decide_eq_true_eq] at hblank
      exact hblank.elim (fun h => h.elim (fun h => h.elim h1 h2) h3) h4
    · rename_i hblank
      simp only [Bool.or_eq_true, decide_eq_true_eq, not_or] at hblank
      obtain ⟨⟨⟨h1, h2⟩, h3⟩, h4⟩ := hblank
      constructor
      · intro hany
        refine ⟨by simpa [and_assoc] using hany, fun c hc => ?_, fun c hc => ?_⟩
        · rw [hfirst, Option.some.injEq] at hc
          exact hc ▸ ⟨h1, h2⟩
        · rw [hlast, Option.some.injEq] at hc
          exact hc ▸ ⟨h3, h4⟩
      · intro hok
        have := hok.bytes
        simpa [and_assoc] using this

/-- Names without upper-case letters are compared as they are. -/
theorem equalsIgnoreCaseAscii_iff {name : Bytes} (h : ∀ c ∈ name, ¬ InvalidNameByte c)
    (text : Bytes) (htext : text.map toLowerAscii = text) :
    equalsIgnoreCaseAscii name text = true ↔ name = text := by
  have hname : name.map toLowerAscii = name := by
    calc name.map toLowerAscii = name.map id := List.map_congr_left fun c hc => by
          have hlow : ¬ (0x41 ≤ c ∧ c ≤ 0x5a) := fun hup => h c hc (Or.inr (Or.inl hup))
          rw [toLowerAscii, if_neg (by simpa using hlow)]
          rfl
      _ = name := List.map_id _
  rw [equalsIgnoreCaseAscii, hname, htext, decide_eq_true_eq]

theorem isConnectionSpecificHeader_iff (h : ∀ c ∈ field.name, ¬ InvalidNameByte c) :
    isConnectionSpecificHeader field = false ↔ field.name ∉ connectionSpecificNames := by
  rw [← Bool.not_eq_true, not_iff_not, isConnectionSpecificHeader]
  simp only [Bool.or_eq_true, equalsIgnoreCaseAscii_iff h (ascii "connection") (by decide),
    equalsIgnoreCaseAscii_iff h (ascii "proxy-connection") (by decide),
    equalsIgnoreCaseAscii_iff h (ascii "keep-alive") (by decide),
    equalsIgnoreCaseAscii_iff h (ascii "upgrade") (by decide),
    equalsIgnoreCaseAscii_iff h (ascii "transfer-encoding") (by decide),
    equalsIgnoreCaseAscii_iff h (ascii "te") (by decide), connectionSpecificNames,
    List.mem_cons, List.not_mem_nil, or_false, or_assoc]

theorem tryParseStatusCode_eq_some {value : Bytes} {code : Nat} :
    tryParseStatusCode value = some code ↔ StatusValue value code := by
  unfold tryParseStatusCode
  constructor
  · intro h
    split at h
    · cases h
    · rename_i hlen
      split at h
      · cases h
      · rename_i hdigits
        split at h
        · cases h
        · rename_i hrange
          cases h
          exact ⟨by simpa using hlen, by simpa using hdigits, rfl, by omega, by omega⟩
  · rintro ⟨hlen, hdigits, rfl, hlower, hupper⟩
    rw [if_neg (by simpa using hlen), if_neg (by simpa using hdigits), if_neg (by omega)]

/-- The loop of `tryParseContentLength` from a number on. Its guard before each digit bounds the
result exactly, since a digit more makes the number at least ten times as large. -/
theorem parseContentLength_eq_some (value : Bytes) : ∀ (n : Nat) (v : Int),
    parseContentLength value n = some v ↔ (∀ c ∈ value, isDigit c = true) ∧
      v = (value.foldl (fun n c => n * 10 + (c.toNat - 0x30)) n : Nat) ∧
      (value = [] ∨ value.foldl (fun n c => n * 10 + (c.toNat - 0x30)) n ≤ 10 ^ 16 + 9) := by
  induction value with
  | nil =>
    intro n v
    constructor
    · intro h
      cases h
      exact ⟨fun c hc => absurd hc List.not_mem_nil, rfl, Or.inl rfl⟩
    · rintro ⟨-, rfl, -⟩
      rfl
  | cons c rest ih =>
    intro n v
    -- more digits never make the number smaller
    have hgrows : ∀ (l : Bytes) (m : Nat),
        m ≤ l.foldl (fun n c => n * 10 + (c.toNat - 0x30)) m := by
      intro l
      induction l with
      | nil => exact fun m => Nat.le_refl m
      | cons b l ih => exact fun m => Nat.le_trans (by omega) (ih (m * 10 + (b.toNat - 0x30)))
    have hge := hgrows rest (n * 10 + (c.toNat - 0x30))
    rw [parseContentLength]
    by_cases hd : isDigit c = true
    · have hcast : (n : Int) * 10 + ((c.toNat - 0x30 : Nat) : Int) =
          ((n * 10 + (c.toNat - 0x30) : Nat) : Int) := by push_cast; rfl
      have hsmall : c.toNat - 0x30 ≤ 9 := by
        have := (by simpa [isDigit] using hd : 0x30 ≤ c ∧ c ≤ 0x39).2
        rw [UInt8.le_iff_toNat_le] at this
        have h39 : (0x39 : UInt8).toNat = 0x39 := rfl
        omega
      rw [if_neg (by simp [hd]), hcast]
      -- the guard stands before the digit is taken in
      by_cases hbig : (n : Int) > 1000000000000000
      · rw [if_pos hbig]
        constructor
        · intro h
          cases h
        · rintro ⟨-, -, hnil | hle⟩
          · cases hnil
          · rw [List.foldl_cons] at hle
            omega
      · rw [if_neg hbig, ih]
        simp only [List.mem_cons, forall_eq_or_imp, hd, true_and, List.foldl_cons,
          reduceCtorEq, false_or]
        refine and_congr_right fun _ => and_congr_right fun _ => ?_
        constructor
        · rintro (rfl | hle)
          · rw [List.foldl_nil]
            omega
          · exact hle
        · exact Or.inr
    · rw [if_pos (by simpa using hd)]
      constructor
      · intro h
        cases h
      · rintro ⟨hall, -⟩
        exact absurd (hall c List.mem_cons_self) hd

theorem tryParseContentLength_eq_some {value : Bytes} {v : Int} :
    tryParseContentLength value = some v ↔ ContentLengthValue value ∧ v = digitsValue value := by
  unfold tryParseContentLength
  by_cases hnil : value = []
  · subst hnil
    rw [if_pos rfl]
    constructor
    · intro h
      cases h
    · rintro ⟨h, -⟩
      exact absurd rfl h.nonempty
  · rw [if_neg hnil]
    have hzero : (0 : Int) = ((0 : Nat) : Int) := rfl
    rw [hzero, parseContentLength_eq_some]
    constructor
    · rintro ⟨hdigits, hv, hle⟩
      exact ⟨⟨hnil, hdigits, hle.resolve_left hnil⟩, hv⟩
    · rintro ⟨⟨-, hdigits, hle⟩, hv⟩
      exact ⟨hdigits, hv, Or.inr hle⟩

end Checks

/-! ## One round -/

section Round

variable {final : Bool} {scan scan' : HeaderScan} {field : HeaderField} {fields : List HeaderField}

theorem isPseudoName_status : isPseudoName (ascii ":status") := by decide

/-- A field that passes the loop keeps the rules for a field by itself. -/
theorem fieldOk_of_scanHeader (h : scanHeader final scan field = some scan') : FieldOk field := by
  unfold scanHeader at h
  split at h
  · cases h
  rename_i hname
  simp only [Bool.or_eq_true, decide_eq_true_eq, not_or, Bool.not_eq_true] at hname
  split at h
  · cases h
  rename_i hvalue
  split at h
  · cases h
  rename_i hspecific
  have hbytes := hasInvalidFieldNameChar_iff.1 hname.2
  refine ⟨hname.1, hbytes, (isConnectionSpecificHeader_iff hbytes).1 (by simpa using hspecific),
    hasInvalidFieldValue_iff.1 (by simpa using hvalue), fun hregular => ?_⟩
  have hcolon : ¬ field.name.headD 0 = 0x3a := hregular
  rw [if_neg hcolon] at h
  split at h
  · cases h
  · rename_i hinner
    simpa using hinner

/-- The round of a field that keeps the rules: what is left of it. -/
theorem scanHeader_of_fieldOk (h : FieldOk field) : scanHeader final scan field =
    if isPseudoName field.name then
      if scan.sawRegularHeader || final || decide (field.name ≠ ascii ":status") ||
          scan.sawStatus then none
      else (tryParseStatusCode field.value).map fun statusCode =>
        { scan with statusCode, sawStatus := true }
    else if !final && decide (field.name = ascii "content-length") then
      (tryParseContentLength field.value).bind fun cl =>
        if scan.expectedContentLength ≥ 0 ∧ scan.expectedContentLength ≠ cl then none
        else some { scan with sawRegularHeader := true, expectedContentLength := cl }
    else some { scan with sawRegularHeader := true } := by
  have hname : (decide (field.name = []) || hasInvalidFieldNameChar field.name) = false := by
    rw [hasInvalidFieldNameChar_iff.2 h.nameBytes, Bool.or_false, decide_eq_false h.name_ne]
  have hlength : equalsIgnoreCaseAscii field.name (ascii "content-length") =
      decide (field.name = ascii "content-length") := by
    rw [Bool.eq_iff_iff, decide_eq_true_eq]
    exact equalsIgnoreCaseAscii_iff h.nameBytes _ (by decide)
  rw [scanHeader, if_neg (by simpa using hname),
    if_neg (by simpa using hasInvalidFieldValue_iff.2 h.value),
    if_neg (by simpa using (isConnectionSpecificHeader_iff h.nameBytes).2 h.general)]
  by_cases hp : isPseudoName field.name
  · have hp' : field.name.headD 0 = 0x3a := hp
    rw [if_pos hp, if_pos hp']
    cases scan.sawRegularHeader <;> cases final <;> cases scan.sawStatus <;>
      by_cases hstatus : field.name = ascii ":status" <;> simp [hstatus]
  · have hp' : ¬ field.name.headD 0 = 0x3a := hp
    rw [if_neg hp, if_neg hp', if_neg (by simpa using h.colon hp), hlength]
    split
    · cases tryParseContentLength field.value <;> rfl
    · rfl

/-- The content length on record after a regular field. -/
def lengthAfterField (final : Bool) (recorded : Int) (field : HeaderField) : Int :=
  if !final && decide (field.name = ascii "content-length") then digitsValue field.value
  else recorded

theorem scanHeader_regular (hok : FieldOk field) (hp : ¬ isPseudoName field.name) :
    scanHeader final scan field = some scan' ↔
      (final = false → field.name = ascii "content-length" →
        LengthOk scan.expectedContentLength field.value) ∧
      scan' = { scan with
        sawRegularHeader := true
        expectedContentLength := lengthAfterField final scan.expectedContentLength field } := by
  rw [scanHeader_of_fieldOk hok, if_neg hp, lengthAfterField]
  by_cases hlen : (!final && decide (field.name = ascii "content-length")) = true
  · rw [if_pos hlen, if_pos hlen, Option.bind_eq_some_iff]
    simp only [Bool.and_eq_true, Bool.not_eq_true', decide_eq_true_eq] at hlen
    simp only [hlen.1, hlen.2, forall_const]
    constructor
    · rintro ⟨cl, hcl, h⟩
      obtain ⟨hvalue, rfl⟩ := tryParseContentLength_eq_some.1 hcl
      split at h
      · cases h
      · rename_i hagree
        cases h
        exact ⟨⟨hvalue, fun h0 => not_not.1 fun hne => hagree ⟨h0, hne⟩⟩, rfl⟩
    · rintro ⟨⟨hvalue, hagree⟩, rfl⟩
      refine ⟨_, tryParseContentLength_eq_some.2 ⟨hvalue, rfl⟩, ?_⟩
      rw [if_neg fun h => h.2 (hagree h.1)]
  · rw [if_neg hlen, if_neg hlen, Option.some.injEq, eq_comm]
    simp only [Bool.and_eq_true, Bool.not_eq_true', decide_eq_true_eq, not_and] at hlen
    exact ⟨fun h => ⟨fun hf hn => absurd hn (hlen hf), h⟩, fun h => h.2⟩

/-- The round of a pseudo-header field. -/
theorem scanHeader_pseudo (hok : FieldOk field) (hp : isPseudoName field.name) :
    scanHeader final scan field = some scan' ↔
      (scan.sawRegularHeader = false ∧ final = false ∧ scan.sawStatus = false) ∧
        field.name = ascii ":status" ∧ ∃ code, StatusValue field.value code ∧
          scan' = { scan with statusCode := code, sawStatus := true } := by
  rw [scanHeader_of_fieldOk hok, if_pos hp]
  constructor
  · intro h
    split at h
    · cases h
    rename_i hchecks
    simp only [Bool.or_eq_true, decide_eq_true_eq, not_or, Bool.not_eq_true, not_not] at hchecks
    obtain ⟨⟨⟨h1, h2⟩, h3⟩, h4⟩ := hchecks
    obtain ⟨code, hcode, rfl⟩ := Option.map_eq_some_iff.1 h
    exact ⟨⟨h1, h2, h4⟩, h3, code, tryParseStatusCode_eq_some.1 hcode, rfl⟩
  · rintro ⟨⟨h1, h2, h4⟩, h3, code, hcode, rfl⟩
    rw [if_neg (by simp [h1, h2, h3, h4]), tryParseStatusCode_eq_some.2 hcode]
    rfl

end Round

/-! ## The content lengths of a block -/

section Lengths

variable {recorded : Int} {field : HeaderField} {fields : List HeaderField}

theorem lengthsAgree_nil : LengthsAgree recorded [] :=
  ⟨fun _ hf => absurd hf List.not_mem_nil, fun _ hf => absurd hf List.not_mem_nil⟩

theorem lengthsAgree_cons_of_ne (h : field.name ≠ ascii "content-length") :
    LengthsAgree recorded (field :: fields) ↔ LengthsAgree recorded fields := by
  simp only [LengthsAgree, List.forall_mem_cons, h, false_implies, true_and, implies_true]

/-- The first content length is what the others have to agree with. -/
theorem lengthsAgree_cons_of_eq (h : field.name = ascii "content-length") :
    LengthsAgree recorded (field :: fields) ↔
      LengthOk recorded field.value ∧ LengthsAgree (digitsValue field.value) fields := by
  constructor
  · rintro ⟨hok, heq⟩
    refine ⟨hok field List.mem_cons_self h, fun g hg hname => ⟨?_, fun _ => ?_⟩, ?_⟩
    · exact (hok g (List.mem_cons_of_mem _ hg) hname).wellFormed
    · rw [heq field List.mem_cons_self g (List.mem_cons_of_mem _ hg) h hname]
    · exact fun f hf g hg => heq f (List.mem_cons_of_mem _ hf) g (List.mem_cons_of_mem _ hg)
  · rintro ⟨hfield, hrest, -⟩
    have hsame : ∀ g ∈ field :: fields, g.name = ascii "content-length" →
        digitsValue g.value = digitsValue field.value := by
      intro g hg hname
      rcases List.mem_cons.1 hg with rfl | hg
      · rfl
      · exact Int.ofNat_inj.1 ((hrest g hg hname).agrees (Int.natCast_nonneg _)).symm
    refine ⟨fun g hg hname => ?_, fun f hf g hg hfname hgname => ?_⟩
    · rcases List.mem_cons.1 hg with rfl | hg
      · exact hfield
      · refine ⟨(hrest g hg hname).wellFormed, fun h0 => ?_⟩
        rw [hsame g (List.mem_cons_of_mem _ hg) hname]
        exact hfield.agrees h0
    · rw [hsame f hf hfname, hsame g hg hgname]

end Lengths

/-! ## The loop -/

section Loop

variable {final : Bool} {scan scan' : HeaderScan} {headers fields : List HeaderField}

/-- The content length on record after the regular fields of a block. -/
def lengthAfter (final : Bool) (recorded : Int) : List HeaderField → Int
  | [] => recorded
  | field :: fields => lengthAfter final (lengthAfterField final recorded field) fields

theorem scanHeaders_cons {field : HeaderField} : scanHeaders final scan (field :: fields) =
    (scanHeader final scan field).bind fun scan => scanHeaders final scan fields := by
  rw [scanHeaders]
  cases scanHeader final scan field <;> rfl

/-- Before the final response the lengths of a block are checked field by field. -/
theorem lengthsAgree_cons {recorded : Int} {field : HeaderField} :
    LengthsAgree recorded (field :: fields) ↔
      (field.name = ascii "content-length" → LengthOk recorded field.value) ∧
        LengthsAgree (lengthAfterField false recorded field) fields := by
  by_cases h : field.name = ascii "content-length"
  · rw [lengthsAgree_cons_of_eq h, lengthAfterField, if_pos (by simp [h])]
    simp only [h, forall_const]
  · rw [lengthsAgree_cons_of_ne h, lengthAfterField, if_neg (by simp [h])]
    simp only [h, false_implies, true_and]

/-- Behind the status or a regular field, and in trailers, the loop accepts exactly regular fields
with agreeing lengths. -/
theorem scanHeaders_regular (fields : List HeaderField) : ∀ {scan scan' : HeaderScan},
    (scan.sawRegularHeader = true ∨ final = true ∨ scan.sawStatus = true) →
    (scanHeaders final scan fields = some scan' ↔
      (∀ f ∈ fields, FieldOk f ∧ ¬ isPseudoName f.name) ∧
        (final = false → LengthsAgree scan.expectedContentLength fields) ∧
        scan' = { scan with
          sawRegularHeader := scan.sawRegularHeader || !fields.isEmpty
          expectedContentLength := lengthAfter final scan.expectedContentLength fields }) := by
  induction fields with
  | nil =>
    intro scan scan' _
    have hsame : ({ scan with
        sawRegularHeader := scan.sawRegularHeader || !([] : List HeaderField).isEmpty
        expectedContentLength := lengthAfter final scan.expectedContentLength [] } :
          HeaderScan) = scan := by simp [lengthAfter]
    rw [hsame, scanHeaders, Option.some.injEq, eq_comm]
    exact ⟨fun h => ⟨by simp, fun _ => lengthsAgree_nil, h⟩, fun h => h.2.2⟩
  | cons field fields ih =>
    intro scan scan' hblocked
    rw [scanHeaders_cons, Option.bind_eq_some_iff]
    constructor
    · rintro ⟨scan₁, hfield, hrest⟩
      have hok := fieldOk_of_scanHeader hfield
      by_cases hp : isPseudoName field.name
      · -- every reason to be past the pseudo-header fields refuses another one
        obtain ⟨⟨h1, h2, h3⟩, -⟩ := (scanHeader_pseudo hok hp).1 hfield
        simp [h1, h2, h3] at hblocked
      · obtain ⟨hlen, rfl⟩ := (scanHeader_regular hok hp).1 hfield
        obtain ⟨hall, hlens, rfl⟩ := (ih (Or.inl rfl)).1 hrest
        refine ⟨List.forall_mem_cons.2 ⟨⟨hok, hp⟩, hall⟩, fun hf => ?_, by simp [lengthAfter]⟩
        subst hf
        exact lengthsAgree_cons.2 ⟨hlen rfl, hlens rfl⟩
    · rintro ⟨hall, hlens, rfl⟩
      obtain ⟨⟨hok, hp⟩, hall⟩ := List.forall_mem_cons.1 hall
      refine ⟨_, (scanHeader_regular hok hp).2 ⟨fun hf => ?_, rfl⟩,
        (ih (Or.inl rfl)).2 ⟨hall, fun hf => ?_, by simp [lengthAfter]⟩⟩
      · exact (lengthsAgree_cons.1 (hlens hf)).1
      · subst hf
        exact (lengthsAgree_cons.1 (hlens rfl)).2

end Loop

/-! ## The verdict -/

section Verdict

variable {s : Stream} {headers : List HeaderField} {endStream : Bool}

theorem lengthAfter_true (recorded : Int) : lengthAfter true recorded headers = recorded := by
  induction headers with
  | nil => rfl
  | cons field fields ih => exact ih

/-- Trailers are accepted exactly if they are well formed, and leave the recorded length alone. -/
theorem validate_trailers_iff (hfinal : s.finalResponseHeadersReceived = true)
    (v : HeaderVerdict) : validateResponseHeaderBlock s headers endStream = v ∧
        v.errorCode = .noError ↔
      ValidBlock s headers endStream ∧ v = .accepted s.expectedContentLength := by
  constructor
  · rintro ⟨rfl, hcode⟩
    unfold validateResponseHeaderBlock at hcode ⊢
    split at hcode
    · cases hcode
    rename_i hne
    rw [if_neg hne]
    split at hcode
    · cases hcode
    rename_i scan hsome
    rw [hfinal] at hsome
    obtain ⟨hall, -, rfl⟩ := (scanHeaders_regular headers (Or.inr (Or.inl rfl))).1 hsome
    simp only [hfinal, Bool.not_true, Bool.false_eq_true, if_false] at hcode ⊢
    split at hcode
    · cases hcode
    rename_i hend
    refine ⟨⟨hne, fun f hf => (hall f hf).1, fun h => ?_, fun h => ?_, fun _ => ⟨fun f hf =>
      (hall f hf).2, by simpa using hend⟩⟩, ?_⟩
    · rw [hfinal] at h
      cases h
    · rw [hfinal] at h
      cases h
    · rw [if_neg hend, lengthAfter_true]
  · rintro ⟨hvalid, rfl⟩
    obtain ⟨hregular, hend⟩ := hvalid.trailers hfinal
    have hsome : scanHeaders true { expectedContentLength := s.expectedContentLength } headers =
        some _ := (scanHeaders_regular headers (Or.inr (Or.inl rfl))).2
      ⟨fun f hf => ⟨hvalid.fields f hf, hregular f hf⟩, fun h => Bool.noConfusion h, rfl⟩
    refine ⟨?_, rfl⟩
    rw [validateResponseHeaderBlock, if_neg hvalid.nonempty, hfinal, hsome]
    simp [hend, lengthAfter_true]

/-- What the loop finds in the block of a response: its status comes first, and regular fields
follow. -/
theorem scan_response_iff {recorded : Int} {scan : HeaderScan} :
    scanHeaders false { expectedContentLength := recorded } headers = some scan ∧
        scan.sawStatus = true ↔
      ∃ status rest, (headers = status :: rest ∧ status.name = ascii ":status" ∧
          (∀ f ∈ rest, ¬ isPseudoName f.name) ∧ StatusValue status.value scan.statusCode) ∧
        (∀ f ∈ headers, FieldOk f) ∧ LengthsAgree recorded headers ∧
        scan = {
          sawRegularHeader := !rest.isEmpty
          sawStatus := true
          statusCode := scan.statusCode
          expectedContentLength := lengthAfter false recorded headers } := by
  have hname : ascii ":status" ≠ ascii "content-length" := by decide
  constructor
  · rintro ⟨hscan, hsaw⟩
    cases headers with
    | nil =>
      cases hscan
      cases hsaw
    | cons status rest =>
      rw [scanHeaders_cons, Option.bind_eq_some_iff] at hscan
      obtain ⟨scan₁, hfield, hrest⟩ := hscan
      have hok := fieldOk_of_scanHeader hfield
      by_cases hp : isPseudoName status.name
      · obtain ⟨-, hstatus, code, hvalue, rfl⟩ := (scanHeader_pseudo hok hp).1 hfield
        obtain ⟨hall, hlens, rfl⟩ := (scanHeaders_regular rest (Or.inr (Or.inr rfl))).1 hrest
        refine ⟨status, rest, ⟨rfl, hstatus, fun f hf => (hall f hf).2, hvalue⟩,
          List.forall_mem_cons.2 ⟨hok, fun f hf => (hall f hf).1⟩, ?_, ?_⟩
        · rw [lengthsAgree_cons_of_ne (by rw [hstatus]; exact hname)]
          exact hlens rfl
        · simp [lengthAfter, lengthAfterField, hstatus, hname]
      · -- a regular field in front hides every later status
        obtain ⟨-, rfl⟩ := (scanHeader_regular hok hp).1 hfield
        obtain ⟨-, -, rfl⟩ := (scanHeaders_regular rest (Or.inl rfl)).1 hrest
        cases hsaw
  · rintro ⟨status, rest, ⟨rfl, hstatus, hregular, hvalue⟩, hok, hlens, hscan⟩
    obtain ⟨hok, hrest⟩ := List.forall_mem_cons.1 hok
    have hp : isPseudoName status.name := by
      rw [hstatus]
      exact isPseudoName_status
    rw [lengthsAgree_cons_of_ne (by rw [hstatus]; exact hname)] at hlens
    refine ⟨?_, by rw [hscan]⟩
    rw [scanHeaders_cons, Option.bind_eq_some_iff]
    refine ⟨_, (scanHeader_pseudo hok hp).2 ⟨⟨rfl, rfl, rfl⟩, hstatus, scan.statusCode, hvalue,
      rfl⟩, (scanHeaders_regular rest (Or.inr (Or.inr rfl))).2
        ⟨fun f hf => ⟨hrest f hf, hregular f hf⟩, fun _ => hlens, ?_⟩⟩
    rw [hscan]
    simp [lengthAfter, lengthAfterField, hstatus, hname]

/-- Only the status itself can make a block informational. -/
theorem statusInformational_iff {status : HeaderField} {rest : List HeaderField}
    (hregular : ∀ f ∈ rest, ¬ isPseudoName f.name) (hstatus : status.name = ascii ":status") :
    StatusInformational (status :: rest) ↔ digitsValue status.value / 100 = 1 := by
  constructor
  · rintro ⟨f, hf, hname, hcode⟩
    rcases List.mem_cons.1 hf with rfl | hf
    · exact hcode
    · refine absurd ?_ (hregular f hf)
      rw [hname]
      exact isPseudoName_status
  · exact fun hcode => ⟨status, List.mem_cons_self, hstatus, hcode⟩

/-- A block before the final response is accepted exactly if it is well formed. It is informational
by its status, and the content length it declares goes on record either way. -/
theorem validate_response_iff (hfinal : s.finalResponseHeadersReceived = false)
    (v : HeaderVerdict) : validateResponseHeaderBlock s headers endStream = v ∧
        v.errorCode = .noError ↔
      ValidBlock s headers endStream ∧
        (StatusInformational headers ∧
            v = .informational (lengthAfter false s.expectedContentLength headers) ∨
          ¬ StatusInformational headers ∧
            v = .accepted (lengthAfter false s.expectedContentLength headers)) := by
  constructor
  -- an accepted block has passed every check of the source in turn
  · rintro ⟨rfl, hcode⟩
    unfold validateResponseHeaderBlock at hcode ⊢
    split at hcode
    · cases hcode
    rename_i hne
    rw [if_neg hne]
    split at hcode
    · cases hcode
    rename_i scan hsome
    rw [hfinal] at hsome
    simp only [hfinal, Bool.not_false, if_true] at hcode ⊢
    split at hcode
    · cases hcode
    rename_i hsaw
    obtain ⟨status, rest, ⟨rfl, hstatus, hregular, hvalue⟩, hok, hlens, hscan⟩ :=
      scan_response_iff.1 ⟨hsome, by simpa using hsaw⟩
    rw [statusInformational_iff hregular hstatus, hvalue.denotes, if_neg hsaw]
    split at hcode
    · rename_i hinfo
      rw [if_pos hinfo]
      split at hcode
      · cases hcode
      -- 101 has been refused
      rename_i hswitch
      rw [if_neg hswitch]
      split at hcode
      · cases hcode
      rename_i hend
      rw [if_neg hend]
      refine ⟨⟨hne, hok, fun _ => ⟨status, rest, scan.statusCode, rfl, hstatus, hregular, hvalue,
        hswitch, fun _ => by simpa using hend⟩, fun _ => hlens, fun h => ?_⟩,
        Or.inl ⟨hinfo, by rw [hscan]⟩⟩
      rw [hfinal] at h
      cases h
    · rename_i hinfo
      rw [if_neg hinfo]
      refine ⟨⟨hne, hok, fun _ => ⟨status, rest, scan.statusCode, rfl, hstatus, hregular, hvalue,
        fun h => hinfo (by rw [h]), fun h => absurd h hinfo⟩, fun _ => hlens, fun h => ?_⟩,
        Or.inr ⟨hinfo, by rw [hscan]⟩⟩
      rw [hfinal] at h
      cases h
  · rintro ⟨hvalid, hv⟩
    obtain ⟨status, rest, code, rfl, hstatus, hregular, hvalue, hswitch, hinfo⟩ :=
      hvalid.start hfinal
    rw [statusInformational_iff hregular hstatus, hvalue.denotes] at hv
    -- what the scan of a well-formed block must arrive at
    let scan : HeaderScan := {
      sawRegularHeader := !rest.isEmpty
      sawStatus := true
      statusCode := code
      expectedContentLength := lengthAfter false s.expectedContentLength (status :: rest) }
    have hsome : scanHeaders false { expectedContentLength := s.expectedContentLength }
        (status :: rest) = some scan :=
      (scan_response_iff.2 ⟨status, rest, ⟨rfl, hstatus, hregular, hvalue⟩, hvalid.fields,
        hvalid.lengths hfinal, rfl⟩).1
    rw [validateResponseHeaderBlock, if_neg hvalid.nonempty, hfinal, hsome]
    rcases hv with ⟨hcode, rfl⟩ | ⟨hcode, rfl⟩
    · exact ⟨by simp [scan, hcode, hswitch, hinfo hcode], rfl⟩
    · exact ⟨by simp [scan, hcode], rfl⟩

/-- `validateResponseHeaderBlock` returns `NO_ERROR` for the well-formed blocks and for no others, and
it calls a block informational exactly if the block is accepted with a status of the form 1xx. -/
theorem validateResponseHeaderBlock_spec (s : Stream) (headers : List HeaderField)
    (endStream : Bool) :
    ((validateResponseHeaderBlock s headers endStream).errorCode = .noError ↔
        ValidBlock s headers endStream) ∧
      ((validateResponseHeaderBlock s headers endStream).isInformational = true ↔
        ValidBlock s headers endStream ∧ StatusInformational headers) := by
  cases hfinal : s.finalResponseHeadersReceived with
  | false =>
    have hiff := @validate_response_iff s headers endStream hfinal
    refine ⟨⟨fun h => ((hiff _).1 ⟨rfl, h⟩).1, fun h => ?_⟩, fun h => ?_, fun h => ?_⟩
    · by_cases hinfo : StatusInformational headers
      · obtain ⟨heq, hcode⟩ := (hiff _).2 ⟨h, Or.inl ⟨hinfo, rfl⟩⟩
        rw [heq]
        exact hcode
      · obtain ⟨heq, hcode⟩ := (hiff _).2 ⟨h, Or.inr ⟨hinfo, rfl⟩⟩
        rw [heq]
        exact hcode
    · cases hv : validateResponseHeaderBlock s headers endStream with
      | rejected code =>
        rw [hv] at h
        cases h
      | accepted cl =>
        rw [hv] at h
        cases h
      | informational cl =>
        obtain ⟨hvalid, ⟨hinfo, -⟩ | ⟨-, heq⟩⟩ := (hiff _).1 ⟨hv, rfl⟩
        · exact ⟨hvalid, hinfo⟩
        · cases heq
    · rw [((hiff _).2 ⟨h.1, Or.inl ⟨h.2, rfl⟩⟩).1]
      rfl
  | true =>
    have hiff := @validate_trailers_iff s headers endStream hfinal
    refine ⟨⟨fun h => ((hiff _).1 ⟨rfl, h⟩).1, fun h => ?_⟩, fun h => ?_, fun h => ?_⟩
    · obtain ⟨heq, hcode⟩ := (hiff _).2 ⟨h, rfl⟩
      rw [heq]
      exact hcode
    · cases hv : validateResponseHeaderBlock s headers endStream with
      | rejected code =>
        rw [hv] at h
        cases h
      | accepted cl =>
        rw [hv] at h
        cases h
      | informational cl =>
        have heq := ((hiff _).1 ⟨hv, rfl⟩).2
        cases heq
    · -- trailers have no status
      obtain ⟨hvalid, f, hf, hname, -⟩ := h
      refine absurd ?_ ((hvalid.trailers hfinal).1 f hf)
      rw [hname]
      exact isPseudoName_status

end Verdict

end Chttp2
