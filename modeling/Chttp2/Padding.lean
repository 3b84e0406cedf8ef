import Chttp2.Frame

/-!
# Padded frames

`validatePaddedPayload` against the rule for padded frames: a payload of `L` bytes with the pad
length `P` and a fixed prefix of `k` bytes is well formed when `1 + k ≤ L` and `P ≤ L - 1 - k`
(`RawFrame.PaddingFits`). The check of the source compares with `>=`, so it also turns away the
payloads without a data byte, and only these (`paddingOk_iff`).

On every payload that passes, the typed constructor cuts the payload into pad length, prefix, data
and padding (`PaddedType.splits_of_paddingOk`). `PaddedType.handlesPadding_iff` puts the two
together.
-/

set_option autoImplicit false

namespace Chttp2

/-- The rule for a padded payload with a fixed prefix of `k` bytes: the padding does not exceed what
is left after the pad length and the prefix. -/
def RawFrame.PaddingFits (frame : RawFrame) (k : Nat) : Prop :=
  1 + k ≤ frame.data.length ∧ frame.padLength ≤ frame.data.length - 1 - k

/-- The padding takes all that is left after the prefix, and no data byte remains. -/
def RawFrame.AllPadding (frame : RawFrame) (k : Nat) : Prop :=
  1 + k ≤ frame.data.length ∧ frame.padLength = frame.data.length - 1 - k

/-- A padded payload is the pad length, the fixed prefix, the data and the padding. -/
structure RawFrame.SplitsInto (frame : RawFrame) (fixed data padding : Bytes) : Prop where
  payload : frame.data = frame.padLength.toUInt8 :: (fixed ++ data ++ padding)
  length_data : data.length = frame.data.length - 1 - fixed.length - frame.padLength
  length_padding : padding.length = frame.padLength

/-- The frame types whose payload may be padded. -/
inductive PaddedType where
  | data
  | headers
  | pushPromise
  deriving DecidableEq, Repr

/-- The prefix that the handler of the frame type passes to `validatePaddedPayload`. -/
def PaddedType.fixedPrefixBytes (type : PaddedType) (frame : RawFrame) : Nat :=
  match type with
  | .data => 0
  | .headers => frame.priorityPrefix
  | .pushPromise => 4

/-- The typed constructor reads inside the payload, and its members are the parts of it. -/
def PaddedType.Splits (type : PaddedType) (frame : RawFrame) : Prop :=
  ∃ fixed : Bytes, fixed.length = type.fixedPrefixBytes frame ∧
    match type with
    | .data => ∃ f, DataFrame.ofRaw frame = .ok f ∧ f.header = frame.header ∧
        f.padLength = frame.padLength ∧ frame.SplitsInto fixed f.data f.padding
    | .headers => ∃ f, HeadersFrame.ofRaw frame = .ok f ∧ f.header = frame.header ∧
        f.padLength = frame.padLength ∧ frame.SplitsInto fixed f.data f.padding ∧
        (frame.header.hasAnyFlag .priority = true →
          f.streamDependency = bigEndian (fixed.take 4) ∧ f.weight = bigEndian (fixed.drop 4))
    | .pushPromise => ∃ f, PushPromiseFrame.ofRaw frame = .ok f ∧ f.header = frame.header ∧
        f.padLength = frame.padLength ∧ frame.SplitsInto fixed f.data f.padding ∧
        f.promisedStreamId = bigEndian fixed % 2 ^ 31

/-- Padding is handled as the rule says: the check accepts exactly the payloads in which the padding
fits, and on those it accepts the typed constructor finds the parts. -/
def PaddedType.HandlesPadding (type : PaddedType) (frame : RawFrame) : Prop :=
  (validatePaddedPayload frame (type.fixedPrefixBytes frame) = .ok none ↔
      frame.PaddingFits (type.fixedPrefixBytes frame)) ∧
    (validatePaddedPayload frame (type.fixedPrefixBytes frame) = .ok none → type.Splits frame)

section Padded

variable {frame : RawFrame} {k : Nat}

theorem validatePaddedPayload_iff : validatePaddedPayload frame k = .ok none ↔
    frame.PaddingOk k := by
  rcases validatePaddedPayload_cases frame k with ⟨hok, heq⟩ | ⟨hno, code, text, heq, -⟩
  · exact ⟨fun _ => hok, fun _ => heq⟩
  · refine ⟨fun h => ?_, fun h => absurd h hno⟩
    rw [heq] at h
    cases h

/-- The check is the rule without the payloads that carry no data. -/
theorem paddingOk_iff (hp : frame.header.hasAnyFlag .padded = true) :
    frame.PaddingOk k ↔ frame.PaddingFits k ∧ ¬ frame.AllPadding k := by
  have hoff : frame.dataOffset k = 1 + k := by rw [RawFrame.dataOffset, if_pos hp]
  rw [RawFrame.PaddingOk, hoff, RawFrame.PaddingFits, RawFrame.AllPadding]
  constructor
  · rintro ⟨h1, h2⟩
    have h3 := h2 hp
    exact ⟨⟨h1, by omega⟩, fun h => by omega⟩
  · rintro ⟨⟨h1, h2⟩, h3⟩
    exact ⟨h1, fun _ => by
      have : frame.padLength ≠ frame.data.length - 1 - k := fun he => h3 ⟨h1, he⟩
      omega⟩

/-- An accepted padded payload, cut at the offsets of the model. -/
theorem splitsInto_of_paddingOk (hp : frame.header.hasAnyFlag .padded = true)
    (h : frame.PaddingOk k) :
    frame.SplitsInto ((frame.data.drop 1).take k) (frame.paddedFragment k)
      frame.trailingPadding ∧ ((frame.data.drop 1).take k).length = k := by
  obtain ⟨⟨h1, h2⟩, -⟩ := (paddingOk_iff hp).1 h
  have hoff : frame.dataOffset k = 1 + k := by rw [RawFrame.dataOffset, if_pos hp]
  have hk : ((frame.data.drop 1).take k).length = k := by
    rw [List.length_take, List.length_drop]
    omega
  have hpad : frame.data.head? = some frame.padLength.toUInt8 := by
    rw [RawFrame.padLength, if_pos hp]
    cases hd : frame.data with
    | nil =>
      rw [hd] at h1
      simp at h1
    | cons b bs => simp
  refine ⟨⟨?_, ?_, ?_⟩, hk⟩
  · have hcons : frame.data = frame.padLength.toUInt8 :: frame.data.drop 1 := by
      cases hd : frame.data with
      | nil =>
        rw [hd] at hpad
        cases hpad
      | cons b bs =>
        rw [hd, List.head?_cons, Option.some.injEq] at hpad
        rw [hpad]
        rfl
    -- behind the pad length: the fixed prefix, the fragment, the padding
    have htail : frame.data.drop 1 =
        (frame.data.drop 1).take k ++ frame.paddedFragment k ++ frame.trailingPadding := by
      have hend : frame.trailingPadding = (frame.data.drop (1 + k)).drop
          (frame.data.length - (1 + k) - frame.padLength) := by
        rw [RawFrame.trailingPadding, List.drop_drop]
        congr 1
        omega
      rw [RawFrame.paddedFragment, hoff, hend, List.append_assoc, List.take_append_drop,
        ← List.drop_drop, List.take_append_drop]
    exact hcons.trans (congrArg _ htail)
  · rw [hk, RawFrame.paddedFragment, hoff, List.length_take, List.length_drop]
    omega
  · rw [RawFrame.trailingPadding, List.length_drop]
    omega

theorem PaddedType.splits_of_paddingOk (type : PaddedType)
    (hp : frame.header.hasAnyFlag .padded = true)
    (h : frame.PaddingOk (type.fixedPrefixBytes frame)) : type.Splits frame := by
  obtain ⟨hsplit, hlen⟩ := splitsInto_of_paddingOk hp h
  have hoff : frame.dataOffset 0 = 1 := by rw [RawFrame.dataOffset, if_pos hp]
  refine ⟨_, hlen, ?_⟩
  cases type with
  | data =>
    obtain ⟨f, hf, hheader, hdata, hpad, hpadding⟩ := DataFrame.ofRaw_eq h
    refine ⟨f, hf, hheader, hpad, ?_⟩
    rw [hdata, hpadding]
    exact hsplit
  | headers =>
    obtain ⟨f, hf, hheader, hdata, hpad, hpadding, hprio⟩ := HeadersFrame.ofRaw_eq h
    refine ⟨f, hf, hheader, hpad, ?_, fun hflag => ?_⟩
    · rw [hdata, hpadding]
      exact hsplit
    · have hk : fixedPrefixBytes .headers frame = 5 := by
        rw [fixedPrefixBytes, RawFrame.priorityPrefix, if_pos hflag]
      obtain ⟨hdep, hweight⟩ := hprio hflag
      rw [hdep, hweight, hoff, hk, List.take_take, List.drop_take, List.drop_drop]
      exact ⟨rfl, rfl⟩
  | pushPromise =>
    obtain ⟨f, hf, hheader, hdata, hpad, hpadding, hid⟩ := PushPromiseFrame.ofRaw_eq h
    refine ⟨f, hf, hheader, hpad, ?_, ?_⟩
    · rw [hdata, hpadding]
      exact hsplit
    · rw [hid, hoff]
      rfl

/-- The source handles the padding of a frame as the rule says unless the padding takes all of the
payload after the prefix: these payloads are well formed and are turned away. -/
theorem PaddedType.handlesPadding_iff (type : PaddedType) (frame : RawFrame)
    (hp : frame.header.hasAnyFlag .padded = true) :
    type.HandlesPadding frame ↔ ¬ frame.AllPadding (type.fixedPrefixBytes frame) := by
  rw [HandlesPadding, validatePaddedPayload_iff, paddingOk_iff hp]
  constructor
  · rintro ⟨haccept, -⟩ hall
    exact (haccept.2 ⟨hall.1, hall.2.le⟩).2 hall
  · intro hnot
    refine ⟨⟨And.left, fun h => ⟨h, hnot⟩⟩, fun h => ?_⟩
    exact type.splits_of_paddingOk hp ((paddingOk_iff hp).2 h)

end Padded

/-- An empty DATA frame that ends the stream, padded with two bytes. -/
def emptyPaddedData : RawFrame :=
  .ofPayload { type := .data, flags := 0x9, streamId := 1 } [2, 0, 0] (by decide) (by decide)

theorem not_handlesPadding_emptyPaddedData :
    emptyPaddedData.header.hasAnyFlag .padded = true ∧
      ¬ PaddedType.HandlesPadding .data emptyPaddedData ∧
      emptyPaddedData.PaddingFits 0 ∧ validatePaddedPayload emptyPaddedData 0 =
        .ok (some (.protocolError, "padding exceeds frame payload")) := by
  have hrej : validatePaddedPayload emptyPaddedData 0 =
      .ok (some (.protocolError, "padding exceeds frame payload")) := by rfl
  have hfits : emptyPaddedData.PaddingFits 0 := ⟨by decide, by decide⟩
  refine ⟨by decide, fun h => ?_, hfits, hrej⟩
  have hacc := h.1.2 hfits
  have : validatePaddedPayload emptyPaddedData 0 = .ok none := hacc
  rw [hrej] at this
  cases this

/-- One data byte before the same padding. -/
def shortPaddedData : RawFrame :=
  .ofPayload { type := .data, flags := 0x9, streamId := 1 } [2, 7, 0, 0] (by decide) (by decide)

theorem handlesPadding_shortPaddedData : PaddedType.HandlesPadding .data shortPaddedData :=
  (PaddedType.handlesPadding_iff .data shortPaddedData (by decide)).2 fun h =>
    absurd h.2 (by decide)

end Chttp2
