import Chttp2.Hpack.Huffman
import Chttp2.Lib.BitString
import Chttp2.Lib.PrefixCode

/-!
# The Huffman table is a prefix code and `buildTree` is its tree

`huffmanCode` packages the two tables as a `PrefixCode` over bits. `IsCodeTree` says which nodes
`buildTree` allocates (`isCodeTree_buildTree`): the root, an inner node at every whole-byte beginning
of a code word that needs more bits, and a leaf for every byte that completes a code word.
`child_cases` reads the three outcomes of a step to a child off it.
-/

set_option autoImplicit false

namespace Chttp2.Huffman

open BitString

/-! ## The tables -/

/-- One of two codes, given with their lengths, begins with the other. -/
def overlaps (a b : Nat × Nat) : Bool :=
  if a.2 ≤ b.2 then b.1 >>> (b.2 - a.2) == a.1 else a.1 >>> (a.2 - b.2) == b.1

theorem tables_checked :
    (codes.zip lengths).Pairwise (fun a b => overlaps a b = false) ∧
      (codes.zip lengths).all (fun a => 5 ≤ a.2 ∧ a.2 ≤ 30 ∧ a.1 < 2 ^ a.2 - 1) = true ∧
      (codes.zip lengths).length = 256 := by
  decide +kernel

theorem getElem_table (s : UInt8) (h : s.toNat < (codes.zip lengths).length) :
    (codes.zip lengths)[s.toNat] = (codeOf s, lengthOf s) := by
  rw [List.getElem_zip]
  rw [List.length_zip] at h
  have h1 : s.toNat < codes.length := by omega
  have h2 : s.toNat < lengths.length := by omega
  simp [codeOf, lengthOf, h1, h2]

theorem table_bounds (s : UInt8) :
    5 ≤ lengthOf s ∧ lengthOf s ≤ 30 ∧ codeOf s < 2 ^ lengthOf s - 1 := by
  obtain ⟨-, h, hlen⟩ := tables_checked
  have hs : s.toNat < (codes.zip lengths).length := by
    rw [hlen]
    exact s.toNat_lt
  rw [List.all_eq_true] at h
  have := h _ (List.getElem_mem hs)
  rw [getElem_table s hs] at this
  simpa using this

theorem codeOf_lt (s : UInt8) : codeOf s < 2 ^ lengthOf s := by
  have := (table_bounds s).2.2
  omega

theorem overlaps_comm (a b : Nat × Nat) : overlaps a b = true → overlaps b a = true := by
  unfold overlaps
  split <;> split <;> intro h
  · have : b.2 = a.2 := by omega
    simp_all
  · exact h
  · exact h
  · omega

theorem eq_of_overlaps {s t : UInt8}
    (h : overlaps (codeOf s, lengthOf s) (codeOf t, lengthOf t) = true) : s = t := by
  obtain ⟨hp, -, hlen⟩ := tables_checked
  rw [List.pairwise_iff_getElem] at hp
  have hs : s.toNat < (codes.zip lengths).length := by
    rw [hlen]
    exact s.toNat_lt
  have ht : t.toNat < (codes.zip lengths).length := by
    rw [hlen]
    exact t.toNat_lt
  rcases Nat.lt_trichotomy s.toNat t.toNat with hlt | heq | hgt
  · have := hp _ _ hs ht hlt
    rw [getElem_table s hs, getElem_table t ht, h] at this
    cases this
  · exact UInt8.toNat_inj.1 heq
  · have := hp _ _ ht hs hgt
    rw [getElem_table s hs, getElem_table t ht, overlaps_comm _ _ h] at this
    cases this

/-- The bits of the code of a symbol. -/
def codeBits (s : UInt8) : List Bool := bitsBE (lengthOf s) (codeOf s)

@[simp] theorem length_codeBits (s : UInt8) : (codeBits s).length = lengthOf s := by
  simp [codeBits]

theorem eq_of_codeBits_prefix {s t : UInt8} (h : codeBits s <+: codeBits t) : s = t := by
  have hle : lengthOf s ≤ lengthOf t := by simpa using h.length_le
  have hshift : codeOf t >>> (lengthOf t - lengthOf s) < 2 ^ lengthOf s := by
    rw [Nat.shiftRight_eq_div_pow, Nat.div_lt_iff_lt_mul (by positivity), ← Nat.pow_add]
    have : lengthOf s + (lengthOf t - lengthOf s) = lengthOf t := by omega
    rw [this]
    exact codeOf_lt t
  have heq := (bitsBE_prefix_iff hle).1 h
  rw [Nat.mod_eq_of_lt (codeOf_lt s), Nat.mod_eq_of_lt hshift] at heq
  apply eq_of_overlaps
  rw [overlaps, if_pos hle]
  simp [heq]

/-- The code of RFC 7541, Appendix B. -/
def huffmanCode : PrefixCode UInt8 Bool where
  code := codeBits
  code_ne_nil s h := by
    have := (table_bounds s).1
    have hlen := congrArg List.length h
    simp at hlen
    omega
  eq_of_prefix _ _ := eq_of_codeBits_prefix

/-- No code word consists of ones, so padding contains none. -/
theorem stuck_replicate (k : Nat) : huffmanCode.Stuck (List.replicate k true) := by
  intro s h
  have hones : codeBits s = List.replicate (lengthOf s) true := by
    rw [List.eq_replicate_iff]
    exact ⟨length_codeBits s, fun b hb => List.eq_of_mem_replicate (h.subset hb)⟩
  have hlt := (table_bounds s).2.2
  rw [codeBits, ← bitsBE_ones] at hones
  have := eq_of_bitsBE_eq (codeOf_lt s) (by omega) hones
  omega

/-! ## The tree -/

/-- `t'` has the nodes of `t`, and the nodes of `A` where `t` has none. -/
def Extends (t t' : Tree) (A : Bytes → Node → Prop) : Prop :=
  ∀ ρ m, t' ρ = some m ↔ t ρ = some m ∨ (t ρ = none ∧ A ρ m)

theorem Extends.refl (t : Tree) : Extends t t fun _ _ => False := by
  intro ρ m
  simp

theorem Extends.congr {t t' : Tree} {A B : Bytes → Node → Prop} (h : Extends t t' A)
    (hAB : ∀ ρ m, A ρ m ↔ B ρ m) : Extends t t' B := by
  intro ρ m
  rw [h ρ m, hAB]

theorem Extends.trans {t t' t'' : Tree} {A B : Bytes → Node → Prop} (hA : Extends t t' A)
    (hB : Extends t' t'' B) (h : ∀ ρ m n, A ρ m → B ρ n → m = n) :
    Extends t t'' fun ρ m => A ρ m ∨ B ρ m := by
  intro ρ m
  rw [hB ρ m]
  cases ht : t ρ with
  | some n =>
    have ht' := (hA ρ n).2 (Or.inl ht)
    simp [ht']
  | none =>
    cases ht' : t' ρ with
    | some n =>
      have hn : A ρ n := by simpa [ht] using (hA ρ n).1 ht'
      constructor
      · rintro (he | ⟨he, -⟩)
        · cases he
          exact Or.inr ⟨rfl, Or.inl hn⟩
        · cases he
      · rintro (he | ⟨-, hm | hm⟩)
        · cases he
        · have := (hA ρ m).2 (Or.inr ⟨ht, hm⟩)
          rw [ht'] at this
          exact Or.inl this
        · rw [h ρ n m hn hm]
          exact Or.inl rfl
    | none =>
      have hno : ¬ A ρ m := fun hm => by
        have := (hA ρ m).2 (Or.inr ⟨ht, hm⟩)
        rw [ht'] at this
        cases this
      simp [hno]

theorem extends_allocIfNull (t : Tree) (π : Bytes) (n : Node) :
    Extends t (t.allocIfNull π n) fun ρ m => ρ = π ∧ m = n := by
  intro ρ m
  unfold Tree.allocIfNull
  cases t ρ with
  | some k => simp
  | none =>
    by_cases h : ρ = π
    · simp [h, eq_comm]
    · simp [h]

theorem descend_spec (code fuel : Nat) : ∀ (t : Tree) (π : Bytes) (len : Nat), 0 < len →
    len ≤ 8 * (fuel + 1) →
    ∃ t' π' len', descend code fuel t π len = (t', π', len') ∧ π <+: π' ∧ 0 < len' ∧ len' ≤ 8 ∧
      bytesBits π ++ bitsBE len code = bytesBits π' ++ bitsBE len' code ∧
      Extends t t' fun ρ m => (π <+: ρ ∧ ρ ≠ π ∧ ρ <+: π') ∧ m = {} := by
  induction fuel with
  | zero =>
    intro t π len h0 h8
    refine ⟨t, π, len, rfl, List.prefix_refl _, h0, by omega, rfl, ?_⟩
    refine (Extends.refl t).congr fun ρ m => ?_
    constructor
    · exact False.elim
    · rintro ⟨⟨h1, h2, h3⟩, -⟩
      exact h2 (h3.eq_of_length_le h1.length_le)
  | succ fuel ih =>
    intro t π len h0 h8
    rw [descend]
    by_cases hlen : len > 8
    · rw [if_pos hlen]
      -- the next node is entered with the top eight bits, and made if it is not there
      generalize hidx : (code >>> (len - 8)).toUInt8 = idx
      obtain ⟨t', π', len', h1, h2, h3, h4, h5, h6⟩ :=
        ih (t.allocIfNull (π ++ [idx]) {}) (π ++ [idx]) (len - 8) (by omega) (by omega)
      refine ⟨t', π', len', h1, (List.prefix_append _ _).trans h2, h3, h4, ?_, ?_⟩
      · have hbits : bitsBE len code =
            bitsBE 8 (code >>> (len - 8)) ++ bitsBE (len - 8) code := by
          rw [← bitsBE_add]
          congr 1
          omega
        rw [← h5, bytesBits_append, List.append_assoc, ← hidx, bytesBits_singleton,
          bitsBE_toUInt8, hbits]
      · refine ((extends_allocIfNull t (π ++ [idx]) {}).trans h6 ?_).congr fun ρ m => ?_
        · rintro ρ m n ⟨-, rfl⟩ ⟨-, rfl⟩
          rfl
        · constructor
          · rintro (⟨rfl, rfl⟩ | ⟨⟨ha, hb, hc⟩, rfl⟩)
            · exact ⟨⟨List.prefix_append _ _, by simp, h2⟩, rfl⟩
            · refine ⟨⟨(List.prefix_append _ _).trans ha, ?_, hc⟩, rfl⟩
              rintro rfl
              have := ha.length_le
              simp at this
          · rintro ⟨⟨⟨r, rfl⟩, hb, hc⟩, rfl⟩
            cases r with
            | nil => simp at hb
            | cons x r =>
              have hx : π ++ [x] <+: π' :=
                List.IsPrefix.trans ⟨r, by simp⟩ hc
              have hxi : π ++ [x] = π ++ [idx] :=
                (List.prefix_of_prefix_length_le hx h2 (by simp)).eq_of_length (by simp)
              -- the node itself, or one below it
              by_cases hr : r = []
              · subst hr
                exact Or.inl ⟨hxi, rfl⟩
              · refine Or.inr ⟨⟨?_, ?_, hc⟩, rfl⟩
                · rw [← hxi]
                  exact ⟨r, by simp⟩
                · rw [← hxi]
                  simpa using hr
    · rw [if_neg hlen]
      refine ⟨t, π, len, rfl, List.prefix_refl _, h0, by omega, rfl, ?_⟩
      refine (Extends.refl t).congr fun ρ m => ?_
      constructor
      · exact False.elim
      · rintro ⟨⟨h1, h2, h3⟩, -⟩
        exact h2 (h3.eq_of_length_le h1.length_le)

theorem fillLeaves_spec (π : Bytes) (n : Node) (count : Nat) : ∀ (start : Nat) (t : Tree),
    start + count ≤ 256 →
    Extends t (fillLeaves π n start count t) fun ρ m =>
      (∃ idx : UInt8, ρ = π ++ [idx] ∧ start ≤ idx.toNat ∧ idx.toNat < start + count) ∧ m = n := by
  induction count with
  | zero =>
    intro start t _
    refine (Extends.refl t).congr fun ρ m => ?_
    constructor
    · exact False.elim
    · rintro ⟨⟨idx, -, h1, h2⟩, -⟩
      omega
  | succ count ih =>
    intro start t h
    have hstart : start.toUInt8.toNat = start := by
      rw [Nat.toUInt8_eq, UInt8.toNat_ofNat']
      omega
    rw [fillLeaves]
    refine ((extends_allocIfNull t (π ++ [start.toUInt8]) n).trans
      (ih (start + 1) _ (by omega)) ?_).congr fun ρ m => ?_
    · rintro ρ m k ⟨-, rfl⟩ ⟨-, rfl⟩
      rfl
    · constructor
      · rintro (⟨rfl, rfl⟩ | ⟨⟨idx, rfl, h1, h2⟩, rfl⟩)
        · exact ⟨⟨_, rfl, by omega, by omega⟩, rfl⟩
        · exact ⟨⟨idx, rfl, by omega, by omega⟩, rfl⟩
      · rintro ⟨⟨idx, rfl, h1, h2⟩, rfl⟩
        by_cases he : idx.toNat = start
        · refine Or.inl ⟨?_, rfl⟩
          rw [← he]
          simp
        · exact Or.inr ⟨⟨idx, rfl, by omega, by omega⟩, rfl⟩

/-- The nodes that the code of `s` needs. -/
inductive Allocates (s : UInt8) : Bytes → Node → Prop
  | inner {π : Bytes} {c : List Bool} :
      π ≠ [] → c ≠ [] → codeBits s = bytesBits π ++ c → Allocates s π {}
  | leaf {π : Bytes} {idx : UInt8} {c : List Bool} :
      c ≠ [] → codeBits s = bytesBits π ++ c → c <+: bitsBE 8 idx.toNat →
        Allocates s (π ++ [idx]) ⟨true, c.length, s⟩

/-- The bytes that begin with the last bits of a code are a range. -/
theorem prefix_byte_iff {len code : Nat} {idx : UInt8} (h : len ≤ 8) :
    bitsBE len code <+: bitsBE 8 idx.toNat ↔
      code <<< (8 - len) % 256 ≤ idx.toNat ∧
        idx.toNat < code <<< (8 - len) % 256 + 1 <<< (8 - len) := by
  have hd : 0 < 2 ^ (8 - len) := by positivity
  have h256 : (256 : Nat) = 2 ^ len * 2 ^ (8 - len) := by
    rw [← Nat.pow_add, Nat.add_sub_cancel' h]
  have hidx : idx.toNat / 2 ^ (8 - len) < 2 ^ len := by
    rw [Nat.div_lt_iff_lt_mul hd, ← h256]
    exact idx.toNat_lt
  rw [bitsBE_prefix_iff h, Nat.shiftRight_eq_div_pow, Nat.mod_eq_of_lt hidx,
    Nat.shiftLeft_eq, Nat.shiftLeft_eq, Nat.one_mul, h256, Nat.mul_mod_mul_right, eq_comm,
    Nat.div_eq_iff hd]
  omega

theorem shifted_range_le {len code : Nat} (h : len ≤ 8) :
    code <<< (8 - len) % 256 + 1 <<< (8 - len) ≤ 256 := by
  have h256 : (256 : Nat) = 2 ^ len * 2 ^ (8 - len) := by
    rw [← Nat.pow_add, Nat.add_sub_cancel' h]
  have hlt : code % 2 ^ len + 1 ≤ 2 ^ len := Nat.mod_lt _ (by positivity)
  rw [Nat.shiftLeft_eq, Nat.shiftLeft_eq, Nat.one_mul, h256, Nat.mul_mod_mul_right]
  calc code % 2 ^ len * 2 ^ (8 - len) + 2 ^ (8 - len)
      = (code % 2 ^ len + 1) * 2 ^ (8 - len) := by ring
    _ ≤ 2 ^ len * 2 ^ (8 - len) := Nat.mul_le_mul_right _ hlt

/-- Two splits of a code after whole bytes that leave at most one byte are the same. -/
theorem split_unique {π π' : Bytes} {c c' : List Bool}
    (h : bytesBits π ++ c = bytesBits π' ++ c') (hc : c ≠ []) (hc' : c' ≠ [])
    (h8 : c.length ≤ 8) (h8' : c'.length ≤ 8) : π = π' ∧ c = c' := by
  have hpos := List.length_pos_iff.2 hc
  have hpos' := List.length_pos_iff.2 hc'
  have hlen := congrArg List.length h
  simp only [List.length_append, length_bytesBits] at hlen
  obtain ⟨h1, h2⟩ := List.append_inj h (by simp; omega)
  exact ⟨bytesBits_injective h1, h2⟩

theorem extends_insertSymbol (t : Tree) (s : UInt8) :
    Extends t (insertSymbol t s) (Allocates s) := by
  have hb := table_bounds s
  obtain ⟨t', π, len, h1, -, h3, h4, h5, h6⟩ :=
    descend_spec (codeOf s) (lengthOf s) t [] (lengthOf s) (by omega) (by omega)
  have hcode : codeBits s = bytesBits π ++ bitsBE len (codeOf s) := by
    rw [← h5]
    rfl
  have hne : bitsBE len (codeOf s) ≠ [] := by
    rw [← List.length_pos_iff, length_bitsBE]
    exact h3
  simp only [insertSymbol, h1]
  refine (h6.trans (fillLeaves_spec π ⟨true, len, s⟩ _ _ t' (shifted_range_le h4)) ?_).congr
    fun ρ m => ?_
  · rintro ρ m n ⟨⟨-, -, hρ⟩, -⟩ ⟨⟨idx, rfl, -⟩, -⟩
    have := hρ.length_le
    simp at this
  constructor
  · rintro (⟨⟨-, hρ, r, rfl⟩, rfl⟩ | ⟨⟨idx, rfl, hidx⟩, rfl⟩)
    · refine .inner (c := bytesBits r ++ bitsBE len (codeOf s)) hρ (by simp [hne]) ?_
      rw [hcode, bytesBits_append, List.append_assoc]
    · have := Allocates.leaf hne hcode ((prefix_byte_iff h4).2 hidx)
      rwa [length_bitsBE] at this
  · intro hm
    cases hm with
    | @inner _ c hρ hc hs =>
      refine Or.inl ⟨⟨List.nil_prefix, hρ, ?_⟩, rfl⟩
      rw [← bytesBits_prefix_iff]
      refine List.prefix_of_prefix_length_le ⟨c, hs.symm⟩ ⟨_, hcode.symm⟩ ?_
      have hlen := congrArg List.length (hs.symm.trans hcode)
      have hpos := List.length_pos_iff.2 hc
      simp only [List.length_append, length_bytesBits, length_bitsBE] at hlen ⊢
      omega
    | @leaf π' idx c hc hs hp =>
      have h8 : c.length ≤ 8 := by simpa using hp.length_le
      obtain ⟨rfl, rfl⟩ := split_unique (hs.symm.trans hcode) hc hne h8 (by simpa using h4)
      refine Or.inr ⟨⟨idx, rfl, (prefix_byte_iff h4).1 hp⟩, ?_⟩
      rw [length_bitsBE]

theorem Allocates.ne_nil {s : UInt8} {ρ : Bytes} {m : Node} (h : Allocates s ρ m) : ρ ≠ [] := by
  cases h with
  | inner hρ _ _ => exact hρ
  | leaf _ _ _ => simp

/-- Different codes never need different nodes at one place. -/
theorem Allocates.unique {s t : UInt8} {ρ : Bytes} {m n : Node} (hs : Allocates s ρ m)
    (ht : Allocates t ρ n) : m = n := by
  -- a leaf of `t` at the place of an inner node of `s` would make one code a prefix of the other
  have key : ∀ {s t : UInt8} {π : Bytes} {idx : UInt8} {c d : List Bool}, d ≠ [] →
      codeBits s = bytesBits (π ++ [idx]) ++ d → codeBits t = bytesBits π ++ c →
      c <+: bitsBE 8 idx.toNat → False := by
    intro s t π idx c d hd h1 h2 h3
    have hpre : codeBits t <+: bytesBits (π ++ [idx]) := by
      rw [h2, bytesBits_append]
      exact (List.prefix_append_right_inj _).2 (by simpa using h3)
    have hst : t = s := eq_of_codeBits_prefix (hpre.trans ⟨d, h1.symm⟩)
    subst hst
    have hle := hpre.length_le
    have hpos := List.length_pos_iff.2 hd
    rw [h1, List.length_append] at hle
    omega
  cases hs with
  | @inner _ c hρ hc h1 =>
    cases ht with
    | inner _ _ _ => rfl
    | leaf _ h2 h3 => exact (key hc h1 h2 h3).elim
  | @leaf π idx c hc h1 hp =>
    generalize hρ : π ++ [idx] = ρ at ht
    cases ht with
    | inner _ hd h2 =>
      subst hρ
      exact (key hd h2 h1 hp).elim
    | @leaf π' idx' d hd h2 hq =>
      obtain ⟨rfl, hidx⟩ := List.append_inj' hρ rfl
      cases hidx
      have hst : s = t := by
        apply huffmanCode.eq_of_prefix_of_prefix (w := bytesBits π ++ bitsBE 8 idx.toNat)
        · show codeBits s <+: _
          rw [h1]
          exact (List.prefix_append_right_inj _).2 hp
        · show codeBits t <+: _
          rw [h2]
          exact (List.prefix_append_right_inj _).2 hq
      subst hst
      rw [List.append_cancel_left (h1.symm.trans h2)]

theorem extends_foldl_insertSymbol (l : List UInt8) : ∀ t : Tree,
    Extends t (l.foldl insertSymbol t) fun ρ m => ∃ s ∈ l, Allocates s ρ m := by
  induction l with
  | nil =>
    intro t
    exact (Extends.refl t).congr fun ρ m => by simp
  | cons s l ih =>
    intro t
    refine ((extends_insertSymbol t s).trans (ih _) ?_).congr fun ρ m => by simp
    rintro ρ m n hm ⟨s', -, hn⟩
    exact hm.unique hn

/-- `t` has the root, the nodes that some code needs, and no others. -/
def IsCodeTree (t : Tree) : Prop :=
  ∀ ρ m, t ρ = some m ↔ (ρ = [] ∧ m = {}) ∨ ∃ s, Allocates s ρ m

theorem isCodeTree_buildTree : IsCodeTree buildTree := by
  have hall : ∀ s : UInt8, s ∈ (List.range 256).map Nat.toUInt8 := by
    intro s
    rw [List.mem_map]
    exact ⟨s.toNat, List.mem_range.2 s.toNat_lt, by simp⟩
  intro ρ m
  unfold buildTree
  rw [extends_foldl_insertSymbol _ _ ρ m]
  by_cases hρ : ρ = []
  · subst hρ
    constructor
    · rintro (h | ⟨h, -⟩)
      · simp at h
        exact Or.inl ⟨rfl, h.symm⟩
      · simp at h
    · rintro (⟨-, rfl⟩ | ⟨s, hs⟩)
      · exact Or.inl rfl
      · exact absurd rfl hs.ne_nil
  · simp [hρ, hall]

/-- The inner nodes: the root and the whole-byte beginnings of a longer code. -/
def Open (π : Bytes) : Prop := π = [] ∨ huffmanCode.Partial (bytesBits π)

theorem Open.stuck {π : Bytes} (h : Open π) : huffmanCode.Stuck (bytesBits π) := by
  rcases h with rfl | h
  · exact huffmanCode.stuck_nil
  · exact h.stuck

section Child

variable {t : Tree} {π : Bytes}

theorem Open.tree_eq (ht : IsCodeTree t) (h : Open π) : t π = some {} := by
  rw [ht]
  by_cases hπ : π = []
  · exact Or.inl ⟨hπ, rfl⟩
  · rcases h with rfl | ⟨s, c, hc, hs⟩
    · exact absurd rfl hπ
    · exact Or.inr ⟨s, .inner hπ hc hs⟩

theorem child_eq (ht : IsCodeTree t) (h : Open π) (idx : UInt8) :
    child t π idx = .ok (π ++ [idx], t (π ++ [idx])) := by
  rw [child, h.tree_eq ht]

/-- A code that ends within the byte `idx` after the inner node `π` has its leaf there. -/
theorem child_leaf (ht : IsCodeTree t) (h : Open π) {idx s : UInt8} {c : List Bool} (hc : c ≠ [])
    (hs : codeBits s = bytesBits π ++ c) (hp : c <+: bitsBE 8 idx.toNat) :
    child t π idx = .ok (π ++ [idx], some ⟨true, c.length, s⟩) := by
  rw [child_eq ht h, (ht _ _).2 (Or.inr ⟨s, .leaf hc hs hp⟩)]

/-- A step from an inner node with the byte `idx`: no code goes on like this, a code ends within
the byte, or the byte leads to an inner node. -/
theorem child_cases (ht : IsCodeTree t) (h : Open π) (idx : UInt8) :
    (child t π idx = .ok (π ++ [idx], none) ∧
        ∀ v, huffmanCode.Stuck (bytesBits (π ++ [idx]) ++ v)) ∨
      (∃ s c, child t π idx = .ok (π ++ [idx], some ⟨true, c.length, s⟩) ∧ c ≠ [] ∧
        codeBits s = bytesBits π ++ c ∧ c <+: bitsBE 8 idx.toNat) ∨
      (child t π idx = .ok (π ++ [idx], some {}) ∧ Open (π ++ [idx])) := by
  rw [child_eq ht h]
  cases hn : t (π ++ [idx]) with
  | none =>
    refine Or.inl ⟨rfl, fun v s hs => ?_⟩
    have hno : ∀ m, ¬ Allocates s (π ++ [idx]) m := by
      intro m hm
      have := (ht _ _).2 (Or.inr ⟨s, hm⟩)
      rw [hn] at this
      cases this
    rw [bytesBits_append, List.append_assoc] at hs
    obtain ⟨c, hc, hcs, hpre⟩ := h.stuck.exists_append hs
    rw [bytesBits_singleton] at hpre
    rcases List.prefix_or_prefix_of_prefix hpre (List.prefix_append _ v) with h1 | ⟨d, rfl⟩
    · exact hno _ (.leaf hc hcs h1)
    · by_cases hd : d = []
      · subst hd
        exact hno _ (.leaf hc hcs (by simp))
      · refine hno _ (.inner (c := d) (by simp) hd ?_)
        rw [bytesBits_append, bytesBits_singleton, List.append_assoc]
        exact hcs
  | some m =>
    right
    rcases (ht _ _).1 hn with ⟨h0, -⟩ | ⟨s, hs⟩
    · simp at h0
    · generalize hρ : π ++ [idx] = ρ at hs
      cases hs with
      | inner _ hc hs => exact Or.inr ⟨rfl, Or.inr ⟨s, _, hc, hs⟩⟩
      | leaf hc hs hp =>
        obtain ⟨rfl, hidx⟩ := List.append_inj' hρ rfl
        cases hidx
        exact Or.inl ⟨s, _, rfl, hc, hs, hp⟩

end Child

end Chttp2.Huffman
