import Chttp2.Bytes

/-!
# Header fields and the static table

`HeaderField` and the static table of RFC 7541, Appendix A, in the three forms of `table.cpp`: by
index, by name and by name and value. `static_tables_agree` checks the forms against each other.
-/

set_option autoImplicit false

namespace Chttp2

/-- A header field; a sensitive one is never indexed. -/
structure HeaderField where
  name : Bytes := []
  value : Bytes := []
  sensitivity : Bool := false
  deriving DecidableEq, Repr

/-- RFC 7541, section 4.1. -/
def HeaderField.size (h : HeaderField) : Nat := h.name.length + h.value.length + 32

/-- `STATIC_NAME_TABLE`. -/
def staticNameTable : List (Bytes × Nat) := [
  (ascii ":authority", 1), (ascii ":method", 2), (ascii ":path", 4), (ascii ":scheme", 6),
  (ascii ":status", 8), (ascii "accept-charset", 15), (ascii "accept-encoding", 16),
  (ascii "accept-language", 17), (ascii "accept-ranges", 18), (ascii "accept", 19),
  (ascii "access-control-allow-origin", 20), (ascii "age", 21), (ascii "allow", 22),
  (ascii "authorization", 23), (ascii "cache-control", 24), (ascii "content-disposition", 25),
  (ascii "content-encoding", 26), (ascii "content-language", 27), (ascii "content-length", 28),
  (ascii "content-location", 29), (ascii "content-range", 30), (ascii "content-type", 31),
  (ascii "cookie", 32), (ascii "date", 33), (ascii "etag", 34), (ascii "expect", 35),
  (ascii "expires", 36), (ascii "from", 37), (ascii "host", 38), (ascii "if-match", 39),
  (ascii "if-modified-since", 40), (ascii "if-none-match", 41), (ascii "if-range", 42),
  (ascii "if-unmodified-since", 43), (ascii "last-modified", 44), (ascii "link", 45),
  (ascii "location", 46), (ascii "max-forwards", 47), (ascii "proxy-authenticate", 48),
  (ascii "proxy-authorization", 49), (ascii "range", 50), (ascii "referer", 51),
  (ascii "refresh", 52), (ascii "retry-after", 53), (ascii "server", 54),
  (ascii "set-cookie", 55), (ascii "strict-transport-security", 56),
  (ascii "transfer-encoding", 57), (ascii "user-agent", 58), (ascii "vary", 59),
  (ascii "via", 60), (ascii "www-authenticate", 61)]

/-- `STATIC_NAME_VALUE_TABLE`. -/
def staticNameValueTable : List ((Bytes × Bytes) × Nat) := [
  ((ascii ":authority", ascii ""), 1), ((ascii ":method", ascii "GET"), 2),
  ((ascii ":method", ascii "POST"), 3), ((ascii ":path", ascii "/"), 4),
  ((ascii ":path", ascii "/index.html"), 5), ((ascii ":scheme", ascii "http"), 6),
  ((ascii ":scheme", ascii "https"), 7), ((ascii ":status", ascii "200"), 8),
  ((ascii ":status", ascii "204"), 9), ((ascii ":status", ascii "206"), 10),
  ((ascii ":status", ascii "304"), 11), ((ascii ":status", ascii "400"), 12),
  ((ascii ":status", ascii "404"), 13), ((ascii ":status", ascii "500"), 14),
  ((ascii "accept-charset", ascii ""), 15),
  ((ascii "accept-encoding", ascii "gzip, deflate"), 16),
  ((ascii "accept-language", ascii ""), 17), ((ascii "accept-ranges", ascii ""), 18),
  ((ascii "accept", ascii ""), 19), ((ascii "access-control-allow-origin", ascii ""), 20),
  ((ascii "age", ascii ""), 21), ((ascii "allow", ascii ""), 22),
  ((ascii "authorization", ascii ""), 23), ((ascii "cache-control", ascii ""), 24),
  ((ascii "content-disposition", ascii ""), 25), ((ascii "content-encoding", ascii ""), 26),
  ((ascii "content-language", ascii ""), 27), ((ascii "content-length", ascii ""), 28),
  ((ascii "content-location", ascii ""), 29), ((ascii "content-range", ascii ""), 30),
  ((ascii "content-type", ascii ""), 31), ((ascii "cookie", ascii ""), 32),
  ((ascii "date", ascii ""), 33), ((ascii "etag", ascii ""), 34),
  ((ascii "expect", ascii ""), 35), ((ascii "expires", ascii ""), 36),
  ((ascii "from", ascii ""), 37), ((ascii "host", ascii ""), 38),
  ((ascii "if-match", ascii ""), 39), ((ascii "if-modified-since", ascii ""), 40),
  ((ascii "if-none-match", ascii ""), 41), ((ascii "if-range", ascii ""), 42),
  ((ascii "if-unmodified-since", ascii ""), 43), ((ascii "last-modified", ascii ""), 44),
  ((ascii "link", ascii ""), 45), ((ascii "location", ascii ""), 46),
  ((ascii "max-forwards", ascii ""), 47), ((ascii "proxy-authenticate", ascii ""), 48),
  ((ascii "proxy-authorization", ascii ""), 49), ((ascii "range", ascii ""), 50),
  ((ascii "referer", ascii ""), 51), ((ascii "refresh", ascii ""), 52),
  ((ascii "retry-after", ascii ""), 53), ((ascii "server", ascii ""), 54),
  ((ascii "set-cookie", ascii ""), 55), ((ascii "strict-transport-security", ascii ""), 56),
  ((ascii "transfer-encoding", ascii ""), 57), ((ascii "user-agent", ascii ""), 58),
  ((ascii "vary", ascii ""), 59), ((ascii "via", ascii ""), 60),
  ((ascii "www-authenticate", ascii ""), 61)]

/-- `STATIC_ENTRY_TABLE`. -/
def staticEntryTable : List HeaderField := [
  ⟨ascii ":authority", ascii "", false⟩, ⟨ascii ":method", ascii "GET", false⟩,
  ⟨ascii ":method", ascii "POST", false⟩, ⟨ascii ":path", ascii "/", false⟩,
  ⟨ascii ":path", ascii "/index.html", false⟩, ⟨ascii ":scheme", ascii "http", false⟩,
  ⟨ascii ":scheme", ascii "https", false⟩, ⟨ascii ":status", ascii "200", false⟩,
  ⟨ascii ":status", ascii "204", false⟩, ⟨ascii ":status", ascii "206", false⟩,
  ⟨ascii ":status", ascii "304", false⟩, ⟨ascii ":status", ascii "400", false⟩,
  ⟨ascii ":status", ascii "404", false⟩, ⟨ascii ":status", ascii "500", false⟩,
  ⟨ascii "accept-charset", ascii "", false⟩,
  ⟨ascii "accept-encoding", ascii "gzip, deflate", false⟩,
  ⟨ascii "accept-language", ascii "", false⟩, ⟨ascii "accept-ranges", ascii "", false⟩,
  ⟨ascii "accept", ascii "", false⟩, ⟨ascii "access-control-allow-origin", ascii "", false⟩,
  ⟨ascii "age", ascii "", false⟩, ⟨ascii "allow", ascii "", false⟩,
  ⟨ascii "authorization", ascii "", false⟩, ⟨ascii "cache-control", ascii "", false⟩,
  ⟨ascii "content-disposition", ascii "", false⟩, ⟨ascii "content-encoding", ascii "", false⟩,
  ⟨ascii "content-language", ascii "", false⟩, ⟨ascii "content-length", ascii "", false⟩,
  ⟨ascii "content-location", ascii "", false⟩, ⟨ascii "content-range", ascii "", false⟩,
  ⟨ascii "content-type", ascii "", false⟩, ⟨ascii "cookie", ascii "", false⟩,
  ⟨ascii "date", ascii "", false⟩, ⟨ascii "etag", ascii "", false⟩,
  ⟨ascii "expect", ascii "", false⟩, ⟨ascii "expires", ascii "", false⟩,
  ⟨ascii "from", ascii "", false⟩, ⟨ascii "host", ascii "", false⟩,
  ⟨ascii "if-match", ascii "", false⟩, ⟨ascii "if-modified-since", ascii "", false⟩,
  ⟨ascii "if-none-match", ascii "", false⟩, ⟨ascii "if-range", ascii "", false⟩,
  ⟨ascii "if-unmodified-since", ascii "", false⟩, ⟨ascii "last-modified", ascii "", false⟩,
  ⟨ascii "link", ascii "", false⟩, ⟨ascii "location", ascii "", false⟩,
  ⟨ascii "max-forwards", ascii "", false⟩, ⟨ascii "proxy-authenticate", ascii "", false⟩,
  ⟨ascii "proxy-authorization", ascii "", false⟩, ⟨ascii "range", ascii "", false⟩,
  ⟨ascii "referer", ascii "", false⟩, ⟨ascii "refresh", ascii "", false⟩,
  ⟨ascii "retry-after", ascii "", false⟩, ⟨ascii "server", ascii "", false⟩,
  ⟨ascii "set-cookie", ascii "", false⟩, ⟨ascii "strict-transport-security", ascii "", false⟩,
  ⟨ascii "transfer-encoding", ascii "", false⟩, ⟨ascii "user-agent", ascii "", false⟩,
  ⟨ascii "vary", ascii "", false⟩, ⟨ascii "via", ascii "", false⟩,
  ⟨ascii "www-authenticate", ascii "", false⟩]

/-- Each lookup form points at an entry with its key, every entry has a key in both forms, and no
entry is sensitive. -/
theorem static_tables_agree :
    staticEntryTable.length = 61 ∧
      (∀ p ∈ staticNameTable, 0 < p.2 ∧
        (staticEntryTable[p.2 - 1]?).map HeaderField.name = some p.1) ∧
      (∀ p ∈ staticNameValueTable, 0 < p.2 ∧
        staticEntryTable[p.2 - 1]? = some ⟨p.1.1, p.1.2, false⟩) ∧
      ∀ e ∈ staticEntryTable, staticNameTable.lookup e.name ≠ none ∧
        staticNameValueTable.lookup (e.name, e.value) ≠ none ∧ e.sensitivity = false := by
  decide +kernel

theorem length_staticEntryTable : staticEntryTable.length = 61 := static_tables_agree.1

theorem staticNameTable_lookup {name : Bytes} {i : Nat} (h : staticNameTable.lookup name = some i) :
    0 < i ∧ ∃ e, staticEntryTable[i - 1]? = some e ∧ e.name = name := by
  obtain ⟨l₁, l₂, hl, -⟩ := List.lookup_eq_some_iff.1 h
  obtain ⟨h1, h2⟩ := static_tables_agree.2.1 (name, i) (by rw [hl]; simp)
  obtain ⟨e, he, hn⟩ := Option.map_eq_some_iff.1 h2
  exact ⟨h1, e, he, hn⟩

theorem staticNameValueTable_lookup {name value : Bytes} {i : Nat}
    (h : staticNameValueTable.lookup (name, value) = some i) :
    0 < i ∧ staticEntryTable[i - 1]? = some ⟨name, value, false⟩ := by
  obtain ⟨l₁, l₂, hl, -⟩ := List.lookup_eq_some_iff.1 h
  exact static_tables_agree.2.2.1 ((name, value), i) (by rw [hl]; simp)

end Chttp2
