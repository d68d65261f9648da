import IpciBlockchain.Inspect.Address

namespace IpciBlockchain
namespace Inspect

open Foundation

/-!
# Printed addresses are read back

The node's blocks have hashes of 32 bytes and numbers of 32 bits.  A block is
printed as its hash without prefix, its number in decimal, or its bytes with
the prefix `0x`; an extrinsic is printed as its bytes, or as a block, a
separator and an index.

Every printed address is read back, with one exception: raw bytes are tried
before the text is split, and they may contain blanks.  The bytes of a block,
a blank and an index are therefore read as the bytes of an extrinsic.
-/

/-! ## Printing -/

/-- Bytes with the prefix `0x`, in small or capital digits. -/
def printBytes (upper : Bool) (bytes : List UInt8) : List Char :=
  '0' :: 'x' :: Hex.encode upper bytes

/-- A number in decimal. -/
def printNumber (n : ℕ) : List Char :=
  Nat.toDigits 10 n

def BlockAddress.print (upper : Bool) : BlockAddress H256 UInt32 → List Char
  | .hash h => Hex.encode upper h.bytes
  | .number n => printNumber n.toNat
  | .bytes e => printBytes upper e

theorem isDigit_of_mem_printNumber {n : ℕ} {c : Char} (member : c ∈ printNumber n) :
    c.isDigit = true :=
  Nat.isDigit_of_mem_toDigits (by decide) (by decide) member

theorem isHexDigit_of_mem_printNumber {n : ℕ} {c : Char} (member : c ∈ printNumber n) :
    Hex.isHexDigit c = true :=
  Hex.isHexDigit_of_isDigit (isDigit_of_mem_printNumber member)

/-- A hexadecimal digit does not separate. -/
theorem isSeparator_of_isHexDigit {c : Char} (digit : Hex.isHexDigit c = true) :
    isSeparator c = false := by
  have dot := Hex.ne_of_isHexDigit digit '.' (by decide)
  have colon := Hex.ne_of_isHexDigit digit ':' (by decide)
  have blank := Hex.ne_of_isHexDigit digit ' ' (by decide)
  simp [isSeparator, dot, colon, blank]

/-- Of the separators only the blank is ignored between digits. -/
theorem eq_blank_of_isSeparator {c : Char} (separator : isSeparator c = true)
    (ignored : isBlank c = true) : c = ' ' := by
  rcases isSeparator_eq_true_iff.mp separator with rfl | rfl | rfl
  · exact absurd ignored (by decide)
  · exact absurd ignored (by decide)
  · rfl

/-- Digits, a separator and an index have no prefix of raw bytes. -/
theorem not_mem_print_index {digits : List Char} (hex : ∀ c ∈ digits, Hex.isHexDigit c = true)
    {c : Char} (separator : isSeparator c = true) (i : Usize) :
    'x' ∉ digits ++ c :: printNumber i.toNat := by
  intro member
  rcases List.mem_append.mp member with member | member
  · exact absurd (hex 'x' member) (by decide)
  · rcases List.mem_cons.mp member with rfl | member
    · exact absurd separator (by decide)
    · exact absurd (isHexDigit_of_mem_printNumber member) (by decide)

theorem whole_printNumber (n : ℕ) : Pieces.Whole isSeparator (printNumber n) :=
  fun _ member => isSeparator_of_isHexDigit (isHexDigit_of_mem_printNumber member)

theorem whole_print (upper : Bool) (address : BlockAddress H256 UInt32) :
    Pieces.Whole isSeparator (address.print upper) := by
  cases address with
  | hash h =>
      exact fun c member => isSeparator_of_isHexDigit (Hex.isHexDigit_of_mem_encode member)
  | number n => exact whole_printNumber n.toNat
  | bytes e =>
      intro c member
      rcases List.mem_cons.mp member with rfl | member
      · decide
      · rcases List.mem_cons.mp member with rfl | member
        · decide
        · exact isSeparator_of_isHexDigit (Hex.isHexDigit_of_mem_encode member)

/-! ## Reading -/

theorem parse_number_print (n : UInt32) : parse UInt32 (printNumber n.toNat) = .ok n := by
  have read := fromStrRadix_toDigits n.toNat_lt
  change (fromStrRadix UInt32.size (Nat.toDigits 10 n.toNat)).map UInt32.ofNat = _
  rw [read]
  exact congrArg Except.ok UInt32.ofNat_toNat

theorem parse_index_print (i : Usize) : parse Usize (printNumber i.toNat) = .ok i := by
  have read := fromStrRadix_toDigits i.toNat_lt
  change (fromStrRadix UInt64.size (Nat.toDigits 10 i.toNat)).map UInt64.ofNat = _
  rw [read]
  exact congrArg Except.ok UInt64.ofNat_toNat

section RoundTrip

variable [FromStr H256] [FromHex] (documented : HexDocumented)
include documented

/-- Only raw bytes have the prefix. -/
theorem noHex_of_not_mem {s : List Char} (plain : 'x' ∉ s) (found : List UInt8) :
    FromHex.fromHex s ≠ .ok found := by
  intro read
  rcases documented.fromHex_only s found read with ⟨rest, rfl, _⟩
  exact plain (List.mem_cons_of_mem _ List.mem_cons_self)

/-- A text with the prefix of raw bytes is not a hash. -/
theorem noHash_of_prefix (digits : List Char) (h : H256) :
    parse H256 ('0' :: 'x' :: digits) ≠ .ok h := by
  intro read
  rcases (documented.hash_only _ h read).2 'x' (List.mem_cons_of_mem _ List.mem_cons_self) with
    digit | blank
  · exact absurd digit (by decide)
  · exact absurd blank (by decide)

/-- A printed number is too short for a hash. -/
theorem noHash_of_number (n : UInt32) (h : H256) : parse H256 (printNumber n.toNat) ≠ .ok h := by
  intro read
  have long := (documented.hash_only _ h read).1
  have short : (printNumber n.toNat).length ≤ 10 :=
    (Nat.length_toDigits_le_iff (by decide) (by decide)).mpr (lt_trans n.toNat_lt (by decide))
  have filtered := List.length_filter_le (fun c => !isBlank c) (printNumber n.toNat)
  omega

omit [FromStr H256] [FromHex] documented in
/-- A text with the prefix of raw bytes is not a number. -/
theorem noNumber_of_prefix (digits : List Char) (n : UInt32) :
    parse UInt32 ('0' :: 'x' :: digits) ≠ .ok n := by
  intro read
  change (fromStrRadix UInt32.size ('0' :: 'x' :: digits)).map UInt32.ofNat = _ at read
  cases parsed : fromStrRadix UInt32.size ('0' :: 'x' :: digits) with
  | error e =>
      rw [parsed] at read
      cases read
  | ok value =>
      rcases isDigit_or_plus_of_fromStrRadix parsed 'x'
        (List.mem_cons_of_mem _ List.mem_cons_self) with digit | plus
      · exact absurd digit (by decide)
      · exact absurd plus (by decide)

/-- A printed block address is read as itself. -/
theorem BlockAddress.fromStr_print (upper : Bool) (address : BlockAddress H256 UInt32) :
    BlockAddress.fromStr (address.print upper) = .ok address := by
  cases address with
  | hash h =>
      apply BlockAddress.fromStr_of_hash
      exact documented.hash_reads _ h (Hex.decode_encode upper h.bytes)
  | number n =>
      apply BlockAddress.fromStr_of_number
      · exact noHash_of_number documented n
      · exact parse_number_print n
  | bytes e =>
      apply BlockAddress.fromStr_of_bytes
      · exact noHash_of_prefix documented _
      · exact noNumber_of_prefix _
      · exact documented.fromHex_reads _ e (Hex.decode_encode upper e)

/-- A printed block with an index is not raw bytes, unless the block is raw
bytes and the separator a blank. -/
theorem noHex_print (upper : Bool) (address : BlockAddress H256 UInt32) (i : Usize) {c : Char}
    (separator : isSeparator c = true) (distinct : ¬ (c = ' ' ∧ ∃ e, address = .bytes e))
    (found : List UInt8) :
    FromHex.fromHex (address.print upper ++ c :: printNumber i.toNat) ≠ .ok found := by
  cases address with
  | hash h =>
      apply noHex_of_not_mem documented
      exact not_mem_print_index (fun c member => Hex.isHexDigit_of_mem_encode member) separator i
  | number n =>
      apply noHex_of_not_mem documented
      exact not_mem_print_index (fun c member => isHexDigit_of_mem_printNumber member) separator i
  | bytes e =>
      intro read
      rcases documented.fromHex_only _ found read with ⟨rest, split, allowed⟩
      have tail : Hex.encode upper e ++ c :: printNumber i.toNat = rest :=
        List.tail_eq_of_cons_eq (List.tail_eq_of_cons_eq split)
      have member : c ∈ rest := by
        rw [← tail]
        exact List.mem_append_right _ List.mem_cons_self
      rcases allowed c member with digit | blank
      · rw [isSeparator_of_isHexDigit digit] at separator
        cases separator
      · exact distinct ⟨eq_blank_of_isSeparator separator blank, e, rfl⟩

/-- The bytes of a block, a blank and an index are raw bytes. -/
theorem hex_print_blank (upper : Bool) (e : List UInt8) (i : Usize) :
    ∃ found, FromHex.fromHex (printBytes upper e ++ ' ' :: printNumber i.toNat) = .ok found := by
  apply documented.fromHex_skips
  intro c member
  rcases List.mem_append.mp member with member | member
  · exact Or.inl (Hex.isHexDigit_of_mem_encode member)
  · rcases List.mem_cons.mp member with rfl | member
    · exact Or.inr (by decide)
    · exact Or.inl (isHexDigit_of_mem_printNumber member)

/-- A printed block with an index is read as itself, unless it is a block in
bytes before a blank. -/
theorem ExtrinsicAddress.fromStr_print_iff (upper : Bool) (address : BlockAddress H256 UInt32)
    (i : Usize) {c : Char} (separator : isSeparator c = true) :
    ExtrinsicAddress.fromStr (address.print upper ++ c :: printNumber i.toNat) =
        .ok (.block address i) ↔
      ¬ (c = ' ' ∧ ∃ e, address = .bytes e) := by
  constructor
  · rintro read ⟨rfl, e, rfl⟩
    rcases hex_print_blank documented upper e i with ⟨found, hex⟩
    rw [BlockAddress.print, ExtrinsicAddress.fromStr_of_hex hex] at read
    cases read
  · intro distinct
    apply fromStr_of_denotes
    exact .block (noHex_print documented upper address i separator distinct) separator
      (whole_print upper address) (whole_printNumber _)
      (BlockAddress.fromStr_print documented upper address) (parse_index_print i)

end RoundTrip

/-- Every printed address is read back, except a block in bytes that is
followed by a blank and an index. -/
theorem parse_print_iff [FromStr H256] [FromHex] (documented : HexDocumented) (upper : Bool) :
    (∀ address : BlockAddress H256 UInt32,
      BlockAddress.fromStr (address.print upper) = .ok address) ∧
    (∀ (address : BlockAddress H256 UInt32) (i : Usize) (c : Char), c = '.' ∨ c = ':' ∨ c = ' ' →
      (ExtrinsicAddress.fromStr (address.print upper ++ c :: printNumber i.toNat) =
        .ok (.block address i) ↔ ¬ (c = ' ' ∧ ∃ e, address = .bytes e))) ∧
    ∀ e : List UInt8, ExtrinsicAddress.fromStr (printBytes upper e) =
      .ok (.bytes e : ExtrinsicAddress H256 UInt32) := by
  refine ⟨BlockAddress.fromStr_print documented upper, ?_, ?_⟩
  · intro address i c listed
    exact ExtrinsicAddress.fromStr_print_iff documented upper address i
      (isSeparator_eq_true_iff.mpr listed)
  · intro e
    exact ExtrinsicAddress.fromStr_of_hex
      (documented.fromHex_reads _ e (Hex.decode_encode upper e))

theorem parse_print_iff_readers :
    (∀ address : BlockAddress H256 UInt32,
      BlockAddress.fromStr (address.print false) = .ok address) ∧
    (∀ (address : BlockAddress H256 UInt32) (i : Usize) (c : Char), c = '.' ∨ c = ':' ∨ c = ' ' →
      (ExtrinsicAddress.fromStr (address.print false ++ c :: printNumber i.toNat) =
        .ok (.block address i) ↔ ¬ (c = ' ' ∧ ∃ e, address = .bytes e))) ∧
    ∀ e : List UInt8, ExtrinsicAddress.fromStr (printBytes false e) =
      .ok (.bytes e : ExtrinsicAddress H256 UInt32) :=
  parse_print_iff hexDocumented false

/-- The block `0x0012` and the index 5, with a blank between them, are read as
an extrinsic in bytes. -/
theorem bytes_before_blank :
    ExtrinsicAddress.fromStr
        ((.bytes [0x00, 0x12] : BlockAddress H256 UInt32).print false ++ ' ' :: printNumber 5) ≠
      .ok (.block (.bytes [0x00, 0x12]) 5 : ExtrinsicAddress H256 UInt32) := by
  intro read
  cases read

end Inspect
end IpciBlockchain
