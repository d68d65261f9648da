import IpciBlockchain.Foundation.Hex
import IpciBlockchain.Inspect.ParseInt

namespace IpciBlockchain
namespace Inspect

open Foundation

/-!
# Hashes and raw bytes from text

Hashes and raw bytes are read by crates that the node depends on.
`HexDocumented` says what they are relied on for; the readers at the end of
this file behave as documented.
-/

/-- `sp_core::bytes::from_hex`, and the text of its errors. -/
class FromHex where
  Err : Type
  display : Err → String
  fromHex : List Char → Except Err (List UInt8)

/-- `sp_core::H256` -/
structure H256 where
  bytes : List UInt8
  length_eq : bytes.length = 32
  deriving DecidableEq, Repr

/-- The characters that both crates skip between digits. -/
def isBlank (c : Char) : Bool :=
  c == ' ' || c == '\t' || c == '\n' || c == '\r'

/-- What the hash parser and the reader of raw bytes are relied on for: both
read pairs of hexadecimal digits, ignore blanks and accept nothing else. -/
structure HexDocumented [FromStr H256] [FromHex] : Prop where
  hash_reads : ∀ digits (hash : H256), Hex.decode digits = some hash.bytes →
    parse H256 digits = .ok hash
  hash_only : ∀ s (hash : H256), parse H256 s = .ok hash →
    (s.filter fun c => !isBlank c).length = 64 ∧
      ∀ c ∈ s, Hex.isHexDigit c = true ∨ isBlank c = true
  fromHex_reads : ∀ digits bytes, Hex.decode digits = some bytes →
    FromHex.fromHex ('0' :: 'x' :: digits) = .ok bytes
  fromHex_skips : ∀ rest, (∀ c ∈ rest, Hex.isHexDigit c = true ∨ c = ' ') →
    ∃ bytes, FromHex.fromHex ('0' :: 'x' :: rest) = .ok bytes
  fromHex_only : ∀ s bytes, FromHex.fromHex s = .ok bytes →
    ∃ rest, s = '0' :: 'x' :: rest ∧
      ∀ c ∈ rest, Hex.isHexDigit c = true ∨ isBlank c = true

/-! ## Readers that behave as documented -/

/-- `fixed_hash`: digits in pairs, blanks between them ignored. -/
def readHash (s : List Char) : Except Unit H256 :=
  match Hex.decode (s.filter fun c => !isBlank c) with
  | none => .error ()
  | some bytes => if length : bytes.length = 32 then .ok ⟨bytes, length⟩ else .error ()

instance fixedHash : FromStr H256 where
  Err := Unit
  fromStr := readHash

/-- The bytes of a text, after half a byte or none. -/
def readBytes : Option ℕ → List Char → Option (List UInt8)
  | _, [] => some []
  | pending, c :: rest =>
      if isBlank c then readBytes pending rest
      else
        match Hex.digitValue c with
        | none => none
        | some value =>
            match pending with
            | none => readBytes (some value) rest
            | some high => (readBytes none rest).map (Hex.pair high value :: ·)

/-- `impl_serde`: a text of odd length starts with half a byte, and the bytes
that blanks leave unused are zero. -/
def readHex : List Char → Except String (List UInt8)
  | '0' :: 'x' :: rest =>
      match readBytes (if rest.length % 2 = 1 then some 0 else none) rest with
      | none => .error "invalid hex character"
      | some bytes => .ok (bytes ++ List.replicate ((rest.length + 1) / 2 - bytes.length) 0)
  | _ => .error "0x prefix is missing"

instance implSerde : FromHex where
  Err := String
  display := id
  fromHex := readHex

theorem not_isBlank_of_isHexDigit {c : Char} (digit : Hex.isHexDigit c = true) :
    isBlank c = false := by
  have blank := beq_eq_false_iff_ne.mpr (Hex.ne_of_isHexDigit digit ' ' (by decide))
  have tab := beq_eq_false_iff_ne.mpr (Hex.ne_of_isHexDigit digit '\t' (by decide))
  have line := beq_eq_false_iff_ne.mpr (Hex.ne_of_isHexDigit digit '\n' (by decide))
  have ret := beq_eq_false_iff_ne.mpr (Hex.ne_of_isHexDigit digit '\r' (by decide))
  rw [isBlank, blank, tab, line, ret]
  rfl

theorem filter_of_isHexDigit {s : List Char} (digits : ∀ c ∈ s, Hex.isHexDigit c = true) :
    (s.filter fun c => !isBlank c) = s := by
  apply List.filter_eq_self.mpr
  intro c member
  rw [not_isBlank_of_isHexDigit (digits c member)]
  rfl

/-- Pairs of digits are read as their bytes. -/
theorem readBytes_of_decode {digits : List Char} {bytes : List UInt8}
    (decoded : Hex.decode digits = some bytes) : readBytes none digits = some bytes := by
  have allHex := Hex.isHexDigit_of_decode decoded
  induction digits using List.twoStepInduction generalizing bytes with
  | nil => exact decoded
  | singleton c => cases decoded
  | cons_cons first second rest ih _ =>
      rcases Hex.decode_cons_cons decoded with ⟨high, low, tail, firstEq, secondEq, restEq, rfl⟩
      have firstKept := not_isBlank_of_isHexDigit (allHex first List.mem_cons_self)
      have secondKept := not_isBlank_of_isHexDigit
        (allHex second (List.mem_cons_of_mem _ List.mem_cons_self))
      have later := ih restEq (Hex.isHexDigit_of_decode restEq)
      simp only [readBytes, firstKept, secondKept, firstEq, secondEq, later, Bool.false_eq_true,
        if_false, Option.map_some]

/-- One character is read if it is a digit or a blank; then the rest is read,
after half a byte or none. -/
theorem isSome_readBytes_cons (pending : Option ℕ) (c : Char) (rest : List Char) :
    ∃ later, (readBytes pending (c :: rest)).isSome =
      ((Hex.isHexDigit c || isBlank c) && (readBytes later rest).isSome) := by
  by_cases blank : isBlank c = true
  · refine ⟨pending, ?_⟩
    simp only [readBytes, blank, if_true, Bool.or_true, Bool.true_and]
  · have kept : isBlank c = false := Bool.eq_false_iff.mpr blank
    cases value : Hex.digitValue c with
    | none =>
        refine ⟨pending, ?_⟩
        simp only [readBytes, kept, value, Hex.isHexDigit, Bool.false_eq_true, if_false]
        rfl
    | some low =>
        simp only [readBytes, kept, value, Hex.isHexDigit, Option.isSome_some, Bool.true_or,
          Bool.true_and, Bool.false_eq_true, if_false]
        cases pending with
        | none => exact ⟨some low, rfl⟩
        | some high => exact ⟨none, Option.isSome_map⟩

/-- A text is read if it has no other characters than digits and blanks. -/
theorem readBytes_isSome_iff (pending : Option ℕ) (s : List Char) :
    (readBytes pending s).isSome = true ↔
      ∀ c ∈ s, Hex.isHexDigit c = true ∨ isBlank c = true := by
  induction s generalizing pending with
  | nil => exact ⟨fun _ c member => absurd member List.not_mem_nil, fun _ => rfl⟩
  | cons c rest ih =>
      rcases isSome_readBytes_cons pending c rest with ⟨later, step⟩
      rw [step, Bool.and_eq_true, Bool.or_eq_true, ih, List.forall_mem_cons]

theorem readHash_of_decode {digits : List Char} {hash : H256}
    (decoded : Hex.decode digits = some hash.bytes) : readHash digits = .ok hash := by
  have kept := filter_of_isHexDigit (Hex.isHexDigit_of_decode decoded)
  simp only [readHash, kept, decoded, hash.length_eq, dif_pos]

/-- Only sixty-four digits with blanks between them are read as a hash. -/
theorem digits_of_readHash {s : List Char} {hash : H256} (read : readHash s = .ok hash) :
    (s.filter fun c => !isBlank c).length = 64 ∧
      ∀ c ∈ s, Hex.isHexDigit c = true ∨ isBlank c = true := by
  unfold readHash at read
  split at read
  case h_1 => cases read
  case h_2 bytes decoded =>
    split at read
    case isTrue long =>
      have length := Hex.length_of_decode decoded
      have allHex := Hex.isHexDigit_of_decode decoded
      refine ⟨by rw [length, long], ?_⟩
      intro c member
      by_cases blank : isBlank c = true
      · exact Or.inr blank
      · apply Or.inl
        apply allHex
        exact List.mem_filter.mpr ⟨member, by simp [blank]⟩
    case isFalse => cases read

theorem readHex_of_decode {digits : List Char} {bytes : List UInt8}
    (decoded : Hex.decode digits = some bytes) :
    readHex ('0' :: 'x' :: digits) = .ok bytes := by
  have length := Hex.length_of_decode decoded
  have even : ¬ digits.length % 2 = 1 := by omega
  have unused : (digits.length + 1) / 2 - bytes.length = 0 := by omega
  simp only [readHex, if_neg even, readBytes_of_decode decoded, unused, List.replicate_zero,
    List.append_nil]

/-- The texts that are read are those with the prefix and then digits and
blanks. -/
theorem readHex_eq_ok_iff {s : List Char} :
    (∃ bytes, readHex s = .ok bytes) ↔
      ∃ rest, s = '0' :: 'x' :: rest ∧
        ∀ c ∈ rest, Hex.isHexDigit c = true ∨ isBlank c = true := by
  constructor
  · rintro ⟨bytes, read⟩
    unfold readHex at read
    split at read
    case h_1 rest =>
      refine ⟨rest, rfl, ?_⟩
      split at read
      case h_1 => cases read
      case h_2 found accepted =>
        apply (readBytes_isSome_iff _ rest).mp
        rw [accepted]
        rfl
    case h_2 => cases read
  · rintro ⟨rest, rfl, allowed⟩
    have accepted := (readBytes_isSome_iff (if rest.length % 2 = 1 then some 0 else none) rest).mpr
      allowed
    rcases Option.isSome_iff_exists.mp accepted with ⟨bytes, read⟩
    refine ⟨bytes ++ List.replicate ((rest.length + 1) / 2 - bytes.length) 0, ?_⟩
    simp only [readHex, read]

theorem hexDocumented : HexDocumented where
  hash_reads _ _ decoded := readHash_of_decode decoded
  hash_only _ _ read := digits_of_readHash read
  fromHex_reads _ _ decoded := readHex_of_decode decoded
  fromHex_skips := by
    intro rest allowed
    apply readHex_eq_ok_iff.mpr
    refine ⟨rest, rfl, ?_⟩
    intro c member
    rcases allowed c member with digit | rfl
    · exact Or.inl digit
    · exact Or.inr rfl
  fromHex_only _ bytes read := readHex_eq_ok_iff.mp ⟨bytes, read⟩

end Inspect
end IpciBlockchain
