import IpciBlockchain.Foundation.OrderedChoice
import IpciBlockchain.Inspect.Reinspection

namespace IpciBlockchain
namespace Inspect

open Foundation

/-!
# Which alternative reads an address

A block address is tried as a hash, as a number and as raw bytes, in this
order.  Raw bytes have a prefix that neither hashes nor numbers have, and a
number is short unless it is padded with zeros.  The order therefore decides
only about a few texts of sixty-four decimal digits.

The prefix also tells for which addresses the answer depends on what the
database of the node holds.
-/

variable {Failure BlockchainError ServiceError Header Extrinsic Block : Type}

/-! ## Texts of two readers -/

/-- What is read from digits is their value, and it fits. -/
theorem value_of_parseDigits {size result n : ℕ} {digits : List Char} (start : result < size)
    (parsed : parseDigits size result digits = .ok n) :
    Nat.ofDigitChars 10 digits result = n ∧ n < size := by
  induction digits generalizing result with
  | nil =>
      cases parsed
      exact ⟨Nat.ofDigitChars_nil, start⟩
  | cons c digits ih =>
      rcases parseDigits_cons_eq_ok_iff.mp parsed with ⟨_, fits, rest⟩
      rw [Nat.ofDigitChars_cons]
      exact ih fits rest

/-- A text of decimal digits is a number if and only if its value fits. -/
theorem parse_number_digits_iff {s : List Char} (nonempty : s ≠ [])
    (decimal : ∀ c ∈ s, c.isDigit = true) :
    (∃ n, parse UInt32 s = .ok n) ↔ Nat.ofDigitChars 10 s 0 < UInt32.size := by
  change (∃ n, (fromStrRadix UInt32.size s).map UInt32.ofNat = .ok n) ↔ _
  rw [fromStrRadix_of_isDigit nonempty decimal]
  constructor
  · rintro ⟨n, read⟩
    rcases exists_of_map_eq_ok read with ⟨value, radix, _⟩
    rcases value_of_parseDigits (by decide) radix with ⟨rfl, fits⟩
    exact fits
  · intro fits
    exact ⟨_, by rw [parseDigits_eq_ok decimal fits]; rfl⟩

theorem isDigit_or_plus_of_parse {s : List Char} {n : UInt32} (read : parse UInt32 s = .ok n) :
    ∀ c ∈ s, c.isDigit = true ∨ c = '+' := by
  rcases exists_of_map_eq_ok read with ⟨value, radix, _⟩
  exact isDigit_or_plus_of_fromStrRadix radix

/-- Sixty-four decimal digits with a value that fits into a block number. -/
def PaddedNumber (s : Text) : Prop :=
  s.length = 64 ∧ (∀ c ∈ s, c.isDigit = true) ∧ Nat.ofDigitChars 10 s 0 < UInt32.size

section Readers

variable [FromStr H256] [FromHex] (documented : HexDocumented)
include documented

/-- A text that is both a hash and a number is a padded number. -/
theorem hash_and_number_iff (s : Text) :
    ((∃ h, parse H256 s = .ok h) ∧ ∃ n, parse UInt32 s = .ok n) ↔ PaddedNumber s := by
  constructor
  · rintro ⟨⟨h, hash⟩, n, number⟩
    rcases documented.hash_only s h hash with ⟨long, allowed⟩
    have decimal : ∀ c ∈ s, c.isDigit = true := by
      intro c member
      rcases isDigit_or_plus_of_parse number c member with digit | rfl
      · exact digit
      · rcases allowed '+' member with digit | blank
        · exact absurd digit (by decide)
        · exact absurd blank (by decide)
    have kept := filter_of_isHexDigit fun c member => Hex.isHexDigit_of_isDigit (decimal c member)
    rw [kept] at long
    have nonempty : s ≠ [] := by
      rintro rfl
      cases long
    exact ⟨long, decimal, (parse_number_digits_iff nonempty decimal).mp ⟨n, number⟩⟩
  · rintro ⟨long, decimal, fits⟩
    have nonempty : s ≠ [] := by
      rintro rfl
      cases long
    have hex : ∀ c ∈ s, Hex.isHexDigit c = true :=
      fun c member => Hex.isHexDigit_of_isDigit (decimal c member)
    rcases Hex.exists_decode hex (by rw [long]) with ⟨bytes, decoded⟩
    have length : bytes.length = 32 := by
      have double := Hex.length_of_decode decoded
      omega
    exact ⟨⟨⟨bytes, length⟩, documented.hash_reads s ⟨bytes, length⟩ decoded⟩,
      (parse_number_digits_iff nonempty decimal).mpr fits⟩

/-- Raw bytes are neither a hash nor a number. -/
theorem noHash_of_hex {s : Text} {found : List UInt8} (hex : FromHex.fromHex s = .ok found)
    (h : H256) : parse H256 s ≠ .ok h := by
  rcases documented.fromHex_only s found hex with ⟨rest, rfl, _⟩
  exact noHash_of_prefix documented rest h

theorem noNumber_of_hex {s : Text} {found : List UInt8} (hex : FromHex.fromHex s = .ok found)
    (n : UInt32) : parse UInt32 s ≠ .ok n := by
  rcases documented.fromHex_only s found hex with ⟨rest, rfl, _⟩
  exact noNumber_of_prefix rest n

end Readers

/-! ## The order of the alternatives -/

theorem ok_of_toOption {ε α : Type} {result : Except ε α} {value : α}
    (present : result.toOption = some value) : result = .ok value := by
  cases result with
  | error e => cases present
  | ok found => rw [Option.some.inj present]

section Alternatives

variable [FromStr H256] [FromHex]

def readAsHash (s : Text) : Option (BlockAddress H256 UInt32) :=
  (parse H256 s).toOption.map .hash

def readAsNumber (s : Text) : Option (BlockAddress H256 UInt32) :=
  (parse UInt32 s).toOption.map .number

def readAsBytes (s : Text) : Option (BlockAddress H256 UInt32) :=
  (FromHex.fromHex s).toOption.map .bytes

/-- The alternatives of a block address, in the order of the source. -/
def alternatives : List (Text → Option (BlockAddress H256 UInt32)) :=
  [readAsHash, readAsNumber, readAsBytes]

/-- The parser answers with the first alternative that accepts the text. -/
theorem toOption_fromStr (s : Text) :
    (BlockAddress.fromStr s : Except String (BlockAddress H256 UInt32)).toOption =
      firstOf alternatives s := by
  simp only [firstOf, alternatives, List.findSome?_cons, List.findSome?_nil, readAsHash,
    readAsNumber, readAsBytes, BlockAddress.fromStr]
  cases parse H256 s with
  | ok h => rfl
  | error e =>
      cases parse UInt32 s with
      | ok n => rfl
      | error e' => cases FromHex.fromHex s <;> rfl

/-- What an alternative accepts. -/
theorem read_of_accepts {alternative : Text → Option (BlockAddress H256 UInt32)}
    (member : alternative ∈ alternatives) {s : Text} {address : BlockAddress H256 UInt32}
    (accepts : alternative s = some address) :
    (∃ h, parse H256 s = .ok h ∧ address = .hash h) ∨
      (∃ n, parse UInt32 s = .ok n ∧ address = .number n) ∨
        ∃ found, FromHex.fromHex s = .ok found ∧ address = .bytes found := by
  rcases List.mem_cons.mp member with rfl | member
  · rcases Option.map_eq_some_iff.mp accepts with ⟨h, read, rfl⟩
    exact Or.inl ⟨h, ok_of_toOption read, rfl⟩
  · rcases List.mem_cons.mp member with rfl | member
    · rcases Option.map_eq_some_iff.mp accepts with ⟨n, read, rfl⟩
      exact Or.inr (Or.inl ⟨n, ok_of_toOption read, rfl⟩)
    · rw [List.mem_singleton.mp member] at accepts
      rcases Option.map_eq_some_iff.mp accepts with ⟨found, read, rfl⟩
      exact Or.inr (Or.inr ⟨found, ok_of_toOption read, rfl⟩)

/-- The alternatives agree on a text that is not both a hash and a number. -/
theorem agree_of_not_padded (documented : HexDocumented) {s : Text} (plain : ¬ PaddedNumber s) :
    AgreeOn alternatives s := by
  have exclusive : ∀ {h n}, parse H256 s = .ok h → parse UInt32 s = .ok n → False := by
    intro h n hash number
    exact plain ((hash_and_number_iff documented s).mp ⟨⟨h, hash⟩, n, number⟩)
  intro first member second member' address address' accepts accepts'
  rcases read_of_accepts member accepts with
    ⟨h, hash, rfl⟩ | ⟨n, number, rfl⟩ | ⟨found, hex, rfl⟩ <;>
  rcases read_of_accepts member' accepts' with
    ⟨h', hash', rfl⟩ | ⟨n', number', rfl⟩ | ⟨found', hex', rfl⟩
  · rw [Except.ok.inj (hash.symm.trans hash')]
  · exact (exclusive hash number').elim
  · exact absurd hash (noHash_of_hex documented hex' h)
  · exact (exclusive hash' number).elim
  · rw [Except.ok.inj (number.symm.trans number')]
  · exact absurd number (noNumber_of_hex documented hex' n)
  · exact absurd hash' (noHash_of_hex documented hex h')
  · exact absurd number' (noNumber_of_hex documented hex n')
  · rw [Except.ok.inj (hex.symm.trans hex')]

end Alternatives

/-- The order in which the alternatives of a block address are tried matters
for the padded numbers and for no other text: such a text is a hash only
because hashes are tried first. -/
theorem order_matters_iff [FromStr H256] [FromHex] (documented : HexDocumented) (s : Text) :
    (∃ order, order.Perm alternatives ∧ firstOf order s ≠
      (BlockAddress.fromStr s : Except String (BlockAddress H256 UInt32)).toOption) ↔
    PaddedNumber s := by
  rw [toOption_fromStr]
  constructor
  · rintro ⟨order, permuted, differs⟩
    by_contra plain
    exact differs (firstOf_perm_iff.mpr (agree_of_not_padded documented plain) order permuted)
  · intro padded
    rcases (hash_and_number_iff documented s).mpr padded with ⟨⟨h, hash⟩, n, number⟩
    by_contra noOrder
    have agree : AgreeOn alternatives s := by
      apply firstOf_perm_iff.mp
      intro order permuted
      by_contra differs
      exact noOrder ⟨order, permuted, differs⟩
    have asHash : readAsHash s = some (.hash h) := by
      rw [readAsHash, hash]
      rfl
    have asNumber : readAsNumber s = some (.number n) := by
      rw [readAsNumber, number]
      rfl
    have same := agree readAsHash List.mem_cons_self readAsNumber
      (List.mem_cons_of_mem _ List.mem_cons_self) _ _ asHash asNumber
    cases same

theorem order_matters_one :
    (∃ order, order.Perm alternatives ∧ firstOf order (List.replicate 63 '0' ++ ['1']) ≠
      (BlockAddress.fromStr (List.replicate 63 '0' ++ ['1']) :
        Except String (BlockAddress H256 UInt32)).toOption) ↔
    PaddedNumber (List.replicate 63 '0' ++ ['1']) :=
  order_matters_iff hexDocumented (List.replicate 63 '0' ++ ['1'])

/-! ## Texts whose answer depends on the database -/

/-- The text has the prefix of raw bytes. -/
def Prefixed (s : Text) : Prop :=
  ∃ rest, s = '0' :: 'x' :: rest

namespace InspectSubCmd

/-- The address that the command was given. -/
def input : InspectSubCmd → Text
  | .block input => input
  | .extrinsic input => input

/-- The address can be read. -/
def Readable [FromStr H256] [FromHex] : InspectSubCmd → Prop
  | .block input => ∃ address : BlockAddress H256 UInt32, BlockAddress.fromStr input = .ok address
  | .extrinsic input =>
      ∃ address : ExtrinsicAddress H256 UInt32, ExtrinsicAddress.fromStr input = .ok address

end InspectSubCmd

/-- The first piece of a text has the prefix if and only if the text has. -/
theorem prefixed_cut_iff {first tail : Text} {c : Char} (separator : isSeparator c = true) :
    Prefixed (first ++ c :: tail) ↔ Prefixed first := by
  constructor
  · rintro ⟨rest, same⟩
    cases first with
    | nil =>
        cases same
        exact absurd separator (by decide)
    | cons d first =>
        cases first with
        | nil =>
            cases same
            exact absurd separator (by decide)
        | cons d' first =>
            cases same
            exact ⟨first, rfl⟩
  · rintro ⟨rest, rfl⟩
    exact ⟨rest ++ c :: tail, rfl⟩

section Database

variable [FromStr H256] [FromHex]

/-- A block address that was read is in bytes if and only if the text has the
prefix. -/
theorem prefixed_iff_bytes (documented : HexDocumented) {s : Text}
    {address : BlockAddress H256 UInt32} (read : BlockAddress.fromStr s = .ok address) :
    Prefixed s ↔ ∃ found, address = .bytes found := by
  have answered := toOption_fromStr s
  rw [read] at answered
  rcases List.exists_of_findSome?_eq_some answered.symm with ⟨alternative, member, accepts⟩
  constructor
  · rintro ⟨rest, rfl⟩
    rcases read_of_accepts member accepts with ⟨h, hash, rfl⟩ | ⟨n, number, rfl⟩ | ⟨found, _, same⟩
    · exact absurd hash <| noHash_of_prefix documented rest h
    · exact absurd number <| noNumber_of_prefix rest n
    · exact ⟨found, same⟩
  · rintro ⟨found, rfl⟩
    rcases read_of_accepts member accepts with ⟨h, _, same⟩ | ⟨n, _, same⟩ | ⟨found', hex, _⟩
    · cases same
    · cases same
    · rcases documented.fromHex_only s found' hex with ⟨rest, prefixed, _⟩
      exact ⟨rest, prefixed⟩

/-- An extrinsic address that was read is raw bytes, which have the prefix, or
has the prefix if and only if its block has. -/
theorem prefixed_iff_block (documented : HexDocumented) {s : Text}
    {address : ExtrinsicAddress H256 UInt32} (read : ExtrinsicAddress.fromStr s = .ok address) :
    (Prefixed s ∧ ∃ found, address = .bytes found) ∨
      ∃ block index, address = .block block index ∧
        (Prefixed s ↔ ∃ found, block = .bytes found) := by
  by_cases hex : ∃ found, FromHex.fromHex s = .ok found
  · rcases hex with ⟨found, hex⟩
    rw [ExtrinsicAddress.fromStr_of_hex hex] at read
    rcases documented.fromHex_only s found hex with ⟨rest, prefixed, _⟩
    exact Or.inl ⟨⟨rest, prefixed⟩, found, (Except.ok.inj read).symm⟩
  · have noHex : ∀ found, FromHex.fromHex s ≠ .ok found := not_exists.mp hex
    rcases Pieces.whole_or_cut isSeparator s with whole | ⟨first, c, tail, rfl, whole, cut⟩
    · rw [ExtrinsicAddress.fromStr_eq_ok_iff noHex (Pieces.splitOnP_whole whole)] at read
      rcases read with ⟨piece, block, index, second, _, _, _⟩
      cases second
    · rw [ExtrinsicAddress.fromStr_eq_ok_iff noHex (Pieces.splitOnP_cut whole cut tail)] at read
      rcases read with ⟨piece, block, index, _, blockRead, _, rfl⟩
      refine Or.inr ⟨block, index, rfl, ?_⟩
      rw [prefixed_cut_iff cut]
      exact prefixed_iff_bytes documented blockRead

end Database

section Chains

variable (B : BlockTraits Failure H256 UInt32 Header Extrinsic Block)

/-- A chain without blocks. -/
def emptyChain : ChainAccess BlockchainError H256 UInt32 Header Extrinsic where
  blockBody _ := .ok none
  header _ := .ok none
  display _ := []

/-- A chain with one and the same block everywhere. -/
def constantChain (header : Header) :
    ChainAccess BlockchainError H256 UInt32 Header Extrinsic where
  blockBody _ := .ok (some [])
  header _ := .ok (some header)
  display _ := []

/-- A block that is not in bytes is not found on an empty chain. -/
theorem getBlock_emptyChain {address : BlockAddress H256 UInt32}
    (stored : ¬ ∃ found, address = .bytes found) :
    ∃ id : Text,
      (inspectorOf B (emptyChain : ChainAccess BlockchainError _ _ _ _)).getBlock B address =
        .error (.notFound ("Could not find block ".toList ++ id)) := by
  cases address with
  | hash h => exact ⟨B.debugId (.hash h), rfl⟩
  | number n => exact ⟨B.debugId (.number n), rfl⟩
  | bytes found => exact absurd ⟨found, rfl⟩ stored

theorem getBlock_constantChain {address : BlockAddress H256 UInt32} (header : Header)
    (stored : ¬ ∃ found, address = .bytes found) :
    (inspectorOf B (constantChain header : ChainAccess BlockchainError _ _ _ _)).getBlock B
      address = .ok (B.new header []) := by
  cases address with
  | hash h => rfl
  | number n => rfl
  | bytes found => exact absurd ⟨found, rfl⟩ stored

/-- A part of a block is never the message about a missing block. -/
theorem pickPart_ne_missing_block (parts : List Text) (shown id : Text) (index : Usize) :
    pickPart parts shown index ≠
      (.error (.input ("Could not find block ".toList ++ id)) :
        Except (CliError ServiceError) Text) := by
  unfold pickPart
  cases parts[index.toNat]? with
  | some part =>
      intro same
      cases same
  | none =>
      intro same
      have texts := CliError.input.inj (Except.error.inj same)
      rw [List.append_assoc, List.append_assoc] at texts
      have letters := congrArg (fun text => text[15]?) texts
      have letter : ∀ rest : Text, ("Could not find extrinsic ".toList ++ rest)[15]? = some 'e' :=
        fun _ => rfl
      have letter' : ∀ rest : Text, ("Could not find block ".toList ++ rest)[15]? = some 'b' :=
        fun _ => rfl
      simp only [letter, letter', Option.some.injEq] at letters
      exact absurd letters (by decide)

end Chains

/-- Of the commands whose address can be read, those and only those print the
same for every content of the database whose address has the prefix of raw
bytes. -/
theorem database_untouched_iff [FromStr H256] [FromHex] (documented : HexDocumented)
    (B : BlockTraits Failure H256 UInt32 Header Extrinsic Block) (header : Header)
    (command : InspectSubCmd) (readable : command.Readable) :
    (∀ chain chain' : ChainAccess BlockchainError H256 UInt32 Header Extrinsic,
      (InspectCmd.run B (.ok chain) command : Except (CliError ServiceError) Text) =
        InspectCmd.run B (.ok chain') command) ↔
    Prefixed command.input := by
  cases command with
  | block s =>
      rcases readable with ⟨address, read⟩
      rw [InspectSubCmd.input, prefixed_iff_bytes documented read]
      constructor
      · intro same
        by_contra stored
        have differ := same emptyChain (constantChain header)
        rcases getBlock_emptyChain B stored with ⟨id, missing⟩
        rw [run_block_of_read B _ read, run_block_of_read B _ read, missing,
          getBlock_constantChain B header stored] at differ
        cases differ
      · rintro ⟨found, rfl⟩ chain chain'
        rw [run_block_of_read B chain read, run_block_of_read B chain' read, Inspector.getBlock,
          Inspector.getBlock]
        cases B.block.read found <;> rfl
  | extrinsic s =>
      rcases readable with ⟨address, read⟩
      rcases prefixed_iff_block documented read with
        ⟨prefixed, found, rfl⟩ | ⟨block, index, rfl, iff⟩
      · refine ⟨fun _ => prefixed, fun _ chain chain' => ?_⟩
        rw [run_extrinsic_of_read B chain read, run_extrinsic_of_read B chain' read,
          Inspector.getExtrinsic, Inspector.getExtrinsic]
        cases B.extrinsic.read found <;> rfl
      · rw [InspectSubCmd.input, iff]
        constructor
        · intro same
          by_contra stored
          have differ := same (constantChain header) emptyChain
          rcases getBlock_emptyChain B stored with ⟨id, missing⟩
          rw [run_extrinsic_of_found B _ read (getBlock_constantChain B header stored),
            run_extrinsic_of_missing B _ read missing] at differ
          exact pickPart_ne_missing_block _ _ id index differ
        · rintro ⟨found, rfl⟩ chain chain'
          cases decoded : B.block.read found with
          | error failure =>
              have missing : ∀ client : ChainAccess BlockchainError H256 UInt32 Header Extrinsic,
                  (inspectorOf B client).getBlock B (.bytes found) = .error (.codec failure) := by
                intro client
                rw [Inspector.getBlock, decoded]
                rfl
              rw [run_extrinsic_of_missing B chain read (missing chain),
                run_extrinsic_of_missing B chain' read (missing chain')]
              rfl
          | ok block =>
              have present : ∀ client : ChainAccess BlockchainError H256 UInt32 Header Extrinsic,
                  (inspectorOf B client).getBlock B (.bytes found) = .ok block := by
                intro client
                rw [Inspector.getBlock, decoded]
                rfl
              rw [run_extrinsic_of_found B chain read (present chain),
                run_extrinsic_of_found B chain' read (present chain')]

theorem database_untouched_iff_sample :
    (∀ chain chain' : ChainAccess Unit H256 UInt32 UInt8 UInt8,
      (InspectCmd.run sampleBlocks (.ok chain) (.extrinsic "0x0500:0".toList) :
        Except (CliError Unit) Text) =
        InspectCmd.run sampleBlocks (.ok chain') (.extrinsic "0x0500:0".toList)) ↔
    Prefixed (InspectSubCmd.extrinsic "0x0500:0".toList).input :=
  database_untouched_iff hexDocumented sampleBlocks 0 (.extrinsic "0x0500:0".toList)
    ⟨.block (.bytes [5, 0]) 0, rfl⟩

end Inspect
end IpciBlockchain
