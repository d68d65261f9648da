import IpciBlockchain.Inspect.Inspector

namespace IpciBlockchain
namespace Inspect

open Foundation

/-!
# Inspecting what was printed

The text of a block has a line with its bytes, and under each extrinsic a line
with the bytes of that extrinsic.  A run of the command is cut into reading an
address, finding what it names and printing it.  The extrinsic command at a
block and an index is then the block command followed by the choice of a part
of its text, and the digits of a printed text are addresses of what was
printed.
-/

variable {Failure BlockchainError ServiceError Hash Number Header Extrinsic Block : Type}

/-! ## The parts of a text -/

/-- The texts of extrinsics under their numbers. -/
def numbered (parts : List Text) : Text :=
  parts.zipIdx.flatMap fun (part, idx) =>
    writeln ("- ".toList ++ printNumber idx ++ ":".toList) ++ part

/-- The text of a block, from the debug text of its header, the digits of its
bytes and the texts of its extrinsics. -/
def blockText (header digits : Text) (parts : List Text) : Text :=
  writeln "Header:".toList ++ writeln header ++ writeln ("Block bytes: ".toList ++ digits) ++
    writeln ("Extrinsics (".toList ++ printNumber parts.length ++ ")".toList) ++ numbered parts

/-- What the extrinsic command answers on a part of a block's text; `shown` is
the debug text of the block. -/
def pickPart (parts : List Text) (shown : Text) (index : Usize) :
    Except (CliError ServiceError) Text :=
  match parts[index.toNat]? with
  | some part => .ok (writeln part)
  | none => .error (.input ("Could not find extrinsic ".toList ++ printNumber index.toNat ++
      " in block ".toList ++ shown))

section Texts

variable (B : BlockTraits Failure Hash Number Header Extrinsic Block)

/-- The texts of the extrinsics of a block. -/
def partsOf (block : Block) : List Text :=
  (B.extrinsics block).map (DebugPrinter.fmtExtrinsic B)

theorem fmtBlock_eq_blockText (block : Block) :
    DebugPrinter.fmtBlock B block =
      blockText (B.debugHeader (B.header block)) (B.hexDisplay (B.block.encode block))
        (partsOf B block) := by
  have count : (partsOf B block).length = (B.extrinsics block).length := List.length_map _
  rw [blockText, count, numbered, partsOf, List.zipIdx_map, List.flatMap_map]
  rfl

end Texts

/-! ## Runs -/

section Runs

variable (B : BlockTraits Failure Hash Number Header Extrinsic Block)
  (chain : ChainAccess BlockchainError Hash Number Header Extrinsic)

/-- The inspector of the command. -/
def inspectorOf : Inspector BlockchainError Hash Number Header Extrinsic Block where
  printer := debugPrinter B
  chain := chain

/-- Print what was found. -/
def printed {Value : Type} (fmt : Value → Text)
    (found : Except (Error Failure BlockchainError) Value) : Except (CliError ServiceError) Text :=
  match found with
  | .ok value => .ok (writeln (fmt value))
  | .error e => .error (.input (e.display B chain))

theorem println_block (address : BlockAddress Hash Number) :
    (println B chain ((inspectorOf B chain).block B address) :
        Except (CliError ServiceError) Text) =
      printed B chain (DebugPrinter.fmtBlock B) ((inspectorOf B chain).getBlock B address) := by
  unfold Inspector.block
  cases (inspectorOf B chain).getBlock B address <;> rfl

theorem println_extrinsic (address : ExtrinsicAddress Hash Number) :
    (println B chain ((inspectorOf B chain).extrinsic B address) :
        Except (CliError ServiceError) Text) =
      printed B chain (DebugPrinter.fmtExtrinsic B)
        ((inspectorOf B chain).getExtrinsic B address) := by
  unfold Inspector.extrinsic
  cases (inspectorOf B chain).getExtrinsic B address <;> rfl

/-- Printing an extrinsic of a block that was found is choosing a part of the
block's text. -/
theorem printed_extrinsicAt (block : Block) (index : Usize) :
    (printed B chain (DebugPrinter.fmtExtrinsic B) (Inspector.extrinsicAt B block index) :
        Except (CliError ServiceError) Text) =
      pickPart (partsOf B block) (B.debugBlock block) index := by
  unfold Inspector.extrinsicAt pickPart partsOf
  rw [List.getElem?_map]
  cases (B.extrinsics block)[index.toNat]? <;> rfl

variable [FromStr Hash] [FromStr Number] [FromHex]

theorem run_block_of_read {s : Text} {address : BlockAddress Hash Number}
    (read : BlockAddress.fromStr s = .ok address) :
    (InspectCmd.run B (.ok chain) (.block s) : Except (CliError ServiceError) Text) =
      printed B chain (DebugPrinter.fmtBlock B) ((inspectorOf B chain).getBlock B address) := by
  rw [← println_block]
  unfold InspectCmd.run
  simp only [read]
  rfl

theorem run_block_of_refused {s : Text} {e : String}
    (refused : (BlockAddress.fromStr s : Except String (BlockAddress Hash Number)) = .error e) :
    (InspectCmd.run B (.ok chain) (.block s) : Except (CliError ServiceError) Text) =
      .error (.input e.toList) := by
  unfold InspectCmd.run
  simp only [refused]
  rfl

theorem run_extrinsic_of_read {s : Text} {address : ExtrinsicAddress Hash Number}
    (read : ExtrinsicAddress.fromStr s = .ok address) :
    (InspectCmd.run B (.ok chain) (.extrinsic s) : Except (CliError ServiceError) Text) =
      printed B chain (DebugPrinter.fmtExtrinsic B)
        ((inspectorOf B chain).getExtrinsic B address) := by
  rw [← println_extrinsic]
  unfold InspectCmd.run
  simp only [read]
  rfl

theorem run_extrinsic_of_refused {s : Text} {e : String}
    (refused : (ExtrinsicAddress.fromStr s : Except String (ExtrinsicAddress Hash Number)) =
      .error e) :
    (InspectCmd.run B (.ok chain) (.extrinsic s) : Except (CliError ServiceError) Text) =
      .error (.input e.toList) := by
  unfold InspectCmd.run
  simp only [refused]
  rfl

/-- Where the block is found, its extrinsic is a part of its text. -/
theorem run_extrinsic_of_found {s : Text} {address : BlockAddress Hash Number} {index : Usize}
    {block : Block} (read : ExtrinsicAddress.fromStr s = .ok (.block address index))
    (found : (inspectorOf B chain).getBlock B address = .ok block) :
    (InspectCmd.run B (.ok chain) (.extrinsic s) : Except (CliError ServiceError) Text) =
      pickPart (partsOf B block) (B.debugBlock block) index := by
  rw [run_extrinsic_of_read B chain read, Inspector.getExtrinsic, found]
  exact printed_extrinsicAt B chain block index

theorem run_extrinsic_of_missing {s : Text} {address : BlockAddress Hash Number} {index : Usize}
    {e : Error Failure BlockchainError}
    (read : ExtrinsicAddress.fromStr s = .ok (.block address index))
    (missing : (inspectorOf B chain).getBlock B address = .error e) :
    (InspectCmd.run B (.ok chain) (.extrinsic s) : Except (CliError ServiceError) Text) =
      .error (.input (e.display B chain)) := by
  rw [run_extrinsic_of_read B chain read, Inspector.getExtrinsic, missing]
  rfl

/-- A run of the block command that prints something has read an address and
found the block that it prints. -/
theorem exists_of_run_block {s text : Text}
    (ran : (InspectCmd.run B (.ok chain) (.block s) : Except (CliError ServiceError) Text) =
      .ok text) :
    ∃ address block, BlockAddress.fromStr s = .ok address ∧
      (inspectorOf B chain).getBlock B address = .ok block ∧
      text = writeln (DebugPrinter.fmtBlock B block) := by
  cases read : (BlockAddress.fromStr s : Except String (BlockAddress Hash Number)) with
  | error e =>
      rw [run_block_of_refused B chain read] at ran
      cases ran
  | ok address =>
      rw [run_block_of_read B chain read] at ran
      cases found : (inspectorOf B chain).getBlock B address with
      | error e =>
          rw [found] at ran
          cases ran
      | ok block =>
          rw [found] at ran
          exact ⟨address, block, rfl, found, (Except.ok.inj ran).symm⟩

end Runs

/-! ## Extrinsics of a block -/

theorem exists_of_map_eq_ok {ε α β : Type} {result : Except ε α} {f : α → β} {b : β}
    (mapped : result.map f = .ok b) : ∃ a, result = .ok a ∧ f a = b := by
  cases result with
  | error e => cases mapped
  | ok a => exact ⟨a, rfl, Except.ok.inj mapped⟩

/-- An index that can be read has no separator in it. -/
theorem whole_of_parse_index {piece : Text} {index : Usize}
    (read : parse Usize piece = .ok index) : Pieces.Whole isSeparator piece := by
  rcases exists_of_map_eq_ok read with ⟨value, radix, _⟩
  intro c member
  rcases isDigit_or_plus_of_fromStrRadix radix c member with digit | rfl
  · exact isSeparator_of_isHexDigit (Hex.isHexDigit_of_isDigit digit)
  · decide

/-- A separator and an index behind a block, such that all of it is not raw
bytes. -/
structure IndexedBy [FromHex] (s : Text) (c : Char) (piece : Text) (index : Usize) : Prop where
  separator : isSeparator c = true
  read : parse Usize piece = .ok index
  noHex : ∀ found, FromHex.fromHex (s ++ c :: piece) ≠ .ok found

section Extrinsics

variable [FromStr Hash] [FromStr Number] [FromHex] {s : Text} {c : Char} {piece : Text}
  {index : Usize}

theorem ExtrinsicAddress.fromStr_of_block {address : BlockAddress Hash Number}
    (whole : Pieces.Whole isSeparator s) (indexed : IndexedBy s c piece index)
    (read : BlockAddress.fromStr s = .ok address) :
    ExtrinsicAddress.fromStr (s ++ c :: piece) = .ok (.block address index) :=
  fromStr_of_denotes (.block indexed.noHex indexed.separator whole
    (whole_of_parse_index indexed.read) read indexed.read)

/-- A block that cannot be read is refused with the error of the block. -/
theorem ExtrinsicAddress.fromStr_of_refused {e : String}
    (whole : Pieces.Whole isSeparator s) (indexed : IndexedBy s c piece index)
    (refused : (BlockAddress.fromStr s : Except String (BlockAddress Hash Number)) = .error e) :
    (ExtrinsicAddress.fromStr (s ++ c :: piece) :
      Except String (ExtrinsicAddress Hash Number)) = .error e := by
  have pieces := Pieces.splitOnP_cut whole indexed.separator piece
  cases hex : FromHex.fromHex (s ++ c :: piece) with
  | ok found => exact absurd hex (indexed.noHex found)
  | error _ =>
      simp only [ExtrinsicAddress.fromStr, hex, split, pieces, List.head_cons, refused]
      rfl

end Extrinsics

/-- The extrinsic command at a block and an index is the block command followed
by the choice of a part: where the block command fails it fails with the same
error, and where the block command prints a text it prints the part under that
index, or says that the block has none. -/
theorem extrinsic_is_part_of_block [FromStr Hash] [FromStr Number] [FromHex]
    (B : BlockTraits Failure Hash Number Header Extrinsic Block)
    (chain : ChainAccess BlockchainError Hash Number Header Extrinsic)
    (s : Text) (whole : Pieces.Whole isSeparator s) :
    (∀ e : CliError ServiceError, InspectCmd.run B (.ok chain) (.block s) = .error e →
      ∀ c piece index, IndexedBy s c piece index →
        InspectCmd.run B (.ok chain) (.extrinsic (s ++ c :: piece)) = .error e) ∧
    ∀ text, (InspectCmd.run B (.ok chain) (.block s) : Except (CliError ServiceError) Text) =
        .ok text →
      ∃ header digits parts shown, text = writeln (blockText header digits parts) ∧
        ∀ c piece index, IndexedBy s c piece index →
          (InspectCmd.run B (.ok chain) (.extrinsic (s ++ c :: piece)) :
            Except (CliError ServiceError) Text) = pickPart parts shown index := by
  constructor
  · intro e ran c piece index indexed
    cases read : (BlockAddress.fromStr s : Except String (BlockAddress Hash Number)) with
    | error refused =>
        rw [run_block_of_refused B chain read] at ran
        rw [run_extrinsic_of_refused B chain
          (ExtrinsicAddress.fromStr_of_refused whole indexed read)]
        exact ran
    | ok address =>
        rw [run_block_of_read B chain read] at ran
        have readAll := ExtrinsicAddress.fromStr_of_block whole indexed read
        cases found : (inspectorOf B chain).getBlock B address with
        | error error =>
            rw [found] at ran
            rw [run_extrinsic_of_missing B chain readAll found]
            exact ran
        | ok block =>
            rw [found] at ran
            cases ran
  · intro text ran
    rcases exists_of_run_block B chain ran with ⟨address, block, read, found, rfl⟩
    refine ⟨_, _, partsOf B block, B.debugBlock block,
      congrArg writeln (fmtBlock_eq_blockText B block), ?_⟩
    intro c piece index indexed
    exact run_extrinsic_of_found B chain
      (ExtrinsicAddress.fromStr_of_block whole indexed read) found

/-- Blocks of a byte and a vector of bytes. -/
def sampleBlocks : BlockTraits Scale.Failure H256 UInt32 UInt8 UInt8
    (UInt8 × { extrinsics : List UInt8 // extrinsics.length < 2 ^ 32 }) where
  new header extrinsics := (header, ⟨extrinsics.take (2 ^ 32 - 1), by
    rw [List.length_take]
    omega⟩)
  header block := block.1
  extrinsics block := block.2.val
  block := Scale.u8.prod (Scale.vec Scale.u8)
  extrinsic := Scale.u8
  displayFailure _ := "invalid".toList
  debugId
    | .hash hash => "BlockId::Hash(0x".toList ++ Hex.encode false hash.bytes ++ ")".toList
    | .number number => "BlockId::Number(".toList ++ printNumber number.toNat ++ ")".toList
  debugHeader header := printNumber header.toNat
  debugExtrinsic extrinsic := printNumber extrinsic.toNat
  debugBlock block := printNumber block.1.toNat
  hexDisplay := Hex.encode false

/-- A chain that has one block, with two extrinsics, under the number 1. -/
def sampleChain : ChainAccess Unit H256 UInt32 UInt8 UInt8 where
  blockBody id := .ok (if id = .number 1 then some [10, 20] else none)
  header id := .ok (if id = .number 1 then some 5 else none)
  display _ := []

theorem extrinsic_is_part_of_block_number :
    (∀ e : CliError Unit, InspectCmd.run sampleBlocks (.ok sampleChain) (.block ['1']) = .error e →
      ∀ c piece index, IndexedBy ['1'] c piece index →
        InspectCmd.run sampleBlocks (.ok sampleChain) (.extrinsic (['1'] ++ c :: piece)) =
          .error e) ∧
    ∀ text, (InspectCmd.run sampleBlocks (.ok sampleChain) (.block ['1']) :
        Except (CliError Unit) Text) = .ok text →
      ∃ header digits parts shown, text = writeln (blockText header digits parts) ∧
        ∀ c piece index, IndexedBy ['1'] c piece index →
          (InspectCmd.run sampleBlocks (.ok sampleChain) (.extrinsic (['1'] ++ c :: piece)) :
            Except (CliError Unit) Text) = pickPart parts shown index :=
  extrinsic_is_part_of_block sampleBlocks sampleChain ['1'] (by decide)

example : (InspectCmd.run sampleBlocks (.ok sampleChain) (.block ['1']) :
    Except (CliError Unit) Text) =
      .ok ("Header:\n5\nBlock bytes: 05080a14\nExtrinsics (2)\n".toList ++
        "- 0:\n 10\n Bytes: 0a\n- 1:\n 20\n Bytes: 14\n\n".toList) := by
  decide +kernel

/-! ## Digits of a printed text -/

section Digits

variable [FromStr H256] [FromHex] (documented : HexDocumented)
  (B : BlockTraits Failure H256 UInt32 Header Extrinsic Block)
  (chain : ChainAccess BlockchainError H256 UInt32 Header Extrinsic)

include documented

end Digits

namespace BlockTraits.HexDisplayed

variable {B : BlockTraits Failure Hash Number Header Extrinsic Block}

end BlockTraits.HexDisplayed

end Inspect
end IpciBlockchain
