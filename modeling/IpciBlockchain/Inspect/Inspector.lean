import IpciBlockchain.Foundation.Scale
import IpciBlockchain.Inspect.RoundTrip

namespace IpciBlockchain
namespace Inspect

open Foundation

/-!
# The inspector

The `inspect` command finds a block or an extrinsic and prints it.  What is
addressed by a hash or a number is read from the database of the node; what is
given in bytes is decoded.  The block type and the client are parameters, as in
the source; of a block type the codecs and the debug texts are used, with the
digits in which bytes are shown.

The printed text of a block holds the bytes of the block and of its extrinsics
in full.  An error carries the text that the source gives it, with the debug
text of what was looked for.
-/

/-- A text on its way to the terminal. -/
abbrev Text := List Char

/-- `sp_runtime::generic::BlockId` -/
inductive BlockId (Hash Number : Type) where
  | hash (hash : Hash)
  | number (number : Number)
  deriving DecidableEq, Repr

/-- `sp_runtime::traits::Block`, with the codecs and the debug texts of the
types around it. -/
structure BlockTraits (Failure Hash Number Header Extrinsic Block : Type) where
  new : Header → List Extrinsic → Block
  header : Block → Header
  extrinsics : Block → List Extrinsic
  block : Codec Failure Block
  extrinsic : Codec Failure Extrinsic
  displayFailure : Failure → Text
  debugId : BlockId Hash Number → Text
  debugHeader : Header → Text
  debugExtrinsic : Extrinsic → Text
  debugBlock : Block → Text
  /-- The debug text of `HexDisplay`. -/
  hexDisplay : List UInt8 → Text

/-- A helper trait to access block headers and bodies. -/
structure ChainAccess (BlockchainError Hash Number Header Extrinsic : Type) where
  blockBody : BlockId Hash Number → Except BlockchainError (Option (List Extrinsic))
  header : BlockId Hash Number → Except BlockchainError (Option Header)
  display : BlockchainError → Text

/-- A Pretty formatter implementation. -/
structure PrettyPrinter (Extrinsic Block : Type) where
  /-- Nicely format block. -/
  fmtBlock : Block → Text
  /-- Nicely format extrinsic. -/
  fmtExtrinsic : Extrinsic → Text

/-- Aggregated error for `Inspector` operations. -/
inductive Error (Failure BlockchainError : Type) where
  /-- Could not decode Block or Extrinsic. -/
  | codec (failure : Failure)
  /-- Error accessing blockchain DB. -/
  | blockchain (error : BlockchainError)
  /-- Given block has not been found. -/
  | notFound (text : Text)
  deriving DecidableEq, Repr

/-- A possible inspect sub-commands. -/
inductive InspectSubCmd where
  /-- Decode block with native version of runtime and print out the details. -/
  | block (input : Text)
  /-- Decode extrinsic with native version of runtime and print out the details. -/
  | extrinsic (input : Text)
  deriving DecidableEq, Repr

/-- `sc_cli::Error`, as far as the command returns it. -/
inductive CliError (ServiceError : Type) where
  | service (error : ServiceError)
  | input (text : Text)
  deriving DecidableEq, Repr

variable {Failure BlockchainError ServiceError Hash Number Header Extrinsic Block : Type}

/-! ## Printing -/

/-- `writeln!` -/
def writeln (text : Text) : Text :=
  text ++ ['\n']

namespace DebugPrinter

variable (B : BlockTraits Failure Hash Number Header Extrinsic Block)

def fmtExtrinsic (extrinsic : Extrinsic) : Text :=
  writeln (" ".toList ++ B.debugExtrinsic extrinsic) ++
    writeln (" Bytes: ".toList ++ B.hexDisplay (B.extrinsic.encode extrinsic))

def fmtBlock (block : Block) : Text :=
  writeln "Header:".toList ++
    writeln (B.debugHeader (B.header block)) ++
    writeln ("Block bytes: ".toList ++ B.hexDisplay (B.block.encode block)) ++
    writeln ("Extrinsics (".toList ++ printNumber (B.extrinsics block).length ++ ")".toList) ++
    (B.extrinsics block).zipIdx.flatMap fun (ex, idx) =>
      writeln ("- ".toList ++ printNumber idx ++ ":".toList) ++ fmtExtrinsic B ex

end DebugPrinter

/-- Default dummy debug printer. -/
def debugPrinter (B : BlockTraits Failure Hash Number Header Extrinsic Block) :
    PrettyPrinter Extrinsic Block where
  fmtBlock := DebugPrinter.fmtBlock B
  fmtExtrinsic := DebugPrinter.fmtExtrinsic B

def Error.display (B : BlockTraits Failure Hash Number Header Extrinsic Block)
    (chain : ChainAccess BlockchainError Hash Number Header Extrinsic) :
    Error Failure BlockchainError → Text
  | .codec failure => B.displayFailure failure
  | .blockchain error => chain.display error
  | .notFound text => text

/-! ## Finding -/

/-- `Option::ok_or_else` after `?` on a request to the chain. -/
def requested {Value : Type} (answer : Except BlockchainError (Option Value)) (notFound : Text) :
    Except (Error Failure BlockchainError) Value :=
  match answer with
  | .error error => .error (.blockchain error)
  | .ok none => .error (.notFound notFound)
  | .ok (some value) => .ok value

/-- Blockchain inspector. -/
structure Inspector (BlockchainError Hash Number Header Extrinsic Block : Type) where
  printer : PrettyPrinter Extrinsic Block
  chain : ChainAccess BlockchainError Hash Number Header Extrinsic

namespace Inspector

variable (B : BlockTraits Failure Hash Number Header Extrinsic Block)
  (inspector : Inspector BlockchainError Hash Number Header Extrinsic Block)

/-- The block that the chain has under an identifier: its body, then its
header. -/
def getStored (id : BlockId Hash Number) : Except (Error Failure BlockchainError) Block := do
  let notFound := "Could not find block ".toList ++ B.debugId id
  let body ← requested (inspector.chain.blockBody id) notFound
  let header ← requested (inspector.chain.header id) notFound
  return B.new header body

def getBlock : BlockAddress Hash Number → Except (Error Failure BlockchainError) Block
  | .bytes bytes => (B.block.read bytes).mapError .codec
  | .number number => getStored B inspector (.number number)
  | .hash hash => getStored B inspector (.hash hash)

/-- Get a pretty-printed block. -/
def block (input : BlockAddress Hash Number) : Except (Error Failure BlockchainError) Text := do
  let block ← getBlock B inspector input
  return inspector.printer.fmtBlock block

/-- An extrinsic of a block, by its index. -/
def extrinsicAt (block : Block) (index : Usize) :
    Except (Error Failure BlockchainError) Extrinsic :=
  match (B.extrinsics block)[index.toNat]? with
  | some ext => .ok ext
  | none => .error (.notFound ("Could not find extrinsic ".toList ++ printNumber index.toNat ++
      " in block ".toList ++ B.debugBlock block))

/-- The extrinsic that is to be printed. -/
def getExtrinsic :
    ExtrinsicAddress Hash Number → Except (Error Failure BlockchainError) Extrinsic
  | .block block index => do
      let block ← getBlock B inspector block
      extrinsicAt B block index
  | .bytes bytes => (B.extrinsic.read bytes).mapError .codec

/-- Get a pretty-printed extrinsic. -/
def extrinsic (input : ExtrinsicAddress Hash Number) :
    Except (Error Failure BlockchainError) Text := do
  let ext ← getExtrinsic B inspector input
  return inspector.printer.fmtExtrinsic ext

end Inspector

/-! ## The command -/

section Command

variable [FromStr Hash] [FromStr Number] [FromHex]

/-- `str::parse`, whose error text becomes an input error. -/
def parsed {Value : Type} (result : Except String Value) :
    Except (CliError ServiceError) Value :=
  result.mapError fun text => .input text.toList

/-- `println!` of what an inspector has answered. -/
def println (B : BlockTraits Failure Hash Number Header Extrinsic Block)
    (chain : ChainAccess BlockchainError Hash Number Header Extrinsic)
    (answer : Except (Error Failure BlockchainError) Text) :
    Except (CliError ServiceError) Text := do
  let res ← answer.mapError fun e => .input (e.display B chain)
  return writeln res

/-- Run the inspect command, passing the inspector. -/
def InspectCmd.run (B : BlockTraits Failure Hash Number Header Extrinsic Block)
    (client : Except ServiceError (ChainAccess BlockchainError Hash Number Header Extrinsic))
    (command : InspectSubCmd) : Except (CliError ServiceError) Text := do
  let client ← client.mapError .service
  let inspect : Inspector BlockchainError Hash Number Header Extrinsic Block :=
    { printer := debugPrinter B, chain := client }
  match command with
  | .block input =>
      let input ← parsed (BlockAddress.fromStr input)
      println B client (inspect.block B input)
  | .extrinsic input =>
      let input ← parsed (ExtrinsicAddress.fromStr input)
      println B client (inspect.extrinsic B input)

end Command

end Inspect
end IpciBlockchain
