import IpciBlockchain.Foundation.Pieces
import IpciBlockchain.Inspect.HexCrates

namespace IpciBlockchain
namespace Inspect

open Foundation

/-!
# Addresses of blocks and extrinsics

The `inspect` command names a block by its hash, its number or its raw bytes,
and an extrinsic by its raw bytes or by a block and an index.  Both parsers try
their alternatives in a fixed order and take the first that succeeds.

Raw bytes are read by `sp_core`, hashes and numbers by the types of the block.
These sub-parsers are instances, so that what is said here holds of any.
-/

/-- A block to retrieve. -/
inductive BlockAddress (Hash Number : Type) where
  /-- Get block by hash. -/
  | hash (hash : Hash)
  /-- Get block by number. -/
  | number (number : Number)
  /-- Raw SCALE-encoded bytes. -/
  | bytes (bytes : List UInt8)
  deriving DecidableEq, Repr

/-- An extrinsic address to decode and print out. -/
inductive ExtrinsicAddress (Hash Number : Type) where
  /-- Extrinsic as part of existing block. -/
  | block (block : BlockAddress Hash Number) (index : Usize)
  /-- Raw SCALE-encoded extrinsic bytes. -/
  | bytes (bytes : List UInt8)
  deriving DecidableEq, Repr

/-- The characters that `ExtrinsicAddress::from_str` splits at. -/
def isSeparator (c : Char) : Bool :=
  c == '.' || c == ':' || c == ' '

theorem isSeparator_eq_true_iff {c : Char} :
    isSeparator c = true ↔ c = '.' ∨ c = ':' ∨ c = ' ' := by
  simp [isSeparator, or_assoc]

/-- The pieces of a text.  The first element of the split iterator is always
there, which the source relies on. -/
def split (s : List Char) : { pieces : List (List Char) // pieces ≠ [] } :=
  ⟨s.splitOnP isSeparator, List.splitOnP_ne_nil isSeparator s⟩

/-- The index of an extrinsic, from the piece after the block. -/
def parseIndex : Option (List Char) → Except String Usize
  | none => .error "Extrinsic index missing: example \"5:0\""
  | some piece =>
      match parse Usize piece with
      | .ok index => .ok index
      | .error e => .error ("Invalid index format: " ++ ParseIntError.display e)

/-- A computation succeeds if its steps do. -/
theorem bind_eq_ok_iff {ε α β : Type} {first : Except ε α} {next : α → Except ε β} {b : β} :
    (first >>= next) = .ok b ↔ ∃ a, first = .ok a ∧ next a = .ok b := by
  cases first with
  | ok a => exact ⟨fun done => ⟨a, rfl, done⟩, fun ⟨_, same, done⟩ => Except.ok.inj same ▸ done⟩
  | error e =>
      constructor
      · intro done
        cases done
      · rintro ⟨a, same, _⟩
        cases same

theorem parseIndex_some_eq_ok_iff {piece : List Char} {index : Usize} :
    parseIndex (some piece) = .ok index ↔ parse Usize piece = .ok index := by
  simp only [parseIndex]
  split
  case h_1 found parsed => rw [parsed, Except.ok.injEq, Except.ok.injEq]
  case h_2 e refused =>
    rw [refused]
    simp

section Parsers

variable {Hash Number : Type} [FromStr Hash] [FromStr Number] [FromHex]

/-- `BlockAddress::from_str` -/
def BlockAddress.fromStr (s : List Char) : Except String (BlockAddress Hash Number) :=
  -- try to parse hash first
  match parse Hash s with
  | .ok found => .ok (.hash found)
  | .error _ =>
      -- then number
      match parse Number s with
      | .ok found => .ok (.number found)
      | .error _ =>
          -- then assume it's bytes (hex-encoded)
          match FromHex.fromHex s with
          | .ok found => .ok (.bytes found)
          | .error e => .error ("Given string does not look like hash or number. " ++
              "It could not be parsed as bytes either: " ++ FromHex.display e)

instance : FromStr (BlockAddress Hash Number) where
  Err := String
  fromStr := BlockAddress.fromStr

/-- `ExtrinsicAddress::from_str` -/
def ExtrinsicAddress.fromStr (s : List Char) : Except String (ExtrinsicAddress Hash Number) :=
  -- first try raw bytes
  match FromHex.fromHex s with
  | .ok found => .ok (.bytes found)
  | .error _ => do
      -- split by a bunch of different characters
      let it := split s
      let address ← BlockAddress.fromStr (it.val.head it.property)
      let index ← parseIndex it.val.tail.head?
      return .block address index

instance : FromStr (ExtrinsicAddress Hash Number) where
  Err := String
  fromStr := ExtrinsicAddress.fromStr

/-! ## What is read -/

theorem BlockAddress.fromStr_of_hash {s : List Char} {h : Hash} (read : parse Hash s = .ok h) :
    BlockAddress.fromStr s = (.ok (.hash h) : Except String (BlockAddress Hash Number)) := by
  simp only [BlockAddress.fromStr, read]

theorem BlockAddress.fromStr_of_number {s : List Char} {n : Number}
    (noHash : ∀ h, parse Hash s ≠ .ok h) (read : parse Number s = .ok n) :
    BlockAddress.fromStr s = (.ok (.number n) : Except String (BlockAddress Hash Number)) := by
  cases hash : parse Hash s with
  | ok h => exact absurd hash (noHash h)
  | error e => simp only [BlockAddress.fromStr, hash, read]

theorem BlockAddress.fromStr_of_bytes {s : List Char} {found : List UInt8}
    (noHash : ∀ h, parse Hash s ≠ .ok h) (noNumber : ∀ n, parse Number s ≠ .ok n)
    (read : FromHex.fromHex s = .ok found) :
    BlockAddress.fromStr s = (.ok (.bytes found) : Except String (BlockAddress Hash Number)) := by
  cases hash : parse Hash s with
  | ok h => exact absurd hash (noHash h)
  | error e =>
      cases number : parse Number s with
      | ok n => exact absurd number (noNumber n)
      | error e' => simp only [BlockAddress.fromStr, hash, number, read]

theorem ExtrinsicAddress.fromStr_of_hex {s : List Char} {found : List UInt8}
    (hex : FromHex.fromHex s = .ok found) :
    ExtrinsicAddress.fromStr s =
      (.ok (.bytes found) : Except String (ExtrinsicAddress Hash Number)) := by
  simp only [ExtrinsicAddress.fromStr, hex]

/-- Without raw bytes, the first two pieces are read and no others. -/
theorem ExtrinsicAddress.fromStr_eq_ok_iff {s first : List Char} {rest : List (List Char)}
    {v : ExtrinsicAddress Hash Number} (noHex : ∀ found, FromHex.fromHex s ≠ .ok found)
    (pieces : s.splitOnP isSeparator = first :: rest) :
    ExtrinsicAddress.fromStr s = .ok v ↔
      ∃ piece address index, rest.head? = some piece ∧
        BlockAddress.fromStr first = .ok address ∧ parse Usize piece = .ok index ∧
        v = .block address index := by
  have read : ExtrinsicAddress.fromStr s = (do
      let address ← BlockAddress.fromStr first
      let index ← parseIndex rest.head?
      return .block address index : Except String (ExtrinsicAddress Hash Number)) := by
    cases hex : FromHex.fromHex s with
    | ok found => exact absurd hex (noHex found)
    | error e =>
        simp only [ExtrinsicAddress.fromStr, hex, split, pieces, List.head_cons, List.tail_cons]
  rw [read, bind_eq_ok_iff]
  constructor
  · rintro ⟨address, block, accepted⟩
    rcases bind_eq_ok_iff.mp accepted with ⟨index, second, returned⟩
    cases piece : rest.head? with
    | none =>
        rw [piece] at second
        cases second
    | some text =>
        rw [piece] at second
        exact ⟨text, address, index, rfl, block, parseIndex_some_eq_ok_iff.mp second,
          (Except.ok.inj returned).symm⟩
  · rintro ⟨text, address, index, piece, block, number, rfl⟩
    refine ⟨address, block, bind_eq_ok_iff.mpr ⟨index, ?_, rfl⟩⟩
    rw [piece]
    exact parseIndex_some_eq_ok_iff.mpr number

/-! ## The grammar -/

/-- What an extrinsic address denotes: raw bytes, or else a block and an index
with exactly one separator between them. -/
inductive Denotes : List Char → ExtrinsicAddress Hash Number → Prop where
  | bytes {s : List Char} {found : List UInt8} (hex : FromHex.fromHex s = .ok found) :
      Denotes s (.bytes found)
  | block {block index : List Char} {c : Char} {address : BlockAddress Hash Number} {i : Usize}
      (noHex : ∀ found, FromHex.fromHex (block ++ c :: index) ≠ .ok found)
      (separator : isSeparator c = true) (wholeBlock : Pieces.Whole isSeparator block)
      (wholeIndex : Pieces.Whole isSeparator index)
      (blockRead : BlockAddress.fromStr block = .ok address)
      (indexRead : parse Usize index = .ok i) :
      Denotes (block ++ c :: index) (.block address i)

/-- The text continues with a second separator after a block and an index
that can both be read. -/
def ContinuesAfterIndex (Hash Number : Type) [FromStr Hash] [FromStr Number]
    (s : List Char) : Prop :=
  (∀ found, FromHex.fromHex s ≠ .ok found) ∧
  ∃ (block index rest : List Char) (c d : Char) (address : BlockAddress Hash Number) (i : Usize),
    s = block ++ c :: (index ++ d :: rest) ∧ isSeparator c = true ∧ isSeparator d = true ∧
    Pieces.Whole isSeparator block ∧ Pieces.Whole isSeparator index ∧
    BlockAddress.fromStr block = .ok address ∧ parse Usize index = .ok i

/-- Everything that the grammar allows is accepted, as what it denotes. -/
theorem fromStr_of_denotes {s : List Char} {v : ExtrinsicAddress Hash Number}
    (denotes : Denotes s v) : ExtrinsicAddress.fromStr s = .ok v := by
  cases denotes with
  | bytes hex => exact ExtrinsicAddress.fromStr_of_hex hex
  | block noHex separator wholeBlock wholeIndex blockRead indexRead =>
      have pieces := Pieces.splitOnP_cut wholeBlock separator
      rw [ExtrinsicAddress.fromStr_eq_ok_iff noHex (pieces _), Pieces.splitOnP_whole wholeIndex]
      exact ⟨_, _, _, rfl, blockRead, indexRead, rfl⟩

/-- What is accepted denotes its value, or continues after the index. -/
theorem denotes_or_continues {s : List Char} {v : ExtrinsicAddress Hash Number}
    (accepted : ExtrinsicAddress.fromStr s = .ok v) :
    Denotes s v ∨ ContinuesAfterIndex Hash Number s := by
  by_cases hex : ∃ found, FromHex.fromHex s = .ok found
  · rcases hex with ⟨found, hex⟩
    rw [ExtrinsicAddress.fromStr_of_hex hex] at accepted
    rw [← Except.ok.inj accepted]
    exact Or.inl (.bytes hex)
  · have noHex : ∀ found, FromHex.fromHex s ≠ .ok found := not_exists.mp hex
    -- the text is cut at its first separator, and the rest at the next one
    rcases Pieces.whole_or_cut isSeparator s with whole | ⟨block, c, tail, rfl, wholeBlock, cut⟩
    · rw [ExtrinsicAddress.fromStr_eq_ok_iff noHex (Pieces.splitOnP_whole whole)] at accepted
      rcases accepted with ⟨piece, address, i, second, _, _, _⟩
      cases second
    · rw [ExtrinsicAddress.fromStr_eq_ok_iff noHex (Pieces.splitOnP_cut wholeBlock cut tail)]
        at accepted
      rcases accepted with ⟨piece, address, i, second, blockRead, indexRead, rfl⟩
      rcases Pieces.whole_or_cut isSeparator tail with
        wholeTail | ⟨index, d, rest, rfl, wholeIndex, cut'⟩
      · rw [Pieces.splitOnP_whole wholeTail] at second
        cases second
        exact Or.inl (.block noHex cut wholeBlock wholeTail blockRead indexRead)
      · rw [Pieces.splitOnP_cut wholeIndex cut'] at second
        have same : index = piece := Option.some.inj second
        subst same
        exact Or.inr ⟨noHex, block, index, rest, c, d, address, i, rfl, cut, cut', wholeBlock,
          wholeIndex, blockRead, indexRead⟩

/-- A text with a second separator denotes no extrinsic of a block. -/
theorem not_denotes_block {block : List Char} (index rest : List Char) {c d : Char}
    {address : BlockAddress Hash Number} {i : Usize} (whole : Pieces.Whole isSeparator block)
    (cut : isSeparator c = true) (cut' : isSeparator d = true) :
    ¬ Denotes (block ++ c :: (index ++ d :: rest)) (.block address i) := by
  intro denotes
  generalize text : block ++ c :: (index ++ d :: rest) = s at denotes
  cases denotes with
  | block noHex separator wholeBlock wholeIndex blockRead indexRead =>
      have same := Pieces.cut_unique whole cut wholeBlock separator text
      rw [← same.2.2] at wholeIndex
      exact Pieces.not_whole_cut cut' rest wholeIndex

/-- The extrinsic address parser accepts exactly its grammar on a text if and
only if the text does not continue after a block and an index. -/
theorem accepts_grammar_iff (Hash Number : Type) [FromStr Hash] [FromStr Number]
    (s : List Char) :
    (∀ v : ExtrinsicAddress Hash Number, ExtrinsicAddress.fromStr s = .ok v ↔ Denotes s v) ↔
      ¬ ContinuesAfterIndex Hash Number s := by
  constructor
  · rintro accepts ⟨noHex, block, index, rest, c, d, address, i, rfl, cut, cut', wholeBlock,
      wholeIndex, blockRead, indexRead⟩
    have pieces := Pieces.splitOnP_cut wholeBlock cut (index ++ d :: rest)
    rw [Pieces.splitOnP_cut wholeIndex cut'] at pieces
    have accepted : ExtrinsicAddress.fromStr (block ++ c :: (index ++ d :: rest)) =
        .ok (ExtrinsicAddress.block address i) :=
      (ExtrinsicAddress.fromStr_eq_ok_iff noHex pieces).mpr
        ⟨index, address, i, rfl, blockRead, indexRead, rfl⟩
    exact not_denotes_block index rest wholeBlock cut cut' ((accepts _).mp accepted)
  · intro ends v
    constructor
    · intro accepted
      exact (denotes_or_continues accepted).resolve_right ends
    · exact fromStr_of_denotes

end Parsers

-- a block alone is not an extrinsic
example : (ExtrinsicAddress.fromStr ['1', '2', '3', '4'] :
    Except String (ExtrinsicAddress H256 UInt32)) =
      .error "Extrinsic index missing: example \"5:0\"" := rfl

/-- A third number after a block and an index is dropped without an error. -/
theorem third_number_is_dropped :
    ExtrinsicAddress.fromStr ['1', ':', '2', ':', '3'] =
        .ok (.block (.number 1) 2 : ExtrinsicAddress H256 UInt32) ∧
      ¬ Denotes ['1', ':', '2', ':', '3']
        (.block (.number 1) 2 : ExtrinsicAddress H256 UInt32) := by
  constructor
  · rfl
  · have whole : Pieces.Whole isSeparator ['1'] := by decide
    exact not_denotes_block ['2'] ['3'] whole (by decide) (by decide)

end Inspect
end IpciBlockchain
