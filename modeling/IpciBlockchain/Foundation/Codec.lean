import Mathlib.Data.List.Basic

namespace IpciBlockchain
namespace Foundation

/-!
# Self-delimiting codecs

In a self-delimiting format every encoding ends by itself: the decoder takes
one value off the front of its input and leaves the rest untouched.  The law
is a field of the codec, so that products and changes of representation come
with their law, and with it the two facts that users of a codec need: no
encoding continues another one, and decoding ignores what follows a value.
-/

/-- A codec of a self-delimiting format. -/
structure Codec (Failure Value : Type) where
  encode : Value → List UInt8
  decode : List UInt8 → Except Failure (Value × List UInt8)
  decode_encode : ∀ value rest, decode (encode value ++ rest) = .ok (value, rest)

namespace Codec

variable {Failure Value Other : Type}

/-- Two encodings with something behind them are equal only piece by piece. -/
theorem encode_append_inj (codec : Codec Failure Value) {value value' : Value}
    {rest rest' : List UInt8}
    (same : codec.encode value ++ rest = codec.encode value' ++ rest') :
    value = value' ∧ rest = rest' := by
  have decoded := codec.decode_encode value rest
  rw [same, codec.decode_encode value' rest'] at decoded
  have equal := Except.ok.inj decoded
  exact ⟨(Prod.mk.inj equal).1.symm, (Prod.mk.inj equal).2.symm⟩

theorem encode_injective (codec : Codec Failure Value) : Function.Injective codec.encode := by
  intro value value' same
  have padded : codec.encode value ++ [] = codec.encode value' ++ [] := by rw [same]
  exact (codec.encode_append_inj padded).1

/-- Decode a value and ignore what follows it. -/
def read (codec : Codec Failure Value) (bytes : List UInt8) : Except Failure Value :=
  (codec.decode bytes).map Prod.fst

theorem read_encode_append (codec : Codec Failure Value) (value : Value) (rest : List UInt8) :
    codec.read (codec.encode value ++ rest) = .ok value := by
  rw [read, codec.decode_encode]
  rfl

@[simp] theorem read_encode (codec : Codec Failure Value) (value : Value) :
    codec.read (codec.encode value) = .ok value := by
  have padded := codec.read_encode_append value []
  rw [List.append_nil] at padded
  exact padded

/-- Two fields, one after the other. -/
def prod (first : Codec Failure Value) (second : Codec Failure Other) :
    Codec Failure (Value × Other) where
  encode pair := first.encode pair.1 ++ second.encode pair.2
  decode bytes := (first.decode bytes).bind fun (value, bytes) =>
    (second.decode bytes).map fun (other, bytes) => ((value, other), bytes)
  decode_encode := by
    intro pair rest
    rw [List.append_assoc, first.decode_encode]
    simp only [Except.bind]
    rw [second.decode_encode]
    rfl

/-- The codec of a type whose values are wrapped values of another one. -/
def wrap (codec : Codec Failure Value) (into : Value → Other) (from_ : Other → Value)
    (into_from : ∀ other, into (from_ other) = other) : Codec Failure Other where
  encode other := codec.encode (from_ other)
  decode bytes := (codec.decode bytes).map fun decoded => (into decoded.1, decoded.2)
  decode_encode := by
    intro other rest
    rw [codec.decode_encode, Except.map, into_from]

end Codec

end Foundation
end IpciBlockchain
