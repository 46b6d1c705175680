import LiveTail.Number.Binary

/-! The values of MessagePack.

A string is text when its bytes are UTF-8; other string bytes are kept as they
are, and so are the bits of floats. -/
namespace LiveTail.MessagePack

inductive Value where
  | nil
  | bool (b : Bool)
  /-- From `-2 ^ 63` to `2 ^ 64 - 1`. -/
  | int (n : Int)
  | float32 (bits : UInt32)
  | float64 (bits : UInt64)
  | str (text : String)
  /-- A string that is no text. -/
  | rawStr (bytes : List UInt8)
  | bin (bytes : List UInt8)
  | array (items : List Value)
  | map (entries : List (Value × Value))
  | ext (type : Int) (bytes : List UInt8)
deriving Repr, Inhabited

namespace Value

/-- What a value is called in an error. -/
def typeName : Value → String
  | nil => "nil"
  | bool _ => "boolean"
  | int _ => "integer"
  | float32 _ | float64 _ => "float"
  | str _ | rawStr _ => "string"
  | bin _ => "binary"
  | array _ => "array"
  | map _ => "map"
  | ext _ _ => "extension"

/-- Equality of floats: NaN differs from itself, and the two zeros are equal. -/
def sameDatum : Number.Datum → Number.Datum → Bool
  | .nan, _ | _, .nan => false
  | .finite _ 0 _, .finite _ 0 _ => true
  | a, b => a == b

mutual
/-- Equality of values, with floats compared as numbers. -/
def same : Value → Value → Bool
  | nil, nil => true
  | bool a, bool b => a == b
  | int a, int b => a == b
  | float32 a, float32 b => sameDatum (Number.Binary.ofBits32 a) (Number.Binary.ofBits32 b)
  | float64 a, float64 b => sameDatum (Number.Binary.ofBits a) (Number.Binary.ofBits b)
  | str a, str b => a == b
  | rawStr a, rawStr b => a == b
  | bin a, bin b => a == b
  | array a, array b => sameItems a b
  | map a, map b => sameEntries a b
  | ext s a, ext t b => s == t && a == b
  | _, _ => false

def sameItems : List Value → List Value → Bool
  | [], [] => true
  | a :: as, b :: bs => a.same b && sameItems as bs
  | _, _ => false

def sameEntries : List (Value × Value) → List (Value × Value) → Bool
  | [], [] => true
  | (k, v) :: as, (l, w) :: bs => k.same l && v.same w && sameEntries as bs
  | _, _ => false
end

end Value
end LiveTail.MessagePack
