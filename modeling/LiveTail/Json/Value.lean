import LiveTail.Dictionary

/-! The values of JSON.

A number without fraction and exponent that fits 64 bits, signed or not, is whole;
any other is a float. The entries of an object are in the order of their keys. -/
namespace LiveTail

inductive Json where
  | null
  | bool (b : Bool)
  | int (n : Int)
  | float (bits : UInt64)
  | str (text : String)
  | array (items : List Json)
  | object (entries : List (String × Json))
deriving Repr, Inhabited

namespace Json

mutual
/-- Equality of values; floats are compared by their bits. -/
def beq : Json → Json → Bool
  | null, null => true
  | bool a, bool b => a == b
  | int a, int b => a == b
  | float a, float b => a == b
  | str a, str b => a == b
  | array a, array b => beqItems a b
  | object a, object b => beqEntries a b
  | _, _ => false

def beqItems : List Json → List Json → Bool
  | [], [] => true
  | a :: as, b :: bs => a.beq b && beqItems as bs
  | _, _ => false

def beqEntries : List (String × Json) → List (String × Json) → Bool
  | [], [] => true
  | (k, a) :: as, (l, b) :: bs => k == l && a.beq b && beqEntries as bs
  | _, _ => false
end

instance : BEq Json := ⟨beq⟩

/-- The object of some entries; the last of several under one key stays. -/
def ofEntries (entries : List (String × Json)) : Json := object (Entries.ofList entries)

end Json
end LiveTail
