import LiveTail.Wire.Frame

/-! Random names for clients that have none: 32 hexadecimal digits in five groups.

Six bits of a token tell that the rest is random; a name is never empty. -/
namespace LiveTail.ClientId

def hexPair (b : UInt8) : List Char :=
  [Nat.digitChar (b.toNat / 16), Nat.digitChar (b.toNat % 16)]

/-- The digits of a random identifier. -/
def digits (t : Token) : List Char :=
  let bytes := (t.bytes.modify 6 fun b => b &&& 0x0F ||| 0x40).modify 8 fun b => b &&& 0x3F ||| 0x80
  bytes.flatMap hexPair

/-- The name of a client that takes its bits from a token. -/
def ofToken (t : Token) : ClientId where
  text :=
    let ds := digits t
    String.ofList (ds.take 8 ++ '-' :: (ds.drop 8).take 4 ++ '-' :: (ds.drop 12).take 4 ++
      '-' :: (ds.drop 16).take 4 ++ '-' :: ds.drop 20)
  nonempty := by simp

end LiveTail.ClientId
