/-! Base64 with the standard alphabet and padding.

Three bytes become four symbols; the last group is padded with `=` and its unused
bits are zero. `decode` accepts exactly what `encode` writes and says what is
wrong with anything else. -/
namespace LiveTail.Base64

/-- Why some text is not Base64; offsets and lengths count bytes. -/
inductive DecodeError where
  | badSymbol (byte offset : Nat)
  | badLastSymbol (byte offset : Nat)
  | badLength (symbols : Nat)
  | badPadding
deriving DecidableEq, Repr

def DecodeError.message : DecodeError → String
  | badSymbol byte offset =>
    "Invalid symbol " ++ toString byte ++ ", offset " ++ toString offset ++ "."
  | badLastSymbol byte offset =>
    "Invalid last symbol " ++ toString byte ++ ", offset " ++ toString offset ++ "."
  | badLength symbols => "Invalid input length: " ++ toString symbols
  | badPadding => "Invalid padding"

/-- The symbol of six bits. -/
def symbol (n : Nat) : UInt8 :=
  if n < 26 then UInt8.ofNat (65 + n)
  else if n < 52 then UInt8.ofNat (97 + (n - 26))
  else if n < 62 then UInt8.ofNat (48 + (n - 52))
  else if n = 62 then 43
  else 47

/-- The six bits of a symbol. -/
def bits? (b : UInt8) : Option Nat :=
  let n := b.toNat
  if 65 ≤ n ∧ n ≤ 90 then some (n - 65)
  else if 97 ≤ n ∧ n ≤ 122 then some (n - 97 + 26)
  else if 48 ≤ n ∧ n ≤ 57 then some (n - 48 + 52)
  else if n = 43 then some 62
  else if n = 47 then some 63
  else none

def pad : UInt8 := 61

def encode : List UInt8 → List UInt8
  | [] => []
  | [a] => [symbol (a.toNat / 4), symbol (a.toNat % 4 * 16), pad, pad]
  | [a, b] =>
    [symbol (a.toNat / 4), symbol (a.toNat % 4 * 16 + b.toNat / 16),
      symbol (b.toNat % 16 * 4), pad]
  | a :: b :: c :: rest =>
    symbol (a.toNat / 4) :: symbol (a.toNat % 4 * 16 + b.toNat / 16)
      :: symbol (b.toNat % 16 * 4 + c.toNat / 64) :: symbol (c.toNat % 64) :: encode rest

/-- The bytes of four symbols. -/
def triple (a b c d : Nat) : List UInt8 :=
  [UInt8.ofNat (a * 4 + b / 16), UInt8.ofNat (b % 16 * 16 + c / 4),
    UInt8.ofNat (c % 4 * 64 + d)]

/-- The symbols of the last group and the number of pads after them. A symbol
after a pad is blamed on the first pad. -/
def lastSymbols (offset : Nat) (firstPad : Option Nat) :
    List UInt8 → Except DecodeError (List Nat × Nat)
  | [] => .ok ([], 0)
  | b :: rest =>
    if b = pad then
      if offset % 4 < 2 then .error (.badSymbol b.toNat offset)
      else do
        let (symbols, pads) ← lastSymbols (offset + 1) (some (firstPad.getD offset)) rest
        return (symbols, pads + 1)
    else
      match firstPad with
      | some first => .error (.badSymbol pad.toNat first)
      | none =>
        match bits? b with
        | none => .error (.badSymbol b.toNat offset)
        | some n => do
          let (symbols, pads) ← lastSymbols (offset + 1) none rest
          return (n :: symbols, pads)

/-- The bytes of the last group from its symbols and the number of pads. -/
def lastBytes (offset : Nat) (group : List UInt8) (symbols : List Nat) (pads : Nat) :
    Except DecodeError (List UInt8) :=
  let last := (group.getD (symbols.length - 1) 0).toNat
  let blame := DecodeError.badLastSymbol last (offset + symbols.length - 1)
  if group.isEmpty then .ok []
  else if symbols.length < 2 then .error (.badLength (offset + symbols.length))
  else if (symbols.length + pads) % 4 ≠ 0 then .error .badPadding
  else
    match symbols with
    | [a, b] => if b % 16 = 0 then .ok ((triple a b 0 0).take 1) else .error blame
    | [a, b, c] => if c % 4 = 0 then .ok ((triple a b c 0).take 2) else .error blame
    | [a, b, c, d] => .ok (triple a b c d)
    | _ => .ok []

/-- The last group, complete or not. -/
def decodeLast (offset : Nat) (group : List UInt8) : Except DecodeError (List UInt8) := do
  let (symbols, pads) ← lastSymbols offset none group
  lastBytes offset group symbols pads

/-- The six bits of a symbol in a group that is not the last. -/
def inner (b : UInt8) (offset : Nat) : Except DecodeError Nat :=
  match bits? b with
  | some n => .ok n
  | none => .error (.badSymbol b.toNat offset)

/-- Groups from `offset` on, after the bytes of the groups in `front`, last first. -/
def groups (front : List UInt8) (offset : Nat) :
    List UInt8 → Except DecodeError (List UInt8)
  | a :: b :: c :: d :: e :: rest => do
    let bytes := triple (← inner a offset) (← inner b (offset + 1)) (← inner c (offset + 2))
      (← inner d (offset + 3))
    groups (bytes.reverse ++ front) (offset + 4) (e :: rest)
  | group => return front.reverse ++ (← decodeLast offset group)

/-- Decodes a text. One symbol too many at the end is reported first if it is
none. -/
def decode (text : List UInt8) : Except DecodeError (List UInt8) :=
  match text.getLast? with
  | some last =>
    if text.length % 4 = 1 ∧ last ≠ pad ∧ (bits? last).isNone then
      .error (.badSymbol last.toNat (text.length - 1))
    else groups [] 0 text
  | none => .ok []

end LiveTail.Base64
