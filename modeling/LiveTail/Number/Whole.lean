/-! Whole numbers, as words of 64 bits and as bytes.

Counts, offsets and sequence numbers are 64-bit words. They are held as natural numbers; the
operations that could leave the range stop at `limit` instead. Bytes are the base-256 digits of
a number, the most or the least significant first. -/
namespace LiveTail

-- The powers and the zero of whole numbers are the core ones, also where an algebra library in
-- scope has its own: what is written here means the same wherever it is read.

@[default_instance 20000]
instance (priority := 2000) powNat : Pow Nat Nat := instPowNat

@[default_instance 20000]
instance (priority := 2000) powInt : Pow Int Nat := instPowNat

instance (priority := 2000) zeroNat : Zero Nat := Zero.ofOfNat0

instance (priority := 2000) zeroInt : Zero Int := Zero.ofOfNat0

/-! ### Words -/

namespace Word

/-- The largest 64-bit word. -/
def limit : Nat := 2 ^ 64 - 1

/-- Addition that stops at `limit`. -/
def add (a b : Nat) : Nat := min (a + b) limit

/-- A signed step that stops at zero and at `limit`. -/
def move (a : Nat) (delta : Int) : Nat := min (a + delta).toNat limit

theorem add_eq {a b : Nat} (h : a + b ≤ limit) : add a b = a + b := Nat.min_eq_left h

end Word

/-! ### Bytes -/

namespace Bytes

/-- The last `width` base-256 digits of `n`, the most significant first. -/
def big : Nat → Nat → List UInt8
  | 0, _ => []
  | width + 1, n => UInt8.ofNat (n / 256 ^ width) :: big width n

def ofBig (bytes : List UInt8) : Nat := bytes.foldl (fun n b => 256 * n + b.toNat) 0

/-- The last `width` base-256 digits of `n`, the least significant first. -/
def little : Nat → Nat → List UInt8
  | 0, _ => []
  | width + 1, n => UInt8.ofNat n :: little width (n / 256)

def ofLittle : List UInt8 → Nat
  | [] => 0
  | b :: rest => b.toNat + 256 * ofLittle rest

/-- Reads a number of `width` bytes as two's complement. -/
def signed (width n : Nat) : Int :=
  if 2 * n < 256 ^ width then n else (n : Int) - 256 ^ width

/-- The two's complement of an integer in `width` bytes. -/
def unsigned (width : Nat) (i : Int) : Nat := (i % 256 ^ width).toNat

@[simp] theorem length_big (width n : Nat) : (big width n).length = width := by
  induction width with
  | zero => rfl
  | succ width ih => simp [big, ih]

@[simp] theorem length_little (width n : Nat) : (little width n).length = width := by
  induction width generalizing n with
  | zero => rfl
  | succ width ih => simp [little, ih]

theorem foldl_big (width n a : Nat) :
    (big width n).foldl (fun n b => 256 * n + b.toNat) a = a * 256 ^ width + n % 256 ^ width := by
  induction width generalizing a with
  | zero => simp [big, Nat.mod_one]
  | succ width ih =>
    simp only [big, List.foldl_cons, ih, UInt8.toNat_ofNat']
    have hm : n % 256 ^ (width + 1) = 256 ^ width * (n / 256 ^ width % 256) + n % 256 ^ width := by
      rw [Nat.pow_succ, Nat.mod_mul]
      omega
    rw [hm, Nat.pow_succ]
    grind

theorem ofBig_big {width n : Nat} (h : n < 256 ^ width) : ofBig (big width n) = n := by
  simp [ofBig, foldl_big, Nat.mod_eq_of_lt h]

theorem ofLittle_little {width n : Nat} (h : n < 256 ^ width) : ofLittle (little width n) = n := by
  induction width generalizing n with
  | zero => simp_all [little, ofLittle]
  | succ width ih =>
    have : n / 256 < 256 ^ width := Nat.div_lt_of_lt_mul (by rwa [Nat.pow_succ'] at h)
    simp only [little, ofLittle, ih this, UInt8.toNat_ofNat']
    omega

end Bytes
end LiveTail
