import LiveTail.Json.Reader
import LiveTail.Json.Writer
import LiveTail.Proofs.Dictionary
import LiveTail.Proofs.Number.Numeral
import Mathlib.Data.List.Forall2

/-! JSON is read back as it was written.

Strings come first, character by character, then whole numbers, then pieces between
commas. Floats are left out: a value without them reads back within the nesting
allowed, whatever follows it, as long as that does not continue a number. -/
namespace LiveTail.Json
open Number

mutual
/-- Whether a value is read back exactly: it has no floats, its numbers fit 64 bits
and the entries of its objects are in order. -/
def Plain : Json → Prop
  | .null | .bool _ | .str _ => True
  | .int n => -2 ^ 63 ≤ n ∧ n < 2 ^ 64
  | .float _ => False
  | .array items => PlainItems items
  | .object entries => Entries.Ordered entries ∧ PlainEntries entries

def PlainItems : List Json → Prop
  | [] => True
  | v :: rest => v.Plain ∧ PlainItems rest

def PlainEntries : List (String × Json) → Prop
  | [] => True
  | (_, v) :: rest => v.Plain ∧ PlainEntries rest
end

mutual
/-- How many arrays and objects are nested in one another. -/
def depth : Json → Nat
  | .array items => depthItems items + 1
  | .object entries => depthEntries entries + 1
  | _ => 0

def depthItems : List Json → Nat
  | [] => 0
  | v :: rest => max v.depth (depthItems rest)

def depthEntries : List (String × Json) → Nat
  | [] => 0
  | (_, v) :: rest => max v.depth (depthEntries rest)
end

namespace Reader

/-! ### Strings -/

theorem hexDigit?_hexChar {n : Nat} (h : n < 16) : hexDigit? (Writer.hexChar n) = some n := by
  have key : ∀ n : Fin 16, hexDigit? (Writer.hexChar n) = some n.1 := by decide
  exact key ⟨n, h⟩

theorem unit?_control {n : Nat} (h : n < 0x20) :
    unit? '0' '0' (Writer.hexChar (n / 16)) (Writer.hexChar (n % 16)) = some n := by
  have hzero : hexDigit? '0' = some 0 := rfl
  rw [unit?, hzero, hexDigit?_hexChar (by omega), hexDigit?_hexChar (by omega)]
  show some (4096 * 0 + 256 * 0 + 16 * (n / 16) + n % 16) = some n
  congr 1
  omega

/-- An escaped unit that is no half of a pair, whatever comes after it. -/
theorem stringFrom_unit {a b c d : Char} {n : Nat} (h : unit? a b c d = some n) (hn : n < 0x20)
    (front rest : List Char) :
    stringFrom front ('\\' :: 'u' :: a :: b :: c :: d :: rest) =
      stringFrom (Char.ofNat n :: front) rest := by
  have hhigh : isHigh n = false := by
    rw [isHigh, Bool.and_eq_false_iff, decide_eq_false_iff_not]
    omega
  have hlow : isLow n = false := by
    rw [isLow, Bool.and_eq_false_iff, decide_eq_false_iff_not]
    omega
  by_cases hpair : ∃ e f g i tail, rest = '\\' :: 'u' :: e :: f :: g :: i :: tail
  · obtain ⟨e, f, g, i, tail, rfl⟩ := hpair
    rw [stringFrom.eq_3, h]
    simp [hhigh, hlow]
  · rw [stringFrom.eq_4 _ _ _ _ _ _ fun e f g i tail heq => hpair ⟨e, f, g, i, tail, heq⟩, h]
    simp [hhigh, hlow]

/-- A backslash and a character that is not `u`. -/
theorem stringFrom_short {c d : Char} (h : escape? c = some d) (front rest : List Char) :
    stringFrom front ('\\' :: c :: rest) = stringFrom (d :: front) rest := by
  have hu : c ≠ 'u' := by
    rintro rfl
    cases h
  rw [stringFrom.eq_5 _ _ _ (fun _ _ _ _ _ _ _ _ _ hc => absurd hc hu)
    (fun _ _ _ _ _ hc => absurd hc hu), h]

theorem stringFrom_plain {c : Char} (hquote : c ≠ '"') (hslash : c ≠ '\\')
    (h : 0x20 ≤ c.toNat) (front rest : List Char) :
    stringFrom front (c :: rest) = stringFrom (c :: front) rest := by
  rw [stringFrom.eq_6 _ _ _ hquote (fun _ _ _ _ _ _ _ _ _ hc => absurd hc hslash)
    (fun _ _ _ _ _ hc => absurd hc hslash) (fun _ _ hc => absurd hc hslash),
    if_neg (Nat.not_lt.mpr h)]

theorem stringFrom_escape (c : Char) (front rest : List Char) :
    stringFrom front (Writer.escape c ++ rest) = stringFrom (c :: front) rest := by
  fun_cases Writer.escape c
  case case3 hquote hslash h => exact stringFrom_plain hquote hslash h front rest
  case case9 =>
    have hn : c.toNat < 0x20 := by omega
    have hunit := stringFrom_unit (unit?_control hn) hn front rest
    rwa [Char.ofNat_toNat] at hunit
  -- The others have a short form.
  all_goals
    subst c
    exact stringFrom_short rfl front rest

theorem stringFrom_escapes (text front rest : List Char) :
    stringFrom front (text.flatMap Writer.escape ++ '"' :: rest) =
      some (front.reverse ++ text, rest) := by
  induction text generalizing front with
  | nil => simp [stringFrom]
  | cons c text ih =>
    rw [List.flatMap_cons, List.append_assoc, stringFrom_escape, ih]
    simp

theorem string_write (s : String) (rest : List Char) :
    string (Writer.string s ++ rest) = some (s, rest) := by
  have h := stringFrom_escapes s.toList [] rest
  simp [Writer.string, string, h]

/-! ### Whole numbers -/

/-- The text does not go on with what could belong to a number. -/
def Stops (text : List Char) : Prop :=
  ∀ c, text.head? = some c → c.isDigit = false ∧ c ≠ '.' ∧ c ≠ 'e' ∧ c ≠ 'E'

theorem stops_cons {c : Char} (h : c = ',' ∨ c = ']' ∨ c = '\x7d') (rest : List Char) :
    Stops (c :: rest) := by
  intro d hd
  cases hd
  rcases h with rfl | rfl | rfl <;> decide

theorem whole_digits (n : Nat) {rest : List Char} (h : Stops rest) :
    whole (Numeral.digits n ++ rest) = some (Numeral.digits n, rest) := by
  have hspan := Numeral.span_of_digits (fun c hc => Numeral.isDigit_of_mem_digits (n := n) hc)
    fun c hc => (h c hc).1
  rw [whole, hspan]
  split
  next heq => exact absurd (Prod.mk.inj heq).1 (Numeral.digits_ne_nil n)
  next heq =>
    have hzero := Numeral.eq_zero_of_digits (Prod.mk.inj heq).1
    rw [hzero, Numeral.digits_zero] at heq
    cases heq
  next heq =>
    obtain ⟨rfl, rfl⟩ := Prod.mk.inj heq
    rfl

theorem places_stops {rest : List Char} (h : Stops rest) : places rest = some ([], rest) := by
  unfold places
  split
  next => exact absurd rfl (h '.' rfl).2.1
  next => rfl

theorem exponent_stops {rest : List Char} (h : Stops rest) :
    exponent rest = some (none, rest) := by
  cases rest with
  | nil => rfl
  | cons c rest =>
    obtain ⟨-, -, hlower, hupper⟩ := h c rfl
    rw [exponent, if_neg (by simp [hlower, hupper])]

/-- A number begins with a digit or a minus sign. -/
theorem head_digits (n : Nat) :
    ∃ c rest, Numeral.digits n = c :: rest ∧ c.isDigit = true := by
  cases h : Numeral.digits n with
  | nil => exact absurd h (Numeral.digits_ne_nil n)
  | cons c rest =>
    refine ⟨c, rest, rfl, Numeral.isDigit_of_mem_digits (n := n) ?_⟩
    rw [h]
    exact List.mem_cons_self ..

theorem parts_digits (n : Nat) {rest : List Char} (h : Stops rest) :
    parts (Numeral.digits n ++ rest) = some (⟨false, Numeral.digits n, [], none⟩, rest) := by
  obtain ⟨c, front, hdigits, hc⟩ := head_digits n
  have hsign : ∀ tail, Numeral.digits n ++ rest ≠ '-' :: tail := by
    intro tail heq
    rw [hdigits] at heq
    rw [(List.cons.inj heq).1] at hc
    cases hc
  have hwhole := whole_digits n h
  rw [parts]
  · simp [hwhole, places_stops h, exponent_stops h]
  · exact hsign

theorem parts_negative (n : Nat) {rest : List Char} (h : Stops rest) :
    parts ('-' :: (Numeral.digits n ++ rest)) =
      some (⟨true, Numeral.digits n, [], none⟩, rest) := by
  have hwhole := whole_digits n h
  simp [parts, hwhole, places_stops h, exponent_stops h]

theorem number_write {n : Int} (hlow : -2 ^ 63 ≤ n) (hhigh : n < 2 ^ 64) {rest : List Char}
    (h : Stops rest) : number (Writer.int n ++ rest) = some (.int n, rest) := by
  rw [Writer.int, number]
  split
  next hneg =>
    have hfits : n.natAbs ≠ 0 ∧ n.natAbs ≤ 2 ^ 63 := by omega
    have hsigned : -(n.natAbs : Int) = n := by omega
    have hvalue : Parts.value? ⟨true, Numeral.digits n.natAbs, [], none⟩ = some (.int n) := by
      simp only [Parts.value?, Numeral.value_digits, List.isEmpty_nil, Option.isNone_none, if_true,
        true_and, if_pos hfits, hsigned]
    rw [List.cons_append, parts_negative _ h]
    simp [hvalue]
  next hpos =>
    have hfits : n.toNat < 2 ^ 64 := by omega
    have hsigned : (n.toNat : Int) = n := by omega
    have hvalue : Parts.value? ⟨false, Numeral.digits n.toNat, [], none⟩ = some (.int n) := by
      simp only [Parts.value?, Numeral.value_digits, List.isEmpty_nil, Option.isNone_none,
        Bool.false_eq_true, if_false, true_and, if_pos hfits, hsigned]
    rw [parts_digits _ h]
    simp [hvalue]

/-! ### Pieces between commas -/

/-- A piece of text is read as `a`, whatever follows it. It begins with what is
neither white space nor the end of a collection. -/
structure Reads {α : Type} (item : Scan α) (piece : List Char) (a : α) : Prop where
  starts : ∃ c rest, piece = c :: rest ∧ isBlank c = false ∧ c ≠ ']' ∧ c ≠ '\x7d'
  reads : ∀ rest, Stops rest → item (piece ++ rest) = some (a, rest)

theorem skipBlank_cons {c : Char} (h : isBlank c = false) (rest : List Char) :
    skipBlank (c :: rest) = c :: rest := by
  rw [skipBlank, List.dropWhile_cons_of_neg (by simp [h])]

section Pieces
variable {α : Type} {item : Scan α} {close : Char} {pieces : List (List Char)} {as : List α}

theorem Reads.skipBlank {piece : List Char} {a : α} (h : Reads item piece a) (rest : List Char) :
    skipBlank (piece ++ rest) = piece ++ rest := by
  obtain ⟨c, tail, rfl, hblank, -, -⟩ := h.starts
  exact skipBlank_cons hblank (tail ++ rest)

theorem elements_last (hclose : close = ']' ∨ close = '\x7d') {piece : List Char} {a : α}
    (h : Reads item piece a) (fuel : Nat) (rest : List Char) :
    elements item close (fuel + 1) (piece ++ close :: rest) = some ([a], rest) := by
  have hstops : Stops (close :: rest) := stops_cons (.inr hclose) rest
  rw [elements, h.skipBlank, h.reads _ hstops]
  rcases hclose with rfl | rfl <;> simp [skipBlank_cons, isBlank]

theorem elements_more {piece : List Char} {a : α} (h : Reads item piece a) (fuel : Nat)
    (rest : List Char) :
    elements item close (fuel + 1) (piece ++ ',' :: rest) =
      (elements item close fuel rest).map fun p => (a :: p.1, p.2) := by
  have hstops : Stops (',' :: rest) := stops_cons (.inl rfl) rest
  rw [elements, h.skipBlank, h.reads _ hstops]
  simp [skipBlank_cons, isBlank]

theorem elements_commas (hclose : close = ']' ∨ close = '\x7d')
    (h : List.Forall₂ (Reads item) pieces as) (hsome : pieces ≠ []) {fuel : Nat}
    (hfuel : pieces.length ≤ fuel) (rest : List Char) :
    elements item close fuel (Writer.commas pieces ++ close :: rest) = some (as, rest) := by
  induction h generalizing fuel with
  | nil => contradiction
  | @cons piece a pieces as hpiece hpieces ih =>
    obtain ⟨fuel, rfl⟩ := Nat.exists_eq_add_of_le' (Nat.le_trans (Nat.le_add_left 1 _) hfuel)
    cases hpieces with
    | nil => exact elements_last hclose hpiece fuel rest
    | @cons next b pieces as hnext hmore =>
      have htail := ih (List.cons_ne_nil next pieces) (Nat.le_of_succ_le_succ hfuel)
      rw [Writer.commas, List.append_assoc, List.cons_append, elements_more hpiece, htail]
      · rfl
      · exact List.cons_ne_nil next pieces

/-- There are fewer pieces than characters. -/
theorem length_le_commas (pieces : List (List Char)) :
    pieces.length ≤ (Writer.commas pieces).length + 1 := by
  fun_induction Writer.commas pieces with
  | case1 => exact Nat.zero_le _
  | case2 piece => simp
  | case3 piece rest _ ih =>
    simp only [List.length_cons, List.length_append]
    omega

theorem commas_cons (piece : List Char) (pieces : List (List Char)) :
    ∃ tail, Writer.commas (piece :: pieces) = piece ++ tail := by
  cases pieces with
  | nil => exact ⟨[], (List.append_nil piece).symm⟩
  | cons next rest => exact ⟨',' :: Writer.commas (next :: rest), rfl⟩

theorem sequence_commas (hclose : close = ']' ∨ close = '\x7d')
    (h : List.Forall₂ (Reads item) pieces as) (rest : List Char) :
    sequence item close (Writer.commas pieces ++ close :: rest) = some (as, rest) := by
  have hblank : isBlank close = false := by rcases hclose with rfl | rfl <;> rfl
  cases h with
  | nil =>
    rw [Writer.commas, List.nil_append, sequence, skipBlank_cons hblank]
    exact if_pos rfl
  | @cons piece a pieces as hpiece hpieces =>
    have hcount := length_le_commas (piece :: pieces)
    have hfuel : (piece :: pieces).length ≤
        (Writer.commas (piece :: pieces) ++ close :: rest).length := by
      rw [List.length_append, List.length_cons (a := close)]
      omega
    have helements := elements_commas hclose (.cons hpiece hpieces) (List.cons_ne_nil piece pieces)
      hfuel rest
    obtain ⟨c, tail, hstart, hc, harray, hobject⟩ := hpiece.starts
    obtain ⟨others, hcommas⟩ := commas_cons piece pieces
    have hfirst : Writer.commas (piece :: pieces) ++ close :: rest =
        c :: (tail ++ others ++ close :: rest) := by
      rw [hcommas, hstart]
      rfl
    have hother : c ≠ close := by rcases hclose with rfl | rfl <;> assumption
    rw [hfirst] at helements ⊢
    rw [sequence, skipBlank_cons hc]
    exact (if_neg hother).trans helements

/-- A key and what it calls for. -/
theorem reads_member {value : String → Scan α} {key : String} {text : List Char} {a : α}
    (h : Reads (value key) text a) :
    Reads (member value) (Writer.string key ++ ':' :: text) a := by
  constructor
  · exact ⟨'"', _, rfl, rfl, by decide, by decide⟩
  · intro rest hrest
    have hcolon : isBlank ':' = false := rfl
    rw [member, List.append_assoc, string_write, List.cons_append]
    simp only [Option.bind_eq_bind, Option.bind_some, skipBlank_cons hcolon, h.skipBlank]
    exact h.reads rest hrest

end Pieces

/-! ### Values -/

theorem reads_string (s : String) : Reads string (Writer.string s) s := by
  constructor
  · exact ⟨'"', _, rfl, rfl, by decide, by decide⟩
  · exact fun rest _ => string_write s rest

/-- What begins neither an array nor an object is read alike within any budget. -/
theorem value_scalar {c : Char} (harray : c ≠ '[') (hobject : c ≠ '\x7b') (budget : Nat)
    (rest : List Char) : value budget (c :: rest) = scalar (c :: rest) := by
  rw [value.eq_def]
  split
  next heq => exact absurd (List.cons.inj heq).1 harray
  next heq => exact absurd (List.cons.inj heq).1 hobject
  next => rfl

theorem reads_str (s : String) (budget : Nat) :
    Reads (value budget) (Writer.string s) (.str s) := by
  have h := reads_string s
  refine ⟨h.starts, fun rest hrest => ?_⟩
  have hread := h.reads rest hrest
  rw [Writer.string, List.cons_append, List.cons_append] at hread ⊢
  rw [value_scalar (by decide) (by decide), scalar, hread]
  rfl

/-- The first character of a number. -/
theorem scalar_number {c : Char} (h : c = '-' ∨ c.isDigit = true) (rest : List Char) :
    scalar (c :: rest) = number (c :: rest) := by
  have hquote : c ≠ '"' := by
    rintro rfl
    rcases h with h | h <;> cases h
  rw [scalar.eq_def]
  split
  next heq => exact absurd (List.cons.inj heq).1 hquote
  next heq =>
    obtain ⟨rfl, -⟩ := List.cons.inj heq
    exact if_pos h
  next heq => cases heq

theorem head_int (n : Int) :
    ∃ c rest, Writer.int n = c :: rest ∧ (c = '-' ∨ c.isDigit = true) := by
  rw [Writer.int]
  split
  · exact ⟨'-', _, rfl, .inl rfl⟩
  · obtain ⟨c, rest, h, hc⟩ := head_digits n.toNat
    exact ⟨c, rest, h, .inr hc⟩

theorem reads_int {n : Int} (h : (Json.int n).Plain) (budget : Nat) :
    Reads (value budget) (Writer.int n) (.int n) := by
  obtain ⟨c, tail, hint, hc⟩ := head_int n
  have hother : ∀ d : Char, d ≠ '-' → d.isDigit = false → c ≠ d := by
    rintro d hminus hdigit rfl
    rcases hc with hc | hc
    · exact hminus hc
    · rw [hdigit] at hc
      cases hc
  have hblank : isBlank c = false := by
    simp only [isBlank, Bool.or_eq_false_iff, beq_eq_false_iff_ne]
    exact ⟨⟨⟨hother ' ' (by decide) rfl, hother '\t' (by decide) rfl⟩,
      hother '\n' (by decide) rfl⟩, hother '\r' (by decide) rfl⟩
  constructor
  · exact ⟨c, tail, hint, hblank, hother ']' (by decide) rfl, hother '\x7d' (by decide) rfl⟩
  · intro rest hrest
    have hread := number_write h.1 h.2 hrest
    rw [hint, List.cons_append] at hread ⊢
    rw [value_scalar (hother '[' (by decide) rfl) (hother '\x7b' (by decide) rfl),
      scalar_number hc, hread]

theorem value_array (inner : Nat) (rest : List Char) :
    value (inner + 1) ('[' :: rest) =
      (sequence (value inner) ']' rest).map fun (items, rest) => (.array items, rest) := rfl

theorem value_object (inner : Nat) (rest : List Char) :
    value (inner + 1) ('\x7b' :: rest) =
      (sequence (member fun key text => (value inner text).map fun (v, rest) => ((key, v), rest))
        '\x7d' rest).map fun (entries, rest) => (.ofEntries entries, rest) := rfl

mutual
/-- **A value without floats reads back as written.** -/
theorem reads_value {v : Json} (h : v.Plain) {budget : Nat} (hdepth : v.depth ≤ budget) :
    Reads (value budget) (Writer.value v) v := by
  cases v with
  | null =>
    exact ⟨⟨'n', _, rfl, rfl, by decide, by decide⟩, fun rest _ => by cases budget <;> rfl⟩
  | bool b =>
    cases b with
    | true =>
      exact ⟨⟨'t', _, rfl, rfl, by decide, by decide⟩, fun rest _ => by cases budget <;> rfl⟩
    | false =>
      exact ⟨⟨'f', _, rfl, rfl, by decide, by decide⟩, fun rest _ => by cases budget <;> rfl⟩
  | int n => exact reads_int h budget
  | float bits => exact h.elim
  | str s => exact reads_str s budget
  | array vs =>
    obtain ⟨inner, rfl⟩ := Nat.exists_eq_add_of_le' (Nat.le_trans (Nat.le_add_left 1 _) hdepth)
    have hvs := reads_items h (Nat.le_of_succ_le_succ hdepth)
    refine ⟨⟨'[', _, rfl, rfl, by decide, by decide⟩, fun rest _ => ?_⟩
    rw [Writer.value, List.append_assoc, List.cons_append, value_array, List.singleton_append,
      sequence_commas (.inl rfl) hvs]
    rfl
  | object es =>
    obtain ⟨inner, rfl⟩ := Nat.exists_eq_add_of_le' (Nat.le_trans (Nat.le_add_left 1 _) hdepth)
    have hes := reads_entries h.2 (Nat.le_of_succ_le_succ hdepth)
    refine ⟨⟨'\x7b', _, rfl, rfl, by decide, by decide⟩, fun rest _ => ?_⟩
    rw [Writer.value, List.append_assoc, List.cons_append, value_object, List.singleton_append,
      sequence_commas (.inr rfl) hes]
    simp only [Option.map_some, ofEntries, Entries.ofList_of_ordered h.1]

theorem reads_items {vs : List Json} (h : PlainItems vs) {budget : Nat}
    (hdepth : depthItems vs ≤ budget) :
    List.Forall₂ (Reads (value budget)) (Writer.values vs) vs := by
  cases vs with
  | nil => exact .nil
  | cons v vs =>
    simp only [depthItems] at hdepth
    exact .cons (reads_value h.1 (by omega)) (reads_items h.2 (by omega))

theorem reads_entries {es : List (String × Json)} (h : PlainEntries es) {budget : Nat}
    (hdepth : depthEntries es ≤ budget) :
    List.Forall₂ (Reads (member fun key text =>
      (value budget text).map fun (v, rest) => ((key, v), rest))) (Writer.members es) es := by
  cases es with
  | nil => exact .nil
  | cons e es =>
    obtain ⟨key, v⟩ := e
    simp only [depthEntries] at hdepth
    have hv := reads_value h.1 (show v.depth ≤ budget by omega)
    refine .cons (reads_member ⟨hv.starts, fun rest hrest => ?_⟩) (reads_entries h.2 (by omega))
    rw [hv.reads rest hrest]
    rfl
end

end Reader
end LiveTail.Json
