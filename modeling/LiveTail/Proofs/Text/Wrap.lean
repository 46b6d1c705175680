import LiveTail.Text.Wrap
import Mathlib.Algebra.Order.BigOperators.Group.List
import Mathlib.Algebra.Order.Group.Nat
import Mathlib.Order.Bounds.Basic

/-! Wrapped lines lose nothing, fit the width, and are as few as can be.

A line ends only where the next character has no room on it (`Overflows`). So after any number
of lines no cut into pieces that fit has got further, and none is done with fewer
(`length_le_of_overflows`). A character that is wider than a whole line has no room anywhere; it
is then the only one of its line that takes a column, and ends it. All of this holds whatever
the columns of a character are. -/
namespace LiveTail.Text

/-! ### What is shown of a text -/

/-- The pieces of a text between its newlines. -/
theorem segments_eq (text : List Char) : segments text = text.splitOn '\n' := by
  induction text with
  | nil => rfl
  | cons c rest ih =>
    rw [segments, List.splitOn, List.splitOnP_cons_eq_if_modifyHead, ← List.splitOn, ← ih]
    by_cases hnewline : c = '\n'
    · rw [if_pos hnewline, if_pos (beq_iff_eq.mpr hnewline)]
    · rw [if_neg hnewline, if_neg (beq_iff_eq.not.mpr hnewline)]
      obtain ⟨s, others, hs⟩ : ∃ s others, segments rest = s :: others := by
        rw [ih]
        exact List.exists_cons_of_ne_nil (List.splitOnP_ne_nil _ rest)
      rw [hs]
      rfl

/-- Four spaces stand between the pieces that tabs stand between. -/
theorem expandTabs_eq (s : List Char) :
    expandTabs s = [' ', ' ', ' ', ' '].intercalate (s.splitOn '\t') := by
  induction s with
  | nil => rfl
  | cons c rest ih =>
    obtain ⟨piece, others, hpieces⟩ : ∃ piece others, rest.splitOn '\t' = piece :: others :=
      List.exists_cons_of_ne_nil (List.splitOnP_ne_nil _ rest)
    rw [expandTabs, List.flatMap_cons, ← expandTabs, ih, hpieces, List.splitOn,
      List.splitOnP_cons_eq_if_modifyHead, ← List.splitOn, hpieces]
    by_cases htab : c = '\t'
    · rw [if_pos htab, if_pos (beq_iff_eq.mpr htab), List.intercalate_cons_cons]
      rfl
    · rw [if_neg htab, if_neg (beq_iff_eq.not.mpr htab), List.modifyHead_cons]
      cases others with
      | nil => simp only [List.intercalate_singleton, List.singleton_append]
      | cons next others =>
        simp only [List.intercalate_cons_cons, List.cons_append, List.nil_append]

/-- A carriage return at the end of a segment is left out, one of them, and then a tab is
shown as four spaces. -/
def Shows (s shown : List Char) : Prop :=
  ∃ body, (s = body ++ ['\r'] ∨ s = body ∧ s.getLast? ≠ some '\r') ∧
    shown = [' ', ' ', ' ', ' '].intercalate (body.splitOn '\t')

theorem shows_expandTabs (s : List Char) : Shows s (expandTabs (dropReturn s)) := by
  refine ⟨dropReturn s, ?_, expandTabs_eq _⟩
  unfold dropReturn
  split
  next hlast => exact .inl (List.dropLast_append_getLast? _ hlast).symm
  next hlast => exact .inr ⟨rfl, hlast⟩

section Spans
variable (span : Char → Nat)

/-! ### Columns -/

/-- The columns of characters taken one by one. -/
def columnsOf (cs : List Char) : Nat := (cs.map span).sum

@[simp] theorem columnsOf_append (front back : List Char) :
    columnsOf span (front ++ back) = columnsOf span front + columnsOf span back := by
  rw [columnsOf, List.map_append, List.sum_append]
  rfl

@[simp] theorem columnsOf_singleton (c : Char) : columnsOf span [c] = span c := by
  simp [columnsOf]

theorem columnsOf_le_of_prefix {front whole : List Char} (h : front <+: whole) :
    columnsOf span front ≤ columnsOf span whole := by
  obtain ⟨back, rfl⟩ := h
  rw [columnsOf_append]
  exact Nat.le_add_right _ _

/-- Characters that take no column together take none each. -/
theorem span_of_columnsOf {front : List Char} (h : columnsOf span front = 0) :
    ∀ c ∈ front, span c = 0 := by
  intro c hc
  exact List.sum_eq_zero_iff.mp h (span c) (List.mem_map_of_mem hc)

/-! ### What lines have to be -/

/-- A line is within the width, or ends with a character that is wider than that, behind others
that take no column. -/
def Fits (width : Nat) (line : List Char) : Prop :=
  columnsOf span line ≤ width ∨
    ∃ front c, line = front ++ [c] ∧ width < span c ∧ ∀ d ∈ front, span d = 0

/-- A line has no room for the first character of the next one. -/
def Overflows (width : Nat) (line next : List Char) : Prop :=
  ∃ c rest, next = c :: rest ∧ width < columnsOf span line + span c

/-- A text cut into pieces that are within the width. -/
structure Cut (width : Nat) (text : List Char) (pieces : List (List Char)) : Prop where
  some : pieces ≠ []
  whole : pieces.flatten = text
  fits : ∀ p ∈ pieces, columnsOf span p ≤ width

/-- What the lines of a segment have to be. -/
structure Wraps (width : Nat) (s : List Char) (lines : List (List Char)) : Prop where
  some : lines ≠ []
  whole : Shows s lines.flatten
  fits : ∀ line ∈ lines, Fits span width line
  /-- If no character takes more than two columns, a line is too long only where the width is a
  single one, and holds nothing wide but one character of two columns. -/
  narrow : (∀ c ∈ lines.flatten, span c ≤ 2) → ∀ line ∈ lines, columnsOf span line ≤ width ∨
    (width = 1 ∧ ∃ front c, line = front ++ [c] ∧ span c = 2 ∧ ∀ d ∈ front, span d = 0)
  greedy : lines.IsChain (Overflows span width)
  /-- If every character has room on a line, no cut has fewer pieces. -/
  fewest : (∀ c ∈ lines.flatten, span c ≤ width) →
    IsLeast {n | ∃ pieces, Cut span width lines.flatten pieces ∧ pieces.length = n} lines.length

/-! ### Filling lines -/

section Fill
variable {width : Nat} {line : List Char} {used : Nat}

/-- What is on the line stays at the front of the lines. -/
theorem fill_head (width : Nat) (line : List Char) (used : Nat) (s : List Char) :
    ∃ more others, fill span width line used s = (line.reverse ++ more) :: others := by
  induction s generalizing line used with
  | nil => exact ⟨[], [], by rw [fill, List.append_nil]⟩
  | cons c rest ih =>
    rw [fill]
    split
    · exact ⟨[], _, by rw [List.append_nil]⟩
    · obtain ⟨more, others, h⟩ := ih (c :: line) (used + span c)
      exact ⟨c :: more, others, by rw [h, List.reverse_cons, List.append_assoc]; rfl⟩

/-- A character that is put on a line fits there, or is the first on it to take a column. -/
theorem fits_push {front : List Char} {c : Char}
    (h : ¬(width < columnsOf span front + span c ∧ 0 < columnsOf span front)) :
    Fits span width (front ++ [c]) := by
  rcases Nat.eq_zero_or_pos (columnsOf span front) with hzero | hpos
  · rcases Nat.lt_or_ge width (span c) with hwide | hroom
    · exact .inr ⟨front, c, rfl, hwide, span_of_columnsOf span hzero⟩
    · left
      rwa [columnsOf_append, columnsOf_singleton, hzero, Nat.zero_add]
  · left
    rw [columnsOf_append, columnsOf_singleton]
    omega

theorem fits_fill (s : List Char) (hline : Fits span width line.reverse)
    (hused : used = columnsOf span line.reverse) :
    ∀ l ∈ fill span width line used s, Fits span width l := by
  induction s generalizing line used with
  | nil => simpa [fill] using hline
  | cons c rest ih =>
    rw [fill]
    split
    next =>
      have hnothing : ¬(width < columnsOf span [] + span c ∧ 0 < columnsOf span []) :=
        fun h => Nat.lt_irrefl 0 h.2
      have hnext : Fits span width ([c] : List Char).reverse := fits_push span hnothing
      rw [List.forall_mem_cons]
      exact ⟨hline, ih hnext (columnsOf_singleton span c).symm⟩
    next hroom =>
      rw [hused] at hroom
      refine ih ?_ ?_
      · rw [List.reverse_cons]
        exact fits_push span hroom
      · rw [List.reverse_cons, columnsOf_append, columnsOf_singleton, hused]

theorem greedy_fill (s : List Char) (hused : used = columnsOf span line.reverse) :
    (fill span width line used s).IsChain (Overflows span width) := by
  induction s generalizing line used with
  | nil => exact .singleton _
  | cons c rest ih =>
    rw [fill]
    split
    next hfull =>
      have hchain : (fill span width [c] (span c) rest).IsChain (Overflows span width) :=
        ih (columnsOf_singleton span c).symm
      obtain ⟨more, others, hhead⟩ := fill_head span width [c] (span c) rest
      rw [hhead] at hchain ⊢
      refine List.isChain_cons_cons.mpr ⟨⟨c, more, rfl, ?_⟩, hchain⟩
      rw [← hused]
      exact hfull.1
    next =>
      refine ih ?_
      rw [List.reverse_cons, columnsOf_append, columnsOf_singleton, hused]

end Fill

/-! ### No cut has fewer pieces -/

/-- A piece that fits does not reach past a line that is full. -/
theorem length_le_of_full {width : Nat} {front line piece back rest : List Char} {c : Char}
    (hfits : columnsOf span piece ≤ width) (hfull : width < columnsOf span line + span c)
    (h : front ++ line ++ c :: back = piece ++ rest) : piece.length ≤ (front ++ line).length := by
  rw [← Nat.not_lt]
  intro hlong
  have hprefix : front ++ line ++ [c] <+: piece := by
    have hfront : front ++ line ++ [c] <+: piece ++ rest := by
      rw [← h]
      exact ⟨back, by simp⟩
    refine List.prefix_of_prefix_length_le hfront (List.prefix_append ..) ?_
    rw [List.length_append]
    exact hlong
  have hle := columnsOf_le_of_prefix span hprefix
  rw [columnsOf_append, columnsOf_append, columnsOf_singleton] at hle
  omega

/-- Pieces that have not got further than the lines are no fewer than these. -/
theorem length_le_of_overflows {width : Nat} {lines pieces : List (List Char)}
    (hgreedy : lines.IsChain (Overflows span width)) (hsome : pieces ≠ [])
    (hfits : ∀ p ∈ pieces, columnsOf span p ≤ width) (h : lines.flatten <:+ pieces.flatten) :
    lines.length ≤ pieces.length := by
  induction lines generalizing pieces with
  | nil => exact Nat.zero_le _
  | cons line rest ih =>
    obtain ⟨p, ps, rfl⟩ := List.exists_cons_of_ne_nil hsome
    cases rest with
    | nil => exact Nat.succ_le_succ (Nat.zero_le _)
    | cons next others =>
      obtain ⟨⟨c, back, rfl, hfull⟩, hgreedy⟩ := List.isChain_cons_cons.mp hgreedy
      obtain ⟨front, hfront⟩ := h
      rw [List.flatten_cons, ← List.append_assoc] at hfront
      have hpiece : p.length ≤ (front ++ line).length :=
        length_le_of_full span (hfits p (List.mem_cons_self ..)) hfull hfront
      -- What is behind the piece still holds the lines behind the full one.
      have hrest : ((c :: back) :: others).flatten <:+ ps.flatten := by
        refine List.suffix_of_suffix_length_le ⟨front ++ line, hfront⟩ (List.suffix_append ..) ?_
        have hlength : (front ++ line).length + ((c :: back) :: others).flatten.length =
            p.length + ps.flatten.length := by
          rw [← List.length_append, hfront, List.flatten_cons, List.length_append]
        omega
      have hmore : ps ≠ [] := by
        rintro rfl
        simp at hrest
      exact Nat.succ_le_succ
        (ih hgreedy hmore (fun q hq => hfits q (List.mem_cons_of_mem p hq)) hrest)

/-- Of two columns at most, a character is wider than a line only if that has a single one. -/
theorem Fits.narrow {width : Nat} (hwidth : 1 ≤ width) {line : List Char}
    (h : Fits span width line) (htwo : ∀ c ∈ line, span c ≤ 2) :
    columnsOf span line ≤ width ∨
      (width = 1 ∧ ∃ front c, line = front ++ [c] ∧ span c = 2 ∧ ∀ d ∈ front, span d = 0) := by
  refine h.imp_right ?_
  rintro ⟨front, c, rfl, hwide, hfront⟩
  have hc : span c ≤ 2 := htwo c (by simp)
  exact ⟨by omega, front, c, rfl, by omega, hfront⟩

/-- A line whose characters all have room is within the width. -/
theorem Fits.within {width : Nat} {line : List Char} (h : Fits span width line)
    (hroom : ∀ c ∈ line, span c ≤ width) : columnsOf span line ≤ width := by
  refine h.resolve_right ?_
  rintro ⟨front, c, rfl, hwide, -⟩
  exact Nat.not_le.mpr hwide (hroom c (by simp))

theorem wraps_wrapSegment (width : Nat) (s : List Char) :
    Wraps span (max width 1) s (wrapSegment span width s) := by
  have hwhole : (wrapSegment span width s).flatten = expandTabs (dropReturn s) :=
    flatten_fill span _ [] 0 _
  have hsome : wrapSegment span width s ≠ [] := fill_ne_nil span _ [] 0 _
  have hfits : ∀ l ∈ wrapSegment span width s, Fits span (max width 1) l :=
    fits_fill span _ (.inl (Nat.zero_le _)) rfl
  have hgreedy : (wrapSegment span width s).IsChain (Overflows span (max width 1)) :=
    greedy_fill span _ rfl
  have hmem : ∀ l ∈ wrapSegment span width s, ∀ c ∈ l, c ∈ (wrapSegment span width s).flatten :=
    fun l hl c hc => List.mem_flatten_of_mem hl hc
  generalize wrapSegment span width s = lines at *
  constructor
  case some => exact hsome
  case whole =>
    rw [hwhole]
    exact shows_expandTabs s
  case fits => exact hfits
  case narrow =>
    intro htwo l hl
    exact (hfits l hl).narrow span (Nat.le_max_right width 1) fun c hc => htwo c (hmem l hl c hc)
  case greedy => exact hgreedy
  case fewest =>
    intro hroom
    constructor
    · refine ⟨lines, ⟨hsome, rfl, fun l hl => ?_⟩, rfl⟩
      exact (hfits l hl).within span fun c hc => hroom c (hmem l hl c hc)
    · rintro n ⟨pieces, hcut, rfl⟩
      have hsuffix : lines.flatten <:+ pieces.flatten := hcut.whole ▸ List.suffix_rfl
      exact length_le_of_overflows span hgreedy hcut.some hcut.fits hsuffix

/-- **Wrapping loses nothing, keeps to the width and takes the fewest lines**, whatever the
columns of a character are. The lines are those of one segment after the other. Together they
show the segment; none of them is too long, but for a character that has no room on any line;
and each has no room for what begins the next one. -/
theorem wraps_wrap (width : Nat) (text : List Char) :
    wrapBy span width text = (text.splitOn '\n').flatMap (wrapSegment span width) ∧
      ∀ s ∈ text.splitOn '\n', Wraps span (max width 1) s (wrapSegment span width s) := by
  constructor
  · rw [wrapBy, segments_eq]
  · intro s _
    exact wraps_wrapSegment span width s

end Spans

/-- A tab is cut, and a carriage return is no character of the line before the newline. -/
theorem wraps_wrap_tab :
    wrap 3 ['a', '\t', 'b', '\r', '\n', 'c'] = [['a', ' ', ' '], [' ', ' ', 'b'], ['c']] ∧
      IsLeast {n | ∃ pieces, Cut columns 3 ['a', ' ', ' ', ' ', ' ', 'b'] pieces ∧
        pieces.length = n} 2 := by
  obtain ⟨hwrap, hwraps⟩ := wraps_wrap columns 3 ['a', '\t', 'b', '\r', '\n', 'c']
  have hsegments : ['a', '\t', 'b', '\r', '\n', 'c'].splitOn '\n' =
      [['a', '\t', 'b', '\r'], ['c']] := by decide +kernel
  have hfront : wrapSegment columns 3 ['a', '\t', 'b', '\r'] =
      [['a', ' ', ' '], [' ', ' ', 'b']] := by decide +kernel
  have hlast : wrapSegment columns 3 ['c'] = [['c']] := by decide +kernel
  have hroom : [['a', ' ', ' '], [' ', ' ', 'b']].flatten.all (columns · ≤ 3) = true := by
    decide +kernel
  rw [hsegments] at hwrap hwraps
  have hfewest := (hwraps _ (List.mem_cons_self ..)).fewest
  rw [hfront] at hfewest
  constructor
  · rw [wrap, hwrap, List.flatMap_cons, List.flatMap_cons, hfront, hlast]
    rfl
  · exact hfewest fun c hc => of_decide_eq_true (List.all_eq_true.mp hroom c hc)

/-- A Khmer sign of three columns has no room in two. -/
example : wrap 2 ['\u17d8', 'a'] = [['\u17d8'], ['a']] ∧ columns '\u17d8' = 3 := by
  decide +kernel

end LiveTail.Text
