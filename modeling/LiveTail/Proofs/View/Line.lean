import LiveTail.Proofs.Number.Numeral
import LiveTail.Proofs.Text.Wrap
import LiveTail.View.Line

/-! Colours change nothing of a line.

The parts of a coloured line are as long as the header is before it is wrapped. The line has
been wrapped: its tabs are spaces, and it may end anywhere. But what stands in front of the
first character that wrapping could change stands at the front of the first line too, unless
the line ends there (`wrap_front`), and that goes for the time and the blank behind it, whatever
the name of the level. So a line with room for a header begins with these, and where the header
ends is the one place that has to be looked at (`styledLine?_front`). -/
namespace LiveTail

/-! ### The front of the first line -/

namespace Text
variable {front : List Char}

theorem segments_ne_nil (text : List Char) : segments text ≠ [] := by
  rw [segments_eq]
  exact List.splitOnP_ne_nil _ text

/-- Text without a newline is in front of the first segment. -/
theorem segments_front (h : '\n' ∉ front) (rest : List Char) :
    ∃ s others, segments (front ++ rest) = (front ++ s) :: others := by
  induction front with
  | nil => exact List.exists_cons_of_ne_nil (segments_ne_nil rest)
  | cons c front ih =>
    rw [List.mem_cons, not_or] at h
    obtain ⟨hc, hfront⟩ := h
    obtain ⟨s, others, hs⟩ := ih hfront
    refine ⟨s, others, ?_⟩
    rw [List.cons_append, segments, if_neg (Ne.symm hc), hs]
    rfl

theorem dropReturn_front (h : front.getLast? ≠ some '\r') (s : List Char) :
    ∃ more, dropReturn (front ++ s) = front ++ more := by
  unfold dropReturn
  split
  next hlast =>
    have hs : s ≠ [] := by
      rintro rfl
      rw [List.append_nil] at hlast
      exact h hlast
    exact ⟨s.dropLast, List.dropLast_append_of_ne_nil hs⟩
  next => exact ⟨s, rfl⟩

theorem expandTabs_front (h : '\t' ∉ front) (s : List Char) :
    expandTabs (front ++ s) = front ++ expandTabs s := by
  induction front with
  | nil => rfl
  | cons c front ih =>
    rw [List.mem_cons, not_or] at h
    obtain ⟨hc, hfront⟩ := h
    have hrest : expandTabs (front ++ s) = front ++ expandTabs s := ih hfront
    rw [expandTabs] at hrest
    rw [expandTabs, List.cons_append, List.flatMap_cons, if_neg (Ne.symm hc), hrest]
    rfl

/-- The first line of a segment is a part of it, as it is expanded. -/
theorem wrapSegment_head (width : Nat) (s : List Char) :
    ∃ line others, wrapSegment columns width s = line :: others ∧
      line <+: expandTabs (dropReturn s) := by
  obtain ⟨line, others, hfill⟩ := fill_head columns (max width 1) [] 0 (expandTabs (dropReturn s))
  rw [List.reverse_nil, List.nil_append] at hfill
  refine ⟨line, others, hfill, ?_⟩
  have hwhole := flatten_fill columns (max width 1) [] 0 (expandTabs (dropReturn s))
  rw [hfill, List.flatten_cons, List.reverse_nil, List.nil_append] at hwhole
  exact ⟨others.flatten, hwhole⟩

/-- Of text that wrapping leaves as it is, the first line has all that it has room for. -/
theorem wrap_front (width : Nat) (rest : List Char) (hnewline : '\n' ∉ front)
    (htab : '\t' ∉ front) (hreturn : front.getLast? ≠ some '\r') :
    ∃ line others more, wrap width (front ++ rest) = line :: others ∧ line <+: front ++ more := by
  obtain ⟨s, segments', hsegments⟩ := segments_front hnewline rest
  obtain ⟨line, others, hline, hprefix⟩ := wrapSegment_head width (front ++ s)
  obtain ⟨more, hmore⟩ := dropReturn_front hreturn s
  rw [hmore, expandTabs_front htab] at hprefix
  refine ⟨line, others ++ segments'.flatMap (wrapSegment columns width), expandTabs more, ?_,
    hprefix⟩
  rw [wrap, wrapBy, hsegments, List.flatMap_cons, hline, List.cons_append]

end Text

/-! ### Bytes -/

namespace View
open Screen

@[simp] theorem byteCount_cons (c : Char) (text : List Char) :
    byteCount (c :: text) = c.utf8Size + byteCount text := by
  rw [byteCount, List.map_cons, List.sum_cons]
  rfl

@[simp] theorem byteCount_append (front back : List Char) :
    byteCount (front ++ back) = byteCount front + byteCount back := by
  rw [byteCount, List.map_append, List.sum_append]
  rfl

theorem eq_nil_of_byteCount {text : List Char} (h : byteCount text = 0) : text = [] := by
  cases text with
  | nil => rfl
  | cons c rest =>
    have hpos := c.utf8Size_pos
    rw [byteCount_cons] at h
    omega

/-- Of two parts at the front of a text, the one with fewer bytes is in front of the other. -/
theorem prefix_of_byteCount_le {front other whole : List Char} (hfront : front <+: whole)
    (hother : other <+: whole) (h : byteCount front ≤ byteCount other) : front <+: other := by
  rcases List.prefix_or_prefix_of_prefix hfront hother with hshort | ⟨more, rfl⟩
  · exact hshort
  · rw [byteCount_append] at h
    have hmore : byteCount more = 0 := by omega
    obtain rfl : more = [] := eq_nil_of_byteCount hmore
    exact ⟨[], by simp⟩

/-- A text is split after a number of bytes if a part at its front has so many. -/
theorem splitBytes?_eq_some_iff {bytes : Nat} {text front back : List Char} :
    splitBytes? bytes text = some (front, back) ↔
      text = front ++ back ∧ byteCount front = bytes := by
  fun_induction splitBytes? bytes text generalizing front with
  | case1 text =>
    simp only [Option.some.injEq, Prod.mk.injEq]
    constructor
    · rintro ⟨rfl, rfl⟩
      exact ⟨rfl, rfl⟩
    · rintro ⟨rfl, hbytes⟩
      rw [eq_nil_of_byteCount hbytes]
      exact ⟨rfl, rfl⟩
  | case2 bytes =>
    refine ⟨nofun, ?_⟩
    rintro ⟨htext, hbytes⟩
    rw [(List.append_eq_nil_iff.mp htext.symm).1] at hbytes
    cases hbytes
  | case3 bytes c rest hroom ih =>
    rw [Option.map_eq_some_iff]
    constructor
    · rintro ⟨⟨front', back'⟩, hsplit, heq⟩
      obtain ⟨rfl, rfl⟩ := Prod.mk.inj heq
      obtain ⟨rfl, hbytes⟩ := ih.mp hsplit
      refine ⟨rfl, ?_⟩
      rw [byteCount_cons]
      omega
    · rintro ⟨htext, hbytes⟩
      cases front with
      | nil => cases hbytes
      | cons d front' =>
        obtain ⟨rfl, rfl⟩ := List.cons.inj htext
        rw [byteCount_cons] at hbytes
        exact ⟨(front', back), ih.mpr ⟨rfl, by omega⟩, rfl⟩
  | case4 bytes c rest hroom =>
    refine ⟨nofun, ?_⟩
    rintro ⟨htext, hbytes⟩
    cases front with
    | nil => cases hbytes
    | cons d front' =>
      obtain ⟨rfl, -⟩ := List.cons.inj htext
      rw [byteCount_cons] at hbytes
      omega

theorem splitBytes?_append (front back : List Char) :
    splitBytes? (byteCount front) (front ++ back) = some (front, back) :=
  splitBytes?_eq_some_iff.mpr ⟨rfl, rfl⟩

/-! ### Headers -/

/-- Nothing in a time of day is changed by wrapping. -/
theorem unbroken_timeText (t : Time.Instant) {c : Char} (h : c = '\n' ∨ c = '\t') :
    c ∉ t.timeText := by
  have hpadded : ∀ width n, c ∉ Number.Numeral.padded width n := by
    intro width n hmem
    have hdigit := Number.Numeral.isDigit_of_mem_padded hmem
    rcases h with rfl | rfl <;> exact absurd hdigit (by decide)
  have hmark : c ≠ ':' ∧ c ≠ '.' := by
    rcases h with rfl | rfl <;> decide
  simp only [Time.Instant.timeText, Time.Instant.clockText, List.mem_append, List.mem_cons,
    hpadded, hmark, or_self, not_false_eq_true]

theorem unbroken_levelText {l : Level} {c : Char} (hc : c ≠ ' ') (h : c ∉ l.name.toList) :
    c ∉ levelText l := by
  rw [levelText, List.mem_append, List.mem_replicate]
  rintro (hname | ⟨-, hblank⟩)
  · exact h hname
  · exact hc hblank

section First
variable {r : LogRecord} {width : Nat} {line : List Char}

/-- What stands in front of all that wrapping could change is in front of the first line too, if
this has room for it. -/
theorem prefix_first {front rest part : List Char} (htext : recordText r = front ++ rest)
    (hnewline : '\n' ∉ front) (htab : '\t' ∉ front) (hreturn : front.getLast? ≠ some '\r')
    (hline : (recordLines r width)[0]? = some line) (hpart : part <+: front)
    (hroom : byteCount part ≤ byteCount line) : part <+: line := by
  obtain ⟨first, others, more, hlines, hfirst⟩ :=
    Text.wrap_front width rest hnewline htab hreturn
  rw [recordLines, htext, hlines] at hline
  obtain rfl : first = line := Option.some.inj hline
  exact prefix_of_byteCount_le (hpart.trans (List.prefix_append front more)) hfirst hroom

/-- A first line with room for a header has the time, whatever the level is called. -/
theorem time_first (hline : (recordLines r width)[0]? = some line)
    (hroom : headerBytes r ≤ byteCount line) : r.time.timeText ++ [' '] <+: line := by
  have htext : recordText r =
      (r.time.timeText ++ [' ']) ++ (levelText r.level ++ ' ' :: r.message.toList) := by
    simp [recordText]
  have hunbroken : ∀ c, c = '\n' ∨ c = '\t' → c ∉ r.time.timeText ++ [' '] := by
    intro c hc hmem
    rcases List.mem_append.mp hmem with htime | hblank
    · exact unbroken_timeText r.time hc htime
    · rw [List.mem_singleton.mp hblank] at hc
      exact absurd hc (by decide)
  refine prefix_first htext (hunbroken _ (.inl rfl)) (hunbroken _ (.inr rfl))
    (by rw [List.getLast?_concat]; decide) hline List.prefix_rfl ?_
  have hblank : byteCount [' '] = 1 := by decide
  rw [byteCount_append, hblank]
  rw [headerBytes] at hroom
  omega

/-- It has the whole header if there is no tab and no newline in the name of the level. -/
theorem header_first (hname : ∀ c, c = '\n' ∨ c = '\t' → c ∉ r.level.name.toList)
    (hline : (recordLines r width)[0]? = some line) (hroom : headerBytes r ≤ byteCount line) :
    r.time.timeText ++ ' ' :: levelText r.level <+: line := by
  have htext : recordText r =
      (r.time.timeText ++ ' ' :: levelText r.level ++ [' ']) ++ r.message.toList := by
    simp [recordText]
  have hunbroken : ∀ c, c = '\n' ∨ c = '\t' →
      c ∉ r.time.timeText ++ ' ' :: levelText r.level ++ [' '] := by
    intro c hc
    have hblank : c ≠ ' ' := by
      rcases hc with rfl | rfl <;> decide
    simp only [List.mem_append, List.mem_cons, List.not_mem_nil, unbroken_timeText r.time hc,
      unbroken_levelText hblank (hname c hc), hblank, or_self, not_false_eq_true]
  refine prefix_first htext (hunbroken _ (.inl rfl)) (hunbroken _ (.inr rfl))
    (by rw [List.getLast?_concat]; decide) hline (List.prefix_append _ _) ?_
  have hblank : (' ' : Char).utf8Size = 1 := by decide
  rw [byteCount_append, byteCount_cons, hblank, ← Nat.add_assoc]
  exact hroom

end First

/-! ### Coloured lines -/

/-- The parts of a line that begins with a header. -/
def parts (p : Palette) (r : LogRecord) (level body : List Char) : List Styled :=
  [⟨r.time.timeText, p.timestamp⟩, ⟨[' '], {}⟩, ⟨level, p.level r.level⟩, ⟨body, {}⟩]

section Headed
variable {r : LogRecord} {line : List Char}

theorem headerBytes_eq (r : LogRecord) :
    byteCount (r.time.timeText ++ ' ' :: levelText r.level) = headerBytes r := by
  have hblank : (' ' : Char).utf8Size = 1 := by decide
  rw [byteCount_append, byteCount_cons, hblank, ← Nat.add_assoc]
  rfl

theorem le_of_splitBytes? {bytes : Nat} (h : (splitBytes? bytes line).isSome) :
    bytes ≤ byteCount line := by
  obtain ⟨⟨front, back⟩, hsplit⟩ := Option.isSome_iff_exists.mp h
  obtain ⟨rfl, rfl⟩ := splitBytes?_eq_some_iff.mp hsplit
  rw [byteCount_append]
  exact Nat.le_add_right ..

/-- Behind the time and the blank only the end of the header is left to be found. -/
theorem styledLine?_front (p : Palette) (hfront : r.time.timeText ++ [' '] <+: line)
    (hcut : (splitBytes? (headerBytes r) line).isSome) :
    ∃ level body, line = r.time.timeText ++ ' ' :: (level ++ body) ∧
      byteCount level = byteCount (levelText r.level) ∧
      styledLine? p r true line = some (parts p r level body) := by
  obtain ⟨⟨header, body⟩, hheader⟩ := Option.isSome_iff_exists.mp hcut
  obtain ⟨rfl, hbytes⟩ := splitBytes?_eq_some_iff.mp hheader
  have hblank : byteCount [' '] = 1 := by decide
  have hshort : byteCount (r.time.timeText ++ [' ']) ≤ byteCount header := by
    rw [hbytes, headerBytes, byteCount_append, hblank]
    omega
  obtain ⟨level, rfl⟩ := prefix_of_byteCount_le hfront (List.prefix_append header body) hshort
  have hlevel : byteCount level = byteCount (levelText r.level) := by
    rw [headerBytes, byteCount_append, byteCount_append, hblank] at hbytes
    omega
  have htime := splitBytes?_append r.time.timeText ([' '] ++ (level ++ body))
  have hsep := splitBytes?_append [' '] (level ++ body)
  have hrest := splitBytes?_append level body
  rw [hblank] at hsep
  rw [hlevel] at hrest
  refine ⟨level, body, by simp, hlevel, ?_⟩
  rw [styledLine?, if_pos ⟨rfl, hcut⟩, headed?, List.append_assoc, List.append_assoc, htime]
  simp only [Option.bind_eq_bind, Option.bind_some, hsep, hrest]
  rfl

/-- A line with the whole header is cut behind it. -/
theorem isSome_splitBytes? (h : r.time.timeText ++ ' ' :: levelText r.level <+: line) :
    (splitBytes? (headerBytes r) line).isSome := by
  obtain ⟨body, rfl⟩ := h
  rw [← headerBytes_eq, splitBytes?_append]
  rfl

end Headed

/-- What a line of a record is once it is coloured. -/
structure Coloured (p : Palette) (r : LogRecord) (first : Bool) (line : List Char) : Prop where
  /-- Every part ends where a character ends. -/
  cut : styledLine? p r first line = some (styledLine p r first line)
  whole : plain (styledLine p r first line) = line
  /-- Without a tab or a newline in its name the level stands whole, in a style of its own. -/
  header : first = true → headerBytes r ≤ byteCount line →
    (∀ c, c = '\n' ∨ c = '\t' → c ∉ r.level.name.toList) →
    ∃ body, styledLine p r first line = parts p r (levelText r.level) body

theorem coloured_of_parts {p : Palette} {r : LogRecord} {first : Bool} {line : List Char}
    {spans : List Styled} (h : styledLine? p r first line = some spans)
    (hwhole : plain spans = line)
    (hheader : first = true → headerBytes r ≤ byteCount line →
      (∀ c, c = '\n' ∨ c = '\t' → c ∉ r.level.name.toList) →
      ∃ body, spans = parts p r (levelText r.level) body) : Coloured p r first line := by
  have hspans : styledLine p r first line = spans := by rw [styledLine, h, Option.getD_some]
  exact ⟨by rw [hspans, h], by rw [hspans, hwhole], by rw [hspans]; exact hheader⟩

/-- **Colours change nothing of a line**, whatever the record and the width: the parts that it is
cut into end where characters end, and are the line together. -/
theorem coloured_lines (p : Palette) (r : LogRecord) (width : Nat) {k : Nat} {line : List Char}
    (hline : (recordLines r width)[k]? = some line) : Coloured p r (k == 0) line := by
  by_cases hheaded : (k == 0) = true ∧ (splitBytes? (headerBytes r) line).isSome
  · obtain ⟨hfirst, hcut⟩ := hheaded
    obtain rfl : k = 0 := beq_iff_eq.mp hfirst
    have hfront := time_first hline (le_of_splitBytes? hcut)
    obtain ⟨level, body, hparts, hlevel, hstyled⟩ := styledLine?_front p hfront hcut
    refine coloured_of_parts hstyled ?_ ?_
    · rw [hparts]
      simp [plain, parts]
    · -- The header is in front of the line, so the part that is as long as the level is the level.
      intro _ hroom hname
      obtain ⟨rest, hrest⟩ := header_first hname hline hroom
      have hboth : level ++ body = levelText r.level ++ rest := by
        rw [hparts] at hrest
        simpa using hrest.symm
      have hsame : some (level, body) = some (levelText r.level, rest) := by
        rw [← splitBytes?_append level body, ← splitBytes?_append (levelText r.level) rest, hboth,
          hlevel]
      obtain ⟨rfl, rfl⟩ := Prod.mk.inj (Option.some.inj hsame)
      exact ⟨body, rfl⟩
  · have hstyled : styledLine? p r (k == 0) line = some [⟨line, {}⟩] := by
      rw [styledLine?, if_neg hheaded]
    refine coloured_of_parts hstyled ?_ ?_
    · simp [plain]
    · intro hfirst hroom hname
      obtain rfl : k = 0 := beq_iff_eq.mp hfirst
      exact absurd ⟨hfirst, isSome_splitBytes? (header_first hname hline hroom)⟩ hheaded

/-- Tabs can put the end of a header inside a character. Then the line is left plain. -/
example :
    let r := LogRecord.new (.other "\t\tä") "m" ⟨0, 0⟩
    let line := "00:00:00.000         ä      m".toList
    (recordLines r 40)[0]? = some line ∧ styledLine? ⟨true⟩ r true line = some [⟨line, {}⟩] := by
  decide +kernel

/-- A level whose name takes more bytes than columns is coloured whole. -/
theorem coloured_lines_wide :
    let r := LogRecord.new (.other "Größe") "m" ⟨0, 0⟩
    let line := "00:00:00.000 Größe    m".toList
    (recordLines r 40)[0]? = some line ∧
      (∃ body, styledLine ⟨true⟩ r true line = parts ⟨true⟩ r "Größe   ".toList body) := by
  intro r line
  have hline : (recordLines r 40)[0]? = some line := by decide +kernel
  have hroom : headerBytes r ≤ byteCount line := by decide +kernel
  have hname : ∀ c, c = '\n' ∨ c = '\t' → c ∉ r.level.name.toList := by
    rintro c (rfl | rfl) <;> decide +kernel
  have hlevel : levelText r.level = "Größe   ".toList := by decide +kernel
  obtain ⟨body, hbody⟩ := (coloured_lines ⟨true⟩ r 40 hline).header rfl hroom hname
  exact ⟨hline, body, hlevel ▸ hbody⟩

end View
end LiveTail
