import LiveTail.View.Pane

/-! Where the lines of a picture go.

Of a block that is laid out, row `y` of the screen gets the one line that lies there, if
the block is long enough (`place_one`), so a picture has no more than a line of each block
on a row. What is painted on a row comes from the lines placed on it, whatever is painted
elsewhere (`row_paintLines`). -/
namespace LiveTail
open Screen Rows

namespace View

/-- The lines of a picture that are placed on a row of the screen, in the order in which they
are painted. -/
def Picture.linesAt (p : Picture) (y : Nat) : List Placed := p.lines.filter (·.y == y)

theorem filterMap_zipIdx {α β : Type} (f : α → β) (xs : List α) (n k : Nat) :
    ((xs.zipIdx n).filterMap fun e => if e.2 = k then some (f e.1) else none) =
      if n ≤ k then (xs[k - n]?.map f).toList else [] := by
  induction xs generalizing n with
  | nil => simp
  | cons x rest ih =>
    rw [List.zipIdx_cons, List.filterMap_cons, ih]
    dsimp only
    rcases Nat.lt_trichotomy n k with hlt | rfl | hgt
    · have hsub : k - n = k - (n + 1) + 1 := by omega
      rw [if_neg (by omega), if_pos (by omega), if_pos (by omega), hsub, List.getElem?_cons_succ]
    · rw [if_pos rfl, if_neg (by omega), if_pos (Nat.le_refl _), Nat.sub_self]
      rfl
    · rw [if_neg (by omega), if_neg (by omega), if_neg (by omega)]

theorem place_cons (w : Window) (b : Block) (bs : List Block) (height : Nat) :
    place w (b :: bs) height = place w [b] height ++ place w bs height := by
  simp [place]

/-- The line of a block on a row of the screen. -/
theorem place_one {w : Window} {b : Block} {height y : Nat} (hy : y < height) :
    (place w [b] height).filter (·.y == y) =
      match w.start? b.row with
      | some start =>
        if start ≤ w.scroll + y then
          (b.lines[w.scroll + y - start]?.map
            (Placed.mk y b.record (w.scroll + y - start))).toList
        else []
      | none => [] := by
  simp only [place, List.flatMap_cons, List.flatMap_nil, List.append_nil, Window.screenRow?]
  cases w.start? b.row with
  | none => rfl
  | some start =>
    simp only [Option.map_some, List.filter_filterMap]
    -- Line `k` lies on row `y` when it is so many lines below the start.
    have hone : ∀ e : List Char × Nat,
        (if 0 ≤ (start : Int) - w.scroll + e.2 ∧ (start : Int) - w.scroll + e.2 < height then
            some (Placed.mk ((start : Int) - w.scroll + e.2).toNat b.record e.2 e.1)
          else none).filter (·.y == y) =
        if start ≤ w.scroll + y ∧ e.2 = w.scroll + y - start then
          some (Placed.mk y b.record (w.scroll + y - start) e.1)
        else none := by
      intro e
      by_cases hk : start ≤ w.scroll + y ∧ e.2 = w.scroll + y - start
      · have hnat : ((start : Int) - w.scroll + e.2).toNat = y := by omega
        rw [if_pos hk, if_pos (by omega), hnat, hk.2]
        simp
      · rw [if_neg hk]
        split
        · simp only [Option.filter_some, beq_iff_eq]
          rw [if_neg (by omega)]
        · rfl
    simp only [hone]
    by_cases hstart : start ≤ w.scroll + y
    · simp only [hstart, true_and, if_true]
      rw [filterMap_zipIdx (Placed.mk y b.record (w.scroll + y - start)), if_pos (Nat.zero_le _)]
      rfl
    · simp [hstart]

theorem filter_place (w : Window) (bs : List Block) (height y : Nat) :
    (place w bs height).filter (·.y == y) =
      bs.flatMap fun b => (place w [b] height).filter (·.y == y) := by
  induction bs with
  | nil => rfl
  | cons b rest ih => rw [place_cons, List.filter_append, ih, List.flatMap_cons]

/-- One block has a line on a row when no other has. -/
theorem flatMap_one {α β γ : Type} {key : α → γ} {f : α → List β} {xs : List α} {x : α}
    (hx : x ∈ xs) (hkeys : (xs.map key).Nodup) (hothers : ∀ y ∈ xs, key y ≠ key x → f y = []) :
    xs.flatMap f = f x := by
  induction xs with
  | nil => cases hx
  | cons y rest ih =>
    obtain ⟨hnew, hrest⟩ := List.nodup_cons.mp hkeys
    rw [List.flatMap_cons]
    rcases List.mem_cons.mp hx with rfl | hx
    · have hnone : rest.flatMap f = [] := by
        rw [List.flatMap_eq_nil_iff]
        refine fun z hz => hothers z (List.mem_cons_of_mem _ hz) fun heq => ?_
        exact hnew (heq ▸ List.mem_map_of_mem hz)
      rw [hnone, List.append_nil]
    · have hne : key y ≠ key x := fun heq => hnew (heq ▸ List.mem_map_of_mem hx)
      rw [hothers y (List.mem_cons_self ..) hne, List.nil_append]
      exact ih hx hrest fun z hz => hothers z (List.mem_cons_of_mem _ hz)

end View

/-! ### On the canvas -/

namespace Screen.Canvas

theorem width_write (c : Canvas) (x y room : Nat) (s : Styled) :
    (c.write x y room s).2.width = c.width := by
  unfold write
  split <;> rfl

/-- Writing changes no other row. -/
theorem rows_write {c : Canvas} {x y room : Nat} {s : Styled} {z : Nat} (h : z ≠ y) :
    (c.write x y room s).2.rows[z]? = c.rows[z]? := by
  unfold write
  split
  · exact List.getElem?_set_ne (Ne.symm h)
  · rfl

/-- Two canvases that cannot be told apart on a row. -/
structure SameRow (y : Nat) (c d : Canvas) : Prop where
  width : c.width = d.width
  row : c.rows[y]? = d.rows[y]?

/-- What is written on a row depends on that row alone. -/
theorem sameRow_write {c d : Canvas} {y : Nat} (h : SameRow y c d) (x room : Nat) (s : Styled) :
    (c.write x y room s).1 = (d.write x y room s).1 ∧
      SameRow y (c.write x y room s).2 (d.write x y room s).2 := by
  unfold write
  rw [h.row, h.width]
  cases hrow : d.rows[y]? with
  | none => exact ⟨rfl, h.width, by rw [h.row]⟩
  | some row =>
    have hd : y < d.rows.length := (List.getElem?_eq_some_iff.mp hrow).1
    have hc : y < c.rows.length := (List.getElem?_eq_some_iff.mp (h.row.trans hrow)).1
    refine ⟨rfl, rfl, ?_⟩
    rw [List.getElem?_set_self hc, List.getElem?_set_self hd]

theorem sameRow_writeLine {c d : Canvas} {y : Nat} (h : SameRow y c d) (x room : Nat)
    (spans : List Styled) :
    SameRow y (c.writeLine x y room spans) (d.writeLine x y room spans) := by
  induction spans generalizing c d x room with
  | nil => exact h
  | cons s rest ih =>
    rw [writeLine, writeLine]
    split
    · exact h
    · obtain ⟨hnext, hrow⟩ := sameRow_write h x room s
      dsimp only
      rw [hnext]
      exact ih hrow _ _

theorem sameRow_other {c : Canvas} {y z : Nat} (h : z ≠ y) (x room : Nat) (spans : List Styled) :
    SameRow z (c.writeLine x y room spans) c := by
  induction spans generalizing c x room with
  | nil => exact ⟨rfl, rfl⟩
  | cons s rest ih =>
    rw [writeLine]
    split
    · exact ⟨rfl, rfl⟩
    · have hrest := ih (c := (c.write x y room s).2) (c.write x y room s).1
        (room - ((c.write x y room s).1 - x))
      exact ⟨hrest.width.trans (width_write ..), hrest.row.trans (rows_write h)⟩

end Screen.Canvas

namespace View.Pane
open Screen.Canvas

/-- On a row of the canvas only the lines placed there are painted. -/
theorem row_paintLines (colors : Palette) (picture : Picture) (a : Area) (c : Canvas) (y : Nat) :
    (paintLines colors picture.lines a c).rows[a.y + y]? =
      (paintLines colors (picture.linesAt y) a c).rows[a.y + y]? := by
  have key : ∀ (ls : List Placed) (c d : Canvas), SameRow (a.y + y) c d →
      SameRow (a.y + y) (paintLines colors ls a c)
        (paintLines colors (ls.filter (·.y == y)) a d) := by
    intro ls
    induction ls with
    | nil => exact fun c d h => h
    | cons l rest ih =>
      intro c d h
      by_cases hy : l.y = y
      · rw [List.filter_cons_of_pos (by simpa using hy), ← hy]
        rw [← hy] at h ih
        exact ih _ _ (sameRow_writeLine h _ _ _)
      · rw [List.filter_cons_of_neg (by simpa using hy)]
        have hother := sameRow_other (c := c) (z := a.y + y) (y := a.y + l.y) (by omega) a.x
          (textWidth a.width) (styledLine colors l.record (l.index == 0) l.text)
        exact ih _ _ ⟨hother.width.trans h.width, hother.row.trans h.row⟩
  exact (key picture.lines c c ⟨rfl, rfl⟩).row

end View.Pane
end LiveTail
