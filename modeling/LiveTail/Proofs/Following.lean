import LiveTail.Proofs.Accounts
import LiveTail.Proofs.Rows.Growing

/-! A view that follows its log stands at the bottom.

A view is pinned when it is made and when it is told to follow, and only scrolling lets it go
(`pinned_act`). As long as it is pinned, every window ends with the last row and has the last
line of that row at the bottom of the screen, whatever rows came, went or changed their height
since, and however high the screen is (`atBottom`). A tail does nothing with its viewport that
a host could not do (`viewport_run`), so the same holds of tails. -/
namespace LiveTail

namespace Rows.Viewport

/-! ### The pin -/

/-- Scrolling is what lets go of the last row. -/
def Action.Scrolls : Action → Prop
  | .scrollTo _ | .scrollBy _ => True
  | _ => False

@[simp] theorem pinned_resize (v : Viewport) (height : Nat) :
    (v.resize height).pinned = v.pinned := by
  unfold resize
  dsimp only
  split <;> rfl

theorem pinned_evict (v : Viewport) (count : Nat) : (v.evict count).pinned = v.pinned := by
  unfold evict
  split
  · rfl
  · dsimp only
    split <;> rfl

theorem pinned_measure {v w : Viewport} {sequence height : Nat} {known : Bool}
    (hw : v.measure sequence height = .ok (known, w)) : w.pinned = v.pinned := by
  obtain ⟨-, -, rfl⟩ | ⟨row, lines, -, -, -, rfl⟩ := measure_cases hw <;> rfl

theorem pinned_act (v : Viewport) (a : Action) :
    (v.act a).pinned = true ↔ a = .follow ∨ v.pinned = true ∧ ¬a.Scrolls := by
  cases a with
  | follow => simp [act, follow]
  | scrollTo p => simp [act, scrollTo, Action.Scrolls]
  | scrollBy delta => simp [act, scrollBy, Action.Scrolls]
  | push sequence => simp [act, push, Action.Scrolls]
  | resetMeasured => simp [act, resetMeasured, Action.Scrolls]
  | window height => simp [act, window, Action.Scrolls]
  | evict count => simp [act, pinned_evict, Action.Scrolls]
  | clear => simp [act, clear, Action.Scrolls]
  | measure sequence height =>
    have hsame : (v.act (.measure sequence height)).pinned = v.pinned := by
      simp only [act]
      split
      next known w hw => exact pinned_measure hw
      next => rfl
    simp [hsame, Action.Scrolls]

theorem pinned_run {v : Viewport} (h : v.pinned = true) {actions : List Action}
    (hstay : ∀ a ∈ actions, ¬a.Scrolls) : (v.run actions).pinned = true := by
  induction actions generalizing v with
  | nil => exact h
  | cons a rest ih =>
    have ha := hstay a (List.mem_cons_self ..)
    exact ih ((pinned_act v a).mpr (.inr ⟨h, ha⟩)) fun b hb => hstay b (List.mem_cons_of_mem a hb)

/-- No scroll since the beginning, or since the view was told to follow. -/
def Unscrolled (actions : List Action) : Prop :=
  ∃ before after, actions = before ++ after ∧ (before = [] ∨ before.getLast? = some .follow) ∧
    ∀ a ∈ after, ¬a.Scrolls

theorem pinned_of_unscrolled {v : Viewport} (h : v.pinned = true) {actions : List Action}
    (hactions : Unscrolled actions) : (v.run actions).pinned = true := by
  obtain ⟨before, after, rfl, hbefore, hafter⟩ := hactions
  rw [run_append]
  refine pinned_run ?_ hafter
  rcases hbefore with rfl | hfollow
  · exact h
  · obtain ⟨earlier, rfl⟩ := List.getLast?_eq_some_iff.mp hfollow
    rw [run_append]
    exact (pinned_act _ _).mpr (.inl rfl)

/-! ### The bottom -/

/-- A window that ends where the rows end. -/
structure AtBottom (v : Viewport) (height : Nat) (w : Window) : Prop where
  total : w.total = v.rows.sum
  scroll : w.scroll = w.total - height
  last : w.last = v.size - 1
  /-- The last row reaches to the end of all lines. -/
  ends : ∃ start, w.start? w.last = some start ∧ start + v.heights.height w.last = w.total
  /-- That end is not below the screen, nor above it unless the screen has no height. -/
  within : w.total ≤ w.scroll + height ∧ (height = 0 ∨ w.scroll < w.total)

/-- Every screen over some rows shows the last one at its bottom. -/
structure Follows (v : Viewport) : Prop where
  pinned : v.pinned = true
  /-- The heights have to add up to a signed word. -/
  window : 0 < v.size → v.rows.sum < 2 ^ 63 →
    ∀ height, ∃ w, (v.window height).1 = some w ∧ AtBottom v height w

/-- The line above the end belongs to the last row. -/
theorem visible_last {v : Viewport} (h : Valid v) (hfit : v.rows.sum < 2 ^ 63)
    (hsize : 0 < v.size) (hpinned : v.pinned = true) :
    (v.visible v.offset).last = v.size - 1 := by
  have htotal : v.total = v.rows.sum := h.total_eq hfit
  have hoffset : v.offset = v.rows.sum - v.height := by
    rw [offset, if_pos hpinned, lowest, htotal]
  have hbefore := linesBefore_lt h (m := v.size - 1) (n := v.size) (by omega) (Nat.le_refl _)
  rw [linesBefore_size] at hbefore
  have hrow : v.size - 1 < v.size := by omega
  have hline : v.linesBefore (v.size - 1) ≤ v.offset + max v.height 1 - 1 := by omega
  have hlast := le_rowAt h hfit hsize hrow hline
  have hlt := rowAt_getD_lt v (v.offset + max v.height 1 - 1) hsize
  simp only [rowAt] at hlast
  simp only [visible]
  omega

theorem atBottom {v : Viewport} (h : Valid v) (hfit : v.rows.sum < 2 ^ 63) (hsize : 0 < v.size)
    (hpinned : v.pinned = true) {w : Window} (hw : v.window? = some w) :
    AtBottom v v.height w := by
  obtain ⟨-, hfirst, hlast, htotal, hscroll, -⟩ := window?_eq hw
  obtain ⟨hfront, hmiddle, hback, hlt⟩ := laidOut_bounds h hfit hsize
  have hend := visible_last h hfit hsize hpinned
  have hsum : w.total = v.rows.sum := by
    rw [htotal]
    exact h.total_eq hfit
  have hoffset : w.scroll = w.total - v.height := by
    rw [hscroll, htotal, offset, if_pos hpinned, lowest]
  have hrow : w.last = v.size - 1 := by omega
  have hpositive := h.length_le_sum
  refine ⟨hsum, hoffset, hrow, ⟨v.linesBefore w.last, ?_, ?_⟩, by omega, by omega⟩
  · rw [start?_eq h hfit hw, if_pos]
    rw [Window.rows, List.mem_range'_1, Window.size]
    omega
  · rw [← linesBefore_succ v (by omega), hrow, Nat.sub_add_cancel hsize, linesBefore_size, hsum]

/-- The bottom is where the heights end, whatever else is known of the view. -/
theorem AtBottom.of_heights {u v : Viewport} {height : Nat} {w : Window} (h : AtBottom u height w)
    (hheights : u.heights = v.heights) : AtBottom v height w := by
  have hrows : v.rows = u.rows := by rw [rows, rows, hheights]
  have hsize : v.size = u.size := by rw [size, size, hheights]
  refine ⟨?_, h.scroll, ?_, ?_, h.within⟩
  · rw [hrows, h.total]
  · rw [hsize, h.last]
  · rw [← hheights]
    exact h.ends

theorem follows_of_pinned {v : Viewport} (h : Valid v) (hpinned : v.pinned = true) :
    Follows v := by
  refine ⟨hpinned, fun hsize hfit height => ?_⟩
  have hheights := heights_resize v height
  obtain ⟨w, hw⟩ : ∃ w, (v.resize height).window? = some w := exists_window hsize height
  have hbottom := atBottom (h.of_heights hheights) (by rwa [rows_resize])
    (by rwa [size, hheights]) (by rwa [pinned_resize]) hw
  rw [height_resize] at hbottom
  exact ⟨w, hw, hbottom.of_heights hheights⟩

end Rows.Viewport

namespace Tail
open Rows
variable {ε : Type}

/-! ### What a tail does with its viewport -/

/-- What an action does with the view, unless it brings a record. -/
def Action.move? : Action ε → Option Viewport.Action
  | .window height => some (.window height)
  | .measure sequence height => some (.measure sequence height)
  | .resetMeasured => some .resetMeasured
  | .scrollTo p => some (.scrollTo p)
  | .scrollBy delta => some (.scrollBy delta)
  | .follow => some .follow
  | .clear => some .clear
  | _ => none

/-- What an action does with the view. -/
def moves (t : Tail ε) (a : Action ε) : List Viewport.Action :=
  match a.outcome? with
  | some (.ok r) => [.push t.backlog.next, .evict (t.backlog.append r).1.dropped]
  | some (.error _) => []
  | none => a.move?.toList

/-- What actions do with the view, one after the other. -/
def allMoves (t : Tail ε) : List (Action ε) → List Viewport.Action
  | [] => []
  | a :: rest => t.moves a ++ (t.act a).allMoves rest

theorem viewport_act (t : Tail ε) (a : Action ε) :
    (t.act a).viewport = t.viewport.run (t.moves a) := by
  cases t.effect a with
  | record r houtcome hact =>
    rw [hact, viewport_append, moves, houtcome]
    show _ = (t.viewport.push t.backlog.next).evict (t.backlog.append r).1.dropped
    split
    · rfl
    next hnone =>
      have hzero : (t.backlog.append r).1.dropped = 0 := by omega
      rw [hzero]
      simp [Viewport.evict, Viewport.push]
  | failure e houtcome hact =>
    rw [hact, moves, houtcome]
    rfl
  | clear ha =>
    rw [ha]
    rfl
  | view houtcome =>
    rw [moves, houtcome]
    cases a with
    | measure sequence height =>
      simp only [act, measure, Action.move?, Option.toList, Viewport.run, Viewport.act]
      cases t.viewport.measure sequence height <;> rfl
    | append r => cases houtcome
    | ingestText text => cases houtcome
    | ingestMessage m => cases houtcome
    | ingest d => cases houtcome
    | _ => rfl

/-- The row of a record that is appended comes behind the others, of which the first may go. -/
theorem rows_append {t : Tail ε} (h : Valid t) (r : LogRecord) :
    (t.append r).2.viewport.rows =
      (t.viewport.rows ++ [t.viewport.settings.estimate.lines]).drop
        (t.backlog.append r).1.dropped := by
  have hviewport : (t.append r).2.viewport =
      (t.viewport.push t.backlog.next).evict (t.backlog.append r).1.dropped :=
    viewport_act t (.append r)
  have hpushed := Viewport.valid_push h.viewport t.backlog.next
  rw [hviewport, (Viewport.rows_evict hpushed (by rw [h.first_push]; rfl) _).1,
    Viewport.rows_push h.viewport]

theorem viewport_run (t : Tail ε) (actions : List (Action ε)) :
    (t.run actions).viewport = t.viewport.run (t.allMoves actions) := by
  induction actions generalizing t with
  | nil => rfl
  | cons a rest ih => rw [run, ih, viewport_act, allMoves, Viewport.run_append]

theorem allMoves_append (t : Tail ε) (a b : List (Action ε)) :
    t.allMoves (a ++ b) = t.allMoves a ++ (t.run a).allMoves b := by
  induction a generalizing t with
  | nil => rfl
  | cons x rest ih =>
    rw [List.cons_append, allMoves, allMoves, ih, List.append_assoc]
    rfl

/-! ### Scrolling a tail -/

/-- Scrolling is what lets go of the last record. -/
def Action.Scrolls : Action ε → Prop
  | .scrollTo _ | .scrollBy _ => True
  | _ => False

/-- No scroll since the beginning, or since the tail was told to follow. -/
def Unscrolled (actions : List (Action ε)) : Prop :=
  ∃ before after, actions = before ++ after ∧ (before = [] ∨ before.getLast? = some .follow) ∧
    ∀ a ∈ after, ¬a.Scrolls

theorem scrolls_of_move {t : Tail ε} {a : Action ε} {move : Viewport.Action}
    (hmove : move ∈ t.moves a) (h : move.Scrolls) : a.Scrolls := by
  unfold moves at hmove
  split at hmove
  next =>
    simp only [List.mem_cons, List.not_mem_nil, or_false] at hmove
    rcases hmove with rfl | rfl <;> cases h
  next => cases hmove
  next =>
    rw [Option.mem_toList] at hmove
    cases a with
    | scrollTo p => trivial
    | scrollBy delta => trivial
    | _ => cases hmove <;> cases h

theorem not_scrolls_allMoves (t : Tail ε) {actions : List (Action ε)}
    (h : ∀ a ∈ actions, ¬a.Scrolls) : ∀ move ∈ t.allMoves actions, ¬move.Scrolls := by
  induction actions generalizing t with
  | nil => exact fun _ hmove => nomatch hmove
  | cons a rest ih =>
    intro move hmove hscrolls
    rcases List.mem_append.mp hmove with hmove | hmove
    · exact h a (List.mem_cons_self ..) (scrolls_of_move hmove hscrolls)
    · exact ih _ (fun b hb => h b (List.mem_cons_of_mem a hb)) move hmove hscrolls

theorem unscrolled_allMoves (t : Tail ε) {actions : List (Action ε)} (h : Unscrolled actions) :
    Viewport.Unscrolled (t.allMoves actions) := by
  obtain ⟨before, after, rfl, hbefore, hafter⟩ := h
  refine ⟨t.allMoves before, (t.run before).allMoves after, allMoves_append t before after, ?_,
    not_scrolls_allMoves _ hafter⟩
  rcases hbefore with rfl | hfollow
  · exact .inl rfl
  · obtain ⟨earlier, rfl⟩ := List.getLast?_eq_some_iff.mp hfollow
    right
    rw [allMoves_append]
    exact List.getLast?_concat

/-- **A view that follows stands at the bottom**, alone or in a tail, from its making or from
when it was told to follow until it is scrolled, whatever is done with it otherwise. Nothing
but scrolling ends it. -/
theorem bottom_run (s : TailSettings) (h : s.capacity ≠ some 0) :
    (∀ actions, Viewport.Unscrolled actions → ((Viewport.new s.rows).run actions).Follows) ∧
      (∀ (v : Viewport) (a : Viewport.Action),
        v.pinned = true → (v.act a).pinned = false → a.Scrolls) ∧
      (∃ t : Tail ε, of? s = .ok t ∧
        ∀ actions, Unscrolled actions → (t.run actions).viewport.Follows) ∧
      ∀ (t : Tail ε) (a : Action ε),
        t.viewport.pinned = true → (t.act a).viewport.pinned = false → a.Scrolls := by
  have hfollows : ∀ actions, Viewport.Unscrolled actions →
      ((Viewport.new s.rows).run actions).Follows := fun actions hactions =>
    Viewport.follows_of_pinned (Viewport.valid_run (Viewport.valid_new s.rows) actions)
      (Viewport.pinned_of_unscrolled rfl hactions)
  refine ⟨hfollows, fun v a hpinned hloose => ?_, ?_, fun t a hpinned hloose => ?_⟩
  · by_contra hstay
    have hpin := (Viewport.pinned_act v a).mpr (.inr ⟨hpinned, hstay⟩)
    rw [hloose] at hpin
    cases hpin
  · obtain ⟨t, ht, -⟩ := of?_eq (ε := ε) h
    refine ⟨t, ht, fun actions hactions => ?_⟩
    have hmade : t.viewport = Viewport.new s.rows := by
      obtain ⟨limit, rfl⟩ := new_of? ht
      rfl
    rw [viewport_run, hmade]
    exact hfollows _ (unscrolled_allMoves t hactions)
  · by_contra hstay
    have hmoves : ∀ move ∈ t.moves a, ¬move.Scrolls :=
      fun move hmove hscrolls => hstay (scrolls_of_move hmove hscrolls)
    have hpin := Viewport.pinned_run hpinned hmoves
    rw [← viewport_act, hloose] at hpin
    cases hpin

/-- A record measured as high as the screen is dropped while the view follows again, after a
clear and a look at a screen of no height. -/
theorem bottom_run_again :
    let actions : List (Action DecodeError) :=
      [.append default, .scrollBy (-1), .follow, .clear, .append default, .append default,
        .measure 2 4, .window 0, .append default]
    let made : Tail DecodeError :=
      ⟨.new (some ⟨2, by decide⟩), .new {}, none, #[], {}⟩
    (TailSettings.mk {} (some 2)).capacity ≠ some 0 ∧ of? ⟨{}, some 2⟩ = .ok made ∧
      Unscrolled actions ∧ 0 < (made.run actions).viewport.size ∧
      (made.run actions).viewport.rows.sum < 2 ^ 63 ∧
      ∃ w, ((made.run actions).viewport.window 3).1 = some w ∧
        Viewport.AtBottom (made.run actions).viewport 3 w := by
  intro actions made
  have hunscrolled : Unscrolled actions :=
    ⟨[.append default, .scrollBy (-1), .follow], _, rfl, .inr rfl, by
      simp [Action.Scrolls]⟩
  have hsize : 0 < (made.run actions).viewport.size := by decide +kernel
  have hfit : (made.run actions).viewport.rows.sum < 2 ^ 63 := by decide +kernel
  obtain ⟨-, -, ⟨t, ht, hfollows⟩, -⟩ := bottom_run (ε := DecodeError) ⟨{}, some 2⟩ (by decide)
  obtain rfl : made = t := Except.ok.inj ht
  exact ⟨by decide, ht, hunscrolled, hsize, hfit, (hfollows actions hunscrolled).window hsize hfit 3⟩

end Tail
end LiveTail
