import LiveTail.Proofs.Rows.Checked
import LiveTail.Proofs.Rows.Scan

/-! The window found by search is the window found by scanning.

`Window.ofHeights` walks over all heights; a viewport bisects its index. Wherever
the view stands, and however far its stored offset is out of date, both lay out the
same rows at the same lines (`ofHeights_eq`). Asking again for the same screen
changes nothing more (`window_window`). -/
namespace LiveTail.Rows.Viewport
open HeightIndex PrefixTree

theorem map_height_range (v : Viewport) : (List.range v.size).map v.heights.height = v.rows := by
  have hfits : 0 + v.size ≤ v.heights.size := Nat.le_of_eq (Nat.zero_add _)
  have h := v.heights.map_height_range' hfits
  rw [List.range_eq_range', h, List.drop_zero, List.take_of_length_le]
  · rfl
  · exact Nat.le_of_eq v.size_eq.symm

/-- Where the view is meant to stand: at the end while it is pinned, else where it
was left. -/
def wanted (v : Viewport) : Nat := if v.pinned then v.total else v.stored

theorem offset_eq (v : Viewport) : v.offset = min v.wanted (v.total - v.height) := by
  unfold offset wanted lowest
  split <;> omega

/-! ### One screen -/

/-- The scan gives the window of a view of settled size, from any offset that comes
to the view's own. -/
theorem ofHeights_eq {v : Viewport} (h : v.Valid) (hfit : v.rows.sum < 2 ^ 63) {scroll : Nat}
    (hscroll : v.offset = min scroll (v.total - v.height)) :
    Window.ofHeights v.height scroll v.rows v.settings.overscan = .ok v.window? := by
  have htotal : v.total = v.rows.sum := h.total_eq hfit
  have hlen : v.size = v.rows.length := v.size_eq
  rw [Window.ofHeights, window?]
  by_cases hempty : v.size = 0
  · have hnil : v.rows = [] := List.length_eq_zero_iff.mp (by omega)
    rw [if_pos (by rw [hnil]; rfl), if_pos (v.isEmpty_iff.mpr hempty)]
  · have hne : v.rows.isEmpty = false := by
      cases hrows : v.rows with
      | nil => simp [hrows] at hlen; omega
      | cons x rest => rfl
    have hpositive : v.rows.any (· == 0) = false := by
      rw [List.any_eq_false]
      intro x hx hzero
      have := h.positive x hx
      simp at hzero
      omega
    rw [hne, hpositive, if_neg (by decide), if_neg (by decide),
      if_neg (fun he => hempty (v.isEmpty_iff.mp he))]
    obtain ⟨hfirst, hlast⟩ := v.span_bounds v.offset (by omega)
    have hvisible : Span.mk (rowContaining (startsFrom 0 v.rows) v.offset)
        (rowContaining (startsFrom 0 v.rows) (v.offset + max v.height 1 - 1)) =
          v.visible v.offset := by
      rw [rows, rowContaining_eq h.heights hfit, rowContaining_eq h.heights hfit]
      rfl
    dsimp only
    rw [← htotal, ← hscroll, hvisible, ← hlen]
    generalize (v.visible v.offset).widen v.settings.overscan v.size = span at *
    have hstarts : ((startsFrom 0 v.rows).drop span.first).take span.size =
        startsFrom (v.heights.start span.first)
          ((List.range' span.first span.size).map v.heights.height) := by
      rw [drop_startsFrom, take_startsFrom, Nat.zero_add, start_eq h.heights hfit hfirst,
        v.heights.map_height_range' hlast]
      rfl
    rw [hstarts]

/-! ### The height of the screen -/

@[simp] theorem height_resize (v : Viewport) (height : Nat) :
    (v.resize height).height = height := by
  rw [resize]
  dsimp only
  split <;> rfl

theorem height_evict (v : Viewport) (count : Nat) : (v.evict count).height = v.height := by
  unfold evict
  split
  · rfl
  · dsimp only
    split <;> rfl

@[simp] theorem settings_resize (v : Viewport) (height : Nat) :
    (v.resize height).settings = v.settings := by
  rw [resize]
  dsimp only
  split <;> rfl

theorem rows_resize (v : Viewport) (height : Nat) : (v.resize height).rows = v.rows := by
  rw [rows, heights_resize, rows]

theorem total_resize (v : Viewport) (height : Nat) : (v.resize height).total = v.total := by
  rw [total, heights_resize, total]

theorem isEmpty_resize (v : Viewport) (height : Nat) :
    (v.resize height).isEmpty = true ↔ v.size = 0 := by
  rw [isEmpty_iff, size, heights_resize, size]

/-- There is a window over some rows. -/
theorem exists_window {v : Viewport} (hsize : 0 < v.size) (height : Nat) :
    ∃ w, (v.window height).1 = some w := by
  have hlive : (v.resize height).isEmpty ≠ true := by
    rw [ne_eq, isEmpty_resize]
    omega
  exact ⟨_, if_neg hlive⟩

/-- Setting the height of the screen settles the offset, and nothing else. -/
theorem offset_resize (v : Viewport) (height : Nat) :
    (v.resize height).offset = min v.wanted (v.total - height) := by
  rw [resize]
  by_cases hpinned : v.pinned = true
  · rw [if_pos (by simp [hpinned]), offset_eq]
    rfl
  · by_cases hempty : v.isEmpty = true
    · rw [if_pos (by simpa [isEmpty] using Or.inr hempty), offset_eq]
      rfl
    · rw [if_neg (by simp_all [isEmpty])]
      simp only [offset, wanted, lowest, hpinned]
      show min (min v.stored (v.total - height)) (v.total - height) = _
      simp

theorem window_window (v : Viewport) (height : Nat) :
    (v.window height).2.window height = v.window height := by
  have hresize : (v.resize height).resize height = v.resize height := by
    rw [resize, resize]
    by_cases hstay : (v.pinned || v.isEmpty) = true
    · simp only [isEmpty] at hstay ⊢
      simp [hstay]
    · simp only [isEmpty] at hstay ⊢
      simp_all [offset, lowest, total]
  rw [window, window, hresize]

/-! ### Any run -/

@[simp] theorem settings_act (v : Viewport) (a : Action) : (v.act a).settings = v.settings := by
  cases a with
  | measure sequence height =>
    simp only [act, measure]
    cases RowHeight.of? height with
    | error e => rfl
    | ok lines => cases v.rowOf? sequence <;> rfl
  | window height => exact settings_resize v height
  | evict count =>
    simp only [act, evict]
    split
    · rfl
    · split <;> rfl
  | _ => rfl

@[simp] theorem settings_run (v : Viewport) (actions : List Action) :
    (v.run actions).settings = v.settings := by
  induction actions generalizing v with
  | nil => rfl
  | cons a rest ih => rw [run, ih, settings_act]

/-- **The window found by search is the window found by scanning**, after any run
and for any screen whose height is a word: the scan takes the heights of all rows
and starts at the end of a pinned view, or at the offset stored. There is none
exactly when there are no rows; no operation leaves its range; and asking again
gives the same window, at the offset that the view then tells. -/
theorem window_eq_scan (settings : Settings) (actions : List Action) {height : Nat}
    (hheight : height ≤ Word.limit)
    (hfit : ((new settings).run actions).rows.sum < 2 ^ 63) :
    let v := (new settings).run actions
    let scroll := if v.pinned then v.total else v.stored
    Window.ofHeights height scroll ((List.range v.size).map v.heights.height) settings.overscan =
        .ok (v.window height).1 ∧
      ((v.window height).1 = none ↔ v.size = 0) ∧
      Checked.window (v.resize height) = some (v.window height).1 ∧
      (v.window height).2.window height = v.window height ∧
      ∀ w, (v.window height).1 = some w → (v.window height).2.offset = w.scroll := by
  have hvalid := valid_run (valid_new settings) actions
  have hsettings := settings_run (new settings) actions
  generalize (new settings).run actions = v at *
  have hresized : (v.resize height).Valid := hvalid.of_heights (heights_resize v height)
  have hresizedFit : (v.resize height).rows.sum < 2 ^ 63 := by rwa [rows_resize]
  have hoffset : (v.resize height).offset =
      min v.wanted ((v.resize height).total - (v.resize height).height) := by
    rw [total_resize, height_resize]
    exact offset_resize v height
  have hscan := ofHeights_eq hresized hresizedFit hoffset
  rw [rows_resize, height_resize, settings_resize, hsettings] at hscan
  refine ⟨?_, ?_, ?_, window_window v height, ?_⟩
  · rw [map_height_range]
    exact hscan
  · rw [← isEmpty_resize v height, window, window?]
    dsimp only
    split <;> simp_all
  · exact Checked.window_eq hresized hresizedFit (by rwa [height_resize])
  · intro w hw
    rw [window, window?] at hw
    dsimp only at hw
    split at hw
    · cases hw
    · cases hw
      rfl

/-- A screen of no height over a paused view whose stored offset is past the end. -/
theorem window_eq_scan_stale :
    let actions : List Action :=
      [.push 4, .push 5, .push 6, .measure 5 7, .window 3, .scrollBy (-1), .evict 1, .resetMeasured]
    let v := (new {}).run actions
    (0 ≤ Word.limit ∧ v.rows.sum < 2 ^ 63 ∧ v.pinned = false ∧ v.total < v.stored) ∧
      Window.ofHeights 0 v.stored ((List.range v.size).map v.heights.height) 5 =
        .ok (v.window 0).1 := by
  intro actions v
  have hfit : v.rows.sum < 2 ^ 63 := by decide +kernel
  have hpaused : v.pinned = false := by decide +kernel
  have hstale : v.total < v.stored := by decide +kernel
  have hheight : 0 ≤ Word.limit := Nat.zero_le _
  obtain ⟨hscan, -⟩ := window_eq_scan {} actions hheight hfit
  refine ⟨⟨hheight, hfit, hpaused, hstale⟩, ?_⟩
  rw [show (if v.pinned then v.total else v.stored) = v.stored by rw [hpaused]; rfl] at hscan
  exact hscan

end LiveTail.Rows.Viewport
