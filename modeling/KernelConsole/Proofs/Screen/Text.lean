import Mathlib.Data.List.Induction
import KernelConsole.Proofs.Screen.Line

/-!
# Plain Text on the Tape

What a screen holds after characters were written, cell by cell: the text from where the
cursor was, and around it what was there before, except for the rows that came in below.
They are blank.

Characters and line ends only go forward. So the window moves only as far as it must: the
row of the position is its last one, or the window has not moved at all. This says how
many rows have gone, for a text of any length.

## Main definitions

* `Tape.Follows`: The window is where the position has pulled it.
* `Tape.overlaid`: Cells with a text over them.
* `Tape.HoldsText`: A tape that holds them.

## Theorems

* `Tape.Follows.scroll`: A byte that goes forward.
* `Tape.HoldsText.scroll`, `Tape.HoldsText.store`: What scrolling and a character do.
* `Tape.putAll_text`: A text.
* `Tape.putAll_line`: A text and the end of its line.
-/

namespace KernelConsole

namespace Tape

/-- The window starts 24 rows above the row of the position, or at the first row if there
    are fewer above it. -/
def Follows (t : Tape) : Prop :=
  t.base = (t.pos / Screen.columns - (Screen.rows - 1)) * Screen.columns

/-- The cells that `contents` gives, with a text over them from `start` on. The rows below
    the first screen are blank. -/
def overlaid (contents : Nat → UInt16) (colors : Colors) (start : Nat) (text : List UInt8)
    (i : Nat) : UInt16 :=
  match if start ≤ i then text[i - start]? else none with
  | some c => colors.cell c
  | none => if i < Screen.cells then contents i else colors.blank

variable {contents : Nat → UInt16} {colors : Colors} {start : Nat} {text : List UInt8} {t : Tape}

/-- The tape holds the text and what was there, up to the end of its window. -/
structure HoldsText (contents : Nat → UInt16) (colors : Colors) (start : Nat)
    (text : List UInt8) (t : Tape) : Prop where
  colors_eq : t.colors = colors
  cells : ∀ i < t.base + Screen.cells, t.cells i = overlaid contents colors start text i

theorem overlaid_before {i : Nat} (h : i < start) :
    overlaid contents colors start text i =
      if i < Screen.cells then contents i else colors.blank := by
  unfold overlaid
  rw [if_neg (by omega)]

theorem overlaid_after {i : Nat} (h : start + text.length ≤ i) :
    overlaid contents colors start text i =
      if i < Screen.cells then contents i else colors.blank := by
  have hnone : (if start ≤ i then text[i - start]? else none) = none := by
    rw [if_pos (by omega)]
    exact List.getElem?_eq_none (by omega)
  unfold overlaid
  rw [hnone]

theorem overlaid_text {k : Nat} {c : UInt8} (h : text[k]? = some c) :
    overlaid contents colors start text (start + k) = colors.cell c := by
  have hsome : (if start ≤ start + k then text[start + k - start]? else none) = some c := by
    rw [if_pos (by omega), Nat.add_sub_cancel_left]
    exact h
  unfold overlaid
  rw [hsome]

/-- A longer text differs in the cell of its last character. -/
theorem overlaid_concat (c : UInt8) (i : Nat) :
    overlaid contents colors start (text ++ [c]) i =
      if i = start + text.length then colors.cell c
      else overlaid contents colors start text i := by
  by_cases hlast : i = start + text.length
  · rw [if_pos hlast, hlast]
    exact overlaid_text List.getElem?_concat_length
  · rw [if_neg hlast]
    by_cases hbefore : i < start
    · rw [overlaid_before hbefore, overlaid_before hbefore]
    · by_cases hafter : start + text.length ≤ i
      · rw [overlaid_after hafter, overlaid_after (by
          rw [List.length_append, List.length_singleton]
          omega)]
      · -- a character of the shorter text
        unfold overlaid
        rw [List.getElem?_append_left (by omega)]

/-- A byte that goes forward, at most to the next row, and then scrolls if need be, leaves
    the window where the position has pulled it. -/
theorem Follows.scroll {t' : Tape} (h : t.Follows) (ht : t.InWindow) (hbase : t'.base = t.base)
    (hle : t.pos ≤ t'.pos) (hlt : t'.pos ≤ t.base + Screen.cells) : t'.scroll.Follows := by
  -- All of it is arithmetic about the row of the position and the first row of the window.
  rcases ht.aligned with ⟨row, hrow⟩
  have hlow := ht.le
  unfold Follows at h ⊢
  rw [scroll_pos]
  by_cases hleft : t'.base + Screen.cells ≤ t'.pos
  · -- the position is right below the window
    rw [scroll_of_le hleft]
    simp only [Screen.cells, Screen.rows, Screen.columns] at *
    omega
  · rw [scroll_of_lt (by omega)]
    simp only [Screen.cells, Screen.rows, Screen.columns] at *
    omega

namespace HoldsText

/-- The row that comes in is below the text and below the first screen. -/
theorem scroll (h : HoldsText contents colors start text t)
    (hend : start + text.length ≤ t.pos) (hlt : t.pos ≤ t.base + Screen.cells) :
    HoldsText contents colors start text t.scroll := by
  refine ⟨t.scroll_colors.trans h.colors_eq, fun i hi => ?_⟩
  by_cases hleft : t.base + Screen.cells ≤ t.pos
  · rw [scroll_of_le hleft] at hi ⊢
    simp only [blank] at hi ⊢
    -- A cell of the row that comes in is neither in the text nor on the first screen.
    by_cases hrow : t.base + Screen.cells ≤ i ∧ i < t.base + Screen.cells + Screen.columns
    · rw [if_pos hrow, overlaid_after (by omega), if_neg (by omega), h.colors_eq]
    · rw [if_neg hrow]
      exact h.cells i (by omega)
  · rw [scroll_of_lt (by omega)] at hi ⊢
    exact h.cells i hi

/-- A character at the end of the text makes it longer, and is in its cell. -/
theorem store (h : HoldsText contents colors start text t) (hpos : t.pos = start + text.length)
    (c : UInt8) : HoldsText contents colors start (text ++ [c]) (t.store c) := by
  refine ⟨h.colors_eq, fun i hi => ?_⟩
  simp only [Tape.store] at hi ⊢
  rw [overlaid_concat, h.colors_eq, hpos]
  by_cases hhere : i = start + text.length
  · rw [if_pos hhere, if_pos hhere]
  · rw [if_neg hhere, if_neg hhere]
    exact h.cells i hi

end HoldsText

/-- Characters that are written to a screen are where its cursor was, and the window has
    followed the end of them. -/
theorem putAll_text {s : Screen} (hs : s.cursor.toNat < Screen.cells)
    (contents : Nat → UInt16) {text : List UInt8} (htext : ∀ c ∈ text, 0x20 ≤ c) :
    ((s.tape contents).putAll text).InWindow ∧ ((s.tape contents).putAll text).Follows ∧
      ((s.tape contents).putAll text).pos = s.cursor.toNat + text.length ∧
      HoldsText contents s.colors s.cursor.toNat text ((s.tape contents).putAll text) := by
  -- The text grows at its end, so the induction is from there.
  induction text using List.reverseRecOn with
  | nil =>
      refine ⟨s.inWindow_tape hs contents, ?_, rfl, rfl, fun i hi => ?_⟩
      · simp only [Follows, putAll, List.foldl_nil, Screen.tape, Screen.cells, Screen.rows,
          Screen.columns] at *
        omega
      · change i < 0 + Screen.cells at hi
        change contents i = _
        by_cases hbefore : i < s.cursor.toNat
        · rw [overlaid_before hbefore, if_pos (by omega)]
        · rw [overlaid_after (by rw [List.length_nil]; omega), if_pos (by omega)]
  | append_singleton text c ih =>
      rcases ih fun d hd => htext d (List.mem_append_left _ hd) with
        ⟨hwindow, hfollows, hpos, hholds⟩
      have hc := htext c (List.mem_append_right _ List.mem_cons_self)
      have hput : (s.tape contents).putAll (text ++ [c]) =
          (((s.tape contents).putAll text).store c).scroll := by
        rw [putAll_append]
        exact congrArg scroll (interpretByte_character hc _)
      have hlt := hwindow.lt
      rw [hput]
      refine ⟨?_, hfollows.scroll hwindow rfl (Nat.le_succ _) hlt, ?_, ?_⟩
      · exact inWindow_scroll hwindow.aligned (Nat.le_succ_of_le hwindow.le) hlt
      · rw [scroll_pos, List.length_append, List.length_singleton]
        simp only [Tape.store, hpos]
        omega
      · refine (hholds.store hpos c).scroll ?_ hlt
        rw [List.length_append, List.length_singleton]
        simp only [Tape.store, hpos]
        omega

/-- The end of the line moves the position to the start of the next row. -/
theorem putAll_line {s : Screen} (hs : s.cursor.toNat < Screen.cells)
    (contents : Nat → UInt16) {text : List UInt8} (htext : ∀ c ∈ text, 0x20 ≤ c) :
    ((s.tape contents).putAll (text ++ [0x0A])).Follows ∧
      ((s.tape contents).putAll (text ++ [0x0A])).pos =
        ((s.cursor.toNat + text.length) / Screen.columns + 1) * Screen.columns ∧
      HoldsText contents s.colors s.cursor.toNat text
        ((s.tape contents).putAll (text ++ [0x0A])) := by
  rcases putAll_text hs contents htext with ⟨hwindow, hfollows, hpos, hholds⟩
  have hput : (s.tape contents).putAll (text ++ [0x0A]) =
      ((s.tape contents).putAll text).newline.scroll := by
    rw [putAll_append]
    rfl
  rcases interpretByte_window hwindow 0x0A with ⟨_, _, hlt, _⟩
  -- The start of the next row is not in front of the position.
  have hforward : ((s.tape contents).putAll text).pos ≤
      ((s.tape contents).putAll text).newline.pos := by
    simp only [newline, Screen.columns]
    omega
  rw [hput]
  refine ⟨hfollows.scroll hwindow rfl hforward hlt, ?_, ?_⟩
  · rw [scroll_pos, newline, hpos]
  · refine HoldsText.scroll ⟨hholds.colors_eq, hholds.cells⟩ ?_ hlt
    rw [← hpos]
    exact hforward

end Tape

end KernelConsole
