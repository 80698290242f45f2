import ActionSheet.Table
import Mathlib.Data.Nat.Find

/-!
# Where the cells of a sheet come to stand

A cell that spans rows pushes cells of later rows to the right, so where a cell stands is not said
by its own row alone. The rules of HTML are these: the rows are laid out from the top, in each of
them the cells from the left, and a cell takes the first column after the cell before it that no
cell from above reaches into. `Table.layout` follows them for any table, whatever its spans; a span
is taken as it is written, so one that would leave the table is not cut off at its last row.

`Tiles` says of placed cells that they fill a rectangle without gap or overlap and without leaving
it. Rectangles that fit are put together beside each other or one below the other, and the layout
of a block is put together so: a strip of identifying cells, as high as the block, and beside it
the cells of one argument below those of another.
-/

namespace ActionSheet

/-! ## The rules -/

/-- A cell in its place: its column, its first row, and the number of rows that it reaches over. -/
structure Box where
  column : Nat
  row : Nat
  height : Nat
  deriving DecidableEq, Repr

namespace Box

/-- Whether a cell stands on a place. -/
def covers (b : Box) (row column : Nat) : Bool :=
  b.column = column && b.row ≤ row && row < b.row + b.height

/-- Whether one of some cells stands on a place. -/
def Taken (boxes : List Box) (row column : Nat) : Prop :=
  ∃ b ∈ boxes, b.covers row column = true

instance (boxes : List Box) (row column : Nat) : Decidable (Taken boxes row column) :=
  inferInstanceAs (Decidable (∃ b ∈ boxes, _))

theorem exists_free (boxes : List Box) (row column : Nat) :
    ∃ c, column ≤ c ∧ ¬Taken boxes row c := by
  -- Beyond the rightmost cell every row has room.
  refine ⟨column + (boxes.map (·.column)).max?.getD 0 + 1, by omega, ?_⟩
  rintro ⟨b, hb, hc⟩
  have hle : b.column ≤ (boxes.map (·.column)).max?.getD 0 :=
    List.le_max?_getD_of_mem (List.mem_map_of_mem hb)
  simp only [covers, Bool.and_eq_true, decide_eq_true_eq] at hc
  omega

/-- The first column from a given one on where a row has room. -/
def firstFree (boxes : List Box) (row column : Nat) : Nat :=
  Nat.find (exists_free boxes row column)

/-- Cells of the given heights, put into a row from a column on. -/
def placeRow (row : Nat) : List Box → Nat → List Nat → List Box
  | boxes, _, [] => boxes
  | boxes, column, height :: heights =>
    let free := firstFree boxes row column
    placeRow row (boxes ++ [⟨free, row, height⟩]) (free + 1) heights

/-- Rows of cells of the given heights, put below one another from a row on. -/
def placeRows : List Box → Nat → List (List Nat) → List Box
  | boxes, _, [] => boxes
  | boxes, row, heights :: rest => placeRows (placeRow row boxes 0 heights) (row + 1) rest

end Box

/-- The spans of a row's cells; a cell that names none spans one row. -/
def Row.heights (r : Row) : List Nat :=
  r.identifying.map (·.rowSpan) ++ r.argument.columns.map fun _ => 1

/-- The spans of the cells of a table, row by row, the header first. -/
def Table.heights (t : Table) : List (List Nat) :=
  (t.header.map fun _ => 1) :: t.rows.map Row.heights

/-- The cells of a table, each in its place. -/
def Table.layout (t : Table) : List Box :=
  Box.placeRows [] 0 t.heights

namespace Box

/-! ## Rectangles -/

theorem covers_iff {b : Box} {row column : Nat} :
    b.covers row column = true ↔ b.column = column ∧ b.row ≤ row ∧ row < b.row + b.height := by
  simp only [covers, Bool.and_eq_true, decide_eq_true_eq, and_assoc]

/-- Cells fill the rectangle of the columns from `left` and before `right` and the rows from `top`
and before `bottom`: none of them reaches out of it, and each of its places has exactly one. -/
structure Tiles (left right top bottom : Nat) (boxes : List Box) : Prop where
  inside : ∀ b ∈ boxes,
    left ≤ b.column ∧ b.column < right ∧ top ≤ b.row ∧ b.row + b.height ≤ bottom
  once : ∀ row column, top ≤ row → row < bottom → left ≤ column → column < right →
    boxes.countP (·.covers row column) = 1

namespace Tiles

variable {left middle right top centre bottom row column : Nat} {boxes others : List Box}

theorem countP_eq_zero (h : Tiles left right top bottom boxes)
    (hout : row < top ∨ bottom ≤ row ∨ column < left ∨ right ≤ column) :
    boxes.countP (·.covers row column) = 0 := by
  refine List.countP_eq_zero.2 fun b hb hc => ?_
  have := h.inside b hb
  have := covers_iff.1 hc
  omega

theorem taken (h : Tiles left right top bottom boxes) (htop : top ≤ row) (hbottom : row < bottom)
    (hleft : left ≤ column) (hright : column < right) : Taken boxes row column := by
  have hone := h.once row column htop hbottom hleft hright
  exact List.countP_pos_iff.1 (by omega)

theorem not_taken (h : Tiles left right top bottom boxes)
    (hout : row < top ∨ bottom ≤ row ∨ column < left ∨ right ≤ column) :
    ¬Taken boxes row column := by
  rintro ⟨b, hb, hc⟩
  exact List.countP_eq_zero.1 (h.countP_eq_zero hout) b hb hc

theorem beside (h : Tiles left middle top bottom boxes) (h' : Tiles middle right top bottom others)
    (hleft : left ≤ middle) (hright : middle ≤ right) :
    Tiles left right top bottom (boxes ++ others) := by
  refine ⟨fun b hb => ?_, fun row column htop hbottom hl hr => ?_⟩
  · rcases List.mem_append.1 hb with hb | hb
    · have := h.inside b hb
      omega
    · have := h'.inside b hb
      omega
  · rw [List.countP_append]
    by_cases hc : column < middle
    · rw [h.once row column htop hbottom hl hc, h'.countP_eq_zero (by omega)]
    · rw [h.countP_eq_zero (by omega), h'.once row column htop hbottom (by omega) hr]

theorem above (h : Tiles left right top centre boxes) (h' : Tiles left right centre bottom others)
    (htop : top ≤ centre) (hbottom : centre ≤ bottom) :
    Tiles left right top bottom (boxes ++ others) := by
  refine ⟨fun b hb => ?_, fun row column ht hb hl hr => ?_⟩
  · rcases List.mem_append.1 hb with hb | hb
    · have := h.inside b hb
      omega
    · have := h'.inside b hb
      omega
  · rw [List.countP_append]
    by_cases hc : row < centre
    · rw [h.once row column ht hc hl hr, h'.countP_eq_zero (by omega)]
    · rw [h.countP_eq_zero (by omega), h'.once row column (by omega) hb hl hr]

theorem nil_columns : Tiles left left top bottom [] :=
  ⟨nofun, fun _ _ _ _ _ _ => by omega⟩

theorem nil_rows : Tiles left right top top [] :=
  ⟨nofun, fun _ _ _ _ _ _ => by omega⟩

theorem singleton (column row height : Nat) :
    Tiles column (column + 1) row (row + height) [⟨column, row, height⟩] := by
  refine ⟨fun b hb => ?_, fun r c hr hr' hc hc' => ?_⟩
  · rw [List.mem_singleton.1 hb]
    exact ⟨Nat.le_refl _, Nat.lt_succ_self _, Nat.le_refl _, Nat.le_refl _⟩
  · have hcover : Box.covers ⟨column, row, height⟩ r c = true :=
      covers_iff.2 ⟨show column = c by omega, hr, hr'⟩
    rw [List.countP_cons, List.countP_nil, if_pos hcover]

end Tiles

/-! ## Rows of cells side by side -/

/-- Cells side by side from a column on. -/
def sideBySide (row column : Nat) : List Nat → List Box
  | [] => []
  | height :: heights => ⟨column, row, height⟩ :: sideBySide row (column + 1) heights

theorem sideBySide_append (row column : Nat) (hs ks : List Nat) :
    sideBySide row column (hs ++ ks) =
      sideBySide row column hs ++ sideBySide row (column + hs.length) ks := by
  induction hs generalizing column with
  | nil => rfl
  | cons h hs ih =>
      rw [List.cons_append, sideBySide, sideBySide, ih, List.length_cons, List.cons_append,
        Nat.add_assoc column 1, Nat.add_comm 1]

theorem tiles_sideBySide (row height column count : Nat) :
    Tiles column (column + count) row (row + height)
      (sideBySide row column (List.replicate count height)) := by
  induction count generalizing column with
  | zero => exact .nil_columns
  | succ count ih =>
      have hrest := ih (column + 1)
      rw [show column + 1 + count = column + (count + 1) by omega] at hrest
      exact (Tiles.singleton column row height).beside hrest (by omega) (by omega)

/-- Rows of cells of one row each, below one another. -/
def stacked (column count : Nat) (row : Nat) : Nat → List Box
  | 0 => []
  | rows + 1 =>
    sideBySide row column (List.replicate count 1) ++ stacked column count (row + 1) rows

theorem tiles_stacked (column count row rows : Nat) :
    Tiles column (column + count) row (row + rows) (stacked column count row rows) := by
  induction rows generalizing row with
  | zero => exact .nil_rows
  | succ rows ih =>
      have hrest := ih (row + 1)
      rw [show row + 1 + rows = row + (rows + 1) by omega] at hrest
      exact (tiles_sideBySide row 1 column count).above hrest (by omega) (by omega)

/-! ## Laying out -/

theorem firstFree_eq {boxes : List Box} {row column k : Nat} (hle : column ≤ k)
    (hfree : ¬Taken boxes row k) (htaken : ∀ c, column ≤ c → c < k → Taken boxes row c) :
    firstFree boxes row column = k :=
  (Nat.find_eq_iff _).2 ⟨⟨hle, hfree⟩, fun c hc hno => hno.2 (htaken c hno.1 hc)⟩

theorem taken_append {boxes others : List Box} {row column : Nat} :
    Taken (boxes ++ others) row column ↔ Taken boxes row column ∨ Taken others row column := by
  simp only [Taken, List.mem_append, or_and_right, exists_or]

/-- Where a row has room from a column on, cells are put there side by side. -/
theorem placeRow_of_free {row : Nat} {heights : List Nat} : ∀ {boxes : List Box} {column : Nat},
    (∀ c, column ≤ c → ¬Taken boxes row c) →
    placeRow row boxes column heights = boxes ++ sideBySide row column heights := by
  induction heights with
  | nil => exact fun _ => (List.append_nil _).symm
  | cons height heights ih =>
      intro boxes column hfree
      have hfirst : firstFree boxes row column = column :=
        firstFree_eq (Nat.le_refl _) (hfree column (Nat.le_refl _)) fun c hc hlt => by omega
      rw [placeRow, hfirst, ih, sideBySide, List.append_assoc]
      · rfl
      · intro c hc htaken
        rcases taken_append.1 htaken with h | h
        · exact hfree c (by omega) h
        · exact (Tiles.singleton column row height).not_taken (by omega) h

/-- Where cells from above reach into the first columns of a row, the cells of the row stand to the
right of them. -/
theorem placeRow_eq {boxes : List Box} {row k : Nat} (htaken : ∀ c < k, Taken boxes row c)
    (hfree : ∀ c, k ≤ c → ¬Taken boxes row c) (heights : List Nat) :
    placeRow row boxes 0 heights = boxes ++ sideBySide row k heights := by
  cases heights with
  | nil => exact (List.append_nil _).symm
  | cons height heights =>
      have hfirst : firstFree boxes row 0 = k :=
        firstFree_eq (Nat.zero_le _) (hfree k (Nat.le_refl _)) fun c _ hc => htaken c hc
      have hthere : firstFree boxes row k = k :=
        firstFree_eq (Nat.le_refl _) (hfree k (Nat.le_refl _)) fun c hc hlt => by omega
      rw [placeRow, hfirst, ← placeRow_of_free hfree, placeRow, hthere]

theorem placeRows_append (boxes : List Box) (row : Nat) (rs rs' : List (List Nat)) :
    placeRows boxes row (rs ++ rs') =
      placeRows (placeRows boxes row rs) (row + rs.length) rs' := by
  induction rs generalizing boxes row with
  | nil => rfl
  | cons heights rs ih =>
      rw [List.cons_append, placeRows, placeRows, ih, List.length_cons,
        Nat.add_assoc row 1, Nat.add_comm 1]

/-- Beside cells that reach down far enough, rows of plain cells come to stand below one
another. -/
theorem placeRows_beside {k count rows : Nat} (bottom : Nat) : ∀ {boxes : List Box} {row : Nat},
    row + rows ≤ bottom →
    (∀ r, row ≤ r → r < bottom → ∀ c < k, Taken boxes r c) →
    (∀ r, row ≤ r → ∀ c, k ≤ c → ¬Taken boxes r c) →
    placeRows boxes row (List.replicate rows (List.replicate count 1)) =
      boxes ++ stacked k count row rows := by
  induction rows with
  | zero => exact fun _ _ _ => (List.append_nil _).symm
  | succ rows ih =>
      intro boxes row hle htaken hfree
      have hrow := placeRow_eq (htaken row (Nat.le_refl _) (by omega)) (hfree row (Nat.le_refl _))
        (List.replicate count 1)
      -- The row adds cells from `k` on and to itself alone, so the rows below are as they were.
      rw [List.replicate_succ, placeRows, hrow, ih, stacked, List.append_assoc]
      · omega
      · intro r hr hlt c hc
        exact taken_append.2 (.inl (htaken r (by omega) hlt c hc))
      · intro r hr c hc h
        rcases taken_append.1 h with h | h
        · exact hfree r (by omega) c hc h
        · exact (tiles_sideBySide row 1 k count).not_taken (by omega) h

/-- The cells of a block of so many rows, from a row on: those that identify it, `k` of them and as
high as the block, and beside them `count` in each of its rows. -/
def block (k count row rows : Nat) : List Box :=
  sideBySide row 0 (List.replicate k rows) ++ stacked k count row rows

theorem tiles_block (k count row rows : Nat) :
    Tiles 0 (k + count) row (row + rows) (block k count row rows) := by
  have hstrip := tiles_sideBySide row rows 0 k
  rw [Nat.zero_add] at hstrip
  exact hstrip.beside (tiles_stacked k count row rows) (by omega) (by omega)

/-- Below everything that has been placed, a block takes its own rectangle. -/
theorem placeRows_block {boxes : List Box} {row : Nat}
    (hclear : ∀ r, row ≤ r → ∀ c, ¬Taken boxes r c) (k count rows : Nat) :
    placeRows boxes row ((List.replicate k (rows + 1) ++ List.replicate count 1) ::
        List.replicate rows (List.replicate count 1)) =
      boxes ++ block k count row (rows + 1) := by
  have hstrip := tiles_sideBySide row (rows + 1) 0 k
  rw [Nat.zero_add] at hstrip
  have hfirst := placeRow_eq (k := 0) (fun c hc => absurd hc (Nat.not_lt_zero c))
    (fun c _ => hclear row (Nat.le_refl _) c)
    (List.replicate k (rows + 1) ++ List.replicate count 1)
  rw [sideBySide_append, List.length_replicate, Nat.zero_add] at hfirst
  -- The first row puts the strip down that the rows below it then stand beside.
  rw [placeRows, hfirst, placeRows_beside (k := k) (row + (rows + 1)), block, stacked]
  · simp only [List.append_assoc]
  · omega
  · intro r hr hlt c hc
    refine taken_append.2 (.inr (taken_append.2 (.inl ?_)))
    exact hstrip.taken (by omega) hlt (Nat.zero_le c) hc
  · intro r hr c hc h
    rcases taken_append.1 h with h | h
    · exact hclear r (by omega) c h
    · rcases taken_append.1 h with h | h
      · exact hstrip.not_taken (by omega) h
      · exact (tiles_sideBySide row 1 k count).not_taken (by omega) h

end Box

end ActionSheet
