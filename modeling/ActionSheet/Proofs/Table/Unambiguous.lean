import ActionSheet.Proofs.Table.Reading
import ActionSheet.Proofs.Text.Inverse

/-!
# The markup of a sheet says what is in it

Two tables with the same markup have the same header and, row by row, the same cells. The markup is
one flat text, so every boundary has to be found again in it: a value ends at the angle bracket
that it cannot hold, the span of a cell at the quotation mark, a row of cells where the next line is
indented less, and the table where its own end tag stands.

Each kind of item is shown to be found at the front of whatever it stands in front of. The lists
then follow by one lemma, `forall₂_of_flatMap_append_eq`, which is used at three levels: for the
cells of a line, for the identifying cells before the others, and for the rows.

Only one difference between tables leaves no trace: whether a row without identifying cells leads a
block or follows in one.
-/

namespace ActionSheet.Table

open Text

/-! ## Lists of items -/

/-- Items written one after the other are found again, if each is found at the front of whatever it
stands in front of and none begins what comes after them all. -/
theorem forall₂_of_flatMap_append_eq {α : Type} {R : α → α → Prop} {write : α → List Char}
    (hwrite : ∀ a b x y, write a ++ x = write b ++ y → R a b ∧ x = y) {x y : List Char}
    (hx : ∀ a z, write a ++ z ≠ x) (hy : ∀ a z, write a ++ z ≠ y) :
    ∀ {as bs : List α}, as.flatMap write ++ x = bs.flatMap write ++ y →
      List.Forall₂ R as bs ∧ x = y := by
  intro as
  induction as with
  | nil =>
      intro bs h
      cases bs with
      | nil => exact ⟨.nil, h⟩
      | cons b bs =>
          rw [List.flatMap_cons, List.append_assoc] at h
          exact absurd h.symm (hx b _)
  | cons a as ih =>
      intro bs h
      rw [List.flatMap_cons, List.append_assoc] at h
      cases bs with
      | nil => exact absurd h (hy a _)
      | cons b bs =>
          rw [List.flatMap_cons, List.append_assoc] at h
          obtain ⟨hab, hrest⟩ := hwrite a b _ _ h
          obtain ⟨hall, hend⟩ := ih hrest
          exact ⟨.cons hab hall, hend⟩

/-! ## Cells -/

/-- What has no mark in it is found in front of the first one. -/
theorem eq_of_append_mark {c : Char} {s t x y : List Char} (hs : c ∉ s) (ht : c ∉ t)
    (h : s ++ c :: x = t ++ c :: y) : s = t ∧ x = y := by
  induction s generalizing t with
  | nil =>
      cases t with
      | nil => exact ⟨rfl, (List.cons.inj h).2⟩
      | cons d t => exact absurd ((List.cons.inj h).1 ▸ List.mem_cons_self) ht
  | cons d s ih =>
      cases t with
      | nil => exact absurd ((List.cons.inj h).1 ▸ List.mem_cons_self) hs
      | cons d' t =>
          obtain ⟨rfl, hrest⟩ := List.cons.inj h
          obtain ⟨rfl, hxy⟩ := ih (fun hm => hs (List.mem_cons_of_mem _ hm))
            (fun hm => ht (List.mem_cons_of_mem _ hm)) hrest
          exact ⟨rfl, hxy⟩

/-- Escaped text ends at the next angle bracket. -/
theorem escapeChars_append_eq {s t x y : List Char}
    (h : escapeChars s ++ '<' :: x = escapeChars t ++ '<' :: y) : s = t ∧ x = y := by
  obtain ⟨hs, hxy⟩ := eq_of_append_mark (lt_not_mem_escapeChars s) (lt_not_mem_escapeChars t) h
  exact ⟨escapeChars_injective hs, hxy⟩

theorem quote_not_mem_digits (n : Nat) : '"' ∉ digits n := by
  intro h
  obtain ⟨d, hd, hc⟩ := exists_digitChar_of_mem_digits h
  have hall : ∀ d < 10, '"' ≠ digitChar d := by
    decide
  exact hall d hd hc

/-- A numeral in quotation marks ends at the next one. -/
theorem digits_append_eq {n m : Nat} {x y : List Char}
    (h : digits n ++ '"' :: x = digits m ++ '"' :: y) : n = m ∧ x = y := by
  obtain ⟨hn, hxy⟩ := eq_of_append_mark (quote_not_mem_digits n) (quote_not_mem_digits m) h
  exact ⟨digits_injective hn, hxy⟩

theorem cell_append (value : String) (x : List Char) :
    cell value ++ x =
      "    <td>".toList ++ (escapeChars value.toList ++ '<' :: ("/td>\n".toList ++ x)) := by
  show "    <td>".toList ++ escapeChars value.toList ++ '<' :: "/td>\n".toList ++ x = _
  rw [List.append_assoc, List.append_assoc]
  rfl

theorem spannedCell_append (c : SpannedCell) (x : List Char) :
    spannedCell c ++ x =
      "    <td rowSpan=\"".toList ++ (digits c.rowSpan ++ '"' :: '>' ::
        (escapeChars c.value.toList ++ '<' :: ("/td>\n".toList ++ x))) := by
  show "    <td rowSpan=\"".toList ++ digits c.rowSpan ++ ['"', '>'] ++
    escapeChars c.value.toList ++ '<' :: "/td>\n".toList ++ x = _
  rw [List.append_assoc, List.append_assoc, List.append_assoc, List.append_assoc]
  rfl

theorem cell_append_eq (v w : String) (x y : List Char) (h : cell v ++ x = cell w ++ y) :
    v = w ∧ x = y := by
  rw [cell_append, cell_append] at h
  obtain ⟨hvalue, hrest⟩ := escapeChars_append_eq (List.append_cancel_left h)
  exact ⟨String.toList_inj.1 hvalue, List.append_cancel_left hrest⟩

theorem spannedCell_append_eq (c d : SpannedCell) (x y : List Char)
    (h : spannedCell c ++ x = spannedCell d ++ y) : c = d ∧ x = y := by
  rw [spannedCell_append, spannedCell_append] at h
  obtain ⟨hspan, hrest⟩ := digits_append_eq (List.append_cancel_left h)
  obtain ⟨hvalue, hrest⟩ := escapeChars_append_eq (List.cons.inj hrest).2
  refine ⟨?_, List.append_cancel_left hrest⟩
  cases c
  cases d
  cases hspan
  cases String.toList_inj.1 hvalue
  rfl

/-! ## Rows -/

/-- Rows that have the same cells: those that identify a definition, and those of an argument. -/
def SameCells (r r' : Row) : Prop :=
  r.identifying = r'.identifying ∧ r.argument = r'.argument

/-- Rows with the same cells are the same, unless one leads a block without identifying it and the
other follows. -/
theorem sameCells_iff {r r' : Row} :
    SameCells r r' ↔ r = r' ∨
      ∃ a, (r = .following a ∧ r' = .leading [] a) ∨ (r = .leading [] a ∧ r' = .following a) := by
  constructor
  · rintro ⟨hcells, hargument⟩
    cases r with
    | leading cells a =>
        cases r' with
        | leading cells' a' =>
            cases hcells
            cases hargument
            exact .inl rfl
        | following a' =>
            cases hcells
            cases hargument
            exact .inr ⟨a, .inr ⟨rfl, rfl⟩⟩
    | following a =>
        cases r' with
        | leading cells' a' =>
            cases hcells
            cases hargument
            exact .inr ⟨a, .inl ⟨rfl, rfl⟩⟩
        | following a' =>
            cases hargument
            exact .inl rfl
  · rintro (rfl | ⟨a, ⟨rfl, rfl⟩ | ⟨rfl, rfl⟩⟩)
    · exact ⟨rfl, rfl⟩
    · exact ⟨rfl, rfl⟩
    · exact ⟨rfl, rfl⟩

theorem rowCells_of_sameCells {r r' : Row} (h : SameCells r r') : rowCells r = rowCells r' := by
  rw [rowCells, rowCells, h.1, h.2]

theorem columns_injective : Function.Injective Argument.columns := by
  intro a b h
  cases a
  cases b
  cases h
  rfl

/-- No cell begins where a line ends. -/
theorem cell_append_ne_end (value : String) (z y : List Char) :
    cell value ++ z ≠ "  </tr>".toList ++ y := by
  intro h
  have hthird : some ' ' = some '<' := congrArg (·[2]?) h
  exact absurd hthird (by decide)

/-- No cell that spans rows begins where a plain one does, or where a line ends. -/
theorem spannedCell_append_ne {c : SpannedCell} {value : String} (z y : List Char) :
    spannedCell c ++ z ≠ cell value ++ y := by
  intro h
  have heighth : some ' ' = some '>' := congrArg (·[7]?) h
  exact absurd heighth (by decide)

theorem cells_append_eq {vs ws : List String} {x y : List Char}
    (h : vs.flatMap cell ++ ("  </tr>".toList ++ x) = ws.flatMap cell ++ ("  </tr>".toList ++ y)) :
    vs = ws ∧ x = y := by
  obtain ⟨hall, hrest⟩ := forall₂_of_flatMap_append_eq (R := (· = ·)) cell_append_eq
    (fun v z => cell_append_ne_end v z x) (fun v z => cell_append_ne_end v z y) h
  exact ⟨List.forall₂_eq_eq_eq ▸ hall, List.append_cancel_left hrest⟩

theorem rowCells_append_eq {r r' : Row} {x y : List Char}
    (h : rowCells r ++ ("  </tr>".toList ++ x) = rowCells r' ++ ("  </tr>".toList ++ y)) :
    SameCells r r' ∧ x = y := by
  rw [rowCells, rowCells, List.append_assoc, List.append_assoc] at h
  -- An argument has a first column, so a plain cell follows the identifying ones.
  have hplain : ∀ (q : Row) (z : List Char) (c : SpannedCell) (z' : List Char),
      spannedCell c ++ z' ≠ q.argument.columns.flatMap cell ++ z := by
    intro q z c z'
    rw [Argument.columns, List.flatMap_cons, List.append_assoc]
    exact spannedCell_append_ne z' _
  obtain ⟨hall, hrest⟩ := forall₂_of_flatMap_append_eq (R := (· = ·)) spannedCell_append_eq
    (hplain r _) (hplain r' _) h
  obtain ⟨hcolumns, hxy⟩ := cells_append_eq hrest
  exact ⟨⟨List.forall₂_eq_eq_eq ▸ hall, columns_injective hcolumns⟩, hxy⟩

/-- A row on the lines below another. -/
def rowLines (r : Row) : List Char := '\n' :: line (rowCells r)

theorem line_append (cells x : List Char) :
    line cells ++ x = "  <tr>\n".toList ++ (cells ++ ("  </tr>".toList ++ x)) := by
  show "  <tr>\n".toList ++ cells ++ "  </tr>".toList ++ x = _
  rw [List.append_assoc, List.append_assoc]

theorem rowLines_append_eq (r r' : Row) (x y : List Char)
    (h : rowLines r ++ x = rowLines r' ++ y) : SameCells r r' ∧ x = y := by
  have hline : line (rowCells r) ++ x = line (rowCells r') ++ y := (List.cons.inj h).2
  rw [line_append, line_append] at hline
  exact rowCells_append_eq (List.append_cancel_left hline)

theorem rowLines_append_ne_end (r : Row) (z : List Char) :
    rowLines r ++ z ≠ "\n</table>".toList := by
  intro h
  have hsecond : some ' ' = some '<' := congrArg (·[1]?) h
  exact absurd hsecond (by decide)

/-! ## Tables -/

theorem markup_eq (t : Table) :
    t.markup = "<table>\n".toList ++ ("  <tr>\n".toList ++ (t.header.flatMap cell ++
      ("  </tr>".toList ++ (t.rows.flatMap rowLines ++ "\n</table>".toList)))) := by
  show "<table>\n".toList ++ line (t.header.flatMap cell) ++ t.rows.flatMap rowLines ++
    "\n</table>".toList = _
  rw [List.append_assoc, List.append_assoc, line_append]

theorem eq_of_markup_eq {s t : Table} (h : s.markup = t.markup) :
    s.header = t.header ∧ List.Forall₂ SameCells s.rows t.rows := by
  rw [markup_eq, markup_eq] at h
  obtain ⟨hheader, hrows⟩ :=
    cells_append_eq (List.append_cancel_left (List.append_cancel_left h))
  exact ⟨hheader, (forall₂_of_flatMap_append_eq rowLines_append_eq rowLines_append_ne_end
    rowLines_append_ne_end hrows).1⟩

theorem markup_of_sameCells {s t : Table} (hheader : s.header = t.header)
    (hrows : List.Forall₂ SameCells s.rows t.rows) : s.markup = t.markup := by
  have hlines : s.rows.flatMap rowLines = t.rows.flatMap rowLines := by
    generalize s.rows = rs, t.rows = rs' at hrows
    induction hrows with
    | nil => rfl
    | cons hr _ ih =>
        rw [List.flatMap_cons, List.flatMap_cons, ih, rowLines, rowLines, rowCells_of_sameCells hr]
  rw [markup_eq, markup_eq, hheader, hlines]

/-- Tables have the same markup exactly when they have the same header and, row by row, the same
identifying cells and the same argument. Rows with the same markup that differ are a row that leads
without identifying cells and one that follows. -/
theorem html_determines_table (s t : Table) :
    (s.html = t.html ↔
      s.header = t.header ∧ s.rows.length = t.rows.length ∧
        List.Forall₂ (fun r r' => r.identifying = r'.identifying ∧ r.argument = r'.argument)
          s.rows t.rows) ∧
    ∀ r r' : Row, line (rowCells r) = line (rowCells r') ∧ r ≠ r' ↔
      ∃ a, (r = .following a ∧ r' = .leading [] a) ∨ (r = .leading [] a ∧ r' = .following a) := by
  refine ⟨⟨fun h => ?_, fun ⟨hheader, _, hrows⟩ => ?_⟩, fun r r' => ⟨?_, fun h => ⟨?_, ?_⟩⟩⟩
  · have hmarkup : s.markup = t.markup := String.ofList_inj.1 h
    obtain ⟨hheader, hrows⟩ := eq_of_markup_eq hmarkup
    exact ⟨hheader, hrows.length_eq, hrows⟩
  · exact congrArg String.ofList (markup_of_sameCells hheader hrows)
  · rintro ⟨hline, hne⟩
    have hlines : rowLines r ++ [] = rowLines r' ++ [] := congrArg ('\n' :: · ++ []) hline
    exact (sameCells_iff.1 (rowLines_append_eq r r' [] [] hlines).1).resolve_left hne
  · exact congrArg line (rowCells_of_sameCells (sameCells_iff.2 (.inr h)))
  · rintro rfl
    obtain ⟨a, ⟨rfl, h⟩ | ⟨rfl, h⟩⟩ := h
    · cases h
    · cases h

end ActionSheet.Table
