import ActionSheet.Proofs.Markup.Document
import ActionSheet.Proofs.Text.Inverse
import ActionSheet.Table
import Mathlib.Data.List.Nodup

/-!
# The sheet is read back as it was written

The markup of a table is one way of writing a draft: `table`, `tr` and `td` elements, with the
values as text between their tags. No value can break out of its cell, because what is escaped has
no angle bracket. So the theorem about documents applies to every table, and the tree that comes
out is the draft's own, since the sheet declares no namespace.

The values themselves are not in the tree. What the tree keeps of a cell is that it is there, and
how many rows it spans.
-/

namespace ActionSheet.Table

open Markup Markup.Draft Text

/-! ## The tree of a table -/

def cellElement : Element := ⟨none, "td", [], []⟩

def spannedElement (c : SpannedCell) : Element :=
  ⟨none, "td", [⟨none, "rowSpan", decimal c.rowSpan⟩], []⟩

def lineElement (cells : List Element) : Element := ⟨none, "tr", [], cells⟩

/-- The tree of a table: a row of one cell for each label, then a row for each row, with seven
cells after the identifying ones. -/
def tree (t : Table) : Element :=
  ⟨none, "table", [], lineElement (t.header.map fun _ => cellElement) ::
    t.rows.map fun r =>
      lineElement (r.identifying.map spannedElement ++ List.replicate 7 cellElement)⟩

/-! ## The draft of a table -/

/-- An element without prefix. -/
def plainDraft (name : String) (entries : List Entry) (children : List Draft) : Draft :=
  .node ⟨none, name.toList⟩ entries children

def cellDraft : Draft := plainDraft "td" [] []

def spannedDraft (c : SpannedCell) : Draft :=
  plainDraft "td" [⟨⟨none, "rowSpan".toList⟩, digits c.rowSpan⟩] []

def lineDraft (cells : List Draft) : Draft := plainDraft "tr" [] cells

def rowDraft (r : Row) : Draft :=
  lineDraft (r.identifying.map spannedDraft ++ r.argument.columns.map fun _ => cellDraft)

def draft (t : Table) : Draft :=
  plainDraft "table" [] (lineDraft (t.header.map fun _ => cellDraft) :: t.rows.map rowDraft)

/-! ## Spans -/

theorem spells_digits (n : Nat) : Spells '"' (digits n) (digits n) := by
  refine spells_self fun c hc => ?_
  obtain ⟨d, hd, rfl⟩ := exists_digitChar_of_mem_digits hc
  have hall : ∀ d < 10, digitChar d ≠ '&' ∧ digitChar d ≠ '"' := by
    decide
  exact hall d hd

/-! ## The markup writes the draft -/

/-- An element without prefix is written by a tag, its content and a tag. -/
theorem written_plain {name : String} {entries : List Entry} {children : List Draft}
    {s body opening closing : List Char} (hs : Entries entries s) (hbody : Content children body)
    (hopen : opening = '<' :: (name.toList ++ s) ++ ['>'])
    (hclose : closing = "</".toList ++ name.toList ++ ['>']) :
    Written (plainDraft name entries children) (opening ++ body ++ closing) := by
  rw [hopen, hclose]
  exact .element hs hbody

theorem content_cell (value : String) : Content [cellDraft] (cell value) := by
  have heq : cell value = "    ".toList ++ "<td>".toList ++ escapeChars value.toList ++
      ("</td>".toList ++ "\n".toList) := rfl
  have hwritten : Written cellDraft ("<td>".toList ++ escapeChars value.toList ++ "</td>".toList) :=
    written_plain entries_nil (.of_text (lt_not_mem_escapeChars _)) rfl rfl
  have hcell : Content _ ("    ".toList ++ _ ++ "\n".toList) :=
    (Content.of_written hwritten).padded (by decide) (by decide)
  rw [heq]
  simpa only [List.append_assoc] using hcell

theorem content_spannedCell (c : SpannedCell) : Content [spannedDraft c] (spannedCell c) := by
  have heq : spannedCell c = "    ".toList ++ "<td rowSpan=\"".toList ++ digits c.rowSpan ++
      "\">".toList ++ escapeChars c.value.toList ++ ("</td>".toList ++ "\n".toList) := rfl
  have hspan : Entries [⟨⟨none, "rowSpan".toList⟩, digits c.rowSpan⟩]
      ([' '] ++ "rowSpan".toList ++ '=' :: '"' :: (digits c.rowSpan ++ '"' :: [])) :=
    .cons nofun (List.all_eq_true.1 rfl) (.inl rfl) (spells_digits c.rowSpan) entries_nil
  have htag : "<td rowSpan=\"".toList ++ digits c.rowSpan ++ "\">".toList =
      '<' :: ("td".toList ++
        ([' '] ++ "rowSpan".toList ++ '=' :: '"' :: (digits c.rowSpan ++ '"' :: []))) ++ ['>'] := by
    rw [show "\">".toList = ['"'] ++ ['>'] from rfl, ← List.append_assoc,
      List.append_assoc _ (digits c.rowSpan)]
    rfl
  have hwritten : Written (spannedDraft c)
      ("<td rowSpan=\"".toList ++ digits c.rowSpan ++ "\">".toList ++ escapeChars c.value.toList ++
        "</td>".toList) :=
    written_plain hspan (.of_text (lt_not_mem_escapeChars _)) htag rfl
  have hcell : Content _ ("    ".toList ++ _ ++ "\n".toList) :=
    (Content.of_written hwritten).padded (by decide) (by decide)
  rw [heq]
  simpa only [List.append_assoc] using hcell

/-- A line writes its row, whatever writes its cells. -/
theorem content_line {ds : List Draft} {cells : List Char} (h : Content ds cells) :
    Content [lineDraft ds] (line cells) := by
  have heq : line cells = "  ".toList ++ "<tr>".toList ++ "\n".toList ++ cells ++
      ("  ".toList ++ "</tr>".toList) := rfl
  have hcells : Content ds ("\n".toList ++ cells ++ "  ".toList) :=
    h.padded (by decide) (by decide)
  have hwritten : Written (lineDraft ds)
      ("<tr>".toList ++ ("\n".toList ++ cells ++ "  ".toList) ++ "</tr>".toList) :=
    written_plain entries_nil hcells rfl rfl
  have hline : Content _ ("  ".toList ++ _ ++ []) :=
    (Content.of_written hwritten).padded (by decide) (by decide)
  rw [heq]
  simpa only [List.append_assoc, List.append_nil] using hline

theorem content_row (r : Row) : Content [rowDraft r] ('\n' :: line (rowCells r)) := by
  have hcells := (Content.flatMap content_spannedCell r.identifying).append
    (Content.flatMap content_cell r.argument.columns)
  have hline := content_line hcells
  exact .filler (.text (s := ['\n']) (by decide)) hline

/-- The markup of a table writes its draft and nothing around it. -/
theorem written_markup (t : Table) : Written t.draft t.markup := by
  have heq : t.markup = "<table>".toList ++ "\n".toList ++ line (t.header.flatMap cell) ++
      t.rows.flatMap (fun r => '\n' :: line (rowCells r)) ++
      ("\n".toList ++ "</table>".toList) := rfl
  have hlines := (content_line (Content.flatMap content_cell t.header)).append
    (Content.flatMap content_row t.rows)
  have hbody : Content _ ("\n".toList ++ _ ++ "\n".toList) :=
    hlines.padded (by decide) (by decide)
  have hwritten : Written t.draft ("<table>".toList ++ _ ++ "</table>".toList) :=
    written_plain entries_nil hbody rfl rfl
  rw [heq]
  simpa only [List.append_assoc] using hwritten

/-! ## The draft becomes the tree -/

/-- A draft that every reading leaves as it is, of at most so many levels. -/
structure IsSettled (levels : Nat) (d : Draft) : Prop where
  wellFormed : d.WellFormed
  undeclared : d.Undeclared
  depth_le : d.depth ≤ levels

theorem all_of_isSettled {levels : Nat} {ds : List Draft} (h : ∀ d ∈ ds, IsSettled levels d) :
    WellFormedAll ds ∧ UndeclaredAll ds ∧ depthAll ds ≤ levels := by
  induction ds with
  | nil => exact ⟨trivial, trivial, Nat.zero_le _⟩
  | cons d ds ih =>
      have hd := h d List.mem_cons_self
      obtain ⟨hw, hu, hdepth⟩ := ih fun x hx => h x (List.mem_cons_of_mem _ hx)
      exact ⟨⟨hd.wellFormed, hw⟩, ⟨hd.undeclared, hu⟩, Nat.max_le.2 ⟨hd.depth_le, hdepth⟩⟩

theorem isSettled_plainDraft {levels : Nat} {name : String} {entries : List Entry}
    {children : List Draft} (hname : IsNamePart name.toList)
    (hentries : ∀ a ∈ entries, a.name.IsPlain ∧ a.name.pre = none ∧ a.name.part ≠ "xmlns".toList)
    (hnodup : (entries.map (·.name)).Nodup) (h : ∀ d ∈ children, IsSettled levels d) :
    IsSettled (levels + 1) (plainDraft name entries children) := by
  obtain ⟨hw, hu, hdepth⟩ := all_of_isSettled h
  refine ⟨⟨⟨hname, nofun⟩, fun a ha => ⟨(hentries a ha).1, fun hp => ?_⟩, hnodup, hw⟩,
    ⟨rfl, fun a ha hdecl => ?_, hu⟩, Nat.succ_le_succ hdepth⟩
  · exact absurd ((hentries a ha).2.1.symm.trans hp) nofun
  · obtain ⟨-, hpre, hpart⟩ := hentries a ha
    rcases hdecl with hp | hn
    · exact absurd (hpre.symm.trans hp) nofun
    · exact hpart (congrArg Name.part hn)

theorem isSettled_cellDraft : IsSettled 1 cellDraft :=
  isSettled_plainDraft (by decide) nofun .nil nofun

theorem isSettled_spannedDraft (c : SpannedCell) : IsSettled 1 (spannedDraft c) := by
  have hname : Name.IsPlain ⟨none, "rowSpan".toList⟩ := by
    decide
  refine isSettled_plainDraft (by decide) (fun a ha => ?_) (List.nodup_singleton _) nofun
  rw [List.mem_singleton.1 ha]
  exact ⟨hname, rfl, show "rowSpan".toList ≠ "xmlns".toList by decide⟩

theorem isSettled_lineDraft {cells : List Draft} (h : ∀ d ∈ cells, IsSettled 1 d) :
    IsSettled 2 (lineDraft cells) :=
  isSettled_plainDraft (by decide) nofun .nil h

theorem isSettled_draft (t : Table) : IsSettled 3 t.draft := by
  refine isSettled_plainDraft (by decide) nofun .nil fun d hd => ?_
  rcases List.mem_cons.1 hd with rfl | hd
  · refine isSettled_lineDraft fun d hd => ?_
    obtain ⟨value, -, rfl⟩ := List.mem_map.1 hd
    exact isSettled_cellDraft
  · obtain ⟨r, -, rfl⟩ := List.mem_map.1 hd
    refine isSettled_lineDraft fun d hd => ?_
    rcases List.mem_append.1 hd with hd | hd
    · obtain ⟨c, -, rfl⟩ := List.mem_map.1 hd
      exact isSettled_spannedDraft c
    · obtain ⟨value, -, rfl⟩ := List.mem_map.1 hd
      exact isSettled_cellDraft

theorem element_plainDraft (name : String) (entries : List Entry) (children : List Draft) :
    (plainDraft name entries children).element =
      ⟨none, name, entries.map Entry.toAttribute, children.map element⟩ := by
  rw [plainDraft, element, elementAll_eq_map, String.ofList_toList]

theorem element_draft (t : Table) : t.draft.element = t.tree := by
  have hcell : cellDraft.element = cellElement := element_plainDraft _ _ _
  have hspanned : ∀ c, (spannedDraft c).element = spannedElement c :=
    fun c => element_plainDraft _ _ _
  have hline : ∀ cells, (lineDraft cells).element = lineElement (cells.map element) :=
    fun cells => element_plainDraft _ _ _
  have hrow : ∀ r, (rowDraft r).element =
      lineElement (r.identifying.map spannedElement ++ List.replicate 7 cellElement) := by
    intro r
    rw [rowDraft, hline, List.map_append]
    simp only [List.map_map, Function.comp_def, hspanned, hcell]
    rfl
  rw [draft, element_plainDraft, List.map_cons, hline]
  simp only [List.map_map, Function.comp_def, hcell, hrow]
  rfl

/-- Every table is read back: the tree of its markup is the tree of the table. -/
theorem parse_html (t : Table) : parse t.html = .ok t.tree := by
  have hdocument : Document t.draft t.html.toList := by
    have := Document.root .nil (written_markup t) .nil
    rwa [List.nil_append, List.append_nil, ← String.toList_ofList (l := t.markup)] at this
  have hsettled := isSettled_draft t
  obtain ⟨e, he, hbecomes⟩ := exists_parse_of_document hdocument hsettled.wellFormed
    (hsettled.depth_le.trans (by decide))
  rw [he, hbecomes.same hsettled.undeclared rfl, element_draft]

end ActionSheet.Table
