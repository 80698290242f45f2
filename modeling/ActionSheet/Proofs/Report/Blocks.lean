import ActionSheet.Proofs.Table.Layout
import ActionSheet.Report
import Mathlib.Data.List.Forall2

/-!
# The blocks of a report

Every action of a report has a block of rows to itself, or none if it shows no argument. This file
says which blocks a sheet consists of, and that laid out by the rules of HTML they fill it.

The span of a block is counted from the arguments that are shown, so those that are missing and
bodies that are no document leave no gap. What has to be carried from one block to the next is only
that everything placed so far ends where the block begins; the rest is `Box.placeRows_block`.
-/

namespace ActionSheet

open Box

/-- The arguments that an action shows in a sheet: those of its body that have a name and a type,
and none if the body is no document. -/
def Action.shownArguments (config : Config) (a : Action) : List Argument :=
  match Definition.parse a.definition config.namespaces with
  | .ok d => Definition.shown d.outcomes
  | .error _ => []

/-- The rows that an action adds to a sheet. -/
def Action.rows (config : Config) (a : Action) : List Row :=
  Row.block a.identifying (a.shownArguments config)

/-! ## The rows of a report -/

namespace Report

theorem table_add (config : Config) (r : Report) (a : Action) :
    (r.add config a).table = r.table.append (a.rows config) := by
  rw [add, renderBody, Action.rows, Action.shownArguments]
  cases Definition.parse a.definition config.namespaces with
  | error reason =>
      show r.table = r.table.append []
      rw [Table.append, List.append_nil]
  | ok d => rfl

theorem table_foldl (config : Config) (actions : List Action) (r : Report) :
    (actions.foldl (add config) r).table = r.table.append (actions.flatMap (·.rows config)) := by
  induction actions generalizing r with
  | nil =>
      rw [List.foldl_nil, List.flatMap_nil, Table.append, List.append_nil]
  | cons a actions ih =>
      rw [List.foldl_cons, ih, table_add, List.flatMap_cons]
      simp only [Table.append, List.append_assoc]

theorem table_ofActions (config : Config) (actions : List Action) :
    (ofActions config actions).table = ⟨Table.labels, actions.flatMap (·.rows config)⟩ :=
  table_foldl config actions empty

end Report

/-! ## Blocks -/

/-- Rows are the block of an action: one for each argument that it shows, in order. The first leads
and has the three cells that identify the action, each as high as the block, and the others
follow. -/
def IsBlockOf (config : Config) (a : Action) (rows : List Row) : Prop :=
  ∃ first rest, a.shownArguments config = first :: rest ∧
    rows = .leading [⟨a.name, rows.length⟩, ⟨a.messageName, rows.length⟩,
      ⟨a.primaryEntity, rows.length⟩] first :: rest.map .following

theorem isBlockOf_rows {config : Config} {a : Action} (h : a.shownArguments config ≠ []) :
    IsBlockOf config a (a.rows config) := by
  obtain ⟨first, rest, hargs⟩ := List.exists_cons_of_ne_nil h
  have hlength : (a.rows config).length = rest.length + 1 := by
    rw [Action.rows, hargs, Row.block, List.length_cons, List.length_map]
  refine ⟨first, rest, hargs, ?_⟩
  rw [hlength, Action.rows, hargs]
  rfl

/-- The rows of some actions are the blocks of those that show an argument. -/
theorem exists_blocks (config : Config) (actions : List Action) :
    ∃ blocks, actions.flatMap (·.rows config) = blocks.flatten ∧
      List.Forall₂ (IsBlockOf config) (actions.filter (·.shownArguments config ≠ [])) blocks := by
  induction actions with
  | nil => exact ⟨[], rfl, .nil⟩
  | cons a actions ih =>
      obtain ⟨blocks, hrows, hblocks⟩ := ih
      by_cases h : a.shownArguments config = []
      · refine ⟨blocks, ?_, ?_⟩
        · rw [List.flatMap_cons, hrows, Action.rows, h]
          rfl
        · rw [List.filter_cons_of_neg (by simp [h])]
          exact hblocks
      · refine ⟨a.rows config :: blocks, ?_, ?_⟩
        · rw [List.flatMap_cons, hrows, List.flatten_cons]
        · rw [List.filter_cons_of_pos (by simp [h])]
          exact .cons (isBlockOf_rows h) hblocks

/-- The heights of the cells of a block of three identifying columns. -/
theorem heights_of_isBlockOf {config : Config} {a : Action} {rows : List Row}
    (h : IsBlockOf config a rows) : ∃ n, rows.length = n + 1 ∧
      rows.map Row.heights = (List.replicate 3 (n + 1) ++ List.replicate 7 1) ::
        List.replicate n (List.replicate 7 1) := by
  obtain ⟨first, rest, -, hrows⟩ := h
  have hlength : rows.length = rest.length + 1 := by
    rw [hrows, List.length_cons, List.length_map]
  refine ⟨rest.length, hlength, ?_⟩
  rw [hlength] at hrows
  rw [hrows, List.map_cons, List.map_map]
  refine congrArg (_ :: ·) ?_
  exact List.map_eq_replicate_iff.2 fun argument _ => rfl

/-! ## The layout of blocks -/

/-- The cells of blocks below one another, from a row on. -/
def placedBlocks (row : Nat) : List (List Row) → List Box
  | [] => []
  | rows :: blocks =>
    Box.block 3 7 row rows.length ++ placedBlocks (row + rows.length) blocks

theorem placedBlocks_append (row : Nat) (bs bs' : List (List Row)) :
    placedBlocks row (bs ++ bs') =
      placedBlocks row bs ++ placedBlocks (row + bs.flatten.length) bs' := by
  induction bs generalizing row with
  | nil => rfl
  | cons rows bs ih =>
      rw [List.cons_append, placedBlocks, placedBlocks, ih, List.flatten_cons, List.length_append,
        List.append_assoc, Nat.add_assoc]

theorem tiles_placedBlocks (row : Nat) (blocks : List (List Row)) :
    Tiles 0 10 row (row + blocks.flatten.length) (placedBlocks row blocks) := by
  induction blocks generalizing row with
  | nil => exact .nil_rows
  | cons rows blocks ih =>
      have hrest := ih (row + rows.length)
      rw [Nat.add_assoc, ← List.length_append, ← List.flatten_cons] at hrest
      rw [List.flatten_cons, List.length_append] at hrest ⊢
      exact (tiles_block 3 7 row rows.length).above hrest (by omega) (by omega)

/-- Below everything that has been placed, blocks take their rectangles one after the other. -/
theorem placeRows_blocks {config : Config} {actions : List Action} {blocks : List (List Row)}
    (h : List.Forall₂ (IsBlockOf config) actions blocks) : ∀ {boxes : List Box} {row : Nat},
    (∀ r, row ≤ r → ∀ c, ¬Taken boxes r c) →
    placeRows boxes row (blocks.flatten.map Row.heights) = boxes ++ placedBlocks row blocks := by
  induction h with
  | nil => exact fun _ => (List.append_nil _).symm
  | @cons a rows actions blocks hblock _ ih =>
      intro boxes row hclear
      obtain ⟨n, hlength, hheights⟩ := heights_of_isBlockOf hblock
      rw [List.flatten_cons, List.map_append, placeRows_append, List.length_map, hheights,
        placeRows_block hclear, ← hlength, ih, placedBlocks, List.append_assoc]
      -- The block ends where the next one begins, as all that was placed before it does.
      intro r hr c htaken
      rcases taken_append.1 htaken with h | h
      · exact hclear r (by omega) c h
      · exact (tiles_block 3 7 row rows.length).not_taken (by omega) h

theorem layout_of_blocks {config : Config} {actions : List Action} {blocks : List (List Row)}
    (h : List.Forall₂ (IsBlockOf config) actions blocks) :
    Table.layout ⟨Table.labels, blocks.flatten⟩ =
      sideBySide 0 0 (List.replicate 10 1) ++ placedBlocks 1 blocks := by
  have hempty : ∀ r c, ¬Taken [] r c := by
    rintro r c ⟨b, hb, -⟩
    cases hb
  have hheader : placeRow 0 [] 0 (Table.labels.map fun _ => 1) =
      sideBySide 0 0 (List.replicate 10 1) :=
    placeRow_of_free fun c _ => hempty 0 c
  rw [Table.layout, Table.heights, placeRows, hheader]
  refine placeRows_blocks h fun r hr c htaken => ?_
  exact (tiles_sideBySide 0 1 0 10).not_taken (.inr (.inl hr)) htaken

/-- The rows that the identifying cells of one column span, all together. -/
def spannedRows (column : Nat) : List Row → Nat
  | [] => 0
  | r :: rows => (r.identifying[column]?.map (·.rowSpan)).getD 0 + spannedRows column rows

theorem spannedRows_append (column : Nat) (rows rows' : List Row) :
    spannedRows column (rows ++ rows') = spannedRows column rows + spannedRows column rows' := by
  induction rows with
  | nil => exact (Nat.zero_add _).symm
  | cons r rows ih => rw [List.cons_append, spannedRows, spannedRows, ih, Nat.add_assoc]

theorem spannedRows_following (column : Nat) (arguments : List Argument) :
    spannedRows column (arguments.map Row.following) = 0 := by
  induction arguments with
  | nil => rfl
  | cons a arguments ih =>
      rw [List.map_cons, spannedRows, ih]
      rfl

theorem spannedRows_of_isBlockOf {config : Config} {a : Action} {rows : List Row}
    (h : IsBlockOf config a rows) {column : Nat} (hc : column < 3) :
    spannedRows column rows = rows.length := by
  obtain ⟨first, rest, -, hrows⟩ := h
  generalize rows.length = n at hrows
  rw [hrows, spannedRows, spannedRows_following]
  rcases (by omega : column = 0 ∨ column = 1 ∨ column = 2) with rfl | rfl | rfl <;> rfl

theorem spannedRows_flatten {config : Config} {actions : List Action} {blocks : List (List Row)}
    (h : List.Forall₂ (IsBlockOf config) actions blocks) {column : Nat} (hc : column < 3) :
    spannedRows column blocks.flatten = blocks.flatten.length := by
  induction h with
  | nil => rfl
  | cons hblock _ ih =>
      rw [List.flatten_cons, spannedRows_append, ih, spannedRows_of_isBlockOf hblock hc,
        List.length_append]

/-! ## The sheet -/

/-- No cell reaches over the line between a block and the next. -/
theorem end_le_of_mem_placedBlocks {before after : List (List Row)} {row : Nat} {b : Box}
    (hb : b ∈ placedBlocks row (before ++ after)) (habove : b.row < row + before.flatten.length) :
    b.row + b.height ≤ row + before.flatten.length := by
  rw [placedBlocks_append] at hb
  rcases List.mem_append.1 hb with hb | hb
  · exact ((tiles_placedBlocks row before).inside b hb).2.2.2
  · have := (tiles_placedBlocks _ after).inside b hb
    omega

/-- The rows of a report fall into blocks, one for each action that shows an argument and in the
order of the actions. Laid out, the cells of the sheet fill a rectangle of ten columns, a header of
one row above the rows of the report; a cell that begins above the end of a block ends there or
before, and the spans of each identifying column add up to the rows. -/
theorem Report.blocks_tile_sheet (config : Config) (actions : List Action) :
    ∃ blocks : List (List Row),
      (ofActions config actions).table.rows = blocks.flatten ∧
      List.Forall₂ (IsBlockOf config) (actions.filter (·.shownArguments config ≠ [])) blocks ∧
      Tiles 0 10 0 (1 + (ofActions config actions).table.rows.length)
        (ofActions config actions).table.layout ∧
      (∀ before after, blocks = before ++ after →
        ∀ b ∈ (ofActions config actions).table.layout, b.row < 1 + before.flatten.length →
          b.row + b.height ≤ 1 + before.flatten.length) ∧
      ∀ column < 3, spannedRows column (ofActions config actions).table.rows =
        (ofActions config actions).table.rows.length := by
  obtain ⟨blocks, hrows, hblocks⟩ := exists_blocks config actions
  have hlayout := layout_of_blocks hblocks
  have hheader : Tiles 0 10 0 1 (sideBySide 0 0 (List.replicate 10 1)) := tiles_sideBySide 0 1 0 10
  rw [table_ofActions, hrows, hlayout]
  refine ⟨blocks, rfl, hblocks, ?_, ?_, ?_⟩
  · exact hheader.above (tiles_placedBlocks 1 blocks) (by omega) (by omega)
  · rintro before after rfl b hb habove
    rcases List.mem_append.1 hb with hb | hb
    · have := hheader.inside b hb
      omega
    · exact end_le_of_mem_placedBlocks hb habove
  · exact fun column hc => spannedRows_flatten hblocks hc

end ActionSheet
