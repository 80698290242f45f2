import ActionSheet.Report
import Mathlib.Data.List.Forall2

/-!
# Every action accounts for its share of a report

A report is made by one pass over the actions that adds to a sheet and to two lists of warnings.
What one action adds depends on that action and the settings alone, and this file says so: a report
is put together from shares, one for each action and in their order.

The pass carries no state besides the report itself, and a step only ever adds at the ends of its
lists. So the shares of the actions that were passed are all there is to know about a report on the
way, and the step lemma is `add_ofShares`.
-/

namespace ActionSheet

/-- What one action adds to a report. -/
structure Share where
  rows : List Row
  documentWarnings : List DocumentWarning
  argumentWarnings : List ArgumentWarning

/-- The share of an action: one warning with the reason, if its body is refused, and otherwise the
rows of its arguments and a warning for each argument that is missing. -/
inductive Action.HasShare (config : Config) (a : Action) : Share → Prop
  | refused {reason : Markup.Fault}
      (h : renderBody a.definition a.identifying config.namespaces = .error reason) :
      HasShare config a ⟨[], [⟨a.name, reason⟩], []⟩
  | rendered {rendering : Rendering}
      (h : renderBody a.definition a.identifying config.namespaces = .ok rendering) :
      HasShare config a ⟨rendering.rows, [], rendering.skipped.map (⟨a.name, ·⟩)⟩

theorem Action.exists_hasShare (config : Config) (a : Action) : ∃ s, a.HasShare config s := by
  cases h : renderBody a.definition a.identifying config.namespaces with
  | error reason => exact ⟨_, .refused h⟩
  | ok rendering => exact ⟨_, .rendered h⟩

theorem exists_shares (config : Config) (actions : List Action) :
    ∃ shares, List.Forall₂ (Action.HasShare config) actions shares := by
  induction actions with
  | nil => exact ⟨[], .nil⟩
  | cons a actions ih =>
      obtain ⟨s, hs⟩ := a.exists_hasShare config
      obtain ⟨shares, hshares⟩ := ih
      exact ⟨s :: shares, .cons hs hshares⟩

namespace Report

/-- The report that some shares make up, one below the other. -/
def ofShares (shares : List Share) : Report where
  definitions := shares.length
  table := ⟨Table.labels, shares.flatMap (·.rows)⟩
  documentWarnings := shares.flatMap (·.documentWarnings)
  argumentWarnings := shares.flatMap (·.argumentWarnings)

theorem add_ofShares {config : Config} {a : Action} {s : Share} (h : a.HasShare config s)
    (before : List Share) : (ofShares before).add config a = ofShares (before ++ [s]) := by
  simp only [ofShares, List.length_append, List.length_singleton, List.flatMap_append,
    List.flatMap_singleton]
  cases h with
  | refused h =>
      rw [add, h]
      simp only [List.append_nil]
  | rendered h =>
      rw [add, h]
      simp only [Table.append, List.append_nil]

theorem foldl_add_ofShares {config : Config} {actions : List Action} {shares : List Share}
    (h : List.Forall₂ (Action.HasShare config) actions shares) (before : List Share) :
    actions.foldl (add config) (ofShares before) = ofShares (before ++ shares) := by
  induction h generalizing before with
  | nil => rw [List.foldl_nil, List.append_nil]
  | cons hs _ ih => rw [List.foldl_cons, add_ofShares hs, ih, ← List.append_cons]

/-- A report consists of the shares of its actions. -/
theorem ofActions_eq_ofShares {config : Config} {actions : List Action} {shares : List Share}
    (h : List.Forall₂ (Action.HasShare config) actions shares) :
    ofActions config actions = ofShares shares :=
  foldl_add_ofShares h []

theorem length_of_hasShare {config : Config} {actions : List Action} {shares : List Share}
    (h : List.Forall₂ (Action.HasShare config) actions shares) :
    (ofShares shares).definitions = actions.length :=
  h.length_eq.symm

/-- A report accounts for each action once and in order, by its share and by nothing else. So the
report over some actions and then others is the report over the first followed by that over the
others, and exchanging one action changes its own share only. -/
theorem shares_account_for_actions (config : Config) :
    (∀ actions : List Action, ∃ shares : List Share,
      List.Forall₂ (Action.HasShare config) actions shares ∧
      (ofActions config actions).definitions = actions.length ∧
      ofActions config actions = ofShares shares) ∧
    (∀ actions others : List Action,
      let first := ofActions config actions
      let second := ofActions config others
      let whole := ofActions config (actions ++ others)
      whole.definitions = first.definitions + second.definitions ∧
      whole.table.rows = first.table.rows ++ second.table.rows ∧
      whole.documentWarnings = first.documentWarnings ++ second.documentWarnings ∧
      whole.argumentWarnings = first.argumentWarnings ++ second.argumentWarnings) ∧
    ∀ (before after : List Action) (a a' : Action), ∃ above below : List Share, ∃ s s' : Share,
      List.Forall₂ (Action.HasShare config) before above ∧
      List.Forall₂ (Action.HasShare config) after below ∧
      a.HasShare config s ∧ a'.HasShare config s' ∧
      ofActions config (before ++ a :: after) = ofShares (above ++ s :: below) ∧
      ofActions config (before ++ a' :: after) = ofShares (above ++ s' :: below) := by
  refine ⟨fun actions => ?_, fun actions others => ?_, fun before after a a' => ?_⟩
  · obtain ⟨shares, h⟩ := exists_shares config actions
    rw [ofActions_eq_ofShares h]
    exact ⟨shares, h, length_of_hasShare h, rfl⟩
  · obtain ⟨first, hfirst⟩ := exists_shares config actions
    obtain ⟨second, hsecond⟩ := exists_shares config others
    rw [ofActions_eq_ofShares hfirst, ofActions_eq_ofShares hsecond,
      ofActions_eq_ofShares (List.rel_append hfirst hsecond)]
    exact ⟨List.length_append, List.flatMap_append, List.flatMap_append, List.flatMap_append⟩
  · obtain ⟨above, habove⟩ := exists_shares config before
    obtain ⟨below, hbelow⟩ := exists_shares config after
    obtain ⟨s, hs⟩ := a.exists_hasShare config
    obtain ⟨s', hs'⟩ := a'.exists_hasShare config
    refine ⟨above, below, s, s', habove, hbelow, hs, hs', ?_, ?_⟩
    · exact ofActions_eq_ofShares (List.rel_append habove (.cons hs hbelow))
    · exact ofActions_eq_ofShares (List.rel_append habove (.cons hs' hbelow))

end Report

end ActionSheet
