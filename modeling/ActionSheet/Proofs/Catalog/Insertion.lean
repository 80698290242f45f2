import ActionSheet.Catalog.Basic
import Mathlib.Data.List.Forall2

/-!
# What a catalog answers, whatever order it was filled in

A catalog is filled by calls that add a definition or a message, in any order. The two kinds do not
meet: a definition is joined to its message when the catalog is asked and not when it comes. So any
sequence of calls amounts to its messages first and its definitions after them, which is the catalog
of a snapshot (`ofInsertions_eq_ofSnapshot`), and only that catalog has to be looked into.

Of the messages a catalog knows the last for each id. Of the definitions it answers with those that
qualify, each joined to its message, and sorts them. The sort is the library's, and stable: actions
of one name are in order already, and a sorted part of a list survives a stable sort as it is.
-/

namespace ActionSheet

/-! ## The order of names -/

namespace Text

theorem atMost_iff {s t : String} : atMost s t ↔ bytes s ≤ bytes t :=
  decide_eq_true_iff

theorem atMost_trans {s t u : String} (hst : atMost s t) (htu : atMost t u) : atMost s u :=
  atMost_iff.2 (List.le_trans (atMost_iff.1 hst) (atMost_iff.1 htu))

theorem atMost_total (s t : String) : atMost s t || atMost t s := by
  rw [Bool.or_eq_true, atMost_iff, atMost_iff]
  exact List.le_total _ _

theorem bytes_injective : Function.Injective bytes := by
  intro s t h
  exact String.toByteArray_inj.1 (ByteArray.ext (Array.toList_inj.1 h))

theorem atMost_antisymm {s t : String} (hst : atMost s t) (hts : atMost t s) : s = t :=
  bytes_injective (List.le_antisymm (atMost_iff.1 hst) (atMost_iff.1 hts))

end Text

/-! ## Filling a catalog -/

/-- A call that puts something into a catalog. -/
inductive Insertion where
  | workflow (w : Workflow)
  | message (m : Message)
  deriving DecidableEq

namespace Insertion

/-- The definition that a call adds. -/
def workflow? : Insertion → Option Workflow
  | workflow w => some w
  | message _ => none

/-- The message that a call adds. -/
def message? : Insertion → Option Message
  | workflow _ => none
  | message m => some m

/-- The definitions that some calls add, in the order of the calls. -/
def workflowsOf (calls : List Insertion) : List Workflow := calls.filterMap workflow?

/-- The messages that some calls add, in the order of the calls. -/
def messagesOf (calls : List Insertion) : List Message := calls.filterMap message?

end Insertion

namespace Catalog

open Insertion

/-- The catalog after a call. -/
def insert (c : Catalog) : Insertion → Catalog
  | .workflow w => c.addWorkflow w
  | .message m => c.addMessage m

/-- The catalog that some calls fill, from an empty one. -/
def ofInsertions (calls : List Insertion) : Catalog := calls.foldl insert empty

theorem foldl_addMessage_addWorkflow (c : Catalog) (w : Workflow) (ms : List Message) :
    ms.foldl addMessage (c.addWorkflow w) = (ms.foldl addMessage c).addWorkflow w := by
  induction ms generalizing c with
  | nil => rfl
  | cons m ms ih => exact ih (c.addMessage m)

theorem foldl_insert (c : Catalog) (calls : List Insertion) :
    calls.foldl insert c =
      (workflowsOf calls).foldl addWorkflow ((messagesOf calls).foldl addMessage c) := by
  induction calls generalizing c with
  | nil => rfl
  | cons call calls ih =>
      rw [List.foldl_cons, ih]
      cases call with
      | workflow w =>
          show (workflowsOf calls).foldl addWorkflow
            ((messagesOf calls).foldl addMessage (c.addWorkflow w)) = _
          rw [foldl_addMessage_addWorkflow]
          rfl
      | message m => rfl

/-- Calls in any order fill the catalog of a snapshot. -/
theorem ofInsertions_eq_ofSnapshot (calls : List Insertion) :
    ofInsertions calls = ofSnapshot ⟨workflowsOf calls, messagesOf calls⟩ :=
  foldl_insert empty calls

/-! ## What the catalog of a snapshot holds -/

theorem foldl_addWorkflow (c : Catalog) (ws : List Workflow) :
    ws.foldl addWorkflow c = { c with workflows := c.workflows ++ ws } := by
  induction ws generalizing c with
  | nil =>
      rw [List.foldl_nil, List.append_nil]
  | cons w ws ih =>
      rw [List.foldl_cons, ih, addWorkflow, List.append_assoc, List.singleton_append]

theorem workflows_foldl_addMessage (c : Catalog) (ms : List Message) :
    (ms.foldl addMessage c).workflows = c.workflows := by
  induction ms generalizing c with
  | nil => rfl
  | cons m ms ih => exact ih (c.addMessage m)

theorem workflows_ofSnapshot (s : Snapshot) : (ofSnapshot s).workflows = s.workflows := by
  rw [ofSnapshot, foldl_addWorkflow, workflows_foldl_addMessage]
  rfl

theorem message?_addMessage (c : Catalog) (m : Message) (id : Uuid) :
    (c.addMessage m).message? id = if m.id = id then some m else c.message? id := by
  rw [message?, addMessage, List.find?_cons]
  split
  · next h => rw [if_pos (of_decide_eq_true h)]
  · next h =>
      have hne : m.id ≠ id := of_decide_eq_false h
      rw [if_neg hne, List.find?_filter, message?]
      -- What the new message displaces has its id, which is not the one asked for.
      refine congrArg (List.find? · c.messages) (funext fun m' => ?_)
      by_cases hid : m'.id = id
      · simp [hid, hne.symm]
      · simp [hid]

theorem message?_foldl_addMessage (c : Catalog) (ms : List Message) (id : Uuid) :
    (ms.foldl addMessage c).message? id =
      (ms.reverse.find? (·.id = id)).or (c.message? id) := by
  induction ms generalizing c with
  | nil => rfl
  | cons m ms ih =>
      rw [List.foldl_cons, ih, message?_addMessage, List.reverse_cons, List.find?_append,
        Option.or_assoc, List.find?_singleton]
      by_cases h : m.id = id
      · simp [h]
      · simp [h]

theorem message?_ofSnapshot (s : Snapshot) (id : Uuid) :
    (ofSnapshot s).message? id = s.messages.reverse.find? (·.id = id) := by
  rw [ofSnapshot, foldl_addWorkflow]
  exact (message?_foldl_addMessage empty s.messages id).trans Option.or_none

end Catalog

/-! ## Definitions and their messages -/

/-- A message is the last of those that have its id. -/
def Message.IsLastOf (ms : List Message) (m : Message) : Prop :=
  ∃ before after, ms = before ++ m :: after ∧ ∀ m' ∈ after, m'.id ≠ m.id

/-- The action that a definition makes with the last of the messages that it answers to. What the
definition leaves open is empty. -/
def IsActionOf (ms : List Message) (w : Workflow) (a : Action) : Prop :=
  ∃ m : Message, m.IsLastOf ms ∧ w.message = some m.id ∧
    a = ⟨w.name, m.name, w.primaryEntity.getD "", w.body.getD ""⟩

/-- A definition carries the four codes of a filter and answers to one of some messages. -/
structure Workflow.Qualifies (f : Filter) (ms : List Message) (w : Workflow) : Prop where
  state : w.state = f.state
  status : w.status = f.status
  kind : w.kind = f.kind
  category : w.category = f.category
  message : ∃ m ∈ ms, w.message = some m.id

theorem Workflow.qualifies_iff {f : Filter} {ms : List Message} {w : Workflow} :
    w.Qualifies f ms ↔ f.admits w ∧ ∃ m ∈ ms, w.message = some m.id := by
  simp only [Filter.admits, Bool.and_eq_true, beq_iff_eq, and_assoc]
  exact ⟨fun ⟨h₁, h₂, h₃, h₄, h₅⟩ => ⟨h₁, h₂, h₃, h₄, h₅⟩,
    fun ⟨h₁, h₂, h₃, h₄, h₅⟩ => ⟨h₁, h₂, h₃, h₄, h₅⟩⟩

instance (f : Filter) (ms : List Message) (w : Workflow) : Decidable (w.Qualifies f ms) :=
  decidable_of_iff _ Workflow.qualifies_iff.symm

namespace Catalog

open Insertion

theorem message?_eq_some {s : Snapshot} {id : Uuid} {m : Message} :
    (ofSnapshot s).message? id = some m ↔ m.id = id ∧ m.IsLastOf s.messages := by
  rw [message?_ofSnapshot, List.find?_eq_some_iff_append, decide_eq_true_iff]
  refine and_congr_right fun hid => ?_
  constructor
  · rintro ⟨after, before, heq, hafter⟩
    refine ⟨before.reverse, after.reverse, ?_, fun m' hm' => ?_⟩
    · rw [← List.reverse_reverse s.messages, heq]
      simp
    · simpa [hid] using hafter m' (List.mem_reverse.1 hm')
  · rintro ⟨before, after, heq, hafter⟩
    refine ⟨after.reverse, before.reverse, ?_, fun m' hm' => ?_⟩
    · rw [heq]
      simp
    · simpa [hid] using hafter m' (List.mem_reverse.1 hm')

theorem message?_eq_none {s : Snapshot} {id : Uuid} :
    (ofSnapshot s).message? id = none ↔ ∀ m ∈ s.messages, m.id ≠ id := by
  rw [message?_ofSnapshot, List.find?_eq_none]
  simp

/-- The actions of a catalog before they are sorted. -/
def joined (c : Catalog) (f : Filter) : List Action :=
  (c.workflows.filter f.admits).filterMap c.action?

theorem isActionOf_of_action? {s : Snapshot} {w : Workflow} {a : Action}
    (h : (ofSnapshot s).action? w = some a) : IsActionOf s.messages w a := by
  simp only [action?, Option.bind_eq_bind, Option.bind_eq_some_iff] at h
  obtain ⟨id, hw, m, hm, ha⟩ := h
  obtain ⟨rfl, hlast⟩ := message?_eq_some.1 hm
  exact ⟨m, hlast, hw, (Option.some.inj ha).symm⟩

theorem action?_eq_none {s : Snapshot} {w : Workflow} :
    (ofSnapshot s).action? w = none ↔ ¬∃ m ∈ s.messages, w.message = some m.id := by
  rw [action?]
  cases hw : w.message with
  | none => simp
  | some id =>
      cases hm : (ofSnapshot s).message? id with
      | none =>
          have hnone := message?_eq_none.1 hm
          simp only [Option.bind_eq_bind, Option.bind_some, hm, Option.bind_none, true_iff]
          rintro ⟨m, hmem, hid⟩
          exact hnone m hmem (Option.some.inj hid).symm
      | some m =>
          obtain ⟨rfl, before, after, heq, -⟩ := message?_eq_some.1 hm
          simp only [Option.bind_eq_bind, Option.bind_some, hm, reduceCtorEq, false_iff, not_not]
          exact ⟨m, by rw [heq]; simp, rfl⟩

/-- The definitions that qualify are those that make an action. -/
theorem forall₂_joined (s : Snapshot) (f : Filter) :
    List.Forall₂ (IsActionOf s.messages) (s.workflows.filter (·.Qualifies f s.messages))
      ((ofSnapshot s).joined f) := by
  rw [joined, workflows_ofSnapshot]
  induction s.workflows with
  | nil => exact .nil
  | cons w ws ih =>
      by_cases hadmits : f.admits w
      · rw [List.filter_cons_of_pos hadmits]
        cases ha : (ofSnapshot s).action? w with
        | none =>
            have hno := action?_eq_none.1 ha
            have hq : ¬w.Qualifies f s.messages := fun h => hno h.message
            rw [List.filter_cons_of_neg (by simpa using hq), List.filterMap_cons_none ha]
            exact ih
        | some a =>
            have hq : w.Qualifies f s.messages := by
              refine Workflow.qualifies_iff.2 ⟨hadmits, Classical.not_not.1 fun hno => ?_⟩
              rw [action?_eq_none.2 hno] at ha
              cases ha
            rw [List.filter_cons_of_pos (by simpa using hq), List.filterMap_cons_some ha]
            exact .cons (isActionOf_of_action? ha) ih
      · have hq : ¬w.Qualifies f s.messages := fun h => hadmits (Workflow.qualifies_iff.1 h).1
        rw [List.filter_cons_of_neg hadmits, List.filter_cons_of_neg (by simpa using hq)]
        exact ih

/-! ## Sorting -/

theorem actions_eq (c : Catalog) (f : Filter) :
    c.actions f = (c.joined f).mergeSort fun a b => Text.atMost a.name b.name :=
  rfl

theorem perm_actions (c : Catalog) (f : Filter) : (c.actions f).Perm (c.joined f) :=
  List.mergeSort_perm _ _

theorem pairwise_actions (c : Catalog) (f : Filter) :
    (c.actions f).Pairwise fun a b => Text.atMost a.name b.name := by
  rw [actions_eq]
  refine List.pairwise_mergeSort ?_ ?_ _
  · exact fun _ _ _ => Text.atMost_trans
  · exact fun _ _ => Text.atMost_total _ _

/-- Actions of one name stay in the order of their definitions. -/
theorem filter_name_actions (c : Catalog) (f : Filter) (name : String) :
    (c.actions f).filter (·.name = name) = (c.joined f).filter (·.name = name) := by
  have hsorted : ((c.joined f).filter (·.name = name)).Pairwise
      fun a b => Text.atMost a.name b.name := by
    refine List.pairwise_of_forall_mem_list fun a ha b hb => ?_
    have hnames : a.name = b.name := by
      rw [of_decide_eq_true (List.mem_filter.1 ha).2, of_decide_eq_true (List.mem_filter.1 hb).2]
    rw [hnames]
    exact Text.atMost_iff.2 (List.le_refl _)
  have hsublist : ((c.joined f).filter (·.name = name)).Sublist (c.actions f) := by
    rw [actions_eq]
    refine List.sublist_mergeSort ?_ ?_ hsorted List.filter_sublist
    · exact fun _ _ _ => Text.atMost_trans
    · exact fun _ _ => Text.atMost_total _ _
  have hfiltered := hsublist.filter (·.name = name)
  rw [List.filter_filter] at hfiltered
  simp only [Bool.and_self] at hfiltered
  exact (hfiltered.eq_of_length ((perm_actions c f).filter _).length_eq.symm).symm

/-! ## What an answer depends on -/

theorem message?_congr {s s' : Snapshot}
    (h : ∀ m : Message, m.IsLastOf s.messages ↔ m.IsLastOf s'.messages) (id : Uuid) :
    (ofSnapshot s).message? id = (ofSnapshot s').message? id :=
  Option.ext fun m => by rw [message?_eq_some, message?_eq_some, h]

theorem action?_congr {c c' : Catalog} (h : ∀ id, c.message? id = c'.message? id) :
    c.action? = c'.action? := by
  funext w
  simp only [action?, h]

theorem actions_congr {c c' : Catalog} (hworkflows : c.workflows = c'.workflows)
    (hmessages : ∀ id, c.message? id = c'.message? id) (f : Filter) :
    c.actions f = c'.actions f := by
  rw [actions_eq, actions_eq, joined, joined, hworkflows, action?_congr hmessages]

/-- A catalog that was filled by calls in any order answers, for each definition that qualifies, with
the action that it makes with the last message of its id, and with nothing else. The actions are in
the order of the bytes of their names, and those of one name in the order of their definitions. The
answer is the same for any calls with these definitions in this order and these last messages, and
for a snapshot of which the calls are an interleaving. -/
theorem actions_ofInsertions (calls : List Insertion) (f : Filter) :
    ∃ actions answers : List Action,
      (CatalogSource.memory (ofInsertions calls)).actions f = .ok actions ∧
      List.Forall₂ (IsActionOf (messagesOf calls))
        ((workflowsOf calls).filter (·.Qualifies f (messagesOf calls))) answers ∧
      actions.Perm answers ∧
      actions.Pairwise (fun a b => Text.bytes a.name ≤ Text.bytes b.name) ∧
      (∀ name, actions.filter (·.name = name) = answers.filter (·.name = name)) ∧
      (∀ others : List Insertion, workflowsOf others = workflowsOf calls →
        (∀ m : Message, m.IsLastOf (messagesOf others) ↔ m.IsLastOf (messagesOf calls)) →
        (CatalogSource.memory (ofInsertions others)).actions f = .ok actions) ∧
      ∀ s : Snapshot, s.workflows = workflowsOf calls → s.messages = messagesOf calls →
        (CatalogSource.memory (ofSnapshot s)).actions f = .ok actions := by
  have hcatalog := ofInsertions_eq_ofSnapshot calls
  refine ⟨_, (ofInsertions calls).joined f, rfl, ?_, perm_actions _ f, ?_, filter_name_actions _ f,
    fun others hworkflows hlast => ?_, fun s hworkflows hmessages => ?_⟩
  · rw [hcatalog]
    exact forall₂_joined ⟨workflowsOf calls, messagesOf calls⟩ f
  · exact (pairwise_actions _ f).imp Text.atMost_iff.1
  · refine congrArg Except.ok (actions_congr ?_ ?_ f)
    · rw [hcatalog, ofInsertions_eq_ofSnapshot, workflows_ofSnapshot, workflows_ofSnapshot]
      exact hworkflows
    · rw [hcatalog, ofInsertions_eq_ofSnapshot]
      exact message?_congr hlast
  · rw [hcatalog, ← hworkflows, ← hmessages]
    rfl

end Catalog

end ActionSheet
