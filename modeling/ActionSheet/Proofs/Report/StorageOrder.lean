import ActionSheet.Proofs.Catalog.Insertion
import ActionSheet.Report
import Mathlib.Data.List.Nodup

/-!
# A report does not show how its catalog was stored

The lists of a stored snapshot have an order that means nothing. Two things could let it show. If two
messages share an id, the last one counts; and actions of one name come in the order of their
definitions. Where ids and names are distinct neither can happen: which message has an id is then
settled by what is in the list, and a list in order is settled by what is in it, if no two of its
names are the same. Everything after the catalog looks at its answer alone.
-/

namespace ActionSheet

/-- Among messages with distinct ids, each is the last of its id. -/
theorem isLastOf_iff_mem {ms : List Message} (h : (ms.map (·.id)).Nodup) {m : Message} :
    m.IsLastOf ms ↔ m ∈ ms := by
  constructor
  · rintro ⟨before, after, rfl, -⟩
    exact List.mem_append_right before List.mem_cons_self
  · intro hm
    obtain ⟨before, after, rfl⟩ := List.append_of_mem hm
    rw [List.map_append, List.map_cons, List.nodup_append] at h
    have hfirst : m.id ∉ after.map (·.id) := (List.nodup_cons.1 h.2.1).1
    exact ⟨before, after, rfl, fun m' hm' hid => hfirst (hid ▸ List.mem_map_of_mem hm')⟩

namespace Catalog

theorem message?_of_perm {s s' : Snapshot} (hmessages : s.messages.Perm s'.messages)
    (hids : (s.messages.map (·.id)).Nodup) (id : Uuid) :
    (ofSnapshot s).message? id = (ofSnapshot s').message? id := by
  have hids' : (s'.messages.map (·.id)).Nodup := (hmessages.map _).nodup_iff.1 hids
  refine message?_congr (fun m => ?_) id
  rw [isLastOf_iff_mem hids, isLastOf_iff_mem hids', hmessages.mem_iff]

theorem joined_of_perm {s s' : Snapshot} (hworkflows : s.workflows.Perm s'.workflows)
    (hmessages : s.messages.Perm s'.messages) (hids : (s.messages.map (·.id)).Nodup) (f : Filter) :
    ((ofSnapshot s).joined f).Perm ((ofSnapshot s').joined f) := by
  rw [joined, joined, workflows_ofSnapshot, workflows_ofSnapshot,
    action?_congr (message?_of_perm hmessages hids)]
  exact (hworkflows.filter _).filterMap _

/-- Actions have the names of their definitions. -/
theorem map_name_joined (s : Snapshot) (f : Filter) :
    ((ofSnapshot s).joined f).map (·.name) =
      (s.workflows.filter (·.Qualifies f s.messages)).map (·.name) := by
  have h := forall₂_joined s f
  generalize s.workflows.filter (·.Qualifies f s.messages) = ws, (ofSnapshot s).joined f = as at h
  induction h with
  | nil => rfl
  | cons hw _ ih =>
      obtain ⟨m, -, -, rfl⟩ := hw
      rw [List.map_cons, List.map_cons, ih]

theorem actions_of_perm {s s' : Snapshot} (hworkflows : s.workflows.Perm s'.workflows)
    (hmessages : s.messages.Perm s'.messages) (hids : (s.messages.map (·.id)).Nodup) {f : Filter}
    (hnames : ((s.workflows.filter (·.Qualifies f s.messages)).map (·.name)).Nodup) :
    (ofSnapshot s).actions f = (ofSnapshot s').actions f := by
  have hjoined := joined_of_perm hworkflows hmessages hids f
  have hperm : ((ofSnapshot s).actions f).Perm ((ofSnapshot s').actions f) :=
    (perm_actions _ f).trans (hjoined.trans (perm_actions _ f).symm)
  refine List.Perm.eq_of_pairwise ?_ (pairwise_actions _ f) (pairwise_actions _ f) hperm
  intro a b ha hb hab hba
  rw [← map_name_joined] at hnames
  have ha : a ∈ (ofSnapshot s).joined f := (perm_actions _ f).mem_iff.1 ha
  have hb : b ∈ (ofSnapshot s).joined f := (perm_actions _ f).mem_iff.1 (hperm.mem_iff.2 hb)
  exact List.inj_on_of_nodup_map hnames ha hb (Text.atMost_antisymm hab hba)

end Catalog

namespace Report

/-- Snapshots with the same definitions and messages in another order have the same report, if the
messages have distinct ids and the definitions that qualify have distinct names. -/
theorem ofSource_of_perm (config : Config) {s s' : Snapshot}
    (hworkflows : s.workflows.Perm s'.workflows) (hmessages : s.messages.Perm s'.messages)
    (hids : (s.messages.map (·.id)).Nodup)
    (hnames : ((s.workflows.filter (·.Qualifies config.filter s.messages)).map (·.name)).Nodup) :
    ∃ r : Report, ofSource config (.memory (.ofSnapshot s)) = .ok r ∧
      ofSource config (.memory (.ofSnapshot s')) = .ok r := by
  refine ⟨ofCatalog config (.ofSnapshot s), rfl, ?_⟩
  rw [ofCatalog, Catalog.actions_of_perm hworkflows hmessages hids hnames]
  rfl

/-- A published definition whose body is never closed. -/
def sampleWorkflow (name : String) (message : Option Uuid) : Workflow where
  id := .nil
  name := name
  state := 1
  status := 2
  kind := 1
  category := 3
  primaryEntity := none
  message := message
  body := some "<a>"

/-- Two definitions in the wrong order, and two more with their names: one of these has no message,
the other is a draft. -/
def sampleSnapshot : Snapshot where
  workflows := [sampleWorkflow "b" (some .nil),
    sampleWorkflow "a" (some ⟨List.replicate 32 (Fin.last 15), List.length_replicate⟩),
    sampleWorkflow "a" none, { sampleWorkflow "b" (some .nil) with state := 0 }]
  messages := [⟨.nil, "m"⟩, ⟨⟨List.replicate 32 (Fin.last 15), List.length_replicate⟩, "n"⟩]

theorem ofSource_of_perm_reversed :
    sampleSnapshot.workflows.Perm sampleSnapshot.workflows.reverse ∧
      sampleSnapshot.messages.Perm sampleSnapshot.messages.reverse ∧
      (sampleSnapshot.messages.map (·.id)).Nodup ∧
      ((sampleSnapshot.workflows.filter (·.Qualifies {} sampleSnapshot.messages)).map
        (·.name)).Nodup ∧
      ∃ r, ofSource {} (.memory (.ofSnapshot sampleSnapshot)) = .ok r ∧
        ofSource {} (.memory (.ofSnapshot
          ⟨sampleSnapshot.workflows.reverse, sampleSnapshot.messages.reverse⟩)) = .ok r := by
  have hworkflows : sampleSnapshot.workflows.Perm sampleSnapshot.workflows.reverse :=
    (List.reverse_perm _).symm
  have hmessages : sampleSnapshot.messages.Perm sampleSnapshot.messages.reverse :=
    (List.reverse_perm _).symm
  have hids : (sampleSnapshot.messages.map (·.id)).Nodup := by
    decide
  have hnames : ((sampleSnapshot.workflows.filter
      (·.Qualifies {} sampleSnapshot.messages)).map (·.name)).Nodup := by
    decide
  exact ⟨hworkflows, hmessages, hids, hnames,
    ofSource_of_perm {} hworkflows hmessages hids hnames⟩

end Report

end ActionSheet
