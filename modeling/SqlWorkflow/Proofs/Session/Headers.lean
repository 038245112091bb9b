import SqlWorkflow.Proofs.Graph.Assembly
import SqlWorkflow.Proofs.Session.Entries

/-!
# The headers of a compiled graph

A compiled graph has one action for each entry of its session.  What the action has in common with
others is that of the entry (`Session.headers_compile_perm`), so the targets of a graph are the
targets of the entries.
-/

namespace SqlWorkflow

namespace Entry

/-- The header of the finished action of an entry; a declaration has no tags and is never
disabled. -/
def finishedHeader (entries : List Entry) (e : Entry) : ActionHeader :=
  match e.registration.payload with
  | .declaration => { header entries e with tags := [], disabled := false }
  | _ => header entries e

variable (entries : List Entry) (e : Entry)

theorem header_finish (config : ProjectConfig) (position : Nat) :
    (e.finish config entries position).header = finishedHeader entries e := by
  unfold finish finishedHeader
  cases e.registration.payload <;> rfl

@[simp] theorem finishedHeader_target : (finishedHeader entries e).target = e.runtime := by
  unfold finishedHeader
  split <;> rfl

@[simp] theorem finishedHeader_canonicalTarget :
    (finishedHeader entries e).canonicalTarget = e.canonical := by
  unfold finishedHeader
  split <;> rfl

@[simp] theorem finishedHeader_fileName :
    (finishedHeader entries e).fileName = e.registration.filePath := by
  unfold finishedHeader
  split <;> rfl

@[simp] theorem finishedHeader_dependencyTargets :
    (finishedHeader entries e).dependencyTargets = dependencyTargets entries e := by
  unfold finishedHeader
  split <;> rfl

/-- The parent of a finished assertion is that of its entry. -/
theorem parentAction_of_finish {config : ProjectConfig} {position : Nat} {a : Assertion}
    (h : (e.finish config entries position).assertion? = some a) :
    a.parentAction = e.parent.bind fun p => entries[p]?.map (·.runtime) := by
  unfold finish at h
  simp only at h
  split at h <;> cases h
  rfl

end Entry

namespace Session

variable (s : Session)

theorem map_header_actions (config : ProjectConfig) (entries : List Entry) :
    (actions config entries).map Action.header = entries.map (Entry.finishedHeader entries) := by
  rw [← Entry.map_fst_zipIdx, actions, List.map_map]
  exact List.map_congr_left fun ⟨e, i⟩ _ => Entry.header_finish entries e config i

theorem map_target_actions (config : ProjectConfig) (entries : List Entry) :
    (actions config entries).map (·.header.target) = entries.map (·.runtime) := by
  have hheaders := congrArg (List.map ActionHeader.target) (map_header_actions config entries)
  rw [List.map_map, List.map_map] at hheaders
  exact hheaders.trans (List.map_congr_left fun e _ => Entry.finishedHeader_target entries e)

/-- A compiled graph has one header for each entry. -/
theorem headers_compile_perm :
    s.compile.headers.Perm (s.entries.map (Entry.finishedHeader s.entries)) := by
  rw [← map_header_actions s.config]
  exact CompiledGraph.headers_assemble_perm

theorem mem_headers_compile {h : ActionHeader} :
    h ∈ s.compile.headers ↔ ∃ e ∈ s.entries, Entry.finishedHeader s.entries e = h := by
  rw [s.headers_compile_perm.mem_iff, List.mem_map]

theorem targets_compile_perm : s.compile.targets.Perm (s.entries.map (·.runtime)) := by
  refine (s.headers_compile_perm.map (·.target)).trans (List.Perm.of_eq ?_)
  rw [List.map_map]
  exact List.map_congr_left fun e _ => Entry.finishedHeader_target s.entries e

theorem canonicalTargets_compile_perm :
    (s.compile.headers.map (·.canonicalTarget)).Perm (s.entries.map (·.canonical)) := by
  refine (s.headers_compile_perm.map (·.canonicalTarget)).trans (List.Perm.of_eq ?_)
  rw [List.map_map]
  exact List.map_congr_left fun e _ => Entry.finishedHeader_canonicalTarget s.entries e

theorem runtime_mem_targets {e : Entry} (h : e ∈ s.entries) : e.runtime ∈ s.compile.targets :=
  s.targets_compile_perm.mem_iff.2 (List.mem_map_of_mem h)

variable {s}

/-- An assertion with a parent was finished from an entry whose parent has that target. -/
theorem exists_entry_of_parentAction {a : Assertion} (ha : a ∈ s.compile.assertions)
    {parent : Target} (hparent : a.parentAction = some parent) :
    ∃ e ∈ s.entries, a.header = Entry.finishedHeader s.entries e ∧
      ∃ p, e.parent = some p ∧ (s.entries[p]?).map (·.runtime) = some parent := by
  -- Back from the assertion of the graph to the entry that it was finished from.
  have hmem : a ∈ (actions s.config s.entries).filterMap Action.assertion? :=
    List.mem_mergeSort.1 ha
  obtain ⟨action, haction, hassertion⟩ := List.mem_filterMap.1 hmem
  obtain ⟨⟨e, i⟩, he, rfl⟩ := List.mem_map.1 haction
  have hheader : a.header = Entry.finishedHeader s.entries e := by
    rw [Action.header_of_assertion? hassertion, Entry.header_finish]
  rw [Entry.parentAction_of_finish _ _ hassertion, Option.bind_eq_some_iff] at hparent
  exact ⟨e, List.mem_of_getElem? (List.mem_zipIdx_iff_getElem?.1 he), hheader, hparent⟩

end Session

end SqlWorkflow
