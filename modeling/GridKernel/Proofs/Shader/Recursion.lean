import GridKernel.Shader.CallGraph
import GridKernel.Proofs.Outcome
import Mathlib.Data.List.Chain
import Mathlib.Data.List.Perm.Subperm
import Mathlib.Logic.Relation

namespace GridKernel.Snapshot

def Calls (s : Snapshot) (caller callee : String) : Prop := callee ∈ s.callsOf caller

def Acyclic (s : Snapshot) : Prop := ∀ name, ¬ Relation.TransGen s.Calls name name

def Closes (s : Snapshot) (chain : List String) : Prop :=
  chain.IsChain s.Calls ∧ ∃ path last, chain = path ++ [last] ∧ last ∈ path

inductive Settled (s : Snapshot) : List String → Prop where
  | nil : Settled s []
  | cons {name : String} {rest : List String} (behind : Settled s rest) (calls : ∀ callee, s.Calls name callee → callee ∈ rest) :
      Settled s (name :: rest)

variable {s : Snapshot}

theorem Settled.calls {finished : List String} (settled : Settled s finished) {name callee : String}
    (member : name ∈ finished) (calls : s.Calls name callee) : callee ∈ finished := by
  induction settled with
  | nil => cases member
  | cons _ own ih =>
    rcases List.mem_cons.mp member with rfl | later
    · exact List.mem_cons_of_mem _ (own callee calls)
    · exact List.mem_cons_of_mem _ (ih later)

theorem Settled.reaches {finished : List String} (settled : Settled s finished) {name callee : String}
    (member : name ∈ finished) (calls : Relation.ReflTransGen s.Calls name callee) : callee ∈ finished := by
  induction calls with
  | refl => exact member
  | tail _ last ih => exact settled.calls ih last

-- A cycle through the first name would run through the names behind it and come back.
theorem Settled.acyclic {finished : List String} (settled : Settled s finished) {name : String} (member : name ∈ finished) :
    ¬ Relation.TransGen s.Calls name name := by
  induction settled with
  | nil => cases member
  | @cons first rest behind own ih =>
    by_cases later : name ∈ rest
    · exact ih later
    · obtain rfl := (List.mem_cons.mp member).resolve_right later
      intro cycle
      obtain ⟨callee, first, back⟩ := Relation.TransGen.head'_iff.mp cycle
      exact later (behind.reaches (own callee first) back)

structure Finishes (s : Snapshot) (finished after : List String) : Prop where
  settled : Settled s after
  kept : finished ⊆ after

theorem foldlM_finishes {f : List String → String → Except CompileFault (List String)} {names finished after : List String}
    (each : ∀ name ∈ names, ∀ before behind, Settled s before → f before name = .ok behind →
      Finishes s before behind ∧ name ∈ behind)
    (settled : Settled s finished) (ran : names.foldlM f finished = .ok after) :
    Finishes s finished after ∧ ∀ name ∈ names, name ∈ after := by
  induction names generalizing finished with
  | nil =>
    cases ran
    exact ⟨⟨settled, List.Subset.refl _⟩, by simp⟩
  | cons name names ih =>
    rw [List.foldlM_cons] at ran
    obtain ⟨middle, first, rest⟩ := bind_eq_ok ran
    obtain ⟨one, own⟩ := each name List.mem_cons_self finished middle settled first
    obtain ⟨two, others⟩ := ih (fun other member => each other (List.mem_cons_of_mem _ member)) one.settled rest
    refine ⟨⟨two.settled, List.Subset.trans one.kept two.kept⟩, ?_⟩
    intro other member
    rcases List.mem_cons.mp member with rfl | later
    · exact two.kept own
    · exact others other later

-- A path that can be entered: its names differ and are helpers, so the fuel outlasts it.
structure Entered (s : Snapshot) (fuel : Nat) (path : List String) : Prop where
  distinct : path.Nodup
  helpers : path ⊆ s.names
  enough : s.names.length < fuel + path.length

theorem Entered.fuel_pos {fuel : Nat} {path : List String} (entered : Entered s fuel path) : 0 < fuel := by
  have short := (List.subperm_of_subset entered.distinct entered.helpers).length_le
  have enough := entered.enough
  omega

theorem mem_names_of_calls {name callee : String} (calls : s.Calls name callee) : name ∈ s.names := by
  unfold Calls callsOf at calls
  split at calls
  · rename_i d found
    have named : d.name = name := by simpa using List.find?_some found
    exact named ▸ List.mem_map_of_mem (List.mem_of_find?_eq_some found)
  · cases calls

theorem Entered.down {fuel : Nat} {path : List String} (entered : Entered s (fuel + 1) path) {name callee : String}
    (new : name ∉ path) (calls : s.Calls name callee) : Entered s fuel (path ++ [name]) := by
  refine ⟨?_, ?_, ?_⟩
  · exact List.nodup_append.mpr ⟨entered.distinct, by simp, by
      intro a before b here same
      rw [List.mem_singleton] at here
      exact new (here ▸ same ▸ before)⟩
  · exact List.append_subset.mpr ⟨entered.helpers, by simpa using mem_names_of_calls calls⟩
  · have enough := entered.enough
    rw [List.length_append, List.length_singleton]
    omega

-- Everything that one visit does: the name was finished before, it closes its path, or it is finished
-- behind all that it calls.
theorem visit_succ (s : Snapshot) (fuel : Nat) (path finished : List String) (name : String) :
    visit s (fuel + 1) path finished name =
      if name ∈ finished then .ok finished
      else if name ∈ path then .error (.recursion (path ++ [name]))
      else (s.callsOf name).foldlM (visit s fuel (path ++ [name])) finished >>= fun below => .ok (name :: below) := by
  rw [visit]
  simp only [List.contains_eq_mem, decide_eq_true_eq]

theorem visit_finishes {fuel : Nat} {path finished after : List String} {name : String} (entered : Entered s fuel path)
    (settled : Settled s finished) (ran : visit s fuel path finished name = .ok after) :
    Finishes s finished after ∧ name ∈ after := by
  induction fuel generalizing path finished after name with
  | zero => exact absurd entered.fuel_pos (Nat.lt_irrefl 0)
  | succ fuel ih =>
    rw [visit_succ] at ran
    split at ran
    · rename_i done
      cases ran
      exact ⟨⟨settled, List.Subset.refl _⟩, done⟩
    · split at ran
      · cases ran
      · rename_i new
        obtain ⟨below, visited, last⟩ := bind_eq_ok ran
        cases last
        obtain ⟨finishes, callees⟩ := foldlM_finishes
          (fun callee calls before behind => ih (entered.down new calls)) settled visited
        exact ⟨⟨.cons finishes.settled callees, List.Subset.trans finishes.kept (List.subset_cons_self _ _)⟩,
          List.mem_cons_self⟩

-- The path is a chain of calls all the way to the name that is visited.
theorem visit_closes {fuel : Nat} {path finished : List String} {name : String} {fault : CompileFault}
    (chain : (path ++ [name]).IsChain s.Calls) (ran : visit s fuel path finished name = .error fault) :
    ∃ names, fault = .recursion names ∧ s.Closes names := by
  induction fuel generalizing path finished name with
  | zero => cases ran
  | succ fuel ih =>
    rw [visit_succ] at ran
    split at ran
    · cases ran
    · split at ran
      · rename_i met
        cases ran
        exact ⟨_, rfl, chain, path, name, rfl, met⟩
      · rcases bind_eq_error ran with failed | ⟨_, _, last⟩
        · obtain ⟨callee, calls, before, below⟩ := foldlM_eq_error failed
          refine ih ?_ below
          have next : s.Calls name callee := calls
          exact List.isChain_append.mpr ⟨chain, List.isChain_singleton callee, by simpa using next⟩
        · cases last

theorem transGen_of_isChain {first last : String} {between : List String}
    (chain : (first :: (between ++ [last])).IsChain s.Calls) : Relation.TransGen s.Calls first last := by
  induction between generalizing first with
  | nil => exact .single (List.isChain_cons_cons.mp chain).1
  | cons name between ih =>
    obtain ⟨calls, rest⟩ := List.isChain_cons_cons.mp chain
    exact .head calls (ih rest)

theorem Closes.cyclic {chain : List String} (closes : s.Closes chain) : ¬ s.Acyclic := by
  obtain ⟨calls, path, last, rfl, met⟩ := closes
  intro acyclic
  obtain ⟨before, between, rfl⟩ := List.append_of_mem met
  rw [List.append_assoc, List.cons_append] at calls
  exact acyclic last (transGen_of_isChain (List.isChain_append.mp calls).2.1)

theorem checkAcyclic_ok (checked : s.checkAcyclic = .ok ()) : s.Acyclic := by
  obtain ⟨finished, visited, _⟩ := bind_eq_ok checked
  have entered : Entered s (s.functions.length + 2) [] := by
    refine ⟨List.nodup_nil, List.nil_subset _, ?_⟩
    simp only [names, List.length_map, List.length_nil]
    omega
  obtain ⟨finishes, all⟩ := foldlM_finishes (fun name _ before behind => visit_finishes entered) .nil visited
  intro name cycle
  obtain ⟨callee, calls, _⟩ := Relation.TransGen.head'_iff.mp cycle
  exact finishes.settled.acyclic (all name (mem_names_of_calls calls)) cycle

theorem checkAcyclic_error {fault : CompileFault} (refused : s.checkAcyclic = .error fault) :
    ∃ names, fault = .recursion names ∧ s.Closes names := by
  rcases bind_eq_error refused with failed | ⟨_, _, last⟩
  · obtain ⟨name, _, before, visited⟩ := foldlM_eq_error failed
    exact visit_closes (List.isChain_singleton name) visited
  · cases last

theorem checkAcyclic_iff : s.checkAcyclic = .ok () ↔ s.Acyclic := by
  refine ⟨checkAcyclic_ok, fun acyclic => ?_⟩
  cases checked : s.checkAcyclic with
  | ok => rfl
  | error fault =>
    obtain ⟨names, _, closes⟩ := checkAcyclic_error checked
    exact absurd acyclic closes.cyclic

end GridKernel.Snapshot
