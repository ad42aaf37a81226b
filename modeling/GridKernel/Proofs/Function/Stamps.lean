import GridKernel.Function.Registry
import Mathlib.Data.List.Nodup

namespace GridKernel

theorem mem_insertDefinition (d e : Definition) (fs : List Definition) :
    e ∈ insertDefinition d fs ↔ e = d ∨ e ∈ fs := by
  induction fs with
  | nil => simp [insertDefinition]
  | cons f fs ih =>
    unfold insertDefinition
    split
    · simp
    · simp only [List.mem_cons, ih]
      constructor
      · rintro (h | h | h) <;> simp [h]
      · rintro (h | h | h) <;> simp [h]

namespace Registry

structure Valid (r : Registry) : Prop where
  unique : (r.functions.map (·.name)).Nodup
  stamped : ∀ d ∈ r.functions, d.generation < r.nextGeneration
  checked : ∀ d ∈ r.functions, d.validate = .ok ()

-- Everything a registration can do: it is refused and leaves the registry as it was, or the definition passed
-- its check and is stored with the next stamp.
theorem register_cases (r : Registry) (d : Definition) :
    (∃ e, r.register d = (r, .error e)) ∨
      ∃ how, r.register d = (r.store d, .ok how) ∧ d.validate = .ok () ∧ (how = .replaced ↔ (r.get? d.name).isSome) := by
  unfold register
  cases checked : d.validate with
  | error e => exact .inl ⟨_, rfl⟩
  | ok =>
    dsimp only
    split
    · rename_i absent
      exact .inr ⟨_, rfl, rfl, by simp [absent]⟩
    · rename_i existing present
      split
      · exact .inl ⟨_, rfl⟩
      · split
        · exact .inl ⟨_, rfl⟩
        · exact .inr ⟨_, rfl, rfl, by simp [present]⟩

theorem register_parts {r : Registry} {d : Definition} {next : Registry} {how : Registration}
    (accepted : r.register d = (next, .ok how)) :
    d.validate = .ok () ∧ next = r.store d ∧ (how = .replaced ↔ (r.get? d.name).isSome) := by
  rcases r.register_cases d with ⟨e, refused⟩ | ⟨told, stored, checked, known⟩
  · cases refused.symm.trans accepted
  · cases stored.symm.trans accepted
    exact ⟨checked, rfl, known⟩

theorem store_unique (r : Registry) (d : Definition) (unique : (r.functions.map (·.name)).Nodup) :
    ((r.store d).functions.map (·.name)).Nodup := by
  simp only [store, List.map_cons, List.nodup_cons, List.mem_map, List.mem_filter]
  refine ⟨?_, (List.Sublist.map _ List.filter_sublist).nodup unique⟩
  rintro ⟨e, ⟨_, other⟩, same⟩
  simp [same] at other

theorem mem_store (r : Registry) (d e : Definition) (member : e ∈ (r.store d).functions) :
    e = { d with generation := r.nextGeneration } ∨ e ∈ r.functions := by
  simp only [store, List.mem_cons, List.mem_filter] at member
  exact member.imp id And.left

theorem store_valid (r : Registry) (d : Definition) (valid : r.Valid) (checked : d.validate = .ok ()) :
    (r.store d).Valid := by
  refine ⟨store_unique r d valid.unique, ?_, ?_⟩
  · intro e member
    rcases mem_store r d e member with rfl | old
    · exact Nat.lt_succ_self _
    · exact Nat.lt_succ_of_lt (valid.stamped e old)
  · intro e member
    rcases mem_store r d e member with rfl | old
    · exact checked
    · exact valid.checked e old

theorem builtin_checked : ∀ entry ∈ Builtin.all,
    ({ Definition.make entry.1 (.kernel entry.2) none none with builtin := true } : Definition).validate =
      .ok () := by
  intro entry member
  simp only [Builtin.all, List.mem_cons, List.not_mem_nil, or_false] at member
  rcases member with rfl | rfl | rfl | rfl | rfl | rfl | rfl <;> rfl

theorem new_valid (strict : Bool) : (Registry.new strict).Valid := by
  -- What holds of the empty registry and is kept by storing a checked entry.
  have install : ∀ (entries : List (String × Body)) (r : Registry), r.Valid →
      (∀ entry ∈ entries, ({ Definition.make entry.1 (.kernel entry.2) none none with
        builtin := true } : Definition).validate = .ok ()) →
      (entries.foldl (fun r entry =>
        r.store { Definition.make entry.1 (.kernel entry.2) none none with builtin := true }) r).Valid := by
    intro entries
    induction entries with
    | nil => intro r valid _; exact valid
    | cons entry entries ih =>
      intro r valid checked
      exact ih _ (store_valid r _ valid (checked entry (by simp)))
        fun e member => checked e (List.mem_cons_of_mem _ member)
  exact install _ _ ⟨by simp, by simp, by simp⟩ builtin_checked

-- Any sequence of accepted registrations; a refused one leaves the registry as it is.
inductive Reached : Registry → Prop where
  | new (strict : Bool) : Reached (Registry.new strict)
  | register {r next : Registry} {d : Definition} {how : Registration} (before : Reached r)
      (accepted : r.register d = (next, .ok how)) : Reached next

theorem reached_valid {r : Registry} (reached : Reached r) : r.Valid := by
  induction reached with
  | new strict => exact new_valid strict
  | register _ accepted ih =>
    obtain ⟨checked, rfl, _⟩ := register_parts accepted
    exact store_valid _ _ ih checked

theorem get?_mem (r : Registry) (name : String) (d : Definition) (found : r.get? name = some d) :
    d ∈ r.functions ∧ d.name = name :=
  ⟨List.mem_of_find?_eq_some found, by simpa using List.find?_some found⟩

theorem get?_store_self (r : Registry) (d : Definition) :
    (r.store d).get? d.name = some { d with generation := r.nextGeneration } := by
  simp [get?, store]

theorem get?_store_other (r : Registry) (d : Definition) {name : String} (other : name ≠ d.name) :
    (r.store d).get? name = r.get? name := by
  have apart : d.name ≠ name := fun same => other same.symm
  simp only [get?, store, List.find?_cons, apart, decide_false, List.find?_filter]
  congr 1
  funext e
  by_cases same : e.name = name <;> simp [same, other]

theorem eq_of_name (r : Registry) (valid : r.Valid) (d e : Definition) (first : d ∈ r.functions)
    (second : e ∈ r.functions) (same : d.name = e.name) : d = e :=
  List.inj_on_of_nodup_map valid.unique first second same

theorem close_mem (r : Registry) (s : Snapshot) (pending : List String)
    (within : ∀ d ∈ s.functions, d ∈ r.functions) :
    ∀ d ∈ (r.close s pending).functions, d ∈ r.functions := by
  fun_induction close r s pending with
  | case1 s => exact within
  | case2 s pending d fresh known smaller ih =>
    apply ih
    intro e member
    rcases (mem_insertDefinition d e s.functions).mp member with rfl | old
    · exact (get?_mem r _ _ known).1
    · exact within e old
  | case3 s name pending fresh unknown ih => exact ih within
  | case4 s name pending taken ih => exact ih within

theorem snapshot_mem (r : Registry) (roots : List String) :
    ∀ d ∈ (r.snapshot roots).functions, d ∈ r.functions :=
  close_mem r {} roots (by simp)

theorem close_known (r : Registry) (s : Snapshot) (name : String) (pending : List String) (d : Definition)
    (fresh : s.functions.any (·.name = name) = false) (known : r.get? name = some d) :
    r.close s (name :: pending) =
      r.close { s with functions := insertDefinition d s.functions } (d.body.calls ++ pending) := by
  rw [close, dif_pos fresh]
  split
  · rename_i found
    cases known.symm.trans found
    rfl
  · rename_i unknown
    cases known.symm.trans unknown

-- The stamp of a definition was given, and nothing else now bears it under this name.
def Knows (r : Registry) (d : Definition) : Prop :=
  d.generation < r.nextGeneration ∧
    ∀ e ∈ r.functions, e.name = d.name → e.generation = d.generation → e = d

theorem knows_of_mem (r : Registry) (valid : r.Valid) (d : Definition) (member : d ∈ r.functions) :
    r.Knows d :=
  ⟨valid.stamped d member, fun e other same _ => eq_of_name r valid e d other member same⟩

theorem knows_store (r : Registry) (d new : Definition) (known : r.Knows d) : (r.store new).Knows d := by
  refine ⟨Nat.lt_succ_of_lt known.1, ?_⟩
  intro e member name stamp
  rcases mem_store r new e member with rfl | old
  · exact absurd stamp (Nat.ne_of_gt known.1)
  · exact known.2 e old name stamp

theorem eq_of_stamps (r : Registry) (known current : List Definition) (knows : ∀ d ∈ known, r.Knows d)
    (within : ∀ d ∈ current, d ∈ r.functions)
    (same : known.map (fun d => (d.name, d.generation)) = current.map fun d => (d.name, d.generation)) :
    known = current := by
  induction known generalizing current with
  | nil => exact (List.map_eq_nil_iff.mp same.symm).symm
  | cons d known ih =>
    cases current with
    | nil => cases same
    | cons e current =>
      simp only [List.map_cons, List.cons.injEq, Prod.mk.injEq] at same
      have head := (knows d (by simp)).2 e (within e (by simp)) same.1.1.symm same.1.2.symm
      have tail := ih current (fun d member => knows d (List.mem_cons_of_mem _ member))
        (fun d member => within d (List.mem_cons_of_mem _ member)) same.2
      rw [head, tail]

-- Equal fingerprints mean equal helpers, whenever the older ones were taken.
theorem eq_of_fingerprint (r : Registry) (old : Snapshot) (roots : List String)
    (knows : ∀ d ∈ old.functions, r.Knows d)
    (same : old.fingerprint = (r.snapshot roots).fingerprint) : old = r.snapshot roots := by
  simp only [Snapshot.fingerprint, Fingerprint.mk.injEq] at same
  have functions := eq_of_stamps r _ _ knows (snapshot_mem r roots) same.1
  cases old
  simp_all

end Registry
end GridKernel
