import GridKernel.Proofs.Function.Stamps
import Mathlib.Data.String.Basic
import Mathlib.Logic.Relation

namespace GridKernel

theorem mem_insertName (name other : String) (names : List String) :
    other ∈ insertName name names ↔ other = name ∨ other ∈ names := by
  induction names with
  | nil => simp [insertName]
  | cons first rest ih =>
    unfold insertName
    split
    · simp
    · split
      · rename_i same
        simp [same]
      · simp only [List.mem_cons, ih]
        constructor
        · rintro (h | h | h) <;> simp [h]
        · rintro (h | h | h) <;> simp [h]

theorem mem_nameSet (name : String) (names : List String) : name ∈ nameSet names ↔ name ∈ names := by
  have all : ∀ (names set : List String),
      name ∈ names.foldl (fun set n => insertName n set) set ↔ name ∈ set ∨ name ∈ names := by
    intro names
    induction names with
    | nil => simp
    | cons first rest ih =>
      intro set
      rw [List.foldl_cons, ih, mem_insertName, List.mem_cons]
      constructor
      · rintro ((h | h) | h) <;> simp [h]
      · rintro (h | h | h) <;> simp [h]
  rw [nameSet, all]
  simp

theorem Body.mem_calls {body : Body} {name : String} : name ∈ body.calls ↔ ∃ args, .call name args ∈ body.nodes := by
  rw [calls, mem_nameSet, List.mem_filterMap]
  constructor
  · rintro ⟨node, member, called⟩
    cases node with
    | call other args =>
      cases called
      exact ⟨args, member⟩
    | const | param | var | thread | extent | index | unary | binary | select => cases called
  · rintro ⟨args, member⟩
    exact ⟨_, member, rfl⟩

def Snapshot.Covers (s : Snapshot) (name : String) : Prop :=
  (∃ d ∈ s.functions, d.name = name) ∨ name ∈ s.missing

namespace Snapshot

-- Both lists are kept in the order of the names, without repetition.
structure Ordered (s : Snapshot) : Prop where
  functions : s.functions.Pairwise fun d e => d.name < e.name
  missing : s.missing.Pairwise (· < ·)

theorem Ordered.names {s : Snapshot} (ordered : s.Ordered) : s.names.Nodup := by
  rw [Snapshot.names, List.Nodup, List.pairwise_map]
  exact ordered.functions.imp ne_of_lt

theorem Ordered.nodup {s : Snapshot} (ordered : s.Ordered) : s.functions.Nodup :=
  List.Nodup.of_map _ ordered.names

end Snapshot

theorem insertDefinition_ordered (d : Definition) (fs : List Definition) (ordered : fs.Pairwise fun d e => d.name < e.name)
    (new : ∀ f ∈ fs, f.name ≠ d.name) : (insertDefinition d fs).Pairwise fun d e => d.name < e.name := by
  induction fs with
  | nil => simp [insertDefinition]
  | cons f fs ih =>
    obtain ⟨first, rest⟩ := List.pairwise_cons.mp ordered
    unfold insertDefinition
    split
    · rename_i before
      apply List.pairwise_cons.mpr
      refine ⟨?_, ordered⟩
      intro e member
      rcases List.mem_cons.mp member with rfl | later
      · exact before
      · exact lt_trans before (first e later)
    · rename_i after
      have behind : f.name < d.name := lt_of_le_of_ne (not_lt.mp after) (new f List.mem_cons_self)
      apply List.pairwise_cons.mpr
      refine ⟨?_, ih rest fun e member => new e (List.mem_cons_of_mem _ member)⟩
      intro e member
      rcases (mem_insertDefinition d e fs).mp member with rfl | old
      · exact behind
      · exact first e old

theorem insertName_ordered (name : String) (names : List String) (ordered : names.Pairwise (· < ·)) :
    (insertName name names).Pairwise (· < ·) := by
  induction names with
  | nil => simp [insertName]
  | cons first rest ih =>
    obtain ⟨least, others⟩ := List.pairwise_cons.mp ordered
    unfold insertName
    split
    · rename_i before
      apply List.pairwise_cons.mpr
      refine ⟨?_, ordered⟩
      intro other member
      rcases List.mem_cons.mp member with rfl | later
      · exact before
      · exact lt_trans before (least other later)
    · rename_i after
      split
      · exact ordered
      · rename_i differ
        apply List.pairwise_cons.mpr
        refine ⟨?_, ih others⟩
        intro other member
        rcases (mem_insertName name other rest).mp member with rfl | old
        · exact lt_of_le_of_ne (not_lt.mp after) (Ne.symm differ)
        · exact least other old

theorem insertName_listed (name : String) (names : List String) (ordered : names.Pairwise (· < ·)) (listed : name ∈ names) :
    insertName name names = names := by
  induction names with
  | nil => cases listed
  | cons first rest ih =>
    obtain ⟨least, others⟩ := List.pairwise_cons.mp ordered
    unfold insertName
    rcases List.mem_cons.mp listed with rfl | later
    · rw [if_neg (lt_irrefl _), if_pos rfl]
    · have after := least name later
      rw [if_neg (lt_asymm after), if_neg (ne_of_gt after), ih others later]

namespace Registry

-- Names reached through the bodies of registered helpers. One that is not registered is reached, too,
-- but leads nowhere.
inductive Reaches (r : Registry) (roots : List String) : String → Prop where
  | root {name : String} (member : name ∈ roots) : Reaches r roots name
  | call {caller name : String} {d : Definition} (reached : Reaches r roots caller)
      (known : r.get? caller = some d) (calls : name ∈ d.body.calls) : Reaches r roots name

theorem Reaches.trans {r : Registry} {roots others : List String} {name : String} (reached : r.Reaches roots name)
    (starts : ∀ root ∈ roots, r.Reaches others root) : r.Reaches others name := by
  induction reached with
  | root member => exact starts _ member
  | call _ known calls ih => exact .call ih known calls

-- What a name that is taken up next reaches was reached before.
theorem Reaches.calls {r : Registry} {pending : List String} {caller name : String} {d : Definition}
    (known : r.get? caller = some d) (reached : r.Reaches (d.body.calls ++ pending) name) :
    r.Reaches (caller :: pending) name := by
  refine reached.trans fun root member => ?_
  rcases List.mem_append.mp member with called | waiting
  · exact .call (.root List.mem_cons_self) known called
  · exact .root (List.mem_cons_of_mem _ waiting)

theorem Reaches.tail {r : Registry} {pending : List String} {first name : String}
    (reached : r.Reaches pending name) : r.Reaches (first :: pending) name :=
  reached.trans fun _ member => .root (List.mem_cons_of_mem _ member)

theorem close_unknown (r : Registry) (s : Snapshot) (name : String) (pending : List String)
    (fresh : s.functions.any (·.name = name) = false) (unknown : r.get? name = none) :
    r.close s (name :: pending) = r.close { s with missing := insertName name s.missing } pending := by
  rw [close, dif_pos fresh]
  split
  · rename_i found
    cases unknown.symm.trans found
  · rfl

theorem close_taken (r : Registry) (s : Snapshot) (name : String) (pending : List String)
    (taken : ¬ s.functions.any (·.name = name) = false) : r.close s (name :: pending) = r.close s pending := by
  rw [close, dif_neg taken]

theorem close_congr (r q : Registry) (s : Snapshot) (pending : List String)
    (same : ∀ name, r.Reaches pending name → q.get? name = r.get? name) : q.close s pending = r.close s pending := by
  fun_induction close r s pending with
  | case1 s => rw [close]
  | case2 s pending d fresh known _ ih =>
    have also : q.get? d.name = some d := (same d.name (.root List.mem_cons_self)).trans known
    rw [close_known q s d.name pending d fresh also]
    exact ih fun other reached => same other (reached.calls known)
  | case3 s name pending fresh unknown ih =>
    have also : q.get? name = none := (same name (.root List.mem_cons_self)).trans unknown
    rw [close_unknown q s name pending fresh also]
    exact ih fun other reached => same other reached.tail
  | case4 s name pending taken ih =>
    rw [close_taken q s name pending taken]
    exact ih fun other reached => same other reached.tail

section Worklist

-- One name is taken from those that wait, wherever it stands, and dealt with.
inductive Turn (r : Registry) : Snapshot × List String → Snapshot × List String → Prop where
  | again {s : Snapshot} {pending rest : List String} {name : String} (taken : pending.Perm (name :: rest))
      (seen : s.Covers name) : Turn r (s, pending) (s, rest)
  | found {s : Snapshot} {pending rest next : List String} {name : String} {d : Definition}
      (taken : pending.Perm (name :: rest)) (new : ¬ s.Covers name) (known : r.get? name = some d)
      (waiting : next.Perm (d.body.calls ++ rest)) :
      Turn r (s, pending) ({ s with functions := insertDefinition d s.functions }, next)
  | missed {s : Snapshot} {pending rest : List String} {name : String} (taken : pending.Perm (name :: rest))
      (new : ¬ s.Covers name) (unknown : r.get? name = none) :
      Turn r (s, pending) ({ s with missing := insertName name s.missing }, rest)

variable {r : Registry}

theorem fresh_of_new {s : Snapshot} {name : String} (new : ¬ s.Covers name) : s.functions.any (·.name = name) = false := by
  rw [List.any_eq_false]
  intro d member same
  exact new (.inl ⟨d, member, by simpa using same⟩)

-- Each turn takes up a helper that was left, or shortens the list.
theorem Turn.decreases {before after : Snapshot × List String} (turn : r.Turn before after) :
    Prod.Lex (· < ·) (· < ·) ((r.remaining after.1).length, after.2.length)
      ((r.remaining before.1).length, before.2.length) := by
  cases turn with
  | again taken seen =>
    apply Prod.Lex.right
    simp [taken.length_eq]
  | found taken new known waiting =>
    obtain ⟨_, rfl⟩ := r.get?_mem _ _ known
    exact Prod.Lex.left _ _ (remaining_insert_lt r _ _ known (fresh_of_new new))
  | missed taken new unknown =>
    apply Prod.Lex.right
    simp [taken.length_eq]

theorem turns_end (r : Registry) : WellFounded fun after before => r.Turn before after := by
  have measure : WellFounded (Prod.Lex (· < · : Nat → Nat → Prop) (· < · : Nat → Nat → Prop)) :=
    (Prod.lex Nat.lt_wfRel Nat.lt_wfRel).wf
  apply Subrelation.wf _ (InvImage.wf (fun state : Snapshot × List String => ((r.remaining state.1).length, state.2.length)) measure)
  intro after before turn
  exact turn.decreases

theorem turn_exists (s : Snapshot) {pending : List String} (waiting : pending ≠ []) : ∃ after, r.Turn (s, pending) after := by
  obtain ⟨name, rest, rfl⟩ := List.exists_cons_of_ne_nil waiting
  by_cases seen : s.Covers name
  · exact ⟨_, .again (.refl _) seen⟩
  · cases known : r.get? name with
    | some d => exact ⟨_, .found (.refl _) seen known (.refl _)⟩
    | none => exact ⟨_, .missed (.refl _) seen known⟩

-- What every turn keeps: all that is taken up, noted or waiting is reached, and nothing is forgotten.
structure Closing (r : Registry) (roots : List String) (s : Snapshot) (pending : List String) : Prop where
  ordered : s.Ordered
  functions : ∀ d ∈ s.functions, r.get? d.name = some d ∧ r.Reaches roots d.name
  missing : ∀ name ∈ s.missing, r.get? name = none ∧ r.Reaches roots name
  waiting : ∀ name ∈ pending, r.Reaches roots name
  started : ∀ name ∈ roots, s.Covers name ∨ name ∈ pending
  ahead : ∀ d ∈ s.functions, ∀ name ∈ d.body.calls, s.Covers name ∨ name ∈ pending

variable {roots : List String}

theorem Closing.start (r : Registry) (roots : List String) : r.Closing roots {} roots := by
  refine ⟨⟨.nil, .nil⟩, ?_, ?_, fun name => .root, fun name => .inr, ?_⟩
  · simp
  · simp
  · simp

theorem Closing.turn {before after : Snapshot × List String} (closing : r.Closing roots before.1 before.2)
    (turn : r.Turn before after) : r.Closing roots after.1 after.2 := by
  cases turn with
  | @again s pending rest name taken seen =>
    have moved : ∀ other, s.Covers other ∨ other ∈ pending → s.Covers other ∨ other ∈ rest := by
      rintro other (dealt | waits)
      · exact .inl dealt
      · rcases List.mem_cons.mp (taken.mem_iff.mp waits) with rfl | later
        · exact .inl seen
        · exact .inr later
    refine ⟨closing.ordered, closing.functions, closing.missing, ?_, ?_, ?_⟩
    · intro other waits
      exact closing.waiting other (taken.mem_iff.mpr (List.mem_cons_of_mem _ waits))
    · intro other root
      exact moved other (closing.started other root)
    · intro d member other called
      exact moved other (closing.ahead d member other called)
  | @found s pending rest next name d taken new known waiting =>
    obtain ⟨_, rfl⟩ := r.get?_mem _ _ known
    have reached : r.Reaches roots d.name := closing.waiting d.name (taken.mem_iff.mpr List.mem_cons_self)
    have moved : ∀ other, s.Covers other ∨ other ∈ pending →
        Snapshot.Covers { s with functions := insertDefinition d s.functions } other ∨ other ∈ next := by
      rintro other ((⟨e, member, rfl⟩ | noted) | waits)
      · exact .inl (.inl ⟨e, (mem_insertDefinition d e s.functions).mpr (.inr member), rfl⟩)
      · exact .inl (.inr noted)
      · rcases List.mem_cons.mp (taken.mem_iff.mp waits) with rfl | later
        · exact .inl (.inl ⟨d, (mem_insertDefinition d d s.functions).mpr (.inl rfl), rfl⟩)
        · exact .inr (waiting.mem_iff.mpr (List.mem_append_right _ later))
    refine ⟨⟨?_, closing.ordered.missing⟩, ?_, closing.missing, ?_, ?_, ?_⟩
    · apply insertDefinition_ordered d s.functions closing.ordered.functions
      intro f member same
      exact new (.inl ⟨f, member, same⟩)
    · intro e member
      rcases (mem_insertDefinition d e s.functions).mp member with rfl | old
      · exact ⟨known, reached⟩
      · exact closing.functions e old
    · intro other waits
      rcases List.mem_append.mp (waiting.mem_iff.mp waits) with called | later
      · exact .call reached known called
      · exact closing.waiting other (taken.mem_iff.mpr (List.mem_cons_of_mem _ later))
    · intro other root
      exact moved other (closing.started other root)
    · intro e member other called
      rcases (mem_insertDefinition d e s.functions).mp member with rfl | old
      · exact .inr (waiting.mem_iff.mpr (List.mem_append_left _ called))
      · exact moved other (closing.ahead e old other called)
  | @missed s pending rest name taken new unknown =>
    have moved : ∀ other, s.Covers other ∨ other ∈ pending →
        Snapshot.Covers { s with missing := insertName name s.missing } other ∨ other ∈ rest := by
      rintro other ((dealt | noted) | waits)
      · exact .inl (.inl dealt)
      · exact .inl (.inr ((mem_insertName name other s.missing).mpr (.inr noted)))
      · rcases List.mem_cons.mp (taken.mem_iff.mp waits) with rfl | later
        · exact .inl (.inr ((mem_insertName other other s.missing).mpr (.inl rfl)))
        · exact .inr later
    refine ⟨⟨closing.ordered.functions, insertName_ordered name s.missing closing.ordered.missing⟩, closing.functions, ?_, ?_,
      ?_, ?_⟩
    · intro other member
      rcases (mem_insertName name other s.missing).mp member with rfl | old
      · exact ⟨unknown, closing.waiting other (taken.mem_iff.mpr List.mem_cons_self)⟩
      · exact closing.missing other old
    · intro other waits
      exact closing.waiting other (taken.mem_iff.mpr (List.mem_cons_of_mem _ waits))
    · intro other root
      exact moved other (closing.started other root)
    · intro d member other called
      exact moved other (closing.ahead d member other called)

theorem Closing.turns {before after : Snapshot × List String} (closing : r.Closing roots before.1 before.2)
    (turns : Relation.ReflTransGen r.Turn before after) : r.Closing roots after.1 after.2 := by
  induction turns with
  | refl => exact closing
  | tail _ last ih => exact ih.turn last

theorem Closing.covers {s : Snapshot} (closing : r.Closing roots s []) {name : String} (reached : r.Reaches roots name) :
    s.Covers name := by
  induction reached with
  | root member => exact (closing.started _ member).resolve_right (by simp)
  | call _ known called ih =>
    rcases ih with ⟨e, member, rfl⟩ | noted
    · cases known.symm.trans (closing.functions e member).1
      exact (closing.ahead _ member _ called).resolve_right (by simp)
    · cases known.symm.trans (closing.missing _ noted).1

theorem Closing.mem_functions {s : Snapshot} (closing : r.Closing roots s []) (d : Definition) :
    d ∈ s.functions ↔ r.get? d.name = some d ∧ r.Reaches roots d.name := by
  refine ⟨closing.functions d, ?_⟩
  rintro ⟨known, reached⟩
  rcases closing.covers reached with ⟨e, member, same⟩ | noted
  · have own := (closing.functions e member).1
    rw [same] at own
    cases known.symm.trans own
    exact member
  · cases known.symm.trans (closing.missing _ noted).1

theorem Closing.mem_missing {s : Snapshot} (closing : r.Closing roots s []) (name : String) :
    name ∈ s.missing ↔ r.get? name = none ∧ r.Reaches roots name := by
  refine ⟨closing.missing name, ?_⟩
  rintro ⟨unknown, reached⟩
  rcases closing.covers reached with ⟨e, member, rfl⟩ | noted
  · cases unknown.symm.trans (closing.functions e member).1
  · exact noted

-- In the order of their names there is one list of the reached helpers and one of the missing names.
theorem Closing.eq {s t : Snapshot} (one : r.Closing roots s []) (two : r.Closing roots t []) : s = t := by
  have functions : s.functions = t.functions := by
    have same : s.functions.Perm t.functions := by
      apply (List.perm_ext_iff_of_nodup one.ordered.nodup two.ordered.nodup).mpr
      intro d
      rw [one.mem_functions, two.mem_functions]
    apply same.eq_of_pairwise _ one.ordered.functions two.ordered.functions
    intro d e _ _ before after
    exact absurd after (lt_asymm before)
  have missing : s.missing = t.missing := by
    have same : s.missing.Perm t.missing := by
      apply (List.perm_ext_iff_of_nodup (one.ordered.missing.imp ne_of_lt) (two.ordered.missing.imp ne_of_lt)).mpr
      intro name
      rw [one.mem_missing, two.mem_missing]
    apply same.eq_of_pairwise _ one.ordered.missing two.ordered.missing
    intro a b _ _ before after
    exact absurd after (lt_asymm before)
  cases s
  cases t
  simp_all

-- Working the names off from the front is one such order.
theorem close_turns (s : Snapshot) (pending : List String) (closing : r.Closing roots s pending) :
    Relation.ReflTransGen r.Turn (s, pending) (r.close s pending, []) := by
  fun_induction close r s pending with
  | case1 s => exact .refl
  | case2 s pending d fresh known _ ih =>
    have new : ¬ s.Covers d.name := by
      rintro (⟨e, member, same⟩ | noted)
      · exact List.any_eq_false.mp fresh e member (by simpa using same)
      · cases known.symm.trans (closing.missing _ noted).1
    have turn := Turn.found (.refl (d.name :: pending)) new known (.refl _)
    exact .head turn (ih (closing.turn turn))
  | case3 s name pending fresh unknown ih =>
    by_cases noted : name ∈ s.missing
    · have same : ({ s with missing := insertName name s.missing } : Snapshot) = s := by
        rw [insertName_listed name s.missing closing.ordered.missing noted]
      have turn : r.Turn (s, name :: pending) (s, pending) := .again (.refl _) (.inr noted)
      rw [same] at ih ⊢
      exact .head turn (ih (closing.turn turn))
    · have new : ¬ s.Covers name := by
        rintro (⟨e, member, same⟩ | listed)
        · exact List.any_eq_false.mp fresh e member (by simpa using same)
        · exact noted listed
      have turn := Turn.missed (.refl (name :: pending)) new unknown
      exact .head turn (ih (closing.turn turn))
  | case4 s name pending taken ih =>
    have turn : r.Turn (s, name :: pending) (s, pending) := .again (.refl _) (.inl (by simpa using taken))
    exact .head turn (ih (closing.turn turn))

theorem snapshot_closing (r : Registry) (roots : List String) : r.Closing roots (r.snapshot roots) [] :=
  (Closing.start r roots).turns (close_turns {} roots (.start r roots))

theorem mem_snapshot_functions (r : Registry) (roots : List String) (d : Definition) :
    d ∈ (r.snapshot roots).functions ↔ r.get? d.name = some d ∧ r.Reaches roots d.name :=
  (snapshot_closing r roots).mem_functions d

theorem mem_snapshot_missing (r : Registry) (roots : List String) (name : String) :
    name ∈ (r.snapshot roots).missing ↔ r.get? name = none ∧ r.Reaches roots name :=
  (snapshot_closing r roots).mem_missing name

end Worklist

theorem snapshot_get? {r : Registry} {roots : List String} {name : String} {d : Definition} :
    (r.snapshot roots).get? name = some d ↔ r.get? name = some d ∧ r.Reaches roots name := by
  constructor
  · intro found
    have named : d.name = name := by simpa using List.find?_some found
    exact named ▸ (r.mem_snapshot_functions roots d).mp (List.mem_of_find?_eq_some found)
  · rintro ⟨known, reached⟩
    obtain rfl := (r.get?_mem name d known).2
    have member := (r.mem_snapshot_functions roots d).mpr ⟨known, reached⟩
    cases found : (r.snapshot roots).get? d.name with
    | none =>
      have other := List.find?_eq_none.mp found d member
      simp at other
    | some e =>
      have named : e.name = d.name := by simpa using List.find?_some found
      have also := ((r.mem_snapshot_functions roots e).mp (List.mem_of_find?_eq_some found)).1
      rw [named] at also
      exact also.symm.trans known

theorem snapshot_get?_reached {r : Registry} {roots : List String} {name : String} (reached : r.Reaches roots name) :
    (r.snapshot roots).get? name = r.get? name := by
  cases known : r.get? name with
  | some d => exact snapshot_get?.mpr ⟨known, reached⟩
  | none =>
    cases found : (r.snapshot roots).get? name with
    | none => rfl
    | some d => cases known.symm.trans (snapshot_get?.mp found).1

-- Two registries have the same under every name that the first one reaches.
def Agrees (r q : Registry) (roots : List String) : Prop := ∀ name, r.Reaches roots name → q.get? name = r.get? name

theorem agrees_iff (r q : Registry) (roots : List String) : r.Agrees q roots ↔ q.snapshot roots = r.snapshot roots := by
  refine ⟨fun agrees => close_congr r q {} roots agrees, fun same name reached => ?_⟩
  cases known : r.get? name with
  | some d =>
    obtain rfl := (r.get?_mem name d known).2
    have taken := (r.mem_snapshot_functions roots d).mpr ⟨known, reached⟩
    exact ((q.mem_snapshot_functions roots d).mp (same ▸ taken)).1
  | none =>
    have noted := (r.mem_snapshot_missing roots name).mpr ⟨known, reached⟩
    exact ((q.mem_snapshot_missing roots name).mp (same ▸ noted)).1

end Registry
end GridKernel
